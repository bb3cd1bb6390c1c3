/-
**persist reads what is published.**

`_varint` undoes a varint wherever it stands in the payload (`varint_encode`), so one turn of each
loop reads exactly one field (`parseParamField_encode`, `parseField_encode`) and the loops read whole
messages by `readAll_flatMap`. Whoever writes the fields of a message in order is read
(`parseSignal_contents`). `parseSignal_encode`: the decoder returns the fields of the signal that was
encoded, and nothing else.
-/

import ExecRelay.Persist.ParseSignal
import ExecRelay.Proto.Signal

namespace ExecRelay.Persist

open Lib
open Proto (Signal SignalParam canonicalSignal)

variable {data rest : Bytes} {pos : Nat}

/-! ### Numbers and payloads at a position -/

theorem getElem?_of_drop {byte : UInt8} (left : data.drop pos = byte :: rest) :
    data[pos]? = some byte ∧ data.drop (pos + 1) = rest := by
  constructor
  · rw [← List.head?_drop, left, List.head?_cons]
  · rw [← List.drop_drop, left, List.drop_succ_cons, List.drop_zero]

theorem varintLoop_eq : ∀ fuel pos result shift, data.length ≤ pos + fuel → result < 2 ^ shift →
    varintLoop data fuel pos result shift = (takeVarint (data.drop pos)).map
      fun read => (result + read.1 * 2 ^ shift, data.length - read.2.length) := by
  intro fuel
  induction fuel with
  | zero =>
    intro pos result shift enough _
    rw [List.drop_eq_nil_of_le (by omega : data.length ≤ pos)]
    rfl
  | succ fuel ih =>
    intro pos result shift enough below
    rw [varintLoop]
    cases left : data.drop pos with
    | nil =>
      rw [List.getElem?_eq_none (List.drop_eq_nil_iff.mp left)]
      rfl
    | cons byte rest =>
      obtain ⟨here, behind⟩ := getElem?_of_drop left
      have fits : byte.toNat < 256 := byte.toNat_lt
      have high := high_bit fits
      have low := low_bits fits
      rw [UInt8.ofNat_toNat] at high low
      rw [here, takeVarint]
      by_cases last : byte.toNat < 128
      · have sizes := congrArg List.length left
        rw [List.length_drop, List.length_cons] at sizes
        simp only [high.mpr last, last, if_true, low, or_shiftLeft below, Nat.mod_eq_of_lt last,
          Option.map_some]
        rw [show data.length - rest.length = pos + 1 by omega]
      · have more : ¬ byte &&& 0x80 = 0 := fun ended => last (high.mp ended)
        simp only [more, last, if_false, low, or_shiftLeft below]
        rw [ih (pos + 1) _ _ (by omega) (group_lt below byte.toNat), behind, Option.map_map]
        refine congrFun (congrArg Option.map (funext fun read => ?_)) (takeVarint rest)
        have value : byte.toNat - 128 + 128 * read.1 = byte.toNat % 128 + 128 * read.1 := by omega
        simp only [Function.comp_apply, value, group_add]

/-- **What `_varint` reads**: the varint at its position, if one ends. -/
theorem varint_eq (data : Bytes) (pos : Nat) : varint data pos =
    (takeVarint (data.drop pos)).map fun read => (read.1, data.length - read.2.length) := by
  rw [varint, varintLoop_eq data.length pos 0 0 (by omega) (by decide)]
  simp

/-- **`_varint` undoes a varint.** -/
theorem varint_encode {number : Nat} (left : data.drop pos = encodeVarint number ++ rest) :
    varint data pos = some (number, pos + (encodeVarint number).length) := by
  have sizes := congrArg List.length left
  have given := List.length_pos_of_ne_nil (encodeVarint_ne_nil number)
  rw [List.length_drop, List.length_append] at sizes
  rw [varint_eq, left, takeVarint_encode, Option.map_some,
    show data.length - rest.length = pos + (encodeVarint number).length by omega]

theorem lengthDelimited_encode {payload : Bytes} {truncated : ProtoParseError}
    {overruns : Nat → ProtoParseError}
    (left : data.drop pos = encodeVarint payload.length ++ (payload ++ rest)) :
    lengthDelimited data pos truncated overruns =
      .ok (payload, pos + (encodeVarint payload.length).length + payload.length) := by
  have behind : data.drop (pos + (encodeVarint payload.length).length) = payload ++ rest := by
    rw [← List.drop_drop, left, List.drop_left]
  have fits : ¬ data.length < pos + (encodeVarint payload.length).length + payload.length := by
    have sizes := congrArg List.length behind
    rw [List.length_drop, List.length_append] at sizes
    by_cases none : payload = []
    · subst none
      have sizes' := congrArg List.length left
      rw [List.length_drop, List.length_append] at sizes'
      have := List.length_pos_of_ne_nil (encodeVarint_ne_nil ([] : Bytes).length)
      omega
    · have := List.length_pos_of_ne_nil none
      omega
  have cut : slice data (pos + (encodeVarint payload.length).length)
      (pos + (encodeVarint payload.length).length + payload.length) = payload := by
    rw [slice, Nat.add_sub_cancel_left, behind, List.take_left]
  rw [lengthDelimited, varint_encode left]
  show (rejectIf _ _ >>= fun _ => pure _) = .ok _
  rw [rejectIf_bind_eq_ok, cut]
  exact ⟨fits, rfl⟩

theorem decodeUtf8_eq_ok {text : Bytes} (valid : validUtf8 text = true) (error : ProtoParseError) :
    decodeUtf8 error text = .ok text := by
  rw [decodeUtf8, rejectIf_bind_eq_ok, Bool.not_eq_false]
  exact ⟨valid, rfl⟩

/-! ### One parameter -/

def applyParamField (param : ParamDict) : Field → ParamDict
  | .number _ _ => param
  | .payload field bytes => param.store field bytes

def ReadableInParam : Field → Prop
  | .number _ _ => False
  | .payload _ bytes => validUtf8 bytes = true

theorem parseParamField_encode (raw : Bytes) (pos : Nat) (param : ParamDict) (field : Field)
    (rest : Bytes) (readable : ReadableInParam field) (left : raw.drop pos = field.encode ++ rest) :
    parseParamField raw pos param =
      .ok (pos + field.encode.length, applyParamField param field) := by
  cases field with
  | number _ _ => exact readable.elim
  | payload number bytes =>
    rw [Field.encode, List.append_assoc, List.append_assoc] at left
    have behind : raw.drop (pos + (encodeVarint (tag number wireBytes)).length) =
        encodeVarint bytes.length ++ (bytes ++ rest) := by
      rw [← List.drop_drop, left, List.drop_left]
    have wire : tag number wireBytes &&& 0x7 = 2 := tag_and (by decide)
    have numbered : tag number wireBytes >>> 3 = number := tag_shiftRight (by decide)
    rw [parseParamField, varint_encode left]
    show (rejectIf _ _ >>= fun _ => _) = .ok _
    rw [rejectIf_bind_eq_ok, wire, lengthDelimited_encode behind]
    refine ⟨fun differs => differs rfl, ?_⟩
    show (decodeUtf8 _ bytes >>= fun text => pure (_, _)) = .ok _
    rw [decodeUtf8_eq_ok readable, numbered, Field.add_length_payload]
    rfl

theorem parseParam_texts {key value : Bytes} (keyValid : validUtf8 key = true)
    (valueValid : validUtf8 value = true) :
    parseParam (encodeFields [.payload 1 key, .payload 2 value]) = .ok ⟨some key, some value⟩ := by
  have readable : ∀ field ∈ [Field.payload 1 key, .payload 2 value], ReadableInParam field := by
    intro field member
    rcases List.mem_cons.mp member with rfl | member
    · exact keyValid
    · rw [List.mem_singleton.mp member]
      exact valueValid
  exact readAll_flatMap Field.encode applyParamField ReadableInParam Field.encode_ne_nil
    (parseParamField_encode _) _ _ 0 {} readable rfl (length_le_encodeFields _)

def paramDictOf (param : SignalParam) : ParamDict :=
  { key := some param.key, value := some param.value }

theorem parseParam_encode (param : SignalParam) (keyGiven : param.key ≠ [])
    (valueGiven : param.value ≠ []) (valid : param.wellFormed = true) :
    parseParam param.encode = .ok (paramDictOf param) := by
  rw [SignalParam.wellFormed, Bool.and_eq_true] at valid
  have given : param.fields = [.payload 1 param.key, .payload 2 param.value] := by
    rw [SignalParam.fields, Field.ofText, Field.ofText, if_neg keyGiven, if_neg valueGiven]
    rfl
  rw [SignalParam.encode, given]
  exact parseParam_texts valid.1 valid.2

/-! ### The message -/

def applyField (sig : SignalDict) : Field → SignalDict
  | .number field value =>
    if field = 8 then { sig with receivedUnixNano := some value } else sig
  | .payload field bytes =>
    match storePayload sig field bytes with
    | .ok stored => stored
    | .error _ => sig

def Readable : Field → Prop
  | .number _ _ => True
  | .payload field bytes => ∀ sig, ∃ stored, storePayload sig field bytes = .ok stored

theorem parseField_encode (data : Bytes) (pos : Nat) (sig : SignalDict) (field : Field)
    (rest : Bytes) (readable : Readable field) (left : data.drop pos = field.encode ++ rest) :
    parseField data pos sig = .ok (pos + field.encode.length, applyField sig field) := by
  cases field with
  | number number value =>
    rw [Field.encode, List.append_assoc] at left
    have behind : data.drop (pos + (encodeVarint (tag number wireVarint)).length) =
        encodeVarint value ++ rest := by
      rw [← List.drop_drop, left, List.drop_left]
    have wire : tag number wireVarint &&& 0x7 = 0 := tag_and (by decide)
    have numbered : tag number wireVarint >>> 3 = number := tag_shiftRight (by decide)
    rw [parseField, varint_encode left]
    simp only [orRaise, pure_bind, wire, numbered, varint_encode behind]
    rw [Field.add_length_number]
    rfl
  | payload number bytes =>
    rw [Field.encode, List.append_assoc, List.append_assoc] at left
    have behind : data.drop (pos + (encodeVarint (tag number wireBytes)).length) =
        encodeVarint bytes.length ++ (bytes ++ rest) := by
      rw [← List.drop_drop, left, List.drop_left]
    obtain ⟨stored, stores⟩ := readable sig
    have wire : tag number wireBytes &&& 0x7 = 2 := tag_and (by decide)
    have numbered : tag number wireBytes >>> 3 = number := tag_shiftRight (by decide)
    rw [parseField, varint_encode left]
    simp only [orRaise, pure_bind, wire, numbered, lengthDelimited_encode behind]
    show (storePayload sig number bytes >>= fun sig => pure (_, sig)) = _
    rw [applyField, stores, Field.add_length_payload]
    rfl

/-! ### The fields of a message -/

/-- What a message is put together from: its texts, its time, and its parameters with the dictionaries
that they are decoded to. A text that is empty and a time of zero are left out. -/
structure Contents where
  traceId : Bytes
  licenseId : Bytes
  instanceId : Bytes
  command : Bytes
  rawCommand : Bytes
  symbol : Bytes
  ingressRegion : Bytes
  time : Nat
  bodySha256 : Bytes
  params : List (Bytes × ParamDict)

namespace Contents

variable (contents : Contents)

def texts : List Bytes :=
  [contents.traceId, contents.licenseId, contents.instanceId, contents.command,
    contents.rawCommand, contents.symbol, contents.ingressRegion, contents.bodySha256]

def fields : List Field :=
  Field.ofText 1 contents.traceId ++ Field.ofText 2 contents.licenseId ++
    Field.ofText 3 contents.instanceId ++ Field.ofText 4 contents.command ++
    Field.ofText 5 contents.rawCommand ++ Field.ofText 6 contents.symbol ++
    Field.ofText 7 contents.ingressRegion ++ Field.ofNumber 8 contents.time ++
    Field.ofText 9 contents.bodySha256 ++
    contents.params.map fun param => Field.payload 10 param.1

end Contents

def present (text : Bytes) : Option Bytes :=
  if text = [] then none else some text

def Contents.dict (contents : Contents) : SignalDict where
  traceId := present contents.traceId
  licenseId := present contents.licenseId
  instanceId := present contents.instanceId
  command := present contents.command
  rawCommand := present contents.rawCommand
  symbol := present contents.symbol
  ingressRegion := present contents.ingressRegion
  receivedUnixNano := if contents.time = 0 then none else some contents.time
  bodySha256 := present contents.bodySha256
  params := contents.params.map Prod.snd

variable {field : Nat} {text : Bytes}

theorem storePayload_of_storeText {sig stored : SignalDict}
    (known : sig.storeText field text = some stored) (valid : validUtf8 text = true) :
    storePayload sig field text = .ok stored := by
  rw [storePayload, known]
  show (decodeUtf8 _ text >>= fun _ => pure stored) = .ok stored
  rw [decodeUtf8_eq_ok valid]
  rfl

theorem storePayload_param (sig : SignalDict) {raw : Bytes} {param : ParamDict}
    (parsed : parseParam raw = .ok param) :
    storePayload sig 10 raw = .ok { sig with params := sig.params ++ [param] } := by
  show (parseParam raw >>= fun param => pure { sig with params := sig.params ++ [param] }) = _
  rw [parsed]
  rfl

def IsTextField (field : Nat) : Prop :=
  field ∈ [1, 2, 3, 4, 5, 6, 7, 9]

theorem storeText_isSome (known : IsTextField field) (sig : SignalDict) (text : Bytes) :
    ∃ stored, sig.storeText field text = some stored := by
  simp only [IsTextField, List.mem_cons, List.not_mem_nil, or_false] at known
  rcases known with rfl | rfl | rfl | rfl | rfl | rfl | rfl | rfl <;> exact ⟨_, rfl⟩

theorem readable_ofText (known : IsTextField field) (valid : validUtf8 text = true) :
    ∀ item ∈ Field.ofText field text, Readable item := by
  intro item member
  unfold Field.ofText at member
  split at member
  · cases member
  · rw [List.mem_singleton.mp member]
    intro sig
    obtain ⟨stored, stores⟩ := storeText_isSome known sig text
    exact ⟨stored, storePayload_of_storeText stores valid⟩

variable {sig : SignalDict}

theorem foldl_ofText (fill : Option Bytes → SignalDict) (absent : fill none = sig)
    (known : sig.storeText field text = some (fill (some text))) (valid : validUtf8 text = true) :
    (Field.ofText field text).foldl applyField sig = fill (present text) := by
  unfold Field.ofText present
  split
  · rw [List.foldl_nil, absent]
  · rw [List.foldl_cons, List.foldl_nil, applyField, storePayload_of_storeText known valid]

theorem foldl_params (params : List (Bytes × ParamDict)) (sig : SignalDict)
    (given : ∀ param ∈ params, parseParam param.1 = .ok param.2) :
    (params.map fun param => Field.payload 10 param.1).foldl applyField sig =
      { sig with params := sig.params ++ params.map Prod.snd } := by
  induction params generalizing sig with
  | nil => simp
  | cons param rest ih =>
    rw [List.map_cons, List.foldl_cons, applyField,
      storePayload_param sig (given param (List.mem_cons_self ..)),
      ih _ fun other member => given other (List.mem_cons_of_mem _ member)]
    simp

theorem foldl_ofNumber (time : Nat) (absent : sig.receivedUnixNano = none) :
    (Field.ofNumber 8 time).foldl applyField sig =
      { sig with receivedUnixNano := if time = 0 then none else some (time : Int) } := by
  unfold Field.ofNumber
  split
  · rw [List.foldl_nil, ← absent]
  · rw [List.foldl_cons, List.foldl_nil, applyField, if_pos rfl]

section Contents

variable {contents : Contents} (valid : ∀ text ∈ contents.texts, validUtf8 text = true)
  (given : ∀ param ∈ contents.params, parseParam param.1 = .ok param.2)
include valid given

theorem foldl_fields : contents.fields.foldl applyField {} = contents.dict := by
  -- each field finds its entry still empty and fills it
  unfold Contents.fields
  simp only [List.foldl_append]
  rw [foldl_ofText (fun text => ⟨text, none, none, none, none, none, none, none, none, []⟩) rfl rfl
      (valid contents.traceId (by simp [Contents.texts])),
    foldl_ofText (fun text => ⟨_, text, none, none, none, none, none, none, none, []⟩) rfl rfl
      (valid contents.licenseId (by simp [Contents.texts])),
    foldl_ofText (fun text => ⟨_, _, text, none, none, none, none, none, none, []⟩) rfl rfl
      (valid contents.instanceId (by simp [Contents.texts])),
    foldl_ofText (fun text => ⟨_, _, _, text, none, none, none, none, none, []⟩) rfl rfl
      (valid contents.command (by simp [Contents.texts])),
    foldl_ofText (fun text => ⟨_, _, _, _, text, none, none, none, none, []⟩) rfl rfl
      (valid contents.rawCommand (by simp [Contents.texts])),
    foldl_ofText (fun text => ⟨_, _, _, _, _, text, none, none, none, []⟩) rfl rfl
      (valid contents.symbol (by simp [Contents.texts])),
    foldl_ofText (fun text => ⟨_, _, _, _, _, _, text, none, none, []⟩) rfl rfl
      (valid contents.ingressRegion (by simp [Contents.texts])),
    foldl_ofNumber contents.time rfl,
    foldl_ofText (fun text => ⟨_, _, _, _, _, _, _, _, text, []⟩) rfl rfl
      (valid contents.bodySha256 (by simp [Contents.texts])),
    foldl_params _ _ given]
  rfl

theorem readable_fields : ∀ field ∈ contents.fields, Readable field := by
  have text (number : Nat) (value : Bytes) (known : IsTextField number)
      (member : value ∈ contents.texts) : ∀ field ∈ Field.ofText number value, Readable field :=
    readable_ofText known (valid value member)
  unfold Contents.fields
  simp only [List.forall_mem_append]
  refine ⟨⟨⟨⟨⟨⟨⟨⟨⟨text 1 _ ?_ ?_, text 2 _ ?_ ?_⟩, text 3 _ ?_ ?_⟩, text 4 _ ?_ ?_⟩,
    text 5 _ ?_ ?_⟩, text 6 _ ?_ ?_⟩, text 7 _ ?_ ?_⟩, ?_⟩, text 9 _ ?_ ?_⟩, ?_⟩
  case refine_15 =>
    intro field member
    unfold Field.ofNumber at member
    split at member
    · cases member
    · rw [List.mem_singleton.mp member]
      trivial
  case refine_18 =>
    intro field member
    obtain ⟨param, inside, rfl⟩ := List.mem_map.mp member
    exact fun sig => ⟨_, storePayload_param sig (given param inside)⟩
  all_goals simp [IsTextField, Contents.texts]

/-- **Whoever writes the fields of a message in order is read**: the decoder returns the dictionary of
the contents, if the required texts are there. -/
theorem parseSignal_contents (traceGiven : contents.traceId ≠ [])
    (licenseGiven : contents.licenseId ≠ []) (commandGiven : contents.command ≠ [])
    (symbolGiven : contents.symbol ≠ []) :
    parseSignal (encodeFields contents.fields) = .ok contents.dict := by
  have read := readAll_flatMap Field.encode applyField Readable Field.encode_ne_nil
    (parseField_encode (encodeFields contents.fields)) contents.fields
    (encodeFields contents.fields).length 0 {} (readable_fields valid given) rfl
    (length_le_encodeFields contents.fields)
  rw [foldl_fields valid given] at read
  have notEmpty : encodeFields contents.fields ≠ [] := by
    intro empty
    rw [empty] at read
    injection read with same
    have absent := congrArg SignalDict.traceId same
    rw [Contents.dict, present, if_neg traceGiven] at absent
    cases absent
  have complete : contents.dict.missing = [] := by
    simp [SignalDict.missing, SignalDict.required, Contents.dict, present, traceGiven, licenseGiven,
      commandGiven, symbolGiven]
  rw [parseSignal, rejectIf_bind_eq_ok, read]
  refine ⟨notEmpty, ?_⟩
  show (rejectIf _ _ >>= fun _ => pure contents.dict) = .ok _
  rw [rejectIf_bind_eq_ok]
  exact ⟨fun missing => missing complete, rfl⟩

end Contents

/-! ### Signals -/

/-- **The dictionary of a signal**: its field values, without those that hold their default. -/
def dictOf (signal : Signal) : SignalDict where
  traceId := present signal.traceId
  licenseId := present signal.licenseId
  instanceId := present signal.instanceId
  command := present signal.command
  rawCommand := present signal.rawCommand
  symbol := present signal.symbol
  ingressRegion := present signal.ingressRegion
  receivedUnixNano :=
    if signal.receivedUnixNano = 0 then none else some signal.receivedUnixNano.toInt
  bodySha256 := present signal.bodySha256
  params := signal.params.map paramDictOf

def contentsOf (signal : Signal) : Contents where
  traceId := signal.traceId
  licenseId := signal.licenseId
  instanceId := signal.instanceId
  command := signal.command
  rawCommand := signal.rawCommand
  symbol := signal.symbol
  ingressRegion := signal.ingressRegion
  time := signal.receivedUnixNano.toUInt64.toNat
  bodySha256 := signal.bodySha256
  params := signal.params.map fun param => (param.encode, paramDictOf param)

theorem fields_contentsOf (signal : Signal) : (contentsOf signal).fields = signal.fields := by
  unfold Contents.fields Signal.fields
  simp only [contentsOf, List.map_map]
  rfl

variable {signal : Signal}

theorem parseSignal_contentsOf (traceGiven : signal.traceId ≠ [])
    (licenseGiven : signal.licenseId ≠ []) (commandGiven : signal.command ≠ [])
    (symbolGiven : signal.symbol ≠ []) (valid : signal.wellFormed = true)
    (paramsGiven : ∀ param ∈ signal.params, param.key ≠ [] ∧ param.value ≠ []) :
    parseSignal signal.encode = .ok (contentsOf signal).dict := by
  rw [Signal.wellFormed, Bool.and_eq_true, List.all_eq_true, List.all_eq_true] at valid
  have given : ∀ param ∈ (contentsOf signal).params, parseParam param.1 = .ok param.2 := by
    intro param member
    obtain ⟨source, inside, rfl⟩ := List.mem_map.mp member
    exact parseParam_encode source (paramsGiven source inside).1 (paramsGiven source inside).2
      (valid.2 source inside)
  rw [Signal.encode, ← fields_contentsOf]
  exact parseSignal_contents valid.1 given traceGiven licenseGiven commandGiven symbolGiven

theorem toUInt64_toNat {time : Int64} (nonneg : 0 ≤ time) :
    (time.toUInt64.toNat : Int) = time.toInt := by
  have positive : 0 ≤ time.toInt := Int64.le_iff_toInt_le.mp nonneg
  rw [← Int64.toInt_toBitVec, BitVec.toInt_eq_toNat_cond] at positive ⊢
  show (time.toBitVec.toNat : Int) = _
  split at positive <;> split <;> omega

theorem dict_contentsOf (nonneg : 0 ≤ signal.receivedUnixNano) :
    (contentsOf signal).dict = dictOf signal := by
  have same := toUInt64_toNat nonneg
  have zero : signal.receivedUnixNano.toUInt64.toNat = 0 ↔ signal.receivedUnixNano = 0 := by
    rw [← Int64.toInt_inj, Int64.toInt_zero, ← same]
    omega
  simp only [Contents.dict, contentsOf, dictOf, List.map_map, zero, same]
  rfl

/-- **persist reads what is published.** A signal with a trace id, a license id, a command and a
symbol, with UTF-8 texts, parameters that are not empty and a time that is not negative is decoded
from its standard encoding to exactly its own fields. -/
theorem parseSignal_encode (signal : Signal) (traceGiven : signal.traceId ≠ [])
    (licenseGiven : signal.licenseId ≠ []) (commandGiven : signal.command ≠ [])
    (symbolGiven : signal.symbol ≠ []) (valid : signal.wellFormed = true)
    (paramsGiven : ∀ param ∈ signal.params, param.key ≠ [] ∧ param.value ≠ [])
    (nonneg : 0 ≤ signal.receivedUnixNano) :
    parseSignal signal.encode = .ok (dictOf signal) := by
  rw [← dict_contentsOf nonneg]
  exact parseSignal_contentsOf traceGiven licenseGiven commandGiven symbolGiven valid paramsGiven

/-- The fixture of the wire-format test is such a signal. -/
theorem parseSignal_encode_canonicalSignal :
    parseSignal canonicalSignal.encode = .ok (dictOf canonicalSignal) :=
  parseSignal_encode canonicalSignal (by decide) (by decide) (by decide) (by decide)
    (by decide +kernel) (by decide) (by decide)

end ExecRelay.Persist
