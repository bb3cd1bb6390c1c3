/-
**What the decoder of persist raises.**

`ParseSignal` computes what `parse_signal` comes to. Here is the function as it runs: its loops take one
turn after the other, it reads bytes and slices of its buffers, `data[pos]` raises an `IndexError` and
`decode` a `UnicodeDecodeError`, and handlers turn them into a `ProtoParseError`, whose text has to be
put together first.
-/

import ExecRelay.Lib.Reading
import ExecRelay.Persist.RoundTrip

namespace ExecRelay.Persist.Raising

open Lib
open Lib.Reading (Ends Simulates)

/-! ### The function -/

inductive Raised
  | indexError
  | unicodeDecodeError
  | valueError
  | protoParseError (error : ProtoParseError)
deriving DecidableEq, Repr

abbrev Reader (Value : Type) := Reading Raised Value

/-- What is raised by `raise ProtoParseError(f"…")`. -/
def raisedFor (error : ProtoParseError) : Raised :=
  if error.Printable then .protoParseError error else .valueError

def raiseProtoParseError {Value : Type} (error : ProtoParseError) : Reader Value :=
  Reading.raise (raisedFor error)

/-- `except IndexError`. -/
def exceptIndexError {Value : Type} (error : ProtoParseError) (program : Reader Value) :
    Reader Value :=
  program.handle fun
    | .indexError => some (raiseProtoParseError error)
    | _ => none

/-- `except UnicodeDecodeError`. -/
def exceptUnicodeDecodeError {Value : Type} (error : ProtoParseError) (program : Reader Value) :
    Reader Value :=
  program.handle fun
    | .unicodeDecodeError => some (raiseProtoParseError error)
    | _ => none

/-- One turn of the loop of `_varint`, at a position with what was read and its number of bits. -/
def varintTurn {Error : Type} (outOfRange : Error) (data : Bytes) :
    Nat × Nat × Nat → Reading Error (Turn (Nat × Nat × Nat) (Nat × Nat))
  | (pos, result, shift) => do
      let byte ← Reading.index outOfRange data pos
      let result := result ||| (byte &&& 0x7F).toNat <<< shift
      if byte &&& 0x80 = 0 then pure (.leave (result, pos + 1))
      else pure (.again (pos + 1, result, shift + 7))

/-- `_varint`, which raises `outOfRange` behind the end. -/
def varint {Error : Type} (outOfRange : Error) (data : Bytes) (pos : Nat) : Reading Error (Nat × Nat) :=
  Reading.loop (varintTurn outOfRange data) (pos, 0, 0)

/-- `raw.decode("utf-8")`. -/
def decode (raw : Bytes) : Reader Bytes :=
  if validUtf8 raw = true then pure raw else Reading.raise .unicodeDecodeError

/-- One turn of the loop over a nested `SignalParam`. -/
def paramTurn (raw : Bytes) (pos : Nat) (param : ParamDict) :
    Reader (Turn (Nat × ParamDict) ParamDict) := do
  let (tag, pos) ← exceptIndexError .truncatedNestedTag (varint .indexError raw pos)
  if tag &&& 0x7 ≠ 2 then
    raiseProtoParseError (.unknownNestedWireType (tag &&& 0x7))
  else
    let (length, pos) ← exceptIndexError .truncatedNestedLength (varint .indexError raw pos)
    if raw.length < pos + length then
      raiseProtoParseError .nestedOverruns
    else
      let text ← exceptUnicodeDecodeError .nestedNotUtf8 do
        decode (← Reading.cut raw pos (pos + length))
      pure (.again (pos + length, param.store (tag >>> 3) text))

def parseParam (raw : Bytes) : Reader ParamDict :=
  Reading.readWhile raw.length (paramTurn raw) 0 {}

def storePayload (sig : SignalDict) (field : Nat) (raw : Bytes) : Reader SignalDict :=
  match sig.storeText field raw with
  | some stored => do
      let _ ← exceptUnicodeDecodeError (.notUtf8 field) (decode raw)
      pure stored
  | none =>
    if field = 10 then do
      let param ← parseParam raw
      pure { sig with params := sig.params ++ [param] }
    else
      pure sig

/-- One turn of the loop over the message. -/
def fieldTurn (data : Bytes) (pos : Nat) (sig : SignalDict) :
    Reader (Turn (Nat × SignalDict) SignalDict) := do
  let (tag, pos) ← exceptIndexError (.truncated pos) (varint .indexError data pos)
  match tag &&& 0x7 with
  | 0 => do
      let (value, pos) ← exceptIndexError (.truncatedVarint (tag >>> 3)) (varint .indexError data pos)
      pure (.again (pos, if tag >>> 3 = 8 then { sig with receivedUnixNano := some value } else sig))
  | 2 => do
      let (length, pos) ← exceptIndexError (.truncatedLength (tag >>> 3)) (varint .indexError data pos)
      if data.length < pos + length then
        raiseProtoParseError (.overruns (tag >>> 3) length)
      else
        let raw ← Reading.cut data pos (pos + length)
        let sig ← storePayload sig (tag >>> 3) raw
        pure (.again (pos + length, sig))
  | wire => raiseProtoParseError (.unknownWireType wire)

def parseSignal (data : Bytes) : Reader SignalDict := do
  if data = [] then
    raiseProtoParseError .emptyPayload
  else
    let sig ← Reading.readWhile data.length (fieldTurn data) 0 {}
    if sig.missing ≠ [] then
      raiseProtoParseError (.missingRequired sig.missing)
    else
      pure sig

/-! ### Numbers -/

variable {bound : Nat} {data : Bytes} {Value : Type}

/-- What `_varint` comes to. -/
def indexed {Error : Type} (outOfRange : Error) : Option Value → Except Error Value
  | none => .error outOfRange
  | some value => .ok value

theorem ends_varint {Error : Type} {allowed : Access → Prop} (outOfRange : Error)
    (permitted : ∀ pos, pos < data.length → allowed ⟨pos, pos + 1, data.length⟩)
    (most : data.length < bound) (pos : Nat) :
    Ends allowed bound (varint outOfRange data pos) (indexed outOfRange (Persist.varint data pos)) := by
  have turns : ∀ here : Nat × Nat × Nat, True →
      Reading.Ends.Turns allowed bound (fun here => data.length - here.1) (fun _ => True)
        (fun here => indexed outOfRange (varintLoop data (data.length - here.1) here.1 here.2.1 here.2.2))
        (varintTurn outOfRange data) here := by
    rintro ⟨pos, result, shift⟩ -
    by_cases inside : pos < data.length
    · obtain ⟨fuel, left⟩ : ∃ fuel, data.length - pos = fuel + 1 :=
        ⟨data.length - pos - 1, by omega⟩
      have here : data[pos]? = some data[pos] := List.getElem?_eq_getElem inside
      have unfolded : varintLoop data (fuel + 1) pos result shift =
          if data[pos] &&& 0x80 = 0 then
            some (result ||| (data[pos] &&& 0x7F).toNat <<< shift, pos + 1)
          else varintLoop data fuel (pos + 1) (result ||| (data[pos] &&& 0x7F).toNat <<< shift)
            (shift + 7) := by
        rw [varintLoop, here]
      by_cases last : data[pos] &&& 0x80 = 0
      · refine .leaves (result ||| (data[pos] &&& 0x7F).toNat <<< shift, pos + 1) ?_ ?_
        · refine (Reading.Ends.index_ok here (permitted pos inside)).bind ?_
          rw [if_pos last]
          exact Reading.Ends.done
        · show indexed outOfRange (varintLoop data (data.length - pos) pos result shift) = _
          rw [left, unfolded, if_pos last]
          rfl
      · refine .goesOn (pos + 1, result ||| (data[pos] &&& 0x7F).toNat <<< shift, shift + 7) ?_ ?_
          (by show data.length - (pos + 1) < data.length - pos; omega) trivial
        · refine (Reading.Ends.index_ok here (permitted pos inside)).bind ?_
          rw [if_neg last]
          exact Reading.Ends.done
        · show indexed outOfRange (varintLoop data (data.length - pos) pos result shift) =
            indexed outOfRange (varintLoop data (data.length - (pos + 1)) (pos + 1) _ (shift + 7))
          rw [left, unfolded, if_neg last, show data.length - (pos + 1) = fuel by omega]
    · refine .raises outOfRange ?_ ?_
      · exact Reading.Ends.bind_error (Reading.Ends.index_error
          (List.getElem?_eq_none (by omega)))
      · show indexed outOfRange (varintLoop data (data.length - pos) pos result shift) = _
        rw [Nat.sub_eq_zero_of_le (by omega)]
        rfl
  have enough : data.length - pos < bound := by omega
  rw [Persist.varint, varintLoop_eq data.length pos 0 0 (by omega) (by decide),
    ← varintLoop_eq (data.length - pos) pos 0 0 (by omega) (by decide)]
  have ends : Ends allowed bound (Reading.loop (varintTurn outOfRange data) (pos, 0, 0)) _ :=
    Reading.Ends.loop turns trivial enough
  exact ends

theorem simulates_number (most : data.length < bound) (error : ProtoParseError) (pos : Nat) :
    Simulates Access.Inside bound raisedFor id (exceptIndexError error (varint .indexError data pos))
      (orRaise error (Persist.varint data pos)) := by
  have ends := ends_varint Raised.indexError (fun _ => Access.inside_index) most pos
  cases read : Persist.varint data pos with
  | none =>
    rw [read] at ends
    exact ends.handle_caught rfl Reading.Ends.raise
  | some value =>
    rw [read] at ends
    exact ends.handle_ok

theorem pos_lt_varint {pos number behind : Nat} (read : Persist.varint data pos = some (number, behind)) :
    pos < behind := by
  rw [varint_eq] at read
  obtain ⟨⟨value, left⟩, taken, same⟩ := Option.map_eq_some_iff.mp read
  cases same
  have shorter := (takeVarint_suffix taken).2
  rw [List.length_drop] at shorter
  dsimp only
  omega

/-! ### What the loops accept -/

variable {error : ProtoParseError}

theorem orRaise_eq_ok {found : Option Value} {value : Value} :
    orRaise error found = .ok value ↔ found = some value := by
  cases found with
  | none =>
    constructor
    · intro impossible
      cases impossible
    · intro impossible
      cases impossible
  | some other =>
    constructor
    · intro same
      rw [Except.ok.inj same]
    · intro same
      rw [Option.some.inj same]
      rfl

variable {pos : Nat} {raw : Bytes}

/-- **A field that is read**: its text is valid UTF-8, its parameter consists of texts. -/
def Whole : Field → Prop
  | .number _ _ => True
  | .payload field bytes =>
    (IsTextField field → validUtf8 bytes = true) ∧ (field = 10 → Behind ReadableInParam bytes [])

theorem and_seven (tag : Nat) : tag &&& 0x7 = tag % 8 :=
  Nat.and_two_pow_sub_one_eq_mod tag 3

theorem shiftRight_three (tag : Nat) : tag >>> 3 = tag / 8 :=
  Nat.shiftRight_eq_div_pow tag 3

theorem varint_eq_some {number behind : Nat} (read : Persist.varint data pos = some (number, behind)) :
    takeVarint (data.drop pos) = some (number, data.drop behind) ∧ behind ≤ data.length := by
  rw [varint_eq] at read
  obtain ⟨⟨value, left⟩, taken, same⟩ := Option.map_eq_some_iff.mp read
  cases same
  have inside : left <:+ data := (takeVarint_suffix taken).1.trans (List.drop_suffix pos data)
  rw [taken, ← List.suffix_iff_eq_drop.mp inside]
  exact ⟨rfl, Nat.sub_le ..⟩

theorem varint_of_take {number : Nat} {left : Bytes} (taken : takeVarint (data.drop pos) = some (number, left)) :
    ∃ behind, Persist.varint data pos = some (number, behind) ∧ data.drop behind = left ∧
      behind ≤ data.length := by
  have read : Persist.varint data pos = some (number, data.length - left.length) := by
    rw [varint_eq, taken, Option.map_some]
  have taken' := (varint_eq_some read).1
  rw [taken] at taken'
  exact ⟨_, read, (congrArg Prod.snd (Option.some.inj taken')).symm, Nat.sub_le ..⟩

theorem varint_eq_none : Persist.varint data pos = none ↔ takeVarint (data.drop pos) = none := by
  rw [varint_eq, Option.map_eq_none_iff]

theorem overruns_iff {behind length : Nat} (inside : behind ≤ data.length) :
    data.length < behind + length ↔ (data.drop behind).length < length := by
  rw [List.length_drop]
  omega

theorem lengthDelimited_eq_ok {truncated : ProtoParseError} {overruns : Nat → ProtoParseError}
    {payload : Bytes} {behind : Nat}
    (read : lengthDelimited data pos truncated overruns = .ok (payload, behind)) :
    ∃ length tail, takeVarint (data.drop pos) = some (length, tail) ∧ length ≤ tail.length ∧
      payload = tail.take length ∧ data.drop behind = tail.drop length := by
  unfold lengthDelimited at read
  obtain ⟨⟨length, first⟩, sized, rest⟩ := (bind_eq_ok _ _ _).mp read
  rw [rejectIf_bind_eq_ok] at rest
  obtain ⟨fits, ended⟩ := rest
  obtain ⟨taken, inside⟩ := varint_eq_some (orRaise_eq_ok.mp sized)
  cases ended
  refine ⟨length, _, taken, ?_, ?_, ?_⟩
  · exact Nat.le_of_not_lt fun short => fits ((overruns_iff inside).mpr short)
  · rw [slice, Nat.add_sub_cancel_left]
  · rw [List.drop_drop]

theorem lengthDelimited_of_take {length : Nat} {tail : Bytes} (truncated : ProtoParseError)
    (overruns : Nat → ProtoParseError) (sized : takeVarint (data.drop pos) = some (length, tail))
    (fits : length ≤ tail.length) :
    ∃ behind, lengthDelimited data pos truncated overruns = .ok (tail.take length, behind) ∧
      data.drop behind = tail.drop length := by
  obtain ⟨first, found, rfl, inside⟩ := varint_of_take sized
  refine ⟨first + length, ?_, by rw [List.drop_drop]⟩
  rw [lengthDelimited, found]
  show (rejectIf _ _ >>= fun _ => pure _) = .ok _
  rw [rejectIf_bind_eq_ok, slice, Nat.add_sub_cancel_left]
  exact ⟨fun short => absurd ((overruns_iff inside).mp short) (Nat.not_lt.mpr fits), rfl⟩

theorem readsFields_param (raw : Bytes) : ReadsFields ReadableInParam raw (parseParamField raw) where
  sound {pos param next} taken := by
    unfold parseParamField at taken
    obtain ⟨⟨tag, first⟩, found, rest⟩ := (bind_eq_ok _ _ _).mp taken
    rw [rejectIf_bind_eq_ok, not_not] at rest
    obtain ⟨wire, rest⟩ := rest
    obtain ⟨⟨payload, behind⟩, read, rest⟩ := (bind_eq_ok _ _ _).mp rest
    obtain ⟨text, decodes, ended⟩ := (bind_eq_ok _ _ _).mp rest
    unfold decodeUtf8 at decodes
    rw [rejectIf_bind_eq_ok, Bool.not_eq_false] at decodes
    obtain ⟨tagged, _⟩ := varint_eq_some (orRaise_eq_ok.mp found)
    obtain ⟨length, tail, sized, fits, same, left⟩ := lengthDelimited_eq_ok read
    rw [← Except.ok.inj ended]
    exact ⟨.payload (tag / 8) payload, takeField_eq_some.mpr ⟨tag, _, length, tail, tagged, sized,
      .inr ⟨(and_seven tag).symm.trans wire, fits, by rw [same], left⟩⟩, decodes.1⟩
  complete {pos field left} param taken fine := by
    obtain ⟨tag, tail, length, payload, tagged, sized, read⟩ := takeField_eq_some.mp taken
    rcases read with ⟨-, rfl, -⟩ | ⟨wire, fits, rfl, rfl⟩
    · exact fine.elim
    obtain ⟨first, found, rfl, _⟩ := varint_of_take tagged
    obtain ⟨behind, read, left⟩ :=
      lengthDelimited_of_take .truncatedNestedLength (fun _ => .nestedOverruns) sized fits
    refine ⟨(behind, param.store (tag >>> 3) (payload.take length)), ?_, left⟩
    rw [parseParamField, found]
    show (rejectIf _ _ >>= fun _ => _) = .ok _
    rw [rejectIf_bind_eq_ok, read]
    refine ⟨fun differs => differs ((and_seven tag).trans wire), ?_⟩
    show (decodeUtf8 _ _ >>= fun _ => _) = .ok _
    rw [decodeUtf8_eq_ok fine]
    rfl

theorem storeText_eq_none {field : Nat} (unknown : ¬IsTextField field) (sig : SignalDict) (text : Bytes) :
    sig.storeText field text = none := by
  unfold SignalDict.storeText
  split
  all_goals first
    | rfl
    | exact absurd (by simp [IsTextField]) unknown

theorem storePayload_isOk (sig : SignalDict) (field : Nat) (raw : Bytes) :
    (∃ stored, Persist.storePayload sig field raw = .ok stored) ↔ Whole (.payload field raw) := by
  unfold Persist.storePayload
  by_cases known : IsTextField field
  · obtain ⟨stored, stores⟩ := storeText_isSome known sig raw
    have apart : field ≠ 10 := fun nested => by
      subst nested
      simp [IsTextField] at known
    rw [stores]
    constructor
    · rintro ⟨final, ended⟩
      obtain ⟨text, decodes, _⟩ := (bind_eq_ok _ _ _).mp ended
      unfold decodeUtf8 at decodes
      rw [rejectIf_bind_eq_ok, Bool.not_eq_false] at decodes
      exact ⟨fun _ => decodes.1, fun nested => absurd nested apart⟩
    · intro whole
      dsimp only
      rw [decodeUtf8_eq_ok (whole.1 known)]
      exact ⟨stored, rfl⟩
  · rw [storeText_eq_none known]
    dsimp only
    by_cases nested : field = 10
    · rw [if_pos nested]
      constructor
      · rintro ⟨final, ended⟩
        obtain ⟨param, parsed, _⟩ := (bind_eq_ok _ _ _).mp ended
        exact ⟨fun text => absurd text known,
          fun _ => ((readsFields_param raw).isOk_iff {}).mp ⟨param, parsed⟩⟩
      · intro whole
        obtain ⟨param, parsed⟩ := ((readsFields_param raw).isOk_iff {}).mpr (whole.2 nested)
        exact ⟨_, (bind_eq_ok _ _ _).mpr ⟨param, parsed, rfl⟩⟩
    · rw [if_neg nested]
      exact ⟨fun _ => ⟨fun text => absurd text known, fun other => absurd other nested⟩,
        fun _ => ⟨sig, rfl⟩⟩

theorem readsFields_message (data : Bytes) : ReadsFields Whole data (parseField data) where
  sound {pos sig next} taken := by
    unfold parseField at taken
    obtain ⟨⟨tag, first⟩, found, rest⟩ := (bind_eq_ok _ _ _).mp taken
    obtain ⟨tagged, _⟩ := varint_eq_some (orRaise_eq_ok.mp found)
    dsimp only at rest
    split at rest
    next wire =>
      obtain ⟨⟨value, second⟩, valued, ended⟩ := (bind_eq_ok _ _ _).mp rest
      obtain ⟨valued, _⟩ := varint_eq_some (orRaise_eq_ok.mp valued)
      rw [← Except.ok.inj ended]
      exact ⟨.number (tag / 8) value, takeField_eq_some.mpr ⟨tag, _, value, _, tagged, valued,
        .inl ⟨(and_seven tag).symm.trans wire, rfl, rfl⟩⟩, trivial⟩
    next wire =>
      obtain ⟨⟨payload, behind⟩, read, rest⟩ := (bind_eq_ok _ _ _).mp rest
      obtain ⟨stored, stores, ended⟩ := (bind_eq_ok _ _ _).mp rest
      obtain ⟨length, tail, sized, fits, same, left⟩ := lengthDelimited_eq_ok read
      have whole := (storePayload_isOk ..).mp ⟨stored, stores⟩
      rw [shiftRight_three] at whole
      rw [← Except.ok.inj ended]
      exact ⟨.payload (tag / 8) payload, takeField_eq_some.mpr ⟨tag, _, length, tail, tagged, sized,
        .inr ⟨(and_seven tag).symm.trans wire, fits, by rw [same], left⟩⟩, whole⟩
    next => cases rest
  complete {pos field left} sig taken fine := by
    obtain ⟨tag, tail, length, payload, tagged, sized, read⟩ := takeField_eq_some.mp taken
    obtain ⟨first, found, rfl, _⟩ := varint_of_take tagged
    rcases read with ⟨wire, rfl, rfl⟩ | ⟨wire, fits, rfl, rfl⟩
    · obtain ⟨second, found', rfl, _⟩ := varint_of_take sized
      refine ⟨(second, if tag >>> 3 = 8 then { sig with receivedUnixNano := some length } else sig),
        ?_, rfl⟩
      rw [parseField, found]
      simp only [orRaise, pure_bind, (and_seven tag).trans wire, wireVarint, found']
      rfl
    · obtain ⟨behind, read, left⟩ := lengthDelimited_of_take (.truncatedLength (tag >>> 3))
        (.overruns (tag >>> 3)) sized fits
      obtain ⟨stored, stores⟩ := (storePayload_isOk sig ..).mpr fine
      refine ⟨(behind, stored), ?_, left⟩
      rw [parseField, found]
      simp only [orRaise, pure_bind, (and_seven tag).trans wire, wireBytes, read]
      show (Persist.storePayload _ _ _ >>= fun _ => _) = .ok _
      rw [shiftRight_three, stores]
      rfl

/-! ### Texts and parameters -/

/-- What `decode` comes to. -/
def decoded (raw : Bytes) : Except Raised Bytes :=
  if validUtf8 raw = true then .ok raw else .error .unicodeDecodeError

theorem ends_decode (raw : Bytes) : Ends Access.Inside bound (decode raw) (decoded raw) := by
  unfold decode decoded
  split
  · exact Reading.Ends.done
  · exact Reading.Ends.raise

theorem simulates_text {program : Reader Bytes} (error : ProtoParseError)
    (ends : Ends Access.Inside bound program (decoded raw)) :
    Simulates Access.Inside bound raisedFor id (exceptUnicodeDecodeError error program) (decodeUtf8 error raw) := by
  unfold decoded at ends
  unfold decodeUtf8 rejectIf
  by_cases valid : validUtf8 raw = true
  · rw [if_pos valid] at ends
    rw [if_neg (by rw [valid]; exact Bool.noConfusion)]
    exact ends.handle_ok
  · rw [if_neg valid] at ends
    rw [if_pos (Bool.not_eq_true _ ▸ valid)]
    exact ends.handle_caught rfl Reading.Ends.raise

theorem lengthDelimited_bind {Result : Type} (data : Bytes) (pos : Nat) (truncated : ProtoParseError)
    (overruns : Nat → ProtoParseError) (next : Bytes × Nat → Except ProtoParseError Result) :
    (lengthDelimited data pos truncated overruns >>= next) =
      orRaise truncated (Persist.varint data pos) >>= fun read =>
        rejectIf (data.length < read.2 + read.1) (overruns read.1) >>= fun _ =>
          next (slice data read.2 (read.2 + read.1), read.2 + read.1) := by
  unfold lengthDelimited
  simp only [bind_assoc, pure_bind]

theorem simulates_param (most : raw.length < bound) (pos : Nat) (param : ParamDict) :
    Simulates Access.Inside bound raisedFor Turn.again (paramTurn raw pos param)
      (parseParamField raw pos param) := by
  unfold paramTurn parseParamField
  refine (simulates_number most .truncatedNestedTag pos).bind fun tagged _ => ?_
  refine Simulates.reject fun wire => ?_
  rw [lengthDelimited_bind]
  refine (simulates_number most .truncatedNestedLength tagged.2).bind fun sized _ => ?_
  refine Simulates.reject fun fits => ?_
  have whole : Ends Access.Inside bound (do decode (← Reading.cut raw sized.2 (sized.2 + sized.1)))
      (decoded (slice raw sized.2 (sized.2 + sized.1))) :=
    (Reading.Ends.cut (Access.inside_slice (by omega))).bind (ends_decode _)
  exact (simulates_text .nestedNotUtf8 whole).bind fun text _ => Simulates.done _

theorem simulates_parseParam (most : raw.length < bound) :
    Simulates Access.Inside bound raisedFor id (parseParam raw) (Persist.parseParam raw) :=
  Reading.Ends.readWhile (fun pos param _ => .of_simulates (simulates_param most pos param)
    fun _ taken => (readsFields_param raw).ahead taken) {} (by omega) most

/-! ### The message -/

theorem simulates_storePayload (most : raw.length < bound) (sig : SignalDict) (field : Nat) :
    Simulates Access.Inside bound raisedFor id (storePayload sig field raw) (Persist.storePayload sig field raw) := by
  unfold storePayload Persist.storePayload
  cases sig.storeText field raw with
  | some stored =>
    exact (simulates_text _ (ends_decode raw)).bind fun _ _ => Simulates.done stored
  | none =>
    by_cases nested : field = 10
    · simp only [nested, if_true]
      exact (simulates_parseParam most).bind fun param _ => Simulates.done _
    · simp only [nested, if_false]
      exact Simulates.done sig

theorem simulates_field (most : data.length < bound) (pos : Nat) (sig : SignalDict) :
    Simulates Access.Inside bound raisedFor Turn.again (fieldTurn data pos sig) (parseField data pos sig) := by
  unfold fieldTurn parseField
  refine (simulates_number most (.truncated pos) pos).bind fun tagged _ => ?_
  dsimp only
  generalize tagged.1 &&& 0x7 = wire
  rcases wire with _ | _ | _ | wire
  · exact (simulates_number most (.truncatedVarint (tagged.1 >>> 3)) tagged.2).bind
      fun value _ => Simulates.done _
  · exact Reading.Ends.raise
  · rw [lengthDelimited_bind]
    refine (simulates_number most _ tagged.2).bind fun sized _ => ?_
    refine Simulates.reject fun fits => ?_
    have shorter : (slice data sized.2 (sized.2 + sized.1)).length < bound := by
      rw [slice, List.length_take, List.length_drop]
      omega
    have whole : Ends Access.Inside bound (Reading.cut data sized.2 (sized.2 + sized.1) : Reader Bytes) _ :=
      Reading.Ends.cut (Access.inside_slice (by omega))
    exact whole.bind ((simulates_storePayload shorter sig _).bind fun stored _ => Simulates.done _)
  · exact Reading.Ends.raise

variable {sig : SignalDict} {next : Nat × SignalDict}

/-- **The function comes to what `ParseSignal` computes**: it ends, and reads inside its buffers. -/
theorem simulates_parseSignal (data : Bytes) :
    Simulates Access.Inside (data.length + 1) raisedFor id (parseSignal data) (Persist.parseSignal data) := by
  have most : data.length < data.length + 1 := Nat.lt_succ_self _
  unfold parseSignal Persist.parseSignal
  refine Simulates.reject fun _ => ?_
  have fields : Simulates Access.Inside (data.length + 1) raisedFor id
      (Reading.readWhile data.length (fieldTurn data) 0 {})
      (readAll data.length (parseField data) data.length 0 {}) :=
    Reading.Ends.readWhile (fun pos sig _ => .of_simulates (simulates_field most pos sig)
      fun _ taken => (readsFields_message data).ahead taken) {} (by omega) most
  refine fields.bind fun sig _ => ?_
  exact Simulates.reject fun _ => Simulates.done sig

/-! ### The promise -/

/-- The entries with a text, those of the parameters included. -/
def texts (sig : SignalDict) : List (Option Bytes) :=
  [sig.traceId, sig.licenseId, sig.instanceId, sig.command, sig.rawCommand, sig.symbol,
    sig.ingressRegion, sig.bodySha256] ++ sig.params.flatMap fun param => [param.key, param.value]

/-- All entries that are there are texts. -/
def Texts (sig : SignalDict) : Prop :=
  ∀ entry ∈ texts sig, validUtf8 (entry.getD []) = true

variable {field : Nat}

theorem texts_storeText {sig stored : SignalDict} {text : Bytes}
    (known : sig.storeText field text = some stored) (valid : validUtf8 text = true)
    (texts : Texts sig) : Texts stored := by
  unfold Texts Raising.texts at *
  simp only [List.forall_mem_append, List.forall_mem_cons] at *
  obtain ⟨⟨trace, license, placed, command, written, symbol, region, body, none⟩, params⟩ := texts
  unfold SignalDict.storeText at known
  split at known <;> cases known
  all_goals
    refine ⟨⟨?_, ?_, ?_, ?_, ?_, ?_, ?_, ?_, none⟩, params⟩ <;> assumption

def ParamTexts (param : ParamDict) : Prop :=
  ∀ entry ∈ [param.key, param.value], validUtf8 (entry.getD []) = true

theorem texts_paramField {param : ParamDict} {next : Nat × ParamDict}
    (taken : parseParamField raw pos param = .ok next) (texts : ParamTexts param) :
    ParamTexts next.2 := by
  unfold parseParamField at taken
  obtain ⟨tagged, _, rest⟩ := (bind_eq_ok _ _ _).mp taken
  dsimp only at rest
  rw [rejectIf_bind_eq_ok] at rest
  obtain ⟨payload, _, rest⟩ := (bind_eq_ok _ _ _).mp rest.2
  obtain ⟨text, decodes, ended⟩ := (bind_eq_ok _ _ _).mp rest
  unfold decodeUtf8 at decodes
  rw [rejectIf_bind_eq_ok, Bool.not_eq_false] at decodes
  have valid : validUtf8 text = true := by
    rw [← Except.ok.inj decodes.2]
    exact decodes.1
  rw [← Except.ok.inj ended]
  unfold ParamTexts ParamDict.store at *
  simp only [List.forall_mem_cons] at *
  obtain ⟨key, value, none⟩ := texts
  split
  · exact ⟨valid, value, none⟩
  · exact ⟨key, valid, none⟩
  · exact ⟨key, value, none⟩

theorem texts_parseParam {param : ParamDict} (parsed : Persist.parseParam raw = .ok param) :
    ParamTexts param :=
  readAll_invariant ParamTexts (fun _ _ _ taken here => texts_paramField taken here) _ _ _ _ parsed
    (by unfold ParamTexts; decide)

theorem texts_storePayload {sig stored : SignalDict}
    (stores : Persist.storePayload sig field raw = .ok stored) (texts : Texts sig) :
    Texts stored := by
  unfold Persist.storePayload at stores
  cases known : sig.storeText field raw with
  | some next =>
    rw [known] at stores
    obtain ⟨text, decodes, same⟩ := (bind_eq_ok _ _ _).mp stores
    unfold decodeUtf8 at decodes
    rw [rejectIf_bind_eq_ok, Bool.not_eq_false] at decodes
    rw [← Except.ok.inj same]
    exact texts_storeText known decodes.1 texts
  | none =>
    rw [known] at stores
    dsimp only at stores
    split at stores
    · obtain ⟨param, parsed, same⟩ := (bind_eq_ok _ _ _).mp stores
      rw [← Except.ok.inj same]
      unfold Texts Raising.texts at *
      rw [List.flatMap_append, ← List.append_assoc, List.forall_mem_append]
      exact ⟨texts, texts_parseParam parsed⟩
    · rw [← Except.ok.inj stores]
      exact texts

theorem texts_field (taken : parseField data pos sig = .ok next) (texts : Texts sig) :
    Texts next.2 := by
  unfold parseField at taken
  obtain ⟨tagged, _, rest⟩ := (bind_eq_ok _ _ _).mp taken
  dsimp only at rest
  split at rest
  · obtain ⟨value, _, ended⟩ := (bind_eq_ok _ _ _).mp rest
    rw [← Except.ok.inj ended]
    dsimp only
    split <;> exact texts
  · obtain ⟨payload, _, rest⟩ := (bind_eq_ok _ _ _).mp rest
    obtain ⟨stored, stores, ended⟩ := (bind_eq_ok _ _ _).mp rest
    rw [← Except.ok.inj ended]
    exact texts_storePayload stores texts
  · cases rest

/-- The trace id, the license id, the command and the symbol are texts, and none is empty. -/
def Complete (sig : SignalDict) : Prop :=
  ∀ entry ∈ sig.required, ∃ text, entry.2 = some text ∧ text ≠ [] ∧ validUtf8 text = true

theorem of_parseSignal (parsed : Persist.parseSignal data = .ok sig) :
    Texts sig ∧ ∀ entry ∈ sig.required, entry.2.getD [] ≠ [] := by
  unfold Persist.parseSignal at parsed
  rw [rejectIf_bind_eq_ok] at parsed
  obtain ⟨read, reads, rest⟩ := (bind_eq_ok _ _ _).mp parsed.2
  rw [rejectIf_bind_eq_ok, not_not] at rest
  rw [← Except.ok.inj rest.2]
  refine ⟨readAll_invariant Texts (fun _ _ _ taken here => texts_field taken here) _ _ _ _ reads
    (by unfold Texts; decide), fun entry member => ?_⟩
  have all := List.map_eq_nil_iff.mp rest.1
  rw [List.filter_eq_nil_iff] at all
  simpa using all entry member

theorem complete_of_parseSignal (parsed : Persist.parseSignal data = .ok sig) : Complete sig := by
  obtain ⟨texts, given⟩ := of_parseSignal parsed
  intro entry member
  have present := given entry member
  have valid : validUtf8 (entry.2.getD []) = true := by
    refine texts entry.2 (List.mem_append_left _ ?_)
    simp only [SignalDict.required, List.mem_cons, List.not_mem_nil, or_false] at member
    rcases member with rfl | rfl | rfl | rfl <;> simp
  cases found : entry.2 with
  | none =>
    rw [found] at present
    exact absurd rfl present
  | some text =>
    rw [found] at present valid
    exact ⟨text, rfl, present, valid⟩

/-- **The promise of the docstring**, for a payload: the function ends, it reads inside its buffers, and
it returns a dictionary with all required entries or raises a `ProtoParseError`. -/
def Strict (data : Bytes) : Prop :=
  ∃ outcome, Ends Access.Inside (data.length + 1) (parseSignal data) outcome ∧
    match outcome with
    | .ok sig => Complete sig
    | .error raised => ∃ error, raised = .protoParseError error

theorem printable_of_strict (strict : Strict data) (fails : Persist.parseSignal data = .error error) :
    error.Printable := by
  obtain ⟨outcome, ends, promise⟩ := strict
  have same := Reading.Ends.unique (simulates_parseSignal data) ends
  rw [fails] at same
  subst same
  obtain ⟨raised, is⟩ := promise
  unfold raisedFor at is
  split at is
  · assumption
  · cases is

/-! ### Numbers that cannot be written -/

/-- **Where a number is too long**: the bytes at a position break off, and the error has to name the
position, the number of the field or its length, one of which has more than 4300 digits. -/
inductive Overlong (pos : Nat) : Bytes → Prop
  | position {rest : Bytes} (given : rest ≠ []) (unended : takeVarint rest = none)
      (long : 10 ^ ProtoParseError.maxStrDigits ≤ pos) : Overlong pos rest
  | field {rest tail : Bytes} {tag : Nat} (tagged : takeVarint rest = some (tag, tail))
      (wire : tag % 8 = wireVarint ∨ tag % 8 = wireBytes) (unended : takeVarint tail = none)
      (long : 10 ^ ProtoParseError.maxStrDigits ≤ tag / 8) : Overlong pos rest
  | length {rest tail payload : Bytes} {tag length : Nat} (tagged : takeVarint rest = some (tag, tail))
      (wire : tag % 8 = wireBytes) (sized : takeVarint tail = some (length, payload))
      (cut : payload.length < length) (long : 10 ^ ProtoParseError.maxStrDigits ≤ tag / 8 ∨
        10 ^ ProtoParseError.maxStrDigits ≤ length) : Overlong pos rest

theorem printable_of_small (small : ∀ number ∈ error.numbers, number < 10) : error.Printable := by
  intro number member
  have digits : (10 : Nat) ^ 1 ≤ 10 ^ ProtoParseError.maxStrDigits :=
    Nat.pow_le_pow_right (by decide) (by decide)
  exact Nat.lt_of_lt_of_le (small number member) digits

theorem orRaise_eq_error {found : Option Value} {other : ProtoParseError} :
    orRaise error found = .error other ↔ found = none ∧ error = other := by
  cases found with
  | none =>
    constructor
    · intro fails
      exact ⟨rfl, Except.error.inj fails⟩
    · intro both
      exact congrArg Except.error both.2
  | some value =>
    constructor
    · intro impossible
      cases impossible
    · intro impossible
      cases impossible.1

theorem printable_paramField {param : ParamDict} (fails : parseParamField raw pos param = .error error) :
    error.Printable := by
  refine printable_of_small ?_
  unfold parseParamField at fails
  rcases (bind_eq_error _ _ _).mp fails with failed | ⟨tagged, _, fails⟩
  · rw [← (orRaise_eq_error.mp failed).2]
    exact List.forall_mem_nil _
  rcases (rejectIf_bind_eq_error _ _ _ _).mp fails with ⟨_, rfl⟩ | ⟨_, fails⟩
  · intro number member
    rw [List.mem_singleton.mp member, and_seven]
    omega
  rw [lengthDelimited_bind] at fails
  rcases (bind_eq_error _ _ _).mp fails with failed | ⟨sized, _, fails⟩
  · rw [← (orRaise_eq_error.mp failed).2]
    exact List.forall_mem_nil _
  rcases (rejectIf_bind_eq_error _ _ _ _).mp fails with ⟨_, rfl⟩ | ⟨_, fails⟩
  · exact List.forall_mem_nil _
  rcases (bind_eq_error _ _ _).mp fails with failed | ⟨text, _, impossible⟩
  · rcases (rejectIf_bind_eq_error _ _ _ _).mp failed with ⟨_, rfl⟩ | ⟨_, impossible⟩
    · exact List.forall_mem_nil _
    · cases impossible
  · cases impossible

theorem printable_storePayload (fails : Persist.storePayload sig field raw = .error error) :
    error.Printable := by
  unfold Persist.storePayload at fails
  by_cases known : IsTextField field
  · obtain ⟨stored, stores⟩ := storeText_isSome known sig raw
    rw [stores] at fails
    rcases (bind_eq_error _ _ _).mp fails with failed | ⟨_, _, impossible⟩
    · rcases (rejectIf_bind_eq_error _ _ _ _).mp failed with ⟨_, rfl⟩ | ⟨_, impossible⟩
      · refine printable_of_small fun number member => ?_
        rw [List.mem_singleton.mp member]
        simp only [IsTextField, List.mem_cons, List.not_mem_nil, or_false] at known
        omega
      · cases impossible
    · cases impossible
  · rw [storeText_eq_none known] at fails
    dsimp only at fails
    split_ifs at fails
    · rcases (bind_eq_error _ _ _).mp fails with failed | ⟨_, _, impossible⟩
      · rcases (readsFields_param raw).ends raw.length 0 {} (by omega) .start with
          ⟨⟨param, parsed⟩, _⟩ | ⟨other, stopped, stop, last, _, _, stepped⟩
        · cases parsed.symm.trans failed
        · cases stopped.symm.trans failed
          exact printable_paramField stepped
      · cases impossible
    · cases fails

theorem not_printable_iff : ¬error.Printable ↔
    ∃ number ∈ error.numbers, 10 ^ ProtoParseError.maxStrDigits ≤ number := by
  simp only [ProtoParseError.Printable, not_forall, not_lt, exists_prop]

theorem overlong_of_fails (inside : pos < data.length) (fails : parseField data pos sig = .error error)
    (unprintable : ¬error.Printable) : Overlong pos (data.drop pos) := by
  unfold parseField at fails
  rcases (bind_eq_error _ _ _).mp fails with failed | ⟨⟨tag, first⟩, found, fails⟩
  · obtain ⟨unended, rfl⟩ := orRaise_eq_error.mp failed
    obtain ⟨number, member, long⟩ := not_printable_iff.mp unprintable
    rw [List.mem_singleton.mp member] at long
    refine .position (fun none => ?_) (varint_eq_none.mp unended) long
    exact absurd (List.drop_eq_nil_iff.mp none) (Nat.not_le.mpr inside)
  obtain ⟨tagged, _⟩ := varint_eq_some (orRaise_eq_ok.mp found)
  dsimp only at fails
  split at fails
  next wire =>
    rcases (bind_eq_error _ _ _).mp fails with failed | ⟨_, _, impossible⟩
    · obtain ⟨unended, rfl⟩ := orRaise_eq_error.mp failed
      obtain ⟨number, member, long⟩ := not_printable_iff.mp unprintable
      rw [List.mem_singleton.mp member, shiftRight_three] at long
      exact .field tagged (.inl ((and_seven tag).symm.trans wire)) (varint_eq_none.mp unended) long
    · cases impossible
  next wire =>
    have bytes : tag % 8 = wireBytes := (and_seven tag).symm.trans wire
    rw [lengthDelimited_bind] at fails
    rcases (bind_eq_error _ _ _).mp fails with failed | ⟨⟨length, second⟩, sized, fails⟩
    · obtain ⟨unended, rfl⟩ := orRaise_eq_error.mp failed
      obtain ⟨number, member, long⟩ := not_printable_iff.mp unprintable
      rw [List.mem_singleton.mp member, shiftRight_three] at long
      exact .field tagged (.inr bytes) (varint_eq_none.mp unended) long
    obtain ⟨valued, within⟩ := varint_eq_some (orRaise_eq_ok.mp sized)
    rcases (rejectIf_bind_eq_error _ _ _ _).mp fails with ⟨short, rfl⟩ | ⟨_, fails⟩
    · refine .length tagged bytes valued ((overruns_iff within).mp short) ?_
      rw [not_printable_iff, ProtoParseError.numbers, shiftRight_three] at unprintable
      simpa using unprintable
    · rcases (bind_eq_error _ _ _).mp fails with failed | ⟨_, _, impossible⟩
      · exact absurd (printable_storePayload failed) unprintable
      · cases impossible
  next =>
    cases fails
    refine absurd (printable_of_small fun number member => ?_) unprintable
    rw [List.mem_singleton.mp member, and_seven]
    omega

theorem fails_of_overlong (overlong : Overlong pos (data.drop pos)) :
    ∃ error, parseField data pos sig = .error error ∧ ¬error.Printable := by
  cases overlong with
  | position given unended long =>
    refine ⟨.truncated pos, ?_, not_printable_iff.mpr ⟨pos, List.mem_singleton_self _, long⟩⟩
    rw [parseField, varint_eq_none.mpr unended]
    rfl
  | @field _ tag tagged wire unended long =>
    obtain ⟨first, found, rfl, _⟩ := varint_of_take tagged
    rw [← shiftRight_three] at long
    have unread : Persist.varint data first = none := varint_eq_none.mpr unended
    rcases wire with number | bytes
    · refine ⟨.truncatedVarint (tag >>> 3), ?_,
        not_printable_iff.mpr ⟨_, List.mem_singleton_self _, long⟩⟩
      rw [parseField, found]
      simp only [orRaise, pure_bind, (and_seven tag).trans number, wireVarint, unread]
      rfl
    · refine ⟨.truncatedLength (tag >>> 3), ?_,
        not_printable_iff.mpr ⟨_, List.mem_singleton_self _, long⟩⟩
      rw [parseField, found]
      simp only [orRaise, pure_bind, (and_seven tag).trans bytes, wireBytes]
      rw [lengthDelimited_bind, unread]
      rfl
  | @length _ _ tag length tagged wire sized cut long =>
    obtain ⟨first, found, rfl, _⟩ := varint_of_take tagged
    obtain ⟨second, found', rfl, within⟩ := varint_of_take sized
    refine ⟨.overruns (tag >>> 3) length, ?_, ?_⟩
    · rw [parseField, found]
      simp only [orRaise, pure_bind, (and_seven tag).trans wire, wireBytes]
      rw [lengthDelimited_bind, found']
      simp only [orRaise, pure_bind]
      rw [rejectIf, if_pos ((overruns_iff within).mpr cut)]
      rfl
    · rw [not_printable_iff, ProtoParseError.numbers, shiftRight_three]
      simpa using long

theorem rest_ne_nil {rest : Bytes} (overlong : Overlong pos rest) : rest ≠ [] := by
  rintro rfl
  cases overlong with
  | position given => exact given rfl
  | field tagged => cases tagged
  | length tagged => cases tagged

/-- **What is too long for an error**: some whole fields stand in front of it. -/
theorem unprintable_iff (data : Bytes) :
    (∃ error, Persist.parseSignal data = .error error ∧ ¬error.Printable) ↔
      ∃ pos, Behind Whole data (data.drop pos) ∧ Overlong pos (data.drop pos) := by
  have reads := readsFields_message data
  unfold Persist.parseSignal
  constructor
  · rintro ⟨error, fails, unprintable⟩
    rcases (rejectIf_bind_eq_error _ _ _ _).mp fails with ⟨_, rfl⟩ | ⟨_, fails⟩
    · exact absurd (printable_of_small (List.forall_mem_nil _)) unprintable
    rcases (bind_eq_error _ _ _).mp fails with failed | ⟨sig, _, fails⟩
    · rcases reads.ends data.length 0 {} (by omega) .start with
        ⟨⟨final, ended⟩, _⟩ | ⟨other, stopped, stop, last, inside, front, stepped⟩
      · cases ended.symm.trans failed
      · cases stopped.symm.trans failed
        exact ⟨stop, front, overlong_of_fails inside stepped unprintable⟩
    · rcases (rejectIf_bind_eq_error _ _ _ _).mp fails with ⟨_, rfl⟩ | ⟨_, impossible⟩
      · exact absurd (printable_of_small (List.forall_mem_nil _)) unprintable
      · cases impossible
  · rintro ⟨pos, front, overlong⟩
    have given := rest_ne_nil overlong
    have stops (other : Nat) (last : SignalDict) (same : data.drop other = data.drop pos) :
        ∃ error, parseField data other last = .error error ∧ ¬error.Printable := by
      have left := List.length_pos_of_ne_nil given
      have sizes := congrArg List.length same
      rw [List.length_drop] at left
      rw [List.length_drop, List.length_drop] at sizes
      obtain rfl : other = pos := by omega
      exact fails_of_overlong overlong
    obtain ⟨error, stopped, unprintable⟩ := reads.fails {} given front stops
    refine ⟨error, ?_, unprintable⟩
    refine (rejectIf_bind_eq_error _ _ _ _).mpr (.inr ⟨?_, (bind_eq_error _ _ _).mpr (.inl stopped)⟩)
    rintro rfl
    exact given List.drop_nil

/-- **When the promise is kept**: unless the payload breaks off, behind whole fields, at a number that an
error would have to write out and cannot. -/
theorem strict_iff (data : Bytes) :
    Strict data ↔ ¬∃ pos, Behind Whole data (data.drop pos) ∧ Overlong pos (data.drop pos) := by
  rw [← unprintable_iff]
  constructor
  · rintro strict ⟨error, fails, unprintable⟩
    exact unprintable (printable_of_strict strict fails)
  · intro printable
    refine ⟨_, simulates_parseSignal data, ?_⟩
    cases parsed : Persist.parseSignal data with
    | ok sig => exact complete_of_parseSignal parsed
    | error error =>
      refine ⟨error, if_pos ?_⟩
      by_contra unprintable
      exact printable ⟨error, parsed, unprintable⟩

/-- A trace id whose length has 4301 digits. -/
def overlong : Bytes :=
  encodeVarint (tag 1 wireBytes) ++ encodeVarint (10 ^ ProtoParseError.maxStrDigits)

/-- The function raises a `ValueError` for it. -/
theorem not_strict_overlong :
    Ends Access.Inside (overlong.length + 1) (parseSignal overlong) (.error .valueError) ∧ ¬ Strict overlong := by
  have sized : takeVarint (encodeVarint (10 ^ ProtoParseError.maxStrDigits)) =
      some (10 ^ ProtoParseError.maxStrDigits, []) := by
    have read := takeVarint_encode (10 ^ ProtoParseError.maxStrDigits) []
    rwa [List.append_nil] at read
  have long : Overlong 0 (overlong.drop 0) :=
    .length (takeVarint_encode _ _) rfl sized (Nat.pow_pos (by decide)) (.inr le_rfl)
  obtain ⟨error, fails, unprintable⟩ := (unprintable_iff overlong).mpr ⟨0, .start, long⟩
  refine ⟨?_, fun strict => unprintable (printable_of_strict strict fails)⟩
  have ends := simulates_parseSignal overlong
  rw [fails, Simulates, Reading.outcomeOf, raisedFor, if_neg unprintable] at ends
  exact ends

end ExecRelay.Persist.Raising
