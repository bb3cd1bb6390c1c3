/-
**The proto3 wire format.**

A number is a varint: groups of seven bits, the lowest first, every byte but the last with its high
bit set. A field is a tag (its number and its wire type) in front of a varint or of a length and as
many bytes. Every encoder here comes with the arithmetic a reader undoes:

* `encodeVarint_small`, `encodeVarint_big`: the two forms of a varint, by its first byte.
* `tag_shiftRight`, `tag_and`: the number and the wire type of a tag.
* `or_shiftLeft`: a group of bits put above what has been read is added to it.
* `decodeFields_encode`: a message falls apart into the fields it was put together from.
* `readAll_flatMap`: a reader that reads one item reads a whole message of them.
* `readAll_enough`, `readAll_invariant`, `readAll_simulates`: more turns change nothing, what every step
  keeps is kept, and a reader that does what another one does reads what the other reads.
* `ReadsFields.isOk_iff`, `ReadsFields.fails`: a reader of fields ends exactly on a row of good fields, and
  fails where it fails behind one.
-/

import ExecRelay.Lib.Bytes
import Mathlib.Data.Nat.Bitwise
import Mathlib.Tactic.Ring

namespace ExecRelay.Lib

/-! ### Varints -/

/-- The varint of a number, in at most `fuel + 1` bytes. -/
def encodeVarintFuel : Nat → Nat → Bytes
  | 0, number => [UInt8.ofNat number]
  | fuel + 1, number =>
    if number < 128 then [UInt8.ofNat number]
    else UInt8.ofNat (number % 128 + 128) :: encodeVarintFuel fuel (number / 128)

/-- The varint of a number. -/
def encodeVarint (number : Nat) : Bytes :=
  encodeVarintFuel number number

theorem encodeVarintFuel_enough (number : Nat) :
    ∀ fuel other, number ≤ fuel → number ≤ other →
      encodeVarintFuel fuel number = encodeVarintFuel other number := by
  induction number using Nat.strongRecOn with
  | ind number ih =>
    intro fuel other enough enough'
    by_cases small : number < 128
    · cases fuel <;> cases other <;> simp only [encodeVarintFuel, if_pos small]
    · cases fuel with
      | zero => omega
      | succ fuel =>
        cases other with
        | zero => omega
        | succ other =>
          rw [encodeVarintFuel, encodeVarintFuel, if_neg small, if_neg small,
            ih (number / 128) (by omega) fuel other (by omega) (by omega)]

theorem encodeVarint_small {number : Nat} (small : number < 128) :
    encodeVarint number = [UInt8.ofNat number] := by
  unfold encodeVarint
  cases number with
  | zero => rfl
  | succ number => rw [encodeVarintFuel, if_pos small]

theorem encodeVarint_big {number : Nat} (big : 128 ≤ number) :
    encodeVarint number = UInt8.ofNat (number % 128 + 128) :: encodeVarint (number / 128) := by
  unfold encodeVarint
  cases number with
  | zero => omega
  | succ number =>
    rw [encodeVarintFuel, if_neg (by omega),
      encodeVarintFuel_enough ((number + 1) / 128) number ((number + 1) / 128) (by omega) le_rfl]

theorem encodeVarint_ne_nil (number : Nat) : encodeVarint number ≠ [] := by
  by_cases small : number < 128
  · rw [encodeVarint_small small]
    exact List.cons_ne_nil _ _
  · rw [encodeVarint_big (by omega)]
    exact List.cons_ne_nil _ _

/-! ### Reading a varint byte by byte -/

theorem low_bits {number : Nat} (fits : number < 256) :
    (UInt8.ofNat number &&& 0x7F).toNat = number % 128 := by
  rw [UInt8.toNat_and, UInt8.toNat_ofNat', Nat.mod_eq_of_lt fits]
  exact Nat.and_two_pow_sub_one_eq_mod number 7

theorem high_bit {number : Nat} (fits : number < 256) :
    UInt8.ofNat number &&& 0x80 = 0 ↔ number < 128 := by
  have every : ∀ byte : Fin 256, UInt8.ofNat byte &&& 0x80 = 0 ↔ (byte : Nat) < 128 := by
    decide +kernel
  exact every ⟨number, fits⟩

theorem or_shiftLeft {result shift : Nat} (below : result < 2 ^ shift) (group : Nat) :
    result ||| group <<< shift = result + group * 2 ^ shift := by
  rw [Nat.shiftLeft_eq, Nat.or_comm, Nat.mul_comm, ← Nat.two_pow_add_eq_or_of_lt below, Nat.add_comm]

/-- What has been read, with the next seven bits of `number` above it, stays below the next
group. -/
theorem group_lt {result shift : Nat} (below : result < 2 ^ shift) (number : Nat) :
    result + number % 128 * 2 ^ shift < 2 ^ (shift + 7) := by
  have low : number % 128 ≤ 127 := by omega
  calc result + number % 128 * 2 ^ shift
      < 2 ^ shift + 127 * 2 ^ shift :=
        Nat.add_lt_add_of_lt_of_le below (Nat.mul_le_mul_right _ low)
    _ = 2 ^ (shift + 7) := by rw [pow_add]; omega

theorem group_add (result shift group number : Nat) :
    result + group * 2 ^ shift + number * 2 ^ (shift + 7) =
      result + (group + 128 * number) * 2 ^ shift := by
  ring

/-! ### Fields -/

/-- The wire types that a message here uses. -/
def wireVarint : Nat := 0
def wireBytes : Nat := 2

/-- The number of a field and its wire type in one. -/
def tag (field wire : Nat) : Nat :=
  field * 8 + wire

theorem tag_shiftRight {field wire : Nat} (known : wire < 8) : tag field wire >>> 3 = field := by
  rw [tag, Nat.shiftRight_eq_div_pow]
  omega

theorem tag_and {field wire : Nat} (known : wire < 8) : tag field wire &&& 0x7 = wire := by
  have low : tag field wire &&& 2 ^ 3 - 1 = tag field wire % 2 ^ 3 :=
    Nat.and_two_pow_sub_one_eq_mod _ 3
  rw [show (0x7 : Nat) = 2 ^ 3 - 1 from rfl, low, tag]
  omega

/-- A field of a message: a number, or bytes that hold a text or a message. -/
inductive Field where
  | number (field value : Nat)
  | payload (field : Nat) (bytes : Bytes)
deriving DecidableEq, Repr

namespace Field

def encode : Field → Bytes
  | number field value => encodeVarint (tag field wireVarint) ++ encodeVarint value
  | payload field bytes =>
    encodeVarint (tag field wireBytes) ++ (encodeVarint bytes.length ++ bytes)

theorem add_length_number (pos field value : Nat) :
    pos + (number field value).encode.length =
      pos + (encodeVarint (tag field wireVarint)).length + (encodeVarint value).length := by
  rw [encode, List.length_append, Nat.add_assoc]

theorem add_length_payload (pos field : Nat) (bytes : Bytes) :
    pos + (payload field bytes).encode.length =
      pos + (encodeVarint (tag field wireBytes)).length + (encodeVarint bytes.length).length +
        bytes.length := by
  rw [encode, List.length_append, List.length_append, Nat.add_assoc, Nat.add_assoc]

/-- A text with the default value, the empty one, is left out. -/
def ofText (field : Nat) (text : Bytes) : List Field :=
  if text = [] then [] else [payload field text]

/-- A number with the default value, zero, is left out. -/
def ofNumber (field value : Nat) : List Field :=
  if value = 0 then [] else [number field value]

theorem encode_ne_nil (field : Field) : field.encode ≠ [] := by
  cases field <;> exact List.append_ne_nil_of_left_ne_nil (encodeVarint_ne_nil _) _

end Field

/-- The message with the fields, one behind the other. -/
def encodeFields (fields : List Field) : Bytes :=
  fields.flatMap Field.encode

theorem length_le_encodeFields (fields : List Field) :
    fields.length ≤ (encodeFields fields).length := by
  induction fields with
  | nil => exact le_rfl
  | cons field rest ih =>
    have some := List.length_pos_of_ne_nil field.encode_ne_nil
    unfold encodeFields at *
    rw [List.flatMap_cons, List.length_cons, List.length_append]
    omega

/-! ### Taking a message apart -/

/-- The varint at the front, and what is behind it. -/
def takeVarint : Bytes → Option (Nat × Bytes)
  | [] => none
  | byte :: rest =>
    if byte.toNat < 128 then some (byte.toNat, rest)
    else (takeVarint rest).map fun read => (byte.toNat - 128 + 128 * read.1, read.2)

theorem takeVarint_encode (number : Nat) (rest : Bytes) :
    takeVarint (encodeVarint number ++ rest) = some (number, rest) := by
  induction number using Nat.strongRecOn with
  | ind number ih =>
    by_cases small : number < 128
    · have byte : (UInt8.ofNat number).toNat = number := by
        rw [UInt8.toNat_ofNat', Nat.mod_eq_of_lt (by omega)]
      rw [encodeVarint_small small, List.singleton_append, takeVarint, byte, if_pos small]
    · have byte : (UInt8.ofNat (number % 128 + 128)).toNat = number % 128 + 128 := by
        rw [UInt8.toNat_ofNat', Nat.mod_eq_of_lt (by omega)]
      rw [encodeVarint_big (by omega), List.cons_append, takeVarint, byte, if_neg (by omega),
        ih (number / 128) (by omega), Option.map_some, Nat.add_sub_cancel, Nat.mod_add_div]

theorem takeVarint_suffix {data left : Bytes} {number : Nat}
    (taken : takeVarint data = some (number, left)) : left <:+ data ∧ left.length < data.length := by
  induction data generalizing number with
  | nil => cases taken
  | cons byte rest ih =>
    rw [takeVarint] at taken
    split_ifs at taken with last
    · cases taken
      exact ⟨List.suffix_cons .., Nat.lt_succ_self _⟩
    · obtain ⟨read, found, same⟩ := Option.map_eq_some_iff.mp taken
      cases same
      obtain ⟨inside, shorter⟩ := ih found
      exact ⟨inside.trans (List.suffix_cons ..), Nat.lt_succ_of_lt shorter⟩

/-- The field at the front, and what is behind it. -/
def takeField (data : Bytes) : Option (Field × Bytes) := do
  let (tag, data) ← takeVarint data
  let (value, data) ← takeVarint data
  if tag % 8 = wireVarint then
    pure (.number (tag / 8) value, data)
  else if tag % 8 = wireBytes ∧ value ≤ data.length then
    pure (.payload (tag / 8) (data.take value), data.drop value)
  else
    none

theorem takeField_encode (field : Field) (rest : Bytes) :
    takeField (field.encode ++ rest) = some (field, rest) := by
  cases field with
  | number field value =>
    have wire : tag field wireVarint % 8 = wireVarint := by rw [tag, wireVarint]; omega
    have numbered : tag field wireVarint / 8 = field := by rw [tag, wireVarint]; omega
    rw [Field.encode, List.append_assoc, takeField, takeVarint_encode]
    simp only [Option.bind_eq_bind, Option.bind_some, takeVarint_encode, wire, numbered, if_true]
    rfl
  | payload field bytes =>
    have wire : tag field wireBytes % 8 = wireBytes := by rw [tag, wireBytes]; omega
    have numbered : tag field wireBytes / 8 = field := by rw [tag, wireBytes]; omega
    have apart : ¬ wireBytes = wireVarint := by decide
    have fits : bytes.length ≤ (bytes ++ rest).length := by
      rw [List.length_append]
      omega
    rw [Field.encode, List.append_assoc, List.append_assoc, takeField, takeVarint_encode]
    simp only [Option.bind_eq_bind, Option.bind_some, takeVarint_encode, wire, numbered,
      if_neg apart, fits, and_self, if_true, List.take_left, List.drop_left]
    rfl

theorem takeField_eq_some {data left : Bytes} {field : Field} :
    takeField data = some (field, left) ↔
      ∃ tag tail value behind, takeVarint data = some (tag, tail) ∧
        takeVarint tail = some (value, behind) ∧
        (tag % 8 = wireVarint ∧ field = .number (tag / 8) value ∧ left = behind ∨
          tag % 8 = wireBytes ∧ value ≤ behind.length ∧
            field = .payload (tag / 8) (behind.take value) ∧ left = behind.drop value) := by
  have apart (tag : Nat) (bytes : tag % 8 = wireBytes) : ¬tag % 8 = wireVarint := by
    rw [bytes]
    decide
  rw [takeField]
  simp only [Option.bind_eq_bind, Option.bind_eq_some_iff]
  constructor
  · rintro ⟨⟨tag, tail⟩, tagged, ⟨value, behind⟩, valued, rest⟩
    refine ⟨tag, tail, value, behind, tagged, valued, ?_⟩
    dsimp only at rest
    split_ifs at rest with number payload
    · cases rest
      exact .inl ⟨number, rfl, rfl⟩
    · cases rest
      exact .inr ⟨payload.1, payload.2, rfl, rfl⟩
  · rintro ⟨tag, tail, value, behind, tagged, valued, ⟨number, rfl, rfl⟩ | ⟨bytes, fits, rfl, rfl⟩⟩
    · refine ⟨(tag, tail), tagged, (value, left), valued, ?_⟩
      dsimp only
      rw [if_pos number]
      rfl
    · refine ⟨(tag, tail), tagged, (value, behind), valued, ?_⟩
      dsimp only
      rw [if_neg (apart tag bytes), if_pos ⟨bytes, fits⟩]
      rfl

theorem takeField_shorter {data left : Bytes} {field : Field}
    (taken : takeField data = some (field, left)) : left.length < data.length := by
  obtain ⟨tag, tail, value, behind, tagged, valued, read⟩ := takeField_eq_some.mp taken
  have first := (takeVarint_suffix tagged).2
  have second := (takeVarint_suffix valued).2
  rcases read with ⟨-, -, rfl⟩ | ⟨-, -, -, rfl⟩
  · omega
  · rw [List.length_drop]
    omega

/-- All fields of a message. -/
def takeFields : Nat → Bytes → Option (List Field)
  | _, [] => some []
  | 0, _ :: _ => none
  | fuel + 1, byte :: rest => do
      let (field, data) ← takeField (byte :: rest)
      let fields ← takeFields fuel data
      pure (field :: fields)

def decodeFields (data : Bytes) : Option (List Field) :=
  takeFields data.length data

/-- **Taking apart what was put together.** -/
theorem takeFields_encode (fields : List Field) :
    ∀ fuel, fields.length ≤ fuel → takeFields fuel (encodeFields fields) = some fields := by
  induction fields with
  | nil => intro fuel _; cases fuel <;> rfl
  | cons field fields ih =>
    intro fuel enough
    rw [List.length_cons] at enough
    obtain ⟨fuel, rfl⟩ : ∃ more, fuel = more + 1 := ⟨fuel - 1, by omega⟩
    have split : encodeFields (field :: fields) = field.encode ++ encodeFields fields := rfl
    obtain ⟨byte, tail, first⟩ := List.exists_cons_of_ne_nil field.encode_ne_nil
    have read := takeField_encode field (encodeFields fields)
    rw [split]
    rw [first, List.cons_append] at read ⊢
    rw [takeFields, read]
    simp only [Option.bind_eq_bind, Option.bind_some, ih fuel (by omega)]
    rfl

theorem decodeFields_encode (fields : List Field) :
    decodeFields (encodeFields fields) = some fields :=
  takeFields_encode fields _ (length_le_encodeFields fields)

/-! ### Reading one item after another -/

section Reading

variable {State Error Item : Type}

/-- Step from position to position while there is input left. A step moves ahead, so that as many
steps as there are bytes are enough. -/
def readAll (size : Nat) (step : Nat → State → Except Error (Nat × State)) :
    Nat → Nat → State → Except Error State
  | 0, _, state => pure state
  | fuel + 1, pos, state =>
    if pos < size then do
      let (pos, state) ← step pos state
      readAll size step fuel pos state
    else
      pure state

/-- **Reading what was written**: a step that reads one item reads all of them, in order. -/
theorem readAll_flatMap {data : Bytes} {step : Nat → State → Except Error (Nat × State)}
    (encode : Item → Bytes) (apply : State → Item → State) (good : Item → Prop)
    (nonempty : ∀ item, encode item ≠ [])
    (reads : ∀ pos state item rest, good item → data.drop pos = encode item ++ rest →
      step pos state = .ok (pos + (encode item).length, apply state item)) (items : List Item) :
    ∀ fuel pos state, (∀ item ∈ items, good item) → data.drop pos = items.flatMap encode →
      items.length ≤ fuel → readAll data.length step fuel pos state = .ok (items.foldl apply state) := by
  induction items with
  | nil =>
    intro fuel pos state _ left _
    have behind : ¬ pos < data.length := by
      rw [List.flatMap_nil, List.drop_eq_nil_iff] at left
      omega
    cases fuel with
    | zero => rfl
    | succ fuel =>
      rw [readAll, if_neg behind]
      rfl
  | cons item items ih =>
    intro fuel pos state allGood left enough
    rw [List.flatMap_cons] at left
    have inside : pos < data.length := by
      by_contra behind
      rw [List.drop_eq_nil_iff.mpr (by omega)] at left
      exact nonempty item (List.append_eq_nil_iff.mp left.symm).1
    have behind : data.drop (pos + (encode item).length) = items.flatMap encode := by
      rw [← List.drop_drop, left, List.drop_left]
    cases fuel with
    | zero =>
      rw [List.length_cons] at enough
      omega
    | succ fuel =>
      rw [List.length_cons] at enough
      rw [readAll, if_pos inside,
        reads pos state item _ (allGood item (List.mem_cons_self ..)) left]
      exact ih fuel _ _ (fun other member => allGood other (List.mem_cons_of_mem _ member))
        behind (by omega)

/-- A step that moves ahead leaves no turn undone: with enough turns, more of them change nothing. -/
theorem readAll_enough {size : Nat} {step : Nat → State → Except Error (Nat × State)}
    (ahead : ∀ pos state next, pos < size → step pos state = .ok next → pos < next.1) :
    ∀ fuel other pos state, size ≤ pos + fuel → size ≤ pos + other →
      readAll size step fuel pos state = readAll size step other pos state := by
  have behind (fuel pos : Nat) (state : State) (ended : ¬ pos < size) :
      readAll size step fuel pos state = .ok state := by
    cases fuel with
    | zero => rfl
    | succ fuel =>
      rw [readAll, if_neg ended]
      rfl
  intro fuel
  induction fuel with
  | zero =>
    intro other pos state enough _
    rw [behind 0 pos state (by omega), behind other pos state (by omega)]
  | succ fuel ih =>
    intro other pos state enough enough'
    by_cases inside : pos < size
    · obtain ⟨other, rfl⟩ : ∃ more, other = more + 1 := ⟨other - 1, by omega⟩
      rw [readAll, readAll, if_pos inside, if_pos inside]
      cases taken : step pos state with
      | error error => rfl
      | ok next =>
        have moved := ahead pos state next inside taken
        exact ih other next.1 next.2 (by omega) (by omega)
    · rw [behind _ pos state inside, behind _ pos state inside]

theorem readAll_invariant {size : Nat} {step : Nat → State → Except Error (Nat × State)}
    (good : State → Prop)
    (keeps : ∀ pos state next, step pos state = .ok next → good state → good next.2) :
    ∀ fuel pos state final, readAll size step fuel pos state = .ok final → good state →
      good final := by
  intro fuel
  induction fuel with
  | zero =>
    intro pos state final ends here
    rw [← Except.ok.inj ends]
    exact here
  | succ fuel ih =>
    intro pos state final ends here
    rw [readAll] at ends
    by_cases inside : pos < size
    · rw [if_pos inside] at ends
      cases taken : step pos state with
      | error error =>
        rw [taken] at ends
        cases ends
      | ok next =>
        rw [taken] at ends
        exact ih next.1 next.2 final ends (keeps pos state next taken here)
    · rw [if_neg inside] at ends
      rw [← Except.ok.inj ends]
      exact here

/-- **A reader that follows another one**: what the second can read, the first reads to the same. -/
theorem readAll_simulates {Fault : Type} {size : Nat}
    {step : Nat → State → Except Error (Nat × State)}
    {other : Nat → State → Except Fault (Nat × State)}
    (follows : ∀ pos state next, step pos state = .ok next → other pos state = .ok next) :
    ∀ fuel pos state final, readAll size step fuel pos state = .ok final →
      readAll size other fuel pos state = .ok final := by
  intro fuel
  induction fuel with
  | zero =>
    intro pos state final ends
    exact congrArg Except.ok (Except.ok.inj ends)
  | succ fuel ih =>
    intro pos state final ends
    rw [readAll] at ends ⊢
    by_cases inside : pos < size
    · rw [if_pos inside] at ends ⊢
      cases taken : step pos state with
      | error error =>
        rw [taken] at ends
        cases ends
      | ok next =>
        rw [taken] at ends
        rw [follows pos state next taken]
        exact ih next.1 next.2 final ends
    · rw [if_neg inside] at ends ⊢
      exact congrArg Except.ok (Except.ok.inj ends)

/-! ### Readers of fields -/

/-- What is left of a message behind some fields, all of them good. -/
inductive Behind (good : Field → Prop) (data : Bytes) : Bytes → Prop
  | start : Behind good data data
  | field {rest left : Bytes} {field : Field} (front : Behind good data rest)
      (taken : takeField rest = some (field, left)) (fine : good field) : Behind good data left

/-- The step reads one field, and it reads exactly the good ones. -/
structure ReadsFields (good : Field → Prop) (data : Bytes)
    (step : Nat → State → Except Error (Nat × State)) : Prop where
  sound : ∀ {pos state next}, step pos state = .ok next →
    ∃ field, takeField (data.drop pos) = some (field, data.drop next.1) ∧ good field
  complete : ∀ {pos field left} (state : State), takeField (data.drop pos) = some (field, left) →
    good field → ∃ next, step pos state = .ok next ∧ data.drop next.1 = left

namespace ReadsFields

variable {good : Field → Prop} {data : Bytes} {step : Nat → State → Except Error (Nat × State)}

/-- A step moves ahead. -/
theorem ahead (reads : ReadsFields good data step) {pos : Nat} {state : State} {next : Nat × State}
    (taken : step pos state = .ok next) : pos < next.1 := by
  obtain ⟨field, read, -⟩ := reads.sound taken
  have shorter := takeField_shorter read
  rw [List.length_drop, List.length_drop] at shorter
  omega

/-- **What a reader of fields comes to**: the end of the message, or a step that fails behind good
fields. -/
theorem ends (reads : ReadsFields good data step) : ∀ fuel pos state, data.length ≤ pos + fuel →
    Behind good data (data.drop pos) →
    (∃ final, readAll data.length step fuel pos state = .ok final) ∧ Behind good data [] ∨
      ∃ error, readAll data.length step fuel pos state = .error error ∧
        ∃ stop last, stop < data.length ∧ Behind good data (data.drop stop) ∧
          step stop last = .error error := by
  intro fuel
  induction fuel with
  | zero =>
    intro pos state enough front
    rw [List.drop_eq_nil_of_le (by omega : data.length ≤ pos)] at front
    exact .inl ⟨⟨state, rfl⟩, front⟩
  | succ fuel ih =>
    intro pos state enough front
    rw [readAll]
    by_cases inside : pos < data.length
    · rw [if_pos inside]
      cases taken : step pos state with
      | error error => exact .inr ⟨error, rfl, pos, state, inside, front, taken⟩
      | ok next =>
        obtain ⟨field, read, fine⟩ := reads.sound taken
        have ahead := reads.ahead taken
        exact ih next.1 next.2 (by omega) (front.field read fine)
    · rw [if_neg inside]
      rw [List.drop_eq_nil_of_le (Nat.le_of_not_lt inside)] at front
      exact .inl ⟨⟨state, rfl⟩, front⟩

/-- The reader gets behind every row of good fields. -/
theorem arrives (reads : ReadsFields good data step) (state : State) {rest : Bytes}
    (front : Behind good data rest) :
    ∃ fuel pos last, data.drop pos = rest ∧ data.length ≤ pos + fuel ∧
      readAll data.length step data.length 0 state = readAll data.length step fuel pos last := by
  induction front with
  | start => exact ⟨data.length, 0, state, rfl, by omega, rfl⟩
  | field front taken fine ih =>
    obtain ⟨fuel, pos, last, rfl, enough, same⟩ := ih
    have shorter := takeField_shorter taken
    rw [List.length_drop] at shorter
    obtain ⟨fuel, rfl⟩ : ∃ more, fuel = more + 1 := ⟨fuel - 1, by omega⟩
    obtain ⟨next, stepped, rfl⟩ := reads.complete last taken fine
    have ahead := reads.ahead stepped
    refine ⟨fuel, next.1, next.2, rfl, by omega, same.trans ?_⟩
    rw [readAll, if_pos (by omega), stepped]
    rfl

theorem isOk_iff (reads : ReadsFields good data step) (state : State) :
    (∃ final, readAll data.length step data.length 0 state = .ok final) ↔ Behind good data [] := by
  constructor
  · rintro ⟨final, ended⟩
    rcases reads.ends data.length 0 state (by omega) .start with ⟨-, whole⟩ | ⟨error, fails, -⟩
    · exact whole
    · cases ended.symm.trans fails
  · intro whole
    obtain ⟨fuel, pos, last, none, -, same⟩ := reads.arrives state whole
    refine ⟨last, same.trans ?_⟩
    cases fuel with
    | zero => rfl
    | succ fuel =>
      rw [readAll, if_neg (Nat.not_lt.mpr (List.drop_eq_nil_iff.mp none))]
      rfl

/-- **The reader fails** behind good fields where every step fails. -/
theorem fails (reads : ReadsFields good data step) (state : State) {rest : Bytes} (given : rest ≠ [])
    (front : Behind good data rest) {unread : Error → Prop}
    (stops : ∀ pos last, data.drop pos = rest → ∃ error, step pos last = .error error ∧ unread error) :
    ∃ error, readAll data.length step data.length 0 state = .error error ∧ unread error := by
  obtain ⟨fuel, pos, last, rfl, enough, same⟩ := reads.arrives state front
  have inside : pos < data.length := by
    by_contra behind
    exact given (List.drop_eq_nil_of_le (Nat.le_of_not_lt behind))
  obtain ⟨fuel, rfl⟩ : ∃ more, fuel = more + 1 := ⟨fuel - 1, by omega⟩
  obtain ⟨error, stepped, unread⟩ := stops pos last rfl
  refine ⟨error, same.trans ?_, unread⟩
  rw [readAll, if_pos inside, stepped]
  rfl

end ReadsFields

end Reading

end ExecRelay.Lib
