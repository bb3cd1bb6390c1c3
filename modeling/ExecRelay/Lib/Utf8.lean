/-
**Well-formed UTF-8.**

A byte either begins a character, which fixes the ranges of the bytes that have to follow
(`continuation`), or is one of the bytes that a character still waits for. `validUtf8` runs over the
bytes with the ranges that are still awaited: no overlong form, no surrogate and nothing above
U+10FFFF is accepted. `decodeReplace` puts a replacement character where a text is not well formed.
-/

import ExecRelay.Lib.Bytes

namespace ExecRelay.Lib

/-- The bytes from `low` to `high`. -/
structure ByteRange where
  low : UInt8
  high : UInt8
deriving DecidableEq, Repr

namespace ByteRange

def holds (range : ByteRange) (byte : UInt8) : Bool :=
  range.low ≤ byte && byte ≤ range.high

end ByteRange

def anyTail : ByteRange := ⟨0x80, 0xBF⟩

/-- The ranges of the bytes that follow a first byte, if a character can begin with it. -/
def continuation (byte : UInt8) : Option (List ByteRange) :=
  if byte ≤ 0x7F then some []
  else if 0xC2 ≤ byte ∧ byte ≤ 0xDF then some [anyTail]
  else if byte = 0xE0 then some [⟨0xA0, 0xBF⟩, anyTail]
  else if byte = 0xED then some [⟨0x80, 0x9F⟩, anyTail]
  else if 0xE1 ≤ byte ∧ byte ≤ 0xEF then some [anyTail, anyTail]
  else if byte = 0xF0 then some [⟨0x90, 0xBF⟩, anyTail, anyTail]
  else if 0xF1 ≤ byte ∧ byte ≤ 0xF3 then some [anyTail, anyTail, anyTail]
  else if byte = 0xF4 then some [⟨0x80, 0x8F⟩, anyTail, anyTail]
  else none

def utf8Step : List ByteRange → UInt8 → Option (List ByteRange)
  | [], byte => continuation byte
  | range :: awaited, byte => if range.holds byte then some awaited else none

def validUtf8 (text : Bytes) : Bool :=
  text.foldlM utf8Step [] = some []

theorem validUtf8_append {first second : Bytes} (firstValid : validUtf8 first = true)
    (secondValid : validUtf8 second = true) : validUtf8 (first ++ second) = true := by
  unfold validUtf8 at *
  rw [decide_eq_true_eq] at *
  rw [List.foldlM_append, firstValid]
  exact secondValid

/-! ### Decoding with replacement -/

/-- The UTF-8 form of U+FFFD. -/
def replacementCharacter : Bytes := [0xEF, 0xBF, 0xBD]

def countMet : List ByteRange → Bytes → Nat
  | range :: awaited, byte :: rest => if range.holds byte then countMet awaited rest + 1 else 0
  | _, _ => 0

/-- The text with a replacement for every longest beginning of a character that is cut short, and for
every byte that no character begins with. The first `skip` bytes were dealt with before. -/
def replaceFrom : Nat → Bytes → Bytes
  | _, [] => []
  | skip + 1, _ :: rest => replaceFrom skip rest
  | 0, byte :: rest =>
    match continuation byte with
    | none => replacementCharacter ++ replaceFrom 0 rest
    | some awaited =>
      let met := countMet awaited rest
      if met = awaited.length then byte :: rest.take met ++ replaceFrom met rest
      else replacementCharacter ++ replaceFrom met rest

/-- Decoding that replaces what is not well formed, as the UTF-8 form of the text. -/
def decodeReplace (raw : Bytes) : Bytes :=
  replaceFrom 0 raw

theorem replaceFrom_skip (skip : Nat) (raw : Bytes) :
    replaceFrom skip raw = replaceFrom 0 (raw.drop skip) := by
  induction skip generalizing raw with
  | zero => rfl
  | succ skip ih =>
    cases raw with
    | nil => rfl
    | cons byte rest =>
      rw [replaceFrom, ih, List.drop_succ_cons]

theorem countMet_of_valid (awaited : List ByteRange) (rest : Bytes)
    (valid : rest.foldlM utf8Step awaited = some []) :
    countMet awaited rest = awaited.length ∧ awaited.length ≤ rest.length ∧
      (rest.drop awaited.length).foldlM utf8Step [] = some [] := by
  induction awaited generalizing rest with
  | nil => exact ⟨by cases rest <;> rfl, Nat.zero_le _, valid⟩
  | cons range awaited ih =>
    cases rest with
    | nil => cases valid
    | cons byte rest =>
      rw [List.foldlM_cons, utf8Step] at valid
      by_cases met : range.holds byte = true
      · rw [if_pos met] at valid
        obtain ⟨all, fits, left⟩ := ih rest valid
        rw [countMet, if_pos met, all]
        exact ⟨rfl, Nat.succ_le_succ fits, left⟩
      · rw [if_neg met] at valid
        cases valid

/-- **Nothing is replaced in a well-formed text.** -/
theorem decodeReplace_of_valid {raw : Bytes} (valid : validUtf8 raw = true) :
    decodeReplace raw = raw := by
  unfold validUtf8 at valid
  rw [decide_eq_true_eq] at valid
  unfold decodeReplace
  -- character by character: what a first byte awaits is met, and the rest is well formed again
  induction sized : raw.length using Nat.strongRecOn generalizing raw with
  | ind size ih =>
    cases raw with
    | nil => rfl
    | cons byte rest =>
      change (continuation byte >>= fun awaited => rest.foldlM utf8Step awaited) = _ at valid
      rw [replaceFrom]
      cases begins : continuation byte with
      | none =>
        rw [begins] at valid
        cases valid
      | some awaited =>
        rw [begins] at valid
        obtain ⟨all, fits, left⟩ := countMet_of_valid awaited rest valid
        have shorter : (rest.drop awaited.length).length < size := by
          rw [← sized, List.length_drop, List.length_cons]
          omega
        simp only [all, if_true]
        rw [replaceFrom_skip, ih _ shorter left rfl, List.cons_append, List.take_append_drop]

/-- A cut character, a byte that begins none, and a whole character. -/
example : decodeReplace [0xE2, 0x82, 0x41, 0xFF, 0xC3, 0xA9] =
    replacementCharacter ++ 0x41 :: replacementCharacter ++ [0xC3, 0xA9] := by
  decide

end ExecRelay.Lib
