/-
**The text of a JSON string.**

`unquote` is what the decoder of the Go library makes of the bytes between the quotes of a string: an
escape sequence becomes the character it stands for, a byte that is not part of a well-formed
character becomes U+FFFD, and the rest is copied. Quotes, control characters and foreign escapes are
refused. It goes over the bytes one element at a time; `skip` counts the bytes that the last element
has used up already.

A text is `Plain` if it needs no escaping.
-/

import ExecRelay.Lib.Utf8

namespace ExecRelay.Lib.Json

/-! ### Elements -/

def backslash : UInt8 := 92

def replacement : Bytes := [0xEF, 0xBF, 0xBD]

def hexCode (first second third fourth : UInt8) : Option Nat := do
  let a ← hexValue first
  let b ← hexValue second
  let c ← hexValue third
  let d ← hexValue fourth
  some (((a.toNat * 16 + b.toNat) * 16 + c.toNat) * 16 + d.toNat)

/-- `utf8.EncodeRune`. -/
def encodeRune (code : Nat) : Bytes :=
  if code < 0x80 then [UInt8.ofNat code]
  else if code < 0x800 then [UInt8.ofNat (0xC0 + code / 64), UInt8.ofNat (0x80 + code % 64)]
  else if 0xD800 ≤ code ∧ code < 0xE000 then replacement
  else if code < 0x10000 then
    [UInt8.ofNat (0xE0 + code / 4096), UInt8.ofNat (0x80 + code / 64 % 64),
      UInt8.ofNat (0x80 + code % 64)]
  else if code < 0x110000 then
    [UInt8.ofNat (0xF0 + code / 262144), UInt8.ofNat (0x80 + code / 4096 % 64),
      UInt8.ofNat (0x80 + code / 64 % 64), UInt8.ofNat (0x80 + code % 64)]
  else replacement

/-- `utf16.DecodeRune`: the character of a surrogate pair. -/
def pairCode (high low : Nat) : Option Nat :=
  if 0xD800 ≤ high ∧ high < 0xDC00 ∧ 0xDC00 ≤ low ∧ low < 0xE000 then
    some ((high - 0xD800) * 1024 + (low - 0xDC00) + 0x10000)
  else none

/-- The second half of a surrogate pair, if the text goes on with an escape of that form. -/
def nextCode : Bytes → Option Nat
  | 92 :: 117 :: a :: b :: c :: d :: _ => hexCode a b c d
  | _ => none

def shortEscape (byte : UInt8) : Option UInt8 :=
  if byte = quote ∨ byte = backslash ∨ byte = 47 then some byte
  else if byte = 98 then some 0x08
  else if byte = 102 then some 0x0C
  else if byte = 110 then some 0x0A
  else if byte = 114 then some 0x0D
  else if byte = 116 then some 0x09
  else none

/-- What an escape sequence stands for, and how many bytes of the text behind the backslash belong
to it. -/
def escapeSequence : Bytes → Option (Bytes × Nat)
  | 117 :: a :: b :: c :: d :: rest => do
      let code ← hexCode a b c d
      match (nextCode rest).bind (pairCode code) with
      | some pair => some (encodeRune pair, 11)
      | none => some (encodeRune code, 5)
  | byte :: _ => (shortEscape byte).map fun char => ([char], 1)
  | [] => none

def inRanges : List ByteRange → Bytes → Bool
  | [], _ => true
  | _ :: _, [] => false
  | range :: ranges, byte :: rest => range.holds byte && inRanges ranges rest

/-- How many bytes of the text belong to the character that begins with the byte. -/
def charTail (byte : UInt8) (rest : Bytes) : Option Nat :=
  match continuation byte with
  | some ranges => if inRanges ranges rest then some ranges.length else none
  | none => none

/-- One element: what it stands for, and how many bytes behind the first belong to it. -/
def element (byte : UInt8) (rest : Bytes) : Option (Bytes × Nat) :=
  if byte = backslash then escapeSequence rest
  else if byte = quote ∨ byte < 0x20 then none
  else match charTail byte rest with
    | some count => some (byte :: rest.take count, count)
    | none => some (replacement, 0)

def unquoteFrom : Nat → Bytes → Option Bytes
  | _, [] => some []
  | skip + 1, _ :: rest => unquoteFrom skip rest
  | 0, byte :: rest => do
      let (text, used) ← element byte rest
      let others ← unquoteFrom used rest
      some (text ++ others)

/-- `unquoteBytes`. -/
def unquote (raw : Bytes) : Option Bytes :=
  unquoteFrom 0 raw

/-! ### Characters -/

theorem length_le_of_inRanges (ranges : List ByteRange) (text : Bytes)
    (holds : inRanges ranges text = true) : ranges.length ≤ text.length := by
  induction ranges generalizing text with
  | nil => simp
  | cons range ranges ih =>
    cases text with
    | nil => simp [inRanges] at holds
    | cons byte rest =>
      rw [inRanges, Bool.and_eq_true] at holds
      simpa using ih rest holds.2

theorem foldlM_take_of_inRanges (ranges : List ByteRange) (text : Bytes)
    (holds : inRanges ranges text = true) :
    (text.take ranges.length).foldlM utf8Step ranges = some [] := by
  induction ranges generalizing text with
  | nil => rfl
  | cons range ranges ih =>
    cases text with
    | nil => simp [inRanges] at holds
    | cons byte rest =>
      rw [inRanges, Bool.and_eq_true] at holds
      rw [List.length_cons, List.take_succ_cons, List.foldlM_cons, utf8Step, if_pos holds.1]
      exact ih rest holds.2

theorem inRanges_of_foldlM (ranges : List ByteRange) (text : Bytes)
    (valid : text.foldlM utf8Step ranges = some []) :
    inRanges ranges text = true ∧ validUtf8 (text.drop ranges.length) = true := by
  induction ranges generalizing text with
  | nil => simpa [inRanges, validUtf8] using valid
  | cons range ranges ih =>
    cases text with
    | nil => simp at valid
    | cons byte rest =>
      rw [List.foldlM_cons, utf8Step] at valid
      by_cases inside : range.holds byte = true
      · rw [if_pos inside] at valid
        have others := ih rest valid
        simpa [inRanges, inside] using others
      · rw [if_neg inside] at valid
        cases valid

/-- A well-formed text begins with a character, and a well-formed text is behind it. -/
theorem charTail_of_valid {byte : UInt8} {rest : Bytes} (valid : validUtf8 (byte :: rest) = true) :
    ∃ count, charTail byte rest = some count ∧ count ≤ rest.length ∧
      validUtf8 (rest.drop count) = true := by
  unfold validUtf8 at valid
  rw [decide_eq_true_eq, List.foldlM_cons, utf8Step] at valid
  cases found : continuation byte with
  | none =>
    rw [found] at valid
    cases valid
  | some ranges =>
    rw [found] at valid
    obtain ⟨holds, others⟩ := inRanges_of_foldlM ranges rest valid
    refine ⟨ranges.length, ?_, length_le_of_inRanges ranges rest holds, others⟩
    simp [charTail, found, holds]

/-! ### Decoding -/

example : unquote (lit "a\\\\b\\u00e9\\ud83d\\ude00") = some (lit "a\\bé😀") := by decide +kernel

end ExecRelay.Lib.Json
