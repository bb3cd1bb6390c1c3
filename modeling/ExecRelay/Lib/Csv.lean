/-
**Comma-separated values, as RFC 4180 reads them.**

A field stands as it is, or between quotes with its quotes doubled; commas stand between the fields of a
record, and a record ends with a line feed. `readRecords` is the parser, one byte after the other: a
quote inside a plain field is an error, as is anything but a comma, a line end or a second quote behind a
quote that closes. Any byte but these may stand in a plain field. The last record may go without its line
end.
-/

import ExecRelay.Lib.Bytes

namespace ExecRelay.Lib.Csv

/-! ### The parser -/

/-- Where in a field the parser is. -/
inductive Mode
  | start
  | plain
  | quoted
  /-- Behind a quote in a quoted field. -/
  | closed
deriving DecidableEq, Repr

def isPlainByte (byte : UInt8) : Bool :=
  byte ≠ 44 && byte ≠ 34 && byte ≠ 10 && byte ≠ 13

/-- The end of the text. The last record may go without its line end. -/
def finish (field : Bytes) (fields : List Bytes) : Mode → Option (List (List Bytes))
  | .quoted => none
  | .start => if fields = [] then some [] else some [fields ++ [field]]
  | _ => some [fields ++ [field]]

def readFrom : Mode → Bytes → List Bytes → Bytes → Option (List (List Bytes))
  | mode, field, fields, [] => finish field fields mode
  | .quoted, field, fields, byte :: rest =>
    if byte = 34 then readFrom .closed field fields rest
    else readFrom .quoted (field ++ [byte]) fields rest
  | mode, field, fields, byte :: rest =>
    if byte = 44 then readFrom .start [] (fields ++ [field]) rest
    else if byte = 10 then (readFrom .start [] [] rest).map ((fields ++ [field]) :: ·)
    else if byte = 34 ∧ mode = .start then readFrom .quoted [] fields rest
    else if byte = 34 ∧ mode = .closed then readFrom .quoted (field ++ [34]) fields rest
    else if isPlainByte byte ∧ mode ≠ .closed then readFrom .plain (field ++ [byte]) fields rest
    else none

/-- **The records of a text.** -/
def readRecords (text : Bytes) : Option (List (List Bytes)) :=
  readFrom .start [] [] text

example : readRecords (lit "a,\"b\"\"\n,c\",\n,\n") =
    some [[lit "a", lit "b\"\n,c", []], [[], []]] := by
  decide +kernel

/-- Bytes and a quote cannot stand behind each other. -/
example : readRecords (lit "a\"b") = none ∧ readRecords (lit "\"a\"b") = none := by decide +kernel

/-! ### A field -/

/-- A field between quotes. -/
def quote (field : Bytes) : Bytes :=
  34 :: field.flatMap (fun byte => if byte = 34 then [34, 34] else [byte]) ++ [34]

/-- A text for a field. -/
inductive Writes (field : Bytes) : Bytes → Prop
  | plain (fine : field.all isPlainByte = true) : Writes field field
  | quoted : Writes field (quote field)

variable {mode : Mode} {field before : Bytes} {fields : List Bytes} {rest : Bytes}

theorem readFrom_comma (outside : mode ≠ .quoted) :
    readFrom mode field fields (44 :: rest) = readFrom .start [] (fields ++ [field]) rest := by
  cases mode with
  | quoted => exact absurd rfl outside
  | _ => rfl

theorem readFrom_line (outside : mode ≠ .quoted) :
    readFrom mode field fields (10 :: rest) =
      (readFrom .start [] [] rest).map ((fields ++ [field]) :: ·) := by
  cases mode with
  | quoted => exact absurd rfl outside
  | _ => rfl

theorem readFrom_byte {byte : UInt8} (fine : isPlainByte byte = true)
    (open_ : mode = .start ∨ mode = .plain) :
    readFrom mode before fields (byte :: rest) = readFrom .plain (before ++ [byte]) fields rest := by
  have other : byte ≠ 44 ∧ byte ≠ 34 ∧ byte ≠ 10 := by
    simp only [isPlainByte, Bool.and_eq_true, decide_eq_true_eq] at fine
    exact ⟨fine.1.1.1, fine.1.1.2, fine.1.2⟩
  rcases open_ with rfl | rfl <;> simp [readFrom, fine, other]

/-- **A plain field** is read to its end. -/
theorem readFrom_plain (fine : field.all isPlainByte = true) (open_ : mode = .start ∨ mode = .plain) :
    ∃ last, last ≠ Mode.quoted ∧ readFrom mode before fields (field ++ rest) =
      readFrom last (before ++ field) fields rest := by
  induction field generalizing mode before with
  | nil =>
    refine ⟨mode, ?_, by simp⟩
    rintro rfl
    simp at open_
  | cons byte field ih =>
    rw [List.all_cons, Bool.and_eq_true] at fine
    obtain ⟨last, outside, same⟩ := @ih .plain (before ++ [byte]) fine.2 (.inr rfl)
    refine ⟨last, outside, ?_⟩
    rw [List.cons_append, readFrom_byte fine.1 open_, same, List.append_assoc]
    rfl

/-- **A quoted field** is read to its closing quote. -/
theorem readFrom_quoted : readFrom .quoted before fields
    (field.flatMap (fun byte => if byte = 34 then [34, 34] else [byte]) ++ 34 :: rest) =
      readFrom .closed (before ++ field) fields rest := by
  induction field generalizing before with
  | nil =>
    rw [List.append_nil]
    rfl
  | cons byte field ih =>
    rw [List.flatMap_cons]
    by_cases isQuote : byte = 34
    · subst isQuote
      rw [if_pos rfl, List.append_assoc, List.cons_append, List.cons_append, List.nil_append]
      show readFrom .quoted (before ++ [34]) fields _ = _
      rw [ih, List.append_assoc]
      rfl
    · rw [if_neg isQuote, List.append_assoc, List.cons_append, List.nil_append, readFrom,
        if_neg isQuote, ih, List.append_assoc]
      rfl

/-- **A field is read as it was written**, in either way. -/
theorem readFrom_field {text : Bytes} (written : Writes field text) :
    ∃ last, last ≠ Mode.quoted ∧
      readFrom .start [] fields (text ++ rest) = readFrom last field fields rest := by
  cases written with
  | plain fine => exact readFrom_plain fine (.inl rfl)
  | quoted =>
    refine ⟨.closed, nofun, ?_⟩
    rw [quote, List.cons_append, List.cons_append, List.append_assoc]
    exact readFrom_quoted

/-! ### Records -/

/-- **A record is read as it was written**: its fields with commas between them, and a line end. -/
theorem readFrom_join {texts : List Bytes} {record : List Bytes}
    (written : List.Forall₂ Writes record texts) (given : record ≠ []) :
    readFrom .start [] fields ([44].intercalate texts ++ 10 :: rest) =
      (readFrom .start [] [] rest).map ((fields ++ record) :: ·) := by
  induction written generalizing fields with
  | nil => exact absurd rfl given
  | @cons field text record texts here others ih =>
    cases others with
    | nil =>
      obtain ⟨last, outside, same⟩ := readFrom_field here
      rw [List.intercalate_singleton, same, readFrom_line outside]
    | cons second later =>
      obtain ⟨last, outside, same⟩ := readFrom_field here
      rw [List.intercalate_cons_cons, List.append_assoc, List.append_assoc, same,
        List.singleton_append, readFrom_comma outside, ih (List.cons_ne_nil _ _), List.append_assoc]
      rfl

/-- **Records are read as they were written.** -/
theorem readRecords_join {Row : Type} {fieldsOf textsOf : Row → List Bytes} (rows : List Row)
    (given : ∀ row ∈ rows, fieldsOf row ≠ [])
    (written : ∀ row ∈ rows, List.Forall₂ Writes (fieldsOf row) (textsOf row)) :
    readRecords (rows.flatMap fun row => [44].intercalate (textsOf row) ++ [10]) =
      some (rows.map fieldsOf) := by
  induction rows with
  | nil => rfl
  | cons row rows ih =>
    rw [List.forall_mem_cons] at given written
    have later := ih given.2 written.2
    rw [readRecords] at later ⊢
    rw [List.flatMap_cons, List.append_assoc, List.singleton_append,
      readFrom_join written.1 given.1, later]
    rfl

end ExecRelay.Lib.Csv
