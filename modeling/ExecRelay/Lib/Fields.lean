/-
**Fields with a separator between them.**

A text is written by joining its fields with a separator, and read by trimming it, splitting it at the
separator and trimming every part. This file says when reading gives the fields back:

* `trim_trim`: a trimmed list stays as it is;
* `read_join`: fields that are trimmed, not empty and without the separator are read as they were
  written;
* `not_mem_of_length_split`: if there are as many parts as fields, no field holds the separator;
* `map_trim_splitOn`: what is trimmed off the whole does not count for the trimmed parts;
* `exists_splitOn`: a part can be replaced by another;
* `trimSpace_of_ascii`: for an ASCII text `strings.TrimSpace` is such a trimming.
-/

import ExecRelay.Lib.Scan
import ExecRelay.Lib.Text
import Mathlib.Algebra.Order.BigOperators.Group.List
import Mathlib.Algebra.Order.Group.Nat

namespace ExecRelay.Lib

variable {α : Type} {test : α → Bool}

/-! ### Trimmed lists -/

variable {list : List α}

theorem trim_eq_self_iff :
    trim test list = list ↔
      (∀ inside : 0 < list.length, ¬test list[0] = true) ∧
        ∀ given : list ≠ [], ¬test (list.getLast given) = true := by
  rw [← List.dropWhile_eq_self_iff, ← List.rdropWhile_eq_self_iff]
  constructor
  · intro trimmed
    have front : list.dropWhile test = list := by
      refine (List.dropWhile_suffix test).eq_of_length_le ?_
      calc list.length = (trim test list).length := by rw [trimmed]
        _ ≤ (list.dropWhile test).length := (List.rdropWhile_prefix test _).length_le
    rw [trim, front] at trimmed
    exact ⟨front, trimmed⟩
  · rintro ⟨front, back⟩
    rw [trim, front, back]

theorem trim_trim (list : List α) : trim test (trim test list) = trim test list := by
  have front : (trim test list).dropWhile test = trim test list := by
    rw [List.dropWhile_eq_self_iff]
    intro inside
    have isPrefix : trim test list <+: list.dropWhile test := List.rdropWhile_prefix test _
    have shorter := isPrefix.length_le
    rw [isPrefix.getElem inside]
    exact List.dropWhile_get_zero_not test list (by omega)
  rw [trim, front, trim, List.rdropWhile_idempotent]

theorem mem_of_mem_trim {element : α} (member : element ∈ trim test list) : element ∈ list :=
  (List.dropWhile_sublist test).subset ((List.rdropWhile_prefix test _).subset member)

theorem trim_eq_self_of_forall (fine : ∀ element ∈ list, test element = false) :
    trim test list = list := by
  rw [trim_eq_self_iff]
  exact ⟨fun _ => by simp [fine], fun _ => by simp [fine]⟩

theorem trim_append {front middle back : List α} (frontTrimmed : trim test front = front)
    (backTrimmed : trim test back = back) (frontGiven : front ≠ []) (backGiven : back ≠ []) :
    trim test (front ++ middle ++ back) = front ++ middle ++ back := by
  rw [trim_eq_self_iff] at frontTrimmed backTrimmed ⊢
  have positive : 0 < front.length := List.length_pos_iff.mpr frontGiven
  constructor
  · intro inside
    simp only [List.append_assoc, List.getElem_append_left positive]
    exact frontTrimmed.1 positive
  · intro given
    rw [List.getLast_append_of_ne_nil given backGiven]
    exact backTrimmed.2 backGiven

variable {fields : List (List α)} {separator : α}

theorem trim_join (trimmed : ∀ field ∈ fields, trim test field = field)
    (nonempty : ∀ field ∈ fields, field ≠ []) (given : fields ≠ []) :
    trim test ([separator].intercalate fields) = [separator].intercalate fields ∧
      [separator].intercalate fields ≠ [] := by
  induction fields with
  | nil => exact absurd rfl given
  | cons field rest ih =>
    rw [List.forall_mem_cons] at trimmed nonempty
    cases rest with
    | nil =>
      rw [List.intercalate_singleton]
      exact ⟨trimmed.1, nonempty.1⟩
    | cons next others =>
      obtain ⟨later, laterGiven⟩ := ih trimmed.2 nonempty.2 (List.cons_ne_nil _ _)
      rw [List.intercalate_cons_cons]
      exact ⟨trim_append trimmed.1 later nonempty.1 laterGiven, by simp [nonempty.1]⟩

theorem mem_join {separator element : α} (member : element ∈ [separator].intercalate fields) :
    element = separator ∨ ∃ field ∈ fields, element ∈ field := by
  induction fields with
  | nil => cases member
  | cons field rest ih =>
    cases rest with
    | nil =>
      rw [List.intercalate_singleton] at member
      exact Or.inr ⟨field, List.mem_cons_self, member⟩
    | cons next others =>
      rw [List.intercalate_cons_cons, List.mem_append, List.mem_append,
        List.mem_singleton] at member
      rcases member with (here | rfl) | behind
      · exact Or.inr ⟨field, List.mem_cons_self, here⟩
      · exact Or.inl rfl
      · exact (ih behind).imp id fun ⟨other, inside, found⟩ =>
          ⟨other, List.mem_cons_of_mem _ inside, found⟩

/-! ### What is trimmed off -/

variable {front back : List α}

theorem rdropWhile_append_of_all (passes : ∀ element ∈ back, test element = true) :
    (front ++ back).rdropWhile test = front.rdropWhile test := by
  rw [List.rdropWhile, List.reverse_append, List.dropWhile_append_of_pos, List.rdropWhile]
  exact fun element member => passes element (List.mem_reverse.mp member)

variable {left right : List α}

/-- **What is trimmed off does not count.** -/
theorem trim_around (leftPasses : ∀ element ∈ left, test element = true)
    (rightPasses : ∀ element ∈ right, test element = true) (middle : List α) :
    trim test (left ++ (middle ++ right)) = trim test middle := by
  rw [trim, List.dropWhile_append_of_pos leftPasses, trim]
  by_cases stops : ∀ element ∈ middle, test element = true
  · rw [List.dropWhile_append_of_pos stops, List.dropWhile_eq_nil_iff.mpr rightPasses,
      List.dropWhile_eq_nil_iff.mpr stops]
  · have given : middle.dropWhile test ≠ [] := fun none => stops (List.dropWhile_eq_nil_iff.mp none)
    rw [List.dropWhile_append, if_neg (by simpa using given), rdropWhile_append_of_all rightPasses]

theorem exists_trim (test : α → Bool) (list : List α) :
    ∃ left right, (∀ element ∈ left, test element = true) ∧
      (∀ element ∈ right, test element = true) ∧ list = left ++ (trim test list ++ right) := by
  refine ⟨list.takeWhile test, (list.dropWhile test).rtakeWhile test,
    fun element member => List.mem_takeWhile_imp member, fun element member => ?_, ?_⟩
  · exact List.mem_rtakeWhile_imp member
  · rw [trim, List.rdropWhile_append_rtakeWhile, List.takeWhile_append_dropWhile]

theorem dropWhile_append_cons {mark : α} (kept : test mark = false) :
    (front ++ mark :: back).dropWhile test = front.dropWhile test ++ mark :: back := by
  have stops : (mark :: back).dropWhile test = mark :: back :=
    List.dropWhile_cons_of_neg (by rw [kept]; exact Bool.false_ne_true)
  rw [List.dropWhile_append]
  split
  · rename_i empty
    rw [stops, List.isEmpty_iff.mp empty, List.nil_append]
  · rfl

theorem trim_append_cons {mark : α} (kept : test mark = false) :
    trim test (front ++ mark :: back) = front.dropWhile test ++ mark :: back.rdropWhile test := by
  rw [trim, dropWhile_append_cons kept, List.rdropWhile, List.reverse_append, List.reverse_cons,
    List.append_assoc, List.singleton_append, dropWhile_append_cons kept, List.reverse_append,
    List.reverse_cons, List.reverse_reverse, List.append_assoc, List.singleton_append, List.rdropWhile]

theorem trim_dropWhile (list : List α) : trim test (list.dropWhile test) = trim test list := by
  rw [trim, List.dropWhile_idempotent, trim]

theorem trim_rdropWhile (list : List α) : trim test (list.rdropWhile test) = trim test list := by
  have around := trim_around (List.forall_mem_nil (fun element => test element = true))
    (fun element (member : element ∈ list.rtakeWhile test) => List.mem_rtakeWhile_imp member)
    (list.rdropWhile test)
  rw [List.nil_append, List.rdropWhile_append_rtakeWhile] at around
  exact around.symm

theorem not_mem_of_all (kept : test separator = false)
    (passes : ∀ element ∈ list, test element = true) : separator ∉ list := fun member => by
  rw [passes separator member] at kept
  cases kept

/-! ### Counting separators -/

variable [BEq α] {separator : α}

theorem length_splitOn (list : List α) :
    (list.splitOn separator).length = list.count separator + 1 := by
  induction list with
  | nil => rfl
  | cons head rest ih =>
    rw [List.splitOn_cons_eq_if_modifyHead, List.count_cons]
    split
    · rw [List.length_cons, ih]
    · rw [List.length_modifyHead, ih, Nat.add_zero]

variable [LawfulBEq α]

theorem count_trim (kept : test separator = false) (list : List α) :
    (trim test list).count separator = list.count separator := by
  have dropped (list : List α) : (list.dropWhile test).count separator = list.count separator := by
    have none : (list.takeWhile test).count separator = 0 := by
      refine List.count_eq_zero.mpr fun member => ?_
      rw [List.mem_takeWhile_imp member] at kept
      cases kept
    conv_rhs => rw [← List.takeWhile_append_dropWhile (p := test) (l := list), List.count_append]
    rw [none, Nat.zero_add]
  rw [trim, List.rdropWhile, List.count_reverse, dropped, List.count_reverse, dropped]

theorem count_join (separator : α) (fields : List (List α)) (given : fields ≠ []) :
    ([separator].intercalate fields).count separator + 1 =
      (fields.map (List.count separator)).sum + fields.length := by
  induction fields with
  | nil => exact absurd rfl given
  | cons field rest ih =>
    cases rest with
    | nil => simp
    | cons next others =>
      have later := ih (List.cons_ne_nil _ _)
      rw [List.intercalate_cons_cons, List.count_append, List.count_append, List.map_cons,
        List.sum_cons, List.count_singleton_self, List.length_cons]
      omega

/-! ### Reading what was written -/

/-- **Fields are read as they were written.** -/
theorem read_join (trimmed : ∀ field ∈ fields, trim test field = field)
    (nonempty : ∀ field ∈ fields, field ≠ []) (plain : ∀ field ∈ fields, separator ∉ field)
    (given : fields ≠ []) :
    ((trim test ([separator].intercalate fields)).splitOn separator).map (trim test) = fields := by
  rw [(trim_join trimmed nonempty given).1, List.splitOn_intercalate separator plain given]
  exact (List.map_congr_left trimmed).trans (List.map_id _)

/-- **As many parts as fields**: then no field holds the separator. -/
theorem not_mem_of_length_split (kept : test separator = false)
    (same : ((trim test ([separator].intercalate fields)).splitOn separator).length = fields.length)
    (given : fields ≠ []) : ∀ field ∈ fields, separator ∉ field := by
  have counted := count_join separator fields given
  rw [length_splitOn, count_trim kept] at same
  have none : (fields.map (List.count separator)).sum = 0 := by omega
  intro field member
  have few : field.count separator ≤ 0 := none ▸ List.le_sum_of_mem (List.mem_map_of_mem member)
  exact List.count_eq_zero.mp (Nat.le_zero.mp few)

/-- The last field may hold separators. -/
theorem splitOn_join_concat (plain : ∀ field ∈ fields, separator ∉ field) (last : List α) :
    ([separator].intercalate (fields ++ [last])).splitOn separator = fields ++ last.splitOn separator := by
  induction fields with
  | nil =>
    rw [List.nil_append, List.intercalate_singleton]
    rfl
  | cons field rest ih =>
    rw [List.forall_mem_cons] at plain
    obtain ⟨next, others, same⟩ : ∃ next others, rest ++ [last] = next :: others :=
      List.exists_cons_of_ne_nil (by simp)
    rw [List.cons_append, same, List.intercalate_cons_cons, ← same, List.append_assoc,
      List.singleton_append, List.splitOn_append_cons_self_of_not_mem plain.1, ih plain.2,
      List.cons_append]

/-! ### Replacing a part -/

theorem splitOn_append_of_not_mem {front : List α} (absent : separator ∉ front) (rest : List α) :
    (front ++ rest).splitOn separator = (rest.splitOn separator).modifyHead (front ++ ·) := by
  induction front with
  | nil =>
    rw [List.nil_append]
    cases rest.splitOn separator <;> rfl
  | cons head others ih =>
    rw [List.mem_cons, not_or] at absent
    rw [List.cons_append, List.splitOn_cons_eq_if_modifyHead,
      if_neg (by simpa using Ne.symm absent.1), ih absent.2, List.modifyHead_modifyHead]
    rfl

theorem splitOn_append_back {back : List α} (absent : separator ∉ back) (list : List α) :
    ∃ parts last, list.splitOn separator = parts ++ [last] ∧
      (list ++ back).splitOn separator = parts ++ [last ++ back] := by
  induction list with
  | nil => exact ⟨[], [], rfl, List.splitOn_eq_singleton absent⟩
  | cons head rest ih =>
    obtain ⟨parts, last, split, splitBack⟩ := ih
    rw [List.cons_append, List.splitOn_cons_eq_if_modifyHead, List.splitOn_cons_eq_if_modifyHead,
      split, splitBack]
    split
    · exact ⟨[] :: parts, last, rfl, rfl⟩
    · cases parts with
      | nil => exact ⟨[], head :: last, rfl, rfl⟩
      | cons part others => exact ⟨(head :: part) :: others, last, rfl, rfl⟩

theorem map_splitOn_around {Part : Type} {view : List α → Part} (leftPlain : separator ∉ left)
    (rightPlain : separator ∉ right) (front : ∀ part, view (left ++ part) = view part)
    (behind : ∀ part, view (part ++ right) = view part) (list : List α) :
    ((left ++ (list ++ right)).splitOn separator).map view = (list.splitOn separator).map view := by
  obtain ⟨parts, last, split, splitBack⟩ := splitOn_append_back rightPlain list
  rw [splitOn_append_of_not_mem leftPlain, splitBack, split]
  cases parts with
  | nil => simp [front, behind]
  | cons part others => simp [front, behind]

/-- **Trimming the whole** changes nothing for the trimmed parts. -/
theorem map_trim_splitOn (kept : test separator = false) (list : List α) :
    ((trim test list).splitOn separator).map (trim test) =
      (list.splitOn separator).map (trim test) := by
  obtain ⟨left, right, leftPasses, rightPasses, same⟩ := exists_trim test list
  conv_rhs => rw [same]
  have passes : ∀ element ∈ ([] : List α), test element = true := List.forall_mem_nil _
  refine (map_splitOn_around (not_mem_of_all kept leftPasses) (not_mem_of_all kept rightPasses)
    (fun part => ?_) (fun part => trim_around passes rightPasses part) (trim test list)).symm
  simpa using trim_around leftPasses passes part

/-- **A part can be replaced.** -/
theorem exists_splitOn {before after : List (List α)} {part list : List α}
    (split : list.splitOn separator = before ++ part :: after) :
    ∃ front back, list = front ++ (part ++ back) ∧ separator ∉ part ∧
      (front = [] ∨ ∃ others, front = others ++ [separator]) ∧
      (back = [] ∨ ∃ others, back = separator :: others) ∧
      ∀ other, separator ∉ other →
        (front ++ (other ++ back)).splitOn separator = before ++ other :: after := by
  induction before generalizing list with
  | nil =>
    by_cases member : separator ∈ list
    · obtain ⟨first, rest, rfl, absent⟩ := List.eq_append_cons_of_mem member
      rw [List.splitOn_append_cons_self_of_not_mem absent, List.nil_append,
        List.cons.injEq] at split
      obtain ⟨rfl, rfl⟩ := split
      exact ⟨[], separator :: rest, rfl, absent, Or.inl rfl, Or.inr ⟨rest, rfl⟩,
        fun other plain => List.splitOn_append_cons_self_of_not_mem plain rest⟩
    · rw [List.splitOn_eq_singleton member, List.nil_append, List.cons.injEq] at split
      obtain ⟨rfl, rfl⟩ := split
      exact ⟨[], [], by simp, member, Or.inl rfl, Or.inl rfl,
        fun other plain => by simpa using List.splitOn_eq_singleton plain⟩
  | cons first others ih =>
    by_cases member : separator ∈ list
    · obtain ⟨here, rest, rfl, absent⟩ := List.eq_append_cons_of_mem member
      rw [List.splitOn_append_cons_self_of_not_mem absent, List.cons_append,
        List.cons.injEq] at split
      obtain ⟨rfl, later⟩ := split
      obtain ⟨front, back, rfl, plain, ends, starts, replaced⟩ := ih later
      refine ⟨here ++ separator :: front, back, by simp, plain, Or.inr ?_, starts,
        fun other fine => ?_⟩
      · rcases ends with rfl | ⟨others, rfl⟩
        · exact ⟨here, rfl⟩
        · exact ⟨here ++ separator :: others, by simp⟩
      · rw [List.append_assoc, List.cons_append, List.splitOn_append_cons_self_of_not_mem absent,
          replaced other fine, List.cons_append]
    · rw [List.splitOn_eq_singleton member, List.cons_append, List.cons.injEq] at split
      exact absurd split.2.symm (List.append_ne_nil_of_right_ne_nil _ (List.cons_ne_nil _ _))

/-! ### The white space of an ASCII text -/

def isSpaceByte (byte : UInt8) : Bool :=
  9 ≤ byte && byte ≤ 13 || byte == 32

def isSpaceMark : Bytes → Bool
  | [] => false
  | byte :: rest => 128 ≤ byte || rest.isEmpty && isSpaceByte byte

structure SpaceMarks (marks : List Bytes) : Prop where
  single : ∀ byte, isSpaceByte byte = true → [byte] ∈ marks
  other : marks.all isSpaceMark = true

variable {marks : List Bytes}

theorem SpaceMarks.not_begins_nil (fine : SpaceMarks marks) :
    marks.find? (·.isPrefixOf []) = none := by
  refine List.find?_eq_none.mpr fun mark member => ?_
  have isMark := List.all_eq_true.mp fine.other mark member
  cases mark with
  | nil => cases isMark
  | cons byte rest => exact Bool.false_ne_true

theorem SpaceMarks.find?_cons (fine : SpaceMarks marks) {byte : UInt8} {rest : Bytes}
    (low : byte < 128) :
    marks.find? (·.isPrefixOf (byte :: rest)) = if isSpaceByte byte = true then some [byte] else none := by
  cases found : marks.find? (·.isPrefixOf (byte :: rest)) with
  | none =>
    have notSpace : ¬isSpaceByte byte = true := by
      intro space
      have missing := List.find?_eq_none.mp found [byte] (fine.single byte space)
      exact missing (by simp)
    rw [if_neg notSpace]
  | some mark =>
    have isMark := List.all_eq_true.mp fine.other mark (List.mem_of_find?_eq_some found)
    have begins := List.find?_some found
    cases mark with
    | nil => cases isMark
    | cons first more =>
      rw [List.isPrefixOf_cons_cons, Bool.and_eq_true, beq_iff_eq] at begins
      obtain ⟨rfl, -⟩ := begins
      have notHigh : ¬128 ≤ first := UInt8.not_le.mpr low
      rw [isSpaceMark, decide_eq_false notHigh, Bool.false_or, Bool.and_eq_true,
        List.isEmpty_iff] at isMark
      rw [isMark.1, if_pos isMark.2]

variable {text : Bytes}

theorem stripFront_of_ascii (fine : SpaceMarks marks) :
    ∀ {fuel}, text.length ≤ fuel → (∀ byte ∈ text, byte < 128) →
      stripFront marks fuel text = text.dropWhile isSpaceByte := by
  induction text with
  | nil =>
    intro fuel enough ascii
    cases fuel with
    | zero => rfl
    | succ fuel => rw [stripFront, fine.not_begins_nil, List.dropWhile_nil]
  | cons byte rest ih =>
    intro fuel enough ascii
    obtain ⟨low, behind⟩ := List.forall_mem_cons.mp ascii
    cases fuel with
    | zero => cases enough
    | succ fuel =>
      rw [stripFront, fine.find?_cons low]
      by_cases space : isSpaceByte byte = true
      · rw [if_pos space, List.dropWhile_cons_of_pos space]
        exact ih (Nat.le_of_succ_le_succ enough) behind
      · rw [if_neg space, List.dropWhile_cons_of_neg space]

theorem spaceMarks_spaces : SpaceMarks spaces where
  single byte := forall_byte byte (by decide +kernel)
  other := by decide +kernel

theorem spaceMarks_reverse : SpaceMarks (spaces.map List.reverse) where
  single byte := forall_byte byte (by decide +kernel)
  other := by decide +kernel

/-- **The white space of an ASCII text.** -/
theorem trimSpace_of_ascii (ascii : ∀ byte ∈ text, byte < 128) :
    trimSpace text = trim isSpaceByte text := by
  have front : stripFront spaces text.length text = text.dropWhile isSpaceByte :=
    stripFront_of_ascii spaceMarks_spaces (Nat.le_refl _) ascii
  have kept : ∀ byte ∈ (text.dropWhile isSpaceByte).reverse, byte < 128 := fun byte member =>
    ascii byte ((List.dropWhile_suffix isSpaceByte).mem (List.mem_reverse.mp member))
  rw [trimSpace, front, stripFront_of_ascii spaceMarks_reverse (by rw [List.length_reverse]) kept]
  rfl

end ExecRelay.Lib
