/-
**White space around a text.**

`strings.TrimSpace` removes characters, and a character has up to three bytes. `trimSpace` strips their
UTF-8 forms from both ends; this file says what is left, for every text, UTF-8 or not.

`str.strip` strips the forms of four characters more. `exists_strip` is about any such marks.
-/

import ExecRelay.Lib.Fields

namespace ExecRelay.Lib

/-! ### Stripping marks -/

section Marks

variable {marks : List Bytes}

def MadeOf (marks : List Bytes) (text : Bytes) : Prop :=
  ∃ parts : List Bytes, (∀ part ∈ parts, part ∈ marks) ∧ text = parts.flatten

def Begins (marks : List Bytes) (text : Bytes) : Prop :=
  ∃ mark ∈ marks, mark <+: text

/-- No mark is empty, and none is the beginning of another. -/
structure Separate (marks : List Bytes) : Prop where
  nonempty : ∀ mark ∈ marks, mark ≠ []
  apart : ∀ mark ∈ marks, ∀ other ∈ marks, mark <+: other → mark = other

theorem madeOf_nil : MadeOf marks [] :=
  ⟨[], List.forall_mem_nil _, rfl⟩

theorem MadeOf.append {left right : Bytes} (leftMade : MadeOf marks left)
    (rightMade : MadeOf marks right) : MadeOf marks (left ++ right) := by
  obtain ⟨lefts, fromLeft, rfl⟩ := leftMade
  obtain ⟨rights, fromRight, rfl⟩ := rightMade
  refine ⟨lefts ++ rights, ?_, List.flatten_append.symm⟩
  rw [List.forall_mem_append]
  exact ⟨fromLeft, fromRight⟩

theorem MadeOf.reverse {text : Bytes} (made : MadeOf marks text) :
    MadeOf (marks.map List.reverse) text.reverse := by
  obtain ⟨parts, known, rfl⟩ := made
  refine ⟨(parts.map List.reverse).reverse, fun part member => ?_, List.reverse_flatten⟩
  obtain ⟨mark, inside, rfl⟩ := List.mem_map.mp (List.mem_reverse.mp member)
  exact List.mem_map_of_mem (known mark inside)

theorem not_mem_madeOf {separator : UInt8} (absent : ∀ mark ∈ marks, separator ∉ mark) {text : Bytes}
    (made : MadeOf marks text) : separator ∉ text := by
  obtain ⟨parts, known, rfl⟩ := made
  intro member
  obtain ⟨part, inside, here⟩ := List.mem_flatten.mp member
  exact absent part (known part inside) here

variable (separate : Separate marks)
include separate

theorem stripFront_append {mark : Bytes} (known : mark ∈ marks) (fuel : Nat) (rest : Bytes) :
    stripFront marks (fuel + 1) (mark ++ rest) = stripFront marks fuel rest := by
  have begins : mark.isPrefixOf (mark ++ rest) = true :=
    List.isPrefixOf_iff_prefix.mpr (List.prefix_append ..)
  rw [stripFront]
  cases found : marks.find? (·.isPrefixOf (mark ++ rest)) with
  | none => exact absurd begins (List.find?_eq_none.mp found mark known)
  | some other =>
    have otherKnown := List.mem_of_find?_eq_some found
    have passes := List.find?_some found
    have otherBegins : other <+: mark ++ rest := List.isPrefixOf_iff_prefix.mp passes
    have same : other = mark := by
      rcases Nat.le_total other.length mark.length with shorter | longer
      · exact separate.apart other otherKnown mark known
          (List.prefix_of_prefix_length_le otherBegins (List.prefix_append ..) shorter)
      · exact (separate.apart mark known other otherKnown
          (List.prefix_of_prefix_length_le (List.prefix_append ..) otherBegins longer)).symm
    rw [same]
    dsimp only
    rw [List.drop_left]

/-- **What is made of marks is stripped**, if the rest does not begin with one. -/
theorem stripFront_madeOf {text rest : Bytes} (made : MadeOf marks text)
    (stops : ¬Begins marks rest) {fuel : Nat} (enough : (text ++ rest).length ≤ fuel) :
    stripFront marks fuel (text ++ rest) = rest := by
  obtain ⟨parts, known, rfl⟩ := made
  induction parts generalizing fuel with
  | nil =>
    cases fuel with
    | zero => rfl
    | succ fuel =>
      have missing : marks.find? (·.isPrefixOf ([] ++ rest)) = none := by
        refine List.find?_eq_none.mpr fun mark member begins => stops ⟨mark, member, ?_⟩
        exact List.isPrefixOf_iff_prefix.mp begins
      rw [List.flatten_nil, stripFront, missing, List.nil_append]
  | cons mark parts ih =>
    rw [List.forall_mem_cons] at known
    have positive : 0 < mark.length := List.length_pos_iff.mpr (separate.nonempty mark known.1)
    rw [List.flatten_cons, List.append_assoc, List.length_append] at enough
    obtain ⟨fuel, rfl⟩ : ∃ less, fuel = less + 1 := ⟨fuel - 1, by omega⟩
    rw [List.flatten_cons, List.append_assoc, stripFront_append separate known.1]
    exact ih known.2 (by omega)

theorem exists_stripFront (text : Bytes) : ∀ fuel, text.length ≤ fuel →
    ∃ stripped, MadeOf marks stripped ∧ text = stripped ++ stripFront marks fuel text ∧
      ¬Begins marks (stripFront marks fuel text) := by
  induction length : text.length using Nat.strong_induction_on generalizing text with
  | _ size ih =>
    intro fuel enough
    rw [← length] at enough
    by_cases begins : Begins marks text
    · obtain ⟨mark, known, rest, rfl⟩ := begins
      have positive : 0 < mark.length := List.length_pos_iff.mpr (separate.nonempty mark known)
      rw [List.length_append] at length enough
      obtain ⟨fuel, rfl⟩ : ∃ less, fuel = less + 1 := ⟨fuel - 1, by omega⟩
      rw [stripFront_append separate known]
      obtain ⟨stripped, made, same, stops⟩ :=
        ih rest.length (by omega) rest rfl fuel (by omega)
      refine ⟨mark ++ stripped, ?_, by rw [List.append_assoc, ← same], stops⟩
      exact MadeOf.append ⟨[mark], by simpa using known, by simp⟩ made
    · have same : stripFront marks fuel ([] ++ text) = text :=
        stripFront_madeOf separate madeOf_nil begins enough
      rw [List.nil_append] at same
      rw [same]
      exact ⟨[], madeOf_nil, rfl, begins⟩

omit separate

def strip (marks : List Bytes) (text : Bytes) : Bytes :=
  let front := stripFront marks text.length text
  (stripFront (marks.map List.reverse) front.length front.reverse).reverse

/-- **A text is a text without marks at its ends, between texts of marks.** -/
theorem exists_strip (separate : Separate marks) (separateBack : Separate (marks.map List.reverse))
    (text : Bytes) :
    ∃ left right, MadeOf marks left ∧ MadeOf marks right ∧ ¬Begins marks (strip marks text) ∧
      ¬Begins (marks.map List.reverse) (strip marks text).reverse ∧
      text = left ++ (strip marks text ++ right) := by
  obtain ⟨left, leftMade, split, front⟩ :=
    exists_stripFront separate text text.length (Nat.le_refl _)
  generalize same : stripFront marks text.length text = rest at split front
  obtain ⟨stripped, made, splitBack, back⟩ :=
    exists_stripFront separateBack rest.reverse rest.length (by simp)
  have kept : strip marks text =
      (stripFront (marks.map List.reverse) rest.length rest.reverse).reverse := by
    rw [strip, same]
  have whole : rest = strip marks text ++ stripped.reverse := by
    rw [kept, ← List.reverse_append, ← splitBack, List.reverse_reverse]
  refine ⟨left, stripped.reverse, leftMade, ?_, ?_, ?_, ?_⟩
  · have again := made.reverse
    rwa [List.map_map, List.reverse_involutive.comp_self, List.map_id] at again
  · rintro ⟨mark, known, begins⟩
    rw [whole] at front
    exact front ⟨mark, known, begins.trans (List.prefix_append ..)⟩
  · rw [kept, List.reverse_reverse]
    exact back
  · rw [← whole]
    exact split

theorem trim_of_not_begins {test : UInt8 → Bool} (single : ∀ byte, test byte = true → [byte] ∈ marks)
    {text : Bytes} (front : ¬Begins marks text)
    (back : ¬Begins (marks.map List.reverse) text.reverse) : trim test text = text := by
  refine trim_eq_self_iff.mpr ⟨fun inside passes => ?_, fun given passes => ?_⟩
  · obtain ⟨first, rest, rfl⟩ := List.exists_cons_of_length_pos inside
    exact front ⟨[first], single first passes, by simp⟩
  · refine back ⟨[text.getLast given], List.mem_map.mpr ⟨_, single _ passes, rfl⟩, ?_⟩
    have ends : text.reverse = text.getLast given :: text.dropLast.reverse := by
      conv_lhs => rw [← List.dropLast_append_getLast given]
      simp
    rw [ends]
    exact ⟨_, rfl⟩

end Marks

/-! ### White space -/

/-- A text of white space. -/
def Blank (text : Bytes) : Prop :=
  MadeOf spaces text

/-- A text that neither begins nor ends with white space. -/
structure Bare (text : Bytes) : Prop where
  front : ¬Begins spaces text
  back : ¬Begins (spaces.map List.reverse) text.reverse

theorem blank_nil : Blank [] :=
  madeOf_nil

theorem separate_of_all {marks : List Bytes} (nonempty : marks.all (· ≠ []) = true)
    (apart : marks.all (fun mark => marks.all fun other =>
      !mark.isPrefixOf other || mark == other) = true) : Separate marks where
  nonempty mark member := by simpa using List.all_eq_true.mp nonempty mark member
  apart mark member other otherMember begins := by
    have checked := List.all_eq_true.mp (List.all_eq_true.mp apart mark member) other otherMember
    rw [List.isPrefixOf_iff_prefix.mpr begins] at checked
    simpa using checked

theorem separate_spaces : Separate spaces :=
  separate_of_all (by decide +kernel) (by decide +kernel)

theorem separate_reverse : Separate (spaces.map List.reverse) :=
  separate_of_all (by decide +kernel) (by decide +kernel)

def isContinuation (byte : UInt8) : Bool :=
  0x80 ≤ byte && byte ≤ 0xBF

def isShape : Bytes → Bool
  | [] => false
  | first :: rest => !isContinuation first && rest.all isContinuation

theorem shape_of_space {first : UInt8} {rest : Bytes} (space : first :: rest ∈ spaces) :
    isContinuation first = false ∧ ∀ byte ∈ rest, isContinuation byte = true := by
  have shapes : spaces.all isShape = true := by decide +kernel
  have shape := List.all_eq_true.mp shapes _ space
  rw [isShape, Bool.and_eq_true, Bool.not_eq_true', List.all_eq_true] at shape
  exact shape

/-- **No white space begins in a text and ends behind it**, if what follows begins a character. -/
theorem not_begins_append {core rest : Bytes} (given : core ≠ []) (front : ¬Begins spaces core)
    (starts : ∀ byte ∈ rest.head?, isContinuation byte = false) : ¬Begins spaces (core ++ rest) := by
  rintro ⟨mark, space, begins⟩
  rcases Nat.le_total mark.length core.length with shorter | longer
  · exact front ⟨mark, space, List.prefix_of_prefix_length_le begins (List.prefix_append ..) shorter⟩
  · obtain ⟨more, rfl⟩ := List.prefix_of_prefix_length_le (List.prefix_append core rest) begins longer
    obtain ⟨first, others, rfl⟩ := List.exists_cons_of_ne_nil given
    cases more with
    | nil =>
      rw [List.append_nil] at space
      exact front ⟨_, space, List.prefix_rfl⟩
    | cons byte more =>
      have continues := (shape_of_space space).2 byte (by simp)
      obtain ⟨behind, same⟩ := begins
      rw [List.append_assoc, List.append_cancel_left_eq, List.cons_append] at same
      rw [starts byte (by rw [← same]; rfl)] at continues
      cases continues

theorem head_of_blank {text : Bytes} (blank : Blank text) :
    ∀ byte ∈ text.head?, isContinuation byte = false := by
  obtain ⟨parts, known, rfl⟩ := blank
  intro byte first
  cases parts with
  | nil => cases first
  | cons mark parts =>
    have space := known mark (List.mem_cons_self ..)
    cases mark with
    | nil => exact absurd rfl (separate_spaces.nonempty _ space)
    | cons head rest =>
      cases first
      exact (shape_of_space space).1

/-- **What is left is the bare text.** -/
theorem trimSpace_around_bare {left core right : Bytes} (leftBlank : Blank left)
    (rightBlank : Blank right) (bare : Bare core) : trimSpace (left ++ (core ++ right)) = core := by
  have back : stripFront (spaces.map List.reverse) (core ++ right).length (core ++ right).reverse =
      core.reverse := by
    rw [List.reverse_append]
    exact stripFront_madeOf separate_reverse rightBlank.reverse bare.back (by simp; omega)
  by_cases empty : core = []
  · subst empty
    have all : stripFront spaces (left ++ ([] ++ right)).length (left ++ ([] ++ right)) = [] := by
      have stripped : stripFront spaces (left ++ ([] ++ right)).length ((left ++ right) ++ []) = [] :=
        stripFront_madeOf separate_spaces (leftBlank.append rightBlank) bare.front (by simp)
      rwa [List.append_nil] at stripped
    rw [trimSpace, all]
    rfl
  · have front : stripFront spaces (left ++ (core ++ right)).length (left ++ (core ++ right)) =
        core ++ right :=
      stripFront_madeOf separate_spaces leftBlank
        (not_begins_append empty bare.front (head_of_blank rightBlank)) (Nat.le_refl _)
    rw [trimSpace, front, back, List.reverse_reverse]

/-- **A text is a bare text between blank ones.** -/
theorem exists_trimSpace (text : Bytes) :
    ∃ left right, Blank left ∧ Blank right ∧ Bare (trimSpace text) ∧
      text = left ++ (trimSpace text ++ right) := by
  obtain ⟨left, right, leftBlank, rightBlank, front, back, split⟩ :=
    exists_strip separate_spaces separate_reverse text
  exact ⟨left, right, leftBlank, rightBlank, ⟨front, back⟩, split⟩

theorem trimSpace_of_bare {text : Bytes} (bare : Bare text) : trimSpace text = text := by
  simpa using trimSpace_around_bare blank_nil blank_nil bare

theorem trimSpace_trimSpace (text : Bytes) : trimSpace (trimSpace text) = trimSpace text := by
  obtain ⟨_, _, _, _, bare, _⟩ := exists_trimSpace text
  exact trimSpace_of_bare bare

/-- **Blank text around a text does not count.** -/
theorem trimSpace_around {left right : Bytes} (leftBlank : Blank left) (rightBlank : Blank right)
    (text : Bytes) : trimSpace (left ++ (text ++ right)) = trimSpace text := by
  obtain ⟨before, behind, beforeBlank, behindBlank, bare, split⟩ := exists_trimSpace text
  have around : left ++ (text ++ right) =
      (left ++ before) ++ (trimSpace text ++ (behind ++ right)) := by
    conv_lhs => rw [split]
    simp only [List.append_assoc]
  rw [around]
  exact trimSpace_around_bare (leftBlank.append beforeBlank) (behindBlank.append rightBlank) bare

theorem trimSpace_blank {text : Bytes} (blank : Blank text) : trimSpace text = [] := by
  have around := trimSpace_around blank blank_nil []
  rwa [List.append_nil, List.append_nil] at around

/-- **Trimming the whole** changes nothing for the trimmed parts. -/
theorem map_trimSpace_splitOn {separator : UInt8} (kept : ∀ mark ∈ spaces, separator ∉ mark)
    (text : Bytes) :
    ((trimSpace text).splitOn separator).map trimSpace = (text.splitOn separator).map trimSpace := by
  obtain ⟨left, right, leftBlank, rightBlank, -, split⟩ := exists_trimSpace text
  conv_rhs => rw [split]
  refine (map_splitOn_around (not_mem_madeOf kept leftBlank) (not_mem_madeOf kept rightBlank)
    (fun part => ?_) (fun part => ?_) (trimSpace text)).symm
  · simpa using trimSpace_around leftBlank blank_nil part
  · exact trimSpace_around blank_nil rightBlank part

/-! ### The white space of `str.strip` -/

/-- The forms of the characters that `str.isspace` accepts: the separators of ASCII are among them. -/
def pythonSpaces : List Bytes :=
  [[0x1C], [0x1D], [0x1E], [0x1F]] ++ spaces

/-- `str.strip`. -/
def pythonStrip (text : Bytes) : Bytes :=
  strip pythonSpaces text

theorem trim_pythonStrip {test : UInt8 → Bool} (single : ∀ byte, test byte = true → [byte] ∈ pythonSpaces)
    (text : Bytes) : trim test (pythonStrip text) = pythonStrip text := by
  obtain ⟨_, _, _, _, front, back, _⟩ := exists_strip
    (separate_of_all (by decide +kernel) (by decide +kernel) : Separate pythonSpaces)
    (separate_of_all (by decide +kernel) (by decide +kernel)) text
  exact trim_of_not_begins single front back

end ExecRelay.Lib
