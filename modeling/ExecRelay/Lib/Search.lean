/-
**Substring search.**

`indexOf` is the first position of a needle, `after` the text behind it. A reader that looks for
`"key":` in a text does not see the structure of the text, so its result has to be derived from where
the quotes are. The needles here begin with a mark and hold it once more behind a name
(`mark :: name ++ mark :: tail`); a text without the mark is skipped as a whole.
-/

import Mathlib.Data.List.Basic

namespace ExecRelay.Lib

variable {α : Type} [DecidableEq α]

def indexOf (needle : List α) : List α → Option Nat
  | [] => if needle = [] then some 0 else none
  | head :: rest =>
    if needle.isPrefixOf (head :: rest) then some 0
    else (indexOf needle rest).map (· + 1)

def after (needle text : List α) : Option (List α) :=
  (indexOf needle text).map fun pos => text.drop (pos + needle.length)

theorem indexOf_singleton (mark : α) (text : List α) :
    indexOf [mark] text =
      if mark ∈ text then some (text.takeWhile fun other => other ≠ mark).length else none := by
  induction text with
  | nil => rfl
  | cons head rest ih =>
    rw [indexOf]
    by_cases here : head = mark
    · subst here
      simp
    · rw [ih]
      simp [List.isPrefixOf, here, Ne.symm here]

theorem after_of_isPrefix {needle : List α} {head : α} {rest : List α}
    (found : needle <+: head :: rest) :
    after needle (head :: rest) = some ((head :: rest).drop needle.length) := by
  rw [after, indexOf, if_pos (List.isPrefixOf_iff_prefix.mpr found), Option.map_some, Nat.zero_add]

theorem after_cons_of_not_isPrefix {needle : List α} {head : α} {rest : List α}
    (notFound : ¬ needle <+: head :: rest) : after needle (head :: rest) = after needle rest := by
  rw [after, indexOf, if_neg fun found => notFound (List.isPrefixOf_iff_prefix.mp found),
    Option.map_map, after]
  refine congrArg (fun behind => (indexOf needle rest).map behind) (funext fun pos => ?_)
  show (head :: rest).drop (pos + 1 + needle.length) = rest.drop (pos + needle.length)
  rw [Nat.add_right_comm, List.drop_succ_cons]

/-! ### A needle that begins with a mark -/

section Mark

variable {mark : α} {name tail segment rest : List α}

/-- **A text without the mark** is passed over. -/
theorem after_skip (free : mark ∉ segment) :
    after (mark :: name) (segment ++ rest) = after (mark :: name) rest := by
  induction segment with
  | nil => rfl
  | cons head others ih =>
    have notHere : ¬ mark :: name <+: head :: (others ++ rest) := by
      rw [List.cons_prefix_cons]
      rintro ⟨same, _⟩
      exact free (same ▸ List.mem_cons_self ..)
    rw [List.cons_append, after_cons_of_not_isPrefix notHere,
      ih fun member => free (List.mem_cons_of_mem _ member)]

/-- **Behind a text without the mark** the needle stands at the mark or is found further on. -/
theorem after_mark (free : mark ∉ segment) :
    after (mark :: name) (segment ++ mark :: rest) =
      if name <+: rest then some (rest.drop name.length) else after (mark :: name) rest := by
  rw [after_skip free]
  split
  · rename_i found
    exact after_of_isPrefix (List.cons_prefix_cons.mpr ⟨rfl, found⟩)
  · rename_i notFound
    exact after_cons_of_not_isPrefix fun found => notFound (List.cons_prefix_cons.mp found).2

omit [DecidableEq α] in
/-- **A name at a mark**: between two marks there is only one name. -/
theorem isPrefix_mark (nameFree : mark ∉ name) (free : mark ∉ segment) :
    name ++ mark :: tail <+: segment ++ mark :: rest ↔ name = segment ∧ tail <+: rest := by
  induction name generalizing segment with
  | nil =>
    cases segment with
    | nil => simp
    | cons head others =>
      simp only [List.nil_append, List.cons_append, List.cons_prefix_cons]
      constructor
      · rintro ⟨same, _⟩
        exact absurd (same ▸ List.mem_cons_self ..) free
      · rintro ⟨impossible, _⟩
        cases impossible
  | cons first others ih =>
    have othersFree : mark ∉ others := fun member => nameFree (List.mem_cons_of_mem _ member)
    cases segment with
    | nil =>
      simp only [List.nil_append, List.cons_append, List.cons_prefix_cons]
      constructor
      · rintro ⟨same, _⟩
        exact absurd (same ▸ List.mem_cons_self ..) nameFree
      · rintro ⟨impossible, _⟩
        cases impossible
    | cons head segment =>
      rw [List.cons_append, List.cons_append, List.cons_prefix_cons,
        ih othersFree fun member => free (List.mem_cons_of_mem _ member), List.cons.injEq,
        and_assoc]

end Mark

end ExecRelay.Lib
