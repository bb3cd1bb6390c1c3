/-
**Replacing the matches of a pattern.**

A text is searched from the left. Where the pattern matches, the match is replaced by a mask and the
search goes on behind it; where it does not, one element is kept.
-/

import Mathlib.Data.List.Infix
import Mathlib.Data.List.TakeWhile

namespace ExecRelay.Lib

theorem dropWhile_eq_iff {α : Type} {test : α → Bool} {list rest : List α} :
    list.dropWhile test = rest ↔
      ∃ front, (∀ element ∈ front, test element = true) ∧ list = front ++ rest ∧
        ∀ element, rest.head? = some element → test element = false := by
  constructor
  · rintro rfl
    refine ⟨list.takeWhile test, fun element member => List.mem_takeWhile_imp member,
      List.takeWhile_append_dropWhile.symm, fun element first => ?_⟩
    have stopped := List.head?_dropWhile_not test list
    rw [first] at stopped
    exact stopped
  · rintro ⟨front, passes, rfl, stops⟩
    rw [List.dropWhile_append_of_pos passes]
    cases rest with
    | nil => rfl
    | cons element others =>
      exact List.dropWhile_cons_of_neg (by rw [stops element rfl]; exact Bool.false_ne_true)

theorem dropWhile_ne_iff {α : Type} [DecidableEq α] {mark : α} {list rest : List α} :
    list.dropWhile (· ≠ mark) = rest ↔
      ∃ front, mark ∉ front ∧ list = front ++ rest ∧
        ∀ element, rest.head? = some element → element = mark := by
  have apart (front : List α) :
      (∀ element ∈ front, decide (element ≠ mark) = true) ↔ mark ∉ front := by
    simp only [decide_eq_true_eq]
    exact ⟨fun differs member => differs mark member rfl,
      fun absent element member same => absent (same ▸ member)⟩
  simp only [dropWhile_eq_iff, apart, decide_eq_false_iff_not, not_not]

/-- A pattern: `find` gives the text behind a match at the front, which is not empty. -/
structure Pattern (α : Type) where
  find : List α → Option (List α)
  behind : ∀ {text after}, find text = some after → ∃ found, found ≠ [] ∧ text = found ++ after

namespace Pattern

variable {α : Type} (pattern : Pattern α) (mask : List α)

def replaceFrom : Nat → List α → List α
  | 0, text => text
  | _ + 1, [] => []
  | fuel + 1, head :: rest =>
    match pattern.find (head :: rest) with
    | some after => mask ++ replaceFrom fuel after
    | none => head :: replaceFrom fuel rest

/-- `ReplaceAllString` with a mask that refers to nothing. -/
def replaceAll (text : List α) : List α :=
  pattern.replaceFrom mask text.length text

end Pattern

end ExecRelay.Lib
