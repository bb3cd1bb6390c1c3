/-
**Index loops over lists.**

A hand-written scanner walks over its input with integer positions: it moves an index up while the
element under it satisfies a test, moves an end index down, and cuts a slice between two indices.
This file gives those three loops and what each computes, so that a proof about a scanner never
has to talk about positions again:

* `scanUp_eq`: the upward loop stops behind the longest prefix that passes the test;
* `slice_scanUp`, `drop_scanUp`: the slice it cuts is `takeWhile`, what is left is `dropWhile`;
* `slice_scanDown`: the downward loop cuts off the longest suffix that passes the test;
* `splitOn_drop`: cutting at the first separator splits off the first part of `List.splitOn`.
-/

import Mathlib.Data.List.DropRight
import Mathlib.Data.List.TakeWhile

namespace ExecRelay.Lib

variable {α : Type}

/-! ### Slices -/

/-- The slice `list[start:stop]`. -/
def slice (list : List α) (start stop : Nat) : List α :=
  (list.drop start).take (stop - start)

theorem slice_length (list : List α) (start : Nat) :
    slice list start list.length = list.drop start := by
  rw [slice, ← List.length_drop, List.take_length]

/-! ### The upward loop -/

/-- The loop `for pos < len(list) && test(list[pos]) { pos++ }`, with at most `fuel` turns. -/
def scanUp (test : α → Bool) (list : List α) : Nat → Nat → Nat
  | 0, pos => pos
  | fuel + 1, pos => if (list[pos]?).any test then scanUp test list fuel (pos + 1) else pos

/-- **The upward loop stops behind the longest passing prefix** of what it started at, as soon as
it has one turn for every remaining element. -/
theorem scanUp_eq (test : α → Bool) (list : List α) :
    ∀ (fuel pos : Nat), list.length ≤ pos + fuel →
      scanUp test list fuel pos = pos + ((list.drop pos).takeWhile test).length
  | 0, pos, enough => by
      rw [scanUp, List.drop_eq_nil_of_le (by omega)]
      rfl
  | fuel + 1, pos, enough => by
      by_cases inside : pos < list.length
      · rw [scanUp, List.drop_eq_getElem_cons inside, List.getElem?_eq_getElem inside,
          Option.any_some]
        by_cases passes : test list[pos] = true
        · rw [if_pos passes, scanUp_eq test list fuel (pos + 1) (by omega),
            List.takeWhile_cons_of_pos passes, List.length_cons]
          omega
        · rw [if_neg passes, List.takeWhile_cons_of_neg passes]
          rfl
      · rw [scanUp, List.getElem?_eq_none (by omega), List.drop_eq_nil_of_le (by omega)]
        rfl

section Up

variable {test : α → Bool} {list : List α} {fuel pos : Nat}

theorem slice_scanUp (enough : list.length ≤ pos + fuel) :
    slice list pos (scanUp test list fuel pos) = (list.drop pos).takeWhile test := by
  rw [slice, scanUp_eq test list fuel pos enough, Nat.add_sub_cancel_left]
  exact (List.prefix_iff_eq_take.mp (List.takeWhile_prefix test)).symm

theorem drop_scanUp (enough : list.length ≤ pos + fuel) :
    list.drop (scanUp test list fuel pos) = (list.drop pos).dropWhile test := by
  have cut : ((list.drop pos).takeWhile test ++ (list.drop pos).dropWhile test).drop
      ((list.drop pos).takeWhile test).length = (list.drop pos).dropWhile test := List.drop_left
  rw [List.takeWhile_append_dropWhile] at cut
  rw [scanUp_eq test list fuel pos enough, ← List.drop_drop, cut]

theorem le_scanUp (enough : list.length ≤ pos + fuel) : pos ≤ scanUp test list fuel pos := by
  rw [scanUp_eq test list fuel pos enough]
  exact Nat.le_add_right _ _

end Up

/-! ### The downward loop -/

/-- The loop `for stop > start && test(list[stop-1]) { stop-- }`. -/
def scanDown (test : α → Bool) (list : List α) (start : Nat) : Nat → Nat
  | 0 => 0
  | stop + 1 =>
    if start < stop + 1 ∧ (list[stop]?).any test then scanDown test list start stop else stop + 1

/-- **The downward loop cuts off the longest passing suffix** of the slice it started with. -/
theorem slice_scanDown (test : α → Bool) (list : List α) (start : Nat) :
    ∀ stop : Nat, stop ≤ list.length →
      slice list start (scanDown test list start stop) = (slice list start stop).rdropWhile test
  | 0, _ => by
      rw [scanDown, slice, Nat.zero_sub, List.take_zero, List.rdropWhile_nil]
  | stop + 1, inside => by
      by_cases below : start < stop + 1
      · have last : slice list start (stop + 1) = slice list start stop ++ [list[stop]] := by
          rw [slice, slice, show stop + 1 - start = (stop - start) + 1 by omega,
            List.take_succ_eq_append_getElem (by rw [List.length_drop]; omega), List.getElem_drop]
          congr 3
          omega
        rw [scanDown, List.getElem?_eq_getElem (by omega : stop < list.length), Option.any_some,
          last]
        by_cases passes : test list[stop] = true
        · rw [if_pos ⟨below, passes⟩, slice_scanDown test list start stop (by omega),
            List.rdropWhile_concat_pos _ _ _ passes]
        · rw [if_neg (fun both => passes both.2), last, List.rdropWhile_concat_neg _ _ _ passes]
      · rw [scanDown, if_neg (fun both => below both.1), slice,
          show stop + 1 - start = 0 by omega, List.take_zero, List.rdropWhile_nil]

/-- Both ends of a list trimmed of the elements that pass the test. -/
def trim (test : α → Bool) (list : List α) : List α :=
  (list.dropWhile test).rdropWhile test

/-- **The two loops together trim both ends.** -/
theorem slice_scanUp_scanDown (test : α → Bool) (list : List α) :
    slice list (scanUp test list list.length 0)
        (scanDown test list (scanUp test list list.length 0) list.length) = trim test list := by
  rw [slice_scanDown test list _ list.length le_rfl, slice_length,
    drop_scanUp (by omega), List.drop_zero, trim]

/-! ### Splitting at a separator -/

variable [BEq α] [LawfulBEq α]

/-- **The first part of a split** is what stands before the first separator; the other parts are
those of what stands behind it. -/
theorem splitOn_takeWhile (separator : α) (list : List α) :
    list.splitOn separator = list.takeWhile (· != separator) ::
      if separator ∈ list then ((list.dropWhile (· != separator)).tail).splitOn separator
      else [] := by
  have whole := List.takeWhile_append_dropWhile (p := (· != separator)) (l := list)
  have before : separator ∉ list.takeWhile (· != separator) := fun member => by
    simpa using List.mem_takeWhile_imp member
  by_cases present : separator ∈ list
  · rw [if_pos present]
    cases behind : list.dropWhile (· != separator) with
    | nil =>
      rw [behind, List.append_nil] at whole
      rw [whole] at before
      exact absurd present before
    | cons head rest =>
      have isSeparator : head = separator := by
        have := List.head_dropWhile_not (p := (· != separator)) (l := list)
          (by rw [behind]; exact List.cons_ne_nil _ _)
        simpa [behind] using this
      conv_lhs => rw [← whole, behind, isSeparator]
      rw [List.splitOn_append_cons_self_of_not_mem before, List.tail_cons]
  · rw [if_neg present, List.splitOn_eq_singleton present]
    congr 1
    refine (List.takeWhile_eq_self_iff.mpr fun element member => ?_).symm
    exact bne_iff_ne.mpr fun same => present (same ▸ member)

/-- **Cutting a field out of a list** at a position: the upward loop stops at the next separator
or at the end, and the split from there on starts with the slice it passed over. -/
theorem splitOn_drop (separator : α) (list : List α) {fuel pos : Nat}
    (enough : list.length ≤ pos + fuel) :
    (list.drop pos).splitOn separator =
      slice list pos (scanUp (· != separator) list fuel pos) ::
        if scanUp (· != separator) list fuel pos < list.length then
          (list.drop (scanUp (· != separator) list fuel pos + 1)).splitOn separator
        else [] := by
  have tail : list.drop (scanUp (· != separator) list fuel pos + 1) =
      ((list.drop pos).dropWhile (· != separator)).tail := by
    rw [← List.drop_one, ← drop_scanUp enough, List.drop_drop]
  have found : scanUp (· != separator) list fuel pos < list.length ↔
      separator ∈ list.drop pos := by
    have stop : (list.drop pos).dropWhile (· != separator) ≠ [] ↔ separator ∈ list.drop pos := by
      rw [ne_eq, List.dropWhile_eq_nil_iff]
      constructor
      · intro fails
        by_contra absent
        exact fails fun element member => bne_iff_ne.mpr fun same => absent (same ▸ member)
      · intro present all
        simpa using all separator present
    rw [← stop, ← drop_scanUp enough, ne_eq, List.drop_eq_nil_iff]
    omega
  rw [splitOn_takeWhile, slice_scanUp enough, tail, if_congr found.symm rfl rfl]

end ExecRelay.Lib
