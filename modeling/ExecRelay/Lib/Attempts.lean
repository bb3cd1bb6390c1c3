/-
**Attempts at a task.**

Tasks are attempted, one attempt after the other, and some attempts succeed. If an attempt at a task
begins only when the earlier ones at it are spent, and no spent attempt has succeeded, then at most one
attempt at every task has (`length_filter_le_one`).
-/

import Mathlib.Data.List.Nodup

namespace ExecRelay.Lib

theorem length_le_one_of_nodup {α : Type} {list : List α} (distinct : list.Nodup)
    (same : ∀ first ∈ list, ∀ second ∈ list, first = second) : list.length ≤ 1 := by
  match list, distinct, same with
  | [], _, _ => exact Nat.zero_le 1
  | [_], _, _ => exact Nat.le_refl 1
  | first :: second :: rest, distinct, same =>
    have equal : first = second := same first (by simp) second (by simp)
    simp [equal] at distinct

section Attempts

variable {Task : Type} [DecidableEq Task] {task : Nat → Option Task} {spent : Nat → Bool}
  {succeeded : List Nat}

/-- **At most one attempt at a task succeeds.** -/
theorem length_filter_le_one (distinct : succeeded.Nodup)
    (earlier : ∀ first second given, first < second → task first = some given →
      task second = some given → spent first = true)
    (unspent : ∀ index ∈ succeeded, spent index = false) (given : Task) :
    (succeeded.filter fun index => task index = some given).length ≤ 1 := by
  refine length_le_one_of_nodup (distinct.filter _) ?_
  intro first firstMember second secondMember
  obtain ⟨firstIn, firstTask⟩ := List.mem_filter.mp firstMember
  obtain ⟨secondIn, secondTask⟩ := List.mem_filter.mp secondMember
  rw [decide_eq_true_eq] at firstTask secondTask
  rcases Nat.lt_trichotomy first second with before | equal | after
  · have ended := earlier first second given before firstTask secondTask
    rw [unspent first firstIn] at ended
    cases ended
  · exact equal
  · have ended := earlier second first given after secondTask firstTask
    rw [unspent second secondIn] at ended
    cases ended

end Attempts

end ExecRelay.Lib
