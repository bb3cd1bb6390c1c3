/-
**Token buckets.**

A bucket fills at a rate up to a bound, and a call that finds a token takes it. The times of the calls
come from any linear order; what the bucket takes for the time between two calls may be less than it
is, but not negative (`Measures`).
-/

import Mathlib.Algebra.Order.Field.Basic
import Mathlib.Tactic.Linarith
import Mathlib.Tactic.Ring

namespace ExecRelay.Lib

/-- A bucket: what comes in per unit of time, and how much it holds. -/
structure Tank (K : Type) [Field K] [LinearOrder K] where
  rate : K
  burst : K
  rate_nonneg : 0 ≤ rate
  burst_nonneg : 0 ≤ burst

/-- What is in a bucket, as of its last call. -/
structure Level (Time K : Type) where
  tokens : K
  last : Time

variable {Time K : Type} [Field K] [LinearOrder K]

/-- The elapsed time between two times of a clock, at most as long as it is. -/
structure Measures [LinearOrder Time] (elapsed : Time → Time → K) (position : Time → K) : Prop where
  nonneg : ∀ now last, last ≤ now → 0 ≤ elapsed now last
  le : ∀ now last, last ≤ now → elapsed now last ≤ position now - position last

namespace Tank

variable (tank : Tank K)

/-! ### The calls -/

/-- A call some time after the last one: whether it is allowed, and what is left. -/
def draw (tokens elapsed : K) : Bool × K :=
  let level := min tank.burst (tokens + elapsed * tank.rate)
  if 1 ≤ level then (true, level - 1) else (false, level)

def cost (allowed : Bool) : K :=
  if allowed then 1 else 0

variable (elapsed : Time → Time → K)

def allow (level : Option (Level Time K)) (now : Time) : Bool × Level Time K :=
  let old := level.getD ⟨tank.burst, now⟩
  let drawn := tank.draw old.tokens (elapsed now old.last)
  (drawn.1, ⟨drawn.2, now⟩)

def serve : Option (Level Time K) → List Time → List (Time × Bool)
  | _, [] => []
  | level, now :: rest =>
    (now, (tank.allow elapsed level now).1) :: serve (some (tank.allow elapsed level now).2) rest

variable {elapsed}

theorem mem_serve {level : Option (Level Time K)} {times : List Time} {decision : Time × Bool}
    (inside : decision ∈ tank.serve elapsed level times) : decision.1 ∈ times := by
  induction times generalizing level with
  | nil => exact absurd inside List.not_mem_nil
  | cons now rest ih =>
    rcases List.mem_cons.mp inside with rfl | later
    · exact List.mem_cons_self ..
    · exact List.mem_cons_of_mem _ (ih later)

variable [LinearOrder Time]

/-- The decision is about a call between the two times, and allows it. -/
def isGrant (first until_ : Time) (decision : Time × Bool) : Bool :=
  decision.2 && decide (first ≤ decision.1) && decide (decision.1 ≤ until_)

theorem countP_serve_of_late {level : Option (Level Time K)} {times : List Time} {first until_ : Time}
    (late : ∀ time ∈ times, until_ < time) :
    (tank.serve elapsed level times).countP (isGrant first until_) = 0 := by
  rw [List.countP_eq_zero]
  intro decision inside
  have outside := late _ (tank.mem_serve inside)
  simp [isGrant, outside]

/-- A bucket that is not overdrawn and has no call after the given ones. -/
def Sound (level : Option (Level Time K)) (times : List Time) : Prop :=
  ∀ known, level = some known → 0 ≤ known.tokens ∧ ∀ time ∈ times, known.last ≤ time

theorem sound_none (times : List Time) : Sound (none : Option (Level Time K)) times :=
  fun _ impossible => nomatch impossible

/-! ### One call -/

theorem draw_of_le {tokens elapsed : K} (enough : 1 ≤ min tank.burst (tokens + elapsed * tank.rate)) :
    tank.draw tokens elapsed = (true, min tank.burst (tokens + elapsed * tank.rate) - 1) :=
  if_pos enough

theorem draw_of_not_le {tokens elapsed : K}
    (short : ¬ 1 ≤ min tank.burst (tokens + elapsed * tank.rate)) :
    tank.draw tokens elapsed = (false, min tank.burst (tokens + elapsed * tank.rate)) :=
  if_neg short

theorem draw_add (tokens elapsed : K) : (tank.draw tokens elapsed).2 + cost (tank.draw tokens elapsed).1 =
    min tank.burst (tokens + elapsed * tank.rate) := by
  by_cases enough : 1 ≤ min tank.burst (tokens + elapsed * tank.rate)
  · rw [tank.draw_of_le enough]
    exact sub_add_cancel _ _
  · rw [tank.draw_of_not_le enough]
    exact add_zero _

theorem draw_add_le_burst (tokens elapsed : K) :
    (tank.draw tokens elapsed).2 + cost (tank.draw tokens elapsed).1 ≤ tank.burst := by
  rw [draw_add]
  exact min_le_left _ _

theorem draw_add_le (tokens elapsed : K) :
    (tank.draw tokens elapsed).2 + cost (tank.draw tokens elapsed).1 ≤
      tokens + elapsed * tank.rate := by
  rw [draw_add]
  exact min_le_right _ _

theorem draw_of_full {tokens elapsed : K} (full : tank.burst ≤ tokens + elapsed * tank.rate) :
    tank.draw tokens elapsed = if 1 ≤ tank.burst then (true, tank.burst - 1) else (false, tank.burst) := by
  unfold draw
  rw [min_eq_left full]

/-! ### The calls of one client -/

variable [IsStrictOrderedRing K] {position : Time → K}

theorem draw_nonneg {tokens elapsed : K} (some_ : 0 ≤ tokens) (later : 0 ≤ elapsed) :
    0 ≤ (tank.draw tokens elapsed).2 := by
  have level : 0 ≤ min tank.burst (tokens + elapsed * tank.rate) :=
    le_min tank.burst_nonneg (add_nonneg some_ (mul_nonneg later tank.rate_nonneg))
  by_cases enough : 1 ≤ min tank.burst (tokens + elapsed * tank.rate)
  · rw [tank.draw_of_le enough]
    exact sub_nonneg.mpr enough
  · rw [tank.draw_of_not_le enough]
    exact level

/-- **A bucket that had the time to fill is as good as new.** -/
theorem allow_of_idle (measures : Measures elapsed position) {level : Level Time K} {now : Time}
    (some_ : 0 ≤ level.tokens) (idle : tank.burst ≤ elapsed now level.last * tank.rate) :
    tank.allow elapsed (some level) now = tank.allow elapsed none now := by
  have full : tank.burst ≤ level.tokens + elapsed now level.last * tank.rate := by linarith
  have new : tank.burst ≤ tank.burst + elapsed now now * tank.rate :=
    le_add_of_nonneg_right (mul_nonneg (measures.nonneg now now le_rfl) tank.rate_nonneg)
  unfold allow
  dsimp only [Option.getD_some, Option.getD_none]
  rw [tank.draw_of_full full, tank.draw_of_full new]

theorem isGrant_le_cost (first until_ now : Time) (allowed : Bool) :
    ((if isGrant first until_ (now, allowed) then 1 else 0 : ℕ) : K) ≤ cost allowed := by
  unfold isGrant cost
  cases allowed <;> simp
  split <;> simp

/-- **From a call on**, no more is allowed than what was left and what comes in. -/
theorem serve_le (measures : Measures elapsed position) {times : List Time} {level : Level Time K}
    (first : Time) {until_ : Time} (sorted : times.Pairwise (· ≤ ·)) (after : ∀ time ∈ times, level.last ≤ time)
    (some_ : 0 ≤ level.tokens) (before : level.last ≤ until_) :
    ((tank.serve elapsed (some level) times).countP (isGrant first until_) : K) ≤
      level.tokens + (position until_ - position level.last) * tank.rate := by
  induction times generalizing level with
  | nil =>
    have room := (measures.nonneg _ _ before).trans (measures.le _ _ before)
    simpa [serve] using add_nonneg some_ (mul_nonneg room tank.rate_nonneg)
  | cons now rest ih =>
    obtain ⟨ahead, sortedRest⟩ := List.pairwise_cons.mp sorted
    have since := after now (List.mem_cons_self ..)
    rcases le_or_gt now until_ with inside | late
    · have drawn := tank.draw_add_le level.tokens (elapsed now level.last)
      have left := tank.draw_nonneg some_ (measures.nonneg now level.last since)
      have later := @ih (tank.allow elapsed (some level) now).2 sortedRest ahead left inside
      have short := mul_le_mul_of_nonneg_right (measures.le now level.last since) tank.rate_nonneg
      rw [serve, List.countP_cons, Nat.cast_add]
      refine (add_le_add later (isGrant_le_cost first until_ now _)).trans ?_
      dsimp only [allow, Option.getD_some]
      linarith
    · have none_ : (tank.serve elapsed (some level) (now :: rest)).countP (isGrant first until_) = 0 := by
        refine tank.countP_serve_of_late fun time member => ?_
        rcases List.mem_cons.mp member with rfl | later
        · exact late
        · exact lt_of_lt_of_le late (ahead time later)
      have room := (measures.nonneg _ _ before).trans (measures.le _ _ before)
      rw [none_, Nat.cast_zero]
      exact add_nonneg some_ (mul_nonneg room tank.rate_nonneg)

theorem Sound.allow (measures : Measures elapsed position) {level : Option (Level Time K)} {now : Time}
    {rest : List Time} (sound : Sound level (now :: rest)) (ahead : ∀ time ∈ rest, now ≤ time) :
    Sound (some (tank.allow elapsed level now).2) rest := by
  rintro _ ⟨rfl⟩
  refine ⟨?_, ahead⟩
  cases level with
  | none => exact tank.draw_nonneg tank.burst_nonneg (measures.nonneg now now le_rfl)
  | some known =>
    obtain ⟨some_, before⟩ := sound known rfl
    exact tank.draw_nonneg some_ (measures.nonneg _ _ (before now (List.mem_cons_self ..)))

/-- **The calls that are allowed in a window of time.** -/
theorem serve_window_le (measures : Measures elapsed position) {times : List Time}
    {level : Option (Level Time K)} {first until_ : Time} (sorted : times.Pairwise (· ≤ ·))
    (sound : Sound level times) (window : first ≤ until_) :
    ((tank.serve elapsed level times).countP (isGrant first until_) : K) ≤
      tank.burst + (position until_ - position first) * tank.rate := by
  have room (start : Time) (before : start ≤ until_) :
      0 ≤ (position until_ - position start) * tank.rate :=
    mul_nonneg ((measures.nonneg _ _ before).trans (measures.le _ _ before)) tank.rate_nonneg
  induction times generalizing level with
  | nil => simpa [serve] using add_nonneg tank.burst_nonneg (room first window)
  | cons now rest ih =>
    obtain ⟨ahead, sortedRest⟩ := List.pairwise_cons.mp sorted
    have next := Sound.allow tank measures sound ahead
    rcases lt_or_ge now first with early | inside
    · -- the window has not begun
      have skipped : isGrant first until_ (now, (tank.allow elapsed level now).1) = false := by
        simp [isGrant, early]
      rw [serve, List.countP_cons, skipped, if_neg Bool.false_ne_true, Nat.add_zero]
      exact ih sortedRest next
    · rcases le_or_gt now until_ with inside_ | late
      · -- the first call in the window finds a full bucket at best
        have left := next _ rfl
        have later := tank.serve_le measures first sortedRest ahead left.1 inside_
        have start : (tank.allow elapsed level now).2.tokens + cost (tank.allow elapsed level now).1 ≤
          tank.burst := tank.draw_add_le_burst _ _
        have shorter := mul_le_mul_of_nonneg_right
          ((measures.nonneg _ _ inside).trans (measures.le _ _ inside)) tank.rate_nonneg
        rw [serve, List.countP_cons, Nat.cast_add]
        refine (add_le_add later (isGrant_le_cost first until_ now _)).trans ?_
        have same : (tank.allow elapsed level now).2.last = now := rfl
        rw [same]
        linarith
      · have none_ : (tank.serve elapsed level (now :: rest)).countP (isGrant first until_) = 0 := by
          refine tank.countP_serve_of_late fun time member => ?_
          rcases List.mem_cons.mp member with rfl | later
          · exact late
          · exact lt_of_lt_of_le late (ahead time later)
        rw [none_, Nat.cast_zero]
        exact add_nonneg tank.burst_nonneg (room first window)

end Tank

end ExecRelay.Lib
