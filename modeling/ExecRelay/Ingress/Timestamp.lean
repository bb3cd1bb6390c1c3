/-
**The window of the time stamp.**

A time stamp is checked by the distance of two times: `now.Sub(time.Unix(ts, 0))`, negated if it is
below zero. `Time.Sub` stops at the ends of the 64-bit durations, and the smallest duration is its own
negative. So a stamp that lies 2⁶³ nanoseconds (292 years) or more ahead has the distance -2⁶³, which is
inside of every window (`distance_of_ahead`).
-/

import ExecRelay.Ingress.Gates
import Mathlib.Tactic.SplitIfs

namespace ExecRelay.Ingress

open Lib

/-! ### The distance of two times -/

def distance (now time : Time) : Int :=
  let diff := timeSub now time
  if diff < 0 then wrap64 (-diff) else diff

section Distance

variable {now time : Int}

theorem distance_of_near (near : |now - time| < 2 ^ 63) : distance now time = |now - time| := by
  rw [abs_lt] at near
  have exact : timeSub now time = now - time := by
    unfold timeSub
    omega
  rw [distance, exact]
  split_ifs with negative
  · rw [abs_of_neg negative, wrap64]
    omega
  · rw [abs_of_nonneg (by omega)]

theorem distance_of_behind (behind : 2 ^ 63 ≤ now - time) : distance now time = 2 ^ 63 - 1 := by
  have stops : timeSub now time = 2 ^ 63 - 1 := by
    unfold timeSub
    omega
  rw [distance, stops]
  rfl

/-- **The smallest duration is its own negative.** -/
theorem distance_of_ahead (ahead : 2 ^ 63 ≤ time - now) : distance now time = -2 ^ 63 := by
  have stops : timeSub now time = -2 ^ 63 := by
    unfold timeSub
    omega
  rw [distance, stops]
  rfl

end Distance

/-! ### Stamps -/

def year2200 : Time := 7258118400 * 1000000000

def Stamped (header : Header) (ts : Int) : Prop :=
  parseInt64 (trimSpace (header.get "X-ExecRelay-Timestamp")) = some ts

instance (header : Header) (ts : Int) : Decidable (Stamped header ts) :=
  inferInstanceAs (Decidable (_ = _))

/-- **What the arithmetic of the check asks for**: the stamp is not 2⁶³ nanoseconds or more ahead, unless
its seconds since the year 1 leave 64 bits, and the window is not the largest duration, unless the
distance is a duration. -/
def InReach (now ts window : Int) : Prop :=
  (ts * 1000000000 - now < 2 ^ 63 ∨ 2 ^ 63 ≤ ts + unixToInternal) ∧
    (window < 2 ^ 63 - 1 ∨ |now - ts * 1000000000| < 2 ^ 63)

section Stamps

variable {header : Header} {ts : Int}

theorem Stamped.range (stamped : Stamped header ts) : -2 ^ 63 ≤ ts ∧ ts < 2 ^ 63 := by
  unfold Stamped parseInt64 at stamped
  simp only [Option.ite_none_right_eq_some] at stamped
  obtain ⟨fits, same⟩ := stamped
  rw [← Option.some.inj same]
  exact fits.2.2

theorem unixTime_of_lt (range : -2 ^ 63 ≤ ts) (fits : ts + unixToInternal < 2 ^ 63) :
    unixTime ts = ts * 1000000000 := by
  have same : wrap64 (ts + unixToInternal) = ts + unixToInternal := by
    unfold wrap64 unixToInternal at *
    omega
  rw [unixTime, same]
  rw [Int.add_sub_cancel]

theorem unixTime_of_le (range : ts < 2 ^ 63) (wraps : 2 ^ 63 ≤ ts + unixToInternal) :
    unixTime ts = (ts - 2 ^ 64) * 1000000000 := by
  have less : wrap64 (ts + unixToInternal) = ts + unixToInternal - 2 ^ 64 := by
    unfold wrap64 unixToInternal at *
    omega
  rw [unixTime, less, sub_right_comm, Int.add_sub_cancel]

theorem checkTimestamp_eq_none_iff (stamped : Stamped header ts) {now window : Int} :
    checkTimestamp header now window = none ↔ distance now (unixTime ts) ≤ window := by
  have given : header.get "X-ExecRelay-Timestamp" ≠ [] := by
    intro missing
    rw [Stamped, missing] at stamped
    cases stamped
  rw [checkTimestamp, Stamped] at *
  simp only [given, if_false, stamped, distance]
  split_ifs <;> simp <;> omega

variable {now window : Int}

/-- **When the window is the window**: for every stamp of 64 bits, every time from 1970 to 2200 and every
positive window, the check accepts exactly the stamps whose distance is at most the window, exactly if
they are in reach. -/
theorem accepts_iff (stamped : Stamped header ts) (since : 0 ≤ now) (before : now ≤ year2200)
    (positive : 0 < window) (duration : window < 2 ^ 63) :
    (checkTimestamp header now window = none ↔ |now - ts * 1000000000| ≤ window) ↔
      InReach now ts window := by
  obtain ⟨least, most⟩ := stamped.range
  rw [checkTimestamp_eq_none_iff stamped, InReach]
  unfold year2200 at before
  by_cases wraps : 2 ^ 63 ≤ ts + unixToInternal
  · have behind : 2 ^ 63 ≤ now - unixTime ts := by
      rw [unixTime_of_le most wraps]
      omega
    have far : 2 ^ 63 ≤ |now - ts * 1000000000| := by
      unfold unixToInternal at wraps
      rw [abs_of_neg (by omega)]
      omega
    rw [distance_of_behind behind]
    omega
  · rw [unixTime_of_lt least (by omega)]
    rcases lt_or_ge |now - ts * 1000000000| (2 ^ 63) with near | far
    · have within := (abs_lt.mp near).1
      rw [distance_of_near near]
      omega
    · rcases le_abs.mp far with behind | ahead
      · rw [distance_of_behind behind]
        omega
      · rw [distance_of_ahead (by omega)]
        omega

end Stamps

/-- A stamp of ten seconds ago. -/
theorem accepts_iff_seconds :
    checkTimestamp [(lit "X-ExecRelay-Timestamp", lit "1699999990")] 1700000000000000000 60000000000 = none ↔
      |(1700000000000000000 : Int) - 1699999990 * 1000000000| ≤ 60000000000 := by
  have stamped : Stamped [(lit "X-ExecRelay-Timestamp", lit "1699999990")] 1699999990 := by decide +kernel
  exact (accepts_iff stamped (by decide) (by decide) (by decide) (by decide)).mpr
    ⟨by decide, by decide⟩

def millisRequest : Request :=
  { plainRequest with header := [(lit "X-ExecRelay-Timestamp", lit "1700000000000")] }

/-- **A stamp far ahead**: the number of milliseconds, read as seconds, lies in the year 55840, and the
request is published although the window is a minute. -/
theorem accepts_millis :
    Stamped millisRequest.header 1700000000000 ∧
      checkTimestamp millisRequest.header 1700000000000000000 60000000000 = none ∧
      ¬ |(1700000000000000000 : Int) - 1700000000000 * 1000000000| ≤ 60000000000 ∧
      ((start { plainConfig with timestampWindow := 60000000000 } (.webhook millisRequest)).calls
        obliging).any isPublish = true := by
  refine ⟨?_, ?_, ?_, ?_⟩ <;> decide +kernel

end ExecRelay.Ingress
