/-
**The rate limiter over histories of calls** (`ipRateLimiter` in `handler.go`).

Calls of `allow` for any clients and sweeps of idle buckets come one after the other, since both hold
the lock. The times are those of the clock: a call sees no earlier time than anything before it, while a
sweep may have read the clock some time ago (`Ordered`). Arithmetic is exact, the bucket holds `limit`
tokens and `limit` come in per minute.

`buckets_allow` and `buckets_cleanup` connect the calls with the service.
-/

import ExecRelay.Ingress.Service
import ExecRelay.Lib.TokenBucket
import Mathlib.Algebra.Order.Ring.Rat
import Mathlib.Tactic.FieldSimp
import Mathlib.Tactic.NormNum

namespace ExecRelay.Ingress

open Lib

/-! ### Histories -/

inductive Visit
  | allow (ip : Bytes) (now : Time)
  /-- The sweep, with the time it has read before it took the lock. -/
  | sweep (now : Time)
deriving DecidableEq

def Visit.time : Visit → Time
  | .allow _ now => now
  | .sweep now => now

def Visit.isAllow : Visit → Bool
  | .allow _ _ => true
  | .sweep _ => false

/-- A call of `allow` sees no earlier time than what was before it. -/
def Ordered (history : List Visit) : Prop :=
  history.Pairwise fun earlier later => later.isAllow = true → earlier.time ≤ later.time

structure Verdict where
  ip : Bytes
  now : Time
  allowed : Bool
deriving DecidableEq

abbrev Buckets (Number : Type) := Bytes → Option (TokenBucket Number)

namespace Limiter

variable {Number : Type} (limiter : Limiter Number)

def visit (buckets : Buckets Number) : Visit → Buckets Number
  | .allow ip now => fun key =>
    if key = ip then some (limiter.allow (buckets ip) now).2 else buckets key
  | .sweep now => fun ip =>
    (buckets ip).filter fun bucket => now - bucketIdleExpiry ≤ bucket.last

def decisions : Buckets Number → List Visit → List Verdict
  | _, [] => []
  | buckets, .allow ip now :: rest =>
    ⟨ip, now, (limiter.allow (buckets ip) now).1⟩ ::
      decisions (limiter.visit buckets (.allow ip now)) rest
  | buckets, .sweep now :: rest => decisions (limiter.visit buckets (.sweep now)) rest

end Limiter

def withoutSweeps (history : List Visit) : List Visit :=
  history.filter Visit.isAllow

def callsOf (ip : Bytes) (history : List Visit) : List Time :=
  history.filterMap fun visit =>
    match visit with
    | .allow other now => if other = ip then some now else none
    | .sweep _ => none

def decisionsOf (ip : Bytes) (decisions : List Verdict) : List (Time × Bool) :=
  decisions.filterMap fun decision =>
    if decision.ip = ip then some (decision.now, decision.allowed) else none

/-! ### The service -/

section Service

variable {Number Network NetworkChange : Type} {limiter : Limiter Number}
  {broker : Broker Network NetworkChange} {world next : World Number Network}

theorem buckets_allow {thread : Nat} {ip : Bytes} {answer : Bool}
    (served : serve limiter broker world thread (.allow ip) answer = some next) :
    answer = (limiter.allow (world.buckets ip) world.clock).1 ∧
      next.buckets = limiter.visit world.buckets (.allow ip world.clock) := by
  simp only [serve, exactly] at served
  split at served
  · rename_i same
    cases served
    exact ⟨same, rfl⟩
  · cases served

theorem buckets_cleanup (changed : change broker world .cleanupBuckets = some next) :
    next.buckets = limiter.visit world.buckets (.sweep world.clock) := by
  cases changed
  rfl

end Service

/-! ### The bucket of a client -/

/-- `newIPRateLimiter(float64(opts.RateLimit)/60.0, opts.RateLimit)`. -/
def minuteLimiter (limit : Nat) : Limiter ℚ where
  doubles := Doubles.exact
  seconds := fun duration => duration / 1000000000
  rate := limit / 60
  burst := limit

def minuteTank (limit : Nat) : Tank ℚ where
  rate := limit / 60
  burst := limit
  rate_nonneg := by positivity
  burst_nonneg := by positivity

/-- `now.Sub(last).Seconds()`. -/
def elapsed (now last : Time) : ℚ :=
  (timeSub now last : ℚ) / 1000000000

def position (now : Time) : ℚ :=
  (now : ℚ) / 1000000000

theorem timeSub_bounds {now last : Int} (later : last ≤ now) :
    0 ≤ timeSub now last ∧ timeSub now last ≤ now - last := by
  unfold timeSub
  omega

theorem timeSub_of_expired {now last : Int} (expired : last + bucketIdleExpiry ≤ now) :
    last ≤ now ∧ bucketIdleExpiry ≤ timeSub now last := by
  unfold timeSub
  unfold bucketIdleExpiry at *
  omega

theorem measures : Measures elapsed position where
  nonneg := fun now last later => by
    have nonneg : (0 : ℚ) ≤ timeSub now last := by exact_mod_cast (timeSub_bounds later).1
    exact div_nonneg nonneg (by norm_num)
  le := fun now last later => by
    have cast : (timeSub now last : ℚ) ≤ (now : ℚ) - last := by
      exact_mod_cast (timeSub_bounds later).2
    unfold elapsed position
    rw [← sub_div]
    exact div_le_div_of_nonneg_right cast (by norm_num)

def TokenBucket.level (bucket : TokenBucket ℚ) : Level Time ℚ :=
  ⟨bucket.tokens, bucket.last⟩

theorem level_injective : Function.Injective TokenBucket.level := by
  rintro ⟨tokens, last⟩ ⟨others, other⟩ same
  cases same
  rfl

/-- **A call of `allow`** is one of the token bucket. -/
theorem allow_eq (limit : Nat) (bucket : Option (TokenBucket ℚ)) (now : Time) :
    ((minuteLimiter limit).allow bucket now).1 =
        ((minuteTank limit).allow elapsed (bucket.map TokenBucket.level) now).1 ∧
      ((minuteLimiter limit).allow bucket now).2.level =
        ((minuteTank limit).allow elapsed (bucket.map TokenBucket.level) now).2 := by
  have known : (bucket.map TokenBucket.level).getD ⟨(minuteTank limit).burst, now⟩ =
      (bucket.getD ⟨limit, now⟩).level := by
    cases bucket <;> rfl
  have least (level : ℚ) : (if level < limit then level else (limit : ℚ)) = min (limit : ℚ) level := by
    split
    · rename_i less
      rw [min_eq_right less.le]
    · rename_i more
      rw [min_eq_left (not_lt.mp more)]
  unfold Tank.allow Limiter.allow
  rw [known]
  simp only [minuteLimiter, Doubles.exact, decide_eq_true_eq, least, Nat.cast_one]
  generalize bucket.getD ⟨limit, now⟩ = old
  by_cases enough : 1 ≤ min (limit : ℚ) (old.tokens + timeSub now old.last / 1000000000 * (limit / 60))
  · have drawn : (minuteTank limit).draw old.level.tokens (elapsed now old.level.last) = _ :=
      (minuteTank limit).draw_of_le enough
    rw [if_pos enough, drawn]
    exact ⟨rfl, rfl⟩
  · have drawn : (minuteTank limit).draw old.level.tokens (elapsed now old.level.last) = _ :=
      (minuteTank limit).draw_of_not_le enough
    rw [if_neg enough, drawn]
    exact ⟨rfl, rfl⟩

/-! ### Sweeps -/

def SoundBuckets (buckets : Buckets ℚ) (history : List Visit) : Prop :=
  ∀ ip bucket, buckets ip = some bucket → 0 ≤ bucket.tokens ∧
    ∀ visit ∈ history, visit.isAllow = true → bucket.last ≤ visit.time

/-- The swept buckets are those that were not swept, except for some that will be full when they are
called for. -/
def Alike (swept kept : Buckets ℚ) (history : List Visit) : Prop :=
  ∀ ip, swept ip = kept ip ∨ (swept ip = none ∧ ∃ bucket, kept ip = some bucket ∧
    ∀ visit ∈ history, visit.isAllow = true → bucket.last + bucketIdleExpiry ≤ visit.time)

variable {limit : Nat} {history : List Visit} {buckets swept kept : Buckets ℚ} {ip : Bytes} {now : Time}

/-- **A bucket that is idle for ten minutes is full.** -/
theorem allow_of_expired {bucket : TokenBucket ℚ} (some_ : 0 ≤ bucket.tokens)
    (expired : bucket.last + bucketIdleExpiry ≤ now) :
    (minuteLimiter limit).allow (some bucket) now = (minuteLimiter limit).allow none now := by
  have long : (600 : ℚ) ≤ elapsed now bucket.last := by
    have enough := (timeSub_of_expired expired).2
    have cast : (600000000000 : ℚ) ≤ timeSub now bucket.last := by exact_mod_cast enough
    unfold elapsed
    rw [le_div_iff₀ (by norm_num)]
    linarith
  have idle : (minuteTank limit).burst ≤ elapsed now bucket.level.last * (minuteTank limit).rate := by
    show (limit : ℚ) ≤ elapsed now bucket.last * (limit / 60)
    have nonneg : (0 : ℚ) ≤ limit / 60 := by positivity
    have filled := mul_le_mul_of_nonneg_right long nonneg
    linarith
  have same : (minuteTank limit).allow elapsed (some bucket.level) now =
      (minuteTank limit).allow elapsed none now := (minuteTank limit).allow_of_idle measures some_ idle
  have old := allow_eq limit (some bucket) now
  have new := allow_eq limit none now
  rw [Option.map_some, same] at old
  exact Prod.ext (old.1.trans new.1.symm) (level_injective (old.2.trans new.2.symm))

theorem last_allow (limit : Nat) (bucket : Option (TokenBucket ℚ)) (now : Time) :
    ((minuteLimiter limit).allow bucket now).2.last = now :=
  congrArg Level.last (allow_eq limit bucket now).2

theorem SoundBuckets.tail {visit : Visit} (sound : SoundBuckets buckets (visit :: history)) :
    SoundBuckets buckets history := by
  intro key bucket found
  obtain ⟨some_, before⟩ := sound key bucket found
  exact ⟨some_, fun other inside => before other (List.mem_cons_of_mem _ inside)⟩

theorem SoundBuckets.allow (limit : Nat) (sound : SoundBuckets buckets (.allow ip now :: history))
    (ahead : ∀ visit ∈ history, visit.isAllow = true → now ≤ visit.time) :
    SoundBuckets ((minuteLimiter limit).visit buckets (.allow ip now)) history := by
  intro key bucket found
  dsimp only [Limiter.visit] at found
  split at found
  · have called : Tank.Sound ((buckets ip).map TokenBucket.level) [now] := by
      intro known given
      obtain ⟨old, same, rfl⟩ := Option.map_eq_some_iff.mp given
      obtain ⟨some_, before⟩ := sound ip old same
      refine ⟨some_, fun time inside => ?_⟩
      rw [List.mem_singleton.mp inside]
      exact before _ (List.mem_cons_self ..) rfl
    have next := Tank.Sound.allow (minuteTank limit) measures called
      (fun time inside => absurd inside List.not_mem_nil) _ rfl
    rw [← (allow_eq limit (buckets ip) now).2] at next
    cases found
    refine ⟨next.1, ?_⟩
    rw [last_allow]
    exact ahead
  · exact sound.tail key bucket found

theorem Alike.allow_eq_allow (limit : Nat) (alike : Alike swept kept (.allow ip now :: history))
    (sound : SoundBuckets kept (.allow ip now :: history)) :
    (minuteLimiter limit).allow (swept ip) now = (minuteLimiter limit).allow (kept ip) now := by
  rcases alike ip with equal | ⟨gone, bucket, found, expired⟩
  · rw [equal]
  · rw [gone, found]
    exact (allow_of_expired (sound ip bucket found).1 (expired _ (List.mem_cons_self ..) rfl)).symm

theorem Alike.tail {visit : Visit} (alike : Alike swept kept (visit :: history)) :
    Alike swept kept history := by
  intro key
  refine (alike key).imp_right ?_
  rintro ⟨gone, bucket, found, expired⟩
  exact ⟨gone, bucket, found, fun other inside => expired other (List.mem_cons_of_mem _ inside)⟩

theorem Alike.allow (limit : Nat) (alike : Alike swept kept (.allow ip now :: history))
    (sound : SoundBuckets kept (.allow ip now :: history)) :
    Alike ((minuteLimiter limit).visit swept (.allow ip now))
      ((minuteLimiter limit).visit kept (.allow ip now)) history := by
  intro key
  dsimp only [Limiter.visit]
  by_cases own : key = ip
  · rw [if_pos own, if_pos own, alike.allow_eq_allow limit sound]
    exact .inl rfl
  · rw [if_neg own, if_neg own]
    exact alike.tail key

theorem Alike.sweep (limiter : Limiter ℚ) (alike : Alike swept kept (.sweep now :: history))
    (ahead : ∀ visit ∈ history, visit.isAllow = true → now ≤ visit.time) :
    Alike (limiter.visit swept (.sweep now)) kept history := by
  intro key
  dsimp only [Limiter.visit]
  rcases alike.tail key with equal | ⟨gone, bucket, found, expired⟩
  · cases found : kept key with
    | none =>
      rw [equal, found]
      exact .inl rfl
    | some bucket =>
      rw [equal, found, Option.filter_some]
      by_cases recent : now - bucketIdleExpiry ≤ bucket.last
      · rw [if_pos (decide_eq_true recent)]
        exact .inl rfl
      · rw [if_neg (by simpa using recent)]
        refine .inr ⟨rfl, bucket, rfl, fun visit inside calls => ?_⟩
        have idle : bucket.last + bucketIdleExpiry < now := lt_sub_iff_add_lt.mp (not_le.mp recent)
        exact idle.le.trans (ahead visit inside calls)
  · rw [gone, Option.filter_none]
    exact .inr ⟨rfl, bucket, found, expired⟩

/-- **Sweeps go unnoticed.** -/
theorem decisions_of_alike (ordered : Ordered history) (sound : SoundBuckets kept history)
    (alike : Alike swept kept history) :
    (minuteLimiter limit).decisions swept history =
      (minuteLimiter limit).decisions kept (withoutSweeps history) := by
  induction history generalizing swept kept with
  | nil => rfl
  | cons visit history ih =>
    obtain ⟨ahead, orderedRest⟩ := List.pairwise_cons.mp ordered
    cases visit with
    | allow ip now =>
      rw [withoutSweeps, List.filter_cons_of_pos rfl, Limiter.decisions, Limiter.decisions,
        alike.allow_eq_allow limit sound,
        ih orderedRest (sound.allow limit ahead) (alike.allow limit sound), withoutSweeps]
    | sweep now =>
      exact ih orderedRest sound.tail (alike.sweep _ ahead)

theorem decisions_eq_withoutSweeps (limit : Nat) (ordered : Ordered history) :
    (minuteLimiter limit).decisions (fun _ => none) history =
      (minuteLimiter limit).decisions (fun _ => none) (withoutSweeps history) :=
  decisions_of_alike ordered (fun _ _ impossible => nomatch impossible) fun _ => .inl rfl

/-! ### The calls of a client -/

theorem callsOf_withoutSweeps (ip : Bytes) (history : List Visit) :
    callsOf ip (withoutSweeps history) = callsOf ip history := by
  unfold callsOf withoutSweeps
  rw [List.filterMap_filter]
  congr 1
  funext visit
  cases visit <;> rfl

theorem decisionsOf_withoutSweeps (limit : Nat) (ip : Bytes) (history : List Visit)
    (buckets : Buckets ℚ) :
    decisionsOf ip ((minuteLimiter limit).decisions buckets (withoutSweeps history)) =
      (minuteTank limit).serve elapsed ((buckets ip).map TokenBucket.level)
        (callsOf ip (withoutSweeps history)) := by
  induction history generalizing buckets with
  | nil => rfl
  | cons visit history ih =>
    cases visit with
    | allow other now =>
      have next := ih ((minuteLimiter limit).visit buckets (.allow other now))
      rw [withoutSweeps, List.filter_cons_of_pos rfl, Limiter.decisions, decisionsOf,
        List.filterMap_cons, callsOf, List.filterMap_cons]
      by_cases own : other = ip
      · subst own
        have called := allow_eq limit (buckets other) now
        have visited : (minuteLimiter limit).visit buckets (.allow other now) other =
          some ((minuteLimiter limit).allow (buckets other) now).2 := if_pos rfl
        rw [visited, Option.map_some, called.2] at next
        simp only [if_pos, Tank.serve]
        exact congrArg₂ List.cons (Prod.ext rfl called.1) next
      · have visited : (minuteLimiter limit).visit buckets (.allow other now) ip = buckets ip :=
          if_neg (Ne.symm own)
        rw [visited] at next
        simp only [if_neg own]
        exact next
    | sweep now =>
      exact ih buckets

/-- **The decisions on a client** are those of its own bucket and its own calls. -/
theorem decisionsOf_eq_serve (limit : Nat) (ordered : Ordered history) (ip : Bytes) :
    decisionsOf ip ((minuteLimiter limit).decisions (fun _ => none) history) =
      (minuteTank limit).serve elapsed none (callsOf ip history) := by
  rw [decisions_eq_withoutSweeps limit ordered, decisionsOf_withoutSweeps, callsOf_withoutSweeps]
  rfl

theorem pairwise_callsOf (ordered : Ordered history) (ip : Bytes) :
    (callsOf ip history).Pairwise (· ≤ ·) := by
  refine List.pairwise_filterMap.mpr (ordered.imp fun {earlier later} before first one second two => ?_)
  cases earlier with
  | sweep now => cases one
  | allow other now =>
    cases later with
    | sweep now => cases two
    | allow another time =>
      simp only [Option.ite_none_right_eq_some, Option.some.injEq] at one two
      rw [← one.2, ← two.2]
      exact before rfl

def isGranted (ip : Bytes) (first until_ : Time) (verdict : Verdict) : Bool :=
  verdict.ip = ip && Tank.isGrant first until_ (verdict.now, verdict.allowed)

theorem countP_decisionsOf (ip : Bytes) (first until_ : Time) (verdicts : List Verdict) :
    verdicts.countP (isGranted ip first until_) =
      (decisionsOf ip verdicts).countP (Tank.isGrant first until_) := by
  rw [decisionsOf, List.countP_filterMap]
  refine List.countP_congr fun verdict _ => ?_
  by_cases own : verdict.ip = ip
  · simp [isGranted, own]
  · simp [isGranted, own]

/-- **The limiter.** In any window of time a client is granted no more than `limit` calls and what
comes in meanwhile; its decisions depend on its own calls only; and sweeps change no decision. -/
theorem limiter_bounded (limit : Nat) (ordered : Ordered history) :
    (∀ ip first until_, first ≤ until_ →
      (((minuteLimiter limit).decisions (fun _ => none) history).countP (isGranted ip first until_) : ℚ) ≤
        limit + (until_ - first : ℚ) / 1000000000 * limit / 60) ∧
    (∀ ip other, Ordered other → callsOf ip other = callsOf ip history →
      decisionsOf ip ((minuteLimiter limit).decisions (fun _ => none) other) =
        decisionsOf ip ((minuteLimiter limit).decisions (fun _ => none) history)) ∧
    (∀ other, Ordered other → withoutSweeps other = withoutSweeps history →
      (minuteLimiter limit).decisions (fun _ => none) other =
        (minuteLimiter limit).decisions (fun _ => none) history) := by
  refine ⟨fun ip first until_ window => ?_, fun ip other orderedOther same => ?_,
    fun other orderedOther same => ?_⟩
  · have bound := (minuteTank limit).serve_window_le measures (pairwise_callsOf ordered ip)
      (Tank.sound_none _) window
    rw [← decisionsOf_eq_serve limit ordered, ← countP_decisionsOf] at bound
    refine bound.trans (le_of_eq ?_)
    show (limit : ℚ) + (position until_ - position first) * (limit / 60) = _
    unfold position
    ring
  · rw [decisionsOf_eq_serve limit orderedOther, decisionsOf_eq_serve limit ordered, same]
  · rw [decisions_eq_withoutSweeps limit orderedOther, decisions_eq_withoutSweeps limit ordered, same]

def threeCalls : List Visit :=
  [.allow (lit "198.51.100.7") 0, .allow (lit "198.51.100.7") 0, .sweep 700000000000,
    .allow (lit "198.51.100.7") 700000000000]

/-- With one call per minute the first and the last one are allowed, with the sweep and without. -/
theorem limiter_bounded_threeCalls :
    ((minuteLimiter 1).decisions (fun _ => none) threeCalls).map Verdict.allowed = [true, false, true] ∧
      (((minuteLimiter 1).decisions (fun _ => none) threeCalls).countP
        (isGranted (lit "198.51.100.7") 0 59000000000) : ℚ) ≤ 1 + 59 / 60 ∧
      (minuteLimiter 1).decisions (fun _ => none) threeCalls =
        (minuteLimiter 1).decisions (fun _ => none) (withoutSweeps threeCalls) := by
  have ordered : Ordered threeCalls := by
    unfold Ordered threeCalls
    decide
  obtain ⟨window, -, swept⟩ := limiter_bounded 1 ordered
  refine ⟨by decide +kernel, ?_, (swept _ ?_ ?_).symm⟩
  · have bound := window (lit "198.51.100.7") 0 59000000000 (by decide)
    linarith
  · unfold Ordered threeCalls
    decide
  · decide

end ExecRelay.Ingress
