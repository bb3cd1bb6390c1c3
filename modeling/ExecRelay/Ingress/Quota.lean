/-
**The daily quota.**

A request of a license with a quota reads the clock and then counts itself under the date of the
reading (`limitQuota`); a sweep reads the clock and then deletes the counts of all other dates. Both read
before they take the lock, so that a sweep which comes late, or one that comes while a request of the day
before still waits, deletes a count that is needed. Requests are taken where they come to the quota, and
sweeps in two steps; the clock does not go back. If every deletion is `isPrompt`, no more than the quota
pass on any day:

* `limitQuota_cases`: a request reads the clock directly before it counts itself;
* `Kept`: a day that may still be counted has no more passes than its count says;
* `quota_of_prompt`: in every state of every such run no more than the quota have passed;
* `not_quota_midnight`: a sweep behind midnight lets one more pass.
-/

import ExecRelay.Ingress.Gates
import Mathlib.Data.List.Perm.Subperm

namespace ExecRelay.Ingress

open Lib
open Lib.Program (Path)

/-! ### The counter with its sweeps -/

/-- A request that has come to the quota of its license. -/
structure Metering where
  wctx : WebhookCtx
  licenseID : Bytes
  record : LicenseRecord

/-- The counter and the clock, and the readings of the sweeps that have not deleted yet. -/
structure Counter where
  hits : Hits := fun _ => 0
  clock : Time
  sweeps : List Time := []

inductive CounterChange
  | tick (clock : Time)
  /-- A sweep reads the clock. -/
  | readClock
  /-- The sweep of a reading holds the lock. -/
  | delete (reading : Time)

namespace Counter

variable (counter : Counter)

def serve : (op : Op) → Answer op → Option Counter
  | .now, answer => if answer = counter.clock then some counter else none
  | .increment licenseID now, answer =>
    let hits := counter.hits.increment licenseID now
    if answer = hits (counterKey licenseID now) then some { counter with hits := hits } else none
  | _, _ => some counter

def change : CounterChange → Option Counter
  | .tick clock => if counter.clock ≤ clock then some { counter with clock := clock } else none
  | .readClock => some { counter with sweeps := counter.sweeps ++ [counter.clock] }
  | .delete reading =>
    if reading ∈ counter.sweeps then
      some { counter with
        hits := counter.hits.cleanup reading
        sweeps := counter.sweeps.erase reading }
    else none

def machine : Machine Counter Metering CounterChange Op Answer WebhookCtx where
  start := fun metering => limitQuota metering.wctx metering.licenseID metering.record
  arrive := fun counter _ => some counter
  serve := fun counter _ op answer => counter.serve op answer
  change := change

end Counter

abbrev Metered.State := Machine.State Counter Metering Op Answer WebhookCtx

abbrev Metered.Label := Machine.Label Metering CounterChange Op Answer

/-! ### Requests that pass -/

def dayOf (now : Time) : Int :=
  now / 86400000000000

/-- The request of the license has read the clock on the day and was let through. -/
def isLetThrough (licenseID : Bytes) (day : Int) (log : Log)
    (thread : Machine.Thread Metering Op Answer WebhookCtx) : Bool :=
  thread.input.licenseID = licenseID &&
    (match thread.program with | .done () => true | _ => false) &&
    log.any fun event => match event with | ⟨.now, now⟩ => dayOf now = day | _ => false

section Counts

variable (state : Metered.State) (licenseID : Bytes) (quota : Int)

/-- The requests of a license that have passed the quota with a reading of the day. -/
def passes (day : Int) : Nat :=
  (List.range state.threads.length).countP fun index =>
    state.threads[index]?.any (isLetThrough licenseID day (state.log index))

def isSteady : Metered.Label → Bool
  | .begin metering => metering.licenseID ≠ licenseID || metering.record.maxSignalsPerDay = quota
  | _ => true

/-- The request has read the clock and not counted itself yet, on the day or for another license. -/
def isToday (day : Int) : Program Op Answer WebhookCtx Unit → Bool
  | .call (.increment license now) _ => license ≠ licenseID || dayOf now = day
  | _ => true

/-- **The deletions of a prompt sweep**: it is still the day of the reading, requests that have read
the clock the day before are counted, and the date has ten characters. -/
def isPrompt : Metered.Label → Bool
  | .change (.delete reading) =>
    dayOf reading = dayOf state.world.clock &&
      state.threads.all (fun thread => isToday licenseID (dayOf reading) thread.program) &&
      (formatDate reading).length = 10
  | _ => true

end Counts

def Steady (licenseID : Bytes) (quota : Int) (_ : Metered.State) (label : Metered.Label) : Prop :=
  isSteady licenseID quota label = true

/-- The quota of the license stays as it is, and sweeps are prompt. -/
def Prompt (licenseID : Bytes) (quota : Int) (state : Metered.State) (label : Metered.Label) : Prop :=
  isSteady licenseID quota label = true ∧ isPrompt state licenseID label = true

instance (licenseID : Bytes) (quota : Int) (state : Metered.State) (label : Metered.Label) :
    Decidable (Steady licenseID quota state label) :=
  inferInstanceAs (Decidable (_ = true))

instance (licenseID : Bytes) (quota : Int) (state : Metered.State) (label : Metered.Label) :
    Decidable (Prompt licenseID quota state label) :=
  inferInstanceAs (Decidable (_ = true ∧ _ = true))

/-! ### One request -/

def Uncounted : Op → Prop
  | .increment _ _ => False
  | _ => True

def Ahead : Program Op Answer WebhookCtx Unit → Prop
  | .call op _ => Uncounted op
  | _ => True

/-- **A request reads the clock directly before it counts itself**, and is let through if its record
allows the count. -/
theorem limitQuota_cases {wctx : WebhookCtx} {licenseID : Bytes} {record : LicenseRecord} {log : Log}
    {rest : Handling Unit} (path : (limitQuota wctx licenseID record).Path log rest) :
    (log = [] ∧ Ahead rest) ∨
      ∃ now, (log = [⟨.now, now⟩] ∧ ∃ next, rest = .call (.increment licenseID now) next) ∨
        ∃ count behind, log = ⟨.now, now⟩ :: ⟨.increment licenseID now, count⟩ :: behind ∧
          (∀ event ∈ behind, Uncounted event.op ∧ event.op ≠ .now) ∧ Ahead rest ∧
          (rest = .done () → (count : Int) ≤ record.maxSignalsPerDay) := by
  unfold limitQuota at path
  split at path
  · obtain ⟨rfl, rfl⟩ | ⟨now, later, rfl, counting⟩ := Path.of_call path
    · exact .inl ⟨rfl, trivial⟩
    · obtain ⟨rfl, rfl⟩ | ⟨count, later, rfl, ending⟩ := Path.of_call counting
      · exact .inr ⟨now, .inl ⟨rfl, _, rfl⟩⟩
      · refine .inr ⟨now, .inr ⟨count, later, rfl, ?_⟩⟩
        change (refuseIf (record.maxSignalsPerDay < count) _).Path later rest at ending
        unfold refuseIf at ending
        split at ending
        · obtain ⟨rfl, rfl⟩ | ⟨_, later, rfl, failing⟩ := Path.of_call ending
          · exact ⟨fun _ member => absurd member List.not_mem_nil, trivial, fun same => nomatch same⟩
          · obtain ⟨rfl, rfl⟩ := Path.of_fail failing
            refine ⟨fun event member => ?_, trivial, fun same => nomatch same⟩
            rw [List.mem_singleton.mp member]
            exact ⟨trivial, fun same => nomatch same⟩
        · rename_i within
          obtain ⟨rfl, rfl⟩ := Path.of_done ending
          rw [decide_eq_true_eq, Int.not_lt] at within
          exact ⟨fun _ member => absurd member List.not_mem_nil, trivial, fun _ => within⟩
  · obtain ⟨rfl, rfl⟩ := Path.of_done path
    exact .inl ⟨rfl, trivial⟩

theorem read_of_path {wctx : WebhookCtx} {licenseID license : Bytes} {record : LicenseRecord} {log : Log}
    {now : Time} {next : Nat → Handling Unit}
    (path : (limitQuota wctx licenseID record).Path log (.call (.increment license now) next)) :
    log = [⟨.now, now⟩] := by
  obtain ⟨-, ahead⟩ | ⟨read, ⟨rfl, _, same⟩ | ⟨_, _, -, -, ahead, -⟩⟩ := limitQuota_cases path
  · exact ahead.elim
  · cases same
    rfl
  · exact ahead.elim

/-! ### Counts -/

theorem formatDate_congr {now other : Time} (same : dayOf now = dayOf other) :
    formatDate now = formatDate other := by
  unfold dayOf at same
  unfold formatDate
  rw [same]

theorem counterKey_congr (licenseID : Bytes) {now other : Time} (same : dayOf now = dayOf other) :
    counterKey licenseID now = counterKey licenseID other := by
  rw [counterKey, formatDate_congr same, counterKey]

theorem cleanup_of_today (hits : Hits) (licenseID : Bytes) {now reading : Time}
    (today : dayOf now = dayOf reading) (ten : (formatDate reading).length = 10) :
    hits.cleanup reading (counterKey licenseID now) = hits (counterKey licenseID now) := by
  have date : (counterKey licenseID now).drop ((counterKey licenseID now).length - 10) =
      formatDate reading := by
    rw [counterKey, formatDate_congr today, List.length_append, ten, Nat.add_sub_cancel]
    exact List.drop_left
  rw [Hits.cleanup, if_neg]
  rintro ⟨-, different⟩
  exact different date

theorem le_increment (hits : Hits) (licenseID : Bytes) (now : Time) (key : Bytes) :
    hits key ≤ hits.increment licenseID now key := by
  unfold Hits.increment
  split
  · exact Nat.le_succ _
  · exact Nat.le_refl _

theorem increment_self (hits : Hits) (licenseID : Bytes) (now : Time) :
    hits.increment licenseID now (counterKey licenseID now) = hits (counterKey licenseID now) + 1 :=
  if_pos rfl

/-- A call that counts a request of the license on the day, within the quota. -/
def isPass (licenseID : Bytes) (quota day : Int) : Event Op Answer → Bool
  | ⟨.increment license now, count⟩ =>
    license = licenseID && dayOf now = day && (count : Int) ≤ quota
  | _ => false

theorem isPass_of_uncounted {licenseID : Bytes} {quota day : Int} {event : Event Op Answer}
    (uncounted : Uncounted event.op) : isPass licenseID quota day event = false := by
  obtain ⟨op, answer⟩ := event
  cases op with
  | increment license now => exact uncounted.elim
  | _ => rfl

theorem isPass_iff {licenseID license : Bytes} {quota day : Int} {now : Time} {count : Nat} :
    isPass licenseID quota day ⟨.increment license now, count⟩ = true ↔
      license = licenseID ∧ dayOf now = day ∧ (count : Int) ≤ quota := by
  simp [isPass, and_assoc]

/-- **What a call does to the counter.** -/
theorem serve_counter {counter next : Counter} {op : Op} {answer : Answer op}
    (served : counter.serve op answer = some next) :
    next.clock = counter.clock ∧
      ((∃ license now, (⟨op, answer⟩ : Event Op Answer) =
          ⟨.increment license now, next.hits (counterKey license now)⟩ ∧
          next.hits = counter.hits.increment license now) ∨
        Uncounted op ∧ next.hits = counter.hits) := by
  cases op with
  | increment license now =>
    obtain ⟨rfl, same⟩ := Option.ite_none_right_eq_some.mp served
    cases same
    exact ⟨rfl, .inl ⟨license, now, rfl, rfl⟩⟩
  | now =>
    obtain ⟨-, same⟩ := Option.ite_none_right_eq_some.mp served
    cases same
    exact ⟨rfl, .inr ⟨trivial, rfl⟩⟩
  | _ =>
    cases served
    exact ⟨rfl, .inr ⟨trivial, rfl⟩⟩

/-! ### Prompt runs -/

section Run

variable {licenseID : Bytes} {quota : Int} {first : Counter} {state : Metered.State}
  {allowed : Metered.State → Metered.Label → Prop} {index : Nat} {metering : Metering}

/-- The calls that have counted a request on the day, within the quota. -/
def granted (state : Metered.State) (licenseID : Bytes) (quota day : Int) : Nat :=
  state.history.countP fun entry => isPass licenseID quota day entry.event

/-- A request of the license has read the clock on the day and is not counted yet. -/
def Waits (state : Metered.State) (licenseID : Bytes) (day : Int) : Prop :=
  ∃ (index : Nat) (metering : Metering) (now : Time) (rest : Nat → Handling Unit),
    state.threads[index]? = some ⟨metering, .call (.increment licenseID now) rest⟩ ∧ dayOf now = day

def Agrees (today : Int) : Event Op Answer → Prop
  | ⟨.now, now⟩ => dayOf now ≤ today
  | ⟨.increment _ now, _⟩ => dayOf now ≤ today
  | _ => True

/-- **What holds in a prompt run.** -/
structure Kept (licenseID : Bytes) (quota : Int) (state : Metered.State) : Prop where
  fixed : ∀ thread ∈ state.threads, thread.input.licenseID = licenseID →
    thread.input.record.maxSignalsPerDay = quota
  agrees : ∀ entry ∈ state.history, Agrees (dayOf state.world.clock) entry.event
  within : ∀ day, granted state licenseID quota day ≤ quota
  /-- A day on which a request may still be counted has no more passes than its count. -/
  counted : ∀ now, dayOf state.world.clock ≤ dayOf now ∨ Waits state licenseID (dayOf now) →
    granted state licenseID quota (dayOf now) ≤ state.world.hits (counterKey licenseID now)

theorem Agrees.later {today later : Int} {event : Event Op Answer} (agrees : Agrees today event)
    (ahead : today ≤ later) : Agrees later event := by
  obtain ⟨op, answer⟩ := event
  cases op with
  | now => exact le_trans (show dayOf answer ≤ today from agrees) ahead
  | increment license now => exact le_trans (show dayOf now ≤ today from agrees) ahead
  | _ => trivial

theorem granted_record {counter : Counter} {thread : Machine.Thread Metering Op Answer WebhookCtx}
    {event : Event Op Answer} (day : Int) :
    granted (state.record counter index thread event) licenseID quota day =
      granted state licenseID quota day + if isPass licenseID quota day event then 1 else 0 := by
  rw [granted, Machine.State.record, List.countP_append, List.countP_singleton]
  rfl

theorem waits_of_spawn {day : Int} {counter : Counter}
    (waits : Waits (state.spawn counter ⟨metering, Counter.machine.start metering⟩) licenseID day) :
    Waits state licenseID day := by
  obtain ⟨index, other, now, rest, found, today⟩ := waits
  rcases Machine.getElem?_spawn found with old | ⟨-, same⟩
  · exact ⟨index, other, now, rest, old, today⟩
  · injection same with same begins
    have path : (Counter.machine.start metering).Path [] (.call (.increment licenseID now) rest) := by
      rw [begins]
      exact Path.start
    cases read_of_path path

theorem waits_of_record {op : Op} {rest : Answer op → Handling Unit} {answer : Answer op} {day : Int}
    {counter : Counter} (reached : Counter.machine.Reached allowed first state)
    (found : state.threads[index]? = some ⟨metering, .call op rest⟩)
    (waits : Waits (state.record counter index ⟨metering, rest answer⟩ ⟨op, answer⟩) licenseID day) :
    Waits state licenseID day ∨
      ∃ now, (⟨op, answer⟩ : Event Op Answer) = ⟨.now, now⟩ ∧ dayOf now = day := by
  obtain ⟨other, given, now, left, waiting, today⟩ := waits
  rcases Machine.getElem?_record found waiting with ⟨rfl, same⟩ | ⟨-, old⟩
  · injection same with same left
    have path := (Machine.path_of_reaches reached index _ found).step answer
    rw [← left] at path
    have last : state.log index ++ [⟨op, answer⟩] = [] ++ [⟨.now, now⟩] := read_of_path path
    exact .inr ⟨now, List.singleton_inj.mp (List.append_inj' last rfl).2, today⟩
  · exact .inl ⟨other, given, now, left, old, today⟩

theorem Kept.waits_le {license : Bytes} {now : Time} {rest : Nat → Handling Unit}
    (kept : Kept licenseID quota state) (reached : Counter.machine.Reached allowed first state)
    (found : state.threads[index]? = some ⟨metering, .call (.increment license now) rest⟩) :
    dayOf now ≤ dayOf state.world.clock := by
  have read := read_of_path (Machine.path_of_reaches reached index _ found)
  have member : ⟨.now, now⟩ ∈ state.log index := by
    rw [read]
    exact List.mem_singleton_self _
  exact kept.agrees _ (Machine.mem_log.mp member)

theorem Kept.spawn (kept : Kept licenseID quota state)
    (steady : isSteady licenseID quota (.begin metering) = true) :
    Kept licenseID quota (state.spawn state.world ⟨metering, Counter.machine.start metering⟩) where
  fixed := fun thread member named => by
    rcases List.mem_append.mp member with earlier | last
    · exact kept.fixed thread earlier named
    · cases List.mem_singleton.mp last
      exact (by simpa [isSteady] using steady : metering.licenseID ≠ licenseID ∨ _).resolve_left
        (not_not_intro named)
  agrees := kept.agrees
  within := kept.within
  counted := fun now open_ => kept.counted now (open_.imp_right waits_of_spawn)

/-- **A call keeps the counts.** -/
theorem Kept.record {op : Op} {rest : Answer op → Handling Unit} {answer : Answer op}
    {counter : Counter} (kept : Kept licenseID quota state)
    (reached : Counter.machine.Reached allowed first state)
    (running : state.threads[index]? = some ⟨metering, .call op rest⟩)
    (served : state.world.serve op answer = some counter) :
    Kept licenseID quota (state.record counter index ⟨metering, rest answer⟩ ⟨op, answer⟩) := by
  obtain ⟨clock, hits⟩ := serve_counter served
  have open_ {now : Time} (may : dayOf counter.clock ≤ dayOf now ∨ Waits (state.record counter index
      ⟨metering, rest answer⟩ ⟨op, answer⟩) licenseID (dayOf now)) :
      granted state licenseID quota (dayOf now) ≤ state.world.hits (counterKey licenseID now) := by
    refine kept.counted now ?_
    rcases may with ahead | waits
    · exact .inl (clock ▸ ahead)
    · rcases waits_of_record reached running waits with old | ⟨read, same, today⟩
      · exact .inr old
      · cases same
        rw [← (Option.ite_none_right_eq_some.mp served).1]
        exact .inl today.le
  refine ⟨fun thread member => ?_, fun entry member => ?_, ?_, ?_⟩
  · rcases List.mem_or_eq_of_mem_set member with old | rfl
    · exact kept.fixed thread old
    · exact kept.fixed ⟨metering, .call op rest⟩ (List.mem_of_getElem? running)
  · show Agrees (dayOf counter.clock) entry.event
    rw [clock]
    rcases List.mem_append.mp member with earlier | last
    · exact kept.agrees entry earlier
    · rw [List.mem_singleton.mp last]
      cases op with
      | now => exact (congrArg dayOf (Option.ite_none_right_eq_some.mp served).1).le
      | increment license now => exact kept.waits_le reached running
      | _ => trivial
  · intro day
    have before := kept.within day
    rw [granted_record]
    rcases hits with ⟨license, now, same, hits⟩ | ⟨uncounted, -⟩
    · rw [same]
      split
      · rename_i passes
        obtain ⟨rfl, rfl, count⟩ := isPass_iff.mp passes
        cases same
        have waiting := kept.counted now (.inr ⟨index, metering, now, rest, running, rfl⟩)
        rw [hits, increment_self] at count
        omega
      · omega
    · rw [isPass_of_uncounted uncounted]
      simpa using before
  · intro now may
    have before := open_ may
    rw [granted_record]
    show _ ≤ counter.hits (counterKey licenseID now)
    rcases hits with ⟨license, read, same, hits⟩ | ⟨uncounted, hits⟩
    · rw [same, hits]
      split
      · rename_i passes
        obtain ⟨rfl, today, -⟩ := isPass_iff.mp passes
        rw [← counterKey_congr license today, increment_self, counterKey_congr license today]
        omega
      · exact before.trans (le_increment ..)
    · rw [isPass_of_uncounted uncounted, hits]
      exact before

theorem Kept.tick {clock : Time} (kept : Kept licenseID quota state) (ahead : state.world.clock ≤ clock) :
    Kept licenseID quota { state with world := { state.world with clock := clock } } := by
  have later : dayOf state.world.clock ≤ dayOf clock := Int.ediv_le_ediv (by decide) ahead
  refine ⟨kept.fixed, fun entry member => (kept.agrees entry member).later later, kept.within, ?_⟩
  intro now may
  exact kept.counted now (may.imp_left later.trans)

theorem Kept.granted_of_lt {day : Int} (kept : Kept licenseID quota state)
    (ahead : dayOf state.world.clock < day) : granted state licenseID quota day = 0 := by
  refine List.countP_eq_zero.mpr fun entry member passes => ?_
  have agrees := kept.agrees entry member
  obtain ⟨index, op, answer⟩ := entry
  cases op with
  | increment license now =>
    obtain ⟨-, rfl, -⟩ := isPass_iff.mp passes
    exact absurd agrees (not_le.mpr ahead)
  | _ => cases passes

/-- A prompt sweep deletes counts of past days only, on which nobody is counted any more. -/
theorem Kept.delete {reading : Time} {sweeps : List Time} (kept : Kept licenseID quota state)
    (prompt : isPrompt state licenseID (.change (.delete reading)) = true) :
    Kept licenseID quota { state with
      world := { state.world with hits := state.world.hits.cleanup reading, sweeps := sweeps } } := by
  simp only [isPrompt, Bool.and_eq_true, decide_eq_true_eq, List.all_eq_true] at prompt
  obtain ⟨⟨today, waiting⟩, ten⟩ := prompt
  refine ⟨kept.fixed, kept.agrees, kept.within, ?_⟩
  intro now may
  have ahead : dayOf state.world.clock ≤ dayOf now := by
    rcases may with ahead | ⟨index, metering, read, rest, found, same⟩
    · exact ahead
    · have fine := waiting _ (List.mem_of_getElem? found)
      simp only [isToday, ne_eq, not_true_eq_false, decide_false, Bool.false_or,
        decide_eq_true_eq] at fine
      rw [← same, fine, today]
  show granted state licenseID quota (dayOf now) ≤
    state.world.hits.cleanup reading (counterKey licenseID now)
  rcases ahead.lt_or_eq with later | same
  · rw [kept.granted_of_lt later]
    exact Nat.zero_le _
  · rw [cleanup_of_today _ _ (same.symm.trans today.symm) ten]
    exact kept.counted now (.inl ahead)

/-- **A change keeps the counts**, if sweeps are prompt. -/
theorem Kept.change {change : CounterChange} {counter : Counter} (kept : Kept licenseID quota state)
    (prompt : isPrompt state licenseID (.change change) = true)
    (changed : state.world.change change = some counter) :
    Kept licenseID quota { state with world := counter } := by
  cases change with
  | readClock =>
    cases changed
    exact { kept with }
  | delete reading =>
    obtain ⟨-, same⟩ := Option.ite_none_right_eq_some.mp changed
    cases same
    exact kept.delete prompt
  | tick clock =>
    obtain ⟨ahead, same⟩ := Option.ite_none_right_eq_some.mp changed
    cases same
    exact kept.tick ahead

theorem kept_of_reaches {clock : Time} (positive : 0 ≤ quota)
    (reached : Counter.machine.Reached (Prompt licenseID quota) { clock := clock } state) :
    Kept licenseID quota state := by
  refine reached.invariant ?_ ?_
  · exact ⟨fun _ member => absurd member List.not_mem_nil,
      fun _ member => absurd member List.not_mem_nil, fun _ => positive, fun _ _ => Nat.zero_le _⟩
  · intro state label next reached kept prompt stepped
    rcases Machine.step_cases stepped with ⟨metering, after, rfl, arrives, rfl⟩ |
      ⟨index, answer, metering, op, rest, after, -, running, served, rfl⟩ |
      ⟨change, after, rfl, changed, rfl⟩
    · cases arrives
      exact kept.spawn prompt.1
    · exact kept.record reached running served
    · exact kept.change prompt.2 changed

theorem Kept.passes_le (kept : Kept licenseID quota state)
    (reached : Counter.machine.Reached allowed first state) (day : Int) :
    passes state licenseID day ≤ granted state licenseID quota day := by
  rw [passes, granted, List.countP_eq_length_filter, List.countP_eq_length_filter,
    ← List.length_map Machine.Entry.thread]
  refine (List.subperm_of_subset (List.nodup_range.filter _) fun index member => ?_).length_le
  obtain ⟨-, through⟩ := List.mem_filter.mp member
  obtain ⟨⟨metering, program⟩, found, through⟩ := (Option.any_eq_true _ _).mp through
  simp only [isLetThrough, Bool.and_eq_true, decide_eq_true_eq] at through
  obtain ⟨⟨rfl, ended⟩, read⟩ := through
  obtain ⟨⟨op, answer⟩, inside, isRead⟩ := List.any_eq_true.mp read
  have fixed := kept.fixed _ (List.mem_of_getElem? found) rfl
  obtain ⟨empty, -⟩ | ⟨now, ⟨-, _, same⟩ | ⟨count, behind, parts, others, -, allows⟩⟩ :=
    limitQuota_cases (Machine.path_of_reaches reached index _ found)
  · rw [empty] at inside
    cases inside
  · rw [show program = _ from same] at ended
    cases ended
  · have done : program = .done () := by
      cases program with
      | done result => rfl
      | _ => cases ended
    have today : dayOf now = day := by
      rw [parts, List.mem_cons, List.mem_cons] at inside
      rcases inside with same | same | later
      · cases same
        exact of_decide_eq_true isRead
      · cases same
        cases isRead
      · cases op with
        | now => exact absurd rfl (others _ later).2
        | _ => cases isRead
    have counted : ⟨.increment metering.licenseID now, count⟩ ∈ state.log index := by
      rw [parts]
      exact List.mem_cons_of_mem _ (List.mem_cons_self ..)
    exact List.mem_map.mpr ⟨_, List.mem_filter.mpr ⟨Machine.mem_log.mp counted,
      isPass_iff.mpr ⟨rfl, today, fixed ▸ allows done⟩⟩, rfl⟩

/-- **The quota holds in every prompt run**: on no day do more requests pass. -/
theorem quota_of_prompt {clock : Time} (positive : 0 < quota)
    (reached : Counter.machine.Reached (Prompt licenseID quota) { clock := clock } state) (day : Int) :
    passes state licenseID day ≤ quota := by
  have kept := kept_of_reaches positive.le reached
  have counted := kept.passes_le reached day
  have within := kept.within day
  omega

end Run

/-! ### Around midnight -/

def onePerDay : Metering where
  wctx := { requestID := [] }
  licenseID := lit "60123456789"
  record := { licenseID := lit "60123456789", instanceID := [], maxSignalsPerDay := 1 }

def evening : Time := 1700006399900000000

def midnight : Time := 1700006400000000000

/-- The answers to a request that reads the clock in the evening, with its count. -/
def quotaAnswers (count : Nat) : (op : Op) → Answer op
  | .now => evening
  | .increment _ _ => count
  | op => obliging op

def sweepSteps (clock : Time) : List Metered.Label :=
  [.change .readClock, .change (.delete clock)]

/-- Two requests that have read the clock before midnight. The first is counted. -/
def twoRequests : List Metered.Label :=
  [.begin onePerDay, .begin onePerDay, .advance 0 (quotaAnswers 1), .advance 1 (quotaAnswers 1),
    .advance 0 (quotaAnswers 1)]

/-- A sweep on the same day leaves the count, and the second request is one too many. The count of the
day is deleted behind midnight. -/
theorem quota_of_prompt_twoRequests :
    ∃ state, Counter.machine.Reached (Prompt (lit "60123456789") 1) { clock := evening } state ∧
      state.world.hits (counterKey (lit "60123456789") evening) = 0 ∧
      passes state (lit "60123456789") 19675 = 1 ∧
      passes state (lit "60123456789") 19675 ≤ 1 := by
  have ran : (run (restrict Counter.machine.step (Prompt (lit "60123456789") 1))
      { world := { clock := evening } } (twoRequests ++ sweepSteps evening ++
        [.advance 1 (quotaAnswers 2), .change (.tick midnight)] ++ sweepSteps midnight)).any
      (fun state => state.world.hits (counterKey (lit "60123456789") evening) = 0 &&
        passes state (lit "60123456789") 19675 = 1) = true := by
    decide +kernel
  obtain ⟨state, same, facts⟩ := (Option.any_eq_true _ _).mp ran
  rw [Bool.and_eq_true, decide_eq_true_eq, decide_eq_true_eq] at facts
  have reached := Reaches.of_restrict _ same
  exact ⟨state, reached, facts.1, facts.2,
    Int.ofNat_le.mp (quota_of_prompt (by decide) reached 19675)⟩

/-- **A sweep behind midnight lets one more pass.** The second request has read the clock before
midnight and is counted behind the sweep, which has deleted the count of that day. -/
theorem not_quota_midnight :
    ∃ state, Counter.machine.Reached (Steady (lit "60123456789") 1) { clock := evening } state ∧
      ¬ (passes state (lit "60123456789") 19675 : Int) ≤ 1 := by
  have ran : (run (restrict Counter.machine.step (Steady (lit "60123456789") 1))
      { world := { clock := evening } } (twoRequests ++ [.change (.tick midnight)] ++
        sweepSteps midnight ++ [.advance 1 (quotaAnswers 1)])).any
      (fun state => passes state (lit "60123456789") 19675 = 2) = true := by
    decide +kernel
  obtain ⟨state, same, facts⟩ := (Option.any_eq_true _ _).mp ran
  rw [decide_eq_true_eq] at facts
  refine ⟨state, Reaches.of_restrict _ same, ?_⟩
  rw [facts]
  decide

end ExecRelay.Ingress
