/-
**Orders of one signal at the broker.**

The worker asks for an order again whenever it has no confirmation: up to four times in one call of
`Client.Execute`, and once more with every redelivery. Nothing in the request tells the broker that it
is the same order. So a signal is executed at most once (`AtMostOneOrder`) in the runs whose steps are
`Single`: the server executes what it confirms and nothing else, and a message is delivered again only
when the earlier deliveries of its trace id have ended without an order.
-/

import ExecRelay.DXTrade.Service
import ExecRelay.Lib.Attempts

namespace ExecRelay.DXTrade

open Lib
open Nats (Delivery)

variable {Number : Type}

/-! ### Orders -/

section Orders

variable (setup : Setup Number) (state : WorkerState Number)

def traceOf (index : Nat) : Option Bytes :=
  ((state.input index).bind fun msg => setup.codec.unmarshal msg.data).map Proto.Signal.traceId

/-- The orders that were executed for a trace id, as the threads that asked for them. -/
def ordersFor (traceID : Bytes) : List Nat :=
  state.world.executed.filter fun index => traceOf setup state index = some traceID

/-- **Every signal is executed at most once.** -/
def AtMostOneOrder : Prop :=
  ∀ traceID, (ordersFor setup state traceID).length ≤ 1

def isSpent (index : Nat) : Bool :=
  (state.threads[index]?.any fun thread => thread.program.isOver) &&
    !state.world.executed.contains index

/-- **The steps of a run without a second chance** for an order that was executed. -/
def isSingle : WorkerLabel Number → Bool
  | .begin msg =>
    match setup.codec.unmarshal msg.data with
    | none => true
    | some signal => (List.range state.threads.length).all fun index =>
      traceOf setup state index ≠ some signal.traceId || isSpent state index
  | .advance _ _ => true
  | .change _ => false

def Single (label : WorkerLabel Number) : Prop :=
  isSingle setup state label = true

instance (label : WorkerLabel Number) : Decidable (Single setup state label) :=
  inferInstanceAs (Decidable (_ = true))

end Orders

/-! ### Single runs -/

section Run

variable {setup : Setup Number} {state next : WorkerState Number} {label : WorkerLabel Number}

/-- **What holds in a single run.** -/
structure Accounted (setup : Setup Number) (state : WorkerState Number) : Prop where
  /-- Every order was confirmed to its thread. -/
  placed : ∀ index ∈ state.world.executed, ¬Unplaced (state.log index)
  distinct : state.world.executed.Nodup
  /-- Only the last thread of a trace id may still order, or has ordered. -/
  spent : ∀ first second traceID, first < second → traceOf setup state first = some traceID →
    traceOf setup state second = some traceID → isSpent state first = true

theorem atMostOneOrder_of_accounted (accounted : Accounted setup state) :
    AtMostOneOrder setup state := by
  intro traceID
  refine length_filter_le_one accounted.distinct accounted.spent ?_ traceID
  intro index member
  simp [isSpent, member]

variable {index : Nat} {traceID : Bytes}

theorem lt_of_traceOf (known : traceOf setup state index = some traceID) :
    index < state.threads.length := by
  obtain ⟨signal, found, -⟩ := Option.map_eq_some_iff.mp known
  obtain ⟨msg, given, -⟩ := Option.bind_eq_some_iff.mp found
  obtain ⟨thread, inside, -⟩ := Option.map_eq_some_iff.mp given
  exact (List.getElem?_eq_some_iff.mp inside).1

theorem traceOf_of_step (stepped : (machine setup).step state label = some next)
    (known : traceOf setup next index = some traceID) :
    traceOf setup state index = some traceID ∨
      ∃ msg signal, label = .begin msg ∧ setup.codec.unmarshal msg.data = some signal ∧
        signal.traceId = traceID ∧ index = state.threads.length := by
  obtain ⟨signal, found, rfl⟩ := Option.map_eq_some_iff.mp known
  obtain ⟨msg, given, decodes⟩ := Option.bind_eq_some_iff.mp found
  rcases Machine.input_of_step stepped given with old | ⟨begun, last⟩
  · exact .inl (by rw [traceOf, old, Option.bind_some, decodes, Option.map_some])
  · exact .inr ⟨msg, signal, begun, decodes, rfl, last⟩

/-- **Orders are executed by confirmed requests only**, one at a time. -/
theorem executed_of_serve {exchange after : Exchange} {thread : Nat} {op : Op Number}
    {answer : Answer op} (served : serve exchange thread op answer = some after) :
    after.executed = exchange.executed ∨
      (isPlaced ⟨op, answer⟩ = true ∧ after.executed = exchange.executed ++ [thread]) := by
  unfold serve at served
  split at served
  · split at served <;> cases served
    exact .inl rfl
  · cases served
    exact .inl rfl
  · rename_i answer
    cases served
    by_cases confirmed : isConfirmed answer = true
    · exact .inr ⟨confirmed, by rw [if_pos confirmed]⟩
    · exact .inl (by rw [if_neg confirmed])
  · cases served
    exact .inl rfl

variable {event : Event (Op Number) Answer}

theorem placed_op (placed : isPlaced event = true) :
    ∃ url token body, event.op = .http (.placeOrder url token body) := by
  unfold isPlaced at placed
  split at placed
  · exact ⟨_, _, _, rfl⟩
  · cases placed

variable {msg : Delivery}

theorem unplaced_of_call (reached : (machine setup).Reached (fun _ _ => True) {} state)
    {rest : Answer event.op → Worker Number Unit}
    (running : state.threads[index]? = some ⟨msg, .call event.op rest⟩)
    (placed : isPlaced event = true) : Unplaced (state.log index) := by
  have permitted := ((spec_dispatch setup msg).of_path
    (Machine.path_of_reaches reached index _ running)).1
  obtain ⟨url, token, body, order⟩ := placed_op placed
  rw [order] at permitted
  exact permitted

/-- **A message arrives** only if the earlier threads of its trace id are spent. -/
theorem spent_of_single {signal : Proto.Signal} (single : Single setup state (.begin msg))
    (decodes : setup.codec.unmarshal msg.data = some signal)
    (traced : traceOf setup state index = some signal.traceId) : isSpent state index = true := by
  simp only [Single, isSingle, decodes] at single
  have checked := List.all_eq_true.mp single index (List.mem_range.mpr (lt_of_traceOf traced))
  simpa [traced] using checked

theorem isSpent_step (single : Single setup state label)
    (stepped : (machine setup).step state label = some next) (spent : isSpent state index = true) :
    isSpent next index = true := by
  simp only [isSpent, Bool.and_eq_true, Option.any_eq_true, Bool.not_eq_true',
    List.contains_eq_mem, decide_eq_false_iff_not] at spent ⊢
  obtain ⟨⟨thread, found, ended⟩, absent⟩ := spent
  refine ⟨⟨thread, (Machine.over_step stepped found ended).1, ended⟩, ?_⟩
  rcases Machine.step_cases stepped with ⟨msg, world, rfl, arrived, rfl⟩ |
    ⟨other, answer, msg, op, rest, world, rfl, running, served, rfl⟩ | ⟨change, world, rfl, _, rfl⟩
  · cases arrived
    exact absent
  · have different : other ≠ index := by
      rintro rfl
      cases running.symm.trans found
      cases ended
    rw [Machine.State.record_world]
    rcases executed_of_serve served with same | ⟨-, longer⟩
    · rwa [same]
    · rw [longer]
      simp [absent, different.symm]
  · cases single

/-- **One step.** -/
theorem Accounted.step (reached : (machine setup).Reached (fun _ _ => True) {} state)
    (accounted : Accounted setup state) (single : Single setup state label)
    (stepped : (machine setup).step state label = some next) : Accounted setup next := by
  have spent : ∀ first second traceID, first < second → traceOf setup next first = some traceID →
      traceOf setup next second = some traceID → isSpent next first = true := by
    intro first second traceID before firstTraced secondTraced
    refine isSpent_step single stepped ?_
    rcases traceOf_of_step stepped firstTraced with firstOld | ⟨_, _, begun, _, _, firstLast⟩
    · rcases traceOf_of_step stepped secondTraced with secondOld | ⟨msg, signal, rfl, decodes, rfl, _⟩
      · exact accounted.spent first second traceID before firstOld secondOld
      · exact spent_of_single single decodes firstOld
    · -- the thread that has just begun is the last
      rcases traceOf_of_step stepped secondTraced with secondOld | ⟨_, _, _, _, _, secondLast⟩
      · have inside := lt_of_traceOf secondOld
        omega
      · omega
  rcases Machine.step_cases stepped with ⟨msg, world, rfl, arrived, rfl⟩ |
    ⟨index, answer, msg, op, rest, world, rfl, running, served, rfl⟩ | ⟨change, world, rfl, _, rfl⟩
  · cases arrived
    exact ⟨accounted.placed, accounted.distinct, spent⟩
  · -- what was logged before is still there
    have grown {other : Nat} (placed : ¬Unplaced (state.log other)) :
        ¬Unplaced ((state.record world index ⟨msg, rest (answer op)⟩ ⟨op, answer op⟩).log other) := by
      intro unplaced
      refine placed fun event member => unplaced event ?_
      exact Machine.mem_log_record.mpr (.inl member)
    rcases executed_of_serve served with same | ⟨placed, longer⟩
    · refine ⟨fun other member => ?_, ?_, spent⟩
      · rw [Machine.State.record_world, same] at member
        exact grown (accounted.placed other member)
      · rw [Machine.State.record_world, same]
        exact accounted.distinct
    · have first : Unplaced (state.log index) := unplaced_of_call reached running placed
      refine ⟨fun other member => ?_, ?_, spent⟩
      · rw [Machine.State.record_world, longer] at member
        rcases List.mem_append.mp member with old | last
        · exact grown (accounted.placed other old)
        · cases List.mem_singleton.mp last
          intro unplaced
          have logged := unplaced ⟨op, answer op⟩ (Machine.mem_log_record.mpr (.inr ⟨rfl, rfl⟩))
          rw [placed] at logged
          cases logged
      · rw [Machine.State.record_world, longer]
        refine accounted.distinct.append (List.nodup_singleton index) ?_
        rintro other old last
        cases List.mem_singleton.mp last
        exact accounted.placed index old first
  · cases single

theorem worker_reached (reached : (machine setup).Reached (Single setup) {} state) :
    (machine setup).Reached (fun _ _ => True) {} state :=
  reached.mono fun _ _ _ => trivial

/-- **In a single run every signal is executed at most once.** -/
theorem atMostOneOrder_of_single (reached : (machine setup).Reached (Single setup) {} state) :
    AtMostOneOrder setup state := by
  refine atMostOneOrder_of_accounted (reached.invariant ⟨nofun, List.nodup_nil, ?_⟩ ?_)
  · intro first second traceID _ firstTraced
    cases firstTraced
  · intro state label next before accounted single stepped
    exact accounted.step (worker_reached before) single stepped

end Run

/-! ### Two runs -/

def oneAccount : Setup ℚ where
  doubles := Doubles.exact
  newRequest := fun _ => none
  codec := Proto.Codec.standard
  instances := [⟨lit "desk", lit "dx.broker.test", lit "trader", lit "p4ss", lit "A-1"⟩]

def buySignal : Proto.Signal where
  traceId := lit "t1"
  licenseId := lit "60123456789"
  instanceId := lit "desk"
  command := lit "buy"
  rawCommand := lit "buy"
  symbol := lit "EURUSD"
  ingressRegion := []
  receivedUnixNano := 0
  bodySha256 := []
  params := [⟨lit "vol_lots", lit "1"⟩]

def delivered (signal : Proto.Signal) (count : Nat) : Delivery :=
  ⟨0, signal.encode, some count⟩

/-- The answers of a server that gives out the session `s1` and answers to orders with a status. -/
def replying (token : Bytes) (status : Nat) : (op : Op ℚ) → Answer op
  | .passBreaker _ => none
  | .report _ _ => ()
  | .readToken _ => token
  | .storeToken _ _ => ()
  | .http (.login _ _ _) => .ok ⟨200, .ok (lit "s1")⟩
  | .http (.placeOrder _ _ _) => .ok ⟨status, some (lit "4711")⟩
  | .http (.listPositions _ _) => .ok ⟨200, .ok []⟩
  | .http (.closePosition _ _) => .ok ⟨200, ()⟩
  | .http (.listOrders _ _) => .ok ⟨200, .ok []⟩
  | .http (.deleteOrder _ _) => .ok ⟨200, ()⟩
  | .publishFill _ _ => none
  | .dispose _ _ => ()

def refusing : (op : Op ℚ) → Answer op
  | .passBreaker _ => some (lit "circuit breaker is open")
  | op => replying [] 200 op

def firstOrder (thread status : Nat) : List (WorkerLabel ℚ) :=
  List.replicate 4 (.advance thread (replying [] status)) ++
    List.replicate 2 (.advance thread (replying (lit "s1") status))

/-- The message is delivered while the circuit breaker is open, and once more. -/
theorem atMostOneOrder_of_single_redelivered :
    ∃ state, (machine oneAccount).Reached (Single oneAccount) {} state ∧
      state.world.executed = [1] ∧ AtMostOneOrder oneAccount state := by
  have ran : (run (restrict (machine oneAccount).step (Single oneAccount)) { world := {} }
      (.begin (delivered buySignal 1) :: List.replicate 6 (.advance 0 refusing) ++
        .begin (delivered buySignal 2) :: firstOrder 1 201)).any
      (fun state => state.world.executed = [1]) = true := by
    decide +kernel
  obtain ⟨state, same, one⟩ := (Option.any_eq_true _ _).mp ran
  have reached := Reaches.of_restrict _ same
  exact ⟨state, reached, of_decide_eq_true one, atMostOneOrder_of_single reached⟩

/-- **An order is executed twice.** The server executes the first request and answers with the status
500; the second attempt of the same call is executed as well. -/
theorem not_atMostOneOrder_lostReply :
    ∃ state, (machine oneAccount).Reached (fun _ _ => True) {} state ∧
      ordersFor oneAccount state (lit "t1") = [0, 0] ∧ ¬AtMostOneOrder oneAccount state := by
  have ran : (run (machine oneAccount).step { world := {} }
      (.begin (delivered buySignal 1) :: firstOrder 0 500 ++ .change (.execute 0) ::
        List.replicate 4 (.advance 0 (replying (lit "s1") 201)))).any
      (fun state => ordersFor oneAccount state (lit "t1") = [0, 0]) = true := by
    decide +kernel
  obtain ⟨state, same, twice⟩ := (Option.any_eq_true _ _).mp ran
  have orders := of_decide_eq_true twice
  refine ⟨state, Reaches.of_run _ same, orders, fun once => ?_⟩
  have bounded := once (lit "t1")
  rw [orders] at bounded
  simp at bounded

end ExecRelay.DXTrade
