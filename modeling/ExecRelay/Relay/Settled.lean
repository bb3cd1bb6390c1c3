/-
**What becomes of an accepted signal.**

The bridge and the DXTrade worker take signals from the stream and dispose of them. A signal is
`Settled` if it was written to a terminal, if `Client.Execute` has returned a result for it, or if a
fill with its trace id was published. No signal is dropped (`NothingDropped`) if every message that is
acknowledged or terminated is settled.

The bridge terminates a message with its eleventh delivery, whether or not any of them was written; so
does the worker, which also terminates a signal at once that is no command of its account. Nothing is
reported in either case. `Heard` are the steps of the runs in which neither happens to a signal that is
not settled already.
-/

import ExecRelay.Bridge.Service
import ExecRelay.DXTrade.Orders

namespace ExecRelay.Relay

open Lib
open Lib.Program (Spec)
open Nats (Delivery Disposal)
open Bridge (BridgeState BridgeLabel signalMsg)
open DXTrade (WorkerState WorkerLabel Returned isGivenUp)

variable {Number : Type}

/-! ### The two consumers -/

/-- The bridge and the worker. -/
structure Consumers (Number : Type) where
  bridge : BridgeState := { world := {} }
  dxtrade : WorkerState Number := { world := {} }

inductive ConsumersLabel (Number : Type)
  | bridge (label : BridgeLabel)
  | dxtrade (label : WorkerLabel Number)

section Definitions

variable (config : Bridge.Config) (setup : DXTrade.Setup Number)

def Consumers.step (state : Consumers Number) : ConsumersLabel Number → Option (Consumers Number)
  | .bridge label =>
    ((Bridge.machine config).step state.bridge label).map fun bridge =>
      { state with bridge := bridge }
  | .dxtrade label =>
    ((DXTrade.machine setup).step state.dxtrade label).map fun dxtrade =>
      { state with dxtrade := dxtrade }

variable (state : Consumers Number)

def Written (signal : Proto.Signal) : Prop :=
  ∃ index conn, (⟨.write conn (.signal (signalMsg signal)), none⟩ :
    Event Bridge.Op Bridge.Answer) ∈ state.bridge.log index

def Executed (signal : Proto.Signal) : Prop :=
  ∃ index msg, state.dxtrade.input index = some msg ∧
    setup.codec.unmarshal msg.data = some signal ∧ Returned setup signal (state.dxtrade.log index)

def fillSubject (instanceID traceID : Bytes) : Bytes :=
  lit "fills." ++ instanceID ++ lit "." ++ traceID

/-- A fill with the trace id was published, by a terminal or by the worker. -/
def Reported (traceID : Bytes) : Prop :=
  (∃ index instanceID raw, ⟨.publish (fillSubject instanceID traceID) (.fill raw), none⟩ ∈ state.bridge.log index) ∨
  ∃ index instanceID result, (⟨.publishFill (fillSubject instanceID traceID) ⟨traceID, result⟩, none⟩ :
    Event (DXTrade.Op Number) DXTrade.Answer) ∈ state.dxtrade.log index

def Settled (signal : Proto.Signal) : Prop :=
  Written state signal ∨ Executed setup state signal ∨ Reported state signal.traceId

def Disposed (signal : Proto.Signal) : Prop :=
  (∃ index msg disposal, state.bridge.input index = some (.deliver msg) ∧
    config.codec.unmarshal msg.data = some signal ∧ disposal ≠ Disposal.nak ∧
    ⟨.dispose disposal, ()⟩ ∈ state.bridge.log index) ∨
  ∃ index msg sequence disposal, state.dxtrade.input index = some msg ∧
    setup.codec.unmarshal msg.data = some signal ∧ disposal ≠ Disposal.nak ∧
    (⟨.dispose sequence disposal, ()⟩ : Event (DXTrade.Op Number) DXTrade.Answer) ∈
      state.dxtrade.log index

/-- **No signal is dropped.** -/
def NothingDropped : Prop :=
  ∀ signal, Disposed config setup state signal → Settled setup state signal

/-- **The steps of a run in which no signal goes unheard**: a message that will be given up carries a
signal that is settled. -/
def Heard : ConsumersLabel Number → Prop
  | .bridge (.begin (.deliver msg)) => ∀ signal, config.codec.unmarshal msg.data = some signal →
      msg.isWornOut = true → Settled setup state signal
  | .dxtrade (.begin msg) => ∀ signal, setup.codec.unmarshal msg.data = some signal →
      isGivenUp setup msg signal = true → Settled setup state signal
  | _ => True

end Definitions

section Run

variable {config : Bridge.Config} {setup : DXTrade.Setup Number} {state next : Consumers Number}
  {label : ConsumersLabel Number}

/-- **What a step can do.** -/
theorem step_cases (stepped : Consumers.step config setup state label = some next) :
    (∃ inner after, label = .bridge inner ∧ (Bridge.machine config).step state.bridge inner = some after ∧
      next = { state with bridge := after }) ∨
    (∃ inner after, label = .dxtrade inner ∧
      (DXTrade.machine setup).step state.dxtrade inner = some after ∧
      next = { state with dxtrade := after }) := by
  cases label with
  | bridge inner =>
    obtain ⟨after, moved, same⟩ := Option.map_eq_some_iff.mp stepped
    exact .inl ⟨inner, after, rfl, moved, same.symm⟩
  | dxtrade inner =>
    obtain ⟨after, moved, same⟩ := Option.map_eq_some_iff.mp stepped
    exact .inr ⟨inner, after, rfl, moved, same.symm⟩

/-! ### What is settled stays settled -/

theorem Settled.step {signal : Proto.Signal} (settled : Settled setup state signal)
    (stepped : Consumers.step config setup state label = some next) : Settled setup next signal := by
  rcases step_cases stepped with ⟨inner, after, -, moved, rfl⟩ | ⟨inner, after, -, moved, rfl⟩
  · rcases settled with ⟨index, conn, member⟩ | executed | ⟨index, instanceID, raw, member⟩ | reported
    · exact .inl ⟨index, conn, Machine.mem_log_step moved member⟩
    · exact .inr (.inl executed)
    · exact .inr (.inr (.inl ⟨index, instanceID, raw, Machine.mem_log_step moved member⟩))
    · exact .inr (.inr (.inr reported))
  · rcases settled with written | ⟨index, msg, given, decodes, returned⟩ | reported |
      ⟨index, instanceID, result, member⟩
    · exact .inl written
    · obtain ⟨more, longer⟩ := Machine.log_step moved index
      refine .inr (.inl ⟨index, msg, Machine.input_step moved given, decodes, ?_⟩)
      rw [longer]
      exact returned.append more
    · exact .inr (.inr (.inl reported))
    · exact .inr (.inr (.inr ⟨index, instanceID, result, Machine.mem_log_step moved member⟩))

/-! ### What the dispatchers do before they dispose of a message -/

/-- What the log of the bridge must show if a message is disposed of for good. -/
def Finished (config : Bridge.Config) (msg : Delivery) (log : Bridge.Log) : Prop :=
  ∀ signal, config.codec.unmarshal msg.data = some signal → msg.isWornOut = true ∨
    ∃ conn, (⟨.write conn (.signal (signalMsg signal)), none⟩ :
      Event Bridge.Op Bridge.Answer) ∈ log

def Permitted (config : Bridge.Config) (msg : Delivery) : Bridge.Op → Bridge.Log → Prop
  | .dispose disposal, log => disposal = .nak ∨ Finished config msg log
  | _, _ => True

theorem spec_dispatch (msg : Delivery) :
    (Bridge.dispatch config msg).Spec (Permitted config msg) (fun _ _ => True) [] := by
  unfold Bridge.dispatch
  split
  · rename_i wornOut
    exact ⟨.inr fun _ _ => .inl wornOut, fun _ => trivial⟩
  · cases decodes : config.codec.unmarshal msg.data with
    | none =>
      refine ⟨.inr fun signal decoded => ?_, fun _ => trivial⟩
      cases decodes.symm.trans decoded
    | some signal =>
      refine ⟨trivial, fun found => ?_⟩
      cases found with
      | none => exact ⟨.inl rfl, fun _ => trivial⟩
      | some conn =>
        refine ⟨trivial, fun error => ?_⟩
        cases error with
        | some _ => exact ⟨.inl rfl, fun _ => trivial⟩
        | none =>
          refine ⟨.inr fun other decoded => .inr ⟨conn, ?_⟩, fun _ => trivial⟩
          cases decodes.symm.trans decoded
          simp

/-! ### Heard runs -/

/-- A message that will be given up carries a signal that is settled. -/
structure Minded (config : Bridge.Config) (setup : DXTrade.Setup Number) (state : Consumers Number) :
    Prop where
  bridge : ∀ index msg signal, state.bridge.input index = some (.deliver msg) →
    config.codec.unmarshal msg.data = some signal → msg.isWornOut = true → Settled setup state signal
  dxtrade : ∀ index msg signal, state.dxtrade.input index = some msg →
    setup.codec.unmarshal msg.data = some signal → isGivenUp setup msg signal = true →
    Settled setup state signal

theorem Minded.step (minded : Minded config setup state) (heard : Heard config setup state label)
    (stepped : Consumers.step config setup state label = some next) : Minded config setup next := by
  have kept {signal : Proto.Signal} (settled : Settled setup state signal) :
      Settled setup next signal := settled.step stepped
  rcases step_cases stepped with ⟨inner, after, rfl, moved, rfl⟩ | ⟨inner, after, rfl, moved, rfl⟩
  · refine ⟨fun index msg signal given decodes wornOut => kept ?_,
      fun index msg signal given decodes givenUp =>
        kept (minded.dxtrade index msg signal given decodes givenUp)⟩
    rcases Machine.input_of_step moved given with old | ⟨rfl, -⟩
    · exact minded.bridge index msg signal old decodes wornOut
    · exact heard signal decodes wornOut
  · refine ⟨fun index msg signal given decodes wornOut =>
        kept (minded.bridge index msg signal given decodes wornOut),
      fun index msg signal given decodes givenUp => kept ?_⟩
    rcases Machine.input_of_step moved given with old | ⟨rfl, -⟩
    · exact minded.dxtrade index msg signal old decodes givenUp
    · exact heard signal decodes givenUp

abbrev HeardRun (config : Bridge.Config) (setup : DXTrade.Setup Number) (state : Consumers Number) :
    Prop :=
  Reaches (Consumers.step config setup) (Heard config setup) {} state

theorem minded_of_heard (reached : HeardRun config setup state) : Minded config setup state := by
  refine reached.invariant ⟨nofun, nofun⟩ ?_
  intro state label next _ minded heard stepped
  exact minded.step heard stepped

theorem bridge_reached (reached : HeardRun config setup state) :
    (Bridge.machine config).Reached (fun _ _ => True) {} state.bridge := by
  refine reached.invariant Reaches.start ?_
  intro state label next _ before _ stepped
  rcases step_cases stepped with ⟨inner, after, -, moved, rfl⟩ | ⟨inner, after, -, moved, rfl⟩
  · exact before.step trivial moved
  · exact before

theorem dxtrade_reached (reached : HeardRun config setup state) :
    (DXTrade.machine setup).Reached (fun _ _ => True) {} state.dxtrade := by
  refine reached.invariant Reaches.start ?_
  intro state label next _ before _ stepped
  rcases step_cases stepped with ⟨inner, after, -, moved, rfl⟩ | ⟨inner, after, -, moved, rfl⟩
  · exact before
  · exact before.step trivial moved

/-- **In a heard run no signal is dropped.** -/
theorem nothingDropped_of_heard (reached : HeardRun config setup state) :
    NothingDropped config setup state := by
  have minded := minded_of_heard reached
  rintro signal (⟨index, msg, disposal, given, decodes, forGood, member⟩ |
    ⟨index, msg, sequence, disposal, given, decodes, forGood, member⟩)
  · obtain ⟨front, back, split, permitted⟩ :=
      Machine.before_of_reaches (bridge_reached reached) given (spec_dispatch msg) member
    rcases permitted with nak | finished
    · exact absurd nak forGood
    · rcases finished signal decodes with wornOut | ⟨conn, written⟩
      · exact minded.bridge index msg signal given decodes wornOut
      · refine .inl ⟨index, conn, ?_⟩
        rw [split]
        exact List.mem_append_left _ written
  · obtain ⟨front, back, split, permitted⟩ :=
      Machine.before_of_reaches (dxtrade_reached reached) given (DXTrade.spec_dispatch setup msg) member
    rcases permitted with nak | finished
    · exact absurd nak forGood
    · rcases finished signal decodes with givenUp | returned
      · exact minded.dxtrade index msg signal given decodes givenUp
      · refine .inr (.inl ⟨index, msg, given, decodes, ?_⟩)
        rw [split]
        exact returned.append _

end Run

/-! ### Two runs -/

def isTaken (config : Bridge.Config) (setup : DXTrade.Setup Number) : ConsumersLabel Number → Bool
  | .bridge (.begin (.deliver msg)) => (config.codec.unmarshal msg.data).isNone || !msg.isWornOut
  | .dxtrade (.begin msg) => (setup.codec.unmarshal msg.data).all fun signal => !isGivenUp setup msg signal
  | _ => true

theorem heard_of_isTaken {config : Bridge.Config} {setup : DXTrade.Setup Number}
    (state : Consumers Number) (label : ConsumersLabel Number)
    (taken : isTaken config setup label = true) : Heard config setup state label := by
  unfold isTaken at taken
  split at taken
  · intro signal decodes wornOut
    simp [decodes, wornOut] at taken
  · intro signal decodes givenUp
    simp [decodes, givenUp] at taken
  · rename_i noDelivery noMessage
    unfold Heard
    split
    · exact absurd rfl (noDelivery _)
    · exact absurd rfl (noMessage _)
    · trivial

def lonelyBridge : Bridge.Config where
  codec := Proto.Codec.standard
  decodeRegister := fun _ => none
  decodeType := fun _ => none
  decodeFill := fun _ => none

open DXTrade (oneAccount buySignal delivered firstOrder replying)

/-- A message is delivered to the worker, its order is executed and reported, and it is acknowledged. -/
def ordering : List (WorkerLabel ℚ) :=
  .begin (delivered buySignal 1) :: firstOrder 0 201 ++
    List.replicate 3 (.advance 0 (replying (lit "s1") 201))

/-- An order is executed, reported and acknowledged. -/
theorem nothingDropped_of_heard_executed :
    ∃ state : Consumers ℚ, HeardRun lonelyBridge oneAccount state ∧
      (state.dxtrade.log 0).length = 9 ∧ NothingDropped lonelyBridge oneAccount state := by
  have ran : (run (restrict (Consumers.step lonelyBridge oneAccount)
      fun _ label => isTaken lonelyBridge oneAccount label = true) {}
      (ordering.map .dxtrade)).any
      (fun state => (state.dxtrade.log 0).length = 9) = true := by
    decide +kernel
  obtain ⟨state, same, length⟩ := (Option.any_eq_true _ _).mp ran
  have reached : HeardRun lonelyBridge oneAccount state :=
    (Reaches.of_restrict _ same).mono fun state label taken => heard_of_isTaken state label taken
  exact ⟨state, reached, of_decide_eq_true length, nothingDropped_of_heard reached⟩

def isIdle : Bridge.Op → Bool
  | .write _ _ => false
  | .publish _ _ => false
  | _ => true

def isFill : DXTrade.Op Number → Bool
  | .publishFill _ _ => true
  | _ => false

theorem not_settled {setup : DXTrade.Setup Number} {state : Consumers Number} {signal : Proto.Signal}
    (idle : state.bridge.history.all (fun entry => isIdle entry.event.op) = true)
    (unreported : state.dxtrade.history.all (fun entry => !isFill entry.event.op) = true)
    (noCommand : (DXTrade.clientFor setup.instances signal.instanceId).isNone = true ∨
      (DXTrade.commandOf setup signal).isOk = false) :
    ¬Settled setup state signal := by
  rintro (⟨index, conn, member⟩ | ⟨index, msg, given, decodes, returned⟩ |
    ⟨index, instanceID, raw, member⟩ | ⟨index, instanceID, result, member⟩)
  · exact absurd (List.all_eq_true.mp idle _ (Machine.mem_log.mp member)) (by simp [isIdle])
  · obtain ⟨cfg, cmd, inner, back, result, client, parsed, -⟩ := returned
    rcases noCommand with none | failed
    · simp [client] at none
    · simp [parsed, Except.isOk, Except.toBool] at failed
  · exact absurd (List.all_eq_true.mp idle _ (Machine.mem_log.mp member)) (by simp [isIdle])
  · exact absurd (List.all_eq_true.mp unreported _ (Machine.mem_log.mp member)) (by simp [isFill])

def strayed : Proto.Signal :=
  { buySignal with instanceId := lit "main" }

def closeLong : Proto.Signal :=
  { buySignal with traceId := lit "t2", command := lit "closelong" }

/-- A message is delivered to the bridge, which finds no terminal. The first ten deliveries are
negatively acknowledged, the next one is terminated without a look at the hub. -/
def unrouted (count : Nat) : List BridgeLabel :=
  .begin (.deliver (delivered strayed count)) ::
    List.replicate (if count ≤ 10 then 2 else 1) (.advance (count - 1) fun
      | .get _ => none
      | op => Bridge.answering 0 op)

def dropping : List (ConsumersLabel ℚ) :=
  ((List.range' 1 11).flatMap unrouted).map .bridge ++
    [.dxtrade (.begin (delivered closeLong 1)), .dxtrade (.advance 0 (replying [] 200))]

def bridgeGaveUp (state : BridgeState) (index : Nat) (msg : Delivery) : Bool :=
  (match state.input index with
    | some (.deliver given) => given = msg
    | _ => false) &&
  (state.log index).any fun event => match event.op with
    | .dispose .term => true
    | _ => false

def workerGaveUp (state : WorkerState Number) (index : Nat) (msg : Delivery) : Bool :=
  state.input index = some msg &&
  (state.log index).any fun event => match event.op with
    | .dispose _ .term => true
    | _ => false

theorem disposed_of_bridgeGaveUp {config : Bridge.Config} {setup : DXTrade.Setup Number}
    {state : Consumers Number} {index : Nat} {msg : Delivery} {signal : Proto.Signal}
    (decodes : config.codec.unmarshal msg.data = some signal)
    (gaveUp : bridgeGaveUp state.bridge index msg = true) : Disposed config setup state signal := by
  rw [bridgeGaveUp, Bool.and_eq_true, List.any_eq_true] at gaveUp
  obtain ⟨given, ⟨op, answer⟩, member, isTerm⟩ := gaveUp
  split at given
  · rename_i found
    cases of_decide_eq_true given
    dsimp only at isTerm
    split at isTerm
    · exact .inl ⟨index, msg, .term, found, decodes, nofun, member⟩
    · cases isTerm
  · cases given

theorem disposed_of_workerGaveUp {config : Bridge.Config} {setup : DXTrade.Setup Number}
    {state : Consumers Number} {index : Nat} {msg : Delivery} {signal : Proto.Signal}
    (decodes : setup.codec.unmarshal msg.data = some signal)
    (gaveUp : workerGaveUp state.dxtrade index msg = true) : Disposed config setup state signal := by
  rw [workerGaveUp, Bool.and_eq_true, List.any_eq_true, decide_eq_true_eq] at gaveUp
  obtain ⟨given, ⟨op, answer⟩, member, isTerm⟩ := gaveUp
  dsimp only at isTerm
  split at isTerm
  · exact .inr ⟨index, msg, _, .term, given, decodes, nofun, member⟩
  · cases isTerm

/-- **Signals are dropped.** The bridge terminates a signal whose terminal was not connected, and the
worker one with a command it does not know; neither is written, executed or reported. -/
theorem not_nothingDropped_unrouted :
    ∃ state : Consumers ℚ,
      Reaches (Consumers.step lonelyBridge oneAccount) (fun _ _ => True) {} state ∧
      ∀ signal ∈ [strayed, closeLong], Disposed lonelyBridge oneAccount state signal ∧
        ¬Settled oneAccount state signal := by
  have ran : (run (Consumers.step lonelyBridge oneAccount) {} dropping).any (fun state =>
      state.bridge.history.all (fun entry => isIdle entry.event.op) &&
      state.dxtrade.history.all (fun entry => !isFill entry.event.op) &&
      bridgeGaveUp state.bridge 10 (delivered strayed 11) &&
      workerGaveUp state.dxtrade 0 (delivered closeLong 1)) = true := by
    decide +kernel
  obtain ⟨state, same, facts⟩ := (Option.any_eq_true _ _).mp ran
  simp only [Bool.and_eq_true] at facts
  obtain ⟨⟨⟨idle, unreported⟩, bridgeTerm⟩, workerTerm⟩ := facts
  have strayedDecodes : lonelyBridge.codec.unmarshal (delivered strayed 11).data = some strayed :=
    Proto.decodeSignal_encode strayed
  have closeDecodes : oneAccount.codec.unmarshal (delivered closeLong 1).data = some closeLong :=
    Proto.decodeSignal_encode closeLong
  refine ⟨state, Reaches.of_run _ same, ?_⟩
  simp only [List.forall_mem_cons, List.not_mem_nil, false_implies, implies_true, and_true]
  refine ⟨⟨disposed_of_bridgeGaveUp strayedDecodes bridgeTerm,
    not_settled idle unreported (.inl ?_)⟩,
    disposed_of_workerGaveUp closeDecodes workerTerm,
    not_settled idle unreported (.inr ?_)⟩
  · decide +kernel
  · decide +kernel

end ExecRelay.Relay
