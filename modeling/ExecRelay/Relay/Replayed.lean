/-
**Orders of one signal at a terminal.**

The bridge takes signals from the stream and writes them to terminals, which execute them. A message
comes again if its acknowledgement was lost, and the owner of a signal may have the portal publish it
again under another trace id. The EA executes whatever it reads: it remembers no trace id. So a signal
opens at most one order (`AtMostOneOpened`) in the runs whose steps are `Unrepeated`: a message of a
signal is delivered only when the earlier deliveries of the signal are spent, which is when they have
ended, their text was executed or lost, and they have opened no order.
-/

import ExecRelay.Bridge.Decode
import ExecRelay.EA.Orders
import ExecRelay.Lib.Attempts
import ExecRelay.Portal.Replay
import ExecRelay.Relay.System

namespace ExecRelay.Relay

open Lib
open Bridge (BridgeState BridgeLabel)
open Nats (Delivery Message)
open Portal (PortalState PortalLabel SignalRow)

variable {Number : Type}

/-! ### The system -/

/-- A message of the stream, with the row of the signal that it carries. -/
structure Stored where
  origin : Option Nat
  message : Message

/-- The portal, the stream, the bridge and its terminals. -/
structure Desk where
  portal : PortalState
  stream : List Stored := []
  bridge : BridgeState := { world := {} }
  /-- The threads of the bridge whose text was executed, or is lost. -/
  arrived : List Nat := []
  /-- The threads whose text has opened an order, once for every order. -/
  opened : List Nat := []

/-- What a terminal does with a text: its inputs, whether it is registered, and what it is answered. -/
structure Execution (Number : Type) where
  settings : EA.Settings := {}
  registered : Bool := true
  terminal : (op : EA.Op Number) → EA.Answer op

inductive DeskLabel (Number : Type)
  /-- A signal is published by ingress and recorded by persist. -/
  | accept (row : SignalRow) (message : Message)
  /-- A signal is published by ingress, and not recorded. -/
  | publish (message : Message)
  | portal (label : PortalLabel)
  | bridge (label : BridgeLabel)
  /-- The text that a thread of the bridge has written is executed by a terminal. -/
  | execute (thread : Nat) (execution : Execution Number)
  /-- It is lost with the connection. -/
  | lose (thread : Nat)

namespace Desk

variable (state : Desk)

def written (index : Nat) : Option Bytes :=
  (state.bridge.log index).findSome? fun
    | ⟨.write _ (.signal msg), none⟩ => some msg.text
    | _ => none

def isUnderway (index : Nat) : Bool :=
  (state.written index).isSome && !state.arrived.contains index

def holds (delivery : Delivery) : Bool :=
  match state.stream[delivery.sequence]? with
  | some stored =>
    stored.message.data = delivery.data && System.isBridgeSubject stored.message.subject
  | none => false

def originOf (delivery : Delivery) : Option Nat :=
  state.stream[delivery.sequence]?.bind Stored.origin

def dispatched (index : Nat) : Option Nat :=
  match state.bridge.input index with
  | some (.deliver delivery) => state.originOf delivery
  | _ => none

/-- The messages that a step of the portal leaves in the stream. They carry the signal that was asked
for. -/
def replays (next : PortalState) : List Stored :=
  (next.since state.portal).filterMap fun entry =>
    (Portal.published entry.event).map fun message =>
      ⟨(next.input entry.thread).bind Portal.ReplayRequest.signalID, message⟩

/-- The guards of the steps: a row is new and has the message it was made from, the rows of signals are
not touched by others, and the bridge gets what is in the stream. -/
def isPossible : DeskLabel Number → Bool
  | .accept row message =>
    (state.portal.world.signals.all fun other => other.id ≠ row.id) &&
      row.rawPayload.all fun raw => raw = message.data
  | .portal (.change db) => db.signals = state.portal.world.signals
  | .bridge (.begin (.deliver delivery)) => state.holds delivery
  | .execute index _ => state.isUnderway index
  | .lose index => state.isUnderway index
  | _ => true

variable (doubles : Doubles Number) (config : Bridge.Config)

def step (label : DeskLabel Number) : Option Desk :=
  if state.isPossible label then
    match label with
    | .accept row message =>
      let db := state.portal.world
      some { state with
        portal := { state.portal with world := { db with signals := db.signals ++ [row] } }
        stream := state.stream ++ [⟨some row.id, message⟩] }
    | .publish message => some { state with stream := state.stream ++ [⟨none, message⟩] }
    | .portal label =>
      (Portal.machine.step state.portal label).map fun portal =>
        { state with portal := portal, stream := state.stream ++ state.replays portal }
    | .bridge label =>
      ((Bridge.machine config).step state.bridge label).map fun bridge =>
        { state with bridge := bridge }
    | .execute index execution =>
      let text := (state.written index).getD []
      let orders := EA.ordersOpened execution.terminal
        (EA.handleMessage doubles execution.settings execution.registered text)
      some { state with
        arrived := state.arrived ++ [index]
        opened := state.opened ++ List.replicate orders index }
    | .lose index => some { state with arrived := state.arrived ++ [index] }
  else none

/-! ### Repetitions -/

/-- The orders that a signal has opened, as the threads whose text opened them. -/
def openedFor (signal : Nat) : List Nat :=
  state.opened.filter fun index => state.dispatched index = some signal

/-- **Every signal opens at most one order.** -/
def AtMostOneOpened : Prop :=
  ∀ signal, (state.openedFor signal).length ≤ 1

/-- The thread has ended, its text is not on its way, and it has opened no order. -/
def isSpent (index : Nat) : Bool :=
  (state.bridge.threads[index]?.any fun thread => thread.program.isOver) &&
    !state.isUnderway index && !state.opened.contains index

/-- **The steps of a run without repetitions** of what has opened an order, or may still. -/
def isUnrepeated : DeskLabel Number → Bool
  | .bridge (.begin (.deliver delivery)) =>
    (List.range state.bridge.threads.length).all fun index =>
      (state.dispatched index).isNone || state.dispatched index ≠ state.originOf delivery ||
        state.isSpent index
  | _ => true

def Unrepeated (label : DeskLabel Number) : Prop :=
  state.isUnrepeated label = true

instance (label : DeskLabel Number) : Decidable (state.Unrepeated label) :=
  inferInstanceAs (Decidable (_ = true))

end Desk

/-! ### Unrepeated runs -/

section Run

variable {doubles : Doubles Number} {config : Bridge.Config} {state next : Desk}
  {label : DeskLabel Number}

/-- **What a step can do**: it adds to the stream, the bridge takes a step, or a text arrives. -/
theorem desk_cases (stepped : state.step doubles config label = some next) :
    (∃ portal more, next = { state with portal := portal, stream := state.stream ++ more }) ∨
    (∃ inner bridge, label = .bridge inner ∧ state.isPossible label = true ∧
      (Bridge.machine config).step state.bridge inner = some bridge ∧
      next = { state with bridge := bridge }) ∨
    (∃ index orders, state.isUnderway index = true ∧ orders ≤ 1 ∧
      next = { state with
        arrived := state.arrived ++ [index]
        opened := state.opened ++ List.replicate orders index }) := by
  unfold Desk.step at stepped
  split at stepped
  · rename_i possible
    cases label with
    | accept row message =>
      cases stepped
      exact .inl ⟨_, _, rfl⟩
    | publish message =>
      cases stepped
      exact .inl ⟨_, _, rfl⟩
    | portal inner =>
      obtain ⟨portal, -, rfl⟩ := Option.map_eq_some_iff.mp stepped
      exact .inl ⟨_, _, rfl⟩
    | bridge inner =>
      obtain ⟨bridge, moved, rfl⟩ := Option.map_eq_some_iff.mp stepped
      exact .inr (.inl ⟨inner, bridge, rfl, possible, moved, rfl⟩)
    | execute index execution =>
      cases stepped
      exact .inr (.inr ⟨index, _, possible, EA.ordersOpened_le_one .., rfl⟩)
    | lose index =>
      cases stepped
      refine .inr (.inr ⟨index, 0, possible, Nat.zero_le 1, ?_⟩)
      rw [List.replicate_zero, List.append_nil]
  · cases stepped

/-- **What holds in an unrepeated run.** -/
structure Accounted (state : Desk) : Prop where
  /-- What was delivered is in the stream. -/
  held : ∀ index delivery, state.bridge.input index = some (.deliver delivery) →
    delivery.sequence < state.stream.length
  arrived : ∀ index ∈ state.opened, index ∈ state.arrived
  distinct : state.opened.Nodup
  /-- Only the last thread of a signal may still open an order, or has opened one. -/
  spent : ∀ first second signal, first < second → state.dispatched first = some signal →
    state.dispatched second = some signal → state.isSpent first = true

theorem Accounted.atMostOneOpened (accounted : Accounted state) : state.AtMostOneOpened := by
  intro signal
  refine length_filter_le_one accounted.distinct accounted.spent ?_ signal
  intro index member
  simp [Desk.isSpent, member]

theorem lt_of_dispatched {index signal : Nat} (known : state.dispatched index = some signal) :
    index < state.bridge.threads.length := by
  unfold Desk.dispatched at known
  split at known
  · rename_i delivery given
    obtain ⟨thread, found, -⟩ := Option.map_eq_some_iff.mp given
    exact (List.getElem?_eq_some_iff.mp found).1
  · cases known

theorem dispatched_append (accounted : Accounted state) (portal : PortalState) (more : List Stored)
    (index : Nat) :
    Desk.dispatched { state with portal := portal, stream := state.stream ++ more } index =
      state.dispatched index := by
  unfold Desk.dispatched
  dsimp only
  split
  · rename_i delivery given
    rw [Desk.originOf, List.getElem?_append_left (accounted.held index delivery given)]
    rfl
  · rfl

theorem dispatched_of_step {inner : BridgeLabel} {bridge : BridgeState}
    (moved : (Bridge.machine config).step state.bridge inner = some bridge) {index signal : Nat}
    (known : Desk.dispatched { state with bridge := bridge } index = some signal) :
    state.dispatched index = some signal ∨
      ∃ delivery, inner = .begin (.deliver delivery) ∧ state.originOf delivery = some signal ∧
        index = state.bridge.threads.length := by
  unfold Desk.dispatched at known
  split at known
  · rename_i delivery given
    rcases Machine.input_of_step moved given with old | ⟨begun, last⟩
    · refine .inl ?_
      rw [Desk.dispatched, old]
      exact known
    · exact .inr ⟨delivery, begun, known, last⟩
  · cases known

/-- **A delivery begins** only if the earlier threads of its signal are spent. -/
theorem spent_of_unrepeated {delivery : Delivery} {index signal : Nat}
    (unrepeated : state.Unrepeated (.bridge (.begin (.deliver delivery)) : DeskLabel Number))
    (origin : state.originOf delivery = some signal)
    (known : state.dispatched index = some signal) : state.isSpent index = true := by
  have checked := List.all_eq_true.mp unrepeated index (List.mem_range.mpr (lt_of_dispatched known))
  simpa [known, origin] using checked

theorem isSpent_iff {index : Nat} : state.isSpent index = true ↔
    (∃ thread, state.bridge.threads[index]? = some thread ∧ thread.program.isOver = true) ∧
      state.isUnderway index = false ∧ index ∉ state.opened := by
  simp [Desk.isSpent, Option.any_eq_true, and_assoc]

theorem isSpent_step (stepped : state.step doubles config label = some next) {index : Nat}
    (spent : state.isSpent index = true) : next.isSpent index = true := by
  rw [isSpent_iff] at spent ⊢
  obtain ⟨⟨thread, found, ended⟩, notUnderway, notOpened⟩ := spent
  rcases desk_cases stepped with ⟨portal, more, rfl⟩ | ⟨inner, bridge, -, -, moved, rfl⟩ |
    ⟨other, orders, underway, -, rfl⟩
  · exact ⟨⟨thread, found, ended⟩, notUnderway, notOpened⟩
  · obtain ⟨still, sameLog⟩ := Machine.over_step moved found ended
    refine ⟨⟨thread, still, ended⟩, ?_, notOpened⟩
    rw [Desk.isUnderway, Desk.written, sameLog]
    exact notUnderway
  · have different : index ≠ other := by
      rintro rfl
      rw [notUnderway] at underway
      cases underway
    refine ⟨⟨thread, found, ended⟩, ?_, ?_⟩
    · have same : Desk.isUnderway { state with
          arrived := state.arrived ++ [other]
          opened := state.opened ++ List.replicate orders other } index =
          state.isUnderway index := by
        simp [Desk.isUnderway, Desk.written, different]
      rw [same]
      exact notUnderway
    · simp [notOpened, List.mem_replicate, different]

/-- **One step.** -/
theorem Accounted.step (accounted : Accounted state) (unrepeated : state.Unrepeated label)
    (stepped : state.step doubles config label = some next) : Accounted next := by
  have stays {index : Nat} (spent : state.isSpent index = true) : next.isSpent index = true :=
    isSpent_step stepped spent
  rcases desk_cases stepped with ⟨portal, more, rfl⟩ | ⟨inner, bridge, rfl, possible, moved, rfl⟩ |
    ⟨index, orders, underway, single, rfl⟩
  · refine ⟨fun index delivery given => ?_, accounted.arrived, accounted.distinct, ?_⟩
    · have shorter := accounted.held index delivery given
      rw [List.length_append]
      omega
    · intro first second signal before firstKnown secondKnown
      rw [dispatched_append accounted] at firstKnown secondKnown
      exact stays (accounted.spent first second signal before firstKnown secondKnown)
  · refine ⟨fun index delivery given => ?_, accounted.arrived, accounted.distinct, ?_⟩
    · rcases Machine.input_of_step moved given with old | ⟨rfl, -⟩
      · exact accounted.held index delivery old
      · rw [Desk.isPossible, Desk.holds] at possible
        split at possible
        · rename_i stored found
          exact (List.getElem?_eq_some_iff.mp found).1
        · cases possible
    · intro first second signal before firstKnown secondKnown
      refine stays ?_
      rcases dispatched_of_step moved firstKnown with firstOld | ⟨_, _, _, firstLast⟩
      · rcases dispatched_of_step moved secondKnown with secondOld | ⟨delivery, rfl, origin, _⟩
        · exact accounted.spent first second signal before firstOld secondOld
        · exact spent_of_unrepeated unrepeated origin firstOld
      · -- the thread that has just begun is the last
        rcases dispatched_of_step moved secondKnown with secondOld | ⟨_, _, _, secondLast⟩
        · have inside := lt_of_dispatched secondOld
          omega
        · omega
  · have new : index ∉ state.opened := by
      intro member
      simp [Desk.isUnderway, accounted.arrived index member] at underway
    refine ⟨accounted.held, fun other member => ?_, ?_, ?_⟩
    · rcases List.mem_append.mp member with old | last
      · exact List.mem_append_left _ (accounted.arrived other old)
      · rw [(List.mem_replicate.mp last).2]
        exact List.mem_append_right _ (List.mem_singleton_self index)
    · refine accounted.distinct.append (List.nodup_replicate.mpr single) ?_
      intro other old last
      rw [(List.mem_replicate.mp last).2] at old
      exact new old
    · intro first second signal before firstKnown secondKnown
      exact stays (accounted.spent first second signal before firstKnown secondKnown)

/-- **In an unrepeated run every signal opens at most one order.** -/
theorem atMostOneOpened_of_unrepeated {db : Portal.Database}
    (reached : Reaches (fun state : Desk => state.step doubles config) Desk.Unrepeated
      { portal := { world := db } } state) : state.AtMostOneOpened := by
  refine Accounted.atMostOneOpened (reached.invariant ?_ ?_)
  · exact ⟨nofun, nofun, List.nodup_nil, nofun⟩
  · intro state label next _ accounted unrepeated stepped
    exact accounted.step unrepeated stepped

end Run

/-! ### Two runs -/

open Bridge (answering registerFrame)
open Proto (canonicalSignal)

/-- A terminal that fills every order. -/
def quietMarket : (op : EA.Op ℚ) → EA.Answer op
  | .symbolSelect _ => true
  | .symbolInfoDouble _ .ask => 1.1002
  | .symbolInfoDouble _ .bid => 1.1
  | .symbolInfoDouble _ .point => 0.00001
  | .symbolDigits _ => 5
  | .send _ => ⟨true, 1, 10009, []⟩
  | .positionsTotal => 0
  | .position _ => none
  | .positionClose _ => true
  | .positionModify _ _ _ => true
  | .ordersTotal => 0
  | .order _ => none
  | .orderDelete _ => true
  | .wsSendText _ => true
  | .trackPending _ _ => ()

def deskBridge : Bridge.Config :=
  Bridge.decoding (lit "t0k3n") Proto.Codec.standard

def deskTables : Portal.Database where
  licenses := [⟨1, 1, canonicalSignal.licenseId⟩]
  instances := [⟨⟨1, canonicalSignal.instanceId, lit "mt5", true⟩, 1⟩]

def emptyDesk : Desk where
  portal := { world := deskTables }

def acceptedMessage : Message :=
  ⟨lit "signals.mt5.60123456789.mt5-a", canonicalSignal.encode⟩

def acceptedRow : SignalRow where
  id := 7
  receivedAt := 1700000000000000
  licenseId := 1
  instanceId := some 1
  traceId := canonicalSignal.traceId
  ingressRegion := canonicalSignal.ingressRegion
  command := canonicalSignal.command
  symbol := canonicalSignal.symbol
  payload := []
  rawPayload := some canonicalSignal.encode

/-- The terminal connects and registers, in a thread of the bridge. -/
def connecting (thread : Nat) : List (DeskLabel ℚ) :=
  .bridge (.begin (.connect canonicalSignal.licenseId [registerFrame "mt5-a"])) ::
    List.replicate 4 (.bridge (.advance thread (answering thread)))

/-- A message is delivered and written to the terminal, and its order is executed. -/
def executing (thread conn : Nat) (delivery : Delivery) : List (DeskLabel ℚ) :=
  [.bridge (.begin (.deliver delivery)), .bridge (.advance thread (answering conn)),
    .bridge (.advance thread (answering conn)), .execute thread { terminal := quietMarket },
    .bridge (.advance thread (answering conn))]

/-- The first delivery finds no terminal, the second one does. -/
def unregistered : (op : Bridge.Op) → Bridge.Answer op
  | .get _ => none
  | op => answering 0 op

theorem atMostOneOpened_of_unrepeated_late :
    ∃ state, Reaches (fun state : Desk => state.step Doubles.exact deskBridge) Desk.Unrepeated
        emptyDesk state ∧
      state.openedFor 7 = [2] ∧ state.AtMostOneOpened := by
  have ran : (run (restrict (fun state : Desk => state.step Doubles.exact deskBridge) Desk.Unrepeated)
      emptyDesk ([.accept acceptedRow acceptedMessage,
        .bridge (.begin (.deliver ⟨0, canonicalSignal.encode, some 1⟩)),
        .bridge (.advance 0 unregistered),
        .bridge (.advance 0 (answering 0))] ++
        connecting 1 ++ executing 2 1 ⟨0, canonicalSignal.encode, some 2⟩)).any
      (fun state => state.openedFor 7 = [2]) = true := by
    decide +kernel
  obtain ⟨state, same, one⟩ := (Option.any_eq_true _ _).mp ran
  have reached := Reaches.of_restrict _ same
  exact ⟨state, reached, of_decide_eq_true one, atMostOneOpened_of_unrepeated reached⟩

def replayedData (now : Nat) : Bytes :=
  match Portal.decodeSignalProto canonicalSignal.encode with
  | .ok original => Portal.encodeSignalProto (Portal.republish original now)
  | .error _ => []

def replaying (now : Nat) : (op : Portal.Op) → Portal.Answer op
  | .fetchRow _ _ => some (some ⟨canonicalSignal.traceId, some canonicalSignal.encode,
      canonicalSignal.licenseId, some canonicalSignal.instanceId, some (lit "mt5")⟩)
  | .hasNats => true
  | .timeNs => now
  | .publish _ => none
  | .audit _ _ _ => ()

def askingAgain (now : Nat) : List (DeskLabel ℚ) :=
  .portal (.begin ⟨1, some 7⟩) :: List.replicate 5 (.portal (.advance 0 (replaying now)))

/-- **A signal is executed three times.** The acknowledgement of the first delivery is lost and the
message is delivered again; then its owner has it replayed. -/
theorem not_atMostOneOpened_replayed :
    ∃ state, Reaches (fun state : Desk => state.step Doubles.exact deskBridge) (fun _ _ => True)
        emptyDesk state ∧
      state.openedFor 7 = [1, 2, 3] ∧ ¬state.AtMostOneOpened := by
  have ran : (run (fun state : Desk => state.step Doubles.exact deskBridge) emptyDesk
      (connecting 0 ++ .accept acceptedRow acceptedMessage ::
        executing 1 0 ⟨0, canonicalSignal.encode, some 1⟩ ++
        executing 2 0 ⟨0, canonicalSignal.encode, some 2⟩ ++
        askingAgain 1700000060000000000 ++
        executing 3 0 ⟨1, replayedData 1700000060000000000, some 1⟩)).any
      (fun state => state.openedFor 7 = [1, 2, 3]) = true := by
    decide +kernel
  obtain ⟨state, same, thrice⟩ := (Option.any_eq_true _ _).mp ran
  have orders := of_decide_eq_true thrice
  refine ⟨state, Reaches.of_run _ same, orders, fun once => ?_⟩
  have bounded := once 7
  rw [orders] at bounded
  simp at bounded

end ExecRelay.Relay
