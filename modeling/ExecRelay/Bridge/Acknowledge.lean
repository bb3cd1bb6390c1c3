/-
**What becomes of a delivery.**

A call of `dispatch` makes three calls at most. `Dispatched` lists what they may be, for every answer,
and from the list follow the counts: one disposal at the end, and one write at most.

An acknowledgement has a past (`acknowledged`): a connection registered under the instance of the
signal, the hub gave this connection to the delivery, and the signal was written to it without an
error. The order is that of the whole service, whatever the terminals do meanwhile.
-/

import ExecRelay.Bridge.Decode
import ExecRelay.Bridge.Hub

namespace ExecRelay.Bridge

open Lib
open Lib.Program (Path)
open Nats (Delivery)
open Proto (Signal canonicalSignal)

def isDispose : Op → Bool
  | .dispose _ => true
  | _ => false

/-! ### The calls of one delivery -/

section Calls

variable {config : Config} {msg : Delivery} {signal : Signal} {conn : Nat} {log : Log} {rest : Running}

abbrev sent (signal : Signal) (conn : Nat) : Op :=
  .write conn (.signal (signalMsg signal))

/-- The calls of `dispatch` with their answers, and whether they are all. -/
inductive Dispatched (config : Config) (msg : Delivery) : Log → Bool → Prop
  | begun : Dispatched config msg [] false
  | given : Dispatched config msg [⟨.dispose .term, ()⟩] true
  | missing {signal : Signal} : config.codec.unmarshal msg.data = some signal →
      Dispatched config msg [⟨.get signal.instanceId, none⟩] false
  | postponed {signal : Signal} : config.codec.unmarshal msg.data = some signal →
      Dispatched config msg [⟨.get signal.instanceId, none⟩, ⟨.dispose .nak, ()⟩] true
  | found {signal : Signal} {conn : Nat} : config.codec.unmarshal msg.data = some signal →
      Dispatched config msg [⟨.get signal.instanceId, some conn⟩] false
  | wrote {signal : Signal} {conn : Nat} {error : Option Bytes} :
      config.codec.unmarshal msg.data = some signal →
      Dispatched config msg [⟨.get signal.instanceId, some conn⟩, ⟨sent signal conn, error⟩] false
  | failed {signal : Signal} {conn : Nat} {error : Bytes} :
      config.codec.unmarshal msg.data = some signal →
      Dispatched config msg [⟨.get signal.instanceId, some conn⟩, ⟨sent signal conn, some error⟩,
        ⟨.dispose .nak, ()⟩] true
  | acked {signal : Signal} {conn : Nat} : config.codec.unmarshal msg.data = some signal →
      Dispatched config msg [⟨.get signal.instanceId, some conn⟩, ⟨sent signal conn, none⟩,
        ⟨.dispose .ack, ()⟩] true

theorem path_dispose {disposal : Nats.Disposal}
    (path : (invoke (.dispose disposal) : Running).Path log rest) :
    (log = [] ∧ rest.isOver = false) ∨ (log = [⟨.dispose disposal, ()⟩] ∧ rest.isOver = true) := by
  rcases path.of_call with ⟨rfl, rfl⟩ | ⟨answer, later, rfl, after⟩
  · exact .inl ⟨rfl, rfl⟩
  · obtain ⟨rfl, rfl⟩ := after.of_done
    exact .inr ⟨rfl, rfl⟩

/-- **Every call of `dispatch` is one of the list.** -/
theorem dispatched_of_path (path : (dispatch config msg).Path log rest) :
    Dispatched config msg log rest.isOver := by
  have termed (path : (invoke (.dispose .term) : Running).Path log rest) :
      Dispatched config msg log rest.isOver := by
    rcases path_dispose path with ⟨rfl, left⟩ | ⟨rfl, ended⟩
    · exact left ▸ .begun
    · exact ended ▸ .given
  unfold dispatch at path
  split at path
  · exact termed path
  · cases decodes : config.codec.unmarshal msg.data with
    | none =>
      rw [decodes] at path
      exact termed path
    | some signal =>
      rw [decodes] at path
      rcases path.of_call with ⟨rfl, rfl⟩ | ⟨found, later, rfl, after⟩
      · exact .begun
      cases found with
      | none =>
        rcases path_dispose after with ⟨rfl, left⟩ | ⟨rfl, ended⟩
        · exact left ▸ .missing decodes
        · exact ended ▸ .postponed decodes
      | some conn =>
        rcases after.of_call with ⟨rfl, rfl⟩ | ⟨error, last, rfl, behind⟩
        · exact .found decodes
        cases error with
        | none =>
          rcases path_dispose behind with ⟨rfl, left⟩ | ⟨rfl, ended⟩
          · exact left ▸ .wrote decodes
          · exact ended ▸ .acked decodes
        | some error =>
          rcases path_dispose behind with ⟨rfl, left⟩ | ⟨rfl, ended⟩
          · exact left ▸ .wrote decodes
          · exact ended ▸ .failed decodes

namespace Dispatched

variable {ended : Bool}

theorem length_le (dispatched : Dispatched config msg log ended) : log.length ≤ 3 := by
  cases dispatched <;> simp

theorem writes_le (dispatched : Dispatched config msg log ended) :
    log.countP (fun event => isWrite event.op) ≤ 1 := by
  cases dispatched <;> simp [isWrite]

/-- **The one disposal** is the end of the call. -/
theorem disposals (dispatched : Dispatched config msg log ended) :
    log.countP (fun event => isDispose event.op) = if ended then 1 else 0 := by
  cases dispatched <;> simp [isDispose]

/-- **An acknowledgement** is behind a write without an error, to the connection from the hub. -/
theorem acknowledged (dispatched : Dispatched config msg log ended)
    (acked : ⟨.dispose .ack, ()⟩ ∈ log) :
    ∃ signal conn, config.codec.unmarshal msg.data = some signal ∧
      log = [⟨.get signal.instanceId, some conn⟩, ⟨sent signal conn, none⟩, ⟨.dispose .ack, ()⟩] := by
  cases dispatched with
  | acked decodes => exact ⟨_, _, decodes, rfl⟩
  | begun | given | missing | postponed | found | wrote | failed => simp at acked

end Dispatched

end Calls

/-! ### The order of the service -/

section Order

variable {config : Config} {state next : BridgeState} {label : BridgeLabel}

theorem conn_of_get {hub after : Hub} {thread : Nat} {instanceID : Bytes} {conn : Nat}
    (served : serve hub thread (.get instanceID) (some conn) = some after) :
    hub.conns instanceID = some conn := by
  simp only [serve] at served
  split at served
  · rename_i same
    exact same.symm
  · cases served

/-- **A connection that the hub gave** has registered before. -/
def Preceded (state : BridgeState) : Prop :=
  ∀ index instanceID conn front back,
    state.history = front ++ ⟨index, ⟨.get instanceID, some conn⟩⟩ :: back →
    ⟨conn, ⟨.register instanceID, ()⟩⟩ ∈ front

theorem Preceded.step (preceded : Preceded state)
    (reached : (machine config).Reached (fun _ _ => True) {} state)
    (stepped : (machine config).step state label = some next) : Preceded next := by
  rcases Machine.step_cases stepped with ⟨input, world, _, admitted, rfl⟩ |
    ⟨index, answer, input, op, rest, world, _, _, served, rfl⟩ | ⟨change, world, _, changed, rfl⟩
  · exact preceded
  · intro other instanceID conn front back split
    rcases snoc_eq_append_cons split with ⟨rfl, rfl, entry⟩ | ⟨rest, rfl, same⟩
    · -- the hub gives the connection now
      obtain ⟨rfl, event⟩ := Machine.Entry.mk.inj entry
      have given : serve state.world other (Event.mk op (answer op)).op
        (Event.mk op (answer op)).answer = some world := served
      rw [← event] at given
      exact Machine.mem_log.mp (joined_of_reaches reached instanceID conn (conn_of_get given)).registered
    · exact preceded other instanceID conn front rest same
  · exact preceded

theorem preceded_of_reaches (reached : (machine config).Reached (fun _ _ => True) {} state) :
    Preceded state := by
  refine reached.invariant (fun _ _ _ _ _ split => absurd split (by simp)) ?_
  intro state label next reached preceded _ stepped
  exact preceded.step reached stepped

end Order

/-! ### Every delivery -/

section Deliveries

variable {config : Config} {state : BridgeState} {index : Nat} {msg : Delivery}

theorem dispatched_of_reaches (reached : (machine config).Reached (fun _ _ => True) {} state)
    (given : state.input index = some (.deliver msg)) :
    ∃ program, state.threads[index]? = some ⟨.deliver msg, program⟩ ∧
      Dispatched config msg (state.log index) program.isOver := by
  obtain ⟨⟨input, program⟩, found, rfl⟩ := Option.map_eq_some_iff.mp given
  exact ⟨program, found, dispatched_of_path (Machine.path_of_reaches reached index _ found)⟩

theorem log_sublist (state : BridgeState) (index : Nat) :
    ((state.log index).map (Machine.Entry.mk index)).Sublist state.history := by
  have same : (state.log index).map (Machine.Entry.mk index) =
      state.history.filter fun entry => entry.thread = index := by
    rw [Machine.State.log, List.map_map]
    refine (List.map_congr_left fun entry inside => ?_).trans (List.map_id _)
    rw [← of_decide_eq_true (List.mem_filter.mp inside).2]
    rfl
  rw [same]
  exact List.filter_sublist

theorem exists_serve (hub : Hub) (thread : Nat) (op : Op) :
    ∃ answer after, serve hub thread op answer = some after := by
  cases op with
  | read => exact ⟨false, hub, rfl⟩
  | get instanceID => exact ⟨hub.conns instanceID, hub, if_pos rfl⟩
  | reply out | write conn out => exact ⟨some [], hub, rfl⟩
  | publish subject report => exact ⟨none, hub, rfl⟩
  | closeOwn | register instanceID | unregister instanceID | updateHeartbeat | dispose disposal =>
    exact ⟨(), _, rfl⟩

/-- **A thread that is not over can go on.** -/
theorem exists_step {program : Running} {input : Input}
    (found : state.threads[index]? = some ⟨input, program⟩) (left : program.isOver = false) :
    ∃ answer next, (machine config).step state (.advance index answer) = some next := by
  cases program with
  | done result => cases left
  | fail error => exact error.elim
  | call op rest =>
    choose answer after served using exists_serve state.world index
    refine ⟨answer, state.record (after op) index ⟨input, rest (answer op)⟩ ⟨op, answer op⟩, ?_⟩
    simp only [Machine.step, found]
    exact congrArg (Option.map _) (served op)

/-- **Every call of `dispatch`**, at any point of any run: it writes once at most, disposes of the
message once at most, has done so once it is over, and can go on until then. An acknowledgement comes
after a registration under the instance of the signal, and after a write without an error to this very
connection. -/
theorem dispatch_settles (reached : (machine config).Reached (fun _ _ => True) {} state)
    (given : state.input index = some (.deliver msg)) :
    (state.log index).countP (fun event => isWrite event.op) ≤ 1 ∧
      (state.log index).countP (fun event => isDispose event.op) ≤ 1 ∧
      (state.log index).length ≤ 3 ∧
      ((∃ program, state.threads[index]? = some ⟨.deliver msg, program⟩ ∧ program.isOver = true ∧
          (state.log index).countP (fun event => isDispose event.op) = 1) ∨
        ∃ answer next, (machine config).step state (.advance index answer) = some next) ∧
      (⟨.dispose .ack, ()⟩ ∈ state.log index → ∃ signal conn,
        config.codec.unmarshal msg.data = some signal ∧
        [⟨conn, ⟨.register signal.instanceId, ()⟩⟩, ⟨index, ⟨.get signal.instanceId, some conn⟩⟩,
          ⟨index, ⟨sent signal conn, none⟩⟩, ⟨index, ⟨.dispose .ack, ()⟩⟩].Sublist state.history) := by
  obtain ⟨program, found, dispatched⟩ := dispatched_of_reaches reached given
  have disposals := dispatched.disposals
  refine ⟨dispatched.writes_le, ?_, dispatched.length_le, ?_, fun acked => ?_⟩
  · rw [disposals]
    split <;> omega
  · cases ended : program.isOver with
    | true =>
      rw [ended] at disposals
      exact .inl ⟨program, found, ended, disposals⟩
    | false => exact .inr (exists_step found ended)
  · obtain ⟨signal, conn, decodes, whole⟩ := dispatched.acknowledged acked
    refine ⟨signal, conn, decodes, ?_⟩
    have own := log_sublist state index
    rw [whole] at own
    obtain ⟨early, late, whole, first, behind⟩ := List.cons_sublist_iff.mp own
    obtain ⟨front, middle, rfl⟩ := List.append_of_mem first
    rw [List.append_assoc, List.cons_append] at whole
    have registered := preceded_of_reaches reached index _ conn front _ whole
    rw [whole]
    exact (List.singleton_sublist.mpr registered).append
      ((behind.trans (List.sublist_append_right ..)).cons_cons _)

end Deliveries

def isAck : Event Op Answer → Bool
  | ⟨.dispose .ack, _⟩ => true
  | _ => false

theorem eq_ack_of_isAck {event : Event Op Answer} (acked : isAck event = true) :
    event = ⟨.dispose .ack, ()⟩ := by
  unfold isAck at acked
  split at acked
  · rfl
  · cases acked

def isDelivery (msg : Delivery) : Input → Bool
  | .deliver other => other = msg
  | .connect _ _ => false

theorem eq_deliver_of_isDelivery {msg : Delivery} {input : Input}
    (delivered : isDelivery msg input = true) : input = .deliver msg := by
  cases input with
  | deliver other => rw [of_decide_eq_true delivered]
  | connect owner frames => cases delivered

/-- A terminal registers, and a signal for its instance is delivered. -/
def oneDelivery : List BridgeLabel :=
  .begin (.connect canonicalSignal.licenseId [registerFrame "mt5-a"]) ::
    List.replicate 4 (.advance 0 (answering 0)) ++
    .begin (.deliver ⟨1, canonicalSignal.encode, some 1⟩) ::
    List.replicate 3 (.advance 1 (answering 0))

/-- The signal is acknowledged, and has been written to the terminal. -/
theorem dispatch_settles_oneDelivery :
    ∃ state, run (machine (decoding (lit "t0k3n") Proto.Codec.standard)).step { world := {} }
        oneDelivery = some state ∧
      ⟨.dispose .ack, ()⟩ ∈ state.log 1 ∧
      (state.log 1).countP (fun event => isWrite event.op) ≤ 1 ∧
      ∃ signal conn, Proto.Codec.standard.unmarshal canonicalSignal.encode = some signal ∧
        [⟨conn, ⟨.register signal.instanceId, ()⟩⟩, ⟨1, ⟨.get signal.instanceId, some conn⟩⟩,
          ⟨1, ⟨sent signal conn, none⟩⟩, ⟨1, ⟨.dispose .ack, ()⟩⟩].Sublist state.history := by
  have ran : (run (machine (decoding (lit "t0k3n") Proto.Codec.standard)).step { world := {} }
      oneDelivery).any (fun state => (state.log 1).any isAck &&
        (state.input 1).any (isDelivery ⟨1, canonicalSignal.encode, some 1⟩)) = true := by
    decide +kernel
  obtain ⟨state, same, facts⟩ := (Option.any_eq_true _ _).mp ran
  obtain ⟨logged, started⟩ := (Bool.and_eq_true _ _).mp facts
  obtain ⟨event, member, acked⟩ := List.any_eq_true.mp logged
  obtain ⟨input, given, isInput⟩ := (Option.any_eq_true _ _).mp started
  rw [eq_ack_of_isAck acked] at member
  rw [eq_deliver_of_isDelivery isInput] at given
  obtain ⟨writes, -, -, -, past⟩ := dispatch_settles (Reaches.of_run _ same) given
  exact ⟨state, same, member, writes, past member⟩

end ExecRelay.Bridge
