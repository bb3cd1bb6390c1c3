/-
**Connections and the ids they register under.**

A connection registers once, under the id of its first message. The hub and what was read from it
therefore give a connection for that id only, and the fills of the connection are published under it.
-/

import ExecRelay.Bridge.Service

namespace ExecRelay.Bridge

open Lib
open Lib.Program (Only)

variable {config : Config} {state next : BridgeState} {label : BridgeLabel}

/-! ### The hub -/

def Named (config : Config) (state : BridgeState) (instanceID : Bytes) (conn : Nat) : Prop :=
  ∃ owner frames reg, state.input conn = some (.connect owner frames) ∧
    frames.head?.bind (registration config) = some reg ∧ reg.instanceID = instanceID

/-- **The hub and what was read from it** name a connection by its id. -/
structure Registered (config : Config) (state : BridgeState) : Prop where
  hub : ∀ instanceID conn, state.world.conns instanceID = some conn →
    Named config state instanceID conn
  got : ∀ index instanceID conn,
    ⟨.get instanceID, some conn⟩ ∈ state.log index →
    Named config state instanceID conn

variable {instanceID : Bytes} {conn : Nat}

theorem Named.step (named : Named config state instanceID conn)
    (stepped : (machine config).step state label = some next) :
    Named config next instanceID conn := by
  obtain ⟨owner, frames, reg, given, accepted⟩ := named
  exact ⟨owner, frames, reg, Machine.input_step stepped given, accepted⟩

/-- **The hub changes by registrations only**, and connections that are removed. -/
theorem conns_of_serve {hub after : Hub} {thread : Nat} {op : Op} {answer : Answer op}
    (served : serve hub thread op answer = some after) (found : after.conns instanceID = some conn) :
    hub.conns instanceID = some conn ∨ (op = .register instanceID ∧ conn = thread) := by
  cases op with
  | register key =>
    cases served
    have conns : (hub.register thread key).conns instanceID =
        if instanceID = key then some thread else hub.conns instanceID := by
      unfold Hub.register
      cases hub.conns key <;> rfl
    rw [conns] at found
    split at found
    · rename_i same
      cases found
      exact Or.inr ⟨by rw [same], rfl⟩
    · exact Or.inl found
  | unregister key =>
    cases served
    unfold Hub.unregister at found
    split at found
    · dsimp only at found
      split at found
      · cases found
      · exact Or.inl found
    · exact Or.inl found
  | closeOwn | updateHeartbeat | publish _ _ | dispose _ =>
    cases served
    exact Or.inl found
  | read | get _ | reply _ | write _ _ =>
    simp only [serve] at served
    split at served <;> cases served
    exact Or.inl found

theorem named_of_register (reached : (machine config).Reached (fun _ _ => True) {} state)
    {input : Input} {rest : Unit → Running}
    (running : state.threads[conn]? = some ⟨input, .call (.register instanceID) rest⟩) :
    Named config state instanceID conn := by
  have permitted := ((spec_start config input).of_path
    (Machine.path_of_reaches reached conn _ running)).1
  cases input with
  | connect owner frames =>
    obtain ⟨reg, accepted, same⟩ := permitted
    exact ⟨owner, frames, reg, Machine.input_of_getElem? running, accepted, same⟩
  | deliver msg => exact permitted.elim

/-- **A step** keeps the names. -/
theorem Registered.step (registered : Registered config state)
    (reached : (machine config).Reached (fun _ _ => True) {} state)
    (stepped : (machine config).step state label = some next) : Registered config next := by
  refine ⟨fun instanceID conn found => Named.step ?_ stepped, fun index instanceID conn member =>
    Named.step ?_ stepped⟩
  · rcases Machine.step_cases stepped with ⟨input, world, _, admitted, rfl⟩ |
      ⟨index, answer, input, op, rest, world, _, running, served, rfl⟩ | ⟨change, world, _, changed, rfl⟩
    · cases admitted
      exact registered.hub instanceID conn found
    · rcases conns_of_serve served found with old | ⟨rfl, rfl⟩
      · exact registered.hub instanceID conn old
      · exact named_of_register reached running
    · cases changed
      exact registered.hub instanceID conn found
  · rcases Machine.mem_log_of_step stepped member with old | ⟨_, _, _, served⟩
    · exact registered.got index instanceID conn old
    · have given : (if some conn = state.world.conns instanceID then some state.world else none) =
        some next.world := served
      split at given
      · rename_i same
        exact registered.hub instanceID conn same.symm
      · cases given

theorem registered_of_reaches (reached : (machine config).Reached (fun _ _ => True) {} state) :
    Registered config state := by
  refine reached.invariant ⟨fun _ _ found => ?_, fun _ _ _ member => absurd member List.not_mem_nil⟩ ?_
  · cases found
  · intro state label next reached registered _ stepped
    exact registered.step reached stepped

/-! ### The life of a connection -/

def changesHub : Op → Bool
  | .register _ => true
  | .unregister _ => true
  | _ => false

/-- The connection has registered under the id and is not unregistered. -/
structure Joined (instanceID : Bytes) (log : Log) : Prop where
  registered : ⟨.register instanceID, ()⟩ ∈ log
  only : ∀ other, ⟨.register other, ()⟩ ∈ log → other = instanceID
  kept : ∀ other, (⟨.unregister other, ()⟩ : Event Op Answer) ∉ log

/-- An event about a connection: it has registered, or its loop has ended. -/
def Announces (reg : RegisterMsg) (subject : Bytes) (fields : List (Bytes × Bytes)) : Prop :=
  (subject = lit "events.ea.connected" ∧ fields = connectedFields reg) ∨
    (subject = lit "events.ea.disconnected" ∧ fields = [(lit "instance_id", reg.instanceID)])

/-- **The order of the calls.** A connection registers behind the first message. Its events and its
fills come while it is registered, and nothing comes behind `Unregister`. -/
def Phased : Op → Log → Prop
  | .register _, log => log = [⟨.read, true⟩]
  | .unregister instanceID, log => Joined instanceID log
  | .publish subject (.event fields), log =>
    ∃ reg, Joined reg.instanceID log ∧ Announces reg subject fields
  | _, log => ∀ other, (⟨.unregister other, ()⟩ : Event Op Answer) ∉ log

def Left (log : Log) : Prop :=
  ∀ instanceID, ⟨.register instanceID, ()⟩ ∈ log →
    ⟨.unregister instanceID, ()⟩ ∈ log

section Phases

variable {instanceID : Bytes} {log : Log} {frames : List Bytes} {msg : Nats.Delivery}

variable {event : Event Op Answer}

theorem mem_snoc_of_other {op : Op} {answer : Answer op} (other : changesHub event.op = false)
    (changes : changesHub op = true) (member : ⟨op, answer⟩ ∈ log ++ [event]) :
    ⟨op, answer⟩ ∈ log := by
  rcases List.mem_append.mp member with old | last
  · exact old
  · rw [← List.mem_singleton.mp last, changes] at other
    cases other

theorem Joined.snoc (joined : Joined instanceID log) (other : changesHub event.op = false) :
    Joined instanceID (log ++ [event]) where
  registered := List.mem_append_left _ joined.registered
  only := fun key inside => joined.only key (mem_snoc_of_other other rfl inside)
  kept := fun key inside => joined.kept key (mem_snoc_of_other other rfl inside)

abbrev Stays (instanceID : Bytes) (program : Running) (log : Log) : Prop :=
  program.Spec Phased (fun _ log => Joined instanceID log) log

variable {subject : Bytes}

theorem stays_publish {report : Report} (joined : Joined instanceID log)
    (fine : Phased (.publish subject report) log) :
    Stays instanceID (publishReport config subject report) log := by
  unfold publishReport
  split
  · exact ⟨fine, fun _ => joined.snoc rfl⟩
  · exact joined

theorem stays_announce {reg : RegisterMsg} {fields : List (Bytes × Bytes)}
    (joined : Joined reg.instanceID log) (announces : Announces reg subject fields) :
    Stays reg.instanceID (publishReport config subject (.event fields)) log :=
  stays_publish joined ⟨reg, joined, announces⟩

theorem stays_handleEAMessage (raw : Bytes) (joined : Joined instanceID log) :
    Stays instanceID (handleEAMessage config instanceID raw) log := by
  unfold handleEAMessage
  split
  · exact joined
  · split
    · split
      · exact joined
      · exact stays_publish joined joined.kept
    · split
      · exact ⟨joined.kept, fun _ => joined.snoc rfl⟩
      · exact joined

theorem stays_readLoop (frames : List Bytes) (log : Log) (joined : Joined instanceID log) :
    Stays instanceID (readLoop config instanceID frames) log := by
  induction frames generalizing log with
  | nil => exact ⟨joined.kept, fun _ => joined.snoc rfl⟩
  | cons raw frames ih =>
    refine ⟨joined.kept, fun came => ?_⟩
    have still : Joined instanceID (log ++ [⟨.read, came⟩]) := joined.snoc rfl
    cases came with
    | true =>
      exact (stays_handleEAMessage raw still).bind (fun _ log joined => ih log joined)
        fun error => error.elim
    | false => exact still

theorem left_unregister (joined : Joined instanceID log) :
    Left (log ++ [⟨.unregister instanceID, ()⟩]) := by
  intro key inside
  rcases List.mem_append.mp inside with old | last
  · rw [joined.only key old]
    exact List.mem_append_right _ (List.mem_singleton_self _)
  · cases List.mem_singleton.mp last

theorem phased_serveEA (reg : RegisterMsg) (frames : List Bytes) :
    (serveEA config reg frames).Spec Phased (fun _ log => Left log) [⟨.read, true⟩] := by
  have joined : Joined reg.instanceID [⟨.read, true⟩, ⟨.register reg.instanceID, ()⟩] :=
    ⟨by simp, by simp, by simp⟩
  refine ⟨rfl, fun _ => ⟨joined.kept, fun error => ?_⟩⟩
  have replied : Joined reg.instanceID
      [⟨.read, true⟩, ⟨.register reg.instanceID, ()⟩, ⟨.reply .registered, error⟩] := joined.snoc rfl
  cases error with
  | some _ => exact ⟨replied, fun _ => left_unregister replied⟩
  | none =>
    refine (stays_announce replied (.inl ⟨rfl, rfl⟩)).bind (fun _ log joined => ?_)
      fun error => error.elim
    refine (stays_readLoop frames log joined).bind (fun _ log joined => ?_) fun error => error.elim
    refine (stays_announce joined (.inr ⟨rfl, rfl⟩)).bind (fun _ log joined => ?_)
      fun error => error.elim
    exact ⟨joined, fun _ => left_unregister joined⟩

theorem left_of_nothing (nothing : ∀ event ∈ log, changesHub event.op = false) : Left log := by
  intro key inside
  cases nothing _ inside

theorem phased_eaWS (frames : List Bytes) :
    (eaWS config frames).Spec Phased (fun _ log => Left log) [] := by
  have closes (came : Bool) : (invoke .closeOwn : Running).Spec Phased (fun _ log => Left log)
      [⟨.read, came⟩] :=
    ⟨by simp [Phased], fun _ => left_of_nothing (by simp [changesHub])⟩
  cases frames with
  | nil => exact ⟨by simp [Phased], closes⟩
  | cons raw frames =>
    refine ⟨by simp [Phased], fun came => ?_⟩
    cases came with
    | false => exact closes false
    | true =>
      split
      · exact closes true
      · exact phased_serveEA _ frames

theorem phased_dispatch (msg : Nats.Delivery) :
    (dispatch config msg).Spec Phased (fun _ log => Left log) [] := by
  have disposes (disposal : Nats.Disposal) (log : Log)
      (nothing : ∀ event ∈ log, changesHub event.op = false) :
      (invoke (.dispose disposal) : Running).Spec Phased (fun _ log => Left log) log := by
    refine ⟨fun key inside => ?_, fun _ => left_of_nothing fun event inside => ?_⟩
    · cases nothing _ inside
    · rcases List.mem_append.mp inside with old | last
      · exact nothing event old
      · rw [List.mem_singleton.mp last]
        rfl
  unfold dispatch
  split
  · exact disposes _ _ (by simp)
  · split
    · exact disposes _ _ (by simp)
    · refine ⟨by simp [Phased], fun found => ?_⟩
      cases found with
      | none => exact disposes _ _ (by simp [changesHub])
      | some conn =>
        refine ⟨by simp [Phased], fun error => ?_⟩
        cases error with
        | some _ => exact disposes _ _ (by simp [changesHub])
        | none => exact disposes _ _ (by simp [changesHub])

/-- **Every thread** keeps the order. -/
theorem phased_start (input : Input) :
    (start config input).Spec Phased (fun _ log => Left log) [] := by
  cases input with
  | connect owner frames => exact phased_eaWS frames
  | deliver msg => exact phased_dispatch msg

end Phases

section Life

variable {allowed : BridgeState → BridgeLabel → Prop} {conn : Nat} {instanceID : Bytes}

theorem phased_of_running (reached : (machine config).Reached allowed {} state) {input : Input} {op : Op}
    {rest : Answer op → Running} (running : state.threads[conn]? = some ⟨input, .call op rest⟩) :
    Phased op (state.log conn) :=
  ((phased_start input).of_path (Machine.path_of_reaches reached conn _ running)).1

theorem conns_unregister_ne (hub : Hub) : (hub.unregister conn instanceID).conns instanceID ≠
    some conn := by
  unfold Hub.unregister
  split
  · simp
  · assumption

/-- **The connections in the hub** have registered under their key, and are not unregistered. -/
theorem joined_of_reaches (reached : (machine config).Reached allowed {} state) :
    ∀ instanceID conn, state.world.conns instanceID = some conn →
      Joined instanceID (state.log conn) := by
  refine reached.invariant (fun _ _ found => ?_) ?_
  · cases found
  · intro state label next reached joined _ stepped instanceID conn found
    rcases Machine.step_cases stepped with ⟨input, world, _, admitted, rfl⟩ |
      ⟨index, answer, input, op, rest, world, _, running, served, rfl⟩ | ⟨change, world, _, changed, rfl⟩
    · cases admitted
      exact joined instanceID conn found
    · have phased := phased_of_running reached running
      rw [Machine.log_record]
      rcases conns_of_serve served found with old | ⟨rfl, rfl⟩
      · have before := joined instanceID conn old
        by_cases own : index = conn
        · subst own
          rw [if_pos rfl]
          cases op with
          | register key =>
            rw [show state.log index = _ from phased] at before
            cases List.mem_singleton.mp before.registered
          | unregister key =>
            cases served
            obtain rfl := (show Joined key _ from phased).only _ before.registered
            exact absurd found (conns_unregister_ne state.world)
          | _ => exact before.snoc rfl
        · rw [if_neg own, List.append_nil]
          exact before
      · rw [if_pos rfl, show state.log conn = _ from phased]
        exact ⟨by simp, by simp, by simp⟩
    · cases changed
      exact joined instanceID conn found

end Life

/-! ### Fills -/

/-- A fill is published under the id of its connection and the trace id that it is decoded with. -/
def Reported (config : Config) (instanceID : Bytes) : Op → Prop
  | .publish subject (.fill raw) => ∃ fill, config.decodeFill raw = some fill ∧
      subject = lit "fills." ++ instanceID ++ lit "." ++ fill.traceID
  | _ => True

section Reported

variable {instanceID : Bytes}

theorem reported_event (subject : Bytes) (fields : List (Bytes × Bytes)) :
    (publishReport config subject (.event fields)).Only (Reported config instanceID) := by
  unfold publishReport
  split
  · exact ⟨trivial, fun _ => trivial⟩
  · trivial

theorem reported_handleEAMessage (raw : Bytes) :
    (handleEAMessage config instanceID raw).Only (Reported config instanceID) := by
  unfold handleEAMessage
  split
  · trivial
  · split
    · split
      · trivial
      · rename_i fill decodes
        unfold publishReport
        split
        · exact ⟨⟨fill, decodes, rfl⟩, fun _ => trivial⟩
        · trivial
    · split
      · exact ⟨trivial, fun _ => trivial⟩
      · trivial

theorem reported_readLoop (frames : List Bytes) :
    (readLoop config instanceID frames).Only (Reported config instanceID) := by
  induction frames with
  | nil => exact ⟨trivial, fun _ => trivial⟩
  | cons raw frames ih =>
    refine ⟨trivial, fun came => ?_⟩
    cases came with
    | true => exact (reported_handleEAMessage raw).bind fun _ => ih
    | false => trivial

theorem reported_serveEA (reg : RegisterMsg) (frames : List Bytes) :
    (serveEA config reg frames).Only (Reported config reg.instanceID) := by
  refine ⟨trivial, fun _ => ⟨trivial, fun error => ?_⟩⟩
  cases error with
  | some _ => exact ⟨trivial, fun _ => trivial⟩
  | none =>
    refine (reported_event _ _).bind fun _ => (reported_readLoop frames).bind fun _ => ?_
    exact (reported_event _ _).bind fun _ => ⟨trivial, fun _ => trivial⟩

theorem reported_eaWS {frames : List Bytes}
    (named : ∀ reg, frames.head?.bind (registration config) = some reg → reg.instanceID = instanceID) :
    (eaWS config frames).Only (Reported config instanceID) := by
  cases frames with
  | nil => exact ⟨trivial, fun _ => ⟨trivial, fun _ => trivial⟩⟩
  | cons raw frames =>
    refine ⟨trivial, fun came => ?_⟩
    cases came with
    | false => exact ⟨trivial, fun _ => trivial⟩
    | true =>
      split
      · exact ⟨trivial, fun _ => trivial⟩
      · rename_i reg accepted
        rw [← named reg accepted]
        exact reported_serveEA reg frames

end Reported

variable {error : Option Bytes} {conn : Nat}

/-- **The subject of a fill** holds the id of its connection. -/
theorem subject_of_fill (reached : (machine config).Reached (fun _ _ => True) {} state)
    {instanceID : Bytes} (named : Named config state instanceID conn) {subject raw : Bytes}
    (published : ⟨.publish subject (.fill raw), error⟩ ∈ state.log conn) :
    ∃ fill, config.decodeFill raw = some fill ∧
      subject = lit "fills." ++ instanceID ++ lit "." ++ fill.traceID := by
  obtain ⟨owner, frames, reg, given, accepted, rfl⟩ := named
  obtain ⟨thread, found, same⟩ := Option.map_eq_some_iff.mp given
  have path := Machine.path_of_reaches reached conn thread found
  rw [same] at path
  have only : (eaWS config frames).Only (Reported config reg.instanceID) := by
    refine reported_eaWS fun other also => ?_
    cases accepted.symm.trans also
    rfl
  exact (only.of_path path).2 _ published

/-- **A signal is written to connections of its instance only.** -/
theorem named_of_write (reached : (machine config).Reached (fun _ _ => True) {} state) {index : Nat}
    {msg : Nats.Delivery} {signal : Proto.Signal} {out : OutMsg}
    (given : state.input index = some (.deliver msg))
    (decodes : config.codec.unmarshal msg.data = some signal)
    (wrote : ⟨.write conn out, error⟩ ∈ state.log index) :
    Named config state signal.instanceId conn := by
  have spec : ((machine config).start (.deliver msg)).Spec (Permitted config (.deliver msg))
    (fun _ _ => True) [] := spec_start config (.deliver msg)
  obtain ⟨front, back, split, _, same, alsoDecodes, _, got⟩ :=
    Machine.before_of_reaches reached given spec wrote
  cases decodes.symm.trans alsoDecodes
  refine (registered_of_reaches reached).got index _ conn ?_
  rw [split]
  exact List.mem_append_left _ got

end ExecRelay.Bridge
