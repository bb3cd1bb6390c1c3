/-
**The bridge as a service.**

Terminals connect with a socket, register under an instance id and then send what they like; the hub
maps an instance id to the connection that registered last. Messages of the stream are dispatched to
the connection of their instance. A connection is named by the thread of its handler.

What the terminal sends on a connection is part of the input, as a list of frames; the connection may
end before they are all read. Pings, the watch for zombies and the terminal itself may close a
connection at any time (`Change`). The `owner` of a connection is the license that the terminal belongs
to, which the bridge does not see.
-/

import ExecRelay.Bridge.SignalMsg
import ExecRelay.Lib.Machine
import ExecRelay.Nats.Delivery

namespace ExecRelay.Bridge

open Lib
open Lib.Program (Spec)
open Nats (Delivery Disposal)

/-! ### Messages -/

structure RegisterMsg where
  type : Bytes
  instanceID : Bytes
  token : Bytes := []
  accountNumber : Bytes := []
  broker : Bytes := []
  platform : Bytes := []
  eaVersion : Bytes := []

structure FillMsg where
  type : Bytes := []
  traceID : Bytes
  status : Bytes := []
  brokerOrderID : Bytes := []
  errorCode : Bytes := []
  errorMessage : Bytes := []
deriving DecidableEq

inductive OutMsg
  | registered
  | signal (msg : SignalMsg)

/-- What the bridge publishes: a fill as it came, or the fields of an event. -/
inductive Report
  | fill (raw : Bytes)
  | event (fields : List (Bytes × Bytes))

/-- The service: its token, its publisher, and `json.Unmarshal` at the three types of message. -/
structure Config where
  /-- Empty is no check. -/
  authToken : Bytes := []
  hasPublisher : Bool := true
  codec : Proto.Codec
  decodeRegister : Bytes → Option RegisterMsg
  decodeType : Bytes → Option Bytes
  decodeFill : Bytes → Option FillMsg

/-! ### Calls -/

inductive Op
  /-- `ReadMessage` of the own connection: whether a message came. -/
  | read
  | closeOwn
  | register (instanceID : Bytes)
  | unregister (instanceID : Bytes)
  | get (instanceID : Bytes)
  /-- `WriteJSON` on the own connection. -/
  | reply (msg : OutMsg)
  /-- `WriteJSON` on another connection. -/
  | write (conn : Nat) (msg : OutMsg)
  | updateHeartbeat
  | publish (subject : Bytes) (report : Report)
  | dispose (disposal : Disposal)

/-- The answers. A write and a publication give the text of an error, or nothing. -/
@[reducible]
def Answer : Op → Type
  | .read => Bool
  | .get _ => Option Nat
  | .reply _ => Option Bytes
  | .write _ _ => Option Bytes
  | .publish _ _ => Option Bytes
  | _ => Unit

abbrev Running := Program Op Answer Empty Unit

abbrev invoke (op : Op) : Program Op Answer Empty (Answer op) :=
  Program.perform op

/-! ### The socket of a terminal -/

section Handler

variable (config : Config)

def publishReport (subject : Bytes) (report : Report) : Running := do
  if config.hasPublisher then
    let _ ← invoke (.publish subject report)
  else pure ()

def handleEAMessage (instanceID raw : Bytes) : Running := do
  match config.decodeType raw with
  | none => pure ()
  | some type =>
    if type = lit "fill" then
      match config.decodeFill raw with
      | none => pure ()
      | some fill =>
        publishReport config (lit "fills." ++ instanceID ++ lit "." ++ fill.traceID) (.fill raw)
    else if type = lit "heartbeat" then invoke .updateHeartbeat
    else pure ()

/-- The loop over the messages of a terminal, up to the end of the connection. -/
def readLoop (instanceID : Bytes) : List Bytes → Running
  | [] => do
      let _ ← invoke .read
  | raw :: frames => do
      if ← invoke .read then
        handleEAMessage config instanceID raw
        readLoop instanceID frames
      else pure ()

def registration (raw : Bytes) : Option RegisterMsg :=
  match config.decodeRegister raw with
  | none => none
  | some reg =>
    if reg.type ≠ lit "register" ∨ reg.instanceID = [] then none
    else if config.authToken ≠ [] ∧ reg.token ≠ config.authToken then none
    else some reg

def connectedFields (reg : RegisterMsg) : List (Bytes × Bytes) :=
  [(lit "instance_id", reg.instanceID), (lit "account_number", reg.accountNumber),
    (lit "broker", reg.broker), (lit "platform", reg.platform), (lit "ea_version", reg.eaVersion)]

/-- A connection that is registered. The last two calls are deferred in the source. -/
def serveEA (reg : RegisterMsg) (frames : List Bytes) : Running := do
  invoke (.register reg.instanceID)
  match ← invoke (.reply .registered) with
  | some _ => invoke (.unregister reg.instanceID)
  | none =>
    publishReport config (lit "events.ea.connected") (.event (connectedFields reg))
    readLoop config reg.instanceID frames
    publishReport config (lit "events.ea.disconnected")
      (.event [(lit "instance_id", reg.instanceID)])
    invoke (.unregister reg.instanceID)

def eaWS : List Bytes → Running
  | [] => do
      let _ ← invoke .read
      invoke .closeOwn
  | raw :: frames => do
      if ← invoke .read then
        match registration config raw with
        | none => invoke .closeOwn
        | some reg => serveEA config reg frames
      else invoke .closeOwn

/-! ### Dispatch -/

def dispatch (msg : Delivery) : Running := do
  if msg.isWornOut then invoke (.dispose .term)
  else
    match config.codec.unmarshal msg.data with
    | none => invoke (.dispose .term)
    | some signal =>
      match ← invoke (.get signal.instanceId) with
      | none => invoke (.dispose .nak)
      | some conn =>
        match ← invoke (.write conn (.signal (signalMsg signal))) with
        | some _ => invoke (.dispose .nak)
        | none => invoke (.dispose .ack)

end Handler

/-! ### The hub -/

/-- The connections by their instance ids, and those that are closed. -/
structure Hub where
  conns : Bytes → Option Nat := fun _ => none
  closed : Nat → Bool := fun _ => false

namespace Hub

variable (hub : Hub)

def close (conn : Nat) : Hub :=
  { hub with closed := fun other => other = conn || hub.closed other }

def register (conn : Nat) (instanceID : Bytes) : Hub :=
  let hub := match hub.conns instanceID with
    | some old => hub.close old
    | none => hub
  { hub with conns := fun key => if key = instanceID then some conn else hub.conns key }

def unregister (conn : Nat) (instanceID : Bytes) : Hub :=
  if hub.conns instanceID = some conn then
    { hub with conns := fun key => if key = instanceID then none else hub.conns key }
  else hub

def canWrite (conn : Nat) (error : Option Bytes) : Bool :=
  error.isSome || !hub.closed conn

end Hub

inductive Input
  | connect (owner : Bytes) (frames : List Bytes)
  | deliver (msg : Delivery)

/-- A connection is closed. -/
structure Change where
  conn : Nat

def serve (hub : Hub) (thread : Nat) : (op : Op) → Answer op → Option Hub
  | .read, came => if came && hub.closed thread then none else some hub
  | .closeOwn, _ => some (hub.close thread)
  | .register instanceID, _ => some (hub.register thread instanceID)
  | .unregister instanceID, _ => some (hub.unregister thread instanceID)
  | .get instanceID, conn => if conn = hub.conns instanceID then some hub else none
  | .reply _, error => if hub.canWrite thread error then some hub else none
  | .write conn _, error => if hub.canWrite conn error then some hub else none
  | .updateHeartbeat, _ => some hub
  | .publish _ _, _ => some hub
  | .dispose _, _ => some hub

def start (config : Config) : Input → Running
  | .connect _ frames => eaWS config frames
  | .deliver msg => dispatch config msg

/-- The service. Terminals connect and messages are delivered at any time. -/
def machine (config : Config) : Machine Hub Input Change Op Answer Empty where
  start := start config
  arrive := fun hub _ => some hub
  serve := serve
  change := fun hub change => some (hub.close change.conn)

abbrev BridgeState := Machine.State Hub Input Op Answer Empty

abbrev BridgeLabel := Machine.Label Input Change Op Answer

def registerFrame (instanceKey : String) : Bytes :=
  lit ("\x7b\"type\":\"register\",\"instance_id\":\"" ++ instanceKey ++ "\",\"token\":\"t0k3n\"\x7d")

def answering (conn : Nat) : (op : Op) → Answer op
  | .read => true
  | .closeOwn => ()
  | .register _ => ()
  | .unregister _ => ()
  | .get _ => some conn
  | .reply _ => none
  | .write _ _ => none
  | .updateHeartbeat => ()
  | .publish _ _ => none
  | .dispose _ => ()

/-! ### The calls of the handlers -/

abbrev Log := List (Event Op Answer)

def isWrite : Op → Bool
  | .write _ _ => true
  | _ => false

/-- **The calls that the log of a thread permits.** A terminal registers under the id of its first
message, if that passes the checks. A delivery is written once, as its signal, to a connection that the
hub gave for the instance of the signal. -/
def Permitted (config : Config) : Input → Op → Log → Prop
  | .connect _ frames, .register instanceID, _ =>
    ∃ reg, frames.head?.bind (registration config) = some reg ∧ reg.instanceID = instanceID
  | .connect _ _, .write _ _, _ => False
  | .deliver _, .register _, _ => False
  | .deliver msg, .write conn out, log =>
    (∀ event ∈ log, isWrite event.op = false) ∧ ∃ signal,
      config.codec.unmarshal msg.data = some signal ∧ out = .signal (signalMsg signal) ∧
      ⟨.get signal.instanceId, some conn⟩ ∈ log
  | _, _, _ => True

section Spec

variable {config : Config} {owner : Bytes} {sent : List Bytes} {log : Log}

abbrev Fine (config : Config) (owner : Bytes) (sent : List Bytes) (program : Running) (log : Log) :
    Prop :=
  program.Spec (Permitted config (.connect owner sent)) (fun _ _ => True) log

theorem Fine.next {program : Running} {next : Unit → Running} (fine : Fine config owner sent program log)
    (rest : ∀ log, Fine config owner sent (next ()) log) :
    Fine config owner sent (program >>= next) log :=
  Spec.bind fine (fun _ later _ => rest later) fun error => error.elim

theorem fine_publishReport (subject : Bytes) (report : Report) (log : Log) :
    Fine config owner sent (publishReport config subject report) log := by
  unfold publishReport
  split
  · exact ⟨trivial, fun _ => trivial⟩
  · trivial

theorem fine_handleEAMessage (instanceID raw : Bytes) (log : Log) :
    Fine config owner sent (handleEAMessage config instanceID raw) log := by
  unfold handleEAMessage
  split
  · trivial
  · split
    · split
      · trivial
      · exact fine_publishReport _ _ log
    · split
      · exact ⟨trivial, fun _ => trivial⟩
      · trivial

theorem fine_readLoop (instanceID : Bytes) (frames : List Bytes) :
    ∀ log, Fine config owner sent (readLoop config instanceID frames) log := by
  induction frames with
  | nil => exact fun log => ⟨trivial, fun _ => trivial⟩
  | cons raw frames ih =>
    intro log
    refine ⟨trivial, fun came => ?_⟩
    cases came with
    | true => exact (fine_handleEAMessage instanceID raw _).next ih
    | false => trivial

theorem fine_eaWS (owner : Bytes) (frames : List Bytes) :
    Fine config owner frames (eaWS config frames) [] := by
  cases frames with
  | nil => exact ⟨trivial, fun _ => ⟨trivial, fun _ => trivial⟩⟩
  | cons raw frames =>
    refine ⟨trivial, fun came => ?_⟩
    cases came with
    | false => exact ⟨trivial, fun _ => trivial⟩
    | true =>
      show Fine config owner (raw :: frames) (match registration config raw with
        | none => invoke .closeOwn
        | some reg => serveEA config reg frames) _
      cases accepted : registration config raw with
      | none => exact ⟨trivial, fun _ => trivial⟩
      | some reg =>
        refine ⟨⟨reg, accepted, rfl⟩, fun _ => ⟨trivial, fun error => ?_⟩⟩
        cases error with
        | some _ => exact ⟨trivial, fun _ => trivial⟩
        | none =>
          refine (fine_publishReport _ _ _).next fun _ => ?_
          refine (fine_readLoop reg.instanceID frames _).next fun _ => ?_
          exact (fine_publishReport _ _ _).next fun _ => ⟨trivial, fun _ => trivial⟩

theorem spec_dispatch (msg : Delivery) :
    (dispatch config msg).Spec (Permitted config (.deliver msg)) (fun _ _ => True) [] := by
  unfold dispatch
  split
  · exact ⟨trivial, fun _ => trivial⟩
  · cases decodes : config.codec.unmarshal msg.data with
    | none => exact ⟨trivial, fun _ => trivial⟩
    | some signal =>
      refine ⟨trivial, fun found => ?_⟩
      cases found with
      | none => exact ⟨trivial, fun _ => trivial⟩
      | some conn =>
        have once : ∀ event ∈ [(⟨.get signal.instanceId, some conn⟩ : Event Op Answer)],
            isWrite event.op = false := by
          intro event member
          rw [List.mem_singleton.mp member]
          rfl
        refine ⟨⟨once, signal, decodes, rfl, List.mem_singleton_self _⟩, fun error => ?_⟩
        cases error with
        | some _ => exact ⟨trivial, fun _ => trivial⟩
        | none => exact ⟨trivial, fun _ => trivial⟩

end Spec

/-- **Every thread** makes the permitted calls only. -/
theorem spec_start (config : Config) (input : Input) :
    (start config input).Spec (Permitted config input) (fun _ _ => True) [] := by
  cases input with
  | connect owner frames => exact fine_eaWS owner frames
  | deliver msg => exact spec_dispatch msg

end ExecRelay.Bridge
