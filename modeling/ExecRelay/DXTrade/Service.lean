/-
**The DXTrade worker as a service.**

Messages of the stream are delivered at any time and dispatched concurrently. The server of the broker
executes the orders that it confirms. What it does with an order request that it answers with an error,
or not at all, is not seen by the worker: the request may be executed nevertheless, at any later time
(`Change`). The circuit breaker may be open whenever it is asked.

`Permitted` says which calls the log of a thread permits:

* an order is requested only while no order of the thread was confirmed;
* a message is acknowledged or terminated only if it is worn out, cannot be decoded or is no command,
  or if `Client.Execute` has returned a result.
-/

import ExecRelay.DXTrade.Client
import ExecRelay.Lib.Machine

namespace ExecRelay.DXTrade

open Lib
open Lib.Program (Spec)
open Dispatch (dispatchParams)
open Nats (Delivery Disposal)
open Proto (Codec)

/-! ### The broker -/

/-- The sessions, and the threads whose order requests were executed or may still be. -/
structure Exchange where
  tokens : Bytes → Bytes := fun _ => []
  unconfirmed : List Nat := []
  executed : List Nat := []

/-- An order request that was not confirmed is executed. -/
inductive Change
  | execute (index : Nat)

def isConfirmed {Body : Type} : Except Bytes (HttpReply Body) → Bool
  | .error _ => false
  | .ok reply => [200, 201].contains reply.status

variable {Number : Type}

def serve (exchange : Exchange) (thread : Nat) : (op : Op Number) → Answer op → Option Exchange
  | .readToken instanceID, token => if token = exchange.tokens instanceID then some exchange else none
  | .storeToken instanceID token, _ =>
    some { exchange with tokens := fun key => if key = instanceID then token else exchange.tokens key }
  | .http (.placeOrder _ _ _), answer =>
    some (if isConfirmed answer then { exchange with executed := exchange.executed ++ [thread] }
      else { exchange with unconfirmed := exchange.unconfirmed ++ [thread] })
  | _, _ => some exchange

def change (exchange : Exchange) : Change → Option Exchange
  | .execute index =>
    exchange.unconfirmed[index]?.map fun thread =>
      { exchange with
        unconfirmed := exchange.unconfirmed.eraseIdx index
        executed := exchange.executed ++ [thread] }

/-- What the worker is built from. -/
structure Setup (Number : Type) where
  doubles : Doubles Number
  newRequest : Bytes → Option Bytes
  codec : Codec
  instances : List InstanceConfig

def machine (setup : Setup Number) : Machine Exchange Delivery Change (Op Number) Answer ClientError where
  start := dispatch setup.doubles setup.newRequest setup.codec setup.instances
  arrive := fun exchange _ => some exchange
  serve := serve
  change := change

abbrev WorkerState (Number : Type) :=
  Machine.State Exchange Delivery (Op Number) (@Answer Number) ClientError

abbrev WorkerLabel (Number : Type) :=
  Machine.Label Delivery Change (Op Number) (@Answer Number)

abbrev Log (Number : Type) := List (Event (Op Number) (@Answer Number))

/-! ### Calls that place no order -/

/-- A call that neither requests an order nor reports or disposes of anything. -/
def isHarmless : Op Number → Bool
  | .http (.placeOrder _ _ _) => false
  | .publishFill _ _ => false
  | .dispose _ _ => false
  | _ => true

abbrev Harmless {Result : Type} (program : Worker Number Result) : Prop :=
  program.Only fun op => isHarmless op = true

section Harmless

variable {newRequest : Bytes → Option Bytes} {cfg : InstanceConfig}

theorem harmless_checkURL (url : Bytes) : Harmless (checkURL newRequest url : Worker Number Unit) := by
  unfold checkURL
  split <;> trivial

theorem harmless_request {req : HttpRequest Number} (harmless : isHarmless (.http req) = true)
    (accepted : List Nat) (context : String) : Harmless (request req accepted context) := by
  refine Program.Only.bind (Program.Only.perform harmless) fun answer => ?_
  split
  · trivial
  · split_ifs <;> trivial

theorem harmless_login : Harmless (login newRequest cfg : Worker Number Unit) := by
  unfold login
  refine Program.Only.bind (harmless_checkURL _) fun _ =>
    Program.Only.bind (Program.Only.perform rfl) fun answer => ?_
  split
  · trivial
  · split
    · trivial
    · split
      · trivial
      · split
        · trivial
        · exact Program.Only.perform rfl

theorem harmless_sessionToken : Harmless (sessionToken newRequest cfg : Worker Number Bytes) := by
  unfold sessionToken
  refine Program.Only.bind (Program.Only.perform rfl) fun token => ?_
  split
  · exact Program.Only.bind harmless_login fun _ => Program.Only.perform rfl
  · trivial

theorem harmless_deleteOne {req : HttpRequest Number} (harmless : isHarmless (.http req) = true)
    (url : Bytes) (count : Nat) : Harmless (deleteOne newRequest req url count) := by
  unfold deleteOne
  split
  · trivial
  · exact Program.Only.bind (Program.Only.perform harmless) fun _ => trivial

theorem harmless_closeEach (token : Bytes) (cmd : Command Number) (wantSide : Bytes)
    (positions : List PositionInfo) :
    ∀ closed, Harmless (closeEach newRequest cfg token cmd wantSide positions closed) := by
  induction positions with
  | nil => exact fun _ => trivial
  | cons position rest ih =>
    intro closed
    unfold closeEach
    split
    · exact Program.Only.bind (harmless_deleteOne rfl _ _) fun closed => ih closed
    · exact ih closed

theorem harmless_closePositions (token : Bytes) (cmd : Command Number) :
    Harmless (closePositions newRequest cfg token cmd) := by
  unfold closePositions
  refine Program.Only.bind (harmless_checkURL _) fun _ =>
    Program.Only.bind (harmless_request rfl _ _) fun listed => ?_
  split
  · trivial
  · exact Program.Only.bind (harmless_closeEach _ _ _ _ _) fun _ => trivial

theorem harmless_cancelEach (token : Bytes) (cmd : Command Number) (orders : List OrderInfo) :
    ∀ cancelled, Harmless (cancelEach newRequest cfg token cmd orders cancelled) := by
  induction orders with
  | nil => exact fun _ => trivial
  | cons order rest ih =>
    intro cancelled
    unfold cancelEach
    split
    · exact Program.Only.bind (harmless_deleteOne rfl _ _) fun cancelled => ih cancelled
    · exact ih cancelled

theorem harmless_cancelOrders (token : Bytes) (cmd : Command Number) :
    Harmless (cancelOrders newRequest cfg token cmd) := by
  unfold cancelOrders
  refine Program.Only.bind (harmless_checkURL _) fun _ =>
    Program.Only.bind (harmless_request rfl _ _) fun listed => ?_
  split
  · trivial
  · exact Program.Only.bind (harmless_cancelEach _ _ _ _) fun _ => trivial

end Harmless

/-! ### Execution -/

def isPlaced : Event (Op Number) (@Answer Number) → Bool
  | ⟨.http (.placeOrder _ _ _), answer⟩ => isConfirmed answer
  | _ => false

/-- No order was confirmed. -/
def Unplaced (log : Log Number) : Prop :=
  ∀ event ∈ log, isPlaced event = false

theorem Unplaced.concat {log : Log Number} {event : Event (Op Number) (@Answer Number)}
    (unplaced : Unplaced log) (last : isPlaced event = false) : Unplaced (log ++ [event]) := by
  intro given member
  rcases List.mem_append.mp member with earlier | same
  · exact unplaced given earlier
  · rw [List.mem_singleton.mp same]
    exact last

theorem not_isPlaced_of_harmless {op : Op Number} (harmless : isHarmless op = true)
    (answer : Answer op) : isPlaced ⟨op, answer⟩ = false := by
  unfold isHarmless at harmless
  split at harmless
  · cases harmless
  · cases harmless
  · cases harmless
  · rename_i noOrder _ _
    unfold isPlaced
    split
    · rename_i url token body _ same
      cases same
      exact absurd rfl (noOrder _ _ _)
    · rfl

/-- The calls of `Client.Execute`: an order is requested only while none was confirmed. -/
def Executing : Op Number → Log Number → Prop
  | .http (.placeOrder _ _ _), log => Unplaced log
  | .publishFill _ _, _ => False
  | .dispose _ _, _ => False
  | _, _ => True

/-- The program may go on to ask for another order only if it has failed. -/
abbrev Careful {Result : Type} (program : Worker Number Result) : Prop :=
  ∀ log, Unplaced log →
    program.Spec Executing (fun result later => result.isOk = false → Unplaced later) log

theorem executing_of_harmless {op : Op Number} (harmless : isHarmless op = true) (log : Log Number) :
    Executing op log := by
  unfold isHarmless at harmless
  unfold Executing
  split <;> first | cases harmless | trivial

theorem Harmless.spec {Result : Type} {program : Worker Number Result} (harmless : Harmless program) :
    ∀ log, Unplaced log → program.Spec Executing (fun _ later => Unplaced later) log := by
  induction program with
  | done result => exact fun log unplaced => unplaced
  | fail error => exact fun log unplaced => unplaced
  | call op next ih =>
    intro log unplaced
    refine ⟨executing_of_harmless harmless.1 log, fun answer => ?_⟩
    exact ih answer (harmless.2 answer) _
      (unplaced.concat (not_isPlaced_of_harmless harmless.1 answer))

theorem Harmless.careful {Result : Type} {program : Worker Number Result}
    (harmless : Harmless program) : Careful program := by
  intro log unplaced
  exact (harmless.spec log unplaced).consequence fun _ _ holds _ => holds

theorem Careful.after {Value Result : Type} {program : Worker Number Value}
    {next : Value → Worker Number Result} (harmless : Harmless program)
    (careful : ∀ value, Careful (next value)) : Careful (program >>= next) := by
  intro log unplaced
  exact Spec.bind (harmless.spec log unplaced) (fun value later holds => careful value later holds)
    fun _ _ holds _ => holds

section Execution

variable {doubles : Doubles Number} {newRequest : Bytes → Option Bytes} {cfg : InstanceConfig}

theorem careful_requestOrder (url token : Bytes) (body : Option (PlaceOrderReq Number))
    (context : String) : Careful (request (.placeOrder url token body) [200, 201] context) := by
  intro log unplaced
  refine ⟨unplaced, fun answer => ?_⟩
  cases answer with
  | error text => exact fun _ => unplaced.concat rfl
  | ok reply =>
    show (if reply.status = 401 then .fail .auth
      else if [200, 201].contains reply.status then .done reply.body
      else .fail (.other _) : Worker Number _).Spec _ _ _
    split
    · rename_i status
      exact fun _ => unplaced.concat (by simp [isPlaced, isConfirmed, status])
    · split
      · exact fun failed => by cases failed
      · rename_i refused
        exact fun _ => unplaced.concat (by simpa [isPlaced, isConfirmed] using refused)

theorem careful_placeOrder (token : Bytes) (cmd : Command Number) :
    Careful (placeOrder doubles newRequest cfg token cmd) := by
  refine Careful.after (harmless_checkURL _) fun _ log unplaced => ?_
  exact Spec.bind (careful_requestOrder _ _ _ _ log unplaced) (fun _ _ _ failed => by cases failed)
    fun _ _ holds => holds

theorem careful_execute (cmd : Command Number) : Careful (execute doubles newRequest cfg cmd) := by
  refine Careful.after harmless_sessionToken fun token => ?_
  split
  · exact careful_placeOrder token cmd
  · split
    · exact (harmless_closePositions token cmd).careful
    · split
      · exact (harmless_cancelOrders token cmd).careful
      · exact fun log unplaced _ => unplaced

/-- An attempt behind the circuit breaker does not fail itself, and if it gives an error no order was
confirmed. -/
def Tried : Except ClientError (Except ClientError Result) → Log Number → Prop
  | .ok (.ok _), _ => True
  | .ok (.error _), log => Unplaced log
  | .error _, _ => False

theorem spec_guardedExecute (cmd : Command Number) (log : Log Number) (unplaced : Unplaced log) :
    (guardedExecute doubles newRequest cfg cmd).Spec Executing Tried log := by
  refine ⟨trivial, fun refused => ?_⟩
  have passed : Unplaced (log ++ [⟨.passBreaker cfg.instanceID, refused⟩]) := unplaced.concat rfl
  cases refused with
  | some text => exact passed
  | none =>
    have executed : ((execute doubles newRequest cfg cmd).attempt :
        Worker Number (Except ClientError Result)).Spec Executing Tried
        (log ++ [⟨.passBreaker cfg.instanceID, none⟩]) := by
      refine Spec.attempt ((careful_execute cmd _ passed).consequence ?_)
      intro result later holds
      cases result with
      | ok result => trivial
      | error error => exact holds rfl
    show ((execute doubles newRequest cfg cmd).attempt >>= fun result =>
      invoke (.report cfg.instanceID result.isOk) >>= fun _ => pure result :
        Worker Number (Except ClientError Result)).Spec _ _ _
    refine Spec.bind executed (fun result later holds => ⟨trivial, fun _ => ?_⟩) fun _ _ never => never
    cases result with
    | ok result => trivial
    | error error => exact Unplaced.concat holds rfl

theorem careful_reauthenticate (cmd : Command Number) :
    Careful (reauthenticate doubles newRequest cfg cmd) := by
  refine Careful.after harmless_login.attempt fun result => ?_
  split
  · exact fun log unplaced _ => unplaced
  · exact careful_execute cmd

theorem careful_attempts (cmd : Command Number) (left : Nat) :
    ∀ lastErr, Careful (attempts doubles newRequest cfg cmd left lastErr) := by
  induction left with
  | zero => exact fun _ log unplaced _ => unplaced
  | succ left ih =>
    intro lastErr log unplaced
    refine Spec.bind (spec_guardedExecute cmd log unplaced) (fun result later holds => ?_)
      fun _ _ never => never.elim
    split
    · exact fun failed => by cases failed
    · exact careful_reauthenticate cmd later holds
    · exact fun _ => holds
    · exact ih _ later holds

theorem careful_executeCommand (cmd : Command Number) :
    Careful (executeCommand doubles newRequest cfg cmd) :=
  careful_attempts cmd _ _

end Execution

/-! ### Dispatch -/

section Dispatch

variable (setup : Setup Number)

/-- The command of a signal. -/
def commandOf (signal : Proto.Signal) : Except CommandError (Command Number) :=
  parseCommand setup.doubles signal.traceId signal.command signal.symbol (dispatchParams signal.params)

/-- `Client.Execute` has returned a result for the signal. -/
def Returned (signal : Proto.Signal) (log : Log Number) : Prop :=
  ∃ cfg cmd inner back result, clientFor setup.instances signal.instanceId = some cfg ∧
    commandOf setup signal = .ok cmd ∧ log = inner ++ back ∧
    (executeCommand setup.doubles setup.newRequest cfg cmd).Path inner (.done result)

variable {setup} in
theorem Returned.append {signal : Proto.Signal} {log : Log Number}
    (returned : Returned setup signal log) (more : Log Number) :
    Returned setup signal (log ++ more) := by
  obtain ⟨cfg, cmd, inner, back, result, client, parsed, rfl, path⟩ := returned
  exact ⟨cfg, cmd, inner, back ++ more, result, client, parsed, by simp, path⟩

/-- The worker does not carry the message out: it is worn out, or its signal is no command of an
account. -/
def isGivenUp (msg : Delivery) (signal : Proto.Signal) : Bool :=
  msg.isWornOut ||
    (clientFor setup.instances signal.instanceId).isSome && !(commandOf setup signal).isOk

/-- What the log of a thread must show if its message is disposed of for good. -/
def Finished (msg : Delivery) (log : Log Number) : Prop :=
  ∀ signal, setup.codec.unmarshal msg.data = some signal →
    isGivenUp setup msg signal = true ∨ Returned setup signal log

/-- **The calls that the log of a thread permits.** -/
def Permitted (msg : Delivery) : Op Number → Log Number → Prop
  | .http (.placeOrder _ _ _), log => Unplaced log
  | .dispose _ disposal, log => disposal = .nak ∨ Finished setup msg log
  | _, _ => True

theorem permitted_of_executing {msg : Delivery} {op : Op Number} {log : Log Number}
    (executing : Executing op log) : Permitted setup msg op log := by
  unfold Executing at executing
  unfold Permitted
  split <;> first | exact executing | exact executing.elim | trivial

theorem spec_term {msg : Delivery} {log : Log Number} (finished : Finished setup msg log) :
    (invoke (.dispose msg.sequence .term) : Worker Number Unit).Spec (Permitted setup msg)
      (fun _ _ => True) log :=
  ⟨.inr finished, fun _ => trivial⟩

theorem spec_carryOut {msg : Delivery} {signal : Proto.Signal} {cfg : InstanceConfig}
    {cmd : Command Number} (decodes : setup.codec.unmarshal msg.data = some signal)
    (client : clientFor setup.instances signal.instanceId = some cfg)
    (parsed : commandOf setup signal = .ok cmd) :
    (carryOut setup.doubles setup.newRequest cfg msg cmd).Spec (Permitted setup msg)
      (fun _ _ => True) [] := by
  have executed : ((executeCommand setup.doubles setup.newRequest cfg cmd).attempt :
      Worker Number (Except ClientError Result)).Spec (Permitted setup msg)
      (fun outcome later => ∀ result, outcome = .ok (.ok result) →
        (executeCommand setup.doubles setup.newRequest cfg cmd).Path later (.done result)) [] := by
    have careful : (executeCommand setup.doubles setup.newRequest cfg cmd).Spec Executing _ [] :=
      careful_executeCommand cmd [] nofun
    refine Spec.attempt
      (((careful.weaken fun _ _ => permitted_of_executing setup).traced).consequence ?_)
    rintro outcome later ⟨-, inner, rfl, path⟩ result same
    cases same
    exact path
  refine Spec.bind executed (fun outcome later holds => ?_) fun _ _ _ => trivial
  cases outcome with
  | ok result =>
    have returned (event : Event (Op Number) Answer) : Returned setup signal (later ++ [event]) :=
      ⟨cfg, cmd, later, [event], result, client, parsed, rfl, holds result rfl⟩
    refine ⟨trivial, fun published => ⟨.inr fun other decoded => ?_, fun _ => trivial⟩⟩
    cases decodes.symm.trans decoded
    exact .inr (returned _)
  | error error =>
    cases error with
    | panic => trivial
    | auth => exact ⟨trivial, fun _ => ⟨.inl rfl, fun _ => trivial⟩⟩
    | other text => exact ⟨trivial, fun _ => ⟨.inl rfl, fun _ => trivial⟩⟩

theorem spec_dispatch (msg : Delivery) :
    (dispatch setup.doubles setup.newRequest setup.codec setup.instances msg).Spec
      (Permitted setup msg) (fun _ _ => True) [] := by
  unfold dispatch
  split
  · rename_i wornOut
    exact spec_term setup fun _ _ => .inl (by simp [isGivenUp, wornOut])
  · cases decodes : setup.codec.unmarshal msg.data with
    | none =>
      refine spec_term setup fun signal decoded => ?_
      cases decodes.symm.trans decoded
    | some signal =>
      dsimp only
      cases client : clientFor setup.instances signal.instanceId with
      | none => exact ⟨.inl rfl, fun _ => trivial⟩
      | some cfg =>
        cases parsed : commandOf setup signal with
        | error error =>
          rw [commandOf] at parsed
          rw [parsed]
          refine spec_term setup fun other decoded => .inl ?_
          cases decodes.symm.trans decoded
          simp [isGivenUp, client, commandOf, parsed, Except.isOk, Except.toBool]
        | ok cmd =>
          have carried := spec_carryOut setup decodes client parsed
          rw [commandOf] at parsed
          rw [parsed]
          exact carried

end Dispatch

end ExecRelay.DXTrade
