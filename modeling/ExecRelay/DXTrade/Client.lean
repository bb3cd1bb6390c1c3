/-
**The DXTrade worker** (`apps/dxtrade/internal/dxtrade`).

`dispatch` takes a message from the stream, `parseCommand` makes a command of its signal, and
`Client.Execute` carries the command out over the REST API of the broker: up to four attempts behind
a circuit breaker, a session token that is renewed once if the server asks for it. The HTTP server,
the circuit breaker and the message's disposal are the operations `Op`.

`newRequest` is the check that `http.NewRequest` makes of an address: the text of its error, if there
is one. The delay between two attempts and the metrics are left out.
-/

import ExecRelay.Dispatch.Params
import ExecRelay.Lib.Double
import ExecRelay.Lib.Program
import ExecRelay.Nats.Delivery

namespace ExecRelay.DXTrade

open Lib
open Dispatch (StringMap dispatchParams)
open Nats (Delivery Disposal)
open Proto (Codec)

/-! ### Commands -/

structure Command (Number : Type) where
  traceID : Bytes
  action : Bytes
  symbol : Bytes
  volume : Number

inductive CommandError
  | invalidVolume (volume : Bytes)
  | volumeRequired (action : Bytes)
  | unsupportedAction (action : Bytes)
deriving DecidableEq, Repr

def opens (action : Bytes) : Bool :=
  [lit "buy", lit "sell", lit "buystop", lit "sellstop", lit "buylimit", lit "selllimit"].contains
    action

def closes (action : Bytes) : Bool :=
  [lit "closebuy", lit "closesell", lit "closeall"].contains action

variable {Number : Type} (doubles : Doubles Number)

def parseVolume (params : StringMap) : Except CommandError Number :=
  match params.lookup (lit "vol_lots") with
  | none => .ok (doubles.ofNat 0)
  | some volume =>
    match doubles.parseFloat volume with
    | none => .error (.invalidVolume volume)
    | some value => .ok value

def parseCommand (traceID action symbol : Bytes) (params : StringMap) :
    Except CommandError (Command Number) := do
  let volume ← parseVolume doubles params
  if opens action then
    if doubles.le volume (doubles.ofNat 0) then .error (.volumeRequired action)
    else .ok ⟨traceID, action, symbol, volume⟩
  else if closes action || action = lit "cancel" then .ok ⟨traceID, action, symbol, volume⟩
  else .error (.unsupportedAction action)

/-! ### The environment -/

structure InstanceConfig where
  instanceID : Bytes
  host : Bytes
  username : Bytes
  password : Bytes
  account : Bytes
deriving DecidableEq, Repr

/-- The body of an order. There is no field for a stop loss. -/
structure PlaceOrderReq (Number : Type) where
  type : Bytes
  side : Bytes
  symbol : Bytes
  qty : Number

/-- An open position as far as the client reads it; a field that is missing is empty. -/
structure PositionInfo where
  symbol : Bytes
  side : Bytes
  positionID : Bytes

structure OrderInfo where
  symbol : Bytes
  orderID : Bytes

/-- The requests to the server, with the address and the session token. -/
inductive HttpRequest (Number : Type)
  | login (url username password : Bytes)
  | placeOrder (url token : Bytes) (body : Option (PlaceOrderReq Number))
  | listPositions (url token : Bytes)
  | closePosition (url token : Bytes)
  | listOrders (url token : Bytes)
  | deleteOrder (url token : Bytes)

/-- A status and a decoded body. -/
structure HttpReply (Body : Type) where
  status : Nat
  body : Body

/-- The body that the client decodes from an answer, or the text of the decoder's error. -/
@[reducible]
def HttpRequest.Body : HttpRequest Number → Type
  | .login _ _ _ => Except Bytes Bytes
  | .placeOrder _ _ _ => Option Bytes
  | .listPositions _ _ => Except Bytes (List PositionInfo)
  | .closePosition _ _ => Unit
  | .listOrders _ _ => Except Bytes (List OrderInfo)
  | .deleteOrder _ _ => Unit

structure Result where
  status : Bytes
  brokerOrderID : Bytes := []
  errorCode : Bytes := []
  errorMessage : Bytes := []

structure FillPayload where
  traceID : Bytes
  result : Result

inductive Op (Number : Type)
  /-- The circuit breaker of a client lets an attempt through, or says why not. -/
  | passBreaker (instanceID : Bytes)
  | report (instanceID : Bytes) (success : Bool)
  | readToken (instanceID : Bytes)
  | storeToken (instanceID token : Bytes)
  | http (request : HttpRequest Number)
  | publishFill (subject : Bytes) (payload : FillPayload)
  | dispose (sequence : Nat) (disposal : Disposal)

@[reducible]
def Answer : Op Number → Type
  | .passBreaker _ => Option Bytes
  | .report _ _ => Unit
  | .readToken _ => Bytes
  | .storeToken _ _ => Unit
  | .http request => Except Bytes (HttpReply request.Body)
  | .publishFill _ _ => Option Bytes
  | .dispose _ _ => Unit

/-- The errors of the client. `panic` is not an error but the end of the process. -/
inductive ClientError
  | auth
  | other (text : Bytes)
  | panic
deriving DecidableEq, Repr

def ClientError.error : ClientError → Bytes
  | auth => lit "dxtrade: auth required"
  | other text => text
  | panic => lit "panic"

abbrev Worker (Number : Type) := Program (Op Number) Answer ClientError

abbrev invoke (op : Op Number) : Worker Number (Answer op) :=
  Program.perform op

/-! ### The client -/

variable (newRequest : Bytes → Option Bytes) (cfg : InstanceConfig)

def baseURL : Bytes :=
  lit "https://" ++ cfg.host

def accountURL (path : String) : Bytes :=
  baseURL cfg ++ lit "/api/trading/accounts/" ++ cfg.account ++ lit path

def statusText (status : Nat) : Bytes :=
  lit (toString status)

/-- `http.NewRequest`, whose error ends the function. -/
def checkURL (url : Bytes) : Worker Number Unit :=
  match newRequest url with
  | some text => .fail (.other text)
  | none => .done ()

/-- Send a request and expect one of the given statuses; a `401` is the error that asks for a new
session. -/
def request (req : HttpRequest Number) (accepted : List Nat) (context : String) :
    Worker Number (HttpRequest.Body req) := do
  match ← invoke (.http req) with
  | .error text => .fail (.other text)
  | .ok reply =>
    if reply.status = 401 then .fail .auth
    else if accepted.contains reply.status then .done reply.body
    else .fail (.other (lit context ++ statusText reply.status))

def login : Worker Number Unit := do
  let url := baseURL cfg ++ lit "/api/auth/login"
  checkURL newRequest url
  match ← invoke (.http (.login url cfg.username cfg.password)) with
  | .error text => .fail (.other text)
  | .ok reply =>
    if reply.status ≠ 200 then .fail (.other (lit "dxtrade login: status " ++ statusText reply.status))
    else
      match reply.body with
      | .error text => .fail (.other (lit "dxtrade login: decode: " ++ text))
      | .ok token =>
        if token = [] then .fail (.other (lit "dxtrade login: empty session token"))
        else invoke (.storeToken cfg.instanceID token)

/-- The body of a command's order. A quantity that JSON cannot write leaves the body empty. -/
def orderBody (cmd : Command Number) : Option (PlaceOrderReq Number) :=
  let orderType :=
    if cmd.action = lit "buystop" ∨ cmd.action = lit "sellstop" then lit "STOP"
    else if cmd.action = lit "buylimit" ∨ cmd.action = lit "selllimit" then lit "LIMIT"
    else lit "MARKET"
  let side :=
    if cmd.action = lit "sell" ∨ cmd.action = lit "sellstop" ∨ cmd.action = lit "selllimit" then
      lit "SELL"
    else lit "BUY"
  if doubles.isFinite cmd.volume then some ⟨orderType, side, cmd.symbol, cmd.volume⟩ else none

def placeOrder (token : Bytes) (cmd : Command Number) : Worker Number Result := do
  let url := accountURL cfg "/orders"
  checkURL newRequest url
  let orderID ← request (.placeOrder url token (orderBody doubles cmd)) [200, 201]
    "dxtrade place order: status "
  return { status := lit "filled", brokerOrderID := orderID.getD [] }

/-- A `DELETE` that went through. -/
def isDeleted {Body : Type} : Except Bytes (HttpReply Body) → Bool
  | .error _ => false
  | .ok reply => reply.status = 200 || reply.status = 204

/-- Delete one entry of a list and count it. An address that `http.NewRequest` refuses gives a nil
request, whose header the source sets all the same. -/
def deleteOne (req : HttpRequest Number) (url : Bytes) (count : Nat) : Worker Number Nat := do
  if (newRequest url).isSome then .fail .panic
  else
    let answer ← invoke (.http req)
    return if isDeleted answer then count + 1 else count

def closeEach (token : Bytes) (cmd : Command Number) (wantSide : Bytes) :
    List PositionInfo → Nat → Worker Number Nat
  | [], closed => pure closed
  | position :: rest, closed => do
      if position.symbol = cmd.symbol ∧ (wantSide = [] ∨ position.side = wantSide) then
        let url := accountURL cfg "/positions/" ++ position.positionID
        let closed ← deleteOne newRequest (.closePosition url token) url closed
        closeEach token cmd wantSide rest closed
      else closeEach token cmd wantSide rest closed

def closePositions (token : Bytes) (cmd : Command Number) : Worker Number Result := do
  let url := accountURL cfg "/positions"
  checkURL newRequest url
  match ← request (.listPositions url token) [200] "dxtrade get positions: status " with
  | .error text => .fail (.other (lit "dxtrade decode positions: " ++ text))
  | .ok positions =>
    let wantSide :=
      if cmd.action = lit "closebuy" then lit "BUY"
      else if cmd.action = lit "closesell" then lit "SELL"
      else []
    let closed ← closeEach newRequest cfg token cmd wantSide positions 0
    return { status := lit "filled", brokerOrderID := lit "closed:" ++ statusText closed }

def cancelEach (token : Bytes) (cmd : Command Number) : List OrderInfo → Nat → Worker Number Nat
  | [], cancelled => pure cancelled
  | order :: rest, cancelled => do
      if order.symbol = cmd.symbol then
        let url := accountURL cfg "/orders/" ++ order.orderID
        let cancelled ← deleteOne newRequest (.deleteOrder url token) url cancelled
        cancelEach token cmd rest cancelled
      else cancelEach token cmd rest cancelled

def cancelOrders (token : Bytes) (cmd : Command Number) : Worker Number Result := do
  let url := accountURL cfg "/orders"
  checkURL newRequest url
  match ← request (.listOrders url token) [200] "dxtrade get orders: status " with
  | .error text => .fail (.other (lit "dxtrade decode orders: " ++ text))
  | .ok orders =>
    let cancelled ← cancelEach newRequest cfg token cmd orders 0
    return { status := lit "filled", brokerOrderID := lit "cancelled:" ++ statusText cancelled }

def sessionToken : Worker Number Bytes := do
  let token ← invoke (.readToken cfg.instanceID)
  if token = [] then
    login newRequest cfg
    invoke (.readToken cfg.instanceID)
  else pure token

def execute (cmd : Command Number) : Worker Number Result := do
  let token ← sessionToken newRequest cfg
  if opens cmd.action then placeOrder doubles newRequest cfg token cmd
  else if closes cmd.action then closePositions newRequest cfg token cmd
  else if cmd.action = lit "cancel" then cancelOrders newRequest cfg token cmd
  else .fail (.other (lit "dxtrade: unsupported action \"" ++ cmd.action ++ lit "\""))

/-- `execute` behind the circuit breaker. -/
def guardedExecute (cmd : Command Number) : Worker Number (Except ClientError Result) := do
  match ← invoke (.passBreaker cfg.instanceID) with
  | some text => return .error (.other text)
  | none =>
    let result ← (execute doubles newRequest cfg cmd).attempt
    invoke (.report cfg.instanceID result.isOk)
    return result

/-- A new session and one more try, outside of the circuit breaker. -/
def reauthenticate (cmd : Command Number) : Worker Number Result := do
  match ← (login newRequest cfg).attempt with
  | .error error => .fail (.other (lit "dxtrade reauth: " ++ error.error))
  | .ok _ => execute doubles newRequest cfg cmd

def maxRetries : Nat := 3

def attempts (cmd : Command Number) : Nat → ClientError → Worker Number Result
  | 0, lastErr => .fail lastErr
  | left + 1, _ => do
      match ← guardedExecute doubles newRequest cfg cmd with
      | .ok result => return result
      | .error .auth => reauthenticate doubles newRequest cfg cmd
      | .error .panic => .fail .panic
      | .error error => attempts cmd left error

/-- `Client.Execute`. -/
def executeCommand (cmd : Command Number) : Worker Number Result :=
  attempts doubles newRequest cfg cmd (maxRetries + 1) (.other [])

/-! ### The subscriber -/

/-- The client of an instance; a later entry of the configuration replaces an earlier one. -/
def clientFor (instances : List InstanceConfig) (instanceID : Bytes) : Option InstanceConfig :=
  instances.reverse.find? fun cfg => cfg.instanceID = instanceID

def publishFill (instanceID traceID : Bytes) (result : Result) : Worker Number Unit := do
  let _ ← invoke (.publishFill (lit "fills." ++ instanceID ++ lit "." ++ traceID) ⟨traceID, result⟩)

def carryOut (cfg : InstanceConfig) (msg : Delivery) (cmd : Command Number) : Worker Number Unit := do
  match ← (executeCommand doubles newRequest cfg cmd).attempt with
  | .ok result =>
    publishFill cfg.instanceID cmd.traceID result
    invoke (.dispose msg.sequence .ack)
  | .error .panic => .fail .panic
  | .error error =>
    publishFill cfg.instanceID cmd.traceID { status := lit "rejected", errorMessage := error.error }
    invoke (.dispose msg.sequence .nak)

def dispatch (codec : Codec) (instances : List InstanceConfig) (msg : Delivery) :
    Worker Number Unit := do
  if msg.isWornOut then invoke (.dispose msg.sequence .term)
  else
    match codec.unmarshal msg.data with
    | none => invoke (.dispose msg.sequence .term)
    | some signal =>
      match clientFor instances signal.instanceId with
      | none => invoke (.dispose msg.sequence .nak)
      | some cfg =>
        match parseCommand doubles signal.traceId signal.command signal.symbol
          (dispatchParams signal.params) with
        | .error _ => invoke (.dispose msg.sequence .term)
        | .ok cmd => carryOut doubles newRequest cfg msg cmd

end ExecRelay.DXTrade
