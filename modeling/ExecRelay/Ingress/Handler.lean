/-
**The handlers of ingress** (`apps/ingress/internal/ingress/handler.go`, `ml.go`, `risk.go`).

A handler is a program over the operations `Op`: the clock, the kill switch, the rate limiter, the
license store, the daily counter, the database, the predictor, the publishers and the response. A gate
that refuses a request writes its response and ends the program (`reject`); the request event is
published in any case (`handled`).

What only goes to the log is left out. The events, the rows of the database and the bodies of the
responses are kept by their fields. `Config` holds the functions of the standard library that are not
modelled: the readers of addresses and of JSON, and the formats of numbers.
-/

import ExecRelay.Ingress.Request
import ExecRelay.Lib.Program
import ExecRelay.Parser.Parse

namespace ExecRelay.Ingress

open Lib
open ExecRelay.Parser (Command)

/-! ### Configuration -/

structure Config where
  region : Bytes
  maxBodyBytes : Nat := 4096
  /-- In nanoseconds; not positive is no check. -/
  timestampWindow : Int := 0
  rateLimited : Bool := false
  allowedCIDRs : List IPNet := []
  hasDB : Bool := false
  /-- Empty is no gate. -/
  perimeterToken : Bytes := []
  hasEventPublisher : Bool := false
  mlEnforce : Bool := false
  /-- `net.ParseIP`. -/
  parseIP : Bytes → Option Bytes
  /-- `json.Unmarshal` of a request to the ML route, or the text of its error. -/
  decodeML : Bytes → Except Bytes MLWebhookRequest
  /-- `strconv.FormatFloat` with the shortest form. -/
  formatFloat : Float64 → Bytes
  /-- `fmt.Sprintf` with two decimals. -/
  formatFixed : Float64 → Bytes

/-! ### Responses, events and rows -/

/-- The `ml` member of a response. -/
inductive MLOut
  | failed (error : Bytes) (enforced : Bool)
  | scored (actionSummary : Bytes) (probWin : Option Float64) (threshold : Float64)
      (modelVersion : Bytes) (enforced : Bool)
deriving DecidableEq, Repr

inductive ResponseBody
  | texts (fields : List (Bytes × Bytes))
  | decision (status traceID : Bytes) (ml : MLOut)
deriving DecidableEq, Repr

structure Response where
  status : Nat
  header : Header := []
  body : ResponseBody
deriving DecidableEq, Repr

/-- The response `200` with the status `accepted`. -/
def Response.isAccepted (response : Response) : Bool :=
  response.status = 200 &&
    match response.body with
    | .texts fields => fields.lookup (lit "status") == some (lit "accepted")
    | .decision status _ _ => status = lit "accepted"

/-- The response `503` with the error `publish_failed`. -/
def Response.isPublishFailed (response : Response) : Bool :=
  response.status = 503 && response.body = .texts [(lit "error", lit "publish_failed")]

/-- What the handler knows about a request when it is over. -/
structure WebhookCtx where
  requestID : Bytes
  traceID : Bytes := []
  licenseKey : Bytes := []
  bodySHA256 : Bytes := []
  reasonCode : Bytes := []
  /-- The status that the recorder has seen. -/
  status : Nat := 200
deriving DecidableEq, Repr

structure RequestEvent where
  ctx : WebhookCtx
  method : Bytes
  path : Bytes
  clientIP : Bytes
  outcome : Bytes
  latency : Int
  userAgent : Bytes
  region : Bytes
  receivedAt : Time
deriving DecidableEq, Repr

structure RejectionEvent where
  licenseID : Bytes
  reasonCode : Bytes
  payloadHash : Bytes
  region : Bytes
deriving DecidableEq, Repr

inductive AuditEvent
  | request (event : RequestEvent)
  | rejection (event : RejectionEvent)
deriving DecidableEq, Repr

structure PredictRequest where
  direction : Int
  features : Bytes
  currentPosition : Option Bytes
deriving DecidableEq, Repr

/-- The fields of the predictor's answer that the handler reads. -/
structure PredictResponse where
  probWin : Option Float64
  threshold : Float64
  actionSummary : Bytes
  error : Option Bytes
  modelVersion : Bytes
deriving DecidableEq, Repr

structure MLDecisionRow where
  traceID : Bytes
  licenseID : Bytes
  symbol : Bytes
  action : Bytes
  probWin : Option Float64 := none
  threshold : Float64 := .zero
  actionSummary : Bytes := []
  publishedCommand : Option Bytes := none
  enforced : Bool
  modelVersion : Option Bytes := none
  positionSource : Bytes
  error : Option Bytes := none
deriving DecidableEq, Repr

structure SystemEvent where
  eventType : Bytes
  severity : Bytes
  client : Bytes
  halted : Bool
  previous : Bool
deriving DecidableEq, Repr

/-! ### Operations -/

inductive LookupError
  | notFound
  | inactive
deriving DecidableEq, Repr

inductive QueryError
  | noRows
  | failed
deriving DecidableEq, Repr

inductive Op
  | now
  | newID
  | newTraceID
  | loadHalted
  | swapHalted (halted : Bool)
  | allow (ip : Bytes)
  | lookup (licenseID : Bytes)
  | increment (licenseID : Bytes) (now : Time)
  | queryNotional (licenseID accountID : Bytes)
  | queryLimit (licenseID accountID : Bytes)
  | queryPosition (licenseID accountID symbol : Bytes)
  | predict (request : PredictRequest)
  | publish (subject payload : Bytes)
  | publishEvent (subject : Bytes) (event : AuditEvent)
  | insertDecision (row : MLDecisionRow)
  | insertSystemEvent (event : SystemEvent)
  | respond (response : Response)

/-- The answers. A publisher and an insert give the text of an error, or nothing. -/
@[reducible]
def Answer : Op → Type
  | .now => Time
  | .newID => Bytes
  | .newTraceID => Bytes
  | .loadHalted => Bool
  | .swapHalted _ => Bool
  | .allow _ => Bool
  | .lookup _ => Except LookupError LicenseRecord
  | .increment _ _ => Nat
  | .queryNotional _ _ => Except QueryError Float64
  | .queryLimit _ _ => Except QueryError (Option Float64)
  | .queryPosition _ _ _ => Except QueryError Float64
  | .predict _ => Except Bytes PredictResponse
  | .publish _ _ => Option Bytes
  | .publishEvent _ _ => Option Bytes
  | .insertDecision _ => Option Bytes
  | .insertSystemEvent _ => Option Bytes
  | .respond _ => Unit

abbrev Handling := Program Op Answer WebhookCtx

abbrev invoke {Error : Type} (op : Op) : Program Op Answer Error (Answer op) :=
  Program.perform op

/-! ### Refusals -/

def errorFields (code : String) : List (Bytes × Bytes) :=
  [(lit "error", lit code)]

def reject (wctx : WebhookCtx) (status : Nat) (code : String) (fields : List (Bytes × Bytes))
    (header : Header := []) : Handling Unit := do
  invoke (.respond ⟨status, header, .texts fields⟩)
  .fail { wctx with reasonCode := lit code, status := status }

def refuseIf (condition : Bool) (refusal : Handling Unit) : Handling Unit :=
  if condition then refusal else pure ()

def rejectCode (wctx : WebhookCtx) (status : Nat) (code : String) : Handling Unit :=
  reject wctx status code (errorFields code)

def publishRejection (config : Config) (licenseID : Bytes) (reason : String) (body : Bytes) :
    Handling Unit := do
  if config.hasEventPublisher then
    let _ ← invoke (.publishEvent (lit "events.ingress.rejection")
      (.rejection ⟨licenseID, lit reason, hexEncode (sha256 body), config.region⟩))
  else pure ()

/-! ### The gates of every route -/

section Gates

variable (config : Config) (r : Request) (wctx : WebhookCtx)

def withBody : WebhookCtx :=
  if r.body = [] then wctx else { wctx with bodySHA256 := hexEncode (sha256 r.body) }

def inNetworks (clientAddr : Bytes) : Bool :=
  match config.parseIP clientAddr with
  | none => false
  | some ip => config.allowedCIDRs.any fun network => network.contains ip

def limitRate (clientAddr : Bytes) : Handling Unit := do
  if config.rateLimited then
    let allowed ← invoke (.allow clientAddr)
    refuseIf (!allowed) (rejectCode wctx 429 "rate_limit_exceeded")
  else pure ()

def gateTimestamp : Handling Unit := do
  if 0 < config.timestampWindow then
    let now ← invoke .now
    match checkTimestamp r.header now config.timestampWindow with
    | none => pure ()
    | some error =>
      reject wctx 401 "timestamp_rejected"
        (errorFields "timestamp_rejected" ++ [(lit "reason", error.text)])
  else pure ()

/-- The gates in front of the parser. The body is read before the gates that could refuse it. -/
def gatingPreamble (clientAddr : Bytes) : Handling WebhookCtx := do
  refuseIf (r.method ≠ lit "POST") (reject wctx 405 "method_not_allowed"
    (errorFields "method_not_allowed") [(lit "Allow", lit "POST")])
  refuseIf (r.broken || config.maxBodyBytes < r.body.length) (rejectCode wctx 413 "body_too_large")
  let wctx := withBody r wctx
  refuseIf (config.perimeterToken ≠ [] && r.token ≠ config.perimeterToken)
    (rejectCode wctx 401 "perimeter_rejected")
  let halted ← invoke .loadHalted
  refuseIf halted (rejectCode wctx 503 "trading_halted")
  limitRate config wctx clientAddr
  refuseIf (config.allowedCIDRs ≠ [] && !inNetworks config clientAddr)
    (rejectCode wctx 403 "ip_not_allowed")
  gateTimestamp config r wctx
  return wctx

/-! ### The gates of a license -/

structure ExposureCheckResult where
  allowedToProceed : Bool
  reason : Bytes := []
deriving DecidableEq, Repr

/-- The comparison of what the two queries have given. Without rows the notional is zero and there is
no limit, and a query that fails lets the signal through. -/
def exposureOf (notional : Except QueryError Float64)
    (limit : Except QueryError (Option Float64)) : ExposureCheckResult :=
  let total := match notional with
    | .ok total => total
    | .error _ => .zero
  match limit with
  | .ok (some limit) =>
    if limit.lt total then
      { allowedToProceed := false
        reason := lit "exposure_limit_exceeded: current=" ++ config.formatFixed total ++
          lit " limit=" ++ config.formatFixed limit }
    else { allowedToProceed := true }
  | _ => { allowedToProceed := true }

def checkExposureLimits (licenseID accountID : Bytes) : Handling ExposureCheckResult := do
  let notional ← invoke (.queryNotional licenseID accountID)
  if notional = .error .failed then return { allowedToProceed := true }
  else
    let limit ← invoke (.queryLimit licenseID accountID)
    return exposureOf config notional limit

/-- The body is signed with the secret, or with the one that is about to replace it. -/
def isSigned (record : LicenseRecord) : Bool :=
  validSignature r.body record.hmacSecret r.header ||
    record.pendingHMACSecret ≠ [] && validSignature r.body record.pendingHMACSecret r.header

def findLicense (licenseID : Bytes) : Handling LicenseRecord := do
  match ← invoke (.lookup licenseID) with
  | .ok record => return record
  | .error error =>
    publishRejection config licenseID "license_rejected" r.body
    let status := if error = .inactive then 403 else 401
    invoke (.respond ⟨status, [], .texts (errorFields "license_rejected")⟩)
    .fail { wctx with reasonCode := lit "license_rejected", status := status }

def limitQuota (licenseID : Bytes) (record : LicenseRecord) : Handling Unit := do
  if 0 < record.maxSignalsPerDay then
    let now ← invoke .now
    let count ← invoke (.increment licenseID now)
    refuseIf (record.maxSignalsPerDay < count) (rejectCode wctx 429 "plan_limit_exceeded")
  else pure ()

def limitExposure (licenseID : Bytes) (record : LicenseRecord) : Handling Unit := do
  if config.hasDB && record.instanceID ≠ [] then
    let exposure ← checkExposureLimits config licenseID record.instanceID
    refuseIf (!exposure.allowedToProceed) do
      publishRejection config licenseID "exposure_limit_exceeded" r.body
      reject wctx 429 "exposure_limit_exceeded"
        (errorFields "exposure_limit_exceeded" ++ [(lit "reason", exposure.reason)])
  else pure ()

def rejectPublished (licenseID : Bytes) (code : String) : Handling Unit := do
  publishRejection config licenseID code r.body
  rejectCode wctx 401 code

def authenticate (licenseID secretValue : Bytes) : Handling LicenseRecord := do
  let record ← findLicense config r wctx licenseID
  refuseIf (!validSubjectToken licenseID || !validSubjectToken record.instanceID)
    (rejectCode wctx 400 "invalid_route_token")
  refuseIf (record.secret ≠ [] && secretValue ≠ record.secret)
    (rejectPublished config r wctx licenseID "secret_rejected")
  refuseIf (record.hmacSecret ≠ [] && !isSigned r record)
    (rejectPublished config r wctx licenseID "signature_rejected")
  limitQuota wctx licenseID record
  limitExposure config r wctx licenseID record
  return record

end Gates

/-! ### The flat route -/

section Webhook

variable (config : Config) (r : Request) (wctx : WebhookCtx)

/-- The trace id that the request brings, that of the middleware, or a new one. -/
def assignTraceID : Handling Bytes :=
  let traceID := traceIDFromRequest r.header
  if traceID ≠ [] then pure traceID
  else if r.contextTraceID ≠ [] then pure r.contextTraceID
  else invoke .newTraceID

def traceHeader (traceID : Bytes) : Header :=
  [(lit "X-ExecRelay-Trace-ID", traceID)]

def publishAlert (parsed : Parser.Signal) (record : LicenseRecord) (traceID : Bytes) :
    Handling WebhookCtx := do
  let received ← invoke .now
  match (signalProto parsed record config.region traceID r.body received).marshal with
  | none =>
    rejectCode wctx 500 "encode_failed"
    return wctx
  | some payload =>
    match ← invoke (.publish (signalSubject parsed.licenseID record.instanceID record.platform)
      payload) with
    | some _ =>
      rejectCode wctx 503 "publish_failed"
      return wctx
    | none =>
      invoke (.respond ⟨200, traceHeader traceID,
        .texts [(lit "status", lit "accepted"), (lit "trace_id", traceID)]⟩)
      return { wctx with reasonCode := lit "accepted", status := 200 }

def secretOf (parsed : Parser.Signal) : Bytes :=
  match parsed.param .secret with
  | some param => param.value
  | none => []

def relayAlert (parsed : Parser.Signal) : Handling WebhookCtx := do
  let wctx := { wctx with licenseKey := parsed.licenseID }
  let record ← authenticate config r wctx parsed.licenseID (secretOf parsed)
  let traceID ← assignTraceID r
  publishAlert config r { wctx with traceID := traceID } parsed record traceID

def webhookBody (clientAddr : Bytes) : Handling WebhookCtx := do
  let wctx ← gatingPreamble config r wctx clientAddr
  match Parser.parse r.body with
  | .error error =>
    reject wctx 400 "parse_error"
      (errorFields "parse_error" ++ [(lit "reason", error.error), (lit "field", error.field)])
    return wctx
  | .ok parsed => relayAlert config r wctx parsed

def outcomeOf (status : Nat) : Bytes :=
  if 200 ≤ status ∧ status < 300 then lit "accepted"
  else if 400 ≤ status ∧ status < 500 then lit "rejected"
  else lit "error"

def recordRequestEvent (clientAddr : Bytes) (start : Time) : Program Op Answer Empty Unit := do
  if config.hasEventPublisher then
    let outcome := outcomeOf wctx.status
    let wctx := if wctx.reasonCode = [] then { wctx with reasonCode := outcome } else wctx
    let now ← invoke .now
    let _ ← invoke (.publishEvent (lit "events.ingress.request") (.request
      { ctx := wctx, method := r.method, path := r.path, clientIP := clientAddr, outcome := outcome
        latency := timeSub now start, userAgent := (r.header.get "User-Agent").take 240
        region := config.region, receivedAt := start }))
  else pure ()

/-- What every request to a route goes through: the body of the handler, to whichever end, and the
event of the request behind it. -/
def handled (body : WebhookCtx → Bytes → Handling WebhookCtx) : Program Op Answer Empty Unit := do
  let clientAddr := clientIP r
  let requestID ← if r.contextRequestID = [] then invoke .newID else pure r.contextRequestID
  let start ← invoke .now
  let ended ← (body { requestID := requestID } clientAddr).attempt
  let wctx := match ended with
    | .ok wctx => wctx
    | .error wctx => wctx
  recordRequestEvent config r wctx clientAddr start

def webhook : Program Op Answer Empty Unit :=
  handled config r (webhookBody config r)

end Webhook

/-! ### The ML route -/

section ML

variable (config : Config) (r : Request) (wctx : WebhookCtx)

/-- The command of a decision; `none` is nothing to publish. -/
def mapDecisionToCommand (actionSummary currentPosition : Bytes) : Option Command :=
  if actionSummary = lit "OPEN_LONG" then some .buy
  else if actionSummary = lit "OPEN_SHORT" then some .sell
  else if actionSummary = lit "FLIP_LONG" then some .closeShortOpenLong
  else if actionSummary = lit "FLIP_SHORT" then some .closeLongOpenShort
  else if actionSummary = lit "CLOSE_ONLY" then
    if currentPosition = lit "LONG" then some .closeLong
    else if currentPosition = lit "SHORT" then some .closeShort
    else none
  else none

def mapActionToCommand (action : Bytes) : Command :=
  if action = lit "sell" then .sell else .buy

def positionOf (size : Float64) : Bytes :=
  if Float64.lt .zero size then lit "LONG"
  else if size.lt .zero then lit "SHORT"
  else []

def resolveCurrentPosition (licenseID accountID symbol : Bytes) (caller : Option Bytes) :
    Handling (Bytes × Bytes) := do
  match caller with
  | some given =>
    let position := upperASCII (trimSpace given)
    return (if position = lit "LONG" ∨ position = lit "SHORT" then position else [], lit "caller")
  | none =>
    if config.hasDB then
      match ← invoke (.queryPosition licenseID accountID symbol) with
      | .error _ => return ([], lit "unknown")
      | .ok size => return (positionOf size, lit "db")
    else return ([], lit "unknown")

/-- What becomes of a request that was scored. -/
structure Decision where
  /-- The command to publish, if there is one. -/
  command : Option Command
  status : Bytes
  ml : MLOut
  row : MLDecisionRow

/-- The error of a prediction: that of the call or the one in the answer. -/
def predictionError : Except Bytes PredictResponse → Except Bytes PredictResponse
  | .error text => .error text
  | .ok response =>
    match response.error with
    | some text => if text = [] then .ok response else .error text
    | none => .ok response

/-- The caller's action is published if the predictor fails or only watches. -/
def decideML (action position : Bytes) (row : MLDecisionRow)
    (answer : Except Bytes PredictResponse) : Decision :=
  match predictionError answer with
  | .error text =>
    { command := some (mapActionToCommand action)
      status := lit "accepted"
      ml := .failed text config.mlEnforce
      row := { row with error := some text, actionSummary := lit "NOTHING" } }
  | .ok response =>
    let command :=
      if config.mlEnforce then mapDecisionToCommand response.actionSummary position
      else some (mapActionToCommand action)
    { command := command
      status := if command.isSome then lit "accepted" else lit "skipped"
      ml := .scored response.actionSummary response.probWin response.threshold
        response.modelVersion config.mlEnforce
      row := { row with
        probWin := response.probWin
        threshold := response.threshold
        actionSummary := response.actionSummary
        modelVersion := if response.modelVersion = [] then none else some response.modelVersion } }

def recordMLDecision (row : MLDecisionRow) : Handling Unit := do
  if config.hasDB then
    let _ ← invoke (.insertDecision row)
  else pure ()

def finishML (decision : Decision) (row : MLDecisionRow) (traceID : Bytes) : Handling WebhookCtx := do
  recordMLDecision config row
  invoke (.respond ⟨200, traceHeader traceID, .decision decision.status traceID decision.ml⟩)
  return { wctx with reasonCode := decision.status, status := 200 }

/-- A failure behind the decision: the response, and the row all the same. -/
def failML (status : Nat) (code : String) (row : MLDecisionRow) : Handling WebhookCtx := do
  invoke (.respond ⟨status, [], .texts (errorFields code)⟩)
  recordMLDecision config row
  .fail { wctx with reasonCode := lit code, status := status }

def publishDecision (req : MLWebhookRequest) (record : LicenseRecord) (traceID : Bytes)
    (decision : Decision) : Handling WebhookCtx := do
  match decision.command with
  | none => finishML config wctx decision decision.row traceID
  | some command =>
    let row := { decision.row with publishedCommand := some command.string }
    let received ← invoke .now
    match (signalProto (buildMLSignal config.formatFloat req command) record config.region traceID
      r.body received).marshal with
    | none => failML config wctx 500 "encode_failed" row
    | some payload =>
      match ← invoke (.publish (signalSubject req.licenseID record.instanceID record.platform)
        payload) with
      | some _ => failML config wctx 503 "publish_failed" row
      | none => finishML config wctx decision row traceID

def scoreML (req : MLWebhookRequest) (record : LicenseRecord) (action : Bytes) :
    Handling WebhookCtx := do
  let traceID ← assignTraceID r
  let (position, source) ←
    resolveCurrentPosition config req.licenseID record.instanceID req.symbol req.currentPosition
  let answer ← invoke (.predict
    { direction := if action = lit "sell" then -1 else 1
      features := req.features
      currentPosition := if position = [] then none else some position })
  let row : MLDecisionRow :=
    { traceID := traceID, licenseID := req.licenseID, symbol := req.symbol, action := action
      enforced := config.mlEnforce, positionSource := source }
  publishDecision config r { wctx with traceID := traceID } req record traceID
    (decideML config action position row answer)

def relayML (req : MLWebhookRequest) : Handling WebhookCtx := do
  let wctx := { wctx with licenseKey := req.licenseID }
  let action := lowerASCII (trimSpace req.action)
  refuseIf (action ≠ lit "buy" && action ≠ lit "sell") (reject wctx 400 "invalid_action"
    (errorFields "invalid_action" ++ [(lit "reason", lit "action must be \"buy\" or \"sell\"")]))
  refuseIf (req.licenseID = [] || req.symbol = []) (reject wctx 400 "missing_field"
    (errorFields "missing_field" ++ [(lit "reason", lit "license_id and symbol are required")]))
  let record ← authenticate config r wctx req.licenseID req.secret
  scoreML config r wctx req record action

def webhookMLBody (clientAddr : Bytes) : Handling WebhookCtx := do
  let wctx ← gatingPreamble config r wctx clientAddr
  match config.decodeML r.body with
  | .error text =>
    reject wctx 400 "parse_error" (errorFields "parse_error" ++ [(lit "reason", text)])
    return wctx
  | .ok req => relayML config r wctx req

def webhookML : Program Op Answer Empty Unit :=
  handled config r (webhookMLBody config r)

end ML

/-! ### The kill switch -/

section KillSwitch

variable (config : Config) (r : Request)

def answerTexts (status : Nat) (fields : List (Bytes × Bytes)) (header : Header := []) :
    Program Op Answer Empty Unit :=
  invoke (.respond ⟨status, header, .texts fields⟩)

def formatBool (value : Bool) : Bytes :=
  if value then lit "true" else lit "false"

def parseState (state : Bytes) : Option Bool :=
  let state := lowerASCII (trimSpace state)
  if [lit "on", lit "halt", lit "halted", lit "true", lit "1"].contains state then some true
  else if [lit "off", lit "resume", lit "false", lit "0"].contains state then some false
  else none

def recordKillSwitchEvent (clientAddr : Bytes) (halted previous : Bool) :
    Program Op Answer Empty Unit := do
  if config.hasDB then
    let _ ← invoke (.insertSystemEvent
      { eventType := lit "kill_switch_toggled"
        severity := if halted then lit "critical" else lit "warning"
        client := clientAddr, halted := halted, previous := previous })
  else pure ()

def toggle (halted : Bool) : Program Op Answer Empty Unit := do
  let previous ← invoke (.swapHalted halted)
  if previous ≠ halted then recordKillSwitchEvent config (clientIP r) halted previous else pure ()
  answerTexts 200 [(lit "halted", formatBool halted), (lit "previous", formatBool previous)]

def killSwitch : Program Op Answer Empty Unit := do
  if config.perimeterToken = [] then
    answerTexts 503 (errorFields "kill_switch_disabled" ++
      [(lit "reason", lit "INGRESS_PERIMETER_TOKEN must be set to use this endpoint")])
  else if r.token ≠ config.perimeterToken then answerTexts 401 (errorFields "perimeter_rejected")
  else if r.method = lit "GET" then
    let halted ← invoke .loadHalted
    answerTexts 200 [(lit "halted", formatBool halted)]
  else if r.method = lit "POST" then
    match parseState r.state with
    | none =>
      answerTexts 400 (errorFields "invalid_state" ++ [(lit "reason", lit "state must be on|off")])
    | some halted => toggle config r halted
  else answerTexts 405 (errorFields "method_not_allowed") [(lit "Allow", lit "GET, POST")]

end KillSwitch

end ExecRelay.Ingress
