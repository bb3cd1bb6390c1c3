/-
**Two runs that differ in what is secret.**

A caller shows two secrets: the token of the perimeter, in the query, and the secret of the license, in the
alert. Two requests that differ in them only are compared.
-/

import ExecRelay.Ingress.Decisions
import ExecRelay.Ingress.Redact
import ExecRelay.Parser.Alike

namespace ExecRelay.Ingress

open Lib
open Lib.Program (Only Path)
open ExecRelay.Parser (Param SameButSecrets SameParam SameSignal)

/-! ### Two alerts -/

theorem signalParams_congr {left right : Parser.Signal} (same : SameSignal left right) :
    signalParams left = signalParams right := by
  have each (params others : List Param) (alike : List.Forall₂ SameParam params others) :
      params.filter (fun param => param.kind ≠ .secret) =
        others.filter fun param => param.kind ≠ .secret := by
    induction alike with
    | nil => rfl
    | cons head _ ih =>
      rcases head with rfl | ⟨secret, secretOther, -⟩
      · rw [List.filter_cons, List.filter_cons, ih]
      · simp only [List.filter_cons, secret, secretOther, ne_eq, not_true_eq_false, decide_false,
          Bool.false_eq_true, if_false]
        exact ih
  rw [signalParams, signalParams, each _ _ same.params]

/-- **Two alerts that differ in their secrets**: both are rejected with the same error, or both are read.
Then their signals, for one record, region, trace id and time, differ in the hash of the body only, and
hold the parameters of the alerts without the secrets. -/
theorem signals_alike {left right : Bytes} (same : SameButSecrets left right) (record : LicenseRecord)
    (region traceID : Bytes) (received : Time) :
    Lib.Alike (fun parsed other =>
        signalProto parsed record region traceID left received =
          { signalProto other record region traceID right received with
            bodySha256 := hexEncode (sha256 left) } ∧
        (signalProto parsed record region traceID left received).params =
          (parsed.params.filter fun param => param.kind ≠ .secret).map fun param =>
            ⟨param.key, param.value⟩)
      (Parser.parse left) (Parser.parse right) := by
  refine (Parser.parse_alike same).mono fun parsed other _ _ signals => ⟨?_, rfl⟩
  simp only [signalProto, signals.licenseID, signals.command, signals.rawCommand, signals.symbol,
    signalParams_congr signals]

def withSecret (secret : String) : Bytes :=
  lit "60123456789,buy,EURUSD,vol_lots=0.1, Secret = " ++ lit secret

/-- One alert with two secrets. -/
theorem signals_alike_pair :
    Lib.Alike (fun parsed other =>
        signalProto parsed plainRecord [] [] (withSecret "a") 0 =
          { signalProto other plainRecord [] [] (withSecret "b c") 0 with
            bodySha256 := hexEncode (sha256 (withSecret "a")) } ∧
        (signalProto parsed plainRecord [] [] (withSecret "a") 0).params =
          (parsed.params.filter fun param => param.kind ≠ .secret).map fun param =>
            ⟨param.key, param.value⟩)
      (Parser.parse (withSecret "a")) (Parser.parse (withSecret "b c")) := by
  have segment : Parser.SameSegment (lit " Secret = a") (lit " Secret = b c") :=
    @Parser.SameSegment.secret (lit " Secret ") (lit " ") [] (lit "a") (lit "b c") (by decide)
      (by decide +kernel) (List.all_eq_true.mp (by decide)) (List.forall_mem_nil _) (by decide)
      (by decide)
  have left : (withSecret "a").splitOn Parser.comma =
      [lit "60123456789", lit "buy", lit "EURUSD", lit "vol_lots=0.1", lit " Secret = a"] := by
    decide +kernel
  have right : (withSecret "b c").splitOn Parser.comma =
      [lit "60123456789", lit "buy", lit "EURUSD", lit "vol_lots=0.1", lit " Secret = b c"] := by
    decide +kernel
  have same : SameButSecrets (withSecret "a") (withSecret "b c") := by
    refine ⟨by rfl, ?_⟩
    rw [left, right]
    exact .cons (.same _) (.cons segment .nil)
  exact signals_alike same plainRecord [] [] 0

/-! ### The audit record -/

/-- The `signal_audit` line of a request. -/
structure SignalAudit where
  requestID : Bytes
  traceID : Bytes
  licenseKey : Bytes
  method : Bytes
  path : Bytes
  clientIP : Bytes
  status : Nat
  outcome : Bytes
  reasonCode : Bytes
  tokenSupplied : Bool
  tokenDetail : Bytes
  body : Bytes
  bodySHA256 : Bytes
  latencyMs : Int
  userAgent : Bytes
deriving DecidableEq, Repr

section Audit

variable (config : Config) (r : Request)

/-- The body was read: it is not looked at under another method, and not kept if it is too long. -/
def bodyRead : Bool :=
  r.method = lit "POST" && !(r.broken || config.maxBodyBytes < r.body.length)

def redactedBody : Bytes :=
  if bodyRead config r && r.body ≠ [] then redactBody r.body else []

def tokenDetail : Bytes :=
  if bodyRead config r && config.perimeterToken ≠ [] && r.token ≠ config.perimeterToken then
    if r.token = [] then lit "missing" else lit "invalid"
  else []

def signalAudit (wctx : WebhookCtx) (clientAddr : Bytes) (start logged : Time) : SignalAudit where
  requestID := wctx.requestID
  traceID := wctx.traceID
  licenseKey := wctx.licenseKey
  method := r.method
  path := r.path
  clientIP := clientAddr
  status := wctx.status
  outcome := outcomeOf wctx.status
  reasonCode := if wctx.reasonCode = [] then outcomeOf wctx.status else wctx.reasonCode
  tokenSupplied := r.token ≠ []
  tokenDetail := tokenDetail config r
  body := redactedBody config r
  bodySHA256 := wctx.bodySHA256
  latencyMs := (timeSub logged start).tdiv 1000000
  userAgent := (r.header.get "User-Agent").take 240

/-- The two routes. -/
inductive Route
  | flat
  | ml
deriving DecidableEq, Repr

def Route.body : Route → WebhookCtx → Bytes → Handling WebhookCtx
  | .flat => webhookBody config r
  | .ml => webhookMLBody config r

/-- The handler of a route. -/
def Route.handler : Route → Program Op Answer Empty Unit
  | .flat => webhook config r
  | .ml => webhookML config r

/-- **A handler with its record**: what it does to a request, and the line it writes about it. -/
def audited (route : Route) (logged : Time) : Program Op Answer Empty SignalAudit := do
  let clientAddr := clientIP r
  let requestID ← if r.contextRequestID = [] then invoke .newID else pure r.contextRequestID
  let start ← invoke .now
  let ended ← (route.body config r { requestID := requestID } clientAddr).attempt
  let wctx := match ended with
    | .ok wctx => wctx
    | .error wctx => wctx
  recordRequestEvent config r wctx clientAddr start
  return signalAudit config r wctx clientAddr start logged

theorem handler_eq_audited (route : Route) (logged : Time) :
    route.handler config r = audited config r route logged >>= fun _ => pure () := by
  have same : route.handler config r = handled config r (route.body config r) := by cases route <;> rfl
  rw [same, handled, audited]
  split
  · simp only [bind_assoc, pure_bind]
    refine bind_congr fun requestID => bind_congr fun start => bind_congr fun ended => ?_
    exact bind_pure_unit.symm
  · simp only [bind_assoc, pure_bind]
    refine bind_congr fun start => bind_congr fun ended => ?_
    exact bind_pure_unit.symm

/-! ### Wrong tokens -/

def isReading : Op → Bool
  | .now | .newID => true
  | _ => false

/-- How a request with a wrong token is refused, and what is known about it then. -/
def refusal (wctx : WebhookCtx) : Response × WebhookCtx :=
  if r.method ≠ lit "POST" then
    (⟨405, [(lit "Allow", lit "POST")], .texts (errorFields "method_not_allowed")⟩,
      { wctx with reasonCode := lit "method_not_allowed", status := 405 })
  else if r.broken || config.maxBodyBytes < r.body.length then
    (⟨413, [], .texts (errorFields "body_too_large")⟩,
      { wctx with reasonCode := lit "body_too_large", status := 413 })
  else
    (⟨401, [], .texts (errorFields "perimeter_rejected")⟩,
      { withBody r wctx with reasonCode := lit "perimeter_rejected", status := 401 })

/-- A request that is refused: the response, the event and the record. -/
def refused (logged : Time) : Program Op Answer Empty SignalAudit := do
  let requestID ← if r.contextRequestID = [] then invoke .newID else pure r.contextRequestID
  let start ← invoke .now
  let (response, wctx) := refusal config r { requestID := requestID }
  invoke (.respond response)
  recordRequestEvent config r wctx (clientIP r) start
  return signalAudit config r wctx (clientIP r) start logged

variable {config r} (guarded : config.perimeterToken ≠ []) (wrong : r.token ≠ config.perimeterToken)

include guarded wrong

/-- **The gates end at the perimeter**, or in front of it. -/
theorem gatingPreamble_of_wrong (wctx : WebhookCtx) (clientAddr : Bytes) :
    gatingPreamble config r wctx clientAddr =
      .call (.respond (refusal config r wctx).1) fun _ => .fail (refusal config r wctx).2 := by
  have refused : (config.perimeterToken ≠ [] && r.token ≠ config.perimeterToken) = true := by
    simp [guarded, wrong]
  unfold gatingPreamble refusal
  by_cases method : r.method = lit "POST"
  · rw [if_neg (not_not_intro method), decide_eq_false (not_not_intro method)]
    by_cases unread : (r.broken || decide (config.maxBodyBytes < r.body.length)) = true
    · rw [if_pos unread, unread]
      rfl
    · rw [if_neg unread, eq_false_of_ne_true unread, refused]
      rfl
  · rw [if_pos method, decide_eq_true method]
    rfl

theorem body_of_wrong (route : Route) (wctx : WebhookCtx) (clientAddr : Bytes) :
    route.body config r wctx clientAddr =
      .call (.respond (refusal config r wctx).1) fun _ => .fail (refusal config r wctx).2 := by
  cases route with
  | flat =>
    rw [Route.body, webhookBody, gatingPreamble_of_wrong guarded wrong]
    rfl
  | ml =>
    rw [Route.body, webhookMLBody, gatingPreamble_of_wrong guarded wrong]
    rfl

theorem audited_of_wrong (route : Route) (logged : Time) :
    audited config r route logged = refused config r logged := by
  unfold audited refused
  simp only [body_of_wrong guarded wrong]
  rfl

end Audit

section Refused

variable (config : Config) (r : Request) (logged : Time)

/-- **What a refused request does** depends on the clock and on its new id only. -/
theorem reads_refused : (refused config r logged).Reads isReading := by
  have recorded (wctx : WebhookCtx) (start : Time) :
      (recordRequestEvent config r wctx (clientIP r) start).Reads isReading := by
    unfold recordRequestEvent
    split
    · exact ⟨.inl rfl, fun _ => ⟨.inr fun _ _ => rfl, fun _ => trivial⟩⟩
    · trivial
  unfold refused
  split
  · exact ⟨.inl rfl, fun requestID => ⟨.inl rfl, fun start => ⟨.inr fun _ _ => rfl, fun _ =>
      (recorded _ start).bind fun _ => trivial⟩⟩⟩
  · exact ⟨.inl rfl, fun start => ⟨.inr fun _ _ => rfl, fun _ => (recorded _ start).bind fun _ => trivial⟩⟩

theorem gating_refused : (refused config r logged).Only Gating := by
  unfold refused
  split
  · refine Only.bind (Only.perform trivial) fun requestID => Only.bind (Only.perform trivial) fun start => ?_
    exact Only.bind (Only.perform trivial) fun _ =>
      Only.bind (gating_recordRequestEvent ..) fun _ => trivial
  · refine Only.bind trivial fun requestID => Only.bind (Only.perform trivial) fun start => ?_
    exact Only.bind (Only.perform trivial) fun _ =>
      Only.bind (gating_recordRequestEvent ..) fun _ => trivial

end Refused

/-! ### Two tokens -/

section Tokens

variable {config : Config} (guarded : config.perimeterToken ≠ []) (r : Request) {token other : Bytes}
  (given : token ≠ []) (wrong : token ≠ config.perimeterToken) (otherGiven : other ≠ [])
  (otherWrong : other ≠ config.perimeterToken)

include given wrong otherGiven otherWrong

theorem refused_congr (logged : Time) :
    refused config { r with token := token } logged = refused config { r with token := other } logged := by
  have detail : tokenDetail config { r with token := token } =
      tokenDetail config { r with token := other } := by
    simp only [tokenDetail, given, otherGiven, decide_eq_true wrong, decide_eq_true otherWrong]
    rfl
  have supplied : decide (token ≠ []) = decide (other ≠ []) := by
    rw [decide_eq_true given, decide_eq_true otherGiven]
  unfold refused
  simp only [signalAudit, detail, supplied]
  rfl

include guarded

/-- **Wrong tokens cannot be told apart**: two runs with the same readings of the clock and the same new ids
make the same calls, the response and the event of the request among them, write the same record, and
publish no signal. -/
theorem perimeter_alike (route : Route) (logged : Time) {log otherLog : Log}
    {audit otherAudit : SignalAudit}
    (run : (audited config { r with token := token } route logged).Path log (.done audit))
    (otherRun : (audited config { r with token := other } route logged).Path otherLog (.done otherAudit))
    (readings : Program.readings isReading log = Program.readings isReading otherLog) :
    log.map Event.op = otherLog.map Event.op ∧ audit = otherAudit ∧
      ∀ event ∈ log ++ otherLog, isPublish event.op = false := by
  rw [audited_of_wrong (r := { r with token := token }) guarded wrong] at run
  rw [audited_of_wrong (r := { r with token := other }) guarded otherWrong,
    ← refused_congr r given wrong otherGiven otherWrong] at otherRun
  obtain ⟨ops, audits⟩ := Path.same_of_reads (reads_refused ..) run otherRun readings
  refine ⟨ops, audits, fun event member => unpublished_of_gating ?_⟩
  rcases List.mem_append.mp member with here | there
  · exact (Only.of_path (gating_refused ..) run).2 event here
  · exact (Only.of_path (gating_refused ..) otherRun).2 event there

end Tokens

def guardedConfig : Config :=
  { plainConfig with perimeterToken := lit "gate-secret", hasEventPublisher := true }

theorem audited_done (config : Config) (r : Request) (route : Route) (logged : Time)
    (answer : (op : Op) → Answer op) :
    ∃ audit, (audited config r route logged).Path
      (((audited config r route logged).calls answer).map fun op => ⟨op, answer op⟩) (.done audit) := by
  cases ends : (audited config r route logged).outcome answer with
  | ok audit => exact ⟨audit, Path.of_outcome answer ends⟩
  | error error => exact error.elim

/-- Two guesses at the token of the perimeter. -/
theorem perimeter_alike_guesses :
    ∃ log otherLog audit,
      (audited guardedConfig { plainRequest with token := lit "wrong" } .flat 0).Path log (.done audit) ∧
      (audited guardedConfig { plainRequest with token := lit "guess" } .flat 0).Path otherLog
        (.done audit) ∧
      log.map Event.op = otherLog.map Event.op ∧ 0 < log.length := by
  obtain ⟨audit, run⟩ := audited_done guardedConfig { plainRequest with token := lit "wrong" } .flat 0
    obliging
  obtain ⟨otherAudit, otherRun⟩ :=
    audited_done guardedConfig { plainRequest with token := lit "guess" } .flat 0 obliging
  have same : audited guardedConfig { plainRequest with token := lit "wrong" } .flat 0 =
      audited guardedConfig { plainRequest with token := lit "guess" } .flat 0 := by
    rw [audited_of_wrong (by decide) (by decide), audited_of_wrong (by decide) (by decide)]
    exact refused_congr plainRequest (by decide) (by decide) (by decide) (by decide) 0
  obtain ⟨ops, rfl, -⟩ := perimeter_alike (by decide) plainRequest (by decide) (by decide) (by decide)
    (by decide) .flat 0 run otherRun (by rw [same])
  exact ⟨_, _, audit, run, otherRun, ops, by decide +kernel⟩

end ExecRelay.Ingress
