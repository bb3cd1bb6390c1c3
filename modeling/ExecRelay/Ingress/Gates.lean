/-
**Nothing is published past a gate.**

What a handler may do is said once, as the calls that its log permits (`Permitted`): it publishes a
signal once, before it has answered, and only if its log shows that every gate let the request
through; and it answers once, with what the publisher returned: `accepted` exactly if that was no
error, `publish_failed` if it was one. The helpers
of the handlers are gates (`Gate`): they let a request through, with a fact about its log, or answer
it. `spec_webhook` and `spec_webhookML` put them together, and `publish_gated` says it of every run
of the service.
-/

import ExecRelay.Ingress.Recorded

namespace ExecRelay.Ingress

open Lib
open Lib.Program (Spec)

/-! ### Logs -/

def isPublish : Op → Bool
  | .publish _ _ => true
  | _ => false

def isRespond : Op → Bool
  | .respond _ => true
  | _ => false

def isQuiet : Op → Bool
  | .publish _ _ => false
  | .publishEvent _ _ => false
  | .respond _ => false
  | _ => true

/-- A request that has not been answered, and has no event yet. -/
structure Pending (log : Log) : Prop where
  unanswered : ∀ event ∈ log, isRespond event.op = false
  unrecorded : requestEvents log = []

/-- A request that has neither been published nor answered. -/
structure Fresh (log : Log) : Prop extends Pending log where
  unpublished : ∀ event ∈ log, isPublish event.op = false

theorem fresh_nil : Fresh [] :=
  ⟨⟨List.forall_mem_nil _, rfl⟩, List.forall_mem_nil _⟩

/-- `Publish` was called and returned no error. -/
def Published (log : Log) : Prop :=
  ∃ subject payload, ⟨.publish subject payload, none⟩ ∈ log

def isPublished : Event Op Answer → Bool
  | ⟨.publish _ _, none⟩ => true
  | _ => false

theorem published_iff {log : Log} : Published log ↔ log.any isPublished = true := by
  rw [List.any_eq_true]
  constructor
  · rintro ⟨subject, payload, member⟩
    exact ⟨_, member, rfl⟩
  · rintro ⟨⟨op, answer⟩, member, isPublished⟩
    cases op with
    | publish subject payload =>
      cases answer with
      | none => exact ⟨subject, payload, member⟩
      | some _ => cases isPublished
    | _ => cases isPublished

def Answered (log : Log) : Prop :=
  ∃ response, ⟨.respond response, ()⟩ ∈ log

theorem answered_snoc (log : Log) (response : Response) :
    Answered (log ++ [⟨.respond response, ()⟩]) :=
  ⟨response, List.mem_append_right _ (List.mem_singleton_self _)⟩

theorem Answered.append {log : Log} (answered : Answered log) (more : Log) : Answered (log ++ more) :=
  answered.imp fun _ member => List.mem_append_left _ member

theorem Fresh.not_published {log : Log} (fresh : Fresh log) : ¬ Published log := by
  rintro ⟨subject, payload, member⟩
  exact Bool.noConfusion (fresh.unpublished _ member)

theorem Pending.snoc {log : Log} {op : Op} (pending : Pending log) (notRespond : isRespond op = false)
    (silent : isSilent op = true) (answer : Answer op) : Pending (log ++ [⟨op, answer⟩]) := by
  refine ⟨?_, requestEvents_snoc silent answer pending.unrecorded⟩
  rw [List.forall_mem_append, List.forall_mem_singleton]
  exact ⟨pending.unanswered, notRespond⟩

theorem Pending.settled {log : Log} {requestID : Bytes} {wctx : WebhookCtx} {response : Response}
    (pending : Pending log) (kept : wctx.requestID = requestID) (same : response.status = wctx.status) :
    Settled requestID wctx (log ++ [⟨.respond response, ()⟩]) :=
  ⟨kept, ⟨response, List.mem_append_right _ (List.mem_singleton_self _), same⟩,
    requestEvents_snoc rfl _ pending.unrecorded⟩

theorem Settled.answered {log : Log} {requestID : Bytes} {wctx : WebhookCtx}
    (settled : Settled requestID wctx log) : Answered log :=
  settled.responded.imp fun _ both => both.1

theorem Fresh.snoc {log : Log} {op : Op} (fresh : Fresh log) (notPublish : isPublish op = false)
    (notRespond : isRespond op = false) (silent : isSilent op = true) (answer : Answer op) :
    Fresh (log ++ [⟨op, answer⟩]) := by
  refine ⟨fresh.toPending.snoc notRespond silent answer, ?_⟩
  rw [List.forall_mem_append, List.forall_mem_singleton]
  exact ⟨fresh.unpublished, notPublish⟩

/-! ### What the gates ask for -/

/-- **The gates of every route**, as the log of a request shows them. -/
structure Gated (config : Config) (r : Request) (log : Log) : Prop where
  method : r.method = lit "POST"
  body : r.body.length ≤ config.maxBodyBytes
  token : config.perimeterToken ≠ [] → r.token = config.perimeterToken
  running : ⟨.loadHalted, false⟩ ∈ log
  rate : config.rateLimited = true → ⟨.allow (clientIP r), true⟩ ∈ log
  network : config.allowedCIDRs ≠ [] → inNetworks config (clientIP r) = true
  timestamp : 0 < config.timestampWindow → ∃ now, ⟨.now, now⟩ ∈ log ∧
    checkTimestamp r.header now config.timestampWindow = none

def Unexposed (config : Config) (licenseID accountID : Bytes) (log : Log) : Prop :=
  ∃ notional, ⟨.queryNotional licenseID accountID, notional⟩ ∈ log ∧
    (notional = .error .failed ∨
      ∃ limit, ⟨.queryLimit licenseID accountID, limit⟩ ∈ log ∧
        (exposureOf config notional limit).allowedToProceed = true)

/-- **The gates of a license**, as the log of a request shows them. -/
structure Licensed (config : Config) (r : Request) (licenseID secretValue : Bytes)
    (record : LicenseRecord) (log : Log) : Prop where
  found : ⟨.lookup licenseID, .ok record⟩ ∈ log
  licenseToken : validSubjectToken licenseID = true
  instanceToken : validSubjectToken record.instanceID = true
  secret : record.secret ≠ [] → secretValue = record.secret
  signature : record.hmacSecret ≠ [] → isSigned r record = true
  quota : 0 < record.maxSignalsPerDay → ∃ now count,
    ⟨.now, now⟩ ∈ log ∧ (⟨.increment licenseID now, count⟩ : Event Op Answer) ∈ log ∧
    (count : Int) ≤ record.maxSignalsPerDay
  exposure : config.hasDB = true → record.instanceID ≠ [] →
    Unexposed config licenseID record.instanceID log

/-- The request of a webhook route, with the license that it names and the secret that it carries. -/
def credentials (config : Config) : Input → Option (Request × Bytes × Bytes)
  | .webhook r =>
    match Parser.parse r.body with
    | .ok parsed => some (r, parsed.licenseID, secretOf parsed)
    | .error _ => none
  | .webhookML r =>
    match config.decodeML r.body with
    | .ok req => some (r, req.licenseID, req.secret)
    | .error _ => none
  | .killSwitch _ => none

/-- **Every gate has let the request through**, and the subject is that of its license. -/
def Admitted (config : Config) (input : Input) (subject : Bytes) (log : Log) : Prop :=
  ∃ r licenseID secretValue record,
    credentials config input = some (r, licenseID, secretValue) ∧ Gated config r log ∧
    Licensed config r licenseID secretValue record log ∧
    subject = signalSubject licenseID record.instanceID record.platform

def isSignalSubject (subject : Bytes) : Bool :=
  (lit "signals.").isPrefixOf subject

theorem isSignalSubject_signalSubject (licenseID instanceID platform : Bytes) :
    isSignalSubject (signalSubject licenseID instanceID platform) = true := by
  exact List.isPrefixOf_iff_prefix.mpr (List.prefix_append _ _)

/-- **A response tells what became of the signal.** -/
structure Reports (response : Response) (log : Log) : Prop where
  accepted : response.isAccepted = true ↔ Published log
  failed : ∀ subject payload error,
    ⟨.publish subject payload, some error⟩ ∈ log →
    response.isPublishFailed = true

/-- **The calls that the log of a request permits.** -/
def Permitted (config : Config) (input : Input) : Op → Log → Prop
  | .publish subject _, log => Fresh log ∧ Admitted config input subject log
  | .publishEvent subject _, _ => isSignalSubject subject = false
  | .respond response, log =>
    (∀ event ∈ log, isRespond event.op = false) ∧ Reports response log
  | _, _ => True

variable {config : Config} {log later : Log} {r : Request}

theorem Gated.mono (gated : Gated config r log) (extends_ : log ⊆ later) :
    Gated config r later where
  method := gated.method
  body := gated.body
  token := gated.token
  running := extends_ gated.running
  rate := fun limited => extends_ (gated.rate limited)
  network := gated.network
  timestamp := fun window => (gated.timestamp window).imp fun _ both => both.imp_left (@extends_ _)

theorem Unexposed.mono {licenseID accountID : Bytes}
    (unexposed : Unexposed config licenseID accountID log) (extends_ : log ⊆ later) :
    Unexposed config licenseID accountID later := by
  obtain ⟨notional, first, failed | ⟨limit, second, allowed⟩⟩ := unexposed
  · exact ⟨notional, extends_ first, Or.inl failed⟩
  · exact ⟨notional, extends_ first, Or.inr ⟨limit, extends_ second, allowed⟩⟩

theorem Licensed.mono {licenseID secretValue : Bytes} {record : LicenseRecord}
    (licensed : Licensed config r licenseID secretValue record log) (extends_ : log ⊆ later) :
    Licensed config r licenseID secretValue record later where
  found := extends_ licensed.found
  licenseToken := licensed.licenseToken
  instanceToken := licensed.instanceToken
  secret := licensed.secret
  signature := licensed.signature
  quota := fun limited => by
    obtain ⟨now, count, read, counted, within⟩ := licensed.quota limited
    exact ⟨now, count, extends_ read, extends_ counted, within⟩
  exposure := fun hasDB given => (licensed.exposure hasDB given).mono extends_

/-! ### Gates -/

section Gate

variable {config : Config} {input : Input} {requestID : Bytes} {Value Next : Type} {op : Op}

theorem permitted_of_isQuiet (quiet : isQuiet op = true) (log : Log) :
    Permitted config input op log := by
  cases op <;> trivial

variable {log : Log}

theorem Fresh.snoc_of_isQuiet (fresh : Fresh log) (quiet : isQuiet op = true) (answer : Answer op) :
    Fresh (log ++ [⟨op, answer⟩]) := by
  refine fresh.snoc ?_ ?_ ?_ answer <;> cases op <;> first | rfl | exact Bool.noConfusion quiet

variable (config input requestID)

/-- A part of a handler ends with a value and a fact about the log, or the request is settled. -/
def Ends (fact : Value → Log → Prop) : Except WebhookCtx Value → Log → Prop
  | .ok value, log => fact value log
  | .error wctx, log => Settled requestID wctx log

/-- **A gate** lets a fresh request through with a fact about its log, or settles it. -/
def Gate (program : Handling Value) (fact : Value → Log → Prop) : Prop :=
  ∀ log, Fresh log → program.Spec (Permitted config input)
    (Ends requestID fun value later => Fresh later ∧ log ⊆ later ∧ fact value later) log

variable {config input requestID}

variable {program : Handling Value} {fact : Value → Log → Prop}

/-- **Behind a gate** a handler goes on with a fresh request, a longer log and the gate's fact. -/
theorem Gate.next {next : Value → Handling Next} {goal : Next → Log → Prop}
    (gate : Gate config input requestID program fact) (fresh : Fresh log)
    (rest : ∀ value later, Fresh later → log ⊆ later → fact value later →
      (next value).Spec (Permitted config input) (Ends requestID goal) later) :
    (program >>= next).Spec (Permitted config input) (Ends requestID goal) log :=
  Spec.bind (gate log fresh) (fun value later ends => rest value later ends.1 ends.2.1 ends.2.2)
    fun _ _ answered => answered

theorem Gate.last {goal : Value → Log → Prop} (gate : Gate config input requestID program fact)
    (fresh : Fresh log)
    (reached : ∀ value later, Fresh later → log ⊆ later → fact value later → goal value later) :
    program.Spec (Permitted config input) (Ends requestID goal) log := by
  refine (gate log fresh).consequence fun result later ends => ?_
  cases result with
  | error _ => exact ends
  | ok value => exact reached value later ends.1 ends.2.1 ends.2.2

theorem Gate.consequence {fact weaker : Value → Log → Prop} (gate : Gate config input requestID program fact)
    (implied : ∀ value log, fact value log → weaker value log) :
    Gate config input requestID program weaker := by
  intro log fresh
  exact gate.last fresh fun value later stillFresh sub holds =>
    ⟨stillFresh, sub, implied value later holds⟩

theorem gate_pure (value : Value) :
    Gate config input requestID (pure value : Handling Value) fun given _ => given = value :=
  fun _ fresh => ⟨fresh, fun _ member => member, rfl⟩

theorem gate_invoke (quiet : isQuiet op = true) :
    Gate config input requestID (invoke op) fun answer log => ⟨op, answer⟩ ∈ log :=
  fun log fresh => ⟨permitted_of_isQuiet quiet log, fun answer =>
    ⟨fresh.snoc_of_isQuiet quiet answer, fun _ member => List.mem_append_left _ member,
      List.mem_append_right _ (List.mem_singleton_self _)⟩⟩

variable {response : Response}

theorem Fresh.reports (fresh : Fresh log) (notAccepted : response.isAccepted = false) :
    Reports response log := by
  refine ⟨⟨fun accepted => ?_, fun published => absurd published fresh.not_published⟩,
    fun subject payload error member => Bool.noConfusion (fresh.unpublished _ member)⟩
  rw [notAccepted] at accepted
  cases accepted

/-- A response that is not `accepted` may be given to a request that was not published. -/
theorem permitted_respond (fresh : Fresh log) (notAccepted : response.isAccepted = false) :
    Permitted config input (.respond response) log :=
  ⟨fresh.unanswered, fresh.reports notAccepted⟩

variable {fields : List (Bytes × Bytes)}

theorem not_isAccepted_texts (status : Nat) (header : Header)
    (noStatus : fields.lookup (lit "status") = none) :
    Response.isAccepted ⟨status, header, .texts fields⟩ = false := by
  simp [Response.isAccepted, noStatus]

variable {more : List (Bytes × Bytes)}

theorem lookup_errorFields (code : String) (noStatus : more.lookup (lit "status") = none) :
    (errorFields code ++ more).lookup (lit "status") = none := by
  have apart : (lit "status" == lit "error") = false := by decide
  exact noStatus

theorem not_isAccepted_code (status : Nat) (header : Header) (code : String) :
    Response.isAccepted ⟨status, header, .texts (errorFields code)⟩ = false := by
  exact not_isAccepted_texts status header (lookup_errorFields code rfl)

def Refuses (config : Config) (input : Input) (requestID : Bytes) (program : Handling Value) : Prop :=
  ∀ log, Fresh log → program.Spec (Permitted config input) (Ends requestID fun _ _ => False) log

theorem Refuses.gate (refuses : Refuses config input requestID program) (fact : Value → Log → Prop) :
    Gate config input requestID program fact := by
  intro log fresh
  refine (refuses log fresh).consequence fun result later ends => ?_
  cases result with
  | error _ => exact ends
  | ok _ => exact ends.elim

theorem refuses_reject (wctx : WebhookCtx) (status : Nat) (code error : String) (header : Header)
    (noStatus : more.lookup (lit "status") = none) :
    Refuses config input wctx.requestID (reject wctx status code (errorFields error ++ more) header) := by
  intro log fresh
  exact ⟨permitted_respond fresh (not_isAccepted_texts status header (lookup_errorFields error noStatus)),
    fun _ => fresh.settled rfl rfl⟩

theorem refuses_rejectCode (wctx : WebhookCtx) (status : Nat) (code : String) :
    Refuses config input wctx.requestID (rejectCode wctx status code) := by
  have refuses : Refuses config input wctx.requestID (reject wctx status code (errorFields code ++ []) []) :=
    refuses_reject wctx status code code [] rfl
  rwa [List.append_nil] at refuses

variable {refusal : Handling Unit}

theorem gate_refuseIf (condition : Bool) (refuses : Refuses config input requestID refusal) :
    Gate config input requestID (refuseIf condition refusal) fun _ _ => condition = false := by
  cases condition with
  | false => exact (gate_pure ()).consequence fun _ _ _ => rfl
  | true => exact refuses.gate _

theorem gate_publishRejection (licenseID : Bytes) (reason : String) (body : Bytes) :
    Gate config input requestID (publishRejection config licenseID reason body) fun _ _ => True := by
  intro log fresh
  have notSignal : isSignalSubject (lit "events.ingress.rejection") = false := by decide
  unfold publishRejection
  split
  · exact ⟨notSignal, fun answer => ⟨fresh.snoc rfl rfl rfl answer, fun _ member =>
      List.mem_append_left _ member, trivial⟩⟩
  · exact ⟨fresh, fun _ member => member, trivial⟩

theorem Refuses.after {refusal : Value → Handling Next} (gate : Gate config input requestID program fact)
    (refuses : ∀ value, Refuses config input requestID (refusal value)) :
    Refuses config input requestID (program >>= refusal) :=
  fun log fresh => Spec.bind (gate log fresh) (fun value later ends => refuses value later ends.1)
    fun _ _ answered => answered

/-! ### The helpers of the handlers -/

theorem gate_limitRate (wctx : WebhookCtx) (clientAddr : Bytes) :
    Gate config input wctx.requestID (limitRate config wctx clientAddr) fun _ log =>
      config.rateLimited = true → ⟨.allow clientAddr, true⟩ ∈ log := by
  unfold limitRate
  split
  · intro log fresh
    refine (gate_invoke rfl).next fresh fun allowed asked fresh₁ sub₁ member => ?_
    refine (gate_refuseIf (!allowed) (refuses_rejectCode wctx 429 _)).last fresh₁
      fun _ later fresh₂ sub₂ passed => ?_
    rw [Bool.not_eq_false'] at passed
    rw [passed] at member
    exact ⟨fresh₂, List.Subset.trans sub₁ sub₂, fun _ => sub₂ member⟩
  · rename_i notLimited
    exact (gate_pure ()).consequence fun _ _ _ limited => absurd limited notLimited

theorem gate_gateTimestamp (r : Request) (wctx : WebhookCtx) :
    Gate config input wctx.requestID (gateTimestamp config r wctx) fun _ log =>
      0 < config.timestampWindow → ∃ now, ⟨.now, now⟩ ∈ log ∧
        checkTimestamp r.header now config.timestampWindow = none := by
  unfold gateTimestamp
  split
  · intro log fresh
    refine (gate_invoke rfl).next fresh fun now read fresh₁ sub₁ member => ?_
    split
    · rename_i passed
      exact ⟨fresh₁, sub₁, fun _ => ⟨now, member, passed⟩⟩
    · exact ((refuses_reject wctx 401 _ _ [] rfl).gate fun _ _ => False).last fresh₁
        fun _ _ _ _ impossible => impossible.elim
  · rename_i noWindow
    exact (gate_pure ()).consequence fun _ _ _ window => absurd window noWindow

theorem requestID_withBody (r : Request) (wctx : WebhookCtx) :
    (withBody r wctx).requestID = wctx.requestID := by
  unfold withBody
  split <;> rfl

/-- **The gates of every route.** -/
theorem gate_gatingPreamble (r : Request) (wctx : WebhookCtx) :
    Gate config input wctx.requestID (gatingPreamble config r wctx (clientIP r)) fun passed log =>
      passed.requestID = wctx.requestID ∧ Gated config r log := by
  have method : Refuses config input wctx.requestID (reject wctx 405 "method_not_allowed"
      (errorFields "method_not_allowed" ++ []) [(lit "Allow", lit "POST")]) :=
    refuses_reject wctx 405 _ _ _ rfl
  intro log fresh
  unfold gatingPreamble
  refine (gate_refuseIf _ method).next fresh fun _ l₁ fresh sub₁ isPost => ?_
  refine (gate_refuseIf _ (refuses_rejectCode _ _ _)).next fresh fun _ l₂ fresh sub₂ fits => ?_
  rw [← requestID_withBody r wctx]
  refine (gate_refuseIf _ (refuses_rejectCode _ _ _)).next fresh fun _ l₃ fresh sub₃ token => ?_
  refine (gate_invoke rfl).next fresh fun halted l₄ fresh sub₄ loaded => ?_
  refine (gate_refuseIf _ (refuses_rejectCode _ _ _)).next fresh fun _ l₅ fresh sub₅ running => ?_
  refine (gate_limitRate _ _).next fresh fun _ l₆ fresh sub₆ rate => ?_
  refine (gate_refuseIf _ (refuses_rejectCode _ _ _)).next fresh fun _ l₇ fresh sub₇ network => ?_
  refine (gate_gateTimestamp r _).next fresh fun _ l₈ fresh sub₈ timestamp => ?_
  have late : l₆ ⊆ l₈ := List.Subset.trans sub₇ sub₈
  have middle : l₄ ⊆ l₈ := List.Subset.trans sub₅ (List.Subset.trans sub₆ late)
  have early : log ⊆ l₄ := List.Subset.trans sub₁ (List.Subset.trans sub₂ (List.Subset.trans sub₃ sub₄))
  refine ⟨fresh, List.Subset.trans early middle, rfl, ?_⟩
  simp only [Bool.or_eq_false_iff, Bool.and_eq_false_iff, decide_eq_false_iff_not, not_not,
    Nat.not_lt, Bool.not_eq_false'] at isPost fits token network
  rw [running] at loaded
  exact
    { method := isPost
      body := fits.2
      token := fun given => token.resolve_left given
      running := middle loaded
      rate := fun limited => late (rate limited)
      network := fun given => network.resolve_left given
      timestamp := timestamp }

theorem gate_findLicense (r : Request) (wctx : WebhookCtx) (licenseID : Bytes) :
    Gate config input wctx.requestID (findLicense config r wctx licenseID) fun record log =>
      ⟨.lookup licenseID, .ok record⟩ ∈ log := by
  intro log fresh
  unfold findLicense
  refine (gate_invoke rfl).next fresh fun answer l₁ fresh sub₁ member => ?_
  split
  · exact ⟨fresh, sub₁, member⟩
  · refine (gate_publishRejection licenseID _ _).next fresh fun _ l₂ fresh _ _ => ?_
    exact ⟨permitted_respond fresh (not_isAccepted_code _ _ _), fun _ => fresh.settled rfl rfl⟩

theorem gate_limitQuota (wctx : WebhookCtx) (licenseID : Bytes) (record : LicenseRecord) :
    Gate config input wctx.requestID (limitQuota wctx licenseID record) fun _ log =>
      0 < record.maxSignalsPerDay → ∃ now count, ⟨.now, now⟩ ∈ log ∧
        (⟨.increment licenseID now, count⟩ : Event Op Answer) ∈ log ∧
        (count : Int) ≤ record.maxSignalsPerDay := by
  unfold limitQuota
  split
  · intro log fresh
    refine (gate_invoke rfl).next fresh fun now l₁ fresh sub₁ read => ?_
    refine (gate_invoke rfl).next fresh fun count l₂ fresh sub₂ counted => ?_
    refine (gate_refuseIf _ (refuses_rejectCode _ _ _)).last fresh fun _ l₃ fresh sub₃ within => ?_
    rw [decide_eq_false_iff_not, Int.not_lt] at within
    have late : l₁ ⊆ l₃ := List.Subset.trans sub₂ sub₃
    exact ⟨fresh, List.Subset.trans sub₁ late, fun _ =>
      ⟨now, count, late read, sub₃ counted, within⟩⟩
  · rename_i unlimited
    exact (gate_pure ()).consequence fun _ _ _ limited => absurd limited unlimited

theorem gate_checkExposureLimits (licenseID accountID : Bytes) :
    Gate config input requestID (checkExposureLimits config licenseID accountID) fun exposure log =>
      exposure.allowedToProceed = true → Unexposed config licenseID accountID log := by
  intro log fresh
  unfold checkExposureLimits
  refine (gate_invoke rfl).next fresh fun notional l₁ fresh sub₁ first => ?_
  split
  · rename_i failed
    exact ⟨fresh, sub₁, fun _ => ⟨notional, first, Or.inl failed⟩⟩
  · refine (gate_invoke rfl).next fresh fun limit l₂ fresh sub₂ second => ?_
    exact ⟨fresh, List.Subset.trans sub₁ sub₂, fun allowed =>
      ⟨notional, sub₂ first, Or.inr ⟨limit, second, allowed⟩⟩⟩

theorem gate_limitExposure (r : Request) (wctx : WebhookCtx) (licenseID : Bytes)
    (record : LicenseRecord) :
    Gate config input wctx.requestID (limitExposure config r wctx licenseID record) fun _ log =>
      config.hasDB = true → record.instanceID ≠ [] →
        Unexposed config licenseID record.instanceID log := by
  unfold limitExposure
  split
  · intro log fresh
    refine (gate_checkExposureLimits _ _).next fresh fun exposure l₁ fresh sub₁ unexposed => ?_
    have refuses : Refuses config input wctx.requestID (do
        publishRejection config licenseID "exposure_limit_exceeded" r.body
        reject wctx 429 "exposure_limit_exceeded"
          (errorFields "exposure_limit_exceeded" ++ [(lit "reason", exposure.reason)])) :=
      Refuses.after (gate_publishRejection _ _ _) fun _ => refuses_reject wctx 429 _ _ [] rfl
    refine (gate_refuseIf _ refuses).last fresh fun _ l₂ fresh sub₂ allowed => ?_
    rw [Bool.not_eq_false'] at allowed
    exact ⟨fresh, List.Subset.trans sub₁ sub₂, fun _ _ => (unexposed allowed).mono sub₂⟩
  · rename_i unchecked
    refine (gate_pure ()).consequence fun _ _ _ hasDB given => absurd ?_ unchecked
    rw [hasDB, Bool.true_and, decide_eq_true_eq]
    exact given

theorem refuses_rejectPublished (r : Request) (wctx : WebhookCtx) (licenseID : Bytes) (code : String) :
    Refuses config input wctx.requestID (rejectPublished config r wctx licenseID code) :=
  Refuses.after (gate_publishRejection _ _ _) fun _ => refuses_rejectCode wctx 401 code

/-- **The gates of a license.** -/
theorem gate_authenticate (r : Request) (wctx : WebhookCtx) (licenseID secretValue : Bytes) :
    Gate config input wctx.requestID (authenticate config r wctx licenseID secretValue) fun record log =>
      Licensed config r licenseID secretValue record log := by
  intro log fresh
  unfold authenticate
  refine (gate_findLicense r wctx licenseID).next fresh fun record l₁ fresh sub₁ found => ?_
  refine (gate_refuseIf _ (refuses_rejectCode _ _ _)).next fresh fun _ l₂ fresh sub₂ tokens => ?_
  refine (gate_refuseIf _ (refuses_rejectPublished r wctx _ _)).next fresh
    fun _ l₃ fresh sub₃ secret => ?_
  refine (gate_refuseIf _ (refuses_rejectPublished r wctx _ _)).next fresh
    fun _ l₄ fresh sub₄ signature => ?_
  refine (gate_limitQuota wctx licenseID record).next fresh fun _ l₅ fresh sub₅ quota => ?_
  refine (gate_limitExposure r wctx licenseID record).next fresh fun _ l₆ fresh sub₆ exposure => ?_
  have late : l₁ ⊆ l₆ := List.Subset.trans sub₂ (List.Subset.trans sub₃ (List.Subset.trans sub₄
    (List.Subset.trans sub₅ sub₆)))
  refine ⟨fresh, List.Subset.trans sub₁ late, ?_⟩
  simp only [Bool.or_eq_false_iff, Bool.and_eq_false_iff, decide_eq_false_iff_not, not_not,
    Bool.not_eq_false'] at tokens secret signature
  exact
    { found := late found
      licenseToken := tokens.1
      instanceToken := tokens.2
      secret := fun given => secret.resolve_left given
      signature := fun given => signature.resolve_left given
      quota := fun limited => by
        obtain ⟨now, count, read, counted, within⟩ := quota limited
        exact ⟨now, count, sub₆ read, sub₆ counted, within⟩
      exposure := exposure }

theorem gate_assignTraceID (r : Request) :
    Gate config input requestID (assignTraceID r) fun _ _ => True := by
  simp only [assignTraceID]
  split
  · exact (gate_pure _).consequence fun _ _ _ => trivial
  · split
    · exact (gate_pure _).consequence fun _ _ _ => trivial
    · exact (gate_invoke rfl).consequence fun _ _ _ => trivial

/-! ### Publishing and answering -/

variable {event : Event Op Answer}

theorem reports_publish {subject payload : Bytes} {error : Option Bytes} (fresh : Fresh log)
    (accepted : response.isAccepted = error.isNone)
    (failed : error.isSome = true → response.isPublishFailed = true) :
    Reports response (log ++ [⟨.publish subject payload, error⟩]) := by
  refine ⟨?_, fun other bytes text member => ?_⟩
  · rw [accepted, Option.isNone_iff_eq_none]
    constructor
    · rintro rfl
      exact ⟨subject, payload, List.mem_append_right _ (List.mem_singleton_self _)⟩
    · rintro ⟨other, bytes, member⟩
      rcases List.mem_append.mp member with earlier | last
      · exact absurd ⟨other, bytes, earlier⟩ fresh.not_published
      · cases List.mem_singleton.mp last
        rfl
  · rcases List.mem_append.mp member with earlier | last
    · exact Bool.noConfusion (fresh.unpublished _ earlier)
    · cases List.mem_singleton.mp last
      exact failed rfl

theorem Reports.snoc (reports : Reports response log) (notPublish : isPublish event.op = false) :
    Reports response (log ++ [event]) := by
  have same (subject payload : Bytes) (error : Option Bytes) :
      ⟨.publish subject payload, error⟩ ∈ log ++ [event] ↔
        ⟨.publish subject payload, error⟩ ∈ log := by
    rw [List.mem_append, List.mem_singleton, or_iff_left]
    rintro rfl
    exact Bool.noConfusion notPublish
  refine ⟨?_, fun subject payload error member => ?_⟩
  · rw [reports.accepted, Published, Published]
    simp only [same]
  · exact reports.failed subject payload error ((same subject payload _).mp member)

abbrev Over (requestID : Bytes) : Except WebhookCtx WebhookCtx → Log → Prop :=
  Ends requestID (Settled requestID)

theorem Refuses.answers (refuses : Refuses config input requestID refusal) (fresh : Fresh log)
    (wctx : WebhookCtx) :
    (do refusal; return wctx : Handling WebhookCtx).Spec (Permitted config input) (Over requestID) log :=
  Spec.bind (refuses log fresh) (fun _ _ impossible => impossible.elim) fun _ _ answered => answered

variable {record : LicenseRecord} {r : Request}

theorem spec_publishAlert {parsed : Parser.Signal} (wctx : WebhookCtx) (traceID : Bytes)
    (fresh : Fresh log) (admitted : ∀ later, log ⊆ later →
      Admitted config input (signalSubject parsed.licenseID record.instanceID record.platform) later) :
    (publishAlert config r wctx parsed record traceID).Spec (Permitted config input)
      (Over wctx.requestID) log := by
  unfold publishAlert
  refine (gate_invoke rfl).next fresh fun received l₁ fresh sub₁ _ => ?_
  split
  · exact (refuses_rejectCode wctx 500 _).answers fresh wctx
  · refine ⟨⟨fresh, admitted l₁ sub₁⟩, fun error => ?_⟩
    cases error with
    | some text =>
      exact ⟨⟨(fresh.toPending.snoc rfl rfl _).unanswered, reports_publish fresh
        (not_isAccepted_code 503 [] _) fun _ => rfl⟩,
        fun _ => (fresh.toPending.snoc rfl rfl _).settled rfl rfl⟩
    | none =>
      refine ⟨⟨(fresh.toPending.snoc rfl rfl _).unanswered, reports_publish fresh ?_
        fun failed => Bool.noConfusion failed⟩,
        fun _ => (fresh.toPending.snoc rfl rfl _).settled rfl rfl⟩
      show (List.lookup (lit "status") [(lit "status", lit "accepted"), (lit "trace_id", traceID)] ==
        some (lit "accepted")) = true
      rfl

/-- **The flat route.** -/
theorem spec_webhookBody (r : Request) (wctx : WebhookCtx) (fresh : Fresh log) :
    (webhookBody config r wctx (clientIP r)).Spec (Permitted config (.webhook r))
      (Over wctx.requestID) log := by
  unfold webhookBody
  refine (gate_gatingPreamble r wctx).next fresh fun passed l₁ fresh _ ⟨kept, gated⟩ => ?_
  rw [← kept]
  split
  · exact (refuses_reject passed 400 _ _ [] rfl).answers fresh passed
  · rename_i parsed parses
    unfold relayAlert
    refine (gate_authenticate r { passed with licenseKey := parsed.licenseID } _ _).next fresh
      fun record l₂ fresh sub₂ licensed => ?_
    refine (gate_assignTraceID r).next fresh fun traceID l₃ fresh sub₃ _ => ?_
    refine spec_publishAlert { passed with licenseKey := parsed.licenseID, traceID := traceID } traceID
      fresh fun later sub => ?_
    have named : credentials config (.webhook r) = some (r, parsed.licenseID, secretOf parsed) := by
      rw [credentials, parses]
    exact ⟨r, _, _, record, named, gated.mono (List.Subset.trans sub₂ (List.Subset.trans sub₃ sub)),
      licensed.mono (List.Subset.trans sub₃ sub), rfl⟩

/-! ### The ML route -/

theorem gate_resolveCurrentPosition (licenseID accountID symbol : Bytes) (caller : Option Bytes) :
    Gate config input requestID (resolveCurrentPosition config licenseID accountID symbol caller)
      fun _ _ => True := by
  unfold resolveCurrentPosition
  cases caller with
  | some given => exact (gate_pure _).consequence fun _ _ _ => trivial
  | none =>
    dsimp only
    split
    · intro log fresh
      refine (gate_invoke rfl).next fresh fun answer l₁ fresh sub₁ _ => ?_
      split <;> exact ⟨fresh, sub₁, trivial⟩
    · exact (gate_pure _).consequence fun _ _ _ => trivial

theorem decideML_status (action position : Bytes) (row : MLDecisionRow)
    (answer : Except Bytes PredictResponse) :
    (decideML config action position row answer).status =
      if (decideML config action position row answer).command.isSome then lit "accepted"
      else lit "skipped" := by
  unfold decideML
  split <;> rfl

/-- The row of a decision is written before the answer, which is the one that the log calls for. -/
theorem spec_finishML (wctx : WebhookCtx) (decision : Decision) (row : MLDecisionRow)
    (traceID : Bytes) (pending : Pending log)
    (reports : Reports ⟨200, traceHeader traceID, .decision decision.status traceID decision.ml⟩ log) :
    (finishML config wctx decision row traceID).Spec (Permitted config input)
      (Over wctx.requestID) log := by
  unfold finishML recordMLDecision
  split
  · exact ⟨trivial, fun inserted => ⟨⟨(pending.snoc rfl rfl _).unanswered, reports.snoc rfl⟩,
      fun _ => (pending.snoc rfl rfl inserted).settled rfl rfl⟩⟩
  · exact ⟨⟨pending.unanswered, reports⟩, fun _ => pending.settled rfl rfl⟩

theorem spec_failML (wctx : WebhookCtx) (status : Nat) (code : String) (row : MLDecisionRow)
    (pending : Pending log)
    (reports : Reports ⟨status, [], .texts (errorFields code)⟩ log) :
    (failML config wctx status code row).Spec (Permitted config input) (Over wctx.requestID) log := by
  refine ⟨⟨pending.unanswered, reports⟩, fun _ => ?_⟩
  have settled : Settled wctx.requestID { wctx with reasonCode := lit code, status := status }
      (log ++ [⟨.respond ⟨status, [], .texts (errorFields code)⟩, ()⟩]) := pending.settled rfl rfl
  unfold recordMLDecision
  split
  · exact ⟨trivial, fun inserted => settled.snoc rfl inserted⟩
  · exact settled

theorem spec_publishDecision {req : MLWebhookRequest} {decision : Decision} (wctx : WebhookCtx)
    (traceID : Bytes) (fresh : Fresh log) (reported : decision.status =
      if decision.command.isSome then lit "accepted" else lit "skipped")
    (admitted : ∀ later, log ⊆ later →
      Admitted config input (signalSubject req.licenseID record.instanceID record.platform) later) :
    (publishDecision config r wctx req record traceID decision).Spec (Permitted config input)
      (Over wctx.requestID) log := by
  have accepted : Response.isAccepted ⟨200, traceHeader traceID,
      .decision decision.status traceID decision.ml⟩ = decision.command.isSome := by
    have apart : lit "skipped" ≠ lit "accepted" := by decide
    rw [Response.isAccepted, reported]
    cases decision.command with
    | none => simp [apart]
    | some _ => simp
  unfold publishDecision
  cases chosen : decision.command with
  | none =>
    rw [chosen] at accepted
    exact spec_finishML wctx decision _ traceID fresh.toPending (fresh.reports accepted)
  | some command =>
    rw [chosen] at accepted
    refine (gate_invoke rfl).next fresh fun received l₁ fresh sub₁ _ => ?_
    split
    · exact spec_failML wctx 500 _ _ fresh.toPending (fresh.reports (not_isAccepted_code _ _ _))
    · refine ⟨⟨fresh, admitted l₁ sub₁⟩, fun error => ?_⟩
      cases error with
      | some text =>
        exact spec_failML wctx 503 _ _ (fresh.toPending.snoc rfl rfl _)
          (reports_publish fresh (not_isAccepted_code _ _ _) fun _ => rfl)
      | none =>
        exact spec_finishML wctx decision _ traceID (fresh.toPending.snoc rfl rfl _)
          (reports_publish fresh accepted fun failed => Bool.noConfusion failed)

/-- **The ML route.** -/
theorem spec_webhookMLBody (r : Request) (wctx : WebhookCtx) (fresh : Fresh log) :
    (webhookMLBody config r wctx (clientIP r)).Spec (Permitted config (.webhookML r))
      (Over wctx.requestID) log := by
  unfold webhookMLBody
  refine (gate_gatingPreamble r wctx).next fresh fun passed l₁ fresh _ ⟨kept, gated⟩ => ?_
  rw [← kept]
  split
  · exact (refuses_reject passed 400 _ _ [] rfl).answers fresh passed
  · rename_i req decodes
    let named : WebhookCtx := { passed with licenseKey := req.licenseID }
    unfold relayML scoreML
    refine (gate_refuseIf _ (refuses_reject named 400 _ _ [] rfl)).next fresh fun _ l₂ fresh sub₂ _ => ?_
    refine (gate_refuseIf _ (refuses_reject named 400 _ _ [] rfl)).next fresh fun _ l₃ fresh sub₃ _ => ?_
    refine (gate_authenticate r named _ _).next fresh fun record l₄ fresh sub₄ licensed => ?_
    refine (gate_assignTraceID r).next fresh fun traceID l₅ fresh sub₅ _ => ?_
    refine (gate_resolveCurrentPosition _ _ _ _).next fresh fun position l₆ fresh sub₆ _ => ?_
    refine (gate_invoke rfl).next fresh fun answer l₇ fresh sub₇ _ => ?_
    refine spec_publishDecision { named with traceID := traceID } traceID fresh (decideML_status _ _ _ _) fun later sub => ?_
    have license : credentials config (.webhookML r) = some (r, req.licenseID, req.secret) := by
      rw [credentials, decodes]
    have behind : l₄ ⊆ later := List.Subset.trans sub₅ (List.Subset.trans sub₆
      (List.Subset.trans sub₇ sub))
    have all : l₁ ⊆ later := List.Subset.trans sub₂ (List.Subset.trans sub₃
      (List.Subset.trans sub₄ behind))
    exact ⟨r, _, _, record, license, gated.mono all, licensed.mono behind, rfl⟩

/-! ### Whole requests -/

/-- A request that is over was answered, and its event was published. -/
def Finished (config : Config) (input : Input) (log : Log) : Prop :=
  Answered log ∧ ∀ r, input.webhookRequest = some r → config.hasEventPublisher = true → Recorded r log

theorem spec_recordRequestEvent (r : Request) {wctx : WebhookCtx} (begun : Time)
    (settled : Settled requestID wctx log) (identified : Identified r requestID log) :
    (recordRequestEvent config r wctx (clientIP r) begun).Spec (Permitted config input)
      (fun _ log => Answered log ∧ (config.hasEventPublisher = true → Recorded r log)) log := by
  have notSignal : isSignalSubject (lit "events.ingress.request") = false := by decide
  unfold recordRequestEvent
  split
  · refine ⟨trivial, fun now => ⟨notSignal, fun error => ⟨?_, fun _ => ?_⟩⟩⟩
    · exact (settled.answered.append _).append _
    · refine recorded_snoc settled identified ?_ ⟨rfl, rfl, rfl, rfl⟩
      dsimp only
      split <;> exact ⟨rfl, rfl, rfl⟩
  · rename_i unpublished
    exact ⟨settled.answered, fun published => absurd published unpublished⟩

theorem spec_handled {body : WebhookCtx → Bytes → Handling WebhookCtx}
    (proved : ∀ wctx log, Fresh log →
      (body wctx (clientIP r)).Spec (Permitted config input) (Over wctx.requestID) log) :
    (handled config r body).Spec (Permitted config input)
      (fun _ log => Answered log ∧ (config.hasEventPublisher = true → Recorded r log)) [] := by
  have attempted (requestID : Bytes) (log : Log) (fresh : Fresh log)
      (identified : Identified r requestID log) :
      ((body { requestID := requestID } (clientIP r)).attempt : Program Op Answer Empty _).Spec
        (Permitted config input) (fun result later => ∀ wctx,
          result = .ok (.ok wctx) ∨ result = .ok (.error wctx) →
            Identified r requestID later ∧ Settled requestID wctx later) log := by
    refine Spec.attempt ((proved _ log fresh).traced.consequence ?_)
    rintro (_ | _) later ⟨ends, inner, rfl, _⟩ wctx (⟨⟨⟩⟩ | ⟨⟨⟩⟩) <;>
      exact ⟨identified.append inner, ends⟩
  unfold handled
  dsimp only
  split
  · rename_i absent
    refine ⟨trivial, fun id => ⟨trivial, fun begun => (attempted id _
      ((fresh_nil.snoc_of_isQuiet rfl id).snoc_of_isQuiet rfl begun) ?_).bind
      (fun ended later facts => ?_) fun error => error.elim⟩⟩
    · rw [Identified, if_pos absent]
      exact List.mem_cons_self
    · cases ended with
      | ok wctx => exact spec_recordRequestEvent r begun (facts wctx (.inl rfl)).2 (facts wctx (.inl rfl)).1
      | error wctx => exact spec_recordRequestEvent r begun (facts wctx (.inr rfl)).2 (facts wctx (.inr rfl)).1
  · rename_i given
    refine ⟨trivial, fun begun => (attempted r.contextRequestID _ (fresh_nil.snoc_of_isQuiet rfl begun)
      ?_).bind (fun ended later facts => ?_) fun error => error.elim⟩
    · rw [Identified, if_neg given]
    · cases ended with
      | ok wctx => exact spec_recordRequestEvent r begun (facts wctx (.inl rfl)).2 (facts wctx (.inl rfl)).1
      | error wctx => exact spec_recordRequestEvent r begun (facts wctx (.inr rfl)).2 (facts wctx (.inr rfl)).1

theorem spec_answerTexts (status : Nat) (header : Header)
    (noStatus : fields.lookup (lit "status") = none) (fresh : Fresh log) :
    (answerTexts status fields header).Spec (Permitted config input) (fun _ log => Answered log) log :=
  ⟨permitted_respond fresh (not_isAccepted_texts status header noStatus), fun _ => answered_snoc _ _⟩

theorem spec_toggle (r : Request) (halted : Bool) (fresh : Fresh log) :
    (toggle config r halted).Spec (Permitted config input) (fun _ log => Answered log) log := by
  unfold toggle
  refine ⟨trivial, fun previous => ?_⟩
  have behind := Fresh.snoc_of_isQuiet fresh (show isQuiet (.swapHalted halted) = true from rfl) previous
  show (if previous ≠ halted then
    recordKillSwitchEvent config (clientIP r) halted previous >>= fun _ => answerTexts 200 _
    else answerTexts 200 _).Spec _ _ _
  split
  · unfold recordKillSwitchEvent
    split
    · exact ⟨trivial, fun inserted => spec_answerTexts 200 [] rfl (behind.snoc rfl rfl rfl _)⟩
    · exact spec_answerTexts 200 [] rfl behind
  · exact spec_answerTexts 200 [] rfl behind

theorem spec_killSwitch (r : Request) (fresh : Fresh log) :
    (killSwitch config r).Spec (Permitted config input) (fun _ log => Answered log) log := by
  unfold killSwitch
  split
  · exact spec_answerTexts 503 [] rfl fresh
  · split
    · exact spec_answerTexts 401 [] rfl fresh
    · split
      · exact ⟨trivial, fun halted => spec_answerTexts 200 [] rfl (fresh.snoc rfl rfl rfl _)⟩
      · split
        · split
          · exact spec_answerTexts 400 [] rfl fresh
          · exact spec_toggle r _ fresh
        · exact spec_answerTexts 405 _ rfl fresh

/-- **Every request** makes the permitted calls only, and is answered when it is over. -/
theorem spec_start (config : Config) (input : Input) :
    (start config input).Spec (Permitted config input) (fun _ log => Finished config input log) [] := by
  cases input with
  | webhook r =>
    refine (spec_handled fun wctx _ fresh => spec_webhookBody r wctx fresh).consequence ?_
    rintro _ log ⟨answered, recorded⟩
    exact ⟨answered, by rintro _ ⟨⟩; exact recorded⟩
  | webhookML r =>
    refine (spec_handled fun wctx _ fresh => spec_webhookMLBody r wctx fresh).consequence ?_
    rintro _ log ⟨answered, recorded⟩
    exact ⟨answered, by rintro _ ⟨⟩; exact recorded⟩
  | killSwitch r =>
    exact (spec_killSwitch r fresh_nil).consequence fun _ _ answered => ⟨answered, nofun⟩

/-- **Every request of a webhook route has one event.** -/
theorem recorded_of_path (publisher : config.hasEventPublisher = true)
    (route : input.webhookRequest = some r) (path : (start config input).Path log (.done ())) :
    Recorded r log :=
  ((spec_start config input).of_path path).2 r route publisher

end Gate

/-! ### Runs of the service -/

/-- A call that publishes on a subject of signals, by either publisher. -/
def publishesSignal : Op → Bool
  | .publish subject _ => isSignalSubject subject
  | .publishEvent subject _ => isSignalSubject subject
  | _ => false

/-- **Every call of a log was permitted** by the calls before it. -/
def Orderly (config : Config) (input : Input) (log : Log) : Prop :=
  ∀ front event back, log = front ++ event :: back → Permitted config input event.op front

namespace Orderly

variable {config : Config} {input : Input} {log : Log}

variable {event : Event Op Answer} {front back : Log}

theorem publish_of_publishesSignal (orderly : Orderly config input log)
    (parts : log = front ++ event :: back) (publishes : publishesSignal event.op = true) :
    isPublish event.op = true ∧ Fresh front ∧ ∃ subject, Admitted config input subject front := by
  have permitted := orderly front event back parts
  obtain ⟨op, answer⟩ := event
  cases op with
  | publish subject payload => exact ⟨rfl, permitted.1, subject, permitted.2⟩
  | publishEvent subject event =>
    -- the subjects of events are other subjects
    have notSignal : isSignalSubject subject = false := permitted
    rw [publishesSignal, notSignal] at publishes
    cases publishes
  | _ => cases publishes

theorem published_once (orderly : Orderly config input log) (parts : log = front ++ event :: back)
    (publishes : publishesSignal event.op = true) :
    ∀ other ∈ front ++ back, publishesSignal other.op = false := by
  obtain ⟨isPublished, fresh, _⟩ := orderly.publish_of_publishesSignal parts publishes
  intro other member
  rw [Bool.eq_false_iff]
  intro again
  rcases List.mem_append.mp member with earlier | later
  · obtain ⟨start, rest, rfl⟩ := List.append_of_mem earlier
    rw [List.append_assoc, List.cons_append] at parts
    have otherPublished := (orderly.publish_of_publishesSignal parts again).1
    rw [fresh.unpublished other earlier] at otherPublished
    cases otherPublished
  · obtain ⟨start, rest, rfl⟩ := List.append_of_mem later
    rw [← List.cons_append, ← List.append_assoc] at parts
    have stillFresh := (orderly.publish_of_publishesSignal parts again).2.1
    rw [stillFresh.unpublished event (by simp)] at isPublished
    cases isPublished

theorem publish_unique (orderly : Orderly config input log) {event other : Event Op Answer}
    (member : event ∈ log) (publishes : publishesSignal event.op = true) (again : other ∈ log)
    (alsoPublishes : publishesSignal other.op = true) : other = event := by
  obtain ⟨front, back, parts⟩ := List.append_of_mem member
  have once := orderly.published_once parts publishes
  rw [parts, List.mem_append, List.mem_cons] at again
  rcases again with earlier | same | later
  · rw [once other (List.mem_append_left _ earlier)] at alsoPublishes
    cases alsoPublishes
  · exact same
  · rw [once other (List.mem_append_right _ later)] at alsoPublishes
    cases alsoPublishes

/-- **The answer tells what became of the signal**, as nothing is published behind it. -/
theorem reports (orderly : Orderly config input log) {response : Response}
    (responded : ⟨.respond response, ()⟩ ∈ log) : Reports response log := by
  obtain ⟨front, back, parts⟩ := List.append_of_mem responded
  have permitted := orderly front _ back parts
  have inFront (subject payload : Bytes) (error : Option Bytes)
      (member : ⟨.publish subject payload, error⟩ ∈ log) :
      ⟨.publish subject payload, error⟩ ∈ front := by
    rw [parts, List.mem_append, List.mem_cons] at member
    rcases member with earlier | same | later
    · exact earlier
    · cases same
    · obtain ⟨start, rest, rfl⟩ := List.append_of_mem later
      rw [← List.cons_append, ← List.append_assoc] at parts
      have fresh : Fresh _ := (orderly _ _ rest parts).1
      exact Bool.noConfusion (fresh.unanswered ⟨.respond response, ()⟩ (by simp))
  refine ⟨permitted.2.accepted.trans ⟨?_, ?_⟩, fun subject payload error member => ?_⟩
  · rintro ⟨subject, payload, member⟩
    exact ⟨subject, payload, parts ▸ List.mem_append_left _ member⟩
  · rintro ⟨subject, payload, member⟩
    exact ⟨subject, payload, inFront subject payload none member⟩
  · exact permitted.2.failed subject payload error (inFront subject payload _ member)

theorem isSignalSubject_of_publish (orderly : Orderly config input log) {subject payload : Bytes}
    {error : Option Bytes} (member : ⟨.publish subject payload, error⟩ ∈ log) :
    isSignalSubject subject = true := by
  obtain ⟨front, back, parts⟩ := List.append_of_mem member
  obtain ⟨_, r, licenseID, secretValue, record, _, _, _, rfl⟩ := orderly front _ back parts
  exact isSignalSubject_signalSubject licenseID record.instanceID record.platform

end Orderly

section Run

variable {Number Network NetworkChange : Type} {limiter : Limiter Number}
  {broker : Broker Network NetworkChange} {config : Config} {world : World Number Network}
  {state : Machine.State (World Number Network) Input Op Answer Empty}
  {allowed : Machine.State (World Number Network) Input Op Answer Empty →
    Machine.Label Input (Change NetworkChange) Op Answer → Prop}

variable {index : Nat}

theorem orderly_of_reached (reached : (machine limiter broker config).Reached allowed world state)
    {thread : Machine.Thread Input Op Answer Empty} (found : state.threads[index]? = some thread) :
    Orderly config thread.input (state.log index) :=
  fun _ _ _ parts => (spec_start config thread.input).before_of_path
    (Machine.path_of_reaches reached index thread found) parts

theorem permitted_of_reached (reached : (machine limiter broker config).Reached allowed world state)
    {input : Input} {op : Op} {rest : Answer op → Program Op Answer Empty Unit}
    (found : state.threads[index]? = some ⟨input, .call op rest⟩) :
    Permitted config input op (state.log index) :=
  ((spec_start config input).of_path (Machine.path_of_reaches reached index _ found)).1

theorem active_of_reached (reached : (machine limiter broker config).Reached allowed world state)
    {licenseID : Bytes} {record : LicenseRecord}
    (found : ⟨.lookup licenseID, .ok record⟩ ∈ state.log index) :
    record.licenseID = licenseID ∧ record.active = true := by
  obtain ⟨before, after, served⟩ := Machine.served_of_reaches reached _ (Machine.mem_log.mp found)
  have exact_ : exactly (lookupRecord before.records licenseID) (.ok record) before = some after :=
    served
  rw [exactly] at exact_
  split at exact_
  · rename_i same
    exact (lookupRecord_eq_ok same.symm).2
  · cases exact_

variable (config state)

/-- What a state says about the signals that were published and the requests that were answered. -/
structure Guarded : Prop where
  /-- A publication on a subject of signals belongs to one request and is its only one. The calls that
  the request made before show that it passed every gate, for a license that was found active. -/
  published : ∀ entry ∈ state.history, publishesSignal entry.event.op = true →
    ∃ thread before after r licenseID secretValue record,
      state.threads[entry.thread]? = some thread ∧
      state.log entry.thread = before ++ entry.event :: after ∧
      (∀ event ∈ before ++ after, publishesSignal event.op = false) ∧
      credentials config thread.input = some (r, licenseID, secretValue) ∧
      Gated config r before ∧ Licensed config r licenseID secretValue record before ∧
      record.licenseID = licenseID ∧ record.active = true
  /-- `accepted` is answered exactly if the call of `Publish` returned no error. -/
  accepted : ∀ index thread, state.threads[index]? = some thread → ∀ response,
    ⟨.respond response, ()⟩ ∈ state.log index →
    (response.isAccepted = true ↔ Published (state.log index))
  /-- A request that is over was answered. -/
  finished : ∀ index thread, state.threads[index]? = some thread → thread.program = .done () →
    Answered (state.log index)

variable {config state}

/-- **In every run of the service signals are published past the gates only.** -/
theorem publish_gated
    (reached : (machine limiter broker config).Reached (fun _ _ => True) world state) :
    Guarded config state := by
  refine ⟨fun entry member publishes => ?_, fun index thread found response => ?_,
    fun index thread found finished => ?_⟩
  · obtain ⟨thread, found⟩ : ∃ thread, state.threads[entry.thread]? = some thread :=
      ⟨_, List.getElem?_eq_getElem (Machine.history_lt_of_reaches reached entry member)⟩
    have orderly := orderly_of_reached reached found
    obtain ⟨before, after, parts⟩ := List.append_of_mem (Machine.mem_log.mpr member)
    obtain ⟨_, _, subject, r, licenseID, secretValue, record, named, gated, licensed, _⟩ :=
      orderly.publish_of_publishesSignal parts publishes
    have active := active_of_reached reached
      (parts ▸ List.mem_append_left _ licensed.found :
        ⟨.lookup licenseID, .ok record⟩ ∈ state.log entry.thread)
    exact ⟨thread, before, after, r, licenseID, secretValue, record, found, parts,
      orderly.published_once parts publishes, named, gated, licensed, active.1, active.2⟩
  · exact fun responded => ((orderly_of_reached reached found).reports responded).accepted
  · have path := Machine.path_of_reaches reached index thread found
    rw [finished] at path
    exact ((spec_start config thread.input).of_path path).1

end Run

/-- A request for the one license is accepted. -/
theorem publish_gated_accepted :
    ∃ state, run (machine plainLimiter reliable plainConfig).step { world := oneLicense () }
        (.begin (.webhook plainRequest) :: List.replicate 8 (.advance 0 obliging)) = some state ∧
      Published (state.log 0) ∧ Guarded plainConfig state := by
  have ran : (run (machine plainLimiter reliable plainConfig).step { world := oneLicense () }
      (.begin (.webhook plainRequest) :: List.replicate 8 (.advance 0 obliging))).any
      (fun state => (state.log 0).any isPublished) = true := by decide +kernel
  obtain ⟨state, same, published⟩ := (Option.any_eq_true _ _).mp ran
  exact ⟨state, same, published_iff.mpr published, publish_gated (Reaches.of_run _ same)⟩

end ExecRelay.Ingress
