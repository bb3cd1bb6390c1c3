/-
**What the predictor can change.**

A request to the ML route that has passed the gates asks the predictor (`Asks`), and what is left of it
depends on the answer. The signals that it then publishes are judged by the answer (`Judged`):

`Early` are the calls in front of the prediction; the gates make no others (`early_authenticate`).
`judged_of_asks` is about every request, every answer and every way the request may go.
-/

import ExecRelay.Ingress.Calls
import ExecRelay.Nats.Delivery
import ExecRelay.Parser.Correct
import ExecRelay.Proto.Codec

namespace ExecRelay.Ingress

open Lib
open Lib.Program (Only Path Spec)
open Nats (Message)

/-! ### Signals of a log -/

/-- The signals that a request has called `Publish` with. -/
def publications (log : Log) : List Message :=
  log.filterMap fun event =>
    match event.op with
    | .publish subject payload => some ⟨subject, payload⟩
    | _ => none

def commandsPublished (log : Log) : List (Option Bytes) :=
  (publications log).map fun message =>
    (Proto.Codec.standard.unmarshal message.data).map fun signal => signal.command

def clockReadings (log : Log) : List Time :=
  log.filterMap fun
    | ⟨.now, now⟩ => some now
    | _ => none

theorem publications_append (front back : Log) :
    publications (front ++ back) = publications front ++ publications back :=
  List.filterMap_append

theorem clockReadings_append (front back : Log) :
    clockReadings (front ++ back) = clockReadings front ++ clockReadings back :=
  List.filterMap_append

def positionRead (log : Log) : Option Bytes :=
  log.findSome? fun
    | ⟨.queryPosition _ _ _, .ok size⟩ => some (positionOf size)
    | _ => none

/-- **The position that a request is scored with**: the caller's, or that of the database. -/
def resolvedPosition (config : Config) (req : MLWebhookRequest) (log : Log) : Bytes :=
  match req.currentPosition with
  | some given =>
    let position := upperASCII (trimSpace given)
    if position = lit "LONG" ∨ position = lit "SHORT" then position else []
  | none => if config.hasDB then (positionRead log).getD [] else []

/-- The action of the caller. -/
def actionOf (req : MLWebhookRequest) : Bytes :=
  lowerASCII (trimSpace req.action)

def queryFor (req : MLWebhookRequest) (position : Bytes) : PredictRequest where
  direction := if actionOf req = lit "sell" then -1 else 1
  features := req.features
  currentPosition := if position = [] then none else some position

/-! ### Requests that are scored -/

/-- The request passes the gates with the calls of `log`, and asks the predictor. -/
def Asks (config : Config) (r : Request) (log : Log) (query : PredictRequest)
    (next : Except Bytes PredictResponse → Program Op Answer Empty Unit) : Prop :=
  (webhookML config r).Path log (.call (.predict query) next)

def encodeFailed : Response :=
  ⟨500, [], .texts (errorFields "encode_failed")⟩

/-- The rest of a request may go on with the calls of `log` to its end, and its signal is encoded. -/
def Completes (rest : Program Op Answer Empty Unit) (log : Log) : Prop :=
  rest.Path log (.done ()) ∧ (⟨.respond encodeFailed, ()⟩ : Event Op Answer) ∉ log

/-- **What the answer of the predictor decides.** -/
structure Judged (config : Config) (req : MLWebhookRequest) (log : Log)
    (next : Except Bytes PredictResponse → Program Op Answer Empty Unit) : Prop where
  unpublished : publications log = []
  shadow : config.mlEnforce = false → ∀ left right leftLog rightLog,
    Completes (next left) leftLog → Completes (next right) rightLog →
    clockReadings leftLog = clockReadings rightLog →
    publications leftLog = publications rightLog ∧ (publications leftLog).length = 1
  failed : ∀ outcome text later, predictionError outcome = .error text → Completes (next outcome) later →
    commandsPublished later = [some (actionOf req)]
  enforced : config.mlEnforce = true → ∀ outcome response later,
    predictionError outcome = .ok response → Completes (next outcome) later →
    commandsPublished later =
      (mapDecisionToCommand response.actionSummary (resolvedPosition config req log)).toList.map
        fun command => some command.string

/-! ### The calls in front of the prediction -/

theorem publications_of_early {log : Log} (early : ∀ event ∈ log, Early event.op) :
    publications log = [] := by
  refine List.filterMap_eq_nil_iff.mpr fun event member => ?_
  have fine := early event member
  split
  · rename_i published
    rw [published] at fine
    exact fine.elim
  · rfl

theorem positionRead_of_early {log : Log} (early : ∀ event ∈ log, Early event.op) :
    positionRead log = none := by
  refine List.findSome?_eq_none_iff.mpr fun event member => ?_
  have fine := early event member
  split
  · exact fine.elim
  · rfl

theorem resolvedPosition_append (config : Config) (req : MLWebhookRequest) {front : Log}
    (early : ∀ event ∈ front, Early event.op) (back : Log) :
    resolvedPosition config req (front ++ back) = resolvedPosition config req back := by
  have same : positionRead (front ++ back) = positionRead back := by
    rw [positionRead, List.findSome?_append]
    exact (congrArg (Option.or · _) (positionRead_of_early early)).trans (Option.none_or ..)
  rw [resolvedPosition, same, resolvedPosition]

/-! ### The prediction -/

section Asking

variable {config : Config} {r : Request} {log : Log} {query : PredictRequest}

def Unasked : Op → Prop
  | .predict _ => False
  | _ => True

theorem unasked_of_early (op : Op) (early : Early op) : Unasked op := by
  cases op with
  | predict query => exact early
  | _ => trivial

def Located : Op → Prop
  | .queryPosition _ _ _ => True
  | _ => False

theorem located_resolveCurrentPosition (licenseID accountID symbol : Bytes) (caller : Option Bytes) :
    (resolveCurrentPosition config licenseID accountID symbol caller).Only Located := by
  unfold resolveCurrentPosition
  split
  · trivial
  · split
    · refine Only.bind (Only.perform trivial) fun size => ?_
      split <;> trivial
    · trivial

theorem unasked_publishDecision (wctx : WebhookCtx) (req : MLWebhookRequest) (record : LicenseRecord)
    (traceID : Bytes) (decision : Decision) :
    (publishDecision config r wctx req record traceID decision).Only Unasked := by
  unfold publishDecision
  split
  · exact (early_finishML ..).mono unasked_of_early
  · refine Only.bind (Only.perform trivial) fun received => ?_
    split
    · exact (early_failML ..).mono unasked_of_early
    · refine Only.bind (Only.perform trivial) fun error => ?_
      split
      · exact (early_failML ..).mono unasked_of_early
      · exact (early_finishML ..).mono unasked_of_early

/-- **The position is resolved** as the log of the query shows it. -/
theorem resolved_of_path {req : MLWebhookRequest} {licenseID accountID symbol : Bytes}
    {resolved : Bytes × Bytes}
    (path : (resolveCurrentPosition config licenseID accountID symbol req.currentPosition).Path log
      (.done resolved)) :
    resolved.1 = resolvedPosition config req log ∧ publications log = [] := by
  let Resolved (result : Except WebhookCtx (Bytes × Bytes)) (log : Log) : Prop :=
    ∀ resolved, result = .ok resolved →
      resolved.1 = resolvedPosition config req log ∧ publications log = []
  have spec : (resolveCurrentPosition config licenseID accountID symbol req.currentPosition).Spec
      (fun _ _ => True) Resolved [] := by
    unfold resolveCurrentPosition
    split
    · rename_i given caller
      rintro resolved ⟨⟩
      exact ⟨by simp [resolvedPosition, caller], rfl⟩
    · rename_i caller
      split
      · rename_i hasDB
        refine ⟨trivial, fun size => ?_⟩
        cases size with
        | error error =>
          rintro resolved ⟨⟩
          exact ⟨by simp [resolvedPosition, caller, positionRead], rfl⟩
        | ok size =>
          rintro resolved ⟨⟩
          exact ⟨by simp [resolvedPosition, caller, positionRead, hasDB], rfl⟩
      · rename_i noDB
        rintro resolved ⟨⟩
        exact ⟨by simp [resolvedPosition, caller, noDB], rfl⟩
  exact (spec.of_path path) resolved rfl

/-- The action is one of the two, and the license and the symbol are given. -/
structure Proper (req : MLWebhookRequest) : Prop where
  action : actionOf req = lit "buy" ∨ actionOf req = lit "sell"
  license : req.licenseID ≠ []
  symbol : req.symbol ≠ []

theorem passed_of_path {condition : Bool} {wctx : WebhookCtx} {status : Nat} {code : String}
    {fields : List (Bytes × Bytes)} {header : Header}
    (path : (refuseIf condition (reject wctx status code fields header)).Path log (.done ())) :
    condition = false := by
  have spec : (refuseIf condition (reject wctx status code fields header)).Spec (fun _ _ => True)
      (fun result _ => result = .ok () → condition = false) [] := by
    unfold refuseIf
    split
    · exact ⟨trivial, fun _ passed => nomatch passed⟩
    · rename_i passes
      exact fun _ => eq_false_of_ne_true passes
  exact spec.of_path path rfl

theorem licensed_of_path {wctx : WebhookCtx} {licenseID secretValue : Bytes} {record : LicenseRecord}
    (path : (authenticate config r wctx licenseID secretValue).Path log (.done record)) :
    Licensed config r licenseID secretValue record log := by
  have gate : Gate config (.webhook r) wctx.requestID (authenticate config r wctx licenseID secretValue)
      fun record log => Licensed config r licenseID secretValue record log :=
    gate_authenticate r wctx licenseID secretValue
  exact ((gate [] fresh_nil).of_path path).2.2

section Scoring

variable {op : Op} {wctx : WebhookCtx} {req : MLWebhookRequest}

theorem scored_of_relayML {inner : Answer op → Handling WebhookCtx}
    (path : (relayML config r wctx req).Path log (.call op inner)) (other : ¬Gating op) :
    Proper req ∧ ∃ wctx record front back, Licensed config r req.licenseID req.secret record front ∧
      (∀ event ∈ front, Gating event.op) ∧ log = front ++ back ∧
      (scoreML config r wctx req record (actionOf req)).Path back (.call op inner) := by
  unfold relayML at path
  obtain ⟨_, l₁, rest, acting, rfl, checking⟩ :=
    path.past (gating_rejectIf ..) other
  obtain ⟨_, l₂, rest, naming, rfl, finding⟩ :=
    checking.past (gating_rejectIf ..) other
  obtain ⟨record, l₃, rest, known, rfl, scoring⟩ := finding.past (gating_authenticate ..) other
  have action := passed_of_path acting
  have given := passed_of_path naming
  rw [Bool.and_eq_false_iff, decide_eq_false_iff_not, decide_eq_false_iff_not, not_not, not_not]
    at action
  rw [Bool.or_eq_false_iff, decide_eq_false_iff_not, decide_eq_false_iff_not] at given
  refine ⟨⟨action, given.1, given.2⟩, _, record, l₁ ++ (l₂ ++ l₃), rest, ?_, ?_, ?_,
    scoring⟩
  · refine (licensed_of_path known).mono fun event member => ?_
    exact List.mem_append_right _ (List.mem_append_right _ member)
  · simp only [List.forall_mem_append]
    exact ⟨(Only.of_path (gating_rejectIf ..) acting).2, (Only.of_path (gating_rejectIf ..) naming).2,
      (Only.of_path (gating_authenticate ..) known).2⟩
  · rw [List.append_assoc, List.append_assoc]

/-- **A call that is not made by the gates** is made where the request is scored. -/
theorem scored_of_path {next : Answer op → Program Op Answer Empty Unit}
    (path : (webhookML config r).Path log (.call op next)) (other : ¬Gating op) :
    ∃ req wctx record start front back inner, config.decodeML r.body = .ok req ∧ Proper req ∧
      Licensed config r req.licenseID req.secret record front ∧
      (∀ event ∈ front, Gating event.op) ∧ log = front ++ back ∧
      (scoreML config r wctx req record (actionOf req)).Path back (.call op inner) ∧
      next = fun answer => finish config r start (inner answer) := by
  obtain ⟨wctx, start, l₁, rest, inner, around, rfl, running, rfl⟩ :=
    body_of_handled path other
  unfold webhookMLBody at running
  obtain ⟨wctx, l₂, rest, gates, rfl, decoding⟩ :=
    running.past (gating_gatingPreamble ..) other
  split at decoding
  · exact absurd (Only.of_path (gating_rejected ..) decoding).1.1 other
  · rename_i req decodes
    obtain ⟨proper, wctx, record, l₃, back, known, gating, rfl, scoring⟩ :=
      scored_of_relayML decoding other
    refine ⟨req, wctx, record, start, l₁ ++ (l₂ ++ l₃), back, inner, decodes, proper, ?_, ?_, ?_,
      scoring, rfl⟩
    · refine known.mono fun event member => ?_
      exact List.mem_append_right _ (List.mem_append_right _ member)
    · simp only [List.forall_mem_append]
      exact ⟨around, (Only.of_path (gating_gatingPreamble ..) gates).2, gating⟩
    · rw [List.append_assoc, List.append_assoc]

/-- Where the request is scored, nothing is published in front of the prediction, and the rest depends
on the decision. -/
theorem decision_of_scoreML {record : LicenseRecord}
    {inner : Except Bytes PredictResponse → Handling WebhookCtx}
    (path : (scoreML config r wctx req record (actionOf req)).Path log (.call (.predict query) inner)) :
    publications log = [] ∧ query = queryFor req (resolvedPosition config req log) ∧
      ∃ wctx traceID row, inner = fun outcome =>
        publishDecision config r wctx req record traceID
          (decideML config (actionOf req) (resolvedPosition config req log) row outcome) := by
  have notEarly : ¬Early (.predict query) := id
  have notUnasked : ¬Unasked (.predict query) := id
  unfold scoreML at path
  obtain ⟨traceID, front, rest, tracing, rfl, locating⟩ :=
    path.past (early_assignTraceID r) notEarly
  have early := (Only.of_path (early_assignTraceID r) tracing).2
  obtain ⟨⟨position, source⟩, located, rest, locates, rfl, predicting⟩ :=
    locating.past (located_resolveCurrentPosition ..) id
  obtain ⟨resolved, unpublished⟩ := resolved_of_path locates
  rcases Path.of_call predicting with ⟨rfl, same⟩ | ⟨outcome, later, -, publishing⟩
  · cases same
    rw [List.append_nil, publications_append, publications_of_early early, unpublished,
      resolvedPosition_append config req early, ← resolved]
    exact ⟨rfl, rfl, _, traceID, _, rfl⟩
  · exact absurd ((unasked_publishDecision ..).of_path publishing).1.1 notUnasked

end Scoring

/-- **Where the predictor is asked**: nothing is published before, and the rest of the request depends
on the decision. -/
theorem decision_of_asks {next : Except Bytes PredictResponse → Program Op Answer Empty Unit}
    (asks : Asks config r log query next) :
    ∃ req, config.decodeML r.body = .ok req ∧ Proper req ∧ publications log = [] ∧
      query = queryFor req (resolvedPosition config req log) ∧
      ∃ start wctx record traceID row, next = fun outcome =>
        finish config r start (publishDecision config r wctx req record traceID
          (decideML config (actionOf req) (resolvedPosition config req log) row outcome)) := by
  obtain ⟨req, wctx, record, start, front, back, inner, decodes, proper, -, gating, rfl, scoring, rfl⟩ :=
    scored_of_path asks id
  have early (event : Event Op Answer) (member : event ∈ front) : Early event.op :=
    early_of_gating _ (gating event member)
  obtain ⟨unpublished, asked, wctx, traceID, row, rfl⟩ := decision_of_scoreML scoring
  refine ⟨req, decodes, proper, ?_, ?_⟩
  · rw [publications_append, publications_of_early early, unpublished]
    rfl
  · rw [resolvedPosition_append config req early]
    exact ⟨asked, start, wctx, record, traceID, row, rfl⟩

/-! ### Behind the prediction -/

section Publishing

variable {wctx : WebhookCtx} {req : MLWebhookRequest} {record : LicenseRecord} {traceID : Bytes}
  {decision : Decision}

/-- The message of a command at a time of the clock, if it can be encoded. -/
def messageFor (config : Config) (r : Request) (req : MLWebhookRequest) (record : LicenseRecord)
    (traceID : Bytes) (command : Parser.Command) (received : Time) : Option Message :=
  (signalProto (buildMLSignal config.formatFloat req command) record config.region traceID r.body
    received).marshal.map fun payload =>
      ⟨signalSubject req.licenseID record.instanceID record.platform, payload⟩

/-- **What is published for a decision**: nothing without a command, and otherwise the message at the
first reading of the clock, unless it cannot be encoded. -/
def Publishes (config : Config) (r : Request) (req : MLWebhookRequest) (record : LicenseRecord)
    (traceID : Bytes) (decision : Decision) (log : Log) : Prop :=
  match decision.command with
  | none => publications log = []
  | some command => ∃ received, (clockReadings log).head? = some received ∧
      match messageFor config r req record traceID command received with
      | none => ⟨.respond encodeFailed, ()⟩ ∈ log
      | some message => publications log = [message]

theorem Publishes.append {front back : Log}
    (publishes : Publishes config r req record traceID decision front)
    (early : ∀ event ∈ back, Early event.op) :
    Publishes config r req record traceID decision (front ++ back) := by
  have same : publications (front ++ back) = publications front := by
    rw [publications_append, publications_of_early early, List.append_nil]
  unfold Publishes at publishes ⊢
  split
  · rename_i none
    rw [none] at publishes
    exact same.trans publishes
  · rename_i command some
    rw [some] at publishes
    obtain ⟨received, first, published⟩ := publishes
    refine ⟨received, ?_, ?_⟩
    · rw [clockReadings_append, List.head?_append, first]
      rfl
    · split
      · rename_i none
        rw [none] at published
        exact List.mem_append_left _ published
      · rename_i message some
        rw [some] at published
        exact same.trans published

theorem Publishes.spec {Error Value : Type} {program : Program Op Answer Error Value} {log : Log}
    (publishes : Publishes config r req record traceID decision log) (early : program.Only Early) :
    program.Spec (fun _ _ => True)
      (fun _ log => Publishes config r req record traceID decision log) log := by
  induction program generalizing log with
  | done _ => exact publishes
  | fail _ => exact publishes
  | call op next ih =>
    refine ⟨trivial, fun answer => ih answer (publishes.append ?_) (early.2 answer)⟩
    intro event member
    rw [List.mem_singleton.mp member]
    exact early.1

theorem spec_publishes :
    (publishDecision config r wctx req record traceID decision).Spec (fun _ _ => True)
      (fun _ log => Publishes config r req record traceID decision log) [] := by
  unfold publishDecision
  split
  · rename_i nothing
    refine Publishes.spec ?_ (early_finishML ..)
    rw [Publishes, nothing]
    rfl
  · rename_i command given
    refine ⟨trivial, fun received => ?_⟩
    dsimp only [Program.bind]
    split
    · rename_i unencoded
      have message : messageFor config r req record traceID command received = none := by
        rw [messageFor, unencoded]
        rfl
      have early := early_failML config wctx 500 "encode_failed"
        { decision.row with publishedCommand := some command.string }
      refine ⟨trivial, fun answer => Publishes.spec ?_ (early.2 answer)⟩
      rw [Publishes, given]
      refine ⟨received, rfl, ?_⟩
      rw [message]
      exact List.mem_cons_of_mem _ (List.mem_singleton_self _)
    · rename_i payload encoded
      have message : messageFor config r req record traceID command received =
          some ⟨signalSubject req.licenseID record.instanceID record.platform, payload⟩ := by
        rw [messageFor, encoded]
        rfl
      refine ⟨trivial, fun error => ?_⟩
      have published : Publishes config r req record traceID decision
          [⟨.now, received⟩, ⟨.publish (signalSubject req.licenseID record.instanceID record.platform)
            payload, error⟩] := by
        rw [Publishes, given]
        refine ⟨received, rfl, ?_⟩
        rw [message]
        rfl
      cases error with
      | some _ => exact published.spec (early_failML ..)
      | none => exact published.spec (early_finishML ..)

/-- **What a request that is scored publishes.** -/
theorem publishes_of_path {start : Time} {later : Log}
    (path : (finish config r start (publishDecision config r wctx req record traceID decision)).Path
      later (.done ())) : Publishes config r req record traceID decision later := by
  have spec : (finish config r start (publishDecision config r wctx req record traceID decision)).Spec
      (fun _ _ => True) (fun _ log => Publishes config r req record traceID decision log) [] := by
    have attempted : ((publishDecision config r wctx req record traceID decision).attempt :
        Program Op Answer Empty (Except WebhookCtx WebhookCtx)).Spec (fun _ _ => True)
        (fun _ log => Publishes config r req record traceID decision log) [] :=
      Spec.attempt spec_publishes
    refine attempted.bind ?_ fun error => error.elim
    exact fun ended log publishes => publishes.spec ((gating_recordRequestEvent ..).mono early_of_gating)
  exact spec.of_path path

theorem published_of_command {later : Log} {command : Parser.Command}
    (publishes : Publishes config r req record traceID decision later)
    (given : decision.command = some command)
    (encoded : (⟨.respond encodeFailed, ()⟩ : Event Op Answer) ∉ later) :
    ∃ received message, (clockReadings later).head? = some received ∧
      messageFor config r req record traceID command received = some message ∧
      publications later = [message] := by
  rw [Publishes, given] at publishes
  obtain ⟨received, first, published⟩ := publishes
  split at published
  · exact absurd published encoded
  · rename_i message encodes
    exact ⟨received, message, first, encodes, published⟩

theorem command_of_messageFor (codec : Proto.Codec) {command : Parser.Command} {received : Time}
    {message : Message}
    (encodes : messageFor config r req record traceID command received = some message) :
    (codec.unmarshal message.data).map (fun signal => signal.command) = some command.string := by
  obtain ⟨payload, marshalled, rfl⟩ := Option.map_eq_some_iff.mp encodes
  have kept := (Parser.foldl_addParam_leading (mlParams config.formatFloat req)
    { licenseID := req.licenseID, command, rawCommand := command.string, symbol := req.symbol }).2.1
  rw [codec.unmarshal_of_marshal marshalled, Option.map_some, signalProto, buildMLSignal, kept]

/-- **The commands that are published** are those of the decision. -/
theorem commandsPublished_of_publishes {later : Log}
    (publishes : Publishes config r req record traceID decision later)
    (encoded : (⟨.respond encodeFailed, ()⟩ : Event Op Answer) ∉ later) :
    commandsPublished later = decision.command.toList.map fun command => some command.string := by
  cases given : decision.command with
  | none =>
    rw [Publishes, given] at publishes
    rw [commandsPublished, publishes]
    rfl
  | some command =>
    obtain ⟨received, message, -, encodes, published⟩ :=
      published_of_command publishes given encoded
    rw [commandsPublished, published, List.map_singleton, command_of_messageFor _ encodes]
    rfl

end Publishing

theorem string_mapActionToCommand {action : Bytes} (known : action = lit "buy" ∨ action = lit "sell") :
    (mapActionToCommand action).string = action := by
  rcases known with rfl | rfl <;> decide

theorem decideML_command (action position : Bytes) (row : MLDecisionRow)
    (outcome : Except Bytes PredictResponse) :
    (decideML config action position row outcome).command =
      match predictionError outcome with
      | .error _ => some (mapActionToCommand action)
      | .ok response =>
        if config.mlEnforce then mapDecisionToCommand response.actionSummary position
        else some (mapActionToCommand action) := by
  unfold decideML
  cases predictionError outcome <;> rfl

/-- **Every request that asks the predictor is judged by the answer.** -/
theorem judged_of_asks {next : Except Bytes PredictResponse → Program Op Answer Empty Unit}
    (asks : Asks config r log query next) :
    ∃ req, config.decodeML r.body = .ok req ∧ Judged config req log next := by
  obtain ⟨req, decodes, proper, unpublished, -, start, wctx, record, traceID, row, rfl⟩ :=
    decision_of_asks asks
  refine ⟨req, decodes, unpublished, ?_, ?_, ?_⟩
  · intro shadow left right leftLog rightLog leftEnds rightEnds sameClock
    have command (outcome : Except Bytes PredictResponse) :
        (decideML config (actionOf req) (resolvedPosition config req log) row outcome).command =
          some (mapActionToCommand (actionOf req)) := by
      rw [decideML_command, shadow]
      split <;> rfl
    obtain ⟨received, message, leftFirst, leftEncodes, leftPublished⟩ :=
      published_of_command (publishes_of_path leftEnds.1) (command left) leftEnds.2
    obtain ⟨_, other, rightFirst, rightEncodes, rightPublished⟩ :=
      published_of_command (publishes_of_path rightEnds.1) (command right) rightEnds.2
    -- both messages are encoded with the same reading of the clock
    rw [sameClock, rightFirst] at leftFirst
    cases leftFirst
    cases leftEncodes.symm.trans rightEncodes
    rw [leftPublished, rightPublished]
    exact ⟨rfl, rfl⟩
  · intro outcome text later failed ends
    rw [commandsPublished_of_publishes (publishes_of_path ends.1) ends.2, decideML_command, failed]
    exact congrArg (fun action => [some action]) (string_mapActionToCommand proper.action)
  · intro enforced outcome response later scored ends
    rw [commandsPublished_of_publishes (publishes_of_path ends.1) ends.2, decideML_command, scored,
      enforced]
    rfl

end Asking

/-! ### A request that asks -/

def tenth : Float64 := ⟨0x3FB999999999999A⟩

def buyRequest : MLWebhookRequest where
  licenseID := lit "60123456789"
  secret := []
  action := lit "buy"
  symbol := lit "EURUSD"
  volume := tenth
  sl := .zero
  tp := .zero
  comment := []
  currentPosition := none
  features := lit "\x7b\x7d"

/-- The service, with the decoder and the format at the values of the request. -/
def scoringConfig : Config :=
  { plainConfig with
    decodeML := fun _ => .ok buyRequest
    formatFloat := fun value => if value = tenth then lit "0.1" else lit "0" }

def isAt (isCall : Op → Bool) (thread : Machine.Thread Input Op Answer Empty) : Bool :=
  match thread with
  | ⟨.webhookML r, .call op _⟩ => decide (r = plainRequest) && isCall op
  | _ => false

theorem path_of_run {config : Config} {isCall : Op → Bool} {calls : Nat}
    (ran : (run (machine plainLimiter reliable config).step { world := oneLicense () }
      (.begin (.webhookML plainRequest) :: List.replicate calls (.advance 0 obliging))).any
      (fun state => (state.log 0).length = calls && state.threads[0]?.any (isAt isCall)) = true) :
    ∃ log op next, log.length = calls ∧ isCall op = true ∧
      (webhookML config plainRequest).Path log (.call op next) := by
  obtain ⟨state, same, facts⟩ := (Option.any_eq_true _ _).mp ran
  rw [Bool.and_eq_true, Option.any_eq_true] at facts
  obtain ⟨length, thread, found, isHere⟩ := facts
  have path := Machine.path_of_reaches (Reaches.of_run _ same) 0 _ found
  unfold isAt at isHere
  split at isHere
  · rename_i r op next
    rw [Bool.and_eq_true] at isHere
    cases of_decide_eq_true isHere.1
    exact ⟨_, op, next, of_decide_eq_true length, isHere.2, path⟩
  · cases isHere

def isPredict : Op → Bool
  | .predict _ => true
  | _ => false

/-- The request passes the gates in five calls and asks the predictor. -/
theorem judged_of_asks_buy :
    ∃ log query next, Asks scoringConfig plainRequest log query next ∧ log.length = 5 ∧
      ∃ req, scoringConfig.decodeML plainRequest.body = .ok req ∧ Judged scoringConfig req log next := by
  obtain ⟨log, op, next, length, asks, path⟩ : ∃ log op next, log.length = 5 ∧ isPredict op = true ∧
      (webhookML scoringConfig plainRequest).Path log (.call op next) :=
    path_of_run (by decide +kernel)
  cases op with
  | predict query => exact ⟨log, query, next, path, length, judged_of_asks path⟩
  | _ => cases asks

end ExecRelay.Ingress
