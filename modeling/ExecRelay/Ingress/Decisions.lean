/-
**The rows about decisions.**

The ML route writes the command of a decision into its row before it encodes and publishes the signal,
and it records the row on every way out: if nothing is published, if the signal cannot be encoded, if the
publisher fails, and if all went well. `Filed` are the four ways with the calls on them.
-/

import ExecRelay.Ingress.Published

namespace ExecRelay.Ingress

open Lib
open Lib.Program (Only Path)
open Nats (Message)

/-! ### Where rows are recorded -/

def publishFailed : Response :=
  ⟨503, [], .texts (errorFields "publish_failed")⟩

def Decision.rowWith (decision : Decision) (command : Parser.Command) : MLDecisionRow :=
  { decision.row with publishedCommand := some command.string }

/-- **The ways out**, with the row that is recorded and the calls behind the decision. -/
inductive Filed (config : Config) (r : Request) (req : MLWebhookRequest) (record : LicenseRecord)
    (traceID : Bytes) (decision : Decision) : MLDecisionRow → Log → Prop
  | skipped (nothing : decision.command = none) :
      Filed config r req record traceID decision decision.row []
  | unencoded {command : Parser.Command} {received : Time} (given : decision.command = some command)
      (fails : messageFor config r req record traceID command received = none) :
      Filed config r req record traceID decision (decision.rowWith command)
        [⟨.now, received⟩, ⟨.respond encodeFailed, ()⟩]
  | unpublished {command : Parser.Command} {received : Time} {message : Message} {error : Bytes}
      (given : decision.command = some command)
      (encodes : messageFor config r req record traceID command received = some message) :
      Filed config r req record traceID decision (decision.rowWith command)
        [⟨.now, received⟩, ⟨.publish message.subject message.data, some error⟩,
          ⟨.respond publishFailed, ()⟩]
  | published {command : Parser.Command} {received : Time} {message : Message}
      (given : decision.command = some command)
      (encodes : messageFor config r req record traceID command received = some message) :
      Filed config r req record traceID decision (decision.rowWith command)
        [⟨.now, received⟩, ⟨.publish message.subject message.data, none⟩]

section Filing

variable {config : Config} {r : Request} {wctx : WebhookCtx} {log : Log} {row : MLDecisionRow}
  {inner : Option Bytes → Handling WebhookCtx}

variable {other : MLDecisionRow}

theorem row_of_recordMLDecision {next : Unit → Handling WebhookCtx}
    (unrecorded : (next ()).Only Gating)
    (path : (recordMLDecision config other >>= next).Path log (.call (.insertDecision row) inner)) :
    row = other ∧ log = [] := by
  unfold recordMLDecision at path
  split at path
  · rcases Path.of_call path with ⟨none, same⟩ | ⟨answer, later, -, behind⟩
    · cases same
      exact ⟨rfl, none⟩
    · exact (Only.of_path unrecorded behind).1.1.elim
  · exact (Only.of_path unrecorded path).1.1.elim

variable {decision : Decision} {traceID : Bytes}

theorem row_of_finishML
    (path : (finishML config wctx decision other traceID).Path log (.call (.insertDecision row) inner)) :
    row = other ∧ log = [] := by
  have unrecorded : (invoke (.respond ⟨200, traceHeader traceID,
      .decision decision.status traceID decision.ml⟩) >>= fun _ =>
        (pure { wctx with reasonCode := decision.status, status := 200 } : Handling WebhookCtx)).Only
      Gating :=
    Only.bind (Only.perform trivial) fun _ => trivial
  exact row_of_recordMLDecision unrecorded path

theorem row_of_failML {status : Nat} {code : String}
    (path : (failML config wctx status code other).Path log (.call (.insertDecision row) inner)) :
    row = other ∧ log = [⟨.respond ⟨status, [], .texts (errorFields code)⟩, ()⟩] := by
  rcases Path.of_call path with ⟨-, same⟩ | ⟨answer, later, rfl, behind⟩
  · cases same
  · have unrecorded : (Program.fail { wctx with reasonCode := lit code, status := status } :
        Handling WebhookCtx).Only Gating := trivial
    obtain ⟨same, rfl⟩ := row_of_recordMLDecision unrecorded behind
    exact ⟨same, rfl⟩

/-- **What is recorded for a decision.** -/
theorem filed_of_publishDecision {req : MLWebhookRequest} {record : LicenseRecord}
    (path : (publishDecision config r wctx req record traceID decision).Path log
      (.call (.insertDecision row) inner)) :
    Filed config r req record traceID decision row log ∧ ∀ answer, (inner answer).Only Early := by
  unfold publishDecision at path
  split at path
  · rename_i nothing
    obtain ⟨rfl, rfl⟩ := row_of_finishML path
    exact ⟨.skipped nothing, (Only.of_path (early_finishML ..) path).1.2⟩
  · rename_i command given
    rw [Program.perform_bind] at path
    rcases Path.of_call path with ⟨-, same⟩ | ⟨received, later, rfl, encoding⟩
    · cases same
    split at encoding
    · rename_i fails
      obtain ⟨rfl, rfl⟩ := row_of_failML encoding
      refine ⟨.unencoded given ?_, (Only.of_path (early_failML ..) encoding).1.2⟩
      rw [messageFor, fails]
      rfl
    · rename_i payload encodes
      have message : messageFor config r req record traceID command received =
          some ⟨signalSubject req.licenseID record.instanceID record.platform, payload⟩ := by
        rw [messageFor, encodes]
        rfl
      rcases Path.of_call encoding with ⟨-, same⟩ | ⟨error, behind, rfl, answering⟩
      · cases same
      cases error with
      | some text =>
        obtain ⟨rfl, rfl⟩ := row_of_failML answering
        exact ⟨.unpublished given message,
          (Only.of_path (early_failML ..) answering).1.2⟩
      | none =>
        obtain ⟨rfl, rfl⟩ := row_of_finishML answering
        exact ⟨.published given message, (Only.of_path (early_finishML ..) answering).1.2⟩

theorem unpublished_of_gating {op : Op} (gating : Gating op) : isPublish op = false := by
  cases op with
  | publish _ _ => cases gating
  | _ => rfl

theorem unpublished_of_located {op : Op} (located : Located op) : isPublish op = false := by
  cases op with
  | publish _ _ => cases located
  | _ => rfl

/-- **What a request records**: the row of a decision about it, on one of the ways out. Nothing is published
in front of them, and nothing behind. -/
theorem filed_of_path {next : Option Bytes → Program Op Answer Empty Unit}
    (path : (webhookML config r).Path log (.call (.insertDecision row) next)) :
    ∃ req record traceID position base outcome front later, config.decodeML r.body = .ok req ∧
      Licensed config r req.licenseID req.secret record front ∧ TraceOf r front traceID ∧
      ⟨.predict (queryFor req position), outcome⟩ ∈ front ∧
      (∀ event ∈ front, isPublish event.op = false) ∧ base.publishedCommand = none ∧
      log = front ++ later ∧
      Filed config r req record traceID (decideML config (actionOf req) position base outcome) row later ∧
      ∀ answer, (next answer).Only Early := by
  obtain ⟨req, wctx, record, start, gates, back, inner, decodes, -, licensed, gating, rfl, scoring, rfl⟩ :=
    scored_of_path path id
  unfold scoreML at scoring
  obtain ⟨traceID, tracing, _, assigned, rfl, locating⟩ := scoring.past (gating_assignTraceID r) id
  obtain ⟨⟨position, source⟩, located, _, locates, rfl, predicting⟩ :=
    locating.past (located_resolveCurrentPosition ..) id
  rcases Path.of_call predicting with ⟨-, same⟩ | ⟨outcome, later, rfl, deciding⟩
  · cases same
  obtain ⟨filed, rest⟩ := filed_of_publishDecision deciding
  refine ⟨req, record, traceID, position, _, outcome,
    gates ++ (tracing ++ (located ++ [⟨.predict (queryFor req position), outcome⟩])), later, decodes, ?_,
    ?_, ?_, ?_, ?_, by simp [queryFor], filed, fun answer => ?_⟩
  · exact licensed.mono (List.subset_append_left ..)
  · refine (traceOf_of_path assigned).mono fun event member => ?_
    exact List.mem_append_right _ (List.mem_append_left _ member)
  · simp
  · simp only [List.forall_mem_append, List.forall_mem_singleton]
    refine ⟨fun event member => ?_, fun event member => ?_, fun event member => ?_, rfl⟩
    · exact unpublished_of_gating (gating event member)
    · exact unpublished_of_gating ((Only.of_path (gating_assignTraceID r) assigned).2 event member)
    · exact unpublished_of_located ((Only.of_path (located_resolveCurrentPosition ..) locates).2 event member)
  · rfl
  · exact Only.bind (Only.attempt (rest answer)) fun _ =>
      (gating_recordRequestEvent ..).mono early_of_gating

end Filing

/-! ### What a row says -/

/-- **The row says what was published**: it has a command exactly if `Publish` returned no error, and then
it is the command of the signal. -/
structure Faithful (codec : Proto.Codec) (row : MLDecisionRow) (log : Log) : Prop where
  whether : row.publishedCommand ≠ none ↔ Published log
  which : ∀ command subject payload, row.publishedCommand = some command →
    ⟨.publish subject payload, none⟩ ∈ log →
    (codec.unmarshal payload).map (fun signal => signal.command) = some command

/-- **Nothing keeps a command from being published**: the texts of its signal are UTF-8, and the publisher
returns no error. -/
structure Undisturbed (config : Config) (r : Request) (req : MLWebhookRequest) (record : LicenseRecord)
    (traceID : Bytes) (command : Parser.Command) (log : Log) : Prop where
  encodes : (signalProto (buildMLSignal config.formatFloat req command) record config.region traceID
    r.body 0).wellFormed = true
  taken : ∀ subject payload answer, ⟨.publish subject payload, answer⟩ ∈ log →
    answer = none

section Rows

variable {config : Config} {r : Request} {req : MLWebhookRequest} {record : LicenseRecord}
  {traceID : Bytes} {row : MLDecisionRow} {log : Log}

variable {command : Parser.Command}

theorem messageFor_eq_none_iff {received : Time} :
    messageFor config r req record traceID command received = none ↔
      (signalProto (buildMLSignal config.formatFloat req command) record config.region traceID r.body
        0).wellFormed = false := by
  rw [messageFor, Option.map_eq_none_iff, Proto.Signal.marshal]
  change (if (signalProto (buildMLSignal config.formatFloat req command) record config.region traceID
    r.body 0).wellFormed = true then _ else _) = none ↔ _
  cases (signalProto (buildMLSignal config.formatFloat req command) record config.region traceID r.body
    0).wellFormed <;> simp

/-- The four ways out. -/
theorem Filed.corresponds_iff (codec : Proto.Codec) {decision : Decision}
    (filed : Filed config r req record traceID decision row log)
    (unset : decision.row.publishedCommand = none) :
    Faithful codec row log ↔ ∀ command, decision.command = some command →
      Undisturbed config r req record traceID command log := by
  cases filed with
  | skipped nothing =>
    refine ⟨fun _ command given => ?_, fun _ => ⟨?_, ?_⟩⟩
    · rw [nothing] at given
      cases given
    · simp [unset, Published]
    · intro command subject payload _ member
      cases member
  | unencoded given fails =>
    refine ⟨fun faithful => ?_, fun undisturbed => ?_⟩
    · have published := faithful.whether.mp (by simp [Decision.rowWith])
      simp [Published] at published
    · have encodes := (undisturbed _ given).encodes
      rw [messageFor_eq_none_iff.mp fails] at encodes
      cases encodes
  | unpublished given encodes =>
    refine ⟨fun faithful => ?_, fun undisturbed => ?_⟩
    · have published := faithful.whether.mp (by simp [Decision.rowWith])
      simp [Published] at published
    · cases (undisturbed _ given).taken _ _ _ (List.mem_cons_of_mem _ List.mem_cons_self)
  | @published _ _ message given encodes =>
    refine ⟨fun _ command other => ⟨?_, ?_⟩, fun _ => ⟨?_, ?_⟩⟩
    · rw [← Option.some.inj (given.symm.trans other)]
      refine Bool.eq_true_of_not_eq_false fun fails => ?_
      rw [messageFor_eq_none_iff.mpr fails] at encodes
      cases encodes
    · simp
    · simp [Decision.rowWith, Published]
    · intro command subject payload named member
      have same : subject = message.subject ∧ payload = message.data := by simpa using member
      rw [same.2, ← named]
      exact command_of_messageFor codec encodes

variable {later : Log}

theorem faithful_congr (codec : Proto.Codec)
    (same : ∀ subject payload answer, ⟨.publish subject payload, answer⟩ ∈ log ↔
      ⟨.publish subject payload, answer⟩ ∈ later) :
    Faithful codec row log ↔ Faithful codec row later := by
  have published : Published log ↔ Published later := by simp only [Published, same]
  constructor
  · intro faithful
    exact ⟨faithful.whether.trans published, fun command subject payload named member =>
      faithful.which command subject payload named ((same ..).mpr member)⟩
  · intro faithful
    exact ⟨faithful.whether.trans published.symm, fun command subject payload named member =>
      faithful.which command subject payload named ((same ..).mp member)⟩

theorem undisturbed_congr
    (same : ∀ subject payload answer, ⟨.publish subject payload, answer⟩ ∈ log ↔
      ⟨.publish subject payload, answer⟩ ∈ later) :
    Undisturbed config r req record traceID command log ↔
      Undisturbed config r req record traceID command later := by
  constructor
  · exact fun undisturbed => ⟨undisturbed.encodes, fun subject payload answer member =>
      undisturbed.taken subject payload answer ((same ..).mpr member)⟩
  · exact fun undisturbed => ⟨undisturbed.encodes, fun subject payload answer member =>
      undisturbed.taken subject payload answer ((same ..).mp member)⟩

theorem decideML_publishedCommand (action position : Bytes) (base : MLDecisionRow)
    (outcome : Except Bytes PredictResponse) :
    (decideML config action position base outcome).row.publishedCommand = base.publishedCommand := by
  unfold decideML
  split <;> rfl

/-- **When the audit is right**: the row that a request has recorded says what was published exactly if the
decision has no command, or its signal is encoded and the publisher returns no error. The decision does
not depend on the row that it is given. -/
theorem faithful_iff (codec : Proto.Codec) {answer : Option Bytes}
    (path : (webhookML config r).Path log (.done ()))
    (recorded : ⟨.insertDecision row, answer⟩ ∈ log) :
    ∃ req record traceID position outcome, config.decodeML r.body = .ok req ∧
      ⟨.lookup req.licenseID, .ok record⟩ ∈ log ∧ TraceOf r log traceID ∧
      ⟨.predict (queryFor req position), outcome⟩ ∈ log ∧
      (Faithful codec row log ↔
        ∀ command, (decideML config (actionOf req) position row outcome).command = some command →
          Undisturbed config r req record traceID command log) := by
  obtain ⟨before, behind, rfl⟩ := List.append_of_mem recorded
  obtain ⟨next, filing, rest⟩ := path.at_event rfl
  obtain ⟨req, record, traceID, position, base, outcome, front, later, decodes, licensed, trace, predicted,
    unpublished, unset, rfl, filed, basic⟩ := filed_of_path filing
  have inside {event : Event Op Answer} (member : event ∈ front) :
      event ∈ front ++ later ++ ⟨.insertDecision row, answer⟩ :: behind :=
    List.mem_append_left _ (List.mem_append_left _ member)
  have same (subject payload : Bytes) (answered : Option Bytes) :
      ⟨.publish subject payload, answered⟩ ∈
          front ++ later ++ ⟨.insertDecision row, answer⟩ :: behind ↔
        ⟨.publish subject payload, answered⟩ ∈ later := by
    constructor
    · intro member
      rcases List.mem_append.mp member with earlier | late
      · rcases List.mem_append.mp earlier with inFront | inLater
        · cases unpublished _ inFront
        · exact inLater
      · rcases List.mem_cons.mp late with impossible | inBehind
        · cases impossible
        · cases (Only.of_path (basic answer) rest).2 _ inBehind
    · exact fun member => List.mem_append_left _ (List.mem_append_right _ member)
  refine ⟨req, record, traceID, position, outcome, decodes, inside licensed.found,
    trace.mono fun _ => inside, inside predicted, ?_⟩
  rw [faithful_congr codec same,
    filed.corresponds_iff codec ((decideML_publishedCommand ..).trans unset), decideML_command,
    decideML_command]
  simp only [undisturbed_congr same]

end Rows

/-! ### A publisher that fails -/

def auditing : Config :=
  { scoringConfig with hasDB := true }

def unreachable : (op : Op) → Answer op
  | .publish _ _ => some (lit "nats: timeout")
  | op => obliging op

def recordsBuy : Op → Bool
  | .insertDecision row => row.publishedCommand == some (lit "buy")
  | _ => false

theorem recorded_of_calls {config : Config} {r : Request} (answer : (op : Op) → Answer op)
    (called : ((webhookML config r).calls answer).any recordsBuy = true) :
    ∃ log row inserted, (webhookML config r).Path log (.done ()) ∧
      (∀ event ∈ log, event.answer = answer event.op) ∧
      ⟨.insertDecision row, inserted⟩ ∈ log ∧
      row.publishedCommand = some (lit "buy") := by
  have ends : (webhookML config r).outcome answer = .ok () := by
    cases (webhookML config r).outcome answer with
    | ok result => rfl
    | error error => exact error.elim
  obtain ⟨op, member, records⟩ := List.any_eq_true.mp called
  cases op with
  | insertDecision row =>
    refine ⟨_, row, answer (.insertDecision row), Path.of_outcome answer ends, ?_,
      List.mem_map_of_mem member, eq_of_beq records⟩
    intro event inside
    obtain ⟨op, -, rfl⟩ := List.mem_map.mp inside
    rfl
  | _ => cases records

/-- The row of a request that nothing disturbs. -/
theorem faithful_iff_buy :
    ∃ log row inserted, (webhookML auditing plainRequest).Path log (.done ()) ∧
      ⟨.insertDecision row, inserted⟩ ∈ log ∧
      Faithful Proto.Codec.standard row log := by
  obtain ⟨log, row, inserted, path, answers, member, -⟩ :=
    recorded_of_calls obliging (by decide +kernel : ((webhookML auditing plainRequest).calls
      obliging).any recordsBuy = true)
  obtain ⟨req, record, traceID, position, outcome, decodes, found, trace, -, right⟩ :=
    faithful_iff Proto.Codec.standard path member
  refine ⟨log, row, inserted, path, member, right.mpr fun command given => ⟨?_, ?_⟩⟩
  · cases decodes
    have looked : Except.ok record = lookupRecord [plainRecord] buyRequest.licenseID := answers _ found
    have known : record = plainRecord := Except.ok.inj (looked.trans rfl)
    have traced : traceID = obliging .newTraceID := by
      cases trace with
      | brought given same => exact absurd same.symm given
      | context _ given same => exact absurd same.symm given
      | made _ _ made => exact answers _ made
    have decided : command = .buy := by
      rw [decideML_command] at given
      split at given <;> exact (Option.some.inj given).symm
    rw [known, traced, decided]
    decide +kernel
  · intro subject payload answer published
    exact answers _ published

/-- **A row of what was not published**: the publisher is down, the request is refused, and the row says
that a buy was published. -/
theorem filed_unpublished :
    ∃ log row inserted, (webhookML auditing plainRequest).Path log (.done ()) ∧
      ⟨.insertDecision row, inserted⟩ ∈ log ∧
      row.publishedCommand = some (lit "buy") ∧ ¬Published log := by
  obtain ⟨log, row, inserted, path, answers, member, named⟩ :=
    recorded_of_calls unreachable (by decide +kernel : ((webhookML auditing plainRequest).calls
      unreachable).any recordsBuy = true)
  refine ⟨log, row, inserted, path, member, named, ?_⟩
  rintro ⟨subject, payload, published⟩
  cases answers _ published

end ExecRelay.Ingress
