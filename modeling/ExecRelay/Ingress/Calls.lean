/-
**The calls of the handlers.**

The gates, and what is around the body of a handler, read clocks and ids, ask for the license, count and
query, answer and publish events; they ask no predictor, publish no signal and insert no row (`Gating`).
The lemmas of the form `gating_…` say so of each part, and `body_of_handled` that every other call is made
by the body of a handler. What stands in front of a prediction, and behind a publication, may insert rows
as well (`Early`).
-/

import ExecRelay.Ingress.Gates

namespace ExecRelay.Ingress

open Lib
open Lib.Program (Only Path)

/-! ### The calls of the gates -/

section Gating

variable (config : Config) (r : Request) (wctx : WebhookCtx)

/-- **The calls of the gates** and of what is around the body. -/
def Gating : Op → Prop
  | .now | .newID | .newTraceID | .loadHalted | .allow _ | .lookup _ | .increment _ _ => True
  | .queryNotional _ _ | .queryLimit _ _ | .publishEvent _ _ | .respond _ => True
  | _ => False

theorem gating_reject (status : Nat) (code : String) (fields : List (Bytes × Bytes)) (header : Header) :
    (reject wctx status code fields header).Only Gating :=
  Only.bind (Only.perform trivial) fun _ => trivial

theorem gating_rejected (status : Nat) (code : String) (fields : List (Bytes × Bytes))
    (header : Header) :
    (reject wctx status code fields header >>= fun _ => pure wctx : Handling WebhookCtx).Only Gating :=
  Only.bind (gating_reject ..) fun _ => trivial

theorem gating_refuseIf (condition : Bool) {refusal : Handling Unit} (gating : refusal.Only Gating) :
    (refuseIf condition refusal).Only Gating := by
  unfold refuseIf
  split
  · exact gating
  · trivial

theorem gating_rejectIf (condition : Bool) (status : Nat) (code : String)
    (fields : List (Bytes × Bytes)) (header : Header) :
    (refuseIf condition (reject wctx status code fields header)).Only Gating :=
  gating_refuseIf _ (gating_reject ..)

theorem gating_publishRejection (licenseID : Bytes) (reason : String) (body : Bytes) :
    (publishRejection config licenseID reason body).Only Gating := by
  unfold publishRejection
  split
  · exact Only.bind (Only.perform trivial) fun _ => trivial
  · trivial

theorem gating_rejectPublished (licenseID : Bytes) (code : String) :
    (rejectPublished config r wctx licenseID code).Only Gating :=
  Only.bind (gating_publishRejection ..) fun _ => gating_reject ..

theorem gating_limitRate (clientAddr : Bytes) : (limitRate config wctx clientAddr).Only Gating := by
  unfold limitRate
  split
  · exact Only.bind (Only.perform trivial) fun _ => gating_rejectIf ..
  · trivial

theorem gating_gateTimestamp : (gateTimestamp config r wctx).Only Gating := by
  unfold gateTimestamp
  split
  · refine Only.bind (Only.perform trivial) fun now => ?_
    split
    · trivial
    · exact gating_reject ..
  · trivial

theorem gating_gatingPreamble (clientAddr : Bytes) :
    (gatingPreamble config r wctx clientAddr).Only Gating := by
  unfold gatingPreamble
  refine Only.bind (gating_rejectIf ..) fun _ => Only.bind (gating_rejectIf ..) fun _ => ?_
  refine Only.bind (gating_rejectIf ..) fun _ => Only.bind (Only.perform trivial) fun halted => ?_
  refine Only.bind (gating_rejectIf ..) fun _ => Only.bind (gating_limitRate ..) fun _ => ?_
  exact Only.bind (gating_rejectIf ..) fun _ => Only.bind (gating_gateTimestamp ..) fun _ => trivial

theorem gating_findLicense (licenseID : Bytes) : (findLicense config r wctx licenseID).Only Gating := by
  unfold findLicense
  refine Only.bind (Only.perform trivial) fun found => ?_
  split
  · trivial
  · exact Only.bind (gating_publishRejection ..) fun _ => Only.bind (Only.perform trivial) fun _ => trivial

theorem gating_limitQuota (licenseID : Bytes) (record : LicenseRecord) :
    (limitQuota wctx licenseID record).Only Gating := by
  unfold limitQuota
  split
  · exact Only.bind (Only.perform trivial) fun now => Only.bind (Only.perform trivial) fun count =>
      gating_rejectIf ..
  · trivial

theorem gating_limitExposure (licenseID : Bytes) (record : LicenseRecord) :
    (limitExposure config r wctx licenseID record).Only Gating := by
  unfold limitExposure
  split
  · refine Only.bind ?_ fun exposure => gating_refuseIf _ ?_
    · unfold checkExposureLimits
      refine Only.bind (Only.perform trivial) fun notional => ?_
      split
      · trivial
      · exact Only.bind (Only.perform trivial) fun _ => trivial
    · exact Only.bind (gating_publishRejection ..) fun _ => gating_reject ..
  · trivial

theorem gating_authenticate (licenseID secretValue : Bytes) :
    (authenticate config r wctx licenseID secretValue).Only Gating := by
  unfold authenticate
  refine Only.bind (gating_findLicense ..) fun record => Only.bind (gating_rejectIf ..) fun _ => ?_
  refine Only.bind (gating_refuseIf _ (gating_rejectPublished ..)) fun _ => ?_
  refine Only.bind (gating_refuseIf _ (gating_rejectPublished ..)) fun _ => ?_
  refine Only.bind (gating_limitQuota ..) fun _ => ?_
  exact Only.bind (gating_limitExposure ..) fun _ => trivial

theorem gating_assignTraceID : (assignTraceID r).Only Gating := by
  unfold assignTraceID
  dsimp only
  split
  · trivial
  · split
    · trivial
    · exact Only.perform trivial

theorem gating_recordRequestEvent (clientAddr : Bytes) (start : Time) :
    (recordRequestEvent config r wctx clientAddr start).Only Gating := by
  unfold recordRequestEvent
  split
  · exact Only.bind (Only.perform trivial) fun _ => Only.bind (Only.perform trivial) fun _ => trivial
  · trivial

end Gating

/-! ### The calls in front of a prediction -/

/-- The calls that neither read a position, ask the predictor nor publish a signal. -/
def Early : Op → Prop
  | .predict _ => False
  | .publish _ _ => False
  | .queryPosition _ _ _ => False
  | _ => True

section Early

variable (config : Config) (r : Request) (wctx : WebhookCtx)

theorem early_of_gating (op : Op) (gating : Gating op) : Early op := by
  cases op with
  | predict _ | publish _ _ | queryPosition _ _ _ => exact gating
  | _ => trivial

theorem early_assignTraceID : (assignTraceID r).Only Early :=
  (gating_assignTraceID r).mono early_of_gating

theorem early_recordMLDecision (row : MLDecisionRow) : (recordMLDecision config row).Only Early := by
  unfold recordMLDecision
  split
  · exact ⟨trivial, fun _ => trivial⟩
  · trivial

theorem early_finishML (decision : Decision) (row : MLDecisionRow) (traceID : Bytes) :
    (finishML config wctx decision row traceID).Only Early :=
  Only.bind (early_recordMLDecision ..) fun _ => ⟨trivial, fun _ => trivial⟩

theorem early_failML (status : Nat) (code : String) (row : MLDecisionRow) :
    (failML config wctx status code row).Only Early :=
  Only.bind (Only.perform trivial) fun _ => Only.bind (early_recordMLDecision ..) fun _ => trivial

theorem early_killSwitch : (killSwitch config r).Only Early := by
  have answers (status : Nat) (fields : List (Bytes × Bytes)) (header : Header) :
      (answerTexts status fields header).Only Early := Only.perform trivial
  unfold killSwitch
  split
  · exact answers ..
  · split
    · exact answers ..
    · split
      · exact Only.bind (Only.perform trivial) fun _ => Only.perform trivial
      · split
        · split
          · exact answers ..
          · refine Only.bind (Only.perform trivial) fun previous => ?_
            split
            · refine Only.bind ?_ fun _ => Only.perform trivial
              unfold recordKillSwitchEvent
              split
              · exact Only.bind (Only.perform trivial) fun _ => trivial
              · trivial
            · exact Only.perform trivial
        · exact answers ..

end Early

/-! ### Around the body -/

section Handled

variable {config : Config} {r : Request} {log : Log}

/-- What is left of a request when the body of its handler is left with `rest`. -/
def finish (config : Config) (r : Request) (start : Time) (rest : Handling WebhookCtx) :
    Program Op Answer Empty Unit := do
  let ended ← rest.attempt
  let wctx := match ended with
    | .ok wctx => wctx
    | .error wctx => wctx
  recordRequestEvent config r wctx (clientIP r) start

theorem body_of_handled {body : WebhookCtx → Bytes → Handling WebhookCtx} {op : Op}
    {next : Answer op → Program Op Answer Empty Unit}
    (path : (handled config r body).Path log (.call op next)) (other : ¬Gating op) :
    ∃ wctx start front back inner, (∀ event ∈ front, Gating event.op) ∧ log = front ++ back ∧
      (body wctx (clientIP r)).Path back (.call op inner) ∧
      next = fun answer => finish config r start (inner answer) := by
  have started {log : Log} {requestID : Bytes}
      (path : (invoke .now >>= fun start =>
        finish config r start (body { requestID := requestID } (clientIP r))).Path log
          (.call op next)) :
      ∃ wctx start front back inner, (∀ event ∈ front, Gating event.op) ∧ log = front ++ back ∧
        (body wctx (clientIP r)).Path back (.call op inner) ∧
        next = fun answer => finish config r start (inner answer) := by
    obtain ⟨start, front, back, reading, parts, running⟩ := path.past (Only.perform trivial) other
    unfold finish at running
    obtain ⟨attempted, inside, rfl⟩ := running.within (fun _ => gating_recordRequestEvent ..) other
    obtain ⟨left, inBody, same⟩ := inside.of_attempt
    cases left with
    | done _ => cases same
    | fail _ => cases same
    | call other inner =>
      cases same
      exact ⟨_, start, front, back, inner, (Only.of_path (Only.perform trivial) reading).2, parts,
        inBody, rfl⟩
  unfold handled at path
  split at path
  · obtain ⟨requestID, front, rest, id, parts, running⟩ := path.past (Only.perform trivial) other
    obtain ⟨wctx, start, middle, back, inner, fine, rfl, inBody, same⟩ := started running
    refine ⟨wctx, start, front ++ middle, back, inner, ?_, by rw [parts, List.append_assoc], inBody,
      same⟩
    intro event member
    rcases List.mem_append.mp member with earlier | later
    · exact (Only.of_path (Only.perform trivial) id).2 event earlier
    · exact fine event later
  · exact started path

end Handled

end ExecRelay.Ingress
