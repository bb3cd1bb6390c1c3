/-
**What a request publishes.**

Both routes end in the same way: the alert that was parsed, or that was built from a JSON body, becomes
the message of a license record under a trace id. `relayed_of_path` says of every publication which
alert, record and trace id it comes from, so that a result about published messages does not go through
the handlers again.
-/

import ExecRelay.Ingress.FlatForm

namespace ExecRelay.Ingress

open Lib
open Lib.Program (Only Path Spec)
open ExecRelay.Parser (foldl_addParam_leading)

/-! ### New trace ids -/

/-- The hexadecimal digits of a number, in at most `fuel + 1` of them. -/
def hexDigits : Nat → Nat → Bytes
  | 0, number => [hexDigit (UInt8.ofNat (number % 16))]
  | fuel + 1, number =>
    if number < 16 then [hexDigit (UInt8.ofNat (number % 16))]
    else hexDigits fuel (number / 16) ++ [hexDigit (UInt8.ofNat (number % 16))]

/-- `strconv.FormatInt(value, 16)`. -/
def formatHex (value : Int) : Bytes :=
  (if value < 0 then [45] else []) ++ hexDigits value.natAbs value.natAbs

/-- The id of sixteen random bytes, or of the time if there are none. -/
def newTraceID (random : Option Bytes) (now : Time) : Bytes :=
  match random with
  | some bytes => hexEncode bytes
  | none => formatHex now

example : formatHex 1700000000000000000 = lit "17979cfe362a0000" := by decide +kernel

/-- What a call of `newTraceID` can return. -/
def IsNewTraceID (id : Bytes) : Prop :=
  ∃ random now, (∀ bytes, random = some bytes → bytes.length = 16) ∧ id = newTraceID random now

theorem isSubjectByte_hexDigit (byte : UInt8) : byte < 16 → isSubjectByte (hexDigit byte) = true :=
  forall_byte byte (by decide +kernel)

theorem isSubjectByte_hexDigits (fuel number : Nat) :
    ∀ byte ∈ hexDigits fuel number, isSubjectByte byte = true := by
  have low (number : Nat) : isSubjectByte (hexDigit (UInt8.ofNat (number % 16))) = true := by
    apply isSubjectByte_hexDigit
    rw [UInt8.lt_iff_toNat_lt, UInt8.toNat_ofNat']
    show number % 16 % 256 < 16
    omega
  induction fuel generalizing number with
  | zero =>
    intro byte member
    rw [List.mem_singleton.mp member]
    exact low number
  | succ fuel ih =>
    intro byte member
    rw [hexDigits] at member
    split at member
    · rw [List.mem_singleton.mp member]
      exact low number
    · rcases List.mem_append.mp member with member | member
      · exact ih _ byte member
      · rw [List.mem_singleton.mp member]
        exact low number

theorem hexDigits_ne_nil (fuel number : Nat) : hexDigits fuel number ≠ [] := by
  cases fuel with
  | zero => exact List.cons_ne_nil _ _
  | succ fuel =>
    rw [hexDigits]
    split
    · exact List.cons_ne_nil _ _
    · exact List.append_ne_nil_of_right_ne_nil _ (List.cons_ne_nil _ _)

theorem isSubjectByte_hexEncode (bytes : Bytes) :
    ∀ byte ∈ hexEncode bytes, isSubjectByte byte = true := by
  have halves (byte : UInt8) : isSubjectByte (hexDigit (byte / 16)) = true ∧
      isSubjectByte (hexDigit (byte % 16)) = true :=
    forall_byte byte (by decide +kernel)
  intro byte member
  obtain ⟨source, _, inside⟩ := List.mem_flatMap.mp member
  rcases List.mem_cons.mp inside with rfl | inside
  · exact (halves source).1
  · rw [List.mem_singleton.mp inside]
    exact (halves source).2

/-- **A new trace id is a token.** -/
theorem validSubjectToken_newTraceID {id : Bytes} (isNew : IsNewTraceID id) :
    validSubjectToken id = true := by
  obtain ⟨random, now, sized, rfl⟩ := isNew
  rw [validSubjectToken, Bool.and_eq_true, decide_eq_true_eq, List.all_eq_true]
  cases random with
  | some bytes =>
    refine ⟨?_, isSubjectByte_hexEncode bytes⟩
    obtain ⟨byte, rest, rfl⟩ := List.exists_cons_of_length_eq_add_one (sized bytes rfl)
    exact List.cons_ne_nil _ _
  | none =>
    refine ⟨List.append_ne_nil_of_right_ne_nil _ (hexDigits_ne_nil _ _), ?_⟩
    intro byte member
    rcases List.mem_append.mp member with member | member
    · split at member
      · rw [List.mem_singleton.mp member]
        decide
      · cases member
    · exact isSubjectByte_hexDigits _ _ byte member

/-! ### The parts of a publication -/

/-- Where the trace id of a message comes from. -/
inductive TraceOf (r : Request) (log : Log) (traceID : Bytes) : Prop
  | brought (given : traceID ≠ []) (same : traceIDFromRequest r.header = traceID)
  | context (nothing : traceIDFromRequest r.header = []) (given : traceID ≠ [])
      (same : r.contextTraceID = traceID)
  | made (nothing : traceIDFromRequest r.header = []) (without : r.contextTraceID = [])
      (answer : ⟨.newTraceID, traceID⟩ ∈ log)

variable {traceID : Bytes} {r : Request}

theorem traceOf_of_path {log : Log} (path : (assignTraceID r).Path log (.done traceID)) :
    TraceOf r log traceID := by
  have spec : (assignTraceID r).Spec (fun _ _ => True)
      (fun result log => ∀ traceID, result = .ok traceID → TraceOf r log traceID) [] := by
    unfold assignTraceID
    dsimp only
    split
    · rename_i given
      rintro traceID ⟨⟩
      exact .brought given rfl
    · rename_i nothing
      rw [not_not] at nothing
      split
      · rename_i given
        rintro traceID ⟨⟩
        exact .context nothing given rfl
      · rename_i without
        rw [not_not] at without
        refine ⟨trivial, fun answer => ?_⟩
        rintro traceID ⟨⟩
        exact .made nothing without (List.mem_append_right _ (List.mem_singleton_self _))
  exact spec.of_path path traceID rfl

theorem TraceOf.mono {log later : Log} (trace : TraceOf r log traceID) (extends_ : log ⊆ later) :
    TraceOf r later traceID := by
  cases trace with
  | brought given same => exact .brought given same
  | context nothing given same => exact .context nothing given same
  | made nothing without answer => exact .made nothing without (extends_ answer)

/-- The alert that a request is relayed as. -/
inductive AlertOf (config : Config) : Input → Request → Parser.Signal → Prop
  | flat {r : Request} {alert : Parser.Signal} (parsed : Parser.parse r.body = .ok alert) :
      AlertOf config (.webhook r) r alert
  | ml {r : Request} {req : MLWebhookRequest} {command : Parser.Command}
      (decodes : config.decodeML r.body = .ok req) (proper : Proper req)
      (decided : Decided config req command) :
      AlertOf config (.webhookML r) r (buildMLSignal config.formatFloat req command)

/-- **A message that is relayed**: that of an alert, a record and a trace id. -/
def Relayed (config : Config) (input : Input) (log : Log) (subject payload : Bytes) : Prop :=
  ∃ r alert record traceID received, AlertOf config input r alert ∧ TraceOf r log traceID ∧
    validSubjectToken alert.licenseID = true ∧ validSubjectToken record.instanceID = true ∧
    (signalProto alert record config.region traceID r.body received).marshal = some payload ∧
    subject = signalSubject alert.licenseID record.instanceID record.platform

section Publication

variable {config : Config} {input : Input} {r : Request} {log : Log} {subject payload : Bytes}

theorem message_of_publishAlert {wctx : WebhookCtx} {parsed : Parser.Signal} {record : LicenseRecord}
    {traceID : Bytes} {inner : Option Bytes → Handling WebhookCtx}
    (path : (publishAlert config r wctx parsed record traceID).Path log
      (.call (.publish subject payload) inner)) :
    ∃ received, (signalProto parsed record config.region traceID r.body received).marshal =
      some payload ∧ subject = signalSubject parsed.licenseID record.instanceID record.platform := by
  have other : ¬Gating (.publish subject payload) := id
  have refused {status : Nat} {code : String} {log : Log}
      (path : (do rejectCode wctx status code; return wctx : Handling WebhookCtx).Path log
        (.call (.publish subject payload) inner)) : False :=
    (Only.of_path (gating_rejected ..) path).1.1
  unfold publishAlert at path
  obtain ⟨received, _, rest, -, -, encoding⟩ := path.past (Only.perform trivial) other
  split at encoding
  · exact (refused encoding).elim
  · rename_i bytes encoded
    rcases Path.of_call encoding with ⟨-, same⟩ | ⟨error, later, -, answering⟩
    · cases same
      exact ⟨received, encoded, rfl⟩
    · cases error with
      | some _ => exact (refused answering).elim
      | none =>
        rcases Path.of_call answering with ⟨-, same⟩ | ⟨_, _, -, ended⟩
        · cases same
        · cases (Path.of_done ended).2

variable {next : Option Bytes → Program Op Answer Empty Unit}

theorem relayed_of_webhook
    (path : (webhook config r).Path log (.call (.publish subject payload) next)) :
    Relayed config (.webhook r) log subject payload := by
  have other : ¬Gating (.publish subject payload) := id
  obtain ⟨wctx, start, l₁, rest, inner, -, rfl, running, -⟩ := body_of_handled path other
  unfold webhookBody at running
  obtain ⟨wctx, l₂, rest, -, rfl, parsing⟩ := running.past (gating_gatingPreamble ..) other
  split at parsing
  · exact absurd (Only.of_path (gating_rejected ..) parsing).1.1 other
  · rename_i parsed parses
    unfold relayAlert at parsing
    obtain ⟨record, l₃, rest, known, rfl, tracing⟩ := parsing.past (gating_authenticate ..) other
    obtain ⟨traceID, l₄, rest, assigned, rfl, publishing⟩ :=
      tracing.past (gating_assignTraceID r) other
    obtain ⟨received, encoded, rfl⟩ := message_of_publishAlert publishing
    have licensed := licensed_of_path known
    refine ⟨r, parsed, record, traceID, received, .flat parses, ?_, licensed.licenseToken,
      licensed.instanceToken, encoded, rfl⟩
    refine (traceOf_of_path assigned).mono fun event member => ?_
    simp only [List.mem_append]
    exact Or.inr (Or.inr (Or.inr (Or.inl member)))

theorem relayed_of_webhookML
    (path : (webhookML config r).Path log (.call (.publish subject payload) next)) :
    Relayed config (.webhookML r) log subject payload := by
  have notEarly : ¬Early (.publish subject payload) := id
  obtain ⟨req, wctx, record, start, front, back, inner, decodes, proper, licensed, -, rfl, scoring, -⟩ :=
    scored_of_path path id
  unfold scoreML at scoring
  obtain ⟨traceID, l₁, _, assigned, rfl, locating⟩ :=
    scoring.past (early_assignTraceID r) notEarly
  obtain ⟨position, l₂, _, -, rfl, predicting⟩ := locating.past (located_resolveCurrentPosition ..) id
  rcases Path.of_call predicting with ⟨-, same⟩ | ⟨outcome, later, rfl, publishing⟩
  · cases same
  · obtain ⟨command, received, decided, message⟩ := message_of_publishDecision publishing
    obtain ⟨bytes, encoded, same⟩ := Option.map_eq_some_iff.mp message
    cases same
    have kept := (foldl_addParam_leading (mlParams config.formatFloat req)
      { licenseID := req.licenseID, command, rawCommand := command.string, symbol := req.symbol }).1
    have named : (buildMLSignal config.formatFloat req command).licenseID = req.licenseID := kept
    refine ⟨r, _, record, traceID, received, .ml decodes proper ⟨_, _, _, decided⟩, ?_, ?_,
      licensed.instanceToken, encoded, ?_⟩
    · refine (traceOf_of_path assigned).mono fun event member => ?_
      exact List.mem_append_right _ (List.mem_append_left _ member)
    · rw [named]
      exact licensed.licenseToken
    · rw [named]

/-- **What is published is relayed.** -/
theorem relayed_of_path
    (path : (start config input).Path log (.call (.publish subject payload) next)) :
    Relayed config input log subject payload := by
  cases input with
  | webhook r => exact relayed_of_webhook path
  | webhookML r => exact relayed_of_webhookML path
  | killSwitch r => exact absurd (Only.of_path (early_killSwitch config r) path).1.1 id

end Publication

/-! ### What a relayed message holds -/

section Contents

variable {config : Config} {input : Input} {r : Request} {alert : Parser.Signal}

variable {traceID : Bytes}

theorem AlertOf.publishable (alertOf : AlertOf config input r alert) {record : LicenseRecord}
    {received : Time}
    (encodes : (signalProto alert record config.region traceID r.body received).wellFormed = true) :
    Publishable config.formatFloat
      (signalProto alert record config.region traceID r.body received) := by
  cases alertOf with
  | flat parsed => exact .flat parsed record config.region traceID received encodes
  | ml decodes proper decided => exact .ml _ _ record config.region traceID r.body received encodes

theorem AlertOf.symbol_ne_nil (alertOf : AlertOf config input r alert) : alert.symbol ≠ [] := by
  cases alertOf with
  | flat parsed =>
    obtain ⟨_, _, symbol, _, _, accepted, _, _, _, same, _⟩ := Parser.parse_parts parsed
    rw [same]
    exact accepted.symbolGiven
  | @ml r req command decodes proper decided =>
    have kept : (buildMLSignal config.formatFloat req command).symbol = req.symbol :=
      (foldl_addParam_leading _ _).2.2.2
    rw [kept]
    exact proper.symbol

theorem ne_nil_of_validSubjectToken {token : Bytes} (valid : validSubjectToken token = true) :
    token ≠ [] := by
  rw [validSubjectToken, Bool.and_eq_true, decide_eq_true_eq] at valid
  exact valid.1

def MadeTraceIDs (log : Log) : Prop :=
  ∀ id, ⟨.newTraceID, id⟩ ∈ log → IsNewTraceID id

theorem TraceOf.ne_nil {log : Log} (trace : TraceOf r log traceID) (made : MadeTraceIDs log) :
    traceID ≠ [] := by
  cases trace with
  | brought given _ => exact given
  | context _ given _ => exact given
  | made _ _ answer => exact ne_nil_of_validSubjectToken (validSubjectToken_newTraceID (made _ answer))

end Contents

/-! ### One environment -/

/-- The answers of the plain service, with trace ids as they are made. -/
def tracing : (op : Op) → Answer op
  | .newTraceID => newTraceID (some (List.replicate 16 0xAB)) 0
  | op => obliging op

theorem madeTraceIDs_tracing {log : Log} (answers : ∀ event ∈ log, event.answer = tracing event.op) :
    MadeTraceIDs log := by
  intro id member
  have same : id = newTraceID (some (List.replicate 16 0xAB)) 0 := answers _ member
  exact ⟨_, _, fun bytes found => by rw [← Option.some.inj found]; rfl, same⟩

theorem publishes_of_calls (answer : (op : Op) → Answer op) {program : Program Op Answer Empty Unit}
    (called : (program.calls answer).any isPublish = true) :
    ∃ log subject payload next, program.Path log (.call (.publish subject payload) next) ∧
      ∀ event ∈ log, event.answer = answer event.op := by
  obtain ⟨log, op, next, path, publishes, answers⟩ := Path.to_call answer called
  cases op with
  | publish subject payload => exact ⟨log, subject, payload, next, path, answers⟩
  | _ => cases publishes

end ExecRelay.Ingress
