/-
**The signals of the ML route in the flat form.**

Both routes publish the same kind of message, but the ML route builds it from a JSON body and does not
go through the parser. `readable_iff_expressible` says of every signal that the route publishes when it
could have come through the flat route: exactly if the request is `Expressible` with its command.
-/

import ExecRelay.Ingress.Prediction
import ExecRelay.Ingress.Publishable
import ExecRelay.Parser.Write

namespace ExecRelay.Ingress

open Lib
open Lib.Program (Only Path Spec)
open ExecRelay.Parser (Command ParamKind Param Plain Name Named Readable Writable CrossFieldRules
  commandNames commandNames_nodup paramNames paramNames_nodup maxComment isNameByte foldl_addParam_leading)

/-! ### What is published -/

def decidedCommands : List Command :=
  [.buy, .sell, .closeShortOpenLong, .closeLongOpenShort, .closeLong, .closeShort]

theorem mapActionToCommand_mem (action : Bytes) : mapActionToCommand action ∈ decidedCommands := by
  unfold mapActionToCommand
  split <;> decide

theorem mapDecisionToCommand_mem {summary position : Bytes} {command : Command}
    (mapped : mapDecisionToCommand summary position = some command) : command ∈ decidedCommands := by
  unfold mapDecisionToCommand at mapped
  split_ifs at mapped <;> cases mapped <;> decide

section Publishing

variable {config : Config} {r : Request} {log : Log} {subject payload : Bytes}

/-- The prediction can be answered such that the request is decided with the command. -/
def Decided (config : Config) (req : MLWebhookRequest) (command : Command) : Prop :=
  ∃ position row outcome,
    (decideML config (actionOf req) position row outcome).command = some command

variable {req : MLWebhookRequest} {command : Command}

theorem Decided.mem (decided : Decided config req command) : command ∈ decidedCommands := by
  obtain ⟨position, row, outcome, same⟩ := decided
  rw [decideML_command] at same
  split at same
  · cases same
    exact mapActionToCommand_mem _
  · split at same
    · exact mapDecisionToCommand_mem same
    · cases same
      exact mapActionToCommand_mem _

theorem Decided.shadow (decided : Decided config req command) (watches : config.mlEnforce = false) :
    command = mapActionToCommand (actionOf req) := by
  obtain ⟨position, row, outcome, same⟩ := decided
  rw [decideML_command, watches] at same
  split at same
  · cases same
    rfl
  · cases same
    rfl

theorem message_of_publishDecision {wctx : WebhookCtx} {record : LicenseRecord} {traceID : Bytes}
    {decision : Decision} {inner : Option Bytes → Handling WebhookCtx}
    (path : (publishDecision config r wctx req record traceID decision).Path log
      (.call (.publish subject payload) inner)) :
    ∃ command received, decision.command = some command ∧
      messageFor config r req record traceID command received = some ⟨subject, payload⟩ := by
  have notEarly : ¬Early (.publish subject payload) := id
  unfold publishDecision at path
  split at path
  · exact absurd (Only.of_path (early_finishML ..) path).1.1 notEarly
  · rename_i command given
    obtain ⟨received, _, rest, -, -, encoding⟩ := path.past (Only.perform trivial) notEarly
    split at encoding
    · exact absurd (Only.of_path (early_failML ..) encoding).1.1 notEarly
    · rename_i bytes encoded
      rcases Path.of_call encoding with ⟨-, same⟩ | ⟨error, later, -, answering⟩
      · cases same
        refine ⟨command, received, given, ?_⟩
        rw [messageFor, encoded]
        rfl
      · cases error with
        | some _ =>
          exact absurd (Only.of_path (early_failML ..) answering).1.1 notEarly
        | none =>
          exact absurd (Only.of_path (early_finishML ..) answering).1.1 notEarly

/-- **What the ML route publishes.** -/
theorem signal_of_publish {next : Option Bytes → Program Op Answer Empty Unit}
    (path : (webhookML config r).Path log (.call (.publish subject payload) next)) :
    ∃ req command record traceID received, config.decodeML r.body = .ok req ∧
      messageFor config r req record traceID command received = some ⟨subject, payload⟩ ∧
      Decided config req command ∧ validSubjectToken req.licenseID = true := by
  have notEarly : ¬Early (.publish subject payload) := id
  have admitted := ((spec_start config (.webhookML r)).of_path path).1.2
  obtain ⟨req, wctx, record, start, front, back, inner, decodes, -, -, -, -, scoring, -⟩ :=
    scored_of_path path id
  have token : validSubjectToken req.licenseID = true := by
    obtain ⟨_, _, _, _, named, -, licensed, -⟩ := admitted
    rw [credentials, decodes] at named
    cases named
    exact licensed.licenseToken
  unfold scoreML at scoring
  obtain ⟨traceID, _, _, -, -, locating⟩ :=
    scoring.past (early_assignTraceID r) notEarly
  obtain ⟨position, _, _, -, -, predicting⟩ := locating.past (located_resolveCurrentPosition ..) id
  rcases Path.of_call predicting with ⟨-, same⟩ | ⟨outcome, later, -, publishing⟩
  · cases same
  · obtain ⟨command, received, decided, message⟩ := message_of_publishDecision publishing
    exact ⟨req, command, record, traceID, received, decodes, message, ⟨_, _, _, decided⟩, token⟩

end Publishing

/-! ### The signal of a request -/

/-- What `strconv.FormatFloat` writes: digits, a point and a sign, or the names of the other values. -/
structure FormatsNumbers (formatFloat : Float64 → Bytes) : Prop where
  given : ∀ value, formatFloat value ≠ []
  alphabet : ∀ value, ∀ byte ∈ formatFloat value, byte ∈ lit "+-.0123456789INafn"

theorem plain_formatFloat {formatFloat : Float64 → Bytes} (formats : FormatsNumbers formatFloat)
    (value : Float64) : Plain (formatFloat value) := by
  have fine (byte : UInt8) : byte ∈ lit "+-.0123456789INafn" → isNameByte byte = true :=
    forall_byte byte (by decide +kernel)
  exact Name.plain ⟨formats.given value, fun byte member => fine byte (formats.alphabet value byte member)⟩

theorem plain_of_validSubjectToken {text : Bytes} (token : validSubjectToken text = true) :
    Plain text := by
  have fine (byte : UInt8) : isSubjectByte byte = true → isNameByte byte = true :=
    forall_byte byte (by decide +kernel)
  rw [validSubjectToken, Bool.and_eq_true, decide_eq_true_eq, List.all_eq_true] at token
  exact Name.plain ⟨token.1, fun byte member => fine byte (token.2 byte member)⟩

section Request

variable {formatFloat : Float64 → Bytes} {req : MLWebhookRequest} {command : Command}

variable {param : Param}

theorem mem_mlParams : param ∈ mlParams formatFloat req ↔
    (req.volume.isZero = false ∧ param = ⟨.volLots, lit "vol_lots", formatFloat req.volume⟩) ∨
      (req.sl.isZero = false ∧ param = ⟨.sl, lit "sl", formatFloat req.sl⟩) ∨
      (req.tp.isZero = false ∧ param = ⟨.tp, lit "tp", formatFloat req.tp⟩) ∨
      (req.comment ≠ [] ∧ param = ⟨.comment, lit "comment", req.comment⟩) := by
  have number (kind : ParamKind) (key : String) (value : Float64) :
      param ∈ numberParam formatFloat kind key value ↔
        value.isZero = false ∧ param = ⟨kind, lit key, formatFloat value⟩ := by
    unfold numberParam
    cases value.isZero <;> simp
  have comment : (param ∈ if req.comment = [] then ([] : List Param) else
      [⟨.comment, lit "comment", req.comment⟩]) ↔
        req.comment ≠ [] ∧ param = ⟨.comment, lit "comment", req.comment⟩ := by
    by_cases empty : req.comment = [] <;> simp [empty]
  unfold mlParams
  rw [List.mem_append, List.mem_append, List.mem_append, number, number, number, comment, or_assoc,
    or_assoc]

theorem mlParams_kinds (formatFloat : Float64 → Bytes) (req : MLWebhookRequest) :
    ((mlParams formatFloat req).map Param.kind).Sublist [.volLots, .sl, .tp, .comment] := by
  have number (kind : ParamKind) (key : String) (value : Float64) :
      ((numberParam formatFloat kind key value).map Param.kind).Sublist [kind] := by
    unfold numberParam
    split <;> simp
  have comment : ((if req.comment = [] then ([] : List Param) else
      [⟨.comment, lit "comment", req.comment⟩]).map Param.kind).Sublist [.comment] := by
    split <;> simp
  unfold mlParams
  rw [List.map_append, List.map_append, List.map_append]
  exact (((number .volLots "vol_lots" req.volume).append (number .sl "sl" req.sl)).append
    (number .tp "tp" req.tp)).append comment

theorem mlParams_countP (test : ParamKind → Bool) :
    (mlParams formatFloat req).countP (fun param => test param.kind) ≤
      [ParamKind.volLots, .sl, .tp, .comment].countP test := by
  have fewer := (mlParams_kinds formatFloat req).countP_le (p := test)
  rw [List.countP_map] at fewer
  exact fewer

theorem named_buildMLSignal (decided : command ∈ decidedCommands) :
    Named (buildMLSignal formatFloat req command) := by
  have spelled : ∀ command ∈ decidedCommands,
      Parser.lookupName commandNames command.string = some command := by decide +kernel
  constructor
  · rw [buildMLSignal, (foldl_addParam_leading _ _).2.1,
      ← Parser.lookupName_iff commandNames commandNames_nodup]
    exact spelled command decided
  · rw [buildMLSignal_params]
    intro param member
    rw [← Parser.lookupName_iff paramNames paramNames_nodup]
    rcases mem_mlParams.mp member with ⟨-, rfl⟩ | ⟨-, rfl⟩ | ⟨-, rfl⟩ | ⟨-, rfl⟩ <;>
      (dsimp only; decide +kernel)

/-- **A request that the flat form can express** with a command. -/
structure Expressible (req : MLWebhookRequest) (command : Command) : Prop where
  symbol : Plain req.symbol
  comment : req.comment ≠ [] → Plain req.comment ∧ req.comment.length ≤ maxComment
  volume : command.opensOrder = true → req.volume.isZero = false

theorem volLots_mem_kinds (formatFloat : Float64 → Bytes) (req : MLWebhookRequest) :
    .volLots ∈ (mlParams formatFloat req).map Param.kind ↔ req.volume.isZero = false := by
  rw [List.mem_map]
  constructor
  · rintro ⟨param, member, kind⟩
    rcases mem_mlParams.mp member with ⟨given, -⟩ | ⟨-, rfl⟩ | ⟨-, rfl⟩ | ⟨-, rfl⟩
    · exact given
    all_goals cases kind
  · intro given
    exact ⟨_, mem_mlParams.mpr (.inl ⟨given, rfl⟩), rfl⟩

theorem rules_iff (decided : command ∈ decidedCommands) :
    CrossFieldRules command req.symbol ((mlParams formatFloat req).map Param.kind) ↔
      (command.opensOrder = true → req.volume.isZero = false) := by
  have known {kind : ParamKind} (member : kind ∈ (mlParams formatFloat req).map Param.kind) :
      kind ∈ [ParamKind.volLots, .sl, .tp, .comment] :=
    (mlParams_kinds formatFloat req).subset member
  constructor
  · intro rules opens
    rw [← volLots_mem_kinds formatFloat]
    rcases rules.opensNeedVolume opens with ⟨kind, member, isVolume⟩ | risk
    · have only : ∀ kind ∈ [ParamKind.volLots, .sl, .tp, .comment], kind.isVolume = true →
          kind = .volLots := by decide
      rw [← only kind (known member) isVolume]
      exact member
    · exact absurd (known risk) (by decide)
  · intro volume
    have others : ∀ command ∈ decidedCommands, command ≠ .eaOff ∧ command ≠ .eaOn ∧
        command.isPendingOpen = false ∧ command.isModify = false ∧ command ≠ .closeLongVol ∧
        command ≠ .closeShortVol := by decide
    have kinds : ∀ kind ∈ [ParamKind.volLots, .sl, .tp, .comment], kind.isLossRisk = false ∧
        kind.isATR = false := by decide
    obtain ⟨notOff, notOn, notPending, notModify, notLong, notShort⟩ := others command decided
    exact
      { eaOffSymbol := fun same => absurd same notOff
        eaOnSymbol := fun same => absurd same notOn
        opensNeedVolume := fun opens =>
          .inl ⟨.volLots, (volLots_mem_kinds _ _).mpr (volume opens), rfl⟩
        pendingNeedsEntry := fun pending => absurd (notPending.symm.trans pending) (by decide)
        lossRiskNeedsSL := fun ⟨kind, member, loss⟩ =>
          absurd ((kinds kind (known member)).1.symm.trans loss) (by decide)
        atrComplete := fun ⟨kind, member, trails⟩ =>
          absurd ((kinds kind (known member)).2.symm.trans trails) (by decide)
        modifyNeedsLevel := fun modifies => absurd (notModify.symm.trans modifies) (by decide)
        partialVolumeNeedsRisk := fun which => which.elim (absurd · notLong) (absurd · notShort) }

theorem numeric_or_comment (member : param ∈ mlParams formatFloat req) :
    (param.kind ≠ .comment ∧ ∃ value, param.value = formatFloat value) ∨
      (req.comment ≠ [] ∧ param = ⟨.comment, lit "comment", req.comment⟩) := by
  rcases mem_mlParams.mp member with ⟨-, rfl⟩ | ⟨-, rfl⟩ | ⟨-, rfl⟩ | comment
  · exact .inl ⟨nofun, _, rfl⟩
  · exact .inl ⟨nofun, _, rfl⟩
  · exact .inl ⟨nofun, _, rfl⟩
  · exact .inr comment

/-- **The signal of a request can be written** exactly if the request is expressible. -/
theorem writable_iff (formats : FormatsNumbers formatFloat)
    (token : validSubjectToken req.licenseID = true) (decided : command ∈ decidedCommands) :
    Writable (buildMLSignal formatFloat req command) ↔ Expressible req command := by
  obtain ⟨license, kept, -, symbol⟩ := foldl_addParam_leading (mlParams formatFloat req)
    { licenseID := req.licenseID, command, rawCommand := command.string, symbol := req.symbol }
  have params := buildMLSignal_params formatFloat req command
  have counted (test : ParamKind → Bool) :
      (buildMLSignal formatFloat req command).params.countP (fun param => test param.kind) ≤
        [ParamKind.volLots, .sl, .tp, .comment].countP test := by
    rw [params]
    exact mlParams_countP test
  constructor
  · rintro ⟨-, plain, values, -, -, -, -, short, rules⟩
    rw [params] at values short rules
    rw [buildMLSignal, symbol] at plain
    rw [buildMLSignal, symbol, kept] at rules
    refine ⟨plain, fun given => ?_, (rules_iff decided).mp rules⟩
    have member : ⟨.comment, lit "comment", req.comment⟩ ∈ mlParams formatFloat req :=
      mem_mlParams.mpr (.inr (.inr (.inr ⟨given, rfl⟩)))
    exact ⟨values _ member, short _ member rfl⟩
  · rintro ⟨plain, comment, volume⟩
    refine
      { license := ?_
        symbol := ?_
        values := ?_
        oneVolume := counted _
        oneSL := counted _
        oneTP := counted _
        oneEntry := (counted _).trans (by decide)
        shortComment := ?_
        rules := ?_ }
    · rw [buildMLSignal, license]
      exact plain_of_validSubjectToken token
    · rw [buildMLSignal, symbol]
      exact plain
    · rw [params]
      intro param member
      rcases numeric_or_comment member with ⟨-, value, same⟩ | ⟨given, rfl⟩
      · rw [same]
        exact plain_formatFloat formats value
      · exact (comment given).1
    · rw [params]
      intro param member isComment
      rcases numeric_or_comment member with ⟨number, -⟩ | ⟨given, rfl⟩
      · exact absurd isComment number
      · exact (comment given).2
    · rw [params, buildMLSignal, symbol, kept]
      exact (rules_iff decided).mpr volume

/-- The signal of a request can be read back exactly if the request is expressible. -/
theorem readable_iff (formats : FormatsNumbers formatFloat)
    (token : validSubjectToken req.licenseID = true) (decided : command ∈ decidedCommands) :
    Readable (buildMLSignal formatFloat req command) ↔ Expressible req command :=
  (Parser.readable_iff (named_buildMLSignal decided)).trans (writable_iff formats token decided)

end Request

/-! ### Published signals in the flat form -/

section Published

variable {config : Config} {r : Request} {log : Log} {subject payload : Bytes}

/-- **A published signal is readable in the flat form** exactly if its request is expressible. -/
theorem readable_iff_expressible (formats : FormatsNumbers config.formatFloat)
    {next : Option Bytes → Program Op Answer Empty Unit}
    (path : (webhookML config r).Path log (.call (.publish subject payload) next)) :
    ∃ req command record traceID received, config.decodeML r.body = .ok req ∧
      messageFor config r req record traceID command received = some ⟨subject, payload⟩ ∧
      (Readable (buildMLSignal config.formatFloat req command) ↔ Expressible req command) := by
  obtain ⟨req, command, record, traceID, received, decodes, message, decided, token⟩ :=
    signal_of_publish path
  exact ⟨req, command, record, traceID, received, decodes, message,
    readable_iff formats token decided.mem⟩

end Published

/-! ### A request that is, and two that are not -/

def scoring (req : MLWebhookRequest) : Config :=
  { scoringConfig with decodeML := fun _ => .ok req }

theorem formats_scoring (req : MLWebhookRequest) : FormatsNumbers (scoring req).formatFloat := by
  constructor
  · intro value
    show (if value = tenth then lit "0.1" else lit "0") ≠ []
    split <;> decide
  · intro value
    show ∀ byte ∈ if value = tenth then lit "0.1" else lit "0", byte ∈ lit "+-.0123456789INafn"
    split <;> decide +kernel

theorem publishes_scoring (req : MLWebhookRequest)
    (ran : (run (machine plainLimiter reliable (scoring req)).step { world := oneLicense () }
      (.begin (.webhookML plainRequest) :: List.replicate 7 (.advance 0 obliging))).any
      (fun state => (state.log 0).length = 7 && state.threads[0]?.any (isAt isPublish)) = true) :
    ∃ log subject payload next,
      (webhookML (scoring req) plainRequest).Path log (.call (.publish subject payload) next) := by
  obtain ⟨log, op, next, -, publishes, path⟩ := path_of_run ran
  cases op with
  | publish subject payload => exact ⟨log, subject, payload, next, path⟩
  | _ => cases publishes

theorem readable_iff_expressible_buy :
    ∃ log subject payload next,
      (webhookML (scoring buyRequest) plainRequest).Path log (.call (.publish subject payload) next) ∧
      ∃ req command record traceID received,
        (scoring buyRequest).decodeML plainRequest.body = .ok req ∧
        messageFor (scoring buyRequest) plainRequest req record traceID command received =
          some ⟨subject, payload⟩ ∧
        (Readable (buildMLSignal (scoring buyRequest).formatFloat req command) ↔
          Expressible req command) := by
  obtain ⟨log, subject, payload, next, path⟩ := publishes_scoring buyRequest (by decide +kernel)
  exact ⟨log, subject, payload, next, path, readable_iff_expressible (formats_scoring _) path⟩

def longComment : MLWebhookRequest :=
  { buyRequest with comment := lit "AlgoCombo trend follower" }

def noVolume : MLWebhookRequest :=
  { buyRequest with volume := .zero }

/-- The route publishes the signal of the request, and the parser does not give it back. -/
def PublishesUnreadable (req : MLWebhookRequest) : Prop :=
  ∃ log subject payload next,
    (webhookML (scoring req) plainRequest).Path log (.call (.publish subject payload) next) ∧
    ∃ command record traceID received,
      messageFor (scoring req) plainRequest req record traceID command received =
        some ⟨subject, payload⟩ ∧
      ¬Readable (buildMLSignal (scoring req).formatFloat req command)

theorem publishesUnreadable {req : MLWebhookRequest}
    (published : ∃ log subject payload next,
      (webhookML (scoring req) plainRequest).Path log (.call (.publish subject payload) next))
    (inexpressible : ¬Expressible req (mapActionToCommand (actionOf req))) :
    PublishesUnreadable req := by
  obtain ⟨log, subject, payload, next, path⟩ := published
  obtain ⟨_, command, record, traceID, received, decodes, message, decided, token⟩ :=
    signal_of_publish path
  cases decodes
  refine ⟨log, subject, payload, next, path, command, record, traceID, received, message, ?_⟩
  rw [readable_iff (formats_scoring req) token decided.mem, decided.shadow rfl]
  exact inexpressible

/-- **A long comment and a missing volume** are published, and refused by the flat route. -/
theorem not_readable_published :
    PublishesUnreadable longComment ∧ PublishesUnreadable noVolume := by
  constructor
  · refine publishesUnreadable (publishes_scoring _ (by decide +kernel)) fun expressible => ?_
    exact absurd (expressible.comment (by decide)).2 (by decide)
  · refine publishesUnreadable (publishes_scoring _ (by decide +kernel)) fun expressible => ?_
    exact absurd (expressible.volume (by decide)) (by decide)

-- what the flat route says of them
example : Parser.parse (buildMLSignal (scoring longComment).formatFloat longComment .buy).write =
    .error ⟨.commentTooLong, lit "comment"⟩ := by
  decide +kernel

example : Parser.parse (buildMLSignal (scoring noVolume).formatFloat noVolume .buy).write =
    .error ⟨.missingVolume, lit "volume"⟩ := by
  decide +kernel

end ExecRelay.Ingress
