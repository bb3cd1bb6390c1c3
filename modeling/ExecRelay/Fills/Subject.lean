/-
**The subject of a fill.**

The trace id of a request travels through the message, the terminal and back into the subject of the
fill, `fills.<instance>.<trace>`. ingress checks the license and the instance of a message
(`validSubjectToken`), but takes the trace id of the headers as it is.
-/

import ExecRelay.DXTrade.Orders
import ExecRelay.Fills.Attribution
import ExecRelay.Ingress.Published
import ExecRelay.Risk.Exposure

namespace ExecRelay.Fills

open Lib
open Lib.Program (Path Spec)
open Ingress (Input traceIDFromRequest validSubjectToken)

/-! ### Subjects -/

def isTokenByte (byte : UInt8) : Bool :=
  !(byte = 32 || (9 ≤ byte && byte ≤ 13)) && byte ≠ 42 && byte ≠ 62 && byte ≠ 46

def isToken (token : Bytes) : Bool :=
  token ≠ [] && token.all isTokenByte

/-- **A subject of three tokens**, from which risk and persist read the instance, and risk the trace. -/
structure IsFillSubject (subject instanceID traceID : Bytes) : Prop where
  three : (subject.splitOn 46).length = 3
  tokens : (subject.splitOn 46).all isToken = true
  instanceID : subjectInstance subject = instanceID
  traceID : Risk.subjectAccount subject = traceID

variable {token : Bytes}

theorem isToken_of_validSubjectToken (valid : validSubjectToken token = true) :
    isToken token = true := by
  have fine (byte : UInt8) : Ingress.isSubjectByte byte = true → isTokenByte byte = true :=
    forall_byte byte (by decide +kernel)
  rw [validSubjectToken, Bool.and_eq_true, decide_eq_true_eq, List.all_eq_true] at valid
  rw [isToken, Bool.and_eq_true, decide_eq_true_eq, List.all_eq_true]
  exact ⟨valid.1, fun byte member => fine byte (valid.2 byte member)⟩

theorem not_mem_dot_of_isToken (valid : isToken token = true) : 46 ∉ token := by
  rw [isToken, Bool.and_eq_true, List.all_eq_true] at valid
  intro member
  exact absurd (valid.2 46 member) (by decide)

/-- The instance is a token, so that the subject is right exactly if the trace id is one. -/
theorem isFillSubject_iff {instanceID : Bytes} (valid : isToken instanceID = true) (traceID : Bytes) :
    IsFillSubject (lit "fills." ++ instanceID ++ lit "." ++ traceID) instanceID traceID ↔
      isToken traceID = true := by
  have parts := splitOn_fillSubject (not_mem_dot_of_isToken valid) traceID
  constructor
  · intro right
    have three := right.three
    have tokens := right.tokens
    have trace := right.traceID
    rw [Risk.subjectAccount, parts] at trace
    rw [parts] at three tokens
    obtain ⟨only, single⟩ : ∃ only, traceID.splitOn 46 = [only] :=
      List.length_eq_one_iff.mp (by simpa using three)
    rw [single] at trace tokens
    have same : only = traceID := trace
    rw [← same]
    simp only [List.all_cons, Bool.and_eq_true] at tokens
    exact tokens.2.2.1
  · intro token
    have single : traceID.splitOn 46 = [traceID] :=
      List.splitOn_eq_singleton (not_mem_dot_of_isToken token)
    have fills : isToken (lit "fills") = true := by decide
    rw [single] at parts
    refine ⟨?_, ?_, ?_, ?_⟩
    · rw [parts]
      rfl
    · rw [parts]
      simp [fills, valid, token]
    · rw [subjectInstance, parts]
      rfl
    · rw [Risk.subjectAccount, parts]
      rfl

/-! ### The fills of dxtrade -/

section DXTrade

open DXTrade (Setup dispatch carryOut clientFor commandOf executeCommand Executing)

variable {Number : Type} (setup : Setup Number)

/-- A fill is published under the instance and the trace id of the signal. -/
def Filed (msg : Nats.Delivery) : DXTrade.Op Number → DXTrade.Log Number → Prop
  | .publishFill subject _, _ => ∃ signal, setup.codec.unmarshal msg.data = some signal ∧
      subject = lit "fills." ++ signal.instanceId ++ lit "." ++ signal.traceId
  | _, _ => True

variable {msg : Nats.Delivery}

theorem filed_of_executing {op : DXTrade.Op Number} {log : DXTrade.Log Number}
    (executing : Executing op log) : Filed setup msg op log := by
  unfold Executing at executing
  unfold Filed
  split <;> trivial

variable {cmd : DXTrade.Command Number} {signal : Proto.Signal}

theorem traceID_of_commandOf (parsed : commandOf setup signal = .ok cmd) :
    cmd.traceID = signal.traceId := by
  unfold commandOf DXTrade.parseCommand at parsed
  obtain ⟨volume, _, rest⟩ := (bind_eq_ok _ _ _).mp parsed
  split at rest
  · split at rest
    · cases rest
    · cases rest
      rfl
  · split at rest
    · cases rest
      rfl
    · cases rest

variable {cfg : DXTrade.InstanceConfig}

theorem instanceID_of_clientFor {instances : List DXTrade.InstanceConfig} {instanceID : Bytes}
    (client : clientFor instances instanceID = some cfg) : cfg.instanceID = instanceID := by
  simpa using List.find?_some client

theorem filed_carryOut (decodes : setup.codec.unmarshal msg.data = some signal)
    (client : clientFor setup.instances signal.instanceId = some cfg)
    (parsed : commandOf setup signal = .ok cmd) :
    (carryOut setup.doubles setup.newRequest cfg msg cmd).Spec (Filed setup msg)
      (fun _ _ => True) [] := by
  have filed (log : DXTrade.Log Number) (fill : DXTrade.FillPayload) :
      Filed setup msg (.publishFill (lit "fills." ++ cfg.instanceID ++ lit "." ++ cmd.traceID) fill)
        log := by
    rw [instanceID_of_clientFor client, traceID_of_commandOf setup parsed]
    exact ⟨signal, decodes, rfl⟩
  have careful : (executeCommand setup.doubles setup.newRequest cfg cmd).Spec Executing _ [] :=
    DXTrade.careful_executeCommand cmd [] nofun
  have executed : ((executeCommand setup.doubles setup.newRequest cfg cmd).attempt :
      DXTrade.Worker Number (Except DXTrade.ClientError DXTrade.Result)).Spec (Filed setup msg)
      (fun _ _ => True) [] :=
    Spec.attempt ((careful.weaken fun _ _ => filed_of_executing setup).consequence
      fun _ _ _ => trivial)
  refine Spec.bind executed (fun outcome later _ => ?_) fun _ _ _ => trivial
  cases outcome with
  | ok result => exact ⟨filed _ _, fun _ => ⟨trivial, fun _ => trivial⟩⟩
  | error error =>
    cases error with
    | panic => trivial
    | auth => exact ⟨filed _ _, fun _ => ⟨trivial, fun _ => trivial⟩⟩
    | other text => exact ⟨filed _ _, fun _ => ⟨trivial, fun _ => trivial⟩⟩

theorem filed_dispatch (msg : Nats.Delivery) :
    (dispatch setup.doubles setup.newRequest setup.codec setup.instances msg).Spec (Filed setup msg)
      (fun _ _ => True) [] := by
  unfold dispatch
  split
  · exact ⟨trivial, fun _ => trivial⟩
  · cases decodes : setup.codec.unmarshal msg.data with
    | none => exact ⟨trivial, fun _ => trivial⟩
    | some signal =>
      dsimp only
      cases client : clientFor setup.instances signal.instanceId with
      | none => exact ⟨trivial, fun _ => trivial⟩
      | some cfg =>
        cases parsed : commandOf setup signal with
        | error error =>
          rw [commandOf] at parsed
          rw [parsed]
          exact ⟨trivial, fun _ => trivial⟩
        | ok cmd =>
          have carried := filed_carryOut setup decodes client parsed
          rw [commandOf] at parsed
          rw [parsed]
          exact carried

end DXTrade

/-! ### From the request to the subject -/

/-- The subject is used for a fill of the message: the bridge has written the signal to a connection,
from which a fill with its trace id comes back; or dxtrade carries the signal out. -/
inductive UsedForFill (payload : Bytes) (signal : Proto.Signal) (subject : Bytes) : Prop
  | bridge {config : Bridge.Config} {state : Bridge.BridgeState} {index conn : Nat}
      {msg : Nats.Delivery} {out : Bridge.OutMsg} {raw : Bytes} {fill : Bridge.FillMsg}
      {written published : Option Bytes}
      (reached : (Bridge.machine config).Reached (fun _ _ => True) {} state)
      (delivers : state.input index = some (.deliver msg)) (same : msg.data = payload)
      (decodes : config.codec.unmarshal payload = some signal)
      (writes : ⟨.write conn out, written⟩ ∈ state.log index)
      (publishes : ⟨.publish subject (.fill raw), published⟩ ∈
        state.log conn)
      (reports : config.decodeFill raw = some fill) (own : fill.traceID = signal.traceId)
  | dxtrade {Number : Type} {setup : DXTrade.Setup Number} {msg : Nats.Delivery}
      {log : DXTrade.Log Number} {fill : DXTrade.FillPayload}
      {next : DXTrade.Answer (.publishFill subject fill) → DXTrade.Worker Number Unit}
      (same : msg.data = payload) (decodes : setup.codec.unmarshal payload = some signal)
      (path : (DXTrade.dispatch setup.doubles setup.newRequest setup.codec setup.instances msg).Path
        log (.call (.publishFill subject fill) next))

/-- **The subject of a fill** is made of the instance and the trace id of the signal. -/
theorem subject_of_usedForFill {payload subject : Bytes} {signal : Proto.Signal}
    (used : UsedForFill payload signal subject) :
    (∃ codec : Proto.Codec, codec.unmarshal payload = some signal) ∧
      subject = lit "fills." ++ signal.instanceId ++ lit "." ++ signal.traceId := by
  cases used with
  | bridge reached delivers same decodes writes publishes reports own =>
    refine ⟨⟨_, decodes⟩, ?_⟩
    rw [← same] at decodes
    have named := Bridge.named_of_write reached delivers decodes writes
    obtain ⟨fill, decoded, rfl⟩ := Bridge.subject_of_fill reached named publishes
    cases reports.symm.trans decoded
    rw [own]
  | @dxtrade Number setup msg log fill next same decodes path =>
    refine ⟨⟨_, decodes⟩, ?_⟩
    obtain ⟨other, also, rfl⟩ := ((filed_dispatch setup msg).of_path path).1
    rw [same] at also
    cases decodes.symm.trans also
    rfl

/-- The trace id that a request brings, by a header or in its context. -/
def broughtTrace : Input → Bytes
  | .webhook r | .webhookML r =>
    if traceIDFromRequest r.header ≠ [] then traceIDFromRequest r.header else r.contextTraceID
  | .killSwitch _ => []

def bringsToken (input : Input) : Bool :=
  broughtTrace input = [] || isToken (broughtTrace input)

variable {config : Ingress.Config} {input : Input}

theorem bringsToken_iff {r : Ingress.Request} {alert : Parser.Signal} {log : Ingress.Log}
    {traceID : Bytes} (alertOf : Ingress.AlertOf config input r alert)
    (trace : Ingress.TraceOf r log traceID) (made : Ingress.MadeTraceIDs log) :
    bringsToken input = true ↔ isToken traceID = true := by
  have brought : broughtTrace input =
      if traceIDFromRequest r.header ≠ [] then traceIDFromRequest r.header
      else r.contextTraceID := by
    cases alertOf <;> rfl
  have given (nonempty : traceID ≠ []) (same : broughtTrace input = traceID) :
      bringsToken input = true ↔ isToken traceID = true := by
    rw [bringsToken, same]
    simp [nonempty]
  cases trace with
  | brought nonempty same =>
    refine given nonempty (brought.trans ?_)
    rw [same, if_pos nonempty]
  | context nothing nonempty same =>
    refine given nonempty (brought.trans ?_)
    rw [nothing, if_neg (not_not.mpr rfl), same]
  | made nothing without answer =>
    have token := isToken_of_validSubjectToken
      (Ingress.validSubjectToken_newTraceID (made _ answer))
    rw [nothing, without, if_neg (not_not.mpr rfl)] at brought
    simp [bringsToken, brought, token]

/-- **When the subject of a fill is valid.** -/
theorem isFillSubject_iff_brings {config : Ingress.Config} {input : Input} {log : Ingress.Log}
    {topic payload : Bytes} {next : Option Bytes → Program Ingress.Op Ingress.Answer Empty Unit}
    (made : Ingress.MadeTraceIDs log)
    (path : (Ingress.start config input).Path log (.call (.publish topic payload) next))
    {signal : Proto.Signal} {subject : Bytes} (used : UsedForFill payload signal subject) :
    IsFillSubject subject signal.instanceId signal.traceId ↔ bringsToken input = true := by
  obtain ⟨⟨codec, decodes⟩, rfl⟩ := subject_of_usedForFill used
  obtain ⟨r, alert, record, traceID, received, alertOf, trace, -, token, encoded, -⟩ :=
    Ingress.relayed_of_path path
  cases decodes.symm.trans (codec.unmarshal_of_marshal encoded)
  rw [bringsToken_iff alertOf trace made]
  exact isFillSubject_iff (isToken_of_validSubjectToken token) traceID

/-! ### Two requests -/

def mainAccount : DXTrade.Setup ℚ :=
  { DXTrade.oneAccount with
    instances := [⟨lit "main", lit "dx.broker.test", lit "trader", lit "p4ss", lit "A-1"⟩] }

def isFillOn (subject : Bytes) : DXTrade.Op ℚ → Bool
  | .publishFill other _ => other = subject
  | _ => false

def isFilledOn (subject : Bytes) : Ingress.Op → Bool
  | .publish _ payload =>
    ((DXTrade.dispatch mainAccount.doubles mainAccount.newRequest mainAccount.codec
      mainAccount.instances ⟨0, payload, some 1⟩).calls (DXTrade.replying [] 201)).any
      (isFillOn subject)
  | _ => false

def isAccepting : Ingress.Op → Bool
  | .respond response => response.isAccepted
  | _ => false

theorem usedForFill_of_calls {subject : Bytes}
    (called : ((Ingress.start config input).calls Ingress.tracing).any (isFilledOn subject) = true) :
    ∃ log topic payload next signal,
      (Ingress.start config input).Path log (.call (.publish topic payload) next) ∧
      Ingress.MadeTraceIDs log ∧ UsedForFill payload signal subject := by
  obtain ⟨log, op, next, path, filled, answers⟩ := Path.to_call Ingress.tracing called
  cases op with
  | publish topic payload =>
    obtain ⟨inner, op, later, filling, isFill, _⟩ := Path.to_call _ filled
    cases op with
    | publishFill other fill =>
      cases of_decide_eq_true isFill
      obtain ⟨signal, decodes, _⟩ := ((filed_dispatch mainAccount _).of_path filling).1
      exact ⟨log, topic, payload, next, signal, path, Ingress.madeTraceIDs_tracing answers,
        .dxtrade rfl decodes filling⟩
    | _ => cases isFill
  | _ => cases filled

/-- A request without a trace id. -/
theorem isFillSubject_iff_brings_plain :
    ∃ log topic payload next signal subject,
      (Ingress.start Ingress.plainConfig (.webhook Ingress.plainRequest)).Path log
        (.call (.publish topic payload) next) ∧
      UsedForFill payload signal subject ∧
      IsFillSubject subject signal.instanceId signal.traceId := by
  obtain ⟨log, topic, payload, next, signal, path, made, used⟩ := usedForFill_of_calls
    (by decide +kernel : ((Ingress.start Ingress.plainConfig (.webhook Ingress.plainRequest)).calls
      Ingress.tracing).any (isFilledOn (lit "fills.main.abababababababababababababababab")) = true)
  exact ⟨log, topic, payload, next, signal, _, path, used,
    (isFillSubject_iff_brings made path used).mpr (by decide)⟩

def dottedRequest : Ingress.Request :=
  { Ingress.plainRequest with header := [(lit "X-ExecRelay-Trace-ID", lit "desk.eu")] }

/-- **A trace id with a dot** is accepted, and the subject of the fill has four parts. risk reads the
first half of the trace id. -/
theorem not_isFillSubject_dotted :
    ((Ingress.start Ingress.plainConfig (.webhook dottedRequest)).calls Ingress.tracing).any
        isAccepting = true ∧
      ∃ log topic payload next signal,
        (Ingress.start Ingress.plainConfig (.webhook dottedRequest)).Path log
          (.call (.publish topic payload) next) ∧
        UsedForFill payload signal (lit "fills.main.desk.eu") ∧
        ¬ IsFillSubject (lit "fills.main.desk.eu") signal.instanceId signal.traceId ∧
        Risk.subjectAccount (lit "fills.main.desk.eu") = lit "desk" := by
  refine ⟨by decide +kernel, ?_⟩
  obtain ⟨log, topic, payload, next, signal, path, _, used⟩ := usedForFill_of_calls
    (by decide +kernel : ((Ingress.start Ingress.plainConfig (.webhook dottedRequest)).calls
      Ingress.tracing).any (isFilledOn (lit "fills.main.desk.eu")) = true)
  refine ⟨log, topic, payload, next, signal, path, used, fun right => ?_, by decide +kernel⟩
  exact absurd right.three (by decide +kernel)

end ExecRelay.Fills
