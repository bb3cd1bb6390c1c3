/-
**What the MT4 EA gets of a signal.**

The timer of the EA reads with a buffer of 4096 bytes, and hands what it gets to `HandleMessage`.
`WsRead` cuts a longer payload to the buffer and drops the rest, so that no message of more than 4096
bytes comes through (`length_le_of_positive`), and it hands out every frame by itself, so that a message
that the bridge's WebSocket library sends in several frames comes in pieces. How the library frames a text
is left open (`Fragments`).
-/

import ExecRelay.Ingress.Published
import ExecRelay.MT4.Read

namespace ExecRelay.MT4

open Lib Lib.WebSocket
open Bridge (signalMsg)

/-! ### The buffer of the caller -/

section Buffer

variable (beyond : Nat → UInt8) (key : Nat → Key) {bufLen : Nat}

def Outcome.Within (bufLen : Nat) : Outcome → Prop
  | .payload bytes => bytes.length ≤ bufLen
  | _ => True

variable {outcome : Outcome}

theorem within_drain {fuel : Nat} {conn conn' : Conn}
    (returns : drain beyond key bufLen fuel conn = .returned outcome conn') :
    outcome.Within bufLen := by
  induction fuel generalizing conn with
  | zero => cases returns
  | succ fuel ih =>
    rw [drain] at returns
    split_ifs at returns
    cases parses : parseFrame (memory conn.ibuf beyond) conn.ibuf.length pbufSize with
    | more =>
      simp only [parses] at returns
      cases returns
    | error =>
      simp only [parses] at returns
      cases returns
      trivial
    | overflow =>
      simp only [parses] at returns
      cases returns
      trivial
    | frame parsed =>
      simp only [parses] at returns
      split_ifs at returns
      · cases returns
        trivial
      · cases returns
        trivial
      · exact ih returns
      · cases returns
        trivial
      · exact ih returns
      · cases returns
        exact List.length_take_le _ _

variable {link link' : Link} {call : Call}

theorem within_ask {ready : Ready} (returns : ask call ready link = .returned outcome link') :
    outcome.Within bufLen := by
  rw [ask] at returns
  by_cases full : ibufSize - link.conn.ibuf.length = 0
  · simp only [full, if_true] at returns
    cases returns
    trivial
  · simp only [full, if_false] at returns
    split at returns
    · cases returns
    · cases returns
      trivial
    · cases returns
      trivial
    · split_ifs at returns
      cases returns
      trivial

theorem within_round {turn : Turn}
    (returns : round beyond key call turn link = .returned outcome link') :
    outcome.Within call.bufLen := by
  rw [round] at returns
  cases drained : drain beyond key call.bufLen (link.conn.ibuf.length + 1) link.conn with
  | returned other conn =>
    rw [drained] at returns
    cases returns
    exact within_drain beyond key drained
  | starving conn =>
    rw [drained] at returns
    split_ifs at returns
    · cases returns
      trivial
    · exact within_ask returns

theorem within_loop {turns left : List Turn}
    (returns : loop beyond key call turns link = some (outcome, link', left)) :
    outcome.Within call.bufLen := by
  induction turns generalizing link with
  | nil => cases returns
  | cons turn turns ih =>
    rw [loop] at returns
    cases rounds : round beyond key call turn link with
    | returned other last =>
      rw [rounds] at returns
      cases returns
      exact within_round beyond key rounds
    | again next =>
      rw [rounds] at returns
      exact ih returns

/-- **No result is longer than the buffer of the caller.** -/
theorem length_le_of_positive {calls : List Call} (buffers : ∀ call ∈ calls, call.bufLen = bufLen)
    {turns : List Turn} {link : Link} :
    ∀ bytes ∈ positives (wsReads beyond key calls turns link).1, bytes.length ≤ bufLen := by
  induction calls generalizing turns link with
  | nil => exact fun _ member => absurd member List.not_mem_nil
  | cons call calls ih =>
    rw [wsReads]
    cases returns : wsRead beyond key call turns link with
    | none => exact fun _ member => absurd member List.not_mem_nil
    | some result =>
      obtain ⟨outcome, link', left⟩ := result
      have within : outcome.Within bufLen := by
        rw [wsRead] at returns
        split_ifs at returns
        · exact buffers call List.mem_cons_self ▸ within_loop beyond key returns
        · cases returns
          trivial
      rw [positives_cons, List.forall_mem_append]
      refine ⟨fun bytes member => ?_,
        ih fun other member => buffers other (List.mem_cons_of_mem _ member)⟩
      cases outcome with
      | payload shown =>
        have same : shown = bytes := by
          simp only [positives, nonempty, List.filterMap_cons, List.filterMap_nil] at member
          split_ifs at member <;> simp_all
        exact same ▸ within
      | _ => exact absurd member List.not_mem_nil

end Buffer

/-! ### The timer -/

def timerBuffer : Nat := 4096

/-- A call of the timer: `WsRead(g_handle, buf, 4096, 5)`. -/
def timerCall (start : Nat) : Call := ⟨timerBuffer, 5, start⟩

/-- The frames carry the text, one behind the other. -/
structure Fragments (text : Bytes) (frames : List Frame) : Prop where
  data : ∀ frame ∈ frames, isData frame = true
  whole : frames.flatMap (·.payload) = text

def InOnePiece (text : Bytes) (frames : List Frame) : Prop :=
  ∃ frame ∈ frames, frame.payload = text

/-- What the timer hands to `HandleMessage`: the positive results of its calls, on a connection that
carries the frames. -/
def handled (beyond : Nat → UInt8) (key : Nat → Key) (starts : List Nat) (turns : List Turn)
    (frames : List Frame) : List Bytes :=
  positives (wsReads beyond key (starts.map timerCall) turns ⟨⟨true, [], []⟩, stream frames⟩).1

/-- The timer has read what there is: a call found the end, or waited in vain behind the last byte. -/
def ReadAll (beyond : Nat → UInt8) (key : Nat → Key) (starts : List Nat) (turns : List Turn)
    (frames : List Frame) : Prop :=
  let run := wsReads beyond key (starts.map timerCall) turns ⟨⟨true, [], []⟩, stream frames⟩
  .dead ∈ run.1 ∨ run.1.getLast? = some .nothing ∧ run.2.1.unread = []

section Timer

variable {text : Bytes} {frames : List Frame} (fragments : Fragments text frames)

include fragments

variable {frame : Frame}

theorem Fragments.length_le (member : frame ∈ frames) : frame.payload.length ≤ text.length := by
  obtain ⟨front, back, rfl⟩ := List.append_of_mem member
  have whole := congrArg List.length fragments.whole
  simp only [List.flatMap_append, List.flatMap_cons, List.length_append] at whole
  omega

theorem Fragments.readable (fits : text.length ≤ timerBuffer) (member : frame ∈ frames) :
    Readable (·.payload) timerBuffer frame := by
  have less := fragments.length_le member
  refine ⟨.inl (fragments.data frame member), ?_, fun _ => List.take_of_length_le (less.trans fits),
    fun ping => ?_⟩
  · have size : frame.header.size ≤ 14 := by
      rw [WebSocket.Header.size]
      cases frame.header.length.width <;> simp only [Width.size] <;> split_ifs <;> omega
    rw [frame.length_encode, ibufSize]
    rw [timerBuffer] at fits
    omega
  · have data := fragments.data frame member
    simp [isData, ping] at data

theorem Fragments.payloads_eq (given : text ≠ []) (one : InOnePiece text frames) :
    payloads (·.payload) frames = [text] := by
  obtain ⟨frame, member, same⟩ := one
  obtain ⟨front, back, rfl⟩ := List.append_of_mem member
  have whole := fragments.whole
  rw [List.flatMap_append, List.flatMap_cons, same] at whole
  have lengths := congrArg List.length whole
  simp only [List.length_append] at lengths
  have silent {others : List Frame} (none : (others.flatMap (·.payload)).length = 0) :
      payloads (·.payload) others = [] := by
    rw [List.length_eq_zero_iff, List.flatMap_eq_nil_iff] at none
    rw [payloads, List.filterMap_eq_nil_iff]
    exact fun other inOthers => if_pos (none other (List.mem_filter.mp inOthers).1)
  have before : payloads (·.payload) front = [] := silent (by omega)
  have behind : payloads (·.payload) back = [] := silent (by omega)
  rw [payloads_append, before, List.nil_append, ← List.singleton_append, payloads_append, behind,
    List.append_nil]
  simp [payloads, fragments.data frame member, same, nonempty, given]

variable {beyond : Nat → UInt8} {key : Nat → Key} {starts : List Nat} {turns : List Turn}
  (live : ∀ turn ∈ turns, turn.ready ≠ .reset)

include live

theorem Fragments.results (fits : text.length ≤ timerBuffer) :
    ∃ done rest, Results (·.payload) frames
      (wsReads beyond key (starts.map timerCall) turns ⟨⟨true, [], []⟩, stream frames⟩).1
      (wsReads beyond key (starts.map timerCall) turns ⟨⟨true, [], []⟩, stream frames⟩).2.1 done rest := by
  have holds : Holds ⟨⟨true, [], []⟩, stream frames⟩ frames :=
    ⟨rfl, Nat.zero_le _, fun closed => by cases closed⟩
  refine wsReads_keeps beyond key ?_ live holds ?_
  · simp [timerCall]
  · intro call member frame inFrames
    obtain ⟨start, -, rfl⟩ := List.mem_map.mp member
    exact fragments.readable fits inFrames

/-- **A message is handed over as it is** exactly if it fits the buffer of the timer and comes in one
piece. -/
theorem Fragments.handled_eq_iff (given : text ≠ []) (ended : ReadAll beyond key starts turns frames) :
    handled beyond key starts turns frames = [text] ↔
      text.length ≤ timerBuffer ∧ InOnePiece text frames := by
  constructor
  · intro same
    have fits : text.length ≤ timerBuffer := by
      have buffers : ∀ call ∈ starts.map timerCall, call.bufLen = timerBuffer := by simp [timerCall]
      exact length_le_of_positive beyond key buffers text (same ▸ List.mem_singleton_self _)
    obtain ⟨done, rest, results⟩ := fragments.results live fits
    refine ⟨fits, ?_⟩
    have shown : text ∈ payloads (·.payload) done := by
      rw [← results.positive]
      exact same ▸ List.mem_singleton_self _
    obtain ⟨frame, inDone, shows⟩ := List.mem_filterMap.mp shown
    refine ⟨frame, results.split ▸ List.mem_append_left _ (List.mem_filter.mp inDone).1, ?_⟩
    rw [nonempty] at shows
    split_ifs at shows
    exact Option.some.inj shows
  · rintro ⟨fits, one⟩
    obtain ⟨done, rest, results⟩ := fragments.results live fits
    have none : rest = [] := ended.elim results.dead fun waited => results.waits waited.1 waited.2
    have all : frames = done := by rw [results.split, none, List.append_nil]
    rw [handled, results.positive, ← all, fragments.payloads_eq given one]

end Timer

/-! ### Alerts -/

theorem text_ne_nil (signal : Proto.Signal) : (signalMsg signal).text ≠ [] :=
  List.cons_ne_nil 123 _

/-- **The message of an alert** that ingress publishes, under a trace id that the caller did not bring:
the EA is handed it as it is exactly if it has at most 4096 bytes and is sent in one piece. -/
theorem handled_iff (codec : Proto.Codec) {config : Ingress.Config} {r : Ingress.Request}
    {log : Ingress.Log} {subject payload : Bytes}
    {next : Option Bytes → Program Ingress.Op Ingress.Answer Empty Unit}
    (path : (Ingress.start config (.webhook r)).Path log (.call (.publish subject payload) next))
    (untraced : Ingress.traceIDFromRequest r.header = []) {signal : Proto.Signal}
    (decodes : codec.unmarshal payload = some signal) {frames : List Frame}
    (fragments : Fragments (signalMsg signal).text frames) {beyond : Nat → UInt8} {key : Nat → Key}
    {starts : List Nat} {turns : List Turn} (live : ∀ turn ∈ turns, turn.ready ≠ .reset)
    (ended : ReadAll beyond key starts turns frames) :
    ∃ alert record traceID received, Parser.parse r.body = .ok alert ∧
      signal = Ingress.signalProto alert record config.region traceID r.body received ∧
      (r.contextTraceID = traceID ∨ ⟨.newTraceID, traceID⟩ ∈ log) ∧
      (handled beyond key starts turns frames = [(signalMsg signal).text] ↔
        (signalMsg signal).text.length ≤ 4096 ∧ InOnePiece (signalMsg signal).text frames) := by
  obtain ⟨_, alert, record, traceID, received, alertOf, trace, -, -, encoded, -⟩ :=
    Ingress.relayed_of_path path
  cases alertOf with
  | flat parsed =>
    refine ⟨alert, record, traceID, received, parsed, ?_, ?_,
      fragments.handled_eq_iff live (text_ne_nil signal) ended⟩
    · exact Option.some.inj (decodes.symm.trans (codec.unmarshal_of_marshal encoded))
    · cases trace with
      | brought given same => exact absurd (untraced.symm.trans same).symm given
      | context nothing given same => exact .inl same
      | made nothing without answer => exact .inr answer

/-! ### Two alerts for one terminal -/

def terminalRecord : Ingress.LicenseRecord :=
  { Ingress.plainRecord with platform := lit "mt4" }

/-- The answers of a service whose license belongs to an MT4 terminal. -/
def serving : (op : Ingress.Op) → Ingress.Answer op
  | .lookup licenseID => Ingress.lookupRecord [terminalRecord] licenseID
  | op => Ingress.tracing op

def plainAlert : Parser.Signal where
  licenseID := lit "60123456789"
  command := .buy
  rawCommand := lit "buy"
  symbol := lit "EURUSD"
  params := [⟨.volLots, lit "vol_lots", lit "0.1"⟩]

def plainSignal : Proto.Signal :=
  Ingress.signalProto plainAlert terminalRecord Ingress.plainConfig.region (serving .newTraceID)
    Ingress.plainRequest.body (serving .now)

/-- The call publishes that signal. -/
def publishesPlain : Ingress.Op → Bool
  | .publish _ payload => payload == plainSignal.encode
  | _ => false

theorem called_plain :
    ((Ingress.start Ingress.plainConfig (.webhook Ingress.plainRequest)).calls serving).any
      publishesPlain = true := by
  decide +kernel

def plainFrame : Frame where
  head := 129
  key := none
  width := .medium
  payload := (signalMsg plainSignal).text
  fits := by decide +kernel

/-- The plain alert arrives. -/
theorem handled_iff_plain :
    handled (fun _ => 0) (fun _ => ⟨1, 2, 3, 4⟩) [0, 0]
      [⟨0, .bytes 4096⟩, ⟨0, .timeout⟩, ⟨0, .bytes 0⟩] [plainFrame] = [(signalMsg plainSignal).text] := by
  obtain ⟨log, op, next, path, publishes, -⟩ := Program.Path.to_call serving called_plain
  cases op with
  | publish subject payload =>
    have encoded : payload = plainSignal.encode := eq_of_beq publishes
    have decodes : Proto.Codec.standard.unmarshal payload = some plainSignal :=
      encoded ▸ Proto.decodeSignal_encode plainSignal
    have fragments : Fragments (signalMsg plainSignal).text [plainFrame] :=
      ⟨fun frame member => List.mem_singleton.mp member ▸ rfl, List.append_nil _⟩
    have live : ∀ turn ∈ [⟨0, .bytes 4096⟩, ⟨0, .timeout⟩, (⟨0, .bytes 0⟩ : Turn)],
        turn.ready ≠ .reset := by decide
    have ended : ReadAll (fun _ => 0) (fun _ => ⟨1, 2, 3, 4⟩) [0, 0]
        [⟨0, .bytes 4096⟩, ⟨0, .timeout⟩, ⟨0, .bytes 0⟩] [plainFrame] := .inl (by decide +kernel)
    obtain ⟨_, _, _, _, _, _, _, delivered⟩ :=
      handled_iff Proto.Codec.standard path (by decide +kernel) decodes fragments live ended
    exact delivered.mpr ⟨by decide +kernel, plainFrame, List.mem_singleton_self _, rfl⟩
  | _ => cases publishes

def anglesAlert : Parser.Signal :=
  { plainAlert with symbol := List.replicate 700 60 }

def anglesRequest : Ingress.Request :=
  { Ingress.plainRequest with body := anglesAlert.write }

theorem rules_buy (symbol : Bytes) : Parser.CrossFieldRules .buy symbol [.volLots] := by
  constructor <;> simp <;> decide

theorem parse_angles : Parser.parse anglesRequest.body = .ok anglesAlert := by
  have named : Parser.Named anglesAlert := by
    refine ⟨?_, fun param member => ?_⟩
    · rw [← Parser.lookupName_iff Parser.commandNames Parser.commandNames_nodup]
      decide +kernel
    · rw [List.mem_singleton.mp member,
        ← Parser.lookupName_iff Parser.paramNames Parser.paramNames_nodup]
      decide +kernel
  have writable : Parser.Writable anglesAlert :=
    { license := by decide +kernel
      symbol := by decide +kernel
      values := fun param member => List.mem_singleton.mp member ▸ by decide +kernel
      oneVolume := by decide +kernel
      oneSL := by decide +kernel
      oneTP := by decide +kernel
      oneEntry := by decide +kernel
      shortComment := fun param member comment => by
        rw [List.mem_singleton.mp member] at comment
        cases comment
      rules := rules_buy _ }
  exact Parser.parse_write named writable rfl

theorem called_angles :
    ((Ingress.start Ingress.plainConfig (.webhook anglesRequest)).calls serving).any
      Ingress.isPublish = true := by
  unfold Ingress.start Ingress.webhook Ingress.webhookBody
  simp only [parse_angles]
  decide +kernel

theorem length_escape_angles : (Bridge.escape anglesAlert.symbol).length = 4200 := by decide +kernel

theorem length_escape_le (signal : Proto.Signal) :
    (Bridge.escape signal.symbol).length ≤ (signalMsg signal).text.length := by
  simp only [Bridge.SignalMsg.text, Bridge.member, Bridge.quoted, signalMsg, List.length_append,
    List.length_cons]
  omega

/-- **A message that is cut off**: the body has 729 bytes and is accepted for an MT4 terminal, the message
has more than 4200, and no session hands it to the EA. -/
theorem cut_off :
    anglesRequest.body.length = 729 ∧ Ingress.traceIDFromRequest anglesRequest.header = [] ∧
      ∃ log subject payload next,
        (Ingress.start Ingress.plainConfig (.webhook anglesRequest)).Path log
          (.call (.publish subject payload) next) ∧
        (∀ event ∈ log, event.answer = serving event.op) ∧
        ∀ (codec : Proto.Codec) (signal : Proto.Signal), codec.unmarshal payload = some signal →
          4200 ≤ (signalMsg signal).text.length ∧
          ∀ beyond key starts turns frames,
            (signalMsg signal).text ∉ handled beyond key starts turns frames := by
  obtain ⟨log, subject, payload, next, path, answers⟩ := Ingress.publishes_of_calls serving called_angles
  refine ⟨by decide +kernel, by decide +kernel, log, subject, payload, next, path, answers, ?_⟩
  intro codec signal decodes
  obtain ⟨_, alert, record, traceID, received, alertOf, -, -, -, encoded, -⟩ :=
    Ingress.relayed_of_path path
  have long : 4200 ≤ (signalMsg signal).text.length := by
    have same := Option.some.inj (decodes.symm.trans (codec.unmarshal_of_marshal encoded))
    cases alertOf with
    | flat parsed =>
      cases parse_angles.symm.trans parsed
      have symbol : signal.symbol = anglesAlert.symbol := by rw [same, Ingress.signalProto]
      rw [← length_escape_angles, ← symbol]
      exact length_escape_le signal
  refine ⟨long, fun beyond key starts turns frames member => ?_⟩
  have buffers : ∀ call ∈ starts.map timerCall, call.bufLen = timerBuffer := by simp [timerCall]
  have fits := length_le_of_positive beyond key buffers _ member
  rw [timerBuffer] at fits
  omega

end ExecRelay.MT4
