/-
**Answers while NATS is lost.**

The publisher of the service is a client of NATS that reconnects (`Nats.Network`), so that `Publish`
returns before the server has the message. What an answer promises (`Truthful`), that an accepted
signal is in the stream and that a request which met an outage has failed for good, therefore holds in
the runs whose steps are `Calm`: a signal is published while NATS is up or is refused, it is answered
when it has left the buffer, and no connection is lost with a signal in the buffer.
-/

import ExecRelay.Ingress.Gates
import ExecRelay.Nats.Client

namespace ExecRelay.Ingress

open Lib
open Nats (Network NetworkChange Outgoing Attempt)

/-! ### The service behind NATS -/

section Nats

variable {Number : Type} (limiter : Limiter Number) (isFull : List (Outgoing Payload) → Bool)

/-- The `NatsPublisher`. -/
def natsBroker : Broker (Network Payload) NetworkChange where
  publish := fun network sender subject payload error =>
    if error = network.publishError isFull then some (network.publish isFull sender subject payload)
    else none
  change := Network.change

abbrev NatsState (Number : Type) :=
  Machine.State (World Number (Network Payload)) Input Op Answer Empty

abbrev NatsLabel :=
  Machine.Label Input (Change NetworkChange) Op Answer

/-- The stream `SIGNALS` stores what is received on the subjects of signals. -/
def signalsStream (network : Network Payload) : List (Outgoing Payload) :=
  network.received.filter fun message => isSignalSubject message.subject

/-- **What the answers promise.** -/
structure Truthful (state : NatsState Number) : Prop where
  /-- The message of a request that was accepted is in the stream. -/
  accepted : ∀ index response, ⟨.respond response, ()⟩ ∈ state.log index →
    response.isAccepted = true →
    ∃ subject payload, ⟨.publish subject payload, none⟩ ∈ state.log index ∧
      ⟨index, subject, .signal payload⟩ ∈ signalsStream state.world.network
  /-- A request that published while NATS was not up is answered with `publish_failed`, and its
  signal is neither received nor on the way. -/
  unreachable : ∀ attempt ∈ state.world.network.attempts, attempt.up = false →
    isSignalSubject attempt.subject = true →
    (∀ response, ⟨.respond response, ()⟩ ∈ state.log attempt.sender →
      response.isPublishFailed = true) ∧
    ∀ message ∈ state.world.network.outgoing ++ state.world.network.received,
      isSignalSubject message.subject = true → message.sender ≠ attempt.sender

/-- **The steps of a calm run.** -/
def isCalm (state : NatsState Number) : NatsLabel → Bool
  | .advance index _ =>
    match state.threads[index]? with
    | some ⟨_, .call (.publish _ _) _⟩ =>
      state.world.network.isUp || (state.world.network.publishError isFull).isSome
    | some ⟨_, .call (.respond _) _⟩ =>
      state.world.network.outgoing.all fun message =>
        message.sender ≠ index || !isSignalSubject message.subject
    | _ => true
  | .change (.network (.lose keep)) =>
    state.world.network.outgoing.zipIdx.all fun indexed =>
      !isSignalSubject indexed.1.subject || keep indexed.2
  | _ => true

def Calm (state : NatsState Number) (label : NatsLabel) : Prop :=
  isCalm isFull state label = true

instance (state : NatsState Number) (label : NatsLabel) : Decidable (Calm isFull state label) :=
  inferInstanceAs (Decidable (_ = true))

end Nats

/-! ### Where the messages are -/

section Accounted

variable {Number : Type} {limiter : Limiter Number} {isFull : List (Outgoing Payload) → Bool}
  {config : Config}

/-- **Every signal is accounted for**, in the buffer or at the server, and so is every refusal. -/
structure Accounted (state : NatsState Number) : Prop where
  sent : ∀ message ∈ state.world.network.outgoing ++ state.world.network.received,
    isSignalSubject message.subject = true → ∃ payload,
      ⟨.publish message.subject payload, none⟩ ∈ state.log message.sender
  held : ∀ index subject payload,
    ⟨.publish subject payload, none⟩ ∈ state.log index →
    ⟨index, subject, .signal payload⟩ ∈ state.world.network.outgoing ++ state.world.network.received
  /-- Behind an answer the message is at the server. -/
  stored : ∀ index subject payload, Answered (state.log index) →
    ⟨.publish subject payload, none⟩ ∈ state.log index →
    ⟨index, subject, .signal payload⟩ ∈ state.world.network.received
  refused : ∀ attempt ∈ state.world.network.attempts, attempt.up = false →
    isSignalSubject attempt.subject = true → ∃ payload error,
      ⟨.publish attempt.subject payload, some error⟩ ∈ state.log attempt.sender

theorem natsBroker_publish {network next : Network Payload} {sender : Nat} {subject : Bytes}
    {payload : Payload} {error : Option Bytes}
    (published : (natsBroker isFull).publish network sender subject payload error = some next) :
    error = network.publishError isFull ∧ next = network.publish isFull sender subject payload := by
  simp only [natsBroker] at published
  split at published
  · rename_i same
    cases published
    exact ⟨same, rfl⟩
  · cases published

namespace Accounted

variable {state : NatsState Number} {world : World Number (Network Payload)}

/-- **A change of the network** that loses no signal leaves every signal accounted for. -/
theorem change {change : NetworkChange} (accounted : Accounted state)
    (signals : ∀ index subject payload error,
      ⟨.publish subject payload, error⟩ ∈ state.log index →
      isSignalSubject subject = true)
    (kept : ∀ keep, change = .lose keep → ∀ message ∈ state.world.network.outgoing,
      isSignalSubject message.subject = true → message ∈ state.world.network.kept keep)
    (changed : state.world.network.change change = some world.network) :
    Accounted { state with world := world } where
  sent := fun message member isSignal =>
    accounted.sent message ((Network.mem_of_change changed message).1 member) isSignal
  held := fun index subject payload published =>
    Network.mem_change changed
      (fun keep lost inside => kept keep lost _ inside (signals index subject payload none published))
      (accounted.held index subject payload published)
  stored := fun index subject payload answered published =>
    (Network.mem_of_change changed _).2 (accounted.stored index subject payload answered published)
  refused := fun attempt member => by
    rw [(Network.change_cases changed).1] at member
    exact accounted.refused attempt member

theorem sent_record (accounted : Accounted state) (index : Nat)
    (thread : Machine.Thread Input Op Answer Empty) (event : Event Op Answer)
    {message : Nats.Outgoing Payload}
    (member : message ∈ state.world.network.outgoing ++ state.world.network.received)
    (isSignal : isSignalSubject message.subject = true) :
    ∃ payload, ⟨.publish message.subject payload, none⟩ ∈
      (state.record world index thread event).log message.sender := by
  obtain ⟨payload, published⟩ := accounted.sent message member isSignal
  exact ⟨payload, Machine.mem_log_record.mpr (Or.inl published)⟩

theorem refused_record (accounted : Accounted state) (index : Nat)
    (thread : Machine.Thread Input Op Answer Empty) (event : Event Op Answer)
    {attempt : Nats.Attempt} (member : attempt ∈ state.world.network.attempts)
    (down : attempt.up = false) (isSignal : isSignalSubject attempt.subject = true) :
    ∃ payload error, ⟨.publish attempt.subject payload, some error⟩ ∈
      (state.record world index thread event).log attempt.sender := by
  obtain ⟨payload, error, published⟩ := accounted.refused attempt member down isSignal
  exact ⟨payload, error, Machine.mem_log_record.mpr (Or.inl published)⟩

/-- A call that does not publish leaves the messages where they are. An answer is given when the
message of the request has left the buffer. -/
theorem record_other {index : Nat} {op : Op} {answer : Answer op}
    (thread : Machine.Thread Input Op Answer Empty) (accounted : Accounted state)
    (signals : ∀ index subject payload error,
      ⟨.publish subject payload, error⟩ ∈ state.log index →
      isSignalSubject subject = true)
    (left : isRespond op = true → ∀ message ∈ state.world.network.outgoing, message.sender = index →
      isSignalSubject message.subject = false)
    (notPublish : ∀ subject payload, op ≠ .publish subject payload)
    (network : world.network = state.world.network) :
    Accounted (state.record world index thread ⟨op, answer⟩) := by
  have old {other : Nat} {subject payload : Bytes} {error : Option Bytes}
      (member : ⟨.publish subject payload, error⟩ ∈
        (state.record world index thread ⟨op, answer⟩).log other) :
      ⟨.publish subject payload, error⟩ ∈ state.log other := by
    rcases Machine.mem_log_record.mp member with earlier | ⟨_, same⟩
    · exact earlier
    · exact absurd (congrArg Event.op same).symm (notPublish subject payload)
  refine ⟨fun message member isSignal => ?_, fun other subject payload published => ?_,
    fun other subject payload answered published => ?_, fun attempt member down isSignal => ?_⟩
  · exact accounted.sent_record index thread _ (network ▸ member) isSignal
  · rw [Machine.State.record_world, network]
    exact accounted.held other subject payload (old published)
  · rw [Machine.State.record_world, network]
    obtain ⟨response, member⟩ := answered
    rcases Machine.mem_log_record.mp member with earlier | ⟨rfl, same⟩
    · exact accounted.stored other subject payload ⟨response, earlier⟩ (old published)
    · -- the answer is given now
      have isSignal := signals index subject payload none (old published)
      have responds : isRespond op = true := by
        rw [show op = .respond response from (congrArg Event.op same).symm]
        rfl
      refine (List.mem_append.mp (accounted.held index subject payload (old published))).resolve_left ?_
      intro waiting
      rw [left responds _ waiting rfl] at isSignal
      cases isSignal
  · exact accounted.refused_record index thread _ (network ▸ member) down isSignal

/-- **A signal is published** while NATS is up, or is refused. -/
theorem record_publish {index : Nat} {subject payload : Bytes}
    (thread : Machine.Thread Input Op Answer Empty) (accounted : Accounted state)
    (fresh : Fresh (state.log index))
    (up : state.world.network.isUp = true ∨ (state.world.network.publishError isFull).isSome = true)
    (network : world.network =
      state.world.network.publish isFull index subject (.signal payload)) :
    Accounted (state.record world index thread
      ⟨.publish subject payload, state.world.network.publishError isFull⟩) := by
  refine ⟨fun message member isSignal => ?_, fun other otherSubject bytes published => ?_,
    fun other otherSubject bytes answered published => ?_, fun attempt member down isSignal => ?_⟩
  · rw [Machine.State.record_world, network, List.mem_append, Network.mem_publish_outgoing] at member
    rcases member with (waiting | ⟨taken, rfl⟩) | received
    · exact accounted.sent_record index thread _ (List.mem_append_left _ waiting) isSignal
    · exact ⟨payload, Machine.mem_log_record.mpr (Or.inr ⟨rfl, by rw [taken]⟩)⟩
    · exact accounted.sent_record index thread _ (List.mem_append_right _ received) isSignal
  · rw [Machine.State.record_world, network, List.mem_append, Network.mem_publish_outgoing]
    rcases Machine.mem_log_record.mp published with earlier | ⟨rfl, same⟩
    · exact (List.mem_append.mp (accounted.held other otherSubject bytes earlier)).imp_left Or.inl
    · injection same with sameOp sameError
      cases sameOp
      exact Or.inl (Or.inr ⟨sameError.symm, rfl⟩)
  · rw [Machine.State.record_world, network]
    obtain ⟨response, responded⟩ := answered
    rcases Machine.mem_log_record.mp responded with earlier | ⟨_, same⟩
    · rcases Machine.mem_log_record.mp published with before | ⟨rfl, _⟩
      · exact accounted.stored other otherSubject bytes ⟨response, earlier⟩ before
      · exact Bool.noConfusion (fresh.unanswered _ earlier)
    · cases congrArg Event.op same
  · rw [Machine.State.record_world, network, Network.mem_publish_attempts] at member
    rcases member with earlier | rfl
    · exact accounted.refused_record index thread _ earlier down isSignal
    · rcases up with up | refused
      · exact absurd (up.symm.trans down) (by decide)
      · obtain ⟨error, same⟩ := Option.isSome_iff_exists.mp refused
        exact ⟨payload, error, Machine.mem_log_record.mpr (Or.inr ⟨rfl, by rw [same]⟩)⟩

theorem record_publishEvent {index : Nat} {subject : Bytes} {event : AuditEvent}
    {error : Option Bytes} (thread : Machine.Thread Input Op Answer Empty)
    (accounted : Accounted state) (notSignal : isSignalSubject subject = false)
    (network : world.network = state.world.network.publish isFull index subject (.event event)) :
    Accounted (state.record world index thread ⟨.publishEvent subject event, error⟩) := by
  have old {other : Nat} {given : Event Op Answer}
      (notEvent : ∀ subject event, given.op ≠ .publishEvent subject event)
      (member : given ∈ (state.record world index thread ⟨.publishEvent subject event, error⟩).log other) :
      given ∈ state.log other := by
    rcases Machine.mem_log_record.mp member with earlier | ⟨_, rfl⟩
    · exact earlier
    · exact absurd rfl (notEvent subject event)
  refine ⟨fun message member isSignal => ?_, fun other otherSubject bytes published => ?_,
    fun other otherSubject bytes answered published => ?_, fun attempt member down isSignal => ?_⟩
  · rw [Machine.State.record_world, network, List.mem_append, Network.mem_publish_outgoing] at member
    rcases member with (waiting | ⟨_, rfl⟩) | received
    · exact accounted.sent_record index thread _ (List.mem_append_left _ waiting) isSignal
    · rw [notSignal] at isSignal
      cases isSignal
    · exact accounted.sent_record index thread _ (List.mem_append_right _ received) isSignal
  · rw [Machine.State.record_world, network, List.mem_append, Network.mem_publish_outgoing]
    have held := accounted.held other otherSubject bytes (old (fun _ _ same => by cases same) published)
    exact (List.mem_append.mp held).imp_left Or.inl
  · rw [Machine.State.record_world, network]
    exact accounted.stored other otherSubject bytes
      (answered.imp fun _ member => old (fun _ _ same => by cases same) member)
      (old (fun _ _ same => by cases same) published)
  · rw [Machine.State.record_world, network, Network.mem_publish_attempts] at member
    rcases member with earlier | rfl
    · exact accounted.refused_record index thread _ earlier down isSignal
    · rw [notSignal] at isSignal
      cases isSignal

end Accounted

variable {state : NatsState Number} {world : World Number (Network Payload)}
  {allowed : NatsState Number → NatsLabel → Prop}

theorem orderly_log (reached : (machine limiter (natsBroker isFull) config).Reached allowed world state)
    {index : Nat} {event : Event Op Answer} (member : event ∈ state.log index) :
    ∃ input, Orderly config input (state.log index) :=
  ⟨_, orderly_of_reached reached
    (List.getElem?_eq_getElem (Machine.history_lt_of_reaches reached _ (Machine.mem_log.mp member)))⟩

theorem isSignalSubject_of_reached
    (reached : (machine limiter (natsBroker isFull) config).Reached allowed world state)
    {index : Nat} {subject payload : Bytes} {error : Option Bytes}
    (published : ⟨.publish subject payload, error⟩ ∈ state.log index) :
    isSignalSubject subject = true := by
  obtain ⟨input, orderly⟩ := orderly_log reached published
  exact orderly.isSignalSubject_of_publish published

theorem accounted_advance
    (reached : (machine limiter (natsBroker isFull) config).Reached allowed world state)
    (accounted : Accounted state) {index : Nat} {input : Input} {op : Op} {answer : (op : Op) → Answer op}
    {rest : Answer op → Program Op Answer Empty Unit} {next : World Number (Network Payload)}
    (found : state.threads[index]? = some ⟨input, .call op rest⟩)
    (calm : Calm isFull state (.advance index answer))
    (served : serve limiter (natsBroker isFull) state.world index op (answer op) = some next) :
    Accounted (state.record next index ⟨input, rest (answer op)⟩ ⟨op, answer op⟩) := by
  have permitted := permitted_of_reached reached found
  rw [Calm, isCalm, found] at calm
  generalize answer op = given at served ⊢
  rcases serve_network limiter (natsBroker isFull) served with
    ⟨subject, payload, error, same, published⟩ | ⟨subject, event, error, same, published⟩ |
    ⟨notPublish, network⟩
  · cases same
    obtain ⟨rfl, network⟩ := natsBroker_publish published
    exact accounted.record_publish _ permitted.1 (Bool.or_eq_true_iff.mp calm) network
  · cases same
    exact accounted.record_publishEvent _ permitted (natsBroker_publish published).2
  · refine accounted.record_other _ (fun _ _ _ _ => isSignalSubject_of_reached reached) ?_ notPublish
      network
    intro responds message member same
    cases op with
    | respond response =>
      have left := List.all_eq_true.mp calm message member
      simpa [same] using left
    | _ => cases responds

/-- **In a calm run every signal is accounted for.** -/
theorem accounted_of_calm
    (reached : (machine limiter (natsBroker isFull) config).Reached (Calm isFull) world state)
    (nothingSent : world.network.outgoing = [] ∧ world.network.received = [] ∧
      world.network.attempts = []) : Accounted state := by
  obtain ⟨outgoing, received, attempts⟩ := nothingSent
  refine reached.invariant ⟨?_, ?_, ?_, ?_⟩ ?_
  · intro message member
    rw [outgoing, received] at member
    exact absurd member List.not_mem_nil
  · exact fun _ _ _ published => absurd published List.not_mem_nil
  · exact fun _ _ _ _ published => absurd published List.not_mem_nil
  · intro attempt member
    rw [attempts] at member
    exact absurd member List.not_mem_nil
  · intro state label next reached accounted calm stepped
    rcases Machine.step_cases stepped with ⟨input, world, _, admitted, rfl⟩ |
      ⟨index, answer, input, op, rest, world, rfl, found, served, rfl⟩ |
      ⟨change, world, rfl, changed, rfl⟩
    · cases admitted
      exact ⟨accounted.sent, accounted.held, accounted.stored, accounted.refused⟩
    · exact accounted_advance reached accounted found calm served
    · cases change with
      | network change =>
        obtain ⟨network, networkChanged, rfl⟩ := Option.map_eq_some_iff.mp changed
        refine accounted.change (fun _ _ _ _ => isSignalSubject_of_reached reached) ?_ networkChanged
        intro keep lost message member isSignal
        rw [lost] at calm
        have kept := List.all_eq_true.mp calm
        obtain ⟨index, inside⟩ := List.mem_iff_getElem?.mp member
        have placed : (message, index) ∈ state.world.network.outgoing.zipIdx :=
          List.mem_zipIdx_iff_getElem?.mpr inside
        refine Network.mem_kept.mpr ⟨index, placed, ?_⟩
        simpa [isSignal] using kept _ placed
      | _ =>
        cases changed
        exact ⟨accounted.sent, accounted.held, accounted.stored, accounted.refused⟩

/-- **In a calm run the answers keep what they promise.** -/
theorem truthful_of_calm
    (reached : (machine limiter (natsBroker isFull) config).Reached (Calm isFull) world state)
    (nothingSent : world.network.outgoing = [] ∧ world.network.received = [] ∧
      world.network.attempts = []) : Truthful state := by
  have accounted := accounted_of_calm reached nothingSent
  refine ⟨fun index response responded isAccepted => ?_, fun attempt member down isSignal =>
    ⟨fun response responded => ?_, fun message inside alsoSignal same => ?_⟩⟩
  · obtain ⟨input, orderly⟩ := orderly_log reached responded
    obtain ⟨subject, payload, published⟩ := (orderly.reports responded).accepted.mp isAccepted
    have stored := accounted.stored index subject payload ⟨response, responded⟩ published
    exact ⟨subject, payload, published,
      List.mem_filter.mpr ⟨stored, orderly.isSignalSubject_of_publish published⟩⟩
  · obtain ⟨payload, error, refused⟩ := accounted.refused attempt member down isSignal
    obtain ⟨input, orderly⟩ := orderly_log reached refused
    exact (orderly.reports responded).failed attempt.subject payload error refused
  · -- a request does not publish twice
    obtain ⟨payload, error, refused⟩ := accounted.refused attempt member down isSignal
    obtain ⟨bytes, published⟩ := accounted.sent message inside alsoSignal
    rw [same] at published
    obtain ⟨input, orderly⟩ := orderly_log reached refused
    have unique := orderly.publish_unique refused isSignal published alsoSignal
    exact Bool.noConfusion (congrArg isPublished unique)

end Accounted

/-! ### Two runs -/

def callsBeforeAnswer : Nat := 7

/-- A request is accepted when its message is at the server, and a second one, during an outage, finds
the buffer full. -/
def calmRun : List NatsLabel :=
  .begin (.webhook plainRequest) :: List.replicate callsBeforeAnswer (.advance 0 obliging) ++
  [.change (.network .receive), .advance 0 obliging, .change (.network .cut),
    .change (.network (.lose fun _ => false)), .begin (.webhook plainRequest)] ++
  List.replicate (callsBeforeAnswer + 1) (.advance 1 fun
    | .publish _ _ => some (lit "nats: outbound buffer limit exceeded")
    | op => obliging op)

theorem truthful_of_calm_outage :
    ∃ state, run (restrict (machine plainLimiter (natsBroker fun _ => true) plainConfig).step
        (Calm fun _ => true)) { world := oneLicense {} } calmRun = some state ∧
      state.threads.length = 2 ∧ Truthful state := by
  have ran : (run (restrict (machine plainLimiter (natsBroker fun _ => true) plainConfig).step
      (Calm fun _ => true)) { world := oneLicense {} } calmRun).any
      (fun state => state.threads.length = 2) = true := by decide +kernel
  obtain ⟨state, same, both⟩ := (Option.any_eq_true _ _).mp ran
  exact ⟨state, same, of_decide_eq_true both,
    truthful_of_calm (Reaches.of_restrict _ same) ⟨rfl, rfl, rfl⟩⟩

/-- The first request is accepted, and its message is lost with the connection. The second is accepted
while the client reconnects, and its message is received afterwards. -/
def outage : List NatsLabel :=
  .begin (.webhook plainRequest) :: List.replicate (callsBeforeAnswer + 1) (.advance 0 obliging) ++
  [.change (.network .cut), .change (.network (.lose fun _ => false)),
    .begin (.webhook plainRequest)] ++
  List.replicate (callsBeforeAnswer + 1) (.advance 1 obliging) ++
  [.change (.network .restore), .change (.network .reconnect), .change (.network .receive)]

def isAcceptance : Event Op Answer → Bool
  | ⟨.respond response, _⟩ => response.isAccepted
  | _ => false

theorem accepted_of_any {log : Log} (found : log.any isAcceptance = true) :
    ∃ response, ⟨.respond response, ()⟩ ∈ log ∧ response.isAccepted = true := by
  obtain ⟨⟨op, answer⟩, member, accepts⟩ := List.any_eq_true.mp found
  cases op with
  | respond response => exact ⟨response, member, accepts⟩
  | _ => cases accepts

/-- **Both promises are broken** by an outage: a signal that was accepted is nowhere, and one that was
published while NATS was down is accepted and stored later. -/
theorem not_truthful_outage :
    ∃ state, run (machine plainLimiter (natsBroker fun _ => false) plainConfig).step
        { world := oneLicense {} } outage = some state ∧ ¬ Truthful state ∧
      (∃ response, ⟨.respond response, ()⟩ ∈ state.log 0 ∧
        response.isAccepted = true) ∧
      (∀ message ∈ state.world.network.outgoing ++ state.world.network.received,
        message.sender ≠ 0) ∧
      (∃ attempt ∈ state.world.network.attempts, attempt.sender = 1 ∧ attempt.up = false) ∧
      (∃ response, ⟨.respond response, ()⟩ ∈ state.log 1 ∧
        response.isAccepted = true) ∧
      ∃ message ∈ signalsStream state.world.network, message.sender = 1 := by
  have ran : (run (machine plainLimiter (natsBroker fun _ => false) plainConfig).step
      { world := oneLicense {} } outage).any (fun state =>
        (state.log 0).any isAcceptance && (state.log 1).any isAcceptance &&
        (state.world.network.outgoing ++ state.world.network.received).all (·.sender ≠ 0) &&
        state.world.network.attempts.any (fun attempt => attempt.sender = 1 ∧ attempt.up = false) &&
        (signalsStream state.world.network).any (·.sender = 1)) = true := by decide +kernel
  obtain ⟨state, same, facts⟩ := (Option.any_eq_true _ _).mp ran
  simp only [Bool.and_eq_true] at facts
  obtain ⟨⟨⟨⟨first, second⟩, gone⟩, attempted⟩, stored⟩ := facts
  have nowhere : ∀ message ∈ state.world.network.outgoing ++ state.world.network.received,
      message.sender ≠ 0 :=
    fun message member => of_decide_eq_true (List.all_eq_true.mp gone message member)
  obtain ⟨response, responded, accepts⟩ := accepted_of_any first
  refine ⟨state, same, fun truthful => ?_, ⟨response, responded, accepts⟩, nowhere,
    by simpa using attempted, accepted_of_any second, by simpa using stored⟩
  obtain ⟨subject, payload, _, inStream⟩ := truthful.accepted 0 response responded accepts
  exact nowhere _ (List.mem_append_right _ (List.mem_of_mem_filter inStream)) rfl

end ExecRelay.Ingress
