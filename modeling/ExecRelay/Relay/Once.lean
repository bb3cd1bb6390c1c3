/-
**Duplicates of a signal.**

persist drops a signal whose license and body it has seen; the bridge has a consumer of its own and
looks at neither. A pair of a license and a body is therefore written to terminals at most once
(`AtMostOnce`) in the runs in which the bridge is given no duplicate (`Deduplicated`): a message is
delivered only if every earlier delivery of its pair is over and has written nothing.
-/

import ExecRelay.Relay.System

namespace ExecRelay.Relay

open Lib
open Bridge (BridgeState Log Permitted)
open Nats (Delivery)

/-! ### What is written -/

def pairOf (config : Bridge.Config) (msg : Delivery) : Option (Bytes × Bytes) :=
  (config.codec.unmarshal msg.data).map fun signal => (signal.licenseId, signal.bodySha256)

def isWritten : Event Bridge.Op Bridge.Answer → Bool
  | ⟨.write _ _, none⟩ => true
  | _ => false

def dispatches (config : Bridge.Config) (state : BridgeState) (thread : Nat) :
    Option (Bytes × Bytes) :=
  match state.input thread with
  | some (.deliver msg) => pairOf config msg
  | _ => none

def writtenPairs (config : Bridge.Config) (state : BridgeState) : List (Bytes × Bytes) :=
  state.history.filterMap fun entry =>
    if isWritten entry.event then dispatches config state entry.thread else none

/-- **A license and body is written at most once.** -/
def AtMostOnce (config : Bridge.Config) (state : BridgeState) : Prop :=
  (writtenPairs config state).Nodup

/-! ### Runs without duplicates -/

def isSilent (state : BridgeState) (index : Nat) : Bool :=
  (match state.threads[index]? with
  | some thread => thread.program.isOver
  | none => false) &&
    (state.log index).all fun event => !isWritten event

/-- Every earlier delivery of the pair of the message is over and has written nothing. -/
def isFirst (config : Bridge.Config) (state : BridgeState) (msg : Delivery) : Bool :=
  (List.range state.threads.length).all fun index =>
    (dispatches config state index).isNone || dispatches config state index ≠ pairOf config msg ||
      isSilent state index

def isDeduplicated {Number : Type} (setup : Setup Number) (state : System Number) : Label → Bool
  | .bridge (.begin (.deliver msg)) => isFirst setup.bridge state.bridge msg
  | _ => true

/-- **The steps of a run without duplicates.** -/
def Deduplicated {Number : Type} (setup : Setup Number) (state : System Number) (label : Label) :
    Prop :=
  isDeduplicated setup state label = true

instance {Number : Type} (setup : Setup Number) (state : System Number) (label : Label) :
    Decidable (Deduplicated setup state label) :=
  inferInstanceAs (Decidable (_ = true))

/-! ### One write per pair -/

section Bridge

variable {config : Bridge.Config} {state next : BridgeState} {label : Bridge.BridgeLabel}

variable {index : Nat}

theorem isSilent_iff : isSilent state index = true ↔
    (∃ thread, state.threads[index]? = some thread ∧ thread.program.isOver = true) ∧
      ∀ event ∈ state.log index, isWritten event = false := by
  rw [isSilent, Bool.and_eq_true, List.all_eq_true]
  cases state.threads[index]? <;> simp

/-- **A silent thread stays silent**: it has no step left. -/
theorem isSilent_step (stepped : (Bridge.machine config).step state label = some next)
    (silent : isSilent state index = true) : isSilent next index = true := by
  rw [isSilent_iff] at silent ⊢
  obtain ⟨⟨thread, found, finished⟩, unwritten⟩ := silent
  obtain ⟨still, sameLog⟩ := Machine.over_step stepped found finished
  refine ⟨⟨thread, still, finished⟩, ?_⟩
  rw [sameLog]
  exact unwritten

/-- **Of two threads with the same pair one is silent.** -/
def Exclusive (config : Bridge.Config) (state : BridgeState) : Prop :=
  ∀ first second pair, first ≠ second → dispatches config state first = some pair →
    dispatches config state second = some pair →
    isSilent state first = true ∨ isSilent state second = true

variable {pair : Bytes × Bytes}

theorem dispatches_of_step (stepped : (Bridge.machine config).step state label = some next)
    (dispatched : dispatches config next index = some pair) :
    dispatches config state index = some pair ∨
      (index = state.threads.length ∧ ∃ msg, label = .begin (.deliver msg) ∧
        pairOf config msg = some pair) := by
  unfold dispatches at dispatched ⊢
  split at dispatched
  · rename_i msg known
    rcases Machine.input_of_step stepped known with old | ⟨begun, last⟩
    · rw [old]
      exact Or.inl dispatched
    · exact Or.inr ⟨last, msg, begun, dispatched⟩
  · cases dispatched

theorem isSilent_of_isFirst {msg : Delivery} (first : isFirst config state msg = true)
    (dispatched : dispatches config state index = some pair) (same : pairOf config msg = some pair) :
    isSilent state index = true := by
  have within : index < state.threads.length := by
    unfold dispatches at dispatched
    split at dispatched
    · rename_i known
      obtain ⟨thread, found, _⟩ := Option.map_eq_some_iff.mp known
      exact (List.getElem?_eq_some_iff.mp found).1
    · cases dispatched
  have checked := List.all_eq_true.mp first index (List.mem_range.mpr within)
  simpa [dispatched, same] using checked

theorem Exclusive.step (exclusive : Exclusive config state)
    (stepped : (Bridge.machine config).step state label = some next)
    (first : ∀ msg, label = .begin (.deliver msg) → isFirst config state msg = true) :
    Exclusive config next := by
  intro left right pair different leftPair rightPair
  rcases dispatches_of_step stepped leftPair with leftOld | ⟨leftNew, msg, begun, given⟩
  · rcases dispatches_of_step stepped rightPair with rightOld | ⟨_, msg, begun, given⟩
    · exact (exclusive left right pair different leftOld rightOld).imp (isSilent_step stepped)
        (isSilent_step stepped)
    · exact Or.inl (isSilent_step stepped (isSilent_of_isFirst (first msg begun) leftOld given))
  · rcases dispatches_of_step stepped rightPair with rightOld | ⟨rightNew, _⟩
    · exact Or.inr (isSilent_step stepped (isSilent_of_isFirst (first msg begun) rightOld given))
    · exact absurd (leftNew.trans rightNew.symm) different

variable {hub : Bridge.Hub}

theorem not_written_twice (reached : (Bridge.machine config).Reached (fun _ _ => True) hub state)
    {first second : Event Bridge.Op Bridge.Answer}
    (both : [first, second].Sublist (state.log index)) (firstWritten : isWritten first = true)
    (secondWritten : isWritten second = true) : False := by
  obtain ⟨front, back, parts, inFront, inBack⟩ := List.cons_sublist_iff.mp both
  obtain ⟨start, rest, rfl⟩ := List.append_of_mem (List.singleton_sublist.mp inBack)
  rw [← List.append_assoc] at parts
  have member : first ∈ state.log index := both.subset List.mem_cons_self
  obtain ⟨⟨input, program⟩, found⟩ : ∃ thread, state.threads[index]? = some thread :=
    ⟨_, List.getElem?_eq_getElem (Machine.history_lt_of_reaches reached _ (Machine.mem_log.mp member))⟩
  have permitted : Bridge.Permitted config input second.op (front ++ start) :=
    (Bridge.spec_start config input).before_of_path
      (Machine.path_of_reaches reached index _ found) parts
  obtain ⟨op, answer⟩ := second
  cases op with
  | write conn out =>
    cases input with
    | connect _ _ => exact permitted
    | deliver msg =>
      have none := permitted.1 first (List.mem_append_left _ inFront)
      obtain ⟨op, answer⟩ := first
      cases op with
      | write _ _ => cases none
      | _ => cases firstWritten
  | _ => cases secondWritten

/-- **Exclusive threads write a pair once.** -/
theorem atMostOnce_of_exclusive
    (reached : (Bridge.machine config).Reached (fun _ _ => True) hub state)
    (exclusive : Exclusive config state) : AtMostOnce config state := by
  rw [AtMostOnce, writtenPairs, List.Nodup, List.pairwise_filterMap, List.pairwise_iff_forall_sublist]
  intro first second both pair firstFound other secondFound samePair
  subst samePair
  obtain ⟨firstWritten, firstPair⟩ := Option.ite_none_right_eq_some.mp firstFound
  obtain ⟨secondWritten, secondPair⟩ := Option.ite_none_right_eq_some.mp secondFound
  have spoken {entry : Machine.Entry Bridge.Op Bridge.Answer} (member : entry ∈ state.history)
      (written : isWritten entry.event = true) : ¬ isSilent state entry.thread = true := by
    intro silent
    rw [(isSilent_iff.mp silent).2 entry.event (Machine.mem_log.mpr member)] at written
    cases written
  by_cases same : first.thread = second.thread
  · have kept := (both.filter fun entry => entry.thread = first.thread).map Machine.Entry.event
    have inLog : [first.event, second.event].Sublist (state.log first.thread) := by
      simpa [same, Machine.State.log] using kept
    exact not_written_twice reached inLog firstWritten secondWritten
  · rcases exclusive _ _ pair same firstPair secondPair with silent | silent
    · exact spoken (both.subset List.mem_cons_self) firstWritten silent
    · exact spoken (both.subset (List.mem_cons_of_mem _ List.mem_cons_self)) secondWritten silent

end Bridge

/-- **Without duplicates a license and body is written at most once**, in every run of the relay. -/
theorem atMostOnce_of_deduplicated {Number : Type} {setup : Setup Number} {first state : System Number}
    {hub : Bridge.Hub} (begins : first.bridge = { world := hub })
    (reached : Reaches (fun state => state.step setup) (Deduplicated setup) first state) :
    AtMostOnce setup.bridge state.bridge := by
  have exclusive : Exclusive setup.bridge state.bridge := by
    refine reached.invariant ?_ ?_
    · intro left _ pair _ dispatched
      rw [begins] at dispatched
      cases dispatched
    · intro state label next _ exclusive deduplicated stepped
      rcases System.bridge_step stepped with same | ⟨own, rfl, bridgeStepped⟩
      · rw [same]
        exact exclusive
      · refine exclusive.step bridgeStepped fun msg begun => ?_
        rw [begun] at deduplicated
        exact deduplicated
  exact atMostOnce_of_exclusive (System.bridge_reached begins reached) exclusive

/-! ### Two runs -/

/-- One license with one terminal. The decoder of first messages is given at the one that is sent. -/
def oneTerminal : Setup ℚ where
  limiter := Ingress.plainLimiter
  isFull := fun _ => false
  ingress := Ingress.plainConfig
  hasPool := true
  bridge :=
    { codec := Proto.Codec.standard
      decodeRegister := fun raw =>
        if raw = Bridge.registerFrame "main" then
          some { type := lit "register", instanceID := lit "main" }
        else none
      decodeType := fun _ => none
      decodeFill := fun _ => none }

def atFirst : System ℚ where
  ingress := { world := Ingress.oneLicense {} }
  persist := { world := { licenses := [⟨1, lit "60123456789", true⟩] } }
  bridge := { world := {} }

def request (thread : Nat) (traceID : String) : List Label :=
  .ingress (.begin (.webhook Ingress.plainRequest)) ::
  List.replicate (Ingress.callsBeforeAnswer + 1) (.ingress (.advance thread fun
    | .newTraceID => lit traceID
    | op => Ingress.obliging op)) ++
  [.ingress (.change (.network .receive))]

def requests : List Label :=
  request 0 "01hf6tqg9rmqk7v3xw0ybcd8ef" ++ request 1 "01hf6tqkz2m4n8p5rs7tvwxy3a"

/-- The data of the messages that the two requests leave in the stream. -/
def storedData (sequence : Nat) : Bytes :=
  match run (fun state => System.step state oneTerminal) atFirst requests with
  | some state => (state.stream[sequence]?.map (·.data)).getD []
  | none => []

/-- The terminal registers. -/
def connection : List Label :=
  .bridge (.begin (.connect (lit "60123456789") [Bridge.registerFrame "main"])) ::
  List.replicate 4 (.bridge (.advance 0 (Bridge.answering 0)))

/-- A message is delivered for the first time, written and acknowledged. -/
def delivery (thread sequence : Nat) : List Label :=
  .bridge (.begin (.deliver ⟨sequence, storedData sequence, some 1⟩)) ::
  List.replicate 3 (.bridge (.advance thread (Bridge.answering 0)))

/-- One of the two messages is delivered. -/
theorem atMostOnce_of_deduplicated_one :
    ∃ state, run (restrict (fun state => System.step state oneTerminal) (Deduplicated oneTerminal))
        atFirst (requests ++ connection ++ delivery 1 0) = some state ∧
      (writtenPairs oneTerminal.bridge state.bridge).length = 1 ∧
      AtMostOnce oneTerminal.bridge state.bridge := by
  have ran : (run (restrict (fun state => System.step state oneTerminal) (Deduplicated oneTerminal))
      atFirst (requests ++ connection ++ delivery 1 0)).any
      (fun state => (writtenPairs oneTerminal.bridge state.bridge).length = 1) = true := by
    decide +kernel
  obtain ⟨state, same, one⟩ := (Option.any_eq_true _ _).mp ran
  exact ⟨state, same, of_decide_eq_true one,
    atMostOnce_of_deduplicated rfl (Reaches.of_restrict _ same)⟩

def persisting : List Label :=
  .persist (.begin ⟨lit "signals.mt5.60123456789.main", storedData 0⟩) ::
  List.replicate 6 (.persist (.advance 0 Persist.working)) ++
  .persist (.begin ⟨lit "signals.mt5.60123456789.main", storedData 1⟩) ::
  List.replicate 4 (.persist (.advance 1 fun
    | .insertFingerprint _ => .ok false
    | op => Persist.working op))

/-- **A retry is dispatched twice.** Two requests with the same body are accepted, persist keeps one
row, and the terminal gets both messages. -/
theorem not_atMostOnce_retry :
    ∃ state, run (fun state => System.step state oneTerminal) atFirst
        (requests ++ connection ++ persisting ++ delivery 1 0 ++ delivery 2 1) = some state ∧
      ¬ AtMostOnce oneTerminal.bridge state.bridge ∧
      (∀ thread ∈ [0, 1], ∃ response,
        ⟨.respond response, ()⟩ ∈ state.ingress.log thread ∧
          response.isAccepted = true) ∧
      state.persist.world.accepted.length = 1 ∧
      (writtenPairs oneTerminal.bridge state.bridge).length = 2 := by
  have ran : (run (fun state => System.step state oneTerminal) atFirst
      (requests ++ connection ++ persisting ++ delivery 1 0 ++ delivery 2 1)).any (fun state =>
        !decide (writtenPairs oneTerminal.bridge state.bridge).Nodup &&
        [0, 1].all (fun thread => (state.ingress.log thread).any Ingress.isAcceptance) &&
        state.persist.world.accepted.length = 1 &&
        (writtenPairs oneTerminal.bridge state.bridge).length = 2) = true := by decide +kernel
  obtain ⟨state, same, facts⟩ := (Option.any_eq_true _ _).mp ran
  simp only [Bool.and_eq_true, decide_eq_true_eq] at facts
  obtain ⟨⟨⟨twice, accepted⟩, one⟩, two⟩ := facts
  refine ⟨state, same, by simpa [AtMostOnce] using twice, fun thread member => ?_, one, two⟩
  exact Ingress.accepted_of_any (List.all_eq_true.mp accepted thread member)

end ExecRelay.Relay
