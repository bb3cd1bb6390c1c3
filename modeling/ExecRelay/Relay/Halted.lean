/-
**Signals while trading is halted.**

An operator halts trading with a POST to the kill switch of ingress. A request reads the switch once,
at the gate, and publishes later; a replay of the portal does not read it at all. So a signal may be
published after the switch has answered `halted=true` and before it is set back. It is not
(`Respected`) in the runs whose steps are `Drained`: trading is halted only when every request that has
passed the gate is answered and every replay is over, no replay begins while it is halted, and it is
resumed only when the halts before are answered.
-/

import ExecRelay.Relay.Replayed

namespace ExecRelay.Relay

open Lib
open Lib.Program (Spec)
open Portal (PortalState PortalLabel)

/-! ### The two services -/

abbrev IngressState (Number Network : Type) :=
  Machine.State (Ingress.World Number Network) Ingress.Input Ingress.Op Ingress.Answer Empty

abbrev IngressLabel (NetworkChange : Type) :=
  Machine.Label Ingress.Input (Ingress.Change NetworkChange) Ingress.Op Ingress.Answer

/-- A call of a request to ingress, or of a replay. -/
inductive Call
  | ingress (input : Ingress.Input) (event : Event Ingress.Op Ingress.Answer)
  | portal (event : Event Portal.Op Portal.Answer)

/-- Ingress and the portal, and the calls of both in the order in which they were made. -/
structure Publishers (Number Network : Type) where
  ingress : IngressState Number Network
  portal : PortalState
  journal : List Call := []

inductive PublishersLabel (NetworkChange : Type)
  | ingress (label : IngressLabel NetworkChange)
  | portal (label : PortalLabel)

section Definitions

variable {Number Network NetworkChange : Type} (limiter : Ingress.Limiter Number)
  (broker : Ingress.Broker Network NetworkChange) (config : Ingress.Config)

def ingressCalls (earlier state : IngressState Number Network) : List Call :=
  (state.since earlier).filterMap fun entry =>
    (state.input entry.thread).map fun input => .ingress input entry.event

def portalCalls (earlier state : PortalState) : List Call :=
  (state.since earlier).map fun entry => .portal entry.event

def Publishers.step (state : Publishers Number Network) :
    PublishersLabel NetworkChange → Option (Publishers Number Network)
  | .ingress label =>
    ((Ingress.machine limiter broker config).step state.ingress label).map fun ingress =>
      { state with
        ingress := ingress
        journal := state.journal ++ ingressCalls state.ingress ingress }
  | .portal label =>
    (Portal.machine.step state.portal label).map fun portal =>
      { state with
        portal := portal
        journal := state.journal ++ portalCalls state.portal portal }

/-! ### The time of a halt -/

def saysHalted (response : Ingress.Response) : Bool :=
  match response.body with
  | .texts fields => fields.lookup (lit "halted") = some (lit "true")
  | .decision _ _ _ => false

/-- A POST to the kill switch answers `halted=true`. -/
def isHaltAnswer : Call → Bool
  | .ingress (.killSwitch r) ⟨.respond response, _⟩ => r.method = lit "POST" && saysHalted response
  | _ => false

/-- The kill switch is set to `halted=false`. -/
def isResumption : Call → Bool
  | .ingress _ ⟨.swapHalted false, _⟩ => true
  | _ => false

def stoppedBy (stopped : Bool) (call : Call) : Bool :=
  (stopped || isHaltAnswer call) && !isResumption call

def isStopped (journal : List Call) : Bool :=
  journal.foldl stoppedBy false

def publishesSignal : Call → Bool
  | .ingress _ event => Ingress.publishesSignal event.op
  | .portal ⟨.publish message, _⟩ => Ingress.isSignalSubject message.subject
  | .portal _ => false

/-- **No signal is published while trading is halted.** -/
def Respected (journal : List Call) : Prop :=
  ∀ front call back, journal = front ++ call :: back → isStopped front = true →
    publishesSignal call = false

/-! ### Draining -/

section Drained

variable (state : IngressState Number Network)

def hasPassed : Event Ingress.Op Ingress.Answer → Bool
  | ⟨.loadHalted, false⟩ => true
  | _ => false

def setsHalted : Event Ingress.Op Ingress.Answer → Bool
  | ⟨.swapHalted true, _⟩ => true
  | _ => false

def isAnswered (index : Nat) : Bool :=
  (state.log index).any fun event => Ingress.isRespond event.op

def isWebhook : Ingress.Input → Bool
  | .killSwitch _ => false
  | _ => true

/-- A request to a webhook that has passed the gate of the kill switch and is not answered. -/
def isUnderway (index : Nat) : Bool :=
  (state.input index).any isWebhook && (state.log index).any hasPassed && !isAnswered state index

def isHalting (index : Nat) : Bool :=
  (state.log index).any setsHalted && !isAnswered state index

def threadsAll (test : Nat → Bool) : Bool :=
  (List.range state.threads.length).all test

end Drained

/-- **The steps of a run that is drained** before it is halted. -/
def isDrained (state : Publishers Number Network) : PublishersLabel NetworkChange → Bool
  | .ingress (.advance index _) =>
    match state.ingress.threads[index]? with
    | some ⟨_, .call (.swapHalted true) _⟩ =>
      threadsAll state.ingress (fun other => !isUnderway state.ingress other) &&
        state.portal.threads.all fun thread => thread.program.isOver
    | some ⟨_, .call (.swapHalted false) _⟩ =>
      threadsAll state.ingress fun other => !isHalting state.ingress other
    | _ => true
  | .portal (.begin _) => !state.ingress.world.halted
  | _ => true

def Drained (state : Publishers Number Network) (label : PublishersLabel NetworkChange) : Prop :=
  isDrained state label = true

instance (state : Publishers Number Network) (label : PublishersLabel NetworkChange) :
    Decidable (Drained state label) :=
  inferInstanceAs (Decidable (_ = true))

end Definitions

/-! ### Journals -/

theorem isStopped_snoc (journal : List Call) (call : Call) :
    isStopped (journal ++ [call]) = stoppedBy (isStopped journal) call := by
  rw [isStopped, List.foldl_append]
  rfl

theorem Respected.snoc {journal : List Call} {call : Call} (respected : Respected journal)
    (fine : isStopped journal = true → publishesSignal call = false) :
    Respected (journal ++ [call]) := by
  intro front other back parts stopped
  rcases List.eq_nil_or_concat back with rfl | ⟨rest, last, rfl⟩
  · obtain ⟨rfl, same⟩ := List.append_inj' parts rfl
    cases same
    exact fine stopped
  · rw [List.concat_eq_append, ← List.cons_append, ← List.append_assoc] at parts
    exact respected front other rest (List.append_inj' parts rfl).1 stopped

/-! ### What the kill switch does -/

section Switch

variable {Number Network NetworkChange : Type} {limiter : Ingress.Limiter Number}
  {broker : Ingress.Broker Network NetworkChange} {config : Ingress.Config}
  {world after : Ingress.World Number Network}

variable {op : Ingress.Op} {thread : Nat} {answer : Ingress.Answer op}

/-- **Only a swap changes the switch.** -/
theorem halted_of_serve (served : Ingress.serve limiter broker world thread op answer = some after) :
    op = .swapHalted after.halted ∨
      (∀ halted, op ≠ .swapHalted halted) ∧ after.halted = world.halted := by
  cases op with
  | swapHalted halted =>
    obtain ⟨-, rfl⟩ := Ingress.exactly_eq_some served
    exact .inl rfl
  | now | loadHalted | allow _ | lookup _ | increment _ _ =>
    obtain ⟨-, rfl⟩ := Ingress.exactly_eq_some served
    exact .inr ⟨nofun, rfl⟩
  | publish _ _ | publishEvent _ _ =>
    obtain ⟨network, -, rfl⟩ := Option.map_eq_some_iff.mp served
    exact .inr ⟨nofun, rfl⟩
  | _ =>
    cases served
    exact .inr ⟨nofun, rfl⟩

theorem swaps_or_halted (served : Ingress.serve limiter broker world thread op answer = some after)
    (halted : after.halted = true) : op = .swapHalted true ∨ world.halted = true := by
  rcases halted_of_serve served with swaps | ⟨-, same⟩
  · exact .inl (halted ▸ swaps)
  · exact .inr (same ▸ halted)

theorem halted_of_not_resumed
    (served : Ingress.serve limiter broker world thread op answer = some after)
    (already : world.halted = true) (notResumed : op ≠ .swapHalted false) :
    after.halted = true := by
  rcases halted_of_serve served with swaps | ⟨-, same⟩
  · rw [← Bool.not_eq_false]
    intro resumed
    exact notResumed (resumed ▸ swaps)
  · exact same.trans already

theorem halted_of_hasPassed
    (served : Ingress.serve limiter broker world thread op answer = some after)
    (passed : hasPassed ⟨op, answer⟩ = true) : after.halted = false := by
  cases op with
  | loadHalted =>
    obtain ⟨same, rfl⟩ := Ingress.exactly_eq_some served
    cases answer with
    | true => cases passed
    | false => exact same.symm
  | _ => cases passed

theorem swaps_of_setsHalted (sets : setsHalted ⟨op, answer⟩ = true) : op = .swapHalted true := by
  cases op with
  | swapHalted halted =>
    cases halted with
    | true => rfl
    | false => cases sets
  | _ => cases sets

theorem halted_of_change {change : Ingress.Change NetworkChange}
    (changed : Ingress.change broker world change = some after) : after.halted = world.halted := by
  cases change with
  | network change =>
    obtain ⟨network, -, rfl⟩ := Option.map_eq_some_iff.mp changed
    rfl
  | _ =>
    cases changed
    rfl

/-- The answer `halted=true` comes behind a swap. -/
def Confirmed (r : Ingress.Request) : Ingress.Op → Ingress.Log → Prop
  | .respond response, log => r.method = lit "POST" → saysHalted response = true →
      log.any setsHalted = true
  | _, _ => True

theorem spec_toggle (r : Ingress.Request) (halted : Bool) :
    (Ingress.toggle config r halted).Spec (Confirmed r) (fun _ _ => True) [] := by
  have confirmed (previous : Bool) (log : Ingress.Log)
      (swapped : ⟨.swapHalted halted, previous⟩ ∈ log) :
      (Ingress.answerTexts 200 [(lit "halted", Ingress.formatBool halted),
        (lit "previous", Ingress.formatBool previous)]).Spec (Confirmed r) (fun _ _ => True) log := by
    refine ⟨fun _ claimed => ?_, fun _ => trivial⟩
    cases halted with
    | true => exact List.any_eq_true.mpr ⟨_, swapped, rfl⟩
    | false => exact absurd claimed (by cases previous <;> decide)
  refine ⟨trivial, fun previous => ?_⟩
  show (if previous ≠ halted then
    Ingress.recordKillSwitchEvent config (Ingress.clientIP r) halted previous >>= fun _ =>
      Ingress.answerTexts 200 _
    else Ingress.answerTexts 200 _).Spec _ _ _
  split
  · unfold Ingress.recordKillSwitchEvent
    split
    · exact ⟨trivial, fun inserted => confirmed previous _ (by simp)⟩
    · exact confirmed previous _ (by simp)
  · exact confirmed previous _ (by simp)

theorem spec_killSwitch (r : Ingress.Request) :
    (Ingress.killSwitch config r).Spec (Confirmed r) (fun _ _ => True) [] := by
  unfold Ingress.killSwitch
  split
  · exact ⟨fun _ claimed => absurd claimed (by decide), fun _ => trivial⟩
  · split
    · exact ⟨fun _ claimed => absurd claimed (by decide), fun _ => trivial⟩
    · split
      · rename_i isGet
        refine ⟨trivial, fun halted => ⟨fun isPost => ?_, fun _ => trivial⟩⟩
        exact absurd (isGet.symm.trans isPost) (by decide)
      · split
        · split
          · exact ⟨fun _ claimed => absurd claimed (by decide), fun _ => trivial⟩
          · exact spec_toggle r _
        · exact ⟨fun _ claimed => absurd claimed (by decide), fun _ => trivial⟩

end Switch

/-! ### Drained runs -/

section Run

variable {Number Network NetworkChange : Type} {limiter : Ingress.Limiter Number}
  {broker : Ingress.Broker Network NetworkChange} {config : Ingress.Config}
  {state next : Publishers Number Network} {label : PublishersLabel NetworkChange}

/-- **What holds in a drained run.** -/
structure Calm (state : Publishers Number Network) : Prop where
  /-- While the switch is on, every request that has passed it is answered. -/
  drained : state.ingress.world.halted = true → ∀ index, isUnderway state.ingress index = false
  /-- While the switch is on, every replay is over. -/
  replays : state.ingress.world.halted = true →
    ∀ thread ∈ state.portal.threads, thread.program.isOver = true
  /-- The switch stays on until a halt is answered. -/
  halting : ∀ index, isHalting state.ingress index = true → state.ingress.world.halted = true
  stopped : isStopped state.journal = true → state.ingress.world.halted = true
  respected : Respected state.journal

section Call

variable {ingress : IngressState Number Network} {world after : Ingress.World Number Network}
  {index other : Nat} {input : Ingress.Input} {op : Ingress.Op}
  {rest : Ingress.Answer op → Program Ingress.Op Ingress.Answer Empty Unit}
  {answer : Ingress.Answer op}

theorem isUnderway_record (found : ingress.threads[index]? = some ⟨input, .call op rest⟩)
    (underway : isUnderway (ingress.record after index ⟨input, rest answer⟩ ⟨op, answer⟩) other =
      true) : isUnderway ingress other = true ∨ hasPassed ⟨op, answer⟩ = true := by
  simp only [isUnderway, isAnswered, Machine.input_record found, Machine.any_log_record,
    Bool.and_eq_true, Bool.or_eq_true, Bool.not_eq_true', Bool.or_eq_false_iff] at underway ⊢
  obtain ⟨⟨webhook, passed⟩, unanswered, -⟩ := underway
  rcases passed with before | ⟨-, now⟩
  · exact .inl ⟨⟨webhook, before⟩, unanswered⟩
  · exact .inr now

theorem isHalting_record (halting : isHalting (ingress.record after index ⟨input, rest answer⟩
    ⟨op, answer⟩) other = true) : isHalting ingress other = true ∨ setsHalted ⟨op, answer⟩ = true := by
  simp only [isHalting, isAnswered, Machine.any_log_record, Bool.and_eq_true, Bool.or_eq_true,
    Bool.not_eq_true', Bool.or_eq_false_iff] at halting ⊢
  obtain ⟨swapped, unanswered, -⟩ := halting
  rcases swapped with before | ⟨-, now⟩
  · exact .inl ⟨before, unanswered⟩
  · exact .inr now

theorem lt_of_isUnderway (underway : isUnderway ingress index = true) :
    index < ingress.threads.length := by
  simp only [isUnderway, Bool.and_eq_true, Option.any_eq_true] at underway
  obtain ⟨⟨⟨input, given, -⟩, -⟩, -⟩ := underway
  obtain ⟨thread, found, -⟩ := Option.map_eq_some_iff.mp given
  exact (List.getElem?_eq_some_iff.mp found).1

variable (reached : (Ingress.machine limiter broker config).Reached (fun _ _ => True) world ingress)

include reached

theorem lt_of_isHalting (halting : isHalting ingress index = true) :
    index < ingress.threads.length := by
  simp only [isHalting, Bool.and_eq_true, List.any_eq_true] at halting
  obtain ⟨⟨event, member, -⟩, -⟩ := halting
  exact Machine.history_lt_of_reaches reached _ (Machine.mem_log.mp member)

theorem isUnderway_spawn (request : Ingress.Input)
    (program : Program Ingress.Op Ingress.Answer Empty Unit) (other : Nat) :
    isUnderway (ingress.spawn after ⟨request, program⟩) other = isUnderway ingress other := by
  by_cases old : other < ingress.threads.length
  · have same : (ingress.spawn after ⟨request, program⟩).input other = ingress.input other := by
      rw [Machine.State.input, Machine.State.spawn, List.getElem?_append_left old]
      rfl
    rw [isUnderway, same]
    rfl
  · have empty : ingress.log other = [] := Machine.log_eq_nil_of_reaches reached (by omega)
    have stillEmpty : (ingress.spawn after ⟨request, program⟩).log other = [] := empty
    simp [isUnderway, empty, stillEmpty]

/-- **A signal is published on behalf of a request that is past the gate.** -/
theorem isUnderway_of_publishes (found : ingress.threads[index]? = some ⟨input, .call op rest⟩)
    (publishes : Ingress.publishesSignal op = true) : isUnderway ingress index = true := by
  have permitted := Ingress.permitted_of_reached reached found
  cases op with
  | publish subject payload =>
    obtain ⟨fresh, r, licenseID, secretValue, record, named, gated, -, -⟩ := permitted
    have given := Machine.input_of_getElem? found
    have webhook : isWebhook input = true := by
      cases input with
      | killSwitch r => cases named
      | _ => rfl
    have passed : (ingress.log index).any hasPassed = true :=
      List.any_eq_true.mpr ⟨_, gated.running, rfl⟩
    have unanswered : isAnswered ingress index = false :=
      List.any_eq_false.mpr fun event member => by simp [fresh.unanswered event member]
    simp [isUnderway, given, webhook, passed, unanswered]
  | publishEvent subject event =>
    have notSignal : Ingress.isSignalSubject subject = false := permitted
    rw [Ingress.publishesSignal, notSignal] at publishes
    cases publishes
  | _ => cases publishes

/-- **The answer `halted=true` is given by a halt.** -/
theorem isHalting_of_isHaltAnswer (found : ingress.threads[index]? = some ⟨input, .call op rest⟩)
    (answers : isHaltAnswer (.ingress input ⟨op, answer⟩) = true) :
    isHalting ingress index = true := by
  cases input with
  | killSwitch r =>
    cases op with
    | respond response =>
      simp only [isHaltAnswer, Bool.and_eq_true, decide_eq_true_eq] at answers
      have path := Machine.path_of_reaches reached index _ found
      have swapped := ((spec_killSwitch r).of_path path).1 answers.1 answers.2
      have first := (Ingress.permitted_of_reached reached found).1
      have unanswered : isAnswered ingress index = false :=
        List.any_eq_false.mpr fun event member => by simp [first event member]
      simp [isHalting, swapped, unanswered]
    | _ => cases answers
  | _ => cases answers

end Call

section Step

variable {index : Nat} {input : Ingress.Input} {op : Ingress.Op}
  {rest : Ingress.Answer op → Program Ingress.Op Ingress.Answer Empty Unit}
  {answer : (op : Ingress.Op) → Ingress.Answer op} {world after : Ingress.World Number Network}

theorem drained_of_halt
    (drained : Drained state (.ingress (.advance index answer) : PublishersLabel NetworkChange))
    (found : state.ingress.threads[index]? = some ⟨input, .call op rest⟩)
    (halts : op = .swapHalted true) :
    (∀ other, isUnderway state.ingress other = false) ∧
      ∀ thread ∈ state.portal.threads, thread.program.isOver = true := by
  subst halts
  simp only [Drained, isDrained, found, threadsAll, Bool.and_eq_true, List.all_eq_true] at drained
  refine ⟨fun other => ?_, drained.2⟩
  rw [Bool.eq_false_iff]
  intro underway
  have none := drained.1 other (List.mem_range.mpr (lt_of_isUnderway underway))
  rw [underway] at none
  cases none

theorem not_isHalting_of_resume
    (reached : (Ingress.machine limiter broker config).Reached (fun _ _ => True) world state.ingress)
    (drained : Drained state (.ingress (.advance index answer) : PublishersLabel NetworkChange))
    (found : state.ingress.threads[index]? = some ⟨input, .call op rest⟩)
    (resumes : op = .swapHalted false) (other : Nat) : isHalting state.ingress other = false := by
  subst resumes
  simp only [Drained, isDrained, found, threadsAll, List.all_eq_true] at drained
  rw [Bool.eq_false_iff]
  intro halting
  have none := drained other (List.mem_range.mpr (lt_of_isHalting reached halting))
  rw [halting] at none
  cases none

/-- **A call of ingress.** -/
theorem Calm.record
    (reached : (Ingress.machine limiter broker config).Reached (fun _ _ => True) world state.ingress)
    (calm : Calm state)
    (drained : Drained state (.ingress (.advance index answer) : PublishersLabel NetworkChange))
    (found : state.ingress.threads[index]? = some ⟨input, .call op rest⟩)
    (served : Ingress.serve limiter broker state.ingress.world index op (answer op) = some after) :
    Calm { state with
      ingress := state.ingress.record after index ⟨input, rest (answer op)⟩ ⟨op, answer op⟩
      journal := state.journal ++ [.ingress input ⟨op, answer op⟩] } := by
  refine ⟨fun halted other => ?_, fun halted => ?_, fun other halting => ?_, fun stopped => ?_,
    calm.respected.snoc fun stopped => ?_⟩
  · have halted : after.halted = true := halted
    rw [Bool.eq_false_iff]
    intro underway
    rcases isUnderway_record found underway with before | passed
    · rcases swaps_or_halted served halted with halts | already
      · rw [(drained_of_halt drained found halts).1 other] at before
        cases before
      · rw [calm.drained already other] at before
        cases before
    · rw [halted_of_hasPassed served passed] at halted
      cases halted
  · rcases swaps_or_halted served halted with halts | already
    · exact (drained_of_halt drained found halts).2
    · exact calm.replays already
  · show after.halted = true
    rcases isHalting_record halting with before | sets
    · refine halted_of_not_resumed served (calm.halting other before) fun resumes => ?_
      rw [not_isHalting_of_resume reached drained found resumes other] at before
      cases before
    · rcases halted_of_serve served with swaps | ⟨noSwap, -⟩
      · rw [swaps_of_setsHalted sets] at swaps
        injection swaps with halted
        exact halted.symm
      · exact absurd (swaps_of_setsHalted sets) (noSwap true)
  · show after.halted = true
    rw [isStopped_snoc, stoppedBy, Bool.and_eq_true, Bool.or_eq_true] at stopped
    obtain ⟨earlier | answers, notResumed⟩ := stopped
    · refine halted_of_not_resumed served (calm.stopped earlier) ?_
      rintro rfl
      cases notResumed
    · refine halted_of_not_resumed served (calm.halting index (isHalting_of_isHaltAnswer reached found answers)) ?_
      rintro rfl
      cases input <;> cases answers
  · rw [Bool.eq_false_iff]
    intro publishes
    have underway := isUnderway_of_publishes reached found publishes
    rw [calm.drained (calm.stopped stopped) index] at underway
    cases underway

/-- **One step of ingress.** -/
theorem Calm.ingress_step {inner : IngressLabel NetworkChange} {ingress : IngressState Number Network}
    (reached : (Ingress.machine limiter broker config).Reached (fun _ _ => True) world state.ingress)
    (calm : Calm state) (drained : Drained state (.ingress inner))
    (moved : (Ingress.machine limiter broker config).step state.ingress inner = some ingress) :
    Calm { state with
      ingress := ingress
      journal := state.journal ++ ingressCalls state.ingress ingress } := by
  rcases Machine.step_cases moved with ⟨input, world, rfl, arrived, rfl⟩ |
    ⟨index, answer, input, op, rest, after, rfl, found, served, rfl⟩ |
    ⟨change, after, rfl, changed, rfl⟩
  · cases arrived
    rw [ingressCalls, Machine.State.since_spawn, List.filterMap_nil, List.append_nil]
    refine ⟨fun halted other => ?_, calm.replays, calm.halting, calm.stopped, calm.respected⟩
    rw [isUnderway_spawn reached]
    exact calm.drained halted other
  · have given := Machine.input_step moved (Machine.input_of_getElem? found)
    rw [ingressCalls, Machine.State.since_record, List.filterMap_cons, given]
    exact calm.record reached drained found served
  · have same := halted_of_change changed
    rw [ingressCalls, Machine.State.since_world, List.filterMap_nil, List.append_nil]
    refine ⟨fun halted => ?_, fun halted => ?_, fun index halting => ?_, fun stopped => ?_,
      calm.respected⟩
    · exact calm.drained (same ▸ halted)
    · exact calm.replays (same ▸ halted)
    · exact same.trans (calm.halting index halting)
    · exact same.trans (calm.stopped stopped)

/-- **One step of the portal**: while the switch is on, no replay is left to take one. -/
theorem Calm.portal_step {inner : PortalLabel} {portal : PortalState} (calm : Calm state)
    (drained : Drained state (.portal inner : PublishersLabel NetworkChange))
    (moved : Portal.machine.step state.portal inner = some portal) :
    Calm { state with
      portal := portal
      journal := state.journal ++ portalCalls state.portal portal } := by
  rcases Machine.step_cases moved with ⟨request, db, rfl, arrived, rfl⟩ |
    ⟨index, answer, request, op, rest, db, rfl, found, served, rfl⟩ | ⟨change, db, rfl, changed, rfl⟩
  · have running : state.ingress.world.halted = false := by
      simpa [Drained, isDrained] using drained
    rw [portalCalls, Machine.State.since_spawn, List.map_nil, List.append_nil]
    refine ⟨calm.drained, fun halted => ?_, calm.halting, calm.stopped, calm.respected⟩
    rw [running] at halted
    cases halted
  · have running : state.ingress.world.halted = false := by
      rw [Bool.eq_false_iff]
      intro halted
      cases calm.replays halted _ (List.mem_of_getElem? found)
    have notStopped : isStopped state.journal = false := by
      rw [Bool.eq_false_iff]
      intro stopped
      rw [calm.stopped stopped] at running
      cases running
    rw [portalCalls, Machine.State.since_record, List.map_singleton]
    refine ⟨calm.drained, fun halted => ?_, calm.halting, fun stopped => ?_,
      calm.respected.snoc fun stopped => ?_⟩
    · rw [running] at halted
      cases halted
    · rw [isStopped_snoc, notStopped] at stopped
      cases stopped
    · rw [notStopped] at stopped
      cases stopped
  · rw [portalCalls, Machine.State.since_world, List.map_nil, List.append_nil]
    exact ⟨calm.drained, calm.replays, calm.halting, calm.stopped, calm.respected⟩

end Step

abbrev DrainedRun (limiter : Ingress.Limiter Number) (broker : Ingress.Broker Network NetworkChange)
    (config : Ingress.Config) (first state : Publishers Number Network) : Prop :=
  Reaches (Publishers.step limiter broker config) Drained first state

/-- **In a drained run no signal is published while trading is halted.** -/
theorem respected_of_drained {world : Ingress.World Number Network} {db : Portal.Database}
    (reached : DrainedRun limiter broker config ⟨{ world := world }, { world := db }, []⟩ state) :
    Respected state.journal := by
  have both : (Ingress.machine limiter broker config).Reached (fun _ _ => True) world state.ingress ∧
      Calm state := by
    refine reached.invariant ⟨Reaches.start, fun _ _ => rfl, nofun, nofun, nofun, ?_⟩ ?_
    · intro front call back parts
      simp at parts
    · intro state label next _ ⟨before, calm⟩ drained stepped
      cases label with
      | ingress inner =>
        obtain ⟨ingress, moved, rfl⟩ := Option.map_eq_some_iff.mp stepped
        exact ⟨before.step trivial moved, calm.ingress_step before drained moved⟩
      | portal inner =>
        obtain ⟨portal, moved, rfl⟩ := Option.map_eq_some_iff.mp stepped
        exact ⟨before, calm.portal_step drained moved⟩
  exact both.2.respected

end Run

/-! ### Two runs -/

open Ingress (obliging oneLicense plainConfig plainLimiter plainRequest reliable)

/-- Ingress with a perimeter token, without which there is no kill switch. -/
def perimeter : Ingress.Config :=
  { plainConfig with perimeterToken := lit "t0k3n" }

def alertRequest : Ingress.Request :=
  { plainRequest with token := lit "t0k3n" }

def switchRequest (wanted : String) : Ingress.Request :=
  { plainRequest with path := lit "/admin/kill-switch", token := lit "t0k3n", state := lit wanted }

def quietMorning : Publishers ℚ Unit where
  ingress := { world := oneLicense () }
  portal := { world := { deskTables with signals := [acceptedRow] } }

def alerting (thread calls : Nat) : List (PublishersLabel Empty) :=
  List.replicate calls (.ingress (.advance thread obliging))

/-- A halt, up to its answer. -/
def halting (thread : Nat) : List (PublishersLabel Empty) :=
  .ingress (.begin (.killSwitch (switchRequest "on"))) :: alerting thread 2

def replayCalls (thread calls : Nat) : List (PublishersLabel Empty) :=
  List.replicate calls (.portal (.advance thread (replaying 1700000060000000000)))

def leaksAt (journal : List Call) (index : Nat) : Bool :=
  isStopped (journal.take index) && journal[index]?.any publishesSignal

theorem not_respected_of_leaksAt {journal : List Call} {index : Nat}
    (leaks : leaksAt journal index = true) : ¬Respected journal := by
  intro respected
  rw [leaksAt, Bool.and_eq_true, Option.any_eq_true] at leaks
  obtain ⟨stopped, call, found, publishes⟩ := leaks
  obtain ⟨inside, rfl⟩ := List.getElem?_eq_some_iff.mp found
  have parts : journal = journal.take index ++ journal[index] :: journal.drop (index + 1) := by
    rw [← List.drop_eq_getElem_cons inside, List.take_append_drop]
  rw [respected _ _ _ parts stopped] at publishes
  cases publishes

/-- A signal is published, and then trading is halted. -/
theorem respected_of_drained_published :
    ∃ state, DrainedRun plainLimiter reliable perimeter quietMorning state ∧
      isStopped state.journal = true ∧ state.journal.any publishesSignal = true ∧
      Respected state.journal := by
  have ran : (run (restrict (Publishers.step plainLimiter reliable perimeter) Drained) quietMorning
      (.ingress (.begin (.webhook alertRequest)) :: alerting 0 8 ++ halting 1)).any
      (fun state => isStopped state.journal && state.journal.any publishesSignal) = true := by
    decide +kernel
  obtain ⟨state, same, facts⟩ := (Option.any_eq_true _ _).mp ran
  rw [Bool.and_eq_true] at facts
  have reached := Reaches.of_restrict _ same
  exact ⟨state, reached, facts.1, facts.2, respected_of_drained reached⟩

/-- **Signals are published after a halt was answered.** A request has passed the gate when trading is
halted, and publishes its signal behind the answer; so does a replay that begins later. -/
theorem not_respected_late :
    ∃ state, Reaches (Publishers.step plainLimiter reliable perimeter) (fun _ _ => True) quietMorning
        state ∧
      leaksAt state.journal 8 = true ∧ leaksAt state.journal 13 = true ∧
      ¬Respected state.journal := by
  have ran : (run (Publishers.step plainLimiter reliable perimeter) quietMorning
      (.ingress (.begin (.webhook alertRequest)) :: alerting 0 6 ++ halting 1 ++ alerting 0 2 ++
        .portal (.begin ⟨1, some 7⟩) :: replayCalls 0 5)).any
      (fun state => leaksAt state.journal 8 && leaksAt state.journal 13) = true := by
    decide +kernel
  obtain ⟨state, same, facts⟩ := (Option.any_eq_true _ _).mp ran
  rw [Bool.and_eq_true] at facts
  exact ⟨state, Reaches.of_run _ same, facts.1, facts.2, not_respected_of_leaksAt facts.1⟩

end ExecRelay.Relay
