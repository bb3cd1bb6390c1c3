/-
**Concurrent services.**

A service is a `Machine`: inputs arrive, each starts a program of its own, and the programs take their
steps in any order. A step of a program is one call; the world of the service says which answers to it
are possible and what it changes. The world may also change by itself.

`Reaches` are the states of all runs whose steps are allowed, with the rule of invariants. For a
machine the invariants come from three facts about every state that is reached:

* `path_of_reaches`: the calls of a thread are a path of its program;
* `served_of_reaches`: every call was answered by the world of an earlier state;
* `step_cases`: what a single step can do.
-/

import ExecRelay.Lib.Program
import Mathlib.Data.List.Basic

namespace ExecRelay.Lib

/-! ### Runs -/

section Runs

variable {State Label : Type} (step : State → Label → Option State)

/-- The states that are reached by allowed steps. -/
inductive Reaches (allowed : State → Label → Prop) (first : State) : State → Prop
  | start : Reaches allowed first first
  | step {state next : State} {label : Label} (before : Reaches allowed first state)
      (fine : allowed state label) (stepped : step state label = some next) :
      Reaches allowed first next

variable {step} {allowed : State → Label → Prop} {first state : State}

/-- **The rule of invariants.** -/
@[elab_as_elim]
theorem Reaches.invariant {Good : State → Prop} (reached : Reaches step allowed first state)
    (initially : Good first)
    (preserved : ∀ state label next, Reaches step allowed first state → Good state →
      allowed state label → step state label = some next → Good next) : Good state := by
  induction reached with
  | start => exact initially
  | step before fine stepped ih => exact preserved _ _ _ before ih fine stepped

theorem Reaches.mono {wider : State → Label → Prop} (reached : Reaches step allowed first state)
    (implied : ∀ state label, allowed state label → wider state label) :
    Reaches step wider first state := by
  induction reached with
  | start => exact Reaches.start
  | step _ fine stepped ih => exact Reaches.step ih (implied _ _ fine) stepped

variable (step)

def run (state : State) (labels : List Label) : Option State :=
  labels.foldlM step state

def restrict (allowed : State → Label → Prop) [∀ state label, Decidable (allowed state label)]
    (state : State) (label : Label) : Option State :=
  if allowed state label then step state label else none

variable {labels : List Label}

theorem Reaches.of_restrict [∀ state label, Decidable (allowed state label)]
    (ran : run (restrict step allowed) first labels = some state) :
    Reaches step allowed first state := by
  have extends_ (labels : List Label) : ∀ before, Reaches step allowed first before →
      run (restrict step allowed) before labels = some state → Reaches step allowed first state := by
    induction labels with
    | nil =>
      intro before reached same
      cases same
      exact reached
    | cons label rest ih =>
      intro before reached ran
      obtain ⟨next, stepped, ran⟩ := Option.bind_eq_some_iff.mp ran
      rw [restrict] at stepped
      split at stepped
      · rename_i fine
        exact ih next (Reaches.step reached fine stepped) ran
      · cases stepped
  exact extends_ labels first Reaches.start ran

theorem Reaches.of_run (ran : run step first labels = some state) :
    Reaches step (fun _ _ => True) first state := by
  have same : restrict step (fun _ _ => True) = step := by
    funext state label
    rw [restrict, if_pos trivial]
  exact Reaches.of_restrict step (same ▸ ran)

end Runs

/-! ### Machines -/

/-- A service over the calls `Op`. -/
structure Machine (World Input Change Op : Type) (Answer : Op → Type) (Error : Type) where
  /-- The program of an input. -/
  start : Input → Program Op Answer Error Unit
  /-- An input arrives. -/
  arrive : World → Input → Option World
  /-- A thread makes a call and gets an answer. -/
  serve : World → Nat → (op : Op) → Answer op → Option World
  /-- The world changes by itself. -/
  change : World → Change → Option World

namespace Machine

variable {World Input Change Op : Type} {Answer : Op → Type} {Error : Type}

structure Thread (Input Op : Type) (Answer : Op → Type) (Error : Type) where
  input : Input
  /-- What is left of the program. -/
  program : Program Op Answer Error Unit

/-- A call with its answer, and the thread that made it. -/
structure Entry (Op : Type) (Answer : Op → Type) where
  thread : Nat
  event : Event Op Answer

structure State (World Input Op : Type) (Answer : Op → Type) (Error : Type) where
  world : World
  threads : List (Thread Input Op Answer Error) := []
  history : List (Entry Op Answer) := []

inductive Label (Input Change Op : Type) (Answer : Op → Type)
  | begin (input : Input)
  /-- A thread takes its next step; `answer` says what any call of it would be answered. -/
  | advance (thread : Nat) (answer : (op : Op) → Answer op)
  | change (change : Change)

namespace State

variable (state : State World Input Op Answer Error)

/-- The calls of one thread. -/
def log (thread : Nat) : List (Event Op Answer) :=
  (state.history.filter fun entry => entry.thread = thread).map Entry.event

def input (thread : Nat) : Option Input :=
  state.threads[thread]?.map Thread.input

def spawn (world : World) (thread : Thread Input Op Answer Error) :
    State World Input Op Answer Error :=
  { state with world := world, threads := state.threads ++ [thread] }

/-- A thread has made a call. -/
def record (world : World) (index : Nat) (thread : Thread Input Op Answer Error)
    (event : Event Op Answer) : State World Input Op Answer Error where
  world := world
  threads := state.threads.set index thread
  history := state.history ++ [⟨index, event⟩]

def since (earlier : State World Input Op Answer Error) : List (Entry Op Answer) :=
  state.history.drop earlier.history.length

variable {state}

variable {thread : Thread Input Op Answer Error} {world : World} {event : Event Op Answer}
  {index : Nat}

@[simp]
theorem record_world : (state.record world index thread event).world = world := rfl

@[simp]
theorem since_spawn : (state.spawn world thread).since state = [] :=
  List.drop_length

@[simp]
theorem since_record : (state.record world index thread event).since state = [⟨index, event⟩] :=
  List.drop_left

@[simp]
theorem since_world : ({ state with world := world } : State ..).since state = [] :=
  List.drop_length

end State

variable (machine : Machine World Input Change Op Answer Error)

def step (state : State World Input Op Answer Error) :
    Label Input Change Op Answer → Option (State World Input Op Answer Error)
  | .begin input =>
    (machine.arrive state.world input).map fun world =>
      state.spawn world ⟨input, machine.start input⟩
  | .advance index answer =>
    match state.threads[index]? with
    | some ⟨input, .call op next⟩ =>
      (machine.serve state.world index op (answer op)).map fun world =>
        state.record world index ⟨input, next (answer op)⟩ ⟨op, answer op⟩
    | _ => none
  | .change change => (machine.change state.world change).map fun world => { state with world := world }

/-- The states of the machine that starts in a world, without threads. -/
abbrev Reached
    (allowed : State World Input Op Answer Error → Label Input Change Op Answer → Prop)
    (world : World) (state : State World Input Op Answer Error) : Prop :=
  Reaches machine.step allowed { world := world } state

variable {machine}
  {allowed : State World Input Op Answer Error → Label Input Change Op Answer → Prop}
  {state next : State World Input Op Answer Error} {label : Label Input Change Op Answer}
  {world : World}

/-- **What a step can do.** -/
theorem step_cases (stepped : machine.step state label = some next) :
    (∃ input world, label = .begin input ∧ machine.arrive state.world input = some world ∧
      next = state.spawn world ⟨input, machine.start input⟩) ∨
    (∃ index answer input op rest world, label = .advance index answer ∧
      state.threads[index]? = some ⟨input, .call op rest⟩ ∧
      machine.serve state.world index op (answer op) = some world ∧
      next = state.record world index ⟨input, rest (answer op)⟩ ⟨op, answer op⟩) ∨
    (∃ change world, label = .change change ∧ machine.change state.world change = some world ∧
      next = { state with world := world }) := by
  cases label with
  | begin input =>
    obtain ⟨world, admitted, same⟩ := Option.map_eq_some_iff.mp stepped
    exact Or.inl ⟨input, world, rfl, admitted, same.symm⟩
  | advance index answer =>
    simp only [step] at stepped
    split at stepped
    · rename_i input op rest found
      obtain ⟨world, served, same⟩ := Option.map_eq_some_iff.mp stepped
      exact Or.inr (Or.inl ⟨index, answer, input, op, rest, world, rfl, found, served, same.symm⟩)
    · cases stepped
  | change change =>
    obtain ⟨world, changed, same⟩ := Option.map_eq_some_iff.mp stepped
    exact Or.inr (Or.inr ⟨change, world, rfl, changed, same.symm⟩)

/-! ### Threads and their logs -/

variable {index : Nat} {thread : Thread Input Op Answer Error}

theorem input_of_getElem? (found : state.threads[index]? = some thread) :
    state.input index = some thread.input := by
  rw [State.input, found]
  rfl

variable {input : Input}

theorem mem_of_input (given : state.input index = some input) :
    index < state.threads.length ∧ ∃ thread ∈ state.threads, thread.input = input := by
  obtain ⟨thread, found, same⟩ := Option.map_eq_some_iff.mp given
  exact ⟨(List.getElem?_eq_some_iff.mp found).1, thread, List.mem_of_getElem? found, same⟩

theorem input_step (stepped : machine.step state label = some next)
    (known : state.input index = some input) : next.input index = some input := by
  obtain ⟨thread, found, rfl⟩ := Option.map_eq_some_iff.mp known
  rcases step_cases stepped with ⟨_, world, _, _, rfl⟩ |
    ⟨other, answer, given, op, rest, world, _, running, _, rfl⟩ | ⟨_, world, _, _, rfl⟩
  · have old := (List.getElem?_eq_some_iff.mp found).1
    rw [State.input, State.spawn, List.getElem?_append_left old, found]
    rfl
  · rw [State.input, State.record, List.getElem?_set]
    split
    · rename_i same
      subst same
      rw [running] at found
      cases found
      rw [if_pos (List.getElem?_eq_some_iff.mp running).1]
      rfl
    · rw [found]
      rfl
  · exact known

theorem log_record (index other : Nat) (thread : Thread Input Op Answer Error)
    (event : Event Op Answer) :
    (state.record world index thread event).log other =
      state.log other ++ if index = other then [event] else [] := by
  rw [State.log, State.record, List.filter_append, List.map_append]
  by_cases same : index = other
  · rw [if_pos same, List.filter_cons_of_pos (by simpa using same)]
    rfl
  · rw [if_neg same, List.filter_cons_of_neg (by simpa using same)]
    rfl

theorem mem_log_record {index other : Nat} {event given : Event Op Answer} :
    given ∈ (state.record world index thread event).log other ↔
      given ∈ state.log other ∨ (index = other ∧ given = event) := by
  rw [log_record, List.mem_append]
  split
  · rename_i same
    simp [same]
  · rename_i different
    simp [different]

variable {event : Event Op Answer}

theorem any_log_record {index other : Nat} (test : Event Op Answer → Bool) :
    ((state.record world index thread event).log other).any test =
      ((state.log other).any test || (index = other && test event)) := by
  rw [log_record, List.any_append]
  split
  · rename_i same
    simp [same]
  · rename_i different
    simp [different]

theorem input_record {old new : Thread Input Op Answer Error}
    (found : state.threads[index]? = some old) (same : new.input = old.input) (other : Nat) :
    (state.record world index new event).input other = state.input other := by
  rw [State.input, State.input, State.record, List.getElem?_set]
  split
  · rename_i equal
    subst equal
    rw [found, if_pos (List.getElem?_eq_some_iff.mp found).1, Option.map_some, Option.map_some, same]
  · rfl

theorem mem_log : event ∈ state.log index ↔ ⟨index, event⟩ ∈ state.history := by
  rw [State.log, List.mem_map]
  constructor
  · rintro ⟨entry, inside, rfl⟩
    obtain ⟨member, same⟩ := List.mem_filter.mp inside
    rw [decide_eq_true_eq] at same
    rw [← same]
    exact member
  · intro member
    exact ⟨⟨index, event⟩, List.mem_filter.mpr ⟨member, by simp⟩, rfl⟩

theorem log_step (stepped : machine.step state label = some next) (index : Nat) :
    ∃ more, next.log index = state.log index ++ more := by
  rcases step_cases stepped with ⟨input, world, _, _, rfl⟩ |
    ⟨other, answer, input, op, rest, world, _, _, _, rfl⟩ | ⟨change, world, _, _, rfl⟩
  · exact ⟨[], by rw [List.append_nil]; rfl⟩
  · exact ⟨_, log_record other index _ _⟩
  · exact ⟨[], by rw [List.append_nil]; rfl⟩

theorem mem_log_step (stepped : machine.step state label = some next)
    (member : event ∈ state.log index) : event ∈ next.log index := by
  obtain ⟨more, longer⟩ := log_step stepped index
  rw [longer]
  exact List.mem_append_left _ member

/-- **A thread that is over stays as it is.** -/
theorem over_step (stepped : machine.step state label = some next)
    (found : state.threads[index]? = some thread) (ended : thread.program.isOver = true) :
    next.threads[index]? = some thread ∧ next.log index = state.log index := by
  rcases step_cases stepped with ⟨input, world, _, _, rfl⟩ |
    ⟨other, answer, input, op, rest, world, _, running, _, rfl⟩ | ⟨change, world, _, _, rfl⟩
  · refine ⟨?_, rfl⟩
    rw [State.spawn, List.getElem?_append_left (List.getElem?_eq_some_iff.mp found).1]
    exact found
  · have different : other ≠ index := by
      rintro rfl
      cases running.symm.trans found
      cases ended
    refine ⟨?_, ?_⟩
    · rw [State.record, List.getElem?_set_ne different]
      exact found
    · rw [log_record, if_neg different, List.append_nil]
  · exact ⟨found, rfl⟩

theorem history_lt_of_reaches (reached : machine.Reached allowed world state) :
    ∀ entry ∈ state.history, entry.thread < state.threads.length := by
  refine reached.invariant (fun entry member => absurd member List.not_mem_nil) ?_
  intro state label next _ within _ stepped
  rcases step_cases stepped with ⟨input, world, _, _, rfl⟩ |
    ⟨index, answer, input, op, rest, world, _, found, _, rfl⟩ | ⟨change, world, _, _, rfl⟩
  · intro entry member
    have shorter := within entry member
    rw [State.spawn, List.length_append]
    omega
  · intro entry member
    rw [State.record, List.length_set]
    rcases List.mem_append.mp member with earlier | last
    · exact within entry earlier
    · rw [List.mem_singleton.mp last]
      exact (List.getElem?_eq_some_iff.mp found).1
  · exact within

theorem log_eq_nil_of_reaches (reached : machine.Reached allowed world state) {index : Nat}
    (notBegun : state.threads.length ≤ index) : state.log index = [] := by
  rw [State.log, List.map_eq_nil_iff, List.filter_eq_nil_iff]
  intro entry member
  have before := history_lt_of_reaches reached entry member
  rw [decide_eq_true_eq]
  omega

theorem getElem?_spawn {new thread : Thread Input Op Answer Error}
    (found : (state.spawn world new).threads[index]? = some thread) :
    state.threads[index]? = some thread ∨ (index = state.threads.length ∧ thread = new) := by
  rw [State.spawn] at found
  rcases Nat.lt_or_ge index state.threads.length with old | last
  · rw [List.getElem?_append_left old] at found
    exact Or.inl found
  · rw [List.getElem?_append_right last, List.getElem?_singleton] at found
    split at found
    · injection found with same
      exact Or.inr ⟨by omega, same.symm⟩
    · cases found

theorem getElem?_record {index other : Nat} {new old thread : Thread Input Op Answer Error}
    (known : state.threads[index]? = some old)
    (found : (state.record world index new event).threads[other]? = some thread) :
    (index = other ∧ thread = new) ∨ (index ≠ other ∧ state.threads[other]? = some thread) := by
  rw [State.record, List.getElem?_set] at found
  by_cases same : index = other
  · rw [if_pos same, if_pos (List.getElem?_eq_some_iff.mp known).1] at found
    injection found with found
    exact Or.inl ⟨same, found.symm⟩
  · rw [if_neg same] at found
    exact Or.inr ⟨same, found⟩

theorem getElem?_record_self {new old : Thread Input Op Answer Error}
    (known : state.threads[index]? = some old) :
    (state.record world index new event).threads[index]? = some new :=
  List.getElem?_set_self (List.getElem?_eq_some_iff.mp known).1

theorem getElem?_record_ne {index other : Nat} {new : Thread Input Op Answer Error}
    (different : index ≠ other) :
    (state.record world index new event).threads[other]? = state.threads[other]? :=
  List.getElem?_set_ne different

theorem input_of_step (stepped : machine.step state label = some next)
    (known : next.input index = some input) :
    state.input index = some input ∨ (label = .begin input ∧ index = state.threads.length) := by
  obtain ⟨thread, found, rfl⟩ := Option.map_eq_some_iff.mp known
  rcases step_cases stepped with ⟨input, world, rfl, _, rfl⟩ |
    ⟨other, answer, given, op, rest, world, _, running, _, rfl⟩ | ⟨_, world, _, _, rfl⟩
  · rcases getElem?_spawn found with old | ⟨last, rfl⟩
    · exact Or.inl (by rw [State.input, old]; rfl)
    · exact Or.inr ⟨rfl, last⟩
  · rcases getElem?_record running found with ⟨rfl, rfl⟩ | ⟨_, old⟩
    · exact Or.inl (by rw [State.input, running]; rfl)
    · exact Or.inl (by rw [State.input, old]; rfl)
  · exact Or.inl known

theorem mem_log_of_step (stepped : machine.step state label = some next)
    (member : event ∈ next.log index) :
    event ∈ state.log index ∨
      ∃ input rest, state.threads[index]? = some ⟨input, .call event.op rest⟩ ∧
        machine.serve state.world index event.op event.answer = some next.world := by
  rcases step_cases stepped with ⟨input, world, _, _, rfl⟩ |
    ⟨other, answer, given, op, rest, world, _, running, served, rfl⟩ | ⟨_, world, _, _, rfl⟩
  · exact Or.inl member
  · rcases mem_log_record.mp member with old | ⟨rfl, rfl⟩
    · exact Or.inl old
    · exact Or.inr ⟨given, rest, running, served⟩
  · exact Or.inl member

/-- **The rule for threads.** A fact about the world, the input, the calls and the rest of a thread
holds of every thread if it holds where a thread begins, is kept by the steps of the thread and is kept
by the steps of all others. -/
@[elab_as_elim]
theorem threads_invariant
    {motive : World → Input → List (Event Op Answer) → Program Op Answer Error Unit → Prop}
    (reached : machine.Reached allowed world state)
    (begun : ∀ before input after, machine.arrive before input = some after →
      motive after input [] (machine.start input))
    (advanced : ∀ state index answer input op rest after, machine.Reached allowed world state →
      allowed state (.advance index answer) →
      state.threads[index]? = some ⟨input, .call op rest⟩ →
      machine.serve state.world index op (answer op) = some after →
      motive state.world input (state.log index) (.call op rest) →
      motive after input (state.log index ++ [⟨op, answer op⟩]) (rest (answer op)))
    (stable : ∀ state label next index thread, machine.Reached allowed world state →
      allowed state label → machine.step state label = some next →
      state.threads[index]? = some thread →
      motive state.world thread.input (state.log index) thread.program →
      motive next.world thread.input (state.log index) thread.program) :
    ∀ (index : Nat) (thread : Thread Input Op Answer Error), state.threads[index]? = some thread →
      motive state.world thread.input (state.log index) thread.program := by
  refine reached.invariant (fun index thread found => ?_) ?_
  · cases found
  · intro state label next reached good fine stepped
    rcases step_cases stepped with ⟨input, world, _, admitted, rfl⟩ |
      ⟨index, answer, input, op, rest, world, rfl, found, served, rfl⟩ | ⟨change, world, _, _, rfl⟩
    · intro index thread given
      rcases getElem?_spawn given with old | ⟨rfl, rfl⟩
      · exact stable state label _ index thread reached fine stepped old (good index thread old)
      · have empty : (state.spawn world ⟨input, machine.start input⟩).log state.threads.length = [] :=
          log_eq_nil_of_reaches reached (Nat.le_refl _)
        rw [empty]
        exact begun _ input world admitted
    · intro other thread given
      rw [log_record]
      rcases getElem?_record found given with ⟨rfl, rfl⟩ | ⟨different, old⟩
      · rw [if_pos rfl]
        exact advanced state index answer input op rest world reached fine found served
          (good index _ found)
      · rw [if_neg different, List.append_nil]
        exact stable state _ _ other thread reached fine stepped old (good other thread old)
    · intro index thread old
      exact stable state label _ index thread reached fine stepped old (good index thread old)

/-- **The calls of a thread are a path of its program.** -/
theorem path_of_reaches (reached : machine.Reached allowed world state) :
    ∀ (index : Nat) (thread : Thread Input Op Answer Error), state.threads[index]? = some thread →
      (machine.start thread.input).Path (state.log index) thread.program :=
  threads_invariant reached (fun _ _ _ _ => Program.Path.start)
    (fun _ _ answer _ op _ _ _ _ _ _ path => Program.Path.step path (answer op))
    fun _ _ _ _ _ _ _ _ _ path => path

/-- **Every call was permitted where it was made.** -/
theorem before_of_reaches (reached : machine.Reached allowed world state)
    (given : state.input index = some input) {before : Op → List (Event Op Answer) → Prop}
    {after : Except Error Unit → List (Event Op Answer) → Prop}
    (spec : (machine.start input).Spec before after []) (member : event ∈ state.log index) :
    ∃ front back, state.log index = front ++ event :: back ∧ before event.op front := by
  obtain ⟨thread, found, same⟩ := Option.map_eq_some_iff.mp given
  have path := path_of_reaches reached index thread found
  rw [same] at path
  obtain ⟨front, back, split⟩ := List.append_of_mem member
  exact ⟨front, back, split, spec.before_of_path path split⟩

/-- **Every call was answered by the world** of a state reached before. -/
theorem served_of_reaches (reached : machine.Reached allowed world state) :
    ∀ entry ∈ state.history, ∃ before after,
      machine.serve before entry.thread entry.event.op entry.event.answer = some after := by
  refine reached.invariant (fun entry member => absurd member List.not_mem_nil) ?_
  intro state label next _ served _ stepped
  rcases step_cases stepped with ⟨input, world, _, _, rfl⟩ |
    ⟨index, answer, input, op, rest, world, _, found, answered, rfl⟩ | ⟨change, world, _, _, rfl⟩
  · exact served
  · intro entry member
    rcases List.mem_append.mp member with earlier | last
    · exact served entry earlier
    · rw [List.mem_singleton.mp last]
      exact ⟨state.world, world, answered⟩
  · exact served

end Machine

end ExecRelay.Lib
