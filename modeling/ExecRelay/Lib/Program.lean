/-
**Programs that call operations.**

Stateful code is a `Program`: it ends with a result or an error, or it calls an operation of its
environment and goes on with the answer. What the environment is stays open. These readings are used:

* `outcome` and `calls`: the program under an environment that answers by a function;
* `Path`: what a program may do under any environment, as the log of its calls and their answers;
* `Only`: a program calls allowed operations only, whatever it is answered; `Each` also says what is
  left behind a call, and `OnlyUnder` bounds the answers;
* `Reads`: a program depends on the answers of its readings only, so that two runs with the same readings
  are the same (`Path.same_of_reads`);
* `Spec`: a program calls an operation only where `before` allows it, and ends only where `after`
  does. The rules below follow the shape of a program (`Spec.bind`, `Spec.attempt`,
  `Spec.consequence`), and `Spec.of_path` carries what they prove to every path.
-/

import Mathlib.Logic.Basic

namespace ExecRelay.Lib

/-- An element of a list with one more at its end is the last one, or one of the list. -/
theorem snoc_eq_append_cons {Element : Type} {list front back : List Element} {last element : Element}
    (split : list ++ [last] = front ++ element :: back) :
    (back = [] ∧ front = list ∧ element = last) ∨
      ∃ rest, back = rest ++ [last] ∧ list = front ++ element :: rest := by
  rcases List.eq_nil_or_concat back with rfl | ⟨rest, other, rfl⟩
  · obtain ⟨rfl, single⟩ := List.append_inj' split rfl
    exact .inl ⟨rfl, rfl, (List.singleton_inj.mp single).symm⟩
  · rw [List.concat_eq_append, ← List.cons_append, ← List.append_assoc] at split
    obtain ⟨same, single⟩ := List.append_inj' split rfl
    rw [List.concat_eq_append, List.singleton_inj.mp single]
    exact .inr ⟨rest, rfl, same⟩

/-- A program over the operations `Op`, whose calls are answered in `Answer`. -/
inductive Program (Op : Type) (Answer : Op → Type) (Error Result : Type) : Type
  | done (result : Result)
  | fail (error : Error)
  | call (op : Op) (next : Answer op → Program Op Answer Error Result)

/-- A call with its answer. -/
structure Event (Op : Type) (Answer : Op → Type) where
  op : Op
  answer : Answer op

variable {Op : Type} {Answer : Op → Type} {Error Other Result Value : Type}

namespace Program

def bind : Program Op Answer Error Value → (Value → Program Op Answer Error Result) →
    Program Op Answer Error Result
  | done value, next => next value
  | fail error, _ => fail error
  | call op rest, next => call op fun answer => (rest answer).bind next

instance : Monad (Program Op Answer Error) where
  pure := done
  bind := bind

def perform (op : Op) : Program Op Answer Error (Answer op) :=
  call op done

/-- Run a program to its end, whichever it is: an error becomes a value. -/
def attempt : Program Op Answer Error Value → Program Op Answer Other (Except Error Value)
  | done value => done (.ok value)
  | fail error => done (.error error)
  | call op rest => call op fun answer => (rest answer).attempt

@[simp]
theorem done_bind (value : Value) (next : Value → Program Op Answer Error Result) :
    done value >>= next = next value :=
  rfl

@[simp]
theorem fail_bind (error : Error) (next : Value → Program Op Answer Error Result) :
    fail error >>= next = fail error :=
  rfl

@[simp]
theorem call_bind (op : Op) (rest : Answer op → Program Op Answer Error Value)
    (next : Value → Program Op Answer Error Result) :
    call op rest >>= next = call op fun answer => rest answer >>= next :=
  rfl

@[simp]
theorem perform_bind (op : Op) (next : Answer op → Program Op Answer Error Result) :
    perform op >>= next = call op next :=
  rfl

instance : LawfulMonad (Program Op Answer Error) := by
  refine LawfulMonad.mk' _ (fun program => ?_) (fun _ _ => rfl) fun program next last => ?_
  · induction program with
    | done value => rfl
    | fail error => rfl
    | call op rest ih => exact congrArg (call op) (funext ih)
  · induction program with
    | done value => rfl
    | fail error => rfl
    | call op rest ih => exact congrArg (call op) (funext ih)

def isOver : Program Op Answer Error Result → Bool
  | call _ _ => false
  | _ => true

/-- A program that has ended. -/
def ended : Except Error Result → Program Op Answer Error Result
  | .ok result => done result
  | .error error => fail error

/-! ### One environment -/

section Oracle

variable (answer : (op : Op) → Answer op)

def outcome : Program Op Answer Error Result → Except Error Result
  | done result => .ok result
  | fail error => .error error
  | call op next => (next (answer op)).outcome

theorem outcome_bind (program : Program Op Answer Error Value)
    (next : Value → Program Op Answer Error Result) :
    (program >>= next).outcome answer =
      program.outcome answer >>= fun value => (next value).outcome answer := by
  induction program with
  | done value => rfl
  | fail error => rfl
  | call op rest ih => exact ih (answer op)

def calls : Program Op Answer Error Result → List Op
  | done _ => []
  | fail _ => []
  | call op next => op :: (next (answer op)).calls

/-- **A sequence** makes the calls of its first part, and those of the second if the first succeeds. -/
theorem calls_bind (program : Program Op Answer Error Value)
    (next : Value → Program Op Answer Error Result) :
    (program >>= next).calls answer = program.calls answer ++
      match program.outcome answer with
      | .ok value => (next value).calls answer
      | .error _ => [] := by
  induction program with
  | done value => rfl
  | fail error => rfl
  | call op rest ih =>
    rw [call_bind, calls, ih, calls, outcome, List.cons_append]

end Oracle

/-! ### Every environment -/

/-- `Path program log rest`: the program may make the calls of `log`, and then `rest` is left. -/
inductive Path (program : Program Op Answer Error Result) :
    List (Event Op Answer) → Program Op Answer Error Result → Prop
  | start : Path program [] program
  | step {log : List (Event Op Answer)} {op : Op}
      {next : Answer op → Program Op Answer Error Result} (before : Path program log (call op next))
      (answer : Answer op) : Path program (log ++ [⟨op, answer⟩]) (next answer)

variable {op : Op}

theorem Path.cons {next : Answer op → Program Op Answer Error Result} {answer : Answer op}
    {log : List (Event Op Answer)} {rest : Program Op Answer Error Result}
    (path : (next answer).Path log rest) : (call op next).Path (⟨op, answer⟩ :: log) rest := by
  induction path with
  | start => exact Path.step Path.start answer
  | step _ other ih => exact Path.step ih other

variable {program : Program Op Answer Error Result}

theorem Path.to_call (answer : (op : Op) → Answer op) {test : Op → Bool}
    (called : (program.calls answer).any test = true) :
    ∃ log op next, program.Path log (call op next) ∧ test op = true ∧
      ∀ event ∈ log, event.answer = answer event.op := by
  induction program with
  | done result => cases called
  | fail error => cases called
  | call first next ih =>
    rw [calls, List.any_cons, Bool.or_eq_true] at called
    rcases called with here | later
    · exact ⟨[], first, next, Path.start, here, List.forall_mem_nil _⟩
    · obtain ⟨log, op, rest, path, passes, answers⟩ := ih (answer first) later
      exact ⟨_, op, rest, Path.cons path, passes, List.forall_mem_cons.mpr ⟨rfl, answers⟩⟩

variable {result : Result}

theorem Path.of_outcome (answer : (op : Op) → Answer op)
    (ends : program.outcome answer = .ok result) :
    program.Path ((program.calls answer).map fun op => ⟨op, answer op⟩) (done result) := by
  induction program with
  | done value =>
    cases ends
    exact Path.start
  | fail error => cases ends
  | call op next ih => exact Path.cons (ih (answer op) ends)

/-- One call among them: the calls in front lead to it, and those behind it from its answer to the
end. -/
theorem Path.at_call (answer : (op : Op) → Answer op) (ends : program.outcome answer = .ok result)
    {front back : List Op} (split : program.calls answer = front ++ op :: back) :
    ∃ next, program.Path (front.map fun op => ⟨op, answer op⟩) (call op next) ∧
      (next (answer op)).Path (back.map fun op => ⟨op, answer op⟩) (done result) := by
  induction program generalizing front with
  | done value => exact absurd split (by simp [calls])
  | fail error => cases ends
  | call first next ih =>
    cases front with
    | nil =>
      obtain ⟨rfl, rfl⟩ := split
      exact ⟨next, Path.start, Path.of_outcome answer ends⟩
    | cons head rest =>
      rw [calls, List.cons_append, List.cons.injEq] at split
      obtain ⟨rfl, split⟩ := split
      obtain ⟨later, before, behind⟩ := ih (answer first) ends split
      exact ⟨later, Path.cons before, behind⟩

def Only (allowed : Op → Prop) : Program Op Answer Error Result → Prop
  | done _ => True
  | fail _ => True
  | call op next => allowed op ∧ ∀ answer, (next answer).Only allowed

namespace Only

variable {allowed : Op → Prop}

variable {program : Program Op Answer Error Value}

theorem bind {next : Value → Program Op Answer Error Result} (first : program.Only allowed)
    (second : ∀ value, (next value).Only allowed) : (program >>= next).Only allowed := by
  induction program with
  | done value => exact second value
  | fail error => trivial
  | call op rest ih =>
    refine ⟨first.1, fun answer => ?_⟩
    exact ih answer (first.2 answer)

theorem perform {op : Op} (fine : allowed op) :
    (perform op : Program Op Answer Error (Answer op)).Only allowed :=
  ⟨fine, fun _ => trivial⟩

theorem attempt (only : program.Only allowed) :
    (program.attempt : Program Op Answer Other (Except Error Value)).Only allowed := by
  induction program with
  | done value => trivial
  | fail error => trivial
  | call op rest ih =>
    refine ⟨only.1, fun answer => ?_⟩
    exact ih answer (only.2 answer)

theorem mono {program : Program Op Answer Error Result} {wider : Op → Prop}
    (only : program.Only allowed) (implied : ∀ op, allowed op → wider op) : program.Only wider := by
  induction program with
  | done result => trivial
  | fail error => trivial
  | call op next ih => exact ⟨implied op only.1, fun answer => ih answer (only.2 answer)⟩

theorem of_path {program rest : Program Op Answer Error Result} {log : List (Event Op Answer)}
    (only : program.Only allowed) (path : program.Path log rest) :
    rest.Only allowed ∧ ∀ event ∈ log, allowed event.op := by
  induction path with
  | start => exact ⟨only, fun event member => absurd member List.not_mem_nil⟩
  | step _ answer ih =>
    refine ⟨ih.1.2 answer, fun event member => ?_⟩
    rcases List.mem_append.mp member with earlier | last
    · exact ih.2 event earlier
    · rw [List.mem_singleton.mp last]
      exact ih.1.1

end Only

/-! ### Environments that answer within bounds -/

section Under

variable (answers : (op : Op) → Answer op → Prop)

/-- The program calls allowed operations only, as long as it is answered as `answers` has it. -/
def OnlyUnder (allowed : Op → Prop) : Program Op Answer Error Result → Prop
  | done _ => True
  | fail _ => True
  | call op next => allowed op ∧ ∀ answer, answers op answer → (next answer).OnlyUnder allowed

def Yields (result : Result) : Program Op Answer Error Result → Prop
  | done value => value = result
  | fail _ => False
  | call op next => ∃ answer, answers op answer ∧ (next answer).Yields result

variable {allowed : Op → Prop}

theorem Only.onlyUnder {program : Program Op Answer Error Result} (only : program.Only allowed)
    (answers : (op : Op) → Answer op → Prop) : program.OnlyUnder answers allowed := by
  induction program with
  | done value => trivial
  | fail error => trivial
  | call op next ih => exact ⟨only.1, fun answer _ => ih answer (only.2 answer)⟩

theorem OnlyUnder.mono {wider : Op → Prop} {program : Program Op Answer Error Result}
    (only : program.OnlyUnder answers allowed) (implied : ∀ op, allowed op → wider op) :
    program.OnlyUnder answers wider := by
  induction program with
  | done value => trivial
  | fail error => trivial
  | call op next ih =>
    exact ⟨implied op only.1, fun answer given => ih answer (only.2 answer given)⟩

/-- **A sequence** calls allowed operations only if its first part does, and its second wherever the
first may end. -/
theorem onlyUnder_bind (program : Program Op Answer Error Value)
    (next : Value → Program Op Answer Error Result) :
    (program >>= next).OnlyUnder answers allowed ↔
      program.OnlyUnder answers allowed ∧
        ∀ value, program.Yields answers value → (next value).OnlyUnder answers allowed := by
  induction program with
  | done value => simp [OnlyUnder, Yields]
  | fail error => simp [OnlyUnder, Yields]
  | call op rest ih =>
    rw [call_bind, OnlyUnder, OnlyUnder, and_assoc]
    refine and_congr_right fun _ => ⟨fun every => ⟨fun answer given => ?_, ?_⟩, ?_⟩
    · exact ((ih answer).mp (every answer given)).1
    · rintro value ⟨answer, given, yields⟩
      exact ((ih answer).mp (every answer given)).2 value yields
    · rintro ⟨first, second⟩ answer given
      exact (ih answer).mpr
        ⟨first answer given, fun value yields => second value ⟨answer, given, yields⟩⟩

theorem yields_bind {result : Result} (program : Program Op Answer Error Value)
    (next : Value → Program Op Answer Error Result) :
    (program >>= next).Yields answers result ↔
      ∃ value, program.Yields answers value ∧ (next value).Yields answers result := by
  induction program with
  | done value => simp [Yields]
  | fail error => simp [Yields]
  | call op rest ih =>
    simp only [call_bind, Yields, ih]
    exact ⟨fun ⟨answer, given, value, yields, rest⟩ => ⟨value, ⟨answer, given, yields⟩, rest⟩,
      fun ⟨value, ⟨answer, given, yields⟩, rest⟩ => ⟨answer, given, value, yields, rest⟩⟩

/-- **Every path** that is answered so leads to allowed calls only, and if all of them do, the program
makes no others. -/
theorem onlyUnder_iff (program : Program Op Answer Error Result) :
    program.OnlyUnder answers allowed ↔
      ∀ log op next, program.Path log (call op next) →
        (∀ event ∈ log, answers event.op event.answer) → allowed op := by
  constructor
  · intro only log op next path given
    suffices kept : (call op next).OnlyUnder answers allowed from kept.1
    generalize call op next = rest at path
    induction path with
    | start => exact only
    | step _ answer ih =>
      have earlier := ih fun event member => given event (List.mem_append_left _ member)
      exact earlier.2 answer (given ⟨_, answer⟩ (List.mem_append_right _ (List.mem_singleton.mpr rfl)))
  · intro every
    induction program with
    | done value => trivial
    | fail error => trivial
    | call op next ih =>
      refine ⟨every [] op next .start (fun _ member => absurd member List.not_mem_nil), ?_⟩
      intro answer given
      refine ih answer fun log later rest path fine => ?_
      refine every (⟨op, answer⟩ :: log) later rest path.cons fun event member => ?_
      rcases List.mem_cons.mp member with rfl | earlier
      · exact given
      · exact fine event earlier

end Under

/-- Every call, with what is left of the program behind it, is as `holds` has it. -/
def Each (holds : (op : Op) → (Answer op → Program Op Answer Error Result) → Prop) :
    Program Op Answer Error Result → Prop
  | done _ => True
  | fail _ => True
  | call op next => holds op next ∧ ∀ answer, (next answer).Each holds

theorem Each.of_path {holds : (op : Op) → (Answer op → Program Op Answer Error Result) → Prop}
    {program rest : Program Op Answer Error Result} {log : List (Event Op Answer)}
    (each : program.Each holds) (path : program.Path log rest) : rest.Each holds := by
  induction path with
  | start => exact each
  | step _ answer ih => exact ih.2 answer

/-! ### Taking a path apart -/

section Parts

variable {program : Program Op Answer Error Value} {next : Value → Program Op Answer Error Result}
  {log : List (Event Op Answer)} {rest : Program Op Answer Error Result} {allowed : Op → Prop}

theorem Path.of_bind (path : (program >>= next).Path log rest) :
    (∃ left, program.Path log left ∧ rest = left >>= next) ∨
      ∃ value front back, program.Path front (done value) ∧ log = front ++ back ∧
        (next value).Path back rest := by
  induction path with
  | start => exact .inl ⟨program, Path.start, rfl⟩
  | step _ answer ih =>
    rcases ih with ⟨left, before, same⟩ | ⟨value, front, back, first, rfl, second⟩
    · cases left with
      | done value =>
        refine .inr ⟨value, _, _, before, rfl, ?_⟩
        rw [done_bind] at same
        rw [← same]
        exact Path.step Path.start answer
      | fail error =>
        cases same
      | call other more =>
        cases same
        exact .inl ⟨more answer, Path.step before answer, rfl⟩
    · exact .inr ⟨value, front, _, first, List.append_assoc .., Path.step second answer⟩

variable {result : Result}

theorem Path.done_of_bind (path : (program >>= next).Path log (done result)) :
    ∃ value front back, program.Path front (done value) ∧ log = front ++ back ∧
      (next value).Path back (done result) := by
  rcases path.of_bind with ⟨left, before, same⟩ | second
  · cases left with
    | done value =>
      exact ⟨value, log, [], before, (List.append_nil log).symm, same ▸ Path.start⟩
    | fail error => cases same
    | call op rest => cases same
  · exact second

theorem Path.of_attempt {rest : Program Op Answer Other (Except Error Value)}
    (path : (program.attempt : Program Op Answer Other (Except Error Value)).Path log rest) :
    ∃ left, program.Path log left ∧ rest = left.attempt := by
  induction path with
  | start => exact ⟨program, Path.start, rfl⟩
  | step _ answer ih =>
    obtain ⟨left, before, same⟩ := ih
    cases left with
    | done value => cases same
    | fail error => cases same
    | call other more =>
      cases same
      exact ⟨more answer, Path.step before answer, rfl⟩

theorem Path.of_call {op : Op} {next : Answer op → Program Op Answer Error Result}
    (path : (call op next).Path log rest) :
    (log = [] ∧ rest = call op next) ∨
      ∃ answer later, log = ⟨op, answer⟩ :: later ∧ (next answer).Path later rest := by
  induction path with
  | start => exact .inl ⟨rfl, rfl⟩
  | step _ answer ih =>
    rcases ih with ⟨rfl, same⟩ | ⟨first, later, rfl, after⟩
    · cases same
      exact .inr ⟨answer, [], rfl, Path.start⟩
    · exact .inr ⟨first, _, rfl, Path.step after answer⟩

theorem Path.done_of_call {op : Op} {next : Answer op → Program Op Answer Error Result}
    (path : (call op next).Path log (done result)) :
    ∃ answer later, log = ⟨op, answer⟩ :: later ∧ (next answer).Path later (done result) := by
  rcases path.of_call with ⟨-, impossible⟩ | answered
  · cases impossible
  · exact answered

theorem Path.of_fail {error : Error} (path : (fail error).Path log rest) :
    log = [] ∧ rest = fail error := by
  induction path with
  | start => exact ⟨rfl, rfl⟩
  | step _ _ ih => exact absurd ih.2 (by simp)

theorem Path.of_done (path : (done result).Path log rest) : log = [] ∧ rest = done result := by
  induction path with
  | start => exact ⟨rfl, rfl⟩
  | step _ _ ih => exact absurd ih.2 (by simp)

theorem Path.at_event {program rest : Program Op Answer Error Result}
    {front back : List (Event Op Answer)} {event : Event Op Answer} (path : program.Path log rest)
    (split : log = front ++ event :: back) :
    ∃ next, program.Path front (call event.op next) ∧ (next event.answer).Path back rest := by
  induction path generalizing back with
  | start =>
    have impossible := congrArg List.length split
    rw [List.length_append, List.length_cons, List.length_nil] at impossible
    omega
  | step earlier answer ih =>
    rcases snoc_eq_append_cons split with ⟨rfl, rfl, rfl⟩ | ⟨rest, rfl, same⟩
    · exact ⟨_, earlier, Path.start⟩
    · obtain ⟨next, before, behind⟩ := ih same
      exact ⟨next, before, Path.step behind answer⟩

variable {op : Op} {continuation : Answer op → Program Op Answer Error Result}

theorem Path.past (path : (program >>= next).Path log (call op continuation))
    (only : program.Only allowed) (other : ¬allowed op) :
    ∃ value front back, program.Path front (done value) ∧ log = front ++ back ∧
      (next value).Path back (call op continuation) := by
  rcases path.of_bind with ⟨left, before, same⟩ | second
  · cases left with
    | done value =>
      refine ⟨value, log, [], before, (List.append_nil log).symm, ?_⟩
      rw [same]
      exact Path.start
    | fail error =>
      cases same
    | call first more =>
      cases same
      exact absurd (only.of_path before).1.1 other
  · exact second

theorem Path.within (path : (program >>= next).Path log (call op continuation))
    (only : ∀ value, (next value).Only allowed) (other : ¬allowed op) :
    ∃ inner, program.Path log (call op inner) ∧
      continuation = fun answer => inner answer >>= next := by
  rcases path.of_bind with ⟨left, before, same⟩ | ⟨value, front, back, -, -, second⟩
  · cases left with
    | done value =>
      rw [done_bind] at same
      have fine := only value
      rw [← same] at fine
      exact absurd fine.1 other
    | fail error =>
      cases same
    | call first more =>
      cases same
      exact ⟨more, before, rfl⟩
  · exact absurd ((only value).of_path second).1.1 other

end Parts

/-! ### Two runs -/

section Reads

variable (isReading : Op → Bool)

def Reads : Program Op Answer Error Result → Prop
  | done _ => True
  | fail _ => True
  | call op next =>
    (isReading op = true ∨ ∀ answer other, next answer = next other) ∧
      ∀ answer, (next answer).Reads

/-- The readings of a run. -/
def readings (log : List (Event Op Answer)) : List (Event Op Answer) :=
  log.filter fun event => isReading event.op

variable {isReading}

theorem Reads.bind {program : Program Op Answer Error Value}
    {next : Value → Program Op Answer Error Result} (first : program.Reads isReading)
    (second : ∀ value, (next value).Reads isReading) : (program >>= next).Reads isReading := by
  induction program with
  | done value => exact second value
  | fail error => trivial
  | call op rest ih =>
    refine ⟨first.1.imp id fun constant answer other => ?_, fun answer => ih answer (first.2 answer)⟩
    exact congrArg (Program.bind · next) (constant answer other)

/-- **Two runs with the same readings** make the same calls and end alike. -/
theorem Path.same_of_reads {program : Program Op Answer Error Result} (reads : program.Reads isReading)
    {log otherLog : List (Event Op Answer)} {result otherResult : Result}
    (run : program.Path log (done result)) (otherRun : program.Path otherLog (done otherResult))
    (same : readings isReading log = readings isReading otherLog) :
    log.map Event.op = otherLog.map Event.op ∧ result = otherResult := by
  induction program generalizing log otherLog with
  | done value =>
    obtain ⟨rfl, left⟩ := run.of_done
    obtain ⟨rfl, right⟩ := otherRun.of_done
    cases left
    cases right
    exact ⟨rfl, rfl⟩
  | fail error => cases run.of_fail.2
  | call op next ih =>
    rcases run.of_call with ⟨-, impossible⟩ | ⟨answer, later, rfl, rest⟩
    · cases impossible
    rcases otherRun.of_call with ⟨-, impossible⟩ | ⟨other, otherLater, rfl, otherRest⟩
    · cases impossible
    have here : next answer = next other ∧
        readings isReading later = readings isReading otherLater := by
      by_cases reading : isReading op = true
      · simp only [readings, List.filter_cons, reading, if_true, List.cons.injEq, Event.mk.injEq,
          heq_eq_eq, true_and] at same
        exact ⟨congrArg next same.1, same.2⟩
      · simp only [readings, List.filter_cons, reading] at same
        exact ⟨(reads.1.resolve_left reading) answer other, same⟩
    rw [← here.1] at otherRest
    obtain ⟨ops, results⟩ := ih answer (reads.2 answer) rest otherRest here.2
    exact ⟨by rw [List.map_cons, List.map_cons, ops], results⟩

end Reads

section Spec

variable (before : Op → List (Event Op Answer) → Prop)
  (after : Except Error Result → List (Event Op Answer) → Prop)

/-- The program, started with the log `log`, calls an operation only where `before` holds and ends
only where `after` holds. -/
def Spec : Program Op Answer Error Result → List (Event Op Answer) → Prop
  | done result, log => after (.ok result) log
  | fail error, log => after (.error error) log
  | call op next, log => before op log ∧ ∀ answer, (next answer).Spec (log ++ [⟨op, answer⟩])

end Spec

namespace Spec

variable {before : Op → List (Event Op Answer) → Prop}
  {after : Except Error Result → List (Event Op Answer) → Prop} {log : List (Event Op Answer)}

variable {program : Program Op Answer Error Result}

theorem consequence {weaker : Except Error Result → List (Event Op Answer) → Prop}
    (proved : program.Spec before after log)
    (implied : ∀ result log, after result log → weaker result log) :
    program.Spec before weaker log := by
  induction program generalizing log with
  | done result => exact implied _ _ proved
  | fail error => exact implied _ _ proved
  | call op next ih =>
    refine ⟨proved.1, fun answer => ?_⟩
    exact ih answer (proved.2 answer)

theorem weaken {wider : Op → List (Event Op Answer) → Prop} (proved : program.Spec before after log)
    (implied : ∀ op log, before op log → wider op log) : program.Spec wider after log := by
  induction program generalizing log with
  | done result => exact proved
  | fail error => exact proved
  | call op next ih =>
    refine ⟨implied op log proved.1, fun answer => ?_⟩
    exact ih answer (proved.2 answer)

/-- **A sequence** meets its specification when its second part does wherever the first may end, and
an error of the first is allowed as an error of the whole. -/
theorem bind {program : Program Op Answer Error Value}
    {next : Value → Program Op Answer Error Result}
    {middle : Except Error Value → List (Event Op Answer) → Prop}
    (first : program.Spec before middle log)
    (second : ∀ value log, middle (.ok value) log → (next value).Spec before after log)
    (failed : ∀ error log, middle (.error error) log → after (.error error) log) :
    (program >>= next).Spec before after log := by
  induction program generalizing log with
  | done value => exact second _ _ first
  | fail error => exact failed _ _ first
  | call op rest ih =>
    refine ⟨first.1, fun answer => ?_⟩
    exact ih answer (first.2 answer)

theorem attempt {program : Program Op Answer Error Value}
    {after : Except Other (Except Error Value) → List (Event Op Answer) → Prop}
    (proved : program.Spec before (fun result log => after (.ok result) log) log) :
    (program.attempt : Program Op Answer Other (Except Error Value)).Spec before after log := by
  induction program generalizing log with
  | done value => exact proved
  | fail error => exact proved
  | call op rest ih =>
    refine ⟨proved.1, fun answer => ?_⟩
    exact ih answer (proved.2 answer)

theorem of_only {allowed : Op → Prop} (only : program.Only allowed)
    (fine : ∀ op log, allowed op → before op log) : program.Spec before (fun _ _ => True) log := by
  induction program generalizing log with
  | done result => trivial
  | fail error => trivial
  | call op next ih => exact ⟨fine op log only.1, fun answer => ih answer (only.2 answer)⟩

theorem traced (proved : program.Spec before after log) :
    program.Spec before (fun result later => after result later ∧
      ∃ inner, later = log ++ inner ∧ program.Path inner (ended result)) log := by
  induction program generalizing log with
  | done result => exact ⟨proved, [], by simp, Path.start⟩
  | fail error => exact ⟨proved, [], by simp, Path.start⟩
  | call op next ih =>
    refine ⟨proved.1, fun answer => (ih answer (proved.2 answer)).consequence ?_⟩
    rintro result later ⟨holds, inner, rfl, path⟩
    exact ⟨holds, ⟨op, answer⟩ :: inner, by simp, Path.cons path⟩

/-- **Soundness**: what is left after a path still meets the specification, with the log of the
path. -/
theorem of_path {program rest : Program Op Answer Error Result} {log : List (Event Op Answer)}
    (proved : program.Spec before after []) (path : program.Path log rest) :
    rest.Spec before after log := by
  induction path with
  | start => exact proved
  | step _ answer ih => exact ih.2 answer

theorem before_of_path {program rest : Program Op Answer Error Result}
    {log front back : List (Event Op Answer)} {event : Event Op Answer}
    (proved : program.Spec before after []) (path : program.Path log rest)
    (split : log = front ++ event :: back) : before event.op front := by
  obtain ⟨next, earlier, -⟩ := path.at_event split
  exact (of_path proved earlier).1

end Spec

end Program

end ExecRelay.Lib
