/-
**Programs that read bytes.**

A decoder that is written with loops reads from buffers, may raise and may not come to an end. A
`Reading` is such a program: told how many turns each of its loops may take, it comes to a value or to
an exception, with the reads that it made on the way, or it has not come to anything yet.
-/

import ExecRelay.Lib.Check
import ExecRelay.Lib.Scan
import ExecRelay.Lib.Wire

namespace ExecRelay.Lib

/-- The bytes from `first` up to `behind`, read from a buffer of `size` bytes. -/
structure Access where
  first : Nat
  behind : Nat
  size : Nat
deriving DecidableEq, Repr

namespace Access

def Inside (access : Access) : Prop :=
  access.first ≤ access.behind ∧ access.behind ≤ access.size

theorem inside_index {pos size : Nat} (inside : pos < size) : Inside ⟨pos, pos + 1, size⟩ :=
  ⟨Nat.le_succ pos, inside⟩

theorem inside_slice {start length size : Nat} (fits : start + length ≤ size) :
    Inside ⟨start, start + length, size⟩ :=
  ⟨Nat.le_add_right start length, fits⟩

end Access

/-- A program that reads: from the number of turns that each loop may take to an outcome and the
reads made, or to nothing as yet. -/
def Reading (Error Value : Type) : Type :=
  Nat → Option (Except Error Value × List Access)

/-- How a turn of a loop ends: with another turn, or with the value of the loop. -/
inductive Turn (State Value : Type) where
  | again (state : State)
  | leave (value : Value)

namespace Reading

variable {Error Value Result State : Type}

def done (value : Value) : Reading Error Value :=
  fun _ => some (.ok value, [])

def raise (error : Error) : Reading Error Value :=
  fun _ => some (.error error, [])

def behind (reads : List Access) (rest : Reading Error Value) : Reading Error Value :=
  fun turns => (rest turns).map fun ended => (ended.1, reads ++ ended.2)

def bind (first : Reading Error Value) (next : Value → Reading Error Result) :
    Reading Error Result :=
  fun turns =>
    match first turns with
    | none => none
    | some (.error error, reads) => some (.error error, reads)
    | some (.ok value, reads) => behind reads (next value) turns

instance : Monad (Reading Error) where
  pure := done
  bind := bind

/-- `data[pos]`; there is nothing to read behind the end. -/
def index (outOfRange : Error) (data : Bytes) (pos : Nat) : Reading Error UInt8 :=
  fun _ =>
    match data[pos]? with
    | some byte => some (.ok byte, [⟨pos, pos + 1, data.length⟩])
    | none => some (.error outOfRange, [])

/-- `data[first:behind]`, which is cut off at the end of the data. -/
def cut (data : Bytes) (first behind : Nat) : Reading Error Bytes :=
  fun _ => some (.ok (slice data first behind), [⟨first, behind, data.length⟩])

/-- `try` and `except`: the program that `handler` has for an exception takes over. -/
def handle (program : Reading Error Value) (handler : Error → Option (Reading Error Value)) :
    Reading Error Value :=
  fun turns =>
    match program turns with
    | some (.error error, reads) =>
      match handler error with
      | some next => behind reads next turns
      | none => some (.error error, reads)
    | other => other

def loopFor (turn : State → Reading Error (Turn State Value)) : Nat → State → Reading Error Value
  | 0, _ => fun _ => none
  | left + 1, state => do
      match ← turn state with
      | .again next => loopFor turn left next
      | .leave value => pure value

/-- `while True`. -/
def loop (turn : State → Reading Error (Turn State Value)) (state : State) : Reading Error Value :=
  fun turns => loopFor turn turns state turns

/-- `while pos < size`. -/
def readWhile (size : Nat) (body : Nat → State → Reading Error (Turn (Nat × State) State))
    (pos : Nat) (state : State) : Reading Error State :=
  loop (fun (here : Nat × State) =>
    if here.1 < size then body here.1 here.2 else pure (.leave here.2)) (pos, state)

/-! ### How a program ends -/

/-- **With `bound` turns or more, the program comes to the outcome**, with allowed reads only. -/
def Ends (allowed : Access → Prop) (bound : Nat) (program : Reading Error Value)
    (outcome : Except Error Value) : Prop :=
  ∀ turns, bound ≤ turns →
    ∃ reads, program turns = some (outcome, reads) ∧ ∀ access ∈ reads, allowed access

namespace Ends

variable {allowed : Access → Prop} {bound : Nat} {program first : Reading Error Value} {outcome : Except Error Value}
  {next : Value → Reading Error Result} {result : Except Error Result} {value : Value} {error : Error}

theorem unique {other : Except Error Value} (ends : Ends allowed bound program outcome)
    (ends' : Ends allowed bound program other) : outcome = other := by
  obtain ⟨_, here, _⟩ := ends bound le_rfl
  obtain ⟨_, there, _⟩ := ends' bound le_rfl
  rw [here] at there
  exact congrArg Prod.fst (Option.some.inj there)

theorem done : Ends allowed bound (Reading.done value : Reading Error Value) (.ok value) :=
  fun _ _ => ⟨[], rfl, fun _ member => by cases member⟩

theorem raise : Ends allowed bound (Reading.raise error : Reading Error Value) (.error error) :=
  fun _ _ => ⟨[], rfl, fun _ member => by cases member⟩

theorem bind (begins : Ends allowed bound first (.ok value)) (goesOn : Ends allowed bound (next value) result) :
    Ends allowed bound (first >>= next) result := by
  intro turns enough
  obtain ⟨before, here, allowedBefore⟩ := begins turns enough
  obtain ⟨after, there, allowedAfter⟩ := goesOn turns enough
  refine ⟨before ++ after, ?_, List.forall_mem_append.mpr ⟨allowedBefore, allowedAfter⟩⟩
  show Reading.bind first next turns = _
  rw [Reading.bind, here]
  show behind before (next value) turns = _
  rw [behind, there, Option.map_some]

theorem bind_error (raises : Ends allowed bound first (.error error)) :
    Ends allowed bound (first >>= next) (.error error) := by
  intro turns enough
  obtain ⟨reads, here, inside⟩ := raises turns enough
  refine ⟨reads, ?_, inside⟩
  show Reading.bind first next turns = _
  rw [Reading.bind, here]

variable {data : Bytes}

theorem index_ok {pos : Nat} {byte : UInt8} (here : data[pos]? = some byte)
    (permitted : allowed ⟨pos, pos + 1, data.length⟩) :
    Ends allowed bound (index error data pos) (.ok byte) := by
  intro turns _
  refine ⟨[⟨pos, pos + 1, data.length⟩], ?_, List.forall_mem_singleton.mpr permitted⟩
  rw [index, here]

theorem index_error {pos : Nat} (behind : data[pos]? = none) :
    Ends allowed bound (index error data pos) (.error error) := by
  intro turns _
  refine ⟨[], ?_, fun _ member => by cases member⟩
  rw [index, behind]

theorem cut {start stop : Nat} (permitted : allowed ⟨start, stop, data.length⟩) :
    Ends allowed bound (Reading.cut data start stop : Reading Error Bytes)
      (.ok (slice data start stop)) :=
  fun _ _ => ⟨[⟨start, stop, data.length⟩], rfl, List.forall_mem_singleton.mpr permitted⟩

variable {handler : Error → Option (Reading Error Value)}

theorem handle_ok (succeeds : Ends allowed bound program (.ok value)) :
    Ends allowed bound (program.handle handler) (.ok value) := by
  intro turns enough
  obtain ⟨reads, here, inside⟩ := succeeds turns enough
  refine ⟨reads, ?_, inside⟩
  rw [handle, here]

theorem handle_caught {instead : Reading Error Value}
    (raises : Ends allowed bound program (.error error)) (caught : handler error = some instead)
    (goesOn : Ends allowed bound instead outcome) :
    Ends allowed bound (program.handle handler) outcome := by
  intro turns enough
  obtain ⟨before, here, allowedBefore⟩ := raises turns enough
  obtain ⟨after, there, allowedAfter⟩ := goesOn turns enough
  refine ⟨before ++ after, ?_, List.forall_mem_append.mpr ⟨allowedBefore, allowedAfter⟩⟩
  rw [handle, here]
  simp only [caught]
  rw [behind, there, Option.map_some]

/-! ### Loops -/

/-- What a turn comes to, if the loop from each state comes to `outcome` and has at most `measure`
turns to take. -/
inductive Turns (allowed : Access → Prop) (bound : Nat) (measure : State → Nat) (good : State → Prop)
    (outcome : State → Except Error Value) (turn : State → Reading Error (Turn State Value))
    (state : State) : Prop
  | raises (error : Error) (ends : Ends allowed bound (turn state) (.error error))
      (same : outcome state = .error error)
  | leaves (value : Value) (ends : Ends allowed bound (turn state) (.ok (.leave value)))
      (same : outcome state = .ok value)
  | goesOn (next : State) (ends : Ends allowed bound (turn state) (.ok (.again next)))
      (same : outcome state = outcome next) (smaller : measure next < measure state)
      (good : good next)

variable {measure : State → Nat} {good : State → Prop} {outcome : State → Except Error Value}
  {turn : State → Reading Error (Turn State Value)}

theorem loopFor (turns : ∀ state, good state → Turns allowed bound measure good outcome turn state) :
    ∀ (left : Nat) (state : State), good state → measure state < left →
      Ends allowed bound (Reading.loopFor turn left state) (outcome state) := by
  intro left
  induction left with
  | zero =>
    intro state _ enough
    exact absurd enough (Nat.not_lt_zero _)
  | succ left ih =>
    intro state here enough
    cases turns state here with
    | raises error ends same =>
      rw [same]
      exact bind_error ends
    | leaves value ends same =>
      rw [same]
      exact bind ends done
    | goesOn next ends same smaller there =>
      rw [same]
      exact bind ends (ih next there (by omega))

/-- **A loop ends** if each of its turns does and the turns bring a measure down. -/
theorem loop (turns : ∀ state, good state → Turns allowed bound measure good outcome turn state)
    {state : State} (here : good state) (enough : measure state < bound) :
    Ends allowed bound (Reading.loop turn state) (outcome state) := by
  intro many most
  exact loopFor turns many state here (by omega) many most

end Ends

/-! ### Beside a computation without loops and handlers -/

section Plain

variable {Fault : Type} {allowed : Access → Prop} {bound : Nat} {fault : Fault → Error}

def outcomeOf (fault : Fault → Error) (image : Value → Result) :
    Except Fault Value → Except Error Result
  | .ok value => .ok (image value)
  | .error found => .error (fault found)

/-- **The program ends as the computation does**: with the image of its value, or with what is raised
for its error. -/
def Simulates (allowed : Access → Prop) (bound : Nat) (fault : Fault → Error) (image : Value → Result)
    (program : Reading Error Result) (plain : Except Fault Value) : Prop :=
  Ends allowed bound program (outcomeOf fault image plain)

namespace Simulates

variable {Middle : Type} {image : Value → Result}

theorem done (value : Value) :
    Simulates allowed bound fault image (pure (image value)) (pure value : Except Fault Value) :=
  Ends.done

theorem bind {first : Reading Error Middle} {next : Middle → Reading Error Result}
    {plain : Except Fault Middle} {plainNext : Middle → Except Fault Value}
    (begins : Simulates allowed bound fault id first plain)
    (goesOn : ∀ value, plain = .ok value →
      Simulates allowed bound fault image (next value) (plainNext value)) :
    Simulates allowed bound fault image (first >>= next) (plain >>= plainNext) := by
  cases plain with
  | error found => exact Ends.bind_error begins
  | ok value => exact Ends.bind begins (goesOn value rfl)

theorem reject {condition : Prop} [Decidable condition] {found : Fault}
    {rest : Reading Error Result} {plain : Unit → Except Fault Value}
    (goesOn : ¬ condition → Simulates allowed bound fault image rest (plain ())) :
    Simulates allowed bound fault image (if condition then Reading.raise (fault found) else rest)
      (rejectIf condition found >>= plain) := by
  unfold rejectIf
  by_cases holds : condition
  · rw [if_pos holds, if_pos holds]
    exact Ends.raise
  · rw [if_neg holds, if_neg holds]
    exact goesOn holds

end Simulates

end Plain

namespace Ends

variable {allowed : Access → Prop} {bound : Nat}

/-- What a turn at a position comes to, beside a step that computes the same: it raises what the step
ends with, goes on from where the step has moved to, or leaves the loop where the step has moved
behind the end. -/
inductive Follows {Fault : Type} (allowed : Access → Prop) (bound size : Nat) (fault : Fault → Error)
    (body : Reading Error (Turn (Nat × State) State)) (pos : Nat) :
    Except Fault (Nat × State) → Prop
  | raises {found : Fault} (ends : Ends allowed bound body (.error (fault found))) :
      Follows allowed bound size fault body pos (.error found)
  | goesOn {next : Nat × State} (ends : Ends allowed bound body (.ok (.again next))) (ahead : pos < next.1) :
      Follows allowed bound size fault body pos (.ok next)
  | leaves {next : Nat × State} (ends : Ends allowed bound body (.ok (.leave next.2)))
      (behind : size ≤ next.1) : Follows allowed bound size fault body pos (.ok next)

variable {Fault : Type} {fault : Fault → Error}

theorem Follows.of_simulates {size pos : Nat} {body : Reading Error (Turn (Nat × State) State)}
    {plain : Except Fault (Nat × State)}
    (simulates : Simulates allowed bound fault Turn.again body plain)
    (ahead : ∀ next, plain = .ok next → pos < next.1) :
    Follows allowed bound size fault body pos plain := by
  cases plain with
  | error found => exact .raises simulates
  | ok next => exact .goesOn simulates (ahead next rfl)

theorem readWhile {size : Nat} {body : Nat → State → Reading Error (Turn (Nat × State) State)}
    {step : Nat → State → Except Fault (Nat × State)} (follows : ∀ pos state, pos < size →
      Follows allowed bound size fault (body pos state) pos (step pos state)) {fuel pos : Nat}
    (state : State) (enough : size ≤ pos + fuel) (most : size < bound) :
    Simulates allowed bound fault id (Reading.readWhile size body pos state)
      (readAll size step fuel pos state) := by
  have ahead : ∀ pos state next, pos < size → step pos state = .ok next → pos < next.1 := by
    intro pos state next inside taken
    have turn := follows pos state inside
    rw [taken] at turn
    cases turn with
    | goesOn ends ahead => exact ahead
    | leaves ends behind => omega
  rw [readAll_enough ahead fuel (size - pos) pos state enough (by omega)]
  have turns : ∀ here : Nat × State, True → Turns allowed bound (fun here => size - here.1) (fun _ => True)
      (fun here => outcomeOf fault id (readAll size step (size - here.1) here.1 here.2))
      (fun here => if here.1 < size then body here.1 here.2 else pure (.leave here.2)) here := by
    intro here _
    by_cases inside : here.1 < size
    · obtain ⟨fuel, left⟩ : ∃ fuel, size - here.1 = fuel + 1 := ⟨size - here.1 - 1, by omega⟩
      have turn := follows here.1 here.2 inside
      cases taken : step here.1 here.2 with
      | error found =>
        rw [taken] at turn
        cases turn with
        | raises ends =>
          refine .raises (fault found) ?_ ?_
          · rw [if_pos inside]
            exact ends
          · rw [left, readAll, if_pos inside, taken]
            rfl
      | ok next =>
        rw [taken] at turn
        have same : readAll size step (size - here.1) here.1 here.2 =
            readAll size step (size - next.1) next.1 next.2 := by
          have moved := ahead here.1 here.2 next inside taken
          rw [left, readAll, if_pos inside, taken]
          exact readAll_enough ahead fuel _ next.1 next.2 (by omega) (by omega)
        cases turn with
        | goesOn ends moved =>
          refine .goesOn next ?_ (by rw [same]) (by omega) trivial
          rw [if_pos inside]
          exact ends
        | leaves ends behind =>
          refine .leaves next.2 ?_ ?_
          · rw [if_pos inside]
            exact ends
          · rw [same, Nat.sub_eq_zero_of_le behind]
            rfl
    · refine .leaves here.2 ?_ ?_
      · rw [if_neg inside]
        exact done
      · rw [Nat.sub_eq_zero_of_le (by omega)]
        rfl
  have start : size - pos < bound := by omega
  exact loop turns trivial start

end Ends

end Reading

end ExecRelay.Lib
