/-
**Checks that end a computation.**

A validator is a sequence of checks, each of which ends it with an error of its own. `rejectIf` is
one check; the lemmas here read off when a sequence of them succeeds, so that a proof about a
validator is a conjunction of negated conditions and never a case split over its exits. `Alike` compares
two computations: they fail with the same error, or succeed with related values.
-/

import Mathlib.Data.List.Forall2
import Mathlib.Logic.Basic

namespace ExecRelay.Lib

variable {Error Value Result : Type}

/-- End with `error` if the condition holds. -/
def rejectIf (condition : Prop) [Decidable condition] (error : Error) : Except Error Unit :=
  if condition then throw error else pure ()

@[simp]
theorem rejectIf_eq_ok (condition : Prop) [Decidable condition] (error : Error) (value : Unit) :
    rejectIf condition error = .ok value ↔ ¬ condition := by
  unfold rejectIf
  by_cases holds : condition
  · rw [if_pos holds]
    constructor
    · intro impossible
      cases impossible
    · intro fails
      exact absurd holds fails
  · rw [if_neg holds]
    exact ⟨fun _ => holds, fun _ => rfl⟩

theorem rejectIf_of_not {condition : Prop} [Decidable condition] (passes : ¬condition) (error : Error) :
    rejectIf condition error = pure () :=
  if_neg passes

/-- **A sequence succeeds** when its first part does and the rest does on its value. -/
theorem bind_eq_ok (first : Except Error Value) (next : Value → Except Error Result)
    (result : Result) :
    (first >>= next) = .ok result ↔ ∃ value, first = .ok value ∧ next value = .ok result := by
  cases first with
  | error error =>
    constructor
    · intro impossible
      cases impossible
    · rintro ⟨_, impossible, _⟩
      cases impossible
  | ok value =>
    constructor
    · intro succeeds
      exact ⟨value, rfl, succeeds⟩
    · rintro ⟨_, same, succeeds⟩
      cases same
      exact succeeds

/-- A sequence fails in its first part, or in the rest behind it. -/
theorem bind_eq_error (first : Except Error Value) (next : Value → Except Error Result) (error : Error) :
    (first >>= next) = .error error ↔
      first = .error error ∨ ∃ value, first = .ok value ∧ next value = .error error := by
  cases first with
  | error other =>
    constructor
    · intro fails
      exact .inl (congrArg Except.error (Except.error.inj fails))
    · rintro (fails | ⟨_, impossible, _⟩)
      · exact congrArg Except.error (Except.error.inj fails)
      · cases impossible
  | ok value =>
    constructor
    · intro fails
      exact .inr ⟨value, rfl, fails⟩
    · rintro (impossible | ⟨_, same, fails⟩)
      · cases impossible
      · cases same
        exact fails

theorem exists_ok_of_any {computation : Except Error Value} {property : Value → Bool}
    (succeeds : computation.toOption.any property = true) :
    ∃ value, computation = .ok value ∧ property value = true := by
  cases computation with
  | error error => cases succeeds
  | ok value => exact ⟨value, rfl, succeeds⟩

/-- A sequence succeeds if its first part does, and the rest on the value of the first part. -/
theorem bind_isOk {first : Except Error Value} {next : Value → Except Error Result}
    (here : ∃ value, first = .ok value)
    (behind : ∀ value, first = .ok value → ∃ result, next value = .ok result) :
    ∃ result, (first >>= next) = .ok result := by
  obtain ⟨value, succeeds⟩ := here
  obtain ⟨result, ends⟩ := behind value succeeds
  exact ⟨result, (bind_eq_ok first next result).mpr ⟨value, succeeds, ends⟩⟩

/-- **A check passes** when its condition fails. -/
@[simp]
theorem rejectIf_bind_eq_ok (condition : Prop) [Decidable condition] (error : Error)
    (next : Unit → Except Error Result) (result : Result) :
    (rejectIf condition error >>= next) = .ok result ↔ ¬ condition ∧ next () = .ok result := by
  rw [bind_eq_ok]
  simp only [rejectIf_eq_ok]
  exact ⟨fun ⟨_, passes, succeeds⟩ => ⟨passes, succeeds⟩,
    fun ⟨passes, succeeds⟩ => ⟨(), passes, succeeds⟩⟩

theorem rejectIf_bind_eq_error (condition : Prop) [Decidable condition] (error other : Error)
    (next : Unit → Except Error Result) :
    (rejectIf condition error >>= next) = .error other ↔
      condition ∧ error = other ∨ ¬condition ∧ next () = .error other := by
  by_cases holds : condition
  · have fails : (rejectIf condition error >>= next) = .error error := by
      rw [rejectIf, if_pos holds]
      rfl
    rw [fails]
    simp [holds]
  · have passes : (rejectIf condition error >>= next) = next () := by
      rw [rejectIf, if_neg holds]
      rfl
    rw [passes]
    simp [holds]

variable {State : Type}

/-- **A fold that may fail** succeeds on a longer list when it does on the first element and then
on the others. -/
theorem foldlM_cons_eq_ok (step : State → Value → Except Error State) (state last : State)
    (head : Value) (rest : List Value) :
    (head :: rest).foldlM step state = .ok last ↔
      ∃ next, step state head = .ok next ∧ rest.foldlM step next = .ok last := by
  rw [List.foldlM_cons, bind_eq_ok]

variable {Item : Type} {items : List Item}

theorem mapM_eq_ok_map {check : Item → Except Error Value} {value : Item → Value}
    (passes : ∀ item ∈ items, check item = .ok (value item)) :
    items.mapM check = .ok (items.map value) := by
  induction items with
  | nil => rfl
  | cons item rest ih =>
    obtain ⟨here, behind⟩ := List.forall_mem_cons.mp passes
    rw [List.mapM_cons, here, ih behind]
    rfl

/-! ### Two computations -/

/-- **Both succeed with related values, or both fail with the same error.** -/
def Alike {Other : Type} (related : Value → Other → Prop) : Except Error Value → Except Error Other → Prop
  | .ok left, .ok right => related left right
  | .error left, .error right => left = right
  | _, _ => False

section Alike

variable {Other OtherResult : Type} {related : Value → Other → Prop}

theorem alike_refl {same : Value → Value → Prop} (refl : ∀ value, same value value)
    (computation : Except Error Value) : Alike same computation computation := by
  cases computation with
  | error error => rfl
  | ok value => exact refl value

variable {right : Except Error Other} {left : Except Error Value}

theorem Alike.mono {wider : Value → Other → Prop} (alike : Alike related left right)
    (implied : ∀ value other, left = .ok value → right = .ok other → related value other →
      wider value other) : Alike wider left right := by
  cases left <;> cases right
  · exact alike
  · exact alike
  · exact alike
  · exact implied _ _ rfl rfl alike

theorem Alike.bind {results : Result → OtherResult → Prop} {next : Value → Except Error Result}
    {otherNext : Other → Except Error OtherResult} (alike : Alike related left right)
    (behind : ∀ value other, related value other → Alike results (next value) (otherNext other)) :
    Alike results (left >>= next) (right >>= otherNext) := by
  cases left <;> cases right
  · exact alike
  · exact alike.elim
  · exact alike.elim
  · exact behind _ _ alike

/-- **Two folds are alike** if their steps are, on elements and states that are related. -/
theorem Alike.foldlM {State OtherState : Type} {states : State → OtherState → Prop}
    {step : State → Value → Except Error State}
    {otherStep : OtherState → Other → Except Error OtherState}
    (steps : ∀ state other item otherItem, states state other → related item otherItem →
      Alike states (step state item) (otherStep other otherItem))
    {items : List Value} {others : List Other} (each : List.Forall₂ related items others)
    {state : State} {other : OtherState} (here : states state other) :
    Alike states (items.foldlM step state) (others.foldlM otherStep other) := by
  induction each generalizing state other with
  | nil => exact here
  | cons head _ ih =>
    exact (steps _ _ _ _ here head).bind fun _ _ next => ih next

end Alike

end ExecRelay.Lib
