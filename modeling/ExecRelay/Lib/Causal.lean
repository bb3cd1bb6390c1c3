/-
**Causal functions of a list.**

A list is read as a series in time. A function of series is causal if what it gives for the first
elements is settled by them: it may as well be run on the first elements alone.
-/

import ExecRelay.Lib.Check
import Mathlib.Data.List.Basic

namespace ExecRelay.Lib

variable {α β γ Error : Type}

/-- **The first results are those of the first elements.** -/
def Causal (f : List α → List β) : Prop :=
  ∀ k values, f (values.take k) = (f values).take k

theorem Causal.nil {f : List α → List β} (causal : Causal f) : f [] = [] := by
  have none := causal 0 []
  exact none

/-! ### Each element from those before it -/

/-- **A function by index**, the value at each index settled by the elements up to it. -/
theorem Causal.of_index {value : List α → Nat → β}
    (settled : ∀ values k i, i < k → value (values.take k) i = value values i) :
    Causal fun values => (List.range values.length).map (value values) := by
  intro k values
  show (List.range (values.take k).length).map (value (values.take k)) = _
  rw [← List.map_take, List.take_range, List.length_take]
  apply List.map_congr_left
  intro i inside
  exact settled values k i (Nat.lt_of_lt_of_le (List.mem_range.mp inside) (Nat.min_le_left _ _))

/-- **A recurrence** that starts from the first element. -/
def fromFirst (step : β → α → β) (start : α → β) : List α → List β
  | [] => []
  | first :: rest => rest.scanl step (start first)

theorem causal_fromFirst (step : β → α → β) (start : α → β) : Causal (fromFirst step start) := by
  intro k values
  cases values with
  | nil => simp [fromFirst]
  | cons first rest =>
    cases k with
    | zero => rfl
    | succ k => exact (List.take_scanl _ _ _).symm

def successive (f : α → α → β) (values : List α) : List β :=
  List.zipWith f values values.tail

theorem successive_take (f : α → α → β) (k : Nat) (values : List α) :
    successive f (values.take (k + 1)) = (successive f values).take k := by
  induction values generalizing k with
  | nil => simp [successive]
  | cons first rest ih =>
    cases k with
    | zero => cases rest <;> rfl
    | succ k =>
      cases rest with
      | nil => rfl
      | cons second rest => exact congrArg (f first second :: ·) (ih k)

@[simp]
theorem length_successive (f : α → α → β) (values : List α) :
    (successive f values).length = values.length - 1 := by
  simp [successive]

theorem forall_mem_successive {f : α → α → β} {p : β → Prop} (holds : ∀ prev next, p (f prev next))
    (values : List α) : ∀ value ∈ successive f values, p value := by
  intro value inside
  obtain ⟨i, _, rfl⟩ := List.mem_iff_getElem.mp inside
  simp only [successive, List.getElem_zipWith]
  exact holds _ _

theorem map_fst_successive (values : List α) :
    (successive Prod.mk values).map Prod.fst = values.dropLast := by
  induction values with
  | nil => rfl
  | cons first rest ih =>
    cases rest with
    | nil => rfl
    | cons second rest => exact congrArg (first :: ·) ih

/-- **A value for each element and the one before it**, and none for the first. -/
def fromPrevious (f : α → α → β) : List α → List (Option β)
  | [] => []
  | first :: rest => none :: (successive f (first :: rest)).map some

theorem causal_fromPrevious (f : α → α → β) : Causal (fromPrevious f) := by
  intro k values
  cases values with
  | nil => simp [fromPrevious]
  | cons first rest =>
    cases k with
    | zero => rfl
    | succ k =>
      show none :: (successive f ((first :: rest).take (k + 1))).map some = _
      rw [successive_take, List.map_take]
      rfl

@[simp]
theorem length_fromPrevious (f : α → α → β) (values : List α) :
    (fromPrevious f values).length = values.length := by
  cases values <;> simp [fromPrevious]

@[simp]
theorem length_fromFirst (step : β → α → β) (start : α → β) (values : List α) :
    (fromFirst step start values).length = values.length := by
  cases values <;> simp [fromFirst]

/-! ### Functions that may fail -/

/-- **A function that succeeds on a series** gives the first results on the first elements. -/
def PartialCausal (f : List α → Except Error (List β)) : Prop :=
  ∀ k values results, f values = .ok results → f (values.take k) = .ok (results.take k)

theorem PartialCausal.comp {g : List β → Except Error (List γ)} {f : List α → List β}
    (outer : PartialCausal g) (inner : Causal f) : PartialCausal fun values => g (f values) := by
  intro k values results succeeds
  show g (f (values.take k)) = _
  rw [inner]
  exact outer k _ results succeeds

theorem partialCausal_mapM (f : α → Except Error β) : PartialCausal (List.mapM f) := by
  intro k values results succeeds
  induction values generalizing k results with
  | nil =>
    cases succeeds
    simp [pure, Except.pure]
  | cons first rest ih =>
    cases k with
    | zero => rfl
    | succ k =>
      simp only [List.mapM_cons, bind_eq_ok] at succeeds
      obtain ⟨value, here, others, behind, same⟩ := succeeds
      cases same
      rw [List.take_succ_cons, List.mapM_cons, here, List.take_succ_cons]
      show (List.mapM f (rest.take k) >>= fun others => pure (value :: others)) = _
      rw [ih k others behind]
      rfl

theorem length_of_mapM {f : α → Except Error β} {values : List α} {results : List β}
    (succeeds : values.mapM f = .ok results) : results.length = values.length := by
  induction values generalizing results with
  | nil =>
    cases succeeds
    rfl
  | cons first rest ih =>
    simp only [List.mapM_cons, bind_eq_ok] at succeeds
    obtain ⟨value, -, others, behind, same⟩ := succeeds
    cases same
    rw [List.length_cons, List.length_cons, ih behind]

theorem mapM_isOk_iff {f : α → Except Error β} {values : List α} :
    (∃ results, values.mapM f = .ok results) ↔ ∀ value ∈ values, ∃ result, f value = .ok result := by
  induction values with
  | nil => exact ⟨fun _ _ impossible => absurd impossible List.not_mem_nil, fun _ => ⟨[], rfl⟩⟩
  | cons first rest ih =>
    simp only [List.mapM_cons, bind_eq_ok, List.forall_mem_cons, ← ih]
    constructor
    · rintro ⟨_, value, here, others, behind, -⟩
      exact ⟨⟨value, here⟩, others, behind⟩
    · rintro ⟨⟨value, here⟩, others, behind⟩
      exact ⟨_, value, here, others, behind, rfl⟩

end ExecRelay.Lib
