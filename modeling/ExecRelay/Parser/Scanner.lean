/-
**The scanner reads the pieces.**

`remaining input pos` are the trimmed pieces from position `pos` on. One call of `nextField` takes
the first of them off (`nextField_eq`), so the loop over positions is a loop over the list of pieces
(`parseParams_eq`) and the three leading fields are the head of `pieces`. `splitParam_eq` does the
same inside one piece.
-/

import ExecRelay.Parser.Grammar

namespace ExecRelay.Parser

open Lib

theorem trimASCII_eq (value : Bytes) : trimASCII value = trim isASCIISpace value :=
  slice_scanUp_scanDown isASCIISpace value

/-- The trimmed pieces from a position on. One past the end there are none. -/
def remaining (input : Bytes) (pos : Nat) : List Bytes :=
  if pos ≤ input.length then ((input.drop pos).splitOn comma).map (trim isASCIISpace) else []

theorem remaining_zero (input : Bytes) : remaining (trimASCII input) 0 = pieces input := by
  rw [remaining, if_pos (Nat.zero_le _), List.drop_zero, trimASCII_eq, pieces]

/-- **One field.** Inside the input, `nextField` gives the first remaining piece and a later
position from which the others remain; behind the input it gives nothing and nothing remains. -/
theorem nextField_eq (input : Bytes) (pos : Nat) :
    (nextField input pos = none ∧ remaining input pos = [] ∧ input.length < pos) ∨
      ∃ field next, nextField input pos = some (field, next) ∧
        remaining input pos = field :: remaining input next ∧ pos < next ∧ pos ≤ input.length := by
  unfold nextField remaining
  by_cases behind : input.length < pos
  · refine Or.inl ⟨if_pos behind, if_neg (by omega), behind⟩
  · refine Or.inr ⟨_, _, if_neg behind, ?_, ?_, by omega⟩
    · have enough : input.length ≤ pos + input.length := Nat.le_add_left _ _
      rw [if_pos (by omega : pos ≤ input.length), splitOn_drop comma input enough, List.map_cons,
        trimASCII_eq]
      by_cases more : scanUp (· != comma) input input.length pos < input.length
      · rw [if_pos more, if_pos (by omega)]
      · rw [if_neg more, if_neg (by omega), List.map_nil]
    · have advanced : pos ≤ scanUp (· != comma) input input.length pos :=
        le_scanUp (Nat.le_add_left _ _)
      omega

theorem remaining_of_nextField {input : Bytes} {pos : Nat} {field : Bytes} {next : Nat}
    (found : nextField input pos = some (field, next)) :
    remaining input pos = field :: remaining input next := by
  rcases nextField_eq input pos with ⟨nothing, _⟩ | ⟨_, _, found', split, _⟩
  · rw [nothing] at found
    cases found
  · rw [found'] at found
    cases found
    exact split

theorem nextField_of_remaining {input : Bytes} {pos : Nat} {field : Bytes} {rest : List Bytes}
    (split : remaining input pos = field :: rest) :
    ∃ next, nextField input pos = some (field, next) ∧ remaining input next = rest := by
  rcases nextField_eq input pos with ⟨_, nothing, _⟩ | ⟨_, next, found, split', _⟩
  · rw [nothing] at split
    cases split
  · rw [split'] at split
    cases split
    exact ⟨next, found, rfl⟩

/-- **A leading field** is the next one, and is not empty. -/
theorem requiredField_bind_eq_ok {Result : Type} (input : Bytes) (pos : Nat) (name : Bytes)
    (resume : Bytes × Nat → Except ParseError Result) (result : Result) :
    (requiredField input pos name >>= resume) = .ok result ↔
      ∃ field next, nextField input pos = some (field, next) ∧ field ≠ [] ∧
        resume (field, next) = .ok result := by
  rw [bind_eq_ok]
  unfold requiredField
  cases nextField input pos with
  | none =>
    constructor
    · rintro ⟨_, impossible, _⟩
      cases impossible
    · rintro ⟨_, _, impossible, _⟩
      cases impossible
  | some pair =>
    obtain ⟨field, next⟩ := pair
    simp only [rejectIf_bind_eq_ok, Option.some.injEq, Prod.mk.injEq]
    constructor
    · rintro ⟨_, ⟨given, same⟩, succeeds⟩
      cases same
      exact ⟨field, next, ⟨rfl, rfl⟩, given, succeeds⟩
    · rintro ⟨_, _, ⟨rfl, rfl⟩, given, succeeds⟩
      exact ⟨_, ⟨given, rfl⟩, succeeds⟩

/-- **The parameter loop is a fold over the remaining pieces**, once it has a turn for every
position left. -/
theorem parseParams_eq (input : Bytes) :
    ∀ (fuel pos : Nat) (signal : Signal) (state : ValidationState), input.length < pos + fuel →
      parseParams input fuel pos signal state =
        (remaining input pos).foldlM (fun pair raw => addField pair.1 pair.2 raw) (signal, state)
  | 0, pos, signal, state, enough => by
      rw [parseParams, remaining, if_neg (by omega)]
      rfl
  | fuel + 1, pos, signal, state, enough => by
      rw [parseParams]
      rcases nextField_eq input pos with
        ⟨_, nothing, behind⟩ | ⟨field, next, found, split, later, inside⟩
      · rw [if_neg (by omega), nothing]
        rfl
      · rw [if_pos inside, found, split, List.foldlM_cons]
        simp only
        congr 1
        funext pair
        exact parseParams_eq input fuel next pair.1 pair.2 (by omega)

/-- **A parameter** is cut at its first equals sign. -/
theorem splitParam_eq (raw : Bytes) :
    splitParam raw =
      if equals ∈ raw then
        (keyText raw, valueText raw, keyText raw != [] && valueText raw != [])
      else ([], [], false) := by
  have enough : raw.length ≤ 0 + raw.length := by omega
  have before : slice raw 0 (scanUp (· != equals) raw raw.length 0) =
      raw.takeWhile (· != equals) := by
    rw [slice_scanUp enough, List.drop_zero]
  have behind : slice raw (scanUp (· != equals) raw raw.length 0 + 1) raw.length =
      (raw.dropWhile (· != equals)).tail := by
    rw [slice_length, ← List.drop_drop, drop_scanUp enough, List.drop_zero, List.drop_one]
  have found : scanUp (· != equals) raw raw.length 0 < raw.length ↔ equals ∈ raw := by
    have split := splitOn_drop equals raw enough
    rw [List.drop_zero, splitOn_takeWhile, List.cons.injEq] at split
    by_cases present : equals ∈ raw
    · refine iff_of_true ?_ present
      by_contra outside
      rw [if_pos present, if_neg outside] at split
      exact List.splitOn_ne_nil _ _ split.2
    · refine iff_of_false ?_ present
      intro inside
      rw [if_neg present, if_pos inside] at split
      exact List.splitOn_ne_nil _ _ split.2.symm
  unfold splitParam
  simp only [before, behind, trimASCII_eq]
  by_cases present : equals ∈ raw
  · rw [if_pos (found.mpr present), if_pos present]
    rfl
  · rw [if_neg (fun inside => present (found.mp inside)), if_neg present]

end ExecRelay.Parser
