/-
**Integers in decimal.**

`strconv.Itoa` writes an integer with its digits and a sign if it is negative, and `strconv.ParseInt`
reads it back (`parseInt64_itoa`).
-/

import ExecRelay.Lib.Text

namespace ExecRelay.Lib

/-- The digits of a number; the fuel is enough if it is larger than the number. -/
def digitsIn : Nat → Nat → Bytes
  | 0, _ => []
  | fuel + 1, number =>
    if number < 10 then [48 + UInt8.ofNat number]
    else digitsIn fuel (number / 10) ++ [48 + UInt8.ofNat (number % 10)]

def digitsOf (number : Nat) : Bytes :=
  digitsIn (number + 1) number

/-- `strconv.Itoa`. -/
def itoa (value : Int) : Bytes :=
  if value < 0 then 45 :: digitsOf value.natAbs else digitsOf value.natAbs

example : itoa (-120) = lit "-120" := by decide +kernel

def appendDigit (value : Int) (digit : UInt8) : Int :=
  10 * value + (digit.toNat - 48)

theorem digit_facts {number : Nat} (small : number < 10) :
    isDecimalDigit (48 + UInt8.ofNat number) = true ∧
      ((48 + UInt8.ofNat number).toNat : Int) - 48 = number := by
  have all : ∀ digit : Fin 10, isDecimalDigit (48 + UInt8.ofNat digit) = true ∧
      ((48 + UInt8.ofNat digit).toNat : Int) - 48 = (digit : Nat) := by
    decide +kernel
  exact all ⟨number, small⟩

theorem digitsIn_facts : ∀ {fuel number : Nat}, number < fuel →
    (digitsIn fuel number).foldl appendDigit 0 = number ∧
      (digitsIn fuel number).all isDecimalDigit = true ∧ digitsIn fuel number ≠ [] := by
  intro fuel
  induction fuel with
  | zero =>
    intro number enough
    cases enough
  | succ fuel ih =>
    intro number enough
    rw [digitsIn]
    split
    · rename_i small
      obtain ⟨digit, value⟩ := digit_facts small
      refine ⟨?_, by simp [digit], List.cons_ne_nil _ _⟩
      rw [List.foldl_cons, List.foldl_nil, appendDigit, value, Int.mul_zero, Int.zero_add]
    · obtain ⟨front, digits, -⟩ := ih (by omega : number / 10 < fuel)
      obtain ⟨digit, value⟩ := digit_facts (Nat.mod_lt number (by decide : 0 < 10))
      refine ⟨?_, by simp [digits, digit], List.append_ne_nil_of_right_ne_nil _ (List.cons_ne_nil _ _)⟩
      rw [List.foldl_append, front, List.foldl_cons, List.foldl_nil, appendDigit, value]
      omega

theorem parseInt64_digits {digits : Bytes} (given : digits ≠ [])
    (all : digits.all isDecimalDigit = true) (low : -2 ^ 63 ≤ digits.foldl appendDigit 0)
    (high : digits.foldl appendDigit 0 < 2 ^ 63) :
    parseInt64 digits = some (digits.foldl appendDigit 0) := by
  obtain ⟨first, rest, rfl⟩ := List.exists_cons_of_ne_nil given
  have digit : isDecimalDigit first = true := (List.all_cons ▸ all |> Bool.and_eq_true_iff.mp).1
  have noPlus : first ≠ 43 := by
    rintro rfl
    cases digit
  have noMinus : first ≠ 45 := by
    rintro rfl
    cases digit
  unfold parseInt64
  split
  · rename_i same
    exact absurd (List.cons.inj same).1 noPlus
  · rename_i same
    exact absurd (List.cons.inj same).1 noMinus
  · have unsigned : ¬(first :: rest).head? = some 45 := by simpa using noMinus
    simp only [if_neg unsigned]
    exact if_pos ⟨given, all, low, high⟩

theorem parseInt64_minus {digits : Bytes} (given : digits ≠ [])
    (all : digits.all isDecimalDigit = true) (low : -2 ^ 63 ≤ -digits.foldl appendDigit 0)
    (high : -digits.foldl appendDigit 0 < 2 ^ 63) :
    parseInt64 (45 :: digits) = some (-digits.foldl appendDigit 0) :=
  if_pos ⟨given, all, low, high⟩

/-- **An integer of 64 bits is read as it was written.** -/
theorem parseInt64_itoa {value : Int} (low : -2 ^ 63 ≤ value) (high : value < 2 ^ 63) :
    parseInt64 (itoa value) = some value := by
  obtain ⟨read, digits, given⟩ := digitsIn_facts (Nat.lt_succ_self value.natAbs)
  change (digitsOf value.natAbs).foldl appendDigit 0 = _ at read
  unfold itoa
  split
  · have same : -(value.natAbs : Int) = value := by omega
    have signed := parseInt64_minus given digits (by rw [← digitsOf, read]; omega)
      (by rw [← digitsOf, read]; omega)
    rw [← digitsOf, read, same] at signed
    exact signed
  · have same : (value.natAbs : Int) = value := by omega
    have plain := parseInt64_digits given digits (by rw [← digitsOf, read]; omega)
      (by rw [← digitsOf, read]; omega)
    rw [← digitsOf, read, same] at plain
    exact plain

theorem itoa_bytes (value : Int) :
    itoa value ≠ [] ∧ ∀ byte ∈ itoa value, byte = 45 ∨ isDecimalDigit byte = true := by
  obtain ⟨-, digits, given⟩ := digitsIn_facts (Nat.lt_succ_self value.natAbs)
  have each := List.all_eq_true.mp digits
  unfold itoa
  split
  · refine ⟨List.cons_ne_nil _ _, fun byte member => ?_⟩
    rcases List.mem_cons.mp member with rfl | inside
    · exact .inl rfl
    · exact .inr (each byte inside)
  · exact ⟨given, fun byte member => .inr (each byte member)⟩

end ExecRelay.Lib
