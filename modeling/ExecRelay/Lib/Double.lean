/-
**Double arithmetic as a parameter.**

The services compute with doubles and read them from texts. What they compute is written over
`Doubles`, the operations that the code uses, so that a result about it holds for the machine's
rounding as well as for exact arithmetic. The comparisons are operations of their own: on doubles
`a <= 0` is not the negation of `a > 0`.

`Doubles.exact` computes with rational numbers; a text is read as far as it is a decimal number.
-/

import ExecRelay.Lib.Bytes
import Mathlib.Data.Rat.Defs

namespace ExecRelay.Lib

structure Doubles (Number : Type) where
  ofNat : Nat → Number
  add : Number → Number → Number
  sub : Number → Number → Number
  mul : Number → Number → Number
  eq : Number → Number → Bool
  lt : Number → Number → Bool
  le : Number → Number → Bool
  /-- Neither an infinity nor not a number. -/
  isFinite : Number → Bool
  /-- MQL's `StringToDouble`, which never fails. -/
  stringToDouble : Bytes → Number
  /-- Go's `strconv.ParseFloat`. -/
  parseFloat : Bytes → Option Number

/-! ### Exact arithmetic -/

def isDigit (byte : UInt8) : Bool :=
  48 ≤ byte && byte ≤ 57

def digitsValue (digits : Bytes) : Nat :=
  digits.foldl (fun value digit => 10 * value + (digit.toNat - 48)) 0

def fractionValue : Bytes → ℚ × Bytes
  | 46 :: rest =>
    let digits := rest.takeWhile isDigit
    (digitsValue digits / 10 ^ digits.length, rest.dropWhile isDigit)
  | rest => (0, rest)

/-- The decimal number at the front of a text, and what is left behind it. -/
def decimalValue (text : Bytes) : ℚ × Bytes :=
  let fraction := fractionValue (text.dropWhile isDigit)
  (digitsValue (text.takeWhile isDigit) + fraction.1, fraction.2)

def Doubles.exact : Doubles ℚ where
  ofNat := fun value => value
  add := (· + ·)
  sub := (· - ·)
  mul := (· * ·)
  eq := (· == ·)
  lt := fun left right => left < right
  le := fun left right => left ≤ right
  isFinite := fun _ => true
  stringToDouble := fun text => (decimalValue text).1
  parseFloat := fun text => if (decimalValue text).2 = [] then some (decimalValue text).1 else none

example : Doubles.exact.stringToDouble (lit "0.10") = 1 / 10 := by decide +kernel

end ExecRelay.Lib
