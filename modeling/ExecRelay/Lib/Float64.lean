/-
**Double-precision numbers by their bits.**

A `Float64` is kept as its 64 bits: a sign, eleven bits of exponent and 52 of fraction. Only the
comparisons that a program makes are defined; they are exact on the bits. Both zeros are equal, and a
NaN is neither below nor above anything.
-/

import Mathlib.Data.Nat.Basic

namespace ExecRelay.Lib

structure Float64 where
  bits : UInt64
deriving DecidableEq, Repr

namespace Float64

def magnitude (value : Float64) : Nat :=
  (value.bits &&& 0x7FFFFFFFFFFFFFFF).toNat

def isNegative (value : Float64) : Bool :=
  value.bits ≥ 0x8000000000000000

def isNaN (value : Float64) : Bool :=
  value.magnitude > 0x7FF0000000000000

def isZero (value : Float64) : Bool :=
  value.magnitude = 0

/-- The position of a number among all numbers: magnitudes grow with their bits. -/
def rank (value : Float64) : Int :=
  if value.isNegative then -(value.magnitude : Int) else value.magnitude

/-- `left < right`. -/
def lt (left right : Float64) : Bool :=
  !left.isNaN && !right.isNaN && left.rank < right.rank

def zero : Float64 := ⟨0⟩

end Float64

end ExecRelay.Lib
