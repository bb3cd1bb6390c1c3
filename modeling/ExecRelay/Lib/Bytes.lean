/-
**Byte strings.**

Go strings, protobuf payloads and HTTP bodies are sequences of bytes. This file fixes the type, the
bytes of a literal, ASCII case folding and the hexadecimal form of a byte string.
-/

import Mathlib.Algebra.Ring.Int.Defs
import Mathlib.Algebra.Ring.Nat
import Mathlib.Data.List.Basic

namespace ExecRelay.Lib

abbrev Bytes := List UInt8

instance : LawfulBEq Bytes :=
  inferInstance

/-- The bytes of a literal. -/
def lit (text : String) : Bytes := text.toUTF8.data.toList

def quote : UInt8 := 34

@[elab_as_elim]
theorem forall_byte {motive : UInt8 → Prop} (byte : UInt8)
    (every : ∀ index : Fin 256, motive (UInt8.ofNat index)) : motive byte := by
  have here := every ⟨byte.toNat, byte.toNat_lt⟩
  rw [show UInt8.ofNat (⟨byte.toNat, byte.toNat_lt⟩ : Fin 256) = byte from UInt8.ofNat_toNat] at here
  exact here

/-! ### ASCII case -/

/-- An ASCII capital to its small letter; every other byte as it is. -/
def lowerByte (byte : UInt8) : UInt8 :=
  if 65 ≤ byte ∧ byte ≤ 90 then byte + 32 else byte

def lowerASCII (bytes : Bytes) : Bytes := bytes.map lowerByte

/-! ### Hexadecimal -/

def hexDigit (digit : UInt8) : UInt8 :=
  if digit < 10 then digit + 48 else digit + 87

def hexEncode (bytes : Bytes) : Bytes :=
  bytes.flatMap fun byte => [hexDigit (byte / 16), hexDigit (byte % 16)]

def hexValue (digit : UInt8) : Option UInt8 :=
  if 48 ≤ digit ∧ digit ≤ 57 then some (digit - 48)
  else if 97 ≤ digit ∧ digit ≤ 102 then some (digit - 87)
  else if 65 ≤ digit ∧ digit ≤ 70 then some (digit - 55)
  else none

/-- The bytes a hexadecimal text stands for; an odd length or a foreign digit has none. -/
def hexDecode : Bytes → Option Bytes
  | [] => some []
  | [_] => none
  | high :: low :: rest => do
      let upper ← hexValue high
      let lower ← hexValue low
      let bytes ← hexDecode rest
      pure ((upper * 16 + lower) :: bytes)

end ExecRelay.Lib
