/-
**The JSON readers of the terminal.**

The EA has no JSON parser. `jGetStr` looks for `"key":"` and takes what stands before the next quote;
`jGetObj` looks for `"key":{` and counts braces. Both work on the text of the whole message, and a search
that fails (`-1`) is `none`. `jGetStr_eq` says what the first returns without positions.

A text of the terminal is kept as its bytes in the code page of the terminal: `CharArrayToString` and
`StringToCharArray` convert with the default `CP_ACP` when a message comes in and when one goes out, and
the readers only look for characters of ASCII.
-/

import ExecRelay.Lib.Bytes
import ExecRelay.Lib.Search
import Mathlib.Data.List.TakeWhile

namespace ExecRelay.EA

open Lib

def openBrace : UInt8 := 123
def closeBrace : UInt8 := 125

/-- `StringFind`. -/
def stringFind (text needle : Bytes) (start : Nat) : Option Nat :=
  (indexOf needle (text.drop start)).map (start + ·)

/-- `StringSubstr`. -/
def stringSubstr (text : Bytes) (pos length : Nat) : Bytes :=
  (text.drop pos).take length

/-- The needle of `jGetStr`. -/
def strNeedle (key : Bytes) : Bytes :=
  quote :: (key ++ quote :: [58, quote])

/-- The needle of `jGetObj`. -/
def objNeedle (key : Bytes) : Bytes :=
  quote :: (key ++ quote :: [58, openBrace])

def jGetStr (json key : Bytes) : Bytes :=
  match stringFind json (strNeedle key) 0 with
  | none => []
  | some pos =>
    let pos := pos + (strNeedle key).length
    match stringFind json [quote] pos with
    | none => []
    | some stop => stringSubstr json pos (stop - pos)

/-- The position of the brace that closes the object, from position `pos` on at depth `depth`. -/
def objectEnd (json : Bytes) : Nat → Nat → Int → Option Nat
  | 0, _, _ => none
  | fuel + 1, pos, depth =>
    match json[pos]? with
    | none => none
    | some byte =>
      if byte = openBrace then objectEnd json fuel (pos + 1) (depth + 1)
      else if byte = closeBrace then
        if depth - 1 = 0 then some pos else objectEnd json fuel (pos + 1) (depth - 1)
      else objectEnd json fuel (pos + 1) depth

def jGetObj (json key : Bytes) : Bytes :=
  match stringFind json (objNeedle key) 0 with
  | none => []
  | some pos =>
    let pos := pos + (objNeedle key).length - 1
    match objectEnd json json.length pos 0 with
    | none => []
    | some stop => stringSubstr json pos (stop - pos + 1)

/-! ### Without positions -/

theorem jGetStr_eq (json key : Bytes) :
    jGetStr json key =
      match after (strNeedle key) json with
      | none => []
      | some rest => if quote ∈ rest then rest.takeWhile fun byte => byte ≠ quote else [] := by
  unfold jGetStr stringFind after stringSubstr
  rw [List.drop_zero]
  cases indexOf (strNeedle key) json with
  | none => rfl
  | some pos =>
    simp only [Option.map_some, Nat.zero_add, indexOf_singleton]
    by_cases closed : quote ∈ json.drop (pos + (strNeedle key).length)
    · simp only [if_pos closed, Option.map_some, Nat.add_sub_cancel_left]
      exact (List.prefix_iff_eq_take.mp (List.takeWhile_prefix _)).symm
    · simp only [if_neg closed, Option.map_none]

end ExecRelay.EA
