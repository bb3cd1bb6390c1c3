/-
**The body in the audit log** (`redactBody` in `apps/ingress/internal/ingress/handler.go`).

Two regular expressions take the secret out of a body, first that of the flat form and then that of JSON,
and what is left is cut to 500 bytes. They are written here as what they match at the front of a text.
Without regard to case an `s` is also the long s, which is two bytes.
-/

import ExecRelay.Lib.Bytes
import ExecRelay.Lib.Replace
import Mathlib.Data.List.DropRight

namespace ExecRelay.Ingress

open Lib

/-! ### The expressions -/

/-- `(?i)secret` at the front of a text. -/
def takeSecret (text : Bytes) : Option Bytes :=
  if lowerASCII (text.take 6) = lit "secret" then some (text.drop 6)
  else if text.take 2 = [0xC5, 0xBF] ∧ lowerASCII ((text.drop 2).take 5) = lit "ecret" then
    some (text.drop 7)
  else none

def takeByte (byte : UInt8) : Bytes → Option Bytes
  | [] => none
  | first :: rest => if first = byte then some rest else none

/-- `\s`. -/
def isRegexSpace (byte : UInt8) : Bool :=
  byte == 9 || byte == 10 || byte == 12 || byte == 13 || byte == 32

/-- `(?i)secret=[^,]*`. -/
def findFlat (text : Bytes) : Option Bytes := do
  let rest ← takeSecret text
  let rest ← takeByte 61 rest
  return rest.dropWhile (· ≠ 44)

/-- `(?i)"secret"\s*:\s*`. -/
def takeKey (text : Bytes) : Option Bytes := do
  let rest ← takeByte 34 text
  let rest ← takeSecret rest
  let rest ← takeByte 34 rest
  let rest ← takeByte 58 (rest.dropWhile isRegexSpace)
  return rest.dropWhile isRegexSpace

/-- `(?i)"secret"\s*:\s*"[^"]*"`. -/
def findJSON (text : Bytes) : Option Bytes := do
  let rest ← takeKey text
  let rest ← takeByte 34 rest
  takeByte 34 (rest.dropWhile (· ≠ 34))

/-! ### What they match -/

/-- A spelling of `secret`. -/
def IsSecret (word : Bytes) : Prop :=
  lowerASCII word = lit "secret" ∨ ∃ rest, word = 0xC5 :: 0xBF :: rest ∧ lowerASCII rest = lit "ecret"

variable {byte : UInt8}

theorem takeByte_eq_some {text rest : Bytes} :
    takeByte byte text = some rest ↔ text = byte :: rest := by
  cases text with
  | nil => simp [takeByte]
  | cons first others =>
    rw [takeByte]
    split
    · rename_i same
      simp [same]
    · rename_i differ
      simp [differ]

theorem takeSecret_eq_some {text rest : Bytes} :
    takeSecret text = some rest ↔ ∃ word, IsSecret word ∧ text = word ++ rest := by
  unfold takeSecret
  constructor
  · intro found
    split at found
    · rename_i same
      cases found
      exact ⟨text.take 6, Or.inl same, (List.take_append_drop 6 text).symm⟩
    · split at found
      · rename_i same
        cases found
        refine ⟨text.take 7, Or.inr ⟨(text.drop 2).take 5, ?_, same.2⟩,
          (List.take_append_drop 7 text).symm⟩
        have parts : text.take (2 + 5) = text.take 2 ++ (text.drop 2).take 5 := List.take_add
        rw [same.1] at parts
        exact parts
      · cases found
  · rintro ⟨word, isWord | ⟨letters, rfl, same⟩, rfl⟩
    · have length : word.length = 6 := by
        have := congrArg List.length isWord
        rwa [lowerASCII, List.length_map] at this
      rw [if_pos (by rw [← length, List.take_left]; exact isWord), ← length, List.drop_left]
    · have length : letters.length = 5 := by
        have := congrArg List.length same
        rwa [lowerASCII, List.length_map] at this
      rw [if_neg, if_pos]
      · show some ((letters ++ rest).drop 5) = some rest
        rw [← length, List.drop_left]
      · refine ⟨rfl, ?_⟩
        show lowerASCII ((letters ++ rest).take 5) = _
        rw [← length, List.take_left]
        exact same
      · intro impossible
        cases impossible

variable {text after : Bytes}

theorem findFlat_eq_some :
    findFlat text = some after ↔ ∃ word inner, IsSecret word ∧ 44 ∉ inner ∧
      text = word ++ 61 :: (inner ++ after) ∧ ∀ byte, after.head? = some byte → byte = 44 := by
  simp only [findFlat, Option.bind_eq_bind, Option.bind_eq_some_iff, takeSecret_eq_some,
    takeByte_eq_some, Option.pure_def, Option.some.injEq, dropWhile_ne_iff]
  constructor
  · rintro ⟨_, ⟨word, isSecret, rfl⟩, _, rfl, inner, plain, rfl, ends⟩
    exact ⟨word, inner, isSecret, plain, rfl, ends⟩
  · rintro ⟨word, inner, isSecret, plain, rfl, ends⟩
    exact ⟨_, ⟨word, isSecret, rfl⟩, _, rfl, inner, plain, rfl, ends⟩

theorem takeKey_eq_some :
    takeKey text = some after ↔ ∃ word left right, IsSecret word ∧
      (∀ byte ∈ left, isRegexSpace byte = true) ∧ (∀ byte ∈ right, isRegexSpace byte = true) ∧
      text = 34 :: (word ++ 34 :: (left ++ 58 :: (right ++ after))) ∧
      ∀ byte, after.head? = some byte → isRegexSpace byte = false := by
  simp only [takeKey, Option.bind_eq_bind, Option.bind_eq_some_iff, takeSecret_eq_some,
    takeByte_eq_some, Option.pure_def, Option.some.injEq, dropWhile_eq_iff]
  have colon : ∀ rest : Bytes, ∀ byte, (58 :: rest).head? = some byte → isRegexSpace byte = false := by
    rintro rest byte ⟨⟩
    decide
  constructor
  · rintro ⟨_, rfl, _, ⟨word, isSecret, rfl⟩, _, rfl, _, ⟨left, leftSpaces, rfl, _⟩, right, rightSpaces,
      rfl, ends⟩
    exact ⟨word, left, right, isSecret, leftSpaces, rightSpaces, rfl, ends⟩
  · rintro ⟨word, left, right, isSecret, leftSpaces, rightSpaces, rfl, ends⟩
    exact ⟨_, rfl, _, ⟨word, isSecret, rfl⟩, _, rfl, _, ⟨left, leftSpaces, rfl, colon _⟩, right,
      rightSpaces, rfl, ends⟩

theorem findJSON_eq_some :
    findJSON text = some after ↔
      ∃ inside, 34 ∉ inside ∧ takeKey text = some (34 :: (inside ++ 34 :: after)) := by
  simp only [findJSON, Option.bind_eq_bind, Option.bind_eq_some_iff,
    takeByte_eq_some, dropWhile_ne_iff]
  constructor
  · rintro ⟨_, key, _, rfl, inside, plain, rfl, _⟩
    exact ⟨inside, plain, key⟩
  · rintro ⟨inside, plain, key⟩
    exact ⟨_, key, _, rfl, inside, plain, rfl, by rintro byte ⟨⟩; rfl⟩

/-! ### Redaction -/

def secretFlatRe : Pattern UInt8 where
  find := findFlat
  behind found := by
    obtain ⟨word, inner, -, -, rfl, -⟩ := findFlat_eq_some.mp found
    exact ⟨word ++ 61 :: inner, by simp, by simp⟩

def secretJSONRe : Pattern UInt8 where
  find := findJSON
  behind found := by
    obtain ⟨inside, -, key⟩ := findJSON_eq_some.mp found
    obtain ⟨word, left, right, -, -, -, rfl, -⟩ := takeKey_eq_some.mp key
    exact ⟨34 :: (word ++ 34 :: (left ++ 58 :: (right ++ 34 :: (inside ++ [34])))), by simp, by simp⟩

def flatMask : Bytes := lit "secret=***"

def jsonMask : Bytes := lit "\"secret\":\"***\""

def redactFlat (text : Bytes) : Bytes :=
  secretFlatRe.replaceAll flatMask text

def redactJSON (text : Bytes) : Bytes :=
  secretJSONRe.replaceAll jsonMask text

def auditBodyMaxLen : Nat := 500

def cut (text : Bytes) : Bytes :=
  if auditBodyMaxLen < text.length then text.take auditBodyMaxLen ++ lit "...(truncated)" else text

def redactBody (body : Bytes) : Bytes :=
  cut (redactJSON (redactFlat body))

example : redactBody (lit "L1,buy,EURUSD,Secret=hunter2,risk=1") = lit "L1,buy,EURUSD,secret=***,risk=1" := by
  decide +kernel

end ExecRelay.Ingress
