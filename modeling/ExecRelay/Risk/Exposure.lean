/-
**The limit of an account, as ingress reads it.**

Ingress checks the positions of the account that is called like the instance, and it passes the license
as the text of the request to a column of ids: a text that spells no UUID makes the query fail, and a
query that fails lets the signal through (`refuses_iff_agreed`).
-/

import ExecRelay.Ingress.Gates
import ExecRelay.Risk.Service

namespace ExecRelay.Risk

open Lib
open Fills (Member)
open Ingress (LicenseRecord QueryError)

/-! ### The queries of ingress -/

/-- A hyphen may stand behind every second pair of digits but the last. -/
def skipHyphen (left : Nat) : Bytes → Bytes
  | 45 :: rest => if left % 2 = 0 ∧ 0 < left then rest else 45 :: rest
  | text => text

/-- The pairs of digits that are left of a UUID, behind the value of those in front. -/
def uuidPairs : Nat → Nat → Bytes → Option (Nat × Bytes)
  | value, 0, rest => some (value, rest)
  | value, left + 1, high :: low :: rest =>
    match hexValue high, hexValue low with
    | some high, some low =>
      uuidPairs (value * 256 + high.toNat * 16 + low.toNat) left (skipHyphen left rest)
    | _, _ => none
  | _, _ + 1, _ => none

/-- The id that a text spells for PostgreSQL, `uuid_in`: sixteen pairs of digits, which may stand in
braces. -/
def parseUUID (text : Bytes) : Option Nat :=
  match text with
  | 123 :: inner =>
    (uuidPairs 0 16 inner).bind fun (value, rest) => if rest = [125] then some value else none
  | text => (uuidPairs 0 16 text).bind fun (value, rest) => if rest = [] then some value else none

example : parseUUID (lit "a0eebc99-9c0b-4ef8-bb6d-6bb9bd380a11") =
    some 0xa0eebc999c0b4ef8bb6d6bb9bd380a11 := by decide +kernel

section Queries

variable {Number : Type} (numeric : Numeric Number) (book : Book Number)

/-- `COALESCE(SUM(position_size * current_price), 0.0)` of an account. -/
def Book.total (licenseId : Nat) (accountId : Bytes) : Number :=
  (book.positionsOf numeric licenseId accountId).foldl
    (fun total row =>
      match row.currentPrice with
      | some price => numeric.add total (numeric.mul row.positionSize price)
      | none => total)
    numeric.zero

def queryNotional (licenseID accountID : Bytes) : Except QueryError Float64 :=
  match parseUUID licenseID with
  | none => .error .failed
  | some licenseId => .ok (numeric.toFloat (book.total numeric licenseId accountID))

def queryLimit (licenseID accountID : Bytes) : Except QueryError (Option Float64) :=
  match parseUUID licenseID with
  | none => .error .failed
  | some licenseId =>
    match book.limitOf licenseId accountID with
    | none => .error .noRows
    | some row => .ok (row.maxNotionalUsd.map numeric.toFloat)

/-- The database is reachable: the two queries are answered from the tables. -/
structure Answers (licenseID accountID : Bytes) (answer : (op : Ingress.Op) → Ingress.Answer op) :
    Prop where
  notional : answer (.queryNotional licenseID accountID) =
    queryNotional numeric book licenseID accountID
  limit : answer (.queryLimit licenseID accountID) = queryLimit numeric book licenseID accountID

/-- **What a request is refused for**: the text of its license spells the id of a limit, for the account
that is called like the instance, and the positions of that account are above it. -/
def Agreed (licenseID accountID : Bytes) : Prop :=
  ∃ row ∈ book.limits, parseUUID licenseID = some row.licenseId ∧ row.accountId = accountID ∧
    ∃ limit, row.maxNotionalUsd = some limit ∧
      (numeric.toFloat limit).lt (numeric.toFloat (book.total numeric row.licenseId accountID)) = true

end Queries

def Refuses (config : Ingress.Config) (answer : (op : Ingress.Op) → Ingress.Answer op)
    (licenseID accountID : Bytes) : Prop :=
  ∃ result, (Ingress.checkExposureLimits config licenseID accountID).outcome answer = .ok result ∧
    result.allowedToProceed = false

section Requests

variable {Number : Type} {numeric : Numeric Number} {book : Book Number} {config : Ingress.Config}
  {licenseID accountID : Bytes} {answer : (op : Ingress.Op) → Ingress.Answer op}

theorem outcome_checkExposureLimits :
    (Ingress.checkExposureLimits config licenseID accountID).outcome answer =
      .ok (if answer (.queryNotional licenseID accountID) = .error .failed then
          { allowedToProceed := true }
        else Ingress.exposureOf config (answer (.queryNotional licenseID accountID))
          (answer (.queryLimit licenseID accountID))) := by
  rw [Ingress.checkExposureLimits, Ingress.invoke, Program.perform_bind, Program.outcome]
  split_ifs <;> rfl

theorem exceeded_iff (config : Ingress.Config) {licenseId : Nat} (spelled : parseUUID licenseID = some licenseId) :
    (Ingress.exposureOf config (queryNotional numeric book licenseID accountID)
      (queryLimit numeric book licenseID accountID)).allowedToProceed = false ↔
      Agreed numeric book licenseID accountID := by
  have agreed : Agreed numeric book licenseID accountID ↔
      ∃ row, book.limitOf licenseId accountID = some row ∧ ∃ limit, row.maxNotionalUsd = some limit ∧
        (numeric.toFloat limit).lt (numeric.toFloat (book.total numeric licenseId accountID)) = true := by
    constructor
    · rintro ⟨row, inside, named, account, limit, given, above⟩
      cases spelled.symm.trans named
      exact ⟨row, Book.limitOf_eq_some.mpr ⟨inside, rfl, account⟩, limit, given, above⟩
    · rintro ⟨row, found, limit, given, above⟩
      obtain ⟨inside, rfl, account⟩ := Book.limitOf_eq_some.mp found
      exact ⟨row, inside, spelled, account, limit, given, above⟩
  rw [agreed, queryNotional, queryLimit, spelled]
  cases found : book.limitOf licenseId accountID with
  | none => simp [Ingress.exposureOf, found]
  | some row =>
    cases given : row.maxNotionalUsd with
    | none => simp [Ingress.exposureOf, found, given]
    | some limit =>
      cases above : (numeric.toFloat limit).lt
          (numeric.toFloat (book.total numeric licenseId accountID)) <;>
        simp [Ingress.exposureOf, found, given, above]

/-- **The reader**: a request that reaches the check is refused if and only if ingress and the risk
service agree on the license and the account, and the positions are above the limit. -/
theorem refuses_iff_agreed (answers : Answers numeric book licenseID accountID answer) :
    Refuses config answer licenseID accountID ↔ Agreed numeric book licenseID accountID := by
  rw [Refuses, outcome_checkExposureLimits, answers.notional, answers.limit]
  cases spelled : parseUUID licenseID with
  | none =>
    refine iff_of_false ?_ ?_
    · rintro ⟨result, ⟨⟩, refused⟩
      rw [if_pos (by rw [queryNotional, spelled])] at refused
      cases refused
    · rintro ⟨row, -, named, -⟩
      cases spelled.symm.trans named
  | some licenseId =>
    rw [if_neg (by rw [queryNotional, spelled]; exact nofun), ← exceeded_iff config spelled]
    simp

end Requests

/-! ### A desk with a limit -/

def decimalOf : Member → Option ℚ
  | .other text _ =>
    if text ≠ [] ∧ text.all (fun byte => 48 ≤ byte && byte ≤ 57) = true then
      some (text.foldl (fun value byte => value * 10 + (byte.toNat - 48 : ℕ)) 0)
    else none
  | _ => none

def exactNumeric : Numeric ℚ where
  zero := 0
  add := (· + ·)
  mul := (· * ·)
  lt := fun left right => left < right
  isZero := fun value => value = 0
  fixed := fun _ => []
  toFloat := fun value =>
    if value = 2000 then ⟨0x409F400000000000⟩
    else if value = 1000 then ⟨0x408F400000000000⟩
    else .zero
  isAccount := fun accountId => accountId.length ≤ 100
  symbol := fun member =>
    match member with
    | .text symbol => if symbol.length ≤ 20 then some symbol else none
    | _ => none
  size := decimalOf
  price := fun member => if member = .null then some none else (decimalOf member).map some

def deskId : Nat := 0xa0eebc999c0b4ef8bb6d6bb9bd380a11

def deskText : Bytes := lit "a0eebc99-9c0b-4ef8-bb6d-6bb9bd380a11"

/-- The license has an instance and, for the account of that name, a limit of 1000. -/
def desk : Book ℚ where
  db :=
    { licenses := [⟨deskId, lit "60123456789", true⟩]
      instances := [⟨1, deskId, lit "mt5-a"⟩] }
  limits := [⟨deskId, lit "mt5-a", some 1000⟩]
  positionKeys := List.Pairwise.nil
  limitKeys := List.pairwise_singleton ..

def checking : Ingress.Config :=
  { Ingress.plainConfig with hasDB := true }

/-- The record of a license that ingress knows under the given text. -/
def recordOf (licenseID : Bytes) : LicenseRecord :=
  { Ingress.plainRecord with licenseID := licenseID, instanceID := lit "mt5-a" }

def checked (book : Book ℚ) (licenseID : Bytes) : (op : Ingress.Op) → Ingress.Answer op
  | .lookup _ => .ok (recordOf licenseID)
  | .queryNotional license account => queryNotional exactNumeric book license account
  | .queryLimit license account => queryLimit exactNumeric book license account
  | op => Ingress.obliging op

end ExecRelay.Risk
