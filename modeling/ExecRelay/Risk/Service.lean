/-
**Positions as the risk service reads them.**

The service compares the positions of an account with its limit. Numbers are those of the database; what
the driver and the columns make of a value is up to it (`Numeric`). A book carries the unique columns of
its tables.
-/

import ExecRelay.Fills.Persist
import ExecRelay.Lib.Float64

namespace ExecRelay.Risk

open Lib
open Fills (Member)
open Persist (Database Failure)

/-! ### The tables -/

structure PositionRow (Number : Type) where
  licenseId : Nat
  accountId : Bytes
  symbol : Bytes
  positionSize : Number
  entryPrice : Option Number
  currentPrice : Option Number

/-- Two rows that `UNIQUE (license_id, account_id, symbol)` lets stand. -/
def PositionRow.Apart {Number : Type} (left right : PositionRow Number) : Prop :=
  ¬(left.licenseId = right.licenseId ∧ left.accountId = right.accountId ∧ left.symbol = right.symbol)

structure LimitRow (Number : Type) where
  licenseId : Nat
  accountId : Bytes
  maxNotionalUsd : Option Number

/-- Two rows that `UNIQUE (license_id, account_id)` lets stand. -/
def LimitRow.Apart {Number : Type} (left right : LimitRow Number) : Prop :=
  ¬(left.licenseId = right.licenseId ∧ left.accountId = right.accountId)

/-- The tables that the service reads and writes. -/
structure Book (Number : Type) where
  db : Database
  positions : List (PositionRow Number) := []
  limits : List (LimitRow Number) := []
  positionKeys : positions.Pairwise PositionRow.Apart
  limitKeys : limits.Pairwise LimitRow.Apart

/-- The values of a position, as they are passed to the driver. -/
structure PositionValues where
  licenseId : Nat
  accountId : Bytes
  symbol : Member
  size : Member
  entryPrice : Member
  currentPrice : Member

/-- The numbers of the database, and its columns: what a value is stored as, if it is let in. -/
structure Numeric (Number : Type) where
  zero : Number
  add : Number → Number → Number
  mul : Number → Number → Number
  lt : Number → Number → Bool
  isZero : Number → Bool
  /-- A number with two decimals. -/
  fixed : Number → Bytes
  /-- A number that is scanned into a double. -/
  toFloat : Number → Float64
  /-- The account is short enough for its column. -/
  isAccount : Bytes → Bool
  symbol : Member → Option Bytes
  size : Member → Option Number
  price : Member → Option (Option Number)

section Rows

variable {Number : Type} (numeric : Numeric Number)

def Book.positionsOf (book : Book Number) (licenseId : Nat) (accountId : Bytes) :
    List (PositionRow Number) :=
  book.positions.filter fun row =>
    row.licenseId = licenseId && row.accountId = accountId && !numeric.isZero row.positionSize

def Book.limitOf (book : Book Number) (licenseId : Nat) (accountId : Bytes) :
    Option (LimitRow Number) :=
  book.limits.find? fun row => row.licenseId = licenseId && row.accountId = accountId

theorem Book.limitOf_eq_some {book : Book Number} {licenseId : Nat} {accountId : Bytes}
    {row : LimitRow Number} : book.limitOf licenseId accountId = some row ↔
      row ∈ book.limits ∧ row.licenseId = licenseId ∧ row.accountId = accountId := by
  constructor
  · intro found
    have fine := List.find?_some found
    rw [Bool.and_eq_true, decide_eq_true_eq, decide_eq_true_eq] at fine
    exact ⟨List.mem_of_find?_eq_some found, fine⟩
  · rintro ⟨inside, rfl, rfl⟩
    obtain ⟨front, back, parts⟩ := List.append_of_mem inside
    have keys := book.limitKeys
    rw [parts] at keys
    have apart := (List.pairwise_append.mp keys).2.2
    rw [Book.limitOf, parts, List.find?_append, List.find?_eq_none.mpr, Option.none_or,
      List.find?_cons_of_pos (by simp)]
    intro other before same
    rw [Bool.and_eq_true, decide_eq_true_eq, decide_eq_true_eq] at same
    exact apart other before row (List.mem_cons_self ..) same

end Rows

/-! ### The handler -/

/-- A row of `risk_breach_log`. -/
structure BreachRow (Number : Type) where
  licenseId : Nat
  accountId : Bytes
  breachType : Bytes
  currentValue : Number
  limitValue : Option Number
  reason : Option Bytes

inductive Op (Number : Type)
  | acquire
  | selectLicense (instanceKey : Bytes)
  | upsertPosition (values : PositionValues)
  /-- The size and the price of each position. -/
  | fetchPositions (licenseId : Nat) (accountId : Bytes)
  | fetchLimit (licenseId : Nat) (accountId : Bytes)
  | insertBreach (row : BreachRow Number)
  | ack

@[reducible]
def Value {Number : Type} : Op Number → Type
  | .selectLicense _ => Option Nat
  | .fetchPositions _ _ => List (Number × Option Number)
  | .fetchLimit _ _ => Option (Option Number)
  | _ => Unit

abbrev Answer {Number : Type} (op : Op Number) : Type := Except Failure (Value op)

abbrev Handling (Number : Type) := Program (Op Number) Answer Failure

section Handler

variable {Number : Type} (numeric : Numeric Number)

def statement (op : Op Number) : Handling Number (Value op) := do
  match ← Program.perform op with
  | .ok value => return value
  | .error failure => .fail failure

structure ExposureReport (Number : Type) where
  totalNotional : Number
  limit : Option Number
  breached : Bool
  reason : Option Bytes

/-- `sum((p["position_size"] or 0) * (p["current_price"] or 0) for p in positions)`. -/
def totalNotional (positions : List (Number × Option Number)) : Number :=
  positions.foldl
    (fun total position => numeric.add total (numeric.mul position.1 (position.2.getD numeric.zero)))
    numeric.zero

/-- What the positions and the limit of an account come to. A limit of zero is none. -/
def exposureReport (positions : List (Number × Option Number)) (limit : Option (Option Number)) :
    ExposureReport Number :=
  let total := totalNotional numeric positions
  match limit.join with
  | some limit =>
    if !numeric.isZero limit && numeric.lt limit total then
      ⟨total, some limit, true, some (lit "Notional exposure $" ++ numeric.fixed total ++
        lit " exceeds limit $" ++ numeric.fixed limit)⟩
    else ⟨total, some limit, false, none⟩
  | none => ⟨total, none, false, none⟩

def checkExposureLimits (licenseId : Nat) (accountId : Bytes) :
    Handling Number (ExposureReport Number) := do
  statement .acquire
  let positions ← statement (.fetchPositions licenseId accountId)
  let limit ← statement (.fetchLimit licenseId accountId)
  return exposureReport numeric positions limit

/-- `parts[2]`. -/
def subjectAccount (subject : Bytes) : Bytes :=
  ((subject.splitOn 46)[2]?).getD []

end Handler

end ExecRelay.Risk
