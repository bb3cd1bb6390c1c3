/-
**The notional of a position, and the limit of its account.**

Ingress (`risk.go`) and the risk service (`apps/risk/app.py`) compare the sum of `position_size *
current_price` over the positions of an account with its limit. The sum is signed: short positions lower
it, however large they are. The risk service takes a limit of zero for none, and ingress asks by the text
of the request, which a column of ids takes for a UUID.

Both checks are run as they stand, over exact numbers and with the answers of one set of tables; the
doubles that ingress reads compare like the numbers they stand for (`Compares`).
-/

import ExecRelay.Risk.Exposure
import Mathlib.Algebra.Order.BigOperators.Group.List
import Mathlib.Algebra.Order.Ring.Rat

namespace ExecRelay.Risk

open Lib
open Ingress (QueryError)

/-! ### Exact numbers -/

/-- The arithmetic of the database is exact. -/
structure Exact (numeric : Numeric ℚ) : Prop where
  zero : numeric.zero = 0
  add : ∀ left right, numeric.add left right = left + right
  mul : ∀ left right, numeric.mul left right = left * right
  lt : ∀ left right, numeric.lt left right = decide (left < right)
  isZero : ∀ value, numeric.isZero value = decide (value = 0)

theorem exact_exactNumeric : Exact exactNumeric :=
  ⟨rfl, fun _ _ => rfl, fun _ _ => rfl, fun _ _ => rfl, fun _ => rfl⟩

/-- The doubles of two numbers compare like the numbers. -/
def Compares (numeric : Numeric ℚ) (left right : ℚ) : Prop :=
  (numeric.toFloat left).lt (numeric.toFloat right) = decide (left < right)

/-! ### The net notional -/

/-- The notional of a position. Without a price it has none. -/
def PositionRow.notional (row : PositionRow ℚ) : ℚ :=
  row.positionSize * row.currentPrice.getD 0

def Book.accountPositions (book : Book ℚ) (licenseId : Nat) (accountId : Bytes) :
    List (PositionRow ℚ) :=
  book.positions.filter fun row => row.licenseId = licenseId && row.accountId = accountId

/-- **The net notional of an account.** -/
def Book.net (book : Book ℚ) (licenseId : Nat) (accountId : Bytes) : ℚ :=
  ((book.accountPositions licenseId accountId).map PositionRow.notional).sum

section Net

variable {numeric : Numeric ℚ} {book : Book ℚ} {licenseId : Nat} {accountId : Bytes}

theorem sum_positionsOf (exact : Exact numeric) :
    ((book.positionsOf numeric licenseId accountId).map PositionRow.notional).sum =
      book.net licenseId accountId := by
  have split : book.positionsOf numeric licenseId accountId =
      (book.accountPositions licenseId accountId).filter fun row => row.positionSize ≠ 0 := by
    simp [Book.positionsOf, Book.accountPositions, List.filter_filter, exact.isZero, Bool.and_comm]
  rw [split, Book.net]
  induction book.accountPositions licenseId accountId with
  | nil => rfl
  | cons row rest ih =>
    rw [List.filter_cons]
    split_ifs with given
    · rw [List.map_cons, List.sum_cons, List.map_cons, List.sum_cons, ih]
    · have flat : row.positionSize = 0 := by simpa using given
      have none : row.notional = 0 := by
        rw [PositionRow.notional, flat, zero_mul]
      rw [List.map_cons, List.sum_cons, none, zero_add, ih]

theorem foldl_eq_add_sum {Row : Type} {step : ℚ → Row → ℚ} {amount : Row → ℚ}
    (adds : ∀ total row, step total row = total + amount row) (rows : List Row) (start : ℚ) :
    rows.foldl step start = start + (rows.map amount).sum := by
  induction rows generalizing start with
  | nil => simp
  | cons row rest ih => rw [List.foldl_cons, ih, adds, List.map_cons, List.sum_cons, add_assoc]

/-- **What ingress asks for.** -/
theorem total_eq_net (exact : Exact numeric) :
    book.total numeric licenseId accountId = book.net licenseId accountId := by
  rw [Book.total, exact.zero]
  refine (foldl_eq_add_sum (fun total row => ?_) _ 0).trans
    ((zero_add _).trans (sum_positionsOf exact))
  rw [PositionRow.notional]
  cases row.currentPrice with
  | none => simp
  | some price => exact (exact.add ..).trans (by rw [exact.mul, Option.getD_some])

/-- **What the risk service adds up.** -/
theorem totalNotional_eq_net (exact : Exact numeric) :
    totalNotional numeric ((book.positionsOf numeric licenseId accountId).map
      fun row => (row.positionSize, row.currentPrice)) = book.net licenseId accountId := by
  rw [totalNotional, List.foldl_map, exact.zero]
  refine (foldl_eq_add_sum (fun total row => ?_) _ 0).trans
    ((zero_add _).trans (sum_positionsOf exact))
  rw [exact.add, exact.mul, PositionRow.notional]

end Net

/-- A position of the account is above the limit, long or short. -/
def Exceeding (book : Book ℚ) (licenseId : Nat) (accountId : Bytes) (limit : ℚ) : Prop :=
  ∃ position ∈ book.accountPositions licenseId accountId, limit < |position.notional|

/-! ### The two checks -/

/-- The risk service reports a breach. -/
def Breaches (numeric : Numeric ℚ) (answer : (op : Op ℚ) → Answer op) (licenseId : Nat)
    (accountId : Bytes) : Prop :=
  ∃ report, (checkExposureLimits numeric licenseId accountId).outcome answer = .ok report ∧
    report.breached = true

/-- The queries of both services are answered from the tables. -/
structure Answered (numeric : Numeric ℚ) (book : Book ℚ) (licenseID : Bytes) (licenseId : Nat)
    (accountId : Bytes) (ingress : (op : Ingress.Op) → Ingress.Answer op)
    (risk : (op : Op ℚ) → Answer op) : Prop where
  ingress : Answers numeric book licenseID accountId ingress
  acquired : risk .acquire = .ok ()
  positions : risk (.fetchPositions licenseId accountId) =
    .ok ((book.positionsOf numeric licenseId accountId).map
      fun row => (row.positionSize, row.currentPrice))
  limitRow : risk (.fetchLimit licenseId accountId) =
    .ok ((book.limitOf licenseId accountId).map LimitRow.maxNotionalUsd)

section Checks

variable {numeric : Numeric ℚ} {book : Book ℚ} {licenseID : Bytes} {licenseId : Nat}
  {accountId : Bytes} {config : Ingress.Config} {ingress : (op : Ingress.Op) → Ingress.Answer op}
  {risk : (op : Op ℚ) → Answer op} {row : LimitRow ℚ} {limit : ℚ}

/-- **What ingress refuses for**, in exact numbers: the text that it asks by spells the id of a license
with a limit for this account, and the net notional of that license is above the limit. -/
def Book.Noticed (book : Book ℚ) (licenseID accountId : Bytes) : Prop :=
  ∃ row ∈ book.limits, parseUUID licenseID = some row.licenseId ∧ row.accountId = accountId ∧
    ∃ limit, row.maxNotionalUsd = some limit ∧ limit < book.net row.licenseId accountId

/-- The doubles of every limit and of the net notional below it compare like the numbers. -/
def Book.Compares (numeric : Numeric ℚ) (book : Book ℚ) : Prop :=
  ∀ row ∈ book.limits, ∀ limit, row.maxNotionalUsd = some limit →
    Risk.Compares numeric limit (book.net row.licenseId row.accountId)

theorem refuses_iff (exact : Exact numeric) (compares : book.Compares numeric)
    (answered : Answered numeric book licenseID licenseId accountId ingress risk) :
    Refuses config ingress licenseID accountId ↔ book.Noticed licenseID accountId := by
  have above (row : LimitRow ℚ) (inside : row ∈ book.limits) (limit : ℚ)
      (given : row.maxNotionalUsd = some limit) :
      (numeric.toFloat limit).lt (numeric.toFloat (book.total numeric row.licenseId row.accountId)) =
        decide (limit < book.net row.licenseId row.accountId) := by
    rw [total_eq_net exact]
    exact compares row inside limit given
  rw [refuses_iff_agreed answered.ingress]
  constructor
  · rintro ⟨row, inside, spelled, rfl, limit, given, exceeded⟩
    exact ⟨row, inside, spelled, rfl, limit, given,
      of_decide_eq_true ((above row inside limit given).symm.trans exceeded)⟩
  · rintro ⟨row, inside, spelled, rfl, limit, given, exceeded⟩
    exact ⟨row, inside, spelled, rfl, limit, given,
      (above row inside limit given).trans (decide_eq_true exceeded)⟩

theorem outcome_statement (op : Op ℚ) : (statement op).outcome risk = risk op := by
  rw [statement, Program.perform_bind, Program.outcome]
  cases risk op <;> rfl

theorem breaches_iff (exact : Exact numeric) (found : book.limitOf licenseId accountId = some row)
    (given : row.maxNotionalUsd = some limit)
    (answered : Answered numeric book licenseID licenseId accountId ingress risk) :
    Breaches numeric risk licenseId accountId ↔ limit ≠ 0 ∧ limit < book.net licenseId accountId := by
  have checked : (checkExposureLimits numeric licenseId accountId).outcome risk =
      .ok (exposureReport numeric ((book.positionsOf numeric licenseId accountId).map
        fun row => (row.positionSize, row.currentPrice)) (some (some limit))) := by
    have limited : risk (.fetchLimit licenseId accountId) = .ok (some (some limit)) := by
      rw [answered.limitRow, found, Option.map_some, given]
    rw [checkExposureLimits, Program.outcome_bind, outcome_statement, answered.acquired]
    refine (Program.outcome_bind risk _ _).trans ?_
    rw [outcome_statement, answered.positions]
    refine (Program.outcome_bind risk _ _).trans ?_
    rw [outcome_statement, limited]
    rfl
  have breached : (exposureReport numeric ((book.positionsOf numeric licenseId accountId).map
      fun row => (row.positionSize, row.currentPrice)) (some (some limit))).breached =
        (!decide (limit = 0) && decide (limit < book.net licenseId accountId)) := by
    rw [exposureReport, totalNotional_eq_net exact, ← exact.isZero, ← exact.lt, Option.join_some]
    dsimp only
    split_ifs with above
    · exact above.symm
    · exact ((Bool.not_eq_true _).mp above).symm
  rw [Breaches, checked]
  simp [breached]

/-- **The limit is enforced for every position**: with one above it, both services object. -/
def Enforced (config : Ingress.Config) (numeric : Numeric ℚ) (book : Book ℚ) (licenseID : Bytes)
    (row : LimitRow ℚ) (limit : ℚ) (ingress : (op : Ingress.Op) → Ingress.Answer op)
    (risk : (op : Op ℚ) → Answer op) : Prop :=
  Exceeding book row.licenseId row.accountId limit →
    Refuses config ingress licenseID row.accountId ∧ Breaches numeric risk row.licenseId row.accountId

/-- **The limit is enforced** exactly if, with a position above it, the net notional is above it as well,
the limit is not zero, and ingress asks by the text of an id: by the UUID of this license, or of another
one that is above its limit for the account. -/
theorem enforced_iff (exact : Exact numeric) (limited : row ∈ book.limits)
    (given : row.maxNotionalUsd = some limit) (compares : book.Compares numeric)
    (answered : Answered numeric book licenseID row.licenseId row.accountId ingress risk) :
    Enforced config numeric book licenseID row limit ingress risk ↔
      (Exceeding book row.licenseId row.accountId limit →
        limit ≠ 0 ∧ limit < book.net row.licenseId row.accountId ∧
          book.Noticed licenseID row.accountId) := by
  have found : book.limitOf row.licenseId row.accountId = some row :=
    Book.limitOf_eq_some.mpr ⟨limited, rfl, rfl⟩
  rw [Enforced, refuses_iff exact compares answered, breaches_iff exact found given answered]
  constructor
  · intro both above
    obtain ⟨noticed, breached⟩ := both above
    exact ⟨breached.1, breached.2, noticed⟩
  · intro both above
    obtain ⟨nonzero, exceeded, noticed⟩ := both above
    exact ⟨noticed, nonzero, exceeded⟩

end Checks

/-! ### A hedged account -/

/-- Two at 1000 long, two at 1000 short, and a limit of 1000. -/
def hedged : Book ℚ :=
  { desk with
    positions := [⟨deskId, lit "mt5-a", lit "XAUUSD", 2, none, some 1000⟩,
      ⟨deskId, lit "mt5-a", lit "XAGUSD", -2, none, some 1000⟩]
    positionKeys := by simp [PositionRow.Apart]; decide }

/-- The answers of the tables to the risk service. -/
def reporting (book : Book ℚ) : (op : Op ℚ) → Answer op
  | .fetchPositions licenseId accountId =>
    .ok ((book.positionsOf exactNumeric licenseId accountId).map
      fun row => (row.positionSize, row.currentPrice))
  | .fetchLimit licenseId accountId =>
    .ok ((book.limitOf licenseId accountId).map LimitRow.maxNotionalUsd)
  | .selectLicense _ => .ok none
  | .acquire => .ok ()
  | .upsertPosition _ => .ok ()
  | .insertBreach _ => .ok ()
  | .ack => .ok ()

theorem answered_reporting (book : Book ℚ) (licenseID : Bytes) (licenseId : Nat) (accountId : Bytes) :
    Answered exactNumeric book licenseID licenseId accountId (checked book licenseID) (reporting book) :=
  ⟨⟨rfl, rfl⟩, rfl, rfl, rfl⟩

def hedgedLimit : LimitRow ℚ :=
  ⟨deskId, lit "mt5-a", some 1000⟩

theorem limitOf_hedged : hedged.limitOf deskId (lit "mt5-a") = some hedgedLimit :=
  Book.limitOf_eq_some.mpr ⟨List.mem_singleton_self _, rfl, rfl⟩

theorem net_hedged : hedged.net deskId (lit "mt5-a") = 0 := by
  decide +kernel

theorem compares_hedged : hedged.Compares exactNumeric := by
  intro row inside limit given
  cases List.mem_singleton.mp inside
  cases given
  show Compares exactNumeric 1000 (hedged.net deskId (lit "mt5-a"))
  rw [net_hedged, Compares]
  decide +kernel

theorem enforced_iff_hedged :
    Exact exactNumeric ∧ hedgedLimit ∈ hedged.limits ∧
      (Enforced checking exactNumeric hedged deskText hedgedLimit 1000 (checked hedged deskText)
          (reporting hedged) ↔
        (Exceeding hedged hedgedLimit.licenseId hedgedLimit.accountId 1000 →
          (1000 : ℚ) ≠ 0 ∧ 1000 < hedged.net hedgedLimit.licenseId hedgedLimit.accountId ∧
            hedged.Noticed deskText hedgedLimit.accountId)) :=
  ⟨exact_exactNumeric, List.mem_singleton_self _,
    enforced_iff exact_exactNumeric (List.mem_singleton_self _) rfl compares_hedged
      (answered_reporting ..)⟩

/-- The short position is closed. -/
def unhedged : Book ℚ :=
  { desk with
    positions := [⟨deskId, lit "mt5-a", lit "XAUUSD", 2, none, some 1000⟩]
    positionKeys := by simp [PositionRow.Apart] }

theorem not_refuses_unspelled {book : Book ℚ} {licenseID accountId : Bytes}
    (unspelled : parseUUID licenseID = none) :
    ¬Refuses checking (checked book licenseID) licenseID accountId := by
  rw [refuses_iff_agreed ⟨rfl, rfl⟩]
  rintro ⟨row, -, spelled, -⟩
  cases unspelled.symm.trans spelled

/-- **Neither service notices** two positions of twice the limit that cancel out, and ingress notices
no position at all when it asks by the key of the license. -/
theorem hedged_unnoticed :
    (Exceeding hedged deskId (lit "mt5-a") 1000 ∧
      ¬Refuses checking (checked hedged deskText) deskText (lit "mt5-a") ∧
      ¬Breaches exactNumeric (reporting hedged) deskId (lit "mt5-a")) ∧
    Exceeding unhedged deskId (lit "mt5-a") 1000 ∧
      ¬Refuses checking (checked unhedged (lit "60123456789")) (lit "60123456789") (lit "mt5-a") := by
  refine ⟨⟨?_, ?_, ?_⟩, ?_, not_refuses_unspelled (by decide +kernel)⟩
  · exact ⟨⟨deskId, lit "mt5-a", lit "XAUUSD", 2, none, some 1000⟩,
      List.mem_filter.mpr ⟨List.mem_cons_self .., by decide +kernel⟩, by decide +kernel⟩
  · rw [refuses_iff exact_exactNumeric compares_hedged (answered_reporting hedged deskText deskId _)]
    rintro ⟨row, inside, -, -, limit, given, exceeded⟩
    cases List.mem_singleton.mp inside
    cases given
    rw [net_hedged] at exceeded
    exact absurd exceeded (by decide +kernel)
  · rw [breaches_iff exact_exactNumeric limitOf_hedged rfl (answered_reporting hedged deskText ..),
      net_hedged]
    decide +kernel
  · exact ⟨⟨deskId, lit "mt5-a", lit "XAUUSD", 2, none, some 1000⟩,
      List.mem_filter.mpr ⟨List.mem_cons_self .., by decide +kernel⟩, by decide +kernel⟩

end ExecRelay.Risk
