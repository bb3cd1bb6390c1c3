/-
**The table of the fills** (`infra/migrations/000001_foundation.up.sql`).

Persist and the task that looks for missing fills insert rows with `ON CONFLICT DO NOTHING`. The id of a
row is its primary key and is generated with the row, and no other columns are unique: the clause only
drops a row whose id was generated before. A `FillTable` carries that key.
-/

import ExecRelay.Fills.Persist
import Mathlib.Data.List.Nodup

namespace ExecRelay.Fills

open Lib

/-! ### The rows -/

/-- A row with all its columns. -/
structure StoredFill where
  id : Nat
  createdAt : Int
  signalId : Option Nat := none
  licenseId : Nat
  instanceId : Option Nat := none
  traceId : Bytes
  status : Bytes
  brokerOrderId : Option Bytes := none
  errorCode : Option Bytes := none
  errorMessage : Option Bytes := none
  payload : FillDict
deriving DecidableEq, Repr

/-- The value of a column of type `TEXT NOT NULL`: the driver takes strings. -/
def Member.column : Member → Option Bytes
  | .text value => some value
  | _ => none

/-- The value of a column of type `TEXT`. -/
def Member.nullableColumn : Member → Option (Option Bytes)
  | .null => some none
  | .text value => some (some value)
  | .other _ _ => none

/-- The row that `persist_fill` inserts, with the defaults of the other columns. There is none if a
column does not take its value. -/
def FillRow.stored (row : FillRow) (id : Nat) (createdAt : Int) : Option StoredFill := do
  let traceId ← row.traceId.column
  let status ← row.status.column
  let brokerOrderId ← row.brokerOrderId.nullableColumn
  let errorCode ← row.errorCode.nullableColumn
  let errorMessage ← row.errorMessage.nullableColumn
  return { id, createdAt, licenseId := row.licenseId, traceId, status, brokerOrderId, errorCode,
           errorMessage, payload := row.payload }

theorem stored_eq_some {row : FillRow} {id : Nat} {createdAt : Int} {stored : StoredFill}
    (storedAs : row.stored id createdAt = some stored) :
    stored.id = id ∧ stored.licenseId = row.licenseId ∧ stored.instanceId = none ∧
      row.traceId = .text stored.traceId ∧ row.status = .text stored.status ∧
      stored.payload = row.payload := by
  have text {member : Member} {value : Bytes} (column : member.column = some value) :
      member = .text value := by
    unfold Member.column at column
    split at column
    · cases column
      rfl
    · cases column
  simp only [FillRow.stored, Option.bind_eq_bind, Option.bind_eq_some_iff, Option.pure_def,
    Option.some.injEq] at storedAs
  obtain ⟨traceId, trace, status, state, _, _, _, _, _, _, rfl⟩ := storedAs
  exact ⟨rfl, rfl, rfl, text trace, text state, rfl⟩

/-! ### The table -/

/-- The rows, with their primary key. -/
structure FillTable where
  rows : List StoredFill := []
  ids : (rows.map StoredFill.id).Nodup

namespace FillTable

def empty : FillTable :=
  ⟨[], List.nodup_nil⟩

def has (table : FillTable) (id : Nat) : Bool :=
  table.rows.any fun row => row.id = id

theorem has_iff {table : FillTable} {id : Nat} :
    table.has id = true ↔ id ∈ table.rows.map StoredFill.id := by
  simp [has]

/-- `INSERT ... ON CONFLICT DO NOTHING`. -/
def insert (table : FillTable) (row : StoredFill) : FillTable :=
  if known : table.has row.id = true then table
  else
    { rows := table.rows ++ [row]
      ids := by
        rw [has_iff] at known
        rw [List.map_append, List.map_singleton]
        exact List.nodup_append.mpr ⟨table.ids, List.nodup_singleton _, fun id inside other last same =>
          known (by rwa [← List.mem_singleton.mp last, ← same])⟩ }

theorem rows_insert (table : FillTable) (row : StoredFill) :
    (table.insert row).rows = if table.has row.id then table.rows else table.rows ++ [row] := by
  unfold insert
  split <;> rfl

theorem mem_rows_insert {table : FillTable} {row other : StoredFill} :
    other ∈ (table.insert row).rows ↔
      other ∈ table.rows ∨ (other = row ∧ table.has row.id = false) := by
  rw [rows_insert]
  cases known : table.has row.id with
  | true => simp
  | false => simp

/-- What happens to the table: an insertion, a deletion, and `ON DELETE SET NULL` for an instance. -/
inductive Change
  | insert (row : StoredFill)
  | delete (isGone : StoredFill → Bool)
  | unlink (instanceId : Nat)

def unlinked (instanceId : Nat) (row : StoredFill) : StoredFill :=
  if row.instanceId = some instanceId then { row with instanceId := none } else row

theorem id_unlinked (instanceId : Nat) (row : StoredFill) : (unlinked instanceId row).id = row.id := by
  unfold unlinked
  split <;> rfl

def change (table : FillTable) : Change → FillTable
  | .insert row => table.insert row
  | .delete isGone =>
    { rows := table.rows.filter fun row => !isGone row
      ids := table.ids.sublist (List.filter_sublist.map _) }
  | .unlink instanceId =>
    { rows := table.rows.map (unlinked instanceId)
      ids := by
        rw [List.map_map]
        have same : StoredFill.id ∘ unlinked instanceId = StoredFill.id :=
          funext (id_unlinked instanceId)
        rw [same]
        exact table.ids }

def changes (table : FillTable) (steps : List Change) : FillTable :=
  steps.foldl change table

end FillTable

end ExecRelay.Fills
