/-
**The journal as CSV** (`apps/portal-api/app.py`).

`journal_export` streams the fills of a user as comma-separated values: `_csv_row` for every row. A
field that holds a comma, a quote or a line end is put between quotes.

How a time and a payload become texts is left open: `isoformat` and `dumps` are any functions.
-/

import ExecRelay.Lib.Csv
import Mathlib.Data.List.Forall2

namespace ExecRelay.Portal

open Lib
open Lib.Csv (readRecords)

/-- A row of the query; the columns that may be null are optional. -/
structure JournalRow (Time Payload : Type) where
  fillId : Bytes
  traceId : Option Bytes
  brokerOrderId : Option Bytes
  status : Bytes
  errorCode : Option Bytes
  errorMessage : Option Bytes
  payload : Option Payload
  createdAt : Time
  licenseKey : Bytes
  instanceKey : Option Bytes

/-- `_csv_escape`. -/
def csvEscape (text : Bytes) : Bytes :=
  if text.any fun byte => byte = 44 || byte = 34 || byte = 10 || byte = 13 then Csv.quote text
  else text

section Rows

variable {Time Payload : Type} (isoformat : Time → Bytes) (dumps : Payload → Bytes)

/-- The list `fields` of `_csv_row`. -/
def csvFields (row : JournalRow Time Payload) : List Bytes :=
  [row.fillId, row.traceId.getD [], row.brokerOrderId.getD [], row.status, row.errorCode.getD [],
    row.errorMessage.getD [], row.licenseKey, row.instanceKey.getD [], isoformat row.createdAt,
    (row.payload.map dumps).getD []]

/-- `_csv_row`. -/
def csvRow (row : JournalRow Time Payload) : Bytes :=
  [44].intercalate ((csvFields isoformat dumps row).map csvEscape) ++ [10]

/-- An escaped text is one of the two ways to write the text. -/
theorem writes_csvEscape (text : Bytes) : Csv.Writes text (csvEscape text) := by
  unfold csvEscape
  split
  · exact .quoted
  · rename_i fine
    refine .plain (List.all_eq_true.mpr fun byte member => ?_)
    have absent : ¬(byte = 44 || byte = 34 || byte = 10 || byte = 13) = true :=
      fun special => fine (List.any_eq_true.mpr ⟨byte, member, special⟩)
    simpa [Csv.isPlainByte, not_or, and_assoc] using absent

theorem writes_csvFields (row : JournalRow Time Payload) :
    List.Forall₂ Csv.Writes (csvFields isoformat dumps row)
      ((csvFields isoformat dumps row).map csvEscape) := by
  rw [List.forall₂_map_right_iff, List.forall₂_same]
  exact fun text _ => writes_csvEscape text

/-- **One record for each row, with its ten texts in order**, whatever stands in the fields. -/
theorem readRecords_csvRows (rows : List (JournalRow Time Payload)) :
    readRecords (rows.flatMap (csvRow isoformat dumps)) = some (rows.map fun row =>
      [row.fillId, row.traceId.getD [], row.brokerOrderId.getD [], row.status, row.errorCode.getD [],
        row.errorMessage.getD [], row.licenseKey, row.instanceKey.getD [], isoformat row.createdAt,
        (row.payload.map dumps).getD []]) :=
  Csv.readRecords_join rows (fun _ _ => List.cons_ne_nil _ _)
    fun row _ => writes_csvFields isoformat dumps row

end Rows

end ExecRelay.Portal
