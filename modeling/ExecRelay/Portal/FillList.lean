/-
**The fills of an instance** (`apps/portal-api/app.py`).

`list_fills` returns the newest fills of an instance, by the column `instance_id`. Persist looks up the
instance of a fill and writes only its license: the column stays empty, and nothing else fills it in.
-/

import ExecRelay.Fills.Table
import ExecRelay.Portal.Replay

namespace ExecRelay.Portal

open Lib
open Fills (FillDict FillTable StoredFill persistFill)

/-! ### The endpoint -/

structure FillOut where
  id : Nat
  createdAt : Int
  traceId : Bytes
  status : Bytes
  brokerOrderId : Option Bytes
  errorCode : Option Bytes
  errorMessage : Option Bytes
deriving DecidableEq, Repr

def FillOut.ofRow (row : StoredFill) : FillOut where
  id := row.id
  createdAt := row.createdAt
  traceId := row.traceId
  status := row.status
  brokerOrderId := row.brokerOrderId
  errorCode := row.errorCode
  errorMessage := row.errorMessage

/-- `max(1, min(limit, 500))`. -/
def clampLimit (limit : Int) : Nat :=
  (max 1 (min limit 500)).toNat

/-- `ORDER BY created_at DESC`; rows of one time come in any order. -/
structure Newest (order : List StoredFill → List StoredFill) : Prop where
  perm : ∀ rows, (order rows).Perm rows
  sorted : ∀ rows, (order rows).Pairwise fun newer older => older.createdAt ≤ newer.createdAt

/-- The ids of the path are `none` if they are no UUIDs: `_own_license` answers that, and the id of the
instance makes `uuid.UUID` raise. -/
def listFills (order : List StoredFill → List StoredFill) (db : Database) (fills : FillTable)
    (userID : Nat) (licenseID instanceID : Option Nat) (limit : Int) :
    Except HTTPException (List FillOut) :=
  match licenseID.bind (db.licenseOf userID) with
  | none => .error ⟨404, lit "license not found"⟩
  | some license =>
    match instanceID with
    | none => .error internalServerError
    | some instanceID =>
      match db.instances.find? fun row => row.id = instanceID && row.licenseId = license.id with
      | none => .error ⟨404, lit "instance not found"⟩
      | some placed =>
        let rows := order (fills.rows.filter fun row => row.instanceId = some placed.id)
        .ok ((rows.take (clampLimit limit)).map FillOut.ofRow)

def Lists (order : List StoredFill → List StoredFill) (db : Database) (fills : FillTable)
    (userID : Nat) (licenseID instanceID : Option Nat) (limit : Int) (fill : StoredFill) : Prop :=
  ∃ items, listFills order db fills userID licenseID instanceID limit = .ok items ∧
    ∃ item ∈ items, item.id = fill.id

theorem instance_of_lists {order : List StoredFill → List StoredFill} (newest : Newest order)
    {db : Database} {fills : FillTable} {userID : Nat} {licenseID instanceID : Option Nat} {limit : Int}
    {fill : StoredFill} (lists : Lists order db fills userID licenseID instanceID limit fill) :
    ∃ row ∈ fills.rows, row.id = fill.id ∧ row.instanceId ≠ none := by
  obtain ⟨items, answered, item, member, same⟩ := lists
  unfold listFills at answered
  split at answered
  · cases answered
  · split at answered
    · cases answered
    · split at answered
      · cases answered
      · cases answered
        obtain ⟨row, taken, rfl⟩ := List.mem_map.mp member
        have inside := (newest.perm _).subset (List.mem_of_mem_take taken)
        obtain ⟨known, placed⟩ := List.mem_filter.mp inside
        refine ⟨row, known, same, ?_⟩
        rw [of_decide_eq_true placed]
        exact Option.some_ne_none _

/-! ### What persist inserts -/

/-- **`persist_fill` inserts the row** after the query has returned the license and the instance. -/
def Inserts (fill : FillDict) (licenseId instanceId : Nat) (stored : StoredFill) : Prop :=
  ∃ log rest event row id createdAt, (persistFill fill).Path log rest ∧
    (⟨.selectInstance (fill.get (lit "instance_id") (.text [])), .ok (some (licenseId, instanceId))⟩ :
      Event Fills.Op Fills.Answer) ∈ log ∧
    event ∈ log ∧ Fills.written event = some row ∧ row.stored id createdAt = some stored

theorem no_instance_of_inserts {fill : FillDict} {licenseId instanceId : Nat} {stored : StoredFill}
    (inserts : Inserts fill licenseId instanceId stored) : stored.instanceId = none := by
  obtain ⟨_, _, _, _, _, _, _, _, _, _, storedAs⟩ := inserts
  exact (Fills.stored_eq_some storedAs).2.2.1

def OfNoInstance (id : Nat) (fills : FillTable) : Prop :=
  ∀ row ∈ fills.rows, row.id = id → row.instanceId = none

theorem ofNoInstance_insert {fills : FillTable} {stored : StoredFill}
    (empty : stored.instanceId = none) (free : fills.has stored.id = false) :
    OfNoInstance stored.id (fills.insert stored) := by
  intro row member same
  rcases FillTable.mem_rows_insert.mp member with old | ⟨rfl, _⟩
  · have known : fills.has stored.id = true :=
      FillTable.has_iff.mpr (same ▸ List.mem_map_of_mem old)
    rw [known] at free
    cases free
  · exact empty

/-- **It never gets one.** -/
theorem ofNoInstance_changes {id : Nat} {fills : FillTable} (good : OfNoInstance id fills)
    {steps : List FillTable.Change} (fresh : ∀ row, .insert row ∈ steps → row.id ≠ id) :
    OfNoInstance id (fills.changes steps) := by
  induction steps generalizing fills with
  | nil => exact good
  | cons step rest ih =>
    refine ih ?_ fun row member => fresh row (List.mem_cons_of_mem _ member)
    intro row member same
    cases step with
    | insert added =>
      rcases FillTable.mem_rows_insert.mp member with old | ⟨rfl, _⟩
      · exact good row old same
      · exact absurd same (fresh row (List.mem_cons_self ..))
    | delete isGone => exact good row (List.mem_filter.mp member).1 same
    | unlink instanceId =>
      obtain ⟨old, inside, rfl⟩ := List.mem_map.mp member
      rw [FillTable.id_unlinked] at same
      have empty := good old inside same
      unfold FillTable.unlinked
      split
      · rfl
      · exact empty

/-- **The endpoint never returns a fill that persist has inserted**: not to the owner of its license, for
the instance that was found, under any limit, then or later. -/
theorem list_fills_omits {order : List StoredFill → List StoredFill} (newest : Newest order)
    {fill : FillDict} {licenseId instanceId : Nat} {stored : StoredFill}
    (inserts : Inserts fill licenseId instanceId stored) {fills : FillTable}
    (free : fills.has stored.id = false) {steps : List FillTable.Change}
    (fresh : ∀ row, .insert row ∈ steps → row.id ≠ stored.id) (db : Database) (userID : Nat)
    (limit : Int) :
    ¬Lists order db ((fills.insert stored).changes steps) userID (some licenseId) (some instanceId)
      limit stored := by
  intro lists
  obtain ⟨row, member, same, given⟩ := instance_of_lists newest lists
  have good := ofNoInstance_changes (ofNoInstance_insert (no_instance_of_inserts inserts) free) fresh
  exact given (good row member same)

/-! ### The first fill of an instance -/

def ownedDatabase : Database where
  licenses := [⟨1, 9, lit "60123456789"⟩]
  instances := [⟨⟨1, lit "main-1", lit "mt5", true⟩, 5⟩]

def firstFill : FillDict :=
  [(lit "trace_id", .text (lit "t-1")), (lit "status", .text (lit "filled")),
    (lit "instance_id", .text (lit "main-1"))]

def firstRow : StoredFill where
  id := 77
  createdAt := 1700000000
  licenseId := 1
  traceId := lit "t-1"
  status := lit "filled"
  payload := firstFill

theorem inserts_firstRow : Inserts firstFill 1 5 firstRow := by
  have path : (persistFill firstFill).Path
      [⟨.acquire, .ok ()⟩, ⟨.selectInstance (.text (lit "main-1")), .ok (some (1, 5))⟩,
        ⟨.insertFill (Fills.fillRow firstFill 1), .ok ()⟩] (.done ()) :=
    Program.Path.of_outcome (Fills.returning (1, 5)) rfl
  exact ⟨_, _, ⟨.insertFill (Fills.fillRow firstFill 1), .ok ()⟩, Fills.fillRow firstFill 1, 77,
    1700000000, path, List.mem_cons_of_mem _ (List.mem_cons_self ..), by simp, rfl, by decide +kernel⟩

def byTime (rows : List StoredFill) : List StoredFill :=
  rows.mergeSort fun newer older => older.createdAt ≤ newer.createdAt

theorem newest_byTime : Newest byTime where
  perm rows := List.mergeSort_perm rows _
  sorted rows := by
    have sorted : (byTime rows).Pairwise fun newer older =>
        decide (older.createdAt ≤ newer.createdAt) = true :=
      List.pairwise_mergeSort
        (fun first second third => by simpa using fun older newer => newer.trans older)
        (fun first second => by simpa using le_total second.createdAt first.createdAt) rows
    exact sorted.imp fun holds => of_decide_eq_true holds

theorem list_fills_omits_first :
    Newest byTime ∧ Inserts firstFill 1 5 firstRow ∧ FillTable.empty.has firstRow.id = false ∧
      ¬Lists byTime ownedDatabase ((FillTable.empty.insert firstRow).changes []) 9 (some 1) (some 5) 50
        firstRow :=
  ⟨newest_byTime, inserts_firstRow, rfl,
    list_fills_omits newest_byTime inserts_firstRow rfl (fun _ member => absurd member List.not_mem_nil) _ _ _⟩

/-- **The owner gets no fills** for the instance, although one was inserted. -/
theorem list_fills_empty :
    Inserts firstFill 1 5 firstRow ∧
      listFills byTime ownedDatabase (FillTable.empty.insert firstRow) 9 (some 1) (some 5) 50 = .ok [] ∧
      ¬Lists byTime ownedDatabase (FillTable.empty.insert firstRow) 9 (some 1) (some 5) 50 firstRow := by
  have none : listFills byTime ownedDatabase (FillTable.empty.insert firstRow) 9 (some 1) (some 5) 50 =
      .ok [] := by
    have unplaced : ((FillTable.empty.insert firstRow).rows.filter
        fun row => row.instanceId = some 5) = [] := by decide +kernel
    calc listFills byTime ownedDatabase (FillTable.empty.insert firstRow) 9 (some 1) (some 5) 50
        = .ok (((byTime ((FillTable.empty.insert firstRow).rows.filter
            fun row => row.instanceId = some 5)).take (clampLimit 50)).map FillOut.ofRow) := rfl
      _ = .ok [] := by
          rw [unplaced]
          simp [byTime]
  refine ⟨inserts_firstRow, none, ?_⟩
  rintro ⟨items, answered, item, member, _⟩
  cases none.symm.trans answered
  cases member

end ExecRelay.Portal
