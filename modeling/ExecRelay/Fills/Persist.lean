/-
**Fills as persist writes them.**

`on_fill` takes the instance id from the subject of a message. `persist_fill` looks for an active license
with an instance of that key and writes the fill as a row of the license. The query names no license and
no order, so that of several such licenses any may be returned.
-/

import ExecRelay.Persist.Service

namespace ExecRelay.Fills

open Lib
open Lib.Program (Path)
open Nats (Message)
open Persist (Database DeadLetter Failure)

/-! ### The fill and its row -/

/-- A value that `json.loads` has read. A value that is no string is known by its text and whether it
counts as true. -/
inductive Member
  | null
  | text (value : Bytes)
  | other (dumped : Bytes) (isTruthy : Bool)
deriving DecidableEq, Repr

/-- `value or None` -/
def Member.orNone : Member → Member
  | .text [] => .null
  | .other _ false => .null
  | member => member

abbrev FillDict := List (Bytes × Member)

namespace FillDict

variable (fill : FillDict)

def get (key : Bytes) (default : Member) : Member :=
  (fill.lookup key).getD default

def set (key : Bytes) (value : Member) : FillDict :=
  if (fill.lookup key).isSome then
    fill.map fun member => if key = member.1 then (member.1, value) else member
  else fill ++ [(key, value)]

theorem lookup_map (key : Bytes) (value : Member) :
    (fill.map fun member => if key = member.1 then (member.1, value) else member).lookup key =
      (fill.lookup key).map fun _ => value := by
  induction fill with
  | nil => rfl
  | cons member rest ih =>
    obtain ⟨name, old⟩ := member
    by_cases same : key = name
    · simp [same]
    · have other : (key == name) = false := beq_false_of_ne same
      simp [same, List.lookup_cons, other, ih]

@[simp]
theorem get_set (key : Bytes) (value default : Member) : (fill.set key value).get key default = value := by
  rw [get, set]
  cases found : fill.lookup key with
  | none => simp [List.lookup_append, found]
  | some old => simp [lookup_map, found]

end FillDict

/-- A row of `fills`. -/
structure FillRow where
  licenseId : Nat
  traceId : Member
  status : Member
  brokerOrderId : Member
  errorCode : Member
  errorMessage : Member
  payload : FillDict
deriving DecidableEq, Repr

def fillRow (fill : FillDict) (licenseId : Nat) : FillRow where
  licenseId := licenseId
  traceId := fill.get (lit "trace_id") (.text [])
  status := fill.get (lit "status") (.text [])
  brokerOrderId := (fill.get (lit "broker_order_id") .null).orNone
  errorCode := (fill.get (lit "error_code") .null).orNone
  errorMessage := (fill.get (lit "error_message") .null).orNone
  payload := fill

/-! ### The handler -/

inductive Op
  | acquire
  /-- The license and the instance that the query returns. -/
  | selectInstance (instanceKey : Member)
  | insertFill (row : FillRow)
  | insertDeadLetter (letter : DeadLetter)
  | ack

@[reducible]
def Value : Op → Type
  | .selectInstance _ => Option (Nat × Nat)
  | _ => Unit

abbrev Answer (op : Op) : Type := Except Failure (Value op)

def statement (op : Op) : Program Op Answer Failure (Value op) := do
  match ← Program.perform op with
  | .ok value => return value
  | .error failure => .fail failure

def persistFill (fill : FillDict) : Program Op Answer Failure Unit := do
  let _ ← statement .acquire
  match ← statement (.selectInstance (fill.get (lit "instance_id") (.text []))) with
  | none => return ()
  | some row => statement (.insertFill (fillRow fill row.1))

def deadletter (hasPool : Bool) (msg : Message) (reason : String) (err : Bytes) :
    Program Op Answer Failure Unit := do
  if hasPool then
    let _ ← statement .acquire
    statement (.insertDeadLetter ⟨msg.subject, lit reason, err.take 2000, msg.data⟩)
  else return ()

/-- The instance id of a subject, `parts[1]`. -/
def subjectInstance (subject : Bytes) : Bytes :=
  ((subject.splitOn 46)[1]?).getD []

theorem splitOn_fillSubject {instanceID : Bytes} (plain : 46 ∉ instanceID) (traceID : Bytes) :
    (lit "fills." ++ instanceID ++ lit "." ++ traceID).splitOn 46 =
      lit "fills" :: instanceID :: traceID.splitOn 46 := by
  have apart : lit "fills." ++ instanceID ++ lit "." ++ traceID =
      lit "fills" ++ 46 :: (instanceID ++ 46 :: traceID) := by
    have start : lit "fills." = lit "fills" ++ [46] := by decide
    have dot : lit "." = [46] := by decide
    rw [start, dot]
    simp
  have first : (46 : UInt8) ∉ lit "fills" := by decide
  rw [apart, List.splitOn_append_cons_self_of_not_mem first,
    List.splitOn_append_cons_self_of_not_mem plain]

/-- The fill of a message, with the instance id of its subject. `loads` is `json.loads` with the check
for an object, and gives the `repr` of an exception. -/
def loadFill (loads : Bytes → Except Bytes FillDict) (msg : Message) : Except Bytes FillDict :=
  (loads msg.data).map fun fill => fill.set (lit "instance_id") (.text (subjectInstance msg.subject))

/-- Both are run with their exceptions caught, and the message is acknowledged. -/
def onFill (loads : Bytes → Except Bytes FillDict) (hasPool : Bool) (msg : Message) :
    Program Op Answer Empty Unit := do
  match loadFill loads msg with
  | .error error =>
    let _ ← (deadletter hasPool msg "invalid_json" error).attempt
  | .ok fill =>
    if hasPool then
      let _ ← (persistFill fill).attempt
  let _ ← Program.perform .ack

/-! ### The database -/

def joined (db : Database) (instanceKey : Member) : List (Nat × Nat) :=
  db.instances.flatMap fun row =>
    (db.licenses.filter fun license =>
      license.id = row.licenseId && .text row.instanceKey = instanceKey && license.active).map
        fun license => (license.id, row.id)

def Selects (db : Database) (instanceKey : Member) : Option (Nat × Nat) → Prop
  | some row => row ∈ joined db instanceKey
  | none => joined db instanceKey = []

/-- The row that a call has written. The reply to an insertion may be lost. -/
def written : Event Op Answer → Option FillRow
  | ⟨.insertFill _, .error .refused⟩ => none
  | ⟨.insertFill row, _⟩ => some row
  | _ => none

/-- A call that is answered by the database. Which fills the types of the columns let in is `accepts`. -/
def Honest (db : Database) (accepts : FillDict → Bool) (event : Event Op Answer) : Prop :=
  (∀ row, written event = some row → accepts row.payload = true) ∧
    match event with
    | ⟨.selectInstance instanceKey, .ok found⟩ => Selects db instanceKey found
    | _ => True

/-- **The message may be written as the row.** -/
def Writes (loads : Bytes → Except Bytes FillDict) (db : Database) (accepts : FillDict → Bool)
    (msg : Message) (row : FillRow) : Prop :=
  ∃ log rest, (onFill loads true msg).Path log rest ∧ (∀ event ∈ log, Honest db accepts event) ∧
    ∃ event ∈ log, written event = some row

section Writes

variable {loads : Bytes → Except Bytes FillDict} {db : Database} {accepts : FillDict → Bool}
  {msg : Message} {fill : FillDict} {row : FillRow}

theorem get_loadFill (reads : loadFill loads msg = .ok fill) (default : Member) :
    fill.get (lit "instance_id") default = .text (subjectInstance msg.subject) := by
  unfold loadFill at reads
  cases loaded : loads msg.data with
  | error error =>
    rw [loaded] at reads
    cases reads
  | ok given =>
    rw [loaded] at reads
    cases reads
    exact FillDict.get_set given _ _ _

def Looked (loads : Bytes → Except Bytes FillDict) (msg : Message) :
    Op → List (Event Op Answer) → Prop
  | .insertFill row, log => ∃ (fill : FillDict) (found : Nat × Nat),
      loadFill loads msg = .ok fill ∧ row = fillRow fill found.1 ∧
      (⟨.selectInstance (.text (subjectInstance msg.subject)), .ok (some found)⟩ :
        Event Op Answer) ∈ log
  | _, _ => True

theorem looked_persistFill (reads : loadFill loads msg = .ok fill) :
    (persistFill fill).Spec (Looked loads msg) (fun _ _ => True) [] := by
  unfold persistFill
  rw [get_loadFill reads]
  refine ⟨trivial, fun acquired => ?_⟩
  cases acquired with
  | error failure => trivial
  | ok _ =>
    refine ⟨trivial, fun answer => ?_⟩
    cases answer with
    | error failure => trivial
    | ok found =>
      cases found with
      | none => trivial
      | some found =>
        refine ⟨⟨fill, found, reads, rfl, ?_⟩, fun answer => ?_⟩
        · exact List.mem_append_right _ (List.mem_singleton_self _)
        · cases answer <;> trivial

theorem looked_deadletter (reason : String) (err : Bytes) :
    (deadletter true msg reason err).Spec (Looked loads msg) (fun _ _ => True) [] := by
  refine ⟨trivial, fun acquired => ?_⟩
  cases acquired with
  | error failure => trivial
  | ok _ =>
    refine ⟨trivial, fun answer => ?_⟩
    cases answer <;> trivial

/-- **The handler** meets a specification that both of its parts meet. -/
theorem spec_onFill {before : Op → List (Event Op Answer) → Prop} {hasPool : Bool}
    (acknowledged : ∀ log, before .ack log)
    (persisted : ∀ fill, loadFill loads msg = .ok fill →
      (persistFill fill).Spec before (fun _ _ => True) [])
    (lettered : ∀ err, (deadletter hasPool msg "invalid_json" err).Spec before (fun _ _ => True) []) :
    (onFill loads hasPool msg).Spec before (fun _ _ => True) [] := by
  have ends (log : List (Event Op Answer)) :
      (do let _ ← Program.perform .ack : Program Op Answer Empty Unit).Spec before
        (fun _ _ => True) log := ⟨acknowledged log, fun _ => trivial⟩
  have caught {program : Program Op Answer Failure Unit}
      (spec : program.Spec before (fun _ _ => True) []) :
      (do let _ ← program.attempt; let _ ← Program.perform .ack :
        Program Op Answer Empty Unit).Spec before (fun _ _ => True) [] := by
    have first : (program.attempt : Program Op Answer Empty _).Spec before
      (fun _ _ => True) [] := Program.Spec.attempt spec
    exact Program.Spec.bind first (fun _ log _ => ends log) fun _ _ _ => trivial
  unfold onFill
  cases reads : loadFill loads msg with
  | error error => exact caught (lettered error)
  | ok fill =>
    cases hasPool with
    | true => exact caught (persisted fill reads)
    | false => exact ends []

theorem looked_onFill (loads : Bytes → Except Bytes FillDict) (msg : Message) :
    (onFill loads true msg).Spec (Looked loads msg) (fun _ _ => True) [] :=
  spec_onFill (fun _ => trivial) (fun _ reads => looked_persistFill reads)
    (looked_deadletter "invalid_json")

/-- The answers of a database that returns the row and lets the fill in. -/
def returning (found : Nat × Nat) : (op : Op) → Answer op
  | .acquire => .ok ()
  | .selectInstance _ => .ok (some found)
  | .insertFill _ => .ok ()
  | .insertDeadLetter _ => .ok ()
  | .ack => .ok ()

theorem run_onFill (reads : loadFill loads msg = .ok fill) (found : Nat × Nat) :
    (onFill loads true msg).outcome (returning found) = .ok () ∧
      (onFill loads true msg).calls (returning found) =
        [.acquire, .selectInstance (.text (subjectInstance msg.subject)),
          .insertFill (fillRow fill found.1), .ack] := by
  unfold onFill
  rw [reads]
  refine ⟨rfl, ?_⟩
  show [Op.acquire, .selectInstance (fill.get _ _), .insertFill _, .ack] = _
  rw [get_loadFill reads]

/-- **What a message is written as**: the fill that it holds, as a row of any license that has the
instance of the subject. -/
theorem writes_iff : Writes loads db accepts msg row ↔
    ∃ fill, loadFill loads msg = .ok fill ∧ accepts fill = true ∧
      ∃ found ∈ joined db (.text (subjectInstance msg.subject)), row = fillRow fill found.1 := by
  constructor
  · rintro ⟨log, rest, path, honest, event, member, wrote⟩
    have accepted := (honest event member).1 row wrote
    obtain ⟨front, back, rfl⟩ := List.append_of_mem member
    have looked := (looked_onFill loads msg).before_of_path path rfl
    obtain ⟨op, answer⟩ := event
    cases op with
    | insertFill inserted =>
      have isRow : inserted = row := by
        unfold written at wrote
        split at wrote <;> simp_all
      subst isRow
      obtain ⟨fill, found, reads, rfl, asked⟩ := looked
      have selected := (honest _ (List.mem_append_left _ asked)).2
      exact ⟨fill, reads, accepted, found, selected, rfl⟩
    | acquire | selectInstance _ | insertDeadLetter _ | ack => cases wrote
  · rintro ⟨fill, reads, accepted, found, inside, rfl⟩
    obtain ⟨ends, calls⟩ := run_onFill reads found
    have path := Path.of_outcome (returning found) ends
    rw [calls] at path
    refine ⟨_, _, path, fun event member => ?_, ⟨.insertFill _, .ok ()⟩, ?_, rfl⟩
    · simp only [List.map_cons, List.map_nil, List.mem_cons, List.not_mem_nil, or_false] at member
      rcases member with rfl | rfl | rfl | rfl
      · exact ⟨fun _ wrote => (by cases wrote), trivial⟩
      · exact ⟨fun _ wrote => (by cases wrote), inside⟩
      · refine ⟨fun _ wrote => ?_, trivial⟩
        cases wrote
        exact accepted
      · exact ⟨fun _ wrote => (by cases wrote), trivial⟩
    · simp [returning]

end Writes

end ExecRelay.Fills
