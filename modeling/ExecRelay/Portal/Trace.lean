/-
**What the portal shows of a trace and of a request.**

`get_trace` and `get_request` answer from several tables. The signal is one of the user's licenses, but
the fills and the events are selected by the trace id alone, and the request log is also searched for
rows without a license. `seen_of_others` says what follows: whatever the tables hold, there are tables
that agree on every row of the user and show another trace, since a fill of somebody else is in it, and
another request, since an attempt without a license is in it.

An id or a time of a response is the value itself, not its text, and a JSON value is its text.
-/

import ExecRelay.Portal.Database
import Mathlib.Algebra.Order.BigOperators.Group.List
import Mathlib.Algebra.Order.Group.Nat

namespace ExecRelay.Portal

open Lib

/-! ### Responses -/

structure SignalView where
  id : Nat
  receivedAt : Int
  command : Bytes
  symbol : Bytes
  ingressRegion : Bytes
  payload : Bytes
deriving DecidableEq, Repr

structure FillView where
  id : Nat
  createdAt : Int
  status : Bytes
  brokerOrderId : Option Bytes
  errorCode : Option Bytes
  errorMessage : Option Bytes
deriving DecidableEq, Repr

structure EventView where
  eventType : Bytes
  severity : Bytes
  payload : Bytes
  createdAt : Int
deriving DecidableEq, Repr

structure TracePayload where
  traceId : Bytes
  signal : Option SignalView
  fills : List FillView
  events : List EventView
deriving DecidableEq, Repr

/-- A row of the request log, as a trace shows it. -/
structure RequestView where
  receivedAt : Int
  requestId : Bytes
  service : Bytes
  route : Bytes
  statusCode : Int
  outcome : Bytes
  reasonCode : Option Bytes
  latencyMs : Int
deriving DecidableEq, Repr

structure TraceResponse extends TracePayload where
  requests : List RequestView
deriving DecidableEq, Repr

/-- A row of the request log, as a request shows it. -/
structure AttemptView where
  receivedAt : Int
  service : Bytes
  route : Bytes
  method : Bytes
  clientIP : Option Bytes
  licenseKey : Option Bytes
  traceId : Option Bytes
  statusCode : Int
  outcome : Bytes
  reasonCode : Option Bytes
  latencyMs : Int
  bodySha256 : Option Bytes
  userAgent : Option Bytes
  /-- Without a value the empty object. -/
  detail : Option Bytes
deriving DecidableEq, Repr

structure RequestResponse where
  requestId : Bytes
  attempts : List AttemptView
  /-- Without a trace the empty object. -/
  trace : Option TracePayload
deriving DecidableEq, Repr

def SignalRow.view (row : SignalRow) : SignalView :=
  ⟨row.id, row.receivedAt, row.command, row.symbol, row.ingressRegion, row.payload⟩

def FillRow.view (row : FillRow) : FillView :=
  ⟨row.id, row.createdAt, row.status, row.brokerOrderId, row.errorCode, row.errorMessage⟩

def EventRow.view (row : EventRow) : EventView :=
  ⟨row.eventType, row.severity, row.payload, row.createdAt⟩

def RequestRow.view (row : RequestRow) : RequestView :=
  ⟨row.receivedAt, row.requestId, row.service, row.route, row.statusCode, row.outcome, row.reasonCode,
    row.latencyMs⟩

/-- A text, unless it is missing or empty. -/
def truthy (text : Option Bytes) : Option Bytes :=
  text.filter fun bytes => bytes ≠ []

def RequestRow.attempt (row : RequestRow) : AttemptView :=
  ⟨row.receivedAt, row.service, row.route, row.method, truthy row.clientIP, row.licenseKey,
    truthy row.traceId, row.statusCode, row.outcome, row.reasonCode, row.latencyMs, row.bodySha256,
    row.userAgent, truthy row.detail⟩

/-! ### Queries -/

/-- Rows in the order of a time; rows of one time stay in the order of the table. -/
def orderBy {Row : Type} (time : Row → Int) (rows : List Row) : List Row :=
  rows.mergeSort fun left right => time left ≤ time right

namespace Database

variable (db : Database) (userID : Nat)

def ownLicenses : List LicenseRow :=
  db.licenses.filter fun license => license.userId = userID

/-- A row of the log with a license of the user, or with none. -/
def isVisible (row : RequestRow) : Bool :=
  match row.licenseKey with
  | none => true
  | some key => ((db.ownLicenses userID).map LicenseRow.licenseKey).contains key

def tracePayload (traceID : Bytes) : TracePayload where
  traceId := traceID
  signal := (db.signals.find? fun row =>
    row.traceId = traceID && (db.licenseOf userID row.licenseId).isSome).map SignalRow.view
  fills := (orderBy FillRow.createdAt (db.fills.filter fun row => row.traceId = traceID)).map
    FillRow.view
  events := (orderBy EventRow.createdAt
    (db.events.filter fun row => row.traceId = some traceID)).map EventRow.view

def getTrace (traceID : Bytes) : TraceResponse where
  toTracePayload := db.tracePayload userID traceID
  requests := (orderBy RequestRow.receivedAt (db.requestLog.filter fun row =>
    row.traceId = some traceID && db.isVisible userID row)).map RequestRow.view

/-- The attempts of a request. -/
def attempts (requestID : Bytes) : List RequestRow :=
  orderBy RequestRow.receivedAt (db.requestLog.filter fun row =>
    row.requestId = requestID && db.isVisible userID row)

def getRequest (requestID : Bytes) : Except HTTPException RequestResponse :=
  let rows := db.attempts userID requestID
  if rows = [] then .error ⟨404, lit "request not found"⟩
  else
    let traceID := rows.findSome? fun row => truthy row.traceId
    .ok ⟨requestID, rows.map RequestRow.attempt, traceID.map (db.tracePayload userID)⟩

/-! ### Whose rows they are -/

/-- The columns that are unique, and the licenses that other rows refer to. -/
structure Valid : Prop where
  licenseIds : (db.licenses.map LicenseRow.id).Nodup
  licenseKeys : (db.licenses.map LicenseRow.licenseKey).Nodup
  fillIds : (db.fills.map FillRow.id).Nodup
  signalLicenses : ∀ row ∈ db.signals, row.licenseId ∈ db.licenses.map LicenseRow.id
  fillLicenses : ∀ row ∈ db.fills, row.licenseId ∈ db.licenses.map LicenseRow.id

/-- The license of an id is one of the user. -/
def owns (licenseID : Nat) : Bool :=
  (db.licenseOf userID licenseID).isSome

/-- An event in the trace of a signal of the user. -/
def concerns (row : EventRow) : Bool :=
  db.signals.any fun signal => db.owns userID signal.licenseId && row.traceId = some signal.traceId

/-- A row of the request log with the key of a license of the user. -/
def isOwn (row : RequestRow) : Bool :=
  row.licenseKey.any ((db.ownLicenses userID).map LicenseRow.licenseKey).contains

end Database

/-- **Two states that agree on every row of a user**: on the rows of the user's licenses, and on the events
of their signals. -/
structure Agrees (userID : Nat) (db other : Database) : Prop where
  licenses : other.ownLicenses userID = db.ownLicenses userID
  instances : other.instances.filter (fun row => other.owns userID row.licenseId) =
    db.instances.filter fun row => db.owns userID row.licenseId
  signals : other.signals.filter (fun row => other.owns userID row.licenseId) =
    db.signals.filter fun row => db.owns userID row.licenseId
  fills : other.fills.filter (fun row => other.owns userID row.licenseId) =
    db.fills.filter fun row => db.owns userID row.licenseId
  events : other.events.filter (other.concerns userID) = db.events.filter (db.concerns userID)
  requestLog : other.requestLog.filter (other.isOwn userID) = db.requestLog.filter (db.isOwn userID)

/-- What the user sees of a trace depends on rows of the user only. -/
def TracePrivate (userID : Nat) (db : Database) (traceID : Bytes) : Prop :=
  ∀ other : Database, other.Valid → Agrees userID db other →
    other.getTrace userID traceID = db.getTrace userID traceID

/-- What the user sees of a request depends on rows of the user only. -/
def RequestPrivate (userID : Nat) (db : Database) (requestID : Bytes) : Prop :=
  ∀ other : Database, other.Valid → Agrees userID db other →
    other.getRequest userID requestID = db.getRequest userID requestID

/-! ### A fill of somebody else -/

namespace Database

variable (db : Database) (userID : Nat) (traceID requestID : Bytes)

/-- A number that is not in the list. -/
def fresh (numbers : List Nat) : Nat :=
  numbers.sum + 1

theorem fresh_not_mem (numbers : List Nat) : fresh numbers ∉ numbers := fun member =>
  absurd (List.le_sum_of_mem member) (Nat.not_le.mpr (Nat.lt_succ_self _))

theorem nodup_snoc {α : Type} {list : List α} {last : α} (distinct : list.Nodup)
    (new : last ∉ list) : (list ++ [last]).Nodup := by
  rw [← List.concat_eq_append]
  exact distinct.concat new

/-- A license of another user. -/
def strangerLicense : LicenseRow where
  id := fresh (db.licenses.map LicenseRow.id)
  userId := userID + 1
  licenseKey := List.replicate (fresh (db.licenses.map fun license => license.licenseKey.length)) 107

/-- A fill of that license in the trace. -/
def strangerFill : FillRow where
  id := fresh (db.fills.map FillRow.id)
  createdAt := 0
  licenseId := (db.strangerLicense userID).id
  traceId := traceID
  status := lit "filled"
  brokerOrderId := some (lit "1001")
  errorCode := none
  errorMessage := none

/-- An attempt that was refused before its license was known. -/
def strangerAttempt : RequestRow where
  receivedAt := 0
  requestId := requestID
  traceId := none
  service := lit "ingress"
  route := lit "/webhook"
  method := lit "POST"
  clientIP := none
  licenseKey := none
  statusCode := 400
  outcome := lit "rejected"
  reasonCode := none
  latencyMs := 1
  bodySha256 := none
  userAgent := none
  detail := none

/-- The same tables with another user, who has a fill in the trace, and with an attempt of the request. -/
def withStranger : Database :=
  { db with
    licenses := db.licenses ++ [db.strangerLicense userID]
    fills := db.fills ++ [db.strangerFill userID traceID]
    requestLog := db.requestLog ++ [strangerAttempt requestID] }

theorem valid_withStranger (valid : db.Valid) : (db.withStranger userID traceID requestID).Valid := by
  have known {licenseID : Nat} (member : licenseID ∈ db.licenses.map LicenseRow.id) :
      licenseID ∈ (db.licenses ++ [db.strangerLicense userID]).map LicenseRow.id := by
    rw [List.map_append]
    exact List.mem_append_left _ member
  refine ⟨?_, ?_, ?_, fun row member => known (valid.signalLicenses row member), ?_⟩
  · simp only [withStranger, List.map_append, List.map_singleton]
    exact nodup_snoc valid.licenseIds (fresh_not_mem _)
  · simp only [withStranger, List.map_append, List.map_singleton]
    refine nodup_snoc valid.licenseKeys fun member => ?_
    obtain ⟨license, inside, same⟩ := List.mem_map.mp member
    have length := congrArg List.length same
    rw [strangerLicense, List.length_replicate] at length
    have taken := List.mem_map_of_mem (f := fun license : LicenseRow => license.licenseKey.length) inside
    rw [length] at taken
    exact fresh_not_mem _ taken
  · simp only [withStranger, List.map_append, List.map_singleton]
    exact nodup_snoc valid.fillIds (fresh_not_mem _)
  · intro row member
    rcases List.mem_append.mp member with old | new
    · exact known (valid.fillLicenses row old)
    · rw [List.mem_singleton.mp new]
      simp [withStranger, strangerFill]

theorem licenseOf_withStranger (licenseID : Nat) :
    (db.withStranger userID traceID requestID).licenseOf userID licenseID = db.licenseOf userID licenseID := by
  have another : (decide ((db.strangerLicense userID).id = licenseID) &&
      decide ((db.strangerLicense userID).userId = userID)) = false := by
    simp [strangerLicense]
  simp [licenseOf, withStranger, List.find?_append, another]

theorem ownLicenses_withStranger :
    (db.withStranger userID traceID requestID).ownLicenses userID = db.ownLicenses userID := by
  simp [ownLicenses, withStranger, strangerLicense]

theorem isVisible_withStranger :
    (db.withStranger userID traceID requestID).isVisible userID = db.isVisible userID := by
  funext row
  unfold isVisible
  rw [ownLicenses_withStranger]

theorem isOwn_withStranger :
    (db.withStranger userID traceID requestID).isOwn userID = db.isOwn userID := by
  funext row
  unfold isOwn
  rw [ownLicenses_withStranger]

theorem owns_withStranger :
    (db.withStranger userID traceID requestID).owns userID = db.owns userID := by
  funext licenseID
  rw [owns, licenseOf_withStranger, owns]

theorem not_owns_stranger : db.owns userID (db.strangerLicense userID).id = false := by
  refine Option.isSome_eq_false_iff.mpr (Option.isNone_iff_eq_none.mpr ?_)
  refine List.find?_eq_none.mpr fun license member own => ?_
  rw [Bool.and_eq_true, decide_eq_true_eq] at own
  have taken := List.mem_map_of_mem (f := LicenseRow.id) member
  rw [own.1] at taken
  exact fresh_not_mem _ taken

/-- **The user's rows are the same.** -/
theorem agrees_withStranger : Agrees userID db (db.withStranger userID traceID requestID) where
  licenses := ownLicenses_withStranger ..
  instances := by
    rw [owns_withStranger]
    rfl
  signals := by
    rw [owns_withStranger]
    rfl
  fills := by
    rw [owns_withStranger]
    simp [withStranger, strangerFill, not_owns_stranger]
  events := by
    have same : (db.withStranger userID traceID requestID).concerns userID = db.concerns userID := by
      funext row
      unfold concerns
      rw [owns_withStranger]
      rfl
    rw [same]
    rfl
  requestLog := by
    rw [isOwn_withStranger]
    simp [withStranger, isOwn, strangerAttempt]

/-- **The fill is in the trace.** -/
theorem tracePayload_withStranger :
    (db.withStranger userID traceID requestID).tracePayload userID traceID ≠ db.tracePayload userID traceID := by
  intro same
  have length := congrArg (fun payload => payload.fills.length) same
  simp [tracePayload, orderBy, withStranger, strangerFill] at length

/-- **The attempt is in the request.** -/
theorem length_attempts_withStranger :
    ((db.withStranger userID traceID requestID).attempts userID requestID).length =
      (db.attempts userID requestID).length + 1 := by
  rw [attempts, attempts, isVisible_withStranger]
  simp [orderBy, withStranger, isVisible, strangerAttempt]

end Database

/-! ### Who sees what -/

section Seen

variable {db : Database} (userID : Nat)

theorem not_tracePrivate (valid : db.Valid) (traceID : Bytes) : ¬TracePrivate userID db traceID := by
  intro own
  have same := own (db.withStranger userID traceID []) (db.valid_withStranger userID traceID [] valid)
    (db.agrees_withStranger userID traceID [])
  exact db.tracePayload_withStranger userID traceID [] (congrArg TraceResponse.toTracePayload same)

theorem not_requestPrivate (valid : db.Valid) (requestID : Bytes) :
    ¬RequestPrivate userID db requestID := by
  intro own
  have same := own (db.withStranger userID [] requestID) (db.valid_withStranger userID [] requestID valid)
    (db.agrees_withStranger userID [] requestID)
  have longer := db.length_attempts_withStranger userID [] requestID
  have given : (db.withStranger userID [] requestID).attempts userID requestID ≠ [] := by
    intro none
    rw [none] at longer
    cases longer
  unfold Database.getRequest at same
  dsimp only at same
  rw [if_neg given] at same
  split at same
  · cases same
  · injection same with same
    injection same with _ views _
    have length := congrArg List.length views
    rw [List.length_map, List.length_map, longer] at length
    omega

/-- **What a user sees of others.** Neither a trace nor a request is private, whatever the tables hold. -/
theorem seen_of_others (valid : db.Valid) (traceID requestID : Bytes) :
    ¬TracePrivate userID db traceID ∧ ¬RequestPrivate userID db requestID :=
  ⟨not_tracePrivate userID valid traceID, not_requestPrivate userID valid requestID⟩

end Seen

/-! ### Two users -/

/-- A user with a license and a request. -/
def oneUser : Database where
  licenses := [⟨1, 7, lit "60123456789"⟩]
  requestLog := [
    { receivedAt := 10, requestId := lit "req-1", traceId := some (lit "trace-a")
      service := lit "ingress", route := lit "/webhook", method := lit "POST", clientIP := none
      licenseKey := some (lit "60123456789"), statusCode := 200, outcome := lit "accepted"
      reasonCode := some (lit "accepted"), latencyMs := 3, bodySha256 := none, userAgent := none
      detail := none }]

/-- A second user, with a fill in a trace of their own and one in that of the request. -/
def twoUsers : Database :=
  { oneUser with
    licenses := [⟨1, 7, lit "60123456789"⟩, ⟨2, 8, lit "60987654321"⟩]
    fills := [
      { id := 1, createdAt := 20, licenseId := 2, traceId := lit "trace-b", status := lit "filled"
        brokerOrderId := some (lit "1001"), errorCode := none, errorMessage := none },
      { id := 2, createdAt := 30, licenseId := 2, traceId := lit "trace-a", status := lit "rejected"
        brokerOrderId := none, errorCode := some (lit "NO_MONEY"), errorMessage := none }] }

theorem valid_oneUser : oneUser.Valid :=
  ⟨by decide, by decide, by decide, by decide, by decide⟩

theorem seen_of_others_oneUser :
    oneUser.Valid ∧ ¬TracePrivate 7 oneUser (lit "trace-b") ∧ ¬RequestPrivate 7 oneUser (lit "req-1") :=
  ⟨valid_oneUser, seen_of_others 7 valid_oneUser (lit "trace-b") (lit "req-1")⟩

/-- **The first user reads the fills of the second**, by the trace id and through the own request. -/
theorem not_private_twoUsers :
    oneUser.Valid ∧ twoUsers.Valid ∧ Agrees 7 oneUser twoUsers ∧
      twoUsers.getTrace 7 (lit "trace-b") ≠ oneUser.getTrace 7 (lit "trace-b") ∧
      twoUsers.getRequest 7 (lit "req-1") ≠ oneUser.getRequest 7 (lit "req-1") := by
  refine ⟨valid_oneUser, ⟨by decide, by decide, by decide, by decide, by decide⟩,
    ⟨by decide, by decide, by decide, by decide, by decide, by decide⟩, by decide +kernel, by decide +kernel⟩

end ExecRelay.Portal
