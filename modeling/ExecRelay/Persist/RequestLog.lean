/-
**The request log** (`apps/persist/app.py`, `infra/migrations/000004_observability.up.sql`).

Ingress publishes one event about every request, and persist makes a row of it. The text columns have a
length and the address is cast to `inet`. An insertion that the database refuses is an exception, which
`on_event` logs before it acknowledges the message: the row is lost.

Whether a text is an address is up to the database (`isInet`). The events come over NATS as JSON, in
which a byte that is not UTF-8 is replaced.
-/

import ExecRelay.Ingress.Gates
import ExecRelay.Lib.Runes

namespace ExecRelay.Persist

open Lib
open Ingress (Time Request RequestEvent Records requestEvents outcomeOf)

/-! ### The event -/

abbrev Str := List Bytes

/-- The dict of an event `events.ingress.request`. -/
structure RequestEvt where
  service : Str
  requestID : Str
  traceID : Str
  licenseKey : Str
  method : Str
  path : Str
  clientIP : Str
  status : Int
  outcome : Str
  reasonCode : Str
  latencyMS : Int
  bodySHA256 : Str
  userAgent : Str
  receivedAt : Time

/-- What `json.loads` makes of the event that ingress has marshalled. -/
def loadEvt (event : RequestEvent) : RequestEvt where
  service := runes (lit "ingress")
  requestID := runes event.ctx.requestID
  traceID := runes event.ctx.traceID
  licenseKey := runes event.ctx.licenseKey
  method := runes event.method
  path := runes event.path
  clientIP := runes event.clientIP
  status := event.ctx.status
  outcome := runes event.outcome
  reasonCode := runes event.ctx.reasonCode
  latencyMS := event.latency.tdiv 1000000
  bodySHA256 := runes event.ctx.bodySHA256
  userAgent := runes event.userAgent
  receivedAt := event.receivedAt

/-! ### The row -/

structure RequestLogRow where
  receivedAt : Time
  requestID : Str
  traceID : Str
  service : Str
  route : Str
  method : Str
  clientIP : Option Str
  licenseKey : Option Str
  statusCode : Int
  outcome : Str
  reasonCode : Option Str
  latencyMS : Int
  bodySHA256 : Option Str
  userAgent : Option Str
  detail : Bytes
deriving DecidableEq

/-- `text or None`; also `NULLIF(text, '')`. -/
def orNone (text : Str) : Option Str :=
  if text = [] then none else some text

/-- The values that are inserted. All keys of the dict are among the `detail_keys`. -/
def requestLogValues (evt : RequestEvt) : RequestLogRow where
  receivedAt := evt.receivedAt
  requestID := evt.requestID
  traceID := evt.traceID
  service := evt.service.take 32
  route := evt.path.take 128
  method := evt.method.take 8
  clientIP := orNone evt.clientIP
  licenseKey := orNone (evt.licenseKey.take 64)
  statusCode := evt.status
  outcome := evt.outcome.take 32
  reasonCode := orNone (evt.reasonCode.take 64)
  latencyMS := evt.latencyMS
  bodySHA256 := orNone (evt.bodySHA256.take 64)
  userAgent := orNone (evt.userAgent.take 256)
  detail := lit "\x7b\x7d"

/-! ### The columns -/

def fitsColumn (size : Nat) (text : Str) : Bool :=
  (text.drop size).all (· == [32])

def hasNul (text : Str) : Bool :=
  text.contains [0]

/-- A column `VARCHAR(size)`. -/
def varchar (size : Nat) (text : Str) : Option Str :=
  if !hasNul text && fitsColumn size text then some (text.take size) else none

/-- A column `CHAR(size)`, filled up with spaces. -/
def character (size : Nat) (text : Str) : Option Str :=
  (varchar size text).map fun kept => kept ++ List.replicate (size - kept.length) [32]

/-- A column `INT`. -/
def int4 (value : Int) : Option Int :=
  if -2 ^ 31 ≤ value ∧ value < 2 ^ 31 then some value else none

/-- A column that may be `NULL`. -/
def nullable (column : Str → Option Str) : Option Str → Option (Option Str)
  | none => some none
  | some text => (column text).map some

section Database

variable (isInet : Str → Bool)

/-- A column `INET`. -/
def inet (text : Str) : Option Str :=
  if !hasNul text && isInet text then some text else none

/-- The row of the table `request_log` that the values become, or no row. -/
def stored (row : RequestLogRow) : Option RequestLogRow := do
  let requestID ← varchar 64 row.requestID
  let traceID ← varchar 64 row.traceID
  let service ← varchar 32 row.service
  let route ← varchar 128 row.route
  let method ← varchar 8 row.method
  let clientIP ← nullable (inet isInet) row.clientIP
  let licenseKey ← nullable (varchar 64) row.licenseKey
  let statusCode ← int4 row.statusCode
  let outcome ← varchar 32 row.outcome
  let reasonCode ← nullable (varchar 64) row.reasonCode
  let latencyMS ← int4 row.latencyMS
  let bodySHA256 ← nullable (character 64) row.bodySHA256
  let userAgent ← nullable (varchar 256) row.userAgent
  return { row with
    requestID, traceID, service, route, method, clientIP, licenseKey, statusCode, outcome
    reasonCode, latencyMS, bodySHA256, userAgent }

def persistRequestLog (table : List RequestLogRow) (evt : RequestEvt) :
    Option (List RequestLogRow) :=
  (stored isInet (requestLogValues evt)).map fun row => table ++ [row]

/-- `on_event`: an exception is logged and the message is acknowledged nevertheless. -/
def onRequestEvent (table : List RequestLogRow) (evt : RequestEvt) : List RequestLogRow :=
  (persistRequestLog isInet table evt).getD table

end Database

/-! ### Which values are taken -/

variable {size : Nat} {text : Str}

theorem isSome_varchar :
    (varchar size text).isSome ↔ hasNul text = false ∧ fitsColumn size text = true := by
  simp [varchar]

theorem varchar_eq_some {text kept : Str} (takes : varchar size text = some kept) :
    kept = text.take size := by
  unfold varchar at takes
  split at takes
  · exact (Option.some.inj takes).symm
  · cases takes

@[simp]
theorem fitsColumn_take (size : Nat) (text : Str) : fitsColumn size (text.take size) = true := by
  simp [fitsColumn]

theorem hasNul_nil : hasNul [] = false := rfl

theorem isSome_nullable {column : Str → Option Str} :
    (nullable column (orNone text)).isSome ↔ text = [] ∨ (column text).isSome := by
  unfold orNone
  split
  · rename_i empty
    simp [nullable, empty]
  · rename_i given
    simp [nullable, given]

theorem isSome_nullable_varchar :
    (nullable (varchar size) (orNone (text.take size))).isSome ↔ hasNul (text.take size) = false := by
  rw [isSome_nullable, isSome_varchar, fitsColumn_take, and_iff_left rfl]
  exact or_iff_right_of_imp fun empty => empty ▸ hasNul_nil

theorem isSome_nullable_character :
    (nullable (character size) (orNone (text.take size))).isSome ↔
      hasNul (text.take size) = false := by
  rw [← isSome_nullable_varchar, isSome_nullable, isSome_nullable, character, Option.isSome_map]

theorem isSome_int4 {value : Int} : (int4 value).isSome ↔ -2 ^ 31 ≤ value ∧ value < 2 ^ 31 := by
  simp [int4]

theorem isSome_bind_iff {Value Result : Type} {first : Option Value} {next : Value → Option Result}
    {rest : Prop} (behind : ∀ value, (next value).isSome ↔ rest) :
    (first >>= next).isSome ↔ first.isSome ∧ rest := by
  cases first with
  | none => simp
  | some value => simp [behind]

theorem int4_eq_some {value kept : Int} (takes : int4 value = some kept) : kept = value := by
  unfold int4 at takes
  split at takes
  · exact (Option.some.inj takes).symm
  · cases takes

section Stored

variable {isInet : Str → Bool}

theorem isSome_nullable_inet {text : Str} :
    (nullable (inet isInet) (orNone text)).isSome ↔
      hasNul text = false ∧ (text = [] ∨ isInet text = true) := by
  have address : (inet isInet text).isSome ↔ hasNul text = false ∧ isInet text = true := by
    simp [inet]
  rw [isSome_nullable, address, and_or_left]
  exact or_congr_left (and_iff_right_of_imp fun empty => empty ▸ hasNul_nil).symm

/-- **A row is taken if every column is.** -/
theorem isSome_stored {row : RequestLogRow} :
    (stored isInet row).isSome ↔
      (varchar 64 row.requestID).isSome ∧ (varchar 64 row.traceID).isSome ∧
      (varchar 32 row.service).isSome ∧ (varchar 128 row.route).isSome ∧
      (varchar 8 row.method).isSome ∧ (nullable (inet isInet) row.clientIP).isSome ∧
      (nullable (varchar 64) row.licenseKey).isSome ∧ (int4 row.statusCode).isSome ∧
      (varchar 32 row.outcome).isSome ∧ (nullable (varchar 64) row.reasonCode).isSome ∧
      (int4 row.latencyMS).isSome ∧ (nullable (character 64) row.bodySHA256).isSome ∧
      (nullable (varchar 256) row.userAgent).isSome := by
  unfold stored
  refine isSome_bind_iff fun _ => isSome_bind_iff fun _ => isSome_bind_iff fun _ => ?_
  refine isSome_bind_iff fun _ => isSome_bind_iff fun _ => isSome_bind_iff fun _ => ?_
  refine isSome_bind_iff fun _ => isSome_bind_iff fun _ => isSome_bind_iff fun _ => ?_
  refine isSome_bind_iff fun _ => isSome_bind_iff fun _ => isSome_bind_iff fun _ => ?_
  cases nullable (varchar 256) row.userAgent <;> rfl

theorem columns_of_stored {row kept : RequestLogRow} (takes : stored isInet row = some kept) :
    varchar 64 row.requestID = some kept.requestID ∧ int4 row.statusCode = some kept.statusCode ∧
      varchar 32 row.outcome = some kept.outcome := by
  unfold stored at takes
  obtain ⟨requestID, identified, takes⟩ := Option.bind_eq_some_iff.mp takes
  obtain ⟨traceID, -, takes⟩ := Option.bind_eq_some_iff.mp takes
  obtain ⟨service, -, takes⟩ := Option.bind_eq_some_iff.mp takes
  obtain ⟨route, -, takes⟩ := Option.bind_eq_some_iff.mp takes
  obtain ⟨method, -, takes⟩ := Option.bind_eq_some_iff.mp takes
  obtain ⟨clientIP, -, takes⟩ := Option.bind_eq_some_iff.mp takes
  obtain ⟨licenseKey, -, takes⟩ := Option.bind_eq_some_iff.mp takes
  obtain ⟨statusCode, answered, takes⟩ := Option.bind_eq_some_iff.mp takes
  obtain ⟨outcome, ended, takes⟩ := Option.bind_eq_some_iff.mp takes
  obtain ⟨reasonCode, -, takes⟩ := Option.bind_eq_some_iff.mp takes
  obtain ⟨latencyMS, -, takes⟩ := Option.bind_eq_some_iff.mp takes
  obtain ⟨bodySHA256, -, takes⟩ := Option.bind_eq_some_iff.mp takes
  obtain ⟨userAgent, -, takes⟩ := Option.bind_eq_some_iff.mp takes
  cases takes
  exact ⟨identified, answered, ended⟩

end Stored

/-! ### The row of an event -/

def sentTexts (evt : RequestEvt) : List Str :=
  [evt.requestID, evt.traceID, evt.service.take 32, evt.path.take 128, evt.method.take 8, evt.clientIP,
    evt.licenseKey.take 64, evt.outcome.take 32, evt.reasonCode.take 64, evt.bodySHA256.take 64,
    evt.userAgent.take 256]

/-- What the database takes, and with the whole id of the request. -/
structure Loggable (isInet : Str → Bool) (event : RequestEvent) : Prop where
  encoded : validUtf8 event.ctx.requestID = true
  requestID : (runes event.ctx.requestID).length ≤ 64
  traceID : fitsColumn 64 (runes event.ctx.traceID) = true
  texts : ∀ text ∈ sentTexts (loadEvt event), hasNul text = false
  clientIP : runes event.clientIP = [] ∨ isInet (runes event.clientIP) = true
  status : event.ctx.status < 2 ^ 31
  latency : -2 ^ 31 ≤ event.latency.tdiv 1000000 ∧ event.latency.tdiv 1000000 < 2 ^ 31

/-- A row carries the id, the status and the outcome of an event. -/
structure Carries (row : RequestLogRow) (event : RequestEvent) : Prop where
  requestID : row.requestID.flatten = event.ctx.requestID
  status : row.statusCode = event.ctx.status
  outcome : row.outcome.flatten = event.outcome

def Logged (isInet : Str → Bool) (event : RequestEvent) : Prop :=
  ∀ table, ∃ row, onRequestEvent isInet table (loadEvt event) = table ++ [row] ∧ Carries row event

section Logged

variable {isInet : Str → Bool} {event : RequestEvent}

theorem isSome_stored_loadEvt :
    (stored isInet (requestLogValues (loadEvt event))).isSome ↔
      fitsColumn 64 (runes event.ctx.requestID) = true ∧
      fitsColumn 64 (runes event.ctx.traceID) = true ∧
      (∀ text ∈ sentTexts (loadEvt event), hasNul text = false) ∧
      (runes event.clientIP = [] ∨ isInet (runes event.clientIP) = true) ∧
      event.ctx.status < 2 ^ 31 ∧
      -2 ^ 31 ≤ event.latency.tdiv 1000000 ∧ event.latency.tdiv 1000000 < 2 ^ 31 := by
  have status : -2 ^ 31 ≤ (event.ctx.status : Int) ∧ (event.ctx.status : Int) < 2 ^ 31 ↔
      event.ctx.status < 2 ^ 31 := by omega
  rw [isSome_stored]
  simp only [requestLogValues, loadEvt, sentTexts, isSome_varchar, fitsColumn_take, and_true,
    isSome_nullable_varchar, isSome_nullable_character, isSome_nullable_inet, isSome_int4, status,
    List.forall_mem_cons]
  constructor
  · rintro ⟨⟨id, whole⟩, ⟨trace, fits⟩, service, path, method, ⟨ip, address⟩, license, answered,
      outcome, reason, latency, hash, agent⟩
    exact ⟨whole, fits, ⟨id, trace, service, path, method, ip, license, outcome, reason, hash, agent,
      List.forall_mem_nil _⟩, address, answered, latency⟩
  · rintro ⟨whole, fits, ⟨id, trace, service, path, method, ip, license, outcome, reason, hash, agent,
      _⟩, address, answered, latency⟩
    exact ⟨⟨id, whole⟩, ⟨trace, fits⟩, service, path, method, ⟨ip, address⟩, license, answered,
      outcome, reason, latency, hash, agent⟩

theorem onRequestEvent_of_refused {table : List RequestLogRow} {evt : RequestEvt}
    (refused : ¬(stored isInet (requestLogValues evt)).isSome) :
    onRequestEvent isInet table evt = table := by
  rw [onRequestEvent, persistRequestLog, Option.not_isSome_iff_eq_none.mp refused]
  rfl

theorem flatten_take_outcomeOf (status : Nat) :
    ((runes (outcomeOf status)).take 32).flatten = outcomeOf status := by
  unfold outcomeOf
  split
  · decide +kernel
  · split <;> decide +kernel

theorem requestID_of_varchar {text : Bytes} {size : Nat} {kept : Str}
    (takes : varchar size (runes text) = some kept) (same : kept.flatten = text) :
    validUtf8 text = true ∧ (runes text).length ≤ size := by
  have cut := varchar_eq_some takes
  have fits := (isSome_varchar.mp (Option.isSome_iff_exists.mpr ⟨kept, takes⟩)).2
  have short : (runes text).length ≤ size := by
    by_contra longer
    refine flatten_take_runes_ne (fun empty => ?_) (cut ▸ same)
    cases behind : (runes text).drop size with
    | nil => exact longer (List.drop_eq_nil_iff.mp behind)
    | cons rune rest =>
      rw [fitsColumn, behind, List.all_cons, Bool.and_eq_true, beq_iff_eq] at fits
      rw [behind, fits.1] at empty
      cases empty
  rw [cut, List.take_of_length_le short] at same
  exact ⟨(flatten_runes_eq_iff text).mp same, short⟩

theorem logged_iff (ended : event.outcome = outcomeOf event.ctx.status) :
    Logged isInet event ↔ Loggable isInet event := by
  constructor
  · intro logged
    obtain ⟨row, added, carries⟩ := logged []
    have takes : stored isInet (requestLogValues (loadEvt event)) = some row := by
      rw [onRequestEvent, persistRequestLog] at added
      cases same : stored isInet (requestLogValues (loadEvt event)) with
      | none => rw [same] at added; cases added
      | some other => rw [same] at added; cases added; rfl
    obtain ⟨fitsID, fitsTrace, texts, address, status, latency⟩ :=
      isSome_stored_loadEvt.mp (Option.isSome_iff_exists.mpr ⟨row, takes⟩)
    have kept := requestID_of_varchar (columns_of_stored takes).1 carries.requestID
    exact ⟨kept.1, kept.2, fitsTrace, texts, address, status, latency⟩
  · rintro ⟨encoded, short, fitsTrace, texts, address, status, latency⟩ table
    have fitsID : fitsColumn 64 (runes event.ctx.requestID) = true := by
      rw [fitsColumn, List.drop_eq_nil_of_le short]
      rfl
    obtain ⟨row, takes⟩ := Option.isSome_iff_exists.mp
      (isSome_stored_loadEvt.mpr ⟨fitsID, fitsTrace, texts, address, status, latency⟩)
    obtain ⟨identified, answered, finished⟩ := columns_of_stored takes
    refine ⟨row, by rw [onRequestEvent, persistRequestLog, takes]; rfl, ?_, ?_, ?_⟩
    · rw [varchar_eq_some identified, requestLogValues, loadEvt, List.take_of_length_le short]
      exact flatten_runes_of_valid _ encoded
    · exact int4_eq_some answered
    · rw [varchar_eq_some finished, requestLogValues, loadEvt, List.take_take, ended]
      exact flatten_take_outcomeOf _

end Logged

/-- **One row for every request whose texts fit.** -/
theorem logged_iff_loggable {config : Ingress.Config} {input : Ingress.Input} {r : Request}
    {log : Ingress.Log} (publisher : config.hasEventPublisher = true)
    (route : input.webhookRequest = some r)
    (path : (Ingress.start config input).Path log (.done ())) :
    ∃ event, requestEvents log = [event] ∧ Records r log event ∧
      ∀ isInet, Logged isInet event ↔ Loggable isInet event := by
  obtain ⟨event, once, records⟩ := Ingress.recorded_of_path publisher route path
  exact ⟨event, once, records, fun _ => logged_iff records.outcome⟩

/-! ### Requests that leave a row and requests that do not -/

def loggingConfig : Ingress.Config :=
  { Ingress.plainConfig with hasEventPublisher := true }

def logOf (r : Request) : Ingress.Log :=
  ((Ingress.start loggingConfig (.webhook r)).calls Ingress.obliging).map
    fun op => ⟨op, Ingress.obliging op⟩

theorem path_logOf (r : Request) :
    (Ingress.start loggingConfig (.webhook r)).Path (logOf r) (.done ()) := by
  refine Program.Path.of_outcome Ingress.obliging ?_
  cases (Ingress.start loggingConfig (.webhook r)).outcome Ingress.obliging with
  | ok ended => rfl
  | error error => exact error.elim

theorem recorded_logOf (r : Request) : Ingress.Recorded r (logOf r) :=
  Ingress.recorded_of_path rfl rfl (path_logOf r)

def sentWith (header : Header) : Request :=
  Ingress.middleware (lit "6f9619ff-8b86-4011-b42d-00c04fc964ff")
    { Ingress.plainRequest with header := header, remoteAddr := lit "192.0.2.7:51234" }

def onlyTestNet (text : Str) : Bool :=
  text == runes (lit "192.0.2.7")

instance (isInet : Str → Bool) (event : RequestEvent) : Decidable (Loggable isInet event) :=
  decidable_of_iff
    (validUtf8 event.ctx.requestID = true ∧ (runes event.ctx.requestID).length ≤ 64 ∧
      fitsColumn 64 (runes event.ctx.traceID) = true ∧
      (∀ text ∈ sentTexts (loadEvt event), hasNul text = false) ∧
      (runes event.clientIP = [] ∨ isInet (runes event.clientIP) = true) ∧
      event.ctx.status < 2 ^ 31 ∧
      -2 ^ 31 ≤ event.latency.tdiv 1000000 ∧ event.latency.tdiv 1000000 < 2 ^ 31)
    ⟨fun ⟨encoded, requestID, traceID, texts, clientIP, status, latency⟩ =>
        ⟨encoded, requestID, traceID, texts, clientIP, status, latency⟩,
      fun ⟨encoded, requestID, traceID, texts, clientIP, status, latency⟩ =>
        ⟨encoded, requestID, traceID, texts, clientIP, status, latency⟩⟩

theorem logged_iff_loggable_plain :
    ∃ event, requestEvents (logOf (sentWith [])) = [event] ∧ Logged onlyTestNet event := by
  have described : ∃ event, requestEvents (logOf (sentWith [])) = [event] ∧
      Records (sentWith []) (logOf (sentWith [])) event ∧
      ∀ isInet, Logged isInet event ↔ Loggable isInet event :=
    logged_iff_loggable rfl rfl (path_logOf (sentWith []))
  obtain ⟨event, once, _, logged⟩ := described
  refine ⟨event, once, (logged onlyTestNet).mpr ?_⟩
  have all : (requestEvents (logOf (sentWith []))).all
      (fun event => decide (Loggable onlyTestNet event)) = true := by decide +kernel
  rw [once, List.all_cons, Bool.and_eq_true, decide_eq_true_eq] at all
  exact all.1

/-- An id of 65 characters. -/
def longRequestID : Header :=
  [(lit "X-Request-ID", List.replicate 65 97)]

def hiddenAddress : Header :=
  [(lit "X-Forwarded-For", lit "unknown")]

/-- **Two headers with which an accepted request leaves no row.** -/
theorem not_logged_longRequestID :
    (∃ event, requestEvents (logOf (sentWith longRequestID)) = [event] ∧ event.ctx.status = 200 ∧
      ∀ isInet table, onRequestEvent isInet table (loadEvt event) = table) ∧
    ∃ event, requestEvents (logOf (sentWith hiddenAddress)) = [event] ∧ event.ctx.status = 200 ∧
      ∀ isInet table, isInet (runes (lit "unknown")) = false →
        onRequestEvent isInet table (loadEvt event) = table := by
  constructor
  · obtain ⟨event, once, -⟩ := recorded_logOf (sentWith longRequestID)
    have all : (requestEvents (logOf (sentWith longRequestID))).all
        (fun event => event.ctx.status = 200 && !fitsColumn 64 (runes event.ctx.requestID)) = true := by
      decide +kernel
    rw [once, List.all_cons, Bool.and_eq_true, Bool.and_eq_true, decide_eq_true_eq,
      Bool.not_eq_true'] at all
    refine ⟨event, once, all.1.1, fun isInet table => onRequestEvent_of_refused fun takes => ?_⟩
    rw [(isSome_stored_loadEvt.mp takes).1] at all
    cases all.1.2
  · obtain ⟨event, once, -⟩ := recorded_logOf (sentWith hiddenAddress)
    have all : (requestEvents (logOf (sentWith hiddenAddress))).all
        (fun event => event.ctx.status = 200 && event.clientIP == lit "unknown") = true := by
      decide +kernel
    rw [once, List.all_cons, Bool.and_eq_true, Bool.and_eq_true, decide_eq_true_eq, beq_iff_eq] at all
    refine ⟨event, once, all.1.1, fun isInet table refuses => onRequestEvent_of_refused fun takes => ?_⟩
    have address := (isSome_stored_loadEvt.mp takes).2.2.2.1
    rw [all.1.2, refuses] at address
    revert address
    decide +kernel

end ExecRelay.Persist
