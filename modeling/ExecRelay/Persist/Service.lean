/-
**persist as a service.**

`on_signal` decodes a message of the durable consumer, writes what it decoded in four statements and
acknowledges the message. The statements are not one transaction, and the handlers of several messages
take their steps in any order. Every statement may fail: it had no effect, or it had one and the reply
was lost. The rows of the other services may change at any time.
-/

import ExecRelay.Lib.Machine
import ExecRelay.Nats.Delivery
import ExecRelay.Persist.ParseSignal

namespace ExecRelay.Persist

open Lib
open Nats (Message)

/-! ### Rows -/

/-- A row of `licenses`; the key is unique. -/
structure LicenseRow where
  id : Nat
  licenseKey : Bytes
  active : Bool
deriving DecidableEq, Repr

structure InstanceRow where
  id : Nat
  licenseId : Nat
  instanceKey : Bytes
deriving DecidableEq, Repr

/-- A row of `signal_fingerprints`; the pair is its primary key. -/
structure Fingerprint where
  licenseId : Nat
  bodySha256 : Bytes
deriving DecidableEq, Repr

/-- A row of `accepted_signals`. `payload` holds the command as it was written and the parameters. -/
structure AcceptedRow where
  receivedAt : Int
  licenseId : Nat
  instanceId : Option Nat
  traceId : Bytes
  ingressRegion : Bytes
  command : Bytes
  symbol : Bytes
  payload : Option Bytes × List ParamDict
  rawPayload : Bytes
deriving DecidableEq, Repr

structure DeadLetter where
  subject : Bytes
  reason : Bytes
  errorDetail : Bytes
  payload : Bytes
deriving DecidableEq, Repr

structure Database where
  licenses : List LicenseRow := []
  instances : List InstanceRow := []
  fingerprints : List Fingerprint := []
  accepted : List AcceptedRow := []
  deadLetters : List DeadLetter := []

/-! ### Statements -/

inductive Op
  | acquire
  | selectLicense (licenseKey : Bytes)
  | insertFingerprint (fingerprint : Fingerprint)
  | selectInstance (licenseId : Nat) (instanceKey : Bytes)
  | insertAccepted (row : AcceptedRow)
  | insertDeadLetter (letter : DeadLetter)
  | ack

@[reducible]
def Value : Op → Type
  | .selectLicense _ => Option Nat
  | .insertFingerprint _ => Bool
  | .selectInstance _ _ => Option Nat
  | _ => Unit

instance : (op : Op) → DecidableEq (Value op)
  | .acquire => inferInstanceAs (DecidableEq Unit)
  | .selectLicense _ => inferInstanceAs (DecidableEq (Option Nat))
  | .insertFingerprint _ => inferInstanceAs (DecidableEq Bool)
  | .selectInstance _ _ => inferInstanceAs (DecidableEq (Option Nat))
  | .insertAccepted _ => inferInstanceAs (DecidableEq Unit)
  | .insertDeadLetter _ => inferInstanceAs (DecidableEq Unit)
  | .ack => inferInstanceAs (DecidableEq Unit)

/-- An exception, and whether the call had its effect all the same. -/
inductive Failure
  | refused
  | lost
deriving DecidableEq, Repr

abbrev Answer (op : Op) : Type := Except Failure (Value op)

def statement (op : Op) : Program Op Answer Failure (Value op) := do
  match ← Program.perform op with
  | .ok value => return value
  | .error failure => .fail failure

/-! ### The handlers -/

def SignalDict.key (sig : SignalDict) : Bytes := sig.licenseId.getD []

def SignalDict.body (sig : SignalDict) : Bytes := sig.bodySha256.getD []

def acceptedRow (sig : SignalDict) (rawData : Bytes) (licenseUuid : Nat) (instanceUuid : Option Nat) :
    AcceptedRow where
  receivedAt := sig.receivedUnixNano.getD 0
  licenseId := licenseUuid
  instanceId := instanceUuid
  traceId := sig.traceId.getD []
  ingressRegion := sig.ingressRegion.getD []
  command := sig.command.getD []
  symbol := sig.symbol.getD []
  payload := (sig.rawCommand, sig.params)
  rawPayload := rawData

/-- The signal of a license that was found, behind the check for duplicates. -/
def insertSignal (sig : SignalDict) (rawData : Bytes) (licenseUuid : Nat) :
    Program Op Answer Failure Unit := do
  let instanceUuid ← statement (.selectInstance licenseUuid (sig.instanceId.getD []))
  statement (.insertAccepted (acceptedRow sig rawData licenseUuid instanceUuid))

def persistSignal (sig : SignalDict) (rawData : Bytes) : Program Op Answer Failure Unit := do
  let _ ← statement .acquire
  match ← statement (.selectLicense sig.key) with
  | none => return ()
  | some licenseUuid =>
    if sig.body ≠ [] then
      let inserted ← statement (.insertFingerprint ⟨licenseUuid, sig.body⟩)
      -- a duplicate is skipped
      if inserted then insertSignal sig rawData licenseUuid else return ()
    else insertSignal sig rawData licenseUuid

def deadletter (hasPool : Bool) (msg : Message) (reason : String) (err : String) :
    Program Op Answer Failure Unit := do
  if hasPool then
    let _ ← statement .acquire
    statement (.insertDeadLetter ⟨msg.subject, lit reason, (lit err).take 2000, msg.data⟩)
  else return ()

/-- The reason and the text under which a message is parked. An exception that is no
`ProtoParseError` is parked under its `repr`. -/
def parked (error : ProtoParseError) : String × String :=
  if error.Printable then ("parse_error", error.text)
  else ("parse_panic", "ValueError('Exceeds the limit (4300 digits) for integer string conversion; " ++
    "use sys.set_int_max_str_digits() to increase the limit')")

/-- Both are run with their exceptions caught, and the message is acknowledged. -/
def onSignal (hasPool : Bool) (msg : Message) : Program Op Answer Empty Unit := do
  match parseSignal msg.data with
  | .error error =>
    let _ ← (deadletter hasPool msg (parked error).1 (parked error).2).attempt
  | .ok sig =>
    if hasPool then
      let _ ← (persistSignal sig msg.data).attempt
  let _ ← Program.perform .ack

/-! ### The service -/

namespace Database

variable (db : Database)

def activeLicense (licenseKey : Bytes) : Option Nat :=
  (db.licenses.find? fun row => row.licenseKey = licenseKey && row.active).map LicenseRow.id

def execute : (op : Op) → Value op × Database
  | .acquire => ((), db)
  | .selectLicense licenseKey => (db.activeLicense licenseKey, db)
  | .insertFingerprint fingerprint =>
    if fingerprint ∈ db.fingerprints then (false, db)
    else (true, { db with fingerprints := db.fingerprints ++ [fingerprint] })
  | .selectInstance licenseId instanceKey =>
    ((db.instances.find? fun row =>
      row.licenseId = licenseId && row.instanceKey = instanceKey).map InstanceRow.id, db)
  | .insertAccepted row => ((), { db with accepted := db.accepted ++ [row] })
  | .insertDeadLetter letter => ((), { db with deadLetters := db.deadLetters ++ [letter] })
  | .ack => ((), db)

end Database

def serve (db : Database) (op : Op) : Answer op → Option Database
  | .ok value => if value = (db.execute op).1 then some (db.execute op).2 else none
  | .error .refused => some db
  | .error .lost => some (db.execute op).2

/-- The service. Any message may be delivered at any time and any number of times, and the other
services may change the rows. -/
def machine (hasPool : Bool) : Machine Database Message Database Op Answer Empty where
  start := onSignal hasPool
  arrive := fun db _ => some db
  serve := fun db _ => serve db
  change := fun _ db => some db

abbrev PersistState := Machine.State Database Message Op Answer Empty

abbrev PersistLabel := Machine.Label Message Database Op Answer

/-- The answers of a database with one license to the first message of a body. -/
def working : (op : Op) → Answer op
  | .acquire => .ok ()
  | .selectLicense _ => .ok (some 1)
  | .insertFingerprint _ => .ok true
  | .selectInstance _ _ => .ok none
  | .insertAccepted _ => .ok ()
  | .insertDeadLetter _ => .ok ()
  | .ack => .ok ()

end ExecRelay.Persist
