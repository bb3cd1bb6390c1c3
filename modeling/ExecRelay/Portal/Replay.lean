/-
**Replaying a signal.**

`replay_signal` takes the stored message of a signal apart, gives it another trace id and another time,
and publishes it again on the subject of its instance. It has a decoder and an encoder of its own. The
decoder stops at a wire type it does not know, cuts a field that is too long, and replaces what is not
UTF-8; only a number that is cut off raises.

The dictionary and `_varint` are those of persist.
-/

import ExecRelay.Lib.Machine
import ExecRelay.Nats.Delivery
import ExecRelay.Persist.ParseSignal
import ExecRelay.Portal.Database

namespace ExecRelay.Portal

open Lib
open Nats (Message)
open Persist (ParamDict SignalDict)

/-! ### The encoder -/

def encodeParam (param : ParamDict) : Bytes :=
  encodeFields [.payload 1 (param.key.getD []), .payload 2 (param.value.getD [])]

/-- A text that is empty or missing is left out, as is a time of zero. The time is not negative: a
decoded one is a varint, and the other is the clock's. -/
def encodeSignalProto (sig : SignalDict) : Bytes :=
  encodeFields (Field.ofText 1 (sig.traceId.getD []) ++ Field.ofText 2 (sig.licenseId.getD []) ++
    Field.ofText 3 (sig.instanceId.getD []) ++ Field.ofText 4 (sig.command.getD []) ++
    Field.ofText 5 (sig.rawCommand.getD []) ++ Field.ofText 6 (sig.symbol.getD []) ++
    Field.ofText 7 (sig.ingressRegion.getD []) ++
    Field.ofNumber 8 (sig.receivedUnixNano.getD 0).toNat ++
    Field.ofText 9 (sig.bodySha256.getD []) ++
    sig.params.map fun param => Field.payload 10 (encodeParam param))

/-! ### The decoder -/

/-- A read behind the end of the bytes. -/
inductive IndexError
  | outOfRange
deriving DecidableEq, Repr

def varint (data : Bytes) (pos : Nat) : Except IndexError (Nat × Nat) :=
  match Persist.varint data pos with
  | none => throw .outOfRange
  | some read => pure read

/-- One turn of the loop over a parameter. A tag of another wire type is passed over, without what is
behind it. -/
def decodeParamField (raw : Bytes) (pos : Nat) (param : ParamDict) :
    Except IndexError (Nat × ParamDict) := do
  let (tag, pos) ← varint raw pos
  if tag &&& 0x7 = 2 then
    let (length, pos) ← varint raw pos
    let text := decodeReplace (slice raw pos (pos + length))
    pure (pos + length, param.store (tag >>> 3) text)
  else
    pure (pos, param)

def decodeParam (raw : Bytes) : Except IndexError ParamDict :=
  readAll raw.length (decodeParamField raw) raw.length 0 {}

/-- A length-delimited field with its number: a known text, a parameter, or something dropped. -/
def storePayload (sig : SignalDict) (field : Nat) (raw : Bytes) : Except IndexError SignalDict :=
  match sig.storeText field (decodeReplace raw) with
  | some stored => pure stored
  | none =>
    if field = 10 then do
      let param ← decodeParam raw
      pure { sig with params := sig.params ++ [param] }
    else
      pure sig

def decodeField (data : Bytes) (pos : Nat) (sig : SignalDict) :
    Except IndexError (Nat × SignalDict) := do
  let (tag, pos) ← varint data pos
  match tag &&& 0x7 with
  | 0 => do
      let (value, pos) ← varint data pos
      pure (pos, if tag >>> 3 = 8 then { sig with receivedUnixNano := some value } else sig)
  | 2 => do
      let (length, pos) ← varint data pos
      let sig ← storePayload sig (tag >>> 3) (slice data pos (pos + length))
      pure (pos + length, sig)
  -- the loop is left
  | _ => pure (data.length, sig)

def decodeSignalProto (data : Bytes) : Except IndexError SignalDict :=
  readAll data.length (decodeField data) data.length 0 {}

/-! ### The endpoint -/

/-- The row that `replay_signal` selects. -/
structure ReplayRow where
  traceId : Bytes
  rawPayload : Option Bytes
  licenseKey : Bytes
  instanceKey : Option Bytes
  platform : Option Bytes
deriving DecidableEq, Repr

def Database.replayRow (db : Database) (signalID userID : Nat) : Option ReplayRow :=
  db.signals.findSome? fun signal =>
    if signal.id = signalID then
      (db.licenseOf userID signal.licenseId).map fun license =>
        let placed := signal.instanceId.bind fun id => db.instances.find? fun row => row.id = id
        { traceId := signal.traceId
          rawPayload := signal.rawPayload
          licenseKey := license.licenseKey
          instanceKey := placed.map fun row => row.instanceKey
          platform := placed.map fun row => row.platform }
    else none

/-- A publication that was not acknowledged; the server may have stored the message. -/
structure Unacknowledged where
  stored : Bool
deriving DecidableEq, Repr

inductive Op
  | fetchRow (signalID userID : Nat)
  /-- `get_nats`: whether there is a connection. -/
  | hasNats
  | timeNs
  | publish (message : Message)
  | audit (userID : Nat) (action reason : Bytes)

@[reducible]
def Answer : Op → Type
  | .fetchRow _ _ => Option (Option ReplayRow)
  | .hasNats => Bool
  | .timeNs => Nat
  | .publish _ => Option Unacknowledged
  | .audit _ _ _ => Unit

abbrev Endpoint := Program Op Answer HTTPException

abbrev invoke (op : Op) : Endpoint (Answer op) :=
  Program.perform op

/-- The user of a request and the signal of its path; an id that is no UUID is `none`. -/
structure ReplayRequest where
  userID : Nat
  signalID : Option Nat
deriving DecidableEq, Repr

structure ReplayResponse where
  traceID : Bytes
  subject : Bytes
deriving DecidableEq, Repr

def internalServerError : HTTPException := ⟨500, lit "Internal Server Error"⟩

/-- `signals.{platform}.{license_key}.{instance_key}`, where a missing key is written out as `None`. -/
def replaySubject (row : ReplayRow) : Bytes :=
  let platform := if row.platform.getD [] = [] then lit "mt5" else row.platform.getD []
  lit "signals." ++ platform ++ lit "." ++ row.licenseKey ++ lit "." ++
    row.instanceKey.getD (lit "None")

def republish (original : SignalDict) (now : Nat) : SignalDict :=
  { original with
    traceId := some (original.traceId.getD [] ++ lit "-r")
    receivedUnixNano := some now }

def publishAgain (userID : Nat) (row : ReplayRow) (original : SignalDict) :
    Endpoint ReplayResponse := do
  let now ← invoke .timeNs
  let again := republish original now
  let subject := replaySubject row
  match ← invoke (.publish ⟨subject, encodeSignalProto again⟩) with
  | some _ => .fail internalServerError
  | none =>
    invoke (.audit userID (lit "replay_signal")
      (lit "original_trace_id=" ++ row.traceId ++ lit " new_trace_id=" ++ again.traceId.getD []))
    return ⟨again.traceId.getD [], subject⟩

def replaySignal (request : ReplayRequest) : Endpoint ReplayResponse := do
  match request.signalID with
  | none => .fail ⟨404, lit "signal not found"⟩
  | some signalID =>
    match ← invoke (.fetchRow signalID request.userID) with
    | none => .fail internalServerError
    | some none => .fail ⟨404, lit "signal not found"⟩
    | some (some row) =>
      match row.rawPayload with
      | none => .fail ⟨422, lit "signal predates replay support (no raw_payload stored)"⟩
      | some raw =>
        if ← invoke .hasNats then
          match decodeSignalProto raw with
          | .error _ => .fail internalServerError
          | .ok original => publishAgain request.userID row original
        else .fail ⟨503, lit "nats unavailable"⟩

/-! ### The service -/

def serve (db : Database) : (op : Op) → Answer op → Option Database
  | .fetchRow signalID userID, some row => if row = db.replayRow signalID userID then some db else none
  | _, _ => some db

def machine : Machine Database ReplayRequest Database Op Answer HTTPException where
  start := fun request => do
    let _ ← replaySignal request
  arrive := fun db _ => some db
  serve := fun db _ => serve db
  change := fun _ db => some db

abbrev PortalState := Machine.State Database ReplayRequest Op Answer HTTPException

abbrev PortalLabel := Machine.Label ReplayRequest Database Op Answer

def published : Event Op Answer → Option Message
  | ⟨.publish message, none⟩ => some message
  | ⟨.publish message, some failure⟩ => if failure.stored then some message else none
  | _ => none

end ExecRelay.Portal
