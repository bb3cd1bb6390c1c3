/-
**The tables that the portal reads.**

The rows of the licenses, the instances, the accepted signals, the fills, the events and the log of the
requests, with the columns that the endpoints of the portal use. An id is a number, a time is the
number of its microseconds, and a JSON column is its text.
-/

import ExecRelay.Portal.Instances

namespace ExecRelay.Portal

open Lib

/-- An instance with its id. -/
structure StoredInstance extends InstanceRow where
  id : Nat
deriving DecidableEq, Repr

/-- A row of `accepted_signals`. -/
structure SignalRow where
  id : Nat
  receivedAt : Int
  licenseId : Nat
  instanceId : Option Nat
  traceId : Bytes
  ingressRegion : Bytes
  command : Bytes
  symbol : Bytes
  payload : Bytes
  /-- Missing in the rows that are older than the column. -/
  rawPayload : Option Bytes
deriving DecidableEq, Repr

structure FillRow where
  id : Nat
  createdAt : Int
  licenseId : Nat
  traceId : Bytes
  status : Bytes
  brokerOrderId : Option Bytes
  errorCode : Option Bytes
  errorMessage : Option Bytes
deriving DecidableEq, Repr

/-- A row of `system_events`. -/
structure EventRow where
  traceId : Option Bytes
  eventType : Bytes
  severity : Bytes
  payload : Bytes
  createdAt : Int
deriving DecidableEq, Repr

/-- A row of `request_log`. -/
structure RequestRow where
  receivedAt : Int
  requestId : Bytes
  traceId : Option Bytes
  service : Bytes
  route : Bytes
  method : Bytes
  clientIP : Option Bytes
  licenseKey : Option Bytes
  statusCode : Int
  outcome : Bytes
  reasonCode : Option Bytes
  latencyMs : Int
  bodySha256 : Option Bytes
  userAgent : Option Bytes
  detail : Option Bytes
deriving DecidableEq, Repr

structure Database where
  licenses : List LicenseRow
  instances : List StoredInstance := []
  signals : List SignalRow := []
  fills : List FillRow := []
  events : List EventRow := []
  requestLog : List RequestRow := []
deriving DecidableEq, Repr

namespace Database

variable (db : Database)

def licenseOf (userID licenseID : Nat) : Option LicenseRow :=
  db.licenses.find? fun license => license.id = licenseID && license.userId = userID

end Database

end ExecRelay.Portal
