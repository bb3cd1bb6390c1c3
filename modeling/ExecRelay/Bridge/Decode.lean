/-
**What the bridge decodes.**

The messages of a terminal are decoded with `json.Unmarshal`: first the type alone, then the structure
of that type. All their members are strings, and a member that is absent is the empty string.
-/

import ExecRelay.Bridge.Service
import ExecRelay.Lib.Json

namespace ExecRelay.Bridge

open Lib
open Lib.Json (unmarshal)

def decodeType (raw : Bytes) : Option Bytes :=
  (unmarshal [lit "type"] raw).map fun fields => fields.get (lit "type")

def registerNames : List Bytes :=
  [lit "type", lit "instance_id", lit "token", lit "account_number", lit "broker", lit "platform",
    lit "ea_version"]

def decodeRegister (raw : Bytes) : Option RegisterMsg :=
  (unmarshal registerNames raw).map fun fields =>
    { type := fields.get (lit "type")
      instanceID := fields.get (lit "instance_id")
      token := fields.get (lit "token")
      accountNumber := fields.get (lit "account_number")
      broker := fields.get (lit "broker")
      platform := fields.get (lit "platform")
      eaVersion := fields.get (lit "ea_version") }

def fillNames : List Bytes :=
  [lit "type", lit "trace_id", lit "status", lit "broker_order_id", lit "error_code",
    lit "error_message"]

def decodeFill (raw : Bytes) : Option FillMsg :=
  (unmarshal fillNames raw).map fun fields =>
    { type := fields.get (lit "type")
      traceID := fields.get (lit "trace_id")
      status := fields.get (lit "status")
      brokerOrderID := fields.get (lit "broker_order_id")
      errorCode := fields.get (lit "error_code")
      errorMessage := fields.get (lit "error_message") }

def decoding (authToken : Bytes) (codec : Proto.Codec) : Config where
  authToken := authToken
  codec := codec
  decodeRegister := decodeRegister
  decodeType := decodeType
  decodeFill := decodeFill

example : (decodeRegister (registerFrame "desk")).map (fun reg => (reg.instanceID, reg.token)) =
    some (lit "desk", lit "t0k3n") := by
  decide +kernel

end ExecRelay.Bridge
