/-
**The signal message.**

`Signal` and `SignalParam` are the message that ingress publishes and that the bridge, the DXTrade
worker and persist read. `fields` lists what the standard encoding writes of it, by the numbers and
wire types of the struct tags: in tag order, without the fields that hold their default.
-/

import ExecRelay.Lib.Wire
import ExecRelay.Lib.Utf8

namespace ExecRelay.Proto

open Lib

structure SignalParam where
  key : Bytes
  value : Bytes
deriving DecidableEq, Repr

structure Signal where
  traceId : Bytes
  licenseId : Bytes
  instanceId : Bytes
  command : Bytes
  rawCommand : Bytes
  symbol : Bytes
  ingressRegion : Bytes
  receivedUnixNano : Int64
  bodySha256 : Bytes
  params : List SignalParam
deriving DecidableEq, Repr

namespace SignalParam

def fields (param : SignalParam) : List Field :=
  Field.ofText 1 param.key ++ Field.ofText 2 param.value

def encode (param : SignalParam) : Bytes :=
  encodeFields param.fields

def wellFormed (param : SignalParam) : Bool :=
  validUtf8 param.key && validUtf8 param.value

end SignalParam

namespace Signal

def texts (signal : Signal) : List Bytes :=
  [signal.traceId, signal.licenseId, signal.instanceId, signal.command, signal.rawCommand,
    signal.symbol, signal.ingressRegion, signal.bodySha256]

def fields (signal : Signal) : List Field :=
  Field.ofText 1 signal.traceId ++ Field.ofText 2 signal.licenseId ++
    Field.ofText 3 signal.instanceId ++ Field.ofText 4 signal.command ++
    Field.ofText 5 signal.rawCommand ++ Field.ofText 6 signal.symbol ++
    Field.ofText 7 signal.ingressRegion ++
    -- an int64 goes over the wire as the unsigned number with the same bits
    Field.ofNumber 8 signal.receivedUnixNano.toUInt64.toNat ++
    Field.ofText 9 signal.bodySha256 ++
    signal.params.map fun param => Field.payload 10 param.encode

def encode (signal : Signal) : Bytes :=
  encodeFields signal.fields

/-- Whether all texts of the message are UTF-8, as proto3 asks of a string. -/
def wellFormed (signal : Signal) : Bool :=
  signal.texts.all validUtf8 && signal.params.all SignalParam.wellFormed

/-- `proto.Marshal`: a message with a text that is not UTF-8 is refused. -/
def marshal (signal : Signal) : Option Bytes :=
  if signal.wellFormed then some signal.encode else none

end Signal

def canonicalSignal : Signal where
  traceId := lit "trace-fixture-0001"
  licenseId := lit "60123456789"
  instanceId := lit "mt5-a"
  command := lit "buy"
  rawCommand := lit "BUY"
  symbol := lit "EURUSD"
  ingressRegion := lit "iad"
  receivedUnixNano := 1700000000000000000
  bodySha256 := lit "deadbeefcafef00d"
  params := [⟨lit "vol_lots", lit "0.10"⟩, ⟨lit "sl_pips", lit "20"⟩]

/-- The encoding of the fixture is the golden text of the test. -/
example : canonicalSignal.marshal.map hexEncode = some (lit
    ("0a1274726163652d666978747572652d30303031120b36303132333435363738391a056d74352d6122036275" ++
      "792a0342555932064555525553443a03696164408080a8b1e39fe7cb174a1064656164626565666361666566" ++
      "30306452100a08766f6c5f6c6f74731204302e3130520d0a07736c5f7069707312023230")) := by
  decide +kernel

end ExecRelay.Proto
