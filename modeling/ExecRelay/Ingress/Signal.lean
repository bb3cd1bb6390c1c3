/-
**From a parsed alert to the published message.**

`signalProto` builds the message of a parsed alert: every parameter but the secret, under the key it
was written with. `buildMLSignal` builds the alert of a request to the ML route, whose parameters
have canonical keys. `signalSubject` is the subject the message goes to, and `validSubjectToken` the
texts that can be part of a subject.
-/

import ExecRelay.Lib.Float64
import ExecRelay.Lib.Sha256
import ExecRelay.Parser.Types
import ExecRelay.Proto.Signal

namespace ExecRelay.Ingress

open Lib
open ExecRelay.Parser (Command ParamKind)

abbrev Time := Int

structure LicenseRecord where
  licenseID : Bytes
  secret : Bytes := []
  hmacSecret : Bytes := []
  instanceID : Bytes
  platform : Bytes := []
  active : Bool := true
  pendingHMACSecret : Bytes := []
  /-- Zero is no limit. -/
  maxSignalsPerDay : Int := 0
deriving DecidableEq, Repr

/-! ### The message -/

def signalParams (signal : Parser.Signal) : List Proto.SignalParam :=
  (signal.params.filter fun param => param.kind ≠ .secret).map fun param => ⟨param.key, param.value⟩

def signalProto (signal : Parser.Signal) (record : LicenseRecord) (region traceID body : Bytes)
    (received : Time) : Proto.Signal where
  traceId := traceID
  licenseId := signal.licenseID
  instanceId := record.instanceID
  command := signal.command.string
  rawCommand := signal.rawCommand
  symbol := signal.symbol
  ingressRegion := region
  receivedUnixNano := Int64.ofInt received
  bodySha256 := hexEncode (sha256 body)
  params := signalParams signal

/-! ### The subject -/

def signalSubject (licenseID instanceID platform : Bytes) : Bytes :=
  let platform := if platform = [] then lit "mt5" else platform
  lit "signals." ++ platform ++ lit "." ++ licenseID ++ lit "." ++ instanceID

def isSubjectByte (byte : UInt8) : Bool :=
  97 ≤ byte && byte ≤ 122 || 65 ≤ byte && byte ≤ 90 || 48 ≤ byte && byte ≤ 57 || byte == 95 ||
    byte == 45

def validSubjectToken (value : Bytes) : Bool :=
  value ≠ [] && value.all isSubjectByte

/-! ### The alert of the ML route -/

/-- The request body of the ML route. `features` is the JSON object as it was sent. -/
structure MLWebhookRequest where
  licenseID : Bytes
  secret : Bytes
  action : Bytes
  symbol : Bytes
  volume : Float64
  sl : Float64
  tp : Float64
  comment : Bytes
  currentPosition : Option Bytes
  features : Bytes
deriving DecidableEq, Repr

def numberParam (formatFloat : Float64 → Bytes) (kind : ParamKind) (key : String)
    (value : Float64) : List Parser.Param :=
  if value.isZero then [] else [⟨kind, lit key, formatFloat value⟩]

/-- The parameters of a request, in the order in which they are added. -/
def mlParams (formatFloat : Float64 → Bytes) (req : MLWebhookRequest) : List Parser.Param :=
  numberParam formatFloat .volLots "vol_lots" req.volume ++
    numberParam formatFloat .sl "sl" req.sl ++ numberParam formatFloat .tp "tp" req.tp ++
    if req.comment = [] then [] else [⟨.comment, lit "comment", req.comment⟩]

def buildMLSignal (formatFloat : Float64 → Bytes) (req : MLWebhookRequest) (command : Command) :
    Parser.Signal :=
  (mlParams formatFloat req).foldl Parser.Signal.addParam
    { licenseID := req.licenseID, command, rawCommand := command.string, symbol := req.symbol }

end ExecRelay.Ingress
