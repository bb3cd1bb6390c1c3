/-
**What ingress reads from a request** (`apps/ingress/internal/ingress/handler.go`).

The pure parts of the gates: the address of the client, the list of networks, the time stamp, the
signature and the trace id.
-/

import ExecRelay.Ingress.Signal
import ExecRelay.Lib.Text

namespace ExecRelay.Ingress

open Lib

/-- An HTTP request. `token` and `state` are query parameters, empty if they are missing; the ids of
the context are those of the middleware, empty without it. -/
structure Request where
  method : Bytes
  path : Bytes
  token : Bytes := []
  state : Bytes := []
  header : Header := []
  remoteAddr : Bytes := []
  body : Bytes := []
  /-- The connection breaks while the body is read. -/
  broken : Bool := false
  contextRequestID : Bytes := []
  contextTraceID : Bytes := []
  deriving DecidableEq

/-! ### The client -/

/-- The text before the last occurrence of a mark, if that is not the first byte. -/
def beforeLast (mark : UInt8) (text : Bytes) : Option Bytes :=
  let front := (text.reverse.dropWhile (· ≠ mark)).drop 1
  if text.contains mark && front ≠ [] then some front.reverse else none

def clientIP (r : Request) : Bytes :=
  let xff := r.header.get "X-Forwarded-For"
  let realIP := r.header.get "X-Real-IP"
  if xff ≠ [] then
    -- a comma in front is not a separator
    if xff.contains 44 && xff.head? ≠ some 44 then trimSpace (xff.takeWhile (· ≠ 44))
    else trimSpace xff
  else if realIP ≠ [] then trimSpace realIP
  else (beforeLast 58 r.remoteAddr).getD r.remoteAddr

/-- A `net.IPNet`: an address and a mask, of four or of sixteen bytes. -/
structure IPNet where
  ip : Bytes
  mask : Bytes
deriving DecidableEq, Repr

/-- `ip.To4`: the last four bytes of an address of either length, if it is one of IPv4. -/
def to4 (ip : Bytes) : Option Bytes :=
  if ip.length = 4 then some ip
  else if ip.length = 16 ∧ ip.take 12 = List.replicate 10 0 ++ [255, 255] then some (ip.drop 12)
  else none

namespace IPNet

def numberAndMask (network : IPNet) : Option (Bytes × Bytes) :=
  let ip := (to4 network.ip).getD network.ip
  if ip.length ≠ 4 ∧ ip.length ≠ 16 then none
  else if network.mask.length = ip.length then some (ip, network.mask)
  else if network.mask.length = 16 ∧ ip.length = 4 then some (ip, network.mask.drop 12)
  else none

def contains (network : IPNet) (ip : Bytes) : Bool :=
  let ip := (to4 ip).getD ip
  match network.numberAndMask with
  | none => ip = []
  | some (number, mask) =>
    ip.length = number.length &&
      (List.zipWith (· &&& ·) number mask == List.zipWith (· &&& ·) ip mask)

end IPNet

/-! ### The time stamp -/

def unixToInternal : Int := 62135596800

def wrap64 (value : Int) : Int :=
  (value + 2 ^ 63) % 2 ^ 64 - 2 ^ 63

/-- `time.Unix(ts, 0)`, in nanoseconds since the epoch: the seconds are kept since the year 1. -/
def unixTime (ts : Int) : Time :=
  (wrap64 (ts + unixToInternal) - unixToInternal) * 1000000000

/-- `Time.Sub`: the difference, or the largest or smallest duration. -/
def timeSub (left right : Time) : Int :=
  max (-2 ^ 63) (min (2 ^ 63 - 1) (left - right))

inductive TimestampError
  | invalidFormat
  | outsideWindow
deriving DecidableEq, Repr

def TimestampError.text : TimestampError → Bytes
  | invalidFormat => lit "invalid timestamp format"
  | outsideWindow => lit "timestamp outside acceptable window"

/-- The error of a time stamp. A request without one is not checked. -/
def checkTimestamp (header : Header) (now : Time) (window : Int) : Option TimestampError :=
  let raw := header.get "X-ExecRelay-Timestamp"
  if raw = [] then none
  else
    match parseInt64 (trimSpace raw) with
    | none => some .invalidFormat
    | some ts =>
      let diff := timeSub now (unixTime ts)
      let diff := if diff < 0 then wrap64 (-diff) else diff
      if window < diff then some .outsideWindow else none

/-! ### The signature -/

/-- The signature of a request, from the first header that has one. -/
def signatureText (header : Header) : Bytes :=
  let signature := header.get "X-ExecRelay-Signature"
  let signature := if signature = [] then header.get "X-Signature" else signature
  let signature := if signature = [] then header.get "X-Hub-Signature-256" else signature
  if (lit "sha256=").isPrefixOf signature then signature.drop (lit "sha256=").length else signature

def validSignature (body secret : Bytes) (header : Header) : Bool :=
  let signature := signatureText header
  signature.length = 64 && hexDecode signature == some (hmacSha256 secret body)

/-! ### The trace id -/

def traceIDFromRequest (header : Header) : Bytes :=
  let traceID := trimSpace (header.get "X-ExecRelay-Trace-ID")
  let traceparent := header.get "Traceparent"
  if traceID ≠ [] then traceID
  else if 55 ≤ traceparent.length ∧ traceparent[2]? = some 45 ∧ traceparent[35]? = some 45 then
    (traceparent.drop 3).take 32
  else []

end ExecRelay.Ingress
