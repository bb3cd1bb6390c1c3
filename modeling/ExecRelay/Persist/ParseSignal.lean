/-
**The decoder of persist.**

persist does not use a protobuf library: `parse_signal` walks over the payload with `_varint`, keeps
the fields it knows in a dictionary and raises a `ProtoParseError` on anything it cannot read. The
texts of the dictionary are kept as their UTF-8 bytes, and a key that was never set is `none`.
-/

import ExecRelay.Lib.Check
import ExecRelay.Lib.Scan
import ExecRelay.Lib.Utf8
import ExecRelay.Lib.Wire

namespace ExecRelay.Persist

open Lib

/-! ### Errors -/

inductive ProtoParseError where
  | emptyPayload
  | truncated (pos : Nat)
  | truncatedVarint (field : Nat)
  | truncatedLength (field : Nat)
  | overruns (field length : Nat)
  | notUtf8 (field : Nat)
  | truncatedNestedTag
  | truncatedNestedLength
  | nestedOverruns
  | nestedNotUtf8
  | unknownNestedWireType (wire : Nat)
  | unknownWireType (wire : Nat)
  | missingRequired (fields : List String)
deriving DecidableEq, Repr

namespace ProtoParseError

def text : ProtoParseError → String
  | emptyPayload => "empty payload"
  | truncated pos => s!"truncated at pos {pos}"
  | truncatedVarint field => s!"truncated varint for field {field}"
  | truncatedLength field => s!"truncated length for field {field}"
  | overruns field length => s!"field {field} length {length} overruns payload"
  | notUtf8 field => s!"field {field} not valid utf-8"
  | truncatedNestedTag => "truncated nested param tag"
  | truncatedNestedLength => "truncated nested param length"
  | nestedOverruns => "nested param overruns"
  | nestedNotUtf8 => "nested param not utf-8"
  | unknownNestedWireType wire => s!"unknown nested wire type {wire}"
  | unknownWireType wire => s!"unknown wire type {wire}"
  | missingRequired fields => "missing required fields: " ++ ",".intercalate fields

def numbers : ProtoParseError → List Nat
  | truncated pos => [pos]
  | truncatedVarint field | truncatedLength field | notUtf8 field => [field]
  | overruns field length => [field, length]
  | unknownNestedWireType wire | unknownWireType wire => [wire]
  | _ => []

def maxStrDigits : Nat := 4300

/-- Whether the text can be put together. If it cannot, a `ValueError` is raised in its place. -/
def Printable (error : ProtoParseError) : Prop :=
  ∀ number ∈ error.numbers, number < 10 ^ maxStrDigits

instance (error : ProtoParseError) : Decidable error.Printable :=
  inferInstanceAs (Decidable (∀ number ∈ error.numbers, number < 10 ^ maxStrDigits))

end ProtoParseError

/-! ### The dictionary -/

/-- One entry of `params`. -/
structure ParamDict where
  key : Option Bytes := none
  value : Option Bytes := none
deriving DecidableEq, Repr

structure SignalDict where
  traceId : Option Bytes := none
  licenseId : Option Bytes := none
  instanceId : Option Bytes := none
  command : Option Bytes := none
  rawCommand : Option Bytes := none
  symbol : Option Bytes := none
  ingressRegion : Option Bytes := none
  receivedUnixNano : Option Int := none
  bodySha256 : Option Bytes := none
  params : List ParamDict := []
deriving DecidableEq, Repr

namespace SignalDict

/-- `string_fields`: a text stored under the key of its field number, if it has one. -/
def storeText (sig : SignalDict) (field : Nat) (text : Bytes) : Option SignalDict :=
  match field with
  | 1 => some { sig with traceId := some text }
  | 2 => some { sig with licenseId := some text }
  | 3 => some { sig with instanceId := some text }
  | 4 => some { sig with command := some text }
  | 5 => some { sig with rawCommand := some text }
  | 6 => some { sig with symbol := some text }
  | 7 => some { sig with ingressRegion := some text }
  | 9 => some { sig with bodySha256 := some text }
  | _ => none

/-- `_REQUIRED_SIGNAL_FIELDS` with the values found for them. -/
def required (sig : SignalDict) : List (String × Option Bytes) :=
  [("trace_id", sig.traceId), ("license_id", sig.licenseId), ("command", sig.command),
    ("symbol", sig.symbol)]

def missing (sig : SignalDict) : List String :=
  (sig.required.filter fun entry => entry.2.getD [] = []).map Prod.fst

end SignalDict

/-! ### Reading -/

/-- The loop of `_varint`; a read past the end is the `IndexError`, here `none`. -/
def varintLoop (data : Bytes) : Nat → Nat → Nat → Nat → Option (Nat × Nat)
  | 0, _, _, _ => none
  | fuel + 1, pos, result, shift =>
    match data[pos]? with
    | none => none
    | some byte =>
      let result := result ||| (byte &&& 0x7F).toNat <<< shift
      if byte &&& 0x80 = 0 then some (result, pos + 1)
      else varintLoop data fuel (pos + 1) result (shift + 7)

/-- `_varint`: the number at `pos` and the position behind it. -/
def varint (data : Bytes) (pos : Nat) : Option (Nat × Nat) :=
  varintLoop data data.length pos 0 0

def orRaise {Value : Type} (error : ProtoParseError) :
    Option Value → Except ProtoParseError Value
  | none => throw error
  | some value => pure value

/-- A length and as many bytes at `pos`, with the position behind them. -/
def lengthDelimited (data : Bytes) (pos : Nat) (truncated : ProtoParseError)
    (overruns : Nat → ProtoParseError) : Except ProtoParseError (Bytes × Nat) := do
  let (length, pos) ← orRaise truncated (varint data pos)
  rejectIf (data.length < pos + length) (overruns length)
  pure (slice data pos (pos + length), pos + length)

/-- `raw.decode("utf-8")`. -/
def decodeUtf8 (error : ProtoParseError) (raw : Bytes) : Except ProtoParseError Bytes := do
  rejectIf (validUtf8 raw = false) error
  pure raw

namespace ParamDict

/-- A text stored under the key of its field number; other fields are dropped. -/
def store (param : ParamDict) (field : Nat) (text : Bytes) : ParamDict :=
  match field with
  | 1 => { param with key := some text }
  | 2 => { param with value := some text }
  | _ => param

end ParamDict

/-- One turn of the loop over a nested `SignalParam`. -/
def parseParamField (raw : Bytes) (pos : Nat) (param : ParamDict) :
    Except ProtoParseError (Nat × ParamDict) := do
  let (tag, pos) ← orRaise .truncatedNestedTag (varint raw pos)
  rejectIf (tag &&& 0x7 ≠ 2) (.unknownNestedWireType (tag &&& 0x7))
  let (bytes, pos) ← lengthDelimited raw pos .truncatedNestedLength fun _ => .nestedOverruns
  let text ← decodeUtf8 .nestedNotUtf8 bytes
  pure (pos, param.store (tag >>> 3) text)

/-- A nested `SignalParam`. -/
def parseParam (raw : Bytes) : Except ProtoParseError ParamDict :=
  readAll raw.length (parseParamField raw) raw.length 0 {}

/-- A length-delimited field with its number: a known text, a parameter, or something dropped. -/
def storePayload (sig : SignalDict) (field : Nat) (raw : Bytes) :
    Except ProtoParseError SignalDict :=
  match sig.storeText field raw with
  | some stored => do
      let _ ← decodeUtf8 (.notUtf8 field) raw
      pure stored
  | none =>
    if field = 10 then do
      let param ← parseParam raw
      pure { sig with params := sig.params ++ [param] }
    else
      pure sig

def parseField (data : Bytes) (pos : Nat) (sig : SignalDict) :
    Except ProtoParseError (Nat × SignalDict) := do
  let (tag, pos) ← orRaise (.truncated pos) (varint data pos)
  match tag &&& 0x7 with
  | 0 => do
      let (value, pos) ← orRaise (.truncatedVarint (tag >>> 3)) (varint data pos)
      pure (pos, if tag >>> 3 = 8 then { sig with receivedUnixNano := some value } else sig)
  | 2 => do
      let (raw, pos) ← lengthDelimited data pos (.truncatedLength (tag >>> 3))
        (.overruns (tag >>> 3))
      let sig ← storePayload sig (tag >>> 3) raw
      pure (pos, sig)
  | wire => throw (.unknownWireType wire)

/-- `parse_signal`. -/
def parseSignal (data : Bytes) : Except ProtoParseError SignalDict := do
  rejectIf (data = []) .emptyPayload
  let sig ← readAll data.length (parseField data) data.length 0 {}
  rejectIf (sig.missing ≠ []) (.missingRequired sig.missing)
  pure sig

end ExecRelay.Persist
