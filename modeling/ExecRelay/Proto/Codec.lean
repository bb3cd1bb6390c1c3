/-
**What the other services read.**

The bridge and the DXTrade worker read a payload with the protobuf library. `Codec` is that library's
`Unmarshal` with the one thing they rely on: it returns the message whose encoding it is given.
`Codec.standard` is a decoder with this property, so that a codec exists and concrete runs can be
evaluated.
-/

import ExecRelay.Proto.Signal

namespace ExecRelay.Proto

open Lib

/-- `proto.Unmarshal` for signals. -/
structure Codec where
  unmarshal : Bytes → Option Signal
  unmarshal_encode : ∀ signal : Signal, signal.wellFormed = true →
    unmarshal signal.encode = some signal

theorem Codec.unmarshal_of_marshal (codec : Codec) {signal : Signal} {payload : Bytes}
    (encoded : signal.marshal = some payload) : codec.unmarshal payload = some signal := by
  unfold Signal.marshal at encoded
  split at encoded
  · rename_i valid
    injection encoded with same
    rw [← same]
    exact codec.unmarshal_encode signal valid
  · cases encoded

/-! ### A decoder -/

def readText (number : Nat) (text : Bytes) : Field → Bytes
  | .payload other bytes => if other = number then bytes else text
  | .number _ _ => text

/-- The text of a field: the last payload with its number, or the default. -/
def textOf (number : Nat) (fields : List Field) : Bytes :=
  fields.foldl (readText number) []

def readNumber (number : Nat) (value : Nat) : Field → Nat
  | .number other given => if other = number then given else value
  | .payload _ _ => value

def numberOf (number : Nat) (fields : List Field) : Nat :=
  fields.foldl (readNumber number) 0

def readPayload (number : Nat) : Field → Option Bytes
  | .payload other bytes => if other = number then some bytes else none
  | .number _ _ => none

def payloadsOf (number : Nat) (fields : List Field) : List Bytes :=
  fields.filterMap (readPayload number)

def decodeParam (data : Bytes) : Option SignalParam :=
  (decodeFields data).map fun fields => { key := textOf 1 fields, value := textOf 2 fields }

def decodeSignal (data : Bytes) : Option Signal := do
  let fields ← decodeFields data
  let params ← (payloadsOf 10 fields).mapM decodeParam
  pure
    { traceId := textOf 1 fields
      licenseId := textOf 2 fields
      instanceId := textOf 3 fields
      command := textOf 4 fields
      rawCommand := textOf 5 fields
      symbol := textOf 6 fields
      ingressRegion := textOf 7 fields
      receivedUnixNano := (UInt64.ofNat (numberOf 8 fields)).toInt64
      bodySha256 := textOf 9 fields
      params }

/-! ### It undoes the encoding -/

section Fields

variable (number other value : Nat) (text found : Bytes) (params : List SignalParam)

theorem foldl_readText_ofText :
    (Field.ofText other text).foldl (readText number) found =
      if other = number ∧ text ≠ [] then text else found := by
  unfold Field.ofText
  by_cases empty : text = []
  · rw [if_pos empty, if_neg fun both => both.2 empty]
    rfl
  · rw [if_neg empty, List.foldl_cons, List.foldl_nil, readText]
    simp only [empty, ne_eq, not_false_eq_true, and_true]

theorem foldl_readText_ofNumber :
    (Field.ofNumber other value).foldl (readText number) found = found := by
  unfold Field.ofNumber
  split <;> rfl

theorem foldl_readText_params (apart : number ≠ 10) :
    (params.map fun param => Field.payload 10 param.encode).foldl (readText number) found = found := by
  induction params with
  | nil => rfl
  | cons param rest ih =>
    rw [List.map_cons, List.foldl_cons, readText, if_neg (Ne.symm apart), ih]

theorem foldl_readNumber_ofText (given : Nat) :
    (Field.ofText other text).foldl (readNumber number) given = given := by
  unfold Field.ofText
  split <;> rfl

theorem foldl_readNumber_ofNumber (given : Nat) :
    (Field.ofNumber other value).foldl (readNumber number) given =
      if other = number ∧ value ≠ 0 then value else given := by
  unfold Field.ofNumber
  by_cases zero : value = 0
  · rw [if_pos zero, if_neg fun both => both.2 zero]
    rfl
  · rw [if_neg zero, List.foldl_cons, List.foldl_nil, readNumber]
    simp only [zero, ne_eq, not_false_eq_true, and_true]

theorem foldl_readNumber_params (given : Nat) :
    (params.map fun param => Field.payload 10 param.encode).foldl (readNumber number) given =
      given := by
  induction params with
  | nil => rfl
  | cons param rest ih => rw [List.map_cons, List.foldl_cons, readNumber, ih]

theorem payloadsOf_ofText (apart : other ≠ number) :
    (Field.ofText other text).filterMap (readPayload number) = [] := by
  unfold Field.ofText
  split
  · rfl
  · rw [List.filterMap_cons, readPayload, if_neg apart]
    rfl

theorem payloadsOf_ofNumber : (Field.ofNumber other value).filterMap (readPayload number) = [] := by
  unfold Field.ofNumber
  split <;> rfl

theorem payloadsOf_params :
    (params.map fun param => Field.payload 10 param.encode).filterMap (readPayload 10) =
      params.map SignalParam.encode := by
  rw [List.filterMap_map, ← List.filterMap_eq_map]
  rfl

end Fields

theorem ite_eq_default {Value : Type} [DecidableEq Value] (default value : Value) :
    (if value = default then default else value) = value := by
  split
  · rename_i same
    exact same.symm
  · rfl

theorem decodeParam_encode (param : SignalParam) : decodeParam param.encode = some param := by
  rw [decodeParam, SignalParam.encode, decodeFields_encode, Option.map_some]
  simp only [textOf, SignalParam.fields, List.foldl_append, foldl_readText_ofText]
  simp [ite_eq_default]

theorem mapM_decodeParam (params : List SignalParam) :
    (params.map SignalParam.encode).mapM decodeParam = some params := by
  induction params with
  | nil => rfl
  | cons param rest ih =>
    rw [List.map_cons, List.mapM_cons, decodeParam_encode, ih]
    rfl

/-- **The decoder undoes the encoding.** -/
theorem decodeSignal_encode (signal : Signal) : decodeSignal signal.encode = some signal := by
  have params : payloadsOf 10 signal.fields = signal.params.map SignalParam.encode := by
    simp only [payloadsOf, Signal.fields, List.filterMap_append, payloadsOf_params,
      payloadsOf_ofNumber]
    simp [payloadsOf_ofText]
  rw [decodeSignal, Signal.encode, decodeFields_encode]
  simp only [Option.bind_eq_bind, Option.bind_some, params, mapM_decodeParam]
  simp only [textOf, numberOf, Signal.fields, List.foldl_append, foldl_readText_ofText,
    foldl_readText_ofNumber, foldl_readNumber_ofText, foldl_readNumber_ofNumber,
    foldl_readNumber_params]
  simp [foldl_readText_params, ite_eq_default]

def Codec.standard : Codec where
  unmarshal := decodeSignal
  unmarshal_encode := fun signal _ => decodeSignal_encode signal

end ExecRelay.Proto
