/-
**The parameters on the other side.**

The bridge and the DXTrade worker put the parameters of a message into a map by their written keys,
the last one of a key winning (`lookup_dispatchParams`). The parser sees the same parameters by their
kinds, in any case and under any alias, the first one of a kind winning. `dispatchParams_iff` says
when the two views of an alert agree on a kind.
-/

import ExecRelay.Ingress.Signal
import ExecRelay.Parser.Correct
import ExecRelay.Proto.Codec
import Mathlib.Data.List.AList

namespace ExecRelay.Dispatch

open Lib
open ExecRelay.Parser (Param ParamKind parse pieces keyText valueText kindOf paramOf parse_parts
  paramKindFromKey)
open Ingress (LicenseRecord signalProto signalParams Time)
open Proto (Codec SignalParam)

/-- A `map[string]string`. -/
abbrev StringMap := AList fun _ : Bytes => Bytes

/-- `params[p.Key] = p.Value` for every parameter. -/
def dispatchParams (params : List SignalParam) : StringMap :=
  params.foldl (fun map param => map.insert param.key param.value) ∅

/-! ### The last parameter of a key -/

theorem lookup_foldl_insert (params : List SignalParam) (map : StringMap) (key : Bytes) :
    (params.foldl (fun map param => map.insert param.key param.value) map).lookup key =
      ((params.reverse.find? fun param => param.key = key).map SignalParam.value).or
        (map.lookup key) := by
  induction params generalizing map with
  | nil => rfl
  | cons param rest ih =>
    rw [List.foldl_cons, ih, List.reverse_cons, List.find?_append]
    by_cases same : param.key = key
    · subst same
      rw [AList.lookup_insert, List.find?_cons_of_pos (by simp)]
      cases rest.reverse.find? fun other => other.key = param.key <;> rfl
    · rw [AList.lookup_insert_ne (Ne.symm same), List.find?_cons_of_neg (by simpa using same)]
      cases rest.reverse.find? fun other => other.key = key <;> rfl

/-- **The last one wins.** -/
theorem lookup_dispatchParams (params : List SignalParam) (key : Bytes) :
    (dispatchParams params).lookup key =
      (params.reverse.find? fun param => param.key = key).map SignalParam.value := by
  rw [dispatchParams, lookup_foldl_insert, AList.lookup_empty, Option.or_none]

/-! ### Agreement with the parser -/

theorem paramKindFromKey_string (kind : ParamKind) : paramKindFromKey kind.string = kind := by
  cases kind <;> decide +kernel

theorem kindOf_of_keyText {piece : Bytes} {kind : ParamKind} (spelled : keyText piece = kind.string) :
    kindOf piece = kind := by
  rw [kindOf, spelled, paramKindFromKey_string]

def paramPieces (body : Bytes) : List Bytes :=
  (pieces body).drop 3

/-- **The spelling both views agree on**: no parameter is of the kind, or one is written with
exactly the canonical key and the last one so written has the value of the first one of the kind. -/
def SpelledCanonically (kind : ParamKind) (body : Bytes) : Prop :=
  (∀ piece ∈ paramPieces body, kindOf piece ≠ kind) ∨
    ∃ first last, (paramPieces body).find? (fun piece => kindOf piece = kind) = some first ∧
      (paramPieces body).reverse.find? (fun piece => keyText piece = kind.string) = some last ∧
      valueText last = valueText first

theorem lookup_signalParams {signal : Parser.Signal} {further : List Bytes} {kind : ParamKind}
    (params : signal.params = further.map paramOf) (notSecret : kind ≠ .secret) :
    (dispatchParams (signalParams signal)).lookup kind.string =
      (further.reverse.find? fun piece => keyText piece = kind.string).map valueText := by
  rw [lookup_dispatchParams, signalParams, params, List.filter_map, List.map_map, ← List.map_reverse,
    ← List.filter_reverse, List.find?_map, List.find?_filter, Option.map_map]
  refine congrArg (fun test => (further.reverse.find? test).map valueText) (funext fun piece => ?_)
  -- the secret is not spelled like the kind, so that leaving it out changes nothing
  show decide (decide (kindOf piece ≠ .secret) = true ∧ decide (keyText piece = kind.string) = true) =
    decide (keyText piece = kind.string)
  by_cases spelled : keyText piece = kind.string
  · have sentOn : kindOf piece ≠ .secret := by
      rw [kindOf_of_keyText spelled]
      exact notSecret
    simp only [sentOn, spelled, ne_eq, not_false_eq_true, decide_true, and_self]
  · simp only [spelled, decide_false, Bool.false_eq_true, and_false]

theorem param_eq_find {signal : Parser.Signal} {further : List Bytes} (kind : ParamKind)
    (params : signal.params = further.map paramOf) :
    (signal.param kind).map Param.value =
      (further.find? fun piece => kindOf piece = kind).map valueText := by
  rw [Parser.Signal.param, params, List.find?_map, Option.map_map]
  rfl

/-- **When the map agrees with the parser.** For every accepted alert that is published, the value
under the canonical key of a kind is the parser's exactly if the kind is spelled canonically. -/
theorem dispatchParams_iff (codec : Codec) {body : Bytes} {signal : Parser.Signal}
    (parsed : parse body = .ok signal) {kind : ParamKind} (notSecret : kind ≠ .secret)
    (record : LicenseRecord) (region traceID : Bytes) (received : Time) {payload : Bytes}
    (published : (signalProto signal record region traceID body received).marshal = some payload)
    {delivered : Proto.Signal} (read : codec.unmarshal payload = some delivered) :
    (dispatchParams delivered.params).lookup kind.string = (signal.param kind).map Param.value ↔
      SpelledCanonically kind body := by
  rw [codec.unmarshal_of_marshal published] at read
  cases read
  obtain ⟨license, command, symbol, further, split, _, _, _, _, _, params⟩ := parse_parts parsed
  have further' : paramPieces body = further := by
    rw [paramPieces, split]
    rfl
  show (dispatchParams (signalParams signal)).lookup kind.string = _ ↔ _
  rw [lookup_signalParams params notSecret, param_eq_find kind params, SpelledCanonically, further']
  cases first : further.find? fun piece => kindOf piece = kind with
  | none =>
    have absent : ∀ piece ∈ further, kindOf piece ≠ kind := by simpa using first
    have unspelled : further.reverse.find? (fun piece => keyText piece = kind.string) = none := by
      rw [List.find?_eq_none]
      intro piece member spelled
      exact absent piece (List.mem_reverse.mp member) (kindOf_of_keyText (by simpa using spelled))
    rw [unspelled]
    exact ⟨fun _ => Or.inl absent, fun _ => rfl⟩
  | some piece =>
    have present : ¬ ∀ piece ∈ further, kindOf piece ≠ kind := fun absent =>
      absent piece (List.mem_of_find?_eq_some first) (by simpa using List.find?_some first)
    rw [or_iff_right present, Option.map_some, Option.map_eq_some_iff]
    constructor
    · rintro ⟨last, spelled, same⟩
      exact ⟨piece, last, rfl, spelled, same⟩
    · rintro ⟨_, last, found, spelled, same⟩
      cases found
      exact ⟨last, spelled, same⟩

/-! ### An alert in capitals -/

def capitalsAlert : Bytes :=
  lit "60123456789,buy,EURUSD,vol_lots=0.10,SL=1.0500"

def capitalsSignal : Parser.Signal where
  licenseID := lit "60123456789"
  command := .buy
  rawCommand := lit "buy"
  symbol := lit "EURUSD"
  params := [⟨.volLots, lit "vol_lots", lit "0.10"⟩, ⟨.sl, lit "SL", lit "1.0500"⟩]

def capitalsMessage : Proto.Signal :=
  signalProto capitalsSignal { licenseID := lit "60123456789", instanceID := lit "mt5-a" }
    (lit "iad") (lit "trace-fixture-0001") capitalsAlert 1700000000000000000

/-- The agreement on the stop loss of this alert comes down to its spelling. -/
theorem dispatchParams_iff_capitals :
    (dispatchParams capitalsMessage.params).lookup ParamKind.sl.string =
      (capitalsSignal.param .sl).map Param.value ↔ SpelledCanonically .sl capitalsAlert :=
  dispatchParams_iff Codec.standard (by decide +kernel) (by decide) _ _ _ _
    (if_pos (by decide +kernel) : capitalsMessage.marshal = some capitalsMessage.encode)
    (Proto.decodeSignal_encode capitalsMessage)

/-- The parser finds the stop loss, but the map that the dispatchers build has none. -/
theorem dispatchParams_capitals :
    parse capitalsAlert = .ok capitalsSignal ∧
      (capitalsSignal.param .sl).map Param.value = some (lit "1.0500") ∧
      (capitalsMessage.marshal.bind Codec.standard.unmarshal).map
        (fun delivered => (dispatchParams delivered.params).lookup ParamKind.sl.string) =
          some none := by
  decide +kernel

end ExecRelay.Dispatch
