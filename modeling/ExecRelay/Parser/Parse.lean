/-
**The alert parser** (`packages/parser-go/lookup.go`, `parser.go`).

The scanner as the source has it: it walks over the trimmed input by position, cuts one
comma-separated field after the other, looks names up without regard to ASCII case, and checks the
parameters while it collects them. A turn of the parameter loop is `addField`; the loop itself is
`parseParams`, whose `fuel` bounds the number of turns by the number of positions left.
-/

import ExecRelay.Lib.Check
import ExecRelay.Lib.Scan
import ExecRelay.Parser.Types

namespace ExecRelay.Parser

open Lib

/-! ### Lookup -/

/-- `value` is `want`, a name in small letters, up to the case of ASCII letters. -/
def eqFoldASCII (value want : Bytes) : Bool :=
  value.length == want.length && (List.zipWith (fun v w => lowerByte v == w) value want).all id

/-- The names a command goes by, in the order of the source's cases. -/
def commandNames : List (List Bytes × Command) :=
  [ ([lit "buy", lit "long", lit "bull", lit "bullish"], .buy),
    ([lit "sell", lit "short", lit "bear", lit "bearish"], .sell),
    ([lit "buystop"], .buyStop),
    ([lit "buylimit"], .buyLimit),
    ([lit "sellstop"], .sellStop),
    ([lit "selllimit"], .sellLimit),
    ([lit "closeall"], .closeAll),
    ([lit "cancellong"], .cancelLong),
    ([lit "cancelshort"], .cancelShort),
    ([lit "closelong"], .closeLong),
    ([lit "closeshort"], .closeShort),
    ([lit "closelongshort"], .closeLongShort),
    ([lit "closelongpct"], .closeLongPct),
    ([lit "closeshortpct"], .closeShortPct),
    ([lit "closelongvol"], .closeLongVol),
    ([lit "closeshortvol"], .closeShortVol),
    ([lit "newsltplong"], .newSLTPLong),
    ([lit "newsltpshort"], .newSLTPShort),
    ([lit "newsltpbuystop"], .newSLTPBuyStop),
    ([lit "newsltpbuylimit"], .newSLTPBuyLimit),
    ([lit "newsltpsellstop"], .newSLTPSellStop),
    ([lit "newsltpselllimit"], .newSLTPSellLimit),
    ([lit "closelongopenlong", lit "cl+ol"], .closeLongOpenLong),
    ([lit "closelongopenshort", lit "cl+os"], .closeLongOpenShort),
    ([lit "closeshortopenlong", lit "cs+ol"], .closeShortOpenLong),
    ([lit "closeshortopenshort", lit "cs+os"], .closeShortOpenShort),
    ([lit "closelongshortopenlong", lit "cls+ol"], .closeLongShortOpenLong),
    ([lit "closelongshortopenshort", lit "cls+os"], .closeLongShortOpenShort),
    ([lit "cancellongbuystop"], .cancelLongBuyStop),
    ([lit "cancellongbuylimit"], .cancelLongBuyLimit),
    ([lit "cancelshortsellstop"], .cancelShortSellStop),
    ([lit "cancelshortselllimit"], .cancelShortSellLimit),
    ([lit "eaoff"], .eaOff),
    ([lit "eaon"], .eaOn),
    ([lit "closealleaoff"], .closeAllEAOff) ]

/-- The names a parameter kind goes by, in the order of the source's cases. -/
def paramNames : List (List Bytes × ParamKind) :=
  [ ([lit "risk"], .risk),
    ([lit "vol_lots"], .volLots),
    ([lit "vol_dollar"], .volDollar),
    ([lit "vol_pct_bal_loss"], .volPctBalanceLoss),
    ([lit "vol_pct_eq_loss"], .volPctEquityLoss),
    ([lit "vol_pct_bal_margin"], .volPctBalanceMargin),
    ([lit "sl"], .sl),
    ([lit "sl_pips"], .slPips),
    ([lit "sl_price"], .slPrice),
    ([lit "sl_pct"], .slPct),
    ([lit "tp"], .tp),
    ([lit "tp_pips"], .tpPips),
    ([lit "tp_price"], .tpPrice),
    ([lit "tp_pct"], .tpPct),
    ([lit "pending"], .pending),
    ([lit "entry_price", lit "price"], .entryPrice),
    ([lit "entry_pips"], .entryPips),
    ([lit "entry_pct"], .entryPct),
    ([lit "trailtrig"], .trailTrigger),
    ([lit "traildist"], .trailDistance),
    ([lit "trailstep"], .trailStep),
    ([lit "atrtimeframe"], .atrTimeframe),
    ([lit "atrperiod"], .atrPeriod),
    ([lit "atrmultiplier"], .atrMultiplier),
    ([lit "atrshift"], .atrShift),
    ([lit "atrtrigger"], .atrTrigger),
    ([lit "betrigger"], .beTrigger),
    ([lit "beoffset"], .beOffset),
    ([lit "secret"], .secret),
    ([lit "comment"], .comment),
    ([lit "spread"], .spread),
    ([lit "accfilter"], .accountFilter) ]

/-- The switch both lookups are: the entry of the first case one of whose names matches. -/
def lookupName {Entry : Type} (table : List (List Bytes × Entry)) (text : Bytes) : Option Entry :=
  (table.find? fun row => row.1.any (eqFoldASCII text)).map Prod.snd

def commandFrom (raw : Bytes) : Command :=
  (lookupName commandNames raw).getD .invalid

def paramKindFromKey (key : Bytes) : ParamKind :=
  (lookupName paramNames key).getD .unknown

/-! ### Fields -/

def isASCIISpace (byte : UInt8) : Bool :=
  byte == 32 || byte == 9 || byte == 10 || byte == 13

def trimASCII (value : Bytes) : Bytes :=
  let start := scanUp isASCIISpace value value.length 0
  let stop := scanDown isASCIISpace value start value.length
  slice value start stop

def comma : UInt8 := 44

def equals : UInt8 := 61

/-- The field that starts at `pos`, and the position behind the comma that ends it. Behind the last
field that position is one past the end of the input, and from there on there is no field. -/
def nextField (input : Bytes) (pos : Nat) : Option (Bytes × Nat) :=
  if input.length < pos then none
  else
    let stop := scanUp (· != comma) input input.length pos
    some (trimASCII (slice input pos stop), stop + 1)

def splitParam (raw : Bytes) : Bytes × Bytes × Bool :=
  let i := scanUp (· != equals) raw raw.length 0
  if i < raw.length then
    let key := trimASCII (slice raw 0 i)
    let value := trimASCII (slice raw (i + 1) raw.length)
    (key, value, key != [] && value != [])
  else ([], [], false)

/-! ### Validation -/

/-- What the parameters seen so far say. -/
structure ValidationState where
  hasVolume : Bool := false
  hasSL : Bool := false
  hasTP : Bool := false
  hasEntry : Bool := false
  hasRisk : Bool := false
  hasLossRisk : Bool := false
  hasATR : Bool := false
  hasATRPeriod : Bool := false
  hasATRFrame : Bool := false
  deriving DecidableEq, Repr

namespace ValidationState

/-- The switch at the end of `add`: what one accepted parameter contributes. -/
def note (state : ValidationState) : ParamKind → ValidationState
  | .risk => { state with hasRisk := true }
  | .volDollar | .volPctBalanceLoss | .volPctEquityLoss => { state with hasLossRisk := true }
  | .atrTimeframe => { state with hasATR := true, hasATRFrame := true }
  | .atrPeriod => { state with hasATR := true, hasATRPeriod := true }
  | .atrMultiplier | .atrShift | .atrTrigger => { state with hasATR := true }
  | _ => state

/-- One of the four checks of `add` that a kind comes once: the flag `seen` of the kinds the test
`isKind` is about, after the parameter. -/
def once (isKind seen : Bool) (error : ParseError) : Except ParseError Bool :=
  if isKind then
    if seen then throw error else pure true
  else pure seen

def add (state : ValidationState) (kind : ParamKind) (value : Bytes) :
    Except ParseError ValidationState := do
  rejectIf (value = []) { code := .malformedParam, field := kind.string }
  let hasVolume ← once kind.isVolume state.hasVolume
    { code := .duplicateVolume, field := kind.string }
  let hasSL ← once kind.isSL state.hasSL { code := .duplicateSL, field := kind.string }
  let hasTP ← once kind.isTP state.hasTP { code := .duplicateTP, field := kind.string }
  let hasEntry ← once kind.isEntry state.hasEntry { code := .duplicateEntry, field := kind.string }
  rejectIf (kind = .comment ∧ maxComment < value.length)
    { code := .commentTooLong, field := kind.string }
  return { state with hasVolume, hasSL, hasTP, hasEntry }.note kind

end ValidationState

/-- The first switch of `validateSignal`: commands that need a special symbol. -/
def validateSymbol (signal : Signal) : Except ParseError Unit :=
  match signal.command with
  | .closeAll | .closeAllEAOff =>
    rejectIf (signal.symbol = []) { code := .closeAllRequiresChartSymbol, field := lit "symbol" }
  | .eaOff =>
    rejectIf (¬ eqFoldASCII signal.symbol (lit "eaoff"))
      { code := .managementSymbol, field := lit "eaoff" }
  | .eaOn =>
    rejectIf (¬ eqFoldASCII signal.symbol (lit "eaon"))
      { code := .managementSymbol, field := lit "eaon" }
  | _ => pure ()

/-- The last switch of `validateSignal`: closing a part by volume needs the volume. -/
def validatePartialVolume (signal : Signal) (state : ValidationState) : Except ParseError Unit :=
  match signal.command with
  | .closeLongVol | .closeShortVol =>
    rejectIf (¬ state.hasRisk) { code := .partialVolumeRequiresRisk, field := lit "risk" }
  | _ => pure ()

def validateSignal (signal : Signal) (state : ValidationState) : Except ParseError Unit := do
  validateSymbol signal
  rejectIf (signal.command.opensOrder ∧ ¬ state.hasVolume ∧ ¬ state.hasRisk)
    { code := .missingVolume, field := lit "volume" }
  rejectIf (signal.command.isPendingOpen ∧ ¬ state.hasEntry)
    { code := .pendingRequiresEntry, field := lit "entry" }
  rejectIf (state.hasLossRisk ∧ ¬ state.hasSL)
    { code := .riskVolumeRequiresSL, field := lit "sl" }
  rejectIf (state.hasATR ∧ (¬ state.hasATRFrame ∨ ¬ state.hasATRPeriod))
    { code := .atrRequiresTimeframePeriod, field := lit "atr" }
  rejectIf (signal.command.isModify ∧ ¬ state.hasSL ∧ ¬ state.hasTP)
    { code := .modifyRequiresSLTP, field := lit "sl_tp" }
  validatePartialVolume signal state

/-! ### The parser -/

def addField (signal : Signal) (state : ValidationState) (raw : Bytes) :
    Except ParseError (Signal × ValidationState) := do
  rejectIf (raw = []) { code := .malformedParam }
  rejectIf (signal.params.length = maxParams) { code := .tooManyParams }
  let (key, value, valid) := splitParam raw
  rejectIf (¬ valid) { code := .malformedParam, field := raw }
  let kind := paramKindFromKey key
  rejectIf (kind = .unknown) { code := .unknownParam, field := key }
  let state ← state.add kind value
  return (signal.addParam { kind, key, value }, state)

/-- The parameter loop, from position `pos`. -/
def parseParams (input : Bytes) :
    Nat → Nat → Signal → ValidationState → Except ParseError (Signal × ValidationState)
  | 0, _, signal, state => pure (signal, state)
  | fuel + 1, pos, signal, state =>
    if pos ≤ input.length then
      match nextField input pos with
      | none => pure (signal, state)
      | some (raw, next) => do
          let (signal, state) ← addField signal state raw
          parseParams input fuel next signal state
    else pure (signal, state)

def requiredField (input : Bytes) (pos : Nat) (name : Bytes) :
    Except ParseError (Bytes × Nat) :=
  match nextField input pos with
  | some (field, next) => do
      rejectIf (field = []) { code := .missingField, field := name }
      return (field, next)
  | none => throw { code := .missingField, field := name }

/-- **The parser.** -/
def parse (input : Bytes) : Except ParseError Signal := do
  let input := trimASCII input
  rejectIf (input = []) { code := .emptyInput }
  let (licenseID, pos) ← requiredField input 0 (lit "license_id")
  let (rawCommand, pos) ← requiredField input pos (lit "command")
  let command := commandFrom rawCommand
  rejectIf (command = .invalid) { code := .unknownCommand, field := rawCommand }
  let (symbol, pos) ← requiredField input pos (lit "symbol")
  let (signal, state) ←
    parseParams input (input.length + 1) pos { licenseID, command, rawCommand, symbol } {}
  validateSignal signal state
  return signal

end ExecRelay.Parser
