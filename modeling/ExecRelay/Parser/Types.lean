/-
**The alert parser's data model** (`packages/parser-go/types.go`, `errors.go`).

An alert is `license,command,symbol,key=value,...`. A parsed alert is a `Signal`: the three leading
fields and at most `maxParams` parameters, each with the kind its key stands for. The source keeps
the parameters in an array of `MaxParams` slots with a counter; here they are the list of the slots
below the counter, and the bound is a field of the structure.
-/

import ExecRelay.Lib.Bytes

namespace ExecRelay.Parser

open Lib

def maxParams : Nat := 48

def maxComment : Nat := 20

/-! ### Commands -/

inductive Command
  | invalid
  | buy
  | sell
  | buyStop
  | buyLimit
  | sellStop
  | sellLimit
  | closeAll
  | cancelLong
  | cancelShort
  | closeLong
  | closeShort
  | closeLongShort
  | closeLongPct
  | closeShortPct
  | closeLongVol
  | closeShortVol
  | newSLTPLong
  | newSLTPShort
  | newSLTPBuyStop
  | newSLTPBuyLimit
  | newSLTPSellStop
  | newSLTPSellLimit
  | closeLongOpenLong
  | closeLongOpenShort
  | closeShortOpenLong
  | closeShortOpenShort
  | closeLongShortOpenLong
  | closeLongShortOpenShort
  | cancelLongBuyStop
  | cancelLongBuyLimit
  | cancelShortSellStop
  | cancelShortSellLimit
  | eaOff
  | eaOn
  | closeAllEAOff
  deriving DecidableEq, Repr

namespace Command

def string : Command → Bytes
  | buy => lit "buy"
  | sell => lit "sell"
  | buyStop => lit "buystop"
  | buyLimit => lit "buylimit"
  | sellStop => lit "sellstop"
  | sellLimit => lit "selllimit"
  | closeAll => lit "closeall"
  | cancelLong => lit "cancellong"
  | cancelShort => lit "cancelshort"
  | closeLong => lit "closelong"
  | closeShort => lit "closeshort"
  | closeLongShort => lit "closelongshort"
  | closeLongPct => lit "closelongpct"
  | closeShortPct => lit "closeshortpct"
  | closeLongVol => lit "closelongvol"
  | closeShortVol => lit "closeshortvol"
  | newSLTPLong => lit "newsltplong"
  | newSLTPShort => lit "newsltpshort"
  | newSLTPBuyStop => lit "newsltpbuystop"
  | newSLTPBuyLimit => lit "newsltpbuylimit"
  | newSLTPSellStop => lit "newsltpsellstop"
  | newSLTPSellLimit => lit "newsltpselllimit"
  | closeLongOpenLong => lit "closelongopenlong"
  | closeLongOpenShort => lit "closelongopenshort"
  | closeShortOpenLong => lit "closeshortopenlong"
  | closeShortOpenShort => lit "closeshortopenshort"
  | closeLongShortOpenLong => lit "closelongshortopenlong"
  | closeLongShortOpenShort => lit "closelongshortopenshort"
  | cancelLongBuyStop => lit "cancellongbuystop"
  | cancelLongBuyLimit => lit "cancellongbuylimit"
  | cancelShortSellStop => lit "cancelshortsellstop"
  | cancelShortSellLimit => lit "cancelshortselllimit"
  | eaOff => lit "eaoff"
  | eaOn => lit "eaon"
  | closeAllEAOff => lit "closealleaoff"
  | invalid => lit "invalid"

def opensOrder : Command → Bool
  | buy | sell | buyStop | buyLimit | sellStop | sellLimit
  | closeLongOpenLong | closeLongOpenShort | closeShortOpenLong | closeShortOpenShort
  | closeLongShortOpenLong | closeLongShortOpenShort
  | cancelLongBuyStop | cancelLongBuyLimit | cancelShortSellStop | cancelShortSellLimit => true
  | _ => false

def isPendingOpen : Command → Bool
  | buyStop | buyLimit | sellStop | sellLimit
  | cancelLongBuyStop | cancelLongBuyLimit | cancelShortSellStop | cancelShortSellLimit => true
  | _ => false

/-- The command amends the stop loss or take profit of what is open. -/
def isModify : Command → Bool
  | newSLTPLong | newSLTPShort | newSLTPBuyStop
  | newSLTPBuyLimit | newSLTPSellStop | newSLTPSellLimit => true
  | _ => false

end Command

/-! ### Parameters -/

inductive ParamKind
  | unknown
  | risk
  | volLots
  | volDollar
  | volPctBalanceLoss
  | volPctEquityLoss
  | volPctBalanceMargin
  | sl
  | slPips
  | slPrice
  | slPct
  | tp
  | tpPips
  | tpPrice
  | tpPct
  | pending
  | entryPrice
  | entryPips
  | entryPct
  | trailTrigger
  | trailDistance
  | trailStep
  | atrTimeframe
  | atrPeriod
  | atrMultiplier
  | atrShift
  | atrTrigger
  | beTrigger
  | beOffset
  | secret
  | comment
  | spread
  | accountFilter
  deriving DecidableEq, Repr

namespace ParamKind

def string : ParamKind → Bytes
  | risk => lit "risk"
  | volLots => lit "vol_lots"
  | volDollar => lit "vol_dollar"
  | volPctBalanceLoss => lit "vol_pct_bal_loss"
  | volPctEquityLoss => lit "vol_pct_eq_loss"
  | volPctBalanceMargin => lit "vol_pct_bal_margin"
  | sl => lit "sl"
  | slPips => lit "sl_pips"
  | slPrice => lit "sl_price"
  | slPct => lit "sl_pct"
  | tp => lit "tp"
  | tpPips => lit "tp_pips"
  | tpPrice => lit "tp_price"
  | tpPct => lit "tp_pct"
  | pending => lit "pending"
  | entryPrice => lit "entry_price"
  | entryPips => lit "entry_pips"
  | entryPct => lit "entry_pct"
  | trailTrigger => lit "trailtrig"
  | trailDistance => lit "traildist"
  | trailStep => lit "trailstep"
  | atrTimeframe => lit "atrtimeframe"
  | atrPeriod => lit "atrperiod"
  | atrMultiplier => lit "atrmultiplier"
  | atrShift => lit "atrshift"
  | atrTrigger => lit "atrtrigger"
  | beTrigger => lit "betrigger"
  | beOffset => lit "beoffset"
  | secret => lit "secret"
  | comment => lit "comment"
  | spread => lit "spread"
  | accountFilter => lit "accfilter"
  | unknown => lit "unknown"

/-- The mutually exclusive ways to state a base position size. `risk` is not one of them: it
resizes the requested volume and may accompany it. -/
def isVolume : ParamKind → Bool
  | volLots | volDollar | volPctBalanceLoss | volPctEquityLoss | volPctBalanceMargin => true
  | _ => false

def isSL : ParamKind → Bool
  | sl | slPips | slPrice | slPct => true
  | _ => false

def isTP : ParamKind → Bool
  | tp | tpPips | tpPrice | tpPct => true
  | _ => false

def isEntry : ParamKind → Bool
  | pending | entryPrice | entryPips | entryPct => true
  | _ => false

end ParamKind

/-- One parameter: its kind, and key and value as they were written. -/
structure Param where
  kind : ParamKind
  key : Bytes
  value : Bytes
  deriving DecidableEq, Repr

/-! ### Signals -/

/-- A parsed alert. `params` are the filled slots of the source's array, `bounded` its size. -/
structure Signal where
  licenseID : Bytes := []
  command : Command := .invalid
  rawCommand : Bytes := []
  symbol : Bytes := []
  params : List Param := []
  bounded : params.length ≤ maxParams := by first | exact Nat.zero_le _ | decide
  deriving DecidableEq, Repr

namespace Signal

/-- A signal with one more parameter in the next free slot. The parser never writes to a full
array. -/
def addParam (signal : Signal) (param : Param) : Signal :=
  if free : signal.params.length < maxParams then
    { signal with
      params := signal.params ++ [param]
      bounded := by
        rw [List.length_append, List.length_singleton]
        omega }
  else signal

def param (signal : Signal) (kind : ParamKind) : Option Param :=
  signal.params.find? fun param => param.kind = kind

def hasParam (signal : Signal) (kind : ParamKind) : Bool :=
  (signal.param kind).isSome

end Signal

/-! ### Errors -/

inductive ErrorCode
  | emptyInput
  | missingField
  | unknownCommand
  | malformedParam
  | unknownParam
  | tooManyParams
  | duplicateVolume
  | duplicateSL
  | duplicateTP
  | duplicateEntry
  | missingVolume
  | pendingRequiresEntry
  | riskVolumeRequiresSL
  | closeAllRequiresChartSymbol
  | managementSymbol
  | commentTooLong
  | atrRequiresTimeframePeriod
  | modifyRequiresSLTP
  | partialVolumeRequiresRisk
  deriving DecidableEq, Repr

/-- What the parser reports: the rule that failed and the field it failed on. -/
structure ParseError where
  code : ErrorCode
  field : Bytes := []
  deriving DecidableEq, Repr

def ParseError.error (error : ParseError) : Bytes :=
  match error.code with
  | .emptyInput => lit "empty alert"
  | .missingField => lit "missing required field"
  | .unknownCommand => lit "unknown command"
  | .malformedParam => lit "malformed parameter"
  | .unknownParam => lit "unknown parameter"
  | .tooManyParams => lit "too many parameters"
  | .duplicateVolume => lit "more than one volume parameter"
  | .duplicateSL => lit "more than one stop-loss parameter"
  | .duplicateTP => lit "more than one take-profit parameter"
  | .duplicateEntry => lit "more than one entry parameter"
  | .missingVolume => lit "missing volume parameter"
  | .pendingRequiresEntry => lit "pending command requires entry parameter"
  | .riskVolumeRequiresSL => lit "risk-by-loss volume requires stop-loss"
  | .closeAllRequiresChartSymbol => lit "closeall command requires chart symbol"
  | .managementSymbol => lit "management command requires matching special symbol"
  | .commentTooLong => lit "comment exceeds 20 characters"
  | .atrRequiresTimeframePeriod => lit "ATR trailing requires atrtimeframe and atrperiod"
  | .modifyRequiresSLTP => lit "modify command requires SL or TP parameter"
  | .partialVolumeRequiresRisk => lit "partial volume close requires risk parameter"

end ExecRelay.Parser
