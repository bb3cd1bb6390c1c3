/-
**The shim that executes signals through the terminal's Python package.**

`execute` carries out one signal: it finds the broker's name for the symbol, sizes an order that opens
exposure to the budget of the signal (`sizedVolume`), and sends what the command asks for. The terminal
is reached by the calls of `Op`; what it answers stays open. Numbers are exact: `settings.float` reads a
rational where Python reads a double, and `round8` rounds a tie to the even digit as `round` does.

The functions of the interpreter that are used on texts (`float`, `str.lower`, `str.strip` with
`str.upper`, the format `g`) are fields of `Settings`, beside what the shim reads from its environment.
What is printed to the log is left out.
-/

import Mathlib.Algebra.Order.Floor.Ring
import Mathlib.Data.Rat.Floor
import ExecRelay.Lib.Program

namespace ExecRelay.Shim

open Lib
open Lib.Program (perform)

abbrev Text := List Char

def text (literal : String) : Text := literal.toList

/-! ### The terminal -/

inductive Side
  | buy
  | sell
deriving DecidableEq, Repr

def Side.opposite : Side → Side
  | .buy => .sell
  | .sell => .buy

inductive OrderType
  | market (side : Side)
  | limit (side : Side)
  | stop (side : Side)
deriving DecidableEq, Repr

inductive Action
  | deal
  | pending
deriving DecidableEq, Repr

inductive Filling
  | ioc
  | fok
  | rest
deriving DecidableEq, Repr

/-- A request of an order; `position` is set where it closes one. -/
structure Order where
  action : Action
  symbol : Text
  volume : ℚ
  type : OrderType
  position : Option Nat := none
  price : ℚ
  deviation : Option Nat
  magic : Int
  comment : Text
  filling : Filling
  sl : Option ℚ := none
  tp : Option ℚ := none
deriving DecidableEq

/-- A request of new levels for a position. -/
structure Levels where
  symbol : Text
  position : Nat
  sl : ℚ
  tp : ℚ
  magic : Int
deriving DecidableEq

inductive Request
  | order (order : Order)
  | levels (levels : Levels)
deriving DecidableEq

structure SymbolInfo where
  tradeTickValue : ℚ
  tradeTickSize : ℚ
  volumeStep : ℚ
  volumeMin : ℚ
  volumeMax : ℚ

structure Tick where
  bid : ℚ
  ask : ℚ

def Tick.price (tick : Tick) : Side → ℚ
  | .buy => tick.ask
  | .sell => tick.bid

structure Position where
  ticket : Nat
  magic : Int
  type : Side
  volume : ℚ
  sl : ℚ
  tp : ℚ
  comment : Text
deriving DecidableEq

structure Reply where
  retcode : Nat
  order : Nat
  comment : Text

def retcodeDone : Nat := 10009
def retcodeInvalidPrice : Nat := 10015
def retcodeInvalidFill : Nat := 10030

inductive Op
  | symbolMap
  | symbolInfo (symbol : Text)
  | symbolSelect (symbol : Text)
  | symbolInfoTick (symbol : Text)
  | positionsGet (symbol : Text)
  | orderSend (request : Request)
  | lastError

abbrev Answer : Op → Type
  | .symbolMap => List (Text × Text)
  | .symbolInfo _ => Option SymbolInfo
  | .symbolSelect _ => Unit
  | .symbolInfoTick _ => Option Tick
  | .positionsGet _ => Option (List Position)
  | .orderSend _ => Option Reply
  | .lastError => Text

/-- What escapes from `execute`: an attribute of `None` is read. -/
inductive Raised
  | attributeError

abbrev Script (Result : Type) := Program Op Answer Raised Result

abbrev getSymbolMap : Script (List (Text × Text)) := perform Op.symbolMap
abbrev symbolInfo (symbol : Text) : Script (Option SymbolInfo) := perform (Op.symbolInfo symbol)
abbrev symbolSelect (symbol : Text) : Script Unit := perform (Op.symbolSelect symbol)
abbrev symbolInfoTick (symbol : Text) : Script (Option Tick) := perform (Op.symbolInfoTick symbol)
abbrev positionsGet (symbol : Text) : Script (Option (List Position)) := perform (Op.positionsGet symbol)
abbrev orderSend (request : Request) : Script (Option Reply) := perform (Op.orderSend request)
abbrev lastError : Script Text := perform Op.lastError

/-! ### Settings and parameters -/

structure Settings where
  magic : Int
  pendingFallback : Bool
  riskUsd : ℚ
  float : Text → Option ℚ
  lower : Text → Text
  stripUpper : Text → Text
  general : ℚ → Text

def deviation : Nat := 50

abbrev Params := List (Text × Text)

variable (settings : Settings)

def fnum (params : Params) (keys : List String) (default : ℚ) : ℚ :=
  let read (key : String) : Option ℚ :=
    match params.lookup (text key) with
    | none => none
    | some [] => none
    | some value => settings.float value
  (keys.findSome? read).getD default

inductive Command
  | buy
  | sell
  | buylimit
  | selllimit
  | buystop
  | sellstop
  | closelong
  | closeshort
  | closelongopenshort
  | closeshortopenlong
  | newsltplong
  | newsltpshort
deriving DecidableEq, Repr

def commands : List (String × Command) :=
  [("buy", .buy), ("sell", .sell), ("buylimit", .buylimit), ("selllimit", .selllimit),
    ("buystop", .buystop), ("sellstop", .sellstop), ("closelong", .closelong),
    ("closeshort", .closeshort), ("closelongopenshort", .closelongopenshort),
    ("closeshortopenlong", .closeshortopenlong), ("newsltplong", .newsltplong),
    ("newsltpshort", .newsltpshort)]

def readCommand (cmd : Text) : Option Command :=
  (commands.find? fun entry => text entry.1 = cmd).map (·.2)

/-- `_PENDING_TYPES`: the pending order of a command, and the side of the market order in its place. -/
def pendingTypes : Command → Option (OrderType × Side)
  | .buylimit => some (.limit .buy, .buy)
  | .selllimit => some (.limit .sell, .sell)
  | .buystop => some (.stop .buy, .buy)
  | .sellstop => some (.stop .sell, .sell)
  | _ => none

/-- `_opens`: the side of the market order of a command. -/
def opensAtMarket : Command → Option Side
  | .buy => some .buy
  | .sell => some .sell
  | .closelongopenshort => some .sell
  | .closeshortopenlong => some .buy
  | _ => none

def Command.opens (cmd : Command) : Bool :=
  (opensAtMarket cmd).isSome || (pendingTypes cmd).isSome

/-! ### Sizing -/

def roundHalfEven (number : ℚ) : ℤ :=
  let below := ⌊number⌋
  let part := number - below
  if part < 1 / 2 then below
  else if 1 / 2 < part then below + 1
  else if below % 2 = 0 then below else below + 1

/-- `round(number, 8)`. -/
def round8 (number : ℚ) : ℚ :=
  roundHalfEven (number * 10 ^ 8) / 10 ^ 8

def SymbolInfo.loss (info : SymbolInfo) (price sl : ℚ) : ℚ :=
  |price - sl| / info.tradeTickSize * info.tradeTickValue

/-- `volume_step or 0.01`. -/
def SymbolInfo.step (info : SymbolInfo) : ℚ :=
  if info.volumeStep = 0 then 1 / 100 else info.volumeStep

def SymbolInfo.lots (info : SymbolInfo) (refPrice sl riskUsd : ℚ) : ℚ :=
  round8 (⌊riskUsd / info.loss refPrice sl / info.step⌋ * info.step)

def sizedVolume (symbol : Text) (refPrice sl requested riskUsd : ℚ) : Script ℚ :=
  if riskUsd ≤ 0 ∨ sl ≤ 0 ∨ refPrice ≤ 0 then
    pure requested
  else do
    match ← symbolInfo symbol with
    | none => pure requested
    | some info =>
      if info.tradeTickValue ≤ 0 ∨ info.tradeTickSize ≤ 0 then
        pure requested
      else if |refPrice - sl| ≤ 0 then
        pure requested
      else
        let vol := info.lots refPrice sl riskUsd
        if vol < info.volumeMin then
          pure 0
        else
          pure (min vol info.volumeMax)

/-! ### Orders -/

/-- `(comment or "execrelay-shim")[:26]`. -/
def orderComment (comment : Text) : Text :=
  (if comment = [] then text "execrelay-shim" else comment).take 26

def level (value : ℚ) : Option ℚ :=
  if 0 < value then some value else none

def noMarketData (symbol : Text) : Text :=
  text "no market data for " ++ symbol ++ text " (symbol not found or not subscribed)"

def refusal (reply : Reply) : Text :=
  text "retcode=" ++ (toString reply.retcode).toList ++ text " " ++ reply.comment

def marketOrder (side : Side) (symbol : Text) (volume : ℚ) (comment : Text) (sl tp : ℚ) (tick : Tick)
    (filling : Filling) : Order where
  action := .deal
  symbol := symbol
  volume := volume
  type := .market side
  price := tick.price side
  deviation := some deviation
  magic := settings.magic
  comment := orderComment comment
  filling := filling
  sl := level sl
  tp := level tp

/-- What becomes of the last reply to a market order: of the second one, `None` is not expected. -/
def marketResult : Option Reply → Script (Except Text Reply)
  | none => .fail .attributeError
  | some reply =>
    if reply.retcode ≠ retcodeDone then
      pure (.error (refusal reply))
    else
      pure (.ok reply)

def sendMarket (side : Side) (symbol : Text) (volume : ℚ) (comment : Text) (sl tp : ℚ) :
    Script (Except Text Reply) := do
  match ← symbolInfoTick symbol with
  | none => pure (.error (noMarketData symbol))
  | some tick =>
    let req := marketOrder settings side symbol volume comment sl tp tick
    match ← orderSend (.order (req .ioc)) with
    | none =>
      let reason ← lastError
      pure (.error (text "order_send returned None: " ++ reason))
    | some first =>
      if first.retcode = retcodeInvalidFill then do
        marketResult (← orderSend (.order (req .fok)))
      else
        marketResult (some first)

def pendingOrder (type : OrderType) (symbol : Text) (volume entry sl tp : ℚ) (comment : Text) : Order where
  action := .pending
  symbol := symbol
  volume := volume
  type := type
  price := entry
  deviation := none
  magic := settings.magic
  comment := orderComment comment
  filling := .rest
  sl := level sl
  tp := level tp

/-- The error of a refused order comes with the code of the broker, if there is one. -/
def sendPending (type : OrderType) (symbol : Text) (volume entry sl tp : ℚ) (comment : Text) :
    Script (Except (Text × Option Nat) Reply) := do
  let req := pendingOrder settings type symbol volume entry sl tp comment
  match ← orderSend (.order req) with
  | none =>
    let reason ← lastError
    pure (.error (text "order_send returned None: " ++ reason, none))
  | some reply =>
    if reply.retcode ≠ retcodeDone then
      pure (.error (refusal reply, some reply.retcode))
    else
      pure (.ok reply)

def closingOrder (symbol : Text) (position : Position) (tick : Tick) (filling : Filling) : Order where
  action := .deal
  symbol := symbol
  volume := position.volume
  type := .market position.type.opposite
  position := some position.ticket
  price := tick.price position.type.opposite
  deviation := some deviation
  magic := settings.magic
  comment := text "execrelay-close"
  filling := filling

def owns (side : Side) (position : Position) : Bool :=
  position.magic = settings.magic && position.type = side

def closeFailed (position : Position) (reason : Text) : Text :=
  text "close " ++ (toString position.ticket).toList ++ text " failed: " ++ reason

def closeResult (position : Position) : Option Reply → Script (Except Text Text)
  | none => do
      let reason ← lastError
      pure (.error (closeFailed position reason))
  | some reply =>
    if reply.retcode ≠ retcodeDone then
      pure (.error (closeFailed position (toString reply.retcode).toList))
    else
      pure (.ok (toString reply.order).toList)

/-- The body of the loop of `close_positions`: the order that closed the position, or what failed. -/
def closeOne (symbol : Text) (position : Position) : Script (Except Text Text) := do
  match ← symbolInfoTick symbol with
  | none => pure (.error (noMarketData symbol))
  | some tick =>
    let req := closingOrder settings symbol position tick
    let first ← orderSend (.order (req .ioc))
    if first.any (·.retcode = retcodeInvalidFill) then do
      closeResult position (← orderSend (.order (req .fok)))
    else
      closeResult position first

def closeEach (symbol : Text) (side : Side) : List Position → List Text → Script (List Text × Option Text)
  | [], closed => pure (closed, none)
  | position :: others, closed =>
    if owns settings side position then do
      match ← closeOne settings symbol position with
      | .error err => pure (closed, some err)
      | .ok order => closeEach symbol side others (closed ++ [order])
    else
      closeEach symbol side others closed

def closePositions (symbol : Text) (side : Side) : Script (List Text × Option Text) := do
  let positions ← positionsGet symbol
  closeEach settings symbol side (positions.getD []) []

/-- The loop of `modify_positions_sltp`. -/
def modifyEach (symbol : Text) (side : Side) (tp sl : ℚ) (commentScope : Text) :
    List Position → List Text → Script (List Text × Option Text)
  | [], changed => pure (changed, none)
  | position :: others, changed =>
    if owns settings side position && commentScope.isPrefixOf position.comment then do
      let req : Levels :=
        { symbol := symbol
          position := position.ticket
          sl := if 0 < sl then sl else position.sl
          tp := if 0 < tp then tp else position.tp
          magic := settings.magic }
      let failed (reason : Text) : Text :=
        text "modify " ++ (toString position.ticket).toList ++ text " failed: " ++ reason
      match ← orderSend (.levels req) with
      | none =>
        let reason ← lastError
        pure (changed, some (failed reason))
      | some reply =>
        if reply.retcode ≠ retcodeDone then
          pure (changed, some (failed (toString reply.retcode).toList))
        else
          modifyEach symbol side tp sl commentScope others
            (changed ++ [(toString position.ticket).toList])
    else
      modifyEach symbol side tp sl commentScope others changed

def modifyPositionsSltp (symbol : Text) (side : Side) (tp sl : ℚ) (commentScope : Text) :
    Script (List Text × Option Text) := do
  let positions ← positionsGet symbol
  modifyEach settings symbol side tp sl commentScope (positions.getD []) []

/-! ### One signal -/

inductive Status
  | filled
  | placed
  | rejected
deriving DecidableEq, Repr

structure Outcome where
  status : Status
  orderId : Text
  err : Option Text
  volume : ℚ
deriving DecidableEq

/-- `",".join(orders)`. -/
def joined (orders : List Text) : Text :=
  [','].intercalate orders

def orderText (reply : Reply) : Text :=
  (toString reply.order).toList

/-- The name under which the broker knows the symbol, of those tried. -/
def firstKnown (symbol : Text) : List Text → Script Text
  | [] => pure symbol
  | variant :: others => do
      match ← symbolInfo variant with
      | some _ => pure variant
      | none => firstKnown symbol others

def aliased (aliases : List (Text × Text)) (symbol : Text) : Text :=
  match aliases.lookup (settings.stripUpper symbol) with
  | none => symbol
  | some [] => symbol
  | some other => other

/-- The alias, and then the suffixes that brokers put to their symbols. -/
def resolveSymbol (symbol : Text) : Script Text := do
  let aliases ← getSymbolMap
  let symbol := aliased settings aliases symbol
  match ← symbolInfo symbol with
  | some _ => pure symbol
  | none => firstKnown symbol [symbol ++ ['_'], symbol ++ ['.'], symbol ++ ['m']]

def entryOf (params : Params) : ℚ := fnum settings params ["entry", "entry_price"] 0
def riskOf (params : Params) : ℚ := fnum settings params ["risk"] settings.riskUsd
def slOf (params : Params) : ℚ := fnum settings params ["sl"] 0
def tpOf (params : Params) : ℚ := fnum settings params ["tp"] 0
def volumeOf (params : Params) : ℚ := fnum settings params ["volume", "vol_lots"] (1 / 100)

def commentOf (params : Params) : Text :=
  (params.lookup (text "comment")).getD (text "execrelay-shim")

def refPrice (params : Params) (symbol : Text) (cmd : Command) : Script ℚ :=
  match opensAtMarket cmd with
  | none => pure (entryOf settings params)
  | some side => do
      let tick ← symbolInfoTick symbol
      pure ((tick.map (·.price side)).getD 0)

def sizingError (symbol : Text) (riskUsd sl ref : ℚ) : Text :=
  text "risk sizing: minimum lot for " ++ symbol ++ text " already risks more than $" ++
    settings.general riskUsd ++ text " at SL " ++ settings.general sl ++ text " (ref " ++
    settings.general ref ++ text ")"

def sendAtMarket (side : Side) (symbol : Text) (volume : ℚ) (params : Params) : Script Outcome := do
  match ← sendMarket settings side symbol volume (commentOf params) (slOf settings params)
      (tpOf settings params) with
  | .ok reply => pure ⟨.filled, orderText reply, none, volume⟩
  | .error err => pure ⟨.rejected, [], some err, volume⟩

def sendOrFallBack (type : OrderType) (side : Side) (symbol : Text) (volume : ℚ) (params : Params) :
    Script Outcome := do
  let entry := entryOf settings params
  let sl := slOf settings params
  let tp := tpOf settings params
  if entry ≤ 0 then
    pure ⟨.rejected, [], some (text "entry required for pending order"), volume⟩
  else
    match ← sendPending settings type symbol volume entry sl tp (commentOf params) with
    | .ok reply => pure ⟨.placed, orderText reply, none, volume⟩
    | .error (err, retcode) =>
      if settings.pendingFallback && retcode = some retcodeInvalidPrice then do
        -- the wrong side of the market: the order is sent there, with the volume of the entry
        match ← sendMarket settings side symbol volume (commentOf params ++ text "_M") sl tp with
        | .ok reply => pure ⟨.filled, orderText reply, none, volume⟩
        | .error merr =>
          let err := text "pending invalid price; market fallback failed: " ++ merr
          pure ⟨.filled, [], some err, volume⟩
      else
        pure ⟨.filled, [], some err, volume⟩

def closeSide (side : Side) (symbol : Text) (volume : ℚ) : Script Outcome := do
  let (orders, err) ← closePositions settings symbol side
  pure ⟨.filled, joined orders, err, volume⟩

/-- Positions of one side are closed, and one of the other is opened if that went well. -/
def closeThenOpen (closing opening : Side) (symbol : Text) (volume : ℚ) (params : Params) :
    Script Outcome := do
  let (orders, err) ← closePositions settings symbol closing
  match err with
  | some err => pure ⟨.filled, joined orders, some err, volume⟩
  | none =>
    match ← sendMarket settings opening symbol volume (commentOf params) (slOf settings params)
        (tpOf settings params) with
    | .ok reply => pure ⟨.filled, joined (orders ++ [orderText reply]), none, volume⟩
    | .error err => pure ⟨.filled, joined orders, some err, volume⟩

def newSltp (side : Side) (symbol : Text) (volume : ℚ) (params : Params) : Script Outcome := do
  let sl := slOf settings params
  let tp := tpOf settings params
  if tp ≤ 0 ∧ sl ≤ 0 then
    pure ⟨.rejected, [], some (text "newsltp requires sl and/or tp"), volume⟩
  else
    let scope := (params.lookup (text "comment")).getD []
    let (tickets, err) ← modifyPositionsSltp settings symbol side tp sl scope
    match err with
    | some err => pure ⟨.rejected, joined tickets, some err, volume⟩
    | none => pure ⟨.filled, joined tickets, none, volume⟩

def dispatch (cmd : Command) (symbol : Text) (volume : ℚ) (params : Params) : Script Outcome :=
  match cmd with
  | .buy => sendAtMarket settings .buy symbol volume params
  | .sell => sendAtMarket settings .sell symbol volume params
  | .buylimit => sendOrFallBack settings (.limit .buy) .buy symbol volume params
  | .selllimit => sendOrFallBack settings (.limit .sell) .sell symbol volume params
  | .buystop => sendOrFallBack settings (.stop .buy) .buy symbol volume params
  | .sellstop => sendOrFallBack settings (.stop .sell) .sell symbol volume params
  | .closelong => closeSide settings .buy symbol volume
  | .closeshort => closeSide settings .sell symbol volume
  | .closelongopenshort => closeThenOpen settings .buy .sell symbol volume params
  | .closeshortopenlong => closeThenOpen settings .sell .buy symbol volume params
  | .newsltplong => newSltp settings .buy symbol volume params
  | .newsltpshort => newSltp settings .sell symbol volume params

def execute (command symbol : Text) (params : Params) : Script Outcome := do
  let symbol ← resolveSymbol settings symbol
  symbolSelect symbol
  let volume := volumeOf settings params
  match readCommand (settings.lower command) with
  | none => pure ⟨.rejected, [], some (text "unknown command " ++ command), volume⟩
  | some cmd =>
    if cmd.opens then do
      let riskUsd := riskOf settings params
      let sl := slOf settings params
      let ref ← refPrice settings params symbol cmd
      let sized ← sizedVolume symbol ref sl volume riskUsd
      if sized ≤ 0 then
        pure ⟨.rejected, [], some (sizingError settings symbol riskUsd sl ref), sized⟩
      else
        dispatch settings cmd symbol sized params
    else
      dispatch settings cmd symbol volume params

end ExecRelay.Shim
