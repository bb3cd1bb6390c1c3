/-
**Executing a signal in the terminal** (`ea/mt5/ExecRelay.mq5`).

`handleMessage` takes the text that came over the socket apart and `executeSignal` carries the signal
out: it maps the symbol, reads the numbers of the parameters, derives the levels that are given in
pips, and sends an order, closes positions, deletes pending orders or amends levels. The terminal and
the broker are the operations `Op`; the numbers are doubles (`Lib.Doubles`).

A text is its bytes, as for the readers of the message. The result that the trade class keeps of its
last request (`ResultOrder`, `ResultRetcode`) is the answer to the request.
-/

import ExecRelay.EA.Json
import ExecRelay.Lib.Double
import ExecRelay.Lib.Program

namespace ExecRelay.EA

open Lib

/-! ### The terminal -/

/-- The inputs of the EA that its execution depends on. -/
structure Settings where
  magicNumber : Int := 20240101
  symbolMap : Bytes := []
  symbolSuffix : Bytes := []
  pendingFallbackMarket : Bool := true

inductive OrderType
  | buy | sell | buyStop | sellStop | buyLimit | sellLimit
deriving DecidableEq, Repr

/-- What the trade class sends to the broker. A market order has the price zero, and every order is
good till cancelled. -/
structure Order (Number : Type) where
  type : OrderType
  symbol : Bytes
  volume : Number
  price : Number
  sl : Number
  tp : Number
  comment : Bytes

/-- What is known of a request behind it. -/
structure TradeResult where
  done : Bool
  order : Nat
  retcode : Nat
  description : Bytes

inductive PositionType
  | buy | sell
deriving DecidableEq, Repr

structure Position (Number : Type) where
  ticket : Nat
  symbol : Bytes
  magic : Int
  type : PositionType
  comment : Bytes
  sl : Number
  tp : Number

structure PendingOrder where
  ticket : Nat
  symbol : Bytes
  magic : Int

inductive PriceProperty
  | ask | bid | point
deriving DecidableEq, Repr

/-- The calls of the EA. `position` and `order` select an entry of the list by its index; without a
ticket there is none. -/
inductive Op (Number : Type)
  | symbolSelect (sym : Bytes)
  | symbolInfoDouble (sym : Bytes) (property : PriceProperty)
  | symbolDigits (sym : Bytes)
  | send (order : Order Number)
  | positionsTotal
  | position (index : Nat)
  | positionClose (ticket : Nat)
  | positionModify (ticket : Nat) (sl tp : Number)
  | ordersTotal
  | order (index : Nat)
  | orderDelete (ticket : Nat)
  | wsSendText (text : Bytes)
  | trackPending (ticket : Nat) (traceID : Bytes)

@[reducible]
def Answer {Number : Type} : Op Number → Type
  | .symbolSelect _ => Bool
  | .symbolInfoDouble _ _ => Number
  | .symbolDigits _ => Int
  | .send _ => TradeResult
  | .positionsTotal => Nat
  | .position _ => Option (Position Number)
  | .positionClose _ => Bool
  | .positionModify _ _ _ => Bool
  | .ordersTotal => Nat
  | .order _ => Option PendingOrder
  | .orderDelete _ => Bool
  | .wsSendText _ => Bool
  | .trackPending _ _ => Unit

abbrev Terminal (Number : Type) := Program (Op Number) Answer Empty

abbrev invoke {Number : Type} (op : Op Number) : Terminal Number (Answer op) :=
  Program.perform op

/-! ### Messages to the bridge -/

def jStr (key val : Bytes) : Bytes :=
  quote :: key ++ quote :: 58 :: quote :: val ++ [quote]

/-- `IntegerToString`. -/
def decimal (value : Nat) : Bytes :=
  lit (toString value)

variable {Number : Type}

def sendFill (traceID status orderID errCode errMsg : Bytes) : Terminal Number Unit := do
  let msg := lit "\x7b" ++ jStr (lit "type") (lit "fill") ++ lit "," ++
    jStr (lit "trace_id") traceID ++ lit "," ++ jStr (lit "status") status ++ lit "," ++
    jStr (lit "broker_order_id") orderID ++ lit "," ++ jStr (lit "error_code") errCode ++ lit "," ++
    jStr (lit "error_message") errMsg ++ lit "\x7d"
  let _ ← invoke (.wsSendText msg)

/-! ### The symbol -/

/-- `StringTrimLeft` and `StringTrimRight`. -/
def stringTrim (text : Bytes) : Bytes :=
  let isSpace (byte : UInt8) : Bool := byte == 32 || byte == 9 || byte == 10 || byte == 13
  ((text.dropWhile isSpace).reverse.dropWhile isSpace).reverse

/-- The other side of a pair `FROM=TO`, if the pair is for the symbol. -/
def pairFor (sym pair : Bytes) : Option Bytes :=
  let pair := stringTrim pair
  match stringFind pair (lit "=") 0 with
  | none => none
  | some eq => if 0 < eq ∧ pair.take eq = sym then some (pair.drop (eq + 1)) else none

def mapSymbol (settings : Settings) (sym : Bytes) : Bytes :=
  match (settings.symbolMap.splitOn 59).findSome? (pairFor sym) with
  | some mapped => mapped
  | none => if settings.symbolSuffix.isSuffixOf sym then sym else sym ++ settings.symbolSuffix

/-! ### The numbers of a signal -/

variable (doubles : Doubles Number)

def pDouble (obj : Bytes) (key : String) : Number :=
  let value := jGetStr obj (lit key)
  if value = [] then doubles.ofNat 0 else doubles.stringToDouble value

/-- What `executeSignal` reads from the parameters. -/
structure Request (Number : Type) where
  vol : Number
  sl : Number
  tp : Number
  slPips : Number
  tpPips : Number
  entry : Number
  cmt : Bytes

/-- The entry of a pending order is under `entry` or, if that is zero, under `entry_price`. -/
def readEntry (params : Bytes) : Number :=
  let entry := pDouble doubles params "entry"
  if doubles.eq entry (doubles.ofNat 0) then pDouble doubles params "entry_price" else entry

def readComment (params : Bytes) : Bytes :=
  let cmt := jGetStr params (lit "comment")
  let cmt := if cmt = [] then lit "ExecRelay" else cmt
  cmt.take 27

def readRequest (params : Bytes) : Request Number where
  vol := pDouble doubles params "vol_lots"
  sl := pDouble doubles params "sl"
  tp := pDouble doubles params "tp"
  slPips := pDouble doubles params "sl_pips"
  tpPips := pDouble doubles params "tp_pips"
  entry := readEntry doubles params
  cmt := readComment params

def pipSize (sym : Bytes) : Terminal Number Number := do
  let digits ← invoke (.symbolDigits sym)
  let point ← invoke (.symbolInfoDouble sym .point)
  return if digits = 3 ∨ digits = 5 then doubles.mul (doubles.ofNat 10) point else point

/-- A level, which is derived from a distance in pips if it is not given itself. -/
def levelFrom (level pips : Number) (derived : Number) : Number :=
  if doubles.eq level (doubles.ofNat 0) && doubles.lt (doubles.ofNat 0) pips then derived else level

def deriveLevels (isBuy : Bool) (ask bid pip : Number) (request : Request Number) :
    Request Number :=
  { request with
    sl := levelFrom doubles request.sl request.slPips
      (if isBuy then doubles.sub ask (doubles.mul request.slPips pip)
        else doubles.add bid (doubles.mul request.slPips pip))
    tp := levelFrom doubles request.tp request.tpPips
      (if isBuy then doubles.add ask (doubles.mul request.tpPips pip)
        else doubles.sub bid (doubles.mul request.tpPips pip)) }

/-! ### Orders -/

/-- `g_trade.Buy` and `g_trade.Sell` without a price. -/
def marketOrder (isBuy : Bool) (sym : Bytes) (request : Request Number) (comment : Bytes) :
    Order Number where
  type := if isBuy then .buy else .sell
  symbol := sym
  volume := request.vol
  price := doubles.ofNat 0
  sl := request.sl
  tp := request.tp
  comment := comment

def pendingOrder (type : OrderType) (sym : Bytes) (request : Request Number) : Order Number where
  type := type
  symbol := sym
  volume := request.vol
  price := request.entry
  sl := request.sl
  tp := request.tp
  comment := request.cmt

def openMarket (traceID : Bytes) (isBuy : Bool) (sym : Bytes) (request : Request Number) :
    Terminal Number Unit := do
  if doubles.le request.vol (doubles.ofNat 0) then
    sendFill traceID (lit "rejected") [] (lit "VOL_MISSING") (lit "vol_lots required")
  else
    let result ← invoke (.send (marketOrder doubles isBuy sym request request.cmt))
    if result.done then sendFill traceID (lit "filled") (decimal result.order) [] []
    else sendFill traceID (lit "error") [] (decimal result.retcode) result.description

/-- `TRADE_RETCODE_INVALID_PRICE`. -/
def invalidPrice : Nat := 10015

/-- A pending order on the wrong side of the market, executed at market. -/
def fallbackMarket (traceID : Bytes) (isBuy : Bool) (sym : Bytes) (request : Request Number)
    (pendRet : Nat) : Terminal Number Unit := do
  let result ← invoke (.send (marketOrder doubles isBuy sym request (request.cmt ++ lit "_M")))
  if result.done then
    sendFill traceID (lit "filled") (decimal result.order) []
      (lit "pending wrong-side (retcode " ++ decimal pendRet ++ lit "); executed at market (_M)")
  else
    sendFill traceID (lit "error") [] (decimal result.retcode)
      (lit "pending retcode " ++ decimal pendRet ++ lit "; market fallback failed: " ++
        result.description)

def openPending (settings : Settings) (traceID : Bytes) (isBuy : Bool) (type : OrderType)
    (sym : Bytes) (request : Request Number) : Terminal Number Unit := do
  if doubles.le request.vol (doubles.ofNat 0) || doubles.le request.entry (doubles.ofNat 0) then
    sendFill traceID (lit "rejected") [] (lit "PARAM_MISSING") (lit "vol_lots and entry required")
  else
    let result ← invoke (.send (pendingOrder type sym request))
    if result.done then
      sendFill traceID (lit "placed") (decimal result.order) [] []
      invoke (.trackPending result.order traceID)
    else if settings.pendingFallbackMarket && result.retcode == invalidPrice then
      fallbackMarket doubles traceID isBuy sym request result.retcode
    else sendFill traceID (lit "error") [] (decimal result.retcode) result.description

/-! ### Positions and pending orders -/

/-- How many requests of a loop went through and how many did not. -/
structure Tally where
  changed : Nat := 0
  errors : Nat := 0

def Tally.add (tally : Tally) (ok : Bool) : Tally :=
  if ok then { tally with changed := tally.changed + 1 } else { tally with errors := tally.errors + 1 }

def Tally.status (tally : Tally) : Bytes :=
  if tally.errors = 0 then lit "filled" else lit "error"

/-- `for(int i = total - 1; i >= 0; i--)`. -/
def countDown (body : Nat → Tally → Terminal Number Tally) : Nat → Tally → Terminal Number Tally
  | 0, tally => pure tally
  | index + 1, tally => do
      let tally ← body index tally
      countDown body index tally

def isOwn (settings : Settings) (sym : Bytes) (position : Position Number) : Bool :=
  position.symbol = sym && position.magic == settings.magicNumber

def modifyOne (settings : Settings) (sym : Bytes) (want : PositionType) (newSL newTP : Number)
    (scope : Bytes) (index : Nat) (tally : Tally) : Terminal Number Tally := do
  match ← invoke (.position index) with
  | none => pure tally
  | some position =>
    if isOwn settings sym position && position.type = want && scope.isPrefixOf position.comment then
      -- a level of zero would remove the level of the position
      let useSL := if doubles.lt (doubles.ofNat 0) newSL then newSL else position.sl
      let useTP := if doubles.lt (doubles.ofNat 0) newTP then newTP else position.tp
      let ok ← invoke (.positionModify position.ticket useSL useTP)
      return tally.add ok
    else pure tally

def modifySLTP (settings : Settings) (traceID sym : Bytes) (want : PositionType)
    (newSL newTP : Number) (scope : Bytes) : Terminal Number Unit := do
  let total ← invoke .positionsTotal
  let tally ← countDown (modifyOne doubles settings sym want newSL newTP scope) total {}
  sendFill traceID tally.status [] []
    (lit "modified=" ++ decimal tally.changed ++ lit " errors=" ++ decimal tally.errors)

/-- The side that a closing command is for; `closeall` is for both. -/
def closesType (cmd : Bytes) (type : PositionType) : Bool :=
  !(cmd = lit "closebuy" && type ≠ .buy) && !(cmd = lit "closesell" && type ≠ .sell)

def closeOne (settings : Settings) (sym cmd : Bytes) (index : Nat) (tally : Tally) :
    Terminal Number Tally := do
  match ← invoke (.position index) with
  | none => pure tally
  | some position =>
    if isOwn settings sym position && closesType cmd position.type then
      let ok ← invoke (.positionClose position.ticket)
      return tally.add ok
    else pure tally

def closePositions (settings : Settings) (traceID sym cmd : Bytes) : Terminal Number Unit := do
  let total ← invoke .positionsTotal
  let tally ← countDown (closeOne settings sym cmd) total {}
  sendFill traceID tally.status [] []
    (lit "closed=" ++ decimal tally.changed ++ lit " errors=" ++ decimal tally.errors)

def cancelOne (settings : Settings) (sym : Bytes) (index : Nat) (tally : Tally) :
    Terminal Number Tally := do
  match ← invoke (.order index) with
  | none => pure tally
  | some order =>
    if order.symbol = sym && order.magic == settings.magicNumber then
      let ok ← invoke (.orderDelete order.ticket)
      return tally.add ok
    else pure tally

def cancelPending (settings : Settings) (traceID sym : Bytes) : Terminal Number Unit := do
  let total ← invoke .ordersTotal
  let tally ← countDown (cancelOne settings sym) total {}
  sendFill traceID tally.status [] [] (lit "cancelled=" ++ decimal tally.changed)

/-! ### The signal -/

def isBuyCommand (cmd : Bytes) : Bool :=
  cmd = lit "buy" || cmd = lit "buystop" || cmd = lit "buylimit"

def pendingType (cmd : Bytes) : Option OrderType :=
  if cmd = lit "buystop" then some .buyStop
  else if cmd = lit "sellstop" then some .sellStop
  else if cmd = lit "buylimit" then some .buyLimit
  else if cmd = lit "selllimit" then some .sellLimit
  else none

/-- The commands that open nothing. The scope of an amendment is the comment as it was sent, without
the default. -/
def manage (settings : Settings) (traceID cmd sym params : Bytes) (request : Request Number) :
    Terminal Number Unit :=
  if cmd = lit "closebuy" ∨ cmd = lit "closesell" ∨ cmd = lit "closeall" then
    closePositions settings traceID sym cmd
  else if cmd = lit "cancel" then cancelPending settings traceID sym
  else if cmd = lit "newsltplong" ∨ cmd = lit "newsltpshort" then
    if doubles.eq request.sl (doubles.ofNat 0) && doubles.eq request.tp (doubles.ofNat 0) then
      sendFill traceID (lit "rejected") [] (lit "PARAM_MISSING") (lit "newsltp requires sl and/or tp")
    else
      modifySLTP doubles settings traceID sym (if cmd = lit "newsltplong" then .buy else .sell)
        request.sl request.tp (jGetStr params (lit "comment"))
  else sendFill traceID (lit "rejected") [] (lit "UNKNOWN_CMD") (lit "unhandled command: " ++ cmd)

def runCommand (settings : Settings) (traceID cmd sym params : Bytes) (request : Request Number) :
    Terminal Number Unit :=
  if cmd = lit "buy" ∨ cmd = lit "sell" then
    openMarket doubles traceID (cmd = lit "buy") sym request
  else
    match pendingType cmd with
    | some type => openPending doubles settings traceID (isBuyCommand cmd) type sym request
    | none => manage doubles settings traceID cmd sym params request

def executeSignal (settings : Settings) (traceID cmd rawSym params : Bytes) :
    Terminal Number Unit := do
  let sym := mapSymbol settings rawSym
  let selected ← invoke (.symbolSelect sym)
  if selected then
    let ask ← invoke (.symbolInfoDouble sym .ask)
    let bid ← invoke (.symbolInfoDouble sym .bid)
    let pip ← pipSize doubles sym
    let request := deriveLevels doubles (isBuyCommand cmd) ask bid pip (readRequest doubles params)
    runCommand doubles settings traceID cmd sym params request
  else
    sendFill traceID (lit "rejected") [] (lit "SYMBOL_UNKNOWN")
      (lit "symbol not found on this broker: " ++ sym ++ lit " (from " ++ rawSym ++
        lit "; check InpSymbolMap/InpSymbolSuffix)")

/-- A message from the bridge. The result is whether the EA is registered. -/
def handleMessage (settings : Settings) (registered : Bool) (msg : Bytes) : Terminal Number Bool := do
  let mtype := jGetStr msg (lit "type")
  if mtype = lit "registered" then return true
  else if !registered then return false
  else if mtype = lit "signal" then
    executeSignal doubles settings (jGetStr msg (lit "trace_id")) (jGetStr msg (lit "command"))
      (jGetStr msg (lit "symbol")) (jGetObj msg (lit "params"))
    return true
  else if mtype = lit "ping" then
    let _ ← invoke (.wsSendText (lit "\x7b\"type\":\"pong\"\x7d"))
    return true
  else return true

end ExecRelay.EA
