/-
**The backtest with and without the model** (`apps/backtester/backtest_ml.py`).

`runComparison` replays the signals over the candles with two branches. Both keep their position by the
same rules; the filtered branch opens only what the predictor lets it. A branch refers to its open trade
by its place among the trades, since the source closes the trade in both by the one reference.

Feature building is a parameter, as is the predictor.
-/

import ExecRelay.Predictor.Guidance

namespace ExecRelay.Backtest

open Lib
open Predictor

variable {Stamp Price Value : Type}

/-! ### Data -/

structure Candle (Stamp Price : Type) where
  timestamp : Stamp
  openPrice : Price
  high : Price
  low : Price
  close : Price
  volume : Price

structure RawSignal (Stamp : Type) where
  timestamp : Stamp
  /-- One is a buy, minus one a sell. -/
  direction : Int

structure Trade (Stamp Price : Type) where
  direction : Side
  entryIndex : Nat
  entryTime : Stamp
  entryPrice : Option Price
  exitIndex : Option Nat := none
  exitTime : Option Stamp := none
  exitPrice : Option Price := none

/-- What a branch is told about a signal. -/
structure Guidance where
  shouldClose : Bool
  shouldOpen : Bool
  openDirection : Option Side
  deriving DecidableEq, Repr

def baselineDecision (side : Side) (current : Option Side) : Guidance :=
  let shouldClose :=
    current = some .long && side = .short || current = some .short && side = .long
  let willBeFlat := current = none || shouldClose
  let sameDirection : Bool := current = some side
  let shouldOpen := !sameDirection && willBeFlat
  { shouldClose := shouldClose, shouldOpen := shouldOpen
    openDirection := if shouldOpen then some side else none }

/-! ### One branch -/

structure BranchState (Stamp Price : Type) where
  currentPosition : Option Side := none
  /-- The place of the open trade among the trades. -/
  openTrade : Option Nat := none
  trades : List (Trade Stamp Price) := []
  signalsSeen : Nat := 0
  opened : Nat := 0
  closed : Nat := 0
  skippedPyramid : Nat := 0
  skippedFilter : Nat := 0

/-- The bar at which a signal is filled. -/
structure Fill (Stamp Price : Type) where
  index : Nat
  time : Stamp
  price : Option Price

namespace BranchState

variable (state : BranchState Stamp Price)

def closeTrade (fill : Fill Stamp Price) : BranchState Stamp Price :=
  match state.openTrade with
  | none => state
  | some place =>
    { state with
      trades := state.trades.modify place fun trade =>
        { trade with
          exitIndex := some fill.index, exitTime := some fill.time, exitPrice := fill.price }
      closed := state.closed + 1
      openTrade := none
      currentPosition := none }

def addTrade (direction : Side) (fill : Fill Stamp Price) : BranchState Stamp Price :=
  { state with
    openTrade := some state.trades.length
    trades := state.trades ++ [
      { direction := direction, entryIndex := fill.index, entryTime := fill.time
        entryPrice := fill.price }]
    currentPosition := some direction
    opened := state.opened + 1 }

def apply (side : Side) (guidance : Guidance) (blockedByFilter : Bool) (fill : Fill Stamp Price) :
    BranchState Stamp Price :=
  let seen := { state with signalsSeen := state.signalsSeen + 1 }
  let closed := if guidance.shouldClose then seen.closeTrade fill else seen
  match guidance.shouldOpen, guidance.openDirection with
  | true, some direction => closed.addTrade direction fill
  | _, _ =>
    -- the position is the one from before the close
    if !guidance.shouldClose && state.currentPosition = some side then
      { closed with skippedPyramid := closed.skippedPyramid + 1 }
    else if blockedByFilter then { closed with skippedFilter := closed.skippedFilter + 1 }
    else closed

/-- **What a signal does to a branch**: it is counted, may close the open trade, and then opens a trade or
is counted again. -/
theorem apply_cases (side : Side) (guidance : Guidance) (blocked : Bool) (fill : Fill Stamp Price) :
    ∃ closed : BranchState Stamp Price,
      (closed = { state with signalsSeen := state.signalsSeen + 1 } ∨
        closed = { state with signalsSeen := state.signalsSeen + 1 }.closeTrade fill) ∧
      ((∃ direction, state.apply side guidance blocked fill = closed.addTrade direction fill) ∨
        ∃ pyramid filter, state.apply side guidance blocked fill =
          { closed with skippedPyramid := pyramid, skippedFilter := filter }) := by
  let seen := { state with signalsSeen := state.signalsSeen + 1 }
  refine ⟨if guidance.shouldClose then seen.closeTrade fill else seen, ?_, ?_⟩
  · split
    · exact .inr rfl
    · exact .inl rfl
  · unfold apply
    dsimp only
    generalize (if guidance.shouldClose = true then seen.closeTrade fill else seen) = closed
    split
    · exact .inl ⟨_, rfl⟩
    · refine .inr ?_
      split_ifs
      · exact ⟨_, _, rfl⟩
      · exact ⟨_, _, rfl⟩
      · exact ⟨_, _, rfl⟩

theorem apply_keeps (property : BranchState Stamp Price → Prop) {fill : Fill Stamp Price}
    (counts : ∀ state seen pyramid filter, property state →
      property { state with signalsSeen := seen, skippedPyramid := pyramid, skippedFilter := filter })
    (closes : ∀ state, property state → property (state.closeTrade fill))
    (opens : ∀ state direction, property state → property (state.addTrade direction fill))
    {state : BranchState Stamp Price} (before : property state) (side : Side) (guidance : Guidance)
    (blocked : Bool) : property (state.apply side guidance blocked fill) := by
  have counted := counts state (state.signalsSeen + 1) state.skippedPyramid state.skippedFilter before
  obtain ⟨closed, from_, turn⟩ := state.apply_cases side guidance blocked fill
  have holds : property closed := by
    rcases from_ with rfl | rfl
    · exact counted
    · exact closes _ counted
  rcases turn with ⟨direction, same⟩ | ⟨pyramid, filter, same⟩
  · rw [same]
    exact opens closed direction holds
  · rw [same]
    exact counts closed _ pyramid filter holds

@[simp]
theorem closeTrade_signalsSeen (fill : Fill Stamp Price) :
    (state.closeTrade fill).signalsSeen = state.signalsSeen := by
  unfold closeTrade
  split <;> rfl

@[simp]
theorem apply_signalsSeen (side : Side) (guidance : Guidance) (blocked : Bool)
    (fill : Fill Stamp Price) :
    (state.apply side guidance blocked fill).signalsSeen = state.signalsSeen + 1 := by
  obtain ⟨closed, from_, turn⟩ := state.apply_cases side guidance blocked fill
  have counted : closed.signalsSeen = state.signalsSeen + 1 := by
    rcases from_ with rfl | rfl
    · rfl
    · rw [closeTrade_signalsSeen]
  rcases turn with ⟨direction, same⟩ | ⟨pyramid, filter, same⟩
  · rw [same]
    exact counted
  · rw [same]
    exact counted

end BranchState

/-! ### Both branches -/

structure Comparison (Stamp Price : Type) where
  unfiltered : BranchState Stamp Price := {}
  filtered : BranchState Stamp Price := {}
  scored : Nat := 0
  skippedMissingCandle : Nat := 0
  skippedIncompleteFeatures : Nat := 0

section Run

variable [DecidableEq Stamp] (candles : List (Candle Stamp Price))
  (buildAt : Nat → Option (List (Bytes × Value)))
  (predict : Payload Value → Option Side → Prediction)

/-- The last candle of a time: the later entry of a dictionary replaces the earlier one. -/
def tsIndex (timestamp : Stamp) : Option Nat :=
  ((candles.zipIdx.filter fun entry => entry.1.timestamp = timestamp).getLast?).map Prod.snd

def signalSide (signal : RawSignal Stamp) : Side :=
  if signal.direction = 1 then .long else .short

def fillOf (signal : RawSignal Stamp) (index : Nat) : Fill Stamp Price where
  index := index + 1
  time := ((candles[index + 1]?).map Candle.timestamp).getD signal.timestamp
  price := (candles[index + 1]?).map Candle.openPrice

def payloadOf (signal : RawSignal Stamp) (features : List (Bytes × Value)) : Payload Value :=
  ⟨some signal.direction, some features⟩

def applyFiltered (state : BranchState Stamp Price) (side : Side) (decision : Prediction)
    (fill : Fill Stamp Price) : BranchState Stamp Price :=
  let wouldOpenUnfiltered := (baselineDecision side state.currentPosition).shouldOpen
  state.apply side ⟨decision.shouldClose, decision.shouldOpen, decision.openDirection⟩
    (wouldOpenUnfiltered && !decision.shouldOpen) fill

/-- One turn of the loop. -/
def compareSignal (state : Comparison Stamp Price) (signal : RawSignal Stamp) :
    Comparison Stamp Price :=
  match tsIndex candles signal.timestamp with
  | none => { state with skippedMissingCandle := state.skippedMissingCandle + 1 }
  | some index =>
    let side := signalSide signal
    let fill := fillOf candles signal index
    let unfiltered := state.unfiltered.apply side
      (baselineDecision side state.unfiltered.currentPosition) false fill
    match buildAt index with
    | none =>
      { state with
        unfiltered := unfiltered
        skippedIncompleteFeatures := state.skippedIncompleteFeatures + 1 }
    | some features =>
      let decision := predict (payloadOf signal features) state.filtered.currentPosition
      { state with
        unfiltered := unfiltered
        filtered := applyFiltered state.filtered side decision fill
        scored := state.scored + 1 }

def runComparison (signals : List (RawSignal Stamp)) : Comparison Stamp Price :=
  signals.foldl (compareSignal candles buildAt predict) {}

theorem compareSignal_keeps (property : BranchState Stamp Price → Prop)
    (step : ∀ state side guidance blocked fill, property state →
      property (state.apply side guidance blocked fill))
    (state : Comparison Stamp Price) (signal : RawSignal Stamp) :
    (property state.unfiltered →
      property (compareSignal candles buildAt predict state signal).unfiltered) ∧
    (property state.filtered →
      property (compareSignal candles buildAt predict state signal).filtered) := by
  unfold compareSignal
  cases tsIndex candles signal.timestamp with
  | none => exact ⟨id, id⟩
  | some index =>
    dsimp only
    cases buildAt index with
    | none => exact ⟨step _ _ _ _ _, id⟩
    | some features => exact ⟨step _ _ _ _ _, step _ _ _ _ _⟩

/-- **What every application keeps**, the run keeps in both branches. -/
theorem foldl_keeps (property : BranchState Stamp Price → Prop)
    (step : ∀ state side guidance blocked fill, property state →
      property (state.apply side guidance blocked fill))
    (signals : List (RawSignal Stamp)) (state : Comparison Stamp Price) :
    (property state.unfiltered →
      property (signals.foldl (compareSignal candles buildAt predict) state).unfiltered) ∧
    (property state.filtered →
      property (signals.foldl (compareSignal candles buildAt predict) state).filtered) := by
  induction signals generalizing state with
  | nil => exact ⟨id, id⟩
  | cons signal rest ih =>
    obtain ⟨plain, scored⟩ := compareSignal_keeps candles buildAt predict property step state signal
    obtain ⟨plainRest, scoredRest⟩ := ih (compareSignal candles buildAt predict state signal)
    exact ⟨plainRest ∘ plain, scoredRest ∘ scored⟩

end Run

end ExecRelay.Backtest
