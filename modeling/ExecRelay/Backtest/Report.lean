/-
**The comparison and its report** (`apps/backtester/backtest_ml.py`).

`replay` is the loop of `run_comparison` with the features of the candles, and `comparisonReport` the
whole of it. The loop itself cannot fail (`replay_eq`): it is `runComparison` over the features that the
builder has. The report fails on a trade that has an exit price and no entry price to divide by
(`branchStats_isOk_iff`).
-/

import ExecRelay.Backtest.Features

namespace ExecRelay.Backtest

open Lib
open Predictor

variable {Stamp K : Type} [Field K] [LinearOrder K]

/-! ### Statistics -/

deriving instance DecidableEq for Trade

namespace Trade

def isOpen (trade : Trade Stamp K) : Bool :=
  trade.exitPrice.isNone

def pnlPct (trade : Trade Stamp K) : Except Fault (Option K) :=
  match trade.exitPrice, trade.entryPrice with
  | none, _ => .ok none
  | some _, none => .error .typeError
  | some exitPrice, some entryPrice =>
    if entryPrice = 0 then .error .zeroDivisionError
    else
      let sign : K := if trade.direction = .long then 1 else -1
      .ok (some (sign * (exitPrice - entryPrice) / entryPrice))

end Trade

/-- The equity curve so far: its peak, its value and its deepest fall. -/
structure Equity (K : Type) where
  peak : K
  cumulative : K
  maxDD : K

def Equity.add (equity : Equity K) (pnl : K) : Equity K :=
  let cumulative := equity.cumulative + pnl
  let peak := max equity.peak cumulative
  ⟨peak, cumulative, max equity.maxDD (peak - cumulative)⟩

def maxDrawdown (pnls : List K) : K :=
  (pnls.foldl Equity.add ⟨0, 0, 0⟩).maxDD

structure BranchStats (K : Type) where
  signalsSeen : Nat
  tradesOpened : Nat
  tradesClosed : Nat
  tradesStillOpen : Nat
  tradesSkippedPyramid : Nat
  tradesSkippedByFilter : Nat
  winRate : Option K
  cumulativePnlPct : K
  maxDrawdownPct : K
  deriving DecidableEq

def branchStats (state : BranchState Stamp K) : Except Fault (BranchStats K) := do
  let closedTrades := state.trades.filter fun trade => !trade.isOpen
  let pnls ← closedTrades.mapM Trade.pnlPct
  let known := pnls.filterMap id
  let wins := known.filter fun pnl => 0 < pnl
  return {
    signalsSeen := state.signalsSeen
    tradesOpened := state.opened
    tradesClosed := state.closed
    tradesStillOpen := state.trades.countP Trade.isOpen
    tradesSkippedPyramid := state.skippedPyramid
    tradesSkippedByFilter := state.skippedFilter
    winRate := if pnls = [] then none else some (wins.length / pnls.length)
    cumulativePnlPct := known.sum
    maxDrawdownPct := maxDrawdown known }

/-- The trades with an exit price have an entry price to divide by. -/
def Priced (state : BranchState Stamp K) : Prop :=
  ∀ trade ∈ state.trades, trade.exitPrice.isSome → ∃ price ≠ 0, trade.entryPrice = some price

theorem pnlPct_isOk_iff {trade : Trade Stamp K} (closed : trade.exitPrice.isSome) :
    (∃ pnl, trade.pnlPct = .ok pnl) ↔ ∃ price ≠ 0, trade.entryPrice = some price := by
  obtain ⟨exitPrice, sold⟩ := Option.isSome_iff_exists.mp closed
  unfold Trade.pnlPct
  rw [sold]
  cases trade.entryPrice with
  | none => simp
  | some price => by_cases zero : price = 0 <;> simp [zero]

/-- **A branch has statistics** if its closed trades have returns. -/
theorem branchStats_isOk_iff {state : BranchState Stamp K} :
    (∃ stats, branchStats state = .ok stats) ↔ Priced state := by
  have mapped : (∃ stats, branchStats state = .ok stats) ↔
      ∃ pnls, (state.trades.filter fun trade => !trade.isOpen).mapM Trade.pnlPct = .ok pnls := by
    simp only [branchStats, bind_eq_ok]
    constructor
    · rintro ⟨_, pnls, succeeds, -⟩
      exact ⟨pnls, succeeds⟩
    · rintro ⟨pnls, succeeds⟩
      exact ⟨_, pnls, succeeds, rfl⟩
  have isClosed (trade : Trade Stamp K) : (!trade.isOpen) = true ↔ trade.exitPrice.isSome := by
    cases sold : trade.exitPrice <;> simp [Trade.isOpen, sold]
  rw [mapped, mapM_isOk_iff]
  constructor
  · intro succeeds trade inside closed
    exact (pnlPct_isOk_iff closed).mp
      (succeeds trade (List.mem_filter.mpr ⟨inside, (isClosed trade).mpr closed⟩))
  · intro priced trade inside
    obtain ⟨member, closed⟩ := List.mem_filter.mp inside
    have sold := (isClosed trade).mp closed
    exact (pnlPct_isOk_iff sold).mpr (priced trade member sold)

/-! ### The run -/

/-- What the comparison needs of a predictor. -/
structure Scorer (Value : Type) where
  threshold : Float64
  predict : Payload Value → Option Side → Prediction

def Scorer.passing (Value : Type) : Scorer Value where
  threshold := .zero
  predict := fun payload current =>
    let side : Side := if payload.direction = some 1 then .long else .short
    let guidance := baselineDecision side current
    { threshold := .zero, timestamp := [], modelVersion := []
      shouldClose := guidance.shouldClose
      shouldOpen := guidance.shouldOpen
      openDirection := guidance.openDirection }

structure ComparisonReport (Stamp K : Type) where
  threshold : Float64
  totalCandidateSignals : Nat
  scoredSignals : Nat
  skippedMissingCandle : Nat
  skippedIncompleteFeatures : Nat
  unfiltered : BranchStats K
  filtered : BranchStats K
  upliftPct : K
  unfilteredTrades : List (Trade Stamp K)
  filteredTrades : List (Trade Stamp K)

section Run

variable [DecidableEq Stamp] (sqrt : K → K) (calendar : Calendar Stamp) (scorer : Scorer K)

def replaySignal (candles : List (Candle Stamp K)) (fb : FeatureBuilder Stamp K)
    (state : Comparison Stamp K) (signal : RawSignal Stamp) : Except Fault (Comparison Stamp K) := do
  let feats ← match tsIndex candles signal.timestamp with
    | none => pure none
    | some index => fb.buildAt calendar index
  return compareSignal candles (fun _ => feats) scorer.predict state signal

/-- The loop over the signals. -/
def replay (candles : List (Candle Stamp K)) (signals : List (RawSignal Stamp)) :
    Except Fault (Comparison Stamp K) := do
  let fb ← FeatureBuilder.init sqrt candles 12 48
  signals.foldlM (replaySignal calendar scorer candles fb) {}

def comparisonReport (candles : List (Candle Stamp K)) (signals : List (RawSignal Stamp)) :
    Except Fault (ComparisonReport Stamp K) := do
  let state ← replay sqrt calendar scorer candles signals
  let unfilteredStats ← branchStats state.unfiltered
  let filteredStats ← branchStats state.filtered
  return {
    threshold := scorer.threshold
    totalCandidateSignals := signals.length
    scoredSignals := state.scored
    skippedMissingCandle := state.skippedMissingCandle
    skippedIncompleteFeatures := state.skippedIncompleteFeatures
    unfiltered := unfilteredStats
    filtered := filteredStats
    upliftPct := filteredStats.cumulativePnlPct - unfilteredStats.cumulativePnlPct
    unfilteredTrades := state.unfiltered.trades
    filteredTrades := state.filtered.trades }

/-! ### What a run amounts to -/

omit [Field K] [LinearOrder K] in
variable {candles : List (Candle Stamp K)}

theorem candle_of_tsIndex {timestamp : Stamp} {index : Nat}
    (found : tsIndex candles timestamp = some index) :
    ∃ c, candles[index]? = some c ∧ c.timestamp = timestamp := by
  obtain ⟨⟨c, place⟩, last, rfl⟩ := Option.map_eq_some_iff.mp found
  obtain ⟨member, same⟩ := List.mem_filter.mp (List.mem_of_getLast? last)
  exact ⟨c, List.mk_mem_zipIdx_iff_getElem?.mp member, of_decide_eq_true same⟩

variable {sqrt calendar scorer}

/-- **The loop does not fail**: the builder has an answer for each bar of a signal. -/
theorem replay_eq {fb : FeatureBuilder Stamp K}
    (built : FeatureBuilder.init sqrt candles 12 48 = .ok fb) (signals : List (RawSignal Stamp)) :
    replay sqrt calendar scorer candles signals =
      .ok (runComparison candles (fb.features calendar) scorer.predict signals) := by
  have turn (state : Comparison Stamp K) (signal : RawSignal Stamp) :
      replaySignal calendar scorer candles fb state signal =
        pure (compareSignal candles (fb.features calendar) scorer.predict state signal) := by
    unfold replaySignal compareSignal
    cases found : tsIndex candles signal.timestamp with
    | none => rfl
    | some index =>
      obtain ⟨c, here, -⟩ := candle_of_tsIndex found
      have inside : index < candles.length := (List.getElem?_eq_some_iff.mp here).1
      obtain ⟨feats, answer⟩ := FeatureBuilder.buildAt_isOk (FeatureBuilder.sized_of_init built)
        calendar inside
      simp only [FeatureBuilder.features, answer]
      rfl
  rw [replay, built]
  show List.foldlM (replaySignal calendar scorer candles fb) {} signals = _
  rw [show replaySignal calendar scorer candles fb = _ from funext₂ turn, List.foldlM_pure]
  rfl

variable {signals : List (RawSignal Stamp)}

theorem replay_eq_ok_iff {state : Comparison Stamp K} :
    replay sqrt calendar scorer candles signals = .ok state ↔
      ∃ fb, FeatureBuilder.init sqrt candles 12 48 = .ok fb ∧
        state = runComparison candles (fb.features calendar) scorer.predict signals := by
  constructor
  · intro ends
    obtain ⟨fb, built, -⟩ := (bind_eq_ok _ _ _).mp ends
    rw [replay_eq built] at ends
    cases ends
    exact ⟨fb, built, rfl⟩
  · rintro ⟨fb, built, rfl⟩
    exact replay_eq built signals

/-- **The report exists** if the builder does and both branches have statistics. -/
theorem comparisonReport_isOk_iff :
    (∃ report, comparisonReport sqrt calendar scorer candles signals = .ok report) ↔
      ∃ state, replay sqrt calendar scorer candles signals = .ok state ∧
        Priced state.unfiltered ∧ Priced state.filtered := by
  simp only [comparisonReport, bind_eq_ok, ← branchStats_isOk_iff]
  constructor
  · rintro ⟨_, state, ends, unfiltered, plain, filtered, scored, -⟩
    exact ⟨state, ends, ⟨unfiltered, plain⟩, filtered, scored⟩
  · rintro ⟨state, ends, ⟨unfiltered, plain⟩, filtered, scored⟩
    exact ⟨_, state, ends, unfiltered, plain, filtered, scored, rfl⟩

end Run

end ExecRelay.Backtest
