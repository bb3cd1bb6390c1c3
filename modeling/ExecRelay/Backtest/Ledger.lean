/-
**The ledger of a backtest.**

The counters of a branch are kept beside its trades, and the statistics are made from both. Whatever a
branch is told, its counters are those of its trades (`Counted`); told by the rules or by the model, it
has at most one open trade, which is its last (`Kept`). The two views part in one place: a trade that is
closed on the last bar has no exit price, so it is counted as closed and shown as open.

* `addsUp_iff`: the statistics add up exactly if no signal of the last bar closes a trade;
* `consistent_of_sorted`: over bars in order of time the trades of a branch follow each other;
* `maxDrawdown_isGreatest`: the drawdown is the deepest fall of the equity curve.
-/

import ExecRelay.Backtest.Live
import ExecRelay.Backtest.Uplift
import Mathlib.Data.List.Induction
import Mathlib.Order.Bounds.Basic

namespace ExecRelay.Backtest

open Lib
open Predictor

variable {Stamp Price K : Type}

/-! ### The counters and the trades -/

def Trade.closedAt (trade : Trade Stamp Price) (fill : Fill Stamp Price) : Trade Stamp Price :=
  { trade with exitIndex := some fill.index, exitTime := some fill.time, exitPrice := fill.price }

/-- **The counters of a branch are those of its trades**, and its open trade is the last. -/
structure Counted (state : BranchState Stamp Price) : Prop where
  opened : state.opened = state.trades.length
  closed : state.closed = state.trades.countP fun trade => trade.exitIndex.isSome
  sold : ∀ trade ∈ state.trades, trade.exitPrice.isSome → trade.exitIndex.isSome
  last : ∀ place, state.openTrade = some place → ∃ front trade, state.trades = front ++ [trade] ∧
    place = front.length ∧ trade.exitIndex = none ∧ state.currentPosition = some trade.direction

variable {state : BranchState Stamp Price} {fill : Fill Stamp Price}

theorem closeTrade_cases (counted : Counted state) (fill : Fill Stamp Price) :
    (state.openTrade = none ∧ state.closeTrade fill = state) ∨
      ∃ front trade, state.openTrade = some front.length ∧ state.trades = front ++ [trade] ∧
        trade.exitIndex = none ∧ state.closeTrade fill =
          { state with
            trades := front ++ [trade.closedAt fill], closed := state.closed + 1
            openTrade := none, currentPosition := none } := by
  unfold BranchState.closeTrade
  cases opened : state.openTrade with
  | none => exact .inl ⟨rfl, rfl⟩
  | some place =>
    obtain ⟨front, trade, trades, rfl, fresh, -⟩ := counted.last place opened
    refine .inr ⟨front, trade, rfl, trades, fresh, ?_⟩
    have modified : state.trades.modify front.length (·.closedAt fill) =
        front ++ [trade.closedAt fill] := by
      rw [trades, List.modify_eq_take_cons_drop (by simp)]
      simp
    dsimp only
    rw [← modified]
    rfl

theorem Counted.noTrade (counted : Counted state) (flat : state.currentPosition = none) :
    state.openTrade = none := by
  cases opened : state.openTrade with
  | none => rfl
  | some place =>
    obtain ⟨_, trade, -, -, -, position⟩ := counted.last place opened
    rw [flat] at position
    cases position

theorem Counted.close (counted : Counted state) (fill : Fill Stamp Price) :
    Counted (state.closeTrade fill) := by
  rcases closeTrade_cases counted fill with ⟨-, same⟩ | ⟨front, trade, -, trades, fresh, same⟩
  · rw [same]
    exact counted
  · obtain ⟨opened, closed, sold, -⟩ := counted
    rw [trades] at opened closed sold
    rw [same]
    refine ⟨?_, ?_, ?_, fun _ impossible => by cases impossible⟩
    · simpa using opened
    · simpa [List.countP_append, fresh, Trade.closedAt] using closed
    · intro other member priced
      rcases List.mem_append.mp member with before | here
      · exact sold other (List.mem_append_left _ before) priced
      · rw [List.mem_singleton.mp here]
        rfl

theorem Counted.add (counted : Counted state) (direction : Side) (fill : Fill Stamp Price) :
    Counted (state.addTrade direction fill) where
  opened := by simp [BranchState.addTrade, counted.opened]
  closed := by simp [BranchState.addTrade, counted.closed, List.countP_append]
  sold := by
    intro trade member priced
    rcases List.mem_append.mp member with before | here
    · exact counted.sold trade before priced
    · rw [List.mem_singleton.mp here] at priced
      cases priced
  last := by
    intro place opened
    cases opened
    exact ⟨state.trades, _, rfl, rfl, rfl, rfl⟩

theorem Counted.apply (counted : Counted state) (side : Side) (guidance : Guidance) (blocked : Bool)
    (fill : Fill Stamp Price) : Counted (state.apply side guidance blocked fill) :=
  BranchState.apply_keeps Counted (fun _ _ _ _ kept => ⟨kept.opened, kept.closed, kept.sold, kept.last⟩)
    (fun _ kept => kept.close fill) (fun _ direction kept => kept.add direction fill) counted side
    guidance blocked

theorem counted_initial : Counted ({} : BranchState Stamp Price) :=
  ⟨rfl, rfl, fun _ impossible => absurd impossible List.not_mem_nil, fun _ impossible => by cases impossible⟩

/-! ### Trades closed without a price -/

/-- A trade that is closed, and shown as open. -/
def Trade.isUnpriced (trade : Trade Stamp Price) : Bool :=
  trade.exitIndex.isSome && trade.exitPrice.isNone

/-- The signal closes a trade and there is no price to close it at. -/
def ClosesUnpriced (state : BranchState Stamp Price) (guidance : Guidance) (fill : Fill Stamp Price) :
    Prop :=
  guidance.shouldClose = true ∧ state.openTrade.isSome ∧ fill.price = none

theorem apply_trades (state : BranchState Stamp Price) (side : Side) (guidance : Guidance)
    (blocked : Bool) (fill : Fill Stamp Price) :
    ∃ added : List (Trade Stamp Price), (∀ trade ∈ added, trade.exitIndex = none) ∧
      (state.apply side guidance blocked fill).trades =
        (if guidance.shouldClose then state.closeTrade fill else state).trades ++ added := by
  have closing : (if guidance.shouldClose then
      { state with signalsSeen := state.signalsSeen + 1 }.closeTrade fill
      else { state with signalsSeen := state.signalsSeen + 1 }).trades =
        (if guidance.shouldClose then state.closeTrade fill else state).trades := by
    unfold BranchState.closeTrade
    cases state.openTrade <;> split_ifs <;> rfl
  unfold BranchState.apply
  dsimp only
  rw [← closing]
  split
  · exact ⟨[_], fun trade member => by rw [List.mem_singleton.mp member], rfl⟩
  · refine ⟨[], fun _ impossible => absurd impossible List.not_mem_nil, ?_⟩
    rw [List.append_nil]
    split_ifs <;> rfl

/-- **When the branch gets a trade without an exit price.** -/
theorem unpriced_apply (counted : Counted state) (side : Side) (guidance : Guidance) (blocked : Bool)
    (fill : Fill Stamp Price) :
    (state.apply side guidance blocked fill).trades.countP Trade.isUnpriced = 0 ↔
      state.trades.countP Trade.isUnpriced = 0 ∧ ¬ ClosesUnpriced state guidance fill := by
  obtain ⟨added, fresh, trades⟩ := apply_trades state side guidance blocked fill
  have new : added.countP Trade.isUnpriced = 0 := by
    refine List.countP_eq_zero.mpr fun trade member => ?_
    simp [Trade.isUnpriced, fresh trade member]
  rw [trades, List.countP_append, new, Nat.add_zero, ClosesUnpriced]
  cases guidance.shouldClose with
  | false => simp
  | true =>
    rcases closeTrade_cases counted fill with ⟨none_, same⟩ | ⟨front, trade, opened, split, fresh, same⟩
    · simp [same, none_]
    · rw [same, split, opened]
      simp [List.countP_append, Trade.isUnpriced, Trade.closedAt, fresh]

/-! ### The statistics -/

theorem closed_add_open {trades : List (Trade Stamp Price)}
    (sold : ∀ trade ∈ trades, trade.exitPrice.isSome → trade.exitIndex.isSome) :
    (trades.countP fun trade => trade.exitIndex.isSome) + trades.countP Trade.isOpen =
      trades.length + trades.countP Trade.isUnpriced := by
  induction trades with
  | nil => rfl
  | cons trade rest ih =>
    obtain ⟨here, behind⟩ := List.forall_mem_cons.mp sold
    have count := ih behind
    obtain ⟨_, _, _, _, index, _, price⟩ := trade
    cases index <;> cases price <;> simp [List.countP_cons, Trade.isOpen, Trade.isUnpriced] at here ⊢ <;>
      omega

section Statistics

variable [Field K] [LinearOrder K]

/-- **The statistics of a branch add up**: a trade that was opened is closed or still open, and the win
rate and the cumulative return are those of as many trades as are closed. -/
def AddsUp (trades : List (Trade Stamp K)) (stats : BranchStats K) : Prop :=
  stats.tradesOpened = stats.tradesClosed + stats.tradesStillOpen ∧
    ∃ (closed : List (Trade Stamp K)) (pnls : List K), closed.Sublist trades ∧
      closed.length = stats.tradesClosed ∧ closed.mapM Trade.pnlPct = .ok (pnls.map some) ∧
      stats.winRate = (if stats.tradesClosed = 0 then none
        else some ((pnls.filter fun pnl => 0 < pnl).length / (stats.tradesClosed : K))) ∧
      stats.cumulativePnlPct = pnls.sum

theorem isSome_of_pnlPct {trade : Trade Stamp K} (closed : trade.isOpen = false) {pnl : Option K}
    (computed : trade.pnlPct = .ok pnl) : pnl.isSome := by
  unfold Trade.pnlPct at computed
  split at computed
  · rename_i unsold
    simp [Trade.isOpen, unsold] at closed
  · cases computed
  · split at computed <;> cases computed
    rfl

theorem map_some_of_mapM {closed : List (Trade Stamp K)} (sold : ∀ trade ∈ closed, trade.isOpen = false)
    {pnls : List (Option K)} (computed : closed.mapM Trade.pnlPct = .ok pnls) :
    (pnls.filterMap id).map some = pnls := by
  induction closed generalizing pnls with
  | nil =>
    cases computed
    rfl
  | cons trade rest ih =>
    simp only [List.mapM_cons, bind_eq_ok] at computed
    obtain ⟨pnl, here, others, behind, same⟩ := computed
    cases same
    obtain ⟨first, later⟩ := List.forall_mem_cons.mp sold
    obtain ⟨value, rfl⟩ := Option.isSome_iff_exists.mp (isSome_of_pnlPct first here)
    exact congrArg (some value :: ·) (ih later behind)

/-- **The statistics of a branch add up** unless a trade was closed without a price. -/
theorem addsUp_iff_unpriced {state : BranchState Stamp K} (counted : Counted state)
    {stats : BranchStats K} (computed : branchStats state = .ok stats) :
    AddsUp state.trades stats ↔ state.trades.countP Trade.isUnpriced = 0 := by
  have views := closed_add_open counted.sold
  simp only [branchStats, bind_eq_ok] at computed
  obtain ⟨pnls, returns, same⟩ := computed
  cases same
  rw [AddsUp, counted.opened, counted.closed]
  constructor
  · rintro ⟨balanced, -⟩
    dsimp only at balanced
    omega
  · intro priced
    have known : (pnls.filterMap id).map some = pnls :=
      map_some_of_mapM (fun trade member => by simpa using (List.mem_filter.mp member).2) returns
    have counts : (state.trades.filter fun trade => !trade.isOpen).length =
        state.trades.countP fun trade => trade.exitIndex.isSome := by
      have both := List.length_eq_countP_add_countP Trade.isOpen (l := state.trades)
      rw [← List.countP_eq_length_filter]
      simp only [Bool.not_eq_true, Bool.decide_eq_false] at both
      omega
    have many : pnls.length = state.trades.countP fun trade => trade.exitIndex.isSome := by
      rw [length_of_mapM returns, counts]
    refine ⟨by dsimp only; omega, _, _, List.filter_sublist, counts, known.symm ▸ returns, ?_, rfl⟩
    rw [← many]
    simp only [List.length_eq_zero_iff]

end Statistics

/-! ### The last bar -/

theorem foldl_eq_zero_iff {State Item : Type} {step : State → Item → State} {count : State → Nat}
    {invariant : State → Prop} {fine : State → Item → Prop}
    (keeps : ∀ state item, invariant state → invariant (step state item))
    (steps : ∀ state item, invariant state →
      (count (step state item) = 0 ↔ count state = 0 ∧ fine state item))
    {initial : State} (holds : invariant initial) (zero : count initial = 0) (items : List Item) :
    count (items.foldl step initial) = 0 ↔
      ∀ before item, before ++ [item] <+: items → fine (before.foldl step initial) item := by
  have kept (items : List Item) : invariant (items.foldl step initial) := by
    induction items using List.reverseRecOn with
    | nil => exact holds
    | append_singleton items item ih =>
      rw [List.foldl_append]
      exact keeps _ item ih
  induction items using List.reverseRecOn with
  | nil =>
    refine ⟨fun _ before item first => ?_, fun _ => zero⟩
    simp at first
  | append_singleton items item ih =>
    rw [List.foldl_append, List.foldl_cons, List.foldl_nil, steps _ item (kept items)]
    constructor
    · rintro ⟨earlier, last⟩ before other first
      rcases List.prefix_concat_iff.mp first with same | shorter
      · obtain ⟨rfl, one⟩ := List.append_inj' same rfl
        cases one
        exact last
      · exact ih.mp earlier before other shorter
    · intro all
      exact ⟨ih.mpr fun before other first => all before other (first.trans (List.prefix_append _ _)),
        all items item List.prefix_rfl⟩

section LastBar

variable [DecidableEq Stamp]

theorem price_fillOf {candles : List (Candle Stamp Price)} {index : Nat} {signal : RawSignal Stamp}
    (found : tsIndex candles signal.timestamp = some index) :
    (fillOf candles signal index).price = none ↔ index = candles.length - 1 := by
  obtain ⟨c, here, -⟩ := candle_of_tsIndex found
  have inside : index < candles.length := (List.getElem?_eq_some_iff.mp here).1
  simp only [fillOf, Option.map_eq_none_iff, List.getElem?_eq_none_iff]
  omega

section Run

variable {Value : Type} (candles : List (Candle Stamp Price))
  (buildAt : Nat → Option (List (Bytes × Value))) (predict : Payload Value → Option Side → Prediction)

def guidanceOf (decision : Prediction) : Guidance :=
  ⟨decision.shouldClose, decision.shouldOpen, decision.openDirection⟩

/-- Neither branch closes a trade without a price on the signal. -/
def ClosesPriced (state : Comparison Stamp Price) (signal : RawSignal Stamp) : Prop :=
  ∀ index, tsIndex candles signal.timestamp = some index →
    ¬ ClosesUnpriced state.unfiltered
        (baselineDecision (signalSide signal) state.unfiltered.currentPosition)
        (fillOf candles signal index) ∧
      ∀ features, buildAt index = some features →
        ¬ ClosesUnpriced state.filtered
          (guidanceOf (predict (payloadOf signal features) state.filtered.currentPosition))
          (fillOf candles signal index)

def unpriced (state : Comparison Stamp Price) : Nat :=
  state.unfiltered.trades.countP Trade.isUnpriced + state.filtered.trades.countP Trade.isUnpriced

theorem counted_runComparison (signals : List (RawSignal Stamp)) :
    Counted (runComparison candles buildAt predict signals).unfiltered ∧
      Counted (runComparison candles buildAt predict signals).filtered := by
  obtain ⟨plain, scored⟩ := foldl_keeps candles buildAt predict Counted
    (fun _ side guidance blocked fill counted => counted.apply side guidance blocked fill) signals {}
  exact ⟨plain counted_initial, scored counted_initial⟩

theorem unpriced_compareSignal {state : Comparison Stamp Price} (plain : Counted state.unfiltered)
    (scored : Counted state.filtered) (signal : RawSignal Stamp) :
    unpriced (compareSignal candles buildAt predict state signal) = 0 ↔
      unpriced state = 0 ∧ ClosesPriced candles buildAt predict state signal := by
  unfold compareSignal ClosesPriced unpriced
  cases tsIndex candles signal.timestamp with
  | none => simp
  | some index =>
    dsimp only
    simp only [Option.some.injEq, forall_eq']
    cases buildAt index with
    | none =>
      simp only [Nat.add_eq_zero_iff, unpriced_apply plain, reduceCtorEq, false_imp_iff, implies_true]
      tauto
    | some features =>
      simp only [Nat.add_eq_zero_iff, unpriced_apply plain, applyFiltered, unpriced_apply scored,
        Option.some.injEq, forall_eq', guidanceOf]
      tauto

theorem unpriced_runComparison (signals : List (RawSignal Stamp)) :
    unpriced (runComparison candles buildAt predict signals) = 0 ↔
      ∀ before signal, before ++ [signal] <+: signals →
        ClosesPriced candles buildAt predict (runComparison candles buildAt predict before) signal :=
  foldl_eq_zero_iff
    (fun state signal (counted : Counted state.unfiltered ∧ Counted state.filtered) =>
      let turn := compareSignal_keeps candles buildAt predict Counted
        (fun _ side guidance blocked fill kept => kept.apply side guidance blocked fill) state signal
      ⟨turn.1 counted.1, turn.2 counted.2⟩)
    (fun _ signal counted => unpriced_compareSignal candles buildAt predict counted.1 counted.2 signal)
    ⟨counted_initial, counted_initial⟩ rfl signals

end Run

variable [Field K] [LinearOrder K] (sqrt : K → K) (calendar : Calendar Stamp)
  (scorer : Scorer K) (candles : List (Candle Stamp K)) (signals : List (RawSignal Stamp))

/-- **No signal of the last bar closes a trade**, in the state of the run before it. -/
def LastBarIdle : Prop :=
  ∀ before signal, before ++ [signal] <+: signals →
    tsIndex candles signal.timestamp = some (candles.length - 1) →
    ∀ state, replay sqrt calendar scorer candles before = .ok state →
      ((baselineDecision (signalSide signal) state.unfiltered.currentPosition).shouldClose = true →
        state.unfiltered.openTrade = none) ∧
      ∀ features, featuresAt sqrt calendar candles (candles.length - 1) = .ok (some features) →
        (scorer.predict (payloadOf signal features) state.filtered.currentPosition).shouldClose = true →
          state.filtered.openTrade = none

variable {sqrt calendar scorer candles signals}

/-- **When the statistics add up**, given that there is a report: if and only if no signal of the last bar
closes a trade. Such a trade has no exit price, is counted as closed and shown as still open. -/
theorem addsUp_iff {report : ComparisonReport Stamp K}
    (reported : comparisonReport sqrt calendar scorer candles signals = .ok report) :
    AddsUp report.unfilteredTrades report.unfiltered ∧ AddsUp report.filteredTrades report.filtered ↔
      LastBarIdle sqrt calendar scorer candles signals := by
  simp only [comparisonReport, bind_eq_ok] at reported
  obtain ⟨state, ends, plain, unfiltered, scored, filtered, same⟩ := reported
  cases same
  obtain ⟨fb, built, rfl⟩ := replay_eq_ok_iff.mp ends
  obtain ⟨plainCounted, scoredCounted⟩ := counted_runComparison candles (fb.features calendar) scorer.predict
    signals
  rw [addsUp_iff_unpriced plainCounted unfiltered, addsUp_iff_unpriced scoredCounted filtered,
    ← Nat.add_eq_zero_iff]
  refine (unpriced_runComparison candles (fb.features calendar) scorer.predict signals).trans ?_
  constructor
  · intro fine before signal first last state ran
    rw [replay_eq built] at ran
    cases ran
    have priceless := (price_fillOf last).mpr rfl
    obtain ⟨plainFine, scoredFine⟩ := fine before signal first _ last
    refine ⟨fun closes => ?_, fun features complete closes => ?_⟩
    · by_contra opened
      exact plainFine ⟨closes, Option.isSome_iff_ne_none.mpr opened, priceless⟩
    · by_contra opened
      exact scoredFine features ((featuresAt_eq_ok_iff built).mp complete)
        ⟨closes, Option.isSome_iff_ne_none.mpr opened, priceless⟩
  · intro idle before signal first index found
    refine ⟨?_, fun features complete => ?_⟩
    · rintro ⟨closes, opened, priceless⟩
      obtain rfl := (price_fillOf found).mp priceless
      rw [(idle before signal first found _ (replay_eq built before)).1 closes] at opened
      cases opened
    · rintro ⟨closes, opened, priceless⟩
      obtain rfl := (price_fillOf found).mp priceless
      rw [(idle before signal first found _ (replay_eq built before)).2 features
        ((featuresAt_eq_ok_iff built).mpr complete) closes] at opened
      cases opened

end LastBar

def shownBy (signals : List (RawSignal Nat)) (shown : ComparisonReport Nat ℚ → Bool) : Bool :=
  (comparisonReport id fiveMinutes (Scorer.passing ℚ) firstBars signals).toOption.any shown

/-- A trade that is closed on the second bar of four. -/
theorem addsUp_iff_buyAndSell :
    ∃ report, comparisonReport id fiveMinutes (Scorer.passing ℚ) firstBars buyAndSell = .ok report ∧
      report.unfiltered.tradesClosed = 1 ∧ AddsUp report.unfilteredTrades report.unfiltered ∧
      AddsUp report.filteredTrades report.filtered := by
  obtain ⟨report, reported, closed⟩ := exists_ok_of_any (show shownBy buyAndSell (fun report =>
      report.unfiltered.tradesClosed = 1) = true by
    decide +kernel)
  refine ⟨report, reported, of_decide_eq_true closed, (addsUp_iff reported).mpr ?_⟩
  intro before signal first last
  have early : ∀ signal ∈ buyAndSell, tsIndex firstBars signal.timestamp ≠ some 3 := by
    decide +kernel
  exact absurd last (early signal (first.subset (by simp)))

/-- A buy on the first bar, and a sell on the last. -/
def sellAtEnd : List (RawSignal Nat) :=
  [⟨0, 1⟩, ⟨15, -1⟩]

/-- **A sell on the last bar** closes the trade of the buy: two trades are opened, one is closed and two
are still open. -/
theorem not_addsUp_sellAtEnd :
    ∃ report, comparisonReport id fiveMinutes (Scorer.passing ℚ) firstBars sellAtEnd = .ok report ∧
      report.unfiltered.tradesOpened = 2 ∧ report.unfiltered.tradesClosed = 1 ∧
      report.unfiltered.tradesStillOpen = 2 ∧
      ¬ AddsUp report.unfilteredTrades report.unfiltered := by
  obtain ⟨report, reported, shown⟩ := exists_ok_of_any (show shownBy sellAtEnd (fun report =>
      report.unfiltered.tradesOpened = 2 && report.unfiltered.tradesClosed = 1 &&
        report.unfiltered.tradesStillOpen = 2) = true by
    decide +kernel)
  simp only [Bool.and_eq_true, decide_eq_true_eq] at shown
  obtain ⟨⟨opened, closed⟩, stillOpen⟩ := shown
  refine ⟨report, reported, opened, closed, stillOpen, ?_⟩
  rintro ⟨balanced, -⟩
  omega

/-! ### One trade after the other -/

/-- The trade is closed behind its entry, and before the next one is entered. -/
def Follows (trade next : Trade Stamp Price) : Prop :=
  ∃ exit, trade.exitIndex = some exit ∧ trade.entryIndex ≤ exit ∧ exit ≤ next.entryIndex

/-- **A branch in good order**: its position is that of its open trade, which is its last; its counters
agree; and its trades follow each other. -/
def Consistent (state : BranchState Stamp Price) : Prop :=
  (state.currentPosition = none ↔ state.openTrade = none) ∧
  (∀ place, state.openTrade = some place → ∃ trade, state.trades.getLast? = some trade ∧
    place + 1 = state.trades.length ∧ state.currentPosition = some trade.direction) ∧
  state.opened = state.closed + (if state.openTrade.isSome then 1 else 0) ∧
  state.signalsSeen = state.opened + state.skippedPyramid + state.skippedFilter ∧
  state.trades.IsChain Follows

/-- What a branch keeps: `bar` is the last at which it was filled. -/
structure Kept (bar : Nat) (state : BranchState Stamp Price) : Prop extends Counted state where
  flat : state.openTrade = none → state.currentPosition = none
  balance : state.opened = state.closed + if state.openTrade.isSome then 1 else 0
  order : state.trades.IsChain Follows
  latest : ∀ trade ∈ state.trades.getLast?, trade.entryIndex ≤ bar ∧ (state.openTrade = none →
    ∃ exit, trade.exitIndex = some exit ∧ trade.entryIndex ≤ exit ∧ exit ≤ bar)

variable {bar : Nat}

theorem Kept.later {next : Nat} (kept : Kept bar state) (later : bar ≤ next) : Kept next state := by
  refine ⟨kept.toCounted, kept.flat, kept.balance, kept.order, fun trade last => ?_⟩
  obtain ⟨entered, closed⟩ := kept.latest trade last
  refine ⟨entered.trans later, fun none_ => ?_⟩
  obtain ⟨exit, is, behind, before⟩ := closed none_
  exact ⟨exit, is, behind, before.trans later⟩

theorem Kept.recount (kept : Kept bar state) (seen pyramid filter : Nat) :
    Kept bar
      { state with signalsSeen := seen, skippedPyramid := pyramid, skippedFilter := filter } :=
  ⟨⟨kept.opened, kept.closed, kept.sold, kept.last⟩, kept.flat, kept.balance, kept.order, kept.latest⟩

theorem Kept.close (kept : Kept bar state) (later : bar ≤ fill.index) :
    Kept fill.index (state.closeTrade fill) ∧ (state.closeTrade fill).openTrade = none := by
  have counted := kept.toCounted.close fill
  rcases closeTrade_cases kept.toCounted fill with ⟨none_, same⟩ | ⟨front, trade, opened, trades, -, same⟩
  · rw [same]
    exact ⟨kept.later later, none_⟩
  · have balance := kept.balance
    have order := kept.order
    obtain ⟨entered, -⟩ := kept.latest trade (by rw [trades, List.getLast?_concat]; rfl)
    rw [trades, List.isChain_append] at order
    rw [opened] at balance
    rw [same] at counted ⊢
    refine ⟨⟨counted, fun _ => rfl, balance, ?_, fun other last => ?_⟩, rfl⟩
    · exact List.isChain_append.mpr ⟨order.1, .singleton _, fun earlier last next first => by
        cases first
        exact order.2.2 earlier last trade rfl⟩
    · rw [List.getLast?_concat] at last
      cases last
      exact ⟨entered.trans later, fun _ => ⟨fill.index, rfl, entered.trans later, Nat.le_refl _⟩⟩

theorem Kept.add (kept : Kept bar state) (later : bar ≤ fill.index) (none_ : state.openTrade = none)
    (direction : Side) : Kept fill.index (state.addTrade direction fill) where
  toCounted := kept.toCounted.add direction fill
  flat := fun impossible => by cases impossible
  balance := by
    have balance := kept.balance
    rw [none_] at balance
    exact congrArg (· + 1) balance
  order := by
    refine List.isChain_append.mpr ⟨kept.order, .singleton _, fun trade last next first => ?_⟩
    cases first
    obtain ⟨exit, is, behind, before⟩ := (kept.latest trade last).2 none_
    exact ⟨exit, is, behind, before.trans later⟩
  latest := by
    intro trade last
    rw [BranchState.addTrade, List.getLast?_concat] at last
    cases last
    exact ⟨Nat.le_refl _, fun impossible => by cases impossible⟩

/-- **Guidance that a branch can follow**: it opens a trade only when no other is left, and otherwise the
signal is in the direction of the position or held back by the filter. -/
def Orderly (side : Side) (current : Option Side) (guidance : Guidance) (blocked : Bool) : Prop :=
  (guidance.shouldOpen = true ∧ guidance.openDirection.isSome ∧
    (current = none ∨ guidance.shouldClose = true)) ∨
  (guidance.shouldOpen = false ∧
    ((guidance.shouldClose = false ∧ current = some side) ∨ blocked = true))

/-- Every signal that was seen has opened a trade or is counted as skipped. -/
def Tallied (state : BranchState Stamp Price) : Prop :=
  state.signalsSeen = state.opened + state.skippedPyramid + state.skippedFilter

theorem closeTrade_counters (state : BranchState Stamp Price) (fill : Fill Stamp Price) :
    (state.closeTrade fill).signalsSeen = state.signalsSeen ∧
      (state.closeTrade fill).opened = state.opened ∧
      (state.closeTrade fill).skippedPyramid = state.skippedPyramid ∧
      (state.closeTrade fill).skippedFilter = state.skippedFilter := by
  unfold BranchState.closeTrade
  split <;> exact ⟨rfl, rfl, rfl, rfl⟩

/-- **A branch stays in order** when it follows such guidance at a later bar. -/
theorem Kept.apply (kept : Kept bar state) (tallied : Tallied state) (later : bar ≤ fill.index)
    {side : Side} {guidance : Guidance} {blocked : Bool}
    (orderly : Orderly side state.currentPosition guidance blocked) :
    Kept fill.index (state.apply side guidance blocked fill) ∧
      Tallied (state.apply side guidance blocked fill) := by
  obtain ⟨shouldClose, shouldOpen, openDirection⟩ := guidance
  have seenKept := kept.recount (state.signalsSeen + 1) state.skippedPyramid state.skippedFilter
  unfold BranchState.apply
  dsimp only
  generalize seen_ : { state with signalsSeen := state.signalsSeen + 1 } = seen at seenKept ⊢
  generalize closed_ : (if shouldClose = true then seen.closeTrade fill else seen) = closed
  have closedKept : Kept fill.index closed := by
    rw [← closed_]
    split
    · exact (seenKept.close later).1
    · exact seenKept.later later
  have counters : closed.signalsSeen = closed.opened + closed.skippedPyramid + closed.skippedFilter + 1 := by
    obtain ⟨signals, opened, pyramid, filter⟩ := closeTrade_counters seen fill
    have counts : seen.signalsSeen = seen.opened + seen.skippedPyramid + seen.skippedFilter + 1 := by
      rw [← seen_]
      exact congrArg (· + 1) tallied
    rw [← closed_]
    split
    · omega
    · exact counts
  rcases orderly with ⟨opens, directed, free⟩ | ⟨stays, counted⟩
  · obtain ⟨direction, rfl⟩ := Option.isSome_iff_exists.mp directed
    cases opens
    have none_ : closed.openTrade = none := by
      rw [← closed_]
      split
      · exact (seenKept.close later).2
      · rename_i stays
        rw [← seen_]
        exact kept.toCounted.noTrade (free.resolve_right stays)
    exact ⟨closedKept.add (Nat.le_refl _) none_ direction, by
      show closed.signalsSeen = closed.opened + 1 + closed.skippedPyramid + closed.skippedFilter
      omega⟩
  · cases stays
    dsimp only
    split_ifs with pyramid filter
    · exact ⟨closedKept.recount _ _ _, by
        show closed.signalsSeen = closed.opened + (closed.skippedPyramid + 1) + closed.skippedFilter
        omega⟩
    · exact ⟨closedKept.recount _ _ _, by
        show closed.signalsSeen = closed.opened + closed.skippedPyramid + (closed.skippedFilter + 1)
        omega⟩
    · rcases counted with ⟨rfl, same⟩ | blocked
      · simp [same] at pyramid
      · exact absurd blocked filter

theorem consistent_of_kept (kept : Kept bar state) (tallied : Tallied state) : Consistent state := by
  refine ⟨⟨kept.toCounted.noTrade, kept.flat⟩, fun place opened => ?_, kept.balance, tallied, kept.order⟩
  obtain ⟨front, trade, trades, rfl, -, position⟩ := kept.last place opened
  exact ⟨trade, by rw [trades, List.getLast?_concat], by rw [trades, List.length_append]; rfl, position⟩

/-! ### What a branch is told -/

theorem orderly_baseline (side : Side) (current : Option Side) :
    Orderly side current (baselineDecision side current) false := by
  rcases current with _ | _ | _ <;> cases side <;> simp [Orderly, baselineDecision]

variable {Value : Type}

theorem predict_cases (predictor : XGBPredictor Value) (timestamp : Bytes) (payload : Payload Value)
    (current : Option Side) :
    ((predictor.predict timestamp payload current).shouldOpen = false ∧
      (predictor.predict timestamp payload current).shouldClose = false) ∨
    ∃ side result prob, XGBPredictor.sideOf (payload.direction.getD 0) = .ok side ∧
      predictor.predict timestamp payload current = predictor.guide result side prob current := by
  unfold XGBPredictor.predict
  dsimp only
  cases known : XGBPredictor.sideOf (payload.direction.getD 0) with
  | error text => exact .inl ⟨rfl, rfl⟩
  | ok side =>
    dsimp only
    cases predictor.score payload.features side with
    | error text => exact .inl ⟨rfl, rfl⟩
    | ok prob => exact .inr ⟨side, _, prob, rfl, rfl⟩

theorem signalSide_of_sideOf {signal : RawSignal Stamp} {side : Side}
    (known : XGBPredictor.sideOf signal.direction = .ok side) : signalSide signal = side := by
  unfold XGBPredictor.sideOf at known
  unfold signalSide
  split_ifs at known ⊢ <;> cases known <;> rfl

/-- **The guidance of the model** can be followed, also where it is an error. -/
theorem orderly_predict (predictor : XGBPredictor Value) (timestamp : Bytes) (signal : RawSignal Stamp)
    (features : List (Bytes × Value)) (current : Option Side) :
    Orderly (signalSide signal) current
      (guidanceOf (predictor.predict timestamp (payloadOf signal features) current))
      ((baselineDecision (signalSide signal) current).shouldOpen &&
        !(predictor.predict timestamp (payloadOf signal features) current).shouldOpen) := by
  rcases predict_cases predictor timestamp (payloadOf signal features) current with
    ⟨stays, holds⟩ | ⟨side, result, prob, known, guides⟩
  · rw [guidanceOf, stays, holds]
    generalize signalSide signal = side
    rcases current with _ | _ | _ <;> cases side <;> simp [Orderly, baselineDecision]
  · rw [guides, signalSide_of_sideOf known, guidanceOf, XGBPredictor.guide]
    dsimp only
    generalize predictor.threshold.lt prob = filterPass
    rcases current with _ | _ | _ <;> cases side <;> cases filterPass <;>
      simp [Orderly, baselineDecision]

/-! ### Bars in order of time -/

section Sorted

variable [LinearOrder Stamp] {candles : List (Candle Stamp Price)}

theorem tsIndex_mono (sorted : candles.Pairwise fun c later => c.timestamp ≤ later.timestamp)
    {early late_ : Stamp} (before : early ≤ late_) {i j : Nat} (first : tsIndex candles early = some i)
    (second : tsIndex candles late_ = some j) : i ≤ j := by
  obtain ⟨c, here, rfl⟩ := candle_of_tsIndex first
  obtain ⟨d, there, rfl⟩ := candle_of_tsIndex second
  by_contra behind
  obtain ⟨inside, rfl⟩ := List.getElem?_eq_some_iff.mp here
  obtain ⟨also, rfl⟩ := List.getElem?_eq_some_iff.mp there
  have back := List.pairwise_iff_getElem.mp sorted j i also inside (by omega)
  rw [le_antisymm before back, second] at first
  cases first
  exact behind (Nat.le_refl _)

variable (buildAt : Nat → Option (List (Bytes × Value))) (predictor : XGBPredictor Value)
  (timestamp : Bytes)

def InGoodOrder (bar : Nat) (state : Comparison Stamp Price) : Prop :=
  (Kept bar state.unfiltered ∧ Tallied state.unfiltered) ∧ Kept bar state.filtered ∧ Tallied state.filtered

theorem inGoodOrder_compareSignal {state : Comparison Stamp Price} (good : InGoodOrder bar state)
    {signal : RawSignal Stamp} {index : Nat} (found : tsIndex candles signal.timestamp = some index)
    (later : bar ≤ index + 1) :
    InGoodOrder (index + 1) (compareSignal candles buildAt (predictor.predict timestamp) state signal) := by
  obtain ⟨⟨plainKept, plainTallied⟩, scoredKept, scoredTallied⟩ := good
  unfold compareSignal
  rw [found]
  dsimp only
  have filled : bar ≤ (fillOf candles signal index).index := later
  have plain := plainKept.apply plainTallied filled (orderly_baseline (signalSide signal) _)
  cases buildAt index with
  | none => exact ⟨plain, scoredKept.later later, scoredTallied⟩
  | some features =>
    exact ⟨plain, scoredKept.apply scoredTallied filled
      (orderly_predict predictor timestamp signal features _)⟩

theorem inGoodOrder_foldl (sorted : candles.Pairwise fun c later => c.timestamp ≤ later.timestamp)
    (signals : List (RawSignal Stamp)) (ordered : InOrder signals) {state : Comparison Stamp Price}
    (good : InGoodOrder bar state)
    (later : ∀ signal ∈ signals, ∀ index, tsIndex candles signal.timestamp = some index → bar ≤ index + 1) :
    ∃ last, InGoodOrder last
      (signals.foldl (compareSignal candles buildAt (predictor.predict timestamp)) state) := by
  induction signals generalizing bar state with
  | nil => exact ⟨bar, good⟩
  | cons signal rest ih =>
    obtain ⟨first, behind⟩ := List.pairwise_cons.mp ordered
    obtain ⟨here, others⟩ := List.forall_mem_cons.mp later
    cases found : tsIndex candles signal.timestamp with
    | none =>
      have same : compareSignal candles buildAt (predictor.predict timestamp) state signal =
          { state with skippedMissingCandle := state.skippedMissingCandle + 1 } := by
        rw [compareSignal, found]
      rw [List.foldl_cons, same]
      exact ih behind good others
    | some index =>
      refine ih behind (inGoodOrder_compareSignal buildAt predictor timestamp good found (here index found))
        fun other member next is => ?_
      exact Nat.succ_le_succ (tsIndex_mono sorted (first other member) found is)

/-- **Branches in good order.** Over bars in order of time, whatever the model says: after each of the
signals, which are in order of time as well, both branches are in good order. -/
theorem consistent_of_sorted (sorted : candles.Pairwise fun c later => c.timestamp ≤ later.timestamp)
    {signals : List (RawSignal Stamp)} (ordered : InOrder signals) {processed : List (RawSignal Stamp)}
    (first : processed <+: signals) :
    Consistent (runComparison candles buildAt (predictor.predict timestamp) processed).unfiltered ∧
      Consistent (runComparison candles buildAt (predictor.predict timestamp) processed).filtered := by
  have fresh : Kept 0 ({} : BranchState Stamp Price) :=
    ⟨counted_initial, fun _ => rfl, rfl, .nil, fun _ impossible => by cases impossible⟩
  have initial : InGoodOrder 0 ({} : Comparison Stamp Price) := ⟨⟨fresh, rfl⟩, fresh, rfl⟩
  obtain ⟨last, ⟨plain, plainTallied⟩, scored, scoredTallied⟩ :=
    inGoodOrder_foldl buildAt predictor timestamp sorted processed (ordered.sublist first.sublist)
      initial fun _ _ _ _ => Nat.zero_le _
  exact ⟨consistent_of_kept plain plainTallied, consistent_of_kept scored scoredTallied⟩

end Sorted

/-- A buy and the sell that reverses it, scored by the model. -/
theorem consistent_of_sorted_buyThenSell :
    plainCandles.Pairwise (fun c later => c.timestamp ≤ later.timestamp) ∧ InOrder buyThenSell ∧
      Consistent (runComparison plainCandles (fun _ => some plainFeatures) (surePredictor.predict [])
        buyThenSell).filtered := by
  have sorted : plainCandles.Pairwise fun c later => c.timestamp ≤ later.timestamp := by decide
  have ordered : InOrder buyThenSell := by
    unfold InOrder
    decide
  exact ⟨sorted, ordered, (consistent_of_sorted _ surePredictor [] sorted ordered List.prefix_rfl).2⟩

/-- **Bars that are not in order of time**: the sell leaves the trade of the buy on the second bar, and the
buy has entered it on the third. -/
theorem not_consistent_reversed :
    InOrder buyThenSell ∧
      ¬ Consistent (runComparison plainCandles.reverse (fun _ => some plainFeatures)
        (surePredictor.predict []) buyThenSell).unfiltered := by
  constructor
  · unfold InOrder
    decide
  · rintro ⟨-, -, -, -, order⟩
    obtain ⟨exit, is, behind, -⟩ := List.isChain_cons_cons.mp order |>.1
    cases is
    exact absurd behind (by decide)

/-! ### The drawdown -/

section Drawdown

variable [Field K] [LinearOrder K]

/-- One turn of the drawdown loop of the service (`apps/backtester/app.py`). -/
def Equity.addPnl (equity : Equity K) (pnl : K) : Equity K :=
  let cumulativePnl := equity.cumulative + pnl
  let peakPnl := if equity.peak < cumulativePnl then cumulativePnl else equity.peak
  let drawdown := peakPnl - cumulativePnl
  ⟨peakPnl, cumulativePnl, if equity.maxDD < drawdown then drawdown else equity.maxDD⟩

def serviceDrawdown (pnlValues : List K) : K :=
  (pnlValues.foldl Equity.addPnl ⟨0, 0, 0⟩).maxDD

/-- The points of the equity curve: the sums of the first returns. -/
def levels (pnls : List K) : Set K :=
  {level | ∃ i ≤ pnls.length, level = (pnls.take i).sum}

/-- How far the curve falls from a point to a later one. -/
def falls (pnls : List K) : Set K :=
  {fall | ∃ i j, i ≤ j ∧ j ≤ pnls.length ∧ fall = (pnls.take i).sum - (pnls.take j).sum}

omit [LinearOrder K] in
theorem sum_take_concat (pnls : List K) (pnl : K) (i : Nat) :
    ((pnls ++ [pnl]).take i).sum = if i ≤ pnls.length then (pnls.take i).sum else pnls.sum + pnl := by
  split
  · rename_i inside
    rw [List.take_append_of_le_length inside]
  · rw [List.take_of_length_le (by simp; omega), List.sum_append, List.sum_singleton]

omit [LinearOrder K] in
theorem levels_concat (pnls : List K) (pnl : K) :
    levels (pnls ++ [pnl]) = levels pnls ∪ {pnls.sum + pnl} := by
  ext level
  simp only [levels, Set.mem_ofPred_eq, Set.mem_union, Set.mem_singleton_iff, List.length_append,
    List.length_singleton, sum_take_concat]
  constructor
  · rintro ⟨i, -, rfl⟩
    split
    · exact .inl ⟨i, ‹_›, rfl⟩
    · exact .inr rfl
  · rintro (⟨i, inside, rfl⟩ | rfl)
    · exact ⟨i, Nat.le_succ_of_le inside, (if_pos inside).symm⟩
    · exact ⟨_, Nat.le_refl _, (if_neg (Nat.not_succ_le_self _)).symm⟩

omit [LinearOrder K] in
theorem falls_concat (pnls : List K) (pnl : K) :
    falls (pnls ++ [pnl]) =
      falls pnls ∪ Set.image (fun level => level - (pnls.sum + pnl)) (levels (pnls ++ [pnl])) := by
  ext fall
  simp only [falls, levels, Set.mem_ofPred_eq, Set.mem_union, Set.mem_image, List.length_append,
    List.length_singleton, sum_take_concat]
  constructor
  · rintro ⟨i, j, before, inside, rfl⟩
    by_cases early : j ≤ pnls.length
    · rw [if_pos early, if_pos (before.trans early)]
      exact .inl ⟨i, j, before, early, rfl⟩
    · rw [if_neg early]
      exact .inr ⟨_, ⟨i, before.trans inside, rfl⟩, rfl⟩
  · rintro (⟨i, j, before, early, rfl⟩ | ⟨_, ⟨i, inside, rfl⟩, rfl⟩)
    · refine ⟨i, j, before, Nat.le_succ_of_le early, ?_⟩
      rw [if_pos early, if_pos (before.trans early)]
    · refine ⟨i, pnls.length + 1, inside, Nat.le_refl _, ?_⟩
      rw [if_neg (Nat.not_succ_le_self pnls.length)]

theorem addPnl_eq_add : Equity.addPnl (K := K) = Equity.add := by
  funext equity pnl
  simp only [Equity.addPnl, Equity.add, max_def_lt]

variable [IsStrictOrderedRing K]

/-- **The loop follows the curve**: its value, its peak and its deepest fall so far. -/
theorem foldl_add (pnls : List K) :
    (pnls.foldl Equity.add ⟨0, 0, 0⟩).cumulative = pnls.sum ∧
      IsGreatest (levels pnls) (pnls.foldl Equity.add ⟨0, 0, 0⟩).peak ∧
      IsGreatest (falls pnls) (pnls.foldl Equity.add ⟨0, 0, 0⟩).maxDD := by
  induction pnls using List.reverseRecOn with
  | nil =>
    refine ⟨rfl, ⟨⟨0, Nat.le_refl _, rfl⟩, ?_⟩, ⟨⟨0, 0, Nat.le_refl _, Nat.le_refl _, by simp⟩, ?_⟩⟩
    · rintro level ⟨i, -, rfl⟩
      simp
    · rintro fall ⟨i, j, -, -, rfl⟩
      simp
  | append_singleton pnls pnl ih =>
    rw [List.foldl_append, List.foldl_cons, List.foldl_nil]
    obtain ⟨value, peak, deepest⟩ := ih
    generalize pnls.foldl Equity.add ⟨0, 0, 0⟩ = equity at value peak deepest ⊢
    have newPeak : IsGreatest (levels (pnls ++ [pnl])) (max equity.peak (pnls.sum + pnl)) := by
      rw [levels_concat]
      exact peak.union isGreatest_singleton
    have drop : Monotone fun level : K => level - (pnls.sum + pnl) :=
      fun _ _ below => sub_le_sub_right below _
    simp only [Equity.add, value]
    refine ⟨by simp, newPeak, ?_⟩
    rw [falls_concat]
    exact deepest.union (drop.map_isGreatest newPeak)

/-- **The drawdown is the deepest fall** of the equity curve, from one of its points to the same or a later
one, and the loop of the service computes it as well. -/
theorem maxDrawdown_isGreatest (pnls : List K) :
    IsGreatest (falls pnls) (maxDrawdown pnls) ∧ serviceDrawdown pnls = maxDrawdown pnls := by
  refine ⟨(foldl_add pnls).2.2, ?_⟩
  rw [serviceDrawdown, addPnl_eq_add]
  rfl

theorem maxDrawdown_isGreatest_twoFalls :
    maxDrawdown ([3, -5, 4, -1] : List ℚ) = 5 ∧ IsGreatest (falls ([3, -5, 4, -1] : List ℚ)) 5 := by
  have deepest : maxDrawdown ([3, -5, 4, -1] : List ℚ) = 5 := by decide +kernel
  have greatest := (maxDrawdown_isGreatest ([3, -5, 4, -1] : List ℚ)).1
  rw [deepest] at greatest
  exact ⟨deepest, greatest⟩

end Drawdown

end ExecRelay.Backtest
