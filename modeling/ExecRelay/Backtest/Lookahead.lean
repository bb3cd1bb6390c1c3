/-
**The backtest does not look ahead.**

A signal is scored with the features of its bar and filled at the open of the next one. So the run on
the bars up to `k`, with the signals of the bars before `k`, leaves both branches as the run on all bars
leaves them after those signals.

The run on the first bars also has its report if the run on all bars does: what has been closed stays as
it is (`apply_sealed`), so that each of its closed trades is one of the longer run.
-/

import ExecRelay.Backtest.Report
import Mathlib.Data.List.DropRight

namespace ExecRelay.Backtest

open Lib
open Predictor

variable {Stamp K : Type}

/-! ### Closed trades stay as they are -/

/-- A branch whose open trade has no exit price, and that has the trades closed in an earlier one. -/
structure Sealed (earlier state : BranchState Stamp K) : Prop where
  unsold : ∀ place trade, state.openTrade = some place → state.trades[place]? = some trade →
    trade.exitPrice = none
  kept : ∀ trade ∈ earlier.trades, trade.exitPrice.isSome → trade ∈ state.trades

theorem closeTrade_sealed {earlier state : BranchState Stamp K} (sealed_ : Sealed earlier state)
    (fill : Fill Stamp K) : Sealed earlier (state.closeTrade fill) := by
  unfold BranchState.closeTrade
  split
  · exact sealed_
  · rename_i place open_
    refine ⟨?_, ?_⟩
    · intro _ _ impossible
      cases impossible
    intro trade inside sold
    obtain ⟨i, here⟩ := List.mem_iff_getElem?.mp (sealed_.kept trade inside sold)
    have other : place ≠ i := by
      rintro rfl
      rw [sealed_.unsold place trade open_ here] at sold
      cases sold
    refine List.mem_iff_getElem?.mpr ⟨i, ?_⟩
    rw [List.getElem?_modify, here]
    exact congrArg some (if_neg other)

theorem addTrade_sealed {earlier state : BranchState Stamp K} (sealed_ : Sealed earlier state)
    (direction : Side) (fill : Fill Stamp K) : Sealed earlier (state.addTrade direction fill) := by
  refine ⟨?_, ?_⟩
  · intro place trade open_ here
    cases open_
    rw [BranchState.addTrade, List.getElem?_concat_length] at here
    cases here
    rfl
  · intro trade inside sold
    exact List.mem_append_left _ (sealed_.kept trade inside sold)

/-- **A signal leaves the closed trades alone.** -/
theorem apply_sealed {earlier state : BranchState Stamp K} (sealed_ : Sealed earlier state) (side : Side)
    (guidance : Guidance) (blocked : Bool) (fill : Fill Stamp K) :
    Sealed earlier (state.apply side guidance blocked fill) :=
  BranchState.apply_keeps (Sealed earlier) (fun _ _ _ _ holds => { holds with })
    (fun _ holds => closeTrade_sealed holds fill)
    (fun _ direction holds => addTrade_sealed holds direction fill) sealed_ side guidance blocked

theorem Priced.of_sealed [Field K] {earlier state : BranchState Stamp K} (sealed_ : Sealed earlier state)
    (priced : Priced state) : Priced earlier :=
  fun trade inside sold => priced trade (sealed_.kept trade inside sold) sold

section Run

variable [DecidableEq Stamp] {Value : Type} (candles : List (Candle Stamp K))
  (buildAt : Nat → Option (List (Bytes × Value))) (predict : Payload Value → Option Side → Prediction)

/-- **The trades that are closed after the first signals** are there, as they are, after all of them. -/
theorem sealed_foldl (signals rest : List (RawSignal Stamp)) :
    let first := signals.foldl (compareSignal candles buildAt predict) {}
    let all := (signals ++ rest).foldl (compareSignal candles buildAt predict) {}
    Sealed first.unfiltered all.unfiltered ∧ Sealed first.filtered all.filtered := by
  intro first all
  have start : Sealed ({} : BranchState Stamp K) {} := by
    refine ⟨?_, fun _ member _ => member⟩
    intro _ _ impossible
    cases impossible
  have grow (earlier : BranchState Stamp K) :=
    foldl_keeps candles buildAt predict (Sealed earlier)
      fun _ side guidance blocked fill holds => apply_sealed holds side guidance blocked fill
  have unfiltered := ((grow _ signals {}).1 start).unsold
  have filtered := ((grow _ signals {}).2 start).unsold
  simp only [all, List.foldl_append]
  exact ⟨(grow _ rest first).1 ⟨unfiltered, fun _ member _ => member⟩,
    (grow _ rest first).2 ⟨filtered, fun _ member _ => member⟩⟩

end Run

/-! ### The bars of the signals -/

section Bars

variable [LinearOrder Stamp]

/-- Candles in the order of their times. -/
def Increasing (candles : List (Candle Stamp K)) : Prop :=
  candles.Pairwise fun c later => c.timestamp < later.timestamp

/-- Signals in the order of their times. -/
def InOrder (signals : List (RawSignal Stamp)) : Prop :=
  signals.Pairwise fun signal later => signal.timestamp ≤ later.timestamp

variable {candles : List (Candle Stamp K)}

theorem Increasing.lt (increasing : Increasing candles) {i j : Nat} {c later : Candle Stamp K}
    (here : candles[i]? = some c) (there : candles[j]? = some later) (before : i < j) :
    c.timestamp < later.timestamp := by
  obtain ⟨inside, rfl⟩ := List.getElem?_eq_some_iff.mp here
  obtain ⟨also, rfl⟩ := List.getElem?_eq_some_iff.mp there
  exact List.pairwise_iff_getElem.mp increasing i j inside also before

variable {timestamp : Stamp} {index : Nat}

/-- **The bar of a time** is the one candle of that time. -/
theorem tsIndex_eq_some_iff (increasing : Increasing candles) :
    tsIndex candles timestamp = some index ↔
      ∃ c, candles[index]? = some c ∧ c.timestamp = timestamp := by
  constructor
  · exact candle_of_tsIndex
  · rintro ⟨c, here, rfl⟩
    cases found : tsIndex candles c.timestamp with
    | none =>
      exfalso
      rw [tsIndex, Option.map_eq_none_iff, List.getLast?_eq_none_iff] at found
      have member : (c, index) ∈ candles.zipIdx.filter fun entry => entry.1.timestamp = c.timestamp :=
        List.mem_filter.mpr ⟨List.mk_mem_zipIdx_iff_getElem?.mpr here, decide_eq_true rfl⟩
      rw [found] at member
      cases member
    | some other =>
      obtain ⟨same, there, times⟩ := candle_of_tsIndex found
      rcases Nat.lt_trichotomy index other with before | rfl | after
      · exact absurd times (increasing.lt here there before).ne'
      · rfl
      · exact absurd times (increasing.lt there here after).ne

theorem tsIndex_take (increasing : Increasing candles) {index k : Nat} (early : index < k) :
    tsIndex (candles.take k) timestamp = some index ↔ tsIndex candles timestamp = some index := by
  have first : Increasing (candles.take k) := increasing.sublist (List.take_sublist k candles)
  rw [tsIndex_eq_some_iff increasing, tsIndex_eq_some_iff first, List.getElem?_take_of_lt early]

/-- Whether the bar of a signal is before the bar `k`. -/
def isBefore (candles : List (Candle Stamp K)) (k : Nat) (signal : RawSignal Stamp) : Bool :=
  (tsIndex candles signal.timestamp).any fun index => index < k

variable {signal : RawSignal Stamp}

theorem isBefore_iff {k : Nat} :
    isBefore candles k signal = true ↔ ∃ index < k, tsIndex candles signal.timestamp = some index := by
  rw [isBefore, Option.any_eq_true]
  constructor
  · rintro ⟨index, found, before⟩
    exact ⟨index, of_decide_eq_true before, found⟩
  · rintro ⟨index, before, found⟩
    exact ⟨index, found, decide_eq_true before⟩

theorem isBefore_take (increasing : Increasing candles) (k : Nat) :
    isBefore (candles.take (k + 1)) k = isBefore candles k := by
  funext signal
  rw [Bool.eq_iff_iff, isBefore_iff, isBefore_iff]
  constructor
  · rintro ⟨index, before, found⟩
    exact ⟨index, before, (tsIndex_take increasing (Nat.lt_succ_of_lt before)).mp found⟩
  · rintro ⟨index, before, found⟩
    exact ⟨index, before, (tsIndex_take increasing (Nat.lt_succ_of_lt before)).mpr found⟩

/-- **The signals up to the last one** whose bar is before the bar `k`. -/
def upTo (candles : List (Candle Stamp K)) (k : Nat) (signals : List (RawSignal Stamp)) :
    List (RawSignal Stamp) :=
  signals.rdropWhile fun signal => !isBefore candles k signal

theorem filter_upTo (candles : List (Candle Stamp K)) (k : Nat) (signals : List (RawSignal Stamp)) :
    (upTo candles k signals).filter (isBefore candles k) = signals.filter (isBefore candles k) := by
  have rest : (signals.rtakeWhile fun signal => !isBefore candles k signal).filter
      (isBefore candles k) = [] := by
    rw [List.filter_eq_nil_iff]
    intro signal member holds
    have fails := List.mem_rtakeWhile_imp member
    rw [holds] at fails
    cases fails
  have parts : upTo candles k signals ++
      signals.rtakeWhile (fun signal => !isBefore candles k signal) = signals :=
    List.rdropWhile_append_rtakeWhile
  conv_rhs => rw [← parts]
  rw [List.filter_append, rest, List.append_nil]

/-- **Signals in order** reach a later bar only after all signals of bars before `k`. -/
theorem bar_lt_of_mem_upTo (increasing : Increasing candles) {signals : List (RawSignal Stamp)}
    (ordered : InOrder signals) {k : Nat} (member : signal ∈ upTo candles k signals)
    (found : tsIndex candles signal.timestamp = some index) : index < k := by
  have nonempty : upTo candles k signals ≠ [] := List.ne_nil_of_mem member
  obtain ⟨bar, before, lastBar⟩ : ∃ bar < k,
      tsIndex candles ((upTo candles k signals).getLast nonempty).timestamp = some bar := by
    rw [← isBefore_iff]
    have ends := List.rdropWhile_last_not _ signals nonempty
    rw [Bool.not_eq_true', Bool.not_eq_false] at ends
    exact ends
  have sorted : InOrder (upTo candles k signals) :=
    ordered.sublist (List.rdropWhile_prefix _ signals).sublist
  have notAfter := sorted.rel_getLast_of_rel_getLast_getLast member le_rfl
  by_contra late_
  obtain ⟨c, here, time⟩ := candle_of_tsIndex found
  obtain ⟨last, there, lastTime⟩ := candle_of_tsIndex lastBar
  have after := increasing.lt there here (by omega)
  rw [time, lastTime] at after
  exact absurd notAfter (not_le_of_gt after)

/-! ### Later bars cut off -/

/-- Two runs with the same branches. -/
structure SameBranches (state other : Comparison Stamp K) : Prop where
  unfiltered : state.unfiltered = other.unfiltered
  filtered : state.filtered = other.filtered

section Cut

variable {Value : Type} {candles : List (Candle Stamp K)} (increasing : Increasing candles)
  {buildAt cutBuildAt : Nat → Option (List (Bytes × Value))}
  (predict : Payload Value → Option Side → Prediction) {k : Nat}
  (settled : ∀ index < k, cutBuildAt index = buildAt index)

include increasing settled

variable {state cut : Comparison Stamp K}

/-- **One signal of a bar before `k`** finds its bar, its features and its fill among the first bars. -/
theorem compareSignal_take (same : SameBranches state cut) {signal : RawSignal Stamp}
    (before : isBefore candles k signal) :
    SameBranches (compareSignal candles buildAt predict state signal)
      (compareSignal (candles.take (k + 1)) cutBuildAt predict cut signal) := by
  obtain ⟨index, early, found⟩ := isBefore_iff.mp before
  have also := (tsIndex_take increasing (Nat.lt_succ_of_lt early)).mpr found
  have fill : fillOf (candles.take (k + 1)) signal index = fillOf candles signal index := by
    rw [fillOf, fillOf, List.getElem?_take_of_lt (Nat.succ_lt_succ early)]
  unfold compareSignal
  rw [found, also]
  dsimp only
  rw [settled index early, fill, same.unfiltered, same.filtered]
  cases buildAt index with
  | none => exact ⟨rfl, rfl⟩
  | some features => exact ⟨rfl, rfl⟩

/-- **All signals up to the bar `k`**, with the later bars cut off. -/
theorem foldl_take {signals : List (RawSignal Stamp)}
    (early : ∀ signal ∈ signals, ∀ index, tsIndex candles signal.timestamp = some index → index < k)
    (same : SameBranches state cut) :
    SameBranches (signals.foldl (compareSignal candles buildAt predict) state)
      ((signals.filter (isBefore candles k)).foldl
        (compareSignal (candles.take (k + 1)) cutBuildAt predict) cut) := by
  induction signals generalizing state cut with
  | nil => exact same
  | cons signal rest ih =>
    obtain ⟨here, behind⟩ := List.forall_mem_cons.mp early
    by_cases before : isBefore candles k signal = true
    · rw [List.filter_cons_of_pos before]
      exact ih behind (compareSignal_take increasing predict settled same before)
    · rw [List.filter_cons_of_neg before]
      refine ih behind ?_
      cases found : tsIndex candles signal.timestamp with
      | none =>
        unfold compareSignal
        rw [found]
        exact ⟨same.unfiltered, same.filtered⟩
      | some index => exact absurd (isBefore_iff.mpr ⟨index, here index found, found⟩) before

end Cut

section Lookahead

variable [Field K] [LinearOrder K] {sqrt : K → K} {calendar : Calendar Stamp} {scorer : Scorer K}

theorem replay_take {candles : List (Candle Stamp K)} (increasing : Increasing candles)
    {signals : List (RawSignal Stamp)} (ordered : InOrder signals)
    (completes : ∃ report, comparisonReport sqrt calendar scorer candles signals = .ok report) (k : Nat) :
    ∃ now cut,
      replay sqrt calendar scorer candles (upTo candles k signals) = .ok now ∧
      replay sqrt calendar scorer (candles.take (k + 1)) (signals.filter (isBefore candles k)) = .ok cut ∧
      SameBranches now cut ∧ Priced cut.unfiltered ∧ Priced cut.filtered := by
  obtain ⟨last, ends, unfiltered, filtered⟩ := comparisonReport_isOk_iff.mp completes
  obtain ⟨fb, built, rfl⟩ := replay_eq_ok_iff.mp ends
  have sized := FeatureBuilder.sized_of_init built
  have settled (index : Nat) (early : index < k) :
      (fb.take (k + 1)).features calendar index = fb.features calendar index := by
    unfold FeatureBuilder.features
    rw [FeatureBuilder.buildAt_take sized.h1Positive sized.h4Positive calendar (Nat.lt_succ_of_lt early)]
  have start : SameBranches ({} : Comparison Stamp K) {} := ⟨rfl, rfl⟩
  have same := foldl_take increasing scorer.predict settled
    (fun signal member index => bar_lt_of_mem_upTo increasing ordered member) start
  refine ⟨_, _, replay_eq built _, ?_, same, ?_⟩
  · rw [replay_eq (FeatureBuilder.init_take built k), ← filter_upTo]
    rfl
  · obtain ⟨rest, parts⟩ := List.rdropWhile_prefix (fun signal => !isBefore candles k signal) signals
    obtain ⟨plain, scored⟩ := sealed_foldl candles (fb.features calendar) scorer.predict
      (upTo candles k signals) rest
    rw [show upTo candles k signals ++ rest = signals from parts] at plain scored
    rw [← same.unfiltered, ← same.filtered]
    exact ⟨Priced.of_sealed plain unfiltered, Priced.of_sealed scored filtered⟩

/-- **The backtest does not look ahead.** The run on the bars up to `k` with the signals of the bars
before `k` has its report, and it leaves both branches as the run on all bars has them right after those
signals. Any other bars behind the bar `k` would have left them the same. -/
theorem branches_of_firstBars {candles : List (Candle Stamp K)} (increasing : Increasing candles)
    {signals : List (RawSignal Stamp)} (ordered : InOrder signals)
    (completes : ∃ report, comparisonReport sqrt calendar scorer candles signals = .ok report) (k : Nat) :
    ∃ now cut,
      replay sqrt calendar scorer candles (upTo candles k signals) = .ok now ∧
      replay sqrt calendar scorer (candles.take (k + 1)) (signals.filter (isBefore candles k)) = .ok cut ∧
      (∃ report, comparisonReport sqrt calendar scorer (candles.take (k + 1))
        (signals.filter (isBefore candles k)) = .ok report) ∧
      cut.unfiltered = now.unfiltered ∧ cut.filtered = now.filtered ∧
      ∀ others, Increasing others → others.take (k + 1) = candles.take (k + 1) →
        (∃ report, comparisonReport sqrt calendar scorer others signals = .ok report) →
        ∃ also, replay sqrt calendar scorer others (upTo others k signals) = .ok also ∧
          also.unfiltered = now.unfiltered ∧ also.filtered = now.filtered := by
  obtain ⟨now, cut, ran, cutRan, same, unfiltered, filtered⟩ :=
    replay_take increasing ordered completes k
  refine ⟨now, cut, ran, cutRan, comparisonReport_isOk_iff.mpr ⟨cut, cutRan, unfiltered, filtered⟩,
    same.unfiltered.symm, same.filtered.symm, ?_⟩
  intro others othersIncreasing firstBars othersComplete
  obtain ⟨also, othersCut, alsoRan, othersCutRan, alike, -⟩ :=
    replay_take othersIncreasing ordered othersComplete k
  have sameSignals : isBefore others k = isBefore candles k := by
    rw [← isBefore_take othersIncreasing, firstBars, isBefore_take increasing]
  rw [firstBars, sameSignals, cutRan] at othersCutRan
  cases othersCutRan
  exact ⟨also, alsoRan, alike.unfiltered.trans same.unfiltered.symm,
    alike.filtered.trans same.filtered.symm⟩

end Lookahead

end Bars

/-- **The features of a bar do not look ahead**: the builder of the bars up to `i` exists, and has the
answer for `i` that the builder of all bars has, whether these are features or not enough history. -/
theorem buildAt_of_firstBars [Field K] [LinearOrder K] {sqrt : K → K} {candles : List (Candle Stamp K)}
    {h1Factor h4Factor : Nat} {fb : FeatureBuilder Stamp K}
    (built : FeatureBuilder.init sqrt candles h1Factor h4Factor = .ok fb) (calendar : Calendar Stamp)
    {i : Nat} (inside : i < candles.length) :
    ∃ cut answer, FeatureBuilder.init sqrt (candles.take (i + 1)) h1Factor h4Factor = .ok cut ∧
      cut.buildAt calendar i = .ok answer ∧ fb.buildAt calendar i = .ok answer := by
  have sized := FeatureBuilder.sized_of_init built
  obtain ⟨answer, answered⟩ := FeatureBuilder.buildAt_isOk sized calendar inside
  refine ⟨fb.take (i + 1), answer, FeatureBuilder.init_take built i, ?_, answered⟩
  rw [FeatureBuilder.buildAt_take sized.h1Positive sized.h4Positive calendar (Nat.lt_succ_self i)]
  exact answered

/-! ### A day of bars -/

/-- Bars that go up and down in turn. -/
def bar (i : Nat) : Candle Nat ℚ where
  timestamp := 5 * i
  openPrice := if i % 2 = 0 then 1 else 2
  high := if i % 2 = 0 then 3 else 2
  low := 1
  close := if i % 2 = 0 then 2 else 1
  volume := 0

/-- A day of bars and an hour more: the last of them have all their features. -/
def dayOfBars : List (Candle Nat ℚ) :=
  (List.range 304).map bar

def fiveMinutes : Calendar Nat where
  hour := fun minutes => minutes / 60 % 24
  minute := fun minutes => minutes % 60
  weekday := fun minutes => (minutes / 1440 + 3) % 7
  month := fun _ => 1

theorem buildAt_of_firstBars_dayOfBars :
    ∃ fb cut answer, FeatureBuilder.init id dayOfBars 12 48 = .ok fb ∧
      FeatureBuilder.init id (dayOfBars.take 301) 12 48 = .ok cut ∧
      cut.buildAt fiveMinutes 300 = .ok answer ∧ fb.buildAt fiveMinutes 300 = .ok answer := by
  have begins : (FeatureBuilder.init id dayOfBars 12 48).toOption.any (fun _ => true) = true := by
    decide +kernel
  obtain ⟨fb, built, -⟩ := exists_ok_of_any begins
  obtain ⟨cut, answer, cutBuilt, cutAnswer, whole⟩ :=
    buildAt_of_firstBars built fiveMinutes (show 300 < dayOfBars.length by simp [dayOfBars])
  exact ⟨fb, cut, answer, built, cutBuilt, cutAnswer, whole⟩

def threeSignals : List (RawSignal Nat) :=
  [⟨5 * 299, 1⟩, ⟨5 * 300, -1⟩, ⟨5 * 301, 1⟩]

def dayReport : Except Fault (ComparisonReport Nat ℚ) :=
  comparisonReport id fiveMinutes (Scorer.passing ℚ) dayOfBars threeSignals

theorem dayReport_scored : (dayReport.toOption.any fun report =>
    report.scoredSignals = 3 && report.filteredTrades = report.unfilteredTrades &&
      report.filtered = report.unfiltered && report.upliftPct = 0) = true := by
  decide +kernel

theorem increasing_dayOfBars : Increasing dayOfBars := by
  rw [Increasing, dayOfBars, List.pairwise_map]
  refine List.pairwise_lt_range.imp fun {i j} before => ?_
  show 5 * i < 5 * j
  omega

/-- With the bars up to 301, the buy is closed by the sell as in the run on all bars. -/
theorem branches_of_firstBars_threeSignals :
    Increasing dayOfBars ∧ InOrder threeSignals ∧
    ∃ now cut,
      replay id fiveMinutes (Scorer.passing ℚ) dayOfBars (upTo dayOfBars 301 threeSignals) = .ok now ∧
      replay id fiveMinutes (Scorer.passing ℚ) (dayOfBars.take 302)
        (threeSignals.filter (isBefore dayOfBars 301)) = .ok cut ∧
      cut.unfiltered = now.unfiltered ∧ cut.filtered = now.filtered := by
  have ordered : InOrder threeSignals := by
    unfold InOrder
    decide
  obtain ⟨report, completes, -⟩ := exists_ok_of_any dayReport_scored
  obtain ⟨now, cut, ran, cutRan, -, unfiltered, filtered, -⟩ :=
    branches_of_firstBars increasing_dayOfBars ordered ⟨report, completes⟩ 301
  exact ⟨increasing_dayOfBars, ordered, now, cut, ran, cutRan, unfiltered, filtered⟩

end ExecRelay.Backtest
