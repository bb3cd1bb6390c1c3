/-
**What the uplift measures.**

With a filter that passes every signal it is asked about, the two branches are given the same guidance.
They still part where the filter is not asked: a signal whose bar lacks a feature goes to the unfiltered
branch alone.

So the report shows two equal branches exactly if every signal that has a bar has its features
(`equal_iff`), provided that there is a report.
-/

import ExecRelay.Backtest.Lookahead
import Mathlib.Algebra.Order.Ring.Rat

namespace ExecRelay.Backtest

open Lib
open Predictor

variable {Stamp K : Type}

/-! ### The unfiltered branch -/

section Branches

variable [DecidableEq Stamp] (candles : List (Candle Stamp K))

def plainReplay (signals : List (RawSignal Stamp)) : BranchState Stamp K :=
  signals.foldl (fun state signal =>
    match tsIndex candles signal.timestamp with
    | none => state
    | some index => state.apply (signalSide signal)
        (baselineDecision (signalSide signal) state.currentPosition) false
        (fillOf candles signal index)) {}

variable {Value : Type} (buildAt : Nat → Option (List (Bytes × Value)))
  (predict : Payload Value → Option Side → Prediction)

theorem runComparison_unfiltered (signals : List (RawSignal Stamp)) :
    (runComparison candles buildAt predict signals).unfiltered = plainReplay candles signals := by
  unfold runComparison plainReplay
  refine (List.foldl_hom Comparison.unfiltered fun state signal => ?_).symm
  unfold compareSignal
  cases tsIndex candles signal.timestamp with
  | none => rfl
  | some index =>
    dsimp only
    cases buildAt index <;> rfl

/-! ### Signals without features -/

def isIncomplete (signal : RawSignal Stamp) : Bool :=
  (tsIndex candles signal.timestamp).any fun index => (buildAt index).isNone

/-- **The branches have seen** equally many signals, but for those without features. -/
theorem seen_foldl (signals : List (RawSignal Stamp)) (state : Comparison Stamp K) :
    let last := signals.foldl (compareSignal candles buildAt predict) state
    last.unfiltered.signalsSeen + state.filtered.signalsSeen =
      last.filtered.signalsSeen + state.unfiltered.signalsSeen +
        signals.countP (isIncomplete candles buildAt) := by
  induction signals generalizing state with
  | nil => exact Nat.add_comm _ _
  | cons signal rest ih =>
    have behind := ih (compareSignal candles buildAt predict state signal)
    rw [List.foldl_cons, List.countP_cons]
    generalize (rest.foldl (compareSignal candles buildAt predict)
      (compareSignal candles buildAt predict state signal)) = last at behind ⊢
    have incomplete : isIncomplete candles buildAt signal =
        (tsIndex candles signal.timestamp).any fun index => (buildAt index).isNone := rfl
    unfold compareSignal at behind
    cases found : tsIndex candles signal.timestamp with
    | none =>
      simp only [found] at behind incomplete
      simp only [incomplete, Option.any_none, Bool.false_eq_true, if_false]
      exact behind
    | some index =>
      simp only [found, Option.any_some] at behind incomplete
      rw [incomplete]
      cases features : buildAt index with
      | none =>
        simp only [features, BranchState.apply_signalsSeen] at behind
        simp only [Option.isNone_none, if_true]
        omega
      | some values =>
        simp only [features, BranchState.apply_signalsSeen, applyFiltered] at behind
        simp only [Option.isNone_some, Bool.false_eq_true, if_false]
        omega

/-! ### Lockstep -/

def PassesWith (signal : RawSignal Stamp) (features : List (Bytes × Value)) : Prop :=
  ∀ position, baselineDecision (signalSide signal) position =
    ⟨(predict (payloadOf signal features) position).shouldClose,
      (predict (payloadOf signal features) position).shouldOpen,
      (predict (payloadOf signal features) position).openDirection⟩

/-- **Two branches in lockstep**: every signal that has a bar is scored, and passes. -/
theorem lockstep {signals : List (RawSignal Stamp)}
    (passes : ∀ signal ∈ signals, ∀ index, tsIndex candles signal.timestamp = some index →
      ∃ features, buildAt index = some features ∧ PassesWith predict signal features)
    {state : Comparison Stamp K} (same : state.filtered = state.unfiltered) :
    (signals.foldl (compareSignal candles buildAt predict) state).filtered =
      (signals.foldl (compareSignal candles buildAt predict) state).unfiltered := by
  induction signals generalizing state with
  | nil => exact same
  | cons signal rest ih =>
    obtain ⟨here, behind⟩ := List.forall_mem_cons.mp passes
    refine ih behind ?_
    unfold compareSignal
    cases found : tsIndex candles signal.timestamp with
    | none => exact same
    | some index =>
      obtain ⟨features, complete, passed⟩ := here index found
      dsimp only
      rw [complete, same]
      show applyFiltered _ _ _ _ = BranchState.apply _ _ _ _ _
      unfold applyFiltered
      rw [passed]
      dsimp only
      rw [Bool.and_not_self]

end Branches

/-! ### The report -/

section Report

variable [Field K] [LinearOrder K]

def featuresAt (sqrt : K → K) (calendar : Calendar Stamp) (candles : List (Candle Stamp K)) (index : Nat) :
    Except Fault (Option (List (Bytes × K))) := do
  let fb ← FeatureBuilder.init sqrt candles 12 48
  fb.buildAt calendar index

theorem featuresAt_eq_ok_iff {sqrt : K → K} {calendar : Calendar Stamp}
    {candles : List (Candle Stamp K)} {fb : FeatureBuilder Stamp K}
    (built : FeatureBuilder.init sqrt candles 12 48 = .ok fb) {index : Nat}
    {features : List (Bytes × K)} :
    featuresAt sqrt calendar candles index = .ok (some features) ↔
      fb.features calendar index = some features := by
  rw [featuresAt, built]
  show fb.buildAt calendar index = _ ↔ _
  unfold FeatureBuilder.features
  cases fb.buildAt calendar index with
  | error fault => simp
  | ok answer => simp

variable [DecidableEq Stamp] (sqrt : K → K) (calendar : Calendar Stamp) (scorer : Scorer K)
  (candles : List (Candle Stamp K)) (signals : List (RawSignal Stamp))

/-- **The filter passes each signal that it scores**: its decisions are those of the rules. -/
def Passes : Prop :=
  ∀ signal ∈ signals, ∀ index, tsIndex candles signal.timestamp = some index →
    ∀ features, featuresAt sqrt calendar candles index = .ok (some features) →
      PassesWith scorer.predict signal features

/-- The report shows the same trades and statistics twice, and no uplift. -/
def ShowsEqual (report : ComparisonReport Stamp K) : Prop :=
  report.filteredTrades = report.unfilteredTrades ∧ report.filtered = report.unfiltered ∧
    report.upliftPct = 0

def Complete : Prop :=
  ∀ signal ∈ signals, ∀ index, tsIndex candles signal.timestamp = some index →
    ∃ features, featuresAt sqrt calendar candles index = .ok (some features)

variable {sqrt calendar scorer candles signals}

omit [DecidableEq Stamp] in
theorem signalsSeen_of_branchStats {state : BranchState Stamp K} {stats : BranchStats K}
    (computed : branchStats state = .ok stats) : stats.signalsSeen = state.signalsSeen := by
  simp only [branchStats, bind_eq_ok] at computed
  obtain ⟨pnls, -, same⟩ := computed
  cases same
  rfl

theorem complete_of_seen {fb : FeatureBuilder Stamp K}
    (built : FeatureBuilder.init sqrt candles 12 48 = .ok fb)
    (same : (runComparison candles (fb.features calendar) scorer.predict signals).filtered.signalsSeen =
      (runComparison candles (fb.features calendar) scorer.predict signals).unfiltered.signalsSeen) :
    Complete sqrt calendar candles signals := by
  have seen := seen_foldl candles (fb.features calendar) scorer.predict signals {}
  have none_ : signals.countP (isIncomplete candles (fb.features calendar)) = 0 := by
    dsimp only [runComparison] at same seen
    omega
  intro signal member index found
  have complete := List.countP_eq_zero.mp none_ signal member
  rw [isIncomplete, found, Option.any_some] at complete
  cases answer : fb.features calendar index with
  | none => exact absurd (by rw [answer]; rfl) complete
  | some features => exact ⟨features, (featuresAt_eq_ok_iff built).mpr answer⟩

/-- **Equal branches.** If the filter passes each signal that it scores, the report shows equal branches
exactly if every signal that has a bar has its features; there is no report if a close before the last is
zero, or if a closed trade of the plain replay has no entry price to divide by. -/
theorem equal_iff [IsStrictOrderedRing K] (passes : Passes sqrt calendar scorer candles signals) :
    (∃ report, comparisonReport sqrt calendar scorer candles signals = .ok report ∧ ShowsEqual report) ↔
      (∀ close ∈ (candles.map Candle.close).dropLast, close ≠ 0) ∧
        Complete sqrt calendar candles signals ∧ Priced (plainReplay candles signals) := by
  rw [← FeatureBuilder.init_isOk_iff (by decide : 0 < 12) (by decide : 0 < 48)]
  constructor
  · rintro ⟨report, ran, -, stats, -⟩
    simp only [comparisonReport, bind_eq_ok] at ran
    obtain ⟨state, ends, plain, unfiltered, scored, filtered, same⟩ := ran
    cases same
    obtain ⟨fb, built, rfl⟩ := replay_eq_ok_iff.mp ends
    refine ⟨⟨fb, built⟩, ?_, ?_⟩
    · exact complete_of_seen built (by
        rw [← signalsSeen_of_branchStats unfiltered, ← signalsSeen_of_branchStats filtered]
        exact congrArg BranchStats.signalsSeen stats)
    · rw [← runComparison_unfiltered candles (fb.features calendar) scorer.predict]
      exact branchStats_isOk_iff.mp ⟨plain, unfiltered⟩
  · rintro ⟨⟨fb, built⟩, complete, priced⟩
    have same : (runComparison candles (fb.features calendar) scorer.predict signals).filtered =
        (runComparison candles (fb.features calendar) scorer.predict signals).unfiltered := by
      refine lockstep candles (fb.features calendar) scorer.predict ?_ rfl
      intro signal member index found
      obtain ⟨features, answer⟩ := complete signal member index found
      exact ⟨features, (featuresAt_eq_ok_iff built).mp answer,
        passes signal member index found features answer⟩
    rw [← runComparison_unfiltered candles (fb.features calendar) scorer.predict] at priced
    obtain ⟨stats, plain⟩ := branchStats_isOk_iff.mpr priced
    simp only [comparisonReport, bind_eq_ok]
    refine ⟨_, ⟨_, replay_eq built signals, stats, plain, stats, ?_, rfl⟩, ?_, rfl, sub_self _⟩
    · rw [same]
      exact plain
    · exact congrArg BranchState.trades same

theorem passes_passing (sqrt : K → K) (calendar : Calendar Stamp) (candles : List (Candle Stamp K))
    (signals : List (RawSignal Stamp)) :
    Passes sqrt calendar (Scorer.passing K) candles signals := by
  intro signal _ _ _ features _ position
  have side : signalSide signal =
      if (payloadOf signal features).direction = some 1 then .long else .short := by
    simp only [signalSide, payloadOf, Option.some.injEq]
  rw [side]
  rfl

end Report

/-! ### A day of bars, and the first of them -/

/-- The signals at the end of the day have their features, and the branches are equal. -/
theorem equal_iff_dayOfBars :
    Passes id fiveMinutes (Scorer.passing ℚ) dayOfBars threeSignals ∧
    (∃ report, dayReport = .ok report ∧ ShowsEqual report) ∧
    Complete id fiveMinutes dayOfBars threeSignals := by
  have passes := passes_passing id fiveMinutes dayOfBars threeSignals
  obtain ⟨report, reported, shown⟩ := exists_ok_of_any dayReport_scored
  simp only [Bool.and_eq_true, decide_eq_true_eq] at shown
  obtain ⟨⟨⟨-, trades⟩, stats⟩, uplift⟩ := shown
  have equal : ∃ report, dayReport = .ok report ∧ ShowsEqual report :=
    ⟨report, reported, trades, stats, uplift⟩
  exact ⟨passes, equal, ((equal_iff passes).mp equal).2.1⟩

def firstBars : List (Candle Nat ℚ) :=
  (List.range 4).map bar

def buyAndSell : List (RawSignal Nat) :=
  [⟨0, 1⟩, ⟨5, -1⟩]

/-- **A buy and a sell while the features warm up** are trades of the unfiltered branch alone. The trade
that is closed lost half of its price, and the report calls that an uplift. -/
theorem not_equal_warmUp :
    Passes id fiveMinutes (Scorer.passing ℚ) firstBars buyAndSell ∧
    ∃ report, comparisonReport id fiveMinutes (Scorer.passing ℚ) firstBars buyAndSell = .ok report ∧
      report.filteredTrades = [] ∧ report.unfilteredTrades.length = 2 ∧
      report.upliftPct = 1 / 2 ∧ ¬ ShowsEqual report := by
  have ran : ((comparisonReport id fiveMinutes (Scorer.passing ℚ) firstBars buyAndSell).toOption.any
      fun report => report.filteredTrades = [] && report.unfilteredTrades.length = 2 &&
        report.upliftPct = 1 / 2) = true := by
    decide +kernel
  obtain ⟨report, reported, shown⟩ := exists_ok_of_any ran
  simp only [Bool.and_eq_true, decide_eq_true_eq] at shown
  obtain ⟨⟨none_, two⟩, uplift⟩ := shown
  refine ⟨passes_passing _ _ _ _, report, reported, none_, two, uplift, ?_⟩
  rintro ⟨-, -, zero⟩
  rw [uplift] at zero
  norm_num at zero

end ExecRelay.Backtest
