/-
**On which side a level lies** (`ExecuteSignal` of `ExecRelay.mq5`).

A distance in pips is put below the ask for the commands `buy`, `buystop` and `buylimit`, and above the
bid for all others. For orders at the market that is the losing side. The level of a pending order is
taken from the quote and not from its entry, and `newsltplong`, which amends long positions, is among the
others.
-/

import Mathlib.Tactic.Linarith
import Mathlib.Tactic.Positivity
import ExecRelay.EA.Closing

namespace ExecRelay.EA

open Lib
open Lib.Program (OnlyUnder)

/-- The commands that have levels, with the direction of their order or of the positions they amend. -/
def directions : List (Bytes × PositionType) :=
  [(lit "buy", .buy), (lit "sell", .sell), (lit "buystop", .buy), (lit "sellstop", .sell),
    (lit "buylimit", .buy), (lit "selllimit", .sell), (lit "newsltplong", .buy),
    (lit "newsltpshort", .sell)]

/-- What the terminal says about a symbol. -/
structure Quote where
  ask : ℚ
  bid : ℚ
  point : ℚ
  digits : Int

namespace Quote

variable (quote : Quote)

def pip : ℚ :=
  if quote.digits = 3 ∨ quote.digits = 5 then 10 * quote.point else quote.point

def Answers : (op : Op ℚ) → Answer op → Prop
  | .symbolInfoDouble _ .ask, answer => answer = quote.ask
  | .symbolInfoDouble _ .bid, answer => answer = quote.bid
  | .symbolInfoDouble _ .point, answer => answer = quote.point
  | .symbolDigits _, answer => answer = quote.digits
  | _, _ => True

/-- The levels that the terminal derives for a command. -/
def levels (cmd params : Bytes) : Request ℚ :=
  deriveLevels Doubles.exact (isBuyCommand cmd) quote.ask quote.bid quote.pip
    (readRequest Doubles.exact params)

/-- The price that the order is sent at: the entry of a pending order, and the quote of any other. -/
def sentAt (cmd params : Bytes) (side : PositionType) : ℚ :=
  if (pendingType cmd).isSome then readEntry Doubles.exact params
  else if side = .buy then quote.ask else quote.bid

/-- The stop loss of a pending order is far enough from the quote, and that of long positions is inside
of the spread. -/
def StopFits (cmd params : Bytes) (side : PositionType) : Prop :=
  let distance := pDouble Doubles.exact params "sl_pips" * quote.pip
  let entry := readEntry Doubles.exact params
  if (pendingType cmd).isSome then
    if side = .buy then quote.ask - entry < distance else entry - quote.bid < distance
  else cmd = lit "newsltplong" → distance < quote.ask - quote.bid

/-- The take profit of a pending order is far enough from the quote, and there are no long positions to
amend. -/
def ProfitFits (cmd params : Bytes) (side : PositionType) : Prop :=
  let distance := pDouble Doubles.exact params "tp_pips" * quote.pip
  let entry := readEntry Doubles.exact params
  if (pendingType cmd).isSome then
    if side = .buy then entry - quote.ask < distance else quote.bid - entry < distance
  else cmd ≠ lit "newsltplong"

end Quote

def Losing : PositionType → ℚ → ℚ → Prop
  | .buy, price, level => level < price
  | .sell, price, level => price < level

def Winning : PositionType → ℚ → ℚ → Prop
  | .buy, price, level => price < level
  | .sell, price, level => level < price

/-- An order or an amendment with the levels. -/
def Bears (levels : Request ℚ) : Op ℚ → Prop
  | .send order => order.sl = levels.sl ∧ order.tp = levels.tp
  | .positionModify _ sl tp => (0 < levels.sl → sl = levels.sl) ∧ (0 < levels.tp → tp = levels.tp)
  | _ => True

theorem bears_of_isQuiet {levels : Request ℚ} (op : Op ℚ) (quiet : isQuiet op = true) :
    Bears levels op := by
  cases op <;> trivial

theorem only_bears_runCommand (settings : Settings) (traceID cmd sym params : Bytes)
    (levels : Request ℚ) :
    (runCommand Doubles.exact settings traceID cmd sym params levels).Only (Bears levels) := by
  have fill (traceID status orderID errCode errMsg : Bytes) :
      (sendFill traceID status orderID errCode errMsg : Terminal ℚ Unit).Only (Bears levels) :=
    only_sendFill bears_of_isQuiet ..
  unfold runCommand
  split
  · unfold openMarket
    split
    · exact fill ..
    · refine ⟨⟨rfl, rfl⟩, fun result => ?_⟩
      dsimp only [Program.bind]
      split <;> exact fill ..
  · split
    · unfold openPending
      split
      · exact fill ..
      · refine ⟨⟨rfl, rfl⟩, fun result => ?_⟩
        dsimp only [Program.bind]
        split
        · exact (fill ..).bind fun _ => ⟨trivial, fun _ => trivial⟩
        · split
          · refine ⟨⟨rfl, rfl⟩, fun result => ?_⟩
            dsimp only [Program.bind]
            split <;> exact fill ..
          · exact fill ..
    · refine only_manage bears_of_isQuiet Doubles.exact (fun _ position => ?_) ..
      constructor <;> intro positive <;> exact if_pos (decide_eq_true positive)

/-- The stop loss of an amendment. -/
def stopSent : Op ℚ → Option ℚ
  | .positionModify _ sl _ => some sl
  | _ => none

section Sides

variable {quote : Quote} {cmd params : Bytes} {side : PositionType}

/-- The commands whose direction the terminal sees, and the one whose direction it does not. -/
theorem kind_of_mem (given : (cmd, side) ∈ directions) :
    (isBuyCommand cmd = decide (side = .buy) ∧ cmd ≠ lit "newsltplong") ∨
      isBuyCommand cmd = false ∧ side = .buy ∧ pendingType cmd = none ∧ cmd = lit "newsltplong" := by
  have kinds : directions.all (fun entry =>
      (isBuyCommand entry.1 = decide (entry.2 = .buy) ∧ entry.1 ≠ lit "newsltplong") ∨
        isBuyCommand entry.1 = false ∧ entry.2 = .buy ∧ pendingType entry.1 = none ∧
          entry.1 = lit "newsltplong") = true := by
    decide +kernel
  exact of_decide_eq_true (List.all_eq_true.mp kinds _ given)

theorem sl_levels (noStop : pDouble Doubles.exact params "sl" = 0)
    (distance : 0 < pDouble Doubles.exact params "sl_pips") :
    (quote.levels cmd params).sl = if isBuyCommand cmd then
      quote.ask - pDouble Doubles.exact params "sl_pips" * quote.pip
      else quote.bid + pDouble Doubles.exact params "sl_pips" * quote.pip :=
  if_pos (Bool.and_eq_true_iff.mpr ⟨decide_eq_true noStop, decide_eq_true distance⟩)

theorem tp_levels (noProfit : pDouble Doubles.exact params "tp" = 0)
    (distance : 0 < pDouble Doubles.exact params "tp_pips") :
    (quote.levels cmd params).tp = if isBuyCommand cmd then
      quote.ask + pDouble Doubles.exact params "tp_pips" * quote.pip
      else quote.bid - pDouble Doubles.exact params "tp_pips" * quote.pip :=
  if_pos (Bool.and_eq_true_iff.mpr ⟨decide_eq_true noProfit, decide_eq_true distance⟩)

theorem onlyUnder_executeSignal (settings : Settings) (traceID cmd rawSym params : Bytes) :
    (executeSignal Doubles.exact settings traceID cmd rawSym params).OnlyUnder quote.Answers
      (Bears (quote.levels cmd params)) := by
  unfold executeSignal
  refine ⟨trivial, fun selected _ => ?_⟩
  cases selected with
  | false => exact ⟨trivial, fun _ _ => trivial⟩
  | true =>
    refine ⟨trivial, fun ask asked => ⟨trivial, fun bid bade => ⟨trivial, fun digits counted =>
      ⟨trivial, fun point pointed => ?_⟩⟩⟩⟩
    cases asked
    cases bade
    cases counted
    cases pointed
    exact (only_bears_runCommand settings traceID cmd (mapSymbol settings rawSym) params
      (quote.levels cmd params)).onlyUnder quote.Answers

/-- **On which side the levels of a signal lie.** The orders and the amendments of the signal have the
levels that are derived, and these lie on their sides exactly if their distances fit. -/
theorem levels_sided_iff (given : (cmd, side) ∈ directions) (settings : Settings) (traceID rawSym : Bytes)
    (spread : quote.bid ≤ quote.ask) (point : 0 < quote.point)
    (noStop : pDouble Doubles.exact params "sl" = 0) (noProfit : pDouble Doubles.exact params "tp" = 0) :
    (executeSignal Doubles.exact settings traceID cmd rawSym params).OnlyUnder quote.Answers
        (Bears (quote.levels cmd params)) ∧
      (0 < pDouble Doubles.exact params "sl_pips" →
        (Losing side (quote.sentAt cmd params side) (quote.levels cmd params).sl ↔
          quote.StopFits cmd params side)) ∧
      (0 < pDouble Doubles.exact params "tp_pips" →
        (Winning side (quote.sentAt cmd params side) (quote.levels cmd params).tp ↔
          quote.ProfitFits cmd params side)) := by
  have pip : 0 < quote.pip := by
    unfold Quote.pip
    split <;> positivity
  refine ⟨onlyUnder_executeSignal .., fun distance => ?_, fun distance => ?_⟩
  · have far := mul_pos distance pip
    rw [sl_levels noStop distance]
    rcases kind_of_mem given with ⟨sees, other⟩ | ⟨sees, rfl, market, rfl⟩
    · rw [sees]
      cases side <;> by_cases pending : (pendingType cmd).isSome = true <;>
        simp [Quote.sentAt, Quote.StopFits, Losing, pending, other, far, sub_lt_comm,
          sub_lt_iff_lt_add']
    · simp [Quote.sentAt, Quote.StopFits, Losing, sees, market, lt_sub_iff_add_lt']
  · have far := mul_pos distance pip
    rw [tp_levels noProfit distance]
    rcases kind_of_mem given with ⟨sees, other⟩ | ⟨sees, rfl, market, rfl⟩
    · rw [sees]
      cases side <;> by_cases pending : (pendingType cmd).isSome = true <;>
        simp [Quote.sentAt, Quote.ProfitFits, Winning, pending, other, far, sub_lt_comm,
          sub_lt_iff_lt_add']
    · simp [Quote.sentAt, Quote.ProfitFits, Winning, sees, market]
      linarith

/-- A stop loss of ten pips under a buy. -/
theorem levels_sided_iff_buy :
    Losing .buy ((Quote.mk 1 1 0.00001 5).sentAt (lit "buy") (lit "\x7b\"sl_pips\":\"10\"\x7d") .buy)
      ((Quote.mk 1 1 0.00001 5).levels (lit "buy") (lit "\x7b\"sl_pips\":\"10\"\x7d")).sl := by
  refine ((levels_sided_iff (show (lit "buy", .buy) ∈ directions from by decide) {} [] [] le_rfl (by norm_num)
    (by decide +kernel) (by decide +kernel)).2.1 (by decide +kernel)).mpr ?_
  exact fun long => absurd long (by decide)

/-- **The stop loss of long positions lies above them**: it is the bid and ten pips. -/
theorem not_losing_newsltplong :
    ((executeSignal Doubles.exact {} [] (lit "newsltplong") (lit "EURUSD")
        (lit "\x7b\"sl_pips\":\"10\"\x7d")).calls (onePosition .buy)).filterMap stopSent = [1.001] ∧
      ¬ Losing .buy 1 1.001 := by
  refine ⟨by decide +kernel, ?_⟩
  unfold Losing
  norm_num

end Sides

end ExecRelay.EA
