/-
**What the orders of a signal can lose.**

A signal with a budget and a stop loss is sized so that the order loses at most the budget between the
price that it is sized against and the stop loss. That price is the quote for an order at the market and
the stated entry for a pending order. Where the broker refuses the entry of a pending order, the shim
sends a market order with the volume of the entry, and the quote may be further from the stop loss.

On the usual grids of volumes only a quote further from the stop loss than the entry keeps a signal from
fitting (`openingFits_of_near`), so that market orders stay within the budget; `fallback_beyond` is a
pending order that does not.
-/

import Mathlib.Tactic.Linarith
import Mathlib.Tactic.FieldSimp
import Mathlib.Tactic.Positivity
import ExecRelay.Shim.Execute

namespace ExecRelay.Shim

open Lib
open Lib.Program (perform OnlyUnder Yields onlyUnder_bind)

/-! ### A terminal with one quote -/

/-- What the terminal says during one call. -/
structure Terminal where
  symbolMap : List (Text × Text)
  info : Text → Option SymbolInfo
  tick : Text → Option Tick
  positions : Text → Option (List Position)

/-- The answer is the terminal's; what it replies to an order is free. -/
def Terminal.Answers (terminal : Terminal) : (op : Op) → Answer op → Prop
  | .symbolMap, answer => answer = terminal.symbolMap
  | .symbolInfo symbol, answer => answer = terminal.info symbol
  | .symbolSelect _, _ => True
  | .symbolInfoTick symbol, answer => answer = terminal.tick symbol
  | .positionsGet symbol, answer => answer = terminal.positions symbol
  | .orderSend _, _ => True
  | .lastError, _ => True

variable (settings : Settings) (terminal : Terminal)

def Terminal.resolve (symbol : Text) : Text :=
  let symbol := aliased settings terminal.symbolMap symbol
  ((symbol :: [symbol ++ ['_'], symbol ++ ['.'], symbol ++ ['m']]).find?
    fun name => (terminal.info name).isSome).getD symbol

/-- What is asked of an order: of the position it closes, its volume and its price. -/
abbrev Bound := Option Nat → ℚ → ℚ → Prop

def Keeps (bound : Bound) : Op → Prop
  | .orderSend (.order order) => bound order.position order.volume order.price
  | _ => True

variable {bound : Bound} {Result : Type}

abbrev Safe (terminal : Terminal) (bound : Bound) (script : Script Result) : Prop :=
  script.OnlyUnder terminal.Answers (Keeps bound)

/-! ### Function by function -/

theorem yields_firstKnown {symbol : Text} {names : List Text} {name : Text} :
    (firstKnown symbol names).Yields terminal.Answers name ↔
      name = (names.find? fun name => (terminal.info name).isSome).getD symbol := by
  induction names with
  | nil => exact eq_comm
  | cons variant others ih =>
    simp only [firstKnown, Program.perform_bind, Yields, Terminal.Answers, exists_eq_left]
    cases known : terminal.info variant with
    | none => simpa [known] using ih
    | some info => simp [known, pure, Yields, eq_comm]

theorem safe_firstKnown (symbol : Text) (names : List Text) :
    Safe terminal bound (firstKnown symbol names) := by
  induction names with
  | nil => trivial
  | cons variant others ih =>
    refine ⟨trivial, fun answer _ => ?_⟩
    cases answer with
    | none => exact ih
    | some info => trivial

theorem yields_resolveSymbol {symbol name : Text} :
    (resolveSymbol settings symbol).Yields terminal.Answers name ↔
      name = terminal.resolve settings symbol := by
  simp only [resolveSymbol, Program.perform_bind, Yields, Terminal.Answers, exists_eq_left,
    Terminal.resolve]
  generalize aliased settings terminal.symbolMap symbol = known
  rw [List.find?_cons]
  cases terminal.info known with
  | none => exact yields_firstKnown terminal
  | some info => exact eq_comm

theorem safe_resolveSymbol (symbol : Text) : Safe terminal bound (resolveSymbol settings symbol) := by
  refine ⟨trivial, fun aliases _ => ⟨trivial, fun answer _ => ?_⟩⟩
  cases answer with
  | none => exact safe_firstKnown terminal _ _
  | some info => trivial

theorem safe_marketResult (reply : Option Reply) : Safe terminal bound (marketResult reply) := by
  cases reply with
  | none => trivial
  | some reply =>
    rw [marketResult]
    split_ifs <;> trivial

/-- **A market order** is sent at the quote, once or twice, if there is one. -/
theorem safe_sendMarket (side : Side) (symbol : Text) (volume : ℚ) (comment : Text) (sl tp : ℚ) :
    Safe terminal bound (sendMarket settings side symbol volume comment sl tp) ↔
      ∀ tick, terminal.tick symbol = some tick → bound none volume (tick.price side) := by
  simp only [sendMarket, Program.perform_bind, Safe, OnlyUnder, Terminal.Answers, Keeps, true_and,
    forall_eq]
  cases terminal.tick symbol with
  | none => simp [pure, OnlyUnder]
  | some tick =>
    simp only [OnlyUnder, Keeps, marketOrder, Option.some.injEq, forall_eq']
    refine ⟨fun sent => sent.1, fun fine => ⟨fine, fun first _ => ?_⟩⟩
    cases first with
    | none => exact ⟨trivial, fun _ _ => trivial⟩
    | some first =>
      simp only
      split_ifs
      · exact ⟨fine, fun second _ => safe_marketResult terminal second⟩
      · exact safe_marketResult terminal _

theorem safe_sendAtMarket (side : Side) (symbol : Text) (volume : ℚ) (params : Params) :
    Safe terminal bound (sendAtMarket settings side symbol volume params) ↔
      ∀ tick, terminal.tick symbol = some tick → bound none volume (tick.price side) := by
  rw [sendAtMarket, Safe, onlyUnder_bind, ← safe_sendMarket]
  refine and_iff_left fun sent _ => ?_
  cases sent <;> trivial

theorem safe_sendPending (type : OrderType) (symbol : Text) (volume entry sl tp : ℚ) (comment : Text) :
    Safe terminal bound (sendPending settings type symbol volume entry sl tp comment) ↔
      bound none volume entry := by
  refine ⟨fun sent => sent.1, fun fine => ⟨fine, fun first _ => ?_⟩⟩
  cases first with
  | none => exact ⟨trivial, fun _ _ => trivial⟩
  | some reply =>
    change OnlyUnder _ _ (if reply.retcode ≠ retcodeDone then pure _ else pure _)
    split_ifs <;> trivial

theorem yields_refused (type : OrderType) (symbol : Text) (volume entry sl tp : ℚ) (comment : Text) :
    ∃ err, (sendPending settings type symbol volume entry sl tp comment).Yields terminal.Answers
      (.error (err, some retcodeInvalidPrice)) :=
  ⟨_, some ⟨retcodeInvalidPrice, 0, []⟩, trivial, rfl⟩

/-- **A pending order** is sent at its entry, and the order in its place at the quote. -/
theorem safe_sendOrFallBack (type : OrderType) (side : Side) (symbol : Text) (volume : ℚ)
    (params : Params) :
    Safe terminal bound (sendOrFallBack settings type side symbol volume params) ↔
      (0 < entryOf settings params → bound none volume (entryOf settings params) ∧
        (settings.pendingFallback = true →
          ∀ tick, terminal.tick symbol = some tick → bound none volume (tick.price side))) := by
  by_cases entered : entryOf settings params ≤ 0
  · simp [sendOrFallBack, entered, not_lt.mpr entered, pure, OnlyUnder]
  · simp only [sendOrFallBack, entered, if_false, not_le.mp entered, forall_const]
    rw [Safe, onlyUnder_bind]
    refine and_congr (safe_sendPending settings terminal ..) ⟨fun every falls => ?_, fun fine => ?_⟩
    · obtain ⟨err, refused⟩ := yields_refused settings terminal type symbol volume
        (entryOf settings params) (slOf settings params) (tpOf settings params) (commentOf params)
      have sent := every _ refused
      simp only [falls, decide_true, Bool.and_self, if_true, onlyUnder_bind] at sent
      exact (safe_sendMarket settings terminal ..).mp sent.1
    · rintro (⟨err, retcode⟩ | reply) -
      · by_cases falls : (settings.pendingFallback && retcode = some retcodeInvalidPrice) = true
        · simp only [falls, if_true, onlyUnder_bind]
          rw [Bool.and_eq_true] at falls
          refine ⟨(safe_sendMarket settings terminal ..).mpr (fine falls.1), ?_⟩
          rintro (merr | reply) - <;> trivial
        · simp only [falls]
          trivial
      · trivial

/-! ### Closing -/

section Closing

variable (symbol : Text) (side : Side)

def ClosingKeeps (bound : Bound) (positions : List Position) : Prop :=
  ∀ tick, terminal.tick symbol = some tick → ∀ position ∈ positions, owns settings side position = true →
    bound (some position.ticket) position.volume (tick.price side.opposite)

theorem type_of_owns {position : Position} (owned : owns settings side position = true) :
    position.type = side := by
  rw [owns, Bool.and_eq_true] at owned
  exact of_decide_eq_true owned.2

theorem safe_closeResult (position : Position) (reply : Option Reply) :
    Safe terminal bound (closeResult position reply) := by
  cases reply with
  | none => exact ⟨trivial, fun _ _ => trivial⟩
  | some reply =>
    rw [closeResult]
    split_ifs <;> trivial

theorem safe_closeOne (position : Position) :
    Safe terminal bound (closeOne settings symbol position) ↔
      ∀ tick, terminal.tick symbol = some tick →
        bound (some position.ticket) position.volume (tick.price position.type.opposite) := by
  simp only [closeOne, Program.perform_bind, Safe, OnlyUnder, Terminal.Answers, Keeps, true_and,
    forall_eq]
  cases terminal.tick symbol with
  | none => simp [pure, OnlyUnder]
  | some tick =>
    simp only [OnlyUnder, Keeps, closingOrder, Option.some.injEq, forall_eq']
    refine ⟨fun sent => sent.1, fun fine => ⟨fine, fun first _ => ?_⟩⟩
    split_ifs
    · exact ⟨fine, fun second _ => safe_closeResult terminal position second⟩
    · exact safe_closeResult terminal position first

theorem yields_closeOne {tick : Tick} (quoted : terminal.tick symbol = some tick) (position : Position) :
    ∃ order, (closeOne settings symbol position).Yields terminal.Answers (.ok order) :=
  ⟨_, some tick, quoted.symm, some ⟨retcodeDone, 0, []⟩, trivial, rfl⟩

/-- **The closing loop** sends an order for each position, as long as the broker carries them out. -/
theorem safe_closeEach (positions : List Position) (closed : List Text) :
    Safe terminal bound (closeEach settings symbol side positions closed) ↔
      ClosingKeeps settings terminal symbol side bound positions := by
  induction positions generalizing closed with
  | nil => simp [closeEach, ClosingKeeps, pure, OnlyUnder]
  | cons position others ih =>
    rw [closeEach]
    by_cases owned : owns settings side position = true
    · rw [if_pos owned, Safe, onlyUnder_bind]
      simp only [ClosingKeeps, List.forall_mem_cons, owned, forall_const]
      have one : Safe terminal bound (closeOne settings symbol position) ↔ _ :=
        safe_closeOne settings terminal symbol position
      rw [type_of_owns settings side owned] at one
      constructor
      · rintro ⟨first, others⟩ tick quoted
        refine ⟨one.mp first tick quoted, ?_⟩
        obtain ⟨order, yields⟩ := yields_closeOne settings terminal symbol quoted position
        exact (ih _).mp (others _ yields) tick quoted
      · intro every
        refine ⟨one.mpr fun tick quoted => (every tick quoted).1, ?_⟩
        rintro (err | order) -
        · trivial
        · exact (ih _).mpr fun tick quoted => (every tick quoted).2
    · rw [if_neg owned, ih]
      simp [ClosingKeeps, owned]

theorem yields_closeEach {tick : Tick} (quoted : terminal.tick symbol = some tick)
    (positions : List Position) (closed : List Text) :
    ∃ orders, (closeEach settings symbol side positions closed).Yields terminal.Answers
      (orders, none) := by
  induction positions generalizing closed with
  | nil => exact ⟨closed, rfl⟩
  | cons position others ih =>
    rw [closeEach]
    split_ifs
    · obtain ⟨order, yields⟩ := yields_closeOne settings terminal symbol quoted position
      obtain ⟨orders, rest⟩ := ih (closed ++ [order])
      exact ⟨orders, (Program.yields_bind _ _ _).mpr ⟨_, yields, rest⟩⟩
    · exact ih closed

end Closing

/-- **Close and open**: the closing orders, and then the market order. -/
theorem safe_closeThenOpen (closing opening : Side) (symbol : Text) (volume : ℚ) (params : Params) :
    Safe terminal bound (closeThenOpen settings closing opening symbol volume params) ↔
      (∀ tick, terminal.tick symbol = some tick → bound none volume (tick.price opening)) ∧
        ClosingKeeps settings terminal symbol closing bound ((terminal.positions symbol).getD []) := by
  simp only [closeThenOpen, closePositions, Program.perform_bind, Program.call_bind, Safe, OnlyUnder,
    Keeps, Terminal.Answers, true_and, forall_eq, onlyUnder_bind]
  rw [and_comm]
  refine and_congr ⟨fun every tick quoted => ?_, fun fine => ?_⟩ (safe_closeEach settings terminal ..)
  · obtain ⟨orders, yields⟩ := yields_closeEach settings terminal symbol closing quoted
      ((terminal.positions symbol).getD []) []
    have sent := every _ yields
    simp only [onlyUnder_bind] at sent
    exact (safe_sendMarket settings terminal ..).mp sent.1 tick quoted
  · rintro ⟨orders, _ | err⟩ -
    · simp only [onlyUnder_bind]
      refine ⟨(safe_sendMarket settings terminal ..).mpr fine, ?_⟩
      rintro (err | reply) - <;> trivial
    · trivial

/-! ### Sizing -/

/-- The volume of a signal with a budget and a stop loss, where the symbol has specifications. -/
def sized (info : SymbolInfo) (ref sl requested riskUsd : ℚ) : ℚ :=
  if ref ≤ 0 ∨ ref = sl then requested
  else if info.lots ref sl riskUsd < info.volumeMin then 0
  else min (info.lots ref sl riskUsd) info.volumeMax

/-- The specifications of the symbol are there. -/
structure Specified (symbol : Text) (info : SymbolInfo) : Prop where
  found : terminal.info symbol = some info
  value : 0 < info.tradeTickValue
  size : 0 < info.tradeTickSize

theorem safe_sizedVolume (symbol : Text) (ref sl requested riskUsd : ℚ) :
    Safe terminal bound (sizedVolume symbol ref sl requested riskUsd) := by
  rw [sizedVolume]
  by_cases unsized : riskUsd ≤ 0 ∨ sl ≤ 0 ∨ ref ≤ 0
  · rw [if_pos unsized]
    trivial
  · rw [if_neg unsized, Program.perform_bind]
    refine ⟨trivial, fun answer _ => ?_⟩
    cases answer with
    | none => trivial
    | some info =>
      simp only
      split_ifs <;> trivial

section Sizing

variable {terminal} {symbol : Text} {info : SymbolInfo} (specified : Specified terminal symbol info)
  {sl riskUsd : ℚ} (budget : 0 < riskUsd) (stop : 0 < sl)

include specified budget stop

theorem yields_sizedVolume (ref requested volume : ℚ) :
    (sizedVolume symbol ref sl requested riskUsd).Yields terminal.Answers volume ↔
      volume = sized info ref sl requested riskUsd := by
  by_cases quoted : ref ≤ 0
  · simp [sizedVolume, sized, quoted, pure, Yields, eq_comm]
  · have read : ¬ (riskUsd ≤ 0 ∨ sl ≤ 0 ∨ ref ≤ 0) := by
      simp [budget, stop, not_le.mp quoted]
    have specs : ¬ (info.tradeTickValue ≤ 0 ∨ info.tradeTickSize ≤ 0) := by
      simp [specified.value, specified.size]
    rw [sizedVolume, if_neg read]
    simp only [Program.perform_bind, Yields, Terminal.Answers, exists_eq_left, specified.found]
    rw [if_neg specs, sized]
    simp only [abs_nonpos_iff, sub_eq_zero, quoted, false_or]
    split_ifs <;> exact eq_comm

end Sizing

theorem round8_grid (count : ℤ) : round8 (count / 10 ^ 8) = count / 10 ^ 8 := by
  have whole : (count / 10 ^ 8 : ℚ) * 10 ^ 8 = count := by field_simp
  rw [round8, whole, roundHalfEven]
  simp

section Grid

variable {info : SymbolInfo} {count : ℕ} (some_ : 0 < count) (grid : info.step = count / 10 ^ 8)
  {ref sl riskUsd : ℚ}

include grid

/-- **On a grid of eight digits** nothing is rounded. -/
theorem lots_eq : info.lots ref sl riskUsd = ⌊riskUsd / info.loss ref sl / info.step⌋ * info.step := by
  rw [SymbolInfo.lots, grid, ← mul_div_assoc]
  exact_mod_cast round8_grid (_ * count)

include some_

/-- A number of steps loses at most the budget exactly if it is among the lots. -/
theorem mul_loss_le_iff (loses : 0 < info.loss ref sl) (steps : ℤ) :
    steps * info.step * info.loss ref sl ≤ riskUsd ↔ steps ≤ ⌊riskUsd / info.loss ref sl / info.step⌋ := by
  have positive : (0 : ℚ) < info.step := by
    rw [grid]
    positivity
  rw [Int.le_floor, le_div_iff₀ positive, le_div_iff₀ loses]

theorem lots_mul_loss_le (loses : 0 < info.loss ref sl) :
    info.lots ref sl riskUsd * info.loss ref sl ≤ riskUsd := by
  rw [lots_eq grid]
  exact (mul_loss_le_iff some_ grid loses _).mpr le_rfl

end Grid

theorem loss_pos {info : SymbolInfo} (value : 0 < info.tradeTickValue) (size : 0 < info.tradeTickSize)
    {price sl : ℚ} (apart : price ≠ sl) : 0 < info.loss price sl := by
  unfold SymbolInfo.loss
  positivity

/-- The volume of a signal fits its budget at a price that is no further from the stop loss. -/
theorem sized_fits {info : SymbolInfo} (value : 0 < info.tradeTickValue) (size : 0 < info.tradeTickSize)
    {count : ℕ} (some_ : 0 < count) (grid : info.step = count / 10 ^ 8) {ref sl riskUsd price : ℚ}
    (budget : 0 < riskUsd) (positive : 0 < ref) (near : |price - sl| ≤ |ref - sl|) (requested : ℚ) :
    sized info ref sl requested riskUsd ≤ 0 ∨
      sized info ref sl requested riskUsd * info.loss price sl ≤ riskUsd := by
  have less : info.loss price sl ≤ info.loss ref sl := by
    unfold SymbolInfo.loss
    gcongr
  refine or_iff_not_imp_left.mpr fun sent => ?_
  have more := mul_le_mul_of_nonneg_left less (not_le.mp sent).le
  by_cases same : ref = sl
  · have nothing : info.loss ref sl = 0 := by rw [SymbolInfo.loss, same, sub_self, abs_zero, zero_div, zero_mul]
    rw [nothing, mul_zero] at more
    exact more.trans budget.le
  · have loses := loss_pos value size same
    refine more.trans ((mul_le_mul_of_nonneg_right ?_ loses.le).trans
      (lots_mul_loss_le some_ grid loses))
    rw [sized, if_neg (by simp [same, positive])] at sent ⊢
    split_ifs at sent ⊢ with small
    · exact absurd le_rfl sent
    · exact min_le_left _ _

/-! ### The best volume -/

/-- The volumes of a symbol are multiples of its step, which has eight digits at most. -/
structure OnGrid (info : SymbolInfo) : Prop where
  step : 0 < info.volumeStep
  digits : ∃ count : ℕ, info.volumeStep = count / 10 ^ 8
  minimum : ∃ count : ℕ, 0 < count ∧ info.volumeMin = count * info.volumeStep
  maximum : ∃ count : ℕ, 0 < count ∧ info.volumeMax = count * info.volumeStep
  ordered : info.volumeMin ≤ info.volumeMax

/-- The volumes of the grid up to the maximum that lose at most the budget. -/
def Affordable (info : SymbolInfo) (ref sl riskUsd : ℚ) : Set ℚ :=
  {lots | (∃ steps : ℤ, lots = steps * info.volumeStep) ∧ lots ≤ info.volumeMax ∧
    lots * info.loss ref sl ≤ riskUsd}

/-- **Sizing returns the largest volume that the budget affords**, and zero exactly if it does not afford
the smallest one. -/
theorem sizedVolume_isGreatest {symbol : Text} {info : SymbolInfo}
    (specified : Specified terminal symbol info) (grid : OnGrid info) {ref sl riskUsd : ℚ}
    (budget : 0 < riskUsd) (stop : 0 < sl) (positive : 0 < ref) (apart : ref ≠ sl) (requested : ℚ) :
    ∃ volume, (∀ returned, (sizedVolume symbol ref sl requested riskUsd).Yields terminal.Answers returned ↔
        returned = volume) ∧
      (volume = 0 ↔ riskUsd < info.volumeMin * info.loss ref sl) ∧
      (info.volumeMin * info.loss ref sl ≤ riskUsd → IsGreatest (Affordable info ref sl riskUsd) volume ∧
        info.volumeMin ≤ volume ∧ volume ≤ info.volumeMax) := by
  obtain ⟨count, digits⟩ := grid.digits
  obtain ⟨least, some_, minimum⟩ := grid.minimum
  obtain ⟨most, -, maximum⟩ := grid.maximum
  have step : info.step = info.volumeStep := if_neg grid.step.ne'
  have given : 0 < count := by
    rw [Nat.pos_iff_ne_zero]
    rintro rfl
    exact grid.step.ne' (by rw [digits]; simp)
  have steps := @mul_loss_le_iff info count given (step.trans digits) ref sl riskUsd
    (loss_pos specified.value specified.size apart)
  have lots := @lots_eq info count (step.trans digits) ref sl riskUsd
  rw [step] at steps lots
  generalize ⌊riskUsd / info.loss ref sl / info.volumeStep⌋ = affords at steps lots
  have ascends {a b : ℤ} : (a : ℚ) * info.volumeStep ≤ b * info.volumeStep ↔ a ≤ b := by
    rw [mul_le_mul_iff_left₀ grid.step, Int.cast_le]
  replace minimum : info.volumeMin = (least : ℤ) * info.volumeStep := by exact_mod_cast minimum
  replace maximum : info.volumeMax = (most : ℤ) * info.volumeStep := by exact_mod_cast maximum
  have ordered : (least : ℤ) ≤ most := by
    have both := grid.ordered
    rwa [minimum, maximum, ascends] at both
  refine ⟨sized info ref sl requested riskUsd, yields_sizedVolume specified budget stop ref requested, ?_⟩
  have refused : (affords : ℚ) * info.volumeStep < (least : ℤ) * info.volumeStep ↔ ¬(least : ℤ) ≤ affords := by
    rw [← not_le, ascends]
  have dear : riskUsd < (least : ℤ) * info.volumeStep * info.loss ref sl ↔ ¬(least : ℤ) ≤ affords := by
    rw [← not_le, steps]
  rw [sized, if_neg (by simp [apart, positive]), lots, minimum, maximum, steps, dear]
  by_cases small : (least : ℤ) ≤ affords
  · have lower : (least : ℤ) ≤ min affords most := le_min small ordered
    have same : min ((affords : ℚ) * info.volumeStep) ((most : ℤ) * info.volumeStep) =
        (min affords most : ℤ) * info.volumeStep := by
      rw [Int.cast_min, min_mul_of_nonneg _ _ grid.step.le]
    rw [if_neg (fun below => refused.mp below small), same]
    refine ⟨iff_of_false ?_ (not_not.mpr small), fun _ => ⟨⟨⟨⟨_, rfl⟩, ?_, ?_⟩, ?_⟩, ?_, ?_⟩⟩
    · refine (mul_pos ?_ grid.step).ne'
      exact_mod_cast (show (0 : ℤ) < min affords most by omega)
    · rw [maximum, ascends]
      exact min_le_right _ _
    · rw [steps]
      exact min_le_left _ _
    · rintro _ ⟨⟨others, rfl⟩, below, fits⟩
      rw [maximum, ascends] at below
      exact ascends.mpr (le_min ((steps others).mp fits) below)
    · exact ascends.mpr lower
    · exact ascends.mpr (min_le_right _ _)
  · rw [if_pos (refused.mpr small)]
    exact ⟨iff_of_true rfl small, fun fits => absurd fits small⟩

/-! ### One signal -/

def Terminal.ref (params : Params) (symbol : Text) (cmd : Command) : ℚ :=
  match opensAtMarket cmd with
  | none => entryOf settings params
  | some side => ((terminal.tick symbol).map (·.price side)).getD 0

def Terminal.volume (info : SymbolInfo) (params : Params) (symbol : Text) (cmd : Command) : ℚ :=
  sized info (terminal.ref settings params symbol cmd) (slOf settings params)
    (volumeOf settings params) (riskOf settings params)

/-- The side of the positions that a command closes before it opens. -/
def closesFirst : Command → Option Side
  | .closelongopenshort => some .buy
  | .closeshortopenlong => some .sell
  | _ => none

/-- The volume of the signal loses at most the budget between the price and the stop loss, or it is
refused as too small. -/
def Fits (info : SymbolInfo) (params : Params) (symbol : Text) (cmd : Command) (price : ℚ) : Prop :=
  terminal.volume settings info params symbol cmd ≤ 0 ∨
    terminal.volume settings info params symbol cmd * info.loss price (slOf settings params) ≤
      riskOf settings params

/-- The volume fits at every price at which the signal may be sent: a market order at the quote, a
pending order at its entry and, where it may be sent to the market instead, at the quote. -/
def OpeningFits (info : SymbolInfo) (params : Params) (symbol : Text) (cmd : Command) : Prop :=
  match opensAtMarket cmd, pendingTypes cmd with
  | some side, _ => ∀ tick, terminal.tick symbol = some tick →
      Fits settings terminal info params symbol cmd (tick.price side)
  | none, some (_, side) => 0 < entryOf settings params →
      Fits settings terminal info params symbol cmd (entryOf settings params) ∧
        (settings.pendingFallback = true → ∀ tick, terminal.tick symbol = some tick →
          Fits settings terminal info params symbol cmd (tick.price side))
  | none, none => True

/-- The positions that the signal closes lose at most its budget as well, unless it is refused. -/
def ClosingFits (info : SymbolInfo) (params : Params) (symbol : Text) (cmd : Command) : Prop :=
  ∀ side, closesFirst cmd = some side → 0 < terminal.volume settings info params symbol cmd →
    ∀ tick, terminal.tick symbol = some tick →
      ∀ position ∈ (terminal.positions symbol).getD [], owns settings side position = true →
        position.volume * info.loss (tick.price side.opposite) (slOf settings params) ≤
          riskOf settings params

theorem yields_refPrice {params : Params} {symbol : Text} {cmd : Command} {ref : ℚ} :
    (refPrice settings params symbol cmd).Yields terminal.Answers ref ↔
      ref = terminal.ref settings params symbol cmd := by
  rw [refPrice, Terminal.ref]
  cases opensAtMarket cmd with
  | none => exact eq_comm
  | some side =>
    simp only [Program.perform_bind, Yields, Terminal.Answers, exists_eq_left]
    exact eq_comm

theorem safe_refPrice (params : Params) (symbol : Text) (cmd : Command) :
    Safe terminal bound (refPrice settings params symbol cmd) := by
  rw [refPrice]
  cases opensAtMarket cmd with
  | none => trivial
  | some side => exact ⟨trivial, fun _ _ => trivial⟩

section Signal

variable {settings terminal} {command symbol name : Text} {params : Params} {cmd : Command}
  {info : SymbolInfo}

/-- **A signal that opens exposure** sends what its command sends with the volume that it is given. -/
theorem safe_execute (reads : readCommand (settings.lower command) = some cmd)
    (opens : cmd.opens = true) (named : terminal.resolve settings symbol = name)
    (specified : Specified terminal name info) (budget : 0 < riskOf settings params)
    (stop : 0 < slOf settings params) :
    Safe terminal bound (execute settings command symbol params) ↔
      let volume := terminal.volume settings info params name cmd
      0 < volume → Safe terminal bound (dispatch settings cmd name volume params) := by
  simp only [execute, Safe, reads, opens, if_true, onlyUnder_bind, yields_resolveSymbol, forall_eq,
    named, Program.perform_bind, OnlyUnder, Keeps, Terminal.Answers, forall_const, true_and,
    yields_refPrice, yields_sizedVolume specified budget stop]
  simp only [safe_resolveSymbol, safe_refPrice, safe_sizedVolume, true_and]
  rw [← Terminal.volume]
  split_ifs with refused
  · simp [not_lt.mpr refused, pure, OnlyUnder]
  · simp [not_le.mp refused]

/-- **A command at the market** sends its order at the quote, and closing orders in front of it. -/
theorem safe_dispatch_market {side : Side} (market : opensAtMarket cmd = some side) (volume : ℚ) :
    Safe terminal bound (dispatch settings cmd name volume params) ↔
      (∀ tick, terminal.tick name = some tick → bound none volume (tick.price side)) ∧
        ∀ closing, closesFirst cmd = some closing → ClosingKeeps settings terminal name closing bound
          ((terminal.positions name).getD []) := by
  cases cmd <;> cases market <;>
    simp [dispatch, closesFirst, safe_sendAtMarket, safe_closeThenOpen]

/-- **A pending command** sends its order at the entry, and may send one at the quote. -/
theorem safe_dispatch_pending {type : OrderType} {side : Side}
    (pending : pendingTypes cmd = some (type, side)) (volume : ℚ) :
    Safe terminal bound (dispatch settings cmd name volume params) ↔
      (0 < entryOf settings params → bound none volume (entryOf settings params) ∧
        (settings.pendingFallback = true →
          ∀ tick, terminal.tick name = some tick → bound none volume (tick.price side))) := by
  cases cmd <;> cases pending <;> exact safe_sendOrFallBack settings terminal ..

theorem safe_execute_iff (reads : readCommand (settings.lower command) = some cmd)
    (opens : cmd.opens = true) (named : terminal.resolve settings symbol = name)
    (specified : Specified terminal name info) (budget : 0 < riskOf settings params)
    (stop : 0 < slOf settings params)
    (opening : ∀ volume price, bound none volume price ↔
      volume * info.loss price (slOf settings params) ≤ riskOf settings params) :
    Safe terminal bound (execute settings command symbol params) ↔
      OpeningFits settings terminal info params name cmd ∧
        ∀ side, closesFirst cmd = some side → 0 < terminal.volume settings info params name cmd →
          ClosingKeeps settings terminal name side bound ((terminal.positions name).getD []) := by
  rw [safe_execute reads opens named specified budget stop, OpeningFits]
  cases market : opensAtMarket cmd with
  | some side =>
    simp only [safe_dispatch_market market, opening, Fits]
    refine ⟨fun sent => ⟨fun tick quoted => ?_, fun closing closes positive => ?_⟩, ?_⟩
    · exact or_iff_not_imp_left.mpr fun positive => (sent (not_le.mp positive)).1 tick quoted
    · exact (sent positive).2 closing closes
    · intro ⟨fits, closed⟩ positive
      refine ⟨fun tick quoted => ?_, fun closing closes => closed closing closes positive⟩
      exact (fits tick quoted).resolve_left (not_le.mpr positive)
  | none =>
    rw [Command.opens, market, Option.isSome_none, Bool.false_or, Option.isSome_iff_exists] at opens
    obtain ⟨⟨type, side⟩, pending⟩ := opens
    have open_ : ∀ closing, closesFirst cmd ≠ some closing := by
      cases cmd <;> simp [closesFirst] <;> cases pending
    simp only [safe_dispatch_pending pending, opening, Fits, pending, open_, false_implies,
      implies_true, and_true]
    refine ⟨fun sent entered => ⟨?_, fun falls tick quoted => ?_⟩, fun fits positive entered => ?_⟩
    · exact or_iff_not_imp_left.mpr fun positive => (sent (not_le.mp positive) entered).1
    · exact or_iff_not_imp_left.mpr fun positive =>
        (sent (not_le.mp positive) entered).2 falls tick quoted
    · refine ⟨(fits entered).1.resolve_left (not_le.mpr positive), fun falls tick quoted => ?_⟩
      exact ((fits entered).2 falls tick quoted).resolve_left (not_le.mpr positive)

theorem safe_iff (bound : Bound) (script : Script Result) :
    Safe terminal bound script ↔ ∀ log order next,
      script.Path log (.call (.orderSend (.order order)) next) →
        (∀ event ∈ log, terminal.Answers event.op event.answer) →
          bound order.position order.volume order.price := by
  rw [Safe, Program.onlyUnder_iff]
  constructor
  · intro every log order next path given
    exact every log _ next path given
  · intro every log op next path given
    cases op with
    | orderSend request =>
      cases request with
      | order order => exact every log order next path given
      | levels levels => trivial
    | _ => trivial

/-- **The budget of a signal.** The orders that open exposure lose at most the budget between their
price and the stop loss, whatever the broker replies, exactly if the volume of the signal fits the
budget at every price at which it may be sent. All orders do, those that close positions included,
exactly if the volumes of these fit it as well. -/
theorem orders_within_iff (reads : readCommand (settings.lower command) = some cmd)
    (opens : cmd.opens = true) (named : terminal.resolve settings symbol = name)
    (specified : Specified terminal name info) (budget : 0 < riskOf settings params)
    (stop : 0 < slOf settings params) :
    ((∀ log order next,
        (execute settings command symbol params).Path log (.call (.orderSend (.order order)) next) →
        (∀ event ∈ log, terminal.Answers event.op event.answer) → order.position = none →
        order.volume * |order.price - slOf settings params| / info.tradeTickSize * info.tradeTickValue ≤
          riskOf settings params) ↔
      OpeningFits settings terminal info params name cmd) ∧
    ((∀ log order next,
        (execute settings command symbol params).Path log (.call (.orderSend (.order order)) next) →
        (∀ event ∈ log, terminal.Answers event.op event.answer) →
        order.volume * |order.price - slOf settings params| / info.tradeTickSize * info.tradeTickValue ≤
          riskOf settings params) ↔
      OpeningFits settings terminal info params name cmd ∧
        ClosingFits settings terminal info params name cmd) := by
  have lost (volume price : ℚ) : volume * |price - slOf settings params| / info.tradeTickSize *
      info.tradeTickValue = volume * info.loss price (slOf settings params) := by
    rw [SymbolInfo.loss, mul_div_assoc, mul_assoc]
  simp only [lost]
  constructor
  · rw [← safe_iff fun position volume price => position = none →
      volume * info.loss price (slOf settings params) ≤ riskOf settings params,
      safe_execute_iff reads opens named specified budget stop (by simp)]
    simp [ClosingKeeps]
  · rw [← safe_iff fun _ volume price =>
      volume * info.loss price (slOf settings params) ≤ riskOf settings params,
      safe_execute_iff reads opens named specified budget stop (by simp)]
    rfl

/-- **Where signals fit**: on a grid of eight digits and with positive quotes, a signal fits its budget
unless its pending order may be sent to a market that is further from the stop loss than its entry. -/
theorem openingFits_of_near (specified : Specified terminal name info) (budget : 0 < riskOf settings params)
    {count : ℕ} (some_ : 0 < count) (grid : info.step = count / 10 ^ 8)
    (quotes : ∀ tick side, terminal.tick name = some tick → 0 < tick.price side)
    (near : ∀ type side tick, pendingTypes cmd = some (type, side) → settings.pendingFallback = true →
      terminal.tick name = some tick →
        |tick.price side - slOf settings params| ≤ |entryOf settings params - slOf settings params|) :
    OpeningFits settings terminal info params name cmd := by
  have fits := @sized_fits info specified.value specified.size count some_ grid
  rw [OpeningFits]
  cases market : opensAtMarket cmd with
  | some side =>
    intro tick quoted
    have same : terminal.ref settings params name cmd = tick.price side := by
      rw [Terminal.ref, market, quoted]
      rfl
    rw [Fits, Terminal.volume, same]
    exact fits budget (quotes tick side quoted) le_rfl _
  | none =>
    have same : terminal.ref settings params name cmd = entryOf settings params := by
      rw [Terminal.ref, market]
    cases pending : pendingTypes cmd with
    | none => trivial
    | some types =>
      intro entered
      simp only [Fits, Terminal.volume, same]
      refine ⟨fits budget entered le_rfl _, fun falls tick quoted => ?_⟩
      exact fits budget entered (near _ _ tick pending falls quoted) _

end Signal

/-! ### A buy stop that the market has passed -/

def defaults : Settings where
  magic := 20240101
  pendingFallback := true
  riskUsd := 0
  float := fun value => [(text "100", 100), (text "95", 95)].lookup value
  lower := id
  stripUpper := id
  general := fun _ => []

/-- A budget of 100 over the five points between the entry and the stop loss: 20 lots. -/
def stopParams : Params :=
  [(text "entry", text "100"), (text "sl", text "95"), (text "risk", text "100")]

def passed : Terminal where
  symbolMap := []
  info := fun _ => some ⟨1, 1, 1 / 100, 1 / 100, 100⟩
  tick := fun _ => some ⟨104, 105⟩
  positions := fun _ => none

theorem specified_passed (symbol : Text) :
    Specified passed symbol ⟨1, 1, 1 / 100, 1 / 100, 100⟩ where
  found := rfl
  value := one_pos
  size := one_pos

theorem onGrid_passed : OnGrid ⟨1, 1, 1 / 100, 1 / 100, 100⟩ where
  step := by norm_num
  digits := ⟨10 ^ 6, by norm_num⟩
  minimum := ⟨1, one_pos, by norm_num⟩
  maximum := ⟨10 ^ 4, by norm_num, by norm_num⟩
  ordered := by norm_num

theorem sizedVolume_isGreatest_passed :
    ∃ volume, (∀ returned, (sizedVolume (text "XAUUSD") 105 95 1 100).Yields passed.Answers returned ↔
        returned = volume) ∧
      IsGreatest (Affordable ⟨1, 1, 1 / 100, 1 / 100, 100⟩ 105 95 100) volume := by
  obtain ⟨volume, returns, -, best⟩ := sizedVolume_isGreatest passed (specified_passed (text "XAUUSD"))
    onGrid_passed (show (0 : ℚ) < 100 by norm_num) (show (0 : ℚ) < 95 by norm_num)
    (show (0 : ℚ) < 105 by norm_num) (by norm_num) 1
  exact ⟨volume, returns, (best (by norm_num [SymbolInfo.loss])).1⟩

def refusing : (op : Op) → Answer op
  | .symbolMap => []
  | .symbolInfo symbol => passed.info symbol
  | .symbolSelect _ => ()
  | .symbolInfoTick symbol => passed.tick symbol
  | .positionsGet _ => none
  | .orderSend (.order order) =>
    some ⟨if order.action = .pending then retcodeInvalidPrice else retcodeDone, 1, []⟩
  | .orderSend (.levels _) => none
  | .lastError => []

theorem answers_refusing (op : Op) : passed.Answers op (refusing op) := by
  cases op <;> trivial

/-- A market order of the same signal keeps its budget. -/
theorem orders_within_buy :
    0 < riskOf defaults stopParams ∧ ∀ log order next,
      (execute defaults (text "buy") (text "XAUUSD") stopParams).Path log
        (.call (.orderSend (.order order)) next) →
      (∀ event ∈ log, passed.Answers event.op event.answer) → order.position = none →
      order.volume * |order.price - slOf defaults stopParams| / 1 * 1 ≤ riskOf defaults stopParams := by
  have reads : readCommand (defaults.lower (text "buy")) = some .buy := by decide
  have budget : 0 < riskOf defaults stopParams := by decide +kernel
  have stop : 0 < slOf defaults stopParams := by decide +kernel
  refine ⟨budget, (orders_within_iff reads rfl rfl (specified_passed _) budget stop).1.mpr ?_⟩
  have grid : (⟨1, 1, 1 / 100, 1 / 100, 100⟩ : SymbolInfo).step = (10 ^ 6 : ℕ) / 10 ^ 8 := by
    decide +kernel
  refine openingFits_of_near (specified_passed _) budget (by decide) grid ?_
    (fun _ _ _ pending => by cases pending)
  rintro tick side ⟨⟩
  cases side <;> decide +kernel

/-- **The buy stop**: its entry is refused, and 20 lots are bought 10 points above the stop loss. -/
theorem fallback_beyond :
    ∃ log order next,
      (execute defaults (text "buystop") (text "XAUUSD") stopParams).Path log
        (.call (.orderSend (.order order)) next) ∧
      (∀ event ∈ log, passed.Answers event.op event.answer) ∧ order.position = none ∧
      riskOf defaults stopParams < order.volume * |order.price - slOf defaults stopParams| / 1 * 1 := by
  let beyond : Op → Bool
    | .orderSend (.order order) => order.position.isNone &&
        decide (riskOf defaults stopParams <
          order.volume * |order.price - slOf defaults stopParams| / 1 * 1)
    | _ => false
  have called : ((execute defaults (text "buystop") (text "XAUUSD") stopParams).calls refusing).any
      beyond = true := by decide +kernel
  obtain ⟨log, op, next, path, isBeyond, answers⟩ := Program.Path.to_call refusing called
  have given : ∀ event ∈ log, passed.Answers event.op event.answer := fun event member => by
    rw [answers event member]
    exact answers_refusing event.op
  cases op with
  | orderSend request =>
    cases request with
    | order order =>
      rw [Bool.and_eq_true, Option.isNone_iff_eq_none, decide_eq_true_eq] at isBeyond
      exact ⟨log, order, next, path, given, isBeyond.1, isBeyond.2⟩
    | levels levels => cases isBeyond
  | _ => cases isBeyond

end ExecRelay.Shim
