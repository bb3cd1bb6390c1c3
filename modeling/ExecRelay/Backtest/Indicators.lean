/-
**The indicators of the feature builder** (`apps/backtester/feature_builder.py`).

Prices are the elements of an ordered field, so arithmetic is exact; the square root is a parameter. A
list of the source with a `None` where there is not enough history is a list of options. The lengths
of windows are at least one, which is how the builder calls them.

Each indicator is causal: what it says about a bar is settled by the bars up to it. Two of them need
more than a look at their parts:

* `align_eq_ok_iff`: a function of windows is aligned with values that are none first and then all
  defined, and with no others;
* `resampleCloses_take`: a bar settles only the bins that are closed with it.
-/

import ExecRelay.Backtest.Comparison
import ExecRelay.Lib.Causal
import Mathlib.Algebra.Order.BigOperators.Group.List
import Mathlib.Algebra.Order.Field.Basic
import Mathlib.Data.List.Chain
import Mathlib.Tactic.FieldSimp
import Mathlib.Tactic.Ring

namespace ExecRelay.Backtest

open Lib

/-- What Python raises. -/
inductive Fault
  | valueError (message : Bytes)
  | zeroDivisionError
  | indexError
  | typeError
  deriving DecidableEq, Repr

variable {Stamp K : Type}

/-! ### Values that start late -/

/-- A function of windows over the values from the first defined one on. -/
def alignFromFirstDefined (values : List (Option K)) (length : Nat)
    (fn : List K → Nat → List (Option K)) : Except Fault (List (Option K)) :=
  match values.findIdx? Option.isSome with
  | none => .ok (List.replicate values.length none)
  | some start =>
    match (values.drop start).mapM id with
    | none => .error (.valueError (lit "values must be contiguous once defined"))
    | some clean => .ok (List.replicate start none ++ fn clean length)

/-- Values that are none first and then all defined. -/
def late (start : Nat) (clean : List K) : List (Option K) :=
  List.replicate start none ++ clean.map some

theorem late_take (start k : Nat) (clean : List K) :
    (late start clean).take k = late (min k start) (clean.take (k - start)) := by
  rw [late, List.take_append, List.take_replicate, List.length_replicate, ← List.map_take]
  rfl

theorem mapM_id_eq_some {values : List (Option K)} {clean : List K} :
    values.mapM id = some clean ↔ values = clean.map some := by
  induction values generalizing clean with
  | nil => cases clean <;> simp
  | cons first rest ih =>
    cases first with
    | none => cases clean <;> simp
    | some value => cases clean <;> simp [Option.bind_eq_some_iff, ih, and_comm]

variable {length : Nat} {fn : List K → Nat → List (Option K)} {values results : List (Option K)}

/-- **Aligned values** are none first and then all defined. -/
theorem align_eq_ok_iff (nothing : fn [] length = []) :
    alignFromFirstDefined values length fn = .ok results ↔
      ∃ start clean, values = late start clean ∧
        results = List.replicate start none ++ fn clean length := by
  unfold alignFromFirstDefined
  constructor
  · intro aligned
    split at aligned
    · rename_i undefined
      cases aligned
      refine ⟨values.length, [], ?_, by rw [nothing, List.append_nil]⟩
      rw [late, List.map_nil, List.append_nil]
      refine List.eq_replicate_iff.mpr ⟨rfl, fun value inside => ?_⟩
      exact Option.not_isSome_iff_eq_none.mp
        (Bool.eq_false_iff.mp (List.findIdx?_eq_none_iff.mp undefined value inside))
    · rename_i start found
      split at aligned
      · cases aligned
      · rename_i clean defined
        cases aligned
        refine ⟨start, clean, ?_, rfl⟩
        obtain ⟨inside, -, before⟩ := List.findIdx?_eq_some_iff_getElem.mp found
        have undefined : values.take start = List.replicate start none := by
          refine List.eq_replicate_iff.mpr ⟨List.length_take_of_le (Nat.le_of_lt inside), ?_⟩
          intro value member
          obtain ⟨i, early, rfl⟩ := List.mem_take_iff_getElem.mp member
          exact Option.not_isSome_iff_eq_none.mp (before i (by omega))
        rw [late, ← mapM_id_eq_some.mp defined, ← undefined, List.take_append_drop]
  · rintro ⟨start, clean, rfl, rfl⟩
    cases clean with
    | nil =>
      have undefined : (late start ([] : List K)).findIdx? Option.isSome = none := by
        simp [late]
      rw [undefined, nothing]
      simp [late]
    | cons first rest =>
      have found : (late start (first :: rest)).findIdx? Option.isSome = some start := by
        simp [late, List.findIdx?_append, List.findIdx?_cons]
      have defined : ((late start (first :: rest)).drop start).mapM id = some (first :: rest) := by
        rw [mapM_id_eq_some, late, List.drop_left' (List.length_replicate)]
      rw [found]
      dsimp only
      rw [defined]

theorem partialCausal_align (causal : Causal fun values => fn values length) :
    PartialCausal fun values => alignFromFirstDefined values length fn := by
  intro k values results aligned
  obtain ⟨start, clean, rfl, rfl⟩ := (align_eq_ok_iff causal.nil).mp aligned
  refine (align_eq_ok_iff causal.nil).mpr ⟨_, _, late_take start k clean, ?_⟩
  rw [List.take_append, List.take_replicate, List.length_replicate]
  exact congrArg _ (causal (k - start) clean).symm

theorem length_of_align (sized : ∀ clean, (fn clean length).length = clean.length)
    (aligned : alignFromFirstDefined values length fn = .ok results) :
    results.length = values.length := by
  have nothing : fn [] length = [] := List.length_eq_zero_iff.mp (sized [])
  obtain ⟨start, clean, rfl, rfl⟩ := (align_eq_ok_iff nothing).mp aligned
  simp [late, sized]

theorem fromPrevious_eq_late {α : Type} (f : α → α → K) (values : List α) :
    fromPrevious f values = late (min 1 values.length) (successive f values) := by
  cases values with
  | nil => rfl
  | cons first rest =>
    rfl

/-- Once there is a value, there is one from then on. -/
def StaysDefined {Value : Type} (values : List (Option Value)) : Prop :=
  values.IsChain fun value next => value.isSome → next.isSome

theorem StaysDefined.replicate_append {Value : Type} {values : List (Option Value)}
    (defined : StaysDefined values) (start : Nat) :
    StaysDefined (List.replicate start none ++ values) := by
  induction start with
  | zero => exact defined
  | succ start ih =>
    refine List.isChain_cons.mpr ⟨?_, ih⟩
    intro _ _ impossible
    cases impossible

theorem StaysDefined.exists_late {values : List (Option K)} (defined : StaysDefined values) :
    ∃ start clean, values = late start clean := by
  induction values with
  | nil => exact ⟨0, [], rfl⟩
  | cons first rest ih =>
    obtain ⟨next, behind⟩ := List.isChain_cons.mp defined
    obtain ⟨start, clean, rfl⟩ := ih behind
    cases first with
    | none => exact ⟨start + 1, clean, rfl⟩
    | some value =>
      cases start with
      | zero => exact ⟨0, value :: clean, rfl⟩
      | succ start => cases next none rfl rfl

/-! ### Higher timeframes -/

/-- The last bin of `factor` bars that is closed as of the bar `i`. -/
def lastClosedBin (i factor : Nat) : Option Nat :=
  let binIdx := i / factor
  if i % factor = factor - 1 then some binIdx
  else if binIdx = 0 then none
  else some (binIdx - 1)

theorem lastClosedBin_lt {i factor closedBin k : Nat} (positive : 0 < factor) (early : i < k)
    (closed : lastClosedBin i factor = some closedBin) : closedBin < k / factor := by
  have parts := Nat.div_add_mod i factor
  have bars : (closedBin + 1) * factor ≤ k := by
    unfold lastClosedBin at closed
    dsimp only at closed
    rw [Nat.mul_comm factor] at parts
    split at closed
    · cases closed
      rw [Nat.add_mul, Nat.one_mul]
      omega
    · split at closed
      · cases closed
      · rename_i nonzero
        cases closed
        rw [Nat.sub_add_cancel (Nat.pos_of_ne_zero nonzero)]
        omega
  exact (Nat.le_div_iff_mul_le positive).mpr bars

/-- Where the bins of `factor` bars start, as long as they are full. -/
def binStarts (count factor : Nat) : List Nat :=
  (List.range ((count + 1 - factor + (factor - 1)) / factor)).map (· * factor)

def resampleCloses (candles : List (Candle Stamp K)) (factor : Nat) : Except Fault (List K) :=
  if factor = 0 then .error (.valueError (lit "range() arg 3 must not be zero"))
  else .ok ((binStarts candles.length factor).filterMap fun start =>
    (candles[start + factor - 1]?).map Candle.close)

variable {factor : Nat}

theorem binStarts_eq (positive : 0 < factor) (count : Nat) :
    binStarts count factor = (List.range (count / factor)).map (· * factor) := by
  unfold binStarts
  by_cases full : factor ≤ count + 1
  · rw [show count + 1 - factor + (factor - 1) = count by omega]
  · rw [Nat.div_eq_of_lt (by omega), Nat.div_eq_of_lt (by omega)]

theorem map_some_filterMap {α β : Type} {g : α → Option β} {values : List α}
    (defined : ∀ value ∈ values, (g value).isSome) : (values.filterMap g).map some = values.map g := by
  induction values with
  | nil => rfl
  | cons first rest ih =>
    obtain ⟨here, behind⟩ := List.forall_mem_cons.mp defined
    obtain ⟨result, found⟩ := Option.isSome_iff_exists.mp here
    rw [List.filterMap_cons_some found, List.map_cons, List.map_cons, ih behind, found]

theorem lastBar_lt {bin count factor : Nat} (positive : 0 < factor) (closed : bin < count / factor) :
    bin * factor + factor - 1 < count := by
  have bars : (bin + 1) * factor ≤ count := (Nat.le_div_iff_mul_le positive).mp closed
  rw [Nat.add_mul, Nat.one_mul] at bars
  omega

variable {candles : List (Candle Stamp K)} {closes : List K}

/-- **The closed bins**, each with the close of its last bar. -/
theorem resampleCloses_eq_ok_iff :
    resampleCloses candles factor = .ok closes ↔
      0 < factor ∧ closes.map some = (List.range (candles.length / factor)).map fun bin =>
        (candles[bin * factor + factor - 1]?).map Candle.close := by
  unfold resampleCloses
  by_cases zero : factor = 0
  · rw [if_pos zero]
    constructor
    · intro impossible
      cases impossible
    · omega
  · have positive : 0 < factor := Nat.pos_of_ne_zero zero
    have defined : ∀ bin ∈ List.range (candles.length / factor),
        ((candles[bin * factor + factor - 1]?).map Candle.close).isSome := by
      intro bin closed
      rw [Option.isSome_map, List.getElem?_eq_getElem (lastBar_lt positive (List.mem_range.mp closed))]
      rfl
    have all := map_some_filterMap defined
    rw [if_neg zero, binStarts_eq positive, List.filterMap_map, ← all]
    constructor
    · intro same
      cases same
      exact ⟨positive, rfl⟩
    · rintro ⟨-, same⟩
      exact congrArg _ (List.map_injective_iff.mpr (Option.some_injective K) same).symm

theorem resampleCloses_isOk (positive : 0 < factor) (candles : List (Candle Stamp K)) :
    ∃ closes, resampleCloses candles factor = .ok closes := by
  rw [resampleCloses, if_neg (Nat.ne_of_gt positive)]
  exact ⟨_, rfl⟩

theorem resampleCloses_length (built : resampleCloses candles factor = .ok closes) :
    closes.length = candles.length / factor := by
  have bins := congrArg List.length (resampleCloses_eq_ok_iff.mp built).2
  rw [List.length_map, List.length_map, List.length_range] at bins
  exact bins

theorem resampleCloses_take (built : resampleCloses candles factor = .ok closes) (k : Nat) :
    resampleCloses (candles.take k) factor = .ok (closes.take (k / factor)) := by
  obtain ⟨positive, bins⟩ := resampleCloses_eq_ok_iff.mp built
  refine resampleCloses_eq_ok_iff.mpr ⟨positive, ?_⟩
  have count : min k candles.length / factor = min (k / factor) (candles.length / factor) := by
    rcases Nat.le_total k candles.length with le | le
    · rw [Nat.min_eq_left le, Nat.min_eq_left (Nat.div_le_div_right le)]
    · rw [Nat.min_eq_right le, Nat.min_eq_right (Nat.div_le_div_right le)]
  rw [List.map_take, bins, ← List.map_take, List.take_range, List.length_take, count]
  apply List.map_congr_left
  intro bin inside
  have early : bin < k / factor := Nat.lt_of_lt_of_le (List.mem_range.mp inside) (Nat.min_le_left _ _)
  rw [List.getElem?_take_of_lt (lastBar_lt positive early)]

variable [Field K]

/-! ### Averages -/

/-- The loop of `sma` from the place `i` on. -/
def smaLoop (values : List K) (length : Nat) : List K → Nat → K → List (Option K)
  | [], _, _ => []
  | v :: rest, i, windowSum =>
    let added := windowSum + v
    let windowSum := if length ≤ i then added - values.getD (i - length) 0 else added
    (if length - 1 ≤ i then some (windowSum / length) else none) ::
      smaLoop values length rest (i + 1) windowSum

def sma (values : List K) (length : Nat) : List (Option K) :=
  smaLoop values length values 0 0

/-- The standard deviation of the whole window. -/
def stdev (sqrt : K → K) (values : List K) (length : Nat) : List (Option K) :=
  (List.range values.length).map fun i =>
    if length - 1 ≤ i then
      let window := (values.take (i + 1)).drop (i + 1 - length)
      let mean := window.sum / length
      let var : K := (window.map fun x : K => (x - mean) ^ 2).sum / length
      some (sqrt var)
    else none

def ema (values : List K) (length : Nat) : List K :=
  let alpha : K := 2 / (length + 1)
  fromFirst (fun out v => alpha * v + (1 - alpha) * out) id values

/-- One step of Wilder's smoothing. -/
def smooth (length : Nat) (prev v : K) : K :=
  prev + (v - prev) / length

def rma (values : List K) (length : Nat) : List (Option K) :=
  if values.length < length then List.replicate values.length none
  else
    let seed := (values.take length).sum / length
    List.replicate (length - 1) none ++ ((values.drop length).scanl (smooth length) seed).map some

theorem smaLoop_take (values : List K) (length k : Nat) (rest : List K) (i : Nat) (windowSum : K) :
    smaLoop (values.take k) length (rest.take (k - i)) i windowSum =
      (smaLoop values length rest i windowSum).take (k - i) := by
  induction rest generalizing i windowSum with
  | nil => simp [smaLoop]
  | cons v rest ih =>
    by_cases inside : i < k
    · obtain ⟨left, count⟩ : ∃ left, k - i = left + 1 := ⟨k - (i + 1), by omega⟩
      have behind : left = k - (i + 1) := by omega
      have same : (values.take k).getD (i - length) 0 = values.getD (i - length) 0 := by
        rw [List.getD_eq_getElem?_getD, List.getElem?_take_of_lt (by omega), List.getD_eq_getElem?_getD]
      rw [count, List.take_succ_cons, smaLoop, smaLoop, List.take_succ_cons, behind, same, ih]
    · rw [Nat.sub_eq_zero_of_le (Nat.le_of_not_lt inside)]
      rfl

theorem causal_sma (length : Nat) : Causal fun values : List K => sma values length :=
  fun k values => smaLoop_take values length k values 0 0

theorem length_smaLoop (values : List K) (length : Nat) (rest : List K) (i : Nat) (windowSum : K) :
    (smaLoop values length rest i windowSum).length = rest.length := by
  induction rest generalizing i windowSum with
  | nil => rfl
  | cons v rest ih => rw [smaLoop, List.length_cons, ih, List.length_cons]

@[simp]
theorem length_sma (values : List K) (length : Nat) : (sma values length).length = values.length :=
  length_smaLoop values length values 0 0

theorem causal_stdev (sqrt : K → K) (length : Nat) :
    Causal fun values : List K => stdev sqrt values length := by
  apply Causal.of_index
  intro values k i inside
  rw [List.take_take, Nat.min_eq_left (by omega)]

@[simp]
theorem length_stdev (sqrt : K → K) (values : List K) (length : Nat) :
    (stdev sqrt values length).length = values.length := by
  simp [stdev]

theorem causal_ema (length : Nat) : Causal fun values : List K => ema values length :=
  causal_fromFirst _ _

@[simp]
theorem length_ema (values : List K) (length : Nat) : (ema values length).length = values.length :=
  length_fromFirst _ _ _

theorem causal_rma (positive : 0 < length) : Causal fun values : List K => rma values length := by
  intro k values
  show rma (values.take k) length = (rma values length).take k
  unfold rma
  by_cases short : (values.take k).length < length
  · rw [if_pos short, List.length_take]
    rw [List.length_take] at short
    split
    · rw [List.take_replicate]
    · rw [List.take_append_of_le_length (by rw [List.length_replicate]; omega), List.take_replicate]
      congr 1
      omega
  · rw [if_neg short]
    rw [List.length_take] at short
    rw [if_neg (by omega)]
    obtain ⟨more, rfl⟩ : ∃ more, k = length + more := ⟨k - length, by omega⟩
    have count : length + more - (length - 1) = more + 1 := by omega
    have warmUp : (List.replicate (length - 1) (none : Option K)).length ≤ length + more := by
      rw [List.length_replicate]
      omega
    simp only [List.take_take, Nat.min_eq_left (Nat.le_add_right length more), List.drop_take,
      Nat.add_sub_cancel_left]
    rw [List.take_append, List.length_replicate, count, ← List.map_take, List.take_scanl,
      List.take_of_length_le warmUp]

@[simp]
theorem length_rma (values : List K) (positive : 0 < length) :
    (rma values length).length = values.length := by
  unfold rma
  split
  · rw [List.length_replicate]
  · simp only [List.length_append, List.length_replicate, List.length_map, List.length_scanl,
      List.length_drop]
    omega

variable [LinearOrder K]

/-! ### Relative strength -/

/-- The index of one bar from the smoothed gains and losses. -/
def rsiValue (up down : Option K) : Option K :=
  match up, down with
  | some u, some d =>
    if d = 0 then some (if 0 < u then 100 else 50)
    else
      let rs := u / d
      some (100 - 100 / (1 + rs))
  | _, _ => none

def rsiFromCloses (closes : List K) (length : Nat) : List (Option K) :=
  if closes.length < 2 then List.replicate closes.length none
  else
    let gains := successive (fun prev close => max (close - prev) 0) closes
    let losses := successive (fun prev close => max (prev - close) 0) closes
    none :: List.zipWith rsiValue (rma gains length) (rma losses length)

theorem rsiFromCloses_cons (positive : 0 < length) (first : K) (rest : List K) :
    rsiFromCloses (first :: rest) length =
      none :: List.zipWith rsiValue
        (rma (successive (fun prev close => max (close - prev) 0) (first :: rest)) length)
        (rma (successive (fun prev close => max (prev - close) 0) (first :: rest)) length) := by
  unfold rsiFromCloses
  cases rest with
  | nil =>
    have nothing : rma ([] : List K) length = [] := (causal_rma positive).nil
    simp [successive, nothing]
  | cons second rest => rw [if_neg (by simp)]

theorem causal_rsiFromCloses (positive : 0 < length) :
    Causal fun closes : List K => rsiFromCloses closes length := by
  intro k closes
  show rsiFromCloses (closes.take k) length = (rsiFromCloses closes length).take k
  cases closes with
  | nil => simp [rsiFromCloses]
  | cons first rest =>
    cases k with
    | zero => simp [rsiFromCloses]
    | succ k =>
      have causal := causal_rma (K := K) positive
      rw [List.take_succ_cons, rsiFromCloses_cons positive, rsiFromCloses_cons positive,
        List.take_succ_cons, ← List.take_succ_cons, successive_take, successive_take,
        List.take_zipWith]
      exact congrArg (none :: ·) (congrArg₂ _ (causal k _) (causal k _))

@[simp]
theorem length_rsiFromCloses (positive : 0 < length) (closes : List K) :
    (rsiFromCloses closes length).length = closes.length := by
  cases closes with
  | nil => rfl
  | cons first rest => simp [rsiFromCloses_cons positive, length_rma _ positive]

/-! ### Ranges -/

/-- The true range of a bar after another. -/
def barRange (prev c : Candle Stamp K) : K :=
  max (max (c.high - c.low) |c.high - prev.close|) |c.low - prev.close|

def trueRange (candles : List (Candle Stamp K)) : List (Option K) :=
  fromPrevious barRange candles

def atr (candles : List (Candle Stamp K)) (length : Nat) : Except Fault (List (Option K)) :=
  alignFromFirstDefined (trueRange candles) length rma

theorem partialCausal_atr (positive : 0 < length) :
    PartialCausal fun candles : List (Candle Stamp K) => atr candles length :=
  (partialCausal_align (causal_rma positive)).comp (causal_fromPrevious barRange)

theorem atr_isOk (positive : 0 < length) (candles : List (Candle Stamp K)) :
    ∃ ranges, atr candles length = .ok ranges :=
  ⟨_, (align_eq_ok_iff (causal_rma positive).nil).mpr ⟨_, _, fromPrevious_eq_late barRange candles, rfl⟩⟩

/-! ### Directional movement -/

def plusMove (prev c : Candle Stamp K) : K :=
  let upMove := c.high - prev.high
  let downMove := prev.low - c.low
  if downMove < upMove ∧ 0 < upMove then upMove else 0

def minusMove (prev c : Candle Stamp K) : K :=
  let upMove := c.high - prev.high
  let downMove := prev.low - c.low
  if upMove < downMove ∧ 0 < downMove then downMove else 0

/-- The directional indicators of one bar, and how far they are apart. -/
structure Direction (K : Type) where
  plusDI : K
  minusDI : K
  dx : K

/-- One turn of the loop of `dmi`. -/
def direction (trRma plusRma minusRma : Option K) : Option (Direction K) :=
  match trRma, plusRma, minusRma with
  | some tr, some plus, some minus =>
    if tr = 0 then none
    else
      let pdi := 100 * plus / tr
      let mdi := 100 * minus / tr
      let denom := pdi + mdi
      some ⟨pdi, mdi, if denom = 0 then 0 else 100 * |pdi - mdi| / denom⟩
  | _, _, _ => none

/-- The turns of the loop of `dmi`. -/
def directions (trRma plusRma minusRma : List (Option K)) : List (Option (Direction K)) :=
  List.zipWith (fun tr moves => direction tr moves.1 moves.2) trRma (plusRma.zip minusRma)

structure DMI (K : Type) where
  plusDI : List (Option K)
  minusDI : List (Option K)
  adx : List (Option K)

def dmi (candles : List (Candle Stamp K)) (length : Nat) : Except Fault (DMI K) := do
  let plusDM := fromPrevious plusMove candles
  let minusDM := fromPrevious minusMove candles
  let trRma ← alignFromFirstDefined (trueRange candles) length rma
  let plusRma ← alignFromFirstDefined plusDM length rma
  let minusRma ← alignFromFirstDefined minusDM length rma
  let bars := directions trRma plusRma minusRma
  let adx ← alignFromFirstDefined (bars.map (Option.map Direction.dx)) length rma
  return ⟨bars.map (Option.map Direction.plusDI), bars.map (Option.map Direction.minusDI), adx⟩

/-- The first bars of the three series. -/
def DMI.take (k : Nat) (series : DMI K) : DMI K :=
  ⟨series.plusDI.take k, series.minusDI.take k, series.adx.take k⟩

variable {series : DMI K}

theorem dmi_eq_ok_iff :
    dmi candles length = .ok series ↔ ∃ trRma plusRma minusRma adx,
      alignFromFirstDefined (trueRange candles) length rma = .ok trRma ∧
      alignFromFirstDefined (fromPrevious plusMove candles) length rma = .ok plusRma ∧
      alignFromFirstDefined (fromPrevious minusMove candles) length rma = .ok minusRma ∧
      alignFromFirstDefined ((directions trRma plusRma minusRma).map (Option.map Direction.dx)) length
        rma = .ok adx ∧
      series = ⟨(directions trRma plusRma minusRma).map (Option.map Direction.plusDI),
        (directions trRma plusRma minusRma).map (Option.map Direction.minusDI), adx⟩ := by
  simp only [dmi, bind_eq_ok]
  constructor
  · rintro ⟨trRma, range, plusRma, plus, minusRma, minus, adx, spread, same⟩
    cases same
    exact ⟨trRma, plusRma, minusRma, adx, range, plus, minus, spread, rfl⟩
  · rintro ⟨trRma, plusRma, minusRma, adx, range, plus, minus, spread, rfl⟩
    exact ⟨trRma, range, plusRma, plus, minusRma, minus, adx, spread, rfl⟩

theorem directions_take (k : Nat) (trRma plusRma minusRma : List (Option K)) :
    directions (trRma.take k) (plusRma.take k) (minusRma.take k) =
      (directions trRma plusRma minusRma).take k := by
  rw [directions, directions, List.take_zipWith, List.zip_eq_zipWith, List.zip_eq_zipWith,
    List.take_zipWith]

theorem dmi_take (positive : 0 < length) (built : dmi candles length = .ok series) (k : Nat) :
    dmi (candles.take k) length = .ok (series.take k) := by
  have aligned := partialCausal_align (causal_rma (K := K) positive)
  obtain ⟨trRma, plusRma, minusRma, adx, range, plus, minus, spread, rfl⟩ := dmi_eq_ok_iff.mp built
  refine dmi_eq_ok_iff.mpr ⟨trRma.take k, plusRma.take k, minusRma.take k, adx.take k,
    aligned.comp (causal_fromPrevious barRange) k _ _ range,
    aligned.comp (causal_fromPrevious plusMove) k _ _ plus,
    aligned.comp (causal_fromPrevious minusMove) k _ _ minus, ?_, ?_⟩
  · rw [directions_take, List.map_take]
    exact aligned k _ _ spread
  · rw [directions_take, List.map_take, List.map_take]
    rfl

theorem dmi_length (positive : 0 < length) (built : dmi candles length = .ok series) :
    series.plusDI.length = candles.length ∧ series.minusDI.length = candles.length ∧
      series.adx.length = candles.length := by
  have sized {values results : List (Option K)}
      (aligned : alignFromFirstDefined values length rma = .ok results) :
      results.length = values.length :=
    length_of_align (fun clean => length_rma clean positive) aligned
  obtain ⟨trRma, plusRma, minusRma, adx, range, plus, minus, spread, rfl⟩ := dmi_eq_ok_iff.mp built
  have bars : (directions trRma plusRma minusRma).length = candles.length := by
    simp [directions, sized range, sized plus, sized minus, trueRange]
  refine ⟨?_, ?_, ?_⟩
  · rw [List.length_map, bars]
  · rw [List.length_map, bars]
  · rw [sized spread, List.length_map, bars]

section Contiguous

theorem directions_late (start : Nat) (ranges plus minus : List K) :
    directions (late start ranges) (late start plus) (late start minus) =
      List.replicate start none ++
        directions (ranges.map some) (plus.map some) (minus.map some) := by
  induction start with
  | zero => rfl
  | succ start ih => exact congrArg (none :: ·) ih

theorem staysDefined_directions {ranges : List K} (plus minus : List K)
    (kept : ranges.IsChain fun range next => range ≠ 0 → next ≠ 0) :
    StaysDefined (directions (ranges.map some) (plus.map some) (minus.map some)) := by
  have defined (tr plus minus : K) : (direction (some tr) (some plus) (some minus)).isSome ↔ tr ≠ 0 := by
    by_cases zero : tr = 0 <;> simp [direction, zero]
  induction ranges generalizing plus minus with
  | nil => exact .nil
  | cons range ranges ih =>
    obtain ⟨next, behind⟩ := List.isChain_cons.mp kept
    rcases plus with _ | ⟨up, plus⟩
    · exact .nil
    rcases minus with _ | ⟨down, minus⟩
    · exact .nil
    refine List.isChain_cons.mpr ⟨?_, ih plus minus behind⟩
    intro bar first
    rcases ranges with _ | ⟨range', ranges⟩ <;> rcases plus with _ | ⟨up', plus⟩ <;>
      rcases minus with _ | ⟨down', minus⟩ <;> cases first
    show (direction (some range) (some up) (some down)).isSome →
      (direction (some range') (some up') (some down')).isSome
    rw [defined, defined]
    exact next range' rfl

variable [IsStrictOrderedRing K]

variable {length : Nat}

theorem smooth_eq (positive : 0 < length) (prev v : K) :
    smooth length prev v = (prev * (length - 1) + v) / length := by
  have nonzero : (length : K) ≠ 0 := Nat.cast_ne_zero.mpr (by omega)
  rw [smooth]
  field_simp
  ring

variable {prev v : K}

theorem smooth_nonneg (positive : 0 < length) (before : 0 ≤ prev) (value : 0 ≤ v) :
    0 ≤ smooth length prev v := by
  have one : (1 : K) ≤ length := Nat.one_le_cast.mpr positive
  rw [smooth_eq positive]
  exact div_nonneg (add_nonneg (mul_nonneg before (sub_nonneg.mpr one)) value) (Nat.cast_nonneg _)

theorem smooth_pos (long : 2 ≤ length) (before : 0 < prev) (value : 0 ≤ v) :
    0 < smooth length prev v := by
  have one : (1 : K) < length := Nat.one_lt_cast.mpr long
  rw [smooth_eq (by omega)]
  exact div_pos (add_pos_of_pos_of_nonneg (mul_pos before (sub_pos.mpr one)) value)
    (lt_trans one_pos one)

/-- **A smoothed series that has left zero** does not come back to it. -/
theorem chain_smooth (long : 2 ≤ length) {values : List K} (nonneg : ∀ v ∈ values, 0 ≤ v) {seed : K}
    (start : 0 ≤ seed) :
    (values.scanl (smooth length) seed).IsChain fun value next => value ≠ 0 → next ≠ 0 := by
  induction values generalizing seed with
  | nil => exact .singleton _
  | cons v rest ih =>
    obtain ⟨here, behind⟩ := List.forall_mem_cons.mp nonneg
    rw [List.scanl_cons, List.isChain_cons]
    refine ⟨?_, ih behind (smooth_nonneg (by omega) start here)⟩
    intro next first nonzero
    rw [List.head?_scanl] at first
    cases first
    exact ne_of_gt (smooth_pos long (lt_of_le_of_ne start nonzero.symm) here)

theorem rma_eq_late (long : 2 ≤ length) (values : List K) :
    ∃ scan, rma values length = late (min values.length (length - 1)) scan ∧
      ((∀ v ∈ values, 0 ≤ v) → scan.IsChain fun value next => value ≠ 0 → next ≠ 0) := by
  unfold rma
  split
  · refine ⟨[], ?_, fun _ => .nil⟩
    rw [Nat.min_eq_left (by omega), late, List.map_nil, List.append_nil]
  · refine ⟨(values.drop length).scanl (smooth length) ((values.take length).sum / length), ?_, ?_⟩
    · rw [Nat.min_eq_right (by omega)]
      rfl
    · intro nonneg
      have total : 0 ≤ (values.take length).sum :=
        List.sum_nonneg fun v inside => nonneg v (List.mem_of_mem_take inside)
      exact chain_smooth long (fun v inside => nonneg v (List.mem_of_mem_drop inside))
        (div_nonneg total (Nat.cast_nonneg _))

theorem barRange_nonneg (prev c : Candle Stamp K) : 0 ≤ barRange prev c :=
  le_max_of_le_right (abs_nonneg _)

/-- **`dmi` never finds a gap** in what it smooths. -/
theorem dmi_isOk (long : 2 ≤ length) (candles : List (Candle Stamp K)) :
    ∃ series, dmi candles length = .ok series := by
  have nothing : rma ([] : List K) length = [] := (causal_rma (by omega)).nil
  obtain ⟨ranges, range, kept⟩ := rma_eq_late long (successive barRange candles)
  obtain ⟨plus, up, -⟩ := rma_eq_late long (successive plusMove candles)
  obtain ⟨minus, down, -⟩ := rma_eq_late long (successive minusMove candles)
  let start := min 1 candles.length + min (candles.length - 1) (length - 1)
  have aligned {f : Candle Stamp K → Candle Stamp K → K} {scan : List K}
      (shape : rma (successive f candles) length =
        late (min (successive f candles).length (length - 1)) scan) :
      alignFromFirstDefined (fromPrevious f candles) length rma = .ok (late start scan) := by
    refine (align_eq_ok_iff nothing).mpr ⟨_, _, fromPrevious_eq_late f candles, ?_⟩
    rw [shape, late, late, ← List.append_assoc, List.replicate_append_replicate, length_successive]
  have gapless : StaysDefined ((directions (late start ranges) (late start plus)
      (late start minus)).map (Option.map Direction.dx)) := by
    have bars := staysDefined_directions plus minus
      (kept (forall_mem_successive barRange_nonneg candles))
    rw [StaysDefined, List.isChain_map, directions_late]
    simp only [Option.isSome_map]
    exact bars.replicate_append start
  obtain ⟨from_, clean, shape⟩ := gapless.exists_late
  exact ⟨_, dmi_eq_ok_iff.mpr ⟨_, _, _, _, aligned range, aligned up, aligned down,
    (align_eq_ok_iff nothing).mpr ⟨from_, clean, shape, rfl⟩, rfl⟩⟩

end Contiguous

/-! ### Returns -/

/-- The return from one close to the next. -/
def barReturn (prev close : K) : Except Fault K :=
  if prev = 0 then .error .zeroDivisionError else .ok ((close - prev) / prev)

/-- The returns from bar to bar, none for the first. -/
def oneBarReturns (closes : List K) : Except Fault (List (Option K)) := do
  let returns ← (successive Prod.mk closes).mapM fun bars => barReturn bars.1 bars.2
  return none :: returns.map some

variable {returns : List (Option K)} {closes : List K}

theorem oneBarReturns_take (built : oneBarReturns closes = .ok returns) (k : Nat) :
    oneBarReturns (closes.take (k + 1)) = .ok (returns.take (k + 1)) := by
  simp only [oneBarReturns, bind_eq_ok] at built ⊢
  obtain ⟨values, succeeds, same⟩ := built
  cases same
  refine ⟨values.take k, ?_, ?_⟩
  · rw [successive_take]
    exact partialCausal_mapM _ k _ _ succeeds
  · rw [List.map_take]
    rfl

theorem oneBarReturns_eq_late (built : oneBarReturns closes = .ok returns) :
    ∃ clean, returns = late 1 clean := by
  simp only [oneBarReturns, bind_eq_ok] at built
  obtain ⟨values, -, same⟩ := built
  cases same
  exact ⟨values, rfl⟩

theorem oneBarReturns_length (built : oneBarReturns closes = .ok returns) :
    returns.length = closes.length - 1 + 1 := by
  simp only [oneBarReturns, bind_eq_ok] at built
  obtain ⟨values, succeeds, same⟩ := built
  cases same
  rw [List.length_cons, List.length_map, length_of_mapM succeeds, length_successive]

/-- **The returns exist** if no close but the last is zero. -/
theorem oneBarReturns_isOk_iff :
    (∃ returns, oneBarReturns closes = .ok returns) ↔ ∀ close ∈ closes.dropLast, close ≠ 0 := by
  have divides (prev close : K) : (∃ value, barReturn prev close = .ok value) ↔ prev ≠ 0 := by
    unfold barReturn
    split <;> simp [*]
  have mapped : (∃ returns, oneBarReturns closes = .ok returns) ↔
      ∃ values, ((successive Prod.mk closes).mapM fun bars => barReturn bars.1 bars.2) = .ok values := by
    simp only [oneBarReturns, bind_eq_ok]
    constructor
    · rintro ⟨_, values, succeeds, -⟩
      exact ⟨values, succeeds⟩
    · rintro ⟨values, succeeds⟩
      exact ⟨_, values, succeeds, rfl⟩
  rw [mapped, mapM_isOk_iff, ← map_fst_successive, List.forall_mem_map]
  simp only [divides]

end ExecRelay.Backtest
