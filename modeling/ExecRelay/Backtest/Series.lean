/-
**What the indicators can say** (`apps/backtester/feature_builder.py`).

Three families of facts about the series of the feature builder, over exact arithmetic.

* `sma_eq_mean`: the running sum of `sma` is the direct sum of its window, which is also that of `stdev`;
* `dmi_bounded`: Wilder's smoothing is linear and monotone (`wilder_add`, `wilder_mono`), so what holds of
  the moves and the range of each bar holds of the smoothed series, and the directional indicators, their
  index and the relative strength are percentages;
* `mirrored`: upside down bars have the same range, the moves of a bar change places, and with them the
  gains and the losses.
-/

import ExecRelay.Backtest.Uplift
import Mathlib.Data.List.Zip
import Mathlib.Tactic.Linarith

namespace ExecRelay.Backtest

open Lib

variable {Stamp K : Type} [Field K] {length : Nat}

/-! ### The sliding window -/

/-- The last `length` of the first `n` values. -/
def window (values : List K) (length n : Nat) : List K :=
  (values.take n).drop (n - length)

/-- The window sum of `sma` after its first turns. -/
def windowSum (values : List K) (length : Nat) : Nat → K
  | 0 => 0
  | i + 1 =>
    let added := windowSum values length i + values.getD i 0
    if length ≤ i then added - values.getD (i - length) 0 else added

theorem sum_window (values : List K) (length n : Nat) :
    (window values length n).sum = (values.take n).sum - (values.take (n - length)).sum := by
  have parts := List.sum_take_add_sum_drop (values.take n) (n - length)
  rw [List.take_take, Nat.min_eq_left (Nat.sub_le n length)] at parts
  exact eq_sub_of_add_eq' parts

theorem sum_take_getD {values : List K} {i : Nat} (inside : i < values.length) :
    (values.take (i + 1)).sum = (values.take i).sum + values.getD i 0 := by
  rw [List.sum_take_succ values i inside, List.getD_eq_getElem?_getD, List.getElem?_eq_getElem inside]
  rfl

/-- **The running sum is the direct one.** -/
theorem windowSum_eq (values : List K) (length : Nat) {i : Nat} (inside : i ≤ values.length) :
    windowSum values length i = (window values length i).sum := by
  rw [sum_window]
  induction i with
  | zero => simp [windowSum]
  | succ i ih =>
    rw [windowSum, ih (by omega), sum_take_getD (by omega)]
    split
    · rw [show i + 1 - length = i - length + 1 by omega, sum_take_getD (by omega)]
      ring
    · rw [Nat.sub_eq_zero_of_le (by omega), Nat.sub_eq_zero_of_le (by omega)]
      ring

theorem smaLoop_eq (values : List K) (length : Nat) (rest : List K) (i : Nat)
    (left : values.drop i = rest) :
    smaLoop values length rest i (windowSum values length i) =
      (List.range rest.length).map fun k =>
        if length - 1 ≤ i + k then some (windowSum values length (i + k + 1) / length) else none := by
  induction rest generalizing i with
  | nil => rfl
  | cons v rest ih =>
    have here : values.getD i 0 = v := by
      have first := congrArg List.head? left
      rw [List.head?_drop] at first
      rw [List.getD_eq_getElem?_getD, first]
      rfl
    have turn : (if length ≤ i then windowSum values length i + v - values.getD (i - length) 0
        else windowSum values length i + v) = windowSum values length (i + 1) := by
      rw [windowSum, here]
    have behind : values.drop (i + 1) = rest := by
      rw [← List.drop_drop, left]
      rfl
    rw [smaLoop, turn, ih (i + 1) behind, List.length_cons, List.range_succ_eq_map, List.map_cons, List.map_map]
    refine congrArg _ (List.map_congr_left fun k _ => ?_)
    simp only [Function.comp_apply, Nat.succ_eq_add_one, show i + 1 + k = i + (k + 1) by omega]

/-- **The moving average is the mean of its window**, and none before there is a whole one. The sum that
the loop carries is the direct sum of the window (its first turns apart, the loop goes on with it), and
with it the standard deviation is computed. -/
theorem sma_eq_mean (sqrt : K → K) (values : List K) (length : Nat) :
    (sma values length = (List.range values.length).map fun i =>
      if length - 1 ≤ i then some ((window values length (i + 1)).sum / length) else none) ∧
    (∀ i ≤ values.length, windowSum values length i = (window values length i).sum ∧
      sma values length =
        (sma values length).take i ++ smaLoop values length (values.drop i) i (windowSum values length i)) ∧
    stdev sqrt values length = (List.range values.length).map fun i =>
      if length - 1 ≤ i then
        some (sqrt (((window values length (i + 1)).map fun x =>
          (x - windowSum values length (i + 1) / length) ^ 2).sum / length))
      else none := by
  have whole : sma values length = (List.range values.length).map fun k =>
      if length - 1 ≤ 0 + k then some (windowSum values length (0 + k + 1) / length) else none :=
    smaLoop_eq values length values 0 rfl
  refine ⟨?_, fun i inside => ⟨windowSum_eq values length inside, ?_⟩, ?_⟩
  · rw [whole]
    refine List.map_congr_left fun i inside => ?_
    rw [Nat.zero_add, windowSum_eq values length (List.mem_range.mp inside)]
  · rw [smaLoop_eq values length (values.drop i) i rfl, whole, ← List.map_take, List.take_range,
      Nat.min_eq_left inside, List.length_drop]
    nth_rewrite 1 [← Nat.add_sub_cancel' inside]
    rw [List.range_add, List.map_append, List.map_map]
    simp only [Function.comp_def, Nat.zero_add]
  · refine List.map_congr_left fun i inside => ?_
    rw [windowSum_eq values length (List.mem_range.mp inside)]
    rfl

/-! ### Smoothing -/

/-- The value that `rma` has `k` places behind its first one. -/
def wilder (values : List K) (length k : Nat) : K :=
  ((values.drop length).take k).foldl (smooth length) ((values.take length).sum / length)

theorem rma_eq_some_iff (positive : 0 < length) {values : List K} {i : Nat} {value : K} :
    (rma values length)[i]? = some (some value) ↔
      ∃ k, i + 1 = length + k ∧ length + k ≤ values.length ∧ value = wilder values length k := by
  unfold rma
  by_cases short : values.length < length
  · rw [if_pos short, List.getElem?_replicate]
    constructor
    · intro impossible
      split at impossible <;> cases impossible
    · omega
  · rw [if_neg short, List.getElem?_append, List.length_replicate]
    split
    · rename_i early
      rw [List.getElem?_replicate, if_pos early]
      constructor
      · intro impossible
        cases impossible
      · omega
    · obtain ⟨k, same⟩ : ∃ k, i + 1 = length + k := ⟨i + 1 - length, by omega⟩
      rw [List.getElem?_map, List.getElem?_scanl, List.length_drop, show i - (length - 1) = k by omega]
      constructor
      · intro found
        split at found
        · cases found
          exact ⟨k, same, by omega, rfl⟩
        · cases found
      · rintro ⟨other, again, inside, rfl⟩
        obtain rfl : k = other := by omega
        rw [if_pos (by omega)]
        rfl

section Linear

variable {Bar : Type} {bars : List Bar} {f g : Bar → K}

theorem wilder_map (bars : List Bar) (f : Bar → K) (length k : Nat) :
    wilder (bars.map f) length k =
      ((bars.drop length).take k).foldl (fun prev bar => smooth length prev (f bar))
        (((bars.take length).map f).sum / length) := by
  rw [wilder, ← List.map_drop, ← List.map_take, ← List.map_take, List.foldl_map]

theorem wilder_add (bars : List Bar) (f g : Bar → K) (length k : Nat) :
    wilder (bars.map fun bar => f bar + g bar) length k =
      wilder (bars.map f) length k + wilder (bars.map g) length k := by
  have step (p q u v : K) : smooth length (p + q) (u + v) = smooth length p u + smooth length q v := by
    unfold smooth
    ring
  simp only [wilder_map, List.sum_map_add, add_div]
  generalize ((bars.take length).map f).sum / (length : K) = p
  generalize ((bars.take length).map g).sum / (length : K) = q
  induction (bars.drop length).take k generalizing p q with
  | nil => rfl
  | cons bar rest ih =>
    rw [List.foldl_cons, List.foldl_cons, List.foldl_cons, step]
    exact ih _ _

variable [LinearOrder K] [IsStrictOrderedRing K]

theorem smooth_mono (positive : 0 < length) {p q u v : K} (before : p ≤ q) (value : u ≤ v) :
    smooth length p u ≤ smooth length q v := by
  have one : (0 : K) ≤ length - 1 := sub_nonneg.mpr (Nat.one_le_cast.mpr positive)
  rw [smooth_eq positive, smooth_eq positive]
  gcongr

/-- **Smoothing is monotone.** -/
theorem wilder_mono (positive : 0 < length) (below : ∀ bar ∈ bars, f bar ≤ g bar) (k : Nat) :
    wilder (bars.map f) length k ≤ wilder (bars.map g) length k := by
  rw [wilder_map, wilder_map]
  have seed : ((bars.take length).map f).sum / (length : K) ≤ ((bars.take length).map g).sum / length := by
    gcongr
    exact List.sum_le_sum fun bar member => below bar (List.mem_of_mem_take member)
  have rest : ∀ bar ∈ (bars.drop length).take k, f bar ≤ g bar := fun bar member =>
    below bar (List.mem_of_mem_drop (List.mem_of_mem_take member))
  generalize ((bars.take length).map f).sum / (length : K) = p at seed ⊢
  generalize ((bars.take length).map g).sum / (length : K) = q at seed ⊢
  generalize (bars.drop length).take k = others at rest ⊢
  induction others generalizing p q with
  | nil => exact seed
  | cons bar later ih =>
    obtain ⟨here, behind⟩ := List.forall_mem_cons.mp rest
    exact ih _ _ (smooth_mono positive seed here) behind

theorem wilder_const (positive : 0 < length) (long : length ≤ bars.length) (c : K) (k : Nat) :
    wilder (bars.map fun _ => c) length k = c := by
  have nonzero : (length : K) ≠ 0 := Nat.cast_ne_zero.mpr (by omega)
  have seed : ((bars.take length).map fun _ => c).sum / (length : K) = c := by
    rw [List.map_const', List.length_take, Nat.min_eq_left long, List.sum_replicate, nsmul_eq_mul,
      mul_div_cancel_left₀ _ nonzero]
  rw [wilder_map, seed]
  induction (bars.drop length).take k with
  | nil => rfl
  | cons bar later ih => rw [List.foldl_cons, smooth, sub_self, zero_div, add_zero, ih]

variable {values : List K} {value bound : K}

theorem le_rma (positive : 0 < length) (above : ∀ v ∈ values, bound ≤ v)
    (member : some value ∈ rma values length) : bound ≤ value := by
  obtain ⟨i, found⟩ := List.mem_iff_getElem?.mp member
  obtain ⟨k, -, long, rfl⟩ := (rma_eq_some_iff positive).mp found
  have smoothed := wilder_mono positive (f := fun _ => bound) (g := id) above k
  rw [wilder_const positive (by omega), List.map_id] at smoothed
  exact smoothed

theorem nonneg_rma {α : Type} (positive : 0 < length) {f : α → α → K} (nonneg : ∀ prev next, 0 ≤ f prev next)
    {items : List α} (member : some value ∈ rma (successive f items) length) : 0 ≤ value :=
  le_rma positive (forall_mem_successive nonneg items) member

theorem rma_le (positive : 0 < length) (below : ∀ v ∈ values, v ≤ bound)
    (member : some value ∈ rma values length) : value ≤ bound := by
  obtain ⟨i, found⟩ := List.mem_iff_getElem?.mp member
  obtain ⟨k, -, long, rfl⟩ := (rma_eq_some_iff positive).mp found
  have smoothed := wilder_mono positive (f := id) (g := fun _ => bound) below k
  rw [wilder_const positive (by omega), List.map_id] at smoothed
  exact smoothed

end Linear

/-! ### Percentages -/

theorem aligned_fromPrevious (positive : 0 < length) (f : Candle Stamp K → Candle Stamp K → K)
    (candles : List (Candle Stamp K)) :
    alignFromFirstDefined (fromPrevious f candles) length rma =
      .ok (List.replicate (min 1 candles.length) none ++ rma (successive f candles) length) :=
  (align_eq_ok_iff (causal_rma positive).nil).mpr ⟨_, _, fromPrevious_eq_late f candles, rfl⟩

omit [Field K] in
theorem successive_eq_map (f : Candle Stamp K → Candle Stamp K → K) (candles : List (Candle Stamp K)) :
    successive f candles = (successive Prod.mk candles).map fun bar => f bar.1 bar.2 := by
  rw [successive, successive, List.map_zipWith]

theorem getElem?_warmUp {Value : Type} {values : List (Option Value)} {start i : Nat} {value : Value} :
    (List.replicate start none ++ values)[i]? = some (some value) ↔
      ∃ j, i = start + j ∧ values[j]? = some (some value) := by
  rw [List.getElem?_append, List.length_replicate]
  split
  · rename_i early
    rw [List.getElem?_replicate, if_pos early]
    simp only [Option.some.injEq, reduceCtorEq, false_iff, not_exists]
    omega
  · constructor
    · intro found
      exact ⟨i - start, by omega, found⟩
    · rintro ⟨j, rfl, found⟩
      rw [Nat.add_sub_cancel_left]
      exact found

variable [LinearOrder K]

section Bounded

/-- **Percentages**: the directional indicators, which share a hundred at most, and their distance. -/
structure Direction.Bounded (bar : Direction K) : Prop where
  plus : 0 ≤ bar.plusDI
  minus : 0 ≤ bar.minusDI
  both : bar.plusDI + bar.minusDI ≤ 100
  apart : 0 ≤ bar.dx ∧ bar.dx ≤ 100

variable [IsStrictOrderedRing K]

theorem bounded_direction {tr plus minus : K} {bar : Direction K} (up : 0 ≤ plus) (down : 0 ≤ minus)
    (moves : plus + minus ≤ tr) (found : direction (some tr) (some plus) (some minus) = some bar) :
    bar.Bounded := by
  unfold direction at found
  dsimp only at found
  split at found
  · cases found
  · rename_i nonzero
    cases found
    have positive : 0 < tr := lt_of_le_of_ne (le_trans (add_nonneg up down) moves) (Ne.symm nonzero)
    have plusDI : 0 ≤ 100 * plus / tr := by positivity
    have minusDI : 0 ≤ 100 * minus / tr := by positivity
    refine ⟨plusDI, minusDI, ?_, ?_⟩
    · dsimp only
      rw [← add_div, div_le_iff₀ positive]
      linarith
    · generalize 100 * plus / tr = pdi at plusDI ⊢
      generalize 100 * minus / tr = mdi at minusDI ⊢
      dsimp only
      split
      · exact ⟨le_refl _, by norm_num⟩
      · rename_i apart
        have denom : 0 < pdi + mdi := lt_of_le_of_ne (add_nonneg plusDI minusDI) (Ne.symm apart)
        have distance : |pdi - mdi| ≤ pdi + mdi := abs_le.mpr ⟨by linarith, by linarith⟩
        refine ⟨by positivity, ?_⟩
        rw [div_le_iff₀ denom]
        linarith

/-- A bar with its close between its low and its high. -/
def Candle.Shaped (c : Candle Stamp K) : Prop :=
  c.low ≤ c.close ∧ c.close ≤ c.high

omit [IsStrictOrderedRing K] in
theorem plusMove_nonneg (prev c : Candle Stamp K) : 0 ≤ plusMove prev c := by
  unfold plusMove
  dsimp only
  split
  · rename_i rises
    exact rises.2.le
  · exact le_refl _

omit [IsStrictOrderedRing K] in
theorem minusMove_nonneg (prev c : Candle Stamp K) : 0 ≤ minusMove prev c := by
  unfold minusMove
  dsimp only
  split
  · rename_i falls
    exact falls.2.le
  · exact le_refl _

/-- **One bar moves less than its range.** -/
theorem moves_le_barRange {prev : Candle Stamp K} (shaped : prev.Shaped) (c : Candle Stamp K) :
    plusMove prev c + minusMove prev c ≤ barRange prev c := by
  obtain ⟨low, high⟩ := shaped
  have above : c.high - prev.high ≤ barRange prev c :=
    le_max_of_le_left (le_max_of_le_right ((sub_le_sub_left high _).trans (le_abs_self _)))
  have below : prev.low - c.low ≤ barRange prev c :=
    le_max_of_le_right ((sub_le_sub_right low _).trans (by rw [abs_sub_comm]; exact le_abs_self _))
  have range := barRange_nonneg prev c
  unfold plusMove minusMove
  dsimp only
  split_ifs with rises falls
  · exact absurd rises.1 (not_lt.mpr falls.1.le)
  · rwa [add_zero]
  · rwa [zero_add]
  · rwa [add_zero]

variable {candles : List (Candle Stamp K)} {series : DMI K}

/-- The turns of the loop of `dmi`, from the smoothed moves and ranges. -/
def barsOf (candles : List (Candle Stamp K)) (length : Nat) : List (Option (Direction K)) :=
  let smoothed f := List.replicate (min 1 candles.length) none ++ rma (successive f candles) length
  directions (smoothed barRange) (smoothed plusMove) (smoothed minusMove)

omit [IsStrictOrderedRing K] in
theorem dmi_eq_ok_iff_barsOf (positive : 0 < length) :
    dmi candles length = .ok series ↔ ∃ adx,
      alignFromFirstDefined ((barsOf candles length).map (Option.map Direction.dx)) length rma = .ok adx ∧
      series = ⟨(barsOf candles length).map (Option.map Direction.plusDI),
        (barsOf candles length).map (Option.map Direction.minusDI), adx⟩ := by
  rw [dmi_eq_ok_iff, trueRange]
  simp only [aligned_fromPrevious positive, Except.ok.injEq]
  constructor
  · rintro ⟨_, _, _, adx, rfl, rfl, rfl, spread, rfl⟩
    exact ⟨adx, spread, rfl⟩
  · rintro ⟨adx, spread, rfl⟩
    exact ⟨_, _, _, adx, rfl, rfl, rfl, spread, rfl⟩

theorem bounded_barsOf (positive : 0 < length) (shaped : ∀ c ∈ candles, c.Shaped) {i : Nat}
    {bar : Direction K} (found : (barsOf candles length)[i]? = some (some bar)) : bar.Bounded := by
  unfold barsOf directions at found
  dsimp only at found
  obtain ⟨tr, ⟨plus, minus⟩, ranged, moved, is⟩ := List.getElem?_zipWith_eq_some.mp found
  obtain ⟨upward, downward⟩ := List.getElem?_zip_eq_some.mp moved
  cases tr with
  | none => cases is
  | some tr =>
    cases plus with
    | none => cases is
    | some plus =>
      cases minus with
      | none => cases is
      | some minus =>
        obtain ⟨j, rfl, range⟩ := getElem?_warmUp.mp ranged
        obtain ⟨_, same, up⟩ := getElem?_warmUp.mp upward
        obtain rfl := Nat.add_left_cancel same
        obtain ⟨_, same, down⟩ := getElem?_warmUp.mp downward
        obtain rfl := Nat.add_left_cancel same
        refine bounded_direction (nonneg_rma positive plusMove_nonneg (List.mem_of_getElem? up))
          (nonneg_rma positive minusMove_nonneg (List.mem_of_getElem? down)) ?_ is
        obtain ⟨k, at_, -, rfl⟩ := (rma_eq_some_iff positive).mp range
        obtain ⟨_, again, -, rfl⟩ := (rma_eq_some_iff positive).mp up
        obtain rfl : k = _ := Nat.add_left_cancel (at_.symm.trans again)
        obtain ⟨_, again, -, rfl⟩ := (rma_eq_some_iff positive).mp down
        obtain rfl : k = _ := Nat.add_left_cancel (at_.symm.trans again)
        rw [successive_eq_map plusMove, successive_eq_map minusMove, successive_eq_map barRange,
          ← wilder_add]
        exact wilder_mono positive (fun bar member =>
          moves_le_barRange (shaped bar.1 (List.of_mem_zip member).1) bar.2) k

/-- **The relative strength of gains and losses** is a percentage. -/
theorem rsiValue_bounded {up down value : K} (gains : 0 ≤ up) (losses : 0 ≤ down)
    (found : rsiValue (some up) (some down) = some value) : 0 ≤ value ∧ value ≤ 100 := by
  unfold rsiValue at found
  dsimp only at found
  split at found
  · cases found
    split <;> exact ⟨by norm_num, by norm_num⟩
  · rename_i nonzero
    cases found
    have ratio : 0 ≤ up / down := div_nonneg gains losses
    have share : 100 / (1 + up / down) ≤ 100 := div_le_self (by norm_num) (by linarith)
    have share_nonneg : 0 ≤ 100 / (1 + up / down) := div_nonneg (by norm_num) (by linarith)
    exact ⟨by linarith, by linarith⟩

theorem rsi_bounded (positive : 0 < length) {closes : List K} {i : Nat} {value : K}
    (found : (rsiFromCloses closes length)[i]? = some (some value)) : 0 ≤ value ∧ value ≤ 100 := by
  cases closes with
  | nil => simp [rsiFromCloses] at found
  | cons first rest =>
    rw [rsiFromCloses_cons positive] at found
    cases i with
    | zero => cases found
    | succ i =>
      obtain ⟨up, down, gains, losses, is⟩ := List.getElem?_zipWith_eq_some.mp found
      cases up with
      | none => cases is
      | some up =>
        cases down with
        | none => cases is
        | some down =>
          exact rsiValue_bounded (nonneg_rma positive (fun _ _ => le_max_right _ _) (List.mem_of_getElem? gains))
            (nonneg_rma positive (fun _ _ => le_max_right _ _) (List.mem_of_getElem? losses)) is

/-- **Percentages.** For bars with their close between low and high, `dmi` ends, and where its values are
defined they are percentages, as is the relative strength. -/
theorem dmi_bounded (long : 2 ≤ length) (shaped : ∀ c ∈ candles, c.Shaped) :
    (∃ series, dmi candles length = .ok series ∧
      (∀ (i : Nat) plusDI, series.plusDI[i]? = some (some plusDI) → 0 ≤ plusDI) ∧
      (∀ (i : Nat) minusDI, series.minusDI[i]? = some (some minusDI) → 0 ≤ minusDI) ∧
      (∀ (i : Nat) plusDI minusDI, series.plusDI[i]? = some (some plusDI) →
        series.minusDI[i]? = some (some minusDI) → plusDI + minusDI ≤ 100) ∧
      ∀ (i : Nat) adx, series.adx[i]? = some (some adx) → 0 ≤ adx ∧ adx ≤ 100) ∧
    ∀ (i : Nat) rsi, (rsiFromCloses (candles.map Candle.close) length)[i]? = some (some rsi) →
      0 ≤ rsi ∧ rsi ≤ 100 := by
  have positive : 0 < length := by omega
  refine ⟨?_, fun i rsi found => rsi_bounded positive found⟩
  obtain ⟨series, built⟩ := dmi_isOk long candles
  obtain ⟨adx, spread, rfl⟩ := (dmi_eq_ok_iff_barsOf positive).mp built
  have bounded {i : Nat} {read : Direction K → K} {value : K}
      (found : ((barsOf candles length).map (Option.map read))[i]? = some (some value)) :
      ∃ bar : Direction K, (barsOf candles length)[i]? = some (some bar) ∧ bar.Bounded ∧ value = read bar := by
    rw [List.getElem?_map] at found
    obtain ⟨answer, here, mapped⟩ := Option.map_eq_some_iff.mp found
    obtain ⟨bar, rfl, rfl⟩ := Option.map_eq_some_iff.mp mapped
    exact ⟨bar, here, bounded_barsOf positive shaped here, rfl⟩
  refine ⟨_, built, fun i plusDI found => ?_, fun i minusDI found => ?_, ?_, ?_⟩
  · obtain ⟨bar, -, inside, rfl⟩ := bounded found
    exact inside.plus
  · obtain ⟨bar, -, inside, rfl⟩ := bounded found
    exact inside.minus
  · intro i plusDI minusDI plus minus
    obtain ⟨bar, here, inside, rfl⟩ := bounded plus
    obtain ⟨other, there, -, rfl⟩ := bounded minus
    rw [here] at there
    cases there
    exact inside.both
  · intro i adx found
    obtain ⟨start, clean, defined, rfl⟩ := (align_eq_ok_iff (causal_rma positive).nil).mp spread
    obtain ⟨j, -, smoothed⟩ := getElem?_warmUp.mp found
    have apart : ∀ dx ∈ clean, 0 ≤ dx ∧ dx ≤ 100 := by
      intro dx member
      have shown : some dx ∈ (barsOf candles length).map (Option.map Direction.dx) := by
        rw [defined]
        exact List.mem_append_right _ (List.mem_map_of_mem member)
      obtain ⟨i, here⟩ := List.mem_iff_getElem?.mp shown
      obtain ⟨bar, -, inside, rfl⟩ := bounded here
      exact inside.apart
    have inside := List.mem_of_getElem? smoothed
    exact ⟨le_rma positive (fun dx member => (apart dx member).1) inside,
      rma_le positive (fun dx member => (apart dx member).2) inside⟩

end Bounded

/-- Four bars with their close between low and high, smoothed over two. -/
theorem dmi_bounded_firstBars :
    (∀ c ∈ firstBars, c.Shaped) ∧ ∃ series, dmi firstBars 2 = .ok series ∧
      ∀ (i : Nat) adx, series.adx[i]? = some (some adx) → 0 ≤ adx ∧ adx ≤ 100 := by
  have shaped : ∀ c ∈ firstBars, c.Shaped := by
    intro c member
    obtain ⟨i, -, rfl⟩ := List.mem_map.mp member
    unfold Candle.Shaped bar
    split <;> norm_num
  obtain ⟨⟨series, built, -, -, -, index⟩, -⟩ := dmi_bounded (Nat.le_refl 2) shaped
  exact ⟨shaped, series, built, index⟩

/-! ### Upside down -/

section Mirrored

/-- The bar upside down. -/
def mirror (c : Candle Stamp K) : Candle Stamp K :=
  { c with openPrice := -c.openPrice, high := -c.low, low := -c.high, close := -c.close }

theorem successive_map {α β γ : Type} (f : β → β → γ) (g : α → β) (values : List α) :
    successive f (values.map g) = successive (fun prev next => f (g prev) (g next)) values := by
  rw [successive, successive, ← List.map_tail, List.zipWith_map]

theorem fromPrevious_map {α β γ : Type} (f : β → β → γ) (g : α → β) (values : List α) :
    fromPrevious f (values.map g) = fromPrevious (fun prev next => f (g prev) (g next)) values := by
  cases values with
  | nil => rfl
  | cons first rest => exact congrArg (fun moves => none :: moves.map some) (successive_map f g (first :: rest))

theorem plusMove_mirror (prev c : Candle Stamp K) : plusMove (mirror prev) (mirror c) = minusMove prev c := by
  simp only [plusMove, minusMove, mirror, neg_sub_neg]

theorem minusMove_mirror (prev c : Candle Stamp K) : minusMove (mirror prev) (mirror c) = plusMove prev c := by
  simp only [plusMove, minusMove, mirror, neg_sub_neg]

theorem direction_swap (tr plus minus : Option K) :
    direction tr minus plus = (direction tr plus minus).map fun bar => ⟨bar.minusDI, bar.plusDI, bar.dx⟩ := by
  rcases tr with _ | tr <;> rcases plus with _ | plus <;> rcases minus with _ | minus <;> try rfl
  unfold direction
  dsimp only
  rw [add_comm, abs_sub_comm]
  split <;> rfl

theorem directions_swap (trRma plusRma minusRma : List (Option K)) :
    directions trRma minusRma plusRma = (directions trRma plusRma minusRma).map
      (Option.map fun bar => ⟨bar.minusDI, bar.plusDI, bar.dx⟩) := by
  rw [directions, directions, List.map_zipWith, ← List.zip_swap, List.zipWith_map_right]
  congr 1
  funext tr moves
  exact direction_swap tr moves.1 moves.2

theorem barRange_mirror (prev c : Candle Stamp K) : barRange (mirror prev) (mirror c) = barRange prev c := by
  simp only [barRange, mirror, neg_sub_neg, max_right_comm, abs_sub_comm prev.close]

variable [IsStrictOrderedRing K]

/-- **Gains and losses in each other's place** leave the rest of the hundred. -/
theorem rsiValue_swap {up down : K} (gains : 0 ≤ up) (losses : 0 ≤ down) :
    rsiValue (some down) (some up) = (rsiValue (some up) (some down)).map (100 - ·) := by
  unfold rsiValue
  dsimp only
  rcases gains.eq_or_lt with rfl | rises <;> rcases losses.eq_or_lt with rfl | falls
  · norm_num
  · norm_num [falls, falls.ne']
  · norm_num [rises, rises.ne']
  · rw [if_neg rises.ne', if_neg falls.ne', Option.map_some]
    congr 1
    field_simp
    ring

theorem zipWith_rsiValue_swap {ups downs : List (Option K)} (gains : ∀ up, some up ∈ ups → 0 ≤ up)
    (losses : ∀ down, some down ∈ downs → 0 ≤ down) :
    List.zipWith rsiValue downs ups = (List.zipWith rsiValue ups downs).map (Option.map (100 - ·)) := by
  induction ups generalizing downs with
  | nil => cases downs <;> rfl
  | cons up ups ih =>
    cases downs with
    | nil => rfl
    | cons down downs =>
      rw [List.zipWith_cons_cons, List.zipWith_cons_cons, List.map_cons,
        ih (fun _ member => gains _ (List.mem_cons_of_mem _ member))
          fun _ member => losses _ (List.mem_cons_of_mem _ member)]
      congr 1
      rcases up with _ | up <;> rcases down with _ | down <;> try rfl
      exact rsiValue_swap (gains up List.mem_cons_self) (losses down List.mem_cons_self)

theorem rsi_mirror (positive : 0 < length) (closes : List K) :
    rsiFromCloses (closes.map Neg.neg) length =
      (rsiFromCloses closes length).map (Option.map (100 - ·)) := by
  cases closes with
  | nil => rfl
  | cons first rest =>
    rw [List.map_cons, rsiFromCloses_cons positive, rsiFromCloses_cons positive, ← List.map_cons,
      successive_map, successive_map, List.map_cons]
    simp only [neg_sub_neg]
    exact congrArg (none :: ·) (zipWith_rsiValue_swap
      (fun _ member => nonneg_rma positive (fun _ _ => le_max_right _ _) member)
      fun _ member => nonneg_rma positive (fun _ _ => le_max_right _ _) member)

/-- **Upside down.** The bars upside down have the same average range and directional index as the bars,
their directional indicators change places, and their relative strength is the rest of the hundred, where
there is one. -/
theorem mirrored (long : 2 ≤ length) (candles : List (Candle Stamp K)) :
    atr (candles.map mirror) length = atr candles length ∧
    (∃ series, dmi candles length = .ok series ∧
      dmi (candles.map mirror) length = .ok ⟨series.minusDI, series.plusDI, series.adx⟩) ∧
    rsiFromCloses ((candles.map mirror).map Candle.close) length =
      (rsiFromCloses (candles.map Candle.close) length).map (Option.map (100 - ·)) := by
  have range : trueRange (candles.map mirror) = trueRange candles := by
    rw [trueRange, trueRange, fromPrevious_map]
    exact congrArg (fromPrevious · candles) (funext₂ barRange_mirror)
  have plus : fromPrevious plusMove (candles.map mirror) = fromPrevious minusMove candles := by
    rw [fromPrevious_map]
    exact congrArg (fromPrevious · candles) (funext₂ plusMove_mirror)
  have minus : fromPrevious minusMove (candles.map mirror) = fromPrevious plusMove candles := by
    rw [fromPrevious_map]
    exact congrArg (fromPrevious · candles) (funext₂ minusMove_mirror)
  refine ⟨by rw [atr, atr, range], ?_, ?_⟩
  · obtain ⟨series, built⟩ := dmi_isOk long candles
    refine ⟨series, built, ?_⟩
    obtain ⟨trRma, plusRma, minusRma, adx, ranges, ups, downs, spread, rfl⟩ := dmi_eq_ok_iff.mp built
    refine dmi_eq_ok_iff.mpr ⟨trRma, minusRma, plusRma, adx, by rw [range, ranges], by rw [plus, downs],
      by rw [minus, ups], ?_, ?_⟩
    · rw [directions_swap, List.map_map, ← spread]
      simp only [Function.comp_def, Option.map_map]
    · rw [directions_swap, List.map_map, List.map_map]
      simp only [Function.comp_def, Option.map_map]
  · rw [List.map_map, ← rsi_mirror (by omega), List.map_map]
    rfl

end Mirrored

theorem mirrored_firstBars :
    2 ≤ 2 ∧ atr (firstBars.map mirror) 2 = atr firstBars 2 ∧
      ∃ series, dmi firstBars 2 = .ok series ∧
        dmi (firstBars.map mirror) 2 = .ok ⟨series.minusDI, series.plusDI, series.adx⟩ := by
  have twice := mirrored (Nat.le_refl 2) firstBars
  exact ⟨Nat.le_refl 2, twice.1, twice.2.1⟩

end ExecRelay.Backtest
