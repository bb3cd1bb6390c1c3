/-
**The feature builder** (`apps/backtester/feature_builder.py`).

`FeatureBuilder.init` computes every series once over all candles; `buildAt` reads the features of one
bar from them, or says that there is not enough history.
-/

import ExecRelay.Backtest.Indicators

namespace ExecRelay.Backtest

open Lib

variable {Stamp K : Type}

/-! ### Reading a series -/

/-- `values[i]`. -/
def item {Value : Type} (values : List Value) (i : Nat) : Except Fault Value :=
  match values[i]? with
  | some value => .ok value
  | none => .error .indexError

variable {Value : Type} {values : List Value}

theorem item_take {i k : Nat} (early : i < k) : item (values.take k) i = item values i := by
  rw [item, item, List.getElem?_take_of_lt early]

theorem item_isOk {i : Nat} (inside : i < values.length) : ∃ value, item values i = .ok value := by
  rw [item, List.getElem?_eq_getElem inside]
  exact ⟨_, rfl⟩

/-! ### The builder -/

/-- The parts of a time that are features. -/
structure Calendar (Stamp : Type) where
  hour : Stamp → Nat
  minute : Stamp → Nat
  weekday : Stamp → Nat
  month : Stamp → Nat

def sessionBoundaries : List Nat := [7, 13, 20]

def session (hourUtc : Nat) : Nat :=
  (sessionBoundaries.findIdx? fun bound => hourUtc < bound).getD sessionBoundaries.length

structure FeatureBuilder (Stamp K : Type) where
  candles : List (Candle Stamp K)
  h1Factor : Nat
  h4Factor : Nat
  closes : List K
  ema9 : List K
  ema21 : List K
  ema50 : List K
  ema200 : List K
  atr14 : List (Option K)
  rsi14 : List (Option K)
  di : DMI K
  sma20 : List (Option K)
  stdev20 : List (Option K)
  ret1 : List (Option K)
  vol72 : List (Option K)
  vol288 : List (Option K)
  activeBar : List K
  activeRate288 : List (Option K)
  h1Closes : List K
  h1Ema50 : List K
  h4Closes : List K
  h4Ema50 : List K

namespace FeatureBuilder

/-! ### Higher timeframes -/

/-- The last closed bin of a higher timeframe: its close and its average. -/
def htf (i factor : Nat) (closes ema50 : List K) : Except Fault (Option (K × K)) :=
  match lastClosedBin i factor with
  | none => .ok none
  | some closedBin =>
    if closes.length ≤ closedBin then .ok none
    else do
      let close ← item closes closedBin
      let average ← item ema50 closedBin
      return some (close, average)

theorem htf_take {i k factor : Nat} (positive : 0 < factor) (early : i < k) (closes ema50 : List K) :
    htf i factor (closes.take (k / factor)) (ema50.take (k / factor)) = htf i factor closes ema50 := by
  unfold htf
  split
  · rfl
  · rename_i closedBin closed
    have inside := lastClosedBin_lt positive early closed
    have same : (closes.take (k / factor)).length ≤ closedBin ↔ closes.length ≤ closedBin := by
      rw [List.length_take]
      omega
    simp only [same, item_take inside]

theorem htf_isOk {i count factor : Nat} {closes ema50 : List K} (positive : 0 < factor)
    (inside : i < count) (bins : closes.length = count / factor)
    (averages : ema50.length = count / factor) :
    ∃ bin, htf i factor closes ema50 = .ok bin ∧
      bin.isSome = (lastClosedBin i factor).isSome := by
  unfold htf
  split
  · rename_i none_
    exact ⟨none, rfl, by rw [none_]; rfl⟩
  · rename_i closedBin closed
    have early := lastClosedBin_lt positive inside closed
    obtain ⟨close, found⟩ := item_isOk (bins.symm ▸ early : closedBin < closes.length)
    obtain ⟨average, also⟩ := item_isOk (averages.symm ▸ early : closedBin < ema50.length)
    rw [if_neg (by omega), found, also, closed]
    exact ⟨_, rfl, rfl⟩

end FeatureBuilder

variable [Field K] [LinearOrder K]

def activity (c : Candle Stamp K) : K :=
  if c.high ≠ c.low then 1 else 0

namespace FeatureBuilder

def init (sqrt : K → K) (candles : List (Candle Stamp K)) (h1Factor h4Factor : Nat) :
    Except Fault (FeatureBuilder Stamp K) := do
  let closes := candles.map Candle.close
  let atr14 ← atr candles 14
  let di ← dmi candles 14
  let ret1 ← oneBarReturns closes
  let vol72 ← alignFromFirstDefined ret1 72 (stdev sqrt)
  let vol288 ← alignFromFirstDefined ret1 288 (stdev sqrt)
  let active := candles.map activity
  let h1Closes ← resampleCloses candles h1Factor
  let h4Closes ← resampleCloses candles h4Factor
  return {
    candles := candles
    h1Factor := h1Factor
    h4Factor := h4Factor
    closes := closes
    ema9 := ema closes 9
    ema21 := ema closes 21
    ema50 := ema closes 50
    ema200 := ema closes 200
    atr14 := atr14
    rsi14 := rsiFromCloses closes 14
    di := di
    sma20 := sma closes 20
    stdev20 := stdev sqrt closes 20
    ret1 := ret1
    vol72 := vol72
    vol288 := vol288
    activeBar := active
    activeRate288 := sma active 288
    h1Closes := h1Closes
    h1Ema50 := ema h1Closes 50
    h4Closes := h4Closes
    h4Ema50 := ema h4Closes 50 }

/-! ### The features of a bar -/

def quotient (a b : K) : Option K :=
  if b = 0 then none else some (a / b)

def slope (series : List K) (i lag : Nat) (value : K) : Except Fault (Option K) :=
  if lag ≤ i ∧ value ≠ 0 then do
    let before ← item series (i - lag)
    return some ((value - before) / value)
  else return none

variable (fb : FeatureBuilder Stamp K)

def ret (c : Candle Stamp K) (i lag : Nat) : Except Fault (Option K) :=
  if i < lag then return none
  else do
    let prev ← item fb.closes (i - lag)
    return quotient (c.close - prev) prev

/-- The return over the last 24 bins of the first higher timeframe. -/
def h1Ret24 (i : Nat) (h1 : Option (K × K)) : Except Fault (Option K) :=
  match lastClosedBin i fb.h1Factor with
  | none => return none
  | some h1ClosedBin =>
    if 24 ≤ h1ClosedBin then do
      let prev ← item fb.h1Closes (h1ClosedBin - 24)
      if prev = 0 then return none
      else match h1 with
        | none => throw .typeError
        | some (h1Close, _) => return some ((h1Close - prev) / prev)
    else return none

/-- The features of the bar `i`, if all of them are there. -/
def buildAt (calendar : Calendar Stamp) (i : Nat) : Except Fault (Option (List (Bytes × K))) := do
  let c ← item fb.candles i
  let ret_1 ← fb.ret c i 1
  let ret_3 ← fb.ret c i 3
  let ret_12 ← fb.ret c i 12
  let ret_36 ← fb.ret c i 36
  let ret_72 ← fb.ret c i 72
  let ret_288 ← fb.ret c i 288
  let atr14 ← item fb.atr14 i
  let vol_72 ← item fb.vol72 i
  let vol_288 ← item fb.vol288 i
  let ema9 ← item fb.ema9 i
  let ema21 ← item fb.ema21 i
  let ema50 ← item fb.ema50 i
  let ema200 ← item fb.ema200 i
  let ema_50_slope ← slope fb.ema50 i 12 ema50
  let ema_200_slope ← slope fb.ema200 i 48 ema200
  let rsi_14 ← item fb.rsi14 i
  let plus_di ← item fb.di.plusDI i
  let minus_di ← item fb.di.minusDI i
  let adx_14 ← item fb.di.adx i
  let bbBasis ← item fb.sma20 i
  let bbSd ← item fb.stdev20 i
  let active_bar ← item fb.activeBar i
  let active_rate_288 ← item fb.activeRate288 i
  let h1 ← htf i fb.h1Factor fb.h1Closes fb.h1Ema50
  let h1_ret_24 ← fb.h1Ret24 i h1
  let h4 ← htf i fb.h4Factor fb.h4Closes fb.h4Ema50
  let hourUtc := calendar.hour c.timestamp
  let ofClose (a : K) : Option K := quotient a c.close
  let feats : List (Bytes × Option K) := [
    (lit "ret_1", ret_1),
    (lit "ret_3", ret_3),
    (lit "ret_12", ret_12),
    (lit "ret_36", ret_36),
    (lit "ret_72", ret_72),
    (lit "ret_288", ret_288),
    (lit "range_pct", ofClose (c.high - c.low)),
    (lit "body_pct", ofClose (c.close - c.openPrice)),
    (lit "upper_wick", ofClose (c.high - max c.openPrice c.close)),
    (lit "lower_wick", ofClose (min c.openPrice c.close - c.low)),
    (lit "atr_pct", atr14.bind ofClose),
    (lit "vol_72", vol_72),
    (lit "vol_288", vol_288),
    (lit "dist_ema_9", ofClose (c.close - ema9)),
    (lit "dist_ema_21", ofClose (c.close - ema21)),
    (lit "dist_ema_50", ofClose (c.close - ema50)),
    (lit "ema_50_slope", ema_50_slope),
    (lit "dist_ema_200", ofClose (c.close - ema200)),
    (lit "ema_200_slope", ema_200_slope),
    (lit "rsi_14", rsi_14),
    (lit "plus_di", plus_di),
    (lit "minus_di", minus_di),
    (lit "adx_14", adx_14),
    (lit "bb_z", bbBasis.bind fun basis => bbSd.bind fun sd => quotient (c.close - basis) sd),
    (lit "bb_width", bbBasis.bind fun basis => bbSd.bind fun sd => quotient (4 * sd) basis),
    (lit "active_bar", some active_bar),
    (lit "active_rate_288", active_rate_288),
    (lit "h1_dist_ema50", h1.bind fun bin => quotient (bin.1 - bin.2) bin.1),
    (lit "h1_ret_24", h1_ret_24),
    (lit "h4_dist_ema50", h4.bind fun bin => quotient (bin.1 - bin.2) bin.1),
    (lit "hour_utc", some (hourUtc : K)),
    (lit "dow", some (calendar.weekday c.timestamp : K)),
    (lit "month", some (calendar.month c.timestamp : K)),
    (lit "minute_of_day", some ((hourUtc * 60 + calendar.minute c.timestamp : Nat) : K)),
    (lit "session", some (session hourUtc : K))]
  return feats.mapM fun feature => feature.2.map (feature.1, ·)

/-- The features of the bar `i`, none if the builder has no answer. -/
def features (calendar : Calendar Stamp) (i : Nat) : Option (List (Bytes × K)) :=
  match fb.buildAt calendar i with
  | .ok feats => feats
  | .error _ => none

/-! ### Whether there is an answer -/

variable {fb}

variable {h1Factor h4Factor : Nat}

/-- **The builder exists** if no close but the last is zero. -/
theorem init_isOk_iff [IsStrictOrderedRing K] {sqrt : K → K} {candles : List (Candle Stamp K)}
    (h1 : 0 < h1Factor) (h4 : 0 < h4Factor) :
    (∃ fb, init sqrt candles h1Factor h4Factor = .ok fb) ↔
      ∀ close ∈ (candles.map Candle.close).dropLast, close ≠ 0 := by
  rw [← oneBarReturns_isOk_iff]
  constructor
  · rintro ⟨fb, built⟩
    simp only [init, bind_eq_ok] at built
    obtain ⟨-, -, -, -, ret1, returns, -⟩ := built
    exact ⟨ret1, returns⟩
  · intro returns
    refine bind_isOk (atr_isOk (by decide) candles) fun _ _ =>
      bind_isOk (dmi_isOk (by decide) candles) fun _ _ => bind_isOk returns fun ret1 computed => ?_
    obtain ⟨clean, rfl⟩ := oneBarReturns_eq_late computed
    have aligned (length : Nat) : ∃ results,
        alignFromFirstDefined (late 1 clean) length (stdev sqrt) = .ok results :=
      ⟨_, (align_eq_ok_iff (causal_stdev sqrt length).nil).mpr ⟨1, clean, rfl, rfl⟩⟩
    exact bind_isOk (aligned 72) fun _ _ => bind_isOk (aligned 288) fun _ _ =>
      bind_isOk (resampleCloses_isOk h1 candles) fun _ _ =>
      bind_isOk (resampleCloses_isOk h4 candles) fun _ _ => ⟨_, rfl⟩

/-- The factors of a builder are positive, and it has a value of each series for each bar. -/
structure Sized (fb : FeatureBuilder Stamp K) (count : Nat) : Prop where
  h1Positive : 0 < fb.h1Factor
  h4Positive : 0 < fb.h4Factor
  candles : fb.candles.length = count
  closes : fb.closes.length = count
  ema9 : fb.ema9.length = count
  ema21 : fb.ema21.length = count
  ema50 : fb.ema50.length = count
  ema200 : fb.ema200.length = count
  atr14 : fb.atr14.length = count
  rsi14 : fb.rsi14.length = count
  plusDI : fb.di.plusDI.length = count
  minusDI : fb.di.minusDI.length = count
  adx : fb.di.adx.length = count
  sma20 : fb.sma20.length = count
  stdev20 : fb.stdev20.length = count
  vol72 : count ≤ fb.vol72.length
  vol288 : count ≤ fb.vol288.length
  activeBar : fb.activeBar.length = count
  activeRate288 : fb.activeRate288.length = count
  h1Closes : fb.h1Closes.length = count / fb.h1Factor
  h1Ema50 : fb.h1Ema50.length = count / fb.h1Factor
  h4Closes : fb.h4Closes.length = count / fb.h4Factor
  h4Ema50 : fb.h4Ema50.length = count / fb.h4Factor

theorem sized_of_init {sqrt : K → K} {candles : List (Candle Stamp K)}
    (built : init sqrt candles h1Factor h4Factor = .ok fb) : fb.Sized candles.length := by
  simp only [init, bind_eq_ok] at built
  obtain ⟨atr14, range, di, moves, ret1, returns, vol72, short, vol288, long, h1Closes, h1, h4Closes,
    h4, same⟩ := built
  cases same
  obtain ⟨plusDI, minusDI, adx⟩ := dmi_length (by decide) moves
  have atr14Length := length_of_align (fun clean : List K => length_rma clean (by decide)) range
  have returnsLength : candles.length ≤ ret1.length := by
    rw [oneBarReturns_length returns, List.length_map]
    omega
  have volLength {length : Nat} {results : List (Option K)}
      (aligned : alignFromFirstDefined ret1 length (stdev sqrt) = .ok results) :
      candles.length ≤ results.length := by
    rw [length_of_align (fun clean => length_stdev sqrt clean length) aligned]
    exact returnsLength
  exact {
    h1Positive := (resampleCloses_eq_ok_iff.mp h1).1
    h4Positive := (resampleCloses_eq_ok_iff.mp h4).1
    candles := rfl
    closes := by simp
    ema9 := by simp
    ema21 := by simp
    ema50 := by simp
    ema200 := by simp
    atr14 := by simpa [trueRange] using atr14Length
    rsi14 := by simp
    plusDI := plusDI
    minusDI := minusDI
    adx := adx
    sma20 := by simp
    stdev20 := by simp
    vol72 := volLength short
    vol288 := volLength long
    activeBar := by simp
    activeRate288 := by simp
    h1Closes := resampleCloses_length h1
    h1Ema50 := by simpa using resampleCloses_length h1
    h4Closes := resampleCloses_length h4
    h4Ema50 := by simpa using resampleCloses_length h4 }

/-- **The builder has an answer for each bar.** -/
theorem buildAt_isOk {count : Nat} (sized : fb.Sized count) (calendar : Calendar Stamp) {i : Nat}
    (inside : i < count) : ∃ features, fb.buildAt calendar i = .ok features := by
  have bar {Value : Type} {values : List Value} (length : values.length = count) :
      ∃ value, item values i = .ok value :=
    item_isOk (length.symm ▸ inside)
  have returns (c : Candle Stamp K) (lag : Nat) : ∃ value, fb.ret c i lag = .ok value := by
    unfold ret
    split
    · exact ⟨_, rfl⟩
    · exact bind_isOk (item_isOk (by rw [sized.closes]; omega)) fun _ _ => ⟨_, rfl⟩
  have slopes {series : List K} (length : series.length = count) (lag : Nat) (value : K) :
      ∃ steep, slope series i lag value = .ok steep := by
    unfold slope
    split
    · exact bind_isOk (item_isOk (by rw [length]; omega)) fun _ _ => ⟨_, rfl⟩
    · exact ⟨_, rfl⟩
  obtain ⟨h1, h1Found, h1Bin⟩ := htf_isOk sized.h1Positive inside sized.h1Closes sized.h1Ema50
  obtain ⟨h4, h4Found, -⟩ := htf_isOk sized.h4Positive inside sized.h4Closes sized.h4Ema50
  have bins : ∃ value, fb.h1Ret24 i h1 = .ok value := by
    unfold h1Ret24
    split
    · exact ⟨_, rfl⟩
    · rename_i closedBin closed
      have early := lastClosedBin_lt sized.h1Positive inside closed
      rw [closed] at h1Bin
      obtain ⟨bin, rfl⟩ := Option.isSome_iff_exists.mp h1Bin
      split
      · refine bind_isOk (item_isOk (by rw [sized.h1Closes]; omega)) fun prev _ => ?_
        split
        · exact ⟨_, rfl⟩
        · exact ⟨_, rfl⟩
      · exact ⟨_, rfl⟩
  unfold buildAt
  rw [h1Found, h4Found]
  refine bind_isOk (bar sized.candles) fun c _ => ?_
  refine bind_isOk (returns c 1) fun _ _ => bind_isOk (returns c 3) fun _ _ =>
    bind_isOk (returns c 12) fun _ _ => bind_isOk (returns c 36) fun _ _ =>
    bind_isOk (returns c 72) fun _ _ => bind_isOk (returns c 288) fun _ _ => ?_
  refine bind_isOk (bar sized.atr14) fun _ _ =>
    bind_isOk (item_isOk (Nat.lt_of_lt_of_le inside sized.vol72)) fun _ _ =>
    bind_isOk (item_isOk (Nat.lt_of_lt_of_le inside sized.vol288)) fun _ _ => ?_
  refine bind_isOk (bar sized.ema9) fun _ _ => bind_isOk (bar sized.ema21) fun _ _ =>
    bind_isOk (bar sized.ema50) fun _ _ => bind_isOk (bar sized.ema200) fun _ _ =>
    bind_isOk (slopes sized.ema50 12 _) fun _ _ => bind_isOk (slopes sized.ema200 48 _) fun _ _ => ?_
  refine bind_isOk (bar sized.rsi14) fun _ _ => bind_isOk (bar sized.plusDI) fun _ _ =>
    bind_isOk (bar sized.minusDI) fun _ _ => bind_isOk (bar sized.adx) fun _ _ =>
    bind_isOk (bar sized.sma20) fun _ _ => bind_isOk (bar sized.stdev20) fun _ _ =>
    bind_isOk (bar sized.activeBar) fun _ _ => bind_isOk (bar sized.activeRate288) fun _ _ => ?_
  refine bind_isOk ⟨h1, rfl⟩ fun bin same => ?_
  cases same
  exact bind_isOk bins fun _ _ => bind_isOk ⟨h4, rfl⟩ fun _ _ => ⟨_, rfl⟩

variable (fb)

/-! ### Later bars cut off -/

def take (k : Nat) : FeatureBuilder Stamp K where
  candles := fb.candles.take k
  h1Factor := fb.h1Factor
  h4Factor := fb.h4Factor
  closes := fb.closes.take k
  ema9 := fb.ema9.take k
  ema21 := fb.ema21.take k
  ema50 := fb.ema50.take k
  ema200 := fb.ema200.take k
  atr14 := fb.atr14.take k
  rsi14 := fb.rsi14.take k
  di := fb.di.take k
  sma20 := fb.sma20.take k
  stdev20 := fb.stdev20.take k
  ret1 := fb.ret1.take k
  vol72 := fb.vol72.take k
  vol288 := fb.vol288.take k
  activeBar := fb.activeBar.take k
  activeRate288 := fb.activeRate288.take k
  h1Closes := fb.h1Closes.take (k / fb.h1Factor)
  h1Ema50 := fb.h1Ema50.take (k / fb.h1Factor)
  h4Closes := fb.h4Closes.take (k / fb.h4Factor)
  h4Ema50 := fb.h4Ema50.take (k / fb.h4Factor)

variable {fb}

/-- **The builder of the first bars** is the first part of the builder of all bars. -/
theorem init_take {sqrt : K → K} {candles : List (Candle Stamp K)}
    (built : init sqrt candles h1Factor h4Factor = .ok fb) (k : Nat) :
    init sqrt (candles.take (k + 1)) h1Factor h4Factor = .ok (fb.take (k + 1)) := by
  have averages (values : List K) (length k : Nat) :
      ema (values.take k) length = (ema values length).take k := causal_ema length k values
  have means (values : List K) (length : Nat) :
      sma (values.take (k + 1)) length = (sma values length).take (k + 1) := causal_sma length _ values
  have deviations (values : List K) :
      stdev sqrt (values.take (k + 1)) 20 = (stdev sqrt values 20).take (k + 1) :=
    causal_stdev sqrt 20 _ values
  have strengths (values : List K) :
      rsiFromCloses (values.take (k + 1)) 14 = (rsiFromCloses values 14).take (k + 1) :=
    causal_rsiFromCloses (by decide) _ values
  simp only [init, bind_eq_ok] at built ⊢
  obtain ⟨atr14, range, di, moves, ret1, returns, vol72, short, vol288, long, h1Closes, h1, h4Closes,
    h4, same⟩ := built
  cases same
  refine ⟨atr14.take (k + 1), partialCausal_atr (by decide) _ _ _ range, di.take (k + 1),
    dmi_take (by decide) moves _, ret1.take (k + 1), ?_, vol72.take (k + 1),
    partialCausal_align (causal_stdev sqrt 72) _ _ _ short, vol288.take (k + 1),
    partialCausal_align (causal_stdev sqrt 288) _ _ _ long, h1Closes.take ((k + 1) / h1Factor),
    resampleCloses_take h1 _, h4Closes.take ((k + 1) / h4Factor), resampleCloses_take h4 _, ?_⟩
  · rw [List.map_take]
    exact oneBarReturns_take returns k
  · simp only [List.map_take, averages, means, deviations, strengths]
    rfl

theorem buildAt_take {k i : Nat} (h1 : 0 < fb.h1Factor) (h4 : 0 < fb.h4Factor)
    (calendar : Calendar Stamp) (early : i < k) :
    (fb.take k).buildAt calendar i = fb.buildAt calendar i := by
  have returns (c : Candle Stamp K) (lag : Nat) : (fb.take k).ret c i lag = fb.ret c i lag := by
    simp only [ret, take, item_take (show i - lag < k by omega)]
  have slopes (series : List K) (lag : Nat) (value : K) :
      slope (series.take k) i lag value = slope series i lag value := by
    simp only [slope, item_take (show i - lag < k by omega)]
  have bins (first : Option (K × K)) : (fb.take k).h1Ret24 i first = fb.h1Ret24 i first := by
    unfold h1Ret24
    show (match lastClosedBin i fb.h1Factor with | none => _ | some closedBin => _) = _
    split
    · rfl
    · rename_i closedBin closed
      have inside := lastClosedBin_lt h1 early closed
      simp only [take, item_take (show closedBin - 24 < k / fb.h1Factor by omega)]
  unfold buildAt
  simp only [returns, bins]
  simp only [take, DMI.take, slopes, item_take early, htf_take h1 early, htf_take h4 early]

end FeatureBuilder

end ExecRelay.Backtest
