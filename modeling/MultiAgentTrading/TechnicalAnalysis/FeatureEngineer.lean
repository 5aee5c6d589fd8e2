import MultiAgentTrading.Lib.Causal
import MultiAgentTrading.Core.Market
import MultiAgentTrading.TechnicalAnalysis.Indicators
import Mathlib.Data.Rat.Floor

/-!
# Features for the model

The feature matrix over a price history, with its own numpy indicators.  Arithmetic is exact, as in the indicators of
the rule-based signals: `none` is NaN, no value is infinite, and the functions of `math` that leave the field are
parameters.  Every series and every row is causal: the row of a bar is the same whatever follows the bar.
-/

namespace MultiAgentTrading

/-- The functions of `math` and `numpy` that are not field operations. -/
structure MathFunctions (F : Type) where
  sqrt : F → F
  log : F → F
  sin : F → F
  cos : F → F
  pi : F

/-- The arrays of `to_arrays`; timestamps are in seconds. -/
structure PriceArrays (F : Type) where
  opens : List F
  highs : List F
  lows : List F
  closes : List F
  volumes : List F
  timestamps : List ℚ

/-- The series computed once for the whole history. -/
structure FeatureSeries (F : Type) where
  rsi14 : Series F
  rsi7 : Series F
  macdHist : Series F
  atr14 : Series F
  bbUp : Series F
  bbMid : Series F
  bbLow : Series F
  ema9 : Series F
  ema21 : Series F
  ema50 : Series F

namespace FeatureEngineer

/-- `MIN_BARS_REQUIRED`. -/
def minBarsRequired : ℕ := 60

def featureNames : List String :=
  ["returns_1", "returns_3", "returns_5", "returns_10", "returns_20", "log_return_1", "high_low_ratio",
    "close_position",
    "volume_ratio_5", "volume_ratio_20", "volume_trend",
    "rsi_14", "rsi_7", "macd_hist", "macd_signal_cross",
    "atr_14_pct", "bb_width", "bb_pct_b",
    "ema_9_dist", "ema_21_dist", "ema_50_dist", "ema_cross_9_21", "trend_strength",
    "candle_body", "upper_wick", "lower_wick",
    "hour_sin", "hour_cos", "day_of_week_sin", "day_of_week_cos"]

variable {F : Type} [Field F] [LinearOrder F]

def toArrays (candles : List OHLCVCandle) : PriceArrays F where
  opens := candles.map fun c => (c.openPrice : F)
  highs := candles.map fun c => (c.high : F)
  lows := candles.map fun c => (c.low : F)
  closes := candles.map fun c => (c.close : F)
  volumes := candles.map fun c => (c.volume : F)
  timestamps := candles.map OHLCVCandle.timestamp

/-! ### The series -/

/-- `_ema`: seeded with the mean of the first `period` values. -/
def ema (values : List F) (period : ℕ) : Series F :=
  let alpha : F := (2 : ℚ) / (period + 1)
  Causal.seeded period mean (fun out v => v * alpha + out * (1 - alpha)) values

/-- The index of the averages at the seed; the ratio is infinite without losses. -/
def rsiFirst (avgGain avgLoss : F) : F :=
  let rs : Option F := if 0 < avgLoss then some (avgGain / avgLoss) else if 0 < avgGain then none else some 0
  match rs with
  | some rs => (100 : ℚ) - (100 : ℚ) / (1 + rs)
  | none => (100 : ℚ)

/-- The index of the averages in the loop. -/
def rsiNext (avgGain avgLoss : F) : F :=
  if 0 < avgLoss then (100 : ℚ) - (100 : ℚ) / (1 + avgGain / avgLoss)
  else if 0 < avgGain then (100 : ℚ) else (50 : ℚ)

/-- The two averages of Wilder's smoothing and the index they give. -/
structure RsiState (F : Type) where
  avgGain : F
  avgLoss : F
  value : F

def rsiSeed (moves : List (F × F)) : RsiState F :=
  let avgGain := mean (moves.map Prod.fst)
  let avgLoss := mean (moves.map Prod.snd)
  ⟨avgGain, avgLoss, rsiFirst avgGain avgLoss⟩

def rsiStep (period : ℕ) (s : RsiState F) (move : F × F) : RsiState F :=
  let avgGain := wilder period s.avgGain move.1
  let avgLoss := wilder period s.avgLoss move.2
  ⟨avgGain, avgLoss, rsiNext avgGain avgLoss⟩

/-- Gain and loss from one close to the next. -/
def move (later earlier : F) : F × F :=
  let delta := later - earlier
  (if 0 < delta then delta else 0, if delta < 0 then -delta else 0)

/-- `_rsi`; the first value is at index `period`. -/
def rsi (closes : List F) (period : ℕ) : Series F :=
  if closes.length < period + 1 then List.replicate closes.length none
  else
    let moves := List.zipWith move closes.tail closes
    none :: (Causal.seeded period rsiSeed (rsiStep period) moves).map (Option.map RsiState.value)

/-- The signal line of `_macd`: seeded with the mean of the first valid values of the MACD line. -/
def macdSignalLine (macdLine : Series F) (signalPeriod : ℕ) : Series F :=
  let alpha : F := (2 : ℚ) / (signalPeriod + 1)
  let valid := (List.range macdLine.length).filter fun i => ((macdLine[i]?).bind id).isSome
  match valid[signalPeriod - 1]? with
  | some start =>
    let seed := mean ((valid.take signalPeriod).filterMap fun i => (macdLine[i]?).bind id)
    List.replicate start none ++ some seed :: emaFrom alpha (some seed) (macdLine.drop (start + 1))
  | none => List.replicate macdLine.length none

/-- `_macd`: the MACD line, its signal line and their difference. -/
def macd (closes : List F) (fast slow signalPeriod : ℕ) : Series F × Series F × Series F :=
  let macdLine := seriesSub (ema closes fast) (ema closes slow)
  let signalLine := macdSignalLine macdLine signalPeriod
  (macdLine, signalLine, seriesSub macdLine signalLine)

/-- `_atr`; the first value is at index `period`. -/
def atr (highs lows closes : List F) (period : ℕ) : Series F :=
  if closes.length < period + 1 then List.replicate closes.length none
  else none :: Causal.seeded period mean (wilder period) (trueRanges highs lows closes)

/-- `_bollinger`: the upper, middle and lower band. -/
def bollinger (sqrt : F → F) (closes : List F) (period : ℕ) (stdDev : F) : Series F × Series F × Series F :=
  let band (value : List F → F) : Series F := (List.range closes.length).map fun i =>
    if i + 1 < period then none else some (value ((closes.drop (i + 1 - period)).take period))
  (band fun window => mean window + stdDev * sqrt (variance window), band mean,
    band fun window => mean window - stdDev * sqrt (variance window))

def precompute (math : MathFunctions F) (a : PriceArrays F) : FeatureSeries F :=
  let (_, _, macdHist) := macd a.closes 12 26 9
  let (bbUp, bbMid, bbLow) := bollinger math.sqrt a.closes 20 (2 : ℚ)
  { rsi14 := rsi a.closes 14
    rsi7 := rsi a.closes 7
    macdHist := macdHist
    atr14 := atr a.highs a.lows a.closes 14
    bbUp := bbUp
    bbMid := bbMid
    bbLow := bbLow
    ema9 := ema a.closes 9
    ema21 := ema a.closes 21
    ema50 := ema a.closes 50 }

/-! ### The row of a bar -/

/-- `_safe_div`; in exact arithmetic only a zero denominator calls for the default. -/
def safeDiv (num denom dflt : F) : F := if denom = 0 then dflt else num / denom

/-- The element at `idx` of an array, which has one for each bar. -/
def elem (l : List F) (idx : ℕ) : F := l.getD idx 0

/-- The element at `idx` of a series that may be NaN. -/
def elemNan (s : Series F) (idx : ℕ) : Option F := s.getD idx none

/-- `arr[idx - lookback : idx]`, or what there is before `idx`. -/
def lookback (l : List F) (idx lag : ℕ) : List F := (l.take idx).drop (idx - lag)

def priceFeatures (math : MathFunctions F) (a : PriceArrays F) (idx : ℕ) : List F :=
  let close := elem a.closes idx
  let high := elem a.highs idx
  let low := elem a.lows idx
  let ret (lag : ℕ) : F :=
    if idx < lag then 0 else safeDiv (close - elem a.closes (idx - lag)) (elem a.closes (idx - lag)) 0
  let prevClose := elem a.closes (idx - 1)
  [ret 1, ret 3, ret 5, ret 10, ret 20,
    if 0 < close ∧ 0 < prevClose then math.log (close / prevClose) else 0,
    safeDiv (high - low) close 0,
    safeDiv (close - low) (high - low) (1 / 2 : ℚ)]

def volumeFeatures (a : PriceArrays F) (idx : ℕ) : List F :=
  let vol := elem a.volumes idx
  let volLag5 := if 5 ≤ idx then elem a.volumes (idx - 5) else elem a.volumes 0
  [safeDiv vol (mean (lookback a.volumes idx 5)) 1,
    safeDiv vol (mean (lookback a.volumes idx 20)) 1,
    safeDiv (vol - volLag5) volLag5 0]

/-- Whether the histogram crosses zero between `idx - lag` and the bar after it. -/
def crossesZero (macdHist : Series F) (idx lag : ℕ) : Bool :=
  if idx < lag then false
  else
    match elemNan macdHist (idx - lag), elemNan macdHist (idx - lag + 1) with
    | some prev, some curr => (prev ≤ 0 ∧ 0 < curr) ∨ (0 ≤ prev ∧ curr < 0)
    | _, _ => false

def momentumFeatures (a : PriceArrays F) (s : FeatureSeries F) (idx : ℕ) : List F :=
  let norm (r : Option F) : F := (r.getD (50 : ℚ) - (50 : ℚ)) / (50 : ℚ)
  [norm (elemNan s.rsi14 idx), norm (elemNan s.rsi7 idx),
    safeDiv ((elemNan s.macdHist idx).getD 0) (elem a.closes idx) 0,
    if crossesZero s.macdHist idx 1 || crossesZero s.macdHist idx 2 || crossesZero s.macdHist idx 3 then 1 else 0]

def volatilityFeatures (a : PriceArrays F) (s : FeatureSeries F) (idx : ℕ) : List F :=
  let close := elem a.closes idx
  let u := (elemNan s.bbUp idx).getD close
  let m := (elemNan s.bbMid idx).getD close
  let lo := (elemNan s.bbLow idx).getD close
  [safeDiv ((elemNan s.atr14 idx).getD 0) close 0, safeDiv (u - lo) m 0,
    safeDiv (close - lo) (u - lo) (1 / 2 : ℚ)]

def trendFeatures (a : PriceArrays F) (s : FeatureSeries F) (idx : ℕ) : List F :=
  let close := elem a.closes idx
  let e9 := (elemNan s.ema9 idx).getD close
  let e21 := (elemNan s.ema21 idx).getD close
  let e50 := (elemNan s.ema50 idx).getD close
  let ema9Dist := safeDiv (close - e9) close 0
  [ema9Dist, safeDiv (close - e21) close 0, safeDiv (close - e50) close 0, if e21 < e9 then 1 else -1, |ema9Dist|]

def microstructureFeatures (a : PriceArrays F) (idx : ℕ) : List F :=
  let close := elem a.closes idx
  let openPrice := elem a.opens idx
  let high := elem a.highs idx
  let low := elem a.lows idx
  [safeDiv |close - openPrice| (high - low) 0, safeDiv (high - max openPrice close) (high - low) 0,
    safeDiv (min openPrice close - low) (high - low) 0]

/-- `timestamp.hour` in UTC. -/
def hour (timestamp : ℚ) : ℤ := ⌊timestamp / 3600⌋ % 24

/-- `timestamp.weekday()`: Monday is 0, and the epoch began on a Thursday. -/
def weekday (timestamp : ℚ) : ℤ := (⌊timestamp / 86400⌋ + 3) % 7

def timeFeatures (math : MathFunctions F) (a : PriceArrays F) (idx : ℕ) : List F :=
  match a.timestamps[idx]? with
  | none => [0, 0, 0, 0]
  | some timestamp =>
    let hourAngle : F := (2 : ℚ) * math.pi * hour timestamp / (24 : ℚ)
    let dayAngle : F := (2 : ℚ) * math.pi * weekday timestamp / (7 : ℚ)
    [math.sin hourAngle, math.cos hourAngle, math.sin dayAngle, math.cos dayAngle]

/-- The values of a row, in the order of the names. -/
def features (math : MathFunctions F) (a : PriceArrays F) (s : FeatureSeries F) (idx : ℕ) : List F :=
  priceFeatures math a idx ++ volumeFeatures a idx ++ momentumFeatures a s idx ++ volatilityFeatures a s idx ++
    trendFeatures a s idx ++ microstructureFeatures a idx ++ timeFeatures math a idx

/-- `_row_from_precomputed`: no row during the warm-up. -/
def rowFromPrecomputed (math : MathFunctions F) (a : PriceArrays F) (s : FeatureSeries F) (idx : ℕ) :
    Option (List F) :=
  if idx < minBarsRequired - 1 then none else some (features math a s idx)

def buildFeatureMatrix (math : MathFunctions F) (a : PriceArrays F) : List (List F) × List String :=
  let n := a.closes.length
  if n < minBarsRequired then ([], featureNames)
  else
    let s := precompute math a
    let start := minBarsRequired - 1
    ((List.range' start (n - start)).filterMap (rowFromPrecomputed math a s), featureNames)

/-! ### Every series is causal -/

section Causality

omit [LinearOrder F]

theorem causal_ema {period : ℕ} (h : 0 < period) : Causal fun values : List F => ema values period :=
  Causal.causal_seeded h _ _

private theorem emaFrom_snoc (alpha : F) (prev : Option F) (s : Series F) (x : Option F) :
    emaFrom alpha prev s <+: emaFrom alpha prev (s ++ [x]) := by
  induction s generalizing prev with
  | nil => exact List.nil_prefix
  | cons y s ih => exact List.cons_prefix_cons.2 ⟨rfl, ih _⟩

private theorem length_emaFrom (alpha : F) (prev : Option F) (s : Series F) :
    (emaFrom alpha prev s).length = s.length := by
  induction s generalizing prev with
  | nil => rfl
  | cons y s ih => exact congrArg (· + 1) (ih _)

/-- The indices of the values that are not NaN. -/
private def validIndices (s : Series F) : List ℕ := (List.range s.length).filter fun i => ((s[i]?).bind id).isSome

omit [Field F] in
private theorem lt_of_mem_validIndices {s : Series F} {i : ℕ} (h : i ∈ validIndices s) : i < s.length :=
  List.mem_range.1 (List.mem_of_mem_filter h)

omit [Field F] in
/-- One more value can only add its index. -/
private theorem validIndices_snoc (s : Series F) (x : Option F) :
    validIndices (s ++ [x]) = validIndices s ++ if x.isSome then [s.length] else [] := by
  unfold validIndices
  rw [List.length_append, List.length_singleton, List.range_succ, List.filter_append]
  congr 1
  · refine List.filter_congr fun i hi => ?_
    rw [List.getElem?_append_left (List.mem_range.1 hi)]
  · cases x <;> simp

theorem causal_macdSignalLine (signalPeriod : ℕ) :
    Causal fun macdLine : Series F => macdSignalLine macdLine signalPeriod := by
  have hunfold : ∀ s : Series F, macdSignalLine s signalPeriod =
      match (validIndices s)[signalPeriod - 1]? with
      | some start =>
        let seed := mean (((validIndices s).take signalPeriod).filterMap fun i => (s[i]?).bind id)
        List.replicate start none ++
          some seed :: emaFrom ((2 : ℚ) / (signalPeriod + 1)) (some seed) (s.drop (start + 1))
      | none => List.replicate s.length none := fun _ => rfl
  refine Causal.of_snoc ?_ ?_
  · intro s
    rw [hunfold]
    cases hstart : (validIndices s)[signalPeriod - 1]? with
    | none => exact List.length_replicate
    | some start =>
      have hlt := lt_of_mem_validIndices (List.mem_of_getElem? hstart)
      simp only [List.length_append, List.length_replicate, List.length_cons, length_emaFrom, List.length_drop]
      omega
  · intro s x
    rw [hunfold, hunfold, validIndices_snoc]
    cases hstart : (validIndices s)[signalPeriod - 1]? with
    | some start =>
      obtain ⟨hindex, -⟩ := List.getElem?_eq_some_iff.1 hstart
      have hlt := lt_of_mem_validIndices (List.mem_of_getElem? hstart)
      have hsame : ((validIndices s).take signalPeriod).filterMap (fun i => ((s ++ [x])[i]?).bind id) =
          ((validIndices s).take signalPeriod).filterMap fun i => (s[i]?).bind id := by
        refine List.filterMap_congr fun i hi => ?_
        rw [List.getElem?_append_left (lt_of_mem_validIndices (List.mem_of_mem_take hi))]
      rw [List.getElem?_append_left hindex, hstart, List.take_append_of_le_length (by omega)]
      dsimp only
      rw [hsame, List.drop_append_of_le_length (by omega), List.prefix_append_right_inj]
      exact List.cons_prefix_cons.2 ⟨rfl, emaFrom_snoc _ _ _ _⟩
    | none =>
      -- the seed can only be completed by the new value
      have hlength := List.getElem?_eq_none_iff.1 hstart
      rw [List.getElem?_append_right hlength]
      cases hnew : (if x.isSome then [s.length] else [])[signalPeriod - 1 - (validIndices s).length]? with
      | some start =>
        have hstart' : start = s.length := by
          have hmem := List.mem_of_getElem? hnew
          split at hmem
          · exact List.mem_singleton.1 hmem
          · exact absurd hmem List.not_mem_nil
        rw [hstart']
        exact List.prefix_append _ _
      | none =>
        rw [List.length_append, List.length_singleton, List.replicate_succ']
        exact List.prefix_append _ _

theorem causal_macdHist {fast slow : ℕ} (hfast : 0 < fast) (hslow : 0 < slow) (signalPeriod : ℕ) :
    Causal fun closes : List F => (macd closes fast slow signalPeriod).2.2 := by
  have hline : Causal fun closes : List F => seriesSub (ema closes fast) (ema closes slow) :=
    (causal_ema hfast).zipWith (causal_ema hslow) _
  exact hline.zipWith ((causal_macdSignalLine signalPeriod).comp hline) _

/-- A series that waits for `period` steps between neighbours is what follows from the steps, one bar late. -/
private theorem warmup_eq {α β δ : Type} (l : List α) (d : α → α → δ) {period : ℕ} (h : 0 < period)
    {g : List δ → List (Option β)} (hg : Causal g)
    (hshort : ∀ steps, steps.length < period → g steps = List.replicate steps.length none) :
    (if l.length < period + 1 then List.replicate l.length none else none :: g (List.zipWith d l.tail l)) =
      (none :: g (List.zipWith d l.tail l)).take l.length := by
  have hlength : (List.zipWith d l.tail l).length = l.length - 1 := by
    rw [List.length_zipWith, List.length_tail]
    omega
  split
  case isTrue hlt =>
    rw [hshort _ (by omega), ← List.replicate_succ, List.take_replicate, hlength]
    congr 1
    omega
  case isFalse hge =>
    rw [List.take_of_length_le]
    rw [List.length_cons, hg.length, hlength]
    omega

end Causality

theorem causal_rsi {period : ℕ} (h : 0 < period) : Causal fun closes : List F => rsi closes period := by
  have hvalues : Causal fun moves : List (F × F) =>
      (Causal.seeded period rsiSeed (rsiStep period) moves).map (Option.map RsiState.value) :=
    (Causal.causal_seeded h _ _).map _
  have heq : ∀ closes : List F, rsi closes period = _ := fun closes =>
    warmup_eq closes move h hvalues fun moves hlt => by
      rw [Causal.seeded_of_short hlt, List.map_replicate, Option.map_none]
  rw [funext heq]
  exact hvalues.delay move none

section Candles

/-- The true range of a candle after the one before it. -/
private def trueRange (c previous : OHLCVCandle) : F :=
  max ((c.high : F) - c.low) (max |(c.high : F) - previous.close| |(c.low : F) - previous.close|)

private theorem trueRanges_toArrays (cs : List OHLCVCandle) :
    trueRanges (toArrays cs : PriceArrays F).highs (toArrays cs).lows (toArrays cs).closes =
      List.zipWith trueRange cs.tail cs := by
  unfold trueRanges toArrays
  dsimp only
  rw [← List.map_tail, ← List.map_tail, List.zip_map', List.zipWith_map]
  rfl

theorem causal_atr {period : ℕ} (h : 0 < period) : Causal fun cs : List OHLCVCandle =>
    atr (toArrays cs : PriceArrays F).highs (toArrays cs).lows (toArrays cs).closes period := by
  have hvalues : Causal (Causal.seeded period mean (wilder period) : List F → Series F) :=
    Causal.causal_seeded h _ _
  have heq : ∀ cs : List OHLCVCandle,
      atr (toArrays cs : PriceArrays F).highs (toArrays cs).lows (toArrays cs).closes period =
        (none :: Causal.seeded period mean (wilder period) (List.zipWith trueRange cs.tail cs)).take cs.length := by
    intro cs
    unfold atr
    rw [trueRanges_toArrays, show (toArrays cs : PriceArrays F).closes.length = cs.length from List.length_map _]
    exact warmup_eq cs trueRange h hvalues fun _ hlt => Causal.seeded_of_short hlt _ _
  rw [funext heq]
  exact hvalues.delay trueRange none

end Candles

omit [LinearOrder F] in
theorem causal_bollinger (sqrt : F → F) (period : ℕ) (stdDev : F) :
    (Causal fun closes : List F => (bollinger sqrt closes period stdDev).1) ∧
      (Causal fun closes : List F => (bollinger sqrt closes period stdDev).2.1) ∧
      Causal fun closes : List F => (bollinger sqrt closes period stdDev).2.2 := by
  have hband : ∀ value : List F → F, Causal fun closes : List F => (List.range closes.length).map fun i =>
      if i + 1 < period then none else some (value ((closes.drop (i + 1 - period)).take period)) := by
    intro value
    refine Causal.of_index (fun closes i => if i + 1 < period then none
      else some (value ((closes.drop (i + 1 - period)).take period))) fun closes n i hi _ => ?_
    split
    case isTrue => rfl
    case isFalse hperiod =>
      -- the window ends at bar `i`
      rw [List.drop_take, List.take_take, Nat.min_eq_left (by omega)]
  exact ⟨hband fun window => mean window + stdDev * sqrt (variance window), hband mean,
    hband fun window => mean window - stdDev * sqrt (variance window)⟩

/-! ### Rows are causal -/

/-- The first `n` elements of every array. -/
def takeArrays (a : PriceArrays F) (n : ℕ) : PriceArrays F where
  opens := a.opens.take n
  highs := a.highs.take n
  lows := a.lows.take n
  closes := a.closes.take n
  volumes := a.volumes.take n
  timestamps := a.timestamps.take n

def takeSeries (s : FeatureSeries F) (n : ℕ) : FeatureSeries F where
  rsi14 := s.rsi14.take n
  rsi7 := s.rsi7.take n
  macdHist := s.macdHist.take n
  atr14 := s.atr14.take n
  bbUp := s.bbUp.take n
  bbMid := s.bbMid.take n
  bbLow := s.bbLow.take n
  ema9 := s.ema9.take n
  ema21 := s.ema21.take n
  ema50 := s.ema50.take n

omit [LinearOrder F] in
private theorem toArrays_take (cs : List OHLCVCandle) (n : ℕ) :
    (toArrays (cs.take n) : PriceArrays F) = takeArrays (toArrays cs) n := by
  simp only [toArrays, takeArrays, List.map_take]

private theorem precompute_take (math : MathFunctions F) (cs : List OHLCVCandle) (n : ℕ) :
    precompute math (toArrays (cs.take n)) = takeSeries (precompute math (toArrays cs)) n := by
  obtain ⟨hup, hmid, hlow⟩ := causal_bollinger math.sqrt 20 ((2 : ℚ) : F)
  have hcloses : (toArrays (cs.take n) : PriceArrays F).closes = (toArrays cs : PriceArrays F).closes.take n := by
    rw [toArrays_take]
    rfl
  have hatr := (causal_atr (F := F) (show 0 < 14 by decide)).take cs n
  simp only [precompute, takeSeries, hcloses, FeatureSeries.mk.injEq]
  exact ⟨(causal_rsi (by decide)).take _ n, (causal_rsi (by decide)).take _ n,
    (causal_macdHist (by decide) (by decide) 9).take _ n, hcloses ▸ hatr, hup.take _ n, hmid.take _ n, hlow.take _ n,
    (causal_ema (by decide)).take _ n, (causal_ema (by decide)).take _ n, (causal_ema (by decide)).take _ n⟩

omit [LinearOrder F] in
private theorem elem_take {idx n : ℕ} (h : idx < n) (l : List F) : elem (l.take n) idx = elem l idx := by
  simp only [elem, List.getD_eq_getElem?_getD, List.getElem?_take_of_lt h]

omit [Field F] [LinearOrder F] in
private theorem elemNan_take {idx n : ℕ} (h : idx < n) (s : Series F) : elemNan (s.take n) idx = elemNan s idx := by
  simp only [elemNan, List.getD_eq_getElem?_getD, List.getElem?_take_of_lt h]

omit [Field F] [LinearOrder F] in
private theorem lookback_take {idx n : ℕ} (h : idx ≤ n) (l : List F) (lag : ℕ) :
    lookback (l.take n) idx lag = lookback l idx lag := by
  rw [lookback, lookback, List.take_take, Nat.min_eq_left h]

private theorem crossesZero_take {idx n lag : ℕ} (h : idx < n) (hlag : 0 < lag) (s : Series F) :
    crossesZero (s.take n) idx lag = crossesZero s idx lag := by
  unfold crossesZero
  split
  case isTrue => rfl
  case isFalse => rw [elemNan_take (by omega), elemNan_take (by omega)]

/-- The features of a bar read the arrays and the series up to the bar. -/
private theorem features_take (math : MathFunctions F) (a : PriceArrays F) (s : FeatureSeries F) {idx n : ℕ}
    (h : idx < n) : features math (takeArrays a n) (takeSeries s n) idx = features math a s idx := by
  have helem : ∀ (l : List F) lag, elem (l.take n) (idx - lag) = elem l (idx - lag) :=
    fun l lag => elem_take (by omega) l
  have hprice : priceFeatures math (takeArrays a n) idx = priceFeatures math a idx := by
    simp only [priceFeatures, takeArrays, elem_take h, helem]
  have hvolume : volumeFeatures (takeArrays a n) idx = volumeFeatures a idx := by
    simp only [volumeFeatures, takeArrays, elem_take h, helem, elem_take (show 0 < n by omega), lookback_take h.le]
  have hmomentum : momentumFeatures (takeArrays a n) (takeSeries s n) idx = momentumFeatures a s idx := by
    simp only [momentumFeatures, takeArrays, takeSeries, elem_take h, elemNan_take h,
      crossesZero_take h (show 0 < 1 by decide), crossesZero_take h (show 0 < 2 by decide),
      crossesZero_take h (show 0 < 3 by decide)]
  have hvolatility : volatilityFeatures (takeArrays a n) (takeSeries s n) idx = volatilityFeatures a s idx := by
    simp only [volatilityFeatures, takeArrays, takeSeries, elem_take h, elemNan_take h]
  have htrend : trendFeatures (takeArrays a n) (takeSeries s n) idx = trendFeatures a s idx := by
    simp only [trendFeatures, takeArrays, takeSeries, elem_take h, elemNan_take h]
  have hmicro : microstructureFeatures (takeArrays a n) idx = microstructureFeatures a idx := by
    simp only [microstructureFeatures, takeArrays, elem_take h]
  have htime : timeFeatures math (takeArrays a n) idx = timeFeatures math a idx := by
    simp only [timeFeatures, takeArrays, List.getElem?_take_of_lt h]
  rw [features, hprice, hvolume, hmomentum, hvolatility, htrend, hmicro, htime, features]

/-- The features of a bar of a history. -/
def featuresAt (math : MathFunctions F) (cs : List OHLCVCandle) (bar : ℕ) : List F :=
  features math (toArrays cs) (precompute math (toArrays cs)) bar

/-- What follows a bar does not change its features. -/
theorem featuresAt_take (math : MathFunctions F) (cs : List OHLCVCandle) {bar n : ℕ} (h : bar < n) :
    featuresAt math (cs.take n) bar = featuresAt math cs bar := by
  unfold featuresAt
  rw [precompute_take, toArrays_take]
  exact features_take math _ _ h

/-- The matrix has the features of the bars from `MIN_BARS_REQUIRED - 1` on. -/
theorem buildFeatureMatrix_eq (math : MathFunctions F) (cs : List OHLCVCandle) :
    (buildFeatureMatrix math (toArrays cs)).1 =
      (List.range' (minBarsRequired - 1) (cs.length - (minBarsRequired - 1))).map (featuresAt math cs) := by
  have hlength : (toArrays cs : PriceArrays F).closes.length = cs.length := List.length_map _
  unfold buildFeatureMatrix
  rw [hlength]
  dsimp only
  split
  case isTrue hshort =>
    rw [show cs.length - (minBarsRequired - 1) = 0 by omega]
    rfl
  case isFalse =>
    rw [← List.filterMap_eq_map]
    refine List.filterMap_congr fun bar hbar => ?_
    have hwarm : ¬ bar < minBarsRequired - 1 := Nat.not_lt.2 (List.mem_range'_1.1 hbar).1
    exact if_neg hwarm

/-- The matrix of a beginning of a history is the beginning of its matrix. -/
theorem buildFeatureMatrix_take (math : MathFunctions F) (cs : List OHLCVCandle) (n : ℕ) :
    (buildFeatureMatrix math (toArrays (cs.take n))).1 =
      (buildFeatureMatrix math (toArrays cs)).1.take (n - (minBarsRequired - 1)) := by
  have hrange : List.range' (minBarsRequired - 1) ((cs.take n).length - (minBarsRequired - 1)) =
      (List.range' (minBarsRequired - 1) (cs.length - (minBarsRequired - 1))).take (n - (minBarsRequired - 1)) := by
    rw [List.length_take]
    rcases Nat.le_total n cs.length with hn | hn
    · rw [Nat.min_eq_left hn, List.take_range'_of_length_ge (Nat.sub_le_sub_right hn _)]
    · rw [Nat.min_eq_right hn, List.take_range'_of_length_le (Nat.sub_le_sub_right hn _)]
  rw [buildFeatureMatrix_eq, buildFeatureMatrix_eq, ← List.map_take, hrange]
  refine List.map_congr_left fun bar hbar => featuresAt_take math cs ?_
  rw [← hrange] at hbar
  have hlt := List.mem_range'_1.1 hbar
  rw [List.length_take] at hlt
  omega

end FeatureEngineer

end MultiAgentTrading
