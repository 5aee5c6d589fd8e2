import MultiAgentTrading.TechnicalAnalysis.PriceUnit
import MultiAgentTrading.TechnicalAnalysis.ServingFeatures

/-!
# Features do not depend on the unit

Every series of the feature matrix is homogeneous in the prices: the averages, the bands, the true range and the MACD
histogram come in the unit of the prices, the strength index without a unit.  Every feature is a ratio, a sign test or a
time of day, so it is the same in every unit (`features_unit_free`).
-/

namespace MultiAgentTrading

open Scaling

/-- The arrays with the prices multiplied by `c` and the volumes by `d`. -/
def PriceArrays.inUnits {F : Type} [Field F] (a : PriceArrays F) (c d : F) : PriceArrays F where
  opens := scaled c a.opens
  highs := scaled c a.highs
  lows := scaled c a.lows
  closes := scaled c a.closes
  volumes := scaled d a.volumes
  timestamps := a.timestamps

/-- The series in another unit; the strength index has none. -/
def FeatureSeries.inUnits {F : Type} [Field F] (s : FeatureSeries F) (c : F) : FeatureSeries F where
  rsi14 := s.rsi14
  rsi7 := s.rsi7
  macdHist := scaledSeries c s.macdHist
  atr14 := scaledSeries c s.atr14
  bbUp := scaledSeries c s.bbUp
  bbMid := scaledSeries c s.bbMid
  bbLow := scaledSeries c s.bbLow
  ema9 := scaledSeries c s.ema9
  ema21 := scaledSeries c s.ema21
  ema50 := scaledSeries c s.ema50

namespace FeatureEngineer

variable {F : Type} [Field F]

theorem toArrays_inUnits [CharZero F] (b : CandleBuffer) (c d : ℚ) (hc : 0 < c) (hd : 0 < d) :
    (toArrays (b.inUnits c d hc hd).candles : PriceArrays F) = (toArrays b.candles).inUnits (c : F) (d : F) := by
  simp [toArrays, PriceArrays.inUnits, CandleBuffer.inUnits, scaled, OHLCVCandle.inUnits, Function.comp_def]

/-! ### The series -/

theorem ema_scaled (c : F) (values : List F) (period : ℕ) :
    ema (scaled c values) period = scaledSeries c (ema values period) :=
  Causal.seeded_map (mean_scaled c) (fun out v => by ring) period values

theorem macdSignalLine_scaled {c : F} (macdLine : Series F) (signalPeriod : ℕ) :
    macdSignalLine (scaledSeries c macdLine) signalPeriod = scaledSeries c (macdSignalLine macdLine signalPeriod) := by
  unfold macdSignalLine
  rw [valid_scaledSeries]
  dsimp only
  cases ((List.range macdLine.length).filter fun i => ((macdLine[i]?).bind id).isSome)[signalPeriod - 1]? with
  | none => simp [scaledSeries]
  | some start =>
    have hseed : ∀ indices : List ℕ, mean (indices.filterMap fun i => ((scaledSeries c macdLine)[i]?).bind id) =
        c * mean (indices.filterMap fun i => (macdLine[i]?).bind id) := by
      intro indices
      rw [← mean_scaled, scaled, List.map_filterMap]
      simp only [bind_getElem?_scaledSeries]
    have hrest : (scaledSeries c macdLine).drop (start + 1) = scaledSeries c (macdLine.drop (start + 1)) :=
      List.map_drop.symm
    simp only [hseed, hrest]
    rw [← Option.map_some (f := fun x => c * x), emaFrom_scaled]
    simp [scaledSeries]

theorem macdHist_scaled (c : F) (closes : List F) (fast slow signalPeriod : ℕ) :
    (macd (scaled c closes) fast slow signalPeriod).2.2 =
      scaledSeries c (macd closes fast slow signalPeriod).2.2 := by
  show seriesSub (seriesSub (ema (scaled c closes) fast) (ema (scaled c closes) slow)) (macdSignalLine _ _) = _
  rw [ema_scaled, ema_scaled, seriesSub_scaled, macdSignalLine_scaled, seriesSub_scaled]
  rfl

theorem bollinger_scaled {c : F} {sqrt : F → F} (hsqrt : ∀ x, sqrt (c ^ 2 * x) = c * sqrt x) (closes : List F)
    (period : ℕ) (stdDev : F) :
    bollinger sqrt (scaled c closes) period stdDev =
      (scaledSeries c (bollinger sqrt closes period stdDev).1, scaledSeries c (bollinger sqrt closes period stdDev).2.1,
        scaledSeries c (bollinger sqrt closes period stdDev).2.2) := by
  have hlower : ∀ window : List F, mean (scaled c window) - stdDev * sqrt (variance (scaled c window)) =
      c * (mean window - stdDev * sqrt (variance window)) := by
    intro window
    rw [sub_eq_add_neg, ← neg_mul, band_scaled hsqrt, neg_mul, ← sub_eq_add_neg]
  have hbands := fun value hvalue => windows_scaled c value hvalue closes period
  exact Prod.ext (hbands (fun window => mean window + stdDev * sqrt (variance window)) (band_scaled hsqrt stdDev))
    (Prod.ext (hbands mean (mean_scaled c))
      (hbands (fun window => mean window - stdDev * sqrt (variance window)) hlower))

section Order

variable [LinearOrder F] [IsStrictOrderedRing F] {c : F}

private theorem move_scaled (hc : 0 < c) (later earlier : F) :
    move (c * later) (c * earlier) = (c * (move later earlier).1, c * (move later earlier).2) := by
  simp only [move, ← mul_sub, pos_scaled_iff hc, neg_scaled_iff hc, mul_ite, mul_zero, mul_neg]

private theorem rsiFirst_scaled (hc : 0 < c) (avgGain avgLoss : F) :
    rsiFirst (c * avgGain) (c * avgLoss) = rsiFirst avgGain avgLoss := by
  simp only [rsiFirst, pos_scaled_iff hc, mul_div_mul_left _ _ hc.ne']

private theorem rsiNext_scaled (hc : 0 < c) (avgGain avgLoss : F) :
    rsiNext (c * avgGain) (c * avgLoss) = rsiNext avgGain avgLoss := by
  simp only [rsiNext, pos_scaled_iff hc, mul_div_mul_left _ _ hc.ne']

/-- The averages of the strength index have a unit, the index has none. -/
theorem rsi_scaled (hc : 0 < c) (closes : List F) (period : ℕ) : rsi (scaled c closes) period = rsi closes period := by
  have hmoves : List.zipWith move (scaled c closes).tail (scaled c closes) =
      (List.zipWith move closes.tail closes).map fun m => (c * m.1, c * m.2) := by
    rw [tail_scaled, scaled, scaled, List.zipWith_map, List.map_zipWith]
    congr 1
    funext later earlier
    exact move_scaled hc later earlier
  have hseed : ∀ moves : List (F × F), rsiSeed (moves.map fun m => (c * m.1, c * m.2)) =
      ⟨c * (rsiSeed moves).avgGain, c * (rsiSeed moves).avgLoss, (rsiSeed moves).value⟩ := by
    intro moves
    have hmean : ∀ f : F × F → F, mean ((moves.map f).map fun x => c * x) = c * mean (moves.map f) :=
      fun f => mean_scaled c (moves.map f)
    simp only [rsiSeed, List.map_map, Function.comp_def] at hmean ⊢
    rw [hmean, hmean, rsiFirst_scaled hc]
  have hstep : ∀ (s : RsiState F) (m : F × F),
      rsiStep period ⟨c * s.avgGain, c * s.avgLoss, s.value⟩ (c * m.1, c * m.2) =
        ⟨c * (rsiStep period s m).avgGain, c * (rsiStep period s m).avgLoss, (rsiStep period s m).value⟩ := by
    intro s m
    simp only [rsiStep, wilder_scaled, rsiNext_scaled hc]
  rw [rsi, rsi, length_scaled, hmoves]
  dsimp only
  rw [Causal.seeded_map (g := fun s : RsiState F => (⟨c * s.avgGain, c * s.avgLoss, s.value⟩ : RsiState F))
    hseed hstep, List.map_map]
  split
  · rfl
  · congr 2
    funext o
    cases o with
    | none => rfl
    | some s => rfl

theorem atr_scaled (hc : 0 < c) (highs lows closes : List F) (period : ℕ) :
    atr (scaled c highs) (scaled c lows) (scaled c closes) period = scaledSeries c (atr highs lows closes period) := by
  have hseeded : Causal.seeded period mean (wilder period) (scaled c (trueRanges highs lows closes)) =
      scaledSeries c (Causal.seeded period mean (wilder period) (trueRanges highs lows closes)) :=
    Causal.seeded_map (mean_scaled c) (wilder_scaled c period) period _
  rw [atr, atr, length_scaled, trueRanges_scaled hc, hseeded]
  split
  · simp [scaledSeries]
  · rfl

theorem precompute_inUnits (hc : 0 < c) {math : MathFunctions F} (hsqrt : ∀ x, math.sqrt (c ^ 2 * x) = c * math.sqrt x)
    (a : PriceArrays F) (d : F) : precompute math (a.inUnits c d) = (precompute math a).inUnits c := by
  simp only [precompute, PriceArrays.inUnits, FeatureSeries.inUnits, rsi_scaled hc, macdHist_scaled, atr_scaled hc,
    bollinger_scaled hsqrt, ema_scaled]

/-! ### The features -/

omit [LinearOrder F] [IsStrictOrderedRing F] in
theorem elem_scaled (l : List F) (idx : ℕ) : elem (scaled c l) idx = c * elem l idx := getD_scaled c l idx

omit [LinearOrder F] [IsStrictOrderedRing F] in
theorem elemNan_scaled (s : Series F) (idx : ℕ) :
    elemNan (scaledSeries c s) idx = (elemNan s idx).map fun x => c * x :=
  getD_scaledSeries c s idx

theorem safeDiv_scaled (hc : 0 < c) (num denom dflt : F) :
    safeDiv (c * num) (c * denom) dflt = safeDiv num denom dflt := by
  simp only [safeDiv, mul_eq_zero, hc.ne', false_or, mul_div_mul_left _ _ hc.ne']

theorem priceFeatures_inUnits (hc : 0 < c) (math : MathFunctions F) (a : PriceArrays F) (d : F) (idx : ℕ) :
    priceFeatures math (a.inUnits c d) idx = priceFeatures math a idx := by
  simp only [priceFeatures, PriceArrays.inUnits, elem_scaled, ← mul_sub, safeDiv_scaled hc, pos_scaled_iff hc,
    mul_div_mul_left _ _ hc.ne']

theorem volumeFeatures_inUnits (a : PriceArrays F) (c : F) {d : F} (hd : 0 < d) (idx : ℕ) :
    volumeFeatures (a.inUnits c d) idx = volumeFeatures a idx := by
  have hlookback : ∀ lag, lookback (scaled d a.volumes) idx lag = scaled d (lookback a.volumes idx lag) := fun lag => by
    rw [lookback, take_scaled, drop_scaled, lookback]
  simp only [volumeFeatures, PriceArrays.inUnits, elem_scaled, hlookback, mean_scaled, ← mul_ite, ← mul_sub,
    safeDiv_scaled hd]

private theorem crossesZero_scaled (hc : 0 < c) (macdHist : Series F) (idx lag : ℕ) :
    crossesZero (scaledSeries c macdHist) idx lag = crossesZero macdHist idx lag := by
  rw [crossesZero, crossesZero, elemNan_scaled, elemNan_scaled]
  cases elemNan macdHist (idx - lag) with
  | none => rfl
  | some prev =>
    cases elemNan macdHist (idx - lag + 1) with
    | none => rfl
    | some curr =>
      simp only [Option.map_some, pos_scaled_iff hc, neg_scaled_iff hc, nonneg_scaled_iff hc, nonpos_scaled_iff hc]

theorem momentumFeatures_inUnits (hc : 0 < c) (a : PriceArrays F) (d : F) (s : FeatureSeries F) (idx : ℕ) :
    momentumFeatures (a.inUnits c d) (s.inUnits c) idx = momentumFeatures a s idx := by
  simp only [momentumFeatures, PriceArrays.inUnits, FeatureSeries.inUnits, elem_scaled, elemNan_scaled,
    getD_map_mul_zero, safeDiv_scaled hc, crossesZero_scaled hc]

theorem volatilityFeatures_inUnits (hc : 0 < c) (a : PriceArrays F) (d : F) (s : FeatureSeries F) (idx : ℕ) :
    volatilityFeatures (a.inUnits c d) (s.inUnits c) idx = volatilityFeatures a s idx := by
  simp only [volatilityFeatures, PriceArrays.inUnits, FeatureSeries.inUnits, elem_scaled, elemNan_scaled,
    getD_map_mul_zero, getD_map_mul, ← mul_sub, safeDiv_scaled hc]

theorem trendFeatures_inUnits (hc : 0 < c) (a : PriceArrays F) (d : F) (s : FeatureSeries F) (idx : ℕ) :
    trendFeatures (a.inUnits c d) (s.inUnits c) idx = trendFeatures a s idx := by
  simp only [trendFeatures, PriceArrays.inUnits, FeatureSeries.inUnits, elem_scaled, elemNan_scaled, getD_map_mul,
    ← mul_sub, safeDiv_scaled hc, lt_scaled_iff hc]

theorem microstructureFeatures_inUnits (hc : 0 < c) (a : PriceArrays F) (d : F) (idx : ℕ) :
    microstructureFeatures (a.inUnits c d) idx = microstructureFeatures a idx := by
  simp only [microstructureFeatures, PriceArrays.inUnits, elem_scaled, max_scaled hc, min_scaled hc, ← mul_sub,
    abs_scaled hc, safeDiv_scaled hc]

/-- Every feature of a bar is the same in every unit. -/
theorem features_inUnits (hc : 0 < c) {d : F} (hd : 0 < d) {math : MathFunctions F}
    (hsqrt : ∀ x, math.sqrt (c ^ 2 * x) = c * math.sqrt x) (a : PriceArrays F) (idx : ℕ) :
    features math (a.inUnits c d) (precompute math (a.inUnits c d)) idx = features math a (precompute math a) idx := by
  rw [precompute_inUnits hc hsqrt, features, features, priceFeatures_inUnits hc, volumeFeatures_inUnits a c hd,
    momentumFeatures_inUnits hc, volatilityFeatures_inUnits hc, trendFeatures_inUnits hc,
    microstructureFeatures_inUnits hc]
  rfl

theorem featuresForIndex_inUnits (hc : 0 < c) {d : F} (hd : 0 < d) {math : MathFunctions F}
    (hsqrt : ∀ x, math.sqrt (c ^ 2 * x) = c * math.sqrt x) (a : PriceArrays F) (idx : ℕ) :
    featuresForIndex math (a.inUnits c d) idx = featuresForIndex math a idx := by
  rw [featuresForIndex, featuresForIndex, rowFromPrecomputed, rowFromPrecomputed, features_inUnits hc hd hsqrt]

theorem buildFeatureMatrix_inUnits (hc : 0 < c) {d : F} (hd : 0 < d) {math : MathFunctions F}
    (hsqrt : ∀ x, math.sqrt (c ^ 2 * x) = c * math.sqrt x) (a : PriceArrays F) :
    buildFeatureMatrix math (a.inUnits c d) = buildFeatureMatrix math a := by
  have hrow : ∀ idx, rowFromPrecomputed math (a.inUnits c d) (precompute math (a.inUnits c d)) idx =
      rowFromPrecomputed math a (precompute math a) idx := fun idx =>
    featuresForIndex_inUnits hc hd hsqrt a idx
  have hlength : (a.inUnits c d).closes.length = a.closes.length := length_scaled c a.closes
  simp only [buildFeatureMatrix, hlength, funext hrow]

end Order

/-! ### Real numbers -/

/-- Over the reals, the features of a buffer and every row of the matrix are the same when all prices are multiplied
by one positive constant and all volumes by another. -/
theorem features_unit_free :
    (∀ (b : CandleBuffer) (c d : ℚ) (hc : 0 < c) (hd : 0 < d),
      buildFeatures .real (b.inUnits c d hc hd) = buildFeatures .real b) ∧
    ∀ (a : PriceArrays ℝ) (c d : ℝ), 0 < c → 0 < d →
      (∀ idx, featuresForIndex .real (a.inUnits c d) idx = featuresForIndex .real a idx) ∧
        buildFeatureMatrix .real (a.inUnits c d) = buildFeatureMatrix .real a := by
  refine ⟨fun b c d hc hd => ?_, fun a c d hc hd => ⟨fun idx => ?_, ?_⟩⟩
  · have hc' : (0 : ℝ) < c := by exact_mod_cast hc
    have hd' : (0 : ℝ) < d := by exact_mod_cast hd
    rw [buildFeatures, buildFeatures, CandleBuffer.size_inUnits, toArrays_inUnits,
      featuresForIndex_inUnits hc' hd' (sqrt_scaled hc')]
  · exact featuresForIndex_inUnits hc hd (sqrt_scaled hc) a idx
  · exact buildFeatureMatrix_inUnits hc hd (sqrt_scaled hc) a

/-- Sixty minutes that rise a little every other minute. -/
def hourBuffer : CandleBuffer :=
  ((List.range 60).map fun i : ℕ => flatCandle "BTC/USDT" "1m" (60 * i) (100 + (i % 2 : ℕ)) 1 unit_volume_nonneg).foldl
    CandleBuffer.add (.forPair "BTC/USDT" "1m")

theorem features_unit_free_hour : (buildFeatures .real hourBuffer).isSome = true ∧
    buildFeatures .real (hourBuffer.inUnits 1000 200 thousand_pos two_hundred_pos) =
      buildFeatures .real hourBuffer := by
  have hsize : hourBuffer.size = 60 := by decide +kernel
  refine ⟨?_, features_unit_free.1 hourBuffer 1000 200 thousand_pos two_hundred_pos⟩
  rw [buildFeatures, hsize]
  rfl

end FeatureEngineer

end MultiAgentTrading
