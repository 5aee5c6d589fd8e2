import MultiAgentTrading.TechnicalAnalysis.SignalGenerator
import Mathlib.Data.List.ReduceOption
import Mathlib.Analysis.Real.Sqrt

/-!
# A flat market

What the numpy indicators make of candles that all stand at one price.  The averages stand at the price, the bands
close on it and the MACD is zero, so that three of the four primary indicators are neutral.  The relative strength
index is not: without losses `_rsi_numpy` takes the ratio of gains to losses to be 100, with or without gains, and the
index of a market that does not move is as overbought as it can be (`flat_market_sells`).
-/

namespace MultiAgentTrading

section Constant

variable {F : Type} [Field F]

private theorem fromEnd_replicate {α : Type} (l : List α) (x : α) {n k : ℕ} (h : k < n) :
    fromEnd (l ++ List.replicate n x) k = some x := by
  rw [fromEnd, List.reverse_append, List.reverse_replicate, List.getElem?_append_left (by rwa [List.length_replicate]),
    List.getElem?_replicate_of_lt h]

private theorem mean_replicate [CharZero F] (x : F) {n : ℕ} (h : 0 < n) : mean (List.replicate n x) = x := by
  have hn : (n : F) ≠ 0 := Nat.cast_ne_zero.2 h.ne'
  rw [mean, List.sum_replicate, List.length_replicate, nsmul_eq_mul, mul_div_cancel_left₀ _ hn]

/-- An exponential average of a constant stays where it is. -/
private theorem emaFrom_replicate (alpha x : F) (n : ℕ) :
    emaFrom alpha (some x) (List.replicate n (some x)) = List.replicate n (some x) := by
  induction n with
  | zero => rfl
  | succ n ih =>
    have hstep : x * alpha + x * (1 - alpha) = x := by ring
    rw [List.replicate_succ]
    simp only [emaFrom, Option.bind_some, Option.map_some, hstep, ih]

/-- `_ema_numpy` of a constant with a NaN prefix. -/
private theorem emaNumpy_constant [CharZero F] (x : F) {k m period : ℕ} (hpos : 0 < period) (h : period ≤ m) :
    emaNumpy (List.replicate k none ++ List.replicate m (some x)) period =
      List.replicate (k + period - 1) none ++ List.replicate (m + 1 - period) (some x) := by
  have hema := emaNumpy_eq k hpos (h.trans_eq (List.length_replicate (a := x)).symm)
  rw [List.map_replicate, List.take_replicate, Nat.min_eq_left h, mean_replicate x hpos, List.drop_replicate,
    List.map_replicate, emaFrom_replicate, ← List.replicate_succ, show m - period + 1 = m + 1 - period by omega] at hema
  exact hema

private theorem emaNumpy_flat [CharZero F] (x : F) {n period : ℕ} (hpos : 0 < period) (h : period ≤ n) :
    emaNumpy ((List.replicate n x).map some) period =
      List.replicate (period - 1) none ++ List.replicate (n + 1 - period) (some x) := by
  have hconstant := emaNumpy_constant x (k := 0) hpos h
  rw [List.replicate_zero, List.nil_append, Nat.zero_add] at hconstant
  rw [List.map_replicate, hconstant]

/-- The difference of two constants is a constant after the longer of the two prefixes. -/
private theorem seriesSub_constant (x y : F) {k l m n : ℕ} (hkl : k ≤ l) (hlength : k + m = l + n) :
    seriesSub (List.replicate k none ++ List.replicate m (some x))
        (List.replicate l none ++ List.replicate n (some y)) =
      List.replicate l none ++ List.replicate n (some (x - y)) := by
  obtain ⟨d, rfl⟩ := Nat.exists_eq_add_of_le hkl
  obtain rfl : m = d + n := by omega
  unfold seriesSub
  rw [List.replicate_add, List.replicate_add, List.append_assoc, List.append_assoc,
    List.zipWith_append (by simp), List.zipWith_append (by simp)]
  simp [List.zipWith_replicate']

private theorem macdNumpy_flat [CharZero F] (x : F) {n : ℕ} (h : 36 ≤ n) :
    macdNumpy (List.replicate n x) 12 26 9 =
      (List.replicate 25 none ++ List.replicate (n - 25) (some 0),
        List.replicate 33 none ++ List.replicate (n - 33) (some 0),
        List.replicate 33 none ++ List.replicate (n - 33) (some 0)) := by
  have hline : seriesSub (emaNumpy ((List.replicate n x).map some) 12) (emaNumpy ((List.replicate n x).map some) 26) =
      List.replicate 25 none ++ List.replicate (n - 25) (some 0) := by
    rw [emaNumpy_flat x (by decide) (by omega), emaNumpy_flat x (by decide) (by omega),
      seriesSub_constant x x (by decide) (by omega), sub_self, show n + 1 - 26 = n - 25 by omega]
  have hsignal : emaNumpy (List.replicate 25 none ++ List.replicate (n - 25) (some (0 : F))) 9 =
      List.replicate 33 none ++ List.replicate (n - 33) (some 0) := by
    rw [emaNumpy_constant 0 (by decide) (by omega), show n - 25 + 1 - 9 = n - 33 by omega]
  unfold macdNumpy
  dsimp only
  rw [hline, hsignal, seriesSub_constant 0 0 (by decide) (by omega), sub_self]

end Constant

section Signals

variable {F : Type} [Field F] [LinearOrder F] [IsStrictOrderedRing F]

omit [IsStrictOrderedRing F] in
/-- Without gains and losses the index is that of a ratio of 100. -/
private theorem rsiFrom_flat (period n : ℕ) :
    rsiFrom period 0 0 (List.replicate n ((0 : F), (0 : F))) =
      List.replicate n (some (((100 : ℚ) : F) - ((100 : ℚ) : F) / (1 + ((100 : ℚ) : F)))) := by
  have hwilder : wilder period (0 : F) 0 = 0 := by rw [wilder, zero_mul, zero_add, zero_div]
  induction n with
  | zero => rfl
  | succ n ih =>
    rw [List.replicate_succ, List.replicate_succ, ← ih]
    simp only [rsiFrom, hwilder, lt_irrefl, if_false]

private theorem rsiNumpy_flat (x : F) {n period : ℕ} (hpos : 0 < period) (h : period < n) :
    rsiNumpy (List.replicate n x) period = List.replicate (period + 1) none ++
      List.replicate (n - 1 - period) (some (((100 : ℚ) : F) - ((100 : ℚ) : F) / (1 + ((100 : ℚ) : F)))) := by
  have hdeltas : List.zipWith (fun later earlier : F => later - earlier) (List.replicate n x).tail
      (List.replicate n x) = List.replicate (n - 1) 0 := by
    rw [List.tail_replicate, List.zipWith_replicate, Nat.min_eq_left (Nat.sub_le n 1), sub_self]
  unfold rsiNumpy
  rw [hdeltas]
  simp only [List.map_replicate, lt_irrefl, if_false, List.length_replicate, List.zip_replicate', List.take_replicate,
    List.drop_replicate]
  rw [if_neg (by omega), Nat.min_eq_left (by omega), mean_replicate 0 hpos, rsiFrom_flat]

/-- The index stands at its highest possible value and does not rise. -/
private theorem computeRsi_flat (x : F) {n : ℕ} (h : 50 ≤ n) :
    ∃ r, computeRsi none defaultSettings.technicalAnalysis (List.replicate n x) = some r ∧
      r.signal = .strongSell := by
  have hcurrent : ∀ k, k < n - 1 - 14 → fromEnd (rsiNumpy (List.replicate n x) 14) k =
      some (some (((100 : ℚ) : F) - ((100 : ℚ) : F) / (1 + ((100 : ℚ) : F)))) := by
    intro k hk
    rw [rsiNumpy_flat x (by decide) (by omega)]
    exact fromEnd_replicate _ _ hk
  have hvalid : validateLength (List.replicate n x) (14 + 1) = some () :=
    if_pos (by rw [List.length_replicate]; omega)
  unfold computeRsi
  simp only [defaultSettings, hvalid, viaTalib, Option.bind_eq_bind, Option.bind_some, hcurrent 0 (by omega),
    hcurrent 1 (by omega), id_eq, Option.getD_some, lt_irrefl]
  refine ⟨_, rfl, ?_⟩
  norm_num [rsiSignal]

private theorem computeMacd_flat (x : F) {n : ℕ} (h : 50 ≤ n) :
    ∃ r, computeMacd none defaultSettings.technicalAnalysis (List.replicate n x) = some r ∧
      r.signal = .neutral := by
  have hvalid : validateLength (List.replicate n x) (26 + 9 + 1) = some () :=
    if_pos (by rw [List.length_replicate]; omega)
  unfold computeMacd
  simp only [defaultSettings, hvalid, viaTalib, Option.bind_eq_bind, Option.bind_some,
    macdNumpy_flat x (show 36 ≤ n by omega)]
  rw [fromEnd_replicate _ _ (show 0 < n - 25 by omega), fromEnd_replicate _ _ (show 0 < n - 33 by omega)]
  refine ⟨_, rfl, ?_⟩
  norm_num [macdSignal, histZeroBand]

private theorem variance_replicate (x : F) {n : ℕ} (h : 0 < n) : variance (List.replicate n x) = 0 := by
  rw [variance, mean_replicate x h, List.map_replicate, sub_self, List.sum_replicate, List.length_replicate]
  simp

omit [LinearOrder F] [IsStrictOrderedRing F] in
private theorem fromEnd_map_range {α : Type} (f : ℕ → α) {n : ℕ} (h : 0 < n) :
    fromEnd ((List.range n).map f) 0 = some (f (n - 1)) := by
  obtain ⟨m, rfl⟩ := Nat.exists_eq_succ_of_ne_zero h.ne'
  rw [fromEnd, List.range_succ, List.map_append, List.reverse_append]
  rfl

/-- The bands close on the price. -/
private theorem bbandsNumpy_flat {sqrt : F → F} (hsqrt : sqrt 0 = 0) (x stdDev : F) {n : ℕ} (h : 50 ≤ n) :
    fromEnd (bbandsNumpy sqrt (List.replicate n x) 20 stdDev).1 0 = some (some x) ∧
      fromEnd (bbandsNumpy sqrt (List.replicate n x) 20 stdDev).2.1 0 = some (some x) ∧
      fromEnd (bbandsNumpy sqrt (List.replicate n x) 20 stdDev).2.2 0 = some (some x) := by
  have hband : ∀ offset : F, fromEnd ((List.range (List.replicate n x).length).map fun i => if i + 1 < 20 then none
      else
        let window := ((List.replicate n x).drop (i + 1 - 20)).take 20
        some (mean window + offset * sqrt (variance window))) 0 = some (some x) := by
    intro offset
    have hwindow : ((List.replicate n x).drop (n - 1 + 1 - 20)).take 20 = List.replicate 20 x := by
      rw [List.drop_replicate, List.take_replicate]
      congr 1
      omega
    rw [List.length_replicate, fromEnd_map_range _ (by omega), if_neg (by omega), hwindow]
    dsimp only
    rw [mean_replicate x (by decide), variance_replicate x (by decide), hsqrt, mul_zero, add_zero]
  exact ⟨hband stdDev, hband 0, hband (-stdDev)⟩

private theorem computeBollingerBands_flat {sqrt : F → F} (hsqrt : sqrt 0 = 0) (x : F) {n : ℕ} (h : 50 ≤ n) :
    ∃ r, computeBollingerBands none sqrt defaultSettings.technicalAnalysis (List.replicate n x) = some r ∧
      r.signal = .neutral := by
  obtain ⟨hupper, hmiddle, hlower⟩ := bbandsNumpy_flat hsqrt x (((2 : ℚ) : F)) h
  have hvalid : validateLength (List.replicate n x) 20 = some () :=
    if_pos (by rw [List.length_replicate]; omega)
  have hprice : fromEnd (List.replicate n x) 0 = some x := by
    rw [← List.nil_append (List.replicate n x)]
    exact fromEnd_replicate _ _ (by omega)
  unfold computeBollingerBands
  simp only [defaultSettings, hvalid, hprice, viaTalib, Option.bind_eq_bind, Option.bind_some, hupper, hmiddle, hlower,
    id_eq, Option.map_some, sub_self, lt_irrefl, if_false]
  refine ⟨_, rfl, ?_⟩
  norm_num [bollingerSignal]

private theorem computeEmaCross_flat (x : F) {n : ℕ} (h : 50 ≤ n) :
    ∃ r, computeEmaCross none defaultSettings.technicalAnalysis (List.replicate n x) = some r ∧
      r.signal = .neutral := by
  have hvalid : validateLength (List.replicate n x) (21 + 1) = some () :=
    if_pos (by rw [List.length_replicate]; omega)
  have hema : ∀ period k, 0 < period → period + k ≤ n →
      fromEnd (emaNumpy ((List.replicate n x).map some) period) k = some (some x) := by
    intro period k hpos hk
    rw [emaNumpy_flat x hpos (by omega)]
    exact fromEnd_replicate _ _ (by omega)
  unfold computeEmaCross
  simp only [defaultSettings, hvalid, viaTalib, Option.bind_eq_bind, Option.bind_some,
    hema 9 0 (by decide) (by omega), hema 9 1 (by decide) (by omega), hema 21 0 (by decide) (by omega),
    hema 21 1 (by decide) (by omega), id_eq, Option.map_some, gtNan, sub_self, zero_div, zero_mul, ite_self,
    lt_irrefl]
  refine ⟨_, rfl, ?_⟩
  norm_num [emaCrossSignal]

open SignalGenerator

/-- The readings of a flat market, in the order of the generator: only the strength index is not neutral. -/
theorem primaryReadings_flat {sqrt : F → F} (hsqrt : sqrt 0 = 0) (x : F) {n : ℕ} (h : 50 ≤ n) :
    ∃ (rsi : RSIResult F) (macd : MACDResult F) (bb : BollingerResult F) (ema : EMACrossResult F),
      primaryReadings none sqrt defaultSettings.technicalAnalysis (List.replicate n x) =
        [reading .rsi rsi.value .strongSell rsi.metadata, reading .macd macd.histogram .neutral macd.metadata,
          reading .bollingerBands bb.percentB .neutral bb.metadata,
          reading .emaCross ema.spreadPct .neutral ema.metadata] := by
  obtain ⟨rsi, hrsi, hrsi'⟩ := computeRsi_flat x h
  obtain ⟨macd, hmacd, hmacd'⟩ := computeMacd_flat x h
  obtain ⟨bb, hbb, hbb'⟩ := computeBollingerBands_flat hsqrt x h
  obtain ⟨ema, hema, hema'⟩ := computeEmaCross_flat x h
  refine ⟨rsi, macd, bb, ema, ?_⟩
  rw [primaryReadings, hrsi, hmacd, hbb, hema]
  simp only [Option.map_some, List.reduceOption_cons_of_some, List.reduceOption_nil, hrsi', hmacd', hbb', hema']

end Signals

namespace CandleBuffer

/-- All candles stand at one price, on one volume. -/
def IsFlat (b : CandleBuffer) (p v : ℚ) : Prop :=
  ∀ c ∈ b.candles, c.openPrice = p ∧ c.high = p ∧ c.low = p ∧ c.close = p ∧ c.volume = v

instance (b : CandleBuffer) (p v : ℚ) : Decidable (b.IsFlat p v) :=
  inferInstanceAs (Decidable (∀ c ∈ b.candles, _))

section Readings

variable {F : Type} [Field F] [LinearOrder F] [IsStrictOrderedRing F]

/-- What the generator reads off the buffer with the numpy indicators and the default settings. -/
def readings (sqrt : F → F) (b : CandleBuffer) : List (IndicatorReading F) :=
  SignalGenerator.primaryReadings none sqrt defaultSettings.technicalAnalysis b.closes

/-- Every primary indicator that computes is neutral, and so are the score and the direction. -/
def ReadsNeutral (sqrt : F → F) (b : CandleBuffer) : Prop :=
  (∀ r ∈ b.readings sqrt, r.signal = .neutral) ∧ SignalGenerator.compositeScore (b.readings sqrt) = 0 ∧
    scalarToDirection (SignalGenerator.compositeScore (b.readings sqrt)) = .neutral

omit [LinearOrder F] [IsStrictOrderedRing F] in
theorem IsFlat.closes {b : CandleBuffer} {p v : ℚ} (h : b.IsFlat p v) :
    (b.closes : List F) = List.replicate b.size (p : F) := by
  refine List.eq_replicate_iff.2 ⟨List.length_map _, fun x hx => ?_⟩
  obtain ⟨c, hc, rfl⟩ := List.mem_map.1 hx
  rw [(h c hc).2.2.2.1]

end Readings

/-- A flat market is sold, whatever its price and volume: the strength index reads `STRONG_SELL`, the other three
indicators are neutral, and a quarter of the weight is a score at the threshold of `SELL`. -/
theorem flat_market_sells (b : CandleBuffer) (p v : ℚ) (hflat : b.IsFlat p v) (hsize : 50 ≤ b.size) :
    (b.readings Real.sqrt).map (fun r => (r.name, r.signal)) =
        [(.rsi, .strongSell), (.macd, .neutral), (.bollingerBands, .neutral), (.emaCross, .neutral)] ∧
      SignalGenerator.compositeScore (b.readings Real.sqrt) = -1 / 4 ∧
      scalarToDirection (SignalGenerator.compositeScore (b.readings Real.sqrt)) = .sell ∧
      ¬b.ReadsNeutral Real.sqrt := by
  obtain ⟨rsi, macd, bb, ema, hreadings⟩ := primaryReadings_flat Real.sqrt_zero (p : ℝ) hsize
  rw [← hflat.closes] at hreadings
  have hscore : SignalGenerator.compositeScore (b.readings Real.sqrt) = -1 / 4 := by
    rw [readings, hreadings]
    norm_num [SignalGenerator.compositeScore, SignalGenerator.totalWeight, SignalGenerator.reading, directionToScalar,
      indicatorWeight]
  refine ⟨?_, hscore, ?_, ?_⟩
  · rw [readings, hreadings]
    rfl
  · rw [hscore]
    norm_num [scalarToDirection]
  · rintro ⟨-, hzero, -⟩
    rw [hscore] at hzero
    norm_num at hzero

end CandleBuffer

/-- Fifty minutes without a trade away from 100. -/
def stillBuffer : CandleBuffer :=
  ((List.range 50).map fun i : ℕ => flatCandle "BTC/USDT" "1m" (60 * i) 100 1 unit_volume_nonneg).foldl CandleBuffer.add
    (.forPair "BTC/USDT" "1m")

theorem stillBuffer_isFlat : stillBuffer.IsFlat 100 1 ∧ 50 ≤ stillBuffer.size := by decide +kernel

theorem flat_market_sells_still :
    (stillBuffer.IsFlat 100 1 ∧ 50 ≤ stillBuffer.size) ∧
      SignalGenerator.compositeScore (stillBuffer.readings Real.sqrt) = -1 / 4 :=
  ⟨stillBuffer_isFlat, (stillBuffer.flat_market_sells 100 1 stillBuffer_isFlat.1 stillBuffer_isFlat.2).2.1⟩

/-- So a flat market is not read as neutral. -/
theorem still_market_not_neutral :
    ¬∀ (b : CandleBuffer) (p v : ℚ), 0 < p → 0 < v → b.IsFlat p v → 50 ≤ b.size → b.ReadsNeutral Real.sqrt := by
  intro h
  obtain ⟨rsi, macd, bb, ema, hreadings⟩ := primaryReadings_flat Real.sqrt_zero ((100 : ℚ) : ℝ) stillBuffer_isFlat.2
  obtain ⟨hneutral, -, -⟩ := h stillBuffer 100 1 (by norm_num) one_pos stillBuffer_isFlat.1 stillBuffer_isFlat.2
  rw [CandleBuffer.readings, stillBuffer_isFlat.1.closes, hreadings] at hneutral
  have hrsi : SignalDirection.strongSell = .neutral := hneutral _ List.mem_cons_self
  cases hrsi

end MultiAgentTrading
