import MultiAgentTrading.Lib.Rounding
import MultiAgentTrading.TechnicalAnalysis.CandleBuffer
import MultiAgentTrading.TechnicalAnalysis.Indicators
import Mathlib.Data.Rat.Cast.Defs
import Mathlib.Data.Rat.Sqrt

/-!
# The rule-based signal generator

`SignalGenerator.generate` combines the indicators of a warm buffer into one signal: the weighted mean of their
directions is the score, and the confidence mixes the agreement of the indicators with the size of the score.
`generate_spec` says what every emitted signal carries; the consumers of a signal need nothing else about it.
-/

namespace MultiAgentTrading

namespace CandleBuffer

variable {F : Type} [Field F]

def closes (b : CandleBuffer) : List F := b.candles.map fun c => (c.close : F)

def highs (b : CandleBuffer) : List F := b.candles.map fun c => (c.high : F)

def lows (b : CandleBuffer) : List F := b.candles.map fun c => (c.low : F)

def volumes (b : CandleBuffer) : List F := b.candles.map fun c => (c.volume : F)

/-- The current price of the indicators is the close of the newest candle. -/
theorem fromEnd_closes (b : CandleBuffer) :
    fromEnd (b.closes : List F) 0 = b.latestCandle.map fun c => (c.close : F) := by
  rw [fromEnd, ← List.head?_eq_getElem?, List.head?_reverse, closes, List.getLast?_map, latestCandle]

theorem latestCandle_of_isWarm {b : CandleBuffer} (h : b.isWarm = true) : ∃ c, b.latestCandle = some c := by
  have hsize : minWarmupCandles ≤ b.candles.length := of_decide_eq_true h
  cases hlast : b.latestCandle with
  | some c => exact ⟨c, rfl⟩
  | none =>
    rw [latestCandle, List.getLast?_eq_none_iff] at hlast
    rw [hlast] at hsize
    exact absurd hsize (by decide)

end CandleBuffer

section Scores

variable {F : Type} [Field F]

/-- `_direction_to_scalar`. -/
def directionToScalar : SignalDirection → F
  | .strongBuy => 1
  | .buy => (1 / 2 : ℚ)
  | .neutral => 0
  | .sell => (-1 / 2 : ℚ)
  | .strongSell => -1

/-- `INDICATOR_WEIGHTS`; the volume reading is informational only. -/
def indicatorWeight : IndicatorName → ℚ
  | .macd => 30 / 100
  | .rsi => 25 / 100
  | .emaCross => 25 / 100
  | .bollingerBands => 20 / 100
  | .volume => 0

variable [LinearOrder F]

/-- `_scalar_to_direction`. -/
def scalarToDirection (score : F) : SignalDirection :=
  if ((65 / 100 : ℚ) : F) ≤ score then .strongBuy
  else if ((25 / 100 : ℚ) : F) ≤ score then .buy
  else if score ≤ ((-65 / 100 : ℚ) : F) then .strongSell
  else if score ≤ ((-25 / 100 : ℚ) : F) then .sell
  else .neutral

/-- `_compute_agreement`: one minus the standard deviation, at least zero. -/
def computeAgreement (sqrt : F → F) : List F → F
  | [] => 0
  | [_] => ((8 / 10 : ℚ) : F)
  | scalars => max 0 (1 - sqrt (variance scalars))

theorem indicatorWeight_mem [IsStrictOrderedRing F] (name : IndicatorName) :
    0 ≤ (indicatorWeight name : F) ∧ (indicatorWeight name : F) ≤ 1 := by
  have h : 0 ≤ indicatorWeight name ∧ indicatorWeight name ≤ 1 := by
    cases name <;> norm_num [indicatorWeight]
  exact ⟨by exact_mod_cast h.1, by exact_mod_cast h.2⟩

end Scores

namespace SignalGenerator

open Rounding (roundTo)

/-- `VOLUME_HIGH_THRESHOLD`, `VOLUME_LOW_THRESHOLD`, and the change of the confidence past either. -/
def volumeHighThreshold : ℚ := 3 / 2
def volumeLowThreshold : ℚ := 6 / 10
def volumeBoost : ℚ := 1 / 10
def volumePenalty : ℚ := 1 / 10

section Generate

variable {F : Type} [Field F] [LinearOrder F] [IsStrictOrderedRing F]
variable (talib : Option (TaLib F)) (sqrt : F → F) (cfg : TechnicalAnalysisSettings)

def reading (name : IndicatorName) (value : F) (signal : SignalDirection) (metadata : Dict String (MetaValue F)) :
    IndicatorReading F where
  name := name
  value := value
  signal := signal
  weight := indicatorWeight name
  metadata := metadata
  weight_mem := indicatorWeight_mem name

/-- The readings of the primary indicators that computed, each with the headline value of
`_extract_primary_value`. -/
def primaryReadings (closes : List F) : List (IndicatorReading F) :=
  [(computeRsi talib cfg closes).map fun r => reading .rsi r.value r.signal r.metadata,
    (computeMacd talib cfg closes).map fun r => reading .macd r.histogram r.signal r.metadata,
    (computeBollingerBands talib sqrt cfg closes).map fun r => reading .bollingerBands r.percentB r.signal r.metadata,
    (computeEmaCross talib cfg closes).map fun r => reading .emaCross r.spreadPct r.signal r.metadata].reduceOption

def totalWeight (readings : List (IndicatorReading F)) : F := (readings.map fun r => r.weight).sum

/-- The weighted mean of the directions. -/
def compositeScore (readings : List (IndicatorReading F)) : F :=
  let total := totalWeight readings
  if 0 < total then (readings.map fun r => directionToScalar r.signal * r.weight).sum / total else 0

def agreementOf (readings : List (IndicatorReading F)) : F :=
  computeAgreement sqrt (readings.map fun r => directionToScalar r.signal)

/-- The confidence of the primary readings, raised by a high and lowered by a low volume ratio. -/
def confidenceOf (readings : List (IndicatorReading F)) (volume : Option (VolumeResult F)) : F :=
  let base := agreementOf sqrt readings * ((6 / 10 : ℚ) : F) + |compositeScore readings| * ((4 / 10 : ℚ) : F)
  match volume with
  | none => base
  | some v =>
    if volumeHighThreshold ≤ v.volumeRatio then min 1 (base + volumeBoost)
    else if v.volumeRatio ≤ volumeLowThreshold then max 0 (base - volumePenalty)
    else base

/-- Write the three ATR entries that the risk agent sizes stops with. -/
def withAtr (metadata : Dict String (MetaValue F)) : Option (ATRResult F) → Dict String (MetaValue F)
  | none => metadata
  | some atr => metadata
    |>.set "atr_value" (.float atr.value)
    |>.set "atr_pct_of_price" (.float atr.asPctOfPrice)
    |>.set "volatility_regime" (.other none)

variable [FloorRing F]

def signalMetadata (readings : List (IndicatorReading F)) (atr : Option (ATRResult F)) :
    Dict String (MetaValue F) :=
  withAtr (Dict.empty
    |>.set "composite_score" (.float (roundTo 4 (compositeScore readings)))
    |>.set "indicator_count" (.ofNat readings.length)
    |>.set "total_weight" (.float (roundTo 3 (totalWeight readings)))
    |>.set "agreement" (.float (roundTo 3 (agreementOf sqrt readings)))) atr

/-- `generate`, with the id of the signal and the readings of the clock for its expiry and its timestamp.  There is
no signal from a cold buffer, from fewer than two indicators or below the confidence threshold, and none where the
model of the signal refuses the confidence. -/
def generate (buffer : CandleBuffer) (signalId : ℕ) (expiryTime stampTime : ℚ) : Option (TechnicalSignal F) := do
  guard buffer.isWarm
  let price ← fromEnd buffer.closes 0
  let volume := computeVolumeSignal buffer.volumes
  let atr := computeAtr talib buffer.highs buffer.lows buffer.closes
  let readings := primaryReadings talib sqrt cfg buffer.closes
  guard (2 ≤ readings.length)
  let confidence := confidenceOf sqrt readings volume
  guard ((cfg.minSignalConfidence : F) ≤ confidence)
  if h : 0 ≤ roundTo 4 confidence ∧ roundTo 4 confidence ≤ 1 then
    return {
      signalId := signalId
      symbol := buffer.symbol
      timeframe := buffer.timeframe
      timestamp := stampTime
      expiresAt := expiryTime + cfg.signalTtlSeconds
      direction := scalarToDirection (compositeScore readings)
      confidence := roundTo 4 confidence
      indicators := readings ++
        (volume.map fun v => reading .volume v.volumeRatio v.signal v.metadata).toList
      price := price
      metadata := signalMetadata sqrt readings atr
      confidence_mem := h }
  else failure

/-! ### The confidence is a fraction -/

omit [FloorRing F] in
private theorem abs_directionToScalar_le (d : SignalDirection) : |(directionToScalar d : F)| ≤ 1 := by
  rw [abs_le]
  cases d <;> constructor <;> norm_num [directionToScalar]

omit [FloorRing F] in
private theorem abs_weightedSum_le (readings : List (IndicatorReading F)) :
    |(readings.map fun r => directionToScalar r.signal * r.weight).sum| ≤ totalWeight readings := by
  induction readings with
  | nil => simp [totalWeight]
  | cons r rs ih =>
    have hw : 0 ≤ r.weight := r.weight_mem.1
    have hr : |directionToScalar r.signal * r.weight| ≤ r.weight := by
      rw [abs_mul, abs_of_nonneg hw]
      exact mul_le_of_le_one_left hw (abs_directionToScalar_le r.signal)
    have hadd := abs_add_le (directionToScalar r.signal * r.weight)
      (rs.map fun r => directionToScalar r.signal * r.weight).sum
    simp only [totalWeight, List.map_cons, List.sum_cons] at ih ⊢
    linarith

omit [FloorRing F] in
theorem abs_compositeScore_le (readings : List (IndicatorReading F)) : |compositeScore readings| ≤ 1 := by
  unfold compositeScore
  dsimp only
  split
  case isFalse => simp
  case isTrue h =>
    rw [abs_div, abs_of_pos h, div_le_one h]
    exact abs_weightedSum_le readings

omit [FloorRing F] in
private theorem computeAgreement_mem {sqrt : F → F} (hsqrt : ∀ x, 0 ≤ sqrt x) (scalars : List F) :
    0 ≤ computeAgreement sqrt scalars ∧ computeAgreement sqrt scalars ≤ 1 := by
  match scalars with
  | [] => simp [computeAgreement]
  | [_] => constructor <;> norm_num [computeAgreement]
  | a :: b :: rest =>
    have h := hsqrt (variance (a :: b :: rest))
    exact ⟨le_max_left _ _, max_le zero_le_one (by linarith)⟩

omit [FloorRing F] in
theorem confidenceOf_mem {sqrt : F → F} (hsqrt : ∀ x, 0 ≤ sqrt x) (readings : List (IndicatorReading F))
    (volume : Option (VolumeResult F)) :
    0 ≤ confidenceOf sqrt readings volume ∧ confidenceOf sqrt readings volume ≤ 1 := by
  obtain ⟨ha, ha'⟩ := computeAgreement_mem hsqrt (readings.map fun r => directionToScalar r.signal)
  have hs := abs_nonneg (compositeScore readings)
  have hs' := abs_compositeScore_le readings
  have hweights : ((6 / 10 : ℚ) : F) = 6 / 10 ∧ ((4 / 10 : ℚ) : F) = 4 / 10 := by constructor <;> norm_num
  have hbase : 0 ≤ agreementOf sqrt readings * ((6 / 10 : ℚ) : F) + |compositeScore readings| * ((4 / 10 : ℚ) : F) ∧
      agreementOf sqrt readings * ((6 / 10 : ℚ) : F) + |compositeScore readings| * ((4 / 10 : ℚ) : F) ≤ 1 := by
    rw [hweights.1, hweights.2]
    unfold agreementOf
    constructor <;> linarith
  have hboost : (0 : F) < (volumeBoost : ℚ) ∧ (0 : F) < (volumePenalty : ℚ) := by
    constructor <;> norm_num [volumeBoost, volumePenalty]
  unfold confidenceOf
  dsimp only
  split
  · exact hbase
  · split_ifs
    · exact ⟨le_min zero_le_one (by linarith), min_le_left _ _⟩
    · exact ⟨le_max_left _ _, max_le zero_le_one (by linarith)⟩
    · exact hbase

/-- With a nonnegative root the model of the signal refuses nothing: a signal is withheld only for a cold buffer, too
few indicators or a low confidence. -/
theorem generate_isSome_iff (hsqrt : ∀ x, 0 ≤ sqrt x) (buffer : CandleBuffer) (signalId : ℕ)
    (expiryTime stampTime : ℚ) :
    (generate talib sqrt cfg buffer signalId expiryTime stampTime).isSome = true ↔
      buffer.isWarm = true ∧ 2 ≤ (primaryReadings talib sqrt cfg buffer.closes).length ∧
        (cfg.minSignalConfidence : F) ≤ confidenceOf sqrt (primaryReadings talib sqrt cfg buffer.closes)
          (computeVolumeSignal buffer.volumes) := by
  have hround : 0 ≤ roundTo 4 (confidenceOf sqrt (primaryReadings talib sqrt cfg buffer.closes)
      (computeVolumeSignal buffer.volumes)) ∧ roundTo 4 (confidenceOf sqrt
        (primaryReadings talib sqrt cfg buffer.closes) (computeVolumeSignal buffer.volumes)) ≤ 1 := by
    obtain ⟨h0, h1⟩ := confidenceOf_mem hsqrt (primaryReadings talib sqrt cfg buffer.closes)
      (computeVolumeSignal buffer.volumes)
    have h0' := Rounding.le_roundTo 4 (n := 0) (by exact_mod_cast h0)
    have h1' := Rounding.roundTo_le 4 (n := 1) (by exact_mod_cast h1)
    exact ⟨by exact_mod_cast h0', by exact_mod_cast h1'⟩
  unfold generate
  by_cases hwarm : buffer.isWarm = true
  case neg => simp [hwarm]
  case pos =>
    obtain ⟨c, hc⟩ := CandleBuffer.latestCandle_of_isWarm hwarm
    have hprice : fromEnd (buffer.closes : List F) 0 = some (c.close : F) := by
      rw [CandleBuffer.fromEnd_closes, hc, Option.map_some]
    by_cases hlen : 2 ≤ (primaryReadings talib sqrt cfg buffer.closes).length
    case neg => simp [hwarm, hprice, hlen]
    case pos =>
      by_cases hconf : (cfg.minSignalConfidence : F) ≤ confidenceOf sqrt
          (primaryReadings talib sqrt cfg buffer.closes) (computeVolumeSignal buffer.volumes)
      case neg => simp [hwarm, hprice, hlen, hconf]
      case pos => simp [hwarm, hprice, hlen, hconf, hround]

/-! ### What a signal carries -/

/-- A signal comes from a warm buffer; its price is the newest close, its timestamp the reading of the clock, and its
metadata has the ATR computed on the buffer. -/
structure GeneratedFrom (buffer : CandleBuffer) (signalId : ℕ) (stampTime : ℚ) (signal : TechnicalSignal F) :
    Prop where
  isWarm : buffer.isWarm = true
  signalId : signal.signalId = signalId
  symbol : signal.symbol = buffer.symbol
  timeframe : signal.timeframe = buffer.timeframe
  timestamp : signal.timestamp = stampTime
  price : fromEnd buffer.closes 0 = some signal.price
  metadata : ∃ readings, signal.metadata =
    signalMetadata sqrt readings (computeAtr talib buffer.highs buffer.lows buffer.closes)

theorem generate_spec {buffer : CandleBuffer} {signalId : ℕ} {expiryTime stampTime : ℚ} {signal : TechnicalSignal F}
    (h : generate talib sqrt cfg buffer signalId expiryTime stampTime = some signal) :
    GeneratedFrom talib sqrt buffer signalId stampTime signal := by
  unfold generate at h
  simp only [Option.bind_eq_bind, Option.bind_eq_some_iff, Option.guard_eq_some'] at h
  obtain ⟨_, hwarm, price, hprice, _, _, _, _, h⟩ := h
  split at h
  case isFalse => cases h
  case isTrue =>
    cases h
    exact ⟨hwarm, rfl, rfl, rfl, rfl, hprice, _, rfl⟩

omit [IsStrictOrderedRing F] in
theorem get?_atrValue (readings : List (IndicatorReading F)) (atr : Option (ATRResult F)) :
    (signalMetadata sqrt readings atr).get? "atr_value" = atr.map fun r => .float r.value := by
  cases atr <;> simp [signalMetadata, withAtr, Dict.get?_set]

omit [IsStrictOrderedRing F] in
theorem get?_atrPctOfPrice (readings : List (IndicatorReading F)) (atr : Option (ATRResult F)) :
    (signalMetadata sqrt readings atr).get? "atr_pct_of_price" = atr.map fun r => .float r.asPctOfPrice := by
  cases atr <;> simp [signalMetadata, withAtr, Dict.get?_set]

end Generate

end SignalGenerator

/-- Candle `i` of a market that alternates between 100 and 101; after 46 minutes two lows and two highs make the
averages cross, the last one on doubled volume. -/
def crossingCandle (i : ℕ) : OHLCVCandle :=
  flatCandle "BTC/USDT" "1m" (60 * i) (if i < 46 then 100 + (i % 2 : ℕ) else if i < 48 then 100 else 101)
    (if i = 49 then 2 else 1) (by split <;> norm_num)

def crossingBuffer : CandleBuffer :=
  ((List.range 50).map crossingCandle).foldl CandleBuffer.add (.forPair "BTC/USDT" "1m")

/-- The two standard deviations that this signal depends on are rational, so that the roots are exact. -/
def crossingSignal : TechnicalSignal ℚ :=
  (SignalGenerator.generate none Rat.sqrt {} crossingBuffer 1 3000 3000).get (by decide +kernel)

theorem generate_crossing :
    SignalGenerator.generate none Rat.sqrt {} crossingBuffer 1 3000 3000 = some crossingSignal :=
  (Option.some_get _).symm

example : crossingSignal.direction = .buy ∧ crossingSignal.confidence = 62 / 100 := by decide +kernel

end MultiAgentTrading
