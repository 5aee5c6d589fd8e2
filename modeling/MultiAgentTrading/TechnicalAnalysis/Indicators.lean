import MultiAgentTrading.Core.Models
import MultiAgentTrading.Core.Settings
import Mathlib.Algebra.BigOperators.Group.List.Basic

/-!
# Indicators

RSI, MACD, Bollinger bands, EMA cross, volume and ATR over the prices of a candle buffer, with the numpy fallbacks
that are used when TA-Lib is not installed.  Arithmetic is exact: numbers live in an ordered field `F`, and an
element of a series that numpy would hold as NaN is `none`; the float constants of the source are rationals.  The
square root is a parameter, since an ordered field need not have one; so is TA-Lib.

Each `compute…` returns `none` where the source raises: a series that is too short, an index out of range, or a
current value that is NaN.  A comparison with NaN is false.
-/

namespace MultiAgentTrading

/-- A float array: `none` stands for NaN. -/
abbrev Series (F : Type) := List (Option F)

/-- The functions of TA-Lib that are called; `none` where a call raises. -/
structure TaLib (F : Type) where
  rsi : List F → ℕ → Option (Series F)
  macd : List F → ℕ → ℕ → ℕ → Option (Series F × Series F × Series F)
  bbands : List F → ℕ → F → F → Option (Series F × Series F × Series F)
  ema : List F → ℕ → Option (Series F)
  atr : List F → List F → List F → ℕ → Option (Series F)

section Results

variable (F : Type)

structure RSIResult where
  value : F
  signal : SignalDirection
  period : ℕ
  isOverbought : Bool
  isOversold : Bool
  metadata : Dict String (MetaValue F) := .empty

structure MACDResult where
  macdLine : F
  signalLine : F
  histogram : F
  signal : SignalDirection
  metadata : Dict String (MetaValue F) := .empty

/-- Only `upper` is checked for NaN. -/
structure BollingerResult where
  upper : F
  middle : Option F
  lower : Option F
  bandwidth : Option F
  percentB : F
  signal : SignalDirection
  currentPrice : F
  metadata : Dict String (MetaValue F) := .empty

structure EMACrossResult where
  emaShort : F
  emaLong : F
  spread : F
  spreadPct : F
  signal : SignalDirection
  crossoverDetected : Bool
  metadata : Dict String (MetaValue F) := .empty

structure VolumeResult where
  currentVolume : F
  avgVolume : F
  volumeRatio : F
  signal : SignalDirection
  metadata : Dict String (MetaValue F) := .empty

inductive VolatilityRegime | low | normal | high
  deriving DecidableEq, Repr

structure ATRResult where
  value : F
  asPctOfPrice : F
  period : ℕ
  volatilityRegime : VolatilityRegime
  metadata : Dict String (MetaValue F) := .empty

end Results

/-- The element `arr[-(k+1)]`. -/
def fromEnd {α : Type} (l : List α) (k : ℕ) : Option α := l.reverse[k]?

/-- `_validate_length`. -/
def validateLength {α : Type} (l : List α) (required : ℕ) : Option Unit := if required ≤ l.length then some () else none

section Compute

variable {F : Type} [Field F] [LinearOrder F]

/-- `np.mean`. -/
def mean (l : List F) : F := l.sum / l.length

/-- A comparison `x > y` with a float that may be NaN. -/
def gtNan (x : F) : Option F → Bool
  | none => false
  | some y => y < x

namespace MetaValue

def ofNan : Option F → MetaValue F
  | .none => .other .none
  | .some x => .float x

def ofNat (n : ℕ) : MetaValue F := .other (some n)

def ofBool (b : Bool) : MetaValue F := .other (some (if b then 1 else 0))

end MetaValue

/-! ### The numpy fallbacks -/

/-- `result[i] = data[i] * alpha + result[i - 1] * (1 - alpha)`, NaN where either is. -/
def emaFrom (alpha : F) : Option F → Series F → Series F
  | _, [] => []
  | prev, x :: xs =>
    let result := x.bind fun x => prev.map fun p => x * alpha + p * (1 - alpha)
    result :: emaFrom alpha result xs

/-- `_ema_numpy`: seeded at the `period`-th valid value with the mean of the values up to it. -/
def emaNumpy (data : Series F) (period : ℕ) : Series F :=
  let alpha : F := (2 : ℚ) / (period + 1)
  let validIndices := (List.range data.length).filter fun i => ((data[i]?).bind id).isSome
  match validIndices[period - 1]?, validIndices[0]? with
  | some start, some firstValid =>
    let seedValues := (data.drop firstValid).take (start + 1 - firstValid)
    let seed := mean ((seedValues.drop (seedValues.length - period)).filterMap id)
    List.replicate start none ++ some seed :: emaFrom alpha (some seed) (data.drop (start + 1))
  | _, _ => List.replicate data.length none

omit [Field F] [LinearOrder F] in
/-- The valid indices of a series that is NaN up to `k`. -/
theorem validIndices_warmedUp (k : ℕ) (values : List F) :
    ((List.range (List.replicate k none ++ values.map some).length).filter fun i =>
      (((List.replicate k none ++ values.map some)[i]?).bind id).isSome) = List.range' k values.length := by
  rw [List.length_append, List.length_replicate, List.length_map, List.range_eq_range', ← List.range'_append_1,
    List.filter_append, Nat.zero_add]
  have hbelow : (List.range' 0 k).filter (fun i =>
      (((List.replicate k none ++ values.map some)[i]?).bind id).isSome) = [] := by
    refine List.filter_eq_nil_iff.2 fun i hi => ?_
    have hlt : i < k := by
      have := List.mem_range'_1.1 hi
      omega
    rw [List.getElem?_append_left (by rwa [List.length_replicate]), List.getElem?_replicate_of_lt hlt]
    exact Bool.false_ne_true
  have hvalues : (List.range' k values.length).filter (fun i =>
      (((List.replicate k none ++ values.map some)[i]?).bind id).isSome) = List.range' k values.length := by
    refine List.filter_eq_self.2 fun i hi => ?_
    have hle := List.mem_range'_1.1 hi
    rw [List.getElem?_append_right (by rw [List.length_replicate]; exact hle.1), List.length_replicate,
      List.getElem?_map, List.getElem?_eq_getElem (by omega)]
    rfl
  rw [hbelow, hvalues, List.nil_append]

omit [Field F] [LinearOrder F] in
theorem drop_warmedUp (k : ℕ) (values : List F) {period : ℕ} (hpos : 0 < period) :
    (List.replicate k none ++ values.map some).drop (k + period - 1 + 1) = (values.drop period).map some := by
  rw [show k + period - 1 + 1 = k + period by omega, ← List.drop_drop, List.drop_left' List.length_replicate,
    List.map_drop]

omit [LinearOrder F] in
/-- The average of a series that is NaN up to `k` is seeded with the mean of its first values. -/
theorem emaNumpy_eq (k : ℕ) {values : List F} {period : ℕ} (hpos : 0 < period) (h : period ≤ values.length) :
    emaNumpy (List.replicate k none ++ values.map some) period =
      List.replicate (k + period - 1) none ++ some (mean (values.take period)) ::
        emaFrom ((2 : ℚ) / (period + 1)) (some (mean (values.take period))) ((values.drop period).map some) := by
  have hstart : (List.range' k values.length)[period - 1]? = some (k + period - 1) := by
    rw [List.getElem?_range' (by omega), Nat.one_mul, Nat.add_sub_assoc hpos]
  have hfirst : (List.range' k values.length)[0]? = some k := by
    rw [List.getElem?_range' (by omega), Nat.one_mul, Nat.add_zero]
  have hdrop : (List.replicate k none ++ values.map some).drop k = values.map some := List.drop_left' (by simp)
  have hwindow : ((values.map some).take (k + period - 1 + 1 - k)) = (values.take period).map some := by
    rw [show k + period - 1 + 1 - k = period by omega, List.map_take]
  have hlength : (values.take period).length = period := List.length_take_of_le h
  unfold emaNumpy
  rw [validIndices_warmedUp]
  simp only [hstart, hfirst, hdrop, hwindow, List.length_map, hlength, Nat.sub_self, List.drop_zero,
    drop_warmedUp k values hpos]
  rw [List.filterMap_map, Function.id_comp, List.filterMap_some]

omit [LinearOrder F] in
theorem emaNumpy_of_short (k : ℕ) {values : List F} {period : ℕ} (hpos : 0 < period) (h : values.length < period) :
    emaNumpy (List.replicate k none ++ values.map some) period = List.replicate (k + values.length) none := by
  have hnone : (List.range' k values.length)[period - 1]? = none :=
    List.getElem?_eq_none (by rw [List.length_range']; omega)
  unfold emaNumpy
  rw [validIndices_warmedUp]
  simp only [hnone, List.length_append, List.length_replicate, List.length_map]

/-- Wilder's smoothing of an average by the next value. -/
def wilder (period : ℕ) (avg x : F) : F := (avg * (period - 1) + x) / period

def rsiFrom (period : ℕ) : F → F → List (F × F) → Series F
  | _, _, [] => []
  | avgGain, avgLoss, (gain, loss) :: rest =>
    let avgGain' := wilder period avgGain gain
    let avgLoss' := wilder period avgLoss loss
    let rs := if 0 < avgLoss' then avgGain' / avgLoss' else (100 : ℚ)
    some ((100 : ℚ) - (100 : ℚ) / (1 + rs)) :: rsiFrom period avgGain' avgLoss' rest

/-- `_rsi_numpy`; the first value is at index `period + 1`. -/
def rsiNumpy (closes : List F) (period : ℕ) : Series F :=
  let deltas := List.zipWith (fun later earlier => later - earlier) closes.tail closes
  let gains := deltas.map fun d => if 0 < d then d else 0
  let losses := deltas.map fun d => if d < 0 then -d else 0
  if gains.length < period then List.replicate closes.length none
  else
    List.replicate (period + 1) none ++
      rsiFrom period (mean (gains.take period)) (mean (losses.take period)) ((gains.zip losses).drop period)

/-- The difference of two series, NaN where either is. -/
def seriesSub (a b : Series F) : Series F := List.zipWith (fun x y => x.bind fun x => y.map fun y => x - y) a b

/-- `_macd_numpy`: the MACD line, its signal line and their difference. -/
def macdNumpy (closes : List F) (fast slow signal : ℕ) : Series F × Series F × Series F :=
  let macdLine := seriesSub (emaNumpy (closes.map some) fast) (emaNumpy (closes.map some) slow)
  let signalLine := emaNumpy macdLine signal
  (macdLine, signalLine, seriesSub macdLine signalLine)

/-- The population variance, of which `np.std` is the square root. -/
def variance (l : List F) : F := (l.map fun x => (x - mean l) ^ 2).sum / l.length

/-- `_bbands_numpy`: the mean of each window and `stdDev` deviations around it. -/
def bbandsNumpy (sqrt : F → F) (closes : List F) (period : ℕ) (stdDev : F) : Series F × Series F × Series F :=
  let band (offset : F) : Series F := (List.range closes.length).map fun i =>
    if i + 1 < period then none
    else
      let window := (closes.drop (i + 1 - period)).take period
      some (mean window + offset * sqrt (variance window))
  (band stdDev, band 0, band (-stdDev))

def atrFrom (period : ℕ) : F → List F → Series F
  | _, [] => []
  | avg, tr :: trs => some (wilder period avg tr) :: atrFrom period (wilder period avg tr) trs

/-- The true ranges, one for each candle but the first. -/
def trueRanges (highs lows closes : List F) : List F :=
  List.zipWith (fun hl previous => max (hl.1 - hl.2) (max |hl.1 - previous| |hl.2 - previous|))
    (highs.tail.zip lows.tail) closes

/-- `_atr_numpy`; the first value is at index `period`. -/
def atrNumpy (highs lows closes : List F) (period : ℕ) : Series F :=
  let tr := trueRanges highs lows closes
  if tr.length < period then List.replicate closes.length none
  else
    let seed := mean (tr.take period)
    List.replicate period none ++ some seed :: atrFrom period seed (tr.drop period)

/-! ### The indicators -/

/-- Call TA-Lib if it is installed, else take the fallback. -/
def viaTalib {α : Type} (talib : Option (TaLib F)) (call : TaLib F → Option α) (fallback : α) : Option α :=
  match talib with
  | some lib => call lib
  | none => some fallback

variable (talib : Option (TaLib F)) (sqrt : F → F) (cfg : TechnicalAnalysisSettings)

def rsiSignal (current : F) (isOversold isOverbought rsiRising : Bool) : SignalDirection :=
  if isOversold then if current ≤ (20 : ℚ) then .strongBuy else .buy
  else if isOverbought then
    if rsiRising then if current < (90 : ℚ) then .buy else .neutral
    else if (80 : ℚ) ≤ current then .strongSell else .sell
  else .neutral

def computeRsi (closes : List F) : Option (RSIResult F) := do
  let period := cfg.rsiPeriod
  validateLength closes (period + 1)
  let rsiArr ← viaTalib talib (fun lib => lib.rsi closes period) (rsiNumpy closes period)
  let current ← (fromEnd rsiArr 0).bind id
  let isOverbought : Bool := (cfg.rsiOverbought : F) ≤ current
  let isOversold : Bool := current ≤ cfg.rsiOversold
  let prevRsi := ((fromEnd rsiArr 1).bind id).getD current
  let rsiRising : Bool := prevRsi < current
  return {
    value := current
    signal := rsiSignal current isOversold isOverbought rsiRising
    period := period
    isOverbought := isOverbought
    isOversold := isOversold
    metadata := Dict.empty
      |>.set "overbought_threshold" (.float (cfg.rsiOverbought : F))
      |>.set "oversold_threshold" (.float (cfg.rsiOversold : F))
      |>.set "prev_value" (.float prevRsi)
      |>.set "rsi_rising" (.ofBool rsiRising) }

/-- `HIST_ZERO_BAND`. -/
def histZeroBand : ℚ := 1 / 10 ^ 8

def macdSignal (macd signal hist : F) (prevHist : Option F) : SignalDirection :=
  if |hist| < histZeroBand then if signal < macd then .buy else if macd < signal then .sell else .neutral
  else
    let histRising := gtNan hist prevHist
    let threshold : Option F := prevHist.map fun p : F => |p| * (3 / 2 : ℚ)
    if 0 < hist then
      if histRising then if gtNan hist threshold then .strongBuy else .buy else .neutral
    else if histRising then .neutral
    else if gtNan |hist| threshold then .strongSell else .sell

def computeMacd (closes : List F) : Option (MACDResult F) := do
  let (fast, slow, signalPeriod) := (cfg.macdFast, cfg.macdSlow, cfg.macdSignal)
  validateLength closes (slow + signalPeriod + 1)
  let (macdArr, signalArr, histArr) ←
    viaTalib talib (fun lib => lib.macd closes fast slow signalPeriod) (macdNumpy closes fast slow signalPeriod)
  let currentMacd ← (fromEnd macdArr 0).bind id
  let currentSignal ← (fromEnd signalArr 0).bind id
  let currentHist ← (fromEnd histArr 0).bind id
  let prevHist := (fromEnd histArr 1).getD (some 0)
  return {
    macdLine := currentMacd
    signalLine := currentSignal
    histogram := currentHist
    signal := macdSignal currentMacd currentSignal currentHist prevHist
    metadata := Dict.empty
      |>.set "fast" (.ofNat fast)
      |>.set "slow" (.ofNat slow)
      |>.set "signal_period" (.ofNat signalPeriod)
      |>.set "prev_histogram" (.ofNan prevHist)
      |>.set "histogram_near_zero" (.ofBool (|currentHist| < histZeroBand)) }

def bollingerSignal (percentB : F) : SignalDirection :=
  if percentB ≤ 0 then .strongBuy
  else if percentB ≤ (1 / 10 : ℚ) then .buy
  else if 1 ≤ percentB then .strongSell
  else if (9 / 10 : ℚ) ≤ percentB then .sell
  else .neutral

def computeBollingerBands (closes : List F) : Option (BollingerResult F) := do
  let period := cfg.bbPeriod
  let stdDev : F := cfg.bbStdDev
  validateLength closes period
  let currentPrice ← fromEnd closes 0
  let (upperArr, middleArr, lowerArr) ←
    viaTalib talib (fun lib => lib.bbands closes period stdDev stdDev) (bbandsNumpy sqrt closes period stdDev)
  let upper ← (fromEnd upperArr 0).bind id
  let middle ← fromEnd middleArr 0
  let lower ← fromEnd lowerArr 0
  let bandRange := lower.map fun l => upper - l
  let percentB := match lower with
    | some l => if 0 < upper - l then (currentPrice - l) / (upper - l) else (1 / 2 : ℚ)
    | none => (1 / 2 : ℚ)
  let bandwidth := match middle with
    | some m => if 0 < m then bandRange.map fun r => r / m else some 0
    | none => some 0
  return {
    upper := upper
    middle := middle
    lower := lower
    bandwidth := bandwidth
    percentB := percentB
    signal := bollingerSignal percentB
    currentPrice := currentPrice
    metadata := Dict.empty
      |>.set "period" (.ofNat period)
      |>.set "std_dev" (.float stdDev)
      |>.set "band_range" (.ofNan bandRange) }

def emaCrossSignal (wasAbove isAbove : Bool) (spreadPct : F) : SignalDirection :=
  if wasAbove ≠ isAbove then if isAbove then .strongBuy else .strongSell
  else if isAbove then if (3 / 10 : ℚ) < spreadPct then .buy else .neutral
  else if (3 / 10 : ℚ) < |spreadPct| then .sell else .neutral

def computeEmaCross (closes : List F) : Option (EMACrossResult F) := do
  let (shortPeriod, longPeriod) := (cfg.emaShort, cfg.emaLong)
  validateLength closes (longPeriod + 1)
  let emaShortArr ← viaTalib talib (fun lib => lib.ema closes shortPeriod) (emaNumpy (closes.map some) shortPeriod)
  let emaLongArr ← viaTalib talib (fun lib => lib.ema closes longPeriod) (emaNumpy (closes.map some) longPeriod)
  let currentShort ← (fromEnd emaShortArr 0).bind id
  let currentLong ← (fromEnd emaLongArr 0).bind id
  let prevShort ← fromEnd emaShortArr 1
  let prevLong ← fromEnd emaLongArr 1
  let spread := currentShort - currentLong
  let spreadPct := if 0 < currentLong then spread / currentLong * (100 : ℚ) else 0
  let wasAbove : Bool := (prevShort.map fun s => gtNan s prevLong).getD false
  let isAbove : Bool := currentLong < currentShort
  return {
    emaShort := currentShort
    emaLong := currentLong
    spread := spread
    spreadPct := spreadPct
    signal := emaCrossSignal wasAbove isAbove spreadPct
    crossoverDetected := wasAbove ≠ isAbove
    metadata := Dict.empty
      |>.set "short_period" (.ofNat shortPeriod)
      |>.set "long_period" (.ofNat longPeriod)
      |>.set "prev_spread" (.ofNan (prevShort.bind fun s => prevLong.map fun l => s - l)) }

/-- `compute_volume_signal` over its default lookback of 20 bars, the current one excluded from the average. -/
def computeVolumeSignal (volumes : List F) : Option (VolumeResult F) := do
  let lookback := 20
  validateLength volumes lookback
  let current ← fromEnd volumes 0
  let avg := mean (volumes.drop (volumes.length - lookback)).dropLast
  let ratio := if 0 < avg then current / avg else 1
  return {
    currentVolume := current
    avgVolume := avg
    volumeRatio := ratio
    signal :=
      if (2 : ℚ) ≤ ratio then .strongBuy
      else if (3 / 2 : ℚ) ≤ ratio then .buy
      else if ratio ≤ (1 / 2 : ℚ) then .sell
      else .neutral
    metadata := Dict.empty |>.set "lookback" (.ofNat lookback) }

/-- The share of `price` that `atr` is, in percent. -/
def atrAsPct (atr price : F) : F := if 0 < price then atr / price * (100 : ℚ) else 0

/-- `compute_atr` with its default period of 14. -/
def computeAtr (highs lows closes : List F) : Option (ATRResult F) := do
  let period := 14
  validateLength closes (period + 1)
  let atrArr ← viaTalib talib (fun lib => lib.atr highs lows closes period) (atrNumpy highs lows closes period)
  let currentAtr ← (fromEnd atrArr 0).bind id
  let currentPrice ← fromEnd closes 0
  let asPct := atrAsPct currentAtr currentPrice
  return {
    value := currentAtr
    asPctOfPrice := asPct
    period := period
    volatilityRegime := if asPct < (1 / 2 : ℚ) then .low else if (2 : ℚ) < asPct then .high else .normal
    metadata := Dict.empty |>.set "current_price" (.float currentPrice) }

/-- The percentage is that of the value in the current price. -/
theorem computeAtr_asPctOfPrice {highs lows closes : List F} {r : ATRResult F}
    (h : computeAtr talib highs lows closes = some r) :
    ∃ price, fromEnd closes 0 = some price ∧ r.asPctOfPrice = atrAsPct r.value price := by
  unfold computeAtr at h
  simp only [Option.bind_eq_bind, Option.bind_eq_some_iff] at h
  obtain ⟨_, _, _, _, _, _, price, hprice, h⟩ := h
  cases h
  exact ⟨price, hprice, rfl⟩

end Compute

end MultiAgentTrading
