import MultiAgentTrading.Lib.Scaling
import MultiAgentTrading.TechnicalAnalysis.SignalGenerator
import Mathlib.Tactic.Ring

/-!
# Prices in another unit

The candles of a buffer with every price multiplied by one positive constant and every volume by another, and what
becomes of the averages, the variance and the series that the indicators are made of.
-/

namespace MultiAgentTrading

open Scaling

/-! ### Candles -/

namespace OHLCVCandle

variable (candle : OHLCVCandle) {c d : ℚ}

private theorem inUnits_low_le_high (hc : 0 < c) : c * candle.low ≤ c * candle.high :=
  mul_le_mul_of_nonneg_left candle.low_le_high hc.le

private theorem inUnits_high_ge (hc : 0 < c) :
    c * candle.openPrice ≤ c * candle.high ∧ c * candle.close ≤ c * candle.high :=
  ⟨mul_le_mul_of_nonneg_left candle.high_ge.1 hc.le, mul_le_mul_of_nonneg_left candle.high_ge.2 hc.le⟩

private theorem inUnits_low_le (hc : 0 < c) :
    c * candle.low ≤ c * candle.openPrice ∧ c * candle.low ≤ c * candle.close :=
  ⟨mul_le_mul_of_nonneg_left candle.low_le.1 hc.le, mul_le_mul_of_nonneg_left candle.low_le.2 hc.le⟩

private theorem inUnits_volume_nonneg (hd : 0 < d) : 0 ≤ d * candle.volume :=
  mul_nonneg hd.le candle.volume_nonneg

/-- The candle with its prices multiplied by `c` and its volume by `d`. -/
def inUnits (c d : ℚ) (hc : 0 < c) (hd : 0 < d) : OHLCVCandle where
  symbol := candle.symbol
  timeframe := candle.timeframe
  timestamp := candle.timestamp
  openPrice := c * candle.openPrice
  high := c * candle.high
  low := c * candle.low
  close := c * candle.close
  volume := d * candle.volume
  low_le_high := candle.inUnits_low_le_high hc
  high_ge := candle.inUnits_high_ge hc
  low_le := candle.inUnits_low_le hc
  volume_nonneg := candle.inUnits_volume_nonneg hd

end OHLCVCandle

namespace CandleBuffer

variable (b : CandleBuffer) (c d : ℚ) (hc : 0 < c) (hd : 0 < d)

private theorem inUnits_sorted :
    (b.candles.map fun candle => candle.inUnits c d hc hd).Pairwise fun x y => x.timestamp < y.timestamp :=
  List.pairwise_map.2 b.sorted

private theorem inUnits_length_le : (b.candles.map fun candle => candle.inUnits c d hc hd).length ≤ b.capacity :=
  (List.length_map _).trans_le b.length_le

/-- The buffer with all its candles in the other units. -/
def inUnits : CandleBuffer where
  symbol := b.symbol
  timeframe := b.timeframe
  capacity := b.capacity
  candles := b.candles.map fun candle => candle.inUnits c d hc hd
  sorted := b.inUnits_sorted c d hc hd
  length_le := b.inUnits_length_le c d hc hd

@[simp] theorem size_inUnits : (b.inUnits c d hc hd).size = b.size := List.length_map _

@[simp] theorem isWarm_inUnits : (b.inUnits c d hc hd).isWarm = b.isWarm := by
  rw [isWarm, size_inUnits, isWarm]

variable {F : Type} [Field F] [CharZero F]

theorem closes_inUnits : ((b.inUnits c d hc hd).closes : List F) = scaled (c : F) b.closes := by
  rw [closes, closes, inUnits, scaled, List.map_map, List.map_map]
  exact List.map_congr_left fun candle _ => Rat.cast_mul c candle.close

theorem volumes_inUnits : ((b.inUnits c d hc hd).volumes : List F) = scaled (d : F) b.volumes := by
  rw [volumes, volumes, inUnits, scaled, List.map_map, List.map_map]
  exact List.map_congr_left fun candle _ => Rat.cast_mul d candle.volume

end CandleBuffer

/-! ### Averages and series -/

section Series

variable {F : Type} [Field F] (c : F)

theorem mean_scaled (l : List F) : mean (scaled c l) = c * mean l := by
  rw [mean, sum_scaled, length_scaled, mul_div_assoc, ← mean]

theorem variance_scaled (l : List F) : variance (scaled c l) = c ^ 2 * variance l := by
  have hsquares : ((scaled c l).map fun x => (x - mean (scaled c l)) ^ 2) =
      scaled (c ^ 2) (l.map fun x => (x - mean l) ^ 2) := by
    rw [mean_scaled, scaled, scaled, List.map_map, List.map_map]
    refine List.map_congr_left fun x _ => ?_
    show (c * x - c * mean l) ^ 2 = c ^ 2 * (x - mean l) ^ 2
    ring
  rw [variance, hsquares, sum_scaled, length_scaled, mul_div_assoc, variance]

theorem wilder_scaled (period : ℕ) (avg x : F) : wilder period (c * avg) (c * x) = c * wilder period avg x := by
  rw [wilder, wilder]
  ring

/-- An exponential average of a mapped series, for a map that commutes with one step. -/
theorem emaFrom_map {G : Type} [Field G] {f : F → G} {alpha : F} {beta : G}
    (hstep : ∀ x p, f (x * alpha + p * (1 - alpha)) = f x * beta + f p * (1 - beta)) (prev : Option F)
    (s : Series F) : emaFrom beta (prev.map f) (s.map (Option.map f)) = (emaFrom alpha prev s).map (Option.map f) := by
  induction s generalizing prev with
  | nil => rfl
  | cons x s ih =>
    have hnext : ((x.map f).bind fun x => (prev.map f).map fun p => x * beta + p * (1 - beta)) =
        (x.bind fun x => prev.map fun p => x * alpha + p * (1 - alpha)).map f := by
      cases x with
      | none => rfl
      | some x =>
        cases prev with
        | none => rfl
        | some p => exact congrArg some (hstep x p).symm
    have htail := ih (x.bind fun x => prev.map fun p => x * alpha + p * (1 - alpha))
    simp only [List.map_cons, emaFrom] at htail ⊢
    rw [hnext, htail]

theorem emaFrom_scaled (alpha : F) (prev : Option F) (s : Series F) :
    emaFrom alpha (prev.map fun x => c * x) (scaledSeries c s) = scaledSeries c (emaFrom alpha prev s) :=
  emaFrom_map (fun x p => by ring) prev s

theorem seriesSub_map {G : Type} [Field G] {f : F → G} (hsub : ∀ x y, f (x - y) = f x - f y) (a b : Series F) :
    seriesSub (a.map (Option.map f)) (b.map (Option.map f)) = (seriesSub a b).map (Option.map f) := by
  rw [seriesSub, List.zipWith_map, seriesSub, List.map_zipWith]
  congr 1
  funext x y
  cases x with
  | none => rfl
  | some x =>
    cases y with
    | none => rfl
    | some y => exact congrArg some (hsub x y).symm

theorem seriesSub_scaled (a b : Series F) :
    seriesSub (scaledSeries c a) (scaledSeries c b) = scaledSeries c (seriesSub a b) :=
  seriesSub_map (mul_sub c) a b

/-- A series with a value for every full window, when the values come in the unit. -/
theorem windows_scaled (value : List F → F) (hvalue : ∀ window, value (scaled c window) = c * value window)
    (closes : List F) (period : ℕ) :
    ((List.range (scaled c closes).length).map fun i =>
      if i + 1 < period then none else some (value (((scaled c closes).drop (i + 1 - period)).take period))) =
    scaledSeries c ((List.range closes.length).map fun i =>
      if i + 1 < period then none else some (value ((closes.drop (i + 1 - period)).take period))) := by
  rw [length_scaled, scaledSeries, List.map_map]
  refine List.map_congr_left fun i _ => ?_
  rw [Function.comp_apply, drop_scaled, take_scaled, hvalue]
  split
  · rfl
  · rfl

/-- The bands around the mean come in the unit, since a root of the squared unit is the unit. -/
theorem band_scaled {c : F} {sqrt : F → F} (hsqrt : ∀ x, sqrt (c ^ 2 * x) = c * sqrt x) (offset : F)
    (window : List F) :
    mean (scaled c window) + offset * sqrt (variance (scaled c window)) =
      c * (mean window + offset * sqrt (variance window)) := by
  rw [mean_scaled, variance_scaled, hsqrt]
  ring

variable {c} [LinearOrder F] [IsStrictOrderedRing F]

theorem trueRanges_scaled (hc : 0 < c) (highs lows closes : List F) :
    trueRanges (scaled c highs) (scaled c lows) (scaled c closes) = scaled c (trueRanges highs lows closes) := by
  rw [trueRanges, tail_scaled, tail_scaled, scaled, scaled, scaled, List.zip_map, List.zipWith_map, scaled, trueRanges,
    List.map_zipWith]
  congr 1
  funext hl previous
  show max (c * hl.1 - c * hl.2) (max |c * hl.1 - c * previous| |c * hl.2 - c * previous|) = _
  rw [← mul_sub, ← mul_sub, ← mul_sub, abs_scaled hc, abs_scaled hc, max_scaled hc, max_scaled hc]

end Series

end MultiAgentTrading
