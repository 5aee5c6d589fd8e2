import MultiAgentTrading.TechnicalAnalysis.PriceUnit
import Mathlib.Algebra.Module.Rat
import Mathlib.Data.List.ReduceOption

/-!
# Signals and the unit of prices

The numpy indicators are homogeneous in the prices, so that the strength index, the position between the bands and the
spread of the averages have no unit and give the same signals in every unit.  Only the MACD signal compares a price
with a constant, the band around zero in which the histogram counts as flat: it is the same in another unit if the
histogram stays on its side of the band (`signals_unit_free`), and need not be if it does not
(`cheap_market_reads_weaker`).
-/

namespace MultiAgentTrading

open Scaling

/-! ### Averages under an additive map

An additive map between fields is linear over the rationals, and so are the averages and the MACD.  A change of unit
is such a map, and so is the embedding of the rationals.
-/

section Additive

variable {F G : Type} [Field F] [Field G] (f : F →+ G)

theorem mean_map (l : List F) : mean (l.map f) = f (mean l) := by
  have hdiv := map_inv_natCast_smul f F G l.length l.sum
  rw [smul_eq_mul, smul_eq_mul, mul_comm, mul_comm _ (f l.sum), ← div_eq_mul_inv, ← div_eq_mul_inv] at hdiv
  rw [mean, mean, hdiv, map_list_sum, List.length_map]

theorem map_mul_ratCast (x : F) (q : ℚ) : f (x * (q : F)) = f x * (q : G) := by
  have hsmul := map_ratCast_smul f F G q x
  rwa [smul_eq_mul, smul_eq_mul, mul_comm, mul_comm _ (f x)] at hsmul

variable [CharZero F] [CharZero G]

theorem emaNumpy_map (data : Series F) (period : ℕ) :
    emaNumpy (data.map (Option.map f)) period = (emaNumpy data period).map (Option.map f) := by
  have hstep : ∀ x p : F, f (x * ((2 : ℚ) / (period + 1)) + p * (1 - (2 : ℚ) / (period + 1))) =
      f x * ((2 : ℚ) / (period + 1)) + f p * (1 - (2 : ℚ) / (period + 1)) := by
    intro x p
    have halpha := map_mul_ratCast f x (2 / (period + 1))
    have hrest := map_mul_ratCast f p (1 - 2 / (period + 1))
    push_cast at halpha hrest ⊢
    rw [map_add, halpha, hrest]
  have hmean : ∀ s : Series F, mean ((s.map (Option.map f)).filterMap id) = f (mean (s.filterMap id)) := by
    intro s
    rw [← mean_map, List.filterMap_map, List.map_filterMap]
    rfl
  unfold emaNumpy
  rw [valid_map]
  dsimp only
  cases ((List.range data.length).filter fun i => ((data[i]?).bind id).isSome)[period - 1]? with
  | none => simp
  | some start =>
    cases ((List.range data.length).filter fun i => ((data[i]?).bind id).isSome)[0]? with
    | none => simp
    | some firstValid =>
      simp only [← List.map_drop, ← List.map_take, List.length_map, hmean]
      rw [← Option.map_some (f := f), emaFrom_map hstep]
      simp

theorem macdNumpy_map (closes : List F) (fast slow signal : ℕ) :
    macdNumpy (closes.map f) fast slow signal =
      ((macdNumpy closes fast slow signal).1.map (Option.map f),
        (macdNumpy closes fast slow signal).2.1.map (Option.map f),
        (macdNumpy closes fast slow signal).2.2.map (Option.map f)) := by
  have hsome : (closes.map f).map some = (closes.map some).map (Option.map f) := by
    rw [List.map_map, List.map_map]
    rfl
  simp only [macdNumpy, hsome, emaNumpy_map, seriesSub_map (map_sub f)]

end Additive

/-! ### The fallbacks in another unit -/

section Numpy

variable {F : Type} [Field F]

theorem bbandsNumpy_scaled {c : F} {sqrt : F → F} (hsqrt : ∀ x, sqrt (c ^ 2 * x) = c * sqrt x) (closes : List F)
    (period : ℕ) (stdDev : F) :
    bbandsNumpy sqrt (scaled c closes) period stdDev =
      (scaledSeries c (bbandsNumpy sqrt closes period stdDev).1,
        scaledSeries c (bbandsNumpy sqrt closes period stdDev).2.1,
        scaledSeries c (bbandsNumpy sqrt closes period stdDev).2.2) := by
  have hband := fun offset => windows_scaled c (fun window => mean window + offset * sqrt (variance window))
    (band_scaled hsqrt offset) closes period
  exact Prod.ext (hband stdDev) (Prod.ext (hband 0) (hband (-stdDev)))

variable [LinearOrder F] [IsStrictOrderedRing F] {c : F}

private theorem rsiFrom_scaled (hc : 0 < c) (period : ℕ) (avgGain avgLoss : F) (moves : List (F × F)) :
    rsiFrom period (c * avgGain) (c * avgLoss) (moves.map fun m => (c * m.1, c * m.2)) =
      rsiFrom period avgGain avgLoss moves := by
  induction moves generalizing avgGain avgLoss with
  | nil => rfl
  | cons m moves ih =>
    rw [List.map_cons, rsiFrom, rsiFrom]
    simp only [wilder_scaled, ih, pos_scaled_iff hc, mul_div_mul_left _ _ hc.ne']

theorem rsiNumpy_scaled (hc : 0 < c) (closes : List F) (period : ℕ) :
    rsiNumpy (scaled c closes) period = rsiNumpy closes period := by
  have hdeltas : List.zipWith (fun later earlier => later - earlier) (scaled c closes).tail (scaled c closes) =
      scaled c (List.zipWith (fun later earlier => later - earlier) closes.tail closes) := by
    rw [tail_scaled, scaled, scaled, List.zipWith_map, scaled, List.map_zipWith]
    congr 1
    funext later earlier
    exact (mul_sub c later earlier).symm
  have hgains : ∀ deltas : List F, (scaled c deltas).map (fun d => if 0 < d then d else 0) =
      scaled c (deltas.map fun d => if 0 < d then d else 0) := by
    intro deltas
    rw [scaled, scaled, List.map_map, List.map_map]
    refine List.map_congr_left fun d _ => ?_
    simp only [Function.comp_apply, pos_scaled_iff hc, mul_ite, mul_zero]
  have hlosses : ∀ deltas : List F, (scaled c deltas).map (fun d => if d < 0 then -d else 0) =
      scaled c (deltas.map fun d => if d < 0 then -d else 0) := by
    intro deltas
    rw [scaled, scaled, List.map_map, List.map_map]
    refine List.map_congr_left fun d _ => ?_
    simp only [Function.comp_apply, neg_scaled_iff hc, mul_ite, mul_zero, mul_neg]
  have hzip : ∀ gains losses : List F, (scaled c gains).zip (scaled c losses) =
      (gains.zip losses).map fun m => (c * m.1, c * m.2) := fun gains losses => List.zip_map ..
  simp only [rsiNumpy, hdeltas, hgains, hlosses, length_scaled, take_scaled, mean_scaled, hzip, ← List.map_drop,
    rsiFrom_scaled hc]

end Numpy

/-! ### The signals -/

section Signals

theorem fromEnd_map {α β : Type} (f : α → β) (l : List α) (k : ℕ) : fromEnd (l.map f) k = (fromEnd l k).map f := by
  rw [fromEnd, ← List.map_reverse, List.getElem?_map, fromEnd]

variable {F G : Type} [LinearOrder F] [LinearOrder G]

theorem gtNan_map {f : F → G} (hf : StrictMono f) (x : F) (o : Option F) : gtNan (f x) (o.map f) = gtNan x o := by
  cases o with
  | none => rfl
  | some y => simp only [Option.map_some, gtNan, hf.lt_iff_lt]

variable [Field F] [IsStrictOrderedRing F] [Field G] [IsStrictOrderedRing G] (cfg : TechnicalAnalysisSettings)

theorem abs_map {f : F →+ G} (hf : StrictMono f) (x : F) : |f x| = f |x| := by
  rcases le_total 0 x with h | h
  · have hx : 0 ≤ f x := by rw [← map_zero f]; exact hf.monotone h
    rw [abs_of_nonneg h, abs_of_nonneg hx]
  · have hx : f x ≤ 0 := by rw [← map_zero f]; exact hf.monotone h
    rw [abs_of_nonpos h, abs_of_nonpos hx, map_neg]

/-- The MACD signal compares the lines with each other, and the histogram with zero, its last value and the band. -/
theorem macdSignal_map {f : F →+ G} (hf : StrictMono f) {hist : F}
    (hband : |f hist| < histZeroBand ↔ |hist| < histZeroBand) (macd signal : F) (prevHist : Option F) :
    macdSignal (f macd) (f signal) (f hist) (prevHist.map f) = macdSignal macd signal hist prevHist := by
  have hpos : 0 < f hist ↔ 0 < hist := by rw [← map_zero f, hf.lt_iff_lt]
  have hthreshold : (prevHist.map f).map (fun p : G => |p| * (3 / 2 : ℚ)) =
      (prevHist.map fun p : F => |p| * (3 / 2 : ℚ)).map f := by
    rw [Option.map_map, Option.map_map]
    refine congrArg (fun g => prevHist.map g) (funext fun p => ?_)
    rw [Function.comp_apply, Function.comp_apply, abs_map hf, map_mul_ratCast]
  rw [abs_map hf] at hband
  simp only [macdSignal, hband, hf.lt_iff_lt, hthreshold, gtNan_map hf, hpos, abs_map hf]

theorem computeMacd_map {f : F →+ G} (hf : StrictMono f) (closes : List F)
    (hband : ∀ r, computeMacd none cfg closes = some r →
      (|f r.histogram| < histZeroBand ↔ |r.histogram| < histZeroBand)) :
    (computeMacd none cfg (closes.map f)).map (fun r => (r.histogram, r.signal)) =
      (computeMacd none cfg closes).map fun r => (f r.histogram, r.signal) := by
  have hcurrent : ∀ s : Series F, (fromEnd (s.map (Option.map f)) 0).bind id = ((fromEnd s 0).bind id).map f := by
    intro s
    rw [fromEnd_map]
    cases fromEnd s 0 with
    | none => rfl
    | some x => rfl
  have hprev : ∀ s : Series F, (fromEnd (s.map (Option.map f)) 1).getD (some 0) =
      ((fromEnd s 1).getD (some 0)).map f := by
    intro s
    rw [fromEnd_map]
    cases fromEnd s 1 with
    | none => exact congrArg some (map_zero f).symm
    | some x => rfl
  unfold computeMacd at hband ⊢
  simp only [validateLength, List.length_map, viaTalib, macdNumpy_map, Option.bind_eq_bind, Option.bind_some, hcurrent,
    hprev] at hband ⊢
  generalize (if cfg.macdSlow + cfg.macdSignal + 1 ≤ closes.length then some () else none) = valid at hband ⊢
  generalize macdNumpy closes cfg.macdFast cfg.macdSlow cfg.macdSignal = series at hband ⊢
  generalize (fromEnd series.1 0).bind id = macd, (fromEnd series.2.1 0).bind id = signal,
    (fromEnd series.2.2 0).bind id = hist at hband ⊢
  rcases valid with _ | _
  · rfl
  rcases macd with _ | macd
  · rfl
  rcases signal with _ | signal
  · rfl
  rcases hist with _ | hist
  · rfl
  exact congrArg some (Prod.ext rfl (macdSignal_map hf (hband _ rfl) macd signal _))

theorem computeRsi_scaled {c : F} (hc : 0 < c) (closes : List F) :
    computeRsi none cfg (scaled c closes) = computeRsi none cfg closes := by
  simp only [computeRsi, validateLength, length_scaled, viaTalib, rsiNumpy_scaled hc]

/-- The histogram stays on its side of the band around zero when the prices are multiplied by `c`. -/
def KeepsHistBand (closes : List F) (c : F) : Prop :=
  ∀ r, computeMacd none cfg closes = some r → (c * |r.histogram| < histZeroBand ↔ |r.histogram| < histZeroBand)

theorem computeMacd_scaled {c : F} (hc : 0 < c) {closes : List F} (hband : KeepsHistBand cfg closes c) :
    (computeMacd none cfg (scaled c closes)).map (fun r => r.signal) =
      (computeMacd none cfg closes).map fun r => r.signal := by
  have hmono : StrictMono (AddMonoidHom.mulLeft c) := fun x y h => (lt_scaled_iff hc x y).2 h
  have hpairs := computeMacd_map cfg hmono closes fun r hr => by
    rw [AddMonoidHom.coe_mulLeft, abs_scaled hc]
    exact hband r hr
  have hsignals := congrArg (Option.map Prod.snd) hpairs
  rwa [Option.map_map, Option.map_map] at hsignals

/-- The place of the price between the bands is a ratio of differences of prices. -/
theorem computeBollingerBands_scaled {c : F} (hc : 0 < c) {sqrt : F → F} (hsqrt : ∀ x, sqrt (c ^ 2 * x) = c * sqrt x)
    (closes : List F) :
    (computeBollingerBands none sqrt cfg (scaled c closes)).map (fun r => r.signal) =
      (computeBollingerBands none sqrt cfg closes).map fun r => r.signal := by
  unfold computeBollingerBands
  simp only [validateLength, length_scaled, viaTalib, bbandsNumpy_scaled hsqrt, Option.bind_eq_bind, Option.bind_some]
  generalize (if cfg.bbPeriod ≤ closes.length then some () else none) = valid
  generalize bbandsNumpy sqrt closes cfg.bbPeriod cfg.bbStdDev = bands
  simp only [scaled, scaledSeries, fromEnd_map]
  generalize fromEnd closes 0 = price, fromEnd bands.1 0 = upper, fromEnd bands.2.1 0 = middle,
    fromEnd bands.2.2 0 = lower
  rcases valid with _ | _
  · rfl
  rcases price with _ | price
  · rfl
  rcases upper with _ | _ | upper
  · rfl
  · rfl
  rcases middle with _ | _
  · rfl
  rcases lower with _ | _ | lower
  · rfl
  · rfl
  refine congrArg some (congrArg bollingerSignal ?_)
  show (if 0 < c * upper - c * lower then (c * price - c * lower) / (c * upper - c * lower) else _) = _
  rw [← mul_sub, ← mul_sub, mul_div_mul_left _ _ hc.ne']
  exact if_congr (pos_scaled_iff hc _) rfl rfl

theorem computeEmaCross_scaled {c : F} (hc : 0 < c) (closes : List F) :
    (computeEmaCross none cfg (scaled c closes)).map (fun r => r.signal) =
      (computeEmaCross none cfg closes).map fun r => r.signal := by
  have hmono : StrictMono fun x => c * x := fun x y h => (lt_scaled_iff hc x y).2 h
  have hema : ∀ period, emaNumpy ((scaled c closes).map some) period =
      (emaNumpy (closes.map some) period).map (Option.map fun x => c * x) := by
    intro period
    have hsome : (scaled c closes).map some = (closes.map some).map (Option.map (AddMonoidHom.mulLeft c)) := by
      rw [scaled, List.map_map, List.map_map]
      rfl
    rw [hsome, emaNumpy_map]
    rfl
  unfold computeEmaCross
  simp only [validateLength, length_scaled, viaTalib, Option.bind_eq_bind, Option.bind_some, hema, fromEnd_map]
  generalize (if cfg.emaLong + 1 ≤ closes.length then some () else none) = valid
  generalize emaNumpy (closes.map some) cfg.emaShort = short, emaNumpy (closes.map some) cfg.emaLong = long
  generalize fromEnd short 0 = currentShort, fromEnd long 0 = currentLong, fromEnd short 1 = prevShort,
    fromEnd long 1 = prevLong
  rcases valid with _ | _
  · rfl
  rcases currentShort with _ | _ | currentShort
  · rfl
  · rfl
  rcases currentLong with _ | _ | currentLong
  · rfl
  · rfl
  rcases prevShort with _ | prevShort
  · rfl
  rcases prevLong with _ | prevLong
  · rfl
  have hspread : (if 0 < c * currentLong then (c * currentShort - c * currentLong) / (c * currentLong) * (100 : ℚ)
      else 0) = if 0 < currentLong then (currentShort - currentLong) / currentLong * ((100 : ℚ) : F) else 0 := by
    rw [← mul_sub, mul_div_mul_left _ _ hc.ne']
    exact if_congr (pos_scaled_iff hc _) rfl rfl
  have hwas : ((prevShort.map fun x => c * x).map fun s => gtNan s (prevLong.map fun x => c * x)) =
      prevShort.map fun s => gtNan s prevLong := by
    rw [Option.map_map]
    exact congrArg (fun g => prevShort.map g) (funext fun s => gtNan_map hmono s prevLong)
  simp only [Option.bind_some, Option.map_some, id_eq, hspread, hwas, lt_scaled_iff hc]
  rfl

/-- The volume ratio has no unit. -/
theorem computeVolumeSignal_scaled {d : F} (hd : 0 < d) (volumes : List F) :
    (computeVolumeSignal (scaled d volumes)).map (fun r => r.volumeRatio) =
      (computeVolumeSignal volumes).map fun r => r.volumeRatio := by
  have havg : mean ((scaled d volumes).drop (volumes.length - 20)).dropLast =
      d * mean (volumes.drop (volumes.length - 20)).dropLast := by
    rw [← mean_scaled, drop_scaled, scaled, ← List.map_dropLast]
    rfl
  unfold computeVolumeSignal
  simp only [validateLength, length_scaled, havg, Option.bind_eq_bind]
  generalize (if 20 ≤ volumes.length then some () else none) = valid
  simp only [scaled, fromEnd_map]
  generalize fromEnd volumes 0 = last
  rcases valid with _ | _
  · rfl
  rcases last with _ | current
  · rfl
  refine congrArg some ?_
  show (if 0 < d * mean (volumes.drop (volumes.length - 20)).dropLast then
    d * current / (d * mean (volumes.drop (volumes.length - 20)).dropLast) else 1) = _
  rw [mul_div_mul_left _ _ hd.ne']
  exact if_congr (pos_scaled_iff hd _) rfl rfl

end Signals

namespace SignalGenerator

/-! ### The score and the confidence -/

section Votes

variable {F : Type} [Field F] [LinearOrder F]

/-- What a reading puts into the score: its signal and its weight. -/
def vote (r : IndicatorReading F) : SignalDirection × F := (r.signal, r.weight)

/-- The weighted mean of the votes. -/
def voteScore (votes : List (SignalDirection × F)) : F :=
  if 0 < (votes.map fun v => v.2).sum then
    (votes.map fun v => directionToScalar v.1 * v.2).sum / (votes.map fun v => v.2).sum
  else 0

end Votes

section Generator

variable {F : Type} [Field F] [LinearOrder F] {readings readings' : List (IndicatorReading F)}

theorem compositeScore_eq_voteScore (readings : List (IndicatorReading F)) :
    compositeScore readings = voteScore (readings.map vote) := by
  rw [voteScore, List.map_map, List.map_map]
  rfl

theorem compositeScore_congr (h : readings'.map vote = readings.map vote) :
    compositeScore readings' = compositeScore readings := by
  rw [compositeScore_eq_voteScore, compositeScore_eq_voteScore, h]

theorem confidenceOf_congr (sqrt : F → F) (h : readings'.map vote = readings.map vote)
    {volume volume' : Option (VolumeResult F)}
    (hvolume : volume'.map (fun v => v.volumeRatio) = volume.map fun v => v.volumeRatio) :
    confidenceOf sqrt readings' volume' = confidenceOf sqrt readings volume := by
  have hagreement : agreementOf sqrt readings' = agreementOf sqrt readings := by
    have hscalars : ∀ rs : List (IndicatorReading F), (rs.map fun r => (directionToScalar r.signal : F)) =
        (rs.map vote).map fun v => directionToScalar v.1 := by
      intro rs
      rw [List.map_map]
      rfl
    rw [agreementOf, agreementOf, hscalars, hscalars, h]
  unfold confidenceOf
  rw [hagreement, compositeScore_congr h]
  cases volume with
  | none => rw [Option.map_eq_none_iff.1 hvolume]
  | some v =>
    obtain ⟨v', rfl, hratio⟩ := Option.map_eq_some_iff.1 hvolume
    simp only [hratio]

variable [IsStrictOrderedRing F] (sqrt : F → F) (cfg : TechnicalAnalysisSettings)

/-- The signals of the four primary indicators, each under the weight of the indicator. -/
theorem vote_primaryReadings (closes : List F) :
    (primaryReadings none sqrt cfg closes).map vote =
      [((computeRsi none cfg closes).map fun r => r.signal).map fun s => (s, (indicatorWeight .rsi : F)),
        ((computeMacd none cfg closes).map fun r => r.signal).map fun s => (s, (indicatorWeight .macd : F)),
        ((computeBollingerBands none sqrt cfg closes).map fun r => r.signal).map fun s =>
          (s, (indicatorWeight .bollingerBands : F)),
        ((computeEmaCross none cfg closes).map fun r => r.signal).map fun s =>
          (s, (indicatorWeight .emaCross : F))].reduceOption := by
  rw [primaryReadings, ← List.reduceOption_map]
  simp only [List.map_cons, List.map_nil, Option.map_map]
  rfl

theorem vote_primaryReadings_congr {closes closes' : List F}
    (hrsi : (computeRsi none cfg closes').map (fun r => r.signal) = (computeRsi none cfg closes).map fun r => r.signal)
    (hmacd : (computeMacd none cfg closes').map (fun r => r.signal) =
      (computeMacd none cfg closes).map fun r => r.signal)
    (hbb : (computeBollingerBands none sqrt cfg closes').map (fun r => r.signal) =
      (computeBollingerBands none sqrt cfg closes).map fun r => r.signal)
    (hema : (computeEmaCross none cfg closes').map (fun r => r.signal) =
      (computeEmaCross none cfg closes).map fun r => r.signal) :
    (primaryReadings none sqrt cfg closes').map vote = (primaryReadings none sqrt cfg closes).map vote := by
  rw [vote_primaryReadings, vote_primaryReadings, hrsi, hmacd, hbb, hema]

theorem vote_primaryReadings_scaled {c : F} (hc : 0 < c) {sqrt : F → F} (hsqrt : ∀ x, sqrt (c ^ 2 * x) = c * sqrt x)
    {closes : List F} (hband : KeepsHistBand cfg closes c) :
    (primaryReadings none sqrt cfg (scaled c closes)).map vote = (primaryReadings none sqrt cfg closes).map vote :=
  vote_primaryReadings_congr sqrt cfg (congrArg _ (computeRsi_scaled cfg hc closes)) (computeMacd_scaled cfg hc hband)
    (computeBollingerBands_scaled cfg hc hsqrt closes) (computeEmaCross_scaled cfg hc closes)

variable [FloorRing F]

/-- The direction and the confidence of a signal are those of the readings and the volume. -/
theorem generate_direction_confidence {b : CandleBuffer} {signalId : ℕ} {expiryTime stampTime : ℚ}
    {signal : TechnicalSignal F} (h : generate none sqrt cfg b signalId expiryTime stampTime = some signal) :
    signal.direction = scalarToDirection (compositeScore (primaryReadings none sqrt cfg b.closes)) ∧
      signal.confidence = Rounding.roundTo 4
        (confidenceOf sqrt (primaryReadings none sqrt cfg b.closes) (computeVolumeSignal b.volumes)) := by
  unfold generate at h
  simp only [Option.bind_eq_bind, Option.bind_eq_some_iff, Option.guard_eq_some'] at h
  obtain ⟨_, _, _, _, _, _, _, _, h⟩ := h
  split at h
  case isFalse => cases h
  case isTrue =>
    cases h
    exact ⟨rfl, rfl⟩

/-- Two buffers with the same votes and the same confidence give the same signal, or both give none. -/
theorem generate_congr (hsqrt : ∀ x, 0 ≤ sqrt x) {b b' : CandleBuffer} (hwarm : b'.isWarm = b.isWarm)
    (hvotes : (primaryReadings none sqrt cfg b'.closes).map vote = (primaryReadings none sqrt cfg b.closes).map vote)
    (hconfidence : confidenceOf sqrt (primaryReadings none sqrt cfg b'.closes) (computeVolumeSignal b'.volumes) =
      confidenceOf sqrt (primaryReadings none sqrt cfg b.closes) (computeVolumeSignal b.volumes))
    (signalId : ℕ) (expiryTime stampTime : ℚ) :
    (generate none sqrt cfg b' signalId expiryTime stampTime).map (fun s => (s.direction, s.confidence)) =
      (generate none sqrt cfg b signalId expiryTime stampTime).map fun s => (s.direction, s.confidence) := by
  have hlength : (primaryReadings none sqrt cfg b'.closes).length =
      (primaryReadings none sqrt cfg b.closes).length := by
    rw [← List.length_map (f := vote), hvotes, List.length_map]
  have hisSome : (generate none sqrt cfg b' signalId expiryTime stampTime).isSome = true ↔
      (generate none sqrt cfg b signalId expiryTime stampTime).isSome = true := by
    rw [generate_isSome_iff none sqrt cfg hsqrt, generate_isSome_iff none sqrt cfg hsqrt, hwarm, hlength, hconfidence]
  cases hs' : generate none sqrt cfg b' signalId expiryTime stampTime with
  | none =>
    rw [hs'] at hisSome
    rw [Option.not_isSome_iff_eq_none.1 fun h => Bool.false_ne_true (hisSome.2 h)]
  | some s' =>
    rw [hs'] at hisSome
    obtain ⟨s, hs⟩ := Option.isSome_iff_exists.1 (hisSome.1 rfl)
    obtain ⟨hdirection', hconf'⟩ := generate_direction_confidence sqrt cfg hs'
    obtain ⟨hdirection, hconf⟩ := generate_direction_confidence sqrt cfg hs
    rw [hs, Option.map_some, Option.map_some, hdirection', hdirection, hconf', hconf, hconfidence,
      compositeScore_congr hvotes]

end Generator

/-! ### Real numbers -/

/-- With the fallback indicators over the reals, the strength index, the bands and the averages give the same signals
when all prices are multiplied by one positive constant.  If the histogram of the MACD stays on its side of the band
around zero, so does the MACD, and the score, the direction and the confidence are the same, in whatever unit the
volumes are. -/
theorem signals_unit_free (cfg : TechnicalAnalysisSettings) :
    (∀ (closes : List ℝ) (c : ℝ), 0 < c →
      (computeRsi none cfg (scaled c closes)).map (fun r => r.signal) =
          (computeRsi none cfg closes).map (fun r => r.signal) ∧
        (computeBollingerBands none Real.sqrt cfg (scaled c closes)).map (fun r => r.signal) =
          (computeBollingerBands none Real.sqrt cfg closes).map (fun r => r.signal) ∧
        (computeEmaCross none cfg (scaled c closes)).map (fun r => r.signal) =
          (computeEmaCross none cfg closes).map (fun r => r.signal) ∧
        (KeepsHistBand cfg closes c →
          (computeMacd none cfg (scaled c closes)).map (fun r => r.signal) =
              (computeMacd none cfg closes).map (fun r => r.signal) ∧
            compositeScore (primaryReadings none Real.sqrt cfg (scaled c closes)) =
              compositeScore (primaryReadings none Real.sqrt cfg closes) ∧
            ∀ volume : Option (VolumeResult ℝ),
              confidenceOf Real.sqrt (primaryReadings none Real.sqrt cfg (scaled c closes)) volume =
                confidenceOf Real.sqrt (primaryReadings none Real.sqrt cfg closes) volume)) ∧
    ∀ (b : CandleBuffer) (c d : ℚ) (hc : 0 < c) (hd : 0 < d), KeepsHistBand cfg (b.closes : List ℝ) c →
      compositeScore (primaryReadings none Real.sqrt cfg (b.inUnits c d hc hd).closes) =
          compositeScore (primaryReadings none Real.sqrt cfg b.closes) ∧
        confidenceOf Real.sqrt (primaryReadings none Real.sqrt cfg (b.inUnits c d hc hd).closes)
            (computeVolumeSignal (b.inUnits c d hc hd).volumes) =
          confidenceOf Real.sqrt (primaryReadings none Real.sqrt cfg b.closes) (computeVolumeSignal b.volumes) ∧
        ∀ (signalId : ℕ) (expiryTime stampTime : ℚ),
          (generate none Real.sqrt cfg (b.inUnits c d hc hd) signalId expiryTime stampTime).map
              (fun s => (s.direction, s.confidence)) =
            (generate none Real.sqrt cfg b signalId expiryTime stampTime).map fun s => (s.direction, s.confidence) := by
  constructor
  · intro closes c hc
    refine ⟨by rw [computeRsi_scaled cfg hc], computeBollingerBands_scaled cfg hc (sqrt_scaled hc) closes,
      computeEmaCross_scaled cfg hc closes, fun hband => ?_⟩
    have hvotes := vote_primaryReadings_scaled cfg hc (sqrt_scaled hc) hband
    exact ⟨computeMacd_scaled cfg hc hband, compositeScore_congr hvotes,
      fun volume => confidenceOf_congr Real.sqrt hvotes rfl⟩
  · intro b c d hc hd hband
    have hc' : (0 : ℝ) < c := by exact_mod_cast hc
    have hd' : (0 : ℝ) < d := by exact_mod_cast hd
    have hvotes : (primaryReadings none Real.sqrt cfg (b.inUnits c d hc hd).closes).map vote =
        (primaryReadings none Real.sqrt cfg b.closes).map vote := by
      rw [CandleBuffer.closes_inUnits]
      exact vote_primaryReadings_scaled cfg hc' (sqrt_scaled hc') hband
    have hvolume : (computeVolumeSignal ((b.inUnits c d hc hd).volumes : List ℝ)).map (fun v => v.volumeRatio) =
        (computeVolumeSignal b.volumes).map fun v => v.volumeRatio := by
      rw [CandleBuffer.volumes_inUnits]
      exact computeVolumeSignal_scaled hd' b.volumes
    have hconfidence := confidenceOf_congr Real.sqrt hvotes hvolume
    exact ⟨compositeScore_congr hvotes, hconfidence,
      generate_congr Real.sqrt cfg Real.sqrt_nonneg (b.isWarm_inUnits c d hc hd) hvotes hconfidence⟩

/-! ### The band around zero -/

theorem computeMacd_ratCast (cfg : TechnicalAnalysisSettings) (closes : List ℚ) :
    (computeMacd none cfg (closes.map fun x : ℚ => (x : ℝ))).map (fun r => (r.histogram, r.signal)) =
      (computeMacd none cfg closes).map fun r => ((r.histogram : ℝ), r.signal) := by
  have hmono : StrictMono (Rat.castHom ℝ).toAddMonoidHom := Rat.cast_strictMono
  refine computeMacd_map cfg hmono closes fun r _ => ?_
  show |(r.histogram : ℝ)| < (histZeroBand : ℝ) ↔ |r.histogram| < _
  rw [Rat.cast_id]
  exact_mod_cast Iff.rfl

/-- The band is rational, so that rational prices are judged as rationals. -/
theorem KeepsHistBand.ratCast {cfg : TechnicalAnalysisSettings} {closes : List ℚ} {c : ℚ}
    (h : KeepsHistBand cfg closes c) : KeepsHistBand cfg (closes.map fun x : ℚ => (x : ℝ)) (c : ℝ) := by
  intro r hr
  have hpair := computeMacd_ratCast cfg closes
  rw [hr, Option.map_some] at hpair
  obtain ⟨r', hr', hpair'⟩ := Option.map_eq_some_iff.1 hpair.symm
  have hhist : r.histogram = (r'.histogram : ℝ) := (congrArg Prod.fst hpair').symm
  have hband := h r' hr'
  rw [Rat.cast_id] at hband
  rw [hhist]
  exact_mod_cast hband

theorem closes_ratCast (b : CandleBuffer) : (b.closes : List ℝ) = (b.closes : List ℚ).map fun x : ℚ => (x : ℝ) := by
  rw [CandleBuffer.closes, CandleBuffer.closes, List.map_map]
  exact List.map_congr_left fun candle _ => congrArg _ (Rat.cast_id candle.close).symm

theorem computeMacd_closes (cfg : TechnicalAnalysisSettings) (b : CandleBuffer) :
    (computeMacd none cfg (b.closes : List ℝ)).map (fun r => r.signal) =
      (computeMacd none cfg (b.closes : List ℚ)).map fun r => r.signal := by
  have hsignals := congrArg (Option.map Prod.snd) (computeMacd_ratCast cfg b.closes)
  rw [closes_ratCast]
  rwa [Option.map_map, Option.map_map] at hsignals

/-- Fifty minutes at one price, the last of which closes at twice the price. -/
def jumpBuffer : CandleBuffer :=
  ((List.range 50).map fun i : ℕ => flatCandle "BTC/USDT" "1m" (60 * i) (if i = 49 then 2 else 1) 1
    unit_volume_nonneg).foldl CandleBuffer.add (.forPair "BTC/USDT" "1m")

theorem signals_unit_free_jump :
    KeepsHistBand defaultSettings.technicalAnalysis (jumpBuffer.closes : List ℝ) ((1000 : ℚ) : ℝ) ∧
      compositeScore (primaryReadings none Real.sqrt defaultSettings.technicalAnalysis
          (jumpBuffer.inUnits 1000 200 thousand_pos two_hundred_pos).closes) =
        compositeScore (primaryReadings none Real.sqrt defaultSettings.technicalAnalysis jumpBuffer.closes) := by
  have hhist : (computeMacd none defaultSettings.technicalAnalysis (jumpBuffer.closes : List ℚ)).map
      (fun r => r.histogram) = some (112 / 1755) := by decide +kernel
  have hband : KeepsHistBand defaultSettings.technicalAnalysis (jumpBuffer.closes : List ℝ) ((1000 : ℚ) : ℝ) := by
    rw [closes_ratCast]
    refine KeepsHistBand.ratCast fun r hr => ?_
    rw [hr] at hhist
    have hr' : r.histogram = 112 / 1755 := Option.some.inj hhist
    rw [hr']
    norm_num [histZeroBand]
  exact ⟨hband, ((signals_unit_free defaultSettings.technicalAnalysis).2 jumpBuffer 1000 200 thousand_pos
    two_hundred_pos hband).1⟩

/-- With one of four votes weakened the score is weaker, whichever of the other three there are. -/
private theorem voteScore_macd_ne (rsi bb ema : Option SignalDirection) :
    voteScore [rsi.map fun s => (s, (indicatorWeight .rsi : ℝ)), some (.buy, (indicatorWeight .macd : ℝ)),
        bb.map fun s => (s, (indicatorWeight .bollingerBands : ℝ)),
        ema.map fun s => (s, (indicatorWeight .emaCross : ℝ))].reduceOption ≠
      voteScore [rsi.map fun s => (s, (indicatorWeight .rsi : ℝ)), some (.strongBuy, (indicatorWeight .macd : ℝ)),
        bb.map fun s => (s, (indicatorWeight .bollingerBands : ℝ)),
        ema.map fun s => (s, (indicatorWeight .emaCross : ℝ))].reduceOption := by
  rcases rsi with _ | rsi <;> rcases bb with _ | bb <;> rcases ema with _ | ema <;>
    norm_num [voteScore, indicatorWeight, directionToScalar]

private theorem tenMillionth_pos : (0 : ℚ) < 1 / 10 ^ 7 := by norm_num

/-- In a unit in which the histogram falls into the band, the same jump is a weaker signal. -/
theorem cheap_market_reads_weaker :
    ¬∀ (b : CandleBuffer) (c : ℚ) (hc : 0 < c), 50 ≤ b.size → (∀ candle ∈ b.candles, 0 < candle.low) →
      compositeScore (primaryReadings none Real.sqrt defaultSettings.technicalAnalysis
          (b.inUnits c 1 hc one_pos).closes) =
        compositeScore (primaryReadings none Real.sqrt defaultSettings.technicalAnalysis b.closes) := by
  intro h
  have hc' : (0 : ℝ) < ((1 / 10 ^ 7 : ℚ) : ℝ) := by exact_mod_cast tenMillionth_pos
  have hsize : 50 ≤ jumpBuffer.size := by decide +kernel
  have hprices : ∀ candle ∈ jumpBuffer.candles, 0 < candle.low :=
    @of_decide_eq_true _ (List.decidableBAll _ jumpBuffer.candles) (by decide +kernel)
  have hstrong : (computeMacd none defaultSettings.technicalAnalysis (jumpBuffer.closes : List ℝ)).map
      (fun r => r.signal) = some .strongBuy := by
    rw [computeMacd_closes]
    decide +kernel
  have hweak : (computeMacd none defaultSettings.technicalAnalysis
      ((jumpBuffer.inUnits (1 / 10 ^ 7) 1 tenMillionth_pos one_pos).closes : List ℝ)).map
      (fun r => r.signal) = some .buy := by
    rw [computeMacd_closes]
    decide +kernel
  have hscores := h jumpBuffer (1 / 10 ^ 7) tenMillionth_pos hsize hprices
  rw [compositeScore_eq_voteScore, compositeScore_eq_voteScore, vote_primaryReadings, vote_primaryReadings, hstrong,
    hweak, CandleBuffer.closes_inUnits, computeRsi_scaled _ hc', computeBollingerBands_scaled _ hc' (sqrt_scaled hc'),
    computeEmaCross_scaled _ hc'] at hscores
  exact voteScore_macd_ne _ _ _ hscores

end SignalGenerator

end MultiAgentTrading
