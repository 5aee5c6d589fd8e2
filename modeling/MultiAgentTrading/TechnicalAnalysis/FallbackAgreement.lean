import MultiAgentTrading.TechnicalAnalysis.FeatureEngineer

/-!
# The fallback indicators and the feature indicators

The numpy fallbacks of the rule-based signals and the indicators of the feature engineer are written apart, with other
length guards and another search for the first valid window.  On series without NaN they are the same functions.  Both
averages of a series that starts with NaN are the average of its values after the same prefix
(`emaNumpy_warmedUp`, `macdSignalLine_warmedUp`), and the MACD line is such a series (`WarmedUp.seriesSub`).
-/

namespace MultiAgentTrading

/-- NaN up to some index, and values from there on. -/
def WarmedUp {F : Type} : Series F → Prop
  | [] => True
  | none :: s => WarmedUp s
  | some _ :: s => ∀ x ∈ s, x.isSome

namespace WarmedUp

variable {F : Type}

private theorem eq_map_some {s : Series F} (h : ∀ x ∈ s, x.isSome) : ∃ values : List F, s = values.map some := by
  refine ⟨s.filterMap id, ?_⟩
  induction s with
  | nil => rfl
  | cons x s ih =>
    obtain ⟨v, rfl⟩ := Option.isSome_iff_exists.1 (h x List.mem_cons_self)
    have htail := ih fun y hy => h y (List.mem_cons_of_mem _ hy)
    exact congrArg (some v :: ·) htail

/-- The prefix and the values. -/
theorem split {s : Series F} (h : WarmedUp s) :
    ∃ (k : ℕ) (values : List F), s = List.replicate k none ++ values.map some := by
  induction s with
  | nil => exact ⟨0, [], rfl⟩
  | cons x s ih =>
    cases x with
    | none =>
      obtain ⟨k, values, rfl⟩ := ih h
      exact ⟨k + 1, values, by rw [List.replicate_succ, List.cons_append]⟩
    | some v =>
      obtain ⟨values, rfl⟩ := eq_map_some h
      exact ⟨0, v :: values, rfl⟩

theorem of_split (k : ℕ) (values : List F) : WarmedUp (List.replicate k none ++ values.map some) := by
  induction k with
  | zero =>
    cases values with
    | nil => trivial
    | cons v values =>
      intro x hx
      obtain ⟨w, -, rfl⟩ := List.mem_map.1 hx
      rfl
  | succ k ih => exact ih

private theorem isSome_seriesSub [Field F] {a b : Series F} (ha : ∀ x ∈ a, x.isSome) (hb : ∀ x ∈ b, x.isSome) :
    ∀ x ∈ seriesSub a b, x.isSome := by
  obtain ⟨xs, rfl⟩ := eq_map_some ha
  obtain ⟨ys, rfl⟩ := eq_map_some hb
  intro z hz
  rw [MultiAgentTrading.seriesSub, List.zipWith_map] at hz
  obtain ⟨n, hn⟩ := List.mem_iff_getElem?.1 hz
  obtain ⟨x, y, -, -, rfl⟩ := List.getElem?_zipWith_eq_some.1 hn
  rfl

/-- The difference of two such series is one. -/
theorem seriesSub [Field F] {a b : Series F} (ha : WarmedUp a) (hb : WarmedUp b) : WarmedUp (seriesSub a b) := by
  induction a generalizing b with
  | nil => trivial
  | cons x a ih =>
    rcases b with _ | ⟨y, b⟩
    · trivial
    have htail : ∀ {z : Option F} {s : Series F}, WarmedUp (z :: s) → WarmedUp s := by
      intro z s h
      cases z with
      | none => exact h
      | some z =>
        obtain ⟨values, rfl⟩ := eq_map_some h
        exact of_split 0 values
    cases x with
    | none => exact ih ha (htail hb)
    | some x =>
      cases y with
      | none => exact ih (htail ha) hb
      | some y => exact isSome_seriesSub ha hb

end WarmedUp

section Averages

variable {F : Type} [Field F]

private theorem cons_emaFrom (alpha seed : F) (values : List F) :
    some seed :: emaFrom alpha (some seed) (values.map some) =
      (values.scanl (fun out v => v * alpha + out * (1 - alpha)) seed).map some := by
  induction values generalizing seed with
  | nil => rfl
  | cons v values ih =>
    rw [List.scanl_cons, List.map_cons (f := some) (a := seed), ← ih]
    rfl

omit [Field F] in
private theorem filterMap_range (values : List F) (n : ℕ) :
    (List.range n).filterMap (fun i => values[i]?) = values.take n := by
  induction n with
  | zero => rfl
  | succ n ih =>
    rw [List.range_succ, List.filterMap_append, ih, List.take_add_one]
    cases h : values[n]? with
    | none => rw [List.filterMap_cons_none h]; rfl
    | some v => rw [List.filterMap_cons_some h]; rfl

/-- Both averages, from the seed on. -/
private theorem average_warmedUp (k : ℕ) {period : ℕ} {values : List F} (hpos : 0 < period)
    (h : period ≤ values.length) :
    List.replicate (k + period - 1) none ++ some (mean (values.take period)) ::
        emaFrom ((2 : ℚ) / (period + 1)) (some (mean (values.take period))) ((values.drop period).map some) =
      List.replicate k none ++ FeatureEngineer.ema values period := by
  have hnone : List.replicate (k + period - 1) (none : Option F) =
      List.replicate k none ++ List.replicate (period - 1) none := by
    rw [List.replicate_append_replicate, Nat.add_sub_assoc hpos]
  rw [cons_emaFrom, hnone, List.append_assoc]
  unfold FeatureEngineer.ema Causal.seeded
  rw [if_neg h.not_gt]

private theorem ema_of_short {k period : ℕ} {values : List F} (h : values.length < period) :
    List.replicate (k + values.length) none = List.replicate k none ++ FeatureEngineer.ema values period := by
  unfold FeatureEngineer.ema
  rw [Causal.seeded_of_short h, List.replicate_append_replicate]

/-- `_ema_numpy` of a series that is NaN up to `k`. -/
theorem emaNumpy_warmedUp (k : ℕ) (values : List F) {period : ℕ} (hpos : 0 < period) :
    emaNumpy (List.replicate k none ++ values.map some) period =
      List.replicate k none ++ FeatureEngineer.ema values period := by
  by_cases h : period ≤ values.length
  · rw [emaNumpy_eq k hpos h]
    exact average_warmedUp k hpos h
  · rw [emaNumpy_of_short k hpos (not_le.1 h)]
    exact ema_of_short (not_le.1 h)

/-- The signal line over a series that is NaN up to `k`. -/
theorem macdSignalLine_warmedUp (k : ℕ) (values : List F) {period : ℕ} (hpos : 0 < period) :
    FeatureEngineer.macdSignalLine (List.replicate k none ++ values.map some) period =
      List.replicate k none ++ FeatureEngineer.ema values period := by
  unfold FeatureEngineer.macdSignalLine
  rw [validIndices_warmedUp]
  by_cases h : period ≤ values.length
  · have hstart : (List.range' k values.length)[period - 1]? = some (k + period - 1) := by
      rw [List.getElem?_range' (by omega), Nat.one_mul, Nat.add_sub_assoc hpos]
    have hvalues : ((List.range' k values.length).take period).filterMap (fun i =>
        ((List.replicate k none ++ values.map some)[i]?).bind id) = values.take period := by
      rw [List.take_range'_of_length_ge h, List.range'_eq_map_range, List.filterMap_map, ← filterMap_range]
      refine List.filterMap_congr fun i _ => ?_
      have hvalue : (List.replicate k none ++ values.map some)[k + i]? = (values.map some)[i]? := by
        rw [List.getElem?_append_right (by rw [List.length_replicate]; omega), List.length_replicate,
          Nat.add_sub_cancel_left]
      rw [Function.comp_apply, hvalue, List.getElem?_map]
      cases values[i]? <;> rfl
    simp only [hstart, hvalues, drop_warmedUp k values hpos]
    exact average_warmedUp k hpos h
  · have hnone : (List.range' k values.length)[period - 1]? = none :=
      List.getElem?_eq_none (by rw [List.length_range']; omega)
    simp only [hnone, List.length_append, List.length_replicate, List.length_map]
    exact ema_of_short (not_le.1 h)

private theorem emaNumpy_map_some (values : List F) {period : ℕ} (hpos : 0 < period) :
    emaNumpy (values.map some) period = FeatureEngineer.ema values period := by
  have h := emaNumpy_warmedUp 0 values hpos
  rwa [List.replicate_zero, List.nil_append, List.nil_append] at h

private theorem ema_warmedUp (values : List F) (period : ℕ) : WarmedUp (FeatureEngineer.ema values period) := by
  unfold FeatureEngineer.ema Causal.seeded
  split
  case isTrue =>
    have h := WarmedUp.of_split (F := F) values.length []
    rwa [List.map_nil, List.append_nil] at h
  case isFalse => exact .of_split _ _

theorem macdNumpy_eq_macd (closes : List F) {fast slow signal : ℕ} (hfast : 0 < fast) (hslow : 0 < slow)
    (hsignal : 0 < signal) : macdNumpy closes fast slow signal = FeatureEngineer.macd closes fast slow signal := by
  have hline : ∀ line : Series F, WarmedUp line →
      emaNumpy line signal = FeatureEngineer.macdSignalLine line signal := by
    intro line h
    obtain ⟨k, values, rfl⟩ := h.split
    rw [emaNumpy_warmedUp k values hsignal, macdSignalLine_warmedUp k values hsignal]
  unfold macdNumpy FeatureEngineer.macd
  dsimp only
  rw [emaNumpy_map_some closes hfast, emaNumpy_map_some closes hslow,
    hline _ ((ema_warmedUp closes fast).seriesSub (ema_warmedUp closes slow))]

theorem bbandsNumpy_eq_bollinger (sqrt : F → F) (closes : List F) (period : ℕ) (stdDev : F) :
    bbandsNumpy sqrt closes period stdDev = FeatureEngineer.bollinger sqrt closes period stdDev := by
  have hmiddle : ∀ window : List F, mean window + 0 * sqrt (variance window) = mean window := by
    intro window
    rw [zero_mul, add_zero]
  have hlower : ∀ window : List F,
      mean window + -stdDev * sqrt (variance window) = mean window - stdDev * sqrt (variance window) := by
    intro window
    rw [neg_mul, ← sub_eq_add_neg]
  simp only [bbandsNumpy, FeatureEngineer.bollinger, hmiddle, hlower]

end Averages

section TrueRange

variable {F : Type} [Field F] [LinearOrder F]

omit [LinearOrder F] in
private theorem cons_atrFrom (period : ℕ) (avg : F) (trs : List F) :
    some avg :: atrFrom period avg trs = (trs.scanl (wilder period) avg).map some := by
  induction trs generalizing avg with
  | nil => rfl
  | cons tr trs ih =>
    rw [List.scanl_cons, List.map_cons, ← ih]
    rfl

theorem atrNumpy_eq_atr {highs lows closes : List F} (hhighs : highs.length = closes.length)
    (hlows : lows.length = closes.length) {period : ℕ} (hpos : 0 < period) :
    atrNumpy highs lows closes period = FeatureEngineer.atr highs lows closes period := by
  have hlength : (trueRanges highs lows closes).length = closes.length - 1 := by
    unfold trueRanges
    rw [List.length_zipWith, List.length_zip, List.length_tail, List.length_tail, hhighs, hlows]
    omega
  unfold atrNumpy FeatureEngineer.atr
  dsimp only
  rw [hlength]
  by_cases h : closes.length < period + 1
  · rw [if_pos h, if_pos (by omega)]
  · have hnone : List.replicate period (none : Option F) = none :: List.replicate (period - 1) none := by
      rw [← List.replicate_succ, Nat.sub_add_cancel hpos]
    rw [if_neg h, if_neg (by omega), cons_atrFrom, hnone, List.cons_append]
    unfold Causal.seeded
    rw [if_neg (by omega)]

/-- The fallbacks and the feature indicators agree at every index, NaN included, for series of any length. -/
theorem fallback_indicators_agree (sqrt : F → F) {highs lows closes : List F} (hhighs : highs.length = closes.length)
    (hlows : lows.length = closes.length) {period fast slow signal : ℕ} (hperiod : 1 ≤ period) (hfast : 1 ≤ fast)
    (hslow : fast ≤ slow) (hsignal : 1 ≤ signal) (stdDev : F) :
    emaNumpy (closes.map some) period = FeatureEngineer.ema closes period ∧
      macdNumpy closes fast slow signal = FeatureEngineer.macd closes fast slow signal ∧
      atrNumpy highs lows closes period = FeatureEngineer.atr highs lows closes period ∧
      bbandsNumpy sqrt closes period stdDev = FeatureEngineer.bollinger sqrt closes period stdDev :=
  ⟨emaNumpy_map_some closes hperiod, macdNumpy_eq_macd closes hfast (hfast.trans hslow) hsignal,
    atrNumpy_eq_atr hhighs hlows hperiod, bbandsNumpy_eq_bollinger sqrt closes period stdDev⟩

/-- Six closes: the signal line over two bars of the MACD has its seed at the fourth. -/
theorem fallback_indicators_agree_six :
    (macdNumpy [1, 2, 4, 8, 16, 32] 2 3 2).2.1 = (FeatureEngineer.macd ([1, 2, 4, 8, 16, 32] : List ℚ) 2 3 2).2.1 ∧
      (FeatureEngineer.macd ([1, 2, 4, 8, 16, 32] : List ℚ) 2 3 2).2.1 =
        [none, none, none, some (37 / 36), some (589 / 324), some (845 / 243)] :=
  have hlength : ([1, 2, 4, 8, 16, 32] : List ℚ).length = ([1, 2, 4, 8, 16, 32] : List ℚ).length := rfl
  ⟨congrArg (fun m => m.2.1) (fallback_indicators_agree id hlength hlength (by decide : 1 ≤ 1) (by decide : 1 ≤ 2)
      (by decide : 2 ≤ 3) (by decide : 1 ≤ 2) 2).2.1, by decide +kernel⟩

end TrueRange

end MultiAgentTrading
