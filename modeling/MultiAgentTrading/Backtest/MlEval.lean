import Mathlib.Algebra.Order.Archimedean.Basic
import MultiAgentTrading.Backtest.WalkForward
import MultiAgentTrading.TechnicalAnalysis.ModelTrainer

/-!
# What the chronological split leaks

The trainer and the evaluation cut the rows at four fifths, but the labels of the last training rows look past the cut.
`chronological_split_leaks_iff`: later candles leave the training set alone exactly if no such row has a positive
close, and then the label is HOLD whatever comes.
-/

namespace MultiAgentTrading

variable {F : Type} [Field F] [LinearOrder F]

namespace MlEval

/-- `_build_xy`. -/
def buildXy (math : MathFunctions F) (gen : LabelGenerator F) (candles : List OHLCVCandle) : Samples F :=
  let arr := FeatureEngineer.toArrays candles
  let rowsAll := (FeatureEngineer.buildFeatureMatrix math arr).1
  let labelsAll := gen.generate arr.closes
  let start := FeatureEngineer.minBarsRequired - 1
  let stop : ℤ := arr.closes.length - gen.horizon
  if stop ≤ start ∨ rowsAll.length = 0 then ⟨[], []⟩
  else
    let keep := (stop - start).toNat
    ⟨rowsAll.take keep, (labelsAll.take stop.toNat).drop start⟩

/-- The split of `evaluate_ml`, with its class weights. -/
def split (s : Samples F) : Except SplitError (ChronologicalSplit F) :=
  chronologicalSplit 60 WalkForwardModel.sampleWeight s

/-- `_build_xy` replicates the trainer. -/
theorem buildXy_eq (math : MathFunctions F) (gen : LabelGenerator F) (cs : List OHLCVCandle) :
    buildXy math gen cs = ModelTrainer.loadData math gen cs := by
  have hpos := gen.horizon_pos
  have hlength : (FeatureEngineer.toArrays cs : PriceArrays F).closes.length = cs.length := List.length_map _
  have hrows : (FeatureEngineer.buildFeatureMatrix math (FeatureEngineer.toArrays cs : PriceArrays F)).1.length =
      cs.length - (FeatureEngineer.minBarsRequired - 1) := by
    rw [FeatureEngineer.buildFeatureMatrix_eq, List.length_map, List.length_range']
  unfold buildXy ModelTrainer.loadData
  dsimp only
  rw [hlength, hrows]
  by_cases hstop : (cs.length - gen.horizon : ℤ) ≤ (FeatureEngineer.minBarsRequired - 1 : ℕ)
  · rw [if_pos (.inl hstop), if_pos hstop, ite_self]
  · have hempty : ¬cs.isEmpty = true := by
      rw [List.isEmpty_iff_length_eq_zero]
      omega
    rw [if_neg hempty, if_neg hstop, if_neg (by omega)]

end MlEval

namespace LabelGenerator

variable {gen : LabelGenerator F}

/-- The bar of the label of a training row is not past the end. -/
private theorem lt_length_of_training {cs : List OHLCVCandle} {bar : ℕ} (h : bar ∈ gen.trainingBars cs) :
    bar + gen.horizon.toNat < cs.length := by
  obtain ⟨hstart, hlt⟩ := gen.mem_trainingBars.1 h
  have hfirst : gen.firstTestBar cs = FeatureEngineer.minBarsRequired - 1 + gen.sampleCount cs * 4 / 5 := rfl
  have hcount : gen.sampleCount cs = cs.length - gen.horizon.toNat - (FeatureEngineer.minBarsRequired - 1) := rfl
  omega

theorem toClass_injective : Function.Injective ForwardLabel.toClass := by
  intro l l' h
  cases l <;> cases l' <;> first | rfl | cases h

/-- Without a positive close there is no return. -/
theorem label_of_not_pos {threshold present : F} (hthreshold : 0 < threshold) (h : ¬0 < present) [IsStrictOrderedRing F]
    (future : F) : label threshold present future = .hold := by
  unfold label
  dsimp only
  rw [if_neg h, if_neg (not_lt.2 (neg_nonpos.2 hthreshold.le)), if_neg (not_lt.2 hthreshold.le)]

/-- From a positive close some positive future price gives another label. -/
theorem exists_other_label [IsStrictOrderedRing F] [Archimedean F] {threshold : F} (hthreshold : 0 < threshold)
    {present : ℚ} (h : 0 < present) (l : ForwardLabel) :
    ∃ price : ℚ, 0 < price ∧ label threshold (present : F) (price : F) ≠ l := by
  have hpresent : (0 : F) < present := Rat.cast_pos.2 h
  by_cases hl : l = .buy
  · -- the same price is a return of zero
    refine ⟨present, h, ?_⟩
    unfold label
    dsimp only
    rw [if_pos hpresent, sub_self, zero_div, if_neg (not_lt.2 (neg_nonpos.2 hthreshold.le)),
      if_neg (not_lt.2 hthreshold.le), hl]
    exact ForwardLabel.noConfusion
  · -- a price that is high enough is a return above the threshold
    obtain ⟨n, hn⟩ := exists_nat_gt (threshold * present + present)
    have hreturn : threshold < ((n : ℚ) - present : F) / present := by
      rw [lt_div_iff₀ hpresent, Rat.cast_natCast]
      linarith
    have hpos : (0 : F) < n := (add_pos (mul_pos hthreshold hpresent) hpresent).trans hn
    refine ⟨n, by exact_mod_cast hpos, ?_⟩
    unfold label
    dsimp only
    rw [if_pos hpresent, if_neg (not_lt.2 ((neg_nonpos.2 hthreshold.le).trans (hthreshold.trans hreturn).le)),
      if_pos hreturn]
    exact fun he => hl he.symm

variable (gen) in
/-- The training bars whose label looks past the split have no positive close. -/
def LateClosesWorthless (cs : List OHLCVCandle) : Prop :=
  ∀ bar ∈ gen.trainingBars cs, gen.firstTestBar cs ≤ bar + gen.horizon.toNat → ∀ c ∈ cs[bar]?, c.close ≤ 0

end LabelGenerator

/-- Whatever replaces the candles from `bar` on, as many as there were, leaves the training set as it is. -/
def KeepsTraining (pipeline : List OHLCVCandle → Except SplitError (ChronologicalSplit F)) (cs : List OHLCVCandle)
    (bar : ℕ) : Prop :=
  ∀ cs' : List OHLCVCandle, cs'.length = cs.length → cs'.take bar = cs.take bar →
    (pipeline cs').map ChronologicalSplit.train = (pipeline cs).map ChronologicalSplit.train

section Leaks

variable {gen : LabelGenerator F} {cs cs' : List OHLCVCandle}

omit [LinearOrder F] in
private theorem closeAt_congr {n : ℕ} (h : cs'.take n = cs.take n) {bar : ℕ} (hbar : bar < n) :
    (LabelGenerator.closeAt cs' bar : F) = LabelGenerator.closeAt cs bar := by
  have hsame : cs'[bar]? = cs[bar]? := by
    rw [← List.getElem?_take_of_lt hbar, h, List.getElem?_take_of_lt hbar]
  rw [LabelGenerator.closeAt, LabelGenerator.closeAt, hsame]

/-- The features of a training row look back, so they do not depend on what comes from the split on. -/
theorem trainingRows_congr (math : MathFunctions F) (h : cs'.take (gen.firstTestBar cs) = cs.take (gen.firstTestBar cs))
    {bar : ℕ} (hbar : bar ∈ gen.trainingBars cs) :
    FeatureEngineer.featuresAt math cs' bar = FeatureEngineer.featuresAt math cs bar := by
  have hlt := (gen.mem_trainingBars.1 hbar).2
  rw [← FeatureEngineer.featuresAt_take math cs' hlt, h, FeatureEngineer.featuresAt_take math cs hlt]

/-- Nor does a label that is realised before the split, or that has no positive close to compare with. -/
private theorem labelAt_congr [IsStrictOrderedRing F]
    (h : cs'.take (gen.firstTestBar cs) = cs.take (gen.firstTestBar cs)) (hworthless : gen.LateClosesWorthless cs)
    {bar : ℕ} (hbar : bar ∈ gen.trainingBars cs) : gen.labelAt cs' bar = gen.labelAt cs bar := by
  have hlt := (gen.mem_trainingBars.1 hbar).2
  unfold LabelGenerator.labelAt
  rw [closeAt_congr h hlt]
  rcases Nat.lt_or_ge (bar + gen.horizon.toNat) (gen.firstTestBar cs) with hrealised | hlate
  · rw [closeAt_congr h hrealised]
  · have hnot : ¬(0 : F) < LabelGenerator.closeAt cs bar := by
      unfold LabelGenerator.closeAt
      cases hc : cs[bar]? with
      | none => exact lt_irrefl 0
      | some c => exact not_lt.2 (Rat.cast_nonpos.2 (hworthless bar hbar hlate c hc))
    rw [LabelGenerator.label_of_not_pos gen.threshold_pos hnot, LabelGenerator.label_of_not_pos gen.threshold_pos hnot]

/-- The bar that a late label looks at can be changed so that the label is another one. -/
private theorem exists_other_labelAt [IsStrictOrderedRing F] [Archimedean F] {bar : ℕ}
    (hbar : bar ∈ gen.trainingBars cs) (hlate : gen.firstTestBar cs ≤ bar + gen.horizon.toNat) {c : OHLCVCandle}
    (hc : cs[bar]? = some c) (hpos : 0 < c.close) :
    ∃ cs' : List OHLCVCandle, cs'.length = cs.length ∧
      cs'.take (gen.firstTestBar cs) = cs.take (gen.firstTestBar cs) ∧ gen.labelAt cs' bar ≠ gen.labelAt cs bar := by
  have hlength := LabelGenerator.lt_length_of_training hbar
  have hhorizon := gen.horizon_pos
  obtain ⟨price, -, hother⟩ := LabelGenerator.exists_other_label gen.threshold_pos hpos (gen.labelAt cs bar)
  -- only the closing bar of the label is replaced, and it is past the split
  have hold := List.getElem?_eq_getElem hlength
  generalize cs[bar + gen.horizon.toNat] = old at hold
  refine ⟨cs.set (bar + gen.horizon.toNat)
    (flatCandle old.symbol old.timeframe old.timestamp price old.volume old.volume_nonneg), List.length_set,
    List.take_set_of_le hlate, ?_⟩
  have hpresent : (LabelGenerator.closeAt (cs.set (bar + gen.horizon.toNat)
      (flatCandle old.symbol old.timeframe old.timestamp price old.volume old.volume_nonneg)) bar : F) = c.close := by
    rw [LabelGenerator.closeAt, List.getElem?_set_ne (by omega), hc]
    rfl
  have hfuture : (LabelGenerator.closeAt (cs.set (bar + gen.horizon.toNat)
      (flatCandle old.symbol old.timeframe old.timestamp price old.volume old.volume_nonneg))
        (bar + gen.horizon.toNat) : F) = price := by
    rw [LabelGenerator.closeAt, List.getElem?_set_self hlength]
    rfl
  rw [LabelGenerator.labelAt, hpresent, hfuture]
  exact hother

private theorem keepsTraining_iff [IsStrictOrderedRing F] [Archimedean F] {minimum : ℕ} (weigh : List ℕ → List F)
    (math : MathFunctions F) (h : minimum ≤ gen.sampleCount cs) :
    KeepsTraining (fun cs => chronologicalSplit minimum weigh (alignedSamples math gen cs)) cs (gen.firstTestBar cs) ↔
      gen.LateClosesWorthless cs := by
  have hsplit : ∀ cs' : List OHLCVCandle, cs'.length = cs.length →
      (chronologicalSplit minimum weigh (alignedSamples math gen cs')).map ChronologicalSplit.train = .ok
        { rows := (gen.trainingBars cs).map (FeatureEngineer.featuresAt math cs')
          classes := (gen.trainingBars cs).map fun bar => (gen.labelAt cs' bar).toClass
          weights := weigh ((gen.trainingBars cs).map fun bar => (gen.labelAt cs' bar).toClass) } := by
    intro cs' hlength
    have hcount : gen.sampleCount cs' = gen.sampleCount cs := by
      rw [LabelGenerator.sampleCount, hlength, LabelGenerator.sampleCount]
    have hbars : gen.trainingBars cs' = gen.trainingBars cs := by
      rw [LabelGenerator.trainingBars, hcount, LabelGenerator.trainingBars]
    rw [chronologicalSplit_aligned weigh math (hcount ▸ h), hbars]
  constructor
  · intro hkeeps bar hbar hlate c hc
    by_contra hpos
    obtain ⟨cs', hlength, htake, hother⟩ := exists_other_labelAt hbar hlate hc (not_le.1 hpos)
    have hsame := hkeeps cs' hlength htake
    rw [hsplit cs' hlength, hsplit cs rfl] at hsame
    have hclasses := congrArg TrainingSet.classes (Except.ok.inj hsame)
    have hlabel := List.map_inj_left.1 hclasses bar hbar
    exact hother (LabelGenerator.toClass_injective hlabel)
  · intro hworthless cs' hlength htake
    have hrows : (gen.trainingBars cs).map (FeatureEngineer.featuresAt math cs') =
        (gen.trainingBars cs).map (FeatureEngineer.featuresAt math cs) :=
      List.map_congr_left fun bar hbar => trainingRows_congr math htake hbar
    have hclasses : ((gen.trainingBars cs).map fun bar => (gen.labelAt cs' bar).toClass) =
        (gen.trainingBars cs).map fun bar => (gen.labelAt cs bar).toClass :=
      List.map_congr_left fun bar hbar => congrArg ForwardLabel.toClass (labelAt_congr htake hworthless hbar)
    show Except.map _ _ = Except.map _ _
    rw [hsplit cs' hlength, hsplit cs rfl, hrows, hclasses]

end Leaks

/-- When the chronological split does not leak, for every history with enough rows, in the trainer and in the
evaluation: the candles from the first test row on leave the training set as it is exactly if the training bars whose
label looks past the split have no positive close. -/
theorem chronological_split_leaks_iff [IsStrictOrderedRing F] [Archimedean F] (math : MathFunctions F)
    (gen : LabelGenerator F) (cs : List OHLCVCandle) :
    (20 ≤ gen.sampleCount cs →
      (KeepsTraining (fun cs => ModelTrainer.train (ModelTrainer.loadData math gen cs)) cs (gen.firstTestBar cs) ↔
        gen.LateClosesWorthless cs)) ∧
      (60 ≤ gen.sampleCount cs →
        (KeepsTraining (fun cs => MlEval.split (MlEval.buildXy math gen cs)) cs (gen.firstTestBar cs) ↔
          gen.LateClosesWorthless cs)) := by
  simp only [MlEval.buildXy_eq, ModelTrainer.loadData_eq]
  exact ⟨keepsTraining_iff ModelTrainer.computeSampleWeights math,
    keepsTraining_iff WalkForwardModel.sampleWeight math⟩

private theorem one_percent_pos : (0 : ℚ) < 1 / 100 := by norm_num

/-- Labels one bar ahead. -/
def nextBar : LabelGenerator ℚ where
  horizon := 1
  threshold := 1 / 100
  horizon_pos := le_rfl
  threshold_pos := one_percent_pos

/-- A market that stands at one price. -/
def standing (count : ℕ) (price : ℚ) : List OHLCVCandle :=
  (List.range count).map fun i : ℕ => flatCandle "BTC/USDT" "1d" (86400 * i) price 1 unit_volume_nonneg

theorem length_standing (count : ℕ) (price : ℚ) : (standing count price).length = count := by
  rw [standing, List.length_map, List.length_range]

private theorem close_standing {count bar : ℕ} {price : ℚ} {c : OHLCVCandle}
    (h : (standing count price)[bar]? = some c) : c.close = price := by
  obtain ⟨i, -, rfl⟩ := List.mem_map.1 (List.mem_of_getElem? h)
  rfl

private theorem sampleCount_standing (price : ℚ) : nextBar.sampleCount (standing 80 price) = 20 := by
  rw [LabelGenerator.sampleCount, length_standing]
  rfl

private theorem firstTestBar_standing (price : ℚ) : nextBar.firstTestBar (standing 80 price) = 75 := by
  rw [LabelGenerator.firstTestBar, sampleCount_standing]
  rfl

/-- Prices that are all zero give no label to leak. -/
theorem chronological_split_leaks_iff_worthless :
    nextBar.firstTestBar (standing 80 0) = 75 ∧
      KeepsTraining (fun cs => ModelTrainer.train (ModelTrainer.loadData noMath nextBar cs)) (standing 80 0)
        (nextBar.firstTestBar (standing 80 0)) := by
  refine ⟨firstTestBar_standing 0, ?_⟩
  refine ((chronological_split_leaks_iff noMath nextBar (standing 80 0)).1 (sampleCount_standing 0).ge).2 ?_
  intro bar _ _ c hc
  exact (close_standing hc).le

/-- In a market that stands at 100 the last training row is that of bar 74, and its label looks at bar 75, the first one
that is tested on. -/
theorem chronological_split_leaks :
    20 ≤ nextBar.sampleCount (standing 80 100) ∧ nextBar.firstTestBar (standing 80 100) = 75 ∧
      ¬KeepsTraining (fun cs => ModelTrainer.train (ModelTrainer.loadData noMath nextBar cs)) (standing 80 100) 75 := by
  have hcount := (sampleCount_standing 100).ge
  have hfirst := firstTestBar_standing 100
  refine ⟨hcount, hfirst, fun hkeeps => ?_⟩
  simp only [ModelTrainer.loadData_eq] at hkeeps
  rw [← hfirst] at hkeeps
  have hworthless := (keepsTraining_iff ModelTrainer.computeSampleWeights noMath hcount).1 hkeeps
  have hbar : 74 ∈ nextBar.trainingBars (standing 80 100) := by
    rw [LabelGenerator.mem_trainingBars, hfirst]
    decide
  obtain ⟨c, hc⟩ : ∃ c, (standing 80 100)[74]? = some c :=
    ⟨_, List.getElem?_eq_getElem (by rw [length_standing]; decide)⟩
  have hle := hworthless 74 hbar (by rw [hfirst]; decide) c hc
  rw [close_standing hc] at hle
  exact absurd hle (by norm_num)

end MultiAgentTrading
