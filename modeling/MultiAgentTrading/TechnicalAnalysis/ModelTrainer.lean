import Mathlib.Data.List.Dedup
import MultiAgentTrading.TechnicalAnalysis.FeatureEngineer
import MultiAgentTrading.TechnicalAnalysis.LabelGenerator

/-!
# The model trainer

Features and labels of a history are aligned bar by bar, the bars without a label dropped, and the first four fifths of
the rows are trained on.  `chronologicalSplit_aligned` says what the training set is: for each of its bars the
features, which look back, and the class of the label, which looks `horizon` bars ahead.
-/

namespace MultiAgentTrading

variable {F : Type} [Field F] [LinearOrder F]

/-- Rows of features with the labels beside them: `X` and `y`. -/
structure Samples (F : Type) where
  rows : List (List F)
  labels : List (Option ForwardLabel)

/-- What the classifier is fitted on. -/
structure TrainingSet (F : Type) where
  rows : List (List F)
  classes : List ℕ
  weights : List F

structure ChronologicalSplit (F : Type) where
  train : TrainingSet F
  testRows : List (List F)
  testClasses : List ℕ

/-- Too few rows, or a label that is NaN. -/
inductive SplitError
  | insufficientData (rows : ℕ)
  | unlabelled
  deriving DecidableEq

/-- The split of `train` and of `evaluate_ml`: no shuffle, the first four fifths are trained on.  They differ in how
many rows they need and in how they weigh the classes. -/
def chronologicalSplit (minimum : ℕ) (weigh : List ℕ → List F) (s : Samples F) :
    Except SplitError (ChronologicalSplit F) :=
  if s.rows.length < minimum then .error (.insufficientData s.rows.length)
  else
    match s.labels.mapM fun label => label.map ForwardLabel.toClass with
    | none => .error .unlabelled
    | some classes =>
      let split := s.rows.length * 4 / 5
      .ok
        { train := ⟨s.rows.take split, classes.take split, weigh (classes.take split)⟩
          testRows := s.rows.drop split
          testClasses := classes.drop split }

namespace ModelTrainer

/-- `load_data_from_db`, on the candles read. -/
def loadData (math : MathFunctions F) (gen : LabelGenerator F) (candles : List OHLCVCandle) : Samples F :=
  if candles.isEmpty then ⟨[], []⟩
  else
    let arr := FeatureEngineer.toArrays candles
    let rowsAll := (FeatureEngineer.buildFeatureMatrix math arr).1
    let labelsAll := gen.generate arr.closes
    let start := FeatureEngineer.minBarsRequired - 1
    let stop : ℤ := arr.closes.length - gen.horizon
    if stop ≤ start then ⟨[], []⟩
    else
      let keepCount := (stop - start).toNat
      ⟨rowsAll.take keepCount, (labelsAll.take stop.toNat).drop start⟩

/-- `_compute_sample_weights`: the samples over the classes that occur and the samples of the class. -/
def computeSampleWeights (yTrain : List ℕ) : List F :=
  let classes := max yTrain.dedup.length 1
  yTrain.map fun c => (yTrain.length : F) / ((classes * yTrain.count c : ℕ) : F)

/-- The part of `train` before the classifier is fitted. -/
def train (s : Samples F) : Except SplitError (ChronologicalSplit F) := chronologicalSplit 20 computeSampleWeights s

end ModelTrainer

namespace LabelGenerator

variable (gen : LabelGenerator F)

/-- The close of a bar. -/
def closeAt (cs : List OHLCVCandle) (bar : ℕ) : F := ((cs[bar]?).map fun c => (c.close : F)).getD 0

/-- The label of a bar that has a bar `horizon` later. -/
def labelAt (cs : List OHLCVCandle) (bar : ℕ) : ForwardLabel :=
  label gen.threshold (closeAt cs bar) (closeAt cs (bar + gen.horizon.toNat))

/-- The number of bars that have both features and a label. -/
def sampleCount (cs : List OHLCVCandle) : ℕ :=
  cs.length - gen.horizon.toNat - (FeatureEngineer.minBarsRequired - 1)

/-- The bars that are trained on. -/
def trainingBars (cs : List OHLCVCandle) : List ℕ :=
  List.range' (FeatureEngineer.minBarsRequired - 1) (gen.sampleCount cs * 4 / 5)

/-- The bar of the first test row. -/
def firstTestBar (cs : List OHLCVCandle) : ℕ := FeatureEngineer.minBarsRequired - 1 + gen.sampleCount cs * 4 / 5

theorem sampleCount_le (cs : List OHLCVCandle) :
    gen.sampleCount cs ≤ cs.length - (FeatureEngineer.minBarsRequired - 1) :=
  Nat.sub_le_sub_right (Nat.sub_le _ _) _

theorem mem_trainingBars {cs : List OHLCVCandle} {bar : ℕ} :
    bar ∈ gen.trainingBars cs ↔ FeatureEngineer.minBarsRequired - 1 ≤ bar ∧ bar < gen.firstTestBar cs :=
  List.mem_range'_1

variable {gen}

theorem getElem?_generate_toArrays {cs : List OHLCVCandle} {bar : ℕ} (h : bar + gen.horizon.toNat < cs.length) :
    (gen.generate (FeatureEngineer.toArrays cs).closes)[bar]? = some (some (gen.labelAt cs bar)) := by
  have hbar : bar < cs.length := (Nat.le_add_right _ _).trans_lt h
  rw [getElem?_generate]
  simp only [FeatureEngineer.toArrays, List.getElem?_map, labelAt, closeAt, List.getElem?_eq_getElem hbar,
    List.getElem?_eq_getElem h, Option.map_some, Option.getD_some]

/-- The labels of the bars with features, as far as they have one. -/
theorem take_drop_generate (gen : LabelGenerator F) (cs : List OHLCVCandle) :
    ((gen.generate (FeatureEngineer.toArrays cs).closes).take (cs.length - gen.horizon.toNat)).drop
        (FeatureEngineer.minBarsRequired - 1) =
      (List.range' (FeatureEngineer.minBarsRequired - 1) (gen.sampleCount cs)).map fun bar =>
        some (gen.labelAt cs bar) := by
  have hpos := gen.horizon_pos
  refine List.ext_getElem? fun k => ?_
  rw [List.getElem?_drop, List.getElem?_take, List.getElem?_map]
  have hcount : gen.sampleCount cs = cs.length - gen.horizon.toNat - (FeatureEngineer.minBarsRequired - 1) := rfl
  rcases Nat.lt_or_ge k (gen.sampleCount cs) with hk | hk
  · rw [if_pos (by omega), List.getElem?_range' hk, Nat.one_mul, getElem?_generate_toArrays (by omega)]
    rfl
  · have hnone : (List.range' (FeatureEngineer.minBarsRequired - 1) (gen.sampleCount cs))[k]? = none :=
      List.getElem?_eq_none (by rwa [List.length_range'])
    rw [if_neg (by omega), hnone]
    rfl

end LabelGenerator

/-! ### The training set -/

/-- The features and labels of the bars that have both. -/
def alignedSamples (math : MathFunctions F) (gen : LabelGenerator F) (cs : List OHLCVCandle) : Samples F where
  rows := (List.range' (FeatureEngineer.minBarsRequired - 1) (gen.sampleCount cs)).map
    (FeatureEngineer.featuresAt math cs)
  labels := (List.range' (FeatureEngineer.minBarsRequired - 1) (gen.sampleCount cs)).map fun bar =>
    some (gen.labelAt cs bar)

theorem ModelTrainer.loadData_eq (math : MathFunctions F) (gen : LabelGenerator F) (cs : List OHLCVCandle) :
    ModelTrainer.loadData math gen cs = alignedSamples math gen cs := by
  have hpos := gen.horizon_pos
  have hlength : (FeatureEngineer.toArrays cs : PriceArrays F).closes.length = cs.length := List.length_map _
  unfold ModelTrainer.loadData alignedSamples
  split
  case isTrue hempty =>
    have hnone : gen.sampleCount cs = 0 := by
      rw [LabelGenerator.sampleCount, List.isEmpty_iff.1 hempty]
      exact Nat.sub_eq_zero_of_le (by simp)
    rw [hnone]
    rfl
  case isFalse =>
    dsimp only
    rw [hlength]
    split
    case isTrue hshort =>
      -- no bar has both features and a label
      have hnone : gen.sampleCount cs = 0 := by
        unfold LabelGenerator.sampleCount
        omega
      rw [hnone]
      rfl
    case isFalse hlong =>
      have hkeep : ((cs.length - gen.horizon) - (FeatureEngineer.minBarsRequired - 1 : ℕ) : ℤ).toNat =
          gen.sampleCount cs := by
        unfold LabelGenerator.sampleCount
        omega
      have hstop : (cs.length - gen.horizon : ℤ).toNat = cs.length - gen.horizon.toNat := by omega
      rw [hkeep, hstop, LabelGenerator.take_drop_generate, FeatureEngineer.buildFeatureMatrix_eq, ← List.map_take,
        List.take_range'_of_length_ge (gen.sampleCount_le cs)]

private theorem mapM_some {α β γ : Type} (l : List α) (f : α → β) (g : β → γ) :
    ((l.map fun x => some (f x)).mapM fun y => y.map g) = some (l.map fun x => g (f x)) := by
  rw [List.mapM_map]
  exact List.mapM_pure

/-- What is trained on when there are enough rows: for every training bar its features, which look back, and the class
of its label, which looks ahead. -/
theorem chronologicalSplit_aligned {minimum : ℕ} (weigh : List ℕ → List F) (math : MathFunctions F)
    {gen : LabelGenerator F} {cs : List OHLCVCandle} (h : minimum ≤ gen.sampleCount cs) :
    (chronologicalSplit minimum weigh (alignedSamples math gen cs)).map ChronologicalSplit.train =
      .ok
        { rows := (gen.trainingBars cs).map (FeatureEngineer.featuresAt math cs)
          classes := (gen.trainingBars cs).map fun bar => (gen.labelAt cs bar).toClass
          weights := weigh ((gen.trainingBars cs).map fun bar => (gen.labelAt cs bar).toClass) } := by
  have hlength : (alignedSamples math gen cs).rows.length = gen.sampleCount cs := by
    rw [alignedSamples, List.length_map, List.length_range']
  have hsplit : gen.sampleCount cs * 4 / 5 ≤ gen.sampleCount cs := by omega
  unfold chronologicalSplit
  rw [hlength, if_neg (Nat.not_lt.2 h), alignedSamples, mapM_some]
  dsimp only [Except.map]
  rw [← List.map_take, ← List.map_take, List.take_range'_of_length_ge hsplit]
  rfl

end MultiAgentTrading
