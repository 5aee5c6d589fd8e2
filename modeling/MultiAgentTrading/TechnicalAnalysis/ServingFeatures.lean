import MultiAgentTrading.TechnicalAnalysis.BufferHistory
import MultiAgentTrading.TechnicalAnalysis.FeatureEngineer
import Mathlib.Analysis.SpecialFunctions.Log.Basic
import Mathlib.Analysis.SpecialFunctions.Trigonometric.Basic

/-!
# Features at serving time

The trainer takes its rows from one pass over the whole history; the serving side computes every series again over the
candles of a buffer and takes the last row.  The features of a bar are causal, so both give the same row, as long as
the buffer has room for the history up to the bar (`matrix_row_eq_buildFeatures`).
-/

namespace MultiAgentTrading

/-- The functions over the reals. -/
noncomputable def MathFunctions.real : MathFunctions ℝ := ⟨Real.sqrt, Real.log, Real.sin, Real.cos, Real.pi⟩

namespace CandleBuffer

theorem Holds.foldl_add {b : CandleBuffer} {cs : List OHLCVCandle} (h : b.Holds cs) (l : List OHLCVCandle) :
    (l.foldl CandleBuffer.add b).Holds (cs ++ l) ∧ (l.foldl CandleBuffer.add b).capacity = b.capacity := by
  induction l using List.reverseRecOn with
  | nil =>
    rw [List.append_nil]
    exact ⟨h, rfl⟩
  | append_singleton l c ih =>
    rw [List.foldl_append, ← List.append_assoc]
    exact ⟨ih.1.add c, (capacity_add _ c).trans ih.2⟩

/-- A new buffer that is offered candles in ascending order holds them all while there is room. -/
theorem candles_fill (symbol timeframe : String) {cs : List OHLCVCandle}
    (hsorted : cs.Pairwise fun c c' => c.timestamp < c'.timestamp) (hroom : cs.length ≤ maxBufferSize) :
    (cs.foldl add (forPair symbol timeframe)).candles = cs := by
  obtain ⟨hholds, hcapacity⟩ := (holds_forPair symbol timeframe).foldl_add cs
  rw [hholds, hcapacity, List.nil_append, Records.records_of_pairwise hsorted]
  exact Recent.keep_of_length_le hroom

end CandleBuffer

namespace FeatureEngineer

variable {F : Type} [Field F] [LinearOrder F]

/-- `_features_for_index`: every series is computed over the given arrays. -/
def featuresForIndex (math : MathFunctions F) (a : PriceArrays F) (idx : ℕ) : Option (List F) :=
  rowFromPrecomputed math a (precompute math a) idx

/-- `build_features`: the features of the newest candle, from `MIN_BARS_REQUIRED` candles on. -/
def buildFeatures (math : MathFunctions F) (buffer : CandleBuffer) : Option (List F) :=
  if buffer.size < minBarsRequired then none
  else featuresForIndex math (toArrays buffer.candles) (buffer.size - 1)

theorem featuresForIndex_of_warm (math : MathFunctions F) (cs : List OHLCVCandle) {bar : ℕ}
    (h : minBarsRequired - 1 ≤ bar) : featuresForIndex math (toArrays cs) bar = some (featuresAt math cs bar) :=
  if_neg (Nat.not_lt.2 h)

/-- Row `r` of the matrix has the features of bar `r + 59`. -/
theorem matrix_getElem? (math : MathFunctions F) (cs : List OHLCVCandle) (r : ℕ) :
    (buildFeatureMatrix math (toArrays cs)).1[r]? =
      if r + (minBarsRequired - 1) < cs.length then some (featuresAt math cs (r + (minBarsRequired - 1)))
      else none := by
  rw [buildFeatureMatrix_eq, List.getElem?_map]
  split
  case isTrue h =>
    rw [List.getElem?_range' (by omega), Option.map_some, Nat.one_mul, Nat.add_comm]
  case isFalse h =>
    rw [List.getElem?_eq_none, Option.map_none]
    rw [List.length_range']
    omega

/-- Serving a buffer that holds the history up to a bar gives the features of the bar in the whole history. -/
theorem buildFeatures_fill (math : MathFunctions F) (symbol timeframe : String) {cs : List OHLCVCandle}
    (hsorted : cs.Pairwise fun c c' => c.timestamp < c'.timestamp) {bar : ℕ} (hwarm : minBarsRequired - 1 ≤ bar)
    (hroom : bar < maxBufferSize) (hbar : bar < cs.length) :
    buildFeatures math ((cs.take (bar + 1)).foldl CandleBuffer.add (.forPair symbol timeframe)) =
      some (featuresAt math cs bar) := by
  have hlength : (cs.take (bar + 1)).length = bar + 1 := List.length_take_of_le hbar
  have hcandles := CandleBuffer.candles_fill symbol timeframe (hsorted.sublist (List.take_sublist (bar + 1) cs))
    (hlength.trans_le hroom)
  have hwarm' : ¬ bar + 1 < minBarsRequired := by
    have hmin : 0 < minBarsRequired := by decide
    omega
  rw [buildFeatures, CandleBuffer.size, hcandles, hlength, if_neg hwarm', Nat.add_sub_cancel,
    featuresForIndex_of_warm math _ hwarm, featuresAt_take math cs (Nat.lt_succ_self bar)]

/-- Training and serving agree: the row of a bar in the matrix of the whole history is what a buffer filled up to the
bar is served; and every bar from the 60th on has its row. -/
theorem matrix_row_eq_buildFeatures (math : MathFunctions F) (symbol timeframe : String) :
    (∀ cs : List OHLCVCandle, cs.Pairwise (fun c c' => c.timestamp < c'.timestamp) →
      ∀ bar, 59 ≤ bar → bar < 500 → bar < cs.length →
        ∃ row, (buildFeatureMatrix math (toArrays cs)).1[bar - 59]? = some row ∧
          buildFeatures math ((cs.take (bar + 1)).foldl CandleBuffer.add (.forPair symbol timeframe)) = some row) ∧
      ∀ cs : List OHLCVCandle, 60 ≤ cs.length →
        (buildFeatureMatrix math (toArrays cs)).1.length = cs.length - 59 ∧
          ∀ r < cs.length - 59, (buildFeatureMatrix math (toArrays cs)).1[r]? = some (featuresAt math cs (r + 59)) := by
  refine ⟨fun cs hsorted bar hwarm hroom hbar => ⟨featuresAt math cs bar, ?_, ?_⟩, fun cs _ => ⟨?_, fun r hr => ?_⟩⟩
  · rw [matrix_getElem?]
    show (if bar - 59 + 59 < cs.length then some (featuresAt math cs (bar - 59 + 59)) else none) = _
    rw [Nat.sub_add_cancel hwarm, if_pos hbar]
  · exact buildFeatures_fill math symbol timeframe hsorted hwarm hroom hbar
  · rw [buildFeatureMatrix_eq, List.length_map, List.length_range']
    rfl
  · rw [matrix_getElem?, if_pos]
    · rfl
    · show r + 59 < cs.length
      omega

/-- Seventy minutes whose prices go up and down. -/
def seventyMinutes : List OHLCVCandle :=
  (List.range 70).map fun i : ℕ => flatCandle "BTC/USDT" "1m" (60 * i) (100 + (i % 7 : ℕ)) 1 unit_volume_nonneg

/-- The bar before the last is served its row, and the last bar has the eleventh and last one. -/
theorem matrix_row_eq_buildFeatures_seventy :
    (∃ row, (buildFeatureMatrix .real (toArrays seventyMinutes)).1[9]? = some row ∧
      buildFeatures .real ((seventyMinutes.take 69).foldl CandleBuffer.add (.forPair "BTC/USDT" "1m")) = some row) ∧
      (buildFeatureMatrix .real (toArrays seventyMinutes)).1.length = 11 ∧
      (buildFeatureMatrix .real (toArrays seventyMinutes)).1[10]? = some (featuresAt .real seventyMinutes 69) := by
  have hsorted : seventyMinutes.Pairwise fun c c' => c.timestamp < c'.timestamp := by decide +kernel
  obtain ⟨hserved, hmatrix⟩ := matrix_row_eq_buildFeatures .real "BTC/USDT" "1m"
  obtain ⟨hlength, hrow⟩ := hmatrix seventyMinutes (by decide)
  exact ⟨hserved seventyMinutes hsorted 68 (by decide) (by decide) (by decide), hlength, hrow 10 (by decide)⟩

end FeatureEngineer

end MultiAgentTrading
