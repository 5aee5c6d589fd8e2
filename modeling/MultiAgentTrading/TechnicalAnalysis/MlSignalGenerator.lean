import MultiAgentTrading.TechnicalAnalysis.SignalGenerator

/-!
# The ML signal generator

The generator that takes over when a trained model is loaded.  The feature vector of a buffer and the classifier are
parameters; how the class probabilities become a signal is modelled.
-/

namespace MultiAgentTrading

/-- A loaded model: the feature vector of a buffer, if it is long enough, and the class probabilities of a vector,
`none` where the prediction raises. -/
structure MLModel (F : Type) where
  buildFeatures : CandleBuffer → Option (List F)
  featureNames : List String
  predictProba : List F → Option (List F)
  accuracy : Option F

namespace MLSignalGenerator

open Rounding (roundTo)

variable {F : Type} [Field F] [LinearOrder F]

/-- `_DIRECTIONAL_THRESHOLD`. -/
def directionalThreshold : ℚ := 35 / 100

/-- The direction of the class probabilities and the confidence in it. -/
def classify (sell buy : F) : SignalDirection × F :=
  if directionalThreshold ≤ buy ∧ sell < buy then (.buy, buy)
  else if directionalThreshold ≤ sell ∧ buy < sell then (.sell, sell)
  else (.neutral, max buy sell)

/-- The feature `ema_50_dist`, zero if the model has none; `none` where the vector is too short. -/
def ema50Dist (model : MLModel F) (features : List F) : Option F :=
  if "ema_50_dist" ∈ model.featureNames then features[model.featureNames.idxOf "ema_50_dist"]? else some 0

variable [FloorRing F]

def signalMetadata (model : MLModel F) (sell hold buy dist : F) : Dict String (MetaValue F) :=
  let metadata := Dict.empty
    |>.set "model" (.other none)
    |>.set "model_path" (.other none)
    |>.set "p_buy" (.float (roundTo 4 buy))
    |>.set "p_sell" (.float (roundTo 4 sell))
    |>.set "p_hold" (.float (roundTo 4 hold))
    |>.set "top_features" (.other none)
    |>.set "argmax_class" (.other none)
    |>.set "ema_50_dist" (.float (roundTo 6 dist))
  match model.accuracy with
  | none => metadata
  | some accuracy => metadata.set "training_accuracy" (.float accuracy)

/-- `generate`, with the id of the signal and the readings of the clock for its expiry and its timestamp. -/
def generate (cfg : TechnicalAnalysisSettings) (model : MLModel F) (buffer : CandleBuffer) (signalId : ℕ)
    (expiryTime stampTime : ℚ) : Option (TechnicalSignal F) := do
  let features ← model.buildFeatures buffer
  let dist ← ema50Dist model features
  match ← model.predictProba features with
  | [sell, hold, buy] =>
    let (direction, confidence) := classify sell buy
    guard ((cfg.minSignalConfidence : F) ≤ confidence)
    if h : 0 ≤ roundTo 4 confidence ∧ roundTo 4 confidence ≤ 1 then
      return {
        signalId := signalId
        symbol := buffer.symbol
        timeframe := buffer.timeframe
        timestamp := stampTime
        expiresAt := expiryTime + cfg.signalTtlSeconds
        direction := direction
        confidence := roundTo 4 confidence
        price := ((fromEnd buffer.closes 0).getD 0)
        metadata := signalMetadata model sell hold buy dist
        confidence_mem := h }
    else failure
  | _ => failure

theorem generate_spec {cfg : TechnicalAnalysisSettings} {model : MLModel F} {buffer : CandleBuffer} {signalId : ℕ}
    {expiryTime stampTime : ℚ} {signal : TechnicalSignal F}
    (h : generate cfg model buffer signalId expiryTime stampTime = some signal) :
    signal.signalId = signalId ∧ signal.symbol = buffer.symbol ∧ signal.timestamp = stampTime := by
  unfold generate at h
  simp only [Option.bind_eq_bind, Option.bind_eq_some_iff] at h
  obtain ⟨_, _, _, _, proba, _, h⟩ := h
  split at h
  case h_2 => cases h
  case h_1 =>
    simp only [Option.bind_eq_some_iff] at h
    obtain ⟨_, _, h⟩ := h
    split at h
    case isFalse => cases h
    case isTrue => cases h; exact ⟨rfl, rfl, rfl⟩

end MLSignalGenerator

end MultiAgentTrading
