import MultiAgentTrading.Decision.Agent
import MultiAgentTrading.Risk.PositionSizer
import MultiAgentTrading.TechnicalAnalysis.SignalGenerator
import Mathlib.Data.Rat.Cast.Order
import Mathlib.Tactic.Ring
import Mathlib.Tactic.Linarith
import Mathlib.Tactic.FieldSimp

/-!
# The ATR stop across the agents

The generator writes the average true range of a buffer into the metadata of its signal as a percentage of the price;
the position sizer multiplies that entry and uses the product as a fraction of the price.
-/

namespace MultiAgentTrading

open SignalGenerator PositionSizer

variable {F : Type} [Field F] [LinearOrder F] [IsStrictOrderedRing F] [FloorRing F]
variable {talib : Option (TaLib F)} {sqrt : F → F} {cfg : TechnicalAnalysisSettings}

omit [IsStrictOrderedRing F] in
/-- The ATR entries of a generated signal are those of the buffer's range, at the close of its newest candle. -/
theorem SignalGenerator.GeneratedFrom.atr {buffer : CandleBuffer} {signalId : ℕ} {stampTime : ℚ}
    {signal : TechnicalSignal F} (h : GeneratedFrom talib sqrt buffer signalId stampTime signal) {a : F}
    (ha : signal.metadata.get? "atr_value" = some (.float a)) :
    signal.metadata.get? "atr_pct_of_price" = some (.float (atrAsPct a signal.price)) := by
  obtain ⟨readings, hmeta⟩ := h.metadata
  rw [hmeta, get?_atrValue] at ha
  obtain ⟨r, hr, hra⟩ := Option.map_eq_some_iff.1 ha
  obtain ⟨price, hprice, hpct⟩ := computeAtr_asPctOfPrice talib hr
  rw [h.price, Option.some.injEq] at hprice
  rw [MetaValue.float.injEq] at hra
  rw [hmeta, get?_atrPctOfPrice, hr, Option.map_some, hpct, hra, hprice]

/-- The stop of a proposal on a generated signal is a hundred times one and a half average true ranges as a fraction
of the price, so it is never that fraction. -/
theorem atr_stop_is_a_percentage {buffer : CandleBuffer} {signalId : ℕ} {expiryTime stampTime : ℚ}
    {signal : TechnicalSignal F} {proposal : TradeProposal F} {candle : OHLCVCandle} {a : F}
    (hgenerate : generate talib sqrt cfg buffer signalId expiryTime stampTime = some signal)
    (hatr : signal.metadata.get? "atr_value" = some (.float a)) (ha : 0 < a)
    (hcandle : buffer.latestCandle = some candle) (hp : 0 < candle.close)
    (hproposal : proposal.signal.technicalSignal = some signal) :
    getStopLossPct proposal = 100 * (3 / 2 * a / candle.close) ∧
      getStopLossPct proposal ≠ 3 / 2 * a / candle.close := by
  have hspec := generate_spec talib sqrt cfg hgenerate
  have hprice : signal.price = candle.close := by
    have h := hspec.price
    rw [CandleBuffer.fromEnd_closes, hcandle, Option.map_some, Option.some.injEq] at h
    exact h.symm
  have hp' : (0 : F) < candle.close := by exact_mod_cast hp
  have hpct : atrAsPct a signal.price = a / candle.close * 100 := by
    rw [atrAsPct, hprice, if_pos hp', Rat.cast_ofNat]
  have hpos : (0 : F) < a / candle.close := div_pos ha hp'
  have hstop : getStopLossPct proposal = 100 * (3 / 2 * a / candle.close) := by
    have hmultiplier : ((atrStopMultiplier : ℚ) : F) = 3 / 2 := by norm_num [atrStopMultiplier]
    rw [getStopLossPct_of_atr hproposal (hspec.atr hatr) (by rw [hpct]; linarith), hpct, hmultiplier]
    ring
  refine ⟨hstop, ?_⟩
  have h : (0 : F) < 3 / 2 * a / candle.close := by rw [mul_div_assoc]; linarith
  intro he
  rw [hstop] at he
  linarith

/-- What the decision agent proposes on the signal of the crossing market. -/
def crossingProposal : TradeProposal ℚ :=
  ((({} : DecisionAgent ℚ).onTechnicalSignal defaultSettings crossingSignal 7 3001 3001).1).get (by decide +kernel)

theorem atr_stop_is_a_percentage_crossing :
    getStopLossPct crossingProposal = 100 * (3 / 2 * (2379 / 2744) / ((crossingCandle 49).close : ℚ)) ∧
      getStopLossPct crossingProposal ≠ 3 / 2 * (2379 / 2744) / ((crossingCandle 49).close : ℚ) :=
  atr_stop_is_a_percentage generate_crossing (by decide +kernel) (by norm_num) (by decide +kernel) (by decide +kernel)
    (by decide +kernel)

/-- A range of 0.86% of the price becomes a stop of 129% of the price. -/
theorem crossing_stop_exceeds_price :
    generate none Rat.sqrt {} crossingBuffer 1 3000 3000 = some crossingSignal ∧
      crossingSignal.metadata.get? "atr_value" = some (.float (2379 / 2744)) ∧
      crossingBuffer.latestCandle = some (crossingCandle 49) ∧ (crossingCandle 49).close = 101 ∧
      crossingProposal.signal.technicalSignal = some crossingSignal ∧
      getStopLossPct crossingProposal = 178425 / 138572 ∧
      getStopLossPct crossingProposal ≠ 3 / 2 * (2379 / 2744) / 101 := by
  decide +kernel

end MultiAgentTrading
