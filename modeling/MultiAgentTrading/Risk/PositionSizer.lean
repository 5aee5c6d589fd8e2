import MultiAgentTrading.Core.Models
import MultiAgentTrading.Core.Settings

/-!
# Position sizing

Fixed-fraction sizing: the amount at risk over the stop distance, capped by the position and order limits and raised
to the minimum order.  The stop distance is taken from the ATR metadata of the technical signal, else from the
proposal, else it is 2%.
-/

namespace MultiAgentTrading

structure PositionSizer where
  maxPositionPct : ℚ
  minOrderUsd : ℚ
  maxOrderUsd : ℚ
  riskPerTradePct : ℚ := 1 / 100

namespace PositionSizer

/-- `ATR_STOP_MULTIPLIER`. -/
def atrStopMultiplier : ℚ := 3 / 2

section Stop

variable {F : Type} [Field F] [LinearOrder F]

/-- `float()` of the metadata entry `atr_pct_of_price`, if it is there and is a number. -/
def extractAtrPct (proposal : TradeProposal F) : Option F :=
  match proposal.signal.technicalSignal with
  | none => none
  | some tech =>
    match tech.metadata.get? "atr_pct_of_price" with
    | none => none
    | some .none => none
    | some (.float x) => some x
    | some (.other asFloat) => asFloat

/-- The stop where neither the ATR nor the proposal gives one. -/
def defaultStopLossPct : ℚ := 2 / 100

def suggestedStop (proposal : TradeProposal F) : F :=
  match proposal.suggestedStopLossPct with
  | some suggested => if 0 < suggested then suggested else defaultStopLossPct
  | none => defaultStopLossPct

def getStopLossPct (proposal : TradeProposal F) : F :=
  match extractAtrPct proposal with
  | some atrPct => if 0 < atrPct then atrPct * atrStopMultiplier else suggestedStop proposal
  | none => suggestedStop proposal

/-- A positive ATR entry decides the stop. -/
theorem getStopLossPct_of_atr {proposal : TradeProposal F} {signal : TechnicalSignal F} {pct : F}
    (hproposal : proposal.signal.technicalSignal = some signal)
    (hmeta : signal.metadata.get? "atr_pct_of_price" = some (.float pct)) (hpct : 0 < pct) :
    getStopLossPct proposal = pct * atrStopMultiplier := by
  have hextract : extractAtrPct proposal = some pct := by simp [extractAtrPct, hproposal, hmeta]
  simp [getStopLossPct, hextract, hpct]

end Stop

/-- `MIN_STOP_LOSS_PCT`. -/
def minStopLossPct : ℚ := 5 / 1000

def calculate (z : PositionSizer) (portfolioValueUsd stopLossPct : ℚ) : ℚ :=
  let effectiveStop := max stopLossPct minStopLossPct
  let rawSize := z.riskPerTradePct * portfolioValueUsd / effectiveStop
  let maxFromPct := z.maxPositionPct * portfolioValueUsd
  let capped := min (min rawSize maxFromPct) z.maxOrderUsd
  max capped z.minOrderUsd

end PositionSizer

end MultiAgentTrading
