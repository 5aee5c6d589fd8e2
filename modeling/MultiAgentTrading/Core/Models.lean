import Mathlib.Algebra.Order.Field.Basic
import Mathlib.Data.Rat.Defs
import Mathlib.Algebra.Order.Ring.Rat
import Mathlib.Tactic.NormNum
import MultiAgentTrading.Lib.Dict

/-!
# Messages

The messages the agents exchange: technical and aggregated signals, trade proposals, risk assessments and execution
results.  `Decimal` amounts are rationals; the floats of a signal live in an ordered field `F`.  Times are seconds
since the epoch and identifiers are numbers.  Bounds that the models check on construction are fields.
-/

namespace MultiAgentTrading

inductive OrderSide | buy | sell
  deriving DecidableEq, Repr

/-- The side that closes a position opened on `d`. -/
def OrderSide.opp : OrderSide → OrderSide
  | .buy => .sell
  | .sell => .buy

@[simp] theorem OrderSide.opp_opp (d : OrderSide) : d.opp.opp = d := by cases d <;> rfl

@[simp] theorem OrderSide.opp_ne (d : OrderSide) : d.opp ≠ d := by cases d <;> decide

@[simp] theorem OrderSide.ne_opp (d : OrderSide) : d ≠ d.opp := by cases d <;> decide

theorem OrderSide.eq_opp_of_ne {d e : OrderSide} (h : d ≠ e) : d = e.opp := by
  cases d <;> cases e <;> first | rfl | exact absurd rfl h

inductive OrderType | market | limit | stopLoss | takeProfit
  deriving DecidableEq, Repr

inductive OrderStatus | pending | open | partiallyFilled | filled | cancelled | rejected | expired
  deriving DecidableEq, Repr

inductive RiskDecision | approved | modified | rejected
  deriving DecidableEq, Repr

inductive RejectionReason
  | maxPositionSize | maxOpenPositions | dailyLossLimit | totalDrawdownLimit | staleMarketData | lowConfidence
  | symbolNotWhitelisted | orderSizeTooSmall | orderSizeTooLarge | circuitBreakerActive | insufficientBalance
  | duplicateSignal
  deriving DecidableEq, Repr

inductive SignalDirection | strongBuy | buy | neutral | sell | strongSell
  deriving DecidableEq, Repr

inductive IndicatorName | rsi | macd | bollingerBands | emaCross | volume
  deriving DecidableEq, Repr

/-- A value of a metadata dictionary: `None`, a float, or another value with what `float()` makes of it. -/
inductive MetaValue (F : Type)
  | none
  | float (x : F)
  | other (asFloat : Option F)
  deriving DecidableEq

section Signals

variable (F : Type) [Field F] [LinearOrder F]

structure IndicatorReading where
  name : IndicatorName
  value : F
  signal : SignalDirection
  weight : F
  metadata : Dict String (MetaValue F) := .empty
  weight_mem : 0 ≤ weight ∧ weight ≤ 1
  deriving DecidableEq

structure TechnicalSignal where
  signalId : ℕ
  symbol : String
  timeframe : String
  timestamp : ℚ
  expiresAt : ℚ
  direction : SignalDirection
  confidence : F
  indicators : List (IndicatorReading F) := []
  price : F
  metadata : Dict String (MetaValue F) := .empty
  confidence_mem : 0 ≤ confidence ∧ confidence ≤ 1
  deriving DecidableEq

structure SentimentSignal where
  signalId : ℕ
  symbol : String
  timestamp : ℚ
  expiresAt : ℚ
  direction : SignalDirection
  confidence : F
  confidence_mem : 0 ≤ confidence ∧ confidence ≤ 1
  deriving DecidableEq

/-- The fused signal of the decision agent; of its parts only the technical one is read downstream. -/
structure AggregatedSignal where
  symbol : String
  direction : SignalDirection
  confidence : F
  compositeScore : F
  technicalSignal : Option (TechnicalSignal F) := none
  sentimentSignal : Option (SentimentSignal F) := none
  technicalWeight : F := 7 / 10
  sentimentWeight : F := 3 / 10
  totalSignals : ℕ := 0
  signalsDiscarded : ℕ := 0
  confidence_mem : 0 ≤ confidence ∧ confidence ≤ 1
  compositeScore_mem : -1 ≤ compositeScore ∧ compositeScore ≤ 1
  deriving DecidableEq

structure TradeProposal where
  proposalId : ℕ
  symbol : String
  side : OrderSide
  orderType : OrderType := .market
  requestedSizeUsd : ℚ
  suggestedStopLossPct : Option F := some (2 / 100)
  suggestedTakeProfitPct : Option F := some (4 / 100)
  signal : AggregatedSignal F
  requestedSizeUsd_pos : 0 < requestedSizeUsd
  deriving DecidableEq

/-- The reason of an emergency halt, with the two percentages its text interpolates. -/
inductive HaltReason
  | dailyLossBreached (pct limit : F)
  | totalDrawdownBreached (pct limit : F)
  deriving DecidableEq

/-- The text of a rejection: each constructor carries the values its text interpolates. -/
inductive RejectionDetail
  | breakerTripped (reason : Option (HaltReason F))
  | tradingHalted
  | dailyLossExceeds (pct : F)
  | totalDrawdownExceeds (pct : F)
  | signalIsOld (age : F) (limit : ℤ)
  | alreadyOpen (symbol : String) (side : OrderSide)
  | maxOpenPositionsReached (count : ℕ) (limit : ℤ)
  | approvedSizeBelow (size minimum : ℚ)
  deriving DecidableEq

structure RiskAssessment where
  assessmentId : ℕ
  proposalId : ℕ
  decision : RiskDecision
  rejectionReason : Option RejectionReason := none
  rejectionDetail : Option (RejectionDetail F) := none
  approvedSizeUsd : Option ℚ := none
  approvedQuantity : Option ℚ := none
  approvedStopLossPct : Option F := none
  approvedTakeProfitPct : Option F := none
  portfolioValueUsd : Option ℚ := none
  currentDailyLossPct : Option F := none
  openPositionsCount : ℕ := 0
  originalProposal : TradeProposal F
  deriving DecidableEq

variable {F}

def RiskAssessment.isApproved (a : RiskAssessment F) : Bool := a.decision = .approved ∨ a.decision = .modified

/-- Approved without a stop: how the risk agent approves a close, see `RiskAgent.isClose_evaluate_iff`. -/
def RiskAssessment.isClose (a : RiskAssessment F) : Bool := a.isApproved && a.approvedStopLossPct.isNone

/-- `approved_size_usd or requested_size_usd`: a zero approved size counts as none. -/
def RiskAssessment.effectiveSizeUsd (a : RiskAssessment F) : ℚ :=
  match a.approvedSizeUsd with
  | some s => if s = 0 then a.originalProposal.requestedSizeUsd else s
  | none => a.originalProposal.requestedSizeUsd

end Signals

/-- A plain market proposal on a technical signal given at `time` with the given price and metadata. -/
def plainProposal (proposalId : ℕ) (symbol : String) (side : OrderSide) (sizeUsd : ℚ) (hsize : 0 < sizeUsd)
    (price time : ℚ) (metadata : Dict String (MetaValue ℚ)) : TradeProposal ℚ where
  proposalId := proposalId
  symbol := symbol
  side := side
  requestedSizeUsd := sizeUsd
  requestedSizeUsd_pos := hsize
  signal :=
    { symbol := symbol
      direction := if side = .buy then .buy else .sell
      confidence := 1
      compositeScore := 0
      confidence_mem := by norm_num
      compositeScore_mem := by norm_num
      technicalSignal := some
        { signalId := proposalId
          symbol := symbol
          timeframe := "1m"
          timestamp := time
          expiresAt := time + 300
          direction := if side = .buy then .buy else .sell
          confidence := 1
          price := price
          metadata := metadata
          confidence_mem := by norm_num } }

/-! The order sizes of the examples. -/

theorem two_hundred_pos : (0 : ℚ) < 200 := by norm_num

theorem thousand_pos : (0 : ℚ) < 1000 := by norm_num

/-- The emergency halt that the risk agent broadcasts. -/
structure RiskOverride (F : Type) where
  reason : HaltReason F
  triggeredBy : String
  dailyLossPct : Option F := none
  totalDrawdownPct : Option F := none
  requiresHumanReset : Bool := true
  deriving DecidableEq

structure ExecutionResult where
  resultId : ℕ
  proposalId : ℕ
  assessmentId : ℕ
  exchangeOrderId : Option String := none
  symbol : String
  side : OrderSide
  orderType : OrderType
  status : OrderStatus
  requestedQuantity : ℚ
  filledQuantity : ℚ := 0
  averageFillPrice : Option ℚ := none
  totalCostUsd : Option ℚ := none
  feeUsd : Option ℚ := none
  feeCurrency : Option String := none
  realizedPnlUsd : Option ℚ := none
  isPaper : Bool
  deriving DecidableEq

end MultiAgentTrading
