import MultiAgentTrading.Execution.PaperBroker

/-!
# The bounds of an opening fill

What an order that opens a position may fill, cost and charge: every truncation goes down, so each of the three errors
is on the side of the account.
-/

namespace MultiAgentTrading

open PaperBroker Rounding

namespace PaperBroker

/-- The reference price moved by the slippage, before it is truncated. -/
def slippedExactly (side : OrderSide) (refPrice : ℚ) : ℚ :=
  match side with
  | .buy => refPrice * (1 + slippagePct)
  | .sell => refPrice * (1 - slippagePct)

theorem qtyPlaces_pos : 0 < qtyPlaces := by norm_num [qtyPlaces]

theorem cent_pos : 0 < cent := by norm_num [cent]

theorem slipped_eq (side : OrderSide) (refPrice : ℚ) :
    slipped side refPrice = quantizeDown qtyPlaces (slippedExactly side refPrice) := by
  cases side <;> rfl

theorem slippedExactly_pos {refPrice : ℚ} (h : 0 < refPrice) (side : OrderSide) :
    0 < slippedExactly side refPrice := by
  cases side with
  | buy => exact mul_pos h (by norm_num [slippagePct])
  | sell => exact mul_pos h (by norm_num [slippagePct])

/-- A fill price is the slipped price less what the truncation loses. -/
theorem slipped_bounds {refPrice : ℚ} (h : 0 < refPrice) (side : OrderSide) :
    slippedExactly side refPrice - qtyPlaces < slipped side refPrice ∧
      slipped side refPrice ≤ slippedExactly side refPrice := by
  have hpos := (slippedExactly_pos h side).le
  rw [slipped_eq]
  exact ⟨sub_lt_iff_lt_add.2 (lt_quantizeDown_add qtyPlaces_pos hpos), quantizeDown_le qtyPlaces_pos hpos⟩

theorem takerFee_bounds {notional : ℚ} (h : 0 ≤ notional) :
    0 ≤ takerFee notional ∧ takerFee notional ≤ takerFeePct * notional := by
  have hfee : 0 ≤ notional * takerFeePct := mul_nonneg h (by norm_num [takerFeePct])
  refine ⟨quantizeDown_nonneg cent_pos hfee, ?_⟩
  rw [mul_comm takerFeePct]
  exact quantizeDown_le cent_pos hfee

/-- A partial fill is smaller than what was requested, a full one is not. -/
theorem chosenQty_bounds {requestedQty : ℚ} (h : 0 < requestedQty) (choice : FillChoice) :
    (chosenQty requestedQty choice).1 ≤ requestedQty ∧
      ((chosenQty requestedQty choice).2 = .partiallyFilled ↔ (chosenQty requestedQty choice).1 < requestedQty) := by
  have hfull : requestedQty ≤ requestedQty ∧ (OrderStatus.filled = .partiallyFilled ↔ requestedQty < requestedQty) :=
    ⟨le_rfl, iff_of_false (by decide) (lt_irrefl _)⟩
  unfold chosenQty
  cases choice with
  | full =>
    dsimp only
    split <;> exact hfull
  | part ratio hratio =>
    have hproduct : 0 ≤ requestedQty * ratio := mul_nonneg h.le (le_trans (by norm_num) hratio.1)
    have hless : quantizeDown qtyPlaces (requestedQty * ratio) < requestedQty :=
      calc quantizeDown qtyPlaces (requestedQty * ratio) ≤ requestedQty * ratio :=
            quantizeDown_le qtyPlaces_pos hproduct
        _ < requestedQty := mul_lt_of_lt_one_right h (lt_of_le_of_lt hratio.2 (by norm_num))
    dsimp only
    split
    case isTrue => exact hfull
    case isFalse => exact ⟨hless.le, iff_of_true rfl hless⟩

/-- The numbers of an opening against the size that was approved for it. -/
structure FillBounded (a : RiskAssessment ℚ) (fill : OpeningFill) : Prop where
  fillQty_le : fill.fillQty ≤ fill.requestedQty
  status_iff : fill.status = .partiallyFilled ↔ fill.fillQty < fill.requestedQty
  notional_le : fill.fillQty * fill.fillPrice ≤ a.effectiveSizeUsd

theorem fillBounded_openingFill {a : RiskAssessment ℚ} {refPrice : ℚ} {choice : FillChoice} {fill : OpeningFill}
    (href : 0 < refPrice) (h : openingFill a refPrice choice = .ok fill) : FillBounded a fill := by
  have hprice := (openingFill_spec href h).fillPrice_pos
  unfold openingFill at h
  dsimp only at h
  split at h
  case isTrue => cases h
  case isFalse hsize =>
    split at h
    case isTrue => cases h
    case isFalse =>
      split at h
      case isTrue => cases h
      case isFalse hqty =>
        cases h
        obtain ⟨hle, hstatus⟩ := chosenQty_bounds (not_le.1 hqty) choice
        refine ⟨hle, hstatus, ?_⟩
        -- the truncated quotient times the price is no more than the size
        have hquotient := quantizeDown_le qtyPlaces_pos (div_nonneg (not_le.1 hsize).le hprice.le)
        exact (le_div_iff₀ hprice).1 (hle.trans hquotient)

end PaperBroker

/-- What the answer to an opening order says, against the order and the account before and after it. -/
structure OpenedWithinBounds (b b' : PaperBroker) (a : RiskAssessment ℚ) (refPrice : ℚ) (position : PaperPosition)
    (result : ExecutionResult) (fillPrice notional fee : ℚ) : Prop where
  averageFillPrice : result.averageFillPrice = some fillPrice
  totalCostUsd : result.totalCostUsd = some notional
  feeUsd : result.feeUsd = some fee
  filled_pos : 0 < result.filledQuantity
  filled_le : result.filledQuantity ≤ result.requestedQuantity
  worth_le : result.filledQuantity * fillPrice ≤ a.effectiveSizeUsd
  partial_iff : result.status = .partiallyFilled ↔ result.filledQuantity < result.requestedQuantity
  cash : b'.cashBalance = b.cashBalance - (notional + fee)
  held : b'.positions.get? a.originalProposal.symbol = some position
  cost : position.costUsd = notional + fee
  fee_nonneg : 0 ≤ fee
  fee_le : fee ≤ takerFeePct * notional
  price_gt : slippedExactly a.originalProposal.side refPrice - qtyPlaces < fillPrice
  price_le : fillPrice ≤ slippedExactly a.originalProposal.side refPrice

/-- An order that opens a position keeps within its bounds, whatever it fills of it. -/
theorem fillOrder_opened_bounds {b b' : PaperBroker} {a : RiskAssessment ℚ} {refPrice : RefPrice}
    {choice : FillChoice} {resultId : ℕ} {position : PaperPosition} {result : ExecutionResult}
    (h : b.fillOrder a refPrice choice resultId = .ok (.opened b' position result)) :
    ∃ fillPrice notional fee, OpenedWithinBounds b b' a refPrice position result fillPrice notional fee := by
  rcases fillOrder_cases h with ⟨c, hc, -⟩ | ⟨fill, -, hfill, -, hopened⟩
  · cases hc
  · cases hopened
    have hok := openingFill_spec refPrice.2 hfill
    have hbounded := fillBounded_openingFill refPrice.2 hfill
    have hnotional : 0 ≤ fill.notional := by
      rw [hok.notional_eq]
      exact mul_nonneg hok.fillQty_pos.le hok.fillPrice_pos.le
    obtain ⟨hfee, hfee'⟩ := takerFee_bounds hnotional
    obtain ⟨hlow, hhigh⟩ := slipped_bounds refPrice.2 a.originalProposal.side
    rw [← hok.fee_eq] at hfee hfee'
    rw [← hok.fillPrice_eq] at hlow hhigh
    refine ⟨fill.fillPrice, fill.notional, fill.fee, ?_⟩
    exact
      { averageFillPrice := rfl
        totalCostUsd := rfl
        feeUsd := rfl
        filled_pos := hok.fillQty_pos
        filled_le := hbounded.fillQty_le
        worth_le := hbounded.notional_le
        partial_iff := hbounded.status_iff
        cash := by rw [← hok.totalCost_eq]; rfl
        held := Dict.get?_set_self _ _ _
        cost := hok.totalCost_eq
        fee_nonneg := hfee
        fee_le := hfee'
        price_gt := hlow
        price_le := hhigh }

/-! ### An order that opens a position -/

/-- The order opens a position. -/
def opensPosition : Except BrokerError Filled → Bool
  | .ok (.opened _ _ _) => true
  | .ok (.closed _) => false
  | .error _ => false

theorem exists_of_opensPosition {filled : Except BrokerError Filled} (h : opensPosition filled = true) :
    ∃ b' position result, filled = .ok (.opened b' position result) := by
  cases filled with
  | error err => cases h
  | ok f =>
    cases f with
    | opened b' position result => exact ⟨b', position, result, rfl⟩
    | closed c => cases h

/-- An order of a thousand dollars at a price of two hundred. -/
def exampleOrder : RiskAssessment ℚ := plainOrder 1 "BTC/USDT" .buy 1000 thousand_pos 200

def exampleRefPrice : RefPrice := ⟨200, two_hundred_pos⟩

theorem fillOrder_opened_bounds_example :
    ∃ b' position result fillPrice notional fee,
      OpenedWithinBounds (.init defaultSettings) b' exampleOrder exampleRefPrice position result fillPrice notional
        fee := by
  have hopens : opensPosition ((PaperBroker.init defaultSettings).fillOrder exampleOrder exampleRefPrice .full 7) =
      true := by decide +kernel
  obtain ⟨b', position, result, h⟩ := exists_of_opensPosition hopens
  exact ⟨b', position, result, fillOrder_opened_bounds h⟩

end MultiAgentTrading
