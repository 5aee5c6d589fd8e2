import MultiAgentTrading.Risk.Agent

/-!
# Bounds on approved sizes

An approved opening gets the size of the sizer or the size requested, whichever is smaller, so its bounds are those of
`PositionSizer.calculate`.  The sizer applies its floor after its caps: where the position cap is below the minimum
order the minimum order wins, and the approved size is above the cap.
-/

namespace MultiAgentTrading

namespace PositionSizer

/-- The floor is applied last. -/
theorem minOrderUsd_le_calculate (z : PositionSizer) (portfolioValueUsd stopLossPct : ℚ) :
    z.minOrderUsd ≤ z.calculate portfolioValueUsd stopLossPct := le_max_right _ _

theorem calculate_le_maxOrderUsd {z : PositionSizer} (h : z.minOrderUsd ≤ z.maxOrderUsd)
    (portfolioValueUsd stopLossPct : ℚ) : z.calculate portfolioValueUsd stopLossPct ≤ z.maxOrderUsd :=
  max_le (min_le_right _ _) h

/-- The position cap holds up to the floor. -/
theorem calculate_le_cap (z : PositionSizer) (portfolioValueUsd stopLossPct : ℚ) :
    z.calculate portfolioValueUsd stopLossPct ≤ max z.minOrderUsd (z.maxPositionPct * portfolioValueUsd) := by
  refine max_le (le_max_of_le_right ?_) (le_max_left _ _)
  exact (min_le_left _ _).trans (min_le_right _ _)

end PositionSizer

namespace RiskAgent

/-- The size of an opening: what the sizer allows, and never more than was requested. -/
def openingSize (risk : RiskSettings) (a : RiskAgent) (p : TradeProposal ℚ) : ℚ :=
  min p.requestedSizeUsd
    ((sizer risk).calculate a.drawdown.state.portfolioValueUsd (PositionSizer.getStopLossPct p))

private theorem evaluateFlat_size {risk : RiskSettings} {a : RiskAgent} {p : TradeProposal ℚ} {assessmentId : ℕ}
    {snap : Snapshot} (h : (evaluateFlat risk a p assessmentId snap).assessment.isApproved = true) :
    (evaluateFlat risk a p assessmentId snap).assessment.approvedSizeUsd =
      some (min p.requestedSizeUsd
        ((sizer risk).calculate snap.portfolioValue (PositionSizer.getStopLossPct p))) := by
  unfold evaluateFlat at h ⊢
  split at h
  case isTrue => cases h
  case isFalse hcount =>
    rw [if_neg hcount]
    dsimp only at h ⊢
    split at h
    case isTrue => cases h
    case isFalse hmin =>
      rw [if_neg hmin, min_def]
      rfl

/-- What `evaluate` approves for a flat symbol has the size of an opening. -/
theorem approvedSizeUsd_of_flat {risk : RiskSettings} {a : RiskAgent} {p : TradeProposal ℚ} {assessmentId : ℕ}
    {resetTime ageTime : ℚ} (hflat : a.drawdown.positionSide p.symbol = none)
    (h : (evaluate risk a p assessmentId resetTime ageTime).assessment.isApproved = true) :
    (evaluate risk a p assessmentId resetTime ageTime).assessment.approvedSizeUsd =
      some (openingSize risk a p) := by
  have hside : (a.drawdown.maybeResetDaily resetTime).positionSide p.symbol = none := by
    rw [DrawdownMonitor.positionSide_eq] at hflat ⊢
    rwa [DrawdownMonitor.held_maybeResetDaily]
  unfold evaluate at h ⊢
  dsimp only at h ⊢
  -- checks 1 to 4 reject
  split at h
  case isTrue => cases h
  case isFalse hbreaker =>
    split at h
    case isTrue => cases h
    case isFalse hhalted =>
      split at h
      case isTrue => cases h
      case isFalse hdaily =>
        split at h
        case isTrue => cases h
        case isFalse hdrawdown =>
          rw [if_neg hbreaker, if_neg hhalted, if_neg hdaily, if_neg hdrawdown]
          unfold evaluatePosition at h ⊢
          dsimp only [DrawdownMonitor.dailyLossLimitBreached] at h ⊢
          -- check 5 rejects, and check 6 finds the symbol flat
          split at h
          case isTrue => cases h
          case isFalse hfresh =>
            rw [if_neg hfresh]
            rw [hside] at h ⊢
            exact evaluateFlat_size h

end RiskAgent

/-- Bounds on the size of an approved opening: it is at most the size requested, the maximum order, and the larger of
position cap and minimum order; and it is no smaller than the minimum order if the request was not. -/
theorem approved_size_bounds {risk : RiskSettings}
    (hsizes : 0 < risk.minOrderSizeUsd ∧ risk.minOrderSizeUsd ≤ risk.maxOrderSizeUsd) {a : RiskAgent}
    {p : TradeProposal ℚ} {assessmentId : ℕ} {resetTime ageTime : ℚ}
    (hflat : a.drawdown.positionSide p.symbol = none)
    (happroved : (a.evaluate risk p assessmentId resetTime ageTime).assessment.isApproved = true) :
    ∃ size, (a.evaluate risk p assessmentId resetTime ageTime).assessment.approvedSizeUsd = some size ∧
      size ≤ p.requestedSizeUsd ∧ size ≤ risk.maxOrderSizeUsd ∧
      size ≤ max risk.minOrderSizeUsd (risk.maxPositionPct * a.drawdown.state.portfolioValueUsd) ∧
      (risk.minOrderSizeUsd ≤ p.requestedSizeUsd → risk.minOrderSizeUsd ≤ size) := by
  have hsize := RiskAgent.approvedSizeUsd_of_flat hflat happroved
  refine ⟨RiskAgent.openingSize risk a p, hsize, min_le_left _ _, ?_, ?_, ?_⟩
  · exact (min_le_right _ _).trans (PositionSizer.calculate_le_maxOrderUsd (z := RiskAgent.sizer risk) hsizes.2 _ _)
  · exact (min_le_right _ _).trans (PositionSizer.calculate_le_cap (RiskAgent.sizer risk) _ _)
  · intro hrequested
    exact le_min hrequested (PositionSizer.minOrderUsd_le_calculate (RiskAgent.sizer risk) _ _)

/-- A buy of 200 dollars. -/
def buyProposal : TradeProposal ℚ := plainProposal 1 "BTC/USDT" .buy 200 two_hundred_pos 100 0 .empty

theorem approved_size_bounds_default :
    ∃ size,
      ((RiskAgent.init defaultSettings 0).evaluate defaultSettings.risk buyProposal 1 0 0).assessment.approvedSizeUsd =
        some size ∧ size ≤ 200 ∧ 10 ≤ size := by
  have happroved :
      ((RiskAgent.init defaultSettings 0).evaluate defaultSettings.risk buyProposal 1 0 0).assessment.isApproved =
        true := by
    decide +kernel
  obtain ⟨size, hsize, hrequested, -, -, hmin⟩ :=
    approved_size_bounds (by decide +kernel) (by decide +kernel) happroved
  exact ⟨size, hsize, hrequested, hmin (by decide +kernel)⟩

/-- A portfolio of 100 dollars, whose position cap of 2% is below the minimum order. -/
def tinyPortfolio : Settings := { defaultSettings with paperInitialBalanceUsd := 100 }

/-- On a tiny portfolio an opening of ten dollars is approved although the cap is two dollars. -/
theorem approved_size_exceeds_cap :
    let a := RiskAgent.init tinyPortfolio 0
    let assessment := (a.evaluate tinyPortfolio.risk buyProposal 1 0 0).assessment
    (0 < tinyPortfolio.risk.minOrderSizeUsd ∧ tinyPortfolio.risk.minOrderSizeUsd ≤ tinyPortfolio.risk.maxOrderSizeUsd) ∧
      a.drawdown.positionSide buyProposal.symbol = none ∧ assessment.decision = .modified ∧
      assessment.approvedSizeUsd = some 10 ∧
      ¬(10 : ℚ) ≤ min buyProposal.requestedSizeUsd
        (min tinyPortfolio.risk.maxOrderSizeUsd
          (tinyPortfolio.risk.maxPositionPct * a.drawdown.state.portfolioValueUsd)) := by
  decide +kernel

end MultiAgentTrading
