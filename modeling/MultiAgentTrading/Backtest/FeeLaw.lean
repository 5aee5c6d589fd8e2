import MultiAgentTrading.Execution.PaperBroker
import MultiAgentTrading.Backtest.Engine
import Mathlib.Tactic.Linarith

/-!
# Profits net of fees

The law that the paper broker and the backtest engine state for a round trip: the price difference on the side of the
position, less the entry fee and the exit fee.  The engine obeys it on every trade.  The broker obeys it on longs; a
short gets its cost back on closing, and the cost contains the entry fee, so `round_trip_net_of_fees_iff` has the law
for a short exactly when that fee truncates to nothing.
-/

namespace MultiAgentTrading

open PaperBroker

/-- The profit of a round trip net of both fees. -/
def netOfFees (side : OrderSide) (quantity entryPrice exitPrice entryFee exitFee : ℚ) : ℚ :=
  match side with
  | .buy => (exitPrice - entryPrice) * quantity - entryFee - exitFee
  | .sell => (entryPrice - exitPrice) * quantity - entryFee - exitFee

/-- Every trade of a backtest is net of both fees, charged at the configured rate on both notionals. -/
theorem engine_net_of_fees (candles : List OHLCVCandle) (config : BacktestConfig)
    (decide : CandleBuffer → ℕ → Option OrderSide) :
    ∀ t ∈ (Engine.runWithDecider candles config decide).trades,
      t.pnlUsd = netOfFees t.side t.quantity t.entryPrice t.exitPrice (config.feePct * (t.entryPrice * t.quantity))
        (config.feePct * (t.exitPrice * t.quantity)) := by
  intro t ht
  have h := Engine.trades_netOfFees candles config decide t ht
  unfold Engine.NetOfFees at h
  unfold netOfFees
  cases hs : t.side <;> rw [hs] at h <;> exact h

namespace PaperBroker

/-- What an opening order leaves: the equity unchanged, a well-formed position, and a result with its entry fee. -/
private theorem opened_spec {b b' : PaperBroker} {a : RiskAssessment ℚ} {refPrice : RefPrice} {choice : FillChoice}
    {resultId : ℕ} {pos : PaperPosition} {result : ExecutionResult}
    (h : b.fillOrder a refPrice choice resultId = .ok (.opened b' pos result)) :
    b'.totalEquity = b.totalEquity ∧ WellFormed pos ∧
      result.feeUsd = some (takerFee (pos.quantity * pos.entryPrice)) := by
  rcases fillOrder_cases h with ⟨c, hc, -⟩ | ⟨fill, hflat, hfill, -, hf⟩
  · cases hc
  · cases hf
    have hok := openingFill_spec refPrice.2 hfill
    refine ⟨?_, wellFormed_openedPosition hok, ?_⟩
    · rw [totalEquity_remember]
      exact totalEquity_open hflat (openedPosition a fill)
    · simp only [openedResult, openedPosition, hok.fee_eq, hok.notional_eq]

/-- What closing a well-formed position adds to the equity: the law for a long, and the entry fee on top of it for a
short. -/
private theorem closingFill_gain {pos : PaperPosition} (h : WellFormed pos) (refPrice : ℚ) :
    (closingFill pos refPrice).cashReturned - pos.costUsd =
      netOfFees pos.side pos.quantity pos.entryPrice (closingFill pos refPrice).exitPrice
        (takerFee (pos.quantity * pos.entryPrice)) (closingFill pos refPrice).fee +
      if pos.side = .sell then takerFee (pos.quantity * pos.entryPrice) else 0 := by
  have hcost := h.costUsd_eq
  unfold closingFill netOfFees
  cases hs : pos.side with
  | buy => dsimp only; rw [hcost]; simp; ring
  | sell => dsimp only; simp; ring

end PaperBroker

/-- A round trip of the paper broker nets both fees, and so do all trades of the engine, exactly when the position is
long or its notional is below ten dollars.  Between opening and closing the broker may do anything else. -/
theorem round_trip_net_of_fees_iff {b b₁ b₂ : PaperBroker} {a : RiskAssessment ℚ} {refPrice : RefPrice}
    {choice : FillChoice} {resultId : ℕ} {pos : PaperPosition} {opening : ExecutionResult}
    (hopen : b.fillOrder a refPrice choice resultId = .ok (.opened b₁ pos opening)) {exitRef : RefPrice}
    {proposalId assessmentId resultId' : ℕ} {c : Closed}
    (hclose : b₂.closeAt pos.symbol exitRef proposalId assessmentId resultId' = some c) (hpos : c.position = pos)
    (candles : List OHLCVCandle) (config : BacktestConfig) (decide : CandleBuffer → ℕ → Option OrderSide) :
    let net := netOfFees pos.side pos.quantity pos.entryPrice c.fill.exitPrice (opening.feeUsd.getD 0) c.fill.fee
    ((b₁.totalEquity - b.totalEquity) + (c.broker.totalEquity - b₂.totalEquity) = net ∧
      |c.result.realizedPnlUsd.getD 0 - net| ≤ 5 / 1000 ∧
      ∀ t ∈ (Engine.runWithDecider candles config decide).trades,
        t.pnlUsd = netOfFees t.side t.quantity t.entryPrice t.exitPrice (config.feePct * (t.entryPrice * t.quantity))
          (config.feePct * (t.exitPrice * t.quantity))) ↔
      pos.side = .buy ∨ pos.quantity * pos.entryPrice < 10 := by
  intro net
  obtain ⟨hequity, hwf, hfee⟩ := opened_spec hopen
  obtain ⟨-, hfill, -, -, -, -, -, -, -, hpnl⟩ := closeAt_spec hclose
  rw [hpos] at hfill
  have hgain := closingFill_gain hwf exitRef
  have hnotional : 0 ≤ pos.quantity * pos.entryPrice := mul_nonneg hwf.quantity_pos.le hwf.entryPrice_pos.le
  have hround := abs_realized_sub_le pos exitRef
  have hchange : (b₁.totalEquity - b.totalEquity) + (c.broker.totalEquity - b₂.totalEquity) =
      net + if pos.side = .sell then takerFee (pos.quantity * pos.entryPrice) else 0 := by
    rw [hequity, totalEquity_closeAt hclose, hpos, hfill]
    simp only [net, hfee, hfill, Option.getD_some]
    rw [← hgain]
    ring
  have hrealized : |c.result.realizedPnlUsd.getD 0 -
      (net + if pos.side = .sell then takerFee (pos.quantity * pos.entryPrice) else 0)| ≤ 5 / 1000 := by
    rw [hpnl, hfill, abs_sub_comm]
    simp only [net, hfee, hfill, Option.getD_some]
    rw [← hgain]
    exact hround
  constructor
  · rintro ⟨hlaw, -, -⟩
    by_cases hside : pos.side = .buy
    · exact .inl hside
    · right
      have hsell : pos.side = .sell := OrderSide.eq_opp_of_ne hside
      rw [hchange, if_pos hsell] at hlaw
      exact (takerFee_eq_zero_iff hnotional).1 (by linarith)
  · intro hcond
    have hextra : (if pos.side = .sell then takerFee (pos.quantity * pos.entryPrice) else 0) = 0 := by
      rcases hcond with hbuy | hsmall
      · rw [hbuy]; rfl
      · rw [(takerFee_eq_zero_iff hnotional).2 hsmall, ite_self]
    rw [hextra, add_zero] at hchange hrealized
    exact ⟨hchange, hrealized, engine_net_of_fees candles config decide⟩

/-- A short of a thousand dollars opened and closed at a reference price of 100. -/
def shortOrder : RiskAssessment ℚ := plainOrder 1 "BTC/USDT" .sell 1000 thousand_pos 100

def freshBroker : PaperBroker := .init defaultSettings

/-- Run an order and then a close on the same broker, and check something of the two. -/
private def checkRoundTrip (a : RiskAssessment ℚ) (refPrice exitRef : RefPrice)
    (P : PaperBroker → PaperPosition → ExecutionResult → Closed → Bool) : Bool :=
  match freshBroker.fillOrder a refPrice .full 1 with
  | .ok (.opened b₁ pos opening) =>
    match b₁.closeAt pos.symbol exitRef 2 3 4 with
    | some c => P b₁ pos opening c
    | none => false
  | _ => false

private theorem exists_of_checkRoundTrip {a : RiskAssessment ℚ} {refPrice exitRef : RefPrice}
    {P : PaperBroker → PaperPosition → ExecutionResult → Closed → Bool}
    (h : checkRoundTrip a refPrice exitRef P = true) :
    ∃ b₁ pos opening c, freshBroker.fillOrder a refPrice .full 1 = .ok (.opened b₁ pos opening) ∧
      b₁.closeAt pos.symbol exitRef 2 3 4 = some c ∧ P b₁ pos opening c = true := by
  unfold checkRoundTrip at h
  split at h
  case h_1 b₁ pos opening hopen =>
    split at h
    case h_1 c hc => exact ⟨b₁, pos, opening, c, hopen, hc, h⟩
    case h_2 => cases h
  case h_2 => cases h

def priceHundred : RefPrice := ⟨100, by norm_num⟩

/-- A short closed on the spot is reported almost a dollar too high: the entry fee comes back with the cost. -/
theorem round_trip_short_not_net : ∃ b₁ pos opening c,
    freshBroker.fillOrder shortOrder priceHundred .full 1 = .ok (.opened b₁ pos opening) ∧
      b₁.closeAt pos.symbol priceHundred 2 3 4 = some c ∧ c.position = pos ∧
      c.broker.totalEquity - freshBroker.totalEquity ≠
        netOfFees pos.side pos.quantity pos.entryPrice c.fill.exitPrice (opening.feeUsd.getD 0) c.fill.fee ∧
      9 / 10 < c.result.realizedPnlUsd.getD 0 -
        netOfFees pos.side pos.quantity pos.entryPrice c.fill.exitPrice (opening.feeUsd.getD 0) c.fill.fee := by
  obtain ⟨b₁, pos, opening, c, hopen, hclose, h⟩ := exists_of_checkRoundTrip
    (show checkRoundTrip shortOrder priceHundred priceHundred (fun _ pos opening c =>
      c.position = pos ∧
      c.broker.totalEquity - freshBroker.totalEquity ≠
        netOfFees pos.side pos.quantity pos.entryPrice c.fill.exitPrice (opening.feeUsd.getD 0) c.fill.fee ∧
      9 / 10 < c.result.realizedPnlUsd.getD 0 -
        netOfFees pos.side pos.quantity pos.entryPrice c.fill.exitPrice (opening.feeUsd.getD 0) c.fill.fee) = true
      by decide +kernel)
  exact ⟨b₁, pos, opening, c, hopen, hclose, of_decide_eq_true h⟩

theorem round_trip_net_of_fees_iff_long : ∃ b₁ pos opening c,
    freshBroker.fillOrder (plainOrder 1 "BTC/USDT" .buy 1000 thousand_pos 100) priceHundred .full 1 =
        .ok (.opened b₁ pos opening) ∧
      b₁.closeAt pos.symbol priceHundred 2 3 4 = some c ∧
      (b₁.totalEquity - freshBroker.totalEquity) + (c.broker.totalEquity - b₁.totalEquity) =
        netOfFees pos.side pos.quantity pos.entryPrice c.fill.exitPrice (opening.feeUsd.getD 0) c.fill.fee := by
  obtain ⟨b₁, pos, opening, c, hopen, hclose, h⟩ := exists_of_checkRoundTrip
    (show checkRoundTrip (plainOrder 1 "BTC/USDT" .buy 1000 thousand_pos 100) priceHundred priceHundred
      (fun _ pos _ c => c.position = pos ∧ pos.side = .buy) = true by decide +kernel)
  obtain ⟨hpos, hbuy⟩ := of_decide_eq_true h
  have hlaw := round_trip_net_of_fees_iff hopen hclose hpos [] {} (fun _ _ => none)
  exact ⟨b₁, pos, opening, c, hopen, hclose, (hlaw.2 (.inl hbuy)).1⟩

end MultiAgentTrading
