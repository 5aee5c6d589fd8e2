import MultiAgentTrading.Mt5.Bridge
import MultiAgentTrading.Risk.Agent
import Mathlib.Tactic.LinearCombination

/-!
# Live results in the ledger

The two ways in which the bridge closes a position, an order on the opposite side and `close_position`, and what the
ledger makes of the results.  The ledger takes the profit of a closing fill from `realized_pnl_usd`, which the bridge
never sets: the portfolio value does not move, so it is right only for a close at the price of the opening.
-/

namespace MultiAgentTrading

/-- The sign of the profit of a rising price. -/
def OrderSide.direction : OrderSide → ℚ
  | .buy => 1
  | .sell => -1

namespace Mt5

def sideText : OrderSide → String
  | .buy => "buy"
  | .sell => "sell"

private theorem ofText_sideText (d : OrderSide) :
    (if sideText d = "buy" then OrderSide.buy else .sell) = d := by
  cases d <;> decide

/-! ### Closing by the expert advisor -/

/-- A position of the terminal. -/
structure TerminalPosition where
  symbol : String
  magic : ℕ
  side : OrderSide
  volume : ℚ
  deriving DecidableEq

/-- The fields of the reply to a CLOSE_POSITION command. -/
structure CloseReply extends EaReply where
  side : Option String := none

/-- The position that a CLOSE_POSITION command closes: the last one of the symbol, and of the magic number if that is
given. -/
def closeTarget (positions : List TerminalPosition) (symbol : String) (magic : ℕ) : Option TerminalPosition :=
  positions.reverse.find? fun pos => pos.symbol = symbol ∧ (magic = 0 ∨ pos.magic = magic)

/-- `HandleClosePosition`. -/
def handleClosePosition (positions : List TerminalPosition) (symbol : String) (magic : ℕ) (send : SendReply) :
    CloseReply :=
  if symbol = "" then { buildError "symbol missing" 0 with }
  else
    match closeTarget positions symbol magic with
    | none => { buildError ("No open position for symbol: " ++ symbol) 0 with }
    | some pos =>
      if send.ok = false ∨ send.retcode ≠ tradeRetcodeDone then { buildError send.comment send.retcode with }
      else
        { status := .ok
          orderId := some send.order
          side := some (sideText pos.side.opp)
          fillPrice := some send.price
          fillQuantity := some send.volume }

/-! ### Closing by the bridge -/

/-- `_MAGIC_NUMBER`. -/
def magicNumber : ℕ := 20250101

/-- The second half of `close_position`: a reply that is no error becomes a result under fresh ids. -/
def closePositionResult (symbol : String) (resultId proposalId assessmentId : ℕ) (reply : CloseReply) :
    Option ExecutionResult :=
  if reply.status = .error then none
  else
    let fillQty := reply.fillQuantity.getD 0
    let fillPrice := reply.fillPrice.getD 0
    let rawSide := reply.side.getD "sell"
    some
      { resultId := resultId
        proposalId := proposalId
        assessmentId := assessmentId
        exchangeOrderId := some (reply.orderId.getD "")
        symbol := symbol
        side := if rawSide = "buy" then .buy else .sell
        orderType := .market
        status := if 0 < fillQty then .filled else .rejected
        requestedQuantity := fillQty
        filledQuantity := fillQty
        averageFillPrice := if 0 < fillPrice then some fillPrice else none
        totalCostUsd := if 0 < fillPrice then some (fillQty * fillPrice) else none
        isPaper := false }

/-- The result of closing all of what `opening` has opened: by an order on the opposite side, or by `close_position`
on a position that the terminal holds on the side of the opening. -/
inductive FullClose (opening : ExecutionResult) : ExecutionResult → Prop
  | order (a : RiskAssessment ℚ) (volume : ℚ) (resultId : ℕ) (reply : EaReply) (closing : ExecutionResult)
      (hsymbol : a.originalProposal.symbol = opening.symbol) (hside : a.originalProposal.side = opening.side.opp)
      (hok : reply.status = .ok) (hresult : placeOrderResult a volume resultId reply = .ok closing)
      (hqty : closing.filledQuantity = opening.filledQuantity) : FullClose opening closing
  | position (positions : List TerminalPosition) (mt5Symbol : String) (pos : TerminalPosition) (send : SendReply)
      (resultId proposalId assessmentId : ℕ) (closing : ExecutionResult)
      (htarget : closeTarget positions mt5Symbol magicNumber = some pos) (hside : pos.side = opening.side)
      (hok : (handleClosePosition positions mt5Symbol magicNumber send).status = .ok)
      (hresult : closePositionResult opening.symbol resultId proposalId assessmentId
        (handleClosePosition positions mt5Symbol magicNumber send) = some closing)
      (hqty : closing.filledQuantity = opening.filledQuantity) : FullClose opening closing

/-! ### What a result of the bridge says -/

theorem realizedPnlUsd_placeOrderResult {a : RiskAssessment ℚ} {volume : ℚ} {resultId : ℕ} {reply : EaReply}
    {result : ExecutionResult} (h : placeOrderResult a volume resultId reply = .ok result) :
    result.realizedPnlUsd = none := by
  unfold placeOrderResult at h
  split at h
  case isTrue => cases h
  case isFalse => cases h; rfl

theorem realizedPnlUsd_closePositionResult {symbol : String} {resultId proposalId assessmentId : ℕ}
    {reply : CloseReply} {result : ExecutionResult}
    (h : closePositionResult symbol resultId proposalId assessmentId reply = some result) :
    result.realizedPnlUsd = none := by
  unfold closePositionResult at h
  split at h
  case isTrue => cases h
  case isFalse => cases h; rfl

private theorem side_handleClosePosition {positions : List TerminalPosition} {symbol : String} {magic : ℕ}
    {pos : TerminalPosition} {send : SendReply} (htarget : closeTarget positions symbol magic = some pos)
    (hok : (handleClosePosition positions symbol magic send).status = .ok) :
    (handleClosePosition positions symbol magic send).side = some (sideText pos.side.opp) := by
  unfold handleClosePosition at hok ⊢
  rw [htarget] at hok ⊢
  dsimp only at hok ⊢
  split at hok
  case isTrue => cases hok
  case isFalse hsymbol =>
    rw [if_neg hsymbol]
    split at hok
    case isTrue => cases hok
    case isFalse hsend => rw [if_neg hsend]

/-- A full close is a fill of the same symbol on the other side that reports no profit. -/
theorem FullClose.spec {opening closing : ExecutionResult} (h : FullClose opening closing)
    (hqty : 0 < opening.filledQuantity) :
    closing.symbol = opening.symbol ∧ closing.side = opening.side.opp ∧ RiskAgent.isFill closing = true ∧
      closing.realizedPnlUsd = none := by
  cases h with
  | order a volume resultId reply closing hsymbol hside hok hresult hfull =>
    have hpnl := realizedPnlUsd_placeOrderResult hresult
    unfold placeOrderResult at hresult
    rw [hok, if_neg (by decide)] at hresult
    cases hresult
    refine ⟨hsymbol, hside, ?_, hpnl⟩
    simp only [RiskAgent.isFill] at hfull ⊢
    rw [hfull]
    split <;> simp [hqty]
  | position positions mt5Symbol pos send resultId proposalId assessmentId closing htarget hside hok hresult hfull =>
    have hpnl := realizedPnlUsd_closePositionResult hresult
    have hreply := side_handleClosePosition htarget hok
    unfold closePositionResult at hresult
    rw [hok, if_neg (by decide), hreply, hside] at hresult
    cases hresult
    refine ⟨rfl, ofText_sideText opening.side.opp, ?_, hpnl⟩
    · simp only [RiskAgent.isFill] at hfull ⊢
      rw [hfull]
      simp [hqty]

/-- A result without profit leaves the portfolio value alone, whatever the ledger holds. -/
private theorem portfolioValueUsd_of_noPnl {result : ExecutionResult} (h : result.realizedPnlUsd = none)
    (a : RiskAgent) :
    (a.applyExecutionResult result).2.drawdown.state.portfolioValueUsd = a.drawdown.state.portfolioValueUsd := by
  rw [RiskAgent.portfolioValueUsd_applyExecutionResult, h]
  simp

private theorem applyExecutionResult_closed {a : RiskAgent} {result : ExecutionResult} {d : OrderSide}
    (hheld : a.drawdown.positionSide result.symbol = some d) (hside : result.side = d.opp)
    (hfill : RiskAgent.isFill result = true) (hseen : a.seenResults.contains result.resultId = false) :
    (a.applyExecutionResult result).1 = .closed := by
  unfold RiskAgent.applyExecutionResult RiskAgent.settle
  rw [hseen, hheld, hfill, hside]
  simp

def fillPrice (result : ExecutionResult) : ℚ := result.averageFillPrice.getD 0

/-- How much applying a result moves the portfolio value of a ledger. -/
def valueChange (a : RiskAgent) (result : ExecutionResult) : ℚ :=
  (a.applyExecutionResult result).2.drawdown.state.portfolioValueUsd - a.drawdown.state.portfolioValueUsd

end Mt5

open Mt5

/-- Live losses reach the ledger only when there are none: applying an opening fill of the bridge and its full close,
to any two states of the ledger, moves the portfolio value by the profit exactly when the two prices are equal, although
the ledger takes the second fill for a close. -/
theorem live_loss_reaches_ledger_iff {order : RiskAssessment ℚ} {volume : ℚ} {resultId : ℕ} {reply : EaReply}
    {opening closing : ExecutionResult} (hopen : placeOrderResult order volume resultId reply = .ok opening)
    (hqty : 0 < opening.filledQuantity) (hclose : FullClose opening closing) {a₁ a₂ : RiskAgent}
    (hheld : a₂.drawdown.positionSide opening.symbol = some opening.side)
    (hseen : a₂.seenResults.contains closing.resultId = false) :
    (a₂.applyExecutionResult closing).1 = .closed ∧
      (valueChange a₁ opening + valueChange a₂ closing =
          opening.side.direction * (fillPrice closing - fillPrice opening) * opening.filledQuantity ↔
        fillPrice opening = fillPrice closing) := by
  obtain ⟨hsymbol, hside, hfill, hpnl⟩ := hclose.spec hqty
  refine ⟨applyExecutionResult_closed (by rw [hsymbol]; exact hheld) hside hfill hseen, ?_⟩
  have hzero : valueChange a₁ opening + valueChange a₂ closing = 0 := by
    unfold valueChange
    rw [portfolioValueUsd_of_noPnl (realizedPnlUsd_placeOrderResult hopen), portfolioValueUsd_of_noPnl hpnl]
    ring
  have hdirection : opening.side.direction ≠ 0 := by cases opening.side <;> simp [OrderSide.direction]
  rw [hzero]
  constructor
  · intro h
    rcases mul_eq_zero.1 h.symm with hprod | hq
    · rcases mul_eq_zero.1 hprod with hd | hp
      · exact absurd hd hdirection
      · exact (sub_eq_zero.1 hp).symm
    · exact absurd hq hqty.ne'
  · intro hp
    rw [hp]
    ring

/-- An approved buy for one lot. -/
def lotOrder : RiskAssessment ℚ :=
  { PaperBroker.plainOrder 1 "BTC/USDT" .buy 200 two_hundred_pos 50000 with approvedQuantity := some 1 }

/-- The terminal fills the buy at 50000. -/
def openingReply : EaReply := { status := .ok, fillPrice := some 50000, fillQuantity := some 1 }

def heldLot : List TerminalPosition := [⟨"BTCUSD", magicNumber, .buy, 1⟩]

/-- The terminal closes its long at `price`. -/
def closingSend (price : ℚ) : SendReply := { ok := true, retcode := tradeRetcodeDone, volume := 1, price := price }

/-- A ledger that has reserved the order. -/
def reservedLedger : RiskAgent :=
  { RiskAgent.init defaultSettings 0 with
    drawdown := (RiskAgent.init defaultSettings 0).drawdown.openPosition "BTC/USDT" 200 (some .buy) }

/-- Open and close one lot, the close at `price`: the two results, if the bridge made them. -/
def liveRoundTrip (price : ℚ) : Option (ExecutionResult × ExecutionResult) :=
  match placeOrderResult lotOrder 1 1 openingReply,
    closePositionResult "BTC/USDT" 2 2 2 (handleClosePosition heldLot "BTCUSD" magicNumber (closingSend price)) with
  | .ok opening, some closing => some (opening, closing)
  | _, _ => none

private theorem fullClose_liveRoundTrip {price : ℚ} {opening closing : ExecutionResult}
    (h : liveRoundTrip price = some (opening, closing)) :
    placeOrderResult lotOrder 1 1 openingReply = .ok opening ∧ 0 < opening.filledQuantity ∧
      FullClose opening closing := by
  unfold liveRoundTrip at h
  split at h
  case h_1 opening' closing' hopen hclose =>
    cases h
    refine ⟨hopen, ?_, ?_⟩
    · cases hopen
      exact zero_lt_one
    · refine .position heldLot "BTCUSD" ⟨"BTCUSD", magicNumber, .buy, 1⟩ (closingSend price) 2 2 2 closing
        ?_ ?_ rfl ?_ ?_
      · decide
      · cases hopen; rfl
      · cases hopen; exact hclose
      · cases hopen; cases hclose; rfl
  case h_2 => cases h

/-- A lot bought at 50000 and closed at 40000: the ledger shows no loss. -/
theorem live_loss_is_lost : ∃ opening closing,
    placeOrderResult lotOrder 1 1 openingReply = .ok opening ∧ FullClose opening closing ∧
      reservedLedger.drawdown.positionSide opening.symbol = some opening.side ∧
      opening.side.direction * (fillPrice closing - fillPrice opening) * opening.filledQuantity = -10000 ∧
      valueChange reservedLedger opening + valueChange (reservedLedger.applyExecutionResult opening).2 closing = 0 := by
  have hrun : (liveRoundTrip 40000).map (fun r =>
      (decide (reservedLedger.drawdown.positionSide r.1.symbol = some r.1.side),
        r.1.side.direction * (fillPrice r.2 - fillPrice r.1) * r.1.filledQuantity,
        valueChange reservedLedger r.1 + valueChange (reservedLedger.applyExecutionResult r.1).2 r.2)) =
      some (true, -10000, 0) := by decide +kernel
  obtain ⟨⟨opening, closing⟩, hresults, hvalues⟩ := Option.map_eq_some_iff.1 hrun
  obtain ⟨hopen, -, hclose⟩ := fullClose_liveRoundTrip hresults
  simp only [Prod.mk.injEq, decide_eq_true_eq] at hvalues
  exact ⟨opening, closing, hopen, hclose, hvalues⟩

theorem live_loss_reaches_ledger_iff_flat : ∃ opening closing,
    placeOrderResult lotOrder 1 1 openingReply = .ok opening ∧ FullClose opening closing ∧
      valueChange reservedLedger opening + valueChange (reservedLedger.applyExecutionResult opening).2 closing =
        opening.side.direction * (fillPrice closing - fillPrice opening) * opening.filledQuantity := by
  have hrun : (liveRoundTrip 50000).map (fun r =>
      decide ((reservedLedger.applyExecutionResult r.1).2.drawdown.positionSide r.1.symbol = some r.1.side ∧
        (reservedLedger.applyExecutionResult r.1).2.seenResults.contains r.2.resultId = false ∧
        fillPrice r.1 = fillPrice r.2)) = some true := by decide +kernel
  obtain ⟨⟨opening, closing⟩, hresults, hvalues⟩ := Option.map_eq_some_iff.1 hrun
  obtain ⟨hopen, hqty, hclose⟩ := fullClose_liveRoundTrip hresults
  obtain ⟨hheld, hseen, hprice⟩ := of_decide_eq_true hvalues
  exact ⟨opening, closing, hopen, hclose, (live_loss_reaches_ledger_iff hopen hqty hclose hheld hseen).2.2 hprice⟩

end MultiAgentTrading
