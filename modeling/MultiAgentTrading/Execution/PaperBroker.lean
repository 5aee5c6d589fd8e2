import MultiAgentTrading.Core.Models
import MultiAgentTrading.Core.Settings
import MultiAgentTrading.Lib.Recent
import MultiAgentTrading.Lib.Rounding
import Mathlib.Tactic.Ring

/-!
# The paper broker

Cash, one position per symbol, and the simulated fills.  `place_order` is cut at its awaits: `acceptOrder` runs up to
the latency sleep, `fillOrder` from there to the save of the portfolio.  `Decimal` arithmetic is exact; only the
explicit `quantize` calls round.  What the two fills do is said once, by `openingFill_spec` and `closeAt_spec`.
-/

namespace MultiAgentTrading

open Rounding

structure PaperPosition where
  symbol : String
  side : OrderSide
  quantity : ℚ
  entryPrice : ℚ
  costUsd : ℚ
  deriving DecidableEq

structure PaperBroker where
  cashBalance : ℚ
  positions : Dict String PaperPosition := .empty
  filledOrders : Dict ℕ ExecutionResult := .empty
  deriving DecidableEq

/-- The random choice of a fill: full, or the ratio of a partial one. -/
inductive FillChoice
  | full
  | part (ratio : ℚ) (ratio_mem : 6 / 10 ≤ ratio ∧ ratio ≤ 99 / 100)

/-- Why an order is rejected, with the values the text of the error interpolates. -/
inductive OrderRejection
  | noReferencePrice
  | priceNotPositive (price : ℚ)
  | alreadyOpen (symbol : String) (side : OrderSide)
  | noOpenPosition (symbol : String)
  | noEffectiveSize
  | zeroQuantity (size price : ℚ)
  deriving DecidableEq

inductive BrokerError
  | notPaperMode
  | orderRejected (reason : OrderRejection)
  | insufficientBalance (required available : ℚ)
  | divisionByZero
  deriving DecidableEq

structure BrokerBalance where
  totalEquityUsd : ℚ
  freeMarginUsd : ℚ
  usedMarginUsd : ℚ

structure BrokerPosition where
  symbol : String
  side : OrderSide
  quantity : ℚ
  entryPrice : ℚ
  currentPrice : ℚ
  unrealisedPnlUsd : ℚ
  deriving DecidableEq

/-- The numbers of an opening fill. -/
structure OpeningFill where
  status : OrderStatus
  fillPrice : ℚ
  requestedQty : ℚ
  fillQty : ℚ
  notional : ℚ
  fee : ℚ
  totalCost : ℚ

/-- The numbers of a closing fill. -/
structure ClosingFill where
  side : OrderSide
  exitPrice : ℚ
  notional : ℚ
  fee : ℚ
  cashReturned : ℚ
  realized : ℚ

namespace PaperBroker

/-- `DEFAULT_SLIPPAGE_PCT`. -/
def slippagePct : ℚ := 5 / 10000

/-- `_TAKER_FEE_PCT`. -/
def takerFeePct : ℚ := 1 / 1000

/-- `_QTY_PLACES`. -/
def qtyPlaces : ℚ := 1 / 100000000

/-- `Decimal("0.01")`, the unit of fees and profits. -/
def cent : ℚ := 1 / 100

/-- `_IDEMPOTENCY_CACHE_SIZE`. -/
def idempotencyCacheSize : ℕ := 1000

def init (settings : Settings) : PaperBroker := { cashBalance := settings.paperInitialBalanceUsd }

/-- The taker fee of a notional, truncated to cents. -/
def takerFee (notional : ℚ) : ℚ := quantizeDown cent (notional * takerFeePct)

/-- A reference price moved by the slippage against an order on `side`. -/
def slipped (side : OrderSide) (refPrice : ℚ) : ℚ :=
  match side with
  | .buy => quantizeDown qtyPlaces (refPrice * (1 + slippagePct))
  | .sell => quantizeDown qtyPlaces (refPrice * (1 - slippagePct))

def remember (b : PaperBroker) (proposalId : ℕ) (result : ExecutionResult) : PaperBroker :=
  let filledOrders := b.filledOrders.set proposalId result
  { b with filledOrders := if idempotencyCacheSize < filledOrders.size then filledOrders.popFirst else filledOrders }

def usedMargin (b : PaperBroker) : ℚ := b.positions.total PaperPosition.costUsd

def totalEquity (b : PaperBroker) : ℚ := b.cashBalance + b.usedMargin

def getBalance (b : PaperBroker) : BrokerBalance := ⟨b.totalEquity, b.cashBalance, b.usedMargin⟩

def getPositions (b : PaperBroker) : List BrokerPosition :=
  b.positions.values.map fun pos => ⟨pos.symbol, pos.side, pos.quantity, pos.entryPrice, pos.entryPrice, 0⟩

/-! ### Closing -/

/-- The numbers of `_close`: a long returns its notional, a short its cost and the price difference, less the fee. -/
def closingFill (pos : PaperPosition) (refPrice : ℚ) : ClosingFill :=
  match pos.side with
  | .buy =>
    let exitPrice := slipped .sell refPrice
    let notional := pos.quantity * exitPrice
    let fee := takerFee notional
    let cashReturned := notional - fee
    ⟨.sell, exitPrice, notional, fee, cashReturned, quantizeHalfEven cent (cashReturned - pos.costUsd)⟩
  | .sell =>
    let exitPrice := slipped .buy refPrice
    let notional := pos.quantity * exitPrice
    let fee := takerFee notional
    let grossPnl := (pos.entryPrice - exitPrice) * pos.quantity
    let cashReturned := pos.costUsd + grossPnl - fee
    ⟨.buy, exitPrice, notional, fee, cashReturned, quantizeHalfEven cent (cashReturned - pos.costUsd)⟩

/-- A close: the broker after it, the position it took out, the numbers of the fill and the result it reports. -/
structure Closed where
  broker : PaperBroker
  position : PaperPosition
  fill : ClosingFill
  result : ExecutionResult

/-- `_close`: take the position out and credit the cash returned. -/
def closeAt (b : PaperBroker) (symbol : String) (refPrice : ℚ) (proposalId assessmentId resultId : ℕ) :
    Option Closed :=
  match b.positions.get? symbol with
  | none => none
  | some pos =>
    let fill := closingFill pos refPrice
    some
      { broker :=
          { b with cashBalance := b.cashBalance + fill.cashReturned, positions := b.positions.erase symbol }
        position := pos
        fill := fill
        result :=
          { resultId := resultId
            proposalId := proposalId
            assessmentId := assessmentId
            symbol := symbol
            side := fill.side
            orderType := .market
            status := .filled
            requestedQuantity := pos.quantity
            filledQuantity := pos.quantity
            averageFillPrice := some fill.exitPrice
            totalCostUsd := some fill.notional
            feeUsd := some fill.fee
            feeCurrency := some "USDT"
            realizedPnlUsd := some fill.realized
            isPaper := true } }

/-- `close_position`: a missing or nonpositive price stands for the entry price. -/
def closePosition (b : PaperBroker) (symbol : String) (price : Option ℚ) (proposalId assessmentId resultId : ℕ) :
    Option Closed :=
  match b.positions.get? symbol with
  | none => none
  | some pos =>
    let refPrice :=
      match price with
      | some p => if 0 < p then p else pos.entryPrice
      | none => pos.entryPrice
    b.closeAt symbol refPrice proposalId assessmentId resultId

/-! ### Opening -/

/-- Filled quantity and status for a random choice; a partial fill that rounds to nothing is a full one. -/
def chosenQty (requestedQty : ℚ) (choice : FillChoice) : ℚ × OrderStatus :=
  let chosen :=
    match choice with
    | .full => (requestedQty, OrderStatus.filled)
    | .part ratio _ => (quantizeDown qtyPlaces (requestedQty * ratio), OrderStatus.partiallyFilled)
  if chosen.1 ≤ 0 then (requestedQty, .filled) else chosen

def openingFill (a : RiskAssessment ℚ) (refPrice : ℚ) (choice : FillChoice) : Except BrokerError OpeningFill :=
  let fillPrice := slipped a.originalProposal.side refPrice
  let effectiveSize := a.effectiveSizeUsd
  if effectiveSize ≤ 0 then .error (.orderRejected .noEffectiveSize)
  else if fillPrice = 0 then .error .divisionByZero
  else
    let requestedQty := quantizeDown qtyPlaces (effectiveSize / fillPrice)
    if requestedQty ≤ 0 then .error (.orderRejected (.zeroQuantity effectiveSize fillPrice))
    else
      let chosen := chosenQty requestedQty choice
      let notional := chosen.1 * fillPrice
      let fee := takerFee notional
      .ok ⟨chosen.2, fillPrice, requestedQty, chosen.1, notional, fee, notional + fee⟩

def openedPosition (a : RiskAssessment ℚ) (fill : OpeningFill) : PaperPosition where
  symbol := a.originalProposal.symbol
  side := a.originalProposal.side
  quantity := fill.fillQty
  entryPrice := fill.fillPrice
  costUsd := fill.totalCost

def openedResult (a : RiskAssessment ℚ) (fill : OpeningFill) (resultId : ℕ) : ExecutionResult where
  resultId := resultId
  proposalId := a.proposalId
  assessmentId := a.assessmentId
  symbol := a.originalProposal.symbol
  side := a.originalProposal.side
  orderType := a.originalProposal.orderType
  status := fill.status
  requestedQuantity := fill.requestedQty
  filledQuantity := fill.fillQty
  averageFillPrice := some fill.fillPrice
  totalCostUsd := some fill.notional
  feeUsd := some fill.fee
  feeCurrency := some "USDT"
  isPaper := true

/-- What an accepted order does: it opens a position, or it closes one. -/
inductive Filled
  | opened (broker : PaperBroker) (position : PaperPosition) (result : ExecutionResult)
  | closed (close : Closed)

/-- A reference price that has passed the check of `place_order`. -/
abbrev RefPrice := { price : ℚ // 0 < price }

/-- `place_order` up to the latency sleep: an earlier result of the same proposal, or the reference price. -/
def acceptOrder (settings : Settings) (b : PaperBroker) (a : RiskAssessment ℚ) :
    Except BrokerError (ExecutionResult ⊕ RefPrice) :=
  if settings.isPaperTrading = false then .error .notPaperMode
  else
    match b.filledOrders.get? a.proposalId with
    | some cached => .ok (.inl cached)
    | none =>
      match a.originalProposal.signal.technicalSignal with
      | none => .error (.orderRejected .noReferencePrice)
      | some tech =>
        if h : tech.price ≤ 0 then .error (.orderRejected (.priceNotPositive tech.price))
        else .ok (.inr ⟨tech.price, not_le.1 h⟩)

/-- `place_order` after the sleep.  An opening is remembered here, a close only after its portfolio is saved. -/
def fillOrder (b : PaperBroker) (a : RiskAssessment ℚ) (refPrice : ℚ) (choice : FillChoice) (resultId : ℕ) :
    Except BrokerError Filled :=
  let symbol := a.originalProposal.symbol
  match b.positions.get? symbol with
  | some existing =>
    if existing.side = a.originalProposal.side then
      .error (.orderRejected (.alreadyOpen symbol existing.side))
    else
      match b.closeAt symbol refPrice a.proposalId a.assessmentId resultId with
      | none => .error (.orderRejected (.noOpenPosition symbol))
      | some close => .ok (.closed close)
  | none =>
    match openingFill a refPrice choice with
    | .error e => .error e
    | .ok fill =>
      if b.cashBalance < fill.totalCost then .error (.insufficientBalance fill.totalCost b.cashBalance)
      else
        let position := openedPosition a fill
        let result := openedResult a fill resultId
        let opened :=
          { b with cashBalance := b.cashBalance - fill.totalCost, positions := b.positions.set symbol position }
        .ok (.opened (opened.remember a.proposalId result) position result)

/-- An approved order without stop, as the risk agent sends it for a close; any order that has a size is one. -/
def plainOrder (proposalId : ℕ) (symbol : String) (side : OrderSide) (sizeUsd : ℚ) (hsize : 0 < sizeUsd)
    (price : ℚ) : RiskAssessment ℚ where
  assessmentId := proposalId
  proposalId := proposalId
  decision := .approved
  approvedSizeUsd := some sizeUsd
  originalProposal := plainProposal proposalId symbol side sizeUsd hsize price 0 .empty

/-! ### Fees and prices -/

/-- The fee truncates to nothing exactly below a notional of ten dollars. -/
theorem takerFee_eq_zero_iff {notional : ℚ} (h : 0 ≤ notional) : takerFee notional = 0 ↔ notional < 10 := by
  have hfee : 0 ≤ notional * takerFeePct := mul_nonneg h (by norm_num [takerFeePct])
  rw [takerFee, quantizeDown_eq_zero_iff (by norm_num [cent]) hfee, takerFeePct, cent]
  constructor <;> intro hlt <;> linarith

theorem slipped_nonneg {refPrice : ℚ} (h : 0 < refPrice) (side : OrderSide) : 0 ≤ slipped side refPrice := by
  have hplaces : 0 < qtyPlaces := by norm_num [qtyPlaces]
  cases side with
  | buy => exact quantizeDown_nonneg hplaces (mul_nonneg h.le (by norm_num [slippagePct]))
  | sell => exact quantizeDown_nonneg hplaces (mul_nonneg h.le (by norm_num [slippagePct]))

/-! ### What a close does -/

theorem closingFill_side (pos : PaperPosition) (refPrice : ℚ) : (closingFill pos refPrice).side = pos.side.opp := by
  unfold closingFill
  split <;> rename_i h <;> rw [h] <;> rfl

/-- The reported profit is the cash returned less the cost, to the nearest cent. -/
theorem abs_realized_sub_le (pos : PaperPosition) (refPrice : ℚ) :
    |(closingFill pos refPrice).cashReturned - pos.costUsd - (closingFill pos refPrice).realized| ≤ 5 / 1000 := by
  have hcent : (0 : ℚ) < cent := by norm_num [cent]
  have hround : ∀ x : ℚ, |x - quantizeHalfEven cent x| ≤ 5 / 1000 := by
    intro x
    rw [abs_sub_comm]
    calc |quantizeHalfEven cent x - x| ≤ cent / 2 := abs_quantizeHalfEven_sub_le hcent x
      _ = 5 / 1000 := by norm_num [cent]
  unfold closingFill
  split
  · exact hround _
  · exact hround _

/-- What a close does: it takes the position out, credits the cash, and reports a fill on the other side. -/
theorem closeAt_spec {b : PaperBroker} {symbol : String} {refPrice : ℚ} {proposalId assessmentId resultId : ℕ}
    {c : Closed} (h : b.closeAt symbol refPrice proposalId assessmentId resultId = some c) :
    b.positions.get? symbol = some c.position ∧ c.fill = closingFill c.position refPrice ∧
      c.broker = { b with
        cashBalance := b.cashBalance + c.fill.cashReturned, positions := b.positions.erase symbol } ∧
      c.result.resultId = resultId ∧ c.result.proposalId = proposalId ∧ c.result.symbol = symbol ∧
      c.result.side = c.position.side.opp ∧ c.result.status = .filled ∧
      c.result.filledQuantity = c.position.quantity ∧ c.result.realizedPnlUsd = some c.fill.realized := by
  unfold closeAt at h
  cases hp : b.positions.get? symbol with
  | none => simp [hp] at h
  | some pos =>
    rw [hp] at h
    cases h
    exact ⟨rfl, rfl, rfl, rfl, rfl, rfl, closingFill_side pos refPrice, rfl, rfl, rfl⟩

/-- `close_position` is a close at some reference price. -/
theorem closePosition_closeAt {b : PaperBroker} {symbol : String} {price : Option ℚ}
    {proposalId assessmentId resultId : ℕ} {c : Closed}
    (h : b.closePosition symbol price proposalId assessmentId resultId = some c) :
    ∃ refPrice, b.closeAt symbol refPrice proposalId assessmentId resultId = some c := by
  unfold closePosition at h
  cases hp : b.positions.get? symbol with
  | none => simp [hp] at h
  | some pos => rw [hp] at h; exact ⟨_, h⟩

theorem closePosition_eq_none_iff {b : PaperBroker} {symbol : String} {price : Option ℚ}
    {proposalId assessmentId resultId : ℕ} :
    b.closePosition symbol price proposalId assessmentId resultId = none ↔ b.positions.get? symbol = none := by
  unfold closePosition
  cases hp : b.positions.get? symbol with
  | none => simp
  | some pos => simp [closeAt, hp]

/-- A close moves the equity by the cash returned less the cost of the position. -/
theorem totalEquity_closeAt {b : PaperBroker} {symbol : String} {refPrice : ℚ}
    {proposalId assessmentId resultId : ℕ} {c : Closed}
    (h : b.closeAt symbol refPrice proposalId assessmentId resultId = some c) :
    c.broker.totalEquity = b.totalEquity + (c.fill.cashReturned - c.position.costUsd) := by
  obtain ⟨hpos, _, hb, _⟩ := closeAt_spec h
  rw [hb]
  simp only [totalEquity, usedMargin, Dict.total_erase_of_some hpos]
  ring

/-! ### What an opening does -/

/-- A position as an opening fill leaves it: positive, and costing its notional plus the truncated fee. -/
structure WellFormed (pos : PaperPosition) : Prop where
  quantity_pos : 0 < pos.quantity
  entryPrice_pos : 0 < pos.entryPrice
  costUsd_eq : pos.costUsd = pos.quantity * pos.entryPrice + takerFee (pos.quantity * pos.entryPrice)

private theorem chosenQty_pos {requestedQty : ℚ} (h : 0 < requestedQty) (choice : FillChoice) :
    0 < (chosenQty requestedQty choice).1 := by
  unfold chosenQty
  cases choice with
  | full => dsimp only; split <;> exact h
  | part ratio hratio =>
    dsimp only
    split
    case isTrue => exact h
    case isFalse hn => exact not_le.1 hn

private theorem chosenQty_status (requestedQty : ℚ) (choice : FillChoice) :
    (chosenQty requestedQty choice).2 = .filled ∨ (chosenQty requestedQty choice).2 = .partiallyFilled := by
  unfold chosenQty
  cases choice with
  | full => dsimp only; split <;> exact .inl rfl
  | part ratio hratio =>
    dsimp only
    split
    case isTrue => exact .inl rfl
    case isFalse => exact .inr rfl

/-- What a successful opening fill looks like. -/
structure FillOk (a : RiskAssessment ℚ) (refPrice : ℚ) (fill : OpeningFill) : Prop where
  status : fill.status = .filled ∨ fill.status = .partiallyFilled
  fillPrice_eq : fill.fillPrice = slipped a.originalProposal.side refPrice
  fillPrice_pos : 0 < fill.fillPrice
  fillQty_pos : 0 < fill.fillQty
  notional_eq : fill.notional = fill.fillQty * fill.fillPrice
  fee_eq : fill.fee = takerFee fill.notional
  totalCost_eq : fill.totalCost = fill.notional + fill.fee

theorem openingFill_spec {a : RiskAssessment ℚ} {refPrice : ℚ} {choice : FillChoice} {fill : OpeningFill}
    (href : 0 < refPrice) (h : openingFill a refPrice choice = .ok fill) : FillOk a refPrice fill := by
  unfold openingFill at h
  dsimp only at h
  split at h
  case isTrue => cases h
  case isFalse =>
    split at h
    case isTrue => cases h
    case isFalse hprice =>
      split at h
      case isTrue => cases h
      case isFalse hqty =>
        cases h
        have hpos := lt_of_le_of_ne (slipped_nonneg href a.originalProposal.side) (Ne.symm hprice)
        exact ⟨chosenQty_status _ _, rfl, hpos, chosenQty_pos (not_le.1 hqty) _, rfl, rfl, rfl⟩

theorem wellFormed_openedPosition {a : RiskAssessment ℚ} {refPrice : ℚ} {fill : OpeningFill}
    (h : FillOk a refPrice fill) : WellFormed (openedPosition a fill) where
  quantity_pos := h.fillQty_pos
  entryPrice_pos := h.fillPrice_pos
  costUsd_eq := by rw [openedPosition, h.totalCost_eq, h.fee_eq, h.notional_eq]

/-- What an accepted order does to the broker, by the position found after the latency sleep. -/
theorem fillOrder_cases {b : PaperBroker} {a : RiskAssessment ℚ} {refPrice : ℚ} {choice : FillChoice}
    {resultId : ℕ} {filled : Filled} (h : b.fillOrder a refPrice choice resultId = .ok filled) :
    (∃ c, filled = .closed c ∧ c.position.side = a.originalProposal.side.opp ∧
      b.closeAt a.originalProposal.symbol refPrice a.proposalId a.assessmentId resultId = some c) ∨
    (∃ fill, b.positions.get? a.originalProposal.symbol = none ∧ openingFill a refPrice choice = .ok fill ∧
      fill.totalCost ≤ b.cashBalance ∧
      filled = .opened
        (({ b with
            cashBalance := b.cashBalance - fill.totalCost
            positions := b.positions.set a.originalProposal.symbol (openedPosition a fill) } :
              PaperBroker).remember a.proposalId (openedResult a fill resultId))
        (openedPosition a fill) (openedResult a fill resultId)) := by
  unfold fillOrder at h
  dsimp only at h
  cases hp : b.positions.get? a.originalProposal.symbol with
  | some existing =>
    rw [hp] at h
    dsimp only at h
    split at h
    case isTrue => cases h
    case isFalse hside =>
      cases hc : b.closeAt a.originalProposal.symbol refPrice a.proposalId a.assessmentId resultId with
      | none => rw [hc] at h; cases h
      | some c =>
        rw [hc] at h
        cases h
        obtain ⟨hpos, _⟩ := closeAt_spec hc
        obtain rfl : existing = c.position := Option.some.inj (hp.symm.trans hpos)
        exact .inl ⟨c, rfl, OrderSide.eq_opp_of_ne hside, rfl⟩
  | none =>
    rw [hp] at h
    dsimp only at h
    cases hf : openingFill a refPrice choice with
    | error e => rw [hf] at h; cases h
    | ok fill =>
      rw [hf] at h
      dsimp only at h
      split at h
      case isTrue => cases h
      case isFalse hcash =>
        cases h
        exact .inr ⟨fill, rfl, rfl, not_lt.1 hcash, rfl⟩

/-- An order is answered from the cache only if its proposal is remembered. -/
theorem acceptOrder_replay {settings : Settings} {b : PaperBroker} {a : RiskAssessment ℚ} {cached : ExecutionResult}
    (h : b.acceptOrder settings a = .ok (.inl cached)) : a.proposalId ∈ b.filledOrders.keys := by
  unfold acceptOrder at h
  split at h
  case isTrue => cases h
  case isFalse =>
    split at h
    case h_1 cached' hc => exact Dict.mem_keys.2 ⟨cached', hc⟩
    case h_2 =>
      split at h
      case h_1 => cases h
      case h_2 => split at h <;> cases h

theorem acceptOrder_of_remembered {settings : Settings} {b : PaperBroker} {a : RiskAssessment ℚ}
    {cached : ExecutionResult} (hpaper : settings.isPaperTrading = true)
    (hcached : b.filledOrders.get? a.proposalId = some cached) : b.acceptOrder settings a = .ok (.inl cached) := by
  unfold acceptOrder
  rw [if_neg (by rw [hpaper]; exact Bool.noConfusion), hcached]

/-- An order goes to sleep only in paper mode, and only if its proposal is not remembered. -/
theorem acceptOrder_sleeps {settings : Settings} {b : PaperBroker} {a : RiskAssessment ℚ} {refPrice : RefPrice}
    (h : b.acceptOrder settings a = .ok (.inr refPrice)) :
    settings.isPaperTrading = true ∧ b.filledOrders.get? a.proposalId = none := by
  unfold acceptOrder at h
  split at h
  case isTrue => cases h
  case isFalse hpaper =>
    refine ⟨Bool.eq_true_of_not_eq_false hpaper, ?_⟩
    split at h
    case h_1 => cases h
    case h_2 hnew => exact hnew

@[simp] theorem positions_remember (b : PaperBroker) (proposalId : ℕ) (result : ExecutionResult) :
    (b.remember proposalId result).positions = b.positions := rfl

@[simp] theorem cashBalance_remember (b : PaperBroker) (proposalId : ℕ) (result : ExecutionResult) :
    (b.remember proposalId result).cashBalance = b.cashBalance := rfl

@[simp] theorem totalEquity_remember (b : PaperBroker) (proposalId : ℕ) (result : ExecutionResult) :
    (b.remember proposalId result).totalEquity = b.totalEquity := rfl

theorem keys_remember_subset (b : PaperBroker) (proposalId : ℕ) (result : ExecutionResult) :
    (b.remember proposalId result).filledOrders.keys ⊆ proposalId :: b.filledOrders.keys := by
  intro id hid
  exact List.mem_cons.2 (Recent.mem_keys_of_put hid)

/-- What is remembered after an order was remembered before, or is that order. -/
theorem get?_remember {b : PaperBroker} {proposalId proposalId' : ℕ} {result result' : ExecutionResult}
    (h : (b.remember proposalId result).filledOrders.get? proposalId' = some result') :
    result' = result ∨ b.filledOrders.get? proposalId' = some result' :=
  Recent.get?_of_put h

/-- Opening a flat symbol moves cash into the position. -/
theorem totalEquity_open {b : PaperBroker} {symbol : String} (h : b.positions.get? symbol = none)
    (pos : PaperPosition) :
    ({ b with cashBalance := b.cashBalance - pos.costUsd, positions := b.positions.set symbol pos } :
      PaperBroker).totalEquity = b.totalEquity := by
  simp only [totalEquity, usedMargin, Dict.total_set_of_none h]
  ring

end PaperBroker

end MultiAgentTrading
