import MultiAgentTrading.Execution.FillBounds
import MultiAgentTrading.Execution.OrderReplay
import MultiAgentTrading.Lib.DecimalContext

/-!
# An order in decimal arithmetic

`place_order` and `_close` written over the operations on decimals that they call, so that they can be run with exact
arithmetic, where they are `fillOrder`, or in the context the program runs in.  `answered_fillOrderIn_iff` says for
which prices, sizes and accounts an order in that context is filled or refused with an error of the domain: a price
may be truncated to zero, and an amount may be too long to quantize.
-/

namespace MultiAgentTrading

open PaperBroker Rounding

/-- The operations on decimals that an order calls. -/
structure Arithmetic where
  add : ℚ → ℚ → Except DecimalSignal ℚ
  sub : ℚ → ℚ → Except DecimalSignal ℚ
  mul : ℚ → ℚ → Except DecimalSignal ℚ
  div : ℚ → ℚ → Except DecimalSignal ℚ
  quantize : (ℚ → ℚ → ℚ) → ℤ → ℚ → Except DecimalSignal ℚ

/-- Exact arithmetic, where only a division by zero raises. -/
def exactArithmetic : Arithmetic where
  add x y := .ok (x + y)
  sub x y := .ok (x - y)
  mul x y := .ok (x * y)
  div x y := if y = 0 then .error .divisionByZero else .ok (x / y)
  quantize rounding place x := .ok (rounding (10 ^ place) x)

/-- The arithmetic of a context. -/
def contextArithmetic (c : DecimalContext) : Arithmetic where
  add := c.add
  sub := c.sub
  mul := c.mul
  div := c.div
  quantize := c.quantize

/-- What an order raises: an error of the broker, or a signal of the arithmetic. -/
inductive OrderError
  | broker (err : BrokerError)
  | signal (signal : DecimalSignal)
  deriving DecidableEq

namespace Arithmetic

variable (ops : Arithmetic)

/-- A computation on decimals inside an order. -/
def raising {α : Type} (x : Except DecimalSignal α) : Except OrderError α := x.mapError .signal

/-- The reference price moved by the slippage and truncated. -/
def slipped (side : OrderSide) (refPrice : ℚ) : Except DecimalSignal ℚ := do
  let factor ← match side with
    | .buy => ops.add 1 slippagePct
    | .sell => ops.sub 1 slippagePct
  let price ← ops.mul refPrice factor
  ops.quantize quantizeDown (-8) price

def takerFee (notional : ℚ) : Except DecimalSignal ℚ := do
  let fee ← ops.mul notional takerFeePct
  ops.quantize quantizeDown (-2) fee

/-- The quantity that a size buys at a price. -/
def boughtQty (size price : ℚ) : Except DecimalSignal ℚ := do
  let quantity ← ops.div size price
  ops.quantize quantizeDown (-8) quantity

/-- The quantity of a partial fill. -/
def partQty (requestedQty ratio : ℚ) : Except DecimalSignal ℚ := do
  let product ← ops.mul requestedQty ratio
  ops.quantize quantizeDown (-8) product

def chosenQty (requestedQty : ℚ) (choice : FillChoice) : Except DecimalSignal (ℚ × OrderStatus) := do
  let chosen : ℚ × OrderStatus ←
    match choice with
    | .full => .ok (requestedQty, .filled)
    | .part ratio _ => (ops.partQty requestedQty ratio).map fun quantity => (quantity, .partiallyFilled)
  .ok (if chosen.1 ≤ 0 then (requestedQty, .filled) else chosen)

/-- The numbers of an opening fill once the requested quantity is known. -/
def fillNumbers (fillPrice requestedQty : ℚ) (choice : FillChoice) : Except DecimalSignal OpeningFill := do
  let chosen ← ops.chosenQty requestedQty choice
  let notional ← ops.mul chosen.1 fillPrice
  let fee ← ops.takerFee notional
  let totalCost ← ops.add notional fee
  .ok ⟨chosen.2, fillPrice, requestedQty, chosen.1, notional, fee, totalCost⟩

def openingFill (a : RiskAssessment ℚ) (refPrice : ℚ) (choice : FillChoice) : Except OrderError OpeningFill := do
  let fillPrice ← raising (ops.slipped a.originalProposal.side refPrice)
  if a.effectiveSizeUsd ≤ 0 then .error (.broker (.orderRejected .noEffectiveSize))
  else do
    let requestedQty ← raising (ops.boughtQty a.effectiveSizeUsd fillPrice)
    if requestedQty ≤ 0 then .error (.broker (.orderRejected (.zeroQuantity a.effectiveSizeUsd fillPrice)))
    else raising (ops.fillNumbers fillPrice requestedQty choice)

/-- The cash that the close of a position returns, with its notional and its fee. -/
def cashReturned (pos : PaperPosition) (notional fee exitPrice : ℚ) : Except DecimalSignal ℚ :=
  match pos.side with
  | .buy => ops.sub notional fee
  | .sell => do
    let priceDiff ← ops.sub pos.entryPrice exitPrice
    let grossPnl ← ops.mul priceDiff pos.quantity
    let gross ← ops.add pos.costUsd grossPnl
    ops.sub gross fee

def closingFill (pos : PaperPosition) (refPrice : ℚ) : Except DecimalSignal ClosingFill := do
  let exitPrice ← ops.slipped pos.side.opp refPrice
  let notional ← ops.mul pos.quantity exitPrice
  let fee ← ops.takerFee notional
  let returned ← ops.cashReturned pos notional fee exitPrice
  let profit ← ops.sub returned pos.costUsd
  let realized ← ops.quantize quantizeHalfEven (-2) profit
  .ok ⟨pos.side.opp, exitPrice, notional, fee, returned, realized⟩

/-- `_close` of a position that is held, with the cash after it. -/
def closeHeld (pos : PaperPosition) (refPrice cash : ℚ) : Except DecimalSignal (ClosingFill × ℚ) := do
  let fill ← ops.closingFill pos refPrice
  let cash' ← ops.add cash fill.cashReturned
  .ok (fill, cash')

end Arithmetic

/-- The result of a close. -/
def closedResult (symbol : String) (pos : PaperPosition) (fill : ClosingFill)
    (proposalId assessmentId resultId : ℕ) : ExecutionResult where
  resultId := resultId
  proposalId := proposalId
  assessmentId := assessmentId
  symbol := symbol
  side := fill.side
  orderType := .market
  status := .filled
  requestedQuantity := pos.quantity
  filledQuantity := pos.quantity
  averageFillPrice := some fill.exitPrice
  totalCostUsd := some fill.notional
  feeUsd := some fill.fee
  feeCurrency := some "USDT"
  realizedPnlUsd := some fill.realized
  isPaper := true

namespace PaperBroker

/-- An order on the other side of a position closes it. -/
def closeIn (b : PaperBroker) (ops : Arithmetic) (a : RiskAssessment ℚ) (existing : PaperPosition) (refPrice : ℚ)
    (resultId : ℕ) : Except OrderError Filled := do
  let symbol := a.originalProposal.symbol
  let closed ← Arithmetic.raising (ops.closeHeld existing refPrice b.cashBalance)
  .ok (.closed
    { broker := { b with cashBalance := closed.2, positions := b.positions.erase symbol }
      position := existing
      fill := closed.1
      result := closedResult symbol existing closed.1 a.proposalId a.assessmentId resultId })

/-- An opening fill is paid for if the cash is enough for it. -/
def payIn (b : PaperBroker) (ops : Arithmetic) (a : RiskAssessment ℚ) (fill : OpeningFill) (resultId : ℕ) :
    Except OrderError Filled :=
  if b.cashBalance < fill.totalCost then .error (.broker (.insufficientBalance fill.totalCost b.cashBalance))
  else do
    let cash ← Arithmetic.raising (ops.sub b.cashBalance fill.totalCost)
    let position := openedPosition a fill
    let result := openedResult a fill resultId
    let opened := { b with cashBalance := cash, positions := b.positions.set a.originalProposal.symbol position }
    .ok (.opened (opened.remember a.proposalId result) position result)

/-- An order on a flat symbol opens a position. -/
def openIn (b : PaperBroker) (ops : Arithmetic) (a : RiskAssessment ℚ) (refPrice : ℚ) (choice : FillChoice)
    (resultId : ℕ) : Except OrderError Filled := do
  let fill ← ops.openingFill a refPrice choice
  b.payIn ops a fill resultId

/-- `place_order` after the sleep, in the given arithmetic. -/
def fillOrderIn (b : PaperBroker) (ops : Arithmetic) (a : RiskAssessment ℚ) (refPrice : ℚ) (choice : FillChoice)
    (resultId : ℕ) : Except OrderError Filled :=
  match b.positions.get? a.originalProposal.symbol with
  | some existing =>
    if existing.side = a.originalProposal.side then
      .error (.broker (.orderRejected (.alreadyOpen a.originalProposal.symbol existing.side)))
    else b.closeIn ops a existing refPrice resultId
  | none => b.openIn ops a refPrice choice resultId

end PaperBroker

private theorem qtyPlaces_eq : qtyPlaces = 10 ^ (-8 : ℤ) := by norm_num [qtyPlaces]

private theorem cent_eq : cent = 10 ^ (-2 : ℤ) := by norm_num [cent]

/-! ### Exact arithmetic -/

section Exact

private theorem ok_bind {ε α β : Type} (v : α) (f : α → Except ε β) : (Except.ok v >>= f) = f v := rfl

private theorem raising_ok_bind {α β : Type} (v : α) (f : α → Except OrderError β) :
    (Arithmetic.raising (.ok v) >>= f) = f v := rfl

theorem exactArithmetic_slipped (side : OrderSide) (refPrice : ℚ) :
    exactArithmetic.slipped side refPrice = .ok (slipped side refPrice) := by
  rw [slipped_eq, qtyPlaces_eq]
  cases side <;> rfl

theorem exactArithmetic_takerFee (notional : ℚ) : exactArithmetic.takerFee notional = .ok (takerFee notional) := by
  rw [takerFee, cent_eq]
  rfl

theorem exactArithmetic_chosenQty (requestedQty : ℚ) (choice : FillChoice) :
    exactArithmetic.chosenQty requestedQty choice = .ok (chosenQty requestedQty choice) := by
  cases choice with
  | full => rfl
  | part ratio hratio =>
    unfold chosenQty
    rw [qtyPlaces_eq]
    rfl

theorem exactArithmetic_boughtQty {size price : ℚ} (h : price ≠ 0) :
    exactArithmetic.boughtQty size price = .ok (quantizeDown qtyPlaces (size / price)) := by
  have hdiv : exactArithmetic.div size price = .ok (size / price) := if_neg h
  rw [Arithmetic.boughtQty, hdiv, qtyPlaces_eq]
  rfl

theorem exactArithmetic_fillNumbers (fillPrice requestedQty : ℚ) (choice : FillChoice) :
    exactArithmetic.fillNumbers fillPrice requestedQty choice =
      .ok ⟨(chosenQty requestedQty choice).2, fillPrice, requestedQty, (chosenQty requestedQty choice).1,
        (chosenQty requestedQty choice).1 * fillPrice, takerFee ((chosenQty requestedQty choice).1 * fillPrice),
        (chosenQty requestedQty choice).1 * fillPrice + takerFee ((chosenQty requestedQty choice).1 * fillPrice)⟩ := by
  have hmul (x y : ℚ) : exactArithmetic.mul x y = .ok (x * y) := rfl
  rw [Arithmetic.fillNumbers, exactArithmetic_chosenQty, ok_bind, hmul, ok_bind, exactArithmetic_takerFee]
  rfl

/-- The error of the broker that an error of an order is, where only a division raises. -/
def OrderError.toBroker : OrderError → BrokerError
  | .broker err => err
  | .signal _ => .divisionByZero

theorem exactArithmetic_openingFill (a : RiskAssessment ℚ) (refPrice : ℚ) (choice : FillChoice) :
    (exactArithmetic.openingFill a refPrice choice).mapError OrderError.toBroker =
      openingFill a refPrice choice := by
  rw [Arithmetic.openingFill, exactArithmetic_slipped, raising_ok_bind, openingFill]
  dsimp only
  split
  case isTrue => rfl
  case isFalse =>
    by_cases hprice : slipped a.originalProposal.side refPrice = 0
    · have hdiv : exactArithmetic.boughtQty a.effectiveSizeUsd (slipped a.originalProposal.side refPrice) =
          .error .divisionByZero := by
        have h : exactArithmetic.div a.effectiveSizeUsd (slipped a.originalProposal.side refPrice) =
          .error .divisionByZero := if_pos hprice
        rw [Arithmetic.boughtQty, h]
        rfl
      rw [hdiv, if_pos hprice]
      rfl
    · rw [exactArithmetic_boughtQty hprice, raising_ok_bind, if_neg hprice]
      split
      case isTrue => rfl
      case isFalse =>
        rw [exactArithmetic_fillNumbers]
        rfl

theorem exactArithmetic_closingFill (pos : PaperPosition) (refPrice : ℚ) :
    exactArithmetic.closingFill pos refPrice = .ok (closingFill pos refPrice) := by
  have hmul (x y : ℚ) : exactArithmetic.mul x y = .ok (x * y) := rfl
  rw [Arithmetic.closingFill, exactArithmetic_slipped, ok_bind, hmul, ok_bind, exactArithmetic_takerFee, ok_bind,
    Arithmetic.cashReturned, closingFill, cent_eq]
  cases pos.side <;> rfl

/-- In exact arithmetic an order does what `fillOrder` says. -/
theorem fillOrderIn_exactArithmetic (b : PaperBroker) (a : RiskAssessment ℚ) (refPrice : ℚ) (choice : FillChoice)
    (resultId : ℕ) :
    (b.fillOrderIn exactArithmetic a refPrice choice resultId).mapError OrderError.toBroker =
      b.fillOrder a refPrice choice resultId := by
  unfold fillOrderIn fillOrder
  dsimp only
  cases hheld : b.positions.get? a.originalProposal.symbol with
  | some existing =>
    dsimp only
    split
    case isTrue => rfl
    case isFalse =>
      have hclose : exactArithmetic.closeHeld existing refPrice b.cashBalance =
          .ok (closingFill existing refPrice, b.cashBalance + (closingFill existing refPrice).cashReturned) := by
        rw [Arithmetic.closeHeld, exactArithmetic_closingFill]
        rfl
      rw [closeIn, hclose, closeAt, hheld]
      rfl
  | none =>
    dsimp only
    rw [openIn, ← exactArithmetic_openingFill]
    cases exactArithmetic.openingFill a refPrice choice with
    | error err => rfl
    | ok fill =>
      change Except.mapError OrderError.toBroker (if b.cashBalance < fill.totalCost then _ else _) =
        if b.cashBalance < fill.totalCost then _ else _
      by_cases hcash : b.cashBalance < fill.totalCost
      · rw [if_pos hcash, if_pos hcash]
        rfl
      · rw [if_neg hcash, if_neg hcash]
        rfl

end Exact

/-! ### The context of the program -/

theorem twenty_eight_pos : 0 < 28 := by decide

theorem emin_nonpos : (-999999 : ℤ) ≤ 0 := by decide

theorem emax_nonneg : (0 : ℤ) ≤ 999999 := by decide

/-- The context that decimals are computed in unless the program says otherwise. -/
def defaultContext : DecimalContext where
  prec := 28
  emin := -999999
  emax := 999999
  prec_pos := twenty_eight_pos
  emin_nonpos := emin_nonpos
  emax_nonneg := emax_nonneg

def defaultArithmetic : Arithmetic := contextArithmetic defaultContext

namespace DefaultContext

/-- The fill price of an order: the slipped price to 28 digits, truncated. -/
def slippedTo (side : OrderSide) (refPrice : ℚ) : ℚ :=
  quantizeDown qtyPlaces (defaultContext.nearest (slippedExactly side refPrice))

/-- The quantity that a size buys at a price. -/
def boughtTo (size price : ℚ) : ℚ := quantizeDown qtyPlaces (defaultContext.nearest (size / price))

/-- The quantity and the status of a fill. -/
def chosenTo (requestedQty : ℚ) (choice : FillChoice) : ℚ × OrderStatus :=
  let chosen :=
    match choice with
    | .full => (requestedQty, OrderStatus.filled)
    | .part ratio _ =>
      (quantizeDown qtyPlaces (defaultContext.nearest (requestedQty * ratio)), OrderStatus.partiallyFilled)
  if chosen.1 ≤ 0 then (requestedQty, .filled) else chosen

/-- The fee on a fill worth `worth`. -/
def feeOn (worth : ℚ) : ℚ :=
  quantizeDown cent (defaultContext.nearest (defaultContext.nearest worth * takerFeePct))

/-- What a fill worth `worth` takes from the cash. -/
def totalOn (worth : ℚ) : ℚ := defaultContext.nearest (defaultContext.nearest worth + feeOn worth)

/-- The price difference that the close of a short realises. -/
def grossTo (pos : PaperPosition) (exitPrice : ℚ) : ℚ :=
  defaultContext.nearest (defaultContext.nearest (pos.entryPrice - exitPrice) * pos.quantity)

/-- The cash that the close of a position returns. -/
def returnedTo (pos : PaperPosition) (exitPrice : ℚ) : ℚ :=
  let worth := pos.quantity * exitPrice
  match pos.side with
  | .buy => defaultContext.nearest (defaultContext.nearest worth - feeOn worth)
  | .sell =>
    defaultContext.nearest (defaultContext.nearest (pos.costUsd + grossTo pos exitPrice) - feeOn worth)

theorem threshold_eq (k : ℤ) : defaultContext.threshold k = 10 ^ k - 10 ^ (k - 28) / 2 := rfl

private theorem etiny_le_neg_eight : defaultContext.etiny ≤ -8 := by decide

private theorem etiny_le_neg_two : defaultContext.etiny ≤ -2 := by decide

private theorem twenty_le : (-8 : ℤ) + defaultContext.prec ≤ defaultContext.emax + 1 := by decide

private theorem twenty_six_le : (-2 : ℤ) + defaultContext.prec ≤ defaultContext.emax + 1 := by decide

/-- An operation whose result is then truncated to a quantity. -/
private theorem finish_qty_spec (x : ℚ) :
    ReturnsIff (defaultContext.finish x >>= defaultContext.quantize quantizeDown (-8))
      (|x| < defaultContext.threshold 20) (quantizeDown qtyPlaces (defaultContext.nearest x)) := by
  rw [qtyPlaces_eq]
  exact defaultContext.finish_quantize_down_spec etiny_le_neg_eight twenty_le x

/-- A number of a few digits is computed exactly. -/
private theorem finish_factor {x : ℚ} {m : ℤ} (hx : x = m * 10 ^ (-4 : ℤ)) (hm : |m| < 10 ^ 28) (hsmall : |x| < 10) :
    defaultContext.finish x = .ok x := by
  have hfits : defaultContext.Fits x := defaultContext.fits_of_lt (k := 1) (by decide) (by rwa [zpow_one])
  rw [(defaultContext.finish_spec x).returns hfits, hx,
    defaultContext.nearest_of_digits hm (show defaultContext.etiny ≤ -4 by decide)]

theorem slipped_spec {refPrice : ℚ} (h : 0 < refPrice) (side : OrderSide) :
    ReturnsIff (defaultArithmetic.slipped side refPrice)
      (slippedExactly side refPrice < defaultContext.threshold 20) (slippedTo side refPrice) := by
  have hpos := slippedExactly_pos h side
  have hspec := finish_qty_spec (slippedExactly side refPrice)
  rw [abs_of_pos hpos] at hspec
  cases side with
  | buy =>
    have hfactor : defaultContext.finish (1 + slippagePct) = .ok (1 + slippagePct) :=
      finish_factor (m := 10005) (by norm_num [slippagePct]) (by decide) (by norm_num [slippagePct, abs_of_pos])
    have hops : defaultArithmetic.slipped .buy refPrice =
        (defaultContext.finish (1 + slippagePct) >>= fun factor =>
          defaultContext.finish (refPrice * factor) >>= defaultContext.quantize quantizeDown (-8)) := rfl
    rw [hops, hfactor]
    exact hspec
  | sell =>
    have hfactor : defaultContext.finish (1 - slippagePct) = .ok (1 - slippagePct) :=
      finish_factor (m := 9995) (by norm_num [slippagePct]) (by decide) (by norm_num [slippagePct, abs_of_pos])
    have hops : defaultArithmetic.slipped .sell refPrice =
        (defaultContext.finish (1 - slippagePct) >>= fun factor =>
          defaultContext.finish (refPrice * factor) >>= defaultContext.quantize quantizeDown (-8)) := rfl
    rw [hops, hfactor]
    exact hspec

/-- A truncated price is zero exactly below the threshold of the last place. -/
theorem slippedTo_pos_iff {refPrice : ℚ} (h : 0 < refPrice) (side : OrderSide) :
    0 < slippedTo side refPrice ↔ defaultContext.threshold (-8) ≤ slippedExactly side refPrice := by
  have hpos := (slippedExactly_pos h side).le
  have hnear := defaultContext.nearest_nonneg hpos
  have hnonneg := quantizeDown_nonneg qtyPlaces_pos hnear
  rw [slippedTo, hnonneg.lt_iff_ne', ne_eq, quantizeDown_eq_zero_iff qtyPlaces_pos hnear, qtyPlaces_eq,
    defaultContext.nearest_lt_iff hpos (by decide), not_lt]

theorem boughtQty_spec {size price : ℚ} (hsize : 0 < size) (hprice : 0 < price) :
    ReturnsIff (defaultArithmetic.boughtQty size price) (size < defaultContext.threshold 20 * price)
      (boughtTo size price) := by
  have hops : defaultArithmetic.boughtQty size price =
      (defaultContext.finish (size / price) >>= defaultContext.quantize quantizeDown (-8)) := by
    have hdiv : defaultContext.div size price = defaultContext.finish (size / price) := if_neg hprice.ne'
    rw [← hdiv]
    rfl
  rw [hops]
  refine (finish_qty_spec _).congr ?_
  rw [abs_of_pos (div_pos hsize hprice), div_lt_iff₀ hprice]

theorem boughtQty_spec' {size price : ℚ} (hsize : 0 < size) (hprice : 0 ≤ price) :
    ReturnsIff (defaultArithmetic.boughtQty size price) (0 < price ∧ size < defaultContext.threshold 20 * price)
      (boughtTo size price) := by
  rcases hprice.eq_or_lt with rfl | hpos
  · have hdiv : defaultArithmetic.div size 0 = .error .divisionByZero := by
      change defaultContext.div size 0 = _
      rw [DecimalContext.div, if_pos rfl, if_neg hsize.ne']
    have hraises : defaultArithmetic.boughtQty size 0 = .error .divisionByZero := by
      rw [Arithmetic.boughtQty, hdiv]
      rfl
    exact ⟨fun h => absurd h.1 (lt_irrefl 0), fun _ => ⟨_, hraises⟩⟩
  · exact (boughtQty_spec hsize hpos).congr (and_iff_right hpos).symm

/-- What a quantity truncated to its last place is, when it is not too long to be quantized. -/
private theorem quantized_bounds {x : ℚ} (hx : 0 ≤ x) (hlt : x < defaultContext.threshold 20) :
    0 ≤ quantizeDown qtyPlaces (defaultContext.nearest x) ∧
      quantizeDown qtyPlaces (defaultContext.nearest x) < 10 ^ (20 : ℤ) := by
  have hnear := defaultContext.nearest_nonneg hx
  refine ⟨quantizeDown_nonneg qtyPlaces_pos hnear, (quantizeDown_le qtyPlaces_pos hnear).trans_lt ?_⟩
  exact (defaultContext.nearest_lt_iff hx (by decide)).2 hlt

/-- A size buys something exactly from the threshold of the last place on. -/
theorem boughtTo_pos_iff {size price : ℚ} (hsize : 0 < size) (hprice : 0 < price) :
    0 < boughtTo size price ↔ defaultContext.threshold (-8) * price ≤ size := by
  have hpos := (div_pos hsize hprice).le
  have hnear := defaultContext.nearest_nonneg hpos
  rw [boughtTo, (quantizeDown_nonneg qtyPlaces_pos hnear).lt_iff_ne', ne_eq,
    quantizeDown_eq_zero_iff qtyPlaces_pos hnear, qtyPlaces_eq,
    defaultContext.nearest_lt_iff hpos (by decide), not_lt, le_div_iff₀ hprice]

/-- Choosing what is filled of a quantity never raises. -/
theorem chosenQty_spec {requestedQty : ℚ} (hpos : 0 < requestedQty) (hlt : requestedQty < 10 ^ (20 : ℤ))
    (choice : FillChoice) :
    defaultArithmetic.chosenQty requestedQty choice = .ok (chosenTo requestedQty choice) ∧
      0 < (chosenTo requestedQty choice).1 ∧
      ((chosenTo requestedQty choice).2 = .filled ∨ (chosenTo requestedQty choice).2 = .partiallyFilled) := by
  cases choice with
  | full =>
    refine ⟨rfl, ?_⟩
    unfold chosenTo
    dsimp only
    split <;> exact ⟨hpos, .inl rfl⟩
  | part ratio hratio =>
    have hproduct : 0 ≤ requestedQty * ratio := mul_nonneg hpos.le (le_trans (by norm_num) hratio.1)
    have hsmall : requestedQty * ratio < defaultContext.threshold 20 := by
      have hratio' : requestedQty * ratio ≤ 10 ^ (20 : ℤ) * (99 / 100) :=
        mul_le_mul hlt.le hratio.2 (le_trans (by norm_num) hratio.1) (by norm_num)
      refine hratio'.trans_lt ?_
      rw [threshold_eq]
      norm_num
    have hspec := (finish_qty_spec (requestedQty * ratio)).returns (by rwa [abs_of_nonneg hproduct])
    constructor
    · have hpart : defaultArithmetic.partQty requestedQty ratio =
          .ok (quantizeDown qtyPlaces (defaultContext.nearest (requestedQty * ratio))) := hspec
      rw [Arithmetic.chosenQty, hpart]
      rfl
    · -- a part that is truncated to nothing is replaced by the whole
      unfold chosenTo
      dsimp only
      split
      case isTrue => exact ⟨hpos, .inl rfl⟩
      case isFalse hn => exact ⟨not_le.1 hn, .inr rfl⟩

/-! #### The fee -/

theorem takerFee_spec (worth : ℚ) :
    ReturnsIff (defaultArithmetic.takerFee (defaultContext.nearest worth))
      (|defaultContext.nearest worth * takerFeePct| < defaultContext.threshold 26) (feeOn worth) := by
  have h := defaultContext.finish_quantize_down_spec etiny_le_neg_two twenty_six_le
    (defaultContext.nearest worth * takerFeePct)
  rw [← cent_eq] at h
  exact h

/-- A fill is worth too much for its fee to be quantized from the threshold of `10 ^ 29` on. -/
theorem fee_fits_iff (worth : ℚ) :
    defaultContext.Fits worth ∧ |defaultContext.nearest worth * takerFeePct| < defaultContext.threshold 26 ↔
      |worth| < defaultContext.threshold 29 := by
  have hpct : |defaultContext.nearest worth * takerFeePct| = defaultContext.nearest |worth| / 1000 := by
    rw [abs_mul, defaultContext.abs_nearest, takerFeePct, abs_of_pos (by norm_num : (0 : ℚ) < 1 / 1000), mul_one_div]
  have hlow : defaultContext.etiny ≤ 29 - defaultContext.prec := by decide
  rw [hpct, ← defaultContext.nearest_lt_iff (abs_nonneg worth) hlow]
  constructor
  · rintro ⟨-, h⟩
    have : defaultContext.nearest |worth| < defaultContext.threshold 29 := by
      rw [threshold_eq] at h ⊢
      norm_num at h ⊢
      linarith
    exact this.trans (sub_lt_self _ (half_pos (zpow_pos (by norm_num) _)))
  · intro h
    -- a rounded worth below `10 ^ 29` is below it by a whole last digit, which the fee of it inherits
    have hgap := defaultContext.nearest_le_of_lt (abs_nonneg worth) hlow h
    refine ⟨defaultContext.fits_of_lt_threshold (k := 29) (by decide)
      ((defaultContext.nearest_lt_iff (abs_nonneg worth) hlow).1 h), ?_⟩
    rw [threshold_eq]
    have hprec : ((29 : ℤ) - defaultContext.prec) = 1 := by decide
    rw [hprec] at hgap
    norm_num at hgap ⊢
    linarith

/-- The amounts of a fill whose fee can be quantized. -/
theorem amounts_lt {worth : ℚ} (h : |worth| < defaultContext.threshold 29) :
    |defaultContext.nearest worth| < 10 ^ (29 : ℤ) ∧ |feeOn worth| < 10 ^ (26 : ℤ) := by
  obtain ⟨-, hfee⟩ := (fee_fits_iff worth).2 h
  constructor
  · rw [defaultContext.abs_nearest]
    exact (defaultContext.nearest_lt_iff (abs_nonneg worth) (by decide)).2 h
  · refine (abs_quantizeDown_le cent_pos _).trans_lt ?_
    rw [defaultContext.abs_nearest]
    exact (defaultContext.nearest_lt_iff (abs_nonneg _) (by decide)).2 hfee

/-- Sums and differences of such amounts are in range. -/
private theorem fits_of_abs_le {x y z : ℚ} (hx : |x| < 10 ^ (29 : ℤ)) (hy : |y| < 10 ^ (26 : ℤ))
    (h : |z| ≤ |x| + |y|) : defaultContext.Fits z := by
  refine defaultContext.fits_of_lt (k := 30) (by decide) (h.trans_lt ((add_lt_add hx hy).trans ?_))
  norm_num

/-- The numbers of an opening fill are computed exactly when the fill is not worth too much. -/
theorem fillNumbers_spec {fillPrice requestedQty : ℚ} (hpos : 0 < requestedQty) (hlt : requestedQty < 10 ^ (20 : ℤ))
    (hprice : 0 < fillPrice) (choice : FillChoice) :
    ReturnsIff (defaultArithmetic.fillNumbers fillPrice requestedQty choice)
      ((chosenTo requestedQty choice).1 * fillPrice < defaultContext.threshold 29)
      { status := (chosenTo requestedQty choice).2
        fillPrice := fillPrice
        requestedQty := requestedQty
        fillQty := (chosenTo requestedQty choice).1
        notional := defaultContext.nearest ((chosenTo requestedQty choice).1 * fillPrice)
        fee := feeOn ((chosenTo requestedQty choice).1 * fillPrice)
        totalCost := totalOn ((chosenTo requestedQty choice).1 * fillPrice) } := by
  obtain ⟨hchosen, hqty, -⟩ := chosenQty_spec hpos hlt choice
  generalize hworth : (chosenTo requestedQty choice).1 * fillPrice = worth
  have hnonneg : 0 ≤ worth := by
    rw [← hworth]
    exact mul_nonneg hqty.le hprice.le
  have hmul : defaultArithmetic.mul (chosenTo requestedQty choice).1 fillPrice = defaultContext.finish worth := by
    rw [← hworth]
    rfl
  rw [Arithmetic.fillNumbers, hchosen, ok_bind, hmul]
  refine ((defaultContext.finish_spec worth).bind fun _ => (takerFee_spec worth).bind fun _ =>
    (defaultContext.finish_spec (defaultContext.nearest worth + feeOn worth)).map fun totalCost =>
      OpeningFill.mk _ _ _ _ _ _ totalCost).congr ?_
  rw [← and_assoc, fee_fits_iff, abs_of_nonneg hnonneg]
  refine ⟨fun h => h.1, fun h => ⟨h, ?_⟩⟩
  obtain ⟨hnotional, hfee⟩ := amounts_lt (by rwa [abs_of_nonneg hnonneg])
  exact fits_of_abs_le hnotional hfee (abs_add_le _ _)

/-! #### The close of a position -/

/-- The amounts from the price difference of a short to the cash it returns are in range. -/
def SettlementFits (pos : PaperPosition) (exitPrice : ℚ) : Prop :=
  match pos.side with
  | .buy => True
  | .sell =>
    defaultContext.Fits (pos.entryPrice - exitPrice) ∧
      defaultContext.Fits (defaultContext.nearest (pos.entryPrice - exitPrice) * pos.quantity) ∧
      defaultContext.Fits (pos.costUsd + grossTo pos exitPrice) ∧
      defaultContext.Fits
        (defaultContext.nearest (pos.costUsd + grossTo pos exitPrice) - feeOn (pos.quantity * exitPrice))

/-- The numbers of a close at an exit price. -/
def closedTo (pos : PaperPosition) (exitPrice : ℚ) : ClosingFill where
  side := pos.side.opp
  exitPrice := exitPrice
  notional := defaultContext.nearest (pos.quantity * exitPrice)
  fee := feeOn (pos.quantity * exitPrice)
  cashReturned := returnedTo pos exitPrice
  realized := quantizeHalfEven cent (defaultContext.nearest (returnedTo pos exitPrice - pos.costUsd))

private theorem cashReturned_spec {pos : PaperPosition} {exitPrice : ℚ}
    (h : |pos.quantity * exitPrice| < defaultContext.threshold 29) :
    ReturnsIff
      (defaultArithmetic.cashReturned pos (defaultContext.nearest (pos.quantity * exitPrice))
        (feeOn (pos.quantity * exitPrice)) exitPrice)
      (SettlementFits pos exitPrice) (returnedTo pos exitPrice) := by
  unfold Arithmetic.cashReturned SettlementFits returnedTo
  cases pos.side with
  | buy =>
    obtain ⟨hnotional, hfee⟩ := amounts_lt h
    exact (defaultContext.finish_spec _).congr (iff_of_true (fits_of_abs_le hnotional hfee (abs_sub _ _)) trivial)
  | sell =>
    exact (defaultContext.finish_spec _).bind fun _ => (defaultContext.finish_spec _).bind fun _ =>
      (defaultContext.finish_spec _).bind fun _ => defaultContext.finish_spec _

private theorem realized_spec (pos : PaperPosition) (exitPrice : ℚ) :
    ReturnsIff (defaultContext.finish (returnedTo pos exitPrice - pos.costUsd) >>=
        defaultContext.quantize quantizeHalfEven (-2))
      (|returnedTo pos exitPrice - pos.costUsd| < defaultContext.threshold 26) (closedTo pos exitPrice).realized := by
  have h := defaultContext.finish_quantize_halfEven_spec etiny_le_neg_two twenty_six_le
    (returnedTo pos exitPrice - pos.costUsd)
  rw [← cent_eq] at h
  exact h

/-- What the amounts of a close must keep within, once its exit price is known. -/
structure SettlesWithin (pos : PaperPosition) (exitPrice cash : ℚ) : Prop where
  worth_lt : |pos.quantity * exitPrice| < defaultContext.threshold 29
  settlement : SettlementFits pos exitPrice
  profit_lt : |returnedTo pos exitPrice - pos.costUsd| < defaultContext.threshold 26
  cash_fits : defaultContext.Fits (cash + returnedTo pos exitPrice)

theorem closeHeld_spec {refPrice : ℚ} (h : 0 < refPrice) (pos : PaperPosition) (cash : ℚ) :
    ReturnsIff (defaultArithmetic.closeHeld pos refPrice cash)
      (slippedExactly pos.side.opp refPrice < defaultContext.threshold 20 ∧
        SettlesWithin pos (slippedTo pos.side.opp refPrice) cash)
      (closedTo pos (slippedTo pos.side.opp refPrice),
        defaultContext.nearest (cash + returnedTo pos (slippedTo pos.side.opp refPrice))) := by
  generalize hexit : slippedTo pos.side.opp refPrice = exitPrice
  have hslipped := slipped_spec h pos.side.opp
  rw [hexit] at hslipped
  have hops : defaultArithmetic.closeHeld pos refPrice cash =
      (defaultArithmetic.slipped pos.side.opp refPrice >>= fun exitPrice =>
        defaultContext.finish (pos.quantity * exitPrice) >>= fun notional =>
          defaultArithmetic.takerFee notional >>= fun fee =>
            defaultArithmetic.cashReturned pos notional fee exitPrice >>= fun returned =>
              (defaultContext.finish (returned - pos.costUsd) >>=
                defaultContext.quantize quantizeHalfEven (-2)) >>= fun realized =>
                defaultContext.finish (cash + returned) >>= fun cash' =>
                  .ok (ClosingFill.mk pos.side.opp exitPrice notional fee returned realized, cash')) := by
    rw [Arithmetic.closeHeld, Arithmetic.closingFill]
    simp only [bind_assoc]
    rfl
  rw [hops]
  refine (hslipped.bind fun _ => (defaultContext.finish_spec (pos.quantity * exitPrice)).bind fun hworth =>
    (takerFee_spec _).bind fun hfee => (cashReturned_spec ((fee_fits_iff _).1 ⟨hworth, hfee⟩)).bind fun _ =>
      (realized_spec pos exitPrice).bind fun _ =>
        (defaultContext.finish_spec (cash + returnedTo pos exitPrice)).map fun cash' =>
          (closedTo pos exitPrice, cash')).congr ?_
  constructor
  · rintro ⟨hprice, hworth, hfee, hsettlement, hprofit, hcash⟩
    exact ⟨hprice, (fee_fits_iff _).1 ⟨hworth, hfee⟩, hsettlement, hprofit, hcash⟩
  · rintro ⟨hprice, hsettles⟩
    obtain ⟨hworth, hfee⟩ := (fee_fits_iff _).2 hsettles.worth_lt
    exact ⟨hprice, hworth, hfee, hsettles.settlement, hsettles.profit_lt, hsettles.cash_fits⟩

end DefaultContext

/-! ### Orders that are answered -/

/-- The order is filled at a positive price, or it is refused with an error of the domain. -/
def Answered : Except OrderError ExecutionResult → Prop
  | .ok result =>
    (result.status = .filled ∨ result.status = .partiallyFilled) ∧
      ∃ price, result.averageFillPrice = some price ∧ 0 < price
  | .error (.broker (.orderRejected _)) => True
  | .error (.broker (.insufficientBalance _ _)) => True
  | .error (.broker .notPaperMode) => False
  | .error (.broker .divisionByZero) => False
  | .error (.signal _) => False

/-- `place_order` on a broker that is `b` when it is called and `b'` when the latency is over. -/
def placeOrderIn (ops : Arithmetic) (settings : Settings) (b b' : PaperBroker) (a : RiskAssessment ℚ)
    (choice : FillChoice) (resultId : ℕ) : Except OrderError ExecutionResult :=
  match b.acceptOrder settings a with
  | .error err => .error (.broker err)
  | .ok (.inl cached) => .ok cached
  | .ok (.inr refPrice) => (b'.fillOrderIn ops a refPrice choice resultId).map Filled.result

namespace DefaultContext

/-- The reference price, moved by the slippage, is not lost in the truncation and not too long for it. -/
structure PriceWithin (side : OrderSide) (refPrice : ℚ) : Prop where
  price_ge : defaultContext.threshold (-8) ≤ slippedExactly side refPrice
  price_lt : slippedExactly side refPrice < defaultContext.threshold 20

/-- What the amounts of an opening must keep within, once its fill price is known; a size that buys nothing is
refused before they are computed. -/
structure FillsWithin (fillPrice size cash : ℚ) (choice : FillChoice) : Prop where
  size_lt : size < defaultContext.threshold 20 * fillPrice
  worth_lt :
    defaultContext.threshold (-8) * fillPrice ≤ size →
      (chosenTo (boughtTo size fillPrice) choice).1 * fillPrice < defaultContext.threshold 29
  cash_fits :
    defaultContext.threshold (-8) * fillPrice ≤ size →
      totalOn ((chosenTo (boughtTo size fillPrice) choice).1 * fillPrice) ≤ cash →
        defaultContext.Fits (cash - totalOn ((chosenTo (boughtTo size fillPrice) choice).1 * fillPrice))

/-- An order of this size on a flat symbol: its price and its amounts are not too long. -/
structure OpensWithin (side : OrderSide) (refPrice size cash : ℚ) (choice : FillChoice) : Prop where
  price : PriceWithin side refPrice
  fills : FillsWithin (slippedTo side refPrice) size cash choice

/-- An order against a position closes it: its price and its amounts are not too long. -/
structure ClosesWithin (pos : PaperPosition) (refPrice cash : ℚ) : Prop where
  price : PriceWithin pos.side.opp refPrice
  settles : SettlesWithin pos (slippedTo pos.side.opp refPrice) cash

/-- A computation on decimals comes before the rest of an order. -/
private theorem answered_raising_iff {α : Type} {x : Except DecimalSignal α} {p : Prop} {v : α}
    (h : ReturnsIff x p v) (f : α → Except OrderError Filled) :
    Answered ((Arithmetic.raising x >>= f).map Filled.result) ↔ p ∧ Answered ((f v).map Filled.result) := by
  by_cases hp : p
  · rw [h.returns hp, raising_ok_bind]
    exact ⟨fun ha => ⟨hp, ha⟩, fun ha => ha.2⟩
  · obtain ⟨e, he⟩ := h.raises hp
    rw [he]
    exact ⟨fun ha => ha.elim, fun ha => absurd ha.1 hp⟩

/-- A quantity that is bought and fills: the cash pays for it and is not too long, or it does not pay. -/
private theorem answered_fill_iff {b : PaperBroker} {a : RiskAssessment ℚ} {fillPrice requestedQty : ℚ}
    {choice : FillChoice} {resultId : ℕ} (hpos : 0 < requestedQty) (hlt : requestedQty < 10 ^ (20 : ℤ))
    (hprice : 0 < fillPrice) :
    Answered ((Arithmetic.raising (defaultArithmetic.fillNumbers fillPrice requestedQty choice) >>=
        fun fill => b.payIn defaultArithmetic a fill resultId).map Filled.result) ↔
      (chosenTo requestedQty choice).1 * fillPrice < defaultContext.threshold 29 ∧
        (totalOn ((chosenTo requestedQty choice).1 * fillPrice) ≤ b.cashBalance →
          defaultContext.Fits (b.cashBalance - totalOn ((chosenTo requestedQty choice).1 * fillPrice))) := by
  obtain ⟨-, -, hstatus⟩ := chosenQty_spec hpos hlt choice
  rw [answered_raising_iff (fillNumbers_spec hpos hlt hprice choice)]
  refine and_congr_right fun _ => ?_
  unfold payIn
  dsimp only
  by_cases hcash : b.cashBalance < totalOn ((chosenTo requestedQty choice).1 * fillPrice)
  · rw [if_pos hcash]
    exact iff_of_true trivial fun hle => absurd hle (not_le.2 hcash)
  · have hsub (x y : ℚ) :
        ReturnsIff (defaultArithmetic.sub x y) (defaultContext.Fits (x - y)) (defaultContext.nearest (x - y)) :=
      defaultContext.finish_spec _
    rw [if_neg hcash, answered_raising_iff (hsub _ _)]
    exact ⟨fun h _ => h.1, fun h => ⟨h (not_lt.1 hcash), hstatus, _, rfl, hprice⟩⟩

theorem answered_openIn_iff {b : PaperBroker} {a : RiskAssessment ℚ} {refPrice : ℚ} {choice : FillChoice}
    {resultId : ℕ} (href : 0 < refPrice) (hsize : 0 < a.effectiveSizeUsd) :
    Answered ((b.openIn defaultArithmetic a refPrice choice resultId).map Filled.result) ↔
      OpensWithin a.originalProposal.side refPrice a.effectiveSizeUsd b.cashBalance choice := by
  have hposIff := slippedTo_pos_iff href a.originalProposal.side
  have hnonneg : 0 ≤ slippedTo a.originalProposal.side refPrice :=
    quantizeDown_nonneg qtyPlaces_pos (defaultContext.nearest_nonneg (slippedExactly_pos href _).le)
  have hfills : ∀ fillPrice, 0 < fillPrice → a.effectiveSizeUsd < defaultContext.threshold 20 * fillPrice →
      (Answered (((if boughtTo a.effectiveSizeUsd fillPrice ≤ 0 then
            .error (.broker (.orderRejected (.zeroQuantity a.effectiveSizeUsd fillPrice)))
          else
            Arithmetic.raising
              (defaultArithmetic.fillNumbers fillPrice (boughtTo a.effectiveSizeUsd fillPrice) choice)) >>=
          fun fill => b.payIn defaultArithmetic a fill resultId).map Filled.result) ↔
        FillsWithin fillPrice a.effectiveSizeUsd b.cashBalance choice) := by
    intro fillPrice hprice hlt
    have hbought := boughtTo_pos_iff hsize hprice
    have hshort := (quantized_bounds (div_pos hsize hprice).le ((div_lt_iff₀ hprice).2 hlt)).2
    by_cases hqty : boughtTo a.effectiveSizeUsd fillPrice ≤ 0
    · -- a size that buys nothing is refused before the amounts are computed
      have hless := mt hbought.2 (not_lt.2 hqty)
      rw [if_pos hqty]
      exact iff_of_true trivial ⟨hlt, fun h => absurd h hless, fun h => absurd h hless⟩
    · rw [if_neg hqty, answered_fill_iff (not_le.1 hqty) hshort hprice]
      have henough := hbought.1 (not_le.1 hqty)
      exact ⟨fun h => ⟨hlt, fun _ => h.1, fun _ => h.2⟩, fun h => ⟨h.worth_lt henough, h.cash_fits henough⟩⟩
  rw [openIn, Arithmetic.openingFill, bind_assoc,
    answered_raising_iff (slipped_spec href a.originalProposal.side), if_neg (not_le.2 hsize), bind_assoc,
    answered_raising_iff (boughtQty_spec' hsize hnonneg)]
  constructor
  · rintro ⟨hprice, ⟨hpos, hlt⟩, h⟩
    exact ⟨⟨hposIff.1 hpos, hprice⟩, (hfills _ hpos hlt).1 h⟩
  · rintro ⟨hprice, h⟩
    have hpos := hposIff.2 hprice.price_ge
    exact ⟨hprice.price_lt, ⟨hpos, h.size_lt⟩, (hfills _ hpos h.size_lt).2 h⟩

theorem answered_closeIn_iff {b : PaperBroker} {a : RiskAssessment ℚ} {pos : PaperPosition} {refPrice : ℚ}
    {resultId : ℕ} (href : 0 < refPrice) :
    Answered ((b.closeIn defaultArithmetic a pos refPrice resultId).map Filled.result) ↔
      ClosesWithin pos refPrice b.cashBalance := by
  have hposIff := slippedTo_pos_iff href pos.side.opp
  rw [closeIn, answered_raising_iff (closeHeld_spec href pos b.cashBalance)]
  constructor
  · rintro ⟨⟨hprice, hsettles⟩, -, price, hexit, hpos⟩
    cases hexit
    exact ⟨⟨hposIff.1 hpos, hprice⟩, hsettles⟩
  · rintro ⟨hprice, hsettles⟩
    exact ⟨⟨hprice.price_lt, hsettles⟩, .inl rfl, _, rfl, hposIff.2 hprice.price_ge⟩

/-- The price and the amounts that an accepted order opens or closes a position with are not too short and not too
long; an order on the side of the position is refused before they are computed. -/
def FillWithin (b : PaperBroker) (a : RiskAssessment ℚ) (refPrice : ℚ) (choice : FillChoice) : Prop :=
  match b.positions.get? a.originalProposal.symbol with
  | some pos => pos.side ≠ a.originalProposal.side → ClosesWithin pos refPrice b.cashBalance
  | none => OpensWithin a.originalProposal.side refPrice a.effectiveSizeUsd b.cashBalance choice

/-- The order is within the decimal context: it is remembered with a fill, or its fill is within it. -/
def OrderWithin (b b' : PaperBroker) (a : RiskAssessment ℚ) (choice : FillChoice) : Prop :=
  match b.filledOrders.get? a.proposalId with
  | some cached => Answered (.ok cached)
  | none =>
    match a.originalProposal.signal.technicalSignal with
    | none => True
    | some tech => 0 < tech.price → FillWithin b' a tech.price choice

/-- What an order that was accepted at a reference price comes to. -/
theorem answered_fillOrderIn_iff {b : PaperBroker} {a : RiskAssessment ℚ} {refPrice : ℚ} {choice : FillChoice}
    {resultId : ℕ} (href : 0 < refPrice) (hsize : 0 < a.effectiveSizeUsd) :
    Answered ((b.fillOrderIn defaultArithmetic a refPrice choice resultId).map Filled.result) ↔
      FillWithin b a refPrice choice := by
  unfold fillOrderIn FillWithin
  cases b.positions.get? a.originalProposal.symbol with
  | none => exact answered_openIn_iff href hsize
  | some pos =>
    dsimp only
    by_cases hside : pos.side = a.originalProposal.side
    · rw [if_pos hside]
      exact iff_of_true trivial fun hne => absurd hside hne
    · rw [if_neg hside, answered_closeIn_iff href]
      exact ⟨fun h _ => h, fun h => h hside⟩

end DefaultContext

open DefaultContext

/-- An order of a paper broker is filled at a positive price or refused with an error of the domain exactly when its
price and its amounts are within the decimal context. -/
theorem answered_placeOrder_iff {settings : Settings} (hpaper : settings.isPaperTrading = true) {b b' : PaperBroker}
    {a : RiskAssessment ℚ} (hsize : 0 < a.effectiveSizeUsd) (choice : FillChoice) (resultId : ℕ) :
    Answered (placeOrderIn defaultArithmetic settings b b' a choice resultId) ↔ OrderWithin b b' a choice := by
  unfold placeOrderIn OrderWithin acceptOrder
  rw [if_neg (by rw [hpaper]; exact Bool.noConfusion)]
  cases b.filledOrders.get? a.proposalId with
  | some cached => exact Iff.rfl
  | none =>
    cases a.originalProposal.signal.technicalSignal with
    | none => exact Iff.rfl
    | some tech =>
      dsimp only
      by_cases hprice : tech.price ≤ 0
      · rw [dif_pos hprice]
        exact iff_of_true trivial fun hpos => absurd hprice (not_le.2 hpos)
      · rw [dif_neg hprice]
        have hpos := not_le.1 hprice
        exact (answered_fillOrderIn_iff hpos hsize).trans ⟨fun h _ => h, fun h => h hpos⟩

/-- An order of a thousand dollars at a price of one billionth. -/
def tinyPriceOrder (side : OrderSide) : RiskAssessment ℚ :=
  plainOrder 1 "BABYDOGE/USDT" side 1000 thousand_pos (1 / 1000000000)

/-- A long that was bought at a price of one hundred millionth. -/
def tinyPricePosition : PaperPosition where
  symbol := "BABYDOGE/USDT"
  side := .buy
  quantity := 100000000000
  entryPrice := 1 / 100000000
  costUsd := 1001

def tinyPriceBroker : PaperBroker where
  cashBalance := 8999
  positions := Dict.empty.set "BABYDOGE/USDT" tinyPricePosition

private theorem tinyPrice_opening :
    placeOrderIn defaultArithmetic defaultSettings (.init defaultSettings) (.init defaultSettings)
      (tinyPriceOrder .buy) .full 7 = .error (.signal .divisionByZero) := by decide +kernel

private theorem tinyPrice_close :
    (placeOrderIn defaultArithmetic defaultSettings tinyPriceBroker tinyPriceBroker (tinyPriceOrder .sell) .full
      7).map ExecutionResult.averageFillPrice = .ok (some 0) := by decide +kernel

private theorem not_answered_of_price_zero {x : Except OrderError ExecutionResult}
    (h : x.map ExecutionResult.averageFillPrice = .ok (some 0)) : ¬Answered x := by
  cases x with
  | error err => cases h
  | ok result =>
    rintro ⟨-, price, hprice, hpos⟩
    have hzero : some price = some 0 := hprice.symm.trans (Except.ok.inj h)
    cases hzero
    exact lt_irrefl 0 hpos

/-- A price that is truncated to nothing: the opening divides by it, and the close reports it. -/
theorem not_answered_tiny_price :
    defaultSettings.isPaperTrading = true ∧
      (0 < (tinyPriceOrder .buy).effectiveSizeUsd ∧
        ¬Answered (placeOrderIn defaultArithmetic defaultSettings (.init defaultSettings) (.init defaultSettings)
          (tinyPriceOrder .buy) .full 7)) ∧
      (0 < (tinyPriceOrder .sell).effectiveSizeUsd ∧
        ¬Answered (placeOrderIn defaultArithmetic defaultSettings tinyPriceBroker tinyPriceBroker
          (tinyPriceOrder .sell) .full 7)) := by
  refine ⟨by decide +kernel, ⟨by decide +kernel, ?_⟩, by decide +kernel, not_answered_of_price_zero tinyPrice_close⟩
  rw [tinyPrice_opening]
  exact id

private theorem opensWithin_example : OpensWithin .buy 200 1000 10000 .full where
  price := ⟨by decide +kernel, by decide +kernel⟩
  fills :=
    { size_lt := by decide +kernel
      worth_lt := fun _ => by decide +kernel
      cash_fits := fun _ _ => by
        unfold DecimalContext.Fits
        decide +kernel }

/-- Five units at a price of about two hundred are within the context. -/
theorem answered_placeOrder_example :
    Answered (placeOrderIn defaultArithmetic defaultSettings (.init defaultSettings) (.init defaultSettings)
      exampleOrder .full 7) :=
  (answered_placeOrder_iff (by decide +kernel) (by decide +kernel) .full 7).2 fun _ => opensWithin_example

end MultiAgentTrading
