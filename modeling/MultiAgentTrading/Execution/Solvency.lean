import MultiAgentTrading.Execution.BrokerRuns
import MultiAgentTrading.Execution.FillBounds

/-!
# When the paper account stays solvent

An opening is checked against the cash, a close is not.  The close of a long only adds to the cash; the close of a
short can take out any amount, since nothing bounds the price it is bought back at.  `solvent_iff_shorts_covered`: over
every interleaving the cash and the equity stay nonnegative exactly as long as each short that is closed loses no more
than its cost and the cash there is.
-/

namespace MultiAgentTrading

open PaperBroker Runs

namespace BrokerRun

/-- The reference price of `close_position`: a missing or nonpositive price stands for the entry price. -/
def refPriceOf (pos : PaperPosition) (price : Option ℚ) : ℚ :=
  match price with
  | some p => if 0 < p then p else pos.entryPrice
  | none => pos.entryPrice

/-- The position that a call closes when its latency is over: an order that finds one on the other side. -/
def closedBy (w : PaperAccount) : BrokerTask → Option (PaperPosition × ℚ)
  | .sleeping a refPrice =>
    match w.broker.positions.get? a.originalProposal.symbol with
    | some pos => if pos.side = a.originalProposal.side then none else some (pos, refPrice)
    | none => none
  | .saving _ _ => none
  | .done _ => none

/-- The position that an event closes, and the reference price of the close. -/
def closing (s : BrokerRun) : BrokerEvent → Option (PaperPosition × ℚ)
  | .placeOrder _ => none
  | .closePosition symbol price _ _ _ =>
    (s.account.broker.positions.get? symbol).map fun pos => (pos, refPriceOf pos price)
  | .resume i (.latencyOver _ _) => s.tasks[i]?.bind (closedBy s.account)
  | .resume _ (.saved _) => none
  | .link _ => none

/-- A short that is closed loses, with the fee, no more than its cost and the cash there is. -/
def ShortCovered (s : BrokerRun) (e : BrokerEvent) : Prop :=
  ∀ pos refPrice, closing s e = some (pos, refPrice) → pos.side = .sell →
    (slipped .buy refPrice - pos.entryPrice) * pos.quantity + takerFee (pos.quantity * slipped .buy refPrice) ≤
      s.account.broker.cashBalance + pos.costUsd

/-- After the step neither the cash nor the equity is negative. -/
def StaysSolvent (settings : Settings) (s : BrokerRun) (e : BrokerEvent) : Prop :=
  ∀ s', step settings s e = some s' → 0 ≤ s'.account.broker.cashBalance ∧ 0 ≤ s'.account.equity

/-- A position that is held can be closed. -/
private theorem exists_closeAt {b : PaperBroker} {symbol : String} {pos : PaperPosition}
    (h : b.positions.get? symbol = some pos) (refPrice : ℚ) (proposalId assessmentId resultId : ℕ) :
    ∃ c, b.closeAt symbol refPrice proposalId assessmentId resultId = some c ∧ c.position = pos := by
  cases hc : b.closeAt symbol refPrice proposalId assessmentId resultId with
  | none => simp [closeAt, h] at hc
  | some c => exact ⟨c, rfl, Option.some.inj ((closeAt_spec hc).1.symm.trans h)⟩

/-- The account after the close of a position: the cash it returns is added and the position is taken out. -/
structure TakesOut (w w' : PaperAccount) (symbol : String) (pos : PaperPosition) (refPrice : ℚ) : Prop where
  held : w.broker.positions.get? symbol = some pos
  cash : w'.broker.cashBalance = w.broker.cashBalance + (closingFill pos refPrice).cashReturned
  positions : w'.broker.positions = w.broker.positions.erase symbol
  refPrice : 0 < refPrice ∨ refPrice = pos.entryPrice

private theorem takesOut_startSave {w : PaperAccount} {c : Closed} {symbol : String} {refPrice : ℚ}
    {proposalId assessmentId resultId : ℕ}
    (h : w.broker.closeAt symbol refPrice proposalId assessmentId resultId = some c)
    (href : 0 < refPrice ∨ refPrice = c.position.entryPrice) (next : AfterSave) :
    TakesOut w ((w.recordClose c).startSave next).1 symbol c.position refPrice := by
  obtain ⟨hheld, hfill, hbroker, -⟩ := closeAt_spec h
  obtain ⟨hcash, hpositions, -⟩ := PaperAccount.sameBooks_startSave (w.recordClose c) next
  refine ⟨hheld, ?_, ?_, href⟩
  · rw [hcash, PaperAccount.recordClose, hbroker, hfill]
  · rw [hpositions, PaperAccount.recordClose, hbroker]

theorem refPriceOf_cases (pos : PaperPosition) (price : Option ℚ) :
    0 < refPriceOf pos price ∨ refPriceOf pos price = pos.entryPrice := by
  cases price with
  | none => exact .inr rfl
  | some p =>
    unfold refPriceOf
    dsimp only
    split
    case isTrue h => exact .inl h
    case isFalse => exact .inr rfl

/-- An order that finds a position on the other side when its latency is over fills as its close. -/
private theorem resume_of_closedBy {w : PaperAccount} {task : BrokerTask} {pos : PaperPosition} {refPrice : ℚ}
    (h : closedBy w task = some (pos, refPrice)) (choice : FillChoice) (resultId : ℕ) :
    ∃ resumed symbol, w.resume task (.latencyOver choice resultId) = some resumed ∧
      TakesOut w resumed.1 symbol pos refPrice := by
  cases task with
  | saving stage next => cases h
  | done outcome => cases h
  | sleeping a orderPrice =>
    simp only [closedBy] at h
    cases hheld : w.broker.positions.get? a.originalProposal.symbol with
    | none => simp [hheld] at h
    | some held =>
      simp only [hheld] at h
      split at h
      case isTrue => cases h
      case isFalse hside =>
        cases h
        obtain ⟨c, hclose, rfl⟩ := exists_closeAt hheld orderPrice a.proposalId a.assessmentId resultId
        have hfill : w.broker.fillOrder a orderPrice choice resultId = .ok (.closed c) := by
          unfold fillOrder
          dsimp only
          rw [hheld]
          dsimp only
          rw [if_neg hside, hclose]
        have htakes := takesOut_startSave hclose (.inl orderPrice.2) (.rememberAndReply a.proposalId c.result)
        refine ⟨_, _, ?_, htakes⟩
        unfold PaperAccount.resume
        dsimp only
        rw [hfill]

/-- An event that closes a position is enabled. -/
theorem step_of_closing {settings : Settings} {s : BrokerRun} {e : BrokerEvent} {pos : PaperPosition} {refPrice : ℚ}
    (h : closing s e = some (pos, refPrice)) :
    ∃ s' symbol, step settings s e = some s' ∧ TakesOut s.account s'.account symbol pos refPrice := by
  cases e with
  | placeOrder a => cases h
  | link connected => cases h
  | closePosition symbol price proposalId assessmentId resultId =>
    obtain ⟨pos', hheld, hpair⟩ := Option.map_eq_some_iff.1 h
    cases hpair
    obtain ⟨c, hclose, rfl⟩ := exists_closeAt hheld (refPriceOf pos price) proposalId assessmentId resultId
    refine ⟨_, symbol, rfl, ?_⟩
    have hstarted : s.account.broker.closePosition symbol price proposalId assessmentId resultId = some c := by
      rw [← hclose, closePosition, hheld]
      rfl
    have htakes := takesOut_startSave hclose (refPriceOf_cases _ _) (.reply c.result)
    unfold PaperAccount.startClose
    rw [hstarted]
    exact htakes
  | resume i wakeup =>
    cases wakeup with
    | saved ok => cases h
    | latencyOver choice resultId =>
      obtain ⟨task, htask, hclosed⟩ := Option.bind_eq_some_iff.1 h
      obtain ⟨resumed, symbol, hresume, htakes⟩ := resume_of_closedBy hclosed choice resultId
      refine ⟨⟨resumed.1, s.tasks.set i resumed.2⟩, symbol, ?_, htakes⟩
      simp only [step, htask, hresume, Option.map_some]

/-- The account after an event that closes nothing: the books are untouched, or a position is opened that the cash
paid for. -/
inductive TakesNothing (w w' : PaperAccount) : Prop
  | same (h : PaperAccount.SameBooks w w')
  | opened (position : PaperPosition) (hcost : position.costUsd ≤ w.broker.cashBalance)
      (hcash : w'.broker.cashBalance = w.broker.cashBalance - position.costUsd)

private theorem takesNothing_startSave {w w' : PaperAccount} (h : TakesNothing w w') (next : AfterSave) :
    TakesNothing w (w'.startSave next).1 := by
  obtain ⟨hcash, hpositions, hfills⟩ := PaperAccount.sameBooks_startSave w' next
  cases h with
  | same hs => exact .same ⟨hcash.trans hs.cash, hpositions.trans hs.positions, hfills.trans hs.fills⟩
  | opened position hcost hopened => exact .opened position hcost (hcash.trans hopened)

/-- An order that closes no position when its latency is over is refused, or opens one that the cash pays for. -/
private theorem takesNothing_resume {w w' : PaperAccount} {task task' : BrokerTask} {choice : FillChoice}
    {resultId : ℕ} (h : closedBy w task = none)
    (hresume : w.resume task (.latencyOver choice resultId) = some (w', task')) : TakesNothing w w' := by
  cases task with
  | saving stage next => cases stage <;> cases hresume
  | done outcome => cases hresume
  | sleeping a refPrice =>
    unfold PaperAccount.resume at hresume
    dsimp only at hresume
    split at hresume
    case h_1 =>
      cases hresume
      exact .same (.refl _)
    case h_2 broker position result hfill =>
      -- an opening is checked against the cash before it is paid
      obtain rfl : _ = w' := congrArg Prod.fst (Option.some.inj hresume)
      refine takesNothing_startSave ?_ _
      rcases fillOrder_cases hfill with ⟨c, hc, -⟩ | ⟨fill, -, -, hcost, hf⟩
      · cases hc
      · cases hf
        exact .opened (openedPosition a fill) hcost rfl
    case h_3 c hfill =>
      exfalso
      rcases fillOrder_cases hfill with ⟨c', hc, hside, hclose⟩ | ⟨fill, -, -, -, hf⟩
      · have hheld := (closeAt_spec hclose).1
        simp only [closedBy, hheld, hside, if_neg (OrderSide.opp_ne _)] at h
        cases h
      · cases hf

/-- An event that closes nothing takes nothing out of the account that was not there. -/
theorem takesNothing_of_closing_none {settings : Settings} {s s' : BrokerRun} {e : BrokerEvent}
    (h : closing s e = none) (hstep : step settings s e = some s') : TakesNothing s.account s'.account := by
  cases e with
  | placeOrder a =>
    cases hstep
    exact .same (.refl _)
  | link connected =>
    cases hstep
    exact .same ⟨rfl, rfl, rfl⟩
  | closePosition symbol price proposalId assessmentId resultId =>
    have hflat := Option.map_eq_none_iff.1 h
    have hnone : s.account.broker.closePosition symbol price proposalId assessmentId resultId = none :=
      closePosition_eq_none_iff.2 hflat
    cases hstep
    unfold PaperAccount.startClose
    rw [hnone]
    exact .same (.refl _)
  | resume i wakeup =>
    obtain ⟨task, w, task', htask, hresume, rfl⟩ := step_resume hstep
    cases wakeup with
    | saved ok =>
      cases task with
      | sleeping a refPrice => cases hresume
      | saving stage next => exact .same (PaperAccount.resume_saving hresume).1
      | done outcome => cases hresume
    | latencyOver choice resultId =>
      have hopen : closedBy s.account task = none := by
        have hbind : s.tasks[i]?.bind (closedBy s.account) = none := h
        rwa [htask] at hbind
      exact takesNothing_resume hopen hresume

/-! ### What each close takes out -/

private theorem slipped_nonneg_of_takesOut {w w' : PaperAccount} {symbol : String} {pos : PaperPosition} {refPrice : ℚ}
    (h : TakesOut w w' symbol pos refPrice) (hwf : WellFormed pos) (side : OrderSide) : 0 ≤ slipped side refPrice := by
  rcases h.refPrice with hpos | rfl
  · exact slipped_nonneg hpos side
  · exact slipped_nonneg hwf.entryPrice_pos side

theorem costUsd_nonneg {pos : PaperPosition} (h : WellFormed pos) : 0 ≤ pos.costUsd := by
  have hnotional : 0 ≤ pos.quantity * pos.entryPrice := mul_nonneg h.quantity_pos.le h.entryPrice_pos.le
  rw [h.costUsd_eq]
  exact add_nonneg hnotional (takerFee_bounds hnotional).1

/-- The close of a long returns its notional less a fee that is a small part of it. -/
theorem cashReturned_long_nonneg {pos : PaperPosition} {refPrice : ℚ} (hwf : WellFormed pos) (hside : pos.side = .buy)
    (hexit : 0 ≤ slipped .sell refPrice) : 0 ≤ (closingFill pos refPrice).cashReturned := by
  have hnotional : 0 ≤ pos.quantity * slipped .sell refPrice := mul_nonneg hwf.quantity_pos.le hexit
  have hfee := (takerFee_bounds hnotional).2
  simp only [closingFill, hside]
  rw [takerFeePct] at hfee
  linarith

/-- The close of a short returns its cost less the loss and the fee. -/
theorem cashReturned_short {pos : PaperPosition} (refPrice : ℚ) (hside : pos.side = .sell) :
    (closingFill pos refPrice).cashReturned = pos.costUsd -
      ((slipped .buy refPrice - pos.entryPrice) * pos.quantity + takerFee (pos.quantity * slipped .buy refPrice)) := by
  simp only [closingFill, hside]
  ring

/-- Every position costs something, so the equity is no less than the cash. -/
theorem cash_le_equity {w : PaperAccount} (h : w.Lives) : w.broker.cashBalance ≤ w.equity := by
  have hmargin : 0 ≤ w.broker.usedMargin :=
    Dict.total_nonneg fun symbol pos hpos => costUsd_nonneg (h.wellFormed symbol pos hpos)
  exact le_add_of_nonneg_right hmargin

/-! ### Solvency of a step and of a run -/

/-- Between the steps the cash is not negative and every position is as its opening fill left it. -/
structure Solvent (s : BrokerRun) : Prop where
  cash : 0 ≤ s.account.broker.cashBalance
  lives : s.account.Lives

theorem Solvent.init {settings : Settings} (hbalance : 0 < settings.paperInitialBalanceUsd) (connected : Bool) :
    Solvent (init settings connected) where
  cash := hbalance.le
  lives := ⟨fun _ => rfl, fun _ _ hp => by cases hp⟩

theorem lives_step {settings : Settings} {s s' : BrokerRun} {e : BrokerEvent} (h : s.account.Lives)
    (hstep : step settings s e = some s') : s'.account.Lives :=
  h.effect (step_effect hstep)

/-- A step of a solvent run keeps the cash nonnegative exactly when the short it closes, if any, is covered. -/
theorem cash_nonneg_iff_shortCovered {settings : Settings} {s s' : BrokerRun} {e : BrokerEvent} (h : Solvent s)
    (hstep : step settings s e = some s') : 0 ≤ s'.account.broker.cashBalance ↔ ShortCovered s e := by
  cases hclosing : closing s e with
  | none =>
    have hcovered : ShortCovered s e := by
      intro pos refPrice hsome
      rw [hclosing] at hsome
      cases hsome
    refine iff_of_true ?_ hcovered
    cases takesNothing_of_closing_none hclosing hstep with
    | same hs => exact hs.cash ▸ h.cash
    | opened position hcost hcash => exact hcash ▸ sub_nonneg.2 hcost
  | some closed =>
    obtain ⟨pos, refPrice⟩ := closed
    obtain ⟨t, symbol, ht, htakes⟩ := step_of_closing hclosing
    obtain rfl : t = s' := Option.some.inj (ht.symm.trans hstep)
    have hwf := h.lives.wellFormed symbol pos htakes.held
    cases hside : pos.side with
    | buy =>
      -- the close of a long needs no cover
      have hcovered : ShortCovered s e := by
        intro pos' refPrice' hsome hshort
        rw [hclosing] at hsome
        cases hsome
        rw [hside] at hshort
        cases hshort
      have hexit := slipped_nonneg_of_takesOut htakes hwf .sell
      rw [htakes.cash]
      exact iff_of_true (add_nonneg h.cash (cashReturned_long_nonneg hwf hside hexit)) hcovered
    | sell =>
      rw [htakes.cash, cashReturned_short refPrice hside]
      constructor
      · intro hcash pos' refPrice' hsome _
        rw [hclosing] at hsome
        cases hsome
        linarith
      · intro hcovered
        have := hcovered pos refPrice hclosing hside
        linarith

theorem staysSolvent_iff_shortCovered {settings : Settings} {s : BrokerRun} (e : BrokerEvent) (h : Solvent s) :
    StaysSolvent settings s e ↔ ShortCovered s e := by
  cases hstep : step settings s e with
  | none =>
    have hstays : StaysSolvent settings s e := by
      intro s' hs'
      rw [hstep] at hs'
      cases hs'
    refine iff_of_true hstays ?_
    intro pos refPrice hclosing
    obtain ⟨s', symbol, hs', -⟩ := @step_of_closing settings _ _ _ _ hclosing
    rw [hstep] at hs'
    cases hs'
  | some s' =>
    rw [← cash_nonneg_iff_shortCovered h hstep]
    constructor
    · intro hsolvent
      exact (hsolvent s' hstep).1
    · intro hcash t ht
      obtain rfl : s' = t := Option.some.inj (hstep.symm.trans ht)
      exact ⟨hcash, hcash.trans (cash_le_equity (lives_step h.lives hstep))⟩

/-- A step that closes no short, or a covered one, keeps the account solvent. -/
theorem Solvent.step {settings : Settings} {s s' : BrokerRun} {e : BrokerEvent} (h : Solvent s)
    (hcovered : ShortCovered s e) (hstep : step settings s e = some s') : Solvent s' where
  cash := (cash_nonneg_iff_shortCovered h hstep).2 hcovered
  lives := lives_step h.lives hstep

instance (s : BrokerRun) (e : BrokerEvent) : Decidable (ShortCovered s e) :=
  decidable_of_iff
    (∀ c ∈ closing s e, c.1.side = .sell →
      (slipped .buy c.2 - c.1.entryPrice) * c.1.quantity + takerFee (c.1.quantity * slipped .buy c.2) ≤
        s.account.broker.cashBalance + c.1.costUsd)
    ⟨fun h pos refPrice hc => h (pos, refPrice) hc, fun h c hc => h c.1 c.2 hc⟩

end BrokerRun

open BrokerRun

/-- When the paper account never goes negative, over every interleaving and whatever the prices do: the cash and the
equity are nonnegative after every step exactly as long as every short that is closed is covered.  Openings and closes
of longs need no condition. -/
theorem solvent_iff_shorts_covered {settings : Settings} (hbalance : 0 < settings.paperInitialBalanceUsd)
    (connected : Bool) (es : List BrokerEvent) :
    (Along (BrokerRun.step settings) (StaysSolvent settings) (.init settings connected) es ↔
      Along (BrokerRun.step settings) ShortCovered (.init settings connected) es) ∧
      (Along (BrokerRun.step settings) ShortCovered (.init settings connected) es →
        ∀ s, exec (BrokerRun.step settings) (.init settings connected) es = some s →
          0 ≤ s.account.broker.cashBalance ∧ 0 ≤ s.account.equity) := by
  have hinit := Solvent.init hbalance connected
  have hstays : ∀ s e, Solvent s → (StaysSolvent settings s e ↔ ShortCovered s e) :=
    fun s e hs => staysSolvent_iff_shortCovered e hs
  refine ⟨⟨fun h => ?_, fun h => ?_⟩, fun h s hexec => ?_⟩
  · exact Along.of_invariant Solvent (fun s e s' hs hc => hs.step ((hstays s e hs).1 hc))
      (fun s e hs => (hstays s e hs).1) hinit h
  · exact Along.of_invariant Solvent (fun s e s' hs => hs.step) (fun s e hs => (hstays s e hs).2) hinit h
  · have hsolvent : Solvent s := exec_invariant_along Solvent (fun s e s' hs => hs.step) hinit h hexec
    exact ⟨hsolvent.cash, hsolvent.cash.trans (cash_le_equity hsolvent.lives)⟩

/-- A short of two coins, bought back at the given price. -/
def shortRun (price : ℚ) : List BrokerEvent :=
  [.placeOrder (plainOrder 1 "BTC/USDT" .sell 200 two_hundred_pos 100), .resume 0 (.latencyOver .full 10),
    .resume 0 (.saved true), .closePosition "BTC/USDT" (some price) 2 3 11]

/-- At five times the price the short costs less than the account has. -/
theorem solvent_iff_shorts_covered_fivefold :
    0 < defaultSettings.paperInitialBalanceUsd ∧
      Along (BrokerRun.step defaultSettings) (StaysSolvent defaultSettings) (.init defaultSettings true)
        (shortRun 500) :=
  ⟨by decide, (solvent_iff_shorts_covered (by decide) true (shortRun 500)).1.2 (by decide +kernel)⟩

/-- At a hundred times the price the close is accepted, and neither the cash nor the equity is left nonnegative. -/
theorem short_squeeze_insolvent :
    0 < defaultSettings.paperInitialBalanceUsd ∧
      ∃ s, exec (BrokerRun.step defaultSettings) (.init defaultSettings true) (shortRun 10000) = some s ∧
        s.account.broker.cashBalance < 0 ∧ s.account.equity < 0 := by
  refine ⟨by decide, ?_⟩
  have hsome : (exec (BrokerRun.step defaultSettings) (.init defaultSettings true) (shortRun 10000)).map
      (fun s => decide (s.account.broker.cashBalance < 0 ∧ s.account.equity < 0)) = some true := by
    decide +kernel
  obtain ⟨s, hs, hneg⟩ := Option.map_eq_some_iff.1 hsome
  exact ⟨s, hs, of_decide_eq_true hneg⟩

end MultiAgentTrading
