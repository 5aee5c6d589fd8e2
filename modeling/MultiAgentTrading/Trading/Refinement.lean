import MultiAgentTrading.Trading.System
import MultiAgentTrading.Trading.Books
import MultiAgentTrading.Execution.BrokerRuns

/-!
# The trading system moves its books

`view` reads the books off a state of the trading system, `action` names what an event does in a state, and
`step_move` says that every step of the system is the move of that name.
-/

namespace MultiAgentTrading

open PaperBroker

/-- What `place_order` does for an assessment. -/
inductive OrderOutcome
  | raised (error : BrokerError)
  | opened (position : PaperPosition) (result : ExecutionResult)
  | closed (close : Closed)
  | replayed (result : ExecutionResult)

namespace LoopPhase

/-- The assessment whose order sleeps before its fill. -/
def orders : LoopPhase → List (RiskAssessment ℚ)
  | .placing a _ => [a]
  | _ => []

/-- The result that the run loop has yet to publish. -/
def results : LoopPhase → List ExecutionResult
  | .saving _ next => [next.result]
  | .publishing result _ => [result]
  | _ => []

/-- The proposal that a save under way is going to remember. -/
def toRemember : LoopPhase → List ℕ
  | .saving _ next => next.toRemember
  | _ => []

end LoopPhase

namespace MonitorPhase

/-- The result that the monitor has yet to publish. -/
def results : MonitorPhase → List ExecutionResult
  | .saving _ next _ => [next.result]
  | .publishing result _ => [result]
  | _ => []

/-- The proposal that a save under way is going to remember. -/
def toRemember : MonitorPhase → List ℕ
  | .saving _ next _ => next.toRemember
  | _ => []

end MonitorPhase

namespace TradingSystem

def canTake (s : TradingSystem) : Bool := !s.halted && !s.stopped

/-- The approved assessments that have not been taken yet. -/
def queued (s : TradingSystem) : List (RiskAssessment ℚ) :=
  (s.assessments ++ s.riskPending.toList).filter RiskAssessment.isApproved

/-- Side and cost of the positions of the broker. -/
def entries (positions : Dict String PaperPosition) (symbol : String) : Option (OrderSide × ℚ) :=
  (positions.get? symbol).map fun pos => (pos.side, pos.costUsd)

def view (s : TradingSystem) : Books where
  held := s.risk.drawdown.held
  value := s.risk.drawdown.state.portfolioValueUsd
  seen := s.risk.seenResults.keys
  takes := s.canTake
  waiting := (s.loop.orders ++ s.queued).map RiskAssessment.order
  live := (s.loop.orders ++ if s.canTake then s.queued else []).map RiskAssessment.order
  broker := entries s.account.broker.positions
  realized := s.account.realizedTotal
  remembered := s.loop.toRemember ++ (s.monitor.toRemember ++ s.account.broker.filledOrders.keys)
  results := s.results
  loopResults := s.loop.results
  monitorResults := s.monitor.results
  nextId := s.nextId

/-- The outcome of the `place_order` call that an event completes, with its assessment. -/
def orderOutcome (settings : Settings) (s : TradingSystem) : TradingEvent → Option (RiskAssessment ℚ × OrderOutcome)
  | .loopTake =>
    match s.loop, s.assessments with
    | .idle, a :: _ =>
      if s.canTake && a.isApproved then
        match s.account.broker.acceptOrder settings a with
        | .error e => some (a, .raised e)
        | .ok (.inl cached) => some (a, .replayed cached)
        | .ok (.inr _) => none
      else none
    | _, _ => none
  | .loopLatency choice =>
    match s.loop with
    | .placing a refPrice =>
      match s.account.broker.fillOrder a refPrice choice s.nextId with
      | .error e => some (a, .raised e)
      | .ok (.opened _ position result) => some (a, .opened position result)
      | .ok (.closed c) => some (a, .closed c)
    | _ => none
  | _ => none

def outcomeAction (a : RiskAssessment ℚ) : OrderOutcome → Action
  | .raised _ => .raise a.order
  | .opened _ _ => .opens a.order
  | .closed _ => .closes a.order
  | .replayed _ => .replay a.order

/-- What an event that completes no order does. -/
def otherAction (settings : Settings) (s : TradingSystem) : TradingEvent → Action
  | .riskEvaluate resetTime ageTime =>
    match s.proposals with
    | p :: _ =>
      let e := s.risk.evaluate settings.risk p s.nextId resetTime ageTime
      if e.assessment.isApproved then .approve e.assessment.order else .quiet
    | [] => .quiet
  | .riskApply => .settle
  | .loopTake => if s.canTake then .quiet else .degrade
  | .loopPublish ok => if ok then .publishLoop else .degrade
  | .monitorPublish ok => if ok then .publishMonitor else .degrade
  | .loopExit => .degrade
  | .haltExecution _ => .degrade
  | .monitorPrice (some p) =>
    match s.monitor with
    | .pricing pos _ =>
      if breached settings.mt5 pos p && s.account.broker.positions.contains pos.symbol then .stopClose pos.symbol
      else .quiet
    | _ => .quiet
  | _ => .quiet

/-- What an event does in a state. -/
def action (settings : Settings) (s : TradingSystem) (e : TradingEvent) : Action :=
  match orderOutcome settings s e with
  | some (a, outcome) => outcomeAction a outcome
  | none => otherAction settings s e

/-! ### Readings of the books -/

theorem entries_set (positions : Dict String PaperPosition) (symbol : String) (pos : PaperPosition) :
    entries (positions.set symbol pos) = Function.update (entries positions) symbol (some (pos.side, pos.costUsd)) := by
  funext symbol'
  unfold entries
  rw [Dict.get?_set, Function.update_apply]
  split <;> rfl

theorem entries_erase (positions : Dict String PaperPosition) (symbol : String) :
    entries (positions.erase symbol) = Function.update (entries positions) symbol none := by
  funext symbol'
  unfold entries
  rw [Dict.get?_erase, Function.update_apply]
  split <;> rfl

theorem entries_eq_none {positions : Dict String PaperPosition} {symbol : String}
    (h : positions.get? symbol = none) : entries positions symbol = none := by
  rw [entries, h]; rfl

theorem entries_eq_some {positions : Dict String PaperPosition} {symbol : String} {pos : PaperPosition}
    (h : positions.get? symbol = some pos) : entries positions symbol = some (pos.side, pos.costUsd) := by
  rw [entries, h]; rfl

/-! ### The risk agent -/

private theorem held_reset (m : DrawdownMonitor) (t : ℚ) : (m.maybeResetDaily t).held = m.held := by
  funext symbol
  exact DrawdownMonitor.held_maybeResetDaily m t symbol

private theorem held_open (m : DrawdownMonitor) (symbol : String) (size : ℚ) (d : OrderSide) :
    (m.openPosition symbol size (some d)).held = Function.update m.held symbol (some (d, size)) := by
  funext symbol'
  rw [DrawdownMonitor.held_openPosition, Function.update_apply]

/-- The state after an evaluation. -/
private def evaluated (s : TradingSystem) (e : Evaluation) (rest : List (TradeProposal ℚ)) : TradingSystem :=
  { s with proposals := rest, risk := e.agent, riskPending := some e.assessment, nextId := s.nextId + 1 }

private theorem queued_evaluated {s : TradingSystem} (e : Evaluation) (rest : List (TradeProposal ℚ))
    (hpending : s.riskPending = none) :
    (s.evaluated e rest).queued = s.queued ++ if e.assessment.isApproved then [e.assessment] else [] := by
  simp [queued, evaluated, hpending, List.filter_singleton]

private theorem view_evaluated_rejected {s : TradingSystem} {e : Evaluation} (rest : List (TradeProposal ℚ))
    (hpending : s.riskPending = none) (ha : e.assessment.isApproved = false) :
    (s.evaluated e rest).view =
      { s.view with
        held := e.agent.drawdown.held, value := e.agent.drawdown.state.portfolioValueUsd
        seen := e.agent.seenResults.keys, nextId := s.nextId + 1 } := by
  have hq := queued_evaluated e rest hpending
  simp only [ha, Bool.false_eq_true, if_false, List.append_nil] at hq
  refine Books.ext rfl rfl rfl rfl ?_ ?_ rfl rfl rfl rfl rfl rfl rfl
  · show List.map _ (s.loop.orders ++ (s.evaluated e rest).queued) = _
    rw [hq]; rfl
  · show List.map _ (s.loop.orders ++ if s.canTake then (s.evaluated e rest).queued else []) = _
    rw [hq]; rfl

private theorem view_evaluated_approved {s : TradingSystem} {e : Evaluation} (rest : List (TradeProposal ℚ))
    (hpending : s.riskPending = none) (ha : e.assessment.isApproved = true) :
    (s.evaluated e rest).view =
      { s.view.queue e.assessment.order (s.nextId + 1) with
        held := e.agent.drawdown.held, value := e.agent.drawdown.state.portfolioValueUsd
        seen := e.agent.seenResults.keys } := by
  have hq := queued_evaluated e rest hpending
  simp only [ha, if_true] at hq
  refine Books.ext rfl rfl rfl rfl ?_ ?_ rfl rfl rfl rfl rfl rfl rfl
  · show List.map _ (s.loop.orders ++ (s.evaluated e rest).queued) = List.map _ (s.loop.orders ++ s.queued) ++ [_]
    rw [hq]; simp
  · show List.map _ (s.loop.orders ++ if s.canTake then (s.evaluated e rest).queued else []) =
      if s.canTake then List.map _ (s.loop.orders ++ if s.canTake then s.queued else []) ++ [_]
      else List.map _ (s.loop.orders ++ if s.canTake then s.queued else [])
    rw [hq]
    cases s.canTake <;> simp

private theorem move_evaluate {settings : Settings} {s s' : TradingSystem} {resetTime ageTime : ℚ}
    (h : step settings s (.riskEvaluate resetTime ageTime) = some s') :
    Books.Move s.view (action settings s (.riskEvaluate resetTime ageTime)) s'.view := by
  cases stepped_of_step h with
  | @evaluated p rest _ _ hproposals hpending =>
    have hact : action settings s (.riskEvaluate resetTime ageTime) =
        if (s.risk.evaluate settings.risk p s.nextId resetTime ageTime).assessment.isApproved then
          .approve (s.risk.evaluate settings.risk p s.nextId resetTime ageTime).assessment.order
        else .quiet := by
      simp [action, orderOutcome, otherAction, hproposals]
    rw [hact]
    have hclose := RiskAgent.isClose_evaluate_iff settings.risk s.risk p s.nextId resetTime ageTime
    have hans := RiskAgent.evaluate_answers settings.risk s.risk p s.nextId resetTime ageTime
    have hval := RiskAgent.portfolioValueUsd_evaluate settings.risk s.risk p s.nextId resetTime ageTime
    have hout := RiskAgent.evaluate_outcome settings.risk s.risk p s.nextId resetTime ageTime
    generalize s.risk.evaluate settings.risk p s.nextId resetTime ageTime = e at *
    have hside : e.assessment.order.side = p.side := by rw [RiskAssessment.order, hans.originalProposal]
    have hsymbol : e.assessment.order.symbol = p.symbol := by rw [RiskAssessment.order, hans.originalProposal]
    show Books.Move s.view _ (s.evaluated e rest).view
    cases hout with
    | rejected hverdict hledger =>
      have hheld : e.agent.drawdown.held = s.risk.drawdown.held := by
        obtain ⟨t, ht | ht⟩ := hledger
        · rw [ht]
        · rw [ht, held_reset]
      rw [view_evaluated_rejected rest hpending hverdict, hheld, hval, hans.seenResults, hverdict]
      exact .quiet s.view.remembered (s.nextId + 1) (List.Subset.refl _) (Nat.le_succ _)
    | close size hheld hverdict hstop hsize hledger =>
      obtain ⟨t, ht⟩ := hledger
      have hap : e.assessment.isApproved = true := by simp [RiskAssessment.isApproved, hverdict]
      rw [view_evaluated_approved rest hpending hap, ht, held_reset, ← ht, hval, hans.seenResults, hap]
      refine .approveClose e.assessment.order size (s.nextId + 1) ?_ ?_ (Nat.le_succ _)
      · exact hclose.2 ⟨hap, size, hheld⟩
      · rw [hside, hsymbol]
        exact hheld
    | opening size stopPct hheld hfresh hverdict hstop hsize hledger =>
      obtain ⟨t, ht⟩ := hledger
      have hledger' : e.agent.drawdown.held =
          Function.update s.risk.drawdown.held p.symbol (some (p.side, size)) := by
        rw [ht, held_open, held_reset]
      rw [view_evaluated_approved rest hpending hverdict, hledger', hval, hans.seenResults, hverdict, ← hside,
        ← hsymbol]
      refine .approveOpen e.assessment.order size (s.nextId + 1) ?_ ?_ (Nat.le_succ _)
      · simp [RiskAssessment.order, RiskAssessment.isClose, hstop]
      · rw [hsymbol]
        exact hheld

private theorem held_settle_eq (m : DrawdownMonitor) (result : ExecutionResult) :
    (RiskAgent.settle m result).2.held =
      Function.update m.held result.symbol (RiskAgent.settleEntry result (m.held result.symbol)) := by
  funext symbol
  rw [RiskAgent.held_settle, Function.update_apply]

private theorem move_apply {settings : Settings} {s s' : TradingSystem} (h : step settings s .riskApply = some s') :
    Books.Move s.view .settle s'.view := by
  cases stepped_of_step h with
  | @applied result rest hresults =>
    have hmove : Books.Move s.view .settle _ := .settle result rest
      (RiskAgent.remember s.risk.seenResults result.resultId).keys hresults (RiskAgent.keys_remember_subset _ _)
    convert hmove using 1
    unfold RiskAgent.applyExecutionResult Books.apply
    by_cases hseen : result.resultId ∈ s.risk.seenResults.keys
    · have hc := Dict.contains_iff.2 hseen
      rw [if_pos hc, if_pos (show result.resultId ∈ s.view.seen from hseen)]
      rfl
    · have hc : ¬ s.risk.seenResults.contains result.resultId = true := fun hc => hseen (Dict.contains_iff.1 hc)
      rw [if_neg hc, if_neg (show result.resultId ∉ s.view.seen from hseen)]
      refine Books.ext ?_ ?_ rfl rfl rfl rfl rfl rfl rfl rfl rfl rfl rfl
      · exact held_settle_eq _ _
      · show (RiskAgent.settle s.risk.drawdown result).2.state.portfolioValueUsd = _
        rw [RiskAgent.portfolioValueUsd_settle, ← RiskAgent.settlePnl_eq]
        rfl

/-! ### The run loop -/

/-- After a fill the run loop saves or publishes; the books are those of the account. -/
private theorem afterOrder_startSave (settings : Settings) (s : TradingSystem) (a : RiskAssessment ℚ)
    (w : PaperAccount) (next : AfterSave) :
    ∃ w' phase, s.afterOrder settings a (w.startSave next).1 (w.startSave next).2 =
        { s with account := w', nextId := s.nextId + 1, loop := phase } ∧
      PaperAccount.SameBooks w w' ∧ phase.orders = [] ∧ phase.results = [next.result] ∧
      phase.toRemember ++ w'.broker.filledOrders.keys ⊆ next.toRemember ++ w.broker.filledOrders.keys := by
  rcases PaperAccount.startSave_cases w next with ⟨stage, hs⟩ | hs
  · rw [hs]
    exact ⟨w, .saving stage next, rfl, .refl w, rfl, rfl, List.Subset.refl _⟩
  · obtain ⟨hdone, hkeys⟩ := PaperAccount.finish_spec w next
    have hbooks := PaperAccount.sameBooks_startSave w next
    rw [hs] at hbooks ⊢
    rw [hdone]
    exact ⟨_, .publishing next.result true, rfl, hbooks, rfl, rfl, hkeys⟩

private theorem failure_failureResult (a : RiskAssessment ℚ) (id : ℕ) : Failure a.order id (failureResult a id) :=
  ⟨rfl, rfl, rfl, rfl, rfl⟩

/-- An order that raises leaves the waiting orders behind it, and its failure in hand. -/
private theorem move_raise {s t : TradingSystem} {a : RiskAssessment ℚ} (rest : List (RiskAssessment ℚ))
    (ht : t = { s with
      loop := .publishing (failureResult a s.nextId) false, nextId := s.nextId + 1
      assessments := t.assessments, stopped := t.stopped, consecutiveErrors := t.consecutiveErrors })
    (hfree : s.loop.results = []) (hrem : s.loop.toRemember = []) (hwaiting : s.loop.orders ++ s.queued = a :: t.queued)
    (hlive : (s.loop.orders ++ if s.canTake then s.queued else []) = a :: rest)
    (hextends : (if t.canTake then t.queued else []) <+: rest) (htakes : t.canTake = true → s.canTake = true) :
    Books.Move s.view (.raise a.order) t.view := by
  have hmove : Books.Move s.view (.raise a.order) _ :=
    .raise a.order (failureResult a s.nextId) (t.queued.map RiskAssessment.order)
      (rest.map RiskAssessment.order) ((if t.canTake then t.queued else []).map RiskAssessment.order) t.canTake
      (failure_failureResult a s.nextId) hfree (congrArg (List.map RiskAssessment.order) hwaiting)
      (congrArg (List.map RiskAssessment.order) hlive) (hextends.map _) htakes
  convert hmove using 1
  obtain ⟨risk, riskPending, riskStopped, account, proposals, assessments, results, loop, monitor, halted, stopped,
    errors, nextId⟩ := s
  rw [ht]
  refine Books.ext rfl rfl rfl rfl rfl rfl rfl rfl ?_ rfl rfl rfl rfl
  simp only [view] at hrem ⊢
  rw [hrem]
  rfl

private theorem canTake_afterOrder_error {settings : Settings} {s : TradingSystem} {a : RiskAssessment ℚ}
    {w : PaperAccount} {e : BrokerError} (h : (s.afterOrder settings a w (.done (.error e))).canTake = true) :
    s.canTake = true := by
  simp only [canTake, afterOrder, handleError, Bool.and_eq_true, Bool.not_eq_true', Bool.or_eq_false_iff] at *
  exact ⟨h.1, h.2.1⟩

private theorem take_prefix (t s : Bool) (h : t = true → s = true) (q : List (RiskAssessment ℚ)) :
    (if t then q else []) <+: if s then q else [] := by
  cases t with
  | false => exact List.nil_prefix
  | true => rw [h rfl]

private theorem openingResult_openedResult {a : RiskAssessment ℚ} {refPrice : ℚ} {fill : OpeningFill}
    (h : FillOk a refPrice fill) (id : ℕ) :
    OpeningResult a.order id (openedPosition a fill).costUsd (openedResult a fill id) where
  resultId := rfl
  symbol := rfl
  side := rfl
  isFill := by simp [RiskAgent.isFill, openedResult, h.status, h.fillQty_pos]
  cost := by simp [RiskAgent.actualCost, openedResult, openedPosition, h.totalCost_eq]
  realized := rfl

/-- The result of closing a position of positive quantity. -/
private theorem closingResult_closeAt {b : PaperBroker} {symbol : String} {refPrice : ℚ}
    {proposalId assessmentId id : ℕ} {c : Closed}
    (hc : b.closeAt symbol refPrice proposalId assessmentId id = some c) (hqty : 0 < c.position.quantity) :
    ClosingResult symbol c.position.side id c.fill.realized c.result := by
  obtain ⟨-, -, -, hid, -, hsymbol, hside, hstatus, hfilled, hpnl⟩ := closeAt_spec hc
  exact ⟨hid, hsymbol, hside, by simp [RiskAgent.isFill, hstatus, hfilled, hqty], hpnl⟩

/-- What the books of an account show after a close of positive quantity: the entry is gone, the result is booked and
no result is forgotten. -/
private theorem recordClose_shows {account w : PaperAccount} {symbol : String} {refPrice : ℚ}
    {proposalId assessmentId id : ℕ} {c : Closed}
    (hclose : account.broker.closeAt symbol refPrice proposalId assessmentId id = some c)
    (hbooks : PaperAccount.SameBooks (account.recordClose c) w) :
    entries w.broker.positions = Function.update (entries account.broker.positions) symbol none ∧
      w.realizedTotal = account.realizedTotal + c.fill.realized ∧
      (account.recordClose c).broker.filledOrders.keys = account.broker.filledOrders.keys := by
  obtain ⟨-, -, hbroker, -, -, -, -, -, -, hpnl⟩ := closeAt_spec hclose
  refine ⟨?_, ?_, ?_⟩
  · rw [hbooks.positions, PaperAccount.recordClose, hbroker]
    exact entries_erase _ _
  · simp [PaperAccount.realizedTotal, hbooks.fills, PaperAccount.recordClose, FillEvent.realizedPnl,
      FillEvent.result, hpnl]
  · rw [PaperAccount.recordClose, hbroker]

private theorem subset_insert_middle {p k p' k' : List ℕ} (m : List ℕ) (h : p ++ k ⊆ p' ++ k') :
    p ++ (m ++ k) ⊆ p' ++ (m ++ k') := by
  intro id hid
  have hpk : id ∈ p ++ k → id ∈ p' ++ k' := fun hmem => h hmem
  simp only [List.mem_append] at *
  tauto

/-- After a fill the waiting orders are those behind the one filled. -/
private theorem move_opened (settings : Settings) {s : TradingSystem} {a : RiskAssessment ℚ} {refPrice : RefPrice}
    {choice : FillChoice} {broker : PaperBroker} {position : PaperPosition} {result : ExecutionResult}
    (hloop : s.loop = .placing a refPrice)
    (hf : s.account.broker.fillOrder a refPrice choice s.nextId = .ok (.opened broker position result)) :
    Books.Move s.view (.opens a.order)
      (s.afterOrder settings a ((s.account.recordOpen broker position result).startSave (.reply result)).1
        ((s.account.recordOpen broker position result).startSave (.reply result)).2).view := by
  obtain ⟨w, phase, hs, hbooks, horders, hresults, hrem⟩ := afterOrder_startSave settings s a
    (s.account.recordOpen broker position result) (.reply result)
  rcases fillOrder_cases hf with ⟨c, hc, -⟩ | ⟨fill, hflat, hfill, -, hopened⟩
  · cases hc
  · cases hopened
    have hok := openingFill_spec refPrice.2 hfill
    have hmove : Books.Move s.view (.opens a.order) _ :=
      .opens a.order (openedPosition a fill).costUsd (openedResult a fill s.nextId)
        (s.queued.map RiskAssessment.order) ((if s.canTake then s.queued else []).map RiskAssessment.order)
        (phase.toRemember ++ (s.monitor.toRemember ++ w.broker.filledOrders.keys))
        (openingResult_openedResult hok s.nextId) (by rw [view, hloop]; rfl) (by rw [view, hloop]; rfl)
        (by rw [view, hloop]; rfl) (entries_eq_none hflat) ?_
    · rw [hs]
      convert hmove using 1
      refine Books.ext rfl rfl rfl rfl ?_ ?_ ?_ ?_ rfl rfl hresults rfl rfl
      · simp [view, horders, queued]
      · simp [view, horders, queued, canTake]
      · show entries w.broker.positions = _
        rw [hbooks.positions]
        exact entries_set _ _ _
      · show w.realizedTotal = s.account.realizedTotal
        simp [PaperAccount.realizedTotal, hbooks.fills, PaperAccount.recordOpen, FillEvent.realizedPnl,
          FillEvent.result, openedResult]
    · have hkeys := keys_remember_subset ({ s.account.broker with
        cashBalance := s.account.broker.cashBalance - fill.totalCost
        positions := s.account.broker.positions.set a.originalProposal.symbol (openedPosition a fill) } : PaperBroker)
        a.proposalId (openedResult a fill s.nextId)
      have hall := subset_insert_middle s.monitor.toRemember
        (List.Subset.trans hrem (show _ ⊆ [a.proposalId] ++ s.account.broker.filledOrders.keys from hkeys))
      rw [view, hloop]
      exact hall

private theorem move_closed (settings : Settings) {s : TradingSystem} {a : RiskAssessment ℚ} {refPrice : RefPrice}
    {choice : FillChoice} {c : Closed} (hlives : s.account.Lives) (hloop : s.loop = .placing a refPrice)
    (hf : s.account.broker.fillOrder a refPrice choice s.nextId = .ok (.closed c)) :
    Books.Move s.view (.closes a.order)
      (s.afterOrder settings a ((s.account.recordClose c).startSave (.rememberAndReply a.proposalId c.result)).1
        ((s.account.recordClose c).startSave (.rememberAndReply a.proposalId c.result)).2).view := by
  obtain ⟨w, phase, hs, hbooks, horders, hresults, hrem⟩ := afterOrder_startSave settings s a
    (s.account.recordClose c) (.rememberAndReply a.proposalId c.result)
  rcases fillOrder_cases hf with ⟨c', hc', hside, hclose⟩ | ⟨fill, -, -, -, hopened⟩
  · cases hc'
    obtain ⟨hheld, -⟩ := closeAt_spec hclose
    obtain ⟨hpositions, hrealized, hkeys⟩ := recordClose_shows hclose hbooks
    have hqty := (hlives.wellFormed _ _ hheld).quantity_pos
    have hresult := closingResult_closeAt hclose hqty
    rw [hside] at hresult
    have hmove : Books.Move s.view (.closes a.order) _ :=
      .closes a.order c.position.costUsd c.fill.realized c.result
        (s.queued.map RiskAssessment.order) ((if s.canTake then s.queued else []).map RiskAssessment.order)
        (phase.toRemember ++ (s.monitor.toRemember ++ w.broker.filledOrders.keys))
        hresult (by rw [view, hloop]; rfl) (by rw [view, hloop]; rfl)
        (by rw [view, hloop]; rfl) ((entries_eq_some hheld).trans (by rw [hside]; rfl)) ?_
    · rw [hs]
      convert hmove using 1
      refine Books.ext rfl rfl rfl rfl ?_ ?_ ?_ ?_ rfl rfl hresults rfl rfl
      · simp [view, horders, queued]
      · simp [view, horders, queued, canTake]
      · exact hpositions
      · exact hrealized
    · rw [hkeys] at hrem
      rw [view, hloop]
      exact subset_insert_middle s.monitor.toRemember hrem
  · cases hopened

private theorem move_latency {settings : Settings} {s s' : TradingSystem} {choice : FillChoice}
    (hlives : s.account.Lives) (h : step settings s (.loopLatency choice) = some s') :
    Books.Move s.view (action settings s (.loopLatency choice)) s'.view := by
  cases stepped_of_step h with
  | @filled _ a refPrice w task hloop hresume =>
    simp only [PaperAccount.resume] at hresume
    cases hf : s.account.broker.fillOrder a refPrice choice s.nextId with
    | error e =>
      have hact : action settings s (.loopLatency choice) = .raise a.order := by
        simp [action, orderOutcome, hloop, hf, outcomeAction]
      rw [hf] at hresume
      cases hresume
      rw [hact]
      refine move_raise (if s.canTake then s.queued else []) rfl ?_ ?_ ?_ ?_ ?_ canTake_afterOrder_error
      · rw [hloop]; rfl
      · rw [hloop]; rfl
      · rw [hloop]; rfl
      · rw [hloop]; rfl
      · exact take_prefix _ _ canTake_afterOrder_error s.queued
    | ok filled =>
      rw [hf] at hresume
      cases filled with
      | opened broker position result =>
        have hact : action settings s (.loopLatency choice) = .opens a.order := by
          simp [action, orderOutcome, hloop, hf, outcomeAction]
        have hmove := move_opened settings hloop hf
        rw [Option.some.inj hresume] at hmove
        rw [hact]
        exact hmove
      | closed c =>
        have hact : action settings s (.loopLatency choice) = .closes a.order := by
          simp [action, orderOutcome, hloop, hf, outcomeAction]
        have hmove := move_closed settings hlives hloop hf
        rw [Option.some.inj hresume] at hmove
        rw [hact]
        exact hmove

theorem queued_take {s : TradingSystem} {a : RiskAssessment ℚ} {rest : List (RiskAssessment ℚ)}
    (hq : s.assessments = a :: rest) :
    s.queued =
      (if a.isApproved then [a] else []) ++ (rest ++ s.riskPending.toList).filter RiskAssessment.isApproved := by
  rw [queued, hq, List.cons_append, List.filter_cons]
  cases a.isApproved <;> simp

/-- An assessment that is taken when the agent is halted or stopping is dropped. -/
private theorem move_take_dropped (settings : Settings) {s : TradingSystem} {a : RiskAssessment ℚ}
    (rest : List (RiskAssessment ℚ)) (hloop : s.loop = .idle) (htake : ¬s.canTake = true) :
    Books.Move s.view .degrade (s.takeAssessment settings a rest).view := by
  have hlive : (s.takeAssessment settings a rest).view.live = [] ∧
      (s.takeAssessment settings a rest).account = s.account ∧
      (s.takeAssessment settings a rest).loop.toRemember = [] ∧
      (s.takeAssessment settings a rest).monitor.toRemember ⊆ s.monitor.toRemember ∧
      (s.takeAssessment settings a rest).canTake = false := by
    unfold takeAssessment
    cases hstopped : s.stopped with
    | true => simp [view, canTake, LoopPhase.orders, LoopPhase.toRemember, MonitorPhase.toRemember]
    | false =>
      have hhalted : s.halted = true := by simpa [canTake, hstopped] using htake
      simp [view, canTake, hhalted, hloop, LoopPhase.orders, LoopPhase.toRemember]
  obtain ⟨hlive, haccount, hrem, hmonitor, htakes⟩ := hlive
  refine .degrade _ (by rw [hlive]; exact List.nil_prefix) (by intro ht; cases htakes.symm.trans ht) ?_ ?_
  · rw [view, view, haccount]
  · intro id hid
    have hmem : id ∈ (s.takeAssessment settings a rest).monitor.toRemember → id ∈ s.monitor.toRemember :=
      fun h => hmonitor h
    simp only [view, haccount, hrem, List.nil_append, List.mem_append] at *
    tauto

/-- An approved assessment that is taken: its order raises at once, is answered from memory, or sleeps. -/
private theorem move_take_order (settings : Settings) {s : TradingSystem} {a : RiskAssessment ℚ}
    {rest : List (RiskAssessment ℚ)} (hloop : s.loop = .idle) (hassessments : s.assessments = a :: rest)
    (htake : s.canTake = true) (happroved : a.isApproved = true) :
    Books.Move s.view (action settings s .loopTake)
      (({ s with assessments := rest } : TradingSystem).afterOrder settings a s.account
        (s.account.startOrder settings a)).view := by
  have hflags : s.halted = false ∧ s.stopped = false := by simpa [canTake] using htake
  have hq := queued_take hassessments
  rw [happroved] at hq
  rw [PaperAccount.startOrder]
  cases haccept : s.account.broker.acceptOrder settings a with
  | error e =>
    have hact : action settings s .loopTake = .raise a.order := by
      simp [action, orderOutcome, hloop, hassessments, happroved, htake, haccept, outcomeAction]
    rw [hact]
    refine move_raise ((rest ++ s.riskPending.toList).filter RiskAssessment.isApproved) rfl ?_ ?_ ?_ ?_ ?_
      fun _ => htake
    · rw [hloop]; rfl
    · rw [hloop]; rfl
    · rw [hloop, hq]; rfl
    · rw [hloop, htake, hq]; rfl
    · exact take_prefix _ true (fun _ => rfl) _
  | ok accepted =>
    cases accepted with
    | inl cached =>
      have hact : action settings s .loopTake = .replay a.order := by
        simp [action, orderOutcome, hloop, hassessments, happroved, htake, haccept, outcomeAction]
      rw [hact]
      have hcached := acceptOrder_replay haccept
      have hmove : Books.Move s.view (.replay a.order) _ :=
        .replay a.order cached (((rest ++ s.riskPending.toList).filter RiskAssessment.isApproved).map
          RiskAssessment.order) (((rest ++ s.riskPending.toList).filter RiskAssessment.isApproved).map
          RiskAssessment.order) (by rw [view, hloop, hq]; rfl) (by rw [view, hloop, htake, hq]; rfl)
          (by simp [view, RiskAssessment.order, hcached])
      convert hmove using 1
      refine Books.ext rfl rfl rfl rfl rfl ?_ rfl rfl ?_ rfl rfl rfl rfl
      · simp [view, queued, afterOrder, canTake, hflags, LoopPhase.orders]
      · simp [view, afterOrder, LoopPhase.toRemember, hloop]
    | inr refPrice =>
      have hact : action settings s .loopTake = .quiet := by
        simp [action, orderOutcome, otherAction, hloop, hassessments, happroved, htake, haccept]
      rw [hact]
      have hmove : Books.Move s.view .quiet _ :=
        .quiet s.view.remembered (s.nextId + 1) (List.Subset.refl _) (Nat.le_succ _)
      convert hmove using 1
      refine Books.ext rfl rfl rfl rfl ?_ ?_ rfl rfl ?_ rfl ?_ rfl rfl
      · simp [view, queued, hassessments, happroved, afterOrder, LoopPhase.orders, hloop]
      · simp [view, queued, hassessments, happroved, afterOrder, canTake, hflags, LoopPhase.orders, hloop]
      · simp [view, afterOrder, LoopPhase.toRemember, hloop]
      · simp [view, afterOrder, LoopPhase.results, hloop]

private theorem move_take {settings : Settings} {s s' : TradingSystem} (h : step settings s .loopTake = some s') :
    Books.Move s.view (action settings s .loopTake) s'.view := by
  cases stepped_of_step h with
  | @taken a rest hloop hassessments =>
    by_cases htake : s.canTake = true
    · have hflags : s.halted = false ∧ s.stopped = false := by simpa [canTake] using htake
      rw [takeAssessment, if_neg (by simp [hflags.2]), if_neg (by simp [hflags.1])]
      cases happroved : a.isApproved with
      | false =>
        have hact : action settings s .loopTake = .quiet := by
          simp [action, orderOutcome, otherAction, hloop, hassessments, happroved, htake]
        rw [hact, if_pos rfl]
        have hmove : Books.Move s.view .quiet _ :=
          .quiet s.view.remembered s.nextId (List.Subset.refl _) le_rfl
        convert hmove using 1
        refine Books.ext rfl rfl rfl rfl ?_ ?_ rfl rfl rfl rfl rfl rfl rfl
        · simp [view, queued, hassessments, happroved]
        · simp [view, queued, hassessments, happroved, canTake, hflags]
      | true =>
        rw [if_neg (by simp)]
        exact move_take_order settings hloop hassessments htake happroved
    · have hact : action settings s .loopTake = .degrade := by
        simp [action, orderOutcome, otherAction, hloop, hassessments, htake]
      rw [hact]
      exact move_take_dropped settings rest hloop htake

/-- A resumed save leaves the books; the result stays in hand. -/
private theorem afterSave_resume {s : TradingSystem} {stage : SaveStage} {next : AfterSave} {ok : Bool}
    {w : PaperAccount} {task : BrokerTask} (h : s.account.resume (.saving stage next) (.saved ok) = some (w, task)) :
    ∃ phase, s.afterSave w task = { s with account := w, loop := phase } ∧ PaperAccount.SameBooks s.account w ∧
      phase.orders = [] ∧ phase.results = [next.result] ∧
      phase.toRemember ++ w.broker.filledOrders.keys ⊆ next.toRemember ++ s.account.broker.filledOrders.keys := by
  obtain ⟨hbooks, ⟨stage', rfl, hbroker⟩ | ⟨rfl, hkeys⟩⟩ := PaperAccount.resume_saving h
  · refine ⟨.saving stage' next, rfl, hbooks, rfl, rfl, ?_⟩
    rw [hbroker]
    exact List.Subset.refl _
  · exact ⟨.publishing next.result true, rfl, hbooks, rfl, rfl, hkeys⟩

private theorem move_saved {settings : Settings} {s s' : TradingSystem} {ok : Bool}
    (h : step settings s (.loopSaved ok) = some s') : Books.Move s.view .quiet s'.view := by
  cases stepped_of_step h with
  | @loopSaved _ stage next w task hloop hresume =>
    obtain ⟨phase, hs, hbooks, horders, hresults, hrem⟩ := afterSave_resume hresume
    have hmove : Books.Move s.view .quiet _ :=
      .quiet (phase.toRemember ++ (s.monitor.toRemember ++ w.broker.filledOrders.keys)) s.nextId
        (by rw [view, hloop]; exact subset_insert_middle s.monitor.toRemember hrem) le_rfl
    have horders' : s.loop.orders = [] := by rw [hloop]; rfl
    show Books.Move s.view .quiet (s.afterSave w task).view
    rw [hs]
    convert hmove using 1
    refine Books.ext rfl rfl rfl rfl ?_ ?_ ?_ ?_ rfl rfl ?_ rfl rfl
    · simp [view, horders, horders', queued]
    · simp [view, horders, horders', queued, canTake]
    · show entries w.broker.positions = _
      rw [hbooks.positions]; rfl
    · show w.realizedTotal = s.account.realizedTotal
      rw [PaperAccount.realizedTotal, hbooks.fills]; rfl
    · rw [view, hresults, view, hloop]; rfl

/-! ### The monitor -/

/-- The books do not see which position the monitor looks at next. -/
private theorem view_nextPosition {s : TradingSystem} (rest : List BrokerPosition) :
    (s.nextPosition rest).view = { s.view with
      remembered := s.loop.toRemember ++ s.account.broker.filledOrders.keys, monitorResults := [] } := by
  obtain ⟨phase, hs, hresults, hrem⟩ : ∃ phase, s.nextPosition rest = { s with monitor := phase } ∧
      phase.results = [] ∧ phase.toRemember = [] := by
    cases rest with
    | nil =>
      exact ⟨if s.stopped then .ended else .sleeping, rfl, by cases s.stopped <;> rfl, by cases s.stopped <;> rfl⟩
    | cons pos rest => exact ⟨.pricing pos rest, rfl, rfl, rfl⟩
  rw [hs]
  refine Books.ext rfl rfl rfl rfl rfl rfl rfl rfl ?_ rfl rfl hresults rfl
  rw [view, hrem]
  rfl

/-- After a close the monitor saves or publishes; the books are those of the account. -/
private theorem afterClose_startSave (s : TradingSystem) (rest : List BrokerPosition) (w : PaperAccount)
    (result : ExecutionResult) :
    ∃ w' phase, s.afterClose rest (w.startSave (.reply result)).1 (w.startSave (.reply result)).2 =
        { s with account := w', monitor := phase } ∧
      PaperAccount.SameBooks w w' ∧ phase.results = [result] ∧
      phase.toRemember ++ w'.broker.filledOrders.keys ⊆ w.broker.filledOrders.keys := by
  rcases PaperAccount.startSave_cases w (.reply result) with ⟨stage, hs⟩ | hs
  · rw [hs]
    exact ⟨w, .saving stage (.reply result) rest, rfl, .refl w, rfl, List.Subset.refl _⟩
  · rw [hs]
    exact ⟨w, .publishing result rest, rfl, .refl w, rfl, List.Subset.refl _⟩

private theorem afterClose_resume {s : TradingSystem} {stage : SaveStage} {next : AfterSave} {ok : Bool}
    {w : PaperAccount} {task : BrokerTask} (rest : List BrokerPosition)
    (h : s.account.resume (.saving stage next) (.saved ok) = some (w, task)) :
    ∃ phase, s.afterClose rest w task = { s with account := w, monitor := phase } ∧
      PaperAccount.SameBooks s.account w ∧ phase.results = [next.result] ∧
      phase.toRemember ++ w.broker.filledOrders.keys ⊆ next.toRemember ++ s.account.broker.filledOrders.keys := by
  obtain ⟨hbooks, ⟨stage', rfl, hbroker⟩ | ⟨rfl, hkeys⟩⟩ := PaperAccount.resume_saving h
  · refine ⟨.saving stage' next rest, rfl, hbooks, rfl, ?_⟩
    rw [hbroker]
    exact List.Subset.refl _
  · exact ⟨.publishing next.result rest, rfl, hbooks, rfl, hkeys⟩

private theorem move_monitorSaved {settings : Settings} {s s' : TradingSystem} {ok : Bool}
    (h : step settings s (.monitorSaved ok) = some s') : Books.Move s.view .quiet s'.view := by
  cases stepped_of_step h with
  | @monitorSaved _ stage next rest w task hmonitor hresume =>
    obtain ⟨phase, hs, hbooks, hresults, hrem⟩ := afterClose_resume rest hresume
    have hmove : Books.Move s.view .quiet _ :=
      .quiet (s.loop.toRemember ++ (phase.toRemember ++ w.broker.filledOrders.keys)) s.nextId
        (by
          rw [view, hmonitor]
          exact List.append_subset.2
            ⟨List.subset_append_left _ _, List.Subset.trans hrem (List.subset_append_right _ _)⟩) le_rfl
    show Books.Move s.view .quiet (s.afterClose rest w task).view
    rw [hs]
    convert hmove using 1
    refine Books.ext rfl rfl rfl rfl rfl rfl ?_ ?_ rfl rfl rfl ?_ rfl
    · show entries w.broker.positions = _
      rw [hbooks.positions]; rfl
    · show w.realizedTotal = s.account.realizedTotal
      rw [PaperAccount.realizedTotal, hbooks.fills]; rfl
    · rw [view, hresults, view, hmonitor]; rfl

/-- Going on with the snapshot does not move the books. -/
private theorem move_next {s : TradingSystem} (rest : List BrokerPosition) (n : ℕ) (hn : s.nextId ≤ n)
    (hresults : s.monitor.results = []) (hrem : s.monitor.toRemember = []) :
    Books.Move s.view .quiet (({ s with nextId := n } : TradingSystem).nextPosition rest).view := by
  have hmove : Books.Move s.view .quiet _ := .quiet s.view.remembered n (List.Subset.refl _) hn
  convert hmove using 1
  rw [view_nextPosition]
  refine Books.ext rfl rfl rfl rfl rfl rfl rfl rfl ?_ rfl rfl hresults.symm rfl
  show _ = s.loop.toRemember ++ (s.monitor.toRemember ++ s.account.broker.filledOrders.keys)
  rw [hrem]
  rfl

private theorem move_scan {settings : Settings} {s s' : TradingSystem} (h : step settings s .monitorScan = some s') :
    Books.Move s.view .quiet s'.view := by
  cases stepped_of_step h with
  | scanned hmonitor =>
    exact move_next _ s.nextId le_rfl (by rw [hmonitor]; rfl) (by rw [hmonitor]; rfl)

/-- The monitor closes a position: the result is in its hand. -/
private theorem move_stopClose {s : TradingSystem} {pos : BrokerPosition} {rest : List BrokerPosition} {refPrice : ℚ}
    {c : Closed} (hlives : s.account.Lives) (hmonitor : s.monitor = .pricing pos rest)
    (hclose : s.account.broker.closeAt pos.symbol refPrice s.nextId s.nextId s.nextId = some c) :
    Books.Move s.view (.stopClose pos.symbol)
      (({ s with nextId := s.nextId + 1 } : TradingSystem).afterClose rest
        ((s.account.recordClose c).startSave (.reply c.result)).1
        ((s.account.recordClose c).startSave (.reply c.result)).2).view := by
  obtain ⟨w, phase, hs, hbooks, hresults, hrem⟩ :=
    afterClose_startSave { s with nextId := s.nextId + 1 } rest (s.account.recordClose c) c.result
  obtain ⟨hheld, -⟩ := closeAt_spec hclose
  obtain ⟨hpositions, hrealized, hkeys⟩ := recordClose_shows hclose hbooks
  have hresult := closingResult_closeAt hclose (hlives.wellFormed _ _ hheld).quantity_pos
  rw [hkeys] at hrem
  have hmove : Books.Move s.view (.stopClose pos.symbol) _ :=
    .stopClose pos.symbol c.position.side c.position.costUsd c.fill.realized c.result
      (s.loop.toRemember ++ (phase.toRemember ++ w.broker.filledOrders.keys)) hresult (by rw [view, hmonitor]; rfl)
      (entries_eq_some hheld) ?_
  · rw [hs]
    convert hmove using 1
    refine Books.ext rfl rfl rfl rfl rfl rfl ?_ ?_ rfl rfl rfl hresults rfl
    · exact hpositions
    · exact hrealized
  · rw [view, hmonitor]
    exact List.append_subset.2 ⟨List.subset_append_left _ _, List.Subset.trans hrem (List.subset_append_right _ _)⟩

private theorem move_price {settings : Settings} {s s' : TradingSystem} {price : Option ℚ}
    (hlives : s.account.Lives) (h : step settings s (.monitorPrice price) = some s') :
    Books.Move s.view (action settings s (.monitorPrice price)) s'.view := by
  have hidle : ∀ pos rest, s.monitor = .pricing pos rest → s.monitor.results = [] ∧ s.monitor.toRemember = [] := by
    intro pos rest hmonitor
    rw [hmonitor]
    exact ⟨rfl, rfl⟩
  cases stepped_of_step h with
  | @unpriced pos rest hmonitor =>
    obtain ⟨hresults, hrem⟩ := hidle pos rest hmonitor
    exact move_next rest s.nextId le_rfl hresults hrem
  | @kept pos rest p hmonitor hbreached =>
    obtain ⟨hresults, hrem⟩ := hidle pos rest hmonitor
    have hact : action settings s (.monitorPrice (some p)) = .quiet := by
      simp [action, orderOutcome, otherAction, hmonitor, hbreached]
    rw [hact]
    exact move_next rest s.nextId le_rfl hresults hrem
  | @stoppedOut pos rest p hmonitor hbreached =>
    obtain ⟨hresults, hrem⟩ := hidle pos rest hmonitor
    cases hclose : s.account.broker.closePosition pos.symbol (some p) s.nextId s.nextId s.nextId with
    | none =>
      -- the position was closed while its price was fetched
      have hflat := closePosition_eq_none_iff.1 hclose
      have hact : action settings s (.monitorPrice (some p)) = .quiet := by
        have hc : s.account.broker.positions.contains pos.symbol = false := by
          simp [Dict.contains, hflat]
        simp [action, orderOutcome, otherAction, hmonitor, hc]
      rw [hact]
      simp only [PaperAccount.startClose, hclose]
      exact move_next rest (s.nextId + 1) (Nat.le_succ _) hresults hrem
    | some c =>
      obtain ⟨refPrice, hat⟩ := closePosition_closeAt hclose
      obtain ⟨hheld, -⟩ := closeAt_spec hat
      have hact : action settings s (.monitorPrice (some p)) = .stopClose pos.symbol := by
        have hc : s.account.broker.positions.contains pos.symbol = true := by
          simp [Dict.contains, hheld]
        simp [action, orderOutcome, otherAction, hmonitor, hbreached, hc]
      rw [hact]
      simp only [PaperAccount.startClose, hclose]
      exact move_stopClose hlives hmonitor hat

/-! ### Publishing and ending -/

private theorem move_loopPublish {settings : Settings} {s s' : TradingSystem} {ok : Bool}
    (h : step settings s (.loopPublish ok) = some s') :
    Books.Move s.view (action settings s (.loopPublish ok)) s'.view := by
  cases stepped_of_step h with
  | @loopPublished _ result fill t hloop ht =>
    unfold publish at ht
    cases ok with
    | true =>
      obtain rfl := Option.some.inj ht
      have hview :
        (({ s with results := s.results ++ [result] } : TradingSystem).afterPublish settings fill true).view =
          { s.view with results := s.view.results ++ s.view.loopResults, loopResults := [] } := by
        refine Books.ext ?_ ?_ ?_ ?_ ?_ ?_ ?_ ?_ ?_ ?_ ?_ ?_ ?_ <;>
          cases fill <;> simp [view, afterPublish, hloop, canTake, queued, LoopPhase.orders, LoopPhase.results,
            LoopPhase.toRemember]
      rw [hview]
      exact .publishLoop
    | false =>
      rw [if_neg (by simp)] at ht
      split at ht
      case isFalse => cases ht
      case isTrue hstopped =>
        obtain rfl := Option.some.inj ht
        have hview : (s.afterPublish settings fill false).view.live = [] := by
          cases fill <;> simp [view, afterPublish, handleError, canTake, hstopped, LoopPhase.orders]
        have htakes : (s.afterPublish settings fill false).view.takes = false := by
          cases fill <;> simp [view, afterPublish, handleError, canTake, hstopped]
        refine .degrade _ (by rw [hview]; exact List.nil_prefix) (by intro ht; cases htakes.symm.trans ht) ?_ ?_
        · cases fill <;> rfl
        · cases fill <;> simp [view, afterPublish, handleError, hloop, LoopPhase.toRemember]

private theorem move_monitorPublish {settings : Settings} {s s' : TradingSystem} {ok : Bool}
    (h : step settings s (.monitorPublish ok) = some s') :
    Books.Move s.view (action settings s (.monitorPublish ok)) s'.view := by
  cases stepped_of_step h with
  | @monitorPublished _ result rest t hmonitor ht =>
    rw [view_nextPosition]
    unfold publish at ht
    cases ok with
    | true =>
      obtain rfl := Option.some.inj ht
      have hmove : Books.Move s.view .publishMonitor _ := .publishMonitor
      show Books.Move s.view .publishMonitor _
      convert hmove using 1
      refine Books.ext rfl rfl rfl rfl rfl rfl rfl rfl ?_ ?_ rfl rfl rfl
      · simp [view, hmonitor, MonitorPhase.toRemember]
      · simp [view, hmonitor, MonitorPhase.results]
    | false =>
      rw [if_neg (by simp)] at ht
      split at ht
      case isFalse => cases ht
      case isTrue =>
        obtain rfl := Option.some.inj ht
        refine .degrade _ (List.prefix_refl _) id rfl ?_
        simp [view, hmonitor, MonitorPhase.toRemember]

private theorem move_loopExit {settings : Settings} {s s' : TradingSystem} (h : step settings s .loopExit = some s') :
    Books.Move s.view .degrade s'.view := by
  cases stepped_of_step h with
  | loopExited hloop hstopped =>
    refine .degrade _ ?_ id rfl ?_
    · simp [view, canTake, hstopped, LoopPhase.orders]
    · intro id hid
      simp only [view, LoopPhase.toRemember, MonitorPhase.toRemember, List.nil_append, List.mem_append] at *
      exact .inr (.inr hid)

private theorem move_haltExecution (s : TradingSystem) (stop : Bool) :
    Books.Move s.view .degrade
      ({ s with halted := true, stopped := s.stopped || stop } : TradingSystem).view := by
  refine .degrade _ ?_ ?_ rfl (List.Subset.refl _)
  · simp [view, canTake]
  · intro ht
    simp [view, canTake] at ht

private theorem move_riskPublish {settings : Settings} {s s' : TradingSystem}
    (h : step settings s .riskPublish = some s') : Books.Move s.view .quiet s'.view := by
  cases stepped_of_step h with
  | @assessed a hpending =>
    have hmove : Books.Move s.view .quiet _ := .quiet s.view.remembered s.nextId (List.Subset.refl _) le_rfl
    convert hmove using 1
    refine Books.ext rfl rfl rfl rfl ?_ ?_ rfl rfl rfl rfl rfl rfl rfl
    · simp [view, queued, hpending]
    · simp [view, queued, hpending, canTake]

/-! ### Every step -/

/-- Every step of the system is a move of its books, the one that `action` names. -/
theorem step_move {settings : Settings} {s s' : TradingSystem} {e : TradingEvent} (hlives : s.account.Lives)
    (h : step settings s e = some s') : Books.Move s.view (action settings s e) s'.view := by
  have hquiet : Books.Move s.view .quiet s.view := .quiet _ _ (List.Subset.refl _) le_rfl
  cases e with
  | propose p => cases h; exact hquiet
  | riskEvaluate resetTime ageTime => exact move_evaluate h
  | riskPublish => exact move_riskPublish h
  | riskApply => exact move_apply h
  | loopTake => exact move_take h
  | loopLatency choice => exact move_latency hlives h
  | loopSaved ok => exact move_saved h
  | loopPublish ok => exact move_loopPublish h
  | loopExit => exact move_loopExit h
  | monitorScan => exact move_scan h
  | monitorPrice price => exact move_price hlives h
  | monitorSaved ok => exact move_monitorSaved h
  | monitorPublish ok => exact move_monitorPublish h
  | link connected => cases h; exact hquiet
  | haltRisk stop => cases h; exact hquiet
  | haltExecution stop => cases h; exact move_haltExecution s stop

theorem account_nextPosition (s : TradingSystem) (rest : List BrokerPosition) :
    (s.nextPosition rest).account = s.account := by
  cases rest <;> rfl

private theorem account_afterOrder (settings : Settings) (s : TradingSystem) (a : RiskAssessment ℚ) (w : PaperAccount)
    (task : BrokerTask) : (s.afterOrder settings a w task).account = w := by
  unfold afterOrder
  split <;> rfl

private theorem account_takeAssessment (settings : Settings) (s : TradingSystem) (a : RiskAssessment ℚ)
    (rest : List (RiskAssessment ℚ)) : (s.takeAssessment settings a rest).account = s.account := by
  unfold takeAssessment
  split
  · rfl
  · split
    · rfl
    · split
      · rfl
      · exact account_afterOrder _ _ _ _ _

private theorem account_afterSave (s : TradingSystem) (w : PaperAccount) (task : BrokerTask) :
    (s.afterSave w task).account = w := by
  unfold afterSave
  split <;> rfl

theorem account_afterClose (s : TradingSystem) (rest : List BrokerPosition) (w : PaperAccount)
    (task : BrokerTask) : (s.afterClose rest w task).account = w := by
  unfold afterClose
  split
  · rfl
  · rfl
  · exact account_nextPosition _ _

private theorem account_afterPublish (settings : Settings) (s : TradingSystem) (fill ok : Bool) :
    (s.afterPublish settings fill ok).account = s.account := by
  cases fill <;> cases ok <;> rfl

private theorem account_publish {s s' : TradingSystem} {result : ExecutionResult} {ok : Bool}
    (h : s.publish result ok = some s') : s'.account = s.account := by
  unfold publish at h
  split at h
  · cases h; rfl
  · split at h
    · cases h; rfl
    · cases h

/-- A step does to the account what one piece of a broker call can do. -/
theorem step_effect {settings : Settings} {s s' : TradingSystem} {e : TradingEvent}
    (h : step settings s e = some s') : PaperAccount.Effect s.account s'.account := by
  have hsame : ∀ t : TradingSystem, t.account = s.account → PaperAccount.Effect s.account t.account := by
    intro t ht
    rw [ht]
    exact .same (.refl _)
  cases stepped_of_step h with
  | proposed p => exact hsame _ rfl
  | evaluated => exact hsame _ rfl
  | assessed => exact hsame _ rfl
  | applied => exact hsame _ rfl
  | @taken a rest hloop hassessments => exact hsame _ (account_takeAssessment settings s a rest)
  | @filled choice a refPrice w task hloop hresume =>
    rw [account_afterOrder]
    exact PaperAccount.resume_effect hresume
  | loopSaved hloop hresume =>
    rw [account_afterSave]
    exact PaperAccount.resume_effect hresume
  | loopPublished hloop hpublish => exact hsame _ ((account_afterPublish _ _ _ _).trans (account_publish hpublish))
  | loopExited => exact hsame _ rfl
  | scanned => exact hsame _ (account_nextPosition _ _)
  | unpriced => exact hsame _ (account_nextPosition _ _)
  | kept => exact hsame _ (account_nextPosition _ _)
  | stoppedOut =>
    rw [account_afterClose]
    exact PaperAccount.startClose_effect _ _ _ _ _ _
  | monitorSaved hmonitor hresume =>
    rw [account_afterClose]
    exact PaperAccount.resume_effect hresume
  | monitorPublished hmonitor hpublish => exact hsame _ ((account_nextPosition _ _).trans (account_publish hpublish))
  | linked connected => exact .same ⟨rfl, rfl, rfl⟩
  | riskHalted stop => exact hsame _ rfl
  | executionHalted stop => exact hsame _ rfl

end TradingSystem

end MultiAgentTrading
