import MultiAgentTrading.Execution.BrokerTasks
import MultiAgentTrading.Lib.Runs

/-!
# Orders that are rejected, and orders that are not

One call of `place_order` from its start to its end, with nothing else running.  `Progress` says what the account is at
each await of the call; `place_order_all_or_nothing` has the two ways in which it can end.
-/

namespace MultiAgentTrading

open PaperBroker Runs

/-- The call has returned. -/
def BrokerTask.returned : BrokerTask → Bool
  | .sleeping _ _ => false
  | .saving _ _ => false
  | .done (.error _) => false
  | .done (.ok _) => true

theorem BrokerTask.exists_of_returned {task : BrokerTask} (h : task.returned = true) :
    ∃ reply, task = .done (.ok reply) := by
  cases task with
  | sleeping a refPrice => cases h
  | saving stage next => cases h
  | done outcome =>
    cases outcome with
    | error err => cases h
    | ok reply => exact ⟨reply, rfl⟩

/-- The broker after an order has filled. -/
def PaperBroker.Filled.broker : Filled → PaperBroker
  | .opened broker _ _ => broker
  | .closed c => c.broker

namespace PaperAccount

/-- The next await of a call ends. -/
def goOn (s : PaperAccount × BrokerTask) (wakeup : Wakeup) : Option (PaperAccount × BrokerTask) := s.1.resume s.2 wakeup

/-- `place_order` and the ends of its awaits, with nothing else running. -/
def placeOrder (settings : Settings) (w : PaperAccount) (a : RiskAssessment ℚ) (wakeups : List Wakeup) :
    Option (PaperAccount × BrokerTask) :=
  exec goOn (w, w.startOrder settings a) wakeups

/-- A position in the symbol is opened, paid for with cash that is there, or the one in it is taken out; no other
position changes. -/
structure TradesOne (w w' : PaperAccount) (symbol : String) : Prop where
  others : ∀ other, other ≠ symbol → w'.broker.positions.get? other = w.broker.positions.get? other
  traded :
    (w.broker.positions.get? symbol = none ∧ ∃ position, w'.broker.positions.get? symbol = some position ∧
      w'.broker.cashBalance = w.broker.cashBalance - position.costUsd ∧ 0 ≤ w'.broker.cashBalance) ∨
    ((∃ position, w.broker.positions.get? symbol = some position) ∧ w'.broker.positions.get? symbol = none)

theorem TradesOne.of_sameBooks {w w' w'' : PaperAccount} {symbol : String} (h : TradesOne w w' symbol)
    (hs : SameBooks w' w'') : TradesOne w w'' symbol := by
  refine ⟨?_, ?_⟩
  · rw [hs.positions]
    exact h.others
  · rw [hs.positions, hs.cash]
    exact h.traded

/-- An order that fills trades its symbol. -/
theorem tradesOne_fillOrder {w w' : PaperAccount} {a : RiskAssessment ℚ} {refPrice : RefPrice} {choice : FillChoice}
    {resultId : ℕ} {filled : Filled} (h : w.broker.fillOrder a refPrice choice resultId = .ok filled)
    (hw : w'.broker = filled.broker) : TradesOne w w' a.originalProposal.symbol := by
  rcases fillOrder_cases h with ⟨c, rfl, -, hclose⟩ | ⟨fill, hflat, -, hcost, rfl⟩
  · obtain ⟨hheld, -, hbroker, -⟩ := closeAt_spec hclose
    replace hw : w'.broker = c.broker := hw
    rw [hbroker] at hw
    refine ⟨fun other hother => ?_, .inr ⟨⟨_, hheld⟩, ?_⟩⟩
    · rw [hw]
      exact Dict.get?_erase_of_ne hother _
    · rw [hw]
      exact Dict.get?_erase_self _ _
  · refine ⟨fun other hother => ?_, .inl ⟨hflat, openedPosition a fill, ?_, ?_, ?_⟩⟩
    · rw [hw]
      exact Dict.get?_set_of_ne hother _ _
    · rw [hw]
      exact Dict.get?_set_self _ _ _
    · rw [hw]
      rfl
    · rw [hw]
      exact sub_nonneg.2 hcost

/-- Where a call of `place_order` has got to, and what the account is then. -/
def Progress (w : PaperAccount) (a : RiskAssessment ℚ) (s : PaperAccount × BrokerTask) : Prop :=
  match s.2 with
  | .sleeping a' _ => s.1 = w ∧ a' = a
  | .saving _ _ => TradesOne w s.1 a.originalProposal.symbol
  | .done (.error _) => s.1 = w
  | .done (.ok _) => a.proposalId ∈ w.broker.filledOrders.keys ∨ TradesOne w s.1 a.originalProposal.symbol

theorem progress_startOrder (settings : Settings) (w : PaperAccount) (a : RiskAssessment ℚ) :
    Progress w a (w, w.startOrder settings a) := by
  unfold startOrder
  cases haccept : w.broker.acceptOrder settings a with
  | error err => exact rfl
  | ok accepted =>
    cases accepted with
    | inl cached => exact .inl (acceptOrder_replay haccept)
    | inr refPrice => exact ⟨rfl, rfl⟩

/-- Once the order has filled, its save is under way or there is nothing to save to. -/
private theorem progress_startSave {w w' : PaperAccount} {a : RiskAssessment ℚ}
    (h : TradesOne w w' a.originalProposal.symbol) (next : AfterSave) : Progress w a (w'.startSave next) := by
  have htraded := h.of_sameBooks (sameBooks_startSave w' next)
  rcases startSave_cases w' next with ⟨stage, hsaving⟩ | hfinish
  · rw [hsaving] at htraded ⊢
    exact htraded
  · rw [hfinish] at htraded ⊢
    have hdone := (finish_spec w' next).1
    rw [← Prod.eta (w'.finish next), hdone]
    exact .inr htraded

theorem Progress.goOn {w : PaperAccount} {a : RiskAssessment ℚ} {s s' : PaperAccount × BrokerTask} {wakeup : Wakeup}
    (h : Progress w a s) (hstep : goOn s wakeup = some s') : Progress w a s' := by
  obtain ⟨w₁, task⟩ := s
  cases task with
  | sleeping a' refPrice =>
    obtain ⟨rfl, rfl⟩ := h
    cases wakeup with
    | saved ok => cases hstep
    | latencyOver choice resultId =>
      unfold PaperAccount.goOn resume at hstep
      dsimp only at hstep
      split at hstep
      case h_1 => cases hstep; exact rfl
      case h_2 broker position result hf =>
        cases hstep
        exact progress_startSave (tradesOne_fillOrder hf rfl) _
      case h_3 c hf =>
        cases hstep
        exact progress_startSave (tradesOne_fillOrder hf rfl) _
  | saving stage next =>
    cases wakeup with
    | latencyOver choice resultId => cases stage <;> cases hstep
    | saved ok =>
      obtain ⟨w₂, task₂⟩ := s'
      obtain ⟨hbooks, hended⟩ := resume_saving hstep
      have htraded := TradesOne.of_sameBooks h hbooks
      rcases hended with ⟨stage', rfl, -⟩ | ⟨rfl, -⟩
      · exact htraded
      · exact .inr htraded
  | done outcome => cases hstep

end PaperAccount

open PaperAccount

/-- A call of `place_order` that raises leaves cash, positions, the order cache, and what is persisted as they were.
One that returns, for a proposal that is not in the cache, has opened a position in the symbol with cash that was there,
or taken the one in it out, and has changed no other. -/
theorem place_order_all_or_nothing {settings : Settings} {w w' : PaperAccount} {a : RiskAssessment ℚ}
    {wakeups : List Wakeup} {outcome : Except BrokerError (Option ExecutionResult)}
    (h : placeOrder settings w a wakeups = some (w', .done outcome)) :
    (∀ err, outcome = .error err → w' = w) ∧
      ∀ result, outcome = .ok result → a.proposalId ∉ w.broker.filledOrders.keys →
        TradesOne w w' a.originalProposal.symbol := by
  have hprogress : Progress w a (w', .done outcome) :=
    exec_invariant (Progress w a) (fun _ _ _ hs hstep => hs.goOn hstep) (progress_startOrder settings w a) h
  refine ⟨?_, ?_⟩
  · rintro err rfl
    exact hprogress
  · rintro result rfl hnew
    exact hprogress.resolve_left hnew

def connectedAccount : PaperAccount where
  broker := .init defaultSettings
  connected := true

theorem seven_tenths_mem : (6 / 10 : ℚ) ≤ 7 / 10 ∧ (7 / 10 : ℚ) ≤ 99 / 100 := by norm_num

/-- A buy that fills in part, and both writes of its save. -/
def partialFill : Option (PaperAccount × BrokerTask) :=
  placeOrder defaultSettings connectedAccount (plainOrder 1 "BTC/USDT" .buy 200 two_hundred_pos 100)
    [.latencyOver (.part (7 / 10) seven_tenths_mem) 5, .saved true, .saved true]

theorem place_order_all_or_nothing_partialFill : ∃ w' outcome, partialFill = some (w', .done (.ok outcome)) ∧
    w'.broker.cashBalance < 9861 ∧ TradesOne connectedAccount w' "BTC/USDT" := by
  have hrun : (partialFill.map fun s => (s.2.returned, decide (s.1.broker.cashBalance < 9861))) =
      some (true, true) := by decide +kernel
  obtain ⟨⟨w', task⟩, hs, hended⟩ := Option.map_eq_some_iff.1 hrun
  rw [Prod.mk.injEq] at hended
  obtain ⟨outcome, rfl⟩ := BrokerTask.exists_of_returned hended.1
  have hcash := of_decide_eq_true hended.2
  exact ⟨w', outcome, hs, hcash, (place_order_all_or_nothing hs).2 outcome rfl (by decide +kernel)⟩

end MultiAgentTrading
