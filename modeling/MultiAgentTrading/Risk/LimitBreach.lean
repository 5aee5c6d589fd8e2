import MultiAgentTrading.Risk.Agent
import MultiAgentTrading.Lib.Runs

/-!
# A limit breach is final

Runs of one risk agent.  Evaluations come one after the other, but each may suspend on the bus before it returns, and
results and halts come in at any time; that the bus fails makes no difference to the agent.  The breaker is tripped
before a limit rejection is returned and nothing resets it, so after one `limit_breach_final` has only rejections, and
evaluations that leave the ledger alone.
-/

namespace MultiAgentTrading

open Runs

/-- A rejection by check 3 or check 4. -/
def RiskAssessment.IsLimitRejection (a : RiskAssessment ℚ) : Prop :=
  a.rejectionReason = some .dailyLossLimit ∨ a.rejectionReason = some .totalDrawdownLimit

/-- The agent, the verdict of an evaluation that is suspended on the bus, and the verdicts returned so far. -/
structure RiskRun where
  agent : RiskAgent
  pending : Option (RiskAssessment ℚ) := none
  returned : List (RiskAssessment ℚ) := []

/-- The events: an evaluation runs up to its await, or returns after the bus has answered or failed; a result is
applied; a halt arrives. -/
inductive RiskEvent
  | evaluate (proposal : TradeProposal ℚ) (assessmentId : ℕ) (resetTime ageTime : ℚ)
  | resume (busFailed : Bool)
  | apply (result : ExecutionResult)
  | halt

namespace RiskAgent

/-- The text of a limit rejection is made after the await, with the percentage of then. -/
def reread (m : DrawdownMonitor) (a : RiskAssessment ℚ) : RiskAssessment ℚ :=
  match a.rejectionDetail with
  | some (.dailyLossExceeds _) => { a with rejectionDetail := some (.dailyLossExceeds m.state.dailyLossPct) }
  | some (.totalDrawdownExceeds _) =>
    { a with rejectionDetail := some (.totalDrawdownExceeds m.state.totalDrawdownPct) }
  | _ => a

@[simp] theorem rejectionReason_reread (m : DrawdownMonitor) (a : RiskAssessment ℚ) :
    (reread m a).rejectionReason = a.rejectionReason := by
  unfold reread
  split <;> rfl

@[simp] theorem decision_reread (m : DrawdownMonitor) (a : RiskAssessment ℚ) :
    (reread m a).decision = a.decision := by
  unfold reread
  split <;> rfl

theorem isTripped_trip (b : CircuitBreaker) (reason : HaltReason ℚ) : (b.trip reason).isTripped = true := by
  unfold CircuitBreaker.trip
  split
  case isTrue h => exact h
  case isFalse => rfl

/-- With the breaker tripped an evaluation is a rejection and nothing else. -/
theorem evaluate_of_isTripped {a : RiskAgent} (h : a.breaker.isTripped = true) (risk : RiskSettings)
    (p : TradeProposal ℚ) (assessmentId : ℕ) (resetTime ageTime : ℚ) :
    (evaluate risk a p assessmentId resetTime ageTime).agent = a ∧
      (evaluate risk a p assessmentId resetTime ageTime).assessment.decision = .rejected := by
  unfold evaluate
  dsimp only
  rw [if_pos h]
  exact ⟨rfl, rfl⟩

private theorem not_limit_evaluatePosition (risk : RiskSettings) (a : RiskAgent) (p : TradeProposal ℚ)
    (assessmentId : ℕ) (snap : Snapshot) (ageTime : ℚ) :
    ¬(evaluatePosition risk a p assessmentId snap ageTime).assessment.IsLimitRejection := by
  unfold evaluatePosition evaluateFlat RiskAssessment.IsLimitRejection
  dsimp only
  split
  · simp [reject]
  · split
    · split
      · simp [reject]
      · simp [approveClose]
    · split
      · simp [reject]
      · split
        · simp [reject]
        · simp [approveOpen]

/-- The breaker is tripped before a limit rejection is returned. -/
theorem isTripped_of_isLimitRejection {risk : RiskSettings} {a : RiskAgent} {p : TradeProposal ℚ} {assessmentId : ℕ}
    {resetTime ageTime : ℚ} (h : (evaluate risk a p assessmentId resetTime ageTime).assessment.IsLimitRejection) :
    (evaluate risk a p assessmentId resetTime ageTime).agent.breaker.isTripped = true := by
  unfold evaluate at h ⊢
  dsimp only at h ⊢
  split
  case isTrue hbreaker => exact hbreaker
  case isFalse hbreaker =>
    rw [if_neg hbreaker] at h
    split
    case isTrue hhalted => rw [if_pos hhalted] at h; simp [RiskAssessment.IsLimitRejection, reject] at h
    case isFalse hhalted =>
      rw [if_neg hhalted] at h
      split
      case isTrue => exact isTripped_trip _ _
      case isFalse hdaily =>
        rw [if_neg hdaily] at h
        split
        case isTrue => exact isTripped_trip _ _
        case isFalse hdrawdown =>
          rw [if_neg hdrawdown] at h
          exact absurd h (not_limit_evaluatePosition _ _ _ _ _ _)

theorem breaker_applyExecutionResult (a : RiskAgent) (result : ExecutionResult) :
    (a.applyExecutionResult result).2.breaker = a.breaker := by
  unfold applyExecutionResult
  split <;> rfl

end RiskAgent

namespace RiskRun

def init (settings : Settings) (now : ℚ) : RiskRun := { agent := .init settings now }

def step (risk : RiskSettings) (s : RiskRun) : RiskEvent → Option RiskRun
  | .evaluate p assessmentId resetTime ageTime =>
    match s.pending with
    | some _ => none
    | none =>
      let e := s.agent.evaluate risk p assessmentId resetTime ageTime
      some { s with agent := e.agent, pending := some e.assessment }
  -- what the bus raises is caught and logged
  | .resume _ =>
    match s.pending with
    | some a => some { s with pending := none, returned := s.returned ++ [RiskAgent.reread s.agent.drawdown a] }
    | none => none
  | .apply result => some { s with agent := (s.agent.applyExecutionResult result).2 }
  | .halt => some { s with agent := { s.agent with tradingHalted := true } }

/-- The invariant: a limit rejection, returned or about to be, has tripped the breaker, and all verdicts after the
first one are rejections. -/
structure Latched (s : RiskRun) : Prop where
  returned : ∀ xs a ys, s.returned = xs ++ a :: ys → a.IsLimitRejection →
    s.agent.breaker.isTripped = true ∧ (∀ b ∈ ys, b.decision = .rejected) ∧
      ∀ b, s.pending = some b → b.decision = .rejected
  pending : ∀ a, s.pending = some a → a.IsLimitRejection → s.agent.breaker.isTripped = true

theorem Latched.step {risk : RiskSettings} {s s' : RiskRun} {e : RiskEvent} (h : s.Latched)
    (hs : step risk s e = some s') : s'.Latched := by
  cases e with
  | evaluate p assessmentId resetTime ageTime =>
    simp only [RiskRun.step] at hs
    split at hs
    case h_1 => cases hs
    case h_2 hpending =>
      cases hs
      constructor
      · intro xs a ys hreturned hlimit
        obtain ⟨htripped, hrejected, -⟩ := h.returned xs a ys hreturned hlimit
        obtain ⟨hagent, hdecision⟩ :=
          RiskAgent.evaluate_of_isTripped htripped risk p assessmentId resetTime ageTime
        refine ⟨by rw [hagent]; exact htripped, hrejected, ?_⟩
        rintro b ⟨rfl⟩
        exact hdecision
      · rintro a ⟨rfl⟩ hlimit
        exact RiskAgent.isTripped_of_isLimitRejection hlimit
  | resume busFailed =>
    simp only [RiskRun.step] at hs
    split at hs
    case h_2 => cases hs
    case h_1 a hpending =>
      cases hs
      refine ⟨?_, by rintro _ ⟨⟩⟩
      intro xs b ys hreturned hlimit
      -- the verdict just returned is the limit rejection, or comes after it
      rcases List.eq_nil_or_concat ys with rfl | ⟨ys, c, rfl⟩
      · obtain ⟨-, hb⟩ := List.append_inj' hreturned rfl
        obtain rfl := List.singleton_injective hb
        refine ⟨h.pending a hpending (by simpa [RiskAssessment.IsLimitRejection] using hlimit), by simp, ?_⟩
        rintro _ ⟨⟩
      · rw [List.concat_eq_append, ← List.cons_append, ← List.append_assoc] at hreturned
        obtain ⟨hreturned, hc⟩ := List.append_inj' hreturned rfl
        obtain ⟨htripped, hrejected, hlast⟩ := h.returned xs b ys hreturned hlimit
        refine ⟨htripped, ?_, by rintro _ ⟨⟩⟩
        intro d hd
        rw [List.concat_eq_append] at hd
        rcases List.mem_append.1 hd with hd | hd
        · exact hrejected d hd
        · rw [List.mem_singleton.1 hd, ← List.singleton_injective hc, RiskAgent.decision_reread]
          exact hlast a hpending
  | apply result =>
    cases hs
    constructor
    · intro xs a ys hreturned hlimit
      rw [RiskAgent.breaker_applyExecutionResult]
      exact h.returned xs a ys hreturned hlimit
    · intro a hpending hlimit
      rw [RiskAgent.breaker_applyExecutionResult]
      exact h.pending a hpending hlimit
  | halt =>
    cases hs
    exact ⟨h.returned, h.pending⟩

end RiskRun

/-- Whether an event is a piece of a call of `_evaluate`. -/
def RiskEvent.isEvaluation : RiskEvent → Bool
  | .evaluate _ _ _ _ => true
  | .resume _ => true
  | _ => false

private theorem agent_evaluation {risk : RiskSettings} {s s' : RiskRun} {e : RiskEvent}
    (htripped : s.agent.breaker.isTripped = true) (he : e.isEvaluation = true)
    (hs : RiskRun.step risk s e = some s') : s'.agent = s.agent := by
  cases e with
  | evaluate p assessmentId resetTime ageTime =>
    simp only [RiskRun.step] at hs
    split at hs
    case h_1 => cases hs
    case h_2 =>
      cases hs
      exact (RiskAgent.evaluate_of_isTripped htripped risk p assessmentId resetTime ageTime).1
  | resume busFailed =>
    simp only [RiskRun.step] at hs
    split at hs
    case h_1 => cases hs; rfl
    case h_2 => cases hs
  | apply result => cases he
  | halt => cases he

/-- A limit breach is final: in every run, all verdicts returned after a limit rejection are rejections, and once one
has been returned no piece of a call of `_evaluate` moves the cash, the open positions or the sides. -/
theorem limit_breach_final {settings : Settings} {now : ℚ} {es : List RiskEvent} {s : RiskRun}
    (h : exec (RiskRun.step settings.risk) (RiskRun.init settings now) es = some s) :
    (∀ xs a ys, s.returned = xs ++ a :: ys → a.IsLimitRejection → ∀ b ∈ ys, b.decision = .rejected) ∧
      ((∃ a ∈ s.returned, a.IsLimitRejection) → ∀ e s', e.isEvaluation = true →
        RiskRun.step settings.risk s e = some s' →
        s'.agent.drawdown.state.currentBalanceUsd = s.agent.drawdown.state.currentBalanceUsd ∧
          s'.agent.drawdown.state.openPositions = s.agent.drawdown.state.openPositions ∧
          s'.agent.drawdown.state.positionSides = s.agent.drawdown.state.positionSides) := by
  have hlatched : s.Latched := by
    refine exec_invariant RiskRun.Latched (fun s e s' hs hstep => hs.step hstep) ?_ h
    exact ⟨fun xs a ys hnil => by simp [RiskRun.init] at hnil, by rintro _ ⟨⟩⟩
  constructor
  · intro xs a ys hreturned hlimit
    exact (hlatched.returned xs a ys hreturned hlimit).2.1
  · rintro ⟨a, ha, hlimit⟩ e s' he hs
    obtain ⟨xs, ys, hreturned⟩ := List.append_of_mem ha
    have htripped := (hlatched.returned xs a ys hreturned hlimit).1
    rw [agent_evaluation htripped he hs]
    exact ⟨rfl, rfl, rfl⟩

/-- A filled market order for one unit. -/
def unitFill (resultId : ℕ) (side : OrderSide) (price : ℚ) (realizedPnlUsd : Option ℚ) : ExecutionResult where
  resultId := resultId
  proposalId := resultId
  assessmentId := resultId
  symbol := "BTC/USDT"
  side := side
  orderType := .market
  status := .filled
  requestedQuantity := 1
  filledQuantity := 1
  averageFillPrice := some price
  totalCostUsd := some price
  realizedPnlUsd := realizedPnlUsd
  isPaper := true

/-- A loss of 600 on 10000 breaches the daily limit; a gain of 900 makes up for it, and the next proposal comes in on
the day after. -/
def breachThenGain : List RiskEvent :=
  [.apply (unitFill 1 .buy 1000 none), .apply (unitFill 2 .sell 400 (some (-600))),
    .evaluate (plainProposal 1 "BTC/USDT" .buy 200 two_hundred_pos 400 0 .empty) 1 0 0, .resume true,
    .apply (unitFill 3 .buy 400 none), .apply (unitFill 4 .sell 1300 (some 900)),
    .evaluate (plainProposal 2 "BTC/USDT" .buy 200 two_hundred_pos 1300 86400 .empty) 2 86400 86400, .resume false]

theorem limit_breach_final_gain : ∃ s a b,
    exec (RiskRun.step defaultSettings.risk) (RiskRun.init defaultSettings 0) breachThenGain = some s ∧
      s.returned = [a, b] ∧ a.IsLimitRejection ∧ b.decision = .rejected := by
  have hrun : (exec (RiskRun.step defaultSettings.risk) (RiskRun.init defaultSettings 0) breachThenGain).map
      (fun s => s.returned.map RiskAssessment.rejectionReason) =
        some [some .dailyLossLimit, some .circuitBreakerActive] := by decide +kernel
  obtain ⟨s, hs, hreasons⟩ := Option.map_eq_some_iff.1 hrun
  obtain ⟨a, rest, hreturned, ha, hrest⟩ := List.map_eq_cons_iff.1 hreasons
  obtain ⟨b, tail, rfl, -, htail⟩ := List.map_eq_cons_iff.1 hrest
  obtain rfl := List.map_eq_nil_iff.1 htail
  have hlimit : a.IsLimitRejection := .inl ha
  exact ⟨s, a, b, hs, hreturned, hlimit, (limit_breach_final hs).1 [] a [b] hreturned hlimit b (by simp)⟩

end MultiAgentTrading
