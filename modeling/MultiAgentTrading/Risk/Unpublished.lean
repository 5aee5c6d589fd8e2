import MultiAgentTrading.Risk.FailureOwners

/-!
# Assessments that are not published

The body of the risk agent's `run_loop`: the evaluation, which may reserve the approved size, and the awaits after it,
each of which may raise.  Two of them are caught where they stand; when the publishing raises the error is counted and
the loop goes on.  `unpublished_leaves_nothing_iff` says for which proposals the ledger is then as it was before.
-/

namespace MultiAgentTrading

/-- The awaits of an iteration: the mirror of the portfolio value, the audit rows, and the publishing. -/
inductive LoopAwait
  | persistPortfolioValue
  | persistDecision
  | publish
  deriving DecidableEq

/-- The risk agent in its loop, with what it has published. -/
structure RiskLoop where
  agent : RiskAgent
  consecutiveErrors : ℕ := 0
  stopped : Bool := false
  assessments : List (RiskAssessment ℚ) := []
  deriving DecidableEq

namespace RiskLoop

/-- An await that raises or not. -/
def await (raises : Bool) : Except Unit Unit := if raises then .error () else .ok ()

/-- An await whose exception is logged where it is raised. -/
def logged (x : Except Unit Unit) : Except Unit Unit := x.tryCatch fun _ => .ok ()

/-- The awaits after the evaluation, in order. -/
def awaits (raises : LoopAwait → Bool) : Except Unit Unit := do
  logged (await (raises .persistPortfolioValue))
  logged (await (raises .persistDecision))
  await (raises .publish)

/-- `_handle_error`. -/
def handleError (risk : RiskSettings) (s : RiskLoop) : RiskLoop :=
  { s with
    consecutiveErrors := s.consecutiveErrors + 1
    stopped := s.stopped || risk.maxAgentCrashes ≤ (s.consecutiveErrors + 1 : ℕ) }

/-- The body of `run_loop` for one proposal. -/
def handle (risk : RiskSettings) (s : RiskLoop) (p : TradeProposal ℚ) (assessmentId : ℕ) (resetTime ageTime : ℚ)
    (raises : LoopAwait → Bool) : RiskLoop :=
  let e := s.agent.evaluate risk p assessmentId resetTime ageTime
  let s' := { s with agent := e.agent }
  match awaits raises with
  | .ok _ => { s' with consecutiveErrors := 0, assessments := s.assessments ++ [e.assessment] }
  | .error _ => s'.handleError risk

/-- Only the publishing can keep an assessment from being published, and the agent is the evaluated one in any case. -/
theorem handle_spec (risk : RiskSettings) (s : RiskLoop) (p : TradeProposal ℚ) (assessmentId : ℕ)
    (resetTime ageTime : ℚ) (raises : LoopAwait → Bool) :
    (s.handle risk p assessmentId resetTime ageTime raises).agent =
        (s.agent.evaluate risk p assessmentId resetTime ageTime).agent ∧
      (s.handle risk p assessmentId resetTime ageTime raises).assessments =
        s.assessments ++
          if raises .publish then [] else [(s.agent.evaluate risk p assessmentId resetTime ageTime).assessment] := by
  unfold handle awaits
  cases raises .persistPortfolioValue <;> cases raises .persistDecision <;> cases hpublish : raises .publish <;>
    simp [logged, await, handleError, Except.tryCatch, bind, Except.bind]

end RiskLoop

namespace RiskAgent

/-- The proposal passes every check, so that its approval reserves its size. -/
structure Reservable (risk : RiskSettings) (a : RiskAgent) (p : TradeProposal ℚ) (resetTime ageTime : ℚ) : Prop where
  breaker : a.breaker.isTripped = false
  halted : a.tradingHalted = false
  daily : (a.drawdown.dailyLossLimitBreached resetTime).1 = false
  total : (a.drawdown.maybeResetDaily resetTime).totalDrawdownLimitBreached = false
  fresh : signalAgeSeconds p ageTime ≤ risk.maxDataStalenessSeconds
  flat : a.drawdown.held p.symbol = none
  count : a.drawdown.state.openPositionsCount < risk.maxOpenPositions
  size : risk.minOrderSizeUsd ≤
    (sizer risk).calculate a.drawdown.state.portfolioValueUsd (PositionSizer.getStopLossPct p)

/-- The checks on a flat symbol reserve a size exactly if there is room for a position and the size is not too small. -/
private theorem ledger_evaluateFlat (risk : RiskSettings) (a : RiskAgent) (p : TradeProposal ℚ) (assessmentId : ℕ)
    (snap : Snapshot) :
    (snap.openCount < risk.maxOpenPositions ∧
        risk.minOrderSizeUsd ≤ (sizer risk).calculate snap.portfolioValue (PositionSizer.getStopLossPct p) →
      ∃ size, (evaluateFlat risk a p assessmentId snap).agent.drawdown =
        a.drawdown.openPosition p.symbol size (some p.side)) ∧
    (¬(snap.openCount < risk.maxOpenPositions ∧
        risk.minOrderSizeUsd ≤ (sizer risk).calculate snap.portfolioValue (PositionSizer.getStopLossPct p)) →
      (evaluateFlat risk a p assessmentId snap).agent = a) := by
  unfold evaluateFlat
  dsimp only
  split
  case isTrue hcount => exact ⟨fun h => absurd h.1 (not_lt.2 hcount), fun _ => rfl⟩
  case isFalse hcount =>
    split
    case isTrue hsmall => exact ⟨fun h => absurd h.2 (not_le.2 hsmall), fun _ => rfl⟩
    case isFalse hsmall =>
      exact ⟨fun _ => ⟨_, rfl⟩, fun h => absurd ⟨not_le.1 hcount, not_lt.1 hsmall⟩ h⟩

/-- So do the checks from the staleness on, for a signal that is fresh and a symbol that is flat. -/
private theorem ledger_evaluatePosition (risk : RiskSettings) (a : RiskAgent) (p : TradeProposal ℚ) (assessmentId : ℕ)
    (snap : Snapshot) (ageTime : ℚ) :
    (signalAgeSeconds p ageTime ≤ risk.maxDataStalenessSeconds ∧ a.drawdown.held p.symbol = none →
      evaluatePosition risk a p assessmentId snap ageTime = evaluateFlat risk a p assessmentId snap) ∧
    (¬(signalAgeSeconds p ageTime ≤ risk.maxDataStalenessSeconds ∧ a.drawdown.held p.symbol = none) →
      (evaluatePosition risk a p assessmentId snap ageTime).agent = a) := by
  have hside := a.drawdown.positionSide_eq p.symbol
  unfold evaluatePosition
  dsimp only
  split
  case isTrue hstale => exact ⟨fun h => absurd h.1 (not_le.2 hstale), fun _ => rfl⟩
  case isFalse hfresh =>
    rw [hside]
    cases hheld : a.drawdown.held p.symbol with
    | none => exact ⟨fun _ => rfl, fun h => absurd ⟨not_lt.1 hfresh, rfl⟩ h⟩
    | some entry =>
      refine ⟨fun h => absurd h.2 (Option.some_ne_none entry), fun _ => ?_⟩
      rw [Option.map_some]
      dsimp only
      split <;> rfl

/-- The checks of the system: an agent that passes them goes on to the checks of the position, and the ledger of any
other is left alone. -/
private theorem ledger_evaluateSystem (risk : RiskSettings) (a : RiskAgent) (p : TradeProposal ℚ) (assessmentId : ℕ)
    (resetTime ageTime : ℚ) :
    (a.breaker.isTripped = false ∧ a.tradingHalted = false ∧ (a.drawdown.dailyLossLimitBreached resetTime).1 = false ∧
        (a.drawdown.maybeResetDaily resetTime).totalDrawdownLimitBreached = false →
      evaluate risk a p assessmentId resetTime ageTime =
        evaluatePosition risk { a with drawdown := a.drawdown.maybeResetDaily resetTime } p assessmentId
          ⟨a.drawdown.state.portfolioValueUsd, a.drawdown.state.dailyLossPct, a.drawdown.state.openPositionsCount⟩
          ageTime) ∧
    (¬(a.breaker.isTripped = false ∧ a.tradingHalted = false ∧ (a.drawdown.dailyLossLimitBreached resetTime).1 = false ∧
        (a.drawdown.maybeResetDaily resetTime).totalDrawdownLimitBreached = false) →
      a.drawdown.SameLedger (evaluate risk a p assessmentId resetTime ageTime).agent.drawdown) := by
  have hreset := a.drawdown.sameLedger_maybeResetDaily resetTime
  unfold evaluate
  dsimp only
  split
  case isTrue hbreaker =>
    exact ⟨fun h => absurd (h.1.symm.trans hbreaker) Bool.false_ne_true, fun _ => .refl _⟩
  case isFalse hbreaker =>
    split
    case isTrue hhalted => exact ⟨fun h => absurd (h.2.1.symm.trans hhalted) Bool.false_ne_true, fun _ => .refl _⟩
    case isFalse hhalted =>
      split
      case isTrue hdaily => exact ⟨fun h => absurd (h.2.2.1.symm.trans hdaily) Bool.false_ne_true, fun _ => hreset⟩
      case isFalse hdaily =>
        split
        case isTrue htotal =>
          exact ⟨fun h => absurd (h.2.2.2.symm.trans htotal) Bool.false_ne_true, fun _ => hreset⟩
        case isFalse htotal =>
          refine ⟨fun _ => rfl, fun h => absurd ⟨?_, ?_, ?_, ?_⟩ h⟩
          · exact Bool.eq_false_of_not_eq_true hbreaker
          · exact Bool.eq_false_of_not_eq_true hhalted
          · exact Bool.eq_false_of_not_eq_true hdaily
          · exact Bool.eq_false_of_not_eq_true htotal

/-- An evaluation reserves a size for a proposal that passes every check, and leaves the ledger alone for any other. -/
private theorem ledger_evaluate (risk : RiskSettings) (a : RiskAgent) (p : TradeProposal ℚ) (assessmentId : ℕ)
    (resetTime ageTime : ℚ) :
    (Reservable risk a p resetTime ageTime →
      ∃ size, (evaluate risk a p assessmentId resetTime ageTime).agent.drawdown =
        (a.drawdown.maybeResetDaily resetTime).openPosition p.symbol size (some p.side)) ∧
    (¬Reservable risk a p resetTime ageTime →
      a.drawdown.SameLedger (evaluate risk a p assessmentId resetTime ageTime).agent.drawdown) := by
  -- the checks come in three groups, each on the agent and the snapshot that the one before hands on
  obtain ⟨hsystem, hsystem'⟩ := ledger_evaluateSystem risk a p assessmentId resetTime ageTime
  obtain ⟨hposition, hposition'⟩ := ledger_evaluatePosition risk
    { a with drawdown := a.drawdown.maybeResetDaily resetTime } p assessmentId
    ⟨a.drawdown.state.portfolioValueUsd, a.drawdown.state.dailyLossPct, a.drawdown.state.openPositionsCount⟩ ageTime
  obtain ⟨hflat, hflat'⟩ := ledger_evaluateFlat risk { a with drawdown := a.drawdown.maybeResetDaily resetTime } p
    assessmentId
    ⟨a.drawdown.state.portfolioValueUsd, a.drawdown.state.dailyLossPct, a.drawdown.state.openPositionsCount⟩
  dsimp only at hposition hposition' hflat hflat'
  rw [DrawdownMonitor.held_maybeResetDaily] at hposition hposition'
  constructor
  · intro h
    rw [hsystem ⟨h.breaker, h.halted, h.daily, h.total⟩, hposition ⟨h.fresh, h.flat⟩]
    exact hflat ⟨h.count, h.size⟩
  · intro h
    by_cases hpasses : a.breaker.isTripped = false ∧ a.tradingHalted = false ∧
      (a.drawdown.dailyLossLimitBreached resetTime).1 = false ∧
        (a.drawdown.maybeResetDaily resetTime).totalDrawdownLimitBreached = false
    · have hsame := a.drawdown.sameLedger_maybeResetDaily resetTime
      rw [hsystem hpasses]
      by_cases hfresh : signalAgeSeconds p ageTime ≤ risk.maxDataStalenessSeconds ∧ a.drawdown.held p.symbol = none
      · have hnoRoom := fun hsize => h ⟨hpasses.1, hpasses.2.1, hpasses.2.2.1, hpasses.2.2.2, hfresh.1, hfresh.2,
          And.left hsize, And.right hsize⟩
        rw [hposition hfresh, hflat' hnoRoom]
        exact hsame
      · rw [hposition' hfresh]
        exact hsame
    · exact hsystem' hpasses

/-- The ledger is as it was, so that a later proposal gets the same verdict from the checks on it. -/
structure LeavesNothing (a a' : RiskAgent) : Prop where
  ledger : a.drawdown.SameLedger a'.drawdown
  later : ∀ (risk : RiskSettings) (q : TradeProposal ℚ) (assessmentId : ℕ) (snap : Snapshot) (ageTime : ℚ),
    (evaluatePosition risk a' q assessmentId snap ageTime).assessment =
      (evaluatePosition risk a q assessmentId snap ageTime).assessment

theorem leavesNothing_iff {a a' : RiskAgent} : LeavesNothing a a' ↔ a.drawdown.SameLedger a'.drawdown := by
  refine ⟨fun h => h.ledger, fun h => ⟨h, fun risk q assessmentId snap ageTime => ?_⟩⟩
  have hside : a'.drawdown.positionSide q.symbol = a.drawdown.positionSide q.symbol := by
    unfold DrawdownMonitor.positionSide
    rw [h.openPositions, h.positionSides]
  unfold evaluatePosition evaluateFlat
  dsimp only
  rw [hside, h.openPositions]
  split
  · rfl
  · cases a.drawdown.positionSide q.symbol with
    | some heldSide => dsimp only; split <;> rfl
    | none =>
      dsimp only
      split
      · rfl
      · split <;> rfl

end RiskAgent

/-- When the publishing of an assessment raises, it is not published, and nothing is left of its proposal exactly if the
proposal did not pass every check. -/
theorem unpublished_leaves_nothing_iff (risk : RiskSettings) (s : RiskLoop) (p : TradeProposal ℚ) (assessmentId : ℕ)
    (resetTime ageTime : ℚ) {raises : LoopAwait → Bool} (hraises : raises .publish = true) :
    (s.handle risk p assessmentId resetTime ageTime raises).assessments = s.assessments ∧
      (RiskAgent.LeavesNothing s.agent (s.handle risk p assessmentId resetTime ageTime raises).agent ↔
        ¬RiskAgent.Reservable risk s.agent p resetTime ageTime) := by
  obtain ⟨hagent, hassessments⟩ := s.handle_spec risk p assessmentId resetTime ageTime raises
  obtain ⟨hreserved, hleft⟩ := RiskAgent.ledger_evaluate risk s.agent p assessmentId resetTime ageTime
  constructor
  · rw [hassessments, if_pos hraises, List.append_nil]
  · rw [RiskAgent.leavesNothing_iff, hagent]
    refine ⟨fun hsame hpasses => ?_, hleft⟩
    obtain ⟨size, hopened⟩ := hreserved hpasses
    have hflat := DrawdownMonitor.held_eq_none_iff.1 hpasses.flat
    have hentry : (s.agent.evaluate risk p assessmentId resetTime ageTime).agent.drawdown.held p.symbol =
        some (p.side, size) := by
      rw [hopened, DrawdownMonitor.held_openPosition, if_pos rfl]
    have hcost := DrawdownMonitor.get?_openPositions
      (s.agent.evaluate risk p assessmentId resetTime ageTime).agent.drawdown p.symbol
    rw [hentry, hsame.openPositions, hflat] at hcost
    cases hcost

namespace RiskLoop

/-- A buy of two hundred dollars. -/
def buyOnce : TradeProposal ℚ := plainProposal 1 "BTC/USDT" .buy 200 two_hundred_pos 100 0 .empty

def onlyPublish : LoopAwait → Bool
  | .persistPortfolioValue => false
  | .persistDecision => false
  | .publish => true

def fresh : RiskLoop where
  agent := .init defaultSettings 0

/-- A buy whose assessment is not published stays reserved, and the next one is rejected as a duplicate. -/
theorem unpublished_buy_stays_reserved :
    let s := fresh.handle defaultSettings.risk buyOnce 1 0 0 onlyPublish
    s.assessments = [] ∧ ¬RiskAgent.LeavesNothing fresh.agent s.agent ∧
      (s.agent.evaluate defaultSettings.risk buyOnce 2 0 0).assessment.rejectionReason = some .duplicateSignal := by
  intro s
  have hledger : s.assessments = [] ∧ s.agent.drawdown.state.openPositions ≠ fresh.agent.drawdown.state.openPositions ∧
      (s.agent.evaluate defaultSettings.risk buyOnce 2 0 0).assessment.rejectionReason = some .duplicateSignal := by
    decide +kernel
  exact ⟨hledger.1, fun h => hledger.2.1 h.ledger.openPositions, hledger.2.2⟩

/-- A proposal on a stale signal reserves nothing. -/
theorem unpublished_leaves_nothing_stale :
    RiskAgent.LeavesNothing fresh.agent (fresh.handle defaultSettings.risk buyOnce 1 0 100000 onlyPublish).agent := by
  refine (unpublished_leaves_nothing_iff defaultSettings.risk fresh buyOnce 1 0 100000 rfl).2.2 fun h => ?_
  exact absurd h.fresh (by decide +kernel)

end RiskLoop

end MultiAgentTrading
