import MultiAgentTrading.Lib.Recent
import MultiAgentTrading.Risk.DrawdownMonitor
import MultiAgentTrading.Risk.PositionSizer

/-!
# The risk agent

`evaluate` runs the ten checks on a proposal; `applyExecutionResult` keeps the ledger in step with the fills.
`evaluate_cases` and `settle_cases` say once what each can do to the ledger.  The main result is
`ledger_conservation`: over any sequence of evaluations and results the portfolio value moves only by the profit of
the results that closed a position, and sides and positions always name the same symbols.
-/

namespace MultiAgentTrading

structure CircuitBreaker where
  isTripped : Bool := false
  reason : Option (HaltReason ℚ) := none
  deriving DecidableEq

/-- Trip the breaker; the first reason is kept. -/
def CircuitBreaker.trip (b : CircuitBreaker) (reason : HaltReason ℚ) : CircuitBreaker :=
  if b.isTripped then b else ⟨true, some reason⟩

structure RiskAgent where
  drawdown : DrawdownMonitor
  breaker : CircuitBreaker := {}
  tradingHalted : Bool := false
  seenResults : Dict ℕ Unit := .empty
  deriving DecidableEq

/-- What `applyExecutionResult` did with a result. -/
inductive ApplyAction | duplicate | released | ignored | closed | reconciled | adopted
  deriving DecidableEq, Repr

/-- An evaluation: the verdict, the agent after it, and the override it broadcast, if any. -/
structure Evaluation where
  assessment : RiskAssessment ℚ
  agent : RiskAgent
  override : Option (RiskOverride ℚ) := none

/-- The portfolio as read when an evaluation starts. -/
structure Snapshot where
  portfolioValue : ℚ
  dailyLossPct : ℚ
  openCount : ℕ

namespace RiskAgent

def init (settings : Settings) (now : ℚ) : RiskAgent where
  drawdown := .init settings.paperInitialBalanceUsd settings.risk.maxDailyLossPct settings.risk.maxTotalDrawdownPct now

def sizer (risk : RiskSettings) : PositionSizer where
  maxPositionPct := risk.maxPositionPct
  minOrderUsd := risk.minOrderSizeUsd
  maxOrderUsd := risk.maxOrderSizeUsd

/-! ### Execution results -/

/-- `_SEEN_RESULTS_MAX`. -/
def seenResultsMax : ℕ := 1000

/-- Remember a result id, dropping the oldest one past the cap. -/
def remember (seen : Dict ℕ Unit) (resultId : ℕ) : Dict ℕ Unit :=
  let seen' := seen.set resultId ()
  if seenResultsMax < seen'.size then seen'.popFirst else seen'

/-- Whether a result is a fill: a filled status and a positive quantity. -/
def isFill (result : ExecutionResult) : Bool :=
  (result.status = .filled ∨ result.status = .partiallyFilled) ∧ 0 < result.filledQuantity

/-- The cost a fill reports: notional plus fee, a missing amount counting as zero. -/
def actualCost (result : ExecutionResult) : ℚ := result.totalCostUsd.getD 0 + result.feeUsd.getD 0

/-- Apply a result that has not been seen to the ledger. -/
def settle (m : DrawdownMonitor) (result : ExecutionResult) : ApplyAction × DrawdownMonitor :=
  let heldSide := m.positionSide result.symbol
  if isFill result = false then
    if heldSide = some result.side then (.released, m.closePosition result.symbol 0) else (.ignored, m)
  else if heldSide ≠ none ∧ heldSide ≠ some result.side then
    (.closed, m.closePosition result.symbol (result.realizedPnlUsd.getD 0))
  else if heldSide = some result.side then
    (.reconciled, m.adjustPositionCost result.symbol (actualCost result))
  else (.adopted, m.openPosition result.symbol (actualCost result) (some result.side))

/-- `_apply_execution_result`. -/
def applyExecutionResult (a : RiskAgent) (result : ExecutionResult) : ApplyAction × RiskAgent :=
  if a.seenResults.contains result.resultId then (.duplicate, a)
  else
    let settled := settle a.drawdown result
    (settled.1, { a with drawdown := settled.2, seenResults := remember a.seenResults result.resultId })

/-! ### What a result does to the ledger -/

/-- What a result does to the ledger's entry for its own symbol. -/
def settleEntry (result : ExecutionResult) : Option (OrderSide × ℚ) → Option (OrderSide × ℚ)
  | none => if isFill result then some (result.side, actualCost result) else none
  | some (d, cost) =>
    if d = result.side then if isFill result then some (d, actualCost result) else none
    else if isFill result then none else some (d, cost)

/-- The profit that a result realises, given the ledger's entry for its symbol. -/
def settlePnl (result : ExecutionResult) : Option (OrderSide × ℚ) → ℚ
  | none => 0
  | some (d, _) => if d ≠ result.side ∧ isFill result = true then result.realizedPnlUsd.getD 0 else 0

/-- The five things a result can do, by the side held and whether it is a fill. -/
theorem settle_cases (m : DrawdownMonitor) (result : ExecutionResult) :
    (∃ cost, m.held result.symbol = some (result.side, cost) ∧ isFill result = false ∧
      settle m result = (.released, m.closePosition result.symbol 0)) ∨
    (m.positionSide result.symbol ≠ some result.side ∧ isFill result = false ∧ settle m result = (.ignored, m)) ∨
    (∃ d cost, d ≠ result.side ∧ m.held result.symbol = some (d, cost) ∧ isFill result = true ∧
      settle m result = (.closed, m.closePosition result.symbol (result.realizedPnlUsd.getD 0))) ∨
    (∃ cost, m.held result.symbol = some (result.side, cost) ∧ isFill result = true ∧
      settle m result = (.reconciled, m.adjustPositionCost result.symbol (actualCost result))) ∨
    (m.held result.symbol = none ∧ isFill result = true ∧
      settle m result = (.adopted, m.openPosition result.symbol (actualCost result) (some result.side))) := by
  have hside := m.positionSide_eq result.symbol
  unfold settle
  rw [hside]
  cases hh : m.held result.symbol with
  | none => cases hf : isFill result <;> simp
  | some e =>
    obtain ⟨d, cost⟩ := e
    by_cases hd : d = result.side
    · subst hd
      cases hf : isFill result <;> simp
    · cases hf : isFill result <;> simp [hd]

theorem held_settle (m : DrawdownMonitor) (result : ExecutionResult) (symbol : String) :
    (settle m result).2.held symbol =
      if symbol = result.symbol then settleEntry result (m.held result.symbol) else m.held symbol := by
  rcases settle_cases m result with ⟨cost, hh, hf, hs⟩ | ⟨hh, hf, hs⟩ | ⟨d, cost, hd, hh, hf, hs⟩ | ⟨cost, hh, hf, hs⟩ |
    ⟨hh, hf, hs⟩
  · simp [hs, DrawdownMonitor.held_closePosition, hh, settleEntry, hf]
  · rw [hs]
    split
    case isFalse => rfl
    case isTrue he =>
      subst he
      rw [DrawdownMonitor.positionSide_eq] at hh
      cases hp : m.held result.symbol with
      | none => simp [settleEntry, hf]
      | some e =>
        obtain ⟨d, cost⟩ := e
        have hd : d ≠ result.side := by simpa [hp] using hh
        simp [settleEntry, hf, hd]
  · simp [hs, DrawdownMonitor.held_closePosition, hh, settleEntry, hf, hd]
  · simp [hs, DrawdownMonitor.held_adjustPositionCost, hh, settleEntry, hf]
  · simp [hs, DrawdownMonitor.held_openPosition, hh, settleEntry, hf]

/-- A result moves the portfolio value only when it closes a position, and then by its profit. -/
theorem portfolioValueUsd_settle (m : DrawdownMonitor) (result : ExecutionResult) :
    (settle m result).2.state.portfolioValueUsd =
      m.state.portfolioValueUsd + if (settle m result).1 = .closed then result.realizedPnlUsd.getD 0 else 0 := by
  rcases settle_cases m result with ⟨cost, hh, hf, hs⟩ | ⟨hh, hf, hs⟩ | ⟨d, cost, hd, hh, hf, hs⟩ | ⟨cost, hh, hf, hs⟩ |
    ⟨hh, hf, hs⟩
  · simp [hs, DrawdownMonitor.portfolioValueUsd_closePosition]
  · simp [hs]
  · simp [hs, DrawdownMonitor.portfolioValueUsd_closePosition]
  · simp [hs, DrawdownMonitor.portfolioValueUsd_adjustPositionCost]
  · simp [hs, DrawdownMonitor.portfolioValueUsd_openPosition hh]

theorem settlePnl_eq (m : DrawdownMonitor) (result : ExecutionResult) :
    settlePnl result (m.held result.symbol) =
      if (settle m result).1 = .closed then result.realizedPnlUsd.getD 0 else 0 := by
  rcases settle_cases m result with ⟨cost, hh, hf, hs⟩ | ⟨hh, hf, hs⟩ | ⟨d, cost, hd, hh, hf, hs⟩ | ⟨cost, hh, hf, hs⟩ |
    ⟨hh, hf, hs⟩
  · simp [hs, hh, settlePnl]
  · rw [hs]
    cases hp : m.held result.symbol with
    | none => rfl
    | some e => simp [settlePnl, hf]
  · simp [hs, hh, settlePnl, hd, hf]
  · simp [hs, hh, settlePnl]
  · simp [hs, hh, settlePnl]

theorem sidesMatch_settle {m : DrawdownMonitor} (h : m.SidesMatch) (result : ExecutionResult) :
    (settle m result).2.SidesMatch := by
  rcases settle_cases m result with ⟨_, _, _, hs⟩ | ⟨_, _, hs⟩ | ⟨_, _, _, _, _, hs⟩ | ⟨_, _, _, hs⟩ | ⟨_, _, hs⟩
  · rw [hs]; exact h.closePosition _ _
  · rw [hs]; exact h
  · rw [hs]; exact h.closePosition _ _
  · rw [hs]; exact h.adjustPositionCost _ _
  · rw [hs]; exact h.openPosition _ _ _

theorem keys_remember_subset (seen : Dict ℕ Unit) (resultId : ℕ) :
    (remember seen resultId).keys ⊆ resultId :: seen.keys := by
  intro id hid
  exact List.mem_cons.2 (Recent.mem_keys_of_put hid)

theorem portfolioValueUsd_applyExecutionResult (a : RiskAgent) (result : ExecutionResult) :
    (a.applyExecutionResult result).2.drawdown.state.portfolioValueUsd =
      a.drawdown.state.portfolioValueUsd +
        if (a.applyExecutionResult result).1 = .closed then result.realizedPnlUsd.getD 0 else 0 := by
  unfold applyExecutionResult
  split
  · simp
  · exact portfolioValueUsd_settle a.drawdown result

theorem sidesMatch_applyExecutionResult {a : RiskAgent} (h : a.drawdown.SidesMatch) (result : ExecutionResult) :
    (a.applyExecutionResult result).2.drawdown.SidesMatch := by
  unfold applyExecutionResult
  split
  · exact h
  · exact sidesMatch_settle h result

/-! ### Evaluation -/

def reject (p : TradeProposal ℚ) (assessmentId : ℕ) (snap : Snapshot) (reason : RejectionReason)
    (detail : RejectionDetail ℚ) : RiskAssessment ℚ where
  assessmentId := assessmentId
  proposalId := p.proposalId
  decision := .rejected
  rejectionReason := some reason
  rejectionDetail := some detail
  portfolioValueUsd := some snap.portfolioValue
  currentDailyLossPct := some snap.dailyLossPct
  openPositionsCount := snap.openCount
  originalProposal := p

/-- The verdict of check 6 on the opposite side: a close sized to the open position. -/
def approveClose (p : TradeProposal ℚ) (assessmentId : ℕ) (snap : Snapshot) (size : ℚ) : RiskAssessment ℚ where
  assessmentId := assessmentId
  proposalId := p.proposalId
  decision := .approved
  approvedSizeUsd := some size
  portfolioValueUsd := some snap.portfolioValue
  currentDailyLossPct := some snap.dailyLossPct
  openPositionsCount := snap.openCount
  originalProposal := p

/-- The verdict of check 10. -/
def approveOpen (p : TradeProposal ℚ) (assessmentId : ℕ) (snap : Snapshot) (decision : RiskDecision)
    (size stopPct : ℚ) : RiskAssessment ℚ where
  assessmentId := assessmentId
  proposalId := p.proposalId
  decision := decision
  approvedSizeUsd := some size
  approvedStopLossPct := some stopPct
  approvedTakeProfitPct := p.suggestedTakeProfitPct
  portfolioValueUsd := some snap.portfolioValue
  currentDailyLossPct := some snap.dailyLossPct
  openPositionsCount := snap.openCount + 1
  originalProposal := p

/-- `_signal_age_seconds` at clock reading `now`. -/
def signalAgeSeconds (p : TradeProposal ℚ) (now : ℚ) : ℚ :=
  match p.signal.technicalSignal with
  | none => 0
  | some tech => max 0 (now - tech.timestamp)

/-- Checks 7 to 10, for a symbol that is flat. -/
def evaluateFlat (risk : RiskSettings) (a : RiskAgent) (p : TradeProposal ℚ) (assessmentId : ℕ) (snap : Snapshot) :
    Evaluation :=
  if risk.maxOpenPositions ≤ snap.openCount then
    ⟨reject p assessmentId snap .maxOpenPositions (.maxOpenPositionsReached snap.openCount risk.maxOpenPositions),
      a, none⟩
  else
    let stopPct := PositionSizer.getStopLossPct p
    let approvedSize := (sizer risk).calculate snap.portfolioValue stopPct
    if approvedSize < risk.minOrderSizeUsd then
      ⟨reject p assessmentId snap .orderSizeTooSmall (.approvedSizeBelow approvedSize risk.minOrderSizeUsd), a, none⟩
    else
      let decision := if p.requestedSizeUsd ≤ approvedSize then RiskDecision.approved else .modified
      let size := if p.requestedSizeUsd ≤ approvedSize then p.requestedSizeUsd else approvedSize
      ⟨approveOpen p assessmentId snap decision size stopPct,
        { a with drawdown := a.drawdown.openPosition p.symbol size (some p.side) }, none⟩

/-- Checks 5 to 10: staleness, the position already held, and sizing. -/
def evaluatePosition (risk : RiskSettings) (a : RiskAgent) (p : TradeProposal ℚ) (assessmentId : ℕ)
    (snap : Snapshot) (ageTime : ℚ) : Evaluation :=
  let signalAge := signalAgeSeconds p ageTime
  if risk.maxDataStalenessSeconds < signalAge then
    ⟨reject p assessmentId snap .staleMarketData (.signalIsOld signalAge risk.maxDataStalenessSeconds), a, none⟩
  else
    match a.drawdown.positionSide p.symbol with
    | some heldSide =>
      if heldSide = p.side then
        ⟨reject p assessmentId snap .duplicateSignal (.alreadyOpen p.symbol heldSide), a, none⟩
      else
        ⟨approveClose p assessmentId snap ((a.drawdown.state.openPositions.get? p.symbol).getD 0), a, none⟩
    | none => evaluateFlat risk a p assessmentId snap

/-- `_emergency_halt`: trip the breaker and broadcast an override. -/
def emergencyHalt (a : RiskAgent) (reason : HaltReason ℚ) : RiskAgent := { a with breaker := a.breaker.trip reason }

/-- `_evaluate`, with the readings of the clock by the daily reset and by the staleness check. -/
def evaluate (risk : RiskSettings) (a : RiskAgent) (p : TradeProposal ℚ) (assessmentId : ℕ)
    (resetTime ageTime : ℚ) : Evaluation :=
  let snap : Snapshot :=
    ⟨a.drawdown.state.portfolioValueUsd, a.drawdown.state.dailyLossPct, a.drawdown.state.openPositionsCount⟩
  if a.breaker.isTripped then
    ⟨reject p assessmentId snap .circuitBreakerActive (.breakerTripped a.breaker.reason), a, none⟩
  else if a.tradingHalted then
    ⟨reject p assessmentId snap .circuitBreakerActive .tradingHalted, a, none⟩
  else
    let daily := a.drawdown.dailyLossLimitBreached resetTime
    let a' := { a with drawdown := daily.2 }
    let lossPct := a'.drawdown.state.dailyLossPct
    let drawdownPct := a'.drawdown.state.totalDrawdownPct
    if daily.1 then
      let reason := .dailyLossBreached lossPct risk.maxDailyLossPct
      ⟨reject p assessmentId snap .dailyLossLimit (.dailyLossExceeds lossPct), a'.emergencyHalt reason,
        some { reason := reason, triggeredBy := "risk_agent", dailyLossPct := some lossPct }⟩
    else if a'.drawdown.totalDrawdownLimitBreached then
      let reason := .totalDrawdownBreached drawdownPct risk.maxTotalDrawdownPct
      ⟨reject p assessmentId snap .totalDrawdownLimit (.totalDrawdownExceeds drawdownPct), a'.emergencyHalt reason,
        some { reason := reason, triggeredBy := "risk_agent", totalDrawdownPct := some drawdownPct }⟩
    else evaluatePosition risk a' p assessmentId snap ageTime

/-! ### What an evaluation does to the ledger -/

/-- The three things an evaluation can do: reject, approve a close, or approve an opening and reserve its size. -/
inductive Outcome (risk : RiskSettings) (a : RiskAgent) (p : TradeProposal ℚ) (ageTime : ℚ) (e : Evaluation) : Prop
  | rejected (hverdict : e.assessment.isApproved = false)
      (hledger : ∃ t, e.agent.drawdown = a.drawdown ∨ e.agent.drawdown = a.drawdown.maybeResetDaily t)
  | close (size : ℚ) (hheld : a.drawdown.held p.symbol = some (p.side.opp, size))
      (hverdict : e.assessment.decision = .approved) (hstop : e.assessment.approvedStopLossPct = none)
      (hsize : e.assessment.approvedSizeUsd = some size)
      (hledger : ∃ t, e.agent.drawdown = a.drawdown.maybeResetDaily t)
  | opening (size stopPct : ℚ) (hheld : a.drawdown.held p.symbol = none)
      (hfresh : signalAgeSeconds p ageTime ≤ risk.maxDataStalenessSeconds)
      (hverdict : e.assessment.isApproved = true) (hstop : e.assessment.approvedStopLossPct = some stopPct)
      (hsize : e.assessment.approvedSizeUsd = some size)
      (hledger : ∃ t, e.agent.drawdown = (a.drawdown.maybeResetDaily t).openPosition p.symbol size (some p.side))

private theorem evaluateFlat_outcome {risk : RiskSettings} {a a' : RiskAgent} {p : TradeProposal ℚ}
    {assessmentId : ℕ} {snap : Snapshot} {t ageTime : ℚ} (ha : a'.drawdown = a.drawdown.maybeResetDaily t)
    (hheld : a.drawdown.held p.symbol = none) (hfresh : signalAgeSeconds p ageTime ≤ risk.maxDataStalenessSeconds) :
    Outcome risk a p ageTime (evaluateFlat risk a' p assessmentId snap) := by
  unfold evaluateFlat
  split
  case isTrue => exact .rejected rfl ⟨t, .inr ha⟩
  case isFalse =>
    dsimp only
    split
    case isTrue => exact .rejected rfl ⟨t, .inr ha⟩
    case isFalse =>
      refine .opening _ _ hheld hfresh ?_ rfl rfl ⟨t, ?_⟩
      · simp only [RiskAssessment.isApproved, approveOpen]
        split <;> rfl
      · rw [ha]

private theorem evaluatePosition_outcome {risk : RiskSettings} {a a' : RiskAgent} {p : TradeProposal ℚ}
    {assessmentId : ℕ} {snap : Snapshot} {t ageTime : ℚ} (ha : a'.drawdown = a.drawdown.maybeResetDaily t) :
    Outcome risk a p ageTime (evaluatePosition risk a' p assessmentId snap ageTime) := by
  unfold evaluatePosition
  dsimp only
  have hheld : a'.drawdown.held p.symbol = a.drawdown.held p.symbol := by rw [ha]; simp
  have hside := a'.drawdown.positionSide_eq p.symbol
  rw [hheld] at hside
  split
  case isTrue => exact .rejected rfl ⟨t, .inr ha⟩
  case isFalse hfresh =>
    split
    case h_2 hnone =>
      have hflat : a.drawdown.held p.symbol = none := by
        rw [hnone] at hside
        exact Option.map_eq_none_iff.1 hside.symm
      exact evaluateFlat_outcome ha hflat (not_lt.1 hfresh)
    case h_1 heldSide hsome =>
      split
      case isTrue => exact .rejected rfl ⟨t, .inr ha⟩
      case isFalse hne =>
        rw [hsome] at hside
        obtain ⟨⟨d, size⟩, he, hd⟩ := Option.map_eq_some_iff.1 hside.symm
        obtain rfl : d = heldSide := hd
        have hopp := OrderSide.eq_opp_of_ne hne
        refine .close size (by rw [he, hopp]) rfl rfl ?_ ⟨t, ha⟩
        have hcost := a'.drawdown.get?_openPositions p.symbol
        rw [hheld, he] at hcost
        simp [approveClose, hcost]

theorem evaluate_outcome (risk : RiskSettings) (a : RiskAgent) (p : TradeProposal ℚ) (assessmentId : ℕ)
    (resetTime ageTime : ℚ) : Outcome risk a p ageTime (evaluate risk a p assessmentId resetTime ageTime) := by
  unfold evaluate
  dsimp only
  split
  case isTrue => exact .rejected rfl ⟨0, .inl rfl⟩
  case isFalse =>
    split
    case isTrue => exact .rejected rfl ⟨0, .inl rfl⟩
    case isFalse =>
      split
      case isTrue => exact .rejected rfl ⟨resetTime, .inr rfl⟩
      case isFalse =>
        split
        case isTrue => exact .rejected rfl ⟨resetTime, .inr rfl⟩
        case isFalse => exact evaluatePosition_outcome rfl

/-- An assessment is a close exactly when it was approved on a symbol held on the opposite side. -/
theorem isClose_evaluate_iff (risk : RiskSettings) (a : RiskAgent) (p : TradeProposal ℚ) (assessmentId : ℕ)
    (resetTime ageTime : ℚ) :
    (evaluate risk a p assessmentId resetTime ageTime).assessment.isClose = true ↔
      (evaluate risk a p assessmentId resetTime ageTime).assessment.isApproved = true ∧
        ∃ size, a.drawdown.held p.symbol = some (p.side.opp, size) := by
  cases evaluate_outcome risk a p assessmentId resetTime ageTime with
  | rejected hverdict hledger => simp [RiskAssessment.isClose, hverdict]
  | close size hheld hverdict hstop hsize hledger =>
    simp [RiskAssessment.isClose, RiskAssessment.isApproved, hverdict, hstop, hheld]
  | opening size stopPct hheld hfresh hverdict hstop hsize hledger =>
    simp [RiskAssessment.isClose, hstop, hheld]

/-- The verdict answers the proposal under the given id, and no result is remembered or forgotten. -/
structure Answers (a : RiskAgent) (p : TradeProposal ℚ) (assessmentId : ℕ) (e : Evaluation) : Prop where
  originalProposal : e.assessment.originalProposal = p
  proposalId : e.assessment.proposalId = p.proposalId
  assessmentId : e.assessment.assessmentId = assessmentId
  seenResults : e.agent.seenResults = a.seenResults

private theorem evaluatePosition_answers (risk : RiskSettings) (a : RiskAgent) (p : TradeProposal ℚ)
    (assessmentId : ℕ) (snap : Snapshot) (ageTime : ℚ) :
    Answers a p assessmentId (evaluatePosition risk a p assessmentId snap ageTime) := by
  unfold evaluatePosition evaluateFlat
  dsimp only
  split
  · exact ⟨rfl, rfl, rfl, rfl⟩
  · split
    · split <;> exact ⟨rfl, rfl, rfl, rfl⟩
    · split
      · exact ⟨rfl, rfl, rfl, rfl⟩
      · split <;> exact ⟨rfl, rfl, rfl, rfl⟩

theorem evaluate_answers (risk : RiskSettings) (a : RiskAgent) (p : TradeProposal ℚ) (assessmentId : ℕ)
    (resetTime ageTime : ℚ) : Answers a p assessmentId (evaluate risk a p assessmentId resetTime ageTime) := by
  unfold evaluate
  dsimp only
  split
  · exact ⟨rfl, rfl, rfl, rfl⟩
  · split
    · exact ⟨rfl, rfl, rfl, rfl⟩
    · split
      · exact ⟨rfl, rfl, rfl, rfl⟩
      · split
        · exact ⟨rfl, rfl, rfl, rfl⟩
        · obtain ⟨h1, h2, h3, h4⟩ := evaluatePosition_answers risk
            { a with drawdown := (a.drawdown.dailyLossLimitBreached resetTime).2 } p assessmentId _ ageTime
          exact ⟨h1, h2, h3, h4⟩

theorem portfolioValueUsd_evaluate (risk : RiskSettings) (a : RiskAgent) (p : TradeProposal ℚ) (assessmentId : ℕ)
    (resetTime ageTime : ℚ) :
    (evaluate risk a p assessmentId resetTime ageTime).agent.drawdown.state.portfolioValueUsd =
      a.drawdown.state.portfolioValueUsd := by
  cases evaluate_outcome risk a p assessmentId resetTime ageTime with
  | rejected _ hledger => obtain ⟨t, h | h⟩ := hledger <;> simp [h]
  | close _ _ _ _ _ hledger => obtain ⟨t, h⟩ := hledger; simp [h]
  | opening size _ hheld _ _ _ _ hledger =>
    obtain ⟨t, h⟩ := hledger
    have hflat : (a.drawdown.maybeResetDaily t).held p.symbol = none := by simpa using hheld
    rw [h, DrawdownMonitor.portfolioValueUsd_openPosition hflat]
    simp

theorem sidesMatch_evaluate {risk : RiskSettings} {a : RiskAgent} (h : a.drawdown.SidesMatch) (p : TradeProposal ℚ)
    (assessmentId : ℕ) (resetTime ageTime : ℚ) :
    (evaluate risk a p assessmentId resetTime ageTime).agent.drawdown.SidesMatch := by
  cases evaluate_outcome risk a p assessmentId resetTime ageTime with
  | rejected _ hledger =>
    obtain ⟨t, hl | hl⟩ := hledger
    · rw [hl]; exact h
    · rw [hl]; exact h.maybeResetDaily t
  | close _ _ _ _ _ hledger => obtain ⟨t, hl⟩ := hledger; rw [hl]; exact h.maybeResetDaily t
  | opening size _ _ _ _ _ _ hledger =>
    obtain ⟨t, hl⟩ := hledger
    rw [hl]
    exact (h.maybeResetDaily t).openPosition _ _ _

end RiskAgent

/-! ### Conservation of the ledger -/

/-- One call of the risk agent, or the arrival of a halt. -/
inductive RiskOp
  | evaluate (proposal : TradeProposal ℚ) (assessmentId : ℕ) (resetTime ageTime : ℚ)
  | apply (result : ExecutionResult)
  | halt

namespace RiskOp

def run (risk : RiskSettings) (a : RiskAgent) : RiskOp → RiskAgent
  | .evaluate p assessmentId resetTime ageTime => (a.evaluate risk p assessmentId resetTime ageTime).agent
  | .apply result => (a.applyExecutionResult result).2
  | .halt => { a with tradingHalted := true }

/-- Whether a call returned `closed`. -/
def closes (a : RiskAgent) : RiskOp → Bool
  | .apply result => (a.applyExecutionResult result).1 = .closed
  | _ => false

/-- The realised profit of a call's result, a missing one counting as zero. -/
def realizedPnl : RiskOp → ℚ
  | .apply result => result.realizedPnlUsd.getD 0
  | _ => 0

/-- The realised profit of exactly the results of a run that were answered with `closed`. -/
def closedPnl (risk : RiskSettings) : RiskAgent → List RiskOp → ℚ
  | _, [] => 0
  | a, op :: ops => (if op.closes a then op.realizedPnl else 0) + closedPnl risk (op.run risk a) ops

private theorem portfolioValueUsd_run (risk : RiskSettings) (a : RiskAgent) (op : RiskOp) :
    (op.run risk a).drawdown.state.portfolioValueUsd =
      a.drawdown.state.portfolioValueUsd + if op.closes a then op.realizedPnl else 0 := by
  cases op with
  | evaluate p assessmentId resetTime ageTime =>
    simp [run, closes, RiskAgent.portfolioValueUsd_evaluate]
  | apply result => simp [run, closes, realizedPnl, RiskAgent.portfolioValueUsd_applyExecutionResult]
  | halt => simp [run, closes]

private theorem sidesMatch_run {risk : RiskSettings} {a : RiskAgent} (h : a.drawdown.SidesMatch) (op : RiskOp) :
    (op.run risk a).drawdown.SidesMatch := by
  cases op with
  | evaluate p assessmentId resetTime ageTime => exact RiskAgent.sidesMatch_evaluate h p assessmentId resetTime ageTime
  | apply result => exact RiskAgent.sidesMatch_applyExecutionResult h result
  | halt => exact h

private theorem ledger_foldl (risk : RiskSettings) {a : RiskAgent} (h : a.drawdown.SidesMatch) (ops : List RiskOp) :
    (ops.foldl (run risk) a).drawdown.SidesMatch ∧
      (ops.foldl (run risk) a).drawdown.state.portfolioValueUsd =
        a.drawdown.state.portfolioValueUsd + closedPnl risk a ops := by
  induction ops generalizing a with
  | nil => exact ⟨h, by simp [closedPnl]⟩
  | cons op ops ih =>
    obtain ⟨hsides, hvalue⟩ := ih (sidesMatch_run h op)
    refine ⟨hsides, ?_⟩
    rw [List.foldl_cons, hvalue, portfolioValueUsd_run, closedPnl, add_assoc]

end RiskOp

/-- Conservation of the ledger: after any calls on a fresh monitor the portfolio value is the initial balance plus
the profit of the results answered with `closed`, the sides name the open positions, and no other call moves the
portfolio value. -/
theorem ledger_conservation (settings : Settings) (now : ℚ) (ops : List RiskOp) :
    let a := RiskAgent.init settings now
    let a' := ops.foldl (RiskOp.run settings.risk) a
    a'.drawdown.state.portfolioValueUsd =
        settings.paperInitialBalanceUsd + RiskOp.closedPnl settings.risk a ops ∧
      (∀ symbol, symbol ∈ a'.drawdown.state.positionSides.keys ↔ symbol ∈ a'.drawdown.state.openPositions.keys) ∧
      ∀ op, RiskOp.closes a' op = false →
        (op.run settings.risk a').drawdown.state.portfolioValueUsd = a'.drawdown.state.portfolioValueUsd := by
  dsimp only
  have hinit : (RiskAgent.init settings now).drawdown.SidesMatch := DrawdownMonitor.sidesMatch_init _ _ _ _
  obtain ⟨hsides, hvalue⟩ := RiskOp.ledger_foldl settings.risk hinit ops
  refine ⟨?_, hsides, ?_⟩
  · rw [hvalue, RiskAgent.init, DrawdownMonitor.portfolioValueUsd_init]
  · intro op hop
    rw [RiskOp.portfolioValueUsd_run, hop]
    simp

end MultiAgentTrading
