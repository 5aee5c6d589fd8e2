import MultiAgentTrading.Lib.Runs
import MultiAgentTrading.Risk.Redelivery
import Mathlib.Data.Fintype.EquivFin

/-!
# Whose reservation a failure releases

The ledger finds the entry that a failed order releases by symbol and side alone.  `OwnedLedger` runs the risk agent
with a record of the approved proposals that have had no result and of the proposal that each entry comes from;
`failures_release_own` is the condition on a run under which every failure releases the reservation of its own proposal
or nothing.
-/

namespace MultiAgentTrading

open Runs

/-- The cash, the open positions and their sides are the same. -/
structure DrawdownMonitor.SameLedger (m m' : DrawdownMonitor) : Prop where
  cash : m'.state.currentBalanceUsd = m.state.currentBalanceUsd
  openPositions : m'.state.openPositions = m.state.openPositions
  positionSides : m'.state.positionSides = m.state.positionSides

theorem DrawdownMonitor.SameLedger.refl (m : DrawdownMonitor) : m.SameLedger m := ⟨rfl, rfl, rfl⟩

theorem DrawdownMonitor.sameLedger_maybeResetDaily (m : DrawdownMonitor) (now : ℚ) :
    m.SameLedger (m.maybeResetDaily now) := by
  unfold DrawdownMonitor.maybeResetDaily
  split <;> exact ⟨rfl, rfl, rfl⟩

/-- An order that was approved, or that a result answers. -/
@[ext] structure Approval where
  proposalId : ℕ
  symbol : String
  side : OrderSide
  deriving DecidableEq

/-- Where an entry of the ledger comes from: it was reserved when a proposal was approved, or it is a fill. -/
inductive EntryOwner
  | reserved (proposalId : ℕ)
  | filled (proposalId : ℕ)
  deriving DecidableEq

def TradeProposal.approval (p : TradeProposal ℚ) : Approval := ⟨p.proposalId, p.symbol, p.side⟩

def ExecutionResult.approval (result : ExecutionResult) : Approval := ⟨result.proposalId, result.symbol, result.side⟩

/-- The risk agent, the approved proposals without a result, and the origin of each entry. -/
structure OwnedLedger where
  agent : RiskAgent
  unanswered : List Approval := []
  owners : Dict String EntryOwner := .empty

namespace OwnedLedger

def init (settings : Settings) (now : ℚ) : OwnedLedger where
  agent := .init settings now

/-- The approval of an opening, which reserves its size. -/
def reserves (e : Evaluation) : Bool := e.assessment.isApproved && !e.assessment.isClose

/-- The origin of each entry after a result. -/
def ownersAfter (owners : Dict String EntryOwner) (result : ExecutionResult) : ApplyAction → Dict String EntryOwner
  | .duplicate => owners
  | .ignored => owners
  | .released => owners.erase result.symbol
  | .closed => owners.erase result.symbol
  | .reconciled => owners.set result.symbol (.filled result.proposalId)
  | .adopted => owners.set result.symbol (.filled result.proposalId)

/-- The approvals without a result after a result. -/
def answer (unanswered : List Approval) (result : ExecutionResult) (action : ApplyAction) : List Approval :=
  if action = .duplicate then unanswered else unanswered.filter fun q => q ≠ result.approval

def step (risk : RiskSettings) (s : OwnedLedger) : RiskOp → Option OwnedLedger
  | .evaluate p assessmentId resetTime ageTime =>
    let e := s.agent.evaluate risk p assessmentId resetTime ageTime
    some
      { agent := e.agent
        unanswered := if e.assessment.isApproved then p.approval :: s.unanswered else s.unanswered
        owners := if reserves e then s.owners.set p.symbol (.reserved p.proposalId) else s.owners }
  | .apply result =>
    let applied := s.agent.applyExecutionResult result
    some
      { agent := applied.2
        unanswered := answer s.unanswered result applied.1
        owners := ownersAfter s.owners result applied.1 }
  | .halt => some { s with agent := { s.agent with tradingHalted := true } }

/-- The record does not change what the agent does. -/
theorem agent_step {risk : RiskSettings} {s s' : OwnedLedger} {op : RiskOp} (h : step risk s op = some s') :
    s'.agent = op.run risk s.agent := by
  cases op <;> cases h <;> rfl

/-- No approved proposal on this symbol and side is without a result, except for the given one. -/
def AloneOn (s : OwnedLedger) (approval : Approval) : Prop :=
  ∀ q ∈ s.unanswered, q.symbol = approval.symbol → q.side = approval.side → q.proposalId = approval.proposalId

/-- An entry is made on a symbol and side only when no other approved proposal on them is without a result, and a
failure on the side of an entry answers an approved proposal that has had none. -/
def Orderly (risk : RiskSettings) (s : OwnedLedger) : RiskOp → Prop
  | .evaluate p assessmentId resetTime ageTime =>
    reserves (s.agent.evaluate risk p assessmentId resetTime ageTime) = true → s.AloneOn p.approval
  | .apply result =>
    result.resultId ∉ s.agent.seenResults.keys →
      (RiskAgent.isFill result = true →
        s.agent.drawdown.positionSide result.symbol ≠ some result.side.opp → s.AloneOn result.approval) ∧
      (RiskAgent.isFill result = false →
        s.agent.drawdown.positionSide result.symbol = some result.side → result.approval ∈ s.unanswered)
  | .halt => True

instance AloneOn.decidable (s : OwnedLedger) (approval : Approval) : Decidable (s.AloneOn approval) :=
  inferInstanceAs (Decidable (∀ q ∈ s.unanswered, _ → _ → _))

instance Orderly.decidable (risk : RiskSettings) (s : OwnedLedger) : (op : RiskOp) → Decidable (Orderly risk s op)
  | .evaluate _ _ _ _ => inferInstanceAs (Decidable (_ → _))
  | .apply _ => inferInstanceAs (Decidable (_ → _ ∧ _))
  | .halt => isTrue trivial

/-- A result that is no fill changes the ledger only if it releases the reservation of its own proposal. -/
def ReleasesOwn (s : OwnedLedger) : RiskOp → Prop
  | .evaluate _ _ _ _ => True
  | .apply result =>
    RiskAgent.isFill result = false →
      ¬s.agent.drawdown.SameLedger (s.agent.applyExecutionResult result).2.drawdown →
        s.owners.get? result.symbol = some (.reserved result.proposalId)
  | .halt => True

/-- The proposals without a result that are on the side of an entry made its reservation. -/
def Owned (s : OwnedLedger) : Prop :=
  ∀ q ∈ s.unanswered, ∀ cost, s.agent.drawdown.held q.symbol = some (q.side, cost) →
    s.owners.get? q.symbol = some (.reserved q.proposalId)

theorem owned_init (settings : Settings) (now : ℚ) : (init settings now).Owned := fun _ hq => absurd hq List.not_mem_nil

private theorem owned_evaluate {risk : RiskSettings} {s s' : OwnedLedger} {p : TradeProposal ℚ} {assessmentId : ℕ}
    {resetTime ageTime : ℚ} (h : s.Owned) (horderly : Orderly risk s (.evaluate p assessmentId resetTime ageTime))
    (hstep : step risk s (.evaluate p assessmentId resetTime ageTime) = some s') : s'.Owned := by
  replace horderly : reserves (s.agent.evaluate risk p assessmentId resetTime ageTime) = true →
    s.AloneOn p.approval := horderly
  cases hstep
  have houtcome := RiskAgent.evaluate_outcome risk s.agent p assessmentId resetTime ageTime
  unfold Owned
  dsimp only
  generalize s.agent.evaluate risk p assessmentId resetTime ageTime = e at houtcome horderly
  cases houtcome with
  | rejected hverdict hledger =>
    have hheld : ∀ symbol, e.agent.drawdown.held symbol = s.agent.drawdown.held symbol := by
      obtain ⟨t, ht | ht⟩ := hledger
      · intro symbol; rw [ht]
      · intro symbol; rw [ht, DrawdownMonitor.held_maybeResetDaily]
    have hreserves : reserves e = false := by rw [reserves, hverdict, Bool.false_and]
    rw [hverdict, hreserves]
    intro q hq cost hcost
    rw [hheld] at hcost
    exact h q hq cost hcost
  | close size hheld hverdict hstop hsize hledger =>
    obtain ⟨t, ht⟩ := hledger
    have happroved : e.assessment.isApproved = true := by simp [RiskAssessment.isApproved, hverdict]
    have hreserves : reserves e = false := by simp [reserves, RiskAssessment.isClose, happroved, hstop]
    rw [happroved, hreserves, if_pos rfl]
    intro q hq cost hcost
    rw [ht, DrawdownMonitor.held_maybeResetDaily] at hcost
    rcases List.mem_cons.1 hq with rfl | hq
    · -- the entry is on the other side
      have hsides : p.side.opp = p.side := congrArg Prod.fst (Option.some.inj (hheld.symm.trans hcost))
      exact absurd hsides (OrderSide.opp_ne p.side)
    · exact h q hq cost hcost
  | opening size stopPct hheld hfresh hverdict hstop hsize hledger =>
    obtain ⟨t, ht⟩ := hledger
    have hreserves : reserves e = true := by simp [reserves, RiskAssessment.isClose, hverdict, hstop]
    have halone := horderly hreserves
    rw [hverdict, hreserves, if_pos rfl, if_pos rfl]
    intro q hq cost hcost
    rw [ht, DrawdownMonitor.held_openPosition, DrawdownMonitor.held_maybeResetDaily] at hcost
    by_cases hsymbol : q.symbol = p.symbol
    · rw [if_pos hsymbol] at hcost
      have hside : p.side = q.side := congrArg Prod.fst (Option.some.inj hcost)
      have hid : q.proposalId = p.proposalId := by
        rcases List.mem_cons.1 hq with rfl | hq
        · rfl
        · exact halone q hq hsymbol hside.symm
      rw [hsymbol, Dict.get?_set_self, hid]
    · rw [if_neg hsymbol] at hcost
      rw [Dict.get?_set_of_ne hsymbol]
      rcases List.mem_cons.1 hq with rfl | hq
      · exact absurd rfl hsymbol
      · exact h q hq cost hcost

private theorem get?_ownersAfter_of_ne {symbol : String} {result : ExecutionResult} (h : symbol ≠ result.symbol)
    {owners : Dict String EntryOwner} {action : ApplyAction} :
    (ownersAfter owners result action).get? symbol = owners.get? symbol := by
  cases action with
  | duplicate => rfl
  | ignored => rfl
  | released => exact Dict.get?_erase_of_ne h _
  | closed => exact Dict.get?_erase_of_ne h _
  | reconciled => exact Dict.get?_set_of_ne h _ _
  | adopted => exact Dict.get?_set_of_ne h _ _

/-- An entry on the symbol of a result, after it: the result was ignored and the entry is the old one, or the result is
the fill that made it. -/
private theorem entry_after_settle {m : DrawdownMonitor} {result : ExecutionResult} {side : OrderSide} {cost : ℚ}
    (h : (RiskAgent.settle m result).2.held result.symbol = some (side, cost)) :
    ((RiskAgent.settle m result).1 = .ignored ∧ m.held result.symbol = some (side, cost)) ∨
      (RiskAgent.isFill result = true ∧ m.positionSide result.symbol ≠ some result.side.opp ∧ side = result.side) := by
  have hpositionSide := m.positionSide_eq result.symbol
  rcases RiskAgent.settle_cases m result with ⟨c, hheld, hf, hs⟩ | ⟨hside, hf, hs⟩ | ⟨d, c, hd, hheld, hf, hs⟩ |
    ⟨c, hheld, hf, hs⟩ | ⟨hheld, hf, hs⟩
  · -- released
    rw [hs, DrawdownMonitor.held_closePosition, if_pos rfl] at h
    cases h
  · rw [hs] at h ⊢
    exact .inl ⟨rfl, h⟩
  · -- closed
    rw [hs, DrawdownMonitor.held_closePosition, if_pos rfl] at h
    cases h
  · have hmade : side = result.side := by
      rw [hs, DrawdownMonitor.held_adjustPositionCost, if_pos rfl, hheld] at h
      cases h
      rfl
    exact .inr ⟨hf, by simp [hpositionSide, hheld], hmade⟩
  · have hmade : side = result.side := by
      rw [hs, DrawdownMonitor.held_openPosition, if_pos rfl] at h
      cases h
      rfl
    exact .inr ⟨hf, by simp [hpositionSide, hheld], hmade⟩

/-- What a result that has not been seen does to the record. -/
private theorem owned_settle {s : OwnedLedger} {result : ExecutionResult} (h : s.Owned)
    (hfill : RiskAgent.isFill result = true →
      s.agent.drawdown.positionSide result.symbol ≠ some result.side.opp → s.AloneOn result.approval)
    {seen : Dict ℕ Unit} :
    Owned
      { agent := { s.agent with
          drawdown := (RiskAgent.settle s.agent.drawdown result).2
          seenResults := seen }
        unanswered := s.unanswered.filter fun q => q ≠ result.approval
        owners := ownersAfter s.owners result (RiskAgent.settle s.agent.drawdown result).1 } := by
  intro q hq cost hcost
  dsimp only at hq hcost ⊢
  obtain ⟨hmem, hne⟩ := List.mem_filter.1 hq
  have hne' : q ≠ result.approval := of_decide_eq_true hne
  by_cases hsymbol : q.symbol = result.symbol
  · rw [hsymbol] at hcost
    rcases entry_after_settle hcost with ⟨hignored, hentry⟩ | ⟨hisFill, hside, hqside⟩
    · rw [hignored]
      exact h q hmem cost (by rw [hsymbol, hentry])
    · -- no other proposal was waiting on the symbol and side of a fill
      exact absurd (Approval.ext (hfill hisFill hside q hmem hsymbol hqside) hsymbol hqside) hne'
  · rw [RiskAgent.held_settle, if_neg hsymbol] at hcost
    rw [get?_ownersAfter_of_ne hsymbol]
    exact h q hmem cost hcost

theorem owned_step {risk : RiskSettings} {s s' : OwnedLedger} {op : RiskOp} (h : s.Owned)
    (horderly : Orderly risk s op) (hstep : step risk s op = some s') : s'.Owned := by
  cases op with
  | evaluate p assessmentId resetTime ageTime => exact owned_evaluate h horderly hstep
  | apply result =>
    cases hstep
    by_cases hseen : result.resultId ∈ s.agent.seenResults.keys
    · have hdup := RiskAgent.duplicate_iff.2 hseen
      rw [RiskAgent.applyExecutionResult_of_duplicate hdup]
      exact h
    · have hnew := RiskAgent.settle_ne_duplicate s.agent.drawdown result
      have hcontains : ¬s.agent.seenResults.contains result.resultId = true := mt Dict.contains_iff.1 hseen
      unfold RiskAgent.applyExecutionResult
      rw [if_neg hcontains]
      dsimp only
      rw [answer, if_neg hnew]
      exact owned_settle h (horderly hseen).1
  | halt =>
    cases hstep
    exact h

/-- A failure that is on the side of no entry, or answers an approved proposal, releases its own reservation. -/
private theorem releasesOwn_failure {s : OwnedLedger} (h : s.Owned) {result : ExecutionResult}
    (hanswers : result.resultId ∉ s.agent.seenResults.keys → RiskAgent.isFill result = false →
      s.agent.drawdown.positionSide result.symbol = some result.side → result.approval ∈ s.unanswered) :
    s.ReleasesOwn (.apply result) := by
  intro hfail hchanged
  by_cases hseen : result.resultId ∈ s.agent.seenResults.keys
  · rw [RiskAgent.applyExecutionResult_of_duplicate (RiskAgent.duplicate_iff.2 hseen)] at hchanged
    exact absurd (DrawdownMonitor.SameLedger.refl _) hchanged
  · have hpositionSide := s.agent.drawdown.positionSide_eq result.symbol
    have hcontains : ¬s.agent.seenResults.contains result.resultId = true := mt Dict.contains_iff.1 hseen
    unfold RiskAgent.applyExecutionResult at hchanged
    rw [if_neg hcontains] at hchanged
    rcases RiskAgent.settle_cases s.agent.drawdown result with ⟨c, hheld, -, -⟩ | ⟨-, -, hs⟩ | ⟨_, _, _, _, hf, _⟩ |
      ⟨_, _, hf, _⟩ | ⟨_, hf, _⟩
    · have happroval := hanswers hseen hfail (by simp [hpositionSide, hheld])
      exact h _ happroval c hheld
    · rw [hs] at hchanged
      exact absurd (DrawdownMonitor.SameLedger.refl _) hchanged
    · exact absurd hfail (by simp [hf])
    · exact absurd hfail (by simp [hf])
    · exact absurd hfail (by simp [hf])

/-- In an orderly state a failure releases the reservation of its own proposal or nothing. -/
theorem releasesOwn_of_owned {risk : RiskSettings} {s : OwnedLedger} {op : RiskOp} (h : s.Owned)
    (horderly : Orderly risk s op) : s.ReleasesOwn op := by
  cases op with
  | evaluate p assessmentId resetTime ageTime => trivial
  | apply result => exact releasesOwn_failure h fun hseen => (horderly hseen).2
  | halt => trivial

/-- The order of an approved proposal has failed. -/
def failureOf (approval : Approval) (resultId : ℕ) : ExecutionResult where
  resultId := resultId
  proposalId := approval.proposalId
  assessmentId := approval.proposalId
  symbol := approval.symbol
  side := approval.side
  orderType := .market
  status := .rejected
  requestedQuantity := 0
  isPaper := true

/-- The record is as it should be exactly if no failure of an approved proposal can release what is not its own. -/
theorem owned_iff {s : OwnedLedger} :
    s.Owned ↔ ∀ result, result.approval ∈ s.unanswered → s.ReleasesOwn (.apply result) := by
  constructor
  · intro h result hanswers
    exact releasesOwn_failure h fun _ _ _ => hanswers
  · intro h q hq cost hheld
    obtain ⟨resultId, hnew⟩ := Infinite.exists_notMem_finset s.agent.seenResults.keys.toFinset
    rw [List.mem_toFinset] at hnew
    refine h (failureOf q resultId) hq rfl fun hsame => ?_
    have hcontains : ¬s.agent.seenResults.contains (failureOf q resultId).resultId = true :=
      mt Dict.contains_iff.1 hnew
    have hpositionSide := s.agent.drawdown.positionSide_eq q.symbol
    have hsettled : (s.agent.applyExecutionResult (failureOf q resultId)).2.drawdown =
        s.agent.drawdown.closePosition q.symbol 0 := by
      have hside : s.agent.drawdown.positionSide q.symbol = some q.side := by rw [hpositionSide, hheld]; rfl
      rw [RiskAgent.applyExecutionResult, if_neg hcontains]
      exact congrArg Prod.snd (if_pos hside)
    have hflat : (s.agent.drawdown.closePosition q.symbol 0).held q.symbol = none := by
      rw [DrawdownMonitor.held_closePosition, if_pos rfl]
    have hcost := s.agent.drawdown.get?_openPositions q.symbol
    rw [hheld, ← hsame.openPositions, hsettled, DrawdownMonitor.held_eq_none_iff.1 hflat] at hcost
    cases hcost

end OwnedLedger

/-- In a run in which every entry is made while no other approved proposal on its symbol and side is without a result,
and every failure on the side of an entry answers an approved proposal, each failure releases the reservation of its own
proposal or nothing. -/
theorem failures_release_own (settings : Settings) (now : ℚ) (ops : List RiskOp)
    (h : Along (OwnedLedger.step settings.risk) (OwnedLedger.Orderly settings.risk) (.init settings now) ops) :
    Along (OwnedLedger.step settings.risk) OwnedLedger.ReleasesOwn (.init settings now) ops :=
  Along.of_invariant OwnedLedger.Owned (fun _ _ _ hs hc hstep => OwnedLedger.owned_step hs hc hstep)
    (fun _ _ hs hc => OwnedLedger.releasesOwn_of_owned hs hc) (OwnedLedger.owned_init settings now) h

/-! ### Failures that release their own reservation, and one that does not -/

namespace OwnedLedger

/-- An order of two hundred dollars, evaluated when its signal is given. -/
def evaluateOrder (proposalId : ℕ) (side : OrderSide) : RiskOp :=
  .evaluate (plainProposal proposalId "BTC/USDT" side 200 two_hundred_pos 100 0 .empty) proposalId 0 0

/-- The fill of an order at one hundred dollars. -/
def filledOrder (proposalId : ℕ) (side : OrderSide) : ExecutionResult where
  resultId := proposalId
  proposalId := proposalId
  assessmentId := proposalId
  symbol := "BTC/USDT"
  side := side
  orderType := .market
  status := .filled
  requestedQuantity := 2
  filledQuantity := 2
  totalCostUsd := some 200
  feeUsd := some 0
  realizedPnlUsd := some 0
  isPaper := true

def failedOrder (proposalId : ℕ) (side : OrderSide) : ExecutionResult :=
  failureOf ⟨proposalId, "BTC/USDT", side⟩ (10 + proposalId)

/-- A buy fails and releases its reservation, another one fills, and the sell that was approved as its close fails. -/
theorem failures_release_own_example :
    let ops : List RiskOp :=
      [evaluateOrder 1 .buy, .apply (failedOrder 1 .buy), evaluateOrder 2 .buy, .apply (filledOrder 2 .buy),
        evaluateOrder 3 .sell, .apply (failedOrder 3 .sell)]
    Along (step defaultSettings.risk) ReleasesOwn (init defaultSettings 0) ops :=
  failures_release_own defaultSettings 0 _ (by decide +kernel)

/-- A buy fills, two sells are approved as its close, the first of them fills, and a third sell is approved as an
opening. -/
def twoCloses : List RiskOp :=
  [evaluateOrder 1 .buy, .apply (filledOrder 1 .buy), evaluateOrder 2 .sell, evaluateOrder 3 .sell,
    .apply (filledOrder 2 .sell), evaluateOrder 4 .sell]

/-- Then the failure of the second sell releases what the third one reserved. -/
theorem failed_close_releases_other :
    ∃ s, exec (step defaultSettings.risk) (init defaultSettings 0) twoCloses = some s ∧
      s.owners.get? "BTC/USDT" = some (.reserved 4) ∧ ¬s.ReleasesOwn (.apply (failedOrder 3 .sell)) := by
  have hrun : (exec (step defaultSettings.risk) (init defaultSettings 0) twoCloses).any
      (fun s => s.owners.get? "BTC/USDT" = some (.reserved 4) ∧
        (s.agent.applyExecutionResult (failedOrder 3 .sell)).2.drawdown.state.openPositions ≠
          s.agent.drawdown.state.openPositions) = true := by decide +kernel
  obtain ⟨s, hs, hstate⟩ := (Option.any_eq_true _ _).1 hrun
  obtain ⟨howner, hchanged⟩ := of_decide_eq_true hstate
  refine ⟨s, hs, howner, fun hreleases => ?_⟩
  have hthree := hreleases (by decide +kernel) fun hsame => hchanged hsame.openPositions
  cases howner.symm.trans hthree

end OwnedLedger

end MultiAgentTrading
