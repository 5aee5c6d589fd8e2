import MultiAgentTrading.Execution.PaperBroker
import Mathlib.Algebra.Order.Group.Unbundled.Abs

/-!
# Broker calls as tasks

`place_order` suspends at its latency sleep, and every change of the portfolio is followed by a save of two writes to
the key-value store.  A call is a `BrokerTask`: what it still has to do; `resume` runs it to its next await.  The
account keeps, next to the broker and the store, the fills in the order they changed the broker.  `Effect` lists what
one piece of a call can do to the account, and `resume_effect` and `startClose_effect` say that this is all.
-/

namespace MultiAgentTrading

open PaperBroker

/-- A fill, with the position it opened or took out and the result reported for it. -/
inductive FillEvent
  | opened (position : PaperPosition) (result : ExecutionResult)
  | closed (position : PaperPosition) (fill : ClosingFill) (result : ExecutionResult)

namespace FillEvent

def position : FillEvent → PaperPosition
  | .opened position _ => position
  | .closed position _ _ => position

def result : FillEvent → ExecutionResult
  | .opened _ result => result
  | .closed _ _ result => result

def symbol (f : FillEvent) : String := f.result.symbol

def isClose : FillEvent → Bool
  | .opened _ _ => false
  | .closed _ _ _ => true

/-- The profit reported for a fill, a missing one counting as zero. -/
def realizedPnl (f : FillEvent) : ℚ := f.result.realizedPnlUsd.getD 0

end FillEvent

/-- The two keys of the persisted portfolio. -/
structure PersistedPortfolio where
  cash : Option ℚ := none
  positions : Option (Dict String PaperPosition) := none

/-- The paper account: the broker, what is persisted, whether the bus is connected, and the fills so far. -/
structure PaperAccount where
  broker : PaperBroker
  store : PersistedPortfolio := {}
  connected : Bool := false
  fills : List FillEvent := []

/-- The write of a save that is under way, with the value it writes. -/
inductive SaveStage
  | cash (value : ℚ)
  | positions (value : Dict String PaperPosition)

/-- What a call does once its save has ended: a close by `place_order` is remembered only then. -/
inductive AfterSave
  | reply (result : ExecutionResult)
  | rememberAndReply (proposalId : ℕ) (result : ExecutionResult)

namespace AfterSave

def result : AfterSave → ExecutionResult
  | .reply result => result
  | .rememberAndReply _ result => result

/-- The proposal that is remembered once the save has ended. -/
def toRemember : AfterSave → List ℕ
  | .reply _ => []
  | .rememberAndReply proposalId _ => [proposalId]

end AfterSave

/-- A call of the broker: asleep before its fill, saving the portfolio, or ended. -/
inductive BrokerTask
  | sleeping (assessment : RiskAssessment ℚ) (refPrice : RefPrice)
  | saving (stage : SaveStage) (next : AfterSave)
  | done (outcome : Except BrokerError (Option ExecutionResult))

/-- What ends an await: the latency sleep, with the random choice made after it, or a write to the store. -/
inductive Wakeup
  | latencyOver (choice : FillChoice) (resultId : ℕ)
  | saved (ok : Bool)

namespace PaperAccount

def finish (w : PaperAccount) : AfterSave → PaperAccount × BrokerTask
  | .reply result => (w, .done (.ok (some result)))
  | .rememberAndReply proposalId result =>
    ({ w with broker := w.broker.remember proposalId result }, .done (.ok (some result)))

/-- `_save_portfolio_state`: without a connected bus there is nothing to wait for. -/
def startSave (w : PaperAccount) (next : AfterSave) : PaperAccount × BrokerTask :=
  if w.connected then (w, .saving (.cash w.broker.cashBalance) next) else w.finish next

def startOrder (settings : Settings) (w : PaperAccount) (a : RiskAssessment ℚ) : BrokerTask :=
  match w.broker.acceptOrder settings a with
  | .error e => .done (.error e)
  | .ok (.inl cached) => .done (.ok (some cached))
  | .ok (.inr refPrice) => .sleeping a refPrice

/-- The account after a close has taken the position out. -/
def recordClose (w : PaperAccount) (c : Closed) : PaperAccount :=
  { w with broker := c.broker, fills := w.fills ++ [.closed c.position c.fill c.result] }

/-- The account after an order has opened a position. -/
def recordOpen (w : PaperAccount) (broker : PaperBroker) (position : PaperPosition) (result : ExecutionResult) :
    PaperAccount :=
  { w with broker := broker, fills := w.fills ++ [.opened position result] }

def startClose (w : PaperAccount) (symbol : String) (price : Option ℚ) (proposalId assessmentId resultId : ℕ) :
    PaperAccount × BrokerTask :=
  match w.broker.closePosition symbol price proposalId assessmentId resultId with
  | none => (w, .done (.ok none))
  | some c => (w.recordClose c).startSave (.reply c.result)

/-- Run a call from the await that has ended to its next one. -/
def resume (w : PaperAccount) : BrokerTask → Wakeup → Option (PaperAccount × BrokerTask)
  | .sleeping a refPrice, .latencyOver choice resultId =>
    match w.broker.fillOrder a refPrice choice resultId with
    | .error e => some (w, .done (.error e))
    | .ok (.opened broker position result) =>
      some ((w.recordOpen broker position result).startSave (.reply result))
    | .ok (.closed c) => some ((w.recordClose c).startSave (.rememberAndReply a.proposalId c.result))
  | .saving (.cash value) next, .saved true =>
    some ({ w with store := { w.store with cash := some value } }, .saving (.positions w.broker.positions) next)
  | .saving (.positions value) next, .saved true =>
    some (finish { w with store := { w.store with positions := some value } } next)
  -- a write that fails ends the save; its exception is swallowed
  | .saving _ next, .saved false => some (w.finish next)
  | _, _ => none

/-! ### What a piece of a call can do -/

/-- The broker's books are untouched: only the order cache may have changed. -/
structure SameBooks (w w' : PaperAccount) : Prop where
  cash : w'.broker.cashBalance = w.broker.cashBalance
  positions : w'.broker.positions = w.broker.positions
  fills : w'.fills = w.fills

theorem SameBooks.refl (w : PaperAccount) : SameBooks w w := ⟨rfl, rfl, rfl⟩

/-- One piece of a call leaves the books, opens a position on a flat symbol, or closes one. -/
inductive Effect (w w' : PaperAccount) : Prop
  | same (h : SameBooks w w')
  | opened (position : PaperPosition) (result : ExecutionResult) (hwf : WellFormed position)
      (hflat : w.broker.positions.get? position.symbol = none)
      (hsymbol : result.symbol = position.symbol) (hside : result.side = position.side)
      (hqty : result.filledQuantity = position.quantity) (hpnl : result.realizedPnlUsd = none)
      (hcash : w'.broker.cashBalance = w.broker.cashBalance - position.costUsd)
      (hpositions : w'.broker.positions = w.broker.positions.set position.symbol position)
      (hfills : w'.fills = w.fills ++ [.opened position result])
  | closed (position : PaperPosition) (fill : ClosingFill) (result : ExecutionResult)
      (hheld : w.broker.positions.get? result.symbol = some position)
      (hside : result.side = position.side.opp) (hqty : result.filledQuantity = position.quantity)
      (hpnl : result.realizedPnlUsd = some fill.realized)
      (hround : |fill.cashReturned - position.costUsd - fill.realized| ≤ 5 / 1000)
      (hcash : w'.broker.cashBalance = w.broker.cashBalance + fill.cashReturned)
      (hpositions : w'.broker.positions = w.broker.positions.erase result.symbol)
      (hfills : w'.fills = w.fills ++ [.closed position fill result])

private theorem Effect.of_sameBooks {w w' w'' : PaperAccount} (h : Effect w w') (hs : SameBooks w' w'') :
    Effect w w'' := by
  cases h with
  | same h => exact .same ⟨hs.cash.trans h.cash, hs.positions.trans h.positions, hs.fills.trans h.fills⟩
  | opened position result hwf hflat hsymbol hside hqty hpnl hcash hpositions hfills =>
    exact .opened position result hwf hflat hsymbol hside hqty hpnl (hs.cash.trans hcash)
      (hs.positions.trans hpositions) (hs.fills.trans hfills)
  | closed position fill result hheld hside hqty hpnl hround hcash hpositions hfills =>
    exact .closed position fill result hheld hside hqty hpnl hround (hs.cash.trans hcash)
      (hs.positions.trans hpositions) (hs.fills.trans hfills)

private theorem sameBooks_finish (w : PaperAccount) (next : AfterSave) : SameBooks w (w.finish next).1 := by
  cases next with
  | reply result => exact .refl w
  | rememberAndReply proposalId result => exact ⟨rfl, rfl, rfl⟩

theorem sameBooks_startSave (w : PaperAccount) (next : AfterSave) : SameBooks w (w.startSave next).1 := by
  unfold startSave
  split
  · exact .refl w
  · exact sameBooks_finish w next

/-- A save that has ended replies with its result, remembering it if the call is to. -/
theorem finish_spec (w : PaperAccount) (next : AfterSave) :
    (w.finish next).2 = .done (.ok (some next.result)) ∧
      (w.finish next).1.broker.filledOrders.keys ⊆ next.toRemember ++ w.broker.filledOrders.keys := by
  cases next with
  | reply result => exact ⟨rfl, by simp [finish, AfterSave.toRemember]⟩
  | rememberAndReply proposalId result => exact ⟨rfl, keys_remember_subset _ _ _⟩

/-- A save that has started is under way, or there was nothing to wait for and it has ended. -/
theorem startSave_cases (w : PaperAccount) (next : AfterSave) :
    (∃ stage, w.startSave next = (w, .saving stage next)) ∨ w.startSave next = w.finish next := by
  unfold startSave
  split
  · exact .inl ⟨_, rfl⟩
  · exact .inr rfl

/-- A save that is resumed goes on to its second write or ends; the books stay as they are. -/
theorem resume_saving {w w' : PaperAccount} {stage : SaveStage} {next : AfterSave} {ok : Bool} {task' : BrokerTask}
    (h : w.resume (.saving stage next) (.saved ok) = some (w', task')) :
    SameBooks w w' ∧
      ((∃ stage', task' = .saving stage' next ∧ w'.broker = w.broker) ∨
        (task' = .done (.ok (some next.result)) ∧
          w'.broker.filledOrders.keys ⊆ next.toRemember ++ w.broker.filledOrders.keys)) := by
  cases ok with
  | false =>
    have hfinish : w.finish next = (w', task') := by
      cases stage <;> exact Option.some.inj h
    obtain ⟨hdone, hkeys⟩ := finish_spec w next
    have hbooks := sameBooks_finish w next
    rw [hfinish] at hdone hkeys hbooks
    exact ⟨hbooks, .inr ⟨hdone, hkeys⟩⟩
  | true =>
    cases stage with
    | cash value =>
      cases h
      exact ⟨⟨rfl, rfl, rfl⟩, .inl ⟨_, rfl, rfl⟩⟩
    | positions value =>
      have hfinish := Option.some.inj h
      obtain ⟨hdone, hkeys⟩ := finish_spec { w with store := { w.store with positions := some value } } next
      obtain ⟨hcash, hpositions, hfills⟩ :=
        sameBooks_finish { w with store := { w.store with positions := some value } } next
      rw [hfinish] at hdone hkeys hcash hpositions hfills
      exact ⟨⟨hcash, hpositions, hfills⟩, .inr ⟨hdone, hkeys⟩⟩

theorem recordClose_effect {w : PaperAccount} {symbol : String} {refPrice : ℚ}
    {proposalId assessmentId resultId : ℕ} {c : Closed}
    (h : w.broker.closeAt symbol refPrice proposalId assessmentId resultId = some c) :
    Effect w (w.recordClose c) := by
  obtain ⟨hheld, hfill, hbroker, -, -, hsymbol, hside, -, hqty, hpnl⟩ := closeAt_spec h
  refine .closed c.position c.fill c.result (by rw [hsymbol]; exact hheld) hside hqty hpnl ?_ ?_ ?_ rfl
  · rw [hfill]
    exact abs_realized_sub_le c.position refPrice
  · rw [recordClose, hbroker]
  · rw [recordClose, hbroker, hsymbol]

theorem startClose_effect (w : PaperAccount) (symbol : String) (price : Option ℚ)
    (proposalId assessmentId resultId : ℕ) :
    Effect w (w.startClose symbol price proposalId assessmentId resultId).1 := by
  unfold startClose
  cases hc : w.broker.closePosition symbol price proposalId assessmentId resultId with
  | none => exact .same (.refl w)
  | some c =>
    obtain ⟨refPrice, hclose⟩ := closePosition_closeAt hc
    exact (recordClose_effect hclose).of_sameBooks (sameBooks_startSave _ _)

theorem recordOpen_effect {w : PaperAccount} {a : RiskAssessment ℚ} {refPrice : RefPrice} {choice : FillChoice}
    {resultId : ℕ} {broker : PaperBroker} {position : PaperPosition} {result : ExecutionResult}
    (h : w.broker.fillOrder a refPrice choice resultId = .ok (.opened broker position result)) :
    Effect w (w.recordOpen broker position result) := by
  rcases fillOrder_cases h with ⟨c, hc, -⟩ | ⟨fill, hflat, hfill, -, hf⟩
  · cases hc
  · cases hf
    have hok := openingFill_spec refPrice.2 hfill
    exact .opened _ _ (wellFormed_openedPosition hok) hflat rfl rfl rfl rfl rfl rfl rfl

theorem fillOrder_closed {b : PaperBroker} {a : RiskAssessment ℚ} {refPrice : RefPrice} {choice : FillChoice}
    {resultId : ℕ} {c : Closed} (h : b.fillOrder a refPrice choice resultId = .ok (.closed c)) :
    b.closeAt a.originalProposal.symbol refPrice a.proposalId a.assessmentId resultId = some c := by
  rcases fillOrder_cases h with ⟨c', hc, -, hclose⟩ | ⟨fill, -, -, -, hf⟩
  · cases hc
    exact hclose
  · cases hf

theorem resume_effect {w w' : PaperAccount} {task task' : BrokerTask} {wakeup : Wakeup}
    (h : w.resume task wakeup = some (w', task')) : Effect w w' := by
  unfold resume at h
  split at h
  case h_1 a refPrice choice resultId =>
    split at h
    case h_1 => cases h; exact .same (.refl w)
    case h_2 broker position result hf =>
      obtain rfl : _ = w' := congrArg Prod.fst (Option.some.inj h)
      exact (recordOpen_effect hf).of_sameBooks (sameBooks_startSave _ _)
    case h_3 c hf =>
      obtain rfl : _ = w' := congrArg Prod.fst (Option.some.inj h)
      exact (recordClose_effect (fillOrder_closed hf)).of_sameBooks (sameBooks_startSave _ _)
  case h_2 => cases h; exact .same ⟨rfl, rfl, rfl⟩
  case h_3 value next =>
    obtain rfl : _ = w' := congrArg Prod.fst (Option.some.inj h)
    obtain ⟨hcash, hpositions, hfills⟩ :=
      sameBooks_finish { w with store := { w.store with positions := some value } } next
    exact .same ⟨hcash, hpositions, hfills⟩
  case h_4 =>
    obtain rfl : _ = w' := congrArg Prod.fst (Option.some.inj h)
    exact .same (sameBooks_finish _ _)
  case h_5 => cases h

private theorem startSave_ne_error (w : PaperAccount) (next : AfterSave) (err : BrokerError) :
    (w.startSave next).2 ≠ .done (.error err) := by
  unfold startSave
  split
  · simp
  · cases next <;> simp [finish]

theorem startClose_ne_error (w : PaperAccount) (symbol : String) (price : Option ℚ)
    (proposalId assessmentId resultId : ℕ) (err : BrokerError) :
    (w.startClose symbol price proposalId assessmentId resultId).2 ≠ .done (.error err) := by
  unfold startClose
  split
  · simp
  · exact startSave_ne_error _ _ err

/-- A call that raises leaves the account as it was. -/
theorem resume_error {w w' : PaperAccount} {task : BrokerTask} {wakeup : Wakeup} {err : BrokerError}
    (h : w.resume task wakeup = some (w', .done (.error err))) : w' = w := by
  unfold resume at h
  split at h
  case h_1 a refPrice choice resultId =>
    split at h
    case h_1 => cases h; rfl
    case h_2 => exact absurd (congrArg Prod.snd (Option.some.inj h)) (startSave_ne_error _ _ err)
    case h_3 => exact absurd (congrArg Prod.snd (Option.some.inj h)) (startSave_ne_error _ _ err)
  case h_2 => cases h
  case h_3 value next =>
    have hfinish := congrArg Prod.snd (Option.some.inj h)
    cases next <;> cases hfinish
  case h_4 stage next =>
    have hfinish := congrArg Prod.snd (Option.some.inj h)
    cases next <;> cases hfinish
  case h_5 => cases h

end PaperAccount

end MultiAgentTrading
