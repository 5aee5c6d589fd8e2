import MultiAgentTrading.Trading.System
import MultiAgentTrading.Risk.DrawdownMonitor

/-!
# The audit trail of the execution agent

The run loop of the execution agent on a paper broker and its stop monitor, down to the rows they leave in the
`executions` table.  The loop saves the fills of its orders; a close by the monitor has no proposal to refer to, and is
only published.  Assessments are any stream, and every write to the database succeeds, unless its row is there already.
-/

namespace MultiAgentTrading

open PaperBroker

structure ExecutionRow where
  resultId : ℕ
  proposalId : ℕ
  assessmentId : ℕ
  exchangeOrderId : Option String
  symbol : String
  side : OrderSide
  orderType : OrderType
  status : OrderStatus
  requestedQuantity : ℚ
  filledQuantity : ℚ
  averageFillPrice : Option ℚ
  totalCostUsd : Option ℚ
  feeUsd : Option ℚ
  feeCurrency : Option String
  isPaper : Bool
  createdAt : ℚ
  deriving DecidableEq

/-- The row of a result created at a time. -/
def executionRow (result : ExecutionResult) (timestamp : ℚ) : ExecutionRow where
  resultId := result.resultId
  proposalId := result.proposalId
  assessmentId := result.assessmentId
  exchangeOrderId := result.exchangeOrderId
  symbol := result.symbol
  side := result.side
  orderType := result.orderType
  status := result.status
  requestedQuantity := result.requestedQuantity
  filledQuantity := result.filledQuantity
  averageFillPrice := result.averageFillPrice
  totalCostUsd := result.totalCostUsd
  feeUsd := result.feeUsd
  feeCurrency := result.feeCurrency
  isPaper := result.isPaper
  createdAt := timestamp

/-- The table `executions`, by its primary key. -/
abbrev TradeRepository := Dict ℕ ExecutionRow

namespace TradeRepository

/-- A second row with the same key is refused. -/
def saveExecution (t : TradeRepository) (result : ExecutionResult) (timestamp : ℚ) : TradeRepository :=
  if t.contains result.resultId then t else t.set result.resultId (executionRow result timestamp)

/-- The signed cost; a missing one adds nothing to the sum. -/
def signedCost (row : ExecutionRow) : ℚ :=
  match row.side with
  | .sell => row.totalCostUsd.getD 0
  | .buy => -row.totalCostUsd.getD 0

/-- `get_daily_pnl`, before the conversion to float. -/
def getDailyPnl (t : TradeRepository) (targetDate : ℤ) : ℚ :=
  let rows := t.values.filter fun row =>
    utcDate row.createdAt = targetDate ∧ (row.status = .filled ∨ row.status = .partiallyFilled)
  (rows.map signedCost).sum - (rows.map fun row => row.feeUsd.getD 0).sum

end TradeRepository

/-- The run loop: waiting for an assessment, in `place_order` before or after the fill, about to publish a result
(`fill` tells a fill from a failure), about to write its row, or ended. -/
inductive AuditedLoop
  | idle
  | placing (assessment : RiskAssessment ℚ) (refPrice : RefPrice)
  | saving (stage : SaveStage) (next : AfterSave)
  | publishing (result : ExecutionResult) (fill : Bool)
  | persisting (result : ExecutionResult)
  | exited

/-- `timestamps` has the time at which the result of an id was created. -/
structure ExecutionAgent where
  account : PaperAccount
  executions : TradeRepository := .empty
  loop : AuditedLoop := .idle
  monitor : MonitorPhase := .sleeping
  halted : Bool := false
  stopped : Bool := false
  consecutiveErrors : ℕ := 0
  now : ℚ
  timestamps : Dict ℕ ℚ := .empty
  nextId : ℕ := 0

/-- The events: time passes; the run loop takes an assessment, wakes from the latency sleep or from a write of the
save, publishes, writes a row, or ends; the monitor wakes, learns a price, wakes from a write, or publishes; the bus
connects or disconnects; a halt arrives, which may stop the agent. -/
inductive AgentEvent
  | elapse (d : ℚ)
  | take (assessment : RiskAssessment ℚ)
  | latencyOver (choice : FillChoice)
  | saved (ok : Bool)
  | publish (ok : Bool)
  | persisted
  | exit
  | monitorScan
  | monitorPrice (price : Option ℚ)
  | monitorSaved (ok : Bool)
  | monitorPublish (ok : Bool)
  | link (connected : Bool)
  | halt (stop : Bool)

namespace ExecutionAgent

/-- An agent that starts with some cash and no position. -/
def init (cash now : ℚ) (connected : Bool) : ExecutionAgent where
  account := { broker := { cashBalance := cash }, connected := connected }
  now := now

/-- `_handle_error`. -/
def handleError (settings : Settings) (s : ExecutionAgent) : ExecutionAgent :=
  { s with
    consecutiveErrors := s.consecutiveErrors + 1
    stopped := s.stopped || settings.risk.maxAgentCrashes ≤ (s.consecutiveErrors + 1 : ℕ) }

/-- A piece of a call has been run that may have created a result. -/
def stamp (s : ExecutionAgent) (w : PaperAccount) : ExecutionAgent :=
  { s with account := w, timestamps := s.timestamps.set s.nextId s.now, nextId := s.nextId + 1 }

/-- Where the run loop is after a piece of `place_order` for `a`. -/
def afterOrder (settings : Settings) (s : ExecutionAgent) (a : RiskAssessment ℚ) (w : PaperAccount)
    (task : BrokerTask) : ExecutionAgent :=
  match task with
  | .sleeping a' refPrice => { s.stamp w with loop := .placing a' refPrice }
  | .saving stage next => { s.stamp w with loop := .saving stage next }
  | .done (.ok (some result)) => { s.stamp w with loop := .publishing result true }
  | .done (.ok none) => { s.stamp w with loop := .idle }
  | .done (.error _) => { (s.stamp w).handleError settings with loop := .publishing (failureResult a s.nextId) false }

/-- Where the run loop is after a write of the save that follows a fill. -/
def afterSave (s : ExecutionAgent) (w : PaperAccount) (task : BrokerTask) : ExecutionAgent :=
  match task with
  | .saving stage next => { s with account := w, loop := .saving stage next }
  | .done (.ok (some result)) => { s with account := w, loop := .publishing result true }
  | _ => { s with account := w, loop := .idle }

/-- Once a result is published a fill has its row written.  A fill that cannot be published is an error, and has no
row; what goes wrong with a failure is logged. -/
def afterPublish (settings : Settings) (s : ExecutionAgent) (result : ExecutionResult) (fill ok : Bool) :
    ExecutionAgent :=
  if fill then if ok then { s with loop := .persisting result } else { s.handleError settings with loop := .idle }
  else { s with loop := .idle }

/-- The monitor goes on with its snapshot; after the last position it sleeps, unless the agent is stopping. -/
def nextPosition (s : ExecutionAgent) (rest : List BrokerPosition) : ExecutionAgent :=
  match rest with
  | pos :: rest' => { s with monitor := .pricing pos rest' }
  | [] => { s with monitor := if s.stopped then .ended else .sleeping }

/-- Where the monitor is after a piece of `close_position`. -/
def afterClose (s : ExecutionAgent) (rest : List BrokerPosition) (task : BrokerTask) : ExecutionAgent :=
  match task with
  | .saving stage next => { s with monitor := .saving stage next rest }
  | .done (.ok (some result)) => { s with monitor := .publishing result rest }
  | _ => s.nextPosition rest

/-- The run loop takes an assessment: it ends when stopping, skips when halted or not approved, and else starts the
order.  Its end cancels the monitor. -/
def takeAssessment (settings : Settings) (s : ExecutionAgent) (a : RiskAssessment ℚ) : ExecutionAgent :=
  if s.stopped then { s with loop := .exited, monitor := .ended }
  else if s.halted then s
  else if a.isApproved = false then { s with consecutiveErrors := 0 }
  else s.afterOrder settings a s.account (s.account.startOrder settings a)

def step (settings : Settings) (s : ExecutionAgent) : AgentEvent → Option ExecutionAgent
  | .elapse d => if 0 ≤ d then some { s with now := s.now + d } else none
  | .take a =>
    match s.loop with
    | .idle => some (s.takeAssessment settings a)
    | _ => none
  | .latencyOver choice =>
    match s.loop with
    | .placing a refPrice =>
      (s.account.resume (.sleeping a refPrice) (.latencyOver choice s.nextId)).map fun resumed =>
        s.afterOrder settings a resumed.1 resumed.2
    | _ => none
  | .saved ok =>
    match s.loop with
    | .saving stage next =>
      (s.account.resume (.saving stage next) (.saved ok)).map fun resumed => s.afterSave resumed.1 resumed.2
    | _ => none
  | .publish ok =>
    match s.loop with
    | .publishing result fill => some (s.afterPublish settings result fill ok)
    | _ => none
  | .persisted =>
    match s.loop with
    | .persisting result =>
      some { s with
        executions := s.executions.saveExecution result ((s.timestamps.get? result.resultId).getD 0)
        loop := .idle
        consecutiveErrors := 0 }
    | _ => none
  | .exit =>
    match s.loop with
    | .idle => if s.stopped then some { s with loop := .exited, monitor := .ended } else none
    | _ => none
  | .monitorScan =>
    match s.monitor with
    | .sleeping => some (s.nextPosition s.account.broker.getPositions)
    | _ => none
  | .monitorPrice price =>
    match s.monitor with
    | .pricing pos rest =>
      match price with
      | none => some (s.nextPosition rest)
      | some p =>
        if breached settings.mt5 pos p then
          let started := s.account.startClose pos.symbol (some p) s.nextId s.nextId s.nextId
          some ((s.stamp started.1).afterClose rest started.2)
        else some (s.nextPosition rest)
    | _ => none
  | .monitorSaved ok =>
    match s.monitor with
    | .saving stage next rest =>
      (s.account.resume (.saving stage next) (.saved ok)).map fun resumed =>
        ({ s with account := resumed.1 } : ExecutionAgent).afterClose rest resumed.2
    | _ => none
  | .monitorPublish ok =>
    match s.monitor with
    -- no row; an exception ends the pass over the snapshot
    | .publishing _ rest => some (s.nextPosition (if ok then rest else []))
    | _ => none
  | .link connected => some { s with account := { s.account with connected := connected } }
  | .halt stop => some { s with halted := true, stopped := s.stopped || stop }

/-- What each event does, and when it is enabled. -/
inductive Stepped (settings : Settings) (s : ExecutionAgent) : AgentEvent → ExecutionAgent → Prop
  | elapsed {d : ℚ} (hd : 0 ≤ d) : Stepped settings s (.elapse d) { s with now := s.now + d }
  | taken {a : RiskAssessment ℚ} (hloop : s.loop = .idle) : Stepped settings s (.take a) (s.takeAssessment settings a)
  | filled {choice : FillChoice} {a : RiskAssessment ℚ} {refPrice : RefPrice} {w : PaperAccount} {task : BrokerTask}
    (hloop : s.loop = .placing a refPrice)
    (hresume : s.account.resume (.sleeping a refPrice) (.latencyOver choice s.nextId) = some (w, task)) :
    Stepped settings s (.latencyOver choice) (s.afterOrder settings a w task)
  | saved {ok : Bool} {stage : SaveStage} {next : AfterSave} {w : PaperAccount} {task : BrokerTask}
    (hloop : s.loop = .saving stage next)
    (hresume : s.account.resume (.saving stage next) (.saved ok) = some (w, task)) :
    Stepped settings s (.saved ok) (s.afterSave w task)
  | published {ok : Bool} {result : ExecutionResult} {fill : Bool} (hloop : s.loop = .publishing result fill) :
    Stepped settings s (.publish ok) (s.afterPublish settings result fill ok)
  | persisted {result : ExecutionResult} (hloop : s.loop = .persisting result) :
    Stepped settings s .persisted
      { s with
        executions := s.executions.saveExecution result ((s.timestamps.get? result.resultId).getD 0)
        loop := .idle
        consecutiveErrors := 0 }
  | exited (hloop : s.loop = .idle) (hstopped : s.stopped = true) :
    Stepped settings s .exit { s with loop := .exited, monitor := .ended }
  | scanned (hmonitor : s.monitor = .sleeping) :
    Stepped settings s .monitorScan (s.nextPosition s.account.broker.getPositions)
  | kept {price : Option ℚ} {pos : BrokerPosition} {rest : List BrokerPosition}
    (hmonitor : s.monitor = .pricing pos rest) (hprice : ∀ p ∈ price, breached settings.mt5 pos p = false) :
    Stepped settings s (.monitorPrice price) (s.nextPosition rest)
  | stoppedOut {p : ℚ} {pos : BrokerPosition} {rest : List BrokerPosition} (hmonitor : s.monitor = .pricing pos rest)
    (hbreached : breached settings.mt5 pos p = true) :
    Stepped settings s (.monitorPrice (some p))
      ((s.stamp (s.account.startClose pos.symbol (some p) s.nextId s.nextId s.nextId).1).afterClose rest
        (s.account.startClose pos.symbol (some p) s.nextId s.nextId s.nextId).2)
  | monitorSaved {ok : Bool} {stage : SaveStage} {next : AfterSave} {rest : List BrokerPosition} {w : PaperAccount}
    {task : BrokerTask} (hmonitor : s.monitor = .saving stage next rest)
    (hresume : s.account.resume (.saving stage next) (.saved ok) = some (w, task)) :
    Stepped settings s (.monitorSaved ok) (({ s with account := w } : ExecutionAgent).afterClose rest task)
  | monitorPublished {ok : Bool} {result : ExecutionResult} {rest : List BrokerPosition}
    (hmonitor : s.monitor = .publishing result rest) :
    Stepped settings s (.monitorPublish ok) (s.nextPosition (if ok then rest else []))
  | linked {connected : Bool} :
    Stepped settings s (.link connected) { s with account := { s.account with connected := connected } }
  | halted {stop : Bool} : Stepped settings s (.halt stop) { s with halted := true, stopped := s.stopped || stop }

theorem stepped_of_step {settings : Settings} {s s' : ExecutionAgent} {e : AgentEvent}
    (h : s.step settings e = some s') : Stepped settings s e s' := by
  cases e with
  | elapse d =>
    obtain ⟨hd, heq⟩ := Option.ite_none_right_eq_some.1 h
    cases heq
    exact .elapsed hd
  | take a =>
    simp only [step] at h
    split at h
    case h_2 => cases h
    case h_1 hloop => cases h; exact .taken hloop
  | latencyOver choice =>
    simp only [step] at h
    split at h
    case h_2 => cases h
    case h_1 a refPrice hloop =>
      obtain ⟨resumed, hresume, rfl⟩ := Option.map_eq_some_iff.1 h
      exact .filled hloop hresume
  | saved ok =>
    simp only [step] at h
    split at h
    case h_2 => cases h
    case h_1 stage next hloop =>
      obtain ⟨resumed, hresume, rfl⟩ := Option.map_eq_some_iff.1 h
      exact .saved hloop hresume
  | publish ok =>
    simp only [step] at h
    split at h
    case h_2 => cases h
    case h_1 result fill hloop => cases h; exact .published hloop
  | persisted =>
    simp only [step] at h
    split at h
    case h_2 => cases h
    case h_1 result hloop => cases h; exact .persisted hloop
  | exit =>
    simp only [step] at h
    split at h
    case h_2 => cases h
    case h_1 hloop =>
      obtain ⟨hstopped, heq⟩ := Option.ite_none_right_eq_some.1 h
      cases heq
      exact .exited hloop hstopped
  | monitorScan =>
    simp only [step] at h
    split at h
    case h_2 => cases h
    case h_1 hmonitor => cases h; exact .scanned hmonitor
  | monitorPrice price =>
    simp only [step] at h
    split at h
    case h_2 => cases h
    case h_1 pos rest hmonitor =>
      cases price with
      | none => cases h; exact .kept hmonitor fun p hp => absurd hp (Option.some_ne_none p).symm
      | some p =>
        dsimp only at h
        split_ifs at h with hbreached
        · cases h
          exact .stoppedOut hmonitor hbreached
        · cases h
          refine .kept hmonitor fun p' hp' => ?_
          cases hp'
          exact Bool.eq_false_of_not_eq_true hbreached
  | monitorSaved ok =>
    simp only [step] at h
    split at h
    case h_2 => cases h
    case h_1 stage next rest hmonitor =>
      obtain ⟨resumed, hresume, rfl⟩ := Option.map_eq_some_iff.1 h
      exact .monitorSaved hmonitor hresume
  | monitorPublish ok =>
    simp only [step] at h
    split at h
    case h_2 => cases h
    case h_1 result rest hmonitor => cases h; exact .monitorPublished hmonitor
  | link connected => cases h; exact .linked
  | halt stop => cases h; exact .halted

end ExecutionAgent

end MultiAgentTrading
