import MultiAgentTrading.Risk.Agent
import MultiAgentTrading.Execution.BrokerTasks
import MultiAgentTrading.Lib.Runs

/-!
# The trading system

The risk agent, the execution agent on a paper broker and its stop monitor, joined by lossless FIFO channels.  Each
event runs one activity from one await to the next, so a run is an interleaving at the await points.  Identifiers are
drawn from one counter; the identifiers and all contents of the proposals are arbitrary.
-/

namespace MultiAgentTrading

open PaperBroker

/-- The run loop of the execution agent: waiting for an assessment, in `place_order` before or after the fill, about
to publish a result (`fill` tells a fill from a failure), or ended. -/
inductive LoopPhase
  | idle
  | placing (assessment : RiskAssessment ℚ) (refPrice : RefPrice)
  | saving (stage : SaveStage) (next : AfterSave)
  | publishing (result : ExecutionResult) (fill : Bool)
  | exited

/-- The paper position monitor: asleep, waiting for the price of a position of its snapshot, closing it, about to
publish the close, or ended.  `rest` is what is left of the snapshot. -/
inductive MonitorPhase
  | sleeping
  | pricing (position : BrokerPosition) (rest : List BrokerPosition)
  | saving (stage : SaveStage) (next : AfterSave) (rest : List BrokerPosition)
  | publishing (result : ExecutionResult) (rest : List BrokerPosition)
  | ended

structure TradingSystem where
  risk : RiskAgent
  riskPending : Option (RiskAssessment ℚ) := none
  riskStopped : Bool := false
  account : PaperAccount
  proposals : List (TradeProposal ℚ) := []
  assessments : List (RiskAssessment ℚ) := []
  results : List ExecutionResult := []
  loop : LoopPhase := .idle
  monitor : MonitorPhase := .sleeping
  halted : Bool := false
  stopped : Bool := false
  consecutiveErrors : ℕ := 0
  nextId : ℕ := 0

/-- The events: a proposal arrives; the risk agent evaluates, publishes, or applies a result; the run loop takes an
assessment, wakes from the latency sleep or from a write, publishes, or ends; the monitor wakes, learns a price, wakes
from a write, or publishes; the bus connects or disconnects; a halt reaches one of the two agents. -/
inductive TradingEvent
  | propose (proposal : TradeProposal ℚ)
  | riskEvaluate (resetTime ageTime : ℚ)
  | riskPublish
  | riskApply
  | loopTake
  | loopLatency (choice : FillChoice)
  | loopSaved (ok : Bool)
  | loopPublish (ok : Bool)
  | loopExit
  | monitorScan
  | monitorPrice (price : Option ℚ)
  | monitorSaved (ok : Bool)
  | monitorPublish (ok : Bool)
  | link (connected : Bool)
  | haltRisk (stop : Bool)
  | haltExecution (stop : Bool)

/-- `_check_and_maybe_close`: whether a price crosses the stop or the take-profit of a position. -/
def breached (mt5 : MT5Settings) (pos : BrokerPosition) (price : ℚ) : Bool :=
  if pos.entryPrice ≤ 0 ∨ price ≤ 0 then false
  else
    let pnlPct :=
      match pos.side with
      | .buy => (price - pos.entryPrice) / pos.entryPrice
      | .sell => (pos.entryPrice - price) / pos.entryPrice
    pnlPct ≤ -mt5.stopLossPct ∨ mt5.takeProfitPct ≤ pnlPct

/-- `_publish_failure`: the rejected result for an order that raised. -/
def failureResult (a : RiskAssessment ℚ) (resultId : ℕ) : ExecutionResult where
  resultId := resultId
  proposalId := a.proposalId
  assessmentId := a.assessmentId
  symbol := a.originalProposal.symbol
  side := a.originalProposal.side
  orderType := a.originalProposal.orderType
  status := .rejected
  requestedQuantity := 0
  isPaper := true

namespace TradingSystem

def init (settings : Settings) (now : ℚ) (connected : Bool) : TradingSystem where
  risk := .init settings now
  account := { broker := .init settings, connected := connected }

/-- `_handle_error`: at the limit of consecutive errors the agent is quarantined and stops. -/
def handleError (settings : Settings) (s : TradingSystem) : TradingSystem :=
  { s with
    consecutiveErrors := s.consecutiveErrors + 1
    stopped := s.stopped || settings.risk.maxAgentCrashes ≤ (s.consecutiveErrors + 1 : ℕ) }

/-- Where the run loop is after a piece of `place_order` for `a`. -/
def afterOrder (settings : Settings) (s : TradingSystem) (a : RiskAssessment ℚ) (w : PaperAccount)
    (task : BrokerTask) : TradingSystem :=
  let s' := { s with account := w, nextId := s.nextId + 1 }
  match task with
  | .sleeping a' refPrice => { s' with loop := .placing a' refPrice }
  | .saving stage next => { s' with loop := .saving stage next }
  | .done (.ok (some result)) => { s' with loop := .publishing result true }
  | .done (.ok none) => { s' with loop := .idle }
  | .done (.error _) => { s'.handleError settings with loop := .publishing (failureResult a s.nextId) false }

/-- Where the run loop is after a write of the save that follows a fill. -/
def afterSave (s : TradingSystem) (w : PaperAccount) (task : BrokerTask) : TradingSystem :=
  match task with
  | .saving stage next => { s with account := w, loop := .saving stage next }
  | .done (.ok (some result)) => { s with account := w, loop := .publishing result true }
  | _ => { s with account := w, loop := .idle }

/-- The end of an iteration: a published fill is a success, a lost one an error; a failure was counted before. -/
def afterPublish (settings : Settings) (s : TradingSystem) (fill ok : Bool) : TradingSystem :=
  let s' := { s with loop := .idle }
  if fill then if ok then { s' with consecutiveErrors := 0 } else s'.handleError settings else s'

/-- The monitor goes on with its snapshot; after the last position it sleeps, unless the agent is stopping. -/
def nextPosition (s : TradingSystem) (rest : List BrokerPosition) : TradingSystem :=
  match rest with
  | pos :: rest' => { s with monitor := .pricing pos rest' }
  | [] => { s with monitor := if s.stopped then .ended else .sleeping }

/-- Where the monitor is after a piece of `close_position`. -/
def afterClose (s : TradingSystem) (rest : List BrokerPosition) (w : PaperAccount) (task : BrokerTask) :
    TradingSystem :=
  let s' := { s with account := w }
  match task with
  | .saving stage next => { s' with monitor := .saving stage next rest }
  | .done (.ok (some result)) => { s' with monitor := .publishing result rest }
  | _ => s'.nextPosition rest

/-- The run loop takes the next assessment: it ends when stopping, skips when halted or not approved, and else starts
the order.  Its end cancels the monitor. -/
def takeAssessment (settings : Settings) (s : TradingSystem) (a : RiskAssessment ℚ)
    (rest : List (RiskAssessment ℚ)) : TradingSystem :=
  if s.stopped then { s with assessments := rest, loop := .exited, monitor := .ended }
  else if s.halted then { s with assessments := rest }
  else if a.isApproved = false then { s with assessments := rest, consecutiveErrors := 0 }
  else { s with assessments := rest }.afterOrder settings a s.account (s.account.startOrder settings a)

/-- A result is published, or lost when the agent is stopping and its bus has gone. -/
def publish (s : TradingSystem) (result : ExecutionResult) (ok : Bool) : Option TradingSystem :=
  if ok then some { s with results := s.results ++ [result] } else if s.stopped then some s else none

def step (settings : Settings) (s : TradingSystem) : TradingEvent → Option TradingSystem
  | .propose p => some { s with proposals := s.proposals ++ [p] }
  | .riskEvaluate resetTime ageTime =>
    match s.proposals, s.riskPending with
    | p :: rest, none =>
      if s.riskStopped then none
      else
        let e := s.risk.evaluate settings.risk p s.nextId resetTime ageTime
        some { s with
          proposals := rest, risk := e.agent, riskPending := some e.assessment, nextId := s.nextId + 1 }
    | _, _ => none
  | .riskPublish =>
    match s.riskPending with
    | some a => some { s with assessments := s.assessments ++ [a], riskPending := none }
    | none => none
  | .riskApply =>
    match s.results with
    | result :: rest =>
      if s.riskStopped then none
      else some { s with results := rest, risk := (s.risk.applyExecutionResult result).2 }
    | [] => none
  | .loopTake =>
    match s.loop, s.assessments with
    | .idle, a :: rest => some (s.takeAssessment settings a rest)
    | _, _ => none
  | .loopLatency choice =>
    match s.loop with
    | .placing a refPrice =>
      (s.account.resume (.sleeping a refPrice) (.latencyOver choice s.nextId)).map fun resumed =>
        s.afterOrder settings a resumed.1 resumed.2
    | _ => none
  | .loopSaved ok =>
    match s.loop with
    | .saving stage next =>
      (s.account.resume (.saving stage next) (.saved ok)).map fun resumed =>
        s.afterSave resumed.1 resumed.2
    | _ => none
  | .loopPublish ok =>
    match s.loop with
    | .publishing result fill => (s.publish result ok).map fun s' => s'.afterPublish settings fill ok
    | _ => none
  | .loopExit =>
    match s.loop with
    | .idle => if s.stopped then some { s with loop := .exited, monitor := .ended } else none
    | _ => none
  | .monitorScan =>
    match s.monitor with
    | .sleeping => some (s.nextPosition s.account.broker.getPositions)
    | _ => none
  | .monitorPrice price =>
    match s.monitor with
    | .pricing pos rest =>
      match price with
      | none => some (s.nextPosition rest)
      | some p =>
        if breached settings.mt5 pos p then
          let started := s.account.startClose pos.symbol (some p) s.nextId s.nextId s.nextId
          some ({ s with nextId := s.nextId + 1 }.afterClose rest started.1 started.2)
        else some (s.nextPosition rest)
    | _ => none
  | .monitorSaved ok =>
    match s.monitor with
    | .saving stage next rest =>
      (s.account.resume (.saving stage next) (.saved ok)).map fun resumed => s.afterClose rest resumed.1 resumed.2
    | _ => none
  | .monitorPublish ok =>
    match s.monitor with
    | .publishing result rest =>
      -- an exception ends the pass over the snapshot
      (s.publish result ok).map fun s' => s'.nextPosition (if ok then rest else [])
    | _ => none
  | .link connected => some { s with account := { s.account with connected := connected } }
  | .haltRisk stop =>
    some { s with risk := { s.risk with tradingHalted := true }, riskStopped := s.riskStopped || stop }
  | .haltExecution stop => some { s with halted := true, stopped := s.stopped || stop }

/-- What a step can do, and in which phase of its party. -/
inductive Stepped (settings : Settings) (s : TradingSystem) : TradingEvent → TradingSystem → Prop
  | proposed (p : TradeProposal ℚ) : Stepped settings s (.propose p) { s with proposals := s.proposals ++ [p] }
  | evaluated {p : TradeProposal ℚ} {rest : List (TradeProposal ℚ)} (resetTime ageTime : ℚ)
    (hproposals : s.proposals = p :: rest) (hpending : s.riskPending = none) :
    Stepped settings s (.riskEvaluate resetTime ageTime)
      { s with
        proposals := rest
        risk := (s.risk.evaluate settings.risk p s.nextId resetTime ageTime).agent
        riskPending := some (s.risk.evaluate settings.risk p s.nextId resetTime ageTime).assessment
        nextId := s.nextId + 1 }
  | assessed {a : RiskAssessment ℚ} (hpending : s.riskPending = some a) :
    Stepped settings s .riskPublish { s with assessments := s.assessments ++ [a], riskPending := none }
  | applied {result : ExecutionResult} {rest : List ExecutionResult} (hresults : s.results = result :: rest) :
    Stepped settings s .riskApply { s with results := rest, risk := (s.risk.applyExecutionResult result).2 }
  | taken {a : RiskAssessment ℚ} {rest : List (RiskAssessment ℚ)} (hloop : s.loop = .idle)
    (hassessments : s.assessments = a :: rest) : Stepped settings s .loopTake (s.takeAssessment settings a rest)
  | filled {choice : FillChoice} {a : RiskAssessment ℚ} {refPrice : RefPrice} {w : PaperAccount} {task : BrokerTask}
    (hloop : s.loop = .placing a refPrice)
    (hresume : s.account.resume (.sleeping a refPrice) (.latencyOver choice s.nextId) = some (w, task)) :
    Stepped settings s (.loopLatency choice) (s.afterOrder settings a w task)
  | loopSaved {ok : Bool} {stage : SaveStage} {next : AfterSave} {w : PaperAccount} {task : BrokerTask}
    (hloop : s.loop = .saving stage next)
    (hresume : s.account.resume (.saving stage next) (.saved ok) = some (w, task)) :
    Stepped settings s (.loopSaved ok) (s.afterSave w task)
  | loopPublished {ok : Bool} {result : ExecutionResult} {fill : Bool} {t : TradingSystem}
    (hloop : s.loop = .publishing result fill) (hpublish : s.publish result ok = some t) :
    Stepped settings s (.loopPublish ok) (t.afterPublish settings fill ok)
  | loopExited (hloop : s.loop = .idle) (hstopped : s.stopped = true) :
    Stepped settings s .loopExit { s with loop := .exited, monitor := .ended }
  | scanned (hmonitor : s.monitor = .sleeping) :
    Stepped settings s .monitorScan (s.nextPosition s.account.broker.getPositions)
  | unpriced {pos : BrokerPosition} {rest : List BrokerPosition} (hmonitor : s.monitor = .pricing pos rest) :
    Stepped settings s (.monitorPrice none) (s.nextPosition rest)
  | kept {pos : BrokerPosition} {rest : List BrokerPosition} {price : ℚ} (hmonitor : s.monitor = .pricing pos rest)
    (hbreached : breached settings.mt5 pos price = false) :
    Stepped settings s (.monitorPrice (some price)) (s.nextPosition rest)
  | stoppedOut {pos : BrokerPosition} {rest : List BrokerPosition} {price : ℚ}
    (hmonitor : s.monitor = .pricing pos rest) (hbreached : breached settings.mt5 pos price = true) :
    Stepped settings s (.monitorPrice (some price))
      (({ s with nextId := s.nextId + 1 } : TradingSystem).afterClose rest
        (s.account.startClose pos.symbol (some price) s.nextId s.nextId s.nextId).1
        (s.account.startClose pos.symbol (some price) s.nextId s.nextId s.nextId).2)
  | monitorSaved {ok : Bool} {stage : SaveStage} {next : AfterSave} {rest : List BrokerPosition} {w : PaperAccount}
    {task : BrokerTask} (hmonitor : s.monitor = .saving stage next rest)
    (hresume : s.account.resume (.saving stage next) (.saved ok) = some (w, task)) :
    Stepped settings s (.monitorSaved ok) (s.afterClose rest w task)
  | monitorPublished {ok : Bool} {result : ExecutionResult} {rest : List BrokerPosition} {t : TradingSystem}
    (hmonitor : s.monitor = .publishing result rest) (hpublish : s.publish result ok = some t) :
    Stepped settings s (.monitorPublish ok) (t.nextPosition (if ok then rest else []))
  | linked (connected : Bool) :
    Stepped settings s (.link connected) { s with account := { s.account with connected := connected } }
  | riskHalted (stop : Bool) :
    Stepped settings s (.haltRisk stop)
      { s with risk := { s.risk with tradingHalted := true }, riskStopped := s.riskStopped || stop }
  | executionHalted (stop : Bool) :
    Stepped settings s (.haltExecution stop) { s with halted := true, stopped := s.stopped || stop }

theorem stepped_of_step {settings : Settings} {s s' : TradingSystem} {e : TradingEvent}
    (h : step settings s e = some s') : Stepped settings s e s' := by
  cases e with
  | propose p => cases h; exact .proposed p
  | riskEvaluate resetTime ageTime =>
    simp only [step] at h
    split at h
    case h_2 => cases h
    case h_1 p rest hproposals hpending =>
      split at h
      case isTrue => cases h
      case isFalse => cases h; exact .evaluated resetTime ageTime hproposals hpending
  | riskPublish =>
    simp only [step] at h
    split at h
    case h_2 => cases h
    case h_1 a hpending => cases h; exact .assessed hpending
  | riskApply =>
    simp only [step] at h
    split at h
    case h_2 => cases h
    case h_1 result rest hresults =>
      split at h
      case isTrue => cases h
      case isFalse => cases h; exact .applied hresults
  | loopTake =>
    simp only [step] at h
    split at h
    case h_2 => cases h
    case h_1 a rest hloop hassessments => cases h; exact .taken hloop hassessments
  | loopLatency choice =>
    simp only [step] at h
    split at h
    case h_2 => cases h
    case h_1 a refPrice hloop =>
      obtain ⟨resumed, hresume, rfl⟩ := Option.map_eq_some_iff.1 h
      exact .filled hloop hresume
  | loopSaved ok =>
    simp only [step] at h
    split at h
    case h_2 => cases h
    case h_1 stage next hloop =>
      obtain ⟨resumed, hresume, rfl⟩ := Option.map_eq_some_iff.1 h
      exact .loopSaved hloop hresume
  | loopPublish ok =>
    simp only [step] at h
    split at h
    case h_2 => cases h
    case h_1 result fill hloop =>
      obtain ⟨t, hpublish, rfl⟩ := Option.map_eq_some_iff.1 h
      exact .loopPublished hloop hpublish
  | loopExit =>
    simp only [step] at h
    split at h
    case h_2 => cases h
    case h_1 hloop =>
      split at h
      case isTrue hstopped => cases h; exact .loopExited hloop hstopped
      case isFalse => cases h
  | monitorScan =>
    simp only [step] at h
    split at h
    case h_2 => cases h
    case h_1 hmonitor => cases h; exact .scanned hmonitor
  | monitorPrice price =>
    simp only [step] at h
    split at h
    case h_2 => cases h
    case h_1 pos rest hmonitor =>
      cases price with
      | none => cases h; exact .unpriced hmonitor
      | some p =>
        dsimp only at h
        split at h
        case isTrue hbreached => cases h; exact .stoppedOut hmonitor hbreached
        case isFalse hbreached => cases h; exact .kept hmonitor (Bool.eq_false_of_not_eq_true hbreached)
  | monitorSaved ok =>
    simp only [step] at h
    split at h
    case h_2 => cases h
    case h_1 stage next rest hmonitor =>
      obtain ⟨resumed, hresume, rfl⟩ := Option.map_eq_some_iff.1 h
      exact .monitorSaved hmonitor hresume
  | monitorPublish ok =>
    simp only [step] at h
    split at h
    case h_2 => cases h
    case h_1 result rest hmonitor =>
      obtain ⟨t, hpublish, rfl⟩ := Option.map_eq_some_iff.1 h
      exact .monitorPublished hmonitor hpublish
  | link connected => cases h; exact .linked connected
  | haltRisk stop => cases h; exact .riskHalted stop
  | haltExecution stop => cases h; exact .executionHalted stop

end TradingSystem

/-- A proposal goes through evaluation, the channel and `place_order` up to its fill. -/
def orderFlow (p : TradeProposal ℚ) : List TradingEvent :=
  [.propose p, .riskEvaluate 0 0, .riskPublish, .loopTake, .loopLatency .full]

end MultiAgentTrading
