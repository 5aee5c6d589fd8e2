import MultiAgentTrading.Lib.Dict
import MultiAgentTrading.Lib.Runs
import MultiAgentTrading.Control.Lifecycle
import Mathlib.Algebra.Order.Ring.Rat

/-!
# The monitoring agent

The registry of agents, and three tasks that share it: the listener for heartbeats, the scan for agents whose heartbeat
is overdue, and the listener for alerts, which receives the agent's own.  A step runs one task up to its next await, so
that every other task may go on between raising an alert and routing it, and between two agents of a scan.  The model
runs until the agent is stopped.
-/

namespace MultiAgentTrading.Monitoring

open Control (AgentStatus AgentHeartbeat)

inductive AlertType
  | agentCrash
  | agentStale
  | dailyLossThreshold
  | drawdownThreshold
  | staleMarketData
  | circuitBreakerTripped
  | orderRejected
  | exchangeConnectionLost
  deriving DecidableEq, Repr

inductive AlertSeverity | info | warning | critical
  deriving DecidableEq, Repr

structure SystemAlert where
  alertType : AlertType
  severity : AlertSeverity
  timestamp : ℚ
  agentName : Option String
  deriving DecidableEq

/-- `_ALERT_COOLDOWN_SECONDS`. -/
def alertCooldownSeconds : ℚ := 300

structure AgentRecord where
  name : String
  lastHeartbeat : Option AgentHeartbeat := none
  lastSeenAt : Option ℚ := none
  status : AgentStatus := .starting
  consecutiveMissed : ℕ := 0
  totalHeartbeats : ℕ := 0
  lastAlertAt : Option ℚ := none
  deriving DecidableEq

namespace AgentRecord

def update (r : AgentRecord) (heartbeat : AgentHeartbeat) (now : ℚ) : AgentRecord :=
  { r with
    lastHeartbeat := some heartbeat
    lastSeenAt := some now
    status := heartbeat.status
    consecutiveMissed := 0
    totalHeartbeats := r.totalHeartbeats + 1 }

def ageSeconds (r : AgentRecord) (now : ℚ) : Option ℚ := r.lastSeenAt.map fun t => now - t

def isStale (r : AgentRecord) (timeoutSeconds : ℤ) (now : ℚ) : Bool :=
  (r.ageSeconds now).any fun age : ℚ => (timeoutSeconds : ℚ) < age

def isAlertOnCooldown (r : AgentRecord) (now : ℚ) : Bool := r.lastAlertAt.any fun t => now - t < alertCooldownSeconds

end AgentRecord

/-- Where `_raise_alert` waits: for the bus to take the alert, for `publish` to return, for the notification channels,
and for the database. -/
inductive RaiseStage | publishing | accepted | routing | persisting
  deriving DecidableEq

/-- The scan: asleep, in the middle of its loop with an alert being raised, or ended by an exception. -/
inductive ScanTask
  | sleeping
  | alerting (it : Dict.Iter) (alert : SystemAlert) (stage : RaiseStage)
  | failed
  deriving DecidableEq

/-- The listener for heartbeats: waiting for one, raising an alert for it, or persisting it. -/
inductive HeartbeatListener
  | idle
  | alerting (heartbeat : AgentHeartbeat) (alert : SystemAlert) (stage : RaiseStage)
  | persisting (heartbeat : AgentHeartbeat)
  deriving DecidableEq

inductive AlertListener
  | idle
  | routing (alert : SystemAlert)
  deriving DecidableEq

/-- What is logged of alerts: raised, held back by the cooldown, or handed to `_route_alert` at a time. -/
inductive AlertEntry
  | raised (alert : SystemAlert)
  | suppressed (alertType : AlertType) (agentName : String)
  | routed (alert : SystemAlert) (time : ℚ)
  deriving DecidableEq

/-- `inFlight` are the alerts published and not received yet.  History: the alerts, the registry at the start of the
scan and the agents it has come to, and both for every scan that has ended. -/
structure MonitoringAgent where
  name : String := "monitoring_agent"
  heartbeatTimeout : ℤ := 30
  now : ℚ := 0
  agents : Dict String AgentRecord := .empty
  scan : ScanTask := .sleeping
  heartbeatListener : HeartbeatListener := .idle
  alertListener : AlertListener := .idle
  inFlight : List SystemAlert := []
  log : List AlertEntry := []
  atStart : List String := []
  visited : List String := []
  scans : List (List String × List String) := []
  deriving DecidableEq

/-- The awaits of `_raise_alert` that end: the bus takes the alert, `publish` returns or fails, the channels and the
database are done or have failed. -/
inductive RaiseEvent | accept | publishDone | routeDone | persistDone
  deriving DecidableEq

/-- The events: time passes, a heartbeat is received or persisted, the sleep of the scan ends, an alert of the scan or
of the listener goes on, and an alert is received from the bus or routed by its listener. -/
inductive MonitorEvent
  | elapse (d : ℚ)
  | heartbeat (heartbeat : AgentHeartbeat)
  | heartbeatPersisted
  | wake
  | scanAlert (e : RaiseEvent)
  | heartbeatAlert (e : RaiseEvent)
  | receive (i : ℕ)
  | alertRouted
  deriving DecidableEq

namespace MonitoringAgent

/-- The beginning of `_raise_alert`: the alert, and the cooldown of the record. -/
def newAlert (s : MonitoringAgent) (alertType : AlertType) (agentName : String) : SystemAlert :=
  { alertType := alertType, severity := .critical, timestamp := s.now, agentName := some agentName }

def raiseAlert (s : MonitoringAgent) (alertType : AlertType) (agentName : String) (record : AgentRecord) :
    MonitoringAgent :=
  { s with
    agents := s.agents.set agentName { record with lastAlertAt := some s.now }
    log := s.log ++ [.raised (s.newAlert alertType agentName)] }

/-- `_route_alert` up to its await. -/
def routeAlert (s : MonitoringAgent) (alert : SystemAlert) : MonitoringAgent :=
  { s with log := s.log ++ [.routed alert s.now] }

/-- One step of `_raise_alert`, and where it waits next; none once it has returned. -/
def raiseStep (s : MonitoringAgent) (alert : SystemAlert) :
    RaiseStage → RaiseEvent → Option (MonitoringAgent × Option RaiseStage)
  | .publishing, .accept => some ({ s with inFlight := s.inFlight ++ [alert] }, some .accepted)
  | .publishing, .publishDone => some (s.routeAlert alert, some .routing)
  | .accepted, .publishDone => some (s.routeAlert alert, some .routing)
  | .routing, .routeDone => some (s, some .persisting)
  | .persisting, .persistDone => some (s, none)
  | _, _ => none

/-- The record of an agent, a new one if it has none. -/
def recordOf (s : MonitoringAgent) (agentName : String) : AgentRecord :=
  (s.agents.get? agentName).getD { name := agentName }

/-- `_process_heartbeat` up to its first await. -/
def processHeartbeat (s : MonitoringAgent) (heartbeat : AgentHeartbeat) : MonitoringAgent :=
  let record := (s.recordOf heartbeat.agentName).update heartbeat s.now
  if heartbeat.status = .quarantined then
    { s.raiseAlert .agentCrash heartbeat.agentName record with
      heartbeatListener := .alerting heartbeat (s.newAlert .agentCrash heartbeat.agentName) .publishing }
  else
    { s with
      agents := s.agents.set heartbeat.agentName record
      heartbeatListener := .persisting heartbeat }

/-- The body of the scan's loop up to its await; true if it has raised an alert. -/
def visit (s : MonitoringAgent) (agentName : String) (record : AgentRecord) : MonitoringAgent × Bool :=
  let s := { s with visited := s.visited ++ [agentName] }
  if agentName = s.name then (s, false)
  else if record.isStale s.heartbeatTimeout s.now then
    let record := { record with consecutiveMissed := record.consecutiveMissed + 1 }
    if record.isAlertOnCooldown s.now then
      ({ s with
        agents := s.agents.set agentName record
        log := s.log ++ [.suppressed .agentStale agentName] }, false)
    else (s.raiseAlert .agentStale agentName record, true)
  else (s, false)

/-- The scan is over and sleeps again. -/
def endScan (s : MonitoringAgent) : MonitoringAgent :=
  { s with scan := .sleeping, scans := s.scans ++ [(s.atStart, s.visited)] }

/-- The scan over what its loop still has to come to. -/
def visitAll (it : Dict.Iter) : MonitoringAgent → List (String × AgentRecord) → MonitoringAgent
  | s, [] => s.endScan
  | s, (agentName, record) :: rest =>
    let it' : Dict.Iter := { it with pos := it.pos + 1 }
    let next := s.visit agentName record
    if next.2 then
      { next.1 with scan := .alerting it' (s.newAlert .agentStale agentName) .publishing }
    else visitAll it' next.1 rest

/-- The loop goes on; a registry that has grown ends it with an exception. -/
def resumeScan (s : MonitoringAgent) (it : Dict.Iter) : MonitoringAgent :=
  match it.rest s.agents with
  | some rest => visitAll it s rest
  | none => { s with scan := .failed }

def step (s : MonitoringAgent) : MonitorEvent → Option MonitoringAgent
  | .elapse d => if 0 ≤ d then some { s with now := s.now + d } else none
  | .heartbeat heartbeat => if s.heartbeatListener = .idle then some (s.processHeartbeat heartbeat) else none
  | .heartbeatPersisted =>
    match s.heartbeatListener with
    | .persisting _ => some { s with heartbeatListener := .idle }
    | _ => none
  | .wake =>
    if s.scan = .sleeping then
      some (({ s with atStart := s.agents.keys, visited := [] } : MonitoringAgent).resumeScan s.agents.iter)
    else none
  | .scanAlert e =>
    match s.scan with
    | .alerting it alert stage =>
      match s.raiseStep alert stage e with
      | some (s', some stage') => some { s' with scan := .alerting it alert stage' }
      | some (s', none) => some (s'.resumeScan it)
      | none => none
    | _ => none
  | .heartbeatAlert e =>
    match s.heartbeatListener with
    | .alerting heartbeat alert stage =>
      match s.raiseStep alert stage e with
      | some (s', some stage') => some { s' with heartbeatListener := .alerting heartbeat alert stage' }
      | some (s', none) => some { s' with heartbeatListener := .persisting heartbeat }
      | none => none
    | _ => none
  | .receive i =>
    match s.inFlight[i]?, s.alertListener with
    | some alert, .idle =>
      some { s.routeAlert alert with inFlight := s.inFlight.eraseIdx i, alertListener := .routing alert }
    | _, _ => none
  | .alertRouted =>
    match s.alertListener with
    | .routing _ => some { s with alertListener := .idle }
    | .idle => none

end MonitoringAgent

end MultiAgentTrading.Monitoring
