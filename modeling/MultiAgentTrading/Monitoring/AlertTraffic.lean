import MultiAgentTrading.Monitoring.Cooldown
import Mathlib.Data.List.Perm.Basic
import Mathlib.Logic.Function.Basic

/-!
# The times of alerts

A run of the monitoring agent with the times of what goes in and out of it: when an agent reported a quarantine, when
the publishing of an alert had ended, and when an alert came back from the bus.  `Effect` lists what one step can do to
the alerts on their way, and `step_effect` says that this is all.
-/

namespace MultiAgentTrading.Monitoring

open Runs MonitoringAgent
open Control (AgentHeartbeat)

/-- When heartbeats reported an agent quarantined, when alerts had been published, and when they came back. -/
structure Traffic where
  reports : List (String × ℚ) := []
  published : List (SystemAlert × ℚ) := []
  received : List (SystemAlert × ℚ) := []

/-- The time of the event is noted. -/
def Traffic.after (t : Traffic) (s : MonitoringAgent) : MonitorEvent → Traffic
  | .heartbeat heartbeat =>
    if heartbeat.status = .quarantined then { t with reports := t.reports ++ [(heartbeat.agentName, s.now)] } else t
  | .scanAlert .publishDone =>
    match s.scan with
    | .alerting _ alert _ => { t with published := t.published ++ [(alert, s.now)] }
    | _ => t
  | .heartbeatAlert .publishDone =>
    match s.heartbeatListener with
    | .alerting _ alert _ => { t with published := t.published ++ [(alert, s.now)] }
    | _ => t
  | .receive i =>
    match s.inFlight[i]? with
    | some alert => { t with received := t.received ++ [(alert, s.now)] }
    | none => t
  | _ => t

structure Monitored where
  agent : MonitoringAgent
  traffic : Traffic := {}

namespace Monitored

def step (m : Monitored) (e : MonitorEvent) : Option Monitored :=
  (m.agent.step e).map fun agent => ⟨agent, m.traffic.after m.agent e⟩

end Monitored

/-! ### What a step does to the alerts -/

/-- The two tasks that raise alerts. -/
inductive AlertTask | scan | listener
  deriving DecidableEq

def AlertTask.alertType : AlertTask → AlertType
  | .scan => .agentStale
  | .listener => .agentCrash

/-- The alert that waits to be routed, and whether the bus has taken it. -/
def RaiseStage.waiting (alert : SystemAlert) : RaiseStage → Option (SystemAlert × Bool)
  | .publishing => some (alert, false)
  | .accepted => some (alert, true)
  | _ => none

/-- What the tasks have under way. -/
def MonitoringAgent.waiting (s : MonitoringAgent) : AlertTask → Option (SystemAlert × Bool)
  | .scan =>
    match s.scan with
    | .alerting _ alert stage => stage.waiting alert
    | _ => none
  | .listener =>
    match s.heartbeatListener with
    | .alerting _ alert stage => stage.waiting alert
    | _ => none

/-- The alerts on their way, and where they have been. -/
structure AlertView where
  waiting : AlertTask → Option (SystemAlert × Bool)
  raised : List SystemAlert
  routed : List (SystemAlert × ℚ)
  inFlight : List SystemAlert
  traffic : Traffic

namespace Monitored

def view (m : Monitored) : AlertView where
  waiting := m.agent.waiting
  raised := raisedAlerts m.agent.log
  routed := routes m.agent.log
  inFlight := m.agent.inFlight
  traffic := m.traffic

/-- The alert that an event may raise: of a heartbeat that reports a quarantine, or of an agent that the scan finds
stale and not on cooldown. -/
def Raises (m : Monitored) : MonitorEvent → SystemAlert → Prop
  | .heartbeat heartbeat, alert =>
    heartbeat.status = .quarantined ∧ alert = m.agent.newAlert .agentCrash heartbeat.agentName
  | .wake, alert | .scanAlert .persistDone, alert =>
    ∃ p ∈ m.agent.agents.entries, p.1 ≠ m.agent.name ∧ p.2.isStale m.agent.heartbeatTimeout m.agent.now = true ∧
      p.2.isAlertOnCooldown m.agent.now = false ∧ alert = m.agent.newAlert .agentStale p.1
  | _, _ => False

/-- What one step can do: nothing; raise an alert, have the bus take it, or route it once it is published; or route an
alert that comes back. -/
inductive Effect (m : Monitored) (e : MonitorEvent) : AlertView → Prop
  | none : Effect m e m.view
  | raise (task : AlertTask) (alert : SystemAlert) (reports : List (String × ℚ))
      (hidle : m.agent.waiting task = none) (hraises : m.Raises e alert) (htype : alert.alertType = task.alertType)
      (hreports : ∀ report, report ∈ reports ↔ report ∈ m.traffic.reports ∨
        alert.alertType = .agentCrash ∧ alert.agentName = some report.1 ∧ report.2 = m.agent.now) :
      Effect m e
        { m.view with
          waiting := Function.update m.agent.waiting task (some (alert, false))
          raised := raisedAlerts m.agent.log ++ [alert]
          traffic := { m.traffic with reports := reports } }
  | send (task : AlertTask) (alert : SystemAlert) (hwaiting : m.agent.waiting task = some (alert, false)) :
      Effect m e
        { m.view with
          waiting := Function.update m.agent.waiting task (some (alert, true))
          inFlight := m.agent.inFlight ++ [alert] }
  | publish (task : AlertTask) (alert : SystemAlert) (sent : Bool)
      (hwaiting : m.agent.waiting task = some (alert, sent)) :
      Effect m e
        { m.view with
          waiting := Function.update m.agent.waiting task none
          routed := routes m.agent.log ++ [(alert, m.agent.now)]
          traffic := { m.traffic with published := m.traffic.published ++ [(alert, m.agent.now)] } }
  | receive (i : ℕ) (alert : SystemAlert) (he : e = .receive i) (hget : m.agent.inFlight[i]? = some alert) :
      Effect m e
        { m.view with
          inFlight := m.agent.inFlight.eraseIdx i
          routed := routes m.agent.log ++ [(alert, m.agent.now)]
          traffic := { m.traffic with received := m.traffic.received ++ [(alert, m.agent.now)] } }

/-! ### The scan -/

section Scan

variable {s : MonitoringAgent}

/-- What the scan leaves alone. -/
private structure Aside (s s' : MonitoringAgent) : Prop where
  routed : routes s'.log = routes s.log
  inFlight : s'.inFlight = s.inFlight
  listener : s'.heartbeatListener = s.heartbeatListener

/-- The scan comes to the end of its loop, or raises the alert of one of the agents it comes to. -/
private theorem visitAll_cases (it : Dict.Iter) (rest : List (String × AgentRecord)) :
    Aside s (MonitoringAgent.visitAll it s rest) ∧
      ((raisedAlerts (MonitoringAgent.visitAll it s rest).log = raisedAlerts s.log ∧
          (MonitoringAgent.visitAll it s rest).scan = .sleeping) ∨
        ∃ p ∈ rest, p.1 ≠ s.name ∧ p.2.isStale s.heartbeatTimeout s.now = true ∧
          p.2.isAlertOnCooldown s.now = false ∧
          raisedAlerts (MonitoringAgent.visitAll it s rest).log =
            raisedAlerts s.log ++ [s.newAlert .agentStale p.1] ∧
          ∃ it', (MonitoringAgent.visitAll it s rest).scan =
            .alerting it' (s.newAlert .agentStale p.1) .publishing) := by
  induction rest generalizing s it with
  | nil => exact ⟨⟨rfl, rfl, rfl⟩, .inl ⟨rfl, rfl⟩⟩
  | cons p rest ih =>
    obtain ⟨agentName, record⟩ := p
    unfold MonitoringAgent.visitAll
    rcases visit_cases s agentName record with hvisit | ⟨hname, hold, hcooldown, hvisit⟩ |
      ⟨hname, hold, hcooldown, hvisit⟩
    · rw [hvisit]
      obtain ⟨haside, hlog⟩ := ih (s := { s with visited := s.visited ++ [agentName] }) { it with pos := it.pos + 1 }
      refine ⟨⟨haside.routed, haside.inFlight, haside.listener⟩, hlog.imp_right ?_⟩
      rintro ⟨p, hp, hrest⟩
      exact ⟨p, List.mem_cons_of_mem _ hp, hrest⟩
    · rw [hvisit]
      obtain ⟨haside, hlog⟩ := ih (s := { s with
        visited := s.visited ++ [agentName]
        agents := s.agents.set agentName { record with consecutiveMissed := record.consecutiveMissed + 1 }
        log := s.log ++ [.suppressed .agentStale agentName] }) { it with pos := it.pos + 1 }
      rw [raisedAlerts_suppress] at hlog
      refine ⟨⟨haside.routed.trans (routes_suppress _ _ _), haside.inFlight, haside.listener⟩, hlog.imp_right ?_⟩
      rintro ⟨p, hp, hrest⟩
      exact ⟨p, List.mem_cons_of_mem _ hp, hrest⟩
    · rw [hvisit]
      exact ⟨⟨(routes_append _ _).trans (List.append_nil _), rfl, rfl⟩,
        .inr ⟨_, List.mem_cons_self, hname, hold, hcooldown, raisedAlerts_append _ _, _, rfl⟩⟩

/-- When the loop starts or goes on nothing of the scan waits. -/
private theorem resumeScan_cases (it : Dict.Iter) :
    Aside s (s.resumeScan it) ∧
      ((raisedAlerts (s.resumeScan it).log = raisedAlerts s.log ∧ (s.resumeScan it).waiting .scan = none) ∨
        ∃ p ∈ s.agents.entries, p.1 ≠ s.name ∧ p.2.isStale s.heartbeatTimeout s.now = true ∧
          p.2.isAlertOnCooldown s.now = false ∧
          raisedAlerts (s.resumeScan it).log = raisedAlerts s.log ++ [s.newAlert .agentStale p.1] ∧
          (s.resumeScan it).waiting .scan = some (s.newAlert .agentStale p.1, false)) := by
  unfold MonitoringAgent.resumeScan
  cases hrest : it.rest s.agents with
  | none => exact ⟨⟨rfl, rfl, rfl⟩, .inl ⟨rfl, rfl⟩⟩
  | some rest =>
    obtain ⟨-, heq⟩ := Option.ite_none_right_eq_some.1 hrest
    cases heq
    obtain ⟨haside, ⟨hraised, hscan⟩ | ⟨p, hp, hname, hstale, hcooldown, hraised, it', hscan⟩⟩ :=
      visitAll_cases (s := s) it (s.agents.entries.drop it.pos)
    · exact ⟨haside, .inl ⟨hraised, by simp only [waiting, hscan]⟩⟩
    · exact ⟨haside, .inr ⟨p, List.mem_of_mem_drop hp, hname, hstale, hcooldown, hraised,
        by simp only [waiting, hscan, RaiseStage.waiting]⟩⟩

end Scan

section Effect

variable {m : Monitored} {e : MonitorEvent} {agent : MonitoringAgent} {traffic : Traffic} {task : AlertTask}
  {alert : SystemAlert}

private theorem update_scan {s s' : MonitoringAgent} (h : s'.heartbeatListener = s.heartbeatListener) :
    s'.waiting = Function.update s.waiting .scan (s'.waiting .scan) := by
  refine Function.eq_update_iff.2 ⟨rfl, fun task hne => ?_⟩
  cases task with
  | scan => exact absurd rfl hne
  | listener => simp only [waiting, h]

private theorem update_listener {s s' : MonitoringAgent} (h : s'.scan = s.scan) :
    s'.waiting = Function.update s.waiting .listener (s'.waiting .listener) := by
  refine Function.eq_update_iff.2 ⟨rfl, fun task hne => ?_⟩
  cases task with
  | scan => simp only [waiting, h]
  | listener => exact absurd rfl hne

private theorem waiting_eq {s s' : MonitoringAgent} (hscan : s'.scan = s.scan) (hidle : s.waiting .listener = none)
    (hidle' : s'.waiting .listener = none) : s'.waiting = s.waiting := by
  rw [update_listener hscan, hidle', ← hidle, Function.update_eq_self]

private theorem effect_none (hwaiting : agent.waiting = m.agent.waiting)
    (hraised : raisedAlerts agent.log = raisedAlerts m.agent.log) (hrouted : routes agent.log = routes m.agent.log)
    (hinFlight : agent.inFlight = m.agent.inFlight) : m.Effect e (view ⟨agent, m.traffic⟩) := by
  unfold view
  rw [hwaiting, hraised, hrouted, hinFlight]
  exact .none

private theorem effect_raise {reports : List (String × ℚ)} (hidle : m.agent.waiting task = none)
    (hwaiting : agent.waiting = Function.update m.agent.waiting task (some (alert, false)))
    (hraised : raisedAlerts agent.log = raisedAlerts m.agent.log ++ [alert])
    (hrouted : routes agent.log = routes m.agent.log) (hinFlight : agent.inFlight = m.agent.inFlight)
    (hraises : m.Raises e alert) (htype : alert.alertType = task.alertType)
    (hreports : ∀ report, report ∈ reports ↔ report ∈ m.traffic.reports ∨
      alert.alertType = .agentCrash ∧ alert.agentName = some report.1 ∧ report.2 = m.agent.now) :
    m.Effect e (view ⟨agent, { m.traffic with reports := reports }⟩) := by
  unfold view
  rw [hwaiting, hraised, hrouted, hinFlight]
  exact .raise task alert reports hidle hraises htype hreports

/-- A step of the alert that a task has under way, short of its end. -/
private theorem effect_raiseStep {stage stage' : RaiseStage} {re : RaiseEvent} {mid : MonitoringAgent}
    (hstage : m.agent.waiting task = stage.waiting alert)
    (hraise : m.agent.raiseStep alert stage re = some (mid, some stage'))
    (hwaiting : agent.waiting = Function.update m.agent.waiting task (stage'.waiting alert))
    (hlog : agent.log = mid.log) (hinFlight : agent.inFlight = mid.inFlight)
    (htraffic : traffic = if re = .publishDone then
      { m.traffic with published := m.traffic.published ++ [(alert, m.agent.now)] } else m.traffic) :
    m.Effect e (view ⟨agent, traffic⟩) := by
  unfold view
  rw [hwaiting, hlog, hinFlight, htraffic]
  rcases raiseStep_cases hraise with ⟨rfl, rfl, rfl, ⟨⟩⟩ | ⟨rfl, hunrouted, rfl, ⟨⟩⟩ | ⟨rfl, rfl, rfl, ⟨⟩⟩ |
    ⟨-, -, -, hnext⟩
  · exact .send task alert hstage
  · obtain ⟨sent, hsent⟩ : ∃ sent, m.agent.waiting task = some (alert, sent) := by
      cases stage with
      | publishing => exact ⟨false, hstage⟩
      | accepted => exact ⟨true, hstage⟩
      | routing => cases hunrouted
      | persisting => cases hunrouted
    rw [routes_route, raisedAlerts_route]
    exact .publish task alert sent hsent
  · have hnone : RaiseStage.persisting.waiting alert = m.agent.waiting task := hstage.symm
    rw [hnone, Function.update_eq_self]
    exact .none
  · cases hnext

private theorem effect_receive {i : ℕ} (hget : m.agent.inFlight[i]? = some alert)
    (hwaiting : agent.waiting = m.agent.waiting) (hraised : raisedAlerts agent.log = raisedAlerts m.agent.log)
    (hrouted : routes agent.log = routes m.agent.log ++ [(alert, m.agent.now)])
    (hinFlight : agent.inFlight = m.agent.inFlight.eraseIdx i) :
    m.Effect (.receive i)
      (view ⟨agent, { m.traffic with received := m.traffic.received ++ [(alert, m.agent.now)] }⟩) := by
  unfold view
  rw [hwaiting, hraised, hrouted, hinFlight]
  exact .receive i alert rfl hget

/-- A scan that goes on does nothing to the alerts, or raises one. -/
private theorem effect_resumeScan {mid : MonitoringAgent} {it : Dict.Iter} (hidle : m.agent.waiting .scan = none)
    (hlog : mid.log = m.agent.log) (hinFlight : mid.inFlight = m.agent.inFlight)
    (hlistener : mid.heartbeatListener = m.agent.heartbeatListener)
    (hraises : ∀ p ∈ mid.agents.entries, p.1 ≠ mid.name → p.2.isStale mid.heartbeatTimeout mid.now = true →
      p.2.isAlertOnCooldown mid.now = false → m.Raises e (mid.newAlert .agentStale p.1)) :
    m.Effect e (view ⟨mid.resumeScan it, m.traffic⟩) := by
  obtain ⟨haside, hcases⟩ := resumeScan_cases (s := mid) it
  have hwaiting := update_scan (haside.listener.trans hlistener)
  have hrouted : routes (mid.resumeScan it).log = routes m.agent.log := haside.routed.trans (by rw [hlog])
  have hinFlight' := haside.inFlight.trans hinFlight
  rw [hlog] at hcases
  rcases hcases with ⟨hraised, hnone⟩ | ⟨p, hp, hname, hstale, hcooldown, hraised, hnew⟩
  · rw [hnone, ← hidle, Function.update_eq_self] at hwaiting
    exact effect_none hwaiting hraised hrouted hinFlight'
  · rw [hnew] at hwaiting
    refine effect_raise hidle hwaiting hraised hrouted hinFlight' (hraises p hp hname hstale hcooldown) rfl
      fun report => ?_
    exact ⟨.inl, fun h => h.resolve_right fun hcrash => nomatch hcrash.1⟩

/-- A heartbeat raises an alert if it reports a quarantine. -/
private theorem effect_heartbeat (heartbeat : AgentHeartbeat) (hidle : m.agent.waiting .listener = none) :
    m.Effect (.heartbeat heartbeat)
      (view ⟨m.agent.processHeartbeat heartbeat, m.traffic.after m.agent (.heartbeat heartbeat)⟩) := by
  by_cases hstatus : heartbeat.status = .quarantined
  · have hprocess : m.agent.processHeartbeat heartbeat =
        { m.agent.raiseAlert .agentCrash heartbeat.agentName
            ((m.agent.recordOf heartbeat.agentName).update heartbeat m.agent.now) with
          heartbeatListener := .alerting heartbeat (m.agent.newAlert .agentCrash heartbeat.agentName)
            .publishing } := if_pos hstatus
    have htraffic : m.traffic.after m.agent (.heartbeat heartbeat) =
        { m.traffic with reports := m.traffic.reports ++ [(heartbeat.agentName, m.agent.now)] } := if_pos hstatus
    rw [hprocess, htraffic]
    refine effect_raise hidle (update_listener rfl) (raisedAlerts_append _ _)
      ((routes_append _ _).trans (List.append_nil _)) rfl ⟨hstatus, rfl⟩ rfl fun report => ?_
    rw [List.mem_append, List.mem_singleton]
    refine or_congr_right ⟨?_, ?_⟩
    · rintro rfl
      exact ⟨rfl, rfl, rfl⟩
    · rintro ⟨-, hname, htime⟩
      exact Prod.ext (Option.some.inj hname).symm htime
  · have hprocess : m.agent.processHeartbeat heartbeat =
        { m.agent with
          agents := m.agent.agents.set heartbeat.agentName
            ((m.agent.recordOf heartbeat.agentName).update heartbeat m.agent.now)
          heartbeatListener := .persisting heartbeat } := if_neg hstatus
    have htraffic : m.traffic.after m.agent (.heartbeat heartbeat) = m.traffic := if_neg hstatus
    rw [hprocess, htraffic]
    exact effect_none (waiting_eq rfl hidle rfl) rfl rfl rfl

end Effect

/-- What a step does to the alerts is one of the effects. -/
theorem step_effect {m m' : Monitored} {e : MonitorEvent} (h : m.step e = some m') : m.Effect e m'.view := by
  obtain ⟨agent, hstep, rfl⟩ := Option.map_eq_some_iff.1 h
  cases e with
  | elapse d =>
    obtain ⟨-, heq⟩ := Option.ite_none_right_eq_some.1 hstep
    cases heq
    exact .none
  | heartbeat heartbeat =>
    obtain ⟨hidle, heq⟩ := Option.ite_none_right_eq_some.1 hstep
    cases heq
    exact effect_heartbeat heartbeat (by simp only [waiting, hidle])
  | heartbeatPersisted =>
    obtain ⟨heartbeat, hlistener⟩ : ∃ heartbeat, m.agent.heartbeatListener = .persisting heartbeat := by
      simp only [MonitoringAgent.step] at hstep
      split at hstep
      case h_1 heartbeat hlistener => exact ⟨heartbeat, hlistener⟩
      case h_2 => cases hstep
    obtain rfl := heartbeatPersisted_eq hstep
    have hidle : m.agent.waiting .listener = none := by simp only [waiting, hlistener]
    exact effect_none (waiting_eq rfl hidle rfl) rfl rfl rfl
  | wake =>
    obtain ⟨hsleeping, heq⟩ := Option.ite_none_right_eq_some.1 hstep
    cases heq
    exact effect_resumeScan (by simp only [waiting, hsleeping]) rfl rfl rfl
      fun p hp hname hstale hcooldown => ⟨p, hp, hname, hstale, hcooldown, rfl⟩
  | scanAlert re =>
    obtain ⟨it, alert, stage, mid, next, hscan, hraise, ⟨stage', rfl, rfl⟩ | ⟨rfl, rfl⟩⟩ := scanAlert_cases hstep
    · have hlistener : mid.heartbeatListener = m.agent.heartbeatListener := by
        rcases raiseStep_cases hraise with ⟨-, -, rfl, -⟩ | ⟨-, -, rfl, -⟩ | ⟨-, -, rfl, -⟩ | ⟨-, -, rfl, -⟩ <;> rfl
      refine effect_raiseStep (by simp only [waiting, hscan]) hraise (update_scan hlistener) rfl rfl ?_
      cases re <;> simp only [Traffic.after, hscan]
      all_goals rfl
    · rcases raiseStep_cases hraise with ⟨-, -, -, hnext⟩ | ⟨-, -, -, hnext⟩ | ⟨-, -, -, hnext⟩ | ⟨rfl, rfl, rfl, -⟩
      · cases hnext
      · cases hnext
      · cases hnext
      · exact effect_resumeScan (by simp only [waiting, hscan, RaiseStage.waiting]) rfl rfl rfl
          fun p hp hname hstale hcooldown => ⟨p, hp, hname, hstale, hcooldown, rfl⟩
  | heartbeatAlert re =>
    obtain ⟨heartbeat, alert, stage, mid, next, hlistener, hraise, ⟨stage', rfl, rfl⟩ | ⟨rfl, rfl⟩⟩ :=
      heartbeatAlert_cases hstep
    · refine effect_raiseStep (by simp only [waiting, hlistener]) hraise
        (update_listener (raiseStep_same hraise).2.2.1) rfl rfl ?_
      cases re <;> simp only [Traffic.after, hlistener]
      all_goals rfl
    · rcases raiseStep_cases hraise with ⟨-, -, -, hnext⟩ | ⟨-, -, -, hnext⟩ | ⟨-, -, -, hnext⟩ | ⟨rfl, rfl, rfl, -⟩
      · cases hnext
      · cases hnext
      · cases hnext
      · have hidle : m.agent.waiting .listener = none := by simp only [waiting, hlistener, RaiseStage.waiting]
        exact effect_none (waiting_eq rfl hidle rfl) rfl rfl rfl
  | receive i =>
    obtain ⟨alert, hget, rfl⟩ := receive_cases hstep
    have htraffic : m.traffic.after m.agent (.receive i) =
        { m.traffic with received := m.traffic.received ++ [(alert, m.agent.now)] } := by
      simp only [Traffic.after, hget]
    rw [htraffic]
    exact effect_receive hget rfl raisedAlerts_route routes_route rfl
  | alertRouted =>
    obtain rfl := alertRouted_eq hstep
    exact .none

/-! ### The times and the calls -/

/-- The calls of `_route_alert` are those after a publication and those for an alert that came back. -/
def Noted (v : AlertView) : Prop := (v.traffic.published ++ v.traffic.received).Perm v.routed

theorem Effect.noted {m : Monitored} {e : MonitorEvent} {v : AlertView} (h : m.Effect e v) (hnoted : Noted m.view) :
    Noted v := by
  cases h with
  | none => exact hnoted
  | raise task alert reports => exact hnoted
  | send task alert => exact hnoted
  | publish task alert sent =>
    show (m.traffic.published ++ [(alert, m.agent.now)] ++ m.traffic.received).Perm (routes m.agent.log ++ _)
    rw [List.append_assoc]
    exact (List.perm_middle.trans (hnoted.cons _)).trans (List.perm_append_singleton _ _).symm
  | receive i alert =>
    show (m.traffic.published ++ (m.traffic.received ++ [(alert, m.agent.now)])).Perm (routes m.agent.log ++ _)
    rw [← List.append_assoc]
    exact hnoted.append_right _

end Monitored

end MultiAgentTrading.Monitoring
