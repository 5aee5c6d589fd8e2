import MultiAgentTrading.Monitoring.Watchdog
import Mathlib.Tactic.Linarith

/-!
# The cooldown of alerts

Only the scan consults the cooldown, the record keeps one cooldown for all types, from the time an alert is raised, and
an alert is routed by the agent that raised it and again when it comes back from the bus.  `CallsApart` says, in terms
of the calls of `_route_alert` so far, when a step keeps them apart; in a run of such steps every alert that waits to be
routed is due (`Due`), and a record's last alert is one of those raised (`Logged`).
-/

namespace MultiAgentTrading.Monitoring

open Runs
open Control (AgentHeartbeat)

/-! ### The log -/

/-- The calls of `_route_alert`, with their times. -/
def routes (log : List AlertEntry) : List (SystemAlert × ℚ) :=
  log.filterMap fun entry =>
    match entry with
    | .routed alert time => some (alert, time)
    | _ => none

def raisedAlerts (log : List AlertEntry) : List SystemAlert :=
  log.filterMap fun entry =>
    match entry with
    | .raised alert => some alert
    | _ => none

/-- Alerts of one type about one agent. -/
def SystemAlert.SameKind (alert alert' : SystemAlert) : Prop :=
  alert.alertType = alert'.alertType ∧ alert.agentName = alert'.agentName

instance (alert alert' : SystemAlert) : Decidable (alert.SameKind alert') :=
  inferInstanceAs (Decidable (alert.alertType = alert'.alertType ∧ alert.agentName = alert'.agentName))

/-- The alert is of this type and about this agent. -/
def SystemAlert.Is (alert : SystemAlert) (alertType : AlertType) (agentName : String) : Prop :=
  alert.alertType = alertType ∧ alert.agentName = some agentName

instance (alert : SystemAlert) (alertType : AlertType) (agentName : String) :
    Decidable (alert.Is alertType agentName) :=
  inferInstanceAs (Decidable (alert.alertType = alertType ∧ alert.agentName = some agentName))

def RaisedIn (log : List AlertEntry) (alertType : AlertType) (agentName : String) : Prop :=
  ∃ alert ∈ raisedAlerts log, alert.Is alertType agentName

instance (log : List AlertEntry) (alertType : AlertType) (agentName : String) :
    Decidable (RaisedIn log alertType agentName) :=
  inferInstanceAs (Decidable (∃ alert ∈ raisedAlerts log, alert.Is alertType agentName))

/-- Two calls for alerts of one type about one agent are the cooldown apart. -/
def Spaced (log : List AlertEntry) : Prop :=
  (routes log).Pairwise fun r r' => r.1.SameKind r'.1 → r.2 + alertCooldownSeconds ≤ r'.2

instance (log : List AlertEntry) : Decidable (Spaced log) := inferInstanceAs (Decidable ((routes log).Pairwise _))

/-- An alert is held back only if one of its type about its agent was raised before. -/
def FirstNotSuppressed (log : List AlertEntry) : Prop :=
  ∀ i alertType agentName, log[i]? = some (.suppressed alertType agentName) → RaisedIn (log.take i) alertType agentName

/-- One notification per cooldown, and the first alert of every type. -/
def Deduplicated (log : List AlertEntry) : Prop := Spaced log ∧ FirstNotSuppressed log

theorem routes_append (log log' : List AlertEntry) : routes (log ++ log') = routes log ++ routes log' :=
  List.filterMap_append

theorem raisedAlerts_append (log log' : List AlertEntry) :
    raisedAlerts (log ++ log') = raisedAlerts log ++ raisedAlerts log' := List.filterMap_append

private theorem RaisedIn.append {log : List AlertEntry} {alertType : AlertType} {agentName : String}
    (h : RaisedIn log alertType agentName) (log' : List AlertEntry) : RaisedIn (log ++ log') alertType agentName := by
  obtain ⟨alert, hmem, his⟩ := h
  exact ⟨alert, by rw [raisedAlerts_append]; exact List.mem_append_left _ hmem, his⟩

/-- One more entry: if it holds an alert back, one of its type has been raised. -/
private theorem FirstNotSuppressed.concat {log : List AlertEntry} (h : FirstNotSuppressed log) {entry : AlertEntry}
    (hentry : ∀ alertType agentName, entry = .suppressed alertType agentName → RaisedIn log alertType agentName) :
    FirstNotSuppressed (log ++ [entry]) := by
  intro i alertType agentName hget
  rcases lt_trichotomy i log.length with hi | rfl | hi
  · rw [List.getElem?_append_left hi] at hget
    rw [List.take_append_of_le_length hi.le]
    exact h i alertType agentName hget
  · rw [List.getElem?_concat_length] at hget
    rw [List.take_left' rfl]
    exact hentry alertType agentName (Option.some.inj hget)
  · rw [List.getElem?_eq_none (by rw [List.length_append, List.length_singleton]; omega)] at hget
    cases hget

namespace RaiseStage

/-- `_route_alert` has not been called yet. -/
def unrouted : RaiseStage → Bool
  | .publishing => true
  | .accepted => true
  | _ => false

end RaiseStage

namespace MonitoringAgent

/-- The alert of the scan that waits to be routed. -/
def scanUnrouted (s : MonitoringAgent) : Option SystemAlert :=
  match s.scan with
  | .alerting _ alert stage => if stage.unrouted then some alert else none
  | _ => none

/-- The alert of the heartbeat listener that waits to be routed. -/
def listenerUnrouted (s : MonitoringAgent) : Option SystemAlert :=
  match s.heartbeatListener with
  | .alerting _ alert stage => if stage.unrouted then some alert else none
  | _ => none

/-- The alerts that wait to be routed. -/
def unrouted (s : MonitoringAgent) : List SystemAlert := s.scanUnrouted.toList ++ s.listenerUnrouted.toList

/-- An alert of this type about this agent was raised less than the cooldown ago. -/
def RaisedRecently (s : MonitoringAgent) (alertType : AlertType) (agentName : String) : Prop :=
  ∃ alert ∈ raisedAlerts s.log, alert.Is alertType agentName ∧ s.now < alert.timestamp + alertCooldownSeconds

instance (s : MonitoringAgent) (alertType : AlertType) (agentName : String) :
    Decidable (s.RaisedRecently alertType agentName) :=
  inferInstanceAs (Decidable (∃ alert ∈ raisedAlerts s.log, alert.Is alertType agentName ∧ _))

/-- An alert of this kind was routed less than the cooldown ago. -/
def RoutedRecently (s : MonitoringAgent) (alert : SystemAlert) : Prop :=
  ∃ r ∈ routes s.log, r.1.SameKind alert ∧ s.now < r.2 + alertCooldownSeconds

instance (s : MonitoringAgent) (alert : SystemAlert) : Decidable (s.RoutedRecently alert) :=
  inferInstanceAs (Decidable (∃ r ∈ routes s.log, r.1.SameKind alert ∧ _))

/-- And later than it was raised: it came back from the bus, or its publishing took time. -/
def RoutedLate (s : MonitoringAgent) (alert : SystemAlert) : Prop :=
  ∃ r ∈ routes s.log, r.1.SameKind alert ∧ r.1.timestamp < r.2 ∧ s.now < r.2 + alertCooldownSeconds

instance (s : MonitoringAgent) (alert : SystemAlert) : Decidable (s.RoutedLate alert) :=
  inferInstanceAs (Decidable (∃ r ∈ routes s.log, r.1.SameKind alert ∧ _ ∧ _))

/-- The cooldown is right about an agent that the scan finds stale: in the cooldown of a crash alert it has had a stale
alert before, and out of its cooldown none of its stale alerts has been routed late. -/
def RightAbout (s : MonitoringAgent) (agentName : String) (record : AgentRecord) : Prop :=
  (s.RaisedRecently .agentCrash agentName → RaisedIn s.log .agentStale agentName) ∧
    (record.isAlertOnCooldown s.now = false → ¬s.RoutedLate (s.newAlert .agentStale agentName))

instance (s : MonitoringAgent) (agentName : String) (record : AgentRecord) :
    Decidable (s.RightAbout agentName record) := inferInstanceAs (Decidable (_ ∧ _))

def ScanRight (s : MonitoringAgent) : Prop :=
  ∀ p ∈ s.agents.entries, p.1 ≠ s.name → p.2.isStale s.heartbeatTimeout s.now = true → s.RightAbout p.1 p.2

instance (s : MonitoringAgent) : Decidable s.ScanRight :=
  inferInstanceAs (Decidable (∀ p ∈ s.agents.entries, p.1 ≠ s.name → _))

/-- No agent reports a quarantine in the cooldown of its last crash alert, no alert comes back while one of its kind
waits to be routed or in its cooldown, and the scan finds the cooldown right. -/
def CallsApart (s : MonitoringAgent) : MonitorEvent → Prop
  | .heartbeat heartbeat =>
    heartbeat.status = .quarantined → ¬s.RoutedRecently (s.newAlert .agentCrash heartbeat.agentName)
  | .receive i => ∀ alert ∈ s.inFlight[i]?, ¬s.RoutedRecently alert ∧ ∀ other ∈ s.unrouted, ¬alert.SameKind other
  | .wake => s.ScanRight
  | .scanAlert .persistDone => s.ScanRight
  | _ => True

instance CallsApart.decidable (s : MonitoringAgent) : ∀ e, Decidable (s.CallsApart e)
  | .elapse _ => isTrue trivial
  | .heartbeat heartbeat => inferInstanceAs (Decidable (heartbeat.status = .quarantined → _))
  | .receive i => inferInstanceAs (Decidable (∀ alert ∈ s.inFlight[i]?, _ ∧ ∀ other ∈ s.unrouted, _))
  | .wake => inferInstanceAs (Decidable s.ScanRight)
  | .scanAlert .persistDone => inferInstanceAs (Decidable s.ScanRight)
  | .scanAlert .accept => isTrue trivial
  | .scanAlert .publishDone => isTrue trivial
  | .scanAlert .routeDone => isTrue trivial
  | .heartbeatPersisted => isTrue trivial
  | .heartbeatAlert _ => isTrue trivial
  | .alertRouted => isTrue trivial

/-! ### The invariant -/

/-- An alert that has been raised, and the last one of its kind was routed the cooldown ago. -/
structure Due (s : MonitoringAgent) (alert : SystemAlert) : Prop where
  raised : alert ∈ raisedAlerts s.log
  apart : ∀ r ∈ routes s.log, r.1.SameKind alert → r.2 + alertCooldownSeconds ≤ s.now

/-- What such steps keep of the log and the records. -/
structure Logged (s : MonitoringAgent) : Prop where
  sent : ∀ alert ∈ s.inFlight, alert ∈ raisedAlerts s.log
  raised_le : ∀ alert ∈ raisedAlerts s.log, alert.timestamp ≤ s.now
  routed : ∀ r ∈ routes s.log, r.1 ∈ raisedAlerts s.log ∧ r.1.timestamp ≤ r.2
  recorded : ∀ alert ∈ raisedAlerts s.log, ∀ agentName, alert.agentName = some agentName →
    ∃ record t, s.agents.get? agentName = some record ∧ record.lastAlertAt = some t ∧ alert.timestamp ≤ t
  origin : ∀ agentName record t, s.agents.get? agentName = some record → record.lastAlertAt = some t →
    ∃ alert ∈ raisedAlerts s.log, alert.timestamp = t ∧
      (alert.Is .agentCrash agentName ∨ alert.Is .agentStale agentName)
  deduplicated : Deduplicated s.log

/-- With the alerts that wait to be routed: one of the scan, and one of the heartbeat listener. -/
structure Cooled (s : MonitoringAgent) : Prop extends Logged s where
  scanDue : ∀ alert, s.scanUnrouted = some alert → alert.alertType = .agentStale ∧ s.Due alert
  listenerDue : ∀ alert, s.listenerUnrouted = some alert → alert.alertType = .agentCrash ∧ s.Due alert

/-- Log and records are what matters, and the time. -/
private theorem Logged.congr {s s' : MonitoringAgent} (h : s.Logged) (hnow : s'.now = s.now) (hlog : s'.log = s.log)
    (hagents : s'.agents = s.agents) (hsent : ∀ alert ∈ s'.inFlight, alert ∈ raisedAlerts s.log) : s'.Logged where
  sent := by rw [hlog]; exact hsent
  raised_le := by rw [hnow, hlog]; exact h.raised_le
  routed := by rw [hlog]; exact h.routed
  recorded := by rw [hlog, hagents]; exact h.recorded
  origin := by rw [hlog, hagents]; exact h.origin
  deduplicated := by rw [hlog]; exact h.deduplicated

private theorem Due.congr {s s' : MonitoringAgent} {alert : SystemAlert} (h : s.Due alert) (hnow : s'.now = s.now)
    (hlog : s'.log = s.log) : s'.Due alert where
  raised := hlog ▸ h.raised
  apart := by rw [hnow, hlog]; exact h.apart

/-- A step that leaves log, records, time and waiting alerts alone. -/
private theorem Cooled.congr {s s' : MonitoringAgent} (h : s.Cooled) (hnow : s'.now = s.now) (hlog : s'.log = s.log)
    (hagents : s'.agents = s.agents) (hsent : ∀ alert ∈ s'.inFlight, alert ∈ raisedAlerts s.log)
    (hscan : ∀ alert, s'.scanUnrouted = some alert → s.scanUnrouted = some alert)
    (hlistener : ∀ alert, s'.listenerUnrouted = some alert → s.listenerUnrouted = some alert) : s'.Cooled where
  toLogged := h.toLogged.congr hnow hlog hagents hsent
  scanDue alert ha := by
    obtain ⟨htype, hdue⟩ := h.scanDue alert (hscan alert ha)
    exact ⟨htype, hdue.congr hnow hlog⟩
  listenerDue alert ha := by
    obtain ⟨htype, hdue⟩ := h.listenerDue alert (hlistener alert ha)
    exact ⟨htype, hdue.congr hnow hlog⟩

/-! ### Raising and routing -/

section Raise

variable {s : MonitoringAgent} {alertType : AlertType} {agentName : String} {record : AgentRecord}

theorem raisedAlerts_raise : raisedAlerts (s.raiseAlert alertType agentName record).log =
    raisedAlerts s.log ++ [s.newAlert alertType agentName] := raisedAlerts_append _ _

theorem routes_raise : routes (s.raiseAlert alertType agentName record).log = routes s.log := by
  rw [raiseAlert, routes_append]
  exact List.append_nil _

theorem Logged.raise (h : s.Logged) (htype : alertType = .agentCrash ∨ alertType = .agentStale) :
    (s.raiseAlert alertType agentName record).Logged where
  sent alert ha := by
    rw [raisedAlerts_raise]
    exact List.mem_append_left _ (h.sent alert ha)
  raised_le alert ha := by
    rw [raisedAlerts_raise] at ha
    rcases List.mem_append.1 ha with ha | ha
    · exact h.raised_le alert ha
    · rw [List.mem_singleton.1 ha]
      exact le_rfl
  routed r hr := by
    rw [routes_raise] at hr
    rw [raisedAlerts_raise]
    exact ⟨List.mem_append_left _ (h.routed r hr).1, (h.routed r hr).2⟩
  recorded alert ha agentName' hname := by
    rw [raisedAlerts_raise] at ha
    have hle : alert.timestamp ≤ s.now := by
      rcases List.mem_append.1 ha with ha | ha
      · exact h.raised_le alert ha
      · rw [List.mem_singleton.1 ha]
        exact le_rfl
    by_cases heq : agentName' = agentName
    · subst heq
      exact ⟨_, s.now, Dict.get?_set_self _ _ _, rfl, hle⟩
    · rw [raiseAlert, Dict.get?_set_of_ne heq]
      rcases List.mem_append.1 ha with ha | ha
      · exact h.recorded alert ha agentName' hname
      · rw [List.mem_singleton.1 ha] at hname
        exact absurd (Option.some.inj hname).symm heq
  origin agentName' record' t hget hlast := by
    rw [raisedAlerts_raise]
    by_cases heq : agentName' = agentName
    · subst heq
      rw [raiseAlert, Dict.get?_set_self] at hget
      cases hget
      cases hlast
      refine ⟨_, List.mem_append_right _ List.mem_cons_self, rfl, ?_⟩
      rcases htype with rfl | rfl
      · exact .inl ⟨rfl, rfl⟩
      · exact .inr ⟨rfl, rfl⟩
    · rw [raiseAlert, Dict.get?_set_of_ne heq] at hget
      obtain ⟨alert, ha, hrest⟩ := h.origin agentName' record' t hget hlast
      exact ⟨alert, List.mem_append_left _ ha, hrest⟩
  deduplicated := by
    refine ⟨?_, h.deduplicated.2.concat nofun⟩
    rw [Spaced, routes_raise]
    exact h.deduplicated.1

/-- The new alert is due if none of its kind was routed in the cooldown. -/
theorem due_raise (record : AgentRecord) (h : ¬s.RoutedRecently (s.newAlert alertType agentName)) :
    (s.raiseAlert alertType agentName record).Due (s.newAlert alertType agentName) where
  raised := by
    rw [raisedAlerts_raise]
    exact List.mem_append_right _ List.mem_cons_self
  apart r hr hkind := by
    rw [routes_raise] at hr
    by_contra hlt
    exact h ⟨r, hr, hkind, not_le.1 hlt⟩

theorem Due.raise {alert : SystemAlert} (h : s.Due alert) (record : AgentRecord) :
    (s.raiseAlert alertType agentName record).Due alert where
  raised := by
    rw [raisedAlerts_raise]
    exact List.mem_append_left _ h.raised
  apart r hr := by
    rw [routes_raise] at hr
    exact h.apart r hr

end Raise

section Route

variable {s : MonitoringAgent} {alert : SystemAlert}

theorem raisedAlerts_route : raisedAlerts (s.routeAlert alert).log = raisedAlerts s.log := by
  rw [routeAlert, raisedAlerts_append]
  exact List.append_nil _

theorem routes_route : routes (s.routeAlert alert).log = routes s.log ++ [(alert, s.now)] := routes_append _ _

/-- Routing an alert that is due. -/
theorem Logged.route (h : s.Logged) (hdue : s.Due alert) : (s.routeAlert alert).Logged where
  sent := by
    rw [raisedAlerts_route]
    exact h.sent
  raised_le := by
    rw [raisedAlerts_route]
    exact h.raised_le
  routed r hr := by
    rw [routes_route] at hr
    rw [raisedAlerts_route]
    rcases List.mem_append.1 hr with hr | hr
    · exact h.routed r hr
    · rw [List.mem_singleton.1 hr]
      exact ⟨hdue.raised, h.raised_le alert hdue.raised⟩
  recorded := by
    rw [raisedAlerts_route]
    exact h.recorded
  origin := by
    rw [raisedAlerts_route]
    exact h.origin
  deduplicated := by
    refine ⟨?_, h.deduplicated.2.concat nofun⟩
    rw [Spaced, routes_route, List.pairwise_append]
    refine ⟨h.deduplicated.1, List.pairwise_singleton _ _, fun r hr r' hr' hkind => ?_⟩
    rw [List.mem_singleton.1 hr'] at hkind ⊢
    exact hdue.apart r hr hkind

/-- An alert of another kind stays due. -/
theorem Due.route {other : SystemAlert} (h : s.Due other) (hne : ¬alert.SameKind other) :
    (s.routeAlert alert).Due other where
  raised := by
    rw [raisedAlerts_route]
    exact h.raised
  apart r hr hkind := by
    rw [routes_route] at hr
    rcases List.mem_append.1 hr with hr | hr
    · exact h.apart r hr hkind
    · rw [List.mem_singleton.1 hr] at hkind
      exact absurd hkind hne

end Route

/-! ### The scan -/

section Scan

variable {s : MonitoringAgent} {agentName : String} {record : AgentRecord}

theorem raisedAlerts_suppress (log : List AlertEntry) (alertType : AlertType) (agentName : String) :
    raisedAlerts (log ++ [.suppressed alertType agentName]) = raisedAlerts log := by
  rw [raisedAlerts_append]
  exact List.append_nil _

theorem routes_suppress (log : List AlertEntry) (alertType : AlertType) (agentName : String) :
    routes (log ++ [.suppressed alertType agentName]) = routes log := by
  rw [routes_append]
  exact List.append_nil _

/-- A visit notes the agent, and may hold back a stale alert, or raise one if the record is not on cooldown. -/
theorem visit_cases (s : MonitoringAgent) (agentName : String) (record : AgentRecord) :
    s.visit agentName record = ({ s with visited := s.visited ++ [agentName] }, false) ∨
      (agentName ≠ s.name ∧ record.isStale s.heartbeatTimeout s.now = true ∧ record.isAlertOnCooldown s.now = true ∧
        s.visit agentName record = ({ s with
          visited := s.visited ++ [agentName]
          agents := s.agents.set agentName { record with consecutiveMissed := record.consecutiveMissed + 1 }
          log := s.log ++ [.suppressed .agentStale agentName] }, false)) ∨
      (agentName ≠ s.name ∧ record.isStale s.heartbeatTimeout s.now = true ∧ record.isAlertOnCooldown s.now = false ∧
        s.visit agentName record = (({ s with visited := s.visited ++ [agentName] } : MonitoringAgent).raiseAlert
          .agentStale agentName { record with consecutiveMissed := record.consecutiveMissed + 1 }, true)) := by
  unfold visit
  dsimp only
  by_cases hname : agentName = s.name
  · exact .inl (if_pos hname)
  rw [if_neg hname]
  by_cases hstale : record.isStale s.heartbeatTimeout s.now = true
  · rw [if_pos hstale]
    by_cases hcooldown : record.isAlertOnCooldown s.now = true
    · exact .inr (.inl ⟨hname, hstale, hcooldown, if_pos hcooldown⟩)
    · exact .inr (.inr ⟨hname, hstale, Bool.eq_false_iff.2 hcooldown, if_neg hcooldown⟩)
  · exact .inl (if_neg hstale)

/-- A record on cooldown has its last alert among those raised recently. -/
private theorem Logged.of_onCooldown (h : s.Logged) (hget : s.agents.get? agentName = some record)
    (hcooldown : record.isAlertOnCooldown s.now = true) :
    s.RaisedRecently .agentCrash agentName ∨ RaisedIn s.log .agentStale agentName := by
  obtain ⟨t, hlast, hlt⟩ := (Option.any_eq_true _ _).1 hcooldown
  have hrecent := of_decide_eq_true hlt
  obtain ⟨alert, hmem, rfl, his⟩ := h.origin agentName record t hget hlast
  rcases his with his | his
  · exact .inl ⟨alert, hmem, his, by linarith⟩
  · exact .inr ⟨alert, hmem, his⟩

/-- A stale alert is held back because one was raised before. -/
private theorem Logged.suppress (h : s.Logged) (hget : s.agents.get? agentName = some record)
    (hraised : RaisedIn s.log .agentStale agentName) :
    ({ s with
        visited := s.visited ++ [agentName]
        agents := s.agents.set agentName { record with consecutiveMissed := record.consecutiveMissed + 1 }
        log := s.log ++ [.suppressed .agentStale agentName] } : MonitoringAgent).Logged := by
  refine ⟨by rw [raisedAlerts_suppress]; exact h.sent, by rw [raisedAlerts_suppress]; exact h.raised_le,
    by rw [routes_suppress, raisedAlerts_suppress]; exact h.routed, ?_, ?_, ?_, ?_⟩
  · rw [raisedAlerts_suppress]
    intro alert hmem agentName' hname
    obtain ⟨record', t, hget', hlast, hle⟩ := h.recorded alert hmem agentName' hname
    by_cases heq : agentName' = agentName
    · subst heq
      obtain rfl := Option.some.inj (hget.symm.trans hget')
      exact ⟨_, t, Dict.get?_set_self _ _ _, hlast, hle⟩
    · exact ⟨record', t, (Dict.get?_set_of_ne heq _ _).trans hget', hlast, hle⟩
  · rw [raisedAlerts_suppress]
    intro agentName' record' t hget' hlast
    dsimp only at hget'
    by_cases heq : agentName' = agentName
    · subst heq
      rw [Dict.get?_set_self] at hget'
      cases hget'
      exact h.origin agentName' record t hget hlast
    · rw [Dict.get?_set_of_ne heq] at hget'
      exact h.origin agentName' record' t hget' hlast
  · rw [Spaced, routes_suppress]
    exact h.deduplicated.1
  · refine h.deduplicated.2.concat ?_
    rintro alertType agentName' ⟨⟩
    exact hraised

/-- A record that is not on cooldown: only an alert routed late was routed recently. -/
private theorem Logged.of_not_onCooldown (h : s.Logged) (hget : s.agents.get? agentName = some record)
    (hcooldown : record.isAlertOnCooldown s.now = false) {alertType : AlertType}
    (hlate : ¬s.RoutedLate (s.newAlert alertType agentName)) :
    ¬s.RoutedRecently (s.newAlert alertType agentName) := by
  rintro ⟨r, hr, hkind, hrecent⟩
  obtain ⟨hraised, hle⟩ := h.routed r hr
  obtain ⟨record', t, hget', hlast, hbefore⟩ := h.recorded r.1 hraised agentName hkind.2
  obtain rfl := Option.some.inj (hget.symm.trans hget')
  rw [AgentRecord.isAlertOnCooldown, hlast, Option.any_some, decide_eq_false_iff_not, not_lt] at hcooldown
  rcases hle.eq_or_lt with heq | hlt
  · linarith
  · exact hlate ⟨r, hr, hkind, hlt, hrecent⟩

/-- Holding an alert back changes nothing for the other agents. -/
private theorem RightAbout.suppress {other : String} {otherRecord : AgentRecord}
    (h : s.RightAbout other otherRecord) :
    ({ s with
        visited := s.visited ++ [agentName]
        agents := s.agents.set agentName { record with consecutiveMissed := record.consecutiveMissed + 1 }
        log := s.log ++ [.suppressed .agentStale agentName] } : MonitoringAgent).RightAbout other otherRecord := by
  unfold RightAbout RaisedRecently RoutedLate at h ⊢
  refine ⟨fun hcrash => ?_, ?_⟩
  · rw [raisedAlerts_suppress] at hcrash
    exact (h.1 hcrash).append _
  · rw [routes_suppress]
    exact h.2

theorem Logged.visitAll {it : Dict.Iter} {rest : List (String × AgentRecord)} (h : s.Logged)
    (hlistener : ∀ alert, s.listenerUnrouted = some alert → alert.alertType = .agentCrash ∧ s.Due alert)
    (hget : ∀ p ∈ rest, s.agents.get? p.1 = some p.2) (hnodup : (rest.map Prod.fst).Nodup)
    (hright : ∀ p ∈ rest, p.1 ≠ s.name → p.2.isStale s.heartbeatTimeout s.now = true → s.RightAbout p.1 p.2) :
    (MonitoringAgent.visitAll it s rest).Cooled := by
  induction rest generalizing s it with
  | nil =>
    refine ⟨h.congr rfl rfl rfl h.sent, nofun, fun alert ha => ?_⟩
    obtain ⟨htype, hdue⟩ := hlistener alert ha
    exact ⟨htype, hdue.congr rfl rfl⟩
  | cons p rest ih =>
    obtain ⟨agentName, record⟩ := p
    obtain ⟨hhead, hrest⟩ := List.forall_mem_cons.1 hget
    obtain ⟨hnew, hnodup⟩ := List.nodup_cons.1 hnodup
    obtain ⟨hfirst, hlater⟩ := List.forall_mem_cons.1 hright
    have hother : ∀ p ∈ rest, p.1 ≠ agentName := fun p hp heq => hnew (List.mem_map.2 ⟨p, hp, heq⟩)
    unfold MonitoringAgent.visitAll
    rcases visit_cases s agentName record with hvisit | ⟨hname, hold, hcooldown, hvisit⟩ |
      ⟨hname, hold, hcooldown, hvisit⟩
    · rw [hvisit]
      refine ih (h.congr rfl rfl rfl h.sent) (fun alert ha => ?_) hrest hnodup hlater
      obtain ⟨htype, hdue⟩ := hlistener alert ha
      exact ⟨htype, hdue.congr rfl rfl⟩
    · have hraised : RaisedIn s.log .agentStale agentName := by
        rcases h.of_onCooldown hhead hcooldown with hcrash | hraised
        · exact (hfirst hname hold).1 hcrash
        · exact hraised
      rw [hvisit]
      refine ih (h.suppress hhead hraised) (fun alert ha => ?_) (fun p hp => ?_) hnodup
        fun p hp hne hstale => (hlater p hp hne hstale).suppress
      · obtain ⟨htype, hdue⟩ := hlistener alert ha
        exact ⟨htype, by rw [raisedAlerts_suppress]; exact hdue.raised, by rw [routes_suppress]; exact hdue.apart⟩
      · exact (Dict.get?_set_of_ne (hother p hp) _ _).trans (hrest p hp)
    · have hseen : ({ s with visited := s.visited ++ [agentName] } : MonitoringAgent).Logged :=
        h.congr rfl rfl rfl h.sent
      rw [hvisit]
      have hraise : (({ s with visited := s.visited ++ [agentName] } : MonitoringAgent).raiseAlert .agentStale agentName
          { record with consecutiveMissed := record.consecutiveMissed + 1 }).Logged := hseen.raise (.inr rfl)
      refine ⟨hraise.congr rfl rfl rfl hraise.sent, ?_, fun alert ha => ?_⟩
      · rintro alert ⟨⟩
        have hdue := due_raise { record with consecutiveMissed := record.consecutiveMissed + 1 }
          (hseen.of_not_onCooldown hhead hcooldown ((hfirst hname hold).2 hcooldown))
        exact ⟨rfl, hdue.congr rfl rfl⟩
      · obtain ⟨htype, hdue⟩ := hlistener alert ha
        have hdue' : ({ s with visited := s.visited ++ [agentName] } : MonitoringAgent).Due alert := hdue.congr rfl rfl
        exact ⟨htype, (hdue'.raise record).congr rfl rfl⟩

theorem Logged.resumeScan (h : s.Logged) (it : Dict.Iter)
    (hlistener : ∀ alert, s.listenerUnrouted = some alert → alert.alertType = .agentCrash ∧ s.Due alert)
    (hright : s.ScanRight) : (s.resumeScan it).Cooled := by
  unfold MonitoringAgent.resumeScan
  cases hrest : it.rest s.agents with
  | none =>
    refine ⟨h.congr rfl rfl rfl h.sent, nofun, fun alert ha => ?_⟩
    obtain ⟨htype, hdue⟩ := hlistener alert ha
    exact ⟨htype, hdue.congr rfl rfl⟩
  | some rest =>
    obtain ⟨-, heq⟩ := Option.ite_none_right_eq_some.1 hrest
    cases heq
    refine h.visitAll hlistener (fun p hp => Dict.mem_entries.1 (List.mem_of_mem_drop hp)) ?_
      fun p hp => hright p (List.mem_of_mem_drop hp)
    rw [List.map_drop]
    exact s.agents.nodup.drop

end Scan

/-! ### Steps and runs -/

/-- A heartbeat moves the record of its agent on, and keeps its last alert. -/
private theorem Logged.heartbeat {s : MonitoringAgent} (h : s.Logged) (heartbeat : AgentHeartbeat) :
    ({ s with
        agents := s.agents.set heartbeat.agentName ((s.recordOf heartbeat.agentName).update heartbeat s.now)
        heartbeatListener := .persisting heartbeat } : MonitoringAgent).Logged where
  sent := h.sent
  raised_le := h.raised_le
  routed := h.routed
  recorded alert ha agentName hname := by
    obtain ⟨record, t, hget, hlast, hle⟩ := h.recorded alert ha agentName hname
    by_cases heq : agentName = heartbeat.agentName
    · subst heq
      refine ⟨_, t, Dict.get?_set_self _ _ _, ?_, hle⟩
      rw [recordOf, hget]
      exact hlast
    · exact ⟨record, t, (Dict.get?_set_of_ne heq _ _).trans hget, hlast, hle⟩
  origin agentName record t hget hlast := by
    dsimp only at hget
    by_cases heq : agentName = heartbeat.agentName
    · subst heq
      rw [Dict.get?_set_self] at hget
      cases hget
      cases hold : s.agents.get? heartbeat.agentName with
      | none =>
        rw [recordOf, hold] at hlast
        cases hlast
      | some old =>
        rw [recordOf, hold] at hlast
        exact h.origin heartbeat.agentName old t hold hlast
    · rw [Dict.get?_set_of_ne heq] at hget
      exact h.origin agentName record t hget hlast
  deduplicated := h.deduplicated

theorem Cooled.processHeartbeat {s : MonitoringAgent} (h : s.Cooled) (heartbeat : AgentHeartbeat)
    (hquiet : heartbeat.status = .quarantined → ¬s.RoutedRecently (s.newAlert .agentCrash heartbeat.agentName)) :
    (s.processHeartbeat heartbeat).Cooled := by
  unfold MonitoringAgent.processHeartbeat
  dsimp only
  split_ifs with hstatus
  · have hraise : (s.raiseAlert .agentCrash heartbeat.agentName
        ((s.recordOf heartbeat.agentName).update heartbeat s.now)).Logged := h.toLogged.raise (.inl rfl)
    refine ⟨hraise.congr rfl rfl rfl hraise.sent, fun alert ha => ?_, ?_⟩
    · obtain ⟨htype, hdue⟩ := h.scanDue alert ha
      exact ⟨htype, (hdue.raise ((s.recordOf heartbeat.agentName).update heartbeat s.now)).congr rfl rfl⟩
    · rintro alert ⟨⟩
      exact ⟨rfl, (due_raise ((s.recordOf heartbeat.agentName).update heartbeat s.now) (hquiet hstatus)).congr rfl rfl⟩
  · refine ⟨h.toLogged.heartbeat heartbeat, fun alert ha => ?_, nofun⟩
    obtain ⟨htype, hdue⟩ := h.scanDue alert ha
    exact ⟨htype, hdue.congr rfl rfl⟩

/-- A step of raising an alert: the bus takes it, it is routed, or nothing happens to it any more. -/
theorem raiseStep_cases {s mid : MonitoringAgent} {alert : SystemAlert} {stage : RaiseStage} {e : RaiseEvent}
    {next : Option RaiseStage} (h : s.raiseStep alert stage e = some (mid, next)) :
    (e = .accept ∧ stage = .publishing ∧ mid = { s with inFlight := s.inFlight ++ [alert] } ∧
        next = some .accepted) ∨
      (e = .publishDone ∧ stage.unrouted = true ∧ mid = s.routeAlert alert ∧ next = some .routing) ∨
      (e = .routeDone ∧ stage = .routing ∧ mid = s ∧ next = some .persisting) ∨
      (e = .persistDone ∧ stage = .persisting ∧ mid = s ∧ next = none) := by
  cases stage <;> cases e <;> cases h
  · exact .inl ⟨rfl, rfl, rfl, rfl⟩
  · exact .inr (.inl ⟨rfl, rfl, rfl, rfl⟩)
  · exact .inr (.inl ⟨rfl, rfl, rfl, rfl⟩)
  · exact .inr (.inr (.inl ⟨rfl, rfl, rfl, rfl⟩))
  · exact .inr (.inr (.inr ⟨rfl, rfl, rfl, rfl⟩))

private theorem scanUnrouted_alerting {s : MonitoringAgent} {it : Dict.Iter} {alert : SystemAlert} {stage : RaiseStage}
    (hscan : s.scan = .alerting it alert stage) (hunrouted : stage.unrouted = true) : s.scanUnrouted = some alert := by
  unfold scanUnrouted
  rw [hscan]
  exact if_pos hunrouted

private theorem listenerUnrouted_alerting {s : MonitoringAgent} {heartbeat : AgentHeartbeat} {alert : SystemAlert}
    {stage : RaiseStage} (hlistener : s.heartbeatListener = .alerting heartbeat alert stage)
    (hunrouted : stage.unrouted = true) : s.listenerUnrouted = some alert := by
  unfold listenerUnrouted
  rw [hlistener]
  exact if_pos hunrouted

/-- The bus takes an alert that has been raised. -/
private theorem Logged.send {s : MonitoringAgent} (h : s.Logged) {alert : SystemAlert}
    (hraised : alert ∈ raisedAlerts s.log) : ∀ other ∈ s.inFlight ++ [alert], other ∈ raisedAlerts s.log := by
  intro other hother
  rcases List.mem_append.1 hother with hother | hother
  · exact h.sent other hother
  · rw [List.mem_singleton.1 hother]
    exact hraised

theorem Cooled.scanAlert {s s' : MonitoringAgent} {e : RaiseEvent} (h : s.Cooled) (hC : s.CallsApart (.scanAlert e))
    (hstep : s.step (.scanAlert e) = some s') : s'.Cooled := by
  obtain ⟨it, alert, stage, mid, next, hscan, hraise, hs'⟩ := scanAlert_cases hstep
  rcases raiseStep_cases hraise with ⟨-, rfl, rfl, rfl⟩ | ⟨-, hunrouted, rfl, rfl⟩ | ⟨-, -, rfl, rfl⟩ |
    ⟨rfl, -, rfl, rfl⟩
  · obtain ⟨stage', hnext, rfl⟩ | ⟨hnext, -⟩ := hs' <;> cases hnext
    have hpending := scanUnrouted_alerting hscan rfl
    refine h.congr rfl rfl rfl (h.send (h.scanDue alert hpending).2.raised) ?_ fun _ ha => ha
    rintro other ⟨⟩
    exact hpending
  · obtain ⟨stage', hnext, rfl⟩ | ⟨hnext, -⟩ := hs' <;> cases hnext
    obtain ⟨htype, hdue⟩ := h.scanDue alert (scanUnrouted_alerting hscan hunrouted)
    have hroute := h.toLogged.route hdue
    refine ⟨hroute.congr rfl rfl rfl hroute.sent, nofun, fun other ha => ?_⟩
    obtain ⟨hother, hdue'⟩ := h.listenerDue other ha
    refine ⟨hother, (hdue'.route fun hkind => ?_).congr rfl rfl⟩
    rw [SystemAlert.SameKind, htype, hother] at hkind
    cases hkind.1
  · obtain ⟨stage', hnext, rfl⟩ | ⟨hnext, -⟩ := hs' <;> cases hnext
    exact h.congr rfl rfl rfl h.sent nofun fun _ ha => ha
  · obtain ⟨stage', hnext, -⟩ | ⟨-, rfl⟩ := hs'
    · cases hnext
    · exact h.toLogged.resumeScan it h.listenerDue hC

theorem Cooled.heartbeatAlert {s s' : MonitoringAgent} {e : RaiseEvent} (h : s.Cooled)
    (hstep : s.step (.heartbeatAlert e) = some s') : s'.Cooled := by
  obtain ⟨heartbeat, alert, stage, mid, next, hlistener, hraise, hs'⟩ := heartbeatAlert_cases hstep
  rcases raiseStep_cases hraise with ⟨-, rfl, rfl, rfl⟩ | ⟨-, hunrouted, rfl, rfl⟩ | ⟨-, -, rfl, rfl⟩ |
    ⟨-, -, rfl, rfl⟩
  · obtain ⟨stage', hnext, rfl⟩ | ⟨hnext, -⟩ := hs' <;> cases hnext
    have hpending := listenerUnrouted_alerting hlistener rfl
    refine h.congr rfl rfl rfl (h.send (h.listenerDue alert hpending).2.raised) (fun _ ha => ha) ?_
    rintro other ⟨⟩
    exact hpending
  · obtain ⟨stage', hnext, rfl⟩ | ⟨hnext, -⟩ := hs' <;> cases hnext
    obtain ⟨htype, hdue⟩ := h.listenerDue alert (listenerUnrouted_alerting hlistener hunrouted)
    have hroute := h.toLogged.route hdue
    refine ⟨hroute.congr rfl rfl rfl hroute.sent, fun other ha => ?_, nofun⟩
    obtain ⟨hother, hdue'⟩ := h.scanDue other ha
    refine ⟨hother, (hdue'.route fun hkind => ?_).congr rfl rfl⟩
    rw [SystemAlert.SameKind, htype, hother] at hkind
    cases hkind.1
  · obtain ⟨stage', hnext, rfl⟩ | ⟨hnext, -⟩ := hs' <;> cases hnext
    exact h.congr rfl rfl rfl h.sent (fun _ ha => ha) nofun
  · obtain ⟨stage', hnext, -⟩ | ⟨-, rfl⟩ := hs'
    · cases hnext
    · exact h.congr rfl rfl rfl h.sent (fun _ ha => ha) nofun

/-- An alert that comes back, not in its cooldown, and with none of its kind waiting. -/
theorem Cooled.receive {s : MonitoringAgent} {i : ℕ} {alert : SystemAlert} (h : s.Cooled)
    (hget : s.inFlight[i]? = some alert) (hapart : ¬s.RoutedRecently alert)
    (hkind : ∀ other ∈ s.unrouted, ¬alert.SameKind other) :
    ({ s.routeAlert alert with
        inFlight := s.inFlight.eraseIdx i
        alertListener := .routing alert } : MonitoringAgent).Cooled := by
  have hdue : s.Due alert := by
    refine ⟨h.sent alert (List.mem_of_getElem? hget), fun r hr hsame => ?_⟩
    by_contra hlt
    exact hapart ⟨r, hr, hsame, not_le.1 hlt⟩
  have hroute := h.toLogged.route hdue
  refine ⟨hroute.congr rfl rfl rfl fun other hother => hroute.sent other (List.mem_of_mem_eraseIdx hother),
    fun other ha => ?_, fun other ha => ?_⟩
  · obtain ⟨htype, hdue'⟩ := h.scanDue other ha
    have hwaiting : other ∈ s.unrouted := List.mem_append_left _ (Option.mem_toList.2 ha)
    exact ⟨htype, (hdue'.route (hkind other hwaiting)).congr rfl rfl⟩
  · obtain ⟨htype, hdue'⟩ := h.listenerDue other ha
    have hwaiting : other ∈ s.unrouted := List.mem_append_right _ (Option.mem_toList.2 ha)
    exact ⟨htype, (hdue'.route (hkind other hwaiting)).congr rfl rfl⟩

private theorem Cooled.elapse {s : MonitoringAgent} (h : s.Cooled) {d : ℚ} (hd : 0 ≤ d) :
    ({ s with now := s.now + d } : MonitoringAgent).Cooled := by
  have hdue : ∀ alert, s.Due alert → ({ s with now := s.now + d } : MonitoringAgent).Due alert := fun alert hdue =>
    ⟨hdue.raised, fun r hr hkind => (hdue.apart r hr hkind).trans (le_add_of_nonneg_right hd)⟩
  exact ⟨⟨h.sent, fun alert ha => (h.raised_le alert ha).trans (le_add_of_nonneg_right hd), h.routed, h.recorded,
    h.origin, h.deduplicated⟩, fun alert ha => ⟨(h.scanDue alert ha).1, hdue alert (h.scanDue alert ha).2⟩,
    fun alert ha => ⟨(h.listenerDue alert ha).1, hdue alert (h.listenerDue alert ha).2⟩⟩

theorem Cooled.step {s s' : MonitoringAgent} {e : MonitorEvent} (h : s.Cooled) (hC : s.CallsApart e)
    (hstep : s.step e = some s') : s'.Cooled := by
  cases e with
  | elapse d =>
    obtain ⟨hd, heq⟩ := Option.ite_none_right_eq_some.1 hstep
    cases heq
    exact h.elapse hd
  | heartbeat heartbeat =>
    obtain ⟨-, heq⟩ := Option.ite_none_right_eq_some.1 hstep
    cases heq
    exact h.processHeartbeat heartbeat hC
  | heartbeatPersisted =>
    obtain rfl := heartbeatPersisted_eq hstep
    refine h.congr rfl rfl rfl h.sent (fun _ ha => ha) ?_
    rintro alert ⟨⟩
  | wake =>
    obtain ⟨-, heq⟩ := Option.ite_none_right_eq_some.1 hstep
    cases heq
    have hasleep : ({ s with atStart := s.agents.keys, visited := [] } : MonitoringAgent).Logged :=
      h.toLogged.congr rfl rfl rfl h.sent
    refine hasleep.resumeScan _ (fun alert ha => ?_) hC
    obtain ⟨htype, hdue⟩ := h.listenerDue alert ha
    exact ⟨htype, hdue.congr rfl rfl⟩
  | scanAlert e => exact h.scanAlert hC hstep
  | heartbeatAlert e => exact h.heartbeatAlert hstep
  | receive i =>
    obtain ⟨alert, hget, rfl⟩ := receive_cases hstep
    exact h.receive hget (hC alert hget).1 (hC alert hget).2
  | alertRouted =>
    obtain rfl := alertRouted_eq hstep
    exact h.congr rfl rfl rfl h.sent (fun _ ha => ha) fun _ ha => ha

theorem cooled_fresh (heartbeatTimeout : ℤ) (start : ℚ) : (fresh heartbeatTimeout start).Cooled where
  sent _ ha := absurd ha List.not_mem_nil
  raised_le _ ha := absurd ha List.not_mem_nil
  routed _ hr := absurd hr List.not_mem_nil
  recorded _ ha := absurd ha List.not_mem_nil
  origin _ record _ hget := absurd hget (Option.some_ne_none record).symm
  deduplicated := ⟨List.Pairwise.nil, fun _ _ _ hentry =>
    absurd (hentry.symm.trans List.getElem?_nil) (Option.some_ne_none _)⟩
  scanDue alert ha := absurd ha (Option.some_ne_none alert).symm
  listenerDue alert ha := absurd ha (Option.some_ne_none alert).symm

end MonitoringAgent

end MultiAgentTrading.Monitoring
