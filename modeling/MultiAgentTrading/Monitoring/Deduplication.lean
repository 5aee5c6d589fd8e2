import MultiAgentTrading.Monitoring.AlertTraffic

/-!
# One notification per cooldown

`Quiet` is a condition on the times at which quarantines are reported and alerts are published and come back.  In a run
that meets it the agent keeps the calls of `_route_alert` apart (`alerts_deduplicated`).  An alert that comes back
within the cooldown of its own publication is notified twice in any run (`Spaced.received_apart`).
-/

namespace MultiAgentTrading.Monitoring

open Runs MonitoringAgent
open Control (AgentHeartbeat)

namespace Monitored

/-! ### The condition -/

/-- Every alert of this type about this agent has been published, and has come back, the cooldown ago if at all. -/
def Rested (m : Monitored) (alertType : AlertType) (agentName : String) : Prop :=
  ∀ p ∈ m.traffic.published ++ m.traffic.received, p.1.Is alertType agentName →
    p.2 + alertCooldownSeconds ≤ m.agent.now

instance (m : Monitored) (alertType : AlertType) (agentName : String) : Decidable (m.Rested alertType agentName) :=
  inferInstanceAs (Decidable (∀ p ∈ m.traffic.published ++ m.traffic.received, p.1.Is alertType agentName → _))

/-- A heartbeat reported the agent quarantined less than the cooldown ago. -/
def ReportedRecently (m : Monitored) (agentName : String) : Prop :=
  ∃ report ∈ m.traffic.reports, report.1 = agentName ∧ m.agent.now < report.2 + alertCooldownSeconds

instance (m : Monitored) (agentName : String) : Decidable (m.ReportedRecently agentName) :=
  inferInstanceAs (Decidable (∃ report ∈ _, _ ∧ _))

/-- An alert comes back late: its own publishing ended the cooldown ago, and none of its kind was raised since. -/
def ComesLate (m : Monitored) (alert : SystemAlert) : Prop :=
  alert ∉ m.agent.unrouted ∧ (∀ p ∈ m.traffic.published, p.1 = alert → p.2 + alertCooldownSeconds ≤ m.agent.now) ∧
    ∀ other ∈ raisedAlerts m.agent.log, alert.SameKind other → other.timestamp ≤ alert.timestamp

instance (m : Monitored) (alert : SystemAlert) : Decidable (m.ComesLate alert) :=
  inferInstanceAs (Decidable (_ ∧ (∀ p ∈ _, _ → _) ∧ ∀ other ∈ _, _ → _))

/-- The cooldown is right about an agent that the scan finds stale: if the agent reported a quarantine in the cooldown a
stale alert about it was raised before, and if its record is not on cooldown its stale alerts rest. -/
def RightAbout (m : Monitored) (agentName : String) (record : AgentRecord) : Prop :=
  (m.ReportedRecently agentName → RaisedIn m.agent.log .agentStale agentName) ∧
    (record.isAlertOnCooldown m.agent.now = false → m.Rested .agentStale agentName)

instance (m : Monitored) (agentName : String) (record : AgentRecord) : Decidable (m.RightAbout agentName record) :=
  inferInstanceAs (Decidable ((_ → _) ∧ (_ → _)))

def ScanRight (m : Monitored) : Prop :=
  ∀ p ∈ m.agent.agents.entries, p.1 ≠ m.agent.name → p.2.isStale m.agent.heartbeatTimeout m.agent.now = true →
    m.RightAbout p.1 p.2

instance (m : Monitored) : Decidable m.ScanRight :=
  inferInstanceAs (Decidable (∀ p ∈ m.agent.agents.entries, p.1 ≠ m.agent.name → _))

/-- An agent reports a quarantine only while its crash alerts rest, alerts come back late, and the scan finds the
cooldown right. -/
def Quiet (m : Monitored) : MonitorEvent → Prop
  | .heartbeat heartbeat => heartbeat.status = .quarantined → m.Rested .agentCrash heartbeat.agentName
  | .receive i => ∀ alert ∈ m.agent.inFlight[i]?, m.ComesLate alert
  | .wake => m.ScanRight
  | .scanAlert .persistDone => m.ScanRight
  | _ => True

instance Quiet.decidable (m : Monitored) : ∀ e, Decidable (m.Quiet e)
  | .elapse _ => isTrue trivial
  | .heartbeat heartbeat => inferInstanceAs (Decidable (heartbeat.status = .quarantined → _))
  | .receive i => inferInstanceAs (Decidable (∀ alert ∈ m.agent.inFlight[i]?, m.ComesLate alert))
  | .wake => inferInstanceAs (Decidable m.ScanRight)
  | .scanAlert .persistDone => inferInstanceAs (Decidable m.ScanRight)
  | .scanAlert .accept => isTrue trivial
  | .scanAlert .publishDone => isTrue trivial
  | .scanAlert .routeDone => isTrue trivial
  | .heartbeatPersisted => isTrue trivial
  | .heartbeatAlert _ => isTrue trivial
  | .alertRouted => isTrue trivial

/-! ### The invariant -/

/-- An alert is raised the cooldown after an earlier one, and after every call of `_route_alert` for it. -/
structure Before (routed : List (SystemAlert × ℚ)) (alert later : SystemAlert) : Prop where
  raised : alert.timestamp + alertCooldownSeconds ≤ later.timestamp
  routed : ∀ r ∈ routed, r.1 = alert → r.2 + alertCooldownSeconds ≤ later.timestamp

/-- The alert is the last of its kind that was raised. -/
def Newest (v : AlertView) (alert : SystemAlert) : Prop :=
  ∀ other ∈ v.raised, alert.SameKind other → other.timestamp ≤ alert.timestamp

/-- An alert that waits to be routed: of the type of its task, the newest of its kind, and not on the bus before the bus
has taken it. -/
structure Waits (v : AlertView) (task : AlertTask) (alert : SystemAlert) (sent : Bool) : Prop where
  raised : alert ∈ v.raised
  alertType : alert.alertType = task.alertType
  newest : Newest v alert
  unsent : sent = false → alert ∉ v.inFlight ∧ alert ∉ v.traffic.received.map Prod.fst

/-- What a quiet run keeps of the times. -/
structure Timed (v : AlertView) : Prop where
  noted : Noted v
  waits : ∀ task alert sent, v.waiting task = some (alert, sent) → Waits v task alert sent
  published : ∀ alert ∈ v.raised,
    (∃ task sent, v.waiting task = some (alert, sent)) ∨ ∃ time, (alert, time) ∈ v.traffic.published
  apart : ∀ alert ∈ v.raised, ∀ other ∈ v.raised, alert.SameKind other →
    alert = other ∨ Before v.routed alert other ∨ Before v.routed other alert
  once : (v.inFlight ++ v.traffic.received.map Prod.fst).Nodup
  reported : ∀ alert ∈ v.raised, alert.alertType = .agentCrash → ∀ agentName, alert.agentName = some agentName →
    (agentName, alert.timestamp) ∈ v.traffic.reports

private theorem alertType_injective {task other : AlertTask} (h : task.alertType = other.alertType) : task = other := by
  cases task <;> cases other <;> first | rfl | cases h

/-- What is under way once the work of one task has changed: that work, or what the other task had. -/
private theorem waiting_update {waiting : AlertTask → Option (SystemAlert × Bool)} {task task' : AlertTask}
    {new : Option (SystemAlert × Bool)} {work : SystemAlert × Bool}
    (h : Function.update waiting task new task' = some work) :
    (task' = task ∧ new = some work) ∨ (task' ≠ task ∧ waiting task' = some work) := by
  by_cases htask : task' = task
  · subst htask
    rw [Function.update_self] at h
    exact .inl ⟨rfl, h⟩
  · rw [Function.update_of_ne htask] at h
    exact .inr ⟨htask, h⟩

/-- Raising an alert after those of its kind. -/
private theorem apart_raise {v : AlertView} {x : SystemAlert}
    (h : ∀ alert ∈ v.raised, ∀ other ∈ v.raised, alert.SameKind other →
      alert = other ∨ Before v.routed alert other ∨ Before v.routed other alert)
    (hbefore : ∀ other ∈ v.raised, other.SameKind x → Before v.routed other x) :
    ∀ alert ∈ v.raised ++ [x], ∀ other ∈ v.raised ++ [x], alert.SameKind other →
      alert = other ∨ Before v.routed alert other ∨ Before v.routed other alert := by
  intro alert ha other ho hkind
  rcases List.mem_append.1 ha with hold | hnew <;> rcases List.mem_append.1 ho with hold' | hnew'
  · exact h alert hold other hold' hkind
  · obtain rfl := List.mem_singleton.1 hnew'
    exact .inr (.inl (hbefore alert hold hkind))
  · obtain rfl := List.mem_singleton.1 hnew
    exact .inr (.inr (hbefore other hold' ⟨hkind.1.symm, hkind.2.symm⟩))
  · exact .inl ((List.mem_singleton.1 hnew).trans (List.mem_singleton.1 hnew').symm)

/-- Routing the newest alert of its kind. -/
private theorem apart_route {v : AlertView} {x : SystemAlert} {time : ℚ} (hnewest : Newest v x)
    (h : ∀ alert ∈ v.raised, ∀ other ∈ v.raised, alert.SameKind other →
      alert = other ∨ Before v.routed alert other ∨ Before v.routed other alert) :
    ∀ alert ∈ v.raised, ∀ other ∈ v.raised, alert.SameKind other → alert = other ∨
      Before (v.routed ++ [(x, time)]) alert other ∨ Before (v.routed ++ [(x, time)]) other alert := by
  have hroute : ∀ alert later, later ∈ v.raised → alert.SameKind later → Before v.routed alert later →
      Before (v.routed ++ [(x, time)]) alert later := by
    intro alert later hlater hkind hbefore
    refine ⟨hbefore.raised, fun r hr heq => ?_⟩
    rcases List.mem_append.1 hr with hr | hr
    · exact hbefore.routed r hr heq
    · obtain rfl := List.mem_singleton.1 hr
      subst heq
      have hle := hnewest later hlater hkind
      have hgap := hbefore.raised
      simp only [alertCooldownSeconds] at hgap
      linarith
  intro alert ha other ho hkind
  refine (h alert ha other ho hkind).imp_right (Or.imp (hroute alert other ho hkind) ?_)
  exact hroute other alert ha ⟨hkind.1.symm, hkind.2.symm⟩

/-- What a quiet step raises: an alert of now, with the alerts of its kind at rest. -/
private theorem Raises.rested {m : Monitored} {e : MonitorEvent} {alert : SystemAlert} (h : m.Raises e alert)
    (hC : m.Quiet e) :
    alert.timestamp = m.agent.now ∧ ∃ agentName, alert.agentName = some agentName ∧
      m.Rested alert.alertType agentName := by
  have hscan : m.ScanRight → (∃ p ∈ m.agent.agents.entries, p.1 ≠ m.agent.name ∧
      p.2.isStale m.agent.heartbeatTimeout m.agent.now = true ∧ p.2.isAlertOnCooldown m.agent.now = false ∧
      alert = m.agent.newAlert .agentStale p.1) → alert.timestamp = m.agent.now ∧ ∃ agentName,
      alert.agentName = some agentName ∧ m.Rested alert.alertType agentName := by
    rintro hright ⟨p, hp, hname, hstale, hcooldown, rfl⟩
    exact ⟨rfl, p.1, rfl, (hright p hp hname hstale).2 hcooldown⟩
  cases e with
  | heartbeat heartbeat =>
    obtain ⟨hstatus, rfl⟩ := h
    exact ⟨rfl, heartbeat.agentName, rfl, hC hstatus⟩
  | wake => exact hscan hC h
  | scanAlert re =>
    cases re with
    | persistDone => exact hscan hC h
    | accept => cases h
    | publishDone => cases h
    | routeDone => cases h
  | elapse d => cases h
  | heartbeatPersisted => cases h
  | heartbeatAlert re => cases h
  | receive i => cases h
  | alertRouted => cases h

section Quiet

variable {m : Monitored} {e : MonitorEvent} {task : AlertTask} {alert : SystemAlert}

/-- At rest are all calls of `_route_alert` for alerts of this kind. -/
private theorem Rested.routed {agentName : String} (h : m.Rested alert.alertType agentName) (hnoted : Noted m.view)
    (hname : alert.agentName = some agentName) :
    ∀ r ∈ routes m.agent.log, r.1.SameKind alert → r.2 + alertCooldownSeconds ≤ m.agent.now :=
  fun r hr hkind => h r (hnoted.mem_iff.2 hr) ⟨hkind.1, hkind.2.trans hname⟩

/-- The earlier alerts of the kind of one that is raised were published, and are at rest. -/
private theorem Timed.before_raised (h : Timed m.view) (hcooled : m.agent.Cooled)
    (hidle : m.agent.waiting task = none) (htype : alert.alertType = task.alertType)
    (htime : alert.timestamp = m.agent.now)
    (hrested : ∀ r ∈ routes m.agent.log, r.1.SameKind alert → r.2 + alertCooldownSeconds ≤ m.agent.now) :
    ∀ other ∈ raisedAlerts m.agent.log, other.SameKind alert → Before (routes m.agent.log) other alert := by
  intro other hother hkind
  have hrouted : ∀ r ∈ routes m.agent.log, r.1 = other → r.2 + alertCooldownSeconds ≤ alert.timestamp := by
    rintro r hr rfl
    rw [htime]
    exact hrested r hr hkind
  refine ⟨?_, hrouted⟩
  rcases h.published other hother with ⟨task', sent, hwaiting⟩ | ⟨time, hpublished⟩
  · have htype' : other.alertType = task'.alertType := (h.waits task' other sent hwaiting).alertType
    obtain rfl : task' = task := alertType_injective (htype'.symm.trans (hkind.1.trans htype))
    rw [show m.view.waiting task' = none from hidle] at hwaiting
    cases hwaiting
  · have hroute : (other, time) ∈ routes m.agent.log := h.noted.mem_iff.1 (List.mem_append_left _ hpublished)
    have hle : other.timestamp ≤ time := (hcooled.routed _ hroute).2
    have hgap := hrouted _ hroute rfl
    linarith

private theorem Timed.raise (h : Timed m.view) (hcooled : m.agent.Cooled) (hC : m.Quiet e)
    {reports : List (String × ℚ)} (hidle : m.agent.waiting task = none) (hraises : m.Raises e alert)
    (htype : alert.alertType = task.alertType)
    (hreports : ∀ report, report ∈ reports ↔ report ∈ m.traffic.reports ∨
      alert.alertType = .agentCrash ∧ alert.agentName = some report.1 ∧ report.2 = m.agent.now) :
    Timed { m.view with
      waiting := Function.update m.agent.waiting task (some (alert, false))
      raised := raisedAlerts m.agent.log ++ [alert]
      traffic := { m.traffic with reports := reports } } := by
  obtain ⟨htime, agentName, hname, hrested⟩ := hraises.rested hC
  have hbefore := h.before_raised hcooled hidle htype htime (hrested.routed h.noted hname)
  have hnew : alert ∉ raisedAlerts m.agent.log := by
    intro hmem
    have hgap := (hbefore alert hmem ⟨rfl, rfl⟩).raised
    simp only [alertCooldownSeconds] at hgap
    linarith
  refine { noted := h.noted, waits := ?waits, published := ?published, apart := apart_raise h.apart hbefore,
           once := h.once, reported := ?reported }
  case waits =>
    intro task' alert' sent hwaiting
    rcases waiting_update hwaiting with ⟨rfl, ⟨⟩⟩ | ⟨htask, hwaiting⟩
    · refine ⟨List.mem_append_right _ List.mem_cons_self, htype, fun other hother _ => ?_, fun _ => ⟨?_, ?_⟩⟩
      · rw [htime]
        rcases List.mem_append.1 hother with hother | hother
        · exact hcooled.raised_le other hother
        · rw [List.mem_singleton.1 hother, htime]
      · exact fun hsent => hnew (hcooled.sent alert hsent)
      · rintro hreceived
        obtain ⟨p, hp, rfl⟩ := List.mem_map.1 hreceived
        exact hnew (hcooled.routed p (h.noted.mem_iff.1 (List.mem_append_right _ hp))).1
    · obtain ⟨hraised, htype', hnewest, hunsent⟩ := h.waits task' alert' sent hwaiting
      refine ⟨List.mem_append_left _ hraised, htype', fun other hother hkind => ?_, hunsent⟩
      rcases List.mem_append.1 hother with hother | hother
      · exact hnewest other hother hkind
      · rw [List.mem_singleton.1 hother] at hkind
        exact absurd (alertType_injective (htype'.symm.trans (hkind.1.trans htype))) htask
  case published =>
    intro other hother
    rcases List.mem_append.1 hother with hother | hother
    · refine (h.published other hother).imp_left ?_
      rintro ⟨task', sent, hwaiting⟩
      refine ⟨task', sent, (Function.update_of_ne ?_ _ _).trans hwaiting⟩
      rintro rfl
      rw [show m.view.waiting task' = none from hidle] at hwaiting
      cases hwaiting
    · rw [List.mem_singleton.1 hother]
      exact .inl ⟨task, false, Function.update_self _ _ _⟩
  case reported =>
    intro other hother hcrash agentName' hname'
    rw [hreports]
    rcases List.mem_append.1 hother with hother | hother
    · exact .inl (h.reported other hother hcrash agentName' hname')
    · obtain rfl := List.mem_singleton.1 hother
      exact .inr ⟨hcrash, hname', htime⟩

private theorem Timed.send (h : Timed m.view) (hwaiting : m.agent.waiting task = some (alert, false)) :
    Timed { m.view with
      waiting := Function.update m.agent.waiting task (some (alert, true))
      inFlight := m.agent.inFlight ++ [alert] } := by
  obtain ⟨hraised, htype, hnewest, hunsent⟩ := h.waits task alert false hwaiting
  obtain ⟨hsent, hreceived⟩ := hunsent rfl
  refine { noted := h.noted, waits := ?waits, published := ?published, apart := h.apart, once := ?once,
           reported := h.reported }
  case waits =>
    intro task' alert' sent hwaiting'
    rcases waiting_update hwaiting' with ⟨rfl, ⟨⟩⟩ | ⟨htask, hwaiting'⟩
    · exact ⟨hraised, htype, hnewest, nofun⟩
    · obtain ⟨hraised', htype', hnewest', hunsent'⟩ := h.waits task' alert' sent hwaiting'
      refine ⟨hraised', htype', hnewest', fun hfalse => ⟨fun hmem => ?_, (hunsent' hfalse).2⟩⟩
      rcases List.mem_append.1 hmem with hmem | hmem
      · exact (hunsent' hfalse).1 hmem
      · obtain rfl := List.mem_singleton.1 hmem
        exact htask (alertType_injective (htype'.symm.trans htype))
  case published =>
    intro other hother
    refine (h.published other hother).imp_left ?_
    rintro ⟨task', sent, hwaiting'⟩
    by_cases htask : task' = task
    · subst htask
      obtain rfl : alert = other := (Prod.mk.inj (Option.some.inj (hwaiting.symm.trans hwaiting'))).1
      exact ⟨task', true, Function.update_self _ _ _⟩
    · exact ⟨task', sent, (Function.update_of_ne htask _ _).trans hwaiting'⟩
  case once =>
    show (m.agent.inFlight ++ [alert] ++ m.traffic.received.map Prod.fst).Nodup
    rw [List.append_assoc, List.singleton_append, List.perm_middle.nodup_iff, List.nodup_cons]
    exact ⟨fun hmem => (List.mem_append.1 hmem).elim hsent hreceived, h.once⟩

private theorem Timed.publish (h : Timed m.view) {sent : Bool} (hwaiting : m.agent.waiting task = some (alert, sent)) :
    Timed { m.view with
      waiting := Function.update m.agent.waiting task none
      routed := routes m.agent.log ++ [(alert, m.agent.now)]
      traffic := { m.traffic with published := m.traffic.published ++ [(alert, m.agent.now)] } } := by
  have heffect : m.Effect .wake _ := .publish task alert sent hwaiting
  refine { noted := heffect.noted h.noted, waits := ?waits, published := ?published,
           apart := apart_route (h.waits task alert sent hwaiting).newest h.apart, once := h.once,
           reported := h.reported }
  case waits =>
    intro task' alert' sent' hwaiting'
    rcases waiting_update hwaiting' with ⟨-, ⟨⟩⟩ | ⟨-, hwaiting'⟩
    · obtain ⟨hraised, htype, hnewest, hunsent⟩ := h.waits task' alert' sent' hwaiting'
      exact ⟨hraised, htype, hnewest, hunsent⟩
  case published =>
    intro other hother
    rcases h.published other hother with ⟨task', sent', hwaiting'⟩ | ⟨time, hpublished⟩
    · by_cases htask : task' = task
      · subst htask
        obtain rfl : alert = other := (Prod.mk.inj (Option.some.inj (hwaiting.symm.trans hwaiting'))).1
        exact .inr ⟨m.agent.now, List.mem_append_right _ List.mem_cons_self⟩
      · exact .inl ⟨task', sent', (Function.update_of_ne htask _ _).trans hwaiting'⟩
    · exact .inr ⟨time, List.mem_append_left _ hpublished⟩

private theorem Timed.receive (h : Timed m.view) {i : ℕ} (hget : m.agent.inFlight[i]? = some alert)
    (hlate : m.ComesLate alert) :
    Timed { m.view with
      inFlight := m.agent.inFlight.eraseIdx i
      routed := routes m.agent.log ++ [(alert, m.agent.now)]
      traffic := { m.traffic with received := m.traffic.received ++ [(alert, m.agent.now)] } } := by
  have heffect : m.Effect (.receive i) _ := .receive i alert rfl hget
  obtain ⟨hi, hget'⟩ := List.getElem?_eq_some_iff.1 hget
  have hnewest : Newest m.view alert := hlate.2.2
  refine { noted := heffect.noted h.noted, waits := ?waits, published := h.published,
           apart := apart_route hnewest h.apart, once := ?once, reported := h.reported }
  case waits =>
    intro task alert' sent hwaiting
    obtain ⟨hraised, htype, hnewest, hunsent⟩ := h.waits task alert' sent hwaiting
    refine ⟨hraised, htype, hnewest, fun hfalse => ?_⟩
    obtain ⟨hsent, hreceived⟩ := hunsent hfalse
    refine ⟨fun hmem => hsent (List.mem_of_mem_eraseIdx hmem), fun hmem => ?_⟩
    change alert' ∈ (m.traffic.received ++ [(alert, m.agent.now)]).map Prod.fst at hmem
    rw [List.map_append, List.mem_append] at hmem
    rcases hmem with hmem | hmem
    · exact hreceived hmem
    · obtain rfl := List.mem_singleton.1 hmem
      exact hsent (List.mem_of_getElem? hget)
  case once =>
    show (m.agent.inFlight.eraseIdx i ++ (m.traffic.received ++ [(alert, m.agent.now)]).map Prod.fst).Nodup
    have hperm : (m.agent.inFlight.eraseIdx i ++ (m.traffic.received.map Prod.fst ++ [alert])).Perm
        (m.agent.inFlight ++ m.traffic.received.map Prod.fst) := by
      rw [← List.append_assoc]
      refine (List.perm_append_singleton _ _).trans ?_
      rw [← List.cons_append, ← hget']
      exact (List.getElem_cons_eraseIdx_perm hi).append_right _
    rw [List.map_append]
    exact hperm.nodup_iff.2 h.once

theorem Timed.effect (h : Timed m.view) (hcooled : m.agent.Cooled) (hC : m.Quiet e) {v : AlertView}
    (heffect : m.Effect e v) : Timed v := by
  cases heffect with
  | none => exact h
  | raise task alert reports hidle hraises htype hreports => exact h.raise hcooled hC hidle hraises htype hreports
  | send task alert hwaiting => exact h.send hwaiting
  | publish task alert sent hwaiting => exact h.publish hwaiting
  | receive i alert he hget =>
    subst he
    exact h.receive hget (hC alert hget)

/-! ### The condition and the calls of `_route_alert` -/

private theorem mem_unrouted {s : MonitoringAgent} {alert : SystemAlert} :
    alert ∈ s.unrouted ↔ ∃ task sent, s.waiting task = some (alert, sent) := by
  have hstage : ∀ (other : SystemAlert) (stage : RaiseStage),
      (if stage.unrouted then some other else none) = some alert ↔
        ∃ sent, stage.waiting other = some (alert, sent) := by
    intro other stage
    cases stage <;> simp [RaiseStage.unrouted, RaiseStage.waiting]
  have hscan : s.scanUnrouted = some alert ↔ ∃ sent, s.waiting .scan = some (alert, sent) := by
    unfold scanUnrouted waiting
    cases s.scan with
    | alerting it other stage => exact hstage other stage
    | sleeping => simp
    | failed => simp
  have hlistener : s.listenerUnrouted = some alert ↔ ∃ sent, s.waiting .listener = some (alert, sent) := by
    unfold listenerUnrouted waiting
    cases s.heartbeatListener with
    | alerting heartbeat other stage => exact hstage other stage
    | idle => simp
    | persisting heartbeat => simp
  rw [unrouted, List.mem_append, Option.mem_toList, Option.mem_toList, hscan, hlistener]
  constructor
  · rintro (⟨sent, h⟩ | ⟨sent, h⟩)
    · exact ⟨.scan, sent, h⟩
    · exact ⟨.listener, sent, h⟩
  · rintro ⟨task, sent, h⟩
    cases task with
    | scan => exact .inl ⟨sent, h⟩
    | listener => exact .inr ⟨sent, h⟩

private theorem Rested.not_routedRecently {alertType : AlertType} {agentName : String}
    (h : m.Rested alertType agentName) (hnoted : Noted m.view) :
    ¬m.agent.RoutedRecently (m.agent.newAlert alertType agentName) := by
  rintro ⟨r, hr, hkind, hlt⟩
  have hrested : m.Rested (m.agent.newAlert alertType agentName).alertType agentName := h
  exact absurd (hrested.routed hnoted rfl r hr hkind) (not_le.2 hlt)

private theorem Timed.scanRight (h : Timed m.view) (hright : m.ScanRight) : m.agent.ScanRight := by
  intro p hp hname hstale
  obtain ⟨hcrash, hrested⟩ := hright p hp hname hstale
  refine ⟨?_, fun hcooldown => ?_⟩
  · rintro ⟨alert, hraised, his, hlt⟩
    exact hcrash ⟨_, h.reported alert hraised his.1 p.1 his.2, rfl, hlt⟩
  · rintro ⟨r, hr, hkind, -, hlt⟩
    exact (hrested hcooldown).not_routedRecently h.noted ⟨r, hr, hkind, hlt⟩

/-- An alert that comes back late is in nobody's cooldown. -/
private theorem Timed.comesLate (h : Timed m.view) (hcooled : m.agent.Cooled)
    (hsent : alert ∈ m.agent.inFlight) (hlate : m.ComesLate alert) :
    ¬m.agent.RoutedRecently alert ∧ ∀ other ∈ m.agent.unrouted, ¬alert.SameKind other := by
  obtain ⟨hwaits, hpublished, hnewest⟩ := hlate
  have hraised := hcooled.sent alert hsent
  constructor
  · rintro ⟨r, hr, hkind, hlt⟩
    have hother := (hcooled.routed r hr).1
    rcases h.apart r.1 hother alert hraised hkind with heq | hbefore | hbefore
    · rcases List.mem_append.1 (h.noted.mem_iff.2 hr) with hmem | hmem
      · exact absurd (hpublished r hmem heq) (not_le.2 hlt)
      · exact List.disjoint_of_nodup_append h.once hsent (List.mem_map.2 ⟨r, hmem, heq⟩)
    · have hgap := hbefore.routed r hr rfl
      have hle := hcooled.raised_le alert hraised
      linarith
    · have hgap := hbefore.raised
      have hle := hnewest r.1 hother ⟨hkind.1.symm, hkind.2.symm⟩
      simp only [alertCooldownSeconds] at hgap
      linarith
  · intro other hother hkind
    obtain ⟨task, sent, hwaiting⟩ := mem_unrouted.1 hother
    obtain ⟨hraised', -, hnewest', -⟩ := h.waits task other sent hwaiting
    rcases h.apart alert hraised other hraised' hkind with rfl | hbefore | hbefore
    · exact hwaits hother
    · have hgap := hbefore.raised
      have hle := hnewest other hraised' hkind
      simp only [alertCooldownSeconds] at hgap
      linarith
    · have hgap := hbefore.raised
      have hle := hnewest' alert hraised ⟨hkind.1.symm, hkind.2.symm⟩
      simp only [alertCooldownSeconds] at hgap
      linarith

/-- A step that is quiet in the times keeps the calls apart. -/
theorem Timed.callsApart (h : Timed m.view) (hcooled : m.agent.Cooled) (hC : m.Quiet e) : m.agent.CallsApart e := by
  cases e with
  | heartbeat heartbeat => exact fun hstatus => (hC hstatus).not_routedRecently h.noted
  | wake => exact h.scanRight hC
  | scanAlert re =>
    cases re with
    | persistDone => exact h.scanRight hC
    | accept => trivial
    | publishDone => trivial
    | routeDone => trivial
  | receive i => exact fun alert hget => h.comesLate hcooled (List.mem_of_getElem? hget) (hC alert hget)
  | elapse d => trivial
  | heartbeatPersisted => trivial
  | heartbeatAlert re => trivial
  | alertRouted => trivial

end Quiet

/-! ### Runs -/

theorem timed_fresh (heartbeatTimeout : ℤ) (start : ℚ) : Timed (view ⟨fresh heartbeatTimeout start, {}⟩) where
  noted := List.Perm.refl _
  waits task alert sent h := by cases task <;> cases h
  published _ ha := absurd ha List.not_mem_nil
  apart _ ha := absurd ha List.not_mem_nil
  once := List.nodup_nil
  reported _ ha := absurd ha List.not_mem_nil

private theorem step_quiet {m m' : Monitored} {e : MonitorEvent} (h : m.agent.Cooled ∧ Timed m.view) (hC : m.Quiet e)
    (hstep : m.step e = some m') : m'.agent.Cooled ∧ Timed m'.view := by
  obtain ⟨hcooled, htimed⟩ := h
  refine ⟨?_, htimed.effect hcooled hC (step_effect hstep)⟩
  obtain ⟨agent, hagent, rfl⟩ := Option.map_eq_some_iff.1 hstep
  exact hcooled.step (htimed.callsApart hcooled hC) hagent

/-- Noting the times changes nothing. -/
private theorem exec_agent (m : Monitored) (es : List MonitorEvent) :
    (exec Monitored.step m es).map Monitored.agent = exec MonitoringAgent.step m.agent es := by
  induction es generalizing m with
  | nil => rfl
  | cons e es ih =>
    simp only [exec, Monitored.step]
    cases hstep : m.agent.step e with
    | none => rfl
    | some agent => exact ih ⟨agent, m.traffic.after m.agent e⟩

end Monitored

open Monitored

/-- In a run that is quiet in the times one notification goes out per cooldown, and the first alert of every type. -/
theorem alerts_deduplicated {heartbeatTimeout : ℤ} {start : ℚ} {es : List MonitorEvent} {s : MonitoringAgent}
    (hC : Along Monitored.step Monitored.Quiet ⟨fresh heartbeatTimeout start, {}⟩ es)
    (h : exec MonitoringAgent.step (fresh heartbeatTimeout start) es = some s) : Deduplicated s.log := by
  obtain ⟨m, hm, rfl⟩ := Option.map_eq_some_iff.1 ((exec_agent ⟨fresh heartbeatTimeout start, {}⟩ es).trans h)
  have hinit := And.intro (cooled_fresh heartbeatTimeout start) (timed_fresh heartbeatTimeout start)
  exact (exec_invariant_along (fun m : Monitored => m.agent.Cooled ∧ Timed m.view)
    (fun _ _ _ hs hC hstep => step_quiet hs hC hstep) hinit hC hm).1.deduplicated

/-- Whatever the run, calls that are spaced leave the cooldown between the publication of an alert and its coming back:
an alert that comes back at once is always notified twice. -/
theorem Spaced.received_apart {heartbeatTimeout : ℤ} {start : ℚ} {es : List MonitorEvent} {m : Monitored}
    (h : exec Monitored.step ⟨fresh heartbeatTimeout start, {}⟩ es = some m) (hspaced : Spaced m.agent.log)
    {alert : SystemAlert} {published received : ℚ} (hpublished : (alert, published) ∈ m.traffic.published)
    (hreceived : (alert, received) ∈ m.traffic.received) :
    published + alertCooldownSeconds ≤ received ∨ received + alertCooldownSeconds ≤ published := by
  have hinit : Noted (view ⟨fresh heartbeatTimeout start, {}⟩) := List.Perm.refl _
  have hnoted : Noted m.view :=
    exec_invariant (fun m : Monitored => Noted m.view) (fun _ _ _ hs hstep => (step_effect hstep).noted hs) hinit h
  have hapart : (routes m.agent.log).Pairwise fun r r' => r.1.SameKind r'.1 →
      r.2 + alertCooldownSeconds ≤ r'.2 ∨ r'.2 + alertCooldownSeconds ≤ r.2 :=
    hspaced.imp fun hkind hsame => .inl (hkind hsame)
  have hpairs := (hnoted.pairwise_iff fun hkind hsame => (hkind ⟨hsame.1.symm, hsame.2.symm⟩).symm).2 hapart
  exact (List.pairwise_append.1 hpairs).2.2 _ hpublished _ hreceived ⟨rfl, rfl⟩

def quarantinedHeartbeat (agentName : String) : AgentHeartbeat := { agentName := agentName, status := .quarantined }

/-- A quarantine is reported, and its alert raised, routed and persisted. -/
def crashAlert (agentName : String) : List MonitorEvent :=
  [.heartbeat (quarantinedHeartbeat agentName), .heartbeatAlert .accept, .heartbeatAlert .publishDone,
    .heartbeatAlert .routeDone, .heartbeatAlert .persistDone, .heartbeatPersisted]

/-- A stale alert is raised, held back in its cooldown, and comes back when that is over; a quarantine is reported at
the same time, and when its cooldown is over the agent is stale again. -/
def quietRun : List MonitorEvent :=
  [.heartbeat (runningHeartbeat "risk"), .heartbeatPersisted, .elapse 40, .wake, .scanAlert .accept,
    .scanAlert .publishDone, .scanAlert .routeDone, .scanAlert .persistDone, .elapse 100, .wake, .elapse 200,
    .receive 0, .alertRouted] ++ crashAlert "risk" ++ [.elapse 300, .wake, .scanAlert .accept, .scanAlert .publishDone]

theorem alerts_deduplicated_quiet : ∃ s, exec MonitoringAgent.step (fresh 30 0) quietRun = some s ∧
    (routes s.log).map (fun r => (r.1.alertType, r.2)) =
      [(.agentStale, 40), (.agentStale, 340), (.agentCrash, 340), (.agentStale, 640)] ∧
      AlertEntry.suppressed .agentStale "risk" ∈ s.log ∧ Deduplicated s.log := by
  have hrun : ((exec MonitoringAgent.step (fresh 30 0) quietRun).map fun s =>
      ((routes s.log).map fun r => (r.1.alertType, r.2), decide (AlertEntry.suppressed .agentStale "risk" ∈ s.log))) =
        some ([(.agentStale, 40), (.agentStale, 340), (.agentCrash, 340), (.agentStale, 640)], true) := by
    decide +kernel
  obtain ⟨s, hs, hvalues⟩ := Option.map_eq_some_iff.1 hrun
  simp only [Prod.mk.injEq, decide_eq_true_eq] at hvalues
  exact ⟨s, hs, hvalues.1, hvalues.2, alerts_deduplicated (by decide +kernel) hs⟩

/-- The alert comes back at once; the quarantine is reported again half a minute later; and the scan holds the first
stale alert back because of the crash alert. -/
theorem alerts_not_deduplicated :
    (∃ s, exec MonitoringAgent.step (fresh 30 0) (crashAlert "risk" ++ [.receive 0]) = some s ∧ ¬Spaced s.log) ∧
      (∃ s, exec MonitoringAgent.step (fresh 30 0) (crashAlert "risk" ++ .elapse 30 :: crashAlert "risk") = some s ∧
        ¬Spaced s.log) ∧
      ∃ s, exec MonitoringAgent.step (fresh 30 0) (crashAlert "risk" ++ [.elapse 40, .wake]) = some s ∧
        ¬FirstNotSuppressed s.log := by
  refine ⟨?_, ?_, ?_⟩
  · have hrun : ((exec MonitoringAgent.step (fresh 30 0) (crashAlert "risk" ++ [.receive 0])).map fun s =>
        decide (¬Spaced s.log)) = some true := by decide +kernel
    obtain ⟨s, hs, hspaced⟩ := Option.map_eq_some_iff.1 hrun
    exact ⟨s, hs, of_decide_eq_true hspaced⟩
  · have hrun : ((exec MonitoringAgent.step (fresh 30 0) (crashAlert "risk" ++ .elapse 30 :: crashAlert "risk")).map
        fun s => decide (¬Spaced s.log)) = some true := by decide +kernel
    obtain ⟨s, hs, hspaced⟩ := Option.map_eq_some_iff.1 hrun
    exact ⟨s, hs, of_decide_eq_true hspaced⟩
  · have hrun : ((exec MonitoringAgent.step (fresh 30 0) (crashAlert "risk" ++ [.elapse 40, .wake])).map fun s =>
        decide (s.log[2]? = some (.suppressed .agentStale "risk") ∧ ¬RaisedIn (s.log.take 2) .agentStale "risk")) =
          some true := by decide +kernel
    obtain ⟨s, hs, hfacts⟩ := Option.map_eq_some_iff.1 hrun
    obtain ⟨hsuppressed, hnone⟩ := of_decide_eq_true hfacts
    exact ⟨s, hs, fun hfirst => hnone (hfirst 2 _ _ hsuppressed)⟩

end MultiAgentTrading.Monitoring
