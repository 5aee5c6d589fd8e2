import MultiAgentTrading.Monitoring.Agent

/-!
# The staleness scan

The scan loops over the registry and waits in the middle of the loop while an alert is raised.  As long as no agent is
discovered in that time the scan comes to every agent once, in order (`OnCourse`); an agent discovered in it leaves the
loop with a registry of another size, which nothing mends (`Doomed`), and ends the scan for good when it goes on.
-/

namespace MultiAgentTrading.Monitoring

open Runs
open Control (AgentHeartbeat)

namespace MonitoringAgent

/-- The scan waits in the middle of its loop. -/
def suspended (s : MonitoringAgent) : Bool :=
  match s.scan with
  | .alerting _ _ _ => true
  | _ => false

/-- No scan has ended with an exception, and every one that has ended has come to every agent that was in the registry
when it started. -/
def Watched (s : MonitoringAgent) : Prop :=
  s.scan ≠ .failed ∧ ∀ p ∈ s.scans, ∀ agentName ∈ p.1, agentName ∈ p.2

instance (s : MonitoringAgent) : Decidable s.Watched :=
  inferInstanceAs (Decidable (s.scan ≠ .failed ∧ ∀ p ∈ s.scans, ∀ agentName ∈ p.1, agentName ∈ p.2))

/-- A heartbeat that is processed while the scan waits is that of an agent in the registry. -/
def NoDiscovery (s : MonitoringAgent) : MonitorEvent → Prop
  | .heartbeat heartbeat => s.suspended = true → heartbeat.agentName ∈ s.agents.keys
  | _ => True

instance NoDiscovery.decidable (s : MonitoringAgent) : ∀ e, Decidable (s.NoDiscovery e)
  | .heartbeat heartbeat => inferInstanceAs (Decidable (s.suspended = true → heartbeat.agentName ∈ s.agents.keys))
  | .elapse _ => isTrue trivial
  | .heartbeatPersisted => isTrue trivial
  | .wake => isTrue trivial
  | .scanAlert _ => isTrue trivial
  | .heartbeatAlert _ => isTrue trivial
  | .receive _ => isTrue trivial
  | .alertRouted => isTrue trivial

/-! ### What leaves the scan alone -/

/-- The registry, and what the scan has done. -/
structure SameScan (s s' : MonitoringAgent) : Prop where
  keys : s'.agents.keys = s.agents.keys
  atStart : s'.atStart = s.atStart
  scans : s'.scans = s.scans

/-- A step of raising an alert changes nothing the scan looks at. -/
theorem raiseStep_same {s s' : MonitoringAgent} {alert : SystemAlert} {stage : RaiseStage} {e : RaiseEvent}
    {next : Option RaiseStage} (h : s.raiseStep alert stage e = some (s', next)) :
    SameScan s s' ∧ s'.agents = s.agents ∧ s'.scan = s.scan ∧ s'.visited = s.visited := by
  unfold raiseStep at h
  split at h
  all_goals cases h
  all_goals exact ⟨⟨rfl, rfl, rfl⟩, rfl, rfl, rfl⟩

/-- A visit of an agent in the registry. -/
theorem visit_same {s : MonitoringAgent} {agentName : String} (h : agentName ∈ s.agents.keys) (record : AgentRecord) :
    SameScan s (s.visit agentName record).1 ∧ (s.visit agentName record).1.visited = s.visited ++ [agentName] := by
  unfold visit
  dsimp only
  split
  · exact ⟨⟨rfl, rfl, rfl⟩, rfl⟩
  · split
    · split
      · exact ⟨⟨Dict.keys_set_of_mem h, rfl, rfl⟩, rfl⟩
      · exact ⟨⟨Dict.keys_set_of_mem h, rfl, rfl⟩, rfl⟩
    · exact ⟨⟨rfl, rfl, rfl⟩, rfl⟩

/-! ### Without a discovery -/

/-- Where the loop stands: the registry is the one it started with, and it has had the first agents of it. -/
structure LoopAt (s : MonitoringAgent) (it : Dict.Iter) : Prop where
  used : it.used = s.agents.size
  atStart : s.atStart = s.agents.keys
  visited : s.visited = s.agents.keys.take it.pos

/-- A waiting scan can go on, and every scan that has ended has come to every agent once. -/
structure OnCourse (s : MonitoringAgent) : Prop where
  scan : s.scan ≠ .failed
  loop : ∀ it alert stage, s.scan = .alerting it alert stage → s.LoopAt it
  scans : ∀ p ∈ s.scans, p.2 = p.1

private theorem SameScan.loopAt {s s' : MonitoringAgent} (h : SameScan s s') (hvisited : s'.visited = s.visited)
    {it : Dict.Iter} (hloop : s.LoopAt it) : s'.LoopAt it where
  used := by rw [Dict.size_eq_length_keys, h.keys, ← Dict.size_eq_length_keys, hloop.used]
  atStart := by rw [h.atStart, h.keys, hloop.atStart]
  visited := by rw [hvisited, h.keys, hloop.visited]

/-- A step that leaves scan and registry alone. -/
private theorem OnCourse.of_same {s s' : MonitoringAgent} (h : s.OnCourse) (hsame : SameScan s s')
    (hvisited : s'.visited = s.visited) (hscan : s'.scan = s.scan) : s'.OnCourse where
  scan := hscan ▸ h.scan
  loop it alert stage hs := hsame.loopAt hvisited (h.loop it alert stage (hscan ▸ hs))
  scans := hsame.scans ▸ h.scans

private theorem getElem?_of_drop {α : Type} {l t : List α} {n : ℕ} {x : α} (h : l.drop n = x :: t) :
    l[n]? = some x ∧ l.drop (n + 1) = t := by
  have hhead : (l.drop n)[0]? = some x := by rw [h]; rfl
  rw [List.getElem?_drop] at hhead
  refine ⟨hhead, ?_⟩
  rw [← List.tail_drop, h]
  rfl

theorem OnCourse.visitAll {s : MonitoringAgent} {it : Dict.Iter} {rest : List (String × AgentRecord)}
    (hloop : s.LoopAt it) (hrest : rest.map Prod.fst = s.agents.keys.drop it.pos)
    (hscans : ∀ p ∈ s.scans, p.2 = p.1) : (MonitoringAgent.visitAll it s rest).OnCourse := by
  induction rest generalizing s it with
  | nil =>
    have hall : s.agents.keys.take it.pos = s.agents.keys :=
      List.take_of_length_le (List.drop_eq_nil_iff.1 hrest.symm)
    refine ⟨nofun, nofun, fun p hp => ?_⟩
    rcases List.mem_append.1 hp with hp | hp
    · exact hscans p hp
    · rw [List.mem_singleton.1 hp, hloop.visited, hall, hloop.atStart]
  | cons p rest ih =>
    obtain ⟨agentName, record⟩ := p
    obtain ⟨hget, hdrop⟩ := getElem?_of_drop hrest.symm
    obtain ⟨hsame, hvisited⟩ := visit_same (List.mem_of_getElem? hget) record
    have hnext : (s.visit agentName record).1.LoopAt { it with pos := it.pos + 1 } := by
      refine ⟨?_, ?_, ?_⟩
      · rw [Dict.size_eq_length_keys, hsame.keys, ← Dict.size_eq_length_keys, hloop.used]
      · rw [hsame.atStart, hsame.keys, hloop.atStart]
      · rw [hvisited, hsame.keys, hloop.visited, List.take_add_one, hget]
        rfl
    unfold MonitoringAgent.visitAll
    dsimp only
    split
    · refine ⟨nofun, ?_, hsame.scans ▸ hscans⟩
      rintro it' alert stage hs
      cases hs
      exact ⟨hnext.used, hnext.atStart, hnext.visited⟩
    · exact ih hnext (by rw [hsame.keys, hdrop]) (hsame.scans ▸ hscans)

theorem OnCourse.resumeScan {s : MonitoringAgent} {it : Dict.Iter} (hloop : s.LoopAt it)
    (hscans : ∀ p ∈ s.scans, p.2 = p.1) : (s.resumeScan it).OnCourse := by
  have hrest : it.rest s.agents = some (s.agents.entries.drop it.pos) := if_pos hloop.used.symm
  unfold MonitoringAgent.resumeScan
  rw [hrest]
  exact OnCourse.visitAll hloop (Dict.map_fst_rest hrest) hscans

/-- The registry after a heartbeat: the agent is in it. -/
private theorem keys_processHeartbeat (s : MonitoringAgent) (heartbeat : AgentHeartbeat) :
    ∃ record, (s.processHeartbeat heartbeat).agents = s.agents.set heartbeat.agentName record := by
  unfold processHeartbeat
  dsimp only
  split
  · exact ⟨_, rfl⟩
  · exact ⟨_, rfl⟩

private theorem processHeartbeat_scan (s : MonitoringAgent) (heartbeat : AgentHeartbeat) :
    (s.processHeartbeat heartbeat).scan = s.scan ∧ (s.processHeartbeat heartbeat).atStart = s.atStart ∧
      (s.processHeartbeat heartbeat).visited = s.visited ∧ (s.processHeartbeat heartbeat).scans = s.scans := by
  unfold processHeartbeat
  dsimp only
  split
  · exact ⟨rfl, rfl, rfl, rfl⟩
  · exact ⟨rfl, rfl, rfl, rfl⟩

private theorem suspended_of_alerting {s : MonitoringAgent} {it : Dict.Iter} {alert : SystemAlert} {stage : RaiseStage}
    (h : s.scan = .alerting it alert stage) : s.suspended = true := by
  unfold suspended
  rw [h]

/-- What a step of the scan's alert comes to: another stage, or the loop going on. -/
theorem scanAlert_cases {s s' : MonitoringAgent} {e : RaiseEvent} (h : s.step (.scanAlert e) = some s') :
    ∃ it alert stage mid next, s.scan = .alerting it alert stage ∧ s.raiseStep alert stage e = some (mid, next) ∧
      ((∃ stage', next = some stage' ∧ s' = { mid with scan := .alerting it alert stage' }) ∨
        next = none ∧ s' = mid.resumeScan it) := by
  simp only [step] at h
  split at h
  case h_2 => cases h
  case h_1 it alert stage hscan =>
    split at h
    case h_1 mid stage' hraise =>
      cases h
      exact ⟨it, alert, stage, mid, some stage', hscan, hraise, .inl ⟨stage', rfl, rfl⟩⟩
    case h_2 mid hraise =>
      cases h
      exact ⟨it, alert, stage, mid, none, hscan, hraise, .inr ⟨rfl, rfl⟩⟩
    case h_3 => cases h

/-- What a step of a heartbeat's alert comes to. -/
theorem heartbeatAlert_cases {s s' : MonitoringAgent} {e : RaiseEvent} (h : s.step (.heartbeatAlert e) = some s') :
    ∃ heartbeat alert stage mid next, s.heartbeatListener = .alerting heartbeat alert stage ∧
      s.raiseStep alert stage e = some (mid, next) ∧
      ((∃ stage', next = some stage' ∧ s' = { mid with heartbeatListener := .alerting heartbeat alert stage' }) ∨
        next = none ∧ s' = { mid with heartbeatListener := .persisting heartbeat }) := by
  simp only [step] at h
  split at h
  case h_2 => cases h
  case h_1 heartbeat alert stage hlistener =>
    split at h
    case h_1 mid stage' hraise =>
      cases h
      exact ⟨heartbeat, alert, stage, mid, some stage', hlistener, hraise, .inl ⟨stage', rfl, rfl⟩⟩
    case h_2 mid hraise =>
      cases h
      exact ⟨heartbeat, alert, stage, mid, none, hlistener, hraise, .inr ⟨rfl, rfl⟩⟩
    case h_3 => cases h

/-- What receiving an alert comes to. -/
theorem receive_cases {s s' : MonitoringAgent} {i : ℕ} (h : s.step (.receive i) = some s') :
    ∃ alert, s.inFlight[i]? = some alert ∧
      s' = { s.routeAlert alert with inFlight := s.inFlight.eraseIdx i, alertListener := .routing alert } := by
  simp only [step] at h
  split at h
  case h_1 alert hget _ =>
    cases h
    exact ⟨alert, hget, rfl⟩
  case h_2 => cases h

/-- The end of the write of a heartbeat, and of the routing of a received alert. -/
theorem heartbeatPersisted_eq {s s' : MonitoringAgent} (h : s.step .heartbeatPersisted = some s') :
    s' = { s with heartbeatListener := .idle } := by
  simp only [step] at h
  split at h
  case h_1 => exact (Option.some.inj h).symm
  case h_2 => cases h

theorem alertRouted_eq {s s' : MonitoringAgent} (h : s.step .alertRouted = some s') :
    s' = { s with alertListener := .idle } := by
  simp only [step] at h
  split at h
  case h_1 => exact (Option.some.inj h).symm
  case h_2 => cases h

theorem OnCourse.step {s s' : MonitoringAgent} {e : MonitorEvent} (h : s.OnCourse) (hC : s.NoDiscovery e)
    (hstep : s.step e = some s') : s'.OnCourse := by
  cases e with
  | elapse d =>
    obtain ⟨-, heq⟩ := Option.ite_none_right_eq_some.1 hstep
    cases heq
    exact h.of_same ⟨rfl, rfl, rfl⟩ rfl rfl
  | heartbeat heartbeat =>
    obtain ⟨-, heq⟩ := Option.ite_none_right_eq_some.1 hstep
    cases heq
    obtain ⟨hscan, hatStart, hvisited, hscans⟩ := processHeartbeat_scan s heartbeat
    obtain ⟨record, hagents⟩ := keys_processHeartbeat s heartbeat
    refine ⟨hscan ▸ h.scan, fun it alert stage hs => ?_, hscans ▸ h.scans⟩
    rw [hscan] at hs
    have hmem := hC (suspended_of_alerting hs)
    have hkeys : (s.processHeartbeat heartbeat).agents.keys = s.agents.keys := by
      rw [hagents, Dict.keys_set_of_mem hmem]
    exact SameScan.loopAt ⟨hkeys, hatStart, hscans⟩ hvisited (h.loop it alert stage hs)
  | heartbeatPersisted =>
    obtain rfl := heartbeatPersisted_eq hstep
    exact h.of_same ⟨rfl, rfl, rfl⟩ rfl rfl
  | wake =>
    obtain ⟨-, heq⟩ := Option.ite_none_right_eq_some.1 hstep
    cases heq
    exact OnCourse.resumeScan ⟨rfl, rfl, rfl⟩ h.scans
  | scanAlert e =>
    obtain ⟨it, alert, stage, mid, next, hscan, hraise, hnext⟩ := scanAlert_cases hstep
    obtain ⟨hsame, -, -, hvisited⟩ := raiseStep_same hraise
    have hloop := hsame.loopAt hvisited (h.loop it alert stage hscan)
    have hscans : ∀ p ∈ mid.scans, p.2 = p.1 := hsame.scans ▸ h.scans
    rcases hnext with ⟨stage', -, rfl⟩ | ⟨-, rfl⟩
    · refine ⟨nofun, ?_, hscans⟩
      rintro it' alert' stage'' hs
      cases hs
      exact ⟨hloop.used, hloop.atStart, hloop.visited⟩
    · exact OnCourse.resumeScan hloop hscans
  | heartbeatAlert e =>
    obtain ⟨heartbeat, alert, stage, mid, next, -, hraise, hnext⟩ := heartbeatAlert_cases hstep
    obtain ⟨hsame, -, hscan, hvisited⟩ := raiseStep_same hraise
    rcases hnext with ⟨stage', -, rfl⟩ | ⟨-, rfl⟩
    · exact h.of_same ⟨hsame.keys, hsame.atStart, hsame.scans⟩ hvisited hscan
    · exact h.of_same ⟨hsame.keys, hsame.atStart, hsame.scans⟩ hvisited hscan
  | receive i =>
    obtain ⟨alert, -, rfl⟩ := receive_cases hstep
    exact h.of_same ⟨rfl, rfl, rfl⟩ rfl rfl
  | alertRouted =>
    obtain rfl := alertRouted_eq hstep
    exact h.of_same ⟨rfl, rfl, rfl⟩ rfl rfl

/-! ### After a discovery -/

/-- The scan waits over a registry that has grown, or has failed. -/
def Doomed (s : MonitoringAgent) : Prop :=
  s.scan = .failed ∨ ∃ it alert stage, s.scan = .alerting it alert stage ∧ it.used < s.agents.size

private theorem Doomed.of_same {s s' : MonitoringAgent} (h : s.Doomed) (hscan : s'.scan = s.scan)
    (hsize : s.agents.size ≤ s'.agents.size) : s'.Doomed := by
  rcases h with h | ⟨it, alert, stage, hs, hlt⟩
  · exact .inl (hscan.trans h)
  · exact .inr ⟨it, alert, stage, hscan.trans hs, hlt.trans_le hsize⟩

private theorem size_le_processHeartbeat (s : MonitoringAgent) (heartbeat : AgentHeartbeat) :
    s.agents.size ≤ (s.processHeartbeat heartbeat).agents.size ∧
      (heartbeat.agentName ∉ s.agents.keys → s.agents.size < (s.processHeartbeat heartbeat).agents.size) := by
  obtain ⟨record, hagents⟩ := keys_processHeartbeat s heartbeat
  rw [hagents, Dict.size_eq_length_keys, Dict.size_eq_length_keys]
  by_cases hmem : heartbeat.agentName ∈ s.agents.keys
  · rw [Dict.keys_set_of_mem hmem]
    exact ⟨le_rfl, fun hnot => absurd hmem hnot⟩
  · rw [Dict.keys_set_of_not_mem hmem, List.length_append, List.length_singleton]
    exact ⟨Nat.le_succ _, fun _ => Nat.lt_succ_self _⟩

/-- The loop of a doomed scan goes on only to fail. -/
theorem Doomed.step {s s' : MonitoringAgent} {e : MonitorEvent} (h : s.Doomed) (hstep : s.step e = some s') :
    s'.Doomed := by
  cases e with
  | elapse d =>
    obtain ⟨-, heq⟩ := Option.ite_none_right_eq_some.1 hstep
    cases heq
    exact h.of_same rfl le_rfl
  | heartbeat heartbeat =>
    obtain ⟨-, heq⟩ := Option.ite_none_right_eq_some.1 hstep
    cases heq
    exact h.of_same (processHeartbeat_scan s heartbeat).1 (size_le_processHeartbeat s heartbeat).1
  | heartbeatPersisted =>
    obtain rfl := heartbeatPersisted_eq hstep
    exact h.of_same rfl le_rfl
  | wake =>
    obtain ⟨hsleeping, -⟩ := Option.ite_none_right_eq_some.1 hstep
    rcases h with h | ⟨it, alert, stage, hs, -⟩
    · rw [hsleeping] at h
      cases h
    · rw [hsleeping] at hs
      cases hs
  | scanAlert e =>
    obtain ⟨it, alert, stage, mid, next, hscan, hraise, hnext⟩ := scanAlert_cases hstep
    obtain ⟨-, hagents, -, -⟩ := raiseStep_same hraise
    have hlt : it.used < s.agents.size := by
      rcases h with h | ⟨it', alert', stage', hs, hlt⟩
      · rw [hscan] at h
        cases h
      · rw [hscan] at hs
        cases hs
        exact hlt
    rcases hnext with ⟨stage', -, rfl⟩ | ⟨-, rfl⟩
    · exact .inr ⟨it, alert, stage', rfl, hagents ▸ hlt⟩
    · have hrest : it.rest mid.agents = none := if_neg (by rw [hagents]; exact hlt.ne')
      unfold MonitoringAgent.resumeScan
      rw [hrest]
      exact .inl rfl
  | heartbeatAlert e =>
    obtain ⟨heartbeat, alert, stage, mid, next, -, hraise, hnext⟩ := heartbeatAlert_cases hstep
    obtain ⟨-, hagents, hscan, -⟩ := raiseStep_same hraise
    rcases hnext with ⟨stage', -, rfl⟩ | ⟨-, rfl⟩
    · exact h.of_same hscan (by rw [← hagents])
    · exact h.of_same hscan (by rw [← hagents])
  | receive i =>
    obtain ⟨alert, -, rfl⟩ := receive_cases hstep
    exact h.of_same rfl le_rfl
  | alertRouted =>
    obtain rfl := alertRouted_eq hstep
    exact h.of_same rfl le_rfl

/-- An agent discovered while the scan waits dooms it. -/
private theorem doomed_of_discovery {s s' : MonitoringAgent} {e : MonitorEvent} (h : s.OnCourse)
    (hC : ¬s.NoDiscovery e) (hstep : s.step e = some s') : s'.Doomed := by
  cases e with
  | heartbeat heartbeat =>
    obtain ⟨-, heq⟩ := Option.ite_none_right_eq_some.1 hstep
    cases heq
    simp only [NoDiscovery, Classical.not_imp] at hC
    obtain ⟨hsuspended, hnew⟩ := hC
    unfold suspended at hsuspended
    split at hsuspended
    case h_2 => cases hsuspended
    case h_1 it alert stage hs =>
      refine .inr ⟨it, alert, stage, (processHeartbeat_scan s heartbeat).1.trans hs, ?_⟩
      rw [(h.loop it alert stage hs).used]
      exact (size_le_processHeartbeat s heartbeat).2 hnew
  | elapse d => exact absurd trivial hC
  | heartbeatPersisted => exact absurd trivial hC
  | wake => exact absurd trivial hC
  | scanAlert e => exact absurd trivial hC
  | heartbeatAlert e => exact absurd trivial hC
  | receive i => exact absurd trivial hC
  | alertRouted => exact absurd trivial hC

theorem OnCourse.watched {s : MonitoringAgent} (h : s.OnCourse) : s.Watched :=
  ⟨h.scan, fun p hp _ hmem => (h.scans p hp).symm ▸ hmem⟩

/-- An agent that has just started. -/
def fresh (heartbeatTimeout : ℤ) (now : ℚ) : MonitoringAgent := { heartbeatTimeout := heartbeatTimeout, now := now }

theorem onCourse_fresh (heartbeatTimeout : ℤ) (now : ℚ) : (fresh heartbeatTimeout now).OnCourse :=
  ⟨nofun, nofun, nofun⟩

end MonitoringAgent

open MonitoringAgent

/-- The scan survives every run in which no agent is discovered while it waits, and no other run in which it does not
still wait: whatever the bus, the channels and the database do. -/
theorem watchdog_survives_iff {heartbeatTimeout : ℤ} {start : ℚ} {es : List MonitorEvent} {s : MonitoringAgent}
    (h : exec MonitoringAgent.step (fresh heartbeatTimeout start) es = some s) :
    (Along MonitoringAgent.step NoDiscovery (fresh heartbeatTimeout start) es → s.Watched) ∧
      (s.suspended = false →
        (s.Watched ↔ Along MonitoringAgent.step NoDiscovery (fresh heartbeatTimeout start) es)) := by
  have hrun : Along MonitoringAgent.step NoDiscovery (fresh heartbeatTimeout start) es → s.Watched := fun hC =>
    (exec_invariant_along OnCourse (fun _ _ _ hs hC hstep => hs.step hC hstep)
      (onCourse_fresh heartbeatTimeout start) hC h).watched
  refine ⟨hrun, fun hawake => ⟨fun hwatched => ?_, hrun⟩⟩
  have hdoomed : ¬s.Doomed := by
    rintro (hfailed | ⟨it, alert, stage, hs, -⟩)
    · exact hwatched.1 hfailed
    · rw [suspended_of_alerting hs] at hawake
      cases hawake
  exact along_of_trap OnCourse Doomed (fun _ _ _ hs hC hstep => hs.step hC hstep)
    (fun _ _ _ hs hC hstep => doomed_of_discovery hs hC hstep) (fun _ _ _ hd hstep => hd.step hstep)
    (onCourse_fresh heartbeatTimeout start) h hdoomed

def runningHeartbeat (agentName : String) : AgentHeartbeat := { agentName := agentName, status := .running }

/-- Two agents are seen, both fall silent, and while the alert about the first is under way a heartbeat arrives. -/
def staleRun (agentName : String) : List MonitorEvent :=
  [.heartbeat (runningHeartbeat "risk"), .heartbeatPersisted, .heartbeat (runningHeartbeat "decision"),
    .heartbeatPersisted, .elapse 40, .wake, .scanAlert .accept, .heartbeat (runningHeartbeat agentName),
    .heartbeatPersisted, .scanAlert .publishDone, .scanAlert .routeDone, .scanAlert .persistDone]

/-- The heartbeat is that of an agent in the registry. -/
theorem watchdog_survives_known : ∃ s, exec MonitoringAgent.step (fresh 30 0) (staleRun "decision") = some s ∧
    s.scans = [(["risk", "decision"], ["risk", "decision"])] ∧ s.Watched := by
  have hrun : ((exec MonitoringAgent.step (fresh 30 0) (staleRun "decision")).map MonitoringAgent.scans) =
      some [(["risk", "decision"], ["risk", "decision"])] := by decide +kernel
  obtain ⟨s, hs, hscans⟩ := Option.map_eq_some_iff.1 hrun
  exact ⟨s, hs, hscans, (watchdog_survives_iff hs).1 (by decide +kernel)⟩

/-- The heartbeat is that of a new agent: the scan is dead, and never came to the second agent. -/
theorem watchdog_dies : ∃ s, exec MonitoringAgent.step (fresh 30 0) (staleRun "execution") = some s ∧
    s.scan = .failed ∧ s.visited = ["risk"] ∧ ¬s.Watched := by
  have hrun : ((exec MonitoringAgent.step (fresh 30 0) (staleRun "execution")).map fun s =>
      decide (s.scan = .failed ∧ s.visited = ["risk"] ∧ ¬s.Watched)) = some true := by decide +kernel
  obtain ⟨s, hs, hfacts⟩ := Option.map_eq_some_iff.1 hrun
  exact ⟨s, hs, of_decide_eq_true hfacts⟩

end MultiAgentTrading.Monitoring
