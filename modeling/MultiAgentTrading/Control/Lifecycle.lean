import MultiAgentTrading.Lib.Runs
import Mathlib.Data.List.Basic

/-!
# The life of an agent

Start, errors and the circuit breaker, the heartbeat task, and stop, with everything that can happen between two awaits
as one event.  The circuit breaker sets the status and the stop event together, and the heartbeat task looks at the stop
event before it looks at the status, so that no heartbeat tells of a quarantine (`quarantine_never_reported`).
-/

namespace MultiAgentTrading.Control

open Runs

inductive AgentStatus | starting | running | paused | stopping | stopped | error | quarantined
  deriving DecidableEq, Repr

/-- What a heartbeat says of its agent. -/
structure AgentHeartbeat where
  agentName : String
  status : AgentStatus
  messagesProcessed : ℕ := 0
  errorsSinceStart : ℕ := 0
  deriving DecidableEq

/-- Where the heartbeat task is: not created, about to test the stop event, publishing, or ended. -/
inductive HeartbeatTask
  | none
  | waiting
  | publishing (heartbeat : AgentHeartbeat)
  | ended
  deriving DecidableEq

/-- An agent object.  `tripped` and `stopped` are history: whether the consecutive errors have reached the limit, and
whether a `stop` has completed since; `stops` counts the calls of `stop` under way. -/
structure BaseAgent where
  name : String
  maxConsecutiveErrors : ℕ
  status : AgentStatus := .starting
  stopEvent : Bool := false
  heartbeatTask : HeartbeatTask := .none
  consecutiveErrors : ℕ := 0
  totalErrors : ℕ := 0
  messagesProcessed : ℕ := 0
  published : List AgentHeartbeat := []
  stops : ℕ := 0
  tripped : Bool := false
  stopped : Bool := false
  deriving DecidableEq

/-- The events: the two halves of `start` around `setup`, a success, an error that the agent handles, one that ends the
run loop, the heartbeat task going on after its sleep or its publication, and the steps of a `stop`. -/
inductive LifeEvent
  | start
  | setupDone
  | success
  | error
  | runLoopError
  | tick
  | sent
  | stop
  | cancelHeartbeat
  | stopDone
  deriving DecidableEq

namespace BaseAgent

/-- `_record_success`. -/
def recordSuccess (a : BaseAgent) : BaseAgent :=
  { a with consecutiveErrors := 0, messagesProcessed := a.messagesProcessed + 1 }

/-- `_handle_error`. -/
def handleError (a : BaseAgent) : BaseAgent :=
  let a' := { a with consecutiveErrors := a.consecutiveErrors + 1, totalErrors := a.totalErrors + 1 }
  if a'.maxConsecutiveErrors ≤ a'.consecutiveErrors then
    { a' with status := .quarantined, stopEvent := true, tripped := true, stopped := false }
  else a'

/-- The heartbeat that is built now. -/
def heartbeat (a : BaseAgent) : AgentHeartbeat where
  agentName := a.name
  status := a.status
  messagesProcessed := a.messagesProcessed
  errorsSinceStart := a.totalErrors

/-- The heartbeat loop between two awaits: test the stop event and build the next heartbeat. -/
def tick (a : BaseAgent) : BaseAgent :=
  { a with heartbeatTask := if a.stopEvent then .ended else .publishing a.heartbeat }

def step (a : BaseAgent) : LifeEvent → Option BaseAgent
  | .start => some { a with status := .starting }
  | .setupDone =>
    if a.heartbeatTask = .none then some { a with heartbeatTask := .waiting, status := .running } else none
  | .success => some a.recordSuccess
  | .error => some a.handleError
  | .runLoopError => some ({ a with status := .error } : BaseAgent).handleError
  | .tick => if a.heartbeatTask = .waiting then some a.tick else none
  | .sent =>
    match a.heartbeatTask with
    | .publishing heartbeat =>
      some { a with heartbeatTask := .waiting, published := a.published ++ [heartbeat] }
    | _ => none
  | .stop => some { a with status := .stopping, stopEvent := true, stops := a.stops + 1 }
  | .cancelHeartbeat =>
    if 0 < a.stops ∧ a.heartbeatTask ≠ .none then some { a with heartbeatTask := .ended } else none
  | .stopDone =>
    if 0 < a.stops ∧ (a.heartbeatTask = .none ∨ a.heartbeatTask = .ended) then
      some { a with status := .stopped, stops := a.stops - 1, stopped := true }
    else none

/-- A heartbeat with the status of a quarantine has been published. -/
def Reported (a : BaseAgent) : Prop := ∃ heartbeat ∈ a.published, heartbeat.status = .quarantined

instance (a : BaseAgent) : Decidable a.Reported :=
  inferInstanceAs (Decidable (∃ heartbeat ∈ a.published, heartbeat.status = .quarantined))

/-- Whenever the status is that of a quarantine the stop event is set; no heartbeat under way or published has it. -/
structure Quiet (a : BaseAgent) : Prop where
  stopEvent : a.status = .quarantined → a.stopEvent = true
  publishing : ∀ heartbeat, a.heartbeatTask = .publishing heartbeat → heartbeat.status ≠ .quarantined
  published : ∀ heartbeat ∈ a.published, heartbeat.status ≠ .quarantined

private theorem Quiet.handleError {a : BaseAgent} (h : a.Quiet) : a.handleError.Quiet := by
  unfold BaseAgent.handleError
  dsimp only
  split
  case isTrue => exact ⟨fun _ => rfl, h.publishing, h.published⟩
  case isFalse => exact ⟨h.stopEvent, h.publishing, h.published⟩

/-- A heartbeat is built only if the stop event is not set. -/
private theorem Quiet.tick {a : BaseAgent} (h : a.Quiet) : a.tick.Quiet := by
  refine ⟨h.stopEvent, fun heartbeat hb => ?_, h.published⟩
  simp only [BaseAgent.tick] at hb
  split at hb
  case isTrue => cases hb
  case isFalse hset =>
    cases hb
    intro hstatus
    exact hset (h.stopEvent hstatus)

/-- Another status than that of a quarantine, and the heartbeat task where it was, or about to test, or ended. -/
private theorem Quiet.of_status {a a' : BaseAgent} (h : a.Quiet) (hstatus : a'.status ≠ .quarantined)
    (htask : a'.heartbeatTask = a.heartbeatTask ∨ a'.heartbeatTask = .waiting)
    (hpublished : a'.published = a.published) : a'.Quiet := by
  refine ⟨fun heq => absurd heq hstatus, fun heartbeat hb => ?_, fun heartbeat hb => ?_⟩
  · rcases htask with htask | htask
    · exact h.publishing heartbeat (htask ▸ hb)
    · rw [htask] at hb
      cases hb
  · exact h.published heartbeat (hpublished ▸ hb)

theorem Quiet.step {a a' : BaseAgent} {e : LifeEvent} (h : a.Quiet) (hstep : a.step e = some a') : a'.Quiet := by
  cases e with
  | start =>
    cases hstep
    exact h.of_status nofun (.inl rfl) rfl
  | setupDone =>
    obtain ⟨-, heq⟩ := Option.ite_none_right_eq_some.1 hstep
    cases heq
    exact h.of_status nofun (.inr rfl) rfl
  | success =>
    cases hstep
    exact ⟨h.stopEvent, h.publishing, h.published⟩
  | error =>
    cases hstep
    exact h.handleError
  | runLoopError =>
    cases hstep
    have herror : ({ a with status := .error } : BaseAgent).Quiet := h.of_status nofun (.inl rfl) rfl
    exact herror.handleError
  | tick =>
    obtain ⟨-, heq⟩ := Option.ite_none_right_eq_some.1 hstep
    cases heq
    exact h.tick
  | sent =>
    simp only [BaseAgent.step] at hstep
    split at hstep
    case h_1 heartbeat hpublishing =>
      cases hstep
      refine ⟨h.stopEvent, fun _ hb => (by cases hb), fun hb hmem => ?_⟩
      rcases List.mem_append.1 hmem with hmem | hmem
      · exact h.published hb hmem
      · rw [List.mem_singleton.1 hmem]
        exact h.publishing heartbeat hpublishing
    case h_2 => cases hstep
  | stop =>
    cases hstep
    exact h.of_status nofun (.inl rfl) rfl
  | cancelHeartbeat =>
    obtain ⟨-, heq⟩ := Option.ite_none_right_eq_some.1 hstep
    cases heq
    exact ⟨h.stopEvent, fun _ hb => (by cases hb), h.published⟩
  | stopDone =>
    obtain ⟨-, heq⟩ := Option.ite_none_right_eq_some.1 hstep
    cases heq
    exact h.of_status nofun (.inl rfl) rfl

theorem quiet_new (name : String) (maxConsecutiveErrors : ℕ) :
    ({ name := name, maxConsecutiveErrors := maxConsecutiveErrors } : BaseAgent).Quiet :=
  ⟨nofun, nofun, nofun⟩

end BaseAgent

/-- No run of an agent publishes a heartbeat with the status of a quarantine, whatever its limit and however its errors,
successes, heartbeats and stops are ordered. -/
theorem quarantine_never_reported {name : String} {maxConsecutiveErrors : ℕ} {es : List LifeEvent} {a : BaseAgent}
    (h : exec BaseAgent.step { name := name, maxConsecutiveErrors := maxConsecutiveErrors } es = some a) :
    ¬a.Reported := by
  rintro ⟨heartbeat, hmem, hstatus⟩
  have hquiet := exec_invariant BaseAgent.Quiet (fun _ _ _ hq hstep => hq.step hstep)
    (BaseAgent.quiet_new name maxConsecutiveErrors) h
  exact hquiet.published heartbeat hmem hstatus

/-- An agent sends a heartbeat, fails three times while the second one is under way, and stops. -/
def quarantinedRun : List LifeEvent :=
  [.start, .setupDone, .tick, .sent, .success, .tick, .error, .error, .error, .sent, .tick, .stop, .stopDone]

theorem quarantine_never_reported_three :
    ∃ a, exec BaseAgent.step { name := "risk", maxConsecutiveErrors := 3 } quarantinedRun = some a ∧ ¬a.Reported := by
  have hrun : (exec BaseAgent.step { name := "risk", maxConsecutiveErrors := 3 } quarantinedRun).isSome = true := by
    decide +kernel
  obtain ⟨a, ha⟩ := Option.isSome_iff_exists.1 hrun
  exact ⟨a, ha, quarantine_never_reported ha⟩

/-- The errors reach the limit and the stop completes, and both heartbeats say that the agent is running. -/
theorem quarantine_unreported : ∃ a,
    exec BaseAgent.step { name := "risk", maxConsecutiveErrors := 3 } quarantinedRun = some a ∧
      (a.tripped = true ∧ a.stopped = true) ∧ a.published.map AgentHeartbeat.status = [.running, .running] ∧
      ¬a.Reported := by
  have hrun : ((exec BaseAgent.step { name := "risk", maxConsecutiveErrors := 3 } quarantinedRun).map fun a =>
      decide ((a.tripped = true ∧ a.stopped = true) ∧ a.published.map AgentHeartbeat.status = [.running, .running] ∧
        ¬a.Reported)) = some true := by
    decide +kernel
  obtain ⟨a, ha, hfacts⟩ := Option.map_eq_some_iff.1 hrun
  exact ⟨a, ha, of_decide_eq_true hfacts⟩

end MultiAgentTrading.Control
