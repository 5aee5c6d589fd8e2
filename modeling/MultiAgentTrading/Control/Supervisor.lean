import Mathlib.Algebra.Order.Ring.Rat
import Mathlib.Data.List.Basic
import MultiAgentTrading.Lib.Runs

/-!
# Restarts and the shutdown

Each agent runs in a task of `run_agent`, which starts a new instance after a crash, later each time, until the crashes
allowed are used up.  The launcher starts the tasks, sets its stop event on a signal or when a task has ended, and then
cancels every task once and waits for all of them.

A cancellation ends a task at every `await` but one: in `stop`, while the agent waits for the background tasks it has
itself cancelled, the cancellation is taken for theirs and is lost.
-/

open Runs

namespace MultiAgentTrading.Control

/-- How the run of an agent ends: cleanly, also when it is cancelled, or with an exception. -/
inductive RunOutcome | clean | crash
  deriving DecidableEq

/-- The two parts of `stop`: waiting for the cancelled background tasks, and `teardown` with the disconnection. -/
inductive StopPart | awaiting | closing
  deriving DecidableEq

/-- Where the task of an agent is: in `start`, in `run_loop`, in `stop`, asleep after a crash, or over. -/
inductive TaskPhase
  | starting
  | running
  | stopping (outcome : RunOutcome) (part : StopPart)
  | backingOff
  | done
  deriving DecidableEq

/-- The events of a task: `start` completes or raises, the run loop ends, the background tasks are gone, the rest of
`stop` completes or raises, the back-off is over. -/
inductive TaskEvent
  | startDone
  | startRaises
  | loopEnds (outcome : RunOutcome)
  | tasksGone
  | closes (raises : Bool)
  | wakes
  deriving DecidableEq

/-- A task of `run_agent`; `instances` and `waited` are history, the agents it was given or has made and the seconds it
has slept. -/
structure AgentTask where
  phase : TaskPhase
  crashCount : ℕ := 0
  instances : ℕ := 1
  waited : ℕ := 0
  deriving DecidableEq

namespace AgentTask

variable (maxCrashes : ℕ)

/-- `run_agent` at its start. -/
def runAgent : AgentTask where
  phase := if 0 < maxCrashes then .starting else .done

/-- What `run_agent` does when `agent.run()` is over. -/
def runOver (t : AgentTask) : RunOutcome → AgentTask
  | .clean => { t with phase := .done }
  | .crash =>
    { t with
      crashCount := t.crashCount + 1
      phase := if maxCrashes ≤ t.crashCount + 1 then .done else .backingOff }

def step (t : AgentTask) (e : TaskEvent) : Option AgentTask :=
  match t.phase, e with
  | .starting, .startDone => some { t with phase := .running }
  | .starting, .startRaises => some (t.runOver maxCrashes .crash)
  | .running, .loopEnds outcome => some { t with phase := .stopping outcome .awaiting }
  | .stopping outcome .awaiting, .tasksGone => some { t with phase := .stopping outcome .closing }
  | .stopping outcome .closing, .closes raises =>
    some (t.runOver maxCrashes (if raises = true then .crash else outcome))
  | .backingOff, .wakes =>
    some { t with phase := .starting, instances := t.instances + 1, waited := t.waited + 2 ^ t.crashCount }
  | _, _ => none

/-- The task is cancelled. -/
def cancel (t : AgentTask) : AgentTask :=
  match t.phase with
  | .starting => { t with phase := .done }
  | .running => { t with phase := .stopping .clean .awaiting }
  -- `except asyncio.CancelledError: pass` around `await task`
  | .stopping _ .awaiting => t
  | .stopping _ .closing => { t with phase := .done }
  | .backingOff => { t with phase := .done }
  | .done => t

end AgentTask

/-- Where `main` is: waiting for the stop event, in `_shutdown`, or over. -/
inductive LaunchPhase | waiting | shuttingDown | finished
  deriving DecidableEq

/-- The launcher: the tasks of the agents in start order, whether the API server has ended, the stop event, and whether
the watcher is still at work. -/
structure Launcher where
  tasks : List AgentTask
  apiDone : Bool := false
  stopEvent : Bool := false
  watching : Bool := true
  phase : LaunchPhase := .waiting
  deriving DecidableEq

inductive LaunchEvent
  | task (i : ℕ) (e : TaskEvent)
  | apiEnds
  | signal
  | watch
  | shutdown
  | gathered
  deriving DecidableEq

namespace Launcher

variable (maxCrashes : ℕ)

/-- `main` when it has created the tasks of its agents. -/
def main (agents : ℕ) : Launcher where
  tasks := List.replicate agents (AgentTask.runAgent maxCrashes)

/-- `_watch_for_crash`, one round of its loop. -/
def watchForCrash (m : Launcher) : Launcher :=
  if m.stopEvent = true then { m with watching := false }
  else if m.apiDone = true ∨ ∃ t ∈ m.tasks, t.phase = .done then { m with stopEvent := true, watching := false }
  else m

def step (m : Launcher) : LaunchEvent → Option Launcher
  | .task i e =>
    match m.tasks[i]? with
    | none => none
    | some t => (t.step maxCrashes e).map fun t' => { m with tasks := m.tasks.set i t' }
  | .apiEnds => some { m with apiDone := true }
  | .signal => some { m with stopEvent := true }
  | .watch => if m.watching = true then some m.watchForCrash else none
  | .shutdown =>
    -- nothing runs between two of the cancellations, so their order is not seen
    if m.phase = .waiting ∧ m.stopEvent = true then
      some { m with phase := .shuttingDown, watching := false, tasks := m.tasks.map AgentTask.cancel }
    else none
  | .gathered =>
    if m.phase = .shuttingDown ∧ m.apiDone = true ∧ ∀ t ∈ m.tasks, t.phase = .done then
      some { m with phase := .finished }
    else none

end Launcher

/-! ### The restarts are bounded -/

namespace AgentTask

/-- The crashes allowed are not used up unless the task is over, each crash but one that is slept off has been followed
by a new instance, and the sleeps add up. -/
structure Counted (maxCrashes : ℕ) (t : AgentTask) : Prop where
  crashCount : t.phase ≠ .done → t.crashCount < maxCrashes
  slept : t.waited + 2 = 2 ^ t.instances
  instances : t.instances ≤ max maxCrashes 1
  awake : t.phase ≠ .done → t.phase ≠ .backingOff → t.instances = t.crashCount + 1
  asleep : t.phase = .backingOff → t.instances = t.crashCount

variable {maxCrashes : ℕ}

theorem counted_runAgent : (runAgent maxCrashes).Counted maxCrashes where
  crashCount h := by
    by_contra hno
    exact h (by simp only [runAgent] at hno ⊢; rw [if_neg hno])
  slept := rfl
  instances := Nat.le_max_right _ _
  awake _ _ := rfl
  asleep h := by simp only [runAgent] at h; split at h <;> cases h

/-- A task that is awake and goes on, or ends, with the same counts. -/
theorem Counted.withPhase {t : AgentTask} {phase : TaskPhase} (h : t.Counted maxCrashes)
    (hphase : phase = .done ∨ (t.phase ≠ .done ∧ t.phase ≠ .backingOff ∧ phase ≠ .backingOff)) :
    ({ t with phase := phase } : AgentTask).Counted maxCrashes where
  crashCount hne := by
    rcases hphase with hdone | ⟨hnot, -, -⟩
    · exact absurd hdone hne
    · exact h.crashCount hnot
  slept := h.slept
  instances := h.instances
  awake hne _ := by
    rcases hphase with hdone | ⟨hnot, hawake, -⟩
    · exact absurd hdone hne
    · exact h.awake hnot hawake
  asleep hasleep := by
    rcases hphase with hdone | ⟨-, -, hnot⟩
    · rw [hdone] at hasleep; cases hasleep
    · exact absurd hasleep hnot

theorem Counted.runOver {t : AgentTask} (h : t.Counted maxCrashes) (hphase : t.phase ≠ .done)
    (hawake : t.phase ≠ .backingOff) (outcome : RunOutcome) : (t.runOver maxCrashes outcome).Counted maxCrashes := by
  cases outcome with
  | clean => exact h.withPhase (.inl rfl)
  | crash =>
    have hcount := h.awake hphase hawake
    unfold AgentTask.runOver
    by_cases hmax : maxCrashes ≤ t.crashCount + 1
    · rw [if_pos hmax]
      exact ⟨fun hne => absurd rfl hne, h.slept, h.instances, fun hne => absurd rfl hne, fun hno => by cases hno⟩
    · rw [if_neg hmax]
      exact ⟨fun _ => by show t.crashCount + 1 < maxCrashes; omega, h.slept, h.instances,
        fun _ hne => absurd rfl hne, fun _ => hcount⟩

/-- What a step of a task can do: go on awake, come to the end of a run, or wake up with a new instance. -/
private theorem step_cases {t t' : AgentTask} {e : TaskEvent} (hstep : t.step maxCrashes e = some t') :
    (t.phase ≠ .done ∧ t.phase ≠ .backingOff ∧
      ((∃ phase, phase ≠ .backingOff ∧ t' = { t with phase := phase }) ∨
        ∃ outcome, t' = t.runOver maxCrashes outcome)) ∨
    t.phase = .backingOff ∧
      t' = { t with phase := .starting, instances := t.instances + 1, waited := t.waited + 2 ^ t.crashCount } := by
  obtain ⟨phase, crashCount, instances, waited⟩ := t
  cases phase with
  | starting =>
    refine .inl ⟨by simp, by simp, ?_⟩
    cases e with
    | startDone => cases hstep; exact .inl ⟨.running, by simp, rfl⟩
    | startRaises => cases hstep; exact .inr ⟨.crash, rfl⟩
    | _ => cases hstep
  | running =>
    refine .inl ⟨by simp, by simp, ?_⟩
    cases e with
    | loopEnds outcome => cases hstep; exact .inl ⟨.stopping outcome .awaiting, by simp, rfl⟩
    | _ => cases hstep
  | stopping outcome part =>
    refine .inl ⟨by simp, by simp, ?_⟩
    cases part with
    | awaiting =>
      cases e with
      | tasksGone => cases hstep; exact .inl ⟨.stopping outcome .closing, by simp, rfl⟩
      | _ => cases hstep
    | closing =>
      cases e with
      | closes raises => cases hstep; exact .inr ⟨_, rfl⟩
      | _ => cases hstep
  | backingOff =>
    cases e with
    | wakes => cases hstep; exact .inr ⟨rfl, rfl⟩
    | _ => cases hstep
  | done => cases e <;> cases hstep

theorem Counted.step {t t' : AgentTask} {e : TaskEvent} (h : t.Counted maxCrashes)
    (hstep : t.step maxCrashes e = some t') : t'.Counted maxCrashes := by
  rcases step_cases hstep with ⟨hdone, hawake, ⟨phase, hphase, rfl⟩ | ⟨outcome, rfl⟩⟩ | ⟨hasleep, rfl⟩
  · exact h.withPhase (.inr ⟨hdone, hawake, hphase⟩)
  · exact h.runOver hdone hawake outcome
  · have hlt : t.crashCount < maxCrashes := h.crashCount (by rw [hasleep]; decide)
    have hcount : t.instances = t.crashCount := h.asleep hasleep
    refine ⟨fun _ => hlt, ?_, ?_, fun _ _ => congrArg (· + 1) hcount, fun hno => by cases hno⟩
    · show t.waited + 2 ^ t.crashCount + 2 = 2 ^ (t.instances + 1)
      have hslept := h.slept
      rw [Nat.pow_succ, ← hcount]
      omega
    · show t.instances + 1 ≤ _
      omega

theorem Counted.cancel {t : AgentTask} (h : t.Counted maxCrashes) : t.cancel.Counted maxCrashes := by
  unfold AgentTask.cancel
  split
  · exact h.withPhase (.inl rfl)
  · next hphase => exact h.withPhase (.inr ⟨by rw [hphase]; decide, by rw [hphase]; decide, by decide⟩)
  · exact h
  · exact h.withPhase (.inl rfl)
  · exact h.withPhase (.inl rfl)
  · exact h

end AgentTask

/-- What holds of a launcher in a run of the events `es`. -/
structure Launcher.Supervised (maxCrashes : ℕ) (es : List LaunchEvent) (m : Launcher) : Prop where
  counted : ∀ t ∈ m.tasks, t.Counted maxCrashes
  stopEvent : m.stopEvent = true → .signal ∈ es ∨ m.apiDone = true ∨ ∃ t ∈ m.tasks, t.phase = .done
  phase : m.phase ≠ .waiting → m.stopEvent = true
  finished : m.phase = .finished → m.apiDone = true ∧ ∀ t ∈ m.tasks, t.phase = .done

namespace AgentTask

theorem step_done {maxCrashes : ℕ} {t : AgentTask} (h : t.phase = .done) (e : TaskEvent) :
    t.step maxCrashes e = none := by
  obtain ⟨phase, crashCount, instances, waited⟩ := t
  cases h
  rfl

theorem cancel_done {t : AgentTask} (h : t.phase = .done) : t.cancel = t := by
  unfold AgentTask.cancel
  rw [h]

end AgentTask

namespace Launcher

variable {maxCrashes : ℕ}

theorem supervised_main (agents : ℕ) : (main maxCrashes agents).Supervised maxCrashes [] where
  counted t ht := by
    obtain rfl := List.eq_of_mem_replicate ht
    exact AgentTask.counted_runAgent
  stopEvent h := by cases h
  phase h := absurd rfl h
  finished h := by cases h

/-- A task that is over stays over in the step of another one. -/
private theorem done_of_set {tasks : List AgentTask} {i : ℕ} {t t' : AgentTask} {e : TaskEvent}
    (ht : tasks[i]? = some t) (hstep : t.step maxCrashes e = some t') {u : AgentTask} (hu : u ∈ tasks)
    (hdone : u.phase = .done) : u ∈ tasks.set i t' := by
  obtain ⟨j, hj, rfl⟩ := List.getElem_of_mem hu
  have hne : i ≠ j := by
    rintro rfl
    obtain rfl : tasks[i] = t := by
      rw [List.getElem?_eq_getElem hj] at ht
      exact Option.some.inj ht
    rw [AgentTask.step_done hdone] at hstep
    cases hstep
  exact List.mem_iff_getElem.2 ⟨j, by simpa using hj, List.getElem_set_ne hne _⟩

theorem Supervised.step {m m' : Launcher} {es : List LaunchEvent} {e : LaunchEvent}
    (h : m.Supervised maxCrashes es) (hstep : m.step maxCrashes e = some m') :
    m'.Supervised maxCrashes (es ++ [e]) := by
  have hmem : LaunchEvent.signal ∈ es → LaunchEvent.signal ∈ es ++ [e] := List.mem_append_left _
  cases e with
  | task i e =>
    cases ht : m.tasks[i]? with
    | none => simp [Launcher.step, ht] at hstep
    | some t =>
      obtain ⟨t', hstep', rfl⟩ : ∃ t', t.step maxCrashes e = some t' ∧ { m with tasks := m.tasks.set i t' } = m' := by
        simpa [Launcher.step, ht] using hstep
      refine ⟨fun u hu => ?_, fun hset => ?_, h.phase, fun hfinished => ?_⟩
      · rcases List.mem_or_eq_of_mem_set hu with hu | rfl
        · exact h.counted u hu
        · exact (h.counted t (List.mem_of_getElem? ht)).step hstep'
      · rcases h.stopEvent hset with hsignal | hapi | ⟨u, hu, hdone⟩
        · exact .inl (hmem hsignal)
        · exact .inr (.inl hapi)
        · exact .inr (.inr ⟨u, done_of_set ht hstep' hu hdone, hdone⟩)
      · have hdone := (h.finished hfinished).2 t (List.mem_of_getElem? ht)
        rw [AgentTask.step_done hdone] at hstep'
        cases hstep'
  | apiEnds =>
    cases hstep
    exact ⟨h.counted, fun _ => .inr (.inl rfl), h.phase, fun hfinished => ⟨rfl, (h.finished hfinished).2⟩⟩
  | signal =>
    cases hstep
    exact ⟨h.counted, fun _ => .inl (List.mem_append_right _ List.mem_cons_self), fun _ => rfl, h.finished⟩
  | watch =>
    simp only [Launcher.step] at hstep
    split at hstep <;> cases hstep
    unfold watchForCrash
    split
    · next hset =>
      exact ⟨h.counted, fun hset => (h.stopEvent hset).imp_left hmem, h.phase, h.finished⟩
    · split
      · next hends => exact ⟨h.counted, fun _ => .inr hends, fun _ => rfl, h.finished⟩
      · exact ⟨h.counted, fun hset => (h.stopEvent hset).imp_left hmem, h.phase, h.finished⟩
  | shutdown =>
    simp only [Launcher.step] at hstep
    split at hstep <;> cases hstep
    next hready =>
    refine ⟨fun u hu => ?_, fun hset => ?_, fun _ => hready.2, fun hno => by cases hno⟩
    · obtain ⟨t, ht, rfl⟩ := List.mem_map.1 hu
      exact (h.counted t ht).cancel
    · rcases h.stopEvent hset with hsignal | hapi | ⟨u, hu, hdone⟩
      · exact .inl (hmem hsignal)
      · exact .inr (.inl hapi)
      · exact .inr (.inr ⟨u, List.mem_map.2 ⟨u, hu, AgentTask.cancel_done hdone⟩, hdone⟩)
  | gathered =>
    simp only [Launcher.step] at hstep
    split at hstep <;> cases hstep
    next hready =>
    exact ⟨h.counted, fun hset => (h.stopEvent hset).imp_left hmem,
      fun _ => h.phase (by rw [hready.1]; decide), fun _ => hready.2⟩

theorem Supervised.exec {m m' : Launcher} {es es' : List LaunchEvent} (h : m.Supervised maxCrashes es)
    (hexec : exec (Launcher.step maxCrashes) m es' = some m') : m'.Supervised maxCrashes (es ++ es') := by
  induction es' generalizing m es with
  | nil => cases hexec; rwa [List.append_nil]
  | cons e es' ih =>
    obtain ⟨m₁, hstep, hexec⟩ := exec_cons.1 hexec
    rw [← List.singleton_append, ← List.append_assoc]
    exact ih (h.step hstep) hexec

end Launcher

/-- In every run of the launcher no agent is made more often than crashes are allowed (one is made in any case), and
after `n` instances the task has slept `2 ^ n - 2` seconds.  The stop event is set only if a signal has come, a task has
given up or ended, or the server has, and the launcher is over only when all of them are. -/
theorem restarts_bounded {maxCrashes agents : ℕ} {es : List LaunchEvent} {m : Launcher}
    (h : exec (Launcher.step maxCrashes) (Launcher.main maxCrashes agents) es = some m) :
    (∀ t ∈ m.tasks, t.instances ≤ max maxCrashes 1 ∧ t.waited + 2 = 2 ^ t.instances) ∧
      (m.stopEvent = true → .signal ∈ es ∨ m.apiDone = true ∨ ∃ t ∈ m.tasks, t.phase = .done) ∧
      (m.phase ≠ .waiting → m.stopEvent = true) ∧
      (m.phase = .finished → m.apiDone = true ∧ ∀ t ∈ m.tasks, t.phase = .done) := by
  have hm := (Launcher.supervised_main agents).exec h
  exact ⟨fun t ht => ⟨(hm.counted t ht).instances, (hm.counted t ht).slept⟩, hm.stopEvent, hm.phase, hm.finished⟩

/-- The first of two agents fails twice in `start`, the launcher sees that it is over, and shuts down. -/
def exhausted : List LaunchEvent :=
  [.task 1 .startDone, .task 0 .startRaises, .watch, .task 0 .wakes, .task 0 .startRaises, .watch, .shutdown,
    .task 1 .tasksGone, .task 1 (.closes false), .apiEnds, .gathered]

theorem restarts_bounded_exhausted : ∃ m, exec (Launcher.step 2) (Launcher.main 2 2) exhausted = some m ∧
    m.tasks.map (fun t => (t.instances, t.waited)) = [(2, 2), (1, 0)] ∧ m.phase = .finished ∧
    ∀ t ∈ m.tasks, t.instances ≤ max 2 1 ∧ t.waited + 2 = 2 ^ t.instances := by
  obtain ⟨m, hm⟩ : ∃ m, exec (Launcher.step 2) (Launcher.main 2 2) exhausted = some m := ⟨_, rfl⟩
  have hend : exec (Launcher.step 2) (Launcher.main 2 2) exhausted = some _ := rfl
  obtain rfl := Option.some.inj (hend.symm.trans hm)
  exact ⟨_, hm, rfl, rfl, (restarts_bounded hm).1⟩

/-! ### What a shutdown leaves running -/

namespace AgentTask

variable {maxCrashes : ℕ}

/-- A task that cannot come to another instance: it is over, or it stops and the end of `stop` is the last of it;
`quiet` is that `stop` does not raise. -/
def Ending (maxCrashes : ℕ) (quiet : Prop) (t : AgentTask) : Prop :=
  t.phase = .done ∨ ∃ outcome part, t.phase = .stopping outcome part ∧
    (maxCrashes ≤ t.crashCount + 1 ∨ quiet ∧ outcome = .clean)

theorem Ending.step {quiet : Prop} {t t' : AgentTask} {e : TaskEvent} (h : t.Ending maxCrashes quiet)
    (hquiet : quiet → e ≠ .closes true) (hstep : t.step maxCrashes e = some t') :
    t'.Ending maxCrashes quiet ∧ t'.instances = t.instances := by
  rcases h with hdone | ⟨outcome, part, hphase, hlast⟩
  · rw [step_done hdone] at hstep
    cases hstep
  obtain ⟨phase, crashCount, instances, waited⟩ := t
  cases hphase
  cases part with
  | awaiting =>
    cases e <;> cases hstep
    exact ⟨.inr ⟨outcome, .closing, rfl, hlast⟩, rfl⟩
  | closing =>
    cases e <;> cases hstep
    next raises =>
    rcases hlast with hmax | ⟨hq, rfl⟩
    · cases hout : (if raises = true then RunOutcome.crash else outcome) with
      | clean => exact ⟨.inl rfl, rfl⟩
      | crash => exact ⟨.inl (if_pos hmax), rfl⟩
    · cases raises with
      | false => exact ⟨.inl rfl, rfl⟩
      | true => exact absurd rfl (hquiet hq)

/-- After its cancellation a task is over, or it waits in `stop` for the background tasks. -/
theorem ending_cancel {quiet : Prop} {t : AgentTask}
    (h : ∀ outcome, t.cancel.phase = .stopping outcome .awaiting →
      maxCrashes ≤ t.crashCount + 1 ∨ quiet ∧ outcome = .clean) : t.cancel.Ending maxCrashes quiet := by
  obtain ⟨phase, crashCount, instances, waited⟩ := t
  cases phase with
  | starting => exact .inl rfl
  | running => exact .inr ⟨.clean, .awaiting, rfl, h .clean rfl⟩
  | stopping outcome part =>
    cases part with
    | awaiting => exact .inr ⟨outcome, .awaiting, rfl, h outcome rfl⟩
    | closing => exact .inl rfl
  | backingOff => exact .inl rfl
  | done => exact .inl rfl

theorem cancel_instances (t : AgentTask) : t.cancel.instances = t.instances := by
  unfold AgentTask.cancel
  split <;> rfl

/-- What is cancelled into waiting for the background tasks: the run loop, and a `stop` that waits for them already. -/
theorem cancel_awaiting {t : AgentTask} {outcome : RunOutcome} (h : t.cancel.phase = .stopping outcome .awaiting) :
    t.phase = .stopping outcome .awaiting ∨ t.phase = .running ∧ outcome = .clean := by
  obtain ⟨phase, crashCount, instances, waited⟩ := t
  cases phase with
  | stopping outcome' part => cases part <;> cases h; exact .inl rfl
  | running => cases h; exact .inr ⟨rfl, rfl⟩
  | starting => cases h
  | backingOff => cases h
  | done => cases h

end AgentTask

namespace Launcher

variable {maxCrashes : ℕ}

/-- The events after the shutdown of `m` can make task `i` go on with another instance, events of `C` alone. -/
def RestartsAfterShutdown (maxCrashes : ℕ) (m : Launcher) (i : ℕ) (C : LaunchEvent → Prop) : Prop :=
  ∃ es m', (∀ e ∈ es, C e) ∧ exec (step maxCrashes) m (.shutdown :: es) = some m' ∧
    ∃ t ∈ m.tasks[i]?, ∃ t' ∈ m'.tasks[i]?, t.instances < t'.instances

/-- A launcher that shuts down leaves an ending task as it is, unless the event is one of the task. -/
private theorem ending_step {quiet : Prop} {m m' : Launcher} {i : ℕ} {t : AgentTask} {e : LaunchEvent}
    (hphase : m.phase ≠ .waiting) (ht : m.tasks[i]? = some t) (h : t.Ending maxCrashes quiet)
    (hquiet : quiet → e ≠ .task i (.closes true)) (hstep : m.step maxCrashes e = some m') :
    m'.phase ≠ .waiting ∧
      ∃ t', m'.tasks[i]? = some t' ∧ t'.Ending maxCrashes quiet ∧ t'.instances = t.instances := by
  cases e with
  | task j e =>
    cases hu : m.tasks[j]? with
    | none => simp [Launcher.step, hu] at hstep
    | some u =>
      obtain ⟨u', hstep', rfl⟩ : ∃ u', u.step maxCrashes e = some u' ∧ { m with tasks := m.tasks.set j u' } = m' := by
        simpa [Launcher.step, hu] using hstep
      refine ⟨hphase, ?_⟩
      by_cases hij : j = i
      · subst hij
        obtain rfl := Option.some.inj (ht.symm.trans hu)
        obtain ⟨hending, hcount⟩ := h.step (fun hq he => hquiet hq (by rw [he])) hstep'
        obtain ⟨hj, -⟩ := List.getElem?_eq_some_iff.1 ht
        exact ⟨u', List.getElem?_set_self hj, hending, hcount⟩
      · exact ⟨t, by show (m.tasks.set j u')[i]? = some t; rw [List.getElem?_set_ne hij, ht], h, rfl⟩
  | apiEnds => cases hstep; exact ⟨hphase, t, ht, h, rfl⟩
  | signal => cases hstep; exact ⟨hphase, t, ht, h, rfl⟩
  | watch =>
    simp only [Launcher.step] at hstep
    split at hstep <;> cases hstep
    unfold watchForCrash
    split
    · exact ⟨hphase, t, ht, h, rfl⟩
    · split <;> exact ⟨hphase, t, ht, h, rfl⟩
  | shutdown =>
    simp only [Launcher.step] at hstep
    rw [if_neg fun hready => hphase hready.1] at hstep
    cases hstep
  | gathered =>
    simp only [Launcher.step] at hstep
    split at hstep <;> cases hstep
    exact ⟨fun hno => (by cases hno), t, ht, h, rfl⟩

private theorem ending_exec {quiet : Prop} {m m' : Launcher} {i : ℕ} {t : AgentTask} {es : List LaunchEvent}
    (hphase : m.phase ≠ .waiting) (ht : m.tasks[i]? = some t) (h : t.Ending maxCrashes quiet)
    (hquiet : quiet → ∀ e ∈ es, e ≠ .task i (.closes true)) (hexec : exec (step maxCrashes) m es = some m') :
    ∃ t', m'.tasks[i]? = some t' ∧ t'.instances = t.instances := by
  induction es generalizing m t with
  | nil => cases hexec; exact ⟨t, ht, rfl⟩
  | cons e es ih =>
    obtain ⟨m₁, hstep, hexec⟩ := exec_cons.1 hexec
    obtain ⟨hphase₁, t₁, ht₁, h₁, hcount⟩ :=
      ending_step hphase ht h (fun hq => hquiet hq e List.mem_cons_self) hstep
    obtain ⟨t', ht', hcount'⟩ := ih hphase₁ ht₁ h₁ (fun hq e he => hquiet hq e (List.mem_cons_of_mem _ he)) hexec
    exact ⟨t', ht', hcount'.trans hcount⟩

/-- The state in which the shutdown has cancelled the tasks. -/
theorem step_shutdown {m : Launcher} (hphase : m.phase = .waiting) (hstop : m.stopEvent = true) :
    m.step maxCrashes .shutdown =
      some { m with phase := .shuttingDown, watching := false, tasks := m.tasks.map AgentTask.cancel } :=
  if_pos ⟨hphase, hstop⟩

/-- No other instance if the cancelled task is ending. -/
private theorem not_restarts (quiet : Prop) {m : Launcher} {i : ℕ} {t : AgentTask} {C : LaunchEvent → Prop}
    (hphase : m.phase = .waiting) (hstop : m.stopEvent = true) (ht : m.tasks[i]? = some t)
    (hC : quiet → ∀ e, C e → e ≠ .task i (.closes true)) (h : t.cancel.Ending maxCrashes quiet) :
    ¬m.RestartsAfterShutdown maxCrashes i C := by
  rintro ⟨es, m', hes, hexec, t₀, ht₀, t', ht', hlt⟩
  obtain ⟨m₁, hshut, hexec⟩ := exec_cons.1 hexec
  rw [step_shutdown hphase hstop] at hshut
  cases hshut
  obtain ⟨t'', ht'', hcount⟩ := ending_exec (t := t.cancel) (fun hno => by cases hno) (by simp [ht]) h
    (fun hq e he => hC hq e (hes e he)) hexec
  obtain rfl := Option.some.inj (ht.symm.trans ht₀)
  obtain rfl := Option.some.inj (ht''.symm.trans ht')
  rw [hcount, AgentTask.cancel_instances] at hlt
  exact Nat.lt_irrefl _ hlt

/-- A run of one task is a run of the launcher. -/
theorem exec_task {m : Launcher} {i : ℕ} {t t' : AgentTask} {es : List TaskEvent} (ht : m.tasks[i]? = some t)
    (hexec : exec (AgentTask.step maxCrashes) t es = some t') :
    exec (step maxCrashes) m (es.map (.task i)) = some { m with tasks := m.tasks.set i t' } := by
  induction es generalizing m t with
  | nil =>
    cases hexec
    obtain ⟨hi, rfl⟩ := List.getElem?_eq_some_iff.1 ht
    rw [List.set_getElem_self]
    rfl
  | cons e es ih =>
    obtain ⟨t₁, hstep, hexec⟩ := exec_cons.1 hexec
    obtain ⟨hi, -⟩ := List.getElem?_eq_some_iff.1 ht
    refine exec_cons.2 ⟨{ m with tasks := m.tasks.set i t₁ }, by simp [step, ht, hstep], ?_⟩
    rw [ih (List.getElem?_set_self hi) hexec, List.set_set]

/-- A cancelled task that waits for the background tasks goes on with another instance if `stop` or the run loop raises
and a crash is left. -/
private theorem restarts (outcome : RunOutcome) (raises : Bool) {m : Launcher} {i : ℕ} {t : AgentTask}
    {C : LaunchEvent → Prop} (hphase : m.phase = .waiting) (hstop : m.stopEvent = true) (ht : m.tasks[i]? = some t)
    (hleft : t.crashCount + 1 < maxCrashes) (hcancel : t.cancel = { t with phase := .stopping outcome .awaiting })
    (hout : (if raises = true then RunOutcome.crash else outcome) = .crash)
    (hC : ∀ e, e = .tasksGone ∨ e = .closes raises ∨ e = .wakes → C (.task i e)) :
    m.RestartsAfterShutdown maxCrashes i C := by
  obtain ⟨hi, -⟩ := List.getElem?_eq_some_iff.1 ht
  have hover : ({ t with phase := .stopping outcome .closing } : AgentTask).runOver maxCrashes .crash =
      { t with crashCount := t.crashCount + 1, phase := .backingOff } := by
    simp only [AgentTask.runOver]
    rw [if_neg (Nat.not_le.2 hleft)]
  have hrun : exec (AgentTask.step maxCrashes) t.cancel [.tasksGone, .closes raises, .wakes] =
      some { t with
        phase := .starting
        crashCount := t.crashCount + 1
        instances := t.instances + 1
        waited := t.waited + 2 ^ (t.crashCount + 1) } := by
    simp only [exec, hcancel, AgentTask.step, Option.bind_some, hout]
    rw [hover]
    rfl
  refine ⟨[.tasksGone, .closes raises, .wakes].map (.task i), _, ?_,
    exec_cons.2 ⟨_, step_shutdown hphase hstop, exec_task (by simp [ht]) hrun⟩,
    t, ht, _, List.getElem?_set_self (by simpa using hi), Nat.lt_succ_self t.instances⟩
  intro e he
  obtain ⟨e, he, rfl⟩ := List.mem_map.1 he
  exact hC e (by simpa using he)

end Launcher

/-- The shutdown makes an agent start again, after the tasks have been cancelled, exactly if a crash is left and the
agent is in its run loop, or waits in `stop` for its background tasks; and, when nothing in `stop` raises after the
cancellation, exactly if it waits there because the run loop has crashed. -/
theorem restarts_after_shutdown_iff {maxCrashes : ℕ} {m : Launcher} {i : ℕ} {t : AgentTask}
    (hphase : m.phase = .waiting) (hstop : m.stopEvent = true) (ht : m.tasks[i]? = some t) :
    (m.RestartsAfterShutdown maxCrashes i (fun _ => True) ↔
      t.crashCount + 1 < maxCrashes ∧ (t.phase = .running ∨ ∃ outcome, t.phase = .stopping outcome .awaiting)) ∧
    (m.RestartsAfterShutdown maxCrashes i (· ≠ .task i (.closes true)) ↔
      t.crashCount + 1 < maxCrashes ∧ t.phase = .stopping .crash .awaiting) := by
  refine ⟨⟨fun h => ?_, ?_⟩, fun h => ?_, ?_⟩
  · by_contra hno
    refine Launcher.not_restarts False hphase hstop ht (fun hq => hq.elim) ?_ h
    refine AgentTask.ending_cancel fun outcome hcancel => .inl ?_
    by_contra hleft
    refine hno ⟨Nat.lt_of_not_le hleft, ?_⟩
    rcases AgentTask.cancel_awaiting hcancel with hwaits | ⟨hruns, -⟩
    · exact .inr ⟨outcome, hwaits⟩
    · exact .inl hruns
  · rintro ⟨hleft, hruns | ⟨outcome, hwaits⟩⟩
    · exact Launcher.restarts .clean true hphase hstop ht hleft (by simp [AgentTask.cancel, hruns]) rfl
        fun _ _ => trivial
    · exact Launcher.restarts outcome true hphase hstop ht hleft
        (by simp only [AgentTask.cancel, hwaits]; rw [← hwaits]) rfl fun _ _ => trivial
  · by_contra hno
    refine Launcher.not_restarts True hphase hstop ht (fun _ e he => he) ?_ h
    refine AgentTask.ending_cancel fun outcome hcancel => ?_
    by_contra hleft
    rw [not_or] at hleft
    rcases AgentTask.cancel_awaiting hcancel with hwaits | ⟨-, hclean⟩
    · cases outcome with
      | clean => exact hleft.2 ⟨trivial, rfl⟩
      | crash => exact hno ⟨Nat.lt_of_not_le hleft.1, hwaits⟩
    · exact hleft.2 ⟨trivial, hclean⟩
  · rintro ⟨hleft, hwaits⟩
    refine Launcher.restarts .crash false hphase hstop ht hleft
      (by simp only [AgentTask.cancel, hwaits]; rw [← hwaits]) rfl fun e he hno => ?_
    rcases he with rfl | rfl | rfl <;> cases hno

/-- A signal comes while the second agent, which has crashed, waits for its background tasks. -/
def crashing : Launcher where
  tasks := [{ phase := .running }, { phase := .stopping .crash .awaiting }]
  stopEvent := true

theorem restarts_after_shutdown_crashing :
    exec (Launcher.step 3) (Launcher.main 3 2)
        [.task 0 .startDone, .task 1 .startDone, .task 1 (.loopEnds .crash), .signal] = some crashing ∧
      crashing.RestartsAfterShutdown 3 1 (· ≠ .task 1 (.closes true)) ∧
      ¬crashing.RestartsAfterShutdown 3 0 (· ≠ .task 0 (.closes true)) :=
  ⟨rfl, (restarts_after_shutdown_iff (i := 1) rfl rfl rfl).2.2 ⟨by decide, rfl⟩,
    fun h => absurd ((restarts_after_shutdown_iff (i := 0) rfl rfl rfl).2.1 h).2 (by decide)⟩

end MultiAgentTrading.Control
