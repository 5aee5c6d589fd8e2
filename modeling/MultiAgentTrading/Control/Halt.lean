import MultiAgentTrading.Lib.Runs
import Mathlib.Data.List.Basic

/-!
# Halting all agents

A halt is persisted as a latch and then broadcast.  An agent reads the latch when it starts and subscribes to the
broadcast some time later, when its run loop may be under way.  An instance is covered if it is halted, stopping, or has
an override on its way; the latch covers those that read it after it was written, the broadcast those subscribed when it
goes out.  `halt_covers` says what must hold for the two to leave no gap.
-/

namespace MultiAgentTrading.Control

open Runs

/-- A `RiskOverride` as it is broadcast. -/
structure Override where
  reason : String
  triggeredBy : String
  requiresHumanReset : Bool := true
  deriving DecidableEq

/-- How far `start` has come: before the latch is read, before the run loop, or in the run loop. -/
inductive AgentPhase | connecting | settingUp | running
  deriving DecidableEq

/-- An agent instance: `listening` once its override listener has subscribed, `inbox` what it has yet to receive. -/
structure AgentInstance where
  name : String
  phase : AgentPhase := .connecting
  listening : Bool := false
  inbox : List Override := []
  tradingHalted : Bool := false
  stopping : Bool := false

/-- A halt that has written the latch and not published yet; `cleared` once the latch has been cleared since. -/
structure PendingHalt where
  override : Override
  cleared : Bool := false

/-- The latch, the agent instances, the halts under way, and whether one has completed since the latch was cleared. -/
structure ControlPlane where
  latch : Option String := none
  instances : List AgentInstance := []
  pending : List PendingHalt := []
  completed : Bool := false

/-- The events: an instance starts, reads the latch, enters its run loop, subscribes, receives an override, is stopped,
or is gone; a halt writes the latch or publishes; the latch is cleared. -/
inductive ControlEvent
  | start (name : String)
  | readLatch (i : ℕ)
  | enterLoop (i : ℕ)
  | subscribe (i : ℕ)
  | receive (i : ℕ)
  | stop (i : ℕ)
  | exit (i : ℕ)
  | writeLatch (reason triggeredBy : String)
  | publish (i : ℕ)
  | clearLatch

namespace AgentInstance

/-- `stop`: set the stop event and end the listener. -/
def stop (a : AgentInstance) : AgentInstance := { a with stopping := true, listening := false, inbox := [] }

/-- `_load_halt_latch`: an empty reason counts as none. -/
def loadHaltLatch (latch : Option String) (a : AgentInstance) : Option AgentInstance :=
  match a.phase with
  | .connecting =>
    match latch with
    | some reason => some { a with phase := .settingUp, tradingHalted := a.tradingHalted || reason ≠ "" }
    | none => some { a with phase := .settingUp }
  | _ => none

/-- The rest of `start`: setup is done and the listener task is created; the run loop begins. -/
def enterLoop (a : AgentInstance) : Option AgentInstance :=
  match a.phase with
  | .settingUp => some { a with phase := .running }
  | _ => none

/-- The listener task subscribes. -/
def subscribe (a : AgentInstance) : Option AgentInstance :=
  if a.phase = .running ∧ a.stopping = false then some { a with listening := true } else none

/-- `_risk_override_listener`: halt, and stop if the override asks for a human reset. -/
def receive (a : AgentInstance) : Option AgentInstance :=
  match a.inbox with
  | [] => none
  | override :: rest =>
    let a' := { a with inbox := rest, tradingHalted := true }
    some (if override.requiresHumanReset then a'.stop else a')

/-- An override is published: it reaches the listener if it has subscribed. -/
def deliver (override : Override) (a : AgentInstance) : AgentInstance :=
  if a.listening then { a with inbox := a.inbox ++ [override] } else a

end AgentInstance

namespace ControlPlane

/-- One instance takes a step. -/
def touch (s : ControlPlane) (i : ℕ) (f : AgentInstance → Option AgentInstance) : Option ControlPlane :=
  match s.instances[i]? with
  | none => none
  | some a => (f a).map fun a' => { s with instances := s.instances.set i a' }

def step (s : ControlPlane) : ControlEvent → Option ControlPlane
  | .start name => some { s with instances := s.instances ++ [{ name := name }] }
  | .readLatch i => s.touch i (AgentInstance.loadHaltLatch s.latch)
  | .enterLoop i => s.touch i AgentInstance.enterLoop
  | .subscribe i => s.touch i AgentInstance.subscribe
  | .receive i => s.touch i AgentInstance.receive
  | .stop i => s.touch i fun a => some a.stop
  | .exit i => if i < s.instances.length then some { s with instances := s.instances.eraseIdx i } else none
  | .writeLatch reason triggeredBy =>
    some { s with
      latch := some reason
      pending := s.pending ++ [{ override := { reason := reason, triggeredBy := triggeredBy } }] }
  | .publish i =>
    match s.pending[i]? with
    | none => none
    | some halt =>
      some { s with
        pending := s.pending.eraseIdx i
        instances := s.instances.map (AgentInstance.deliver halt.override)
        completed := s.completed || !halt.cleared }
  | .clearLatch =>
    some { s with
      latch := none
      pending := s.pending.map fun halt => { halt with cleared := true }
      completed := false }

/-- A reason is given, and a halt is published only when every instance that has read the latch without being halted or
stopped is subscribed. -/
def NoGap (s : ControlPlane) : ControlEvent → Prop
  | .writeLatch reason _ => reason ≠ ""
  | .publish i =>
    ∀ halt ∈ s.pending[i]?, halt.cleared = false → ∀ a ∈ s.instances, a.phase ≠ .connecting →
      a.listening = true ∨ a.tradingHalted = true ∨ a.stopping = true
  | _ => True

instance NoGap.decidable (s : ControlPlane) : ∀ e, Decidable (NoGap s e)
  | .writeLatch reason _ => inferInstanceAs (Decidable (reason ≠ ""))
  | .publish i =>
    match h : s.pending[i]? with
    | none => isTrue fun halt hh => by rw [h] at hh; cases hh
    | some halt =>
      decidable_of_iff (halt.cleared = false → ∀ a ∈ s.instances, a.phase ≠ .connecting →
          a.listening = true ∨ a.tradingHalted = true ∨ a.stopping = true)
        ⟨fun hp halt' hh => by rw [h] at hh; cases hh; exact hp, fun hp => hp halt h⟩
  | .start _ => isTrue trivial
  | .readLatch _ => isTrue trivial
  | .enterLoop _ => isTrue trivial
  | .subscribe _ => isTrue trivial
  | .receive _ => isTrue trivial
  | .stop _ => isTrue trivial
  | .exit _ => isTrue trivial
  | .clearLatch => isTrue trivial

/-- After a completed halt every instance in its run loop with no override on its way is halted or stopping. -/
def Halted (s : ControlPlane) : Prop :=
  s.completed = true → ∀ a ∈ s.instances, a.phase = .running → a.inbox = [] →
    a.tradingHalted = true ∨ a.stopping = true

instance (s : ControlPlane) : Decidable s.Halted :=
  inferInstanceAs (Decidable (s.completed = true → ∀ a ∈ s.instances, _))

end ControlPlane

/-- Halted, stopping, or with an override on the way. -/
def AgentInstance.Covered (a : AgentInstance) : Prop :=
  a.tradingHalted = true ∨ a.stopping = true ∨ a.inbox ≠ []

namespace ControlPlane

/-- A halt that counts: completed, or under way with its latch in place. -/
def Active (s : ControlPlane) : Prop := s.completed = true ∨ ∃ halt ∈ s.pending, halt.cleared = false

/-- What runs without a gap keep: while a halt is active the latch has a reason, and once it has completed every
instance that has read the latch is covered. -/
structure HaltInvariant (s : ControlPlane) : Prop where
  latch : s.Active → ∃ reason, s.latch = some reason ∧ reason ≠ ""
  covered : s.completed = true → ∀ a ∈ s.instances, a.phase ≠ .connecting → a.Covered

private theorem haltInvariant_init : ({} : ControlPlane).HaltInvariant := by
  refine ⟨?_, ?_⟩
  · rintro (h | ⟨halt, hmem, -⟩)
    · cases h
    · cases hmem
  · intro h
    cases h

/-- A step of one instance keeps the invariant if it covers the instance, or keeps it covered. -/
private theorem HaltInvariant.touch {s s' : ControlPlane} {i : ℕ} {f : AgentInstance → Option AgentInstance}
    (h : s.HaltInvariant)
    (hf : s.completed = true → ∀ a a', f a = some a' → (a.phase ≠ .connecting → a.Covered) →
      a'.phase ≠ .connecting → a'.Covered)
    (hstep : s.touch i f = some s') : s'.HaltInvariant := by
  unfold ControlPlane.touch at hstep
  split at hstep
  case h_1 => cases hstep
  case h_2 a ha =>
    obtain ⟨a', ha', rfl⟩ := Option.map_eq_some_iff.1 hstep
    refine ⟨h.latch, fun hcompleted b hb => ?_⟩
    rcases List.mem_or_eq_of_mem_set hb with hb | rfl
    · exact h.covered hcompleted b hb
    · exact hf hcompleted a b ha' (h.covered hcompleted a (List.mem_of_getElem? ha))

private theorem covered_loadHaltLatch {latch : Option String} {a a' : AgentInstance} {reason : String}
    (hlatch : latch = some reason) (hreason : reason ≠ "") (h : a.loadHaltLatch latch = some a') : a'.Covered := by
  unfold AgentInstance.loadHaltLatch at h
  split at h
  case h_2 => cases h
  case h_1 =>
    rw [hlatch] at h
    cases h
    exact .inl (by simp [hreason])

private theorem covered_receive {a a' : AgentInstance} (h : a.receive = some a') : a'.Covered := by
  unfold AgentInstance.receive at h
  split at h
  case h_1 => cases h
  case h_2 override rest hinbox =>
    obtain rfl := Option.some.inj h
    split
    · exact .inl rfl
    · exact .inl rfl

private theorem covered_deliver {a : AgentInstance} (override : Override)
    (h : a.listening = true ∨ a.Covered) : (a.deliver override).Covered := by
  unfold AgentInstance.deliver
  split
  case isTrue => exact .inr (.inr (by simp))
  case isFalse hnot =>
    rcases h with hlistening | hcovered
    · exact absurd hlistening hnot
    · exact hcovered

private theorem phase_deliver (override : Override) (a : AgentInstance) : (a.deliver override).phase = a.phase := by
  unfold AgentInstance.deliver
  split <;> rfl

/-- Publishing covers every instance that is subscribed. -/
private theorem HaltInvariant.publish {s : ControlPlane} {i : ℕ} {halt : PendingHalt} (h : s.HaltInvariant)
    (hC : s.NoGap (.publish i)) (hhalt : s.pending[i]? = some halt) :
    ({ s with
        pending := s.pending.eraseIdx i
        instances := s.instances.map (AgentInstance.deliver halt.override)
        completed := s.completed || !halt.cleared } : ControlPlane).HaltInvariant := by
  have hmem : halt ∈ s.pending := List.mem_of_getElem? hhalt
  refine ⟨?_, ?_⟩
  · intro hactive
    refine h.latch ?_
    rcases hactive with hcompleted | ⟨halt', hmem', hcleared⟩
    · rcases Bool.or_eq_true_iff.1 hcompleted with hold | hnew
      · exact .inl hold
      · exact .inr ⟨halt, hmem, by simpa using hnew⟩
    · exact .inr ⟨halt', (List.eraseIdx_sublist ..).subset hmem', hcleared⟩
  · intro hcompleted b hb hphase
    obtain ⟨a, ha, rfl⟩ := List.mem_map.1 hb
    rw [phase_deliver] at hphase
    refine covered_deliver halt.override ?_
    by_cases hold : s.completed = true
    · exact .inr (h.covered hold a ha hphase)
    · have hcleared : halt.cleared = false := by simpa [hold] using hcompleted
      rcases hC halt hhalt hcleared a ha hphase with hl | hh | hs
      · exact .inl hl
      · exact .inr (.inl hh)
      · exact .inr (.inr (.inl hs))

theorem HaltInvariant.step {s s' : ControlPlane} {e : ControlEvent} (h : s.HaltInvariant) (hC : s.NoGap e)
    (hstep : s.step e = some s') : s'.HaltInvariant := by
  cases e with
  | start name =>
    cases hstep
    refine ⟨h.latch, fun hcompleted a ha hphase => ?_⟩
    rcases List.mem_append.1 ha with ha | ha
    · exact h.covered hcompleted a ha hphase
    · rw [List.mem_singleton.1 ha] at hphase
      exact absurd rfl hphase
  | readLatch i =>
    refine h.touch (fun hcompleted a a' ha' _ _ => ?_) hstep
    obtain ⟨reason, hlatch, hreason⟩ := h.latch (.inl hcompleted)
    exact covered_loadHaltLatch hlatch hreason ha'
  | enterLoop i =>
    refine h.touch (fun _ a a' ha' hcovered _ => ?_) hstep
    unfold AgentInstance.enterLoop at ha'
    split at ha'
    case h_1 hphase =>
      cases ha'
      exact hcovered (by rw [hphase]; decide)
    case h_2 => cases ha'
  | subscribe i =>
    refine h.touch (fun _ a a' ha' hcovered hphase => ?_) hstep
    unfold AgentInstance.subscribe at ha'
    split at ha'
    case isTrue => cases ha'; exact hcovered hphase
    case isFalse => cases ha'
  | receive i => exact h.touch (fun _ a a' ha' _ _ => covered_receive ha') hstep
  | stop i =>
    refine h.touch (fun _ a a' ha' _ _ => ?_) hstep
    cases ha'
    exact .inr (.inl rfl)
  | exit i =>
    simp only [ControlPlane.step] at hstep
    split at hstep
    case isFalse => cases hstep
    case isTrue =>
      cases hstep
      exact ⟨h.latch, fun hcompleted a ha => h.covered hcompleted a ((List.eraseIdx_sublist ..).subset ha)⟩
  | writeLatch reason triggeredBy =>
    cases hstep
    exact ⟨fun _ => ⟨reason, rfl, hC⟩, h.covered⟩
  | publish i =>
    simp only [ControlPlane.step] at hstep
    split at hstep
    case h_1 => cases hstep
    case h_2 halt hhalt =>
      cases hstep
      exact h.publish hC hhalt
  | clearLatch =>
    cases hstep
    refine ⟨?_, fun hcompleted => by cases hcompleted⟩
    rintro (hcompleted | ⟨halt, hmem, hcleared⟩)
    · cases hcompleted
    · obtain ⟨halt', -, rfl⟩ := List.mem_map.1 hmem
      cases hcleared

private theorem HaltInvariant.halted {s : ControlPlane} (h : s.HaltInvariant) : s.Halted := by
  intro hcompleted a ha hphase hinbox
  rcases h.covered hcompleted a ha (by rw [hphase]; decide) with hh | hs | hi
  · exact .inl hh
  · exact .inr hs
  · exact absurd hinbox hi

end ControlPlane

/-- In every run without a gap, from a completed halt until the latch is cleared, every instance in its run loop with no
override on its way is halted or stopping. -/
theorem halt_covers {es : List ControlEvent} {s : ControlPlane} (hC : Along ControlPlane.step ControlPlane.NoGap {} es)
    (h : exec ControlPlane.step {} es = some s) : s.Halted :=
  (exec_invariant_along ControlPlane.HaltInvariant (fun _ _ _ hs hC hstep => hs.step hC hstep)
    ControlPlane.haltInvariant_init hC h).halted

/-- The execution agent is halted for a reason, stops, and is started again by Docker. -/
def restarted (reason : String) : List ControlEvent :=
  [.start "execution", .readLatch 0, .enterLoop 0, .subscribe 0, .writeLatch reason "api:halt", .publish 0, .receive 0,
    .exit 0, .start "execution", .readLatch 0, .enterLoop 0]

theorem halt_covers_restarted : ∃ s, exec ControlPlane.step {} (restarted "limit breached") = some s ∧
    s.completed = true ∧ s.instances.map AgentInstance.phase = [.running] ∧ s.Halted := by
  have hrun : ((exec ControlPlane.step {} (restarted "limit breached")).map fun s =>
      (s.completed, s.instances.map AgentInstance.phase)) = some (true, [.running]) := by
    decide +kernel
  obtain ⟨s, hs, hfacts⟩ := Option.map_eq_some_iff.1 hrun
  obtain ⟨hcompleted, hphases⟩ := Prod.mk.inj hfacts
  exact ⟨s, hs, hcompleted, hphases, halt_covers (by decide +kernel) hs⟩

/-- Halted for no reason at all, the agent comes back and trades. -/
theorem unhalted_after_empty_reason : ¬ ∀ (es : List ControlEvent) (s : ControlPlane),
    exec ControlPlane.step {} es = some s → s.Halted := by
  intro h
  have hrun : ((exec ControlPlane.step {} (restarted "")).map fun s => decide s.Halted) = some false := by
    decide +kernel
  obtain ⟨s, hs, hfalse⟩ := Option.map_eq_some_iff.1 hrun
  exact of_decide_eq_false hfalse (h _ s hs)

end MultiAgentTrading.Control
