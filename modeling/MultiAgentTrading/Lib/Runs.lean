import Mathlib.Data.Option.Basic
import Mathlib.Data.List.Basic

/-!
# Runs of a partial step function

A system is a step function `step : σ → ε → Option σ`; an event that is not enabled gives `none`.  `exec` runs a
list of events.  `Along C` says that every step of a run, taken in the state it is taken in, meets the condition
`C`; it carries both the conditions under which a run is considered and properties of the steps themselves.

The rules are the usual ones: an invariant of one step is an invariant of the run, also when the step preserves it
only under a condition that holds along the run; and a relation that corresponding steps of two systems keep, always or
under conditions that hold along both runs, is kept by their runs.
-/

namespace Runs

variable {σ ε : Type*} (step : σ → ε → Option σ)

/-- Run a list of events; `none` if one of them is not enabled. -/
def exec : σ → List ε → Option σ
  | s, [] => some s
  | s, e :: es => (step s e).bind fun s' => exec s' es

/-- Every step of the run meets `C` in the state it is taken in. -/
def Along (C : σ → ε → Prop) : σ → List ε → Prop
  | _, [] => True
  | s, e :: es => C s e ∧ ∀ s' ∈ step s e, Along C s' es

instance Along.decidable (C : σ → ε → Prop) [∀ s e, Decidable (C s e)] :
    ∀ (s : σ) (es : List ε), Decidable (Along step C s es)
  | _, [] => isTrue trivial
  | s, e :: es =>
    match h : step s e with
    | none => decidable_of_iff (C s e) ⟨fun hc => ⟨hc, fun s' hs => by simp [h] at hs⟩, fun hc => hc.1⟩
    | some s' =>
      have := Along.decidable C s' es
      decidable_of_iff (C s e ∧ Along step C s' es)
        ⟨fun hc => ⟨hc.1, fun t ht => by simp only [h, Option.mem_some_iff] at ht; exact ht ▸ hc.2⟩,
          fun hc => ⟨hc.1, hc.2 s' (by simp [h])⟩⟩

variable {step}

@[simp] theorem exec_nil (s : σ) : exec step s [] = some s := rfl

theorem exec_cons {s t : σ} {e : ε} {es : List ε} :
    exec step s (e :: es) = some t ↔ ∃ s', step s e = some s' ∧ exec step s' es = some t :=
  Option.bind_eq_some_iff

theorem exec_append (s : σ) (es es' : List ε) :
    exec step s (es ++ es') = (exec step s es).bind fun t => exec step t es' := by
  induction es generalizing s with
  | nil => rfl
  | cons e es ih =>
    show (step s e).bind (fun s' => exec step s' (es ++ es')) = _
    cases h : step s e with
    | none => simp [exec, h]
    | some s' => simp [exec, h, ih s']

/-- An invariant of one step, under a condition met along the run, is an invariant of the run. -/
theorem exec_invariant_along (P : σ → Prop) {C : σ → ε → Prop}
    (hstep : ∀ s e s', P s → C s e → step s e = some s' → P s') {s t : σ} {es : List ε} (hs : P s)
    (hC : Along step C s es) (h : exec step s es = some t) : P t := by
  induction es generalizing s with
  | nil => cases h; exact hs
  | cons e es ih =>
    obtain ⟨s', h1, h2⟩ := exec_cons.1 h
    exact ih (hstep s e s' hs hC.1 h1) (hC.2 s' h1) h2

/-- A condition along a run holds along its beginning. -/
theorem Along.of_append {C : σ → ε → Prop} {s : σ} {es es' : List ε} (h : Along step C s (es ++ es')) :
    Along step C s es := by
  induction es generalizing s with
  | nil => trivial
  | cons e es ih => exact ⟨h.1, fun s' hs' => ih (h.2 s' hs')⟩

private theorem along_true (s : σ) (es : List ε) : Along step (fun _ _ => True) s es := by
  induction es generalizing s with
  | nil => trivial
  | cons e es ih => exact ⟨trivial, fun s' _ => ih s'⟩

/-- An invariant of one step is an invariant of the run. -/
theorem exec_invariant (P : σ → Prop) (hstep : ∀ s e s', P s → step s e = some s' → P s') {s t : σ} {es : List ε}
    (hs : P s) (h : exec step s es = some t) : P t :=
  exec_invariant_along P (fun s e s' hs _ => hstep s e s' hs) hs (along_true s es) h

/-- What an invariant and the condition give for one step holds of every step of the run. -/
theorem Along.of_invariant (P : σ → Prop) {C Q : σ → ε → Prop}
    (hstep : ∀ s e s', P s → C s e → step s e = some s' → P s') (hQ : ∀ s e, P s → C s e → Q s e)
    {s : σ} {es : List ε} (hs : P s) (hC : Along step C s es) : Along step Q s es := by
  induction es generalizing s with
  | nil => trivial
  | cons e es ih =>
    exact ⟨hQ s e hs hC.1, fun s' h => ih (hstep s e s' hs hC.1 h) (hC.2 s' h)⟩

/-- If a step that does not meet the condition leads where no step leads out again, a run that ends elsewhere meets the
condition. -/
theorem along_of_trap (P D : σ → Prop) {C : σ → ε → Prop} (hstep : ∀ s e s', P s → C s e → step s e = some s' → P s')
    (hfall : ∀ s e s', P s → ¬C s e → step s e = some s' → D s') (htrap : ∀ s e s', D s → step s e = some s' → D s')
    {s t : σ} {es : List ε} (hs : P s) (h : exec step s es = some t) (ht : ¬D t) : Along step C s es := by
  induction es generalizing s with
  | nil => trivial
  | cons e es ih =>
    obtain ⟨s', h1, h2⟩ := exec_cons.1 h
    have hC : C s e := by
      by_contra hno
      exact ht (exec_invariant D htrap (hfall s e s' hs hno h1) h2)
    refine ⟨hC, fun s'' hs'' => ?_⟩
    obtain rfl : s' = s'' := Option.some.inj (h1.symm.trans hs'')
    exact ih (hstep s e s' hs hC h1) h2

/-- Two systems whose states are related, and after corresponding events are related again or both stuck, run alike:
they both get stuck, or the states they reach have what the relation gives. -/
theorem exec_rel {τ δ : Type*} {step' : τ → δ → Option τ} {R Q : σ → τ → Prop} {φ : δ → ε} {C : δ → Prop}
    (hstep : ∀ s t e, R s t → C e → Option.Rel R (step s (φ e)) (step' t e)) (hQ : ∀ s t, R s t → Q s t) {s : σ}
    {t : τ} {es : List δ} (hC : ∀ e ∈ es, C e) (h : R s t) :
    Option.Rel Q (exec step s (es.map φ)) (exec step' t es) := by
  induction es generalizing s t with
  | nil => exact .some (hQ s t h)
  | cons e es ih =>
    have hhead := hstep s t e h (hC e List.mem_cons_self)
    rw [List.map_cons, exec, exec]
    generalize step s (φ e) = next at hhead ⊢
    generalize step' t e = next' at hhead ⊢
    cases hhead with
    | none => exact .none
    | some h' => exact ih (fun e he => hC e (List.mem_cons_of_mem _ he)) h'

/-- Related states stay related while both runs meet conditions under which corresponding steps keep the relation. -/
theorem exec_rel_along {τ : Type*} {step' : τ → ε → Option τ} {R : σ → τ → Prop} {C : σ → ε → Prop} {C' : τ → ε → Prop}
    (hstep : ∀ s t e, R s t → C s e → C' t e → Option.Rel R (step s e) (step' t e)) {s : σ} {t : τ} {es : List ε}
    (h : R s t) (hC : Along step C s es) (hC' : Along step' C' t es) :
    Option.Rel R (exec step s es) (exec step' t es) := by
  induction es generalizing s t with
  | nil => exact .some h
  | cons e es ih =>
    have hhead := hstep s t e h hC.1 hC'.1
    have hnext := hC.2
    have hnext' := hC'.2
    rw [exec, exec]
    generalize step s e = next at hhead hnext ⊢
    generalize step' t e = next' at hhead hnext' ⊢
    cases hhead with
    | none => exact .none
    | some h' => exact ih h' (hnext _ rfl) (hnext' _ rfl)

end Runs
