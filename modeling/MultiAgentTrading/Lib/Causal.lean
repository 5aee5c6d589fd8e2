import Mathlib.Data.List.Basic
import Mathlib.Data.List.Induction

/-!
# Causal functions on series

A function on lists is causal if it gives one value for each element, and the values on a beginning of a list are the
beginning of the values on the list: what comes later does not matter.  Pointwise functions are causal, and so are
functions of a window that looks back, scans that start from the first `k` elements, and what is built from causal
functions by composition, pairing and looking one element back.
-/

/-- One value for each element, determined by the elements up to it. -/
structure Causal {α β : Type*} (f : List α → List β) : Prop where
  length : ∀ l, (f l).length = l.length
  take : ∀ l n, f (l.take n) = (f l).take n

namespace Causal

variable {α β γ δ σ : Type*}

/-- A function is causal if one more element only appends a value. -/
theorem of_snoc {f : List α → List β} (hlength : ∀ l, (f l).length = l.length)
    (hsnoc : ∀ l x, f l <+: f (l ++ [x])) : Causal f where
  length := hlength
  take := by
    have happend : ∀ l m, f l <+: f (l ++ m) := by
      intro l m
      induction m using List.reverseRecOn with
      | nil => simp
      | append_singleton m x ih =>
        rw [← List.append_assoc]
        exact ih.trans (hsnoc (l ++ m) x)
    intro l n
    have hprefix := happend (l.take n) (l.drop n)
    rw [List.take_append_drop] at hprefix
    rw [List.prefix_iff_eq_take.1 hprefix, hlength, List.length_take, ← hlength l]
    rcases Nat.le_total n (f l).length with hn | hn
    · rw [Nat.min_eq_left hn]
    · rw [Nat.min_eq_right hn, List.take_length, List.take_of_length_le hn]

theorem map {f : List α → List β} (hf : Causal f) (g : β → γ) : Causal fun l => (f l).map g :=
  ⟨fun l => by rw [List.length_map, hf.length], fun l n => by rw [hf.take, List.map_take]⟩

theorem comp {f : List α → List β} {g : List β → List γ} (hg : Causal g) (hf : Causal f) :
    Causal fun l => g (f l) :=
  ⟨fun l => by rw [hg.length, hf.length], fun l n => by rw [hf.take, hg.take]⟩

theorem zipWith {f : List α → List β} {g : List α → List γ} (hf : Causal f) (hg : Causal g) (h : β → γ → δ) :
    Causal fun l => List.zipWith h (f l) (g l) :=
  ⟨fun l => by rw [List.length_zipWith, hf.length, hg.length, Nat.min_self],
    fun l n => by rw [hf.take, hg.take, List.take_zipWith]⟩

/-- A function of the list and the index is causal if it looks at nothing after the index. -/
theorem of_index (g : List α → ℕ → β) (hg : ∀ l n i, i < n → i < l.length → g (l.take n) i = g l i) :
    Causal fun l => (List.range l.length).map (g l) where
  length l := by rw [List.length_map, List.length_range]
  take l n := by
    rw [← List.map_take, List.take_range, List.length_take]
    refine List.map_congr_left fun i hi => ?_
    have hlt := List.mem_range.1 hi
    exact hg l n i (Nat.lt_of_lt_of_le hlt (Nat.min_le_left _ _)) (Nat.lt_of_lt_of_le hlt (Nat.min_le_right _ _))

/-- A scan that starts from the first `k` elements: nothing before the `k`-th, then the seed and what the steps make
of it. -/
def seeded (k : ℕ) (seed : List α → σ) (step : σ → α → σ) (l : List α) : List (Option σ) :=
  if l.length < k then List.replicate l.length none
  else List.replicate (k - 1) none ++ ((l.drop k).scanl step (seed (l.take k))).map some

theorem causal_seeded {k : ℕ} (hk : 0 < k) (seed : List α → σ) (step : σ → α → σ) : Causal (seeded k seed step) := by
  refine of_snoc ?_ ?_
  · intro l
    unfold seeded
    split
    case isTrue => rw [List.length_replicate]
    case isFalse h =>
      rw [List.length_append, List.length_replicate, List.length_map, List.length_scanl, List.length_drop]
      omega
  · intro l x
    unfold seeded
    rw [List.length_append, List.length_singleton]
    split
    case isTrue h =>
      split
      case isTrue =>
        rw [List.replicate_succ']
        exact List.prefix_append _ _
      case isFalse h' =>
        -- the element that completes the seed
        have hlen : l.length = k - 1 := by omega
        rw [hlen]
        exact List.prefix_append _ _
    case isFalse h =>
      rw [if_neg (by omega), List.drop_append_of_le_length (by omega), List.take_append_of_le_length (by omega),
        List.prefix_append_right_inj, List.scanl_append, List.map_append]
      exact List.prefix_append _ _

theorem seeded_of_short {k : ℕ} {l : List α} (h : l.length < k) (seed : List α → σ) (step : σ → α → σ) :
    seeded k seed step l = List.replicate l.length none := if_pos h

/-- A scan of translated elements is the translated scan, if the seed and the steps translate. -/
theorem seeded_map {τ : Type*} {seed : List α → σ} {step : σ → α → σ} {seed' : List β → τ} {step' : τ → β → τ}
    {f : α → β} {g : σ → τ} (hseed : ∀ l, seed' (l.map f) = g (seed l))
    (hstep : ∀ s x, step' (g s) (f x) = g (step s x)) (k : ℕ) (l : List α) :
    seeded k seed' step' (l.map f) = (seeded k seed step l).map (Option.map g) := by
  have hscan : ∀ (m : List α) (s : σ), (m.map f).scanl step' (g s) = (m.scanl step s).map g := by
    intro m
    induction m with
    | nil => intro s; rfl
    | cons x m ih =>
      intro s
      rw [List.map_cons, List.scanl_cons, List.scanl_cons, List.map_cons, hstep, ih]
  unfold seeded
  rw [List.length_map]
  split
  · rw [List.map_replicate, Option.map_none]
  · rw [List.map_append, List.map_replicate, Option.map_none, ← List.map_drop, ← List.map_take, hseed, hscan,
      List.map_map, List.map_map]
    rfl

private theorem steps_take (d : α → α → δ) (l : List α) (n : ℕ) :
    List.zipWith d (l.take (n + 1)).tail (l.take (n + 1)) = (List.zipWith d l.tail l).take n := by
  induction n generalizing l with
  | zero => cases l <;> rfl
  | succ n ih =>
    match l with
    | [] => rfl
    | [_] => rfl
    | x :: y :: l => exact congrArg (d y x :: ·) (ih (y :: l))

/-- What follows from the steps between neighbours, with a value of its own at the first element. -/
theorem delay {g : List δ → List β} (hg : Causal g) (d : α → α → δ) (b : β) :
    Causal fun l => (b :: g (List.zipWith d l.tail l)).take l.length where
  length l := by
    rw [List.length_take, List.length_cons, hg.length, List.length_zipWith, List.length_tail]
    omega
  take l n := by
    cases n with
    | zero => simp
    | succ n =>
      rw [steps_take, hg.take, List.length_take, ← List.take_succ_cons, List.take_take, List.take_take]
      congr 1
      omega

end Causal
