import Mathlib.Data.List.Dedup
import Mathlib.Order.Basic
import MultiAgentTrading.Lib.Recent

/-!
# Filters with a bounded memory

`pass n` goes through a list and passes on every element that is not among the newest `n` it has passed on.  The
memory is the newest of all that was ever passed (`memory_pass`), so an element can be forgotten while the list is
gone through.  On an ascending list nothing is passed on twice, and `pass_twice_iff` says exactly when a filter has the
whole list in its memory at the end: when there is room for the new elements and for every remembered one of the list.
-/

namespace Recent

variable {α : Type*} [DecidableEq α]

/-- Pass on what is not remembered; the second list is the memory. -/
def pass (n : ℕ) : List α → List α → List α × List α
  | memory, [] => ([], memory)
  | memory, x :: xs =>
    if x ∈ memory then pass n memory xs
    else
      let rest := pass n (keep n (memory ++ [x])) xs
      (x :: rest.1, rest.2)

/-- The distinct elements of a list that are not remembered. -/
def fresh (memory xs : List α) : List α := (xs.filter fun x => x ∉ memory).dedup

/-- There is room for the fresh elements, and the remembered ones of the list are not among those they displace. -/
def Retains (n : ℕ) (memory xs : List α) : Prop :=
  (fresh memory xs).length ≤ n ∧ ∀ x ∈ xs, x ∈ memory → x ∈ keep (n - (fresh memory xs).length) memory

instance (n : ℕ) (memory xs : List α) : Decidable (Retains n memory xs) := inferInstanceAs (Decidable (_ ∧ _))

variable {n : ℕ} {memory xs : List α}

theorem mem_fresh {x : α} : x ∈ fresh memory xs ↔ x ∈ xs ∧ x ∉ memory := by
  simp [fresh]

/-- The order of the list does not matter. -/
theorem retains_perm {ys : List α} (h : xs.Perm ys) : Retains n memory xs ↔ Retains n memory ys := by
  have hlength : (fresh memory xs).length = (fresh memory ys).length := ((h.filter _).dedup).length_eq
  rw [Retains, Retains, hlength]
  exact and_congr_right fun _ => ⟨fun hx y hy => hx y (h.mem_iff.2 hy), fun hy x hx => hy x (h.mem_iff.1 hx)⟩

theorem pass_cons_of_mem {x : α} (h : x ∈ memory) : pass n memory (x :: xs) = pass n memory xs := by
  rw [pass, if_pos h]

theorem pass_cons_of_not_mem {x : α} (h : x ∉ memory) :
    pass n memory (x :: xs) =
      (x :: (pass n (keep n (memory ++ [x])) xs).1, (pass n (keep n (memory ++ [x])) xs).2) := by
  rw [pass, if_neg h]

theorem pass_sublist (n : ℕ) (memory xs : List α) : (pass n memory xs).1.Sublist xs := by
  induction xs generalizing memory with
  | nil => exact List.Sublist.slnil
  | cons x xs ih =>
    by_cases hx : x ∈ memory
    · rw [pass_cons_of_mem hx]
      exact (ih memory).cons x
    · rw [pass_cons_of_not_mem hx]
      exact (ih _).cons_cons x

theorem pass_append (n : ℕ) (memory xs ys : List α) :
    pass n memory (xs ++ ys) =
      ((pass n memory xs).1 ++ (pass n (pass n memory xs).2 ys).1, (pass n (pass n memory xs).2 ys).2) := by
  induction xs generalizing memory with
  | nil => rfl
  | cons x xs ih =>
    rw [List.cons_append]
    by_cases hx : x ∈ memory
    · rw [pass_cons_of_mem hx, pass_cons_of_mem hx, ih]
    · rw [pass_cons_of_not_mem hx, pass_cons_of_not_mem hx, ih]
      rfl

/-- The memory is the newest of what it was and what has been passed on. -/
theorem memory_pass (h : memory.length ≤ n) (xs : List α) :
    (pass n memory xs).2 = keep n (memory ++ (pass n memory xs).1) := by
  induction xs generalizing memory with
  | nil => rw [pass, List.append_nil, keep_of_length_le h]
  | cons x xs ih =>
    by_cases hx : x ∈ memory
    · rw [pass_cons_of_mem hx, ih h]
    · rw [pass_cons_of_not_mem hx]
      show (pass n (keep n (memory ++ [x])) xs).2 = _
      rw [ih (length_keep_le n _), keep_keep_append, List.append_assoc]
      rfl

/-- A filter that has passed something on remembers no more than it should, whatever it remembered before. -/
theorem memory_pass_of_ne_nil (h : (pass n memory xs).1 ≠ []) :
    (pass n memory xs).2 = keep n (memory ++ (pass n memory xs).1) := by
  induction xs with
  | nil => exact absurd rfl h
  | cons x xs ih =>
    by_cases hx : x ∈ memory
    · rw [pass_cons_of_mem hx] at h ⊢
      exact ih h
    · rw [pass_cons_of_not_mem hx]
      show (pass n (keep n (memory ++ [x])) xs).2 = _
      rw [memory_pass (length_keep_le n _), keep_keep_append, List.append_assoc]
      rfl

theorem memory_pass_of_eq_nil (h : (pass n memory xs).1 = []) : (pass n memory xs).2 = memory := by
  induction xs with
  | nil => rfl
  | cons x xs ih =>
    by_cases hx : x ∈ memory
    · rw [pass_cons_of_mem hx] at h ⊢
      exact ih h
    · rw [pass_cons_of_not_mem hx] at h
      cases h

/-- Every element was remembered or is passed on. -/
theorem mem_or_mem_pass (n : ℕ) (memory : List α) {x : α} (hx : x ∈ xs) : x ∈ memory ∨ x ∈ (pass n memory xs).1 := by
  induction xs generalizing memory with
  | nil => cases hx
  | cons y ys ih =>
    by_cases hy : y ∈ memory
    · rw [pass_cons_of_mem hy]
      rcases List.mem_cons.1 hx with rfl | hx
      · exact .inl hy
      · exact ih memory hx
    · rw [pass_cons_of_not_mem hy]
      rcases List.mem_cons.1 hx with rfl | hx
      · exact .inr List.mem_cons_self
      · rcases ih (keep n (memory ++ [y])) hx with hmem | hpass
        · rcases List.mem_append.1 (keep_subset n _ hmem) with hold | hnew
          · exact .inl hold
          · exact .inr (List.mem_cons.2 (.inl (List.mem_singleton.1 hnew)))
        · exact .inr (List.mem_cons_of_mem y hpass)

/-- Nothing is passed on exactly if everything is remembered. -/
theorem pass_eq_nil_iff : (pass n memory xs).1 = [] ↔ ∀ x ∈ xs, x ∈ memory := by
  constructor
  · intro hnil x hx
    rcases mem_or_mem_pass n memory hx with hmem | hpass
    · exact hmem
    · rw [hnil] at hpass
      cases hpass
  · intro hall
    induction xs with
    | nil => rfl
    | cons x xs ih =>
      rw [pass_cons_of_mem (hall x List.mem_cons_self)]
      exact ih fun y hy => hall y (List.mem_cons_of_mem x hy)

omit [DecidableEq α] in
/-- A remembered element is not forgotten as long as there is room for what is passed on after it. -/
private theorem mem_keep_append {passed : ℕ} {out : List α} (hout : out.length ≤ passed) (hroom : passed ≤ n) {x : α}
    (hx : x ∈ keep (n - passed) memory) : x ∈ keep n (memory ++ out) := by
  rw [keep_append memory (hout.trans hroom)]
  exact List.mem_append_left _ (keep_subset_keep (Nat.sub_le_sub_left hout n) memory hx)

/-! ### Ascending lists -/

section Ascending

variable {β : Type*} [LinearOrder β] {n : ℕ} {memory xs : List β}

/-- Past a remembered element only greater ones are passed on. -/
private theorem lt_of_mem_pass {x : β} (hx : x ∈ memory) (hle : ∀ y ∈ xs, x ≤ y)
    (hsorted : xs.Pairwise (· ≤ ·)) : ∀ y ∈ (pass n memory xs).1, x < y := by
  induction xs with
  | nil => exact fun y hy => (List.not_mem_nil hy).elim
  | cons z zs ih =>
    obtain ⟨hz, hzs⟩ := List.pairwise_cons.1 hsorted
    by_cases hmem : z ∈ memory
    · rw [pass_cons_of_mem hmem]
      exact ih (fun y hy => hle y (List.mem_cons_of_mem z hy)) hzs
    · rw [pass_cons_of_not_mem hmem]
      have hlt : x < z := lt_of_le_of_ne (hle z List.mem_cons_self) fun he => hmem (he ▸ hx)
      intro y hy
      rcases List.mem_cons.1 hy with rfl | hy
      · exact hlt
      · exact hlt.trans_le (hz y ((pass_sublist _ _ _).subset hy))

/-- An element of an ascending list is passed on if and only if it is not remembered when its turn comes. -/
theorem mem_pass_append_iff {x : β} {ys : List β} (hys : ∀ y ∈ ys, y < x) (hle : ∀ y ∈ xs, x ≤ y)
    (hsorted : xs.Pairwise (· ≤ ·)) (hx : x ∈ xs) :
    x ∈ (pass n memory (ys ++ xs)).1 ↔ x ∉ (pass n memory ys).2 := by
  have hnot : x ∉ (pass n memory ys).1 := fun h => lt_irrefl x (hys x ((pass_sublist n memory ys).subset h))
  rw [pass_append, List.mem_append, or_iff_right hnot]
  constructor
  · exact fun hpass hmem => lt_irrefl x (lt_of_mem_pass hmem hle hsorted x hpass)
  · exact (mem_or_mem_pass n _ hx).resolve_left

/-- What is passed on of an ascending list is strictly ascending. -/
theorem pairwise_lt_pass (hn : 0 < n) (hsorted : xs.Pairwise (· ≤ ·)) : (pass n memory xs).1.Pairwise (· < ·) := by
  induction xs generalizing memory with
  | nil => exact List.Pairwise.nil
  | cons x xs ih =>
    obtain ⟨hx, hxs⟩ := List.pairwise_cons.1 hsorted
    by_cases hmem : x ∈ memory
    · rw [pass_cons_of_mem hmem]
      exact ih hxs
    · rw [pass_cons_of_not_mem hmem]
      have hlast : x ∈ keep n (memory ++ [x]) := mem_keep hn
      exact List.pairwise_cons.2 ⟨lt_of_mem_pass hlast hx hxs, ih hxs⟩

private theorem nodup_pass (memory : List β) (hn : 0 < n) (hsorted : xs.Pairwise (· ≤ ·)) :
    (pass n memory xs).1.Nodup :=
  (pairwise_lt_pass hn hsorted).imp ne_of_lt

/-- Every element that is not remembered is passed on exactly once. -/
theorem count_pass (hn : 0 < n) (hsorted : xs.Pairwise (· ≤ ·)) {x : β} (hx : x ∈ xs) (hnew : x ∉ memory) :
    (pass n memory xs).1.count x = 1 :=
  List.count_eq_one_of_mem (nodup_pass memory hn hsorted) ((mem_or_mem_pass n memory hx).resolve_left hnew)

/-- As many are passed on as are fresh, when no others are. -/
private theorem length_pass_le {ys : List β} (hn : 0 < n) (hsorted : xs.Pairwise (· ≤ ·)) (hsub : xs ⊆ ys)
    (honly : ∀ x ∈ (pass n memory xs).1, x ∉ memory) :
    (pass n memory xs).1.length ≤ (fresh memory ys).length := by
  refine (List.subperm_of_subset (nodup_pass memory hn hsorted) ?_).length_le
  intro x hx
  exact mem_fresh.2 ⟨hsub ((pass_sublist _ _ _).subset hx), honly x hx⟩

/-- With room for all, only fresh elements are passed on. -/
private theorem fresh_of_retains (hn : 0 < n) (hlen : memory.length ≤ n) {ys : List β} (hys : Retains n memory ys)
    (hsub : xs ⊆ ys) (hsorted : xs.Pairwise (· ≤ ·)) : ∀ x ∈ (pass n memory xs).1, x ∉ memory := by
  induction xs using List.reverseRecOn with
  | nil => exact fun x hx => (List.not_mem_nil hx).elim
  | append_singleton xs x ih =>
    have hxs : xs ⊆ ys := fun y hy => hsub (List.mem_append_left _ hy)
    have hsortedxs := (List.pairwise_append.1 hsorted).1
    have honly := ih hxs hsortedxs
    have hmemory := memory_pass hlen xs
    rw [pass_append]
    intro y hy
    rcases List.mem_append.1 hy with hy | hy
    · exact honly y hy
    · -- a remembered element is still remembered when its turn comes
      intro hold
      obtain rfl : y = x := List.mem_singleton.1 ((pass_sublist _ _ _).subset hy)
      have hstill : y ∈ (pass n memory xs).2 := by
        rw [hmemory]
        exact mem_keep_append (length_pass_le hn hsortedxs hxs honly) hys.1
          (hys.2 y (hsub (List.mem_append_right _ (List.mem_singleton_self y))) hold)
      rw [pass_cons_of_mem hstill] at hy
      cases hy

/-- When a filter passes on only fresh elements, and nothing more of the same list right after. -/
theorem pass_twice_iff (hn : 0 < n) (hlen : memory.length ≤ n) (hsorted : xs.Pairwise (· ≤ ·)) :
    ((∀ x ∈ (pass n memory xs).1, x ∉ memory) ∧ (pass n (pass n memory xs).2 xs).1 = []) ↔ Retains n memory xs := by
  have hmemory := memory_pass hlen xs
  rw [pass_eq_nil_iff, hmemory]
  have hnodup := nodup_pass memory hn hsorted
  constructor
  · rintro ⟨honly, hall⟩
    have hperm : (pass n memory xs).1.length = (fresh memory xs).length := by
      refine le_antisymm (length_pass_le hn hsorted (List.Subset.refl _) honly) ?_
      refine (List.subperm_of_subset (List.nodup_dedup _) fun x hx => ?_).length_le
      obtain ⟨hx, hnew⟩ := mem_fresh.1 hx
      exact (mem_or_mem_pass n memory hx).resolve_left hnew
    have hroom : (pass n memory xs).1.length ≤ n := by
      by_contra hfull
      rw [not_le] at hfull
      -- the first one passed on is forgotten at the end
      generalize hout : (pass n memory xs).1 = out at *
      cases out with
      | nil => exact absurd hfull (Nat.not_lt_zero n)
      | cons x rest =>
        have hrest : n ≤ rest.length := Nat.lt_succ_iff.1 hfull
        have hx : x ∈ xs := (hout ▸ pass_sublist n memory xs).subset List.mem_cons_self
        have hkept := hall x hx
        rw [← List.singleton_append, ← List.append_assoc, keep_append_of_le hrest] at hkept
        exact (List.nodup_cons.1 hnodup).1 (keep_subset n rest hkept)
    rw [Retains, ← hperm]
    refine ⟨hroom, fun x hx hold => ?_⟩
    have hkept := hall x hx
    rw [keep_append memory hroom] at hkept
    rcases List.mem_append.1 hkept with hkept | hpassed
    · exact hkept
    · exact absurd hold (honly x hpassed)
  · intro hretains
    have honly := fresh_of_retains hn hlen hretains (List.Subset.refl _) hsorted
    have hle := length_pass_le hn hsorted (List.Subset.refl _) honly
    refine ⟨honly, fun x hx => ?_⟩
    by_cases hold : x ∈ memory
    · exact mem_keep_append hle hretains.1 (hretains.2 x hx hold)
    · rw [keep_append memory (hle.trans hretains.1)]
      exact List.mem_append_right _ ((mem_or_mem_pass n memory hx).resolve_left hold)

end Ascending

end Recent
