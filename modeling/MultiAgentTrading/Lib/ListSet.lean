import Mathlib.Data.List.Basic

/-!
# Lists with one element changed

A system of many parties keeps them in a list `l`, and a step of one of them gives `l.set i x`.  Whatever is found
there is `x` or an old element at another position, and what is read off the whole list stays the same if it is the
same for `x` as for the element that was replaced.
-/

namespace ListSet

variable {α β : Type*} {l : List α} {i : ℕ} {x y : α}

/-- What is found is the new element, or an old one at another position. -/
theorem getElem?_cases {j : ℕ} (h : (l.set i x)[j]? = some y) : i = j ∧ y = x ∨ i ≠ j ∧ l[j]? = some y := by
  rw [List.getElem?_set] at h
  split at h
  case isTrue hij =>
    split at h
    case isTrue => exact .inl ⟨hij, (Option.some.inj h).symm⟩
    case isFalse => cases h
  case isFalse hij => exact .inr ⟨hij, h⟩

theorem map_set_of_eq {f : α → β} (hy : l[i]? = some y) (h : f x = f y) : (l.set i x).map f = l.map f := by
  induction l generalizing i with
  | nil => cases hy
  | cons a l ih =>
    cases i with
    | zero =>
      obtain rfl : a = y := Option.some.inj hy
      rw [List.set_cons_zero, List.map_cons, List.map_cons, h]
    | succ i => rw [List.set_cons_succ, List.map_cons, List.map_cons, ih hy]

variable {f : α → List β}

theorem flatMap_set_of_eq (hy : l[i]? = some y) (h : f x = f y) : (l.set i x).flatMap f = l.flatMap f := by
  rw [List.flatMap_def, List.flatMap_def, map_set_of_eq hy h]

/-- Only the changed element has a part. -/
theorem flatMap_set_of_alone (hy : l[i]? = some y) (halone : ∀ j a, l[j]? = some a → j ≠ i → f a = []) :
    (l.set i x).flatMap f = f x := by
  induction l generalizing i with
  | nil => cases hy
  | cons a l ih =>
    cases i with
    | zero =>
      have hrest : l.flatMap f = [] := by
        rw [List.flatMap_eq_nil_iff]
        intro c hc
        obtain ⟨j, hj⟩ := List.mem_iff_getElem?.1 hc
        exact halone (j + 1) c hj (Nat.succ_ne_zero j)
      rw [List.set_cons_zero, List.flatMap_cons, hrest, List.append_nil]
    | succ i =>
      have ha : f a = [] := halone 0 a rfl (Nat.succ_ne_zero i).symm
      rw [List.set_cons_succ, List.flatMap_cons, ha, List.nil_append]
      exact ih hy fun j c hj hne => halone (j + 1) c hj fun he => hne (Nat.succ.inj he)

end ListSet
