import Mathlib.Data.List.Basic
import Mathlib.Data.List.Induction
import Mathlib.Order.Lattice

/-!
# Records

The elements of a list that exceed all records before them, compared by a key.  They are ascending, and to exceed
them all is to exceed every element so far (`forall_records_lt_iff`), or the last record (`forall_lt_iff_getLast`).
An ascending list is its own records, and a bound cuts it in two (`le_of_mem_dropWhile`).
-/

namespace Records

variable {α β : Type*} [LinearOrder β] (f : α → β)

/-- Append an element that exceeds all that are kept. -/
def push (kept : List α) (x : α) : List α := if ∀ y ∈ kept, f y < f x then kept ++ [x] else kept

def records (l : List α) : List α := l.foldl (push f) []

@[simp] theorem records_nil : records f [] = [] := rfl

theorem records_concat (l : List α) (x : α) : records f (l ++ [x]) = push f (records f l) x := by
  rw [records, List.foldl_append]
  rfl

variable {f}

/-- What follows the elements below a bound, in an ascending list, is not below it. -/
theorem le_of_mem_dropWhile {l : List α} {b : β} (h : l.Pairwise fun x y => f x ≤ f y) {x : α}
    (hx : x ∈ l.dropWhile fun y => f y < b) : b ≤ f x := by
  induction l with
  | nil => cases hx
  | cons y l ih =>
    rw [List.pairwise_cons] at h
    by_cases hbelow : f y < b
    · rw [List.dropWhile_cons_of_pos (by simpa using hbelow)] at hx
      exact ih h.2 hx
    · rw [List.dropWhile_cons_of_neg (by simpa using hbelow)] at hx
      have hle : b ≤ f y := not_lt.1 hbelow
      rcases List.mem_cons.1 hx with rfl | hmem
      · exact hle
      · exact hle.trans (h.1 x hmem)

theorem push_of_lt {kept : List α} {x : α} (h : ∀ y ∈ kept, f y < f x) : push f kept x = kept ++ [x] := if_pos h

theorem push_of_not_lt {kept : List α} {x : α} (h : ¬∀ y ∈ kept, f y < f x) : push f kept x = kept := if_neg h

theorem pairwise_records (l : List α) : (records f l).Pairwise fun x y => f x < f y := by
  induction l using List.reverseRecOn with
  | nil => exact List.Pairwise.nil
  | append_singleton l x ih =>
    rw [records_concat]
    by_cases hx : ∀ y ∈ records f l, f y < f x
    · rw [push_of_lt hx, List.pairwise_append]
      refine ⟨ih, List.pairwise_singleton _ _, fun y hy x' hx' => ?_⟩
      rw [List.mem_singleton.1 hx']
      exact hx y hy
    · rw [push_of_not_lt hx]
      exact ih

/-- In an ascending list every element is a record. -/
theorem records_of_pairwise {l : List α} (h : l.Pairwise fun x y => f x < f y) : records f l = l := by
  induction l using List.reverseRecOn with
  | nil => rfl
  | append_singleton l x ih =>
    obtain ⟨hl, -, hx⟩ := List.pairwise_append.1 h
    rw [records_concat, ih hl, push_of_lt fun y hy => hx y hy x (List.mem_singleton_self x)]

/-- What exceeds the records exceeds everything. -/
theorem forall_records_lt_iff {l : List α} {b : β} : (∀ y ∈ records f l, f y < b) ↔ ∀ y ∈ l, f y < b := by
  induction l using List.reverseRecOn with
  | nil => rfl
  | append_singleton l x ih =>
    rw [records_concat, List.forall_mem_append, List.forall_mem_singleton, ← ih]
    by_cases hx : ∀ y ∈ records f l, f y < f x
    · rw [push_of_lt hx, List.forall_mem_append, List.forall_mem_singleton]
    · rw [push_of_not_lt hx]
      refine ⟨fun h => ⟨h, ?_⟩, fun h => h.1⟩
      -- some record is no smaller than `x`
      by_contra hb
      exact hx fun y hy => (h y hy).trans_le (not_lt.1 hb)

/-- In an ascending list only the last element has to be compared. -/
theorem forall_lt_iff_getLast {l : List α} (h : l.Pairwise fun x y => f x < f y) {b : β} :
    (∀ y ∈ l, f y < b) ↔ ∀ y ∈ l.getLast?, f y < b := by
  rcases List.eq_nil_or_concat' l with rfl | ⟨init, last, rfl⟩
  · simp
  · rw [List.getLast?_concat, List.forall_mem_append, List.forall_mem_singleton]
    constructor
    · rintro ⟨-, hlast⟩ y hy
      obtain rfl : last = y := Option.some.inj hy
      exact hlast
    · intro hlast
      have hb : f last < b := hlast last rfl
      refine ⟨fun y hy => ?_, hb⟩
      exact ((List.pairwise_append.1 h).2.2 y hy last (List.mem_singleton_self last)).trans hb

end Records
