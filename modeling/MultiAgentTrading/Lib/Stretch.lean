import Mathlib.Order.Bounds.Basic
import Mathlib.Order.Lattice
import Mathlib.Order.Nat

/-!
# Stretches of marked positions

A stretch is a block of consecutive positions that are all marked.  A loop that walks the positions with two counters,
one that a marked position raises and any other resets, and one that keeps the largest value the first has had, ends
with the length of the longest stretch (`StretchCount`).
-/

/-- Among the first `n` positions there are `k` marked ones in a row. -/
def HasStretch (marked : ℕ → Prop) (n k : ℕ) : Prop := ∃ a, a + k ≤ n ∧ ∀ i, a ≤ i → i < a + k → marked i

/-- What the counters say after `n` positions: `cur` marked positions end the walk and no more than these, and
`longest` is the length of the longest stretch. -/
structure StretchCount (marked : ℕ → Prop) (n cur longest : ℕ) : Prop where
  le : cur ≤ n
  tail : ∀ i, n - cur ≤ i → i < n → marked i
  maximal : cur < n → ¬marked (n - cur - 1)
  longest : IsGreatest {k | HasStretch marked n k} longest

namespace StretchCount

variable {marked : ℕ → Prop} {n cur longest : ℕ}

theorem zero : StretchCount marked 0 0 0 where
  le := le_rfl
  tail i _ hi := absurd hi (Nat.not_lt_zero i)
  maximal h := absurd h (lt_irrefl 0)
  longest := by
    refine ⟨⟨0, le_rfl, fun i _ hi => absurd hi (Nat.not_lt_zero i)⟩, ?_⟩
    rintro k ⟨a, hk, -⟩
    omega

/-- A stretch that ends with the walk is not longer than the first counter. -/
private theorem le_cur (h : StretchCount marked n cur longest) {k : ℕ} (hk : k ≤ n)
    (hmarked : ∀ i, n - k ≤ i → i < n → marked i) : k ≤ cur := by
  by_contra hlt
  exact h.maximal (by omega) (hmarked (n - cur - 1) (by omega) (by omega))

/-- A marked position raises the first counter. -/
theorem mark (h : StretchCount marked n cur longest) (hn : marked n) :
    StretchCount marked (n + 1) (cur + 1) (max longest (cur + 1)) := by
  have htail : ∀ i, n - cur ≤ i → i < n + 1 → marked i := by
    intro i hle hlt
    by_cases hi : i = n
    · exact hi ▸ hn
    · exact h.tail i hle (by omega)
  have hcur := h.le
  refine ⟨by omega, fun i hle => htail i (by omega), fun hlt => ?_, ?_, ?_⟩
  · rw [show n + 1 - (cur + 1) - 1 = n - cur - 1 by omega]
    exact h.maximal (by omega)
  · rcases le_total longest (cur + 1) with hle | hle
    · rw [max_eq_right hle]
      exact ⟨n - cur, by omega, fun i hi hlt => htail i hi (by omega)⟩
    · rw [max_eq_left hle]
      obtain ⟨a, ha, hall⟩ := h.longest.1
      exact ⟨a, by omega, hall⟩
  · rintro k ⟨a, ha, hall⟩
    by_cases hend : a + k = n + 1
    · -- the stretch ends here: without its last position it ended the walk before
      have hk := h.le_cur (k := k - 1) (by omega) fun i hi hlt => hall i (by omega) (by omega)
      exact le_trans (by omega) (le_max_right longest (cur + 1))
    · exact (h.longest.2 ⟨a, by omega, hall⟩).trans (le_max_left longest (cur + 1))

/-- Any other position resets it. -/
theorem reset (h : StretchCount marked n cur longest) (hn : ¬marked n) : StretchCount marked (n + 1) 0 longest := by
  refine ⟨by omega, fun i hi hlt => by omega, fun _ => ?_, ?_, ?_⟩
  · rw [show n + 1 - 0 - 1 = n by omega]
    exact hn
  · obtain ⟨a, ha, hall⟩ := h.longest.1
    exact ⟨a, by omega, hall⟩
  · rintro k ⟨a, ha, hall⟩
    by_cases hend : a + k = n + 1
    · rcases Nat.eq_zero_or_pos k with rfl | hk
      · exact Nat.zero_le longest
      · exact absurd (hall n (by omega) (by omega)) hn
    · exact h.longest.2 ⟨a, by omega, hall⟩

/-- Only the marks of the positions walked matter. -/
theorem congr {marked' : ℕ → Prop} (h : StretchCount marked n cur longest) (hiff : ∀ i < n, marked' i ↔ marked i) :
    StretchCount marked' n cur longest := by
  have hstretch : ∀ k, HasStretch marked' n k ↔ HasStretch marked n k := by
    intro k
    constructor
    · rintro ⟨a, ha, hall⟩
      exact ⟨a, ha, fun i hi hlt => (hiff i (by omega)).1 (hall i hi hlt)⟩
    · rintro ⟨a, ha, hall⟩
      exact ⟨a, ha, fun i hi hlt => (hiff i (by omega)).2 (hall i hi hlt)⟩
  refine ⟨h.le, fun i hi hlt => (hiff i hlt).2 (h.tail i hi hlt), fun hlt => ?_, ?_⟩
  · rw [hiff _ (by omega)]
    exact h.maximal hlt
  · simpa only [hstretch] using h.longest

end StretchCount
