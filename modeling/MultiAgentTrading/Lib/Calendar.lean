import Mathlib.Data.List.Basic
import Mathlib.Data.Prod.Lex
import Mathlib.Order.MinMax

/-!
# The calendar

The Gregorian calendar without a beginning or an end: `yearDay` counts off the cycles of 400, 100, 4 and 1 years, and
`monthIn` finds the month by its first day.  Days are counted from the first of January 1970.  A later day does not lie
in an earlier month (`month_mono`).
-/

namespace Calendar

/-- Whole periods of `k` days in `n` days, at most `top` of them, and the days left. -/
def count (k top n : ℤ) : ℤ × ℤ := (min (n / k) top, n - min (n / k) top * k)

/-- The year of a day, and its number in the year, from 0. -/
def yearDay (day : ℤ) : ℤ × ℤ :=
  let n := day + 719162
  let n100 := count 36524 3 (n % 146097)
  let n4 := count 1461 24 n100.2
  let n1 := count 365 3 n4.2
  (400 * (n / 146097) + 100 * n100.1 + 4 * n4.1 + n1.1 + 1, n1.2)

def isLeap (year : ℤ) : Bool := year % 4 = 0 && (year % 100 ≠ 0 || year % 400 = 0)

/-- The first days of February to December. -/
def monthStarts (leap : Bool) : List ℤ :=
  31 :: [59, 90, 120, 151, 181, 212, 243, 273, 304, 334].map fun n => if leap then n + 1 else n

/-- The month of a day of the year, from 1. -/
def monthIn (leap : Bool) (dayOfYear : ℤ) : ℕ := (monthStarts leap).countP (fun start => start ≤ dayOfYear) + 1

/-- A year and a month of it. -/
abbrev Month := ℤ ×ₗ ℕ

def month (day : ℤ) : Month := toLex ((yearDay day).1, monthIn (isLeap (yearDay day).1) (yearDay day).2)

example : month 0 = toLex (1970, 1) := by decide +kernel

example : (month 19782, month 19783, month 20088, month 20089) =
    (toLex (2024, 2), toLex (2024, 3), toLex (2024, 12), toLex (2025, 1)) := by decide +kernel

private theorem count_mono {k n n' : ℤ} (top : ℤ) (hk : 0 < k) (hle : n ≤ n') :
    (count k top n).1 < (count k top n').1 ∨
      (count k top n).1 = (count k top n').1 ∧ (count k top n).2 ≤ (count k top n').2 := by
  have hdiv : n / k ≤ n' / k := Int.ediv_le_ediv hk hle
  have hmin : min (n / k) top ≤ min (n' / k) top := min_le_min_right top hdiv
  rcases hmin.lt_or_eq with hlt | heq
  · exact .inl hlt
  · refine .inr ⟨heq, ?_⟩
    unfold count
    dsimp only
    rw [heq]
    omega

private theorem count_bounds {k top n : ℤ} (hk : 0 < k) (htop : 0 ≤ top) (hn : 0 ≤ n) :
    0 ≤ (count k top n).1 ∧ (count k top n).1 ≤ top ∧ 0 ≤ (count k top n).2 := by
  have hdiv : 0 ≤ n / k := Int.ediv_nonneg hn hk.le
  have hmul : n / k * k ≤ n := Int.ediv_mul_le n hk.ne'
  have hmin : min (n / k) top * k ≤ n / k * k := Int.mul_le_mul_of_nonneg_right (min_le_left _ _) hk.le
  refine ⟨le_min hdiv htop, min_le_right _ _, ?_⟩
  unfold count
  dsimp only
  omega

/-- A later day has a later year, or the same and a later number in it. -/
private theorem yearDay_mono {day day' : ℤ} (hle : day ≤ day') :
    (yearDay day).1 < (yearDay day').1 ∨
      (yearDay day).1 = (yearDay day').1 ∧ (yearDay day).2 ≤ (yearDay day').2 := by
  have hbounds : ∀ n : ℤ, 0 ≤ n →
      (0 ≤ (count 36524 3 n).1 ∧ (count 36524 3 n).1 ≤ 3 ∧ 0 ≤ (count 36524 3 n).2) ∧
        (0 ≤ (count 1461 24 (count 36524 3 n).2).1 ∧ (count 1461 24 (count 36524 3 n).2).1 ≤ 24 ∧
          0 ≤ (count 1461 24 (count 36524 3 n).2).2) ∧
        0 ≤ (count 365 3 (count 1461 24 (count 36524 3 n).2).2).1 ∧
          (count 365 3 (count 1461 24 (count 36524 3 n).2).2).1 ≤ 3 := by
    intro n hn
    have h100 : 0 ≤ (count 36524 3 n).1 ∧ _ := count_bounds (by decide) (by decide) hn
    have h4 : 0 ≤ (count 1461 24 (count 36524 3 n).2).1 ∧ _ := count_bounds (by decide) (by decide) h100.2.2
    have h1 : 0 ≤ (count 365 3 (count 1461 24 (count 36524 3 n).2).2).1 ∧ _ :=
      count_bounds (by decide) (by decide) h4.2.2
    exact ⟨h100, h4, h1.1, h1.2.1⟩
  obtain ⟨h100, h4, h1⟩ := hbounds ((day + 719162) % 146097) (by omega)
  obtain ⟨h100', h4', h1'⟩ := hbounds ((day' + 719162) % 146097) (by omega)
  have hcycle : (day + 719162) / 146097 < (day' + 719162) / 146097 ∨
      (day + 719162) / 146097 = (day' + 719162) / 146097 ∧
        (day + 719162) % 146097 ≤ (day' + 719162) % 146097 := by omega
  unfold yearDay
  dsimp only
  rcases hcycle with hlt | ⟨heq, hrest⟩
  · omega
  rcases count_mono 3 (by decide : (0 : ℤ) < 36524) hrest with hlt | ⟨heq100, hrest⟩
  · omega
  rcases count_mono 24 (by decide : (0 : ℤ) < 1461) hrest with hlt | ⟨heq4, hrest⟩
  · omega
  rcases count_mono 3 (by decide : (0 : ℤ) < 365) hrest with hlt | ⟨heq1, hrest⟩
  · omega
  · exact .inr ⟨by omega, hrest⟩

private theorem monthIn_mono (leap : Bool) {n n' : ℤ} (hle : n ≤ n') : monthIn leap n ≤ monthIn leap n' := by
  refine Nat.succ_le_succ (List.countP_mono_left fun start _ hstart => ?_)
  exact decide_eq_true ((of_decide_eq_true hstart).trans hle)

theorem month_mono {day day' : ℤ} (hle : day ≤ day') : month day ≤ month day' := by
  refine Prod.Lex.toLex_le_toLex.2 ?_
  rcases yearDay_mono hle with hlt | ⟨heq, hrest⟩
  · exact .inl hlt
  · refine .inr ⟨heq, ?_⟩
    rw [heq]
    exact monthIn_mono _ hrest

end Calendar
