import Mathlib.Algebra.Order.Floor.Ring
import Mathlib.Algebra.Order.Round
import Mathlib.Data.Rat.Floor
import Mathlib.Tactic.Linarith
import Mathlib.Tactic.FieldSimp
import Mathlib.Tactic.Positivity

/-!
# Rounding to a multiple of a unit

`quantizeDown u x` is the multiple of `u` next to `x` toward zero and `quantizeHalfEven u x` the nearest multiple
of `u`, ties going to the even one; `roundTo d x` rounds to `d` decimal digits.  The facts used elsewhere are the
error bounds (rounding down a nonnegative number loses less than one unit, and rounding to nearest moves a number by
at most half a unit) and that rounding to nearest does not leave an interval with integer ends.
-/

namespace Rounding

variable {K : Type*} [Field K] [LinearOrder K] [FloorRing K]

/-- The integer part: rounding toward zero. -/
def trunc (x : K) : ℤ := if 0 ≤ x then ⌊x⌋ else ⌈x⌉

/-- Rounding to the nearest integer, ties to the even one. -/
def halfEven (x : K) : ℤ :=
  if x - ⌊x⌋ < ⌊x⌋ + 1 - x then ⌊x⌋
  else if ⌊x⌋ + 1 - x < x - ⌊x⌋ then ⌊x⌋ + 1
  else if ⌊x⌋ % 2 = 0 then ⌊x⌋ else ⌊x⌋ + 1

/-- The multiple of `u` next to `x` toward zero. -/
def quantizeDown (u x : K) : K := trunc (x / u) * u

/-- The multiple of `u` nearest to `x`, ties to the even multiple. -/
def quantizeHalfEven (u x : K) : K := halfEven (x / u) * u

/-- Rounding to a number of decimal digits, ties to even. -/
def roundTo (digits : ℕ) (x : K) : K := quantizeHalfEven (1 / (10 ^ digits : ℕ)) x

variable [IsStrictOrderedRing K]

/-! ### Rounding toward zero -/

omit [IsStrictOrderedRing K] in
private theorem trunc_of_nonneg {x : K} (hx : 0 ≤ x) : trunc x = ⌊x⌋ := by
  unfold trunc; rw [if_pos hx]

theorem quantizeDown_nonneg {u x : K} (hu : 0 < u) (hx : 0 ≤ x) : 0 ≤ quantizeDown u x := by
  unfold quantizeDown
  rw [trunc_of_nonneg (div_nonneg hx hu.le)]
  have h : (0 : ℤ) ≤ ⌊x / u⌋ := Int.floor_nonneg.2 (div_nonneg hx hu.le)
  exact mul_nonneg (by exact_mod_cast h) hu.le

/-- Rounding toward zero makes no number larger. -/
theorem abs_quantizeDown_le {u : K} (hu : 0 < u) (x : K) : |quantizeDown u x| ≤ |x| := by
  have htrunc : |(trunc (x / u) : K)| ≤ |x / u| := by
    unfold trunc
    split_ifs with h
    · have hfloor : (0 : K) ≤ ⌊x / u⌋ := by exact_mod_cast Int.floor_nonneg.2 h
      rw [abs_of_nonneg h, abs_of_nonneg hfloor]
      exact Int.floor_le _
    · have hneg := (not_le.1 h).le
      have hceil : (⌈x / u⌉ : K) ≤ 0 := by exact_mod_cast Int.ceil_le.2 (by exact_mod_cast hneg)
      rw [abs_of_nonpos hneg, abs_of_nonpos hceil]
      exact neg_le_neg (Int.le_ceil _)
  rw [quantizeDown, abs_mul, abs_of_pos hu, ← le_div_iff₀ hu]
  calc |(trunc (x / u) : K)| ≤ |x / u| := htrunc
    _ = |x| / u := by rw [abs_div, abs_of_pos hu]

theorem quantizeDown_le {u x : K} (hu : 0 < u) (hx : 0 ≤ x) : quantizeDown u x ≤ x := by
  unfold quantizeDown
  rw [trunc_of_nonneg (div_nonneg hx hu.le), ← le_div_iff₀ hu]
  exact Int.floor_le (x / u)

theorem lt_quantizeDown_add {u x : K} (hu : 0 < u) (hx : 0 ≤ x) : x < quantizeDown u x + u := by
  unfold quantizeDown
  rw [trunc_of_nonneg (div_nonneg hx hu.le)]
  have h := (div_lt_iff₀ hu).1 (Int.lt_floor_add_one (x / u))
  linarith [add_mul (⌊x / u⌋ : K) 1 u, one_mul u]

/-- A nonnegative number rounds down to zero exactly when it is below one unit. -/
theorem quantizeDown_eq_zero_iff {u x : K} (hu : 0 < u) (hx : 0 ≤ x) : quantizeDown u x = 0 ↔ x < u := by
  constructor
  · intro h
    have := lt_quantizeDown_add hu hx
    rwa [h, zero_add] at this
  · intro h
    have hf : ⌊x / u⌋ = 0 := Int.floor_eq_zero_iff.2 ⟨div_nonneg hx hu.le, (div_lt_one hu).2 h⟩
    unfold quantizeDown
    rw [trunc_of_nonneg (div_nonneg hx hu.le), hf, Int.cast_zero, zero_mul]

/-! ### Rounding to nearest -/

private theorem abs_halfEven_sub_le (x : K) : |(halfEven x : K) - x| ≤ 1 / 2 := by
  have h0 : 0 ≤ x - ⌊x⌋ := Int.fract_nonneg x
  have h1 : x - ⌊x⌋ < 1 := Int.fract_lt_one x
  unfold halfEven
  rw [abs_le]
  split_ifs with ha hb hc
  · constructor <;> linarith
  · push_cast; constructor <;> linarith
  · constructor <;> linarith
  · push_cast; constructor <;> linarith

/-- Rounding to nearest moves a number by at most half a unit. -/
theorem abs_quantizeHalfEven_sub_le {u : K} (hu : 0 < u) (x : K) : |quantizeHalfEven u x - x| ≤ u / 2 := by
  have h := abs_halfEven_sub_le (x / u)
  have e : quantizeHalfEven u x - x = ((halfEven (x / u) : K) - x / u) * u := by
    unfold quantizeHalfEven
    rw [sub_mul, div_mul_cancel₀ x hu.ne']
  rw [e, abs_mul, abs_of_pos hu]
  calc |(halfEven (x / u) : K) - x / u| * u ≤ 1 / 2 * u := mul_le_mul_of_nonneg_right h hu.le
    _ = u / 2 := by ring

theorem halfEven_le {x : K} {n : ℤ} (h : x ≤ n) : halfEven x ≤ n := by
  have hfloor : (⌊x⌋ : K) ≤ x := Int.floor_le x
  have hle : ⌊x⌋ ≤ n := by exact_mod_cast hfloor.trans h
  have hlt : ⌊x⌋ + 1 - x ≤ x - ⌊x⌋ → ⌊x⌋ + 1 ≤ n := by
    intro hf
    have : (⌊x⌋ : K) < n := by linarith
    have : ⌊x⌋ < n := by exact_mod_cast this
    omega
  unfold halfEven
  split_ifs with ha hb hc
  · exact hle
  · exact hlt hb.le
  · exact hle
  · exact hlt (not_lt.1 ha)

omit [IsStrictOrderedRing K] in
theorem le_halfEven {x : K} {n : ℤ} (h : n ≤ x) : n ≤ halfEven x := by
  have hfloor : n ≤ ⌊x⌋ := Int.le_floor.2 h
  unfold halfEven
  split_ifs <;> omega

theorem halfEven_intCast (n : ℤ) : halfEven (n : K) = n := le_antisymm (halfEven_le le_rfl) (le_halfEven le_rfl)

theorem halfEven_mono {x y : K} (h : x ≤ y) : halfEven x ≤ halfEven y := by
  rcases (Int.floor_mono h).lt_or_eq with hlt | heq
  · have hx : halfEven x ≤ ⌊x⌋ + 1 := halfEven_le (by exact_mod_cast (Int.lt_floor_add_one x).le)
    have hy : ⌊y⌋ ≤ halfEven y := le_halfEven (Int.floor_le y)
    omega
  · unfold halfEven
    rw [heq]
    split_ifs <;> first | omega | (exfalso; linarith)

theorem halfEven_neg (x : K) : halfEven (-x) = -halfEven x := by
  have h0 : (⌊x⌋ : K) ≤ x := Int.floor_le x
  rcases h0.eq_or_lt with hint | hlt
  · rw [← hint, ← Int.cast_neg, halfEven_intCast, halfEven_intCast]
  · have h1 : x < ⌊x⌋ + 1 := Int.lt_floor_add_one x
    have hfloor : ⌊-x⌋ = -⌊x⌋ - 1 := by
      rw [Int.floor_eq_iff]
      push_cast
      constructor <;> linarith
    unfold halfEven
    rw [hfloor]
    push_cast
    split_ifs <;> first | omega | (exfalso; linarith)

/-- An even integer is reached from half a unit below it on. -/
theorem halfEven_lt_iff {x : K} {n : ℤ} (hn : n % 2 = 0) : halfEven x < n ↔ x < n - 1 / 2 := by
  have h0 : (⌊x⌋ : K) ≤ x := Int.floor_le x
  have h1 : x < ⌊x⌋ + 1 := Int.lt_floor_add_one x
  rcases lt_trichotomy ⌊x⌋ (n - 1) with hlt | heq | hgt
  · have hcast : (⌊x⌋ : K) + 1 ≤ ((n - 1 : ℤ) : K) := by exact_mod_cast hlt
    push_cast at hcast
    have hle : halfEven x ≤ n - 1 := halfEven_le (by push_cast; linarith)
    exact iff_of_true (by omega) (by linarith)
  · -- the tie between an odd and an even neighbour goes to the even one
    have hcast : (⌊x⌋ : K) = n - 1 := by rw [heq]; push_cast; rfl
    unfold halfEven
    rw [heq, if_neg (by omega : ¬(n - 1) % 2 = 0)]
    push_cast
    split_ifs with ha hb
    · exact iff_of_true (by omega) (by linarith)
    · exact iff_of_false (by omega) (by linarith)
    · exact iff_of_false (by omega) (by linarith)
  · have hcast : (n : K) ≤ (⌊x⌋ : K) := by exact_mod_cast (by omega : n ≤ ⌊x⌋)
    have hle : n ≤ halfEven x := le_halfEven (hcast.trans h0)
    exact iff_of_false (by omega) (by linarith)

theorem quantizeHalfEven_neg (u x : K) : quantizeHalfEven u (-x) = -quantizeHalfEven u x := by
  rw [quantizeHalfEven, neg_div, halfEven_neg, Int.cast_neg, neg_mul, quantizeHalfEven]

theorem quantizeHalfEven_mono {u x y : K} (hu : 0 < u) (h : x ≤ y) : quantizeHalfEven u x ≤ quantizeHalfEven u y := by
  have hle : halfEven (x / u) ≤ halfEven (y / u) := halfEven_mono (div_le_div_of_nonneg_right h hu.le)
  exact mul_le_mul_of_nonneg_right (by exact_mod_cast hle) hu.le

/-- A multiple of the unit is not moved. -/
theorem quantizeHalfEven_intCast_mul {u : K} (hu : 0 < u) (n : ℤ) : quantizeHalfEven u (n * u) = n * u := by
  rw [quantizeHalfEven, mul_div_cancel_right₀ _ hu.ne', halfEven_intCast]

/-- Rounding to nearest does not pass a multiple of the unit. -/
theorem quantizeHalfEven_le {u x : K} (hu : 0 < u) {n : ℤ} (h : x ≤ n * u) : quantizeHalfEven u x ≤ n * u := by
  have hle : halfEven (x / u) ≤ n := halfEven_le ((div_le_iff₀ hu).2 h)
  exact mul_le_mul_of_nonneg_right (by exact_mod_cast hle) hu.le

theorem le_quantizeHalfEven {u x : K} (hu : 0 < u) {n : ℤ} (h : n * u ≤ x) : n * u ≤ quantizeHalfEven u x := by
  have hle : n ≤ halfEven (x / u) := le_halfEven ((le_div_iff₀ hu).2 h)
  exact mul_le_mul_of_nonneg_right (by exact_mod_cast hle) hu.le

omit [IsStrictOrderedRing K] in
private theorem roundTo_eq (digits : ℕ) (x : K) : roundTo digits x = halfEven (x * 10 ^ digits) / 10 ^ digits := by
  rw [roundTo, quantizeHalfEven, div_div_eq_mul_div, div_one, mul_one_div, Nat.cast_pow, Nat.cast_ofNat]

/-- Rounding to decimal digits stays between integer bounds. -/
theorem roundTo_le (digits : ℕ) {x : K} {n : ℤ} (h : x ≤ n) : roundTo digits x ≤ n := by
  have h10 : (0 : K) < 10 ^ digits := by positivity
  have hx : x * 10 ^ digits ≤ ((n * 10 ^ digits : ℤ) : K) := by
    push_cast
    exact mul_le_mul_of_nonneg_right h h10.le
  have hr : ((halfEven (x * 10 ^ digits) : ℤ) : K) ≤ ((n * 10 ^ digits : ℤ) : K) := by
    exact_mod_cast halfEven_le hx
  rw [roundTo_eq, div_le_iff₀ h10]
  push_cast at hr
  exact hr

theorem le_roundTo (digits : ℕ) {x : K} {n : ℤ} (h : n ≤ x) : n ≤ roundTo digits x := by
  have h10 : (0 : K) < 10 ^ digits := by positivity
  have hx : ((n * 10 ^ digits : ℤ) : K) ≤ x * 10 ^ digits := by
    push_cast
    exact mul_le_mul_of_nonneg_right h h10.le
  have hr : ((n * 10 ^ digits : ℤ) : K) ≤ ((halfEven (x * 10 ^ digits) : ℤ) : K) := by
    exact_mod_cast le_halfEven hx
  rw [roundTo_eq, le_div_iff₀ h10]
  push_cast at hr
  exact hr

example : quantizeDown (1 / 100 : ℚ) (1999 / 1000) = 199 / 100 := by decide +kernel
example : quantizeHalfEven (1 / 100 : ℚ) (5 / 1000) = 0 := by decide +kernel

end Rounding
