import MultiAgentTrading.Lib.Rounding
import Mathlib.Data.Int.Log
import Mathlib.Tactic.Ring

/-!
# Decimal arithmetic in a context

Arithmetic of decimal numbers as a context with a precision and an exponent range does it, on the values of the
numbers: each result is rounded to the precision, ties to even, and raises a signal if it is out of range.  A number
rounds to `10 ^ k` or more exactly from `threshold k` on (`nearest_lt_iff`), so whether an operation raises can be
read off its exact result.
-/

/-! ### Computations that may raise -/

/-- The computation returns `v` under the condition `p`, and raises otherwise. -/
structure ReturnsIff {ε α : Type} (x : Except ε α) (p : Prop) (v : α) : Prop where
  returns : p → x = .ok v
  raises : ¬p → ∃ e, x = .error e

namespace ReturnsIff

variable {ε ε' α β : Type} {x : Except ε α} {p q : Prop} {v : α}

theorem congr (h : ReturnsIff x p v) (hpq : p ↔ q) : ReturnsIff x q v :=
  ⟨fun hq => h.returns (hpq.2 hq), fun hq => h.raises fun hp => hq (hpq.1 hp)⟩

theorem bind {f : α → Except ε β} {w : β} (h : ReturnsIff x p v) (hf : p → ReturnsIff (f v) q w) :
    ReturnsIff (x >>= f) (p ∧ q) w := by
  constructor
  · rintro ⟨hp, hq⟩
    rw [h.returns hp]
    exact (hf hp).returns hq
  · intro hn
    by_cases hp : p
    · rw [h.returns hp]
      exact (hf hp).raises fun hq => hn ⟨hp, hq⟩
    · obtain ⟨e, he⟩ := h.raises hp
      exact ⟨e, by rw [he]; rfl⟩

theorem mapError (h : ReturnsIff x p v) (f : ε → ε') : ReturnsIff (x.mapError f) p v := by
  constructor
  · intro hp
    rw [h.returns hp]
    rfl
  · intro hp
    obtain ⟨e, he⟩ := h.raises hp
    exact ⟨f e, by rw [he]; rfl⟩

/-- The last step of a computation, which only puts its result together. -/
theorem map (h : ReturnsIff x p v) (f : α → β) : ReturnsIff (x >>= fun w => .ok (f w)) p (f v) := by
  constructor
  · intro hp
    rw [h.returns hp]
    rfl
  · intro hp
    obtain ⟨e, he⟩ := h.raises hp
    exact ⟨e, by rw [he]; rfl⟩

/-- Under the condition the value can be written otherwise. -/
theorem value {w : α} (h : ReturnsIff x p v) (hvw : p → v = w) : ReturnsIff x p w :=
  ⟨fun hp => by rw [h.returns hp, hvw hp], h.raises⟩

end ReturnsIff

/-! ### Contexts -/

/-- A precision and the range of the exponents. -/
structure DecimalContext where
  prec : ℕ
  emin : ℤ
  emax : ℤ
  prec_pos : 0 < prec
  emin_nonpos : emin ≤ 0
  emax_nonneg : 0 ≤ emax

/-- The signals that raise an exception. -/
inductive DecimalSignal
  | invalidOperation
  | divisionByZero
  | overflow
  deriving DecidableEq

namespace DecimalContext

open Rounding

/-- The exponent of the leading digit. -/
def adjusted (x : ℚ) : ℤ := Int.log 10 |x|

variable (c : DecimalContext)

/-- The least exponent of a subnormal number. -/
def etiny : ℤ := c.emin - (c.prec - 1)

/-- The place of the last digit that is kept of `x`. -/
def lastPlace (x : ℚ) : ℤ := max (adjusted x - (c.prec - 1)) c.etiny

/-- `x` rounded to the precision. -/
def nearest (x : ℚ) : ℚ := quantizeHalfEven (10 ^ c.lastPlace x) x

/-- The end of every operation: round, and raise if the result is too large. -/
def finish (x : ℚ) : Except DecimalSignal ℚ :=
  if c.emax < adjusted (c.nearest x) then .error .overflow else .ok (c.nearest x)

def add (x y : ℚ) : Except DecimalSignal ℚ := c.finish (x + y)

def sub (x y : ℚ) : Except DecimalSignal ℚ := c.finish (x - y)

def mul (x y : ℚ) : Except DecimalSignal ℚ := c.finish (x * y)

def div (x y : ℚ) : Except DecimalSignal ℚ :=
  if y = 0 then .error (if x = 0 then .invalidOperation else .divisionByZero) else c.finish (x / y)

/-- A number of so many digits from the given place on does not fit. -/
def tooLong (place : ℤ) (x : ℚ) : Prop := x ≠ 0 ∧ (c.emax < adjusted x ∨ c.prec < adjusted x - place + 1)

instance (place : ℤ) (x : ℚ) : Decidable (c.tooLong place x) := inferInstanceAs (Decidable (_ ∧ _))

/-- `quantize` to a place with a way of rounding. -/
def quantize (rounding : ℚ → ℚ → ℚ) (place : ℤ) (x : ℚ) : Except DecimalSignal ℚ :=
  if ¬(c.etiny ≤ place ∧ place ≤ c.emax) then .error .invalidOperation
  else if c.tooLong place x then .error .invalidOperation
  else if c.tooLong place (rounding (10 ^ place) x) then .error .invalidOperation
  else .ok (rounding (10 ^ place) x)

/-- The least number that is rounded to `10 ^ k`. -/
def threshold (k : ℤ) : ℚ := 10 ^ k - 10 ^ (k - c.prec) / 2

/-- The result of an operation is in range. -/
def Fits (x : ℚ) : Prop := |x| < c.threshold (c.emax + 1)

/-! ### The leading digit -/

theorem adjusted_lt_iff {x : ℚ} (hx : x ≠ 0) {k : ℤ} : adjusted x < k ↔ |x| < 10 ^ k := by
  have h := Int.lt_zpow_iff_log_lt (b := 10) (by decide) (x := k) (abs_pos.2 hx)
  exact_mod_cast h.symm

theorem le_adjusted_iff {x : ℚ} (hx : x ≠ 0) {k : ℤ} : k ≤ adjusted x ↔ 10 ^ k ≤ |x| := by
  rw [← not_lt, adjusted_lt_iff hx, not_lt]

@[simp] theorem adjusted_neg (x : ℚ) : adjusted (-x) = adjusted x := by rw [adjusted, abs_neg, adjusted]

@[simp] theorem adjusted_zero : adjusted 0 = 0 := by rw [adjusted, abs_zero, Int.log_zero_right]

/-! ### Rounding to the precision -/

@[simp] theorem nearest_zero : c.nearest 0 = 0 := by
  have hzero : halfEven (0 : ℚ) = 0 := by exact_mod_cast halfEven_intCast (K := ℚ) 0
  rw [nearest, quantizeHalfEven, zero_div, hzero, Int.cast_zero, zero_mul]

theorem nearest_neg (x : ℚ) : c.nearest (-x) = -c.nearest x := by
  rw [nearest, lastPlace, adjusted_neg, quantizeHalfEven_neg, nearest, lastPlace]

/-- A power of ten is a multiple of each smaller one. -/
private theorem exists_zpow_eq_mul {i j : ℤ} (h : j ≤ i) : ∃ n : ℤ, (10 : ℚ) ^ i = n * 10 ^ j := by
  refine ⟨10 ^ (i - j).toNat, ?_⟩
  have hsplit : i = (i - j).toNat + j := by omega
  push_cast
  rw [← zpow_natCast, ← zpow_add₀ (by norm_num), ← hsplit]

private theorem zpow_pos' (k : ℤ) : (0 : ℚ) < 10 ^ k := zpow_pos (by norm_num) k

private theorem zpow_le {i j : ℤ} (h : i ≤ j) : (10 : ℚ) ^ i ≤ 10 ^ j := zpow_le_zpow_right₀ (by norm_num) h

private theorem zpow_eq_ten_mul (k : ℤ) : (10 : ℚ) ^ k = 10 * 10 ^ (k - 1) := by
  rw [zpow_sub_one₀ (by norm_num)]
  ring

theorem nearest_le_zpow {x : ℚ} {i : ℤ} (hplace : c.lastPlace x ≤ i) (h : x ≤ 10 ^ i) : c.nearest x ≤ 10 ^ i := by
  obtain ⟨n, hn⟩ := exists_zpow_eq_mul hplace
  rw [hn] at h ⊢
  exact quantizeHalfEven_le (zpow_pos' _) h

theorem zpow_le_nearest {x : ℚ} {i : ℤ} (hplace : c.lastPlace x ≤ i) (h : 10 ^ i ≤ x) : 10 ^ i ≤ c.nearest x := by
  obtain ⟨n, hn⟩ := exists_zpow_eq_mul hplace
  rw [hn] at h ⊢
  exact le_quantizeHalfEven (zpow_pos' _) h

/-- The threshold of a power of ten is above the power before it. -/
private theorem zpow_pred_lt_threshold (k : ℤ) :
    (10 : ℚ) ^ (k - 1) ≤ 10 ^ k - 10 ^ (k - c.prec) ∧ 10 ^ (k - 1) < c.threshold k := by
  have hprec := c.prec_pos
  have hle : (10 : ℚ) ^ (k - c.prec) ≤ 10 ^ (k - 1) := zpow_le (by omega)
  have hten := zpow_eq_ten_mul k
  have hpos := zpow_pos' (k - 1)
  have hpos' := zpow_pos' (k - c.prec)
  unfold threshold
  constructor <;> linarith

/-- A number that is rounded at the last digit before the power of ten: up to the threshold it stays a whole last digit
below the power, and from there on it reaches it. -/
private theorem nearest_gap_of_lastPlace {x : ℚ} {k : ℤ} (hplace : c.lastPlace x = k - c.prec) :
    (x < c.threshold k → c.nearest x ≤ 10 ^ k - 10 ^ (k - c.prec)) ∧ (c.threshold k ≤ x → 10 ^ k ≤ c.nearest x) := by
  have hunit := zpow_pos' (k - c.prec)
  have hpow : (10 : ℚ) ^ k = ((10 ^ c.prec : ℤ) : ℚ) * 10 ^ (k - c.prec) := by
    push_cast
    rw [← zpow_natCast, ← zpow_add₀ (by norm_num)]
    congr 1
    ring
  have heven : (10 ^ c.prec : ℤ) % 2 = 0 := by
    obtain ⟨n, hn⟩ := Nat.exists_eq_succ_of_ne_zero c.prec_pos.ne'
    rw [hn, pow_succ]
    omega
  -- in units of the last digit the threshold is half a unit below an even number, so the tie goes up to it
  have hiff := halfEven_lt_iff (x := x / 10 ^ (k - c.prec)) heven
  have htip : x / 10 ^ (k - c.prec) < ((10 ^ c.prec : ℤ) : ℚ) - 1 / 2 ↔ x < c.threshold k := by
    rw [div_lt_iff₀ hunit, threshold, hpow, sub_mul, one_div, inv_mul_eq_div]
  rw [htip] at hiff
  unfold nearest quantizeHalfEven
  rw [hplace, hpow]
  constructor
  · intro h
    have hint : halfEven (x / 10 ^ (k - c.prec)) ≤ 10 ^ c.prec - 1 := by
      have := hiff.2 h
      omega
    have hcast : ((halfEven (x / 10 ^ (k - c.prec)) : ℤ) : ℚ) ≤ ((10 ^ c.prec : ℤ) : ℚ) - 1 := by
      exact_mod_cast hint
    have := mul_le_mul_of_nonneg_right hcast hunit.le
    linarith
  · intro h
    have hint := not_lt.1 fun hlt => absurd (hiff.1 hlt) (not_lt.2 h)
    exact mul_le_mul_of_nonneg_right (by exact_mod_cast hint) hunit.le

/-- Below the threshold a number stays a whole last digit below the power of ten; from there on it reaches it. -/
private theorem nearest_gap {x : ℚ} (hx : 0 ≤ x) {k : ℤ} (hk : c.etiny ≤ k - c.prec) :
    (x < c.threshold k → c.nearest x ≤ 10 ^ k - 10 ^ (k - c.prec)) ∧ (c.threshold k ≤ x → 10 ^ k ≤ c.nearest x) := by
  have hprec := c.prec_pos
  obtain ⟨hpred, hpred'⟩ := c.zpow_pred_lt_threshold k
  rcases hx.eq_or_lt with rfl | hpos
  · have hpow := zpow_pos' (k - 1)
    rw [nearest_zero]
    exact ⟨fun _ => hpow.le.trans hpred, fun h => absurd (hpow.trans hpred') (not_lt.2 h)⟩
  · have hlow : (10 : ℚ) ^ adjusted x ≤ x := by
      have h := (le_adjusted_iff hpos.ne').1 le_rfl
      rwa [abs_of_pos hpos] at h
    have hhigh : x < 10 ^ (adjusted x + 1) := by
      have h := (adjusted_lt_iff hpos.ne').1 (Int.lt_succ (adjusted x))
      rwa [abs_of_pos hpos] at h
    have hplace : c.lastPlace x = max (adjusted x - (c.prec - 1)) c.etiny := rfl
    rcases lt_trichotomy (adjusted x) (k - 1) with hlt | heq | hgt
    · -- a number with fewer digits
      have hle : c.nearest x ≤ 10 ^ (k - 1) :=
        c.nearest_le_zpow (by omega) (hhigh.le.trans (zpow_le (by omega)))
      have hless : x < 10 ^ (k - 1) := lt_of_lt_of_le hhigh (zpow_le (by omega))
      exact ⟨fun _ => hle.trans hpred, fun h => absurd (hless.trans hpred') (not_lt.2 h)⟩
    · exact c.nearest_gap_of_lastPlace (by omega)
    · -- already past it
      have hle : (10 : ℚ) ^ k ≤ x := (zpow_le (by omega)).trans hlow
      have hlt : c.threshold k < x := by
        have : c.threshold k < 10 ^ k := sub_lt_self _ (half_pos (zpow_pos' _))
        exact this.trans_le hle
      have hnear : (10 : ℚ) ^ adjusted x ≤ c.nearest x := c.zpow_le_nearest (by omega) hlow
      exact ⟨fun h => absurd h (not_lt.2 hlt.le), fun _ => (zpow_le (by omega)).trans hnear⟩

theorem nearest_lt_iff {x : ℚ} (hx : 0 ≤ x) {k : ℤ} (hk : c.etiny ≤ k - c.prec) :
    c.nearest x < 10 ^ k ↔ x < c.threshold k := by
  obtain ⟨hbelow, habove⟩ := c.nearest_gap hx hk
  refine ⟨fun h => ?_, fun h => ?_⟩
  · exact not_le.1 fun hge => absurd h (not_lt.2 (habove hge))
  · exact lt_of_le_of_lt (hbelow h) (sub_lt_self _ (zpow_pos' _))

theorem nearest_le_of_lt {x : ℚ} (hx : 0 ≤ x) {k : ℤ} (hk : c.etiny ≤ k - c.prec) (h : c.nearest x < 10 ^ k) :
    c.nearest x ≤ 10 ^ k - 10 ^ (k - c.prec) :=
  (c.nearest_gap hx hk).1 ((c.nearest_lt_iff hx hk).1 h)

theorem nearest_nonneg {x : ℚ} (hx : 0 ≤ x) : 0 ≤ c.nearest x := by
  have h : (((0 : ℤ) : ℚ) * 10 ^ c.lastPlace x) ≤ x := by rwa [Int.cast_zero, zero_mul]
  have hle := le_quantizeHalfEven (zpow_pos' (c.lastPlace x)) h
  rwa [Int.cast_zero, zero_mul] at hle

theorem abs_nearest (x : ℚ) : |c.nearest x| = c.nearest |x| := by
  rcases le_total 0 x with hx | hx
  · rw [abs_of_nonneg hx, abs_of_nonneg (c.nearest_nonneg hx)]
  · rw [abs_of_nonpos hx, nearest_neg, abs_of_nonpos]
    have := c.nearest_nonneg (neg_nonneg.2 hx)
    rw [nearest_neg] at this
    exact neg_nonneg.1 this

/-- A number of at most `prec` digits is not rounded. -/
theorem nearest_of_digits {m : ℤ} {p : ℤ} (hm : |m| < 10 ^ c.prec) (hp : c.etiny ≤ p) :
    c.nearest (m * 10 ^ p) = m * 10 ^ p := by
  by_cases hzero : m = 0
  · rw [hzero, Int.cast_zero, zero_mul, nearest_zero]
  · have hx : (m : ℚ) * 10 ^ p ≠ 0 := mul_ne_zero (by exact_mod_cast hzero) (zpow_pos' p).ne'
    have hlt : |(m : ℚ) * 10 ^ p| < 10 ^ (c.prec + p) := by
      rw [abs_mul, abs_of_pos (zpow_pos' p), zpow_add₀ (by norm_num), zpow_natCast]
      exact mul_lt_mul_of_pos_right (by exact_mod_cast hm) (zpow_pos' p)
    have hadjusted := (adjusted_lt_iff hx).2 hlt
    have hplace : c.lastPlace (m * 10 ^ p) ≤ p := max_le (by omega) hp
    obtain ⟨n, hn⟩ := exists_zpow_eq_mul hplace
    have hmul : (m : ℚ) * 10 ^ p = ((m * n : ℤ) : ℚ) * 10 ^ c.lastPlace (m * 10 ^ p) := by
      rw [Int.cast_mul, mul_assoc, ← hn]
    calc c.nearest (m * 10 ^ p)
        = quantizeHalfEven (10 ^ c.lastPlace (m * 10 ^ p))
            (((m * n : ℤ) : ℚ) * 10 ^ c.lastPlace (m * 10 ^ p)) := by rw [← hmul, nearest]
      _ = m * 10 ^ p := by rw [quantizeHalfEven_intCast_mul (zpow_pos' _), ← hmul]

/-! ### When an operation raises -/

theorem etiny_le : c.etiny ≤ c.emax + 1 - c.prec := by
  have hmin := c.emin_nonpos
  have hmax := c.emax_nonneg
  unfold etiny
  omega

theorem fits_iff (x : ℚ) : c.Fits x ↔ adjusted (c.nearest x) ≤ c.emax := by
  rw [Fits, ← c.nearest_lt_iff (abs_nonneg x) c.etiny_le, ← abs_nearest]
  by_cases hzero : c.nearest x = 0
  · rw [hzero, abs_zero, adjusted_zero]
    exact iff_of_true (zpow_pos' _) c.emax_nonneg
  · rw [← adjusted_lt_iff hzero, Int.lt_add_one_iff]

theorem finish_spec (x : ℚ) : ReturnsIff (c.finish x) (c.Fits x) (c.nearest x) where
  returns h := if_neg (not_lt.2 ((c.fits_iff x).1 h))
  raises h := ⟨.overflow, if_pos (not_le.1 fun hle => h ((c.fits_iff x).2 hle))⟩

/-- A number below a power of ten within the range is in range. -/
theorem fits_of_lt {x : ℚ} {k : ℤ} (hk : k ≤ c.emax) (h : |x| < 10 ^ k) : c.Fits x := by
  have hpred := (c.zpow_pred_lt_threshold (c.emax + 1)).2
  calc |x| < 10 ^ k := h
    _ ≤ 10 ^ (c.emax + 1 - 1) := zpow_le (by omega)
    _ < c.threshold (c.emax + 1) := hpred

theorem threshold_mono {i j : ℤ} (h : i ≤ j) : c.threshold i ≤ c.threshold j := by
  rcases h.eq_or_lt with rfl | hlt
  · exact le_rfl
  · have hpred := (c.zpow_pred_lt_threshold j).2
    have hbelow : c.threshold i < 10 ^ i := sub_lt_self _ (half_pos (zpow_pos' _))
    exact (hbelow.trans_le (zpow_le (by omega))).le.trans hpred.le

/-- A number below the threshold of a power of ten within the range is in range. -/
theorem fits_of_lt_threshold {x : ℚ} {k : ℤ} (hk : k ≤ c.emax + 1) (h : |x| < c.threshold k) : c.Fits x :=
  lt_of_lt_of_le h (c.threshold_mono hk)

theorem tooLong_iff {place : ℤ} (hplace : place + c.prec ≤ c.emax + 1) (x : ℚ) :
    c.tooLong place x ↔ 10 ^ (place + c.prec) ≤ |x| := by
  by_cases hx : x = 0
  · rw [hx, abs_zero]
    exact iff_of_false (fun h => h.1 rfl) (not_le.2 (zpow_pos' _))
  · rw [← le_adjusted_iff hx, tooLong]
    constructor
    · rintro ⟨-, h | h⟩ <;> omega
    · intro h
      exact ⟨hx, .inr (by omega)⟩

/-- Quantizing down raises exactly on a number with too many digits before the place. -/
theorem quantize_down_spec {place : ℤ} (hlow : c.etiny ≤ place) (hplace : place + c.prec ≤ c.emax + 1) (x : ℚ) :
    ReturnsIff (c.quantize quantizeDown place x) (|x| < 10 ^ (place + c.prec)) (quantizeDown (10 ^ place) x) := by
  have hprec := c.prec_pos
  have hrange : ¬¬(c.etiny ≤ place ∧ place ≤ c.emax) := not_not.2 ⟨hlow, by omega⟩
  unfold quantize
  rw [if_neg hrange]
  constructor
  · intro h
    have hround := (abs_quantizeDown_le (zpow_pos' place) x).trans_lt h
    rw [if_neg, if_neg]
    · exact fun hlong => absurd ((c.tooLong_iff hplace _).1 hlong) (not_le.2 hround)
    · exact fun hlong => absurd ((c.tooLong_iff hplace _).1 hlong) (not_le.2 h)
  · intro h
    exact ⟨_, if_pos ((c.tooLong_iff hplace x).2 (not_lt.1 h))⟩

/-- Rounding once more what an operation returned does not lengthen it. -/
private theorem abs_quantizeHalfEven_nearest_lt {place : ℤ} (hlow : c.etiny ≤ place) {x : ℚ}
    (h : |c.nearest x| < 10 ^ (place + c.prec)) :
    |quantizeHalfEven (10 ^ place) (c.nearest x)| < 10 ^ (place + c.prec) := by
  -- a rounded number below the power of ten is a whole unit below it
  have hgap : c.nearest |x| ≤ 10 ^ (place + c.prec) - 10 ^ place := by
    have hle := c.nearest_le_of_lt (abs_nonneg x) (k := place + c.prec) (by omega) (by rwa [← abs_nearest])
    rwa [add_sub_cancel_right] at hle
  obtain ⟨n, hn⟩ := exists_zpow_eq_mul (show place ≤ place + c.prec by omega)
  have hunit := zpow_pos' place
  have hbound : |c.nearest x| ≤ ((n - 1 : ℤ) : ℚ) * 10 ^ place := by
    rw [abs_nearest]
    push_cast
    linarith
  obtain ⟨hneg, hpos⟩ := abs_le.1 hbound
  have hneg' : ((-(n - 1) : ℤ) : ℚ) * 10 ^ place ≤ c.nearest x := by
    push_cast at hneg ⊢
    linarith
  have hhigh := quantizeHalfEven_le hunit hpos
  have hlow' := le_quantizeHalfEven hunit hneg'
  rw [abs_lt]
  push_cast at hhigh hlow'
  constructor <;> linarith

/-- Quantizing to nearest what an operation returned raises exactly on a number with too many digits. -/
theorem quantize_halfEven_spec {place : ℤ} (hlow : c.etiny ≤ place) (hplace : place + c.prec ≤ c.emax + 1) (x : ℚ) :
    ReturnsIff (c.quantize quantizeHalfEven place (c.nearest x)) (|c.nearest x| < 10 ^ (place + c.prec))
      (quantizeHalfEven (10 ^ place) (c.nearest x)) := by
  have hprec := c.prec_pos
  have hrange : ¬¬(c.etiny ≤ place ∧ place ≤ c.emax) := not_not.2 ⟨hlow, by omega⟩
  unfold quantize
  rw [if_neg hrange]
  constructor
  · intro h
    have hround := c.abs_quantizeHalfEven_nearest_lt hlow h
    rw [if_neg, if_neg]
    · exact fun hlong => absurd ((c.tooLong_iff hplace _).1 hlong) (not_le.2 hround)
    · exact fun hlong => absurd ((c.tooLong_iff hplace _).1 hlong) (not_le.2 h)
  · intro h
    exact ⟨_, if_pos ((c.tooLong_iff hplace _).2 (not_lt.1 h))⟩

/-- A result is in range and short enough to be quantized exactly below the threshold. -/
private theorem fits_and_lt_iff {k : ℤ} (hlow : c.etiny ≤ k - c.prec) (hhigh : k ≤ c.emax + 1) (x : ℚ) :
    c.Fits x ∧ |c.nearest x| < 10 ^ k ↔ |x| < c.threshold k := by
  rw [abs_nearest, c.nearest_lt_iff (abs_nonneg x) hlow]
  exact ⟨fun h => h.2, fun h => ⟨c.fits_of_lt_threshold hhigh h, h⟩⟩

/-- An operation and then a quantization down. -/
theorem finish_quantize_down_spec {place : ℤ} (hlow : c.etiny ≤ place) (hplace : place + c.prec ≤ c.emax + 1)
    (x : ℚ) :
    ReturnsIff (c.finish x >>= c.quantize quantizeDown place) (|x| < c.threshold (place + c.prec))
      (quantizeDown (10 ^ place) (c.nearest x)) :=
  ((c.finish_spec x).bind fun _ => c.quantize_down_spec hlow hplace _).congr
    (c.fits_and_lt_iff (by omega) hplace x)

/-- An operation and then a quantization to nearest. -/
theorem finish_quantize_halfEven_spec {place : ℤ} (hlow : c.etiny ≤ place) (hplace : place + c.prec ≤ c.emax + 1)
    (x : ℚ) :
    ReturnsIff (c.finish x >>= c.quantize quantizeHalfEven place) (|x| < c.threshold (place + c.prec))
      (quantizeHalfEven (10 ^ place) (c.nearest x)) :=
  ((c.finish_spec x).bind fun _ => c.quantize_halfEven_spec hlow hplace _).congr
    (c.fits_and_lt_iff (by omega) hplace x)

end DecimalContext
