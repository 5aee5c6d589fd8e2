import MultiAgentTrading.Mt5.Bridge

/-!
# The broker's lot rules

The bridge rounds a requested volume to the lot step, then to two decimals, then brings it between the minimum and the
maximum.  The second rounding is meant for lots of a hundredth and leaves them alone, but a finer lot is moved by it,
off the grid or by several steps.  `lot_rules_iff` says for which settings every request becomes a lot between the
bounds and next to what was asked for.
-/

namespace MultiAgentTrading.Mt5

open Rounding

/-- A whole number of lot steps. -/
def IsLot (mt5 : MT5Settings) (volume : ℚ) : Prop := ∃ n : ℤ, volume = n * mt5.volumeStep

/-- The bounds are positive lots. -/
structure LotConstraints (mt5 : MT5Settings) : Prop where
  step_pos : 0 < mt5.volumeStep
  min_pos : 0 < mt5.minVolume
  min_le_max : mt5.minVolume ≤ mt5.maxVolume
  min_isLot : IsLot mt5 mt5.minVolume
  max_isLot : IsLot mt5 mt5.maxVolume

/-- The volume that is sent for a request: a lot between the bounds, and at most half a step from a request that is
between the bounds. -/
structure ObeysLotRules (mt5 : MT5Settings) (volume : ℚ) : Prop where
  isLot : IsLot mt5 (clampVolume mt5 volume)
  min_le : mt5.minVolume ≤ clampVolume mt5 volume
  le_max : clampVolume mt5 volume ≤ mt5.maxVolume
  near : mt5.minVolume ≤ volume → volume ≤ mt5.maxVolume → |clampVolume mt5 volume - volume| ≤ mt5.volumeStep / 2

/-- Two decimals keep the lots: they do not raise the minimum or lower the maximum, which the clamp would not undo, and
leave what is between them alone. -/
def TwoDecimalsKeepLots (mt5 : MT5Settings) : Prop :=
  mt5.minVolume = mt5.maxVolume ∨
    quantizeHalfEven (1 / 100) mt5.minVolume ≤ mt5.minVolume ∧
      mt5.maxVolume ≤ quantizeHalfEven (1 / 100) mt5.maxVolume ∧
      ∀ lot, IsLot mt5 lot → mt5.minVolume < lot → lot < mt5.maxVolume → quantizeHalfEven (1 / 100) lot = lot

section Clamp

variable {mt5 : MT5Settings}

private theorem hundredth_pos : (0 : ℚ) < 1 / 100 := by norm_num

/-- The clamp keeps the bounds, whatever is rounded. -/
theorem min_le_clampVolume (h : mt5.minVolume ≤ mt5.maxVolume) (volume : ℚ) :
    mt5.minVolume ≤ clampVolume mt5 volume := le_min (le_max_right _ _) h

theorem clampVolume_le_max (volume : ℚ) : clampVolume mt5 volume ≤ mt5.maxVolume := min_le_right _ _

private theorem isLot_nearest (volume : ℚ) : IsLot mt5 (quantizeHalfEven mt5.volumeStep volume) := ⟨_, rfl⟩

private theorem IsLot.quantize (hstep : 0 < mt5.volumeStep) {lot : ℚ} (h : IsLot mt5 lot) :
    quantizeHalfEven mt5.volumeStep lot = lot := by
  obtain ⟨n, rfl⟩ := h
  exact quantizeHalfEven_intCast_mul hstep n

/-- Two different lots are a step apart. -/
private theorem IsLot.eq_of_near (hstep : 0 < mt5.volumeStep) {lot lot' : ℚ} (h : IsLot mt5 lot) (h' : IsLot mt5 lot')
    (hnear : |lot - lot'| ≤ mt5.volumeStep / 2) : lot = lot' := by
  obtain ⟨n, rfl⟩ := h
  obtain ⟨n', rfl⟩ := h'
  have hlt : |((n - n' : ℤ) : ℚ)| < 1 := by
    rw [← sub_mul, abs_mul, abs_of_pos hstep] at hnear
    push_cast
    by_contra hge
    have := mul_le_mul_of_nonneg_right (not_lt.1 hge) hstep.le
    linarith
  have hzero : n - n' = 0 := by
    rw [← Int.abs_lt_one_iff]
    exact_mod_cast hlt
  rw [sub_eq_zero.1 hzero]

private theorem clampVolume_def (volume : ℚ) :
    clampVolume mt5 volume =
      min (max (quantizeHalfEven (1 / 100) (quantizeHalfEven mt5.volumeStep volume)) mt5.minVolume) mt5.maxVolume :=
  rfl

private theorem clampVolume_eq_min (h : mt5.minVolume ≤ mt5.maxVolume) {volume : ℚ}
    (hlow : quantizeHalfEven (1 / 100) (quantizeHalfEven mt5.volumeStep volume) ≤ mt5.minVolume) :
    clampVolume mt5 volume = mt5.minVolume := by
  rw [clampVolume_def, max_eq_right hlow, min_eq_left h]

private theorem clampVolume_eq_max {volume : ℚ}
    (hhigh : mt5.maxVolume ≤ quantizeHalfEven (1 / 100) (quantizeHalfEven mt5.volumeStep volume)) :
    clampVolume mt5 volume = mt5.maxVolume := by
  rw [clampVolume_def, min_eq_right (hhigh.trans (le_max_left _ _))]

/-- A request between the bounds is rounded to a lot between the bounds. -/
private theorem nearest_mem (h : LotConstraints mt5) {volume : ℚ} (hmin : mt5.minVolume ≤ volume)
    (hmax : volume ≤ mt5.maxVolume) : mt5.minVolume ≤ quantizeHalfEven mt5.volumeStep volume ∧
      quantizeHalfEven mt5.volumeStep volume ≤ mt5.maxVolume := by
  have hlow := quantizeHalfEven_mono h.step_pos hmin
  have hhigh := quantizeHalfEven_mono h.step_pos hmax
  rw [h.min_isLot.quantize h.step_pos] at hlow
  rw [h.max_isLot.quantize h.step_pos] at hhigh
  exact ⟨hlow, hhigh⟩

/-- If two decimals keep the lots, the nearest lot between the bounds is what is sent. -/
private theorem clampVolume_of_keeps (h : LotConstraints mt5) (hkeep : TwoDecimalsKeepLots mt5) (volume : ℚ) :
    clampVolume mt5 volume =
      min (max (quantizeHalfEven mt5.volumeStep volume) mt5.minVolume) mt5.maxVolume := by
  rcases hkeep with heq | ⟨hmin, hmax, hlots⟩
  · rw [clampVolume_def, heq, min_eq_right (le_max_right _ _), min_eq_right (le_max_right _ _)]
  · rcases le_or_gt (quantizeHalfEven mt5.volumeStep volume) mt5.minVolume with hlow | hlow
    · have hshown := (quantizeHalfEven_mono hundredth_pos hlow).trans hmin
      rw [clampVolume_eq_min h.min_le_max hshown, max_eq_right hlow, min_eq_left h.min_le_max]
    · rcases le_or_gt mt5.maxVolume (quantizeHalfEven mt5.volumeStep volume) with hhigh | hhigh
      · have hshown := hmax.trans (quantizeHalfEven_mono hundredth_pos hhigh)
        rw [clampVolume_eq_max hshown, min_eq_right (hhigh.trans (le_max_left _ _))]
      · rw [clampVolume_def, hlots _ (isLot_nearest volume) hlow hhigh]

private theorem obeysLotRules_of_keeps (h : LotConstraints mt5) (hkeep : TwoDecimalsKeepLots mt5) (volume : ℚ) :
    ObeysLotRules mt5 volume where
  isLot := by
    rw [clampVolume_of_keeps h hkeep]
    rcases min_choice (max (quantizeHalfEven mt5.volumeStep volume) mt5.minVolume) mt5.maxVolume with heq | heq
    · rw [heq]
      rcases max_choice (quantizeHalfEven mt5.volumeStep volume) mt5.minVolume with heq' | heq'
      · rw [heq']
        exact isLot_nearest volume
      · rw [heq']
        exact h.min_isLot
    · rw [heq]
      exact h.max_isLot
  min_le := min_le_clampVolume h.min_le_max volume
  le_max := clampVolume_le_max volume
  near := by
    intro hmin hmax
    obtain ⟨hlow, hhigh⟩ := nearest_mem h hmin hmax
    rw [clampVolume_of_keeps h hkeep, max_eq_left hlow, min_eq_left hhigh]
    exact abs_quantizeHalfEven_sub_le h.step_pos volume

/-- A lot between the bounds that is requested and served by the rules is sent unchanged. -/
private theorem ObeysLotRules.clampVolume_eq (h : LotConstraints mt5) {lot : ℚ} (hlot : IsLot mt5 lot)
    (hmin : mt5.minVolume ≤ lot) (hmax : lot ≤ mt5.maxVolume) (hobeys : ObeysLotRules mt5 lot) :
    min (max (quantizeHalfEven (1 / 100) lot) mt5.minVolume) mt5.maxVolume = lot := by
  have hsent := hobeys.isLot.eq_of_near h.step_pos hlot (hobeys.near hmin hmax)
  rwa [clampVolume_def, hlot.quantize h.step_pos] at hsent

private theorem keeps_of_obeysLotRules (h : LotConstraints mt5)
    (hobeys : ∀ volume, 0 ≤ volume → ObeysLotRules mt5 volume) : TwoDecimalsKeepLots mt5 := by
  have hsent : ∀ lot, IsLot mt5 lot → mt5.minVolume ≤ lot → lot ≤ mt5.maxVolume →
      min (max (quantizeHalfEven (1 / 100) lot) mt5.minVolume) mt5.maxVolume = lot := fun lot hlot hmin hmax =>
    (hobeys lot (h.min_pos.le.trans hmin)).clampVolume_eq h hlot hmin hmax
  rcases h.min_le_max.eq_or_lt with heq | hlt
  · exact .inl heq
  · refine .inr ⟨?_, ?_, fun lot hlot hmin hmax => ?_⟩
    · have hmin := hsent _ h.min_isLot le_rfl h.min_le_max
      rw [min_eq_iff] at hmin
      rcases hmin with ⟨hmin, -⟩ | ⟨hmax, -⟩
      · exact max_eq_right_iff.1 hmin
      · exact absurd hmax hlt.ne'
    · have hmax := hsent _ h.max_isLot h.min_le_max le_rfl
      rw [min_eq_right_iff, le_max_iff] at hmax
      exact hmax.resolve_right (not_le.2 hlt)
    · have hkept := hsent lot hlot hmin.le hmax.le
      rw [min_eq_iff] at hkept
      rcases hkept with ⟨hkept, -⟩ | ⟨hkept, -⟩
      · rw [max_eq_iff] at hkept
        rcases hkept with ⟨hkept, -⟩ | ⟨hkept, -⟩
        · exact hkept
        · exact absurd hkept hmin.ne
      · exact absurd hkept hmax.ne'

end Clamp

/-- Every request is served by the lot rules exactly if two decimals keep the lots. -/
theorem lot_rules_iff (mt5 : MT5Settings) (h : LotConstraints mt5) :
    (∀ volume, 0 ≤ volume → ObeysLotRules mt5 volume) ↔ TwoDecimalsKeepLots mt5 :=
  ⟨keeps_of_obeysLotRules h, fun hkeep volume _ => obeysLotRules_of_keeps h hkeep volume⟩

/-- A step of whole hundredths is enough. -/
theorem twoDecimalsKeepLots_of_hundredths {mt5 : MT5Settings} (h : LotConstraints mt5) {k : ℤ}
    (hstep : mt5.volumeStep = k * (1 / 100)) : TwoDecimalsKeepLots mt5 := by
  have hkept : ∀ lot, IsLot mt5 lot → quantizeHalfEven (1 / 100) lot = lot := by
    rintro lot ⟨n, rfl⟩
    rw [hstep, ← mul_assoc, ← Int.cast_mul]
    exact quantizeHalfEven_intCast_mul (by norm_num) _
  exact .inr ⟨(hkept _ h.min_isLot).le, (hkept _ h.max_isLot).ge, fun lot hlot _ _ => hkept lot hlot⟩

theorem lotConstraints_default : LotConstraints defaultSettings.mt5 where
  step_pos := by norm_num [defaultSettings]
  min_pos := by norm_num [defaultSettings]
  min_le_max := by norm_num [defaultSettings]
  min_isLot := ⟨1, by norm_num [defaultSettings]⟩
  max_isLot := ⟨1000, by norm_num [defaultSettings]⟩

theorem lot_rules_default :
    LotConstraints defaultSettings.mt5 ∧ ∀ volume, 0 ≤ volume → ObeysLotRules defaultSettings.mt5 volume :=
  ⟨lotConstraints_default, (lot_rules_iff _ lotConstraints_default).2
    (twoDecimalsKeepLots_of_hundredths lotConstraints_default (k := 1) (by norm_num [defaultSettings]))⟩

/-- Lots of a thousandth. -/
def milliLots : MT5Settings :=
  { defaultSettings.mt5 with minVolume := 1 / 1000, maxVolume := 1, volumeStep := 1 / 1000 }

/-- A request of sixteen thousandths, which is a lot, is sent as two hundredths. -/
theorem milliLots_not_obeyed : LotConstraints milliLots ∧ clampVolume milliLots (16 / 1000) = 20 / 1000 ∧
    ¬ObeysLotRules milliLots (16 / 1000) := by
  have hsent : clampVolume milliLots (16 / 1000) = 20 / 1000 := by decide +kernel
  refine ⟨⟨by norm_num [milliLots], by norm_num [milliLots], by norm_num [milliLots], ⟨1, by norm_num [milliLots]⟩,
    ⟨1000, by norm_num [milliLots]⟩⟩, hsent, fun h => ?_⟩
  have hnear := h.near (by norm_num [milliLots]) (by norm_num [milliLots])
  rw [hsent] at hnear
  norm_num [milliLots, abs_of_pos] at hnear

end MultiAgentTrading.Mt5
