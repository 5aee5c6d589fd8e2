import Mathlib.Algebra.BigOperators.Ring.List
import Mathlib.Algebra.Order.Ring.Abs
import Mathlib.Algebra.Order.Field.Basic
import Mathlib.Analysis.Real.Sqrt

/-!
# Change of unit

Lists and partial series of numbers multiplied by a constant.  A function of such lists is homogeneous if the constant
comes out of it, in front or not at all; the lemmas here are those for looking up, cutting, adding, subtracting and
dividing, from which homogeneity is put together.
-/

namespace Scaling

section Gaps

variable {α β : Type*} (f : α → β) (s : List (Option α))

theorem bind_getElem?_map (i : ℕ) : ((s.map (Option.map f))[i]?).bind id = ((s[i]?).bind id).map f := by
  rw [List.getElem?_map]
  cases s[i]? with
  | none => rfl
  | some x => rfl

/-- The gaps stay where they are. -/
theorem valid_map :
    ((List.range (s.map (Option.map f)).length).filter fun i => (((s.map (Option.map f))[i]?).bind id).isSome) =
      (List.range s.length).filter fun i => ((s[i]?).bind id).isSome := by
  rw [List.length_map]
  exact List.filter_congr fun i _ => by rw [bind_getElem?_map, Option.isSome_map]

end Gaps

variable {F : Type*} [Field F]

/-- A list in another unit. -/
def scaled (c : F) (l : List F) : List F := l.map fun x => c * x

/-- A series with gaps in another unit. -/
def scaledSeries (c : F) (s : List (Option F)) : List (Option F) := s.map (Option.map fun x => c * x)

variable (c : F) (l : List F) (s : List (Option F))

@[simp] theorem length_scaled : (scaled c l).length = l.length := List.length_map _

@[simp] theorem length_scaledSeries : (scaledSeries c s).length = s.length := List.length_map _

theorem take_scaled (n : ℕ) : (scaled c l).take n = scaled c (l.take n) := List.map_take.symm

theorem drop_scaled (n : ℕ) : (scaled c l).drop n = scaled c (l.drop n) := List.map_drop.symm

theorem tail_scaled : (scaled c l).tail = scaled c l.tail := List.map_tail.symm

theorem sum_scaled : (scaled c l).sum = c * l.sum := by
  rw [scaled, List.sum_map_mul_left, List.map_id']

theorem getD_scaled (i : ℕ) : (scaled c l).getD i 0 = c * l.getD i 0 := by
  rw [scaled, List.getD_eq_getElem?_getD, List.getD_eq_getElem?_getD, List.getElem?_map]
  cases l[i]? with
  | none => exact (mul_zero c).symm
  | some x => rfl

theorem getD_scaledSeries (i : ℕ) : (scaledSeries c s).getD i none = (s.getD i none).map fun x => c * x := by
  rw [scaledSeries, List.getD_eq_getElem?_getD, List.getD_eq_getElem?_getD, List.getElem?_map]
  cases s[i]? with
  | none => rfl
  | some x => rfl

theorem bind_getElem?_scaledSeries (i : ℕ) :
    ((scaledSeries c s)[i]?).bind id = ((s[i]?).bind id).map fun x => c * x :=
  bind_getElem?_map _ s i

theorem valid_scaledSeries :
    ((List.range (scaledSeries c s).length).filter fun i => (((scaledSeries c s)[i]?).bind id).isSome) =
      (List.range s.length).filter fun i => ((s[i]?).bind id).isSome :=
  valid_map _ s

/-- A gap that is filled with a number in the same unit. -/
theorem getD_map_mul (o : Option F) (x : F) : (o.map fun y => c * y).getD (c * x) = c * o.getD x := by
  cases o with
  | none => rfl
  | some y => rfl

theorem getD_map_mul_zero (o : Option F) : (o.map fun y => c * y).getD 0 = c * o.getD 0 := by
  rw [← getD_map_mul, mul_zero]

section Order

variable [LinearOrder F] [IsStrictOrderedRing F] {c}

theorem pos_scaled_iff (hc : 0 < c) (x : F) : 0 < c * x ↔ 0 < x := mul_pos_iff_of_pos_left hc

theorem neg_scaled_iff (hc : 0 < c) (x : F) : c * x < 0 ↔ x < 0 := by
  rw [← not_le, mul_nonneg_iff_of_pos_left hc, not_le]

theorem nonneg_scaled_iff (hc : 0 < c) (x : F) : 0 ≤ c * x ↔ 0 ≤ x := mul_nonneg_iff_of_pos_left hc

theorem nonpos_scaled_iff (hc : 0 < c) (x : F) : c * x ≤ 0 ↔ x ≤ 0 := by
  rw [← not_lt, pos_scaled_iff hc, not_lt]

theorem lt_scaled_iff (hc : 0 < c) (x y : F) : c * x < c * y ↔ x < y := mul_lt_mul_iff_right₀ hc

theorem abs_scaled (hc : 0 < c) (x : F) : |c * x| = c * |x| := by rw [abs_mul, abs_of_pos hc]

theorem max_scaled (hc : 0 < c) (x y : F) : max (c * x) (c * y) = c * max x y := (mul_max_of_nonneg x y hc.le).symm

theorem min_scaled (hc : 0 < c) (x y : F) : min (c * x) (c * y) = c * min x y := (mul_min_of_nonneg x y hc.le).symm

end Order

/-- The root of a squared unit is the unit. -/
theorem sqrt_scaled {c : ℝ} (hc : 0 < c) (x : ℝ) : √(c ^ 2 * x) = c * √x := by
  rw [Real.sqrt_mul (sq_nonneg c), Real.sqrt_sq hc.le]

end Scaling
