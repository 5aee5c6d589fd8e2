import MultiAgentTrading.TechnicalAnalysis.Indicators

/-!
# Training labels

The label of a bar compares its close with the close `horizon` bars later.  The last `horizon` bars have no label.
What the constructor checks is a field.
-/

namespace MultiAgentTrading

/-- The labels -1, 0 and 1. -/
inductive ForwardLabel | sell | hold | buy
  deriving DecidableEq, Repr

/-- `LABEL_TO_CLASS`. -/
def ForwardLabel.toClass : ForwardLabel → ℕ
  | .sell => 0
  | .hold => 1
  | .buy => 2

/-- The checks of the constructor that fail. -/
inductive LabelError
  | horizonTooSmall (horizon : ℤ)
  | thresholdNotPositive
  deriving DecidableEq

variable {F : Type} [Field F] [LinearOrder F]

structure LabelGenerator (F : Type) [Field F] [LinearOrder F] where
  horizon : ℤ
  threshold : F
  horizon_pos : 1 ≤ horizon
  threshold_pos : 0 < threshold

namespace LabelGenerator

def new (horizon : ℤ) (threshold : F) : Except LabelError (LabelGenerator F) :=
  if hh : horizon < 1 then .error (.horizonTooSmall horizon)
  else if ht : threshold ≤ 0 then .error .thresholdNotPositive
  else .ok ⟨horizon, threshold, not_lt.1 hh, not_le.1 ht⟩

/-- A generator that is built has the horizon and the threshold it is asked for. -/
theorem eq_of_new {horizon : ℤ} {threshold : F} {gen : LabelGenerator F} (h : new horizon threshold = .ok gen) :
    gen.horizon = horizon ∧ gen.threshold = threshold := by
  unfold new at h
  split at h
  case isTrue => cases h
  case isFalse =>
    split at h
    case isTrue => cases h
    case isFalse => cases h; exact ⟨rfl, rfl⟩

/-- The label for a pair of closes; a price that is not positive counts as no return. -/
def label (threshold present future : F) : ForwardLabel :=
  let forwardReturn := if 0 < present then (future - present) / present else 0
  if forwardReturn < -threshold then .sell else if threshold < forwardReturn then .buy else .hold

/-- The labels of a series of closes, `none` for the trailing bars. -/
def generate (gen : LabelGenerator F) (closes : List F) : List (Option ForwardLabel) :=
  let n := closes.length
  let horizon := gen.horizon.toNat
  if n ≤ horizon then List.replicate n none
  else
    let future := closes.drop horizon
    let present := closes.take (n - horizon)
    List.zipWith (fun future present => some (label gen.threshold present future)) future present ++
      List.replicate horizon none

theorem length_generate (gen : LabelGenerator F) (closes : List F) :
    (gen.generate closes).length = closes.length := by
  unfold generate
  dsimp only
  split
  case isTrue => exact List.length_replicate
  case isFalse =>
    rw [List.length_append, List.length_zipWith, List.length_drop, List.length_take, List.length_replicate]
    omega

/-- The label of a bar comes from its close and the close `horizon` bars later, if there is one. -/
theorem getElem?_generate (gen : LabelGenerator F) (closes : List F) (bar : ℕ) :
    (gen.generate closes)[bar]? = (closes[bar]?).map fun present =>
      (closes[bar + gen.horizon.toNat]?).map fun future => label gen.threshold present future := by
  rcases Nat.lt_or_ge bar closes.length with h | h
  case inr => rw [List.getElem?_eq_none h, List.getElem?_eq_none (by rw [length_generate]; exact h), Option.map_none]
  unfold generate
  dsimp only
  split
  case isTrue hshort =>
    have hnone : closes[bar + gen.horizon.toNat]? = none := List.getElem?_eq_none (by omega)
    rw [hnone, List.getElem?_replicate, if_pos h, List.getElem?_eq_getElem h]
    rfl
  case isFalse hlong =>
    have hlength : (List.zipWith (fun future present => some (label gen.threshold present future))
        (closes.drop gen.horizon.toNat) (closes.take (closes.length - gen.horizon.toNat))).length =
          closes.length - gen.horizon.toNat := by
      rw [List.length_zipWith, List.length_drop, List.length_take]
      omega
    by_cases hbar : bar + gen.horizon.toNat < closes.length
    · rw [List.getElem?_append_left (by omega), List.getElem?_zipWith, List.getElem?_drop,
        List.getElem?_take_of_lt (by omega), Nat.add_comm gen.horizon.toNat bar, List.getElem?_eq_getElem h,
        List.getElem?_eq_getElem hbar]
      rfl
    · have hnone : closes[bar + gen.horizon.toNat]? = none := List.getElem?_eq_none (by omega)
      rw [List.getElem?_append_right (by omega), hlength, List.getElem?_replicate, if_pos (by omega), hnone,
        List.getElem?_eq_getElem h]
      rfl

end LabelGenerator

end MultiAgentTrading
