import MultiAgentTrading.TechnicalAnalysis.FeatureEngineer
import Mathlib.Algebra.Order.BigOperators.Group.List
import Mathlib.Algebra.Order.Field.Basic
import Mathlib.Tactic.Linarith
import Mathlib.Tactic.Positivity
import Mathlib.Tactic.Ring

/-!
# Two relative strength indices

The rule-based signals use `_rsi_numpy`, the model features `_rsi`.  Both follow the same two averages of gains and
losses, from the mean of the first `period` moves on (`wilderAverages`), but they differ in three places: at the first
value, which `_rsi_numpy` leaves out; and in what stands for the index without losses, once with gains and once without.
So they agree at the end of a series exactly if it is longer than the shortest admitted one and its average loss is
positive, and that is a matter of one falling close (`rsi_implementations_agree_iff`).
-/

namespace MultiAgentTrading

section Averages

variable {F : Type} [Field F] [LinearOrder F]

/-- Gain and loss of every step. -/
def movesOf (closes : List F) : List (F × F) := List.zipWith FeatureEngineer.move closes.tail closes

/-- Both averages after some more moves. -/
def wilderAverages (period : ℕ) (averages : F × F) (moves : List (F × F)) : F × F :=
  moves.foldl (fun a m => (wilder period a.1 m.1, wilder period a.2 m.2)) averages

/-- The averages at the end of a series. -/
def finalAverages (period : ℕ) (closes : List F) : F × F :=
  let moves := movesOf closes
  wilderAverages period (mean ((moves.take period).map Prod.fst), mean ((moves.take period).map Prod.snd))
    (moves.drop period)

/-- The index that `_rsi_numpy` makes of the averages. -/
def rsiNumpyOf (avgGain avgLoss : F) : F :=
  (100 : ℚ) - (100 : ℚ) / (1 + if 0 < avgLoss then avgGain / avgLoss else (100 : ℚ))

theorem length_movesOf (closes : List F) : (movesOf closes).length = closes.length - 1 := by
  rw [movesOf, List.length_zipWith, List.length_tail, Nat.min_eq_left (Nat.sub_le _ 1)]

private theorem fromEnd_zero {α : Type} (l : List α) : fromEnd l 0 = l.getLast? := by
  rw [fromEnd, ← List.head?_eq_getElem?, List.head?_reverse]

/-! ### The last value of each -/

private theorem getLast?_rsiFrom (period : ℕ) (avgGain avgLoss : F) {moves : List (F × F)} (h : moves ≠ []) :
    (rsiFrom period avgGain avgLoss moves).getLast? =
      some (some (rsiNumpyOf (wilderAverages period (avgGain, avgLoss) moves).1
        (wilderAverages period (avgGain, avgLoss) moves).2)) := by
  induction moves generalizing avgGain avgLoss with
  | nil => exact absurd rfl h
  | cons m moves ih =>
    obtain ⟨gain, loss⟩ := m
    cases moves with
    | nil => rfl
    | cons m' moves =>
      have hlast := ih (wilder period avgGain gain) (wilder period avgLoss loss) (List.cons_ne_nil _ _)
      rw [rsiFrom, List.getLast?_cons, hlast]
      rfl

/-- `_rsi_numpy` has no value at the first index that has averages. -/
theorem fromEnd_rsiNumpy {period : ℕ} {closes : List F} (h : period + 1 ≤ closes.length) :
    fromEnd (rsiNumpy closes period) 0 =
      if period + 2 ≤ closes.length
      then some (some (rsiNumpyOf (finalAverages period closes).1 (finalAverages period closes).2))
      else some none := by
  have hgains : (List.zipWith (fun later earlier => later - earlier) closes.tail closes).map
      (fun d => if 0 < d then d else 0) = (movesOf closes).map Prod.fst := by
    rw [movesOf, List.map_zipWith, List.map_zipWith]
    rfl
  have hlosses : (List.zipWith (fun later earlier => later - earlier) closes.tail closes).map
      (fun d => if d < 0 then -d else 0) = (movesOf closes).map Prod.snd := by
    rw [movesOf, List.map_zipWith, List.map_zipWith]
    rfl
  have hmoves := length_movesOf closes
  have hzip : ((movesOf closes).map Prod.fst).zip ((movesOf closes).map Prod.snd) = movesOf closes := by
    rw [List.zip_map', List.map_id']
  have heq : rsiNumpy closes period = List.replicate (period + 1) none ++
      rsiFrom period (mean (((movesOf closes).take period).map Prod.fst))
        (mean (((movesOf closes).take period).map Prod.snd)) ((movesOf closes).drop period) := by
    unfold rsiNumpy
    dsimp only
    rw [hgains, hlosses, List.length_map, if_neg (by omega), hzip, List.map_take, List.map_take]
  rw [fromEnd_zero, heq, List.getLast?_append]
  split
  case isTrue hlong =>
    have hne : (movesOf closes).drop period ≠ [] := by
      rw [ne_eq, List.drop_eq_nil_iff]
      omega
    rw [getLast?_rsiFrom _ _ _ hne]
    rfl
  case isFalse hshort =>
    rw [List.drop_of_length_le (by omega), rsiFrom, List.getLast?_nil, Option.none_or, List.getLast?_replicate,
      if_neg (Nat.succ_ne_zero period)]

private theorem foldl_rsiStep (period : ℕ) (s : FeatureEngineer.RsiState F) {moves : List (F × F)} (h : moves ≠ []) :
    (moves.foldl (FeatureEngineer.rsiStep period) s).value =
      FeatureEngineer.rsiNext (wilderAverages period (s.avgGain, s.avgLoss) moves).1
        (wilderAverages period (s.avgGain, s.avgLoss) moves).2 := by
  induction moves generalizing s with
  | nil => exact absurd rfl h
  | cons m moves ih =>
    cases moves with
    | nil => rfl
    | cons m' moves => exact ih (FeatureEngineer.rsiStep period s m) (List.cons_ne_nil _ _)

theorem fromEnd_rsi {period : ℕ} {closes : List F} (h : period + 1 ≤ closes.length) :
    fromEnd (FeatureEngineer.rsi closes period) 0 =
      some (some (if period + 2 ≤ closes.length
        then FeatureEngineer.rsiNext (finalAverages period closes).1 (finalAverages period closes).2
        else FeatureEngineer.rsiFirst (finalAverages period closes).1 (finalAverages period closes).2)) := by
  have hmoves := length_movesOf closes
  have hlast : fromEnd (FeatureEngineer.rsi closes period) 0 = some (some
      (((movesOf closes).drop period).foldl (FeatureEngineer.rsiStep period)
        (FeatureEngineer.rsiSeed ((movesOf closes).take period))).value) := by
    unfold FeatureEngineer.rsi Causal.seeded
    rw [if_neg (by omega), fromEnd_zero]
    change ((none :: (if (movesOf closes).length < period then _ else _ :
      List (Option (FeatureEngineer.RsiState F))).map _).getLast?) = _
    rw [if_neg (by omega), List.map_append, List.map_map, ← List.cons_append, List.getLast?_append,
      List.getLast?_map, List.getLast?_scanl]
    rfl
  rw [hlast]
  congr 2
  split
  case isTrue hlong =>
    have hne : (movesOf closes).drop period ≠ [] := by
      rw [ne_eq, List.drop_eq_nil_iff]
      omega
    exact foldl_rsiStep period _ hne
  case isFalse hshort =>
    rw [finalAverages, List.drop_of_length_le (by omega)]
    rfl

end Averages

/-! ### When the average loss is positive -/

section Losses

variable {F : Type} [Field F] [LinearOrder F] [IsStrictOrderedRing F]

omit [LinearOrder F] [IsStrictOrderedRing F] in
/-- With a period of one the average is the last move. -/
private theorem wilder_one (avg x : F) : wilder 1 avg x = x := by
  rw [wilder, Nat.cast_one, sub_self, mul_zero, zero_add, div_one]

/-- A longer average forgets nothing: it is positive as soon as it, or the move, was. -/
private theorem wilder_pos_iff {period : ℕ} (h : 2 ≤ period) {avg x : F} (havg : 0 ≤ avg) (hx : 0 ≤ x) :
    0 < wilder period avg x ↔ 0 < avg ∨ 0 < x := by
  have hperiod : (0 : F) < period := by exact_mod_cast (show 0 < period by omega)
  have hfactor : (0 : F) < (period : F) - 1 := by
    rw [sub_pos]
    exact_mod_cast h
  rw [wilder, div_pos_iff_of_pos_right hperiod]
  constructor
  · intro hpos
    by_contra hnone
    obtain ⟨havg', hx'⟩ := not_or.1 hnone
    rw [le_antisymm (not_lt.1 havg') havg, le_antisymm (not_lt.1 hx') hx] at hpos
    simp at hpos
  · rintro (hpos | hpos)
    · positivity
    · positivity

private theorem wilder_nonneg {period : ℕ} (h : 1 ≤ period) {avg x : F} (havg : 0 ≤ avg) (hx : 0 ≤ x) :
    0 ≤ wilder period avg x := by
  have hfactor : (0 : F) ≤ (period : F) - 1 := by
    rw [sub_nonneg]
    exact_mod_cast h
  rw [wilder]
  positivity

/-- A sum of losses is positive if one of them is. -/
private theorem sum_pos_iff {l : List F} (h : ∀ x ∈ l, 0 ≤ x) : 0 < l.sum ↔ ∃ x ∈ l, 0 < x := by
  induction l with
  | nil => simp
  | cons x l ih =>
    obtain ⟨hx, hl⟩ := List.forall_mem_cons.1 h
    have hsum : 0 ≤ l.sum := List.sum_nonneg hl
    simp only [List.sum_cons, List.mem_cons, exists_eq_or_imp, ← ih hl]
    constructor
    · intro hpos
      by_contra hnone
      obtain ⟨hx', hsum'⟩ := not_or.1 hnone
      linarith
    · rintro (hpos | hpos)
      · linarith
      · linarith

private theorem move_snd_nonneg (later earlier : F) : 0 ≤ (FeatureEngineer.move later earlier).2 := by
  show 0 ≤ if later - earlier < 0 then -(later - earlier) else 0
  split
  case isTrue h => exact (neg_pos.2 h).le
  case isFalse => exact le_rfl

private theorem move_snd_pos_iff (later earlier : F) :
    0 < (FeatureEngineer.move later earlier).2 ↔ later < earlier := by
  show (0 < if later - earlier < 0 then -(later - earlier) else 0) ↔ _
  split
  case isTrue h => exact iff_of_true (neg_pos.2 h) (sub_neg.1 h)
  case isFalse h => exact iff_of_false (lt_irrefl 0) (mt sub_neg.2 h)

private theorem nonneg_of_mem_movesOf {closes : List F} {m : F × F} (h : m ∈ movesOf closes) : 0 ≤ m.2 := by
  obtain ⟨i, hi⟩ := List.mem_iff_getElem?.1 h
  obtain ⟨later, earlier, -, -, rfl⟩ := List.getElem?_zipWith_eq_some.1 hi
  exact move_snd_nonneg later earlier

/-- Some close is below the one before it; with a period of one, the last close is. -/
def HasFallingClose (period : ℕ) (closes : List F) : Prop :=
  ∃ i earlier later, closes[i]? = some earlier ∧ closes[i + 1]? = some later ∧ later < earlier ∧
    (period = 1 → i + 2 = closes.length)

omit [IsStrictOrderedRing F] in
private theorem getElem?_movesOf {closes : List F} {i : ℕ} {m : F × F} :
    (movesOf closes)[i]? = some m ↔
      ∃ earlier later, closes[i]? = some earlier ∧ closes[i + 1]? = some later ∧
        FeatureEngineer.move later earlier = m := by
  rw [movesOf, List.getElem?_zipWith_eq_some]
  constructor
  · rintro ⟨later, earlier, hlater, hearlier, rfl⟩
    rw [List.getElem?_tail] at hlater
    exact ⟨earlier, later, hearlier, hlater, rfl⟩
  · rintro ⟨earlier, later, hearlier, hlater, rfl⟩
    exact ⟨later, earlier, by rwa [List.getElem?_tail], hearlier, rfl⟩

/-- An average over more than one move is positive if any loss of its past was. -/
private theorem wilderAverages_pos_iff {period : ℕ} (h : 2 ≤ period) {averages : F × F} (havg : 0 ≤ averages.2)
    {moves : List (F × F)} (hmoves : ∀ m ∈ moves, 0 ≤ m.2) :
    0 < (wilderAverages period averages moves).2 ↔ 0 < averages.2 ∨ ∃ m ∈ moves, 0 < m.2 := by
  induction moves generalizing averages with
  | nil => simp [wilderAverages]
  | cons m moves ih =>
    obtain ⟨hm, hrest⟩ := List.forall_mem_cons.1 hmoves
    have hstep := @ih (wilder period averages.1 m.1, wilder period averages.2 m.2)
      (wilder_nonneg (by omega) havg hm) hrest
    rw [wilderAverages, List.foldl_cons]
    rw [wilderAverages] at hstep
    rw [hstep, wilder_pos_iff h havg hm, or_assoc]
    simp only [List.mem_cons, exists_eq_or_imp]

private theorem mean_nonneg {l : List F} (h : ∀ x ∈ l, 0 ≤ x) : 0 ≤ mean l :=
  div_nonneg (List.sum_nonneg h) (Nat.cast_nonneg _)

private theorem mean_pos_iff {l : List F} (h : ∀ x ∈ l, 0 ≤ x) : 0 < mean l ↔ ∃ x ∈ l, 0 < x := by
  rcases List.eq_nil_or_concat' l with rfl | ⟨init, x, rfl⟩
  · simp [mean]
  · have hlength : (0 : F) < (init ++ [x]).length := by
      rw [List.length_append]
      exact_mod_cast Nat.succ_pos _
    rw [mean, div_pos_iff_of_pos_right hlength, sum_pos_iff h]

/-- The final average of a long period is positive if any move loses. -/
private theorem finalAverages_pos_iff_of_long {period : ℕ} (hperiod : 2 ≤ period) (closes : List F) :
    0 < (finalAverages period closes).2 ↔ ∃ m ∈ movesOf closes, 0 < m.2 := by
  have hnonneg : ∀ x ∈ ((movesOf closes).take period).map Prod.snd, 0 ≤ x := by
    intro x hx
    obtain ⟨m, hm, rfl⟩ := List.mem_map.1 hx
    exact nonneg_of_mem_movesOf (List.mem_of_mem_take hm)
  have hsplit : (∃ m ∈ movesOf closes, 0 < m.2) ↔
      (∃ x ∈ ((movesOf closes).take period).map Prod.snd, 0 < x) ∨ ∃ m ∈ (movesOf closes).drop period, 0 < m.2 := by
    conv_lhs => rw [← List.take_append_drop period (movesOf closes)]
    simp only [List.mem_append, List.mem_map, or_and_right, exists_or, exists_exists_and_eq_and]
  rw [finalAverages, hsplit, ← mean_pos_iff hnonneg]
  exact wilderAverages_pos_iff hperiod (mean_nonneg hnonneg) fun m hm => nonneg_of_mem_movesOf (List.mem_of_mem_drop hm)

omit [IsStrictOrderedRing F] in
/-- The final average over one move is that move. -/
private theorem finalAverages_one {closes : List F} {m : F × F} (h : 3 ≤ closes.length)
    (hm : (movesOf closes).getLast? = some m) : (finalAverages 1 closes).2 = m.2 := by
  obtain ⟨init, hinit⟩ := List.getLast?_eq_some_iff.1 hm
  have hlength := length_movesOf closes
  rw [hinit, List.length_append, List.length_singleton] at hlength
  rw [finalAverages, hinit, List.drop_append_of_le_length (by omega), wilderAverages, List.foldl_append]
  exact wilder_one _ _

/-- The average loss at the end of a series is positive by one falling close. -/
theorem finalAverages_pos_iff {period : ℕ} (hperiod : 1 ≤ period) {closes : List F} (h : period + 2 ≤ closes.length) :
    0 < (finalAverages period closes).2 ↔ HasFallingClose period closes := by
  rcases Nat.lt_or_ge 1 period with hlong | hone
  · rw [finalAverages_pos_iff_of_long hlong]
    constructor
    · rintro ⟨m, hm, hpos⟩
      obtain ⟨i, hi⟩ := List.mem_iff_getElem?.1 hm
      obtain ⟨earlier, later, hearlier, hlater, rfl⟩ := getElem?_movesOf.1 hi
      exact ⟨i, earlier, later, hearlier, hlater, (move_snd_pos_iff later earlier).1 hpos, fun h1 => by omega⟩
    · rintro ⟨i, earlier, later, hearlier, hlater, hfalls, -⟩
      have hi := getElem?_movesOf.2 ⟨earlier, later, hearlier, hlater, rfl⟩
      exact ⟨_, List.mem_of_getElem? hi, (move_snd_pos_iff later earlier).2 hfalls⟩
  · obtain rfl : period = 1 := le_antisymm hone hperiod
    have hlength := length_movesOf closes
    obtain ⟨m, hm⟩ : ∃ m, (movesOf closes)[closes.length - 2]? = some m :=
      ⟨_, List.getElem?_eq_getElem (by omega)⟩
    have hlast : (movesOf closes).getLast? = some m := by
      rw [List.getLast?_eq_getElem?, hlength, ← hm]
      congr 1
    rw [finalAverages_one h hlast]
    obtain ⟨earlier, later, hearlier, hlater, rfl⟩ := getElem?_movesOf.1 hm
    rw [move_snd_pos_iff]
    constructor
    · exact fun hfalls => ⟨_, earlier, later, hearlier, hlater, hfalls, fun _ => by omega⟩
    · rintro ⟨i, earlier', later', hearlier', hlater', hfalls, hi⟩
      obtain rfl : i = closes.length - 2 := by
        have := hi rfl
        omega
      rw [hearlier] at hearlier'
      rw [hlater] at hlater'
      cases hearlier'
      cases hlater'
      exact hfalls

omit [IsStrictOrderedRing F] in
private theorem move_fst_nonneg (later earlier : F) : 0 ≤ (FeatureEngineer.move later earlier).1 := by
  show 0 ≤ if 0 < later - earlier then later - earlier else 0
  split
  case isTrue h => exact h.le
  case isFalse => exact le_rfl

private theorem finalAverages_fst_nonneg {period : ℕ} (h : 1 ≤ period) (closes : List F) :
    0 ≤ (finalAverages period closes).1 := by
  have hmoves : ∀ m ∈ movesOf closes, 0 ≤ m.1 := by
    intro m hm
    obtain ⟨i, hi⟩ := List.mem_iff_getElem?.1 hm
    obtain ⟨earlier, later, -, -, rfl⟩ := getElem?_movesOf.1 hi
    exact move_fst_nonneg later earlier
  have hrun : ∀ (moves : List (F × F)) (averages : F × F), 0 ≤ averages.1 → (∀ m ∈ moves, 0 ≤ m.1) →
      0 ≤ (wilderAverages period averages moves).1 := by
    intro moves
    induction moves with
    | nil => exact fun averages havg _ => havg
    | cons m moves ih =>
      intro averages havg hms
      obtain ⟨hm, hrest⟩ := List.forall_mem_cons.1 hms
      exact ih _ (wilder_nonneg h havg hm) hrest
  refine hrun _ _ (mean_nonneg fun x hx => ?_) fun m hm => hmoves m (List.mem_of_mem_drop hm)
  obtain ⟨m, hm, rfl⟩ := List.mem_map.1 hx
  exact hmoves m (List.mem_of_mem_take hm)

/-- With losses both implementations make the same of the averages, and it is an index. -/
private theorem rsiNumpyOf_of_pos {avgGain avgLoss : F} (hgain : 0 ≤ avgGain) (hloss : 0 < avgLoss) :
    rsiNumpyOf avgGain avgLoss = FeatureEngineer.rsiNext avgGain avgLoss ∧
      0 ≤ rsiNumpyOf avgGain avgLoss ∧ rsiNumpyOf avgGain avgLoss ≤ 100 := by
  have hratio : 0 ≤ avgGain / avgLoss := div_nonneg hgain hloss.le
  have hhundred : ((100 : ℚ) : F) = 100 := by norm_num
  have hshare : 100 / (1 + avgGain / avgLoss) ≤ 100 := by
    rw [div_le_iff₀ (by linarith)]
    nlinarith
  have hshare' : 0 ≤ 100 / (1 + avgGain / avgLoss) := by positivity
  rw [rsiNumpyOf, FeatureEngineer.rsiNext, if_pos hloss, if_pos hloss, hhundred]
  exact ⟨rfl, by linarith, by linarith⟩

/-- Without losses they differ, with and without gains. -/
private theorem rsiNumpyOf_ne {avgGain avgLoss : F} (hloss : ¬0 < avgLoss) :
    rsiNumpyOf avgGain avgLoss ≠ FeatureEngineer.rsiNext avgGain avgLoss := by
  rw [rsiNumpyOf, FeatureEngineer.rsiNext, if_neg hloss, if_neg hloss]
  split <;> norm_num

end Losses

/-- The last values of both are one number, and it is an index. -/
def RsiAgrees (period : ℕ) (closes : List ℚ) : Prop :=
  ∃ value, fromEnd (rsiNumpy closes period) 0 = some (some value) ∧
    fromEnd (FeatureEngineer.rsi closes period) 0 = some (some value) ∧ 0 ≤ value ∧ value ≤ 100

/-- When the two implementations agree: the series is longer than the shortest admitted one, and there is a falling
close that the average has not forgotten. -/
theorem rsi_implementations_agree_iff (period : ℕ) (closes : List ℚ) (hperiod : 1 ≤ period)
    (hlength : period + 1 ≤ closes.length) :
    RsiAgrees period closes ↔ period + 2 ≤ closes.length ∧ HasFallingClose period closes := by
  rw [RsiAgrees, fromEnd_rsiNumpy hlength, fromEnd_rsi hlength]
  by_cases hlong : period + 2 ≤ closes.length
  case neg =>
    rw [if_neg hlong]
    refine iff_of_false ?_ fun h => hlong h.1
    rintro ⟨value, hvalue, -⟩
    cases hvalue
  case pos =>
    rw [if_pos hlong, if_pos hlong, ← finalAverages_pos_iff hperiod hlong]
    constructor
    · rintro ⟨value, hvalue, hvalue', -⟩
      refine ⟨hlong, ?_⟩
      by_contra hloss
      have heq := hvalue.trans hvalue'.symm
      simp only [Option.some.injEq] at heq
      exact rsiNumpyOf_ne hloss heq
    · rintro ⟨-, hloss⟩
      obtain ⟨heq, hmem⟩ := rsiNumpyOf_of_pos (finalAverages_fst_nonneg hperiod closes) hloss
      exact ⟨_, rfl, by rw [heq], hmem⟩

theorem rsi_implementations_agree_once :
    (1 ≤ 2 ∧ 2 + 1 ≤ [1, 2, 1, (3 : ℚ)].length) ∧ RsiAgrees 2 [1, 2, 1, 3] :=
  ⟨by decide, (rsi_implementations_agree_iff 2 [1, 2, 1, 3] (by decide) (by decide)).2
    ⟨by decide, 1, 2, 1, rfl, rfl, by decide, fun h => absurd h (by decide)⟩⟩

/-- With the default period: 15 closes give `_rsi_numpy` no value, and of 16 closes that stand still, or that only rise,
the two make different values. -/
theorem rsi_implementations_disagree :
    ¬RsiAgrees 14 (List.replicate 15 100) ∧ ¬RsiAgrees 14 (List.replicate 16 100) ∧
      ¬RsiAgrees 14 ((List.range 16).map fun i => 100 + i) := by
  refine ⟨?_, ?_, ?_⟩
  · rintro ⟨value, hvalue, -⟩
    have hnan : fromEnd (rsiNumpy (List.replicate 15 (100 : ℚ)) 14) 0 = some none := by decide +kernel
    rw [hnan] at hvalue
    cases hvalue
  · rintro ⟨value, hvalue, hvalue', -⟩
    exact absurd (hvalue.trans hvalue'.symm) (by decide +kernel)
  · rintro ⟨value, hvalue, hvalue', -⟩
    exact absurd (hvalue.trans hvalue'.symm) (by decide +kernel)

end MultiAgentTrading
