import MultiAgentTrading.Backtest.Engine
import MultiAgentTrading.Lib.Calendar
import MultiAgentTrading.Risk.DrawdownMonitor
import Mathlib.Tactic.FieldSimp

/-!
# Monthly returns

Each month's return is taken from its first bar to its last, so the months leave out the moves from the last bar of a
month to the first of the next: with these (`boundaryMoves`) they compound to the growth of the curve.  The proof adds
one bar at a time (`Grouped`): it belongs to the month of the bar before, or begins a new one.
-/

namespace MultiAgentTrading

namespace Metrics

open Calendar (Month)

/-- The key `strftime("%Y-%m")`, as the two numbers it is made of. -/
def monthKey (p : EquityPoint) : Month := Calendar.month (utcDate p.timestamp)

def byMonth (curve : List EquityPoint) : Dict Month (List EquityPoint) :=
  curve.foldl (fun d p => d.set (monthKey p) ((d.get? (monthKey p)).getD [] ++ [p])) .empty

/-- The return from the first bar to the last; no month is without a bar. -/
def returnOf (pts : List EquityPoint) : ℚ :=
  match pts.head?, pts.getLast? with
  | some start, some stop => if 0 < start.equity then (stop.equity - start.equity) / start.equity else 0
  | _, _ => 0

def monthlyReturns (curve : List EquityPoint) : Dict Month ℚ :=
  .ofList (((byMonth curve).entries.insertionSort fun p q => p.1 ≤ q.1).map fun p => (p.1, returnOf p.2))

/-- The moves from a bar to the next one where the month changes. -/
def boundaryMoves : List EquityPoint → ℚ
  | p :: q :: rest => (if monthKey p = monthKey q then 1 else q.equity / p.equity) * boundaryMoves (q :: rest)
  | _ => 1

/-- The product of what the months multiply the equity by. -/
def compounded (returns : Dict Month ℚ) : ℚ := returns.prod fun r => 1 + r

/-! ### One more bar -/

private theorem byMonth_single (p : EquityPoint) : byMonth [p] = Dict.empty.set (monthKey p) [p] := rfl

private theorem byMonth_concat (walked : List EquityPoint) (p : EquityPoint) : byMonth (walked ++ [p]) =
    (byMonth walked).set (monthKey p) (((byMonth walked).get? (monthKey p)).getD [] ++ [p]) := by
  rw [byMonth, List.foldl_append]
  rfl

private theorem boundaryMoves_concat (walked : List EquityPoint) (q p : EquityPoint) :
    boundaryMoves (walked ++ [q] ++ [p]) =
      boundaryMoves (walked ++ [q]) * if monthKey q = monthKey p then 1 else p.equity / q.equity := by
  induction walked with
  | nil => exact mul_comm _ _
  | cons a walked ih =>
    cases walked with
    | nil =>
      show _ * boundaryMoves ([] ++ [q] ++ [p]) = _ * boundaryMoves ([] ++ [q]) * _
      rw [ih, mul_assoc]
    | cons b walked =>
      show _ * boundaryMoves (b :: walked ++ [q] ++ [p]) = _ * boundaryMoves (b :: walked ++ [q]) * _
      rw [ih, mul_assoc]

/-- A month that begins with positive equity multiplies it by the ratio of its ends. -/
private theorem one_add_returnOf {pts : List EquityPoint} {start stop : EquityPoint} (hstart : pts.head? = some start)
    (hstop : pts.getLast? = some stop) (hpos : 0 < start.equity) :
    1 + returnOf pts = stop.equity / start.equity := by
  unfold returnOf
  rw [hstart, hstop]
  dsimp only
  rw [if_pos hpos, sub_div, div_self hpos.ne', add_sub_cancel]

private theorem one_add_returnOf_single {p : EquityPoint} (hpos : 0 < p.equity) : 1 + returnOf [p] = 1 := by
  have hstop : [p].getLast? = some p := rfl
  rw [one_add_returnOf rfl hstop hpos, div_self hpos.ne']

/-- What the groups are after the bars `walked`, the last of which is `last`. -/
structure Grouped (first : EquityPoint) (walked : List EquityPoint) (last : EquityPoint) : Prop where
  keys_le : ∀ k ∈ (byMonth walked).keys, k ≤ monthKey last
  group : ∃ pts start, (byMonth walked).get? (monthKey last) = some pts ∧ pts.head? = some start ∧
    pts.getLast? = some last ∧ 0 < start.equity
  growth : ((byMonth walked).prod fun pts => 1 + returnOf pts) * boundaryMoves walked = last.equity / first.equity

theorem Grouped.first {p : EquityPoint} (hpos : 0 < p.equity) : Grouped p [p] p where
  keys_le k hk := by
    rw [byMonth_single] at hk
    rcases Dict.mem_keys_set.1 hk with rfl | hk
    · exact le_rfl
    · cases hk
  group := ⟨[p], p, by rw [byMonth_single, Dict.get?_set_self], rfl, rfl, hpos⟩
  growth := by
    have hprod := Dict.prod_set_of_none (Dict.get?_empty (monthKey p)) (fun pts => 1 + returnOf pts) [p]
    rw [byMonth_single, hprod, Dict.prod_empty, one_add_returnOf_single hpos, div_self hpos.ne', one_mul, one_mul]
    rfl

/-- A bar no earlier than the last one. -/
theorem Grouped.concat {first last p : EquityPoint} {walked : List EquityPoint}
    (h : Grouped first (walked ++ [last]) last) (hlast : 0 < last.equity) (hpos : 0 < p.equity)
    (hle : last.timestamp ≤ p.timestamp) : Grouped first (walked ++ [last] ++ [p]) p := by
  have hday : utcDate last.timestamp ≤ utcDate p.timestamp := utcDate_mono hle
  have hmonth : monthKey last ≤ monthKey p := Calendar.month_mono hday
  have hkeys : ∀ k ∈ (byMonth (walked ++ [last] ++ [p])).keys, k ≤ monthKey p := by
    intro k hk
    rw [byMonth_concat] at hk
    rcases Dict.mem_keys_set.1 hk with rfl | hk
    · exact le_rfl
    · exact (h.keys_le k hk).trans hmonth
  by_cases hsame : monthKey last = monthKey p
  · obtain ⟨pts, start, hget, hstart, hstop, hstartpos⟩ := h.group
    have hstart' : (pts ++ [p]).head? = some start := by rw [List.head?_append, hstart, Option.some_or]
    have hstop' : (pts ++ [p]).getLast? = some p := List.getLast?_concat
    have hfactor : 1 + returnOf (pts ++ [p]) = (1 + returnOf pts) * (p.equity / last.equity) := by
      rw [one_add_returnOf hstart hstop hstartpos, one_add_returnOf hstart' hstop' hstartpos]
      field_simp
    rw [hsame] at hget
    refine ⟨hkeys, ⟨pts ++ [p], start, ?_, hstart', hstop', hstartpos⟩, ?_⟩
    · rw [byMonth_concat, hget]
      exact Dict.get?_set_self _ _ _
    · have hprod := Dict.prod_set_of_some (f := fun pts => 1 + returnOf pts) hget hfactor
      rw [byMonth_concat, hget, Option.getD_some, hprod, boundaryMoves_concat, if_pos hsame, mul_one,
        mul_right_comm, h.growth]
      field_simp
  · have hnew : (byMonth (walked ++ [last])).get? (monthKey p) = none := by
      rw [Dict.get?_eq_none_iff]
      intro hmem
      exact hsame (hmonth.antisymm (h.keys_le _ hmem))
    refine ⟨hkeys, ⟨[p], p, ?_, rfl, rfl, hpos⟩, ?_⟩
    · rw [byMonth_concat, hnew]
      exact Dict.get?_set_self _ _ _
    · have hprod := Dict.prod_set_of_none hnew (fun pts => 1 + returnOf pts) [p]
      rw [byMonth_concat, hnew, Option.getD_none, List.nil_append, hprod, one_add_returnOf_single hpos, mul_one,
        boundaryMoves_concat, if_neg hsame, ← mul_assoc, h.growth]
      field_simp

theorem grouped {first last : EquityPoint} {curve : List EquityPoint} (hfirst : curve.head? = some first)
    (hlast : curve.getLast? = some last) (hpos : ∀ p ∈ curve, 0 < p.equity)
    (hsorted : curve.Pairwise fun p q => p.timestamp ≤ q.timestamp) : Grouped first curve last := by
  -- from the end of the curve, as the loop adds its bars
  induction curve using List.reverseRecOn generalizing last with
  | nil => cases hfirst
  | append_singleton walked p ih =>
    rw [List.getLast?_concat] at hlast
    obtain rfl := Option.some.inj hlast
    obtain ⟨hwalked, -, hle⟩ := List.pairwise_append.1 hsorted
    cases walked using List.reverseRecOn with
    | nil =>
      obtain rfl := Option.some.inj hfirst
      exact .first (hpos p List.mem_cons_self)
    | append_singleton walked q =>
      have hq : q ∈ walked ++ [q] := List.mem_append_right _ List.mem_cons_self
      have hhead : (walked ++ [q]).head? = some first := by
        rw [← hfirst, List.append_assoc, List.head?_append, List.head?_append]
        cases walked <;> rfl
      refine Grouped.concat (ih hhead List.getLast?_concat (fun r hr => hpos r (List.mem_append_left _ hr)) hwalked)
        (hpos q (List.mem_append_left _ hq)) (hpos p (List.mem_append_right _ List.mem_cons_self)) ?_
      exact hle q hq p List.mem_cons_self

/-- The table has the groups' returns, in another order. -/
private theorem compounded_monthlyReturns (curve : List EquityPoint) :
    compounded (monthlyReturns curve) = (byMonth curve).prod fun pts => 1 + returnOf pts := by
  have hperm := List.perm_insertionSort (fun p q : Month × List EquityPoint => p.1 ≤ q.1) (byMonth curve).entries
  have hkeys : (((byMonth curve).entries.insertionSort fun p q => p.1 ≤ q.1).map fun p => (p.1, returnOf p.2)).map
      Prod.fst = ((byMonth curve).entries.insertionSort fun p q => p.1 ≤ q.1).map Prod.fst := List.map_map
  have hnodup := (hperm.map Prod.fst).nodup_iff.2 (byMonth curve).nodup
  rw [← hkeys] at hnodup
  rw [compounded, monthlyReturns, Dict.prod, Dict.entries_ofList hnodup, List.map_map]
  exact (hperm.map _).prod_eq

/-- The months and the moves between them compound to the growth of the curve, and the months alone exactly if the
moves between them compound to none. -/
theorem monthlyReturns_compound {first last : EquityPoint} {curve : List EquityPoint}
    (hfirst : curve.head? = some first) (hlast : curve.getLast? = some last) (hpos : ∀ p ∈ curve, 0 < p.equity)
    (hsorted : curve.Pairwise fun p q => p.timestamp ≤ q.timestamp) :
    compounded (monthlyReturns curve) * boundaryMoves curve = last.equity / first.equity ∧
      (compounded (monthlyReturns curve) = last.equity / first.equity ↔ boundaryMoves curve = 1) := by
  have hgrowth : compounded (monthlyReturns curve) * boundaryMoves curve = last.equity / first.equity := by
    rw [compounded_monthlyReturns]
    exact (grouped hfirst hlast hpos hsorted).growth
  have hratio : last.equity / first.equity ≠ 0 :=
    (div_pos (hpos last (List.mem_of_getLast? hlast)) (hpos first (List.mem_of_head? hfirst))).ne'
  refine ⟨hgrowth, fun hmonths => ?_, fun hmoves => ?_⟩
  · rw [hmonths] at hgrowth
    exact (mul_eq_left₀ hratio).1 hgrowth
  · rw [hmoves, mul_one] at hgrowth
    exact hgrowth

/-- From the first of January 2024 at midnight, two bars in January and two in February. -/
def twoMonths : List EquityPoint :=
  [⟨1704067200, 100, true⟩, ⟨1706659200, 110, true⟩, ⟨1706745600, 121, true⟩, ⟨1709164800, 242, true⟩]

theorem monthlyReturns_compound_twoMonths :
    compounded (monthlyReturns twoMonths) * boundaryMoves twoMonths = 242 / 100 ∧
      boundaryMoves twoMonths = 11 / 10 := by
  have hfirst : twoMonths.head? = some ⟨1704067200, 100, true⟩ := rfl
  have hlast : twoMonths.getLast? = some ⟨1709164800, 242, true⟩ := rfl
  exact ⟨(monthlyReturns_compound hfirst hlast (by decide +kernel) (by decide +kernel)).1, by decide +kernel⟩

/-- The rise at the turn of the month is in no month's return. -/
theorem monthlyReturns_twoMonths_ne :
    (monthlyReturns twoMonths).entries = [(toLex (2024, 1), 1 / 10), (toLex (2024, 2), 1)] ∧
      ¬∀ (first last : EquityPoint) (curve : List EquityPoint), curve.head? = some first → curve.getLast? = some last →
        (∀ p ∈ curve, 0 < p.equity) → (curve.Pairwise fun p q => p.timestamp ≤ q.timestamp) →
          compounded (monthlyReturns curve) = last.equity / first.equity := by
  refine ⟨by decide +kernel, fun hall => ?_⟩
  have hlast : twoMonths.getLast? = some ⟨1709164800, 242, true⟩ := rfl
  have hgrowth := hall ⟨1704067200, 100, true⟩ _ twoMonths rfl hlast (by decide +kernel) (by decide +kernel)
  revert hgrowth
  decide +kernel

end Metrics

end MultiAgentTrading
