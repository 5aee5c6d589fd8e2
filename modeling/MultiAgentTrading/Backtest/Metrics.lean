import MultiAgentTrading.Lib.Stretch
import Mathlib.Algebra.Order.Field.Basic
import Mathlib.Algebra.Order.Ring.Rat
import Mathlib.Data.List.Basic
import Mathlib.Tactic.Ring

/-!
# Drawdown of an equity curve

`max_drawdown` walks the curve once, with the peak so far and two counters.  `Scanned` is what the variables of the
loop say of the bars walked; `maxDrawdown_spec` is the quadratic reading of the result: the largest relative drop from
a bar to a later one, and the longest stretch of bars under water.
-/

namespace MultiAgentTrading

namespace Metrics

/-- The variables of the loop of `max_drawdown`. -/
structure DrawdownScan where
  peak : ℚ
  maxDd : ℚ := 0
  curLen : ℕ := 0
  maxLen : ℕ := 0

/-- The body of the loop. -/
def DrawdownScan.next (s : DrawdownScan) (v : ℚ) : DrawdownScan :=
  if s.peak ≤ v then { s with peak := v, curLen := 0 }
  else
    let curLen := s.curLen + 1
    let dd := if 0 < s.peak then (s.peak - v) / s.peak else 0
    { s with curLen := curLen, maxLen := max s.maxLen curLen, maxDd := max s.maxDd dd }

/-- `max_drawdown`: the fraction, and the longest drawdown in bars. -/
def maxDrawdown : List ℚ → ℚ × ℕ
  | [] => (0, 0)
  | e :: es =>
    let s := (e :: es).foldl DrawdownScan.next { peak := e }
    (s.maxDd, s.maxLen)

/-- The relative drop from one equity to another; a rise is no drop. -/
def drop (before after : ℚ) : ℚ := max 0 ((before - after) / before)

/-- The drops from a bar of positive equity to itself or a later one. -/
def drops (equity : List ℚ) : Set ℚ :=
  {d | ∃ (i j : ℕ) (before after : ℚ), i ≤ j ∧ equity[i]? = some before ∧ equity[j]? = some after ∧ 0 < before ∧
    d = drop before after}

/-- The bar is strictly below the maximum of the bars up to it. -/
def UnderWater (equity : List ℚ) (i : ℕ) : Prop :=
  ∃ e top, equity[i]? = some e ∧ (equity.take (i + 1)).max? = some top ∧ e < top

private theorem drop_self (e : ℚ) : drop e e = 0 := by rw [drop, sub_self, zero_div, max_self]

private theorem drop_of_le {before after : ℚ} (hpos : 0 < before) (h : before ≤ after) : drop before after = 0 :=
  max_eq_left (div_nonpos_of_nonpos_of_nonneg (sub_nonpos.2 h) hpos.le)

/-- Measured from a higher equity the drop to a nonnegative one is larger. -/
private theorem drop_mono {before peak after : ℚ} (hpos : 0 < before) (hle : before ≤ peak) (hafter : 0 ≤ after) :
    drop before after ≤ drop peak after := by
  have hpeak : 0 < peak := hpos.trans_le hle
  have hratio : after / peak ≤ after / before := div_le_div_of_nonneg_left hafter hpos hle
  refine max_le_max_left 0 ?_
  rw [sub_div, sub_div, div_self hpos.ne', div_self hpeak.ne']
  exact sub_le_sub_left hratio 1

private theorem next_of_le {s : DrawdownScan} {v : ℚ} (h : s.peak ≤ v) :
    s.next v = { s with peak := v, curLen := 0 } := if_pos h

private theorem next_of_lt {s : DrawdownScan} {v : ℚ} (hpos : 0 < s.peak) (h : v < s.peak) :
    s.next v = { s with
      maxDd := max s.maxDd (drop s.peak v), curLen := s.curLen + 1, maxLen := max s.maxLen (s.curLen + 1) } := by
  have hdrop : drop s.peak v = (s.peak - v) / s.peak := max_eq_right (div_nonneg (sub_nonneg.2 h.le) hpos.le)
  unfold DrawdownScan.next
  rw [if_neg h.not_ge, hdrop, if_pos hpos]

private theorem getElem?_concat {α : Type} {l : List α} {v x : α} {i : ℕ} :
    (l ++ [v])[i]? = some x ↔ l[i]? = some x ∨ i = l.length ∧ x = v := by
  rcases lt_trichotomy i l.length with hi | rfl | hi
  · rw [List.getElem?_append_left hi]
    exact ⟨Or.inl, fun h => h.resolve_right fun h => hi.ne h.1⟩
  · rw [List.getElem?_concat_length, List.getElem?_eq_none le_rfl]
    constructor
    · rintro ⟨⟩
      exact .inr ⟨rfl, rfl⟩
    · rintro (h | ⟨-, rfl⟩)
      · cases h
      · rfl
  · rw [List.getElem?_eq_none (by rw [List.length_append, List.length_singleton]; omega),
      List.getElem?_eq_none hi.le]
    constructor
    · rintro ⟨⟩
    · rintro (h | ⟨rfl, -⟩)
      · cases h
      · omega

/-- The drops of a curve with one more bar: those before, and those to the new bar. -/
private theorem mem_drops_concat {equity : List ℚ} {v d : ℚ} :
    d ∈ drops (equity ++ [v]) ↔ d ∈ drops equity ∨ (∃ e ∈ equity, 0 < e ∧ d = drop e v) ∨ 0 < v ∧ d = drop v v := by
  constructor
  · rintro ⟨i, j, before, after, hij, hi, hj, hpos, rfl⟩
    rcases getElem?_concat.1 hj with hj | ⟨rfl, rfl⟩
    · have hlt := (List.getElem?_eq_some_iff.1 hj).1
      rcases getElem?_concat.1 hi with hi | ⟨rfl, -⟩
      · exact .inl ⟨i, j, before, after, hij, hi, hj, hpos, rfl⟩
      · omega
    · rcases getElem?_concat.1 hi with hi | ⟨-, rfl⟩
      · exact .inr (.inl ⟨before, List.mem_of_getElem? hi, hpos, rfl⟩)
      · exact .inr (.inr ⟨hpos, rfl⟩)
  · rintro (⟨i, j, before, after, hij, hi, hj, hpos, rfl⟩ | ⟨e, he, hpos, rfl⟩ | ⟨hpos, rfl⟩)
    · exact ⟨i, j, before, after, hij, getElem?_concat.2 (.inl hi), getElem?_concat.2 (.inl hj), hpos, rfl⟩
    · obtain ⟨i, hi⟩ := List.mem_iff_getElem?.1 he
      have hlt := (List.getElem?_eq_some_iff.1 hi).1
      exact ⟨i, equity.length, e, v, hlt.le, getElem?_concat.2 (.inl hi), getElem?_concat.2 (.inr ⟨rfl, rfl⟩), hpos,
        rfl⟩
    · exact ⟨equity.length, equity.length, v, v, le_rfl, getElem?_concat.2 (.inr ⟨rfl, rfl⟩),
        getElem?_concat.2 (.inr ⟨rfl, rfl⟩), hpos, rfl⟩

/-- What the loop knows after the bars `walked`. -/
structure Scanned (walked : List ℚ) (s : DrawdownScan) : Prop where
  peak : walked.max? = some s.peak
  peak_pos : 0 < s.peak
  drawdown : IsGreatest (drops walked) s.maxDd
  lengths : StretchCount (UnderWater walked) walked.length s.curLen s.maxLen

namespace Scanned

private theorem max?_concat (l : List ℚ) (v : ℚ) {top : ℚ} (h : l.max? = some top) :
    (l ++ [v]).max? = some (max top v) := by
  cases l with
  | nil => cases h
  | cons e es =>
    rw [List.max?_cons'] at h
    cases h
    rw [List.cons_append, List.max?_cons', List.foldl_append]
    rfl

private theorem le_of_max? {l : List ℚ} {top e : ℚ} (h : l.max? = some top) (he : e ∈ l) : e ≤ top :=
  (List.max?_eq_some_iff.1 h).2 e he

private theorem underWater_concat_of_lt {walked : List ℚ} {v : ℚ} {i : ℕ} (hi : i < walked.length) :
    UnderWater (walked ++ [v]) i ↔ UnderWater walked i := by
  unfold UnderWater
  rw [List.getElem?_append_left hi, List.take_append_of_le_length hi]

private theorem underWater_last {walked : List ℚ} {v top : ℚ} (h : walked.max? = some top) :
    UnderWater (walked ++ [v]) walked.length ↔ v < top := by
  unfold UnderWater
  rw [List.getElem?_concat_length, List.take_of_length_le (by rw [List.length_append, List.length_singleton]),
    max?_concat walked v h]
  constructor
  · rintro ⟨e, top', he, htop, hlt⟩
    cases he
    cases htop
    exact (lt_max_iff.1 hlt).resolve_right (lt_irrefl v)
  · intro hlt
    exact ⟨v, max top v, rfl, rfl, lt_max_of_lt_left hlt⟩

/-- The first bar is its own peak. -/
theorem first {e : ℚ} (he : 0 < e) : Scanned [e] (DrawdownScan.next { peak := e } e) := by
  rw [next_of_le le_rfl]
  have hnil : StretchCount (UnderWater [e]) 0 0 0 := .zero
  refine ⟨rfl, he, ⟨⟨0, 0, e, e, le_rfl, rfl, rfl, he, (drop_self e).symm⟩, ?_⟩, hnil.reset ?_⟩
  · intro d hd
    have hd' : d ∈ drops ([] ++ [e]) := hd
    rcases mem_drops_concat.1 hd' with ⟨i, j, before, after, -, hi, -⟩ | ⟨e', he', -⟩ | ⟨-, rfl⟩
    · cases hi
    · cases he'
    · exact (drop_self e).le
  · rintro ⟨v, top, hv, htop, hlt⟩
    cases hv
    cases htop
    exact lt_irrefl _ hlt

/-- The loop body keeps what the variables say. -/
theorem step {walked : List ℚ} {s : DrawdownScan} (h : Scanned walked s) {v : ℚ} (hv : 0 ≤ v) :
    Scanned (walked ++ [v]) (s.next v) := by
  have hlengths : StretchCount (UnderWater (walked ++ [v])) walked.length s.curLen s.maxLen :=
    h.lengths.congr fun i hi => underWater_concat_of_lt hi
  have hlast := underWater_last (v := v) h.peak
  have hlength : (walked ++ [v]).length = walked.length + 1 := by rw [List.length_append, List.length_singleton]
  have hmaxDd : 0 ≤ s.maxDd := by
    obtain ⟨-, -, before, after, -, -, -, -, hd⟩ := h.drawdown.1
    exact hd ▸ le_max_left _ _
  by_cases hle : s.peak ≤ v
  · -- a tie is a new peak too
    rw [next_of_le hle]
    refine ⟨(max?_concat walked v h.peak).trans (congrArg some (max_eq_right hle)), h.peak_pos.trans_le hle,
      ⟨mem_drops_concat.2 (.inl h.drawdown.1), ?_⟩, ?_⟩
    · intro d hd
      rcases mem_drops_concat.1 hd with hd | ⟨e, he, hpos, rfl⟩ | ⟨-, rfl⟩
      · exact h.drawdown.2 hd
      · rw [drop_of_le hpos ((le_of_max? h.peak he).trans hle)]
        exact hmaxDd
      · rw [drop_self]
        exact hmaxDd
    · rw [hlength]
      exact hlengths.reset fun hunder => absurd (hlast.1 hunder) hle.not_gt
  · have hbelow := lt_of_not_ge hle
    have hmem : s.peak ∈ walked := (List.max?_eq_some_iff.1 h.peak).1
    rw [next_of_lt h.peak_pos hbelow]
    refine ⟨(max?_concat walked v h.peak).trans (congrArg some (max_eq_left hbelow.le)), h.peak_pos, ⟨?_, ?_⟩, ?_⟩
    · rcases le_total s.maxDd (drop s.peak v) with hle | hle
      · dsimp only
        rw [max_eq_right hle]
        exact mem_drops_concat.2 (.inr (.inl ⟨s.peak, hmem, h.peak_pos, rfl⟩))
      · dsimp only
        rw [max_eq_left hle]
        exact mem_drops_concat.2 (.inl h.drawdown.1)
    · intro d hd
      rcases mem_drops_concat.1 hd with hd | ⟨e, he, hpos, rfl⟩ | ⟨-, rfl⟩
      · exact (h.drawdown.2 hd).trans (le_max_left _ _)
      · exact (drop_mono hpos (le_of_max? h.peak he) hv).trans (le_max_right _ _)
      · rw [drop_self]
        exact hmaxDd.trans (le_max_left _ _)
    · rw [hlength]
      exact hlengths.mark (hlast.2 hbelow)

theorem walk {walked : List ℚ} {s : DrawdownScan} (h : Scanned walked s) {rest : List ℚ} (hrest : ∀ v ∈ rest, 0 ≤ v) :
    Scanned (walked ++ rest) (rest.foldl DrawdownScan.next s) := by
  induction rest generalizing walked s with
  | nil => rwa [List.append_nil]
  | cons v rest ih =>
    have hnext := h.step (hrest v List.mem_cons_self)
    have hwalk := ih hnext fun v hv => hrest v (List.mem_cons_of_mem _ hv)
    rwa [List.append_assoc, List.singleton_append] at hwalk

end Scanned

/-- The fraction is the largest relative drop over all pairs of bars, and the length that of the longest stretch of
bars under water. -/
theorem maxDrawdown_spec (equity : List ℚ) (hnonneg : ∀ e ∈ equity, 0 ≤ e) (hhead : ∃ e ∈ equity.head?, 0 < e) :
    IsGreatest (drops equity) (maxDrawdown equity).1 ∧
      IsGreatest {k | HasStretch (UnderWater equity) equity.length k} (maxDrawdown equity).2 := by
  cases equity with
  | nil =>
    obtain ⟨e, he, -⟩ := hhead
    cases he
  | cons e es =>
    obtain ⟨_, he, hpos⟩ := hhead
    cases he
    have hscan := (Scanned.first hpos).walk fun v hv => hnonneg v (List.mem_cons_of_mem e hv)
    exact ⟨hscan.drawdown, hscan.lengths.longest⟩

/-- A fall from 100 to 50, a partial recovery and a new peak. -/
theorem maxDrawdown_spec_three_quarters :
    IsGreatest (drops [100, 50, 75, 100, 25]) (maxDrawdown [100, 50, 75, 100, 25]).1 ∧
      maxDrawdown [100, 50, 75, 100, 25] = (3 / 4, 2) :=
  ⟨(maxDrawdown_spec [100, 50, 75, 100, 25] (by decide) ⟨100, rfl, by decide⟩).1, by decide +kernel⟩

end Metrics

end MultiAgentTrading
