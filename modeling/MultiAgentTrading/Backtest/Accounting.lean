import MultiAgentTrading.Backtest.Fills
import Mathlib.Tactic.Linarith

/-!
# The books of a backtest

`closings` are the trades of a run with the bars that closed them.  `Books` is what every fill keeps of the realised
equity, the trades and the open position, and `Accounts` what every bar keeps besides of the curve; `engine_accounting`
is what they come to at the end of a run.
-/

namespace MultiAgentTrading

/-- The bar and the trade of a fill that closes a position. -/
def BarFill.closing (config : BacktestConfig) (f : BarFill) : Option (ℕ × Trade) :=
  match f.fill with
  | .entry _ _ => none
  | .exit pos price reason =>
    some (f.index, Engine.closedTrade config pos price f.candle.timestamp f.index reason)

/-- The bar at which a position was entered, given the bar that closed it and its trade. -/
def entryIndex (p : ℕ × Trade) : ℤ := p.1 - p.2.barsHeld

def totalPnl (closings : List (ℕ × Trade)) : ℚ := (closings.map fun p => p.2.pnlUsd).sum

theorem totalPnl_append (closings closings' : List (ℕ × Trade)) :
    totalPnl (closings ++ closings') = totalPnl closings + totalPnl closings' := by
  simp [totalPnl]

namespace Engine

variable {config : BacktestConfig} {decide : CandleBuffer → ℕ → Option OrderSide}

/-- The trades of a run, each with the bar that closed it. -/
def closings (candles : List OHLCVCandle) (config : BacktestConfig) (decide : CandleBuffer → ℕ → Option OrderSide) :
    List (ℕ × Trade) :=
  (rawFills candles config decide).filterMap (BarFill.closing config)

/-- The books before bar `b`: the realised equity is that of the trades closed, which follow each other in time, and an
open position was entered after them. -/
structure Books (config : BacktestConfig) (b : ℕ) (s : EngineState) (closings : List (ℕ × Trade)) : Prop where
  realized : s.realizedEquity = config.initialBalance + totalPnl closings
  trades : s.trades = closings.map Prod.snd
  exits : ∀ p ∈ closings, p.1 < b ∧ 0 ≤ entryIndex p ∧ entryIndex p ≤ p.1
  spaced : closings.Pairwise fun p q => (p.1 : ℤ) ≤ entryIndex q
  held : ∀ pos, s.position = some pos → pos.entryIndex < b ∧ ∀ p ∈ closings, p.1 ≤ pos.entryIndex

theorem Books.mono {b b' : ℕ} {s : EngineState} {closings : List (ℕ × Trade)} (h : Books config b s closings)
    (hb : b ≤ b') : Books config b' s closings :=
  ⟨h.realized, h.trades, fun p hp => ⟨(h.exits p hp).1.trans_le hb, (h.exits p hp).2⟩, h.spaced,
    fun pos hpos => ⟨(h.held pos hpos).1.trans_le hb, (h.held pos hpos).2⟩⟩

/-- Closing the position at bar `i`. -/
theorem Books.close {i : ℕ} {s : EngineState} {closings : List (ℕ × Trade)} (h : Books config (i + 1) s closings)
    {pos : EnginePosition} (hpos : s.position = some pos) (price time : ℚ) (reason : ExitReason) :
    Books config (i + 1) (close config s pos price time i reason)
      (closings ++ [(i, closedTrade config pos price time i reason)]) := by
  obtain ⟨hentry, hafter⟩ := h.held pos hpos
  have hindex : entryIndex (i, closedTrade config pos price time i reason) = pos.entryIndex := by
    show (i : ℤ) - (i - pos.entryIndex) = pos.entryIndex
    omega
  refine ⟨?_, ?_, ?_, ?_, ?_⟩
  · show s.realizedEquity + _ = _
    rw [totalPnl_append, h.realized, add_assoc]
    simp [totalPnl]
  · show s.trades ++ _ = _
    rw [h.trades, List.map_append]
    rfl
  · intro p hp
    rcases List.mem_append.1 hp with hp | hp
    · exact h.exits p hp
    · rw [List.mem_singleton.1 hp, hindex]
      exact ⟨Nat.lt_succ_self i, by omega, by show (pos.entryIndex : ℤ) ≤ i; omega⟩
  · rw [List.pairwise_append]
    refine ⟨h.spaced, List.pairwise_singleton _ _, fun p hp q hq => ?_⟩
    rw [List.mem_singleton.1 hq, hindex]
    exact_mod_cast hafter p hp
  · intro pos' hpos'
    cases hpos'

/-- A fill at bar `i` that is valid there. -/
theorem Books.foldl {i : ℕ} {c : OHLCVCandle} {s : EngineState} {closings : List (ℕ × Trade)}
    (h : Books config (i + 1) s closings) {fills : List RawFill} (hvalid : Valid config i c s fills) :
    Books config (i + 1) (fills.foldl (fill config i c) s)
      (closings ++ (fills.map fun f => BarFill.mk i c f).filterMap (BarFill.closing config)) := by
  induction fills generalizing s closings with
  | nil => simpa using h
  | cons f fills ih =>
    cases f with
    | entry side price =>
      obtain ⟨-, hrest⟩ := hvalid
      have hopened : Books config (i + 1) (fill config i c s (.entry side price)) closings := by
        refine ⟨h.realized, h.trades, h.exits, h.spaced, ?_⟩
        intro pos hpos
        rw [← Option.some.inj hpos]
        exact ⟨Nat.lt_succ_self i, fun p hp => Nat.lt_succ_iff.1 (h.exits p hp).1⟩
      exact ih hopened hrest
    | exit pos price reason =>
      obtain ⟨hpos, hrest⟩ := hvalid
      have hclosed := ih (h.close hpos price c.timestamp reason) hrest
      rwa [List.append_assoc] at hclosed

/-- The closings of one bar. -/
def barClosings (config : BacktestConfig) (s : EngineState) (i : ℕ) (c : OHLCVCandle) : List (ℕ × Trade) :=
  ((barFills config s i c).map fun f => BarFill.mk i c f).filterMap (BarFill.closing config)

theorem index_of_mem_barClosings {s : EngineState} {i : ℕ} {c : OHLCVCandle} {p : ℕ × Trade}
    (hp : p ∈ barClosings config s i c) : p.1 = i := by
  obtain ⟨f, hf, hclosing⟩ := List.mem_filterMap.1 hp
  obtain ⟨raw, -, rfl⟩ := List.mem_map.1 hf
  cases raw with
  | entry side price => cases hclosing
  | exit pos price reason =>
    cases hclosing
    rfl

theorem Books.bar {n i : ℕ} {s : EngineState} {closings : List (ℕ × Trade)} (h : Books config i s closings)
    (c : OHLCVCandle) : Books config (i + 1) (bar config decide n s c i) (closings ++ barClosings config s i c) := by
  have hfills := (h.mono (Nat.le_succ i)).foldl (c := c) valid_barFills
  rw [bar_eq, marked_eq]
  exact ⟨hfills.realized, hfills.trades, hfills.exits, hfills.spaced, hfills.held⟩

/-- The closings by bar `j`. -/
def closedBy (closings : List (ℕ × Trade)) (j : ℕ) : List (ℕ × Trade) := closings.filter fun p => p.1 ≤ j

theorem closedBy_append_of_lt {closings later : List (ℕ × Trade)} {j : ℕ} (h : ∀ p ∈ later, j < p.1) :
    closedBy (closings ++ later) j = closedBy closings j := by
  have hnone : later.filter (fun p => p.1 ≤ j) = [] := by
    rw [List.filter_eq_nil_iff]
    intro p hp
    simpa using h p hp
  rw [closedBy, List.filter_append, hnone, List.append_nil]
  rfl

theorem closedBy_eq_self {closings : List (ℕ × Trade)} {j : ℕ} (h : ∀ p ∈ closings, p.1 ≤ j) :
    closedBy closings j = closings := by
  rw [closedBy, List.filter_eq_self]
  intro p hp
  simpa using h p hp

/-- What a point of the curve outside the market says: the initial balance and the trades closed by then. -/
def Flat (config : BacktestConfig) (closings : List (ℕ × Trade)) (j : ℕ) (p : EquityPoint) : Prop :=
  p.inMarket = false → p.equity = config.initialBalance + totalPnl (closedBy closings j)

/-- One more point, after the trades closed with it. -/
theorem flat_append {curve : List EquityPoint} {closings later : List (ℕ × Trade)} {point : EquityPoint}
    (hcurve : ∀ j p, curve[j]? = some p → Flat config closings j p) (hlater : ∀ q ∈ later, q.1 = curve.length)
    (hall : ∀ q ∈ closings ++ later, q.1 ≤ curve.length)
    (hpoint : point.inMarket = false → point.equity = config.initialBalance + totalPnl (closings ++ later)) :
    ∀ j p, (curve ++ [point])[j]? = some p → Flat config (closings ++ later) j p := by
  intro j p hp
  by_cases hj : j < curve.length
  · rw [List.getElem?_append_left hj] at hp
    have hafter : ∀ q ∈ later, j < q.1 := fun q hq => by
      rw [hlater q hq]
      exact hj
    rw [Flat, closedBy_append_of_lt hafter]
    exact hcurve j p hp
  · rw [List.getElem?_append_right (not_lt.1 hj), List.getElem?_singleton] at hp
    by_cases hlast : j = curve.length
    · rw [hlast, Nat.sub_self, if_pos rfl] at hp
      cases hp
      rw [Flat, closedBy_eq_self (hlast ▸ hall)]
      exact hpoint
    · rw [if_neg (by omega)] at hp
      cases hp

/-- The books before bar `i` and the curve up to it. -/
structure Accounts (config : BacktestConfig) (i : ℕ) (s : EngineState) (closings : List (ℕ × Trade)) : Prop where
  books : Books config i s closings
  length : s.curve.length = i
  flat : ∀ j p, s.curve[j]? = some p → Flat config closings j p
  last : ∀ p, s.curve.getLast? = some p → p.inMarket = s.position.isSome

theorem Accounts.bar {n i : ℕ} {s : EngineState} {closings : List (ℕ × Trade)} (h : Accounts config i s closings)
    (c : OHLCVCandle) : Accounts config (i + 1) (bar config decide n s c i) (closings ++ barClosings config s i c) := by
  have hbooks : Books config (i + 1) (Engine.bar config decide n s c i) (closings ++ barClosings config s i c) :=
    h.books.bar c
  have hposition : (Engine.bar config decide n s c i).position = (marked config s c i).position := by rw [bar_eq]
  have hrealized : (Engine.bar config decide n s c i).realizedEquity = (marked config s c i).realizedEquity := by
    rw [bar_eq]
  refine ⟨hbooks, ?_, ?_, ?_⟩
  · rw [curve_bar, List.length_append, h.length]
    rfl
  · have hlength := h.length
    subst hlength
    rw [curve_bar]
    refine flat_append h.flat (fun q hq => index_of_mem_barClosings hq)
      (fun q hq => Nat.lt_succ_iff.1 (hbooks.exits q hq).1) fun hout => ?_
    -- outside the market the equity is the realised one
    have hnone : (marked config s c s.curve.length).position = none :=
      Option.isNone_iff_eq_none.1 (Option.isSome_eq_false_iff.1 hout)
    rw [← hbooks.realized, hrealized]
    show markedEquity (marked config s c s.curve.length) c = _
    rw [markedEquity, hnone]
  · intro p hp
    rw [curve_bar, List.getLast?_append] at hp
    cases hp
    rw [hposition]
    rfl

theorem Accounts.replay {n i : ℕ} {s : EngineState} {closings : List (ℕ × Trade)} (h : Accounts config i s closings)
    (cs : List OHLCVCandle) : Accounts config (i + cs.length) (replay config decide n s i cs)
      (closings ++ (fillsFrom config decide n s i cs).filterMap (BarFill.closing config)) := by
  induction cs generalizing s i closings with
  | nil => simpa [Engine.replay, fillsFrom] using h
  | cons c cs ih =>
    have hbar : Accounts config (i + 1) (Engine.bar config decide n s c i) (closings ++ barClosings config s i c) :=
      h.bar c
    have hrest := ih hbar
    rw [List.append_assoc] at hrest
    rw [Engine.replay, fillsFrom, List.filterMap_append, List.length_cons, Nat.add_comm cs.length 1, ← Nat.add_assoc]
    exact hrest

/-- Closing at the end what is still open: the books stay right, and there is no position. -/
theorem Accounts.finish {candles : List OHLCVCandle} {s : EngineState} {closings : List (ℕ × Trade)}
    (h : Accounts config candles.length s closings) :
    Accounts config candles.length (finish config s candles)
        (closings ++ (finishFills s candles).filterMap (BarFill.closing config)) ∧
      (finish config s candles).position = none := by
  unfold Engine.finish finishFills
  cases hpos : s.position with
  | none =>
    simp only [List.filterMap_nil, List.append_nil]
    exact ⟨h, hpos⟩
  | some pos =>
    obtain ⟨hentry, -⟩ := h.books.held pos hpos
    obtain ⟨m, hm⟩ : ∃ m, candles.length = m + 1 := ⟨candles.length - 1, by omega⟩
    have hne : candles ≠ [] := by
      rintro rfl
      cases hm
    rw [hm] at h ⊢
    rw [List.getLast?_eq_some_getLast hne]
    have hbooks := h.books.close hpos (candles.getLast hne).close (candles.getLast hne).timestamp .eod
    have hlength : s.curve.dropLast.length = m := by
      rw [List.length_dropLast, h.length]
      rfl
    have hcurve : ∀ j p, s.curve.dropLast[j]? = some p → Flat config closings j p := by
      intro j p hp
      rw [List.getElem?_dropLast] at hp
      split at hp
      case isTrue => exact h.flat j p hp
      case isFalse => cases hp
    refine ⟨⟨?_, ?_, ?_, ?_⟩, rfl⟩
    · exact ⟨hbooks.realized, hbooks.trades, hbooks.exits, hbooks.spaced, hbooks.held⟩
    · show (s.curve.dropLast ++ [_]).length = m + 1
      rw [List.length_append, hlength]
      rfl
    · subst hlength
      refine flat_append hcurve ?_ (fun q hq => Nat.lt_succ_iff.1 (hbooks.exits q hq).1) fun _ => hbooks.realized
      intro q hq
      replace hq : q ∈ [_] := hq
      rw [List.mem_singleton.1 hq]
      rfl
    · intro p hp
      replace hp : (s.curve.dropLast ++ [_]).getLast? = some p := hp
      rw [List.getLast?_append] at hp
      cases hp
      rfl

theorem timestamps_replay (n i : ℕ) (s : EngineState) (cs : List OHLCVCandle) :
    (replay config decide n s i cs).curve.map EquityPoint.timestamp =
      s.curve.map EquityPoint.timestamp ++ cs.map OHLCVCandle.timestamp := by
  induction cs generalizing s i with
  | nil => simp [replay]
  | cons c cs ih =>
    rw [replay, ih, curve_bar, List.map_append, List.append_assoc]
    rfl

theorem timestamps_finish {candles : List OHLCVCandle} {s : EngineState}
    (h : s.curve.map EquityPoint.timestamp = candles.map OHLCVCandle.timestamp) :
    (finish config s candles).curve.map EquityPoint.timestamp = candles.map OHLCVCandle.timestamp := by
  unfold finish
  split
  case h_1 pos last hpos hlast =>
    show (s.curve.dropLast ++ [_]).map EquityPoint.timestamp = _
    rw [List.map_append, List.map_dropLast, h, ← List.map_dropLast]
    show candles.dropLast.map _ ++ [last].map OHLCVCandle.timestamp = _
    rw [← List.map_append, List.dropLast_append_getLast? last hlast]
  case h_2 => exact h

theorem accounts_run (candles : List OHLCVCandle) (config : BacktestConfig)
    (decide : CandleBuffer → ℕ → Option OrderSide) :
    ∃ s : EngineState, (runWithDecider candles config decide).curve = s.curve ∧
      (runWithDecider candles config decide).trades = s.trades ∧ s.position = none ∧
        Accounts config candles.length s (closings candles config decide) := by
  have hstart : Accounts config 0 (start config) [] :=
    ⟨⟨by simp [start, totalPnl], rfl, by simp, List.Pairwise.nil, by simp [start]⟩, rfl, by simp [start],
      by simp [start]⟩
  have hreplay : Accounts config candles.length (replay config decide candles.length (start config) 0 candles)
      ((fillsFrom config decide candles.length (start config) 0 candles).filterMap (BarFill.closing config)) := by
    have h : Accounts config (0 + candles.length) (replay config decide candles.length (start config) 0 candles)
      ([] ++ _) := hstart.replay candles
    rwa [Nat.zero_add] at h
  obtain ⟨haccounts, hnone⟩ := hreplay.finish
  rw [← List.filterMap_append] at haccounts
  exact ⟨_, rfl, rfl, hnone, haccounts⟩

end Engine

/-- The accounting of the engine.  A run has one curve point for each candle, in order; the last one is outside the
market, with the equity of all trades, and every other one outside the market has that of the trades closed by then;
the trades are entered and closed one after the other. -/
theorem engine_accounting (candles : List OHLCVCandle) (config : BacktestConfig)
    (decide : CandleBuffer → ℕ → Option OrderSide) :
    let run := Engine.runWithDecider candles config decide
    let closings := Engine.closings candles config decide
    closings.map Prod.snd = run.trades ∧
      run.curve.map EquityPoint.timestamp = candles.map OHLCVCandle.timestamp ∧
      (∀ last, run.curve.getLast? = some last →
        last.inMarket = false ∧ last.equity = config.initialBalance + (run.trades.map Trade.pnlUsd).sum) ∧
      (∀ j p, run.curve[j]? = some p → p.inMarket = false →
        p.equity = config.initialBalance + totalPnl (closings.filter fun q => q.1 ≤ j)) ∧
      (closings.Pairwise fun p q => p.1 ≤ q.1 ∧ (p.1 : ℤ) ≤ entryIndex q) ∧
      ∀ p ∈ closings, p.1 < candles.length ∧ 0 ≤ entryIndex p ∧ entryIndex p ≤ p.1 := by
  intro run closings
  obtain ⟨s, hcurve, htrades, hnone, hbooks, hlength, hflat, hlast⟩ := Engine.accounts_run candles config decide
  have htotal : (run.trades.map Trade.pnlUsd).sum = totalPnl closings := by
    rw [show run.trades = s.trades from htrades, hbooks.trades, List.map_map]
    rfl
  refine ⟨?_, ?_, ?_, ?_, ?_, hbooks.exits⟩
  · rw [show run.trades = s.trades from htrades, hbooks.trades]
  · refine Engine.timestamps_finish ?_
    rw [Engine.timestamps_replay]
    rfl
  · intro last hl
    replace hl : s.curve.getLast? = some last := hcurve ▸ hl
    have hout : last.inMarket = false := by
      rw [hlast last hl, hnone]
      rfl
    refine ⟨hout, ?_⟩
    -- the last point is that of the last bar, by which all trades are closed
    have hpoint : s.curve[s.curve.length - 1]? = some last := by rw [← List.getLast?_eq_getElem?, hl]
    rw [htotal, hflat _ last hpoint hout, Engine.closedBy_eq_self]
    intro q hq
    have := (hbooks.exits q hq).1
    omega
  · intro j p hp hout
    exact hflat j p (hcurve ▸ hp) hout
  · refine (List.Pairwise.and_mem.1 hbooks.spaced).imp ?_
    rintro p q ⟨-, hq, hspaced⟩
    have hexit := (hbooks.exits q hq).2.2
    exact ⟨by omega, hspaced⟩

end MultiAgentTrading
