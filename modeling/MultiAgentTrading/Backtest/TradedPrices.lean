import MultiAgentTrading.Backtest.Fills

/-!
# Raw prices and the bars

Entries, exits on a signal and the exit at the end are priced at an open or a close, so within the range of their bar.
A stop or a target is filled at its own level once the bar has reached it; `fills_at_traded_prices` says that this level
is within the range too unless the whole bar is past it.
-/

namespace MultiAgentTrading

/-- The price is within the range of the bar. -/
def OHLCVCandle.Traded (c : OHLCVCandle) (price : ℚ) : Prop := c.low ≤ price ∧ price ≤ c.high

/-- A stop or a target is filled at its level. -/
def RawFill.AtLevel (config : BacktestConfig) : RawFill → Prop
  | .exit pos price .stopLoss => price = Engine.stopPrice config pos
  | .exit pos price .takeProfit => price = Engine.takeProfitPrice config pos
  | _ => True

/-- The whole bar is past the stop or the target: below the stop or above the target of a long, the other way round for
a short. -/
def RawFill.GapsPast (c : OHLCVCandle) : RawFill → Prop
  | .exit pos price .stopLoss =>
    match pos.side with
    | .buy => c.high < price
    | .sell => price < c.low
  | .exit pos price .takeProfit =>
    match pos.side with
    | .buy => price < c.low
    | .sell => c.high < price
  | _ => False

namespace Engine

variable {config : BacktestConfig} {decide : CandleBuffer → ℕ → Option OrderSide} {s : EngineState} {i : ℕ}
  {c : OHLCVCandle}

theorem traded_open (c : OHLCVCandle) : c.Traded c.openPrice := ⟨c.low_le.1, c.high_ge.1⟩

theorem traded_close (c : OHLCVCandle) : c.Traded c.close := ⟨c.low_le.2, c.high_ge.2⟩

theorem pendingFills_spec {f : RawFill} (h : f ∈ pendingFills s c) :
    f.AtLevel config ∧ (c.Traded f.price ↔ ¬f.GapsPast c) := by
  have hopen := traded_open c
  unfold pendingFills at h
  split at h
  case h_1 => cases h
  case h_2 side _ _ =>
    obtain rfl := List.mem_singleton.1 h
    exact ⟨trivial, iff_of_true hopen id⟩
  case h_3 side pos _ _ =>
    split at h
    case isTrue =>
      rcases List.mem_pair.1 h with rfl | rfl
      · exact ⟨trivial, iff_of_true hopen id⟩
      · exact ⟨trivial, iff_of_true hopen id⟩
    case isFalse => cases h

/-- The bar has reached the level from the side on which it is checked, so it is past it or around it. -/
theorem exitFills_spec {f : RawFill} (h : f ∈ exitFills config s c) :
    f.AtLevel config ∧ (c.Traded f.price ↔ ¬f.GapsPast c) := by
  unfold exitFills at h
  split at h
  case h_1 => cases h
  case h_2 pos _ =>
    obtain ⟨level, hlevel, rfl⟩ := Option.map_eq_some_iff.1 (Option.mem_toList.1 h)
    unfold exitLevel at hlevel
    dsimp only at hlevel
    cases hside : pos.side with
    | buy =>
      rw [hside] at hlevel
      dsimp only at hlevel
      split_ifs at hlevel with hstop htarget
      · cases hlevel
        refine ⟨rfl, ?_⟩
        simp only [RawFill.GapsPast, RawFill.price, OHLCVCandle.Traded, hside, hstop, true_and, not_lt]
      · cases hlevel
        refine ⟨rfl, ?_⟩
        simp only [RawFill.GapsPast, RawFill.price, OHLCVCandle.Traded, hside, htarget, and_true, not_lt]
    | sell =>
      rw [hside] at hlevel
      dsimp only at hlevel
      split_ifs at hlevel with hstop htarget
      · cases hlevel
        refine ⟨rfl, ?_⟩
        simp only [RawFill.GapsPast, RawFill.price, OHLCVCandle.Traded, hside, hstop, and_true, not_lt]
      · cases hlevel
        refine ⟨rfl, ?_⟩
        simp only [RawFill.GapsPast, RawFill.price, OHLCVCandle.Traded, hside, htarget, true_and, not_lt]

/-- The fills of a replay are those of its bars. -/
theorem mem_fillsFrom {n : ℕ} {cs : List OHLCVCandle} {f : BarFill} (h : f ∈ fillsFrom config decide n s i cs) :
    ∃ k, f.index = i + k ∧ cs[k]? = some f.candle ∧ ∃ s', f.fill ∈ barFills config s' f.index f.candle := by
  induction cs generalizing s i with
  | nil => cases h
  | cons c cs ih =>
    rcases List.mem_append.1 h with h | h
    · obtain ⟨fill, hfill, rfl⟩ := List.mem_map.1 h
      exact ⟨0, rfl, rfl, s, hfill⟩
    · obtain ⟨k, hk, hc, hfill⟩ := ih h
      exact ⟨k + 1, by omega, hc, hfill⟩

end Engine

open Engine

/-- A fill of a run is within the range of its bar exactly if it is not the fill of a stop or a target, at its level,
that the whole bar is past.  So entries, exits on a signal and the exit at the end always are. -/
theorem fills_at_traded_prices (candles : List OHLCVCandle) (config : BacktestConfig)
    (decide : CandleBuffer → ℕ → Option OrderSide) :
    ∀ f ∈ rawFills candles config decide, candles[f.index]? = some f.candle ∧ f.fill.AtLevel config ∧
      (f.candle.Traded f.fill.price ↔ ¬f.fill.GapsPast f.candle) := by
  intro f hf
  rcases List.mem_append.1 hf with hbar | hlast
  · obtain ⟨k, hk, hc, s, hfill⟩ := mem_fillsFrom hbar
    refine ⟨?_, ?_⟩
    · rw [hk, Nat.zero_add]
      exact hc
    · rcases List.mem_append.1 hfill with hpending | hexit
      · exact pendingFills_spec hpending
      · exact exitFills_spec hexit
  · unfold finishFills at hlast
    split at hlast
    case h_1 pos last _ hlast' =>
      obtain rfl := List.mem_singleton.1 hlast
      refine ⟨?_, trivial, iff_of_true (traded_close last) id⟩
      rw [← hlast', List.getLast?_eq_getElem?]
    case h_2 => cases hlast

/-- Buy at the second bar. -/
def buySecond : CandleBuffer → ℕ → Option OrderSide := fun _ i => if i = 1 then some .buy else none

/-- A long entered at 110 is stopped out at 106.7 by a bar that trades at 50 only. -/
theorem flatSeries_gaps : ∃ f ∈ rawFills (flatSeries 50) {} buySecond, f.candle.high < f.fill.price := by
  decide +kernel

theorem fills_at_traded_prices_flatSeries :
    ∃ f ∈ rawFills (flatSeries 50) {} buySecond, (flatSeries 50)[f.index]? = some f.candle ∧
      f.fill.GapsPast f.candle := by
  obtain ⟨f, hf, hgap⟩ := flatSeries_gaps
  obtain ⟨hcandle, -, htraded⟩ := fills_at_traded_prices (flatSeries 50) {} buySecond f hf
  refine ⟨f, hf, hcandle, ?_⟩
  by_contra hno
  exact absurd (htraded.2 hno).2 (not_le.2 hgap)

theorem fill_not_at_traded_price :
    ¬ ∀ (candles : List OHLCVCandle) (config : BacktestConfig) (decide : CandleBuffer → ℕ → Option OrderSide),
      ∀ f ∈ rawFills candles config decide, f.candle.Traded f.fill.price := by
  intro h
  obtain ⟨f, hf, hgap⟩ := flatSeries_gaps
  exact absurd (h _ _ _ f hf).2 (not_le.2 hgap)

end MultiAgentTrading
