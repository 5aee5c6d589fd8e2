import MultiAgentTrading.Backtest.Engine

/-!
# The replay loop has no look-ahead

`barLog` lists what each bar of a run adds: its point of the equity curve, the trades closed at it, and the decision
taken at it.  A bar reads the loop state, its own candle, and whether it is the last one; so two runs over series that
agree up to a bar which is the last of neither have the same log up to it.  The curve and the trades of a run are those
of its log, but for the close of what is left open at the last bar.
-/

namespace MultiAgentTrading

/-- What one bar adds to a run; `decision` is the order for the next bar. -/
structure BarEntry where
  point : EquityPoint
  closed : List Trade
  decision : Option OrderSide
  deriving DecidableEq

namespace Engine

variable {config : BacktestConfig} {decide : CandleBuffer → ℕ → Option OrderSide}

/-- The state in which the loop starts. -/
def start (config : BacktestConfig) : EngineState := { realizedEquity := config.initialBalance }

/-- The state of the loop once a bar has been marked: stops and pending order done, no decision taken yet. -/
def marked (config : BacktestConfig) (s : EngineState) (c : OHLCVCandle) (i : ℕ) : EngineState :=
  checkExits config (fillPending config { s with registry := (CandleBufferRegistry.add s.registry c).2 } i c) i c

/-- The point that a bar adds to the curve. -/
def markedPoint (config : BacktestConfig) (s : EngineState) (c : OHLCVCandle) (i : ℕ) : EquityPoint :=
  ⟨c.timestamp, markedEquity (marked config s c i) c, (marked config s c i).position.isSome⟩

/-- What the bars of a replay add, from bar `i` on. -/
def logFrom (config : BacktestConfig) (decide : CandleBuffer → ℕ → Option OrderSide) (n : ℕ) :
    EngineState → ℕ → List OHLCVCandle → List BarEntry
  | _, _, [] => []
  | s, i, c :: cs =>
    let s' := bar config decide n s c i
    ⟨markedPoint config s c i, s'.trades.drop s.trades.length, s'.pending⟩ :: logFrom config decide n s' (i + 1) cs

def barLog (candles : List OHLCVCandle) (config : BacktestConfig) (decide : CandleBuffer → ℕ → Option OrderSide) :
    List BarEntry :=
  logFrom config decide candles.length (start config) 0 candles

/-! ### What a bar appends -/

/-- Curve and trades only grow: the curve of `s` is as given, and its trades begin with those given. -/
structure Grows (s s' : EngineState) : Prop where
  curve : s'.curve = s.curve
  trades : s.trades <+: s'.trades

private theorem Grows.refl (s : EngineState) : Grows s s := ⟨rfl, List.prefix_rfl⟩

private theorem Grows.trans {s s' s'' : EngineState} (h : Grows s s') (h' : Grows s' s'') : Grows s s'' :=
  ⟨h'.curve.trans h.curve, h.trades.trans h'.trades⟩

private theorem grows_close (s : EngineState) (pos : EnginePosition) (exitPriceRaw exitTime : ℚ) (exitIndex : ℕ)
    (reason : ExitReason) : Grows s (close config s pos exitPriceRaw exitTime exitIndex reason) :=
  ⟨rfl, List.prefix_append _ _⟩

private theorem grows_fillPending (s : EngineState) (i : ℕ) (c : OHLCVCandle) : Grows s (fillPending config s i c) := by
  unfold fillPending
  split
  case h_1 => exact .refl s
  case h_2 side _ =>
    split
    case h_1 => exact ⟨rfl, List.prefix_rfl⟩
    case h_2 pos _ =>
      split
      case isTrue => exact ⟨rfl, List.prefix_append _ _⟩
      case isFalse => exact ⟨rfl, List.prefix_rfl⟩

private theorem grows_checkExits (s : EngineState) (i : ℕ) (c : OHLCVCandle) : Grows s (checkExits config s i c) := by
  unfold checkExits
  split
  case h_1 => exact .refl s
  case h_2 pos _ =>
    split
    · dsimp only
      split_ifs
      · exact grows_close _ _ _ _ _ _
      · exact grows_close _ _ _ _ _ _
      · exact .refl s
    · dsimp only
      split_ifs
      · exact grows_close _ _ _ _ _ _
      · exact grows_close _ _ _ _ _ _
      · exact .refl s

private theorem grows_marked (s : EngineState) (c : OHLCVCandle) (i : ℕ) : Grows s (marked config s c i) := by
  have hadd : Grows s { s with registry := (CandleBufferRegistry.add s.registry c).2 } := ⟨rfl, List.prefix_rfl⟩
  exact hadd.trans ((grows_fillPending _ i c).trans (grows_checkExits _ i c))

theorem bar_eq (n : ℕ) (s : EngineState) (c : OHLCVCandle) (i : ℕ) :
    bar config decide n s c i =
      { marked config s c i with
        curve := (marked config s c i).curve ++ [markedPoint config s c i]
        pending :=
          if i + 1 < n then decide (CandleBufferRegistry.add s.registry c).1 i
          else (marked config s c i).pending } := by
  unfold bar
  dsimp only
  split <;> rfl

theorem curve_bar (n : ℕ) (s : EngineState) (c : OHLCVCandle) (i : ℕ) :
    (bar config decide n s c i).curve = s.curve ++ [markedPoint config s c i] := by
  rw [bar_eq]
  show (marked config s c i).curve ++ _ = _
  rw [(grows_marked s c i).curve]

theorem trades_bar (n : ℕ) (s : EngineState) (c : OHLCVCandle) (i : ℕ) :
    s.trades ++ (bar config decide n s c i).trades.drop s.trades.length = (bar config decide n s c i).trades := by
  rw [bar_eq]
  obtain ⟨closed, hclosed⟩ : ∃ closed, s.trades ++ closed = (marked config s c i).trades := (grows_marked s c i).trades
  show s.trades ++ (marked config s c i).trades.drop s.trades.length = (marked config s c i).trades
  rw [← hclosed, List.drop_left]

/-- Only whether a bar is the last one depends on the number of candles. -/
theorem bar_congr {n n' : ℕ} {s : EngineState} {c : OHLCVCandle} {i : ℕ} (h : i + 1 < n) (h' : i + 1 < n') :
    bar config decide n s c i = bar config decide n' s c i := by
  rw [bar_eq, bar_eq, if_pos h, if_pos h']

/-! ### The log of a run -/

private theorem length_logFrom (n : ℕ) (s : EngineState) (i : ℕ) (cs : List OHLCVCandle) :
    (logFrom config decide n s i cs).length = cs.length := by
  induction cs generalizing s i with
  | nil => rfl
  | cons c cs ih => simp [logFrom, ih]

private theorem curve_replay (n : ℕ) (s : EngineState) (i : ℕ) (cs : List OHLCVCandle) :
    (replay config decide n s i cs).curve = s.curve ++ (logFrom config decide n s i cs).map BarEntry.point := by
  induction cs generalizing s i with
  | nil => simp [replay, logFrom]
  | cons c cs ih => simp [replay, logFrom, ih, curve_bar]

private theorem trades_replay (n : ℕ) (s : EngineState) (i : ℕ) (cs : List OHLCVCandle) :
    (replay config decide n s i cs).trades = s.trades ++ (logFrom config decide n s i cs).flatMap BarEntry.closed := by
  induction cs generalizing s i with
  | nil => simp [replay, logFrom]
  | cons c cs ih =>
    rw [replay, ih, logFrom, List.flatMap_cons, ← List.append_assoc]
    congr 1
    exact (trades_bar n s c i).symm

/-- The curve of a run is that of its log up to the last point. -/
theorem take_curve_run {candles : List OHLCVCandle} {m : ℕ} (h : m < candles.length) :
    (runWithDecider candles config decide).curve.take m =
      ((barLog candles config decide).map BarEntry.point).take m := by
  have hreplay : (replay config decide candles.length (start config) 0 candles).curve =
      (logFrom config decide candles.length (start config) 0 candles).map BarEntry.point := by
    rw [curve_replay]
    rfl
  have hlen : (logFrom config decide candles.length (start config) 0 candles).length = candles.length :=
    length_logFrom _ _ _ _
  unfold runWithDecider finish
  dsimp only
  split
  case h_1 pos last _ _ =>
    show (List.dropLast (replay config decide candles.length (start config) 0 candles).curve ++ _).take m = _
    rw [hreplay, List.take_append_of_le_length, List.dropLast_eq_take, List.take_take, Nat.min_eq_left]
    · rfl
    all_goals simp only [List.length_map, List.length_dropLast, hlen]; omega
  case h_2 =>
    show ((replay config decide candles.length (start config) 0 candles).curve).take m = _
    rw [hreplay]
    rfl

/-- The trades of a run are those of its log, and at most one more, closed at the last bar. -/
theorem trades_run (candles : List OHLCVCandle) :
    ∃ eod : List Trade, (runWithDecider candles config decide).trades =
      (barLog candles config decide).flatMap BarEntry.closed ++ eod ∧
        eod.length ≤ 1 ∧ ∀ t ∈ eod, t.exitReason = .eod := by
  have hreplay : (replay config decide candles.length (start config) 0 candles).trades =
      (logFrom config decide candles.length (start config) 0 candles).flatMap BarEntry.closed := by
    rw [trades_replay]
    rfl
  unfold runWithDecider finish
  dsimp only
  split
  case h_1 pos last _ _ =>
    refine ⟨[closedTrade config pos last.close last.timestamp (candles.length - 1) .eod], ?_, le_rfl, ?_⟩
    · show (replay config decide candles.length (start config) 0 candles).trades ++ _ = _
      rw [hreplay]
      rfl
    · intro t ht
      rw [List.mem_singleton.1 ht]
      rfl
  case h_2 =>
    refine ⟨[], ?_, Nat.zero_le _, by simp⟩
    show (replay config decide candles.length (start config) 0 candles).trades = _
    rw [hreplay, List.append_nil]
    rfl

/-- Bars that are the last of neither series add the same to both. -/
private theorem take_logFrom {n n' : ℕ} {s : EngineState} {i m : ℕ} {cs cs' : List OHLCVCandle}
    (hagree : cs.take m = cs'.take m) (h : i + m < n) (h' : i + m < n') :
    (logFrom config decide n s i cs).take m = (logFrom config decide n' s i cs').take m := by
  induction m generalizing s i cs cs' with
  | zero => rfl
  | succ m ih =>
    cases cs with
    | nil =>
      cases cs' with
      | nil => rfl
      | cons c' cs' => simp at hagree
    | cons c cs =>
      cases cs' with
      | nil => simp at hagree
      | cons c' cs' =>
        obtain ⟨rfl, hrest⟩ := List.cons.inj hagree
        have hbar : bar config decide n s c i = bar config decide n' s c i := bar_congr (by omega) (by omega)
        rw [logFrom, logFrom, List.take_succ_cons, List.take_succ_cons, hbar, ih hrest (by omega) (by omega)]

end Engine

/-- No look-ahead: two runs over series that agree on the bars `0` to `k`, where `k` is the last bar of neither, have
the same points of the curve, the same decisions and the same closed trades at these bars, and the trades of both runs
begin with the latter. -/
theorem no_lookahead (config : BacktestConfig) (decide : CandleBuffer → ℕ → Option OrderSide)
    {candles candles' : List OHLCVCandle} {k : ℕ} (hk : k < candles.length - 1) (hk' : k < candles'.length - 1)
    (hagree : candles.take (k + 1) = candles'.take (k + 1)) :
    (Engine.runWithDecider candles config decide).curve.take (k + 1) =
        (Engine.runWithDecider candles' config decide).curve.take (k + 1) ∧
      (Engine.barLog candles config decide).take (k + 1) = (Engine.barLog candles' config decide).take (k + 1) ∧
      ∀ series ∈ [candles, candles'], ∃ later, (Engine.runWithDecider series config decide).trades =
        ((Engine.barLog candles config decide).take (k + 1)).flatMap BarEntry.closed ++ later := by
  have hlog :
      (Engine.barLog candles config decide).take (k + 1) = (Engine.barLog candles' config decide).take (k + 1) :=
    Engine.take_logFrom hagree (by omega) (by omega)
  have hbegin : ∀ series : List OHLCVCandle, ∃ later, (Engine.runWithDecider series config decide).trades =
      ((Engine.barLog series config decide).take (k + 1)).flatMap BarEntry.closed ++ later := by
    intro series
    obtain ⟨eod, heod, -, -⟩ : ∃ eod : List Trade, (Engine.runWithDecider series config decide).trades = _ ++ eod ∧
      _ ∧ _ := Engine.trades_run series
    refine ⟨((Engine.barLog series config decide).drop (k + 1)).flatMap BarEntry.closed ++ eod, ?_⟩
    rw [heod, ← List.append_assoc, ← List.flatMap_append, List.take_append_drop]
  refine ⟨?_, hlog, ?_⟩
  · rw [Engine.take_curve_run (by omega), Engine.take_curve_run (by omega), ← List.map_take, ← List.map_take, hlog]
  · intro series hseries
    rcases List.mem_pair.1 hseries with rfl | rfl
    · exact hbegin _
    · rw [hlog]
      exact hbegin _

/-- Two bars at 100, one at 110, and a last one. -/
def flatSeries (last : ℚ) : List OHLCVCandle :=
  [flatCandle "BTC/USDT" "1h" 0 100 1 zero_le_one, flatCandle "BTC/USDT" "1h" 3600 100 1 zero_le_one,
    flatCandle "BTC/USDT" "1h" 7200 110 1 zero_le_one, flatCandle "BTC/USDT" "1h" 10800 last 1 zero_le_one]

/-- A long opened at bar 1 takes its profit at bar 2, whatever comes last. -/
theorem no_lookahead_flatSeries :
    let decide : CandleBuffer → ℕ → Option OrderSide := fun _ i => if i = 0 then some .buy else none
    ((Engine.barLog (flatSeries 50) {} decide).take 3).map (fun e => e.closed.length) = [0, 0, 1] ∧
      (Engine.barLog (flatSeries 50) {} decide).take 3 = (Engine.barLog (flatSeries 200) {} decide).take 3 := by
  refine ⟨by decide +kernel, ?_⟩
  exact (no_lookahead {} _ (k := 2) (by decide) (by decide) (by decide +kernel)).2.1

end MultiAgentTrading
