import MultiAgentTrading.Backtest.NoLookahead

/-!
# The fills of a backtest

What a bar does to the position is a list of fills at raw prices, before slippage: an exit and an entry at the open for
the pending order, then an exit where the stop or the target is hit.  `marked_eq` says that the bar is the replay of
these fills, `valid_barFills` that no entry finds a position open, and `rawFills` collects the fills of a run, with the
close of what is left open at the end.
-/

namespace MultiAgentTrading

/-- A call of `_open` or `_close`, with the raw price it is given. -/
inductive RawFill
  | entry (side : OrderSide) (price : ℚ)
  | exit (pos : EnginePosition) (price : ℚ) (reason : ExitReason)
  deriving DecidableEq

def RawFill.price : RawFill → ℚ
  | .entry _ price => price
  | .exit _ price _ => price

/-- A fill with the bar it happens at. -/
structure BarFill where
  index : ℕ
  candle : OHLCVCandle
  fill : RawFill

namespace Engine

variable {config : BacktestConfig} {decide : CandleBuffer → ℕ → Option OrderSide} {s : EngineState} {i : ℕ}
  {c : OHLCVCandle}

def stopPrice (config : BacktestConfig) (pos : EnginePosition) : ℚ :=
  match pos.side with
  | .buy => pos.entryFill * (1 - config.stopLossPct)
  | .sell => pos.entryFill * (1 + config.stopLossPct)

def takeProfitPrice (config : BacktestConfig) (pos : EnginePosition) : ℚ :=
  match pos.side with
  | .buy => pos.entryFill * (1 + config.takeProfitPct)
  | .sell => pos.entryFill * (1 - config.takeProfitPct)

/-- Where the range of a bar takes the position out, if it does: at the stop, or else at the target. -/
def exitLevel (config : BacktestConfig) (pos : EnginePosition) (c : OHLCVCandle) : Option (ℚ × ExitReason) :=
  let slPrice := stopPrice config pos
  let tpPrice := takeProfitPrice config pos
  match pos.side with
  | .buy =>
    if c.low ≤ slPrice then some (slPrice, .stopLoss)
    else if tpPrice ≤ c.high then some (tpPrice, .takeProfit)
    else none
  | .sell =>
    if slPrice ≤ c.high then some (slPrice, .stopLoss)
    else if c.low ≤ tpPrice then some (tpPrice, .takeProfit)
    else none

/-- The fills of the pending order. -/
def pendingFills (s : EngineState) (c : OHLCVCandle) : List RawFill :=
  match s.pending, s.position with
  | none, _ => []
  | some side, none => [.entry side c.openPrice]
  | some side, some pos => if pos.side ≠ side then [.exit pos c.openPrice .signal, .entry side c.openPrice] else []

/-- The fill of a stop or a target. -/
def exitFills (config : BacktestConfig) (s : EngineState) (c : OHLCVCandle) : List RawFill :=
  match s.position with
  | none => []
  | some pos => ((exitLevel config pos c).map fun level => RawFill.exit pos level.1 level.2).toList

/-- The fills of one bar. -/
def barFills (config : BacktestConfig) (s : EngineState) (i : ℕ) (c : OHLCVCandle) : List RawFill :=
  pendingFills s c ++ exitFills config (fillPending config s i c) c

/-- What a fill does. -/
def fill (config : BacktestConfig) (i : ℕ) (c : OHLCVCandle) (s : EngineState) : RawFill → EngineState
  | .entry side price => { s with position := some (openAt config s side price c.timestamp i) }
  | .exit pos price reason => close config s pos price c.timestamp i reason

/-- The fills of a replay, from bar `i` on. -/
def fillsFrom (config : BacktestConfig) (decide : CandleBuffer → ℕ → Option OrderSide) (n : ℕ) :
    EngineState → ℕ → List OHLCVCandle → List BarFill
  | _, _, [] => []
  | s, i, c :: cs =>
    (barFills config s i c).map (fun f => ⟨i, c, f⟩) ++ fillsFrom config decide n (bar config decide n s c i) (i + 1) cs

/-- The fill after the last bar. -/
def finishFills (s : EngineState) (candles : List OHLCVCandle) : List BarFill :=
  match s.position, candles.getLast? with
  | some pos, some last => [⟨candles.length - 1, last, .exit pos last.close .eod⟩]
  | _, _ => []

/-- All fills of a run, in order. -/
def rawFills (candles : List OHLCVCandle) (config : BacktestConfig) (decide : CandleBuffer → ℕ → Option OrderSide) :
    List BarFill :=
  fillsFrom config decide candles.length (start config) 0 candles ++
    finishFills (replay config decide candles.length (start config) 0 candles) candles

/-! ### A bar is its fills -/

theorem fillPending_eq :
    fillPending config s i c = { (pendingFills s c).foldl (fill config i c) s with pending := none } := by
  unfold fillPending pendingFills
  cases hpending : s.pending with
  | none =>
    show s = { s with pending := none }
    rw [← hpending]
  | some side =>
    cases hposition : s.position with
    | none => rfl
    | some pos =>
      by_cases hside : pos.side ≠ side
      · simp only [if_pos hside]
        rfl
      · simp only [if_neg hside]
        rw [← hposition]
        rfl

theorem checkExits_eq : checkExits config s i c = (exitFills config s c).foldl (fill config i c) s := by
  unfold checkExits exitFills exitLevel stopPrice takeProfitPrice
  cases s.position with
  | none => rfl
  | some pos =>
    cases hside : pos.side with
    | buy =>
      simp only [hside]
      split_ifs <;> rfl
    | sell =>
      simp only [hside]
      split_ifs <;> rfl

/-- Neither the candles seen nor the order that is pending matter for a fill. -/
private theorem foldl_fill_frame (fills : List RawFill) (s : EngineState) (registry : CandleBufferRegistry)
    (pending : Option OrderSide) :
    fills.foldl (fill config i c) { s with registry := registry, pending := pending } =
      { fills.foldl (fill config i c) s with registry := registry, pending := pending } := by
  induction fills generalizing s with
  | nil => rfl
  | cons f fills ih =>
    rw [List.foldl_cons, List.foldl_cons, ← ih]
    cases f <;> rfl

/-- A bar is the replay of its fills. -/
theorem marked_eq :
    marked config s c i =
      { (barFills config s i c).foldl (fill config i c) s with
        registry := (CandleBufferRegistry.add s.registry c).2
        pending := none } := by
  have hfilled : fillPending config { s with registry := (CandleBufferRegistry.add s.registry c).2 } i c =
      { (pendingFills s c).foldl (fill config i c) s with
        registry := (CandleBufferRegistry.add s.registry c).2
        pending := none } := by
    rw [fillPending_eq]
    exact congrArg (fun s : EngineState => { s with pending := none })
      (foldl_fill_frame (pendingFills s c) s (CandleBufferRegistry.add s.registry c).2 s.pending)
  have hexits : exitFills config (fillPending config
      { s with registry := (CandleBufferRegistry.add s.registry c).2 } i c) c =
        exitFills config (fillPending config s i c) c := by
    rw [hfilled, fillPending_eq]
    rfl
  rw [marked, checkExits_eq, hexits, hfilled, foldl_fill_frame, barFills, List.foldl_append]

/-- An entry finds no position and an exit finds its own. -/
def Valid (config : BacktestConfig) (i : ℕ) (c : OHLCVCandle) : EngineState → List RawFill → Prop
  | _, [] => True
  | s, .entry side price :: fills => s.position = none ∧ Valid config i c (fill config i c s (.entry side price)) fills
  | s, .exit pos price reason :: fills =>
    s.position = some pos ∧ Valid config i c (fill config i c s (.exit pos price reason)) fills

theorem Valid.append {fills fills' : List RawFill} (h : Valid config i c s fills)
    (h' : Valid config i c (fills.foldl (fill config i c) s) fills') : Valid config i c s (fills ++ fills') := by
  induction fills generalizing s with
  | nil => exact h'
  | cons f fills ih =>
    cases f with
    | entry side price => exact ⟨h.1, ih h.2 h'⟩
    | exit pos price reason => exact ⟨h.1, ih h.2 h'⟩

theorem valid_barFills : Valid config i c s (barFills config s i c) := by
  have hpending : Valid config i c s (pendingFills s c) := by
    unfold pendingFills
    cases s.pending with
    | none => trivial
    | some side =>
      cases hposition : s.position with
      | none => exact ⟨hposition, trivial⟩
      | some pos =>
        by_cases hside : pos.side ≠ side
        · simp only [if_pos hside]
          exact ⟨hposition, rfl, trivial⟩
        · simp only [if_neg hside]
          trivial
  refine hpending.append ?_
  have hposition : (fillPending config s i c).position = ((pendingFills s c).foldl (fill config i c) s).position := by
    rw [fillPending_eq]
  unfold exitFills
  rw [hposition]
  cases hheld : ((pendingFills s c).foldl (fill config i c) s).position with
  | none => trivial
  | some pos =>
    dsimp only
    cases exitLevel config pos c with
    | none => trivial
    | some level => exact ⟨hheld, trivial⟩

end Engine

end MultiAgentTrading
