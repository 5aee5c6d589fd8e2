import Mathlib.Algebra.Order.Field.Basic
import Mathlib.Algebra.Order.Ring.Rat
import Mathlib.Tactic.Ring
import MultiAgentTrading.Core.Models
import MultiAgentTrading.TechnicalAnalysis.CandleBuffer

/-!
# The backtest engine

The replay loop: at each bar the order decided at the previous bar is filled at the open, the stop and the take-profit
are checked against the bar's range, the equity is marked at the close, and the next decision is taken.  The decision
is a function of the buffer and the bar.
-/

namespace MultiAgentTrading

structure BacktestConfig where
  symbol : String := "BTC/USDT"
  timeframe : String := "1h"
  initialBalance : ℚ := 10000
  feePct : ℚ := 1 / 1000
  slippagePct : ℚ := 5 / 10000
  stopLossPct : ℚ := 3 / 100
  takeProfitPct : ℚ := 8 / 100
  maxPositionPct : ℚ := 2 / 100
  minOrderUsd : ℚ := 10
  maxOrderUsd : ℚ := 1000

inductive ExitReason | takeProfit | stopLoss | signal | eod
  deriving DecidableEq, Repr

structure Trade where
  symbol : String
  side : OrderSide
  entryTime : ℚ
  exitTime : ℚ
  entryPrice : ℚ
  exitPrice : ℚ
  quantity : ℚ
  notionalUsd : ℚ
  pnlUsd : ℚ
  returnPct : ℚ
  barsHeld : ℤ
  exitReason : ExitReason
  deriving DecidableEq

structure EquityPoint where
  timestamp : ℚ
  equity : ℚ
  inMarket : Bool
  deriving DecidableEq

/-- `_Position`. -/
structure EnginePosition where
  side : OrderSide
  entryFill : ℚ
  qty : ℚ
  entryTime : ℚ
  entryIndex : ℕ
  sizeUsd : ℚ
  deriving DecidableEq

/-- The variables of the replay loop. -/
structure EngineState where
  registry : CandleBufferRegistry := .empty
  realizedEquity : ℚ
  position : Option EnginePosition := none
  pending : Option OrderSide := none
  curve : List EquityPoint := []
  trades : List Trade := []

structure BacktestRun where
  config : BacktestConfig
  curve : List EquityPoint
  trades : List Trade

namespace Engine

def clamp (x lo hi : ℚ) : ℚ := max lo (min hi x)

/-- The trade of `_close`: slippage against the closing side, fees on both sides. -/
def closedTrade (config : BacktestConfig) (pos : EnginePosition) (exitPriceRaw exitTime : ℚ) (exitIndex : ℕ)
    (reason : ExitReason) : Trade :=
  let exitFill :=
    match pos.side with
    | .buy => exitPriceRaw * (1 - config.slippagePct)
    | .sell => exitPriceRaw * (1 + config.slippagePct)
  let gross :=
    match pos.side with
    | .buy => (exitFill - pos.entryFill) * pos.qty
    | .sell => (pos.entryFill - exitFill) * pos.qty
  let fees := config.feePct * (pos.entryFill * pos.qty + exitFill * pos.qty)
  let net := gross - fees
  { symbol := config.symbol
    side := pos.side
    entryTime := pos.entryTime
    exitTime := exitTime
    entryPrice := pos.entryFill
    exitPrice := exitFill
    quantity := pos.qty
    notionalUsd := pos.sizeUsd
    pnlUsd := net
    returnPct := if 0 < pos.sizeUsd then net / pos.sizeUsd else 0
    barsHeld := (exitIndex : ℤ) - pos.entryIndex
    exitReason := reason }

/-- `_close` and the bookkeeping around it: the trade is recorded, its profit realised, and the position gone. -/
def close (config : BacktestConfig) (s : EngineState) (pos : EnginePosition) (exitPriceRaw exitTime : ℚ)
    (exitIndex : ℕ) (reason : ExitReason) : EngineState :=
  let trade := closedTrade config pos exitPriceRaw exitTime exitIndex reason
  { s with
    realizedEquity := s.realizedEquity + trade.pnlUsd
    trades := s.trades ++ [trade]
    position := none }

/-- `_open`. -/
def openAt (config : BacktestConfig) (s : EngineState) (side : OrderSide) (rawPrice time : ℚ) (index : ℕ) :
    EnginePosition :=
  let sizeUsd := clamp (config.maxPositionPct * s.realizedEquity) config.minOrderUsd config.maxOrderUsd
  let entryFill :=
    match side with
    | .buy => rawPrice * (1 + config.slippagePct)
    | .sell => rawPrice * (1 - config.slippagePct)
  { side := side
    entryFill := entryFill
    qty := if 0 < entryFill then sizeUsd / entryFill else 0
    entryTime := time
    entryIndex := index
    sizeUsd := sizeUsd }

/-- (1) Fill the pending order at this bar's open; a signal in the direction held does nothing. -/
def fillPending (config : BacktestConfig) (s : EngineState) (i : ℕ) (c : OHLCVCandle) : EngineState :=
  match s.pending with
  | none => s
  | some side =>
    match s.position with
    | none => { s with position := some (openAt config s side c.openPrice c.timestamp i), pending := none }
    | some pos =>
      if pos.side ≠ side then
        let closed := close config s pos c.openPrice c.timestamp i .signal
        { closed with position := some (openAt config closed side c.openPrice c.timestamp i), pending := none }
      else { s with pending := none }

/-- (2) Stop and take-profit against this bar's range, the stop first. -/
def checkExits (config : BacktestConfig) (s : EngineState) (i : ℕ) (c : OHLCVCandle) : EngineState :=
  match s.position with
  | none => s
  | some pos =>
    match pos.side with
    | .buy =>
      let slPrice := pos.entryFill * (1 - config.stopLossPct)
      let tpPrice := pos.entryFill * (1 + config.takeProfitPct)
      if c.low ≤ slPrice then close config s pos slPrice c.timestamp i .stopLoss
      else if tpPrice ≤ c.high then close config s pos tpPrice c.timestamp i .takeProfit
      else s
    | .sell =>
      let slPrice := pos.entryFill * (1 + config.stopLossPct)
      let tpPrice := pos.entryFill * (1 - config.takeProfitPct)
      if slPrice ≤ c.high then close config s pos slPrice c.timestamp i .stopLoss
      else if c.low ≤ tpPrice then close config s pos tpPrice c.timestamp i .takeProfit
      else s

/-- (3) The equity marked at this bar's close. -/
def markedEquity (s : EngineState) (c : OHLCVCandle) : ℚ :=
  match s.position with
  | none => s.realizedEquity
  | some pos =>
    match pos.side with
    | .buy => s.realizedEquity + (c.close - pos.entryFill) * pos.qty
    | .sell => s.realizedEquity + (pos.entryFill - c.close) * pos.qty

/-- One bar of the loop over `n` candles. -/
def bar (config : BacktestConfig) (decide : CandleBuffer → ℕ → Option OrderSide) (n : ℕ) (s : EngineState)
    (c : OHLCVCandle) (i : ℕ) : EngineState :=
  let added := CandleBufferRegistry.add s.registry c
  let filled := fillPending config { s with registry := added.2 } i c
  let checked := checkExits config filled i c
  let marked :=
    { checked with
      curve := checked.curve ++ [⟨c.timestamp, markedEquity checked c, checked.position.isSome⟩] }
  if i + 1 < n then { marked with pending := decide added.1 i } else marked

/-- The replay loop, from bar `i` on. -/
def replay (config : BacktestConfig) (decide : CandleBuffer → ℕ → Option OrderSide) (n : ℕ) :
    EngineState → ℕ → List OHLCVCandle → EngineState
  | s, _, [] => s
  | s, i, c :: cs => replay config decide n (bar config decide n s c i) (i + 1) cs

/-- Close what is still open at the last close, and show the result in the last point of the curve. -/
def finish (config : BacktestConfig) (s : EngineState) (candles : List OHLCVCandle) : EngineState :=
  match s.position, candles.getLast? with
  | some pos, some last =>
    let closed := close config s pos last.close last.timestamp (candles.length - 1) .eod
    { closed with curve := closed.curve.dropLast ++ [⟨last.timestamp, closed.realizedEquity, false⟩] }
  | _, _ => s

def runWithDecider (candles : List OHLCVCandle) (config : BacktestConfig)
    (decide : CandleBuffer → ℕ → Option OrderSide) : BacktestRun :=
  let s := finish config
    (replay config decide candles.length { realizedEquity := config.initialBalance } 0 candles) candles
  ⟨config, s.curve, s.trades⟩

/-! ### Profits are net of both fees -/

/-- The profit of a trade is the price difference on its side, less the entry fee and the exit fee. -/
def NetOfFees (config : BacktestConfig) (t : Trade) : Prop :=
  t.pnlUsd =
    (match t.side with
      | .buy => (t.exitPrice - t.entryPrice) * t.quantity
      | .sell => (t.entryPrice - t.exitPrice) * t.quantity) -
      config.feePct * (t.entryPrice * t.quantity) - config.feePct * (t.exitPrice * t.quantity)

theorem closedTrade_netOfFees (config : BacktestConfig) (pos : EnginePosition) (exitPriceRaw exitTime : ℚ)
    (exitIndex : ℕ) (reason : ExitReason) :
    NetOfFees config (closedTrade config pos exitPriceRaw exitTime exitIndex reason) := by
  unfold NetOfFees closedTrade
  cases pos.side <;> dsimp only <;> ring

/-- All trades so far are net of both fees. -/
def AllNet (config : BacktestConfig) (s : EngineState) : Prop := ∀ t ∈ s.trades, NetOfFees config t

theorem AllNet.close {config : BacktestConfig} {s : EngineState} (h : AllNet config s) (pos : EnginePosition)
    (exitPriceRaw exitTime : ℚ) (exitIndex : ℕ) (reason : ExitReason) :
    AllNet config (close config s pos exitPriceRaw exitTime exitIndex reason) := by
  intro t ht
  rcases List.mem_append.1 ht with ht | ht
  · exact h t ht
  · rw [List.mem_singleton.1 ht]
    exact closedTrade_netOfFees _ _ _ _ _ _

theorem AllNet.fillPending {config : BacktestConfig} {s : EngineState} (h : AllNet config s) (i : ℕ)
    (c : OHLCVCandle) : AllNet config (fillPending config s i c) := by
  unfold Engine.fillPending
  split
  · exact h
  · split
    · exact h
    · split
      · exact AllNet.close h _ _ _ _ _
      · exact h

theorem AllNet.checkExits {config : BacktestConfig} {s : EngineState} (h : AllNet config s) (i : ℕ)
    (c : OHLCVCandle) : AllNet config (checkExits config s i c) := by
  unfold Engine.checkExits
  split
  · exact h
  · split
    · dsimp only
      split_ifs
      · exact h.close _ _ _ _ _
      · exact h.close _ _ _ _ _
      · exact h
    · dsimp only
      split_ifs
      · exact h.close _ _ _ _ _
      · exact h.close _ _ _ _ _
      · exact h

theorem AllNet.bar {config : BacktestConfig} {decide : CandleBuffer → ℕ → Option OrderSide} {n : ℕ}
    {s : EngineState} (h : AllNet config s) (c : OHLCVCandle) (i : ℕ) :
    AllNet config (bar config decide n s c i) := by
  have hadd : AllNet config { s with registry := (CandleBufferRegistry.add s.registry c).2 } := h
  have hexits := (hadd.fillPending i c).checkExits i c
  unfold Engine.bar
  dsimp only
  split
  · exact hexits
  · exact hexits

theorem AllNet.replay {config : BacktestConfig} {s : EngineState} (h : AllNet config s)
    (decide : CandleBuffer → ℕ → Option OrderSide) (n i : ℕ) (cs : List OHLCVCandle) :
    AllNet config (replay config decide n s i cs) := by
  induction cs generalizing s i with
  | nil => exact h
  | cons c cs ih => exact ih (h.bar c i) (i + 1)

/-- Every trade of every run is net of both fees. -/
theorem trades_netOfFees (candles : List OHLCVCandle) (config : BacktestConfig)
    (decide : CandleBuffer → ℕ → Option OrderSide) :
    ∀ t ∈ (runWithDecider candles config decide).trades, NetOfFees config t := by
  have hstart : AllNet config { realizedEquity := config.initialBalance } := fun t ht => by cases ht
  have hreplay := hstart.replay decide candles.length 0 candles
  unfold runWithDecider finish
  dsimp only
  split
  · exact hreplay.close _ _ _ _ _
  · exact hreplay

end Engine

end MultiAgentTrading
