import MultiAgentTrading.Decision.Agent
import MultiAgentTrading.Lib.Runs
import MultiAgentTrading.Risk.DrawdownMonitor
import MultiAgentTrading.Risk.PositionSizer

/-!
# The offline replay

`run_backtest` sends the candles of a history through the signal generator, the aggregator and the risk limits, and
fills at the close.  It runs the components of the live agents, and with them their clock: a turn takes the readings
of the clock along with its candle.  A turn is undefined where the script divides by a close of zero.
-/

namespace MultiAgentTrading

/-- The UTC day that a candle opens on. -/
def OHLCVCandle.date (c : OHLCVCandle) : ℤ := utcDate c.timestamp

structure TradeRecord where
  symbol : String
  side : OrderSide
  entryPrice : ℚ
  exitPrice : ℚ
  quantity : ℚ
  pnl : ℚ
  entryTime : ℚ
  exitTime : ℚ
  deriving DecidableEq

def TradeRecord.exitDate (t : TradeRecord) : ℤ := utcDate t.exitTime

/-- An entry of `open_positions`. -/
structure ReplayPosition where
  entryPrice : ℚ
  quantity : ℚ
  side : OrderSide
  entryTime : ℚ
  deriving DecidableEq

/-- The result, without the arguments of the run that it repeats. -/
structure BacktestResult where
  finalBalance : ℚ
  totalTrades : ℕ
  winningTrades : ℕ
  losingTrades : ℕ
  totalPnl : ℚ
  maxDrawdown : ℚ
  sharpeRatio : ℚ
  trades : List TradeRecord
  deriving DecidableEq

/-- What a turn reads from outside: the clock for the expiry and the timestamp of the signal, for the aggregator and
for the daily limit, and two fresh ids. -/
structure TurnReadings where
  expiryTime : ℚ
  stampTime : ℚ
  aggregateTime : ℚ
  checkTime : ℚ
  signalId : ℕ
  proposalId : ℕ

/-- The variables of the loop. -/
structure Replay where
  bufferRegistry : CandleBufferRegistry := .empty
  drawdownMonitor : DrawdownMonitor
  openPositions : Dict String ReplayPosition := .empty
  trades : List TradeRecord := []
  peakPortfolio : ℚ
  maxDrawdown : ℚ := 0

/-- `_compute_sharpe`: the profits are grouped by the day of the exit. -/
def computeSharpe (sqrt : ℚ → ℚ) (trades : List TradeRecord) (initialBalance : ℚ) : ℚ :=
  if trades.length < 2 then 0
  else
    let daily : Dict ℤ ℚ :=
      trades.foldl (fun daily t => daily.set t.exitDate ((daily.get? t.exitDate).getD 0 + t.pnl)) .empty
    let returns := daily.values.map fun v => v / initialBalance
    if returns.length < 2 then 0
    else
      let meanR := returns.sum / returns.length
      let varianceR : ℚ := (returns.map fun r => (r - meanR) ^ 2).sum / (returns.length - 1)
      let stdR := sqrt varianceR
      if stdR = 0 then 0 else meanR / stdR * sqrt 252

namespace Replay

def portfolioValueUsd (s : Replay) : ℚ := s.drawdownMonitor.state.portfolioValueUsd

/-! ### Closing and opening -/

/-- The round trip of a position that is closed at the close of a candle. -/
def roundTrip (symbol : String) (p : ReplayPosition) (candle : OHLCVCandle) : TradeRecord where
  symbol := symbol
  side := p.side
  entryPrice := p.entryPrice
  exitPrice := candle.close
  quantity := p.quantity
  pnl :=
    match p.side with
    | .buy => (candle.close - p.entryPrice) * p.quantity
    | .sell => (p.entryPrice - candle.close) * p.quantity
  entryTime := p.entryTime
  exitTime := candle.timestamp

/-- Realise a position in the ledger and record its round trip. -/
def close (s : Replay) (symbol : String) (p : ReplayPosition) (candle : OHLCVCandle) : Replay :=
  let trade := roundTrip symbol p candle
  { s with
    drawdownMonitor := s.drawdownMonitor.closePosition symbol trade.pnl
    trades := s.trades ++ [trade] }

/-- Update the peak and the drawdown from it. -/
def trackDrawdown (s : Replay) : Replay :=
  let currentPortfolio := s.portfolioValueUsd
  if s.peakPortfolio < currentPortfolio then { s with peakPortfolio := currentPortfolio }
  else if 0 < s.peakPortfolio then
    { s with maxDrawdown := max s.maxDrawdown ((s.peakPortfolio - currentPortfolio) / s.peakPortfolio) }
  else s

def closeOpposite (s : Replay) (candle : OHLCVCandle) (newSide : OrderSide) : Replay :=
  match s.openPositions.get? candle.symbol with
  | none => s
  | some p =>
    if p.side ≠ newSide then
      let closed := s.close candle.symbol p candle
      { closed with openPositions := s.openPositions.erase candle.symbol }.trackDrawdown
    else s

/-- Open a position at the close of a candle, which the size is divided by; the ledger is told no side. -/
def openAt (s : Replay) (candle : OHLCVCandle) (newSide : OrderSide) (sizeUsd : ℚ) : Option Replay :=
  if candle.close = 0 then none
  else some
    { s with
      drawdownMonitor := s.drawdownMonitor.openPosition candle.symbol sizeUsd none
      openPositions :=
        s.openPositions.set candle.symbol ⟨candle.close, sizeUsd / candle.close, newSide, candle.timestamp⟩ }

section Turn

variable (settings : Settings) (talib : Option (TaLib ℚ)) (sqrt : ℚ → ℚ)

def sizer : PositionSizer where
  maxPositionPct := settings.risk.maxPositionPct
  minOrderUsd := settings.risk.minOrderSizeUsd
  maxOrderUsd := settings.risk.maxOrderSizeUsd

def builder : ProposalBuilder :=
  { maxPositionPct := settings.risk.maxPositionPct, maxOrderSizeUsd := settings.risk.maxOrderSizeUsd }

/-- Close what is held the other way, and open unless something is still held. -/
def trade (s : Replay) (candle : OHLCVCandle) (newSide : OrderSide) (stopPct portfolioValue : ℚ) : Option Replay :=
  let s' := s.closeOpposite candle newSide
  if s'.openPositions.contains candle.symbol then some s'
  else
    let sizeUsd := (sizer settings).calculate portfolioValue stopPct
    if sizeUsd ≤ 0 then some s' else s'.openAt candle newSide sizeUsd

/-- The signal of a buffer that has warmed up. -/
def techSignal (buffer : CandleBuffer) (r : TurnReadings) : Option (TechnicalSignal ℚ) :=
  if buffer.isWarm then
    SignalGenerator.generate talib sqrt settings.technicalAnalysis buffer r.signalId r.expiryTime r.stampTime
  else none

def aggSignal (buffer : CandleBuffer) (candle : OHLCVCandle) (r : TurnReadings) : Option (AggregatedSignal ℚ) :=
  let aggregator : SignalAggregator := { minConfidence := settings.technicalAnalysis.minSignalConfidence }
  (techSignal settings talib sqrt buffer r).bind fun signal =>
    aggregator.aggregate candle.symbol (some signal) none r.aggregateTime r.aggregateTime

/-- Build a proposal from a signal that the limits let through, and trade on it. -/
def propose (s : Replay) (candle : OHLCVCandle) (signal : AggregatedSignal ℚ) (proposalId : ℕ) : Option Replay :=
  match (builder settings).build signal s.portfolioValueUsd proposalId with
  | none => some s
  | some proposal =>
    s.trade settings candle proposal.side (PositionSizer.getStopLossPct proposal) s.portfolioValueUsd

/-- Check the limits. -/
def onSignal (s : Replay) (candle : OHLCVCandle) (signal : AggregatedSignal ℚ) (r : TurnReadings) : Option Replay :=
  let check := s.drawdownMonitor.dailyLossLimitBreached r.checkTime
  let s' := { s with drawdownMonitor := check.2 }
  if check.1 ∨ s'.drawdownMonitor.totalDrawdownLimitBreached then some s'
  else s'.propose settings candle signal r.proposalId

/-- The turn of a candle. -/
def turn (clock : OHLCVCandle → TurnReadings) (s : Replay) (candle : OHLCVCandle) : Option Replay :=
  let added := s.bufferRegistry.add candle
  let s' := { s with bufferRegistry := added.2 }
  match aggSignal settings talib sqrt added.1 candle (clock candle) with
  | none => some s'
  | some signal => s'.onSignal settings candle signal (clock candle)

/-- The variables before the first candle; `start` is the reading of the clock when the monitor is built. -/
def init (initialBalance start : ℚ) : Replay where
  drawdownMonitor := .init initialBalance settings.risk.maxDailyLossPct settings.risk.maxTotalDrawdownPct start
  peakPortfolio := initialBalance

/-! ### The whole run -/

/-- Close the positions that remain at the close of the last candle. -/
def closeRemaining (s : Replay) (lastCandle : OHLCVCandle) : Replay :=
  s.openPositions.entries.foldl (fun s e => s.close e.1 e.2 lastCandle) s

def result (s : Replay) (initialBalance : ℚ) : BacktestResult where
  finalBalance := s.portfolioValueUsd
  totalTrades := s.trades.length
  winningTrades := (s.trades.filter fun t => 0 < t.pnl).length
  losingTrades := (s.trades.filter fun t => t.pnl ≤ 0).length
  totalPnl := s.portfolioValueUsd - initialBalance
  maxDrawdown := s.maxDrawdown
  sharpeRatio := computeSharpe sqrt s.trades initialBalance
  trades := s.trades

/-- `run_backtest` on the candles that the database has. -/
def runBacktest (initialBalance start : ℚ) (clock : OHLCVCandle → TurnReadings) (candles : List OHLCVCandle) :
    Option BacktestResult :=
  match candles.getLast? with
  | none => some ⟨initialBalance, 0, 0, 0, 0, 0, 0, []⟩
  | some lastCandle =>
    (Runs.exec (turn settings talib sqrt clock) (init settings initialBalance start) candles).map fun s =>
      (s.closeRemaining lastCandle).result sqrt initialBalance

end Turn

end Replay

end MultiAgentTrading
