import Mathlib.Data.Rat.Defs
import Mathlib.Algebra.Order.Field.Basic
import Mathlib.Algebra.Order.Ring.Rat
import Mathlib.Tactic.NormNum

/-!
# Settings

The settings groups that the agents read, with their defaults.  What a settings validator checks is a field.
-/

namespace MultiAgentTrading

structure RiskSettings where
  maxPositionPct : ℚ := 2 / 100
  maxOpenPositions : ℤ := 3
  minOrderSizeUsd : ℚ := 10
  maxOrderSizeUsd : ℚ := 1000
  maxDailyLossPct : ℚ := 5 / 100
  maxTotalDrawdownPct : ℚ := 15 / 100
  maxDataStalenessSeconds : ℤ := 60
  maxAgentCrashes : ℤ := 3
  maxPositionPct_mem : 0 < maxPositionPct ∧ maxPositionPct ≤ 1 := by norm_num
  maxDailyLossPct_mem : 0 < maxDailyLossPct ∧ maxDailyLossPct ≤ 1 := by norm_num
  maxTotalDrawdownPct_mem : 0 < maxTotalDrawdownPct ∧ maxTotalDrawdownPct ≤ 1 := by norm_num

/-- The thresholds that the paper position monitor reads, and the timeout and lot sizes of the bridge. -/
structure MT5Settings where
  requestTimeoutMs : ℤ := 5000
  stopLossPct : ℚ := 2 / 100
  takeProfitPct : ℚ := 4 / 100
  minVolume : ℚ := 1 / 100
  maxVolume : ℚ := 10
  volumeStep : ℚ := 1 / 100

structure MarketDataSettings where
  symbols : List String := ["BTC/USDT"]
  ohlcvTimeframes : List String := ["1m", "5m", "1h"]
  ohlcvHistoryLimit : ℕ := 500
  pollIntervalSeconds : ℚ := 5
  deriving DecidableEq

/-- The timeframe whose candles trigger signals: the first one configured. -/
def MarketDataSettings.primaryTimeframe (cfg : MarketDataSettings) : String := cfg.ohlcvTimeframes.head?.getD "1m"

structure TechnicalAnalysisSettings where
  rsiPeriod : ℕ := 14
  rsiOverbought : ℚ := 70
  rsiOversold : ℚ := 30
  macdFast : ℕ := 12
  macdSlow : ℕ := 26
  macdSignal : ℕ := 9
  bbPeriod : ℕ := 20
  bbStdDev : ℚ := 2
  emaShort : ℕ := 9
  emaLong : ℕ := 21
  minSignalConfidence : ℚ := 6 / 10
  signalTtlSeconds : ℤ := 300
  deriving DecidableEq

structure Settings where
  risk : RiskSettings := {}
  marketData : MarketDataSettings := {}
  technicalAnalysis : TechnicalAnalysisSettings := {}
  mt5 : MT5Settings := {}
  isPaperTrading : Bool := true
  paperInitialBalanceUsd : ℚ := 10000

def defaultSettings : Settings := {}

end MultiAgentTrading
