import Mathlib.Data.Rat.Defs
import Mathlib.Algebra.Order.Ring.Rat

/-!
# Market data

A candle is stamped with its open time, in seconds.  What its validator checks is a field.
-/

namespace MultiAgentTrading

structure OHLCVCandle where
  symbol : String
  timeframe : String
  timestamp : ℚ
  openPrice : ℚ
  high : ℚ
  low : ℚ
  close : ℚ
  volume : ℚ
  low_le_high : low ≤ high
  high_ge : openPrice ≤ high ∧ close ≤ high
  low_le : low ≤ openPrice ∧ low ≤ close
  volume_nonneg : 0 ≤ volume
  deriving DecidableEq

/-- A candle whose four prices are equal. -/
def flatCandle (symbol timeframe : String) (timestamp price volume : ℚ) (h : 0 ≤ volume) : OHLCVCandle where
  symbol := symbol
  timeframe := timeframe
  timestamp := timestamp
  openPrice := price
  high := price
  low := price
  close := price
  volume := volume
  low_le_high := le_rfl
  high_ge := ⟨le_rfl, le_rfl⟩
  low_le := ⟨le_rfl, le_rfl⟩
  volume_nonneg := h

theorem unit_volume_nonneg : (0 : ℚ) ≤ 1 := zero_le_one

end MultiAgentTrading
