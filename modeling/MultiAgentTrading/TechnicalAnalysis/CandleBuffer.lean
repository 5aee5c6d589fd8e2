import Mathlib.Data.List.Pairwise
import Mathlib.Data.List.Sort
import Mathlib.Order.Basic
import MultiAgentTrading.Core.Market
import MultiAgentTrading.Lib.Dict

/-!
# Candle buffers

The rolling buffer of the newest candles of one symbol and timeframe.  That its candles are strictly increasing in
time and at most `capacity` many is part of the type; `add` keeps both.
-/

namespace MultiAgentTrading

/-- `MAX_BUFFER_SIZE`. -/
def maxBufferSize : ℕ := 500

/-- `MIN_WARMUP_CANDLES`. -/
def minWarmupCandles : ℕ := 50

structure CandleBuffer where
  symbol : String
  timeframe : String
  capacity : ℕ := maxBufferSize
  candles : List OHLCVCandle := []
  sorted : candles.Pairwise fun c c' => c.timestamp < c'.timestamp := by simp
  length_le : candles.length ≤ capacity := by simp

namespace CandleBuffer

/-- An empty buffer. -/
def forPair (symbol timeframe : String) : CandleBuffer where
  symbol := symbol
  timeframe := timeframe

/-- The newest `n` elements: what a deque of maximal length `n` keeps. -/
def newest {α : Type*} (n : ℕ) (l : List α) : List α := l.drop (l.length - n)

def size (b : CandleBuffer) : ℕ := b.candles.length

def isWarm (b : CandleBuffer) : Bool := minWarmupCandles ≤ b.size

def latestCandle (b : CandleBuffer) : Option OHLCVCandle := b.candles.getLast?

/-- Whether a candle is newer than every candle of the buffer. -/
def accepts (b : CandleBuffer) (candle : OHLCVCandle) : Bool :=
  match b.latestCandle with
  | none => true
  | some latest => latest.timestamp < candle.timestamp

private theorem sorted_append {b : CandleBuffer} {candle : OHLCVCandle} (h : b.accepts candle = true) :
    (b.candles ++ [candle]).Pairwise fun c c' => c.timestamp < c'.timestamp := by
  rw [List.pairwise_append]
  refine ⟨b.sorted, by simp, ?_⟩
  intro c hc c' hc'
  rw [List.mem_singleton] at hc'
  subst hc'
  rcases List.eq_nil_or_concat b.candles with hnil | ⟨init, last, hlast⟩
  · rw [hnil] at hc
    cases hc
  · have hs := b.sorted
    have hlt : last.timestamp < c'.timestamp := by simpa [accepts, latestCandle, hlast] using h
    rw [hlast, List.concat_eq_append, List.mem_append, List.mem_singleton] at hc
    rw [hlast, List.concat_eq_append, List.pairwise_append] at hs
    rcases hc with hc | rfl
    · exact (hs.2.2 c hc last (by simp)).trans hlt
    · exact hlt

/-- Append a candle, dropping the oldest one at capacity; a candle that is not newer than the newest is ignored. -/
def add (b : CandleBuffer) (candle : OHLCVCandle) : CandleBuffer :=
  if h : b.accepts candle = true then
    { b with
      candles := newest b.capacity (b.candles ++ [candle])
      sorted := (sorted_append h).sublist (List.drop_sublist _ _)
      length_le := by rw [newest, List.length_drop]; omega }
  else b

/-- `add_many`: add the candles of a list from the oldest on. -/
def addMany (b : CandleBuffer) (candles : List OHLCVCandle) : CandleBuffer :=
  (candles.insertionSort fun c c' => c.timestamp ≤ c'.timestamp).foldl add b

end CandleBuffer

/-- The buffers of all symbols and timeframes seen so far. -/
abbrev CandleBufferRegistry := Dict (String × String) CandleBuffer

namespace CandleBufferRegistry

/-- Route a candle to its buffer, creating it if needed; the buffer is returned too. -/
def add (r : CandleBufferRegistry) (candle : OHLCVCandle) : CandleBuffer × CandleBufferRegistry :=
  let key := (candle.symbol, candle.timeframe)
  let buffer := (r.get? key).getD (.forPair candle.symbol candle.timeframe)
  (buffer.add candle, r.set key (buffer.add candle))

/-- The registry after a stream of candles. -/
def addAll (r : CandleBufferRegistry) (candles : List OHLCVCandle) : CandleBufferRegistry :=
  candles.foldl (fun r c => (r.add c).2) r

end CandleBufferRegistry

end MultiAgentTrading
