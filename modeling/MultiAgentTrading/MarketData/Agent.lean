import Mathlib.Data.List.Sort
import MultiAgentTrading.Core.Market
import MultiAgentTrading.Core.Settings
import MultiAgentTrading.Lib.Dict

/-!
# The market data agent

What a fetch returns is cut down to the closed candles, sorted, and passed through the normaliser, which drops every
candle whose timestamp it has seen recently; the rest is published.  Polling and the warm-up at startup differ only in
how much they ask for.  `closed_of_publish` says that no candle is published before it has closed.
-/

namespace MultiAgentTrading

/-- `TIMEFRAME_SECONDS`. -/
def timeframeSecondsTable : Dict String ℕ := Dict.empty
  |>.set "1m" 60
  |>.set "3m" 180
  |>.set "5m" 300
  |>.set "15m" 900
  |>.set "30m" 1800
  |>.set "1h" 3600
  |>.set "2h" 7200
  |>.set "4h" 14400
  |>.set "6h" 21600
  |>.set "12h" 43200
  |>.set "1d" 86400
  |>.set "1w" 604800

/-- The length of a timeframe; an unknown one counts as a minute. -/
def timeframeSeconds (timeframe : String) : ℕ := (timeframeSecondsTable.get? timeframe).getD 60

/-- When a candle closed: its open time plus its timeframe. -/
def OHLCVCandle.closedAt (candle : OHLCVCandle) : ℚ := candle.timestamp + timeframeSeconds candle.timeframe

/-- `closed_candles`: drop the candles still forming; those of an unknown timeframe are kept. -/
def closedCandles (candles : List OHLCVCandle) (now : ℚ) : List OHLCVCandle :=
  candles.filter fun c =>
    match timeframeSecondsTable.get? c.timeframe with
    | none => true
    | some seconds => c.timestamp + seconds ≤ now

/-- `DEDUP_BUFFER_SIZE`. -/
def dedupBufferSize : ℕ := 200

/-- The timestamps seen recently and the last candle, for each symbol and timeframe. -/
structure OHLCVNormaliser where
  seen : Dict (String × String) (List ℚ) := .empty
  last : Dict (String × String) OHLCVCandle := .empty

namespace OHLCVNormaliser

def isDuplicate (n : OHLCVNormaliser) (key : String × String) (candle : OHLCVCandle) : Bool :=
  candle.timestamp ∈ (n.seen.get? key).getD []

/-- Record a candle, forgetting the oldest timestamp past the cap. -/
def record (n : OHLCVNormaliser) (key : String × String) (candle : OHLCVCandle) : OHLCVNormaliser :=
  let timestamps := (n.seen.get? key).getD [] ++ [candle.timestamp]
  { seen := n.seen.set key (timestamps.drop (timestamps.length - dedupBufferSize)), last := n.last.set key candle }

/-- Pass sorted candles on, except the duplicates. -/
def emit (key : String × String) : OHLCVNormaliser → List OHLCVCandle → List OHLCVCandle × OHLCVNormaliser
  | n, [] => ([], n)
  | n, c :: cs =>
    if n.isDuplicate key c then emit key n cs
    else
      let rest := emit key (n.record key c) cs
      (c :: rest.1, rest.2)

/-- `process_batch`; the first candle names the symbol and timeframe of the batch. -/
def processBatch (n : OHLCVNormaliser) (candles : List OHLCVCandle) : List OHLCVCandle × OHLCVNormaliser :=
  match candles with
  | [] => ([], n)
  | first :: _ =>
    emit (first.symbol, first.timeframe) n (candles.insertionSort fun c c' => c.timestamp ≤ c'.timestamp)

/-- `process_single`: a batch of one candle. -/
def processSingle (n : OHLCVNormaliser) (candle : OHLCVCandle) : Option OHLCVCandle × OHLCVNormaliser :=
  let out := n.processBatch [candle]
  (out.1.head?, out.2)

/-- Forget what has been seen of a symbol and timeframe. -/
def reset (n : OHLCVNormaliser) (symbol timeframe : String) : OHLCVNormaliser :=
  { seen := n.seen.erase (symbol, timeframe), last := n.last.erase (symbol, timeframe) }

def getLastCandle (n : OHLCVNormaliser) (symbol timeframe : String) : Option OHLCVCandle :=
  n.last.get? (symbol, timeframe)

theorem emit_sublist (key : String × String) (n : OHLCVNormaliser) (candles : List OHLCVCandle) :
    (emit key n candles).1.Sublist candles := by
  induction candles generalizing n with
  | nil => exact List.Sublist.slnil
  | cons c cs ih =>
    unfold emit
    split
    · exact (ih n).cons c
    · exact (ih _).cons_cons c

theorem mem_of_processBatch {n : OHLCVNormaliser} {candles : List OHLCVCandle} {c : OHLCVCandle}
    (h : c ∈ (n.processBatch candles).1) : c ∈ candles := by
  cases candles with
  | nil => cases h
  | cons first rest => exact (List.mem_insertionSort _).1 ((emit_sublist _ _ _).subset h)

end OHLCVNormaliser

namespace MarketDataAgent

/-- What is published of the candles fetched, and the normaliser after it. -/
def publishClosed (n : OHLCVNormaliser) (candles : List OHLCVCandle) (now : ℚ) : List OHLCVCandle × OHLCVNormaliser :=
  n.processBatch (closedCandles candles now)

/-- One round of `_poll_ohlcv`, on the last three candles. -/
def pollOhlcv := publishClosed

/-- `_warmup_history` for one symbol and timeframe, on up to `ohlcvHistoryLimit` candles. -/
def warmupHistory := publishClosed

/-- `_candle_age_seconds`: the time since the last published candle closed. -/
def candleAgeSeconds (n : OHLCVNormaliser) (symbol timeframe : String) (now : ℚ) : Option ℚ :=
  (n.last.get? (symbol, timeframe)).map fun c => max 0 (now - (c.timestamp + timeframeSeconds timeframe))

/-- The age past which a feed counts as stale: one timeframe plus the poll interval. -/
def staleAfter (cfg : MarketDataSettings) (timeframe : String) : ℚ :=
  timeframeSeconds timeframe + cfg.pollIntervalSeconds

/-- The `stale` entry of `health_extra` for a symbol. -/
def isStale (cfg : MarketDataSettings) (n : OHLCVNormaliser) (symbol : String) (now : ℚ) : Bool :=
  match candleAgeSeconds n symbol cfg.primaryTimeframe now with
  | none => false
  | some age => staleAfter cfg cfg.primaryTimeframe < age

/-- No candle of a known timeframe is published before it has closed. -/
theorem closed_of_publish {n : OHLCVNormaliser} {candles : List OHLCVCandle} {now : ℚ} {c : OHLCVCandle}
    (h : c ∈ (publishClosed n candles now).1) (hc : (timeframeSecondsTable.get? c.timeframe).isSome = true) :
    c.closedAt ≤ now := by
  have hmem := OHLCVNormaliser.mem_of_processBatch h
  obtain ⟨seconds, hs⟩ := Option.isSome_iff_exists.1 hc
  obtain ⟨-, hclosed⟩ := List.mem_filter.1 hmem
  rw [OHLCVCandle.closedAt, timeframeSeconds, hs]
  simpa [hs] using hclosed

end MarketDataAgent

end MultiAgentTrading
