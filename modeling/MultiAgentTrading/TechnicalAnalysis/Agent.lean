import MultiAgentTrading.TechnicalAnalysis.MlSignalGenerator

/-!
# The technical analysis agent

Every candle received goes to the buffer of its symbol and timeframe.  One of the primary timeframe then triggers a
signal, unless the buffer is cold or the symbol had a signal recently.  The trigger is the arrival: a candle that the
buffer rejects as old triggers a signal on the buffer as it is.
-/

namespace MultiAgentTrading

/-- What the generators of an agent run on: TA-Lib if installed, the square root, the model if one is loaded. -/
structure SignalEngines where
  talib : Option (TaLib ℚ)
  sqrt : ℚ → ℚ
  ml : Option (MLModel ℚ)

/-- The clock as read while a candle is processed: for the suppression check, for the expiry and the timestamp of the
signal, and after it was published. -/
structure CandleClock where
  suppressTime : ℚ
  expiryTime : ℚ
  stampTime : ℚ
  emitTime : ℚ

structure TechnicalAnalysisAgent where
  registry : CandleBufferRegistry := .empty
  lastSignalAt : Dict String ℚ := .empty

namespace TechnicalAnalysisAgent

/-- `_is_signal_suppressed`: the last signal for the symbol is less than a third of the time to live ago. -/
def isSignalSuppressed (cfg : TechnicalAnalysisSettings) (a : TechnicalAnalysisAgent) (symbol : String) (now : ℚ) :
    Bool :=
  match a.lastSignalAt.get? symbol with
  | none => false
  | some last => now - last < cfg.signalTtlSeconds / 3

/-- The signal of the loaded model, or of the rules. -/
def generateSignal (cfg : TechnicalAnalysisSettings) (engines : SignalEngines) (buffer : CandleBuffer)
    (signalId : ℕ) (clock : CandleClock) : Option (TechnicalSignal ℚ) :=
  match engines.ml with
  | some model => MLSignalGenerator.generate cfg model buffer signalId clock.expiryTime clock.stampTime
  | none =>
    SignalGenerator.generate engines.talib engines.sqrt cfg buffer signalId clock.expiryTime clock.stampTime

/-- `_warmup_from_db`: fill the buffers with the rows read. -/
def warmupFromDb (a : TechnicalAnalysisAgent) (rows : List OHLCVCandle) : TechnicalAnalysisAgent :=
  { a with registry := rows.foldl (fun registry c => (registry.add c).2) a.registry }

/-- `_process_candle`: the buffer that took the candle, the signal published, and the agent after it. -/
def processCandle (settings : Settings) (engines : SignalEngines) (a : TechnicalAnalysisAgent)
    (candle : OHLCVCandle) (signalId : ℕ) (clock : CandleClock) :
    CandleBuffer × Option (TechnicalSignal ℚ) × TechnicalAnalysisAgent :=
  let added := a.registry.add candle
  let a' := { a with registry := added.2 }
  if candle.timeframe ≠ settings.marketData.primaryTimeframe then (added.1, none, a')
  else if added.1.isWarm = false then (added.1, none, a')
  else if a'.isSignalSuppressed settings.technicalAnalysis candle.symbol clock.suppressTime then (added.1, none, a')
  else
    match generateSignal settings.technicalAnalysis engines added.1 signalId clock with
    | none => (added.1, none, a')
    | some signal =>
      (added.1, some signal, { a' with lastSignalAt := a'.lastSignalAt.set candle.symbol clock.emitTime })

/-- A signal is stamped with the reading of the clock at its generation, whatever the candles of the buffer. -/
theorem timestamp_of_generateSignal {cfg : TechnicalAnalysisSettings} {engines : SignalEngines}
    {buffer : CandleBuffer} {signalId : ℕ} {clock : CandleClock} {signal : TechnicalSignal ℚ}
    (h : generateSignal cfg engines buffer signalId clock = some signal) : signal.timestamp = clock.stampTime := by
  unfold generateSignal at h
  cases hml : engines.ml with
  | none =>
    rw [hml] at h
    exact (SignalGenerator.generate_spec _ _ _ h).timestamp
  | some model =>
    rw [hml] at h
    exact (MLSignalGenerator.generate_spec h).2.2

/-- A published signal was generated on the warm buffer that took the candle. -/
theorem processCandle_spec {settings : Settings} {engines : SignalEngines} {a : TechnicalAnalysisAgent}
    {candle : OHLCVCandle} {signalId : ℕ} {clock : CandleClock} {signal : TechnicalSignal ℚ}
    (h : (a.processCandle settings engines candle signalId clock).2.1 = some signal) :
    (a.processCandle settings engines candle signalId clock).1.isWarm = true ∧ signal.timestamp = clock.stampTime := by
  unfold processCandle at h ⊢
  dsimp only at h ⊢
  split at h
  · cases h
  · split at h
    · cases h
    case isFalse hwarm =>
      split at h
      · cases h
      · split at h
        · cases h
        case h_2 hgenerate =>
          cases h
          simp_all [timestamp_of_generateSignal hgenerate]

end TechnicalAnalysisAgent

end MultiAgentTrading
