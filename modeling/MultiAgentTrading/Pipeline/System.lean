import MultiAgentTrading.Decision.Agent
import MultiAgentTrading.Lib.Runs
import MultiAgentTrading.MarketData.Agent
import MultiAgentTrading.Risk.Agent
import MultiAgentTrading.TechnicalAnalysis.Agent

/-!
# From candles to verdicts

The four agents between the exchange and an approved order, with the channels between them.  Market data publishes
candles, technical analysis answers some of them with signals, the decision agent answers signals with proposals, and
the risk agent decides.  A channel keeps its order but may lose messages and holds each for any time.  Every reading
of the clock is a parameter of the event in which it is taken, so that nothing is assumed of the clock.

Besides the agents the state records which buffer every signal was generated from.
-/

namespace MultiAgentTrading.Pipeline

/-- A signal with the buffer it was generated from. -/
structure Generation where
  signal : TechnicalSignal ℚ
  buffer : CandleBuffer

structure PipelineState where
  normaliser : OHLCVNormaliser := {}
  candles : List OHLCVCandle := []
  technical : TechnicalAnalysisAgent := {}
  signals : List (TechnicalSignal ℚ) := []
  decision : DecisionAgent ℚ := {}
  proposals : List (TradeProposal ℚ) := []
  risk : RiskAgent
  nextId : ℕ := 0
  generations : List Generation := []

/-- The events: a fetch at startup or by a poll, the start of an agent, the loss of a message, the handling of one,
and what reaches the decision and risk agents from elsewhere. -/
inductive PipelineEvent
  | warmup (fetched : List OHLCVCandle) (now : ℚ)
  | poll (fetched : List OHLCVCandle) (now : ℚ)
  | restartMarketData
  | loseCandle
  | warmupFromDb (rows : List OHLCVCandle)
  | processCandle (clock : CandleClock)
  | restartTechnical
  | loseSignal
  | technicalSignal (technicalTime sentimentTime : ℚ)
  | sentimentSignal (signal : SentimentSignal ℚ) (technicalTime sentimentTime : ℚ)
  | haltDecision
  | restartDecision
  | loseProposal
  | evaluate (resetTime ageTime : ℚ)
  | applyResult (result : ExecutionResult)
  | haltRisk
  | restartRisk (now : ℚ)

variable (settings : Settings) (engines : SignalEngines)

namespace PipelineState

def init (now : ℚ) : PipelineState where
  risk := RiskAgent.init settings now

/-- Publish the candles of a fetch. -/
def publish (s : PipelineState) (published : List OHLCVCandle × OHLCVNormaliser) : PipelineState :=
  { s with normaliser := published.2, candles := s.candles ++ published.1 }

/-- The technical analysis agent handles the next candle. -/
def takeCandle (s : PipelineState) (candle : OHLCVCandle) (rest : List OHLCVCandle) (clock : CandleClock) :
    PipelineState :=
  let r := s.technical.processCandle settings engines candle s.nextId clock
  { s with
    candles := rest
    technical := r.2.2
    signals := s.signals ++ r.2.1.toList
    nextId := s.nextId + 1
    generations := s.generations ++ r.2.1.toList.map fun signal => ⟨signal, r.1⟩ }

/-- The decision agent has handled a signal. -/
def propose (s : PipelineState) (r : Option (TradeProposal ℚ) × DecisionAgent ℚ) : PipelineState :=
  { s with decision := r.2, proposals := s.proposals ++ r.1.toList, nextId := s.nextId + 1 }

/-- The verdict on a proposal. -/
def verdict (s : PipelineState) (proposal : TradeProposal ℚ) (resetTime ageTime : ℚ) : Evaluation :=
  s.risk.evaluate settings.risk proposal s.nextId resetTime ageTime

def step (s : PipelineState) : PipelineEvent → Option PipelineState
  | .warmup fetched now => some (s.publish (MarketDataAgent.warmupHistory s.normaliser fetched now))
  | .poll fetched now => some (s.publish (MarketDataAgent.pollOhlcv s.normaliser fetched now))
  | .restartMarketData => some { s with normaliser := {} }
  | .loseCandle => some { s with candles := s.candles.tail }
  | .warmupFromDb rows => some { s with technical := s.technical.warmupFromDb rows }
  | .processCandle clock =>
    match s.candles with
    | [] => none
    | candle :: rest => some (s.takeCandle settings engines candle rest clock)
  | .restartTechnical => some { s with technical := {} }
  | .loseSignal => some { s with signals := s.signals.tail }
  | .technicalSignal technicalTime sentimentTime =>
    match s.signals with
    | [] => none
    | signal :: rest =>
      some (propose { s with signals := rest }
        (s.decision.onTechnicalSignal settings signal s.nextId technicalTime sentimentTime))
  | .sentimentSignal signal technicalTime sentimentTime =>
    some (s.propose (s.decision.onSentimentSignal settings signal s.nextId technicalTime sentimentTime))
  | .haltDecision => some { s with decision := { s.decision with tradingHalted := true } }
  | .restartDecision => some { s with decision := {} }
  | .loseProposal => some { s with proposals := s.proposals.tail }
  | .evaluate resetTime ageTime =>
    match s.proposals with
    | [] => none
    | proposal :: rest =>
      some { s with
        risk := (s.verdict settings proposal resetTime ageTime).agent
        proposals := rest
        nextId := s.nextId + 1 }
  | .applyResult result => some { s with risk := (s.risk.applyExecutionResult result).2 }
  | .haltRisk => some { s with risk := { s.risk with tradingHalted := true } }
  | .restartRisk now => some { s with risk := RiskAgent.init settings now }

/-! ### The events that need a message -/

variable {settings engines} {s s' : PipelineState}

theorem processCandle_of_step {clock : CandleClock} (h : s.step settings engines (.processCandle clock) = some s') :
    ∃ candle rest, s.candles = candle :: rest ∧ s' = s.takeCandle settings engines candle rest clock := by
  unfold step at h
  dsimp only at h
  split at h
  case h_1 => cases h
  case h_2 candle rest hcandles => exact ⟨candle, rest, hcandles, (Option.some.inj h).symm⟩

theorem technicalSignal_of_step {t t' : ℚ} (h : s.step settings engines (.technicalSignal t t') = some s') :
    ∃ signal rest, s.signals = signal :: rest ∧
      s' = propose { s with signals := rest } (s.decision.onTechnicalSignal settings signal s.nextId t t') := by
  unfold step at h
  dsimp only at h
  split at h
  case h_1 => cases h
  case h_2 signal rest hsignals => exact ⟨signal, rest, hsignals, (Option.some.inj h).symm⟩

theorem evaluate_of_step {t t' : ℚ} (h : s.step settings engines (.evaluate t t') = some s') :
    ∃ proposal rest, s.proposals = proposal :: rest ∧
      s' = { s with
        risk := (s.verdict settings proposal t t').agent
        proposals := rest
        nextId := s.nextId + 1 } := by
  unfold step at h
  dsimp only at h
  split at h
  case h_1 => cases h
  case h_2 proposal rest hproposals => exact ⟨proposal, rest, hproposals, (Option.some.inj h).symm⟩

end PipelineState

end MultiAgentTrading.Pipeline
