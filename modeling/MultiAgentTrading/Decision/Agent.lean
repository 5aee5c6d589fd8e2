import MultiAgentTrading.Lib.Rounding
import MultiAgentTrading.Core.Models
import MultiAgentTrading.Core.Settings
import MultiAgentTrading.TechnicalAnalysis.SignalGenerator

/-!
# The decision agent

The agent keeps the latest signal of each kind for each symbol.  A new signal is cached and the cached signals of its
symbol are fused into one, from which a proposal is built if it passes the trend filter and has a direction.  What a
proposal carries is read off by `propose_spec`: its technical signal, if any, is the cached one.
-/

namespace MultiAgentTrading

open Rounding (roundTo)

section Decision

variable {F : Type} [Field F] [LinearOrder F] [IsStrictOrderedRing F] [FloorRing F]

structure SignalAggregator where
  technicalWeight : ℚ := 7 / 10
  sentimentWeight : ℚ := 3 / 10
  minConfidence : ℚ := 6 / 10

namespace SignalAggregator

/-- Whether a signal is neither expired nor below the confidence threshold. -/
def isValid (g : SignalAggregator) (now expiresAt : ℚ) (confidence : F) : Bool :=
  ¬expiresAt < now ∧ g.minConfidence ≤ confidence

/-- The mean of values given with their weights, clamped between `lo` and `hi`. -/
def clampedMean (lo hi : ℤ) (values : List (F × F)) : F :=
  let weightSum := (values.map Prod.snd).sum
  max lo (min hi (if 0 < weightSum then (values.map fun v => v.1 * v.2).sum / weightSum else 0))

private theorem roundTo_clampedMean_mem {lo hi : ℤ} (h : lo ≤ hi) (values : List (F × F)) :
    lo ≤ roundTo 4 (clampedMean lo hi values) ∧ roundTo 4 (clampedMean lo hi values) ≤ hi := by
  have hle : (lo : F) ≤ hi := by exact_mod_cast h
  exact ⟨Rounding.le_roundTo 4 (le_max_left _ _), Rounding.roundTo_le 4 (max_le hle (min_le_left _ _))⟩

/-- `aggregate`, with the readings of the clock by the two expiry checks. -/
def aggregate (g : SignalAggregator) (symbol : String) (technical : Option (TechnicalSignal F))
    (sentiment : Option (SentimentSignal F)) (technicalTime sentimentTime : ℚ) : Option (AggregatedSignal F) :=
  let validTechnical := technical.filter fun s => g.isValid technicalTime s.expiresAt s.confidence
  let validSentiment := sentiment.filter fun s => g.isValid sentimentTime s.expiresAt s.confidence
  if validTechnical.isNone ∧ validSentiment.isNone then none
  else
    let scores := (validTechnical.map fun s => ((directionToScalar s.direction : F), (g.technicalWeight : F))).toList ++
      (validSentiment.map fun s => ((directionToScalar s.direction : F), (g.sentimentWeight : F))).toList
    let confidences := (validTechnical.map fun s => (s.confidence, (g.technicalWeight : F))).toList ++
      (validSentiment.map fun s => (s.confidence, (g.sentimentWeight : F))).toList
    let compositeScore := clampedMean (-1) 1 scores
    let totalInputs := technical.toList.length + sentiment.toList.length
    some {
      symbol := symbol
      direction := scalarToDirection compositeScore
      confidence := roundTo 4 (clampedMean 0 1 confidences)
      compositeScore := roundTo 4 compositeScore
      technicalSignal := validTechnical
      sentimentSignal := validSentiment
      technicalWeight := g.technicalWeight
      sentimentWeight := g.sentimentWeight
      totalSignals := totalInputs
      signalsDiscarded := totalInputs - (validTechnical.toList.length + validSentiment.toList.length)
      confidence_mem := by exact_mod_cast roundTo_clampedMean_mem (show (0 : ℤ) ≤ 1 by decide) confidences
      compositeScore_mem := by exact_mod_cast roundTo_clampedMean_mem (show (-1 : ℤ) ≤ 1 by decide) scores }

end SignalAggregator

structure ProposalBuilder where
  maxPositionPct : ℚ := 2 / 100
  defaultStopLossPct : ℚ := 2 / 100
  defaultTakeProfitPct : ℚ := 4 / 100
  maxOrderSizeUsd : ℚ := 1000

/-- The side of an order in a direction; a neutral signal has none. -/
def SignalDirection.side : SignalDirection → Option OrderSide
  | .strongBuy | .buy => some .buy
  | .neutral => none
  | .sell | .strongSell => some .sell

/-- `build`; there is also no proposal where the model of a proposal refuses the size. -/
def ProposalBuilder.build (b : ProposalBuilder) (signal : AggregatedSignal F) (portfolioValueUsd : ℚ)
    (proposalId : ℕ) : Option (TradeProposal F) := do
  let side ← signal.direction.side
  let requestedSizeUsd := min (b.maxPositionPct * portfolioValueUsd) b.maxOrderSizeUsd
  if h : 0 < requestedSizeUsd then
    return {
      proposalId := proposalId
      symbol := signal.symbol
      side := side
      orderType := .market
      requestedSizeUsd := requestedSizeUsd
      suggestedStopLossPct := some (b.defaultStopLossPct : F)
      suggestedTakeProfitPct := some (b.defaultTakeProfitPct : F)
      signal := signal
      requestedSizeUsd_pos := h }
  else failure

variable (F) in
structure DecisionAgent where
  tradingHalted : Bool := false
  latestTechnical : Dict String (TechnicalSignal F) := .empty
  latestSentiment : Dict String (SentimentSignal F) := .empty

namespace DecisionAgent

/-- The trend filter: given the distance from the EMA-50, no longs below and no shorts above the average.  An entry
that is not a number stops the proposal. -/
def passesTrendFilter (direction : SignalDirection) (technical : Option (TechnicalSignal F)) : Bool :=
  match technical.bind fun s => s.metadata.get? "ema_50_dist" with
  | none | some .none => true
  | some (.other none) => false
  | some (.float dist) | some (.other (some dist)) =>
    ¬(direction.side = some .buy ∧ dist < 0) ∧ ¬(direction.side = some .sell ∧ 0 < dist)

/-- `_try_aggregate_and_propose`, with the readings of the clock by the two expiry checks. -/
def tryAggregateAndPropose (settings : Settings) (a : DecisionAgent F) (symbol : String) (proposalId : ℕ)
    (technicalTime sentimentTime : ℚ) : Option (TradeProposal F) := do
  guard (a.tradingHalted = false)
  let aggregator : SignalAggregator := { minConfidence := settings.technicalAnalysis.minSignalConfidence }
  let technical := a.latestTechnical.get? symbol
  let aggregated ←
    aggregator.aggregate symbol technical (a.latestSentiment.get? symbol) technicalTime sentimentTime
  guard (passesTrendFilter aggregated.direction technical)
  let builder : ProposalBuilder :=
    { maxPositionPct := settings.risk.maxPositionPct, maxOrderSizeUsd := settings.risk.maxOrderSizeUsd }
  builder.build aggregated settings.paperInitialBalanceUsd proposalId

/-- `_on_technical_signal`: cache the signal, then propose. -/
def onTechnicalSignal (settings : Settings) (a : DecisionAgent F) (signal : TechnicalSignal F) (proposalId : ℕ)
    (technicalTime sentimentTime : ℚ) : Option (TradeProposal F) × DecisionAgent F :=
  let a' := { a with latestTechnical := a.latestTechnical.set signal.symbol signal }
  (a'.tryAggregateAndPropose settings signal.symbol proposalId technicalTime sentimentTime, a')

/-- `_on_sentiment_signal`. -/
def onSentimentSignal (settings : Settings) (a : DecisionAgent F) (signal : SentimentSignal F) (proposalId : ℕ)
    (technicalTime sentimentTime : ℚ) : Option (TradeProposal F) × DecisionAgent F :=
  let a' := { a with latestSentiment := a.latestSentiment.set signal.symbol signal }
  (a'.tryAggregateAndPropose settings signal.symbol proposalId technicalTime sentimentTime, a')

/-! ### What a proposal carries -/

omit [IsStrictOrderedRing F] [FloorRing F] in
private theorem build_signal {b : ProposalBuilder} {signal : AggregatedSignal F} {value : ℚ} {proposalId : ℕ}
    {p : TradeProposal F} (h : b.build signal value proposalId = some p) :
    p.signal = signal ∧ p.symbol = signal.symbol := by
  unfold ProposalBuilder.build at h
  simp only [Option.bind_eq_bind, Option.bind_eq_some_iff] at h
  obtain ⟨_, _, h⟩ := h
  split at h
  case isFalse => cases h
  case isTrue => cases h; exact ⟨rfl, rfl⟩

private theorem aggregate_signal {g : SignalAggregator} {symbol : String} {technical : Option (TechnicalSignal F)}
    {sentiment : Option (SentimentSignal F)} {t t' : ℚ} {signal : AggregatedSignal F}
    (h : g.aggregate symbol technical sentiment t t' = some signal) :
    signal.symbol = symbol ∧ ∀ s, signal.technicalSignal = some s → technical = some s := by
  unfold SignalAggregator.aggregate at h
  dsimp only at h
  split at h
  case isTrue => cases h
  case isFalse =>
    cases h
    refine ⟨rfl, fun s hs => ?_⟩
    exact (Option.filter_eq_some_iff.1 hs).1

/-- A proposal is for the symbol asked for, and its technical signal is the cached one. -/
theorem propose_spec {settings : Settings} {a : DecisionAgent F} {symbol : String} {proposalId : ℕ} {t t' : ℚ}
    {p : TradeProposal F} (h : a.tryAggregateAndPropose settings symbol proposalId t t' = some p) :
    p.symbol = symbol ∧ ∀ s, p.signal.technicalSignal = some s → a.latestTechnical.get? symbol = some s := by
  unfold tryAggregateAndPropose at h
  simp only [Option.bind_eq_bind, Option.bind_eq_some_iff] at h
  obtain ⟨_, _, aggregated, haggregate, _, _, hbuild⟩ := h
  obtain ⟨hsignal, hsymbol⟩ := build_signal hbuild
  obtain ⟨hs, ht⟩ := aggregate_signal haggregate
  rw [hsignal]
  exact ⟨hsymbol.trans hs, ht⟩

/-- The signal is cached for some symbol. -/
def Caches (a : DecisionAgent F) (s : TechnicalSignal F) : Prop := ∃ symbol, a.latestTechnical.get? symbol = some s

variable {settings : Settings} {a : DecisionAgent F} {proposalId : ℕ} {t t' : ℚ} {s : TechnicalSignal F}

theorem caches_onTechnicalSignal {signal : TechnicalSignal F}
    (h : (a.onTechnicalSignal settings signal proposalId t t').2.Caches s) : s = signal ∨ a.Caches s := by
  obtain ⟨symbol, hs⟩ := h
  simp only [onTechnicalSignal, Dict.get?_set] at hs
  split at hs
  · exact .inl (Option.some.inj hs).symm
  · exact .inr ⟨symbol, hs⟩

theorem caches_onSentimentSignal {signal : SentimentSignal F}
    (h : (a.onSentimentSignal settings signal proposalId t t').2.Caches s) : a.Caches s := h

/-- What is proposed on a signal is cached. -/
theorem caches_of_onTechnicalSignal {signal : TechnicalSignal F} {p : TradeProposal F}
    (h : (a.onTechnicalSignal settings signal proposalId t t').1 = some p)
    (hs : p.signal.technicalSignal = some s) :
    (a.onTechnicalSignal settings signal proposalId t t').2.Caches s :=
  ⟨signal.symbol, (propose_spec h).2 s hs⟩

theorem caches_of_onSentimentSignal {signal : SentimentSignal F} {p : TradeProposal F}
    (h : (a.onSentimentSignal settings signal proposalId t t').1 = some p)
    (hs : p.signal.technicalSignal = some s) :
    (a.onSentimentSignal settings signal proposalId t t').2.Caches s :=
  ⟨signal.symbol, (propose_spec h).2 s hs⟩

end DecisionAgent

end Decision

end MultiAgentTrading
