import Mathlib.Tactic.FieldSimp
import MultiAgentTrading.Decision.Agent

/-!
# Stale signals

The aggregator discards signals that are expired or below the confidence threshold, but the trend filter reads the
cached technical signal, stale or not.  So a stale sentiment signal has no influence on what is proposed, and a stale
technical one has an influence exactly if it stops a trade that the sentiment signal alone asks for:
`stale_signals_harmless_iff`.
-/

namespace MultiAgentTrading

section Decision

variable {F : Type} [Field F] [LinearOrder F]

/-- The values that `_build_reasoning` writes out, with the sources and their weights. -/
structure Reasoning (F : Type) where
  side : OrderSide
  symbol : String
  direction : SignalDirection
  confidence : F
  compositeScore : F
  sizeUsd : ℚ
  sources : List (String × F)

def TradeProposal.reasoning (p : TradeProposal F) : Reasoning F where
  side := p.side
  symbol := p.signal.symbol
  direction := p.signal.direction
  confidence := p.signal.confidence
  compositeScore := p.signal.compositeScore
  sizeUsd := p.requestedSizeUsd
  sources := (p.signal.technicalSignal.map fun _ => ("technical", p.signal.technicalWeight)).toList ++
    (p.signal.sentimentSignal.map fun _ => ("sentiment", p.signal.sentimentWeight)).toList

def AggregatedSignal.withoutCounts (s : AggregatedSignal F) : AggregatedSignal F :=
  { s with totalSignals := 0, signalsDiscarded := 0 }

/-- A proposal up to its id and the counts of signals, and its reasoning. -/
def TradeProposal.upToIds (p : TradeProposal F) : TradeProposal F × Reasoning F :=
  ({ p with proposalId := 0, signal := p.signal.withoutCounts }, p.reasoning)

variable [IsStrictOrderedRing F] [FloorRing F]

theorem scalarToDirection_directionToScalar (d : SignalDirection) :
    scalarToDirection (directionToScalar d : F) = d := by
  cases d <;> norm_num [scalarToDirection, directionToScalar]

namespace SignalAggregator

variable {g : SignalAggregator} (symbol : String)

omit [IsStrictOrderedRing F] [FloorRing F] in
private theorem clampedMean_singleton {lo hi : ℤ} {v w : F} (hw : 0 < w) (hlo : lo ≤ v) (hhi : v ≤ hi) :
    clampedMean lo hi [(v, w)] = v := by
  have hmean : v * w / w = v := by field_simp
  simp [clampedMean, hw, hmean, hlo, hhi]

/-- Without a technical signal the fused one has the direction of the sentiment signal, if that is valid. -/
theorem aggregate_sentiment (hw : 0 < g.sentimentWeight) (u : Option (SentimentSignal F)) (t t' : ℚ) :
    (g.aggregate symbol none u t t').map AggregatedSignal.direction =
      (u.filter fun u => g.isValid t' u.expiresAt u.confidence).map SentimentSignal.direction := by
  cases u with
  | none => rfl
  | some u =>
    have hscore : clampedMean (-1) 1 [((directionToScalar u.direction : F), (g.sentimentWeight : F))] =
        directionToScalar u.direction := by
      refine clampedMean_singleton (by exact_mod_cast hw) ?_ ?_ <;>
        cases u.direction <;> norm_num [directionToScalar]
    cases hvalid : g.isValid t' u.expiresAt u.confidence with
    | false => simp [aggregate, Option.filter, hvalid]
    | true => simp [aggregate, Option.filter, hvalid, hscore, scalarToDirection_directionToScalar]

/-- A stale technical signal only counts. -/
theorem aggregate_stale_technical {s : TechnicalSignal F} {t : ℚ} (h : g.isValid t s.expiresAt s.confidence = false)
    (u : Option (SentimentSignal F)) (t' : ℚ) :
    (g.aggregate symbol (some s) u t t').map AggregatedSignal.withoutCounts =
      (g.aggregate symbol none u t t').map AggregatedSignal.withoutCounts := by
  have hnone : (some s).filter (fun s => g.isValid t s.expiresAt s.confidence) = none := by simp [Option.filter, h]
  simp only [aggregate, hnone, Option.filter_none]
  split <;> rfl

/-- So does a stale sentiment signal. -/
theorem aggregate_stale_sentiment {u : SentimentSignal F} {t' : ℚ}
    (h : g.isValid t' u.expiresAt u.confidence = false) (s : Option (TechnicalSignal F)) (t : ℚ) :
    (g.aggregate symbol s (some u) t t').map AggregatedSignal.withoutCounts =
      (g.aggregate symbol s none t t').map AggregatedSignal.withoutCounts := by
  have hnone : (some u).filter (fun u => g.isValid t' u.expiresAt u.confidence) = none := by simp [Option.filter, h]
  simp only [aggregate, hnone, Option.filter_none]
  split <;> rfl

end SignalAggregator

namespace ProposalBuilder

variable {b : ProposalBuilder} {g : AggregatedSignal F} {value : ℚ} {proposalId : ℕ}

omit [IsStrictOrderedRing F] [FloorRing F] in
theorem build_eq_none_iff : b.build g value proposalId = none ↔
    g.direction = .neutral ∨ min (b.maxPositionPct * value) b.maxOrderSizeUsd ≤ 0 := by
  have hside : g.direction.side = none ↔ g.direction = .neutral := by cases g.direction <;> simp [SignalDirection.side]
  rw [← hside, ← not_lt]
  unfold build
  cases g.direction.side with
  | none => simp
  | some side =>
    simp only [Option.bind_eq_bind, Option.bind_some, reduceCtorEq, false_or]
    by_cases hsize : 0 < min (b.maxPositionPct * value) b.maxOrderSizeUsd
    · simp only [hsize, not_true, iff_false]
      exact Option.some_ne_none _
    · simp only [hsize, not_false_eq_true, iff_true]
      rfl

omit [IsStrictOrderedRing F] [FloorRing F] in
/-- The counts of a signal do not matter for what is proposed on it. -/
theorem build_upToIds {g' : AggregatedSignal F} (h : g.withoutCounts = g'.withoutCounts) (proposalId' : ℕ) :
    (b.build g value proposalId).map TradeProposal.upToIds =
      (b.build g' value proposalId').map TradeProposal.upToIds := by
  have hcounts : ∀ (g : AggregatedSignal F) (proposalId : ℕ), (b.build g value proposalId).map TradeProposal.upToIds =
      (b.build g.withoutCounts value 0).map TradeProposal.upToIds := by
    intro g proposalId
    unfold build
    have hside : g.withoutCounts.direction.side = g.direction.side := rfl
    rw [hside]
    cases g.direction.side with
    | none => rfl
    | some side =>
      simp only [Option.bind_eq_bind, Option.bind_some]
      split <;> rfl
  rw [hcounts g, hcounts g', h]

end ProposalBuilder

namespace DecisionAgent

def aggregatorOf (settings : Settings) : SignalAggregator :=
  { minConfidence := settings.technicalAnalysis.minSignalConfidence }

def builderOf (settings : Settings) : ProposalBuilder :=
  { maxPositionPct := settings.risk.maxPositionPct, maxOrderSizeUsd := settings.risk.maxOrderSizeUsd }

/-- What is proposed on a fused signal. -/
def proposeOn (settings : Settings) (technical : Option (TechnicalSignal F)) (proposalId : ℕ)
    (signal : AggregatedSignal F) : Option (TradeProposal F) :=
  if passesTrendFilter signal.direction technical then
    (builderOf settings).build signal settings.paperInitialBalanceUsd proposalId
  else none

variable {settings : Settings} {a : DecisionAgent F} {symbol : String}

theorem tryAggregateAndPropose_eq (proposalId : ℕ) (t t' : ℚ) :
    a.tryAggregateAndPropose settings symbol proposalId t t' =
      if a.tradingHalted then none
      else ((aggregatorOf settings).aggregate symbol (a.latestTechnical.get? symbol) (a.latestSentiment.get? symbol)
        t t').bind (proposeOn settings (a.latestTechnical.get? symbol) proposalId) := by
  unfold tryAggregateAndPropose
  cases hhalted : a.tradingHalted with
  | true => rfl
  | false =>
    have hbind : ∀ signal : AggregatedSignal F, proposeOn settings (a.latestTechnical.get? symbol) proposalId signal =
        Option.bind (guard (passesTrendFilter signal.direction (a.latestTechnical.get? symbol) = true)) fun _ =>
          (builderOf settings).build signal settings.paperInitialBalanceUsd proposalId := by
      intro signal
      unfold proposeOn
      cases passesTrendFilter signal.direction (a.latestTechnical.get? symbol) <;> rfl
    rw [funext hbind]
    rfl

/-- The state without a cached technical signal for a symbol. -/
def forgetTechnical (a : DecisionAgent F) (symbol : String) : DecisionAgent F :=
  { a with latestTechnical := a.latestTechnical.erase symbol }

/-- The state without a cached sentiment signal for a symbol. -/
def forgetSentiment (a : DecisionAgent F) (symbol : String) : DecisionAgent F :=
  { a with latestSentiment := a.latestSentiment.erase symbol }

/-- What a stale cached signal of either kind changes is at most the ids and the counts: without it, as much is
proposed. -/
structure StaleSignalsHarmless (settings : Settings) (a : DecisionAgent F) (symbol : String)
    (proposalId proposalId' : ℕ) (t t' : ℚ) : Prop where
  technical : ∀ s, a.latestTechnical.get? symbol = some s →
    (aggregatorOf settings).isValid t s.expiresAt s.confidence = false →
      (a.tryAggregateAndPropose settings symbol proposalId t t').map TradeProposal.upToIds =
        ((a.forgetTechnical symbol).tryAggregateAndPropose settings symbol proposalId' t t').map TradeProposal.upToIds
  sentiment : ∀ u, a.latestSentiment.get? symbol = some u →
    (aggregatorOf settings).isValid t' u.expiresAt u.confidence = false →
      (a.tryAggregateAndPropose settings symbol proposalId t t').map TradeProposal.upToIds =
        ((a.forgetSentiment symbol).tryAggregateAndPropose settings symbol proposalId' t t').map TradeProposal.upToIds

/-- The sentiment signal alone asks for a trade: it is valid and has a side, and the configured size is positive. -/
structure SentimentTrades (settings : Settings) (a : DecisionAgent F) (symbol : String) (t' : ℚ)
    (u : SentimentSignal F) : Prop where
  active : a.tradingHalted = false
  cached : a.latestSentiment.get? symbol = some u
  valid : (aggregatorOf settings).isValid t' u.expiresAt u.confidence = true
  sided : u.direction ≠ .neutral
  sized : 0 < min (settings.risk.maxPositionPct * settings.paperInitialBalanceUsd) settings.risk.maxOrderSizeUsd

omit [IsStrictOrderedRing F] [FloorRing F] in
/-- Signals that differ in their counts, and pass the trend filter alike, are proposed on alike. -/
private theorem proposeOn_upToIds {technical technical' : Option (TechnicalSignal F)} {g g' : AggregatedSignal F}
    (h : g.withoutCounts = g'.withoutCounts)
    (hpass : passesTrendFilter g.direction technical = passesTrendFilter g.direction technical')
    (proposalId proposalId' : ℕ) : (proposeOn settings technical proposalId g).map TradeProposal.upToIds =
      (proposeOn settings technical' proposalId' g').map TradeProposal.upToIds := by
  have hdirection : g.direction = g'.direction := by
    show g.withoutCounts.direction = g'.withoutCounts.direction
    rw [h]
  unfold proposeOn
  rw [← hdirection, ← hpass]
  split
  · exact ProposalBuilder.build_upToIds h proposalId'
  · rfl

private theorem stale_sentiment_harmless {proposalId proposalId' : ℕ} {t t' : ℚ} {u : SentimentSignal F}
    (hu : a.latestSentiment.get? symbol = some u)
    (hstale : (aggregatorOf settings).isValid t' u.expiresAt u.confidence = false) :
    (a.tryAggregateAndPropose settings symbol proposalId t t').map TradeProposal.upToIds =
      ((a.forgetSentiment symbol).tryAggregateAndPropose settings symbol proposalId' t t').map
        TradeProposal.upToIds := by
  have hnone : (a.forgetSentiment symbol).latestSentiment.get? symbol = none := Dict.get?_erase_self _ _
  have hsame : (a.forgetSentiment symbol).latestTechnical = a.latestTechnical := rfl
  have hhalted : (a.forgetSentiment symbol).tradingHalted = a.tradingHalted := rfl
  rw [tryAggregateAndPropose_eq, tryAggregateAndPropose_eq, hnone, hsame, hhalted, hu]
  have hfused := SignalAggregator.aggregate_stale_sentiment symbol hstale (a.latestTechnical.get? symbol) t
  split
  case isTrue => rfl
  case isFalse =>
    revert hfused
    cases (aggregatorOf settings).aggregate symbol (a.latestTechnical.get? symbol) (some u) t t' <;>
      cases (aggregatorOf settings).aggregate symbol (a.latestTechnical.get? symbol) none t t' <;> intro hfused
    · rfl
    · cases hfused
    · cases hfused
    · exact proposeOn_upToIds (Option.some.inj hfused) rfl proposalId proposalId'

omit [IsStrictOrderedRing F] [FloorRing F] in
/-- Without a technical signal nothing is proposed if there is no side or no size. -/
private theorem proposeOn_none_iff {g : AggregatedSignal F} {proposalId : ℕ} :
    (proposeOn settings none proposalId g).map TradeProposal.upToIds = none ↔ g.direction = .neutral ∨
      min (settings.risk.maxPositionPct * settings.paperInitialBalanceUsd) settings.risk.maxOrderSizeUsd ≤ 0 := by
  have hpass : passesTrendFilter (F := F) g.direction none = true := rfl
  rw [Option.map_eq_none_iff, proposeOn, if_pos hpass]
  exact ProposalBuilder.build_eq_none_iff

private theorem stale_technical_harmless_iff {proposalId proposalId' : ℕ} {t t' : ℚ} {s : TechnicalSignal F}
    (hs : a.latestTechnical.get? symbol = some s)
    (hstale : (aggregatorOf settings).isValid t s.expiresAt s.confidence = false) :
    (a.tryAggregateAndPropose settings symbol proposalId t t').map TradeProposal.upToIds =
        ((a.forgetTechnical symbol).tryAggregateAndPropose settings symbol proposalId' t t').map
          TradeProposal.upToIds ↔
      ∀ u, SentimentTrades settings a symbol t' u → passesTrendFilter u.direction (some s) = true := by
  have hnone : (a.forgetTechnical symbol).latestTechnical.get? symbol = none := Dict.get?_erase_self _ _
  have hsame : (a.forgetTechnical symbol).latestSentiment = a.latestSentiment := rfl
  have hhalted : (a.forgetTechnical symbol).tradingHalted = a.tradingHalted := rfl
  rw [tryAggregateAndPropose_eq, tryAggregateAndPropose_eq, hnone, hsame, hhalted, hs]
  by_cases hactive : a.tradingHalted = true
  · rw [if_pos hactive, if_pos hactive]
    refine iff_of_true rfl fun u hu => ?_
    rw [hu.active] at hactive
    cases hactive
  rw [if_neg hactive, if_neg hactive]
  rw [Bool.not_eq_true] at hactive
  have hfused := SignalAggregator.aggregate_stale_technical symbol hstale
    (a.latestSentiment.get? symbol) t'
  have hweight : 0 < (aggregatorOf settings).sentimentWeight := by norm_num [aggregatorOf]
  have hdirection := SignalAggregator.aggregate_sentiment symbol hweight (a.latestSentiment.get? symbol) t t'
  cases halone : (aggregatorOf settings).aggregate symbol none (a.latestSentiment.get? symbol) t t' with
  | none =>
    -- no valid sentiment signal: nothing is proposed either way
    rw [halone] at hfused hdirection
    rw [Option.map_eq_none_iff.1 hfused]
    refine iff_of_true rfl fun u hu => ?_
    rw [hu.cached, Option.filter_some, if_pos hu.valid] at hdirection
    cases hdirection
  | some g' =>
    rw [halone] at hfused hdirection
    obtain ⟨g, hg, hcounts⟩ := Option.map_eq_some_iff.1 hfused
    obtain ⟨u, hu, hside⟩ := Option.map_eq_some_iff.1 hdirection.symm
    obtain ⟨hcached, hvalid⟩ := Option.filter_eq_some_iff.1 hu
    have hsame : g.direction = u.direction := by
      rw [hside]
      show g.withoutCounts.direction = g'.withoutCounts.direction
      rw [hcounts]
    rw [hg, Option.bind_some, Option.bind_some]
    by_cases hpass : passesTrendFilter u.direction (some s) = true
    · refine iff_of_true (proposeOn_upToIds hcounts ?_ proposalId proposalId') fun u' hu' => ?_
      · rw [hsame, hpass]
        rfl
      · rw [Option.some.inj (hu'.cached.symm.trans hcached)]
        exact hpass
    · have hstopped : proposeOn settings (some s) proposalId g = none := by
        rw [proposeOn, hsame, if_neg hpass]
      rw [hstopped, Option.map_none, eq_comm, proposeOn_none_iff, ← hside]
      constructor
      · rintro hquiet u' hu'
        rw [Option.some.inj (hu'.cached.symm.trans hcached)] at hu'
        rcases hquiet with hneutral | hsize
        · exact absurd hneutral hu'.sided
        · exact absurd hu'.sized (not_lt.2 hsize)
      · intro hall
        by_contra hloud
        rw [not_or, not_le] at hloud
        exact hpass (hall u ⟨hactive, hcached, hvalid, hloud.1, hloud.2⟩)

end DecisionAgent

open DecisionAgent

/-- A stale signal of either kind has no influence on what is proposed, exactly if the trend filter lets every trade
through, stale technical signal and all, that the sentiment signal alone asks for. -/
theorem stale_signals_harmless_iff (settings : Settings) (a : DecisionAgent F) (symbol : String)
    (proposalId proposalId' : ℕ) (t t' : ℚ) :
    StaleSignalsHarmless settings a symbol proposalId proposalId' t t' ↔
      ∀ s, a.latestTechnical.get? symbol = some s →
        (aggregatorOf settings).isValid t s.expiresAt s.confidence = false →
          ∀ u, SentimentTrades settings a symbol t' u → passesTrendFilter u.direction (some s) = true := by
  constructor
  · intro h s hs hstale
    exact (stale_technical_harmless_iff hs hstale).1 (h.technical s hs hstale)
  · intro h
    exact ⟨fun s hs hstale => (stale_technical_harmless_iff hs hstale).2 (h s hs hstale),
      fun u hu hstale => stale_sentiment_harmless hu hstale⟩

end Decision

theorem full_confidence : (0 : ℚ) ≤ 1 ∧ (1 : ℚ) ≤ 1 := ⟨zero_le_one, le_rfl⟩

/-- A technical signal that expired long ago, given below the average. -/
def expiredTechnical : TechnicalSignal ℚ where
  signalId := 1
  symbol := "BTC/USDT"
  timeframe := "1m"
  timestamp := 0
  expiresAt := 300
  direction := .sell
  confidence := 1
  price := 50000
  metadata := Dict.empty.set "ema_50_dist" (.float (-1 / 100))
  confidence_mem := full_confidence

def validSentiment : SentimentSignal ℚ where
  signalId := 2
  symbol := "BTC/USDT"
  timestamp := 86400
  expiresAt := 90000
  direction := .buy
  confidence := 1
  confidence_mem := full_confidence

/-- An expired technical signal beside a sentiment signal. -/
def agentWithExpired (sentiment : SentimentSignal ℚ) : DecisionAgent ℚ where
  latestTechnical := Dict.empty.set "BTC/USDT" expiredTechnical
  latestSentiment := Dict.empty.set "BTC/USDT" sentiment

/-- A sale passes the trend filter on the expired signal. -/
theorem stale_signals_harmless_iff_sale :
    DecisionAgent.StaleSignalsHarmless defaultSettings (agentWithExpired { validSentiment with direction := .sell })
      "BTC/USDT" 1 2 86400 86400 := by
  refine (stale_signals_harmless_iff _ _ _ _ _ _ _).2 ?_
  intro s hs hstale u hu
  obtain rfl : expiredTechnical = s := Option.some.inj hs
  obtain rfl : { validSentiment with direction := .sell } = u := Option.some.inj hu.cached
  decide +kernel

/-- The expired signal of the day before stops the trade that the sentiment signal asks for. -/
theorem stale_signals_not_harmless :
    ¬ ∀ (settings : Settings) (a : DecisionAgent ℚ) (symbol : String) (proposalId proposalId' : ℕ) (t t' : ℚ),
      DecisionAgent.StaleSignalsHarmless settings a symbol proposalId proposalId' t t' := by
  intro h
  have hharmless := h defaultSettings (agentWithExpired validSentiment) "BTC/USDT" 1 2 86400 86400
  have hsame := hharmless.technical expiredTechnical (by decide +kernel) (by decide +kernel)
  have hproposed := congrArg Option.isSome hsame
  revert hproposed
  decide +kernel

end MultiAgentTrading
