import MultiAgentTrading.Lib.Json

/-!
# The channels of the bus

A message is published on the channel that its model names, and an agent subscribes to channels by their names: the two
are computed apart from each other, from a symbol written with `-` for `/` and a timeframe.  `routed_iff` says that they
meet: a subscriber for some pairs gets the messages of its kind for these pairs and no others.
-/

namespace MultiAgentTrading.Channels

/-- `symbol.replace("/", "-")`. -/
def safeSymbol (symbol : Text) : Text := symbol.map fun c => if c = '/' then '-' else c

def ohlcv (symbol timeframe : Text) : Text := "market.ohlcv.".toList ++ (safeSymbol symbol ++ '.' :: timeframe)
def orderbook (symbol : Text) : Text := "market.orderbook.".toList ++ safeSymbol symbol
def ticker (symbol : Text) : Text := "market.ticker.".toList ++ safeSymbol symbol
def technicalSignal (symbol : Text) : Text := "signal.technical.".toList ++ safeSymbol symbol
def sentimentSignal (symbol : Text) : Text := "signal.sentiment.".toList ++ safeSymbol symbol
def decisionProposal : Text := "decision.proposal".toList
def riskAssessment : Text := "risk.assessment".toList
def executionResult : Text := "execution.result".toList
def systemHeartbeat : Text := "system.heartbeat".toList
def systemCommand : Text := "system.command".toList
def systemRiskOverride : Text := "system.risk_override".toList
def systemAlert : Text := "system.alert".toList

/-- The models that are published, with what their channel depends on. -/
inductive BusMessage
  | ohlcvCandle (symbol timeframe : Text)
  | orderBook (symbol : Text)
  | ticker (symbol : Text)
  | technicalSignal (symbol : Text)
  | sentimentSignal (symbol : Text)
  | aggregatedSignal (symbol : Text)
  | tradeProposal
  | riskAssessment
  | executionResult
  | agentHeartbeat
  | systemCommand
  | riskOverride
  | systemAlert
  deriving DecidableEq

/-- `channel_key` of each model. -/
def BusMessage.channelKey : BusMessage → Text
  | .ohlcvCandle symbol timeframe => "market.ohlcv.".toList ++ (safeSymbol symbol ++ '.' :: timeframe)
  | .orderBook symbol => "market.orderbook.".toList ++ safeSymbol symbol
  | .ticker symbol => "market.ticker.".toList ++ safeSymbol symbol
  | .technicalSignal symbol => "signal.technical.".toList ++ safeSymbol symbol
  | .sentimentSignal symbol => "signal.sentiment.".toList ++ safeSymbol symbol
  | .aggregatedSignal symbol => "decision.aggregated.".toList ++ safeSymbol symbol
  | .tradeProposal => "decision.proposal".toList
  | .riskAssessment => "risk.assessment".toList
  | .executionResult => "execution.result".toList
  | .agentHeartbeat => "system.heartbeat".toList
  | .systemCommand => "system.command".toList
  | .riskOverride => "system.risk_override".toList
  | .systemAlert => "system.alert".toList

/-- What an agent subscribes to: candles for technical analysis, tickers for execution, both kinds of signals for the
decision agent; the rest are subscriptions to a single channel.  No agent listens for commands. -/
inductive Subscription
  | candles (symbols timeframes : List Text)
  | tickers (symbols : List Text)
  | technicalSignals (symbols : List Text)
  | sentimentSignals (symbols : List Text)
  | proposals
  | assessments
  | results
  | heartbeats
  | riskOverrides
  | alerts

/-- The channels a subscription names. -/
def Subscription.channels : Subscription → List Text
  | .candles symbols timeframes => symbols.flatMap fun s => timeframes.map fun t => ohlcv s t
  | .tickers symbols => symbols.map ticker
  | .technicalSignals symbols => symbols.map technicalSignal
  | .sentimentSignals symbols => symbols.map sentimentSignal
  | .proposals => [decisionProposal]
  | .assessments => [riskAssessment]
  | .results => [executionResult]
  | .heartbeats => [systemHeartbeat]
  | .riskOverrides => [systemRiskOverride]
  | .alerts => [systemAlert]

/-- The messages a subscription is for. -/
def Subscription.Wants : Subscription → BusMessage → Prop
  | .candles symbols timeframes, .ohlcvCandle s t => s ∈ symbols ∧ t ∈ timeframes
  | .tickers symbols, .ticker s => s ∈ symbols
  | .technicalSignals symbols, .technicalSignal s => s ∈ symbols
  | .sentimentSignals symbols, .sentimentSignal s => s ∈ symbols
  | .proposals, .tradeProposal => True
  | .assessments, .riskAssessment => True
  | .results, .executionResult => True
  | .heartbeats, .agentHeartbeat => True
  | .riskOverrides, .riskOverride => True
  | .alerts, .systemAlert => True
  | _, _ => False

/-- A symbol that no other symbol is written like, and a timeframe that can be told from the end of a symbol. -/
def PlainSymbol (symbol : Text) : Prop := '-' ∉ symbol
def PlainTimeframe (timeframe : Text) : Prop := '.' ∉ timeframe

instance (symbol : Text) : Decidable (PlainSymbol symbol) := inferInstanceAs (Decidable (_ ∉ _))
instance (timeframe : Text) : Decidable (PlainTimeframe timeframe) := inferInstanceAs (Decidable (_ ∉ _))

def BusMessage.Plain : BusMessage → Prop
  | .ohlcvCandle s t => PlainSymbol s ∧ PlainTimeframe t
  | .orderBook s | .ticker s | .technicalSignal s | .sentimentSignal s | .aggregatedSignal s => PlainSymbol s
  | _ => True

def Subscription.Plain : Subscription → Prop
  | .candles symbols timeframes => (∀ s ∈ symbols, PlainSymbol s) ∧ ∀ t ∈ timeframes, PlainTimeframe t
  | .tickers symbols | .technicalSignals symbols | .sentimentSignals symbols => ∀ s ∈ symbols, PlainSymbol s
  | _ => True

private theorem safeSymbol_injective {s s' : Text} (hs : PlainSymbol s) (hs' : PlainSymbol s')
    (h : safeSymbol s = safeSymbol s') : s = s' := by
  have hback : ∀ t, PlainSymbol t → (safeSymbol t).map (fun c => if c = '-' then '/' else c) = t := by
    intro t ht
    rw [safeSymbol, List.map_map]
    conv_rhs => rw [← List.map_id t]
    refine List.map_congr_left fun c hc => ?_
    have hne : c ≠ '-' := fun heq => ht (heq ▸ hc)
    by_cases hslash : c = '/' <;> simp [hslash, hne]
  rw [← hback s hs, h, hback s' hs']

/-- What follows the last mark, and what precedes it. -/
private theorem append_mark_inj {mark : Char} {l l' r r' : Text} (hr : mark ∉ r) (hr' : mark ∉ r')
    (h : l ++ mark :: r = l' ++ mark :: r') : l = l' ∧ r = r' := by
  rcases List.append_eq_append_iff.mp h with ⟨m, hl, hm⟩ | ⟨m, hl, hm⟩
  · cases m with
    | nil => simp_all
    | cons c m =>
      simp only [List.cons_append, List.cons.injEq] at hm
      exact absurd (by simp [hm.2]) hr
  · cases m with
    | nil => simp_all
    | cons c m =>
      simp only [List.cons_append, List.cons.injEq] at hm
      exact absurd (by simp [hm.2]) hr'

theorem ohlcv_injective {s s' t t' : Text} (hs : PlainSymbol s) (hs' : PlainSymbol s') (ht : PlainTimeframe t)
    (ht' : PlainTimeframe t') : ohlcv s t = ohlcv s' t' ↔ s = s' ∧ t = t' := by
  constructor
  · intro h
    obtain ⟨hsymbol, htimeframe⟩ := append_mark_inj ht ht' (List.append_cancel_left h)
    exact ⟨safeSymbol_injective hs hs' hsymbol, htimeframe⟩
  · rintro ⟨rfl, rfl⟩
    rfl

/-- The first two parts of a channel's name. -/
private def topic (channel : Text) : Text × Text :=
  (channel.takeWhile (· ≠ '.'), ((channel.dropWhile (· ≠ '.')).drop 1).takeWhile (· ≠ '.'))

private inductive Topic
  | ohlcv | orderbook | ticker | technical | sentiment | aggregated | proposal | assessment | result | heartbeat
  | command | riskOverride | alert

private def Topic.parts : Topic → Text × Text
  | .ohlcv => ("market".toList, "ohlcv".toList)
  | .orderbook => ("market".toList, "orderbook".toList)
  | .ticker => ("market".toList, "ticker".toList)
  | .technical => ("signal".toList, "technical".toList)
  | .sentiment => ("signal".toList, "sentiment".toList)
  | .aggregated => ("decision".toList, "aggregated".toList)
  | .proposal => ("decision".toList, "proposal".toList)
  | .assessment => ("risk".toList, "assessment".toList)
  | .result => ("execution".toList, "result".toList)
  | .heartbeat => ("system".toList, "heartbeat".toList)
  | .command => ("system".toList, "command".toList)
  | .riskOverride => ("system".toList, "risk_override".toList)
  | .alert => ("system".toList, "alert".toList)

private def Topic.all : List Topic :=
  [.ohlcv, .orderbook, .ticker, .technical, .sentiment, .aggregated, .proposal, .assessment, .result, .heartbeat,
    .command, .riskOverride, .alert]

private theorem Topic.find?_parts (a : Topic) : Topic.all.find? (fun b => b.parts = a.parts) = some a := by
  cases a <;> rfl

private theorem Topic.eq_of_parts {a b : Topic} (h : a.parts = b.parts) : a = b := by
  have hfind := Topic.find?_parts a
  rw [h, Topic.find?_parts b] at hfind
  exact (Option.some.inj hfind).symm

private def BusMessage.topic : BusMessage → Topic
  | .ohlcvCandle .. => .ohlcv
  | .orderBook _ => .orderbook
  | .ticker _ => .ticker
  | .technicalSignal _ => .technical
  | .sentimentSignal _ => .sentiment
  | .aggregatedSignal _ => .aggregated
  | .tradeProposal => .proposal
  | .riskAssessment => .assessment
  | .executionResult => .result
  | .agentHeartbeat => .heartbeat
  | .systemCommand => .command
  | .riskOverride => .riskOverride
  | .systemAlert => .alert

private def Subscription.topic : Subscription → Topic
  | .candles .. => .ohlcv
  | .tickers _ => .ticker
  | .technicalSignals _ => .technical
  | .sentimentSignals _ => .sentiment
  | .proposals => .proposal
  | .assessments => .assessment
  | .results => .result
  | .heartbeats => .heartbeat
  | .riskOverrides => .riskOverride
  | .alerts => .alert

private theorem topic_channelKey (m : BusMessage) : topic m.channelKey = m.topic.parts := by
  cases m <;> rfl

private theorem topic_of_mem {sub : Subscription} {channel : Text} (h : channel ∈ sub.channels) :
    topic channel = sub.topic.parts := by
  cases sub with
  | candles symbols timeframes =>
    obtain ⟨s, -, h⟩ := List.mem_flatMap.mp h
    obtain ⟨t, -, rfl⟩ := List.mem_map.mp h
    rfl
  | tickers symbols | technicalSignals symbols | sentimentSignals symbols =>
    obtain ⟨s, -, rfl⟩ := List.mem_map.mp h
    rfl
  | proposals | assessments | results | heartbeats | riskOverrides | alerts =>
    rw [List.mem_singleton.mp h]
    rfl

/-- A channel of one symbol is among those of some symbols if the symbol is. -/
private theorem mem_map_channel {pre s : Text} {symbols : List Text} (hsymbols : ∀ s ∈ symbols, PlainSymbol s)
    (hs : PlainSymbol s) : pre ++ safeSymbol s ∈ symbols.map (fun s => pre ++ safeSymbol s) ↔ s ∈ symbols := by
  constructor
  · intro h
    obtain ⟨s', hs', heq⟩ := List.mem_map.mp h
    rwa [← safeSymbol_injective (hsymbols s' hs') hs (List.append_cancel_left heq)]
  · exact fun h => List.mem_map_of_mem h

/-- A subscriber gets exactly the messages it is for. -/
theorem routed_iff {sub : Subscription} {m : BusMessage} (hsub : sub.Plain) (hm : m.Plain) :
    m.channelKey ∈ sub.channels ↔ sub.Wants m := by
  constructor
  · intro h
    have htopic : sub.topic = m.topic := Topic.eq_of_parts ((topic_of_mem h).symm.trans (topic_channelKey m))
    cases sub <;> cases m <;> first | (cases htopic; done) | skip
    case candles.ohlcvCandle symbols timeframes s t =>
      obtain ⟨s', hs', h⟩ := List.mem_flatMap.mp h
      obtain ⟨t', ht', heq⟩ := List.mem_map.mp h
      obtain ⟨rfl, rfl⟩ := (ohlcv_injective (hsub.1 s' hs') hm.1 (hsub.2 t' ht') hm.2).mp heq
      exact ⟨hs', ht'⟩
    case tickers.ticker | technicalSignals.technicalSignal | sentimentSignals.sentimentSignal =>
      exact (mem_map_channel hsub hm).mp h
    all_goals trivial
  · intro h
    cases sub <;> cases m <;> first | exact h.elim | skip
    case candles.ohlcvCandle symbols timeframes s t =>
      exact List.mem_flatMap.mpr ⟨s, h.1, List.mem_map.mpr ⟨t, h.2, rfl⟩⟩
    case tickers.ticker | technicalSignals.technicalSignal | sentimentSignals.sentimentSignal =>
      exact (mem_map_channel hsub hm).mpr h
    all_goals exact List.mem_singleton_self _

/-- A candle reaches the subscriber of its pair, an order book of the same symbol does not. -/
theorem hourly_candle_routed :
    let sub : Subscription := .candles ["BTC/USDT".toList] ["1h".toList]
    (BusMessage.ohlcvCandle "BTC/USDT".toList "1h".toList).channelKey ∈ sub.channels ∧
      (BusMessage.orderBook "BTC/USDT".toList).channelKey ∉ sub.channels := by
  have hsub : (Subscription.candles ["BTC/USDT".toList] ["1h".toList]).Plain := ⟨by decide, by decide⟩
  have hcandle : (BusMessage.ohlcvCandle "BTC/USDT".toList "1h".toList).Plain := ⟨by decide, by decide⟩
  have hbook : (BusMessage.orderBook "BTC/USDT".toList).Plain := by
    change PlainSymbol _
    decide
  exact ⟨(routed_iff hsub hcandle).mpr ⟨List.mem_singleton_self _, List.mem_singleton_self _⟩,
    fun h => (routed_iff hsub hbook).mp h⟩

end MultiAgentTrading.Channels
