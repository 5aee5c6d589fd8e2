import MultiAgentTrading.TechnicalAnalysis.Agent
import MultiAgentTrading.TechnicalAnalysis.BufferHistory

/-!
# Candles that the buffer rejects

A candle that is not newer than the newest one of its buffer changes no buffer, and still the agent goes on with it.
`rejected_candle_silent_iff` says when such a candle makes no difference: unless the buffer is warm, the last signal is
old enough and the generator finds a signal on what the buffer already holds.
-/

namespace MultiAgentTrading

/-- A signal without what differs between two runs: its identifier and its times. -/
def TechnicalSignal.withoutStamps (s : TechnicalSignal ℚ) : TechnicalSignal ℚ :=
  { s with signalId := 0, timestamp := 0, expiresAt := 0 }

/-- A candle that arrives, the identifier of a signal that it may trigger, and the clock as it is read meanwhile. -/
structure CandleMessage where
  candle : OHLCVCandle
  signalId : ℕ
  clock : CandleClock

/-- The same candle at the same time; what the signal would be stamped with may differ. -/
structure CandleMessage.SameArrival (m m' : CandleMessage) : Prop where
  candle : m.candle = m'.candle
  suppressTime : m.clock.suppressTime = m'.clock.suppressTime
  emitTime : m.clock.emitTime = m'.clock.emitTime

theorem CandleMessage.SameArrival.refl (m : CandleMessage) : m.SameArrival m := ⟨rfl, rfl, rfl⟩

namespace TechnicalAnalysisAgent

variable (settings : Settings) (engines : SignalEngines)

/-- The signal published on a candle, if any. -/
def publishedOn (a : TechnicalAnalysisAgent) (m : CandleMessage) : Option (TechnicalSignal ℚ) :=
  (a.processCandle settings engines m.candle m.signalId m.clock).2.1

def after (a : TechnicalAnalysisAgent) (m : CandleMessage) : TechnicalAnalysisAgent :=
  (a.processCandle settings engines m.candle m.signalId m.clock).2.2

/-- The signals published on a stream of candles. -/
def published : TechnicalAnalysisAgent → List CandleMessage → List (TechnicalSignal ℚ)
  | _, [] => []
  | a, m :: ms => (a.publishedOn settings engines m).toList ++ published (a.after settings engines m) ms

def afterAll (a : TechnicalAnalysisAgent) (ms : List CandleMessage) : TechnicalAnalysisAgent :=
  ms.foldl (after settings engines) a

/-- Whether a candle that arrives with the buffer of its pair as it is triggers a signal: only a primary one does, on a
warm buffer, when the last signal is not recent and the generator finds one. -/
def Triggers (a : TechnicalAnalysisAgent) (b : CandleBuffer) (m : CandleMessage) : Prop :=
  m.candle.timeframe = settings.marketData.primaryTimeframe ∧ b.isWarm = true ∧
    a.isSignalSuppressed settings.technicalAnalysis m.candle.symbol m.clock.suppressTime = false ∧
      (generateSignal settings.technicalAnalysis engines b m.signalId m.clock).isSome = true

/-! ### One candle -/

/-- What a candle does once its buffer is found or created: if it triggers a signal, this is published and its time is
noted. -/
theorem processCandle_eq (a : TechnicalAnalysisAgent) (m : CandleMessage) {b : CandleBuffer}
    {r : CandleBufferRegistry} (hadd : a.registry.add m.candle = (b, r)) :
    (Triggers settings engines a b m ∧
      a.publishedOn settings engines m = generateSignal settings.technicalAnalysis engines b m.signalId m.clock ∧
      a.after settings engines m = ⟨r, a.lastSignalAt.set m.candle.symbol m.clock.emitTime⟩) ∨
    (¬Triggers settings engines a b m ∧ a.publishedOn settings engines m = none ∧
      a.after settings engines m = ⟨r, a.lastSignalAt⟩) := by
  have hsuppressed : isSignalSuppressed settings.technicalAnalysis { a with registry := r } m.candle.symbol
      m.clock.suppressTime = a.isSignalSuppressed settings.technicalAnalysis m.candle.symbol m.clock.suppressTime := rfl
  unfold publishedOn after processCandle
  dsimp only
  rw [hadd, hsuppressed]
  dsimp only
  by_cases hframe : m.candle.timeframe = settings.marketData.primaryTimeframe
  case neg => exact .inr ⟨fun h => hframe h.1, by rw [if_pos hframe], by rw [if_pos hframe]⟩
  rw [if_neg (not_not.2 hframe)]
  cases hwarm : b.isWarm with
  | false => exact .inr ⟨fun h => Bool.noConfusion (hwarm.symm.trans h.2.1), rfl, rfl⟩
  | true =>
    rw [if_neg Bool.noConfusion]
    cases hrecent : a.isSignalSuppressed settings.technicalAnalysis m.candle.symbol m.clock.suppressTime with
    | true => exact .inr ⟨fun h => Bool.noConfusion (hrecent.symm.trans h.2.2.1), rfl, rfl⟩
    | false =>
      rw [if_neg Bool.noConfusion]
      cases hsignal : generateSignal settings.technicalAnalysis engines b m.signalId m.clock with
      | none => exact .inr ⟨fun h => Option.not_isSome_iff_eq_none.2 hsignal h.2.2.2, rfl, rfl⟩
      | some signal => exact .inl ⟨⟨hframe, hwarm, hrecent, by rw [hsignal]; rfl⟩, rfl, rfl⟩

/-- A rejected candle leaves the registry as it is. -/
theorem add_of_rejected {r : CandleBufferRegistry} {c : OHLCVCandle} {b : CandleBuffer}
    (hb : r.get? c.pair = some b) (hrejected : b.accepts c = false) : r.add c = (b, r) := by
  have hget : (r.get? (c.symbol, c.timeframe)).getD (.forPair c.symbol c.timeframe) = b := by
    rw [show r.get? (c.symbol, c.timeframe) = some b from hb, Option.getD_some]
  unfold CandleBufferRegistry.add
  dsimp only
  rw [hget, CandleBuffer.add_of_rejected hrejected]
  exact congrArg (b, ·) (Dict.set_of_get? hb)

/-- A signal depends on its identifier and on the clock only by its stamps. -/
theorem generateSignal_stamps (cfg : TechnicalAnalysisSettings) (engines : SignalEngines) (b : CandleBuffer)
    (signalId signalId' : ℕ) (clock clock' : CandleClock) :
    (generateSignal cfg engines b signalId clock).map TechnicalSignal.withoutStamps =
      (generateSignal cfg engines b signalId' clock').map TechnicalSignal.withoutStamps := by
  unfold generateSignal
  cases engines.ml with
  | none =>
    -- both generators write the stamps into the record that they build last
    dsimp only
    unfold SignalGenerator.generate
    simp only [Option.bind_eq_bind, Option.map_bind, Function.comp_def, apply_dite (Option.map _)]
    rfl
  | some model =>
    dsimp only
    unfold MLSignalGenerator.generate
    simp only [Option.bind_eq_bind, Option.map_bind, Function.comp_def]
    refine Option.bind_congr fun features _ => Option.bind_congr fun dist _ => Option.bind_congr fun proba _ => ?_
    split
    · simp only [Option.map_bind, Function.comp_def, apply_dite (Option.map _)]
      rfl
    · rfl

/-! ### A stream of candles -/

theorem published_append (a : TechnicalAnalysisAgent) (ms ms' : List CandleMessage) :
    published settings engines a (ms ++ ms') =
      published settings engines a ms ++ published settings engines (a.afterAll settings engines ms) ms' := by
  induction ms generalizing a with
  | nil => rfl
  | cons m ms ih =>
    rw [List.cons_append, published, published, ih, List.append_assoc]
    rfl

theorem triggers_congr (a : TechnicalAnalysisAgent) (b : CandleBuffer) {m m' : CandleMessage}
    (h : m.SameArrival m') : Triggers settings engines a b m ↔ Triggers settings engines a b m' := by
  have hstamps := congrArg Option.isSome
    (generateSignal_stamps settings.technicalAnalysis engines b m.signalId m'.signalId m.clock m'.clock)
  rw [Option.isSome_map, Option.isSome_map] at hstamps
  unfold Triggers
  rw [h.candle, h.suppressTime, hstamps]

/-- The same arrival has the same effect, up to the stamps of the signal. -/
theorem sameArrival_one (a : TechnicalAnalysisAgent) {m m' : CandleMessage} (h : m.SameArrival m') :
    (a.publishedOn settings engines m).map TechnicalSignal.withoutStamps =
        (a.publishedOn settings engines m').map TechnicalSignal.withoutStamps ∧
      a.after settings engines m = a.after settings engines m' := by
  obtain ⟨b, r, hadd⟩ : ∃ b r, a.registry.add m.candle = (b, r) := ⟨_, _, rfl⟩
  have htriggers := triggers_congr settings engines a b h
  rcases a.processCandle_eq settings engines m hadd with ⟨ht, hp, ha⟩ | ⟨ht, hp, ha⟩ <;>
    rcases a.processCandle_eq settings engines m' (h.candle ▸ hadd) with
      ⟨ht', hp', ha'⟩ | ⟨ht', hp', ha'⟩
  · rw [hp, hp', ha, ha', h.candle, h.emitTime]
    exact ⟨generateSignal_stamps _ _ _ _ _ _ _, rfl⟩
  · exact absurd (htriggers.1 ht) ht'
  · exact absurd (htriggers.2 ht') ht
  · rw [hp, hp', ha, ha']
    exact ⟨rfl, rfl⟩

/-- Two streams of the same arrivals have the same signals, up to their stamps. -/
theorem published_sameArrival (a : TechnicalAnalysisAgent) {ms ms' : List CandleMessage}
    (h : List.Forall₂ CandleMessage.SameArrival ms ms') :
    (published settings engines a ms).map TechnicalSignal.withoutStamps =
      (published settings engines a ms').map TechnicalSignal.withoutStamps := by
  induction h generalizing a with
  | nil => rfl
  | cons hm _ ih =>
    obtain ⟨hpublished, hafter⟩ := a.sameArrival_one settings engines hm
    rw [published, published, List.map_append, List.map_append, ← Option.toList_map, ← Option.toList_map, hpublished,
      hafter, ih]

end TechnicalAnalysisAgent

/-- An inserted candle is silent: no signal is published on it, and the signals of the stream are those of the stream
without it, up to their stamps. -/
structure InsertedSilently (settings : Settings) (engines : SignalEngines) (a : TechnicalAnalysisAgent)
    (before : List CandleMessage) (m : CandleMessage) (later : List CandleMessage) : Prop where
  none_on : (a.afterAll settings engines before).publishedOn settings engines m = none
  same : ∀ ms, List.Forall₂ CandleMessage.SameArrival (before ++ later) ms →
    (a.published settings engines (before ++ m :: later)).map TechnicalSignal.withoutStamps =
      (a.published settings engines ms).map TechnicalSignal.withoutStamps

open TechnicalAnalysisAgent in
/-- A rejected candle in a stream: it is silent exactly if it does not trigger a signal on the buffer as it is. -/
private theorem insertedSilently_iff {settings : Settings} {engines : SignalEngines} {a : TechnicalAnalysisAgent}
    {before : List CandleMessage} {m : CandleMessage} {b : CandleBuffer}
    (hb : (a.afterAll settings engines before).registry.get? m.candle.pair = some b)
    (hrejected : b.accepts m.candle = false) (later : List CandleMessage) :
    InsertedSilently settings engines a before m later ↔
      ¬(a.afterAll settings engines before).Triggers settings engines b m := by
  have hadd := add_of_rejected hb hrejected
  rcases processCandle_eq settings engines _ m hadd with
    ⟨ht, hp, -⟩ | ⟨ht, hp, hafter⟩
  · refine iff_of_false (fun h => ?_) (not_not.2 ht)
    have hsome := ht.2.2.2
    rw [← hp, h.none_on] at hsome
    cases hsome
  · refine iff_of_true ⟨hp, fun ms hms => ?_⟩ ht
    rw [← published_sameArrival settings engines a hms, published_append, published_append, published, hp, hafter]
    rfl

/-- When a rejected candle triggers no signal, for every stream, every place in it and every clock: exactly if its
timeframe is not the primary one, or its buffer is cold, or the last signal of its symbol is recent, or the generator
finds no signal on the candles that the buffer already holds. -/
theorem rejected_candle_silent_iff (settings : Settings) (engines : SignalEngines) (a : TechnicalAnalysisAgent)
    (before : List CandleMessage) (m : CandleMessage) (later : List CandleMessage) {b : CandleBuffer}
    (hb : (a.afterAll settings engines before).registry.get? m.candle.pair = some b)
    (hrejected : b.accepts m.candle = false) :
    InsertedSilently settings engines a before m later ↔
      m.candle.timeframe ≠ settings.marketData.primaryTimeframe ∨ b.isWarm = false ∨
        (a.afterAll settings engines before).isSignalSuppressed settings.technicalAnalysis m.candle.symbol
          m.clock.suppressTime = true ∨
        TechnicalAnalysisAgent.generateSignal settings.technicalAnalysis engines b m.signalId m.clock = none := by
  rw [insertedSilently_iff hb hrejected, TechnicalAnalysisAgent.Triggers, not_and_or, not_and_or, not_and_or,
    Bool.not_eq_true, Bool.not_eq_false, Bool.not_eq_true, Option.isSome_eq_false_iff, Option.isNone_iff_eq_none]

/-! ### A restart on a full database -/

/-- The rules without TA-Lib. -/
def fallbackEngines : SignalEngines := ⟨none, Rat.sqrt, none⟩

/-- An agent that has read the first candles of the crossing market from the database. -/
def warmedAgent (count : ℕ) : TechnicalAnalysisAgent :=
  TechnicalAnalysisAgent.warmupFromDb ⟨.empty, .empty⟩ ((List.range count).map crossingCandle)

def warmedBuffer (count : ℕ) : CandleBuffer :=
  ((List.range count).map crossingCandle).foldl CandleBuffer.add (.forPair "BTC/USDT" "1m")

theorem warmedAgent_buffer (count : ℕ) :
    (warmedAgent (count + 1)).registry.get? (crossingCandle count).pair = some (warmedBuffer (count + 1)) := by
  have hpair : ∀ c ∈ (List.range count).map crossingCandle, c.pair = (crossingCandle count).pair := by
    intro c hc
    obtain ⟨i, -, rfl⟩ := List.mem_map.1 hc
    rfl
  unfold warmedAgent warmedBuffer
  rw [List.range_succ, List.map_append]
  exact CandleBufferRegistry.get?_addAll_concat hpair

/-- A candle that arrives when the market is over. -/
def lateMessage (candle : OHLCVCandle) : CandleMessage := ⟨candle, 1, ⟨3000, 3000, 3000, 3000⟩⟩

/-- On a buffer of two candles the second one may come again. -/
theorem rejected_candle_silent_cold :
    InsertedSilently defaultSettings fallbackEngines (warmedAgent 2) [] (lateMessage (crossingCandle 1))
      [lateMessage (crossingCandle 2)] :=
  (rejected_candle_silent_iff defaultSettings fallbackEngines (warmedAgent 2) [] (lateMessage (crossingCandle 1))
    [lateMessage (crossingCandle 2)] (warmedAgent_buffer 1) (by decide +kernel)).2 (.inr (.inl (by decide +kernel)))

/-- The newest candle of the database arrives once more and is rejected, and a signal is published on it. -/
theorem rejected_candle_signals :
    (warmedAgent 50).registry.get? (crossingCandle 49).pair = some (warmedBuffer 50) ∧
      (warmedBuffer 50).accepts (crossingCandle 49) = false ∧
      (warmedAgent 50).published defaultSettings fallbackEngines [lateMessage (crossingCandle 49)] = [crossingSignal] ∧
      (warmedAgent 50).published defaultSettings fallbackEngines [] = [] := by
  have hrejected : (warmedBuffer 50).accepts (crossingCandle 49) = false := by decide +kernel
  have hadd := TechnicalAnalysisAgent.add_of_rejected (warmedAgent_buffer 49) hrejected
  have hsignal : TechnicalAnalysisAgent.generateSignal defaultSettings.technicalAnalysis fallbackEngines
      (warmedBuffer 50) (lateMessage (crossingCandle 49)).signalId (lateMessage (crossingCandle 49)).clock =
        some crossingSignal := generate_crossing
  refine ⟨warmedAgent_buffer 49, hrejected, ?_, rfl⟩
  rcases (warmedAgent 50).processCandle_eq defaultSettings fallbackEngines
    (lateMessage (crossingCandle 49)) hadd with ⟨-, hpublished, -⟩ | ⟨hquiet, -⟩
  · rw [TechnicalAnalysisAgent.published, hpublished, hsignal]
    rfl
  · refine absurd ⟨?_, ?_, ?_, ?_⟩ hquiet
    · decide
    · decide +kernel
    · rfl
    · rw [hsignal]
      rfl

end MultiAgentTrading
