import MultiAgentTrading.Pipeline.System

/-!
# The age of the data behind an opening

The risk agent measures the age of a signal, and a signal is stamped when it is generated; so the age says nothing
about the candles of the buffer.  Every signal that reaches the risk agent is traced back to its generation.  If every
signal is generated while the newest candle of its buffer is as recent as a healthy feed keeps it, then no opening is
approved on older data than that plus the staleness limit; a warm-up that replays the history breaks the premise.
-/

namespace MultiAgentTrading.Pipeline

open Runs MarketDataAgent

variable (settings : Settings) (engines : SignalEngines)

/-- The newest candle of a buffer closed at most `slack` past the age of a healthy feed before `time`. -/
def FreshAt (slack : ℚ) (buffer : CandleBuffer) (time : ℚ) : Prop :=
  ∃ newest ∈ buffer.latestCandle,
    time - (staleAfter settings.marketData newest.timeframe + slack) ≤ newest.closedAt

instance (slack : ℚ) (buffer : CandleBuffer) (time : ℚ) : Decidable (FreshAt settings slack buffer time) := by
  unfold FreshAt; infer_instance

/-- Whether the verdict approves an opening. -/
def opens (s : PipelineState) (proposal : TradeProposal ℚ) (resetTime ageTime : ℚ) : Bool :=
  let assessment := (s.verdict settings proposal resetTime ageTime).assessment
  assessment.isApproved && !assessment.isClose

/-- If a step approves an opening on a technical signal, the signal was generated from a buffer whose newest candle
closed at most the age of a healthy feed plus the staleness limit ago. -/
def FreshOpening (s : PipelineState) (e : PipelineEvent) : Prop :=
  match e, s.proposals with
  | .evaluate resetTime ageTime, proposal :: _ =>
    opens settings s proposal resetTime ageTime = true → ∀ signal ∈ proposal.signal.technicalSignal,
      (∃ g ∈ s.generations, g.signal = signal) ∧
        ∀ g ∈ s.generations, g.signal = signal →
          FreshAt settings settings.risk.maxDataStalenessSeconds g.buffer ageTime
  | _, _ => True

/-- If a step publishes a signal, the newest candle of the buffer is as recent as a healthy feed keeps it. -/
def FreshGeneration (s : PipelineState) (e : PipelineEvent) : Prop :=
  match e, s.candles with
  | .processCandle clock, candle :: _ =>
    let r := s.technical.processCandle settings engines candle s.nextId clock
    r.2.1.isSome = true → FreshAt settings 0 r.1 clock.stampTime
  | _, _ => True

instance (s : PipelineState) (e : PipelineEvent) : Decidable (FreshOpening settings s e) := by
  unfold FreshOpening; split <;> infer_instance

instance (s : PipelineState) (e : PipelineEvent) : Decidable (FreshGeneration settings engines s e) := by
  unfold FreshGeneration; split <;> infer_instance

namespace PipelineState

/-! ### Tracing signals to their generation -/

def Generated (s : PipelineState) (signal : TechnicalSignal ℚ) : Prop := ∃ g ∈ s.generations, g.signal = signal

/-- A signal on its way to the risk agent: published, cached by the decision agent, or part of a proposal. -/
inductive Carried (s : PipelineState) (signal : TechnicalSignal ℚ) : Prop
  | published (h : signal ∈ s.signals)
  | cached (h : s.decision.Caches signal)
  | proposed (p : TradeProposal ℚ) (hp : p ∈ s.proposals) (h : p.signal.technicalSignal = some signal)

variable {settings engines} {s s' : PipelineState} {e : PipelineEvent} {signal : TechnicalSignal ℚ}

/-- No step forgets a generation. -/
theorem generations_step (h : s.step settings engines e = some s') : s.generations ⊆ s'.generations := by
  cases e with
  | processCandle clock =>
    obtain ⟨candle, rest, -, rfl⟩ := processCandle_of_step h
    exact List.subset_append_left _ _
  | technicalSignal t t' =>
    obtain ⟨first, rest, -, rfl⟩ := technicalSignal_of_step h
    exact List.Subset.refl _
  | evaluate t t' =>
    obtain ⟨first, rest, -, rfl⟩ := evaluate_of_step h
    exact List.Subset.refl _
  | _ => cases h; exact List.Subset.refl _

/-- A signal carried where less is published, cached and proposed was carried before. -/
private theorem Carried.of_subset (hc : s'.Carried signal) (hsignals : s'.signals ⊆ s.signals)
    (hcaches : s'.decision.Caches signal → s.decision.Caches signal) (hproposals : s'.proposals ⊆ s.proposals) :
    s.Carried signal := by
  cases hc with
  | published h => exact .published (hsignals h)
  | cached h => exact .cached (hcaches h)
  | proposed p hp h => exact .proposed p (hproposals hp) h

/-- A signal carried after the decision agent has proposed was carried before, or is cached now. -/
private theorem carried_propose {r : Option (TradeProposal ℚ) × DecisionAgent ℚ}
    (hproposal : ∀ p, r.1 = some p → p.signal.technicalSignal = some signal → r.2.Caches signal)
    (h : (s.propose r).Carried signal) : s.Carried signal ∨ r.2.Caches signal := by
  cases h with
  | published h => exact .inl (.published h)
  | cached h => exact .inr h
  | proposed p hp h =>
    rcases List.mem_append.1 hp with hp | hp
    · exact .inl (.proposed p hp h)
    · exact .inr (hproposal p (Option.mem_toList.1 hp) h)

/-- A signal carried after a step was carried before it, or the step generated it. -/
theorem carried_step (h : s.step settings engines e = some s') (hc : s'.Carried signal) :
    s.Carried signal ∨ s'.Generated signal := by
  cases e with
  | processCandle clock =>
    obtain ⟨candle, rest, -, rfl⟩ := processCandle_of_step h
    cases hc with
    | cached h => exact .inl (.cached h)
    | proposed p hp h => exact .inl (.proposed p hp h)
    | published h =>
      rcases List.mem_append.1 h with h | h
      · exact .inl (.published h)
      · exact .inr ⟨⟨signal, _⟩, List.mem_append_right _ (List.mem_map_of_mem h), rfl⟩
  | technicalSignal t t' =>
    obtain ⟨first, rest, hsignals, rfl⟩ := technicalSignal_of_step h
    left
    -- the signal goes from the channel to the cache
    rcases carried_propose (fun p hp => DecisionAgent.caches_of_onTechnicalSignal hp) hc with hc | hc
    · refine hc.of_subset ?_ id (List.Subset.refl _)
      rw [hsignals]
      exact List.subset_cons_self first rest
    · rcases DecisionAgent.caches_onTechnicalSignal hc with rfl | hc
      · exact .published (by rw [hsignals]; exact List.mem_cons_self)
      · exact .cached hc
  | sentimentSignal received t t' =>
    cases h
    left
    rcases carried_propose (fun p hp => DecisionAgent.caches_of_onSentimentSignal hp) hc with hc | hc
    · exact hc
    · exact .cached (DecisionAgent.caches_onSentimentSignal hc)
  | loseSignal =>
    cases h
    exact .inl (hc.of_subset (List.tail_subset _) id (List.Subset.refl _))
  | restartDecision =>
    cases h
    refine .inl (hc.of_subset (List.Subset.refl _) ?_ (List.Subset.refl _))
    rintro ⟨symbol, hcached⟩
    cases hcached
  | loseProposal =>
    cases h
    exact .inl (hc.of_subset (List.Subset.refl _) id (List.tail_subset _))
  | evaluate t t' =>
    obtain ⟨first, rest, hproposals, rfl⟩ := evaluate_of_step h
    refine .inl (hc.of_subset (List.Subset.refl _) id ?_)
    rw [hproposals]
    exact List.subset_cons_self first rest
  | _ =>
    cases h
    exact .inl (hc.of_subset (List.Subset.refl _) id (List.Subset.refl _))

/-- Every generation a step adds is stamped at the time of the step, on the buffer that took its candle. -/
theorem generation_of_step (h : s.step settings engines e = some s') {g : Generation} (hg : g ∈ s'.generations) :
    g ∈ s.generations ∨ ∃ clock candle rest, e = .processCandle clock ∧ s.candles = candle :: rest ∧
      g.buffer = (s.technical.processCandle settings engines candle s.nextId clock).1 ∧
      (s.technical.processCandle settings engines candle s.nextId clock).2.1 = some g.signal := by
  cases e with
  | processCandle clock =>
    obtain ⟨candle, rest, hcandles, rfl⟩ := processCandle_of_step h
    rcases List.mem_append.1 hg with hg | hg
    · exact .inl hg
    · obtain ⟨signal, hsignal, rfl⟩ := List.mem_map.1 hg
      exact .inr ⟨clock, candle, rest, rfl, hcandles, rfl, Option.mem_toList.1 hsignal⟩
  | technicalSignal t t' =>
    obtain ⟨first, rest, -, rfl⟩ := technicalSignal_of_step h
    exact .inl hg
  | evaluate t t' =>
    obtain ⟨first, rest, -, rfl⟩ := evaluate_of_step h
    exact .inl hg
  | _ => cases h; exact .inl hg

variable (settings) in
/-- The invariant: every signal carried is a recorded generation, and every generation was fresh when stamped. -/
structure Traced (s : PipelineState) : Prop where
  generated : ∀ signal, s.Carried signal → s.Generated signal
  fresh : ∀ g ∈ s.generations, FreshAt settings 0 g.buffer g.signal.timestamp

theorem traced_init (now : ℚ) : Traced settings (init settings now) where
  generated signal hc := by
    cases hc with
    | published h => cases h
    | cached h => obtain ⟨symbol, h⟩ := h; cases h
    | proposed p hp h => cases hp
  fresh g hg := by cases hg

theorem traced_step (ht : Traced settings s) (hC : FreshGeneration settings engines s e)
    (h : s.step settings engines e = some s') : Traced settings s' := by
  refine ⟨?_, ?_⟩
  · intro signal hc
    rcases carried_step h hc with hc | hg
    · obtain ⟨g, hg, hsignal⟩ := ht.generated signal hc
      exact ⟨g, generations_step h hg, hsignal⟩
    · exact hg
  · intro g hg
    rcases generation_of_step h hg with hg | ⟨clock, candle, rest, rfl, hcandles, hbuffer, hsignal⟩
    · exact ht.fresh g hg
    · have hstamp := (TechnicalAnalysisAgent.processCandle_spec hsignal).2
      have hfresh : FreshAt settings 0 (s.technical.processCandle settings engines candle s.nextId clock).1
          clock.stampTime := by
        have hC' : (s.technical.processCandle settings engines candle s.nextId clock).2.1.isSome = true →
            FreshAt settings 0 (s.technical.processCandle settings engines candle s.nextId clock).1
              clock.stampTime := by
          simpa [FreshGeneration, hcandles] using hC
        exact hC' (by rw [hsignal]; rfl)
      rw [hbuffer, hstamp]
      exact hfresh

/-- The risk agent opens only on a signal that is young, so on data that is fresh if its signal was. -/
theorem freshOpening_of_traced (ht : Traced settings s) : FreshOpening settings s e := by
  unfold FreshOpening
  split
  case h_2 => trivial
  case h_1 resetTime ageTime proposal rest hproposals =>
    intro hopens signal hsignal
    have hcarried : s.Carried signal := .proposed proposal (by rw [hproposals]; exact List.mem_cons_self) hsignal
    refine ⟨ht.generated signal hcarried, ?_⟩
    intro g hg hgs
    obtain ⟨newest, hnewest, hclosed⟩ := ht.fresh g hg
    refine ⟨newest, hnewest, ?_⟩
    have hage : RiskAgent.signalAgeSeconds proposal ageTime ≤ settings.risk.maxDataStalenessSeconds := by
      unfold opens at hopens
      dsimp only at hopens
      rw [Bool.and_eq_true] at hopens
      cases RiskAgent.evaluate_outcome settings.risk s.risk proposal s.nextId resetTime ageTime with
      | rejected hverdict =>
        rw [verdict, hverdict] at hopens
        cases hopens.1
      | close size hheld hverdict hstop =>
        simp [verdict, RiskAssessment.isClose, RiskAssessment.isApproved, hverdict, hstop] at hopens
      | opening size stopPct hheld hfresh => exact hfresh
    have htech : proposal.signal.technicalSignal = some signal := hsignal
    have hle : ageTime - g.signal.timestamp ≤ RiskAgent.signalAgeSeconds proposal ageTime := by
      rw [RiskAgent.signalAgeSeconds, htech, hgs]
      exact le_max_right _ _
    linarith

end PipelineState

/-- No opening on stale data, if every signal is published on fresh data: with any clock, any delay and any loss,
whatever is fetched and whenever an agent starts. -/
theorem no_stale_opening (now : ℚ) (es : List PipelineEvent)
    (h : Along (PipelineState.step settings engines) (FreshGeneration settings engines)
      (PipelineState.init settings now) es) :
    Along (PipelineState.step settings engines) (FreshOpening settings) (PipelineState.init settings now) es :=
  Along.of_invariant (PipelineState.Traced settings) (fun _ _ _ ht hC hs => PipelineState.traced_step ht hC hs)
    (fun _ _ ht _ => PipelineState.freshOpening_of_traced ht) (PipelineState.traced_init now) h

/-- The rules without TA-Lib. -/
def ruleEngines : SignalEngines where
  talib := none
  sqrt := Rat.sqrt
  ml := none

/-- At time `now` the history of the crossing market is fetched, `count` candles of it, and fifty of them are handled;
the signal is answered a second later and the proposal evaluated after another. -/
def replayedHistory (count : ℕ) (now : ℚ) : List PipelineEvent :=
  .warmup ((List.range count).map crossingCandle) now ::
    List.replicate 50 (.processCandle ⟨now, now, now, now⟩) ++
      [.technicalSignal (now + 1) (now + 1), .evaluate (now + 2) (now + 2)]

/-- Fifty candles, the last one closing at the time of the fetch. -/
theorem no_stale_opening_live :
    Along (PipelineState.step {} ruleEngines) (FreshOpening {}) (PipelineState.init {} 0) (replayedHistory 50 3000) ∧
      (exec (PipelineState.step {} ruleEngines) (PipelineState.init {} 0) (replayedHistory 50 3000)).map
        (fun s => s.risk.drawdown.state.openPositions.keys) = some ["BTC/USDT"] :=
  ⟨no_stale_opening {} ruleEngines 0 (replayedHistory 50 3000) (by decide +kernel), by decide +kernel⟩

/-- With four more minutes of history the signal comes from a buffer that ends four minutes before the fetch. -/
theorem stale_opening_on_replay :
    ¬Along (PipelineState.step {} ruleEngines) (FreshOpening {}) (PipelineState.init {} 0)
      (replayedHistory 54 3240) := by
  decide +kernel

end MultiAgentTrading.Pipeline
