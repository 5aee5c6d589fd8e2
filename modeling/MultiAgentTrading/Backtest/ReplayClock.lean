import MultiAgentTrading.Backtest.ReplayBooks

/-!
# The clock of the replay

The daily limit of the replay is reset by the days of the clock, and the candles are of other days.  The clock enters
nothing but the tracking of the monitor, so two runs that are in step with their candles have the same result, whatever
their clocks read (`runBacktest_congr`).  A run whose clock has the date of its candles is in step
(`along_inStep_of_date`); a run within one day of the clock need not be.
-/

namespace MultiAgentTrading

open Runs

namespace Replay

section Turn

variable {settings : Settings} {talib : Option (TaLib ℚ)} {sqrt : ℚ → ℚ} {clock : OHLCVCandle → TurnReadings}

/-! ### What a turn reads of the clock -/

/-- Everything but the daily tracking of the monitor. -/
def untracked (s : Replay) : Replay :=
  { s with
    drawdownMonitor :=
      { s.drawdownMonitor with
        state :=
          { s.drawdownMonitor.state with
            dailyStartBalanceUsd := 0
            dailyRealizedPnl := 0
            lastResetDate := 0 } } }

theorem untracked_checked (s : Replay) (now : ℚ) : (s.checked now).untracked = s.untracked := by
  unfold checked DrawdownMonitor.maybeResetDaily
  split_ifs <;> rfl

private theorem untracked_trackDrawdown (s : Replay) : s.trackDrawdown.untracked = s.untracked.trackDrawdown := by
  have hvalue : s.untracked.portfolioValueUsd = s.portfolioValueUsd := rfl
  have hpeak : s.untracked.peakPortfolio = s.peakPortfolio := rfl
  unfold trackDrawdown
  dsimp only
  rw [hvalue, hpeak]
  split_ifs <;> rfl

section Untracked

variable {s t : Replay} (h : s.untracked = t.untracked)

include h

/-- What does not read the daily tracking is the same. -/
private theorem eq_of_untracked {α : Type*} (f : Replay → α) (hf : ∀ u : Replay, f u.untracked = f u) : f s = f t := by
  rw [← hf s, h, hf t]

private theorem openPositions_congr : s.openPositions = t.openPositions :=
  eq_of_untracked h Replay.openPositions fun _ => rfl

private theorem close_congr (symbol : String) (p : ReplayPosition) (candle : OHLCVCandle) :
    (s.close symbol p candle).untracked = (t.close symbol p candle).untracked :=
  eq_of_untracked h (fun u => (u.close symbol p candle).untracked) fun _ => rfl

private theorem closeOpposite_congr (candle : OHLCVCandle) (newSide : OrderSide) :
    (s.closeOpposite candle newSide).untracked = (t.closeOpposite candle newSide).untracked := by
  unfold closeOpposite
  rw [openPositions_congr h]
  split
  case h_1 => exact h
  case h_2 p _ =>
    split_ifs
    · rw [untracked_trackDrawdown, untracked_trackDrawdown]
      have hclose := close_congr h candle.symbol p candle
      exact congrArg (fun u : Replay =>
        ({ u with openPositions := t.openPositions.erase candle.symbol } : Replay).trackDrawdown) hclose
    · exact h

private theorem openAt_congr (candle : OHLCVCandle) (newSide : OrderSide) (sizeUsd : ℚ) :
    (s.openAt candle newSide sizeUsd).map untracked = (t.openAt candle newSide sizeUsd).map untracked := by
  unfold openAt
  split_ifs
  · rfl
  · exact congrArg (fun u : Replay => some ({ u with
      drawdownMonitor := u.drawdownMonitor.openPosition candle.symbol sizeUsd none
      openPositions := u.openPositions.set candle.symbol
        ⟨candle.close, sizeUsd / candle.close, newSide, candle.timestamp⟩ } : Replay)) h

private theorem trade_congr (candle : OHLCVCandle) (newSide : OrderSide) (stopPct portfolioValue : ℚ) :
    (s.trade settings candle newSide stopPct portfolioValue).map untracked =
      (t.trade settings candle newSide stopPct portfolioValue).map untracked := by
  have hclosed := closeOpposite_congr h candle newSide
  unfold trade
  dsimp only
  rw [openPositions_congr hclosed]
  split_ifs
  · exact congrArg some hclosed
  · exact congrArg some hclosed
  · exact openAt_congr hclosed candle newSide _

private theorem closeRemaining_congr (lastCandle : OHLCVCandle) :
    (s.closeRemaining lastCandle).untracked = (t.closeRemaining lastCandle).untracked := by
  unfold closeRemaining
  rw [openPositions_congr h]
  generalize t.openPositions.entries = entries
  induction entries generalizing s t with
  | nil => exact h
  | cons e entries ih => exact ih (close_congr h e.1 e.2 lastCandle)

/-- The result of a run does not show the daily tracking. -/
private theorem result_congr (initialBalance : ℚ) : s.result sqrt initialBalance = t.result sqrt initialBalance :=
  eq_of_untracked h (fun u => u.result sqrt initialBalance) fun _ => rfl

/-- Two checks in step with the same candle have the same result. -/
private theorem check_congr (hs : s.Ledger) (ht : t.Ledger) {day : ℤ} {now now' : ℚ}
    (hbooked : s.bookedOn now = s.closedOn day) (hbooked' : t.bookedOn now' = t.closedOn day) :
    (s.drawdownMonitor.dailyLossLimitBreached now).1 = (t.drawdownMonitor.dailyLossLimitBreached now').1 := by
  have hvalue : s.portfolioValueUsd = t.portfolioValueUsd := eq_of_untracked h portfolioValueUsd fun _ => rfl
  have hclosed : s.closedOn day = t.closedOn day := eq_of_untracked h (fun u => u.closedOn day) fun _ => rfl
  have hlimit : s.drawdownMonitor.maxDailyLossPct = t.drawdownMonitor.maxDailyLossPct :=
    eq_of_untracked h (fun u => u.drawdownMonitor.maxDailyLossPct) fun _ => rfl
  have hbalance := (hs.checked now).balance
  have hbalance' := (ht.checked now').balance
  rw [checked_realized, checked_value, hbooked, hvalue, hclosed] at hbalance
  rw [checked_realized, checked_value, hbooked'] at hbalance'
  have hstart : (s.checked now).drawdownMonitor.state.dailyStartBalanceUsd =
      (t.checked now').drawdownMonitor.state.dailyStartBalanceUsd := by linarith
  rw [DrawdownMonitor.dailyLossLimitBreached_fst, DrawdownMonitor.dailyLossLimitBreached_fst, hlimit]
  show (_ ≤ DrawdownMonitor.lossSince (s.checked now).drawdownMonitor.state.dailyStartBalanceUsd s.portfolioValueUsd :
    Bool) = (_ ≤ DrawdownMonitor.lossSince (t.checked now').drawdownMonitor.state.dailyStartBalanceUsd
      t.portfolioValueUsd : Bool)
  rw [hstart, hvalue]

end Untracked

/-! ### Signals at two readings of the clock -/

/-- What a trade takes from a signal. -/
def advice (signal : AggregatedSignal ℚ) : SignalDirection × Option (Dict String (MetaValue ℚ)) :=
  (signal.direction, signal.technicalSignal.map fun s => s.metadata)

/-- The readings of the clock and the id are all that differs between two signals of a buffer. -/
private theorem generate_eq_map (buffer : CandleBuffer) (signalId : ℕ) (expiryTime stampTime : ℚ) :
    SignalGenerator.generate talib sqrt settings.technicalAnalysis buffer signalId expiryTime stampTime =
      (SignalGenerator.generate talib sqrt settings.technicalAnalysis buffer 0 0 0).map fun signal =>
        { signal with
          signalId := signalId
          timestamp := stampTime
          expiresAt := expiryTime + settings.technicalAnalysis.signalTtlSeconds } := by
  unfold SignalGenerator.generate
  simp only [Option.bind_eq_bind, Option.map_bind, Function.comp_def]
  refine Option.bind_congr fun _ _ => Option.bind_congr fun price _ => Option.bind_congr fun _ _ =>
    Option.bind_congr fun _ _ => ?_
  split_ifs <;> rfl

/-- An aggregate of a technical signal alone takes its direction and its metadata, if the signal is valid. -/
private theorem advice_aggregate (g : SignalAggregator) (symbol : String) (signal : TechnicalSignal ℚ) (now : ℚ) :
    (g.aggregate symbol (some signal) none now now).map advice =
      if g.isValid now signal.expiresAt signal.confidence then
        some (scalarToDirection (SignalAggregator.clampedMean (-1) 1
          [(directionToScalar signal.direction, (g.technicalWeight : ℚ))]), some signal.metadata)
      else none := by
  unfold SignalAggregator.aggregate
  dsimp only
  by_cases hvalid : g.isValid now signal.expiresAt signal.confidence = true
  · have hfilter : (some signal).filter (fun s => g.isValid now s.expiresAt s.confidence) = some signal :=
      Option.filter_some_pos hvalid
    rw [if_pos hvalid, if_neg (by rw [hfilter]; simp)]
    rw [Option.map_some, advice]
    dsimp only
    rw [hfilter]
    simp
  · have hfilter : (some signal).filter (fun s => g.isValid now s.expiresAt s.confidence) = none :=
      Option.filter_some_neg (Bool.eq_false_of_not_eq_true hvalid)
    rw [if_neg hvalid, if_pos (by rw [hfilter]; simp)]
    rfl

/-- Two readings of the clock at which the signal of a buffer is fresh give the same advice. -/
private theorem advice_aggSignal {buffer : CandleBuffer} (candle : OHLCVCandle) {r r' : TurnReadings}
    (hfresh : ∀ signal ∈ techSignal settings talib sqrt buffer r, r.aggregateTime ≤ signal.expiresAt)
    (hfresh' : ∀ signal ∈ techSignal settings talib sqrt buffer r', r'.aggregateTime ≤ signal.expiresAt) :
    (aggSignal settings talib sqrt buffer candle r).map advice =
      (aggSignal settings talib sqrt buffer candle r').map advice := by
  unfold techSignal at hfresh hfresh'
  unfold aggSignal techSignal
  rw [generate_eq_map] at hfresh hfresh' ⊢
  rw [generate_eq_map buffer r'.signalId]
  split_ifs at hfresh hfresh' ⊢
  · cases hbase : SignalGenerator.generate talib sqrt settings.technicalAnalysis buffer 0 0 0 with
    | none => rfl
    | some signal =>
      rw [hbase] at hfresh hfresh'
      have hle := hfresh _ rfl
      have hle' := hfresh' _ rfl
      rw [Option.map_some, Option.map_some, Option.bind_some, Option.bind_some, advice_aggregate, advice_aggregate]
      unfold SignalAggregator.isValid
      simp only [not_lt.2 hle, not_lt.2 hle', not_false_eq_true, true_and]
  · rfl

private theorem getStopLossPct_congr {p p' : TradeProposal ℚ}
    (hmeta : (p.signal.technicalSignal.map fun s => s.metadata) = p'.signal.technicalSignal.map fun s => s.metadata)
    (hstop : p.suggestedStopLossPct = p'.suggestedStopLossPct) :
    PositionSizer.getStopLossPct p = PositionSizer.getStopLossPct p' := by
  have hatr : PositionSizer.extractAtrPct p = PositionSizer.extractAtrPct p' := by
    unfold PositionSizer.extractAtrPct
    cases h : p.signal.technicalSignal with
    | none =>
      rw [h] at hmeta
      rw [Option.map_eq_none_iff.1 hmeta.symm]
    | some s =>
      rw [h] at hmeta
      obtain ⟨s', h', hs'⟩ := Option.map_eq_some_iff.1 hmeta.symm
      rw [h']
      dsimp only
      rw [hs']
  unfold PositionSizer.getStopLossPct PositionSizer.suggestedStop
  rw [hatr, hstop]

/-- A proposal on either of two signals with the same advice is for the same side and has the same stop. -/
private theorem build_congr {signal signal' : AggregatedSignal ℚ} (h : advice signal = advice signal') (value : ℚ)
    (id id' : ℕ) :
    (((builder settings).build signal value id).map fun p => (p.side, PositionSizer.getStopLossPct p)) =
      ((builder settings).build signal' value id').map fun p => (p.side, PositionSizer.getStopLossPct p) := by
  obtain ⟨hdirection, hmeta⟩ := Prod.mk.inj h
  unfold ProposalBuilder.build
  simp only [Option.bind_eq_bind, Option.map_bind, Function.comp_def]
  rw [hdirection]
  refine Option.bind_congr fun side _ => ?_
  split_ifs
  · exact congrArg (fun stop => some (side, stop)) (getStopLossPct_congr hmeta rfl)
  · rfl

/-! ### Runs in step with their candles -/

variable (settings talib sqrt clock) in
/-- The signal of a candle is fresh when it is aggregated, and a check of the daily limit finds the profit of the
candle's day booked. -/
structure InStep (s : Replay) (candle : OHLCVCandle) : Prop where
  fresh : ∀ signal ∈ techSignal settings talib sqrt (s.bufferRegistry.add candle).1 (clock candle),
    (clock candle).aggregateTime ≤ signal.expiresAt
  booked : (aggSignal settings talib sqrt (s.bufferRegistry.add candle).1 candle (clock candle)).isSome = true →
    s.bookedOn (clock candle).checkTime = s.closedOn candle.date

instance (s : Replay) (candle : OHLCVCandle) : Decidable (s.InStep settings talib sqrt clock candle) :=
  decidable_of_iff
    ((∀ signal ∈ techSignal settings talib sqrt (s.bufferRegistry.add candle).1 (clock candle),
        (clock candle).aggregateTime ≤ signal.expiresAt) ∧
      ((aggSignal settings talib sqrt (s.bufferRegistry.add candle).1 candle (clock candle)).isSome = true →
        s.bookedOn (clock candle).checkTime = s.closedOn candle.date))
    ⟨fun h => ⟨h.1, h.2⟩, fun h => ⟨h.fresh, h.booked⟩⟩

/-- Two runs with the same books, up to the tracking. -/
structure SameBooks (s t : Replay) : Prop where
  untracked : s.untracked = t.untracked
  left : s.Ledger
  right : t.Ledger

variable {clock' : OHLCVCandle → TurnReadings} {s t : Replay}

private theorem propose_congr (h : s.untracked = t.untracked) (candle : OHLCVCandle)
    {signal signal' : AggregatedSignal ℚ} (hadvice : advice signal = advice signal') (id id' : ℕ) :
    (s.propose settings candle signal id).map Replay.untracked =
      (t.propose settings candle signal' id').map Replay.untracked := by
  have hvalue : s.portfolioValueUsd = t.portfolioValueUsd := eq_of_untracked h portfolioValueUsd fun _ => rfl
  have hbuild := @build_congr settings _ _ hadvice t.portfolioValueUsd id id'
  unfold propose
  rw [hvalue]
  cases hp : (builder settings).build signal t.portfolioValueUsd id with
  | none =>
    rw [hp] at hbuild
    rw [Option.map_eq_none_iff.1 hbuild.symm]
    exact congrArg some h
  | some p =>
    rw [hp] at hbuild
    obtain ⟨p', hp', horder⟩ := Option.map_eq_some_iff.1 hbuild.symm
    obtain ⟨hside, hstop⟩ := Prod.mk.inj horder
    rw [hp']
    dsimp only
    rw [hside, hstop]
    exact trade_congr h candle _ _ _

private theorem onSignal_congr (h : s.SameBooks t) {candle : OHLCVCandle} {signal signal' : AggregatedSignal ℚ}
    (hadvice : advice signal = advice signal') {r r' : TurnReadings}
    (hbooked : s.bookedOn r.checkTime = s.closedOn candle.date)
    (hbooked' : t.bookedOn r'.checkTime = t.closedOn candle.date) :
    (s.onSignal settings candle signal r).map Replay.untracked =
      (t.onSignal settings candle signal' r').map Replay.untracked := by
  have hchecked : (s.checked r.checkTime).untracked = (t.checked r'.checkTime).untracked := by
    rw [untracked_checked, untracked_checked, h.untracked]
  have hdaily := check_congr h.untracked h.left h.right hbooked hbooked'
  have htotal : (s.checked r.checkTime).drawdownMonitor.totalDrawdownLimitBreached =
      (t.checked r'.checkTime).drawdownMonitor.totalDrawdownLimitBreached :=
    eq_of_untracked hchecked (fun u => u.drawdownMonitor.totalDrawdownLimitBreached) fun _ => rfl
  -- both limits give the same result in both runs, so they take the same branch
  show Option.map _ (if (s.drawdownMonitor.dailyLossLimitBreached r.checkTime).1 = true ∨
      (s.checked r.checkTime).drawdownMonitor.totalDrawdownLimitBreached = true then some (s.checked r.checkTime)
    else (s.checked r.checkTime).propose settings candle signal r.proposalId) =
    Option.map _ (if (t.drawdownMonitor.dailyLossLimitBreached r'.checkTime).1 = true ∨
      (t.checked r'.checkTime).drawdownMonitor.totalDrawdownLimitBreached = true then some (t.checked r'.checkTime)
    else (t.checked r'.checkTime).propose settings candle signal' r'.proposalId)
  rw [hdaily, htotal]
  split_ifs
  · exact congrArg some hchecked
  · exact propose_congr hchecked candle hadvice r.proposalId r'.proposalId

private theorem turn_congr (h : s.SameBooks t) {candle : OHLCVCandle} (hs : s.InStep settings talib sqrt clock candle)
    (ht : t.InStep settings talib sqrt clock' candle) :
    (s.turn settings talib sqrt clock candle).map Replay.untracked =
      (t.turn settings talib sqrt clock' candle).map Replay.untracked := by
  have hbuffers : s.bufferRegistry = t.bufferRegistry :=
    eq_of_untracked h.untracked Replay.bufferRegistry fun _ => rfl
  obtain ⟨hfresh, hbooked⟩ := hs
  obtain ⟨hfresh', hbooked'⟩ := ht
  rw [hbuffers] at hfresh hbooked
  have hadvice := advice_aggSignal candle hfresh hfresh'
  unfold turn
  dsimp only
  rw [hbuffers]
  have hadded : SameBooks { s with bufferRegistry := (t.bufferRegistry.add candle).2 }
      { t with bufferRegistry := (t.bufferRegistry.add candle).2 } :=
    ⟨congrArg (fun u : Replay => { u with bufferRegistry := (t.bufferRegistry.add candle).2 }) h.untracked,
      ⟨h.left.agrees, h.left.balance⟩, ⟨h.right.agrees, h.right.balance⟩⟩
  cases hsignal : aggSignal settings talib sqrt (t.bufferRegistry.add candle).1 candle (clock candle) with
  | none =>
    rw [hsignal] at hadvice
    rw [Option.map_eq_none_iff.1 hadvice.symm]
    exact congrArg some hadded.untracked
  | some signal =>
    rw [hsignal] at hadvice hbooked
    obtain ⟨signal', hsignal', heq⟩ := Option.map_eq_some_iff.1 hadvice.symm
    rw [hsignal'] at hbooked' ⊢
    exact onSignal_congr hadded heq.symm (hbooked rfl) (hbooked' rfl)

private theorem SameBooks.turn (h : s.SameBooks t) {candle : OHLCVCandle}
    (hs : s.InStep settings talib sqrt clock candle) (ht : t.InStep settings talib sqrt clock' candle) :
    Option.Rel SameBooks (s.turn settings talib sqrt clock candle) (t.turn settings talib sqrt clock' candle) := by
  have hsame := turn_congr h hs ht
  cases hturn : s.turn settings talib sqrt clock candle with
  | none =>
    rw [hturn] at hsame
    rw [Option.map_eq_none_iff.1 hsame.symm]
    exact .none
  | some s' =>
    rw [hturn] at hsame
    obtain ⟨t', hturn', heq⟩ := Option.map_eq_some_iff.1 hsame.symm
    rw [hturn']
    exact .some ⟨heq.symm, h.left.turn hturn, h.right.turn hturn'⟩

/-- Two runs in step with the same candles have the same result. -/
theorem runBacktest_congr {initialBalance start start' : ℚ} {candles : List OHLCVCandle}
    (h : Along (turn settings talib sqrt clock) (InStep settings talib sqrt clock) (init settings initialBalance start)
      candles)
    (h' : Along (turn settings talib sqrt clock') (InStep settings talib sqrt clock')
      (init settings initialBalance start') candles) :
    runBacktest settings talib sqrt initialBalance start clock candles =
      runBacktest settings talib sqrt initialBalance start' clock' candles := by
  have hinit : SameBooks (init settings initialBalance start) (init settings initialBalance start') :=
    ⟨rfl, ledger_init settings initialBalance start, ledger_init settings initialBalance start'⟩
  have hstep : ∀ (s t : Replay) (c : OHLCVCandle), s.SameBooks t → s.InStep settings talib sqrt clock c →
      t.InStep settings talib sqrt clock' c →
        Option.Rel SameBooks (turn settings talib sqrt clock s c) (turn settings talib sqrt clock' t c) :=
    fun _ _ _ hbooks hs ht => hbooks.turn hs ht
  have hrun := exec_rel_along hstep hinit h h'
  unfold runBacktest
  split
  case h_1 => rfl
  case h_2 lastCandle _ =>
    generalize exec (turn settings talib sqrt clock) (init settings initialBalance start) candles = reached at hrun ⊢
    generalize exec (turn settings talib sqrt clock') (init settings initialBalance start') candles = reached' at hrun ⊢
    cases hrun with
    | none => rfl
    | some hbooks =>
      rw [Option.map_some, Option.map_some]
      exact congrArg some (result_congr (closeRemaining_congr hbooks.untracked lastCandle) initialBalance)

/-! ### Clocks that have the date of the candles -/

private theorem expiresAt_techSignal {buffer : CandleBuffer} {r : TurnReadings} :
    ∀ signal ∈ techSignal settings talib sqrt buffer r,
      signal.expiresAt = r.expiryTime + settings.technicalAnalysis.signalTtlSeconds := by
  intro signal hsignal
  unfold techSignal at hsignal
  split_ifs at hsignal
  · rw [generate_eq_map] at hsignal
    obtain ⟨base, -, rfl⟩ := Option.map_eq_some_iff.1 hsignal
    rfl
  · cases hsignal

/-- The tracking is on a day that no trade exited after, and has the profit of that day. -/
structure OnItsDay (s : Replay) : Prop where
  booked : s.drawdownMonitor.state.dailyRealizedPnl = s.closedOn s.drawdownMonitor.state.lastResetDate
  exits : ∀ t ∈ s.trades, t.exitDate ≤ s.drawdownMonitor.state.lastResetDate

/-- A check that finds the tracking on the candle's day, or on an earlier one, finds the profit of the day booked. -/
private theorem OnItsDay.bookedOn_eq (h : s.OnItsDay) {day : ℤ} {now : ℚ} (hnow : utcDate now = day)
    (hle : s.trades ≠ [] → s.drawdownMonitor.state.lastResetDate ≤ day) : s.bookedOn now = s.closedOn day := by
  unfold bookedOn
  rw [hnow]
  split_ifs with hsame
  · rw [h.booked, hsame]
  · -- the tracking is still on an earlier day, and no trade exited after it
    have hnone : ∀ t ∈ s.trades, t.exitDate ≠ day := by
      intro t ht hexit
      have hexits := h.exits t ht
      rw [hexit] at hexits
      exact hsame ((hle (List.ne_nil_of_mem ht)).antisymm hexits)
    rw [closedOn, List.filter_eq_nil_iff.2 fun t ht => by simpa using hnone t ht]
    rfl

/-- A turn whose clock has the date of its candle leaves the tracking on a day, which is the candle's after a check. -/
private theorem OnItsDay.turn (hday : s.OnItsDay) (hagrees : s.Agrees) {candle : OHLCVCandle}
    (hdate : utcDate (clock candle).checkTime = candle.date)
    (hle : s.trades ≠ [] → s.drawdownMonitor.state.lastResetDate ≤ candle.date) {s' : Replay}
    (hturn : s.turn settings talib sqrt clock candle = some s') :
    s'.OnItsDay ∧ s'.Agrees ∧ (s'.trades ≠ [] → s'.drawdownMonitor.state.lastResetDate ≤ candle.date) := by
  obtain ⟨closed, hcloses, htracks⟩ := turn_spec hagrees hturn
  rcases htracks with ⟨rfl, htracks⟩ | htracks
  · have htrades : s'.trades = s.trades := hcloses.trades.trans (List.append_nil _)
    refine ⟨⟨?_, ?_⟩, hcloses.agrees, ?_⟩
    · rw [htracks.realized, htracks.date, add_zero, closedOn, htrades]
      exact hday.booked
    · rw [htrades, htracks.date]
      exact hday.exits
    · rw [htrades, htracks.date]
      exact hle
  · have hreset : s'.drawdownMonitor.state.lastResetDate = candle.date := by
      rw [htracks.date, checked_date, hdate]
    have hexits : ∀ t ∈ closed, t.exitDate = candle.date := fun t ht => congrArg utcDate (hcloses.exitTime t ht)
    refine ⟨⟨?_, ?_⟩, hcloses.agrees, fun _ => hreset.le⟩
    · have hclosed : (closed.filter fun t => t.exitDate = candle.date) = closed :=
        List.filter_eq_self.2 fun t ht => by simpa using hexits t ht
      rw [htracks.realized, checked_realized, hday.bookedOn_eq hdate hle, hreset, closedOn, closedOn, hcloses.trades,
        List.filter_append, pnlOf_append, hclosed]
    · intro t ht
      rw [hreset]
      rw [hcloses.trades] at ht
      rcases List.mem_append.1 ht with ht | ht
      · exact (hday.exits t ht).trans (hle (List.ne_nil_of_mem ht))
      · exact (hexits t ht).le

/-- A run whose clock has the date of the candles, and lets no signal expire in its turn, is in step. -/
theorem along_inStep_of_date {candles : List OHLCVCandle}
    (hsorted : candles.Pairwise fun c c' => c.timestamp < c'.timestamp)
    (hdate : ∀ c ∈ candles, utcDate (clock c).checkTime = c.date)
    (hfresh : ∀ c ∈ candles,
      (clock c).aggregateTime ≤ (clock c).expiryTime + settings.technicalAnalysis.signalTtlSeconds)
    (hday : s.OnItsDay) (hagrees : s.Agrees)
    (hle : ∀ c ∈ candles, s.trades ≠ [] → s.drawdownMonitor.state.lastResetDate ≤ c.date) :
    Along (turn settings talib sqrt clock) (InStep settings talib sqrt clock) s candles := by
  induction candles generalizing s with
  | nil => trivial
  | cons c candles ih =>
    rw [List.pairwise_cons] at hsorted
    have hdate_c := hdate c List.mem_cons_self
    have hle_c := hle c List.mem_cons_self
    refine ⟨⟨fun signal hsignal => ?_, fun _ => hday.bookedOn_eq hdate_c hle_c⟩, fun s' hturn => ?_⟩
    · rw [expiresAt_techSignal signal hsignal]
      exact hfresh c List.mem_cons_self
    · obtain ⟨hday', hagrees', hle'⟩ := hday.turn hagrees hdate_c hle_c hturn
      refine ih hsorted.2 (fun c' hc' => hdate c' (List.mem_cons_of_mem _ hc'))
        (fun c' hc' => hfresh c' (List.mem_cons_of_mem _ hc')) hday' hagrees' fun c' hc' htrades => ?_
      exact (hle' htrades).trans (utcDate_mono (hsorted.1 c' hc').le)

theorem onItsDay_init (settings : Settings) (initialBalance start : ℚ) :
    (init settings initialBalance start).OnItsDay where
  booked := rfl
  exits _ ht := absurd ht List.not_mem_nil

end Turn

/-- The daily limit follows the candles where their profit is booked.  A check measures the loss from the start of the
candle's day exactly if the profit booked on the day of the clock is that of the trades that exited on the candle's
day; and runs in which that is so at every check, and no signal expires in its turn, have the same result. -/
theorem daily_limit_follows_candles {settings : Settings} {talib : Option (TaLib ℚ)} {sqrt : ℚ → ℚ}
    {initialBalance start : ℚ} {clock : OHLCVCandle → TurnReadings} {candles : List OHLCVCandle}
    (hsorted : candles.Pairwise fun c c' => c.timestamp < c'.timestamp) :
    (∀ before c later s, candles = before ++ c :: later →
      exec (turn settings talib sqrt clock) (init settings initialBalance start) before = some s →
        (MeasuresCandleDay settings (valueAtMidnight settings talib sqrt clock initialBalance start before c.date) s c
          (clock c).checkTime ↔ s.bookedOn (clock c).checkTime = s.closedOn c.date)) ∧
    ∀ start' clock',
      Along (turn settings talib sqrt clock) (InStep settings talib sqrt clock) (init settings initialBalance start)
        candles →
      Along (turn settings talib sqrt clock') (InStep settings talib sqrt clock') (init settings initialBalance start')
        candles →
      runBacktest settings talib sqrt initialBalance start clock candles =
        runBacktest settings talib sqrt initialBalance start' clock' candles := by
  refine ⟨fun before c later s hcandles hrun => ?_, fun start' clock' h h' => runBacktest_congr h h'⟩
  subst hcandles
  exact measuresCandleDay_iff hsorted hrun (clock c).checkTime

/-- A market on daily candles: the averages cross upwards, downwards on the next day and upwards on the day after. -/
def reversalCandle (i : ℕ) : OHLCVCandle :=
  flatCandle "BTC/USDT" "1d" (86400 * i)
    (if i < 46 then 100 + (i % 2 : ℕ) else if i ∈ [48, 49, 51] then 101 else 100) (if i < 49 then 1 else 2)
    (by split <;> norm_num)

def reversal : List OHLCVCandle := (List.range 52).map reversalCandle

theorem reversal_sorted : reversal.Pairwise fun c c' => c.timestamp < c'.timestamp := by decide +kernel

theorem half_percent_mem : (0 : ℚ) < 1 / 200 ∧ (1 / 200 : ℚ) ≤ 1 := by norm_num

/-- Positions of the whole balance, and a daily limit of half a percent. -/
def reversalSettings : Settings :=
  { defaultSettings with
    risk :=
      { defaultSettings.risk with
        maxDailyLossPct := 1 / 200
        minOrderSizeUsd := 100
        maxDailyLossPct_mem := half_percent_mem } }

/-- The square root to eight decimals. -/
def sqrtDecimals (x : ℚ) : ℚ := (⌊x * 10 ^ 16⌋.toNat.sqrt : ℚ) / 10 ^ 8

/-- Every reading of a turn is `t`. -/
def readAt (t : ℚ) : TurnReadings := ⟨t, t, t, t, 0, 0⟩

/-- The replay on the days of its candles and a year later: the same trades, and the last check is free of the loss of
the day before. -/
theorem daily_limit_follows_candles_reversal :
    runBacktest reversalSettings none sqrtDecimals 100 0 (fun c => readAt c.timestamp) reversal =
      runBacktest reversalSettings none sqrtDecimals 100 31536000 (fun c => readAt (c.timestamp + 31536000)) reversal ∧
    ∃ s, exec (turn reversalSettings none sqrtDecimals fun c => readAt c.timestamp) (init reversalSettings 100 0)
        (reversal.take 51) = some s ∧ s.trades.length = 1 ∧
      MeasuresCandleDay reversalSettings
        (valueAtMidnight reversalSettings none sqrtDecimals (fun c => readAt c.timestamp) 100 0 (reversal.take 51)
          (reversalCandle 51).date)
        s (reversalCandle 51) (reversalCandle 51).timestamp := by
  have hrun : (exec (turn reversalSettings none sqrtDecimals fun c => readAt c.timestamp) (init reversalSettings 100 0)
      (reversal.take 51)).map (fun s => decide (s.trades.length = 1 ∧
        s.bookedOn (reversalCandle 51).timestamp = s.closedOn (reversalCandle 51).date)) = some true := by
    decide +kernel
  obtain ⟨s, hs, hfacts⟩ := Option.map_eq_some_iff.1 hrun
  obtain ⟨hlength, hbooked⟩ := of_decide_eq_true hfacts
  obtain ⟨hmeasures, hsame⟩ := @daily_limit_follows_candles reversalSettings none sqrtDecimals 100 0
    (fun c => readAt c.timestamp) reversal reversal_sorted
  refine ⟨hsame 31536000 _ ?_ (by decide +kernel), s, hs, hlength, ?_⟩
  · exact along_inStep_of_date reversal_sorted (fun _ _ => rfl)
      (fun _ _ => le_add_of_nonneg_right (by decide +kernel)) (onItsDay_init _ _ _) (ledger_init _ _ _).agrees
      fun _ _ htrades => absurd rfl htrades
  · exact (hmeasures (reversal.take 51) (reversalCandle 51) [] s rfl hs).2 hbooked

/-- The replay within one day of the clock, and with a midnight before its last candle: the trades differ, and on the
one day the loss of an earlier candle day fails the last check. -/
theorem daily_limit_follows_wall_clock :
    (runBacktest reversalSettings none sqrtDecimals 100 5184000 (fun _ => readAt 5184000) reversal).map
        BacktestResult.trades ≠
      (runBacktest reversalSettings none sqrtDecimals 100 5184000
        (fun c => readAt (if c.date < 51 then 5184000 else 5270400)) reversal).map BacktestResult.trades ∧
    ∃ s, exec (turn reversalSettings none sqrtDecimals fun _ => readAt 5184000) (init reversalSettings 100 5184000)
        (reversal.take 51) = some s ∧ (∀ t ∈ s.trades, t.exitDate ≠ (reversalCandle 51).date) ∧
      (s.drawdownMonitor.dailyLossLimitBreached 5184000).1 = true ∧
      ¬MeasuresCandleDay reversalSettings
        (valueAtMidnight reversalSettings none sqrtDecimals (fun _ => readAt 5184000) 100 5184000 (reversal.take 51)
          (reversalCandle 51).date)
        s (reversalCandle 51) 5184000 := by
  refine ⟨by decide +kernel, ?_⟩
  have hrun : (exec (turn reversalSettings none sqrtDecimals fun _ => readAt 5184000)
      (init reversalSettings 100 5184000) (reversal.take 51)).map (fun s =>
        (s.trades.all fun t => t.exitDate ≠ (reversalCandle 51).date) ∧
          (s.drawdownMonitor.dailyLossLimitBreached 5184000).1 = true : Replay → Bool) = some true := by
    decide +kernel
  obtain ⟨s, hs, hfacts⟩ := Option.map_eq_some_iff.1 hrun
  obtain ⟨hall, hbreached⟩ := of_decide_eq_true hfacts
  have hearlier : ∀ t ∈ s.trades, t.exitDate ≠ (reversalCandle 51).date := by
    intro t ht
    exact of_decide_eq_true (List.all_eq_true.1 hall t ht)
  refine ⟨s, hs, hearlier, hbreached, fun h => ?_⟩
  have hfree := h.earlier hearlier
  rw [hbreached] at hfree
  cases hfree

end Replay

end MultiAgentTrading
