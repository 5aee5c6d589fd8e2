import Mathlib.Data.List.TakeWhile
import MultiAgentTrading.Backtest.Replay
import MultiAgentTrading.Lib.Records
import MultiAgentTrading.Risk.DailyLoss

/-!
# What the replay books

A turn makes round trips that exit at its candle, and adds them to the tracking of the day that the monitor is on
(`turn_spec`).  So since the start of a candle's day the portfolio has moved by the trades that exited on that day, and
a check of the daily limit measures from there exactly if the monitor has their profit booked
(`measuresCandleDay_iff`).
-/

namespace MultiAgentTrading

open Runs

namespace Replay

/-! ### What a turn books -/

def pnlOf (trades : List TradeRecord) : ℚ := (trades.map TradeRecord.pnl).sum

/-- The profit of the trades that exited on a day. -/
def closedOn (s : Replay) (day : ℤ) : ℚ := pnlOf (s.trades.filter fun t => t.exitDate = day)

theorem pnlOf_append (trades trades' : List TradeRecord) :
    pnlOf (trades ++ trades') = pnlOf trades + pnlOf trades' := by
  simp [pnlOf]

/-- The ledger has no position that the loop does not have. -/
def Agrees (s : Replay) : Prop :=
  ∀ symbol, s.openPositions.get? symbol = none → s.drawdownMonitor.held symbol = none

/-- From `s` to `s'` the round trips `closed` were made, at times in `exits`. -/
structure Closes (exits : Set ℚ) (s s' : Replay) (closed : List TradeRecord) : Prop where
  trades : s'.trades = s.trades ++ closed
  exitTime : ∀ t ∈ closed, t.exitTime ∈ exits
  value : s'.portfolioValueUsd = s.portfolioValueUsd + pnlOf closed
  agrees : s'.Agrees
  limit : s'.drawdownMonitor.maxDailyLossPct = s.drawdownMonitor.maxDailyLossPct

/-- The daily tracking of `s'` is that of `s` with some profit added. -/
structure Tracks (s s' : Replay) (profit : ℚ) : Prop where
  date : s'.drawdownMonitor.state.lastResetDate = s.drawdownMonitor.state.lastResetDate
  start : s'.drawdownMonitor.state.dailyStartBalanceUsd = s.drawdownMonitor.state.dailyStartBalanceUsd
  realized : s'.drawdownMonitor.state.dailyRealizedPnl = s.drawdownMonitor.state.dailyRealizedPnl + profit

theorem Closes.refl {exits : Set ℚ} {s : Replay} (h : s.Agrees) : Closes exits s s [] where
  trades := (List.append_nil _).symm
  exitTime _ ht := absurd ht List.not_mem_nil
  value := (add_zero _).symm
  agrees := h
  limit := rfl

theorem Closes.trans {exits : Set ℚ} {s s' s'' : Replay} {closed closed' : List TradeRecord}
    (h : Closes exits s s' closed) (h' : Closes exits s' s'' closed') : Closes exits s s'' (closed ++ closed') where
  trades := by rw [h'.trades, h.trades, List.append_assoc]
  exitTime t ht := (List.mem_append.1 ht).elim (h.exitTime t) (h'.exitTime t)
  value := by rw [h'.value, h.value, pnlOf_append, add_assoc]
  agrees := h'.agrees
  limit := h'.limit.trans h.limit

theorem Closes.mono {exits exits' : Set ℚ} {s s' : Replay} {closed : List TradeRecord} (h : Closes exits s s' closed)
    (hsub : exits ⊆ exits') : Closes exits' s s' closed :=
  { h with exitTime := fun t ht => hsub (h.exitTime t ht) }

theorem Tracks.refl (s : Replay) : Tracks s s 0 := ⟨rfl, rfl, (add_zero _).symm⟩

theorem Tracks.trans {s s' s'' : Replay} {profit profit' : ℚ} (h : Tracks s s' profit) (h' : Tracks s' s'' profit') :
    Tracks s s'' (profit + profit') where
  date := h'.date.trans h.date
  start := h'.start.trans h.start
  realized := by rw [h'.realized, h.realized, add_assoc]

/-- Updating the drawdown touches neither the books nor the ledger. -/
private theorem trackDrawdown_frame (s : Replay) : s.trackDrawdown.drawdownMonitor = s.drawdownMonitor ∧
    s.trackDrawdown.openPositions = s.openPositions ∧ s.trackDrawdown.trades = s.trades := by
  unfold trackDrawdown
  dsimp only
  split_ifs <;> exact ⟨rfl, rfl, rfl⟩

private theorem agrees_closeOpposite {s : Replay} (h : s.Agrees) (candle : OHLCVCandle) (p : ReplayPosition)
    {s' : Replay} (hpositions : s'.openPositions = s.openPositions.erase candle.symbol)
    (hmonitor : s'.drawdownMonitor = (s.close candle.symbol p candle).drawdownMonitor) : s'.Agrees := by
  intro symbol hget
  rw [hmonitor]
  show (s.drawdownMonitor.closePosition candle.symbol _).held symbol = none
  rw [DrawdownMonitor.held_closePosition]
  split
  case isTrue => rfl
  case isFalse hne =>
    rw [hpositions, Dict.get?_erase_of_ne hne] at hget
    exact h symbol hget

private theorem closeOpposite_spec {s : Replay} (h : s.Agrees) (candle : OHLCVCandle) (newSide : OrderSide) :
    ∃ closed, Closes {candle.timestamp} s (s.closeOpposite candle newSide) closed ∧
      Tracks s (s.closeOpposite candle newSide) (pnlOf closed) := by
  have hnothing : ∃ closed, Closes {candle.timestamp} s s closed ∧ Tracks s s (pnlOf closed) :=
    ⟨[], .refl h, .refl s⟩
  unfold closeOpposite
  split
  case h_1 => exact hnothing
  case h_2 p hp =>
    split
    case isFalse => exact hnothing
    case isTrue =>
      obtain ⟨hmonitor, hpositions, htrades⟩ := trackDrawdown_frame
        { s.close candle.symbol p candle with openPositions := s.openPositions.erase candle.symbol }
      have hpnl : pnlOf [roundTrip candle.symbol p candle] = (roundTrip candle.symbol p candle).pnl := by simp [pnlOf]
      refine ⟨[roundTrip candle.symbol p candle], ⟨htrades, ?_, ?_, ?_, ?_⟩, ⟨?_, ?_, ?_⟩⟩
      · intro t ht
        rw [List.mem_singleton.1 ht]
        rfl
      · rw [portfolioValueUsd, hmonitor, hpnl]
        exact DrawdownMonitor.portfolioValueUsd_closePosition _ _ _
      · exact agrees_closeOpposite h candle p hpositions hmonitor
      · rw [hmonitor]
        rfl
      · rw [hmonitor]
        rfl
      · rw [hmonitor]
        rfl
      · rw [hmonitor, hpnl]
        rfl

private theorem openAt_spec {s s' : Replay} (h : s.Agrees) {candle : OHLCVCandle} {newSide : OrderSide} {sizeUsd : ℚ}
    (hflat : s.openPositions.get? candle.symbol = none) (hopen : s.openAt candle newSide sizeUsd = some s') :
    Closes {candle.timestamp} s s' [] ∧ Tracks s s' 0 := by
  obtain ⟨-, heq⟩ := Option.ite_none_left_eq_some.1 hopen
  cases heq
  refine ⟨⟨(List.append_nil _).symm, fun t ht => absurd ht List.not_mem_nil, ?_, fun symbol hget => ?_, rfl⟩,
    ⟨rfl, rfl, (add_zero _).symm⟩⟩
  · exact (DrawdownMonitor.portfolioValueUsd_openPosition (h candle.symbol hflat) sizeUsd none).trans (add_zero _).symm
  · replace hget : (s.openPositions.set candle.symbol _).get? symbol = none := hget
    have hne : symbol ≠ candle.symbol := by
      rintro rfl
      rw [Dict.get?_set_self] at hget
      cases hget
    rw [Dict.get?_set_of_ne hne] at hget
    have hheld := DrawdownMonitor.held_eq_none_iff.1 (h symbol hget)
    refine DrawdownMonitor.held_eq_none_iff.2 ?_
    show (s.drawdownMonitor.state.openPositions.set candle.symbol sizeUsd).get? symbol = none
    rw [Dict.get?_set_of_ne hne, hheld]

/-- The monitor once the daily limit has been checked. -/
def checked (s : Replay) (now : ℚ) : Replay := { s with drawdownMonitor := s.drawdownMonitor.maybeResetDaily now }

/-- The profit that the monitor has booked on the day of the clock. -/
def bookedOn (s : Replay) (now : ℚ) : ℚ :=
  if s.drawdownMonitor.state.lastResetDate = utcDate now then s.drawdownMonitor.state.dailyRealizedPnl else 0

theorem checked_date (s : Replay) (now : ℚ) :
    (s.checked now).drawdownMonitor.state.lastResetDate = utcDate now := by
  unfold checked DrawdownMonitor.maybeResetDaily
  split_ifs with h
  · rfl
  · exact not_not.1 h

theorem checked_realized (s : Replay) (now : ℚ) :
    (s.checked now).drawdownMonitor.state.dailyRealizedPnl = s.bookedOn now := by
  unfold checked DrawdownMonitor.maybeResetDaily bookedOn
  by_cases h : s.drawdownMonitor.state.lastResetDate = utcDate now
  · rw [if_neg (not_not.2 h), if_pos h]
  · rw [if_pos h, if_neg h]

theorem checked_value (s : Replay) (now : ℚ) : (s.checked now).portfolioValueUsd = s.portfolioValueUsd :=
  DrawdownMonitor.portfolioValueUsd_maybeResetDaily _ _

private theorem closes_checked {s : Replay} (h : s.Agrees) (exits : Set ℚ) (now : ℚ) :
    Closes exits s (s.checked now) [] where
  trades := (List.append_nil _).symm
  exitTime _ ht := absurd ht List.not_mem_nil
  value := (s.checked_value now).trans (add_zero _).symm
  agrees symbol hget := (DrawdownMonitor.held_maybeResetDaily _ _ _).trans (h symbol hget)
  limit := by
    unfold checked DrawdownMonitor.maybeResetDaily
    split_ifs <;> rfl

section Turn

variable {settings : Settings} {talib : Option (TaLib ℚ)} {sqrt : ℚ → ℚ} {clock : OHLCVCandle → TurnReadings}

private theorem trade_spec {s s' : Replay} (h : s.Agrees) {candle : OHLCVCandle} {newSide : OrderSide}
    {stopPct portfolioValue : ℚ} (htrade : s.trade settings candle newSide stopPct portfolioValue = some s') :
    ∃ closed, Closes {candle.timestamp} s s' closed ∧ Tracks s s' (pnlOf closed) := by
  obtain ⟨closed, hcloses, htracks⟩ := closeOpposite_spec h candle newSide
  unfold trade at htrade
  dsimp only at htrade
  split_ifs at htrade with hheld hsize
  · cases htrade
    exact ⟨closed, hcloses, htracks⟩
  · cases htrade
    exact ⟨closed, hcloses, htracks⟩
  · -- nothing is held on the symbol any more, so the ledger opens a flat position
    have hflat : (s.closeOpposite candle newSide).openPositions.get? candle.symbol = none :=
      Option.not_isSome_iff_eq_none.1 hheld
    obtain ⟨hcloses', htracks'⟩ := openAt_spec hcloses.agrees hflat htrade
    refine ⟨closed ++ [], hcloses.trans hcloses', ?_⟩
    rw [pnlOf_append]
    exact htracks.trans htracks'

/-- A turn makes round trips that exit at its candle.  It does so after the check; without one it does nothing. -/
theorem turn_spec {s s' : Replay} (h : s.Agrees) {candle : OHLCVCandle}
    (hturn : s.turn settings talib sqrt clock candle = some s') : ∃ closed, Closes {candle.timestamp} s s' closed ∧
      (closed = [] ∧ Tracks s s' 0 ∨ Tracks (s.checked (clock candle).checkTime) s' (pnlOf closed)) := by
  have hadded : Closes {candle.timestamp} s { s with bufferRegistry := (s.bufferRegistry.add candle).2 } [] :=
    ⟨(List.append_nil _).symm, fun t ht => absurd ht List.not_mem_nil, (add_zero _).symm, h, rfl⟩
  unfold turn at hturn
  dsimp only at hturn
  generalize hs₁ : ({ s with bufferRegistry := (s.bufferRegistry.add candle).2 } : Replay) = s₁ at hturn hadded
  have hmonitor : s₁.drawdownMonitor = s.drawdownMonitor := by rw [← hs₁]
  split at hturn
  case h_1 =>
    cases hturn
    exact ⟨[], hadded, .inl ⟨rfl, by rw [hmonitor], by rw [hmonitor], by rw [hmonitor, add_zero]⟩⟩
  case h_2 signal _ =>
    have hchecked := closes_checked hadded.agrees {candle.timestamp} (clock candle).checkTime
    have htracks : Tracks (s.checked (clock candle).checkTime) (s₁.checked (clock candle).checkTime) 0 := by
      unfold checked
      rw [hmonitor]
      exact ⟨rfl, rfl, (add_zero _).symm⟩
    unfold onSignal at hturn
    dsimp only at hturn
    split_ifs at hturn
    · cases hturn
      exact ⟨[], hadded.trans hchecked, .inr htracks⟩
    · unfold propose at hturn
      split at hturn
      case h_1 =>
        cases hturn
        exact ⟨[], hadded.trans hchecked, .inr htracks⟩
      case h_2 proposal _ =>
        obtain ⟨closed, hcloses, htracks'⟩ := trade_spec hchecked.agrees hturn
        refine ⟨closed, (hadded.trans hchecked).trans hcloses, .inr ?_⟩
        have hboth := htracks.trans htracks'
        rwa [zero_add] at hboth

/-- The round trips of a run exit at its candles. -/
theorem exec_closes {s s' : Replay} (h : s.Agrees) {candles : List OHLCVCandle}
    (hrun : exec (turn settings talib sqrt clock) s candles = some s') :
    ∃ closed, Closes {t | ∃ c ∈ candles, c.timestamp = t} s s' closed := by
  induction candles generalizing s with
  | nil =>
    cases hrun
    exact ⟨[], .refl h⟩
  | cons c candles ih =>
    obtain ⟨s₁, hturn, hrest⟩ := exec_cons.1 hrun
    obtain ⟨closed, hcloses, -⟩ := turn_spec h hturn
    obtain ⟨closed', hcloses'⟩ := ih hcloses.agrees hrest
    refine ⟨closed ++ closed', (hcloses.mono ?_).trans (hcloses'.mono ?_)⟩
    · rintro t rfl
      exact ⟨c, List.mem_cons_self, rfl⟩
    · rintro t ⟨c', hc', rfl⟩
      exact ⟨c', List.mem_cons_of_mem _ hc', rfl⟩

/-- The ledger and the loop agree, and the daily start and profit make up the portfolio value. -/
structure Ledger (s : Replay) : Prop where
  agrees : s.Agrees
  balance : s.drawdownMonitor.state.dailyStartBalanceUsd + s.drawdownMonitor.state.dailyRealizedPnl =
    s.portfolioValueUsd

theorem ledger_init (settings : Settings) (initialBalance start : ℚ) : (init settings initialBalance start).Ledger where
  agrees _ _ := rfl
  balance := (add_zero _).trans (DrawdownMonitor.portfolioValueUsd_init _ _ _ _).symm

theorem Ledger.checked {s : Replay} (h : s.Ledger) (now : ℚ) : (s.checked now).Ledger where
  agrees := (closes_checked h.agrees ∅ now).agrees
  balance := by
    rw [checked_value]
    unfold Replay.checked DrawdownMonitor.maybeResetDaily
    split_ifs
    · exact add_zero _
    · exact h.balance

theorem Ledger.turn {s s' : Replay} (h : s.Ledger) {candle : OHLCVCandle}
    (hturn : s.turn settings talib sqrt clock candle = some s') : s'.Ledger := by
  obtain ⟨closed, hcloses, htracks⟩ := turn_spec h.agrees hturn
  refine ⟨hcloses.agrees, ?_⟩
  rcases htracks with ⟨rfl, htracks⟩ | htracks
  · rw [htracks.start, htracks.realized, add_zero, h.balance, hcloses.value]
    exact (add_zero _).symm
  · rw [htracks.start, htracks.realized, ← add_assoc, (h.checked _).balance, checked_value, hcloses.value]

/-! ### What the check measures from -/

variable (settings talib sqrt clock) in
/-- The portfolio value at the start of a UTC day, after the candles of the days before. -/
def valueAtMidnight (initialBalance start : ℚ) (before : List OHLCVCandle) (day : ℤ) : Option ℚ :=
  (exec (turn settings talib sqrt clock) (init settings initialBalance start)
    (before.takeWhile fun c => c.date < day)).map portfolioValueUsd

variable (settings) in
/-- The check measures the loss from `dayStart`, and is not failed by what was lost before the day. -/
structure MeasuresCandleDay (dayStart : Option ℚ) (s : Replay) (candle : OHLCVCandle) (now : ℚ) : Prop where
  start : dayStart = some (s.drawdownMonitor.dailyLossLimitBreached now).2.state.dailyStartBalanceUsd
  result : ∀ value ∈ dayStart, (s.drawdownMonitor.dailyLossLimitBreached now).1 =
    (settings.risk.maxDailyLossPct ≤ DrawdownMonitor.lossSince value s.portfolioValueUsd : Bool)
  earlier : (∀ t ∈ s.trades, t.exitDate ≠ candle.date) → (s.drawdownMonitor.dailyLossLimitBreached now).1 = false

/-- Since the start of a candle's day the portfolio has moved by the trades that exited on it. -/
private theorem exists_midnight {initialBalance start : ℚ} {before later : List OHLCVCandle} {c : OHLCVCandle}
    (hsorted : (before ++ c :: later).Pairwise fun c c' => c.timestamp < c'.timestamp) {s : Replay}
    (hrun : exec (turn settings talib sqrt clock) (init settings initialBalance start) before = some s) :
    ∃ value, valueAtMidnight settings talib sqrt clock initialBalance start before c.date = some value ∧
      s.portfolioValueUsd = value + s.closedOn c.date := by
  obtain ⟨hbefore, -, hc⟩ := List.pairwise_append.1 hsorted
  have hdates : before.Pairwise fun b b' => b.date ≤ b'.date := hbefore.imp fun h => utcDate_mono h.le
  have hsplit := List.takeWhile_append_dropWhile (p := fun b : OHLCVCandle => b.date < c.date) (l := before)
  have hrun' := hrun
  rw [← hsplit, exec_append] at hrun'
  -- the run is cut at midnight: the trades before the cut are of earlier days, those behind it of the candle's day
  obtain ⟨s₀, hrun₀, hrest⟩ := Option.bind_eq_some_iff.1 hrun'
  obtain ⟨closed₀, hcloses₀⟩ := exec_closes (ledger_init settings initialBalance start).agrees hrun₀
  obtain ⟨closed, hcloses⟩ := exec_closes hcloses₀.agrees hrest
  have hearlier : ∀ t ∈ s₀.trades, t.exitDate ≠ c.date := by
    intro t ht
    rw [hcloses₀.trades] at ht
    obtain ⟨b, hb, hexit⟩ := hcloses₀.exitTime t ht
    have hlt : b.date < c.date := by simpa using List.mem_takeWhile_imp hb
    rw [TradeRecord.exitDate, ← hexit]
    exact hlt.ne
  have htoday : ∀ t ∈ closed, t.exitDate = c.date := by
    intro t ht
    obtain ⟨b, hb, hexit⟩ := hcloses.exitTime t ht
    have hle : b.date ≤ c.date :=
      utcDate_mono (hc b ((List.dropWhile_sublist _).subset hb) c List.mem_cons_self).le
    rw [TradeRecord.exitDate, ← hexit]
    exact hle.antisymm (Records.le_of_mem_dropWhile hdates hb)
  refine ⟨s₀.portfolioValueUsd, by rw [valueAtMidnight, hrun₀]; rfl, ?_⟩
  rw [hcloses.value, closedOn, hcloses.trades, List.filter_append]
  rw [List.filter_eq_nil_iff.2 fun t ht => by simpa using hearlier t ht, List.nil_append,
    List.filter_eq_self.2 fun t ht => by simpa using htoday t ht]

private theorem limit_exec {initialBalance start : ℚ} {before : List OHLCVCandle} {s : Replay}
    (hrun : exec (turn settings talib sqrt clock) (init settings initialBalance start) before = some s) :
    s.Ledger ∧ s.drawdownMonitor.maxDailyLossPct = settings.risk.maxDailyLossPct := by
  obtain ⟨closed, hcloses⟩ := exec_closes (ledger_init settings initialBalance start).agrees hrun
  exact ⟨exec_invariant Ledger (fun _ _ _ hs hturn => hs.turn hturn) (ledger_init settings initialBalance start) hrun,
    hcloses.limit⟩

/-- A check measures from the start of the candle's day exactly if the profit booked on the day of the clock is that of
the trades that exited on the candle's day. -/
theorem measuresCandleDay_iff {initialBalance start : ℚ} {before later : List OHLCVCandle} {c : OHLCVCandle}
    (hsorted : (before ++ c :: later).Pairwise fun c c' => c.timestamp < c'.timestamp) {s : Replay}
    (hrun : exec (turn settings talib sqrt clock) (init settings initialBalance start) before = some s) (now : ℚ) :
    MeasuresCandleDay settings (valueAtMidnight settings talib sqrt clock initialBalance start before c.date) s c now ↔
      s.bookedOn now = s.closedOn c.date := by
  obtain ⟨value, hmidnight, hvalue⟩ := exists_midnight hsorted hrun
  obtain ⟨hledger, hlimit⟩ := limit_exec hrun
  have hbalance := (hledger.checked now).balance
  rw [checked_realized, checked_value] at hbalance
  rw [hmidnight]
  constructor
  · intro h
    have hstart : value = (s.checked now).drawdownMonitor.state.dailyStartBalanceUsd := Option.some.inj h.start
    rw [← hstart] at hbalance
    linarith
  · intro h
    have hstart : value = (s.checked now).drawdownMonitor.state.dailyStartBalanceUsd := by linarith
    have hresult : _ = (s.drawdownMonitor.maxDailyLossPct ≤ DrawdownMonitor.lossSince
        (s.checked now).drawdownMonitor.state.dailyStartBalanceUsd s.portfolioValueUsd : Bool) :=
      s.drawdownMonitor.dailyLossLimitBreached_fst now
    rw [← hstart, hlimit] at hresult
    refine ⟨congrArg some hstart, fun value' hvalue' => ?_, fun hearlier => ?_⟩
    · cases hvalue'
      exact hresult
    · have hnone : s.closedOn c.date = 0 := by
        rw [closedOn, List.filter_eq_nil_iff.2 fun t ht => by simpa using hearlier t ht]
        rfl
      have hloss : DrawdownMonitor.lossSince value s.portfolioValueUsd = 0 := by
        rw [hvalue, hnone, add_zero, DrawdownMonitor.lossSince, sub_self, zero_div, ite_self]
      rw [hresult, hloss]
      exact decide_eq_false (not_le.2 settings.risk.maxDailyLossPct_mem.1)

end Turn

end Replay

end MultiAgentTrading
