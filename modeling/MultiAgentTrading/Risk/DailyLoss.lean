import Mathlib.Data.List.TakeWhile
import MultiAgentTrading.Lib.Records
import MultiAgentTrading.Risk.DrawdownMonitor

/-!
# What the daily loss is measured from

Calls on one monitor at nondecreasing times.  The daily tracking is reset by the first evaluation of a day and not at
midnight, so the calls of a day before its first evaluation, `beforeEvaluation`, fall into the day before.  The run is
split there: `after_sameDay` covers the calls behind the reset, and `portfolioValueUsd_after` says by how much the
portfolio value has moved since midnight when the reset comes.
-/

namespace MultiAgentTrading.DrawdownMonitor

inductive Op
  | openPosition (symbol : String) (sizeUsd : ℚ) (side : Option OrderSide)
  | adjustPositionCost (symbol : String) (actualCostUsd : ℚ)
  | closePosition (symbol : String) (pnlUsd : ℚ)
  | evaluate
  deriving DecidableEq

/-- A call on the monitor, with the reading of the clock. -/
structure Call where
  time : ℚ
  op : Op
  deriving DecidableEq

namespace Call

def date (c : Call) : ℤ := utcDate c.time

def run (m : DrawdownMonitor) (c : Call) : DrawdownMonitor :=
  match c.op with
  | .openPosition symbol size side => m.openPosition symbol size side
  | .adjustPositionCost symbol cost => m.adjustPositionCost symbol cost
  | .closePosition symbol pnl => m.closePosition symbol pnl
  | .evaluate => (m.dailyLossLimitBreached c.time).2

/-- The profit that a call closes. -/
def pnl (c : Call) : ℚ :=
  match c.op with
  | .closePosition _ pnl => pnl
  | _ => 0

/-- The cost of a held position that a call opens over. -/
def overwritten (m : DrawdownMonitor) (c : Call) : ℚ :=
  match c.op with
  | .openPosition symbol _ _ => (m.state.openPositions.get? symbol).getD 0
  | _ => 0

end Call

/-- The monitor after the calls. -/
def after (m : DrawdownMonitor) (calls : List Call) : DrawdownMonitor := calls.foldl Call.run m

def closedPnl (calls : List Call) : ℚ := (calls.map Call.pnl).sum

/-- The profit closed on a day. -/
def closedOn (day : ℤ) (calls : List Call) : ℚ := closedPnl (calls.filter fun c => c.date = day)

def overwrittenCost : DrawdownMonitor → List Call → ℚ
  | _, [] => 0
  | m, c :: calls => c.overwritten m + overwrittenCost (c.run m) calls

/-- The portfolio value at 00:00 UTC of a day. -/
def valueAtMidnight (m : DrawdownMonitor) (day : ℤ) (calls : List Call) : ℚ :=
  (m.after (calls.takeWhile fun c => c.date < day)).state.portfolioValueUsd

/-- The calls of a day before its first evaluation.  A monitor created on the day starts with its tracking reset. -/
def beforeEvaluation (created day : ℤ) (calls : List Call) : List Call :=
  if created = day then [] else (calls.dropWhile fun c => c.date < day).takeWhile fun c => c.op ≠ .evaluate

/-- The fraction of `start` that is lost at `value`. -/
def lossSince (start value : ℚ) : ℚ := if start = 0 then 0 else (start - value) / start

/-- The result of an evaluation is about the loss since the start that it uses. -/
theorem dailyLossLimitBreached_fst (m : DrawdownMonitor) (now : ℚ) : (m.dailyLossLimitBreached now).1 =
    (m.maxDailyLossPct ≤
      lossSince (m.maybeResetDaily now).state.dailyStartBalanceUsd m.state.portfolioValueUsd : Bool) := by
  unfold dailyLossLimitBreached maybeResetDaily
  dsimp only
  split <;> rfl

/-- An evaluation at `time` after `calls` compares the loss since midnight with the limit, and the realised profit is
that of its day. -/
structure MeasuresDay (m : DrawdownMonitor) (calls : List Call) (time : ℚ) : Prop where
  start : ((m.after calls).dailyLossLimitBreached time).2.state.dailyStartBalanceUsd =
    m.valueAtMidnight (utcDate time) calls
  result : ((m.after calls).dailyLossLimitBreached time).1 =
    (m.maxDailyLossPct ≤
      lossSince (m.valueAtMidnight (utcDate time) calls) (m.after calls).state.portfolioValueUsd : Bool)
  realized : ((m.after calls).dailyLossLimitBreached time).2.state.dailyRealizedPnl = closedOn (utcDate time) calls

/-- The calls on `day` before its first evaluation close no profit and open over no cost, in total. -/
structure QuietUntilEvaluated (m : DrawdownMonitor) (day : ℤ) (calls : List Call) : Prop where
  closed : closedPnl (beforeEvaluation m.state.lastResetDate day calls) = 0
  overwritten : overwrittenCost (m.after (calls.takeWhile fun c => c.date < day))
    (beforeEvaluation m.state.lastResetDate day calls) = 0

/-! ### What the calls leave -/

theorem after_append (m : DrawdownMonitor) (calls calls' : List Call) :
    m.after (calls ++ calls') = (m.after calls).after calls' :=
  List.foldl_append

private theorem closedPnl_append (calls calls' : List Call) :
    closedPnl (calls ++ calls') = closedPnl calls + closedPnl calls' := by
  simp [closedPnl]

/-- Opening moves cash into the position; what was held there before is lost. -/
private theorem portfolioValueUsd_openPosition_getD (m : DrawdownMonitor) (symbol : String) (size : ℚ)
    (side : Option OrderSide) : (m.openPosition symbol size side).state.portfolioValueUsd =
      m.state.portfolioValueUsd - (m.state.openPositions.get? symbol).getD 0 := by
  cases h : m.state.openPositions.get? symbol with
  | none =>
    rw [portfolioValueUsd_openPosition (held_eq_none_iff.2 h)]
    simp
  | some cost =>
    simp only [PortfolioState.portfolioValueUsd, openPosition, Dict.total_set_of_some h, id, Option.getD_some]
    ring

private theorem portfolioValueUsd_run (m : DrawdownMonitor) (c : Call) :
    (c.run m).state.portfolioValueUsd = m.state.portfolioValueUsd + c.pnl - c.overwritten m := by
  obtain ⟨time, op⟩ := c
  cases op with
  | openPosition symbol size side => simp [Call.run, Call.pnl, Call.overwritten, portfolioValueUsd_openPosition_getD]
  | adjustPositionCost symbol cost =>
    simp [Call.run, Call.pnl, Call.overwritten, portfolioValueUsd_adjustPositionCost]
  | closePosition symbol pnl => simp [Call.run, Call.pnl, Call.overwritten, portfolioValueUsd_closePosition]
  | evaluate => simp [Call.run, Call.pnl, Call.overwritten, dailyLossLimitBreached]

/-- The portfolio value moves by the profits closed, less the costs opened over. -/
theorem portfolioValueUsd_after (m : DrawdownMonitor) (calls : List Call) :
    (m.after calls).state.portfolioValueUsd =
      m.state.portfolioValueUsd + closedPnl calls - overwrittenCost m calls := by
  induction calls generalizing m with
  | nil => simp [after, closedPnl, overwrittenCost]
  | cons c calls ih =>
    have hrest : ((c.run m).after calls).state.portfolioValueUsd = _ := ih (c.run m)
    have hstep := portfolioValueUsd_run m c
    have hsum : closedPnl (c :: calls) = c.pnl + closedPnl calls := by simp [closedPnl]
    show ((c.run m).after calls).state.portfolioValueUsd = _
    rw [hrest, hstep, hsum, overwrittenCost]
    ring

@[simp] private theorem maxDailyLossPct_after (m : DrawdownMonitor) (calls : List Call) :
    (m.after calls).maxDailyLossPct = m.maxDailyLossPct := by
  induction calls generalizing m with
  | nil => rfl
  | cons c calls ih =>
    have hrun : (c.run m).maxDailyLossPct = m.maxDailyLossPct := by
      unfold Call.run
      split
      · rfl
      · unfold adjustPositionCost; split <;> rfl
      · rfl
      · unfold dailyLossLimitBreached maybeResetDaily; dsimp only; split <;> rfl
    exact (ih _).trans hrun

/-- The daily tracking of two monitors: the day, what the loss is measured from, and the profit realised. -/
private structure Tracks (m : DrawdownMonitor) (day : ℤ) (start realized : ℚ) : Prop where
  date : m.state.lastResetDate = day
  start : m.state.dailyStartBalanceUsd = start
  realized : m.state.dailyRealizedPnl = realized

/-- A call that does not reset the tracking adds its profit. -/
private theorem tracks_run {m : DrawdownMonitor} {c : Call}
    (h : c.op = .evaluate → c.date = m.state.lastResetDate) :
    Tracks (c.run m) m.state.lastResetDate m.state.dailyStartBalanceUsd (m.state.dailyRealizedPnl + c.pnl) := by
  obtain ⟨time, op⟩ := c
  cases op with
  | openPosition symbol size side => exact ⟨rfl, rfl, (add_zero _).symm⟩
  | adjustPositionCost symbol cost =>
    unfold Call.run adjustPositionCost
    dsimp only
    split <;> exact ⟨rfl, rfl, (add_zero _).symm⟩
  | closePosition symbol pnl => exact ⟨rfl, rfl, rfl⟩
  | evaluate =>
    have hsame : m.maybeResetDaily time = m := if_neg (not_not.2 (h rfl).symm)
    have hrun : Call.run m ⟨time, .evaluate⟩ = m := hsame
    rw [hrun]
    exact ⟨rfl, rfl, (add_zero _).symm⟩

/-- Calls none of which resets the tracking: on the day it was reset, or without an evaluation. -/
private theorem tracks_after {m : DrawdownMonitor} {calls : List Call}
    (h : ∀ c ∈ calls, c.op = .evaluate → c.date = m.state.lastResetDate) :
    Tracks (m.after calls) m.state.lastResetDate m.state.dailyStartBalanceUsd
      (m.state.dailyRealizedPnl + closedPnl calls) := by
  induction calls generalizing m with
  | nil => exact ⟨rfl, rfl, by simp [after, closedPnl]⟩
  | cons c calls ih =>
    obtain ⟨hdate, hstart, hrealized⟩ := tracks_run (h c List.mem_cons_self)
    have hrest := ih (m := c.run m) fun c' hc' he => by
      rw [hdate]
      exact h c' (List.mem_cons_of_mem _ hc') he
    rw [hdate, hstart, hrealized] at hrest
    have hsum : closedPnl (c :: calls) = c.pnl + closedPnl calls := by simp [closedPnl]
    rw [hsum, ← add_assoc]
    exact hrest

/-- Calls before a day leave the tracking reset before it. -/
private theorem lastResetDate_after_lt {m : DrawdownMonitor} {day : ℤ} {calls : List Call}
    (hm : m.state.lastResetDate < day) (h : ∀ c ∈ calls, c.date < day) :
    (m.after calls).state.lastResetDate < day := by
  induction calls generalizing m with
  | nil => exact hm
  | cons c calls ih =>
    refine ih ?_ fun c' hc' => h c' (List.mem_cons_of_mem _ hc')
    by_cases hsame : c.op = .evaluate → c.date = m.state.lastResetDate
    · rw [(tracks_run hsame).date]
      exact hm
    · obtain ⟨he, hne⟩ := Classical.not_imp.1 hsame
      have hreset : (c.run m).state.lastResetDate = c.date := by
        unfold Call.run
        rw [he]
        exact congrArg (fun m : DrawdownMonitor => m.state.lastResetDate) (if_pos (Ne.symm hne))
      rw [hreset]
      exact h c List.mem_cons_self

/-! ### The tracking at an evaluation -/

private theorem tracks_reset {m : DrawdownMonitor} {time : ℚ} (h : m.state.lastResetDate ≠ utcDate time) :
    Tracks (m.maybeResetDaily time) (utcDate time) m.state.portfolioValueUsd 0 := by
  unfold maybeResetDaily
  rw [if_pos h]
  exact ⟨rfl, rfl, rfl⟩

private theorem maybeResetDaily_of_eq {m : DrawdownMonitor} {time : ℚ} (h : m.state.lastResetDate = utcDate time) :
    m.maybeResetDaily time = m :=
  if_neg (not_not.2 h)

/-- The calls in the order of their days, all on days from `first` to `last`. -/
structure InOrder (first last : ℤ) (calls : List Call) : Prop where
  sorted : calls.Pairwise fun c c' => c.date ≤ c'.date
  first : ∀ c ∈ calls, first ≤ c.date
  last : ∀ c ∈ calls, c.date ≤ last

private theorem date_of_mem_dropWhile {first last : ℤ} {calls : List Call} (h : InOrder first last calls) :
    ∀ c ∈ calls.dropWhile (fun c => c.date < last), c.date = last := by
  intro c hc
  have hle : c.date ≤ last := h.last c ((List.dropWhile_sublist _).subset hc)
  exact hle.antisymm (Records.le_of_mem_dropWhile h.sorted hc)

/-- The first evaluation of a day measures from the value it finds, and later ones of the day do too. -/
private theorem tracks_first_evaluation {m : DrawdownMonitor} {quiet evaluated : List Call} {time : ℚ}
    (hm : m.state.lastResetDate ≠ utcDate time) (hquiet : ∀ c ∈ quiet, c.op ≠ .evaluate)
    (hhead : ∀ c ∈ evaluated.head?, c.op = .evaluate) (htoday : ∀ c ∈ evaluated, c.date = utcDate time) :
    Tracks ((m.after (quiet ++ evaluated)).maybeResetDaily time) (utcDate time)
      (m.after quiet).state.portfolioValueUsd (closedPnl evaluated) := by
  have hdate : (m.after quiet).state.lastResetDate = m.state.lastResetDate :=
    (tracks_after fun c hc he => absurd he (hquiet c hc)).date
  rw [after_append]
  generalize m.after quiet = m at hdate ⊢
  cases evaluated with
  | nil => exact tracks_reset (hdate ▸ hm)
  | cons c evaluated =>
    have hc : c.date = utcDate time := htoday c List.mem_cons_self
    have hrun : c.run m = m.maybeResetDaily c.time := by
      unfold Call.run
      rw [hhead c rfl]
      rfl
    have hzero : c.pnl = 0 := by
      unfold Call.pnl
      rw [hhead c rfl]
    obtain ⟨hdate', hstart, hrealized⟩ : Tracks (c.run m) c.date _ _ :=
      hrun ▸ tracks_reset (show m.state.lastResetDate ≠ c.date by rw [hdate, hc]; exact hm)
    have hrest := @tracks_after (c.run m) evaluated fun c' hc' _ => by
      rw [hdate', hc]
      exact htoday c' (List.mem_cons_of_mem _ hc')
    rw [hdate', hc, hstart, hrealized] at hrest
    show Tracks (((c.run m).after evaluated).maybeResetDaily time) _ _ _
    rw [maybeResetDaily_of_eq hrest.date]
    have hsum : closedPnl (c :: evaluated) = 0 + closedPnl evaluated := by simp [closedPnl, hzero]
    rw [hsum]
    exact hrest

/-- At an evaluation the loss is measured from the value after the calls before the day's first evaluation, and the
profit is that of the calls behind it. -/
private theorem tracks_evaluation {m : DrawdownMonitor} {calls : List Call} {time : ℚ}
    (horder : InOrder m.state.lastResetDate (utcDate time) calls) (hday : m.state.lastResetDate ≤ utcDate time)
    (hstart : m.state.dailyStartBalanceUsd = m.state.portfolioValueUsd) (hrealized : m.state.dailyRealizedPnl = 0) :
    Tracks ((m.after calls).maybeResetDaily time) (utcDate time)
      ((m.after (calls.takeWhile fun c => c.date < utcDate time)).after
        (beforeEvaluation m.state.lastResetDate (utcDate time) calls)).state.portfolioValueUsd
      (closedPnl (calls.dropWhile fun c => c.date < utcDate time) -
        closedPnl (beforeEvaluation m.state.lastResetDate (utcDate time) calls)) := by
  have htoday := date_of_mem_dropWhile horder
  have hbefore : ∀ c ∈ calls.takeWhile (fun c => c.date < utcDate time), c.date < utcDate time := fun c hc => by
    simpa using List.mem_takeWhile_imp hc
  have hfirst : ∀ c ∈ calls.takeWhile (fun c => c.date < utcDate time), m.state.lastResetDate ≤ c.date := fun c hc =>
    horder.first c ((List.takeWhile_sublist _).subset hc)
  have hsplit := List.takeWhile_append_dropWhile (p := fun c : Call => c.date < utcDate time) (l := calls)
  unfold beforeEvaluation
  generalize calls.takeWhile (fun c => c.date < utcDate time) = before at hsplit hbefore hfirst
  generalize calls.dropWhile (fun c => c.date < utcDate time) = today at hsplit htoday
  subst hsplit
  by_cases hcreated : m.state.lastResetDate = utcDate time
  · -- the monitor was created on this day, and every call is of it
    obtain rfl : before = [] := List.eq_nil_iff_forall_not_mem.2 fun c hc => by
      have := hbefore c hc
      have := hfirst c hc
      omega
    rw [if_pos hcreated, List.nil_append]
    have hall := @tracks_after m today fun c hc _ => (htoday c hc).trans hcreated.symm
    rw [hcreated, hstart, hrealized, zero_add] at hall
    rw [maybeResetDaily_of_eq hall.date]
    have hnone : closedPnl [] = 0 := rfl
    rw [hnone, sub_zero]
    exact hall
  · rw [if_neg hcreated, after_append]
    have hreset := lastResetDate_after_lt (lt_of_le_of_ne hday hcreated) hbefore
    have hquiet : ∀ c ∈ today.takeWhile (fun c => c.op ≠ .evaluate), c.op ≠ .evaluate := fun c hc => by
      simpa using List.mem_takeWhile_imp hc
    have hhead : ∀ c ∈ (today.dropWhile fun c => c.op ≠ .evaluate).head?, c.op = .evaluate := fun c hc => by
      have hnot := List.head?_dropWhile_not (fun c : Call => decide (c.op ≠ .evaluate)) today
      rw [Option.mem_def.1 hc] at hnot
      simpa using hnot
    have htoday' : ∀ c ∈ today.dropWhile (fun c => c.op ≠ .evaluate), c.date = utcDate time := fun c hc =>
      htoday c ((List.dropWhile_sublist _).subset hc)
    have hsplit := List.takeWhile_append_dropWhile (p := fun c : Call => c.op ≠ .evaluate) (l := today)
    have htracks := tracks_first_evaluation hreset.ne hquiet hhead htoday'
    rw [hsplit] at htracks
    have hsum : closedPnl today - closedPnl (today.takeWhile fun c => c.op ≠ .evaluate) =
        closedPnl (today.dropWhile fun c => c.op ≠ .evaluate) := by
      have happend := closedPnl_append (today.takeWhile fun c => c.op ≠ .evaluate)
        (today.dropWhile fun c => c.op ≠ .evaluate)
      rw [hsplit] at happend
      rw [happend, add_sub_cancel_left]
    rw [hsum]
    exact htracks

private theorem closedOn_eq {first last : ℤ} {calls : List Call} (h : InOrder first last calls) :
    closedOn last calls = closedPnl (calls.dropWhile fun c => c.date < last) := by
  have htoday := date_of_mem_dropWhile h
  have hbefore : ∀ c ∈ calls.takeWhile (fun c => c.date < last), c.date ≠ last := fun c hc =>
    ne_of_lt (by simpa using List.mem_takeWhile_imp hc)
  have hsplit := List.takeWhile_append_dropWhile (p := fun c : Call => c.date < last) (l := calls)
  unfold closedOn
  conv_lhs => rw [← hsplit, List.filter_append]
  rw [List.filter_eq_nil_iff.2 fun c hc => by simpa using hbefore c hc, List.nil_append,
    List.filter_eq_self.2 fun c hc => by simpa using htoday c hc]

private theorem inOrder_of_sorted {created time : ℚ} {calls later : List Call}
    (h : (created :: (calls ++ ⟨time, .evaluate⟩ :: later).map Call.time).Pairwise (· ≤ ·)) :
    InOrder (utcDate created) (utcDate time) calls ∧ utcDate created ≤ utcDate time := by
  rw [List.pairwise_cons, List.map_append, List.pairwise_append, List.pairwise_map] at h
  obtain ⟨hfirst, hsorted, -, hlast⟩ := h
  refine ⟨⟨hsorted.imp fun h => utcDate_mono h, fun c hc => ?_, fun c hc => ?_⟩, ?_⟩
  · exact utcDate_mono (hfirst _ (List.mem_append_left _ (List.mem_map_of_mem hc)))
  · exact utcDate_mono (hlast _ (List.mem_map_of_mem hc) _ List.mem_cons_self)
  · exact utcDate_mono (hfirst _ (List.mem_append_right _ List.mem_cons_self))

/-- The daily loss.  An evaluation on a new monitor, after any calls at nondecreasing times, compares the loss since
the midnight of its day with the limit and has the profit of the day, exactly if the calls of the day before its first
evaluation close no profit and open over no held cost. -/
theorem daily_loss_from_midnight_iff {initialBalanceUsd maxDailyLossPct maxTotalDrawdownPct created time : ℚ}
    {run calls later : List Call} (hsorted : (created :: run.map Call.time).Pairwise (· ≤ ·))
    (hrun : run = calls ++ ⟨time, .evaluate⟩ :: later) :
    let m := init initialBalanceUsd maxDailyLossPct maxTotalDrawdownPct created
    m.MeasuresDay calls time ↔ m.QuietUntilEvaluated (utcDate time) calls := by
  intro m
  subst hrun
  obtain ⟨horder, hday⟩ := inOrder_of_sorted hsorted
  obtain ⟨-, hstart, hrealized⟩ :=
    tracks_evaluation (m := m) horder hday (portfolioValueUsd_init _ _ _ _).symm rfl
  have hvalue := portfolioValueUsd_after (m.after (calls.takeWhile fun c => c.date < utcDate time))
    (beforeEvaluation m.state.lastResetDate (utcDate time) calls)
  have hclosed := closedOn_eq horder
  rw [← hclosed] at hrealized
  rw [hvalue] at hstart
  have hloss := (m.after calls).dailyLossLimitBreached_fst time
  rw [maxDailyLossPct_after] at hloss
  constructor
  · rintro ⟨hsame, -, hday⟩
    have hpnl : closedPnl (beforeEvaluation m.state.lastResetDate (utcDate time) calls) = 0 := by
      have := hrealized.symm.trans hday
      linarith
    refine ⟨hpnl, ?_⟩
    have := hstart.symm.trans hsame
    unfold valueAtMidnight at this
    linarith
  · rintro ⟨hpnl, hover⟩
    rw [hpnl, sub_zero] at hrealized
    rw [hpnl, hover, add_zero, sub_zero] at hstart
    exact ⟨hstart, hloss.trans (by rw [hstart]; rfl), hrealized⟩

/-- A loss of 1% before the first midnight, then a loss of 6% after the first evaluation of the next day. -/
def lossAfterEvaluation : List Call :=
  [⟨3600, .openPosition "BTC/USDT" 2000 (some .buy)⟩, ⟨7200, .closePosition "BTC/USDT" (-100)⟩, ⟨86460, .evaluate⟩,
    ⟨90000, .openPosition "BTC/USDT" 2000 (some .buy)⟩, ⟨93600, .closePosition "BTC/USDT" (-594)⟩]

theorem daily_loss_from_midnight_lossAfterEvaluation :
    let m := init 10000 (5 / 100) (20 / 100) 0
    m.MeasuresDay lossAfterEvaluation 97200 ∧
      ((m.after lossAfterEvaluation).dailyLossLimitBreached 97200).1 = true := by
  refine ⟨?_, by decide +kernel⟩
  have hsorted : ((0 : ℚ) :: (lossAfterEvaluation ++ [(⟨97200, .evaluate⟩ : Call)]).map Call.time).Pairwise
      (· ≤ ·) := by decide +kernel
  exact (daily_loss_from_midnight_iff hsorted rfl).2 ⟨by decide +kernel, by decide +kernel⟩

/-- A position lost half its cost a minute after midnight, before the first evaluation of the day. -/
def lossBeforeEvaluation : List Call :=
  [⟨3600, .openPosition "BTC/USDT" 2000 (some .buy)⟩, ⟨86460, .closePosition "BTC/USDT" (-1000)⟩]

theorem daily_loss_not_from_midnight :
    ¬ ∀ (initialBalanceUsd maxDailyLossPct maxTotalDrawdownPct created time : ℚ) (run calls later : List Call),
      (created :: run.map Call.time).Pairwise (· ≤ ·) → run = calls ++ ⟨time, .evaluate⟩ :: later →
        let m := init initialBalanceUsd maxDailyLossPct maxTotalDrawdownPct created
        ((m.after calls).dailyLossLimitBreached time).1 =
            (m.maxDailyLossPct ≤
              lossSince (m.valueAtMidnight (utcDate time) calls) (m.after calls).state.portfolioValueUsd : Bool) ∧
          ((m.after calls).dailyLossLimitBreached time).2.state.dailyRealizedPnl = closedOn (utcDate time) calls := by
  intro h
  have hday := h 10000 (5 / 100) (20 / 100) 0 86520 (lossBeforeEvaluation ++ [⟨86520, .evaluate⟩])
    lossBeforeEvaluation [] (by decide +kernel) rfl
  revert hday
  decide +kernel

end MultiAgentTrading.DrawdownMonitor
