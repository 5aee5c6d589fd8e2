import MultiAgentTrading.Execution.BrokerTasks
import MultiAgentTrading.Lib.ListSet
import MultiAgentTrading.Lib.Runs
import Mathlib.Tactic.Linarith

/-!
# Runs of the paper broker

Any number of `place_order` and `close_position` calls in flight, resumed in any order.  `equity_conservation`
bounds how far the equity drifts from the reported profits; `life_cycle` says that the fills of each symbol alternate
between opening and closing one position.  Both rest on `resume_effect`: a run changes the account one `Effect` at a
time.
-/

namespace MultiAgentTrading

open PaperBroker Runs

/-- The account and every call made so far, with what it still has to do. -/
structure BrokerRun where
  account : PaperAccount
  tasks : List BrokerTask := []

/-- A call, the end of an await of the `i`-th call, or a change of the bus connection. -/
inductive BrokerEvent
  | placeOrder (assessment : RiskAssessment ℚ)
  | closePosition (symbol : String) (price : Option ℚ) (proposalId assessmentId resultId : ℕ)
  | resume (i : ℕ) (wakeup : Wakeup)
  | link (connected : Bool)

namespace BrokerRun

def init (settings : Settings) (connected : Bool) : BrokerRun where
  account := { broker := .init settings, connected := connected }

def step (settings : Settings) (s : BrokerRun) : BrokerEvent → Option BrokerRun
  | .placeOrder a => some { s with tasks := s.tasks ++ [s.account.startOrder settings a] }
  | .closePosition symbol price proposalId assessmentId resultId =>
    let started := s.account.startClose symbol price proposalId assessmentId resultId
    some ⟨started.1, s.tasks ++ [started.2]⟩
  | .resume i wakeup =>
    match s.tasks[i]? with
    | none => none
    | some task => (s.account.resume task wakeup).map fun resumed => ⟨resumed.1, s.tasks.set i resumed.2⟩
  | .link connected => some { s with account := { s.account with connected := connected } }

/-- A call that is resumed changes the account and itself. -/
theorem step_resume {settings : Settings} {s s' : BrokerRun} {i : ℕ} {wakeup : Wakeup}
    (h : step settings s (.resume i wakeup) = some s') :
    ∃ task w task', s.tasks[i]? = some task ∧ s.account.resume task wakeup = some (w, task') ∧
      s' = ⟨w, s.tasks.set i task'⟩ := by
  unfold step at h
  cases htask : s.tasks[i]? with
  | none => simp [htask] at h
  | some task =>
    simp only [htask, Option.map_eq_some_iff] at h
    obtain ⟨⟨w, task'⟩, hresume, rfl⟩ := h
    exact ⟨task, w, task', rfl, hresume, rfl⟩

/-- A step of a run has one effect on the account. -/
theorem step_effect {settings : Settings} {s s' : BrokerRun} {e : BrokerEvent} (h : step settings s e = some s') :
    PaperAccount.Effect s.account s'.account := by
  cases e with
  | placeOrder a =>
    cases h
    exact .same (.refl _)
  | closePosition symbol price proposalId assessmentId resultId =>
    cases h
    exact PaperAccount.startClose_effect _ _ _ _ _ _
  | resume i wakeup =>
    obtain ⟨task, w, task', -, hresume, rfl⟩ := step_resume h
    exact PaperAccount.resume_effect hresume
  | link connected =>
    cases h
    exact .same ⟨rfl, rfl, rfl⟩

end BrokerRun

/-! ### Equity -/

namespace PaperAccount

def equity (w : PaperAccount) : ℚ := w.broker.getBalance.totalEquityUsd

/-- The sum of the profits reported so far. -/
def realizedTotal (w : PaperAccount) : ℚ := (w.fills.map FillEvent.realizedPnl).sum

/-- The number of closes so far. -/
def closes (w : PaperAccount) : ℕ := w.fills.countP FillEvent.isClose

private theorem equity_of_sameBooks {w w' : PaperAccount} (h : SameBooks w w') : w'.equity = w.equity := by
  simp [equity, getBalance, totalEquity, usedMargin, h.cash, h.positions]

/-- What a step may do to the equity: nothing when it fills nothing or opens a position; a close adds the cash
returned less the cost, and reports that up to half a cent. -/
def EquityStep (w w' : PaperAccount) : Prop :=
  (w'.fills = w.fills ∧ w'.equity = w.equity) ∨
  (∃ position result, w'.fills = w.fills ++ [.opened position result] ∧ result.realizedPnlUsd = none ∧
    w'.equity = w.equity) ∨
  (∃ position fill result, w'.fills = w.fills ++ [.closed position fill result] ∧
    result.realizedPnlUsd = some fill.realized ∧
    w'.equity = w.equity + (fill.cashReturned - position.costUsd) ∧
    |fill.cashReturned - position.costUsd - fill.realized| ≤ 5 / 1000)

theorem Effect.equityStep {w w' : PaperAccount} (h : Effect w w') : w.EquityStep w' := by
  cases h with
  | same h => exact .inl ⟨h.fills, equity_of_sameBooks h⟩
  | opened position result hwf hflat hsymbol hside hqty hpnl hcash hpositions hfills =>
    refine .inr (.inl ⟨position, result, hfills, hpnl, ?_⟩)
    simp only [PaperAccount.equity, getBalance, totalEquity, usedMargin, hcash, hpositions,
      Dict.total_set_of_none hflat]
    ring
  | closed position fill result hheld hside hqty hpnl hround hcash hpositions hfills =>
    refine .inr (.inr ⟨position, fill, result, hfills, hpnl, ?_, hround⟩)
    simp only [PaperAccount.equity, getBalance, totalEquity, usedMargin, hcash, hpositions,
      Dict.total_erase_of_some hheld]
    ring

/-- The equity is the initial balance plus the reported profits, up to half a cent for each close. -/
def EquityNear (initial : ℚ) (w : PaperAccount) : Prop :=
  |w.equity - initial - w.realizedTotal| ≤ 5 / 1000 * w.closes

theorem EquityNear.effect {initial : ℚ} {w w' : PaperAccount} (h : EquityNear initial w) (he : Effect w w') :
    EquityNear initial w' := by
  unfold EquityNear realizedTotal closes at *
  rcases he.equityStep with ⟨hf, heq⟩ | ⟨position, result, hf, hpnl, heq⟩ |
    ⟨position, fill, result, hf, hpnl, heq, hround⟩
  · rwa [hf, heq]
  · rw [hf, heq]
    simpa [FillEvent.realizedPnl, FillEvent.result, FillEvent.isClose, hpnl] using h
  · have hsum : ((w'.fills.map FillEvent.realizedPnl).sum : ℚ) =
        (w.fills.map FillEvent.realizedPnl).sum + fill.realized := by
      simp [hf, FillEvent.realizedPnl, FillEvent.result, hpnl]
    have hcount : ((w'.fills.countP FillEvent.isClose : ℕ) : ℚ) = w.fills.countP FillEvent.isClose + 1 := by
      simp [hf, FillEvent.isClose]
    rw [hsum, hcount, heq]
    rw [abs_le] at *
    constructor <;> linarith [h.1, h.2, hround.1, hround.2]

end PaperAccount

/-! ### Reported results -/

/-- The result a call has in hand: pending until its save has ended, or returned. -/
def BrokerTask.result? : BrokerTask → Option ExecutionResult
  | .sleeping _ _ => none
  | .saving _ next => some next.result
  | .done (.ok reply) => reply
  | .done (.error _) => none

namespace PaperAccount

/-- A result reported for one of the fills. -/
def Reported (w : PaperAccount) (result : ExecutionResult) : Prop := ∃ f ∈ w.fills, f.result = result

/-- Every remembered order is one of the fills. -/
def CacheReported (w : PaperAccount) : Prop :=
  ∀ proposalId result, w.broker.filledOrders.get? proposalId = some result → w.Reported result

theorem Effect.fills_extend {w w' : PaperAccount} (h : Effect w w') : w.fills <+: w'.fills := by
  cases h with
  | same h => rw [h.fills]
  | opened position result hwf hflat hsymbol hside hqty hpnl hcash hpositions hfills =>
    rw [hfills]; exact List.prefix_append _ _
  | closed position fill result hheld hside hqty hpnl hround hcash hpositions hfills =>
    rw [hfills]; exact List.prefix_append _ _

private theorem Reported.mono {w w' : PaperAccount} {result : ExecutionResult} (h : w.Reported result)
    (hf : w.fills <+: w'.fills) : w'.Reported result := by
  obtain ⟨f, hmem, hr⟩ := h
  exact ⟨f, hf.subset hmem, hr⟩

private theorem CacheReported.recordClose {w : PaperAccount} {symbol : String} {refPrice : ℚ}
    {proposalId assessmentId resultId : ℕ} {c : Closed} (h : w.CacheReported)
    (hc : w.broker.closeAt symbol refPrice proposalId assessmentId resultId = some c) :
    (w.recordClose c).CacheReported ∧ (w.recordClose c).Reported c.result := by
  obtain ⟨-, -, hbroker, -⟩ := closeAt_spec hc
  have hextends : w.fills <+: (w.recordClose c).fills := List.prefix_append _ _
  constructor
  · intro proposalId' result hr
    rw [PaperAccount.recordClose, hbroker] at hr
    exact (h proposalId' result hr).mono hextends
  · exact ⟨.closed c.position c.fill c.result, by simp [PaperAccount.recordClose], rfl⟩

private theorem CacheReported.recordOpen {w : PaperAccount} {a : RiskAssessment ℚ} {refPrice : RefPrice}
    {choice : FillChoice} {resultId : ℕ} {broker : PaperBroker} {position : PaperPosition} {result : ExecutionResult}
    (h : w.CacheReported) (hf : w.broker.fillOrder a refPrice choice resultId = .ok (.opened broker position result)) :
    (w.recordOpen broker position result).CacheReported ∧
      (w.recordOpen broker position result).Reported result := by
  have hlast : (w.recordOpen broker position result).Reported result :=
    ⟨.opened position result, by simp [PaperAccount.recordOpen], rfl⟩
  refine ⟨?_, hlast⟩
  intro proposalId' result' hr
  rcases fillOrder_cases hf with ⟨c, hc, -⟩ | ⟨fill, -, -, -, hopened⟩
  · cases hc
  · cases hopened
    rcases get?_remember hr with rfl | hold
    · exact hlast
    · exact (h proposalId' result' hold).mono (List.prefix_append _ _)

private theorem finish_reported {w : PaperAccount} (next : AfterSave) (hcache : w.CacheReported)
    (hnext : w.Reported next.result) :
    (w.finish next).1.CacheReported ∧ (w.finish next).2.result? = some next.result ∧
      (w.finish next).1.Reported next.result := by
  cases next with
  | reply result => exact ⟨hcache, rfl, hnext⟩
  | rememberAndReply proposalId result =>
    refine ⟨?_, rfl, hnext⟩
    intro proposalId' result' hr
    rcases get?_remember hr with rfl | hold
    · exact hnext
    · exact hcache proposalId' result' hold

private theorem startSave_reported {w : PaperAccount} {next : AfterSave} (hcache : w.CacheReported)
    (hnext : w.Reported next.result) :
    (w.startSave next).1.CacheReported ∧ (w.startSave next).2.result? = some next.result ∧
      (w.startSave next).1.Reported next.result := by
  unfold startSave
  split
  · exact ⟨hcache, rfl, hnext⟩
  · exact finish_reported next hcache hnext

/-- A call only has results in hand that were reported for a fill. -/
theorem resume_reported {w w' : PaperAccount} {task task' : BrokerTask} {wakeup : Wakeup}
    (h : w.resume task wakeup = some (w', task')) (hcache : w.CacheReported)
    (htask : ∀ result, task.result? = some result → w.Reported result) :
    w'.CacheReported ∧ ∀ result, task'.result? = some result → w'.Reported result := by
  unfold resume at h
  split at h
  case h_1 a refPrice choice resultId =>
    split at h
    case h_1 e he =>
      cases h
      exact ⟨hcache, by rintro result hr; cases hr⟩
    case h_2 broker position result hf =>
      obtain ⟨hc, hrep⟩ := hcache.recordOpen hf
      obtain ⟨h1, h2, h3⟩ := startSave_reported hc (show Reported _ (AfterSave.reply result).result from hrep)
      rw [Option.some.inj h] at h1 h2 h3
      exact ⟨h1, by rintro result' hr; cases h2.symm.trans hr; exact h3⟩
    case h_3 c hf =>
      obtain ⟨hc, hrep⟩ := hcache.recordClose (fillOrder_closed hf)
      obtain ⟨h1, h2, h3⟩ :=
        startSave_reported hc (show Reported _ (AfterSave.rememberAndReply a.proposalId c.result).result from hrep)
      rw [Option.some.inj h] at h1 h2 h3
      exact ⟨h1, by rintro result' hr; cases h2.symm.trans hr; exact h3⟩
  case h_2 => cases h; exact ⟨hcache, htask⟩
  case h_3 value next =>
    have hnext := htask next.result rfl
    obtain ⟨h1, h2, h3⟩ := finish_reported next
      (show CacheReported { w with store := { w.store with positions := some value } } from hcache) hnext
    rw [Option.some.inj h] at h1 h2 h3
    exact ⟨h1, by rintro result' hr; cases h2.symm.trans hr; exact h3⟩
  case h_4 stage next =>
    obtain ⟨h1, h2, h3⟩ := finish_reported next hcache (htask next.result rfl)
    rw [Option.some.inj h] at h1 h2 h3
    exact ⟨h1, by rintro result' hr; cases h2.symm.trans hr; exact h3⟩
  case h_5 => cases h

theorem startClose_reported {w : PaperAccount} (hcache : w.CacheReported) (symbol : String) (price : Option ℚ)
    (proposalId assessmentId resultId : ℕ) :
    let started := w.startClose symbol price proposalId assessmentId resultId
    started.1.CacheReported ∧ ∀ result, started.2.result? = some result → started.1.Reported result := by
  dsimp only
  unfold startClose
  cases hc : w.broker.closePosition symbol price proposalId assessmentId resultId with
  | none => exact ⟨hcache, by rintro result hr; cases hr⟩
  | some c =>
    obtain ⟨refPrice, hclose⟩ := closePosition_closeAt hc
    obtain ⟨hcache', hrep⟩ := hcache.recordClose hclose
    obtain ⟨h1, h2, h3⟩ := startSave_reported hcache' (show Reported _ (AfterSave.reply c.result).result from hrep)
    exact ⟨h1, by rintro result' hr; cases h2.symm.trans hr; exact h3⟩

theorem startOrder_reported {w : PaperAccount} (hcache : w.CacheReported) (settings : Settings)
    (a : RiskAssessment ℚ) (result : ExecutionResult) (h : (w.startOrder settings a).result? = some result) :
    w.Reported result := by
  unfold startOrder acceptOrder at h
  split_ifs at h
  · cases h
  · cases hcached : w.broker.filledOrders.get? a.proposalId with
    | some cached =>
      simp only [hcached] at h
      cases h
      exact hcache _ _ hcached
    | none =>
      simp only [hcached] at h
      cases ht : a.originalProposal.signal.technicalSignal with
      | none => simp only [ht] at h; cases h
      | some tech =>
        simp only [ht] at h
        split_ifs at h <;> cases h

end PaperAccount

namespace BrokerRun

/-- Every result that a call has in hand was reported for one of the fills. -/
def AllReported (s : BrokerRun) : Prop :=
  s.account.CacheReported ∧ ∀ task ∈ s.tasks, ∀ result, task.result? = some result → s.account.Reported result

private theorem AllReported.tasks_of_prefix {s : BrokerRun} {w' : PaperAccount} (h : s.AllReported)
    (hf : s.account.fills <+: w'.fills) :
    ∀ task ∈ s.tasks, ∀ result, task.result? = some result → w'.Reported result := by
  intro task ht result hr
  obtain ⟨f, hmem, hres⟩ := h.2 task ht result hr
  exact ⟨f, hf.subset hmem, hres⟩

theorem AllReported.step {settings : Settings} {s s' : BrokerRun} {e : BrokerEvent} (h : s.AllReported)
    (hs : step settings s e = some s') : s'.AllReported := by
  have hextends := (step_effect hs).fills_extend
  have hold := h.tasks_of_prefix hextends
  cases e with
  | placeOrder a =>
    cases hs
    refine ⟨h.1, ?_⟩
    intro task ht result hr
    rcases List.mem_append.1 ht with ht | ht
    · exact h.2 task ht result hr
    · rw [List.mem_singleton.1 ht] at hr
      exact PaperAccount.startOrder_reported h.1 settings a result hr
  | closePosition symbol price proposalId assessmentId resultId =>
    cases hs
    obtain ⟨hcache, hnew⟩ := PaperAccount.startClose_reported h.1 symbol price proposalId assessmentId resultId
    refine ⟨hcache, ?_⟩
    intro task ht result hr
    rcases List.mem_append.1 ht with ht | ht
    · exact hold task ht result hr
    · rw [List.mem_singleton.1 ht] at hr
      exact hnew result hr
  | resume i wakeup =>
    obtain ⟨task, w, task', htask, hresume, rfl⟩ := step_resume hs
    obtain ⟨hcache, hnew⟩ := PaperAccount.resume_reported hresume h.1 (h.2 task (List.mem_of_getElem? htask))
    refine ⟨hcache, ?_⟩
    intro task'' hmem result hres
    rcases List.mem_or_eq_of_mem_set hmem with hmem | rfl
    · exact hold task'' hmem result hres
    · exact hnew result hres
  | link connected =>
    cases hs
    exact h

/-! ### Conservation of equity -/

/-- A step in which a call raises changes nothing else. -/
theorem step_error {settings : Settings} {s s' : BrokerRun} {e : BrokerEvent} {i : ℕ} {err : BrokerError}
    (h : step settings s e = some s') (hbefore : s.tasks[i]? ≠ some (.done (.error err)))
    (hafter : s'.tasks[i]? = some (.done (.error err))) : s'.account = s.account := by
  cases e with
  | placeOrder a => cases h; rfl
  | closePosition symbol price proposalId assessmentId resultId =>
    cases h
    rw [List.getElem?_append] at hafter
    split at hafter
    · exact absurd hafter hbefore
    · have hnew := List.mem_singleton.1 (List.mem_of_getElem? hafter)
      exact absurd hnew.symm (PaperAccount.startClose_ne_error _ _ _ _ _ _ _)
  | resume j wakeup =>
    obtain ⟨task, w, task', -, hresume, rfl⟩ := step_resume h
    rcases ListSet.getElem?_cases hafter with ⟨-, rfl⟩ | ⟨-, hafter⟩
    · exact PaperAccount.resume_error hresume
    · exact absurd hafter hbefore
  | link connected =>
    cases h
    exact absurd hafter hbefore

end BrokerRun

/-- Conservation of equity over every interleaving: the equity is the initial balance plus the reported profits up to
half a cent for each close, each step moves it as `EquityStep` says, a call that raises changes nothing, and every
result in hand was reported for one of the fills. -/
theorem equity_conservation {settings : Settings} {connected : Bool} {es : List BrokerEvent} {s : BrokerRun}
    (h : exec (BrokerRun.step settings) (BrokerRun.init settings connected) es = some s) :
    |s.account.equity - settings.paperInitialBalanceUsd - s.account.realizedTotal| ≤ 5 / 1000 * s.account.closes ∧
      (∀ e s', BrokerRun.step settings s e = some s' → s.account.EquityStep s'.account) ∧
      (∀ (e : BrokerEvent) (s' : BrokerRun) (i : ℕ) (err : BrokerError), BrokerRun.step settings s e = some s' →
        s.tasks[i]? ≠ some (.done (.error err)) → s'.tasks[i]? = some (.done (.error err)) →
        s'.account = s.account) ∧
      ∀ task ∈ s.tasks, ∀ result, task.result? = some result → ∃ f ∈ s.account.fills, f.result = result := by
  have hnear : PaperAccount.EquityNear settings.paperInitialBalanceUsd s.account := by
    refine exec_invariant (fun s : BrokerRun => PaperAccount.EquityNear settings.paperInitialBalanceUsd s.account)
      ?_ ?_ h
    · intro s e s' hs hstep
      exact hs.effect (BrokerRun.step_effect hstep)
    · simp [PaperAccount.EquityNear, BrokerRun.init, PaperBroker.init, PaperAccount.equity, getBalance, totalEquity,
        usedMargin, PaperAccount.realizedTotal, PaperAccount.closes]
  have hreported : s.AllReported := by
    refine exec_invariant BrokerRun.AllReported (fun s e s' hs hstep => hs.step hstep) ?_ h
    refine ⟨?_, ?_⟩
    · intro proposalId result hr
      cases hr
    · intro task ht
      cases ht
  refine ⟨hnear, ?_, ?_, hreported.2⟩
  · intro e s' hstep
    exact (BrokerRun.step_effect hstep).equityStep
  · intro e s' i err
    exact BrokerRun.step_error

/-- A long opened and closed again, the close coming in while the opening is still being saved. -/
def roundTrip : List BrokerEvent :=
  [.placeOrder (plainOrder 1 "BTC/USDT" .buy 200 two_hundred_pos 100), .resume 0 (.latencyOver .full 10),
    .resume 0 (.saved true), .closePosition "BTC/USDT" (some 110) 2 3 11, .resume 1 (.saved true),
    .resume 0 (.saved false), .resume 1 (.saved true)]

private theorem roundTrip_closes :
    (exec (BrokerRun.step {}) (BrokerRun.init {} true) roundTrip).map (fun s => s.account.closes) = some 1 := by
  decide +kernel

theorem equity_conservation_roundTrip : ∃ s,
    exec (BrokerRun.step {}) (BrokerRun.init {} true) roundTrip = some s ∧ s.account.closes = 1 ∧
      |s.account.equity - 10000 - s.account.realizedTotal| ≤ 5 / 1000 * s.account.closes := by
  obtain ⟨s, hs, hcloses⟩ := Option.map_eq_some_iff.1 roundTrip_closes
  exact ⟨s, hs, hcloses, (equity_conservation hs).1⟩

/-! ### The life cycle of a position -/

/-- The life of one symbol: flat, a fill opens one position, and only a fill that closes exactly this position, on the
other side and for its whole quantity, makes the symbol flat again. -/
def lifeStep : Option PaperPosition → FillEvent → Option (Option PaperPosition)
  | none, .opened position result =>
    if result.side = position.side ∧ result.filledQuantity = position.quantity then some (some position) else none
  | some held, .closed position _ result =>
    if position = held ∧ result.side = held.side.opp ∧ result.filledQuantity = held.quantity then some none else none
  | _, _ => none

private theorem lifeStep_isClose {held held' : Option PaperPosition} {f : FillEvent}
    (h : lifeStep held f = some held') : f.isClose = held.isSome ∧ held'.isSome = held.isNone := by
  cases held with
  | none =>
    cases f with
    | opened position result =>
      simp only [lifeStep] at h
      split at h
      · cases h; exact ⟨rfl, rfl⟩
      · cases h
    | closed position fill result => cases h
  | some pos =>
    cases f with
    | opened position result => cases h
    | closed position fill result =>
      simp only [lifeStep] at h
      split at h
      · cases h; exact ⟨rfl, rfl⟩
      · cases h

private theorem lifeStep_close {held : PaperPosition} {held' : Option PaperPosition} {f : FillEvent}
    (h : lifeStep (some held) f = some held') :
    f.position = held ∧ f.result.side = held.side.opp ∧ f.result.filledQuantity = held.quantity := by
  cases f with
  | opened position result => cases h
  | closed position fill result =>
    simp only [lifeStep] at h
    split at h
    case isTrue hc => exact hc
    case isFalse => cases h

private theorem lifeStep_open {held : PaperPosition} {f : FillEvent} (h : lifeStep none f = some (some held)) :
    f.position = held ∧ f.result.side = held.side ∧ f.result.filledQuantity = held.quantity := by
  cases f with
  | opened position result =>
    simp only [lifeStep] at h
    split at h
    case isTrue hc => cases h; exact ⟨rfl, hc⟩
    case isFalse => cases h
  | closed position fill result => cases h

/-- Along the life of a symbol closes and openings alternate. -/
private theorem life_alternates {held held' : Option PaperPosition} {fs : List FillEvent}
    (h : exec lifeStep held fs = some held') (i : ℕ) (f : FillEvent) (hf : fs[i]? = some f) :
    f.isClose = true ↔ (i + if held.isSome then 1 else 0) % 2 = 1 := by
  induction fs generalizing held i with
  | nil => cases hf
  | cons g fs ih =>
    obtain ⟨mid, hg, hrest⟩ := exec_cons.1 h
    obtain ⟨hclose, hmid⟩ := lifeStep_isClose hg
    cases i with
    | zero =>
      obtain rfl : g = f := Option.some.inj hf
      rw [hclose]
      cases held <;> simp
    | succ i =>
      rw [ih hrest i hf, hmid]
      cases held with
      | none => simp
      | some pos => simp; omega

/-- Along the life of a symbol a close undoes the opening right before it. -/
private theorem life_close_matches {held held' : Option PaperPosition} {fs : List FillEvent}
    (h : exec lifeStep held fs = some held') (i : ℕ) (f g : FillEvent) (hf : fs[i]? = some f)
    (hg : fs[i + 1]? = some g) (hclose : g.isClose = true) :
    g.position = f.position ∧ g.result.side = f.result.side.opp ∧
      g.result.filledQuantity = f.result.filledQuantity := by
  induction fs generalizing held i with
  | nil => cases hf
  | cons e fs ih =>
    obtain ⟨mid, he, hrest⟩ := exec_cons.1 h
    cases i with
    | succ i => exact ih hrest i hf hg
    | zero =>
      obtain rfl : e = f := Option.some.inj hf
      cases fs with
      | nil => cases hg
      | cons e' fs =>
        obtain rfl : e' = g := Option.some.inj hg
        obtain ⟨last, he', -⟩ := exec_cons.1 hrest
        obtain ⟨hclose', -⟩ := lifeStep_isClose he'
        obtain ⟨hopen, hmid⟩ := lifeStep_isClose he
        cases mid with
        | none => rw [hclose] at hclose'; cases hclose'
        | some pos =>
          cases held with
          | some pos' => cases hmid
          | none =>
            obtain ⟨hp, hs, hq⟩ := lifeStep_open he
            obtain ⟨hp', hs', hq'⟩ := lifeStep_close he'
            exact ⟨hp'.trans hp.symm, by rw [hs', hs], by rw [hq', hq]⟩

namespace PaperAccount

/-- The fills of one symbol, in the order they changed the broker. -/
def fillsOf (w : PaperAccount) (symbol : String) : List FillEvent := w.fills.filter fun f => f.symbol = symbol

/-- The fills of every symbol are a life that ends in the position held now, and every position held is as its
opening fill left it. -/
structure Lives (w : PaperAccount) : Prop where
  life : ∀ symbol, exec lifeStep none (w.fillsOf symbol) = some (w.broker.positions.get? symbol)
  wellFormed : ∀ symbol position, w.broker.positions.get? symbol = some position → WellFormed position

private theorem fillsOf_append {w w' : PaperAccount} {f : FillEvent} (h : w'.fills = w.fills ++ [f])
    (symbol : String) :
    w'.fillsOf symbol = if f.symbol = symbol then w.fillsOf symbol ++ [f] else w.fillsOf symbol := by
  unfold fillsOf
  rw [h, List.filter_append]
  split
  case isTrue he => simp [he]
  case isFalse he => simp [he]

theorem Lives.effect {w w' : PaperAccount} (h : w.Lives) (he : Effect w w') : w'.Lives := by
  cases he with
  | same hs =>
    obtain ⟨hcash, hpositions, hfills⟩ := hs
    constructor
    · intro symbol
      have hlife := h.life symbol
      unfold fillsOf at *
      rwa [hfills, hpositions]
    · rw [hpositions]
      exact h.wellFormed
  | opened position result hwf hflat hsymbol hside hqty hpnl hcash hpositions hfills =>
    constructor
    · intro symbol
      rw [fillsOf_append hfills, hpositions, Dict.get?_set]
      have hlife := h.life symbol
      by_cases hs : symbol = position.symbol
      · subst hs
        have hsym : FillEvent.symbol (.opened position result) = position.symbol := hsymbol
        rw [if_pos hsym, if_pos rfl, exec_append, hlife, hflat]
        simp [exec, lifeStep, hside, hqty]
      · have hsym : FillEvent.symbol (.opened position result) ≠ symbol := by
          rw [FillEvent.symbol, FillEvent.result, hsymbol]
          exact fun heq => hs heq.symm
        rw [if_neg hsym, if_neg hs]
        exact hlife
    · intro symbol held hh
      rw [hpositions, Dict.get?_set] at hh
      split at hh
      · cases hh; exact hwf
      · exact h.wellFormed symbol held hh
  | closed position fill result hheld hside hqty hpnl hround hcash hpositions hfills =>
    constructor
    · intro symbol
      rw [fillsOf_append hfills, hpositions, Dict.get?_erase]
      have hlife := h.life symbol
      by_cases hs : symbol = result.symbol
      · subst hs
        have hsym : FillEvent.symbol (.closed position fill result) = result.symbol := rfl
        rw [if_pos hsym, if_pos rfl, exec_append, hlife, hheld]
        simp [exec, lifeStep, hside, hqty]
      · have hsym : FillEvent.symbol (.closed position fill result) ≠ symbol := fun heq => hs heq.symm
        rw [if_neg hsym, if_neg hs]
        exact hlife
    · intro symbol held hh
      rw [hpositions, Dict.get?_erase] at hh
      split at hh
      · cases hh
      · exact h.wellFormed symbol held hh

end PaperAccount

/-- Life cycle of positions over every interleaving: the fills of a symbol are a life that ends in the position held
now, so they alternate between opening and closing, each close undoes the opening before it on the other side and for
the same quantity, and every open position is positive and costs its notional plus the truncated fee. -/
theorem life_cycle {settings : Settings} {connected : Bool} {es : List BrokerEvent} {s : BrokerRun}
    (h : exec (BrokerRun.step settings) (BrokerRun.init settings connected) es = some s) (symbol : String) :
    exec lifeStep none (s.account.fillsOf symbol) = some (s.account.broker.positions.get? symbol) ∧
      (∀ i f, (s.account.fillsOf symbol)[i]? = some f → (f.isClose = true ↔ i % 2 = 1)) ∧
      (∀ i f g, (s.account.fillsOf symbol)[i]? = some f → (s.account.fillsOf symbol)[i + 1]? = some g →
        g.isClose = true → g.position = f.position ∧ g.result.side = f.result.side.opp ∧
          g.result.filledQuantity = f.result.filledQuantity) ∧
      ∀ pos, s.account.broker.positions.get? symbol = some pos →
        0 < pos.quantity ∧ 0 < pos.entryPrice ∧
          pos.costUsd = pos.quantity * pos.entryPrice + takerFee (pos.quantity * pos.entryPrice) := by
  have hlives : s.account.Lives := by
    refine exec_invariant (fun s : BrokerRun => s.account.Lives) ?_ ?_ h
    · intro s e s' hs hstep
      exact hs.effect (BrokerRun.step_effect hstep)
    · exact ⟨fun _ => rfl, fun _ _ hp => by cases hp⟩
  have hlife := hlives.life symbol
  refine ⟨hlife, ?_, ?_, ?_⟩
  · intro i f hf
    simpa using life_alternates hlife i f hf
  · intro i f g hf hg hclose
    exact life_close_matches hlife i f g hf hg hclose
  · intro pos hpos
    obtain ⟨hq, he, hc⟩ := hlives.wellFormed symbol pos hpos
    exact ⟨hq, he, hc⟩

theorem life_cycle_roundTrip : ∃ s,
    exec (BrokerRun.step {}) (BrokerRun.init {} true) roundTrip = some s ∧ s.account.closes = 1 ∧
      ∀ i f, (s.account.fillsOf "BTC/USDT")[i]? = some f → (f.isClose = true ↔ i % 2 = 1) := by
  obtain ⟨s, hs, hcloses⟩ := Option.map_eq_some_iff.1 roundTrip_closes
  exact ⟨s, hs, hcloses, (life_cycle hs "BTC/USDT").2.1⟩

end MultiAgentTrading
