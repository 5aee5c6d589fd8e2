import MultiAgentTrading.Execution.BrokerRuns
import MultiAgentTrading.Lib.ListSet
import MultiAgentTrading.Lib.Recent

/-!
# Orders that are placed again

The broker remembers the results of its orders, up to a thousand: an opening at once, a close once its save has ended.
As long as orders are placed one at a time its memory is the newest part of the log of fills, but for a close whose save
is on its way (`Remembers`).  Everything else may overlap, also the assignments of a `connect`, whatever that has read.
-/

namespace MultiAgentTrading

open PaperBroker Runs

/-- A step of the calls, or one of the two assignments of a `connect`. -/
inductive BrokerOp
  | call (e : BrokerEvent)
  | restoreCash (cash : ℚ)
  | restorePositions (positions : Dict String PaperPosition)

namespace BrokerTask

/-- An order that sleeps before its fill, or waits to be remembered. -/
def pending : BrokerTask → Bool
  | .sleeping _ _ => true
  | .saving _ (.rememberAndReply _ _) => true
  | .saving _ (.reply _) => false
  | .done _ => false

/-- The fill that an order is going to remember. -/
def owes : BrokerTask → List (ℕ × ExecutionResult)
  | .sleeping _ _ => []
  | .saving _ (.rememberAndReply proposalId result) => [(proposalId, result)]
  | .saving _ (.reply _) => []
  | .done _ => []

theorem owes_of_not_pending {task : BrokerTask} (h : task.pending = false) : task.owes = [] := by
  cases task with
  | sleeping a refPrice => cases h
  | saving stage next =>
    cases next with
    | reply result => rfl
    | rememberAndReply proposalId result => cases h
  | done outcome => rfl

theorem ne_sleeping_of_not_pending {task : BrokerTask} (h : task.pending = false) (a : RiskAssessment ℚ)
    (refPrice : RefPrice) : task ≠ .sleeping a refPrice := by
  rintro rfl
  cases h

end BrokerTask

/-- The result of an order that has filled. -/
def PaperBroker.Filled.result : Filled → ExecutionResult
  | .opened _ _ result => result
  | .closed c => c.result

namespace BrokerOp

def step (settings : Settings) (s : BrokerRun) : BrokerOp → Option BrokerRun
  | .call e => s.step settings e
  | .restoreCash cash =>
    some { s with account := { s.account with broker := { s.account.broker with cashBalance := cash } } }
  | .restorePositions positions =>
    some { s with account := { s.account with broker := { s.account.broker with positions := positions } } }

/-- The order that fills in a step, with its result. -/
def orderFill (s : BrokerRun) : BrokerOp → List (ℕ × ExecutionResult)
  | .call (.resume i (.latencyOver choice resultId)) =>
    match s.tasks[i]? with
    | some (.sleeping a refPrice) =>
      match s.account.broker.fillOrder a refPrice choice resultId with
      | .ok filled => [(a.proposalId, filled.result)]
      | .error _ => []
    | _ => []
  | _ => []

/-- The orders that fill in a run, in order. -/
def orderFills (settings : Settings) : BrokerRun → List BrokerOp → List (ℕ × ExecutionResult)
  | _, [] => []
  | s, op :: ops =>
    orderFill s op ++
      match step settings s op with
      | none => []
      | some s' => orderFills settings s' ops

/-- An order is placed when no other is pending. -/
def OneAtATime (s : BrokerRun) : BrokerOp → Prop
  | .call (.placeOrder _) => ∀ task ∈ s.tasks, task.pending = false
  | _ => True

instance OneAtATime.decidable (s : BrokerRun) : ∀ op, Decidable (OneAtATime s op)
  | .call (.placeOrder _) => inferInstanceAs (Decidable (∀ task ∈ s.tasks, task.pending = false))
  | .call (.closePosition _ _ _ _ _) => isTrue trivial
  | .call (.resume _ _) => isTrue trivial
  | .call (.link _) => isTrue trivial
  | .restoreCash _ => isTrue trivial
  | .restorePositions _ => isTrue trivial

end BrokerOp

/-! ### The end of a save -/

namespace PaperAccount

/-- A save is on its way, or has ended. -/
def Saves (w : PaperAccount) (next : AfterSave) (s : PaperAccount × BrokerTask) : Prop :=
  (∃ stage, s.2 = .saving stage next ∧ s.1.broker = w.broker) ∨
    ∃ w' : PaperAccount, w'.broker = w.broker ∧ s = w'.finish next

theorem saves_startSave (w : PaperAccount) (next : AfterSave) : Saves w next (w.startSave next) := by
  rcases startSave_cases w next with ⟨stage, hstage⟩ | hfinish
  · rw [hstage]
    exact .inl ⟨stage, rfl, rfl⟩
  · exact .inr ⟨w, rfl, hfinish⟩

theorem saves_resume {w : PaperAccount} {stage : SaveStage} {next : AfterSave} {ok : Bool}
    {s : PaperAccount × BrokerTask} (h : w.resume (.saving stage next) (.saved ok) = some s) : Saves w next s := by
  cases ok with
  | false => cases stage <;> exact .inr ⟨w, rfl, (Option.some.inj h).symm⟩
  | true =>
    cases stage with
    | cash value =>
      cases h
      exact .inl ⟨_, rfl, rfl⟩
    | positions value =>
      exact .inr ⟨{ w with store := { w.store with positions := some value } }, rfl, (Option.some.inj h).symm⟩

theorem Saves.reply {w : PaperAccount} {result : ExecutionResult} {s : PaperAccount × BrokerTask}
    (h : Saves w (.reply result) s) : s.1.broker = w.broker ∧ s.2.pending = false := by
  rcases h with ⟨stage, htask, hbroker⟩ | ⟨w', hbroker, rfl⟩
  · rw [htask]
    exact ⟨hbroker, rfl⟩
  · exact ⟨hbroker, rfl⟩

end PaperAccount

/-! ### The memory of a run -/

namespace BrokerRun

def cache (s : BrokerRun) : Dict ℕ ExecutionResult := s.account.broker.filledOrders

/-- At most one order is pending, its proposal is not remembered, and the memory is the newest part of the log, but for
what is still owed to it. -/
structure Remembers (settings : Settings) (s : BrokerRun) (log : List (ℕ × ExecutionResult)) : Prop where
  paper : ∀ p ∈ log, settings.isPaperTrading = true
  one : ∀ (i j : ℕ) (t t' : BrokerTask), s.tasks[i]? = some t → s.tasks[j]? = some t' → t.pending = true →
    t'.pending = true → i = j
  asleep : ∀ a refPrice, .sleeping a refPrice ∈ s.tasks →
    settings.isPaperTrading = true ∧ s.cache.get? a.proposalId = none
  cache : ∃ remembered, log = remembered ++ s.tasks.flatMap BrokerTask.owes ∧
    s.cache.entries = Recent.keep idempotencyCacheSize remembered
  owed : ∀ p ∈ s.tasks.flatMap BrokerTask.owes, s.cache.get? p.1 = none

variable {settings : Settings} {s : BrokerRun} {log : List (ℕ × ExecutionResult)}

/-- A change of the account that leaves the memory alone. -/
theorem Remembers.of_cache (h : Remembers settings s log) {w : PaperAccount}
    (hw : w.broker.filledOrders = s.account.broker.filledOrders) : Remembers settings { s with account := w } log := by
  have hcache : BrokerRun.cache { s with account := w } = s.cache := hw
  refine ⟨h.paper, h.one, ?_, ?_, ?_⟩
  · rw [hcache]
    exact h.asleep
  · rw [hcache]
    exact h.cache
  · rw [hcache]
    exact h.owed

/-- A new call. -/
theorem Remembers.append (h : Remembers settings s log) {task : BrokerTask} (howes : task.owes = [])
    (hidle : task.pending = true → ∀ t ∈ s.tasks, t.pending = false)
    (hasleep : ∀ a refPrice, task = .sleeping a refPrice →
      settings.isPaperTrading = true ∧ s.cache.get? a.proposalId = none) :
    Remembers settings { s with tasks := s.tasks ++ [task] } log := by
  have howed : (s.tasks ++ [task]).flatMap BrokerTask.owes = s.tasks.flatMap BrokerTask.owes := by
    rw [List.flatMap_append, List.flatMap_singleton, howes, List.append_nil]
  have hold : ∀ {i : ℕ} {t : BrokerTask}, (s.tasks ++ [task])[i]? = some t →
      s.tasks[i]? = some t ∨ i = s.tasks.length ∧ t = task := by
    intro i t ht
    rcases lt_trichotomy i s.tasks.length with hlt | rfl | hgt
    · rw [List.getElem?_append_left hlt] at ht
      exact .inl ht
    · rw [List.getElem?_concat_length] at ht
      exact .inr ⟨rfl, (Option.some.inj ht).symm⟩
    · rw [List.getElem?_eq_none (by rw [List.length_append, List.length_singleton]; omega)] at ht
      cases ht
  refine ⟨h.paper, ?_, ?_, ?_, ?_⟩
  · intro i j t t' hi hj ht ht'
    rcases hold hi with hi' | ⟨rfl, rfl⟩ <;> rcases hold hj with hj' | ⟨rfl, rfl⟩
    · exact h.one i j t t' hi' hj' ht ht'
    · rw [hidle ht' t (List.mem_of_getElem? hi')] at ht
      cases ht
    · rw [hidle ht t' (List.mem_of_getElem? hj')] at ht'
      cases ht'
    · rfl
  · intro a refPrice hmem
    rcases List.mem_append.1 hmem with hmem | hmem
    · exact h.asleep a refPrice hmem
    · exact hasleep a refPrice (List.mem_singleton.1 hmem).symm
  · show ∃ remembered, log = remembered ++ (s.tasks ++ [task]).flatMap BrokerTask.owes ∧ _
    rw [howed]
    exact h.cache
  · show ∀ p ∈ (s.tasks ++ [task]).flatMap BrokerTask.owes, _
    rw [howed]
    exact h.owed

/-- A call that is not pending goes on. -/
theorem Remembers.set_quiet (h : Remembers settings s log) {i : ℕ} {task task' : BrokerTask}
    (htask : s.tasks[i]? = some task) (hquiet : task.pending = false) (hquiet' : task'.pending = false) :
    Remembers settings { s with tasks := s.tasks.set i task' } log := by
  have howes : task'.owes = task.owes := by
    rw [BrokerTask.owes_of_not_pending hquiet, BrokerTask.owes_of_not_pending hquiet']
  have howed : (s.tasks.set i task').flatMap BrokerTask.owes = s.tasks.flatMap BrokerTask.owes :=
    ListSet.flatMap_set_of_eq htask howes
  have hold : ∀ {j : ℕ} {t : BrokerTask}, (s.tasks.set i task')[j]? = some t → t.pending = true →
      s.tasks[j]? = some t := by
    intro j t hj ht
    rcases ListSet.getElem?_cases hj with ⟨-, rfl⟩ | ⟨-, hj⟩
    · rw [hquiet'] at ht
      cases ht
    · exact hj
  refine ⟨h.paper, fun j k t t' hj hk ht ht' => h.one j k t t' (hold hj ht) (hold hk ht') ht ht', ?_, ?_, ?_⟩
  · intro a refPrice hmem
    obtain ⟨j, hj⟩ := List.mem_iff_getElem?.1 hmem
    exact h.asleep a refPrice (List.mem_of_getElem? (hold hj rfl))
  · show ∃ remembered, log = remembered ++ (s.tasks.set i task').flatMap BrokerTask.owes ∧ _
    rw [howed]
    exact h.cache
  · show ∀ p ∈ (s.tasks.set i task').flatMap BrokerTask.owes, _
    rw [howed]
    exact h.owed

/-- The fills that are owed to the memory are those of the pending order. -/
theorem Remembers.others (h : Remembers settings s log) {i : ℕ} {task : BrokerTask}
    (htask : s.tasks[i]? = some task) (hpending : task.pending = true) :
    ∀ (j : ℕ) (t : BrokerTask), s.tasks[j]? = some t → j ≠ i → t.pending = false := by
  intro j t hj hne
  rw [← Bool.not_eq_true]
  exact fun ht => hne (h.one j i t task hj htask ht hpending)

theorem Remembers.owes_eq (h : Remembers settings s log) {i : ℕ} {task : BrokerTask}
    (htask : s.tasks[i]? = some task) (hpending : task.pending = true) :
    s.tasks.flatMap BrokerTask.owes = task.owes := by
  have halone := ListSet.flatMap_set_of_alone (x := task) htask fun j t hj hne =>
    BrokerTask.owes_of_not_pending (h.others htask hpending j t hj hne)
  have hself : s.tasks.set i task = s.tasks := by
    obtain ⟨hi, rfl⟩ := List.getElem?_eq_some_iff.1 htask
    exact List.set_getElem_self hi
  rwa [hself] at halone

/-- The pending order goes on: what is remembered and what is owed make up the log. -/
theorem Remembers.set_pending (h : Remembers settings s log) {i : ℕ} {task task' : BrokerTask}
    (htask : s.tasks[i]? = some task) (hpending : task.pending = true) (hpaper : settings.isPaperTrading = true)
    (hawake : ∀ a refPrice, task' ≠ .sleeping a refPrice) {w : PaperAccount}
    {remembered : List (ℕ × ExecutionResult)}
    (hcache : w.broker.filledOrders.entries = Recent.keep idempotencyCacheSize remembered)
    (howed : ∀ p ∈ task'.owes, w.broker.filledOrders.get? p.1 = none) :
    Remembers settings ⟨w, s.tasks.set i task'⟩ (remembered ++ task'.owes) := by
  have hothers := h.others htask hpending
  have howes : (s.tasks.set i task').flatMap BrokerTask.owes = task'.owes :=
    ListSet.flatMap_set_of_alone htask fun j t hj hne => BrokerTask.owes_of_not_pending (hothers j t hj hne)
  have honly : ∀ {j : ℕ} {t : BrokerTask}, (s.tasks.set i task')[j]? = some t → t.pending = true →
      j = i ∧ t = task' := by
    intro j t hj ht
    rcases ListSet.getElem?_cases hj with ⟨rfl, rfl⟩ | ⟨hne, hj⟩
    · exact ⟨rfl, rfl⟩
    · rw [hothers j t hj hne.symm] at ht
      cases ht
  refine ⟨fun _ _ => hpaper, ?_, ?_, ?_, ?_⟩
  · intro j k t t' hj hk ht ht'
    rw [(honly hj ht).1, (honly hk ht').1]
  · intro a refPrice hmem
    obtain ⟨j, hj⟩ := List.mem_iff_getElem?.1 hmem
    exact absurd (honly hj rfl).2.symm (hawake a refPrice)
  · exact ⟨remembered, by rw [howes], hcache⟩
  · show ∀ p ∈ (s.tasks.set i task').flatMap BrokerTask.owes, _
    rw [howes]
    exact howed

/-- The pending order is to be remembered after its save, and is once that has ended. -/
theorem Remembers.saves (h : Remembers settings s log) {i : ℕ} {task : BrokerTask} (htask : s.tasks[i]? = some task)
    (hpending : task.pending = true) (hpaper : settings.isPaperTrading = true) {w : PaperAccount}
    {remembered : List (ℕ × ExecutionResult)} {proposalId : ℕ}
    (hcache : w.broker.filledOrders.entries = Recent.keep idempotencyCacheSize remembered)
    (hnew : w.broker.filledOrders.get? proposalId = none) {result : ExecutionResult} {ended : PaperAccount × BrokerTask}
    (hended : PaperAccount.Saves w (.rememberAndReply proposalId result) ended) :
    Remembers settings ⟨ended.1, s.tasks.set i ended.2⟩ (remembered ++ [(proposalId, result)]) := by
  rcases hended with ⟨stage, hstage, hbroker⟩ | ⟨w', hbroker, rfl⟩
  · have howes : ended.2.owes = [(proposalId, result)] := by rw [hstage, BrokerTask.owes]
    rw [← howes]
    have hawake : ∀ a refPrice, ended.2 ≠ .sleeping a refPrice := fun _ _ he => by cases hstage.symm.trans he
    refine h.set_pending htask hpending hpaper hawake (hbroker ▸ hcache) fun p hp => ?_
    rw [howes] at hp
    rw [List.mem_singleton.1 hp, hbroker]
    exact hnew
  · have hput : (w'.broker.remember proposalId result).filledOrders.entries =
        Recent.keep idempotencyCacheSize (remembered ++ [(proposalId, result)]) := by
      rw [hbroker]
      exact Recent.entries_put hcache hnew result
    have hset : Remembers settings
        ⟨{ w' with broker := w'.broker.remember proposalId result }, s.tasks.set i (.done (.ok (some result)))⟩ _ :=
      h.set_pending htask hpending hpaper (fun _ _ he => by cases he) hput fun p hp => by cases hp
    rwa [BrokerTask.owes, List.append_nil] at hset

/-- An order fills: an opening is remembered at once, a close is owed or remembered. -/
theorem Remembers.latencyOver (h : Remembers settings s log) {i : ℕ} {a : RiskAssessment ℚ} {refPrice : RefPrice}
    (htask : s.tasks[i]? = some (.sleeping a refPrice)) {choice : FillChoice} {resultId : ℕ}
    {ended : PaperAccount × BrokerTask}
    (hresume : s.account.resume (.sleeping a refPrice) (.latencyOver choice resultId) = some ended) :
    Remembers settings ⟨ended.1, s.tasks.set i ended.2⟩
      (log ++ BrokerOp.orderFill s (.call (.resume i (.latencyOver choice resultId)))) := by
  obtain ⟨hpaper, hnew⟩ := h.asleep a refPrice (List.mem_of_getElem? htask)
  obtain ⟨remembered, hlog, hcache⟩ := h.cache
  rw [h.owes_eq htask rfl, BrokerTask.owes, List.append_nil] at hlog
  subst hlog
  simp only [BrokerOp.orderFill, htask]
  simp only [PaperAccount.resume] at hresume
  cases hfill : s.account.broker.fillOrder a refPrice choice resultId with
  | error err =>
    rw [hfill] at hresume
    cases hresume
    exact h.set_pending htask rfl hpaper (fun _ _ he => by cases he) hcache fun p hp => by cases hp
  | ok filled =>
    rw [hfill] at hresume
    cases filled with
    | opened broker position result =>
      obtain rfl := Option.some.inj hresume
      obtain ⟨hbroker, hquiet⟩ := (PaperAccount.saves_startSave (s.account.recordOpen broker position result)
        (.reply result)).reply
      have hput : broker.filledOrders.entries =
          Recent.keep idempotencyCacheSize (log ++ [(a.proposalId, result)]) := by
        rcases fillOrder_cases hfill with ⟨c, hc, -⟩ | ⟨fill, -, -, -, hf⟩
        · cases hc
        · cases hf
          exact Recent.entries_put hcache hnew _
      have howes := BrokerTask.owes_of_not_pending hquiet
      have hset := h.set_pending htask rfl hpaper (BrokerTask.ne_sleeping_of_not_pending hquiet)
        ((congrArg (fun b => b.filledOrders.entries) hbroker).trans hput) fun p hp => by
          rw [howes] at hp
          cases hp
      rwa [howes, List.append_nil] at hset
    | closed c =>
      obtain rfl := Option.some.inj hresume
      obtain ⟨-, -, hbroker, -⟩ := closeAt_spec (PaperAccount.fillOrder_closed hfill)
      have hsame : (s.account.recordClose c).broker.filledOrders = s.cache := by
        show c.broker.filledOrders = _
        rw [hbroker]
        rfl
      exact h.saves htask rfl hpaper (hsame ▸ hcache) (hsame ▸ hnew) (PaperAccount.saves_startSave _ _)

private theorem Remembers.of_no_fill {s' : BrokerRun} {op : BrokerOp} (h : Remembers settings s' log)
    (hfill : BrokerOp.orderFill s op = []) : Remembers settings s' (log ++ BrokerOp.orderFill s op) := by
  rwa [hfill, List.append_nil]

/-- A call of `place_order` is answered at once, or goes to sleep. -/
theorem Remembers.startOrder (h : Remembers settings s log) (hidle : ∀ t ∈ s.tasks, t.pending = false)
    (a : RiskAssessment ℚ) :
    Remembers settings { s with tasks := s.tasks ++ [s.account.startOrder settings a] } log := by
  unfold PaperAccount.startOrder
  cases haccept : s.account.broker.acceptOrder settings a with
  | error err => exact h.append rfl (fun hpending => nomatch hpending) fun _ _ he => nomatch he
  | ok accepted =>
    cases accepted with
    | inl cached => exact h.append rfl (fun hpending => nomatch hpending) fun _ _ he => nomatch he
    | inr refPrice =>
      refine h.append rfl (fun _ => hidle) fun a' refPrice' he => ?_
      cases he
      exact acceptOrder_sleeps haccept

/-- A close by `close_position` is not remembered. -/
theorem Remembers.startClose (h : Remembers settings s log) (symbol : String) (price : Option ℚ)
    (proposalId assessmentId resultId : ℕ) :
    let started := s.account.startClose symbol price proposalId assessmentId resultId
    Remembers settings ⟨started.1, s.tasks ++ [started.2]⟩ log := by
  dsimp only
  have hquiet : ∀ {w : PaperAccount} {task : BrokerTask}, w.broker.filledOrders = s.account.broker.filledOrders →
      task.pending = false → Remembers settings ⟨w, s.tasks ++ [task]⟩ log := by
    intro w task hw htask
    refine (h.append (BrokerTask.owes_of_not_pending htask) (fun hpending => ?_) fun a refPrice he => ?_).of_cache hw
    · rw [htask] at hpending
      cases hpending
    · exact absurd he (BrokerTask.ne_sleeping_of_not_pending htask a refPrice)
  unfold PaperAccount.startClose
  cases hclose : s.account.broker.closePosition symbol price proposalId assessmentId resultId with
  | none => exact hquiet rfl rfl
  | some c =>
    obtain ⟨refPrice, hclose⟩ := closePosition_closeAt hclose
    obtain ⟨-, -, hbroker, -⟩ := closeAt_spec hclose
    obtain ⟨hsaved, htask⟩ := (PaperAccount.saves_startSave (s.account.recordClose c) (.reply c.result)).reply
    refine hquiet ?_ htask
    rw [hsaved, PaperAccount.recordClose, hbroker]

/-- A call goes on. -/
theorem Remembers.resume (h : Remembers settings s log) {i : ℕ} {task : BrokerTask} (htask : s.tasks[i]? = some task)
    {wakeup : Wakeup} {ended : PaperAccount × BrokerTask} (hresume : s.account.resume task wakeup = some ended) :
    Remembers settings ⟨ended.1, s.tasks.set i ended.2⟩ (log ++ BrokerOp.orderFill s (.call (.resume i wakeup))) := by
  cases task with
  | sleeping a refPrice =>
    cases wakeup with
    | latencyOver choice resultId => exact h.latencyOver htask hresume
    | saved ok => cases hresume
  | saving stage next =>
    cases wakeup with
    | latencyOver choice resultId => cases stage <;> cases hresume
    | saved ok =>
      have hended := PaperAccount.saves_resume hresume
      cases next with
      | reply result =>
        obtain ⟨hbroker, hquiet⟩ := hended.reply
        exact ((h.set_quiet htask rfl hquiet).of_cache (congrArg PaperBroker.filledOrders hbroker)).of_no_fill rfl
      | rememberAndReply proposalId result =>
        have howes := h.owes_eq htask rfl
        obtain ⟨remembered, hlog, hcache⟩ := h.cache
        rw [howes] at hlog
        have hnew := h.owed (proposalId, result) (howes ▸ List.mem_singleton_self _)
        have hpaper := h.paper (proposalId, result) (hlog ▸ List.mem_append_right _ (List.mem_singleton_self _))
        rw [hlog]
        exact (h.saves htask rfl hpaper hcache hnew hended).of_no_fill rfl
  | done outcome => cases wakeup <;> cases hresume

/-- One step adds to the log of fills what the memory is going to have. -/
theorem Remembers.step (h : Remembers settings s log) {op : BrokerOp} {s' : BrokerRun} (hone : BrokerOp.OneAtATime s op)
    (hs : BrokerOp.step settings s op = some s') : Remembers settings s' (log ++ BrokerOp.orderFill s op) := by
  cases op with
  | restoreCash cash =>
    cases hs
    refine Remembers.of_no_fill ?_ rfl
    exact h.of_cache rfl
  | restorePositions positions =>
    cases hs
    refine Remembers.of_no_fill ?_ rfl
    exact h.of_cache rfl
  | call e =>
    cases e with
    | placeOrder a =>
      cases hs
      exact (h.startOrder hone a).of_no_fill rfl
    | closePosition symbol price proposalId assessmentId resultId =>
      cases hs
      exact (h.startClose symbol price proposalId assessmentId resultId).of_no_fill rfl
    | resume i wakeup =>
      replace hs : BrokerRun.step settings s (.resume i wakeup) = some s' := hs
      obtain ⟨task, w, task', htask, hresume, rfl⟩ := step_resume hs
      exact h.resume htask hresume
    | link connected =>
      cases hs
      refine Remembers.of_no_fill ?_ rfl
      exact h.of_cache rfl

/-- Along a run the log of its fills. -/
theorem Remembers.run {t : BrokerRun} {ops : List BrokerOp} (h : Remembers settings s log)
    (hone : Along (BrokerOp.step settings) BrokerOp.OneAtATime s ops)
    (hrun : exec (BrokerOp.step settings) s ops = some t) :
    Remembers settings t (log ++ BrokerOp.orderFills settings s ops) := by
  induction ops generalizing s log with
  | nil =>
    cases hrun
    rwa [BrokerOp.orderFills, List.append_nil]
  | cons op ops ih =>
    obtain ⟨s', hs, hrun⟩ := exec_cons.1 hrun
    rw [BrokerOp.orderFills, hs, ← List.append_assoc]
    exact ih (h.step hone.1 hs) (hone.2 s' hs) hrun

theorem remembers_init (settings : Settings) (connected : Bool) : Remembers settings (.init settings connected) [] where
  paper _ hp := nomatch hp
  one _ _ _ _ hi := nomatch hi
  asleep _ _ hmem := nomatch hmem
  cache := ⟨[], rfl, rfl⟩
  owed _ hp := nomatch hp

/-- A fill that fewer than a thousand others came after is remembered, once no order is pending. -/
theorem Remembers.get?_cache (h : Remembers settings s log) (hidle : ∀ t ∈ s.tasks, t.pending = false)
    {before after : List (ℕ × ExecutionResult)} {proposalId : ℕ} {result : ExecutionResult}
    (hlog : log = before ++ (proposalId, result) :: after) (hfew : after.length < idempotencyCacheSize) :
    s.cache.get? proposalId = some result := by
  obtain ⟨remembered, hlog', hcache⟩ := h.cache
  have howes : s.tasks.flatMap BrokerTask.owes = [] :=
    List.flatMap_eq_nil_iff.2 fun t ht => BrokerTask.owes_of_not_pending (hidle t ht)
  rw [howes, List.append_nil] at hlog'
  rw [← Dict.mem_entries, hcache, ← hlog', hlog]
  exact Recent.mem_keep hfew

end BrokerRun

open BrokerOp

/-- A proposal that has filled is not placed again: as long as fewer than a thousand other orders have filled since, its
result is returned at once and nothing changes, whatever has become of the position. -/
theorem place_order_idempotent {settings : Settings} {connected : Bool} {ops : List BrokerOp} {s : BrokerRun}
    {a : RiskAssessment ℚ} {result : ExecutionResult} {before after : List (ℕ × ExecutionResult)}
    (hone : Along (step settings) OneAtATime (.init settings connected) ops)
    (hrun : exec (step settings) (.init settings connected) ops = some s)
    (hfills : orderFills settings (.init settings connected) ops = before ++ (a.proposalId, result) :: after)
    (hfew : after.length < 1000) (hidle : OneAtATime s (.call (.placeOrder a))) :
    step settings s (.call (.placeOrder a)) = some ⟨s.account, s.tasks ++ [.done (.ok (some result))]⟩ := by
  have h := (BrokerRun.remembers_init settings connected).run hone hrun
  rw [List.nil_append] at h
  have hpaper := h.paper (a.proposalId, result) (by rw [hfills]; exact List.mem_append_right _ List.mem_cons_self)
  have hcached := h.get?_cache hidle hfills hfew
  have haccept := acceptOrder_of_remembered hpaper hcached
  show some (BrokerRun.mk s.account (s.tasks ++ [s.account.startOrder settings a])) = _
  rw [PaperAccount.startOrder, haccept]

/-- An order opens a position, and a second one closes it. -/
def openedThenClosed : List BrokerOp :=
  [.call (.placeOrder (plainOrder 1 "BTC/USDT" .buy 200 two_hundred_pos 100)),
    .call (.resume 0 (.latencyOver .full 10)), .call (.resume 0 (.saved true)), .call (.resume 0 (.saved true)),
    .call (.placeOrder (plainOrder 2 "BTC/USDT" .sell 200 two_hundred_pos 110)),
    .call (.resume 1 (.latencyOver .full 11)), .call (.resume 1 (.saved false))]

theorem place_order_idempotent_openedThenClosed : ∃ s result,
    exec (step defaultSettings) (.init defaultSettings true) openedThenClosed = some s ∧
      s.account.broker.positions.keys = [] ∧
      step defaultSettings s (.call (.placeOrder (plainOrder 1 "BTC/USDT" .buy 200 two_hundred_pos 100))) =
        some ⟨s.account, s.tasks ++ [.done (.ok (some result))]⟩ := by
  have hrun : ((exec (step defaultSettings) (.init defaultSettings true) openedThenClosed).map fun s =>
      (s.account.broker.positions.keys, s.tasks.map BrokerTask.pending)) = some ([], [false, false]) := by
    decide +kernel
  have hfills : (orderFills defaultSettings (.init defaultSettings true) openedThenClosed).map Prod.fst = [1, 2] := by
    decide +kernel
  obtain ⟨s, hs, hended⟩ := Option.map_eq_some_iff.1 hrun
  obtain ⟨hflat, hpending⟩ := Prod.mk.injEq .. ▸ hended
  obtain ⟨⟨first, result⟩, after, hlog, hfirst, hafter⟩ := List.map_eq_cons_iff.1 hfills
  obtain rfl : first = 1 := hfirst
  have hlog' : orderFills defaultSettings (.init defaultSettings true) openedThenClosed = [] ++ (1, result) :: after :=
    hlog
  have hfew : after.length < 1000 := by
    have hone : after.length = 1 := by rw [← List.length_map Prod.fst, hafter, List.length_singleton]
    omega
  have hidle : ∀ task ∈ s.tasks, task.pending = false := by
    intro task htask
    have hmem : task.pending ∈ [false, false] := hpending ▸ List.mem_map_of_mem htask
    simpa using hmem
  exact ⟨s, result, hs, hflat, place_order_idempotent (by decide +kernel) hs hlog' hfew hidle⟩

end MultiAgentTrading
