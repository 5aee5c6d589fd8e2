import MultiAgentTrading.Execution.DecimalBooks

/-!
# Restart

A broker that is restored from the saved portfolio, next to the one that saved it.  They have the same books, and the
old one remembers orders that the new one does not.  `Alike` is kept by every call whose order the old broker does not
remember, also when the cache of the old broker is full and drops its oldest orders, so the two fill every further
order alike.  `restart_round_trip` puts this together with `connect_saved`.
-/

namespace MultiAgentTrading

open PaperBroker Runs

namespace PaperBroker

/-- Two brokers with the same books.  What `b` remembers and `b'` does not is older than all that `b'` remembers, and
is no order of `ids`. -/
structure Alike (ids : List ℕ) (b b' : PaperBroker) : Prop where
  cash : b.cashBalance = b'.cashBalance
  positions : b.positions = b'.positions
  cache : ∃ old, b.filledOrders.entries = old ++ b'.filledOrders.entries ∧ ∀ p ∈ old, p.1 ∉ ids
  size : b.filledOrders.size ≤ idempotencyCacheSize

/-- Closes that differ only in what the broker remembers. -/
structure ClosedAlike (ids : List ℕ) (c c' : Closed) : Prop where
  broker : Alike ids c.broker c'.broker
  position : c.position = c'.position
  fill : c.fill = c'.fill
  result : c.result = c'.result

/-- Outcomes of an order that differ only in what the broker remembers. -/
inductive FilledAlike (ids : List ℕ) : Except BrokerError Filled → Except BrokerError Filled → Prop
  | error (e : BrokerError) : FilledAlike ids (.error e) (.error e)
  | opened {b b' : PaperBroker} (h : Alike ids b b') (position : PaperPosition) (result : ExecutionResult) :
      FilledAlike ids (.ok (.opened b position result)) (.ok (.opened b' position result))
  | closed {c c' : Closed} (h : ClosedAlike ids c c') : FilledAlike ids (.ok (.closed c)) (.ok (.closed c'))

theorem remember_size_le {b : PaperBroker} (h : b.filledOrders.size ≤ idempotencyCacheSize) (proposalId : ℕ)
    (result : ExecutionResult) : (b.remember proposalId result).filledOrders.size ≤ idempotencyCacheSize :=
  Recent.size_put_le h proposalId result

namespace Alike

variable {ids : List ℕ} {b b' : PaperBroker}

private theorem get?_eq (h : Alike ids b b') {proposalId : ℕ} (hid : proposalId ∈ ids) :
    b.filledOrders.get? proposalId = b'.filledOrders.get? proposalId := by
  obtain ⟨old, hentries, hold⟩ := h.cache
  exact Dict.get?_append hentries fun p hp he => hold p hp (he ▸ hid)

/-- Remembering an order keeps two brokers alike: a full cache drops what only the old broker remembers first. -/
private theorem remember (h : Alike ids b b') {proposalId : ℕ} (hid : proposalId ∈ ids) (result : ExecutionResult) :
    Alike ids (b.remember proposalId result) (b'.remember proposalId result) := by
  obtain ⟨old, hentries, hold⟩ := h.cache
  have hset := Dict.entries_set_append hentries (fun p hp he => hold p hp (he ▸ hid)) result
  have hsize : (b.filledOrders.set proposalId result).size =
      old.length + (b'.filledOrders.set proposalId result).size := by
    rw [Dict.size, hset, List.length_append]
    rfl
  have hle := Dict.size_set_le b.filledOrders proposalId result
  have hcap := h.size
  refine ⟨h.cash, h.positions, ?_, remember_size_le h.size proposalId result⟩
  unfold PaperBroker.remember
  dsimp only
  by_cases hfull : idempotencyCacheSize < (b.filledOrders.set proposalId result).size
  · rw [if_pos hfull]
    cases old with
    | nil =>
      rw [List.length_nil, zero_add] at hsize
      rw [if_pos (hsize ▸ hfull)]
      refine ⟨[], ?_, fun p hp => absurd hp List.not_mem_nil⟩
      exact congrArg List.tail hset
    | cons oldest old =>
      -- the other cache has room left
      rw [List.length_cons] at hsize
      rw [if_neg (by omega)]
      refine ⟨old, ?_, fun p hp => hold p (List.mem_cons_of_mem _ hp)⟩
      exact congrArg List.tail hset
  · rw [if_neg hfull, if_neg (by omega)]
    exact ⟨old, hset, hold⟩

private theorem closeAt (h : Alike ids b b') (symbol : String) (refPrice : ℚ) (proposalId assessmentId resultId : ℕ) :
    Option.Rel (ClosedAlike ids) (b.closeAt symbol refPrice proposalId assessmentId resultId)
      (b'.closeAt symbol refPrice proposalId assessmentId resultId) := by
  unfold PaperBroker.closeAt
  rw [h.positions]
  cases b'.positions.get? symbol with
  | none => exact .none
  | some pos => exact .some ⟨⟨by rw [h.cash], rfl, h.cache, h.size⟩, rfl, rfl, rfl⟩

private theorem closePosition (h : Alike ids b b') (symbol : String) (price : Option ℚ)
    (proposalId assessmentId resultId : ℕ) :
    Option.Rel (ClosedAlike ids) (b.closePosition symbol price proposalId assessmentId resultId)
      (b'.closePosition symbol price proposalId assessmentId resultId) := by
  unfold PaperBroker.closePosition
  rw [h.positions]
  cases b'.positions.get? symbol with
  | none => exact .none
  | some pos => exact h.closeAt _ _ _ _ _

private theorem acceptOrder_eq (h : Alike ids b b') (settings : Settings) {a : RiskAssessment ℚ}
    (hid : a.proposalId ∈ ids) : b.acceptOrder settings a = b'.acceptOrder settings a := by
  unfold PaperBroker.acceptOrder
  rw [h.get?_eq hid]

private theorem fillOrder (h : Alike ids b b') {a : RiskAssessment ℚ} (hid : a.proposalId ∈ ids) (refPrice : ℚ)
    (choice : FillChoice) (resultId : ℕ) :
    FilledAlike ids (b.fillOrder a refPrice choice resultId) (b'.fillOrder a refPrice choice resultId) := by
  unfold PaperBroker.fillOrder
  dsimp only
  rw [h.positions]
  cases b'.positions.get? a.originalProposal.symbol with
  | some existing =>
    dsimp only
    by_cases hside : existing.side = a.originalProposal.side
    · rw [if_pos hside, if_pos hside]
      exact .error _
    · rw [if_neg hside, if_neg hside]
      have hclose := h.closeAt a.originalProposal.symbol refPrice a.proposalId a.assessmentId resultId
      generalize b.closeAt a.originalProposal.symbol refPrice a.proposalId a.assessmentId resultId = c at hclose ⊢
      generalize b'.closeAt a.originalProposal.symbol refPrice a.proposalId a.assessmentId resultId = c' at hclose ⊢
      cases hclose with
      | none => exact .error _
      | some hc => exact .closed hc
  | none =>
    dsimp only
    cases openingFill a refPrice choice with
    | error e => exact .error e
    | ok fill =>
      dsimp only
      rw [h.cash]
      by_cases hfunds : b'.cashBalance < fill.totalCost
      · rw [if_pos hfunds, if_pos hfunds]
        exact .error _
      · rw [if_neg hfunds, if_neg hfunds]
        refine .opened (Alike.remember ?_ hid _) _ _
        exact ⟨rfl, rfl, h.cache, h.size⟩

end Alike

end PaperBroker

/-- The orders that a call may still look up or remember. -/
def BrokerTask.orders : BrokerTask → List ℕ
  | .sleeping a _ => [a.proposalId]
  | .saving _ next => next.toRemember
  | .done _ => []

namespace PaperAccount

/-- Two accounts with alike brokers; `fills` are the fills that the old one had before. -/
structure AccountsAlike (ids : List ℕ) (fills : List FillEvent) (w w' : PaperAccount) : Prop where
  broker : Alike ids w.broker w'.broker
  connected : w.connected = w'.connected
  fills : w.fills = fills ++ w'.fills

/-- Two accounts after one piece of the same call, with the same left to do. -/
structure TasksAlike (ids : List ℕ) (fills : List FillEvent) (x y : PaperAccount × BrokerTask) : Prop where
  account : AccountsAlike ids fills x.1 y.1
  task : x.2 = y.2
  orders : y.2.orders ⊆ ids

namespace AccountsAlike

variable {ids : List ℕ} {fills : List FillEvent} {w w' : PaperAccount}

private theorem finish (h : AccountsAlike ids fills w w') {next : AfterSave} (hnext : next.toRemember ⊆ ids) :
    TasksAlike ids fills (w.finish next) (w'.finish next) := by
  cases next with
  | reply result => exact ⟨h, rfl, List.nil_subset _⟩
  | rememberAndReply proposalId result =>
    exact ⟨⟨h.broker.remember (hnext List.mem_cons_self) result, h.connected, h.fills⟩, rfl, List.nil_subset _⟩

private theorem startSave (h : AccountsAlike ids fills w w') {next : AfterSave} (hnext : next.toRemember ⊆ ids) :
    TasksAlike ids fills (w.startSave next) (w'.startSave next) := by
  unfold PaperAccount.startSave
  rw [h.connected]
  split
  · exact ⟨h, by rw [h.broker.cash], hnext⟩
  · exact h.finish hnext

private theorem recordClose (h : AccountsAlike ids fills w w') {c c' : Closed} (hc : ClosedAlike ids c c') :
    AccountsAlike ids fills (w.recordClose c) (w'.recordClose c') := by
  refine ⟨hc.broker, h.connected, ?_⟩
  show w.fills ++ [_] = fills ++ (w'.fills ++ [_])
  rw [h.fills, hc.position, hc.fill, hc.result, List.append_assoc]

private theorem recordOpen (h : AccountsAlike ids fills w w') {b b' : PaperBroker} (hb : Alike ids b b')
    (position : PaperPosition) (result : ExecutionResult) :
    AccountsAlike ids fills (w.recordOpen b position result) (w'.recordOpen b' position result) := by
  refine ⟨hb, h.connected, ?_⟩
  show w.fills ++ [_] = fills ++ (w'.fills ++ [_])
  rw [h.fills, List.append_assoc]

private theorem store (h : AccountsAlike ids fills w w') (store store' : PersistedPortfolio) :
    AccountsAlike ids fills { w with store := store } { w' with store := store' } :=
  ⟨h.broker, h.connected, h.fills⟩

private theorem startOrder (h : AccountsAlike ids fills w w') (settings : Settings) {a : RiskAssessment ℚ}
    (hid : a.proposalId ∈ ids) :
    w.startOrder settings a = w'.startOrder settings a ∧ (w'.startOrder settings a).orders ⊆ ids := by
  unfold PaperAccount.startOrder
  rw [h.broker.acceptOrder_eq settings hid]
  refine ⟨rfl, ?_⟩
  split
  · exact List.nil_subset _
  · exact List.nil_subset _
  · exact List.cons_subset.2 ⟨hid, List.nil_subset _⟩

private theorem startClose (h : AccountsAlike ids fills w w') (symbol : String) (price : Option ℚ)
    (proposalId assessmentId resultId : ℕ) :
    TasksAlike ids fills (w.startClose symbol price proposalId assessmentId resultId)
      (w'.startClose symbol price proposalId assessmentId resultId) := by
  have hclose := h.broker.closePosition symbol price proposalId assessmentId resultId
  unfold PaperAccount.startClose
  generalize w.broker.closePosition symbol price proposalId assessmentId resultId = c at hclose ⊢
  generalize w'.broker.closePosition symbol price proposalId assessmentId resultId = c' at hclose ⊢
  cases hclose with
  | none => exact ⟨h, rfl, List.nil_subset _⟩
  | some hc =>
    dsimp only
    rw [hc.result]
    exact (h.recordClose hc).startSave (List.nil_subset _)

/-- A call that two alike accounts resume leaves them alike. -/
private theorem resume (h : AccountsAlike ids fills w w') {task : BrokerTask} (htask : task.orders ⊆ ids)
    (wakeup : Wakeup) : Option.Rel (TasksAlike ids fills) (w.resume task wakeup) (w'.resume task wakeup) := by
  cases task with
  | sleeping a refPrice =>
    cases wakeup with
    | saved ok => exact .none
    | latencyOver choice resultId =>
      have hfilled := h.broker.fillOrder (htask List.mem_cons_self) refPrice choice resultId
      unfold PaperAccount.resume
      dsimp only
      generalize w.broker.fillOrder a refPrice choice resultId = filled at hfilled ⊢
      generalize w'.broker.fillOrder a refPrice choice resultId = filled' at hfilled ⊢
      cases hfilled with
      | error e => exact .some ⟨h, rfl, List.nil_subset _⟩
      | opened hb position result =>
        exact .some ((h.recordOpen hb position result).startSave (List.nil_subset _))
      | closed hc =>
        dsimp only
        rw [hc.result]
        exact .some ((h.recordClose hc).startSave htask)
  | saving stage next =>
    cases wakeup with
    | latencyOver choice resultId => cases stage <;> exact .none
    | saved ok =>
      cases ok with
      | false => cases stage <;> exact .some (h.finish htask)
      | true =>
        cases stage with
        | cash value =>
          exact .some ⟨h.store _ _, by rw [h.broker.positions], htask⟩
        | positions value => exact .some ((h.store _ _).finish htask)
  | done outcome => cases wakeup <;> exact .none

end AccountsAlike

end PaperAccount

/-! ### Two runs -/

namespace BrokerEvent

/-- The same event where `n` calls have been made before. -/
def after (n : ℕ) : BrokerEvent → BrokerEvent
  | .resume i wakeup => .resume (n + i) wakeup
  | e => e

/-- The order that an event places. -/
def orders : BrokerEvent → List ℕ
  | .placeOrder a => [a.proposalId]
  | _ => []

end BrokerEvent

namespace BrokerRun

/-- A run of the restored broker. -/
def restored (b : PaperBroker) (connected : Bool) : BrokerRun where
  account := { broker := b, connected := connected }

/-- Since `before`, the old run has made the calls that the run of the restored broker has made, with the same
outcomes and fills, and it has the same books. -/
structure SameSince (before s r : BrokerRun) : Prop where
  cash : s.account.broker.cashBalance = r.account.broker.cashBalance
  positions : s.account.broker.positions = r.account.broker.positions
  fills : s.account.fills = before.account.fills ++ r.account.fills
  tasks : s.tasks = before.tasks ++ r.tasks

/-- What two runs keep: alike accounts, the same calls since `before`, and only orders of `ids` among them. -/
structure RunsAlike (ids : List ℕ) (before s r : BrokerRun) : Prop where
  account : PaperAccount.AccountsAlike ids before.account.fills s.account r.account
  tasks : s.tasks = before.tasks ++ r.tasks
  orders : ∀ task ∈ r.tasks, task.orders ⊆ ids

private theorem RunsAlike.sameSince {ids : List ℕ} {before s r : BrokerRun} (h : RunsAlike ids before s r) :
    SameSince before s r :=
  ⟨h.account.broker.cash, h.account.broker.positions, h.account.fills, h.tasks⟩

/-- A call is added to both runs. -/
private theorem RunsAlike.start {ids : List ℕ} {before s r : BrokerRun} (h : RunsAlike ids before s r)
    {x y : PaperAccount × BrokerTask} (hstarted : PaperAccount.TasksAlike ids before.account.fills x y) :
    RunsAlike ids before ⟨x.1, s.tasks ++ [x.2]⟩ ⟨y.1, r.tasks ++ [y.2]⟩ := by
  refine ⟨hstarted.account, ?_, fun task htask => ?_⟩
  · rw [h.tasks, hstarted.task, List.append_assoc]
  · rcases List.mem_append.1 htask with hold | hnew
    · exact h.orders task hold
    · rw [List.mem_singleton.1 hnew]
      exact hstarted.orders

/-- One step of both runs. -/
private theorem RunsAlike.step {ids : List ℕ} {before s r : BrokerRun} {settings : Settings}
    (h : RunsAlike ids before s r) {e : BrokerEvent} (he : e.orders ⊆ ids) :
    Option.Rel (RunsAlike ids before) (step settings s (e.after before.tasks.length)) (step settings r e) := by
  cases e with
  | placeOrder a =>
    obtain ⟨hsame, hids⟩ := h.account.startOrder settings (he List.mem_cons_self)
    exact .some (h.start (x := (s.account, _)) (y := (r.account, _)) ⟨h.account, hsame, hids⟩)
  | closePosition symbol price proposalId assessmentId resultId =>
    exact .some (h.start (h.account.startClose symbol price proposalId assessmentId resultId))
  | resume i wakeup =>
    have hget : s.tasks[before.tasks.length + i]? = r.tasks[i]? := by
      rw [h.tasks, List.getElem?_append_right (Nat.le_add_right _ _), Nat.add_sub_cancel_left]
    unfold BrokerRun.step BrokerEvent.after
    dsimp only
    rw [hget]
    cases htask : r.tasks[i]? with
    | none => exact .none
    | some task =>
      have hresume := h.account.resume (h.orders task (List.mem_of_getElem? htask)) wakeup
      dsimp only
      generalize s.account.resume task wakeup = resumed at hresume ⊢
      generalize r.account.resume task wakeup = resumed' at hresume ⊢
      cases hresume with
      | none => exact .none
      | some hresumed =>
        refine .some ⟨hresumed.account, ?_, fun task' htask' => ?_⟩
        · dsimp only
          rw [h.tasks, hresumed.task, List.set_append_right _ _ (Nat.le_add_right _ _), Nat.add_sub_cancel_left]
        · rcases List.mem_or_eq_of_mem_set htask' with hold | rfl
          · exact h.orders task' hold
          · exact hresumed.orders
  | link connected =>
    exact .some ⟨⟨h.account.broker, rfl, h.account.fills⟩, h.tasks, h.orders⟩

end BrokerRun

/-- A cache that is not too full stays so. -/
private theorem size_filledOrders_change {b b' : PaperBroker} (hchange : Change b b')
    (h : b.filledOrders.size ≤ idempotencyCacheSize) : b'.filledOrders.size ≤ idempotencyCacheSize := by
  cases hchange with
  | remembered proposalId result => exact remember_size_le h proposalId result
  | closed hclose =>
    obtain ⟨-, -, hbroker, -⟩ := closeAt_spec hclose
    rw [hbroker]
    exact h
  | opened hopen =>
    rcases fillOrder_cases hopen with ⟨c, hc, -⟩ | ⟨fill, -, -, -, hopened⟩
    · cases hc
    · cases hopened
      exact remember_size_le h _ _

/-- Restart.  After any run of a new broker, whose books are those of a decimal portfolio, there is a portfolio that
shows the books; saved and restored it is the same, and the broker restored from it has the same cash and positions.
Whatever is done to it then, new orders at least, has the same outcomes and fills as on the old broker. -/
theorem restart_round_trip {settings : Settings} {start s : BrokerRun} {es : List BrokerEvent}
    {initial : DecimalPortfolio} (hinitial : initial.Shows start.account.broker)
    (hnew : start.account.broker.filledOrders = .empty) (h : exec (BrokerRun.step settings) start es = some s) :
    (∃ p : DecimalPortfolio, p.Shows s.account.broker) ∧
      ∀ p : DecimalPortfolio, p.Shows s.account.broker →
        (∀ F q, SavedPortfolio.connect F (p.save F) {} q = ⟨p, p.save F⟩) ∧
        ∀ b, p.Shows b → b.filledOrders = .empty →
          b.cashBalance = s.account.broker.cashBalance ∧ b.positions = s.account.broker.positions ∧
          ∀ further : List BrokerEvent,
            (∀ e ∈ further, ∀ id ∈ e.orders, id ∉ s.account.broker.filledOrders.keys) →
            Option.Rel s.SameSince
              (exec (BrokerRun.step settings) s (further.map (BrokerEvent.after s.tasks.length)))
              (exec (BrokerRun.step settings) (BrokerRun.restored b s.account.connected) further) := by
  have hbooks : DecimalBooks s.account.broker :=
    BrokerRun.exec_invariant_of_change DecimalBooks (fun _ _ hchange hb => hb.change hchange)
      (decimalBooks_iff.2 ⟨initial, hinitial⟩) h
  have hsize : s.account.broker.filledOrders.size ≤ idempotencyCacheSize :=
    BrokerRun.exec_invariant_of_change (fun b => b.filledOrders.size ≤ idempotencyCacheSize)
      (fun _ _ hchange hb => size_filledOrders_change hchange hb) (by rw [hnew]; exact Nat.zero_le _) h
  refine ⟨decimalBooks_iff.1 hbooks, fun p hp => ⟨fun F q => hp.connect F q, ?_⟩⟩
  intro b hb hempty
  obtain ⟨hcash, hpositions⟩ := hb.books_eq hp
  refine ⟨hcash, hpositions, fun further hfurther => ?_⟩
  have hids : ∀ e ∈ further, e.orders ⊆ further.flatMap BrokerEvent.orders := fun e he id hid =>
    List.mem_flatMap.2 ⟨e, he, hid⟩
  have halike : BrokerRun.RunsAlike (further.flatMap BrokerEvent.orders) s s
      (BrokerRun.restored b s.account.connected) := by
    refine ⟨⟨⟨hcash.symm, hpositions.symm, ⟨s.account.broker.filledOrders.entries, ?_, ?_⟩, hsize⟩, rfl,
      (List.append_nil _).symm⟩, (List.append_nil _).symm, fun task htask => absurd htask List.not_mem_nil⟩
    · rw [BrokerRun.restored, hempty]
      exact (List.append_nil _).symm
    · intro q hq hid
      obtain ⟨e, he, hqe⟩ := List.mem_flatMap.1 hid
      exact hfurther e he q.1 hqe (List.mem_map.2 ⟨q, hq, rfl⟩)
  exact exec_rel (R := BrokerRun.RunsAlike (further.flatMap BrokerEvent.orders) s) (fun _ _ _ hst he => hst.step he)
    (fun _ _ hst => hst.sameSince) hids halike

/-- An order opens a position, and the save of the portfolio ends. -/
def openedSaved : List BrokerEvent :=
  [.placeOrder (plainOrder 1 "BTC/USDT" .buy 200 two_hundred_pos 100), .resume 0 (.latencyOver .full 0),
    .resume 0 (.saved true), .resume 0 (.saved true)]

/-- The position is closed by an order on the other side. -/
def closedLater : List BrokerEvent :=
  [.placeOrder (plainOrder 2 "BTC/USDT" .sell 200 two_hundred_pos 110), .resume 0 (.latencyOver .full 1)]

theorem restart_round_trip_openedSaved : ∃ s, ∃ p : DecimalPortfolio,
    exec (BrokerRun.step {}) (BrokerRun.init {} true) openedSaved = some s ∧
      s.account.broker.positions.keys = ["BTC/USDT"] ∧ p.Shows s.account.broker ∧
      (∀ F q, SavedPortfolio.connect F (p.save F) {} q = ⟨p, p.save F⟩) ∧
      Option.Rel s.SameSince (exec (BrokerRun.step {}) s (closedLater.map (BrokerEvent.after s.tasks.length)))
        (exec (BrokerRun.step {})
          (BrokerRun.restored { s.account.broker with filledOrders := .empty } s.account.connected) closedLater) := by
  have hrun : ((exec (BrokerRun.step {}) (BrokerRun.init {} true) openedSaved).map fun s =>
      (s.account.broker.positions.keys, s.account.broker.filledOrders.keys)) = some (["BTC/USDT"], [1]) := by
    decide +kernel
  obtain ⟨s, hs, hkeys⟩ := Option.map_eq_some_iff.1 hrun
  rw [Prod.mk.injEq] at hkeys
  have hbalance : (Decimal.finite false 100000 (-1)).toRat = some ({} : Settings).paperInitialBalanceUsd := by
    decide +kernel
  obtain ⟨⟨p, hp⟩, hall⟩ := restart_round_trip (DecimalPortfolio.shows_init hbalance) rfl hs
  obtain ⟨hconnect, hrestored⟩ := hall p hp
  obtain ⟨-, -, hfurther⟩ := hrestored { s.account.broker with filledOrders := .empty } ⟨hp.cash, hp.positions⟩ rfl
  refine ⟨s, p, hs, hkeys.1, hp, hconnect, hfurther closedLater ?_⟩
  rw [hkeys.2]
  decide

end MultiAgentTrading
