import MultiAgentTrading.Execution.AuditedFills

/-!
# The recorded executions and the cash

At the end of a day without positions the daily profit and the change of the cash differ by the opening fees of the
shorts, which the broker gives back, and by the fills that have no row (`daily_pnl_explains_cash_iff`).  In a `Plain`
run there are none of either.
-/

namespace MultiAgentTrading

open PaperBroker Runs TradeRepository FillEvent

namespace ExecutionAgent

/-! ### The end of the day -/

/-- The fill has a row. -/
def Recorded (s : ExecutionAgent) (f : FillEvent) : Prop := s.executions.contains f.result.resultId = true

instance (s : ExecutionAgent) : DecidablePred s.Recorded :=
  fun f => inferInstanceAs (Decidable (s.executions.contains f.result.resultId = true))

/-- What the rows of the fills that have none would add. -/
def unsaved (s : ExecutionAgent) : ℚ := ((s.account.fills.filter fun f => ¬s.Recorded f).map FillEvent.value).sum

/-- The opening fees that the closes of shorts have given back. -/
def refunded (s : ExecutionAgent) : ℚ := (s.account.fills.map refund).sum

/-- The entries of the table are the rows of the fills that have one. -/
private theorem Audited.entries_perm {start cash : ℚ} {s : ExecutionAgent} (h : s.Audited start cash) :
    s.executions.entries.Perm ((s.account.fills.filter fun f => s.Recorded f).map fun f =>
      (f.result.resultId, executionRow f.result ((s.timestamps.get? f.result.resultId).getD 0))) := by
  have hsaved : ((s.account.fills.filter fun f => s.Recorded f).map fun f => f.result.resultId).Nodup :=
    (List.filter_sublist.map _).nodup h.distinct
  refine (List.perm_ext_iff_of_nodup s.executions.nodup.of_map (List.Nodup.of_map Prod.fst ?_)).2 ?_
  · rw [List.map_map]
    exact hsaved
  rintro ⟨id, row⟩
  rw [Dict.mem_entries, List.mem_map]
  constructor
  · intro hget
    obtain ⟨f, hf, rfl, hrow⟩ := h.rows id row hget
    have hrecorded : s.Recorded f := Dict.contains_iff.2 (Dict.mem_keys.2 ⟨row, hget⟩)
    exact ⟨f, List.mem_filter.2 ⟨hf, decide_eq_true hrecorded⟩, by rw [hrow]⟩
  · rintro ⟨f, hf, heq⟩
    cases heq
    obtain ⟨hmem, hrecorded⟩ := List.mem_filter.1 hf
    obtain ⟨row', hget⟩ := Dict.mem_keys.1 (Dict.contains_iff.1 (of_decide_eq_true hrecorded))
    obtain ⟨g, hg, hid, hrow⟩ := h.rows _ row' hget
    obtain rfl : g = f := List.inj_on_of_nodup_map h.distinct hg hmem hid
    rw [hget, hrow]

/-- Every row is that of a fill, and was created on the day of the run. -/
private theorem Audited.row_counts {start cash : ℚ} {s : ExecutionAgent} (h : s.Audited start cash)
    (hday : utcDate s.now = utcDate start) : ∀ row ∈ s.executions.values,
      utcDate row.createdAt = utcDate start ∧ (row.status = .filled ∨ row.status = .partiallyFilled) := by
  intro row hrow
  obtain ⟨⟨id, row'⟩, hentry, rfl⟩ := List.mem_map.1 hrow
  obtain ⟨f, hf, rfl, heq⟩ := h.rows id row' (Dict.mem_entries.1 hentry)
  obtain ⟨t, hget, hle, hle'⟩ := h.stamped f hf
  rw [heq, hget, Option.getD_some]
  have hday_le : utcDate start ≤ utcDate t := utcDate_mono hle
  have hday_ge : utcDate t ≤ utcDate s.now := utcDate_mono hle'
  exact ⟨(hday_ge.trans hday.le).antisymm hday_le, (h.booked f hf).status⟩

/-- The daily profit is what the recorded fills add up to. -/
theorem Audited.getDailyPnl_eq {start cash : ℚ} {s : ExecutionAgent} (h : s.Audited start cash)
    (hday : utcDate s.now = utcDate start) : s.executions.getDailyPnl (utcDate start) =
      ((s.account.fills.filter fun f => s.Recorded f).map FillEvent.value).sum := by
  have hrows : s.executions.values.filter (fun row =>
      utcDate row.createdAt = utcDate start ∧ (row.status = .filled ∨ row.status = .partiallyFilled)) =
        s.executions.values := List.filter_eq_self.2 fun row hrow => decide_eq_true (h.row_counts hday row hrow)
  have hsigned : signedCost = fun row => rowValue row + row.feeUsd.getD 0 :=
    funext fun row => (sub_add_cancel _ _).symm
  unfold TradeRepository.getDailyPnl
  dsimp only
  rw [hrows, hsigned, List.sum_map_add, add_sub_cancel_right, Dict.values, List.map_map]
  rw [(h.entries_perm.map _).sum_eq, List.map_map]
  rfl

/-- The whole account of a day that ends without positions. -/
theorem Audited.getDailyPnl_add {start cash : ℚ} {s : ExecutionAgent} (h : s.Audited start cash)
    (hday : utcDate s.now = utcDate start) (hflat : s.account.broker.positions = .empty) :
    s.executions.getDailyPnl (utcDate start) + s.unsaved + s.refunded = s.account.broker.cashBalance - cash := by
  have hsplit := List.sum_map_filter_add_sum_map_filter_not s.Recorded FillEvent.value s.account.fills
  have hbalanced := h.balanced
  unfold PaperAccount.Balanced at hbalanced
  rw [hflat, Dict.total_empty, ← hsplit] at hbalanced
  rw [h.getDailyPnl_eq hday, unsaved, hbalanced, refunded]
  ring

/-! ### A day without unrecorded fills and opening fees of shorts -/

/-- The fee of an opening fill truncates to nothing. -/
def BelowTen : Except BrokerError OpeningFill → Prop
  | .ok fill => fill.notional < 10
  | .error _ => True

instance : DecidablePred BelowTen
  | .ok fill => inferInstanceAs (Decidable (fill.notional < 10))
  | .error _ => isTrue trivial

/-- If the order that wakes from its sleep opens a short, it has no fee. -/
def ShortFree (b : PaperBroker) (choice : FillChoice) : AuditedLoop → Prop
  | .placing a refPrice => a.originalProposal.side = .sell →
      b.positions.get? a.originalProposal.symbol = none → BelowTen (openingFill a refPrice choice)
  | _ => True

instance (b : PaperBroker) (choice : FillChoice) : DecidablePred (ShortFree b choice)
  | .idle => isTrue trivial
  | .placing a refPrice => inferInstanceAs (Decidable (a.originalProposal.side = .sell →
      b.positions.get? a.originalProposal.symbol = none → BelowTen (openingFill a refPrice choice)))
  | .saving _ _ => isTrue trivial
  | .publishing _ _ => isTrue trivial
  | .persisting _ => isTrue trivial
  | .exited => isTrue trivial

/-- The price does not make the monitor close a position. -/
def Unbreached (settings : Settings) (b : PaperBroker) (price : Option ℚ) : MonitorPhase → Prop
  | .pricing pos _ => ∀ p ∈ price, breached settings.mt5 pos p = true → b.positions.get? pos.symbol = none
  | _ => True

instance (settings : Settings) (b : PaperBroker) (price : Option ℚ) : DecidablePred (Unbreached settings b price)
  | .sleeping => isTrue trivial
  | .pricing pos _ => inferInstanceAs (Decidable (∀ p ∈ price, breached settings.mt5 pos p = true →
      b.positions.get? pos.symbol = none))
  | .saving _ _ _ => isTrue trivial
  | .publishing _ _ => isTrue trivial
  | .ended => isTrue trivial

/-- No short with an opening fee is opened, the monitor closes nothing, and every fill of an order is published. -/
def Explained (settings : Settings) (s : ExecutionAgent) : AgentEvent → Prop
  | .latencyOver choice => ShortFree s.account.broker choice s.loop
  | .publish ok => s.loop.inHand ≠ none → ok = true
  | .monitorPrice price => Unbreached settings s.account.broker price s.monitor
  | _ => True

instance Explained.decidable (settings : Settings) (s : ExecutionAgent) : ∀ e, Decidable (Explained settings s e)
  | .elapse _ => isTrue trivial
  | .take _ => isTrue trivial
  | .latencyOver choice => inferInstanceAs (Decidable (ShortFree s.account.broker choice s.loop))
  | .saved _ => isTrue trivial
  | .publish ok => inferInstanceAs (Decidable (s.loop.inHand ≠ none → ok = true))
  | .persisted => isTrue trivial
  | .exit => isTrue trivial
  | .monitorScan => isTrue trivial
  | .monitorPrice price => inferInstanceAs (Decidable (Unbreached settings s.account.broker price s.monitor))
  | .monitorSaved _ => isTrue trivial
  | .monitorPublish _ => isTrue trivial
  | .link _ => isTrue trivial
  | .halt _ => isTrue trivial

/-- Every fill has its row or is in the hand of the run loop, and no short has an opening fee. -/
structure Plain (s : ExecutionAgent) : Prop where
  recorded : ∀ f ∈ s.account.fills, s.Recorded f ∨ s.loop.inHand = some f.result
  refund : ∀ f ∈ s.account.fills, f.refund = 0
  free : ∀ symbol pos, s.account.broker.positions.get? symbol = some pos → pos.side = .sell → pos.openingFee = 0

theorem plain_init (cash now : ℚ) (connected : Bool) : (init cash now connected).Plain where
  recorded f hf := absurd hf List.not_mem_nil
  refund f hf := absurd hf List.not_mem_nil
  free symbol pos hget := by
    replace hget : Dict.empty.get? symbol = some pos := hget
    cases hget

/-- A step that fills nothing and writes no row; what was in hand stays there. -/
theorem Plain.of_books {s s' : ExecutionAgent} (h : s.Plain) (hbooks : PaperAccount.SameBooks s.account s'.account)
    (hexecutions : s'.executions = s.executions)
    (hloop : s.loop.inHand = none ∨ s'.loop.inHand = s.loop.inHand) : s'.Plain where
  recorded f hf := by
    rw [hbooks.fills] at hf
    unfold Recorded
    rw [hexecutions]
    refine (h.recorded f hf).imp_right fun hr => ?_
    rcases hloop with hnone | hsame
    · exact absurd (hr.symm.trans hnone) (Option.some_ne_none _)
    · exact hsame.trans hr
  refund := by
    rw [hbooks.fills]
    exact h.refund
  free := by
    rw [hbooks.positions]
    exact h.free

private theorem Plain.same {s s' : ExecutionAgent} (h : s.Plain) (hs : SameTrail s s')
    (hloop : s.loop.inHand = none ∨ s'.loop.inHand = s.loop.inHand) : s'.Plain :=
  h.of_books (by rw [hs.account]; exact .refl _) hs.executions hloop

/-- A fill that the run loop takes in hand, while it has no other: it gives no opening fee back, and opens no short
that has one. -/
private theorem Plain.filled {s s' : ExecutionAgent} {f : FillEvent} (h : s.Plain)
    (heffect : PaperAccount.Effect s.account s'.account) (hfills : s'.account.fills = s.account.fills ++ [f])
    (hexecutions : s'.executions = s.executions) (hnone : s.loop.inHand = none)
    (hloop : s'.loop.inHand = some f.result)
    (hfree : f.isClose = false → f.position.side = .sell → f.position.openingFee = 0) : s'.Plain := by
  have hrecorded : ∀ g ∈ s'.account.fills, s'.Recorded g ∨ s'.loop.inHand = some g.result := by
    intro g hg
    rw [hfills] at hg
    unfold Recorded
    rw [hexecutions]
    rcases List.mem_append.1 hg with hg | hg
    · refine (h.recorded g hg).imp_right fun hr => ?_
      exact absurd (hr.symm.trans hnone) (Option.some_ne_none _)
    · rw [List.mem_singleton.1 hg]
      exact .inr hloop
  have hrefund : f.refund = 0 → ∀ g ∈ s'.account.fills, g.refund = 0 := by
    intro hf g hg
    rw [hfills] at hg
    rcases List.mem_append.1 hg with hg | hg
    · exact h.refund g hg
    · rw [List.mem_singleton.1 hg]
      exact hf
  cases heffect with
  | same hs =>
    rw [hs.fills] at hfills
    exact absurd (congrArg List.length hfills) (by simp)
  | opened position result hwf hflat hsymbol hside hqty hpnl hcash hpositions hfills' =>
    obtain rfl : f = .opened position result :=
      List.singleton_inj.1 (List.append_cancel_left (hfills.symm.trans hfills'))
    refine ⟨hrecorded, hrefund rfl, fun symbol pos hget hsell => ?_⟩
    rw [hpositions, Dict.get?_set] at hget
    split at hget
    case isTrue =>
      cases hget
      exact hfree rfl hsell
    case isFalse => exact h.free symbol pos hget hsell
  | closed position fill result hheld hside hqty hpnl hround hcash hpositions hfills' =>
    obtain rfl : f = .closed position fill result :=
      List.singleton_inj.1 (List.append_cancel_left (hfills.symm.trans hfills'))
    refine ⟨hrecorded, hrefund ?_, fun symbol pos hget hsell => ?_⟩
    · show (if position.side = .sell then position.openingFee else 0) = 0
      split_ifs with hsell
      · exact h.free _ _ hheld hsell
      · rfl
    · rw [hpositions, Dict.get?_erase] at hget
      split at hget
      case isTrue => cases hget
      case isFalse => exact h.free symbol pos hget hsell

/-- A short whose notional is below ten dollars costs no more than that. -/
private theorem openingFee_openedPosition {a : RiskAssessment ℚ} {refPrice : ℚ} {fill : OpeningFill}
    (h : FillOk a refPrice fill) (hlt : fill.notional < 10) : (openedPosition a fill).openingFee = 0 := by
  have hnonneg : 0 ≤ fill.notional := by
    rw [h.notional_eq]
    exact mul_nonneg h.fillQty_pos.le h.fillPrice_pos.le
  have hfee : fill.fee = 0 := h.fee_eq.trans ((takerFee_eq_zero_iff hnonneg).2 hlt)
  show fill.totalCost - fill.fillQty * fill.fillPrice = 0
  rw [h.totalCost_eq, hfee, h.notional_eq]
  ring

private theorem Plain.takeAssessment {settings : Settings} {s : ExecutionAgent} (h : s.Plain)
    (hnone : s.loop.inHand = none) (a : RiskAssessment ℚ) : (s.takeAssessment settings a).Plain := by
  unfold ExecutionAgent.takeAssessment
  split_ifs
  · exact h.same ⟨rfl, rfl, rfl, rfl, rfl⟩ (.inl hnone)
  · exact h
  · exact h.same ⟨rfl, rfl, rfl, rfl, rfl⟩ (.inl hnone)
  · obtain ⟨hs, -, -⟩ := afterOrder_frame settings s a s.account (s.account.startOrder settings a)
    have hw : (s.afterOrder settings a s.account (s.account.startOrder settings a)).account = s.account := hs.account
    exact h.of_books (by rw [hw]; exact .refl _) hs.executions (.inl hnone)

private theorem Plain.latencyOver {settings : Settings} {s : ExecutionAgent} (h : s.Plain) {a : RiskAssessment ℚ}
    {refPrice : RefPrice} {choice : FillChoice} {w : PaperAccount} {task : BrokerTask}
    (hloop : s.loop = .placing a refPrice) (hfree : ShortFree s.account.broker choice s.loop)
    (hresume : s.account.resume (.sleeping a refPrice) (.latencyOver choice s.nextId) = some (w, task)) :
    (s.afterOrder settings a w task).Plain := by
  have hnone : s.loop.inHand = none := by rw [hloop]; rfl
  obtain ⟨hs, hinHand, -⟩ := afterOrder_frame settings s a w task
  have hw : (s.afterOrder settings a w task).account = w := hs.account
  have heffect := PaperAccount.resume_effect hresume
  rcases PaperAccount.resume_sleeping hresume with ⟨hsame, hresult⟩ | ⟨f, hfills, -, hresult, hkind⟩
  · have hbooks : PaperAccount.SameBooks s.account w := by
      cases heffect with
      | same hs => exact hs
      | opened position result hwf hflat hsymbol hside hqty hpnl hcash hpositions hfills =>
        rw [hsame] at hfills
        exact absurd (congrArg List.length hfills) (by simp)
      | closed position fill result hheld hside hqty hpnl hround hcash hpositions hfills =>
        rw [hsame] at hfills
        exact absurd (congrArg List.length hfills) (by simp)
    exact h.of_books (by rw [hw]; exact hbooks) hs.executions (.inl hnone)
  · refine h.filled (by rw [hw]; exact heffect) (by rw [hw]; exact hfills) hs.executions hnone
      (hinHand.trans hresult) fun hopen hsell => ?_
    rcases hkind with hclose | ⟨hflat, fill, hfill, hok, hposition⟩
    · rw [hopen] at hclose
      cases hclose
    · rw [hposition] at hsell ⊢
      rw [hloop] at hfree
      have hbelow := hfree hsell hflat
      rw [hfill] at hbelow
      exact openingFee_openedPosition hok hbelow

private theorem Plain.saved {s : ExecutionAgent} (h : s.Plain) {stage : SaveStage} {next : AfterSave} {ok : Bool}
    {w : PaperAccount} {task : BrokerTask} (hloop : s.loop = .saving stage next)
    (hresume : s.account.resume (.saving stage next) (.saved ok) = some (w, task)) : (s.afterSave w task).Plain := by
  obtain ⟨hbooks, htask⟩ := PaperAccount.resume_saving hresume
  obtain ⟨hs, -, -⟩ := afterSave_frame s w task
  have hw : (s.afterSave w task).account = w := hs.account
  refine h.of_books (by rw [hw]; exact hbooks) hs.executions (.inr ?_)
  rw [hloop]
  rcases htask with ⟨stage', rfl, -⟩ | ⟨rfl, -⟩ <;> rfl

private theorem Plain.published {settings : Settings} {s : ExecutionAgent} (h : s.Plain) {result : ExecutionResult}
    {fill ok : Bool} (hloop : s.loop = .publishing result fill) (hok : s.loop.inHand ≠ none → ok = true) :
    (s.afterPublish settings result fill ok).Plain := by
  rw [hloop] at hok
  unfold afterPublish
  cases fill with
  | true =>
    rw [hok (Option.some_ne_none result), if_pos rfl, if_pos rfl]
    exact h.same ⟨rfl, rfl, rfl, rfl, rfl⟩ (.inr (by rw [hloop]; rfl))
  | false =>
    rw [if_neg (by decide)]
    exact h.same ⟨rfl, rfl, rfl, rfl, rfl⟩ (.inl (by rw [hloop]; rfl))

private theorem contains_saveExecution (t : TradeRepository) (result : ExecutionResult) (timestamp : ℚ) {id : ℕ}
    (h : t.contains id = true ∨ id = result.resultId) :
    (t.saveExecution result timestamp).contains id = true := by
  unfold saveExecution
  split
  case isTrue hthere =>
    rcases h with h | rfl
    · exact h
    · exact hthere
  case isFalse =>
    refine Dict.contains_iff.2 (Dict.mem_keys_set.2 ?_)
    rcases h with h | h
    · exact .inr (Dict.contains_iff.1 h)
    · exact .inl h

private theorem Plain.persisted {s : ExecutionAgent} (h : s.Plain) {result : ExecutionResult}
    (hloop : s.loop = .persisting result) (timestamp : ℚ) :
    ({ s with
        executions := s.executions.saveExecution result timestamp
        loop := .idle
        consecutiveErrors := 0 } : ExecutionAgent).Plain := by
  refine ⟨fun f hf => .inl ?_, h.refund, h.free⟩
  refine contains_saveExecution s.executions result timestamp ?_
  refine (h.recorded f hf).imp_right fun hr => ?_
  rw [hloop] at hr
  exact congrArg ExecutionResult.resultId (Option.some.inj hr).symm

private theorem Plain.nextPosition {s : ExecutionAgent} (h : s.Plain) (rest : List BrokerPosition) :
    (s.nextPosition rest).Plain := by
  obtain ⟨hs, hloop, -⟩ := nextPosition_frame s rest
  exact h.same hs (.inr (by rw [hloop]))

/-- The close of a symbol that is flat does nothing. -/
private theorem Plain.notClosed {s : ExecutionAgent} (h : s.Plain) {symbol : String} {p : ℚ}
    (rest : List BrokerPosition) (hflat : s.account.broker.positions.get? symbol = none) :
    ((s.stamp (s.account.startClose symbol (some p) s.nextId s.nextId s.nextId).1).afterClose rest
      (s.account.startClose symbol (some p) s.nextId s.nextId s.nextId).2).Plain := by
  have hclose : s.account.broker.closePosition symbol (some p) s.nextId s.nextId s.nextId = none :=
    closePosition_eq_none_iff.2 hflat
  have hstart : s.account.startClose symbol (some p) s.nextId s.nextId s.nextId = (s.account, .done (.ok none)) := by
    rw [PaperAccount.startClose, hclose]
  have hstamp : (s.stamp s.account).Plain := h.of_books (.refl _) rfl (.inr rfl)
  rw [hstart]
  exact hstamp.nextPosition rest

private theorem Plain.monitorSaved {s : ExecutionAgent} (h : s.Plain) {stage : SaveStage} {next : AfterSave}
    {rest : List BrokerPosition} {ok : Bool} {w : PaperAccount} {task : BrokerTask}
    (hresume : s.account.resume (.saving stage next) (.saved ok) = some (w, task)) :
    (({ s with account := w } : ExecutionAgent).afterClose rest task).Plain := by
  obtain ⟨hs, hloop, -⟩ := afterClose_frame { s with account := w } rest task
  have hw : (({ s with account := w } : ExecutionAgent).afterClose rest task).account = w := hs.account
  refine h.of_books ?_ hs.executions (.inr (congrArg AuditedLoop.inHand hloop))
  rw [hw]
  exact (PaperAccount.resume_saving hresume).1

theorem Plain.step {settings : Settings} {s s' : ExecutionAgent} {e : AgentEvent} (h : s.Plain)
    (hC : s.Explained settings e) (hstep : s.step settings e = some s') : s'.Plain := by
  cases stepped_of_step hstep with
  | elapsed hd => exact h.of_books (.refl _) rfl (.inr rfl)
  | taken hloop => exact h.takeAssessment (by rw [hloop]; rfl) _
  | filled hloop hresume => exact h.latencyOver hloop hC hresume
  | saved hloop hresume => exact h.saved hloop hresume
  | published hloop => exact h.published hloop hC
  | persisted hloop => exact h.persisted hloop _
  | exited hloop hstopped => exact h.same ⟨rfl, rfl, rfl, rfl, rfl⟩ (.inl (by rw [hloop]; rfl))
  | scanned hmonitor => exact h.nextPosition _
  | kept hmonitor hprice => exact h.nextPosition _
  | @stoppedOut p pos rest hmonitor hbreached =>
    replace hC : Unbreached settings s.account.broker (some p) s.monitor := hC
    rw [hmonitor] at hC
    exact h.notClosed rest (hC p rfl hbreached)
  | monitorSaved hmonitor hresume => exact h.monitorSaved hresume
  | monitorPublished hmonitor => exact h.nextPosition _
  | linked => exact h.of_books ⟨rfl, rfl, rfl⟩ rfl (.inr rfl)
  | halted => exact h.same ⟨rfl, rfl, rfl, rfl, rfl⟩ (.inr rfl)

/-- On a plain day nothing is left over. -/
theorem Plain.left_over {s : ExecutionAgent} (h : s.Plain) (hloop : s.loop.inHand = none) :
    s.unsaved = 0 ∧ s.refunded = 0 := by
  have hall : ∀ f ∈ s.account.fills, s.Recorded f := by
    intro f hf
    rcases h.recorded f hf with hrecorded | hr
    · exact hrecorded
    · exact absurd (hr.symm.trans hloop) (Option.some_ne_none _)
  constructor
  · have hnone : (s.account.fills.filter fun f => ¬s.Recorded f) = [] :=
      List.filter_eq_nil_iff.2 fun f hf hnot => of_decide_eq_true hnot (hall f hf)
    rw [unsaved, hnone]
    rfl
  · refine List.sum_eq_zero fun x hx => ?_
    obtain ⟨f, hf, rfl⟩ := List.mem_map.1 hx
    exact h.refund f hf

end ExecutionAgent

open ExecutionAgent

/-- The daily profit explains the change of the cash exactly if the opening fees given back and the fills without a row
cancel, as they do in every run without either. -/
theorem daily_pnl_explains_cash_iff {settings : Settings} {cash start : ℚ} {connected : Bool} {es : List AgentEvent}
    {s : ExecutionAgent} (h : exec (ExecutionAgent.step settings) (.init cash start connected) es = some s)
    (hday : utcDate s.now = utcDate start) (hflat : s.account.broker.positions = .empty) :
    (s.executions.getDailyPnl (utcDate start) = s.account.broker.cashBalance - cash ↔ s.unsaved + s.refunded = 0) ∧
      (s.loop.inHand = none →
        Along (ExecutionAgent.step settings) (Explained settings) (.init cash start connected) es →
          s.executions.getDailyPnl (utcDate start) = s.account.broker.cashBalance - cash) := by
  have haudited : s.Audited start cash :=
    exec_invariant (Audited start cash) (fun _ _ _ hs hstep => hs.step hstep) (audited_init cash start connected) h
  have hsum := haudited.getDailyPnl_add hday hflat
  have hiff : s.executions.getDailyPnl (utcDate start) = s.account.broker.cashBalance - cash ↔
      s.unsaved + s.refunded = 0 := by
    rw [← hsum, add_assoc, left_eq_add]
  refine ⟨hiff, fun hloop hC => hiff.2 ?_⟩
  have hplain : s.Plain :=
    exec_invariant_along Plain (fun _ _ _ hs hC hstep => hs.step hC hstep) (plain_init cash start connected) hC h
  rw [(hplain.left_over hloop).1, (hplain.left_over hloop).2, add_zero]

/-- An order of two hundred dollars that fills in full, is published and has its row written. -/
def filledOrder (proposalId : ℕ) (side : OrderSide) (price : ℚ) : List AgentEvent :=
  [.take (plainOrder proposalId "BTC/USDT" side 200 two_hundred_pos price), .latencyOver .full, .publish true,
    .persisted]

/-- The table's profit of the first day, the change of ten thousand dollars of cash, and whether a position is open. -/
def dayEnd (s : ExecutionAgent) : ℚ × ℚ × Bool :=
  (s.executions.getDailyPnl (utcDate 0), s.account.broker.cashBalance - 10000, s.account.broker.positions ≠ .empty)

theorem daily_pnl_explains_cash_long : ∃ s, exec (ExecutionAgent.step defaultSettings) (.init 10000 0 false)
    (filledOrder 1 .buy 100 ++ filledOrder 2 .sell 110) = some s ∧ s.account.fills.length = 2 ∧
      s.executions.getDailyPnl (utcDate 0) = s.account.broker.cashBalance - 10000 := by
  have hrun : ((exec (ExecutionAgent.step defaultSettings) (.init 10000 0 false)
      (filledOrder 1 .buy 100 ++ filledOrder 2 .sell 110)).map fun s => decide (s.account.fills.length = 2 ∧
        utcDate s.now = utcDate 0 ∧ s.account.broker.positions = .empty ∧ s.loop.inHand = none)) = some true := by
    decide +kernel
  obtain ⟨s, hs, hfacts⟩ := Option.map_eq_some_iff.1 hrun
  obtain ⟨hlength, hday, hflat, hloop⟩ := of_decide_eq_true hfacts
  exact ⟨s, hs, hlength, (daily_pnl_explains_cash_iff hs hday hflat).2 hloop (by decide +kernel)⟩

/-- A short of two hundred dollars, closed by an opposite order, leaves its opening fee of nineteen cents unexplained;
of a long that the monitor closes the table has only the opening. -/
theorem daily_pnl_unexplained :
    ((exec (ExecutionAgent.step defaultSettings) (.init 10000 0 false)
        (filledOrder 1 .sell 100 ++ filledOrder 2 .buy 110)).map dayEnd =
          some (-8252044021 / 400000000, -8176044021 / 400000000, false) ∧
      (-8252044021 / 400000000 : ℚ) ≠ -8176044021 / 400000000) ∧
    (exec (ExecutionAgent.step defaultSettings) (.init 10000 0 false)
        (filledOrder 1 .buy 100 ++ [.monitorScan, .monitorPrice (some 50), .monitorPublish true])).map dayEnd =
          some (-400379998049 / 2000000000, -401519798147 / 4000000000, false) ∧
      (-400379998049 / 2000000000 : ℚ) ≠ -401519798147 / 4000000000 := by
  decide +kernel

end MultiAgentTrading
