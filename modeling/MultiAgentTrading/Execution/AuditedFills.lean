import MultiAgentTrading.Execution.AuditTrail
import MultiAgentTrading.Execution.BrokerRuns

/-!
# Fills, rows and cash

What a fill writes into the table and what it moves in the broker's cash agree on a long.  A short is credited in the
table when it opens and charged in the cash, and closing it gives back its opening fee with its cost: `Balanced` keeps
account of both, for any interleaving.  `Audited` adds that the rows are those of fills.
-/

namespace MultiAgentTrading

open PaperBroker Runs TradeRepository

/-! ### What a fill writes and moves -/

/-- What a row adds to the daily profit. -/
def rowValue (row : ExecutionRow) : ℚ := signedCost row - row.feeUsd.getD 0

/-- What the row of a result adds, whenever it was created. -/
def resultValue (result : ExecutionResult) : ℚ := rowValue (executionRow result 0)

/-- The amounts of a result. -/
structure BookedAs (result : ExecutionResult) (id : ℕ) (side : OrderSide) (notional fee : ℚ) : Prop where
  resultId : result.resultId = id
  status : result.status = .filled ∨ result.status = .partiallyFilled
  side : result.side = side
  totalCostUsd : result.totalCostUsd = some notional
  feeUsd : result.feeUsd = some fee

theorem BookedAs.value_sell {result : ExecutionResult} {id : ℕ} {notional fee : ℚ}
    (h : BookedAs result id .sell notional fee) : resultValue result = notional - fee := by
  simp only [resultValue, rowValue, signedCost, executionRow, h.side, h.totalCostUsd, h.feeUsd, Option.getD_some]

theorem BookedAs.value_buy {result : ExecutionResult} {id : ℕ} {notional fee : ℚ}
    (h : BookedAs result id .buy notional fee) : resultValue result = -notional - fee := by
  simp only [resultValue, rowValue, signedCost, executionRow, h.side, h.totalCostUsd, h.feeUsd, Option.getD_some]

namespace PaperPosition

def notional (pos : PaperPosition) : ℚ := pos.quantity * pos.entryPrice

/-- The fee in the cost of a position. -/
def openingFee (pos : PaperPosition) : ℚ := pos.costUsd - pos.notional

/-- What the table is ahead of the cash while a short is open: it has credited the notional, the cash has paid it. -/
def ahead (pos : PaperPosition) : ℚ := if pos.side = .sell then 2 * pos.notional else 0

end PaperPosition

namespace FillEvent

/-- The result of a fill has the amounts by which it changed the books. -/
def Booked (id : ℕ) : FillEvent → Prop
  | .opened position result => BookedAs result id position.side position.notional position.openingFee
  | .closed position fill result =>
    (∃ refPrice, fill = closingFill position refPrice) ∧ BookedAs result id position.side.opp fill.notional fill.fee

/-- The opening fee that the close of a short gives back. -/
def refund : FillEvent → ℚ
  | .opened _ _ => 0
  | .closed position _ _ => if position.side = .sell then position.openingFee else 0

def value (f : FillEvent) : ℚ := resultValue f.result

theorem Booked.resultId {id : ℕ} {f : FillEvent} (h : f.Booked id) : f.result.resultId = id := by
  cases f with
  | opened position result => exact BookedAs.resultId h
  | closed position fill result => exact h.2.resultId

theorem Booked.status {id : ℕ} {f : FillEvent} (h : f.Booked id) :
    f.result.status = .filled ∨ f.result.status = .partiallyFilled := by
  cases f with
  | opened position result => exact BookedAs.status h
  | closed position fill result => exact h.2.status

end FillEvent

open FillEvent

theorem closeAt_booked {b : PaperBroker} {symbol : String} {refPrice : ℚ} {proposalId assessmentId resultId : ℕ}
    {c : Closed} (h : b.closeAt symbol refPrice proposalId assessmentId resultId = some c) :
    Booked resultId (.closed c.position c.fill c.result) := by
  unfold closeAt at h
  cases hp : b.positions.get? symbol with
  | none => simp [hp] at h
  | some pos =>
    rw [hp] at h
    cases h
    exact ⟨⟨refPrice, rfl⟩, rfl, .inl rfl, closingFill_side pos refPrice, rfl, rfl⟩

theorem openedResult_booked {a : RiskAssessment ℚ} {refPrice : ℚ} {fill : OpeningFill} (h : FillOk a refPrice fill)
    (resultId : ℕ) : Booked resultId (.opened (openedPosition a fill) (openedResult a fill resultId)) := by
  have hnotional : (openedPosition a fill).notional = fill.notional := h.notional_eq.symm
  have hfee : (openedPosition a fill).openingFee = fill.fee := by
    rw [PaperPosition.openingFee, hnotional, openedPosition, h.totalCost_eq, add_sub_cancel_left]
  exact ⟨rfl, h.status, rfl, by rw [hnotional]; rfl, by rw [hfee]; rfl⟩

/-- A long returns its notional less the fee. -/
theorem closingFill_long {pos : PaperPosition} (hside : pos.side = .buy) (refPrice : ℚ) :
    (closingFill pos refPrice).cashReturned =
      (closingFill pos refPrice).notional - (closingFill pos refPrice).fee := by
  unfold closingFill
  rw [hside]

/-- A short returns its notional and its opening fee, and what the price has moved, less the fee. -/
theorem closingFill_short {pos : PaperPosition} (hside : pos.side = .sell) (refPrice : ℚ) :
    (closingFill pos refPrice).cashReturned = 2 * pos.notional + pos.openingFee -
      (closingFill pos refPrice).notional - (closingFill pos refPrice).fee := by
  unfold closingFill PaperPosition.openingFee PaperPosition.notional
  rw [hside]
  ring

namespace PaperAccount

/-! ### The books -/

/-- What the results say, against the cash, the open shorts and the opening fees given back. -/
def Balanced (cash : ℚ) (w : PaperAccount) : Prop :=
  (w.fills.map FillEvent.value).sum =
    w.broker.cashBalance - cash + w.broker.positions.total PaperPosition.ahead - (w.fills.map refund).sum

/-- One more fill, with the amounts by which it changed the books. -/
def Books (w w' : PaperAccount) (id : ℕ) : Prop := ∃ f : FillEvent, w'.fills = w.fills ++ [f] ∧ f.Booked id

private theorem booked_of_books {w w' : PaperAccount} {f : FillEvent} {id : ℕ} (hfills : w'.fills = w.fills ++ [f])
    (h : w'.fills = w.fills ∨ Books w w' id) : f.Booked id := by
  rcases h with h | ⟨g, hg, hbooked⟩
  · rw [hfills] at h
    exact absurd (congrArg List.length h) (by simp)
  · rw [hfills] at hg
    obtain rfl : f = g := List.singleton_inj.1 (List.append_cancel_left hg)
    exact hbooked

theorem Balanced.effect {cash : ℚ} {w w' : PaperAccount} {id : ℕ} (h : Balanced cash w) (he : Effect w w')
    (hbooks : w'.fills = w.fills ∨ Books w w' id) : Balanced cash w' := by
  unfold Balanced at *
  cases he with
  | same hs => rw [hs.fills, hs.cash, hs.positions, h]
  | opened position result hwf hflat hsymbol hside hqty hpnl hcash hpositions hfills =>
    have hbooked : BookedAs result id position.side position.notional position.openingFee :=
      booked_of_books hfills hbooks
    have hvalue : resultValue result = position.ahead - position.costUsd := by
      unfold PaperPosition.ahead
      cases hpos : position.side with
      | buy =>
        rw [hpos] at hbooked
        rw [hbooked.value_buy, if_neg (by decide), PaperPosition.openingFee]
        ring
      | sell =>
        rw [hpos] at hbooked
        rw [hbooked.value_sell, if_pos rfl, PaperPosition.openingFee]
        ring
    rw [hfills, hcash, hpositions, Dict.total_set_of_none hflat, List.map_append, List.sum_append, List.map_append,
      List.sum_append, h]
    simp only [List.map_cons, List.map_nil, List.sum_cons, List.sum_nil, FillEvent.value, FillEvent.result, refund,
      hvalue]
    ring
  | closed position fill result hheld hside hqty hpnl hround hcash hpositions hfills =>
    obtain ⟨⟨refPrice, hfill⟩, hbooked⟩ : Booked id (.closed position fill result) := booked_of_books hfills hbooks
    have hvalue : resultValue result = fill.cashReturned - position.ahead -
        if position.side = .sell then position.openingFee else 0 := by
      unfold PaperPosition.ahead
      cases hpos : position.side with
      | buy =>
        rw [hpos] at hbooked
        rw [hbooked.value_sell, hfill, closingFill_long hpos, if_neg (by decide), if_neg (by decide)]
        ring
      | sell =>
        rw [hpos] at hbooked
        rw [hbooked.value_buy, hfill, closingFill_short hpos, if_pos rfl, if_pos rfl]
        ring
    rw [hfills, hcash, hpositions, Dict.total_erase_of_some hheld, List.map_append, List.sum_append, List.map_append,
      List.sum_append, h]
    simp only [List.map_cons, List.map_nil, List.sum_cons, List.sum_nil, FillEvent.value, FillEvent.result, refund,
      hvalue]
    ring

/-! ### Calls -/

private theorem result?_startSave (w : PaperAccount) (next : AfterSave) :
    (w.startSave next).2.result? = some next.result := by
  rcases startSave_cases w next with ⟨stage, hsaving⟩ | hfinish
  · rw [hsaving]
    rfl
  · rw [hfinish, (finish_spec w next).1]
    rfl

/-- An order that wakes from its sleep fails and leaves the account, or has one fill, which the call has in hand.  An
opening fill is that of the order on a flat symbol. -/
theorem resume_sleeping {w w' : PaperAccount} {a : RiskAssessment ℚ} {refPrice : RefPrice} {choice : FillChoice}
    {id : ℕ} {task' : BrokerTask} (h : w.resume (.sleeping a refPrice) (.latencyOver choice id) = some (w', task')) :
    w'.fills = w.fills ∧ task'.result? = none ∨
      ∃ f : FillEvent, w'.fills = w.fills ++ [f] ∧ f.Booked id ∧ task'.result? = some f.result ∧
        (f.isClose = true ∨ w.broker.positions.get? a.originalProposal.symbol = none ∧
          ∃ fill, openingFill a refPrice choice = .ok fill ∧ FillOk a refPrice fill ∧
            f.position = openedPosition a fill) := by
  simp only [resume] at h
  split at h
  case h_1 err hf =>
    cases h
    exact .inl ⟨rfl, rfl⟩
  case h_2 broker position result hf =>
    obtain rfl : _ = task' := congrArg Prod.snd (Option.some.inj h)
    obtain rfl : _ = w' := congrArg Prod.fst (Option.some.inj h)
    rcases fillOrder_cases hf with ⟨c, hc, -⟩ | ⟨fill, hflat, hfill, -, hopened⟩
    · cases hc
    · cases hopened
      have hok := openingFill_spec refPrice.2 hfill
      exact .inr ⟨.opened (openedPosition a fill) (openedResult a fill id), (sameBooks_startSave _ _).fills,
        openedResult_booked hok id, result?_startSave _ _, .inr ⟨hflat, fill, hfill, hok, rfl⟩⟩
  case h_3 c hf =>
    obtain rfl : _ = task' := congrArg Prod.snd (Option.some.inj h)
    obtain rfl : _ = w' := congrArg Prod.fst (Option.some.inj h)
    exact .inr ⟨.closed c.position c.fill c.result, (sameBooks_startSave _ _).fills,
      closeAt_booked (fillOrder_closed hf), result?_startSave _ _, .inl rfl⟩

theorem startClose_books (w : PaperAccount) (symbol : String) (price : Option ℚ) (proposalId assessmentId id : ℕ) :
    (w.startClose symbol price proposalId assessmentId id).1.fills = w.fills ∨
      Books w (w.startClose symbol price proposalId assessmentId id).1 id := by
  unfold startClose
  cases hc : w.broker.closePosition symbol price proposalId assessmentId id with
  | none => exact .inl rfl
  | some c =>
    obtain ⟨refPrice, hclose⟩ := closePosition_closeAt hc
    exact .inr ⟨.closed c.position c.fill c.result, (sameBooks_startSave _ _).fills, closeAt_booked hclose⟩

end PaperAccount

/-! ### The agent -/

namespace AuditedLoop

/-- The fill that the run loop has in hand. -/
def inHand : AuditedLoop → Option ExecutionResult
  | .saving _ next => some next.result
  | .publishing result true => some result
  | .persisting result => some result
  | _ => none

end AuditedLoop

namespace MonitorPhase

/-- The fill that the monitor has in hand. -/
def inHand : MonitorPhase → Option ExecutionResult
  | .saving _ next _ => some next.result
  | .publishing result _ => some result
  | _ => none

end MonitorPhase

namespace ExecutionAgent

def InHand (s : ExecutionAgent) (result : ExecutionResult) : Prop :=
  s.loop.inHand = some result ∨ s.monitor.inHand = some result

/-- The fills have distinct results, created since `start`, and the rows are those of fills. -/
structure Audited (start cash : ℚ) (s : ExecutionAgent) : Prop where
  start_le : start ≤ s.now
  cache : s.account.CacheReported
  inHand : ∀ result, s.InHand result → s.account.Reported result
  booked : ∀ f ∈ s.account.fills, f.Booked f.result.resultId
  distinct : (s.account.fills.map fun f => f.result.resultId).Nodup
  fresh : ∀ f ∈ s.account.fills, f.result.resultId < s.nextId
  stamped : ∀ f ∈ s.account.fills, ∃ t, s.timestamps.get? f.result.resultId = some t ∧ start ≤ t ∧ t ≤ s.now
  rows : ∀ id row, s.executions.get? id = some row → ∃ f ∈ s.account.fills, f.result.resultId = id ∧
    row = executionRow f.result ((s.timestamps.get? id).getD 0)
  balanced : s.account.Balanced cash

theorem audited_init (cash now : ℚ) (connected : Bool) : (init cash now connected).Audited now cash where
  start_le := le_rfl
  cache proposalId result hget := by
    replace hget : Dict.empty.get? proposalId = some result := hget
    cases hget
  inHand result hr := by
    replace hr : none = some result ∨ none = some result := hr
    rcases hr with hr | hr <;> cases hr
  booked f hf := absurd hf List.not_mem_nil
  distinct := List.nodup_nil
  fresh f hf := absurd hf List.not_mem_nil
  stamped f hf := absurd hf List.not_mem_nil
  rows id row hget := by
    replace hget : Dict.empty.get? id = some row := hget
    cases hget
  balanced := by
    show (0 : ℚ) = cash - cash + 0 - 0
    rw [sub_self, add_zero, sub_zero]

/-- What a step does to the account that creates at most one fill, and to no row. -/
structure Advances (s s' : ExecutionAgent) : Prop where
  effect : PaperAccount.Effect s.account s'.account
  books : s'.account.fills = s.account.fills ∨
    PaperAccount.Books s.account s'.account s.nextId ∧ s'.timestamps.get? s.nextId = some s.now ∧ s.nextId < s'.nextId
  timestamps : ∀ id, id < s.nextId → s'.timestamps.get? id = s.timestamps.get? id
  nextId_le : s.nextId ≤ s'.nextId
  now_le : s.now ≤ s'.now
  executions : s'.executions = s.executions

theorem Advances.of_account {s s' : ExecutionAgent} (heffect : PaperAccount.Effect s.account s'.account)
    (hfills : s'.account.fills = s.account.fills) (htimestamps : s'.timestamps = s.timestamps)
    (hnextId : s'.nextId = s.nextId) (hnow : s.now ≤ s'.now) (hexecutions : s'.executions = s.executions) :
    Advances s s' :=
  ⟨heffect, .inl hfills, fun _ _ => by rw [htimestamps], hnextId.ge, hnow, hexecutions⟩

theorem Audited.advance {start cash : ℚ} {s s' : ExecutionAgent} (h : s.Audited start cash) (ha : Advances s s')
    (hcache : s'.account.CacheReported)
    (hinHand : ∀ result, s'.InHand result → s'.account.Reported result) : s'.Audited start cash := by
  have hold : ∀ f ∈ s.account.fills, f.result.resultId < s'.nextId ∧ ∃ t,
      s'.timestamps.get? f.result.resultId = some t ∧ start ≤ t ∧ t ≤ s'.now := by
    intro f hf
    have hlt := h.fresh f hf
    obtain ⟨t, hget, hle, hle'⟩ := h.stamped f hf
    exact ⟨hlt.trans_le ha.nextId_le, t, (ha.timestamps _ hlt).trans hget, hle, hle'.trans ha.now_le⟩
  have hrows : ∀ id row, s'.executions.get? id = some row → ∃ f ∈ s.account.fills, f.result.resultId = id ∧
      row = executionRow f.result ((s'.timestamps.get? id).getD 0) := by
    intro id row hget
    rw [ha.executions] at hget
    obtain ⟨f, hf, rfl, hrow⟩ := h.rows id row hget
    exact ⟨f, hf, rfl, by rw [ha.timestamps _ (h.fresh f hf)]; exact hrow⟩
  have hbalanced : s'.account.Balanced cash :=
    h.balanced.effect ha.effect (ha.books.imp_right And.left)
  rcases ha.books with hsame | ⟨⟨f, hfills, hbooked⟩, htime, hlt⟩
  · refine ⟨h.start_le.trans ha.now_le, hcache, hinHand, ?_, ?_, ?_, ?_, ?_, hbalanced⟩ <;> rw [hsame]
    · exact h.booked
    · exact h.distinct
    · exact fun f hf => (hold f hf).1
    · exact fun f hf => (hold f hf).2
    · exact hrows
  · have hid := hbooked.resultId
    have hall : ∀ {P : FillEvent → Prop}, (∀ g ∈ s.account.fills, P g) → P f → ∀ g ∈ s'.account.fills, P g := by
      intro P hP hf g hg
      rw [hfills] at hg
      rcases List.mem_append.1 hg with hg | hg
      · exact hP g hg
      · rw [List.mem_singleton.1 hg]
        exact hf
    refine ⟨h.start_le.trans ha.now_le, hcache, hinHand, hall h.booked (hid.symm ▸ hbooked), ?_,
      hall (fun g hg => (hold g hg).1) (hid.trans_lt hlt), hall (fun g hg => (hold g hg).2) ?_, ?_, hbalanced⟩
    · rw [hfills, List.map_append]
      refine h.distinct.append (List.nodup_singleton _) ?_
      intro id hmem hnew
      obtain ⟨g, hg, rfl⟩ := List.mem_map.1 hmem
      have hlast : g.result.resultId = s.nextId := (List.mem_singleton.1 hnew).trans hid
      exact absurd hlast (h.fresh g hg).ne
    · exact ⟨s.now, by rw [hid]; exact htime, h.start_le, ha.now_le⟩
    · intro id row hget
      obtain ⟨g, hg, hrest⟩ := hrows id row hget
      exact ⟨g, by rw [hfills]; exact List.mem_append_left _ hg, hrest⟩

/-- What a step leaves that only moves the loop or the monitor on. -/
structure SameTrail (s s' : ExecutionAgent) : Prop where
  account : s'.account = s.account
  executions : s'.executions = s.executions
  timestamps : s'.timestamps = s.timestamps
  nextId : s'.nextId = s.nextId
  now : s'.now = s.now

theorem SameTrail.advances {s s' : ExecutionAgent} (h : SameTrail s s') : Advances s s' :=
  .of_account (.same (by rw [h.account]; exact .refl _)) (by rw [h.account]) h.timestamps h.nextId h.now.ge h.executions

theorem Audited.same {start cash : ℚ} {s s' : ExecutionAgent} (h : s.Audited start cash) (hs : SameTrail s s')
    (hinHand : ∀ result, s'.InHand result → s.InHand result) : s'.Audited start cash := by
  refine h.advance hs.advances ?_ fun result hr => ?_ <;> rw [hs.account]
  · exact h.cache
  · exact h.inHand result (hinHand result hr)

/-- After a piece of `place_order`, the loop has in hand what the call has. -/
theorem afterOrder_frame (settings : Settings) (s : ExecutionAgent) (a : RiskAssessment ℚ) (w : PaperAccount)
    (task : BrokerTask) :
    SameTrail (s.stamp w) (s.afterOrder settings a w task) ∧
      (s.afterOrder settings a w task).loop.inHand = task.result? ∧
      (s.afterOrder settings a w task).monitor = s.monitor := by
  cases task with
  | sleeping a' refPrice => exact ⟨⟨rfl, rfl, rfl, rfl, rfl⟩, rfl, rfl⟩
  | saving stage next => exact ⟨⟨rfl, rfl, rfl, rfl, rfl⟩, rfl, rfl⟩
  | done outcome =>
    cases outcome with
    | error err => exact ⟨⟨rfl, rfl, rfl, rfl, rfl⟩, rfl, rfl⟩
    | ok reply => cases reply <;> exact ⟨⟨rfl, rfl, rfl, rfl, rfl⟩, rfl, rfl⟩

theorem afterSave_frame (s : ExecutionAgent) (w : PaperAccount) (task : BrokerTask) :
    SameTrail { s with account := w } (s.afterSave w task) ∧
      (∀ result, (s.afterSave w task).loop.inHand = some result → task.result? = some result) ∧
      (s.afterSave w task).monitor = s.monitor := by
  cases task with
  | sleeping a' refPrice => exact ⟨⟨rfl, rfl, rfl, rfl, rfl⟩, fun _ hr => hr, rfl⟩
  | saving stage next => exact ⟨⟨rfl, rfl, rfl, rfl, rfl⟩, fun _ hr => hr, rfl⟩
  | done outcome =>
    cases outcome with
    | error err => exact ⟨⟨rfl, rfl, rfl, rfl, rfl⟩, fun _ hr => hr, rfl⟩
    | ok reply => cases reply <;> exact ⟨⟨rfl, rfl, rfl, rfl, rfl⟩, fun _ hr => hr, rfl⟩

theorem nextPosition_frame (s : ExecutionAgent) (rest : List BrokerPosition) :
    SameTrail s (s.nextPosition rest) ∧ (s.nextPosition rest).loop = s.loop ∧
      (s.nextPosition rest).monitor.inHand = none := by
  cases rest with
  | nil =>
    refine ⟨⟨rfl, rfl, rfl, rfl, rfl⟩, rfl, ?_⟩
    unfold nextPosition
    dsimp only
    split_ifs <;> rfl
  | cons pos rest => exact ⟨⟨rfl, rfl, rfl, rfl, rfl⟩, rfl, rfl⟩

/-- After a piece of `close_position`, the monitor has in hand at most what the call has. -/
theorem afterClose_frame (s : ExecutionAgent) (rest : List BrokerPosition) (task : BrokerTask) :
    SameTrail s (s.afterClose rest task) ∧ (s.afterClose rest task).loop = s.loop ∧
      ∀ result, (s.afterClose rest task).monitor.inHand = some result → task.result? = some result := by
  have hnext : SameTrail s (s.nextPosition rest) ∧ (s.nextPosition rest).loop = s.loop ∧
      ∀ result, (s.nextPosition rest).monitor.inHand = some result → task.result? = some result := by
    obtain ⟨hs, hloop, hnone⟩ := nextPosition_frame s rest
    exact ⟨hs, hloop, fun result hr => absurd (hnone.symm.trans hr) (Option.some_ne_none result).symm⟩
  cases task with
  | sleeping a' refPrice => exact hnext
  | saving stage next => exact ⟨⟨rfl, rfl, rfl, rfl, rfl⟩, rfl, fun _ hr => hr⟩
  | done outcome =>
    cases outcome with
    | error err => exact hnext
    | ok reply =>
      cases reply with
      | none => exact hnext
      | some result => exact ⟨⟨rfl, rfl, rfl, rfl, rfl⟩, rfl, fun _ hr => hr⟩

/-- A piece of a call that may have created a result has been run. -/
private theorem advances_stamp {s : ExecutionAgent} {w : PaperAccount} (heffect : PaperAccount.Effect s.account w)
    (hbooks : w.fills = s.account.fills ∨ PaperAccount.Books s.account w s.nextId) : Advances s (s.stamp w) where
  effect := heffect
  books := hbooks.imp_right fun hb => ⟨hb, Dict.get?_set_self _ _ _, Nat.lt_succ_self _⟩
  timestamps _ hid := Dict.get?_set_of_ne hid.ne _ _
  nextId_le := Nat.le_succ _
  now_le := le_rfl
  executions := rfl

private theorem reported_mono {w w' : PaperAccount} {result : ExecutionResult} (h : w.Reported result)
    (he : PaperAccount.Effect w w') : w'.Reported result := by
  obtain ⟨f, hmem, hf⟩ := h
  exact ⟨f, he.fills_extend.subset hmem, hf⟩

/-- A step that runs a piece of a call, and then moves the loop or the monitor on. -/
private theorem Audited.stamped_step {start cash : ℚ} {s s' : ExecutionAgent} {w : PaperAccount}
    (h : s.Audited start cash) (heffect : PaperAccount.Effect s.account w)
    (hbooks : w.fills = s.account.fills ∨ PaperAccount.Books s.account w s.nextId) (hs : SameTrail (s.stamp w) s')
    (hcache : w.CacheReported) (hinHand : ∀ result, s'.InHand result → w.Reported result) :
    s'.Audited start cash := by
  have hstamp := advances_stamp heffect hbooks
  have hw : s'.account = w := hs.account
  refine h.advance ⟨?_, ?_, ?_, ?_, ?_, ?_⟩ (hw ▸ hcache) (hw ▸ hinHand)
  · rw [hw]
    exact heffect
  · rw [hw, hs.timestamps, hs.nextId]
    exact hstamp.books
  · rw [hs.timestamps]
    exact hstamp.timestamps
  · exact hstamp.nextId_le.trans hs.nextId.ge
  · exact hs.now.ge
  · exact hs.executions

/-- A step that resumes the save of a call. -/
private theorem Audited.saving_step {start cash : ℚ} {s s' : ExecutionAgent} {w : PaperAccount}
    (h : s.Audited start cash) (hbooks : PaperAccount.SameBooks s.account w)
    (hs : SameTrail { s with account := w } s') (hcache : w.CacheReported)
    (hinHand : ∀ result, s'.InHand result → w.Reported result) : s'.Audited start cash := by
  have hw : s'.account = w := hs.account
  refine h.advance (.of_account ?_ ?_ hs.timestamps hs.nextId hs.now.ge hs.executions) (hw ▸ hcache) (hw ▸ hinHand)
  · rw [hw]
    exact .same hbooks
  · rw [hw]
    exact hbooks.fills

/-- The loop has nothing in hand, and the monitor has ended. -/
private theorem inHand_ended {s : ExecutionAgent} (hloop : s.loop.inHand = none) (hmonitor : s.monitor = .ended)
    (result : ExecutionResult) : ¬s.InHand result := by
  rintro (hr | hr)
  · exact Option.some_ne_none result (hr.symm.trans hloop)
  · rw [hmonitor] at hr
    exact Option.some_ne_none result hr.symm

/-- The loop has nothing in hand, and the monitor goes on. -/
private theorem inHand_of_loop {s s' : ExecutionAgent} {result : ExecutionResult} (hr : s'.InHand result)
    (hloop : s'.loop.inHand = none) (hmonitor : s'.monitor = s.monitor) : s.InHand result := by
  rcases hr with hr | hr
  · exact absurd (hr.symm.trans hloop) (Option.some_ne_none result)
  · exact .inr (hmonitor ▸ hr)

theorem Audited.takeAssessment {start cash : ℚ} {settings : Settings} {s : ExecutionAgent} (h : s.Audited start cash)
    (a : RiskAssessment ℚ) : (s.takeAssessment settings a).Audited start cash := by
  unfold ExecutionAgent.takeAssessment
  split_ifs
  · exact h.same ⟨rfl, rfl, rfl, rfl, rfl⟩ fun result hr => absurd hr (inHand_ended rfl rfl result)
  · exact h
  · exact h.same ⟨rfl, rfl, rfl, rfl, rfl⟩ fun _ hr => hr
  · obtain ⟨hs, hloop, hmonitor⟩ := afterOrder_frame settings s a s.account (s.account.startOrder settings a)
    refine h.stamped_step (.same (.refl _)) (.inl rfl) hs h.cache fun result hr => ?_
    rcases hr with hr | hr
    · exact PaperAccount.startOrder_reported h.cache settings a result (hloop ▸ hr)
    · exact h.inHand result (.inr (hmonitor ▸ hr))

private theorem Audited.latencyOver {start cash : ℚ} {settings : Settings} {s : ExecutionAgent}
    (h : s.Audited start cash) {a : RiskAssessment ℚ} {refPrice : RefPrice} {choice : FillChoice} {w : PaperAccount}
    {task : BrokerTask}
    (hresume : s.account.resume (.sleeping a refPrice) (.latencyOver choice s.nextId) = some (w, task)) :
    (s.afterOrder settings a w task).Audited start cash := by
  have heffect := PaperAccount.resume_effect hresume
  have hasleep : ∀ result, (BrokerTask.sleeping a refPrice).result? = some result → s.account.Reported result :=
    fun result hr => absurd hr (Option.some_ne_none result).symm
  obtain ⟨hs, hloop, hmonitor⟩ := afterOrder_frame settings s a w task
  obtain ⟨hcache, hreported⟩ := PaperAccount.resume_reported hresume h.cache hasleep
  refine h.stamped_step heffect ?_ hs hcache fun result hr => ?_
  · rcases PaperAccount.resume_sleeping hresume with ⟨hsame, -⟩ | ⟨f, hfills, hbooked, -⟩
    · exact .inl hsame
    · exact .inr ⟨f, hfills, hbooked⟩
  · rcases hr with hr | hr
    · exact hreported result (hloop ▸ hr)
    · exact reported_mono (h.inHand result (.inr (hmonitor ▸ hr))) heffect

private theorem Audited.saved {start cash : ℚ} {s : ExecutionAgent} (h : s.Audited start cash) {stage : SaveStage}
    {next : AfterSave} {ok : Bool} {w : PaperAccount} {task : BrokerTask} (hloop : s.loop = .saving stage next)
    (hresume : s.account.resume (.saving stage next) (.saved ok) = some (w, task)) :
    (s.afterSave w task).Audited start cash := by
  have hpending : ∀ result, (BrokerTask.saving stage next).result? = some result → s.account.Reported result :=
    fun result hr => h.inHand result (.inl (by rw [hloop]; exact hr))
  obtain ⟨hs, hinHand, hmonitor⟩ := afterSave_frame s w task
  obtain ⟨hcache, hreported⟩ := PaperAccount.resume_reported hresume h.cache hpending
  refine h.saving_step (PaperAccount.resume_saving hresume).1 hs hcache fun result hr => ?_
  rcases hr with hr | hr
  · exact hreported result (hinHand result hr)
  · exact reported_mono (h.inHand result (.inr (hmonitor ▸ hr))) (PaperAccount.resume_effect hresume)

private theorem Audited.published {start cash : ℚ} {settings : Settings} {s : ExecutionAgent} (h : s.Audited start cash)
    {result : ExecutionResult} {fill : Bool} (hloop : s.loop = .publishing result fill) (ok : Bool) :
    (s.afterPublish settings result fill ok).Audited start cash := by
  unfold afterPublish
  split_ifs with hfill hok
  · refine h.same ⟨rfl, rfl, rfl, rfl, rfl⟩ fun r hr => ?_
    rcases hr with hr | hr
    · exact .inl (by rw [hloop, hfill]; exact hr)
    · exact .inr hr
  · exact h.same ⟨rfl, rfl, rfl, rfl, rfl⟩ fun r hr => inHand_of_loop hr rfl rfl
  · exact h.same ⟨rfl, rfl, rfl, rfl, rfl⟩ fun r hr => inHand_of_loop hr rfl rfl

/-- The row of the fill in hand is written, unless it is there. -/
private theorem Audited.persisted {start cash : ℚ} {s : ExecutionAgent} (h : s.Audited start cash)
    {result : ExecutionResult} (hloop : s.loop = .persisting result) :
    ({ s with
        executions := s.executions.saveExecution result ((s.timestamps.get? result.resultId).getD 0)
        loop := .idle
        consecutiveErrors := 0 } : ExecutionAgent).Audited start cash := by
  obtain ⟨f, hf, hresult⟩ := h.inHand result (.inl (by rw [hloop]; rfl))
  refine ⟨h.start_le, h.cache, fun r hr => h.inHand r (inHand_of_loop hr rfl rfl), h.booked, h.distinct, h.fresh,
    h.stamped, fun id row hget => ?_, h.balanced⟩
  dsimp only [saveExecution] at hget
  split at hget
  case isTrue => exact h.rows id row hget
  case isFalse =>
    rw [Dict.get?_set] at hget
    split at hget
    case isTrue hid =>
      cases hget
      exact ⟨f, hf, by rw [hresult, hid], by rw [hresult, hid]⟩
    case isFalse => exact h.rows id row hget

private theorem Audited.nextPosition {start cash : ℚ} {s : ExecutionAgent} (h : s.Audited start cash)
    (rest : List BrokerPosition) : (s.nextPosition rest).Audited start cash := by
  obtain ⟨hs, hloop, hnone⟩ := nextPosition_frame s rest
  refine h.same hs fun result hr => ?_
  rcases hr with hr | hr
  · exact .inl (hloop ▸ hr)
  · exact absurd (hr.symm.trans hnone) (Option.some_ne_none result)

/-- The monitor closes a position. -/
private theorem Audited.stoppedOut {start cash : ℚ} {s : ExecutionAgent} (h : s.Audited start cash) (symbol : String)
    (price : Option ℚ) (rest : List BrokerPosition) :
    ((s.stamp (s.account.startClose symbol price s.nextId s.nextId s.nextId).1).afterClose rest
      (s.account.startClose symbol price s.nextId s.nextId s.nextId).2).Audited start cash := by
  have heffect := PaperAccount.startClose_effect s.account symbol price s.nextId s.nextId s.nextId
  obtain ⟨hcache, hreported⟩ := PaperAccount.startClose_reported h.cache symbol price s.nextId s.nextId s.nextId
  obtain ⟨hs, hloop, hinHand⟩ := afterClose_frame
    (s.stamp (s.account.startClose symbol price s.nextId s.nextId s.nextId).1) rest
    (s.account.startClose symbol price s.nextId s.nextId s.nextId).2
  refine h.stamped_step heffect (PaperAccount.startClose_books _ _ _ _ _ _) hs hcache fun result hr => ?_
  rcases hr with hr | hr
  · rw [hloop] at hr
    exact reported_mono (h.inHand result (.inl hr)) heffect
  · exact hreported result (hinHand result hr)

private theorem Audited.monitorSaved {start cash : ℚ} {s : ExecutionAgent} (h : s.Audited start cash)
    {stage : SaveStage} {next : AfterSave} {rest : List BrokerPosition} {ok : Bool} {w : PaperAccount}
    {task : BrokerTask} (hmonitor : s.monitor = .saving stage next rest)
    (hresume : s.account.resume (.saving stage next) (.saved ok) = some (w, task)) :
    (({ s with account := w } : ExecutionAgent).afterClose rest task).Audited start cash := by
  have hpending : ∀ result, (BrokerTask.saving stage next).result? = some result → s.account.Reported result :=
    fun result hr => h.inHand result (.inr (by rw [hmonitor]; exact hr))
  obtain ⟨hs, hloop, hinHand⟩ := afterClose_frame { s with account := w } rest task
  obtain ⟨hcache, hreported⟩ := PaperAccount.resume_reported hresume h.cache hpending
  refine h.saving_step (PaperAccount.resume_saving hresume).1 hs hcache fun result hr => ?_
  rcases hr with hr | hr
  · rw [hloop] at hr
    exact reported_mono (h.inHand result (.inl hr)) (PaperAccount.resume_effect hresume)
  · exact hreported result (hinHand result hr)

theorem Audited.step {start cash : ℚ} {settings : Settings} {s s' : ExecutionAgent} {e : AgentEvent}
    (h : s.Audited start cash) (hstep : s.step settings e = some s') : s'.Audited start cash := by
  cases stepped_of_step hstep with
  | elapsed hd =>
    exact h.advance (.of_account (.same (.refl _)) rfl rfl rfl (le_add_of_nonneg_right hd) rfl) h.cache h.inHand
  | taken hloop => exact h.takeAssessment _
  | filled hloop hresume => exact h.latencyOver hresume
  | saved hloop hresume => exact h.saved hloop hresume
  | published hloop => exact h.published hloop _
  | persisted hloop => exact h.persisted hloop
  | exited hloop hstopped =>
    exact h.same ⟨rfl, rfl, rfl, rfl, rfl⟩ fun result hr => absurd hr (inHand_ended rfl rfl result)
  | scanned hmonitor => exact h.nextPosition _
  | kept hmonitor hprice => exact h.nextPosition _
  | stoppedOut hmonitor hbreached => exact h.stoppedOut _ _ _
  | monitorSaved hmonitor hresume => exact h.monitorSaved hmonitor hresume
  | monitorPublished hmonitor => exact h.nextPosition _
  | linked => exact h.advance (.of_account (.same ⟨rfl, rfl, rfl⟩) rfl rfl rfl le_rfl rfl) h.cache h.inHand
  | halted => exact h.same ⟨rfl, rfl, rfl, rfl, rfl⟩ fun _ hr => hr

end ExecutionAgent

end MultiAgentTrading
