import MultiAgentTrading.Trading.Refinement

/-!
# What the stop monitor closes

The monitor finds a position of its snapshot breached and closes by symbol.  While it waits for the writes of a close,
for the bus or for a price, the run loop can take a position of the snapshot out and open another one on its symbol;
the monitor then closes that one, on the numbers of the one that is gone.  `Snapshot.Current` is what a run keeps that
opens no such position, and with it the position closed is the one that breached.
-/

namespace MultiAgentTrading

open Runs PaperBroker

/-- The return of a position at a price is at or below the stop loss, or at or above the take profit. -/
def Crosses (mt5 : MT5Settings) (position : PaperPosition) (price : ℚ) : Prop :=
  match position.side with
  | .buy =>
    (price - position.entryPrice) / position.entryPrice ≤ -mt5.stopLossPct ∨
      mt5.takeProfitPct ≤ (price - position.entryPrice) / position.entryPrice
  | .sell =>
    (position.entryPrice - price) / position.entryPrice ≤ -mt5.stopLossPct ∨
      mt5.takeProfitPct ≤ (position.entryPrice - price) / position.entryPrice

instance (mt5 : MT5Settings) (position : PaperPosition) (price : ℚ) : Decidable (Crosses mt5 position price) :=
  match h : position.side with
  | .buy => decidable_of_iff (_ ∨ _) (by rw [Crosses, h])
  | .sell => decidable_of_iff (_ ∨ _) (by rw [Crosses, h])

/-- A position has the side and the entry price of one of a snapshot. -/
def PaperPosition.Matches (position : PaperPosition) (pos : BrokerPosition) : Prop :=
  position.side = pos.side ∧ position.entryPrice = pos.entryPrice

instance (position : PaperPosition) (pos : BrokerPosition) : Decidable (position.Matches pos) :=
  inferInstanceAs (Decidable (_ ∧ _))

/-- A position crosses where the monitor finds one of the same side and entry price breached. -/
theorem PaperPosition.Matches.crosses {mt5 : MT5Settings} {position : PaperPosition} {pos : BrokerPosition} {price : ℚ}
    (h : position.Matches pos) (hbreached : breached mt5 pos price = true) : Crosses mt5 position price := by
  obtain ⟨hside, hentry⟩ := h
  unfold breached at hbreached
  split at hbreached
  case isTrue => cases hbreached
  case isFalse =>
    unfold Crosses
    rw [hside, hentry]
    cases hpos : pos.side with
    | buy => simpa [hpos] using hbreached
    | sell => simpa [hpos] using hbreached

/-- What is left of the monitor's snapshot, the position at hand first. -/
def MonitorPhase.snapshot : MonitorPhase → List BrokerPosition
  | .pricing pos rest => pos :: rest
  | .saving _ _ rest => rest
  | .publishing _ rest => rest
  | .sleeping => []
  | .ended => []

namespace TradingSystem

/-- The fill that an event makes. -/
def fillOf (settings : Settings) (s : TradingSystem) (e : TradingEvent) : Option FillEvent :=
  (step settings s e).bind fun s' => (s'.account.fills.drop s.account.fills.length).head?

/-- The position that an event opens. -/
def openedBy (settings : Settings) (s : TradingSystem) (e : TradingEvent) : Option PaperPosition :=
  match fillOf settings s e with
  | some (.opened position _) => some position
  | _ => none

/-- The position that the monitor closes, with the price it closes it at. -/
def stoppedOut (settings : Settings) (s : TradingSystem) : TradingEvent → Option (PaperPosition × ℚ)
  | .monitorPrice (some price) =>
    match fillOf settings s (.monitorPrice (some price)) with
    | some (.closed position _ _) => some (position, price)
    | _ => none
  | _ => none

/-- Whatever the monitor closes crosses a threshold at the price it is closed at. -/
def ClosesBreached (settings : Settings) (s : TradingSystem) (e : TradingEvent) : Prop :=
  ∀ c ∈ stoppedOut settings s e, Crosses settings.mt5 c.1 c.2

instance (settings : Settings) (s : TradingSystem) (e : TradingEvent) : Decidable (ClosesBreached settings s e) :=
  inferInstanceAs (Decidable (∀ _ ∈ _, _))

/-- Where the monitor finds a position breached, the broker holds that position or none. -/
def ClosesCurrent (settings : Settings) (s : TradingSystem) (e : TradingEvent) : Prop :=
  ∀ price pos rest, e = .monitorPrice (some price) → s.monitor = .pricing pos rest →
    breached settings.mt5 pos price = true →
      ∀ position ∈ s.account.broker.positions.get? pos.symbol, position.Matches pos

/-- No order opens, on a symbol that is still in the monitor's snapshot, a position of another side or entry price. -/
def Unreplaced (settings : Settings) (s : TradingSystem) (e : TradingEvent) : Prop :=
  ∀ position ∈ openedBy settings s e, ∀ pos ∈ s.monitor.snapshot, pos.symbol = position.symbol → position.Matches pos

instance (settings : Settings) (s : TradingSystem) (e : TradingEvent) : Decidable (Unreplaced settings s e) :=
  inferInstanceAs (Decidable (∀ _ ∈ _, ∀ _ ∈ _, _))

/-! ### What a step closes and opens -/

private theorem fillOf_eq {settings : Settings} {s s' : TradingSystem} {e : TradingEvent} {f : FillEvent}
    (h : step settings s e = some s') (hfills : s'.account.fills = s.account.fills ++ [f]) :
    fillOf settings s e = some f := by
  rw [fillOf, h, Option.bind_some, hfills, List.drop_left]
  rfl

/-- What the monitor closes is what the broker holds on the symbol of a breached position of the snapshot. -/
private theorem stoppedOut_spec {settings : Settings} {s : TradingSystem} {e : TradingEvent}
    {position : PaperPosition} {price : ℚ} (h : stoppedOut settings s e = some (position, price)) :
    ∃ pos rest, e = .monitorPrice (some price) ∧ s.monitor = .pricing pos rest ∧
      breached settings.mt5 pos price = true ∧ s.account.broker.positions.get? pos.symbol = some position := by
  unfold stoppedOut at h
  split at h
  case h_2 => cases h
  case h_1 price' =>
    split at h
    case h_2 => cases h
    case h_1 position' fill result hfill =>
      cases h
      obtain ⟨s', hstep, hhead⟩ := Option.bind_eq_some_iff.1 hfill
      -- without a new fill there would be no close to report
      have hnew : s'.account.fills ≠ s.account.fills := by
        intro hfills
        simp [hfills] at hhead
      cases stepped_of_step hstep with
      | kept => exact absurd (by rw [account_nextPosition]) hnew
      | @stoppedOut pos rest _ hmonitor hbreached =>
        refine ⟨pos, rest, rfl, hmonitor, hbreached, ?_⟩
        rw [account_afterClose] at hhead hnew
        unfold PaperAccount.startClose at hhead hnew
        cases hclose : s.account.broker.closePosition pos.symbol (some price) s.nextId s.nextId s.nextId with
        | none =>
          rw [hclose] at hnew
          exact absurd rfl hnew
        | some c =>
          rw [hclose] at hhead
          obtain ⟨refPrice, hat⟩ := closePosition_closeAt hclose
          have hfills : ((s.account.recordClose c).startSave (.reply c.result)).1.fills =
              s.account.fills ++ [.closed c.position c.fill c.result] :=
            (PaperAccount.sameBooks_startSave (s.account.recordClose c) (.reply c.result)).fills
          dsimp only at hhead
          rw [hfills, List.drop_left, List.head?_cons, Option.some.injEq, FillEvent.closed.injEq] at hhead
          rw [← hhead.1]
          exact (closeAt_spec hat).1

/-- Where the snapshot is current, what the monitor closes crosses its threshold. -/
private theorem closesBreached_of_current {settings : Settings} {s : TradingSystem} {e : TradingEvent}
    (h : ClosesCurrent settings s e) : ClosesBreached settings s e := by
  rintro ⟨position, price⟩ hstopped
  obtain ⟨pos, rest, rfl, hmonitor, hbreached, hheld⟩ := stoppedOut_spec hstopped
  have hmatches : position.Matches pos := h price pos rest rfl hmonitor hbreached position hheld
  exact hmatches.crosses hbreached

/-! ### The snapshot along a run -/

private theorem snapshot_nextPosition (s : TradingSystem) (rest : List BrokerPosition) :
    (s.nextPosition rest).monitor.snapshot = rest := by
  cases rest with
  | nil => unfold nextPosition; cases s.stopped <;> rfl
  | cons pos rest => rfl

private theorem snapshot_afterClose (s : TradingSystem) (rest : List BrokerPosition) (w : PaperAccount)
    (task : BrokerTask) : (s.afterClose rest w task).monitor.snapshot = rest := by
  unfold afterClose
  split
  · rfl
  · rfl
  · exact snapshot_nextPosition _ _

private theorem monitor_afterOrder (settings : Settings) (s : TradingSystem) (a : RiskAssessment ℚ) (w : PaperAccount)
    (task : BrokerTask) : (s.afterOrder settings a w task).monitor = s.monitor := by
  unfold afterOrder
  split <;> rfl

private theorem monitor_afterSave (s : TradingSystem) (w : PaperAccount) (task : BrokerTask) :
    (s.afterSave w task).monitor = s.monitor := by
  unfold afterSave
  split <;> rfl

private theorem monitor_publish {s s' : TradingSystem} {result : ExecutionResult} {ok : Bool}
    (h : s.publish result ok = some s') : s'.monitor = s.monitor := by
  unfold publish at h
  split at h
  · cases h; rfl
  · split at h
    · cases h; rfl
    · cases h

private theorem monitor_afterPublish (settings : Settings) (s : TradingSystem) (fill ok : Bool) :
    (s.afterPublish settings fill ok).monitor = s.monitor := by
  cases fill <;> cases ok <;> rfl

private theorem snapshot_takeAssessment (settings : Settings) (s : TradingSystem) (a : RiskAssessment ℚ)
    (rest : List (RiskAssessment ℚ)) : (s.takeAssessment settings a rest).monitor.snapshot ⊆ s.monitor.snapshot := by
  unfold takeAssessment
  split
  · exact List.nil_subset _
  · split
    · exact List.Subset.refl _
    · split
      · exact List.Subset.refl _
      · rw [monitor_afterOrder]
        exact List.Subset.refl _

/-- A step shortens the snapshot, or it is the scan that takes it. -/
private theorem step_snapshot {settings : Settings} {s s' : TradingSystem} {e : TradingEvent}
    (h : step settings s e = some s') :
    s'.monitor.snapshot ⊆ s.monitor.snapshot ∨
      s'.monitor.snapshot = s.account.broker.getPositions ∧ s'.account = s.account := by
  have hsame : ∀ t : TradingSystem, t.monitor = s.monitor → t.monitor.snapshot ⊆ s.monitor.snapshot := by
    intro t ht
    rw [ht]
    exact List.Subset.refl _
  have hrest : ∀ pos rest, s.monitor = .pricing pos rest → rest ⊆ s.monitor.snapshot := by
    intro pos rest hmonitor
    rw [hmonitor]
    exact List.subset_cons_self pos rest
  cases stepped_of_step h with
  | proposed p => exact .inl (hsame _ rfl)
  | evaluated => exact .inl (hsame _ rfl)
  | assessed => exact .inl (hsame _ rfl)
  | applied => exact .inl (hsame _ rfl)
  | taken => exact .inl (snapshot_takeAssessment _ _ _ _)
  | filled => exact .inl (hsame _ (monitor_afterOrder _ _ _ _ _))
  | loopSaved => exact .inl (hsame _ (monitor_afterSave _ _ _))
  | loopPublished hloop hpublish =>
    exact .inl (hsame _ ((monitor_afterPublish _ _ _ _).trans (monitor_publish hpublish)))
  | loopExited => exact .inl (List.nil_subset _)
  | scanned => exact .inr ⟨snapshot_nextPosition _ _, account_nextPosition _ _⟩
  | @unpriced pos rest hmonitor =>
    left
    rw [snapshot_nextPosition]
    exact hrest pos rest hmonitor
  | @kept pos rest price hmonitor hbreached =>
    left
    rw [snapshot_nextPosition]
    exact hrest pos rest hmonitor
  | @stoppedOut pos rest price hmonitor hbreached =>
    left
    rw [snapshot_afterClose]
    exact hrest pos rest hmonitor
  | monitorSaved hmonitor hresume =>
    left
    rw [snapshot_afterClose, hmonitor]
    exact List.Subset.refl _
  | @monitorPublished ok result rest t hmonitor hpublish =>
    left
    rw [snapshot_nextPosition, hmonitor]
    cases ok with
    | true => exact List.Subset.refl _
    | false => exact List.nil_subset _
  | linked connected => exact .inl (hsame _ rfl)
  | riskHalted stop => exact .inl (hsame _ rfl)
  | executionHalted stop => exact .inl (hsame _ rfl)

/-- What a run keeps that replaces no position of the snapshot: positions are filed under their symbols, and each one of
the snapshot is what the broker holds on its symbol, unless the symbol is flat. -/
structure SnapshotCurrent (s : TradingSystem) : Prop where
  filed : ∀ symbol, ∀ position ∈ s.account.broker.positions.get? symbol, position.symbol = symbol
  held : ∀ pos ∈ s.monitor.snapshot, ∀ position ∈ s.account.broker.positions.get? pos.symbol, position.Matches pos

private theorem filed_effect {w w' : PaperAccount} (he : PaperAccount.Effect w w')
    (h : ∀ symbol, ∀ position ∈ w.broker.positions.get? symbol, position.symbol = symbol) :
    ∀ symbol, ∀ position ∈ w'.broker.positions.get? symbol, position.symbol = symbol := by
  intro symbol held hheld
  cases he with
  | same hs => exact h symbol held (hs.positions ▸ hheld)
  | opened position result hwf hflat hsymbol hside hqty hpnl hcash hpositions hfills =>
    rw [hpositions, Dict.get?_set] at hheld
    split at hheld
    case isTrue heq => cases hheld; exact heq.symm
    case isFalse => exact h symbol held hheld
  | closed position fill result _ hside hqty hpnl hround hcash hpositions hfills =>
    rw [hpositions, Dict.get?_erase] at hheld
    split at hheld
    case isTrue => cases hheld
    case isFalse => exact h symbol held hheld

/-- The positions that a scan takes are those that the broker holds. -/
private theorem matches_getPositions {b : PaperBroker}
    (hfiled : ∀ symbol, ∀ position ∈ b.positions.get? symbol, position.symbol = symbol) {pos : BrokerPosition}
    (hpos : pos ∈ b.getPositions) {position : PaperPosition} (h : position ∈ b.positions.get? pos.symbol) :
    position.Matches pos := by
  obtain ⟨held, hheld, rfl⟩ := List.mem_map.1 hpos
  obtain ⟨⟨symbol, held⟩, hmem, rfl⟩ := List.mem_map.1 hheld
  have hget : b.positions.get? symbol = some held := Dict.mem_entries.1 hmem
  have hsymbol : held.symbol = symbol := hfiled symbol held hget
  have hsame : b.positions.get? symbol = some position := by rw [← hsymbol]; exact h
  obtain rfl := Option.some.inj (hget.symm.trans hsame)
  exact ⟨rfl, rfl⟩

private theorem SnapshotCurrent.step {settings : Settings} {s s' : TradingSystem} {e : TradingEvent}
    (h : s.SnapshotCurrent) (hC : Unreplaced settings s e) (hstep : step settings s e = some s') :
    s'.SnapshotCurrent := by
  have heffect := step_effect hstep
  refine ⟨filed_effect heffect h.filed, ?_⟩
  intro pos hpos held hheld
  rcases step_snapshot hstep with hsub | ⟨hscan, haccount⟩
  · have hmem := hsub hpos
    cases heffect with
    | same hs => exact h.held pos hmem held (hs.positions ▸ hheld)
    | opened position result hwf hflat hsymbol hside hqty hpnl hcash hpositions hfills =>
      rw [hpositions, Dict.get?_set] at hheld
      split at hheld
      case isTrue heq =>
        -- the order opened on a symbol of the snapshot
        obtain rfl := Option.some.inj hheld
        have hopened : openedBy settings s e = some position := by rw [openedBy, fillOf_eq hstep hfills]
        exact hC position hopened pos hmem heq
      case isFalse => exact h.held pos hmem held hheld
    | closed position fill result _ hside hqty hpnl hround hcash hpositions hfills =>
      rw [hpositions, Dict.get?_erase] at hheld
      split at hheld
      case isTrue => cases hheld
      case isFalse => exact h.held pos hmem held hheld
  · rw [hscan] at hpos
    rw [haccount] at hheld
    exact matches_getPositions h.filed hpos hheld

private theorem SnapshotCurrent.closesCurrent {s : TradingSystem} (h : s.SnapshotCurrent) (settings : Settings)
    (e : TradingEvent) : ClosesCurrent settings s e := by
  rintro price pos rest rfl hmonitor - position hheld
  refine h.held pos ?_ position hheld
  rw [hmonitor]
  exact List.mem_cons_self

end TradingSystem

open TradingSystem

/-- In every run in which the monitor, where it finds a position of its snapshot breached, finds that position or none
at the broker, every position it closes crosses a threshold at the price it is closed at; and so it is in every run in
which no order opens, on a symbol still in the snapshot, a position of another side or entry price. -/
theorem monitor_closes_breached (settings : Settings) (now : ℚ) (connected : Bool) (es : List TradingEvent) :
    (Along (TradingSystem.step settings) (ClosesCurrent settings) (TradingSystem.init settings now connected) es →
      Along (TradingSystem.step settings) (ClosesBreached settings) (TradingSystem.init settings now connected) es) ∧
    (Along (TradingSystem.step settings) (Unreplaced settings) (TradingSystem.init settings now connected) es →
      Along (TradingSystem.step settings) (ClosesCurrent settings)
        (TradingSystem.init settings now connected) es) := by
  constructor
  · intro hcurrent
    exact Along.of_invariant (fun _ => True) (fun _ _ _ _ _ _ => trivial)
      (fun _ _ _ hc => closesBreached_of_current hc) trivial hcurrent
  · intro hunreplaced
    refine Along.of_invariant SnapshotCurrent (fun _ _ _ hs hC hstep => hs.step hC hstep)
      (fun _ e hs _ => hs.closesCurrent settings e) ?_ hunreplaced
    have hflat : ∀ symbol, (TradingSystem.init settings now connected).account.broker.positions.get? symbol = none :=
      fun _ => rfl
    constructor
    · intro symbol position hposition
      rw [hflat] at hposition
      cases hposition
    · intro pos hpos
      exact absurd hpos List.not_mem_nil

/-- Two longs are opened, and the monitor scans and stops the first one out. -/
def firstStoppedOut : List TradingEvent :=
  orderFlow (plainProposal 1 "ETH/USDT" .buy 200 two_hundred_pos 100 0 .empty) ++
    [.loopSaved true, .loopSaved true, .loopPublish true, .riskApply] ++
    orderFlow (plainProposal 2 "BTC/USDT" .buy 200 two_hundred_pos 100 0 .empty) ++
    [.loopSaved true, .loopSaved true, .loopPublish true, .riskApply, .monitorScan, .monitorPrice (some 90)]

theorem monitor_closes_breached_firstStoppedOut :
    ((exec (TradingSystem.step {}) (TradingSystem.init {} 0 true) firstStoppedOut).map fun s => s.account.closes) =
        some 1 ∧
      Along (TradingSystem.step {}) (ClosesBreached {}) (TradingSystem.init {} 0 true) firstStoppedOut := by
  refine ⟨by decide +kernel, ?_⟩
  have hrun := monitor_closes_breached {} 0 true firstStoppedOut
  exact hrun.1 (hrun.2 (by decide +kernel))

/-- While the monitor waits for the writes of that close, the second long is closed and reopened at a lower price. -/
def reopenedBelow : List TradingEvent :=
  firstStoppedOut ++
    orderFlow (plainProposal 3 "BTC/USDT" .sell 200 two_hundred_pos 90 0 .empty) ++
    [.loopSaved true, .loopSaved true, .loopPublish true, .riskApply] ++
    orderFlow (plainProposal 4 "BTC/USDT" .buy 200 two_hundred_pos 90 0 .empty) ++
    [.monitorSaved true, .monitorSaved true, .monitorPublish true, .monitorPrice (some 90)]

/-- The monitor then closes the new long at the price it has just been opened at. -/
theorem monitor_closes_replacement : ¬ ∀ (settings : Settings) (now : ℚ) (connected : Bool)
    (es : List TradingEvent), Along (TradingSystem.step settings) (ClosesBreached settings)
      (TradingSystem.init settings now connected) es := by
  intro h
  have hrun : ¬ Along (TradingSystem.step {}) (ClosesBreached {}) (TradingSystem.init {} 0 true) reopenedBelow := by
    decide +kernel
  exact hrun (h {} 0 true reopenedBelow)

end MultiAgentTrading
