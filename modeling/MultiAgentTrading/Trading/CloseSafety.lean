import MultiAgentTrading.Trading.Refinement

/-!
# Approved closes close

The risk agent approves a close against its own ledger, and `place_order` decides again against the positions of the
broker.  Both see the same position exactly when the books are `Undisturbed`: under this condition `close_never_opens`
says that an approved close takes out a position on the opposite side or raises.  Without it the order may open one.
-/

namespace MultiAgentTrading

open Runs PaperBroker

namespace Books

/-- The orders `before` a close leave a position on its opposite side: there are none and the broker holds it, or it
is the one order that opens it on a flat symbol. -/
def CloseReady (entry : Option (OrderSide × ℚ)) (before : List Order) (o : Order) : Prop :=
  (before = [] ∧ entry.map Prod.fst = some o.side.opp) ∨
    (before.map (fun p => (p.closing, p.side)) = [(false, o.side.opp)] ∧ entry = none)

instance (entry : Option (OrderSide × ℚ)) (before : List Order) (o : Order) :
    Decidable (CloseReady entry before o) := inferInstanceAs (Decidable (_ ∨ _))

/-- No close of the symbol is on its way to the broker. -/
def NoCloseOf (b : Books) (symbol : String) : Prop := ∀ c ∈ b.live, c.closing = true → c.symbol ≠ symbol

instance (b : Books) (symbol : String) : Decidable (b.NoCloseOf symbol) :=
  inferInstanceAs (Decidable (∀ c ∈ b.live, _))

/-- A close is approved under a new id while the broker holds the position, or while the one order that opens it is on
its way.  As long as a close is on its way, the order before it does not fail and the monitor leaves its symbol. -/
def Undisturbed (b : Books) : Action → Prop
  | .approve o =>
    o.closing = true → b.takes = true →
      o.id ∉ b.remembered ∧ (∀ p ∈ b.live, p.id ≠ o.id) ∧
        CloseReady (b.broker o.symbol) (b.live.filter fun p => p.symbol = o.symbol) o
  | .raise o => o.closing = false → b.NoCloseOf o.symbol
  | .replay o => o.closing = false → b.NoCloseOf o.symbol
  | .stopClose symbol => b.NoCloseOf symbol
  | _ => True

instance Undisturbed.decidable (b : Books) : ∀ act, Decidable (b.Undisturbed act)
  | .approve o => inferInstanceAs (Decidable (o.closing = true → b.takes = true → _ ∧ _ ∧ _))
  | .raise o => inferInstanceAs (Decidable (o.closing = false → b.NoCloseOf o.symbol))
  | .replay o => inferInstanceAs (Decidable (o.closing = false → b.NoCloseOf o.symbol))
  | .stopClose symbol => inferInstanceAs (Decidable (b.NoCloseOf symbol))
  | .quiet => isTrue trivial
  | .opens _ => isTrue trivial
  | .closes _ => isTrue trivial
  | .publishLoop => isTrue trivial
  | .publishMonitor => isTrue trivial
  | .settle => isTrue trivial
  | .degrade => isTrue trivial

/-- What is known of a close `c` on its way behind the orders `pre`. -/
structure Ready (b : Books) (pre : List Order) (c : Order) : Prop where
  ready : CloseReady (b.broker c.symbol) (pre.filter fun p => p.symbol = c.symbol) c
  notRemembered : c.id ∉ b.remembered
  ids : ∀ p ∈ pre, p.id ≠ c.id

/-- Every close on its way finds the position it was approved for. -/
def ClosesReady (b : Books) : Prop :=
  ∀ pre c post, b.live = pre ++ c :: post → c.closing = true → b.Ready pre c

/-- The head of the live orders, if it is a close, is for the position that the broker holds. -/
theorem ClosesReady.head {b : Books} {o : Order} {rest : List Order} (h : b.ClosesReady) (hlive : b.live = o :: rest)
    (hclosing : o.closing = true) : (b.broker o.symbol).map Prod.fst = some o.side.opp ∧ o.id ∉ b.remembered := by
  obtain ⟨hready, hrem, -⟩ := h [] o rest hlive hclosing
  rcases hready with ⟨-, hheld⟩ | ⟨hbefore, -⟩
  · exact ⟨hheld, hrem⟩
  · cases hbefore

/-- A step that shortens the live orders at their end and leaves the broker keeps the closes ready. -/
private theorem ClosesReady.of_prefix {b b' : Books} (h : b.ClosesReady) (hlive : b'.live <+: b.live)
    (hbroker : b'.broker = b.broker) (hrem : b'.remembered ⊆ b.remembered) : b'.ClosesReady := by
  intro pre c post hsplit hclosing
  obtain ⟨tail, htail⟩ := hlive
  have hold : b.live = pre ++ c :: (post ++ tail) := by rw [← htail, hsplit]; simp
  obtain ⟨hready, hfresh, hids⟩ := h pre c _ hold hclosing
  exact ⟨by rw [hbroker]; exact hready, fun hid => hfresh (hrem hid), hids⟩

/-- A new order at the end: the closes before it stay ready, and it is ready if it is a close. -/
private theorem ClosesReady.queue {b b' : Books} {o : Order} (h : b.ClosesReady)
    (hlive : b'.live = if b.takes then b.live ++ [o] else b.live) (hbroker : b'.broker = b.broker)
    (hrem : b'.remembered = b.remembered)
    (ho : o.closing = true → b.takes = true → b.Ready b.live o) : b'.ClosesReady := by
  intro pre c post hsplit hclosing
  have hready : b.Ready pre c := by
    by_cases htakes : b.takes = true
    · rw [hlive, if_pos htakes] at hsplit
      rcases List.eq_nil_or_concat post with rfl | ⟨post', q, rfl⟩
      · obtain ⟨rfl, hlast⟩ := List.append_inj' hsplit rfl
        cases hlast
        exact ho hclosing htakes
      · rw [List.concat_eq_append, ← List.cons_append, ← List.append_assoc] at hsplit
        exact h pre c post' (List.append_inj' hsplit rfl).1 hclosing
    · rw [hlive, if_neg htakes] at hsplit
      exact h pre c post hsplit hclosing
  obtain ⟨hready, hfresh, hids⟩ := hready
  exact ⟨by rw [hbroker]; exact hready, by rw [hrem]; exact hfresh, hids⟩

/-- The head of the live orders leaves without changing the broker.  No close waits for it: a close before it would be
a second one, and an opening is followed by none. -/
private theorem ClosesReady.drop {b b' : Books} {o : Order} {rest : List Order} (h : b.ClosesReady)
    (hlive : b.live = o :: rest) (hlive' : b'.live <+: rest) (hbroker : b'.broker = b.broker)
    (hrem : b'.remembered = b.remembered) (hC : o.closing = false → b.NoCloseOf o.symbol) : b'.ClosesReady := by
  intro pre c post hsplit hclosing
  obtain ⟨tail, htail⟩ := hlive'
  have hold : b.live = (o :: pre) ++ c :: (post ++ tail) := by rw [hlive, ← htail, hsplit]; simp
  obtain ⟨hready, hfresh, hids⟩ := h (o :: pre) c _ hold hclosing
  have hne : o.symbol ≠ c.symbol := by
    intro heq
    cases hkind : o.closing with
    | false =>
      have hc : c ∈ b.live := by rw [hold]; simp
      exact hC hkind c hc hclosing heq.symm
    | true =>
      rw [List.filter_cons_of_pos (by simpa using heq)] at hready
      rcases hready with ⟨hnil, -⟩ | ⟨hone, -⟩
      · cases hnil
      · rw [List.map_cons, hkind] at hone
        cases hone
  rw [List.filter_cons_of_neg (by simpa using hne)] at hready
  exact ⟨by rw [hbroker]; exact hready, by rw [hrem]; exact hfresh,
    fun p hp => hids p (List.mem_cons_of_mem _ hp)⟩

private theorem notMem_remembered {remembered remembered' : List ℕ} {o c : Order}
    (hrem : remembered' ⊆ o.id :: remembered) (hne : o.id ≠ c.id) (h : c.id ∉ remembered) : c.id ∉ remembered' := by
  intro hid
  rcases List.mem_cons.1 (hrem hid) with heq | hold
  · exact hne heq.symm
  · exact h hold

/-- An opening at the head is what the close behind it waits for. -/
private theorem ClosesReady.opens {b b' : Books} {o : Order} {cost : ℚ} (h : b.ClosesReady)
    (hlive : b.live = o :: b'.live) (hbroker : b'.broker = Function.update b.broker o.symbol (some (o.side, cost)))
    (hrem : b'.remembered ⊆ o.id :: b.remembered) : b'.ClosesReady := by
  intro pre c post hsplit hclosing
  obtain ⟨hready, hfresh, hids⟩ := h (o :: pre) c post (by rw [hlive, hsplit]; rfl) hclosing
  refine ⟨?_, notMem_remembered hrem (hids o (List.mem_cons_self ..)) hfresh,
    fun p hp => hids p (List.mem_cons_of_mem _ hp)⟩
  by_cases heq : o.symbol = c.symbol
  · rw [List.filter_cons_of_pos (by simpa using heq)] at hready
    rw [hbroker, ← heq, Function.update_self, heq]
    rcases hready with ⟨hnil, -⟩ | ⟨hone, -⟩
    · cases hnil
    · rw [List.map_cons, List.cons.injEq, Prod.mk.injEq, List.map_eq_nil_iff] at hone
      exact .inl ⟨hone.2, congrArg some hone.1.2⟩
  · rw [List.filter_cons_of_neg (by simpa using heq)] at hready
    rw [hbroker, Function.update_of_ne (Ne.symm heq)]
    exact hready

/-- A close at the head has no second close of its symbol behind it. -/
private theorem ClosesReady.closes {b b' : Books} {o : Order} (h : b.ClosesReady)
    (hlive : b.live = o :: b'.live) (hheld : b.broker o.symbol ≠ none)
    (hbroker : b'.broker = Function.update b.broker o.symbol none)
    (hrem : b'.remembered ⊆ o.id :: b.remembered) : b'.ClosesReady := by
  intro pre c post hsplit hclosing
  obtain ⟨hready, hfresh, hids⟩ := h (o :: pre) c post (by rw [hlive, hsplit]; rfl) hclosing
  have hne : o.symbol ≠ c.symbol := by
    intro heq
    rw [List.filter_cons_of_pos (by simpa using heq)] at hready
    rcases hready with ⟨hnil, -⟩ | ⟨-, hflat⟩
    · cases hnil
    · rw [heq] at hheld
      exact hheld hflat
  rw [List.filter_cons_of_neg (by simpa using hne)] at hready
  exact ⟨by rw [hbroker, Function.update_of_ne (Ne.symm hne)]; exact hready,
    notMem_remembered hrem (hids o (List.mem_cons_self ..)) hfresh, fun p hp => hids p (List.mem_cons_of_mem _ hp)⟩

/-- Undisturbed moves keep the closes ready. -/
theorem ClosesReady.move {b b' : Books} {act : Action} (h : b.ClosesReady) (hC : b.Undisturbed act)
    (hmove : Move b act b') : b'.ClosesReady := by
  cases hmove with
  | quiet remembered nextId hrem hid => exact h.of_prefix (List.prefix_refl _) rfl hrem
  | approveClose o cost nextId hclosing hheld hid =>
    refine h.queue (o := o) rfl rfl rfl ?_
    intro hclosing htakes
    obtain ⟨hfresh, hids, hready⟩ := hC hclosing htakes
    exact ⟨hready, hfresh, hids⟩
  | approveOpen o size nextId hclosing hheld hid =>
    refine h.queue (o := o) rfl rfl rfl ?_
    intro hclose
    rw [hclosing] at hclose
    cases hclose
  | raise o result waiting rest live takes hresult hfree hwaiting hrest hlive htakes =>
    exact h.drop hrest hlive rfl rfl hC
  | opens o cost result waiting live remembered hresult hfree hwaiting hlive hflat hrem =>
    exact h.opens hlive rfl hrem
  | closes o cost pnl result waiting live remembered hresult hfree hwaiting hlive hheld hrem =>
    exact h.closes hlive (by rw [hheld]; simp) rfl hrem
  | replay o result waiting live hwaiting hlive hrem => exact h.drop hlive (List.prefix_refl _) rfl rfl hC
  | stopClose symbol side cost pnl result remembered hresult hfree hheld hrem =>
    intro pre c post hsplit hclosing
    obtain ⟨hready, hfresh, hids⟩ := h pre c post hsplit hclosing
    have hne : c.symbol ≠ symbol := by
      refine hC c ?_ hclosing
      show c ∈ b.live
      rw [show b.live = _ from hsplit]
      simp
    refine ⟨?_, fun hid => hfresh (hrem hid), hids⟩
    show CloseReady (Function.update b.broker symbol none c.symbol) _ c
    rw [Function.update_of_ne hne]
    exact hready
  | publishLoop => exact h.of_prefix (List.prefix_refl _) rfl (List.Subset.refl _)
  | publishMonitor => exact h.of_prefix (List.prefix_refl _) rfl (List.Subset.refl _)
  | settle result rest seen hresults hseen =>
    unfold apply
    split
    · exact h.of_prefix (List.prefix_refl _) rfl (List.Subset.refl _)
    · exact h.of_prefix (List.prefix_refl _) rfl (List.Subset.refl _)
  | degrade b' hlive htakes hbroker hrem => exact h.of_prefix hlive hbroker hrem

end Books

namespace TradingSystem

/-- What is right for a close at `place_order`: to take out a position on the opposite side, or to raise. -/
def ClosesOrRaises (s : TradingSystem) (a : RiskAssessment ℚ) : OrderOutcome → Prop
  | .raised _ => True
  | .closed c =>
    s.account.broker.positions.get? a.originalProposal.symbol = some c.position ∧
      c.position.side = a.originalProposal.side.opp
  | .opened _ _ => False
  | .replayed _ => False

instance (s : TradingSystem) (a : RiskAssessment ℚ) : ∀ outcome, Decidable (s.ClosesOrRaises a outcome)
  | .raised _ => isTrue trivial
  | .closed _ => inferInstanceAs (Decidable (_ ∧ _))
  | .opened _ _ => isFalse id
  | .replayed _ => isFalse id

/-- If the event completes a `place_order` call for an approved close, the call closes or raises. -/
def CloseCloses (settings : Settings) (s : TradingSystem) (e : TradingEvent) : Prop :=
  ∀ a outcome, orderOutcome settings s e = some (a, outcome) → a.isClose = true → s.ClosesOrRaises a outcome

instance (settings : Settings) (s : TradingSystem) (e : TradingEvent) : Decidable (CloseCloses settings s e) :=
  match h : orderOutcome settings s e with
  | none => isTrue fun a outcome ho => by rw [h] at ho; cases ho
  | some (a, outcome) =>
    decidable_of_iff (a.isClose = true → s.ClosesOrRaises a outcome)
      ⟨fun hp a' outcome' ho => by rw [h] at ho; cases ho; exact hp, fun hp => hp a outcome h⟩

/-- The books are undisturbed by what the event does. -/
def Undisturbed (settings : Settings) (s : TradingSystem) (e : TradingEvent) : Prop :=
  s.view.Undisturbed (action settings s e)

instance (settings : Settings) (s : TradingSystem) (e : TradingEvent) : Decidable (Undisturbed settings s e) :=
  Books.Undisturbed.decidable _ _

/-- What the broker's entry for the symbol says about an outcome. -/
def OutcomeFits (s : TradingSystem) (a : RiskAssessment ℚ) : OrderOutcome → Prop
  | .raised _ => True
  | .closed c =>
    s.account.broker.positions.get? a.originalProposal.symbol = some c.position ∧
      c.position.side = a.originalProposal.side.opp
  | .opened _ _ => s.view.broker a.order.symbol = none
  | .replayed _ => a.order.id ∈ s.view.remembered

private theorem outcome_take {settings : Settings} {s : TradingSystem} {a : RiskAssessment ℚ} {outcome : OrderOutcome}
    (h : orderOutcome settings s .loopTake = some (a, outcome)) :
    (∃ rest, s.view.live = a.order :: rest) ∧ s.OutcomeFits a outcome := by
  simp only [orderOutcome] at h
  split at h
  case h_2 => cases h
  case h_1 a' rest hloop hassessments =>
    by_cases htake : (s.canTake && a'.isApproved) = true
    · rw [if_pos htake] at h
      obtain ⟨htake, happroved⟩ := Bool.and_eq_true_iff.1 htake
      have hlive : s.view.live = a'.order ::
          ((rest ++ s.riskPending.toList).filter RiskAssessment.isApproved).map RiskAssessment.order := by
        rw [view, hloop, htake, queued_take hassessments, happroved]
        rfl
      cases haccept : s.account.broker.acceptOrder settings a' with
      | error e =>
        rw [haccept] at h
        cases h
        exact ⟨⟨_, hlive⟩, trivial⟩
      | ok accepted =>
        rw [haccept] at h
        cases accepted with
        | inl cached =>
          cases h
          have hcached := acceptOrder_replay haccept
          exact ⟨⟨_, hlive⟩, by simp [OutcomeFits, view, RiskAssessment.order, hcached]⟩
        | inr refPrice => cases h
    · rw [if_neg htake] at h
      cases h

private theorem outcome_latency (settings : Settings) {s : TradingSystem} {choice : FillChoice}
    {a : RiskAssessment ℚ} {outcome : OrderOutcome}
    (h : orderOutcome settings s (.loopLatency choice) = some (a, outcome)) :
    (∃ rest, s.view.live = a.order :: rest) ∧ s.OutcomeFits a outcome := by
  simp only [orderOutcome] at h
  split at h
  case h_2 => cases h
  case h_1 a' refPrice hloop =>
    have hlive : s.view.live = a'.order :: (if s.canTake then s.queued else []).map RiskAssessment.order := by
      rw [view, hloop]
      rfl
    cases hf : s.account.broker.fillOrder a' refPrice choice s.nextId with
    | error e =>
      rw [hf] at h
      cases h
      exact ⟨⟨_, hlive⟩, trivial⟩
    | ok filled =>
      rw [hf] at h
      rcases fillOrder_cases hf with ⟨c, rfl, hside, hclose⟩ | ⟨fill, hflat, -, -, rfl⟩
      · cases h
        exact ⟨⟨_, hlive⟩, (closeAt_spec hclose).1, hside⟩
      · cases h
        exact ⟨⟨_, hlive⟩, entries_eq_none hflat⟩

/-- An order that completes is the head of the live orders, and does what the broker's entry for it allows. -/
private theorem orderOutcome_spec {settings : Settings} {s : TradingSystem} {e : TradingEvent} {a : RiskAssessment ℚ}
    {outcome : OrderOutcome} (h : orderOutcome settings s e = some (a, outcome)) :
    (∃ rest, s.view.live = a.order :: rest) ∧ s.OutcomeFits a outcome := by
  unfold orderOutcome at h
  split at h
  case h_1 => exact outcome_take h
  case h_2 choice => exact outcome_latency settings h
  case h_3 => cases h

/-- What an undisturbed run keeps: the account has a life, and every close on its way is ready. -/
structure CloseInvariant (s : TradingSystem) : Prop where
  lives : s.account.Lives
  ready : s.view.ClosesReady

private theorem CloseInvariant.step {settings : Settings} {s s' : TradingSystem} {e : TradingEvent}
    (h : s.CloseInvariant) (hC : Undisturbed settings s e) (hstep : step settings s e = some s') :
    s'.CloseInvariant :=
  ⟨h.lives.effect (step_effect hstep), h.ready.move hC (step_move h.lives hstep)⟩

private theorem CloseInvariant.closeCloses {settings : Settings} {s : TradingSystem} (h : s.CloseInvariant)
    (e : TradingEvent) : CloseCloses settings s e := by
  intro a outcome ho hclose
  obtain ⟨⟨rest, hlive⟩, hdone⟩ := orderOutcome_spec ho
  obtain ⟨hheld, hfresh⟩ := h.ready.head hlive hclose
  cases outcome with
  | raised error => trivial
  | opened position result =>
    rw [show s.view.broker a.order.symbol = none from hdone] at hheld
    cases hheld
  | closed c => exact hdone
  | replayed result => exact absurd hdone hfresh

private theorem closeInvariant_init (settings : Settings) (now : ℚ) (connected : Bool) :
    (init settings now connected).CloseInvariant where
  lives := ⟨fun _ => rfl, fun _ _ hp => by cases hp⟩
  ready := by
    intro pre c post hsplit
    have hlive : (init settings now connected).view.live = [] := rfl
    rw [hlive] at hsplit
    simp at hsplit

end TradingSystem

open TradingSystem

/-- In every run whose steps leave the books undisturbed, every `place_order` call for an assessment approved as a close
takes out a position on the opposite side or raises. -/
theorem close_never_opens {settings : Settings} {now : ℚ} {connected : Bool} {es : List TradingEvent}
    (h : Along (TradingSystem.step settings) (Undisturbed settings) (TradingSystem.init settings now connected) es) :
    Along (TradingSystem.step settings) (CloseCloses settings) (TradingSystem.init settings now connected) es :=
  Along.of_invariant CloseInvariant (fun _ _ _ hs hC hstep => hs.step hC hstep) (fun _ e hs _ => hs.closeCloses e)
    (closeInvariant_init settings now connected) h

/-- A long is opened and its fill applied, and a sell is approved as its close and filled. -/
def openThenClose : List TradingEvent :=
  orderFlow (plainProposal 1 "BTC/USDT" .buy 200 two_hundred_pos 100 0 .empty) ++
    [.loopSaved true, .loopSaved true, .loopPublish true, .riskApply] ++
    orderFlow (plainProposal 2 "BTC/USDT" .sell 200 two_hundred_pos 100 0 .empty) ++
    [.loopSaved true, .loopSaved true, .loopPublish true, .riskApply]

theorem close_never_opens_openThenClose :
    ((exec (TradingSystem.step {}) (TradingSystem.init {} 0 true) openThenClose).map fun s => s.account.closes) =
        some 1 ∧
      Along (TradingSystem.step {}) (CloseCloses {}) (TradingSystem.init {} 0 true) openThenClose :=
  ⟨by decide +kernel, close_never_opens (by decide +kernel)⟩

/-- The monitor stops the long out after its close has been approved. -/
def stoppedOutFirst : List TradingEvent :=
  orderFlow (plainProposal 1 "BTC/USDT" .buy 200 two_hundred_pos 100 0 .empty) ++
    [.loopSaved true, .loopSaved true, .loopPublish true, .riskApply,
      .propose (plainProposal 2 "BTC/USDT" .sell 200 two_hundred_pos 90 0 .empty), .riskEvaluate 0 0, .riskPublish,
      .monitorScan, .monitorPrice (some 90), .monitorSaved true, .monitorSaved true, .loopTake, .loopLatency .full]

/-- The approved close then opens a short. -/
theorem close_opens_when_stopped_out : ¬ ∀ (settings : Settings) (now : ℚ) (connected : Bool)
    (es : List TradingEvent), Along (TradingSystem.step settings) (CloseCloses settings)
      (TradingSystem.init settings now connected) es := by
  intro h
  have hrun : ¬ Along (TradingSystem.step {}) (CloseCloses {}) (TradingSystem.init {} 0 true) stoppedOutFirst := by
    decide +kernel
  exact hrun (h {} 0 true stoppedOutFirst)

end MultiAgentTrading
