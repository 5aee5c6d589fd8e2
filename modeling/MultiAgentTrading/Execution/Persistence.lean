import MultiAgentTrading.Execution.BrokerTasks
import MultiAgentTrading.Lib.Runs

/-!
# The persisted portfolio

The calls of the broker at the granularity of the store: a command of `kv_get` or `kv_set` is executed at some moment,
and its reply resumes the call at a later one.  A save reads the cash, writes it, reads the positions and writes them,
and calls overlap in any order.  `moments` has the portfolios that the broker held between complete operations, that
is at every moment at which no `connect` is between its two assignments.  `persisted_is_held` says at which points of a
run what a restart would find in the store is one of them: saves may overlap, but not so that one of them is half
written, and their writes must not overtake each other.
-/

namespace MultiAgentTrading

open PaperBroker Runs

structure Portfolio where
  cash : ℚ
  positions : Dict String PaperPosition
  deriving DecidableEq

def PaperBroker.portfolio (b : PaperBroker) : Portfolio := ⟨b.cashBalance, b.positions⟩

/-- What `connect` makes of the stored values: without a cash value nothing is restored. -/
def PersistedPortfolio.restored (store : PersistedPortfolio) (fresh : Portfolio) : Portfolio :=
  match store.cash with
  | none => fresh
  | some cash => ⟨cash, store.positions.getD fresh.positions⟩

/-- Where a call waits: asleep before its fill, for a command of its restore or of its save to be executed, or for the
reply.  A `kv_set` on its way has the place of the last save begun when its value was read (the cash: of its own). -/
inductive BrokerCall
  | sleeping (assessment : RiskAssessment ℚ) (refPrice : RefPrice)
  | readingCash
  | cashRead (value : Option ℚ)
  | readingPositions
  | positionsRead (value : Option (Dict String PaperPosition))
  | cashSent (cash : ℚ) (turn : ℕ) (next : Option AfterSave)
  | cashStored (next : Option AfterSave)
  | positionsSent (positions : Dict String PaperPosition) (turn : ℕ) (next : Option AfterSave)
  | positionsStored (next : Option AfterSave)
  | ended

namespace BrokerCall

/-- A `connect` between its two assignments. -/
def restoring : BrokerCall → Bool
  | .readingPositions => true
  | .positionsRead _ => true
  | _ => false

/-- The write of the cash that is on its way, and its place. -/
def cashWrite : BrokerCall → Option (ℚ × ℕ)
  | .cashSent cash turn _ => some (cash, turn)
  | _ => none

def positionsWrite : BrokerCall → Option (Dict String PaperPosition × ℕ)
  | .positionsSent positions turn _ => some (positions, turn)
  | _ => none

/-- The save has written the cash and has not read the positions yet. -/
def cashWritten : BrokerCall → Bool
  | .cashStored _ => true
  | _ => false

/-- A save between its two writes. -/
def halfWritten (call : BrokerCall) : Bool := call.cashWritten || call.positionsWrite.isSome

end BrokerCall

/-- History: the portfolios held between complete operations, what the saves begun so far would have stored at once
(the first is what was stored at the start), and the last save begun when the stored positions were read. -/
structure PersistenceRun where
  broker : PaperBroker
  store : PersistedPortfolio
  calls : List BrokerCall := []
  moments : List Portfolio
  saves : List PersistedPortfolio
  readTurn : ℕ := 0

/-- A call; the end of the latency sleep of the `i`-th call; the execution of its command; the reply to it. -/
inductive PersistenceEvent
  | placeOrder (assessment : RiskAssessment ℚ)
  | closePosition (symbol : String) (price : Option ℚ) (proposalId assessmentId resultId : ℕ)
  | connect
  | disconnect
  | latencyOver (i : ℕ) (choice : FillChoice) (resultId : ℕ)
  | execute (i : ℕ)
  | reply (i : ℕ)

namespace PersistenceRun

/-- A broker that has not connected, on a store.  What the store holds was held before. -/
def init (settings : Settings) (store : PersistedPortfolio) : PersistenceRun where
  broker := .init settings
  store := store
  moments := [store.restored (PaperBroker.init settings).portfolio, (PaperBroker.init settings).portfolio]
  saves := [store]

def start (s : PersistenceRun) (call : BrokerCall) : PersistenceRun := { s with calls := s.calls ++ [call] }

def goOn (s : PersistenceRun) (i : ℕ) (call : BrokerCall) : PersistenceRun := { s with calls := s.calls.set i call }

/-- `_save_portfolio_state` begins, and goes up to its first await. -/
def beginSave (s : PersistenceRun) : PersistenceRun :=
  { s with saves := s.saves ++ [⟨some s.broker.cashBalance, some s.broker.positions⟩] }

def save (s : PersistenceRun) (next : Option AfterSave) : BrokerCall :=
  .cashSent s.broker.cashBalance s.saves.length next

/-- A call begins with a save, or goes on with one. -/
def startSave (s : PersistenceRun) (next : Option AfterSave) : PersistenceRun := s.beginSave.start (s.save next)

def goOnSave (s : PersistenceRun) (i : ℕ) (next : Option AfterSave) : PersistenceRun :=
  s.beginSave.goOn i (s.save next)

/-- The end of a call whose save is done. -/
def finish (b : PaperBroker) : Option AfterSave → PaperBroker
  | some (.rememberAndReply proposalId result) => b.remember proposalId result
  | _ => b

/-- The command that the call waits for is executed. -/
def executed (s : PersistenceRun) (i : ℕ) : BrokerCall → Option PersistenceRun
  | .readingCash => some (s.goOn i (.cashRead s.store.cash))
  | .readingPositions => some (s.goOn i (.positionsRead s.store.positions))
  | .cashSent cash _ next =>
    some ({ s with store := { s.store with cash := some cash } }.goOn i (.cashStored next))
  | .positionsSent positions turn next =>
    some ({ s with store := { s.store with positions := some positions }, readTurn := turn }.goOn i
      (.positionsStored next))
  | _ => none

/-- The call goes on with the reply to its command. -/
def replied (s : PersistenceRun) (i : ℕ) : BrokerCall → Option PersistenceRun
  | .cashRead none => some (s.goOnSave i none)
  | .cashRead (some cash) =>
    some ({ s with broker := { s.broker with cashBalance := cash } }.goOn i .readingPositions)
  | .positionsRead none => some (s.goOnSave i none)
  | .positionsRead (some positions) =>
    some ({ s with broker := { s.broker with positions := positions } }.goOnSave i none)
  -- the positions are read from the portfolio as it is now
  | .cashStored next => some (s.goOn i (.positionsSent s.broker.positions (s.saves.length - 1) next))
  | .positionsStored next => some ({ s with broker := finish s.broker next }.goOn i .ended)
  | _ => none

def advance (settings : Settings) (s : PersistenceRun) : PersistenceEvent → Option PersistenceRun
  | .placeOrder a =>
    match s.broker.acceptOrder settings a with
    | .ok (.inr refPrice) => some (s.start (.sleeping a refPrice))
    | _ => some (s.start .ended)
  | .closePosition symbol price proposalId assessmentId resultId =>
    match s.broker.closePosition symbol price proposalId assessmentId resultId with
    | none => some (s.start .ended)
    | some c => some ({ s with broker := c.broker }.startSave (some (.reply c.result)))
  | .connect => some (s.start .readingCash)
  | .disconnect => some (s.startSave none)
  | .latencyOver i choice resultId =>
    match s.calls[i]? with
    | some (.sleeping a refPrice) =>
      match s.broker.fillOrder a refPrice choice resultId with
      | .error _ => some (s.goOn i .ended)
      | .ok (.opened broker _ result) => some ({ s with broker := broker }.goOnSave i (some (.reply result)))
      | .ok (.closed c) =>
        some ({ s with broker := c.broker }.goOnSave i (some (.rememberAndReply a.proposalId c.result)))
    | _ => none
  | .execute i => (s.calls[i]?).bind (s.executed i)
  | .reply i => (s.calls[i]?).bind (s.replied i)

/-- No `connect` is between its two assignments. -/
def settled (s : PersistenceRun) : Bool := s.calls.all fun call => !call.restoring

/-- Note the portfolio, if it is one between complete operations. -/
def note (s : PersistenceRun) : PersistenceRun :=
  if s.settled then { s with moments := s.moments ++ [s.broker.portfolio] } else s

def step (settings : Settings) (s : PersistenceRun) (e : PersistenceEvent) : Option PersistenceRun :=
  (s.advance settings e).map note

/-- The calls other than the one that goes on. -/
def others (s : PersistenceRun) : PersistenceEvent → List BrokerCall
  | .latencyOver i _ _ => s.calls.eraseIdx i
  | .execute i => s.calls.eraseIdx i
  | .reply i => s.calls.eraseIdx i
  | _ => s.calls

/-- No save begins while another call is inside a restore. -/
def BeginsSettled (settings : Settings) (s : PersistenceRun) (e : PersistenceEvent) : Prop :=
  ((s.advance settings e).any fun s' => s.saves.length < s'.saves.length) = true →
    ∀ call ∈ s.others e, call.restoring = false

instance (settings : Settings) (s : PersistenceRun) (e : PersistenceEvent) : Decidable (s.BeginsSettled settings e) :=
  inferInstanceAs (Decidable (_ → _))

/-- A write is executed when no write to the same key is on its way whose value was read before. -/
def WritesInOrder (s : PersistenceRun) : PersistenceEvent → Prop
  | .execute i => ∀ call ∈ s.calls[i]?,
      (∀ v ∈ call.cashWrite, ∀ other ∈ s.calls, ∀ v' ∈ other.cashWrite, v.2 ≤ v'.2) ∧
      ∀ v ∈ call.positionsWrite, ∀ other ∈ s.calls, ∀ v' ∈ other.positionsWrite, v.2 ≤ v'.2
  | _ => True

instance (s : PersistenceRun) : ∀ e, Decidable (s.WritesInOrder e)
  | .placeOrder _ => isTrue trivial
  | .closePosition _ _ _ _ _ => isTrue trivial
  | .connect => isTrue trivial
  | .disconnect => isTrue trivial
  | .latencyOver _ _ _ => isTrue trivial
  | .execute _ => inferInstanceAs (Decidable (∀ _ ∈ _, _ ∧ _))
  | .reply _ => isTrue trivial

/-- What is asked of the steps of a run. -/
def InOrder (settings : Settings) (s : PersistenceRun) (e : PersistenceEvent) : Prop :=
  s.BeginsSettled settings e ∧ s.WritesInOrder e

instance (settings : Settings) (s : PersistenceRun) (e : PersistenceEvent) : Decidable (s.InOrder settings e) :=
  inferInstanceAs (Decidable (_ ∧ _))

/-- A point between saves: none has written its cash and not its positions, and none that waits to write its cash had
begun when the stored positions were read. -/
def Whole (s : PersistenceRun) : Prop :=
  ∀ call ∈ s.calls, call.halfWritten = false ∧ ∀ v ∈ call.cashWrite, s.readTurn < v.2

instance (s : PersistenceRun) : Decidable s.Whole := inferInstanceAs (Decidable (∀ _ ∈ _, _ ∧ _))

/-- What a run in order keeps.  The stored cash is that of save `w`, the stored positions are those of the save at
`readTurn`, and what each write on its way brings is part of the save of its place; every save after `w` waits to write
its cash, and the positions are those of `w` or a later save, unless a save that is half written will see to that. -/
structure Ordered (fresh : Portfolio) (w : ℕ) (s : PersistenceRun) : Prop where
  held : ∀ p ∈ s.saves, p.restored fresh ∈ s.moments
  cash : ∃ p, s.saves[w]? = some p ∧ p.cash = s.store.cash
  positions : ∃ p, s.saves[s.readTurn]? = some p ∧ p.positions = s.store.positions
  last : 1 < s.saves.length → ∃ p, s.saves[s.saves.length - 1]? = some p ∧ p.positions = some s.broker.positions
  cashWrites : ∀ call ∈ s.calls, ∀ v ∈ call.cashWrite,
    0 < v.2 ∧ w ≤ v.2 ∧ ∃ p, s.saves[v.2]? = some p ∧ p.cash = some v.1
  waiting : ∀ turn, w < turn → turn < s.saves.length → ∃ call ∈ s.calls, ∃ v ∈ call.cashWrite, v.2 = turn
  begun : ∀ call ∈ s.calls, call.cashWritten = true → 1 < s.saves.length
  positionsWrites : ∀ call ∈ s.calls, ∀ v ∈ call.positionsWrite,
    s.readTurn ≤ v.2 ∧ ∃ p, s.saves[v.2]? = some p ∧ p.positions = some v.1
  catchesUp : w ≤ s.readTurn ∨ ∃ call ∈ s.calls, call.cashWritten = true ∨ ∃ v ∈ call.positionsWrite, w ≤ v.2

/-- At a whole point both keys are of the same save. -/
private theorem Ordered.restored {fresh : Portfolio} {w : ℕ} {s : PersistenceRun} (h : s.Ordered fresh w)
    (hwhole : s.Whole) : s.store.restored fresh ∈ s.moments := by
  obtain ⟨p, hp, hcash⟩ := h.cash
  obtain ⟨q, hq, hpositions⟩ := h.positions
  have hle : w ≤ s.readTurn := by
    rcases h.catchesUp with hle | ⟨call, hcall, hhalf⟩
    · exact hle
    · have hnot := (hwhole call hcall).1
      simp only [BrokerCall.halfWritten, Bool.or_eq_false_iff, Option.isSome_eq_false_iff, Option.isNone_iff_eq_none]
        at hnot
      rcases hhalf with hwritten | ⟨v, hv, -⟩
      · rw [hnot.1] at hwritten
        cases hwritten
      · rw [hnot.2] at hv
        cases hv
  have hge : s.readTurn ≤ w := by
    by_contra hlt
    obtain ⟨call, hcall, v, hv, hturn⟩ := h.waiting s.readTurn (by omega) (List.getElem?_eq_some_iff.1 hq).1
    have := (hwhole call hcall).2 v hv
    omega
  obtain rfl : w = s.readTurn := le_antisymm hle hge
  obtain rfl : p = q := Option.some.inj (hp.symm.trans hq)
  have hstore : s.store = p :=
    calc s.store = ⟨s.store.cash, s.store.positions⟩ := rfl
      _ = ⟨p.cash, p.positions⟩ := by rw [hcash, hpositions]
      _ = p := rfl
  rw [hstore]
  exact h.held p (List.mem_of_getElem? hp)

private theorem Ordered.init (settings : Settings) (store : PersistedPortfolio) :
    (PersistenceRun.init settings store).Ordered (PaperBroker.init settings).portfolio 0 where
  held p hp := by
    obtain rfl := List.mem_singleton.1 hp
    exact List.mem_cons_self
  cash := ⟨store, rfl, rfl⟩
  positions := ⟨store, rfl, rfl⟩
  last hlt := absurd hlt (lt_irrefl 1)
  cashWrites call hcall := absurd hcall List.not_mem_nil
  waiting turn hlt hlt' := absurd hlt' (not_lt_of_ge hlt)
  begun call hcall := absurd hcall List.not_mem_nil
  positionsWrites call hcall := absurd hcall List.not_mem_nil
  catchesUp := .inl le_rfl

private theorem note_eq (s : PersistenceRun) : ∃ moments, s.note = { s with moments := moments } ∧
    s.moments ⊆ moments ∧ (s.settled = true → s.broker.portfolio ∈ moments) := by
  unfold note
  split
  case isTrue => exact ⟨_, rfl, List.subset_append_left _ _, fun _ => by simp⟩
  case isFalse h => exact ⟨_, rfl, List.Subset.refl _, fun hs => absurd hs h⟩

private theorem mem_set_of_ne {calls : List BrokerCall} {i : ℕ} {old new call : BrokerCall}
    (hold : calls[i]? = some old) (hcall : call ∈ calls) (hne : call ≠ old) : call ∈ calls.set i new := by
  obtain ⟨j, hj⟩ := List.getElem?_of_mem hcall
  have hij : i ≠ j := by
    rintro rfl
    exact hne (Option.some.inj (hj.symm.trans hold))
  exact List.mem_of_getElem? ((List.getElem?_set_ne hij).trans hj)

/-- Whether a save of the call is under way. -/
private def saving (call : BrokerCall) : Bool := call.cashWrite.isSome || call.halfWritten

private theorem saving_of_cashWrite {call : BrokerCall} {v : ℚ × ℕ} (h : v ∈ call.cashWrite) : saving call = true := by
  rw [saving, Option.mem_def.1 h, Option.isSome_some, Bool.true_or]

private theorem saving_of_cashWritten {call : BrokerCall} (h : call.cashWritten = true) : saving call = true := by
  rw [saving, BrokerCall.halfWritten, h, Bool.true_or, Bool.or_true]

private theorem saving_of_positionsWrite {call : BrokerCall} {v : Dict String PaperPosition × ℕ}
    (h : v ∈ call.positionsWrite) : saving call = true := by
  rw [saving, BrokerCall.halfWritten, Option.mem_def.1 h, Option.isSome_some, Bool.or_true, Bool.or_true]

/-- Replacing a call that does not save by `new`. -/
private theorem mem_goOn {calls : List BrokerCall} {i : ℕ} {old new : BrokerCall} (hold : calls[i]? = some old)
    (hidle : saving old = false) {call : BrokerCall} (hsaving : saving call = true) :
    call ∈ calls.set i new ↔ call ∈ calls ∨ call = new := by
  constructor
  · exact List.mem_or_eq_of_mem_set
  · rintro (hcall | rfl)
    · refine mem_set_of_ne hold hcall ?_
      rintro rfl
      exact Bool.noConfusion (hsaving.symm.trans hidle)
    · exact List.mem_set (List.getElem?_eq_some_iff.1 hold).1 _

private theorem mem_start {calls : List BrokerCall} {new call : BrokerCall} :
    call ∈ calls ++ [new] ↔ call ∈ calls ∨ call = new := by
  rw [List.mem_append, List.mem_singleton]

/-- A step that begins no save, executes no write and reads nothing for one. -/
private theorem Ordered.of_idle {fresh : Portfolio} {w : ℕ} {s t : PersistenceRun} (h : s.Ordered fresh w)
    (hmoments : s.moments ⊆ t.moments) (hsaves : t.saves = s.saves) (hstore : t.store = s.store)
    (hturn : t.readTurn = s.readTurn) (hpositions : t.broker.positions = s.broker.positions)
    (hcalls : ∀ call, saving call = true → (call ∈ t.calls ↔ call ∈ s.calls)) : t.Ordered fresh w where
  held p hp := hmoments (h.held p (hsaves ▸ hp))
  cash := by rw [hsaves, hstore]; exact h.cash
  positions := by rw [hsaves, hstore, hturn]; exact h.positions
  last := by rw [hsaves, hpositions]; exact h.last
  cashWrites call hcall v hv := by
    rw [hsaves]
    exact h.cashWrites call ((hcalls call (saving_of_cashWrite hv)).1 hcall) v hv
  waiting turn hw hlt := by
    rw [hsaves] at hlt
    obtain ⟨call, hcall, v, hv, hturn⟩ := h.waiting turn hw hlt
    exact ⟨call, (hcalls call (saving_of_cashWrite hv)).2 hcall, v, hv, hturn⟩
  begun call hcall hwritten := by
    rw [hsaves]
    exact h.begun call ((hcalls call (saving_of_cashWritten hwritten)).1 hcall) hwritten
  positionsWrites call hcall v hv := by
    rw [hsaves, hturn]
    exact h.positionsWrites call ((hcalls call (saving_of_positionsWrite hv)).1 hcall) v hv
  catchesUp := by
    rw [hturn]
    refine h.catchesUp.imp_right ?_
    rintro ⟨call, hcall, hwritten | ⟨v, hv, hle⟩⟩
    · exact ⟨call, (hcalls call (saving_of_cashWritten hwritten)).2 hcall, .inl hwritten⟩
    · exact ⟨call, (hcalls call (saving_of_positionsWrite hv)).2 hcall, .inr ⟨v, hv, hle⟩⟩

/-- A save begins at a moment between complete operations. -/
private theorem Ordered.of_begun {fresh : Portfolio} {w : ℕ} {s t : PersistenceRun} {next : Option AfterSave}
    (h : s.Ordered fresh w) (hmoments : s.moments ⊆ t.moments) (hportfolio : t.broker.portfolio ∈ t.moments)
    (hsaves : t.saves = s.saves ++ [⟨some t.broker.cashBalance, some t.broker.positions⟩]) (hstore : t.store = s.store)
    (hturn : t.readTurn = s.readTurn)
    (hcalls : ∀ call, saving call = true →
      (call ∈ t.calls ↔ call ∈ s.calls ∨ call = .cashSent t.broker.cashBalance s.saves.length next)) :
    t.Ordered fresh w := by
  have hlength : t.saves.length = s.saves.length + 1 := by rw [hsaves, List.length_append]; rfl
  have hlast : t.saves[s.saves.length]? = some ⟨some t.broker.cashBalance, some t.broker.positions⟩ := by
    rw [hsaves, List.getElem?_concat_length]
  -- the saves begun before keep their places
  have hkeep : ∀ (turn : ℕ) (p : PersistedPortfolio), s.saves[turn]? = some p → t.saves[turn]? = some p := by
    intro turn p hp
    rw [hsaves, List.getElem?_append_left (List.getElem?_eq_some_iff.1 hp).1, hp]
  have hw : w < s.saves.length := by
    obtain ⟨p, hp, -⟩ := h.cash
    exact (List.getElem?_eq_some_iff.1 hp).1
  refine
    { held := ?held, cash := ?cash, positions := ?positions, last := ?last,
      cashWrites := ?cashWrites, waiting := ?waiting, begun := ?begun, positionsWrites := ?positionsWrites,
      catchesUp := ?catchesUp }
  case held =>
    intro p hp
    rw [hsaves] at hp
    rcases List.mem_append.1 hp with hp | hp
    · exact hmoments (h.held p hp)
    · obtain rfl := List.mem_singleton.1 hp
      exact hportfolio
  case cash =>
    obtain ⟨p, hp, hcash⟩ := h.cash
    exact ⟨p, hkeep w p hp, by rw [hstore, hcash]⟩
  case positions =>
    obtain ⟨p, hp, hpositions⟩ := h.positions
    rw [hturn, hstore]
    exact ⟨p, hkeep _ p hp, hpositions⟩
  case last =>
    intro _
    rw [hlength]
    exact ⟨_, hlast, rfl⟩
  case cashWrites =>
    intro call hcall v hv
    rcases (hcalls call (saving_of_cashWrite hv)).1 hcall with hold | rfl
    · obtain ⟨hpos, hle, p, hp, hcash⟩ := h.cashWrites call hold v hv
      exact ⟨hpos, hle, p, hkeep _ p hp, hcash⟩
    · obtain rfl := Option.mem_some.1 hv
      exact ⟨by omega, hw.le, _, hlast, rfl⟩
  case waiting =>
    intro turn hlt hlt'
    rcases Nat.lt_or_eq_of_le (Nat.le_of_lt_succ (hlength ▸ hlt')) with hold | rfl
    · obtain ⟨call, hcall, v, hv, hturn⟩ := h.waiting turn hlt hold
      exact ⟨call, (hcalls call (saving_of_cashWrite hv)).2 (.inl hcall), v, hv, hturn⟩
    · exact ⟨_, (hcalls _ (saving_of_cashWrite rfl)).2 (.inr rfl), _, rfl, rfl⟩
  case begun =>
    intro call hcall hwritten
    omega
  case positionsWrites =>
    intro call hcall v hv
    rcases (hcalls call (saving_of_positionsWrite hv)).1 hcall with hold | rfl
    · obtain ⟨hle, p, hp, hpositions⟩ := h.positionsWrites call hold v hv
      rw [hturn]
      exact ⟨hle, p, hkeep _ p hp, hpositions⟩
    · cases hv
  case catchesUp =>
    rw [hturn]
    refine h.catchesUp.imp_right ?_
    rintro ⟨call, hcall, hwritten | ⟨v, hv, hle⟩⟩
    · exact ⟨call, (hcalls call (saving_of_cashWritten hwritten)).2 (.inl hcall), .inl hwritten⟩
    · exact ⟨call, (hcalls call (saving_of_positionsWrite hv)).2 (.inl hcall), .inr ⟨v, hv, hle⟩⟩

private theorem forall_set {calls : List BrokerCall} {P : BrokerCall → Prop} (h : ∀ call ∈ calls, P call) (i : ℕ)
    {new : BrokerCall} (hnew : P new) : ∀ call ∈ calls.set i new, P call := by
  intro call hcall
  rcases List.mem_or_eq_of_mem_set hcall with hcall | rfl
  · exact h call hcall
  · exact hnew

private theorem exists_set {calls : List BrokerCall} {P : BrokerCall → Prop} (h : ∃ call ∈ calls, P call) {i : ℕ}
    {old new : BrokerCall} (hold : calls[i]? = some old) (hnot : ¬P old) : ∃ call ∈ calls.set i new, P call := by
  obtain ⟨call, hcall, hP⟩ := h
  exact ⟨call, mem_set_of_ne hold hcall fun heq => hnot (heq ▸ hP), hP⟩

/-- The first of the writes of the cash is executed: the stored cash is that of its save. -/
private theorem Ordered.cashExecuted {fresh : Portfolio} {w : ℕ} {s : PersistenceRun} (h : s.Ordered fresh w) {i : ℕ}
    {cash : ℚ} {turn : ℕ} {next : Option AfterSave} (hold : s.calls[i]? = some (.cashSent cash turn next))
    (hfirst : ∀ other ∈ s.calls, ∀ v ∈ other.cashWrite, turn ≤ v.2) :
    ({ s with store := { s.store with cash := some cash } }.goOn i (.cashStored next)).Ordered fresh turn := by
  obtain ⟨hpos, hle, p, hp, hcash⟩ := h.cashWrites _ (List.mem_of_getElem? hold) (cash, turn) rfl
  have hturn : turn < s.saves.length := (List.getElem?_eq_some_iff.1 hp).1
  have hnew : BrokerCall.cashStored next ∈ s.calls.set i (.cashStored next) :=
    List.mem_set (List.getElem?_eq_some_iff.1 hold).1 _
  refine
    { held := h.held, cash := ⟨p, hp, hcash⟩, positions := h.positions, last := h.last, cashWrites := ?cashWrites,
      waiting := ?waiting, begun := fun _ _ _ => lt_of_le_of_lt hpos hturn,
      positionsWrites := forall_set h.positionsWrites i nofun, catchesUp := .inr ⟨_, hnew, .inl rfl⟩ }
  case cashWrites =>
    refine forall_set (fun call hcall v hv => ?_) i nofun
    obtain ⟨hpos, -, hvalue⟩ := h.cashWrites call hcall v hv
    exact ⟨hpos, hfirst call hcall v hv, hvalue⟩
  case waiting =>
    intro later hlt hlt'
    refine exists_set (h.waiting later (by omega) hlt') hold ?_
    rintro ⟨v, hv, rfl⟩
    obtain rfl := Option.mem_some.1 hv
    exact absurd hlt (lt_irrefl _)

/-- A save goes on to its positions, and reads those of the last save begun. -/
private theorem Ordered.positionsRead {fresh : Portfolio} {w : ℕ} {s : PersistenceRun} (h : s.Ordered fresh w) {i : ℕ}
    {next : Option AfterSave} (hold : s.calls[i]? = some (.cashStored next)) :
    (s.goOn i (.positionsSent s.broker.positions (s.saves.length - 1) next)).Ordered fresh w := by
  obtain ⟨p, hp, hpositions⟩ := h.last (h.begun _ (List.mem_of_getElem? hold) rfl)
  obtain ⟨r, hr, -⟩ := h.positions
  obtain ⟨c, hc, -⟩ := h.cash
  have hread : s.readTurn < s.saves.length := (List.getElem?_eq_some_iff.1 hr).1
  have hw : w < s.saves.length := (List.getElem?_eq_some_iff.1 hc).1
  have hnew : BrokerCall.positionsSent s.broker.positions (s.saves.length - 1) next ∈ s.calls.set i _ :=
    List.mem_set (List.getElem?_eq_some_iff.1 hold).1 _
  refine
    { held := h.held, cash := h.cash, positions := h.positions, last := h.last,
      cashWrites := forall_set h.cashWrites i nofun,
      waiting := fun turn hlt hlt' => exists_set (h.waiting turn hlt hlt') hold nofun,
      begun := forall_set h.begun i nofun, positionsWrites := forall_set h.positionsWrites i ?positionsWrites,
      catchesUp := .inr ⟨_, hnew, .inr ⟨_, rfl, Nat.le_sub_one_of_lt hw⟩⟩ }
  case positionsWrites =>
    intro v hv
    obtain rfl := Option.mem_some.1 hv
    exact ⟨Nat.le_sub_one_of_lt hread, p, hp, hpositions⟩

/-- The first of the writes of the positions is executed. -/
private theorem Ordered.positionsExecuted {fresh : Portfolio} {w : ℕ} {s : PersistenceRun} (h : s.Ordered fresh w)
    {i : ℕ} {positions : Dict String PaperPosition} {turn : ℕ} {next : Option AfterSave}
    (hold : s.calls[i]? = some (.positionsSent positions turn next))
    (hfirst : ∀ other ∈ s.calls, ∀ v ∈ other.positionsWrite, turn ≤ v.2) :
    ({ s with store := { s.store with positions := some positions }, readTurn := turn }.goOn i
      (.positionsStored next)).Ordered fresh w := by
  obtain ⟨hread, p, hp, hpositions⟩ := h.positionsWrites _ (List.mem_of_getElem? hold) (positions, turn) rfl
  refine
    { held := h.held, cash := h.cash, positions := ⟨p, hp, hpositions⟩, last := h.last,
      cashWrites := forall_set h.cashWrites i nofun,
      waiting := fun later hlt hlt' => exists_set (h.waiting later hlt hlt') hold nofun,
      begun := forall_set h.begun i nofun, positionsWrites := ?positionsWrites, catchesUp := ?catchesUp }
  case positionsWrites =>
    refine forall_set (fun call hcall v hv => ?_) i nofun
    exact ⟨hfirst call hcall v hv, (h.positionsWrites call hcall v hv).2⟩
  case catchesUp =>
    rcases h.catchesUp with hle | hcatches
    · exact .inl (hle.trans hread)
    · by_cases hbehind : w ≤ turn
      · exact .inl hbehind
      · refine .inr (exists_set hcatches hold ?_)
        rintro (hwritten | ⟨v, hv, hle⟩)
        · cases hwritten
        · obtain rfl := Option.mem_some.1 hv
          exact hbehind hle

/-- Where the step notes the portfolio nothing else changes. -/
private theorem Ordered.note {fresh : Portfolio} {w : ℕ} {s : PersistenceRun} (h : s.Ordered fresh w) :
    s.note.Ordered fresh w := by
  obtain ⟨moments, heq, hmoments, -⟩ := note_eq s
  rw [heq]
  exact h.of_idle hmoments rfl rfl rfl rfl fun _ _ => Iff.rfl

/-- A call that does not save begins, or goes on. -/
private theorem Ordered.start {fresh : Portfolio} {w : ℕ} {s : PersistenceRun} (h : s.Ordered fresh w)
    {call : BrokerCall} (hcall : saving call = false) : (s.start call).Ordered fresh w := by
  refine h.of_idle (List.Subset.refl _) rfl rfl rfl rfl fun c hc => ?_
  rw [PersistenceRun.start, mem_start]
  refine or_iff_left ?_
  rintro rfl
  exact Bool.noConfusion (hc.symm.trans hcall)

private theorem Ordered.goOn {fresh : Portfolio} {w : ℕ} {s : PersistenceRun} (h : s.Ordered fresh w)
    (b : PaperBroker) (hb : b.positions = s.broker.positions) {i : ℕ} {old new : BrokerCall}
    (hold : s.calls[i]? = some old) (hidle : saving old = false) (hnew : saving new = false) :
    (({ s with broker := b } : PersistenceRun).goOn i new).Ordered fresh w := by
  refine h.of_idle (List.Subset.refl _) rfl rfl rfl hb fun c hc => ?_
  rw [PersistenceRun.goOn, mem_goOn hold hidle hc]
  refine or_iff_left ?_
  rintro rfl
  exact Bool.noConfusion (hc.symm.trans hnew)

private theorem settled_iff {s : PersistenceRun} : s.settled = true ↔ ∀ c ∈ s.calls, c.restoring = false := by
  simp [settled, List.all_eq_true]

private theorem settled_set {calls : List BrokerCall} {i : ℕ} {call : BrokerCall}
    (h : ∀ c ∈ calls.eraseIdx i, c.restoring = false) (hcall : call.restoring = false) :
    ∀ c ∈ calls.set i call, c.restoring = false := by
  rcases Nat.lt_or_ge i calls.length with hi | hi
  · rw [List.set_eq_take_append_cons_drop, if_pos hi]
    rw [List.eraseIdx_eq_take_drop_succ] at h
    intro c hc
    simp only [List.mem_append, List.mem_cons] at hc h
    rcases hc with hc | rfl | hc
    · exact h c (.inl hc)
    · exact hcall
    · exact h c (.inr hc)
  · rw [List.set_eq_of_length_le hi]
    rw [List.eraseIdx_of_length_le hi] at h
    exact h

/-- A call begins with a save, or goes on with one, at a settled moment. -/
private theorem Ordered.startSave {fresh : Portfolio} {w : ℕ} {s : PersistenceRun} (h : s.Ordered fresh w)
    (b : PaperBroker) {next : Option AfterSave} (hsettled : ∀ call ∈ s.calls, call.restoring = false) :
    (({ s with broker := b } : PersistenceRun).startSave next).note.Ordered fresh w := by
  obtain ⟨moments, heq, hmoments, hportfolio⟩ := note_eq (({ s with broker := b } : PersistenceRun).startSave next)
  have hsettled' : (({ s with broker := b } : PersistenceRun).startSave next).settled = true := by
    refine settled_iff.2 fun call hcall => ?_
    rcases mem_start.1 hcall with hcall | rfl
    · exact hsettled call hcall
    · rfl
  rw [heq]
  exact h.of_begun hmoments (hportfolio hsettled') rfl rfl rfl fun _ _ => mem_start

private theorem Ordered.goOnSave {fresh : Portfolio} {w : ℕ} {s : PersistenceRun} (h : s.Ordered fresh w)
    (b : PaperBroker) {i : ℕ} {old : BrokerCall} {next : Option AfterSave} (hold : s.calls[i]? = some old)
    (hidle : saving old = false) (hsettled : ∀ call ∈ s.calls.eraseIdx i, call.restoring = false) :
    (({ s with broker := b } : PersistenceRun).goOnSave i next).note.Ordered fresh w := by
  obtain ⟨moments, heq, hmoments, hportfolio⟩ := note_eq (({ s with broker := b } : PersistenceRun).goOnSave i next)
  have hsettled' : (({ s with broker := b } : PersistenceRun).goOnSave i next).settled = true :=
    settled_iff.2 (settled_set hsettled rfl)
  rw [heq]
  exact h.of_begun hmoments (hportfolio hsettled') rfl rfl rfl fun _ hc => mem_goOn hold hidle hc

private theorem length_lt_startSave {s : PersistenceRun} {b : PaperBroker} {next : Option AfterSave} :
    s.saves.length < (({ s with broker := b } : PersistenceRun).startSave next).saves.length := by
  simp [PersistenceRun.startSave, beginSave, PersistenceRun.start]

private theorem length_lt_goOnSave {s : PersistenceRun} {b : PaperBroker} {i : ℕ} {next : Option AfterSave} :
    s.saves.length < (({ s with broker := b } : PersistenceRun).goOnSave i next).saves.length := by
  simp [PersistenceRun.goOnSave, beginSave, PersistenceRun.goOn]

private theorem positions_finish (b : PaperBroker) (next : Option AfterSave) :
    (finish b next).positions = b.positions := by
  rcases next with _ | _ | _ <;> rfl

/-- Executing a command reads a key, or is the first of the writes to its key. -/
private theorem Ordered.executed {fresh : Portfolio} {w : ℕ} {s s' : PersistenceRun} {i : ℕ} {call : BrokerCall}
    (h : s.Ordered fresh w) (hcall : s.calls[i]? = some call) (horder : s.WritesInOrder (.execute i))
    (hstep : s.executed i call = some s') : ∃ w', s'.Ordered fresh w' := by
  obtain ⟨hcash, hpositions⟩ := horder call hcall
  cases call with
  | readingCash =>
    cases hstep
    exact ⟨w, h.goOn s.broker rfl hcall rfl rfl⟩
  | readingPositions =>
    cases hstep
    exact ⟨w, h.goOn s.broker rfl hcall rfl rfl⟩
  | cashSent cash turn next =>
    cases hstep
    exact ⟨turn, h.cashExecuted hcall (hcash _ rfl)⟩
  | positionsSent positions turn next =>
    cases hstep
    exact ⟨w, h.positionsExecuted hcall (hpositions _ rfl)⟩
  | sleeping a refPrice => cases hstep
  | cashRead value => cases hstep
  | positionsRead value => cases hstep
  | cashStored next => cases hstep
  | positionsStored next => cases hstep
  | ended => cases hstep

/-- A reply lets the call restore, save, go on to its positions, or end. -/
private theorem Ordered.replied {fresh : Portfolio} {w : ℕ} {s s' : PersistenceRun} {i : ℕ} {call : BrokerCall}
    (h : s.Ordered fresh w) (hcall : s.calls[i]? = some call) (hstep : s.replied i call = some s')
    (hbegins : s.saves.length < s'.saves.length → ∀ c ∈ s.calls.eraseIdx i, c.restoring = false) :
    s'.note.Ordered fresh w := by
  cases call with
  | cashRead value =>
    cases value with
    | none =>
      cases hstep
      exact h.goOnSave s.broker hcall rfl (hbegins length_lt_goOnSave)
    | some cash =>
      cases hstep
      exact (h.goOn { s.broker with cashBalance := cash } rfl hcall rfl rfl).note
  | positionsRead value =>
    cases value with
    | none =>
      cases hstep
      exact h.goOnSave s.broker hcall rfl (hbegins length_lt_goOnSave)
    | some positions =>
      cases hstep
      exact h.goOnSave _ hcall rfl (hbegins length_lt_goOnSave)
  | cashStored next =>
    cases hstep
    exact (h.positionsRead hcall).note
  | positionsStored next =>
    cases hstep
    exact (h.goOn _ (positions_finish s.broker next) hcall rfl rfl).note
  | sleeping a refPrice => cases hstep
  | readingCash => cases hstep
  | readingPositions => cases hstep
  | cashSent cash turn next => cases hstep
  | positionsSent positions turn next => cases hstep
  | ended => cases hstep

private theorem Ordered.step {fresh : Portfolio} {settings : Settings} {w : ℕ} {s s' : PersistenceRun}
    {e : PersistenceEvent} (h : s.Ordered fresh w) (horder : s.InOrder settings e)
    (hstep : step settings s e = some s') : ∃ w', s'.Ordered fresh w' := by
  obtain ⟨t, hadvance, rfl⟩ := Option.map_eq_some_iff.1 hstep
  have hbegins : s.saves.length < t.saves.length → ∀ call ∈ s.others e, call.restoring = false := by
    intro hlt
    refine horder.1 ?_
    rw [hadvance]
    exact decide_eq_true hlt
  cases e with
  | placeOrder a =>
    simp only [advance] at hadvance
    split at hadvance
    · cases hadvance
      exact ⟨w, (h.start rfl).note⟩
    · cases hadvance
      exact ⟨w, (h.start rfl).note⟩
  | closePosition symbol price proposalId assessmentId resultId =>
    simp only [advance] at hadvance
    split at hadvance
    · cases hadvance
      exact ⟨w, (h.start rfl).note⟩
    · cases hadvance
      exact ⟨w, h.startSave _ (hbegins length_lt_startSave)⟩
  | connect =>
    cases hadvance
    exact ⟨w, (h.start rfl).note⟩
  | disconnect =>
    cases hadvance
    exact ⟨w, h.startSave s.broker (hbegins length_lt_startSave)⟩
  | latencyOver i choice resultId =>
    simp only [advance] at hadvance
    split at hadvance
    case h_2 => cases hadvance
    case h_1 a refPrice hcall =>
      split at hadvance
      · cases hadvance
        exact ⟨w, (h.goOn s.broker rfl hcall rfl rfl).note⟩
      · cases hadvance
        exact ⟨w, h.goOnSave _ hcall rfl (hbegins length_lt_goOnSave)⟩
      · cases hadvance
        exact ⟨w, h.goOnSave _ hcall rfl (hbegins length_lt_goOnSave)⟩
  | execute i =>
    obtain ⟨call, hcall, hexecuted⟩ := Option.bind_eq_some_iff.1 hadvance
    obtain ⟨w', h'⟩ := h.executed hcall horder.2 hexecuted
    exact ⟨w', h'.note⟩
  | reply i =>
    obtain ⟨call, hcall, hreplied⟩ := Option.bind_eq_some_iff.1 hadvance
    exact ⟨w, h.replied hcall hreplied hbegins⟩

end PersistenceRun

/-- In every run in order, what a restart would restore from the store at a whole point is a portfolio that the broker
held between complete operations. -/
theorem persisted_is_held {settings : Settings} {store : PersistedPortfolio} {es : List PersistenceEvent}
    {s : PersistenceRun}
    (horder : Along (PersistenceRun.step settings) (PersistenceRun.InOrder settings)
      (PersistenceRun.init settings store) es)
    (h : exec (PersistenceRun.step settings) (PersistenceRun.init settings store) es = some s) (hwhole : s.Whole) :
    s.store.restored (PaperBroker.init settings).portfolio ∈ s.moments := by
  obtain ⟨w, hordered⟩ : ∃ w, s.Ordered (PaperBroker.init settings).portfolio w :=
    exec_invariant_along (fun s => ∃ w, s.Ordered (PaperBroker.init settings).portfolio w)
      (fun _ _ _ ⟨_, hs⟩ hC hstep => hs.step hC hstep) ⟨0, PersistenceRun.Ordered.init settings store⟩ horder h
  exact hordered.restored hwhole

/-- A broker connects, and an order opens a position; its save is about to write the cash. -/
def openedUnsaved : List PersistenceEvent :=
  [.connect, .execute 0, .reply 0, .execute 0, .reply 0, .execute 0, .reply 0,
    .placeOrder (plainOrder 1 "BTC/USDT" .buy 200 two_hundred_pos 100), .latencyOver 1 .full 0]

/-- Another order opens a position before that save goes on, and the two saves write in turns. -/
def openedTwice : List PersistenceEvent :=
  openedUnsaved ++ [.placeOrder (plainOrder 2 "ETH/USDT" .sell 200 two_hundred_pos 50), .latencyOver 2 .full 1,
    .execute 1, .execute 2, .reply 1, .execute 1, .reply 2, .execute 2]

theorem persisted_is_held_openedTwice : ∃ s,
    exec (PersistenceRun.step {}) (PersistenceRun.init {} {}) openedTwice = some s ∧
      (s.store.positions.map Dict.keys) = some ["BTC/USDT", "ETH/USDT"] ∧
      s.store.restored (PaperBroker.init {}).portfolio ∈ s.moments := by
  have hrun : ((exec (PersistenceRun.step {}) (PersistenceRun.init {} {}) openedTwice).map fun s =>
      (s.store.positions.map Dict.keys, decide s.Whole)) = some (some ["BTC/USDT", "ETH/USDT"], true) := by
    decide +kernel
  obtain ⟨s, hs, hvalues⟩ := Option.map_eq_some_iff.1 hrun
  simp only [Prod.mk.injEq, decide_eq_true_eq] at hvalues
  exact ⟨s, hs, hvalues.1, persisted_is_held (by decide +kernel) hs hvalues.2⟩

/-- Once the cash of the save of `openedUnsaved` is written, and the positions are not, a restart finds the money spent
and no position for it, which the account never had. -/
theorem persisted_is_torn : ¬ ∀ (settings : Settings) (store : PersistedPortfolio) (es : List PersistenceEvent)
    (s : PersistenceRun), exec (PersistenceRun.step settings) (PersistenceRun.init settings store) es = some s →
      s.store.restored (PaperBroker.init settings).portfolio ∈ s.moments := by
  intro h
  have hrun : ((exec (PersistenceRun.step {}) (PersistenceRun.init {} {}) (openedUnsaved ++ [.execute 1])).map fun s =>
      ((s.store.restored (PaperBroker.init {}).portfolio).positions.keys,
        decide ((s.store.restored (PaperBroker.init {}).portfolio).cash < 9800),
        decide (s.store.restored (PaperBroker.init {}).portfolio ∈ s.moments))) = some ([], true, false) := by
    decide +kernel
  obtain ⟨s, hs, hvalues⟩ := Option.map_eq_some_iff.1 hrun
  simp only [Prod.mk.injEq, decide_eq_true_eq, decide_eq_false_iff_not] at hvalues
  exact hvalues.2.2 (h {} {} _ s hs)

end MultiAgentTrading
