import MultiAgentTrading.Trading.Refinement
import Mathlib.Algebra.BigOperators.Group.List.Basic

/-!
# Ledger and broker agree

The ledger lags the broker by the results in flight.  `Books.expected` is the ledger with all of them applied in the
order they were made; the invariant is that it shows the broker's positions, except that an order reserved for opens
later.  A step keeps it when it is `InStep`; then `ledger_agrees` says that with nothing in flight ledger and broker
hold the same positions, and the same money up to half a cent for each close.
-/

namespace MultiAgentTrading

open Runs

/-- Entries and value of a ledger. -/
@[ext] structure Ledger where
  held : String → Option (OrderSide × ℚ)
  value : ℚ

namespace Ledger

/-- The ledger after a result. -/
def settle (l : Ledger) (r : ExecutionResult) : Ledger where
  held := Function.update l.held r.symbol (RiskAgent.settleEntry r (l.held r.symbol))
  value := l.value + RiskAgent.settlePnl r (l.held r.symbol)

/-- The ledger after a list of results. -/
def settleAll (l : Ledger) (rs : List ExecutionResult) : Ledger := rs.foldl settle l

theorem settleAll_append (l : Ledger) (rs rs' : List ExecutionResult) :
    l.settleAll (rs ++ rs') = (l.settleAll rs).settleAll rs' := List.foldl_append

theorem held_settle_self (l : Ledger) (r : ExecutionResult) :
    (l.settle r).held r.symbol = RiskAgent.settleEntry r (l.held r.symbol) := Function.update_self ..

theorem held_settle_of_ne {l : Ledger} {r : ExecutionResult} {symbol : String} (h : symbol ≠ r.symbol) :
    (l.settle r).held symbol = l.held symbol := Function.update_of_ne h ..

/-- Results of different symbols can be applied in either order. -/
theorem settle_comm (l : Ledger) {r m : ExecutionResult} (h : r.symbol ≠ m.symbol) :
    (l.settle r).settle m = (l.settle m).settle r := by
  apply Ledger.ext
  · funext symbol
    by_cases hr : symbol = r.symbol
    · rw [hr, held_settle_of_ne h, held_settle_self, held_settle_self, held_settle_of_ne h]
    · rw [held_settle_of_ne hr]
      by_cases hm : symbol = m.symbol
      · rw [hm, held_settle_self, held_settle_self, held_settle_of_ne h.symm]
      · rw [held_settle_of_ne hm, held_settle_of_ne hm, held_settle_of_ne hr]
  · show l.value + RiskAgent.settlePnl r (l.held r.symbol) + RiskAgent.settlePnl m ((l.settle r).held m.symbol) =
      l.value + RiskAgent.settlePnl m (l.held m.symbol) + RiskAgent.settlePnl r ((l.settle m).held r.symbol)
    rw [held_settle_of_ne h.symm, held_settle_of_ne h]
    ring

private theorem settleAll_swap (l : Ledger) {rs ms : List ExecutionResult} (hrs : rs.length ≤ 1) (hms : ms.length ≤ 1)
    (h : ∀ r ∈ rs, ∀ m ∈ ms, r.symbol ≠ m.symbol) : l.settleAll (rs ++ ms) = l.settleAll (ms ++ rs) := by
  rcases rs with _ | ⟨r, _ | ⟨r', rs⟩⟩
  · rw [List.nil_append, List.append_nil]
  · rcases ms with _ | ⟨m, _ | ⟨m', ms⟩⟩
    · rw [List.nil_append, List.append_nil]
    · exact settle_comm l (h r (List.mem_singleton_self r) m (List.mem_singleton_self m))
    · simp at hms
  · simp at hrs

/-- Two ledgers that differ at most in a reservation on `side` of a symbol that the first holds not at all. -/
structure Reserved (symbol : String) (side : OrderSide) (l l' : Ledger) : Prop where
  other : ∀ symbol', symbol' ≠ symbol → l'.held symbol' = l.held symbol'
  value : l'.value = l.value
  entry : l'.held symbol = l.held symbol ∨
    (l.held symbol = none ∧ (l'.held symbol).map Prod.fst = some side)

/-- A reservation survives every result that is not a fill on the other side. -/
private theorem Reserved.settle {symbol : String} {side : OrderSide} {l l' : Ledger} (h : Reserved symbol side l l')
    {r : ExecutionResult} (hr : r.symbol = symbol → RiskAgent.isFill r = true → r.side = side) :
    Reserved symbol side (l.settle r) (l'.settle r) := by
  by_cases hsymbol : r.symbol = symbol
  · subst hsymbol
    have hother : ∀ symbol', symbol' ≠ r.symbol → (l'.settle r).held symbol' = (l.settle r).held symbol' := by
      intro symbol' hne
      rw [held_settle_of_ne hne, held_settle_of_ne hne, h.other _ hne]
    have hvalue : (l'.settle r).value = l'.value + RiskAgent.settlePnl r (l'.held r.symbol) := rfl
    have hvalue' : (l.settle r).value = l.value + RiskAgent.settlePnl r (l.held r.symbol) := rfl
    rcases h.entry with heq | ⟨hnone, hres⟩
    · refine ⟨hother, ?_, .inl ?_⟩
      · rw [hvalue, hvalue', h.value, heq]
      · rw [held_settle_self, held_settle_self, heq]
    · obtain ⟨⟨d, c⟩, hl', rfl⟩ := Option.map_eq_some_iff.1 hres
      refine ⟨hother, ?_, ?_⟩
      · rw [hvalue, hvalue', h.value, hnone, hl']
        cases hfill : RiskAgent.isFill r with
        | false => simp [RiskAgent.settlePnl, hfill]
        | true => simp [RiskAgent.settlePnl, hr rfl hfill]
      · rw [held_settle_self, held_settle_self, hnone, hl']
        cases hfill : RiskAgent.isFill r with
        | true =>
          have hside := hr rfl hfill
          simp [RiskAgent.settleEntry, hfill, hside]
        | false =>
          by_cases hside : d = r.side
          · simp [RiskAgent.settleEntry, hfill, hside]
          · simp [RiskAgent.settleEntry, hfill, hside]
  · have hne : symbol ≠ r.symbol := Ne.symm hsymbol
    refine ⟨?_, ?_, ?_⟩
    · intro symbol' hs
      by_cases he : symbol' = r.symbol
      · rw [he, held_settle_self, held_settle_self, h.other _ hsymbol]
      · rw [held_settle_of_ne he, held_settle_of_ne he, h.other _ hs]
    · show l'.value + RiskAgent.settlePnl r (l'.held r.symbol) = l.value + RiskAgent.settlePnl r (l.held r.symbol)
      rw [h.value, h.other _ hsymbol]
    · rw [held_settle_of_ne hne, held_settle_of_ne hne]
      exact h.entry

theorem Reserved.settleAll {symbol : String} {side : OrderSide} {l l' : Ledger} (h : Reserved symbol side l l')
    {rs : List ExecutionResult}
    (hrs : ∀ r ∈ rs, r.symbol = symbol → RiskAgent.isFill r = true → r.side = side) :
    Reserved symbol side (l.settleAll rs) (l'.settleAll rs) := by
  induction rs generalizing l l' with
  | nil => exact h
  | cons r rs ih =>
    exact ih (h.settle (hrs r (List.mem_cons_self ..))) fun r' hr' => hrs r' (List.mem_cons_of_mem _ hr')

end Ledger

/-! ### Identifiers of the results in flight -/

/-- The results in flight have identifiers of their own that the ledger has not seen. -/
structure FreshResults (flight : List ExecutionResult) (seen : List ℕ) (nextId : ℕ) : Prop where
  nodup : (flight.map ExecutionResult.resultId).Nodup
  lt : ∀ r ∈ flight, r.resultId < nextId
  notSeen : ∀ r ∈ flight, r.resultId ∉ seen
  seen_lt : ∀ id ∈ seen, id < nextId

namespace FreshResults

theorem mono {flight : List ExecutionResult} {seen : List ℕ} {n n' : ℕ} (h : FreshResults flight seen n) (hn : n ≤ n') :
    FreshResults flight seen n' :=
  ⟨h.nodup, fun r hr => (h.lt r hr).trans_le hn, h.notSeen, fun id hid => (h.seen_lt id hid).trans_le hn⟩

theorem perm {flight flight' : List ExecutionResult} {seen : List ℕ} {n : ℕ} (h : FreshResults flight seen n)
    (hp : flight.Perm flight') : FreshResults flight' seen n :=
  ⟨(hp.map _).nodup_iff.1 h.nodup, fun r hr => h.lt r (hp.mem_iff.2 hr), fun r hr => h.notSeen r (hp.mem_iff.2 hr),
    h.seen_lt⟩

theorem append {flight : List ExecutionResult} {seen : List ℕ} {n : ℕ} (h : FreshResults flight seen n)
    {r : ExecutionResult} (hr : r.resultId = n) : FreshResults (flight ++ [r]) seen (n + 1) where
  nodup := by
    rw [List.map_append, List.nodup_append]
    refine ⟨h.nodup, List.nodup_singleton _, ?_⟩
    intro id hid id' hid' heq
    obtain ⟨q, hq, rfl⟩ := List.mem_map.1 hid
    obtain rfl : id' = r.resultId := List.mem_singleton.1 hid'
    have hlt := h.lt q hq
    omega
  lt := by
    intro q hq
    rcases List.mem_append.1 hq with hold | hnew
    · exact (h.lt q hold).trans (Nat.lt_succ_self n)
    · rw [List.mem_singleton.1 hnew, hr]
      exact Nat.lt_succ_self n
  notSeen := by
    intro q hq hseen
    rcases List.mem_append.1 hq with hold | hnew
    · exact h.notSeen q hold hseen
    · rw [List.mem_singleton.1 hnew] at hseen
      have hlt := h.seen_lt _ hseen
      omega
  seen_lt := fun id hid => (h.seen_lt id hid).trans (Nat.lt_succ_self n)

theorem settle {flight : List ExecutionResult} {seen seen' : List ℕ} {n : ℕ} {r : ExecutionResult}
    (h : FreshResults (r :: flight) seen n) (hseen : seen' ⊆ r.resultId :: seen) : FreshResults flight seen' n where
  nodup := (List.nodup_cons.1 h.nodup).2
  lt := fun q hq => h.lt q (List.mem_cons_of_mem _ hq)
  notSeen := by
    intro q hq hid
    rcases List.mem_cons.1 (hseen hid) with heq | hold
    · refine (List.nodup_cons.1 h.nodup).1 ?_
      rw [← heq]
      exact List.mem_map_of_mem hq
    · exact h.notSeen q (List.mem_cons_of_mem _ hq) hold
  seen_lt := by
    intro id hid
    rcases List.mem_cons.1 (hseen hid) with heq | hold
    · rw [heq]
      exact h.lt r (List.mem_cons_self ..)
    · exact h.seen_lt id hold

end FreshResults

namespace Books

open RiskAgent

/-- The results in hand of run loop and monitor, the one made first in front. -/
def inHand (b : Books) : List ExecutionResult :=
  if ∀ r ∈ b.loopResults, ∀ m ∈ b.monitorResults, r.resultId < m.resultId then b.loopResults ++ b.monitorResults
  else b.monitorResults ++ b.loopResults

/-- The results on their way to the ledger, in the order they were made. -/
def inFlight (b : Books) : List ExecutionResult := b.results ++ b.inHand

def ledger (b : Books) : Ledger := ⟨b.held, b.value⟩

/-- The ledger once it has applied the results in flight. -/
def expected (b : Books) : Ledger := b.ledger.settleAll b.inFlight

/-- The steps that keep ledger and broker together.  An opening is approved only while no fill on the other side of its
symbol is in flight; an order opens a position only if the ledger is not going to hold the other side, and fails only if
the broker does not hold its own side; no order is answered from the cache; results in hand for one symbol are published
in the order they were made; and the run loop goes on. -/
def InStep (b : Books) : Action → Prop
  | .approve o =>
    o.closing = false → ∀ r ∈ b.inFlight, r.symbol = o.symbol → isFill r = true → r.side = o.side
  | .opens o => (b.expected.held o.symbol).map Prod.fst ≠ some o.side.opp
  | .raise o => (b.broker o.symbol).map Prod.fst ≠ some o.side
  | .replay _ => False
  | .publishLoop =>
    ∀ r ∈ b.loopResults, ∀ m ∈ b.monitorResults, r.symbol = m.symbol → r.resultId < m.resultId
  | .publishMonitor =>
    ∀ r ∈ b.loopResults, ∀ m ∈ b.monitorResults, r.symbol = m.symbol → m.resultId < r.resultId
  | .degrade => False
  | _ => True

instance InStep.decidable (b : Books) : ∀ act, Decidable (b.InStep act)
  | .approve o => inferInstanceAs (Decidable (o.closing = false → ∀ r ∈ b.inFlight, _))
  | .opens o => inferInstanceAs (Decidable (_ ≠ some o.side.opp))
  | .raise o => inferInstanceAs (Decidable (_ ≠ some o.side))
  | .replay _ => isFalse id
  | .publishLoop => inferInstanceAs (Decidable (∀ r ∈ b.loopResults, ∀ m ∈ b.monitorResults, _))
  | .publishMonitor => inferInstanceAs (Decidable (∀ r ∈ b.loopResults, ∀ m ∈ b.monitorResults, _))
  | .degrade => isFalse id
  | .quiet => isTrue trivial
  | .closes _ => isTrue trivial
  | .stopClose _ => isTrue trivial
  | .settle => isTrue trivial

/-- The expected ledger shows the broker's entry of a symbol, or the reservation of an order that waits to open it. -/
def Agrees (b : Books) (symbol : String) : Prop :=
  b.expected.held symbol = b.broker symbol ∨
    (b.broker symbol = none ∧ ∃ o ∈ b.waiting,
      o.symbol = symbol ∧ o.closing = false ∧ (b.expected.held symbol).map Prod.fst = some o.side)

/-- What steps that are `InStep` keep. -/
structure Consistent (initial : ℚ) (b : Books) : Prop where
  agree : ∀ symbol, b.Agrees symbol
  value : b.expected.value = initial + b.realized
  fresh : FreshResults b.inFlight b.seen b.nextId
  loop : b.loopResults.length ≤ 1
  monitor : b.monitorResults.length ≤ 1

variable {initial : ℚ} {b b' : Books}

/-- Where the broker holds a position, the expected ledger shows it. -/
theorem Agrees.held_of_broker {symbol : String} {entry : OrderSide × ℚ} (h : b.Agrees symbol)
    (hb : b.broker symbol = some entry) : b.expected.held symbol = some entry := by
  rcases h with heq | ⟨hnone, -⟩
  · rw [heq, hb]
  · rw [hb] at hnone
    cases hnone

/-- A symbol that a step does not touch stays in agreement. -/
private theorem Agrees.frame {symbol : String} (h : b.Agrees symbol)
    (hexpected : b'.expected.held symbol = b.expected.held symbol) (hbroker : b'.broker symbol = b.broker symbol)
    (hwaiting : ∀ o ∈ b.waiting, o.symbol = symbol → o ∈ b'.waiting) : b'.Agrees symbol := by
  rcases h with heq | ⟨hnone, o, ho, hsymbol, hkind, hside⟩
  · exact .inl (by rw [hexpected, hbroker, heq])
  · exact .inr ⟨hbroker.trans hnone, o, hwaiting o ho hsymbol, hsymbol, hkind, by rw [hexpected]; exact hside⟩

/-- A step that leaves what is expected and the broker, and loses no waiting order. -/
private theorem Consistent.same (h : b.Consistent initial) (hexpected : b'.expected = b.expected)
    (hbroker : b'.broker = b.broker) (hrealized : b'.realized = b.realized)
    (hfresh : FreshResults b'.inFlight b'.seen b'.nextId) (hloop : b'.loopResults.length ≤ 1)
    (hmonitor : b'.monitorResults.length ≤ 1) (hwaiting : ∀ o ∈ b.waiting, o ∈ b'.waiting) :
    b'.Consistent initial := by
  refine ⟨fun symbol => ?_, ?_, hfresh, hloop, hmonitor⟩
  · exact (h.agree symbol).frame (by rw [hexpected]) (by rw [hbroker]) fun o ho _ => hwaiting o ho
  · rw [hexpected, hrealized, h.value]

/-- A step that makes a result: its symbol is to be shown in agreement, the others are. -/
private theorem Consistent.append {r : ExecutionResult} (h : b.Consistent initial) (hledger : b'.ledger = b.ledger)
    (hflight : b'.inFlight = b.inFlight ++ [r]) (hseen : b'.seen = b.seen) (hr : r.resultId = b.nextId)
    (hid : b'.nextId = b.nextId + 1) (hloop : b'.loopResults.length ≤ 1) (hmonitor : b'.monitorResults.length ≤ 1)
    (hrealized : b'.realized = b.realized + settlePnl r (b.expected.held r.symbol))
    (hagree : b'.expected = b.expected.settle r → b'.Agrees r.symbol)
    (hbroker : ∀ symbol, symbol ≠ r.symbol → b'.broker symbol = b.broker symbol)
    (hwaiting : ∀ o ∈ b.waiting, o.symbol ≠ r.symbol → o ∈ b'.waiting) : b'.Consistent initial := by
  have hexpected : b'.expected = b.expected.settle r := by
    rw [expected, hledger, hflight, Ledger.settleAll_append]
    rfl
  refine ⟨fun symbol => ?_, ?_, ?_, hloop, hmonitor⟩
  · by_cases hs : symbol = r.symbol
    · rw [hs]
      exact hagree hexpected
    · refine (h.agree symbol).frame ?_ (hbroker symbol hs) fun o ho hos => hwaiting o ho (by rw [hos]; exact hs)
      rw [hexpected, Ledger.held_settle_of_ne hs]
  · rw [hexpected, hrealized, ← add_assoc, ← h.value]
    rfl
  · rw [hflight, hseen, hid]
    exact h.fresh.append hr

/-- A new result of the run loop is the last one in flight. -/
private theorem inFlight_loop {r : ExecutionResult} (h : b.Consistent initial) (hfree : b.loopResults = [])
    (hr : r.resultId = b.nextId) (hresults : b'.results = b.results) (hloop : b'.loopResults = [r])
    (hmonitor : b'.monitorResults = b.monitorResults) : b'.inFlight = b.inFlight ++ [r] := by
  have hold : b.inHand = b.monitorResults := by simp [inHand, hfree]
  have hnew : b'.inHand = b.monitorResults ++ [r] := by
    unfold inHand
    rw [hloop, hmonitor]
    cases hm : b.monitorResults with
    | nil => simp
    | cons m ms =>
      have hlt : m.resultId < b.nextId := h.fresh.lt m (by rw [inFlight, hold, hm]; simp)
      rw [if_neg]
      intro hall
      have hgt := hall r (List.mem_singleton_self r) m (List.mem_cons_self ..)
      omega
  rw [inFlight, inFlight, hresults, hnew, hold, List.append_assoc]

/-- A new result of the monitor is the last one in flight. -/
private theorem inFlight_monitor {r : ExecutionResult} (h : b.Consistent initial) (hfree : b.monitorResults = [])
    (hr : r.resultId = b.nextId) (hresults : b'.results = b.results) (hloop : b'.loopResults = b.loopResults)
    (hmonitor : b'.monitorResults = [r]) : b'.inFlight = b.inFlight ++ [r] := by
  have hold : b.inHand = b.loopResults := by simp [inHand, hfree]
  have hnew : b'.inHand = b.loopResults ++ [r] := by
    unfold inHand
    rw [hloop, hmonitor, if_pos]
    intro q hq m hm
    rw [List.mem_singleton.1 hm, hr]
    exact h.fresh.lt q (by rw [inFlight, hold]; simp [hq])
  rw [inFlight, inFlight, hresults, hnew, hold, List.append_assoc]

/-! ### Every move -/

private theorem eq_of_mem_of_length_le_one {l : List ExecutionResult} {r r' : ExecutionResult} (hl : l.length ≤ 1)
    (hr : r ∈ l) (hr' : r' ∈ l) : r' = r := by
  rcases l with _ | ⟨q, _ | ⟨q', l⟩⟩
  · cases hr
  · rw [List.mem_singleton.1 hr, List.mem_singleton.1 hr']
  · simp at hl

/-- Results in hand that were not made loop first are published in either order only for different symbols. -/
private theorem symbol_ne_of_not_lt (h : b.Consistent initial) {C : ExecutionResult → ExecutionResult → Prop}
    (hC : ∀ r ∈ b.loopResults, ∀ m ∈ b.monitorResults, r.symbol = m.symbol → C r m)
    (hnot : ∃ r ∈ b.loopResults, ∃ m ∈ b.monitorResults, ¬ C r m) :
    ∀ r ∈ b.loopResults, ∀ m ∈ b.monitorResults, r.symbol ≠ m.symbol := by
  obtain ⟨r₀, hr₀, m₀, hm₀, hnot⟩ := hnot
  intro r hr m hm hsymbol
  rw [eq_of_mem_of_length_le_one h.loop hr₀ hr, eq_of_mem_of_length_le_one h.monitor hm₀ hm] at hsymbol
  exact hnot (hC r₀ hr₀ m₀ hm₀ hsymbol)

private theorem Consistent.publishLoop (h : b.Consistent initial) (hC : b.InStep .publishLoop) :
    ({ b with results := b.results ++ b.loopResults, loopResults := [] } : Books).Consistent initial := by
  have hflight : ({ b with results := b.results ++ b.loopResults, loopResults := [] } : Books).inFlight =
      b.results ++ (b.loopResults ++ b.monitorResults) := by
    simp [inFlight, inHand]
  have hsame : (b.ledger.settleAll (b.results ++ (b.loopResults ++ b.monitorResults))) = b.expected ∧
      b.inFlight.Perm (b.results ++ (b.loopResults ++ b.monitorResults)) := by
    unfold expected inFlight inHand
    split
    case isTrue => exact ⟨rfl, .refl _⟩
    case isFalse hnot =>
      push Not at hnot
      have hne := symbol_ne_of_not_lt h hC (by simpa using hnot)
      refine ⟨?_, List.perm_append_comm.append_left _⟩
      rw [Ledger.settleAll_append _ b.results, Ledger.settleAll_append _ b.results]
      exact Ledger.settleAll_swap _ h.loop h.monitor hne
  refine h.same ?_ rfl rfl ?_ (Nat.zero_le _) h.monitor fun _ ho => ho
  · rw [expected, hflight]
    exact hsame.1
  · rw [hflight]
    exact h.fresh.perm hsame.2

private theorem Consistent.publishMonitor (h : b.Consistent initial) (hC : b.InStep .publishMonitor) :
    ({ b with results := b.results ++ b.monitorResults, monitorResults := [] } : Books).Consistent initial := by
  have hflight : ({ b with results := b.results ++ b.monitorResults, monitorResults := [] } : Books).inFlight =
      b.results ++ (b.monitorResults ++ b.loopResults) := by
    simp [inFlight, inHand]
  have hsame : (b.ledger.settleAll (b.results ++ (b.monitorResults ++ b.loopResults))) = b.expected ∧
      b.inFlight.Perm (b.results ++ (b.monitorResults ++ b.loopResults)) := by
    unfold expected inFlight inHand
    split
    case isTrue hlt =>
      have hne : ∀ r ∈ b.loopResults, ∀ m ∈ b.monitorResults, r.symbol ≠ m.symbol := by
        intro r hr m hm hsymbol
        have hgt := hC r hr m hm hsymbol
        have hle := hlt r hr m hm
        omega
      refine ⟨?_, List.perm_append_comm.append_left _⟩
      rw [Ledger.settleAll_append _ b.results, Ledger.settleAll_append _ b.results]
      exact (Ledger.settleAll_swap _ h.loop h.monitor hne).symm
    case isFalse => exact ⟨rfl, .refl _⟩
  refine h.same ?_ rfl rfl ?_ h.loop (Nat.zero_le _) fun _ ho => ho
  · rw [expected, hflight]
    exact hsame.1
  · rw [hflight]
    exact h.fresh.perm hsame.2

/-- The ledger applies the first result in flight. -/
private theorem Consistent.settle {result : ExecutionResult} {rest : List ExecutionResult} {seen : List ℕ}
    (h : b.Consistent initial) (hresults : b.results = result :: rest) (hseen : seen ⊆ result.resultId :: b.seen) :
    (b.apply result rest seen).Consistent initial := by
  have hflight : b.inFlight = result :: (rest ++ b.inHand) := by rw [inFlight, hresults]; rfl
  have hnew : result.resultId ∉ b.seen := h.fresh.notSeen result (by rw [hflight]; simp)
  have hfresh := h.fresh
  rw [hflight] at hfresh
  rw [apply, if_neg hnew]
  refine h.same ?_ rfl rfl (hfresh.settle hseen) h.loop h.monitor fun _ ho => ho
  rw [expected, expected, hflight]
  rfl

/-- An order that joins the queue; if it opens, the ledger has reserved for it. -/
private theorem Consistent.approveOpen {o : Order} {size : ℚ} {nextId : ℕ} (h : b.Consistent initial)
    (hC : b.InStep (.approve o)) (hopening : o.closing = false) (hheld : b.held o.symbol = none)
    (hid : b.nextId ≤ nextId) :
    ({ b.queue o nextId with held := Function.update b.held o.symbol (some (o.side, size)) } : Books).Consistent
      initial := by
  have hres : Ledger.Reserved o.symbol o.side b.ledger
      ⟨Function.update b.held o.symbol (some (o.side, size)), b.value⟩ :=
    ⟨fun symbol hne => Function.update_of_ne hne .., rfl, .inr ⟨hheld, by simp⟩⟩
  obtain ⟨hother, hvalue, hentry⟩ := hres.settleAll (hC hopening)
  refine ⟨fun symbol => ?_, hvalue.trans h.value, h.fresh.mono hid, h.loop, h.monitor⟩
  by_cases hs : symbol = o.symbol
  · subst hs
    rcases hentry with heq | ⟨hnone, hside⟩
    · exact (h.agree o.symbol).frame heq rfl fun q hq _ => List.mem_append_left _ hq
    · rcases h.agree o.symbol with hbroker | ⟨-, q, -, -, -, hq⟩
      · have hmem : o ∈ b.waiting ++ [o] := List.mem_append_right _ (List.mem_singleton_self o)
        exact .inr ⟨hbroker.symm.trans hnone, o, hmem, rfl, hopening, hside⟩
      · rw [show b.expected.held o.symbol = none from hnone] at hq
        cases hq
  · exact (h.agree symbol).frame (hother symbol hs) rfl fun q hq _ => List.mem_append_left _ hq

/-- An order that fails: its reservation is released, and the broker does not hold its side. -/
private theorem Consistent.raise {o : Order} {result : ExecutionResult} {waiting live : List Order} {takes : Bool}
    (h : b.Consistent initial) (hC : b.InStep (.raise o)) (hresult : Failure o b.nextId result)
    (hfree : b.loopResults = []) (hwaiting : b.waiting = o :: waiting) :
    ({ b with
        waiting := waiting, live := live, takes := takes, loopResults := [result], nextId := b.nextId + 1 } :
      Books).Consistent initial := by
  obtain ⟨hid, hsymbol, hside, hfill, hpnl⟩ := hresult
  refine h.append rfl (inFlight_loop h hfree hid rfl rfl rfl) rfl hid rfl le_rfl h.monitor ?_ ?_
    (fun _ _ => rfl) ?_
  · have hzero : settlePnl result (b.expected.held result.symbol) = 0 := by
      unfold settlePnl
      split
      · rfl
      · simp [hfill]
    rw [hzero, add_zero]
  · intro hexpected
    have hheld : ∀ entry, settleEntry result entry = if entry.map Prod.fst = some o.side then none else entry := by
      intro entry
      cases entry with
      | none => simp [settleEntry, hfill]
      | some p => simp [settleEntry, hfill, hside]
    have hself : Ledger.held _ result.symbol = _ :=
      (congrArg (fun l => Ledger.held l result.symbol) hexpected).trans (Ledger.held_settle_self _ _)
    rw [hheld] at hself
    rw [hsymbol] at hself ⊢
    rcases h.agree o.symbol with heq | ⟨hnone, q, hq, hqsymbol, hkind, hqside⟩
    · rw [heq, if_neg hC] at hself
      exact .inl hself
    · by_cases hreleased : q.side = o.side
      · rw [hqside, hreleased, if_pos rfl] at hself
        exact .inl (hself.trans hnone.symm)
      · rw [hqside, if_neg (by simpa using hreleased)] at hself
        have hne : q ≠ o := by
          intro heq
          rw [heq] at hreleased
          exact hreleased rfl
        rw [hwaiting] at hq
        exact .inr ⟨hnone, q, (List.mem_cons.1 hq).resolve_left hne, hqsymbol, hkind, by rw [hself]; exact hqside⟩
  · intro q hq hqsymbol
    rw [hwaiting] at hq
    refine (List.mem_cons.1 hq).resolve_left ?_
    intro heq
    rw [heq, hsymbol] at hqsymbol
    exact hqsymbol rfl

/-- An order that opens a position: the ledger reconciles its reservation, or adopts the position. -/
private theorem Consistent.opens {o : Order} {cost : ℚ} {result : ExecutionResult} {waiting live : List Order}
    {remembered : List ℕ} (h : b.Consistent initial) (hC : b.InStep (.opens o))
    (hresult : OpeningResult o b.nextId cost result) (hfree : b.loopResults = [])
    (hwaiting : b.waiting = o :: waiting) :
    ({ b with
        waiting := waiting, live := live, remembered := remembered, loopResults := [result], nextId := b.nextId + 1
        broker := Function.update b.broker o.symbol (some (o.side, cost)) } : Books).Consistent initial := by
  obtain ⟨hid, hsymbol, hside, hfill, hcost, hpnl⟩ := hresult
  refine h.append rfl (inFlight_loop h hfree hid rfl rfl rfl) rfl hid rfl le_rfl h.monitor ?_ ?_ ?_ ?_
  · have hzero : settlePnl result (b.expected.held result.symbol) = 0 := by
      unfold settlePnl
      split
      · rfl
      · simp [hpnl]
    rw [hzero, add_zero]
  · intro hexpected
    have hself : Ledger.held _ result.symbol = _ :=
      (congrArg (fun l => Ledger.held l result.symbol) hexpected).trans (Ledger.held_settle_self _ _)
    refine .inl (hself.trans ?_)
    rw [hsymbol]
    show _ = Function.update b.broker o.symbol (some (o.side, cost)) o.symbol
    rw [Function.update_self]
    have hC' : (b.expected.held o.symbol).map Prod.fst ≠ some o.side.opp := hC
    cases hentry : b.expected.held o.symbol with
    | none => simp [settleEntry, hfill, hside, hcost]
    | some p =>
      have hd : p.1 = o.side := by
        rw [hentry] at hC'
        by_contra hne
        exact hC' (congrArg some (OrderSide.eq_opp_of_ne hne))
      simp [settleEntry, hfill, hside, hcost, hd]
  · intro symbol hs
    rw [hsymbol] at hs
    exact Function.update_of_ne hs ..
  · intro q hq hqsymbol
    rw [hwaiting] at hq
    refine (List.mem_cons.1 hq).resolve_left ?_
    intro heq
    rw [heq, hsymbol] at hqsymbol
    exact hqsymbol rfl

/-- What the result of a close does to the entry of its position. -/
private theorem settle_closing {symbol : String} {side : OrderSide} {id : ℕ} {pnl : ℚ} {result : ExecutionResult}
    (cost : ℚ) (hresult : ClosingResult symbol side id pnl result) :
    settleEntry result (some (side, cost)) = none ∧ settlePnl result (some (side, cost)) = pnl := by
  obtain ⟨-, -, hside, hfill, hpnl⟩ := hresult
  exact ⟨by simp [settleEntry, hside, hfill], by simp [settlePnl, hside, hfill, hpnl]⟩

/-- A close, by an order or by the monitor: the ledger is going to hold the position, so the result takes it out. -/
private theorem Consistent.closing {symbol : String} {side : OrderSide} {cost pnl : ℚ} {result : ExecutionResult}
    (h : b.Consistent initial) (hresult : ClosingResult symbol side b.nextId pnl result)
    (hheld : b.broker symbol = some (side, cost)) (hledger : b'.ledger = b.ledger)
    (hflight : b'.inFlight = b.inFlight ++ [result]) (hseen : b'.seen = b.seen) (hid : b'.nextId = b.nextId + 1)
    (hloop : b'.loopResults.length ≤ 1) (hmonitor : b'.monitorResults.length ≤ 1)
    (hrealized : b'.realized = b.realized + pnl) (hbroker : b'.broker = Function.update b.broker symbol none)
    (hwaiting : ∀ o ∈ b.waiting, o.symbol ≠ symbol → o ∈ b'.waiting) : b'.Consistent initial := by
  obtain ⟨hentry, hpnl⟩ := settle_closing cost hresult
  have hexpected := (h.agree symbol).held_of_broker hheld
  have hsymbol := hresult.symbol
  refine h.append hledger hflight hseen hresult.resultId hid hloop hmonitor ?_ ?_ ?_ ?_
  · rw [hrealized, hsymbol, hexpected, hpnl]
  · intro hsettled
    refine .inl ?_
    rw [hsettled, Ledger.held_settle_self, hsymbol, hexpected, hentry, hbroker, Function.update_self]
  · intro symbol' hs
    rw [hsymbol] at hs
    rw [hbroker, Function.update_of_ne hs]
  · intro o ho hs
    rw [hsymbol] at hs
    exact hwaiting o ho hs

/-- Moves that are in step keep ledger and broker consistent. -/
theorem Consistent.move {act : Action} (h : b.Consistent initial) (hC : b.InStep act) (hmove : Move b act b') :
    b'.Consistent initial := by
  cases hmove with
  | quiet remembered nextId hrem hid =>
    exact h.same rfl rfl rfl (h.fresh.mono hid) h.loop h.monitor fun _ ho => ho
  | approveClose o cost nextId hclosing hheld hid =>
    exact h.same rfl rfl rfl (h.fresh.mono hid) h.loop h.monitor fun _ ho => List.mem_append_left _ ho
  | approveOpen o size nextId hclosing hheld hid => exact h.approveOpen hC hclosing hheld hid
  | raise o result waiting rest live takes hresult hfree hwaiting hrest hlive htakes =>
    exact h.raise hC hresult hfree hwaiting
  | opens o cost result waiting live remembered hresult hfree hwaiting hlive hflat hrem =>
    exact h.opens hC hresult hfree hwaiting
  | closes o cost pnl result waiting live remembered hresult hfree hwaiting hlive hheld hrem =>
    refine h.closing hresult hheld rfl (inFlight_loop h hfree hresult.resultId rfl rfl rfl) rfl rfl le_rfl h.monitor rfl
      rfl ?_
    intro q hq hs
    rw [hwaiting] at hq
    exact (List.mem_cons.1 hq).resolve_left fun heq => hs (by rw [heq])
  | replay o result waiting live hwaiting hlive hrem => exact hC.elim
  | stopClose symbol side cost pnl result remembered hresult hfree hheld hrem =>
    exact h.closing hresult hheld rfl (inFlight_monitor h hfree hresult.resultId rfl rfl rfl) rfl rfl h.loop le_rfl rfl
      rfl fun _ ho _ => ho
  | publishLoop => exact h.publishLoop hC
  | publishMonitor => exact h.publishMonitor hC
  | settle result rest seen hresults hseen => exact h.settle hresults hseen
  | degrade b' hlive htakes hbroker hrem => exact hC.elim

/-- With no order waiting and no result in flight the ledger shows the broker's positions and its profits. -/
theorem Consistent.settled (h : b.Consistent initial) (hwaiting : b.waiting = []) (hflight : b.inFlight = []) :
    b.held = b.broker ∧ b.value = initial + b.realized := by
  have hexpected : b.expected = b.ledger := by rw [expected, hflight]; rfl
  refine ⟨?_, ?_⟩
  · funext symbol
    have hagree := h.agree symbol
    unfold Agrees at hagree
    rw [hexpected] at hagree
    rcases hagree with heq | ⟨-, o, ho, -⟩
    · exact heq
    · rw [hwaiting] at ho
      cases ho
  · have hvalue := h.value
    rw [hexpected] at hvalue
    exact hvalue

end Books

namespace TradingSystem

/-- No proposal, assessment or result is in flight. -/
structure Quiescent (s : TradingSystem) : Prop where
  proposals : s.proposals = []
  riskPending : s.riskPending = none
  assessments : s.assessments = []
  orders : s.loop.orders = []
  results : s.results = []
  loopResults : s.loop.results = []
  monitorResults : s.monitor.results = []

instance (s : TradingSystem) : Decidable s.Quiescent :=
  decidable_of_iff (s.proposals = [] ∧ s.riskPending = none ∧ s.assessments = [] ∧ s.loop.orders = [] ∧
      s.results = [] ∧ s.loop.results = [] ∧ s.monitor.results = [])
    ⟨fun ⟨h1, h2, h3, h4, h5, h6, h7⟩ => ⟨h1, h2, h3, h4, h5, h6, h7⟩,
      fun ⟨h1, h2, h3, h4, h5, h6, h7⟩ => ⟨h1, h2, h3, h4, h5, h6, h7⟩⟩

/-- Ledger and broker hold the same symbols at the same cost and on the same side, and nearly the same money. -/
structure LedgerAgrees (s : TradingSystem) : Prop where
  cost : ∀ symbol, s.risk.drawdown.state.openPositions.get? symbol =
    (s.account.broker.positions.get? symbol).map PaperPosition.costUsd
  side : ∀ symbol, s.risk.drawdown.positionSide symbol =
    (s.account.broker.positions.get? symbol).map PaperPosition.side
  value : |s.risk.drawdown.state.portfolioValueUsd - s.account.equity| ≤ 5 / 1000 * s.account.closes

/-- The event keeps the books in step. -/
def InStep (settings : Settings) (s : TradingSystem) (e : TradingEvent) : Prop :=
  s.view.InStep (action settings s e)

instance (settings : Settings) (s : TradingSystem) (e : TradingEvent) : Decidable (InStep settings s e) :=
  Books.InStep.decidable _ _

/-- What a run in step keeps. -/
structure SyncInvariant (initial : ℚ) (s : TradingSystem) : Prop where
  lives : s.account.Lives
  near : s.account.EquityNear initial
  consistent : s.view.Consistent initial

private theorem SyncInvariant.step {settings : Settings} {initial : ℚ} {s s' : TradingSystem} {e : TradingEvent}
    (h : s.SyncInvariant initial) (hC : InStep settings s e) (hstep : step settings s e = some s') :
    s'.SyncInvariant initial where
  lives := h.lives.effect (step_effect hstep)
  near := h.near.effect (step_effect hstep)
  consistent := h.consistent.move hC (step_move h.lives hstep)

private theorem syncInvariant_init (settings : Settings) (now : ℚ) (connected : Bool) :
    (init settings now connected).SyncInvariant settings.paperInitialBalanceUsd where
  lives := ⟨fun _ => rfl, fun _ _ hp => by cases hp⟩
  near := by
    simp [PaperAccount.EquityNear, init, PaperBroker.init, PaperAccount.equity, PaperBroker.getBalance,
      PaperBroker.totalEquity, PaperBroker.usedMargin, PaperAccount.realizedTotal, PaperAccount.closes]
  consistent := by
    have hflight : (init settings now connected).view.inFlight = [] := rfl
    have hseen : (init settings now connected).view.seen = [] := rfl
    refine ⟨fun symbol => .inl rfl, ?_, ?_, Nat.zero_le _, Nat.zero_le _⟩
    · show (init settings now connected).risk.drawdown.state.portfolioValueUsd =
        settings.paperInitialBalanceUsd + (init settings now connected).account.realizedTotal
      have hvalue : (init settings now connected).risk.drawdown.state.portfolioValueUsd =
          settings.paperInitialBalanceUsd := DrawdownMonitor.portfolioValueUsd_init _ _ _ _
      have hrealized : (init settings now connected).account.realizedTotal = 0 := rfl
      rw [hvalue, hrealized, add_zero]
    · rw [hflight, hseen]
      exact ⟨List.nodup_nil, by simp, by simp, by simp⟩

/-- In a quiescent state the books hold nothing in flight. -/
private theorem Quiescent.view {s : TradingSystem} (h : s.Quiescent) :
    s.view.waiting = [] ∧ s.view.inFlight = [] := by
  refine ⟨?_, ?_⟩
  · simp [TradingSystem.view, queued, h.orders, h.assessments, h.riskPending]
  · simp [TradingSystem.view, Books.inFlight, Books.inHand, h.results, h.loopResults, h.monitorResults]

private theorem SyncInvariant.ledgerAgrees {initial : ℚ} {s : TradingSystem} (h : s.SyncInvariant initial)
    (hq : s.Quiescent) : s.LedgerAgrees := by
  obtain ⟨hwaiting, hflight⟩ := hq.view
  obtain ⟨hheld, hvalue⟩ := h.consistent.settled hwaiting hflight
  have hentry : ∀ symbol, s.risk.drawdown.held symbol = entries s.account.broker.positions symbol :=
    fun symbol => congrFun hheld symbol
  refine ⟨?_, ?_, ?_⟩
  · intro symbol
    rw [DrawdownMonitor.get?_openPositions, hentry, entries, Option.map_map]
    rfl
  · intro symbol
    rw [DrawdownMonitor.positionSide_eq, hentry, entries, Option.map_map]
    rfl
  · have hnear : |s.account.equity - initial - s.account.realizedTotal| ≤ 5 / 1000 * s.account.closes := h.near
    have hvalue' : s.risk.drawdown.state.portfolioValueUsd = initial + s.account.realizedTotal := hvalue
    rw [hvalue', abs_sub_comm, ← sub_sub]
    exact hnear

end TradingSystem

open TradingSystem

/-- In every run in step, in every state with nothing in flight, ledger and broker hold the same positions, and the
portfolio value is the broker's equity up to half a cent for each close. -/
theorem ledger_agrees {settings : Settings} {now : ℚ} {connected : Bool} {es : List TradingEvent} {s : TradingSystem}
    (hC : Along (TradingSystem.step settings) (InStep settings) (TradingSystem.init settings now connected) es)
    (h : exec (TradingSystem.step settings) (TradingSystem.init settings now connected) es = some s)
    (hq : s.Quiescent) : s.LedgerAgrees :=
  (exec_invariant_along (SyncInvariant settings.paperInitialBalanceUsd) (fun _ _ _ hs hC hstep => hs.step hC hstep)
    (syncInvariant_init settings now connected) hC h).ledgerAgrees hq

/-- A long is opened and stopped out by the monitor, both results published as they were made; a short is left open. -/
def stoppedOut : List TradingEvent :=
  orderFlow (plainProposal 1 "BTC/USDT" .buy 200 two_hundred_pos 100 0 .empty) ++
    [.loopPublish true, .riskApply, .monitorScan, .monitorPrice (some 90), .monitorPublish true, .riskApply] ++
    orderFlow (plainProposal 2 "BTC/USDT" .sell 200 two_hundred_pos 90 0 .empty) ++ [.loopPublish true, .riskApply]

private theorem stoppedOut_quiescent :
    ((exec (TradingSystem.step {}) (TradingSystem.init {} 0 false) stoppedOut).map fun s =>
      (decide s.Quiescent, s.account.closes, s.account.broker.positions.keys)) = some (true, 1, ["BTC/USDT"]) := by
  decide +kernel

theorem ledger_agrees_stoppedOut : ∃ s,
    exec (TradingSystem.step {}) (TradingSystem.init {} 0 false) stoppedOut = some s ∧ s.account.closes = 1 ∧
      s.LedgerAgrees := by
  obtain ⟨s, hs, hfacts⟩ := Option.map_eq_some_iff.1 stoppedOut_quiescent
  obtain ⟨hq, hcloses, -⟩ := by simpa using hfacts
  exact ⟨s, hs, hcloses, ledger_agrees (by decide +kernel) hs hq⟩

/-- The monitor closes a long while its opening is being saved, and publishes first. -/
def publishedSwapped : List TradingEvent :=
  orderFlow (plainProposal 1 "BTC/USDT" .buy 200 two_hundred_pos 100 0 .empty) ++
    [.loopSaved true, .monitorScan, .monitorPrice (some 90), .monitorSaved true, .monitorSaved true,
      .monitorPublish true, .loopSaved true, .loopPublish true, .riskApply, .riskApply]

/-- The ledger then adopts a position that the broker has closed. -/
theorem ledger_differs_when_swapped : ¬ ∀ (settings : Settings) (now : ℚ) (connected : Bool)
    (es : List TradingEvent) (s : TradingSystem),
    exec (TradingSystem.step settings) (TradingSystem.init settings now connected) es = some s → s.Quiescent →
      s.LedgerAgrees := by
  intro h
  have hrun : ((exec (TradingSystem.step {}) (TradingSystem.init {} 0 true) publishedSwapped).map fun s =>
      (decide s.Quiescent, (s.risk.drawdown.state.openPositions.get? "BTC/USDT").isSome,
        (s.account.broker.positions.get? "BTC/USDT").isSome)) = some (true, true, false) := by
    decide +kernel
  obtain ⟨s, hs, hfacts⟩ := Option.map_eq_some_iff.1 hrun
  obtain ⟨hq, hledger, hbroker⟩ := by simpa only [Prod.mk.injEq, decide_eq_true_eq] using hfacts
  rw [(h {} 0 true publishedSwapped s hs hq).cost, Option.isSome_map, hbroker] at hledger
  cases hledger

end MultiAgentTrading
