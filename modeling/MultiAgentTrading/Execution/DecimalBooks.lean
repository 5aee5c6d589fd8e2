import MultiAgentTrading.Execution.BrokerRuns
import MultiAgentTrading.Execution.PortfolioStore
import Mathlib.Data.List.Forall2
import Mathlib.Logic.Relation

/-!
# Books of decimal numbers

A portfolio of decimal numbers `Shows` the books of a broker when its numbers have the same values, and it shows only
these.  `DecimalBooks` says that every number in the books has finitely many digits, which is when there is such a
portfolio.  The fills of the broker are rounded, so a run does not leave the decimal numbers; `Change` lists what one
piece of a call can do to the broker, and a run is a sequence of changes.
-/

namespace MultiAgentTrading

open PaperBroker Runs

/-! ### What a portfolio shows -/

/-- `OrderSide.value`. -/
def OrderSide.value : OrderSide → Text
  | .buy => "buy".toList
  | .sell => "sell".toList

structure DecimalPosition.Shows (x : DecimalPosition) (pos : PaperPosition) : Prop where
  symbol : x.symbol = .str pos.symbol.toList
  side : x.side = .str pos.side.value
  quantity : x.quantity.toRat = some pos.quantity
  entryPrice : x.entryPrice.toRat = some pos.entryPrice
  costUsd : x.costUsd.toRat = some pos.costUsd

/-- An entry of the saved positions, and the entry of the broker's it stands for. -/
def ShowsEntry (x : Text × DecimalPosition) (y : String × PaperPosition) : Prop :=
  x.1 = y.1.toList ∧ x.2.Shows y.2

/-- The decimal portfolio has the values of the broker's books, in the same order. -/
structure DecimalPortfolio.Shows (p : DecimalPortfolio) (b : PaperBroker) : Prop where
  cash : p.cash.toRat = some b.cashBalance
  positions : List.Forall₂ ShowsEntry p.positions.entries b.positions.entries

namespace DecimalPosition

private theorem Shows.named {x : DecimalPosition} {pos : PaperPosition} (h : x.Shows pos) : x.Named :=
  ⟨⟨_, h.symbol⟩, ⟨_, h.side⟩⟩

private theorem Shows.unique {x : DecimalPosition} {pos pos' : PaperPosition} (h : x.Shows pos) (h' : x.Shows pos') :
    pos = pos' := by
  have hsymbol : pos.symbol = pos'.symbol := String.toList_injective (Json.str.inj (h.symbol.symm.trans h'.symbol))
  have hside : pos.side = pos'.side := by
    have hvalue := Json.str.inj (h.side.symm.trans h'.side)
    cases hs : pos.side <;> cases hs' : pos'.side <;> simp_all [OrderSide.value]
  have hquantity := Option.some.inj (h.quantity.symm.trans h'.quantity)
  have hentryPrice := Option.some.inj (h.entryPrice.symm.trans h'.entryPrice)
  have hcostUsd := Option.some.inj (h.costUsd.symm.trans h'.costUsd)
  cases pos
  cases pos'
  simp_all

end DecimalPosition

namespace DecimalPortfolio

/-- The portfolio of a new broker shows its initial balance. -/
theorem shows_init {initialBalance : Decimal} {settings : Settings}
    (h : initialBalance.toRat = some settings.paperInitialBalanceUsd) : (fresh initialBalance).Shows (.init settings) :=
  ⟨h, .nil⟩

/-- A portfolio shows one set of books. -/
theorem Shows.books_eq {p : DecimalPortfolio} {b b' : PaperBroker} (h : p.Shows b) (h' : p.Shows b') :
    b.cashBalance = b'.cashBalance ∧ b.positions = b'.positions := by
  have hunique : Relator.RightUnique ShowsEntry := fun x y z hy hz =>
    Prod.ext (String.toList_injective (hy.1.symm.trans hz.1)) (hy.2.unique hz.2)
  exact ⟨Option.some.inj (h.cash.symm.trans h'.cash),
    Dict.ext (List.right_unique_forall₂' hunique h.positions h'.positions)⟩

theorem Shows.named {p : DecimalPortfolio} {b : PaperBroker} (h : p.Shows b) :
    ∀ q ∈ p.positions.entries, q.2.Named := by
  have hall : List.Forall₂ (fun x y => x.2.Named ∧ ShowsEntry x y) p.positions.entries b.positions.entries :=
    h.positions.imp fun x y hxy => ⟨hxy.2.named, hxy⟩
  exact ((List.forall₂_and_left _ _).1 hall).1

private theorem Shows.not_signaling {p : DecimalPortfolio} {b : PaperBroker} (h : p.Shows b) :
    p.cash.isSignaling = false := by
  have hcash := h.cash
  cases hp : p.cash with
  | finite negative coefficient exponent => rfl
  | infinity negative => rfl
  | nan negative signaling payload =>
    rw [hp] at hcash
    cases hcash

/-- A portfolio that shows books is restored from what is saved of it, and saved again as it was. -/
theorem Shows.connect {p : DecimalPortfolio} {b : PaperBroker} (h : p.Shows b) (F : FloatText) (q : DecimalPortfolio) :
    SavedPortfolio.connect F (p.save F) {} q = ⟨p, p.save F⟩ :=
  connect_saved h.not_signaling h.named q

end DecimalPortfolio

/-! ### Books of decimal numbers -/

structure PaperPosition.Digits (pos : PaperPosition) : Prop where
  quantity : pos.quantity ∈ Decimal.decimals
  entryPrice : pos.entryPrice ∈ Decimal.decimals
  costUsd : pos.costUsd ∈ Decimal.decimals

/-- Every number in the books has finitely many digits. -/
structure DecimalBooks (b : PaperBroker) : Prop where
  cash : b.cashBalance ∈ Decimal.decimals
  positions : ∀ symbol pos, b.positions.get? symbol = some pos → pos.Digits

private theorem DecimalPosition.Shows.digits {x : DecimalPosition} {pos : PaperPosition} (h : x.Shows pos) :
    pos.Digits where
  quantity := Decimal.mem_decimals_iff_toRat.2 ⟨_, h.quantity⟩
  entryPrice := Decimal.mem_decimals_iff_toRat.2 ⟨_, h.entryPrice⟩
  costUsd := Decimal.mem_decimals_iff_toRat.2 ⟨_, h.costUsd⟩

private theorem exists_shows_position {pos : PaperPosition} (h : pos.Digits) :
    ∃ x : DecimalPosition, x.Shows pos := by
  obtain ⟨quantity, hquantity⟩ := Decimal.mem_decimals_iff_toRat.1 h.quantity
  obtain ⟨entryPrice, hentryPrice⟩ := Decimal.mem_decimals_iff_toRat.1 h.entryPrice
  obtain ⟨costUsd, hcostUsd⟩ := Decimal.mem_decimals_iff_toRat.1 h.costUsd
  exact ⟨⟨.str pos.symbol.toList, .str pos.side.value, quantity, entryPrice, costUsd⟩,
    ⟨rfl, rfl, hquantity, hentryPrice, hcostUsd⟩⟩

private theorem exists_shows_entries {l : List (String × PaperPosition)} (h : ∀ y ∈ l, y.2.Digits) :
    ∃ m, List.Forall₂ ShowsEntry m l := by
  induction l with
  | nil => exact ⟨[], .nil⟩
  | cons y l ih =>
    obtain ⟨x, hx⟩ := exists_shows_position (h y List.mem_cons_self)
    obtain ⟨m, hm⟩ := ih fun z hz => h z (List.mem_cons_of_mem y hz)
    exact ⟨(y.1.toList, x) :: m, .cons ⟨rfl, hx⟩ hm⟩

private theorem map_fst_of_forall₂ {m : List (Text × DecimalPosition)} {l : List (String × PaperPosition)}
    (h : List.Forall₂ ShowsEntry m l) : m.map Prod.fst = (l.map Prod.fst).map String.toList := by
  induction h with
  | nil => rfl
  | cons hhead htail ih => rw [List.map_cons, List.map_cons, List.map_cons, ih, hhead.1]

/-- Books whose numbers have finitely many digits are shown by a portfolio, and no others are. -/
theorem decimalBooks_iff {b : PaperBroker} : DecimalBooks b ↔ ∃ p : DecimalPortfolio, p.Shows b := by
  constructor
  · intro h
    obtain ⟨cash, hcash⟩ := Decimal.mem_decimals_iff_toRat.1 h.cash
    obtain ⟨m, hm⟩ := exists_shows_entries fun y (hy : y ∈ b.positions.entries) =>
      h.positions y.1 y.2 (Dict.mem_entries.1 hy)
    have hnodup : (m.map Prod.fst).Nodup := by
      rw [map_fst_of_forall₂ hm]
      exact b.positions.nodup.map fun _ _ h => String.toList_injective h
    exact ⟨⟨cash, ⟨m, hnodup⟩⟩, ⟨hcash, hm⟩⟩
  · rintro ⟨p, hp⟩
    refine ⟨Decimal.mem_decimals_iff_toRat.2 ⟨_, hp.cash⟩, fun symbol pos hpos => ?_⟩
    have hall : List.Forall₂ (fun (y : String × PaperPosition) x => y.2.Digits ∧ ShowsEntry x y)
        b.positions.entries p.positions.entries :=
      hp.positions.flip.imp fun y x hxy => ⟨hxy.2.digits, hxy⟩
    exact ((List.forall₂_and_left _ _).1 hall).1 (symbol, pos) (Dict.mem_entries.2 hpos)

/-! ### What a call changes -/

namespace PaperBroker

/-- One change of the broker: an order is remembered, a position is closed, or one is opened. -/
inductive Change (b : PaperBroker) : PaperBroker → Prop
  | remembered (proposalId : ℕ) (result : ExecutionResult) : Change b (b.remember proposalId result)
  | closed {symbol : String} {refPrice : ℚ} {proposalId assessmentId resultId : ℕ} {c : Closed}
      (h : b.closeAt symbol refPrice proposalId assessmentId resultId = some c) : Change b c.broker
  | opened {a : RiskAssessment ℚ} {refPrice : RefPrice} {choice : FillChoice} {resultId : ℕ} {broker : PaperBroker}
      {position : PaperPosition} {result : ExecutionResult}
      (h : b.fillOrder a refPrice choice resultId = .ok (.opened broker position result)) : Change b broker

end PaperBroker

namespace PaperAccount

open Relation

private theorem finish_changes (w : PaperAccount) (next : AfterSave) :
    ReflTransGen Change w.broker (w.finish next).1.broker := by
  cases next with
  | reply result => exact .refl
  | rememberAndReply proposalId result => exact .single (.remembered proposalId result)

private theorem startSave_changes (w : PaperAccount) (next : AfterSave) :
    ReflTransGen Change w.broker (w.startSave next).1.broker := by
  unfold startSave
  split
  · exact .refl
  · exact finish_changes w next

theorem startClose_changes (w : PaperAccount) (symbol : String) (price : Option ℚ)
    (proposalId assessmentId resultId : ℕ) :
    ReflTransGen Change w.broker (w.startClose symbol price proposalId assessmentId resultId).1.broker := by
  unfold startClose
  cases hc : w.broker.closePosition symbol price proposalId assessmentId resultId with
  | none => exact .refl
  | some c =>
    obtain ⟨refPrice, hclose⟩ := closePosition_closeAt hc
    exact .head (.closed hclose) (startSave_changes (w.recordClose c) _)

theorem resume_changes {w w' : PaperAccount} {task task' : BrokerTask} {wakeup : Wakeup}
    (h : w.resume task wakeup = some (w', task')) : ReflTransGen Change w.broker w'.broker := by
  unfold resume at h
  split at h
  case h_1 a refPrice choice resultId =>
    split at h
    case h_1 =>
      cases h
      exact .refl
    case h_2 broker position result hf =>
      obtain rfl : _ = w' := congrArg Prod.fst (Option.some.inj h)
      exact .head (.opened hf) (startSave_changes (w.recordOpen broker position result) _)
    case h_3 c hf =>
      obtain rfl : _ = w' := congrArg Prod.fst (Option.some.inj h)
      exact .head (.closed (fillOrder_closed hf)) (startSave_changes (w.recordClose c) _)
  case h_2 =>
    cases h
    exact .refl
  case h_3 value next =>
    obtain rfl : _ = w' := congrArg Prod.fst (Option.some.inj h)
    exact finish_changes { w with store := { w.store with positions := some value } } next
  case h_4 =>
    obtain rfl : _ = w' := congrArg Prod.fst (Option.some.inj h)
    exact finish_changes w _
  case h_5 => cases h

end PaperAccount

namespace BrokerRun

private theorem step_changes {settings : Settings} {s s' : BrokerRun} {e : BrokerEvent}
    (h : step settings s e = some s') : Relation.ReflTransGen Change s.account.broker s'.account.broker := by
  cases e with
  | placeOrder a =>
    cases h
    exact .refl
  | closePosition symbol price proposalId assessmentId resultId =>
    cases h
    exact PaperAccount.startClose_changes _ _ _ _ _ _
  | resume i wakeup =>
    obtain ⟨task, w, task', -, hresume, rfl⟩ := step_resume h
    exact PaperAccount.resume_changes hresume
  | link connected =>
    cases h
    exact .refl

private theorem of_changes {P : PaperBroker → Prop} (hchange : ∀ b b', Change b b' → P b → P b') {b b' : PaperBroker}
    (h : Relation.ReflTransGen Change b b') (hb : P b) : P b' := by
  induction h with
  | refl => exact hb
  | tail _ hlast ih => exact hchange _ _ hlast ih

/-- What every change of the broker keeps, a run keeps. -/
theorem exec_invariant_of_change {settings : Settings} {s s' : BrokerRun} {es : List BrokerEvent}
    (P : PaperBroker → Prop) (hchange : ∀ b b', Change b b' → P b → P b') (hs : P s.account.broker)
    (h : exec (step settings) s es = some s') : P s'.account.broker :=
  exec_invariant (fun s : BrokerRun => P s.account.broker)
    (fun _ _ _ hs hstep => of_changes hchange (step_changes hstep) hs) hs h

end BrokerRun

/-! ### Digits along a run -/

private theorem cent_mem_decimals : cent ∈ Decimal.decimals := ⟨1, 2, by norm_num [cent]⟩

private theorem qtyPlaces_mem_decimals : qtyPlaces ∈ Decimal.decimals := ⟨1, 8, by norm_num [qtyPlaces]⟩

private theorem takerFee_mem_decimals (notional : ℚ) : takerFee notional ∈ Decimal.decimals :=
  Decimal.quantizeDown_mem_decimals cent_mem_decimals _

private theorem slipped_mem_decimals (side : OrderSide) (refPrice : ℚ) : slipped side refPrice ∈ Decimal.decimals := by
  cases side
  · exact Decimal.quantizeDown_mem_decimals qtyPlaces_mem_decimals _
  · exact Decimal.quantizeDown_mem_decimals qtyPlaces_mem_decimals _

private theorem cashReturned_mem_decimals {pos : PaperPosition} (h : pos.Digits) (refPrice : ℚ) :
    (closingFill pos refPrice).cashReturned ∈ Decimal.decimals := by
  have hnotional : ∀ side, pos.quantity * slipped side refPrice ∈ Decimal.decimals := fun side =>
    mul_mem h.quantity (slipped_mem_decimals side refPrice)
  unfold closingFill
  split
  · exact sub_mem (hnotional .sell) (takerFee_mem_decimals _)
  · have hgross := mul_mem (sub_mem h.entryPrice (slipped_mem_decimals .buy refPrice)) h.quantity
    exact sub_mem (add_mem h.costUsd hgross) (takerFee_mem_decimals _)

private theorem chosenQty_mem_decimals {requestedQty : ℚ} (h : requestedQty ∈ Decimal.decimals) (choice : FillChoice) :
    (chosenQty requestedQty choice).1 ∈ Decimal.decimals := by
  unfold chosenQty
  cases choice with
  | full =>
    dsimp only
    split <;> exact h
  | part ratio hratio =>
    dsimp only
    split
    · exact h
    · exact Decimal.quantizeDown_mem_decimals qtyPlaces_mem_decimals _

private theorem openedPosition_digits {a : RiskAssessment ℚ} {refPrice : ℚ} {choice : FillChoice} {fill : OpeningFill}
    (h : openingFill a refPrice choice = .ok fill) : (openedPosition a fill).Digits := by
  unfold openingFill at h
  dsimp only at h
  split at h
  case isTrue => cases h
  case isFalse =>
    split at h
    case isTrue => cases h
    case isFalse =>
      split at h
      case isTrue => cases h
      case isFalse =>
        cases h
        have hprice := slipped_mem_decimals a.originalProposal.side refPrice
        have hrequested := Decimal.quantizeDown_mem_decimals qtyPlaces_mem_decimals
          (a.effectiveSizeUsd / slipped a.originalProposal.side refPrice)
        have hqty := chosenQty_mem_decimals hrequested choice
        exact ⟨hqty, hprice, add_mem (mul_mem hqty hprice) (takerFee_mem_decimals _)⟩

/-- The books keep their digits through every change. -/
theorem DecimalBooks.change {b b' : PaperBroker} (h : DecimalBooks b) (hchange : Change b b') : DecimalBooks b' := by
  cases hchange with
  | remembered proposalId result => exact ⟨h.cash, h.positions⟩
  | @closed symbol refPrice proposalId assessmentId resultId c hclose =>
    obtain ⟨hheld, hfill, hbroker, -⟩ := closeAt_spec hclose
    rw [hbroker]
    refine ⟨?_, fun symbol' pos hpos => ?_⟩
    · show b.cashBalance + c.fill.cashReturned ∈ Decimal.decimals
      rw [hfill]
      exact add_mem h.cash (cashReturned_mem_decimals (h.positions _ _ hheld) refPrice)
    · rw [Dict.get?_erase] at hpos
      split at hpos
      · cases hpos
      · exact h.positions _ _ hpos
  | opened hopen =>
    rcases fillOrder_cases hopen with ⟨c, hc, -⟩ | ⟨fill, -, hfill, -, hopened⟩
    · cases hc
    · cases hopened
      have hdigits := openedPosition_digits hfill
      refine ⟨sub_mem h.cash hdigits.costUsd, fun symbol' pos hpos => ?_⟩
      rw [positions_remember, Dict.get?_set] at hpos
      split at hpos
      · cases hpos
        exact hdigits
      · exact h.positions _ _ hpos

end MultiAgentTrading
