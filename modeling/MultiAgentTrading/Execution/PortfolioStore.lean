import MultiAgentTrading.Lib.Json
import Mathlib.Logic.Function.Iterate

/-!
# The saved portfolio as text

The cash is saved as the text of a decimal number and the positions as a JSON object.  `connect` assigns the cash as
soon as it is read, then reads and decodes the positions; whatever is raised on the way is swallowed, and the
portfolio is saved as it then stands.  `connect_saved` is the round trip and `failed_restore_keeps_saved_iff` says when
a failed restore leaves the two texts as they were.
-/

namespace MultiAgentTrading

open Json

/-- `_PaperPosition`.  A restored one has whatever JSON values were stored for its symbol and side. -/
structure DecimalPosition where
  symbol : Json
  side : Json
  quantity : Decimal
  entryPrice : Decimal
  costUsd : Decimal

/-- `_cash_balance` and `_positions`. -/
structure DecimalPortfolio where
  cash : Decimal
  positions : Dict Text DecimalPosition

/-- The values stored under the two keys. -/
structure PortfolioTexts where
  cash : Option Text := none
  positions : Option Text := none
  deriving DecidableEq

/-- The keys whose `kv_get` raises. -/
structure ReadFaults where
  cash : Bool := false
  positions : Bool := false

/-- What ended a restore early. -/
inductive RestoreError
  | cashRead
  | cashText
  | positionsRead
  | positionsText
  deriving DecidableEq

/-- The portfolio in memory and the stored texts. -/
structure SavedPortfolio where
  portfolio : DecimalPortfolio
  texts : PortfolioTexts

namespace DecimalPosition

def encode (pos : DecimalPosition) : Json :=
  .obj
    [("symbol".toList, pos.symbol), ("side".toList, pos.side), ("quantity".toList, .str pos.quantity.toText),
      ("entry_price".toList, .str pos.entryPrice.toText), ("cost_usd".toList, .str pos.costUsd.toText)]

def decode (p : Json) : Option DecimalPosition :=
  match p.get? "symbol".toList, p.get? "side".toList, (p.get? "quantity".toList).bind toDecimal,
    (p.get? "entry_price".toList).bind toDecimal, (p.get? "cost_usd".toList).bind toDecimal with
  | some symbol, some side, some quantity, some entryPrice, some costUsd =>
    some ⟨symbol, side, quantity, entryPrice, costUsd⟩
  | _, _, _, _, _ => none

end DecimalPosition

namespace DecimalPortfolio

/-- The portfolio of a new broker. -/
def fresh (initialBalance : Decimal) : DecimalPortfolio := ⟨initialBalance, .empty⟩

def encodePositions (F : FloatText) (positions : Dict Text DecimalPosition) : Text :=
  dumps F (.obj (positions.entries.map fun p => (p.1, p.2.encode)))

def decodePositions (F : FloatText) (raw : Text) : Option (Dict Text DecimalPosition) :=
  match loads F raw with
  | some (.obj fields) => (fields.mapM fun p => (DecimalPosition.decode p.2).map fun pos => (p.1, pos)).map Dict.ofList
  | _ => none

/-- What `_save_portfolio_state` writes. -/
def save (F : FloatText) (p : DecimalPortfolio) : PortfolioTexts :=
  ⟨some p.cash.toText, some (encodePositions F p.positions)⟩

/-- The portfolio that two texts stand for. -/
def ofTexts (F : FloatText) (cash positions : Text) : Option DecimalPortfolio :=
  match Decimal.parse cash, decodePositions F positions with
  | some cash, some positions => some ⟨cash, positions⟩
  | _, _ => none

/-- The restore of `connect`: the portfolio as it stands when the reads have ended, and what ended them early. -/
def restore (F : FloatText) (texts : PortfolioTexts) (faults : ReadFaults) (p : DecimalPortfolio) :
    DecimalPortfolio × Option RestoreError :=
  if faults.cash then (p, some .cashRead)
  else
    match texts.cash with
    | none => (p, none)
    | some cashRaw =>
      match Decimal.parse cashRaw with
      | none => (p, some .cashText)
      | some cash =>
        -- the cash is assigned before the positions are read
        let p := { p with cash := cash }
        if faults.positions then (p, some .positionsRead)
        else
          match texts.positions with
          | none => (p, none)
          | some positionsRaw =>
            match decodePositions F positionsRaw with
            | none => (p, some .positionsText)
            | some positions => ({ p with positions := positions }, none)

end DecimalPortfolio

namespace SavedPortfolio

/-- `connect` of a broker with portfolio `p`, in paper mode on a connected bus: restore, then save whatever is there.
The log lines turn the cash into a float; if that raises, it raises again where it is caught, and nothing is saved. -/
def connect (F : FloatText) (texts : PortfolioTexts) (faults : ReadFaults) (p : DecimalPortfolio) : SavedPortfolio :=
  let restored := (DecimalPortfolio.restore F texts faults p).1
  if restored.cash.isSignaling then ⟨restored, texts⟩ else ⟨restored, restored.save F⟩

def disconnect (F : FloatText) (s : SavedPortfolio) : SavedPortfolio := { s with texts := s.portfolio.save F }

end SavedPortfolio

/-! ### A restore that succeeds -/

/-- Symbol and side are texts, as in every position that an order has opened. -/
structure DecimalPosition.Named (pos : DecimalPosition) : Prop where
  symbol : ∃ symbol, pos.symbol = .str symbol
  side : ∃ side, pos.side = .str side

namespace DecimalPosition

private theorem decode_encode (pos : DecimalPosition) : decode pos.encode = some pos := by
  show (match some pos.symbol, some pos.side, Decimal.parse pos.quantity.toText, Decimal.parse pos.entryPrice.toText,
      Decimal.parse pos.costUsd.toText with
    | some symbol, some side, some quantity, some entryPrice, some costUsd =>
      some (⟨symbol, side, quantity, entryPrice, costUsd⟩ : DecimalPosition)
    | _, _, _, _, _ => none) = some pos
  rw [Decimal.parse_toText, Decimal.parse_toText, Decimal.parse_toText]

private theorem reads_encode {F : FloatText} {pos : DecimalPosition} (h : pos.Named) : Reads F pos.encode := by
  obtain ⟨symbol, hsymbol⟩ := h.symbol
  obtain ⟨side, hside⟩ := h.side
  refine reads_obj (by simp only [List.map_cons, List.map_nil]; decide) ?_
  simp only [List.forall_mem_cons, hsymbol, hside]
  exact ⟨reads_str _, reads_str _, reads_str _, reads_str _, reads_str _, fun _ h => absurd h List.not_mem_nil⟩

end DecimalPosition

namespace DecimalPortfolio

variable {F : FloatText}

/-- The text of the positions is read as the object it was written from. -/
theorem loads_encodePositions {positions : Dict Text DecimalPosition} (h : ∀ p ∈ positions.entries, p.2.Named) :
    loads F (encodePositions F positions) = some (.obj (positions.entries.map fun p => (p.1, p.2.encode))) := by
  have hkeys : ((positions.entries.map fun p => (p.1, p.2.encode)).map Prod.fst).Nodup := by
    rw [List.map_map]
    exact positions.nodup
  refine (reads_obj hkeys fun q hq => ?_).loads_dumps
  obtain ⟨p, hp, rfl⟩ := List.mem_map.1 hq
  exact DecimalPosition.reads_encode (h p hp)

private theorem decodePositions_encode {positions : Dict Text DecimalPosition}
    (h : ∀ p ∈ positions.entries, p.2.Named) :
    decodePositions F (encodePositions F positions) = some positions := by
  have hdecode : ∀ l : List (Text × DecimalPosition), (l.map fun p => (p.1, p.2.encode)).mapM
      (fun p => (DecimalPosition.decode p.2).map fun pos => (p.1, pos)) = some l := by
    intro l
    induction l with
    | nil => rfl
    | cons p l ih =>
      rw [List.map_cons, List.mapM_cons, ih, DecimalPosition.decode_encode]
      rfl
  unfold decodePositions
  rw [loads_encodePositions h]
  dsimp only
  rw [hdecode, Option.map_some, Dict.ofList_entries]

/-- A saved portfolio is restored whole, whatever the broker had before, and saving it again changes nothing. -/
theorem connect_saved {p : DecimalPortfolio} (hcash : p.cash.isSignaling = false)
    (h : ∀ q ∈ p.positions.entries, q.2.Named) (q : DecimalPortfolio) :
    SavedPortfolio.connect F (p.save F) {} q = ⟨p, p.save F⟩ := by
  have hrestore : restore F (p.save F) {} q = (p, none) := by
    unfold restore save
    simp only [Bool.false_eq_true, if_false, Decimal.parse_toText, decodePositions_encode h]
  unfold SavedPortfolio.connect
  rw [hrestore]
  exact if_neg (by rw [hcash]; exact Bool.false_ne_true)

end DecimalPortfolio

/-! ### A restore that fails -/

section FailedRestore

variable {F : FloatText} {initialBalance : Decimal} {cash positions : Text} {faults : ReadFaults}

open DecimalPortfolio SavedPortfolio

/-- The saved portfolio has survived a restore: connecting and disconnecting leave both texts as they are, and the
portfolio in memory is the whole saved one or a new one. -/
structure SavedKept (F : FloatText) (initialBalance : Decimal) (cash positions : Text) (faults : ReadFaults) :
    Prop where
  texts : ∀ n, ((disconnect F)^[n] (connect F ⟨some cash, some positions⟩ faults (fresh initialBalance))).texts =
    ⟨some cash, some positions⟩
  portfolio : (connect F ⟨some cash, some positions⟩ faults (fresh initialBalance)).portfolio = fresh initialBalance ∨
    ofTexts F cash positions = some (connect F ⟨some cash, some positions⟩ faults (fresh initialBalance)).portfolio

/-- The saved portfolio is what a save writes that knows of no position: the positions are the text of no positions,
and the cash is the text of the balance that the restore has left. -/
def SavedFlat (initialBalance : Decimal) (cash positions : Text) (faults : ReadFaults) : Prop :=
  positions = ['{', '}'] ∧
    if faults.cash then cash = initialBalance.toText else (Decimal.parse cash).map Decimal.toText = some cash

private theorem portfolio_connect (texts : PortfolioTexts) (p : DecimalPortfolio) :
    (connect F texts faults p).portfolio = (restore F texts faults p).1 := by
  unfold connect
  dsimp only
  split <;> rfl

private theorem iterate_disconnect (s : SavedPortfolio) (n : ℕ) :
    (disconnect F)^[n + 1] s = ⟨s.portfolio, s.portfolio.save F⟩ := by
  induction n generalizing s with
  | zero => rfl
  | succ n ih =>
    rw [Function.iterate_succ_apply, ih]
    rfl

/-- The texts last exactly if they are what a save writes. -/
private theorem texts_kept_iff (texts : PortfolioTexts) (p : DecimalPortfolio) :
    (∀ n, ((disconnect F)^[n] (connect F texts faults p)).texts = texts) ↔
      (restore F texts faults p).1.save F = texts := by
  constructor
  · intro h
    have hone := h 1
    rw [iterate_disconnect, portfolio_connect] at hone
    exact hone
  · intro h n
    cases n with
    | zero =>
      show (connect F texts faults p).texts = texts
      unfold connect
      dsimp only
      split
      · rfl
      · exact h
    | succ n =>
      rw [iterate_disconnect, portfolio_connect]
      exact h

/-- What a failed restore leaves: no position, and the cash read if it was read. -/
private theorem restore_failed {error : RestoreError}
    (h : (restore F ⟨some cash, some positions⟩ faults (fresh initialBalance)).2 = some error) :
    (restore F ⟨some cash, some positions⟩ faults (fresh initialBalance)).1 =
      fresh (if faults.cash then initialBalance else (Decimal.parse cash).getD initialBalance) := by
  unfold restore at h ⊢
  cases hcash : faults.cash with
  | true => rfl
  | false =>
    rw [hcash] at h
    cases hparse : Decimal.parse cash with
    | none =>
      simp only [hparse]
      rfl
    | some d =>
      simp only [hparse] at h ⊢
      cases hfault : faults.positions with
      | true => rfl
      | false =>
        rw [hfault] at h
        -- the positions were read, so they did not decode
        cases hdecode : decodePositions F positions with
        | none => rfl
        | some decoded =>
          rw [hdecode] at h
          cases h

/-- After a restore that failed, whatever failed in it, the saved portfolio is kept if and only if the stored texts
were those of a portfolio without positions, in the form in which a save writes it. -/
theorem failed_restore_keeps_saved_iff {error : RestoreError}
    (h : (restore F ⟨some cash, some positions⟩ faults (fresh initialBalance)).2 = some error) :
    SavedKept F initialBalance cash positions faults ↔ SavedFlat initialBalance cash positions faults := by
  have hleft := restore_failed h
  have hsave : ∀ c : Decimal,
      (fresh c).save F = ⟨some cash, some positions⟩ ↔ c.toText = cash ∧ ['{', '}'] = positions := by
    intro c
    show PortfolioTexts.mk (some c.toText) (some ['{', '}']) = _ ↔ _
    rw [PortfolioTexts.mk.injEq, Option.some.injEq, Option.some.injEq]
  constructor
  · intro hkept
    have htexts := (texts_kept_iff _ _).1 hkept.texts
    rw [hleft, hsave] at htexts
    obtain ⟨hcash, hpositions⟩ := htexts
    refine ⟨hpositions.symm, ?_⟩
    split
    case isTrue hfault =>
      rw [if_pos hfault] at hcash
      exact hcash.symm
    case isFalse hfault =>
      rw [if_neg hfault] at hcash
      cases hparse : Decimal.parse cash with
      | some d =>
        rw [hparse] at hcash
        exact congrArg some hcash
      | none =>
        -- a text that does not parse is not the text of a number
        rw [hparse] at hcash
        rw [← hcash, Option.getD_none, Decimal.parse_toText] at hparse
        cases hparse
  · rintro ⟨rfl, hcash⟩
    cases hfault : faults.cash with
    | true =>
      rw [if_pos hfault] at hcash
      rw [if_pos hfault] at hleft
      refine ⟨(texts_kept_iff _ _).2 ?_, .inl ?_⟩
      · rw [hleft, hsave]
        exact ⟨hcash.symm, rfl⟩
      · rw [portfolio_connect, hleft]
    | false =>
      rw [if_neg (by rw [hfault]; decide)] at hcash hleft
      obtain ⟨d, hparse, htext⟩ := Option.map_eq_some_iff.1 hcash
      rw [hparse, Option.getD_some] at hleft
      refine ⟨(texts_kept_iff _ _).2 ?_, .inr ?_⟩
      · rw [hleft, hsave]
        exact ⟨htext, rfl⟩
      · rw [portfolio_connect, hleft, ofTexts, hparse]
        rfl

/-- The new portfolio of a first start, saved, is kept when the positions cannot be read. -/
theorem failed_restore_keeps_saved_flat :
    SavedKept .decimal (.finite false 100000 (-1)) "10000.0".toList ['{', '}'] ⟨false, true⟩ :=
  (failed_restore_keeps_saved_iff rfl).2 ⟨rfl, by decide⟩

/-- A long position in memory. -/
def savedLong : DecimalPortfolio where
  cash := .finite false 979981 (-2)
  positions := Dict.empty.set "BTC/USDT".toList
    ⟨.str "BTC/USDT".toList, .str "buy".toList, .finite false 199900049 (-8), .finite false 10005000000 (-8),
      .finite false 20019 (-2)⟩

/-- When the positions of a saved portfolio cannot be read, the position is overwritten, and the cash that paid for it
is all that is left in memory. -/
theorem failed_restore_destroys_saved : ¬ ∀ (F : FloatText) (initialBalance : Decimal) (cash positions : Text)
    (faults : ReadFaults) (error : RestoreError),
    (restore F ⟨some cash, some positions⟩ faults (fresh initialBalance)).2 = some error →
      SavedKept F initialBalance cash positions faults := by
  intro h
  have hkept := h .decimal (.finite false 100000 (-1)) savedLong.cash.toText
    (encodePositions .decimal savedLong.positions) ⟨false, true⟩ .positionsRead (by decide +kernel)
  exact absurd (hkept.texts 0) (by decide +kernel)

end FailedRestore

end MultiAgentTrading
