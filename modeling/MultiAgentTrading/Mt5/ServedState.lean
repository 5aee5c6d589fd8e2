import MultiAgentTrading.Api.Portfolio
import MultiAgentTrading.Mt5.Heartbeat

/-!
# The state of the terminal as the API shows it

The bridge answers for the terminal from its newest heartbeat, and it saves what it read of it, converted anew, under
two keys that expire.  The API shows what it reads under these keys.  While the keys live, bridge and API show the same
balance and the same positions (`mt5_state_served`).
-/

open Json

namespace MultiAgentTrading.Mt5

open Api FixedPoint

/-! ### What the bridge saves -/

/-- `float(data.get(key, 0))`. -/
def floatField (data : Json) (key : String) : Option Json :=
  ((data.get? key.toList).elim (some (.finite false 0 0)) toFloat).map .float

/-- `float(level) if level else None`. -/
def levelField (data : Json) (key : String) : Option Json :=
  match data.get? key.toList with
  | none => some .null
  | some v => if v.truthy then (toFloat v).map .float else some .null

/-- `to_python` of a symbol, or the symbol if it is not mapped. -/
def savedSymbol : Json → Option Json
  | .str s => some (.str (((toPython (String.ofList s)).map String.toList).getD s))
  | .arr _ => none
  | .obj _ => none
  | v => some v

def savedBalance (bal : Json) : Option Json := do
  some (.obj
    [("total_equity_usd".toList, ← floatField bal "total_equity"),
      ("free_margin_usd".toList, ← floatField bal "free_margin"),
      ("used_margin_usd".toList, ← floatField bal "used_margin"),
      ("currency".toList, (bal.get? "currency".toList).getD (.str "USD".toList))])

def savedPosition (pos : Json) : Option Json := do
  some (.obj
    [("symbol".toList, ← savedSymbol ((pos.get? "symbol".toList).getD (.str []))),
      ("side".toList, (pos.get? "side".toList).getD (.str "buy".toList)),
      ("quantity".toList, ← floatField pos "quantity"),
      ("entry_price".toList, ← floatField pos "entry_price"),
      ("current_price".toList, ← floatField pos "current_price"),
      ("unrealised_pnl_usd".toList, ← floatField pos "unrealised_pnl"),
      ("stop_loss".toList, ← levelField pos "stop_loss"),
      ("take_profit".toList, ← levelField pos "take_profit")])

/-- What the items of an object and of an array have in common: `.get` on anything else raises. -/
def asObject : Json → Option Json
  | .obj fields => some (.obj fields)
  | _ => none

/-- The balance and the positions of `_save_mt5_state`, none if anything raises. -/
def savedState (state : Json) : Option (Json × Json) := do
  let state ← asObject state
  let balance ← savedBalance (← asObject ((state.get? "balance".toList).getD (.obj [])))
  match (state.get? "positions".toList).getD (.arr []) with
  | .arr items => some (balance, .arr (← items.mapM fun pos => (asObject pos).bind savedPosition))
  | _ => none

/-- A text stored with `setex`. -/
structure Expiring where
  text : Text
  expires : ℚ

/-- What `get` finds of it. -/
def Expiring.at (k : Option Expiring) (now : ℚ) : Option Text :=
  k.bind fun k => if now < k.expires then some k.text else none

structure Mt5Keys where
  balance : Option Expiring := none
  positions : Option Expiring := none

/-- `_save_mt5_state` of a heartbeat at the moment of its two writes. -/
def Mt5Keys.save (keys : Mt5Keys) (now : ℚ) (state : Json) : Mt5Keys :=
  match savedState state with
  | none => keys
  | some (balance, positions) =>
    ⟨some ⟨dumps pointed balance, now + 30⟩, some ⟨dumps pointed positions, now + 30⟩⟩

/-! ### What the API reads -/

/-- A position of `GET /positions` in MT5 mode. -/
def servedPosition (p : Json) : Option ServedPosition := do
  let quantity ← floatAt "quantity" p
  let entryPrice ← floatAt "entry_price" p
  some
    { symbol := ← p.get? "symbol".toList
      side := ← p.get? "side".toList
      quantity := quantity
      entryPrice := entryPrice
      currentPrice := ← (p.get? "current_price".toList).elim (some entryPrice) pyFloat
      unrealisedPnlUsd := ← (p.get? "unrealised_pnl_usd".toList).elim (some 0) pyFloat
      costUsd := quantity * entryPrice }

def servedPositions (raw : Option Text) : List ServedPosition :=
  match raw.bind (Json.loads pointed) with
  | some (.arr items) => (items.mapM servedPosition).getD []
  | _ => []

/-- `float(data.get(key, 0))` of the API. -/
def floatOrZero (data : Json) (key : String) : Option ℚ := (data.get? key.toList).elim (some 0) pyFloat

/-- `GET /positions/balance` in MT5 mode. -/
def servedBalance (raw : Option Text) : ServedBalance :=
  let balance : Option ServedBalance := do
    let data ← (raw.bind (Json.loads pointed)).bind asObject
    some
      { totalEquityUsd := ← floatOrZero data "total_equity_usd"
        freeMarginUsd := ← floatOrZero data "free_margin_usd"
        usedMarginUsd := ← floatOrZero data "used_margin_usd"
        currency := (data.get? "currency".toList).getD (.str "USD".toList) }
  balance.getD {}

/-! ### Both show the same -/

/-- What is shown for a position that the bridge reports. -/
def ReportedPosition.served (p : ReportedPosition) : ServedPosition where
  symbol := .str p.symbol.toList
  side := .str (sideText p.side).toList
  quantity := p.quantity
  entryPrice := p.entryPrice
  currentPrice := p.currentPrice
  unrealisedPnlUsd := p.unrealisedPnlUsd
  costUsd := p.quantity * p.entryPrice

def ReportedBalance.served (b : ReportedBalance) : ServedBalance where
  totalEquityUsd := b.totalEquityUsd
  freeMarginUsd := b.freeMarginUsd
  usedMarginUsd := b.usedMarginUsd
  currency := .str b.currency.toList

/-- The float that a number with decimals stands for. -/
private def floatOf (digits : ℕ) (x : ℚ) : Json := (ReplyValue.number digits x).json

private theorem readsBefore_floatOf {digits : ℕ} (hdigits : 0 < digits) (x : ℚ) :
    ReadsBefore pointed (floatOf digits x) := readsBefore_pointed hdigits _

private theorem pyFloat_floatOf (digits : ℕ) (x : ℚ) : pyFloat (floatOf digits x) = some (normalizeDouble x digits) :=
  numberOf_number digits x

private theorem floatField_number {data : Json} {key : String} {digits : ℕ} {x : ℚ}
    (h : data.get? key.toList = some (ReplyValue.number digits x).json) :
    floatField data key = some (floatOf digits x) := by
  rw [floatField, h]
  rfl

private theorem levelField_number {data : Json} {key : String} {digits : ℕ} {x : ℚ} (hdigits : 0 < digits)
    (h : data.get? key.toList = some (ReplyValue.number digits x).json) :
    ∃ v, levelField data key = some v ∧ ReadsBefore pointed v := by
  rw [levelField, h]
  dsimp only
  split
  · exact ⟨_, rfl, readsBefore_floatOf hdigits x⟩
  · exact ⟨_, rfl, readsBefore_null⟩

/-- What is saved of a position, with what becomes of its stop and its target. -/
private def savedJson (p : HeldPosition) (stop target : Json) : Json :=
  .obj [("symbol".toList, .str p.reported.symbol.toList), ("side".toList, .str (sideText p.side).toList),
    ("quantity".toList, floatOf 8 p.volume), ("entry_price".toList, floatOf 8 p.priceOpen),
    ("current_price".toList, floatOf 8 p.priceCurrent), ("unrealised_pnl_usd".toList, floatOf 2 p.profit),
    ("stop_loss".toList, stop), ("take_profit".toList, target)]

private theorem savedPosition_positionFields (p : HeldPosition) :
    ∃ stop target, savedPosition (replyJson (positionFields p)) = some (savedJson p stop target) ∧
      ReadsBefore pointed stop ∧ ReadsBefore pointed target := by
  have hsymbol : savedSymbol (((replyJson (positionFields p)).get? "symbol".toList).getD (.str [])) =
      some (.str p.reported.symbol.toList) := by
    show some (Json.str (((toPython (String.ofList p.symbol.toList)).map String.toList).getD p.symbol.toList)) = _
    rw [String.ofList_toList, HeldPosition.reported]
    cases toPython p.symbol <;> rfl
  have hside : ((replyJson (positionFields p)).get? "side".toList).getD (.str "buy".toList) =
      .str (sideText p.side).toList := rfl
  have hquantity : floatField (replyJson (positionFields p)) "quantity" = _ := floatField_number rfl
  have hentry : floatField (replyJson (positionFields p)) "entry_price" = _ := floatField_number rfl
  have hcurrent : floatField (replyJson (positionFields p)) "current_price" = _ := floatField_number rfl
  have hpnl : floatField (replyJson (positionFields p)) "unrealised_pnl" = _ := floatField_number rfl
  obtain ⟨stop, hstop, hreadStop⟩ : ∃ v, levelField (replyJson (positionFields p)) "stop_loss" = some v ∧
    ReadsBefore pointed v := levelField_number (Nat.succ_pos 7) rfl
  obtain ⟨target, htarget, hreadTarget⟩ : ∃ v, levelField (replyJson (positionFields p)) "take_profit" = some v ∧
    ReadsBefore pointed v := levelField_number (Nat.succ_pos 7) rfl
  refine ⟨stop, target, ?_, hreadStop, hreadTarget⟩
  simp only [savedPosition, hsymbol, hside, hquantity, hentry, hcurrent, hpnl, hstop, htarget, Option.bind_eq_bind,
    Option.bind_some]
  rfl

private theorem readsBefore_savedJson (p : HeldPosition) {stop target : Json} (hstop : ReadsBefore pointed stop)
    (htarget : ReadsBefore pointed target) : ReadsBefore pointed (savedJson p stop target) := by
  refine readsBefore_obj (by simp only [List.map_cons, List.map_nil]; decide +kernel) ?_
  simp only [List.forall_mem_cons, List.not_mem_nil, false_implies, implies_true, and_true]
  exact ⟨(reads_str _).readsBefore, (reads_str _).readsBefore, readsBefore_floatOf (Nat.succ_pos 7) _,
    readsBefore_floatOf (Nat.succ_pos 7) _, readsBefore_floatOf (Nat.succ_pos 7) _,
    readsBefore_floatOf (Nat.succ_pos 1) _, hstop, htarget⟩

private theorem servedPosition_savedJson (p : HeldPosition) (stop target : Json) :
    servedPosition (savedJson p stop target) = some p.reported.served := by
  have hsymbol : (savedJson p stop target).get? "symbol".toList = some (.str p.reported.symbol.toList) := rfl
  have hside : (savedJson p stop target).get? "side".toList = some (.str (sideText p.side).toList) := rfl
  have hquantity : floatAt "quantity" (savedJson p stop target) = _ := pyFloat_floatOf 8 p.volume
  have hentry : floatAt "entry_price" (savedJson p stop target) = _ := pyFloat_floatOf 8 p.priceOpen
  have hcurrent (x : Option ℚ) : ((savedJson p stop target).get? "current_price".toList).elim x pyFloat = _ :=
    pyFloat_floatOf 8 p.priceCurrent
  have hpnl : ((savedJson p stop target).get? "unrealised_pnl_usd".toList).elim (some 0) pyFloat = _ :=
    pyFloat_floatOf 2 p.profit
  simp only [servedPosition, hsymbol, hside, hquantity, hentry, hcurrent, hpnl, Option.bind_eq_bind, Option.bind_some]
  rfl

/-- The positions as they are saved, and shown again. -/
private theorem mapM_saved (positions : List HeldPosition) :
    ∃ vs, (positions.map fun p => replyJson (positionFields p)).mapM (fun pos => (asObject pos).bind savedPosition) =
        some vs ∧ (∀ v ∈ vs, ReadsBefore pointed v) ∧
      vs.mapM servedPosition = some (positions.map fun p => p.reported.served) := by
  induction positions with
  | nil => exact ⟨[], rfl, fun v hv => absurd hv List.not_mem_nil, rfl⟩
  | cons p positions ih =>
    obtain ⟨vs, hsaved, hread, hserved⟩ := ih
    obtain ⟨stop, target, hsavedPos, hstop, htarget⟩ := savedPosition_positionFields p
    have hobject : (asObject (replyJson (positionFields p))).bind savedPosition = some (savedJson p stop target) :=
      hsavedPos
    refine ⟨savedJson p stop target :: vs, ?_, List.forall_mem_cons.2 ⟨readsBefore_savedJson p hstop htarget, hread⟩,
      ?_⟩
    · rw [List.map_cons, List.mapM_cons, hobject, hsaved]
      rfl
    · rw [List.mapM_cons, servedPosition_savedJson, hserved]
      rfl

private def savedBalanceJson (account : Account) : Json :=
  .obj [("total_equity_usd".toList, floatOf 2 account.equity), ("free_margin_usd".toList, floatOf 2 account.freeMargin),
    ("used_margin_usd".toList, floatOf 2 account.usedMargin), ("currency".toList, .str account.currency)]

private theorem savedBalance_balanceFields (account : Account) :
    savedBalance (replyJson (balanceFields account)) = some (savedBalanceJson account) := by
  have hequity : floatField (replyJson (balanceFields account)) "total_equity" = _ := floatField_number rfl
  have hfree : floatField (replyJson (balanceFields account)) "free_margin" = _ := floatField_number rfl
  have hused : floatField (replyJson (balanceFields account)) "used_margin" = _ := floatField_number rfl
  simp only [savedBalance, hequity, hfree, hused, Option.bind_eq_bind, Option.bind_some]
  rfl

private theorem readsBefore_savedBalanceJson (account : Account) :
    ReadsBefore pointed (savedBalanceJson account) := by
  refine readsBefore_obj (by simp only [List.map_cons, List.map_nil]; decide +kernel) ?_
  simp only [List.forall_mem_cons, List.not_mem_nil, false_implies, implies_true, and_true]
  exact ⟨readsBefore_floatOf (Nat.succ_pos 1) _, readsBefore_floatOf (Nat.succ_pos 1) _,
    readsBefore_floatOf (Nat.succ_pos 1) _, (reads_str _).readsBefore⟩

private theorem servedBalance_dumps (account : Account) :
    servedBalance (some (dumps pointed (savedBalanceJson account))) = account.reported.served := by
  have hequity : floatOrZero (savedBalanceJson account) "total_equity_usd" = _ := pyFloat_floatOf 2 account.equity
  have hfree : floatOrZero (savedBalanceJson account) "free_margin_usd" = _ := pyFloat_floatOf 2 account.freeMargin
  have hused : floatOrZero (savedBalanceJson account) "used_margin_usd" = _ := pyFloat_floatOf 2 account.usedMargin
  have hobject : asObject (savedBalanceJson account) = some (savedBalanceJson account) := rfl
  have hcurrency : ((savedBalanceJson account).get? "currency".toList).getD (.str "USD".toList) =
      .str account.reported.currency.toList :=
    congrArg Json.str (String.toList_ofList).symm
  rw [servedBalance, Option.bind_some, (readsBefore_savedBalanceJson account).loads_dumps]
  simp only [hobject, hequity, hfree, hused, hcurrency, Option.bind_eq_bind, Option.bind_some, Option.getD_some]
  rfl

/-- While the keys that the bridge has saved for its newest heartbeat live, the API shows the positions and the balance
that the bridge answers with, in the same order and under the same names; from the moment they expire, thirty seconds
after the save, it shows nothing. -/
theorem mt5_state_served {account : Account} {positions : List HeldPosition} (hcurrency : PlainText account.currency)
    (hsymbols : ∀ p ∈ positions, PlainText p.symbol.toList) (s : HeartbeatState) (keys : Mt5Keys) (time saved : ℚ) :
    let bridge := s.handleState time (stateText account positions)
    let keys' := keys.save saved bridge.cachedState
    ∃ reported balance, bridge.getPositions = some reported ∧ bridge.getBalance = some balance ∧
      (∀ now < saved + 30, servedPositions (Expiring.at keys'.positions now) = reported.map ReportedPosition.served ∧
        servedBalance (Expiring.at keys'.balance now) = balance.served) ∧
      ∀ now, saved + 30 ≤ now → servedPositions (Expiring.at keys'.positions now) = [] ∧
        servedBalance (Expiring.at keys'.balance now) = {} := by
  have hbridge : s.handleState time (stateText account positions) =
      { cachedState := stateJson account positions, lastHeartbeatAt := some time } := by
    rw [HeartbeatState.handleState, loads_stateText hcurrency hsymbols]
  obtain ⟨vs, hsaved, hread, hserved⟩ := mapM_saved (positions.filter fun p => p.selectable)
  have hstate : savedState (stateJson account positions) = some (savedBalanceJson account, .arr vs) := by
    have hbalance : ((stateJson account positions).get? "balance".toList).getD (.obj []) =
        replyJson (balanceFields account) := rfl
    have hpositions : ((stateJson account positions).get? "positions".toList).getD (.arr []) =
        .arr ((positions.filter fun p => p.selectable).map fun p => replyJson (positionFields p)) := rfl
    have hobject : asObject (stateJson account positions) = some (stateJson account positions) := rfl
    have hobject' : asObject (replyJson (balanceFields account)) = some (replyJson (balanceFields account)) := rfl
    simp only [savedState, hobject, hbalance, hobject', hpositions, savedBalance_balanceFields, hsaved,
      Option.bind_eq_bind, Option.bind_some]
  have hkeys : keys.save saved (stateJson account positions) =
      ⟨some ⟨dumps pointed (savedBalanceJson account), saved + 30⟩, some ⟨dumps pointed (.arr vs), saved + 30⟩⟩ := by
    rw [Mt5Keys.save, hstate]
  dsimp only
  rw [hbridge, hkeys]
  refine ⟨_, _, mapM_reported _, getBalance_stateJson account positions _, fun now hnow => ?_, fun now hnow => ?_⟩
  · simp only [Expiring.at, Option.bind_some, if_pos hnow]
    refine ⟨?_, servedBalance_dumps account⟩
    rw [servedPositions, Option.bind_some, (readsBefore_arr hread).loads_dumps]
    dsimp only
    rw [hserved, Option.getD_some, List.map_map]
    rfl
  · simp only [Expiring.at, Option.bind_some, if_neg (not_lt.2 hnow)]
    exact ⟨rfl, rfl⟩

theorem mt5_state_served_long :
    let bridge := ({} : HeartbeatState).handleState 0 (stateText ⟨1000, 900, 100, "USD".toList⟩ [heldLong])
    ∃ reported, bridge.getPositions = some reported ∧
      servedPositions (Expiring.at (Mt5Keys.save {} 1 bridge.cachedState).positions 30) =
        reported.map ReportedPosition.served := by
  obtain ⟨reported, balance, hpositions, -, hlive, -⟩ := @mt5_state_served ⟨1000, 900, 100, "USD".toList⟩ [heldLong]
    (by decide +kernel) (by decide +kernel) {} {} 0 1
  exact ⟨reported, hpositions, (hlive 30 (by norm_num)).1⟩

end MultiAgentTrading.Mt5
