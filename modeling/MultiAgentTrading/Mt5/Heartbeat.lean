import MultiAgentTrading.Mt5.OrderRoundTrip

/-!
# The heartbeat of the terminal

The advisor posts its balance and positions as a text, and the bridge answers for them from the newest text that it
could read.  What the bridge says of balance and positions is what the terminal has shown, with the decimals that are
posted, and it takes the terminal for connected for five seconds (`heartbeat_read_back`).
-/

open Json

namespace MultiAgentTrading.Mt5

/-- `AccountInfoDouble` and `AccountInfoString`. -/
structure Account where
  equity : ℚ
  freeMargin : ℚ
  usedMargin : ℚ
  currency : Text

/-- What the terminal tells of a position. -/
structure HeldPosition extends ListedPosition where
  priceOpen : ℚ
  priceCurrent : ℚ
  profit : ℚ := 0
  sl : ℚ := 0
  tp : ℚ := 0

/-! ### What the advisor posts -/

def positionText (p : HeldPosition) : Text :=
  "\x7b".toList ++
    "\"ticket\":".toList ++ dumpsInt p.ticket ++ ",".toList ++
    "\"symbol\":\"".toList ++ p.symbol.toList ++ "\",".toList ++
    "\"side\":\"".toList ++ (sideText p.side).toList ++ "\",".toList ++
    "\"quantity\":".toList ++ doubleToString p.volume 8 ++ ",".toList ++
    "\"entry_price\":".toList ++ doubleToString p.priceOpen 8 ++ ",".toList ++
    "\"current_price\":".toList ++ doubleToString p.priceCurrent 8 ++ ",".toList ++
    "\"unrealised_pnl\":".toList ++ doubleToString p.profit 2 ++ ",".toList ++
    "\"stop_loss\":".toList ++ doubleToString p.sl 8 ++ ",".toList ++
    "\"take_profit\":".toList ++ doubleToString p.tp 8 ++ "\x7d".toList

/-- The loop of `BuildPositionsJSON`: positions that cannot be selected are passed over. -/
def appendPositions (arr : Text) (first : Bool) : List HeldPosition → Text
  | [] => arr ++ "]".toList
  | p :: ps =>
    if p.selectable = false then appendPositions arr first ps
    else appendPositions ((if first then arr else arr ++ ",".toList) ++ positionText p) false ps

def buildPositionsJSON (positions : List HeldPosition) : Text := appendPositions "[".toList true positions

/-- What `PostState` posts. -/
def stateText (account : Account) (positions : List HeldPosition) : Text :=
  let balanceJson :=
    "\x7b\"total_equity\":".toList ++ doubleToString account.equity 2 ++ ",".toList ++
      "\"free_margin\":".toList ++ doubleToString account.freeMargin 2 ++ ",".toList ++
      "\"used_margin\":".toList ++ doubleToString account.usedMargin 2 ++ ",".toList ++
      "\"currency\":\"".toList ++ account.currency ++ "\"\x7d".toList
  "\x7b\"balance\":".toList ++ balanceJson ++ ",\"positions\":".toList ++ buildPositionsJSON positions ++ "\x7d".toList

/-! ### What the bridge makes of it -/

/-- `_mt5_to_python`: the mappings the other way round, and a second name of one of them. -/
def mt5ToPython : Dict String String :=
  let reversed := Dict.ofList (defaultMappings.map Prod.swap)
  if reversed.contains "ETHUSDT" then reversed else reversed.set "ETHUSDT" "ETH/USDT"

def toPython (symbol : String) : Option String := mt5ToPython.get? symbol

structure ReportedBalance extends BrokerBalance where
  currency : String := "USD"

structure ReportedPosition extends BrokerPosition where
  stopLoss : Option ℚ := none
  takeProfit : Option ℚ := none
  positionId : String
  deriving DecidableEq

/-- `Decimal(str(value))`, none if it raises. -/
def decimalOf : Json → Option ℚ
  | .str s => (Decimal.parse s).bind Decimal.toRat
  | v => numberOf v

/-- `Decimal(str(pos.get(key, 0)))`. -/
def decimalField (body : Json) (key : String) : Option ℚ := ((body.get? key.toList).map decimalOf).getD (some 0)

/-- `Decimal(str(value)) if value else None`. -/
def stopField (body : Json) (key : String) : Option (Option ℚ) :=
  match body.get? key.toList with
  | none => some none
  | some v => if v.truthy then (decimalOf v).map some else some none

def textField (body : Json) (key default : String) : Option String :=
  match body.get? key.toList with
  | none => some default
  | some (.str s) => some (String.ofList s)
  | some (.int n) => some (String.ofList (dumpsInt n))
  | some _ => none

def OrderSide.ofText (s : String) : Option OrderSide :=
  if s = "buy" then some .buy else if s = "sell" then some .sell else none

/-- A position of `get_positions`; a symbol that is not mapped is kept. -/
def reportedPosition (pos : Json) : Option ReportedPosition := do
  let mt5Sym ← textField pos "symbol" ""
  let side ← (textField pos "side" "buy").bind OrderSide.ofText
  some
    { symbol := (toPython mt5Sym).getD mt5Sym
      side := side
      quantity := ← decimalField pos "quantity"
      entryPrice := ← decimalField pos "entry_price"
      currentPrice := ← decimalField pos "current_price"
      unrealisedPnlUsd := ← decimalField pos "unrealised_pnl"
      stopLoss := ← stopField pos "stop_loss"
      takeProfit := ← stopField pos "take_profit"
      positionId := ← textField pos "ticket" "" }

/-- The state of the bridge that heartbeats set. -/
structure HeartbeatState where
  cachedState : Json := .obj []
  lastHeartbeatAt : Option ℚ := none

namespace HeartbeatState

/-- `_handle_state`: a text that cannot be read changes nothing. -/
def handleState (s : HeartbeatState) (now : ℚ) (text : Text) : HeartbeatState :=
  match Json.loads .decimal text with
  | none => s
  | some body => { cachedState := body, lastHeartbeatAt := some now }

/-- The state after some posts, each with its time. -/
def after (s : HeartbeatState) (posts : List (ℚ × Text)) : HeartbeatState :=
  posts.foldl (fun s post => s.handleState post.1 post.2) s

def getPositions (s : HeartbeatState) : Option (List ReportedPosition) :=
  match s.cachedState.get? "positions".toList with
  | none => some []
  | some (.arr items) => items.mapM reportedPosition
  | some _ => none

/-- `get_balance`, none if it raises. -/
def getBalance (s : HeartbeatState) : Option ReportedBalance := do
  let data ← s.cachedState.get? "balance".toList
  some
    { totalEquityUsd := ← decimalField data "total_equity"
      freeMarginUsd := ← decimalField data "free_margin"
      usedMarginUsd := ← decimalField data "used_margin"
      currency := ← textField data "currency" "USD" }

/-- `_HEARTBEAT_STALE_SECONDS`. -/
def heartbeatStaleSeconds : ℚ := 5

def ping (s : HeartbeatState) (now : ℚ) : Bool :=
  match s.lastHeartbeatAt with
  | none => false
  | some t => now - t < heartbeatStaleSeconds

end HeartbeatState

/-! ### The text as fields -/

def positionFields (p : HeldPosition) : List (Text × ReplyValue) :=
  [("ticket".toList, .int p.ticket), ("symbol".toList, .str p.symbol.toList),
    ("side".toList, .str (sideText p.side).toList), ("quantity".toList, .number 8 p.volume),
    ("entry_price".toList, .number 8 p.priceOpen), ("current_price".toList, .number 8 p.priceCurrent),
    ("unrealised_pnl".toList, .number 2 p.profit), ("stop_loss".toList, .number 8 p.sl),
    ("take_profit".toList, .number 8 p.tp)]

def balanceFields (account : Account) : List (Text × ReplyValue) :=
  [("total_equity".toList, .number 2 account.equity), ("free_margin".toList, .number 2 account.freeMargin),
    ("used_margin".toList, .number 2 account.usedMargin), ("currency".toList, .str account.currency)]

private theorem positionText_eq (p : HeldPosition) : positionText p = replyText (positionFields p) := by
  unfold positionText
  simp only [replyText, positionFields, objectText, List.map_cons, List.map_nil, joinFields, ReplyValue.text,
    String.reduceToList, List.append_assoc, List.cons_append, List.nil_append]

private theorem appendPositions_eq (positions : List HeldPosition) : ∀ arr : Text,
    appendPositions arr false positions =
        arr ++ (((positions.filter fun p => p.selectable).map positionText).flatMap (',' :: ·) ++ [']']) ∧
      appendPositions arr true positions =
        arr ++ (joinItems ((positions.filter fun p => p.selectable).map positionText) ++ [']']) := by
  have hend : "]".toList = [']'] := rfl
  have hcomma : ",".toList = [','] := rfl
  induction positions with
  | nil =>
    intro arr
    exact ⟨congrArg (arr ++ ·) hend, congrArg (arr ++ ·) hend⟩
  | cons p positions ih =>
    intro arr
    cases hselectable : p.selectable with
    | false =>
      rw [List.filter_cons_of_neg (by simp [hselectable]), appendPositions, if_pos hselectable, appendPositions,
        if_pos hselectable]
      exact ih arr
    | true =>
      have hneg : ¬p.selectable = false := by simp [hselectable]
      rw [List.filter_cons_of_pos (by simp [hselectable]), appendPositions, if_neg hneg, appendPositions, if_neg hneg,
        (ih _).1, (ih _).1, List.map_cons, joinItems_cons, hcomma]
      simp

private theorem stateText_eq (account : Account) (positions : List HeldPosition) :
    stateText account positions = objectText
      [("balance".toList, replyText (balanceFields account)), ("positions".toList,
        arrayText ((positions.filter fun p => p.selectable).map fun p => replyText (positionFields p)))] := by
  have hmap : positionText = fun p => replyText (positionFields p) := funext positionText_eq
  have harr : buildPositionsJSON positions =
      arrayText ((positions.filter fun p => p.selectable).map fun p => replyText (positionFields p)) := by
    have hopen : "[".toList = ['['] := rfl
    rw [buildPositionsJSON, (appendPositions_eq positions _).2, hmap, hopen]
    rfl
  unfold stateText
  rw [harr]
  simp only [replyText, balanceFields, objectText, List.map_cons, List.map_nil, joinFields, ReplyValue.text,
    String.reduceToList, List.append_assoc, List.cons_append, List.nil_append]

/-! ### What is read of it -/

private theorem readsAs_positionFields {p : HeldPosition} (h : PlainText p.symbol.toList) :
    ReadsAs .decimal (replyText (positionFields p)) (replyJson (positionFields p)) := by
  refine readsAs_replyText ?_ ?_
  · simp only [positionFields, List.forall_mem_cons, List.not_mem_nil, false_implies, implies_true, and_true]
    refine ⟨⟨?_, trivial⟩, ⟨?_, h⟩, ⟨?_, plain_sideText p.side⟩, ⟨?_, ?_⟩, ⟨?_, ?_⟩, ⟨?_, ?_⟩, ⟨?_, ?_⟩, ⟨?_, ?_⟩,
      ?_, ?_⟩ <;> first | exact Nat.succ_pos _ | decide
  · simp only [positionFields, List.map_cons, List.map_nil]
    decide

private theorem readsAs_balanceFields {account : Account} (h : PlainText account.currency) :
    ReadsAs .decimal (replyText (balanceFields account)) (replyJson (balanceFields account)) := by
  refine readsAs_replyText ?_ ?_
  · simp only [balanceFields, List.forall_mem_cons, List.not_mem_nil, false_implies, implies_true, and_true]
    refine ⟨⟨?_, ?_⟩, ⟨?_, ?_⟩, ⟨?_, ?_⟩, ?_, h⟩ <;> first | exact Nat.succ_pos _ | decide
  · simp only [balanceFields, List.map_cons, List.map_nil]
    decide

/-- What is read of a heartbeat. -/
def stateJson (account : Account) (positions : List HeldPosition) : Json :=
  .obj [("balance".toList, replyJson (balanceFields account)), ("positions".toList,
    .arr ((positions.filter fun p => p.selectable).map fun p => replyJson (positionFields p)))]

theorem loads_stateText {account : Account} {positions : List HeldPosition}
    (hcurrency : PlainText account.currency) (hsymbols : ∀ p ∈ positions, PlainText p.symbol.toList) :
    Json.loads .decimal (stateText account positions) = some (stateJson account positions) := by
  have harr : ReadsAs .decimal
      (arrayText ((positions.filter fun p => p.selectable).map fun p => replyText (positionFields p)))
      (.arr ((positions.filter fun p => p.selectable).map fun p => replyJson (positionFields p))) := by
    have hread := readsAs_array (F := .decimal) ((positions.filter fun p => p.selectable).map fun p =>
      (replyText (positionFields p), replyJson (positionFields p))) ?_
    · rw [List.map_map, List.map_map] at hread
      exact hread
    · intro q hq
      obtain ⟨p, hp, rfl⟩ := List.mem_map.1 hq
      exact readsAs_positionFields (hsymbols p (List.mem_of_mem_filter hp))
  have hread := readsAs_object (F := .decimal) [("balance".toList, replyText (balanceFields account),
    replyJson (balanceFields account)), ("positions".toList,
      arrayText ((positions.filter fun p => p.selectable).map fun p => replyText (positionFields p)),
      .arr ((positions.filter fun p => p.selectable).map fun p => replyJson (positionFields p)))] ?_ ?_ ?_
  · rw [stateText_eq]
    exact hread.loads
  · simp only [List.forall_mem_cons, List.not_mem_nil, false_implies, implies_true, and_true]
    constructor <;> decide
  · simp only [List.forall_mem_cons, List.not_mem_nil, false_implies, implies_true, and_true]
    exact ⟨readsAs_balanceFields hcurrency, harr⟩
  · simp only [List.map_cons, List.map_nil]
    decide

/-- What the bridge says of a position that the terminal has shown. -/
def HeldPosition.reported (p : HeldPosition) : ReportedPosition where
  symbol := (toPython p.symbol).getD p.symbol
  side := p.side
  quantity := normalizeDouble p.volume 8
  entryPrice := normalizeDouble p.priceOpen 8
  currentPrice := normalizeDouble p.priceCurrent 8
  unrealisedPnlUsd := normalizeDouble p.profit 2
  stopLoss := if normalizeDouble p.sl 8 = 0 then none else some (normalizeDouble p.sl 8)
  takeProfit := if normalizeDouble p.tp 8 = 0 then none else some (normalizeDouble p.tp 8)
  positionId := String.ofList (dumpsInt p.ticket)

private theorem orderSideOfText_sideText (side : OrderSide) : OrderSide.ofText (sideText side) = some side := by
  cases side <;> decide

private theorem decimalField_number {body : Json} {key : String} {digits : ℕ} {x : ℚ}
    (h : body.get? key.toList = some (ReplyValue.number digits x).json) :
    decimalField body key = some (normalizeDouble x digits) := by
  rw [decimalField, h, Option.map_some, Option.getD_some]
  exact numberOf_number digits x

private theorem stopField_number {body : Json} {key : String} {digits : ℕ} {x : ℚ}
    (h : body.get? key.toList = some (ReplyValue.number digits x).json) :
    stopField body key =
      some (if normalizeDouble x digits = 0 then none else some (normalizeDouble x digits)) := by
  have hpow : (10 : ℚ) ^ digits ≠ 0 := by positivity
  have htruthy : (ReplyValue.number digits x).json.truthy = true ↔ normalizeDouble x digits ≠ 0 := by
    simp only [ReplyValue.json, Json.truthy, decide_eq_true_eq, normalizeDouble, ne_eq, div_eq_zero_iff, hpow, or_false]
    split <;> simp
  have hdecimal : decimalOf (ReplyValue.number digits x).json = some (normalizeDouble x digits) :=
    numberOf_number digits x
  rw [stopField, h]
  dsimp only
  by_cases hzero : normalizeDouble x digits = 0
  · rw [if_neg fun htrue => htruthy.1 htrue hzero, if_pos hzero]
  · rw [if_pos (htruthy.2 hzero), if_neg hzero, hdecimal, Option.map_some]

private theorem textField_str {body : Json} {key default s : String} (h : body.get? key.toList = some (.str s.toList)) :
    textField body key default = some s := by
  rw [textField, h]
  simp

private theorem reportedPosition_positionFields (p : HeldPosition) :
    reportedPosition (replyJson (positionFields p)) = some p.reported := by
  have hsymbol : textField (replyJson (positionFields p)) "symbol" "" = some p.symbol := textField_str rfl
  have hside : textField (replyJson (positionFields p)) "side" "buy" = some (sideText p.side) := textField_str rfl
  have hticket : textField (replyJson (positionFields p)) "ticket" "" = some (String.ofList (dumpsInt p.ticket)) := rfl
  have hquantity : decimalField (replyJson (positionFields p)) "quantity" = _ := decimalField_number rfl
  have hentry : decimalField (replyJson (positionFields p)) "entry_price" = _ := decimalField_number rfl
  have hcurrent : decimalField (replyJson (positionFields p)) "current_price" = _ := decimalField_number rfl
  have hpnl : decimalField (replyJson (positionFields p)) "unrealised_pnl" = _ := decimalField_number rfl
  have hstop : stopField (replyJson (positionFields p)) "stop_loss" = _ := stopField_number rfl
  have htarget : stopField (replyJson (positionFields p)) "take_profit" = _ := stopField_number rfl
  simp only [reportedPosition, hsymbol, hside, hticket, hquantity, hentry, hcurrent, hpnl, hstop, htarget,
    Option.bind_eq_bind, Option.bind_some, orderSideOfText_sideText]
  rfl

theorem mapM_reported (positions : List HeldPosition) :
    (positions.map fun p => replyJson (positionFields p)).mapM reportedPosition =
      some (positions.map HeldPosition.reported) := by
  induction positions with
  | nil => rfl
  | cons p positions ih =>
    rw [List.map_cons, List.mapM_cons, reportedPosition_positionFields, ih]
    rfl

/-- What the bridge says of the balance that the terminal has shown. -/
def Account.reported (account : Account) : ReportedBalance where
  totalEquityUsd := normalizeDouble account.equity 2
  freeMarginUsd := normalizeDouble account.freeMargin 2
  usedMarginUsd := normalizeDouble account.usedMargin 2
  currency := String.ofList account.currency

theorem getBalance_stateJson (account : Account) (positions : List HeldPosition) (time : Option ℚ) :
    HeartbeatState.getBalance ⟨stateJson account positions, time⟩ = some account.reported := by
  have hequity : decimalField (replyJson (balanceFields account)) "total_equity" = _ := decimalField_number rfl
  have hfree : decimalField (replyJson (balanceFields account)) "free_margin" = _ := decimalField_number rfl
  have hused : decimalField (replyJson (balanceFields account)) "used_margin" = _ := decimalField_number rfl
  have hcurrency : textField (replyJson (balanceFields account)) "currency" "USD" =
      some (String.ofList account.currency) := rfl
  have hbalance : (stateJson account positions).get? "balance".toList = some (replyJson (balanceFields account)) := rfl
  simp only [HeartbeatState.getBalance, hbalance, hequity, hfree, hused, hcurrency, Option.bind_eq_bind,
    Option.bind_some]
  rfl

/-! ### The newest heartbeat -/

/-- The bridge under a mapped name shows what it has ordered under it. -/
private theorem toPython_toMt5 {symbol name : String} (h : toMt5 symbol = some name) : toPython name = some symbol := by
  have hall : ∀ p ∈ defaultMappings, toPython p.2 = some p.1 := by decide
  obtain ⟨before, after, heq, -⟩ := List.lookup_eq_some_iff.1 h
  exact hall (symbol, name) (heq ▸ List.mem_append_right _ List.mem_cons_self)

private theorem after_unreadable {s : HeartbeatState} {posts : List (ℚ × Text)}
    (h : ∀ post ∈ posts, Json.loads .decimal post.2 = none) : s.after posts = s := by
  induction posts with
  | nil => rfl
  | cons post posts ih =>
    obtain ⟨hpost, hposts⟩ := List.forall_mem_cons.1 h
    have hsame : s.handleState post.1 post.2 = s := by rw [HeartbeatState.handleState, hpost]
    rw [HeartbeatState.after, List.foldl_cons, hsame]
    exact ih hposts

/-- Whatever has been posted before, and whatever unreadable texts come after, the bridge answers from the newest
heartbeat: with the positions that the advisor could select, in their order and under the names they are ordered by, and
with the balance, each number with the decimals that are posted and a level of zero as none.  It takes the terminal for
connected until the heartbeat is five seconds old. -/
theorem heartbeat_read_back {account : Account} {positions : List HeldPosition} (hcurrency : PlainText account.currency)
    (hsymbols : ∀ p ∈ positions, PlainText p.symbol.toList) (time : ℚ) {earlier later : List (ℚ × Text)}
    (hlater : ∀ post ∈ later, Json.loads .decimal post.2 = none) (s : HeartbeatState) :
    let t := s.after (earlier ++ (time, stateText account positions) :: later)
    t.getPositions = some ((positions.filter fun p => p.selectable).map HeldPosition.reported) ∧
      t.getBalance = some account.reported ∧
      (∀ now, t.ping now = true ↔ now - time < 5) ∧
      ∀ p ∈ positions, ∀ symbol, toMt5 symbol = some p.symbol → p.reported.symbol = symbol := by
  have hstate : s.after (earlier ++ (time, stateText account positions) :: later) =
      { cachedState := stateJson account positions, lastHeartbeatAt := some time } := by
    rw [HeartbeatState.after, List.foldl_append, List.foldl_cons, ← HeartbeatState.after, after_unreadable hlater,
      HeartbeatState.handleState, loads_stateText hcurrency hsymbols]
  dsimp only
  rw [hstate]
  refine ⟨mapM_reported _, getBalance_stateJson account positions _, fun now => decide_eq_true_iff,
    fun p _ symbol hname => ?_⟩
  rw [HeldPosition.reported, toPython_toMt5 hname, Option.getD_some]

def heldLong : HeldPosition where
  symbol := "BTCUSD"
  magic := magicNumber
  side := .buy
  volume := 1
  ticket := 7
  priceOpen := 50000
  priceCurrent := 50100
  profit := 100

/-- A short with a stop, and one that cannot be selected. -/
def heldShort : HeldPosition where
  symbol := "ETHUSD"
  magic := magicNumber
  side := .sell
  volume := 1 / 2
  ticket := 8
  priceOpen := 3000
  priceCurrent := 3010
  profit := -5
  sl := 3100

def goneShort : HeldPosition := { heldShort with selectable := false }

def shownAccount : Account := ⟨1095, 900, 195, "USD".toList⟩

/-- An older heartbeat comes before, and a text that is no message after. -/
theorem long_and_short_reported :
    let t := ({} : HeartbeatState).after ([(0, stateText ⟨1000, 1000, 0, "USD".toList⟩ [])] ++
      (4, stateText shownAccount [heldLong, goneShort, heldShort]) :: [(6, ['x'])])
    t.getPositions = some [heldLong.reported, heldShort.reported] ∧ t.getBalance = some shownAccount.reported ∧
      t.ping 8 = true ∧ t.ping 9 = false := by
  have hlater : ∀ post ∈ [((6 : ℚ), ['x'])], Json.loads .decimal post.2 = none := by decide +kernel
  obtain ⟨hpositions, hbalance, hping, -⟩ := @heartbeat_read_back shownAccount [heldLong, goneShort, heldShort]
    (by decide) (by decide) 4 [(0, stateText ⟨1000, 1000, 0, "USD".toList⟩ [])] _ hlater {}
  refine ⟨hpositions, hbalance, (hping 8).2 (by norm_num), ?_⟩
  rw [Bool.eq_false_iff, ne_eq, hping 9]
  norm_num

end MultiAgentTrading.Mt5
