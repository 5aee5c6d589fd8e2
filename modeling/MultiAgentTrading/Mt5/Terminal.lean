import MultiAgentTrading.Mt5.Reply

/-!
# The advisor in its terminal

The four handlers of the advisor on the text of a command: what they read of it, the requests they send to the terminal
and the text they return; and `OnTimer` from the text of a command to the text that is posted.
-/

open Json

namespace MultiAgentTrading.Mt5

/-- `ENUM_TRADE_REQUEST_ACTIONS`, as far as it is used. -/
inductive TradeAction | deal | remove | sltp
  deriving DecidableEq

/-- `MqlTradeRequest`: what is not set is zero. -/
structure TradeRequest where
  action : TradeAction
  order : ℕ := 0
  position : ℕ := 0
  symbol : Text := []
  volume : ℚ := 0
  type : OrderSide := .buy
  price : ℚ := 0
  sl : ℚ := 0
  tp : ℚ := 0
  magic : ℤ := 0
  comment : Text := []
  deviation : ℕ := 0
  deriving DecidableEq

/-- An open position as the terminal lists it; `selectable` is whether its ticket can be had and selected. -/
structure ListedPosition extends TerminalPosition where
  ticket : ℕ
  selectable : Bool := true
  deriving DecidableEq

/-- What the advisor finds in its terminal: the quotes of the symbols, the positions, what `OrderSend` leaves of a
request, the error of the last call, and how texts are converted to numbers. -/
structure Terminal where
  magicNumber : ℤ := 20250101
  digits : Text → ℕ
  ask : Text → ℚ
  bid : Text → ℚ
  positions : List ListedPosition
  orderSend : TradeRequest → SendReply
  lastError : ℕ := 0
  stringToDouble : Text → ℚ
  stringToInteger : Text → ℕ

/-- What a handler sends and what it returns. -/
structure Handled where
  request : Option TradeRequest := none
  body : Text

namespace Terminal

variable (T : Terminal)

/-- Send a request, and return the error that the terminal gives or the text for what it has done. -/
def submit (request : TradeRequest) (done : SendReply → Text) : Handled :=
  let reply := T.orderSend request
  { request := some request
    body :=
      if reply.ok = false ∨ reply.retcode ≠ tradeRetcodeDone then buildErrorText reply.comment.toList reply.retcode
      else done reply }

/-- The price a market order of a side is sent at. -/
def entryPrice (symbol : Text) : OrderSide → ℚ
  | .buy => T.ask symbol
  | .sell => T.bid symbol

/-- A stop or a target at a distance from the entry; none for a distance that is not positive. -/
def stopPrice (symbol : Text) (side : OrderSide) (pct : ℚ) : ℚ :=
  if 0 < pct then
    normalizeDouble
      (match side with
        | .buy => T.entryPrice symbol .buy * (1 - pct)
        | .sell => T.entryPrice symbol .sell * (1 + pct)) (T.digits symbol)
  else 0

def targetPrice (symbol : Text) (side : OrderSide) (pct : ℚ) : ℚ :=
  if 0 < pct then
    normalizeDouble
      (match side with
        | .buy => T.entryPrice symbol .buy * (1 + pct)
        | .sell => T.entryPrice symbol .sell * (1 - pct)) (T.digits symbol)
  else 0

/-- The request of `HandlePlaceOrder` for what it has read. -/
def placeRequest (symbol : Text) (side : OrderSide) (volume stopLossPct takeProfitPct : ℚ) (comment : Text) :
    TradeRequest where
  action := .deal
  symbol := symbol
  volume := volume
  type := side
  price := T.entryPrice symbol side
  sl := T.stopPrice symbol side stopLossPct
  tp := T.targetPrice symbol side takeProfitPct
  magic := T.magicNumber
  comment := comment
  deviation := 20

def handlePlaceOrder (raw : Text) : Handled :=
  let symbol := parseJSONString raw "symbol".toList
  let side := parseJSONString raw "side".toList
  let volume := parseJSONDouble T.stringToDouble raw "volume".toList
  let stopLossPct := parseJSONDouble T.stringToDouble raw "stop_loss_pct".toList
  let takeProfitPct := parseJSONDouble T.stringToDouble raw "take_profit_pct".toList
  let comment := parseJSONString raw "comment".toList
  if symbol = [] ∨ volume ≤ 0 then { body := buildErrorText "symbol or volume missing/invalid".toList 0 }
  else
    let orderType : OrderSide := if side = "buy".toList then .buy else .sell
    T.submit (T.placeRequest symbol orderType volume stopLossPct takeProfitPct comment) fun reply =>
      "\x7b\"status\":\"ok\",".toList ++
        "\"order_id\":\"".toList ++ reply.order.toList ++ "\",".toList ++
        "\"fill_price\":".toList ++ doubleToString reply.price 8 ++ ",".toList ++
        "\"fill_quantity\":".toList ++ doubleToString reply.volume 8 ++ "\x7d".toList

def handleCancelOrder (raw : Text) : Handled :=
  let orderId := parseJSONString raw "order_id".toList
  let request : TradeRequest := { action := .remove, order := T.stringToInteger orderId }
  if (T.orderSend request).ok = false then
    if T.lastError = 4756 ∨ T.lastError = 4108 then
      { request := some request
        body := "\x7b\"status\":\"not_found\",\"order_id\":\"".toList ++ orderId ++ "\"\x7d".toList }
    else { request := some request, body := buildErrorText "OrderSend REMOVE failed".toList T.lastError }
  else
    { request := some request
      body := "\x7b\"status\":\"ok\",\"order_id\":\"".toList ++ orderId ++ "\"\x7d".toList }

def handleModifyStops (raw : Text) : Handled :=
  let orderId := parseJSONString raw "order_id".toList
  let ticket := T.stringToInteger orderId
  let sl := parseJSONDouble T.stringToDouble raw "stop_loss".toList
  let tp := parseJSONDouble T.stringToDouble raw "take_profit".toList
  match T.positions.find? fun p => p.ticket = ticket ∧ p.selectable = true with
  | none => { body := buildErrorText ("Position not found: ".toList ++ orderId) T.lastError }
  | some p =>
    T.submit { action := .sltp, position := ticket, symbol := p.symbol.toList, sl := sl, tp := tp } fun _ =>
      "\x7b\"status\":\"ok\",\"order_id\":\"".toList ++ orderId ++ "\"\x7d".toList

/-- What the loop of `HandleClosePosition` does not pass over. -/
def closes (symbol : Text) (magic : ℤ) (p : ListedPosition) : Bool :=
  p.selectable && decide (p.symbol.toList = symbol) && !decide (0 < magic ∧ p.magic ≠ magic)

def closeRequest (symbol : Text) (magic : ℤ) (p : ListedPosition) : TradeRequest where
  action := .deal
  position := p.ticket
  symbol := symbol
  volume := p.volume
  type := p.side.opp
  price := T.entryPrice symbol p.side.opp
  magic := magic
  deviation := 20

/-- The loop runs from the last position to the first and returns from within. -/
def handleClosePosition (raw : Text) : Handled :=
  let symbol := parseJSONString raw "symbol".toList
  let magic := Rounding.trunc (parseJSONDouble T.stringToDouble raw "magic".toList)
  if symbol = [] then { body := buildErrorText "symbol missing".toList 0 }
  else
    match T.positions.reverse.find? (closes symbol magic) with
    | none => { body := buildErrorText ("No open position for symbol: ".toList ++ symbol) 0 }
    | some p =>
      T.submit (T.closeRequest symbol magic p) fun reply =>
        "\x7b\"status\":\"ok\",".toList ++
          "\"order_id\":\"".toList ++ reply.order.toList ++ "\",".toList ++
          "\"side\":\"".toList ++ (sideText p.side.opp).toList ++ "\",".toList ++
          "\"fill_price\":".toList ++ doubleToString reply.price 8 ++ ",".toList ++
          "\"fill_quantity\":".toList ++ doubleToString reply.volume 8 ++ "\x7d".toList

def handlers : ActionHandlers where
  placeOrder raw := (T.handlePlaceOrder raw).body
  cancelOrder raw := (T.handleCancelOrder raw).body
  modifyStops raw := (T.handleModifyStops raw).body
  closePosition raw := (T.handleClosePosition raw).body

/-- `OnTimer` after the command has come: what is posted as its result. -/
def onTimer (cmdJson : Text) : Option Text :=
  let status := parseJSONString cmdJson "status".toList
  let commandId := parseJSONString cmdJson "command_id".toList
  let action := parseJSONString cmdJson "action".toList
  if cmdJson = [] ∨ status ≠ "ok".toList ∨ action = [] then none
  else some (T.handlers.executeAction action cmdJson commandId)

end Terminal

/-! ### What the handlers return -/

/-- The fields of an order that is done. -/
def doneFields (reply : SendReply) : List (Text × ReplyValue) :=
  [("status".toList, .str "ok".toList), ("order_id".toList, .str reply.order.toList),
    ("fill_price".toList, .number 8 reply.price), ("fill_quantity".toList, .number 8 reply.volume)]

def errorFields (message : Text) (errCode : ℤ) : List (Text × ReplyValue) :=
  [("status".toList, .str "error".toList), ("error_code".toList, .int errCode),
    ("error_message".toList, .message message)]

private theorem doneText_eq (reply : SendReply) :
    "\x7b\"status\":\"ok\",".toList ++
        "\"order_id\":\"".toList ++ reply.order.toList ++ "\",".toList ++
        "\"fill_price\":".toList ++ doubleToString reply.price 8 ++ ",".toList ++
        "\"fill_quantity\":".toList ++ doubleToString reply.volume 8 ++ "\x7d".toList =
      replyText (doneFields reply) := by
  simp only [replyText, doneFields, objectText, List.map_cons, List.map_nil, joinFields, ReplyValue.text,
    String.reduceToList, List.append_assoc, List.cons_append, List.nil_append]

/-- The fields that answer a request: those given if it is done, else an error. -/
def dealFields (done : SendReply → List (Text × ReplyValue)) (reply : SendReply) : List (Text × ReplyValue) :=
  if reply.ok = false ∨ reply.retcode ≠ tradeRetcodeDone then errorFields reply.comment.toList reply.retcode
  else done reply

private theorem errorText_eq (message : Text) (errCode : ℤ) :
    buildErrorText message errCode = replyText (errorFields message errCode) :=
  buildErrorText_eq_replyText message errCode

namespace Terminal

variable {T : Terminal} {raw : Text}

private theorem submit_eq {done : SendReply → Text} {fields : SendReply → List (Text × ReplyValue)}
    (h : ∀ reply, done reply = replyText (fields reply)) (request : TradeRequest) :
    T.submit request done =
      { request := some request, body := replyText (dealFields fields (T.orderSend request)) } := by
  unfold submit dealFields
  dsimp only
  split
  · rw [errorText_eq]
  · rw [h]

theorem handlePlaceOrder_eq (T : Terminal) (raw : Text) :
    T.handlePlaceOrder raw =
      if parseJSONString raw "symbol".toList = [] ∨ parseJSONDouble T.stringToDouble raw "volume".toList ≤ 0 then
        { body := replyText (errorFields "symbol or volume missing/invalid".toList 0) }
      else
        let request := T.placeRequest (parseJSONString raw "symbol".toList)
          (if parseJSONString raw "side".toList = "buy".toList then .buy else .sell)
          (parseJSONDouble T.stringToDouble raw "volume".toList)
          (parseJSONDouble T.stringToDouble raw "stop_loss_pct".toList)
          (parseJSONDouble T.stringToDouble raw "take_profit_pct".toList) (parseJSONString raw "comment".toList)
        { request := some request, body := replyText (dealFields doneFields (T.orderSend request)) } := by
  unfold handlePlaceOrder
  dsimp only
  rw [errorText_eq, submit_eq doneText_eq]

end Terminal

/-- The fields of a text that can be read back once the command id is added. -/
structure AreFields (fields : List (Text × ReplyValue)) : Prop where
  ne_nil : fields ≠ []
  keys : ∀ p ∈ fields, PlainText p.1
  readable : ∀ p ∈ fields, p.2.Readable
  nodup : (fields.map Prod.fst ++ ["command_id".toList]).Nodup

theorem plain_sideText (side : OrderSide) : PlainText (sideText side).toList := by
  cases side <;> simp only [sideText] <;> decide

private theorem find?_keys {fields : List (Text × ReplyValue)} {key : Text} (h : key ∉ fields.map Prod.fst) (v : Json) :
    Json.get? key (.obj ((fields.map fun p => (p.1, p.2.json)) ++ [(key, v)])) = some v := by
  have hnone : (fields.map fun p => (p.1, p.2.json)).find? (fun p => p.1 = key) = none := by
    rw [List.find?_eq_none]
    intro p hp
    obtain ⟨q, hq, rfl⟩ := List.mem_map.1 hp
    simp only [decide_eq_true_eq]
    rintro rfl
    exact h (List.mem_map_of_mem hq)
  simp [Json.get?, List.find?_append, hnone]

/-- What is posted for a body with such fields reads as these fields and the command id. -/
theorem AreFields.loads {h : ActionHandlers} {action cmdJson commandId : Text} {fields : List (Text × ReplyValue)}
    (hfields : AreFields fields) (hbody : h.resultBody action cmdJson = replyText fields)
    (hplain : PlainText commandId) :
    ∃ body, Json.loads .decimal (h.executeAction action cmdJson commandId) = some body ∧
      body = replyJson (fields ++ [("command_id".toList, .str commandId)]) ∧
      body.get? "command_id".toList = some (.str commandId) := by
  have hkey : PlainText "command_id".toList := by decide
  have hreadable : ∀ p ∈ fields ++ [("command_id".toList, ReplyValue.str commandId)], PlainText p.1 ∧ p.2.Readable := by
    intro p hp
    rcases List.mem_append.1 hp with hp | hp
    · exact ⟨hfields.keys p hp, hfields.readable p hp⟩
    · rw [List.mem_singleton.1 hp]
      exact ⟨hkey, hplain⟩
  have hnodup : ((fields ++ [("command_id".toList, ReplyValue.str commandId)]).map Prod.fst).Nodup := by
    rw [List.map_append]
    exact hfields.nodup
  have hnew : "command_id".toList ∉ fields.map Prod.fst := fun hmem =>
    (List.nodup_append.1 hfields.nodup).2.2 _ hmem _ (List.mem_singleton_self _) rfl
  refine ⟨_, ?_, rfl, ?_⟩
  · rw [executeAction_replyText hfields.ne_nil hbody]
    exact (readsAs_replyText hreadable hnodup).loads
  · rw [replyJson, List.map_append]
    exact find?_keys hnew _

end MultiAgentTrading.Mt5
