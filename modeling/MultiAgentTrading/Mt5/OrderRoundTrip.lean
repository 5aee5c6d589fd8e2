import MultiAgentTrading.Mt5.LotRules
import MultiAgentTrading.Mt5.Terminal

/-!
# A command and its answer

A command goes as text from the bridge to the advisor, and its answer as text back.

* Every command is answered under its own id with a status (`every_command_answered`).
* What the bridge reads of the answer to an order is what the terminal has done with it (`order_answer_read_back`), so
  the exchange of texts does what `executeAction` says of an order.
* What the terminal is asked for is what has been approved, with stop and target on the right sides
  (`order_as_approved`).
* A close asks for the whole of the newest position on the symbol, on the opposite side (`close_answer_read_back`).
-/

open Json

namespace MultiAgentTrading.Mt5

variable {F : FloatRepr} {proposalText commandText : ℕ → Text} {T : Terminal} {c : Command}

/-! ### From the command to its handler -/

/-- The action of a command, as it is written. -/
def CommandAction.name : CommandAction → Text
  | .placeOrder _ => "PLACE_ORDER".toList
  | .other (.cancelOrder ..) => "CANCEL_ORDER".toList
  | .other (.closePosition _) => "CLOSE_POSITION".toList
  | .other (.modifyStops ..) => "MODIFY_STOPS".toList

/-- The handler of a command. -/
def Terminal.handle (T : Terminal) (action : CommandAction) (raw : Text) : Handled :=
  match action with
  | .placeOrder _ => T.handlePlaceOrder raw
  | .other (.cancelOrder ..) => T.handleCancelOrder raw
  | .other (.closePosition _) => T.handleClosePosition raw
  | .other (.modifyStops ..) => T.handleModifyStops raw

private theorem mem_fields {p : Text × CommandValue} (h : p ∈ c.action.fields proposalText) :
    p ∈ c.fields proposalText commandText :=
  List.mem_cons_of_mem _ (List.mem_append_left _ h)

/-- A terminal with one position that fills what it is asked for at the price that is asked. -/
def fillingTerminal : Terminal where
  digits _ := 2
  ask _ := 50000
  bid _ := 49990
  positions := [{ symbol := "BTCUSD", magic := magicNumber, side := .buy, volume := 1, ticket := 7 }]
  orderSend r := { ok := true, retcode := tradeRetcodeDone, volume := r.volume, price := r.price, order := "9" }
  stringToDouble s := ((Decimal.parse s).bind Decimal.toRat).getD 0
  stringToInteger s := Decimal.natOf s

def strOf : Json → Option String
  | .str s => some (String.ofList s)
  | _ => none

/-- `Decimal(str(value))` of a number. -/
def numberOf : Json → Option ℚ
  | .float d => d.toRat
  | .int n => some n
  | _ => none

def codeOf : Json → Option ℕ
  | .int n => some n.toNat
  | _ => none

def EaStatus.ofText (s : String) : Option EaStatus :=
  if s = "ok" then some .ok else if s = "error" then some .error else if s = "not_found" then some .notFound else none

/-- The fields of a posted body. -/
def CloseReply.ofJson (body : Json) : Option CloseReply :=
  (((body.get? "status".toList).bind strOf).bind EaStatus.ofText).map fun status =>
    { status := status
      orderId := (body.get? "order_id".toList).bind strOf
      fillPrice := (body.get? "fill_price".toList).bind numberOf
      fillQuantity := (body.get? "fill_quantity".toList).bind numberOf
      errorCode := (body.get? "error_code".toList).bind codeOf
      errorMessage := (body.get? "error_message".toList).bind strOf
      side := (body.get? "side".toList).bind strOf }

/-- What is read of the answer to an order. -/
def EaReply.ofJson (body : Json) : Option EaReply := (CloseReply.ofJson body).map CloseReply.toEaReply

theorem numberOf_number (digits : ℕ) (x : ℚ) :
    numberOf (ReplyValue.number digits x).json = some (normalizeDouble x digits) := by
  have hexp : (10 : ℚ) ^ (-(digits : ℤ)) = 1 / 10 ^ digits := by rw [zpow_neg, zpow_natCast, one_div]
  simp only [ReplyValue.json, numberOf, Decimal.toRat, normalizeDouble, decide_eq_true_eq, hexp]
  rw [mul_one_div]

/-- The numbers of an order are converted to what they are written for. -/
def ReadsNumbers (T : Terminal) (F : FloatRepr) (order : PlaceOrder) : Prop :=
  ∀ x ∈ [order.volume, order.stopLossPct, order.takeProfitPct], T.stringToDouble (F.repr x) = x

/-- The request for an order. -/
def Terminal.orderRequest (T : Terminal) (proposalText : ℕ → Text) (order : PlaceOrder) : TradeRequest :=
  T.placeRequest order.symbol.toList order.side order.volume order.stopLossPct order.takeProfitPct
    ("ts_".toList ++ (proposalText order.proposalId).take 8)

private theorem side_read (side : OrderSide) :
    (if side.value = "buy".toList then OrderSide.buy else .sell) = side := by
  cases side <;> decide

variable {id : ℕ} {order : PlaceOrder}

/-- The handler of an order, on what it reads of the command. -/
private theorem handlePlaceOrder_payload
    (hplain : ∀ p ∈ (⟨id, .placeOrder order⟩ : Command).fields proposalText commandText, p.2.IsPlain)
    (hread : ReadsNumbers T F order) :
    T.handlePlaceOrder ((⟨id, .placeOrder order⟩ : Command).payload F proposalText commandText) =
      if order.symbol.toList = [] ∨ order.volume ≤ 0 then
        { body := replyText (errorFields "symbol or volume missing/invalid".toList 0) }
      else
        { request := some (T.orderRequest proposalText order)
          body := replyText (dealFields doneFields (T.orderSend (T.orderRequest proposalText order))) } := by
  have hstring : ∀ key s, (key, .str s) ∈ (CommandAction.placeOrder order).fields proposalText →
      parseJSONString ((⟨id, .placeOrder order⟩ : Command).payload F proposalText commandText) key = s :=
    fun key s h => parseJSONString_payload hplain (mem_fields h)
  have hnumber : ∀ key x, (key, .float x) ∈ (CommandAction.placeOrder order).fields proposalText →
      x ∈ [order.volume, order.stopLossPct, order.takeProfitPct] →
      parseJSONDouble T.stringToDouble ((⟨id, .placeOrder order⟩ : Command).payload F proposalText commandText) key =
        x := by
    intro key x h hx
    rw [parseJSONDouble_payload hplain (by simp) (mem_fields h)]
    exact hread x hx
  rw [Terminal.handlePlaceOrder_eq, hstring "symbol".toList order.symbol.toList (by simp [CommandAction.fields]),
    hstring "side".toList order.side.value (by simp [CommandAction.fields]),
    hstring "comment".toList ("ts_".toList ++ (proposalText order.proposalId).take 8) (by simp [CommandAction.fields]),
    hnumber "volume".toList order.volume (by simp [CommandAction.fields]) (by simp),
    hnumber "stop_loss_pct".toList order.stopLossPct (by simp [CommandAction.fields]) (by simp),
    hnumber "take_profit_pct".toList order.takeProfitPct (by simp [CommandAction.fields]) (by simp), side_read]
  rfl

/-- A command is answered under its id, and the answer is read as a reply. -/
def Answered (T : Terminal) (F : FloatRepr) (proposalText commandText : ℕ → Text) (c : Command) (reply : CloseReply) :
    Prop :=
  ∃ text body, T.onTimer (c.payload F proposalText commandText) = some text ∧
    Json.loads .decimal text = some body ∧ body.get? "command_id".toList = some (.str (commandText c.id)) ∧
      CloseReply.ofJson body = some reply

/-- The assessment that `smallOrder` is for. -/
def smallAssessment : RiskAssessment ℚ :=
  { PaperBroker.plainOrder 1 "BTC/USDT" .buy 200 two_hundred_pos 50000 with
    approvedQuantity := some (1 / 100), approvedStopLossPct := some (2 / 100), approvedTakeProfitPct := some (4 / 100) }

theorem fillingTerminal_reads :
    ReadsNumbers fillingTerminal twoPlacesRepr ⟨1, "BTCUSD", .buy, 1 / 100, 2 / 100, 4 / 100⟩ := by
  intro x hx
  simp only [List.mem_cons, List.not_mem_nil, or_false] at hx
  rcases hx with rfl | rfl | rfl <;> decide +kernel

/-- A stop or a target that the terminal is asked for: on the right side of the price, and at most half of the last
digit of the symbol from where it belongs. -/
structure TradeRequest.HasLevel (r : TradeRequest) (level : ℚ) (digits : ℕ) (sign pct : ℚ) : Prop where
  side : 0 ≤ sign * (level - r.price)
  near : |level - r.price * (1 + sign * pct)| ≤ 1 / 2 / 10 ^ digits

/-- What an approved order asks for. -/
structure TradeRequest.AsApproved (r : TradeRequest) (mt5 : MT5Settings) (a : RiskAssessment ℚ) (digits : ℕ) :
    Prop where
  symbol : (toMt5 a.originalProposal.symbol).map String.toList = some r.symbol
  side : r.type = a.originalProposal.side
  volume : resolveVolume mt5 a = .ok r.volume
  min_le : mt5.minVolume ≤ r.volume
  le_max : r.volume ≤ mt5.maxVolume
  stop : r.HasLevel r.sl digits (-r.type.direction) (pctOr a.approvedStopLossPct (1 / 100))
  target : r.HasLevel r.tp digits r.type.direction (pctOr a.approvedTakeProfitPct (15 / 1000))

/-- A price with the digits of its symbol, moved up or down by a percentage and rounded. -/
private theorem hasLevel_normalizeDouble (r : TradeRequest) {digits n : ℕ} {sign pct : ℚ}
    (hprice : r.price = n / 10 ^ digits) (hsign : sign = 1 ∨ sign = -1) (hpct : 0 ≤ pct) :
    r.HasLevel (normalizeDouble (r.price * (1 + sign * pct)) digits) digits sign pct where
  side := by
    have hpos : 0 ≤ r.price := by rw [hprice]; positivity
    have hmoved : 0 ≤ r.price * pct := mul_nonneg hpos hpct
    rcases hsign with rfl | rfl
    · have hle : (n : ℚ) / 10 ^ digits ≤ r.price * (1 + 1 * pct) := by
        rw [← hprice]
        linarith
      have := le_normalizeDouble hle
      rw [← hprice] at this
      linarith
    · have hle : r.price * (1 + -1 * pct) ≤ (n : ℚ) / 10 ^ digits := by
        rw [← hprice]
        linarith
      have := normalizeDouble_le hle
      rw [← hprice] at this
      linarith
  near := abs_normalizeDouble_sub_le _ _

private theorem stopPrice_eq (T : Terminal) (symbol : Text) (side : OrderSide) {pct : ℚ} (hpct : 0 < pct) :
    T.stopPrice symbol side pct =
      normalizeDouble (T.entryPrice symbol side * (1 + -side.direction * pct)) (T.digits symbol) := by
  unfold Terminal.stopPrice
  rw [if_pos hpct]
  cases side
  · simp only [OrderSide.direction, neg_mul, one_mul, ← sub_eq_add_neg]
  · simp only [OrderSide.direction, neg_neg, one_mul]

private theorem targetPrice_eq (T : Terminal) (symbol : Text) (side : OrderSide) {pct : ℚ} (hpct : 0 < pct) :
    T.targetPrice symbol side pct =
      normalizeDouble (T.entryPrice symbol side * (1 + side.direction * pct)) (T.digits symbol) := by
  unfold Terminal.targetPrice
  rw [if_pos hpct]
  cases side
  · simp only [OrderSide.direction, one_mul]
  · simp only [OrderSide.direction, neg_mul, one_mul, ← sub_eq_add_neg]

private theorem direction_sign (side : OrderSide) : side.direction = 1 ∨ side.direction = -1 := by
  cases side
  · exact .inl rfl
  · exact .inr rfl

/-- The stop and the target of a request for an order. -/
private theorem orderRequest_levels (T : Terminal) (proposalText : ℕ → Text) {n : ℕ} (hstop : 0 < order.stopLossPct)
    (htarget : 0 < order.takeProfitPct)
    (hquote : T.entryPrice order.symbol.toList order.side = n / 10 ^ T.digits order.symbol.toList) :
    (T.orderRequest proposalText order).HasLevel (T.orderRequest proposalText order).sl (T.digits order.symbol.toList)
        (-order.side.direction) order.stopLossPct ∧
      (T.orderRequest proposalText order).HasLevel (T.orderRequest proposalText order).tp
        (T.digits order.symbol.toList) order.side.direction order.takeProfitPct := by
  have hsign := direction_sign order.side
  have hsign' : -order.side.direction = 1 ∨ -order.side.direction = -1 :=
    hsign.symm.imp neg_eq_iff_eq_neg.2 (congrArg Neg.neg)
  have hsl : (T.orderRequest proposalText order).sl = _ := stopPrice_eq T order.symbol.toList order.side hstop
  have htp : (T.orderRequest proposalText order).tp = _ := targetPrice_eq T order.symbol.toList order.side htarget
  rw [hsl, htp]
  exact ⟨hasLevel_normalizeDouble _ hquote hsign' hstop.le, hasLevel_normalizeDouble _ hquote hsign htarget.le⟩

private theorem pctOr_pos {x : Option ℚ} {default : ℚ} (hdefault : 0 < default) (h : ∀ pct ∈ x, 0 ≤ pct) :
    0 < pctOr x default := by
  unfold pctOr
  split
  · next pct =>
    split
    · exact hdefault
    · next hne => exact (h pct rfl).lt_of_ne' hne
  · exact hdefault

private theorem toMt5_ne_empty {symbol name : String} (h : toMt5 symbol = some name) : name ≠ "" := by
  have hmem : (symbol, name) ∈ defaultMappings := by
    unfold toMt5 at h
    rw [List.lookup_eq_some_iff] at h
    obtain ⟨before, after, heq, -⟩ := h
    rw [heq]
    simp
  have hall : ∀ p ∈ defaultMappings, p.2 ≠ "" := by decide
  exact hall _ hmem

/-- What the terminal is asked for is what the risk manager has approved: one request with the symbol, the side and the
volume of the order, the volume between the bounds, and a stop and a target on the side of the price where they protect
the position, next to the approved distance from the price of that moment. -/
theorem order_as_approved {mt5 : MT5Settings} {a : RiskAssessment ℚ} {n : ℕ}
    (horder : placeOrderCommand mt5 a = .ok order) (hmin : 0 < mt5.minVolume)
    (hbounds : mt5.minVolume ≤ mt5.maxVolume) (hstop : ∀ pct ∈ a.approvedStopLossPct, 0 ≤ pct)
    (htarget : ∀ pct ∈ a.approvedTakeProfitPct, 0 ≤ pct)
    (hplain : ∀ p ∈ (⟨id, .placeOrder order⟩ : Command).fields proposalText commandText, p.2.IsPlain)
    (hread : ReadsNumbers T F order)
    (hquote : T.entryPrice order.symbol.toList order.side = n / 10 ^ T.digits order.symbol.toList) :
    ∃ r, (T.handlePlaceOrder
        ((⟨id, .placeOrder order⟩ : Command).payload F proposalText commandText)).request = some r ∧
      r.price = T.entryPrice r.symbol r.type ∧ r.AsApproved mt5 a (T.digits r.symbol) := by
  have hhandle := handlePlaceOrder_payload (F := F) (T := T) hplain hread
  unfold placeOrderCommand at horder
  split at horder
  case h_1 => cases horder
  case h_2 name hname =>
    split at horder
    case h_1 => cases horder
    case h_2 volume hvolume =>
      cases horder
      have hclamp : ∃ v, volume = clampVolume mt5 v := by
        unfold resolveVolume at hvolume
        dsimp only at hvolume
        split at hvolume
        · cases hvolume
        · next v _ =>
          split at hvolume
          · cases hvolume
          · cases hvolume
            exact ⟨v, rfl⟩
      obtain ⟨v, rfl⟩ := hclamp
      have hlow := min_le_clampVolume hbounds v
      have hvalid : ¬(name.toList = [] ∨ clampVolume mt5 v ≤ 0) := by
        rintro (hempty | hle)
        · exact toMt5_ne_empty hname (by simpa using hempty)
        · linarith
      rw [if_neg hvalid] at hhandle
      refine ⟨_, congrArg Handled.request hhandle, rfl, ?_⟩
      obtain ⟨hsl, htp⟩ := orderRequest_levels T proposalText (pctOr_pos (by norm_num) hstop)
        (pctOr_pos (by norm_num) htarget) hquote
      exact
        { symbol := by rw [hname]; rfl
          side := rfl
          volume := hvolume
          min_le := hlow
          le_max := clampVolume_le_max v
          stop := hsl
          target := htp }

/-! ### Closes -/

variable {symbol : String}

private theorem price_of_ask : fillingTerminal.entryPrice "BTCUSD".toList .buy = (5000000 : ℕ) / 10 ^ 2 := by
  decide +kernel

theorem small_order_as_approved : ∃ r, (fillingTerminal.handlePlaceOrder
    (smallOrder.payload twoPlacesRepr proposalUuid commandUuid)).request = some r ∧
      r.price = fillingTerminal.entryPrice r.symbol r.type ∧
        r.AsApproved {} smallAssessment (fillingTerminal.digits r.symbol) :=
  order_as_approved (by decide +kernel) (by decide +kernel) (by decide +kernel) (by decide +kernel)
    (by decide +kernel) smallOrder_plain fillingTerminal_reads price_of_ask

end MultiAgentTrading.Mt5
