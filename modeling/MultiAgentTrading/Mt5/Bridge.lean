import MultiAgentTrading.Core.Models
import MultiAgentTrading.Core.Settings
import MultiAgentTrading.Execution.PaperBroker

/-!
# The MT5 bridge and its expert advisor

The bridge queues commands; the expert advisor in the terminal polls for them, executes one at a time and posts what
came of it.  The two share nothing else, so a state has the queue and the pending futures of the bridge, the command
that the advisor holds, the posts on their way, and a log of what the terminal has executed.  Each event is one step of
one party, or the network losing something.
-/

namespace MultiAgentTrading.Mt5

/-- The mappings of `SymbolMapper`. -/
def defaultMappings : List (String × String) :=
  [("BTC/USDT", "BTCUSD"), ("ETH/USDT", "ETHUSD"), ("BNB/USDT", "BNBUSD"), ("SOL/USDT", "SOLUSD"),
    ("XRP/USDT", "XRPUSD")]

def toMt5 (symbol : String) : Option String := defaultMappings.lookup symbol

/-- The reason of an `OrderRejectedError`; `byTerminal` carries the message of the reply. -/
inductive OrderRejection
  | noEffectiveSize
  | noReferencePrice
  | byTerminal (message : String) (orderId : String)
  deriving DecidableEq

inductive BridgeError
  | unknownSymbol (symbol : String)
  | zeroVolumeStep
  | orderRejected (reason : OrderRejection)
  | noResponse (timeoutMs : ℤ)
  deriving DecidableEq

/-! ### The command of an order -/

/-- A PLACE_ORDER command; the advisor reads all of it but the proposal. -/
structure PlaceOrder where
  proposalId : ℕ
  symbol : String
  side : OrderSide
  volume : ℚ
  stopLossPct : ℚ
  takeProfitPct : ℚ
  deriving DecidableEq

/-- The reference price: that of the technical signal, else zero. -/
def getRefPrice (a : RiskAssessment ℚ) : ℚ :=
  match a.originalProposal.signal.technicalSignal with
  | none => 0
  | some tech => tech.price

/-- Round a volume to the nearest lot step and to two places, then clamp it. -/
def clampVolume (mt5 : MT5Settings) (volume : ℚ) : ℚ :=
  let stepped := Rounding.quantizeHalfEven (1 / 100) (Rounding.quantizeHalfEven mt5.volumeStep volume)
  min (max stepped mt5.minVolume) mt5.maxVolume

def resolveVolume (mt5 : MT5Settings) (a : RiskAssessment ℚ) : Except BridgeError ℚ :=
  let raw : Except BridgeError ℚ :=
    match a.approvedQuantity with
    | some quantity => .ok quantity
    | none =>
      if a.effectiveSizeUsd ≤ 0 then .error (.orderRejected .noEffectiveSize)
      else if getRefPrice a ≤ 0 then .error (.orderRejected .noReferencePrice)
      else .ok (Rounding.quantizeHalfEven PaperBroker.qtyPlaces (a.effectiveSizeUsd / getRefPrice a))
  match raw with
  | .error e => .error e
  | .ok volume => if mt5.volumeStep = 0 then .error .zeroVolumeStep else .ok (clampVolume mt5 volume)

/-- `x or default`: a missing percentage and a zero one both give the default. -/
def pctOr (x : Option ℚ) (default : ℚ) : ℚ :=
  match x with
  | some pct => if pct = 0 then default else pct
  | none => default

/-- The first half of `place_order`: the command it is going to queue. -/
def placeOrderCommand (mt5 : MT5Settings) (a : RiskAssessment ℚ) : Except BridgeError PlaceOrder :=
  match toMt5 a.originalProposal.symbol with
  | none => .error (.unknownSymbol a.originalProposal.symbol)
  | some symbol =>
    match resolveVolume mt5 a with
    | .error e => .error e
    | .ok volume =>
      .ok
        { proposalId := a.proposalId
          symbol := symbol
          side := a.originalProposal.side
          volume := volume
          stopLossPct := pctOr a.approvedStopLossPct (1 / 100)
          takeProfitPct := pctOr a.approvedTakeProfitPct (15 / 1000) }

theorem proposalId_placeOrderCommand {mt5 : MT5Settings} {a : RiskAssessment ℚ} {order : PlaceOrder}
    (h : placeOrderCommand mt5 a = .ok order) : order.proposalId = a.proposalId := by
  unfold placeOrderCommand at h
  split at h
  case h_1 => cases h
  case h_2 =>
    split at h
    case h_1 => cases h
    case h_2 => cases h; rfl

/-- The commands of the other methods. -/
inductive OtherAction
  | cancelOrder (orderId symbol : String)
  | closePosition (symbol : String)
  | modifyStops (orderId symbol : String) (stopLoss takeProfit : Option ℚ)

inductive CommandAction
  | placeOrder (order : PlaceOrder)
  | other (action : OtherAction)

structure Command where
  id : ℕ
  action : CommandAction

/-- The proposal that a command orders for. -/
def Command.proposalId? (c : Command) : Option ℕ :=
  match c.action with
  | .placeOrder order => some order.proposalId
  | .other _ => none

/-! ### The expert advisor -/

/-- What `OrderSend` leaves: its return value and the fields of the trade result that the advisor reads. -/
structure SendReply where
  ok : Bool
  retcode : ℕ
  volume : ℚ := 0
  price : ℚ := 0
  order : String := ""
  comment : String := ""

/-- `TRADE_RETCODE_DONE`. -/
def tradeRetcodeDone : ℕ := 10009

/-- `TRADE_RETCODE_DONE_PARTIAL`. -/
def tradeRetcodeDonePartial : ℕ := 10010

/-- The volume that the terminal has executed: the reported one, if the order is done or done in part. -/
def SendReply.executedVolume (r : SendReply) : ℚ :=
  if r.ok = true ∧ (r.retcode = tradeRetcodeDone ∨ r.retcode = tradeRetcodeDonePartial) then r.volume else 0

inductive EaStatus | ok | error | notFound
  deriving DecidableEq

/-- The fields of a posted result. -/
structure EaReply where
  status : EaStatus
  orderId : Option String := none
  fillPrice : Option ℚ := none
  fillQuantity : Option ℚ := none
  errorCode : Option ℕ := none
  errorMessage : Option String := none

def buildError (message : String) (errCode : ℕ) : EaReply where
  status := .error
  errorCode := some errCode
  errorMessage := some message

/-- `HandlePlaceOrder`: what is posted, and the volume that has been executed. -/
def handlePlaceOrder (order : PlaceOrder) (send : SendReply) : EaReply × ℚ :=
  if order.symbol = "" ∨ order.volume ≤ 0 then (buildError "symbol or volume missing/invalid" 0, 0)
  else if send.ok = false ∨ send.retcode ≠ tradeRetcodeDone then
    (buildError send.comment send.retcode, send.executedVolume)
  else
    ({ status := .ok, orderId := some send.order, fillPrice := some send.price, fillQuantity := some send.volume },
      send.executedVolume)

/-- A volume that the terminal executed for a command of a proposal. -/
structure Execution where
  commandId : ℕ
  proposalId : ℕ
  volume : ℚ

/-- `ExecuteAction`: the reply that is posted and what was executed for a proposal; what the other actions answer is
left open. -/
def executeAction (c : Command) (send : SendReply) (other : EaReply) : EaReply × List Execution :=
  match c.action with
  | .placeOrder order =>
    let handled := handlePlaceOrder order send
    (handled.1, if 0 < handled.2 then [⟨c.id, order.proposalId, handled.2⟩] else [])
  | .other _ => (other, [])

/-! ### The calls of the bridge -/

/-- Where a `place_order` call is: waiting for its future, its future resolved, returned, or raised. -/
inductive CallPhase
  | waiting
  | answered (reply : EaReply)
  | returned (result : ExecutionResult)
  | raised (error : BridgeError)

/-- A `place_order` call: the command it has queued, if it got so far, and the volume it asked for. -/
structure PlaceCall where
  assessment : RiskAssessment ℚ
  commandId : Option ℕ := none
  volume : ℚ := 0
  phase : CallPhase

/-- The second half of `place_order`: a reply that is no error becomes a result. -/
def placeOrderResult (a : RiskAssessment ℚ) (volume : ℚ) (resultId : ℕ) (reply : EaReply) :
    Except BridgeError ExecutionResult :=
  if reply.status = .error then
    .error (.orderRejected
      (.byTerminal (reply.errorMessage.getD "MT5 rejected the order") (reply.orderId.getD "")))
  else
    let fillQty := reply.fillQuantity.getD volume
    let fillPrice := reply.fillPrice.getD 0
    .ok
      { resultId := resultId
        proposalId := a.proposalId
        assessmentId := a.assessmentId
        exchangeOrderId := some (reply.orderId.getD "")
        symbol := a.originalProposal.symbol
        side := a.originalProposal.side
        orderType := a.originalProposal.orderType
        status := if volume ≤ fillQty then .filled else .partiallyFilled
        requestedQuantity := volume
        filledQuantity := fillQty
        averageFillPrice := some fillPrice
        totalCostUsd := if fillPrice = 0 then none else some (fillQty * fillPrice)
        isPaper := false }

/-- Where a call is after its answer has been read. -/
def CallPhase.ofResult : Except BridgeError ExecutionResult → CallPhase
  | .ok result => .returned result
  | .error e => .raised e

/-- `future.set_result` for the call that waits on a command. -/
def PlaceCall.answer (commandId : ℕ) (reply : EaReply) (call : PlaceCall) : PlaceCall :=
  match call.phase with
  | .waiting => if call.commandId = some commandId then { call with phase := .answered reply } else call
  | _ => call

/-! ### The two parties -/

/-- Bridge, advisor and the posts between them: the command queue, the commands with a pending future, the `place_order`
calls, the command that the advisor is executing, the posts on their way, and all that was executed. -/
structure Bridge where
  commandQueue : List Command := []
  resultFutures : List ℕ := []
  calls : List PlaceCall := []
  ea : Option Command := none
  posts : List (ℕ × EaReply) := []
  executed : List Execution := []
  nextId : ℕ := 0

/-- The events: a call queues an order, or another command; a poll takes a command, which reaches the advisor or is
lost; the advisor executes its command and posts; a post arrives or is lost; a call reads its answer; a call, or the
caller of another command, runs into its timeout. -/
inductive BridgeEvent
  | placeOrder (assessment : RiskAssessment ℚ)
  | request (action : OtherAction)
  | poll (received : Bool)
  | execute (send : SendReply) (other : EaReply)
  | deliver (i : ℕ)
  | losePost (i : ℕ)
  | resume (i : ℕ)
  | timeout (i : ℕ)
  | abandon (commandId : ℕ)

namespace Bridge

/-- `_enqueue_and_wait` up to its await. -/
def enqueue (s : Bridge) (action : CommandAction) : Bridge :=
  { s with
    commandQueue := s.commandQueue ++ [⟨s.nextId, action⟩]
    resultFutures := s.resultFutures ++ [s.nextId]
    nextId := s.nextId + 1 }

/-- `_handle_result`: resolve the future of the command, if it is still pending. -/
def handleResult (s : Bridge) (commandId : ℕ) (reply : EaReply) : Bridge :=
  if commandId ∈ s.resultFutures then
    { s with
      resultFutures := s.resultFutures.erase commandId
      calls := s.calls.map (PlaceCall.answer commandId reply) }
  else s

def step (mt5 : MT5Settings) (s : Bridge) : BridgeEvent → Option Bridge
  | .placeOrder a =>
    match placeOrderCommand mt5 a with
    | .error e => some { s with calls := s.calls ++ [{ assessment := a, phase := .raised e }] }
    | .ok order =>
      some { s.enqueue (.placeOrder order) with
        calls := s.calls ++
          [{ assessment := a, commandId := some s.nextId, volume := order.volume, phase := .waiting }] }
  | .request action => some (s.enqueue (.other action))
  | .poll received =>
    match s.commandQueue with
    | [] => none
    | c :: rest =>
      if received then
        match s.ea with
        | none => some { s with commandQueue := rest, ea := some c }
        | some _ => none
      else some { s with commandQueue := rest }
  | .execute send other =>
    match s.ea with
    | none => none
    | some c =>
      let done := executeAction c send other
      some { s with ea := none, posts := s.posts ++ [(c.id, done.1)], executed := s.executed ++ done.2 }
  | .deliver i =>
    match s.posts[i]? with
    | none => none
    | some post => some ({ s with posts := s.posts.eraseIdx i }.handleResult post.1 post.2)
  | .losePost i => if i < s.posts.length then some { s with posts := s.posts.eraseIdx i } else none
  | .resume i =>
    match s.calls[i]? with
    | none => none
    | some call =>
      match call.phase with
      | .answered reply =>
        let phase := CallPhase.ofResult (placeOrderResult call.assessment call.volume s.nextId reply)
        some { s with calls := s.calls.set i { call with phase := phase }, nextId := s.nextId + 1 }
      | _ => none
  -- the timeout can also win over a future that was resolved a moment before
  | .timeout i =>
    match s.calls[i]? with
    | none => none
    | some call =>
      match call.phase with
      | .waiting | .answered _ =>
        some { s with
          calls := s.calls.set i { call with phase := .raised (.noResponse mt5.requestTimeoutMs) }
          resultFutures := s.resultFutures.filter fun id => some id ≠ call.commandId }
      | _ => none
  | .abandon commandId =>
    if ∀ call ∈ s.calls, call.commandId ≠ some commandId then
      some { s with resultFutures := s.resultFutures.erase commandId }
    else none

/-- What a step can do: a call is made and refused or its command queued, a command goes to the advisor or is lost on
the way, is executed and its result posted, a post is received or lost, and a call ends or gives up. -/
inductive Stepped (mt5 : MT5Settings) (s : Bridge) : BridgeEvent → Bridge → Prop
  | refused {a : RiskAssessment ℚ} {e : BridgeError} (h : placeOrderCommand mt5 a = .error e) :
    Stepped mt5 s (.placeOrder a) { s with calls := s.calls ++ [{ assessment := a, phase := .raised e }] }
  | ordered {a : RiskAssessment ℚ} {order : PlaceOrder} (h : placeOrderCommand mt5 a = .ok order) :
    Stepped mt5 s (.placeOrder a)
      { s.enqueue (.placeOrder order) with
        calls := s.calls ++
          [{ assessment := a, commandId := some s.nextId, volume := order.volume, phase := .waiting }] }
  | requested (action : OtherAction) : Stepped mt5 s (.request action) (s.enqueue (.other action))
  | fetched {c : Command} {rest : List Command} (hqueue : s.commandQueue = c :: rest) (hea : s.ea = none) :
    Stepped mt5 s (.poll true) { s with commandQueue := rest, ea := some c }
  | commandLost {c : Command} {rest : List Command} (hqueue : s.commandQueue = c :: rest) :
    Stepped mt5 s (.poll false) { s with commandQueue := rest }
  | executed {c : Command} (send : SendReply) (other : EaReply) (hea : s.ea = some c) :
    Stepped mt5 s (.execute send other)
      { s with
        ea := none
        posts := s.posts ++ [(c.id, (executeAction c send other).1)]
        executed := s.executed ++ (executeAction c send other).2 }
  | delivered {i : ℕ} {post : ℕ × EaReply} (hpost : s.posts[i]? = some post) :
    Stepped mt5 s (.deliver i) ({ s with posts := s.posts.eraseIdx i }.handleResult post.1 post.2)
  | postLost (i : ℕ) : Stepped mt5 s (.losePost i) { s with posts := s.posts.eraseIdx i }
  | resumed {i : ℕ} {call : PlaceCall} {reply : EaReply} (hcall : s.calls[i]? = some call)
    (hphase : call.phase = .answered reply) :
    Stepped mt5 s (.resume i)
      { s with
        calls := s.calls.set i { call with
          phase := .ofResult (placeOrderResult call.assessment call.volume s.nextId reply) }
        nextId := s.nextId + 1 }
  | timedOut {i : ℕ} {call : PlaceCall} (hcall : s.calls[i]? = some call) :
    Stepped mt5 s (.timeout i)
      { s with
        calls := s.calls.set i { call with phase := .raised (.noResponse mt5.requestTimeoutMs) }
        resultFutures := s.resultFutures.filter fun id => some id ≠ call.commandId }
  | abandoned (commandId : ℕ) :
    Stepped mt5 s (.abandon commandId) { s with resultFutures := s.resultFutures.erase commandId }

theorem stepped_of_step {mt5 : MT5Settings} {s s' : Bridge} {e : BridgeEvent} (h : step mt5 s e = some s') :
    Stepped mt5 s e s' := by
  cases e with
  | placeOrder a =>
    simp only [step] at h
    split at h
    case h_1 err herr => cases h; exact .refused herr
    case h_2 order horder => cases h; exact .ordered horder
  | request action => cases h; exact .requested action
  | poll received =>
    simp only [step] at h
    split at h
    case h_1 => cases h
    case h_2 c rest hqueue =>
      cases received with
      | false => cases h; exact .commandLost hqueue
      | true =>
        rw [if_pos rfl] at h
        split at h
        case h_1 hea => cases h; exact .fetched hqueue hea
        case h_2 => cases h
  | execute send other =>
    simp only [step] at h
    split at h
    case h_1 => cases h
    case h_2 c hea => cases h; exact .executed send other hea
  | deliver i =>
    simp only [step] at h
    split at h
    case h_1 => cases h
    case h_2 post hpost => cases h; exact .delivered hpost
  | losePost i =>
    simp only [step] at h
    split at h
    case isTrue => cases h; exact .postLost i
    case isFalse => cases h
  | resume i =>
    simp only [step] at h
    split at h
    case h_1 => cases h
    case h_2 call hcall =>
      split at h
      case h_1 reply hphase => cases h; exact .resumed hcall hphase
      case h_2 => cases h
  | timeout i =>
    simp only [step] at h
    split at h
    case h_1 => cases h
    case h_2 call hcall =>
      split at h
      case h_1 => cases h; exact .timedOut hcall
      case h_2 => cases h; exact .timedOut hcall
      case h_3 => cases h
  | abandon commandId =>
    simp only [step] at h
    split at h
    case isTrue => cases h; exact .abandoned commandId
    case isFalse => cases h

end Bridge

end MultiAgentTrading.Mt5
