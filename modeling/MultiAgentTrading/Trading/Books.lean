import MultiAgentTrading.Risk.Agent
import Mathlib.Logic.Function.Basic

/-!
# The books of the trading system

What matters of a state of the trading system for the agreement of ledger and broker: the entry of each symbol in the
ledger and at the broker, the approved orders that still wait for their fill, and the results on their way back.
`Move` lists what one step can do to the books; the system is shown to move its books only in these ways, and the
safety arguments are about moves.
-/

namespace MultiAgentTrading

/-- An approved order; `closing` if it was approved as a close. -/
structure Order where
  id : ℕ
  symbol : String
  side : OrderSide
  closing : Bool
  deriving DecidableEq

def RiskAssessment.order (a : RiskAssessment ℚ) : Order :=
  ⟨a.proposalId, a.originalProposal.symbol, a.originalProposal.side, a.isClose⟩

/-- The books: ledger entries and value, ids of applied results, whether new orders are still taken, all orders
waiting for their fill and those that will still be placed, broker entries, the reported profits, the ids of orders
that would be answered from the cache, and the results published, in hand of the run loop, and of the monitor. -/
@[ext] structure Books where
  held : String → Option (OrderSide × ℚ)
  value : ℚ
  seen : List ℕ
  takes : Bool
  waiting : List Order
  live : List Order
  broker : String → Option (OrderSide × ℚ)
  realized : ℚ
  remembered : List ℕ
  results : List ExecutionResult
  loopResults : List ExecutionResult
  monitorResults : List ExecutionResult
  nextId : ℕ

/-- What a step does, as far as the books are concerned.  `degrade` stands for the run loop stopping or skipping. -/
inductive Action
  | quiet
  | approve (o : Order)
  | raise (o : Order)
  | opens (o : Order)
  | closes (o : Order)
  | replay (o : Order)
  | stopClose (symbol : String)
  | publishLoop
  | publishMonitor
  | settle
  | degrade
  deriving DecidableEq

/-- The result of an order that raised. -/
structure Failure (o : Order) (id : ℕ) (result : ExecutionResult) : Prop where
  resultId : result.resultId = id
  symbol : result.symbol = o.symbol
  side : result.side = o.side
  isFill : RiskAgent.isFill result = false
  realized : result.realizedPnlUsd = none

/-- The result of an order that opened a position at `cost`. -/
structure OpeningResult (o : Order) (id : ℕ) (cost : ℚ) (result : ExecutionResult) : Prop where
  resultId : result.resultId = id
  symbol : result.symbol = o.symbol
  side : result.side = o.side
  isFill : RiskAgent.isFill result = true
  cost : RiskAgent.actualCost result = cost
  realized : result.realizedPnlUsd = none

/-- The result of closing the position of a symbol on `side` with profit `pnl`. -/
structure ClosingResult (symbol : String) (side : OrderSide) (id : ℕ) (pnl : ℚ) (result : ExecutionResult) : Prop where
  resultId : result.resultId = id
  symbol : result.symbol = symbol
  side : result.side = side.opp
  isFill : RiskAgent.isFill result = true
  realized : result.realizedPnlUsd = some pnl

namespace Books

/-- The books after an approved order joins the queue. -/
def queue (b : Books) (o : Order) (nextId : ℕ) : Books :=
  { b with
    waiting := b.waiting ++ [o]
    live := if b.takes then b.live ++ [o] else b.live
    nextId := nextId }

/-- The books after a result has been applied by the ledger. -/
def apply (b : Books) (result : ExecutionResult) (rest : List ExecutionResult) (seen : List ℕ) : Books :=
  if result.resultId ∈ b.seen then { b with results := rest }
  else
    { b with
      results := rest
      seen := seen
      held := Function.update b.held result.symbol (RiskAgent.settleEntry result (b.held result.symbol))
      value := b.value + RiskAgent.settlePnl result (b.held result.symbol) }

/-- What one step can do to the books. -/
inductive Move (b : Books) : Action → Books → Prop
  | quiet (remembered : List ℕ) (nextId : ℕ) (hrem : remembered ⊆ b.remembered) (hid : b.nextId ≤ nextId) :
    Move b .quiet { b with remembered := remembered, nextId := nextId }
  | approveClose (o : Order) (cost : ℚ) (nextId : ℕ) (hclosing : o.closing = true)
      (hheld : b.held o.symbol = some (o.side.opp, cost)) (hid : b.nextId ≤ nextId) :
    Move b (.approve o) (b.queue o nextId)
  | approveOpen (o : Order) (size : ℚ) (nextId : ℕ) (hclosing : o.closing = false) (hheld : b.held o.symbol = none)
      (hid : b.nextId ≤ nextId) :
    Move b (.approve o) { b.queue o nextId with held := Function.update b.held o.symbol (some (o.side, size)) }
  | raise (o : Order) (result : ExecutionResult) (waiting rest live : List Order) (takes : Bool)
      (hresult : Failure o b.nextId result) (hfree : b.loopResults = []) (hwaiting : b.waiting = o :: waiting)
      (hrest : b.live = o :: rest) (hlive : live <+: rest) (htakes : takes = true → b.takes = true) :
    Move b (.raise o)
      { b with
        waiting := waiting, live := live, takes := takes, loopResults := [result], nextId := b.nextId + 1 }
  | opens (o : Order) (cost : ℚ) (result : ExecutionResult) (waiting live : List Order) (remembered : List ℕ)
      (hresult : OpeningResult o b.nextId cost result) (hfree : b.loopResults = [])
      (hwaiting : b.waiting = o :: waiting) (hlive : b.live = o :: live) (hflat : b.broker o.symbol = none)
      (hrem : remembered ⊆ o.id :: b.remembered) :
    Move b (.opens o)
      { b with
        waiting := waiting, live := live, remembered := remembered, loopResults := [result], nextId := b.nextId + 1
        broker := Function.update b.broker o.symbol (some (o.side, cost)) }
  | closes (o : Order) (cost pnl : ℚ) (result : ExecutionResult) (waiting live : List Order) (remembered : List ℕ)
      (hresult : ClosingResult o.symbol o.side.opp b.nextId pnl result) (hfree : b.loopResults = [])
      (hwaiting : b.waiting = o :: waiting) (hlive : b.live = o :: live)
      (hheld : b.broker o.symbol = some (o.side.opp, cost)) (hrem : remembered ⊆ o.id :: b.remembered) :
    Move b (.closes o)
      { b with
        waiting := waiting, live := live, remembered := remembered, loopResults := [result], nextId := b.nextId + 1
        broker := Function.update b.broker o.symbol none, realized := b.realized + pnl }
  | replay (o : Order) (result : ExecutionResult) (waiting live : List Order) (hwaiting : b.waiting = o :: waiting)
      (hlive : b.live = o :: live) (hrem : o.id ∈ b.remembered) :
    Move b (.replay o)
      { b with waiting := waiting, live := live, loopResults := [result], nextId := b.nextId + 1 }
  | stopClose (symbol : String) (side : OrderSide) (cost pnl : ℚ) (result : ExecutionResult)
      (remembered : List ℕ) (hresult : ClosingResult symbol side b.nextId pnl result) (hfree : b.monitorResults = [])
      (hheld : b.broker symbol = some (side, cost)) (hrem : remembered ⊆ b.remembered) :
    Move b (.stopClose symbol)
      { b with
        remembered := remembered, monitorResults := [result], nextId := b.nextId + 1
        broker := Function.update b.broker symbol none, realized := b.realized + pnl }
  | publishLoop :
    Move b .publishLoop { b with results := b.results ++ b.loopResults, loopResults := [] }
  | publishMonitor :
    Move b .publishMonitor { b with results := b.results ++ b.monitorResults, monitorResults := [] }
  | settle (result : ExecutionResult) (rest : List ExecutionResult) (seen : List ℕ)
      (hresults : b.results = result :: rest) (hseen : seen ⊆ result.resultId :: b.seen) :
    Move b .settle (b.apply result rest seen)
  | degrade (b' : Books) (hlive : b'.live <+: b.live) (htakes : b'.takes = true → b.takes = true)
      (hbroker : b'.broker = b.broker) (hrem : b'.remembered ⊆ b.remembered) :
    Move b .degrade b'

end Books

end MultiAgentTrading
