/-
The order manager (`order_manager.cc`).

`PlaceOrder` runs on the threads of the server, any number of calls at a time, and
`HandleMatchResult` on the one thread that reads the results of the match engine.  What the
threads do between two steps that other threads can see is one function here; `step` puts
them together.  The statistics that `StartEndManager` switches on, and the test mode, in
which nothing is persisted, are left out.
-/
import TradingEngine.Common.Protobuf

namespace TradingEngine.OrderManager

/-- `OrderTradingSide`. -/
inductive OrderTradingSide
  | buy
  | sell
  | unknown
  deriving DecidableEq

/-- `Order`. -/
structure Order where
  orderId : ℤ
  symbolId : ℤ
  userId : ℤ
  price : ℤ
  amount : ℤ
  tradingSide : OrderTradingSide
  submitTime : ℤ
  deriving DecidableEq

/-- A row of the order store, as `PersistOrder` writes it. -/
structure Record where
  order : Order
  status : String
  concludedAmount : ℤ
  deriving DecidableEq

/-- `OrderStatus`. -/
structure OrderStatus where
  order : Order
  concludedAmount : ℤ
  deriving DecidableEq

/-- The type of `order_id_to_order_status_`. -/
abbrev OrderStatusMap := ℤ → Option OrderStatus

/-! ### The functions of the service -/

/-- `BuildOrder`: the counter, the order, and the order for the match engine. -/
def buildOrder (now : ℤ) (counter : ℤ) (request : OrderManagerProto.Order) :
    ℤ × Order × MatchEngineProto.Order :=
  let orderId := counter + 1
  (orderId,
    { orderId := orderId
      amount := request.amount
      userId := request.userId
      symbolId := request.symbol
      price := request.price
      submitTime := now
      tradingSide :=
        match request.tradingSide with
        | .tradingBuy => .buy
        | .tradingSell => .sell
        | .tradingUnknown => .unknown
        | .unrecognized _ => .unknown },
    { orderId := orderId
      symbolId := request.symbol
      userId := request.userId
      price := request.price
      amount := request.amount
      tradingSide := MatchEngineProto.TradingSide.ofNumber request.tradingSide.number
      submitTime := now })

/-- `SaveOrderStatus`. -/
def saveOrderStatus (statusMap : OrderStatusMap) (order : Order) : OrderStatusMap :=
  fun id => if id = order.orderId then some ⟨order, 0⟩ else statusMap id

/-- An order is erased from the table when its whole amount is concluded. -/
def eraseConcluded (statusMap : OrderStatusMap) (orderId : ℤ) (status : OrderStatus) :
    OrderStatusMap :=
  if status.order.amount ≤ status.concludedAmount then
    fun id => if id = orderId then none else statusMap id
  else statusMap

/-- The amount of a trade is added to the concluded amount of an order. -/
def addConcluded (statusMap : OrderStatusMap) (orderId amount : ℤ) : OrderStatusMap :=
  fun id =>
    if id = orderId then
      (statusMap id).map fun s => { s with concludedAmount := s.concludedAmount + amount }
    else statusMap id

/-- The row of an order after a trade. -/
def tradeRecord (status : OrderStatus) : Record where
  order := status.order
  status := if status.order.amount ≤ status.concludedAmount then "concluded"
    else "partially concluded"
  concludedAmount := status.concludedAmount

/-- The critical section of `HandleMatchResult`: the table, and the rows that are persisted
after it.  There are none when one of the orders is not in the table. -/
def handleMatchResult (statusMap : OrderStatusMap) (trade : MatchEngineProto.Trade) :
    OrderStatusMap × List Record :=
  if (statusMap trade.makerId).isSome ∧ (statusMap trade.takerId).isSome then
    let statusMap := addConcluded statusMap trade.makerId trade.amount
    let statusMap := addConcluded statusMap trade.takerId trade.amount
    match statusMap trade.makerId, statusMap trade.takerId with
    | some maker, some taker =>
      let statusMap := eraseConcluded statusMap trade.makerId maker
      let statusMap := eraseConcluded statusMap trade.takerId taker
      (statusMap, [tradeRecord maker, tradeRecord taker])
    | _, _ => (statusMap, [])
  else (statusMap, [])

/-! ### The threads -/

/-- What a call of `PlaceOrder` has done. -/
inductive PlaceOrderStage
  | built
  | saved
  | persistedUnsubmitted
  /-- `Match` has reached the match engine, and is answered with success or not. -/
  | matched (success : Bool)
  | persistedResult
  deriving DecidableEq

/-- A call of `PlaceOrder`, with its place in the function. -/
structure PlaceOrderCall where
  order : Order
  matchEngineOrder : MatchEngineProto.Order
  stage : PlaceOrderStage
  deriving DecidableEq

/-- `OrderManagerService`, with its calls and the stream of trades. -/
structure OrderManagerService where
  /-- `order_id_`. -/
  counter : ℤ := 0
  orderIdToOrderStatus : OrderStatusMap := fun _ => none
  /-- The rows in the order in which they were written. -/
  orderStore : List Record := []
  /-- The calls of `PlaceOrder`, in the order of their ids. -/
  calls : List PlaceOrderCall := []
  /-- The trade that `HandleMatchResult` is at, and the rows it still has to persist. -/
  handling : Option (MatchEngineProto.Trade × List Record) := none

/-- A step of a call of `PlaceOrder` (its number comes first), or of the thread that reads trades.
-/
inductive Event
  | placeOrder (now : ℤ) (request : OrderManagerProto.Order)
  | save (i : ℕ)
  | persistUnsubmitted (i : ℕ)
  | matchEngine (i : ℕ) (success : Bool)
  | persistResult (i : ℕ)
  | receive (trade : MatchEngineProto.Trade)
  | persistTrade
  deriving DecidableEq

namespace OrderManagerService

/-- The call `i` goes from one stage to another. -/
def setStage (s : OrderManagerService) (i : ℕ) (call : PlaceOrderCall)
    (stage : PlaceOrderStage) : OrderManagerService :=
  { s with calls := s.calls.set i { call with stage := stage } }

/-- A row is written to the store. -/
def persistOrder (s : OrderManagerService) (record : Record) : OrderManagerService :=
  { s with orderStore := s.orderStore ++ [record] }

/-- The last row that was written for an order. -/
def lastRecord (s : OrderManagerService) (orderId : ℤ) : Option Record :=
  (s.orderStore.filter fun r => r.order.orderId = orderId).getLast?

/-- A step, where it is possible. -/
def step (s : OrderManagerService) : Event → Option OrderManagerService
  | .placeOrder now request =>
    let (counter, order, matchEngineOrder) := buildOrder now s.counter request
    some { s with
      counter := counter
      calls := s.calls ++ [⟨order, matchEngineOrder, .built⟩] }
  | .save i =>
    match s.calls[i]? with
    | some call =>
      if call.stage = .built then
        some { s.setStage i call .saved with
          orderIdToOrderStatus := saveOrderStatus s.orderIdToOrderStatus call.order }
      else none
    | none => none
  | .persistUnsubmitted i =>
    match s.calls[i]? with
    | some call =>
      if call.stage = .saved then
        some ((s.setStage i call .persistedUnsubmitted).persistOrder
          ⟨call.order, "unsubmitted", 0⟩)
      else none
    | none => none
  | .matchEngine i success =>
    match s.calls[i]? with
    | some call =>
      if call.stage = .persistedUnsubmitted then some (s.setStage i call (.matched success))
      else none
    | none => none
  | .persistResult i =>
    match s.calls[i]? with
    | some call =>
      match call.stage with
      | .matched success =>
        some ((s.setStage i call .persistedResult).persistOrder
          ⟨call.order, if success then "submitted" else "submission error", 0⟩)
      | _ => none
    | none => none
  | .receive trade =>
    match s.handling with
    | none =>
      let (statusMap, records) := handleMatchResult s.orderIdToOrderStatus trade
      some { s with
        orderIdToOrderStatus := statusMap
        handling := if records = [] then none else some (trade, records) }
    | some _ => none
  | .persistTrade =>
    match s.handling with
    | some (trade, record :: records) =>
      some { s.persistOrder record with
        handling := if records = [] then none else some (trade, records) }
    | _ => none

end OrderManagerService

end TradingEngine.OrderManager
