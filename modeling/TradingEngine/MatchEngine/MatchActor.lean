/-
The actor that keeps the order book of one symbol (`match_actor.cc`).

A level of a table is the list of the resting orders of one price, and a table is the list
of its levels.  A function of the source that changes its arguments in place returns their
new values.
-/
import TradingEngine.MatchEngine.Config

namespace TradingEngine.MatchEngine

/-- `RawOrderList`, the orders of one price. -/
abbrev RawOrderList := List RawOrder

/-- `OrderTable`, the prices of one side. -/
abbrev OrderTable := List RawOrderList

/-- The state of a match actor. -/
structure OrderBook (α : Type) where
  sellList : OrderTable := []
  buyList : OrderTable := []
  /-- `none` is the null handle. -/
  matchResultActor : Option α := none
  deriving DecidableEq

/-- `MakeTrade`; `dealTime` is the reading of the clock. -/
def makeTrade (dealTime : ℤ) (makerOrder takerOrder : RawOrder) (tradeList : TradeList) :
    RawOrder × RawOrder × TradeList :=
  let (tradeAmount, makerOrder, takerOrder, submitTime) :=
    if makerOrder.amount < takerOrder.amount then
      (makerOrder.amount, { makerOrder with amount := 0 },
        { takerOrder with amount := takerOrder.amount - makerOrder.amount },
        makerOrder.submitTime)
    else
      (takerOrder.amount, { makerOrder with amount := makerOrder.amount - takerOrder.amount },
        { takerOrder with amount := 0 }, takerOrder.submitTime)
  let (sellerUserId, buyerUserId) :=
    match takerOrder.tradingSide with
    | .buy => (makerOrder.userId, takerOrder.userId)
    | .sell => (takerOrder.userId, makerOrder.userId)
  (makerOrder, takerOrder, tradeList ++
    [{ makerId := makerOrder.orderId
       takerId := takerOrder.orderId
       tradingSide := takerOrder.tradingSide
       amount := tradeAmount
       price := makerOrder.price
       sellerUserId := sellerUserId
       buyerUserId := buyerUserId
       symbolId := takerOrder.symbolId
       submitTime := submitTime
       dealTime := dealTime }])

/-- The price test of `MatchOrderFromList`: the limit of the order rules the maker out. -/
def limitExcludes (order maker : RawOrder) : Bool :=
  match order.tradingSide with
  | .sell => order.price > maker.price
  | .buy => order.price < maker.price

/-- `MatchOrderFromList`: the rest of the level, the order, the trades, and whether the
whole level was consumed. -/
def matchOrderFromList (now : Clock) :
    RawOrderList → RawOrder → TradeList → RawOrderList × RawOrder × TradeList × Bool
  | [], order, tradeList => ([], order, tradeList, true)
  | maker :: orderList, order, tradeList =>
    if limitExcludes order maker then (maker :: orderList, order, tradeList, false)
    else
      let (maker, order, tradeList) := makeTrade (now tradeList.length) maker order tradeList
      -- `erase` when the maker is used up, `++maker_it` otherwise
      let passed := if maker.amount = 0 then [] else [maker]
      if order.amount = 0 then (passed ++ orderList, order, tradeList, false)
      else
        let (orderList, order, tradeList, canMatch) :=
          matchOrderFromList now orderList order tradeList
        (passed ++ orderList, order, tradeList, canMatch)

/-- The loop of `MatchOrderFromTable`. -/
def matchOrderFromTableLoop (now : Clock) :
    OrderTable → RawOrder → TradeList → OrderTable × RawOrder × TradeList
  | [], order, tradeList => ([], order, tradeList)
  | orderList :: orderTable, order, tradeList =>
    let (orderList, order, tradeList, canMatch) :=
      matchOrderFromList now orderList order tradeList
    let passed := if orderList = [] then [] else [orderList]
    if canMatch then
      let (orderTable, order, tradeList) :=
        matchOrderFromTableLoop now orderTable order tradeList
      (passed ++ orderTable, order, tradeList)
    else (passed ++ orderTable, order, tradeList)

/-- `MatchOrderFromTable`: the table, the order and the trades afterwards. -/
def matchOrderFromTable (now : Clock) (orderTable : OrderTable) (order : RawOrder) :
    OrderTable × RawOrder × TradeList :=
  matchOrderFromTableLoop now orderTable order []

/-- `need_create` of `AddToOrderTable`: the price of the order is better than the price of
the level that `first` heads. -/
def needCreate (order first : RawOrder) : Bool :=
  match order.tradingSide with
  | .buy => order.price > first.price
  | .sell => order.price < first.price

/-- `AddToOrderTable`.  The source reads the first order of every level it passes; an empty
level, where that would be undefined, is skipped. -/
def addToOrderTable : OrderTable → RawOrder → OrderTable
  | [], order => [[order]]
  | [] :: orderTable, order => [] :: addToOrderTable orderTable order
  | (first :: orderList) :: orderTable, order =>
    if order.price = first.price then ((first :: orderList) ++ [order]) :: orderTable
    else if needCreate order first then [order] :: (first :: orderList) :: orderTable
    else (first :: orderList) :: addToOrderTable orderTable order

variable {α : Type}

/-- `SendMatchResult`: the message that is sent, if any.  Without a receiver the result is
dropped with a warning. -/
def sendMatchResult (matchResultActor : Option α) (matchResult : TradeList) :
    Option (α × TradeList) :=
  if matchResult.length = 0 then none
  else
    match matchResultActor with
    | some receiver => some (receiver, matchResult)
    | none => none

/-- The handler of `MatchActor` for an order: the new state and the trades, which
`sendMatchResult` then sends. -/
def matchActorOrder (now : Clock) (state : OrderBook α) (order : RawOrder) :
    OrderBook α × TradeList :=
  match order.tradingSide with
  | .buy =>
    let (sellList, order, tradeList) := matchOrderFromTable now state.sellList order
    let buyList := if order.amount ≠ 0 then addToOrderTable state.buyList order
      else state.buyList
    ({ state with sellList := sellList, buyList := buyList }, tradeList)
  | .sell =>
    let (buyList, order, tradeList) := matchOrderFromTable now state.buyList order
    let sellList := if order.amount ≠ 0 then addToOrderTable state.sellList order
      else state.sellList
    ({ state with sellList := sellList, buyList := buyList }, tradeList)

/-- The handler of `MatchActor` for the receiver of the results. -/
def matchActorReceiver (state : OrderBook α) (resultReceiver : α) : OrderBook α :=
  { state with matchResultActor := some resultReceiver }

/-- `MatchActor` on a sequence of orders: the trades of each order and the final state.
`clock i` are the readings during the `i`-th order. -/
def runOrders (clock : ℕ → Clock) (state : OrderBook α) :
    List RawOrder → List TradeList × OrderBook α
  | [] => ([], state)
  | order :: orders =>
    let (state, tradeList) := matchActorOrder (clock 0) state order
    let (tradeLists, state) := runOrders (fun i => clock (i + 1)) state orders
    (tradeList :: tradeLists, state)

end TradingEngine.MatchEngine
