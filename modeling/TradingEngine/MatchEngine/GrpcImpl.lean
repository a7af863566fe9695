/-
The service of a match engine node (`match_engine_grpc_impl.cc`).

`Match` checks an order and hands it to the cluster; `SendMatchResult` writes every trade to
every subscriber.  A subscriber's stream is reached through the function `Write` of grpc,
which may fail; it is a parameter here.
-/
import TradingEngine.MatchEngine.Config

namespace TradingEngine.MatchEngine

open MatchEngineProto

/-- `grpc::Status`, as the service returns it. -/
inductive GrpcStatus
  | ok
  | unavailable (message : String)
  | failedPrecondition (message : String)
  deriving DecidableEq

/-- `TransformGrpcOrder`; `none` stands for the result `false`. -/
def transformGrpcOrder (grpcOrder : MatchEngineProto.Order) : Option RawOrder :=
  let rawOrder (side : TradingSite) : RawOrder :=
    { orderId := grpcOrder.orderId
      symbolId := grpcOrder.symbolId
      userId := grpcOrder.userId
      tradingSide := side
      amount := grpcOrder.amount
      price := grpcOrder.price
      submitTime := grpcOrder.submitTime }
  match grpcOrder.tradingSide with
  | .tradingBuy => some (rawOrder .buy)
  | .tradingSell => some (rawOrder .sell)
  | .tradingUnknown => none
  | .unrecognized _ => none

/-- The state of `MatchEngineGRPCImpl`: the writers of the subscribers, and the switch. -/
structure MatchEngineGRPCImpl (κ : Type) where
  matchResultWriterKeepers : List κ := []
  engineIsOpen : Bool := true
  deriving DecidableEq

namespace MatchEngineGRPCImpl

variable {κ ω : Type}

/-- `OpenCloseEngine`. -/
def openCloseEngine (impl : MatchEngineGRPCImpl κ) (status : EngineStatus) :
    MatchEngineGRPCImpl κ × Status :=
  match status with
  | .engineClose => ({ impl with engineIsOpen := false }, .statusSuccess)
  | .engineOpen => ({ impl with engineIsOpen := true }, .statusSuccess)
  | .unrecognized _ => (impl, .statusSuccess)

/-- `Match`: the answer, and the order that goes to `MatchEngineCluster::Match`. -/
def «match» (impl : MatchEngineGRPCImpl κ) (request : MatchEngineProto.Order) :
    GrpcStatus × Status × Option RawOrder :=
  if impl.engineIsOpen = false then (.unavailable "Engine is close", .statusUnknown, none)
  else
    match transformGrpcOrder request with
    | none => (.failedPrecondition "data form error", .statusUnknown, none)
    | some rawOrder => (.ok, .statusSuccess, some rawOrder)

/-- The beginning of `SubscribeMatchResult`, which then waits for the end of the writer. -/
def subscribeMatchResult (impl : MatchEngineGRPCImpl κ) (writer : κ) : MatchEngineGRPCImpl κ :=
  { impl with matchResultWriterKeepers := impl.matchResultWriterKeepers ++ [writer] }

/-- The message of a trade, as `SendMatchResult` fills it in. -/
def grpcTrade (trade : MatchedTrade) : MatchEngineProto.Trade where
  takerId := trade.takerId
  sellerUserId := trade.sellerUserId
  buyerUserId := trade.buyerUserId
  amount := trade.amount
  price := trade.price
  symbolId := trade.symbolId
  makerId := trade.makerId
  submitTime := trade.submitTime
  tradingSide := if trade.tradingSide = .buy then .tradingBuy else .tradingSell

variable (write : κ → MatchEngineProto.Trade → ω → Bool × ω)

/-- The inner loop of `SendMatchResult`: the writers that are kept. -/
def writeToKeepers (message : MatchEngineProto.Trade) : List κ → ω → List κ × ω
  | [], world => ([], world)
  | writer :: keepers, world =>
    let (success, world) := write writer message world
    let (keepers, world) := writeToKeepers message keepers world
    (if success then writer :: keepers else keepers, world)

/-- The outer loop of `SendMatchResult`. -/
def sendMatchResultLoop : TradeList → List κ → ω → List κ × ω
  | [], keepers, world => (keepers, world)
  | trade :: tradeList, keepers, world =>
    let (keepers, world) := writeToKeepers write (grpcTrade trade) keepers world
    sendMatchResultLoop tradeList keepers world

/-- `SendMatchResult`, outside of tests. -/
def sendMatchResult (impl : MatchEngineGRPCImpl κ) (tradeList : TradeList) (world : ω) :
    MatchEngineGRPCImpl κ × ω :=
  let (keepers, world) :=
    sendMatchResultLoop write tradeList impl.matchResultWriterKeepers world
  ({ impl with matchResultWriterKeepers := keepers }, world)

end MatchEngineGRPCImpl

end TradingEngine.MatchEngine
