/-
The record of a trade in the database (`trade_entity.cc`).
-/
import TradingEngine.Common.DatabaseInterface
import TradingEngine.Common.Protobuf

namespace TradingEngine.TradePersistence

open DatabaseInterface

/-- `TradeEntity`. -/
structure TradeEntity where
  buyOrderId : String := ""
  sellOrderId : String := ""
  symbolId : String
  tradeId : String
  price : String
  amount : String
  sellUserId : String
  buyUserId : String
  submitTime : ℤ
  deriving DecidableEq

/-- The constructor of `TradeEntity`; `uuid` is the value of `generate_uuid_v4`.  The field
`submit_time` is a `uint64_t`. -/
def tradeEntity (uuid : String) (trade : MatchEngineProto.Trade) : TradeEntity :=
  let entity : TradeEntity :=
    { buyUserId := toString trade.buyerUserId
      sellUserId := toString trade.sellerUserId
      symbolId := toString trade.symbolId
      price := toString trade.price
      amount := toString trade.amount
      tradeId := uuid
      submitTime := trade.submitTime % 2 ^ 64 }
  match trade.tradingSide with
  | .tradingBuy =>
    { entity with
      buyOrderId := toString trade.takerId
      sellOrderId := toString trade.makerId }
  | .tradingSell =>
    { entity with
      sellOrderId := toString trade.takerId
      buyOrderId := toString trade.makerId }
  | .tradingUnknown => entity
  | .unrecognized _ => entity

/-- `to_entity`; `now` is the reading of `system_clock`, in nanoseconds. -/
def TradeEntity.toEntity (trade : TradeEntity) (databaseTableName : String) (now : ℤ) : Entity where
  measurement := databaseTableName
  tag := []
  field :=
    [⟨"buy_order_id", trade.buyOrderId⟩, ⟨"sell_order_id", trade.sellOrderId⟩,
      ⟨"symbol_id", trade.symbolId⟩, ⟨"trade_id", trade.tradeId⟩, ⟨"price", trade.price⟩,
      ⟨"amount", trade.amount⟩, ⟨"sell_user_id", trade.sellUserId⟩,
      ⟨"buy_user_id", trade.buyUserId⟩, ⟨"submit_time", toString trade.submitTime⟩]
  timestamp := now

end TradingEngine.TradePersistence
