/-
The data of the match engine (`match_engine_config.h`): orders, trades, and the entries of
the symbol table.  A `caf::actor` handle is a value of a type `α`.
-/
import TradingEngine.Common.Protobuf

namespace TradingEngine.MatchEngine

/-- `TRADING_SITE_E`. -/
inductive TradingSite
  | buy
  | sell
  deriving DecidableEq

/-- `RawOrder`. -/
structure RawOrder where
  orderId : ℤ
  symbolId : ℤ
  userId : ℤ
  tradingSide : TradingSite
  amount : ℤ
  price : ℤ
  submitTime : ℤ
  deriving DecidableEq

/-- `MatchedTrade`. -/
structure MatchedTrade where
  makerId : ℤ
  takerId : ℤ
  /-- The side of the taker. -/
  tradingSide : TradingSite
  amount : ℤ
  price : ℤ
  sellerUserId : ℤ
  buyerUserId : ℤ
  symbolId : ℤ
  submitTime : ℤ
  dealTime : ℤ
  deriving DecidableEq

/-- `TradeList`. -/
abbrev TradeList := List MatchedTrade

/-- `SymbolActorInfo`. -/
structure SymbolActorInfo (α : Type) where
  symbolId : ℤ
  symbolActor : α
  deriving DecidableEq

/-- The readings of `system_clock` while one message is handled: the first, the second,
and so on. -/
abbrev Clock := ℕ → ℤ

end TradingEngine.MatchEngine
