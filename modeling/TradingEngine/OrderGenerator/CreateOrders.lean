/-
The program that puts orders into the database (`create_orders.cc`).

The orders are random; here they are given.  There is no thread behind the writer.
-/
import TradingEngine.Common.DatabaseInterface
import TradingEngine.Common.Protobuf

namespace TradingEngine.OrderGenerator

open DatabaseInterface

/-- The class `Order` (`order_generator.h`). -/
structure Order where
  userId : I32
  symbol : I32
  price : I32
  amount : I32
  tradingSide : I32
  deriving DecidableEq

/-- The entity that is written in round `i` of the loop. -/
def payload (i : ℕ) (order : Order) : Entity where
  measurement := "orders"
  tag := []
  field :=
    [⟨"user_id", toString (order.userId : ℤ)⟩, ⟨"symbol", toString (order.symbol : ℤ)⟩,
      ⟨"price", toString (order.price : ℤ)⟩, ⟨"amount", toString (order.amount : ℤ)⟩,
      ⟨"trading_side", toString (order.tradingSide : ℤ)⟩]
  timestamp := i

/-- The entities of a list of orders. -/
def payloads (orders : List Order) : List Entity := orders.mapIdx payload

/-- The calls of the writer; `reply` gives what the server would answer in every round. -/
def createOrders (reply : ℕ → Reply) (orders : List Order) : List Event :=
  (payloads orders).mapIdx (fun i e => .write e (reply i)) ++ [.flush (reply orders.length)]

end TradingEngine.OrderGenerator
