/-
The order store in the database (`order_store_influxdb.cc`).
-/
import TradingEngine.Common.DatabaseInterface
import TradingEngine.OrderManager.OrderManager

namespace TradingEngine.OrderManager

open DatabaseInterface

/-- The entity that `PersistOrder` writes. -/
def persistOrderEntity (order : Order) (status : String) (concludedAmount : ℤ) : Entity :=
  let tradingSide :=
    match order.tradingSide with
    | .buy => "buy"
    | .sell => "sell"
    | .unknown => "unknown"
  { measurement := "order"
    tag := []
    field :=
      [⟨"order_id", toString order.orderId⟩, ⟨"symbol_id", toString order.symbolId⟩,
        ⟨"user_id", toString order.userId⟩, ⟨"price", toString order.price⟩,
        ⟨"amount", toString order.amount⟩, ⟨"trading_side", tradingSide⟩,
        ⟨"status", status⟩, ⟨"concluded amount", toString concludedAmount⟩]
    timestamp := order.submitTime }

/-- `PersistOrder`. -/
def persistOrder (write : Entity → Bool) (order : Order) (status : String)
    (concludedAmount : ℤ) : ℤ :=
  if write (persistOrderEntity order status concludedAmount) then 0 else -1

/-- The entity of a row. -/
def Record.entity (record : Record) : Entity :=
  persistOrderEntity record.order record.status record.concludedAmount

/-- `PersistOrder` of a row, with a database that takes what is written at this time. -/
def Record.persist (db : InfluxDB) (reply : Reply) (record : Record) : ℤ :=
  persistOrder (fun entity => (db.write entity reply).2) record.order record.status
    record.concludedAmount

/-- The database buffers every row, so that none is refused. -/
@[simp] lemma Record.persist_eq_zero (db : InfluxDB) (reply : Reply) (record : Record) :
    record.persist db reply = 0 := by
  rw [Record.persist, persistOrder, InfluxDB.write_snd, if_pos rfl]

end TradingEngine.OrderManager
