/-
The client that persists the trades of the match engine (`trade_persistence_client.cc`).
-/
import TradingEngine.TradePersistence.TradeEntity

namespace TradingEngine.TradePersistence

open DatabaseInterface

/-- A trade that `reader->Read` gives, with the uuid and the clock reading for its entity. -/
structure Received where
  trade : MatchEngineProto.Trade
  uuid : String
  now : ℤ

/-- The entity of a trade. -/
def Received.entity (databaseTableName : String) (received : Received) : Entity :=
  (tradeEntity received.uuid received.trade).toEntity databaseTableName received.now

/-- The loop of `PersistTrades`: the entities that `write` is called with, and the result. -/
def persistTrades (write : Entity → Bool) (databaseTableName : String) :
    List Received → List Entity × Bool
  | [] => ([], true)
  | received :: rest =>
    let tradeEntity := received.entity databaseTableName
    if write tradeEntity = false then ([tradeEntity], false)
    else
      let (written, result) := persistTrades write databaseTableName rest
      (tradeEntity :: written, result)

lemma persistTrades_of_write {write : Entity → Bool} (h : ∀ e, write e = true)
    (databaseTableName : String) (received : List Received) :
    persistTrades write databaseTableName received =
      (received.map (Received.entity databaseTableName), true) := by
  induction received with
  | nil => rfl
  | cons r rest ih => simp [persistTrades, ih, h]

/-- What is written to the database when its `write` returns `true`, as it always does. -/
def tradeEntities (databaseTableName : String) (received : List Received) : List Entity :=
  (persistTrades (fun _ => true) databaseTableName received).1

lemma tradeEntities_eq (databaseTableName : String) (received : List Received) :
    tradeEntities databaseTableName received =
      received.map (Received.entity databaseTableName) := by
  rw [tradeEntities, persistTrades_of_write fun _ => rfl]

end TradingEngine.TradePersistence
