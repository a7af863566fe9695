/-
The verification after a load test.

The trades that a subscriber reads are written to a database, and the verifier compares the rows
of two databases.  Two load tests of the same requests may differ in everything but the requests,
and so do the ids, the times and the order of the rows; the verifier that goes symbol by symbol
finds them equal all the same (`verified_of_loadTests`).
-/
import TradingEngine.Database.Buffer
import TradingEngine.Database.Select
import TradingEngine.DataVerifier.BySymbol
import TradingEngine.System.Deployment
import TradingEngine.TradePersistence.TradePersistenceClient

namespace TradingEngine.System.Deployment

open Lib MatchEngine Matching DatabaseInterface TradePersistence DataVerifier

/-! ### Up to ids and times -/

section Reference

variable {H κ : Type} [DecidableEq H] [DecidableEq κ] {config : Config H}
  {orders : List OrderManagerProto.Order} {trades : List MatchEngineProto.Trade}

/-- A trade without the ids of its orders and without times. -/
def anonymousTrade (trade : MatchEngineProto.Trade) : MatchEngineProto.Trade :=
  { trade with makerId := 0, takerId := 0, submitTime := 0 }

/-- The trades that the requests of a symbol make one after the other, all with the same id. -/
def referenceTrades (symbolId : ℤ) (orders : List OrderManagerProto.Order) :
    List MatchEngineProto.Trade :=
  (runOrders (fun _ _ => 0) ({} : OrderBook Unit)
    ((ofSymbol symbolId orders).filterMap referenceOrder)).1.flatten.map
      MatchEngineGRPCImpl.grpcTrade

/-- **A load test makes the reference trades**, up to ids and times. -/
lemma LoadTest.reference (h : LoadTest κ config orders trades) (symbolId : ℤ) :
    (trades.filter fun t => t.symbolId = symbolId).map anonymousTrade =
      referenceTrades symbolId orders := by
  obtain ⟨accepted, h⟩ := h
  have hrelabel := runOrders_relabel anonymous (none : Option Unit) (fun _ _ => 0)
    ({} : OrderBook Unit) (accepted.filter fun order => order.symbolId = symbolId)
  rw [h.accepted_ofSymbol symbolId] at hrelabel
  -- both start from the empty book
  have hempty : ({} : OrderBook Unit).relabel anonymous (none : Option Unit) = {} := rfl
  rw [hempty] at hrelabel
  rw [h.trades_ofSymbol symbolId, referenceTrades, hrelabel, ← List.map_flatten, List.map_map,
    List.map_map]
  rfl

end Reference

/-! ### The rows of the trades -/

/-- A row as the database gives it; the time is in milliseconds. -/
def dataEntry (columns : List String) (row : Row) : DataEntry :=
  .number (row.time / 10 ^ 6) :: columns.map fun column =>
    match row.fields.find? fun f => f.key = column with
    | some f => .string f.value
    | none => .null

/-- The rows of a measurement with these entities. -/
def dataEntries (es : List Entity) : List DataEntry :=
  (rowsByTime es).map (dataEntry (columnsOf es))

/-- The columns of the trades after the time. -/
def tradeColumns : List String :=
  ["amount", "buy_order_id", "buy_user_id", "price", "sell_order_id", "sell_user_id",
    "submit_time", "symbol_id", "trade_id"]

/-- The row of a trade. -/
def tradeEntry (received : Received) : DataEntry :=
  let entity := tradeEntity received.uuid received.trade
  [.number (received.now / 10 ^ 6), .string entity.amount, .string entity.buyOrderId,
    .string entity.buyUserId, .string entity.price, .string entity.sellOrderId,
    .string entity.sellUserId, .string (toString entity.submitTime), .string entity.symbolId,
    .string entity.tradeId]

section Rows

variable {databaseTableName : String} {received : List Received}

lemma insertColumns_trade (r : Received) :
    insertColumns [] (r.entity databaseTableName) = tradeColumns ∧
      insertColumns tradeColumns (r.entity databaseTableName) = tradeColumns := by
  have hkeys : (r.entity databaseTableName).field.map DataPair.key =
      ["buy_order_id", "sell_order_id", "symbol_id", "trade_id", "price", "amount",
        "sell_user_id", "buy_user_id", "submit_time"] := rfl
  have hfold : ∀ columns, insertColumns columns (r.entity databaseTableName) =
      ((r.entity databaseTableName).field.map DataPair.key).foldl
        (fun columns key => insertColumn key columns) columns := by
    intro columns
    rw [insertColumns, List.foldl_map]
  rw [hfold, hfold, hkeys]
  exact ⟨by decide, by decide⟩

variable (databaseTableName) in
/-- Each trade has a row of its own when no two of them are written at one time. -/
lemma dataEntries_trades (hclock : received.Pairwise fun r r' => r.now < r'.now) :
    dataEntries (tradeEntities databaseTableName received) = received.map tradeEntry := by
  rcases eq_or_ne received [] with rfl | hne
  · rfl
  have hcolumns : columnsOf (tradeEntities databaseTableName received) = tradeColumns := by
    rw [tradeEntities_eq]
    refine columnsOf_eq (by simpa using hne) ?_ ?_
    all_goals
      intro e he
      obtain ⟨r, hr, rfl⟩ := List.mem_map.1 he
    · exact (insertColumns_trade r).1
    · exact (insertColumns_trade r).2
  -- a time of its own makes a row of its own
  have htimes : (tradeEntities databaseTableName received).Pairwise
      fun e e' => e.timestamp < e'.timestamp := by
    rw [tradeEntities_eq, List.pairwise_map]
    exact hclock
  rw [dataEntries, rowsByTime_of_pairwise htimes, hcolumns, tradeEntities_eq, List.map_map,
    List.map_map]
  rfl

/-! ### What the verifier looks at -/

/-- The texts of a row that are compared. -/
lemma text_tradeEntry (r : Received) :
    text (tradeEntry r) 1 = toString r.trade.amount ∧
      text (tradeEntry r) 3 = toString r.trade.buyerUserId ∧
      text (tradeEntry r) 4 = toString r.trade.price ∧
      text (tradeEntry r) 6 = toString r.trade.sellerUserId ∧
      text (tradeEntry r) 8 = toString r.trade.symbolId := by
  cases hside : r.trade.tradingSide <;> simp [text, tradeEntry, tradeEntity, hside]

lemma wellFormed_tradeEntry (r : Received) : WellFormed 10 (tradeEntry r) := by
  obtain ⟨hamount, hbuyer, hprice, hseller, hsymbol⟩ := text_tradeEntry r
  refine ⟨rfl, fun i hi => ?_, fun i hi => ?_⟩
  all_goals
    simp only [List.mem_cons, List.not_mem_nil, or_false] at hi
    rcases hi with rfl | rfl | rfl | rfl | rfl
  · rfl
  · rfl
  · rfl
  · rfl
  · rfl
  · rw [hamount]
    exact Decimal.notMem_toString rfl (by decide) _
  · rw [hbuyer]
    exact Decimal.notMem_toString rfl (by decide) _
  · rw [hprice]
    exact Decimal.notMem_toString rfl (by decide) _
  · rw [hseller]
    exact Decimal.notMem_toString rfl (by decide) _
  · rw [hsymbol]
    exact Decimal.notMem_toString rfl (by decide) _

/-- What the verifier compares of a trade. -/
def compared (trade : MatchEngineProto.Trade) : String × String × String × String :=
  (toString trade.amount, toString trade.buyerUserId, toString trade.price,
    toString trade.sellerUserId)

lemma trade_tradeEntry (r : Received) : trade (tradeEntry r) = compared r.trade := by
  obtain ⟨hamount, hbuyer, hprice, hseller, -⟩ := text_tradeEntry r
  rw [trade, hamount, hbuyer, hprice, hseller]
  rfl

/-- The rows of a symbol are those of its trades. -/
lemma rowsOf_trades (symbolId : ℤ) :
    (rowsOf (toString symbolId) (received.map tradeEntry)).map trade =
      ((received.map Received.trade).filter fun t => t.symbolId = symbolId).map compared := by
  rw [rowsOf, List.filter_map, List.filter_map, List.map_map, List.map_map]
  have hfilter : (received.filter fun r => text (tradeEntry r) 8 = toString symbolId) =
      received.filter fun r => r.trade.symbolId = symbolId := by
    refine List.filter_congr fun r _ => ?_
    rw [(text_tradeEntry r).2.2.2.2, decide_eq_decide]
    exact Decimal.toString_injective.eq_iff
  exact (congrArg (List.map (trade ∘ tradeEntry)) hfilter).trans
    (List.map_congr_left fun r _ => trade_tradeEntry r)

/-- Symbols are numbers. -/
lemma rowsOf_of_ne {s : String} (h : ∀ symbolId : ℤ, toString symbolId ≠ s) :
    rowsOf s (received.map tradeEntry) = [] := by
  refine List.filter_eq_nil_iff.2 fun row hrow heq => ?_
  obtain ⟨r, -, rfl⟩ := List.mem_map.1 hrow
  rw [(text_tradeEntry r).2.2.2.2] at heq
  exact h _ (of_decide_eq_true heq)

end Rows

/-! ### The verdict -/

/-- The trades are written to a measurement at increasing times, the server takes all batches, and
the writer has none left; these are the rows then. -/
inductive Recorded (databaseTableName : String) (trades : List MatchEngineProto.Trade) :
    List DataEntry → Prop
  | rows {received : List Received} {enableThread : Bool} {es : List DatabaseInterface.Event}
      {db : InfluxDB} (read : received.map Received.trade = trades)
      (clock : received.Pairwise fun r r' => r.now < r'.now)
      (ran : (database enableThread).Reaches es db)
      (written : accepted enableThread es = tradeEntities databaseTableName received)
      (posts : ∀ batch ∈ attempted enableThread es, batch.2 = true) (flushed : db.buffer = []) :
      Recorded databaseTableName trades (dataEntries (posted enableThread es).flatten)

section Verdict

variable {measurement : String} {trades : List MatchEngineProto.Trade} {rows : List DataEntry}

/-- Every trade has one row, in the order in which they were read. -/
lemma Recorded.exists_received (h : Recorded measurement trades rows) :
    ∃ received : List Received, received.map Received.trade = trades ∧
      rows = received.map tradeEntry := by
  obtain @⟨received, enableThread, es, db, hread, hclock, hrun, hwritten, hposts, hflushed⟩ := h
  have hentities := accepted_of_posted hrun hposts
  rw [hflushed, List.append_nil, hwritten] at hentities
  refine ⟨received, hread, ?_⟩
  rw [← hentities, dataEntries_trades _ hclock]

variable {H κ H' κ' : Type} [DecidableEq H] [DecidableEq κ] [DecidableEq H'] [DecidableEq κ']
  {config : Config H} {config' : Config H'} {orders : List OrderManagerProto.Order}

/-- The rows of a symbol are those of the reference trades, as far as they are compared. -/
lemma Recorded.rowsOf_eq (h : Recorded measurement trades rows)
    (htrades : LoadTest κ config orders trades) (symbolId : ℤ) :
    (rowsOf (toString symbolId) rows).map trade =
      (referenceTrades symbolId orders).map compared := by
  obtain ⟨received, rfl, rfl⟩ := h.exists_received
  rw [rowsOf_trades, ← htrades.reference, List.map_map]
  rfl

/-- **Two load tests of the same requests are found equal**, symbol by symbol, however many
threads, order managers and nodes each of them has and whatever turns these have taken: the two
databases have the same trades of every symbol, and the verdict is positive unless there are no
trades at all. -/
theorem verified_of_loadTests {tradesA tradesB : List MatchEngineProto.Trade}
    (hA : LoadTest κ config orders tradesA) (hB : LoadTest κ' config' orders tradesB)
    {measurementA measurementB : String} {rowsA rowsB : List DataEntry}
    (hrowsA : Recorded measurementA tradesA rowsA) (hrowsB : Recorded measurementB tradesB rowsB)
    {v : DataVerifier} {getQueryResultA getQueryResultB : String → String}
    (hvA : v.dataSourceA = dataSourceInfluxDB measurementA rowsA getQueryResultA)
    (hvB : v.dataSourceB = dataSourceInfluxDB measurementB rowsB getQueryResultB)
    (hordered : v.isOrderedDataSources = true) (hbySymbol : v.isOrderedBySymbol = true) :
    SameTrades rowsA rowsB ∧ v.verifyEquality = .ok (decide (tradesA ≠ [])) := by
  obtain ⟨receivedA, htradesA, heqA⟩ := hrowsA.exists_received
  obtain ⟨receivedB, -, heqB⟩ := hrowsB.exists_received
  have hwellA : ∀ row ∈ rowsA, WellFormed 10 row := by
    intro row hrow
    obtain ⟨r, -, rfl⟩ := List.mem_map.1 (heqA ▸ hrow)
    exact wellFormed_tradeEntry r
  have hwellB : ∀ row ∈ rowsB, WellFormed 10 row := by
    intro row hrow
    obtain ⟨r, -, rfl⟩ := List.mem_map.1 (heqB ▸ hrow)
    exact wellFormed_tradeEntry r
  -- what is compared comes from the requests alone
  have hsame : ∀ s, (rowsOf s rowsA).map trade = (rowsOf s rowsB).map trade := by
    intro s
    by_cases hs : ∃ symbolId : ℤ, toString symbolId = s
    · obtain ⟨symbolId, rfl⟩ := hs
      rw [hrowsA.rowsOf_eq hA, hrowsB.rowsOf_eq hB]
    -- a text that is no number is no symbol of a row
    · rw [heqA, heqB, rowsOf_of_ne (not_exists.1 hs), rowsOf_of_ne (not_exists.1 hs)]
  have hnumber : ∀ s, (rowsOf s rowsA).length = (rowsOf s rowsB).length := by
    intro s
    have hlength := congrArg List.length (hsame s)
    rwa [List.length_map, List.length_map] at hlength
  -- a trade is a row, so there are rows if and only if there are trades
  have hempty : rowsA = [] ↔ tradesA = [] := by
    rw [heqA, ← htradesA, List.map_eq_nil_iff, List.map_eq_nil_iff]
  refine ⟨⟨?_, hnumber, fun s => congrArg Multiset.ofList (hsame s)⟩, ?_⟩
  · ext s
    rw [mem_symbols_iff, mem_symbols_iff, ← List.length_pos_iff, ← List.length_pos_iff, hnumber]
  · have hnumberA : v.dataSourceA.getDataEntryNumber = rowsA.length := by rw [hvA]; rfl
    have hnumberB : v.dataSourceB.getDataEntryNumber = rowsB.length := by rw [hvB]; rfl
    by_cases hnone : tradesA = []
    · -- no trade in the one, so none in the other
      have hrowsB : rowsB = [] := by
        refine List.eq_nil_iff_forall_not_mem.2 fun row hrow => ?_
        have hpos : 0 < (rowsOf (text row 8) rowsB).length :=
          List.length_pos_of_mem (mem_rowsOf.2 ⟨hrow, rfl⟩)
        rw [← hnumber, hempty.2 hnone] at hpos
        exact absurd hpos (by simp [rowsOf])
      rw [verifyEquality, hnumberA, hnumberB, hempty.2 hnone, hrowsB]
      simp [hnone]
    · have hpos : 0 < rowsA.length := List.length_pos_iff.2 fun hnil => hnone (hempty.1 hnil)
      have hverdict : ∀ w : DataVerifier, w.dataSourceA = v.dataSourceA →
          w.dataSourceB = v.dataSourceB →
          w.verifyEqualityForOrderedBySymbolDataSource rowsA.length rowsB.length 0 = .ok true := by
        intro w hwA hwB
        refine (verdict_iff ?_ ?_ hwellA hwellB).2
          (not_detected_of_perm fun s => by rw [hsame s])
        · rw [hwA, hvA]
          exact bySymbolSource_dataSourceInfluxDB hwellA _ _
        · rw [hwB, hvB]
          exact bySymbolSource_dataSourceInfluxDB hwellB _ _
      rw [verifyEquality, hnumberA, hnumberB]
      simp only [if_neg (show ¬ ((rowsA.length : ℤ) = 0 ∧ (rowsB.length : ℤ) = 0) by omega)]
      rw [decide_eq_true hnone]
      split_ifs
      · exact hverdict _ rfl rfl
      · exact hverdict _ rfl rfl

end Verdict

/-! ### Two load tests -/

/-- One thread and one order manager; both orders wait for the router. -/
lemma loadTest_oneThread : LoadTest Unit twoNodes sellerAndBuyer
    [⟨1, 2, .tradingBuy, 3, 100, 10, 10, 7, 6⟩] := by
  have hrun : runsTo 1 [[true]]
      ([.placeOrder 0 5, .getNextRequestStub 0, .match 0, .reply 0 ⟨true, .success⟩,
        .placeOrder 0 6, .getNextRequestStub 0, .match 0, .reply 0 ⟨true, .success⟩, .merge 0,
        .cluster (.handle (.router true) 0), .cluster (.handle (.router true) 0),
        .cluster (.arrive (.router true) (.matchActor false 0)),
        .cluster (.arrive (.router true) (.matchActor false 0)),
        .cluster (.handle (.matchActor false 0) 0), .cluster (.handle (.matchActor false 0) 0)] ++
          readBack) [⟨1, 7, 10, .sell, 5, 100, 5⟩, ⟨2, 7, 10, .buy, 3, 100, 6⟩]
      [⟨1, 2, .tradingBuy, 3, 100, 10, 10, 7, 6⟩] := by decide
  exact ⟨_, loadTest_of_runsTo hrun⟩

/-- One trade is written and posted. -/
lemma recorded_one (databaseTableName : String) (r : Received) :
    Recorded databaseTableName [r.trade] [tradeEntry r] := by
  set e := r.entity databaseTableName
  have hrun : (database false).Reaches [.write e ⟨0, ""⟩, .flush ⟨0, ""⟩]
      ((((database false).init).write e ⟨0, ""⟩).1.flushBuffer ⟨0, ""⟩).1 :=
    (Machine.Run.start.step trivial rfl).step trivial rfl
  have hattempted : attempted false [.write e ⟨0, ""⟩, .flush ⟨0, ""⟩] = [([e], true)] := rfl
  have hrows : [tradeEntry r] =
      dataEntries (posted false [.write e ⟨0, ""⟩, .flush ⟨0, ""⟩]).flatten :=
    (dataEntries_trades databaseTableName (List.pairwise_singleton _ r)).symm
  rw [hrows]
  refine @Recorded.rows databaseTableName [r.trade] [r] false _ _ rfl
    (List.pairwise_singleton _ _) hrun rfl ?_ rfl
  intro batch hbatch
  rw [hattempted] at hbatch
  rw [List.mem_singleton.1 hbatch]

/-- The orders of the first load test have the same id, and those of the second one have not. -/
theorem verified_of_loadTests_twoNodes :
    let a : Received := ⟨⟨1, 1, .tradingBuy, 3, 100, 10, 10, 7, 2⟩, "5a30", 1594020376000000000⟩
    let b : Received := ⟨⟨1, 2, .tradingBuy, 3, 100, 10, 10, 7, 6⟩, "9c1e", 1594020377000000000⟩
    let v : DataVerifier :=
      { dataSourceA := dataSourceInfluxDB "trade_a" [tradeEntry a] fun _ => ""
        dataSourceB := dataSourceInfluxDB "trade_b" [tradeEntry b] fun _ => "" }
    SameTrades [tradeEntry a] [tradeEntry b] ∧ v.verifyEquality = .ok true := by
  intro a b v
  exact verified_of_loadTests ⟨_, loadTest_twoThreads⟩ loadTest_oneThread (recorded_one "trade_a" a)
    (recorded_one "trade_b" b) (v := v) rfl rfl rfl rfl

end TradingEngine.System.Deployment
