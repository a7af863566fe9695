/-
Orders go through the database unchanged.

The writer names the fields, and the reader takes the columns by position; the columns are in
alphabetical order.  The batches of the writer hold every entity once and in order, so that
there is a row for every order.
-/
import TradingEngine.Database.Buffer
import TradingEngine.Database.Select
import TradingEngine.OrderGenerator.CreateOrders
import TradingEngine.RequestGenerator.Generator

namespace TradingEngine.RequestGenerator

open DatabaseInterface OrderGenerator Lib

/-! ### The rows -/

/-- The request for an order. -/
def requestOf (order : OrderGenerator.Order) : OrderManagerProto.Order where
  symbol := order.symbol
  userId := order.userId
  tradingSide := .ofNumber order.tradingSide
  amount := order.amount
  price := order.price

/-- The columns of the orders behind the time. -/
def orderColumns : List String := ["amount", "price", "symbol", "trading_side", "user_id"]

lemma insertColumns_payload (i : ℕ) (order : OrderGenerator.Order) :
    insertColumns [] (payload i order) = orderColumns := by
  simp only [insertColumns, payload, List.foldl_cons, List.foldl_nil]
  decide +kernel

lemma insertColumns_payload_again (i : ℕ) (order : OrderGenerator.Order) :
    insertColumns orderColumns (payload i order) = orderColumns := by
  simp only [insertColumns, payload, List.foldl_cons, List.foldl_nil]
  decide +kernel

lemma columnsOf_payloads {orders : List OrderGenerator.Order} (h : orders ≠ []) :
    columnsOf (payloads orders) = orderColumns := by
  refine columnsOf_eq (by simpa [payloads] using h) ?_ ?_
  all_goals
    intro e he
    obtain ⟨i, hi, rfl⟩ := List.mem_mapIdx.1 he
  · exact insertColumns_payload i _
  · exact insertColumns_payload_again i _

/-- The timestamps of the entities are the rounds. -/
lemma pairwise_payloads (orders : List OrderGenerator.Order) :
    (payloads orders).Pairwise fun e e' => e.timestamp < e'.timestamp := by
  rw [List.pairwise_iff_getElem]
  intro i j hi hj hij
  simp only [payloads, List.getElem_mapIdx, payload]
  omega

/-- The row of an order is read back. -/
lemma readOrder_row (i : ℕ) (order : OrderGenerator.Order) :
    readOrder (Row.json orderColumns ⟨i, (payload i order).field.reverse⟩) =
      .ok (requestOf order) := by
  have hcells : orderColumns.map (Row.cell ⟨i, (payload i order).field.reverse⟩) =
      [.string (toString (order.amount : ℤ)), .string (toString (order.price : ℤ)),
        .string (toString (order.symbol : ℤ)), .string (toString (order.tradingSide : ℤ)),
        .string (toString (order.userId : ℤ))] := rfl
  rw [Row.json, hcells, readOrder, readNumber_eq rfl (stoi_toString order.amount),
    readNumber_eq rfl (stoi_toString order.price), readNumber_eq rfl (stoi_toString order.symbol),
    readNumber_eq rfl (stoi_toString order.tradingSide),
    readNumber_eq rfl (stoi_toString order.userId)]
  rfl

/-! ### The batches -/

/-- The entities that a call of the writer is about. -/
def written : Event → List Entity
  | .write dataEntity _ => [dataEntity]
  | _ => []

/-- A writer without a thread takes every entity. -/
lemma reaches_writes {es : List Event} (h : ∀ e ∈ es, ∃ dataEntity reply,
    e = .write dataEntity reply) : ∃ db, (database false).Reaches es db ∧
      db.life = .alive ∧ db.thread = .absent := by
  induction es using List.reverseRecOn with
  | nil => exact ⟨_, .start, rfl, rfl⟩
  | append_singleton es e ih =>
    obtain ⟨db, hrun, hlife, hthread⟩ := ih fun e' he' => h e' (List.mem_append_left _ he')
    obtain ⟨dataEntity, reply, rfl⟩ := h e (by simp)
    have hstep : (database false).step db (.write dataEntity reply) =
        some (db.write dataEntity reply).1 := if_pos hlife
    refine ⟨_, hrun.step trivial hstep, ?_, ?_⟩
    · rwa [InfluxDB.write_life]
    · rwa [InfluxDB.write_thread]

/-- The program runs to its end, and nothing is left in the buffer. -/
lemma reaches_createOrders (reply : ℕ → Reply) (orders : List OrderGenerator.Order) :
    ∃ db, (database false).Reaches (createOrders reply orders) db ∧ db.buffer = [] := by
  have hwrites : ∀ e ∈ (payloads orders).mapIdx fun i e => Event.write e (reply i),
      ∃ dataEntity reply, e = .write dataEntity reply := by
    intro e he
    obtain ⟨i, hi, rfl⟩ := List.mem_mapIdx.1 he
    exact ⟨_, _, rfl⟩
  obtain ⟨db, hrun, hlife, hthread⟩ := reaches_writes hwrites
  have hstep : (database false).step db (.flush (reply orders.length)) =
      some (db.flushBuffer (reply orders.length)).1 := if_pos ⟨hlife, hthread⟩
  exact ⟨_, hrun.step trivial hstep, rfl⟩

lemma flatMap_mapIdx_written (reply : ℕ → Reply) (es : List Entity) :
    (es.mapIdx fun i e => Event.write e (reply i)).flatMap written = es := by
  induction es using List.reverseRecOn with
  | nil => rfl
  | append_singleton es e ih =>
    rw [List.mapIdx_append, List.flatMap_append, ih]
    rfl

/-- **The batches are the entities of the orders**, each once and in order. -/
theorem posted_createOrders {reply : ℕ → Reply} {orders : List OrderGenerator.Order}
    (hposts : ∀ batch ∈ attempted false (createOrders reply orders), batch.2 = true) :
    (posted false (createOrders reply orders)).flatten = payloads orders := by
  obtain ⟨db, hrun, hbuffer⟩ := reaches_createOrders reply orders
  have haccepted : accepted false (createOrders reply orders) =
      (createOrders reply orders).flatMap written := hrun.trace_events written
  have hentities := accepted_of_posted hrun hposts
  rw [hbuffer, List.append_nil, haccepted, createOrders, List.flatMap_append,
    flatMap_mapIdx_written] at hentities
  rw [createOrders, ← hentities]
  exact List.append_nil _

/-! ### The answer -/

/-- The server answers the query of the reader with the rows of what it has stored. -/
structure Answers (parse : String → Except Exception Json) (query : String → Reply)
    (stored : List Entity) : Prop where
  ret : (query getOrdersQuery).ret = 0
  resp : (query getOrdersQuery).resp ≠ ""
  json : parse (query getOrdersQuery).resp = .ok (selectAll "orders" stored)

lemma forall₂_readOrder (orders : List OrderGenerator.Order) :
    List.Forall₂ (fun item order => readOrder item = .ok order)
      ((rowsByTime (payloads orders)).map (Row.json (columnsOf (payloads orders))))
      (orders.map requestOf) := by
  rcases eq_or_ne orders [] with rfl | hne
  · exact .nil
  rw [rowsByTime_of_pairwise (pairwise_payloads orders), columnsOf_payloads hne,
    List.forall₂_iff_get]
  refine ⟨by simp [payloads], ?_⟩
  intro i hi hi'
  simp only [payloads, List.get_eq_getElem, List.getElem_map, List.getElem_mapIdx]
  exact readOrder_row i _

/-- An answer with the entities of the orders has the orders. -/
lemma Answers.hasOrders {parse : String → Except Exception Json} {query : String → Reply}
    {orders : List OrderGenerator.Order} (h : Answers parse query (payloads orders)) :
    HasOrders parse (getOrders query) (orders.map requestOf) := by
  rw [getOrders, if_pos h.ret]
  exact ⟨h.resp, _, _, h.json, rows_selectAll "orders" _, forall₂_readOrder orders⟩

/-- **The round trip of the orders.**  The program that creates the orders runs to its end;
when all its posts succeed, what the generator reads back from the server are the same orders,
each once and in order. -/
theorem prepareOrders_createOrders (parse : String → Except Exception Json)
    (query : String → Reply) (reply : ℕ → Reply) (orders : List OrderGenerator.Order)
    (hposts : ∀ batch ∈ attempted false (createOrders reply orders), batch.2 = true)
    (hquery : Answers parse query (posted false (createOrders reply orders)).flatten) :
    (∃ db, (database false).Reaches (createOrders reply orders) db ∧ db.buffer = []) ∧
      prepareOrders parse (-1) (getOrders query) [] = .ok (true, orders.map requestOf) := by
  refine ⟨reaches_createOrders reply orders, ?_⟩
  rw [posted_createOrders hposts] at hquery
  rw [prepareOrders_of_hasOrders hquery.hasOrders, if_neg (by omega)]
  rfl

/-- A buy and a sell order. -/
def twoOrders : List OrderGenerator.Order :=
  [⟨.ofInt 7, .ofInt 3, .ofInt (-5), .ofInt 10, .ofInt 1⟩,
    ⟨.ofInt 8, .ofInt 3, .ofInt 5, .ofInt 20, .ofInt 2⟩]

/-- An answer with two rows. -/
def twoOrdersText : String :=
  "\x7b\"results\":[\x7b\"statement_id\":0,\"series\":[\x7b\"name\":\"orders\",\"columns\":" ++
    "[\"time\",\"amount\",\"price\",\"symbol\",\"trading_side\",\"user_id\"],\"values\":" ++
    "[[0,\"10\",\"-5\",\"3\",\"1\",\"7\"],[1,\"20\",\"5\",\"3\",\"2\",\"8\"]]\x7d]\x7d]\x7d\n"

/-- Its JSON value. -/
def twoOrdersJson : Json :=
  .object [("results", .array [.object [("statement_id", .number 0), ("series", .array [.object
    [("name", .string "orders"),
      ("columns", .array [.string "time", .string "amount", .string "price", .string "symbol",
        .string "trading_side", .string "user_id"]),
      ("values", .array [
        .array [.number 0, .string "10", .string "-5", .string "3", .string "1", .string "7"],
        .array [.number 1, .string "20", .string "5", .string "3", .string "2",
          .string "8"]])]])]])]

theorem prepareOrders_createOrders_twoOrders :
    (∃ db, (database false).Reaches (createOrders (fun _ => ⟨0, ""⟩) twoOrders) db ∧
      db.buffer = []) ∧
    prepareOrders (fun text => if text = twoOrdersText then .ok twoOrdersJson
        else .error .parseError) (-1)
      (getOrders fun _ => ⟨0, twoOrdersText⟩) [] = .ok (true, twoOrders.map requestOf) := by
  have hposts : ∀ batch ∈ attempted false (createOrders (fun _ => ⟨0, ""⟩) twoOrders),
      batch.2 = true := by decide
  refine prepareOrders_createOrders _ _ (fun _ => ⟨0, ""⟩) twoOrders hposts ⟨rfl, ?_, ?_⟩
  · unfold twoOrdersText
    decide +kernel
  · rw [posted_createOrders hposts, if_pos rfl, selectAll, if_neg (by decide),
      columnsOf_payloads (by decide), rowsByTime_of_pairwise (pairwise_payloads _)]
    rfl

end TradingEngine.RequestGenerator
