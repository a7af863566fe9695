/-
Orders from their initial prices to the queue of the load generator.

The orders have the prices in the file, and go through the database; the answer of the server is
read from the bytes of the connection.
-/
import TradingEngine.Common.HttpExchange
import TradingEngine.Common.UrlEncode
import TradingEngine.OrderGenerator.InitialPrices
import TradingEngine.RequestGenerator.RoundTrip

namespace TradingEngine.RequestGenerator

open DatabaseInterface OrderGenerator Lib InfluxdbCpp
open Lib.JsonText (White)

/-! ### The answer -/

/-- What `query` returns for the query of the orders. -/
def IsDownload (net : Network) (si : ServerInfo) (reply : Reply) : Prop :=
  ∃ n, InfluxdbCpp.query n net [] getOrdersQuery si = some (reply.ret, reply.resp.toList)

/-- A text of JSON with these rows, whatever else it has. -/
def HasRows (text : String) (rows : List Json) : Prop :=
  ∃ j : Json, Json.Means text j ∧ j.rows = .ok rows

/-- The rows of these entities, as the server answers with them. -/
def answerRows (stored : List Entity) : List Json :=
  (rowsByTime stored).map (Row.json (columnsOf stored))

/-- Rows with the entities of the orders have the orders. -/
lemma HasRows.hasOrders {text : String} {orders : List OrderGenerator.Order}
    (h : HasRows text (answerRows (payloads orders))) :
    HasOrders Json.parse text (orders.map requestOf) := by
  obtain ⟨j, hmeans, hrows⟩ := h
  refine ⟨?_, j, _, hmeans.parse_eq, hrows, forall₂_readOrder orders⟩
  rintro rfl
  obtain ⟨before, t, after, htext, -, -, hvalue⟩ := hmeans
  obtain ⟨c, cs, rfl, -⟩ := hvalue.exists_cons
  simp at htext

lemma isDownload_iff {net : Network} {si : ServerInfo}
    (h : Connected net "GET" "query" (urlEncode "&q=" getOrdersQuery) "" si) (a : Answer)
    {more : List Char} (hbytes : net.answer.bytes = a.write ++ more) (reply : Reply) :
    IsDownload net si reply ↔ reply = ⟨a.code, String.ofList a.body.text⟩ := by
  have hread := returns_read [] h a hbytes
  constructor
  · intro hreply
    have hreturns : Returns net "GET" "query" (urlEncode "&q=" getOrdersQuery) "" si []
      (reply.ret, reply.resp.toList) := hreply
    -- `query` returns one result only
    have heq := hreturns.unique hread
    rw [Prod.mk.injEq] at heq
    obtain ⟨ret, resp⟩ := reply
    obtain ⟨rfl, hresp⟩ := heq
    rw [← hresp, String.ofList_toList]
  · rintro rfl
    show Returns _ _ _ _ _ _ _ (a.code, (String.ofList a.body.text).toList)
    rwa [String.toList_ofList]

/-! ### From the file to the queue -/

/-- **The created orders reach the queue of the generator.**  Whatever prices and orders are drawn
and however the answer arrives, the reader gets just one result from the connection, and what is
put into the queue are the orders, each once and in order; all of them have a symbol of the range,
the price that was drawn for it, and the side of a buyer or a seller. -/
theorem prepareOrders_created {dumpFloat : ℚ → List Char} {symbolIdMin symbolIdMax : I32}
    {draw : I32 → I32} {orders : List OrderGenerator.Order}
    (horders : Created dumpFloat symbolIdMin symbolIdMax draw orders)
    (reply : ℕ → Reply)
    (hposts : ∀ batch ∈ attempted false (createOrders reply orders), batch.2 = true)
    {net : Network} {si : ServerInfo}
    (h : Connected net "GET" "query" (urlEncode "&q=" getOrdersQuery) "" si) (a : Answer)
    {more : List Char} (hbytes : net.answer.bytes = a.write ++ more) (hcode : a.code = 0)
    (hbody : HasRows (String.ofList a.body.text)
      (answerRows (posted false (createOrders reply orders)).flatten)) :
    (∃ download, (∀ download', IsDownload net si download' ↔ download' = download) ∧
      prepareOrders Json.parse (-1) (getOrders fun _ => download) [] =
        .ok (true, orders.map requestOf)) ∧
    ∀ request ∈ orders.map requestOf,
      (symbolIdMin : ℤ) ≤ request.symbol ∧ (request.symbol : ℤ) ≤ symbolIdMax ∧
        request.price = draw request.symbol ∧
        (request.tradingSide = .tradingBuy ∨ request.tradingSide = .tradingSell) := by
  refine ⟨⟨⟨a.code, String.ofList a.body.text⟩, isDownload_iff h a hbytes, ?_⟩, ?_⟩
  -- the rows of the answer are those of the orders, since all posts were taken
  · rw [posted_createOrders hposts] at hbody
    have hresp : getOrders (fun _ => ⟨a.code, String.ofList a.body.text⟩) =
        String.ofList a.body.text := if_pos hcode
    rw [hresp, prepareOrders_of_hasOrders hbody.hasOrders, if_neg (by omega)]
    rfl
  · intro request hrequest
    obtain ⟨order, horder, rfl⟩ := List.mem_map.1 hrequest
    obtain ⟨hlow, hhigh, hprice, hside⟩ := horders.mem horder
    refine ⟨hlow, hhigh, hprice, hside.imp ?_ ?_⟩
    · intro hbuy
      rw [requestOf, hbuy]
      rfl
    · intro hsell
      rw [requestOf, hsell]
      rfl

/-- A buy order of symbol 3, of which the price is five below zero. -/
def drawnOrder : OrderGenerator.Order := ⟨.ofInt 7, .ofInt 3, .ofInt (-5), .ofInt 10, .ofInt 1⟩

/-- The answer about it. -/
def drawnJson : Json :=
  .answer "orders" ["time", "amount", "price", "symbol", "trading_side", "user_id"]
    [.array (.number 0 :: ["10", "-5", "3", "1", "7"].map .string)]

lemma canonical_drawnJson : drawnJson.Canonical :=
  Json.canonical_answer _ _ (List.forall_mem_singleton.2 (.array (List.forall_mem_cons.2
    ⟨Json.canonical_zero, Json.canonical_strings _⟩)))

lemma created_drawnOrder (dumpFloat : ℚ → List Char) :
    Created dumpFloat (.ofInt 3) (.ofInt 4) (fun _ => .ofInt (-5)) [drawnOrder] := by
  have hdraws : [(⟨.ofInt 7, 0, .ofInt 10, .ofInt 1⟩ : OrderDraw)].mapM
      (newOrder (generateInitialPrice (.ofInt 3) (.ofInt 4) fun _ => .ofInt (-5))) =
        some [drawnOrder] := by decide
  exact created_of_draws dumpFloat (by decide) hdraws

/-- The answer arrives in pieces of at most 40 bytes at first. -/
theorem prepareOrders_created_drawnOrder :
    let si : ServerInfo := { host := "127.0.0.1", port := 8086, db := "orders" }
    let text := drawnJson.dumpChars (fun _ => []) ++ ['\n']
    ∃ hlt : text.length < 2 ^ 31,
    let a : Answer := ⟨⟨['H', 'T', 'T', 'P'], 200, [' ', 'O', 'K'], by decide, by decide, by decide,
      Reader.next_cons.2 rfl⟩, [], .plain text hlt, []⟩
    let net := answering "GET" "query" (urlEncode "&q=" getOrdersQuery) "" si
      ⟨a.write, [40], .closed⟩
    (∃ download, (∀ download', IsDownload net si download' ↔ download' = download) ∧
      prepareOrders Json.parse (-1) (getOrders fun _ => download) [] =
        .ok (true, [requestOf drawnOrder])) := by
  intro si text
  have hlt : text.length < 2 ^ 31 := by decide +kernel
  refine ⟨hlt, ?_⟩
  intro a net
  have hposts : ∀ batch ∈ attempted false (createOrders (fun _ => ⟨0, ""⟩) [drawnOrder]),
      batch.2 = true := by decide
  have hbytes : net.answer.bytes = a.write ++ [] := by
    rw [List.append_nil]
    rfl
  have hcode : a.code = 0 := if_pos (show 200 / 100 = 2 by decide)
  have hwhite : White ['\n'] := by
    intro c hc
    rw [List.mem_singleton.1 hc]
    rfl
  have hrows : HasRows (String.ofList text) (answerRows (payloads [drawnOrder])) := by
    refine ⟨drawnJson, ?_, rfl⟩
    have hmeans := Json.means_dump (fun _ => []) canonical_drawnJson hwhite
    rwa [Json.dump, ← String.ofList_append] at hmeans
  rw [← posted_createOrders hposts] at hrows
  exact (prepareOrders_created (created_drawnOrder fun _ => []) (fun _ => ⟨0, ""⟩) hposts
    (connected_answering _ _ _ _ _ _) a hbytes hcode hrows).1

end TradingEngine.RequestGenerator
