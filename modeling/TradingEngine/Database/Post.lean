/-
What `flush_buffer` sends and what it makes of the answer (`database_interface.cc`).

The text of the builder goes through `http_request` to the server, which reads the request and the
lines in it; the code and the text that come back decide whether the batch counts as written.
-/
import TradingEngine.Database.Payload
import TradingEngine.Common.UrlEncode
import TradingEngine.Common.HttpExchange

namespace TradingEngine.DatabaseInterface

open Lib InfluxdbCpp

/-- What the server reads: the request, and the lines in its body. -/
def readPost (text : List Char) : Option (HttpServer.Request × List LineProtocol.Point) := do
  let (request, rest) ← HttpServer.request.run text
  if rest ≠ [] then none
  else do
    let points ← LineProtocol.read (String.ofList request.body)
    return (request, points)

/-- **What is sent is read as the entities**, for the database that was asked for. -/
theorem readPost_sent {buffer : List Entity} (hbuffer : ∀ e ∈ buffer, EntityOk e) {si : ServerInfo}
    (hsi : si.Plain) : ∃ request,
      readPost (sent "POST" "write" "" (bufferPayload buffer) si) =
        some (request, buffer.map Entity.toPoint) ∧
      request.method = "POST".toList ∧ request.path = "write".toList ∧ request.form = si.form := by
  have hrequest := read_post hsi (bufferPayload buffer) []
  rw [List.append_nil] at hrequest
  have hpoints : LineProtocol.read (bufferPayload buffer) = some (buffer.map Entity.toPoint) := by
    rw [bufferPayload_eq hbuffer]
    exact LineProtocol.read_write (toPoint_ok hbuffer)
  refine ⟨⟨"POST".toList, "write".toList, si.form, si.headers (bufferPayload buffer).length,
    (bufferPayload buffer).toList⟩, ?_, rfl, rfl, rfl⟩
  rw [readPost, hrequest]
  show (do
    let points ← LineProtocol.read (String.ofList (bufferPayload buffer).toList)
    return (_, points)) = _
  rw [String.ofList_toList, hpoints]
  rfl

/-- What `flush_buffer` gets from `post_http`. -/
def IsReply (net : Network) (buffer : List Entity) (si : ServerInfo) (reply : Reply) : Prop :=
  ∃ n, postHttp n net [] (bufferPayload buffer) si = some (reply.ret, reply.resp.toList)

/-- **Whether a batch counts as written**: the server has read it for what it is, and the flush
reports success just if the answer has a code of success and no text. -/
theorem flush_answered {db : InfluxDB} {si : ServerInfo} {net : Network} (hsi : si.Plain)
    (hbuffer : ∀ e ∈ db.buffer, EntityOk e)
    (h : Connected net "POST" "write" "" (bufferPayload db.buffer) si) (a : Answer)
    {more : List Char} (hbytes : net.answer.bytes = a.write ++ more) :
    (∃ request, readPost (sent "POST" "write" "" (bufferPayload db.buffer) si) =
      some (request, db.buffer.map Entity.toPoint) ∧ request.method = "POST".toList ∧
        request.path = "write".toList ∧ request.form = si.form) ∧
    ∃ reply, (∀ reply', IsReply net db.buffer si reply' ↔ reply' = reply) ∧
      ((db.flushBuffer reply).2 = true ↔
        (a.status.code / 100 = 2 ∨ a.status.code = 0) ∧ a.body.text = []) := by
  refine ⟨readPost_sent hbuffer hsi, ⟨a.code, String.ofList a.body.text⟩, ?_, ?_⟩
  · intro reply'
    have hread := returns_read [] h a hbytes
    constructor
    · intro hreply
      have hreturns : Returns net "POST" "write" "" (bufferPayload db.buffer) si []
        (reply'.ret, reply'.resp.toList) := hreply
      have heq := hreturns.unique hread
      rw [Prod.mk.injEq] at heq
      obtain ⟨ret, resp⟩ := reply'
      obtain ⟨rfl, hresp⟩ := heq
      rw [← hresp, String.ofList_toList]
    · rintro rfl
      show Returns _ _ _ _ _ _ _ (a.code, (String.ofList a.body.text).toList)
      rwa [String.toList_ofList]
  · have hcode : a.code = 0 ↔ a.status.code / 100 = 2 ∨ a.status.code = 0 := by
      rw [Answer.code]
      split_ifs with hsuccess
      · simp [hsuccess]
      · simp [hsuccess]
    have hempty : (String.ofList a.body.text).isEmpty = true ↔ a.body.text = [] := by
      rw [String.isEmpty_iff]
      exact ⟨fun hempty => by simpa using congrArg String.toList hempty, fun hnil => by rw [hnil]⟩
    show (decide (a.code = 0) && (String.ofList a.body.text).isEmpty) = true ↔ _
    rw [Bool.and_eq_true, decide_eq_true_iff, hcode, hempty]

/-- An order, and the answer that the server usually gives. -/
theorem flush_answered_noContent :
    let e : Entity := ⟨"order", [⟨"symbol", "3"⟩], [⟨"status", "placed"⟩], 5⟩
    let db : InfluxDB := { buffer := [e], thread := .absent }
    let si : ServerInfo := { host := "127.0.0.1", port := 8086, db := "order_manager" }
    let a : Answer := ⟨⟨['H', 'T', 'T', 'P'], 204, [' ', 'N', 'o'], by decide, by decide, by decide,
      Reader.next_cons.2 rfl⟩, [], .absent, []⟩
    let net := answering "POST" "write" "" (bufferPayload [e]) si ⟨a.write, [3], .closed⟩
    (∃ request, readPost (sent "POST" "write" "" (bufferPayload [e]) si) =
      some (request, [e.toPoint]) ∧ request.method = "POST".toList ∧
        request.path = "write".toList ∧ request.form = si.form) ∧
    ∃ reply, (∀ reply', IsReply net [e] si reply' ↔ reply' = reply) ∧
      (db.flushBuffer reply).2 = true := by
  intro e db si a net
  have hbuffer : ∀ e' ∈ db.buffer, EntityOk e' := by
    intro e' he'
    rw [List.mem_singleton.1 he']
    exact ⟨by decide, by decide, by decide, by decide, by decide⟩
  have hbytes : net.answer.bytes = a.write ++ [] := by rw [List.append_nil]; rfl
  obtain ⟨hread, reply, hreply, hsuccess⟩ :=
    flush_answered ⟨by decide, by decide, by decide, by decide, by decide⟩ hbuffer
      (connected_answering _ _ _ _ _ _) a hbytes
  exact ⟨hread, reply, hreply, hsuccess.2 ⟨.inl (by decide), rfl⟩⟩

/-! ### The database itself -/

/-- **The database is created under its name**: the server reads the command for what it is, and
`create_db` returns the code of the answer. -/
theorem createDb_answered {si : ServerInfo} {net : Network} (hsi : si.Plain) {dbName : String}
    (hname : ∀ c ∈ dbName.toList, IsByte c)
    (h : Connected net "POST" "query" (urlEncode "&q=create+database+" dbName) "" si) (a : Answer)
    {more : List Char} (hbytes : net.answer.bytes = a.write ++ more) :
    (∃ request, HttpServer.request.run
        (sent "POST" "query" (urlEncode "&q=create+database+" dbName) "" si) = some (request, []) ∧
      request.form = si.form ++ [("q".toList, "create database ".toList ++ dbName.toList)]) ∧
    ∀ result, (∃ n, createDb n net [] dbName si = some result) ↔
      result = (a.code, a.body.text) := by
  have hrequest := read_createDb hsi hname []
  rw [List.append_nil] at hrequest
  refine ⟨⟨_, hrequest, rfl⟩, fun result => ⟨fun hresult => ?_, ?_⟩⟩
  · have hreturns : Returns net "POST" "query" (urlEncode "&q=create+database+" dbName) "" si []
      result := hresult
    exact hreturns.unique (returns_read [] h a hbytes)
  · rintro rfl
    exact returns_read [] h a hbytes

end TradingEngine.DatabaseInterface
