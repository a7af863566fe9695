/-
The requests of the client of the database server, and what the server reads from them
(`influxdb.hpp`).

`url_encode` passes more characters through `%` than it has to; what it writes stands for its
argument all the same (`decode_urlEncode`).
-/
import Mathlib.Data.List.TakeWhile
import TradingEngine.Lib.HttpServer
import TradingEngine.Common.HttpRequest

namespace TradingEngine.InfluxdbCpp

open Lib

/-! ### `url_encode` -/

/-- The characters that `url_encode` leaves as they are; `q` stands in the place of `z`. -/
def unreserved : List Char :=
  "abcdefghijklmnopqrstuvwxyqABCDEFGHIJKLMNOPQRSTUVWXYZ0123456789-_.~".toList

/-- `to_hex`, of a number below 16. -/
def toHex (x : ℕ) : Char := Char.ofNat (if x > 9 then x + 55 else x + 48)

/-- What is written for another character, as an `unsigned char`. -/
def escapeChar (c : Char) : List Char :=
  if c = ' ' then ['+'] else ['%', toHex (c.toNat % 256 / 16), toHex (c.toNat % 256 % 16)]

/-- The loop of `url_encode`, from `start` on; `find_first_not_of` finds what `dropWhile` leaves. -/
def urlEncodeFrom (out src : List Char) : List Char :=
  match hfound : src.dropWhile (· ∈ unreserved) with
  -- `npos`: the loop ends
  | [] => out ++ src
  | c :: rest =>
    have : rest.length < src.length := by
      have hle := (src.dropWhile_suffix (· ∈ unreserved)).length_le
      rw [hfound] at hle
      exact hle
    urlEncodeFrom (out ++ src.takeWhile (· ∈ unreserved) ++ escapeChar c) rest
termination_by src.length

/-- `url_encode`, which appends the encoded text to `out`. -/
def urlEncode (out src : String) : String := String.ofList (urlEncodeFrom out.toList src.toList)

/-- The values of a `char`. -/
def IsByte (c : Char) : Prop := c.toNat < 256

/-- What `url_encode` writes for one character. -/
def encodeChar (c : Char) : List Char := if c ∈ unreserved then [c] else escapeChar c

lemma flatMap_encodeChar_of_mem {cs : List Char} (h : ∀ c ∈ cs, c ∈ unreserved) :
    cs.flatMap encodeChar = cs := by
  induction cs with
  | nil => rfl
  | cons c cs ih =>
    rw [List.flatMap_cons, encodeChar, if_pos (h c List.mem_cons_self),
      ih fun d hd => h d (List.mem_cons_of_mem c hd)]
    rfl

/-- Every character is written for itself. -/
lemma urlEncodeFrom_eq (out src : List Char) :
    urlEncodeFrom out src = out ++ src.flatMap encodeChar := by
  fun_induction urlEncodeFrom out src with
  | case1 out src hfound =>
    have hall : ∀ c ∈ src, c ∈ unreserved := by
      simpa [List.dropWhile_eq_nil_iff] using hfound
    rw [flatMap_encodeChar_of_mem hall]
  | case2 out src c rest hfound hlt ih =>
    have hfront : ∀ d ∈ src.takeWhile (· ∈ unreserved), d ∈ unreserved := by
      intro d hd
      simpa using List.mem_takeWhile_imp hd
    have hc : c ∉ unreserved := by
      have hhead := List.head?_dropWhile_not (· ∈ unreserved) src
      rw [hfound] at hhead
      simpa using hhead
    have hsrc : src = src.takeWhile (· ∈ unreserved) ++ c :: rest := by
      rw [← hfound, List.takeWhile_append_dropWhile]
    rw [ih]
    conv_rhs => rw [hsrc, List.flatMap_append, flatMap_encodeChar_of_mem hfront, List.flatMap_cons,
      encodeChar, if_neg hc]
    simp

lemma hexDigit_toHex : ∀ x < 16, HttpServer.hexDigit (toHex x) = some x := by decide

lemma toHex_not_mem_endsPart : ∀ x < 16, toHex x ∉ HttpServer.endsPart := by decide

lemma unreserved_free : Reader.Free (['+', '%'] ++ HttpServer.endsPart) unreserved := by decide

/-- **What is written for a character stands for it.** -/
lemma decode_encodeChar {c : Char} (hc : IsByte c) (rest : List Char) :
    HttpServer.decode (encodeChar c ++ rest) = (c :: ·) <$> HttpServer.decode rest := by
  rw [encodeChar, escapeChar]
  split_ifs with hmem hspace
  · have hfree := unreserved_free c hmem
    simp only [List.cons_append, List.mem_cons, not_or] at hfree
    exact HttpServer.decode_cons hfree.1 hfree.2.1 rest
  · rw [hspace]
    rfl
  · have hhigh : c.toNat % 256 / 16 < 16 := by omega
    have hlow : c.toNat % 256 % 16 < 16 := by omega
    have hvalue : 16 * (c.toNat % 256 / 16) + c.toNat % 256 % 16 = c.toNat := by
      have hbyte : c.toNat < 256 := hc
      omega
    show HttpServer.decode ('%' :: _ :: _ :: rest) = _
    rw [HttpServer.decode, hexDigit_toHex _ hhigh, hexDigit_toHex _ hlow]
    simp only [Option.bind_eq_bind, Option.bind_some, hvalue, Char.ofNat_toNat]

/-- **`url_encode` can be undone**, whatever bytes its argument has. -/
theorem decode_flatMap_encodeChar {src : List Char} (h : ∀ c ∈ src, IsByte c) :
    HttpServer.decode (src.flatMap encodeChar) = some src := by
  induction src with
  | nil => rfl
  | cons c src ih =>
    rw [List.flatMap_cons, decode_encodeChar (h c List.mem_cons_self),
      ih fun d hd => h d (List.mem_cons_of_mem c hd)]
    rfl

/-- What is written ends no part of a form. -/
lemma free_encodeChar (c : Char) : Reader.Free HttpServer.endsPart (encodeChar c) := by
  intro d hd
  rw [encodeChar, escapeChar] at hd
  split_ifs at hd with hmem hspace
  · rw [List.mem_singleton.1 hd]
    exact fun h => unreserved_free c hmem (List.mem_append_right _ h)
  · rw [List.mem_singleton.1 hd]
    decide
  · simp only [List.mem_cons, List.not_mem_nil, or_false] at hd
    rcases hd with rfl | rfl | rfl
    · decide
    · exact toHex_not_mem_endsPart (c.toNat % 256 / 16) (by omega)
    · exact toHex_not_mem_endsPart (c.toNat % 256 % 16) (by omega)

lemma free_flatMap_encodeChar (src : List Char) :
    Reader.Free HttpServer.endsPart (src.flatMap encodeChar) := by
  intro d hd
  obtain ⟨c, -, hd⟩ := List.mem_flatMap.1 hd
  exact free_encodeChar c d hd

lemma urlEncode_toList (out src : String) :
    (urlEncode out src).toList = out.toList ++ src.toList.flatMap encodeChar := by
  rw [urlEncode, String.toList_ofList, urlEncodeFrom_eq]

/-! ### Requests -/

/-- `query` -/
def query (n : ℕ) (net : Network) (resp : List Char) (query : String) (si : ServerInfo) :
    Option (ℤ × List Char) :=
  httpRequest n net "GET" "query" (urlEncode "&q=" query) "" si resp

/-- `create_db` -/
def createDb (n : ℕ) (net : Network) (resp : List Char) (dbName : String) (si : ServerInfo) :
    Option (ℤ × List Char) :=
  httpRequest n net "POST" "query" (urlEncode "&q=create+database+" dbName) "" si resp

/-- `_post_http`, with the text in the stream. -/
def postHttp (n : ℕ) (net : Network) (resp : List Char) (lines : String) (si : ServerInfo) :
    Option (ℤ × List Char) :=
  httpRequest n net "POST" "write" "" lines si resp

/-- What `http_request` writes to the connection. -/
def sent (method uri querystring body : String) (si : ServerInfo) : List Char :=
  (requestHead method uri querystring si body.length).toList ++ body.toList

/-- What is put into the request as it is must not have characters with a meaning there. -/
structure ServerInfo.Plain (si : ServerInfo) : Prop where
  db : Reader.Free HttpServer.special si.db.toList
  usr : Reader.Free HttpServer.special si.usr.toList
  pwd : Reader.Free HttpServer.special si.pwd.toList
  precision : Reader.Free HttpServer.special si.precision.toList
  host : Reader.Free ['\r'] si.host.toList

/-- The form that every request has. -/
def ServerInfo.form (si : ServerInfo) : List (List Char × List Char) :=
  [("db".toList, si.db.toList), ("u".toList, si.usr.toList), ("p".toList, si.pwd.toList),
    ("epoch".toList, si.precision.toList)]

/-- The header lines that every request has. -/
def ServerInfo.headers (si : ServerInfo) (bodyLength : ℕ) : List (List Char × List Char) :=
  [("Host".toList, si.host.toList), ("Content-Length".toList, Nat.toDigits 10 bodyLength)]

section Requests

open HttpServer

variable {si : ServerInfo}

/-- The request as a text of a form; `extra` follows the form that every request has. -/
def requestText (method uri body : String) (si : ServerInfo)
    (extra : List (List Char × List Char)) : RequestText where
  method := method.toList
  path := uri.toList
  first := ("db".toList, si.db.toList)
  others := si.form.tail ++ extra
  headers := si.headers body.length
  body := body.toList

lemma toString_toList (n : ℕ) : (toString n).toList = Nat.toDigits 10 n := Nat.toList_repr

lemma sent_eq (method uri body : String) (si : ServerInfo) {querystring : String}
    {extra : List (List Char × List Char)}
    (h : querystring.toList = extra.flatMap fun p => '&' :: writePair p) :
    sent method uri querystring body si = (requestText method uri body si extra).write := by
  have hdb : "?db=".toList = '?' :: "db".toList ++ ['='] := rfl
  have hu : "&u=".toList = '&' :: "u".toList ++ ['='] := rfl
  have hp : "&p=".toList = '&' :: "p".toList ++ ['='] := rfl
  have hepoch : "&epoch=".toList = '&' :: "epoch".toList ++ ['='] := rfl
  have hslash : " /".toList = [' ', '/'] := rfl
  have hhost : " HTTP/1.1\r\nHost: ".toList =
      " HTTP/1.1".toList ++ ['\r', '\n'] ++ "Host".toList ++ [':', ' '] := rfl
  have hlength : "\r\nContent-Length: ".toList =
      ['\r', '\n'] ++ "Content-Length".toList ++ [':', ' '] := rfl
  have hend : "\r\n\r\n".toList = ['\r', '\n', '\r', '\n'] := rfl
  simp only [sent, requestHead, String.toList_append, h, toString_toList, hdb, hu, hp, hepoch,
    hslash, hhost, hlength, hend, requestText, RequestText.write, RequestText.writeLine, writeForm,
    writePair, writeHeader, ServerInfo.form, ServerInfo.headers, List.tail_cons,
    List.flatMap_cons, List.flatMap_nil, List.append_assoc, List.cons_append, List.nil_append,
    List.append_nil]

lemma free_endsPart {text : List Char} (h : Reader.Free special text) :
    Reader.Free endsPart text := by
  intro c hc hmem
  refine h c hc ?_
  simp only [endsPart, List.mem_cons, List.not_mem_nil, or_false] at hmem
  rcases hmem with rfl | rfl | rfl <;> decide

lemma pairOk_form (hsi : si.Plain) : ∀ p ∈ si.form, PairOk p := by
  intro p hp
  simp only [ServerInfo.form, List.mem_cons, List.not_mem_nil, or_false] at hp
  rcases hp with rfl | rfl | rfl | rfl
  · exact ⟨(by decide : Reader.Free endsPart "db".toList), free_endsPart hsi.db⟩
  · exact ⟨(by decide : Reader.Free endsPart "u".toList), free_endsPart hsi.usr⟩
  · exact ⟨(by decide : Reader.Free endsPart "p".toList), free_endsPart hsi.pwd⟩
  · exact ⟨(by decide : Reader.Free endsPart "epoch".toList), free_endsPart hsi.precision⟩

lemma mapM_form (hsi : si.Plain) {extra pairs : List (List Char × List Char)}
    (h : extra.mapM decodePair = some pairs) :
    (si.form ++ extra).mapM decodePair = some (si.form ++ pairs) := by
  have hpair : ∀ name value : List Char, Reader.Free special name → Reader.Free special value →
      decodePair (name, value) = some (name, value) := by
    intro name value hname hvalue
    rw [decodePair, decode_of_free hname, decode_of_free hvalue]
    rfl
  have hdb := hpair "db".toList _ (by decide) hsi.db
  have hu := hpair "u".toList _ (by decide) hsi.usr
  have hp := hpair "p".toList _ (by decide) hsi.pwd
  have hepoch := hpair "epoch".toList _ (by decide) hsi.precision
  simp only [ServerInfo.form, List.cons_append, List.nil_append, List.mapM_cons, hdb, hu, hp,
    hepoch, h]
  rfl

lemma headerOk_headers (hsi : si.Plain) (n : ℕ) : ∀ p ∈ si.headers n, HeaderOk p := by
  intro p hp
  rcases List.mem_pair.1 hp with rfl | rfl
  · exact ⟨(by decide : Reader.Free [':'] "Host".toList),
      (by decide : "Host".toList.head? ≠ some '\r'), hsi.host⟩
  · refine ⟨(by decide : Reader.Free [':'] "Content-Length".toList),
      (by decide : "Content-Length".toList.head? ≠ some '\r'), ?_⟩
    intro c hc hreturn
    have hdigit : c.isDigit = true := Decimal.isDigit_of_mem hc
    rw [List.mem_singleton.1 hreturn] at hdigit
    cases hdigit

lemma contentLength_headers (si : ServerInfo) (n : ℕ) :
    HttpServer.contentLength (si.headers n) = some n :=
  wholeNumber_toDigits n

/-- **What the server reads**: the database and the user, what is asked for, and the body. -/
lemma read_sent (hsi : si.Plain) (method uri querystring body : String)
    (hmethod : Reader.Free [' '] method.toList) (huri : Reader.Free ['?'] uri.toList)
    {extra pairs : List (List Char × List Char)} (hextra : ∀ p ∈ extra, PairOk p)
    (hpairs : extra.mapM decodePair = some pairs)
    (hquery : querystring.toList = extra.flatMap fun p => '&' :: writePair p) (rest : List Char) :
    HttpServer.request.run (sent method uri querystring body si ++ rest) =
      some (⟨method.toList, uri.toList, si.form ++ pairs, si.headers body.length, body.toList⟩,
        rest) := by
  rw [sent_eq method uri body si hquery]
  have hok : (requestText method uri body si extra).Ok (si.form ++ pairs) := by
    refine ⟨hmethod, huri, ?_, mapM_form hsi hpairs, headerOk_headers hsi _, ?_⟩
    · intro p hp
      have hp' : p ∈ si.form ++ extra := hp
      rcases List.mem_append.1 hp' with hform | hmem
      · exact pairOk_form hsi p hform
      · exact hextra p hmem
    · have hlength := contentLength_headers si body.length
      rwa [← String.length_toList] at hlength
  exact RequestText.reads_request hok rest fun _ _ => rfl

/-- The part of the form that `url_encode` has written. -/
lemma decodePair_encoded {name value text : List Char} (hname : Reader.Free special name)
    (hvalue : decode value = some text) : [(name, value)].mapM decodePair =
      some [(name, text)] := by
  rw [List.mapM_cons, List.mapM_nil, decodePair, decode_of_free hname, hvalue]
  rfl

/-- A query, of which `front` needs no escape. -/
lemma read_queryRequest (hsi : si.Plain) {method : String}
    (hmethod : Reader.Free [' '] method.toList)
    {front : List Char} (hfront : Reader.Free ('%' :: endsPart) front) {text : String}
    (htext : ∀ c ∈ text.toList, IsByte c) {querystring : String}
    (hquery : querystring.toList = "&q=".toList ++ front ++ text.toList.flatMap encodeChar)
    (rest : List Char) :
    HttpServer.request.run (sent method "query" querystring "" si ++ rest) =
      some (⟨method.toList, "query".toList,
        si.form ++ [("q".toList, front.map plain ++ text.toList)], si.headers 0, []⟩, rest) := by
  have hpair : PairOk ("q".toList, front ++ text.toList.flatMap encodeChar) :=
    ⟨(by decide : Reader.Free endsPart "q".toList), Reader.Free.append
      (fun c hc hmem => hfront c hc (List.mem_cons_of_mem _ hmem)) (free_flatMap_encodeChar _)⟩
  have hdecode : decode (front ++ text.toList.flatMap encodeChar) =
      some (front.map plain ++ text.toList) := by
    rw [decode_append fun c hc hmem => hfront c hc (by rw [List.mem_singleton.1 hmem]; simp),
      decode_flatMap_encodeChar htext]
    rfl
  refine read_sent hsi method "query" querystring "" hmethod (by decide) ?_
    (decodePair_encoded (by decide) hdecode) ?_ rest
  · intro p hp
    rw [List.mem_singleton.1 hp]
    exact hpair
  · have hq : "&q=".toList = '&' :: "q".toList ++ ['='] := rfl
    rw [hquery, hq]
    simp [writePair]

/-- **A query arrives as it is**, whatever characters it has. -/
theorem read_query (hsi : si.Plain) {text : String} (htext : ∀ c ∈ text.toList, IsByte c)
    (rest : List Char) :
    HttpServer.request.run (sent "GET" "query" (urlEncode "&q=" text) "" si ++ rest) =
      some (⟨"GET".toList, "query".toList, si.form ++ [("q".toList, text.toList)],
        si.headers 0, []⟩, rest) := by
  refine read_queryRequest hsi (by decide : Reader.Free [' '] "GET".toList)
    (by decide : Reader.Free ('%' :: endsPart) []) htext ?_ rest
  rw [urlEncode_toList, List.append_nil]

/-- A separator of the form, a blank, and a letter that is written as `%7A`. -/
theorem read_query_separators :
    let si : ServerInfo := { host := "127.0.0.1", port := 8086, db := "trade" }
    HttpServer.request.run (sent "GET" "query" (urlEncode "&q=" "a&b=c z") "" si ++ ['G']) =
      some (⟨"GET".toList, "query".toList, si.form ++ [("q".toList, "a&b=c z".toList)],
        si.headers 0, []⟩, ['G']) := by
  intro si
  refine read_query ⟨by decide, by decide, by decide, by decide, by decide⟩ ?_ _
  have hbytes : "a&b=c z".toList.all (fun c => decide (c.toNat < 256)) = true := by decide
  intro c hc
  show c.toNat < 256
  exact of_decide_eq_true (List.all_eq_true.1 hbytes c hc)

/-- **The name of a new database arrives as it is**, behind the words of the command. -/
theorem read_createDb (hsi : si.Plain) {dbName : String} (hname : ∀ c ∈ dbName.toList, IsByte c)
    (rest : List Char) :
    HttpServer.request.run (sent "POST" "query" (urlEncode "&q=create+database+" dbName) "" si ++
      rest) = some (⟨"POST".toList, "query".toList,
        si.form ++ [("q".toList, "create database ".toList ++ dbName.toList)], si.headers 0, []⟩,
        rest) := by
  refine read_queryRequest hsi (by decide : Reader.Free [' '] "POST".toList)
    (by decide : Reader.Free ('%' :: endsPart) "create+database+".toList) hname ?_ rest
  rw [urlEncode_toList]
  rfl

/-- **Lines arrive as they are.** -/
lemma read_post (hsi : si.Plain) (lines : String) (rest : List Char) :
    HttpServer.request.run (sent "POST" "write" "" lines si ++ rest) =
      some (⟨"POST".toList, "write".toList, si.form, si.headers lines.length, lines.toList⟩,
        rest) := by
  have hread := read_sent hsi "POST" "write" "" lines (by decide) (by decide)
    (fun p (hp : p ∈ []) => absurd hp List.not_mem_nil) List.mapM_nil rfl rest
  rwa [List.append_nil] at hread

end Requests

end TradingEngine.InfluxdbCpp
