/-
The client of the database server (`influxdb.hpp`): `http_request`.

The text of the function from where it reads the answer is written once, over what it reads from;
`Buffer.source` is the buffer that `recv` fills again and again.  What the connection does is a
part of the input.
-/
import TradingEngine.Common.Protobuf
import TradingEngine.Lib.Program

namespace TradingEngine.InfluxdbCpp

open Lib Program

/-! ### Variables -/

/-- The variables of `http_request` while it reads; `source` is what it reads from. -/
structure Frame (σ : Type) where
  ch : Char := '\x00'
  retCode : ℤ := 0
  contentLength : ℤ := 0
  chunked : Bool := false
  resp : List Char := []
  source : σ

/-- The macros that read. -/
structure Source (σ : Type) where
  /-- `_GET_NEXT_CHAR` -/
  getNextChar : Program (Frame σ) Char
  /-- The loop that moves `content_length` characters to `resp`. -/
  copyBody : Program (Frame σ) Unit

namespace Frame

variable {σ : Type}

/-- `ret_code` is changed. -/
def varyRetCode (g : ℤ → ℤ) (f : Frame σ) : Frame σ := { f with retCode := g f.retCode }

/-- `content_length` is changed. -/
def varyContentLength (g : ℤ → ℤ) (f : Frame σ) : Frame σ :=
  { f with contentLength := g f.contentLength }

/-- The value that is returned. -/
def returned (f : Frame σ) : ℤ := if f.retCode.tdiv 100 = 2 then 0 else f.retCode

end Frame

/-! ### The text of the function -/

section Response

variable {σ : Type} (src : Source σ)

/-- An error: `ret_code` is set before `goto END`. -/
def fail {α : Type} (code : ℤ) : Program (Frame σ) α := jump fun f => { f with retCode := code }

/-- `goto END`. -/
def gotoEnd {α : Type} : Program (Frame σ) α := jump id

/-- `_LOOP_NEXT`; the statement says whether the loop goes on. -/
def loopNext (statement : Char → Program (Frame σ) Bool) : Program (Frame σ) Unit :=
  loop do
    let ch ← src.getNextChar
    if ch = '\x00' then fail (-7) else statement ch

/-- `_UNTIL` -/
def readUntil (c : Char) : Program (Frame σ) Unit :=
  loopNext src fun ch => if ch = c then pure false else pure true

/-- The next digit of a number. -/
def digit (vary : (ℤ → ℤ) → Frame σ → Frame σ) (base d : ℤ) : Program (Frame σ) Bool :=
  act fun f => (true, vary (fun n => toInt (n * base + d)) f)

/-- `_GET_NUMBER`; the variable is given by the way to change it. -/
def getNumber (vary : (ℤ → ℤ) → Frame σ → Frame σ) : Program (Frame σ) Unit :=
  loopNext src fun ch =>
    if '0' ≤ ch ∧ ch ≤ '9' then digit vary 10 (ch.toNat - '0'.toNat) else pure false

/-- `_GET_CHUNKED_LEN` -/
def getChunkedLen (vary : (ℤ → ℤ) → Frame σ → Frame σ) (c : Char) : Program (Frame σ) Unit :=
  loopNext src fun ch =>
    if '0' ≤ ch ∧ ch ≤ '9' then digit vary 16 (ch.toNat - '0'.toNat)
    else if 'A' ≤ ch ∧ ch ≤ 'F' then digit vary 16 (ch.toNat - 'A'.toNat + 10)
    else if 'a' ≤ ch ∧ ch ≤ 'f' then digit vary 16 (ch.toNat - 'a'.toNat + 10)
    else if ch ≠ c then fail (-8) else pure false

/-- A row of `_`: `false` where a `break` leaves the `switch`. -/
def readName : List Char → Program (Frame σ) Bool
  | [] => pure true
  | c :: cs => do
    let ch ← src.getNextChar
    if ch ≠ c then pure false else readName cs

/-- A row of `__` -/
def expect : List Char → Program (Frame σ) Unit
  | [] => pure ()
  | c :: cs => do
    let ch ← src.getNextChar
    if ch ≠ c then fail (-9) else expect cs

/-- `case 1`, up to `case 0`. -/
def chunkSize : Program (Frame σ) Unit := do
  getChunkedLen src Frame.varyContentLength '\r'
  expect src ['\n']
  let contentLength ← read Frame.contentLength
  if contentLength = 0 then do
    expect src ['\r', '\n']
    gotoEnd
  else pure ()

/-- The rounds of `do … while (chunked)` after the first one. -/
def nextChunk : Program (Frame σ) Bool := do
  expect src ['\r', '\n']
  chunkSize src
  src.copyBody
  pure true

/-- `switch (chunked)` -/
def readBody : Program (Frame σ) Unit := do
  let chunked ← read Frame.chunked
  if chunked = true then do
    chunkSize src
    src.copyBody
    loop (nextChunk src)
  else src.copyBody

/-- The end of a round: `ch` is what the `switch` has read last. -/
def checkChar : Program (Frame σ) Bool := do
  let ch ← read Frame.ch
  if ch = '\x00' then fail (-10) else pure true

/-- What follows the `C` of the name. -/
def contentLengthName : List Char :=
  ['o', 'n', 't', 'e', 'n', 't', '-', 'L', 'e', 'n', 'g', 't', 'h', ':', ' ']

/-- What follows the `T` of the name. -/
def transferEncodingName : List Char :=
  ['r', 'a', 'n', 's', 'f', 'e', 'r', '-', 'E', 'n', 'c', 'o', 'd', 'i', 'n', 'g', ':', ' ',
    'c', 'h', 'u', 'n', 'k', 'e', 'd']

/-- A `case` of the `switch`: the rest of the name, and what is done with the line. -/
def caseOf (name : List Char) (statement : Program (Frame σ) Unit) : Program (Frame σ) Unit := do
  let found ← readName src name
  if found = true then statement else pure ()

/-- The `switch` over the first character of a line, up to the end of the round. -/
def lineCase (ch : Char) : Program (Frame σ) Bool :=
  if ch = 'C' then do
    caseOf src contentLengthName (getNumber src Frame.varyContentLength)
    checkChar
  else if ch = 'T' then do
    caseOf src transferEncodingName (act fun f => ((), { f with chunked := true }))
    checkChar
  else if ch = '\r' then do
    expect src ['\n']
    readBody src
    gotoEnd
  else checkChar

/-- A round of the loop over the lines. -/
def headerLine : Program (Frame σ) Bool := do
  readUntil src '\n'
  let ch ← src.getNextChar
  lineCase src ch

/-- From `resp->clear()` to `END`. -/
def response : Program (Frame σ) Unit := do
  readUntil src ' '
  getNumber src Frame.varyRetCode
  loop (headerLine src)
  fail (-11)

end Response

/-! ### The buffer -/

/-- What `recv` gives once everything that was sent has arrived. -/
inductive Closing
  /-- The server has closed the connection; `recv` returns 0. -/
  | closed
  /-- The connection is lost; `recv` returns -1. -/
  | failed
  deriving DecidableEq

/-- The connection, as the calls of `recv` find it. -/
structure Socket where
  /-- What the server has sent and will send. -/
  bytes : List Char
  /-- How much there is beyond the first character, at one call of `recv` after the other; later
  calls find everything. -/
  arrivals : List ℕ
  closing : Closing

/-- `recv` with room for `size` characters; `none` for -1. -/
def Socket.recv (sock : Socket) (size : ℕ) : Option (List Char) × Socket :=
  match sock.bytes, sock.closing with
  | [], .closed => (some [], sock)
  | [], .failed => (none, sock)
  | c :: cs, _ =>
    let n := match sock.arrivals with
      | [] => size
      | arrived :: _ => min size (arrived + 1)
    (some ((c :: cs).take n),
      { sock with bytes := (c :: cs).drop n, arrivals := sock.arrivals.tail })

/-- The text `header` as a buffer, with `iv[0].iov_len` and `len`. -/
structure Buffer where
  header : List Char
  iovLen : ℤ
  len : ℕ
  sock : Socket
  header_pos : 0 < header.length
  iovLen_le : iovLen ≤ header.length

namespace Buffer

/-- The buffer after `recv` has put `front` into it. -/
def fill (b : Buffer) (front : List Char) (sock : Socket) : Buffer where
  header := front ++ b.header.drop front.length
  iovLen := front.length
  len := 0
  sock := sock
  header_pos := by
    have hpos := b.header_pos
    rw [List.length_append, List.length_drop]
    omega
  iovLen_le := by
    rw [List.length_append]
    omega

/-- The buffer after `recv` has failed. -/
def clear (b : Buffer) (sock : Socket) : Buffer where
  header := b.header
  iovLen := -1
  len := 0
  sock := sock
  header_pos := b.header_pos
  iovLen_le := by omega

/-- `n` more characters are in the buffer. -/
def advance (b : Buffer) (n : ℕ) : Buffer := { b with len := b.len + n }

/-- `_NO_MORE` -/
def noMore (b : Buffer) : Bool × Buffer :=
  if b.iovLen ≤ b.len then
    match b.sock.recv b.header.length with
    | (none, sock) => (true, b.clear sock)
    | (some front, sock) => (false, b.fill front sock)
  else (false, b)

/-- `_GET_NEXT_CHAR`, without the assignment to `ch`. -/
def next (b : Buffer) : Char × Buffer :=
  match b.noMore with
  | (true, b) => ('\x00', b)
  | (false, b) => (b.header.getD b.len '\x00', b.advance 1)

/-- A round of the loop that copies. -/
def copySome (f : Frame Buffer) : Bool × Frame Buffer :=
  if 0 < f.contentLength then
    match f.source.noMore with
    | (true, b) => (false, { f with source := b })
    | (false, b) =>
      let n := min f.contentLength (b.iovLen - b.len)
      (true, { f with
        contentLength := f.contentLength - n
        resp := f.resp ++ (b.header.drop b.len).take n.toNat
        source := b.advance n.toNat })
  else (false, f)

/-- The reader that `http_request` has: one character at a time, and the body in large pieces. -/
def source : Source Buffer where
  getNextChar := act fun f =>
    (f.source.next.1, { f with ch := f.source.next.1, source := f.source.next.2 })
  copyBody := loop (act copySome)

end Buffer

/-! ### The request -/

/-- The type `server_info`. -/
structure ServerInfo where
  host : String
  port : ℤ
  db : String := ""
  usr : String := ""
  pwd : String := ""
  precision : String := "ms"

/-- What `snprintf` writes. -/
def requestHead (method uri querystring : String) (si : ServerInfo) (bodyLength : ℕ) : String :=
  method ++ " /" ++ uri ++ "?db=" ++ si.db ++ "&u=" ++ si.usr ++ "&p=" ++ si.pwd ++ "&epoch=" ++
    si.precision ++ querystring ++ " HTTP/1.1\r\nHost: " ++ si.host ++ "\r\nContent-Length: " ++
    toString bodyLength ++ "\r\n\r\n"

/-- The loop that doubles `len` until the text fits, for at most `n` rounds. -/
def growHeader (length : ℕ) : ℕ → ℕ → ℕ
  | 0, len => len
  | n + 1, len => if len ≤ length then growHeader length n (2 * len) else len

/-- The length of `header` for a text of this length. -/
def headerLen (length : ℕ) : ℕ := growHeader length length 0x100

lemma length_lt_growHeader {length n len : ℕ} (h : length < 2 ^ n * len) :
    length < growHeader length n len := by
  induction n generalizing len with
  | zero => simpa [growHeader] using h
  | succ n ih =>
    rw [growHeader]
    split_ifs with hle
    · refine ih ?_
      rw [pow_succ] at h
      linarith
    · omega

lemma length_lt_headerLen (length : ℕ) : length < headerLen length := by
  refine length_lt_growHeader ?_
  have hpow : length < 2 ^ length := Nat.lt_two_pow_self
  omega

/-- The buffer before the first `recv`: it still holds the text of the request. -/
def Buffer.ofRequest (text : List Char) (sock : Socket) : Buffer where
  header := text ++ List.replicate (headerLen text.length - text.length) '\x00'
  iovLen := headerLen text.length
  len := headerLen text.length
  sock := sock
  header_pos := by
    have hlt := length_lt_headerLen text.length
    rw [List.length_append, List.length_replicate]
    omega
  iovLen_le := by
    have hlt := length_lt_headerLen text.length
    rw [List.length_append, List.length_replicate]
    omega

/-- What the system calls return. -/
structure Network where
  /-- Whether `inet_addr` understands the host. -/
  inetAddr : Bool
  sock : ℤ
  connect : ℤ
  writev : ℤ
  answer : Socket

/-- `http_request`: the code and `*resp`, whose text was `resp` before; `none` if a loop has
reached the bound `n`. -/
def httpRequest (n : ℕ) (net : Network) (method uri querystring body : String) (si : ServerInfo)
    (resp : List Char) : Option (ℤ × List Char) :=
  if net.inetAddr = false then some (-1, resp)
  else if net.sock < 0 then some (-2, resp)
  else if net.connect < 0 then some (-3, resp)
  else
    let text := (requestHead method uri querystring si body.length).toList
    if net.writev < text.length + body.length then some (-6, resp)
    else
      match (response Buffer.source).run n { source := Buffer.ofRequest text net.answer } with
      | none => none
      | some (_, f) => some (f.returned, f.resp)

end TradingEngine.InfluxdbCpp
