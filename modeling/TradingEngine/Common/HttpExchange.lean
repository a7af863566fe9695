/-
What `http_request` returns for an answer of the server, however it arrives.

The answer is a status line, lines among which one may say how the body is written, and the body.
-/
import TradingEngine.Common.HttpAnswer

namespace TradingEngine.InfluxdbCpp

open Lib Program

/-! ### Answers -/

/-- The first line of an answer. -/
structure StatusLine where
  version : List Char
  code : ℕ
  reason : List Char
  version_clean : Reader.Free [' ', '\x00'] version
  code_lt : code < 2 ^ 31
  reason_clean : Clean reason
  /-- The code ends where the reason begins. -/
  reason_head : Reader.Next (fun c => !c.isDigit) reason

/-- The text of a status line. -/
def StatusLine.write (status : StatusLine) : List Char :=
  status.version ++ ' ' :: (Nat.toDigits 10 status.code ++ status.reason ++ ['\r', '\n'])

/-- The body of an answer: absent, of a known length, or in chunks. -/
inductive Body
  | absent
  | plain (text : List Char) (text_lt : text.length < 2 ^ 31)
  | chunked (chunks : List Chunk)

namespace Body

/-- The line that says how the body is written. -/
def line : Body → List Char
  | absent => []
  | plain text _ => 'C' :: contentLengthName ++ Nat.toDigits 10 text.length ++ ['\r', '\n']
  | chunked _ => 'T' :: transferEncodingName ++ ['\r', '\n']

/-- The body as it is sent. -/
def write : Body → List Char
  | absent => []
  | plain text _ => text
  | chunked chunks => writeChunks chunks

/-- What the body says. -/
def text : Body → List Char
  | absent => []
  | plain text _ => text
  | chunked chunks => chunks.flatMap Chunk.data

/-- What the line has made known. -/
def frame (body : Body) (f : Frame (List Char)) : Frame (List Char) :=
  match body with
  | absent => f
  | plain text _ => { f with contentLength := text.length }
  | chunked _ => { f with chunked := true }

end Body

/-- An answer, with the other header lines before and after the one that announces the body. -/
structure Answer where
  status : StatusLine
  before : List OtherLine
  body : Body
  after : List OtherLine

namespace Answer

/-- The answer up to the empty line. -/
def head (a : Answer) : List Char :=
  a.status.write ++ (a.before.flatMap fun line => line.text ++ ['\r', '\n']) ++ a.body.line ++
    a.after.flatMap fun line => line.text ++ ['\r', '\n']

/-- The answer as it is sent. -/
def write (a : Answer) : List Char := a.head ++ '\r' :: '\n' :: a.body.write

/-- What is returned for such an answer. -/
def code (a : Answer) : ℤ := if a.status.code / 100 = 2 then 0 else a.status.code

end Answer

/-! ### The head of an answer -/

section Head

variable {closing : Closing} {f : Frame (List Char)}

lemma ends_statusLine (closing : Closing) (status : StatusLine) (rest : List Char) : ∃ f₁ c cs,
    (readUntil (streamSource closing) ' ').Ends { source := status.write ++ rest } (.value ()) f₁ ∧
      (getNumber (streamSource closing) Frame.varyRetCode).Ends f₁ (.value ())
        { ch := c, retCode := status.code, source := cs } ∧
      Inside { ch := c, retCode := status.code, source := cs } rest := by
  obtain ⟨stop, text, hline, hdigit, hclean⟩ : ∃ stop text,
      status.reason ++ ['\r'] = stop :: text ∧ stop.isDigit = false ∧ Clean (stop :: text) := by
    have hclean := status.reason_clean.append clean_return
    cases hreason : status.reason with
    | nil => exact ⟨'\r', [], rfl, by decide, by decide⟩
    | cons c cs =>
      rw [hreason] at hclean
      have hhead := status.reason_head
      rw [hreason, Reader.next_cons] at hhead
      exact ⟨c, cs ++ ['\r'], rfl, by simpa using hhead, hclean⟩
  have hsource : status.write ++ rest =
      status.version ++ ' ' :: (Nat.toDigits 10 status.code ++ stop :: (text ++ '\n' :: rest)) := by
    have htail : status.reason ++ ['\r', '\n'] ++ rest = stop :: (text ++ '\n' :: rest) := by
      rw [← List.cons_append, ← hline]
      simp
    rw [StatusLine.write, ← htail]
    simp
  have hnumber : (getNumber (streamSource closing) Frame.varyRetCode).Ends
      { ch := ' ', source := Nat.toDigits 10 status.code ++ stop :: (text ++ '\n' :: rest) }
      (.value ()) { ch := stop, retCode := status.code, source := text ++ '\n' :: rest } :=
    ends_getNumber lawful_varyRetCode status.code_lt hclean.ne
      hdigit rfl rfl
  rw [hsource]
  exact ⟨_, stop, _, ends_readUntil (by decide) status.version_clean rfl, hnumber,
    hclean.ne, text, hclean.of_cons, rfl⟩

/-- The line about the body. -/
lemma rounds_bodyLine (closing : Closing) (body : Body) {rest : List Char}
    (hzero : f.contentLength = 0)
    (h : Inside f (body.line ++ rest)) : ∃ c cs,
      Rounds (headerLine (streamSource closing)) f (body.frame (f.after c cs)) ∧
      Inside (f.after c cs) rest := by
  cases body with
  | absent => exact ⟨f.ch, f.source, .refl, h⟩
  | plain text hlt =>
    have hline : Inside f ('C' :: contentLengthName ++ Nat.toDigits 10 text.length ++
        '\r' :: '\n' :: rest) := by
      rwa [Body.line, List.append_assoc] at h
    exact ⟨'\r', '\n' :: rest, (headerLine_contentLength hlt hzero hline).rounds,
      (by decide : '\r' ≠ '\x00'), [], by decide, rfl⟩
  | chunked chunks =>
    have hline : Inside f ('T' :: transferEncodingName ++ '\r' :: '\n' :: rest) := by
      rwa [Body.line, List.append_assoc] at h
    exact ⟨'d', '\r' :: '\n' :: rest, (headerLine_chunked hline).rounds,
      (by decide : 'd' ≠ '\x00'), ['\r'], by decide, rfl⟩

lemma Body.frame_after (body : Body) (f : Frame (List Char)) (c : Char) (cs : List Char) :
    (body.frame f).after c cs = body.frame (f.after c cs) := by
  cases body <;> rfl

lemma Body.frame_ch (body : Body) (f : Frame (List Char)) : (body.frame f).ch = f.ch := by
  cases body <;> rfl

lemma Body.frame_source (body : Body) (f : Frame (List Char)) :
    (body.frame f).source = f.source := by
  cases body <;> rfl

lemma inside_frame (body : Body) {rest : List Char} (h : Inside f rest) :
    Inside (body.frame f) rest := by
  refine ⟨?_, ?_⟩
  · rw [body.frame_ch]
    exact h.ch
  · rw [body.frame_source]
    exact h.source

/-- The variables where all lines have been read. -/
def Answer.frame (a : Answer) (c : Char) (cs : List Char) : Frame (List Char) :=
  a.body.frame { ch := c, retCode := a.status.code, source := cs }

/-- **The head of an answer is read**, up to the empty line. -/
theorem ends_head (closing : Closing) (a : Answer) (rest : List Char) : ∃ f₁ f₂ c cs,
    (readUntil (streamSource closing) ' ').Ends { source := a.head ++ rest } (.value ()) f₁ ∧
      (getNumber (streamSource closing) Frame.varyRetCode).Ends f₁ (.value ()) f₂ ∧
      Rounds (headerLine (streamSource closing)) f₂ (a.frame c cs) ∧
      Inside (a.frame c cs) rest := by
  have hsource : a.head ++ rest = a.status.write ++
      ((a.before.flatMap fun line => line.text ++ ['\r', '\n']) ++ (a.body.line ++
        ((a.after.flatMap fun line => line.text ++ ['\r', '\n']) ++ rest))) := by
    simp [Answer.head]
  rw [hsource]
  obtain ⟨f₁, c, cs, huntil, hnumber, hinside⟩ := ends_statusLine closing a.status
    ((a.before.flatMap fun line => line.text ++ ['\r', '\n']) ++ (a.body.line ++
      ((a.after.flatMap fun line => line.text ++ ['\r', '\n']) ++ rest)))
  obtain ⟨c₁, cs₁, hrounds₁, hinside₁⟩ := rounds_other closing a.before hinside
  obtain ⟨c₂, cs₂, hrounds₂, hinside₂⟩ := rounds_bodyLine closing a.body rfl hinside₁
  obtain ⟨c₃, cs₃, hrounds₃, hinside₃⟩ :=
    rounds_other closing a.after (inside_frame a.body hinside₂)
  rw [Body.frame_after] at hrounds₃ hinside₃
  exact ⟨f₁, _, c₃, cs₃, huntil, hnumber, hrounds₁.trans (hrounds₂.trans hrounds₃), hinside₃⟩

/-- The empty line and the body behind the head. -/
lemma ends_response_of_readBody (closing : Closing) (a : Answer) {rest : List Char}
    {o : Outcome Unit} (h : (readBody (streamSource closing)).Ends (a.frame '\n' rest) o f) :
    (response (streamSource closing)).Ends { source := a.head ++ '\r' :: '\n' :: rest }
      .jump f := by
  obtain ⟨f₁, f₂, c, cs, huntil, hnumber, hrounds, hinside⟩ :=
    ends_head closing a ('\r' :: '\n' :: rest)
  have hread : (readBody (streamSource closing)).Ends ((a.frame c cs).after '\n' rest) o f := by
    rwa [Answer.frame, Body.frame_after]
  have hline := headerLine_empty hinside hread
  exact huntil.bind (hnumber.bind (hrounds.ends hline.loop_jump).bind_jump)

/-- **The answer is read** to its end. -/
theorem ends_response (closing : Closing) (a : Answer) (more : List Char) : ∃ f',
    (response (streamSource closing)).Ends { source := a.write ++ more } .jump f' ∧
      f'.retCode = a.status.code ∧ f'.resp = a.body.text := by
  have hbody : ∃ o f', (readBody (streamSource closing)).Ends
      (a.body.frame { ch := '\n', retCode := a.status.code, source := a.body.write ++ more }) o f' ∧
        f'.retCode = a.status.code ∧ f'.resp = a.body.text := by
    cases a.body with
    | absent =>
      exact ⟨_, _, ends_readBody_of_copyBody rfl (ends_copyBody closing (.inl (Nat.zero_le _))),
        rfl, rfl⟩
    | plain text hlt =>
      refine ⟨_, _, ends_readBody rfl rfl rfl, rfl, ?_⟩
      simp [Frame.copied, Body.frame, Body.write, Body.text]
    | chunked chunks =>
      let f : Frame (List Char) := (Body.chunked chunks).frame
        { ch := '\n', retCode := a.status.code, source := writeChunks chunks ++ more }
      obtain ⟨f', hends, hresp, hretCode⟩ :=
        ends_readBody_chunked chunks (f := f) rfl rfl rfl
      exact ⟨_, f', hends, hretCode, hresp⟩
  obtain ⟨o, f', hends, hretCode, hresp⟩ := hbody
  have hsource : a.write ++ more = a.head ++ '\r' :: '\n' :: (a.body.write ++ more) := by
    simp [Answer.write]
  rw [hsource]
  exact ⟨f', ends_response_of_readBody closing a hends, hretCode, hresp⟩

/-- A connection that is lost in the middle of the body. -/
lemma ends_response_cut (a : Answer) {text received : List Char} {hlt : text.length < 2 ^ 31}
    (ha : a.body = .plain text hlt) (hpart : received <+: text) : ∃ f',
    (response (streamSource .failed)).Ends { source := a.head ++ '\r' :: '\n' :: received }
      .jump f' ∧
      f'.retCode = a.status.code ∧ f'.resp = received := by
  have hcopy := ends_copyBody .failed (f := a.frame '\n' received) (.inr rfl)
  refine ⟨_, ends_response_of_readBody .failed a (ends_readBody_of_copyBody ?_ hcopy), ?_, ?_⟩
  · rw [Answer.frame, ha]
    rfl
  · rw [Answer.frame, ha]
    rfl
  · have hle := hpart.length_le
    rw [Answer.frame, ha]
    simp [Frame.copied, Body.frame, hle]

/-- The copying of a body that the server has cut off is reached, and goes on for ever. -/
lemma diverges_headerLine_closed {f : Frame Buffer} {g : Frame (List Char)} {received : List Char}
    (h : Delivers .closed f g) (hinside : Inside g ('\r' :: '\n' :: received))
    (hchunked : g.chunked = false) (hshort : (received.length : ℤ) < g.contentLength) :
    (headerLine Buffer.source).Diverges f := by
  obtain ⟨f₁, huntil, hf₁⟩ := simulates_readUntil '\n' f g h _ _ hinside.ends_readUntil
  obtain ⟨f₂, hnext, hf₂⟩ := simulates_getNextChar f₁ _ hf₁ _ _ (ends_next rfl)
  obtain ⟨f₃, hexpect, hf₃⟩ := simulates_expect ['\n'] f₂ _ hf₂ _ _ (ends_expect rfl (by decide))
  have hbody : (readBody Buffer.source).Diverges f₃ := by
    refine (ends_read _ f₃).bind_diverges ?_
    rw [hf₃.chunked]
    show (ite (g.chunked = true) _ _ : Program (Frame Buffer) Unit).Diverges f₃
    rw [hchunked, if_neg Bool.false_ne_true]
    refine diverges_copyBody_closed ?_ hf₃.closing
    rw [hf₃.pending, hf₃.contentLength]
    exact hshort
  refine huntil.bind_diverges (hnext.bind_diverges ?_)
  rw [lineCase, if_neg (by decide), if_neg (by decide), if_pos rfl]
  exact hexpect.bind_diverges hbody.bind

lemma diverges_response_closed {f : Frame Buffer} (a : Answer) {text received : List Char}
    {hlt : text.length < 2 ^ 31} (ha : a.body = .plain text hlt)
    (hshort : received.length < text.length)
    (h : Delivers .closed f { source := a.head ++ '\r' :: '\n' :: received }) :
    (response Buffer.source).Diverges f := by
  obtain ⟨g₁, g₂, c, cs, huntil, hnumber, hrounds, hinside⟩ :=
    ends_head .closed a ('\r' :: '\n' :: received)
  obtain ⟨f₁, huntil', hf₁⟩ := simulates_readUntil ' ' f _ h _ _ huntil
  obtain ⟨f₂, hnumber', hf₂⟩ := simulates_getNumber delivers_varyRetCode f₁ _ hf₁ _ _ hnumber
  obtain ⟨f₃, hrounds', hf₃⟩ := simulates_headerLine.rounds hf₂ hrounds
  have hline : (headerLine Buffer.source).Diverges f₃ := by
    refine diverges_headerLine_closed hf₃ hinside ?_ ?_
    · rw [Answer.frame, ha]
      rfl
    · rw [Answer.frame, ha]
      exact Int.ofNat_lt.2 hshort
  exact huntil'.bind_diverges (hnumber'.bind_diverges (hrounds'.diverges hline.loop).bind)

end Head

/-! ### The call -/

section Call

variable {net : Network} {method uri querystring body : String} {si : ServerInfo}
  {resp : List Char}

/-- The call returns this code, and this is the text of the response then. -/
def Returns (net : Network) (method uri querystring body : String) (si : ServerInfo)
    (resp : List Char) (result : ℤ × List Char) : Prop :=
  ∃ n, httpRequest n net method uri querystring body si resp = some result

/-- The connection is there, and the request can be sent. -/
structure Connected (net : Network) (method uri querystring body : String) (si : ServerInfo) :
    Prop where
  inetAddr : net.inetAddr = true
  sock : 0 ≤ net.sock
  connect : 0 ≤ net.connect
  writev : ((requestHead method uri querystring si body.length).length + body.length : ℤ) ≤
    net.writev

/-- Everything works, and this is the answer. -/
def answering (method uri querystring body : String) (si : ServerInfo) (answer : Socket) :
    Network where
  inetAddr := true
  sock := 3
  connect := 0
  writev := (requestHead method uri querystring si body.length).length + body.length
  answer := answer

lemma connected_answering (method uri querystring body : String) (si : ServerInfo)
    (answer : Socket) :
    Connected (answering method uri querystring body si answer) method uri querystring body si :=
  ⟨rfl, Int.natCast_nonneg 3, le_rfl, le_rfl⟩

/-- The buffer before the first `recv`, for this request. -/
abbrev firstFrame (net : Network) (method uri querystring body : String) (si : ServerInfo) :
    Frame Buffer :=
  { source := .ofRequest (requestHead method uri querystring si body.length).toList net.answer }

lemma httpRequest_connected (h : Connected net method uri querystring body si) (n : ℕ) :
    httpRequest n net method uri querystring body si resp =
      ((response Buffer.source).run n (firstFrame net method uri querystring body si)).map
        fun r => (r.2.returned, r.2.resp) := by
  have hsock := h.sock
  have hconnect := h.connect
  have hwritev := h.writev
  rw [httpRequest, h.inetAddr, if_neg (by decide), if_neg (by omega), if_neg (by omega)]
  show (ite _ _ _ : Option (ℤ × List Char)) = _
  rw [if_neg (by rw [String.length_toList]; omega)]
  cases (response Buffer.source).run n (firstFrame net method uri querystring body si) with
  | none => rfl
  | some r => rfl

lemma Buffer.pending_ofRequest (text : List Char) (sock : Socket) :
    (Buffer.ofRequest text sock).pending = sock.bytes :=
  pending_of_le (by simp [ofRequest])

lemma delivers_firstFrame (net : Network) (method uri querystring body : String)
    (si : ServerInfo) : Delivers net.answer.closing
      (firstFrame net method uri querystring body si) { source := net.answer.bytes } :=
  ⟨Buffer.pending_ofRequest _ _, rfl, rfl, rfl, rfl, rfl, rfl⟩

/-- What is read from the text is returned. -/
lemma returns_of_ends (resp : List Char) (h : Connected net method uri querystring body si)
    {o : Outcome Unit}
    {f' : Frame (List Char)} (hends : (response (streamSource net.answer.closing)).Ends
      { source := net.answer.bytes } o f') :
    Returns net method uri querystring body si resp (f'.returned, f'.resp) := by
  obtain ⟨g', ⟨n, hn⟩, hdelivers⟩ := simulates_response _ _
    (delivers_firstFrame net method uri querystring body si) _ _ hends
  refine ⟨n, ?_⟩
  rw [httpRequest_connected h, hn, Option.map_some, Frame.returned, Frame.returned,
    hdelivers.retCode, hdelivers.resp]

lemma httpRequest_mono {n m : ℕ} (hnm : n ≤ m) {r : ℤ × List Char}
    (h : httpRequest n net method uri querystring body si resp = some r) :
    httpRequest m net method uri querystring body si resp = some r := by
  rw [httpRequest] at h ⊢
  split_ifs at h ⊢ with hinetAddr hsock hconnect
  · exact h
  · exact h
  · exact h
  · simp only at h ⊢
    split_ifs at h ⊢ with hwritev
    · exact h
    · cases hrun : (response Buffer.source).run n
          (firstFrame net method uri querystring body si) with
      | none =>
        rw [hrun] at h
        cases h
      | some r' =>
        rw [hrun] at h
        rw [(response Buffer.source).run_mono hnm hrun]
        exact h

lemma Returns.unique {r r' : ℤ × List Char} (h : Returns net method uri querystring body si resp r)
    (h' : Returns net method uri querystring body si resp r') : r = r' := by
  obtain ⟨n, hn⟩ := h
  obtain ⟨m, hm⟩ := h'
  have hn' := httpRequest_mono (le_max_left n m) hn
  rw [httpRequest_mono (le_max_right n m) hm, Option.some.injEq] at hn'
  exact hn'.symm

lemma returned_eq_code {a : Answer} {f : Frame (List Char)} (h : f.retCode = a.status.code) :
    f.returned = a.code := by
  rw [Frame.returned, h, Answer.code, Int.tdiv_eq_ediv_of_nonneg (by omega)]
  split_ifs <;> omega

lemma returns_read (resp : List Char) (h : Connected net method uri querystring body si)
    (a : Answer) {more : List Char} (hbytes : net.answer.bytes = a.write ++ more) :
    Returns net method uri querystring body si resp (a.code, a.body.text) := by
  obtain ⟨f', hends, hretCode, hresp⟩ := ends_response net.answer.closing a more
  rw [← hbytes] at hends
  have hreturns := returns_of_ends resp h hends
  rwa [returned_eq_code hretCode, hresp] at hreturns

/-- **What the server has answered is returned**, in however many pieces it arrives and whatever
comes after it: the body, and 0 instead of a code that says success. -/
theorem returns_answer (h : Connected net method uri querystring body si) (a : Answer)
    {more : List Char} (hbytes : net.answer.bytes = a.write ++ more) (result : ℤ × List Char) :
    Returns net method uri querystring body si resp result ↔ result = (a.code, a.body.text) := by
  have hread := returns_read resp h a hbytes
  constructor
  · exact fun hreturns => hreturns.unique hread
  · rintro rfl
    exact hread

/-- Two chunks, the first of which arrives in parts. -/
theorem returns_answer_twoChunks :
    let si : ServerInfo := { host := "127.0.0.1", port := 8086 }
    let a : Answer := ⟨⟨['H', 'T', 'T', 'P'], 200, [' ', 'O', 'K'], by decide, by decide, by decide,
      Reader.next_cons.2 rfl⟩,
      [⟨['C', 'o', 'n', 't', ':', 'x'], by decide, by decide, by decide, by decide, by decide⟩],
      .chunked [⟨['3'], ['{', '}', '\n'], by decide, by decide, by decide, by decide⟩,
        ⟨['0', 'b'], List.replicate 11 '0', by decide, by decide, by decide, by decide⟩], []⟩
    Returns (answering "GET" "query" "&q=show" "" si ⟨a.write ++ ['H'], [0, 60, 1], .closed⟩) "GET"
      "query" "&q=show" "" si [] (0, ['{', '}', '\n'] ++ List.replicate 11 '0') := by
  intro si a
  have hbytes : (answering "GET" "query" "&q=show" "" si
      ⟨a.write ++ ['H'], [0, 60, 1], .closed⟩).answer.bytes = a.write ++ ['H'] := rfl
  exact (returns_answer (connected_answering _ _ _ _ _ _) a hbytes _).2 (by decide)

/-- **A connection that is lost**: the call returns, and how the bytes arrived makes no
difference, whatever they are. -/
theorem returns_lost (bytes : List Char) : ∃ result : ℤ × List Char,
    ∀ (net : Network) (method uri querystring body : String) (si : ServerInfo) (resp : List Char),
      Connected net method uri querystring body si → net.answer.bytes = bytes →
      net.answer.closing = .failed →
      Returns net method uri querystring body si resp result := by
  obtain ⟨o, f', hends, -⟩ := total_response { source := bytes }
  refine ⟨(f'.returned, f'.resp), ?_⟩
  intro net method uri querystring body si resp h hbytes hclosing
  rw [← hclosing, ← hbytes] at hends
  exact returns_of_ends resp h hends

/-- Nothing but the beginning of a status line. -/
theorem returns_lost_statusLine :
    let si : ServerInfo := { host := "127.0.0.1", port := 8086 }
    ∃ result, Returns (answering "GET" "query" "&q=show" "" si
      ⟨['H', 'T', 'T', 'P', ' ', '2'], [2], .failed⟩) "GET" "query" "&q=show" "" si [] result := by
  intro si
  obtain ⟨result, hresult⟩ := returns_lost ['H', 'T', 'T', 'P', ' ', '2']
  exact ⟨result, hresult _ _ _ _ _ _ _ (connected_answering _ _ _ _ _ _) rfl rfl⟩

lemma returns_cut (h : Connected net method uri querystring body si) (a : Answer)
    {text received : List Char} {hlt : text.length < 2 ^ 31} (ha : a.body = .plain text hlt)
    (hpart : received <+: text) (hbytes : net.answer.bytes = a.head ++ '\r' :: '\n' :: received)
    (hclosing : net.answer.closing = .failed) :
    Returns net method uri querystring body si resp (a.code, received) := by
  obtain ⟨f', hends, hretCode, hresp⟩ := ends_response_cut a ha hpart
  rw [← hclosing, ← hbytes] at hends
  have hreturns := returns_of_ends resp h hends
  rwa [returned_eq_code hretCode, hresp] at hreturns

lemma not_returns_closed (h : Connected net method uri querystring body si) (a : Answer)
    {text received : List Char} {hlt : text.length < 2 ^ 31} (ha : a.body = .plain text hlt)
    (hpart : received <+: text) (hshort : received ≠ text)
    (hbytes : net.answer.bytes = a.head ++ '\r' :: '\n' :: received)
    (hclosing : net.answer.closing = .closed) (result : ℤ × List Char) :
    ¬ Returns net method uri querystring body si resp result := by
  have hlen : received.length < text.length := by
    have hle := hpart.length_le
    have hne : received.length ≠ text.length := fun heq => hshort (hpart.eq_of_length heq)
    omega
  have hdelivers := delivers_firstFrame net method uri querystring body si
  rw [hclosing, hbytes] at hdelivers
  have hdiverges := diverges_response_closed a ha hlen hdelivers
  rintro ⟨n, hn⟩
  rw [httpRequest_connected h, hdiverges n] at hn
  cases hn

lemma returns_complete (h : Connected net method uri querystring body si) (a : Answer)
    {text : List Char} {hlt : text.length < 2 ^ 31} (ha : a.body = .plain text hlt)
    (hbytes : net.answer.bytes = a.head ++ '\r' :: '\n' :: text) :
    Returns net method uri querystring body si resp (a.code, text) := by
  have hanswer : net.answer.bytes = a.write ++ [] := by
    rw [hbytes, Answer.write, ha, List.append_nil]
    rfl
  have hreturns := returns_read resp h a hanswer
  rwa [ha] at hreturns

/-- **A body that is cut off**: where the connection is lost, what has arrived is returned with
the code of a complete answer; where the server has closed it, the call never returns unless all
of the body is there. -/
theorem returns_cut_iff (h : Connected net method uri querystring body si) (a : Answer)
    {text received : List Char} {hlt : text.length < 2 ^ 31} (ha : a.body = .plain text hlt)
    (hpart : received <+: text) (hbytes : net.answer.bytes = a.head ++ '\r' :: '\n' :: received)
    (result : ℤ × List Char) :
    Returns net method uri querystring body si resp result ↔
      result = (a.code, received) ∧ (net.answer.closing = .closed → received = text) := by
  constructor
  · intro hreturns
    cases hclosing : net.answer.closing with
    | failed =>
      exact ⟨hreturns.unique (returns_cut h a ha hpart hbytes hclosing), by rintro ⟨⟩⟩
    | closed =>
      by_cases hshort : received = text
      · subst hshort
        exact ⟨hreturns.unique (returns_complete h a ha hbytes), fun _ => rfl⟩
      · exact absurd hreturns (not_returns_closed h a ha hpart hshort hbytes hclosing result)
  · rintro ⟨rfl, hcomplete⟩
    cases hclosing : net.answer.closing with
    | failed => exact returns_cut h a ha hpart hbytes hclosing
    | closed =>
      have hshort := hcomplete hclosing
      subst hshort
      exact returns_complete h a ha hbytes

/-- Two of three characters. -/
theorem returns_cut_iff_twoOfThree :
    let si : ServerInfo := { host := "127.0.0.1", port := 8086 }
    let a : Answer := ⟨⟨['H', 'T', 'T', 'P'], 200, [' ', 'O', 'K'], by decide, by decide, by decide,
      Reader.next_cons.2 rfl⟩, [], .plain ['{', '}', '\n'] (by decide), []⟩
    ∀ closing, Returns (answering "GET" "query" "&q=show" "" si
        ⟨a.head ++ '\r' :: '\n' :: ['{', '}'], [], closing⟩) "GET" "query" "&q=show" "" si []
        (0, ['{', '}']) ↔ closing = .failed := by
  intro si a closing
  have hbytes : (answering "GET" "query" "&q=show" "" si
      ⟨a.head ++ '\r' :: '\n' :: ['{', '}'], [], closing⟩).answer.bytes =
        a.head ++ '\r' :: '\n' :: ['{', '}'] := rfl
  have hpart : ['{', '}'] <+: ['{', '}', '\n'] := by decide
  refine (returns_cut_iff (connected_answering _ _ _ _ _ _) a rfl hpart hbytes _).trans ?_
  constructor
  · rintro ⟨-, hcomplete⟩
    cases closing with
    | closed => exact absurd (hcomplete rfl) (by decide)
    | failed => rfl
  · rintro rfl
    exact ⟨by decide, by rintro ⟨⟩⟩

end Call

end TradingEngine.InfluxdbCpp
