/-
The answer of the server as a text, for `http_request`.

Reading from the buffer simulates reading from the text itself (`simulates_response`), so that
what is read does not depend on how the answer was cut into pieces.
-/
import TradingEngine.Common.HttpRequest

namespace TradingEngine.InfluxdbCpp

open Lib Program

/-! ### The text of the answer -/

/-- Reading from the text itself.  At its end there is an error where the connection is lost;
what comes after it is closed is left open. -/
def streamSource (closing : Closing) : Source (List Char) where
  getNextChar := do
    let text ← read Frame.source
    match text with
    | c :: cs => act fun f => (c, { f with ch := c, source := cs })
    | [] => if closing = .failed then act fun f => ('\x00', { f with ch := '\x00' }) else diverge
  copyBody := do
    let f ← read id
    let n := min f.contentLength.toNat f.source.length
    if n < f.contentLength.toNat ∧ closing = .closed then diverge
    else act fun f => ((), { f with
      contentLength := f.contentLength - n
      resp := f.resp ++ f.source.take n
      source := f.source.drop n })

section Stream

variable {closing : Closing} {f : Frame (List Char)}

lemma ends_next {c : Char} {cs : List Char} (h : f.source = c :: cs) :
    (streamSource closing).getNextChar.Ends f (.value c) { f with ch := c, source := cs } := by
  refine (ends_read _ f).bind ?_
  rw [h]
  exact ends_act _ f

lemma ends_next_of_fails (h : f.source = []) :
    (streamSource .failed).getNextChar.Ends f (.value '\x00') { f with ch := '\x00' } := by
  obtain ⟨ch, retCode, contentLength, chunked, resp, source⟩ := f
  cases h
  exact (ends_read _ _).bind (ends_act _ _)

lemma diverges_next (h : f.source = []) : (streamSource .closed).getNextChar.Diverges f := by
  refine (ends_read _ f).bind_diverges ?_
  rw [h]
  exact fun _ => rfl

/-- The frame after `n` characters have been copied. -/
def Frame.copied (f : Frame (List Char)) (n : ℕ) : Frame (List Char) :=
  { f with
    contentLength := f.contentLength - n
    resp := f.resp ++ f.source.take n
    source := f.source.drop n }

@[simp] lemma Frame.copied_zero (f : Frame (List Char)) : f.copied 0 = f := by
  simp [Frame.copied]

lemma Frame.copied_add (f : Frame (List Char)) (n m : ℕ) :
    f.copied (n + m) = (f.copied n).copied m := by
  simp [Frame.copied, List.take_add, sub_sub]

lemma ends_copyBody (closing : Closing)
    (h : f.contentLength.toNat ≤ f.source.length ∨ closing = .failed) :
    (streamSource closing).copyBody.Ends f (.value ())
      (f.copied (min f.contentLength.toNat f.source.length)) := by
  refine (ends_read id f).bind ?_
  show (ite _ _ _ : Program (Frame (List Char)) Unit).Ends f _ _
  rw [if_neg]
  · exact ends_act _ f
  · rintro ⟨hlt, hfails⟩
    change min f.contentLength.toNat f.source.length < f.contentLength.toNat at hlt
    rcases h with hle | hfails'
    · omega
    · cases hfails.symm.trans hfails'

lemma diverges_copyBody (h : f.source.length < f.contentLength.toNat) :
    (streamSource .closed).copyBody.Diverges f := by
  refine (ends_read id f).bind_diverges ?_
  show (ite _ _ _ : Program (Frame (List Char)) Unit).Diverges f
  rw [if_pos]
  · exact fun _ => rfl
  · refine ⟨?_, rfl⟩
    show min f.contentLength.toNat f.source.length < f.contentLength.toNat
    omega

end Stream

/-! ### The buffer simulates the text -/

namespace Buffer

/-- The text that is still to be read. -/
def pending (b : Buffer) : List Char := (b.header.take b.iovLen.toNat).drop b.len ++ b.sock.bytes

lemma pending_fill (b : Buffer) (front : List Char) (sock : Socket) :
    (b.fill front sock).pending = front ++ sock.bytes := by
  simp [pending, fill]

/-- Where all of the buffer has been read, the rest is still to come. -/
lemma pending_of_le {b : Buffer} (h : b.iovLen ≤ b.len) : b.pending = b.sock.bytes := by
  have hdrop : (b.header.take b.iovLen.toNat).drop b.len = [] := by
    rw [List.drop_eq_nil_iff, List.length_take]
    omega
  rw [pending, hdrop, List.nil_append]

lemma iovLen_le_of_pending {b : Buffer} (h : b.pending = []) : b.iovLen ≤ b.len := by
  have hlen := congrArg List.length h
  have hbound := b.iovLen_le
  simp only [pending, List.length_append, List.length_drop, List.length_take,
    List.length_nil] at hlen
  omega

lemma pending_clear {b : Buffer} (sock : Socket) : (b.clear sock).pending = sock.bytes :=
  pending_of_le (by simp [clear])

/-- What the buffer holds is the front of the text. -/
lemma pending_advance {b : Buffer} {n : ℕ} (h : (b.len + n : ℤ) ≤ b.iovLen) :
    (b.header.drop b.len).take n = b.pending.take n ∧
      (b.advance n).pending = b.pending.drop n := by
  have hle := b.iovLen_le
  have hfront : n ≤ ((b.header.take b.iovLen.toNat).drop b.len).length := by
    rw [List.length_drop, List.length_take]
    omega
  constructor
  · rw [pending, List.take_append_of_le_length hfront, List.drop_take, List.take_take]
    congr 1
    omega
  · rw [pending.eq_1 b, List.drop_append_of_le_length hfront, List.drop_drop]
    rfl

/-- **There is more** as long as the text goes on, at least one character of it in the buffer. -/
lemma noMore_of_pending {b : Buffer} (h : b.pending ≠ []) :
    ∃ b', b.noMore = (false, b') ∧ b'.pending = b.pending ∧ (b'.len : ℤ) < b'.iovLen ∧
      b'.sock.closing = b.sock.closing := by
  by_cases hle : b.iovLen ≤ b.len
  · rw [pending_of_le hle] at h
    obtain ⟨c, cs, hbytes⟩ := List.exists_cons_of_ne_nil h
    -- `recv` gives at least one character
    obtain ⟨n, hn⟩ : ∃ n, b.noMore = (false, b.fill ((c :: cs).take (n + 1))
        ⟨(c :: cs).drop (n + 1), b.sock.arrivals.tail, b.sock.closing⟩) := by
      have hpos := b.header_pos
      rw [noMore, if_pos hle, Socket.recv, hbytes]
      cases b.sock.arrivals with
      | nil => exact ⟨b.header.length - 1, by simp [Nat.sub_add_cancel hpos]⟩
      | cons a as =>
        refine ⟨min b.header.length (a + 1) - 1, ?_⟩
        have hmin : min b.header.length (a + 1) - 1 + 1 = min b.header.length (a + 1) := by omega
        simp [hmin]
    refine ⟨_, hn, ?_, ?_, rfl⟩
    · rw [pending_fill, List.take_append_drop, pending_of_le hle, hbytes]
    · simp [fill]
  · refine ⟨b, if_neg hle, rfl, by omega, rfl⟩

/-- **There is no more** after everything has been read from a connection that is lost. -/
lemma noMore_of_failed {b : Buffer} (h : b.pending = []) (hclosing : b.sock.closing = .failed) :
    ∃ b', b.noMore = (true, b') ∧ b'.pending = [] ∧ b'.sock.closing = .failed := by
  have hle := iovLen_le_of_pending h
  rw [pending_of_le hle] at h
  refine ⟨b.clear b.sock, ?_, by rw [pending_clear, h], hclosing⟩
  rw [noMore, if_pos hle, Socket.recv, h, hclosing]

/-- **There seems to be more** after everything has been read from a connection that is closed. -/
lemma noMore_of_closed {b : Buffer} (h : b.pending = []) (hclosing : b.sock.closing = .closed) :
    b.noMore = (false, b.fill [] b.sock) := by
  have hle := iovLen_le_of_pending h
  rw [pending_of_le hle] at h
  rw [noMore, if_pos hle, Socket.recv, h, hclosing]

lemma next_of_pending {b : Buffer} {c : Char} {cs : List Char} (h : b.pending = c :: cs) :
    b.next.1 = c ∧ b.next.2.pending = cs ∧ b.next.2.sock.closing = b.sock.closing := by
  obtain ⟨b', hmore, hpending, hlt, hclosing⟩ := noMore_of_pending (b := b) (by simp [h])
  obtain ⟨hfront, hrest⟩ := pending_advance (b := b') (n := 1) (by omega)
  have hlen := b'.iovLen_le
  have hindex : b'.len < b'.header.length := by omega
  rw [hpending, h] at hfront hrest
  rw [List.drop_eq_getElem_cons hindex] at hfront
  have hc : b'.header[b'.len] = c := (List.cons.inj hfront).1
  rw [next, hmore]
  exact ⟨by simp [List.getD, List.getElem?_eq_getElem hindex, hc], hrest, hclosing⟩

lemma next_of_failed {b : Buffer} (h : b.pending = []) (hclosing : b.sock.closing = .failed) :
    b.next.1 = '\x00' ∧ b.next.2.pending = [] ∧ b.next.2.sock.closing = .failed := by
  obtain ⟨b', hmore, hpending, hclosing'⟩ := noMore_of_failed h hclosing
  rw [next, hmore]
  exact ⟨rfl, hpending, hclosing'⟩

end Buffer

/-- The buffer still has to give this text, and the variables are the same. -/
structure Delivers (closing : Closing) (f : Frame Buffer) (g : Frame (List Char)) : Prop where
  pending : f.source.pending = g.source
  closing : f.source.sock.closing = closing
  ch : f.ch = g.ch
  retCode : f.retCode = g.retCode
  contentLength : f.contentLength = g.contentLength
  chunked : f.chunked = g.chunked
  resp : f.resp = g.resp

section Simulation

variable {closing : Closing}

lemma simulates_getNextChar :
    Simulates (Delivers closing) Buffer.source.getNextChar (streamSource closing).getNextChar := by
  rintro f g h o g' hg
  have hnext : Buffer.source.getNextChar.Ends f (.value f.source.next.1)
      { f with ch := f.source.next.1, source := f.source.next.2 } := ends_act _ f
  cases hsource : g.source with
  | cons c cs =>
    obtain ⟨rfl, rfl⟩ := hg.unique (ends_next hsource)
    obtain ⟨hc, hrest, hclosing⟩ := Buffer.next_of_pending (h.pending.trans hsource)
    rw [hc] at hnext
    exact ⟨_, hnext, ⟨hrest, hclosing.trans h.closing, rfl, h.retCode, h.contentLength, h.chunked,
      h.resp⟩⟩
  | nil =>
    cases closing with
    | closed => exact absurd hg (diverges_next hsource).not_ends
    | failed =>
      obtain ⟨rfl, rfl⟩ := hg.unique (ends_next_of_fails hsource)
      obtain ⟨hc, hrest, hclosing⟩ :=
        Buffer.next_of_failed (h.pending.trans hsource) h.closing
      rw [hc] at hnext
      exact ⟨_, hnext, ⟨hrest.trans hsource.symm, hclosing, rfl, h.retCode,
        h.contentLength, h.chunked, h.resp⟩⟩

/-- A round of the loop that copies takes what is in the buffer. -/
lemma copySome_of_pending {f : Frame Buffer} (hpos : 0 < f.contentLength)
    (hne : f.source.pending ≠ []) : ∃ n b, 0 < n ∧ n ≤ f.source.pending.length ∧
      (n : ℤ) ≤ f.contentLength ∧
      Buffer.copySome f = (true, { f with
        contentLength := f.contentLength - n
        resp := f.resp ++ f.source.pending.take n
        source := b }) ∧
      b.pending = f.source.pending.drop n ∧ b.sock.closing = f.source.sock.closing := by
  obtain ⟨b, hmore, hpending, hlt, hclosing⟩ := Buffer.noMore_of_pending hne
  obtain ⟨n, hn⟩ : ∃ n : ℕ, (n : ℤ) = min f.contentLength (b.iovLen - b.len) :=
    ⟨(min f.contentLength (b.iovLen - b.len)).toNat, Int.toNat_of_nonneg (by omega)⟩
  obtain ⟨hfront, hrest⟩ := Buffer.pending_advance (b := b) (n := n) (by omega)
  have hlen : n ≤ b.pending.length := by
    have hlen := congrArg List.length hfront
    have hbound := b.iovLen_le
    simp only [List.length_take, List.length_drop] at hlen
    omega
  rw [hpending] at hfront hrest hlen
  refine ⟨n, b.advance n, by omega, hlen, by omega, ?_, hrest, hclosing⟩
  rw [Buffer.copySome, if_pos hpos, hmore]
  simp only [← hn, Int.toNat_natCast, hfront]

/-- **The loop that copies** takes what is left of the body, piece by piece. -/
lemma delivers_copyBody {f : Frame Buffer} {g : Frame (List Char)} (h : Delivers closing f g)
    (hlong : g.contentLength.toNat ≤ g.source.length ∨ closing = .failed) :
    ∃ f', Buffer.source.copyBody.Ends f (.value ()) f' ∧
      Delivers closing f' (g.copied (min g.contentLength.toNat g.source.length)) := by
  induction hk : g.contentLength.toNat using Nat.strong_induction_on generalizing f g with
  | _ k ih =>
    have hact := ends_act Buffer.copySome f
    have hlength := h.contentLength
    by_cases hpos : 0 < f.contentLength
    · by_cases hnil : g.source = []
      · -- the connection is lost before the body is complete
        have hfails : closing = .failed := by
          rcases hlong with hle | hfails
          · rw [hnil, List.length_nil] at hle
            omega
          · exact hfails
        obtain ⟨b, hmore, hpending, hclosing⟩ :=
          Buffer.noMore_of_failed (h.pending.trans hnil) (h.closing.trans hfails)
        rw [Buffer.copySome, if_pos hpos, hmore] at hact
        refine ⟨_, hact.loop_done, ?_⟩
        rw [hnil, List.length_nil, Nat.min_zero, Frame.copied_zero]
        exact { h with pending := hpending.trans hnil.symm, closing := hclosing.trans hfails.symm }
      · obtain ⟨n, b, hn, hle, hbound, hround, hpending, hclosing⟩ :=
          copySome_of_pending hpos (by rwa [h.pending])
        rw [hround] at hact
        rw [h.pending] at hle hpending
        have hdelivers : Delivers closing { f with
            contentLength := f.contentLength - n
            resp := f.resp ++ f.source.pending.take n
            source := b } (g.copied n) :=
          ⟨hpending, hclosing.trans h.closing, h.ch, h.retCode,
            by simp [Frame.copied, hlength], h.chunked, by simp [Frame.copied, h.resp, h.pending]⟩
        have hless : (g.copied n).contentLength.toNat = k - n := by
          simp only [Frame.copied]
          omega
        have hrest : (g.copied n).source.length = g.source.length - n := by
          simp [Frame.copied]
        obtain ⟨f', hends, hf'⟩ := ih (k - n) (by omega) hdelivers
          (hlong.imp_left fun hle => by omega) hless
        have htotal : min k g.source.length =
            n + min (k - n) (g.copied n).source.length := by omega
        rw [htotal, Frame.copied_add]
        exact ⟨f', hact.loop_again hends, hf'⟩
    · rw [Buffer.copySome, if_neg hpos] at hact
      have hzero : min k g.source.length = 0 := by omega
      rw [hzero, Frame.copied_zero]
      exact ⟨f, hact.loop_done, h⟩

/-- **The loop that copies goes on for ever** when the server has closed the connection before
the body is complete: `recv` returns 0 each time, which `_NO_MORE` does not take for an end. -/
lemma diverges_copyBody_closed {f : Frame Buffer}
    (hshort : (f.source.pending.length : ℤ) < f.contentLength)
    (hclosed : f.source.sock.closing = .closed) : Buffer.source.copyBody.Diverges f := by
  refine diverges_loop (I := fun f => (f.source.pending.length : ℤ) < f.contentLength ∧
    f.source.sock.closing = .closed) ?_ ⟨hshort, hclosed⟩
  rintro f ⟨hshort, hclosed⟩
  have hpos : 0 < f.contentLength := by omega
  have hact := ends_act Buffer.copySome f
  by_cases hnil : f.source.pending = []
  · -- nothing is copied and nothing has changed
    have hbytes : f.source.sock.bytes = [] := by
      rwa [Buffer.pending_of_le (Buffer.iovLen_le_of_pending hnil)] at hnil
    have hpending : ((f.source.fill [] f.source.sock).advance 0).pending = [] := by
      simpa [Buffer.advance] using (Buffer.pending_fill f.source [] f.source.sock).trans hbytes
    have hzero : min f.contentLength ((f.source.fill [] f.source.sock).iovLen -
        (f.source.fill [] f.source.sock).len) = 0 := by
      simp only [Buffer.fill, List.length_nil, Nat.cast_zero, sub_zero]
      omega
    rw [Buffer.copySome, if_pos hpos, Buffer.noMore_of_closed hnil hclosed] at hact
    simp only [hzero] at hact
    refine ⟨_, hact, ?_, hclosed⟩
    show ((((f.source.fill [] f.source.sock).advance 0).pending).length : ℤ) < f.contentLength - 0
    rw [hpending, List.length_nil]
    omega
  · obtain ⟨n, b, -, hle, -, hround, hpending, hclosing⟩ := copySome_of_pending hpos hnil
    rw [hround] at hact
    refine ⟨_, hact, ?_, hclosing.trans hclosed⟩
    show (b.pending.length : ℤ) < f.contentLength - n
    rw [hpending, List.length_drop]
    omega

lemma simulates_copyBody :
    Simulates (Delivers closing) Buffer.source.copyBody (streamSource closing).copyBody := by
  rintro f g h o g' hg
  by_cases hlong : g.contentLength.toNat ≤ g.source.length ∨ closing = .failed
  · obtain ⟨rfl, rfl⟩ := hg.unique (ends_copyBody closing hlong)
    exact delivers_copyBody h hlong
  · obtain ⟨hlt, hfails⟩ := not_or.1 hlong
    cases closing with
    | failed => exact absurd rfl hfails
    | closed => exact absurd hg (diverges_copyBody (by omega)).not_ends

/-! Every part of the function reads the same from both. -/

lemma simulates_fail {α : Type} (code : ℤ) :
    Simulates (Delivers closing) (fail (α := α) code) (fail code) :=
  simulates_jump fun _ _ h => { h with retCode := rfl }

lemma simulates_gotoEnd {α : Type} :
    Simulates (Delivers closing) (gotoEnd (α := α)) gotoEnd :=
  simulates_jump fun _ _ h => h

lemma simulates_loopNext {p : Char → Program (Frame Buffer) Bool}
    {q : Char → Program (Frame (List Char)) Bool}
    (h : ∀ ch, Simulates (Delivers closing) (p ch) (q ch)) :
    Simulates (Delivers closing) (loopNext Buffer.source p) (loopNext (streamSource closing) q) :=
  (simulates_getNextChar.bind fun ch => (simulates_fail _).ite (h ch)).loop

lemma simulates_readUntil (c : Char) :
    Simulates (Delivers closing) (readUntil Buffer.source c) (readUntil (streamSource closing) c) :=
  simulates_loopNext fun _ => (simulates_pure _).ite (simulates_pure _)

lemma simulates_digit {vary : (ℤ → ℤ) → Frame Buffer → Frame Buffer}
    {vary' : (ℤ → ℤ) → Frame (List Char) → Frame (List Char)}
    (h : ∀ g f f', Delivers closing f f' → Delivers closing (vary g f) (vary' g f')) (base d : ℤ) :
    Simulates (Delivers closing) (digit vary base d) (digit vary' base d) :=
  simulates_act fun f f' hf => ⟨rfl, h _ f f' hf⟩

lemma delivers_varyRetCode (g : ℤ → ℤ) (f : Frame Buffer) (f' : Frame (List Char))
    (h : Delivers closing f f') : Delivers closing (f.varyRetCode g) (f'.varyRetCode g) :=
  { h with retCode := congrArg g h.retCode }

lemma delivers_varyContentLength (g : ℤ → ℤ) (f : Frame Buffer) (f' : Frame (List Char))
    (h : Delivers closing f f') : Delivers closing (f.varyContentLength g)
      (f'.varyContentLength g) :=
  { h with contentLength := congrArg g h.contentLength }

lemma simulates_getNumber {vary : (ℤ → ℤ) → Frame Buffer → Frame Buffer}
    {vary' : (ℤ → ℤ) → Frame (List Char) → Frame (List Char)}
    (h : ∀ g f f', Delivers closing f f' → Delivers closing (vary g f) (vary' g f')) :
    Simulates (Delivers closing) (getNumber Buffer.source vary)
      (getNumber (streamSource closing) vary') :=
  simulates_loopNext fun _ => (simulates_digit h _ _).ite (simulates_pure _)

lemma simulates_getChunkedLen (c : Char) :
    Simulates (Delivers closing) (getChunkedLen Buffer.source Frame.varyContentLength c)
      (getChunkedLen (streamSource closing) Frame.varyContentLength c) := by
  have hdigit : ∀ base d, Simulates (Delivers closing) (digit Frame.varyContentLength base d)
      (digit Frame.varyContentLength base d) := simulates_digit delivers_varyContentLength
  exact simulates_loopNext fun _ => (hdigit _ _).ite <| (hdigit _ _).ite <| (hdigit _ _).ite <|
    (simulates_fail _).ite (simulates_pure _)

lemma simulates_readName (cs : List Char) :
    Simulates (Delivers closing) (readName Buffer.source cs)
      (readName (streamSource closing) cs) := by
  induction cs with
  | nil => exact simulates_pure true
  | cons c cs ih => exact simulates_getNextChar.bind fun _ => (simulates_pure _).ite ih

lemma simulates_expect (cs : List Char) :
    Simulates (Delivers closing) (expect Buffer.source cs) (expect (streamSource closing) cs) := by
  induction cs with
  | nil => exact simulates_pure ()
  | cons c cs ih => exact simulates_getNextChar.bind fun _ => (simulates_fail _).ite ih

lemma simulates_chunkSize :
    Simulates (Delivers closing) (chunkSize Buffer.source) (chunkSize (streamSource closing)) := by
  refine (simulates_getChunkedLen _).bind fun _ => (simulates_expect _).bind fun _ => ?_
  refine (simulates_read fun _ _ h => h.contentLength).bind fun _ => ?_
  exact ((simulates_expect _).bind fun _ => simulates_gotoEnd).ite (simulates_pure _)

lemma simulates_nextChunk :
    Simulates (Delivers closing) (nextChunk Buffer.source) (nextChunk (streamSource closing)) :=
  (simulates_expect _).bind fun _ => simulates_chunkSize.bind fun _ =>
    simulates_copyBody.bind fun _ => simulates_pure _

lemma simulates_readBody :
    Simulates (Delivers closing) (readBody Buffer.source) (readBody (streamSource closing)) := by
  refine (simulates_read fun _ _ h => h.chunked).bind fun _ => ?_
  refine Simulates.ite ?_ simulates_copyBody
  exact simulates_chunkSize.bind fun _ => simulates_copyBody.bind fun _ => simulates_nextChunk.loop

lemma simulates_checkChar :
    Simulates (Delivers closing) (checkChar (σ := Buffer)) checkChar :=
  (simulates_read fun _ _ h => h.ch).bind fun _ => (simulates_fail _).ite (simulates_pure _)

lemma simulates_caseOf {p : Program (Frame Buffer) Unit} {q : Program (Frame (List Char)) Unit}
    (h : Simulates (Delivers closing) p q) (name : List Char) :
    Simulates (Delivers closing) (caseOf Buffer.source name p)
      (caseOf (streamSource closing) name q) :=
  (simulates_readName name).bind fun _ => h.ite (simulates_pure _)

lemma simulates_headerLine :
    Simulates (Delivers closing) (headerLine Buffer.source)
      (headerLine (streamSource closing)) := by
  refine (simulates_readUntil _).bind fun _ => simulates_getNextChar.bind fun ch => ?_
  rw [lineCase, lineCase]
  refine Simulates.ite ?_ (Simulates.ite ?_ (Simulates.ite ?_ simulates_checkChar))
  · exact (simulates_caseOf (simulates_getNumber delivers_varyContentLength) _).bind fun _ =>
      simulates_checkChar
  · refine (simulates_caseOf (simulates_act fun f g h => ?_) _).bind fun _ => simulates_checkChar
    exact ⟨rfl, { h with chunked := rfl }⟩
  · exact (simulates_expect _).bind fun _ => simulates_readBody.bind fun _ => simulates_gotoEnd

/-- **The buffer reads what the text says.** -/
theorem simulates_response :
    Simulates (Delivers closing) (response Buffer.source) (response (streamSource closing)) :=
  (simulates_readUntil _).bind fun _ => (simulates_getNumber delivers_varyRetCode).bind fun _ =>
    simulates_headerLine.loop.bind fun _ => simulates_fail _

end Simulation

/-! ### A connection that is lost

Every part of the function ends, as each round of a loop takes a character. -/

section Lost

/-- What is still to be read. -/
def Frame.left (f : Frame (List Char)) : ℕ := f.source.length

lemma ends_fail {σ α : Type} (code : ℤ) (f : Frame σ) :
    (fail (α := α) code).Ends f .jump { f with retCode := code } := ends_jump _ f

lemma total_fail {α : Type} (code : ℤ) : Total Frame.left (fail (α := α) code) :=
  total_jump fun _ => le_rfl

lemma total_getNextChar : Total Frame.left (streamSource .failed).getNextChar := by
  intro f
  cases hsource : f.source with
  | nil => exact ⟨_, _, ends_next_of_fails hsource, le_rfl⟩
  | cons c cs => exact ⟨_, _, ends_next hsource, by simp [Frame.left, hsource]⟩

lemma consumes_loopNext {statement : Char → Program (Frame (List Char)) Bool}
    (h : ∀ ch, Total Frame.left (statement ch)) :
    Consumes Frame.left (loopNext (streamSource .failed) statement) := by
  refine Consumes.loop fun f => ?_
  cases hsource : f.source with
  | nil =>
    refine ⟨.jump, { f with ch := '\x00', retCode := -7 },
      (ends_next_of_fails hsource).bind ?_, le_rfl, fun hne => absurd rfl hne⟩
    exact ends_fail _ _
  | cons c cs =>
    obtain ⟨o, f', hends, hle⟩ := ((total_fail (-7)).ite (h c) :
      Total Frame.left (if c = '\x00' then fail (-7) else statement c))
        { f with ch := c, source := cs }
    refine ⟨o, f', (ends_next hsource).bind hends, ?_, fun _ => ?_⟩
    · simp only [Frame.left, hsource, List.length_cons] at hle ⊢
      omega
    · simp only [Frame.left, hsource, List.length_cons] at hle ⊢
      omega

lemma consumes_readUntil (c : Char) : Consumes Frame.left (readUntil (streamSource .failed) c) :=
  consumes_loopNext fun _ => (total_pure _).ite (total_pure _)

lemma consumes_getNumber {vary : (ℤ → ℤ) → Frame (List Char) → Frame (List Char)}
    (h : ∀ g f, (vary g f).source = f.source) :
    Consumes Frame.left (getNumber (streamSource .failed) vary) :=
  consumes_loopNext fun _ =>
    (total_act fun f => (congrArg List.length (h _ f)).le).ite (total_pure _)

lemma consumes_contentLength :
    Consumes Frame.left (getNumber (streamSource .failed) Frame.varyContentLength) :=
  consumes_getNumber fun _ _ => rfl

lemma consumes_retCode : Consumes Frame.left (getNumber (streamSource .failed) Frame.varyRetCode) :=
  consumes_getNumber fun _ _ => rfl

lemma total_getChunkedLen (c : Char) :
    Total Frame.left (getChunkedLen (streamSource .failed) Frame.varyContentLength c) := by
  have hdigit : ∀ base d, Total Frame.left (digit Frame.varyContentLength base d) :=
    fun _ _ => total_act fun _ => le_rfl
  exact (consumes_loopNext fun _ => (hdigit _ _).ite <| (hdigit _ _).ite <| (hdigit _ _).ite <|
    (total_fail _).ite (total_pure _)).total

lemma total_readName (cs : List Char) : Total Frame.left (readName (streamSource .failed) cs) := by
  induction cs with
  | nil => exact total_pure true
  | cons c cs ih => exact total_getNextChar.bind fun _ => (total_pure _).ite ih

lemma total_expect (cs : List Char) : Total Frame.left (expect (streamSource .failed) cs) := by
  induction cs with
  | nil => exact total_pure ()
  | cons c cs ih => exact total_getNextChar.bind fun _ => (total_fail _).ite ih

/-- `__` takes a character, or there is an error. -/
lemma consumes_expect {c : Char} (hc : c ≠ '\x00') (cs : List Char) :
    Consumes Frame.left (expect (streamSource .failed) (c :: cs)) := by
  intro f
  cases hsource : f.source with
  | nil =>
    refine ⟨.jump, { f with ch := '\x00', retCode := -9 },
      (ends_next_of_fails hsource).bind ?_, le_rfl, fun hne => absurd rfl hne⟩
    rw [if_pos hc.symm]
    exact ends_fail _ _
  | cons d ds =>
    obtain ⟨o, f', hends, hle⟩ := ((total_fail (-9)).ite (total_expect cs) :
      Total Frame.left (if d ≠ c then fail (-9) else expect (streamSource .failed) cs))
        { f with ch := d, source := ds }
    refine ⟨o, f', (ends_next hsource).bind hends, ?_, fun _ => ?_⟩
    · simp only [Frame.left, hsource, List.length_cons] at hle ⊢
      omega
    · simp only [Frame.left, hsource, List.length_cons] at hle ⊢
      omega

lemma total_copyBody : Total Frame.left (streamSource .failed).copyBody :=
  fun f => ⟨_, _, ends_copyBody .failed (.inr rfl), by simp [Frame.left, Frame.copied]⟩

lemma total_chunkSize : Total Frame.left (chunkSize (streamSource .failed)) := by
  refine (total_getChunkedLen _).bind fun _ => (total_expect _).bind fun _ => ?_
  refine (total_read _).bind fun _ => ?_
  exact ((total_expect _).bind fun _ => total_jump fun _ => le_rfl).ite (total_pure _)

lemma consumes_nextChunk : Consumes Frame.left (nextChunk (streamSource .failed)) :=
  (consumes_expect (by decide) _).bind fun _ => total_chunkSize.bind fun _ =>
    total_copyBody.bind fun _ => total_pure _

lemma total_readBody : Total Frame.left (readBody (streamSource .failed)) := by
  refine (total_read _).bind fun _ => Total.ite ?_ total_copyBody
  exact total_chunkSize.bind fun _ => total_copyBody.bind fun _ => consumes_nextChunk.loop.total

lemma total_checkChar : Total Frame.left (checkChar (σ := List Char)) :=
  (total_read _).bind fun _ => (total_fail _).ite (total_pure _)

lemma total_caseOf {p : Program (Frame (List Char)) Unit} (h : Total Frame.left p)
    (name : List Char) : Total Frame.left (caseOf (streamSource .failed) name p) :=
  (total_readName name).bind fun _ => h.ite (total_pure _)

lemma consumes_headerLine : Consumes Frame.left (headerLine (streamSource .failed)) := by
  refine (consumes_readUntil _).bind fun _ => total_getNextChar.bind fun ch => ?_
  rw [lineCase]
  refine Total.ite ?_ (Total.ite ?_ (Total.ite ?_ total_checkChar))
  · exact (total_caseOf consumes_contentLength.total _).bind fun _ => total_checkChar
  · exact (total_caseOf (total_act fun _ => le_rfl) _).bind fun _ => total_checkChar
  · exact (total_expect _).bind fun _ => total_readBody.bind fun _ => total_jump fun _ => le_rfl

/-- **The function returns**, whatever the server has sent before the connection was lost. -/
theorem total_response : Total Frame.left (response (streamSource .failed)) :=
  ((consumes_readUntil _).bind fun _ => consumes_retCode.total.bind fun _ =>
    consumes_headerLine.loop.total.bind fun _ => total_fail _).total

end Lost

end TradingEngine.InfluxdbCpp
