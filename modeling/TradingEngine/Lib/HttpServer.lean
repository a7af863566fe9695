/-
Requests of HTTP as a server reads them.

The first line holds a path and a form; the names and values of the form are decoded.  Header
lines follow up to an empty one, and then so much of a body as one of them says.
-/
import TradingEngine.Lib.Reader

namespace TradingEngine.Lib.HttpServer

open Reader

/-! ### Forms -/

/-- The value of a hexadecimal digit. -/
def hexDigit (c : Char) : Option ℕ :=
  if '0' ≤ c ∧ c ≤ '9' then some (c.toNat - '0'.toNat)
  else if 'A' ≤ c ∧ c ≤ 'F' then some (c.toNat - 'A'.toNat + 10)
  else if 'a' ≤ c ∧ c ≤ 'f' then some (c.toNat - 'a'.toNat + 10)
  else none

/-- What a text in a form stands for. -/
def decode : List Char → Option (List Char)
  | [] => some []
  | '+' :: cs => (' ' :: ·) <$> decode cs
  | '%' :: high :: low :: cs => do
    let h ← hexDigit high
    let l ← hexDigit low
    (Char.ofNat (16 * h + l) :: ·) <$> decode cs
  | c :: cs => if c = '%' then none else (c :: ·) <$> decode cs

/-- The characters that have a meaning in a form or end it. -/
def special : List Char := ['+', '%', '&', '=', ' ', '#', '\r', '\n']

lemma decode_cons {c : Char} (h : c ≠ '+') (h' : c ≠ '%') (cs : List Char) :
    decode (c :: cs) = (c :: ·) <$> decode cs := by
  rw [decode.eq_4, if_neg h'] <;> simp_all

/-- What a character other than `%` stands for. -/
def plain (c : Char) : Char := if c = '+' then ' ' else c

/-- Without `%` every character stands for one. -/
lemma decode_append {front : List Char} (h : Free ['%'] front) (rest : List Char) :
    decode (front ++ rest) = (front.map plain ++ ·) <$> decode rest := by
  induction front with
  | nil =>
    rw [List.nil_append]
    cases decode rest <;> rfl
  | cons c front ih =>
    have hc : c ≠ '%' := fun heq => h c List.mem_cons_self (by simp [heq])
    have hfirst : decode (c :: (front ++ rest)) = (plain c :: ·) <$> decode (front ++ rest) := by
      by_cases hplus : c = '+'
      · rw [hplus]
        rfl
      · rw [decode_cons hplus hc, plain, if_neg hplus]
    rw [List.cons_append, hfirst, ih h.of_cons]
    cases decode rest <;> rfl

/-- A text without special characters stands for itself. -/
lemma decode_of_free {text : List Char} (h : Free special text) : decode text = some text := by
  have hpercent : Free ['%'] text := fun c hc hmem =>
    h c hc (by rw [List.mem_singleton.1 hmem]; decide)
  have hplain : text.map plain = text := by
    refine (List.map_congr_left fun c hc => ?_).trans (List.map_id text)
    refine if_neg ?_
    rintro rfl
    exact h '+' hc (by decide)
  have hdecode := decode_append hpercent []
  rw [List.append_nil, hplain] at hdecode
  rw [hdecode]
  show some (text ++ []) = _
  rw [List.append_nil]

/-! ### Readers -/

/-- The text up to one of these characters. -/
def upToStop (stops : List Char) : Reader (List Char) := fun cs =>
  some (cs.takeWhile (· ∉ stops), cs.dropWhile (· ∉ stops))

lemma reads_upToStop {stops text : List Char} (h : Free stops text) :
    Reads (· ∈ stops) (upToStop stops) text text := by
  intro rest hrest
  have hgo : ∀ c ∈ text, decide (c ∉ stops) = true := fun c hc => decide_eq_true (h c hc)
  show some _ = _
  rw [List.takeWhile_append_of_pos hgo, List.dropWhile_append_of_pos hgo]
  cases rest with
  | nil => simp
  | cons c cs =>
    have hc : c ∈ stops := by simpa using hrest
    simp [hc]

/-- These characters. -/
def chars : List Char → Reader Unit
  | [] => pure ()
  | c :: cs => do
    char c
    chars cs

lemma reads_chars (P : Char → Bool) (cs : List Char) : Reads P (chars cs) cs () := by
  induction cs with
  | nil => exact Reads.pure P ()
  | cons c cs ih => exact ih.char_bind

lemma reads_chars_bind {β : Type} {P : Char → Bool} {cs t : List Char} {f : Unit → Reader β} {y : β}
    (hf : Reads P (f ()) t y) : Reads P (chars cs >>= f) (cs ++ t) y :=
  (reads_chars (fun _ => true) cs).bind hf fun _ _ _ _ => rfl

/-- Exactly so many characters. -/
def take (n : ℕ) : Reader (List Char) := fun cs =>
  if n ≤ cs.length then some (cs.take n, cs.drop n) else none

lemma reads_take (P : Char → Bool) (text : List Char) : Reads P (take text.length) text text := by
  intro rest _
  show (if _ then _ else _) = _
  rw [if_pos (by simp), List.take_left, List.drop_left]

/-! ### Requests -/

/-- A request, as the server understands it. -/
structure Request where
  method : List Char
  path : List Char
  form : List (List Char × List Char)
  headers : List (List Char × List Char)
  body : List Char
  deriving DecidableEq

/-- What ends a name or a value in a form. -/
def endsPart : List Char := ['&', '=', ' ']

/-- A name and a value, as they are written. -/
def pair : Reader (List Char × List Char) := do
  let name ← upToStop endsPart
  char '='
  let value ← upToStop endsPart
  return (name, value)

/-- A name and its value, decoded. -/
def decodePair (p : List Char × List Char) : Option (List Char × List Char) := do
  let name ← decode p.1
  let value ← decode p.2
  return (name, value)

/-- The form after the path: pairs with `&` between them, each decoded. -/
def form : Reader (List (List Char × List Char)) := do
  let first ← pair
  let others ← many '&' pair
  match (first :: others).mapM decodePair with
  | some pairs => return pairs
  | none => failure

/-- Lines up to an empty one, at most `n`. -/
def headers : ℕ → Reader (List (List Char × List Char))
  | 0, _ => none
  | _ + 1, '\r' :: cs => (do
      char '\n'
      return []).run cs
  | n + 1, cs => (do
      let name ← upToStop [':']
      chars [':', ' ']
      let value ← upToStop ['\r']
      chars ['\r', '\n']
      let others ← headers n
      return (name, value) :: others).run cs

/-- A text that is a number. -/
def wholeNumber (text : List Char) : Option ℕ :=
  match natural.run text with
  | some (n, []) => some n
  | _ => none

lemma wholeNumber_toDigits (n : ℕ) : wholeNumber (Nat.toDigits 10 n) = some n := by
  have hread := reads_natural n [] (next_nil _)
  rw [List.append_nil] at hread
  rw [wholeNumber, hread]

/-- The length that a line gives; 0 without such a line. -/
def contentLength (headers : List (List Char × List Char)) : Option ℕ :=
  match headers.lookup "Content-Length".toList with
  | none => some 0
  | some value => wholeNumber value

/-- The method, the path and the form of a request. -/
def requestLine : Reader (List Char × List Char × List (List Char × List Char)) := do
  let method ← upToStop [' ']
  chars [' ', '/']
  let path ← upToStop ['?']
  char '?'
  let form ← form
  chars (" HTTP/1.1".toList ++ ['\r', '\n'])
  return (method, path, form)

/-- The body, of the length that the headers announce. -/
def bodyOf (headers : List (List Char × List Char)) : Reader (List Char) :=
  match contentLength headers with
  | none => failure
  | some n => take n

/-- A request with less than `n` lines. -/
def requestUpTo (n : ℕ) : Reader Request := do
  let line ← requestLine
  let headers ← headers n
  let body ← bodyOf headers
  return ⟨line.1, line.2.1, line.2.2, headers, body⟩

/-- A whole request. -/
def request : Reader Request := fun cs => requestUpTo cs.length cs

/-! ### Requests as they are written -/

/-- A pair of a form. -/
def writePair (p : List Char × List Char) : List Char := p.1 ++ '=' :: p.2

/-- A form. -/
def writeForm (first : List Char × List Char) (others : List (List Char × List Char)) : List Char :=
  writePair first ++ others.flatMap fun p => '&' :: writePair p

/-- Neither a name nor a value ends before its end. -/
def PairOk (p : List Char × List Char) : Prop :=
  Free endsPart p.1 ∧ Free endsPart p.2

lemma reads_pair {p : List Char × List Char} (h : PairOk p) :
    Reads (· ∈ endsPart) pair (writePair p) p := by
  have hvalue := (reads_upToStop h.2).map fun value => (p.1, value)
  have hrest : Reads (· ∈ endsPart) (do
      char '='
      let value ← upToStop endsPart
      return (p.1, value)) ('=' :: p.2) p := hvalue.char_bind
  exact (reads_upToStop h.1).bind_cons hrest rfl

/-- A form is followed by a blank. -/
lemma reads_form {p : List Char × List Char} {ps pairs : List (List Char × List Char)}
    (h : ∀ q ∈ p :: ps, PairOk q) (hpairs : (p :: ps).mapM decodePair = some pairs) :
    Reads (· ∈ [' ']) form (writeForm p ps) pairs := by
  have hothers : Reads (· ∈ [' ']) (many '&' pair) (ps.flatMap fun q => '&' :: writePair q) ps :=
    reads_many (fun q hq => reads_pair (h q (List.mem_cons_of_mem p hq))) rfl
      (by simp [endsPart]) rfl
  have hfirst := reads_pair (h p List.mem_cons_self)
  have hdecode : Reads (· ∈ [' ']) (do
      let others ← many '&' pair
      match (p :: others).mapM decodePair with
      | some pairs => return pairs
      | none => failure) (ps.flatMap fun q => '&' :: writePair q) pairs := by
    intro rest hrest
    rw [StateT.run_bind, hothers rest hrest]
    show StateT.run (match (p :: ps).mapM decodePair with | some _ => _ | none => _) rest = _
    rw [hpairs]
    rfl
  refine hfirst.bind hdecode fun rest hrest => ?_
  refine next_flatMap rfl writePair ps (hrest.mono ?_)
  simp [endsPart]

/-- A header line as it is written. -/
def writeHeader (p : List Char × List Char) : List Char :=
  p.1 ++ [':', ' '] ++ p.2 ++ ['\r', '\n']

/-- A header that is read as it is written. -/
structure HeaderOk (p : List Char × List Char) : Prop where
  name : Free [':'] p.1
  head : p.1.head? ≠ some '\r'
  value : Free ['\r'] p.2

lemma reads_header {p : List Char × List Char} (h : HeaderOk p)
    {r : Reader (List (List Char × List Char))}
    {text : List Char} {ps : List (List Char × List Char)} (hr : Reads (fun _ => true) r text ps) :
    Reads (fun _ => true) (do
      let name ← upToStop [':']
      chars [':', ' ']
      let value ← upToStop ['\r']
      chars ['\r', '\n']
      let others ← r
      return (name, value) :: others) (writeHeader p ++ text) (p :: ps) := by
  have hname : Reads (· ∈ [':']) (upToStop [':']) p.1 p.1 :=
    reads_upToStop h.name
  have hvalue : Reads (· ∈ ['\r']) (upToStop ['\r']) p.2 p.2 :=
    reads_upToStop h.value
  have hothers : Reads (fun _ => true) (do
      chars ['\r', '\n']
      let others ← r
      return (p.1, p.2) :: others) (['\r', '\n'] ++ text) (p :: ps) :=
    reads_chars_bind (hr.map fun others => p :: others)
  have hline : Reads (fun _ => true) (do
      chars [':', ' ']
      let value ← upToStop ['\r']
      chars ['\r', '\n']
      let others ← r
      return (p.1, value) :: others) ([':', ' '] ++ (p.2 ++ (['\r', '\n'] ++ text))) (p :: ps) :=
    reads_chars_bind (hvalue.bind_cons hothers rfl)
  have htext : writeHeader p ++ text =
      p.1 ++ ([':', ' '] ++ (p.2 ++ (['\r', '\n'] ++ text))) := by
    simp [writeHeader]
  rw [htext]
  exact hname.bind_cons hline rfl

lemma headers_cons {n : ℕ} {cs : List Char} (h : cs.head? ≠ some '\r') :
    (headers (n + 1)).run cs = (do
      let name ← upToStop [':']
      chars [':', ' ']
      let value ← upToStop ['\r']
      chars ['\r', '\n']
      let others ← headers n
      return (name, value) :: others : Reader (List (List Char × List Char))).run cs := by
  show headers (n + 1) cs = _
  rw [headers.eq_3]
  rintro ds rfl
  exact h rfl

lemma reads_headers {ps : List (List Char × List Char)} (h : ∀ p ∈ ps, HeaderOk p) {n : ℕ}
    (hn : ps.length < n) :
    Reads (fun _ => true) (headers n) (ps.flatMap writeHeader ++ ['\r', '\n']) ps := by
  induction ps generalizing n with
  | nil =>
    obtain ⟨n, rfl⟩ : ∃ m, n = m + 1 := ⟨n - 1, by omega⟩
    exact fun rest _ => rfl
  | cons p ps ih =>
    obtain ⟨n, rfl⟩ : ∃ m, n = m + 1 := ⟨n - 1, by omega⟩
    have hp := h p List.mem_cons_self
    have hothers := ih (fun q hq => h q (List.mem_cons_of_mem p hq)) (Nat.lt_of_succ_lt_succ hn)
    intro rest hrest
    have hhead : (((p :: ps).flatMap writeHeader ++ ['\r', '\n']) ++ rest).head? ≠ some '\r' := by
      have hname := hp.head
      rw [List.flatMap_cons, writeHeader]
      cases hp1 : p.1 with
      | nil => simp
      | cons c cs =>
        rw [hp1] at hname
        simpa using hname
    rw [headers_cons hhead, List.flatMap_cons, List.append_assoc (writeHeader p)]
    exact reads_header hp hothers rest hrest

/-- A request as a client writes it, with what stands for the names and values of its form. -/
structure RequestText where
  method : List Char
  path : List Char
  first : List Char × List Char
  others : List (List Char × List Char)
  headers : List (List Char × List Char)
  body : List Char

namespace RequestText

/-- The first line of a request. -/
def writeLine (t : RequestText) : List Char :=
  t.method ++ [' ', '/'] ++ t.path ++ '?' :: writeForm t.first t.others ++
    (" HTTP/1.1".toList ++ ['\r', '\n'])

/-- The text of a request. -/
def write (t : RequestText) : List Char :=
  t.writeLine ++ ((t.headers.flatMap writeHeader ++ ['\r', '\n']) ++ t.body)

/-- What the text stands for. -/
def request (t : RequestText) (form : List (List Char × List Char)) : Request :=
  ⟨t.method, t.path, form, t.headers, t.body⟩

/-- A text that is read as it is written, with the decoded form. -/
structure Ok (t : RequestText) (form : List (List Char × List Char)) : Prop where
  method : Free [' '] t.method
  path : Free ['?'] t.path
  pairs : ∀ p ∈ t.first :: t.others, PairOk p
  form : (t.first :: t.others).mapM decodePair = some form
  headers : ∀ p ∈ t.headers, HeaderOk p
  contentLength : contentLength t.headers = some t.body.length

lemma reads_requestLine {t : RequestText} {form : List (List Char × List Char)} (h : t.Ok form) :
    Reads (fun _ => true) requestLine t.writeLine (t.method, t.path, form) := by
  have hend : Reads (fun _ => true) (do
      chars (" HTTP/1.1".toList ++ ['\r', '\n'])
      return (t.method, t.path, form)) ((" HTTP/1.1".toList ++ ['\r', '\n']) ++ [])
      (t.method, t.path, form) := reads_chars_bind (Reads.pure _ _)
  have hform : Reads (fun _ => true) (do
      let form ← HttpServer.form
      chars (" HTTP/1.1".toList ++ ['\r', '\n'])
      return (t.method, t.path, form))
      (writeForm t.first t.others ++ ((" HTTP/1.1".toList ++ ['\r', '\n']) ++ []))
      (t.method, t.path, form) :=
    (reads_form h.pairs h.form).bind hend fun _ _ => next_cons.2 rfl
  have hpath : Reads (fun _ => true) (do
      chars [' ', '/']
      let path ← upToStop ['?']
      char '?'
      let form ← HttpServer.form
      chars (" HTTP/1.1".toList ++ ['\r', '\n'])
      return (t.method, path, form))
      ([' ', '/'] ++ (t.path ++ '?' ::
        (writeForm t.first t.others ++ ((" HTTP/1.1".toList ++ ['\r', '\n']) ++ []))))
      (t.method, t.path, form) :=
    reads_chars_bind ((reads_upToStop h.path).bind_cons
      hform.char_bind rfl)
  have htext : t.writeLine = t.method ++ ([' ', '/'] ++ (t.path ++ '?' ::
      (writeForm t.first t.others ++ ((" HTTP/1.1".toList ++ ['\r', '\n']) ++ [])))) := by
    simp only [writeLine, List.append_assoc, List.append_nil, List.cons_append]
  rw [htext]
  exact (reads_upToStop h.method).bind hpath
    fun _ _ => next_cons.2 rfl

lemma reads_bodyOf {t : RequestText} {form : List (List Char × List Char)} (h : t.Ok form) :
    Reads (fun _ => true) (bodyOf t.headers) t.body t.body := by
  rw [bodyOf, h.contentLength]
  exact reads_take _ t.body

lemma length_le_flatMap_writeHeader (ps : List (List Char × List Char)) :
    ps.length ≤ (ps.flatMap writeHeader).length := by
  induction ps with
  | nil => exact le_rfl
  | cons p ps ih =>
    rw [List.flatMap_cons, List.length_append, writeHeader]
    simp only [List.length_append, List.length_cons]
    omega

/-- **A request is read back** from its text, whatever comes after it. -/
theorem reads_request {t : RequestText} {form : List (List Char × List Char)} (h : t.Ok form) :
    Reads (fun _ => true) HttpServer.request t.write (t.request form) := by
  intro rest hrest
  have hlines : t.headers.length < (t.write ++ rest).length := by
    have hle := length_le_flatMap_writeHeader t.headers
    simp only [write, List.length_append, List.length_cons]
    omega
  have hmessage : Reads (fun _ => true) (do
      let headers ← HttpServer.headers (t.write ++ rest).length
      let body ← bodyOf headers
      return Request.mk t.method t.path form headers body)
      ((t.headers.flatMap writeHeader ++ ['\r', '\n']) ++ t.body) (t.request form) :=
    (reads_headers h.headers hlines).bind ((reads_bodyOf h).map _) fun _ _ _ _ => rfl
  have hrequest : Reads (fun _ => true) (requestUpTo (t.write ++ rest).length) t.write
      (t.request form) :=
    (reads_requestLine h).bind hmessage fun _ _ _ _ => rfl
  exact hrequest rest hrest

end RequestText

end TradingEngine.Lib.HttpServer
