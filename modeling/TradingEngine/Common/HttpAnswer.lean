/-
What `http_request` reads from an answer of the server.

An answer is a status line, header lines and a body.  The lines are read one by one; a line with
another name is passed over, wherever in it the `switch` has stopped.
-/
import TradingEngine.Lib.Reader
import TradingEngine.Common.HttpStream

namespace TradingEngine.InfluxdbCpp

open Lib Program

variable {closing : Closing} {f f' : Frame (List Char)}

/-- The frame after the last character that was read and what comes after it. -/
def Frame.after (f : Frame (List Char)) (c : Char) (cs : List Char) : Frame (List Char) :=
  { f with ch := c, source := cs }

/-! ### Characters -/

section Loops

variable {statement : Char → Program (Frame (List Char)) Bool} {c : Char} {cs : List Char}

lemma loopNext_again {o : Outcome Unit} {f₁ : Frame (List Char)} (h : f.source = c :: cs)
    (hc : c ≠ '\x00') (hs : (statement c).Ends (f.after c cs) (.value true) f₁)
    (hloop : (loopNext (streamSource closing) statement).Ends f₁ o f') :
    (loopNext (streamSource closing) statement).Ends f o f' := by
  refine Ends.loop_again ((ends_next h).bind ?_) hloop
  rwa [if_neg hc]

lemma loopNext_done (h : f.source = c :: cs) (hc : c ≠ '\x00')
    (hs : (statement c).Ends (f.after c cs) (.value false) f') :
    (loopNext (streamSource closing) statement).Ends f (.value ()) f' := by
  refine Ends.loop_done ((ends_next h).bind ?_)
  rwa [if_neg hc]

end Loops

lemma ends_readUntil {c : Char} (hc : c ≠ '\x00') {text rest : List Char}
    (htext : Reader.Free [c, '\x00'] text) (h : f.source = text ++ c :: rest) :
    (readUntil (streamSource closing) c).Ends f (.value ()) (f.after c rest) := by
  induction text generalizing f with
  | nil =>
    refine loopNext_done h hc ?_
    rw [if_pos rfl]
    exact ends_pure _ _
  | cons d text ih =>
    have hd := htext d List.mem_cons_self
    simp only [List.mem_cons, List.not_mem_nil, or_false, not_or] at hd
    have hrest := ih (f := f.after d (text ++ c :: rest)) htext.of_cons rfl
    refine loopNext_again h hd.2 ?_ hrest
    rw [if_neg hd.1]
    exact ends_pure _ _

lemma ends_expect {cs rest : List Char} (h : f.source = cs ++ rest) (hne : cs ≠ []) :
    (expect (streamSource closing) cs).Ends f (.value ()) (f.after (cs.getLast hne) rest) := by
  induction cs generalizing f with
  | nil => exact absurd rfl hne
  | cons c cs ih =>
    refine (ends_next h).bind ?_
    rw [if_neg (not_not.2 rfl)]
    cases cs with
    | nil => exact ends_pure _ _
    | cons d ds => exact ih (f := f.after c (d :: ds ++ rest)) rfl (List.cons_ne_nil d ds)

/-! ### Numbers -/

/-- What the ways to change a variable have in common. -/
structure Lawful (vary : (ℤ → ℤ) → Frame (List Char) → Frame (List Char)) : Prop where
  source : ∀ g f, (vary g f).source = f.source
  after : ∀ g f c cs, vary g (f.after c cs) = (vary g f).after c cs
  comp : ∀ g h f, vary g (vary h f) = vary (g ∘ h) f
  id : ∀ f, vary id f = f

lemma lawful_varyRetCode : Lawful Frame.varyRetCode :=
  ⟨fun _ _ => rfl, fun _ _ _ _ => rfl, fun _ _ _ => rfl, fun _ => rfl⟩

lemma lawful_varyContentLength : Lawful Frame.varyContentLength :=
  ⟨fun _ _ => rfl, fun _ _ _ _ => rfl, fun _ _ _ => rfl, fun _ => rfl⟩

section Numbers

variable {base : ℕ} {val : Char → ℕ}

/-- The number that digits stand for. -/
def number (base : ℕ) (val : Char → ℕ) (digits : List Char) (n : ℕ) : ℕ :=
  digits.foldl (fun n d => base * n + val d) n

lemma le_number (hbase : 0 < base) (digits : List Char) (n : ℕ) :
    n ≤ number base val digits n := by
  induction digits generalizing n with
  | nil => exact le_rfl
  | cons d digits ih =>
    calc n ≤ base * n + val d := by nlinarith
      _ ≤ number base val (d :: digits) n := ih _

/-- A number that an `int` can hold is read without an overflow on the way. -/
lemma toInt_digit (hbase : 0 < base) {digits : List Char} {d : Char} {n : ℕ}
    (hlt : number base val (d :: digits) n < 2 ^ 31) :
    toInt ((n : ℤ) * base + val d) = ((base * n + val d : ℕ) : ℤ) := by
  have hle : base * n + val d ≤ number base val (d :: digits) n := le_number hbase digits _
  have hcast : ((n : ℤ) * base + val d) = ((base * n + val d : ℕ) : ℤ) := by
    push_cast
    ring
  rw [hcast]
  exact toInt_eq ⟨by omega, by omega⟩

/-- **A number is read** up to the first character that is no digit. -/
lemma ends_number {vary : (ℤ → ℤ) → Frame (List Char) → Frame (List Char)} (hvary : Lawful vary)
    {statement : Char → Program (Frame (List Char)) Bool} (hbase : 0 < base)
    {digits rest : List Char} {stop : Char}
    (hdigits : ∀ d ∈ digits, d ≠ '\x00' ∧ statement d = digit vary base (val d))
    (hstop : stop ≠ '\x00' ∧ statement stop = pure false) {n : ℕ}
    (hlt : number base val digits n < 2 ^ 31) (h : f.source = digits ++ stop :: rest) :
    (loopNext (streamSource closing) statement).Ends (vary (fun _ => n) f) (.value ())
      ((vary (fun _ => number base val digits n) f).after stop rest) := by
  induction digits generalizing f n with
  | nil =>
    refine loopNext_done ((hvary.source _ _).trans h) hstop.1 ?_
    rw [hstop.2]
    exact ends_pure _ _
  | cons d digits ih =>
    obtain ⟨hd, hdigit⟩ := hdigits d List.mem_cons_self
    have hstep := toInt_digit hbase hlt
    have hrest := ih (f := f.after d (digits ++ stop :: rest))
      (fun e he => hdigits e (List.mem_cons_of_mem d he)) hlt rfl
    rw [hvary.after, hvary.after] at hrest
    refine loopNext_again ((hvary.source _ _).trans h) hd ?_ hrest
    rw [hdigit]
    have hact := ends_act (fun f => (true, vary (fun n => toInt (n * base + val d)) f))
      ((vary (fun _ => (n : ℤ)) f).after d (digits ++ stop :: rest))
    simp only [hvary.after, hvary.comp] at hact
    have hvalue : ((fun n => toInt (n * base + val d)) ∘ fun _ : ℤ => (n : ℤ)) =
        fun _ => ((base * n + val d : ℕ) : ℤ) := by
      funext m
      rw [Function.comp_apply, hstep]
    rwa [hvalue] at hact

end Numbers

/-- The value of a decimal digit. -/
def decimal (c : Char) : ℕ := c.toNat - '0'.toNat

lemma isDigit_iff {c : Char} : c.isDigit = true ↔ '0' ≤ c ∧ c ≤ '9' := by
  simp [Char.isDigit, Char.le_def, UInt32.le_iff_toNat_le]

lemma decimal_cast {c : Char} (h : '0' ≤ c) : (decimal c : ℤ) = c.toNat - '0'.toNat := by
  have hle : '0'.toNat ≤ c.toNat := h
  rw [decimal]
  omega

lemma number_toDigits (n : ℕ) : number 10 decimal (Nat.toDigits 10 n) 0 = n := by
  have hdigits : Nat.ofDigitChars 10 (Nat.toDigits 10 n) 0 = n := Nat.ofDigitChars_ten_toDigits
  rwa [Nat.ofDigitChars_eq_foldl] at hdigits

/-- **A decimal number is read** into a variable that is 0. -/
lemma ends_getNumber {vary : (ℤ → ℤ) → Frame (List Char) → Frame (List Char)}
    (hvary : Lawful vary) {n : ℕ} (hn : n < 2 ^ 31) {stop : Char} (hstop : stop ≠ '\x00')
    (hdigit : stop.isDigit = false) {rest : List Char} (hzero : vary (fun _ => 0) f = f)
    (h : f.source = Nat.toDigits 10 n ++ stop :: rest) :
    (getNumber (streamSource closing) vary).Ends f (.value ())
      ((vary (fun _ => n) f).after stop rest) := by
  have hdigits : ∀ d ∈ Nat.toDigits 10 n, d ≠ '\x00' ∧
      (if '0' ≤ d ∧ d ≤ '9' then digit vary 10 (d.toNat - '0'.toNat) else pure false) =
        digit vary (10 : ℕ) (decimal d) := by
    intro d hd
    have hisDigit : d.isDigit = true := Decimal.isDigit_of_mem hd
    have hbounds := isDigit_iff.1 hisDigit
    constructor
    · rintro rfl
      cases hisDigit
    · rw [if_pos hbounds, decimal_cast hbounds.1]
      rfl
  have hother : (if '0' ≤ stop ∧ stop ≤ '9' then digit vary 10 (stop.toNat - '0'.toNat)
      else pure false : Program (Frame (List Char)) Bool) = pure false := by
    refine if_neg ?_
    rw [← isDigit_iff, hdigit]
    exact Bool.false_ne_true
  have hnumber : (getNumber (streamSource closing) vary).Ends (vary (fun _ => (0 : ℕ)) f)
      (.value ())
      ((vary (fun _ => (number 10 decimal (Nat.toDigits 10 n) 0 : ℕ)) f).after stop rest) :=
    ends_number hvary (by norm_num) hdigits ⟨hstop, hother⟩ (by rwa [number_toDigits]) h
  rw [number_toDigits, Nat.cast_zero, hzero] at hnumber
  exact hnumber

/-! ### Lines -/

/-- A text inside of a line. -/
abbrev Clean (text : List Char) : Prop := Reader.Free ['\n', '\x00'] text

lemma clean_return : Clean ['\r'] := by decide

lemma Clean.ne {c : Char} {text : List Char} (h : Clean (c :: text)) : c ≠ '\x00' :=
  fun heq => h c List.mem_cons_self (by simp [heq])

/-- The function is inside of a line, at whose end this text goes on. -/
structure Inside (f : Frame (List Char)) (rest : List Char) : Prop where
  ch : f.ch ≠ '\x00'
  source : ∃ text, Clean text ∧ f.source = text ++ '\n' :: rest

/-- The rest of a line is passed over. -/
lemma Inside.ends_readUntil {rest : List Char} (h : Inside f rest) :
    (readUntil (streamSource closing) '\n').Ends f (.value ()) (f.after '\n' rest) := by
  obtain ⟨text, htext, hsource⟩ := h.source
  exact InfluxdbCpp.ends_readUntil (by decide) htext hsource

lemma ends_checkChar (h : f.ch ≠ '\x00') : (checkChar (σ := List Char)).Ends f (.value true) f := by
  refine (ends_read _ f).bind ?_
  rw [if_neg h]
  exact ends_pure _ _

/-- A name that is there is read to its end. -/
lemma ends_readName {name rest : List Char} (h : f.source = name ++ rest) (hne : name ≠ []) :
    (readName (streamSource closing) name).Ends f (.value true)
      (f.after (name.getLast hne) rest) := by
  induction name generalizing f with
  | nil => exact absurd rfl hne
  | cons c cs ih =>
    refine (ends_next h).bind ?_
    rw [if_neg (not_not.2 rfl)]
    cases cs with
    | nil => exact ends_pure _ _
    | cons d ds => exact ih (f := f.after c (d :: ds ++ rest)) rfl (List.cons_ne_nil d ds)

/-- The reading of another name stops somewhere in the line. -/
lemma ends_readName_other {name text rest : List Char} (hname : '\r' ∉ name) (htext : Clean text)
    (hother : ¬ name <+: text) (h : f.source = text ++ '\r' :: '\n' :: rest) :
    ∃ c cs, (readName (streamSource closing) name).Ends f (.value false) (f.after c cs) ∧
      Inside (f.after c cs) rest := by
  induction name generalizing f text with
  | nil => exact absurd List.nil_prefix hother
  | cons c name ih =>
    cases text with
    | nil =>
      have hne : '\r' ≠ c := fun heq => hname (List.mem_cons.2 (.inl heq))
      refine ⟨'\r', '\n' :: rest, (ends_next h).bind ?_,
        (by decide : '\r' ≠ '\x00'), [], by decide, rfl⟩
      rw [if_pos hne]
      exact ends_pure _ _
    | cons d text =>
      by_cases hdc : d = c
      · subst hdc
        have hprefix : ¬ name <+: text := fun hp => hother (List.cons_prefix_cons.2 ⟨rfl, hp⟩)
        obtain ⟨e, es, hends, hinside⟩ := ih (f := f.after d (text ++ '\r' :: '\n' :: rest))
          (fun hmem => hname (List.mem_cons_of_mem d hmem)) htext.of_cons hprefix rfl
        refine ⟨e, es, (ends_next h).bind ?_, hinside⟩
        rw [if_neg (not_not.2 rfl)]
        exact hends
      · refine ⟨d, text ++ '\r' :: '\n' :: rest, (ends_next h).bind ?_, htext.ne, text ++ ['\r'],
          htext.of_cons.append clean_return, by simp [Frame.after]⟩
        rw [if_pos hdc]
        exact ends_pure _ _

/-- A line that says nothing about the body. -/
structure OtherLine where
  text : List Char
  clean : Clean text
  ne_nil : text ≠ []
  head : text.head? ≠ some '\r'
  contentLength : ¬ ('C' :: contentLengthName) <+: text
  transferEncoding : ¬ ('T' :: transferEncodingName) <+: text

/-- **Another line changes nothing** that the function remembers. -/
lemma headerLine_other (closing : Closing) (line : OtherLine) {rest : List Char}
    (h : Inside f (line.text ++ '\r' :: '\n' :: rest)) :
    ∃ c cs, (headerLine (streamSource closing)).Ends f (.value true) (f.after c cs) ∧
      Inside (f.after c cs) rest := by
  obtain ⟨c, text, htext⟩ := List.exists_cons_of_ne_nil line.ne_nil
  have hclean : Clean (c :: text) := htext ▸ line.clean
  have hnext : (streamSource closing).getNextChar.Ends
      (f.after '\n' (line.text ++ '\r' :: '\n' :: rest)) (.value c)
      (f.after c (text ++ '\r' :: '\n' :: rest)) := by
    rw [htext]
    exact ends_next rfl
  suffices hcase : ∃ d ds, (lineCase (streamSource closing) c).Ends
      (f.after c (text ++ '\r' :: '\n' :: rest)) (.value true) (f.after d ds) ∧
        Inside (f.after d ds) rest by
    obtain ⟨d, ds, hends, hinside⟩ := hcase
    exact ⟨d, ds, h.ends_readUntil.bind (hnext.bind hends), hinside⟩
  -- a case that is left by `break`
  have hbreak : ∀ {name statement}, '\r' ∉ name → ¬ name <+: text →
      ∃ d ds, (caseOf (streamSource closing) name statement >>= fun _ => checkChar).Ends
        (f.after c (text ++ '\r' :: '\n' :: rest)) (.value true) (f.after d ds) ∧
          Inside (f.after d ds) rest := by
    intro name statement hname hother
    obtain ⟨d, ds, hends, hinside⟩ : ∃ d ds, (readName (streamSource closing) name).Ends
        (f.after c (text ++ '\r' :: '\n' :: rest)) (.value false) (f.after d ds) ∧
          Inside (f.after d ds) rest :=
      ends_readName_other hname hclean.of_cons hother rfl
    have hcase : (caseOf (streamSource closing) name statement).Ends
        (f.after c (text ++ '\r' :: '\n' :: rest)) (.value ()) (f.after d ds) := by
      refine hends.bind ?_
      rw [if_neg Bool.false_ne_true]
      exact ends_pure _ _
    exact ⟨d, ds, hcase.bind (ends_checkChar hinside.ch), hinside⟩
  rw [lineCase]
  split_ifs with hC hT hreturn
  · refine hbreak (by decide) fun hname => line.contentLength ?_
    rw [htext, hC]
    exact List.cons_prefix_cons.2 ⟨rfl, hname⟩
  · refine hbreak (by decide) fun hname => line.transferEncoding ?_
    rw [htext, hT]
    exact List.cons_prefix_cons.2 ⟨rfl, hname⟩
  · refine absurd ?_ line.head
    rw [htext, hreturn]
    rfl
  · exact ⟨c, _, ends_checkChar hclean.ne, hclean.ne, text ++ ['\r'],
      hclean.of_cons.append clean_return,
      by simp [Frame.after]⟩

/-- The first character of a line decides the case. -/
lemma headerLine_case {o : Outcome Bool} {c : Char} {cs : List Char} (h : Inside f (c :: cs))
    (hcase : (lineCase (streamSource closing) c).Ends (f.after c cs) o f') :
    (headerLine (streamSource closing)).Ends f o f' :=
  h.ends_readUntil.bind ((ends_next rfl).bind hcase)

/-- **The length is read** from its line. -/
lemma headerLine_contentLength {n : ℕ} (hn : n < 2 ^ 31) {rest : List Char}
    (hzero : f.contentLength = 0)
    (h : Inside f ('C' :: contentLengthName ++ Nat.toDigits 10 n ++ '\r' :: '\n' :: rest)) :
    (headerLine (streamSource closing)).Ends f (.value true)
      { f.after '\r' ('\n' :: rest) with contentLength := n } := by
  rw [List.cons_append, List.cons_append, List.append_assoc] at h
  have hname : (readName (streamSource closing) contentLengthName).Ends
      (f.after 'C' (contentLengthName ++ (Nat.toDigits 10 n ++ '\r' :: '\n' :: rest)))
      (.value true) (f.after ' ' (Nat.toDigits 10 n ++ '\r' :: '\n' :: rest)) :=
    ends_readName rfl (by decide)
  have hnumber : (getNumber (streamSource closing) Frame.varyContentLength).Ends
      (f.after ' ' (Nat.toDigits 10 n ++ '\r' :: '\n' :: rest)) (.value ())
      { f.after '\r' ('\n' :: rest) with contentLength := n } := by
    refine ends_getNumber lawful_varyContentLength hn (by decide : '\r' ≠ '\x00')
      (by decide : '\r'.isDigit = false) ?_ rfl
    rw [← hzero]
    rfl
  refine headerLine_case h ?_
  have hcase : (caseOf (streamSource closing) contentLengthName
      (getNumber (streamSource closing) Frame.varyContentLength)).Ends
      (f.after 'C' (contentLengthName ++ (Nat.toDigits 10 n ++ '\r' :: '\n' :: rest)))
      (.value ()) { f.after '\r' ('\n' :: rest) with contentLength := n } := by
    refine hname.bind ?_
    rwa [if_pos rfl]
  rw [lineCase, if_pos rfl]
  exact hcase.bind (ends_checkChar (by decide : '\r' ≠ '\x00'))

lemma headerLine_chunked {rest : List Char}
    (h : Inside f ('T' :: transferEncodingName ++ '\r' :: '\n' :: rest)) :
    (headerLine (streamSource closing)).Ends f (.value true)
      { f.after 'd' ('\r' :: '\n' :: rest) with chunked := true } := by
  have hcase : (caseOf (streamSource closing) transferEncodingName
      (act fun f => ((), { f with chunked := true }))).Ends
      (f.after 'T' (transferEncodingName ++ '\r' :: '\n' :: rest)) (.value ())
      { f.after 'd' ('\r' :: '\n' :: rest) with chunked := true } := by
    have hname : (readName (streamSource closing) transferEncodingName).Ends
        (f.after 'T' (transferEncodingName ++ '\r' :: '\n' :: rest)) (.value true)
        (f.after 'd' ('\r' :: '\n' :: rest)) := ends_readName rfl (by decide)
    refine hname.bind ?_
    rw [if_pos rfl]
    exact ends_act _ _
  refine headerLine_case (c := 'T') h ?_
  rw [lineCase, if_neg (by decide), if_pos rfl]
  exact hcase.bind (ends_checkChar (by decide : 'd' ≠ '\x00'))

/-- The empty line is the last one. -/
lemma headerLine_empty {o : Outcome Unit} {rest : List Char} (h : Inside f ('\r' :: '\n' :: rest))
    (hbody : (readBody (streamSource closing)).Ends (f.after '\n' rest) o f') :
    (headerLine (streamSource closing)).Ends f .jump f' := by
  have hexpect : (expect (streamSource closing) ['\n']).Ends (f.after '\r' ('\n' :: rest))
      (.value ())
      (f.after '\n' rest) := ends_expect rfl (by decide)
  refine headerLine_case h ?_
  rw [lineCase, if_neg (by decide), if_neg (by decide), if_pos rfl]
  refine hexpect.bind ?_
  cases o with
  | value _ => exact hbody.bind (ends_jump id f')
  | jump => exact hbody.bind_jump

/-- Any number of other lines. -/
lemma rounds_other (closing : Closing) (lines : List OtherLine) {rest : List Char}
    (h : Inside f ((lines.flatMap fun line => line.text ++ ['\r', '\n']) ++ rest)) :
    ∃ c cs, Rounds (headerLine (streamSource closing)) f (f.after c cs) ∧
      Inside (f.after c cs) rest := by
  induction lines generalizing f with
  | nil => exact ⟨f.ch, f.source, .refl, h⟩
  | cons line lines ih =>
    rw [List.flatMap_cons, List.append_assoc, List.append_assoc, List.cons_append,
      List.cons_append, List.nil_append] at h
    obtain ⟨c, cs, hline, hinside⟩ := headerLine_other closing line h
    obtain ⟨d, ds, hrounds, hrest⟩ := ih hinside
    exact ⟨d, ds, hline.rounds.trans hrounds, hrest⟩

/-! ### Bodies -/

/-- A body without chunks. -/
lemma ends_readBody_of_copyBody {o : Outcome Unit} (hchunked : f.chunked = false)
    (h : (streamSource closing).copyBody.Ends f o f') :
    (readBody (streamSource closing)).Ends f o f' := by
  refine (ends_read _ f).bind ?_
  rwa [hchunked, if_neg Bool.false_ne_true]

lemma ends_readBody {text more : List Char} (hchunked : f.chunked = false)
    (hlength : f.contentLength = text.length) (h : f.source = text ++ more) :
    (readBody (streamSource closing)).Ends f (.value ()) (f.copied text.length) := by
  refine ends_readBody_of_copyBody hchunked ?_
  have hcopy := ends_copyBody closing (f := f) (.inl (by simp [hlength, h]))
  have hmin : min f.contentLength.toNat f.source.length = text.length := by simp [hlength, h]
  rwa [hmin] at hcopy

/-- A hexadecimal digit, in upper or lower case. -/
def IsHexDigit (c : Char) : Prop :=
  ('0' ≤ c ∧ c ≤ '9') ∨ ('A' ≤ c ∧ c ≤ 'F') ∨ ('a' ≤ c ∧ c ≤ 'f')

instance (c : Char) : Decidable (IsHexDigit c) := inferInstanceAs (Decidable (_ ∨ _))

/-- Nothing but hexadecimal digits. -/
def IsHex (size : List Char) : Prop := ∀ c ∈ size, IsHexDigit c

instance (size : List Char) : Decidable (IsHex size) := List.decidableBAll IsHexDigit size

/-- The value of a hexadecimal digit. -/
def hexadecimal (c : Char) : ℕ :=
  if '0' ≤ c ∧ c ≤ '9' then c.toNat - '0'.toNat
  else if 'A' ≤ c ∧ c ≤ 'F' then c.toNat - 'A'.toNat + 10
  else c.toNat - 'a'.toNat + 10

/-- A size in hexadecimal, and so many characters. -/
structure Chunk where
  size : List Char
  data : List Char
  size_hex : IsHex size
  size_eq : number 16 hexadecimal size 0 = data.length
  data_ne_nil : data ≠ []
  data_lt : data.length < 2 ^ 31

/-- A chunk as it is sent: its size, and its data. -/
def Chunk.write (chunk : Chunk) : List Char :=
  chunk.size ++ '\r' :: '\n' :: chunk.data ++ ['\r', '\n']

lemma ends_getChunkedLen (closing : Closing) {size rest : List Char} (hhex : IsHex size)
    (hlt : number 16 hexadecimal size 0 < 2 ^ 31) (hzero : f.contentLength = 0)
    (h : f.source = size ++ '\r' :: rest) :
    (getChunkedLen (streamSource closing) Frame.varyContentLength '\r').Ends f (.value ())
      { f.after '\r' rest with contentLength := number 16 hexadecimal size 0 } := by
  have hdigits : ∀ c ∈ size, c ≠ '\x00' ∧
      (if '0' ≤ c ∧ c ≤ '9' then digit Frame.varyContentLength 16 (c.toNat - '0'.toNat)
      else if 'A' ≤ c ∧ c ≤ 'F' then digit Frame.varyContentLength 16 (c.toNat - 'A'.toNat + 10)
      else if 'a' ≤ c ∧ c ≤ 'f' then digit Frame.varyContentLength 16 (c.toNat - 'a'.toNat + 10)
      else if c ≠ '\r' then fail (-8) else pure false) =
        (digit Frame.varyContentLength (16 : ℕ) (hexadecimal c) :
          Program (Frame (List Char)) Bool) := by
    intro c hc
    have hex := hhex c hc
    constructor
    · rintro rfl
      revert hex
      decide
    · rw [hexadecimal]
      split_ifs with hdec hupper hlower
      · have hle : '0'.toNat ≤ c.toNat := hdec.1
        rw [Nat.cast_sub hle]
        rfl
      · have hle : 'A'.toNat ≤ c.toNat := hupper.1
        rw [Nat.cast_add, Nat.cast_sub hle]
        rfl
      · have hle : 'a'.toNat ≤ c.toNat := hlower.1
        rw [Nat.cast_add, Nat.cast_sub hle]
        rfl
      all_goals exact absurd hex (by rw [IsHexDigit]; tauto)
  have hnumber : (getChunkedLen (streamSource closing) Frame.varyContentLength '\r').Ends
      (f.varyContentLength fun _ => (0 : ℕ)) (.value ())
      ((f.varyContentLength fun _ => (number 16 hexadecimal size 0 : ℕ)).after '\r' rest) :=
    ends_number lawful_varyContentLength (by norm_num) hdigits ⟨by decide, rfl⟩ hlt h
  have hf : (f.varyContentLength fun _ => (0 : ℕ)) = f := by
    rw [Frame.varyContentLength, Nat.cast_zero, ← hzero]
  rwa [hf] at hnumber

/-- The size of a chunk, which is not the last one. -/
lemma ends_chunkSize (chunk : Chunk) {rest : List Char} (hzero : f.contentLength = 0)
    (h : f.source = chunk.size ++ '\r' :: '\n' :: rest) :
    (chunkSize (streamSource closing)).Ends f (.value ())
      { f.after '\n' rest with contentLength := chunk.data.length } := by
  have hsize := ends_getChunkedLen closing chunk.size_hex (by
    rw [chunk.size_eq]
    exact chunk.data_lt) hzero h
  rw [chunk.size_eq] at hsize
  have hline : (expect (streamSource closing) ['\n']).Ends
      { f.after '\r' ('\n' :: rest) with contentLength := chunk.data.length } (.value ())
      { f.after '\n' rest with contentLength := chunk.data.length } := ends_expect rfl (by decide)
  refine hsize.bind (hline.bind ((ends_read _ _).bind ?_))
  have hne : (chunk.data.length : ℤ) ≠ 0 := by
    have hpos := List.length_pos_iff.2 chunk.data_ne_nil
    omega
  rw [if_neg hne]
  exact ends_pure _ _

/-- The size 0 ends the body. -/
lemma ends_lastChunk {more : List Char} (hzero : f.contentLength = 0)
    (h : f.source = ['0', '\r', '\n', '\r', '\n'] ++ more) :
    (chunkSize (streamSource closing)).Ends f .jump (f.after '\n' more) := by
  have hsize : (getChunkedLen (streamSource closing) Frame.varyContentLength '\r').Ends f
      (.value ())
      { f.after '\r' ('\n' :: '\r' :: '\n' :: more) with
        contentLength := (number 16 hexadecimal ['0'] 0 : ℕ) } :=
    ends_getChunkedLen closing (by decide : IsHex ['0']) (by decide) hzero h
  have hstate : { f.after '\r' ('\n' :: '\r' :: '\n' :: more) with
      contentLength := ((number 16 hexadecimal ['0'] 0 : ℕ) : ℤ) } =
        f.after '\r' ('\n' :: '\r' :: '\n' :: more) := by
    have hnumber : ((number 16 hexadecimal ['0'] 0 : ℕ) : ℤ) = 0 := by decide
    rw [hnumber, ← hzero]
    rfl
  rw [hstate] at hsize
  have hline : (expect (streamSource closing) ['\n']).Ends
      (f.after '\r' ('\n' :: '\r' :: '\n' :: more)) (.value ())
      (f.after '\n' ('\r' :: '\n' :: more)) := ends_expect rfl (by decide)
  have hend : (expect (streamSource closing) ['\r', '\n']).Ends
      (f.after '\n' ('\r' :: '\n' :: more))
      (.value ()) (f.after '\n' more) := ends_expect rfl (by decide)
  refine hsize.bind (hline.bind ((ends_read _ _).bind ?_))
  have hzero' : (f.after '\n' ('\r' :: '\n' :: more)).contentLength = 0 := hzero
  rw [if_pos hzero']
  exact hend.bind (ends_jump id _)

/-- After a chunk the line end behind it is still to be read. -/
lemma ends_chunk (closing : Closing) (chunk : Chunk) {rest : List Char}
    (hzero : f.contentLength = 0)
    (h : f.source = chunk.write ++ rest) :
    ∃ f₁, (chunkSize (streamSource closing)).Ends f (.value ()) f₁ ∧
      (streamSource closing).copyBody.Ends f₁ (.value ())
        { f.after '\n' ('\r' :: '\n' :: rest) with resp := f.resp ++ chunk.data } := by
  have hsource : f.source = chunk.size ++ '\r' :: '\n' :: (chunk.data ++ '\r' :: '\n' :: rest) := by
    rw [h, Chunk.write]
    simp
  refine ⟨_, ends_chunkSize chunk hzero hsource, ?_⟩
  have hcopy := ends_copyBody closing (f := { f.after '\n'
    (chunk.data ++ '\r' :: '\n' :: rest) with contentLength := chunk.data.length })
    (.inl (by simp [Frame.after]))
  have hmin : min (chunk.data.length : ℤ).toNat (chunk.data ++ '\r' :: '\n' :: rest).length =
      chunk.data.length := by simp
  have hcopied : Frame.copied { f.after '\n' (chunk.data ++ '\r' :: '\n' :: rest) with
      contentLength := chunk.data.length } chunk.data.length =
      { f.after '\n' ('\r' :: '\n' :: rest) with resp := f.resp ++ chunk.data } := by
    simp [Frame.copied, Frame.after, hzero]
  change (streamSource closing).copyBody.Ends _ _ (Frame.copied _
    (min (chunk.data.length : ℤ).toNat (chunk.data ++ '\r' :: '\n' :: rest).length)) at hcopy
  rwa [hmin, hcopied] at hcopy

/-- Chunks as they are written, with the last one. -/
def writeChunks (chunks : List Chunk) : List Char :=
  chunks.flatMap Chunk.write ++ ['0', '\r', '\n', '\r', '\n']

/-- **Further chunks are read** one after the other. -/
lemma ends_nextChunks (closing : Closing) (chunks : List Chunk)
    {more : List Char} (hzero : f.contentLength = 0)
    (h : f.source = '\r' :: '\n' :: (writeChunks chunks ++ more)) :
    ∃ f', (loop (nextChunk (streamSource closing))).Ends f .jump f' ∧
      f'.resp = f.resp ++ chunks.flatMap Chunk.data ∧ f'.retCode = f.retCode := by
  induction chunks generalizing f with
  | nil =>
    have hline : (expect (streamSource closing) ['\r', '\n']).Ends f (.value ())
        (f.after '\n' (writeChunks [] ++ more)) := ends_expect h (by decide)
    have hlast : (chunkSize (streamSource closing)).Ends (f.after '\n' (writeChunks [] ++ more))
      .jump
        ((f.after '\n' (writeChunks [] ++ more)).after '\n' more) := ends_lastChunk hzero rfl
    exact ⟨_, Ends.loop_jump (hline.bind hlast.bind_jump), by simp [Frame.after], rfl⟩
  | cons chunk chunks ih =>
    have hwrite : writeChunks (chunk :: chunks) ++ more =
        chunk.write ++ (writeChunks chunks ++ more) := by simp [writeChunks]
    rw [hwrite] at h
    have hline : (expect (streamSource closing) ['\r', '\n']).Ends f (.value ())
        (f.after '\n' (chunk.write ++ (writeChunks chunks ++ more))) := ends_expect h (by decide)
    obtain ⟨f₁, hsize, hcopy⟩ := ends_chunk closing chunk
      (f := f.after '\n' (chunk.write ++ (writeChunks chunks ++ more))) hzero rfl
    have hround : (nextChunk (streamSource closing)).Ends f (.value true) _ :=
      hline.bind (hsize.bind (hcopy.bind (ends_pure true _)))
    obtain ⟨f', hends, hresp, hretCode⟩ := ih (f := { f.after '\n'
      ('\r' :: '\n' :: (writeChunks chunks ++ more)) with resp := f.resp ++ chunk.data }) hzero rfl
    refine ⟨f', hround.loop_again hends, ?_, hretCode⟩
    rw [hresp, List.flatMap_cons, List.append_assoc]

/-- **A body in chunks is read.** -/
lemma ends_readBody_chunked (chunks : List Chunk) {more : List Char} (hchunked : f.chunked = true)
    (hzero : f.contentLength = 0) (h : f.source = writeChunks chunks ++ more) :
    ∃ f', (readBody (streamSource closing)).Ends f .jump f' ∧
      f'.resp = f.resp ++ chunks.flatMap Chunk.data ∧ f'.retCode = f.retCode := by
  have hbody : ∀ {f'}, (do
      chunkSize (streamSource closing)
      (streamSource closing).copyBody
      loop (nextChunk (streamSource closing)) : Program (Frame (List Char)) Unit).Ends f .jump f' →
      (readBody (streamSource closing)).Ends f .jump f' := by
    intro f' hends
    refine (ends_read _ f).bind ?_
    rwa [hchunked, if_pos rfl]
  cases chunks with
  | nil =>
    exact ⟨_, hbody (ends_lastChunk hzero h).bind_jump, by simp [Frame.after], rfl⟩
  | cons chunk chunks =>
    have hwrite : writeChunks (chunk :: chunks) ++ more =
        chunk.write ++ (writeChunks chunks ++ more) := by simp [writeChunks]
    rw [hwrite] at h
    obtain ⟨f₁, hsize, hcopy⟩ := ends_chunk closing chunk hzero h
    obtain ⟨f', hends, hresp, hretCode⟩ := ends_nextChunks closing chunks (f := { f.after
      '\n' ('\r' :: '\n' :: (writeChunks chunks ++ more)) with resp := f.resp ++ chunk.data })
      hzero rfl
    refine ⟨f', hbody (hsize.bind (hcopy.bind hends)), ?_, hretCode⟩
    rw [hresp, List.flatMap_cons, List.append_assoc]

end TradingEngine.InfluxdbCpp
