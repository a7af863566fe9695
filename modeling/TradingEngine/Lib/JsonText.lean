/-
Texts of JSON.

The grammar says which texts stand for a value; the reader takes every such text for its value.
How the values are built is left open.
-/
import TradingEngine.Lib.HttpServer

namespace TradingEngine.Lib.JsonText

open Reader

/-! ### Strings -/

/-- What a backslash and this character stand for. -/
def shortEscape (c : Char) : Option Char :=
  [('"', '"'), ('\\', '\\'), ('/', '/'), ('b', Char.ofNat 8), ('f', Char.ofNat 12), ('n', '\n'),
    ('r', '\r'), ('t', '\t')].lookup c

/-- Four hexadecimal digits. -/
def codeUnit : Reader ℕ
  | a :: b :: c :: d :: cs => do
    let a ← HttpServer.hexDigit a
    let b ← HttpServer.hexDigit b
    let c ← HttpServer.hexDigit c
    let d ← HttpServer.hexDigit d
    some (4096 * a + 256 * b + 16 * c + d, cs)
  | _ => none

/-- The first half of a pair of surrogates. -/
def High (x : ℕ) : Prop := 0xD800 ≤ x ∧ x ≤ 0xDBFF

/-- The second half of a pair of surrogates. -/
def Low (x : ℕ) : Prop := 0xDC00 ≤ x ∧ x ≤ 0xDFFF

instance (x : ℕ) : Decidable (High x) := inferInstanceAs (Decidable (_ ∧ _))

instance (x : ℕ) : Decidable (Low x) := inferInstanceAs (Decidable (_ ∧ _))

/-- The character that two surrogates stand for. -/
def surrogatePair (high low : ℕ) : Char :=
  Char.ofNat (0x10000 + 0x400 * (high - 0xD800) + (low - 0xDC00))

/-- The character behind `\u`. -/
def unicode : Reader Char := do
  let x ← codeUnit
  if High x then
    HttpServer.chars ['\\', 'u']
    let y ← codeUnit
    if Low y then return surrogatePair x y else failure
  else if Low x then failure
  else return Char.ofNat x

/-- One character within a string. -/
def character : Reader Char
  | [] => none
  | '\\' :: 'u' :: cs => unicode.run cs
  | '\\' :: c :: cs => (shortEscape c).map fun d => (d, cs)
  | c :: cs => if c = '\\' ∨ c.toNat < 32 then none else some (c, cs)

/-- The texts of one character within a string. -/
inductive CharText : List Char → Char → Prop
  | plain {c : Char} (hquote : c ≠ '"') (hslash : c ≠ '\\') (hcontrol : 32 ≤ c.toNat) :
    CharText [c] c
  | short {c d : Char} (h : shortEscape c = some d) : CharText ['\\', c] d
  | unit {digits : List Char} {c : Char} (h : codeUnit.run digits = some (c.toNat, [])) :
    CharText ('\\' :: 'u' :: digits) c
  | pair {digits digits' : List Char} {x y : ℕ} (h : codeUnit.run digits = some (x, []))
    (h' : codeUnit.run digits' = some (y, [])) (hx : High x) (hy : Low y) :
    CharText ('\\' :: 'u' :: (digits ++ '\\' :: 'u' :: digits')) (surrogatePair x y)

lemma reads_codeUnit (P : Char → Bool) {digits : List Char} {x : ℕ}
    (h : codeUnit.run digits = some (x, [])) : Reads P codeUnit digits x := by
  intro rest _
  match digits with
  | [] | [_] | [_, _] | [_, _, _] => cases h
  | [a, b, c, d] =>
    have hdigits : ∀ cs, codeUnit.run (a :: b :: c :: d :: cs) =
        (codeUnit.run [a, b, c, d]).map fun p => (p.1, cs) := by
      intro cs
      show codeUnit _ = Option.map _ (codeUnit _)
      simp only [codeUnit]
      cases HttpServer.hexDigit a <;> cases HttpServer.hexDigit b <;>
        cases HttpServer.hexDigit c <;> cases HttpServer.hexDigit d <;> rfl
    have hrun := hdigits rest
    rw [h] at hrun
    exact hrun
  | a :: b :: c :: d :: e :: cs =>
    -- four digits are taken, and there are more
    replace h : codeUnit (a :: b :: c :: d :: e :: cs) = some (x, []) := h
    simp only [codeUnit, Option.bind_eq_bind, Option.bind_eq_some_iff] at h
    obtain ⟨_, -, _, -, _, -, _, -, heq⟩ := h
    cases heq

lemma not_surrogate (c : Char) : ¬ High c.toNat ∧ ¬ Low c.toNat := by
  have hvalid : c.toNat < 0xD800 ∨ 0xDFFF < c.toNat ∧ c.toNat < 0x110000 := c.valid
  constructor
  · rintro ⟨hlow, hhigh⟩
    omega
  · rintro ⟨hlow, hhigh⟩
    omega

lemma reads_character (P : Char → Bool) {t : List Char} {c : Char} (h : CharText t c) :
    Reads P character t c := by
  cases h with
  | plain hquote hslash hcontrol =>
    intro rest _
    show character (c :: rest) = _
    rw [character.eq_4, if_neg (by simp only [hslash, false_or]; omega)]
    · exact fun _ heq => absurd heq hslash
    · exact fun _ _ heq => absurd heq hslash
  | @short e _ h =>
    intro rest _
    have hne : e ≠ 'u' := by
      rintro rfl
      cases h
    show character ('\\' :: e :: rest) = _
    rw [character.eq_3, h]
    · rfl
    · exact fun heq => absurd heq hne
  | @unit digits _ h =>
    intro rest hrest
    -- a character is no half of a pair, so one unit is all of it
    have hread : Reads P unicode digits c := by
      have hunit : Reads P unicode (digits ++ []) c := by
        refine (reads_codeUnit P h).bind ?_ fun _ h => h
        rw [if_neg (not_surrogate c).1, if_neg (not_surrogate c).2, Char.ofNat_toNat]
        exact Reads.pure P c
      rwa [List.append_nil] at hunit
    exact hread rest hrest
  | @pair digits digits' x y h h' hx hy =>
    intro rest hrest
    -- the first unit is a high one, and the second one is read behind an escape of its own
    have hlow : Reads P (do
        let y ← codeUnit
        if Low y then return surrogatePair x y else failure)
      (digits' ++ []) (surrogatePair x y) := by
      refine (reads_codeUnit P h').bind ?_ fun _ h => h
      rw [if_pos hy]
      exact Reads.pure P _
    have hread : Reads P unicode (digits ++ (['\\', 'u'] ++ (digits' ++ [])))
        (surrogatePair x y) := by
      refine (reads_codeUnit (fun _ => true) h).bind ?_ fun _ _ _ _ => rfl
      rw [if_pos hx]
      exact HttpServer.reads_chars_bind hlow
    rw [List.append_nil] at hread
    exact hread rest hrest

/-- The characters up to the closing quote, less than `n`. -/
def chars : ℕ → Reader (List Char)
  | 0, _ => none
  | _ + 1, [] => none
  | n + 1, c :: cs =>
    if c = '"' then some ([], cs)
    else (do
      let x ← character
      let xs ← chars n
      return x :: xs).run (c :: cs)

/-- What comes behind the opening quote. -/
def string : Reader String := fun cs => (String.ofList <$> chars cs.length).run cs

/-- The texts of a string without its quotes. -/
inductive CharsText : List Char → List Char → Prop
  | nil : CharsText [] []
  | cons {t ts : List Char} {c : Char} {cs : List Char} (h : CharText t c)
    (hs : CharsText ts cs) : CharsText (t ++ ts) (c :: cs)

/-- The text of a character does not begin with a quote. -/
lemma CharText.exists_cons {t : List Char} {c : Char} (h : CharText t c) :
    ∃ d ds, t = d :: ds ∧ d ≠ '"' := by
  cases h with
  | plain hquote => exact ⟨_, _, rfl, hquote⟩
  | short | unit | pair => exact ⟨_, _, rfl, by decide⟩

lemma reads_chars {t cs : List Char} (h : CharsText t cs) {n : ℕ} (hn : cs.length < n) :
    Reads (fun _ => true) (chars n) (t ++ ['"']) cs := by
  induction h generalizing n with
  | nil =>
    obtain ⟨n, rfl⟩ : ∃ m, n = m + 1 := ⟨n - 1, by omega⟩
    intro rest _
    show chars (n + 1) ('"' :: rest) = _
    rw [chars, if_pos rfl]
  | @cons t ts c cs hc _ ih =>
    obtain ⟨n, rfl⟩ : ∃ m, n = m + 1 := ⟨n - 1, by omega⟩
    have hread : Reads (fun _ => true) (do
        let x ← character
        let xs ← chars n
        return x :: xs) (t ++ (ts ++ ['"'])) (c :: cs) :=
      (reads_character (fun _ => true) hc).bind ((ih (Nat.lt_of_succ_lt_succ hn)).map (c :: ·))
        fun _ _ _ _ => rfl
    -- a character does not begin with the quote that would end the string
    obtain ⟨d, ds, rfl, hd⟩ := hc.exists_cons
    intro rest hrest
    have hrun := hread rest hrest
    rw [List.append_assoc (d :: ds)]
    exact (if_neg hd).trans hrun

lemma CharsText.length_le {t cs : List Char} (h : CharsText t cs) : cs.length ≤ t.length := by
  induction h with
  | nil => exact le_rfl
  | cons hc _ ih =>
    obtain ⟨d, ds, rfl, -⟩ := hc.exists_cons
    simp only [List.length_cons, List.length_append]
    omega

lemma reads_string {t : List Char} {s : String} (h : CharsText t s.toList) :
    Reads (fun _ => true) string (t ++ ['"']) s := by
  intro rest hrest
  have hlen := h.length_le
  have hn : s.toList.length < (t ++ ['"'] ++ rest).length := by
    simp only [List.length_append, List.length_singleton]
    omega
  have hread := ((reads_chars h hn).map String.ofList) rest hrest
  rwa [String.ofList_toList] at hread

/-! ### Numbers -/

/-- A number, without a fraction and an exponent or with one of them. -/
inductive Numeral
  | integer (n : ℤ)
  | decimal (x : ℚ)

/-- The number with a minus in front of it. -/
def Numeral.neg : Numeral → Numeral
  | .integer n => .integer (-n)
  | .decimal x => .decimal (-x)

/-- The number with these parts. -/
def numeral (n : ℕ) : Option ℚ → Option ℤ → Numeral
  | none, none => .integer n
  | x, k => .decimal (((n : ℚ) + x.getD 0) * 10 ^ k.getD 0)

/-- Digits, one at least. -/
def digits : Reader (List Char) := fun cs =>
  if cs.takeWhile Char.isDigit = [] then none
  else some (cs.takeWhile Char.isDigit, cs.dropWhile Char.isDigit)

/-- A text of digits. -/
def IsDigits (ds : List Char) : Prop := ds ≠ [] ∧ ∀ d ∈ ds, d.isDigit = true

/-- Without zeros in front. -/
def whole : Reader ℕ
  | '0' :: cs => some (0, cs)
  | cs => natural.run cs

/-- A point and digits, if there is a point. -/
def fraction : Reader (Option ℚ)
  | '.' :: cs =>
    ((fun ds => some ((Nat.ofDigitChars 10 ds 0 : ℚ) / 10 ^ ds.length)) <$> digits).run cs
  | cs => some (none, cs)

/-- Digits with a sign, if there is one. -/
def signed : Reader ℤ
  | '+' :: cs => ((fun ds => (Nat.ofDigitChars 10 ds 0 : ℤ)) <$> digits).run cs
  | '-' :: cs => ((fun ds => -(Nat.ofDigitChars 10 ds 0 : ℤ)) <$> digits).run cs
  | cs => ((fun ds => (Nat.ofDigitChars 10 ds 0 : ℤ)) <$> digits).run cs

/-- The letter `e` and digits, if there is such a letter. -/
def exponent : Reader (Option ℤ)
  | 'e' :: cs => (some <$> signed).run cs
  | 'E' :: cs => (some <$> signed).run cs
  | cs => some (none, cs)

/-- A number without its sign. -/
def magnitude : Reader Numeral := do
  let n ← whole
  let x ← fraction
  let k ← exponent
  return numeral n x k

/-- A number. -/
def number : Reader Numeral
  | '-' :: cs => (Numeral.neg <$> magnitude).run cs
  | cs => magnitude.run cs

/-- The texts of a fraction. -/
inductive FractionText : List Char → Option ℚ → Prop
  | none : FractionText [] none
  | digits {ds : List Char} (h : IsDigits ds) :
    FractionText ('.' :: ds) (some ((Nat.ofDigitChars 10 ds 0 : ℚ) / 10 ^ ds.length))

/-- The texts of a number that may have a sign. -/
inductive SignedText : List Char → ℤ → Prop
  | plain {ds : List Char} (h : IsDigits ds) : SignedText ds (Nat.ofDigitChars 10 ds 0)
  | plus {ds : List Char} (h : IsDigits ds) : SignedText ('+' :: ds) (Nat.ofDigitChars 10 ds 0)
  | minus {ds : List Char} (h : IsDigits ds) : SignedText ('-' :: ds) (-Nat.ofDigitChars 10 ds 0)

/-- The texts of an exponent. -/
inductive ExponentText : List Char → Option ℤ → Prop
  | none : ExponentText [] none
  | lower {t : List Char} {k : ℤ} (h : SignedText t k) : ExponentText ('e' :: t) (some k)
  | upper {t : List Char} {k : ℤ} (h : SignedText t k) : ExponentText ('E' :: t) (some k)

/-- The texts of a number without its sign. -/
inductive MagnitudeText : List Char → Numeral → Prop
  | mk (n : ℕ) {f e : List Char} {x : Option ℚ} {k : Option ℤ} (hf : FractionText f x)
    (he : ExponentText e k) : MagnitudeText (Nat.toDigits 10 n ++ (f ++ e)) (numeral n x k)

/-- The texts of a number. -/
inductive NumberText : List Char → Numeral → Prop
  | positive {t : List Char} {x : Numeral} (h : MagnitudeText t x) : NumberText t x
  | negative {t : List Char} {x : Numeral} (h : MagnitudeText t x) : NumberText ('-' :: t) x.neg

/-- What may follow digits. -/
def afterDigits (c : Char) : Bool := !c.isDigit

/-- What may follow the digits of a number as a whole. -/
def afterNumber (c : Char) : Bool := !c.isDigit && c ≠ '.' && c ≠ 'e' && c ≠ 'E'

lemma reads_digits {ds : List Char} (h : IsDigits ds) : Reads afterDigits digits ds ds := by
  intro rest hrest
  have htake : (ds ++ rest).takeWhile Char.isDigit = ds ∧
      (ds ++ rest).dropWhile Char.isDigit = rest := by
    rw [List.takeWhile_append_of_pos h.2, List.dropWhile_append_of_pos h.2]
    cases rest with
    | nil => simp
    | cons c cs =>
      have hc : ¬ c.isDigit = true := by simpa [afterDigits] using hrest
      simp [hc]
  show (if _ = [] then none else some (_, _)) = _
  rw [htake.1, htake.2, if_neg h.1]

lemma isDigits_toDigits (n : ℕ) : IsDigits (Nat.toDigits 10 n) :=
  ⟨Nat.toDigits_ne_nil, fun _ hd => Decimal.isDigit_of_mem hd⟩

/-- Digits begin with a digit. -/
lemma IsDigits.exists_cons {ds : List Char} (h : IsDigits ds) :
    ∃ d ds', ds = d :: ds' ∧ d.isDigit = true := by
  obtain ⟨d, ds', rfl⟩ := List.exists_cons_of_ne_nil h.1
  exact ⟨d, ds', rfl, h.2 d List.mem_cons_self⟩

lemma ne_of_isDigit {c d : Char} (hc : c.isDigit = true) (hd : d.isDigit = false) : c ≠ d := by
  rintro rfl
  rw [hd] at hc
  cases hc

/-- The first digit is not a zero. -/
lemma head_toDigits {n : ℕ} (hn : 0 < n) : (Nat.toDigits 10 n).head? ≠ some '0' := by
  induction n using Nat.strongRecOn with
  | ind n ih =>
    by_cases hlt : n < 10
    · rw [Nat.toDigits_of_lt_base hlt]
      interval_cases n <;> decide
    · have hdigits : Nat.toDigits 10 n = Nat.toDigits 10 (n / 10) ++ [(n % 10).digitChar] :=
        Nat.toDigits_of_base_le (by omega) (by omega)
      rw [hdigits, List.head?_append_of_ne_nil _ Nat.toDigits_ne_nil]
      exact ih (n / 10) (by omega) (by omega)

lemma reads_whole (n : ℕ) : Reads afterDigits whole (Nat.toDigits 10 n) n := by
  intro rest hrest
  rcases Nat.eq_zero_or_pos n with rfl | hn
  · rfl
  · have hread := reads_natural n rest hrest
    obtain ⟨d, ds, hds, hd⟩ := (isDigits_toDigits n).exists_cons
    -- only the number zero begins with a zero, behind which no digit is read
    have hzero : d ≠ '0' := by
      rintro rfl
      exact head_toDigits hn (by rw [hds, List.head?_cons])
    rw [hds] at hread ⊢
    show whole (d :: (ds ++ rest)) = _
    rw [whole.eq_2]
    · exact hread
    · exact fun _ heq => hzero (List.cons.inj heq).1

lemma reads_fraction {t : List Char} {x : Option ℚ} (h : FractionText t x) :
    Reads (fun c => !c.isDigit && c ≠ '.') fraction t x := by
  intro rest hrest
  cases h with
  | none =>
    match rest with
    | [] => rfl
    | c :: cs =>
      have hc : c ≠ '.' := by
        rintro rfl
        rw [next_cons] at hrest
        cases hrest
      show fraction (c :: cs) = _
      rw [fraction.eq_2]
      exact fun _ heq => hc (List.cons.inj heq).1
  | digits hds =>
    refine ((reads_digits hds).map _) rest (hrest.mono fun c hc => ?_)
    exact (Bool.and_eq_true_iff.1 hc).1

lemma reads_signed {t : List Char} {k : ℤ} (h : SignedText t k) :
    Reads afterDigits signed t k := by
  cases h with
  | plain hds =>
    obtain ⟨d, ds, rfl, hd⟩ := hds.exists_cons
    have hread := (reads_digits hds).map fun ds => (Nat.ofDigitChars 10 ds 0 : ℤ)
    intro rest hrest
    show signed (d :: (ds ++ rest)) = _
    rw [signed.eq_3]
    · exact hread rest hrest
    · exact fun _ heq => ne_of_isDigit hd rfl (List.cons.inj heq).1
    · exact fun _ heq => ne_of_isDigit hd rfl (List.cons.inj heq).1
  | plus hds => exact (reads_digits hds).map fun ds => (Nat.ofDigitChars 10 ds 0 : ℤ)
  | minus hds => exact (reads_digits hds).map fun ds => -(Nat.ofDigitChars 10 ds 0 : ℤ)

lemma reads_exponent {t : List Char} {k : Option ℤ} (h : ExponentText t k) :
    Reads afterNumber exponent t k := by
  have hmono : ∀ c, afterNumber c = true → afterDigits c = true := by
    intro c hc
    simp only [afterNumber, Bool.and_eq_true] at hc
    exact hc.1.1.1
  cases h with
  | none =>
    intro rest hrest
    match rest with
    | [] => rfl
    | c :: cs =>
      have hc : c ≠ 'e' ∧ c ≠ 'E' := by
        simp only [next_cons, afterNumber, Bool.and_eq_true, decide_eq_true_eq] at hrest
        exact ⟨hrest.1.2, hrest.2⟩
      show exponent (c :: cs) = _
      rw [exponent.eq_3]
      · exact fun _ heq => hc.1 (List.cons.inj heq).1
      · exact fun _ heq => hc.2 (List.cons.inj heq).1
  | lower h => exact ((reads_signed h).mono hmono).map some
  | upper h => exact ((reads_signed h).mono hmono).map some

/-- A part that may be empty begins with a character that no digit is taken for. -/
lemma next_fraction {t rest : List Char} {x : Option ℚ} (h : FractionText t x) (P : Char → Bool)
    (hdot : P '.' = true) (hrest : Next P rest) : Next P (t ++ rest) := by
  cases h with
  | none => exact hrest
  | digits _ => exact next_cons.2 hdot

lemma next_exponent {t rest : List Char} {k : Option ℤ} (h : ExponentText t k) (P : Char → Bool)
    (hlower : P 'e' = true) (hupper : P 'E' = true) (hrest : Next P rest) : Next P (t ++ rest) := by
  cases h with
  | none => exact hrest
  | lower _ => exact next_cons.2 hlower
  | upper _ => exact next_cons.2 hupper

lemma reads_magnitude {t : List Char} {x : Numeral} (h : MagnitudeText t x) :
    Reads afterNumber magnitude t x := by
  obtain @⟨n, f, e, x, k, hf, he⟩ := h
  -- from the back to the front: a part ends where the next one or the rest begins
  have hexponent : Reads afterNumber (do
      let k ← exponent
      return numeral n x k) e (numeral n x k) :=
    (reads_exponent he).map fun k => numeral n x k
  have hfraction : Reads afterNumber (do
      let x ← fraction
      let k ← exponent
      return numeral n x k) (f ++ e) (numeral n x k) := by
    refine (reads_fraction hf).bind hexponent fun rest hrest => ?_
    refine next_exponent he _ rfl rfl (hrest.mono fun c hc => ?_)
    simp only [afterNumber, Bool.and_eq_true] at hc ⊢
    exact hc.1.1
  refine (reads_whole n).bind hfraction fun rest hrest => ?_
  rw [List.append_assoc]
  refine next_fraction hf _ rfl (next_exponent he _ rfl rfl (hrest.mono fun c hc => ?_))
  simp only [afterNumber, Bool.and_eq_true] at hc
  exact hc.1.1.1

/-- A number without its sign begins with a digit. -/
lemma MagnitudeText.exists_cons {t : List Char} {x : Numeral} (h : MagnitudeText t x) :
    ∃ d ds, t = d :: ds ∧ d.isDigit = true := by
  obtain ⟨n, _, _⟩ := h
  obtain ⟨d, ds, hds, hd⟩ := (isDigits_toDigits n).exists_cons
  exact ⟨d, _, by rw [hds, List.cons_append], hd⟩

lemma reads_number {t : List Char} {x : Numeral} (h : NumberText t x) :
    Reads afterNumber number t x := by
  cases h with
  | positive h =>
    obtain ⟨d, ds, rfl, hd⟩ := h.exists_cons
    intro rest hrest
    show number (d :: (ds ++ rest)) = _
    rw [number.eq_2]
    · exact reads_magnitude h rest hrest
    · exact fun _ heq => ne_of_isDigit hd rfl (List.cons.inj heq).1
  | negative h => exact (reads_magnitude h).map Numeral.neg

/-- A whole number as it is written in decimal. -/
lemma numberText_int (n : ℤ) : NumberText (toString n).toList (.integer n) := by
  have hmagnitude : ∀ m : ℕ, MagnitudeText (Nat.toDigits 10 m) (.integer m) := by
    intro m
    have h := MagnitudeText.mk m .none .none
    rwa [List.append_nil, List.append_nil] at h
  cases n with
  | ofNat m =>
    rw [Decimal.toList_toString_ofNat]
    exact .positive (hmagnitude m)
  | negSucc m =>
    rw [Decimal.toList_toString_negSucc]
    exact .negative (hmagnitude (m + 1))

/-! ### Values -/

/-- How the values are built. -/
structure Builder (J : Type) where
  null : J
  boolean : Bool → J
  number : Numeral → J
  string : String → J
  array : List J → J
  object : List (String × J) → J

section Readers

variable {α J : Type}

/-- A blank. -/
def isWhite (c : Char) : Bool := c = ' ' || c = '\t' || c = '\n' || c = '\r'

/-- Blanks. -/
def white : Reader Unit := fun cs => some ((), cs.dropWhile isWhite)

/-- With blanks around. -/
def padded (r : Reader α) : Reader α := do
  white
  let x ← r
  white
  return x

/-- Up to the closing bracket, with commas between the items. -/
def bracketed (closing : Char) (r : Reader α) : Reader (List α) := fun cs =>
  match cs.dropWhile isWhite with
  | [] => none
  | c :: rest =>
    if c = closing then some ([], rest)
    else (do
      let x ← r
      let xs ← many ',' r
      char closing
      return x :: xs).run cs

/-- A key and a value. -/
def member (r : Reader J) : Reader (String × J) := do
  white
  char '"'
  let key ← string
  white
  char ':'
  let x ← padded r
  return (key, x)

/-- A text that stands for one value. -/
def literal (text : List Char) (x : J) : Reader J := do
  HttpServer.chars text
  return x

/-- A value that is not deeper than `n`. -/
def value (B : Builder J) : ℕ → Reader J
  | 0, _ => none
  | _ + 1, [] => none
  | n + 1, c :: cs =>
    if c = '[' then (B.array <$> bracketed ']' (padded (value B n))).run cs
    else if c = '\x7b' then (B.object <$> bracketed '\x7d' (member (value B n))).run cs
    else if c = '"' then (B.string <$> string).run cs
    else if c = 't' then (literal "rue".toList (B.boolean true)).run cs
    else if c = 'f' then (literal "alse".toList (B.boolean false)).run cs
    else if c = 'n' then (literal "ull".toList B.null).run cs
    else (B.number <$> number).run (c :: cs)

end Readers

/-! ### The texts of a value -/

section Grammar

variable {J : Type}

/-- A text of blanks. -/
def White (text : List Char) : Prop := ∀ c ∈ text, isWhite c = true

/-- A text of a value with the blanks around it. -/
structure Padded (J : Type) where
  before : List Char
  text : List Char
  after : List Char
  value : J

namespace Padded

/-- The whole text. -/
def chars (p : Padded J) : List Char := p.before ++ (p.text ++ p.after)

/-- There are only blanks around the value. -/
structure Ok (p : Padded J) : Prop where
  before : White p.before
  after : White p.after

end Padded

/-- A text of a key and a value. -/
structure Member (J : Type) where
  before : List Char
  keyText : List Char
  key : String
  between : List Char
  item : Padded J

namespace Member

/-- The whole text. -/
def chars (m : Member J) : List Char :=
  m.before ++ '"' :: (m.keyText ++ '"' :: (m.between ++ ':' :: m.item.chars))

/-- The key with its value. -/
def pair (m : Member J) : String × J := (m.key, m.item.value)

/-- The text is one of the key, and there are only blanks between. -/
structure Ok (m : Member J) : Prop where
  before : White m.before
  keyText : CharsText m.keyText m.key.toList
  between : White m.between
  item : m.item.Ok

end Member

/-- With commas between. -/
def commas {ι : Type} (chars : ι → List Char) (first : ι) (others : List ι) : List Char :=
  chars first ++ others.flatMap fun i => ',' :: chars i

/-- The texts of a value, without blanks around. -/
inductive IsValue (B : Builder J) : List Char → J → Prop
  | null : IsValue B "null".toList B.null
  | isTrue : IsValue B "true".toList (B.boolean true)
  | isFalse : IsValue B "false".toList (B.boolean false)
  | number {t : List Char} {x : Numeral} (h : NumberText t x) : IsValue B t (B.number x)
  | string {t : List Char} {s : String} (h : CharsText t s.toList) :
    IsValue B ('"' :: (t ++ ['"'])) (B.string s)
  | emptyArray {w : List Char} (hw : White w) : IsValue B ('[' :: (w ++ [']'])) (B.array [])
  | array (first : Padded J) (others : List (Padded J)) (hok : ∀ i ∈ first :: others, i.Ok)
    (h : ∀ i ∈ first :: others, IsValue B i.text i.value) :
    IsValue B ('[' :: (commas Padded.chars first others ++ [']']))
      (B.array ((first :: others).map Padded.value))
  | emptyObject {w : List Char} (hw : White w) :
    IsValue B ('\x7b' :: (w ++ ['\x7d'])) (B.object [])
  | object (first : Member J) (others : List (Member J)) (hok : ∀ m ∈ first :: others, m.Ok)
    (h : ∀ m ∈ first :: others, IsValue B m.item.text m.item.value) :
    IsValue B ('\x7b' :: (commas Member.chars first others ++ ['\x7d']))
      (B.object ((first :: others).map Member.pair))

/-- What comes after a value and the blanks behind it, within a larger one. -/
def closes (c : Char) : Bool := c = ',' || c = ']' || c = '\x7d'

/-- What comes after a value. -/
def afterValue (c : Char) : Bool := isWhite c || closes c

lemma afterNumber_of_afterValue {c : Char} (h : afterValue c = true) : afterNumber c = true := by
  simp only [afterValue, isWhite, closes, Bool.or_eq_true, decide_eq_true_eq] at h
  obtain ((((rfl | rfl) | rfl) | rfl) | ((rfl | rfl) | rfl)) := h <;> rfl

/-- A value does not begin with a blank or a closing bracket. -/
lemma IsValue.exists_cons {B : Builder J} {t : List Char} {x : J} (h : IsValue B t x) :
    ∃ c cs, t = c :: cs ∧ afterValue c = false := by
  cases h with
  | number h =>
    cases h with
    | positive h =>
      obtain ⟨d, ds, rfl, hd⟩ := h.exists_cons
      refine ⟨d, ds, rfl, ?_⟩
      rw [← Bool.not_eq_true]
      intro hafter
      have hnumber := afterNumber_of_afterValue hafter
      rw [afterNumber, hd] at hnumber
      cases hnumber
    | negative _ => exact ⟨'-', _, rfl, rfl⟩
  | null | isTrue | isFalse => exact ⟨_, _, rfl, rfl⟩
  | string | emptyArray | array | emptyObject | object => exact ⟨_, _, rfl, rfl⟩

lemma reads_white {w : List Char} (h : White w) :
    Reads (fun c => !isWhite c) white w () := by
  intro rest hrest
  show some ((), (w ++ rest).dropWhile isWhite) = _
  rw [List.dropWhile_append_of_pos h]
  cases rest with
  | nil => rfl
  | cons c cs =>
    have hc : ¬ isWhite c = true := by simpa using hrest
    rw [List.dropWhile_cons_of_neg hc]

lemma next_white {w rest : List Char} (h : White w) (hrest : Next closes rest) :
    Next afterValue (w ++ rest) := by
  cases w with
  | nil =>
    exact hrest.mono fun c hc => by rw [afterValue, hc, Bool.or_true]
  | cons c w =>
    refine next_cons.2 ?_
    rw [afterValue, h c List.mem_cons_self, Bool.true_or]

lemma not_isWhite_of_closes {c : Char} (h : closes c = true) : (!isWhite c) = true := by
  simp only [closes, Bool.or_eq_true, decide_eq_true_eq] at h
  obtain ((rfl | rfl) | rfl) := h <;> rfl

/-- A value is read with its blanks. -/
lemma reads_padded {r : Reader J} {p : Padded J} (hok : p.Ok)
    (hhead : ∃ c cs, p.text = c :: cs ∧ afterValue c = false)
    (h : Reads afterValue r p.text p.value) : Reads closes (padded r) p.chars p.value := by
  have hafter : Reads closes (do
      white
      return p.value) p.after p.value :=
    ((reads_white hok.after).mono fun c hc => not_isWhite_of_closes hc).map fun _ => p.value
  have hvalue : Reads closes (do
      let x ← r
      white
      return x) (p.text ++ p.after) p.value :=
    h.bind hafter fun rest hrest => next_white hok.after hrest
  refine (reads_white hok.before).bind hvalue fun rest _ => ?_
  obtain ⟨c, cs, hcs, hc⟩ := hhead
  rw [hcs]
  refine next_cons.2 ?_
  rw [afterValue, Bool.or_eq_false_iff] at hc
  rw [hc.1]
  rfl

/-- Items in brackets, of which the first does not begin with the closing one. -/
lemma reads_bracketed {ι α : Type} {closing : Char} (hclosing : closes closing = true)
    (hcomma : closing ≠ ',') {r : Reader α} {w : ι → List Char} {v : ι → α} {first : ι}
    {others : List ι} (h : ∀ i ∈ first :: others, Reads closes r (w i) (v i))
    (hhead : ∃ c cs, ∀ rest, (w first ++ rest).dropWhile isWhite = c :: (cs ++ rest) ∧
      c ≠ closing) :
    Reads (fun _ => true) (bracketed closing r) (commas w first others ++ [closing])
      ((first :: others).map v) := by
  -- a comma behind every item but the last, and the bracket behind that
  have hmany : Reads (fun c => c = closing) (many ',' r) (others.flatMap fun i => ',' :: w i)
      (others.map v) := by
    refine reads_manyMap (fun i hi => h i (List.mem_cons_of_mem first hi)) rfl (fun c hc => ?_) ?_
    · rwa [of_decide_eq_true hc]
    · exact decide_eq_false (Ne.symm hcomma)
  have hclose : Reads (fun _ => true) (do
      char closing
      return v first :: others.map v) [closing] (v first :: others.map v) :=
    (reads_char (fun _ => true) closing).map fun _ => v first :: others.map v
  have hrest : Reads (fun _ => true) (do
      let xs ← many ',' r
      char closing
      return v first :: xs) ((others.flatMap fun i => ',' :: w i) ++ [closing])
        (v first :: others.map v) :=
    hmany.bind_cons hclose (decide_eq_true rfl)
  have hitems : Reads (fun _ => true) (do
      let x ← r
      let xs ← many ',' r
      char closing
      return x :: xs) (w first ++ ((others.flatMap fun i => ',' :: w i) ++ [closing]))
        (v first :: others.map v) := by
    refine (h first List.mem_cons_self).bind hrest fun rest _ => ?_
    rw [List.append_assoc]
    exact next_flatMap rfl w others (next_cons.2 hclosing)
  intro rest hnext
  obtain ⟨c, cs, hcs⟩ := hhead
  have htext : commas w first others ++ [closing] =
      w first ++ ((others.flatMap fun i => ',' :: w i) ++ [closing]) := by
    rw [commas, List.append_assoc]
  have hrun := hitems rest hnext
  -- behind the blanks there is an item and not the bracket, so it is read as one
  obtain ⟨hdrop, hne⟩ := hcs (((others.flatMap fun i => ',' :: w i) ++ [closing]) ++ rest)
  rw [← List.append_assoc] at hdrop
  rw [htext]
  show bracketed closing r _ = _
  rw [bracketed, hdrop]
  exact (if_neg hne).trans hrun

lemma reads_member {r : Reader J} {m : Member J} (hok : m.Ok)
    (hitem : Reads closes (padded r) m.item.chars m.item.value) :
    Reads closes (member r) m.chars m.pair := by
  have hcolon : Reads closes (do
      char ':'
      let x ← padded r
      return (m.key, x)) (':' :: m.item.chars) m.pair :=
    (hitem.map fun x => (m.key, x)).char_bind
  have hbetween : Reads closes (do
      white
      char ':'
      let x ← padded r
      return (m.key, x)) (m.between ++ ':' :: m.item.chars) m.pair :=
    (reads_white hok.between).bind_cons hcolon rfl
  have hkey : Reads closes (do
      let key ← string
      white
      char ':'
      let x ← padded r
      return (key, x)) ((m.keyText ++ ['"']) ++ (m.between ++ ':' :: m.item.chars)) m.pair :=
    (reads_string hok.keyText).bind hbetween fun _ _ _ _ => rfl
  rw [List.append_assoc, List.singleton_append] at hkey
  exact (reads_white hok.before).bind_cons hkey.char_bind rfl

lemma dropWhile_white {w t : List Char} (hw : White w) (ht : ∃ c cs, t = c :: cs ∧
    afterValue c = false) {closing : Char} (hclosing : closes closing = true) :
    ∃ c cs, ∀ rest, (w ++ t ++ rest).dropWhile isWhite = c :: (cs ++ rest) ∧ c ≠ closing := by
  obtain ⟨c, cs, rfl, hc⟩ := ht
  rw [afterValue, Bool.or_eq_false_iff] at hc
  refine ⟨c, cs, fun rest => ⟨?_, ?_⟩⟩
  · rw [List.append_assoc, List.dropWhile_append_of_pos hw, List.cons_append,
      List.dropWhile_cons_of_neg (by rw [hc.1]; exact Bool.false_ne_true)]
  · rintro rfl
    rw [hclosing] at hc
    cases hc.2

lemma commas_length {ι : Type} (w : ι → List Char) {first : ι} {others : List ι} {i : ι}
    (hi : i ∈ first :: others) : (w i).length ≤ (commas w first others).length := by
  have hothers : i ∈ others → (w i).length ≤ (others.flatMap fun i => ',' :: w i).length := by
    intro hi
    have hsub := List.sublist_flatten_of_mem (List.mem_map.2 ⟨i, hi, rfl⟩ :
      (',' :: w i) ∈ others.map fun i => ',' :: w i)
    have hlen := hsub.length_le
    rw [List.length_cons] at hlen
    exact Nat.le_of_succ_le hlen
  rw [commas, List.length_append]
  rcases List.mem_cons.1 hi with rfl | hi
  · omega
  · have hle := hothers hi
    omega

lemma Padded.text_length (p : Padded J) : p.text.length ≤ p.chars.length := by
  simp only [Padded.chars, List.length_append]
  omega

lemma Member.item_length (m : Member J) : m.item.chars.length ≤ m.chars.length := by
  simp only [Member.chars, List.length_append, List.length_cons]
  omega

/-- Nothing in brackets. -/
lemma reads_bracketed_nil {α : Type} {closing : Char} (hclosing : closes closing = true)
    (r : Reader α) {w : List Char} (hw : White w) :
    Reads (fun _ => true) (bracketed closing r) (w ++ [closing]) [] := by
  intro rest _
  have hwhite : ¬ isWhite closing = true := by
    have hnot := not_isWhite_of_closes hclosing
    rwa [Bool.not_eq_true', ← Bool.not_eq_true] at hnot
  have hdrop : (w ++ [closing] ++ rest).dropWhile isWhite = closing :: rest := by
    rw [List.append_assoc, List.dropWhile_append_of_pos hw, List.singleton_append,
      List.dropWhile_cons_of_neg hwhite]
  show bracketed closing r _ = _
  rw [bracketed, hdrop]
  exact if_pos rfl

/-- What begins like a number is read as one. -/
lemma value_number (B : Builder J) (n : ℕ) {c : Char} (hc : c.isDigit = true ∨ c = '-')
    (cs : List Char) : (value B (n + 1)).run (c :: cs) = (B.number <$> number).run (c :: cs) := by
  have hne : ∀ d : Char, d.isDigit = false → d ≠ '-' → c ≠ d := by
    rintro d hd hminus rfl
    rcases hc with hc | hc
    · rw [hd] at hc
      cases hc
    · exact hminus hc
  show value B (n + 1) (c :: cs) = _
  rw [value, if_neg (hne '[' rfl (by decide)), if_neg (hne '\x7b' rfl (by decide)),
    if_neg (hne '"' rfl (by decide)), if_neg (hne 't' rfl (by decide)),
    if_neg (hne 'f' rfl (by decide)), if_neg (hne 'n' rfl (by decide))]

lemma NumberText.exists_cons {t : List Char} {x : Numeral} (h : NumberText t x) :
    ∃ c cs, t = c :: cs ∧ (c.isDigit = true ∨ c = '-') := by
  cases h with
  | positive h =>
    obtain ⟨d, ds, rfl, hd⟩ := h.exists_cons
    exact ⟨d, ds, rfl, .inl hd⟩
  | negative _ => exact ⟨'-', _, rfl, .inr rfl⟩

lemma reads_value_succ {B : Builder J} {t : List Char} {x : J} (h : IsValue B t x) (n : ℕ)
    (hn : t.length ≤ n + 1) : Reads afterValue (value B (n + 1)) t x := by
  have hany : ∀ {r : Reader J} {t x}, Reads (fun _ => true) r t x → Reads afterValue r t x :=
    fun h => h.mono fun _ _ => rfl
  induction h generalizing n with
  | null => exact (HttpServer.reads_chars afterValue "ull".toList).map fun _ => B.null
  | isTrue => exact (HttpServer.reads_chars afterValue "rue".toList).map fun _ => B.boolean true
  | isFalse => exact (HttpServer.reads_chars afterValue "alse".toList).map fun _ => B.boolean false
  | number h =>
    obtain ⟨c, cs, rfl, hc⟩ := h.exists_cons
    intro rest hrest
    have hread := (reads_number h).map B.number
    exact (value_number B n hc (cs ++ rest)).trans
      (hread rest (hrest.mono fun _ h => afterNumber_of_afterValue h))
  | string h => exact hany ((reads_string h).map B.string)
  | emptyArray hw => exact hany ((reads_bracketed_nil rfl _ hw).map B.array)
  | array first others hok h ih =>
    rw [List.length_cons, List.length_append, List.length_singleton] at hn
    obtain ⟨m, rfl⟩ : ∃ m, n = m + 1 := ⟨n - 1, by omega⟩
    -- an item is shorter than the array, so what is left of the bound is enough for it
    have hitems : ∀ i ∈ first :: others,
        Reads closes (padded (value B (m + 1))) i.chars i.value := by
      intro i hi
      have hchars := commas_length Padded.chars hi
      have htext := i.text_length
      exact reads_padded (hok i hi) (h i hi).exists_cons (ih i hi m (by omega))
    obtain ⟨c, cs, htext, hc⟩ := (h first List.mem_cons_self).exists_cons
    have hhead : first.text ++ first.after = c :: (cs ++ first.after) := by
      rw [htext, List.cons_append]
    exact hany ((reads_bracketed rfl (by decide) hitems
      (dropWhile_white (hok first List.mem_cons_self).before ⟨c, _, hhead, hc⟩ rfl)).map B.array)
  | emptyObject hw => exact hany ((reads_bracketed_nil rfl _ hw).map B.object)
  | object first others hok h ih =>
    rw [List.length_cons, List.length_append, List.length_singleton] at hn
    obtain ⟨m, rfl⟩ : ∃ m, n = m + 1 := ⟨n - 1, by omega⟩
    -- the same for the values of the members
    have hmembers : ∀ i ∈ first :: others,
        Reads closes (member (value B (m + 1))) i.chars i.pair := by
      intro i hi
      have hchars := commas_length Member.chars hi
      have hitem := i.item_length
      have htext := i.item.text_length
      exact reads_member (hok i hi) (reads_padded (hok i hi).item (h i hi).exists_cons
        (ih i hi m (by omega)))
    exact hany ((reads_bracketed rfl (by decide) hmembers
      (dropWhile_white (hok first List.mem_cons_self).before ⟨'"', _, rfl, rfl⟩ rfl)).map B.object)

/-- **Every text of a value is read as that value.**  The bound is on the depth, and a text is
longer than its value is deep. -/
theorem reads_value {B : Builder J} {t : List Char} {x : J} (h : IsValue B t x) {n : ℕ}
    (hn : t.length ≤ n) : Reads afterValue (value B n) t x := by
  obtain ⟨c, cs, hcs, -⟩ := h.exists_cons
  obtain ⟨n, rfl⟩ : ∃ m, n = m + 1 := ⟨n - 1, by rw [hcs, List.length_cons] at hn; omega⟩
  exact reads_value_succ h n hn

/-! ### Writing -/

lemma white_nil : White [] := by
  intro c hc
  cases hc

/-- The texts with commas between, if there are any. -/
def joined : List (List Char) → List Char
  | [] => []
  | t :: ts => commas id t ts

lemma joined_map {ι : Type} (chars : ι → List Char) (first : ι) (others : List ι) :
    joined ((first :: others).map chars) = commas chars first others := by
  rw [List.map_cons, joined, commas, commas, List.flatMap_map]
  rfl

lemma isValue_array {B : Builder J} {items : List (Padded J)} (hok : ∀ i ∈ items, i.Ok)
    (h : ∀ i ∈ items, IsValue B i.text i.value) :
    IsValue B ('[' :: (joined (items.map Padded.chars) ++ [']']))
      (B.array (items.map Padded.value)) := by
  cases items with
  | nil => exact .emptyArray white_nil
  | cons first others =>
    rw [joined_map]
    exact .array first others hok h

lemma isValue_object {B : Builder J} {ms : List (Member J)} (hok : ∀ m ∈ ms, m.Ok)
    (h : ∀ m ∈ ms, IsValue B m.item.text m.item.value) :
    IsValue B ('\x7b' :: (joined (ms.map Member.chars) ++ ['\x7d']))
      (B.object (ms.map Member.pair)) := by
  cases ms with
  | nil => exact .emptyObject white_nil
  | cons first others =>
    rw [joined_map]
    exact .object first others hok h

end Grammar

end TradingEngine.Lib.JsonText
