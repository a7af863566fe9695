/-
Readers of texts.

A reader takes what it understands from the front of a text.  `Reads` says that it takes a
text for a value wherever the text stands before something of the right kind; there is one rule
for each way to put readers together.
-/
import Mathlib.Tactic
import TradingEngine.Lib.Decimal

namespace TradingEngine.Lib

/-- A reader leaves what comes after what it has read. -/
abbrev Reader (α : Type) := StateT (List Char) Option α

namespace Reader

variable {α β : Type}

/-! ### What comes next -/

/-- The text is at its end, or goes on with a character of this kind. -/
def Next (P : Char → Bool) (rest : List Char) : Prop := ∀ c ∈ rest.head?, P c = true

lemma next_nil (P : Char → Bool) : Next P [] := by
  intro c hc
  cases hc

@[simp] lemma next_cons {P : Char → Bool} {c : Char} {cs : List Char} :
    Next P (c :: cs) ↔ P c = true := by
  simp [Next]

/-- Items that a separator stands in front of. -/
lemma next_flatMap {P : Char → Bool} {sep : Char} (hsep : P sep = true) (w : α → List Char)
    (xs : List α) {rest : List Char} (h : Next P rest) :
    Next P ((xs.flatMap fun x => sep :: w x) ++ rest) := by
  cases xs with
  | nil => exact h
  | cons x xs => exact next_cons.2 hsep

lemma Next.mono {P Q : Char → Bool} (h : ∀ c, P c = true → Q c = true) {rest : List Char}
    (hrest : Next P rest) : Next Q rest :=
  fun c hc => h c (hrest c hc)

/-- None of the characters `stops` occurs in the text. -/
def Free (stops text : List Char) : Prop := ∀ c ∈ text, c ∉ stops

instance (stops text : List Char) : Decidable (Free stops text) :=
  List.decidableBAll (fun c => c ∉ stops) text

namespace Free

variable {stops text text' : List Char}

lemma of_cons {c : Char} (h : Free stops (c :: text)) : Free stops text :=
  fun d hd => h d (List.mem_cons_of_mem c hd)

lemma append (h : Free stops text) (h' : Free stops text') : Free stops (text ++ text') := by
  intro c hc
  rcases List.mem_append.1 hc with hc | hc
  · exact h c hc
  · exact h' c hc

end Free

/-- The reader takes the text for the value, if the text goes on as it should. -/
def Reads (P : Char → Bool) (r : Reader α) (text : List Char) (x : α) : Prop :=
  ∀ rest, Next P rest → r.run (text ++ rest) = some (x, rest)

namespace Reads

variable {P Q : Char → Bool} {r : Reader α} {s t : List Char} {x : α} {y : β}

lemma mono (h : Reads P r s x) (hQ : ∀ c, Q c = true → P c = true) : Reads Q r s x :=
  fun rest hrest => h rest (hrest.mono hQ)

lemma pure (P : Char → Bool) (x : α) : Reads P (pure x) [] x := fun _ _ => rfl

lemma bind {f : α → Reader β} (hr : Reads P r s x) (hf : Reads Q (f x) t y)
    (hnext : ∀ rest, Next Q rest → Next P (t ++ rest)) : Reads Q (r >>= f) (s ++ t) y := by
  intro rest hrest
  have hrun := hr (t ++ rest) (hnext rest hrest)
  rw [StateT.run_bind, List.append_assoc, hrun]
  exact hf rest hrest

/-- The second part begins with a character that may follow the first one. -/
lemma bind_cons {f : α → Reader β} {c : Char} (hr : Reads P r s x) (hf : Reads Q (f x) (c :: t) y)
    (hc : P c = true) : Reads Q (r >>= f) (s ++ c :: t) y :=
  hr.bind hf fun _ _ => next_cons.2 hc

lemma map (f : α → β) (h : Reads P r s x) : Reads P (f <$> r) s (f x) := by
  intro rest hrest
  rw [StateT.run_map, h rest hrest]
  rfl

end Reads

/-- The whole text. -/
def readAll (r : Reader α) (text : String) : Option α :=
  match r.run text.toList with
  | some (x, []) => some x
  | _ => none

lemma readAll_of_reads {P : Char → Bool} {r : Reader α} {text : String} {x : α}
    (h : Reads P r text.toList x) : readAll r text = some x := by
  have hrun := h [] (next_nil P)
  rw [List.append_nil] at hrun
  rw [readAll, hrun]

/-! ### Characters -/

/-- This character. -/
def char (c : Char) : Reader Unit
  | [] => none
  | d :: cs => if d = c then some ((), cs) else none

lemma reads_char (P : Char → Bool) (c : Char) : Reads P (char c) [c] () :=
  fun _ _ => if_pos rfl

lemma Reads.char_bind {P : Char → Bool} {c : Char} {f : Unit → Reader β} {t : List Char} {y : β}
    (hf : Reads P (f ()) t y) : Reads P (char c >>= f) (c :: t) y :=
  (reads_char (fun _ => true) c).bind hf fun _ _ _ _ => rfl

/-! ### Repetition -/

/-- At most this often: the separator and what `r` reads. -/
def upTo (sep : Char) (r : Reader α) : ℕ → Reader (List α)
  | 0, cs => some ([], cs)
  | _ + 1, [] => some ([], [])
  | n + 1, c :: cs =>
    if c = sep then (do
      let x ← r
      let xs ← upTo sep r n
      return x :: xs).run cs
    else some ([], c :: cs)

/-- As often as possible: the separator and what `r` reads. -/
def many (sep : Char) (r : Reader α) : Reader (List α) := fun cs => upTo sep r cs.length cs

section Many

variable {ι : Type} {sep : Char} {P Q : Char → Bool} {r : Reader α} {w : ι → List Char}
  {v : ι → α} {items : List ι}

lemma upTo_of_next (hQ : Q sep = false) (n : ℕ) {rest : List Char} (hrest : Next Q rest) :
    (upTo sep r n).run rest = some ([], rest) := by
  cases n with
  | zero => rfl
  | succ n =>
    cases rest with
    | nil => rfl
    | cons c cs =>
      have hne : c ≠ sep := by
        rintro rfl
        rw [next_cons, hQ] at hrest
        cases hrest
      exact if_neg hne

lemma reads_upTo (h : ∀ i ∈ items, Reads P r (w i) (v i)) (hP : P sep = true)
    (hQP : ∀ c, Q c = true → P c = true) (hQ : Q sep = false) {n : ℕ} (hn : items.length ≤ n) :
    Reads Q (upTo sep r n) (items.flatMap fun i => sep :: w i) (items.map v) := by
  induction items generalizing n with
  | nil => exact fun rest hrest => upTo_of_next hQ n hrest
  | cons x items ih =>
    obtain ⟨n, rfl⟩ : ∃ m, n = m + 1 := ⟨n - 1, by simp at hn; omega⟩
    have hitems := ih (fun y hy => h y (List.mem_cons_of_mem x hy)) (Nat.le_of_succ_le_succ hn)
    have hnext : ∀ rest, Next Q rest → Next P ((items.flatMap fun i => sep :: w i) ++ rest) :=
      fun rest hrest => next_flatMap hP w items (hrest.mono hQP)
    have hpair : Reads Q (do
        let x ← r
        let xs ← upTo sep r n
        return x :: xs) (w x ++ items.flatMap fun i => sep :: w i) (v x :: items.map v) :=
      (h x List.mem_cons_self).bind (hitems.map (v x :: ·)) hnext
    intro rest hrest
    rw [List.flatMap_cons, List.cons_append, List.cons_append]
    exact (if_pos rfl).trans (hpair rest hrest)

/-- **Repetition**: the items can be told from each other and from what comes next. -/
lemma reads_manyMap (h : ∀ i ∈ items, Reads P r (w i) (v i)) (hP : P sep = true)
    (hQP : ∀ c, Q c = true → P c = true) (hQ : Q sep = false) :
    Reads Q (many sep r) (items.flatMap fun i => sep :: w i) (items.map v) := by
  intro rest hrest
  -- every item takes its separator at least, so that the bound is not reached
  have hlen : items.length ≤ ((items.flatMap fun i => sep :: w i) ++ rest).length := by
    induction items with
    | nil => exact Nat.zero_le _
    | cons x items ih =>
      have hitems := ih fun y hy => h y (List.mem_cons_of_mem x hy)
      rw [List.flatMap_cons, List.length_append, List.length_append, List.length_cons,
        List.length_cons]
      rw [List.length_append] at hitems
      omega
  exact reads_upTo h hP hQP hQ hlen rest hrest

/-- Every value has one text. -/
lemma reads_many {w : α → List Char} {xs : List α} (h : ∀ x ∈ xs, Reads P r (w x) x)
    (hP : P sep = true) (hQP : ∀ c, Q c = true → P c = true) (hQ : Q sep = false) :
    Reads Q (many sep r) (xs.flatMap fun x => sep :: w x) xs := by
  have hmany := reads_manyMap (v := id) h hP hQP hQ
  rwa [List.map_id] at hmany

end Many

/-! ### Escapes -/

/-- A backslash in front of every special character. -/
def escape (special : Char → Bool) (cs : List Char) : List Char :=
  cs.flatMap fun c => if special c then ['\\', c] else [c]

/-- The text up to the first character that stops it.  A backslash takes its meaning from the
special character after it; other backslashes stand for themselves. -/
def unescape (special stop : Char → Bool) : List Char → List Char × List Char
  | [] => ([], [])
  | [c] => if stop c then ([], [c]) else ([c], [])
  | c :: d :: cs =>
    if c = '\\' ∧ special d then
      (d :: (unescape special stop cs).1, (unescape special stop cs).2)
    else if stop c then ([], c :: d :: cs)
    else (c :: (unescape special stop (d :: cs)).1, (unescape special stop (d :: cs)).2)

section Escape

variable {special stop : Char → Bool}

lemma escape_cons (c : Char) (cs : List Char) :
    escape special (c :: cs) = (if special c then ['\\', c] else [c]) ++ escape special cs := rfl

lemma escape_append (cs ds : List Char) :
    escape special (cs ++ ds) = escape special cs ++ escape special ds :=
  List.flatMap_append

lemma escape_eq_self {cs : List Char} (h : ∀ c ∈ cs, special c = false) :
    escape special cs = cs := by
  induction cs with
  | nil => rfl
  | cons c cs ih =>
    have hc : ¬ special c = true := by simp [h c List.mem_cons_self]
    rw [escape_cons, if_neg hc, ih fun d hd => h d (List.mem_cons_of_mem c hd)]
    rfl

lemma unescape_of_next (hstop : stop '\\' = false) {rest : List Char} (hrest : Next stop rest) :
    unescape special stop rest = ([], rest) := by
  match rest with
  | [] => rfl
  | [c] => rw [unescape, if_pos (next_cons.1 hrest)]
  | c :: d :: cs =>
    have hne : c ≠ '\\' := by
      rintro rfl
      rw [next_cons, hstop] at hrest
      cases hrest
    rw [unescape, if_neg fun h => hne h.1, if_pos (next_cons.1 hrest)]

lemma unescape_cons {c : Char} (hc : c ≠ '\\') (hstop : stop c = false) (cs : List Char) :
    unescape special stop (c :: cs) =
      (c :: (unescape special stop cs).1, (unescape special stop cs).2) := by
  cases cs with
  | nil => simp [unescape, hstop]
  | cons d cs => rw [unescape, if_neg fun h => hc h.1, if_neg (by simp [hstop])]

/-- **What was escaped is read back.** -/
lemma unescape_escape (hstop : stop '\\' = false) {text : List Char}
    (htext : ∀ c ∈ text, c ≠ '\\' ∧ (stop c = true → special c = true)) {rest : List Char}
    (hrest : Next stop rest) : unescape special stop (escape special text ++ rest) =
      (text, rest) := by
  induction text with
  | nil => exact unescape_of_next hstop hrest
  | cons c text ih =>
    obtain ⟨hc, hspecial⟩ := htext c List.mem_cons_self
    have hread := ih fun d hd => htext d (List.mem_cons_of_mem c hd)
    by_cases h : special c = true
    · -- the backslash and the character are read in one round
      rw [escape_cons, if_pos h, List.append_assoc, List.cons_append, List.cons_append,
        List.nil_append, unescape, if_pos ⟨rfl, h⟩, hread]
    · have hgo : stop c = false := by
        rw [← Bool.not_eq_true]
        exact fun hs => h (hspecial hs)
      rw [escape_cons, if_neg h, List.append_assoc, List.singleton_append, unescape_cons hc hgo,
        hread]

end Escape

/-- A text with escapes. -/
def text (special stop : Char → Bool) : Reader String := fun cs =>
  some (String.ofList (unescape special stop cs).1, (unescape special stop cs).2)

/-- A text with escapes that is not empty. -/
def name (special stop : Char → Bool) : Reader String := fun cs =>
  if (unescape special stop cs).1 = [] then none
  else some (String.ofList (unescape special stop cs).1, (unescape special stop cs).2)

section Text

variable {special stop : Char → Bool} {s : String}

lemma reads_text (hstop : stop '\\' = false)
    (hs : ∀ c ∈ s.toList, c ≠ '\\' ∧ (stop c = true → special c = true)) :
    Reads stop (text special stop) (escape special s.toList) s := by
  intro rest hrest
  have hread := unescape_escape hstop hs hrest
  show some (String.ofList (unescape special stop _).1, (unescape special stop _).2) = _
  rw [hread, String.ofList_toList]

lemma reads_name (hne : s ≠ "") (hstop : stop '\\' = false)
    (hs : ∀ c ∈ s.toList, c ≠ '\\' ∧ (stop c = true → special c = true)) :
    Reads stop (name special stop) (escape special s.toList) s := by
  intro rest hrest
  have hread := unescape_escape hstop hs hrest
  have hne' : s.toList ≠ [] := by simpa using hne
  show (if (unescape special stop _).1 = [] then none
    else some (String.ofList (unescape special stop _).1, (unescape special stop _).2)) = _
  rw [hread, if_neg hne', String.ofList_toList]

end Text

/-! ### Numbers -/

/-- A number in decimal. -/
def natural : Reader ℕ := fun cs =>
  if cs.takeWhile Char.isDigit = [] then none
  else some (Nat.ofDigitChars 10 (cs.takeWhile Char.isDigit) 0, cs.dropWhile Char.isDigit)

/-- A number in decimal that may have a minus sign. -/
def integer : Reader ℤ
  | '-' :: cs => ((fun n : ℕ => -(n : ℤ)) <$> natural).run cs
  | cs => ((fun n : ℕ => (n : ℤ)) <$> natural).run cs

lemma reads_natural (n : ℕ) : Reads (fun c => !c.isDigit) natural (Nat.toDigits 10 n) n := by
  intro rest hrest
  have hdigits : ∀ c ∈ Nat.toDigits 10 n, c.isDigit = true := fun c hc =>
    Decimal.isDigit_of_mem hc
  have htake : (Nat.toDigits 10 n ++ rest).takeWhile Char.isDigit = Nat.toDigits 10 n ∧
      (Nat.toDigits 10 n ++ rest).dropWhile Char.isDigit = rest := by
    rw [List.takeWhile_append_of_pos hdigits, List.dropWhile_append_of_pos hdigits]
    cases rest with
    | nil => simp
    | cons c cs =>
      have hc : ¬ c.isDigit = true := by simpa using hrest
      simp [hc]
  have hvalue : Nat.ofDigitChars 10 (Nat.toDigits 10 n) 0 = n := Nat.ofDigitChars_ten_toDigits
  show (if _ = [] then none else some (Nat.ofDigitChars 10 _ 0, _)) = _
  rw [htake.1, htake.2, if_neg Nat.toDigits_ne_nil, hvalue]

lemma reads_integer (n : ℤ) :
    Reads (fun c => !c.isDigit) integer (toString n).toList n := by
  cases n with
  | ofNat n =>
    obtain ⟨c, cs, hcs, hc⟩ := Decimal.exists_cons n
    -- the first digit is not taken for a sign
    have hne : c ≠ '-' := by
      rintro rfl
      cases hc
    intro rest hrest
    have hread := ((reads_natural n).map fun n : ℕ => (n : ℤ)) rest hrest
    rw [Decimal.toList_toString_ofNat]
    rw [hcs] at hread ⊢
    refine Eq.trans ?_ hread
    show integer (c :: (cs ++ rest)) = ((fun n : ℕ => (n : ℤ)) <$> natural).run (c :: (cs ++ rest))
    unfold integer
    split
    · next heq => exact absurd (List.cons.inj heq).1 hne
    · rfl
  | negSucc n =>
    rw [Decimal.toList_toString_negSucc]
    exact fun rest hrest => ((reads_natural (n + 1)).map fun n : ℕ => -(n : ℤ)) rest hrest

end Reader

end TradingEngine.Lib
