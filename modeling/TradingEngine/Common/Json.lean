/-
JSON values as texts (`json.hpp`): `dump`, `parse` and `operator>>`.

The members of an object are a `std::map`.  A number is read as a 64-bit integer or as a double;
how `dump` writes a double (`dump_float`) is a parameter, and the programs write no doubles of
their own.
-/
import Mathlib.Data.Int.Log
import Mathlib.Data.String.Basic
import TradingEngine.Common.Text
import TradingEngine.Lib.JsonText
import TradingEngine.Lib.SortedMap

namespace TradingEngine.Json

open Lib Lib.JsonText Lib.Reader

/-! ### Numbers -/

/-- The values of the integers of JSON, signed or not. -/
def IsInteger (n : ℤ) : Prop := -2 ^ 63 ≤ n ∧ n < 2 ^ 64

instance (n : ℤ) : Decidable (IsInteger n) := inferInstanceAs (Decidable (_ ∧ _))

/-- The nearest integer, and of two such the even one. -/
def roundEven (x : ℚ) : ℤ :=
  if x - ⌊x⌋ < 1 / 2 then ⌊x⌋
  else if 1 / 2 < x - ⌊x⌋ then ⌊x⌋ + 1
  else if Even ⌊x⌋ then ⌊x⌋ else ⌊x⌋ + 1

/-- `std::strtod`: the nearest double, whose last place is that of the 53rd bit or of the smallest
double.  It is infinite from `2 ^ 1024` on. -/
def strtod (x : ℚ) : ℚ :=
  let place : ℚ := 2 ^ (max (Int.log 2 |x|) (-1022) - 52)
  roundEven (x / place) * place

example : strtod (1 / 10) = 3602879701896397 / 2 ^ 55 := by decide +kernel

/-- A number as a double; `out_of_range.406` if it is too large. -/
def ofDouble (x : ℚ) : Except Exception Json :=
  if |strtod x| < 2 ^ 1024 then .ok (.float (strtod x)) else .error .outOfRange

/-- A number as `scan_number` takes it: as an integer, if it is written as one and fits. -/
def ofNumeral : Numeral → Except Exception Json
  | .integer n => if IsInteger n then .ok (.number n) else ofDouble n
  | .decimal x => ofDouble x

/-- `get<int>`, and the conversion of a value to `int`: an integer goes round, and a double loses
its fraction.  Of a double outside of the range of `int` the language says nothing. -/
def getInt : Json → Except Exception I32
  | .number n => .ok (.ofInt n)
  | .float x => .ok (.ofInt (x.num.tdiv x.den))
  | .boolean b => .ok (.ofInt (if b then 1 else 0))
  | _ => .error .typeError

lemma ofInt_val (x : I32) : I32.ofInt x = x := Subtype.ext (toInt_eq x.2)

lemma getInt_number (x : I32) : getInt (.number x) = .ok x := by
  rw [getInt, ofInt_val]

lemma isInteger_val (x : I32) : IsInteger x := by
  obtain ⟨hlow, hhigh⟩ := x.2
  exact ⟨by omega, by omega⟩

/-! ### Reading -/

/-- The values as `json_sax_dom_parser` builds them, or what is thrown at the first number that is
too large; a key that comes again is overwritten. -/
def dom : Builder (Except Exception Json) where
  null := .ok .null
  boolean b := .ok (.boolean b)
  number := ofNumeral
  string s := .ok (.string s)
  array items := .array <$> items.mapM id
  object members :=
    (.object <| SortedMap.ofList ·) <$> members.mapM fun member => (member.1, ·) <$> member.2

/-- `json::parse`; a null character ends the text.  A value that cannot be read is a parse error
here, also when a number in front of the fault is too large. -/
def parse (text : String) : Except Exception Json :=
  match (padded (value dom text.length)).run text.toList with
  | some (j, []) => j
  | some (j, '\x00' :: _) => j
  | some (j, _) => j >>= fun _ => .error .parseError
  | none => .error .parseError

/-- `operator>>`, which leaves what comes behind the value. -/
def extract (text : String) : Except Exception Json :=
  let reader : Reader (Except Exception Json) := do
    white
    value dom text.length
  match reader.run text.toList with
  | some (j, _) => j
  | none => .error .parseError

/-! ### Writing -/

/-- `dump_escaped` of one character. -/
def dumpEscaped (c : Char) : List Char :=
  if c.toNat = 8 then ['\\', 'b']
  else if c = '\t' then ['\\', 't']
  else if c = '\n' then ['\\', 'n']
  else if c.toNat = 12 then ['\\', 'f']
  else if c = '\r' then ['\\', 'r']
  else if c = '"' then ['\\', '"']
  else if c = '\\' then ['\\', '\\']
  else if c.toNat ≤ 31 then
    ['\\', 'u', '0', '0', (c.toNat / 16).digitChar, (c.toNat % 16).digitChar]
  else [c]

/-- A string in quotes. -/
def dumpString (s : String) : List Char := '"' :: (s.toList.flatMap dumpEscaped ++ ['"'])

section Dump

variable (dumpFloat : ℚ → List Char)

mutual

/-- `dump` without indentation; `dumpFloat` is the text of a double. -/
def dumpChars : Json → List Char
  | .null => "null".toList
  | .boolean b => if b then "true".toList else "false".toList
  | .number n => (toString n).toList
  | .float x => dumpFloat x
  | .string s => dumpString s
  | .array items => '[' :: (joined (dumpItems items) ++ [']'])
  | .object members => '\x7b' :: (joined (dumpMembers members) ++ ['\x7d'])

/-- The texts of the elements of an array. -/
def dumpItems : List Json → List (List Char)
  | [] => []
  | item :: items => dumpChars item :: dumpItems items

/-- The texts of the members of an object. -/
def dumpMembers : List (String × Json) → List (List Char)
  | [] => []
  | (key, value) :: members => (dumpString key ++ ':' :: dumpChars value) :: dumpMembers members

end

/-- `dump`. -/
def dump (j : Json) : String := String.ofList (j.dumpChars dumpFloat)

lemma dumpItems_eq (items : List Json) :
    dumpItems dumpFloat items = items.map (dumpChars dumpFloat) := by
  induction items with
  | nil => rfl
  | cons item items ih => rw [dumpItems, ih, List.map_cons]

lemma dumpMembers_eq (members : List (String × Json)) :
    dumpMembers dumpFloat members =
      members.map fun m => dumpString m.1 ++ ':' :: m.2.dumpChars dumpFloat := by
  induction members with
  | nil => rfl
  | cons m members ih => rw [dumpMembers, ih, List.map_cons]

end Dump

/-- Values without doubles, and with the members of objects in the order of their keys. -/
inductive Canonical : Json → Prop
  | null : Canonical .null
  | boolean (b : Bool) : Canonical (.boolean b)
  | number {n : ℤ} (h : IsInteger n) : Canonical (.number n)
  | string (s : String) : Canonical (.string s)
  | array {items : List Json} (h : ∀ j ∈ items, Canonical j) : Canonical (.array items)
  | object {members : List (String × Json)} (hsorted : SortedMap.Sorted members)
    (h : ∀ m ∈ members, Canonical m.2) : Canonical (.object members)

/-- The two digits of a control character. -/
lemma codeUnit_control : ∀ n < 32, codeUnit ['0', '0', (n / 16).digitChar, (n % 16).digitChar] =
    some (n, []) := by decide

lemma charText_dumpEscaped (c : Char) : CharText (dumpEscaped c) c := by
  have hshort : ∀ {n : ℕ} {d e : Char}, c.toNat = n → shortEscape d = some e → e.toNat = n →
      CharText ['\\', d] c := by
    intro n d e hc hd he
    rw [← he] at hc
    rw [Char.toNat_inj.1 hc]
    exact .short hd
  rw [dumpEscaped]
  split_ifs with hb ht hn hf hr hquote hslash hcontrol
  · exact hshort hb rfl rfl
  · rw [ht]
    exact .short rfl
  · rw [hn]
    exact .short rfl
  · exact hshort hf rfl rfl
  · rw [hr]
    exact .short rfl
  · rw [hquote]
    exact .short rfl
  · rw [hslash]
    exact .short rfl
  · exact .unit (codeUnit_control c.toNat (by omega))
  · exact .plain hquote hslash (by omega)

lemma charsText_flatMap (cs : List Char) : CharsText (cs.flatMap dumpEscaped) cs := by
  induction cs with
  | nil => exact .nil
  | cons c cs ih => exact .cons (charText_dumpEscaped c) ih

section DumpIsText

variable (dumpFloat : ℚ → List Char)

/-- A value as it is dumped. -/
def dumped (j : Json) : Padded (Except Exception Json) := ⟨[], j.dumpChars dumpFloat, [], .ok j⟩

/-- A member of an object as it is dumped. -/
def dumpedMember (m : String × Json) : Member (Except Exception Json) :=
  ⟨[], m.1.toList.flatMap dumpEscaped, m.1, [], m.2.dumped dumpFloat⟩

lemma dumped_ok (j : Json) : (j.dumped dumpFloat).Ok := ⟨white_nil, white_nil⟩

lemma dumpedMember_ok (m : String × Json) : (dumpedMember dumpFloat m).Ok :=
  ⟨white_nil, charsText_flatMap _, white_nil, dumped_ok dumpFloat m.2⟩

lemma dumpItems_chars (items : List Json) :
    dumpItems dumpFloat items = (items.map (dumped dumpFloat)).map Padded.chars := by
  rw [dumpItems_eq, List.map_map]
  refine List.map_congr_left fun j _ => ?_
  exact (List.append_nil _).symm

lemma dumpMembers_chars (members : List (String × Json)) :
    dumpMembers dumpFloat members = (members.map (dumpedMember dumpFloat)).map Member.chars := by
  rw [dumpMembers_eq, List.map_map]
  refine List.map_congr_left fun m _ => ?_
  show ('"' :: (_ ++ ['"'])) ++ ':' :: m.2.dumpChars dumpFloat =
    '"' :: (_ ++ '"' :: ':' :: (_ ++ []))
  rw [List.append_nil, List.cons_append, List.append_assoc, List.singleton_append]
  rfl

/-- Values without faults make an array. -/
lemma dom_array (items : List Json) : dom.array (items.map .ok) = .ok (.array items) := by
  have hitems : (items.map Except.ok).mapM (id : Except Exception Json → _) = .ok items := by
    rw [List.mapM_map]
    exact (List.mapM_pure (f := id)).trans (congrArg Except.ok (List.map_id items))
  show Json.array <$> _ = _
  rw [hitems]
  rfl

/-- Members without faults, in the order of their keys, make an object. -/
lemma dom_object {members : List (String × Json)} (h : SortedMap.Sorted members) :
    dom.object (members.map fun m => (m.1, .ok m.2)) = .ok (.object members) := by
  have hmembers : (members.map fun m => (m.1, Except.ok m.2)).mapM
      (fun member : String × Except Exception Json => (member.1, ·) <$> member.2) =
        .ok members := by
    rw [List.mapM_map]
    exact (List.mapM_pure (f := id)).trans (congrArg Except.ok (List.map_id members))
  show (Json.object <| SortedMap.ofList ·) <$> _ = _
  rw [hmembers]
  show Except.ok (Json.object (SortedMap.ofList members)) = _
  rw [SortedMap.ofList_eq_of_perm (.refl members) h]

/-- **What is dumped is a text of the value.** -/
theorem isValue_dumpChars {j : Json} (h : Canonical j) :
    IsValue dom (j.dumpChars dumpFloat) (.ok j) := by
  induction h with
  | null => exact .null
  | boolean b =>
    cases b with
    | true => exact .isTrue
    | false => exact .isFalse
  | @number n h =>
    have hnumber : ofNumeral (.integer n) = .ok (.number n) := if_pos h
    rw [← hnumber]
    exact .number (numberText_int n)
  | string s => exact .string (charsText_flatMap s.toList)
  | @array items h ih =>
    have hvalue := isValue_array (B := dom)
      (List.forall_mem_map.2 fun j _ => dumped_ok dumpFloat j) (List.forall_mem_map.2 ih)
    rw [List.map_map (f := dumped dumpFloat) (g := Padded.value)] at hvalue
    rw [dumpChars, dumpItems_chars, ← dom_array items]
    exact hvalue
  | @object members hsorted h ih =>
    have hvalue := isValue_object (B := dom)
      (List.forall_mem_map.2 fun m _ => dumpedMember_ok dumpFloat m) (List.forall_mem_map.2 ih)
    rw [List.map_map (f := dumpedMember dumpFloat) (g := Member.pair)] at hvalue
    rw [dumpChars, dumpMembers_chars, ← dom_object hsorted]
    exact hvalue

end DumpIsText

/-! ### The round trip -/

/-- A text of the value, with blanks around. -/
def Means (text : String) (j : Json) : Prop :=
  ∃ before t after, text.toList = before ++ (t ++ after) ∧ White before ∧ White after ∧
    IsValue dom t (.ok j)

/-- What is thrown at a number that is too large is thrown by `parse`, too. -/
lemma parse_of_isValue {text : String} {before t after : List Char} {j : Except Exception Json}
    (htext : text.toList = before ++ (t ++ after)) (hbefore : White before) (hafter : White after)
    (h : IsValue dom t j) : parse text = j := by
  have hlen : t.length ≤ text.length := by
    rw [← String.length_toList, htext, List.length_append, List.length_append]
    omega
  have hread := reads_padded (p := (⟨before, t, after, j⟩ : Padded _)) ⟨hbefore, hafter⟩
    h.exists_cons (reads_value h hlen) [] (next_nil closes)
  rw [List.append_nil] at hread
  have hrun : (padded (value dom text.length)).run text.toList = some (j, []) := by
    rw [htext]
    exact hread
  rw [parse, hrun]

/-- A value is read from its texts. -/
theorem Means.parse_eq {text : String} {j : Json} (h : Means text j) : parse text = .ok j := by
  obtain ⟨before, t, after, htext, hbefore, hafter, hvalue⟩ := h
  exact parse_of_isValue htext hbefore hafter hvalue

section RoundTrip

variable (dumpFloat : ℚ → List Char)

lemma means_dump {j : Json} (h : Canonical j) {after : List Char} (hafter : White after) :
    Means (j.dump dumpFloat ++ String.ofList after) j := by
  refine ⟨[], j.dumpChars dumpFloat, after, ?_, white_nil, hafter, isValue_dumpChars dumpFloat h⟩
  rw [String.toList_append, String.toList_ofList, dump, String.toList_ofList]
  rfl

/-- **A value that is dumped is parsed as itself.** -/
theorem parse_dump {j : Json} (h : Canonical j) : parse (j.dump dumpFloat) = .ok j := by
  have hmeans := means_dump dumpFloat h white_nil
  rw [String.ofList_nil, String.append_empty] at hmeans
  exact hmeans.parse_eq

end RoundTrip

/-- A value at the beginning of a file. -/
theorem extract_of_isValue {t : List Char} {j : Json} (h : IsValue dom t (.ok j))
    {rest : List Char} (hrest : Next afterValue rest) :
    extract (String.ofList (t ++ rest)) = .ok j := by
  have hlen : t.length ≤ (String.ofList (t ++ rest)).length := by
    rw [String.length_ofList, List.length_append]
    omega
  obtain ⟨c, cs, hcs, hc⟩ := h.exists_cons
  have hread := reads_value h hlen rest hrest
  -- a value does not begin with a blank
  have hwhite : (t ++ rest).dropWhile isWhite = t ++ rest := by
    rw [afterValue, Bool.or_eq_false_iff] at hc
    rw [hcs, List.cons_append, List.dropWhile_cons_of_neg (by rw [hc.1]; exact Bool.false_ne_true)]
  have hrun : (do
      white
      value dom (String.ofList (t ++ rest)).length : Reader (Except Exception Json)).run
        (t ++ rest) = some (.ok j, rest) := by
    show (value dom _).run ((t ++ rest).dropWhile isWhite) = _
    rw [hwhite]
    exact hread
  rw [extract, String.toList_ofList]
  simp only [hrun]

/-! ### Answers -/

/-- An answer of the database with one series. -/
def answer (name : String) (columns : List String) (values : List Json) : Json :=
  .object [("results", .array [.object [
    ("series", .array [.object [("columns", .array (columns.map .string)), ("name", .string name),
      ("values", .array values)]]),
    ("statement_id", .number 0)]])]

/-- The answer to a query that no row matches. -/
def noAnswer : Json := .object [("results", .array [.object [("statement_id", .number 0)]])]

lemma canonical_zero : Canonical (.number 0) := .number (by decide)

lemma canonical_strings (texts : List String) : ∀ j ∈ texts.map Json.string, j.Canonical := by
  intro j hj
  obtain ⟨s, -, rfl⟩ := List.mem_map.1 hj
  exact .string s

lemma canonical_answer (name : String) (columns : List String) {values : List Json}
    (h : ∀ j ∈ values, j.Canonical) : (answer name columns values).Canonical := by
  have hnames : ["columns", "name", "values"].Pairwise (· < ·) := by decide +kernel
  have hparts : ["series", "statement_id"].Pairwise (· < ·) := by decide +kernel
  have hseries : Canonical (.object [("columns", .array (columns.map .string)),
      ("name", .string name), ("values", .array values)]) :=
    .object (List.pairwise_map.1 hnames) (List.forall_mem_cons.2
      ⟨.array (canonical_strings columns), List.forall_mem_cons.2 ⟨.string name,
        List.forall_mem_singleton.2 (.array h)⟩⟩)
  have hresult : Canonical (.object [("series", .array [_]), ("statement_id", .number 0)]) :=
    .object (List.pairwise_map.1 hparts) (List.forall_mem_cons.2
      ⟨.array (List.forall_mem_singleton.2 hseries), List.forall_mem_singleton.2 canonical_zero⟩)
  exact .object (List.pairwise_singleton _ _) (List.forall_mem_singleton.2
    (.array (List.forall_mem_singleton.2 hresult)))

lemma canonical_noAnswer : noAnswer.Canonical := by
  have hresult : Canonical (.object [("statement_id", .number 0)]) :=
    .object (List.pairwise_singleton _ _) (List.forall_mem_singleton.2 canonical_zero)
  exact .object (List.pairwise_singleton _ _) (List.forall_mem_singleton.2
    (.array (List.forall_mem_singleton.2 hresult)))

end TradingEngine.Json
