/-
The texts that the programs exchange: decimal numbers as `std::to_string` writes and
`std::stoi` reads them, and JSON values as `json.hpp` gives access to them.
-/
import Mathlib.Data.List.TakeWhile
import TradingEngine.Common.Protobuf
import TradingEngine.Lib.Decimal

namespace TradingEngine

open Lib

/-- What is thrown. -/
inductive Exception
  | parseError
  | typeError
  | invalidArgument
  /-- Of a number that does not fit, by `std::stoi` or by `json::parse`. -/
  | outOfRange
  deriving DecidableEq

/-! ### Decimal numbers -/

/-- `isspace` in the C locale. -/
def isSpace (c : Char) : Bool := c.toNat = 32 || (9 ≤ c.toNat && c.toNat ≤ 13)

/-- The sign that may stand before the digits, and what follows it. -/
def splitSign : List Char → Bool × List Char
  | '-' :: cs => (true, cs)
  | '+' :: cs => (false, cs)
  | cs => (false, cs)

/-- `std::stoi`; what follows the digits is ignored. -/
def stoi (text : String) : Except Exception I32 :=
  let (negative, cs) := splitSign (text.toList.dropWhile isSpace)
  let digits := cs.takeWhile Char.isDigit
  let n : ℤ := Nat.ofDigitChars 10 digits 0
  if digits = [] then .error .invalidArgument
  else if h : IsInt32 (if negative then -n else n) then .ok ⟨_, h⟩
  else .error .outOfRange

lemma not_isSpace_of_isDigit {c : Char} (h : c.isDigit) : ¬ isSpace c := by
  have hlow : '0'.toNat = 48 := rfl
  rw [Char.isDigit_iff_toNat, hlow] at h
  simp only [isSpace, Bool.or_eq_true, Bool.and_eq_true, decide_eq_true_eq]
  omega

lemma splitSign_of_isDigit {c : Char} (h : c.isDigit) (cs : List Char) :
    splitSign (c :: cs) = (false, c :: cs) := by
  unfold splitSign
  split
  · next heq =>
    rw [(List.cons.inj heq).1] at h
    cases h
  · next heq =>
    rw [(List.cons.inj heq).1] at h
    cases h
  · rfl

lemma takeWhile_toDigits (n : ℕ) : (Nat.toDigits 10 n).takeWhile Char.isDigit =
    Nat.toDigits 10 n := by
  rw [List.takeWhile_eq_self_iff]
  intro c hc
  exact Decimal.isDigit_of_mem hc

/-- What `std::stoi` makes of the digits of a number behind a sign. -/
lemma stoi_of_splitSign {text : String} {negative : Bool} {n : ℕ} {x : I32}
    (htext : splitSign (text.toList.dropWhile isSpace) = (negative, Nat.toDigits 10 n))
    (hx : (x : ℤ) = if negative then -(n : ℤ) else n) : stoi text = .ok x := by
  have hdigits : Nat.toDigits 10 n ≠ [] := Nat.toDigits_ne_nil
  have hvalue : Nat.ofDigitChars 10 (Nat.toDigits 10 n) 0 = n := Nat.ofDigitChars_ten_toDigits
  simp only [stoi, htext, takeWhile_toDigits, if_neg hdigits, hvalue, ← hx]
  rw [dif_pos x.2]
  rfl

/-- **Reading a number back** that was written in decimal. -/
theorem stoi_toString (x : I32) : stoi (toString (x : ℤ)) = .ok x := by
  obtain ⟨x, hx⟩ := x
  cases x with
  | ofNat n =>
    refine @stoi_of_splitSign _ false n _ ?_ rfl
    obtain ⟨c, cs, hcs, hc⟩ := Decimal.exists_cons n
    rw [Decimal.toList_toString_ofNat, hcs, List.dropWhile_cons_of_neg (not_isSpace_of_isDigit hc),
      splitSign_of_isDigit hc]
  | negSucc n =>
    refine @stoi_of_splitSign _ true (n + 1) _ ?_ ?_
    · rw [Decimal.toList_toString_negSucc]
      rfl
    · rfl

/-! ### JSON values -/

/-- The values of JSON, with two kinds of numbers: 64-bit integers, and doubles by their value,
without the sign of a zero. -/
inductive Json
  | null
  | boolean (b : Bool)
  | number (n : ℤ)
  | float (x : ℚ)
  | string (s : String)
  | array (items : List Json)
  | object (members : List (String × Json))

namespace Json

/-- `operator[]` with a key of a value that is not const: a null becomes an object, and the
member that is missing a null. -/
def member (key : String) : Json → Except Exception Json
  | .null => .ok .null
  | .object members => .ok ((members.lookup key).getD .null)
  | _ => .error .typeError

/-- `operator[]` with an index; the array is filled up with nulls. -/
def item (i : ℕ) : Json → Except Exception Json
  | .null => .ok .null
  | .array items => .ok (items[i]?.getD .null)
  | _ => .error .typeError

/-- What a range-based for loop goes through. -/
def elements : Json → List Json
  | .null => []
  | .array items => items
  | .object members => members.map Prod.snd
  | value => [value]

/-- `get_ref<std::string&>`. -/
def getString : Json → Except Exception String
  | .string s => .ok s
  | _ => .error .typeError

/-- `j["results"][0]["series"][0]["values"]`, the rows in an answer of the database. -/
def rows (j : Json) : Except Exception (List Json) := do
  let results ← j.member "results"
  let result ← results.item 0
  let series ← result.member "series"
  let firstSeries ← series.item 0
  let values ← firstSeries.member "values"
  return values.elements

end Json

end TradingEngine
