/-
Numbers as they are written in decimal.
-/
import Mathlib.Data.Nat.Digits.Lemmas

namespace TradingEngine.Lib.Decimal

lemma isDigit_of_mem {n : ℕ} {c : Char} (h : c ∈ Nat.toDigits 10 n) : c.isDigit = true :=
  Nat.isDigit_of_mem_toDigits (by decide) le_rfl h

/-- A number begins with a digit. -/
lemma exists_cons (n : ℕ) : ∃ c cs, Nat.toDigits 10 n = c :: cs ∧ c.isDigit = true := by
  obtain ⟨c, cs, hcs⟩ := List.exists_cons_of_ne_nil (Nat.toDigits_ne_nil (n := n) (b := 10))
  refine ⟨c, cs, hcs, isDigit_of_mem (n := n) ?_⟩
  rw [hcs]
  exact List.mem_cons_self

lemma toDigits_injective : Function.Injective (Nat.toDigits 10) := by
  intro m n h
  rw [← Nat.ofDigitChars_ten_toDigits (n := m), h, Nat.ofDigitChars_ten_toDigits]

lemma toList_toString_ofNat (n : ℕ) : (toString (Int.ofNat n)).toList = Nat.toDigits 10 n :=
  Nat.toList_repr

lemma toList_toString_negSucc (n : ℕ) :
    (toString (Int.negSucc n)).toList = '-' :: Nat.toDigits 10 (n + 1) := by
  change ("-" ++ (n + 1).repr).toList = _
  rw [String.toList_append, Nat.toList_repr]
  rfl

lemma notMem_toDigits {c : Char} (hc : c.isDigit = false) (n : ℕ) : c ∉ Nat.toDigits 10 n := by
  intro hmem
  rw [isDigit_of_mem hmem] at hc
  cases hc

/-- Nothing but digits and the sign is written. -/
lemma notMem_toString {c : Char} (hc : c.isDigit = false) (hsign : c ≠ '-') (n : ℤ) :
    c ∉ (toString n).toList := by
  cases n with
  | ofNat n =>
    rw [toList_toString_ofNat]
    exact notMem_toDigits hc n
  | negSucc n =>
    rw [toList_toString_negSucc, List.mem_cons, not_or]
    exact ⟨hsign, notMem_toDigits hc _⟩

/-- Different numbers have different texts. -/
lemma toString_injective : Function.Injective (toString : ℤ → String) := by
  have hsign : ∀ m n : ℕ, Nat.toDigits 10 m ≠ '-' :: Nat.toDigits 10 n := by
    intro m n h
    refine notMem_toDigits (c := '-') rfl m ?_
    rw [h]
    exact List.mem_cons_self
  intro a b h
  replace h := congrArg String.toList h
  cases a with
  | ofNat m =>
    cases b with
    | ofNat n =>
      rw [toList_toString_ofNat, toList_toString_ofNat] at h
      rw [toDigits_injective h]
    | negSucc n =>
      rw [toList_toString_ofNat, toList_toString_negSucc] at h
      exact absurd h (hsign _ _)
  | negSucc m =>
    cases b with
    | ofNat n =>
      rw [toList_toString_negSucc, toList_toString_ofNat] at h
      exact absurd h.symm (hsign _ _)
    | negSucc n =>
      rw [toList_toString_negSucc, toList_toString_negSucc] at h
      have hsucc := toDigits_injective (List.cons.inj h).2
      rw [Nat.succ.inj hsucc]

end TradingEngine.Lib.Decimal
