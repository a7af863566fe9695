/-
Two lists compared position by position.

The pairs at which they differ hold what is left to compare: two lists of the same length are
equal as multisets exactly when the left and the right sides of these pairs are.
-/
import Mathlib.Tactic

namespace TradingEngine.Mismatch

variable {β : Type*} [DecidableEq β]

/-- The pairs at the common positions of two lists at which they differ. -/
def mismatches (xs ys : List β) : List (β × β) := (xs.zip ys).filter fun p => p.1 ≠ p.2

@[simp] lemma mismatches_nil_left (ys : List β) : mismatches [] ys = [] := rfl

@[simp] lemma mismatches_nil_right (xs : List β) : mismatches xs [] = [] := by
  rw [mismatches, List.zip_nil_right]
  rfl

@[simp] lemma mismatches_cons_self (x : β) (xs ys : List β) :
    mismatches (x :: xs) (x :: ys) = mismatches xs ys := by
  simp [mismatches]

lemma mismatches_cons_of_ne {x y : β} (h : x ≠ y) (xs ys : List β) :
    mismatches (x :: xs) (y :: ys) = (x, y) :: mismatches xs ys := by
  simp [mismatches, h]

lemma mem_of_mem_mismatches {p : β × β} {xs ys : List β} (h : p ∈ mismatches xs ys) :
    p.1 ∈ xs ∧ p.2 ∈ ys :=
  List.of_mem_zip (List.mem_filter.1 h).1

/-- What stands at equal positions is common to both lists. -/
lemma exists_common {xs ys : List β} (h : xs.length = ys.length) : ∃ common : Multiset β,
    (xs : Multiset β) = common + ((mismatches xs ys).map Prod.fst : List β) ∧
      (ys : Multiset β) = common + ((mismatches xs ys).map Prod.snd : List β) := by
  induction xs generalizing ys with
  | nil =>
    obtain rfl := List.eq_nil_of_length_eq_zero (show ys.length = 0 from h.symm)
    exact ⟨0, rfl, rfl⟩
  | cons x xs ih =>
    rcases ys with _ | ⟨y, ys⟩
    · cases h
    obtain ⟨common, hxs, hys⟩ := ih (show xs.length = ys.length by simpa using h)
    by_cases hxy : x = y
    · subst hxy
      refine ⟨x ::ₘ common, ?_, ?_⟩
      · rw [mismatches_cons_self, Multiset.cons_add, ← hxs, Multiset.cons_coe]
      · rw [mismatches_cons_self, Multiset.cons_add, ← hys, Multiset.cons_coe]
    · refine ⟨common, ?_, ?_⟩
      · rw [mismatches_cons_of_ne hxy, List.map_cons, ← Multiset.cons_coe, ← Multiset.cons_coe,
          Multiset.add_cons, ← hxs]
      · rw [mismatches_cons_of_ne hxy, List.map_cons, ← Multiset.cons_coe, ← Multiset.cons_coe,
          Multiset.add_cons, ← hys]

/-- **Lists of the same length** are equal as multisets if and only if the two sides of their
mismatches are. -/
theorem coe_eq_coe_iff {xs ys : List β} (h : xs.length = ys.length) :
    (xs : Multiset β) = ys ↔ Multiset.ofList ((mismatches xs ys).map Prod.fst) =
      Multiset.ofList ((mismatches xs ys).map Prod.snd) := by
  obtain ⟨common, hxs, hys⟩ := exists_common h
  rw [hxs, hys, add_right_inj]

end TradingEngine.Mismatch
