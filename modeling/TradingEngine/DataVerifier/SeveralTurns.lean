/-
Fully ordered sources that are compared in several turns.

The last turn asks both sources for a whole turn.  The first source may have the entries of it
while the second one has not, and they are read there past the end.
-/
import TradingEngine.DataVerifier.Turns

namespace TradingEngine.DataVerifier

/-- Several turns are as good as one: nothing is read past the end of the entries of a turn, and
the verdict is that of one turn. -/
structure SameAsOneTurn (v : DataVerifier) (limit : ℤ) : Prop where
  inRange : v.verifyEqualityForFullyOrderedDataSource limit 0 ≠ .error .outOfRange
  verdict : v.verifyEqualityForFullyOrderedDataSource limit 0 =
    { v with numberOfEntriesToCompareEachTurn := limit
      }.verifyEqualityForFullyOrderedDataSource limit 0

section Turns

variable {v : DataVerifier} {entriesA entriesB : List DataEntry}

/-- When as many entries are read as the smaller source has, or more. -/
lemma comparePrefixes_eq (compare : DataEntry → DataEntry → Bool) {number : ℕ} (found : Bool)
    (hnumber : min entriesA.length entriesB.length ≤ number) :
    comparePrefixes compare entriesA entriesB number found =
      if entriesA.length ≤ entriesB.length ∨ number ≤ entriesB.length then
        .ok (!(found || (entriesA.zip entriesB).any fun p => !compare p.1 p.2))
      else .error .outOfRange := by
  have hzip : (entriesA.take number).zip (entriesB.take number) = entriesA.zip entriesB := by
    rw [List.zip, ← List.take_zipWith, List.take_of_length_le]
    rw [List.length_zipWith]
    exact hnumber
  have hlength : (entriesA.take number).length ≤ (entriesB.take number).length ↔
      entriesA.length ≤ entriesB.length ∨ number ≤ entriesB.length := by
    rw [List.length_take, List.length_take]
    omega
  rw [comparePrefixes, hzip]
  simp only [hlength]

/-- How many entries each turn takes, of a positive number of them. -/
lemma numberToRetrieve_eq {each limit : ℕ} (h : v.numberOfEntriesToCompareEachTurn = each) :
    v.numberToRetrieve limit = (min each limit : ℕ) := by
  rw [numberToRetrieve, h]
  split_ifs <;> omega

/-- The turns read no more than the second source has. -/
lemma numberRead_le_length_iff {each : ℕ} (heach : 0 < each)
    (hlt : entriesB.length < entriesA.length) (hB : 0 < entriesB.length) :
    numberRead (min each entriesB.length) (min entriesA.length entriesB.length) ≤
        entriesB.length ↔ entriesB.length ≤ each ∨ each ∣ entriesB.length := by
  rw [min_eq_right hlt.le, numberRead_le_iff (by omega)]
  rcases le_or_gt entriesB.length each with hle | hgt
  · rw [min_eq_right hle]
    exact iff_of_true dvd_rfl (Or.inl hle)
  · rw [min_eq_left hgt.le]
    exact ⟨Or.inr, fun h => h.resolve_left (not_le.2 hgt)⟩

end Turns

/-- **Several turns** are as good as one if and only if the first source is not larger, or the
second source fits into one turn or fills its last turn. -/
theorem sameAsOneTurn_iff (v : DataVerifier) (entriesA entriesB : List DataEntry)
    (hA : Agrees v.dataSourceA entriesA) (hB : Agrees v.dataSourceB entriesB)
    (heach : 1 ≤ v.numberOfEntriesToCompareEachTurn) :
    SameAsOneTurn v (min entriesA.length entriesB.length : ℕ) ↔
      entriesA.length ≤ entriesB.length ∨
        (entriesB.length : ℤ) ≤ v.numberOfEntriesToCompareEachTurn ∨
          v.numberOfEntriesToCompareEachTurn ∣ entriesB.length := by
  obtain ⟨each, heq⟩ := Int.eq_ofNat_of_zero_le (show 0 ≤ v.numberOfEntriesToCompareEachTurn by
    omega)
  set limit := min entriesA.length entriesB.length with hlimit
  have hone := verifyEqualityForFullyOrdered_oneTurn (v := { v with
    numberOfEntriesToCompareEachTurn := limit }) hA hB hlimit rfl
  rw [heq, Int.ofNat_dvd, Nat.cast_le]
  rcases Nat.eq_zero_or_pos limit with hzero | hpos
  · -- there is nothing to compare
    have hempty : entriesA.length ≤ entriesB.length ∨ entriesB.length ≤ each := by omega
    have hdone : v.verifyEqualityForFullyOrderedDataSource limit 0 = .ok true :=
      compareTurns_done _ _ _ _ _ (by omega)
    have hverdict : { v with numberOfEntriesToCompareEachTurn := limit
        }.verifyEqualityForFullyOrderedDataSource limit 0 = .ok true :=
      compareTurns_done _ _ _ _ _ (by omega)
    refine iff_of_true ⟨?_, hdone.trans hverdict.symm⟩ (by tauto)
    rw [hdone]
    rintro ⟨⟩
  · have hturns := verifyEqualityForFullyOrdered_eq hA hB hlimit (numberToRetrieve_eq heq)
      (by omega)
    rw [comparePrefixes_eq _ _ (hlimit ▸ le_numberRead (by omega) limit)] at hturns
    have hread : entriesA.length ≤ entriesB.length ∨
        numberRead (min each limit) limit ≤ entriesB.length ↔
          entriesA.length ≤ entriesB.length ∨ entriesB.length ≤ each ∨
            each ∣ entriesB.length := by
      rcases le_or_gt entriesA.length entriesB.length with hle | hlt
      · exact iff_of_true (Or.inl hle) (Or.inl hle)
      · have hmin : limit = entriesB.length := by omega
        have hpos' : 0 < each := by omega
        have hiff := numberRead_le_length_iff hpos' hlt (by omega)
        rw [← hlimit, ← hmin] at hiff
        rw [← hmin]
        exact or_congr Iff.rfl hiff
    rw [← hread]
    constructor
    · intro h
      by_contra hnot
      rw [if_neg hnot] at hturns
      exact h.inRange hturns
    · intro h
      rw [if_pos h] at hturns
      refine ⟨?_, hturns.trans hone.symm⟩
      rw [hturns]
      rintro ⟨⟩

/-- A verifier of fully ordered sources that compares two entries each turn. -/
def pairwiseVerifier (rowsA rowsB : List DataEntry) : DataVerifier where
  dataSourceA := dataSourceInfluxDB "trade_a" rowsA fun _ => ""
  dataSourceB := dataSourceInfluxDB "trade_b" rowsB fun _ => ""
  isOrderedBySymbol := false
  compareEntireDataSourceInOneTurn := false
  numberOfEntriesToCompareEachTurn := 2

theorem sameAsOneTurn_pairwise :
    SameAsOneTurn (pairwiseVerifier (List.replicate 5 (tradeRow "90"))
        (List.replicate 4 (tradeRow "90"))) 4 ↔
      5 ≤ 4 ∨ (4 : ℤ) ≤ 2 ∨ (2 : ℤ) ∣ 4 :=
  sameAsOneTurn_iff (pairwiseVerifier _ _) _ _ (agrees_dataSourceInfluxDB _ _ _)
    (agrees_dataSourceInfluxDB _ _ _) (by decide)

/-- The sources have four entries and three, and two are compared each turn. -/
theorem not_sameAsOneTurn : ¬ ∀ (v : DataVerifier) (entriesA entriesB : List DataEntry),
    Agrees v.dataSourceA entriesA → Agrees v.dataSourceB entriesB →
      1 ≤ v.numberOfEntriesToCompareEachTurn →
        SameAsOneTurn v (min entriesA.length entriesB.length : ℕ) := by
  intro hall
  have h := hall (pairwiseVerifier (List.replicate 4 (tradeRow "90"))
    (List.replicate 3 (tradeRow "90"))) _ _ (agrees_dataSourceInfluxDB _ _ _)
    (agrees_dataSourceInfluxDB _ _ _) (by decide)
  exact h.inRange (by decide)

end TradingEngine.DataVerifier
