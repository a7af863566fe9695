/-
The two modes of the verifier that read the sources in turns.

Both read only as many entries as the smaller source has (rounded up to whole turns), and the
unordered mode looks the entries of one source up in the other, but not the other way round.
-/
import TradingEngine.DataVerifier.DataVerifier

namespace TradingEngine.DataVerifier

/-- The source has these entries: their number, and those that are read in a turn. -/
structure Agrees (source : DataSource) (entries : List DataEntry) : Prop where
  number : source.getDataEntryNumber = entries.length
  entries : ∀ limit offset : ℕ,
    source.getDataEntries limit offset = (entries.drop offset).take limit

lemma agrees_dataSourceInfluxDB (measurement : String) (rows : List DataEntry)
    (getQueryResult : String → String) :
    Agrees (dataSourceInfluxDB measurement rows getQueryResult) rows :=
  ⟨rfl, fun _ _ => rfl⟩

/-! ### Turns -/

/-- As many entries as there are in the turns that `remaining` entries take. -/
def numberRead (retrieve remaining : ℕ) : ℕ := (remaining + retrieve - 1) / retrieve * retrieve

lemma numberRead_of_le {retrieve remaining : ℕ} (hpos : 0 < remaining)
    (hle : remaining ≤ retrieve) : numberRead retrieve remaining = retrieve := by
  have hone : (remaining + retrieve - 1) / retrieve = 1 :=
    Nat.div_eq_of_lt_le (by omega) (by omega)
  rw [numberRead, hone, one_mul]

lemma numberRead_of_lt {retrieve remaining : ℕ} (hpos : 0 < retrieve) (hlt : retrieve < remaining) :
    numberRead retrieve remaining = retrieve + numberRead retrieve (remaining - retrieve) := by
  have hsplit : remaining + retrieve - 1 = (remaining - retrieve + retrieve - 1) + retrieve := by
    omega
  rw [numberRead, numberRead, hsplit, Nat.add_div_right _ hpos, Nat.succ_mul, add_comm]

@[simp] lemma numberRead_zero (retrieve : ℕ) : numberRead retrieve 0 = 0 := by
  rcases Nat.eq_zero_or_pos retrieve with rfl | hpos
  · rfl
  · rw [numberRead, Nat.div_eq_of_lt (by omega), zero_mul]

/-- All entries are read. -/
lemma le_numberRead {retrieve : ℕ} (hpos : 0 < retrieve) (remaining : ℕ) :
    remaining ≤ numberRead retrieve remaining := by
  have hdiv := Nat.div_add_mod (remaining + retrieve - 1) retrieve
  have hmod := Nat.mod_lt (remaining + retrieve - 1) hpos
  rw [numberRead, mul_comm]
  omega

lemma numberRead_lt {retrieve : ℕ} (hpos : 0 < retrieve) (remaining : ℕ) :
    numberRead retrieve remaining < remaining + retrieve := by
  have hdiv := Nat.div_mul_le_self (remaining + retrieve - 1) retrieve
  rw [numberRead]
  omega

/-- No more entries are read than there are if the turns divide them. -/
lemma numberRead_le_iff {retrieve remaining : ℕ} (hpos : 0 < retrieve) :
    numberRead retrieve remaining ≤ remaining ↔ retrieve ∣ remaining := by
  have hdvd : retrieve ∣ numberRead retrieve remaining := Nat.dvd_mul_left ..
  have hle := le_numberRead hpos remaining
  constructor
  · intro h
    rwa [le_antisymm h hle] at hdvd
  · intro h
    have hlt := numberRead_lt hpos remaining
    have hzero := Nat.eq_zero_of_dvd_of_lt (Nat.dvd_sub hdvd h)
      (show numberRead retrieve remaining - remaining < retrieve by omega)
    omega

/-- The loop ends. -/
lemma compareTurns_done (turn : ℤ → Except Fault Bool) (retrieve : ℤ) (fuel : ℕ)
    {remaining : ℤ} (offset : ℤ) (found : Bool) (h : remaining ≤ 0) :
    compareTurns turn retrieve fuel remaining offset found = .ok (!found) := by
  rw [compareTurns.eq_def]
  exact if_pos h

/-- The loop takes a turn. -/
lemma compareTurns_turn (turn : ℤ → Except Fault Bool) (retrieve : ℤ) (fuel : ℕ)
    {remaining offset : ℤ} {inconsistent : Bool} (found : Bool) (h : 0 < remaining)
    (hturn : turn offset = .ok inconsistent) :
    compareTurns turn retrieve (fuel + 1) remaining offset found =
      compareTurns turn retrieve fuel (remaining - retrieve) (offset + retrieve)
        (found || inconsistent) := by
  rw [compareTurns, if_neg (not_le.2 h), hturn]
  rfl

/-- **The loop over the turns** finds an inconsistency if one of the entries read is one. -/
theorem compareTurns_any {turn : ℤ → Except Fault Bool} {p : DataEntry → Bool}
    {entries : List DataEntry} {retrieve : ℕ} (hpos : 0 < retrieve)
    (hturn : ∀ offset : ℕ, turn offset = .ok (((entries.drop offset).take retrieve).any p))
    (fuel remaining offset : ℕ) (found : Bool) (hfuel : remaining ≤ fuel) :
    compareTurns turn retrieve fuel remaining offset found =
      .ok (!(found || ((entries.drop offset).take (numberRead retrieve remaining)).any p)) := by
  induction fuel generalizing remaining offset found with
  | zero =>
    obtain rfl : remaining = 0 := by omega
    rw [compareTurns_done _ _ _ _ _ (by omega)]
    simp
  | succ fuel ih =>
    rcases Nat.eq_zero_or_pos remaining with rfl | hremaining
    · rw [compareTurns_done _ _ _ _ _ (by omega)]
      simp
    · rw [compareTurns_turn _ _ _ _ (by omega) (hturn offset)]
      rcases le_or_gt remaining retrieve with hle | hlt
      · -- this was the last turn
        rw [compareTurns_done _ _ _ _ _ (by omega), numberRead_of_le hremaining hle]
      · have hnext : (remaining : ℤ) - retrieve = (remaining - retrieve : ℕ) := by omega
        have hoffset : (offset : ℤ) + retrieve = (offset + retrieve : ℕ) := by omega
        rw [hnext, hoffset, ih _ _ _ (by omega), numberRead_of_lt hpos hlt, List.take_add,
          List.any_append, List.drop_drop, Bool.or_assoc]

/-! ### Fully ordered sources -/

/-- The entries are compared when the second source has as many of them. -/
lemma compareEntries_of_le (compare : DataEntry → DataEntry → Bool)
    {entriesA entriesB : List DataEntry} (h : entriesA.length ≤ entriesB.length) :
    compareEntries compare entriesA entriesB =
      .ok ((entriesA.zip entriesB).any fun p => !compare p.1 p.2) := by
  induction entriesA generalizing entriesB with
  | nil => simp [compareEntries]
  | cons a entriesA ih =>
    cases entriesB with
    | nil => cases h
    | cons b entriesB =>
      rw [compareEntries, ih (by simpa using h)]
      rfl

/-- Otherwise they are read past their end. -/
lemma compareEntries_of_lt (compare : DataEntry → DataEntry → Bool)
    {entriesA entriesB : List DataEntry} (h : entriesB.length < entriesA.length) :
    compareEntries compare entriesA entriesB = .error .outOfRange := by
  induction entriesA generalizing entriesB with
  | nil => simp at h
  | cons a entriesA ih =>
    cases entriesB with
    | nil => rfl
    | cons b entriesB =>
      rw [compareEntries, ih (by simpa using h)]
      rfl

/-- What the loop over the turns makes of two sources by position, when `number` entries of
them are read. -/
def comparePrefixes (compare : DataEntry → DataEntry → Bool) (entriesA entriesB : List DataEntry)
    (number : ℕ) (found : Bool) : Except Fault Bool :=
  if (entriesA.take number).length ≤ (entriesB.take number).length then
    .ok (!(found || ((entriesA.take number).zip (entriesB.take number)).any
      fun p => !compare p.1 p.2))
  else .error .outOfRange

/-- A turn that both sources fill can be taken off. -/
lemma comparePrefixes_add (compare : DataEntry → DataEntry → Bool)
    {entriesA entriesB : List DataEntry} {retrieve : ℕ} (hA : retrieve ≤ entriesA.length)
    (hB : retrieve ≤ entriesB.length) (number : ℕ) (found : Bool) :
    comparePrefixes compare entriesA entriesB (retrieve + number) found =
      comparePrefixes compare (entriesA.drop retrieve) (entriesB.drop retrieve) number
        (found || ((entriesA.take retrieve).zip (entriesB.take retrieve)).any
          fun p => !compare p.1 p.2) := by
  have hlength : (entriesA.take retrieve).length = (entriesB.take retrieve).length := by
    rw [List.length_take, List.length_take]
    omega
  simp only [comparePrefixes, List.take_add, List.length_append, hlength, List.zip_append hlength,
    List.any_append, Bool.or_assoc, Nat.add_le_add_iff_left]

/-- **The loop over the turns**, by position. -/
theorem compareTurns_entries {compare : DataEntry → DataEntry → Bool}
    {turn : ℤ → Except Fault Bool} {entriesA entriesB : List DataEntry} {retrieve : ℕ}
    (hpos : 0 < retrieve) (hturn : ∀ offset : ℕ, turn offset = compareEntries compare
      ((entriesA.drop offset).take retrieve) ((entriesB.drop offset).take retrieve))
    (fuel remaining offset : ℕ) (found : Bool) (hfuel : remaining ≤ fuel)
    (hA : remaining ≤ entriesA.length - offset) (hB : remaining ≤ entriesB.length - offset) :
    compareTurns turn retrieve fuel remaining offset found =
      comparePrefixes compare (entriesA.drop offset) (entriesB.drop offset)
        (numberRead retrieve remaining) found := by
  induction fuel generalizing remaining offset found with
  | zero =>
    obtain rfl : remaining = 0 := by omega
    rw [compareTurns_done _ _ _ _ _ (by omega)]
    simp [comparePrefixes]
  | succ fuel ih =>
    rcases Nat.eq_zero_or_pos remaining with rfl | hremaining
    · rw [compareTurns_done _ _ _ _ _ (by omega)]
      simp [comparePrefixes]
    rcases le_or_gt remaining retrieve with hle | hlt
    · -- the last turn, of which the sources may not have all entries
      rw [numberRead_of_le hremaining hle, comparePrefixes]
      split_ifs with hlength
      · rw [compareTurns_turn _ _ _ _ (by omega)
            ((hturn offset).trans (compareEntries_of_le compare hlength)),
          compareTurns_done _ _ _ _ _ (by omega)]
      · rw [compareTurns, if_neg (by omega), hturn,
          compareEntries_of_lt compare (not_le.1 hlength)]
        rfl
    · have hnext : (remaining : ℤ) - retrieve = (remaining - retrieve : ℕ) := by omega
      have hoffset : (offset : ℤ) + retrieve = (offset + retrieve : ℕ) := by omega
      have hlength : ((entriesA.drop offset).take retrieve).length ≤
          ((entriesB.drop offset).take retrieve).length := by
        rw [List.length_take, List.length_take, List.length_drop, List.length_drop]
        omega
      rw [compareTurns_turn _ _ _ _ (by omega)
          ((hturn offset).trans (compareEntries_of_le compare hlength)),
        hnext, hoffset, ih _ _ _ (by omega) (by omega) (by omega), numberRead_of_lt hpos hlt,
        comparePrefixes_add compare (by rw [List.length_drop]; omega)
          (by rw [List.length_drop]; omega), List.drop_drop, List.drop_drop]

section Verdicts

variable {v : DataVerifier} {entriesA entriesB : List DataEntry}

/-- `VerifyEquality` returns at once only when both sources are empty. -/
lemma numbers_ne_zero (hA : Agrees v.dataSourceA entriesA) (hB : Agrees v.dataSourceB entriesB)
    (hne : ¬ (entriesA = [] ∧ entriesB = [])) : ¬ (v.dataSourceA.getDataEntryNumber = 0 ∧
      v.dataSourceB.getDataEntryNumber = 0) := by
  rw [hA.number, hB.number]
  rintro ⟨h1, h2⟩
  exact hne ⟨List.eq_nil_of_length_eq_zero (by omega), List.eq_nil_of_length_eq_zero (by omega)⟩

lemma min_numbers (hA : Agrees v.dataSourceA entriesA) (hB : Agrees v.dataSourceB entriesB) :
    min v.dataSourceA.getDataEntryNumber v.dataSourceB.getDataEntryNumber =
      (min entriesA.length entriesB.length : ℕ) := by
  rw [hA.number, hB.number]
  omega

/-- Fully ordered sources, in turns of `retrieve` entries. -/
lemma verifyEqualityForFullyOrdered_eq (hA : Agrees v.dataSourceA entriesA)
    (hB : Agrees v.dataSourceB entriesB) {limit retrieve : ℕ}
    (hlimit : limit = min entriesA.length entriesB.length)
    (hretrieve : v.numberToRetrieve limit = retrieve) (hpos : 0 < retrieve) :
    v.verifyEqualityForFullyOrderedDataSource limit 0 =
      comparePrefixes v.dataSourceA.compareDataEntry entriesA entriesB
        (numberRead retrieve limit) false := by
  have hturn : ∀ offset : ℕ, compareEntries v.dataSourceA.compareDataEntry
      (v.dataSourceA.getDataEntries retrieve offset)
      (v.dataSourceB.getDataEntries retrieve offset) =
        compareEntries v.dataSourceA.compareDataEntry ((entriesA.drop offset).take retrieve)
          ((entriesB.drop offset).take retrieve) := by
    intro offset
    rw [hA.entries, hB.entries]
  rw [verifyEqualityForFullyOrderedDataSource, hretrieve]
  exact compareTurns_entries hpos hturn limit limit 0 false le_rfl (by omega) (by omega)

/-- Fully ordered sources, in one turn. -/
lemma verifyEqualityForFullyOrdered_oneTurn (hA : Agrees v.dataSourceA entriesA)
    (hB : Agrees v.dataSourceB entriesB) {limit : ℕ}
    (hlimit : limit = min entriesA.length entriesB.length)
    (hturn : v.numberOfEntriesToCompareEachTurn = limit) :
    v.verifyEqualityForFullyOrderedDataSource limit 0 = .ok (!(entriesA.zip entriesB).any fun p =>
      !v.dataSourceA.compareDataEntry p.1 p.2) := by
  have hretrieve : v.numberToRetrieve limit = limit := by
    rw [numberToRetrieve, hturn, if_neg (lt_irrefl _)]
  have hzip : (entriesA.take limit).zip (entriesB.take limit) = entriesA.zip entriesB := by
    rw [List.zip, ← List.take_zipWith, List.take_of_length_le]
    rw [List.length_zipWith]
    omega
  rcases Nat.eq_zero_or_pos limit with rfl | hpos
  · rw [← hzip]
    exact compareTurns_done _ _ _ _ _ (by omega)
  · rw [verifyEqualityForFullyOrdered_eq hA hB hlimit hretrieve hpos,
      numberRead_of_le hpos le_rfl, comparePrefixes, if_pos, hzip, Bool.false_or]
    rw [List.length_take, List.length_take]
    omega

/-- The verdict on fully ordered sources, in one turn. -/
lemma verifyEquality_fullyOrdered (hA : Agrees v.dataSourceA entriesA)
    (hB : Agrees v.dataSourceB entriesB) (hordered : v.isOrderedDataSources = true)
    (hsymbol : v.isOrderedBySymbol = false) (hturn : v.compareEntireDataSourceInOneTurn = true)
    (hne : ¬ (entriesA = [] ∧ entriesB = [])) :
    v.verifyEquality = .ok (!(entriesA.zip entriesB).any fun p =>
      !v.dataSourceA.compareDataEntry p.1 p.2) := by
  set limit := min entriesA.length entriesB.length with hlimit
  have hnumbers := numbers_ne_zero hA hB hne
  have hmin := min_numbers hA hB
  rw [← hlimit] at hmin
  have hverify : v.verifyEquality =
      verifyEqualityForFullyOrderedDataSource
        { v with numberOfEntriesToCompareEachTurn := limit } limit 0 := by
    simp only [verifyEquality, if_neg hnumbers, hordered, hsymbol, hturn, hmin, if_true,
      Bool.false_eq_true, if_false]
  rw [hverify]
  exact verifyEqualityForFullyOrdered_oneTurn (v := { v with
    numberOfEntriesToCompareEachTurn := limit }) hA hB hlimit rfl

/-- **Fully ordered sources**: the verdict is right, that is, they are found equal exactly when
they have the same number of entries and every pair of entries is accepted, if and only if
they have the same number of entries or a pair of entries is not accepted. -/
theorem verifyEquality_fullyOrdered_right_iff (v : DataVerifier)
    (entriesA entriesB : List DataEntry) (hA : Agrees v.dataSourceA entriesA)
    (hB : Agrees v.dataSourceB entriesB) (hordered : v.isOrderedDataSources = true)
    (hsymbol : v.isOrderedBySymbol = false) (hturn : v.compareEntireDataSourceInOneTurn = true)
    (hne : ¬ (entriesA = [] ∧ entriesB = [])) :
    (v.verifyEquality = .ok true ↔
      List.Forall₂ (fun a b => v.dataSourceA.compareDataEntry a b = true) entriesA entriesB) ↔
    entriesA.length = entriesB.length ∨
      ∃ p ∈ entriesA.zip entriesB, v.dataSourceA.compareDataEntry p.1 p.2 = false := by
  have hverdict : v.verifyEquality = .ok true ↔
      ∀ p ∈ entriesA.zip entriesB, v.dataSourceA.compareDataEntry p.1 p.2 = true := by
    rw [verifyEquality_fullyOrdered hA hB hordered hsymbol hturn hne]
    simp
  have hequal : List.Forall₂ (fun a b => v.dataSourceA.compareDataEntry a b = true)
      entriesA entriesB ↔ entriesA.length = entriesB.length ∧
        ∀ p ∈ entriesA.zip entriesB, v.dataSourceA.compareDataEntry p.1 p.2 = true := by
    rw [List.forall₂_iff_zip]
    simp
  have hsome : (∃ p ∈ entriesA.zip entriesB, v.dataSourceA.compareDataEntry p.1 p.2 = false) ↔
      ¬ ∀ p ∈ entriesA.zip entriesB, v.dataSourceA.compareDataEntry p.1 p.2 = true := by
    simp
  rw [hverdict, hequal, hsome]
  constructor
  · intro h
    by_cases hall : ∀ p ∈ entriesA.zip entriesB, v.dataSourceA.compareDataEntry p.1 p.2 = true
    · exact Or.inl (h.1 hall).1
    · exact Or.inr hall
  · rintro (hlength | hnot)
    · exact ⟨fun hall => ⟨hlength, hall⟩, And.right⟩
    · exact ⟨fun hall => absurd hall hnot, And.right⟩

/-- A verifier of fully ordered sources that compares them in one turn. -/
def orderedVerifier (rowsA rowsB : List DataEntry) : DataVerifier where
  dataSourceA := dataSourceInfluxDB "trade_a" rowsA fun _ => ""
  dataSourceB := dataSourceInfluxDB "trade_b" rowsB fun _ => ""
  isOrderedBySymbol := false

/-- The second source has a trade more. -/
theorem verifyEquality_fullyOrdered_prefix :
    ((orderedVerifier [tradeRow "90"] [tradeRow "90", tradeRow "91"]).verifyEquality = .ok true ↔
      List.Forall₂ (fun a b => compareTradeJsonElement a b = true)
        [tradeRow "90"] [tradeRow "90", tradeRow "91"]) ↔
    [tradeRow "90"].length = [tradeRow "90", tradeRow "91"].length ∨
      ∃ p ∈ [tradeRow "90"].zip [tradeRow "90", tradeRow "91"],
        compareTradeJsonElement p.1 p.2 = false :=
  verifyEquality_fullyOrdered_right_iff (orderedVerifier _ _) _ _
    (agrees_dataSourceInfluxDB _ _ _) (agrees_dataSourceInfluxDB _ _ _) rfl rfl rfl (by decide)

/-- They are found equal. -/
theorem prefix_found_equal : ∃ rowsA rowsB : List DataEntry,
    ¬ (rowsA = [] ∧ rowsB = []) ∧
    ¬ ((orderedVerifier rowsA rowsB).verifyEquality = .ok true ↔
      rowsA.length = rowsB.length ∧
        List.Forall₂ (fun a b => compareTradeJsonElement a b = true) rowsA rowsB) := by
  refine ⟨[tradeRow "90"], [tradeRow "90", tradeRow "91"], by decide, fun h => ?_⟩
  have hlength := (h.1 (by decide)).1
  simp at hlength

/-! ### Unordered sources -/

/-- How many entries a turn retrieves of sources of which the smaller one has `limit`. -/
def entriesEachTurn (v : DataVerifier) (limit : ℕ) : ℕ :=
  if v.compareEntireDataSourceInOneTurn then limit
  else min v.numberOfEntriesToCompareEachTurn.toNat limit

/-- The entries of the first source that are looked up in the second one. -/
def entriesLookedUp (v : DataVerifier) (entriesA entriesB : List DataEntry) : List DataEntry :=
  let limit := min entriesA.length entriesB.length
  entriesA.take (numberRead (v.entriesEachTurn limit) limit)

/-- The verdict on unordered sources. -/
lemma verifyEquality_unordered (hA : Agrees v.dataSourceA entriesA)
    (hB : Agrees v.dataSourceB entriesB) (hordered : v.isOrderedDataSources = false)
    (hturn : 1 ≤ v.numberOfEntriesToCompareEachTurn) (hne : ¬ (entriesA = [] ∧ entriesB = [])) :
    v.verifyEquality = .ok (!(v.entriesLookedUp entriesA entriesB).any fun row =>
      !v.dataSourceB.findIfDataEntryExists row) := by
  set limit := min entriesA.length entriesB.length with hlimit
  have hnumbers := numbers_ne_zero hA hB hne
  have hmin := min_numbers hA hB
  rw [← hlimit] at hmin
  have hverify : v.verifyEquality = compareTurns (fun offset => .ok
      ((v.dataSourceA.getDataEntries (v.entriesEachTurn limit) offset).any fun row =>
        !v.dataSourceB.findIfDataEntryExists row)) (v.entriesEachTurn limit) limit limit
        (0 : ℕ) false := by
    have hretrieve : (v.entriesEachTurn limit : ℤ) =
        if v.compareEntireDataSourceInOneTurn then (limit : ℤ) else v.numberToRetrieve limit := by
      unfold entriesEachTurn numberToRetrieve
      split_ifs <;> omega
    rw [hretrieve]
    cases hone : v.compareEntireDataSourceInOneTurn <;>
      simp [verifyEquality, if_neg hnumbers, hordered, hmin, hone,
        verifyEqualityForUnorderedDataSource, numberToRetrieve]
  rw [hverify]
  rcases Nat.eq_zero_or_pos limit with hzero | hpos
  · rw [compareTurns_done _ _ _ _ _ (by omega)]
    simp [entriesLookedUp, ← hlimit, hzero]
  · have heach : 0 < v.entriesEachTurn limit := by
      unfold entriesEachTurn
      split_ifs <;> omega
    rw [compareTurns_any heach _ limit limit 0 false le_rfl]
    · rfl
    · intro offset
      rw [hA.entries]

/-- The seven values by which a trade is looked up. -/
def tradeValues (row : DataEntry) : List (Option JsonValue) :=
  [1, 2, 3, 4, 5, 6, 8].map (row[·]?)

/-- The entries of a source, as a multiset of these values. -/
def tradeRows (entries : List DataEntry) : Multiset (List (Option JsonValue)) :=
  Multiset.ofList (entries.map tradeValues)

lemma card_tradeRows (entries : List DataEntry) : (tradeRows entries).card = entries.length := by
  rw [tradeRows, Multiset.coe_card, List.length_map]

lemma tradeValues_mem {row : DataEntry} {entries : List DataEntry} (h : row ∈ entries) :
    tradeValues row ∈ tradeRows entries :=
  Multiset.mem_coe.2 (List.mem_map_of_mem h)

/-- A multiset that is contained in another one of the same size is equal to it. -/
lemma tradeRows_eq_iff : tradeRows entriesA = tradeRows entriesB ↔
    entriesA.length = entriesB.length ∧
      ∀ values, (tradeRows entriesA).count values ≤ (tradeRows entriesB).count values := by
  constructor
  · intro h
    refine ⟨?_, fun values => by rw [h]⟩
    rw [← card_tradeRows, ← card_tradeRows, h]
  · rintro ⟨hlength, hcount⟩
    refine Multiset.eq_of_le_of_card_le (Multiset.le_iff_count.2 hcount) ?_
    rw [card_tradeRows, card_tradeRows, hlength]

/-- **Unordered sources**: the verdict is right, that is, they are found equal exactly when they
are equal as multisets, if and only if an entry that is looked up is missing, or the sources
have the same number of entries and no entry is more frequent in the first one. -/
theorem verifyEquality_unordered_right_iff (v : DataVerifier)
    (entriesA entriesB : List DataEntry) (hA : Agrees v.dataSourceA entriesA)
    (hB : Agrees v.dataSourceB entriesB) (hordered : v.isOrderedDataSources = false)
    (hturn : 1 ≤ v.numberOfEntriesToCompareEachTurn) (hne : ¬ (entriesA = [] ∧ entriesB = []))
    (hfind : ∀ row ∈ entriesA, v.dataSourceB.findIfDataEntryExists row = true ↔
      tradeValues row ∈ tradeRows entriesB) :
    (v.verifyEquality = .ok true ↔ tradeRows entriesA = tradeRows entriesB) ↔
    (∃ row ∈ v.entriesLookedUp entriesA entriesB, tradeValues row ∉ tradeRows entriesB) ∨
      (entriesA.length = entriesB.length ∧
        ∀ values, (tradeRows entriesA).count values ≤ (tradeRows entriesB).count values) := by
  have hread : ∀ row ∈ v.entriesLookedUp entriesA entriesB, row ∈ entriesA :=
    fun row hrow => List.mem_of_mem_take hrow
  have hverdict : v.verifyEquality = .ok true ↔
      ∀ row ∈ v.entriesLookedUp entriesA entriesB, tradeValues row ∈ tradeRows entriesB := by
    rw [verifyEquality_unordered hA hB hordered hturn hne]
    simp only [Except.ok.injEq, Bool.not_eq_true', List.any_eq_false, Bool.not_eq_false]
    exact forall₂_congr fun row hrow => hfind row (hread row hrow)
  have hright : tradeRows entriesA = tradeRows entriesB → v.verifyEquality = .ok true := by
    intro h
    refine hverdict.2 fun row hrow => ?_
    rw [← h]
    exact tradeValues_mem (hread row hrow)
  have hmissing : (∃ row ∈ v.entriesLookedUp entriesA entriesB,
      tradeValues row ∉ tradeRows entriesB) ↔ ¬ v.verifyEquality = .ok true := by
    rw [hverdict]
    push Not
    rfl
  rw [hmissing, ← tradeRows_eq_iff]
  constructor
  · intro h
    by_cases hok : v.verifyEquality = .ok true
    · exact Or.inr (h.1 hok)
    · exact Or.inl hok
  · rintro (hnot | hsame)
    · exact ⟨fun hok => absurd hok hnot, hright⟩
    · exact ⟨fun _ => hsame, hright⟩

/-- A verifier of unordered sources that looks up one entry each turn. -/
def unorderedVerifier (rowsA rowsB : List DataEntry) (getQueryResult : String → String) :
    DataVerifier where
  dataSourceA := dataSourceInfluxDB "trade_a" rowsA getQueryResult
  dataSourceB := dataSourceInfluxDB "trade_b" rowsB getQueryResult
  isOrderedDataSources := false
  compareEntireDataSourceInOneTurn := false
  numberOfEntriesToCompareEachTurn := 1

/-- The query for `tradeRow price`. -/
def tradeQuery (price : String) : String :=
  buildFindIfEntryExistsQuery "trade_b" "1" "3" "8" price "2" "7" "0"

/-- The answers of a database that holds a trade at 90. -/
def answerAt90 (sql : String) : String :=
  if sql = tradeQuery "90" then
    "\x7b\"results\":[\x7b\"statement_id\":0,\"series\":[\x7b\"name\":\"trade_b\",\"columns\":" ++
      "[\"time\",\"symbol_id\"],\"values\":[[1594020376000,\"0\"]]\x7d]\x7d]\x7d\n"
  else "\x7b\"results\":[\x7b\"statement_id\":0\x7d]\x7d\n"

lemma findIfDataEntryExists_answerAt90 (price : String) :
    findIfDataEntryExists "trade_b" answerAt90 (tradeRow price) = true ↔
      tradeQuery price = tradeQuery "90" := by
  change (!isEmptyQueryResult (answerAt90 (tradeQuery price))) = true ↔ _
  unfold answerAt90
  split_ifs with h
  · exact iff_of_true (by decide) h
  · exact iff_of_false (by decide) h

lemma found_iff_90 : ∀ row ∈ [tradeRow "90", tradeRow "91"],
    findIfDataEntryExists "trade_b" answerAt90 row = true ↔
      tradeValues row ∈ tradeRows [tradeRow "90"] := by
  have hapart : tradeQuery "91" ≠ tradeQuery "90" := by
    unfold tradeQuery
    decide +kernel
  intro row hrow
  rcases List.mem_pair.1 hrow with rfl | rfl
  · exact (findIfDataEntryExists_answerAt90 "90").trans (iff_of_true rfl (by decide))
  · exact (findIfDataEntryExists_answerAt90 "91").trans (iff_of_false hapart (by decide))

/-- The first source has the one trade of the second source, and another one. -/
theorem verifyEquality_unordered_twice :
    ((unorderedVerifier [tradeRow "90", tradeRow "91"] [tradeRow "90"] answerAt90).verifyEquality =
        .ok true ↔
      tradeRows [tradeRow "90", tradeRow "91"] = tradeRows [tradeRow "90"]) ↔
    (∃ row ∈ (unorderedVerifier [tradeRow "90", tradeRow "91"] [tradeRow "90"]
        answerAt90).entriesLookedUp [tradeRow "90", tradeRow "91"] [tradeRow "90"],
      tradeValues row ∉ tradeRows [tradeRow "90"]) ∨
      ([tradeRow "90", tradeRow "91"].length = [tradeRow "90"].length ∧
        ∀ values, (tradeRows [tradeRow "90", tradeRow "91"]).count values ≤
          (tradeRows [tradeRow "90"]).count values) :=
  verifyEquality_unordered_right_iff (unorderedVerifier _ _ answerAt90) _ _
    (agrees_dataSourceInfluxDB _ _ _) (agrees_dataSourceInfluxDB _ _ _) rfl (by decide)
    (by decide) found_iff_90

/-- They are found equal. -/
theorem superset_found_equal : ∃ rowsA rowsB : List DataEntry,
    ¬ (rowsA = [] ∧ rowsB = []) ∧
    (∀ row ∈ rowsA, findIfDataEntryExists "trade_b" answerAt90 row = true ↔
      tradeValues row ∈ tradeRows rowsB) ∧
    ¬ ((unorderedVerifier rowsA rowsB answerAt90).verifyEquality = .ok true ↔
      tradeRows rowsA = tradeRows rowsB) := by
  refine ⟨[tradeRow "90", tradeRow "91"], [tradeRow "90"], by decide, found_iff_90, fun h => ?_⟩
  have hverdict : (unorderedVerifier [tradeRow "90", tradeRow "91"] [tradeRow "90"]
      answerAt90).verifyEquality = .ok true := by
    rw [verifyEquality_unordered (agrees_dataSourceInfluxDB _ _ _)
      (agrees_dataSourceInfluxDB _ _ _) rfl (by decide) (by decide)]
    -- only the first row is looked up
    have hfound := (findIfDataEntryExists_answerAt90 "90").2 rfl
    change Except.ok (!([tradeRow "90"].any fun row =>
      !findIfDataEntryExists "trade_b" answerAt90 row)) = _
    simp [hfound]
  have hlength := (tradeRows_eq_iff.1 (h.1 hverdict)).1
  simp at hlength

end Verdicts

end TradingEngine.DataVerifier
