/-
Whether the verifier comes to an end.

The number of entries that remain falls by the configured number each turn, which nothing
checks.  With a number below 1 the loop over the turns goes on.
-/
import TradingEngine.DataVerifier.Turns
import TradingEngine.Lib.Machine

namespace TradingEngine.DataVerifier

open Lib

/-! ### The loop over the turns -/

/-- What the loop over the turns counts. -/
structure TurnState where
  remaining : ℤ
  offset : ℤ

/-- The loop over the turns; what a turn compares changes neither number. -/
def turns (numberToRetrieve limit offset : ℤ) : Machine TurnState Unit where
  init := ⟨limit, offset⟩
  step s _ :=
    if s.remaining ≤ 0 then none
    else some ⟨s.remaining - numberToRetrieve, s.offset + numberToRetrieve⟩

/-- The loop that `VerifyEquality` goes through; there is none when both sources are empty, and
none in the mode by symbol. -/
def turnsOf (v : DataVerifier) : Option (Machine TurnState Unit) :=
  let dataSourceANumber := v.dataSourceA.getDataEntryNumber
  let dataSourceBNumber := v.dataSourceB.getDataEntryNumber
  if dataSourceANumber = 0 ∧ dataSourceBNumber = 0 then none
  else if v.isOrderedDataSources ∧ v.isOrderedBySymbol then none
  else
    let dataSourceEntryNumber := min dataSourceANumber dataSourceBNumber
    let v :=
      if v.compareEntireDataSourceInOneTurn then
        { v with numberOfEntriesToCompareEachTurn := dataSourceEntryNumber }
      else v
    some (turns (v.numberToRetrieve dataSourceEntryNumber) dataSourceEntryNumber 0)

/-- The verifier comes to an end: it returns, its loop takes a bounded number of turns, and
every turn leaves fewer entries. -/
structure Terminates (v : DataVerifier) : Prop where
  returns : v.verifyEquality ≠ .error .endless
  bounded : ∀ loop ∈ turnsOf v, ∃ n, ∀ es s, loop.Reaches es s → es.length ≤ n
  decreases : ∀ loop ∈ turnsOf v, ∀ es s s', loop.Reaches es s → loop.step s () = some s' →
    s'.remaining < s.remaining

section Loop

variable {retrieve limit offset : ℤ}

/-- After some turns. -/
lemma turns_reaches {es : List Unit} {s : TurnState}
    (h : (turns retrieve limit offset).Reaches es s) :
    s.remaining = limit - es.length * retrieve := by
  refine h.invariant (P := fun es s => s.remaining = limit - es.length * retrieve) ?_ ?_
  · simp [turns]
  · intro es s e s' _ ih _ hstep
    simp only [turns] at hstep
    split_ifs at hstep
    obtain rfl := Option.some.inj hstep
    rw [List.length_append, List.length_singleton, ih]
    push_cast
    ring

/-- With a positive number of entries each turn no more turns are taken than there are
entries. -/
lemma turns_length_le (hpos : 0 < limit → 0 < retrieve) {es : List Unit} {s : TurnState}
    (h : (turns retrieve limit offset).Reaches es s) : es.length ≤ limit.toNat := by
  refine h.invariant (P := fun es _ => es.length ≤ limit.toNat) (Nat.zero_le _) ?_
  intro es s e s' hrun hle _ hstep
  have hremaining := turns_reaches hrun
  simp only [turns] at hstep
  split_ifs at hstep with hmore
  rw [List.length_append, List.length_singleton]
  rcases le_or_gt limit 0 with hdone | hlimit
  · -- there is no turn at all
    have hzero : es.length = 0 := by omega
    rw [hzero] at hremaining
    simp only [Nat.cast_zero, zero_mul] at hremaining
    omega
  · have hretrieve := hpos hlimit
    have hlength : (es.length : ℤ) ≤ es.length * retrieve := by nlinarith
    omega

/-- A turn leaves fewer entries. -/
lemma turns_decreases (hpos : 0 < limit → 0 < retrieve) {es : List Unit} {s s' : TurnState}
    (hrun : (turns retrieve limit offset).Reaches es s)
    (h : (turns retrieve limit offset).step s () = some s') : s'.remaining < s.remaining := by
  have hnext := turns_length_le hpos (hrun.step trivial h)
  rw [List.length_append, List.length_singleton] at hnext
  have hretrieve := hpos (by omega)
  simp only [turns] at h
  split_ifs at h
  obtain rfl := Option.some.inj h
  simp only
  omega

/-- The loop is not done after `n` turns. -/
lemma exists_turns_iff (n : ℕ) :
    (∃ s, (turns retrieve limit offset).Reaches (List.replicate n ()) s ∧ 0 < s.remaining) ↔
      ∀ k : ℕ, k ≤ n → 0 < limit - k * retrieve := by
  constructor
  · rintro ⟨s, hrun, hpos⟩ k hk
    induction n generalizing s with
    | zero =>
      have hremaining := turns_reaches hrun
      obtain rfl : k = 0 := by omega
      simpa [hremaining] using hpos
    | succ n ih =>
      have hremaining := turns_reaches hrun
      rw [List.replicate_succ'] at hrun
      obtain ⟨s₀, hrun₀, -, hstep⟩ := hrun.last
      have hpos₀ : 0 < s₀.remaining := by
        simp only [turns] at hstep
        split_ifs at hstep
        omega
      rcases Nat.lt_or_eq_of_le hk with hlt | rfl
      · exact ih s₀ hrun₀ hpos₀ (by omega)
      · rw [List.length_replicate] at hremaining
        rwa [← hremaining]
  · intro h
    induction n with
    | zero => exact ⟨_, .start, by simpa [turns] using h 0 le_rfl⟩
    | succ n ih =>
      obtain ⟨s, hrun, hpos⟩ := ih fun k hk => h k (by omega)
      have hnext := h (n + 1) le_rfl
      have hremaining := turns_reaches hrun
      rw [List.length_replicate] at hremaining
      refine ⟨⟨s.remaining - retrieve, s.offset + retrieve⟩, ?_, ?_⟩
      · rw [List.replicate_succ']
        exact hrun.step trivial (if_neg (not_le.2 hpos))
      · rw [hremaining]
        push_cast at hnext
        linarith

/-- **The function that models the loop** runs out of fuel when the loop is not done after so
many turns, unless a turn reads past the end. -/
theorem compareTurns_endless_iff {turn : ℤ → Except Fault Bool}
    (hturn : ∀ offset, ∃ found, turn offset = .ok found) (fuel : ℕ) (found : Bool) :
    compareTurns turn retrieve fuel limit offset found = .error .endless ↔
      ∃ s, (turns retrieve limit offset).Reaches (List.replicate fuel ()) s ∧ 0 < s.remaining := by
  rw [exists_turns_iff]
  induction fuel generalizing limit offset found with
  | zero =>
    rcases le_or_gt limit 0 with hdone | hpos
    · rw [compareTurns_done _ _ _ _ _ hdone]
      exact iff_of_false (by rintro ⟨⟩) fun h => absurd (h 0 le_rfl) (by simpa using hdone)
    · rw [compareTurns, if_neg (not_le.2 hpos)]
      refine iff_of_true rfl fun k hk => ?_
      obtain rfl : k = 0 := by omega
      simpa using hpos
  | succ fuel ih =>
    rcases le_or_gt limit 0 with hdone | hpos
    · rw [compareTurns_done _ _ _ _ _ hdone]
      exact iff_of_false (by rintro ⟨⟩) fun h => absurd (h 0 (by omega)) (by simpa using hdone)
    · obtain ⟨inconsistent, hinconsistent⟩ := hturn offset
      rw [compareTurns_turn _ _ _ _ hpos hinconsistent, ih]
      constructor
      · intro h k hk
        cases k with
        | zero => simpa using hpos
        | succ k =>
          have hk' := h k (by omega)
          push_cast
          linarith
      · intro h k hk
        have hk' := h (k + 1) (by omega)
        push_cast at hk'
        linarith

end Loop

/-! ### The functions return -/

lemma bind_ne_endless {α β : Type} {x : Except Fault α} {f : α → Except Fault β}
    (hx : x ≠ .error .endless) (hf : ∀ a, f a ≠ .error .endless) : x >>= f ≠ .error .endless := by
  cases x with
  | error fault =>
    intro h
    obtain rfl : fault = .endless := Except.error.inj h
    exact hx rfl
  | ok a => exact hf a

lemma compareEntries_ne_endless (compare : DataEntry → DataEntry → Bool)
    (entriesA entriesB : List DataEntry) :
    compareEntries compare entriesA entriesB ≠ .error .endless := by
  rcases le_or_gt entriesA.length entriesB.length with hle | hlt
  · rw [compareEntries_of_le compare hle]
    rintro ⟨⟩
  · rw [compareEntries_of_lt compare hlt]
    rintro ⟨⟩

/-- With a positive number of entries each turn there is enough fuel. -/
lemma compareTurns_ne_endless {turn : ℤ → Except Fault Bool}
    (hturn : ∀ offset, turn offset ≠ .error .endless) {retrieve : ℤ} (fuel : ℕ)
    {limit : ℤ} (hpos : 0 < limit → 0 < retrieve) (offset : ℤ) (found : Bool)
    (hfuel : limit ≤ fuel) :
    compareTurns turn retrieve fuel limit offset found ≠ .error .endless := by
  induction fuel generalizing limit offset found with
  | zero =>
    rw [compareTurns_done _ _ _ _ _ (by omega)]
    rintro ⟨⟩
  | succ fuel ih =>
    rcases le_or_gt limit 0 with hdone | hlimit
    · rw [compareTurns_done _ _ _ _ _ hdone]
      rintro ⟨⟩
    · have hretrieve := hpos hlimit
      rw [compareTurns, if_neg (not_le.2 hlimit)]
      exact bind_ne_endless (hturn offset) fun inconsistent =>
        ih (fun _ => hretrieve) _ _ (by omega)

lemma getString_ne_endless (entry : DataEntry) (i : ℕ) :
    getString entry i ≠ .error .endless := by
  unfold getString
  split <;> rintro ⟨⟩

lemma unmatchedKey_ne_endless (entry : DataEntry) : unmatchedKey entry ≠ .error .endless := by
  rw [unmatchedKey]
  refine bind_ne_endless (getString_ne_endless entry 1) fun _ =>
    bind_ne_endless (getString_ne_endless entry 3) fun _ =>
    bind_ne_endless (getString_ne_endless entry 4) fun _ =>
    bind_ne_endless (getString_ne_endless entry 6) fun _ => ?_
  rintro ⟨⟩

lemma extractBySymbol_ne_endless (dataEntries : List (String × List DataEntry))
    (rows : List DataEntry) : extractBySymbol dataEntries rows ≠ .error .endless := by
  induction rows generalizing dataEntries with
  | nil => rintro ⟨⟩
  | cons row rows ih =>
    rw [extractBySymbol]
    exact bind_ne_endless (getString_ne_endless row 8) fun _ => ih _

lemma collectUnmatched_ne_endless (compare : DataEntry → DataEntry → Bool)
    (entriesA entriesB : List DataEntry)
    (unmatched : DataVerifier.UnmatchedEntries × DataVerifier.UnmatchedEntries) :
    collectUnmatched compare entriesA entriesB unmatched ≠ .error .endless := by
  induction entriesA generalizing entriesB unmatched with
  | nil => rintro ⟨⟩
  | cons a entriesA ih =>
    cases entriesB with
    | nil => rintro ⟨⟩
    | cons b entriesB =>
      rw [collectUnmatched]
      split_ifs
      · exact ih entriesB unmatched
      · exact bind_ne_endless (unmatchedKey_ne_endless a) fun _ =>
          bind_ne_endless (unmatchedKey_ne_endless b) fun _ => ih entriesB _

lemma compareSymbols_ne_endless (compare : DataEntry → DataEntry → Bool)
    (mapB mapA : List (String × List DataEntry)) :
    compareSymbols compare mapB mapA ≠ .error .endless := by
  induction mapA with
  | nil => rintro ⟨⟩
  | cons pair mapA ih =>
    rw [compareSymbols]
    refine bind_ne_endless ?_ fun _ => bind_ne_endless ih fun _ => by rintro ⟨⟩
    rw [verifySymbol]
    split
    · rintro ⟨⟩
    · exact bind_ne_endless (collectUnmatched_ne_endless _ _ _ _) fun _ => by rintro ⟨⟩

/-! ### The verifier -/

/-- A source with these entries, which also answers when it is asked for the table by symbol. -/
structure FiniteSource (source : DataSource) (entries : List DataEntry) : Prop
    extends Agrees source entries where
  bySymbol : ∀ limit offset, source.getDataEntriesBySymbol limit offset ≠ .error .endless

lemma finiteSource_dataSourceInfluxDB (measurement : String) (rows : List DataEntry)
    (getQueryResult : String → String) :
    FiniteSource (dataSourceInfluxDB measurement rows getQueryResult) rows where
  toAgrees := agrees_dataSourceInfluxDB measurement rows getQueryResult
  bySymbol _ _ := extractBySymbol_ne_endless _ _

section Verifier

variable {v : DataVerifier} {entriesA entriesB : List DataEntry}

/-- The number of entries each turn is one that leads to an end. -/
def EndsByTurns (v : DataVerifier) (entriesA entriesB : List DataEntry) : Prop :=
  v.compareEntireDataSourceInOneTurn = true ∨ 1 ≤ v.numberOfEntriesToCompareEachTurn ∨
    entriesA = [] ∨ entriesB = []

/-- How many entries each turn takes of a limit. -/
def retrieveOf (v : DataVerifier) (limit : ℤ) : ℤ :=
  if v.compareEntireDataSourceInOneTurn then limit else v.numberToRetrieve limit

lemma retrieveOf_pos (h : EndsByTurns v entriesA entriesB)
    (hpos : 0 < ((min entriesA.length entriesB.length : ℕ) : ℤ)) :
    0 < retrieveOf v (min entriesA.length entriesB.length : ℕ) := by
  unfold retrieveOf
  split_ifs with hone
  · exact hpos
  · unfold numberToRetrieve
    rcases h with hone' | heach | rfl | rfl
    · exact absurd hone' hone
    · split_ifs <;> omega
    · simp at hpos
    · simp at hpos

lemma turnsOf_eq (hA : Agrees v.dataSourceA entriesA) (hB : Agrees v.dataSourceB entriesB)
    (hsymbol : ¬ (v.isOrderedDataSources = true ∧ v.isOrderedBySymbol = true))
    (hne : ¬ (entriesA = [] ∧ entriesB = [])) :
    turnsOf v = some (turns (retrieveOf v (min entriesA.length entriesB.length : ℕ))
      (min entriesA.length entriesB.length : ℕ) 0) := by
  rw [turnsOf, if_neg (numbers_ne_zero hA hB hne), if_neg hsymbol, min_numbers hA hB, retrieveOf]
  cases v.compareEntireDataSourceInOneTurn <;> simp [numberToRetrieve]

/-- A mode that reads in turns comes to an end. -/
lemma compareTurns_retrieveOf (h : EndsByTurns v entriesA entriesB) {turn : ℤ → Except Fault Bool}
    (hturn : ∀ offset, turn offset ≠ .error .endless) :
    compareTurns turn (retrieveOf v (min entriesA.length entriesB.length : ℕ))
      (min entriesA.length entriesB.length : ℕ)
      ((min entriesA.length entriesB.length : ℕ) : ℤ) 0 false ≠ .error .endless :=
  compareTurns_ne_endless hturn _ (retrieveOf_pos h) 0 false le_rfl

/-- The modes that read in turns. -/
lemma verifyEquality_turns {limit : ℕ}
    (hnumbers : ¬ (v.dataSourceA.getDataEntryNumber = 0 ∧ v.dataSourceB.getDataEntryNumber = 0))
    (hlimit : min v.dataSourceA.getDataEntryNumber v.dataSourceB.getDataEntryNumber = limit)
    (hsymbol : ¬ (v.isOrderedDataSources = true ∧ v.isOrderedBySymbol = true)) :
    v.verifyEquality = compareTurns
      (if v.isOrderedDataSources then fun offset =>
        compareEntries v.dataSourceA.compareDataEntry
          (v.dataSourceA.getDataEntries (retrieveOf v limit) offset)
          (v.dataSourceB.getDataEntries (retrieveOf v limit) offset)
      else fun offset => .ok ((v.dataSourceA.getDataEntries (retrieveOf v limit) offset).any
        fun row => !v.dataSourceB.findIfDataEntryExists row))
      (retrieveOf v limit) limit limit 0 false := by
  rw [verifyEquality, if_neg hnumbers, hlimit]
  cases hone : v.compareEntireDataSourceInOneTurn <;>
    cases hordered : v.isOrderedDataSources <;>
    cases hby : v.isOrderedBySymbol <;>
    simp_all [retrieveOf, numberToRetrieve, verifyEqualityForFullyOrderedDataSource,
      verifyEqualityForUnorderedDataSource]

/-- The mode by symbol. -/
lemma verifyEquality_bySymbol
    (hnumbers : ¬ (v.dataSourceA.getDataEntryNumber = 0 ∧ v.dataSourceB.getDataEntryNumber = 0))
    (hsymbol : v.isOrderedDataSources = true ∧ v.isOrderedBySymbol = true) :
    v.verifyEquality = v.verifyEqualityForOrderedBySymbolDataSource
      v.dataSourceA.getDataEntryNumber v.dataSourceB.getDataEntryNumber 0 := by
  rw [verifyEquality, if_neg hnumbers]
  cases hone : v.compareEntireDataSourceInOneTurn <;>
    simp [hsymbol, verifyEqualityForOrderedBySymbolDataSource]

lemma verifyEquality_ne_endless (hA : FiniteSource v.dataSourceA entriesA)
    (hB : FiniteSource v.dataSourceB entriesB) (h : EndsByTurns v entriesA entriesB ∨
      v.isOrderedDataSources = true ∧ v.isOrderedBySymbol = true) :
    v.verifyEquality ≠ .error .endless := by
  by_cases hne : entriesA = [] ∧ entriesB = []
  · have hboth : v.dataSourceA.getDataEntryNumber = 0 ∧ v.dataSourceB.getDataEntryNumber = 0 := by
      rw [hA.number, hB.number, hne.1, hne.2]
      exact ⟨rfl, rfl⟩
    rw [verifyEquality, if_pos hboth]
    rintro ⟨⟩
  have hnumbers := numbers_ne_zero hA.toAgrees hB.toAgrees hne
  by_cases hsymbol : v.isOrderedDataSources = true ∧ v.isOrderedBySymbol = true
  · rw [verifyEquality_bySymbol hnumbers hsymbol]
    exact bind_ne_endless (hA.bySymbol _ _) fun _ => bind_ne_endless (hB.bySymbol _ _) fun _ =>
      bind_ne_endless (compareSymbols_ne_endless _ _ _) fun _ => by rintro ⟨⟩
  · rw [verifyEquality_turns hnumbers (min_numbers hA.toAgrees hB.toAgrees) hsymbol]
    refine compareTurns_retrieveOf (h.resolve_right hsymbol) fun offset => ?_
    split_ifs
    · exact compareEntries_ne_endless _ _ _
    · rintro ⟨⟩

/-- **The verifier comes to an end** if and only if it compares everything in one turn, or by
symbol, or the configured number is positive, or one of the sources is empty. -/
theorem terminates_iff (v : DataVerifier) (entriesA entriesB : List DataEntry)
    (hA : FiniteSource v.dataSourceA entriesA) (hB : FiniteSource v.dataSourceB entriesB) :
    Terminates v ↔ EndsByTurns v entriesA entriesB ∨
      v.isOrderedDataSources = true ∧ v.isOrderedBySymbol = true := by
  have hloops : ∀ loop ∈ turnsOf v, loop = turns
      (retrieveOf v (min entriesA.length entriesB.length : ℕ))
      (min entriesA.length entriesB.length : ℕ) 0 ∧
        ¬ (v.isOrderedDataSources = true ∧ v.isOrderedBySymbol = true) := by
    intro loop hloop
    by_cases hsymbol : v.isOrderedDataSources = true ∧ v.isOrderedBySymbol = true
    · simp [turnsOf, hsymbol] at hloop
    · by_cases hne : entriesA = [] ∧ entriesB = []
      · rw [turnsOf, hA.number, hB.number, hne.1, hne.2] at hloop
        simp at hloop
      · rw [turnsOf_eq hA.toAgrees hB.toAgrees hsymbol hne] at hloop
        exact ⟨(Option.some.inj hloop).symm, hsymbol⟩
  constructor
  · intro h
    by_contra hnot
    rw [not_or, EndsByTurns, not_or, not_or, not_or] at hnot
    obtain ⟨⟨hone, heach, hAne, hBne⟩, hsymbol⟩ := hnot
    have hlengthA := List.length_pos_iff.2 hAne
    have hlengthB := List.length_pos_iff.2 hBne
    have hretrieve : retrieveOf v (min entriesA.length entriesB.length : ℕ) =
        v.numberOfEntriesToCompareEachTurn := by
      rw [retrieveOf, if_neg hone, numberToRetrieve, if_pos (by omega)]
    -- the first turn leaves no fewer entries
    have hfirst := h.decreases _
      (turnsOf_eq hA.toAgrees hB.toAgrees hsymbol fun hnil => hAne hnil.1) _ _ _ .start
      (if_neg (by simp only [turns]; omega))
    simp only [turns, hretrieve] at hfirst
    omega
  · intro h
    have hpos : ∀ loop ∈ turnsOf v, 0 < ((min entriesA.length entriesB.length : ℕ) : ℤ) →
        0 < retrieveOf v (min entriesA.length entriesB.length : ℕ) := by
      intro loop hloop
      exact retrieveOf_pos (h.resolve_right (hloops loop hloop).2)
    refine ⟨verifyEquality_ne_endless hA hB h, ?_, ?_⟩
    · intro loop hloop
      obtain rfl := (hloops loop hloop).1
      exact ⟨_, fun es s hrun => turns_length_le (hpos _ hloop) hrun⟩
    · intro loop hloop es s s' hrun hstep
      obtain rfl := (hloops loop hloop).1
      exact turns_decreases (hpos _ hloop) hrun hstep

end Verifier

/-- A verifier of fully ordered sources with one entry each, and this number each turn. -/
def turnsVerifier (each : ℤ) : DataVerifier where
  dataSourceA := dataSourceInfluxDB "trade_a" [tradeRow "90"] fun _ => ""
  dataSourceB := dataSourceInfluxDB "trade_b" [tradeRow "90"] fun _ => ""
  isOrderedBySymbol := false
  compareEntireDataSourceInOneTurn := false
  numberOfEntriesToCompareEachTurn := each

theorem terminates_turnsVerifier : Terminates (turnsVerifier 1) ↔
    EndsByTurns (turnsVerifier 1) [tradeRow "90"] [tradeRow "90"] ∨
      (turnsVerifier 1).isOrderedDataSources = true ∧ (turnsVerifier 1).isOrderedBySymbol = true :=
  terminates_iff (turnsVerifier 1) _ _ (finiteSource_dataSourceInfluxDB _ _ _)
    (finiteSource_dataSourceInfluxDB _ _ _)

/-- The configured number is 0. -/
theorem not_terminates : ¬ ∀ (v : DataVerifier) (entriesA entriesB : List DataEntry),
    FiniteSource v.dataSourceA entriesA → FiniteSource v.dataSourceB entriesB →
      Terminates v := by
  intro hall
  have h := hall (turnsVerifier 0) _ _ (finiteSource_dataSourceInfluxDB _ _ _)
    (finiteSource_dataSourceInfluxDB _ _ _)
  exact h.returns (by decide)

end TradingEngine.DataVerifier
