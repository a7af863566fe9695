/-
The verifier that compares two data sources (`data_verifier.cc`).

The two modes that read the sources in turns share their loop, `compareTurns`.  The loop runs
on fuel, one unit a turn; as many turns as there are entries are enough when a turn has any
entries, and none are when it has not.  The only sum that an `int` may not hold is the offset
after the last turn, which is not read.
-/
import TradingEngine.DataVerifier.DataSource

namespace TradingEngine

open DataVerifier

/-- `DataVerifier`. -/
structure DataVerifier where
  dataSourceA : DataSource
  dataSourceB : DataSource
  isOrderedDataSources : Bool := true
  isOrderedBySymbol : Bool := true
  compareEntireDataSourceInOneTurn : Bool := true
  numberOfEntriesToCompareEachTurn : ℤ := 10000

namespace DataVerifier

/-! ### Turns -/

/-- The loop over the turns; `turn` tells whether a turn finds an inconsistency. -/
def compareTurns (turn : (offset : ℤ) → Except Fault Bool) (numberToRetrieve : ℤ) :
    ℕ → (remaining offset : ℤ) → (inconsistencyFound : Bool) → Except Fault Bool
  | fuel, remaining, offset, inconsistencyFound =>
    if remaining ≤ 0 then .ok (!inconsistencyFound)
    else
      match fuel with
      | 0 => .error .endless
      | fuel + 1 => do
        let found ← turn offset
        compareTurns turn numberToRetrieve fuel (remaining - numberToRetrieve)
          (offset + numberToRetrieve) (inconsistencyFound || found)

/-- The entries of a turn that two sources are compared at, by position. -/
def compareEntries (compareDataEntry : DataEntry → DataEntry → Bool) :
    (dataEntriesA dataEntriesB : List DataEntry) → Except Fault Bool
  | [], _ => .ok false
  | _ :: _, [] => .error .outOfRange
  | a :: dataEntriesA, b :: dataEntriesB => do
    let found ← compareEntries compareDataEntry dataEntriesA dataEntriesB
    return !compareDataEntry a b || found

variable (v : DataVerifier)

/-- How many entries a turn retrieves. -/
def numberToRetrieve (limit : ℤ) : ℤ :=
  if v.numberOfEntriesToCompareEachTurn < limit then v.numberOfEntriesToCompareEachTurn
  else limit

/-- `VerifyEqualityForFullyOrderedDataSource`, turn after turn. -/
def verifyEqualityForFullyOrderedDataSource (limit offset : ℤ) : Except Fault Bool :=
  let turn (offset : ℤ) := compareEntries v.dataSourceA.compareDataEntry
    (v.dataSourceA.getDataEntries (v.numberToRetrieve limit) offset)
    (v.dataSourceB.getDataEntries (v.numberToRetrieve limit) offset)
  compareTurns turn (v.numberToRetrieve limit) limit.toNat limit offset false

/-- `VerifyEqualityForUnorderedDataSource`: every entry of `a` is looked for in `b`. -/
def verifyEqualityForUnorderedDataSource (limit offset : ℤ) : Except Fault Bool :=
  let turn (offset : ℤ) := .ok
    ((v.dataSourceA.getDataEntries (v.numberToRetrieve limit) offset).any fun dataEntry =>
      !v.dataSourceB.findIfDataEntryExists dataEntry)
  compareTurns turn (v.numberToRetrieve limit) limit.toNat limit offset false

/-! ### Symbol by symbol -/

/-- The type of `unmatched_data_entries_a` and `unmatched_data_entries_b`. -/
abbrev UnmatchedEntries := List (String × DataEntry)

/-- `unmatched_data_entries[key] = entry`. -/
def UnmatchedEntries.assign (unmatched : UnmatchedEntries) (key : String) (entry : DataEntry) :
    UnmatchedEntries :=
  unmatched.filter (fun e => e.1 ≠ key) ++ [(key, entry)]

/-- The key under which an unmatched entry is kept. -/
def unmatchedKey (entry : DataEntry) : Except Fault String := do
  let amount ← getString entry 1
  let buyUserId ← getString entry 3
  let price ← getString entry 4
  let sellUserId ← getString entry 6
  return amount ++ ":" ++ buyUserId ++ ":" ++ price ++ ":" ++ sellUserId

/-- The loop over the positions that both lists have. -/
def collectUnmatched (compareDataEntry : DataEntry → DataEntry → Bool) :
    (dataEntriesA dataEntriesB : List DataEntry) → UnmatchedEntries × UnmatchedEntries →
      Except Fault (UnmatchedEntries × UnmatchedEntries)
  | a :: dataEntriesA, b :: dataEntriesB, unmatched =>
    if compareDataEntry a b then
      collectUnmatched compareDataEntry dataEntriesA dataEntriesB unmatched
    else do
      let keyA ← unmatchedKey a
      let keyB ← unmatchedKey b
      collectUnmatched compareDataEntry dataEntriesA dataEntriesB
        (unmatched.1.assign keyA a, unmatched.2.assign keyB b)
  | _, _, unmatched => .ok unmatched

/-- The loop over the unmatched entries of the first source: those with a partner in the
second source are erased in both.  Only the others are an inconsistency. -/
def eraseMatched (inconsistencyFound : Bool) : UnmatchedEntries → UnmatchedEntries → Bool
  | [], _ => inconsistencyFound
  | (key, _) :: unmatchedA, unmatchedB =>
    if unmatchedB.any (fun e => e.1 = key) then
      eraseMatched inconsistencyFound unmatchedA (unmatchedB.filter fun e => e.1 ≠ key)
    else eraseMatched true unmatchedA unmatchedB

/-- The comparison of one symbol.  Lists of different lengths are only logged, as are the
entries that are left over. -/
def compareSymbol (compareDataEntry : DataEntry → DataEntry → Bool)
    (dataEntriesA dataEntriesB : List DataEntry) : Except Fault Bool := do
  let unmatched ← collectUnmatched compareDataEntry dataEntriesA dataEntriesB ([], [])
  return eraseMatched false unmatched.1 unmatched.2

/-- The turn of a symbol of the first source. -/
def verifySymbol (compareDataEntry : DataEntry → DataEntry → Bool)
    (dataEntriesMapB : List (String × List DataEntry)) (symbolId : String)
    (dataEntriesA : List DataEntry) : Except Fault Bool :=
  match dataEntriesMapB.lookup symbolId with
  | none => .ok true
  | some dataEntriesB => compareSymbol compareDataEntry dataEntriesA dataEntriesB

/-- The loop over the symbols of the first source. -/
def compareSymbols (compareDataEntry : DataEntry → DataEntry → Bool)
    (dataEntriesMapB : List (String × List DataEntry)) :
    List (String × List DataEntry) → Except Fault Bool
  | [] => .ok false
  | (symbolId, dataEntriesA) :: rest => do
    let found ← verifySymbol compareDataEntry dataEntriesMapB symbolId dataEntriesA
    let others ← compareSymbols compareDataEntry dataEntriesMapB rest
    return found || others

/-- `VerifyEqualityForOrderedBySymbolDataSource`, symbol after symbol. -/
def verifyEqualityForOrderedBySymbolDataSource (dataSourceALimit dataSourceBLimit offset : ℤ) :
    Except Fault Bool := do
  let dataEntriesMapA ← v.dataSourceA.getDataEntriesBySymbol dataSourceALimit offset
  let dataEntriesMapB ← v.dataSourceB.getDataEntriesBySymbol dataSourceBLimit offset
  let inconsistencyFound ←
    compareSymbols v.dataSourceA.compareDataEntry dataEntriesMapB dataEntriesMapA
  return !inconsistencyFound

/-! ### The verdict -/

/-- `VerifyEquality`, which chooses between the three. -/
def verifyEquality : Except Fault Bool :=
  let dataSourceANumber := v.dataSourceA.getDataEntryNumber
  let dataSourceBNumber := v.dataSourceB.getDataEntryNumber
  if dataSourceANumber = 0 ∧ dataSourceBNumber = 0 then .ok false
  else
    -- different numbers are only logged
    let dataSourceEntryNumber := min dataSourceANumber dataSourceBNumber
    let v :=
      if v.compareEntireDataSourceInOneTurn then
        { v with numberOfEntriesToCompareEachTurn := dataSourceEntryNumber }
      else v
    if v.isOrderedDataSources then
      if v.isOrderedBySymbol then
        v.verifyEqualityForOrderedBySymbolDataSource dataSourceANumber dataSourceBNumber 0
      else v.verifyEqualityForFullyOrderedDataSource dataSourceEntryNumber 0
    else v.verifyEqualityForUnorderedDataSource dataSourceEntryNumber 0

end DataVerifier

end TradingEngine
