/-
When an entry is taken to be in the database.

The return code of the query is only logged, and any answer but one counts as a row.
-/
import TradingEngine.Common.DatabaseInterface
import TradingEngine.Common.Text
import TradingEngine.DataVerifier.BySymbol

namespace TradingEngine.DataVerifier

open DatabaseInterface

/-- `GetQueryResult`, with the answers of the server to queries. -/
def getQueryResult (query : String → Reply) (sql : String) : String := (query sql).resp

/-- The positions of the values by which an entry is looked up. -/
def queryColumns : List ℕ := [1, 2, 3, 4, 5, 6, 8]

/-- The query for an entry whose values are strings. -/
def entryQuery (measurement : String) (entry : DataEntry) : String :=
  buildFindIfEntryExistsQuery measurement (text entry 1) (text entry 2) (text entry 3)
    (text entry 4) (text entry 5) (text entry 6) (text entry 8)

/-- The answer has a row at least. -/
def HasRow (parse : String → Except Exception Json) (resp : String) : Prop :=
  ∃ j items, parse resp = .ok j ∧ j.rows = .ok items ∧ items ≠ []

lemma getString_eq (entry : DataEntry) (i : ℕ) :
    getString entry i = .ok (text entry i) ∨ getString entry i = .error .typeError := by
  unfold getString text
  rcases entry[i]? with _ | value
  · exact Or.inr rfl
  · cases value with
    | string s => exact Or.inl rfl
    | null => exact Or.inr rfl
    | number n => exact Or.inr rfl

/-- An entry whose values are strings is looked up. -/
lemma findIfDataEntryExists_of_strings {measurement : String} {query : String → Reply}
    {entry : DataEntry} (h : ∀ i ∈ queryColumns, getString entry i = .ok (text entry i)) :
    findIfDataEntryExists measurement (getQueryResult query) entry =
      !isEmptyQueryResult (query (entryQuery measurement entry)).resp := by
  rw [findIfDataEntryExists, h 1 (by decide), h 2 (by decide), h 3 (by decide), h 4 (by decide),
    h 5 (by decide), h 6 (by decide), h 8 (by decide)]
  rfl

lemma exists_of_bind_eq_ok {α β : Type} {x : Except Fault α} {f : α → Except Fault β} {b : β}
    (h : x >>= f = .ok b) : ∃ a, x = .ok a ∧ f a = .ok b := by
  cases x with
  | error fault => cases h
  | ok a => exact ⟨a, rfl, h⟩

/-- The values of an entry that is found are strings. -/
lemma strings_of_findIfDataEntryExists {measurement : String} {query : String → Reply}
    {entry : DataEntry}
    (h : findIfDataEntryExists measurement (getQueryResult query) entry = true) :
    ∀ i ∈ queryColumns, getString entry i = .ok (text entry i) := by
  rw [findIfDataEntryExists] at h
  split at h
  · next sql heq =>
    obtain ⟨_, h1, heq⟩ := exists_of_bind_eq_ok heq
    obtain ⟨_, h2, heq⟩ := exists_of_bind_eq_ok heq
    obtain ⟨_, h3, heq⟩ := exists_of_bind_eq_ok heq
    obtain ⟨_, h4, heq⟩ := exists_of_bind_eq_ok heq
    obtain ⟨_, h5, heq⟩ := exists_of_bind_eq_ok heq
    obtain ⟨_, h6, heq⟩ := exists_of_bind_eq_ok heq
    obtain ⟨_, h8, -⟩ := exists_of_bind_eq_ok heq
    intro i hi
    refine (getString_eq entry i).resolve_right fun herror => ?_
    simp only [queryColumns, List.mem_cons, List.not_mem_nil, or_false] at hi
    rcases hi with rfl | rfl | rfl | rfl | rfl | rfl | rfl <;> simp_all
  · cases h

/-- An entry is found only if the query has succeeded and its answer has a row. -/
def FoundInRow (parse : String → Except Exception Json) (measurement : String)
    (query : String → Reply) (entry : DataEntry) : Prop :=
  findIfDataEntryExists measurement (getQueryResult query) entry = true →
    (query (entryQuery measurement entry)).ret = 0 ∧
      HasRow parse (query (entryQuery measurement entry)).resp

/-- **An entry is found only in a row** if and only if it cannot be looked up, or the answer is
that of a query without rows, or the query succeeds with a row. -/
theorem foundInRow_iff (parse : String → Except Exception Json) (measurement : String)
    (query : String → Reply) (entry : DataEntry) : FoundInRow parse measurement query entry ↔
      (∃ i ∈ queryColumns, getString entry i = .error .typeError) ∨
      isEmptyQueryResult (query (entryQuery measurement entry)).resp = true ∨
      ((query (entryQuery measurement entry)).ret = 0 ∧
        HasRow parse (query (entryQuery measurement entry)).resp) := by
  by_cases hstrings : ∀ i ∈ queryColumns, getString entry i = .ok (text entry i)
  · have hno : ¬ ∃ i ∈ queryColumns, getString entry i = .error .typeError := by
      rintro ⟨i, hi, herror⟩
      rw [hstrings i hi] at herror
      cases herror
    rw [or_iff_right hno, FoundInRow, findIfDataEntryExists_of_strings hstrings]
    cases isEmptyQueryResult (query (entryQuery measurement entry)).resp <;> simp
  · refine iff_of_true (fun h => absurd (strings_of_findIfDataEntryExists h) hstrings)
      (Or.inl ?_)
    push Not at hstrings
    obtain ⟨i, hi, herror⟩ := hstrings
    exact ⟨i, hi, (getString_eq entry i).resolve_left herror⟩

/-- The server cannot be reached: there is no answer, and the entry is found. -/
theorem not_foundInRow : ¬ ∀ (parse : String → Except Exception Json) (measurement : String)
    (query : String → Reply) (entry : DataEntry), FoundInRow parse measurement query entry := by
  intro hall
  have h := hall (fun _ => .error .parseError) "trade_b" (fun _ => ⟨-3, ""⟩) (tradeRow "90")
  exact absurd (h (by decide)).1 (by decide)

end TradingEngine.DataVerifier
