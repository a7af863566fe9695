/-
The mode of the verifier that compares the sources symbol by symbol.

Within a symbol the rows are compared by position.  What is left is compared as a set of keys,
and only a key of the first source that the second one lacks is an inconsistency: symbols that
only the second source has, lists of different lengths and repeated keys are not.
-/
import TradingEngine.DataVerifier.DataVerifier
import TradingEngine.Lib.Mismatch

namespace TradingEngine.DataVerifier

open Mismatch

/-! ### Rows -/

/-- The text at a position of a row. -/
def text (entry : DataEntry) (i : ℕ) : String :=
  match entry[i]? with
  | some (.string s) => s
  | _ => ""

/-- A row of a trade: it has this many columns, and the values that are compared are strings
without the separator of the keys. -/
structure WellFormed (columns : ℕ) (entry : DataEntry) : Prop where
  columns : entry.length = columns
  getString : ∀ i ∈ [1, 3, 4, 6, 8], getString entry i = .ok (text entry i)
  separator : ∀ i ∈ [1, 3, 4, 6, 8], ':' ∉ (text entry i).toList

/-- The amount, the buyer, the price and the seller. -/
def trade (entry : DataEntry) : String × String × String × String :=
  (text entry 1, text entry 3, text entry 4, text entry 6)

/-- The key of an unmatched entry with these values. -/
def key (t : String × String × String × String) : String :=
  t.1 ++ ":" ++ t.2.1 ++ ":" ++ t.2.2.1 ++ ":" ++ t.2.2.2

section Rows

variable {columns : ℕ} {a b : DataEntry}

lemma unmatchedKey_eq (h : WellFormed columns a) : unmatchedKey a = .ok (key (trade a)) := by
  rw [unmatchedKey, h.getString 1 (by decide), h.getString 3 (by decide),
    h.getString 4 (by decide), h.getString 6 (by decide)]
  rfl

/-- What stands before the first separator, and what stands after it. -/
lemma append_cons_inj {γ : Type*} {c : γ} {xs xs' ys ys' : List γ} (hxs : c ∉ xs) (hxs' : c ∉ xs')
    (h : xs ++ c :: ys = xs' ++ c :: ys') : xs = xs' ∧ ys = ys' := by
  induction xs generalizing xs' with
  | nil =>
    rcases xs' with _ | ⟨x', xs'⟩
    · exact ⟨rfl, by simpa using h⟩
    · obtain rfl : c = x' := by simpa using congrArg List.head? h
      exact absurd List.mem_cons_self hxs'
  | cons x xs ih =>
    rcases xs' with _ | ⟨x', xs'⟩
    · obtain rfl : x = c := by simpa using congrArg List.head? h
      exact absurd List.mem_cons_self hxs
    · rw [List.cons_append, List.cons_append, List.cons.injEq] at h
      obtain ⟨rfl, h⟩ := h
      obtain ⟨rfl, rfl⟩ := ih (fun hc => hxs (List.mem_cons_of_mem _ hc))
        (fun hc => hxs' (List.mem_cons_of_mem _ hc)) h
      exact ⟨rfl, rfl⟩

lemma append_separator_inj {s s' t t' : String} (hs : ':' ∉ s.toList) (hs' : ':' ∉ s'.toList)
    (h : s ++ (":" ++ t) = s' ++ (":" ++ t')) : s = s' ∧ t = t' := by
  have htoList := congrArg String.toList h
  simp only [String.toList_append] at htoList
  obtain ⟨h1, h2⟩ := append_cons_inj hs hs' htoList
  exact ⟨String.toList_inj.1 h1, String.toList_inj.1 h2⟩

/-- The keys of two rows agree only if the values do. -/
lemma key_trade_inj (ha : WellFormed columns a) (hb : WellFormed columns b) :
    key (trade a) = key (trade b) ↔ trade a = trade b := by
  refine ⟨fun h => ?_, congrArg key⟩
  simp only [key, trade, String.append_assoc] at h
  obtain ⟨h1, h⟩ := append_separator_inj (ha.separator 1 (by decide)) (hb.separator 1 (by decide)) h
  obtain ⟨h3, h⟩ := append_separator_inj (ha.separator 3 (by decide)) (hb.separator 3 (by decide)) h
  obtain ⟨h4, h6⟩ :=
    append_separator_inj (ha.separator 4 (by decide)) (hb.separator 4 (by decide)) h
  rw [trade, trade, h1, h3, h4, h6]

/-- Rows of one symbol are compared by these values. -/
lemma compareTradeJsonElement_eq (ha : WellFormed columns a) (hb : WellFormed columns b)
    (hsymbol : text a 8 = text b 8) :
    compareTradeJsonElement a b = decide (trade a = trade b) := by
  have hcolumn : ∀ i ∈ [1, 3, 4, 6, 8], compareColumn a b i = decide (text a i = text b i) := by
    intro i hi
    rw [compareColumn, ha.getString i hi, hb.getString i hi]
  have hlength : ¬ a.length ≠ b.length := by rw [ha.columns, hb.columns]; simp
  rw [compareTradeJsonElement, if_neg hlength]
  simp only [List.all_cons, List.all_nil, hcolumn 1 (by decide), hcolumn 3 (by decide),
    hcolumn 4 (by decide), hcolumn 6 (by decide), hcolumn 8 (by decide), hsymbol, trade,
    Prod.mk.injEq]
  grind

end Rows

/-! ### The rows of a symbol -/

/-- The rows of a symbol, in their order. -/
def rowsOf (symbolId : String) (rows : List DataEntry) : List DataEntry :=
  rows.filter fun row => text row 8 = symbolId

lemma rowsOf_cons (symbolId : String) (row : DataEntry) (rows : List DataEntry) :
    rowsOf symbolId (row :: rows) =
      if text row 8 = symbolId then row :: rowsOf symbolId rows else rowsOf symbolId rows := by
  simp [rowsOf, List.filter_cons]

lemma lookup_cons_eq (s t : String) (entries : List DataEntry)
    (dataEntries : List (String × List DataEntry)) :
    ((t, entries) :: dataEntries).lookup s =
      if s = t then some entries else dataEntries.lookup s := by
  rw [List.lookup_cons]
  split_ifs with hs
  · rw [beq_iff_eq.2 hs]
  · rw [beq_eq_false_iff_ne.2 hs]

lemma lookup_pushBack (symbolId s : String) (entry : DataEntry)
    (dataEntries : List (String × List DataEntry)) :
    (pushBack symbolId entry dataEntries).lookup s =
      if s = symbolId then some ((dataEntries.lookup s).getD [] ++ [entry])
      else dataEntries.lookup s := by
  induction dataEntries with
  | nil =>
    rw [pushBack, lookup_cons_eq]
    rfl
  | cons pair rest ih =>
    obtain ⟨t, entries⟩ := pair
    by_cases ht : t = symbolId
    · rw [pushBack, if_pos ht, lookup_cons_eq, lookup_cons_eq, ht]
      split_ifs <;> rfl
    · rw [pushBack, if_neg ht, lookup_cons_eq, lookup_cons_eq, ih]
      split_ifs with h1 h2
      · exact absurd (h1.symm.trans h2) ht
      · rfl
      · rfl
      · rfl

lemma keys_pushBack (symbolId : String) (entry : DataEntry)
    (dataEntries : List (String × List DataEntry)) :
    (pushBack symbolId entry dataEntries).map Prod.fst =
      if symbolId ∈ dataEntries.map Prod.fst then dataEntries.map Prod.fst
      else dataEntries.map Prod.fst ++ [symbolId] := by
  induction dataEntries with
  | nil => rfl
  | cons pair rest ih =>
    obtain ⟨t, entries⟩ := pair
    by_cases ht : t = symbolId
    · simp [pushBack, ht]
    · rw [pushBack, if_neg ht, List.map_cons, ih]
      by_cases hmem : symbolId ∈ rest.map Prod.fst
      · rw [if_pos hmem, List.map_cons, if_pos (List.mem_cons_of_mem _ hmem)]
      · rw [if_neg hmem, List.map_cons, if_neg, List.cons_append]
        rintro (_ | ⟨_, h⟩)
        · exact ht rfl
        · exact hmem h

/-- **The rows are told apart by symbol**: the table has the rows of every symbol. -/
theorem extractBySymbol_eq {columns : ℕ} {rows : List DataEntry}
    (hrows : ∀ row ∈ rows, WellFormed columns row) (dataEntries : List (String × List DataEntry))
    (hkeys : (dataEntries.map Prod.fst).Nodup) : ∃ table : List (String × List DataEntry),
      extractBySymbol dataEntries rows = .ok table ∧ (table.map Prod.fst).Nodup ∧
      ∀ s, table.lookup s =
        if rowsOf s rows = [] then dataEntries.lookup s
        else some ((dataEntries.lookup s).getD [] ++ rowsOf s rows) := by
  induction rows generalizing dataEntries with
  | nil => exact ⟨dataEntries, rfl, hkeys, fun s => rfl⟩
  | cons row rows ih =>
    obtain ⟨hrow, hrows⟩ := List.forall_mem_cons.1 hrows
    have hkeys' : ((pushBack (text row 8) row dataEntries).map Prod.fst).Nodup := by
      rw [keys_pushBack]
      split_ifs with hmem
      · exact hkeys
      · exact List.nodup_append.2 ⟨hkeys, List.nodup_singleton _, by
          intro t ht t' ht' heq
          rw [List.mem_singleton] at ht'
          exact hmem (ht' ▸ heq ▸ ht)⟩
    obtain ⟨table, htable, hnodup, hlookup⟩ := ih hrows _ hkeys'
    refine ⟨table, ?_, hnodup, fun s => ?_⟩
    · rw [extractBySymbol, hrow.getString 8 (by decide)]
      exact htable
    · rw [hlookup, lookup_pushBack, rowsOf_cons]
      by_cases hs : text row 8 = s
      · subst hs
        by_cases hnil : rowsOf (text row 8) rows = [] <;> simp [hnil]
      · rw [if_neg (Ne.symm hs), if_neg hs]

lemma mem_rowsOf {symbolId : String} {row : DataEntry} {rows : List DataEntry} :
    row ∈ rowsOf symbolId rows ↔ row ∈ rows ∧ text row 8 = symbolId := by
  rw [rowsOf, List.mem_filter, decide_eq_true_iff]

/-- The symbols that a source has rows of. -/
def symbols (rows : List DataEntry) : Set String := {s | ∃ row ∈ rows, text row 8 = s}

lemma mem_symbols_iff {s : String} {rows : List DataEntry} :
    s ∈ symbols rows ↔ rowsOf s rows ≠ [] := by
  rw [rowsOf, ne_eq, List.filter_eq_nil_iff]
  simp [symbols]

lemma lookup_of_mem {table : List (String × List DataEntry)} {pair : String × List DataEntry}
    (hkeys : (table.map Prod.fst).Nodup) (h : pair ∈ table) :
    table.lookup pair.1 = some pair.2 := by
  induction table with
  | nil => cases h
  | cons first table ih =>
    obtain ⟨t, entries⟩ := first
    rw [List.map_cons, List.nodup_cons] at hkeys
    rw [lookup_cons_eq]
    rcases List.mem_cons.1 h with rfl | h
    · rw [if_pos rfl]
    · have hne : pair.1 ≠ t := fun heq => hkeys.1 (List.mem_map.2 ⟨pair, h, heq⟩)
      rw [if_neg hne, ih hkeys.2 h]

lemma mem_keys_iff {table : List (String × List DataEntry)} {s : String} :
    s ∈ table.map Prod.fst ↔ table.lookup s ≠ none := by
  induction table with
  | nil => simp
  | cons first table ih =>
    rw [lookup_cons_eq, List.map_cons, List.mem_cons, ih]
    by_cases hs : s = first.1 <;> simp [hs]

/-- In a table with one entry for a key the order does not matter. -/
lemma lookup_eq_of_perm {table table' : List (String × List DataEntry)} (h : table.Perm table')
    (hkeys : (table.map Prod.fst).Nodup) (s : String) : table.lookup s = table'.lookup s := by
  have hkeys' : (table'.map Prod.fst).Nodup := (h.map Prod.fst).nodup_iff.1 hkeys
  by_cases hs : s ∈ table.map Prod.fst
  · obtain ⟨pair, hpair, rfl⟩ := List.mem_map.1 hs
    rw [lookup_of_mem hkeys hpair, lookup_of_mem hkeys' (h.mem_iff.1 hpair)]
  · have hs' : s ∉ table'.map Prod.fst := fun hmem => hs ((h.map Prod.fst).mem_iff.2 hmem)
    rw [mem_keys_iff, not_not] at hs hs'
    rw [hs, hs']

/-- A table of the rows of a source by symbol. -/
structure Tabulates (table : List (String × List DataEntry)) (rows : List DataEntry) : Prop where
  lookup : ∀ s, table.lookup s = if rowsOf s rows = [] then none else some (rowsOf s rows)
  entries : ∀ pair ∈ table, pair.2 = rowsOf pair.1 rows
  keys : ∀ s, s ∈ table.map Prod.fst ↔ s ∈ symbols rows

/-- The rows are told apart by symbol, in whatever order the table is. -/
lemma tabulates_of_perm {columns : ℕ} {rows : List DataEntry}
    (hrows : ∀ row ∈ rows, WellFormed columns row) {table table' : List (String × List DataEntry)}
    (htable : extractBySymbol [] rows = .ok table) (hperm : table.Perm table') :
    Tabulates table' rows := by
  obtain ⟨table₁, htable₁, hkeys, hlookup⟩ := extractBySymbol_eq hrows [] List.nodup_nil
  obtain rfl : table₁ = table := Except.ok.inj (htable₁.symm.trans htable)
  have hkeys' : (table'.map Prod.fst).Nodup := (hperm.map Prod.fst).nodup_iff.1 hkeys
  have hlookup' : ∀ s,
      table'.lookup s = if rowsOf s rows = [] then none else some (rowsOf s rows) := by
    intro s
    rw [← lookup_eq_of_perm hperm hkeys, hlookup]
    rfl
  refine ⟨hlookup', fun pair hpair => ?_, fun s => ?_⟩
  · have hfound := lookup_of_mem hkeys' hpair
    rw [hlookup'] at hfound
    split_ifs at hfound
    exact (Option.some_injective _ hfound).symm
  · rw [mem_keys_iff, mem_symbols_iff, hlookup']
    split_ifs with h <;> simp [h]

lemma exists_extractBySymbol {columns : ℕ} {rows : List DataEntry}
    (hrows : ∀ row ∈ rows, WellFormed columns row) :
    ∃ table : List (String × List DataEntry), extractBySymbol [] rows = .ok table := by
  obtain ⟨table, htable, -, -⟩ := extractBySymbol_eq hrows [] List.nodup_nil
  exact ⟨table, htable⟩

/-! ### The entries that are left unmatched -/

/-- What is left to compare of the rows of a symbol. -/
def unmatchedTrades (dataEntriesA dataEntriesB : List DataEntry) :
    List ((String × String × String × String) × (String × String × String × String)) :=
  mismatches (dataEntriesA.map trade) (dataEntriesB.map trade)

lemma mem_keys_erase (unmatched : UnmatchedEntries) (k k' : String) :
    k' ∈ (unmatched.filter fun e => e.1 ≠ k).map Prod.fst ↔
      k' ∈ unmatched.map Prod.fst ∧ k' ≠ k := by
  constructor
  · intro h
    obtain ⟨e, he, rfl⟩ := List.mem_map.1 h
    obtain ⟨he, hne⟩ := List.mem_filter.1 he
    exact ⟨List.mem_map_of_mem he, by simpa using hne⟩
  · rintro ⟨h, hne⟩
    obtain ⟨e, he, rfl⟩ := List.mem_map.1 h
    exact List.mem_map_of_mem (List.mem_filter.2 ⟨he, by simpa using hne⟩)

lemma mem_keys_assign (unmatched : UnmatchedEntries) (k : String) (entry : DataEntry)
    (k' : String) :
    k' ∈ (unmatched.assign k entry).map Prod.fst ↔ k' ∈ unmatched.map Prod.fst ∨ k' = k := by
  rw [UnmatchedEntries.assign, List.map_append, List.mem_append, mem_keys_erase, List.map_cons,
    List.map_nil, List.mem_singleton]
  by_cases hk : k' = k <;> simp [hk]

lemma nodup_assign {unmatched : UnmatchedEntries} (h : (unmatched.map Prod.fst).Nodup) (k : String)
    (entry : DataEntry) : ((unmatched.assign k entry).map Prod.fst).Nodup := by
  rw [UnmatchedEntries.assign, List.map_append, List.nodup_append]
  refine ⟨h.sublist (List.filter_sublist.map _), List.nodup_singleton _, ?_⟩
  intro k' hk' k'' hk''
  rw [List.map_cons, List.map_nil, List.mem_singleton] at hk''
  rw [hk'']
  exact ((mem_keys_erase _ _ _).1 hk').2

/-- The entries that are collected are those that differ from their partner. -/
lemma collectUnmatched_eq {columns : ℕ} {symbolId : String}
    {dataEntriesA dataEntriesB : List DataEntry}
    (hA : ∀ a ∈ dataEntriesA, WellFormed columns a ∧ text a 8 = symbolId)
    (hB : ∀ b ∈ dataEntriesB, WellFormed columns b ∧ text b 8 = symbolId)
    (unmatched : UnmatchedEntries × UnmatchedEntries) (hkeys : (unmatched.1.map Prod.fst).Nodup) :
    ∃ collected : UnmatchedEntries × UnmatchedEntries,
      collectUnmatched compareTradeJsonElement dataEntriesA dataEntriesB unmatched =
        .ok collected ∧ (collected.1.map Prod.fst).Nodup ∧
      (∀ k, k ∈ collected.1.map Prod.fst ↔ k ∈ unmatched.1.map Prod.fst ∨
        ∃ p ∈ unmatchedTrades dataEntriesA dataEntriesB, k = key p.1) ∧
      (∀ k, k ∈ collected.2.map Prod.fst ↔ k ∈ unmatched.2.map Prod.fst ∨
        ∃ p ∈ unmatchedTrades dataEntriesA dataEntriesB, k = key p.2) := by
  induction dataEntriesA generalizing dataEntriesB unmatched with
  | nil => exact ⟨unmatched, rfl, hkeys, by simp [unmatchedTrades], by simp [unmatchedTrades]⟩
  | cons a dataEntriesA ih =>
    rcases dataEntriesB with _ | ⟨b, dataEntriesB⟩
    · exact ⟨unmatched, rfl, hkeys, by simp [unmatchedTrades], by simp [unmatchedTrades]⟩
    obtain ⟨⟨ha, hsa⟩, hA⟩ := List.forall_mem_cons.1 hA
    obtain ⟨⟨hb, hsb⟩, hB⟩ := List.forall_mem_cons.1 hB
    have hcompare := compareTradeJsonElement_eq ha hb (hsa.trans hsb.symm)
    by_cases heq : trade a = trade b
    · obtain ⟨collected, hcollected, hnodup, h1, h2⟩ := ih hA hB unmatched hkeys
      have htrades : unmatchedTrades (a :: dataEntriesA) (b :: dataEntriesB) =
          unmatchedTrades dataEntriesA dataEntriesB := by
        rw [unmatchedTrades, List.map_cons, List.map_cons, heq, mismatches_cons_self]
        rfl
      refine ⟨collected, ?_, hnodup, by rwa [htrades], by rwa [htrades]⟩
      rw [collectUnmatched, hcompare, if_pos (by simpa using heq), hcollected]
    · have htrades : unmatchedTrades (a :: dataEntriesA) (b :: dataEntriesB) =
          (trade a, trade b) :: unmatchedTrades dataEntriesA dataEntriesB :=
        mismatches_cons_of_ne heq _ _
      obtain ⟨collected, hcollected, hnodup, h1, h2⟩ := ih hA hB
        (unmatched.1.assign (key (trade a)) a, unmatched.2.assign (key (trade b)) b)
        (nodup_assign hkeys _ _)
      refine ⟨collected, ?_, hnodup, fun k => ?_, fun k => ?_⟩
      · rw [collectUnmatched, hcompare, if_neg (by simpa using heq), unmatchedKey_eq ha,
          unmatchedKey_eq hb]
        exact hcollected
      · rw [h1, mem_keys_assign, htrades, or_assoc, List.exists_mem_cons_iff]
      · rw [h2, mem_keys_assign, htrades, or_assoc, List.exists_mem_cons_iff]

/-- An inconsistency is found for a key of the first source that the second one lacks. -/
lemma eraseMatched_iff (inconsistencyFound : Bool) {unmatchedA : UnmatchedEntries}
    (hkeys : (unmatchedA.map Prod.fst).Nodup) (unmatchedB : UnmatchedEntries) :
    eraseMatched inconsistencyFound unmatchedA unmatchedB = true ↔ inconsistencyFound = true ∨
      ∃ k ∈ unmatchedA.map Prod.fst, k ∉ unmatchedB.map Prod.fst := by
  induction unmatchedA generalizing inconsistencyFound unmatchedB with
  | nil => simp [eraseMatched]
  | cons entry unmatchedA ih =>
    obtain ⟨k, a⟩ := entry
    rw [List.map_cons, List.nodup_cons] at hkeys
    obtain ⟨hfresh, hkeys⟩ := hkeys
    rw [eraseMatched, List.map_cons, List.exists_mem_cons_iff]
    by_cases hk : k ∈ unmatchedB.map Prod.fst
    · have hany : unmatchedB.any (fun e => e.1 = k) = true := by
        obtain ⟨e, he, rfl⟩ := List.mem_map.1 hk
        exact List.any_eq_true.2 ⟨e, he, by simp⟩
      rw [if_pos hany, ih _ hkeys]
      refine or_congr Iff.rfl ?_
      rw [or_iff_right (not_not.2 hk)]
      -- the key that is erased is not met again
      refine exists_congr fun k' => and_congr_right fun hk' => not_congr ?_
      have hne : k' ≠ k := fun h => hfresh (h ▸ hk')
      rw [mem_keys_erase, and_iff_left hne]
    · have hany : ¬ unmatchedB.any (fun e => e.1 = k) = true := by
        rw [List.any_eq_true]
        rintro ⟨e, he, hek⟩
        exact hk (List.mem_map.2 ⟨e, he, by simpa using hek⟩)
      rw [if_neg hany, ih _ hkeys]
      exact iff_of_true (Or.inl rfl) (Or.inr (Or.inl hk))

/-- The comparison of a symbol finds the rows of the first source that are left without a
partner. -/
lemma compareSymbol_eq {columns : ℕ} {symbolId : String}
    {dataEntriesA dataEntriesB : List DataEntry}
    (hA : ∀ a ∈ dataEntriesA, WellFormed columns a ∧ text a 8 = symbolId)
    (hB : ∀ b ∈ dataEntriesB, WellFormed columns b ∧ text b 8 = symbolId) :
    ∃ found, compareSymbol compareTradeJsonElement dataEntriesA dataEntriesB = .ok found ∧
      (found = true ↔ ∃ p ∈ unmatchedTrades dataEntriesA dataEntriesB,
        ∀ q ∈ unmatchedTrades dataEntriesA dataEntriesB, p.1 ≠ q.2) := by
  obtain ⟨collected, hcollected, hnodup, h1, h2⟩ :=
    collectUnmatched_eq hA hB ([], []) List.nodup_nil
  refine ⟨eraseMatched false collected.1 collected.2, by rw [compareSymbol, hcollected]; rfl, ?_⟩
  have hkey : ∀ p ∈ unmatchedTrades dataEntriesA dataEntriesB,
      ∀ q ∈ unmatchedTrades dataEntriesA dataEntriesB, key p.1 = key q.2 ↔ p.1 = q.2 := by
    intro p hp q hq
    obtain ⟨a, ha, hpa⟩ := List.mem_map.1 (mem_of_mem_mismatches hp).1
    obtain ⟨b, hb, hqb⟩ := List.mem_map.1 (mem_of_mem_mismatches hq).2
    rw [← hpa, ← hqb]
    exact key_trade_inj (hA a ha).1 (hB b hb).1
  rw [eraseMatched_iff _ hnodup, or_iff_right Bool.false_ne_true]
  constructor
  · rintro ⟨k, hk, hmissing⟩
    obtain ⟨p, hp, rfl⟩ := ((h1 k).1 hk).resolve_left List.not_mem_nil
    refine ⟨p, hp, fun q hq heq => hmissing ((h2 _).2 (Or.inr ⟨q, hq, ?_⟩))⟩
    exact (hkey p hp q hq).2 heq
  · rintro ⟨p, hp, hmissing⟩
    refine ⟨key p.1, (h1 _).2 (Or.inr ⟨p, hp, rfl⟩), fun hk => ?_⟩
    obtain ⟨q, hq, heq⟩ := ((h2 _).1 hk).resolve_left List.not_mem_nil
    exact hmissing q hq ((hkey p hp q hq).1 heq)

/-! ### The verdict -/

/-- The loop over the symbols finds an inconsistency if it finds one for a symbol. -/
lemma compareSymbols_eq {compareDataEntry : DataEntry → DataEntry → Bool}
    {dataEntriesMapB dataEntriesMapA : List (String × List DataEntry)} (P : String → Prop)
    (h : ∀ pair ∈ dataEntriesMapA, ∃ found,
      verifySymbol compareDataEntry dataEntriesMapB pair.1 pair.2 = .ok found ∧
        (found = true ↔ P pair.1)) :
    ∃ found, compareSymbols compareDataEntry dataEntriesMapB dataEntriesMapA = .ok found ∧
      (found = true ↔ ∃ s ∈ dataEntriesMapA.map Prod.fst, P s) := by
  induction dataEntriesMapA with
  | nil => exact ⟨false, rfl, by simp⟩
  | cons pair rest ih =>
    obtain ⟨⟨found, hfound, hP⟩, hrest⟩ := List.forall_mem_cons.1 h
    obtain ⟨others, hothers, hothersP⟩ := ih hrest
    refine ⟨found || others, ?_, ?_⟩
    · rw [compareSymbols, hfound, hothers]
      rfl
    · rw [Bool.or_eq_true, hP, hothersP, List.map_cons, List.exists_mem_cons_iff]

/-- A symbol of the first source is missing from the second one, or a row of it is left
unmatched, with values that no row has that is left unmatched there. -/
def MissingOrUnmatched (rowsA rowsB : List DataEntry) (s : String) : Prop :=
  s ∉ symbols rowsB ∨ ∃ p ∈ unmatchedTrades (rowsOf s rowsA) (rowsOf s rowsB),
    ∀ q ∈ unmatchedTrades (rowsOf s rowsA) (rowsOf s rowsB), p.1 ≠ q.2

/-- What the verifier takes for an inconsistency. -/
def Detected (rowsA rowsB : List DataEntry) : Prop :=
  ∃ s ∈ symbols rowsA, MissingOrUnmatched rowsA rowsB s

/-- A source with these rows, of which it gives the table by symbol in some order. -/
structure BySymbolSource (source : DataSource) (rows : List DataEntry) : Prop where
  compareDataEntry : source.compareDataEntry = compareTradeJsonElement
  getDataEntriesBySymbol : ∃ table table' : List (String × List DataEntry),
    extractBySymbol [] rows = .ok table ∧ table.Perm table' ∧
      source.getDataEntriesBySymbol rows.length 0 = .ok table'

lemma bySymbolSource_dataSourceInfluxDB {columns : ℕ} {rows : List DataEntry}
    (hrows : ∀ row ∈ rows, WellFormed columns row) (measurement : String)
    (getQueryResult : String → String) :
    BySymbolSource (dataSourceInfluxDB measurement rows getQueryResult) rows := by
  obtain ⟨table, htable⟩ := exists_extractBySymbol hrows
  refine ⟨rfl, table, table, htable, .refl _, ?_⟩
  rw [← htable]
  simp [dataSourceInfluxDB]

/-- **The verdict** on two sources of well-formed rows. -/
theorem verdict_iff {v : DataVerifier} {columns : ℕ} {rowsA rowsB : List DataEntry}
    (hA : BySymbolSource v.dataSourceA rowsA) (hB : BySymbolSource v.dataSourceB rowsB)
    (hrowsA : ∀ row ∈ rowsA, WellFormed columns row)
    (hrowsB : ∀ row ∈ rowsB, WellFormed columns row) :
    v.verifyEqualityForOrderedBySymbolDataSource rowsA.length rowsB.length 0 = .ok true ↔
      ¬ Detected rowsA rowsB := by
  obtain ⟨tableA, mapA, hextractA, hpermA, hentriesA⟩ := hA.getDataEntriesBySymbol
  obtain ⟨tableB, mapB, hextractB, hpermB, hentriesB⟩ := hB.getDataEntriesBySymbol
  have htableA := tabulates_of_perm hrowsA hextractA hpermA
  have htableB := tabulates_of_perm hrowsB hextractB hpermB
  have hturn : ∀ pair ∈ mapA, ∃ found,
      verifySymbol compareTradeJsonElement mapB pair.1 pair.2 = .ok found ∧
        (found = true ↔ MissingOrUnmatched rowsA rowsB pair.1) := by
    intro pair hpair
    rw [verifySymbol, htableB.lookup, htableA.entries pair hpair, MissingOrUnmatched,
      mem_symbols_iff, not_not]
    split_ifs with hnil
    · exact ⟨true, rfl, iff_of_true rfl (Or.inl hnil)⟩
    · obtain ⟨found, hfound, hiff⟩ := compareSymbol_eq
        (fun a ha => ⟨hrowsA a (mem_rowsOf.1 ha).1, (mem_rowsOf.1 ha).2⟩)
        (fun b hb => ⟨hrowsB b (mem_rowsOf.1 hb).1, (mem_rowsOf.1 hb).2⟩)
      exact ⟨found, hfound, hiff.trans (or_iff_right hnil).symm⟩
  obtain ⟨found, hfound, hiff⟩ := compareSymbols_eq _ hturn
  have hverify : v.verifyEqualityForOrderedBySymbolDataSource rowsA.length rowsB.length 0 =
      .ok (!found) := by
    rw [verifyEqualityForOrderedBySymbolDataSource, hentriesA, hentriesB, hA.compareDataEntry]
    exact congrArg (Except.map (!·)) hfound
  rw [hverify, Except.ok.injEq, Bool.not_eq_true', ← Bool.not_eq_true, hiff, Detected]
  simp only [htableA.keys]

/-- The verdict on two databases. -/
theorem verifyEqualityForOrderedBySymbol_iff {v : DataVerifier} {columns : ℕ}
    {measurementA measurementB : String} {getQueryResultA getQueryResultB : String → String}
    {rowsA rowsB : List DataEntry}
    (hA : v.dataSourceA = dataSourceInfluxDB measurementA rowsA getQueryResultA)
    (hB : v.dataSourceB = dataSourceInfluxDB measurementB rowsB getQueryResultB)
    (hrowsA : ∀ row ∈ rowsA, WellFormed columns row)
    (hrowsB : ∀ row ∈ rowsB, WellFormed columns row) :
    v.verifyEqualityForOrderedBySymbolDataSource rowsA.length rowsB.length 0 = .ok true ↔
      ¬ Detected rowsA rowsB := by
  apply verdict_iff _ _ hrowsA hrowsB
  · rw [hA]
    exact bySymbolSource_dataSourceInfluxDB hrowsA _ _
  · rw [hB]
    exact bySymbolSource_dataSourceInfluxDB hrowsB _ _

/-- The two sources have the same symbols, and the same trades of every symbol. -/
structure SameTrades (rowsA rowsB : List DataEntry) : Prop where
  symbols : symbols rowsA = symbols rowsB
  number : ∀ s, (rowsOf s rowsA).length = (rowsOf s rowsB).length
  trades : ∀ s, Multiset.ofList ((rowsOf s rowsA).map trade) =
    Multiset.ofList ((rowsOf s rowsB).map trade)

/-- What is left unmatched of a symbol is the same in both sources. -/
def SameUnmatched (rowsA rowsB : List DataEntry) (s : String) : Prop :=
  Multiset.ofList ((unmatchedTrades (rowsOf s rowsA) (rowsOf s rowsB)).map Prod.fst) =
    Multiset.ofList ((unmatchedTrades (rowsOf s rowsA) (rowsOf s rowsB)).map Prod.snd)

/-- It is enough to count the rows of a symbol, and to compare what is left unmatched of it. -/
lemma sameTrades_iff {rowsA rowsB : List DataEntry} : SameTrades rowsA rowsB ↔
    ∀ s, (rowsOf s rowsA).length = (rowsOf s rowsB).length ∧ SameUnmatched rowsA rowsB s := by
  have htrades : ∀ s, (rowsOf s rowsA).length = (rowsOf s rowsB).length →
      (Multiset.ofList ((rowsOf s rowsA).map trade) =
        Multiset.ofList ((rowsOf s rowsB).map trade) ↔ SameUnmatched rowsA rowsB s) := by
    intro s hs
    have hlength : ((rowsOf s rowsA).map trade).length = ((rowsOf s rowsB).map trade).length := by
      rw [List.length_map, List.length_map, hs]
    exact coe_eq_coe_iff hlength
  constructor
  · exact fun h s => ⟨h.number s, (htrades s (h.number s)).1 (h.trades s)⟩
  · intro h
    refine ⟨?_, fun s => (h s).1, fun s => (htrades s (h s).1).2 (h s).2⟩
    ext s
    rw [mem_symbols_iff, mem_symbols_iff, ← List.length_pos_iff, ← List.length_pos_iff, (h s).1]

/-- **Sources compared by symbol**: the verdict is sound, that is, sources that are found equal
have the same trades, if and only if an inconsistency is detected, or every symbol has the same
number of rows in both, and what is left unmatched of it is the same in both. -/
theorem verifyEqualityForOrderedBySymbol_sound_iff (v : DataVerifier) (columns : ℕ)
    (measurementA measurementB : String) (getQueryResultA getQueryResultB : String → String)
    (rowsA rowsB : List DataEntry)
    (hA : v.dataSourceA = dataSourceInfluxDB measurementA rowsA getQueryResultA)
    (hB : v.dataSourceB = dataSourceInfluxDB measurementB rowsB getQueryResultB)
    (hrowsA : ∀ row ∈ rowsA, WellFormed columns row)
    (hrowsB : ∀ row ∈ rowsB, WellFormed columns row) :
    (v.verifyEqualityForOrderedBySymbolDataSource rowsA.length rowsB.length 0 = .ok true →
      SameTrades rowsA rowsB) ↔
    Detected rowsA rowsB ∨
      ∀ s, (rowsOf s rowsA).length = (rowsOf s rowsB).length ∧ SameUnmatched rowsA rowsB s := by
  rw [verifyEqualityForOrderedBySymbol_iff hA hB hrowsA hrowsB, ← sameTrades_iff]
  exact Classical.or_iff_not_imp_left.symm

/-- A verifier of sources that are ordered by symbol. -/
def bySymbolVerifier (rowsA rowsB : List DataEntry) : DataVerifier where
  dataSourceA := dataSourceInfluxDB "trade_a" rowsA fun _ => ""
  dataSourceB := dataSourceInfluxDB "trade_b" rowsB fun _ => ""

lemma wellFormed_tradeRow : ∀ row ∈ [tradeRow "90", tradeRow "91" "1"], WellFormed 10 row := by
  intro row hrow
  rcases List.mem_pair.1 hrow with rfl | rfl
  · exact ⟨rfl, by decide, by decide⟩
  · exact ⟨rfl, by decide, by decide⟩

/-- The second source has a trade of another symbol. -/
theorem verifyEqualityForOrderedBySymbol_twoSymbols :
    ((bySymbolVerifier [tradeRow "90"]
        [tradeRow "90", tradeRow "91" "1"]).verifyEqualityForOrderedBySymbolDataSource 1 2 0 =
          .ok true →
      SameTrades [tradeRow "90"] [tradeRow "90", tradeRow "91" "1"]) ↔
    Detected [tradeRow "90"] [tradeRow "90", tradeRow "91" "1"] ∨
      ∀ s, (rowsOf s [tradeRow "90"]).length =
          (rowsOf s [tradeRow "90", tradeRow "91" "1"]).length ∧
        SameUnmatched [tradeRow "90"] [tradeRow "90", tradeRow "91" "1"] s :=
  verifyEqualityForOrderedBySymbol_sound_iff (bySymbolVerifier _ _) 10 _ _ _ _ _ _ rfl rfl
    (fun row hrow => wellFormed_tradeRow row (List.mem_pair.2 (Or.inl (List.mem_singleton.1 hrow))))
    wellFormed_tradeRow

/-- They are found equal. -/
theorem extra_symbol_found_equal : ∃ rowsA rowsB : List DataEntry,
    (∀ row ∈ rowsA, WellFormed 10 row) ∧ (∀ row ∈ rowsB, WellFormed 10 row) ∧
    ¬ ((bySymbolVerifier rowsA rowsB).verifyEqualityForOrderedBySymbolDataSource
        rowsA.length rowsB.length 0 = .ok true → SameTrades rowsA rowsB) := by
  refine ⟨[tradeRow "90"], [tradeRow "90", tradeRow "91" "1"],
    fun row hrow => wellFormed_tradeRow row (List.mem_pair.2 (Or.inl (List.mem_singleton.1 hrow))),
    wellFormed_tradeRow, fun h => ?_⟩
  have hnumber := (h (by decide)).number "1"
  exact absurd hnumber (by decide)

/-! ### Completeness -/

/-- Nothing is found in sources with the same trades of every symbol. -/
lemma not_detected_of_perm {rowsA rowsB : List DataEntry}
    (h : ∀ s, ((rowsOf s rowsA).map trade).Perm ((rowsOf s rowsB).map trade)) :
    ¬ Detected rowsA rowsB := by
  rintro ⟨s, hs, hmissing⟩
  have hlength := (h s).length_eq
  rcases hmissing with hmissing | ⟨p, hp, hunmatched⟩
  · rw [List.length_map, List.length_map] at hlength
    rw [mem_symbols_iff, ← List.length_pos_iff] at hs hmissing
    omega
  · -- what is left on the one side is left on the other side as well
    have hsame : ((unmatchedTrades (rowsOf s rowsA) (rowsOf s rowsB)).map Prod.fst).Perm
        ((unmatchedTrades (rowsOf s rowsA) (rowsOf s rowsB)).map Prod.snd) :=
      Multiset.coe_eq_coe.1 ((coe_eq_coe_iff hlength).1 (Multiset.coe_eq_coe.2 (h s)))
    obtain ⟨q, hq, heq⟩ := List.mem_map.1 (hsame.mem_iff.1 (List.mem_map_of_mem hp))
    exact hunmatched q hq heq.symm

/-- **The verdict is complete**: sources of well-formed rows of which every symbol has the same
trades, in any order, are found equal, in whatever order the symbols are. -/
theorem verifyEqualityForOrderedBySymbol_complete (v : DataVerifier) (columns : ℕ)
    (rowsA rowsB : List DataEntry) (hA : BySymbolSource v.dataSourceA rowsA)
    (hB : BySymbolSource v.dataSourceB rowsB)
    (hrowsA : ∀ row ∈ rowsA, WellFormed columns row)
    (hrowsB : ∀ row ∈ rowsB, WellFormed columns row)
    (hperm : ∀ s, ((rowsOf s rowsA).map trade).Perm ((rowsOf s rowsB).map trade)) :
    v.verifyEqualityForOrderedBySymbolDataSource rowsA.length rowsB.length 0 = .ok true :=
  (verdict_iff hA hB hrowsA hrowsB).2 (not_detected_of_perm hperm)

/-- The same rows, two of which agree, in two orders. -/
theorem verifyEqualityForOrderedBySymbol_shuffled :
    (bySymbolVerifier [tradeRow "90", tradeRow "91" "1", tradeRow "92", tradeRow "90"]
        [tradeRow "91" "1", tradeRow "90", tradeRow "90",
          tradeRow "92"]).verifyEqualityForOrderedBySymbolDataSource 4 4 0 = .ok true := by
  have hrow : ∀ row ∈ [tradeRow "90", tradeRow "91" "1", tradeRow "92", tradeRow "90"],
      WellFormed 10 row := by
    simp only [List.forall_mem_cons, List.not_mem_nil, false_imp_iff, implies_true, and_true]
    exact ⟨⟨rfl, by decide, by decide⟩, ⟨rfl, by decide, by decide⟩, ⟨rfl, by decide, by decide⟩,
      ⟨rfl, by decide, by decide⟩⟩
  have hshuffle : [tradeRow "90", tradeRow "91" "1", tradeRow "92", tradeRow "90"].Perm
      [tradeRow "91" "1", tradeRow "90", tradeRow "90", tradeRow "92"] := by decide
  have hrow' := fun row h => hrow row (hshuffle.mem_iff.2 h)
  exact verifyEqualityForOrderedBySymbol_complete _ 10 _ _
    (bySymbolSource_dataSourceInfluxDB hrow _ _) (bySymbolSource_dataSourceInfluxDB hrow' _ _)
    hrow hrow' fun s => (hshuffle.filter _).map _

end TradingEngine.DataVerifier
