/-
The source in a database on the texts that it gets and gives (`data_source_influxdb.cc`).

Queries are texts, their answers are texts of JSON, and an entry is what `dump` makes of a row;
the text of a double is a parameter.  If the server has certain rows, the class refines the source
over these rows as they are parsed.
-/
import TradingEngine.Common.Json
import TradingEngine.DataVerifier.QueryResult

namespace TradingEngine.DataVerifier.DataSourceInfluxDB

open DatabaseInterface Lib

/-! ### Queries -/

/-- `BuildGetDataEntriesQuery`. -/
def buildGetDataEntriesQuery (measurement : String) (limit offset : ℤ) : String :=
  "select * from \"" ++ measurement ++ "\" limit " ++ toString limit ++ " offset " ++
    toString offset

/-- `BuildGetDataEntryNumberQuery`. -/
def buildGetDataEntryNumberQuery (measurement : String) : String :=
  "select count(trade_id) from \"" ++ measurement ++ "\""

/-! ### Reading the answers -/

/-- `j["results"][0]["series"][0]["values"]`. -/
def valuesArray (j : Json) : Except Exception Json := do
  let results ← j.member "results"
  let result ← results.item 0
  let series ← result.member "series"
  let firstSeries ← series.item 0
  firstSeries.member "values"

/-- `Algorithm::ExtractValuesJsonArray`. -/
def extractValuesJsonArray (data : String) : Except Exception Json := do
  let j ← Json.parse data
  valuesArray j

/-- `size`. -/
def size : Json → ℕ
  | .null => 0
  | .array items => items.length
  | .object members => members.length
  | _ => 1

/-- A loop over the indices of a value. -/
def forElements {β : Type} (values : Json) (f : β → Json → Except Exception β) (b : β) :
    Except Exception β :=
  (List.range (size values)).foldlM (fun b i => do
    let element ← values.item i
    f b element) b

/-- What the two functions that extract elements have in common; `data` is parsed before what is
thrown is caught. -/
def extractElements {β : Type} (f : β → Json → Except Exception β) (b : β) (data : String) :
    Except Exception (Option β) := do
  let _ ← Json.parse data
  match extractValuesJsonArray data with
  | .error _ => return none
  | .ok values =>
    if size values = 0 then return none
    else
      let dataEntries ← forElements values f b
      return some dataEntries

/-- `Algorithm::ExtractValuesElementFromJsonString`. -/
def extractValuesElementFromJsonString (dumpFloat : ℚ → List Char) :
    String → Except Exception (Option (List String)) :=
  extractElements (fun dataEntries element => .ok (dataEntries ++ [element.dump dumpFloat])) []

/-- `element[i].get<std::string>()`. -/
def readString (element : Json) (i : ℕ) : Except Exception String := do
  let value ← element.item i
  value.getString

/-- `data_entries[symbol_id].push_back(entry)`. -/
def pushBack (symbolId entry : String) : List (String × List String) → List (String × List String)
  | [] => [(symbolId, [entry])]
  | (s, entries) :: rest =>
    if s = symbolId then (s, entries ++ [entry]) :: rest
    else (s, entries) :: pushBack symbolId entry rest

/-- `Algorithm::ExtractValuesElementFromJsonStringBySymbol`. -/
def extractValuesElementFromJsonStringBySymbol (dumpFloat : ℚ → List Char) :
    String → Except Exception (Option (List (String × List String))) :=
  extractElements (fun dataEntries element => do
    let symbolId ← readString element 8
    return pushBack symbolId (element.dump dumpFloat) dataEntries) []

/-! ### The class -/

/-- `GetDataEntryNumber`; it is 0 if something is thrown. -/
def getDataEntryNumber (query : String → Reply) (measurement : String) : I32 :=
  let count : Except Exception I32 := do
    let values ← extractValuesJsonArray (query (buildGetDataEntryNumberQuery measurement)).resp
    let row ← values.item 0
    let number ← row.item 1
    number.getInt
  match count with
  | .ok count => count
  | .error _ => .ofInt 0

/-- `GetDataEntries`. -/
def getDataEntries (dumpFloat : ℚ → List Char) (query : String → Reply) (measurement : String)
    (limit offset : ℤ) : Except Exception (List String) := do
  let data := (query (buildGetDataEntriesQuery measurement limit offset)).resp
  let entries ← extractValuesElementFromJsonString dumpFloat data
  return entries.getD []

/-- `GetDataEntriesBySymbol`. -/
def getDataEntriesBySymbol (dumpFloat : ℚ → List Char) (query : String → Reply)
    (measurement : String) (limit offset : ℤ) :
    Except Exception (List (String × List String)) := do
  let data := (query (buildGetDataEntriesQuery measurement limit offset)).resp
  let entries ← extractValuesElementFromJsonStringBySymbol dumpFloat data
  return entries.getD []

/-- `operator[]` with an index of a const value; `none` when an array is read past its end, which
is undefined. -/
def constItem (i : ℕ) : Json → Option (Except Exception Json)
  | .array items => items[i]?.map .ok
  | _ => some (.error .typeError)

/-- One column of `Algorithm::CompareTradeJsonElement`; what is thrown is caught. -/
def compareColumn (source target : Json) (i : ℕ) : Option Bool := do
  let s ← constItem i source
  let t ← constItem i target
  match s >>= Json.getString, t >>= Json.getString with
  | .ok s, .ok t => return s = t
  | _, _ => return false

/-- The columns one after the other, up to the first one that differs. -/
def compareColumns (source target : Json) : List ℕ → Option Bool
  | [] => some true
  | i :: columns => do
    if ← compareColumn source target i then compareColumns source target columns
    else return false

/-- `Algorithm::CompareTradeJsonElement`. -/
def compareTradeJsonElement (source target : Json) : Option Bool :=
  if size source ≠ size target then some false
  else compareColumns source target [1, 3, 4, 6, 8]

/-- `CompareDataEntry`. -/
def compareDataEntry (source target : String) : Except Exception (Option Bool) := do
  let source ← Json.parse source
  let target ← Json.parse target
  return compareTradeJsonElement source target

/-- `FindIfDataEntryExists`. -/
def findIfDataEntryExists (query : String → Reply) (measurement entry : String) :
    Except Exception Bool := do
  let entry ← Json.parse entry
  let sql : Except Exception String := do
    let amount ← readString entry 1
    let buyOrderId ← readString entry 2
    let buyUserId ← readString entry 3
    let price ← readString entry 4
    let sellOrderId ← readString entry 5
    let sellUserId ← readString entry 6
    let symbolId ← readString entry 8
    return buildFindIfEntryExistsQuery measurement amount buyOrderId buyUserId price sellOrderId
      sellUserId symbolId
  match sql with
  | .ok sql => return !isEmptyQueryResult (getQueryResult query sql)
  | .error _ => return false

/-! ### Entries and their texts -/

/-- A value of a row as JSON. -/
def valueJson : JsonValue → Json
  | .null => .null
  | .number n => .number n
  | .string s => .string s

/-- A row as JSON. -/
def entryJson (entry : DataEntry) : Json := .array (entry.map valueJson)

/-- The entry of a row. -/
def entryText (dumpFloat : ℚ → List Char) (entry : DataEntry) : String :=
  (entryJson entry).dump dumpFloat

/-- A number is a 64-bit integer. -/
def Fits : JsonValue → Prop
  | .number n => Json.IsInteger n
  | _ => True

instance : DecidablePred Fits
  | .null => isTrue trivial
  | .number n => inferInstanceAs (Decidable (Json.IsInteger n))
  | .string _ => isTrue trivial

/-- The numbers of a row are 64-bit integers. -/
def HasIntegers (entry : DataEntry) : Prop := ∀ value ∈ entry, Fits value

instance (entry : DataEntry) : Decidable (HasIntegers entry) :=
  inferInstanceAs (Decidable (∀ value ∈ entry, Fits value))

/-- A row that cannot be read throws a type error. -/
def thrown {α : Type} : Except Fault α → Except Exception α :=
  Except.mapError fun _ => .typeError

lemma canonical_entryJson {entry : DataEntry} (h : HasIntegers entry) :
    (entryJson entry).Canonical := by
  refine .array fun j hj => ?_
  obtain ⟨value, hvalue, rfl⟩ := List.mem_map.1 hj
  cases value with
  | null => exact .null
  | number n => exact .number (h _ hvalue)
  | string s => exact .string s

lemma parse_entryText (dumpFloat : ℚ → List Char) {entry : DataEntry} (h : HasIntegers entry) :
    Json.parse (entryText dumpFloat entry) = .ok (entryJson entry) :=
  Json.parse_dump dumpFloat (canonical_entryJson h)

lemma readString_entryJson (entry : DataEntry) (i : ℕ) :
    readString (entryJson entry) i = thrown (getString entry i) := by
  have hitem : (entryJson entry).item i = .ok ((entry[i]?.map valueJson).getD .null) := by
    rw [entryJson, Json.item, List.getElem?_map]
  rw [readString, hitem, getString]
  rcases entry[i]? with _ | value
  · rfl
  · cases value <;> rfl

/-- Within the row it does not matter that the value is const. -/
lemma constItem_entryJson {entry : DataEntry} {i : ℕ} (hi : i < entry.length) :
    ∃ j, constItem i (entryJson entry) = some (.ok j) ∧
      (j.getString) = thrown (getString entry i) := by
  have hitem : constItem i (entryJson entry) = some (.ok (valueJson entry[i])) := by
    rw [entryJson, constItem, List.getElem?_map, List.getElem?_eq_getElem hi]
    rfl
  refine ⟨_, hitem, ?_⟩
  rw [getString, List.getElem?_eq_getElem hi]
  cases entry[i] <;> rfl

lemma compareColumn_entryJson {source target : DataEntry} {i : ℕ} (hsource : i < source.length)
    (htarget : i < target.length) : compareColumn (entryJson source) (entryJson target) i =
      some (DataVerifier.compareColumn source target i) := by
  obtain ⟨s, hs, hsstring⟩ := constItem_entryJson hsource
  obtain ⟨t, ht, htstring⟩ := constItem_entryJson htarget
  rw [compareColumn, hs, ht]
  show (match s.getString, t.getString with
    | .ok s, .ok t => some (decide (s = t))
    | _, _ => some false) = _
  rw [hsstring, htstring, DataVerifier.compareColumn]
  rcases getString source i with _ | s <;> rcases getString target i with _ | t <;> rfl

lemma compareColumns_entryJson {source target : DataEntry} {columns : List ℕ}
    (hsource : ∀ i ∈ columns, i < source.length) (htarget : ∀ i ∈ columns, i < target.length) :
    compareColumns (entryJson source) (entryJson target) columns =
      some (columns.all (DataVerifier.compareColumn source target)) := by
  induction columns with
  | nil => rfl
  | cons i columns ih =>
    rw [compareColumns, compareColumn_entryJson (hsource i List.mem_cons_self)
      (htarget i List.mem_cons_self), List.all_cons]
    cases DataVerifier.compareColumn source target i with
    | true =>
      exact ih (fun i hi => hsource i (List.mem_cons_of_mem _ hi))
        (fun i hi => htarget i (List.mem_cons_of_mem _ hi))
    | false => rfl

/-- Rows of the same length have the columns that are compared. -/
def Comparable (source target : DataEntry) : Prop :=
  source.length = target.length → 9 ≤ source.length

lemma compareDataEntry_entryText (dumpFloat : ℚ → List Char) {source target : DataEntry}
    (hsource : HasIntegers source) (htarget : HasIntegers target)
    (hcolumns : Comparable source target) :
    compareDataEntry (entryText dumpFloat source) (entryText dumpFloat target) =
      .ok (some (DataVerifier.compareTradeJsonElement source target)) := by
  have hsize : ∀ entry, size (entryJson entry) = entry.length := fun entry => List.length_map _
  rw [compareDataEntry, parse_entryText dumpFloat hsource, parse_entryText dumpFloat htarget]
  show Except.ok (compareTradeJsonElement _ _) = _
  rw [compareTradeJsonElement, DataVerifier.compareTradeJsonElement, hsize, hsize]
  by_cases hlength : source.length = target.length
  · have hnine := hcolumns hlength
    have hlow : ∀ i ∈ [1, 3, 4, 6, 8], i < 9 := by decide
    rw [if_neg (not_not.2 hlength), if_neg (not_not.2 hlength), compareColumns_entryJson]
    · exact fun i hi => (hlow i hi).trans_le hnine
    · exact fun i hi => (hlow i hi).trans_le (hlength ▸ hnine)
  · rw [if_pos hlength, if_pos hlength]

lemma findIfDataEntryExists_entryText (dumpFloat : ℚ → List Char) (query : String → Reply)
    (measurement : String) {entry : DataEntry} (h : HasIntegers entry) :
    findIfDataEntryExists query measurement (entryText dumpFloat entry) =
      .ok (DataVerifier.findIfDataEntryExists measurement (getQueryResult query) entry) := by
  rw [findIfDataEntryExists, parse_entryText dumpFloat h, DataVerifier.findIfDataEntryExists]
  simp only [bind, Except.bind, readString_entryJson]
  -- the first value that is not a string ends both
  rcases getString entry 1 with _ | amount
  · rfl
  rcases getString entry 2 with _ | buyOrderId
  · rfl
  rcases getString entry 3 with _ | buyUserId
  · rfl
  rcases getString entry 4 with _ | price
  · rfl
  rcases getString entry 5 with _ | sellOrderId
  · rfl
  rcases getString entry 6 with _ | sellUserId
  · rfl
  rcases getString entry 8 with _ | symbolId
  · rfl
  · rfl

/-! ### Answers with rows -/

/-- The rows in an answer; without rows there is no series. -/
def valuesOf (rows : List DataEntry) : Json :=
  if rows = [] then .null else .array (rows.map entryJson)

/-- A text of JSON with these values. -/
def HasValues (data : String) (values : Json) : Prop :=
  ∃ j : Json, Json.Means data j ∧ valuesArray j = .ok values

lemma HasValues.extractValuesJsonArray_eq {data : String} {values : Json}
    (h : HasValues data values) : extractValuesJsonArray data = .ok values := by
  obtain ⟨j, hmeans, hvalues⟩ := h
  rw [extractValuesJsonArray, hmeans.parse_eq]
  exact hvalues

lemma map_range_getD (items : List Json) :
    (List.range items.length).map (fun i => items[i]?.getD .null) = items := by
  apply List.ext_getElem
  · rw [List.length_map, List.length_range]
  · intro i hi hi'
    rw [List.getElem_map, List.getElem_range, List.getElem?_eq_getElem hi', Option.getD_some]

/-- The loop over the indices of an array is one over its elements. -/
lemma forElements_array {β : Type} (items : List Json) (f : β → Json → Except Exception β) (b : β) :
    forElements (.array items) f b = items.foldlM f b := by
  conv_rhs => rw [← map_range_getD items]
  rw [List.foldlM_map]
  rfl

/-- The elements are taken from the answer. -/
lemma HasValues.extractElements_eq {data : String} {rows : List DataEntry} {β : Type}
    (h : HasValues data (valuesOf rows)) (f : β → Json → Except Exception β) (b : β) :
    (do
      let entries ← extractElements f b data
      return entries.getD b) = (rows.map entryJson).foldlM f b := by
  obtain ⟨j, hmeans, -⟩ := id h
  rw [extractElements, hmeans.parse_eq, h.extractValuesJsonArray_eq, valuesOf]
  rcases rows with _ | ⟨row, rows⟩
  · rfl
  · rw [if_neg (List.cons_ne_nil _ _)]
    show (forElements _ f b >>= fun dataEntries => _) >>= _ = _
    rw [forElements_array, bind_assoc]
    exact bind_pure _

section Texts

variable (dumpFloat : ℚ → List Char)

lemma foldlM_dump (rows : List DataEntry) (dataEntries : List String) :
    (rows.map entryJson).foldlM
      (fun dataEntries element =>
        (.ok (dataEntries ++ [element.dump dumpFloat]) : Except Exception _))
      dataEntries = .ok (dataEntries ++ rows.map (entryText dumpFloat)) := by
  induction rows generalizing dataEntries with
  | nil =>
    rw [List.map_nil, List.map_nil, List.append_nil]
    rfl
  | cons row rows ih =>
    rw [List.map_cons, List.map_cons, List.append_cons]
    exact ih _

/-- The entries of a table as texts. -/
def texts (dataEntries : List (String × List DataEntry)) : List (String × List String) :=
  dataEntries.map fun t => (t.1, t.2.map (entryText dumpFloat))

lemma texts_pushBack (symbolId : String) (entry : DataEntry)
    (dataEntries : List (String × List DataEntry)) :
    texts dumpFloat (DataVerifier.pushBack symbolId entry dataEntries) =
      pushBack symbolId (entryText dumpFloat entry) (texts dumpFloat dataEntries) := by
  induction dataEntries with
  | nil => rfl
  | cons t dataEntries ih =>
    obtain ⟨s, entries⟩ := t
    rw [DataVerifier.pushBack]
    show _ = if s = symbolId then _ else _
    split_ifs with hs
    · show (s, (entries ++ [entry]).map (entryText dumpFloat)) :: texts dumpFloat dataEntries = _
      rw [List.map_append]
      rfl
    · show (s, entries.map (entryText dumpFloat)) :: texts dumpFloat _ = _
      rw [ih]
      rfl

lemma foldlM_pushBack (rows : List DataEntry) (dataEntries : List (String × List DataEntry)) :
    (rows.map entryJson).foldlM (fun dataEntries element => do
        let symbolId ← readString element 8
        return pushBack symbolId (element.dump dumpFloat) dataEntries)
        (texts dumpFloat dataEntries) =
      thrown (texts dumpFloat <$> extractBySymbol dataEntries rows) := by
  induction rows generalizing dataEntries with
  | nil => rfl
  | cons row rows ih =>
    rw [List.map_cons, List.foldlM_cons, readString_entryJson, extractBySymbol]
    rcases getString row 8 with _ | symbolId
    · rfl
    · show List.foldlM _ (pushBack symbolId (entryText dumpFloat row)
        (texts dumpFloat dataEntries)) _ = _
      rw [← texts_pushBack, ih]
      rfl

end Texts

/-! ### The refinement -/

/-- The server answers the queries for these rows; what else is in the answers, as the columns,
does not matter. -/
structure Serves (query : String → Reply) (measurement : String) (rows : List DataEntry) :
    Prop where
  number : ∃ time, HasValues (query (buildGetDataEntryNumberQuery measurement)).resp
    (if rows = [] then .null else .array [.array [time, .number rows.length]])
  entries : ∀ limit offset : ℤ, 0 < limit → 0 ≤ offset →
    HasValues (query (buildGetDataEntriesQuery measurement limit offset)).resp
      (valuesOf ((rows.drop offset.toNat).take limit.toNat))

/-- The class on texts does what the source does on rows, of which the numbers are integers and,
to be compared, the columns are there; a limit of zero is none for the database. -/
structure Refines (dumpFloat : ℚ → List Char) (query : String → Reply) (measurement : String)
    (source : DataSource) : Prop where
  getDataEntryNumber : (getDataEntryNumber query measurement : ℤ) = source.getDataEntryNumber
  getDataEntries : ∀ limit offset : ℤ, 0 < limit → 0 ≤ offset →
    getDataEntries dumpFloat query measurement limit offset =
      .ok ((source.getDataEntries limit offset).map (entryText dumpFloat))
  getDataEntriesBySymbol : ∀ limit offset : ℤ, 0 < limit → 0 ≤ offset →
    getDataEntriesBySymbol dumpFloat query measurement limit offset =
      thrown (texts dumpFloat <$> source.getDataEntriesBySymbol limit offset)
  compareDataEntry : ∀ a b, HasIntegers a → HasIntegers b → Comparable a b →
    compareDataEntry (entryText dumpFloat a) (entryText dumpFloat b) =
      .ok (some (source.compareDataEntry a b))
  findIfDataEntryExists : ∀ entry, HasIntegers entry →
    findIfDataEntryExists query measurement (entryText dumpFloat entry) =
      .ok (source.findIfDataEntryExists entry)

section Refinement

variable (dumpFloat : ℚ → List Char) {query : String → Reply} {measurement : String}
  {rows : List DataEntry}

lemma Serves.getDataEntryNumber_eq (h : Serves query measurement rows)
    (hlen : rows.length < 2 ^ 31) :
    (getDataEntryNumber query measurement : ℤ) = rows.length := by
  obtain ⟨time, hnumber⟩ := h.number
  rw [getDataEntryNumber, hnumber.extractValuesJsonArray_eq]
  rcases eq_or_ne rows [] with rfl | hne
  · rfl
  · rw [if_neg hne]
    obtain ⟨count, hcount⟩ : ∃ count : I32, (count : ℤ) = rows.length := by
      refine ⟨⟨rows.length, ?_⟩, rfl⟩
      rw [IsInt32]
      omega
    -- the number fits into an `int`
    rw [← hcount]
    show ((match (Json.number count).getInt with
      | .ok count => count
      | .error _ => .ofInt 0 : I32) : ℤ) = _
    rw [Json.getInt_number]

lemma Serves.getDataEntries_eq (h : Serves query measurement rows) {limit offset : ℤ}
    (hlimit : 0 < limit) (hoffset : 0 ≤ offset) :
    getDataEntries dumpFloat query measurement limit offset =
      .ok (((rows.drop offset.toNat).take limit.toNat).map (entryText dumpFloat)) := by
  have hfold := (h.entries limit offset hlimit hoffset).extractElements_eq
    (fun dataEntries element => .ok (dataEntries ++ [element.dump dumpFloat])) []
  rw [foldlM_dump, List.nil_append] at hfold
  exact hfold

lemma Serves.getDataEntriesBySymbol_eq (h : Serves query measurement rows) {limit offset : ℤ}
    (hlimit : 0 < limit) (hoffset : 0 ≤ offset) :
    getDataEntriesBySymbol dumpFloat query measurement limit offset =
      thrown (texts dumpFloat <$>
        extractBySymbol [] ((rows.drop offset.toNat).take limit.toNat)) := by
  have hfold := (h.entries limit offset hlimit hoffset).extractElements_eq
    (fun dataEntries element => do
      let symbolId ← readString element 8
      return pushBack symbolId (element.dump dumpFloat) dataEntries) []
  rw [← foldlM_pushBack]
  exact hfold

/-- **The class refines the source over parsed rows**, for every server that has them. -/
theorem refines_dataSourceInfluxDB (h : Serves query measurement rows)
    (hlen : rows.length < 2 ^ 31) : Refines dumpFloat query measurement
      (dataSourceInfluxDB measurement rows (getQueryResult query)) where
  getDataEntryNumber := h.getDataEntryNumber_eq hlen
  getDataEntries _ _ hlimit hoffset := h.getDataEntries_eq dumpFloat hlimit hoffset
  getDataEntriesBySymbol _ _ hlimit hoffset :=
    h.getDataEntriesBySymbol_eq dumpFloat hlimit hoffset
  compareDataEntry _ _ := compareDataEntry_entryText dumpFloat
  findIfDataEntryExists _ := findIfDataEntryExists_entryText dumpFloat query measurement

end Refinement

/-- The last word of a query. -/
def lastWord (sql : String) : List Char := (sql.toList.reverse.takeWhile (· ≠ ' ')).reverse

lemma lastWord_append {before word : String} (hword : ' ' ∉ word.toList) :
    lastWord (before ++ " " ++ word) = word.toList := by
  have hplain : ∀ c ∈ word.toList.reverse, decide (c ≠ ' ') = true := by
    intro c hc
    refine decide_eq_true fun hspace => hword ?_
    rwa [hspace, List.mem_reverse] at hc
  have hreverse : (before ++ " " ++ word).toList.reverse =
      word.toList.reverse ++ ' ' :: before.toList.reverse := by
    rw [String.toList_append, List.reverse_append, String.toList_append, List.reverse_append]
    rfl
  rw [lastWord, hreverse, List.takeWhile_append_of_pos hplain,
    List.takeWhile_cons_of_neg (p := fun c => decide (c ≠ ' ')) (by decide), List.append_nil,
    List.reverse_reverse]

/-- The query for entries ends with the offset. -/
lemma lastWord_buildGetDataEntriesQuery (measurement : String) (limit offset : ℤ) :
    lastWord (buildGetDataEntriesQuery measurement limit offset) = (toString offset).toList := by
  have hoffset : " offset " = " offset" ++ " " := by decide +kernel
  have hquery := congrArg (fun s => "select * from \"" ++ measurement ++ "\" limit " ++
    toString limit ++ s ++ toString offset) hoffset
  rw [← String.append_assoc] at hquery
  refine (congrArg lastWord hquery).trans ?_
  exact lastWord_append (Decimal.notMem_toString rfl (by decide) offset)

/-- The answers of a server that has the row of one trade. -/
def oneRowAnswer (sql : String) : Json :=
  if lastWord sql = ['0'] then
    .answer "trade_a" ["time", "amount", "buy_order_id", "buy_user_id", "price", "sell_order_id",
      "sell_user_id", "submit_time", "symbol_id", "trade_id"] [entryJson (tradeRow "90")]
  else if sql = buildGetDataEntryNumberQuery "trade_a" then
    .answer "trade_a" ["time", "count"] [.array [.number 0, .number 1]]
  else .noAnswer

/-- There are no doubles in the answers. -/
def serveOneRow (sql : String) : Reply :=
  ⟨0, (oneRowAnswer sql).dump (fun _ => []) ++ String.ofList ['\n']⟩

lemma hasValues_serveOneRow {sql : String} {j values : Json} (hanswer : oneRowAnswer sql = j)
    (hj : j.Canonical) (hvalues : valuesArray j = .ok values) :
    HasValues (serveOneRow sql).resp values := by
  have hnewline : JsonText.White ['\n'] := by
    intro c hc
    rw [List.mem_singleton.1 hc]
    rfl
  refine ⟨j, ?_, hvalues⟩
  rw [serveOneRow, hanswer]
  exact Json.means_dump _ hj hnewline

lemma serves_serveOneRow : Serves serveOneRow "trade_a" [tradeRow "90"] := by
  refine ⟨⟨.number 0, ?_⟩, fun limit offset hlimit hoffset => ?_⟩
  · have hword : lastWord (buildGetDataEntryNumberQuery "trade_a") ≠ ['0'] := by decide +kernel
    have hanswer := (if_neg hword : oneRowAnswer (buildGetDataEntryNumberQuery "trade_a") = _)
    rw [if_pos rfl] at hanswer
    refine hasValues_serveOneRow hanswer (Json.canonical_answer _ _
      (List.forall_mem_singleton.2 (.array ?_))) rfl
    exact List.forall_mem_cons.2
      ⟨Json.canonical_zero, List.forall_mem_singleton.2 (.number (by decide))⟩
  · have hword := lastWord_buildGetDataEntriesQuery "trade_a" limit offset
    rcases eq_or_ne offset 0 with rfl | hne
    · -- the only row is in the first window
      have htake : List.take limit.toNat [tradeRow "90"] = [tradeRow "90"] :=
        List.take_of_length_le (by show 1 ≤ _; omega)
      show HasValues _ (valuesOf (List.take limit.toNat [tradeRow "90"]))
      rw [htake]
      exact hasValues_serveOneRow (if_pos hword) (Json.canonical_answer _ _
        (List.forall_mem_singleton.2 (canonical_entryJson (by decide)))) rfl
    · -- and in no other one
      have hdrop : List.drop offset.toNat [tradeRow "90"] = [] :=
        List.drop_eq_nil_of_le (by show 1 ≤ _; omega)
      have hzero : lastWord (buildGetDataEntriesQuery "trade_a" limit offset) ≠ ['0'] := by
        intro heq
        rw [hword] at heq
        exact hne (Decimal.toString_injective (String.toList_inj.1 heq))
      have hnumber : buildGetDataEntriesQuery "trade_a" limit offset ≠
          buildGetDataEntryNumberQuery "trade_a" := by
        intro heq
        have hquote : '"' ∈ lastWord (buildGetDataEntryNumberQuery "trade_a") := by
          decide +kernel
        rw [← heq, hword] at hquote
        exact Decimal.notMem_toString rfl (by decide) offset hquote
      rw [hdrop, List.take_nil]
      exact hasValues_serveOneRow ((if_neg hzero).trans (if_neg hnumber))
        Json.canonical_noAnswer rfl

theorem refines_dataSourceInfluxDB_oneRow : Refines (fun _ => []) serveOneRow "trade_a"
    (dataSourceInfluxDB "trade_a" [tradeRow "90"] (getQueryResult serveOneRow)) :=
  refines_dataSourceInfluxDB (fun _ => []) serves_serveOneRow (by decide)

end TradingEngine.DataVerifier.DataSourceInfluxDB
