/-
The data sources that the verifier compares (`data_source.h`, `data_source_influxdb.cc`).

A data entry is the text of a JSON array; it is kept parsed here, as `parse` undoes `dump`.
What a function throws, or does outside of the language, is a `Fault`.
-/
import Mathlib.Tactic

namespace TradingEngine.DataVerifier

/-- The values in a row of the database. -/
inductive JsonValue
  | null
  | number (n : ℤ)
  | string (s : String)
  deriving DecidableEq

/-- A row of the database. -/
abbrev DataEntry := List JsonValue

/-- How a comparison can fail to give a verdict. -/
inductive Fault
  /-- `get<std::string>` of a value that is not a string. -/
  | typeError
  /-- A vector is read past its end. -/
  | outOfRange
  /-- A loop does not end. -/
  | endless
  deriving DecidableEq

/-- `entry[i].get<std::string>()`; there is a null past the end of an array. -/
def getString (entry : DataEntry) (i : ℕ) : Except Fault String :=
  match entry[i]? with
  | some (.string s) => .ok s
  | _ => .error .typeError

/-- The class `DataSource`; the two functions that only serve the log are left out. -/
structure DataSource where
  getDataEntryNumber : ℤ
  getDataEntries : (limit offset : ℤ) → List DataEntry
  /-- The table in the order in which it is read. -/
  getDataEntriesBySymbol : (limit offset : ℤ) → Except Fault (List (String × List DataEntry))
  compareDataEntry : (source target : DataEntry) → Bool
  findIfDataEntryExists : DataEntry → Bool

/-! ### The source in a database -/

/-- One column of `CompareTradeJsonElement`; what is thrown is caught, and the answer `false`.  The
rows have nine columns at least: in shorter ones the source reads past the end. -/
def compareColumn (source target : DataEntry) (i : ℕ) : Bool :=
  match getString source i, getString target i with
  | .ok s, .ok t => s = t
  | _, _ => false

/-- `CompareTradeJsonElement`: amount, buy_user_id, price, sell_user_id and symbol_id. -/
def compareTradeJsonElement (source target : DataEntry) : Bool :=
  if source.length ≠ target.length then false
  else [1, 3, 4, 6, 8].all (compareColumn source target)

/-- `data_entries[symbol_id].push_back(entry)`. -/
def pushBack (symbolId : String) (entry : DataEntry) :
    List (String × List DataEntry) → List (String × List DataEntry)
  | [] => [(symbolId, [entry])]
  | (s, entries) :: rest =>
    if s = symbolId then (s, entries ++ [entry]) :: rest
    else (s, entries) :: pushBack symbolId entry rest

/-- The loop of `ExtractValuesElementFromJsonStringBySymbol` over the rows of the answer. -/
def extractBySymbol (dataEntries : List (String × List DataEntry)) :
    List DataEntry → Except Fault (List (String × List DataEntry))
  | [] => .ok dataEntries
  | entry :: rest => do
    let symbolId ← getString entry 8
    extractBySymbol (pushBack symbolId entry dataEntries) rest

/-- `BuildFindIfEntryExistsQuery`. -/
def buildFindIfEntryExistsQuery (measurement amount buyOrderId buyUserId price sellOrderId
    sellUserId symbolId : String) : String :=
  "select \"symbol_id\" from \"" ++ measurement ++ "\" where \"amount\" = '" ++ amount ++
    "'\nand \"buy_order_id\" = '" ++ buyOrderId ++ "'\nand \"buy_user_id\" = '" ++ buyUserId ++
    "'\nand \"price\" = '" ++ price ++ "'\nand \"sell_order_id\" = '" ++ sellOrderId ++
    "'\nand \"sell_user_id\" = '" ++ sellUserId ++ "'\nand \"symbol_id\" = '" ++ symbolId ++ "'"

/-- `IsEmptyQueryResult`. -/
def isEmptyQueryResult (result : String) : Bool :=
  result = "\x7b\"results\":[\x7b\"statement_id\":0\x7d]\x7d\n"

/-- `FindIfDataEntryExists`, with the answers of the database to queries. -/
def findIfDataEntryExists (measurement : String) (getQueryResult : String → String)
    (entry : DataEntry) : Bool :=
  let sql : Except Fault String := do
    let amount ← getString entry 1
    let buyOrderId ← getString entry 2
    let buyUserId ← getString entry 3
    let price ← getString entry 4
    let sellOrderId ← getString entry 5
    let sellUserId ← getString entry 6
    let symbolId ← getString entry 8
    return buildFindIfEntryExistsQuery measurement amount buyOrderId buyUserId price sellOrderId
      sellUserId symbolId
  match sql with
  | .ok sql => !isEmptyQueryResult (getQueryResult sql)
  | .error _ => false

/-- A `DataSourceInfluxDB` over a measurement with these rows, of which every one has a
`trade_id` to be counted. -/
def dataSourceInfluxDB (measurement : String) (rows : List DataEntry)
    (getQueryResult : String → String) : DataSource where
  getDataEntryNumber := rows.length
  getDataEntries limit offset := (rows.drop offset.toNat).take limit.toNat
  getDataEntriesBySymbol limit offset :=
    extractBySymbol [] ((rows.drop offset.toNat).take limit.toNat)
  compareDataEntry := compareTradeJsonElement
  findIfDataEntryExists := findIfDataEntryExists measurement getQueryResult

/-- A row of the database, a trade of one share by user 7 to user 8 at this price. -/
def tradeRow (price : String) (symbolId : String := "0") : DataEntry :=
  [.number 1594020376000, .string "1", .string "3", .string "8", .string price,
    .string "2", .string "7", .string "5", .string symbolId, .string "3e1f"]

end TradingEngine.DataVerifier
