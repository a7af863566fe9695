/-
What the server answers to `select * from m order by time` about entities without tags.

There is a row for every timestamp, in the order of time; its columns are the time and then
the fields in alphabetical order.  A field that is written again is overwritten.
-/
import TradingEngine.Common.DatabaseInterface
import TradingEngine.Common.Text

namespace TradingEngine.DatabaseInterface

/-- A row of a measurement. -/
structure Row where
  time : ℤ
  /-- The fields, the latest first. -/
  fields : List DataPair

/-- A column is put into its place among the columns. -/
def insertColumn (column : String) : List String → List String
  | [] => [column]
  | c :: cs =>
    if column < c then column :: c :: cs
    else if column = c then c :: cs
    else c :: insertColumn column cs

/-- The columns of the table when an entity has come in. -/
def insertColumns (columns : List String) (e : Entity) : List String :=
  e.field.foldl (fun columns f => insertColumn f.key columns) columns

/-- The names of the fields of all entities. -/
def columnsOf (es : List Entity) : List String := es.foldl insertColumns []

/-- An entity is put into the row of its timestamp. -/
def insertRow (e : Entity) : List Row → List Row
  | [] => [⟨e.timestamp, e.field.reverse⟩]
  | r :: rs =>
    if e.timestamp < r.time then ⟨e.timestamp, e.field.reverse⟩ :: r :: rs
    else if e.timestamp = r.time then ⟨r.time, e.field.reverse ++ r.fields⟩ :: rs
    else r :: insertRow e rs

/-- The rows in the order of time. -/
def rowsByTime (es : List Entity) : List Row := es.foldl (fun rs e => insertRow e rs) []

/-- The value in a column. -/
def Row.cell (r : Row) (column : String) : Json :=
  match r.fields.find? fun f => f.key = column with
  | some f => .string f.value
  | none => .null

/-- A row of the answer: the time and the values of the columns. -/
def Row.json (columns : List String) (r : Row) : Json :=
  .array (.number r.time :: columns.map r.cell)

/-- The answer; a measurement without rows has no series. -/
def selectAll (measurement : String) (es : List Entity) : Json :=
  let series : List (String × Json) :=
    [("name", .string measurement),
      ("columns", .array (.string "time" :: (columnsOf es).map .string)),
      ("values", .array ((rowsByTime es).map (Row.json (columnsOf es))))]
  let result : List (String × Json) :=
    if es = [] then [("statement_id", .number 0)]
    else [("statement_id", .number 0), ("series", .array [.object series])]
  .object [("results", .array [.object result])]

/-- Without entities there is no series, and that reads as no rows. -/
lemma rows_selectAll (measurement : String) (es : List Entity) :
    (selectAll measurement es).rows = .ok ((rowsByTime es).map (Row.json (columnsOf es))) := by
  rcases eq_or_ne es [] with rfl | hne
  · rfl
  · rw [selectAll, if_neg hne]
    rfl

/-- An entity with the latest timestamp makes the last row. -/
lemma insertRow_of_forall_lt {e : Entity} {rs : List Row} (h : ∀ r ∈ rs, r.time < e.timestamp) :
    insertRow e rs = rs ++ [⟨e.timestamp, e.field.reverse⟩] := by
  induction rs with
  | nil => rfl
  | cons r rs ih =>
    have hr : r.time < e.timestamp := h r (List.mem_cons_self ..)
    rw [insertRow, if_neg (by omega), if_neg (by omega),
      ih fun r' hr' => h r' (List.mem_cons_of_mem _ hr')]
    rfl

/-- **Entities with increasing timestamps** are the rows, each on its own. -/
theorem rowsByTime_of_pairwise {es : List Entity}
    (h : es.Pairwise fun e e' => e.timestamp < e'.timestamp) :
    rowsByTime es = es.map fun e => ⟨e.timestamp, e.field.reverse⟩ := by
  induction es using List.reverseRecOn with
  | nil => rfl
  | append_singleton es e ih =>
    rw [List.pairwise_append] at h
    obtain ⟨hes, -, hlast⟩ := h
    have hrows := ih hes
    rw [rowsByTime, List.foldl_append, List.foldl_cons, List.foldl_nil]
    rw [rowsByTime] at hrows
    rw [hrows, insertRow_of_forall_lt, List.map_append, List.map_singleton]
    intro r hr
    obtain ⟨e', he', rfl⟩ := List.mem_map.1 hr
    exact hlast e' he' e (List.mem_singleton_self e)

/-- **Entities with the same fields** have the columns of any one of them. -/
theorem columnsOf_eq {es : List Entity} {columns : List String} (hne : es ≠ [])
    (hfirst : ∀ e ∈ es, insertColumns [] e = columns)
    (hnext : ∀ e ∈ es, insertColumns columns e = columns) : columnsOf es = columns := by
  induction es using List.reverseRecOn with
  | nil => exact absurd rfl hne
  | append_singleton es e ih =>
    rw [columnsOf, List.foldl_append, List.foldl_cons, List.foldl_nil]
    rcases eq_or_ne es [] with rfl | hes
    · exact hfirst e (by simp)
    · have hcolumns := ih hes (fun e' he' => hfirst e' (List.mem_append_left _ he'))
        fun e' he' => hnext e' (List.mem_append_left _ he')
      rw [columnsOf] at hcolumns
      rw [hcolumns]
      exact hnext e (by simp)

end TradingEngine.DatabaseInterface
