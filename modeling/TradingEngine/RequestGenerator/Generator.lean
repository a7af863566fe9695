/-
How the load generator gets its orders (`Influxdb_reader.cc`, `generator.cc`).

`json::parse` is the argument `parse`.
-/
import TradingEngine.Common.DatabaseInterface
import TradingEngine.Common.Text

namespace TradingEngine.RequestGenerator

open DatabaseInterface
open OrderManagerProto (Order TradingSide)

/-- The query of `GetOrders`. -/
def getOrdersQuery : String := "select  * from orders order by time"

/-- `InfluxdbReader::GetOrders`, with the answers of the server to queries. -/
def getOrders (query : String → Reply) : String :=
  let reply := query getOrdersQuery
  if reply.ret = 0 then reply.resp else ""

/-- `std::stoi(item[i].get_ref<std::string&>())`. -/
def readNumber (item : Json) (i : ℕ) : Except Exception I32 := do
  let value ← item.item i
  let text ← value.getString
  stoi text

/-- The order of a row: amount, price, symbol, trading side and user. -/
def readOrder (item : Json) : Except Exception Order := do
  let amount ← readNumber item 1
  let price ← readNumber item 2
  let symbol ← readNumber item 3
  let tradingSide ← readNumber item 4
  let userId ← readNumber item 5
  return {
    symbol := symbol
    userId := userId
    tradingSide := TradingSide.ofNumber tradingSide
    amount := amount
    price := price }

/-- The loop of `PrepareOrders` over the rows that are left, after `count` rounds. -/
def pushOrders (numOfOrders : ℤ) (count : ℕ) (orders : List Order) :
    List Json → Except Exception (List Order)
  | [] => .ok orders
  | item :: items => do
    let order ← readOrder item
    if (count + 1 : ℕ) = numOfOrders then return orders ++ [order]
    else pushOrders numOfOrders (count + 1) (orders ++ [order]) items

/-- `Generator::PrepareOrders`: the result and the queue; what it logs is left out. -/
def prepareOrders (parse : String → Except Exception Json) (numOfOrders : ℤ) (resp : String)
    (orders : List Order) : Except Exception (Bool × List Order) := do
  if resp = "" then return (false, orders)
  let j ← parse resp
  let items ← j.rows
  let orders ← pushOrders numOfOrders 0 orders items
  return (true, orders)

/-! ### Rows that can be read -/

lemma readNumber_eq {cells : List Json} {i : ℕ} {text : String} {x : I32}
    (hcell : cells[i]? = some (.string text)) (hx : stoi text = .ok x) :
    readNumber (.array cells) i = .ok x := by
  have hitem : (Json.array cells).item i = .ok (.string text) := by
    rw [Json.item, hcell]
    rfl
  rw [readNumber, hitem]
  exact hx

/-- The queue after a number of rows, of which those up to `numOfOrders` are read. -/
lemma pushOrders_eq {numOfOrders : ℤ} {items : List Json} {read : List Order}
    (hread : List.Forall₂ (fun item order => readOrder item = .ok order) items read)
    (count : ℕ) (orders : List Order) : pushOrders numOfOrders count orders items =
      .ok (orders ++ if count < numOfOrders then read.take (numOfOrders - count).toNat
        else read) := by
  induction hread generalizing count orders with
  | nil => simp [pushOrders]
  | @cons item order items read hitem _ ih =>
    rw [pushOrders, hitem]
    change (if ((count + 1 : ℕ) : ℤ) = numOfOrders then .ok (orders ++ [order])
      else pushOrders numOfOrders (count + 1) (orders ++ [order]) items) = _
    by_cases hlast : ((count + 1 : ℕ) : ℤ) = numOfOrders
    · -- the row is the last one that is wanted
      have hone : (numOfOrders - count).toNat = 1 := by omega
      rw [if_pos hlast, if_pos (by omega), hone]
      rfl
    · rw [if_neg hlast, ih]
      by_cases hmore : (count : ℤ) < numOfOrders
      · have htake : (numOfOrders - count).toNat =
            (numOfOrders - (count + 1 : ℕ)).toNat + 1 := by omega
        rw [if_pos (by omega), if_pos hmore, htake, List.take_succ_cons, List.append_assoc]
        rfl
      · rw [if_neg (by omega), if_neg hmore, List.append_assoc]
        rfl

/-! ### The number of orders that is asked for -/

/-- The answer of the database has these rows, each of a well-formed order. -/
structure HasOrders (parse : String → Except Exception Json) (resp : String)
    (read : List Order) : Prop where
  nonempty : resp ≠ ""
  rows : ∃ j items, parse resp = .ok j ∧ j.rows = .ok items ∧
    List.Forall₂ (fun item order => readOrder item = .ok order) items read

lemma prepareOrders_of_hasOrders {parse : String → Except Exception Json} {resp : String}
    {read : List Order} (h : HasOrders parse resp read) (numOfOrders : ℤ) (orders : List Order) :
    prepareOrders parse numOfOrders resp orders =
      .ok (true, orders ++ if 0 < numOfOrders then read.take numOfOrders.toNat else read) := by
  obtain ⟨j, items, hj, hitems, hread⟩ := h.rows
  have hpush : pushOrders numOfOrders 0 orders items =
      .ok (orders ++ if 0 < numOfOrders then read.take numOfOrders.toNat else read) := by
    simpa using pushOrders_eq hread 0 orders
  rw [prepareOrders, if_neg h.nonempty, hj]
  change (j.rows >>= fun items => pushOrders numOfOrders 0 orders items >>= fun orders =>
    pure (true, orders)) = _
  rw [hitems]
  change (pushOrders numOfOrders 0 orders items >>= fun orders => pure (true, orders)) = _
  rw [hpush]
  rfl

/-- The orders that `numOfOrders` asks for: all of them when it is `-1`. -/
def askedFor (numOfOrders : ℤ) (read : List Order) : List Order :=
  if numOfOrders = -1 then read else read.take numOfOrders.toNat

/-- **The orders asked for are those that are put into the queue**, if and only if not none of
them are asked for while there are some. -/
theorem prepareOrders_eq_askedFor_iff (parse : String → Except Exception Json) (resp : String)
    (read : List Order) (numOfOrders : ℤ) (orders : List Order) (h : HasOrders parse resp read)
    (hnum : -1 ≤ numOfOrders) :
    prepareOrders parse numOfOrders resp orders =
        .ok (true, orders ++ askedFor numOfOrders read) ↔
      (numOfOrders = 0 → read = []) := by
  rw [prepareOrders_of_hasOrders h, askedFor, Except.ok.injEq, Prod.mk.injEq,
    List.append_cancel_left_eq]
  constructor
  · rintro ⟨-, heq⟩ rfl
    rw [if_neg (lt_irrefl 0), if_neg (by decide)] at heq
    exact heq
  · intro hzero
    refine ⟨rfl, ?_⟩
    rcases lt_trichotomy numOfOrders 0 with hneg | rfl | hpos
    · rw [if_neg (by omega), if_pos (by omega)]
    · rw [hzero rfl]
      rfl
    · rw [if_pos hpos, if_neg (by omega)]

/-- An answer with one row, its JSON value and the order of the row. -/
def orderText : String :=
  "\x7b\"results\":[\x7b\"statement_id\":0,\"series\":[\x7b\"name\":\"orders\",\"columns\":" ++
    "[\"time\",\"amount\",\"price\",\"symbol\",\"trading_side\",\"user_id\"],\"values\":" ++
    "[[0,\"10\",\"-5\",\"3\",\"1\",\"7\"]]\x7d]\x7d]\x7d\n"

/-- The JSON value of `orderText`. -/
def orderJson : Json :=
  .object [("results", .array [.object [("statement_id", .number 0), ("series", .array [.object
    [("name", .string "orders"),
      ("columns", .array [.string "time", .string "amount", .string "price", .string "symbol",
        .string "trading_side", .string "user_id"]),
      ("values", .array [.array [.number 0, .string "10", .string "-5", .string "3",
        .string "1", .string "7"]])]])]])]

/-- The order of its row. -/
def orderRead : Order where
  symbol := .ofInt 3
  userId := .ofInt 7
  tradingSide := .tradingBuy
  amount := .ofInt 10
  price := .ofInt (-5)

/-- A parser that knows `orderText`. -/
def parseOrder (text : String) : Except Exception Json :=
  if text = orderText then .ok orderJson else .error .parseError

lemma hasOrders_orderText : HasOrders parseOrder orderText [orderRead] where
  nonempty := by
    unfold orderText
    decide +kernel
  rows := ⟨orderJson, _, if_pos rfl, rfl, .cons rfl .nil⟩

theorem prepareOrders_eq_askedFor_iff_orderText :
    prepareOrders parseOrder 1 orderText [] = .ok (true, [] ++ askedFor 1 [orderRead]) ↔
      ((1 : ℤ) = 0 → [orderRead] = []) :=
  prepareOrders_eq_askedFor_iff _ _ _ _ _ hasOrders_orderText (by decide)

/-- No orders are asked for, and the row that the database has is put into the queue. -/
theorem not_prepareOrders_eq_askedFor :
    ¬ ∀ (parse : String → Except Exception Json) (resp : String) (read : List Order)
      (numOfOrders : ℤ) (orders : List Order), HasOrders parse resp read → -1 ≤ numOfOrders →
      prepareOrders parse numOfOrders resp orders =
        .ok (true, orders ++ askedFor numOfOrders read) := by
  intro hall
  have h := hall _ _ _ 0 [] hasOrders_orderText (by decide)
  rw [prepareOrders_of_hasOrders hasOrders_orderText] at h
  cases h

end TradingEngine.RequestGenerator
