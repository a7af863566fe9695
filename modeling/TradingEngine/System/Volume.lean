/-
What a load test of the created orders trades.

All orders of a symbol have the price that was drawn for it.  So whatever the threads, the order
managers and the nodes do, the smaller one of the two sides of each symbol is traded at this price.
-/
import TradingEngine.Matching.SinglePrice
import TradingEngine.OrderGenerator.InitialPrices
import TradingEngine.RequestGenerator.RoundTrip
import TradingEngine.System.Verification

namespace TradingEngine.System.Deployment

open Lib MatchEngine Matching
open OrderGenerator (Created)

/-! ### The created orders in the book -/

/-- The quantity of the orders of a symbol that have this side. -/
def wanted (symbol : I32) (tradingSide : ℤ) (orders : List OrderGenerator.Order) : ℤ :=
  (orders.map fun order =>
    if order.symbol = symbol ∧ (order.tradingSide : ℤ) = tradingSide then (order.amount : ℤ)
    else 0).sum

/-- The order of the book for a created order. -/
def bookOrder (side : TradingSite) (order : OrderGenerator.Order) : RawOrder where
  orderId := 0
  symbolId := order.symbol
  userId := order.userId
  tradingSide := side
  amount := order.amount
  price := order.price
  submitTime := 0

/-- The request is one of the symbol. -/
def isSymbol (symbol : I32) (request : OrderManagerProto.Order) : Bool :=
  request.symbol.val = symbol.val

/-- The orders of the book for the created orders of a symbol. -/
def bookOrders (symbol : I32) (orders : List OrderGenerator.Order) : List RawOrder :=
  (ofSymbol symbol (orders.map RequestGenerator.requestOf)).filterMap referenceOrder

section Orders

variable {symbol : I32} {order : OrderGenerator.Order} {orders : List OrderGenerator.Order}

lemma referenceOrder_buy (h : (order.tradingSide : ℤ) = 1) :
    referenceOrder (RequestGenerator.requestOf order) = some (bookOrder .buy order) := by
  rw [referenceOrder, RequestGenerator.requestOf, h]
  rfl

lemma referenceOrder_sell (h : (order.tradingSide : ℤ) = 2) :
    referenceOrder (RequestGenerator.requestOf order) = some (bookOrder .sell order) := by
  rw [referenceOrder, RequestGenerator.requestOf, h]
  rfl

lemma exists_of_mem_bookOrders
    (hsides : ∀ order ∈ orders, (order.tradingSide : ℤ) = 1 ∨ (order.tradingSide : ℤ) = 2)
    {r : RawOrder} (hr : r ∈ bookOrders symbol orders) :
    ∃ order ∈ orders, order.symbol = symbol ∧ ∃ side, r = bookOrder side order := by
  obtain ⟨request, hrequest, href⟩ := List.mem_filterMap.1 hr
  obtain ⟨hmem, hsymbol⟩ := List.mem_filter.1 hrequest
  obtain ⟨order, horder, rfl⟩ := List.mem_map.1 hmem
  refine ⟨order, horder, Subtype.ext (of_decide_eq_true hsymbol), ?_⟩
  rcases hsides order horder with hbuy | hsell
  · rw [referenceOrder_buy hbuy] at href
    exact ⟨.buy, (Option.some.inj href).symm⟩
  · rw [referenceOrder_sell hsell] at href
    exact ⟨.sell, (Option.some.inj href).symm⟩

lemma bookOrders_cons_of_ne (h : order.symbol ≠ symbol) :
    bookOrders symbol (order :: orders) = bookOrders symbol orders := by
  have hne : ¬ isSymbol symbol (RequestGenerator.requestOf order) = true := by
    intro heq
    exact h (Subtype.ext (of_decide_eq_true heq))
  exact congrArg (List.filterMap referenceOrder)
    (List.filter_cons_of_neg (p := isSymbol symbol) hne)

lemma bookOrders_cons {r : RawOrder} (h : order.symbol = symbol)
    (href : referenceOrder (RequestGenerator.requestOf order) = some r) :
    bookOrders symbol (order :: orders) = [r] ++ bookOrders symbol orders := by
  have heq : isSymbol symbol (RequestGenerator.requestOf order) = true :=
    decide_eq_true (congrArg Subtype.val h)
  exact (congrArg (List.filterMap referenceOrder) (List.filter_cons_of_pos (p := isSymbol symbol)
    heq)).trans (List.filterMap_cons_some href)

variable (symbol) in
/-- The sides of the book are those of the created orders. -/
lemma sideAmount_bookOrders
    (hsides : ∀ order ∈ orders, (order.tradingSide : ℤ) = 1 ∨ (order.tradingSide : ℤ) = 2) :
    sideAmount .buy (bookOrders symbol orders) = wanted symbol 1 orders ∧
      sideAmount .sell (bookOrders symbol orders) = wanted symbol 2 orders := by
  induction orders with
  | nil => exact ⟨rfl, rfl⟩
  | cons order orders ih =>
    obtain ⟨hbuys, hsells⟩ := ih fun order horder => hsides order (List.mem_cons_of_mem _ horder)
    rw [wanted, wanted, List.map_cons, List.map_cons, List.sum_cons, List.sum_cons]
    change _ = _ + wanted symbol 1 orders ∧ _ = _ + wanted symbol 2 orders
    by_cases hsymbol : order.symbol = symbol
    · rcases hsides order List.mem_cons_self with hbuy | hsell
      · rw [bookOrders_cons hsymbol (referenceOrder_buy hbuy), sideAmount_append,
          sideAmount_append, sideAmount_singleton, sideAmount_singleton, hbuys, hsells]
        simp [bookOrder, hsymbol, hbuy]
      · rw [bookOrders_cons hsymbol (referenceOrder_sell hsell), sideAmount_append,
          sideAmount_append, sideAmount_singleton, sideAmount_singleton, hbuys, hsells]
        simp [bookOrder, hsymbol, hsell]
    · rw [bookOrders_cons_of_ne hsymbol, hbuys, hsells]
      simp [hsymbol]

end Orders

/-! ### What is traded -/

section Volume

variable {H κ : Type} [DecidableEq H] [DecidableEq κ] {config : Config H}

/-- **The smaller side of each symbol is traded, at the price that was drawn for the symbol.** -/
theorem volume_of_loadTest {dumpFloat : ℚ → List Char} {symbolIdMin symbolIdMax : I32}
    {draw : I32 → I32} {orders : List OrderGenerator.Order}
    (horders : Created dumpFloat symbolIdMin symbolIdMax draw orders)
    (hpos : ∀ order ∈ orders, 0 < (order.amount : ℤ)) {trades : List MatchEngineProto.Trade}
    (h : LoadTest κ config (orders.map RequestGenerator.requestOf) trades) (symbol : I32) :
    (∀ t ∈ trades, t.symbolId = symbol → t.price = draw symbol) ∧
      ((trades.filter fun t => t.symbolId = (symbol : ℤ)).map MatchEngineProto.Trade.amount).sum =
        min (wanted symbol 1 orders) (wanted symbol 2 orders) := by
  have hsides : ∀ order ∈ orders, (order.tradingSide : ℤ) = 1 ∨ (order.tradingSide : ℤ) = 2 :=
    fun order horder => (horders.mem horder).2.2.2
  have hprice : ∀ r ∈ bookOrders symbol orders, r.price = draw symbol := by
    intro r hr
    obtain ⟨order, horder, rfl, side, rfl⟩ := exists_of_mem_bookOrders hsides hr
    exact congrArg Subtype.val (horders.mem horder).2.2.1
  have hamount : ∀ r ∈ bookOrders symbol orders, 0 < r.amount := by
    intro r hr
    obtain ⟨order, horder, -, side, rfl⟩ := exists_of_mem_bookOrders hsides hr
    exact hpos order horder
  -- up to ids and times the trades are those of the orders one after the other
  have hreference := h.reference symbol
  rw [referenceTrades] at hreference
  obtain ⟨hbuys, hsells⟩ := sideAmount_bookOrders symbol hsides
  constructor
  · intro t ht hsymbol
    have hmem : anonymousTrade t ∈
        (trades.filter fun t => t.symbolId = (symbol : ℤ)).map anonymousTrade :=
      List.mem_map_of_mem (List.mem_filter.2 ⟨ht, decide_eq_true hsymbol⟩)
    rw [hreference] at hmem
    obtain ⟨t', ht', heq⟩ := List.mem_map.1 hmem
    have htprice := price_runOrders (fun _ _ => 0) (none : Option Unit) hprice t' ht'
    exact (congrArg MatchEngineProto.Trade.price heq).symm.trans htprice
  · have hvolume := volume_runOrders (fun _ _ => 0) (none : Option Unit) hprice hamount
    rw [hbuys, hsells] at hvolume
    have hsum := congrArg (fun ts => (ts.map MatchEngineProto.Trade.amount).sum) hreference
    simp only [List.map_map] at hsum
    exact hsum.trans hvolume

end Volume

/-- A seller and a buyer of symbol 7 as they are created. -/
def createdOrders : List OrderGenerator.Order :=
  [⟨.ofInt 10, .ofInt 7, .ofInt 100, .ofInt 5, .ofInt 2⟩,
    ⟨.ofInt 10, .ofInt 7, .ofInt 100, .ofInt 3, .ofInt 1⟩]

lemma created_createdOrders (dumpFloat : ℚ → List Char) :
    Created dumpFloat (.ofInt 7) (.ofInt 7) (fun _ => .ofInt 100) createdOrders := by
  have hdraws : [(⟨.ofInt 10, 0, .ofInt 5, .ofInt 2⟩ : OrderGenerator.OrderDraw),
      ⟨.ofInt 10, 0, .ofInt 3, .ofInt 1⟩].mapM (OrderGenerator.newOrder
        (OrderGenerator.generateInitialPrice (.ofInt 7) (.ofInt 7) fun _ => .ofInt 100)) =
      some createdOrders := by decide
  exact OrderGenerator.created_of_draws dumpFloat (by decide) hdraws

theorem volume_of_loadTest_twoThreads :
    let trades : List MatchEngineProto.Trade := [⟨1, 1, .tradingBuy, 3, 100, 10, 10, 7, 2⟩]
    (∀ t ∈ trades, t.symbolId = (I32.ofInt 7 : ℤ) → t.price = (I32.ofInt 100 : ℤ)) ∧
      ((trades.filter fun t => t.symbolId = (I32.ofInt 7 : ℤ)).map
        MatchEngineProto.Trade.amount).sum =
        min (wanted (.ofInt 7) 1 createdOrders) (wanted (.ofInt 7) 2 createdOrders) := by
  have hrequests : createdOrders.map RequestGenerator.requestOf = sellerAndBuyer := by decide
  intro trades
  have hloadTest : LoadTest Unit twoNodes (createdOrders.map RequestGenerator.requestOf)
      trades := by
    rw [hrequests]
    exact ⟨_, loadTest_twoThreads⟩
  exact volume_of_loadTest (created_createdOrders fun _ => []) (by decide) hloadTest (.ofInt 7)

end TradingEngine.System.Deployment
