/-
What the matching never looks at.

The functions of `match_actor.cc` copy the ids of orders, users and symbols and the times of
submission, and decide nothing by them.  So a run of `MatchActor` on orders with other labels
makes the trades of the run on the orders themselves, with these labels.
-/
import TradingEngine.Matching.Mirror

namespace TradingEngine.MatchEngine

/-- New labels for orders. -/
structure Relabelling where
  orderId : ℤ → ℤ
  userId : ℤ → ℤ
  symbolId : ℤ → ℤ
  submitTime : ℤ → ℤ

/-- The order with the other labels. -/
def RawOrder.relabel (ρ : Relabelling) (order : RawOrder) : RawOrder where
  orderId := ρ.orderId order.orderId
  symbolId := ρ.symbolId order.symbolId
  userId := ρ.userId order.userId
  tradingSide := order.tradingSide
  amount := order.amount
  price := order.price
  submitTime := ρ.submitTime order.submitTime

/-- The trade with the other labels. -/
def MatchedTrade.relabel (ρ : Relabelling) (trade : MatchedTrade) : MatchedTrade where
  makerId := ρ.orderId trade.makerId
  takerId := ρ.orderId trade.takerId
  tradingSide := trade.tradingSide
  amount := trade.amount
  price := trade.price
  sellerUserId := ρ.userId trade.sellerUserId
  buyerUserId := ρ.userId trade.buyerUserId
  symbolId := ρ.symbolId trade.symbolId
  submitTime := ρ.submitTime trade.submitTime
  dealTime := trade.dealTime

/-- The book of the orders with new labels, and with another receiver of the results. -/
def OrderBook.relabel {α β : Type} (ρ : Relabelling) (receiver : Option β) (book : OrderBook α) :
    OrderBook β where
  sellList := book.sellList.map fun orderList => orderList.map (RawOrder.relabel ρ)
  buyList := book.buyList.map fun orderList => orderList.map (RawOrder.relabel ρ)
  matchResultActor := receiver

variable (ρ : Relabelling)

@[simp] lemma RawOrder.relabel_amount (order : RawOrder) :
    (order.relabel ρ).amount = order.amount := rfl

@[simp] lemma RawOrder.relabel_price (order : RawOrder) :
    (order.relabel ρ).price = order.price := rfl

@[simp] lemma RawOrder.relabel_tradingSide (order : RawOrder) :
    (order.relabel ρ).tradingSide = order.tradingSide := rfl

end TradingEngine.MatchEngine

namespace TradingEngine.Matching

open MatchEngine

variable (ρ : Relabelling)

/-- The table of the orders with new labels. -/
def relabelTable (orderTable : OrderTable) : OrderTable :=
  orderTable.map fun orderList => orderList.map (RawOrder.relabel ρ)

@[simp] lemma relabelTable_nil : relabelTable ρ [] = [] := rfl

@[simp] lemma relabelTable_cons (orderList : RawOrderList) (orderTable : OrderTable) :
    relabelTable ρ (orderList :: orderTable) =
      orderList.map (RawOrder.relabel ρ) :: relabelTable ρ orderTable := rfl

@[simp] lemma relabelTable_append (orderTable orderTable' : OrderTable) :
    relabelTable ρ (orderTable ++ orderTable') =
      relabelTable ρ orderTable ++ relabelTable ρ orderTable' := List.map_append ..

/-! ### Matching -/

lemma limitExcludes_relabel (order maker : RawOrder) :
    limitExcludes (order.relabel ρ) (maker.relabel ρ) = limitExcludes order maker := by
  unfold limitExcludes
  rw [RawOrder.relabel_tradingSide]
  cases order.tradingSide <;> rfl

lemma makeTrade_relabel (dealTime : ℤ) (maker taker : RawOrder) (ts : TradeList) :
    makeTrade dealTime (maker.relabel ρ) (taker.relabel ρ) (ts.map (MatchedTrade.relabel ρ)) =
      ((makeTrade dealTime maker taker ts).1.relabel ρ,
        (makeTrade dealTime maker taker ts).2.1.relabel ρ,
        (makeTrade dealTime maker taker ts).2.2.map (MatchedTrade.relabel ρ)) := by
  by_cases hamount : maker.amount < taker.amount <;> cases hside : taker.tradingSide <;>
    simp [makeTrade, hamount, hside, RawOrder.relabel, MatchedTrade.relabel]

/-- Levels are matched under new labels as they are matched. -/
lemma matchOrderFromList_relabel (now : Clock) (orderList : RawOrderList) (order : RawOrder)
    (ts : TradeList) :
    matchOrderFromList now (orderList.map (RawOrder.relabel ρ)) (order.relabel ρ)
        (ts.map (MatchedTrade.relabel ρ)) =
      ((matchOrderFromList now orderList order ts).1.map (RawOrder.relabel ρ),
        (matchOrderFromList now orderList order ts).2.1.relabel ρ,
        (matchOrderFromList now orderList order ts).2.2.1.map (MatchedTrade.relabel ρ),
        (matchOrderFromList now orderList order ts).2.2.2) := by
  induction orderList generalizing order ts with
  | nil => rfl
  | cons maker orderList ih =>
    simp only [List.map_cons, matchOrderFromList, limitExcludes_relabel, List.length_map]
    by_cases hlimit : limitExcludes order maker = true
    · rw [if_pos hlimit, if_pos hlimit]
      rfl
    · rw [if_neg hlimit, if_neg hlimit, makeTrade_relabel]
      rcases makeTrade (now ts.length) maker order ts with ⟨maker₁, order₁, ts₁⟩
      -- whether the maker stays and whether the order goes on depends on the amounts
      by_cases hmaker : maker₁.amount = 0 <;> by_cases hzero : order₁.amount = 0 <;>
        simp [hmaker, hzero, ih order₁ ts₁]

/-- Tables are matched under new labels as they are matched. -/
lemma matchOrderFromTableLoop_relabel (now : Clock) (orderTable : OrderTable) (order : RawOrder)
    (ts : TradeList) :
    matchOrderFromTableLoop now (relabelTable ρ orderTable) (order.relabel ρ)
        (ts.map (MatchedTrade.relabel ρ)) =
      (relabelTable ρ (matchOrderFromTableLoop now orderTable order ts).1,
        (matchOrderFromTableLoop now orderTable order ts).2.1.relabel ρ,
        (matchOrderFromTableLoop now orderTable order ts).2.2.map (MatchedTrade.relabel ρ)) := by
  induction orderTable generalizing order ts with
  | nil => rfl
  | cons orderList orderTable ih =>
    simp only [relabelTable_cons, matchOrderFromTableLoop, matchOrderFromList_relabel]
    rcases matchOrderFromList now orderList order ts with ⟨list₁, order₁, ts₁, canMatch⟩
    have hpassed : (if list₁.map (RawOrder.relabel ρ) = [] then []
        else [list₁.map (RawOrder.relabel ρ)]) =
          relabelTable ρ (if list₁ = [] then [] else [list₁]) := by
      by_cases hnil : list₁ = [] <;> simp [hnil]
    simp only [hpassed, ih order₁ ts₁]
    cases canMatch <;> simp

lemma needCreate_relabel (order first : RawOrder) :
    needCreate (order.relabel ρ) (first.relabel ρ) = needCreate order first := by
  unfold needCreate
  rw [RawOrder.relabel_tradingSide]
  cases order.tradingSide <;> rfl

/-- Orders are added under new labels as they are added. -/
lemma addToOrderTable_relabel (orderTable : OrderTable) (order : RawOrder) :
    addToOrderTable (relabelTable ρ orderTable) (order.relabel ρ) =
      relabelTable ρ (addToOrderTable orderTable order) := by
  induction orderTable with
  | nil => rfl
  | cons orderList orderTable ih =>
    rcases orderList with _ | ⟨first, orderList⟩
    · exact congrArg ([] :: ·) ih
    · simp only [relabelTable_cons, List.map_cons, addToOrderTable, RawOrder.relabel_price,
        needCreate_relabel, ih]
      split_ifs <;> simp

lemma matchOrderFromTable_relabel (now : Clock) (orderTable : OrderTable) (order : RawOrder) :
    matchOrderFromTable now (relabelTable ρ orderTable) (order.relabel ρ) =
      (relabelTable ρ (matchOrderFromTable now orderTable order).1,
        (matchOrderFromTable now orderTable order).2.1.relabel ρ,
        (matchOrderFromTable now orderTable order).2.2.map (MatchedTrade.relabel ρ)) :=
  matchOrderFromTableLoop_relabel ρ now orderTable order []

/-! ### Runs -/

variable {α β : Type} (receiver : Option β)

/-- **The handler commutes with new labels.** -/
theorem matchActorOrder_relabel (now : Clock) (book : OrderBook α) (order : RawOrder) :
    matchActorOrder now (book.relabel ρ receiver) (order.relabel ρ) =
      ((matchActorOrder now book order).1.relabel ρ receiver,
        (matchActorOrder now book order).2.map (MatchedTrade.relabel ρ)) := by
  have hrest : ∀ (orderTable : OrderTable) (left : RawOrder),
      (if left.amount ≠ 0 then addToOrderTable (relabelTable ρ orderTable) (left.relabel ρ)
        else relabelTable ρ orderTable) =
      relabelTable ρ (if left.amount ≠ 0 then addToOrderTable orderTable left
        else orderTable) := by
    intro orderTable left
    rw [addToOrderTable_relabel]
    split_ifs <;> rfl
  obtain ⟨sellList, buyList, actor⟩ := book
  change matchActorOrder now ⟨relabelTable ρ sellList, relabelTable ρ buyList, receiver⟩ _ = _
  cases hside : order.tradingSide with
  | buy =>
    simp only [matchActorOrder, RawOrder.relabel_tradingSide, hside, matchOrderFromTable_relabel,
      RawOrder.relabel_amount, hrest]
    rfl
  | sell =>
    simp only [matchActorOrder, RawOrder.relabel_tradingSide, hside, matchOrderFromTable_relabel,
      RawOrder.relabel_amount, hrest]
    rfl

/-- **The matching is blind to labels.**  Under new ids of orders, users and symbols and new
times of submission, whether or not they still tell the orders apart, `MatchActor` makes the
same trades with these labels, order by order, and ends with the same book with these labels;
who receives the results plays no part. -/
theorem runOrders_relabel (clock : ℕ → Clock) (book : OrderBook α) (orders : List RawOrder) :
    runOrders clock (book.relabel ρ receiver) (orders.map (RawOrder.relabel ρ)) =
      ((runOrders clock book orders).1.map fun ts => ts.map (MatchedTrade.relabel ρ),
        (runOrders clock book orders).2.relabel ρ receiver) := by
  induction orders generalizing clock book with
  | nil => rfl
  | cons order orders ih =>
    simp only [List.map_cons, runOrders, matchActorOrder_relabel, ih]

/-- Who receives the results plays no part in the trades. -/
lemma runOrders_receiver (clock : ℕ → Clock) (book : OrderBook α) (orders : List RawOrder) :
    (runOrders clock (⟨book.sellList, book.buyList, receiver⟩ : OrderBook β) orders).1 =
      (runOrders clock book orders).1 := by
  have hsame : RawOrder.relabel ⟨id, id, id, id⟩ = id := rfl
  have hsame' : MatchedTrade.relabel ⟨id, id, id, id⟩ = id := rfl
  have hbook : book.relabel ⟨id, id, id, id⟩ receiver =
      ⟨book.sellList, book.buyList, receiver⟩ := by
    simp [OrderBook.relabel, hsame]
  have h := runOrders_relabel ⟨id, id, id, id⟩ receiver clock book orders
  rw [hbook, hsame, List.map_id] at h
  simp [h, hsame']

/-! ### Two runs -/

/-- All labels are taken away. -/
def blank : Relabelling := ⟨fun _ => 0, fun _ => 0, fun _ => 0, fun _ => 0⟩

/-- What is left of a trade without labels and times: the side, the amount and the price. -/
def blankTrade (trade : MatchedTrade) : MatchedTrade := untimed (trade.relabel blank)

/-- The clock shows in the deal times only. -/
lemma runOrders_untimed (clock clock' : ℕ → Clock) {book book' : OrderBook α}
    (h : SameTables book book') (orders : List RawOrder) :
    (runOrders clock' book' orders).1.map (List.map untimed) =
        (runOrders clock book orders).1.map (List.map untimed) ∧
      SameTables (runOrders clock book orders).2 (runOrders clock' book' orders).2 := by
  induction orders generalizing clock clock' book book' with
  | nil => exact ⟨rfl, h⟩
  | cons order orders ih =>
    obtain ⟨htrades, hbook⟩ := matchActorOrder_untimed (clock 0) (clock' 0) h order
    obtain ⟨hrest, hend⟩ := ih (fun i => clock (i + 1)) (fun i => clock' (i + 1)) hbook
    simp only [runOrders, List.map_cons, htrades, hrest]
    exact ⟨trivial, hend⟩

/-- **Only sides, amounts and prices decide.**  Two runs of `MatchActor` on orders that agree in
these, from books whose orders agree in these, make trades that agree in these, order by order,
and end with such books: whoever places the orders, under which ids and for which symbol, at what
times, and whatever the clocks show. -/
theorem runOrders_blank (clock clock' : ℕ → Clock) (book : OrderBook α) (book' : OrderBook β)
    (orders orders' : List RawOrder)
    (hbook : book'.relabel blank (none : Option Unit) = book.relabel blank none)
    (horders : orders'.map (RawOrder.relabel blank) = orders.map (RawOrder.relabel blank)) :
    (runOrders clock' book' orders').1.map (List.map blankTrade) =
        (runOrders clock book orders).1.map (List.map blankTrade) ∧
      (runOrders clock' book' orders').2.relabel blank (none : Option Unit) =
        (runOrders clock book orders).2.relabel blank none := by
  have hrun := runOrders_relabel blank (none : Option Unit) clock book orders
  have hrun' := runOrders_relabel blank (none : Option Unit) clock' book' orders'
  rw [hbook, horders] at hrun'
  -- the two runs without labels differ in the clock only
  have hsame : SameTables (book.relabel blank (none : Option Unit)) (book.relabel blank none) :=
    ⟨rfl, rfl⟩
  obtain ⟨htrades, hend⟩ := runOrders_untimed clock clock' hsame
    (orders.map (RawOrder.relabel blank))
  rw [hrun, hrun'] at htrades hend
  refine ⟨?_, ?_⟩
  · have hblank : List.map blankTrade =
        List.map untimed ∘ List.map (MatchedTrade.relabel blank) := by
      funext ts
      exact (List.map_map ..).symm
    rw [hblank, ← List.map_map, ← List.map_map]
    exact htrades
  · rw [OrderBook.relabel, OrderBook.relabel, OrderBook.mk.injEq]
    exact ⟨hend.sellList, hend.buyList, rfl⟩

/-- Two sellers and a buyer of symbol 7, and of symbol 8 with other ids, users and times. -/
theorem runOrders_blank_twoSymbols :
    let orders : List RawOrder := [⟨1, 7, 10, .sell, 3, 100, 1⟩, ⟨2, 7, 11, .sell, 4, 100, 2⟩,
      ⟨3, 7, 12, .buy, 5, 101, 3⟩]
    let orders' : List RawOrder := [⟨9, 8, 20, .sell, 3, 100, 30⟩, ⟨9, 8, 20, .sell, 4, 100, 20⟩,
      ⟨5, 8, 20, .buy, 5, 101, 10⟩]
    (runOrders (fun _ _ => 5) ({} : OrderBook Unit) orders').1.map (List.map blankTrade) =
        (runOrders (fun _ _ => 0) ({} : OrderBook Bool) orders).1.map (List.map blankTrade) ∧
      (runOrders (fun _ _ => 5) ({} : OrderBook Unit) orders').2.relabel blank
          (none : Option Unit) =
        (runOrders (fun _ _ => 0) ({} : OrderBook Bool) orders).2.relabel blank none :=
  runOrders_blank _ _ _ _ _ _ rfl rfl

end TradingEngine.Matching
