/-
The two sides of the market are each other's mirror image.

The mirror of an order is on the other side, at the price that has the reverse place among the
prices of an `int32`.  The functions of `match_actor.cc` decide by side in four places; each of
them, and with them a whole run, commutes with the mirror.  The readings of the clock may differ
in the two runs.
-/
import TradingEngine.Matching.Book

namespace TradingEngine.MatchEngine

/-- The mirror image of an order. -/
def RawOrder.mirror (order : RawOrder) : RawOrder :=
  { order with
    tradingSide := order.tradingSide.opposite
    price := -1 - order.price }

@[simp] lemma RawOrder.mirror_amount (order : RawOrder) : order.mirror.amount = order.amount := rfl

@[simp] lemma RawOrder.mirror_tradingSide (order : RawOrder) :
    order.mirror.tradingSide = order.tradingSide.opposite := rfl

@[simp] lemma RawOrder.mirror_price (order : RawOrder) : order.mirror.price = -1 - order.price :=
  rfl

end TradingEngine.MatchEngine

namespace TradingEngine.Matching

open MatchEngine

/-- The mirror image of a table. -/
def mirrorTable (orderTable : OrderTable) : OrderTable :=
  orderTable.map fun orderList => orderList.map RawOrder.mirror

/-- `t'` is the mirror image of the trade `t`; the times of the two deals may differ. -/
structure MirrorTrade (t t' : MatchedTrade) : Prop where
  makerId : t'.makerId = t.makerId
  takerId : t'.takerId = t.takerId
  tradingSide : t'.tradingSide = t.tradingSide.opposite
  amount : t'.amount = t.amount
  price : t'.price = -1 - t.price
  sellerUserId : t'.sellerUserId = t.buyerUserId
  buyerUserId : t'.buyerUserId = t.sellerUserId
  symbolId : t'.symbolId = t.symbolId
  submitTime : t'.submitTime = t.submitTime

/-- Lists of trades that are mirror images of each other. -/
abbrev MirrorTrades : TradeList → TradeList → Prop := List.Forall₂ MirrorTrade

/-! ### Decisions by side -/

lemma limitExcludes_mirror (order maker : RawOrder) :
    limitExcludes order.mirror maker.mirror = limitExcludes order maker := by
  cases h : order.tradingSide <;>
    simp [limitExcludes, h, TradingSite.opposite]

lemma needCreate_mirror (order first : RawOrder) :
    needCreate order.mirror first.mirror = needCreate order first := by
  cases h : order.tradingSide <;> simp [needCreate, h, TradingSite.opposite]

lemma makeTrade_mirror (dealTime dealTime' : ℤ) (maker taker : RawOrder) {ts ts' : TradeList}
    (h : MirrorTrades ts ts') :
    (makeTrade dealTime' maker.mirror taker.mirror ts').1 =
        (makeTrade dealTime maker taker ts).1.mirror ∧
      (makeTrade dealTime' maker.mirror taker.mirror ts').2.1 =
        (makeTrade dealTime maker taker ts).2.1.mirror ∧
      MirrorTrades (makeTrade dealTime maker taker ts).2.2
        (makeTrade dealTime' maker.mirror taker.mirror ts').2.2 := by
  have hconcat : ∀ {t t' : MatchedTrade}, MirrorTrade t t' →
      MirrorTrades (ts ++ [t]) (ts' ++ [t']) := fun ht => List.rel_append h (.cons ht .nil)
  unfold makeTrade
  cases hside : taker.tradingSide
  all_goals
    by_cases hamount : maker.amount < taker.amount <;>
      simp only [RawOrder.mirror_amount, RawOrder.mirror_tradingSide, hside, hamount, if_true,
        if_false, TradingSite.opposite]
    all_goals exact ⟨rfl, rfl, hconcat ⟨rfl, rfl, rfl, rfl, rfl, rfl, rfl, rfl, rfl⟩⟩

/-! ### Matching -/

/-- Levels are matched in the mirror as they are matched. -/
lemma matchOrderFromList_mirror (now now' : Clock) (orderList : RawOrderList) (order : RawOrder)
    {ts ts' : TradeList} (h : MirrorTrades ts ts') :
    (matchOrderFromList now' (orderList.map RawOrder.mirror) order.mirror ts').1 =
        (matchOrderFromList now orderList order ts).1.map RawOrder.mirror ∧
      (matchOrderFromList now' (orderList.map RawOrder.mirror) order.mirror ts').2.1 =
        (matchOrderFromList now orderList order ts).2.1.mirror ∧
      MirrorTrades (matchOrderFromList now orderList order ts).2.2.1
        (matchOrderFromList now' (orderList.map RawOrder.mirror) order.mirror ts').2.2.1 ∧
      (matchOrderFromList now' (orderList.map RawOrder.mirror) order.mirror ts').2.2.2 =
        (matchOrderFromList now orderList order ts).2.2.2 := by
  induction orderList generalizing order ts ts' with
  | nil => exact ⟨rfl, rfl, h, rfl⟩
  | cons maker orderList ih =>
    simp only [List.map_cons, matchOrderFromList, limitExcludes_mirror]
    by_cases hlimit : limitExcludes order maker = true
    · rw [if_pos hlimit, if_pos hlimit]
      exact ⟨rfl, rfl, h, rfl⟩
    · rw [if_neg hlimit, if_neg hlimit]
      obtain ⟨hmaker, htaker, htrades⟩ :=
        makeTrade_mirror (now ts.length) (now' ts'.length) maker order h
      rcases hm : makeTrade (now ts.length) maker order ts with ⟨maker₁, order₁, ts₁⟩
      rcases hm' : makeTrade (now' ts'.length) maker.mirror order.mirror ts' with
        ⟨maker₁', order₁', ts₁'⟩
      rw [hm, hm'] at hmaker htaker htrades
      obtain rfl : maker₁' = maker₁.mirror := hmaker
      obtain rfl : order₁' = order₁.mirror := htaker
      have hpassed : (if maker₁.amount = 0 then [] else [maker₁.mirror]) =
          (if maker₁.amount = 0 then [] else [maker₁]).map RawOrder.mirror := by
        split_ifs <;> rfl
      obtain ⟨hrest, hincoming, hnext, hcanMatch⟩ := ih order₁ htrades
      by_cases hzero : order₁.amount = 0
      · simp only [RawOrder.mirror_amount, hzero, if_true, List.map_append]
        exact ⟨congrArg (· ++ _) hpassed, trivial, htrades, trivial⟩
      · simp only [RawOrder.mirror_amount, hzero, if_false, List.map_append, hrest, hincoming,
          hcanMatch]
        exact ⟨congrArg (· ++ _) hpassed, trivial, hnext, trivial⟩

/-- Tables are matched in the mirror as they are matched. -/
lemma matchOrderFromTableLoop_mirror (now now' : Clock) (orderTable : OrderTable)
    (order : RawOrder) {ts ts' : TradeList} (h : MirrorTrades ts ts') :
    (matchOrderFromTableLoop now' (mirrorTable orderTable) order.mirror ts').1 =
        mirrorTable (matchOrderFromTableLoop now orderTable order ts).1 ∧
      (matchOrderFromTableLoop now' (mirrorTable orderTable) order.mirror ts').2.1 =
        (matchOrderFromTableLoop now orderTable order ts).2.1.mirror ∧
      MirrorTrades (matchOrderFromTableLoop now orderTable order ts).2.2
        (matchOrderFromTableLoop now' (mirrorTable orderTable) order.mirror ts').2.2 := by
  induction orderTable generalizing order ts ts' with
  | nil => exact ⟨rfl, rfl, h⟩
  | cons orderList orderTable ih =>
    obtain ⟨hlist, horder, htrades, hcanMatch⟩ :=
      matchOrderFromList_mirror now now' orderList order h
    rcases hl : matchOrderFromList now orderList order ts with ⟨list₁, order₁, ts₁, canMatch⟩
    rcases hl' : matchOrderFromList now' (orderList.map RawOrder.mirror) order.mirror ts' with
      ⟨list₁', order₁', ts₁', canMatch'⟩
    rw [hl, hl'] at hlist horder htrades hcanMatch
    obtain rfl : list₁' = list₁.map RawOrder.mirror := hlist
    obtain rfl : order₁' = order₁.mirror := horder
    obtain rfl : canMatch' = canMatch := hcanMatch
    have hpassed : (if list₁.map RawOrder.mirror = [] then [] else [list₁.map RawOrder.mirror]) =
        mirrorTable (if list₁ = [] then [] else [list₁]) := by
      by_cases hnil : list₁ = [] <;> simp [hnil, mirrorTable]
    obtain ⟨hrest, hincoming, hnext⟩ := ih order₁ htrades
    rw [show mirrorTable (orderList :: orderTable) =
      orderList.map RawOrder.mirror :: mirrorTable orderTable from rfl]
    simp only [matchOrderFromTableLoop, hl, hl', hpassed]
    cases canMatch' with
    | true =>
      simp only [if_true, hrest, hincoming]
      exact ⟨(List.map_append ..).symm, trivial, hnext⟩
    | false =>
      simp only [Bool.false_eq_true, if_false]
      exact ⟨(List.map_append ..).symm, trivial, htrades⟩

/-- Orders are added in the mirror as they are added. -/
lemma addToOrderTable_mirror (orderTable : OrderTable) (order : RawOrder) :
    addToOrderTable (mirrorTable orderTable) order.mirror =
      mirrorTable (addToOrderTable orderTable order) := by
  induction orderTable with
  | nil => rfl
  | cons orderList orderTable ih =>
    rcases orderList with _ | ⟨first, orderList⟩
    · exact congrArg ([] :: ·) ih
    · have hprice : order.mirror.price = first.mirror.price ↔ order.price = first.price := by
        rw [RawOrder.mirror_price, RawOrder.mirror_price]
        omega
      rw [show mirrorTable ((first :: orderList) :: orderTable) =
        (first.mirror :: orderList.map RawOrder.mirror) :: mirrorTable orderTable from rfl]
      simp only [addToOrderTable, hprice, needCreate_mirror, ih]
      split_ifs <;> simp [mirrorTable]

/-! ### Runs -/

variable {α : Type}

/-- `book'` is the mirror image of `book`. -/
structure MirrorBook (book book' : OrderBook α) : Prop where
  sellList : book'.sellList = mirrorTable book.buyList
  buyList : book'.buyList = mirrorTable book.sellList

/-- **The handler commutes with the mirror.** -/
theorem matchActorOrder_mirror (now now' : Clock) {book book' : OrderBook α}
    (h : MirrorBook book book') (order : RawOrder) :
    MirrorTrades (matchActorOrder now book order).2 (matchActorOrder now' book' order.mirror).2 ∧
      MirrorBook (matchActorOrder now book order).1
        (matchActorOrder now' book' order.mirror).1 := by
  have hown : ∀ (orderTable : OrderTable) (left : RawOrder),
      (if left.mirror.amount ≠ 0 then addToOrderTable (mirrorTable orderTable) left.mirror
        else mirrorTable orderTable) =
      mirrorTable (if left.amount ≠ 0 then addToOrderTable orderTable left else orderTable) := by
    intro orderTable left
    rw [addToOrderTable_mirror, RawOrder.mirror_amount]
    split_ifs <;> rfl
  cases hside : order.tradingSide with
  | buy =>
    have hmirror : order.mirror.tradingSide = .sell := by
      rw [RawOrder.mirror_tradingSide, hside]
      rfl
    obtain ⟨htable, hleft, htrades⟩ :=
      matchOrderFromTableLoop_mirror now now' book.sellList order (.nil : MirrorTrades [] [])
    simp only [matchActorOrder, hside, hmirror, matchOrderFromTable, h.buyList, h.sellList, htable,
      hleft, hown]
    exact ⟨htrades, rfl, rfl⟩
  | sell =>
    have hmirror : order.mirror.tradingSide = .buy := by
      rw [RawOrder.mirror_tradingSide, hside]
      rfl
    obtain ⟨htable, hleft, htrades⟩ :=
      matchOrderFromTableLoop_mirror now now' book.buyList order (.nil : MirrorTrades [] [])
    simp only [matchActorOrder, hside, hmirror, matchOrderFromTable, h.buyList, h.sellList, htable,
      hleft, hown]
    exact ⟨htrades, rfl, rfl⟩

/-- A run commutes with the mirror. -/
lemma runOrders_mirrorBook {book book' : OrderBook α} (h : MirrorBook book book')
    (clock clock' : ℕ → Clock) (orders : List RawOrder) :
    List.Forall₂ MirrorTrades (runOrders clock book orders).1
        (runOrders clock' book' (orders.map RawOrder.mirror)).1 ∧
      MirrorBook (runOrders clock book orders).2
        (runOrders clock' book' (orders.map RawOrder.mirror)).2 := by
  induction orders generalizing clock clock' book book' with
  | nil => exact ⟨.nil, h⟩
  | cons order orders ih =>
    obtain ⟨htrades, hbook⟩ := matchActorOrder_mirror (clock 0) (clock' 0) h order
    obtain ⟨hrest, hlast⟩ := ih hbook (fun i => clock (i + 1)) (fun i => clock' (i + 1))
    exact ⟨.cons htrades hrest, hlast⟩

/-- **Buying and selling are dual**: in the mirror, a run from the empty book makes the mirror
images of its trades, and ends with the mirror image of its book. -/
theorem runOrders_mirror (clock clock' : ℕ → Clock) (orders : List RawOrder) :
    List.Forall₂ MirrorTrades (runOrders clock ({} : OrderBook α) orders).1
        (runOrders clock' ({} : OrderBook α) (orders.map RawOrder.mirror)).1 ∧
      MirrorBook (runOrders clock ({} : OrderBook α) orders).2
        (runOrders clock' ({} : OrderBook α) (orders.map RawOrder.mirror)).2 :=
  runOrders_mirrorBook ⟨rfl, rfl⟩ clock clock' orders

/-! ### The clock -/

/-- A trade without the time of the deal. -/
def untimed (t : MatchedTrade) : MatchedTrade := { t with dealTime := 0 }

/-- The tables of the books are the same, whoever receives the results. -/
structure SameTables (book book' : OrderBook α) : Prop where
  sellList : book'.sellList = book.sellList
  buyList : book'.buyList = book.buyList

lemma opposite_involutive : Function.Involutive TradingSite.opposite := by
  intro side
  cases side <;> rfl

lemma mirror_involutive : Function.Involutive RawOrder.mirror := by
  intro order
  have hprice : -1 - (-1 - order.price) = order.price := by omega
  simp only [RawOrder.mirror, hprice, opposite_involutive order.tradingSide]

lemma mirrorTable_injective : Function.Injective mirrorTable :=
  List.map_injective_iff.2 (List.map_injective_iff.2 mirror_involutive.injective)

lemma MirrorTrade.untimed_eq {t t' u : MatchedTrade} (h : MirrorTrade t u)
    (h' : MirrorTrade t' u) : untimed t' = untimed t := by
  have hside := opposite_involutive.injective (h'.tradingSide.symm.trans h.tradingSide)
  have hprice : t'.price = t.price := by
    have := h'.price.symm.trans h.price
    omega
  rw [untimed, untimed, MatchedTrade.mk.injEq]
  exact ⟨h'.makerId.symm.trans h.makerId, h'.takerId.symm.trans h.takerId, hside,
    h'.amount.symm.trans h.amount, hprice, h'.buyerUserId.symm.trans h.buyerUserId,
    h'.sellerUserId.symm.trans h.sellerUserId, h'.symbolId.symm.trans h.symbolId,
    h'.submitTime.symm.trans h.submitTime, rfl⟩

lemma MirrorTrades.untimed_eq {ts ts' us : TradeList} (h : MirrorTrades ts us)
    (h' : MirrorTrades ts' us) : ts'.map untimed = ts.map untimed := by
  induction h generalizing ts' with
  | nil =>
    cases h'
    rfl
  | cons ht _ ih =>
    cases h' with
    | cons ht' hrest => rw [List.map_cons, List.map_cons, ih hrest, ht.untimed_eq ht']

/-- **The clock shows in the deal times only.**  What is mirrored is the same at any time. -/
theorem matchActorOrder_untimed (now now' : Clock) {book book' : OrderBook α}
    (h : SameTables book book') (order : RawOrder) :
    (matchActorOrder now' book' order).2.map untimed =
        (matchActorOrder now book order).2.map untimed ∧
      SameTables (matchActorOrder now book order).1 (matchActorOrder now' book' order).1 := by
  have hm : MirrorBook book
      { sellList := mirrorTable book.buyList, buyList := mirrorTable book.sellList } := ⟨rfl, rfl⟩
  have hm' : MirrorBook book'
      { sellList := mirrorTable book.buyList, buyList := mirrorTable book.sellList } :=
    ⟨by rw [h.buyList], by rw [h.sellList]⟩
  obtain ⟨htrades, hbook⟩ := matchActorOrder_mirror now now hm order
  obtain ⟨htrades', hbook'⟩ := matchActorOrder_mirror now' now hm' order
  exact ⟨htrades.untimed_eq htrades',
    mirrorTable_injective (hbook'.buyList.symm.trans hbook.buyList),
    mirrorTable_injective (hbook'.sellList.symm.trans hbook.sellList)⟩

end TradingEngine.Matching
