/-
Orders at one price.

Each trade takes the same quantity from both sides, and no two orders that could trade rest in a
book.  If all orders have one price, then one side is empty in the end, and what is traded is the
smaller one of the two totals.
-/
import TradingEngine.Matching.Conservation
import TradingEngine.Matching.WellFormed

namespace TradingEngine.Matching

open Lib MatchEngine Market

variable {α : Type}

/-! ### Quantities of a side -/

/-- The quantity that the orders of a side bring in. -/
def sideAmount (side : TradingSite) (orders : List RawOrder) : ℤ :=
  ((orders.filter fun order => order.tradingSide = side).map RawOrder.amount).sum

/-- The quantity that rests on a side of a book. -/
def restingAmount (side : TradingSite) (book : OrderBook α) : ℤ :=
  ((book.queue side).map RawOrder.amount).sum

/-- The quantity of these trades. -/
def volume (tradeList : TradeList) : ℤ := (tradeList.map MatchedTrade.amount).sum

lemma volume_append (ts us : TradeList) : volume (ts ++ us) = volume ts + volume us := by
  rw [volume, List.map_append, List.sum_append]
  rfl

lemma sideAmount_append (side : TradingSite) (orders orders' : List RawOrder) :
    sideAmount side (orders ++ orders') = sideAmount side orders + sideAmount side orders' := by
  rw [sideAmount, List.filter_append, List.map_append, List.sum_append]
  rfl

lemma sideAmount_singleton (side : TradingSite) (order : RawOrder) :
    sideAmount side [order] = if order.tradingSide = side then order.amount else 0 := by
  rw [sideAmount]
  split_ifs with hside
  · rw [List.filter_cons_of_pos (by simpa using hside)]
    simp
  · rw [List.filter_cons_of_neg (by simpa using hside)]
    rfl

/-- The opposite side loses what is traded. -/
lemma swept_opposite (book : OrderBook α) (order : RawOrder) :
    restingAmount order.tradingSide.opposite book =
      ((swept book order).rest.map RawOrder.amount).sum +
        ((swept book order).trades.map Trade.amount).sum := by
  have hsweep := rule.sweep_conserves (f := RawOrder.amount) (g := fun _ => 0) (h := Trade.amount)
    (fun r b => ?_) ?_ (book.queue order.tradingSide.opposite) order
  · rwa [add_zero, add_zero] at hsweep
  · show r.amount + 0 = (r.amount - min r.amount b.amount) + 0 + min r.amount b.amount
    omega
  · intro r hr
    simpa using hr

/-- The order loses what is traded. -/
lemma swept_incoming (book : OrderBook α) (order : RawOrder) :
    order.amount = (swept book order).incoming.amount +
      ((swept book order).trades.map Trade.amount).sum := by
  have hsweep := rule.sweep_conserves (f := fun _ => 0) (g := RawOrder.amount) (h := Trade.amount)
    (fun r b => ?_) (fun _ _ => rfl) (book.queue order.tradingSide.opposite) order
  · simpa [swept] using hsweep
  · show 0 + b.amount = 0 + (b.amount - min r.amount b.amount) + min r.amount b.amount
    omega

/-- **One run of the handler moves quantity on each side.** -/
lemma matchActorOrder_sides (now : Clock) {book : OrderBook α} (order : RawOrder)
    (hb : BookOk book) (side : TradingSite) :
    restingAmount side book + (if order.tradingSide = side then order.amount else 0) =
      restingAmount side (matchActorOrder now book order).1 +
        volume (matchActorOrder now book order).2 := by
  have htrades : volume (matchActorOrder now book order).2 =
      ((swept book order).trades.map Trade.amount).sum := by
    rw [← matchActorOrder_trades now order hb, List.map_map]
    rfl
  rcases eq_or_ne side order.tradingSide with rfl | hne
  · -- what is left of the order is put on its own side
    obtain ⟨pre, post, hflat, hown, -, -⟩ := matchActorOrder_own now order hb
    have hleft : ((if (swept book order).incoming.amount = 0 then []
        else [(swept book order).incoming]).map RawOrder.amount).sum =
          (swept book order).incoming.amount := by
      split_ifs with hz
      · simp [hz]
      · simp
    have hincoming := swept_incoming book order
    rw [if_pos rfl, restingAmount, restingAmount, hown, hflat, htrades]
    simp only [List.map_append, List.sum_append, hleft]
    omega
  · obtain rfl := TradingSite.eq_opposite hne
    rw [if_neg hne.symm, add_zero, swept_opposite, restingAmount,
      matchActorOrder_opposite now order hb, htrades]

lemma runOrders_sides (clock : ℕ → Clock) (receiver : Option α) (orders : List RawOrder)
    (side : TradingSite) : sideAmount side orders =
      restingAmount side (runOrders clock ({ matchResultActor := receiver } : OrderBook α)
        orders).2 +
        volume (runOrders clock ({ matchResultActor := receiver } : OrderBook α)
          orders).1.flatten := by
  induction orders using List.reverseRecOn with
  | nil => cases side <;> rfl
  | append_singleton orders order ih =>
    have hstep := matchActorOrder_sides (clock orders.length) order
      (runOrders_bookOk clock receiver orders) side
    rw [runOrders_concat, sideAmount_append, sideAmount_singleton]
    simp only [List.flatten_append, List.flatten_cons, List.flatten_nil, List.append_nil,
      volume_append]
    omega

/-! ### One price -/

section OnePrice

variable {orders : List RawOrder} {price : ℤ}

/-- What rests has the price of an order that came in. -/
lemma resting_price (clock : ℕ → Clock) (receiver : Option α)
    (hprice : ∀ order ∈ orders, order.price = price) (side : TradingSite) {r : RawOrder}
    (hr : r ∈ (runOrders clock ({ matchResultActor := receiver } : OrderBook α)
      orders).2.queue side) : r.price = price ∧ r.tradingSide = side := by
  obtain ⟨queue, hstamps⟩ := runOrders_stamps clock receiver orders
  refine ⟨?_, ((runOrders_bookOk clock receiver orders).table_ok side).side_eq r hr⟩
  rw [← hstamps.queue_eq] at hr
  obtain ⟨x, hx, rfl⟩ := List.mem_map.1 hr
  obtain ⟨o, ho, hsame⟩ := hstamps.arrived _ x hx
  rw [hsame.price]
  exact hprice o (List.mem_of_getElem? ho)

/-- One side of the book is empty. -/
lemma exists_queue_eq_nil (clock : ℕ → Clock) (receiver : Option α)
    (hprice : ∀ order ∈ orders, order.price = price) : ∃ side,
      (runOrders clock ({ matchResultActor := receiver } : OrderBook α) orders).2.queue side =
        [] := by
  by_contra hne
  push Not at hne
  obtain ⟨r, hr⟩ := List.exists_mem_of_ne_nil _ (hne .buy)
  obtain ⟨s, hs⟩ := List.exists_mem_of_ne_nil _ (hne .sell)
  obtain ⟨hrprice, hrside⟩ := resting_price clock receiver hprice .buy hr
  obtain ⟨hsprice, hsside⟩ := resting_price clock receiver hprice .sell hs
  refine runOrders_uncrossed clock receiver orders .buy r hr s hs (accepts_iff.2 (.inl ?_))
  exact ⟨hrside, hsside, (hsprice.trans hrprice.symm).le⟩

/-- **At one price the smaller side is traded**, and all of it. -/
lemma volume_runOrders (clock : ℕ → Clock) (receiver : Option α)
    (hprice : ∀ order ∈ orders, order.price = price) (hpos : ∀ order ∈ orders, 0 < order.amount) :
    volume (runOrders clock ({ matchResultActor := receiver } : OrderBook α) orders).1.flatten =
      min (sideAmount .buy orders) (sideAmount .sell orders) := by
  have hamounts := runOrders_amounts tradingRange_pos clock receiver orders hpos
  have hrest : ∀ side, 0 ≤ restingAmount side
      (runOrders clock ({ matchResultActor := receiver } : OrderBook α) orders).2 := by
    intro side
    refine List.sum_nonneg fun amount hamount => ?_
    obtain ⟨r, hr, rfl⟩ := List.mem_map.1 hamount
    exact (hamounts side r hr).le
  have hbuy := runOrders_sides clock receiver orders .buy
  have hsell := runOrders_sides clock receiver orders .sell
  have hbuyRest := hrest .buy
  have hsellRest := hrest .sell
  -- the empty side has been traded, and the other one has brought in no less
  obtain ⟨side, hside⟩ := exists_queue_eq_nil clock receiver hprice
  have hzero : restingAmount side
      (runOrders clock ({ matchResultActor := receiver } : OrderBook α) orders).2 = 0 := by
    rw [restingAmount, hside]
    rfl
  cases side with
  | buy => omega
  | sell => omega

/-- All trades are made at this price. -/
lemma price_runOrders (clock : ℕ → Clock) (receiver : Option α)
    (hprice : ∀ order ∈ orders, order.price = price) : ∀ t ∈ (runOrders clock
      ({ matchResultActor := receiver } : OrderBook α) orders).1.flatten, t.price = price := by
  intro t ht
  obtain ⟨tradeList, hmem, ht⟩ := List.mem_flatten.1 ht
  obtain ⟨j, hj⟩ := List.mem_iff_getElem?.1 hmem
  obtain ⟨i, maker, taker, -, hmaker, -, htrade⟩ := runOrders_trades clock receiver hj t ht
  exact htrade.price.trans (hprice maker (List.mem_of_getElem? hmaker))

end OnePrice

end TradingEngine.Matching
