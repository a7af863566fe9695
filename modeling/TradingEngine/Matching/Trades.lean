/-
The parties of a trade.

`swept_trades` says whom a trade is between: the order that is handled, and one that was
handled before it.  The rest follows the trade through the conversions of the service and of
the persistence tool, which derive the buyer and the seller a second time.
-/
import TradingEngine.Matching.WellFormed
import TradingEngine.MatchEngine.GrpcImpl
import TradingEngine.TradePersistence.TradeEntity

namespace TradingEngine.Matching

open Lib MatchEngine Market TradePersistence

variable {α : Type}

/-! ### Maker and taker -/

/-- A trade between an order `maker` and the incoming order `taker`, as far as the two
orders determine it. -/
structure IsTrade (maker taker : RawOrder) (t : Trade) : Prop where
  makerId : t.makerId = maker.orderId
  takerId : t.takerId = taker.orderId
  tradingSide : t.tradingSide = taker.tradingSide
  price : t.price = maker.price
  sellerUserId : t.sellerUserId = if taker.tradingSide = .buy then maker.userId else taker.userId
  buyerUserId : t.buyerUserId = if taker.tradingSide = .buy then taker.userId else maker.userId
  symbolId : t.symbolId = taker.symbolId
  accepts : accepts taker maker

lemma isTrade_record {maker taker r b : RawOrder} (hr : SameOrder maker r)
    (hb : SameOrder taker b) (hacc : Market.accepts b r) :
    IsTrade maker taker (trade r b).record where
  makerId := hr.orderId
  takerId := hb.orderId
  tradingSide := hb.tradingSide
  price := hr.price
  sellerUserId := by simp only [trade, hr.userId, hb.userId, hb.tradingSide]
  buyerUserId := by simp only [trade, hr.userId, hb.userId, hb.tradingSide]
  symbolId := hb.symbolId
  accepts := by
    rw [hb.accepts, accepts_comm, hr.accepts, accepts_comm] at hacc
    exact hacc

/-- **Every trade is with an order that arrived before.** -/
theorem swept_trades {orders : List RawOrder} {book : OrderBook α}
    {queue : TradingSite → List (Stamped RawOrder)} (h : Stamps orders book queue)
    (order : RawOrder) : ∀ t ∈ (swept book order).trades,
      ∃ (i : ℕ) (maker : RawOrder), orders[i]? = some maker ∧ IsTrade maker order t := by
  refine (rule.sweep_forall (I := SameOrder order) (J := SameOrder order)
    (P := fun r => ∃ (i : ℕ) (maker : RawOrder), orders[i]? = some maker ∧ SameOrder maker r)
    (Q := fun _ => True)
    (T := fun t => ∃ (i : ℕ) (maker : RawOrder), orders[i]? = some maker ∧
      IsTrade maker order t)
    (fun _ _ => trivial) (fun _ hb => hb) ?_ _ order ?_ (SameOrder.refl order)).1
  · rintro r b ⟨i, maker, hi, hr⟩ hb hacc
    exact ⟨⟨i, maker, hi, isTrade_record hr hb hacc⟩, fun _ => trivial,
      hb.trans (sameOrder_incoming r b), fun _ => hb.trans (sameOrder_incoming r b)⟩
  · intro r hr
    rw [← h.queue_eq] at hr
    obtain ⟨x, hx, rfl⟩ := List.mem_map.1 hr
    obtain ⟨o, ho, hsame⟩ := h.arrived _ x hx
    exact ⟨x.arrival, o, ho, hsame⟩

/-- The trades of a run: the taker is the order that was handled, the maker one before it. -/
lemma runOrders_trades (clock : ℕ → Clock) (receiver : Option α) {orders : List RawOrder}
    {j : ℕ} {tradeList : TradeList}
    (h : (runOrders clock ({ matchResultActor := receiver } : OrderBook α) orders).1[j]? =
      some tradeList) : ∀ t ∈ tradeList, ∃ (i : ℕ) (maker taker : RawOrder), i < j ∧
        orders[i]? = some maker ∧ orders[j]? = some taker ∧ IsTrade maker taker (toTrade t) := by
  intro t ht
  obtain ⟨order, ho, rfl⟩ := runOrders_getElem? clock _ h
  obtain ⟨queue, hstamps⟩ := runOrders_stamps clock receiver (orders.take j)
  have hb := runOrders_bookOk clock receiver (orders.take j)
  have hmem : toTrade t ∈ (swept (runOrders clock ({ matchResultActor := receiver } : OrderBook α)
      (orders.take j)).2 order).trades := by
    rw [← matchActorOrder_trades (clock j) order hb]
    exact List.mem_map_of_mem ht
  obtain ⟨i, maker, hi, htrade⟩ := swept_trades hstamps order _ hmem
  rw [List.getElem?_take] at hi
  split_ifs at hi with hij
  exact ⟨i, maker, order, hij, hi, ho, htrade⟩

lemma runOrders_trades_positive (clock : ℕ → Clock) (receiver : Option α)
    {orders : List RawOrder} (hpos : ∀ o ∈ orders, 0 < o.amount) {j : ℕ} {tradeList : TradeList}
    (h : (runOrders clock ({ matchResultActor := receiver } : OrderBook α) orders).1[j]? =
      some tradeList) : ∀ t ∈ tradeList, 0 < t.amount := by
  intro t ht
  obtain ⟨order, ho, rfl⟩ := runOrders_getElem? clock _ h
  have hb := runOrders_bookOk clock receiver (orders.take j)
  have hbook := runOrders_amounts tradingRange_pos clock receiver (orders.take j)
    fun o ho => hpos o (List.mem_of_mem_take ho)
  refine (swept_amounts tradingRange_pos hbook (hpos order (List.mem_of_getElem? ho))).1
    (toTrade t) ?_
  rw [← matchActorOrder_trades (clock j) order hb]
  exact List.mem_map_of_mem ht

/-! ### The record in the database -/

/-- What the record of a trade says about the two orders. -/
structure Describes (entity : TradeEntity) (buyer seller : RawOrder) : Prop where
  buyOrderId : entity.buyOrderId = toString buyer.orderId
  buyUserId : entity.buyUserId = toString buyer.userId
  buySide : buyer.tradingSide = .buy
  sellOrderId : entity.sellOrderId = toString seller.orderId
  sellUserId : entity.sellUserId = toString seller.userId
  sellSide : seller.tradingSide = .sell

/-- Both derivations of the parties agree: the users come from the side of the taker in
`MakeTrade`, the orders from the side in the message. -/
lemma describes_tradeEntity {maker taker : RawOrder} {t : MatchedTrade}
    (h : IsTrade maker taker (toTrade t)) (uuid : String) : ∃ buyer seller,
      (buyer = maker ∧ seller = taker ∨ buyer = taker ∧ seller = maker) ∧
      Describes (tradeEntity uuid (MatchEngineGRPCImpl.grpcTrade t)) buyer seller ∧
      seller.price ≤ maker.price ∧ maker.price ≤ buyer.price := by
  obtain ⟨hmaker, htaker, hside, -, hseller, hbuyer, -, hacc⟩ := h
  simp only [toTrade] at hmaker htaker hside hseller hbuyer
  rcases accepts_iff.1 hacc with ⟨hb, hs, hp⟩ | ⟨hs, hb, hp⟩
  · rw [hb] at hside hseller hbuyer
    refine ⟨taker, maker, Or.inr ⟨rfl, rfl⟩, ⟨?_, ?_, hb, ?_, ?_, hs⟩, le_rfl, hp⟩ <;>
      simp [tradeEntity, MatchEngineGRPCImpl.grpcTrade, hmaker, htaker, hside, hseller, hbuyer]
  · rw [hs] at hside hseller hbuyer
    refine ⟨maker, taker, Or.inl ⟨rfl, rfl⟩, ⟨?_, ?_, hb, ?_, ?_, hs⟩, hp, le_rfl⟩ <;>
      simp [tradeEntity, MatchEngineGRPCImpl.grpcTrade, hmaker, htaker, hside, hseller, hbuyer]

/-- **The record of a trade names the right orders and users**, at the limit price of the
order that came first, which lies within both limits. -/
theorem runOrders_tradeEntity (clock : ℕ → Clock) (receiver : Option α)
    (orders : List RawOrder) (symbolId : ℤ) (hpos : ∀ o ∈ orders, 0 < o.amount)
    (hsymbol : ∀ o ∈ orders, o.symbolId = symbolId) (uuid : String) :
    ∀ (j : ℕ) (tradeList : TradeList),
      (runOrders clock ({ matchResultActor := receiver } : OrderBook α) orders).1[j]? =
        some tradeList → ∀ trade ∈ tradeList,
      let entity := tradeEntity uuid (MatchEngineGRPCImpl.grpcTrade trade)
      ∃ (i : ℕ) (maker taker buyer seller : RawOrder), i < j ∧ orders[i]? = some maker ∧
        orders[j]? = some taker ∧ trade.makerId = maker.orderId ∧
        trade.takerId = taker.orderId ∧
        (buyer = maker ∧ seller = taker ∨ buyer = taker ∧ seller = maker) ∧
        Describes entity buyer seller ∧
        entity.price = toString maker.price ∧ seller.price ≤ maker.price ∧
        maker.price ≤ buyer.price ∧
        0 < trade.amount ∧ entity.amount = toString trade.amount ∧
        entity.symbolId = toString symbolId := by
  intro j tradeList h trade ht
  obtain ⟨i, maker, taker, hij, hi, hj, htrade⟩ := runOrders_trades clock receiver h trade ht
  obtain ⟨buyer, seller, hparties, hdesc, hlow, hhigh⟩ := describes_tradeEntity htrade uuid
  have hfields : ∀ m : MatchEngineProto.Trade,
      (tradeEntity uuid m).price = toString m.price ∧
      (tradeEntity uuid m).amount = toString m.amount ∧
      (tradeEntity uuid m).symbolId = toString m.symbolId := by
    intro m
    cases hm : m.tradingSide <;> simp [tradeEntity, hm]
  obtain ⟨hprice, hamount, hsym⟩ := hfields (MatchEngineGRPCImpl.grpcTrade trade)
  have hmakerPrice : trade.price = maker.price := htrade.price
  have htradeSymbol : trade.symbolId = symbolId :=
    htrade.symbolId.trans (hsymbol taker (List.mem_of_getElem? hj))
  refine ⟨i, maker, taker, buyer, seller, hij, hi, hj, htrade.makerId, htrade.takerId,
    hparties, hdesc, ?_, hlow, hhigh, runOrders_trades_positive clock receiver hpos h trade ht,
    hamount, ?_⟩
  · rw [hprice, MatchEngineGRPCImpl.grpcTrade, hmakerPrice]
  · rw [hsym, MatchEngineGRPCImpl.grpcTrade, htradeSymbol]

/-- The record of the trade of a buyer with a seller who came first. -/
theorem tradeEntity_of_sellerFirst :
    let entity := tradeEntity "3f2504e0" (MatchEngineGRPCImpl.grpcTrade
      ⟨1, 2, .buy, 5, 99, 11, 12, 7, 1, 0⟩)
    entity.buyOrderId = "2" ∧ entity.sellOrderId = "1" ∧ entity.price = "99" ∧
      ∃ buyer seller : RawOrder, Describes entity buyer seller ∧
        seller.price ≤ 99 ∧ 99 ≤ buyer.price := by
  have h := runOrders_tradeEntity (fun _ _ => 0) (none : Option Unit)
    [⟨1, 7, 11, .sell, 5, 99, 1⟩, ⟨2, 7, 12, .buy, 8, 100, 2⟩] 7 (by decide) (by decide)
    "3f2504e0" 1 [⟨1, 2, .buy, 5, 99, 11, 12, 7, 1, 0⟩] rfl _ List.mem_cons_self
  obtain ⟨i, maker, taker, buyer, seller, hi, hmaker, -, -, -, -, hdesc, -, hlow, hhigh, -⟩ := h
  obtain rfl : i = 0 := by omega
  obtain rfl : _ = maker := Option.some.inj hmaker
  exact ⟨rfl, rfl, rfl, buyer, seller, hdesc, hlow, hhigh⟩

end TradingEngine.Matching
