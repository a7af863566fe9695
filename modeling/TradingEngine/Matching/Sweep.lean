/-
The functions of `match_actor.cc` on flattened tables.

The market that the match engine implements is stated here on its own terms, as a matching
rule (`Market.rule`): whom an order may trade with, and what one trade does.  The levels of
a table play no part in it.  `matchOrderFromTable_sweep` says that the two nested loops of
the source, read on the concatenation of the levels, sweep that one queue.
-/
import TradingEngine.Lib.PriceTime
import TradingEngine.MatchEngine.MatchActor

namespace TradingEngine.Matching

open Lib MatchEngine

/-! ### The market -/

namespace Market

/-- A trade, without the times that the source takes down with it. -/
structure Trade where
  makerId : ℤ
  takerId : ℤ
  tradingSide : TradingSite
  amount : ℤ
  price : ℤ
  sellerUserId : ℤ
  buyerUserId : ℤ
  symbolId : ℤ
  deriving DecidableEq

/-- The incoming order and the resting order are on opposite sides, and the price of the
resting order satisfies the limit of the incoming one. -/
def accepts (order resting : RawOrder) : Bool :=
  match order.tradingSide, resting.tradingSide with
  | .buy, .sell => resting.price ≤ order.price
  | .sell, .buy => order.price ≤ resting.price
  | _, _ => false

/-- One trade: the minimum of both amounts, at the price of the resting order. -/
def trade (resting order : RawOrder) : Exchange RawOrder RawOrder Trade where
  resting := { resting with amount := resting.amount - min resting.amount order.amount }
  incoming := { order with amount := order.amount - min resting.amount order.amount }
  record :=
    { makerId := resting.orderId
      takerId := order.orderId
      tradingSide := order.tradingSide
      amount := min resting.amount order.amount
      price := resting.price
      sellerUserId := if order.tradingSide = .buy then resting.userId else order.userId
      buyerUserId := if order.tradingSide = .buy then order.userId else resting.userId
      symbolId := order.symbolId }

/-- The rule of the market: an order is used up at amount zero. -/
def rule : MatchRule RawOrder RawOrder Trade where
  accepts := accepts
  exhausted order := order.amount = 0
  spent resting := resting.amount = 0
  trade := trade

@[simp] lemma rule_accepts (order r : RawOrder) : rule.accepts order r = accepts order r := rfl

@[simp] lemma rule_exhausted (order : RawOrder) :
    rule.exhausted order = decide (order.amount = 0) := rfl

@[simp] lemma rule_spent (r : RawOrder) : rule.spent r = decide (r.amount = 0) := rfl

@[simp] lemma rule_trade (r order : RawOrder) : rule.trade r order = trade r order := rfl

lemma accepts_iff {order r : RawOrder} : accepts order r = true ↔
    (order.tradingSide = .buy ∧ r.tradingSide = .sell ∧ r.price ≤ order.price) ∨
      (order.tradingSide = .sell ∧ r.tradingSide = .buy ∧ order.price ≤ r.price) := by
  cases ho : order.tradingSide <;> cases hr : r.tradingSide <;> simp [accepts, ho, hr]

/-- The rank of a price: low prices are the best to buy from, high prices to sell to. -/
def rank (r : RawOrder) : ℤ :=
  match r.tradingSide with
  | .sell => r.price
  | .buy => -r.price

lemma rank_of_sell {r : RawOrder} (h : r.tradingSide = .sell) : rank r = r.price := by
  rw [rank, h]

lemma rank_of_buy {r : RawOrder} (h : r.tradingSide = .buy) : rank r = -r.price := by
  rw [rank, h]

lemma rule_priced : rule.Priced RawOrder.tradingSide rank where
  accepts_of_rank_le := by
    intro b x y hs hr hy
    rw [rule_accepts, accepts_iff] at hy ⊢
    rcases hy with ⟨hb, hside, hp⟩ | ⟨hb, hside, hp⟩
    · rw [rank_of_sell hside, rank_of_sell (hs.trans hside)] at hr
      exact Or.inl ⟨hb, hs.trans hside, hr.trans hp⟩
    · rw [rank_of_buy hside, rank_of_buy (hs.trans hside)] at hr
      exact Or.inr ⟨hb, hs.trans hside, by omega⟩
  accepts_trade := by
    intro x b y
    rfl
  used_up := by
    intro x b
    simp only [rule_trade, rule_spent, rule_exhausted, trade, decide_eq_true_eq]
    omega

/-- The second order is the first one up to its amount. -/
def SameOrder (o r : RawOrder) : Prop := r = { o with amount := r.amount }

namespace SameOrder

variable {o r s : RawOrder}

lemma refl (o : RawOrder) : SameOrder o o := rfl

lemma trans (h : SameOrder o r) (h' : SameOrder r s) : SameOrder o s :=
  calc
    s = { r with amount := s.amount } := h'
    _ = { o with amount := s.amount } := by rw [h]

lemma orderId (h : SameOrder o r) : r.orderId = o.orderId := by rw [h]
lemma symbolId (h : SameOrder o r) : r.symbolId = o.symbolId := by rw [h]
lemma userId (h : SameOrder o r) : r.userId = o.userId := by rw [h]
lemma tradingSide (h : SameOrder o r) : r.tradingSide = o.tradingSide := by rw [h]
lemma price (h : SameOrder o r) : r.price = o.price := by rw [h]
lemma submitTime (h : SameOrder o r) : r.submitTime = o.submitTime := by rw [h]

lemma rank (h : SameOrder o r) : rank r = rank o := by rw [h]; rfl

lemma accepts (h : SameOrder o r) (x : RawOrder) : accepts r x = accepts o x := by rw [h]; rfl

end SameOrder

lemma sameOrder_resting (r order : RawOrder) : SameOrder r (trade r order).resting := rfl

lemma sameOrder_incoming (r order : RawOrder) : SameOrder order (trade r order).incoming := rfl

lemma sweep_sameOrder (q : List RawOrder) (order : RawOrder) :
    SameOrder order (rule.sweep q order).incoming :=
  rule.sweep_incoming SameOrder.refl SameOrder.trans sameOrder_incoming q order

lemma sweep_rest_sameOrder (q : List RawOrder) (order : RawOrder) :
    List.SublistForall₂ (fun r x => SameOrder x r) (rule.sweep q order).rest q :=
  rule.sweep_rest SameOrder.refl sameOrder_resting q order

end Market

open Market

/-- A trade of the engine as the market sees it. -/
def toTrade (t : MatchedTrade) : Trade where
  makerId := t.makerId
  takerId := t.takerId
  tradingSide := t.tradingSide
  amount := t.amount
  price := t.price
  sellerUserId := t.sellerUserId
  buyerUserId := t.buyerUserId
  symbolId := t.symbolId

/-! ### The loops as sweeps -/

/-- `MakeTrade` is one trade of the market. -/
lemma makeTrade_eq (dealTime : ℤ) (maker taker : RawOrder) (tradeList : TradeList) :
    ∃ t, makeTrade dealTime maker taker tradeList =
        ((trade maker taker).resting, (trade maker taker).incoming, tradeList ++ [t]) ∧
      toTrade t = (trade maker taker).record := by
  by_cases h : maker.amount < taker.amount
  · have hmin : min maker.amount taker.amount = maker.amount := by omega
    cases hs : taker.tradingSide <;>
      simp [makeTrade, trade, toTrade, h, hs, hmin]
  · have hmin : min maker.amount taker.amount = taker.amount := by omega
    cases hs : taker.tradingSide <;>
      simp [makeTrade, trade, toTrade, h, hs, hmin]

/-- Against an order of the other side, the price test of the loop is the market's. -/
lemma limitExcludes_eq {order maker : RawOrder} (h : maker.tradingSide ≠ order.tradingSide) :
    limitExcludes order maker = !accepts order maker := by
  rw [Bool.eq_iff_iff, Bool.not_eq_true', ← Bool.not_eq_true, accepts_iff]
  cases ho : order.tradingSide <;> cases hm : maker.tradingSide <;>
    simp_all [limitExcludes]

/-- The inner loop sweeps its level; `can_match` says that it went through all of it. -/
lemma matchOrderFromList_sweep (now : Clock) : ∀ (orderList : RawOrderList) (order : RawOrder)
    (tradeList : TradeList), (∀ r ∈ orderList, r.tradingSide ≠ order.tradingSide) →
    ∃ ts, matchOrderFromList now orderList order tradeList =
        ((rule.sweep orderList order).rest, (rule.sweep orderList order).incoming,
          tradeList ++ ts, rule.runsThrough orderList order) ∧
      ts.map toTrade = (rule.sweep orderList order).trades := by
  intro orderList
  induction orderList with
  | nil => intro order tradeList _; exact ⟨[], by simp [matchOrderFromList, MatchRule.runsThrough]⟩
  | cons maker orderList ih =>
    intro order tradeList hside
    have hm := limitExcludes_eq (hside maker List.mem_cons_self)
    by_cases hx : rule.accepts order maker
    · rw [rule_accepts] at hx
      obtain ⟨t, ht, htt⟩ := makeTrade_eq (now tradeList.length) maker order tradeList
      by_cases he : (trade maker order).incoming.amount = 0
      · have he' : rule.exhausted (rule.trade maker order).incoming := decide_eq_true he
        rw [rule.sweep_of_exhausted hx he']
        refine ⟨[t], ?_, by simpa using htt⟩
        simp [matchOrderFromList, hm, hx, ht, he, MatchRule.runsThrough, MatchRule.kept]
      · have he' : ¬ rule.exhausted (rule.trade maker order).incoming := by simpa using he
        obtain ⟨us, hus, huss⟩ := ih (trade maker order).incoming (tradeList ++ [t])
          (fun r hr => hside r (List.mem_cons_of_mem _ hr))
        rw [rule.sweep_of_accepts hx he']
        refine ⟨t :: us, ?_, by simp [htt, huss]⟩
        simp [matchOrderFromList, hm, hx, ht, he, hus, MatchRule.runsThrough, MatchRule.kept]
    · rw [rule.sweep_of_not_accepts hx]
      rw [rule_accepts, Bool.not_eq_true] at hx
      exact ⟨[], by simp [matchOrderFromList, hm, hx, MatchRule.runsThrough], rfl⟩

/-- The outer loop sweeps the concatenation of the levels. -/
lemma matchOrderFromTableLoop_sweep (now : Clock) : ∀ (orderTable : OrderTable)
    (order : RawOrder) (tradeList : TradeList),
    (∀ r ∈ orderTable.flatten, r.tradingSide ≠ order.tradingSide) →
    ∃ orderTable' ts, matchOrderFromTableLoop now orderTable order tradeList =
        (orderTable', (rule.sweep orderTable.flatten order).incoming, tradeList ++ ts) ∧
      orderTable'.flatten = (rule.sweep orderTable.flatten order).rest ∧
      ts.map toTrade = (rule.sweep orderTable.flatten order).trades := by
  intro orderTable
  induction orderTable with
  | nil => intro order tradeList _; exact ⟨[], [], by simp [matchOrderFromTableLoop]⟩
  | cons orderList orderTable ih =>
    intro order tradeList hside
    rw [List.flatten_cons] at hside ⊢
    obtain ⟨ts, hts, htts⟩ := matchOrderFromList_sweep now orderList order tradeList
      (fun r hr => hside r (List.mem_append_left _ hr))
    have hpassed : ∀ l : RawOrderList, (if l = [] then [] else [l]).flatten = l := by
      intro l
      split_ifs with h <;> simp [h]
    by_cases hrun : rule.runsThrough orderList order
    · obtain ⟨table', us, hus, hrest, huss⟩ := ih (rule.sweep orderList order).incoming
        (tradeList ++ ts) (by
          intro r hr
          rw [(sweep_sameOrder orderList order).tradingSide]
          exact hside r (List.mem_append_right _ hr))
      rw [rule.sweep_append_of_runsThrough _ _ _ hrun]
      refine ⟨(if (rule.sweep orderList order).rest = [] then []
        else [(rule.sweep orderList order).rest]) ++ table', ts ++ us, ?_, ?_, ?_⟩
      · simp [matchOrderFromTableLoop, hts, hrun, hus]
      · rw [List.flatten_append, hpassed, hrest]
      · rw [List.map_append, htts, huss]
    · rw [rule.sweep_append_of_not_runsThrough _ _ _ hrun]
      refine ⟨(if (rule.sweep orderList order).rest = [] then []
        else [(rule.sweep orderList order).rest]) ++ orderTable, ts, ?_, ?_, htts⟩
      · simp [matchOrderFromTableLoop, hts, hrun]
      · rw [List.flatten_append, hpassed]

/-- **`MatchOrderFromTable` sweeps the concatenation of the levels of the table.** -/
theorem matchOrderFromTable_sweep (now : Clock) {orderTable : OrderTable} {order : RawOrder}
    (hside : ∀ r ∈ orderTable.flatten, r.tradingSide ≠ order.tradingSide) :
    ∃ orderTable' ts, matchOrderFromTable now orderTable order =
        (orderTable', (rule.sweep orderTable.flatten order).incoming, ts) ∧
      orderTable'.flatten = (rule.sweep orderTable.flatten order).rest ∧
      ts.map toTrade = (rule.sweep orderTable.flatten order).trades := by
  obtain ⟨table', ts, h, hrest, hts⟩ :=
    matchOrderFromTableLoop_sweep now orderTable order [] hside
  exact ⟨table', ts, h, hrest, hts⟩

end TradingEngine.Matching
