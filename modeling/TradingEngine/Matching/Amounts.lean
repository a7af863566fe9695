/-
Amounts as they come from a client.

Nothing between `PlaceOrder` and `MakeTrade` looks at the amount of an order.  A fill moves
amounts the right way, and no `int32` overflows, exactly as long as no order of amount zero
finds a partner and no order of negative amount is handled (`safeRun_iff`).
-/
import TradingEngine.Matching.Trades

namespace TradingEngine.Matching

open Lib MatchEngine Market

variable {α : Type}

/-! ### The calls of `MakeTrade` -/

/-- The arguments of `MakeTrade`, call by call, in `MatchOrderFromList`. -/
def makeTradeCallsList (now : Clock) :
    RawOrderList → RawOrder → TradeList → List (RawOrder × RawOrder)
  | [], _, _ => []
  | maker :: orderList, order, tradeList =>
    if limitExcludes order maker then []
    else
      (maker, order) ::
        let (_, order, tradeList) := makeTrade (now tradeList.length) maker order tradeList
        if order.amount = 0 then [] else makeTradeCallsList now orderList order tradeList

/-- The same for the loop of `MatchOrderFromTable`. -/
def makeTradeCallsTable (now : Clock) :
    OrderTable → RawOrder → TradeList → List (RawOrder × RawOrder)
  | [], _, _ => []
  | orderList :: orderTable, order, tradeList =>
    makeTradeCallsList now orderList order tradeList ++
      let (_, order, tradeList, canMatch) := matchOrderFromList now orderList order tradeList
      if canMatch then makeTradeCallsTable now orderTable order tradeList else []

/-- The same for the handler of `MatchActor`. -/
def makeTradeCalls (now : Clock) (state : OrderBook α) (order : RawOrder) :
    List (RawOrder × RawOrder) :=
  match order.tradingSide with
  | .buy => makeTradeCallsTable now state.sellList order []
  | .sell => makeTradeCallsTable now state.buyList order []

lemma makeTradeCallsList_eq (now : Clock) : ∀ (orderList : RawOrderList) (order : RawOrder)
    (tradeList : TradeList), (∀ r ∈ orderList, r.tradingSide ≠ order.tradingSide) →
    makeTradeCallsList now orderList order tradeList = rule.parties orderList order := by
  intro orderList
  induction orderList with
  | nil => intro order tradeList _; rfl
  | cons maker orderList ih =>
    intro order tradeList hside
    obtain ⟨t, ht, -⟩ := makeTrade_eq (now tradeList.length) maker order tradeList
    have hrest := ih (trade maker order).incoming (tradeList ++ [t])
      (fun r hr => hside r (List.mem_cons_of_mem _ hr))
    simp only [makeTradeCallsList, MatchRule.parties, rule_accepts, rule_trade, rule_exhausted,
      limitExcludes_eq (hside maker List.mem_cons_self), ht, hrest, decide_eq_true_eq]
    by_cases hx : accepts order maker <;> simp [hx]

lemma makeTradeCallsTable_eq (now : Clock) : ∀ (orderTable : OrderTable) (order : RawOrder)
    (tradeList : TradeList), (∀ r ∈ orderTable.flatten, r.tradingSide ≠ order.tradingSide) →
    makeTradeCallsTable now orderTable order tradeList =
      rule.parties orderTable.flatten order := by
  intro orderTable
  induction orderTable with
  | nil => intro order tradeList _; rfl
  | cons orderList orderTable ih =>
    intro order tradeList hside
    rw [List.flatten_cons] at hside ⊢
    have hlist : ∀ r ∈ orderList, r.tradingSide ≠ order.tradingSide :=
      fun r hr => hside r (List.mem_append_left _ hr)
    obtain ⟨ts, hts, -⟩ := matchOrderFromList_sweep now orderList order tradeList hlist
    have hrest := ih (rule.sweep orderList order).incoming (tradeList ++ ts) (by
      intro r hr
      rw [(sweep_sameOrder orderList order).tradingSide]
      exact hside r (List.mem_append_right _ hr))
    rw [makeTradeCallsTable, makeTradeCallsList_eq now orderList order tradeList hlist, hts,
      rule.parties_append]
    simp only [hrest]

/-- The calls are the trades of the sweep, with the parties as they were before. -/
lemma makeTradeCalls_eq (now : Clock) {book : OrderBook α} (order : RawOrder)
    (hb : BookOk book) :
    makeTradeCalls now book order =
      rule.parties (book.queue order.tradingSide.opposite) order := by
  have hside := opposite_side order hb
  have htable : makeTradeCalls now book order =
      makeTradeCallsTable now (book.table order.tradingSide.opposite) order [] := by
    cases h : order.tradingSide <;>
      simp [makeTradeCalls, h, OrderBook.table, TradingSite.opposite]
  rw [htable, makeTradeCallsTable_eq now _ order [] hside]
  rfl

/-- The trades are those of the calls, in their order. -/
lemma makeTradeCalls_trades (now : Clock) {book : OrderBook α} (order : RawOrder)
    (hb : BookOk book) : List.Forall₂ (fun call t => (trade call.1 call.2).record = toTrade t)
      (makeTradeCalls now book order) (matchActorOrder now book order).2 := by
  rw [← List.forall₂_map_right_iff, ← List.forall₂_map_left_iff, List.forall₂_eq_eq_eq,
    matchActorOrder_trades now order hb, makeTradeCalls_eq now order hb]
  exact (rule.sweep_trades_eq _ order).symm

/-! ### One order -/

/-- What is expected of the handling of one order: trades and resting orders have positive
amounts, no fill increases an amount, and the subtractions of `MakeTrade` stay in range. -/
structure SafeStep (now : Clock) (book : OrderBook α) (order : RawOrder) : Prop where
  trades : ∀ t ∈ (matchActorOrder now book order).2, 0 < t.amount
  resting : ∀ side, ∀ r ∈ (matchActorOrder now book order).1.queue side, 0 < r.amount
  fills : ∀ call ∈ makeTradeCalls now book order, ∀ dealTime tradeList,
    let (maker, taker, _) := makeTrade dealTime call.1 call.2 tradeList
    maker.amount ≤ call.1.amount ∧ taker.amount ≤ call.2.amount
  no_overflow : ∀ call ∈ makeTradeCalls now book order, ∀ dealTime tradeList,
    let (maker, taker, _) := makeTrade dealTime call.1 call.2 tradeList
    IsInt32 maker.amount ∧ IsInt32 taker.amount

/-- The order has a positive amount, or amount zero and nobody to trade with. -/
def Admissible (book : OrderBook α) (order : RawOrder) : Prop :=
  0 < order.amount ∨
    order.amount = 0 ∧ ∀ r ∈ book.queue order.tradingSide.opposite, ¬ accepts order r

/-- The positive values of an `int32`. -/
def IsPositiveInt32 (a : ℤ) : Prop := 0 < a ∧ a < 2 ^ 31

lemma tradingRange_int32 : TradingRange IsPositiveInt32 := by
  refine ⟨fun h => h.1, fun ha hb hlt => ?_⟩
  obtain ⟨-, ha⟩ := ha
  obtain ⟨hb, -⟩ := hb
  exact ⟨by omega, by omega⟩

lemma swept_of_not_accepts {book : OrderBook α} {order : RawOrder}
    (h : ∀ r ∈ book.queue order.tradingSide.opposite, ¬ accepts order r) :
    swept book order = ⟨[], book.queue order.tradingSide.opposite, order⟩ := by
  unfold swept
  cases hq : book.queue order.tradingSide.opposite with
  | nil => rfl
  | cons x q =>
    rw [rule.sweep_of_not_accepts]
    exact h x (by rw [hq]; exact List.mem_cons_self)

/-- If an order accepts anything, it trades with the first order of the queue. -/
lemma exists_trade_of_accepts {book : OrderBook α} {order r : RawOrder} (hb : BookOk book)
    (hr : r ∈ book.queue order.tradingSide.opposite) (hacc : accepts order r) :
    ∃ x ∈ book.queue order.tradingSide.opposite,
      (trade x order).record ∈ (swept book order).trades := by
  have hside := (hb.table_ok order.tradingSide.opposite).side_eq
  have hsorted := (hb.table_ok order.tradingSide.opposite).flatten_sorted
  change ∀ r ∈ book.queue order.tradingSide.opposite, _ at hside
  change (book.queue order.tradingSide.opposite).Pairwise _ at hsorted
  unfold swept
  cases hq : book.queue order.tradingSide.opposite with
  | nil => simp [hq] at hr
  | cons x q =>
    rw [hq] at hr hside hsorted
    refine ⟨x, List.mem_cons_self, ?_⟩
    have hx : rule.accepts order x := by
      rcases List.mem_cons.1 hr with rfl | hmem
      · exact hacc
      · exact rule_priced.accepts_of_rank_le
          ((hside x List.mem_cons_self).trans (hside r hr).symm)
          (List.rel_of_pairwise_cons hsorted hmem) hacc
    by_cases he : rule.exhausted (rule.trade x order).incoming
    · rw [rule.sweep_of_exhausted hx he]
      exact List.mem_cons_self
    · rw [rule.sweep_of_accepts hx he]
      exact List.mem_cons_self

section Step

variable (now : Clock) {book : OrderBook α} {order : RawOrder} (hb : BookOk book)
include hb

/-- An order of amount zero without a partner changes nothing. -/
lemma matchActorOrder_of_zero (hzero : order.amount = 0)
    (h : ∀ r ∈ book.queue order.tradingSide.opposite, ¬ accepts order r) :
    (matchActorOrder now book order).2 = [] ∧
      ∀ side, ∀ r ∈ (matchActorOrder now book order).1.queue side, r ∈ book.queue side := by
  have hswept := swept_of_not_accepts h
  refine ⟨?_, fun side r hr => ?_⟩
  · have htrades := matchActorOrder_trades now order hb
    rw [hswept] at htrades
    exact List.map_eq_nil_iff.1 htrades
  · rcases mem_queue_matchActorOrder now hb hr with ⟨rfl, hrest⟩ | ⟨-, hr⟩ | ⟨-, hne, -⟩
    · rwa [hswept] at hrest
    · exact hr
    · rw [hswept] at hne
      exact absurd hzero hne

lemma amountsIn_of_admissible (hbook : AmountsIn IsPositiveInt32 book)
    (ho : IsInt32 order.amount) (h : Admissible book order) :
    AmountsIn IsPositiveInt32 (matchActorOrder now book order).1 := by
  rcases h with hpos | ⟨hzero, hno⟩
  · exact matchActorOrder_amounts now tradingRange_int32 hb hbook ⟨hpos, ho.2⟩
  · exact fun side r hr => hbook side r ((matchActorOrder_of_zero now hb hzero hno).2 side r hr)

/-- An admissible order is handled as expected. -/
lemma safeStep_of_admissible (hbook : AmountsIn IsPositiveInt32 book)
    (ho : IsInt32 order.amount) (h : Admissible book order) : SafeStep now book order := by
  have hcalls : ∀ call ∈ makeTradeCalls now book order,
      IsPositiveInt32 call.1.amount ∧ IsPositiveInt32 call.2.amount := by
    rw [makeTradeCalls_eq now order hb]
    rcases h with hpos | ⟨-, hno⟩
    · refine rule.parties_forall (I := fun b => IsPositiveInt32 b.amount)
        (P := fun r => IsPositiveInt32 r.amount) ?_ _ order (hbook _) ⟨hpos, ho.2⟩
      intro x b hx hb _ hne
      exact (tradingRange_int32.trade hx hb).2.2.resolve_left (by simpa using hne)
    · intro call hcall
      cases hq : book.queue order.tradingSide.opposite with
      | nil => simp [hq, MatchRule.parties] at hcall
      | cons x q =>
        have hx : ¬ accepts order x := hno x (by rw [hq]; exact List.mem_cons_self)
        simp [hq, MatchRule.parties, hx] at hcall
  have hrest := amountsIn_of_admissible now hb hbook ho h
  refine ⟨?_, fun side r hr => (hrest side r hr).1, ?_, ?_⟩
  · rcases h with hpos | ⟨hzero, hno⟩
    · intro t ht
      refine (swept_amounts tradingRange_int32 hbook ⟨hpos, ho.2⟩).1 (toTrade t) ?_
      rw [← matchActorOrder_trades now order hb]
      exact List.mem_map_of_mem ht
    · simp [(matchActorOrder_of_zero now hb hzero hno).1]
  · intro call hcall dealTime tradeList
    obtain ⟨⟨hm, -⟩, ⟨ht, -⟩⟩ := hcalls call hcall
    obtain ⟨t, htrade, -⟩ := makeTrade_eq dealTime call.1 call.2 tradeList
    rw [htrade]
    simp only [trade]
    omega
  · intro call hcall dealTime tradeList
    obtain ⟨⟨hm, hm'⟩, ⟨ht, ht'⟩⟩ := hcalls call hcall
    obtain ⟨t, htrade, -⟩ := makeTrade_eq dealTime call.1 call.2 tradeList
    rw [htrade]
    simp only [trade, IsInt32]
    omega

/-- Only an admissible order is handled as expected. -/
lemma admissible_of_safeStep (hbook : AmountsIn (0 < ·) book) (h : SafeStep now book order) :
    Admissible book order := by
  rcases lt_or_ge 0 order.amount with hpos | hle
  · exact Or.inl hpos
  have hno : ∀ r ∈ book.queue order.tradingSide.opposite, ¬ accepts order r := by
    intro r hr hacc
    -- the first trade would have the amount of the order
    obtain ⟨x, hx, hmem⟩ := exists_trade_of_accepts hb hr hacc
    rw [← matchActorOrder_trades now order hb] at hmem
    obtain ⟨t, ht, htx⟩ := List.mem_map.1 hmem
    have hamount : t.amount = min x.amount order.amount := congrArg Trade.amount htx
    have htpos := h.trades t ht
    have hxpos : 0 < x.amount := hbook _ x hx
    omega
  refine Or.inr ⟨?_, hno⟩
  by_contra hne
  -- the order itself would rest
  obtain ⟨pre, post, -, hown, -, -⟩ := matchActorOrder_own now order hb
  rw [swept_of_not_accepts hno] at hown
  rw [if_neg hne] at hown
  have hrest := h.resting order.tradingSide order (by rw [hown]; simp)
  omega

end Step

/-! ### Runs -/

/-- The orders that `Match` of an open engine hands on. -/
def acceptedOrders (requests : List MatchEngineProto.Order) : List RawOrder :=
  requests.filterMap fun request =>
    (({} : MatchEngineGRPCImpl Unit).match request).2.2

/-- The book that the orders before position `j` leave. -/
def bookBefore (clock : ℕ → Clock) (receiver : Option α) (orders : List RawOrder) (j : ℕ) :
    OrderBook α :=
  (runOrders clock { matchResultActor := receiver } (orders.take j)).2

/-- Every order of the sequence is handled as expected. -/
def SafeRun (clock : ℕ → Clock) (receiver : Option α) (orders : List RawOrder) : Prop :=
  ∀ (j : ℕ) (order : RawOrder), orders[j]? = some order →
    SafeStep (clock j) (bookBefore clock receiver orders j) order

lemma bookBefore_succ (clock : ℕ → Clock) (receiver : Option α) {orders : List RawOrder}
    {j : ℕ} {order : RawOrder} (h : orders[j]? = some order) :
    bookBefore clock receiver orders (j + 1) =
      (matchActorOrder (clock j) (bookBefore clock receiver orders j) order).1 := by
  have hlt := (List.getElem?_eq_some_iff.1 h).1
  rw [bookBefore, List.take_add_one, h, Option.toList_some, runOrders_concat,
    List.length_take_of_le hlt.le]
  rfl

lemma isInt32_of_mem_acceptedOrders {requests : List MatchEngineProto.Order} {o : RawOrder}
    (h : o ∈ acceptedOrders requests) : IsInt32 o.amount := by
  obtain ⟨request, -, hrequest⟩ := List.mem_filterMap.1 h
  have hamount : o.amount = request.amount := by
    cases hs : request.tradingSide <;>
      simp [MatchEngineGRPCImpl.match, transformGrpcOrder, hs] at hrequest <;>
      rw [← hrequest]
  rw [hamount]
  exact request.amount.property

/-- **The exact condition for amounts to behave.**  The accepted orders are handled as
expected if and only if each of them has a positive amount, or has amount zero and meets
no resting order that satisfies its limit. -/
theorem safeRun_iff (clock : ℕ → Clock) (receiver : Option α)
    (requests : List MatchEngineProto.Order) :
    SafeRun clock receiver (acceptedOrders requests) ↔
      ∀ (j : ℕ) (order : RawOrder), (acceptedOrders requests)[j]? = some order →
        Admissible (bookBefore clock receiver (acceptedOrders requests) j) order := by
  have hint : ∀ o ∈ acceptedOrders requests, IsInt32 o.amount :=
    fun o ho => isInt32_of_mem_acceptedOrders ho
  generalize acceptedOrders requests = orders at hint
  have hok : ∀ j, BookOk (bookBefore clock receiver orders j) :=
    fun j => runOrders_bookOk clock receiver _
  constructor
  · intro h j order hj
    refine admissible_of_safeStep (clock j) (hok j) ?_ (h j order hj)
    cases j with
    | zero => exact amountsIn_empty _ receiver
    | succ j =>
      have hlt : j < orders.length :=
        (Nat.lt_succ_self j).trans (List.getElem?_eq_some_iff.1 hj).1
      have ho : orders[j]? = some orders[j] := List.getElem?_eq_getElem hlt
      rw [bookBefore_succ clock receiver ho]
      exact (h j _ ho).resting
  · intro h
    have hbook : ∀ j ≤ orders.length,
        AmountsIn IsPositiveInt32 (bookBefore clock receiver orders j) := by
      intro j
      induction j with
      | zero => exact fun _ => amountsIn_empty _ receiver
      | succ j ih =>
        intro hj
        have ho : orders[j]? = some orders[j] := List.getElem?_eq_getElem hj
        rw [bookBefore_succ clock receiver ho]
        exact amountsIn_of_admissible (clock j) (hok j) (ih (Nat.le_of_lt hj))
          (hint _ (List.mem_of_getElem? ho)) (h j _ ho)
    intro j order hj
    exact safeStep_of_admissible (clock j) (hok j)
      (hbook j (List.getElem?_eq_some_iff.1 hj).1.le) (hint _ (List.mem_of_getElem? hj))
      (h j order hj)

/-- A single order to sell a negative amount rests in the book. -/
theorem not_safeRun_of_negative : ¬ SafeRun (fun _ _ => 0) (none : Option Unit)
    (acceptedOrders [⟨1, .ofInt 7, .ofInt 10, .tradingSell, .ofInt (-1),
      .ofInt 100, 0⟩]) := by
  intro h
  have hrest := (h 0 ⟨1, 7, 10, .sell, -1, 100, 0⟩ rfl).resting .sell
    ⟨1, 7, 10, .sell, -1, 100, 0⟩ (by decide)
  exact absurd hrest (by decide)

end TradingEngine.Matching
