/-
The invariant of a reached order book.

The shape of the tables holds whatever the amounts are (`BookOk`).  When every order has a
positive amount, every resting order keeps a positive one, and the book is never crossed:
what is left of an order rests only after everything it accepts has been used up.
-/
import TradingEngine.Matching.Arrivals

namespace TradingEngine.Matching

open Lib MatchEngine Market

variable {α : Type}

/-! ### Amounts -/

/-- A range of positive amounts that trading does not leave. -/
structure TradingRange (A : ℤ → Prop) : Prop where
  pos : ∀ {a}, A a → 0 < a
  sub : ∀ {a b}, A a → A b → b < a → A (a - b)

lemma tradingRange_pos : TradingRange (0 < ·) :=
  ⟨fun h => h, fun _ _ h => sub_pos.2 h⟩

/-- The amounts of all resting orders are in the range. -/
def AmountsIn (A : ℤ → Prop) (book : OrderBook α) : Prop :=
  ∀ side, ∀ r ∈ book.queue side, A r.amount

lemma amountsIn_empty (A : ℤ → Prop) (receiver : Option α) :
    AmountsIn A ({ matchResultActor := receiver } : OrderBook α) := by
  intro side r hr
  cases side <;> simp [OrderBook.queue, OrderBook.table] at hr

/-- What is left of a party of a trade is nothing or in the range. -/
lemma TradingRange.trade {A : ℤ → Prop} (hA : TradingRange A) {r b : RawOrder}
    (hr : A r.amount) (hb : A b.amount) : 0 < (trade r b).record.amount ∧
      ((trade r b).resting.amount = 0 ∨ A (trade r b).resting.amount) ∧
      ((trade r b).incoming.amount = 0 ∨ A (trade r b).incoming.amount) := by
  have hr₀ := hA.pos hr
  have hb₀ := hA.pos hb
  simp only [Market.trade]
  rcases lt_trichotomy r.amount b.amount with h | h | h
  · rw [min_eq_left h.le]
    exact ⟨hr₀, Or.inl (sub_self _), Or.inr (hA.sub hb hr h)⟩
  · rw [h, min_self]
    exact ⟨hb₀, Or.inl (sub_self _), Or.inl (sub_self _)⟩
  · rw [min_eq_right h.le]
    exact ⟨hb₀, Or.inr (hA.sub hr hb h), Or.inl (sub_self _)⟩

lemma swept_amounts {A : ℤ → Prop} (hA : TradingRange A) {book : OrderBook α}
    (hbook : AmountsIn A book) {order : RawOrder} (ho : A order.amount) :
    (∀ t ∈ (swept book order).trades, 0 < t.amount) ∧
      (∀ r ∈ (swept book order).rest, A r.amount) ∧
      ((swept book order).incoming.amount = 0 ∨ A (swept book order).incoming.amount) := by
  refine rule.sweep_forall (I := fun b => A b.amount)
    (J := fun b => b.amount = 0 ∨ A b.amount) (P := fun r => A r.amount)
    (Q := fun r => A r.amount) (T := fun t => 0 < t.amount)
    (fun x hx => hx) (fun b hb => Or.inr hb) ?_ _ order (hbook _) ho
  intro x b hx hb _
  obtain ⟨htrade, hresting, hincoming⟩ := hA.trade hx hb
  refine ⟨htrade, fun hz => hresting.resolve_left (by simpa using hz), hincoming,
    fun hz => hincoming.resolve_left (by simpa using hz)⟩

section Handler

variable (now : Clock) {book : OrderBook α} {order : RawOrder}

/-- An order in a book after a run of the handler was left by the sweep on its side, or was
there before, or is what is left of the order that was handled. -/
lemma mem_queue_matchActorOrder (hb : BookOk book) {side : TradingSite} {r : RawOrder}
    (hr : r ∈ (matchActorOrder now book order).1.queue side) :
    (side = order.tradingSide.opposite ∧ r ∈ (swept book order).rest) ∨
      (side = order.tradingSide ∧ r ∈ book.queue side) ∨
      (side = order.tradingSide ∧ (swept book order).incoming.amount ≠ 0 ∧
        r = (swept book order).incoming) := by
  rcases eq_or_ne side order.tradingSide with rfl | hne
  · obtain ⟨pre, post, hflat, hown, -, -⟩ := matchActorOrder_own now order hb
    rw [hown] at hr
    simp only [List.mem_append] at hr
    rw [hflat]
    rcases hr with (hr | hr) | hr
    · exact Or.inr (Or.inl ⟨rfl, List.mem_append_left _ hr⟩)
    · split_ifs at hr with hz
      · simp at hr
      · exact Or.inr (Or.inr ⟨rfl, hz, List.mem_singleton.1 hr⟩)
    · exact Or.inr (Or.inl ⟨rfl, List.mem_append_right _ hr⟩)
  · obtain rfl := TradingSite.eq_opposite hne
    rw [matchActorOrder_opposite now order hb] at hr
    exact Or.inl ⟨rfl, hr⟩

lemma matchActorOrder_amounts {A : ℤ → Prop} (hA : TradingRange A) (hb : BookOk book)
    (hbook : AmountsIn A book) (ho : A order.amount) :
    AmountsIn A (matchActorOrder now book order).1 := by
  obtain ⟨-, hrest, hleft⟩ := swept_amounts hA hbook ho
  intro side r hr
  rcases mem_queue_matchActorOrder now hb hr with ⟨-, hr⟩ | ⟨-, hr⟩ | ⟨-, hz, rfl⟩
  · exact hrest r hr
  · exact hbook side r hr
  · exact hleft.resolve_left hz

/-! ### What orders have for good -/

/-- What the amount does not change holds of the trades and of the resting orders, when it
holds of the orders. -/
lemma matchActorOrder_forall {P I : RawOrder → Prop} {T : Trade → Prop}
    (hP : ∀ {o r}, SameOrder o r → P o → P r) (hI : ∀ {o r}, SameOrder o r → I o → I r)
    (hIP : ∀ {o}, I o → P o) (hT : ∀ {x b}, P x → I b → T (trade x b).record)
    (hb : BookOk book) (hbook : ∀ side, ∀ r ∈ book.queue side, P r) (ho : I order) :
    (∀ t ∈ (matchActorOrder now book order).2, T (toTrade t)) ∧
      ∀ side, ∀ r ∈ (matchActorOrder now book order).1.queue side, P r := by
  obtain ⟨htrades, hrest, hincoming⟩ := rule.sweep_forall (I := I) (J := I) (P := P) (Q := P)
    (T := T) (fun _ h => h) (fun _ h => h)
    (fun x b hx hb _ => ⟨hT hx hb, fun _ => hP (sameOrder_resting x b) hx,
      hI (sameOrder_incoming x b) hb, fun _ => hI (sameOrder_incoming x b) hb⟩)
    (book.queue order.tradingSide.opposite) order (hbook _) ho
  refine ⟨fun t ht => htrades (toTrade t) ?_, fun side r hr => ?_⟩
  · rw [← swept, ← matchActorOrder_trades now order hb]
    exact List.mem_map_of_mem ht
  · rcases mem_queue_matchActorOrder now hb hr with ⟨-, hr⟩ | ⟨-, hr⟩ | ⟨-, -, rfl⟩
    · exact hrest r hr
    · exact hbook side r hr
    · exact hIP hincoming

/-- The ids of trades and of resting orders are those of orders. -/
lemma matchActorOrder_ids {K : Set ℤ} (hb : BookOk book)
    (hbook : ∀ side, ∀ r ∈ book.queue side, r.orderId ∈ K) (ho : order.orderId ∈ K) :
    (∀ t ∈ (matchActorOrder now book order).2, t.makerId ∈ K ∧ t.takerId ∈ K) ∧
      ∀ side, ∀ r ∈ (matchActorOrder now book order).1.queue side, r.orderId ∈ K := by
  have hsame : ∀ {o r : RawOrder}, SameOrder o r → o.orderId ∈ K → r.orderId ∈ K := by
    intro o r h ho
    rwa [h.orderId]
  exact matchActorOrder_forall now (T := fun t => t.makerId ∈ K ∧ t.takerId ∈ K) hsame hsame id
    (fun hx hb => ⟨hx, hb⟩) hb hbook ho

/-- The trades have the symbol of the order. -/
lemma matchActorOrder_symbolId (hb : BookOk book) :
    ∀ t ∈ (matchActorOrder now book order).2, t.symbolId = order.symbolId :=
  (matchActorOrder_forall now (P := fun _ => True) (I := fun o => o.symbolId = order.symbolId)
    (T := fun t => t.symbolId = order.symbolId) (fun _ _ => trivial)
    (fun h ho => h.symbolId.trans ho) (fun _ => trivial) (fun _ hb => hb) hb
    (fun _ _ _ => trivial) rfl).1

/-! ### The two sides do not cross -/

/-- No two resting orders could trade with each other. -/
def Uncrossed (book : OrderBook α) : Prop :=
  ∀ side, ∀ r ∈ book.queue side, ∀ s ∈ book.queue side.opposite, ¬ accepts r s

lemma uncrossed_empty (receiver : Option α) :
    Uncrossed ({ matchResultActor := receiver } : OrderBook α) := by
  intro side r hr
  cases side <;> simp [OrderBook.queue, OrderBook.table] at hr

lemma accepts_comm {r s : RawOrder} : accepts r s ↔ accepts s r := by
  rw [accepts_iff, accepts_iff]
  constructor <;> rintro (⟨h, h', hp⟩ | ⟨h, h', hp⟩)
  · exact Or.inr ⟨h', h, hp⟩
  · exact Or.inl ⟨h', h, hp⟩
  · exact Or.inr ⟨h', h, hp⟩
  · exact Or.inl ⟨h', h, hp⟩

/-- Nothing that the sweep leaves is acceptable to what is left of the order. -/
lemma swept_rest_not_accepts (hb : BookOk book)
    (hz : (swept book order).incoming.amount ≠ 0) :
    ∀ s ∈ (swept book order).rest, ¬ accepts order s :=
  rule_priced.sweep_rest_not_accepts _ order (hb.table_ok order.tradingSide.opposite).side_eq
    (hb.table_ok order.tradingSide.opposite).flatten_sorted (by simpa [swept] using hz)

lemma matchActorOrder_uncrossed (hb : BookOk book) (h : Uncrossed book) :
    Uncrossed (matchActorOrder now book order).1 := by
  -- the rest of the opposite side against the own side
  have hkey : ∀ r ∈ (matchActorOrder now book order).1.queue order.tradingSide,
      ∀ s ∈ (matchActorOrder now book order).1.queue order.tradingSide.opposite,
        ¬ accepts r s := by
    intro r hr s hs hacc
    rw [matchActorOrder_opposite now order hb] at hs
    rcases mem_queue_matchActorOrder now hb hr with ⟨hside, -⟩ | ⟨-, hr⟩ | ⟨-, hz, rfl⟩
    · exact TradingSite.ne_opposite _ hside.symm
    · obtain ⟨x, hx, hxs⟩ := exists_mem_of_sublistForall₂ (sweep_rest_sameOrder _ order) s hs
      refine h _ r hr x hx ?_
      rw [accepts_comm, ← hxs.accepts, accepts_comm]
      exact hacc
    · rw [(swept_sameOrder book order).accepts] at hacc
      exact swept_rest_not_accepts hb hz s hs hacc
  intro side
  rcases eq_or_ne side order.tradingSide with rfl | hne
  · exact hkey
  · obtain rfl := TradingSite.eq_opposite hne
    intro r hr s hs hacc
    have hopp : order.tradingSide.opposite.opposite = order.tradingSide :=
      TradingSite.eq_opposite (TradingSite.ne_opposite _).symm
    rw [hopp] at hs
    exact hkey s hs r hr (accepts_comm.1 hacc)

end Handler

lemma runOrders_amounts {A : ℤ → Prop} (hA : TradingRange A) (clock : ℕ → Clock)
    (receiver : Option α) (orders : List RawOrder) (horders : ∀ o ∈ orders, A o.amount) :
    AmountsIn A (runOrders clock ({ matchResultActor := receiver } : OrderBook α) orders).2 := by
  induction orders using List.reverseRecOn with
  | nil => exact amountsIn_empty A receiver
  | append_singleton orders order ih =>
    rw [runOrders_concat]
    exact matchActorOrder_amounts _ hA (runOrders_bookOk clock receiver orders)
      (ih fun o ho => horders o (List.mem_append_left _ ho)) (horders order (by simp))

lemma runOrders_uncrossed (clock : ℕ → Clock) (receiver : Option α) (orders : List RawOrder) :
    Uncrossed (runOrders clock ({ matchResultActor := receiver } : OrderBook α) orders).2 := by
  induction orders using List.reverseRecOn with
  | nil => exact uncrossed_empty receiver
  | append_singleton orders order ih =>
    rw [runOrders_concat]
    exact matchActorOrder_uncrossed _ (runOrders_bookOk clock receiver orders) ih

/-! ### The whole invariant -/

/-- The invariant of one table; `better` orders the prices of its levels. -/
structure TableWellFormed (orders : List RawOrder) (side : TradingSite)
    (better : ℤ → ℤ → Prop) (orderTable : OrderTable) : Prop where
  ne_nil : ∀ l ∈ orderTable, l ≠ []
  same_price : ∀ l ∈ orderTable, ∀ r ∈ l, ∀ s ∈ l, r.price = s.price
  sorted : orderTable.Pairwise fun l l' => ∀ r ∈ l, ∀ s ∈ l', better r.price s.price
  side_eq : ∀ l ∈ orderTable, ∀ r ∈ l, r.tradingSide = side
  positive : ∀ l ∈ orderTable, ∀ r ∈ l, 0 < r.amount
  /-- The orders of a level are some of the orders handled so far, by increasing position. -/
  arrival : ∀ l ∈ orderTable, ∃ positions : List ℕ, positions.Pairwise (· < ·) ∧
    List.Forall₂ (fun n r => ∃ o, orders[n]? = some o ∧ SameOrder o r) positions l

/-- The invariant of a book that has handled `orders`. -/
structure WellFormed (orders : List RawOrder) (book : OrderBook α) : Prop where
  sell : TableWellFormed orders .sell (· < ·) book.sellList
  buy : TableWellFormed orders .buy (· > ·) book.buyList
  uncrossed : ∀ b ∈ book.buyList.flatten, ∀ s ∈ book.sellList.flatten, b.price < s.price

/-- A level of a table is a part of the queue, in order of arrival. -/
lemma Stamps.level_arrival {orders : List RawOrder} {book : OrderBook α}
    {queue : TradingSite → List (Stamped RawOrder)} (h : Stamps orders book queue)
    (hb : BookOk book) {side : TradingSite} {l : RawOrderList} (hl : l ∈ book.table side) :
    ∃ positions : List ℕ, positions.Pairwise (· < ·) ∧
      List.Forall₂ (fun n r => ∃ o, orders[n]? = some o ∧ SameOrder o r) positions l := by
  obtain ⟨above, below, hsplit⟩ := List.append_of_mem hl
  have hqueue : (queue side).map Stamped.order = above.flatten ++ (l ++ below.flatten) := by
    rw [h.queue_eq side, OrderBook.queue, hsplit]
    simp
  obtain ⟨qa, q, hqa, -, hq⟩ := List.map_eq_append_iff.1 hqueue
  obtain ⟨ql, qb, rfl, rfl, -⟩ := List.map_eq_append_iff.1 hq
  have hmem : ∀ x ∈ ql, x ∈ queue side := by
    intro x hx
    rw [hqa]
    exact List.mem_append_right _ (List.mem_append_left _ hx)
  refine ⟨ql.map Stamped.arrival, ?_, ?_⟩
  · have hsorted : ql.Pairwise Before := by
      have hall := h.sorted side
      rw [hqa, List.pairwise_append, List.pairwise_append] at hall
      exact hall.2.1.1
    rw [List.pairwise_map]
    refine hsorted.imp_of_mem ?_
    rintro x y hx hy ⟨hside, hlt | ⟨-, hlt⟩⟩
    · have hprice := (hb.table_ok side).same_price _ hl x.order (List.mem_map_of_mem hx)
        y.order (List.mem_map_of_mem hy)
      exact absurd ((rank_eq_iff hside).2 hprice) hlt.ne
    · exact hlt
  · rw [List.forall₂_map_left_iff, List.forall₂_map_right_iff, List.forall₂_same]
    exact fun x hx => h.arrived side x (hmem x hx)

/-- **Every reached book is well formed.** -/
theorem runOrders_wellFormed (clock : ℕ → Clock) (receiver : Option α)
    (orders : List RawOrder) (hpos : ∀ o ∈ orders, 0 < o.amount) : WellFormed orders
      (runOrders clock ({ matchResultActor := receiver } : OrderBook α) orders).2 := by
  have hb := runOrders_bookOk clock receiver orders
  have hamount := runOrders_amounts tradingRange_pos clock receiver orders hpos
  have hcross := runOrders_uncrossed clock receiver orders
  obtain ⟨queue, h⟩ := runOrders_stamps clock receiver orders
  set book := (runOrders clock ({ matchResultActor := receiver } : OrderBook α) orders).2
  have hmem : ∀ {side l r}, l ∈ book.table side → r ∈ l → r ∈ book.queue side :=
    fun hl hr => List.mem_flatten.2 ⟨_, hl, hr⟩
  have hside : ∀ {side}, ∀ r ∈ book.queue side, r.tradingSide = side :=
    fun {side} => (hb.table_ok side).side_eq
  have htable : ∀ side better,
      (∀ r s : RawOrder, r.tradingSide = side → s.tradingSide = side → rank r < rank s →
        better r.price s.price) → TableWellFormed orders side better (book.table side) := by
    intro side better hbetter
    refine ⟨(hb.table_ok side).ne_nil, (hb.table_ok side).same_price, ?_,
      fun l hl r hr => hside r (hmem hl hr), fun l hl r hr => hamount side r (hmem hl hr),
      fun l hl => h.level_arrival hb hl⟩
    refine (hb.table_ok side).sorted.imp_of_mem ?_
    intro l l' hl hl' hlt r hr s hs
    exact hbetter r s (hside r (hmem hl hr)) (hside s (hmem hl' hs)) (hlt r hr s hs)
  refine ⟨htable .sell _ ?_, htable .buy _ ?_, ?_⟩
  · intro r s hr hs hlt
    rwa [rank_of_sell hr, rank_of_sell hs] at hlt
  · intro r s hr hs hlt
    rw [rank_of_buy hr, rank_of_buy hs] at hlt
    exact neg_lt_neg_iff.1 hlt
  · intro b hbuy s hsell
    by_contra hle
    exact hcross .buy b hbuy s hsell
      (accepts_iff.2 (Or.inl ⟨hside b hbuy, hside s hsell, not_lt.1 hle⟩))

/-- A book with two levels on one side, one of them with two orders. -/
theorem wellFormed_of_threeSellers :
    let orders : List RawOrder := [⟨1, 7, 10, .sell, 6, 100, 1⟩, ⟨2, 7, 11, .sell, 5, 99, 2⟩,
      ⟨3, 7, 12, .sell, 8, 100, 3⟩, ⟨4, 7, 13, .buy, 2, 99, 4⟩, ⟨5, 7, 13, .buy, 2, 98, 5⟩]
    (∀ o ∈ orders, 0 < o.amount) ∧ WellFormed orders ({
      sellList := [[⟨2, 7, 11, .sell, 3, 99, 2⟩],
        [⟨1, 7, 10, .sell, 6, 100, 1⟩, ⟨3, 7, 12, .sell, 8, 100, 3⟩]]
      buyList := [[⟨5, 7, 13, .buy, 2, 98, 5⟩]] } : OrderBook Unit) :=
  ⟨by decide, runOrders_wellFormed (fun _ _ => 0) (none : Option Unit)
    [⟨1, 7, 10, .sell, 6, 100, 1⟩, ⟨2, 7, 11, .sell, 5, 99, 2⟩, ⟨3, 7, 12, .sell, 8, 100, 3⟩,
      ⟨4, 7, 13, .buy, 2, 99, 4⟩, ⟨5, 7, 13, .buy, 2, 98, 5⟩] (by decide)⟩

end TradingEngine.Matching
