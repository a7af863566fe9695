/-
Quantities.

Matching moves quantity from the orders to the trades and creates or loses none of it: for
every id, what the orders with this id bring in is what rests in the book under this id and
what the trades take from it (`matchActorOrder_conserves`, for any amounts and any ids).
When ids are distinct this accounts for every single order.
-/
import TradingEngine.Matching.Trades

namespace TradingEngine.Matching

open Lib MatchEngine Market

variable {α : Type}

/-! ### Quantities of an id -/

/-- The quantity of an order, counted for the id `i`. -/
def amountOf (i : ℤ) (r : RawOrder) : ℤ := if r.orderId = i then r.amount else 0

/-- The quantity that a trade takes from the order with id `i`, as maker and as taker. -/
def share (i makerId takerId amount : ℤ) : ℤ :=
  (if makerId = i then amount else 0) + (if takerId = i then amount else 0)

/-- The quantity that rests in a book under the id `i`. -/
def resting (i : ℤ) (book : OrderBook α) : ℤ :=
  ((book.queue .sell).map (amountOf i)).sum + ((book.queue .buy).map (amountOf i)).sum

/-- The quantity that trades take from the id `i`. -/
def traded (i : ℤ) (tradeList : TradeList) : ℤ :=
  (tradeList.map fun t => share i t.makerId t.takerId t.amount).sum

@[simp] lemma traded_append (i : ℤ) (ts us : TradeList) :
    traded i (ts ++ us) = traded i ts + traded i us := by
  simp [traded]

lemma resting_eq (i : ℤ) (book : OrderBook α) (side : TradingSite) :
    resting i book = ((book.queue side.opposite).map (amountOf i)).sum +
      ((book.queue side).map (amountOf i)).sum := by
  cases side with
  | buy => rfl
  | sell => exact add_comm _ _

/-- One trade takes the same quantity from both parties. -/
lemma trade_conserves (i : ℤ) (r b : RawOrder) :
    amountOf i r + amountOf i b = amountOf i (trade r b).resting +
      amountOf i (trade r b).incoming + share i (trade r b).record.makerId
        (trade r b).record.takerId (trade r b).record.amount := by
  simp only [amountOf, share, trade]
  split_ifs <;> omega

lemma swept_conserves (i : ℤ) (book : OrderBook α) (order : RawOrder) :
    ((book.queue order.tradingSide.opposite).map (amountOf i)).sum + amountOf i order =
      ((swept book order).rest.map (amountOf i)).sum + amountOf i (swept book order).incoming +
        ((swept book order).trades.map fun t => share i t.makerId t.takerId t.amount).sum := by
  refine rule.sweep_conserves (fun r b => trade_conserves i r b) ?_ _ order
  intro r hr
  have hz : r.amount = 0 := by simpa using hr
  simp [amountOf, hz]

/-- **One run of the handler moves quantity, and loses none.** -/
theorem matchActorOrder_conserves (now : Clock) {book : OrderBook α} (order : RawOrder)
    (hb : BookOk book) (i : ℤ) :
    resting i book + amountOf i order = resting i (matchActorOrder now book order).1 +
      traded i (matchActorOrder now book order).2 := by
  obtain ⟨pre, post, hflat, hown, -, -⟩ := matchActorOrder_own now order hb
  have htrades : traded i (matchActorOrder now book order).2 =
      ((swept book order).trades.map fun t => share i t.makerId t.takerId t.amount).sum := by
    rw [← matchActorOrder_trades now order hb, List.map_map]
    rfl
  have hleft : ((if (swept book order).incoming.amount = 0 then []
      else [(swept book order).incoming]).map (amountOf i)).sum =
        amountOf i (swept book order).incoming := by
    split_ifs with hz
    · simp [amountOf, hz]
    · simp
  have hswept := swept_conserves i book order
  rw [resting_eq i book order.tradingSide, resting_eq i _ order.tradingSide,
    matchActorOrder_opposite now order hb, hown, hflat, htrades]
  simp only [List.map_append, List.sum_append, hleft]
  omega

lemma runOrders_conserves (clock : ℕ → Clock) (receiver : Option α) (orders : List RawOrder)
    (i : ℤ) : (orders.map (amountOf i)).sum =
      resting i (runOrders clock ({ matchResultActor := receiver } : OrderBook α) orders).2 +
        traded i (runOrders clock ({ matchResultActor := receiver } : OrderBook α)
          orders).1.flatten := by
  induction orders using List.reverseRecOn with
  | nil => rfl
  | append_singleton orders order ih =>
    have hstep := matchActorOrder_conserves (clock orders.length) order
      (runOrders_bookOk clock receiver orders) i
    rw [runOrders_concat]
    simp only [List.map_append, List.map_cons, List.map_nil, List.sum_append, List.sum_cons,
      List.sum_nil, List.flatten_append, List.flatten_cons, List.flatten_nil,
      List.append_nil, traded_append]
    omega

/-! ### Distinct ids -/

/-- The resting orders with the id of `o`. -/
def placesOf (book : OrderBook α) (i : ℤ) : List RawOrder :=
  (book.sellList.flatten ++ book.buyList.flatten).filter fun r => r.orderId = i

/-- The amounts of the trades in which the order with id `i` is maker or taker. -/
def tradesOf (tradeLists : List TradeList) (i : ℤ) : List ℤ :=
  (tradeLists.flatten.filter fun t => t.makerId = i ∨ t.takerId = i).map MatchedTrade.amount

lemma sum_filter_amount (i : ℤ) (q : List RawOrder) :
    ((q.filter fun r => r.orderId = i).map RawOrder.amount).sum = (q.map (amountOf i)).sum := by
  induction q with
  | nil => rfl
  | cons r q ih => by_cases h : r.orderId = i <;> simp [amountOf, h, ih]

lemma sum_placesOf (book : OrderBook α) (i : ℤ) :
    ((placesOf book i).map RawOrder.amount).sum = resting i book := by
  rw [placesOf, sum_filter_amount, List.map_append, List.sum_append]
  rfl

/-- When nobody trades with himself, a trade counts once. -/
lemma sum_tradesOf {tradeLists : List TradeList}
    (h : ∀ t ∈ tradeLists.flatten, t.makerId ≠ t.takerId) (i : ℤ) :
    (tradesOf tradeLists i).sum = traded i tradeLists.flatten := by
  unfold tradesOf traded
  generalize tradeLists.flatten = ts at h ⊢
  induction ts with
  | nil => rfl
  | cons t ts ih =>
    have hne := h t List.mem_cons_self
    specialize ih fun u hu => h u (List.mem_cons_of_mem _ hu)
    rw [List.map_cons, List.sum_cons, ← ih]
    by_cases hm : t.makerId = i
    · have ht : t.takerId ≠ i := fun ht => hne (hm.trans ht.symm)
      simp [share, hm, ht]
    · by_cases ht : t.takerId = i <;> simp [share, hm, ht]

lemma sum_amountOf {orders : List RawOrder} (hnodup : (orders.map RawOrder.orderId).Nodup)
    {o : RawOrder} (ho : o ∈ orders) : (orders.map (amountOf o.orderId)).sum = o.amount := by
  induction orders with
  | nil => simp at ho
  | cons x orders ih =>
    rw [List.map_cons, List.nodup_cons] at hnodup
    obtain ⟨hx, hnodup⟩ := hnodup
    rw [List.map_cons, List.sum_cons]
    rcases List.mem_cons.1 ho with rfl | ho
    · have hzero : (orders.map (amountOf o.orderId)).sum = 0 := by
        refine List.sum_eq_zero fun a ha => ?_
        obtain ⟨y, hy, rfl⟩ := List.mem_map.1 ha
        rw [amountOf, if_neg]
        exact fun heq => hx (heq ▸ List.mem_map_of_mem hy)
      simp [amountOf, hzero]
    · have hne : x.orderId ≠ o.orderId := fun heq => hx (heq ▸ List.mem_map_of_mem ho)
      rw [ih hnodup ho, amountOf, if_neg hne, zero_add]

/-- Positions of one id are equal. -/
lemma position_inj {orders : List RawOrder} (hnodup : (orders.map RawOrder.orderId).Nodup)
    {i j : ℕ} {o o' : RawOrder} (hi : orders[i]? = some o) (hj : orders[j]? = some o')
    (h : o.orderId = o'.orderId) : i = j := by
  have hi' : (orders.map RawOrder.orderId)[i]? = some o.orderId := by simp [hi]
  have hj' : (orders.map RawOrder.orderId)[j]? = some o.orderId := by simp [hj, h]
  obtain ⟨hlt, hi'⟩ := List.getElem?_eq_some_iff.1 hi'
  obtain ⟨hlt', hj'⟩ := List.getElem?_eq_some_iff.1 hj'
  exact (hnodup.getElem_inj_iff).1 (hi'.trans hj'.symm)

/-- The resting orders with the id of `o` are what is left of `o`, at most once. -/
lemma Stamps.placesOf_spec {orders : List RawOrder} {book : OrderBook α}
    {queue : TradingSite → List (Stamped RawOrder)} (h : Stamps orders book queue)
    (hb : BookOk book) (hnodup : (orders.map RawOrder.orderId).Nodup) {o : RawOrder}
    (ho : o ∈ orders) : (placesOf book o.orderId).length ≤ 1 ∧
      ∀ r ∈ placesOf book o.orderId, SameOrder o r := by
  obtain ⟨n, hn⟩ := List.mem_iff_getElem?.1 ho
  -- all entries of this id carry the arrival number `n`, which occurs once
  have hentry : ∀ {side x}, x ∈ queue side → x.order.orderId = o.orderId →
      x.arrival = n ∧ SameOrder o x.order := by
    intro side x hx hid
    obtain ⟨o', ho', hsame⟩ := h.arrived side x hx
    have hpos := position_inj hnodup ho' hn (by rw [← hsame.orderId, hid])
    rw [hpos, hn, Option.some.injEq] at ho'
    rw [ho']
    exact ⟨hpos, hsame⟩
  have hplaces : placesOf book o.orderId =
      ((queue .sell ++ queue .buy).filter fun x => x.order.orderId = o.orderId).map
        Stamped.order := by
    have hqueue : book.sellList.flatten ++ book.buyList.flatten =
        (queue .sell ++ queue .buy).map Stamped.order := by
      rw [List.map_append, h.queue_eq, h.queue_eq]
      rfl
    rw [placesOf, hqueue, List.filter_map]
    rfl
  have hmem : ∀ {x}, x ∈ queue .sell ++ queue .buy → x.order.orderId = o.orderId →
      x.arrival = n ∧ SameOrder o x.order := by
    intro x hx hid
    rcases List.mem_append.1 hx with hx | hx <;> exact hentry hx hid
  have harrivals : ((queue .sell ++ queue .buy).map Stamped.arrival).Nodup := by
    rw [List.map_append, List.nodup_append]
    refine ⟨h.nodup .sell, h.nodup .buy, ?_⟩
    intro a ha b hb' hab
    obtain ⟨x, hx, rfl⟩ := List.mem_map.1 ha
    obtain ⟨y, hy, rfl⟩ := List.mem_map.1 hb'
    exact absurd (h.side_inj hb hx hy hab) (by decide)
  set q := (queue .sell ++ queue .buy).filter fun x => x.order.orderId = o.orderId
  constructor
  · have hrep : q.map Stamped.arrival = List.replicate q.length n := by
      refine List.eq_replicate_iff.2 ⟨List.length_map _, fun a ha => ?_⟩
      obtain ⟨x, hx, rfl⟩ := List.mem_map.1 ha
      obtain ⟨hx, hid⟩ := List.mem_filter.1 hx
      exact (hmem hx (by simpa using hid)).1
    have hnd : (q.map Stamped.arrival).Nodup :=
      harrivals.sublist (List.filter_sublist.map _)
    rw [hrep, List.nodup_replicate] at hnd
    rw [hplaces, List.length_map]
    exact hnd
  · intro r hr
    rw [hplaces] at hr
    obtain ⟨x, hx, rfl⟩ := List.mem_map.1 hr
    obtain ⟨hx, hid⟩ := List.mem_filter.1 hx
    exact (hmem hx (by simpa using hid)).2

/-- **Every order is accounted for.**  Its amount is what the trades took from it and what is
left of it in the book; it has at most one place in the two tables, and has one exactly as
long as something is left of it. -/
theorem matchActor_accounts (clock : ℕ → Clock) (receiver : Option α) (orders : List RawOrder)
    (hnodup : (orders.map RawOrder.orderId).Nodup) (hpos : ∀ o ∈ orders, 0 < o.amount) :
    let (tradeLists, book) :=
      runOrders clock ({ matchResultActor := receiver } : OrderBook α) orders
    ∀ o ∈ orders,
      o.amount = (tradesOf tradeLists o.orderId).sum +
        ((placesOf book o.orderId).map RawOrder.amount).sum ∧
      (placesOf book o.orderId).length ≤ 1 ∧ (∀ r ∈ placesOf book o.orderId, SameOrder o r) ∧
      (placesOf book o.orderId ≠ [] ↔
        0 < o.amount - (tradesOf tradeLists o.orderId).sum) := by
  have hself : ∀ t ∈ (runOrders clock ({ matchResultActor := receiver } : OrderBook α)
      orders).1.flatten, t.makerId ≠ t.takerId := by
    intro t ht hid
    obtain ⟨tradeList, htl, ht⟩ := List.mem_flatten.1 ht
    obtain ⟨j, hj⟩ := List.mem_iff_getElem?.1 htl
    obtain ⟨i, maker, taker, hij, hi, hj', htrade⟩ := runOrders_trades clock receiver hj t ht
    refine hij.ne (position_inj hnodup hi hj' ?_)
    rw [← htrade.makerId, ← htrade.takerId]
    exact hid
  have hcons := runOrders_conserves clock receiver orders
  have hb := runOrders_bookOk clock receiver orders
  have hamount := runOrders_amounts tradingRange_pos clock receiver orders hpos
  obtain ⟨queue, h⟩ := runOrders_stamps clock receiver orders
  dsimp only
  set tradeLists := (runOrders clock ({ matchResultActor := receiver } : OrderBook α) orders).1
  set book := (runOrders clock ({ matchResultActor := receiver } : OrderBook α) orders).2
  intro o ho
  obtain ⟨hlength, hsame⟩ := h.placesOf_spec hb hnodup ho
  have hsum : o.amount = (tradesOf tradeLists o.orderId).sum +
      ((placesOf book o.orderId).map RawOrder.amount).sum := by
    rw [sum_tradesOf hself, sum_placesOf, ← sum_amountOf hnodup ho, hcons, add_comm]
  refine ⟨hsum, hlength, hsame, ?_⟩
  have hplace : ∀ r ∈ placesOf book o.orderId, 0 < r.amount := by
    intro r hr
    rcases List.mem_append.1 (List.mem_filter.1 hr).1 with hr | hr
    · exact hamount .sell r hr
    · exact hamount .buy r hr
  cases hp : placesOf book o.orderId with
  | nil =>
    rw [hp] at hsum
    simp only [List.map_nil, List.sum_nil, add_zero] at hsum
    simp [← hsum]
  | cons r places =>
    rw [hp] at hsum hlength
    obtain rfl : places = [] := by
      simp only [List.length_cons] at hlength
      exact List.length_eq_zero_iff.1 (by omega)
    have hr := hplace r (by rw [hp]; exact List.mem_cons_self)
    simp only [List.map_cons, List.map_nil, List.sum_cons, List.sum_nil, add_zero] at hsum
    simp only [ne_eq, List.cons_ne_nil, not_false_eq_true, true_iff]
    omega

/-- A seller who is partly filled by two buyers. -/
theorem accounts_of_oneSeller :
    let orders : List RawOrder := [⟨1, 7, 10, .sell, 9, 100, 1⟩, ⟨2, 7, 11, .buy, 5, 100, 2⟩,
      ⟨3, 7, 12, .buy, 2, 101, 3⟩]
    let (tradeLists, book) := runOrders (fun _ _ => 0) ({} : OrderBook Unit) orders
    (orders.map RawOrder.orderId).Nodup ∧ (∀ o ∈ orders, 0 < o.amount) ∧
      tradesOf tradeLists 1 = [5, 2] ∧ placesOf book 1 = [⟨1, 7, 10, .sell, 2, 100, 1⟩] ∧
      (9 = (tradesOf tradeLists 1).sum + ((placesOf book 1).map RawOrder.amount).sum ∧
        (placesOf book 1 ≠ [] ↔ 0 < 9 - (tradesOf tradeLists 1).sum)) := by
  have h := matchActor_accounts (fun _ _ => 0) (none : Option Unit)
    [⟨1, 7, 10, .sell, 9, 100, 1⟩, ⟨2, 7, 11, .buy, 5, 100, 2⟩, ⟨3, 7, 12, .buy, 2, 101, 3⟩]
    (by decide) (by decide) _ List.mem_cons_self
  exact ⟨by decide, by decide, rfl, rfl, h.1, h.2.2.2⟩

end TradingEngine.Matching
