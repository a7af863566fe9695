/-
What a sequence of trades makes of the orders in the table.

The rows that are persisted for an order are the prefix sums of the amounts of its trades
(`handleMatchResults_recorded`).  The induction is on the trades, from the last one; an order
that still has a trade to come has not reached its amount, so that it is in the table.
-/
import TradingEngine.OrderManager.Steps

namespace TradingEngine.OrderManager

open MatchEngineProto (Trade)

/-! ### One trade after another -/

/-- `HandleMatchResult` for one trade after another: the table, and the rows. -/
def handleMatchResults (statusMap : OrderStatusMap) : List Trade → OrderStatusMap × List Record
  | [] => (statusMap, [])
  | trade :: trades =>
    let (statusMap, records) := handleMatchResult statusMap trade
    let (statusMap, later) := handleMatchResults statusMap trades
    (statusMap, records ++ later)

lemma handleMatchResults_concat (statusMap : OrderStatusMap) (trades : List Trade)
    (trade : Trade) : handleMatchResults statusMap (trades ++ [trade]) =
      ((handleMatchResult (handleMatchResults statusMap trades).1 trade).1,
        (handleMatchResults statusMap trades).2 ++
          (handleMatchResult (handleMatchResults statusMap trades).1 trade).2) := by
  induction trades generalizing statusMap with
  | nil => simp [handleMatchResults]
  | cons first trades ih =>
    simp [handleMatchResults, ih]

/-- The trades that are received. -/
def received : List Event → List Trade
  | [] => []
  | .receive trade :: es => trade :: received es
  | _ :: es => received es

/-- The rows that are still to be persisted. -/
def OrderManagerService.pending (s : OrderManagerService) : List Record :=
  match s.handling with
  | some (_, records) => records
  | none => []

lemma received_append (es es' : List Event) :
    received (es ++ es') = received es ++ received es' := by
  induction es with
  | nil => rfl
  | cons e es ih => cases e <;> simp [received, ih]

/-- **The thread that reads the trades** handles them one after another. -/
theorem handleMatchResults_of_steps {s s' : OrderManagerService} {es : List Event}
    (hevents : ∀ e ∈ es, (∃ trade, e = .receive trade) ∨ e = .persistTrade)
    (hidle : s.handling = none) (hsteps : es.foldlM OrderManagerService.step s = some s') :
    s'.orderIdToOrderStatus = (handleMatchResults s.orderIdToOrderStatus (received es)).1 ∧
      s'.orderStore ++ s'.pending =
        s.orderStore ++ (handleMatchResults s.orderIdToOrderStatus (received es)).2 := by
  induction es using List.reverseRecOn generalizing s' with
  | nil =>
    obtain rfl := Option.some.inj hsteps
    simp [received, handleMatchResults, OrderManagerService.pending, hidle]
  | append_singleton es e ih =>
    rw [List.foldlM_append, Option.bind_eq_bind, Option.bind_eq_some_iff] at hsteps
    obtain ⟨s₁, hs₁, hstep⟩ := hsteps
    simp only [List.foldlM_cons, List.foldlM_nil, Option.bind_eq_bind, Option.pure_def,
      Option.bind_fun_some] at hstep
    obtain ⟨hmap, hstore⟩ := ih (fun e' he' => hevents e' (List.mem_append_left _ he')) hs₁
    rcases hevents e (by simp) with ⟨trade, rfl⟩ | rfl
    · cases OrderManagerService.step_spec hstep with
      | receive _ hhandling =>
        simp only [OrderManagerService.pending, hhandling, List.append_nil] at hstore
        rw [received_append]
        simp only [received, handleMatchResults_concat, ← hmap]
        refine ⟨trivial, ?_⟩
        rw [hstore, List.append_assoc]
        congr 2
        unfold OrderManagerService.pending
        split_ifs with hnil <;> simp [hnil]
    · cases OrderManagerService.step_spec hstep with
      | @persistTrade trade record records hhandling =>
        rw [received_append]
        simp only [received, List.append_nil, OrderManagerService.persistOrder]
        refine ⟨hmap, ?_⟩
        rw [← hstore]
        simp only [OrderManagerService.pending, hhandling]
        split_ifs with hnil <;> simp [hnil]

/-! ### Prefix sums -/

/-- The sums of the first amounts, from one amount on. -/
def prefixSums (amounts : List ℤ) : List ℤ :=
  (List.range amounts.length).map fun i => (amounts.take (i + 1)).sum

lemma prefixSums_concat (amounts : List ℤ) (amount : ℤ) :
    prefixSums (amounts ++ [amount]) = prefixSums amounts ++ [amounts.sum + amount] := by
  rw [prefixSums, List.length_append, List.length_singleton, List.range_succ, List.map_append,
    List.map_singleton, List.take_of_length_le (by simp), List.sum_append, List.sum_singleton]
  congr 1
  refine List.map_congr_left fun i hi => ?_
  rw [List.mem_range] at hi
  rw [List.take_append_of_le_length (by omega)]

/-- Positive amounts add up to less before the last one. -/
lemma sum_take_lt {amounts : List ℤ} (hpos : ∀ a ∈ amounts, 0 < a) {n : ℕ}
    (hn : n < amounts.length) : (amounts.take n).sum < amounts.sum := by
  have hrest : 0 < (amounts.drop n).sum := by
    refine List.sum_pos _ (fun a ha => hpos a (List.mem_of_mem_drop ha)) ?_
    rw [ne_eq, List.drop_eq_nil_iff]
    omega
  have hsum := List.sum_take_add_sum_drop amounts n
  omega

/-! ### The rows of an order -/

/-- The row of an order of which this amount is concluded. -/
def concludedRow (order : Order) (sum : ℤ) : Record where
  order := order
  status := if sum < order.amount then "partially concluded" else "concluded"
  concludedAmount := sum

/-- The table when these orders are placed. -/
def tableOf (placed : List Order) : OrderStatusMap := placed.foldl saveOrderStatus fun _ => none

/-- The rows that were persisted for an order. -/
def recordsFor (orderId : ℤ) (records : List Record) : List Record :=
  records.filter fun r => r.order.orderId = orderId

/-- Trades between the orders that are placed. -/
structure Tradable (placed : List Order) (trades : List Trade) : Prop where
  ids : (placed.map Order.orderId).Nodup
  positive : ∀ t ∈ trades, 0 < t.amount
  distinct : ∀ t ∈ trades, t.makerId ≠ t.takerId
  maker : ∀ t ∈ trades, ∃ order ∈ placed, order.orderId = t.makerId
  taker : ∀ t ∈ trades, ∃ order ∈ placed, order.orderId = t.takerId
  total : ∀ order ∈ placed, (tradesFor order.orderId trades).sum ≤ order.amount

/-- The amount of an order is reached by these trades. -/
def Reached (order : Order) (trades : List Trade) : Prop :=
  tradesFor order.orderId trades ≠ [] ∧ (tradesFor order.orderId trades).sum = order.amount

instance (order : Order) (trades : List Trade) : Decidable (Reached order trades) :=
  inferInstanceAs (Decidable (_ ∧ _))

/-- The table and the rows are what the trades of every order add up to. -/
structure Recorded (placed : List Order) (trades : List Trade)
    (result : OrderStatusMap × List Record) : Prop where
  records : ∀ order ∈ placed, recordsFor order.orderId result.2 =
    (prefixSums (tradesFor order.orderId trades)).map (concludedRow order)
  table : ∀ order ∈ placed, result.1 order.orderId =
    if Reached order trades then none
    else some ⟨order, (tradesFor order.orderId trades).sum⟩

/-- Of the rows of an order only the last one says that it is concluded, and only when its amount
is reached. -/
def ConcludedOnce (order : Order) (trades : List Trade) (records : List Record) : Prop :=
  ∀ (i : ℕ) (r : Record), records[i]? = some r → r.status =
    if i + 1 = records.length ∧ Reached order trades then "concluded" else "partially concluded"

section Trades

variable {placed : List Order} {trades : List Trade} {trade : Trade}

lemma tradesFor_of_ne {id : ℤ} (hm : id ≠ trade.makerId) (ht : id ≠ trade.takerId) :
    tradesFor id [trade] = [] := by
  simp [tradesFor, hm, ht]

lemma tradesFor_of_eq {id : ℤ} (h : id = trade.makerId ∨ id = trade.takerId) :
    tradesFor id [trade] = [trade.amount] := by
  simp [tradesFor, h]

/-- The trades of an order have positive amounts. -/
lemma Tradable.amounts (h : Tradable placed trades) (id : ℤ) :
    ∀ a ∈ tradesFor id trades, 0 < a := by
  intro a ha
  obtain ⟨t, ht, rfl⟩ := List.mem_map.1 ha
  exact h.positive t (List.mem_of_mem_filter ht)

lemma Tradable.of_concat (h : Tradable placed (trades ++ [trade])) : Tradable placed trades where
  ids := h.ids
  positive t ht := h.positive t (List.mem_append_left _ ht)
  distinct t ht := h.distinct t (List.mem_append_left _ ht)
  maker t ht := h.maker t (List.mem_append_left _ ht)
  taker t ht := h.taker t (List.mem_append_left _ ht)
  total order horder := by
    have htotal := h.total order horder
    have hlast : 0 ≤ (tradesFor order.orderId [trade]).sum := by
      refine List.sum_nonneg fun a ha => (h.amounts order.orderId a ?_).le
      rw [tradesFor_append]
      exact List.mem_append_right _ ha
    rw [tradesFor_append, List.sum_append] at htotal
    omega

/-- Placed orders with one id are one order. -/
lemma Tradable.inj (h : Tradable placed trades) {order order' : Order} (horder : order ∈ placed)
    (horder' : order' ∈ placed) (hid : order.orderId = order'.orderId) : order = order' :=
  List.inj_on_of_nodup_map h.ids horder horder' hid

/-- Every order that is placed is in the table. -/
lemma tableOf_eq (hids : (placed.map Order.orderId).Nodup) {order : Order}
    (horder : order ∈ placed) : tableOf placed order.orderId = some ⟨order, 0⟩ := by
  induction placed using List.reverseRecOn with
  | nil => cases horder
  | append_singleton placed last ih =>
    rw [List.map_append, List.nodup_append] at hids
    obtain ⟨hnodup, -, hapart⟩ := hids
    rw [tableOf, List.foldl_append, List.foldl_cons, List.foldl_nil]
    rcases List.mem_append.1 horder with hmem | hmem
    · have hne : order.orderId ≠ last.orderId :=
        hapart _ (List.mem_map_of_mem hmem) _ (List.mem_singleton_self _)
      rw [saveOrderStatus, if_neg hne]
      exact ih hnodup hmem
    · rw [List.mem_singleton.1 hmem, saveOrderStatus, if_pos rfl]

/-- An order with a trade to come has not reached its amount. -/
lemma Recorded.entry {result : OrderStatusMap × List Record} (h : Recorded placed trades result)
    (htradable : Tradable placed (trades ++ [trade])) {order : Order} (horder : order ∈ placed)
    (hid : order.orderId = trade.makerId ∨ order.orderId = trade.takerId) :
    result.1 order.orderId = some ⟨order, (tradesFor order.orderId trades).sum⟩ := by
  rw [h.table order horder, if_neg]
  rintro ⟨-, hsum⟩
  have htotal := htradable.total order horder
  have hpos := htradable.positive trade (by simp)
  rw [tradesFor_append, tradesFor_of_eq hid, List.sum_append, List.sum_singleton] at htotal
  omega

lemma tradeRecord_add (order : Order) (sum amount : ℤ) :
    tradeRecord (OrderStatus.add ⟨order, sum⟩ amount) = concludedRow order (sum + amount) := by
  unfold tradeRecord concludedRow OrderStatus.add
  by_cases h : sum + amount < order.amount
  · simp only [if_pos h, if_neg (not_le.2 h)]
  · simp only [if_neg h, if_pos (not_lt.1 h)]

/-- What the next trade makes of the order of an entry. -/
lemma handleMatchResult_entry {statusMap : OrderStatusMap} {maker taker order : Order}
    {makerSum takerSum sum : ℤ} (hm : statusMap trade.makerId = some ⟨maker, makerSum⟩)
    (ht : statusMap trade.takerId = some ⟨taker, takerSum⟩) (hne : trade.makerId ≠ trade.takerId)
    (hid : order.orderId = trade.makerId ∨ order.orderId = trade.takerId)
    (hentry : statusMap order.orderId = some ⟨order, sum⟩) :
    (handleMatchResult statusMap trade).1 order.orderId =
      if order.amount ≤ sum + trade.amount then none else some ⟨order, sum + trade.amount⟩ := by
  have hby : concludedBy trade order.orderId = trade.amount := by
    rcases hid with hid | hid
    · simp [concludedBy, hid, hne]
    · simp [concludedBy, hid, hne.symm]
  rw [(handleMatchResult_spec hm ht).1, hentry, Option.bind_some, hby]
  simp only [hid, true_and, OrderStatus.Concluded, OrderStatus.add]

/-- The next trade leaves a row for the maker and one for the taker. -/
lemma Recorded.rows {result : OrderStatusMap × List Record} (h : Recorded placed trades result)
    (htradable : Tradable placed (trades ++ [trade])) {maker taker : Order}
    (hmaker : maker ∈ placed) (htaker : taker ∈ placed) (hmakerId : maker.orderId = trade.makerId)
    (htakerId : taker.orderId = trade.takerId) : (handleMatchResult result.1 trade).2 =
      [concludedRow maker ((tradesFor maker.orderId trades).sum + trade.amount),
        concludedRow taker ((tradesFor taker.orderId trades).sum + trade.amount)] := by
  have hne := htradable.distinct trade (by simp)
  have hm := h.entry htradable hmaker (Or.inl hmakerId)
  have ht := h.entry htradable htaker (Or.inr htakerId)
  rw [hmakerId] at hm
  rw [htakerId] at ht
  rw [(handleMatchResult_spec hm ht).2, tradeRecord_add, tradeRecord_add, hmakerId, htakerId]
  simp [concludedBy, hne, hne.symm]

/-- The next trade adds its sum to the rows of its two orders. -/
lemma Recorded.records_concat {result : OrderStatusMap × List Record}
    (h : Recorded placed trades result) (htradable : Tradable placed (trades ++ [trade]))
    {order : Order} (horder : order ∈ placed) :
    recordsFor order.orderId (result.2 ++ (handleMatchResult result.1 trade).2) =
      (prefixSums (tradesFor order.orderId (trades ++ [trade]))).map (concludedRow order) := by
  have hne := htradable.distinct trade (by simp)
  obtain ⟨maker, hmaker, hmakerId⟩ := htradable.maker trade (by simp)
  obtain ⟨taker, htaker, htakerId⟩ := htradable.taker trade (by simp)
  have hold := h.records order horder
  rw [recordsFor] at hold
  rw [recordsFor, List.filter_append, hold, h.rows htradable hmaker htaker hmakerId htakerId,
    tradesFor_append]
  by_cases hisMaker : order.orderId = trade.makerId
  · obtain rfl := htradable.inj horder hmaker (hisMaker.trans hmakerId.symm)
    have hother : taker.orderId ≠ order.orderId := by
      rw [htakerId, hmakerId]
      exact hne.symm
    rw [tradesFor_of_eq (Or.inl hisMaker), prefixSums_concat, List.map_append]
    simp [concludedRow, hother]
  · by_cases hisTaker : order.orderId = trade.takerId
    · obtain rfl := htradable.inj horder htaker (hisTaker.trans htakerId.symm)
      have hother : maker.orderId ≠ order.orderId := by
        rw [hmakerId, htakerId]
        exact hne
      rw [tradesFor_of_eq (Or.inr hisTaker), prefixSums_concat, List.map_append]
      simp [concludedRow, hother]
    · have hnotMaker : maker.orderId ≠ order.orderId := by
        rw [hmakerId]
        exact fun heq => hisMaker heq.symm
      have hnotTaker : taker.orderId ≠ order.orderId := by
        rw [htakerId]
        exact fun heq => hisTaker heq.symm
      rw [tradesFor_of_ne hisMaker hisTaker, List.append_nil]
      simp [concludedRow, hnotMaker, hnotTaker]

/-- The next trade takes an order out of the table when it reaches the amount. -/
lemma Recorded.table_concat {result : OrderStatusMap × List Record}
    (h : Recorded placed trades result) (htradable : Tradable placed (trades ++ [trade]))
    {order : Order} (horder : order ∈ placed) :
    (handleMatchResult result.1 trade).1 order.orderId =
      if Reached order (trades ++ [trade]) then none
      else some ⟨order, (tradesFor order.orderId (trades ++ [trade])).sum⟩ := by
  by_cases hid : order.orderId = trade.makerId ∨ order.orderId = trade.takerId
  · obtain ⟨maker, hmaker, hmakerId⟩ := htradable.maker trade (by simp)
    obtain ⟨taker, htaker, htakerId⟩ := htradable.taker trade (by simp)
    have hm := h.entry htradable hmaker (Or.inl hmakerId)
    have ht := h.entry htradable htaker (Or.inr htakerId)
    rw [hmakerId] at hm
    rw [htakerId] at ht
    have hentry := h.entry htradable horder hid
    have htotal := htradable.total order horder
    rw [tradesFor_append, tradesFor_of_eq hid, List.sum_append, List.sum_singleton] at htotal
    have hreached : Reached order (trades ++ [trade]) ↔
        order.amount ≤ (tradesFor order.orderId trades).sum + trade.amount := by
      rw [Reached, tradesFor_append, tradesFor_of_eq hid, List.sum_append, List.sum_singleton]
      constructor
      · rintro ⟨-, hsum⟩
        omega
      · intro hle
        exact ⟨by simp, by omega⟩
    rw [handleMatchResult_entry hm ht (htradable.distinct trade (by simp)) hid hentry]
    simp only [hreached, tradesFor_append, tradesFor_of_eq hid, List.sum_append,
      List.sum_singleton]
  · rw [not_or] at hid
    have hsame : tradesFor order.orderId (trades ++ [trade]) =
        tradesFor order.orderId trades := by
      rw [tradesFor_append, tradesFor_of_ne hid.1 hid.2, List.append_nil]
    have hreached : Reached order (trades ++ [trade]) ↔ Reached order trades := by
      rw [Reached, hsame, Reached]
    rw [handleMatchResult_other hid.1 hid.2, h.table order horder]
    simp only [hreached, hsame]

/-- **The next trade** keeps what the trades add up to. -/
lemma Recorded.concat {result : OrderStatusMap × List Record} (h : Recorded placed trades result)
    (htradable : Tradable placed (trades ++ [trade])) :
    Recorded placed (trades ++ [trade]) ((handleMatchResult result.1 trade).1,
      result.2 ++ (handleMatchResult result.1 trade).2) where
  records _ horder := h.records_concat htradable horder
  table _ horder := h.table_concat htradable horder

/-- **The trades of every order add up.** -/
theorem handleMatchResults_adds (h : Tradable placed trades) :
    Recorded placed trades (handleMatchResults (tableOf placed) trades) := by
  induction trades using List.reverseRecOn with
  | nil =>
    refine ⟨fun order _ => rfl, fun order horder => ?_⟩
    rw [if_neg fun hreached => hreached.1 rfl]
    exact tableOf_eq h.ids horder
  | append_singleton trades trade ih =>
    rw [handleMatchResults_concat]
    exact (ih h.of_concat).concat h

lemma Tradable.of_prefix (h : Tradable placed trades) {soFar : List Trade}
    (hbefore : soFar <+: trades) : Tradable placed soFar := by
  obtain ⟨rest, rfl⟩ := hbefore
  induction rest using List.reverseRecOn with
  | nil => rwa [List.append_nil] at h
  | append_singleton rest last ih =>
    rw [← List.append_assoc] at h
    exact ih h.of_concat

lemma Recorded.concludedOnce {result : OrderStatusMap × List Record}
    (h : Recorded placed trades result) (htradable : Tradable placed trades) {order : Order}
    (horder : order ∈ placed) : ConcludedOnce order trades (recordsFor order.orderId result.2) := by
  have htotal := htradable.total order horder
  set amounts := tradesFor order.orderId trades with hamounts
  intro i r hr
  rw [h.records order horder, ← hamounts, List.getElem?_map, prefixSums, List.getElem?_map] at hr
  rw [h.records order horder, ← hamounts, List.length_map, prefixSums, List.length_map,
    List.length_range]
  have hi : i < amounts.length := by
    by_contra hge
    rw [List.getElem?_eq_none (by simpa using hge)] at hr
    cases hr
  rw [List.getElem?_range hi, Option.map_some, Option.map_some, Option.some.injEq] at hr
  rw [← hr, concludedRow]
  rcases Nat.lt_or_eq_of_le (show i + 1 ≤ amounts.length by omega) with hmore | hlast
  · -- there are trades to come
    have hlt : (amounts.take (i + 1)).sum < amounts.sum :=
      sum_take_lt (htradable.amounts order.orderId) hmore
    rw [if_pos (by omega), if_neg]
    rintro ⟨heq, -⟩
    omega
  · have hall : (amounts.take (i + 1)).sum = amounts.sum := by
      rw [List.take_of_length_le (by omega)]
    have hreached : Reached order trades ↔ ¬ amounts.sum < order.amount := by
      rw [Reached, ← hamounts, not_lt]
      constructor
      · rintro ⟨-, hsum⟩
        exact hsum.ge
      · intro hge
        exact ⟨List.ne_nil_of_length_pos (by omega), le_antisymm htotal hge⟩
    rw [hall]
    simp only [hreached, hlast, true_and, ite_not]

end Trades

/-- **The rows of the trades.**  After every trade, the rows of an order are the prefix sums of
the amounts of its trades; the last one says that the order is concluded when the sum is its
amount, and then the order has left the table.  Other orders keep their entries, and a trade of
an order that is not in the table does nothing. -/
theorem handleMatchResults_recorded (placed : List Order) (trades : List Trade)
    (h : Tradable placed trades) :
    (∀ soFar, soFar <+: trades →
      Recorded placed soFar (handleMatchResults (tableOf placed) soFar) ∧
        ∀ order ∈ placed, ConcludedOnce order soFar
          (recordsFor order.orderId (handleMatchResults (tableOf placed) soFar).2)) ∧
    (∀ (statusMap : OrderStatusMap) (trade : Trade) (id : ℤ), id ≠ trade.makerId →
      id ≠ trade.takerId → (handleMatchResult statusMap trade).1 id = statusMap id) ∧
    ∀ (statusMap : OrderStatusMap) (trade : Trade),
      statusMap trade.makerId = none ∨ statusMap trade.takerId = none →
        handleMatchResult statusMap trade = (statusMap, []) := by
  refine ⟨fun soFar hbefore => ?_, fun _ _ _ => handleMatchResult_other, fun _ _ =>
    handleMatchResult_of_none⟩
  have htradable := h.of_prefix hbefore
  have hrecorded := handleMatchResults_adds htradable
  exact ⟨hrecorded, fun order horder => hrecorded.concludedOnce htradable horder⟩

/-- Three orders for symbol 0: two to sell 3 and 4 shares, and one to buy 7. -/
def threeOrders : List Order :=
  [⟨1, 0, 8, 90, 3, .sell, 5⟩, ⟨2, 0, 9, 91, 4, .sell, 6⟩, ⟨3, 0, 7, 91, 7, .buy, 7⟩]

/-- The third order takes the first one and half of the second one, which later takes it. -/
def threeTrades : List Trade :=
  [⟨1, 3, .tradingBuy, 3, 90, 8, 7, 0, 7⟩, ⟨2, 3, .tradingBuy, 2, 91, 9, 7, 0, 7⟩,
    ⟨3, 2, .tradingSell, 2, 91, 9, 7, 0, 8⟩]

theorem handleMatchResults_threeTrades :
    (∀ soFar, soFar <+: threeTrades →
      Recorded threeOrders soFar (handleMatchResults (tableOf threeOrders) soFar) ∧
        ∀ order ∈ threeOrders, ConcludedOnce order soFar
          (recordsFor order.orderId (handleMatchResults (tableOf threeOrders) soFar).2)) ∧
    (∀ (statusMap : OrderStatusMap) (trade : Trade) (id : ℤ), id ≠ trade.makerId →
      id ≠ trade.takerId → (handleMatchResult statusMap trade).1 id = statusMap id) ∧
    ∀ (statusMap : OrderStatusMap) (trade : Trade),
      statusMap trade.makerId = none ∨ statusMap trade.takerId = none →
        handleMatchResult statusMap trade = (statusMap, []) :=
  handleMatchResults_recorded threeOrders threeTrades
    ⟨by decide, by decide, by decide, by decide, by decide, by decide⟩

end TradingEngine.OrderManager
