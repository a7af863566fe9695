/-
Two orders that differ in their limits only.

As long as the first order trades, the second one makes the same trades; when the limit of the
first order stops it, the second one goes on from there.
-/
import TradingEngine.Matching.Mirror
import TradingEngine.Matching.WellFormed

namespace TradingEngine.Matching

open MatchEngine

/-! ### One order -/

/-- A run of the loops from the first state to the second. -/
structure Further (order : RawOrder) (ts : TradeList) (order' : RawOrder) (ts' : TradeList) :
    Prop where
  nonneg : 0 ≤ order'.amount
  le : order'.amount ≤ order.amount
  trades : ts <+: ts'

lemma Further.refl {order : RawOrder} (h : 0 ≤ order.amount) (ts : TradeList) :
    Further order ts order ts :=
  ⟨h, le_rfl, List.prefix_rfl⟩

lemma Further.trans {o₁ o₂ o₃ : RawOrder} {ts₁ ts₂ ts₃ : TradeList} (h : Further o₁ ts₁ o₂ ts₂)
    (h' : Further o₂ ts₂ o₃ ts₃) : Further o₁ ts₁ o₃ ts₃ :=
  ⟨h'.nonneg, h'.le.trans h.le, h.trades.trans h'.trades⟩

lemma makeTrade_further (dealTime : ℤ) {maker order : RawOrder} (hmaker : 0 ≤ maker.amount)
    (horder : 0 ≤ order.amount) (ts : TradeList) :
    Further order ts (makeTrade dealTime maker order ts).2.1
      (makeTrade dealTime maker order ts).2.2 := by
  unfold makeTrade
  split_ifs with hlt
  · refine ⟨?_, ?_, List.prefix_append _ _⟩
    · show 0 ≤ order.amount - maker.amount
      omega
    · show order.amount - maker.amount ≤ order.amount
      omega
  · exact ⟨le_rfl, horder, List.prefix_append _ _⟩

lemma matchOrderFromList_further (now : Clock) {orderList : RawOrderList}
    (hlist : ∀ r ∈ orderList, 0 ≤ r.amount) {order : RawOrder} (horder : 0 ≤ order.amount)
    (ts : TradeList) : Further order ts (matchOrderFromList now orderList order ts).2.1
      (matchOrderFromList now orderList order ts).2.2.1 := by
  induction orderList generalizing order ts with
  | nil => exact .refl horder ts
  | cons maker orderList ih =>
    rw [matchOrderFromList]
    by_cases hlimit : limitExcludes order maker = true
    · rw [if_pos hlimit]
      exact .refl horder ts
    · have htrade := makeTrade_further (now ts.length) (hlist maker (by simp)) horder ts
      rcases hm : makeTrade (now ts.length) maker order ts with ⟨maker₁, order₁, ts₁⟩
      rw [hm] at htrade
      have hnext := ih (fun r hr => hlist r (List.mem_cons_of_mem maker hr)) htrade.nonneg ts₁
      by_cases hzero : order₁.amount = 0
      · simp only [hlimit, hzero, if_true]
        exact htrade
      · simp only [hlimit, hzero, if_false]
        exact htrade.trans hnext

lemma matchOrderFromTableLoop_further (now : Clock) {orderTable : OrderTable}
    (htable : ∀ r ∈ orderTable.flatten, 0 ≤ r.amount) {order : RawOrder}
    (horder : 0 ≤ order.amount) (ts : TradeList) :
    Further order ts (matchOrderFromTableLoop now orderTable order ts).2.1
      (matchOrderFromTableLoop now orderTable order ts).2.2 := by
  induction orderTable generalizing order ts with
  | nil => exact .refl horder ts
  | cons orderList orderTable ih =>
    rw [List.flatten_cons] at htable
    have hlist := matchOrderFromList_further now
      (fun r hr => htable r (List.mem_append_left _ hr)) horder ts
    rw [matchOrderFromTableLoop]
    rcases hl : matchOrderFromList now orderList order ts with ⟨list₁, order₁, ts₁, canMatch⟩
    rw [hl] at hlist
    have hnext := ih (fun r hr => htable r (List.mem_append_right _ hr)) hlist.nonneg ts₁
    cases canMatch with
    | true => exact hlist.trans hnext
    | false => exact hlist

/-! ### Two orders -/

/-- The limit `price` accepts what the limit of the order accepts. -/
def AtLeastAsAggressive (price : ℤ) (order : RawOrder) : Prop :=
  match order.tradingSide with
  | .buy => order.price ≤ price
  | .sell => price ≤ order.price

lemma limitExcludes_of_aggressive {price : ℤ} {order : RawOrder}
    (h : AtLeastAsAggressive price order) {maker : RawOrder}
    (hlimit : limitExcludes { order with price := price } maker = true) :
    limitExcludes order maker = true := by
  unfold AtLeastAsAggressive at h
  unfold limitExcludes at hlimit ⊢
  cases hside : order.tradingSide with
  | buy =>
    simp only [hside, decide_eq_true_eq] at h hlimit ⊢
    omega
  | sell =>
    simp only [hside, decide_eq_true_eq] at h hlimit ⊢
    omega

/-- The second order is where the first one is. -/
structure InStep (price : ℤ) (order : RawOrder) (ts : TradeList) (order' : RawOrder)
    (ts' : TradeList) : Prop where
  same : order' = { order with price := price }
  trades : ts.map untimed = ts'.map untimed
  nonneg : 0 ≤ order.amount
  aggressive : AtLeastAsAggressive price order

/-- The second order has gone on where the first one has stopped. -/
structure Ahead (order : RawOrder) (ts : TradeList) (order' : RawOrder) (ts' : TradeList) :
    Prop where
  trades : ts.map untimed <+: ts'.map untimed
  amount : order'.amount ≤ order.amount

lemma InStep.ahead {price : ℤ} {order order' : RawOrder} {ts ts' : TradeList}
    (h : InStep price order ts order' ts') : Ahead order ts order' ts' := by
  refine ⟨?_, ?_⟩
  · rw [h.trades]
  · rw [h.same]

lemma Ahead.further {o₁ o₂ o₃ : RawOrder} {ts₁ ts₂ ts₃ : TradeList} (h : Ahead o₁ ts₁ o₂ ts₂)
    (h' : Further o₂ ts₂ o₃ ts₃) : Ahead o₁ ts₁ o₃ ts₃ :=
  ⟨h.trades.trans (h'.trades.map untimed), h'.le.trans h.amount⟩

/-- The same trade is made in both runs. -/
lemma InStep.trade {price : ℤ} {order order' : RawOrder} {ts ts' : TradeList}
    (h : InStep price order ts order' ts') {maker : RawOrder} (hmaker : 0 ≤ maker.amount)
    (dealTime dealTime' : ℤ) :
    InStep price (makeTrade dealTime maker order ts).2.1 (makeTrade dealTime maker order ts).2.2
      (makeTrade dealTime' maker order' ts').2.1 (makeTrade dealTime' maker order' ts').2.2 := by
  have hfurther := makeTrade_further dealTime hmaker h.nonneg ts
  obtain rfl := h.same
  have haggressive := h.aggressive
  unfold AtLeastAsAggressive at haggressive
  unfold makeTrade at hfurther ⊢
  by_cases hlt : maker.amount < order.amount
  · simp only [hlt, if_true] at hfurther ⊢
    refine ⟨rfl, ?_, hfurther.nonneg, haggressive⟩
    rw [List.map_append, List.map_append, h.trades]
    rfl
  · simp only [hlt, if_false] at hfurther ⊢
    refine ⟨rfl, ?_, hfurther.nonneg, haggressive⟩
    rw [List.map_append, List.map_append, h.trades]
    rfl

/-- A level: both orders go through it in step, or the first one has stopped in it. -/
lemma InStep.level {price : ℤ} (now now' : Clock) {orderList : RawOrderList}
    (hlist : ∀ r ∈ orderList, 0 ≤ r.amount) {order order' : RawOrder} {ts ts' : TradeList}
    (h : InStep price order ts order' ts') :
    (InStep price (matchOrderFromList now orderList order ts).2.1
        (matchOrderFromList now orderList order ts).2.2.1
        (matchOrderFromList now' orderList order' ts').2.1
        (matchOrderFromList now' orderList order' ts').2.2.1 ∧
      (matchOrderFromList now' orderList order' ts').2.2.2 =
        (matchOrderFromList now orderList order ts).2.2.2) ∨
    ((matchOrderFromList now orderList order ts).2.2.2 = false ∧
      Ahead (matchOrderFromList now orderList order ts).2.1
        (matchOrderFromList now orderList order ts).2.2.1
        (matchOrderFromList now' orderList order' ts').2.1
        (matchOrderFromList now' orderList order' ts').2.2.1) := by
  induction orderList generalizing order order' ts ts' with
  | nil => exact Or.inl ⟨h, rfl⟩
  | cons maker orderList ih =>
    have hnonneg' : 0 ≤ order'.amount := by
      rw [h.same]
      exact h.nonneg
    by_cases hlimit : limitExcludes order maker = true
    · -- the first order stops here, and the second one may go on
      refine Or.inr ⟨?_, ?_⟩
      · rw [matchOrderFromList, if_pos hlimit]
      · have hfurther := matchOrderFromList_further now' hlist hnonneg' ts'
        rw [matchOrderFromList, if_pos hlimit]
        exact h.ahead.further hfurther
    · have hlimit' : ¬ limitExcludes order' maker = true := by
        intro hexcluded
        rw [h.same] at hexcluded
        exact hlimit (limitExcludes_of_aggressive h.aggressive hexcluded)
      have hstep := h.trade (hlist maker (by simp)) (now ts.length) (now' ts'.length)
      simp only [matchOrderFromList, hlimit, hlimit', Bool.false_eq_true, if_false]
      rcases hm : makeTrade (now ts.length) maker order ts with
        ⟨maker₁, order₁, ts₁⟩
      rcases hm' : makeTrade (now' ts'.length) maker order' ts' with
        ⟨maker₁', order₁', ts₁'⟩
      rw [hm, hm'] at hstep
      have hamount : order₁'.amount = order₁.amount := by
        simpa using congrArg RawOrder.amount hstep.same
      by_cases hzero : order₁.amount = 0
      · simp only [hamount, hzero, if_true]
        exact Or.inl ⟨hstep, trivial⟩
      · simp only [hamount, hzero, if_false]
        exact ih (fun r hr => hlist r (List.mem_cons_of_mem maker hr)) hstep

/-- A table: the second order is in step with the first one or ahead of it at the end. -/
lemma InStep.table {price : ℤ} (now now' : Clock) {orderTable : OrderTable}
    (htable : ∀ r ∈ orderTable.flatten, 0 ≤ r.amount) {order order' : RawOrder}
    {ts ts' : TradeList} (h : InStep price order ts order' ts') :
    Ahead (matchOrderFromTableLoop now orderTable order ts).2.1
      (matchOrderFromTableLoop now orderTable order ts).2.2
      (matchOrderFromTableLoop now' orderTable order' ts').2.1
      (matchOrderFromTableLoop now' orderTable order' ts').2.2 := by
  induction orderTable generalizing order order' ts ts' with
  | nil => exact h.ahead
  | cons orderList orderTable ih =>
    rw [List.flatten_cons] at htable
    have hlist : ∀ r ∈ orderList, 0 ≤ r.amount := fun r hr => htable r (List.mem_append_left _ hr)
    have hrest : ∀ r ∈ orderTable.flatten, 0 ≤ r.amount :=
      fun r hr => htable r (List.mem_append_right _ hr)
    have hnonneg' : 0 ≤ order'.amount := by
      rw [h.same]
      exact h.nonneg
    have hfurther := matchOrderFromList_further now' hlist hnonneg' ts'
    have hlevel := h.level now now' hlist
    simp only [matchOrderFromTableLoop]
    rcases hl : matchOrderFromList now orderList order ts with
      ⟨list₁, order₁, ts₁, canMatch⟩
    rcases hl' : matchOrderFromList now' orderList order' ts' with
      ⟨list₁', order₁', ts₁', canMatch'⟩
    rw [hl, hl'] at hlevel
    rw [hl'] at hfurther
    have hnext' := matchOrderFromTableLoop_further now' hrest hfurther.nonneg ts₁'
    rcases hlevel with ⟨hstep, hcan⟩ | ⟨hcan, hahead⟩
    · obtain rfl : canMatch' = canMatch := hcan
      cases canMatch' with
      | true => exact ih hrest hstep
      | false => exact hstep.ahead
    · obtain rfl : canMatch = false := hcan
      cases canMatch' with
      | true => exact hahead.further hnext'
      | false => exact hahead

variable {α : Type}

/-- **A more aggressive limit never loses fills.**  The trades of the order are the first ones of
the order with the other limit, and not less is left of it. -/
theorem matchOrderFromTable_aggressive (clock : ℕ → Clock) (receiver : Option α)
    (orders : List RawOrder) (horders : ∀ o ∈ orders, 0 < o.amount) (now now' : Clock)
    (order : RawOrder) (horder : 0 < order.amount) (price : ℤ)
    (hprice : AtLeastAsAggressive price order) :
    let book := (runOrders clock ({ matchResultActor := receiver } : OrderBook α) orders).2
    let less := matchOrderFromTable now (book.table order.tradingSide.opposite) order
    let more := matchOrderFromTable now' (book.table order.tradingSide.opposite)
      { order with price := price }
    less.2.2.map untimed <+: more.2.2.map untimed ∧ more.2.1.amount ≤ less.2.1.amount := by
  intro book less more
  have hamounts := runOrders_amounts tradingRange_pos clock receiver orders horders
  have htable : ∀ r ∈ (book.table order.tradingSide.opposite).flatten, 0 ≤ r.amount :=
    fun r hr => (hamounts _ r hr).le
  have hstart : InStep price order [] { order with price := price } [] :=
    ⟨rfl, rfl, horder.le, hprice⟩
  have hahead := hstart.table now now' htable
  exact ⟨hahead.trades, hahead.amount⟩

/-- Two levels on the other side; the first order reaches one of them, the second one both. -/
theorem matchOrderFromTable_aggressive_twoSellers :
    let orders : List RawOrder := [⟨1, 7, 10, .sell, 6, 100, 1⟩, ⟨2, 7, 11, .sell, 5, 99, 2⟩]
    let order : RawOrder := ⟨3, 7, 12, .buy, 8, 99, 3⟩
    let book := (runOrders (fun _ _ => 0) ({ } : OrderBook Unit) orders).2
    let less := matchOrderFromTable (fun _ => 0) (book.table .sell) order
    let more := matchOrderFromTable (fun _ => 1) (book.table .sell) { order with price := 100 }
    (∀ o ∈ orders, 0 < o.amount) ∧ 0 < order.amount ∧ AtLeastAsAggressive 100 order ∧
      less.2.2.map untimed <+: more.2.2.map untimed ∧ more.2.1.amount ≤ less.2.1.amount := by
  intro orders order book less more
  have hprice : AtLeastAsAggressive 100 order := by
    show (99 : ℤ) ≤ 100
    decide
  exact ⟨by decide, by decide, hprice, matchOrderFromTable_aggressive (fun _ _ => 0)
    (none : Option Unit) orders (by decide) (fun _ => 0) (fun _ => 1) order (by decide) 100 hprice⟩

end TradingEngine.Matching
