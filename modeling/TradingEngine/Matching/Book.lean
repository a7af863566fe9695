/-
The shape of an order book.

A table is well shaped when its levels are nonempty, hold the orders of one side at one
price each, and are ordered from the best price to the worst.  Matching and insertion keep
this, whatever the amounts are.  `matchActorOrder_trades`, `matchActorOrder_opposite` and
`matchActorOrder_own` then describe one run of the handler of `MatchActor` on the flattened
tables; nothing after this file unfolds the functions of `match_actor.cc`.
-/
import TradingEngine.Matching.Sweep

namespace TradingEngine.Matching

open Lib MatchEngine Market

/-! ### Tables -/

/-- A table of orders of one side: nonempty levels of one price each, best price first. -/
structure TableOk (side : TradingSite) (orderTable : OrderTable) : Prop where
  ne_nil : ∀ l ∈ orderTable, l ≠ []
  side_eq : ∀ r ∈ orderTable.flatten, r.tradingSide = side
  same_price : ∀ l ∈ orderTable, ∀ r ∈ l, ∀ s ∈ l, r.price = s.price
  sorted : orderTable.Pairwise fun l l' => ∀ r ∈ l, ∀ s ∈ l', rank r < rank s

lemma tableOk_nil (side : TradingSite) : TableOk side [] :=
  ⟨by simp, by simp, by simp, .nil⟩

lemma tableOk_cons {side : TradingSite} {l : RawOrderList} {t : OrderTable} :
    TableOk side (l :: t) ↔ l ≠ [] ∧ (∀ r ∈ l, r.tradingSide = side) ∧
      (∀ r ∈ l, ∀ s ∈ l, r.price = s.price) ∧
      (∀ r ∈ l, ∀ s ∈ t.flatten, rank r < rank s) ∧ TableOk side t := by
  constructor
  · intro h
    refine ⟨h.ne_nil l List.mem_cons_self, fun r hr => h.side_eq r ?_,
      h.same_price l List.mem_cons_self, ?_, fun l' hl' => h.ne_nil l' (List.mem_cons_of_mem _ hl'),
      fun r hr => h.side_eq r ?_, fun l' hl' => h.same_price l' (List.mem_cons_of_mem _ hl'),
      h.sorted.of_cons⟩
    · rw [List.flatten_cons]
      exact List.mem_append_left _ hr
    · intro r hr s hs
      obtain ⟨l', hl', hs'⟩ := List.mem_flatten.1 hs
      exact List.rel_of_pairwise_cons h.sorted hl' r hr s hs'
    · rw [List.flatten_cons]
      exact List.mem_append_right _ hr
  · rintro ⟨hne, hside, hprice, hsorted, ht⟩
    refine ⟨?_, ?_, ?_, .cons ?_ ht.sorted⟩
    · intro l' hl'
      rcases List.mem_cons.1 hl' with rfl | hl'
      · exact hne
      · exact ht.ne_nil l' hl'
    · intro r hr
      rw [List.flatten_cons] at hr
      rcases List.mem_append.1 hr with hr | hr
      · exact hside r hr
      · exact ht.side_eq r hr
    · intro l' hl'
      rcases List.mem_cons.1 hl' with rfl | hl'
      · exact hprice
      · exact ht.same_price l' hl'
    · intro l' hl' r hr s hs
      exact hsorted r hr s (List.mem_flatten.2 ⟨l', hl', hs⟩)

/-- Within one side, the rank decides which of two prices are equal. -/
lemma rank_eq_iff {r s : RawOrder} (h : r.tradingSide = s.tradingSide) :
    rank r = rank s ↔ r.price = s.price := by
  cases hs : s.tradingSide with
  | buy => rw [rank_of_buy (h.trans hs), rank_of_buy hs]; omega
  | sell => rw [rank_of_sell (h.trans hs), rank_of_sell hs]

lemma needCreate_iff {order first : RawOrder} (h : first.tradingSide = order.tradingSide) :
    needCreate order first = true ↔ rank order < rank first := by
  cases ho : order.tradingSide with
  | buy => rw [rank_of_buy ho, rank_of_buy (h.trans ho)]; simp [needCreate, ho]
  | sell => rw [rank_of_sell ho, rank_of_sell (h.trans ho)]; simp [needCreate, ho]

/-- The orders of a table come in the order of their ranks. -/
lemma TableOk.flatten_sorted {side : TradingSite} {t : OrderTable} (h : TableOk side t) :
    t.flatten.Pairwise fun r s => rank r ≤ rank s := by
  induction t with
  | nil => exact .nil
  | cons l t ih =>
    obtain ⟨-, hside, hprice, hsorted, ht⟩ := tableOk_cons.1 h
    rw [List.flatten_cons, List.pairwise_append]
    refine ⟨List.pairwise_of_forall_mem_list fun r hr s hs => ?_, ih ht,
      fun r hr s hs => (hsorted r hr s hs).le⟩
    exact ((rank_eq_iff ((hside r hr).trans (hside s hs).symm)).2 (hprice r hr s hs)).le

/-! ### Insertion -/

/-- **`AddToOrderTable`** keeps the shape of the table, and puts the order behind all orders
of the same or a better price and in front of all orders of a worse one. -/
theorem addToOrderTable_spec {side : TradingSite} {order : RawOrder}
    (ho : order.tradingSide = side) : ∀ t : OrderTable, TableOk side t →
    TableOk side (addToOrderTable t order) ∧
      ∃ pre post, t.flatten = pre ++ post ∧
        (addToOrderTable t order).flatten = pre ++ order :: post ∧
        (∀ r ∈ pre, rank r ≤ rank order) ∧ ∀ r ∈ post, rank order < rank r := by
  intro t
  induction t with
  | nil =>
    intro _
    refine ⟨?_, [], [], rfl, rfl, by simp, by simp⟩
    exact tableOk_cons.2 ⟨by simp, by simp [ho], by simp, by simp, tableOk_nil side⟩
  | cons l t ih =>
    intro ht
    obtain ⟨hne, hside, hprice, hsorted, ht'⟩ := tableOk_cons.1 ht
    obtain ⟨first, rest, rfl⟩ := List.exists_cons_of_ne_nil hne
    have hfirst := List.mem_cons_self (a := first) (l := rest)
    have hsame : ∀ r ∈ first :: rest, rank r = rank first := fun r hr =>
      (rank_eq_iff ((hside r hr).trans (hside first hfirst).symm)).2
        (hprice r hr first hfirst)
    have hfo : first.tradingSide = order.tradingSide := (hside first hfirst).trans ho.symm
    by_cases heq : order.price = first.price
    · -- the level of this price exists: the order goes to its end
      have hrank : rank order = rank first := (rank_eq_iff hfo.symm).2 heq
      have hadd : addToOrderTable ((first :: rest) :: t) order =
          ((first :: rest) ++ [order]) :: t := by
        rw [addToOrderTable, if_pos heq]
      rw [hadd]
      refine ⟨tableOk_cons.2 ⟨by simp, ?_, ?_, ?_, ht'⟩, first :: rest, t.flatten, rfl, ?_, ?_, ?_⟩
      · intro r hr
        rcases List.mem_append.1 hr with hr | hr
        · exact hside r hr
        · rw [List.mem_singleton.1 hr]; exact ho
      · have hall : ∀ r ∈ (first :: rest) ++ [order], r.price = first.price := by
          intro r hr
          rcases List.mem_append.1 hr with hr | hr
          · exact hprice r hr first hfirst
          · rw [List.mem_singleton.1 hr]; exact heq
        intro r hr s hs
        rw [hall r hr, hall s hs]
      · intro r hr s hs
        rcases List.mem_append.1 hr with hr | hr
        · exact hsorted r hr s hs
        · rw [List.mem_singleton.1 hr, hrank]; exact hsorted first hfirst s hs
      · simp
      · intro r hr; rw [hsame r hr, hrank]
      · intro r hr; rw [hrank]; exact hsorted first hfirst r hr
    · by_cases hneed : needCreate order first = true
      · -- the price is better than that of the level: a new level in front of it
        have hlt : rank order < rank first := (needCreate_iff hfo).1 hneed
        have hadd : addToOrderTable ((first :: rest) :: t) order =
            [order] :: (first :: rest) :: t := by
          rw [addToOrderTable, if_neg heq, if_pos hneed]
        have hafter : ∀ r ∈ ((first :: rest) :: t).flatten, rank order < rank r := by
          intro r hr
          rw [List.flatten_cons] at hr
          rcases List.mem_append.1 hr with hr | hr
          · rw [hsame r hr]; exact hlt
          · exact hlt.trans (hsorted first hfirst r hr)
        rw [hadd]
        refine ⟨tableOk_cons.2 ⟨by simp, by simp [ho], by simp, ?_, ht⟩, [],
          ((first :: rest) :: t).flatten, rfl, rfl, by simp, hafter⟩
        intro r hr s hs
        rw [List.mem_singleton.1 hr]
        exact hafter s hs
      · -- the price is worse: on to the next level
        have hlt : rank first < rank order := by
          have h1 : ¬ rank order < rank first := fun h => hneed ((needCreate_iff hfo).2 h)
          have h2 : rank order ≠ rank first := fun h => heq ((rank_eq_iff hfo.symm).1 h)
          omega
        have hadd : addToOrderTable ((first :: rest) :: t) order =
            (first :: rest) :: addToOrderTable t order := by
          rw [addToOrderTable, if_neg heq, if_neg hneed]
        obtain ⟨hok, pre, post, hflat, hflat', hpre, hpost⟩ := ih ht'
        rw [hadd]
        refine ⟨tableOk_cons.2 ⟨hne, hside, hprice, ?_, hok⟩, (first :: rest) ++ pre, post,
          ?_, ?_, ?_, hpost⟩
        · intro r hr s hs
          rw [hflat'] at hs
          rcases List.mem_append.1 hs with hs | hs
          · exact hsorted r hr s (by rw [hflat]; exact List.mem_append_left _ hs)
          · rcases List.mem_cons.1 hs with rfl | hs
            · rw [hsame r hr]; exact hlt
            · exact hsorted r hr s (by rw [hflat]; exact List.mem_append_right _ hs)
        · rw [List.flatten_cons, hflat, List.append_assoc]
        · rw [List.flatten_cons, hflat', List.append_assoc]
        · intro r hr
          rcases List.mem_append.1 hr with hr | hr
          · rw [hsame r hr]; exact hlt.le
          · exact hpre r hr

/-! ### Matching -/

/-- What matching leaves of a level: not nothing, and in order some of its orders. -/
def LevelRest (l' l : RawOrderList) : Prop :=
  l' ≠ [] ∧ List.SublistForall₂ (fun r x => SameOrder x r) l' l

lemma levelRest_refl {l : RawOrderList} (h : l ≠ []) : LevelRest l l := by
  refine ⟨h, ?_⟩
  clear h
  induction l with
  | nil => exact .nil
  | cons x l ih => exact .cons (SameOrder.refl x) ih

lemma matchOrderFromTableLoop_levels (now : Clock) : ∀ (t : OrderTable) (order : RawOrder)
    (tradeList : TradeList), (∀ l ∈ t, l ≠ []) →
    (∀ r ∈ t.flatten, r.tradingSide ≠ order.tradingSide) →
    List.SublistForall₂ LevelRest (matchOrderFromTableLoop now t order tradeList).1 t := by
  intro t
  induction t with
  | nil => intro order tradeList _ _; exact .nil
  | cons l t ih =>
    intro order tradeList hne hside
    rw [List.flatten_cons] at hside
    obtain ⟨ts, hts, -⟩ := matchOrderFromList_sweep now l order tradeList
      (fun r hr => hside r (List.mem_append_left _ hr))
    have hrest := sweep_rest_sameOrder l order
    have hne' : ∀ l' ∈ t, l' ≠ [] := fun l' hl' => hne l' (List.mem_cons_of_mem _ hl')
    -- the level is passed on only if something is left of it
    have hpassed : ∀ t', List.SublistForall₂ LevelRest t' t → List.SublistForall₂ LevelRest
        ((if (rule.sweep l order).rest = [] then [] else [(rule.sweep l order).rest]) ++ t')
        (l :: t) := by
      intro t' ht'
      split_ifs with h
      · exact .cons_right ht'
      · exact .cons ⟨h, hrest⟩ ht'
    by_cases hrun : rule.runsThrough l order
    · have hnext := ih (rule.sweep l order).incoming (tradeList ++ ts) hne' (by
        intro r hr
        rw [(sweep_sameOrder l order).tradingSide]
        exact hside r (List.mem_append_right _ hr))
      simpa [matchOrderFromTableLoop, hts, hrun] using hpassed _ hnext
    · have hself : List.SublistForall₂ LevelRest t t := by
        clear ih hne hside hpassed
        induction t with
        | nil => exact .nil
        | cons l' t ih =>
          exact .cons (levelRest_refl (hne' l' List.mem_cons_self))
            (ih fun m hm => hne' m (List.mem_cons_of_mem _ hm))
      simpa [matchOrderFromTableLoop, hts, hrun] using hpassed _ hself

/-- A table of which matching has taken something keeps its shape. -/
lemma TableOk.of_levelRest {side : TradingSite} {t t' : OrderTable} (ht : TableOk side t)
    (h : List.SublistForall₂ LevelRest t' t) : TableOk side t' := by
  have hlevel : ∀ l' ∈ t', ∃ l ∈ t, LevelRest l' l := exists_mem_of_sublistForall₂ h
  have hmem : ∀ {l' l : RawOrderList}, LevelRest l' l → ∀ r ∈ l', ∃ x ∈ l, SameOrder x r :=
    fun hl => exists_mem_of_sublistForall₂ hl.2
  refine ⟨fun l' hl' => ?_, fun r hr => ?_, fun l' hl' r hr s hs => ?_, ?_⟩
  · obtain ⟨l, -, hl⟩ := hlevel l' hl'
    exact hl.1
  · obtain ⟨l', hl', hr⟩ := List.mem_flatten.1 hr
    obtain ⟨l, hl, hll⟩ := hlevel l' hl'
    obtain ⟨x, hx, hxr⟩ := hmem hll r hr
    rw [hxr.tradingSide]
    exact ht.side_eq x (List.mem_flatten.2 ⟨l, hl, hx⟩)
  · obtain ⟨l, hl, hll⟩ := hlevel l' hl'
    obtain ⟨x, hx, hxr⟩ := hmem hll r hr
    obtain ⟨y, hy, hys⟩ := hmem hll s hs
    rw [hxr.price, hys.price]
    exact ht.same_price l hl x hx y hy
  · refine pairwise_of_sublistForall₂ ?_ h ht.sorted
    intro l' l m' m hl hm hlm r hr s hs
    obtain ⟨x, hx, hxr⟩ := hmem hl r hr
    obtain ⟨y, hy, hys⟩ := hmem hm s hs
    rw [hxr.rank, hys.rank]
    exact hlm x hx y hy

/-! ### The handler for an order -/

end TradingEngine.Matching

namespace TradingEngine.MatchEngine

/-- The other side. -/
def TradingSite.opposite : TradingSite → TradingSite
  | .buy => .sell
  | .sell => .buy

lemma TradingSite.ne_opposite (side : TradingSite) : side.opposite ≠ side := by
  cases side <;> decide

lemma TradingSite.eq_opposite {side side' : TradingSite} (h : side ≠ side') :
    side'.opposite = side := by
  cases side <;> cases side' <;> first | rfl | exact absurd rfl h

variable {α : Type}

/-- The table of the orders of one side. -/
def OrderBook.table (book : OrderBook α) : TradingSite → OrderTable
  | .buy => book.buyList
  | .sell => book.sellList

/-- The resting orders of one side, best price first. -/
def OrderBook.queue (book : OrderBook α) (side : TradingSite) : List RawOrder :=
  (book.table side).flatten

end TradingEngine.MatchEngine

namespace TradingEngine.Matching

open Lib MatchEngine Market

variable {α : Type}

/-- Both tables of a book are well shaped. -/
structure BookOk (book : OrderBook α) : Prop where
  table_ok : ∀ side, TableOk side (book.table side)

lemma bookOk_empty (receiver : Option α) :
    BookOk ({ matchResultActor := receiver } : OrderBook α) :=
  ⟨fun side => by cases side <;> exact tableOk_nil _⟩

/-- The opposite side of a book, swept by an order. -/
def swept (book : OrderBook α) (order : RawOrder) : Swept RawOrder RawOrder Trade :=
  rule.sweep (book.queue order.tradingSide.opposite) order

lemma swept_sameOrder (book : OrderBook α) (order : RawOrder) :
    SameOrder order (swept book order).incoming :=
  sweep_sameOrder _ order

/-- The handler, for both sides at once. -/
lemma matchActorOrder_eq (now : Clock) (book : OrderBook α) (order : RawOrder) :
    (matchActorOrder now book order).2 =
        (matchOrderFromTable now (book.table order.tradingSide.opposite) order).2.2 ∧
      (matchActorOrder now book order).1.table order.tradingSide.opposite =
        (matchOrderFromTable now (book.table order.tradingSide.opposite) order).1 ∧
      (matchActorOrder now book order).1.table order.tradingSide =
        (if (matchOrderFromTable now (book.table order.tradingSide.opposite) order).2.1.amount = 0
          then book.table order.tradingSide
          else addToOrderTable (book.table order.tradingSide)
            (matchOrderFromTable now (book.table order.tradingSide.opposite) order).2.1) ∧
      (matchActorOrder now book order).1.matchResultActor = book.matchResultActor := by
  cases h : order.tradingSide <;>
    simp [matchActorOrder, h, OrderBook.table, TradingSite.opposite] <;> rfl

section Handler

variable (now : Clock) {book : OrderBook α} (order : RawOrder)

@[simp] lemma matchActorOrder_matchResultActor (book : OrderBook α) :
    (matchActorOrder now book order).1.matchResultActor = book.matchResultActor :=
  (matchActorOrder_eq now book order).2.2.2

variable (hb : BookOk book)
include hb

lemma opposite_side : ∀ r ∈ (book.table order.tradingSide.opposite).flatten,
    r.tradingSide ≠ order.tradingSide := by
  intro r hr
  rw [(hb.table_ok _).side_eq r hr]
  exact TradingSite.ne_opposite _

/-- The trades of the handler are those of the sweep. -/
theorem matchActorOrder_trades :
    (matchActorOrder now book order).2.map toTrade = (swept book order).trades := by
  obtain ⟨t', ts, h, -, hts⟩ := matchOrderFromTable_sweep now (opposite_side order hb)
  rw [(matchActorOrder_eq now book order).1, h]
  exact hts

/-- The opposite side holds what the sweep leaves. -/
theorem matchActorOrder_opposite :
    (matchActorOrder now book order).1.queue order.tradingSide.opposite =
      (swept book order).rest := by
  obtain ⟨t', ts, h, hrest, -⟩ := matchOrderFromTable_sweep now (opposite_side order hb)
  rw [OrderBook.queue, (matchActorOrder_eq now book order).2.1, h]
  exact hrest

/-- What is left of the order joins its own side, behind all orders of the same or a better
price. -/
theorem matchActorOrder_own :
    ∃ pre post, book.queue order.tradingSide = pre ++ post ∧
      (matchActorOrder now book order).1.queue order.tradingSide =
        pre ++ (if (swept book order).incoming.amount = 0 then []
          else [(swept book order).incoming]) ++ post ∧
      (∀ r ∈ pre, rank r ≤ rank order) ∧ ∀ r ∈ post, rank order < rank r := by
  obtain ⟨t', ts, h, -, -⟩ := matchOrderFromTable_sweep now (opposite_side order hb)
  have hsame := swept_sameOrder book order
  obtain ⟨-, pre, post, hflat, hflat', hpre, hpost⟩ :=
    addToOrderTable_spec hsame.tradingSide _ (hb.table_ok order.tradingSide)
  rw [hsame.rank] at hpre hpost
  have hswept : rule.sweep (book.table order.tradingSide.opposite).flatten order =
      swept book order := rfl
  refine ⟨pre, post, hflat, ?_, hpre, hpost⟩
  rw [OrderBook.queue, (matchActorOrder_eq now book order).2.2.1, h, hswept]
  by_cases hz : (swept book order).incoming.amount = 0
  · simp [hz, hflat]
  · simpa [hz] using hflat'

/-- The handler keeps the shape of the book. -/
theorem matchActorOrder_bookOk : BookOk (matchActorOrder now book order).1 := by
  obtain ⟨-, hopp, hown, -⟩ := matchActorOrder_eq now book order
  have hlevels := matchOrderFromTableLoop_levels now (book.table order.tradingSide.opposite)
    order [] (hb.table_ok _).ne_nil (opposite_side order hb)
  have hleft : (matchOrderFromTable now (book.table order.tradingSide.opposite)
      order).2.1.tradingSide = order.tradingSide := by
    obtain ⟨t', ts, h, -, -⟩ := matchOrderFromTable_sweep now (opposite_side order hb)
    rw [h]
    exact (sweep_sameOrder _ order).tradingSide
  have hopp_ok : TableOk order.tradingSide.opposite
      ((matchActorOrder now book order).1.table order.tradingSide.opposite) := by
    rw [hopp]
    exact (hb.table_ok _).of_levelRest hlevels
  have hown_ok : TableOk order.tradingSide
      ((matchActorOrder now book order).1.table order.tradingSide) := by
    rw [hown]
    split_ifs
    · exact hb.table_ok _
    · exact (addToOrderTable_spec hleft _ (hb.table_ok _)).1
  refine ⟨fun side => ?_⟩
  cases hs : order.tradingSide <;> cases side <;> rw [hs] at hopp_ok hown_ok
  · exact hown_ok
  · exact hopp_ok
  · exact hopp_ok
  · exact hown_ok

end Handler

/-! ### Runs -/

lemma runOrders_append (clock : ℕ → Clock) (book : OrderBook α) (orders orders' : List RawOrder) :
    runOrders clock book (orders ++ orders') =
      ((runOrders clock book orders).1 ++
          (runOrders (fun i => clock (orders.length + i)) (runOrders clock book orders).2
            orders').1,
        (runOrders (fun i => clock (orders.length + i)) (runOrders clock book orders).2
          orders').2) := by
  induction orders generalizing clock book with
  | nil => simp [runOrders]
  | cons o orders ih =>
    simp only [List.cons_append, runOrders, ih, List.length_cons]
    simp only [Nat.add_right_comm]

/-- A run ends with the handling of its last order. -/
lemma runOrders_concat (clock : ℕ → Clock) (book : OrderBook α) (orders : List RawOrder)
    (order : RawOrder) :
    runOrders clock book (orders ++ [order]) =
      ((runOrders clock book orders).1 ++
          [(matchActorOrder (clock orders.length) (runOrders clock book orders).2 order).2],
        (matchActorOrder (clock orders.length) (runOrders clock book orders).2 order).1) := by
  rw [runOrders_append]
  rfl

@[simp] lemma runOrders_length (clock : ℕ → Clock) (book : OrderBook α)
    (orders : List RawOrder) : (runOrders clock book orders).1.length = orders.length := by
  induction orders generalizing clock book with
  | nil => rfl
  | cons o orders ih => simp [runOrders, ih]

/-- The trades of the order at position `j` come from the book that the orders before it
have left. -/
lemma runOrders_getElem? (clock : ℕ → Clock) (book : OrderBook α) {orders : List RawOrder}
    {j : ℕ} {tradeList : TradeList} (h : (runOrders clock book orders).1[j]? = some tradeList) :
    ∃ order, orders[j]? = some order ∧ tradeList =
      (matchActorOrder (clock j) (runOrders clock book (orders.take j)).2 order).2 := by
  induction orders using List.reverseRecOn with
  | nil => simp [runOrders] at h
  | append_singleton orders order ih =>
    rw [runOrders_concat] at h
    rcases lt_or_ge j orders.length with hj | hj
    · rw [List.getElem?_append_left (by simpa using hj)] at h
      obtain ⟨o, ho, htrades⟩ := ih h
      refine ⟨o, ?_, ?_⟩
      · rw [List.getElem?_append_left hj, ho]
      · rwa [List.take_append_of_le_length hj.le]
    · obtain rfl : j = orders.length := by
        have hlt := (List.getElem?_eq_some_iff.1 h).1
        simp at hlt
        omega
      refine ⟨order, by simp, ?_⟩
      rw [List.take_left]
      simpa using h.symm

/-- Every book that is reached from the empty one is well shaped. -/
theorem runOrders_bookOk (clock : ℕ → Clock) (receiver : Option α) (orders : List RawOrder) :
    BookOk (runOrders clock ({ matchResultActor := receiver } : OrderBook α) orders).2 := by
  induction orders using List.reverseRecOn with
  | nil => exact bookOk_empty receiver
  | append_singleton orders order ih =>
    rw [runOrders_concat]
    exact matchActorOrder_bookOk _ order ih

end TradingEngine.Matching
