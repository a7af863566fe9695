/-
The price-time auction, and the order book as an implementation of it.

The auction is the specification: it keeps the resting orders as one unordered collection,
each with its arrival number, and serves an incoming order by best-first matching
(`MatchRule.Fill`).  The book keeps two lists of levels and never searches.  On every
sequence of orders both give the same trades and the same resting orders
(`matchActor_refines_auction`).
-/
import TradingEngine.Matching.Arrivals

namespace TradingEngine.Matching

open Lib MatchEngine Market

variable {α : Type}

/-! ### The auction -/

namespace Auction

/-- The resting orders of both sides. -/
abbrev Pool := Multiset (Stamped RawOrder)

/-- The auction handles the order with arrival number `n`: it is filled from the collection,
and what is left of it joins the collection. -/
inductive Handles (n : ℕ) (pool : Pool) (order : RawOrder) : List Trade → Pool → Prop
  | exhausted {ts : List Trade} {pool' : Pool} {left : RawOrder}
      (h : rule.stamped.Fill Before pool order ts pool' left) (hz : left.amount = 0) :
      Handles n pool order ts pool'
  | rests {ts : List Trade} {pool' : Pool} {left : RawOrder}
      (h : rule.stamped.Fill Before pool order ts pool' left) (hz : left.amount ≠ 0) :
      Handles n pool order ts (⟨n, left⟩ ::ₘ pool')

/-- A run of the auction: the orders, the trades of each of them, and the collection
afterwards. -/
inductive Run : List RawOrder → List (List Trade) → Pool → Prop
  | start : Run [] [] 0
  | handle {orders : List RawOrder} {tss : List (List Trade)} {pool pool' : Pool}
      {order : RawOrder} {ts : List Trade} (h : Run orders tss pool)
      (hstep : Handles orders.length pool order ts pool') :
      Run (orders ++ [order]) (tss ++ [ts]) pool'

lemma run_nil {tss : List (List Trade)} {pool : Pool} :
    Run [] tss pool ↔ tss = [] ∧ pool = 0 := by
  constructor
  · intro h
    generalize hnil : ([] : List RawOrder) = orders at h
    cases h with
    | start => exact ⟨rfl, rfl⟩
    | handle _ _ => simp at hnil
  · rintro ⟨rfl, rfl⟩
    exact Run.start

lemma run_concat {orders : List RawOrder} {order : RawOrder} {tss : List (List Trade)}
    {pool' : Pool} : Run (orders ++ [order]) tss pool' ↔
      ∃ tss₀ pool ts, tss = tss₀ ++ [ts] ∧ Run orders tss₀ pool ∧
        Handles orders.length pool order ts pool' := by
  constructor
  · intro h
    generalize heq : orders ++ [order] = orders' at h
    cases h with
    | start => simp at heq
    | handle h hstep =>
      obtain ⟨rfl, hlast⟩ := List.append_inj' heq rfl
      obtain rfl := List.singleton_inj.1 hlast
      exact ⟨_, _, _, rfl, h, hstep⟩
  · rintro ⟨tss₀, pool, ts, rfl, h, hstep⟩
    exact Run.handle h hstep

/-- The resting orders of one side, listed by price-time priority. -/
def Listed (pool : Pool) (side : TradingSite) (l : List RawOrder) : Prop :=
  ∃ q : List (Stamped RawOrder),
    (q : Multiset (Stamped RawOrder)) = pool.filter (fun x => x.order.tradingSide = side) ∧
      q.Pairwise Before ∧ q.map Stamped.order = l

end Auction

/-! ### The collection of a book -/

open Auction

/-- Both queues together. -/
def poolOf (queue : TradingSite → List (Stamped RawOrder)) : Pool :=
  (queue .sell : Multiset (Stamped RawOrder)) + queue .buy

lemma poolOf_eq (queue : TradingSite → List (Stamped RawOrder)) (side : TradingSite) :
    poolOf queue = (queue side.opposite : Multiset (Stamped RawOrder)) + queue side := by
  cases side with
  | buy => rfl
  | sell => exact add_comm _ _

namespace Stamps

variable {orders : List RawOrder} {book : OrderBook α}
  {queue queue' : TradingSite → List (Stamped RawOrder)}

lemma listed (h : Stamps orders book queue) (hb : BookOk book) (side : TradingSite) :
    Listed (poolOf queue) side (book.queue side) := by
  refine ⟨queue side, ?_, h.sorted side, h.queue_eq side⟩
  have hown : (queue side : Multiset (Stamped RawOrder)).filter
      (fun x => x.order.tradingSide = side) = queue side :=
    Multiset.filter_eq_self.2 fun x hx => h.side_eq hb (Multiset.mem_coe.1 hx)
  have hopp : (queue side.opposite : Multiset (Stamped RawOrder)).filter
      (fun x => x.order.tradingSide = side) = 0 := by
    refine Multiset.filter_eq_nil.2 fun x hx => ?_
    rw [h.side_eq hb (Multiset.mem_coe.1 hx)]
    exact TradingSite.ne_opposite side
  rw [poolOf_eq queue side, Multiset.filter_add, hown, hopp, zero_add]

/-- An order accepts nothing on its own side. -/
lemma own_not_accepts (h : Stamps orders book queue) (hb : BookOk book) (order : RawOrder) :
    ∀ y ∈ (queue order.tradingSide : Multiset (Stamped RawOrder)),
      ¬ rule.stamped.accepts order y := by
  intro y hy hacc
  have hside : y.order.tradingSide = order.tradingSide := h.side_eq hb (Multiset.mem_coe.1 hy)
  rcases accepts_iff.1 hacc with ⟨ho, hr, -⟩ | ⟨ho, hr, -⟩ <;> simp [ho, hr] at hside

/-- **One order: the auction does what the handler does.** -/
theorem handles_iff (h : Stamps orders book queue) (hb : BookOk book) {order : RawOrder}
    (hne : order.amount ≠ 0) (hq : Handled orders order queue queue') (now : Clock)
    {ts : List Trade} {pool' : Pool} :
    Handles orders.length (poolOf queue) order ts pool' ↔
      ts = (matchActorOrder now book order).2.map toTrade ∧ pool' = poolOf queue' := by
  have hfill : ∀ {ts R left}, rule.stamped.Fill Before (poolOf queue) order ts R left ↔
      ts = (rule.stamped.sweep (queue order.tradingSide.opposite) order).trades ∧
        R = (rule.stamped.sweep (queue order.tradingSide.opposite) order).rest +
          (queue order.tradingSide : Multiset (Stamped RawOrder)) ∧
        left = (rule.stamped.sweep (queue order.tradingSide.opposite) order).incoming := by
    intro ts R left
    rw [poolOf_eq queue order.tradingSide]
    exact MatchRule.fill_iff_sweep rule_priced.lawful (h.sorted _) (h.own_not_accepts hb order)
      (by simpa [MatchRule.stamped] using hne)
  have hpool' : poolOf queue' =
      (rule.stamped.sweep (queue order.tradingSide.opposite) order).rest +
        (queue' order.tradingSide : Multiset (Stamped RawOrder)) := by
    rw [poolOf_eq queue' order.tradingSide, hq.opposite]
  rw [matchActorOrder_trades now order hb, h.swept_eq order, hpool',
    Multiset.coe_eq_coe.2 hq.own]
  dsimp only
  set left := (rule.stamped.sweep (queue order.tradingSide.opposite) order).incoming
  constructor
  · intro hh
    cases hh with
    | exhausted hf hz =>
      obtain ⟨rfl, rfl, rfl⟩ := hfill.1 hf
      rw [if_pos hz, List.nil_append]
      exact ⟨rfl, rfl⟩
    | rests hf hz =>
      obtain ⟨rfl, rfl, rfl⟩ := hfill.1 hf
      rw [if_neg hz, List.singleton_append, ← Multiset.cons_coe, Multiset.add_cons]
      exact ⟨rfl, rfl⟩
  · rintro ⟨rfl, rfl⟩
    by_cases hz : left.amount = 0
    · rw [if_pos hz, List.nil_append]
      exact Handles.exhausted (hfill.2 ⟨rfl, rfl, rfl⟩) hz
    · rw [if_neg hz, List.singleton_append, ← Multiset.cons_coe, Multiset.add_cons]
      exact Handles.rests (hfill.2 ⟨rfl, rfl, rfl⟩) hz

end Stamps

/-! ### Runs -/

/-- The runs of the auction on the orders that a book has handled. -/
lemma run_iff_runOrders (clock : ℕ → Clock) (receiver : Option α) (orders : List RawOrder)
    (hpos : ∀ o ∈ orders, 0 < o.amount) :
    ∃ queue, Stamps orders
        (runOrders clock ({ matchResultActor := receiver } : OrderBook α) orders).2 queue ∧
      ∀ tss pool, Run orders tss pool ↔
        tss = (runOrders clock ({ matchResultActor := receiver } : OrderBook α) orders).1.map
          (List.map toTrade) ∧ pool = poolOf queue := by
  induction orders using List.reverseRecOn with
  | nil => exact ⟨_, Stamps.empty receiver, fun tss pool => run_nil⟩
  | append_singleton orders order ih =>
    obtain ⟨queue, h, hrun⟩ := ih fun o ho => hpos o (List.mem_append_left _ ho)
    have hb := runOrders_bookOk clock receiver orders
    have hne : order.amount ≠ 0 := (hpos order (by simp)).ne'
    rw [runOrders_concat]
    obtain ⟨queue', h', hq⟩ := h.handle hb (clock orders.length) order
    refine ⟨queue', h', fun tss pool => ?_⟩
    have hstep : ∀ ts pool', Handles orders.length (poolOf queue) order ts pool' ↔ _ :=
      fun ts pool' => h.handles_iff hb hne hq (clock orders.length)
    rw [run_concat, List.map_append, List.map_singleton]
    constructor
    · rintro ⟨tss₀, pool₀, ts, rfl, h₀, h₁⟩
      obtain ⟨rfl, rfl⟩ := (hrun _ _).1 h₀
      obtain ⟨rfl, rfl⟩ := (hstep _ _).1 h₁
      exact ⟨rfl, rfl⟩
    · rintro ⟨rfl, rfl⟩
      exact ⟨_, _, _, rfl, (hrun _ _).2 ⟨rfl, rfl⟩, (hstep _ _).2 ⟨rfl, rfl⟩⟩

/-- **The order book implements the price-time auction.**  For every sequence of orders of
positive amount the auction has exactly one run; its trades are those the actor emits for
each order, and its resting orders, listed by priority, are the two flattened tables. -/
theorem matchActor_refines_auction (clock : ℕ → Clock) (receiver : Option α)
    (orders : List RawOrder) (hpos : ∀ o ∈ orders, 0 < o.amount) :
    let (tradeLists, book) :=
      runOrders clock ({ matchResultActor := receiver } : OrderBook α) orders
    ∃ pool, (∀ tss p, Run orders tss p ↔ tss = tradeLists.map (List.map toTrade) ∧ p = pool) ∧
      Listed pool .sell book.sellList.flatten ∧ Listed pool .buy book.buyList.flatten := by
  obtain ⟨queue, h, hrun⟩ := run_iff_runOrders clock receiver orders hpos
  have hb := runOrders_bookOk clock receiver orders
  exact ⟨poolOf queue, hrun, h.listed hb .sell, h.listed hb .buy⟩

/-- Two sellers at different prices and a buyer who takes one of them and a part of the
other. -/
theorem auction_of_twoSellers :
    let orders : List RawOrder := [⟨1, 7, 10, .sell, 6, 100, 1⟩, ⟨2, 7, 11, .sell, 5, 99, 2⟩,
      ⟨3, 7, 12, .buy, 8, 100, 3⟩]
    (∀ o ∈ orders, 0 < o.amount) ∧
    ∃ pool, (∀ tss p, Run orders tss p ↔
        tss = [[], [], [⟨2, 3, .buy, 5, 99, 11, 12, 7⟩, ⟨1, 3, .buy, 3, 100, 10, 12, 7⟩]] ∧
          p = pool) ∧
      Listed pool .sell [⟨1, 7, 10, .sell, 3, 100, 1⟩] ∧ Listed pool .buy [] :=
  ⟨by decide, matchActor_refines_auction (fun _ _ => 0) (none : Option Unit)
    [⟨1, 7, 10, .sell, 6, 100, 1⟩, ⟨2, 7, 11, .sell, 5, 99, 2⟩, ⟨3, 7, 12, .buy, 8, 100, 3⟩]
    (by decide)⟩

end TradingEngine.Matching
