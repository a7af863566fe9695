/-
Who trades first.

A sweep trades with the orders at the front of a queue, one after the other.  When some of the
orders were handled in the order of their ids, this means that of two of them that rest at one
price the one with the smaller id trades first (`Stamps.earlierFirst`).
-/
import TradingEngine.Matching.Arrivals

namespace TradingEngine.Matching

open Lib MatchEngine Market

variable {α : Type}

/-- In the list `x` comes before `y`. -/
def Precedes {β : Type*} (l : List β) (x y : β) : Prop := [x, y].Sublist l

lemma precedes_or {β : Type*} {l : List β} {x y : β} (hx : x ∈ l) (hy : y ∈ l) (hne : x ≠ y) :
    Precedes l x y ∨ Precedes l y x := by
  induction l with
  | nil => cases hx
  | cons a l ih =>
    rcases List.mem_cons.1 hx with rfl | hx'
    · have hy' := (List.mem_cons.1 hy).resolve_left hne.symm
      exact Or.inl ((List.singleton_sublist.2 hy').cons_cons x)
    · rcases List.mem_cons.1 hy with rfl | hy'
      · exact Or.inr ((List.singleton_sublist.2 hx').cons_cons y)
      · rcases ih hx' hy' with h | h
        · exact Or.inl (h.cons a)
        · exact Or.inr (h.cons a)

lemma Precedes.rel {β : Type*} {R : β → β → Prop} {l : List β} {x y : β} (h : Precedes l x y)
    (hl : l.Pairwise R) : R x y :=
  List.pairwise_pair.1 (hl.sublist h)

/-- In a list with the order `R`, what comes after an element of a prefix is not before it. -/
lemma precedes_of_prefix {β : Type*} {R : β → β → Prop} {l p : List β} {x y : β} (hp : p <+: l)
    (hl : l.Pairwise R) (hx : x ∈ l) (hy : y ∈ p) (hne : x ≠ y) (hR : ¬ R y x) :
    Precedes p x y := by
  obtain ⟨s, rfl⟩ := hp
  rcases List.mem_append.1 hx with hx | hx
  · exact (precedes_or hx hy hne).resolve_right fun h => hR (h.rel (List.pairwise_append.1 hl).1)
  · exact absurd ((List.pairwise_append.1 hl).2.2 y hy x hx) hR

instance {β : Type*} [DecidableEq β] (l : List β) (x y : β) : Decidable (Precedes l x y) :=
  inferInstanceAs (Decidable (List.Sublist _ _))

/-- Of two resting orders of one price with ids among these, the one with the smaller id trades
first. -/
def TradesFirst (ids : List ℤ) (trades : TradeList) (r r' : RawOrder) : Prop :=
  r.orderId ∈ ids → r'.orderId ∈ ids → r.price = r'.price → r.orderId < r'.orderId →
    r'.orderId ∈ trades.map MatchedTrade.makerId →
      Precedes (trades.map MatchedTrade.makerId) r.orderId r'.orderId

instance (ids : List ℤ) (trades : TradeList) (r r' : RawOrder) :
    Decidable (TradesFirst ids trades r r') :=
  inferInstanceAs (Decidable (_ → _ → _ → _ → _ → _))

/-- Of the orders of a queue that rest at one price the one with the smaller id trades first. -/
def EarlierFirst (ids : List ℤ) (queue : List RawOrder) (trades : TradeList) : Prop :=
  ∀ r ∈ queue, ∀ r' ∈ queue, TradesFirst ids trades r r'

instance (ids : List ℤ) (queue : List RawOrder) (trades : TradeList) :
    Decidable (EarlierFirst ids queue trades) :=
  inferInstanceAs (Decidable (∀ r ∈ queue, ∀ r' ∈ queue, TradesFirst ids trades r r'))

/-- `o` and `o'` are different orders, and in the order of their ids if both ids are among
these. -/
def InOrder (ids : List ℤ) (o o' : RawOrder) : Prop :=
  o.orderId ≠ o'.orderId ∧ (o.orderId ∈ ids → o'.orderId ∈ ids → o.orderId < o'.orderId)

/-- The makers of the trades are at the front of the queue, in its order. -/
lemma makers_eq (now : Clock) {book : OrderBook α} (order : RawOrder) (hb : BookOk book) :
    ∃ makers, makers <+: book.queue order.tradingSide.opposite ∧
      (matchActorOrder now book order).2.map MatchedTrade.makerId =
        makers.map RawOrder.orderId := by
  refine ⟨_, rule.parties_prefix _ order, ?_⟩
  have htrades := matchActorOrder_trades now order hb
  rw [swept, rule.sweep_trades_eq] at htrades
  have hmakers := congrArg (List.map Trade.makerId) htrades
  rw [List.map_map, List.map_map] at hmakers
  rw [List.map_map]
  exact hmakers

namespace Stamps

variable {orders : List RawOrder} {book : OrderBook α}
  {queue : TradingSite → List (Stamped RawOrder)}

/-- The order of arrival. -/
lemma inOrder {ids : List ℤ} (h : Stamps orders book queue) (hids : orders.Pairwise (InOrder ids))
    {side : TradingSite} {x y : Stamped RawOrder} (hx : x ∈ queue side) (hy : y ∈ queue side)
    (hlt : x.arrival < y.arrival) : InOrder ids x.order y.order := by
  obtain ⟨o, ho, hox⟩ := h.arrived side x hx
  obtain ⟨o', ho', hoy⟩ := h.arrived side y hy
  obtain ⟨hi, rfl⟩ := List.getElem?_eq_some_iff.1 ho
  obtain ⟨hj, rfl⟩ := List.getElem?_eq_some_iff.1 ho'
  rw [InOrder, hox.orderId, hoy.orderId]
  exact List.pairwise_iff_getElem.1 hids _ _ hi hj hlt

/-- Resting orders of one price are in the order of their arrival. -/
lemma pairwise_inOrder {ids : List ℤ} (h : Stamps orders book queue)
    (hids : orders.Pairwise (InOrder ids)) (side : TradingSite) :
    (book.queue side).Pairwise fun r r' => r.price = r'.price → InOrder ids r r' := by
  rw [← h.queue_eq side, List.pairwise_map]
  refine List.Pairwise.imp_of_mem ?_ (h.sorted side)
  rintro x y hx hy ⟨hside, hbefore⟩ hprice
  have hrank : rank x.order = rank y.order := by simp only [rank, hside, hprice]
  refine h.inOrder hids hx hy ?_
  rcases hbefore with hlt | ⟨-, hlt⟩
  · exact absurd hrank hlt.ne
  · exact hlt

/-- No two resting orders have the same id. -/
lemma nodup_orderId {ids : List ℤ} (h : Stamps orders book queue)
    (hids : orders.Pairwise (InOrder ids)) (side : TradingSite) :
    ((book.queue side).map RawOrder.orderId).Nodup := by
  have hnodup := h.nodup side
  rw [List.Nodup, List.pairwise_map] at hnodup
  rw [← h.queue_eq side, List.map_map, List.Nodup, List.pairwise_map]
  refine List.Pairwise.imp_of_mem (fun {x y} hx hy hne => ?_) hnodup
  rcases lt_or_gt_of_ne hne with hlt | hlt
  · exact (h.inOrder hids hx hy hlt).1
  · exact (h.inOrder hids hy hx hlt).1.symm

/-- **Time priority by id**, when the orders with these ids were handled in the order of the
ids. -/
theorem earlierFirst {ids : List ℤ} (h : Stamps orders book queue) (hb : BookOk book)
    (hids : orders.Pairwise (InOrder ids)) (now : Clock) (order : RawOrder) :
    EarlierFirst ids (book.queue order.tradingSide.opposite)
      (matchActorOrder now book order).2 := by
  obtain ⟨makers, hfront, heq⟩ := makers_eq now order hb
  intro r hr r' hr' hid hid' hprice hlt hmaker
  rw [heq] at hmaker ⊢
  obtain ⟨m, hm, heq⟩ := List.mem_map.1 hmaker
  obtain rfl : m = r' := List.inj_on_of_nodup_map (h.nodup_orderId hids _)
    (hfront.subset hm) hr' heq
  have hprecedes : Precedes makers r m := by
    refine precedes_of_prefix hfront (h.pairwise_inOrder hids _) hr hm ?_ ?_
    · rintro rfl
      exact lt_irrefl _ hlt
    · exact fun hR => lt_asymm hlt ((hR hprice.symm).2 hid' hid)
  exact hprecedes.map RawOrder.orderId

end Stamps

end TradingEngine.Matching
