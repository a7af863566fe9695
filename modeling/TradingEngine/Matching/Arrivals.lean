/-
Arrival numbers.

The tables of a book do not say when an order arrived.  `Stamps orders book queue` attaches
to every resting order its position in the sequence `orders` that was handled so far, and
says that both flattened tables are in price-time priority.  One run of the handler keeps
this (`Stamps.handle`).
-/
import TradingEngine.Matching.Book

namespace TradingEngine.Matching

open Lib MatchEngine Market

variable {α : Type}

/-- Price-time priority among the resting orders of one side. -/
def Before : Stamped RawOrder → Stamped RawOrder → Prop :=
  PriceTime.Before RawOrder.tradingSide rank

/-- The queues of both sides, with arrival numbers. -/
structure Stamps (orders : List RawOrder) (book : OrderBook α)
    (queue : TradingSite → List (Stamped RawOrder)) : Prop where
  queue_eq : ∀ side, (queue side).map Stamped.order = book.queue side
  sorted : ∀ side, (queue side).Pairwise Before
  arrived : ∀ side, ∀ x ∈ queue side, ∃ o, orders[x.arrival]? = some o ∧ SameOrder o x.order

namespace Stamps

variable {orders : List RawOrder} {book : OrderBook α}
  {queue : TradingSite → List (Stamped RawOrder)}

lemma empty (receiver : Option α) :
    Stamps [] ({ matchResultActor := receiver } : OrderBook α) fun _ => [] :=
  ⟨fun side => by cases side <;> rfl, fun _ => .nil, by simp⟩

lemma side_eq (h : Stamps orders book queue) (hb : BookOk book) {side : TradingSite}
    {x : Stamped RawOrder} (hx : x ∈ queue side) : x.order.tradingSide = side := by
  refine (hb.table_ok side).side_eq _ ?_
  have hmem : x.order ∈ book.queue side := by
    rw [← h.queue_eq side]
    exact List.mem_map_of_mem hx
  exact hmem

lemma arrival_lt (h : Stamps orders book queue) {side : TradingSite} {x : Stamped RawOrder}
    (hx : x ∈ queue side) : x.arrival < orders.length := by
  obtain ⟨o, ho, -⟩ := h.arrived side x hx
  exact (List.getElem?_eq_some_iff.1 ho).1

/-- The arrival number and the sequence of orders determine the side. -/
lemma side_inj (h : Stamps orders book queue) (hb : BookOk book) {side side' : TradingSite}
    {x y : Stamped RawOrder} (hx : x ∈ queue side) (hy : y ∈ queue side')
    (hxy : x.arrival = y.arrival) : side = side' := by
  obtain ⟨o, ho, hox⟩ := h.arrived side x hx
  obtain ⟨o', ho', hoy⟩ := h.arrived side' y hy
  rw [hxy, ho', Option.some.injEq] at ho
  subst ho
  rw [← h.side_eq hb hx, ← h.side_eq hb hy, hox.tradingSide, hoy.tradingSide]

/-- No arrival number occurs twice in one queue. -/
lemma nodup (h : Stamps orders book queue) (side : TradingSite) :
    ((queue side).map Stamped.arrival).Nodup := by
  rw [List.Nodup, List.pairwise_map]
  refine List.Pairwise.imp_of_mem ?_ (h.sorted side)
  rintro x y hx hy ⟨-, hxy⟩ heq
  obtain ⟨o, ho, hox⟩ := h.arrived side x hx
  obtain ⟨o', ho', hoy⟩ := h.arrived side y hy
  rw [heq, ho', Option.some.injEq] at ho
  subst ho
  rcases hxy with hlt | ⟨-, hlt⟩
  · rw [hox.rank, hoy.rank] at hlt
    exact lt_irrefl _ hlt
  · exact hlt.ne heq

/-- The sweep of the opposite side, with arrival numbers. -/
lemma swept_eq (h : Stamps orders book queue) (order : RawOrder) :
    swept book order = ⟨(rule.stamped.sweep (queue order.tradingSide.opposite) order).trades,
      (rule.stamped.sweep (queue order.tradingSide.opposite) order).rest.map Stamped.order,
      (rule.stamped.sweep (queue order.tradingSide.opposite) order).incoming⟩ := by
  rw [swept, ← h.queue_eq]
  exact rule.sweep_stamped _ _

/-- The queues after an order: the opposite side is swept, and what is left of the order
joins its own side with the next arrival number. -/
structure Handled (orders : List RawOrder) (order : RawOrder)
    (queue queue' : TradingSite → List (Stamped RawOrder)) : Prop where
  opposite : queue' order.tradingSide.opposite =
    (rule.stamped.sweep (queue order.tradingSide.opposite) order).rest
  own : (queue' order.tradingSide).Perm
    ((let left := (rule.stamped.sweep (queue order.tradingSide.opposite) order).incoming
      if left.amount = 0 then [] else [⟨orders.length, left⟩]) ++ queue order.tradingSide)

lemma sorted_rest (h : Stamps orders book queue) (order : RawOrder) :
    (rule.stamped.sweep (queue order.tradingSide.opposite) order).rest.Pairwise Before := by
  refine pairwise_of_sublistForall₂ (R := fun r x => r.arrival = x.arrival ∧
    SameOrder x.order r.order) ?_ (rule.stamped.sweep_rest (ρ := fun x r =>
      r.arrival = x.arrival ∧ SameOrder x.order r.order) ?_ ?_ _ order)
    (h.sorted order.tradingSide.opposite)
  · rintro a b c d ⟨hab, hab'⟩ ⟨hcd, hcd'⟩ ⟨hside, hbd⟩
    constructor
    · rw [hab'.tradingSide, hcd'.tradingSide, hside]
    · rw [hab'.rank, hcd'.rank, hab, hcd]
      exact hbd
  · exact fun x => ⟨rfl, SameOrder.refl _⟩
  · exact fun x b => ⟨rfl, sameOrder_resting _ _⟩

lemma arrived_rest (h : Stamps orders book queue) (order : RawOrder) :
    ∀ x ∈ (rule.stamped.sweep (queue order.tradingSide.opposite) order).rest,
      ∃ o, orders[x.arrival]? = some o ∧ SameOrder o x.order := by
  intro x hx
  obtain ⟨y, hy, hxy, hsame⟩ := exists_mem_of_sublistForall₂
    (rule.stamped.sweep_rest (ρ := fun x r => r.arrival = x.arrival ∧
      SameOrder x.order r.order) (fun x => ⟨rfl, SameOrder.refl _⟩)
      (fun x b => ⟨rfl, sameOrder_resting _ _⟩) _ order) x hx
  obtain ⟨o, ho, hoy⟩ := h.arrived _ y hy
  exact ⟨o, by rw [hxy, ho], hoy.trans hsame⟩

/-- An order joins a queue behind the orders of the same or a better price. -/
lemma sorted_insert {pre post : List (Stamped RawOrder)} {x : Stamped RawOrder}
    (hsorted : (pre ++ post).Pairwise Before)
    (hside : ∀ y ∈ pre ++ post, y.order.tradingSide = x.order.tradingSide)
    (hpre : ∀ y ∈ pre, rank y.order ≤ rank x.order ∧ y.arrival < x.arrival)
    (hpost : ∀ y ∈ post, rank x.order < rank y.order) : (pre ++ [x] ++ post).Pairwise Before := by
  obtain ⟨hsorted₁, hsorted₂, hsorted₃⟩ := List.pairwise_append.1 hsorted
  rw [List.pairwise_append, List.pairwise_append]
  refine ⟨⟨hsorted₁, List.pairwise_singleton _ _, ?_⟩, hsorted₂, ?_⟩
  · intro y hy z hz
    rw [List.mem_singleton.1 hz]
    obtain ⟨hle, hlt⟩ := hpre y hy
    refine ⟨hside y (List.mem_append_left _ hy), ?_⟩
    rcases hle.lt_or_eq with hrank | hrank
    · exact Or.inl hrank
    · exact Or.inr ⟨hrank, hlt⟩
  · intro y hy z hz
    rcases List.mem_append.1 hy with hy | hy
    · exact hsorted₃ y hy z hz
    · rw [List.mem_singleton.1 hy]
      exact ⟨(hside z (List.mem_append_right _ hz)).symm, Or.inl (hpost z hz)⟩

/-- The numbers of the orders that were handled before stay. -/
lemma arrived_append (order : RawOrder) {q : List (Stamped RawOrder)}
    (hq : ∀ x ∈ q, ∃ o, orders[x.arrival]? = some o ∧ SameOrder o x.order) :
    ∀ x ∈ q, ∃ o, (orders ++ [order])[x.arrival]? = some o ∧ SameOrder o x.order := by
  intro x hx
  obtain ⟨o, ho, hox⟩ := hq x hx
  refine ⟨o, ?_, hox⟩
  rw [List.getElem?_append_left (List.getElem?_eq_some_iff.1 ho).1, ho]

/-- **One run of the handler.** -/
theorem handle (h : Stamps orders book queue) (hb : BookOk book) (now : Clock)
    (order : RawOrder) : ∃ queue', Stamps (orders ++ [order])
      (matchActorOrder now book order).1 queue' ∧ Handled orders order queue queue' := by
  obtain ⟨pre, post, hflat, hown, hpre, hpost⟩ := matchActorOrder_own now order hb
  have hopp := matchActorOrder_opposite now order hb
  have hsame := swept_sameOrder book order
  rw [h.swept_eq order] at hown hopp hsame
  dsimp only at hown hopp hsame
  set left := (rule.stamped.sweep (queue order.tradingSide.opposite) order).incoming
  obtain ⟨qpre, qpost, hq, rfl, rfl⟩ :=
    List.map_eq_append_iff.1 ((h.queue_eq order.tradingSide).trans hflat)
  set new : List (Stamped RawOrder) :=
    if left.amount = 0 then [] else [⟨orders.length, left⟩] with hnew
  -- the two queues, and each of the three facts for the own side
  set own := qpre ++ new ++ qpost
  set opp := (rule.stamped.sweep (queue order.tradingSide.opposite) order).rest
  have hown_eq : own.map Stamped.order =
      (matchActorOrder now book order).1.queue order.tradingSide := by
    rw [hown]
    simp only [own, List.map_append, hnew]
    split_ifs <;> simp
  have hown_sorted : own.Pairwise Before := by
    have hold := h.sorted order.tradingSide
    have hside := fun x (hx : x ∈ queue order.tradingSide) => h.side_eq hb hx
    have harrival := fun x (hx : x ∈ queue order.tradingSide) => h.arrival_lt hx
    rw [hq] at hold hside harrival
    simp only [own, hnew]
    split_ifs with hz
    · rw [List.append_nil]
      exact hold
    · refine sorted_insert hold (fun y hy => ?_) (fun y hy => ⟨?_, ?_⟩) fun y hy => ?_
      · rw [hside y hy]
        exact hsame.tradingSide.symm
      · rw [hsame.rank]
        exact hpre _ (List.mem_map_of_mem hy)
      · exact harrival y (List.mem_append_left _ hy)
      · rw [hsame.rank]
        exact hpost _ (List.mem_map_of_mem hy)
  have hown_arrived : ∀ x ∈ own, ∃ o, (orders ++ [order])[x.arrival]? = some o ∧
      SameOrder o x.order := by
    have hold := arrived_append order (h.arrived order.tradingSide)
    rw [hq] at hold
    intro x hx
    rcases List.mem_append.1 hx with hx | hx
    · rcases List.mem_append.1 hx with hx | hx
      · exact hold x (List.mem_append_left _ hx)
      · rw [hnew] at hx
        split_ifs at hx with hz
        · cases hx
        · rw [List.mem_singleton.1 hx]
          exact ⟨order, by simp, hsame⟩
    · exact hold x (List.mem_append_right _ hx)
  refine ⟨fun side => if side = order.tradingSide then own else opp, ?_, ?_⟩
  · refine ⟨fun side => ?_, fun side => ?_, fun side => ?_⟩ <;>
      rcases eq_or_ne side order.tradingSide with rfl | hne
    · rw [if_pos rfl]; exact hown_eq
    · rw [if_neg hne, ← TradingSite.eq_opposite hne]; exact hopp.symm
    · rw [if_pos rfl]; exact hown_sorted
    · rw [if_neg hne]; exact h.sorted_rest order
    · rw [if_pos rfl]; exact hown_arrived
    · rw [if_neg hne]; exact arrived_append order (h.arrived_rest order)
  · refine ⟨if_neg (TradingSite.ne_opposite _), ?_⟩
    rw [if_pos rfl, hq]
    show (qpre ++ new ++ qpost).Perm (new ++ (qpre ++ qpost))
    rw [List.append_assoc]
    exact List.perm_append_comm_assoc _ _ _

end Stamps

/-- The resting orders of a reached book carry arrival numbers. -/
theorem runOrders_stamps (clock : ℕ → Clock) (receiver : Option α) (orders : List RawOrder) :
    ∃ queue, Stamps orders
      (runOrders clock ({ matchResultActor := receiver } : OrderBook α) orders).2 queue := by
  induction orders using List.reverseRecOn with
  | nil => exact ⟨_, Stamps.empty receiver⟩
  | append_singleton orders order ih =>
    obtain ⟨queue, h⟩ := ih
    rw [runOrders_concat]
    obtain ⟨queue', h', -⟩ := h.handle (runOrders_bookOk clock receiver orders) _ order
    exact ⟨queue', h'⟩

end TradingEngine.Matching
