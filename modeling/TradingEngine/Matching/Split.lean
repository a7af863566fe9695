/-
An order and the same order in two parts, one after the other.

On the flattened tables the second part goes on where the first one has stopped, with the
resting order that it has left (`sweep_split`).  A well-shaped table is determined by its
flattening, which settles the other side.  On the own side, what is left of the parts goes to
the end of one level (`Place`), so that the parts are next to each other there.
-/
import TradingEngine.Matching.WellFormed

namespace TradingEngine.Matching

open Lib MatchEngine Market

/-! ### Fills -/

/-- What a trade takes of a resting order, and at what price. -/
structure Fill where
  makerId : ℤ
  price : ℤ
  amount : ℤ
  deriving DecidableEq

/-- The fill that a trade is. -/
def Market.Trade.fill (t : Trade) : Fill := ⟨t.makerId, t.price, t.amount⟩

/-- The fills of an order are those of its parts, one after the other; one of them may be cut. -/
inductive Parts : List Fill → List Fill → List Fill → Prop
  | whole (us vs : List Fill) : Parts (us ++ vs) us vs
  | cut (us vs : List Fill) (makerId price a b : ℤ) :
    Parts (us ++ ⟨makerId, price, a + b⟩ :: vs) (us ++ [⟨makerId, price, a⟩])
      (⟨makerId, price, b⟩ :: vs)

lemma Parts.cons {ts us vs : List Fill} (h : Parts ts us vs) (t : Fill) :
    Parts (t :: ts) (t :: us) vs := by
  cases h with
  | whole => exact .whole (t :: us) vs
  | cut us vs makerId price a b => exact .cut (t :: us) vs makerId price a b

/-! ### Sweeps -/

/-- The orders may trade with the same resting orders. -/
structure SameLimit (o o' : RawOrder) : Prop where
  tradingSide : o'.tradingSide = o.tradingSide
  price : o'.price = o.price

namespace SameLimit

variable {o o' : RawOrder}

lemma accepts (h : SameLimit o o') (r : RawOrder) : accepts o' r = accepts o r := by
  rw [Market.accepts, Market.accepts, h.tradingSide, h.price]

end SameLimit

/-- The fills of a sweep. -/
def fills (s : Swept RawOrder RawOrder Trade) : List Fill := s.trades.map Trade.fill

section Cons

variable {r o : RawOrder} (q : List RawOrder)

lemma sweep_cons_of_not_accepts (h : ¬ accepts o r) : rule.sweep (r :: q) o = ⟨[], r :: q, o⟩ :=
  rule.sweep_of_not_accepts h

/-- The resting order is used up, and the sweep goes on. -/
lemma sweep_cons_of_lt (h : accepts o r) (hlt : r.amount < o.amount) :
    (rule.sweep (r :: q) o).rest =
        (rule.sweep q { o with amount := o.amount - r.amount }).rest ∧
      fills (rule.sweep (r :: q) o) = ⟨r.orderId, r.price, r.amount⟩ ::
        fills (rule.sweep q { o with amount := o.amount - r.amount }) ∧
      (rule.sweep (r :: q) o).incoming =
        (rule.sweep q { o with amount := o.amount - r.amount }).incoming := by
  have hmin : min r.amount o.amount = r.amount := min_eq_left hlt.le
  have hincoming : (trade r o).incoming = { o with amount := o.amount - r.amount } := by
    rw [trade, hmin]
  have hmore : ¬ rule.exhausted (rule.trade r o).incoming := by
    rw [rule_trade, hincoming, rule_exhausted, decide_eq_true_iff]
    exact (Int.sub_pos_of_lt hlt).ne'
  have hkept : rule.kept (trade r o).resting = [] := by
    rw [MatchRule.kept, if_pos]
    simp [trade, hmin]
  rw [rule.sweep_of_accepts h hmore, rule_trade, hincoming, hkept]
  refine ⟨rfl, ?_, rfl⟩
  rw [fills, List.map_cons, Trade.fill, trade, hmin]
  rfl

/-- The incoming order is used up. -/
lemma sweep_cons_of_le (h : accepts o r) (hle : o.amount ≤ r.amount) :
    (rule.sweep (r :: q) o).rest = (if r.amount = o.amount then []
        else [{ r with amount := r.amount - o.amount }]) ++ q ∧
      fills (rule.sweep (r :: q) o) = [⟨r.orderId, r.price, o.amount⟩] ∧
      (rule.sweep (r :: q) o).incoming.amount = 0 := by
  have hmin : min r.amount o.amount = o.amount := min_eq_right hle
  have hincoming : (trade r o).incoming = { o with amount := 0 } := by
    rw [trade, hmin, sub_self]
  have hdone : rule.exhausted (rule.trade r o).incoming := by
    rw [rule_trade, hincoming]
    rfl
  have hkept : rule.kept (trade r o).resting = if r.amount = o.amount then []
      else [{ r with amount := r.amount - o.amount }] := by
    rw [MatchRule.kept, rule_spent, trade, hmin]
    simp [sub_eq_zero]
  rw [rule.sweep_of_exhausted h hdone, rule_trade, hincoming, hkept]
  refine ⟨rfl, ?_, rfl⟩
  rw [fills, List.map_singleton, Trade.fill, trade, hmin]

end Cons

/-- What a sweep does depends on the limit and the amount only. -/
lemma sweep_congr {q : List RawOrder} {o o' : RawOrder} (h : SameLimit o o')
    (hamount : o'.amount = o.amount) :
    (rule.sweep q o').rest = (rule.sweep q o).rest ∧
      fills (rule.sweep q o') = fills (rule.sweep q o) ∧
      (rule.sweep q o').incoming.amount = (rule.sweep q o).incoming.amount := by
  induction q generalizing o o' with
  | nil => exact ⟨rfl, rfl, hamount⟩
  | cons r q ih =>
    by_cases hacc : accepts o r = true
    · have hacc' : accepts o' r = true := (h.accepts r).trans hacc
      rcases lt_or_ge r.amount o.amount with hlt | hle
      · obtain ⟨hrest, hfills, hincoming⟩ := sweep_cons_of_lt q hacc hlt
        obtain ⟨hrest', hfills', hincoming'⟩ := sweep_cons_of_lt q hacc' (by omega)
        have hlimit : SameLimit { o with amount := o.amount - r.amount }
            { o' with amount := o'.amount - r.amount } := ⟨h.tradingSide, h.price⟩
        obtain ⟨ih₁, ih₂, ih₃⟩ := ih hlimit (by rw [hamount])
        rw [hrest, hrest', hfills, hfills', hincoming, hincoming', ih₁, ih₂, ih₃]
        exact ⟨rfl, rfl, rfl⟩
      · obtain ⟨hrest, hfills, hincoming⟩ := sweep_cons_of_le q hacc hle
        obtain ⟨hrest', hfills', hincoming'⟩ := sweep_cons_of_le q hacc' (by omega)
        rw [hrest, hrest', hfills, hfills', hincoming, hincoming', hamount]
        exact ⟨rfl, rfl, rfl⟩
    · have hacc' : ¬ accepts o' r = true := by rwa [h.accepts r]
      rw [sweep_cons_of_not_accepts q hacc, sweep_cons_of_not_accepts q hacc']
      exact ⟨rfl, rfl, hamount⟩

/-- A sweep with `o`, against a sweep with `o₁` and one with `o₂` on what that has left. -/
structure SplitSweep (q : List RawOrder) (o o₁ o₂ : RawOrder) : Prop where
  rest : (rule.sweep (rule.sweep q o₁).rest o₂).rest = (rule.sweep q o).rest
  parts : Parts (fills (rule.sweep q o)) (fills (rule.sweep q o₁))
    (fills (rule.sweep (rule.sweep q o₁).rest o₂))
  amount : (rule.sweep q o).incoming.amount = (rule.sweep q o₁).incoming.amount +
    (rule.sweep (rule.sweep q o₁).rest o₂).incoming.amount

section Split

variable {r o o₁ o₂ : RawOrder} {q : List RawOrder}

/-- The first part goes beyond the resting order. -/
lemma SplitSweep.cons (hacc : accepts o r) (hacc₁ : accepts o₁ r) (hlt : r.amount < o.amount)
    (hlt₁ : r.amount < o₁.amount) (h : SplitSweep q { o with amount := o.amount - r.amount }
      { o₁ with amount := o₁.amount - r.amount } o₂) : SplitSweep (r :: q) o o₁ o₂ := by
  obtain ⟨hrest, hfills, hincoming⟩ := sweep_cons_of_lt q hacc hlt
  obtain ⟨hrest₁, hfills₁, hincoming₁⟩ := sweep_cons_of_lt q hacc₁ hlt₁
  constructor
  · rw [hrest, hrest₁]
    exact h.rest
  · rw [hrest₁, hfills, hfills₁]
    exact h.parts.cons _
  · rw [hrest₁, hincoming, hincoming₁]
    exact h.amount

/-- The first part ends with the resting order. -/
lemma splitSweep_of_eq (hacc : accepts o r) (hacc₁ : accepts o₁ r) (h₂ : SameLimit o o₂)
    (hpos₂ : 0 < o₂.amount) (hamount : o.amount = o₁.amount + o₂.amount)
    (heq : o₁.amount = r.amount) : SplitSweep (r :: q) o o₁ o₂ := by
  obtain ⟨hrest₁, hfills₁, hincoming₁⟩ := sweep_cons_of_le q hacc₁ heq.le
  obtain ⟨hrest, hfills, hincoming⟩ := sweep_cons_of_lt q hacc (by omega)
  have hlimit : SameLimit { o with amount := o.amount - r.amount } o₂ :=
    ⟨h₂.tradingSide, h₂.price⟩
  have hleft : o₂.amount = o.amount - r.amount := by omega
  obtain ⟨hrest₂, hfills₂, hincoming₂⟩ := sweep_congr (q := q) hlimit hleft
  rw [if_pos heq.symm, List.nil_append] at hrest₁
  constructor
  · rw [hrest₁, hrest₂, hrest]
  · rw [hrest₁, hfills, hfills₁, hfills₂, heq]
    exact .whole [_] _
  · rw [hrest₁, hincoming, hincoming₁, hincoming₂, zero_add]

/-- The first part ends in the resting order, which the second part goes on with. -/
lemma splitSweep_of_gt (hacc : accepts o r) (hacc₁ : accepts o₁ r) (h₂ : SameLimit o o₂)
    (hamount : o.amount = o₁.amount + o₂.amount) (hgt : o₁.amount < r.amount) :
    SplitSweep (r :: q) o o₁ o₂ := by
  obtain ⟨hrest₁, hfills₁, hincoming₁⟩ := sweep_cons_of_le q hacc₁ hgt.le
  rw [if_neg hgt.ne', List.singleton_append] at hrest₁
  have hacc₂ : accepts o₂ { r with amount := r.amount - o₁.amount } = true :=
    (h₂.accepts r).trans hacc
  rcases lt_or_ge r.amount o.amount with hlt | hle
  · -- and uses it up
    have hlt₂ : r.amount - o₁.amount < o₂.amount := by omega
    obtain ⟨hrest, hfills, hincoming⟩ := sweep_cons_of_lt q hacc hlt
    obtain ⟨hrest₂, hfills₂, hincoming₂⟩ := sweep_cons_of_lt q hacc₂ hlt₂
    have hlimit : SameLimit { o with amount := o.amount - r.amount }
        { o₂ with amount := o₂.amount - (r.amount - o₁.amount) } :=
      ⟨h₂.tradingSide, h₂.price⟩
    have hleft : o₂.amount - (r.amount - o₁.amount) = o.amount - r.amount := by omega
    obtain ⟨hrest₃, hfills₃, hincoming₃⟩ := sweep_congr (q := q) hlimit hleft
    have hcut := Parts.cut [] (fills (rule.sweep q { o with amount := o.amount - r.amount }))
      r.orderId r.price o₁.amount (r.amount - o₁.amount)
    rw [add_sub_cancel] at hcut
    constructor
    · rw [hrest₁, hrest₂, hrest₃, hrest]
    · rw [hrest₁, hfills, hfills₁, hfills₂, hfills₃]
      exact hcut
    · rw [hrest₁, hincoming, hincoming₁, hincoming₂, hincoming₃, zero_add]
  · -- and ends in it as well
    have hle₂ : o₂.amount ≤ r.amount - o₁.amount := by omega
    obtain ⟨hrest, hfills, hincoming⟩ := sweep_cons_of_le q hacc hle
    obtain ⟨hrest₂, hfills₂, hincoming₂⟩ := sweep_cons_of_le q hacc₂ hle₂
    have hspent : r.amount - o₁.amount = o₂.amount ↔ r.amount = o.amount := by omega
    have hremains : r.amount - o₁.amount - o₂.amount = r.amount - o.amount := by omega
    constructor
    · rw [hrest₁, hrest₂, hrest, hremains]
      simp only [hspent]
    · rw [hrest₁, hfills, hfills₁, hfills₂, hamount]
      exact .cut [] [] r.orderId r.price o₁.amount o₂.amount
    · rw [hrest₁, hincoming, hincoming₁, hincoming₂, zero_add]

lemma splitSweep_of_not_accepts (hacc : ¬ accepts o r) (h₁ : SameLimit o o₁)
    (h₂ : SameLimit o o₂) (hamount : o.amount = o₁.amount + o₂.amount) :
    SplitSweep (r :: q) o o₁ o₂ := by
  have hacc₁ : ¬ accepts o₁ r = true := by rwa [h₁.accepts r]
  have hacc₂ : ¬ accepts o₂ r = true := by rwa [h₂.accepts r]
  have hsweep := sweep_cons_of_not_accepts q hacc
  have hsweep₁ := sweep_cons_of_not_accepts q hacc₁
  have hsweep₂ := sweep_cons_of_not_accepts q hacc₂
  constructor
  · rw [hsweep₁, hsweep₂, hsweep]
  · rw [hsweep₁, hsweep₂, hsweep]
    exact .whole [] []
  · rw [hsweep₁, hsweep₂, hsweep]
    exact hamount

/-- **A sweep in two parts.**  The split may fall on the end of a resting order or into it. -/
theorem sweep_split (h₁ : SameLimit o o₁) (h₂ : SameLimit o o₂) (hpos₂ : 0 < o₂.amount)
    (hamount : o.amount = o₁.amount + o₂.amount) : SplitSweep q o o₁ o₂ := by
  induction q generalizing o o₁ with
  | nil => exact ⟨rfl, .whole [] [], hamount⟩
  | cons r q ih =>
    by_cases hacc : accepts o r = true
    · have hacc₁ : accepts o₁ r = true := (h₁.accepts r).trans hacc
      rcases lt_trichotomy r.amount o₁.amount with hlt | heq | hgt
      · refine .cons hacc hacc₁ (by omega) hlt (ih ⟨h₁.tradingSide, h₁.price⟩
          ⟨h₂.tradingSide, h₂.price⟩ ?_)
        show o.amount - r.amount = o₁.amount - r.amount + o₂.amount
        omega
      · exact splitSweep_of_eq hacc hacc₁ h₂ hpos₂ hamount heq.symm
      · exact splitSweep_of_gt hacc hacc₁ h₂ hamount hgt
    · exact splitSweep_of_not_accepts hacc h₁ h₂ hamount

end Split

/-! ### Tables -/

/-- A level of a well-shaped table is as long as the price is the same. -/
lemma TableOk.takeWhile_flatten {side : TradingSite} {first : RawOrder} {rest : RawOrderList}
    {t : OrderTable} (h : TableOk side ((first :: rest) :: t)) :
    (((first :: rest) :: t).flatten.takeWhile fun r => r.price = first.price) = first :: rest ∧
      (((first :: rest) :: t).flatten.dropWhile fun r => r.price = first.price) = t.flatten := by
  obtain ⟨-, hside, hprice, hsorted, ht⟩ := tableOk_cons.1 h
  have hfirst := List.mem_cons_self (a := first) (l := rest)
  have hlevel : ∀ r ∈ first :: rest, decide (r.price = first.price) = true := fun r hr =>
    decide_eq_true (hprice r hr first hfirst)
  have hnext : ∀ r ∈ t.flatten, decide (r.price = first.price) = false := by
    intro r hr
    rw [decide_eq_false_iff_not]
    intro heq
    have hrank := (rank_eq_iff ((ht.side_eq r hr).trans (hside first hfirst).symm)).2 heq
    have hlt := hsorted first hfirst r hr
    omega
  rw [List.flatten_cons, List.takeWhile_append_of_pos hlevel, List.dropWhile_append_of_pos hlevel]
  cases hflat : t.flatten with
  | nil => simp
  | cons r l =>
    have hr := hnext r (by simp [hflat])
    rw [List.takeWhile_cons_of_neg (by simp [hr]), List.dropWhile_cons_of_neg (by simp [hr]),
      List.append_nil]
    exact ⟨rfl, rfl⟩

/-- **A well-shaped table is determined by its flattening.** -/
theorem TableOk.eq_of_flatten {side : TradingSite} {t t' : OrderTable} (h : TableOk side t)
    (h' : TableOk side t') (hflat : t.flatten = t'.flatten) : t = t' := by
  induction t generalizing t' with
  | nil =>
    cases t' with
    | nil => rfl
    | cons l t' =>
      have hne := h'.ne_nil l List.mem_cons_self
      simp only [List.flatten_nil, List.flatten_cons] at hflat
      exact absurd (List.append_eq_nil_iff.1 hflat.symm).1 hne
  | cons l t ih =>
    obtain ⟨first, rest, rfl⟩ := List.exists_cons_of_ne_nil (h.ne_nil l List.mem_cons_self)
    cases t' with
    | nil => simp at hflat
    | cons l' t' =>
      obtain ⟨first', rest', rfl⟩ := List.exists_cons_of_ne_nil (h'.ne_nil l' List.mem_cons_self)
      obtain rfl : first = first' := by
        simp only [List.flatten_cons, List.cons_append, List.cons.injEq] at hflat
        exact hflat.1
      obtain ⟨htake, hdrop⟩ := h.takeWhile_flatten
      obtain ⟨htake', hdrop'⟩ := h'.takeWhile_flatten
      rw [hflat, htake'] at htake
      rw [hflat, hdrop'] at hdrop
      rw [htake, ih (tableOk_cons.1 h).2.2.2.2 (tableOk_cons.1 h').2.2.2.2 hdrop.symm]

/-- A level in a table, if there is anything in it. -/
def asLevel (l : RawOrderList) : OrderTable := if l = [] then [] else [l]

lemma asLevel_of_ne_nil {l : RawOrderList} (h : l ≠ []) : asLevel l = [l] := if_neg h

lemma addToOrderTable_of_price {l : RawOrderList} {t : OrderTable} {order : RawOrder}
    (hne : l ≠ []) (hprice : ∀ r ∈ l.head?, r.price = order.price) :
    addToOrderTable (l :: t) order = (l ++ [order]) :: t := by
  obtain ⟨first, rest, rfl⟩ := List.exists_cons_of_ne_nil hne
  rw [addToOrderTable, if_pos (hprice first rfl).symm]

lemma addToOrderTable_new {first : RawOrder} {l : RawOrderList} {t : OrderTable} {order : RawOrder}
    (hne : order.price ≠ first.price) (hneed : needCreate order first) :
    addToOrderTable ((first :: l) :: t) order = [order] :: (first :: l) :: t := by
  rw [addToOrderTable, if_neg hne, if_pos hneed]

lemma addToOrderTable_skip {first : RawOrder} {l : RawOrderList} {t : OrderTable}
    {order : RawOrder} (hne : order.price ≠ first.price) (hneed : ¬ needCreate order first) :
    addToOrderTable ((first :: l) :: t) order = (first :: l) :: addToOrderTable t order := by
  rw [addToOrderTable, if_neg hne, if_neg hneed]

/-- Orders with the side and the price of `order` go to the end of `level`. -/
structure Place (order : RawOrder) (before : OrderTable) (level : RawOrderList)
    (after : OrderTable) : Prop where
  price : ∀ r ∈ level.head?, r.price = order.price
  add : ∀ (xs : RawOrderList) (o : RawOrder), (∀ x ∈ xs, SameLimit order x) →
    SameLimit order o → addToOrderTable (before ++ asLevel (level ++ xs) ++ after) o =
      before ++ asLevel (level ++ (xs ++ [o])) ++ after

/-- A level that is still to be made. -/
lemma Place.new {order : RawOrder} {t : OrderTable}
    (h : ∀ o, SameLimit order o → addToOrderTable t o = [o] :: t) : Place order [] [] t := by
  refine ⟨by simp, fun xs o hxs ho => ?_⟩
  cases xs with
  | nil => exact h o ho
  | cons x xs =>
    have hprice : ∀ r ∈ (x :: xs).head?, r.price = o.price := by
      intro r hr
      cases hr
      rw [(hxs x List.mem_cons_self).price, ho.price]
    have hadd := addToOrderTable_of_price (t := t) (List.cons_ne_nil x xs) hprice
    rw [List.nil_append, List.nil_append, asLevel_of_ne_nil (List.cons_ne_nil x xs),
      asLevel_of_ne_nil (by simp)]
    exact hadd

/-- **The place of a price in a table.** -/
lemma exists_place (order : RawOrder) (t : OrderTable) :
    ∃ before level after, t = before ++ asLevel level ++ after ∧
      Place order before level after := by
  induction t with
  | nil => exact ⟨[], [], [], rfl, .new fun o _ => rfl⟩
  | cons l t ih =>
    obtain ⟨before, level, after, ht, hplace⟩ := ih
    cases l with
    | nil =>
      refine ⟨[] :: before, level, after, by rw [ht]; rfl, hplace.price, fun xs o hxs ho => ?_⟩
      rw [List.cons_append, List.cons_append, addToOrderTable, hplace.add xs o hxs ho]
      rfl
    | cons first rest =>
      have hneeds : ∀ o, SameLimit order o → needCreate o first = needCreate order first := by
        intro o ho
        rw [needCreate, needCreate, ho.tradingSide, ho.price]
      by_cases heq : order.price = first.price
      · -- the level is the first one of the table
        refine ⟨[], first :: rest, t, rfl, ?_, fun xs o hxs ho => ?_⟩
        · intro r hr
          cases hr
          exact heq.symm
        · have hprice : ∀ r ∈ ((first :: rest) ++ xs).head?, r.price = o.price := by
            intro r hr
            cases hr
            rw [ho.price, heq]
          have hadd := addToOrderTable_of_price (t := t) (by simp) hprice
          rw [asLevel_of_ne_nil (by simp), asLevel_of_ne_nil (by simp), ← List.append_assoc]
          exact hadd
      · have hne : ∀ o, SameLimit order o → o.price ≠ first.price := by
          intro o ho
          rwa [ho.price]
        by_cases hneed : needCreate order first = true
        · -- the level is still to be made in front of all others
          refine ⟨[], [], (first :: rest) :: t, rfl, .new fun o ho => ?_⟩
          exact addToOrderTable_new (hne o ho) ((hneeds o ho).trans hneed)
        · -- the level is behind the first one
          refine ⟨(first :: rest) :: before, level, after, by rw [ht]; rfl, hplace.price,
            fun xs o hxs ho => ?_⟩
          have hskip : ¬ needCreate o first = true := by rwa [hneeds o ho]
          rw [List.cons_append, List.cons_append, addToOrderTable_skip (hne o ho) hskip,
            hplace.add xs o hxs ho]
          rfl

/-! ### The handler -/

variable {α : Type}

/-- The own side takes what the sweep has left of the order. -/
lemma matchActorOrder_own_table (now : Clock) {book : OrderBook α} (order : RawOrder)
    (hb : BookOk book) : (matchActorOrder now book order).1.table order.tradingSide =
      if (swept book order).incoming.amount = 0 then book.table order.tradingSide
      else addToOrderTable (book.table order.tradingSide) (swept book order).incoming := by
  obtain ⟨t', ts, h, -, -⟩ := matchOrderFromTable_sweep now (opposite_side order hb)
  rw [(matchActorOrder_eq now book order).2.2.1, h]
  rfl

/-- Those of the orders that are not used up. -/
def leftover (l : RawOrderList) : RawOrderList := l.filter (·.amount ≠ 0)

/-- What is left of an order joins those that are at the end of its level already. -/
lemma Place.matchActorOrder {order o : RawOrder} {before after : OrderTable}
    {level xs : RawOrderList} (h : Place order before level after) (now : Clock)
    {book : OrderBook α} (hb : BookOk book) (ho : SameLimit order o)
    (hxs : ∀ x ∈ xs, SameLimit order x)
    (hbook : book.table order.tradingSide = before ++ asLevel (level ++ xs) ++ after) :
    (matchActorOrder now book o).1.table order.tradingSide = before ++ asLevel (level ++
      (xs ++ leftover [{ o with amount := (swept book o).incoming.amount }])) ++ after := by
  have hown := matchActorOrder_own_table now o hb
  have hsame : (swept book o).incoming = { o with amount := (swept book o).incoming.amount } :=
    swept_sameOrder book o
  rw [ho.tradingSide, hbook] at hown
  rw [hown, ← hsame]
  by_cases hzero : (swept book o).incoming.amount = 0
  · rw [if_pos hzero, leftover, List.filter_cons_of_neg (by simp [hzero]), List.filter_nil,
      List.append_nil]
  · have hlimit : SameLimit order (swept book o).incoming := by
      rw [hsame]
      exact ⟨ho.tradingSide, ho.price⟩
    rw [if_neg hzero, leftover, List.filter_cons_of_pos (by simp [hzero]), List.filter_nil]
    exact h.add xs _ hxs hlimit

/-- The fills of the trades that an order makes. -/
def fillsOf (tradeList : TradeList) : List Fill := tradeList.map fun t => (toTrade t).fill

/-- By how much a resting order is filled at a price. -/
def filled (makerId price : ℤ) (fs : List Fill) : ℤ :=
  ((fs.filter fun f => f.makerId = makerId ∧ f.price = price).map Fill.amount).sum

lemma filled_append (makerId price : ℤ) (fs gs : List Fill) :
    filled makerId price (fs ++ gs) = filled makerId price fs + filled makerId price gs := by
  rw [filled, List.filter_append, List.map_append, List.sum_append]
  rfl

lemma filled_cons (makerId price : ℤ) (f : Fill) (fs : List Fill) :
    filled makerId price (f :: fs) =
      (if f.makerId = makerId ∧ f.price = price then f.amount else 0) +
        filled makerId price fs := by
  rw [filled, List.filter_cons]
  split_ifs with h h'
  · rfl
  · exact absurd (of_decide_eq_true h) h'
  · exact absurd (decide_eq_true ‹_›) h
  · exact (zero_add _).symm

lemma Parts.filled {ts us vs : List Fill} (h : Parts ts us vs) (makerId price : ℤ) :
    filled makerId price ts = filled makerId price us + filled makerId price vs := by
  cases h with
  | whole => exact filled_append makerId price us vs
  | cut us vs makerId' price' a b =>
    have hnil : Matching.filled makerId price [] = 0 := rfl
    simp only [filled_append, filled_cons, hnil]
    split_ifs <;> omega

/-- The order is `first` and `second` together. -/
structure SplitInto (order first second : RawOrder) : Prop where
  limit_first : SameLimit order first
  limit_second : SameLimit order second
  first_pos : 0 < first.amount
  second_pos : 0 < second.amount
  amount : order.amount = first.amount + second.amount

/-- What an order does to the book, against what its two parts do. -/
structure SameMarket (order first second : RawOrder) (book one two : OrderBook α)
    (tradeList firstTrades secondTrades : TradeList) : Prop where
  parts : Parts (fillsOf tradeList) (fillsOf firstTrades) (fillsOf secondTrades)
  filled : ∀ makerId price, filled makerId price (fillsOf tradeList) =
    filled makerId price (fillsOf firstTrades) + filled makerId price (fillsOf secondTrades)
  opposite : two.table order.tradingSide.opposite = one.table order.tradingSide.opposite
  /-- The leftovers stand at the end of the level of their price. -/
  own : ∃ (before : OrderTable) (level : RawOrderList) (after : OrderTable) (a b : ℤ),
    0 ≤ a ∧ 0 ≤ b ∧ (∀ r ∈ level, r.price = order.price) ∧
      book.table order.tradingSide = before ++ asLevel level ++ after ∧
      one.table order.tradingSide =
        before ++ asLevel (level ++ leftover [{ order with amount := a + b }]) ++ after ∧
      two.table order.tradingSide = before ++ asLevel (level ++
        leftover [{ first with amount := a }, { second with amount := b }]) ++ after

lemma matchActorOrder_fills (now : Clock) {book : OrderBook α} (order : RawOrder)
    (hb : BookOk book) : fillsOf (matchActorOrder now book order).2 = fills (swept book order) := by
  rw [fills, ← matchActorOrder_trades now order hb, List.map_map]
  rfl

/-- The levels of a well-shaped table that a place is in are of its price. -/
lemma Place.level_price {order : RawOrder} {before after : OrderTable} {level : RawOrderList}
    (h : Place order before level after) {side : TradingSite}
    (ht : TableOk side (before ++ asLevel level ++ after)) :
    ∀ r ∈ level, r.price = order.price := by
  cases level with
  | nil => simp
  | cons first rest =>
    intro r hr
    have hmem : first :: rest ∈ before ++ asLevel (first :: rest) ++ after := by
      rw [asLevel_of_ne_nil (List.cons_ne_nil first rest)]
      simp
    exact (ht.same_price _ hmem r hr first List.mem_cons_self).trans (h.price first rfl)

lemma swept_incoming_nonneg {book : OrderBook α} (hbook : AmountsIn (0 < ·) book)
    (order : RawOrder) (ho : 0 < order.amount) : 0 ≤ (swept book order).incoming.amount := by
  have hleft : (swept book order).incoming.amount = 0 ∨ 0 < (swept book order).incoming.amount :=
    (swept_amounts tradingRange_pos hbook ho).2.2
  omega

/-- **Splitting an order does not change the market**, in a book of any shape it can have. -/
lemma matchActorOrder_split (now now₁ now₂ : Clock) {book : OrderBook α} (hb : BookOk book)
    (hbook : AmountsIn (0 < ·) book) {order first second : RawOrder}
    (h : SplitInto order first second) :
    let one := matchActorOrder now book order
    let two₁ := matchActorOrder now₁ book first
    let two₂ := matchActorOrder now₂ two₁.1 second
    SameMarket order first second book one.1 two₂.1 one.2 two₁.2 two₂.2 := by
  intro one two₁ two₂
  have hb₁ : BookOk two₁.1 := matchActorOrder_bookOk now₁ first hb
  have hb₂ : BookOk two₂.1 := matchActorOrder_bookOk now₂ second hb₁
  have hfirst : swept book first =
      rule.sweep (book.queue order.tradingSide.opposite) first := by
    rw [swept, h.limit_first.tradingSide]
  have hsecond : swept two₁.1 second = rule.sweep
      (rule.sweep (book.queue order.tradingSide.opposite) first).rest second := by
    have hrest := matchActorOrder_opposite now₁ first hb
    rw [h.limit_first.tradingSide, hfirst] at hrest
    rw [swept, h.limit_second.tradingSide, hrest]
  obtain ⟨hrest, hparts, hamount⟩ := sweep_split (q := book.queue order.tradingSide.opposite)
    h.limit_first h.limit_second h.second_pos h.amount
  rw [← hsecond, ← hfirst] at hparts hamount
  rw [← hsecond] at hrest
  have hfills : Parts (fillsOf one.2) (fillsOf two₁.2) (fillsOf two₂.2) := by
    rw [matchActorOrder_fills now order hb, matchActorOrder_fills now₁ first hb,
      matchActorOrder_fills now₂ second hb₁]
    exact hparts
  have hleft₁ := swept_incoming_nonneg hbook first h.first_pos
  have hbook₁ : AmountsIn (0 < ·) two₁.1 :=
    matchActorOrder_amounts now₁ tradingRange_pos hb hbook h.first_pos
  have hleft₂ := swept_incoming_nonneg hbook₁ second h.second_pos
  refine ⟨hfills, hfills.filled, ?_, ?_⟩
  · -- the other side: the flattened tables are the same, and so are the tables
    have hflat : two₂.1.queue order.tradingSide.opposite =
        one.1.queue order.tradingSide.opposite := by
      have hone := matchActorOrder_opposite now order hb
      have htwo := matchActorOrder_opposite now₂ second hb₁
      rw [h.limit_second.tradingSide, hrest] at htwo
      exact htwo.trans hone.symm
    exact (hb₂.table_ok _).eq_of_flatten
      ((matchActorOrder_bookOk now order hb).table_ok _) hflat
  · -- the own side: all leftovers go to the place of the price
    obtain ⟨before, level, after, htable, hplace⟩ :=
      exists_place order (book.table order.tradingSide)
    have hstart : book.table order.tradingSide = before ++ asLevel (level ++ []) ++ after := by
      rwa [List.append_nil]
    have hone := hplace.matchActorOrder now hb ⟨rfl, rfl⟩ (by simp) hstart
    have htwo₁ := hplace.matchActorOrder now₁ hb h.limit_first (by simp) hstart
    have htwo₂ := hplace.matchActorOrder now₂ hb₁ h.limit_second (fun x hx => ?_) htwo₁
    · refine ⟨before, level, after, (swept book first).incoming.amount,
        (swept two₁.1 second).incoming.amount, hleft₁, hleft₂,
        hplace.level_price (htable ▸ hb.table_ok order.tradingSide), htable, ?_, ?_⟩
      · rw [← hamount]
        exact hone
      · rw [htwo₂, List.nil_append, leftover, leftover, ← List.filter_append]
        rfl
    · rw [List.nil_append, leftover] at hx
      obtain rfl := List.mem_singleton.1 (List.mem_of_mem_filter hx)
      exact ⟨h.limit_first.tradingSide, h.limit_first.price⟩

/-- **Splitting an order does not change the market.**  The parts fill the resting orders as the
whole order does and leave the same table of the other side; on the own side, the leftovers of
the parts are next to each other where the leftover of the whole order is. -/
theorem runOrders_split (clock : ℕ → Clock) (receiver : Option α) (orders : List RawOrder)
    (horders : ∀ o ∈ orders, 0 < o.amount) (now now₁ now₂ : Clock)
    (order first second : RawOrder) (h : SplitInto order first second) :
    let book := (runOrders clock ({ matchResultActor := receiver } : OrderBook α) orders).2
    let one := matchActorOrder now book order
    let two₁ := matchActorOrder now₁ book first
    let two₂ := matchActorOrder now₂ two₁.1 second
    SameMarket order first second book one.1 two₂.1 one.2 two₁.2 two₂.2 := by
  intro book
  have hb : BookOk book := runOrders_bookOk clock receiver orders
  have hbook : AmountsIn (0 < ·) book :=
    runOrders_amounts tradingRange_pos clock receiver orders horders
  exact matchActorOrder_split now now₁ now₂ hb hbook h

/-- The first part stops in the first seller; the second part goes on there, takes the second
seller as well and leaves something. -/
theorem runOrders_split_twoSellers :
    let orders : List RawOrder := [⟨1, 7, 10, .sell, 6, 100, 1⟩, ⟨2, 7, 11, .sell, 5, 101, 2⟩]
    let order : RawOrder := ⟨3, 7, 12, .buy, 14, 101, 3⟩
    let first : RawOrder := ⟨3, 7, 12, .buy, 4, 101, 3⟩
    let second : RawOrder := ⟨4, 7, 12, .buy, 10, 101, 4⟩
    let book := (runOrders (fun _ _ => 0) ({ } : OrderBook Unit) orders).2
    let one := matchActorOrder (fun _ => 0) book order
    let two₁ := matchActorOrder (fun _ => 1) book first
    let two₂ := matchActorOrder (fun _ => 2) two₁.1 second
    (∀ o ∈ orders, 0 < o.amount) ∧ SplitInto order first second ∧
      SameMarket order first second book one.1 two₂.1 one.2 two₁.2 two₂.2 := by
  intro orders order first second book one two₁ two₂
  have hsplit : SplitInto order first second :=
    ⟨⟨rfl, rfl⟩, ⟨rfl, rfl⟩, by decide, by decide, by decide⟩
  exact ⟨by decide, hsplit, runOrders_split (fun _ _ => 0) (none : Option Unit) orders (by decide)
    (fun _ => 0) (fun _ => 1) (fun _ => 2) order first second hsplit⟩

end TradingEngine.Matching
