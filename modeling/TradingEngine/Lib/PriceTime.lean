/-
Best-first matching of an incoming order against resting orders.

A matching rule says which resting orders an incoming order accepts and what one trade does
to both parties.  Two procedures are compared:

* `MatchRule.Fill` takes an *unordered* collection, picks the first acceptable order of
  all of them, trades, and repeats until the incoming order is exhausted or accepts
  nothing any more;
* `MatchRule.sweep` walks once along a *queue*.

`MatchRule.fill_iff_sweep` says that on a queue sorted by priority the second computes the
one outcome of the first.  The priority of a market is price first and time second; time is
the arrival number of a `Stamped` order (`PriceTime.Before`).
-/
import Mathlib.Data.Multiset.AddSub
import Mathlib.Data.List.Forall2
import Mathlib.Data.List.Sort
import Mathlib.Order.Basic
import Mathlib.Tactic

namespace TradingEngine.Lib

/-! ### Lists that are related to a sublist -/

lemma exists_mem_of_sublistForall₂ {α β : Type*} {R : α → β → Prop} {l₁ : List α} {l₂ : List β}
    (h : List.SublistForall₂ R l₁ l₂) : ∀ a ∈ l₁, ∃ b ∈ l₂, R a b := by
  induction h with
  | nil => simp
  | cons hab _ ih =>
    intro a ha
    rcases List.mem_cons.1 ha with rfl | ha
    · exact ⟨_, List.mem_cons_self, hab⟩
    · obtain ⟨b, hb, hr⟩ := ih a ha
      exact ⟨b, List.mem_cons_of_mem _ hb, hr⟩
  | cons_right _ ih =>
    intro a ha
    obtain ⟨b, hb, hr⟩ := ih a ha
    exact ⟨b, List.mem_cons_of_mem _ hb, hr⟩

lemma pairwise_of_sublistForall₂ {α β : Type*} {R : α → β → Prop} {S : β → β → Prop}
    {T : α → α → Prop} (hST : ∀ {a b c d}, R a b → R c d → S b d → T a c)
    {l₁ : List α} {l₂ : List β} (h : List.SublistForall₂ R l₁ l₂) (hp : l₂.Pairwise S) :
    l₁.Pairwise T := by
  induction h with
  | nil => exact .nil
  | cons hab hrest ih =>
    refine .cons (fun c hc => ?_) (ih hp.of_cons)
    obtain ⟨d, hd, hcd⟩ := exists_mem_of_sublistForall₂ hrest c hc
    exact hST hab hcd (List.rel_of_pairwise_cons hp hd)
  | cons_right _ ih => exact ih hp.of_cons

/-! ### Matching rules -/

/-- The result of one trade between a resting and an incoming order. -/
structure Exchange (α β τ : Type*) where
  resting : α
  incoming : β
  record : τ

/-- The result of matching an incoming order: the trades in order, the resting orders
that are left, and what is left of the incoming order. -/
structure Swept (α β τ : Type*) where
  trades : List τ
  rest : List α
  incoming : β

/-- A matching rule over resting orders `α`, incoming orders `β` and trade records `τ`. -/
structure MatchRule (α β τ : Type*) where
  /-- The incoming order may trade with the resting one. -/
  accepts : β → α → Bool
  /-- Nothing is left of the incoming order. -/
  exhausted : β → Bool
  /-- Nothing is left of the resting order. -/
  spent : α → Bool
  /-- One trade. -/
  trade : α → β → Exchange α β τ

namespace MatchRule

variable {α β τ : Type*} (M : MatchRule α β τ) (before : α → α → Prop)

/-- What a rule must satisfy for a priority to be well behaved: an acceptable order stays
acceptable when one of better priority is taken instead, trading does not change what the
incoming order accepts, and one of the two parties is used up by a trade. -/
structure Lawful : Prop where
  asymm : ∀ {x y}, before x y → ¬ before y x
  accepts_of_before : ∀ {b x y}, before x y → M.accepts b y → M.accepts b x
  accepts_trade : ∀ x b y, M.accepts (M.trade x b).incoming y = M.accepts b y
  used_up : ∀ x b, M.spent (M.trade x b).resting ∨ M.exhausted (M.trade x b).incoming

/-! ### The two procedures -/

/-- A resting order goes back into the collection unless it is spent. -/
def put (x : α) (R : Multiset α) : Multiset α := if M.spent x then R else x ::ₘ R

/-- Best-first matching against an unordered collection. -/
inductive Fill : Multiset α → β → List τ → Multiset α → β → Prop
  | exhausted {R : Multiset α} {b : β} (hb : M.exhausted b) : Fill R b [] R b
  | nothing {R : Multiset α} {b : β} (hR : ∀ x ∈ R, ¬ M.accepts b x) : Fill R b [] R b
  | trade {x : α} {R R' : Multiset α} {b b' : β} {ts : List τ} (hb : ¬ M.exhausted b)
      (hx : M.accepts b x) (hbest : ∀ y ∈ R, M.accepts b y → before x y)
      (h : Fill (M.put (M.trade x b).resting R) (M.trade x b).incoming ts R' b') :
      Fill (x ::ₘ R) b ((M.trade x b).record :: ts) R' b'

/-- What one trade leaves of the resting order, as a queue: nothing or one order. -/
def kept (x : α) : List α := if M.spent x then [] else [x]

/-- Matching along a queue: stop at the first order that is not accepted, or as soon as
the incoming order is exhausted. -/
def sweep : List α → β → Swept α β τ
  | [], b => ⟨[], [], b⟩
  | x :: q, b =>
    if M.accepts b x then
      let e := M.trade x b
      if M.exhausted e.incoming then ⟨[e.record], M.kept e.resting ++ q, e.incoming⟩
      else
        let s := sweep q e.incoming
        ⟨e.record :: s.trades, M.kept e.resting ++ s.rest, s.incoming⟩
    else ⟨[], x :: q, b⟩

@[simp] lemma sweep_nil (b : β) : M.sweep [] b = ⟨[], [], b⟩ := rfl

lemma sweep_of_not_accepts {x : α} {q : List α} {b : β} (h : ¬ M.accepts b x) :
    M.sweep (x :: q) b = ⟨[], x :: q, b⟩ := by
  rw [sweep, if_neg h]

lemma sweep_of_exhausted {x : α} {q : List α} {b : β} (h : M.accepts b x)
    (he : M.exhausted (M.trade x b).incoming) :
    M.sweep (x :: q) b =
      ⟨[(M.trade x b).record], M.kept (M.trade x b).resting ++ q, (M.trade x b).incoming⟩ := by
  rw [sweep, if_pos h, if_pos he]

lemma sweep_of_accepts {x : α} {q : List α} {b : β} (h : M.accepts b x)
    (he : ¬ M.exhausted (M.trade x b).incoming) :
    M.sweep (x :: q) b = ⟨(M.trade x b).record :: (M.sweep q (M.trade x b).incoming).trades,
      M.kept (M.trade x b).resting ++ (M.sweep q (M.trade x b).incoming).rest,
      (M.sweep q (M.trade x b).incoming).incoming⟩ := by
  rw [sweep, if_pos h, if_neg he]

variable {before}

lemma put_coe_add (x : α) (q : List α) (B : Multiset α) :
    M.put x (q + B) = ((M.kept x ++ q : List α) : Multiset α) + B := by
  unfold put kept
  split_ifs <;> simp [← Multiset.cons_coe]

lemma Fill.of_exhausted {R R' : Multiset α} {b b' : β} {ts : List τ}
    (h : M.Fill before R b ts R' b') (hb : M.exhausted b) : ts = [] ∧ R' = R ∧ b' = b := by
  cases h with
  | exhausted _ => exact ⟨rfl, rfl, rfl⟩
  | nothing _ => exact ⟨rfl, rfl, rfl⟩
  | trade hne _ _ _ => exact absurd hb hne

lemma Fill.of_nothing {R R' : Multiset α} {b b' : β} {ts : List τ}
    (h : M.Fill before R b ts R' b') (hR : ∀ x ∈ R, ¬ M.accepts b x) :
    ts = [] ∧ R' = R ∧ b' = b := by
  cases h with
  | exhausted _ => exact ⟨rfl, rfl, rfl⟩
  | nothing _ => exact ⟨rfl, rfl, rfl⟩
  | trade _ hx _ _ => exact absurd hx (hR _ (Multiset.mem_cons_self _ _))

/-- When something is acceptable, a filling starts with a best acceptable order. -/
lemma Fill.exists_trade {R R' : Multiset α} {b b' : β} {ts : List τ}
    (h : M.Fill before R b ts R' b') (hb : ¬ M.exhausted b) {z : α} (hz : z ∈ R)
    (hzb : M.accepts b z) :
    ∃ y S us, R = y ::ₘ S ∧ M.accepts b y ∧ (∀ y' ∈ S, M.accepts b y' → before y y') ∧
      ts = (M.trade y b).record :: us ∧
      M.Fill before (M.put (M.trade y b).resting S) (M.trade y b).incoming us R' b' := by
  cases h with
  | exhausted he => exact absurd he hb
  | nothing hno => exact absurd hzb (hno z hz)
  | trade _ hy hbest hrest => exact ⟨_, _, _, rfl, hy, hbest, rfl, hrest⟩

/-! ### On a sorted queue the sweep is best-first matching -/

section Refinement

variable {M} (hM : M.Lawful before)
include hM

lemma not_accepts_of_head {x : α} {q : List α} {B : Multiset α} {b : β}
    (hq : (x :: q).Pairwise before) (hB : ∀ y ∈ B, ¬ M.accepts b y)
    (hx : ¬ M.accepts b x) : ∀ y ∈ ((x :: q : List α) : Multiset α) + B, ¬ M.accepts b y := by
  intro y hy hacc
  rcases Multiset.mem_add.1 hy with hy | hy
  · rcases List.mem_cons.1 (Multiset.mem_coe.1 hy) with rfl | hy
    · exact hx hacc
    · exact hx (hM.accepts_of_before (List.rel_of_pairwise_cons hq hy) hacc)
  · exact hB y hy hacc

/-- The best acceptable order of a collection is the head of its sorted queue. -/
lemma best_eq_head {x y : α} {q : List α} {B R : Multiset α} {b : β}
    (hq : (x :: q).Pairwise before) (hB : ∀ z ∈ B, ¬ M.accepts b z) (hx : M.accepts b x)
    (hy : M.accepts b y) (hbest : ∀ z ∈ R, M.accepts b z → before y z)
    (heq : x ::ₘ ((q : Multiset α) + B) = y ::ₘ R) : y = x ∧ R = q + B := by
  have hyx : y = x := by
    rcases Multiset.cons_eq_cons.1 heq with ⟨h, -⟩ | ⟨-, cs, hqB, hR⟩
    · exact h.symm
    · have hyx : before y x := hbest x (by rw [hR]; exact Multiset.mem_cons_self x cs) hx
      have hmem : y ∈ (q : Multiset α) + B := by rw [hqB]; exact Multiset.mem_cons_self y cs
      rcases Multiset.mem_add.1 hmem with hmem | hmem
      · exact absurd hyx (hM.asymm (List.rel_of_pairwise_cons hq hmem))
      · exact absurd hy (hB y hmem)
  subst hyx
  exact ⟨rfl, ((Multiset.cons_inj_right y).1 heq).symm⟩

/-- The sweep of a sorted queue is an outcome of best-first matching.  The collection may
also hold orders `B` that the incoming order does not accept. -/
lemma fill_sweep (B : Multiset α) : ∀ (q : List α) (b : β), q.Pairwise before →
    (∀ y ∈ B, ¬ M.accepts b y) → ¬ M.exhausted b →
    M.Fill before (q + B) b (M.sweep q b).trades ((M.sweep q b).rest + B)
      (M.sweep q b).incoming := by
  intro q
  induction q with
  | nil => intro b _ hB _; exact Fill.nothing (by simpa using hB)
  | cons x q ih =>
    intro b hq hB hb
    by_cases hx : M.accepts b x
    · have hbest : ∀ y ∈ (q : Multiset α) + B, M.accepts b y → before x y := by
        intro y hy hacc
        rcases Multiset.mem_add.1 hy with hy | hy
        · exact List.rel_of_pairwise_cons hq hy
        · exact absurd hacc (hB y hy)
      rw [← Multiset.cons_coe, Multiset.cons_add]
      by_cases he : M.exhausted (M.trade x b).incoming
      · rw [sweep_of_exhausted M hx he]
        refine Fill.trade hb hx hbest ?_
        rw [put_coe_add]
        exact Fill.exhausted he
      · have hspent : M.spent (M.trade x b).resting := (hM.used_up x b).resolve_right he
        rw [sweep_of_accepts M hx he, kept, if_pos hspent, List.nil_append]
        refine Fill.trade hb hx hbest ?_
        rw [put, if_pos hspent]
        refine ih _ hq.of_cons (fun y hy => ?_) he
        rw [hM.accepts_trade]
        exact hB y hy
    · rw [sweep_of_not_accepts M hx]
      exact Fill.nothing (not_accepts_of_head hM hq hB hx)

/-- Best-first matching has no other outcome than the sweep. -/
lemma Fill.eq_sweep (B : Multiset α) : ∀ (q : List α) (b b' : β) (ts : List τ)
    (R' : Multiset α), q.Pairwise before → (∀ y ∈ B, ¬ M.accepts b y) → ¬ M.exhausted b →
    M.Fill before (q + B) b ts R' b' →
    ts = (M.sweep q b).trades ∧ R' = (M.sweep q b).rest + B ∧ b' = (M.sweep q b).incoming := by
  intro q
  induction q with
  | nil =>
    intro b b' ts R' _ hB _ h
    exact h.of_nothing M (by simpa using hB)
  | cons x q ih =>
    intro b b' ts R' hq hB hb h
    by_cases hx : M.accepts b x
    · rw [← Multiset.cons_coe, Multiset.cons_add] at h
      obtain ⟨y, S, us, hR, hy, hbest, rfl, hrest⟩ :=
        h.exists_trade M hb (Multiset.mem_cons_self x _) hx
      obtain ⟨rfl, rfl⟩ := best_eq_head hM hq hB hx hy hbest hR
      by_cases he : M.exhausted (M.trade y b).incoming
      · rw [sweep_of_exhausted M hx he]
        rw [put_coe_add] at hrest
        obtain ⟨rfl, h2, h3⟩ := hrest.of_exhausted M he
        exact ⟨rfl, h2, h3⟩
      · have hspent : M.spent (M.trade y b).resting := (hM.used_up y b).resolve_right he
        rw [put, if_pos hspent] at hrest
        have hB' : ∀ z ∈ B, ¬ M.accepts (M.trade y b).incoming z := by
          intro z hz
          rw [hM.accepts_trade]
          exact hB z hz
        obtain ⟨h1, h2, h3⟩ := ih _ _ _ _ hq.of_cons hB' he hrest
        rw [sweep_of_accepts M hx he, kept, if_pos hspent, List.nil_append]
        exact ⟨by rw [h1], h2, h3⟩
    · rw [sweep_of_not_accepts M hx]
      exact h.of_nothing M (not_accepts_of_head hM hq hB hx)

/-- **Sweeping a sorted queue computes the one outcome of best-first matching.** -/
theorem fill_iff_sweep {B : Multiset α} {q : List α} {b b' : β} {ts : List τ}
    {R' : Multiset α} (hq : q.Pairwise before) (hB : ∀ y ∈ B, ¬ M.accepts b y)
    (hb : ¬ M.exhausted b) :
    M.Fill before (q + B) b ts R' b' ↔
      ts = (M.sweep q b).trades ∧ R' = (M.sweep q b).rest + B ∧ b' = (M.sweep q b).incoming := by
  constructor
  · exact Fill.eq_sweep hM B q b b' ts R' hq hB hb
  · rintro ⟨rfl, rfl, rfl⟩
    exact fill_sweep hM B q b hq hB hb

end Refinement

/-! ### What a sweep leaves in the queue -/

/-- The orders a sweep leaves are, in order, some of the orders of the queue, as trading
may have changed them. -/
lemma sweep_rest {ρ : α → α → Prop} (hrefl : ∀ x, ρ x x)
    (htrade : ∀ x b, ρ x (M.trade x b).resting) : ∀ (q : List α) (b : β),
    List.SublistForall₂ (fun r x => ρ x r) (M.sweep q b).rest q := by
  have hself : ∀ q : List α, List.SublistForall₂ (fun r x => ρ x r) q q := by
    intro q
    induction q with
    | nil => exact .nil
    | cons x q ih => exact .cons (hrefl x) ih
  have hkept : ∀ (x : α) (b : β) {q q' : List α},
      List.SublistForall₂ (fun r x => ρ x r) q' q →
      List.SublistForall₂ (fun r x => ρ x r) (M.kept (M.trade x b).resting ++ q') (x :: q) := by
    intro x b q q' h
    unfold kept
    split_ifs
    · exact .cons_right h
    · exact .cons (htrade x b) h
  intro q
  induction q with
  | nil => intro b; exact .nil
  | cons x q ih =>
    intro b
    by_cases hx : M.accepts b x
    · by_cases he : M.exhausted (M.trade x b).incoming
      · rw [sweep_of_exhausted M hx he]
        exact hkept x b (hself q)
      · rw [sweep_of_accepts M hx he]
        exact hkept x b (ih _)
    · rw [sweep_of_not_accepts M hx]
      exact hself _

/-- What is left of the incoming order is related to it by every preorder that a trade
respects. -/
lemma sweep_incoming {ρ : β → β → Prop} (hrefl : ∀ b, ρ b b)
    (htrans : ∀ {b c d}, ρ b c → ρ c d → ρ b d)
    (htrade : ∀ x b, ρ b (M.trade x b).incoming) : ∀ (q : List α) (b : β),
    ρ b (M.sweep q b).incoming := by
  intro q
  induction q with
  | nil => intro b; exact hrefl b
  | cons x q ih =>
    intro b
    by_cases hx : M.accepts b x
    · by_cases he : M.exhausted (M.trade x b).incoming
      · rw [sweep_of_exhausted M hx he]
        exact htrade x b
      · rw [sweep_of_accepts M hx he]
        exact htrans (htrade x b) (ih _)
    · rw [sweep_of_not_accepts M hx]
      exact hrefl b

/-- **The rule for facts about single trades.**  When the incoming order satisfies `I` as
long as it trades and the orders of the queue satisfy `P`, every record satisfies `T`,
every order that is left `Q`, and what is left of the incoming order `J`. -/
lemma sweep_forall {I J : β → Prop} {P Q : α → Prop} {T : τ → Prop}
    (hPQ : ∀ x, P x → Q x) (hIJ : ∀ b, I b → J b)
    (htrade : ∀ x b, P x → I b → M.accepts b x → T (M.trade x b).record ∧
      (¬ M.spent (M.trade x b).resting → Q (M.trade x b).resting) ∧
      J (M.trade x b).incoming ∧
      (¬ M.exhausted (M.trade x b).incoming → I (M.trade x b).incoming)) :
    ∀ (q : List α) (b : β), (∀ x ∈ q, P x) → I b →
      (∀ t ∈ (M.sweep q b).trades, T t) ∧ (∀ x ∈ (M.sweep q b).rest, Q x) ∧
        J (M.sweep q b).incoming := by
  have hkept : ∀ x, (¬ M.spent x → Q x) → ∀ y ∈ M.kept x, Q y := by
    intro x hx y hy
    unfold kept at hy
    split_ifs at hy with h
    · simp at hy
    · rw [List.mem_singleton.1 hy]
      exact hx h
  intro q
  induction q with
  | nil => intro b _ hb; exact ⟨by simp, by simp, hIJ b hb⟩
  | cons x q ih =>
    intro b hq hb
    have hx := hq x List.mem_cons_self
    have hq' : ∀ y ∈ q, P y := fun y hy => hq y (List.mem_cons_of_mem _ hy)
    by_cases hacc : M.accepts b x
    · obtain ⟨hT, hQ, hJ, hI⟩ := htrade x b hx hb hacc
      by_cases he : M.exhausted (M.trade x b).incoming
      · rw [sweep_of_exhausted M hacc he]
        refine ⟨by simpa using hT, fun y hy => ?_, hJ⟩
        rcases List.mem_append.1 hy with hy | hy
        · exact hkept _ hQ y hy
        · exact hPQ y (hq' y hy)
      · rw [sweep_of_accepts M hacc he]
        obtain ⟨h1, h2, h3⟩ := ih (M.trade x b).incoming hq' (hI he)
        refine ⟨?_, fun y hy => ?_, h3⟩
        · intro t ht
          rcases List.mem_cons.1 ht with rfl | ht
          · exact hT
          · exact h1 t ht
        · rcases List.mem_append.1 hy with hy | hy
          · exact hkept _ hQ y hy
          · exact h2 y hy
    · rw [sweep_of_not_accepts M hacc]
      exact ⟨by simp, fun y hy => hPQ y (hq y hy), hIJ b hb⟩

/-- **The rule for quantities.**  What one trade conserves, a sweep conserves. -/
lemma sweep_conserves {G : Type*} [AddCommMonoid G] {f : α → G} {g : β → G} {h : τ → G}
    (htrade : ∀ x b, f x + g b =
      f (M.trade x b).resting + g (M.trade x b).incoming + h (M.trade x b).record)
    (hspent : ∀ x, M.spent x → f x = 0) : ∀ (q : List α) (b : β),
    (q.map f).sum + g b = ((M.sweep q b).rest.map f).sum + g (M.sweep q b).incoming +
      ((M.sweep q b).trades.map h).sum := by
  have hkept : ∀ x, ((M.kept x).map f).sum = f x := by
    intro x
    unfold kept
    split_ifs with hx
    · simp [hspent x hx]
    · simp
  intro q
  induction q with
  | nil => intro b; simp
  | cons x q ih =>
    intro b
    by_cases hacc : M.accepts b x
    · by_cases he : M.exhausted (M.trade x b).incoming
      · rw [sweep_of_exhausted M hacc he, List.map_append, List.sum_append, hkept]
        calc
          (List.map f (x :: q)).sum + g b = (q.map f).sum + (f x + g b) := by
            simp only [List.map_cons, List.sum_cons]; abel
          _ = _ := by rw [htrade x b]; simp only [List.map_cons, List.map_nil, List.sum_cons,
            List.sum_nil]; abel
      · rw [sweep_of_accepts M hacc he, List.map_append, List.sum_append, hkept]
        calc
          (List.map f (x :: q)).sum + g b = (q.map f).sum + (f x + g b) := by
            simp only [List.map_cons, List.sum_cons]; abel
          _ = (q.map f).sum + g (M.trade x b).incoming + (f (M.trade x b).resting +
              h (M.trade x b).record) := by rw [htrade x b]; abel
          _ = _ := by rw [ih]; simp only [List.map_cons, List.sum_cons]; abel
    · rw [sweep_of_not_accepts M hacc]
      simp

/-! ### Sweeping a queue in pieces -/

/-- The sweep goes through the whole queue and something is left of the incoming order. -/
def runsThrough : List α → β → Bool
  | [], _ => true
  | x :: q, b => M.accepts b x && !M.exhausted (M.trade x b).incoming &&
      runsThrough q (M.trade x b).incoming

lemma sweep_append_of_runsThrough (q' : List α) : ∀ (q : List α) (b : β), M.runsThrough q b →
    M.sweep (q ++ q') b =
      ⟨(M.sweep q b).trades ++ (M.sweep q' (M.sweep q b).incoming).trades,
        (M.sweep q b).rest ++ (M.sweep q' (M.sweep q b).incoming).rest,
        (M.sweep q' (M.sweep q b).incoming).incoming⟩ := by
  intro q
  induction q with
  | nil => intro b _; rfl
  | cons x q ih =>
    intro b h
    simp only [runsThrough, Bool.and_eq_true, Bool.not_eq_true'] at h
    obtain ⟨⟨hx, he⟩, hq⟩ := h
    rw [← Bool.not_eq_true] at he
    rw [List.cons_append, sweep_of_accepts M hx he, sweep_of_accepts M hx he, ih _ hq]
    simp

lemma sweep_append_of_not_runsThrough (q' : List α) : ∀ (q : List α) (b : β),
    ¬ M.runsThrough q b →
    M.sweep (q ++ q') b =
      ⟨(M.sweep q b).trades, (M.sweep q b).rest ++ q', (M.sweep q b).incoming⟩ := by
  intro q
  induction q with
  | nil => intro b h; exact absurd rfl h
  | cons x q ih =>
    intro b h
    by_cases hx : M.accepts b x
    · by_cases he : M.exhausted (M.trade x b).incoming
      · rw [List.cons_append, sweep_of_exhausted M hx he, sweep_of_exhausted M hx he]
        simp
      · have hq : ¬ M.runsThrough q (M.trade x b).incoming := by
          simpa [runsThrough, hx, he] using h
        rw [List.cons_append, sweep_of_accepts M hx he, sweep_of_accepts M hx he, ih _ hq]
        simp
    · rw [List.cons_append, sweep_of_not_accepts M hx, sweep_of_not_accepts M hx]
      rfl

/-! ### The parties of the trades -/

/-- The two parties of each trade of a sweep, as they are before the trade. -/
def parties : List α → β → List (α × β)
  | [], _ => []
  | x :: q, b =>
    if M.accepts b x then
      (x, b) :: if M.exhausted (M.trade x b).incoming then []
        else parties q (M.trade x b).incoming
    else []

lemma sweep_trades_eq : ∀ (q : List α) (b : β),
    (M.sweep q b).trades = (M.parties q b).map fun p => (M.trade p.1 p.2).record := by
  intro q
  induction q with
  | nil => intro b; rfl
  | cons x q ih =>
    intro b
    by_cases hx : M.accepts b x
    · by_cases he : M.exhausted (M.trade x b).incoming
      · simp [sweep_of_exhausted M hx he, parties, hx, he]
      · simp [sweep_of_accepts M hx he, parties, hx, he, ih]
    · simp [sweep_of_not_accepts M hx, parties, hx]

/-- The resting parties are at the front of the queue. -/
lemma parties_prefix : ∀ (q : List α) (b : β), (M.parties q b).map Prod.fst <+: q := by
  intro q
  induction q with
  | nil => intro b; exact List.prefix_refl _
  | cons x q ih =>
    intro b
    unfold parties
    split_ifs
    · exact List.prefix_cons_inj x |>.2 (List.nil_prefix)
    · exact List.prefix_cons_inj x |>.2 (ih _)
    · exact List.nil_prefix

lemma parties_append (q' : List α) : ∀ (q : List α) (b : β),
    M.parties (q ++ q') b = M.parties q b ++
      if M.runsThrough q b then M.parties q' (M.sweep q b).incoming else [] := by
  intro q
  induction q with
  | nil => intro b; simp [parties, runsThrough]
  | cons x q ih =>
    intro b
    by_cases hx : M.accepts b x
    · by_cases he : M.exhausted (M.trade x b).incoming
      · simp [parties, runsThrough, hx, he]
      · simp [parties, runsThrough, hx, he, ih, sweep_of_accepts M hx he]
    · simp [parties, runsThrough, hx]

/-- The rule for the parties of single trades. -/
lemma parties_forall {I : β → Prop} {P : α → Prop}
    (htrade : ∀ x b, P x → I b → M.accepts b x → ¬ M.exhausted (M.trade x b).incoming →
      I (M.trade x b).incoming) :
    ∀ (q : List α) (b : β), (∀ x ∈ q, P x) → I b → ∀ p ∈ M.parties q b, P p.1 ∧ I p.2 := by
  intro q
  induction q with
  | nil => intro b _ _ p hp; simp [parties] at hp
  | cons x q ih =>
    intro b hq hb p hp
    have hx := hq x List.mem_cons_self
    unfold parties at hp
    split_ifs at hp with hacc he
    · rw [List.mem_singleton.1 hp]
      exact ⟨hx, hb⟩
    · rcases List.mem_cons.1 hp with rfl | hp
      · exact ⟨hx, hb⟩
      · exact ih _ (fun y hy => hq y (List.mem_cons_of_mem _ hy)) (htrade x b hx hb hacc he) p hp
    · simp at hp

end MatchRule

/-! ### Price first, time second -/

/-- A resting order with its arrival number. -/
structure Stamped (α : Type*) where
  arrival : ℕ
  order : α

/-- Price-time priority among the orders of one side: the better price (the smaller rank)
comes first, and at the same price the earlier arrival. -/
def PriceTime.Before {α ς κ : Type*} [LinearOrder κ] (side : α → ς) (rank : α → κ)
    (x y : Stamped α) : Prop :=
  side x.order = side y.order ∧
    (rank x.order < rank y.order ∨ rank x.order = rank y.order ∧ x.arrival < y.arrival)

namespace MatchRule

variable {α β τ ς κ : Type*} [LinearOrder κ] (M : MatchRule α β τ)

/-- What a rule must satisfy for its orders to be ranked by price. -/
structure Priced (side : α → ς) (rank : α → κ) : Prop where
  accepts_of_rank_le : ∀ {b x y}, side x = side y → rank x ≤ rank y → M.accepts b y →
    M.accepts b x
  accepts_trade : ∀ x b y, M.accepts (M.trade x b).incoming y = M.accepts b y
  used_up : ∀ x b, M.spent (M.trade x b).resting ∨ M.exhausted (M.trade x b).incoming

/-- After a sweep of a queue in the order of its ranks that leaves something of the incoming
order, nothing in the queue is acceptable any more. -/
lemma Priced.sweep_rest_not_accepts {M : MatchRule α β τ} {side : α → ς} {rank : α → κ}
    (h : M.Priced side rank) {s : ς} : ∀ (q : List α) (b : β),
    (∀ x ∈ q, side x = s) → q.Pairwise (fun x y => rank x ≤ rank y) →
    ¬ M.exhausted (M.sweep q b).incoming → ∀ x ∈ (M.sweep q b).rest, ¬ M.accepts b x := by
  intro q
  induction q with
  | nil => intro b _ _ _; simp
  | cons x q ih =>
    intro b hs hq hne
    have hs' : ∀ y ∈ q, side y = s := fun y hy => hs y (List.mem_cons_of_mem _ hy)
    by_cases hacc : M.accepts b x
    · by_cases he : M.exhausted (M.trade x b).incoming
      · rw [sweep_of_exhausted M hacc he] at hne
        exact absurd he hne
      · have hspent : M.spent (M.trade x b).resting := (h.used_up x b).resolve_right he
        rw [sweep_of_accepts M hacc he] at hne ⊢
        rw [kept, if_pos hspent, List.nil_append]
        intro y hy
        rw [← h.accepts_trade x b y]
        exact ih _ hs' hq.of_cons hne y hy
    · rw [sweep_of_not_accepts M hacc]
      intro y hy hacc'
      rcases List.mem_cons.1 hy with rfl | hy
      · exact hacc hacc'
      · refine hacc (h.accepts_of_rank_le ?_ (List.rel_of_pairwise_cons hq hy) hacc')
        rw [hs x List.mem_cons_self, hs' y hy]

/-- The rule on orders that carry their arrival numbers. -/
def stamped : MatchRule (Stamped α) β τ where
  accepts b x := M.accepts b x.order
  exhausted := M.exhausted
  spent x := M.spent x.order
  trade x b := ⟨⟨x.arrival, (M.trade x.order b).resting⟩, (M.trade x.order b).incoming,
    (M.trade x.order b).record⟩

lemma Priced.lawful {M : MatchRule α β τ} {side : α → ς} {rank : α → κ}
    (h : M.Priced side rank) : M.stamped.Lawful (PriceTime.Before side rank) where
  asymm := by
    rintro x y ⟨-, hxy⟩ ⟨-, hyx⟩
    rcases hxy with hxy | ⟨hxy, hn⟩ <;> rcases hyx with hyx | ⟨hyx, hm⟩
    · exact lt_asymm hxy hyx
    · exact hxy.ne' hyx
    · exact hyx.ne' hxy
    · exact lt_asymm hn hm
  accepts_of_before := by
    rintro b x y ⟨hs, hxy⟩ hy
    refine h.accepts_of_rank_le hs ?_ hy
    rcases hxy with hxy | ⟨hxy, -⟩
    · exact hxy.le
    · exact hxy.le
  accepts_trade x b y := h.accepts_trade x.order b y.order
  used_up x b := h.used_up x.order b

/-- Arrival numbers do not take part in a sweep. -/
lemma sweep_stamped : ∀ (q : List (Stamped α)) (b : β),
    M.sweep (q.map Stamped.order) b = ⟨(M.stamped.sweep q b).trades,
      (M.stamped.sweep q b).rest.map Stamped.order, (M.stamped.sweep q b).incoming⟩ := by
  have hkept : ∀ x : Stamped α,
      (M.stamped.kept x).map Stamped.order = M.kept x.order := by
    intro x
    by_cases h : M.spent x.order
    · simp [kept, stamped, h]
    · simp [kept, stamped, h]
  intro q
  induction q with
  | nil => intro b; rfl
  | cons x q ih =>
    intro b
    by_cases hx : M.accepts b x.order
    · by_cases he : M.exhausted (M.trade x.order b).incoming
      · rw [List.map_cons, sweep_of_exhausted M hx he,
          sweep_of_exhausted M.stamped (x := x) hx he, List.map_append, hkept]
        rfl
      · rw [List.map_cons, sweep_of_accepts M hx he,
          sweep_of_accepts M.stamped (x := x) hx he, List.map_append, hkept, ih]
        rfl
    · rw [List.map_cons, sweep_of_not_accepts M hx,
        sweep_of_not_accepts M.stamped (x := x) hx]
      rfl

end MatchRule

end TradingEngine.Lib
