/-
The steps of a single node keep its invariant.

The node starts its actors, announces the result actor and then runs; `Starting.step`,
`Announcing.step` and `Running.step` say which phase a step leads to.
-/
import TradingEngine.System.SingleNode

namespace TradingEngine.System

open Lib MatchEngine MatchEngine.Cluster Matching

/-- The orders that come in have positive amounts and a subscriber for their trades, and
there is one subscription. -/
def Admitted (node : EngineNode) : EngineEvent → Prop
  | .act _ (.match request) =>
    0 < (request.amount : ℤ) ∧ node.grpc.matchResultWriterKeepers = [()]
  | .act _ (.subscribe _) => node.grpc.matchResultWriterKeepers = []
  | _ => True

variable {symbols : List ℤ} {node node' : EngineNode} {mail mail' rest : List (Post Unit)}
  {e : EngineEvent}

/-! ### Ready match actors -/

lemma Ready.append {books : List (OrderBook (Address Unit))} {k : ℕ}
    (h : Ready books mail k) (out : List (Post Unit)) : Ready books (mail ++ out) k := by
  rcases h with h | ⟨hmem, hpreceded⟩
  · exact Or.inl h
  · exact Or.inr ⟨List.mem_append_left _ hmem, hpreceded.append ⟨_, hmem, rfl⟩⟩

lemma Ready.remove {books : List (OrderBook (Address Unit))} {k : ℕ} {post : Post Unit}
    (h : Ready books mail k) (htaken : Taken post mail rest) (hpost : post ≠ receiverPost k) :
    Ready books rest k := by
  rcases h with h | ⟨hmem, hpreceded⟩
  · exact Or.inl h
  · refine Or.inr ⟨htaken.mem_rest hmem hpost.symm, ?_⟩
    obtain ⟨m₁, m₂, rfl, rfl, -⟩ := htaken
    exact hpreceded.remove hpost

/-- A match actor that handles a message keeps the receiver it has. -/
lemma Ready.set {books : List (OrderBook (Address Unit))} {j k : ℕ}
    {book book' : OrderBook (Address Unit)} (h : Ready books mail j) (hbook : books[k]? = some book)
    (hreceiver : book.matchResultActor = some (.matchResultDealActor ()) →
      book'.matchResultActor = some (.matchResultDealActor ())) :
    Ready (books.set k book') mail j := by
  rcases h with ⟨old, hold, hset⟩ | h
  · rcases eq_or_ne k j with rfl | hne
    · obtain rfl : book = old := Option.some.inj (hbook.symm.trans hold)
      exact Or.inl ⟨book', List.getElem?_set_self (List.getElem?_eq_some_iff.1 hbook).1,
        hreceiver hset⟩
    · exact Or.inl ⟨old, (List.getElem?_set_ne hne).trans hold, hset⟩
  · exact Or.inr h

/-! ### The phases -/

lemma Starting.step (h : Starting node mail)
    (hstep : EngineStep symbols node mail e node' mail') :
    Starting node' mail' ∨ Announcing node' mail' := by
  have hmain : node.main ≠ some [] := by
    rcases h.main with ⟨hmain, -⟩ | ⟨symbols, hmain⟩ <;> rw [hmain] <;> simp
  -- every message is for the router, from the main thread
  have hnot : ∀ {post rest}, Taken post mail rest →
      (∀ symbolId k, post ≠ localSymbolPost symbolId k) → False := by
    intro post rest htaken hpost
    obtain ⟨symbolId, k, heq⟩ := h.posts post htaken.mem
    exact hpost symbolId k heq
  cases hstep with
  | boot _ =>
    refine Or.inl ⟨Or.inr ⟨symbols, ?_⟩, h.posts, h.known⟩
    simp [mainSteps, singleNode]
  | @spawnMatchActor symbolId steps hstart =>
    refine Or.inl ⟨?_, fun post hpost => ?_, fun k hk => ?_⟩
    · rcases h.main with ⟨hnone, -⟩ | ⟨symbols, hsome⟩
      · rw [hnone] at hstart
        cases hstart
      · rw [hsome, Option.some.injEq] at hstart
        cases symbols with
        | nil => simp at hstart
        | cons symbol symbols =>
          refine Or.inr ⟨symbols, ?_⟩
          rw [List.map_cons, List.cons_append] at hstart
          exact congrArg some (List.cons.inj hstart).2.symm
    · rcases List.mem_append.1 hpost with hpost | hpost
      · exact h.posts post hpost
      · exact ⟨symbolId, _, List.mem_singleton.1 hpost⟩
    · simp only [List.length_append, List.length_singleton] at hk
      rcases Nat.lt_succ_iff_lt_or_eq.1 hk with hk | rfl
      · rcases h.known k hk with hknown | ⟨symbolId', hmem⟩
        · exact Or.inl hknown
        · exact Or.inr ⟨symbolId', List.mem_append_left _ hmem⟩
      · exact Or.inr ⟨symbolId, List.mem_append_right _ List.mem_cons_self⟩
  | spawnResultActor hstart =>
    -- the last step of the main thread
    rcases h.main with ⟨hnone, -⟩ | ⟨symbols, hsome⟩
    · rw [hnone] at hstart
      cases hstart
    · rw [hsome, Option.some.injEq] at hstart
      cases symbols with
      | cons symbol symbols => simp at hstart
      | nil =>
        refine Or.inr ⟨congrArg some (List.cons.inj hstart).2.symm, mail, [], rfl, h.posts,
          by simp, h.known⟩
  | quiet _ hquiet => exact absurd hquiet hmain
  | «match» _ hmatch => exact absurd hmatch hmain
  | subscribe hsubscribe => exact absurd hsubscribe hmain
  | read _ => exact Or.inl ⟨h.main, h.posts, h.known⟩
  | @routerSymbol rest symbolId k now htaken =>
    refine Or.inl ⟨h.main, fun post hpost => h.posts post (htaken.mem_of_mem hpost),
      fun j hj => ?_⟩
    rcases h.known j hj with ⟨info, hinfo, heq⟩ | ⟨symbolId', hmem⟩
    · exact Or.inl ⟨info, List.mem_append_left _ hinfo, heq⟩
    · by_cases hpost : localSymbolPost symbolId' j = localSymbolPost symbolId k
      · obtain ⟨-, rfl⟩ : symbolId' = symbolId ∧ j = k := by simpa [localSymbolPost] using hpost
        exact Or.inl ⟨⟨symbolId, .matchActor () j⟩,
          List.mem_append_right _ List.mem_cons_self, rfl⟩
      · exact Or.inr ⟨symbolId', htaken.mem_rest hmem hpost⟩
  | routerAnnounce _ htaken => exact (hnot htaken (by rintro symbolId k ⟨⟩)).elim
  | routerOrder _ htaken => exact (hnot htaken (by rintro symbolId k ⟨⟩)).elim
  | routerDrop _ htaken => exact (hnot htaken (by rintro symbolId k ⟨⟩)).elim
  | actorReceiver _ htaken => exact (hnot htaken (by rintro symbolId k ⟨⟩)).elim
  | actorOrder _ htaken => exact (hnot htaken (by rintro symbolId k ⟨⟩)).elim
  | resultTrades _ htaken => exact (hnot htaken (by rintro symbolId k ⟨⟩)).elim

lemma Announcing.step (h : Announcing node mail)
    (hstep : EngineStep symbols node mail e node' mail') :
    Announcing node' mail' ∨ Running node' mail' := by
  obtain ⟨hmain, before, after, rfl, hbefore, hafter, hknown⟩ := h
  -- every message is for the router
  have hrouter : ∀ post ∈ before ++ announcement :: after, post.dst = .router () := by
    intro post hpost
    rcases List.mem_append.1 hpost with hpost | hpost
    · obtain ⟨symbolId, k, rfl⟩ := hbefore post hpost
      rfl
    · rcases List.mem_cons.1 hpost with rfl | hpost
      · rfl
      · obtain ⟨o, rfl⟩ := hafter post hpost
        rfl
  have hother : ∀ {post rest}, Taken post (before ++ announcement :: after) rest →
      post.dst ≠ .router () → False :=
    fun htaken hdst => hdst (hrouter _ htaken.mem)
  -- so the first one is taken
  have hfirst : ∀ {post rest}, Taken post (before ++ announcement :: after) rest →
      (∃ before', before = post :: before' ∧ rest = before' ++ announcement :: after) ∨
        before = [] ∧ post = announcement ∧ rest = after := by
    intro post rest htaken
    have hdst := hrouter post htaken.mem
    cases before with
    | nil =>
      obtain ⟨rfl, rfl⟩ := htaken.of_cons hdst
      exact Or.inr ⟨rfl, rfl, rfl⟩
    | cons first before =>
      obtain ⟨rfl, rfl⟩ := htaken.of_cons
        (hdst.trans (hrouter first (List.mem_append_left _ List.mem_cons_self)).symm)
      exact Or.inl ⟨before, rfl, rfl⟩
  have horder : ∀ {o rest}, Taken (orderPost o) (before ++ announcement :: after) rest →
      False := by
    intro o rest htaken
    rcases hfirst htaken with ⟨before', rfl, -⟩ | ⟨-, heq, -⟩
    · obtain ⟨symbolId, k, heq⟩ := hbefore _ List.mem_cons_self
      cases heq
    · cases heq
  cases hstep with
  | boot hnone =>
    rw [hmain] at hnone
    cases hnone
  | spawnMatchActor hstart =>
    rw [hmain] at hstart
    cases hstart
  | spawnResultActor hstart =>
    rw [hmain] at hstart
    cases hstart
  | quiet _ _ _ _ => exact Or.inl ⟨hmain, before, after, rfl, hbefore, hafter, hknown⟩
  | «match» request _ =>
    refine Or.inl ⟨hmain, before, _, by rw [List.append_assoc, List.cons_append], hbefore,
      fun post hpost => ?_, hknown⟩
    rcases List.mem_append.1 hpost with hpost | hpost
    · exact hafter post hpost
    · obtain ⟨o, -, rfl⟩ := List.mem_map.1 hpost
      exact ⟨o, rfl⟩
  | subscribe _ => exact Or.inl ⟨hmain, before, after, rfl, hbefore, hafter, hknown⟩
  | read _ => exact Or.inl ⟨hmain, before, after, rfl, hbefore, hafter, hknown⟩
  | @routerSymbol rest symbolId k now htaken =>
    rcases hfirst htaken with ⟨before', rfl, rfl⟩ | ⟨-, heq, -⟩
    · refine Or.inl ⟨hmain, before', after, rfl,
        fun post hpost => hbefore post (List.mem_cons_of_mem _ hpost), hafter, fun j hj => ?_⟩
      rcases hknown j hj with ⟨info, hinfo, heq⟩ | ⟨symbolId', hmem⟩
      · exact Or.inl ⟨info, List.mem_append_left _ hinfo, heq⟩
      · rcases List.mem_cons.1 hmem with heq | hmem
        · obtain ⟨-, rfl⟩ : symbolId' = symbolId ∧ j = k := by simpa [localSymbolPost] using heq
          exact Or.inl ⟨⟨symbolId, .matchActor () j⟩,
            List.mem_append_right _ List.mem_cons_self, rfl⟩
        · exact Or.inr ⟨symbolId', hmem⟩
    · cases heq
  | @routerAnnounce rest now htaken =>
    rcases hfirst htaken with ⟨before', rfl, -⟩ | ⟨rfl, -, rfl⟩
    · obtain ⟨symbolId, k, heq⟩ := hbefore _ List.mem_cons_self
      cases heq
    · -- every match actor is sent the receiver, and no order is on its way to one
      refine Or.inr ⟨hmain, fun post hpost => ?_, fun k hk => Or.inr ⟨?_, ?_⟩⟩
      · rcases List.mem_append.1 hpost with hpost | hpost
        · obtain ⟨o, rfl⟩ := hafter post hpost
          exact ⟨by rintro ⟨⟩, by rintro symbolId k ⟨⟩⟩
        · obtain ⟨a, -, rfl⟩ := List.mem_map.1 hpost
          exact ⟨by rintro ⟨⟩, by rintro symbolId k ⟨⟩⟩
      · rcases hknown k hk with ⟨info, hinfo, heq⟩ | ⟨symbolId, hmem⟩
        · refine List.mem_append_right _ (List.mem_map.2 ⟨.matchActor () k, ?_, rfl⟩)
          rw [← heq]
          exact List.mem_map_of_mem hinfo
        · cases hmem
      · refine preceded_of_forall ?_
        rintro post hpost ⟨o, rfl⟩
        rcases List.mem_append.1 hpost with hpost | hpost
        · obtain ⟨o', heq⟩ := hafter _ hpost
          cases heq
        · obtain ⟨a, -, heq⟩ := List.mem_map.1 hpost
          cases heq
  | routerOrder _ htaken => exact (horder htaken).elim
  | routerDrop _ htaken => exact (horder htaken).elim
  | actorReceiver _ htaken => exact (hother htaken (by rintro ⟨⟩)).elim
  | actorOrder _ htaken => exact (hother htaken (by rintro ⟨⟩)).elim
  | resultTrades _ htaken => exact (hother htaken (by rintro ⟨⟩)).elim

lemma Running.step (h : Running node mail) (hstep : EngineStep symbols node mail e node' mail') :
    Running node' mail' := by
  obtain ⟨hmain, hposts, hready⟩ := h
  -- what is sent from now on is no message of the start
  have hsent : ∀ {rest out : List (Post Unit)}, (∀ post ∈ rest, post ∈ mail) →
      (∀ post ∈ out, ∀ symbolId a, post.msg ≠ .localSymbolActor symbolId a ∧ post.msg ≠ .actor a) →
      ∀ post ∈ rest ++ out, post ≠ announcement ∧
        ∀ symbolId k, post ≠ localSymbolPost symbolId k := by
    intro rest out hrest hout post hpost
    rcases List.mem_append.1 hpost with hpost | hpost
    · exact hposts post (hrest post hpost)
    · constructor
      · rintro rfl
        exact (hout _ hpost 0 _).2 rfl
      · rintro symbolId k rfl
        exact (hout _ hpost symbolId _).1 rfl
  cases hstep with
  | boot hnone =>
    rw [hmain] at hnone
    cases hnone
  | spawnMatchActor hstart =>
    rw [hmain] at hstart
    cases hstart
  | spawnResultActor hstart =>
    rw [hmain] at hstart
    cases hstart
  | quiet _ _ _ _ => exact ⟨hmain, hposts, hready⟩
  | «match» request _ =>
    refine ⟨hmain, hsent (fun _ h => h) fun post hpost => ?_, fun k hk => (hready k hk).append _⟩
    obtain ⟨o, -, rfl⟩ := List.mem_map.1 hpost
    exact fun symbolId a => ⟨by rintro ⟨⟩, by rintro ⟨⟩⟩
  | subscribe _ => exact ⟨hmain, hposts, hready⟩
  | read _ => exact ⟨hmain, hposts, hready⟩
  | routerSymbol _ htaken => exact absurd rfl ((hposts _ htaken.mem).2 _ _)
  | routerAnnounce _ htaken => exact absurd rfl (hposts _ htaken.mem).1
  | routerOrder _ htaken _ _ =>
    refine ⟨hmain, hsent (fun _ => htaken.mem_of_mem) fun post hpost => ?_,
      fun k hk => ((hready k hk).remove htaken (by rintro ⟨⟩)).append _⟩
    rw [List.mem_singleton.1 hpost]
    exact fun symbolId a => ⟨by rintro ⟨⟩, by rintro ⟨⟩⟩
  | routerDrop _ htaken _ =>
    exact ⟨hmain, fun post hpost => hposts post (htaken.mem_of_mem hpost),
      fun k hk => (hready k hk).remove htaken (by rintro ⟨⟩)⟩
  | @actorReceiver rest k book now htaken hbook =>
    refine ⟨hmain, fun post hpost => hposts post (htaken.mem_of_mem hpost), fun j hj => ?_⟩
    rw [List.length_set] at hj
    rcases eq_or_ne j k with rfl | hne
    · exact Or.inl ⟨_, List.getElem?_set_self hj, rfl⟩
    · refine ((hready j hj).remove htaken ?_).set hbook fun _ => rfl
      simpa [receiverPost] using hne.symm
  | @actorOrder rest k o book now htaken hbook hreceiver =>
    refine ⟨hmain, hsent (fun _ => htaken.mem_of_mem) fun post hpost => ?_, fun j hj => ?_⟩
    · split_ifs at hpost
      · cases hpost
      · rw [List.mem_singleton.1 hpost]
        exact fun symbolId a => ⟨by rintro ⟨⟩, by rintro ⟨⟩⟩
    · rw [List.length_set] at hj
      refine (((hready j hj).remove htaken (by rintro ⟨⟩)).set hbook fun hset => ?_).append _
      rw [matchActorOrder_matchResultActor]
      exact hset
  | resultTrades _ htaken _ =>
    exact ⟨hmain, fun post hpost => hposts post (htaken.mem_of_mem hpost),
      fun k hk => (hready k hk).remove htaken (by rintro ⟨⟩)⟩

/-! ### The invariant -/

/-- The messages that a step may send. -/
inductive Sent (node node' : EngineNode) (mail : List (Post Unit)) (e : EngineEvent) :
    Post Unit → Prop
  | localSymbol (symbolId : ℤ) (hk : node.books.length < node'.books.length) :
      Sent node node' mail e (localSymbolPost symbolId node.books.length)
  | announcement : Sent node node' mail e announcement
  | order {request : MatchEngineProto.Order} {o : RawOrder} (he : e = .act () (.match request))
      (ho : (node.grpc.match request).2.2 = some o) : Sent node node' mail e (orderPost o)
  | receiver {k : ℕ} (hk : k < node.books.length) : Sent node node' mail e (receiverPost k)
  | routed {k : ℕ} {o : RawOrder} (hk : k < node.books.length) (ho : orderPost o ∈ mail) :
      Sent node node' mail e (routedPost k o)
  | trades {k : ℕ} {o : RawOrder} {ts : TradeList} (hts : ts ≠ []) (ho : routedPost k o ∈ mail) :
      Sent node node' mail e (tradesPost k ts)

/-- A message is older than the step, or sent by it. -/
lemma mem_mail_step (h : EngineInv node mail)
    (hstep : EngineStep symbols node mail e node' mail') {post : Post Unit} (hpost : post ∈ mail') :
    post ∈ mail ∨ Sent node node' mail e post := by
  cases hstep with
  | boot _ => exact Or.inl hpost
  | @spawnMatchActor symbolId steps _ =>
    rcases List.mem_append.1 hpost with hpost | hpost
    · exact Or.inl hpost
    · rw [List.mem_singleton.1 hpost]
      exact Or.inr (.localSymbol symbolId (by simp))
  | spawnResultActor _ =>
    rcases List.mem_append.1 hpost with hpost | hpost
    · exact Or.inl hpost
    · rw [List.mem_singleton.1 hpost]
      exact Or.inr .announcement
  | quiet _ _ _ _ => exact Or.inl hpost
  | «match» request _ =>
    rcases List.mem_append.1 hpost with hpost | hpost
    · exact Or.inl hpost
    · obtain ⟨o, ho, rfl⟩ := List.mem_map.1 hpost
      exact Or.inr (.order rfl (Option.mem_toList.1 ho))
  | subscribe _ => exact Or.inl hpost
  | read _ => exact Or.inl hpost
  | routerSymbol _ htaken => exact Or.inl (htaken.mem_of_mem hpost)
  | routerAnnounce _ htaken =>
    rcases List.mem_append.1 hpost with hpost | hpost
    · exact Or.inl (htaken.mem_of_mem hpost)
    · obtain ⟨a, ha, rfl⟩ := List.mem_map.1 hpost
      obtain ⟨info, hinfo, rfl⟩ := List.mem_map.1 ha
      obtain ⟨k, hk, heq⟩ := h.receivers info hinfo
      rw [heq]
      exact Or.inr (.receiver hk)
  | routerOrder _ htaken hk _ =>
    rcases List.mem_append.1 hpost with hpost | hpost
    · exact Or.inl (htaken.mem_of_mem hpost)
    · rw [List.mem_singleton.1 hpost]
      exact Or.inr (.routed hk htaken.mem)
  | routerDrop _ htaken _ => exact Or.inl (htaken.mem_of_mem hpost)
  | actorReceiver _ htaken _ => exact Or.inl (htaken.mem_of_mem hpost)
  | actorOrder _ htaken _ _ =>
    rcases List.mem_append.1 hpost with hpost | hpost
    · exact Or.inl (htaken.mem_of_mem hpost)
    · split_ifs at hpost with hts
      · cases hpost
      · rw [List.mem_singleton.1 hpost]
        exact Or.inr (.trades hts htaken.mem)
  | resultTrades _ htaken _ => exact Or.inl (htaken.mem_of_mem hpost)

/-- Match actors are only added. -/
lemma length_step (hstep : EngineStep symbols node mail e node' mail') :
    node.books.length ≤ node'.books.length := by
  cases hstep <;> simp

/-- Only a subscription changes the subscribers. -/
lemma keepers_step (hstep : EngineStep symbols node mail e node' mail') :
    node'.grpc.matchResultWriterKeepers = node.grpc.matchResultWriterKeepers ∨
      e = .act () (.subscribe ()) ∧
        node'.grpc.matchResultWriterKeepers = node.grpc.matchResultWriterKeepers ++ [()] := by
  cases hstep with
  | subscribe _ => exact Or.inr ⟨rfl, rfl⟩
  | _ => exact Or.inl rfl

lemma posts_step (h : EngineInv node mail) (hstep : EngineStep symbols node mail e node' mail') :
    ∀ post ∈ mail', EnginePost node'.books.length post := by
  intro post hpost
  have hle := length_step hstep
  rcases mem_mail_step h hstep hpost with hold | hsent
  · exact (h.posts post hold).mono hle
  · cases hsent with
    | localSymbol symbolId hk => exact .localSymbol symbolId hk
    | announcement => exact .announcement
    | order _ _ => exact .order _
    | receiver hk => exact .receiver (hk.trans_le hle)
    | routed hk _ => exact .routed (hk.trans_le hle) _
    | trades hts _ => exact .trades _ hts

lemma orders_step (h : EngineInv node mail) (he : Admitted node e)
    (hstep : EngineStep symbols node mail e node' mail') :
    ∀ post ∈ mail', ∀ o, post.msg = .rawOrder o → 0 < o.amount := by
  intro post hpost o hmsg
  rcases mem_mail_step h hstep hpost with hold | hsent
  · exact h.orders post hold o hmsg
  · cases hsent with
    | @order request o' hmatch ho =>
      obtain rfl : o' = o := Message.rawOrder.inj hmsg
      subst hmatch
      rw [match_order ho]
      exact he.1
    | @routed k o' _ ho =>
      obtain rfl : o' = o := Message.rawOrder.inj hmsg
      exact h.orders _ ho o' rfl
    | _ => cases hmsg

lemma subscribed_step (h : EngineInv node mail) (he : Admitted node e)
    (hstep : EngineStep symbols node mail e node' mail') : Subscribed node' mail' := by
  rcases keepers_step hstep with hkeepers | ⟨rfl, hkeepers⟩
  · rcases h.subscribed with hone | ⟨hnil, hnone⟩
    · exact Or.inl (hkeepers.trans hone)
    · -- without a subscriber there is no order that could be passed on or lead to trades
      refine Or.inr ⟨hkeepers.trans hnil, fun post hpost => ?_⟩
      rcases mem_mail_step h hstep hpost with hold | hsent
      · exact hnone post hold
      · cases hsent with
        | order hmatch _ =>
          subst hmatch
          rw [he.2] at hnil
          cases hnil
        | routed _ ho => exact absurd rfl ((hnone _ ho).1 _)
        | trades _ ho => exact absurd rfl ((hnone _ ho).1 _)
        | _ => exact ⟨by rintro o ⟨⟩, by rintro ts ⟨⟩⟩
  · refine Or.inl ?_
    rw [hkeepers, show node.grpc.matchResultWriterKeepers = [] from he, List.nil_append]

/-- The books after a step. -/
lemma books_step (h : EngineInv node mail) (hstep : EngineStep symbols node mail e node' mail') :
    ∀ book ∈ node'.books, BookOk book ∧ AmountsIn (0 < ·) book := by
  cases hstep with
  | spawnMatchActor _ =>
    intro book hbook
    rcases List.mem_append.1 hbook with hbook | hbook
    · exact h.books book hbook
    · rw [List.mem_singleton.1 hbook]
      exact ⟨bookOk_empty none, amountsIn_empty _ none⟩
  | @actorReceiver rest k book now _ hbook =>
    intro book' hbook'
    obtain ⟨hok, hamounts⟩ := h.books book (List.mem_of_getElem? hbook)
    rcases List.mem_or_eq_of_mem_set hbook' with hbook' | rfl
    · exact h.books book' hbook'
    · exact ⟨⟨hok.table_ok⟩, hamounts⟩
  | @actorOrder rest k o book now htaken hbook _ =>
    intro book' hbook'
    obtain ⟨hok, hamounts⟩ := h.books book (List.mem_of_getElem? hbook)
    rcases List.mem_or_eq_of_mem_set hbook' with hbook' | rfl
    · exact h.books book' hbook'
    · exact ⟨matchActorOrder_bookOk now o hok, matchActorOrder_amounts now tradingRange_pos hok
        hamounts (h.orders _ htaken.mem o rfl)⟩
  | _ => exact h.books

lemma serving_step (h : EngineInv node mail) (hstep : EngineStep symbols node mail e node' mail') :
    node'.serving = true → node'.main = some [] := by
  have hmain : ∀ {step steps}, node.main = some (step :: steps) → node.serving ≠ true := by
    intro step steps hstart hserving
    rw [h.serving hserving] at hstart
    cases hstart
  cases hstep with
  | boot hnone =>
    intro hserving
    rw [h.serving hserving] at hnone
    cases hnone
  | spawnMatchActor hstart => exact fun hserving => absurd hserving (hmain hstart)
  | spawnResultActor hstart => exact fun hserving => absurd hserving (hmain hstart)
  | quiet _ hready _ _ => exact fun _ => hready
  | _ => exact h.serving

/-- The tables of the router hold match actors of the node. -/
lemma router_step (h : EngineInv node mail) (hstep : EngineStep symbols node mail e node' mail') :
    (∀ symbolId a, node'.router.symbolActor symbolId = some a →
      ∃ k < node'.books.length, a = .matchActor () k) ∧
    ∀ info ∈ node'.router.localSymbolActors,
      ∃ k < node'.books.length, info.symbolActor = .matchActor () k := by
  have hle := length_step hstep
  have hactors : ∀ symbolId a, node.router.symbolActor symbolId = some a →
      ∃ k < node'.books.length, a = .matchActor () k := by
    intro symbolId a ha
    obtain ⟨k, hk, heq⟩ := h.actors symbolId a ha
    exact ⟨k, hk.trans_le hle, heq⟩
  have hreceivers : ∀ info ∈ node.router.localSymbolActors,
      ∃ k < node'.books.length, info.symbolActor = .matchActor () k := by
    intro info hinfo
    obtain ⟨k, hk, heq⟩ := h.receivers info hinfo
    exact ⟨k, hk.trans_le hle, heq⟩
  cases hstep with
  | @routerSymbol rest symbolId k now htaken =>
    have hk : k < node.books.length := (h.posts _ htaken.mem).lt_of_localSymbol
    refine ⟨fun symbolId' a ha => ?_, fun info hinfo => ?_⟩
    · rw [SymbolRouterData.symbolActor_addLocalSymbolActor] at ha
      split_ifs at ha
      · exact ⟨k, hk, (Option.some.inj ha).symm⟩
      · exact hactors symbolId' a ha
    · rcases List.mem_append.1 hinfo with hinfo | hinfo
      · exact hreceivers info hinfo
      · rw [List.mem_singleton.1 hinfo]
        exact ⟨k, hk, rfl⟩
  | routerDrop now _ _ =>
    refine ⟨fun symbolId a ha => hactors symbolId a ?_, hreceivers⟩
    rw [← ha]
    exact (SymbolRouterData.symbolActor_lookUp _ _ _).symm
  | _ => exact ⟨hactors, hreceivers⟩

/-- **Every step keeps the invariant of the node.** -/
theorem EngineInv.step (h : EngineInv node mail) (he : Admitted node e)
    (hstep : EngineStep symbols node mail e node' mail') : EngineInv node' mail' where
  calls := by cases hstep <;> exact h.calls
  serving := serving_step h hstep
  posts := posts_step h hstep
  actors := (router_step h hstep).1
  receivers := (router_step h hstep).2
  books := books_step h hstep
  orders := orders_step h he hstep
  subscribed := subscribed_step h he hstep
  phase := by
    rcases h.phase with hphase | hphase | hphase
    · rcases hphase.step hstep with hphase | hphase
      · exact Or.inl hphase
      · exact Or.inr (Or.inl hphase)
    · exact Or.inr (hphase.step hstep)
    · exact Or.inr (Or.inr (hphase.step hstep))

lemma engineInv_init : EngineInv {} [] :=
  ⟨rfl, by simp, by simp, by simp, by simp, by simp, by simp, Or.inr ⟨rfl, by simp⟩,
    Or.inl ⟨Or.inl ⟨rfl, rfl⟩, by simp, by simp⟩⟩

end TradingEngine.System
