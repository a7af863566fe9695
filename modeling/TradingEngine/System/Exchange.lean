/-
An order manager in front of a match engine of one node.

`PlaceOrder` calls `Match` of the node, and the thread of the subscription reads the stream of
the node and calls `HandleMatchResult` for every trade.  The rest of the file says what the
node holds of an order, and `held_step` how a step of the node changes it.
-/
import TradingEngine.Matching.Conservation
import TradingEngine.OrderManager.Steps
import TradingEngine.System.Phases

namespace TradingEngine.System

open Lib MatchEngine MatchEngine.Cluster Matching OrderManager

/-! ### The composed system -/

/-- An order manager and an engine of one node. -/
structure ExchangeState (symbols : List ℤ) where
  manager : OrderManagerService
  engine : EngineState symbols

/-- A step of a call, of the thread that reads trades, or of the engine. -/
inductive ExchangeEvent
  | placeOrder (now : ℤ) (request : OrderManagerProto.Order)
  | save (i : ℕ)
  | persistUnsubmitted (i : ℕ)
  /-- `Match` of the `i`-th call reaches the node. -/
  | submit (i : ℕ)
  | persistResult (i : ℕ)
  /-- The first trade of the stream is read, and passes the critical section. -/
  | receive
  | persistTrade
  | subscribe
  | engine (e : EngineEvent)

variable {symbols : List ℤ}

/-- `reply.status() == STATUS_SUCCESS && status.ok()`. -/
def succeeds {κ : Type} (impl : MatchEngineGRPCImpl κ) (request : MatchEngineProto.Order) : Bool :=
  (impl.match request).1 = .ok ∧ (impl.match request).2.1 = .statusSuccess

/-- Events of the node that need no client. -/
def Internal : EngineEvent → Bool
  | .act _ (.match _) => false
  | .act _ (.subscribe _) => false
  | .act _ (.read _) => false
  | _ => true

namespace ExchangeState

/-- The state of the node. -/
abbrev node (s : ExchangeState symbols) : EngineNode := s.engine.nodes ()

/-- The mailboxes of the node. -/
abbrev mail (s : ExchangeState symbols) : List (Post Unit) := s.engine.net.mail

/-- A step of the order manager alone. -/
def stepManager (s : ExchangeState symbols) (e : OrderManager.Event) :
    Option (ExchangeState symbols) :=
  (s.manager.step e).map fun manager => { s with manager := manager }

/-- A step of the engine alone. -/
def stepEngine (s : ExchangeState symbols) (e : EngineEvent) : Option (ExchangeState symbols) :=
  ((system Unit (singleNode symbols)).step s.engine e).map fun engine => { s with engine := engine }

/-- A call of `PlaceOrder` begins after the one subscription. -/
def step (s : ExchangeState symbols) : ExchangeEvent → Option (ExchangeState symbols)
  | .placeOrder now request =>
    if s.node.grpc.matchResultWriterKeepers = [] then none
    else s.stepManager (.placeOrder now request)
  | .save i => s.stepManager (.save i)
  | .persistUnsubmitted i => s.stepManager (.persistUnsubmitted i)
  | .submit i =>
    match s.manager.calls[i]? with
    | some call =>
      (s.stepManager (.matchEngine i (succeeds s.node.grpc call.matchEngineOrder))).bind
        fun s => s.stepEngine (.act () (.match call.matchEngineOrder))
    | none => none
  | .persistResult i => s.stepManager (.persistResult i)
  | .receive =>
    match s.node.written with
    | (_, trade) :: _ =>
      (s.stepManager (.receive trade)).bind fun s => s.stepEngine (.act () (.read ()))
    | [] => none
  | .persistTrade => s.stepManager .persistTrade
  | .subscribe =>
    if s.node.grpc.matchResultWriterKeepers = [] then s.stepEngine (.act () (.subscribe ()))
    else none
  | .engine e => if Internal e then s.stepEngine e else none

end ExchangeState

/-- The two together, from the start of both. -/
def exchange (symbols : List ℤ) : Machine (ExchangeState symbols) ExchangeEvent where
  init := ⟨{}, (system Unit (singleNode symbols)).start⟩
  step := ExchangeState.step

/-- The requests have positive amounts. -/
def PositiveAmount (_ : ExchangeState symbols) : ExchangeEvent → Prop
  | .placeOrder _ request => 0 < (request.amount : ℤ)
  | _ => True

instance (s : ExchangeState symbols) (e : ExchangeEvent) : Decidable (PositiveAmount s e) := by
  cases e <;> unfold PositiveAmount <;> infer_instance

/-! ### What the node holds of an order -/

/-- The trades of a message, as the subscriber will get them. -/
def tradesOfPost (post : Post Unit) : List MatchEngineProto.Trade :=
  match post.msg with
  | .tradeList ts => ts.map MatchEngineGRPCImpl.grpcTrade
  | _ => []

/-- The trades on their way to the order manager. -/
def unhandled (node : EngineNode) (mail : List (Post Unit)) : List MatchEngineProto.Trade :=
  node.written.map Prod.snd ++ mail.flatMap tradesOfPost

/-- The quantity of an id in the orders under way. -/
def inTransit (id : ℤ) (mail : List (Post Unit)) : ℤ :=
  ((mail.flatMap ordersOf).map (amountOf id)).sum

/-- The quantity of an id in the books. -/
def inBooks (id : ℤ) (node : EngineNode) : ℤ := (node.books.map (resting id)).sum

/-- The quantity of an id in trades. -/
def inTrades (id : ℤ) (trades : List MatchEngineProto.Trade) : ℤ :=
  (trades.map fun t => concludedBy t id).sum

/-- The quantity of an id on the node. -/
def held (id : ℤ) (node : EngineNode) (mail : List (Post Unit)) : ℤ :=
  inTransit id mail + inBooks id node + inTrades id (unhandled node mail)

@[simp] lemma inTransit_append (id : ℤ) (mail out : List (Post Unit)) :
    inTransit id (mail ++ out) = inTransit id mail + inTransit id out := by
  simp [inTransit]

@[simp] lemma inTrades_append (id : ℤ) (ts us : List MatchEngineProto.Trade) :
    inTrades id (ts ++ us) = inTrades id ts + inTrades id us := by
  simp [inTrades]

lemma held_append (id : ℤ) (node : EngineNode) (mail out : List (Post Unit)) :
    held id node (mail ++ out) =
      held id node mail + inTransit id out + inTrades id (out.flatMap tradesOfPost) := by
  simp only [held, unhandled, inTransit_append, List.flatMap_append, inTrades_append]
  omega

/-- What a message holds is no longer under way when it is taken. -/
lemma held_taken {post : Post Unit} {mail rest : List (Post Unit)} (h : Taken post mail rest)
    (id : ℤ) (node : EngineNode) : held id node mail =
      held id node rest + inTransit id [post] + inTrades id (tradesOfPost post) := by
  obtain ⟨m₁, m₂, rfl, rfl, -⟩ := h
  rw [List.append_cons]
  simp only [held_append, List.flatMap_singleton]
  omega

/-- A trade takes from an order what its message adds to the concluded amount. -/
lemma concludedBy_grpcTrade (t : MatchedTrade) (id : ℤ) :
    concludedBy (MatchEngineGRPCImpl.grpcTrade t) id = share id t.makerId t.takerId t.amount := by
  simp only [concludedBy, share, MatchEngineGRPCImpl.grpcTrade, eq_comm]

lemma inTrades_grpcTrade (id : ℤ) (ts : TradeList) :
    inTrades id (ts.map MatchEngineGRPCImpl.grpcTrade) = traded id ts := by
  simp only [inTrades, traded, List.map_map, Function.comp_def, concludedBy_grpcTrade]

/-! ### Quantities are not negative -/

lemma amountOf_nonneg {o : RawOrder} (h : 0 < o.amount) (id : ℤ) : 0 ≤ amountOf id o := by
  rw [amountOf]
  split_ifs
  · exact h.le
  · exact le_rfl

lemma concludedBy_nonneg {t : MatchEngineProto.Trade} (h : 0 < t.amount) (id : ℤ) :
    0 ≤ concludedBy t id := by
  rw [concludedBy]
  split_ifs <;> omega

lemma inTrades_nonneg {ts : List MatchEngineProto.Trade} (h : ∀ t ∈ ts, 0 < t.amount) (id : ℤ) :
    0 ≤ inTrades id ts := by
  refine List.sum_nonneg fun x hx => ?_
  obtain ⟨t, ht, rfl⟩ := List.mem_map.1 hx
  exact concludedBy_nonneg (h t ht) id

lemma inTransit_nonneg {node : EngineNode} {mail : List (Post Unit)} (h : EngineInv node mail)
    (id : ℤ) : 0 ≤ inTransit id mail := by
  refine List.sum_nonneg fun x hx => ?_
  obtain ⟨o, ho, rfl⟩ := List.mem_map.1 hx
  obtain ⟨post, hpost, ho⟩ := List.mem_flatMap.1 ho
  exact amountOf_nonneg (h.orders post hpost o (mem_ordersOf.1 ho)) id

lemma queue_nonneg {book : OrderBook (Address Unit)} (h : AmountsIn (0 < ·) book) (id : ℤ)
    (side : TradingSite) : ∀ x ∈ (book.queue side).map (amountOf id), 0 ≤ x := by
  intro x hx
  obtain ⟨r, hr, rfl⟩ := List.mem_map.1 hx
  exact amountOf_nonneg (h side r hr) id

lemma resting_nonneg {book : OrderBook (Address Unit)} (h : AmountsIn (0 < ·) book) (id : ℤ) :
    0 ≤ resting id book :=
  add_nonneg (List.sum_nonneg (queue_nonneg h id .sell)) (List.sum_nonneg (queue_nonneg h id .buy))

/-- A resting order is a part of what rests under its id. -/
lemma amount_le_resting {book : OrderBook (Address Unit)} (h : AmountsIn (0 < ·) book)
    {side : TradingSite} {r : RawOrder} (hr : r ∈ book.queue side) :
    r.amount ≤ resting r.orderId book := by
  have hown : r.amount ≤ ((book.queue side).map (amountOf r.orderId)).sum := by
    refine List.single_le_sum (queue_nonneg h r.orderId side) _ (List.mem_map.2 ⟨r, hr, ?_⟩)
    simp [amountOf]
  have hother : 0 ≤ ((book.queue side.opposite).map (amountOf r.orderId)).sum :=
    List.sum_nonneg (queue_nonneg h r.orderId side.opposite)
  rw [resting_eq r.orderId book side]
  omega

lemma inBooks_nonneg {node : EngineNode} {mail : List (Post Unit)} (h : EngineInv node mail)
    (id : ℤ) : 0 ≤ inBooks id node := by
  refine List.sum_nonneg fun x hx => ?_
  obtain ⟨book, hbook, rfl⟩ := List.mem_map.1 hx
  exact resting_nonneg (h.books book hbook).2 id

lemma resting_le_inBooks {node : EngineNode} {mail : List (Post Unit)} (h : EngineInv node mail)
    {book : OrderBook (Address Unit)} (hbook : book ∈ node.books) (id : ℤ) :
    resting id book ≤ inBooks id node := by
  refine List.single_le_sum (fun x hx => ?_) _ (List.mem_map_of_mem hbook)
  obtain ⟨book', hbook', rfl⟩ := List.mem_map.1 hx
  exact resting_nonneg (h.books book' hbook').2 id

lemma amount_le_inTransit {node : EngineNode} {mail : List (Post Unit)} (h : EngineInv node mail)
    {post : Post Unit} (hpost : post ∈ mail) {o : RawOrder} (ho : post.msg = .rawOrder o) :
    o.amount ≤ inTransit o.orderId mail := by
  refine List.single_le_sum (fun x hx => ?_) _
    (List.mem_map.2 ⟨o, List.mem_flatMap.2 ⟨post, hpost, mem_ordersOf.2 ho⟩, by simp [amountOf]⟩)
  obtain ⟨o', ho', rfl⟩ := List.mem_map.1 hx
  obtain ⟨post', hpost', ho'⟩ := List.mem_flatMap.1 ho'
  exact amountOf_nonneg (h.orders post' hpost' o' (mem_ordersOf.1 ho')) _

lemma concludedBy_le_inTrades {ts : List MatchEngineProto.Trade} (h : ∀ t ∈ ts, 0 < t.amount)
    {t : MatchEngineProto.Trade} (ht : t ∈ ts) (id : ℤ) : concludedBy t id ≤ inTrades id ts := by
  refine List.single_le_sum (fun x hx => ?_) _ (List.mem_map.2 ⟨t, ht, rfl⟩)
  obtain ⟨t', ht', rfl⟩ := List.mem_map.1 hx
  exact concludedBy_nonneg (h t' ht') id

/-- Among trades of two orders each, a trade counts once. -/
lemma inTrades_eq {ts : List MatchEngineProto.Trade} (h : ∀ t ∈ ts, t.makerId ≠ t.takerId)
    (id : ℤ) : inTrades id ts = (tradesFor id ts).sum := by
  induction ts with
  | nil => rfl
  | cons t ts ih =>
    have hne := h t List.mem_cons_self
    specialize ih fun t' ht' => h t' (List.mem_cons_of_mem _ ht')
    rw [inTrades, List.map_cons, List.sum_cons, ← inTrades, ih]
    by_cases hm : id = t.makerId
    · have ht : id ≠ t.takerId := fun heq => hne (hm.symm.trans heq)
      simp [tradesFor, concludedBy, hm, hne]
    · by_cases ht : id = t.takerId
      · simp [tradesFor, concludedBy, ht, hne.symm]
      · simp [tradesFor, concludedBy, hm, ht]

/-! ### What comes in and what goes out -/

/-- The order at the head of the mailbox of the router, if no actor has its symbol. -/
def dropped (node : EngineNode) (mail : List (Post Unit)) : List RawOrder :=
  match mail.find? fun post => post.dst = .router () with
  | some post => (ordersOf post).filter fun o => node.router.actorOf o = none
  | none => []

/-- What comes in of an order at the service of the node. -/
def entering (id : ℤ) (node : EngineNode) : EngineEvent → ℤ
  | .act _ (.match request) => ((node.grpc.match request).2.2.toList.map (amountOf id)).sum
  | _ => 0

/-- What goes out of the node of an order: read in trades, or dropped by the router. -/
def leaving (id : ℤ) (node : EngineNode) (mail : List (Post Unit)) : EngineEvent → ℤ
  | .act _ (.read _) => inTrades id (node.written.map Prod.snd).head?.toList
  | .handle (.router _) _ => ((dropped node mail).map (amountOf id)).sum
  | _ => 0

lemma dropped_taken {node : EngineNode} {post : Post Unit} {mail rest : List (Post Unit)}
    (h : Taken post mail rest) (hdst : post.dst = .router ()) :
    dropped node mail = (ordersOf post).filter fun o => node.router.actorOf o = none := by
  have hfind : (mail.find? fun e => e.dst = .router ()) = some post := by
    rw [← hdst]
    exact h.find?
  rw [dropped, hfind]

section Held

variable {node node' : EngineNode} {mail mail' : List (Post Unit)} {e : EngineEvent}

lemma leaving_router {post : Post Unit} {rest : List (Post Unit)} (h : Taken post mail rest)
    (hdst : post.dst = .router ()) (id : ℤ) (now : Clock) :
    leaving id node mail (.handle (.router ()) now) =
      (((ordersOf post).filter fun o => node.router.actorOf o = none).map (amountOf id)).sum := by
  rw [leaving, dropped_taken h hdst]

/-- **The node keeps what it holds**, but for the orders that come in, those that the router
drops, and the trades that are read. -/
theorem held_step (h : EngineInv node mail) (hstep : EngineStep symbols node mail e node' mail')
    (id : ℤ) : held id node' mail' + leaving id node mail e =
      held id node mail + entering id node e := by
  cases hstep with
  | boot _ => rfl
  | spawnMatchActor _ =>
    have hempty : resting id ({} : OrderBook (Address Unit)) = 0 := rfl
    rw [held_append]
    simp [held, inBooks, hempty, inTransit, inTrades, unhandled, ordersOf, tradesOfPost,
      localSymbolPost, leaving, entering]
  | spawnResultActor _ =>
    rw [held_append]
    simp [held, inBooks, inTransit, inTrades, unhandled, ordersOf, tradesOfPost, announcement,
      leaving, entering]
  | quiet he _ _ _ =>
    have hzero : leaving id node mail e = 0 ∧ entering id node e = 0 := by
      cases e with
      | act host x => cases x <;> first | exact ⟨rfl, rfl⟩ | cases he
      | _ => cases he
    rw [hzero.1, hzero.2]
    rfl
  | «match» request _ =>
    rw [held_append]
    cases ho : (node.grpc.match request).2.2 <;>
      simp [leaving, entering, ho, inTransit, inTrades, ordersOf, tradesOfPost, orderPost]
  | subscribe _ => rfl
  | read hwritten =>
    simp only [held, unhandled, leaving, entering, hwritten, List.map_cons, List.head?_cons,
      Option.toList_some, inTrades, List.map_nil, List.sum_cons, List.sum_nil, inBooks,
      List.cons_append]
    omega
  | routerSymbol now htaken =>
    rw [leaving_router htaken rfl, held_taken htaken]
    simp [held, inBooks, inTransit, inTrades, unhandled, ordersOf, tradesOfPost, localSymbolPost,
      entering]
  | routerAnnounce now htaken =>
    set out : List (Post Unit) := node.router.mergeResultReceivers.map fun a =>
      ⟨.router (), a, .actor (.matchResultDealActor ())⟩ with hout
    have hempty : out.flatMap ordersOf = [] ∧ out.flatMap tradesOfPost = [] := by
      rw [hout, List.flatMap_eq_nil_iff, List.flatMap_eq_nil_iff]
      simp [ordersOf, tradesOfPost]
    rw [leaving_router htaken rfl, held_taken htaken, held_append, inTransit, hempty.1, hempty.2]
    simp [inTransit, inTrades, ordersOf, tradesOfPost, announcement, entering]
  | @routerOrder rest o k now htaken _ hactor =>
    have hrouted : inTransit id [routedPost k o] = inTransit id [orderPost o] := rfl
    rw [leaving_router htaken rfl, held_taken htaken, held_append, hrouted]
    simp [inTrades, ordersOf, tradesOfPost, orderPost, routedPost, entering, hactor]
  | @routerDrop rest o now htaken hactor =>
    have hsame : held id { node with router := node.router.lookUp o } mail' =
      held id node mail' := rfl
    rw [leaving_router htaken rfl, held_taken htaken, hsame]
    simp [inTransit, inTrades, ordersOf, tradesOfPost, orderPost, entering, hactor]
  | @actorReceiver rest k book now htaken hbook =>
    have hbooks := sum_map_set (resting id) hbook
      (matchActorReceiver book (.matchResultDealActor ()))
    have hsame : resting id (matchActorReceiver book (.matchResultDealActor ())) =
      resting id book := rfl
    have hpost : inTransit id [receiverPost k] = 0 ∧
        inTrades id (tradesOfPost (receiverPost k)) = 0 := ⟨rfl, rfl⟩
    rw [held_taken htaken, hpost.1, hpost.2]
    simp only [held, inBooks, leaving, entering, unhandled]
    omega
  | @actorOrder rest k o book now htaken hbook _ =>
    have hok := (h.books book (List.mem_of_getElem? hbook)).1
    have hbooks := sum_map_set (resting id) hbook (matchActorOrder now book o).1
    have hmoved := matchActorOrder_conserves now o hok id
    have hout : inTransit id (if (matchActorOrder now book o).2 = [] then []
          else [tradesPost k (matchActorOrder now book o).2]) = 0 ∧
        inTrades id ((if (matchActorOrder now book o).2 = [] then []
          else [tradesPost k (matchActorOrder now book o).2]).flatMap tradesOfPost) =
            traded id (matchActorOrder now book o).2 := by
      split_ifs with hts
      · rw [hts]
        exact ⟨rfl, rfl⟩
      · refine ⟨rfl, ?_⟩
        rw [List.flatMap_singleton, ← inTrades_grpcTrade]
        rfl
    have hpost : inTransit id [routedPost k o] = amountOf id o ∧
        inTrades id (tradesOfPost (routedPost k o)) = 0 := by
      simp [inTransit, inTrades, ordersOf, tradesOfPost, routedPost]
    rw [held_taken htaken, held_append, hout.1, hout.2, hpost.1, hpost.2]
    simp only [held, inBooks, leaving, entering, unhandled]
    omega
  | @resultTrades rest k ts now htaken _ =>
    have hpost : inTransit id [tradesPost k ts] = 0 ∧
        tradesOfPost (tradesPost k ts) = ts.map MatchEngineGRPCImpl.grpcTrade := ⟨rfl, rfl⟩
    have hwritten : (ts.map fun t => ((), MatchEngineGRPCImpl.grpcTrade t)).map Prod.snd =
        ts.map MatchEngineGRPCImpl.grpcTrade := List.map_map
    rw [held_taken htaken, hpost.1, hpost.2]
    simp only [held, inBooks, leaving, entering, unhandled, List.map_append, hwritten,
      inTrades_append]
    omega

/-! ### The trades of a step -/

/-- A trade that a step brings is one of the handler of a match actor. -/
lemma mem_unhandled_step (hstep : EngineStep symbols node mail e node' mail')
    {t : MatchEngineProto.Trade} (ht : t ∈ unhandled node' mail') : t ∈ unhandled node mail ∨
      ∃ (k : ℕ) (o : RawOrder) (book : OrderBook (Address Unit)) (now : Clock)
        (rest : List (Post Unit)), Taken (routedPost k o) mail rest ∧
          node.books[k]? = some book ∧
            t ∈ (matchActorOrder now book o).2.map MatchEngineGRPCImpl.grpcTrade := by
  -- what a message without trades adds, or takes away
  have hsame : ∀ {rest out : List (Post Unit)}, (∀ post ∈ rest, post ∈ mail) →
      (∀ post ∈ out, tradesOfPost post = []) → t ∈ unhandled node (rest ++ out) →
      t ∈ unhandled node mail := by
    intro rest out hrest hout ht
    rcases List.mem_append.1 ht with ht | ht
    · exact List.mem_append_left _ ht
    · obtain ⟨post, hpost, htpost⟩ := List.mem_flatMap.1 ht
      rcases List.mem_append.1 hpost with hpost | hpost
      · exact List.mem_append_right _ (List.mem_flatMap.2 ⟨post, hrest post hpost, htpost⟩)
      · rw [hout post hpost] at htpost
        cases htpost
  have hless : ∀ {post rest}, Taken post mail rest → t ∈ unhandled node rest →
      t ∈ unhandled node mail := by
    intro post rest htaken ht
    rw [← List.append_nil rest] at ht
    exact hsame (fun _ => htaken.mem_of_mem) (by simp) ht
  cases hstep with
  | boot _ => exact Or.inl ht
  | spawnMatchActor _ =>
    exact Or.inl (hsame (fun _ h => h) (by simp [tradesOfPost, localSymbolPost]) ht)
  | spawnResultActor _ =>
    exact Or.inl (hsame (fun _ h => h) (by simp [tradesOfPost, announcement]) ht)
  | quiet _ _ _ _ => exact Or.inl ht
  | «match» _ _ => exact Or.inl (hsame (fun _ h => h) (by simp [tradesOfPost, orderPost]) ht)
  | subscribe _ => exact Or.inl ht
  | read hwritten =>
    refine Or.inl ?_
    rw [unhandled, hwritten]
    exact List.mem_cons_of_mem _ ht
  | routerSymbol _ htaken => exact Or.inl (hless htaken ht)
  | routerAnnounce _ htaken =>
    exact Or.inl (hsame (fun _ => htaken.mem_of_mem) (by simp [tradesOfPost]) ht)
  | routerOrder _ htaken _ _ =>
    exact Or.inl (hsame (fun _ => htaken.mem_of_mem) (by simp [tradesOfPost, routedPost]) ht)
  | routerDrop _ htaken _ => exact Or.inl (hless htaken ht)
  | actorReceiver _ htaken _ => exact Or.inl (hless htaken ht)
  | @actorOrder rest k o book now htaken hbook _ =>
    rcases List.mem_append.1 ht with ht | ht
    · exact Or.inl (List.mem_append_left _ ht)
    · rw [List.flatMap_append] at ht
      rcases List.mem_append.1 ht with ht | ht
      · exact Or.inl (hless htaken (List.mem_append_right _ ht))
      · refine Or.inr ⟨k, o, book, now, rest, htaken, hbook, ?_⟩
        split_ifs at ht with hts
        · cases ht
        · rw [List.flatMap_singleton] at ht
          exact ht
  | @resultTrades rest k ts now htaken _ =>
    refine Or.inl ?_
    rcases List.mem_append.1 ht with ht | ht
    · rw [List.map_append] at ht
      rcases List.mem_append.1 ht with ht | ht
      · exact List.mem_append_left _ ht
      · refine List.mem_append_right _ (List.mem_flatMap.2 ⟨_, htaken.mem, ?_⟩)
        rw [List.map_map] at ht
        exact ht
    · exact hless htaken (List.mem_append_right _ ht)

/-- The parties of a trade: the order that is handled, and a resting one. -/
lemma matchActorOrder_parties {book : OrderBook (Address Unit)} (now : Clock) {o : RawOrder}
    (hok : BookOk book) (hamounts : AmountsIn (0 < ·) book) (ho : 0 < o.amount) {t : MatchedTrade}
    (ht : t ∈ (matchActorOrder now book o).2) : 0 < t.amount ∧ t.takerId = o.orderId ∧
      ∃ side, ∃ r ∈ book.queue side, t.makerId = r.orderId := by
  have htrade : toTrade t ∈ (swept book o).trades := by
    rw [← matchActorOrder_trades now o hok]
    exact List.mem_map_of_mem ht
  refine ⟨(swept_amounts tradingRange_pos hamounts ho).1 _ htrade, ?_⟩
  have hparties := (Market.rule.sweep_forall (I := fun b => b.orderId = o.orderId)
    (J := fun b => b.orderId = o.orderId) (P := fun r => ∃ r' ∈ book.queue o.tradingSide.opposite,
      r.orderId = r'.orderId) (Q := fun _ => True)
    (T := fun t => t.takerId = o.orderId ∧ ∃ r ∈ book.queue o.tradingSide.opposite,
      t.makerId = r.orderId) (fun _ _ => trivial) (fun _ hb => hb) ?_
    (book.queue o.tradingSide.opposite) o (fun r hr => ⟨r, hr, rfl⟩) rfl).1 _ htrade
  · obtain ⟨htaker, r, hr, hmaker⟩ := hparties
    exact ⟨htaker, _, r, hr, hmaker⟩
  · rintro r b ⟨r', hr', hid⟩ hb -
    exact ⟨⟨hb, r', hr', hid⟩, fun _ => trivial, hb, fun _ => hb⟩

end Held

end TradingEngine.System
