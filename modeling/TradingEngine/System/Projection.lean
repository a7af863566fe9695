/-
The trades of one symbol in a run.

When the registrations of a router no longer change, the orders of a symbol that it handles go
to one match actor, in the order in which it handles them, and this actor gets no orders of
another symbol.  So the trades of a symbol depend on the orders of this symbol alone, and not
on what the router does with other orders, on what other actors do in between or on the clock.
-/
import TradingEngine.Matching.Mirror
import TradingEngine.System.Isolation
import TradingEngine.System.Path

namespace TradingEngine.System

open Lib MatchEngine MatchEngine.Cluster Matching

variable {H κ : Type} [DecidableEq H] [DecidableEq κ] {config : Config H}

/-! ### Actors that are known -/

/-- **Nobody knows an actor that is not spawned.** -/
lemma unknown_of_bookAt {G : ClusterState H κ config → ClusterEvent H κ → Prop}
    {es : List (ClusterEvent H κ)} {s : ClusterState H κ config}
    (h : (system κ config).machine.Run G es s) (host : H) (k : ℕ) :
    bookAt s host k = none →
      (∀ host' symbolId, ¬ Knows (s.nodes host') symbolId (.matchActor host k)) ∧
        ∀ post ∈ s.net.all, ∀ symbolId, ¬ Tells post symbolId (.matchActor host k) := by
  refine h.invariant (P := fun _ s => bookAt s host k = none →
    (∀ host' symbolId, ¬ Knows (s.nodes host') symbolId (.matchActor host k)) ∧
      ∀ post ∈ s.net.all, ∀ symbolId, ¬ Tells post symbolId (.matchActor host k)) ?_ ?_
  · intro _
    exact ⟨fun host' symbolId => not_knows_init symbolId _, by rintro post ⟨⟩⟩
  · intro es s e s' hrun ih _ hstep hbook'
    have hbook : bookAt s host k = none := by
      rcases bookAt_cases hstep host k with ⟨-, hsame⟩ | ⟨-, -, hnew⟩ |
        ⟨_, _, _, -, -, -, -, hnew⟩ | ⟨_, _, _, _, _, -, -, -, -, -, hnew⟩
      · exact hsame ▸ hbook'
      all_goals
        rw [hnew] at hbook'
        cases hbook'
    obtain ⟨hknows, htells⟩ := ih hbook
    have hreceived : ∀ post ∈ (system κ config).received s e, ∀ symbolId,
        ¬ Tells post symbolId (.matchActor host k) :=
      fun post hpost => htells post (ActorSystem.mem_all_of_received hpost)
    refine ⟨fun host' symbolId hk => ?_, fun post hpost symbolId ht => ?_⟩
    · rcases ActorSystem.nodes_of_step hstep host' with hnode | ⟨x, out, -, hact⟩ |
        ⟨now, post, hpost, -, hnode⟩
      · exact hknows host' symbolId (hnode ▸ hk)
      · exact hknows host' symbolId (act_knows hact hk)
      · rw [hnode] at hk
        rcases react_knows hk with hk | ht
        · exact hknows host' symbolId hk
        · exact hreceived post hpost symbolId ht
    · rcases ActorSystem.mem_all_of_step hstep hpost with hpost | hpost
      · exact htells post hpost symbolId ht
      · rcases ActorSystem.sent_cases hpost with ⟨host', x, node, out, rfl, hact, hout⟩ |
          ⟨now, post', hpost', hout⟩
        · rcases act_tells hact (mainOk_of_run hrun host') hout ht with hk | ⟨steps, -, hb, heq⟩
          · exact hknows host' symbolId hk
          · -- the actor is the one that is spawned
            cases heq
            replace hstep : ((system κ config).act s.nodes host x).map
                (fun r => s.put host r.1 s.net r.2) = some s' := hstep
            rw [hact] at hstep
            rw [← Option.some.inj hstep, bookAt_put_self, hb, List.getElem?_concat_length] at hbook'
            cases hbook'
        · exact hknows _ symbolId ((react_sends hout).1 symbolId _ ht)

/-! ### Orders and trades along a run -/

/-- The orders that the router of `n` handles. -/
def routedOrder (n : H) (s : ClusterState H κ config) (e : ClusterEvent H κ) : List RawOrder :=
  (((system κ config).received s e).filter fun post => post.dst = .router n).flatMap ordersOf

/-- The trades that match actors make. -/
def madeTrades (s : ClusterState H κ config) : ClusterEvent H κ → TradeList
  | .handle (.matchActor host k) now =>
    (handling host k s (.handle (.matchActor host k) now)).flatMap fun x =>
      (matchActorOrder x.now x.book x.order).2
  | _ => []

/-- A message by which a router changes its registrations. -/
def isRegistration : Message H → Bool
  | .localSymbolActor _ _ => true
  | .remoteSymbolActor _ _ _ => true
  | .nodeDown _ => true
  | _ => false

/-- The registrations of the router of `n` do not change, and no other router handles an order
of the symbol. -/
def Settled (n : H) (symbolId : ℤ) (s : ClusterState H κ config) (e : ClusterEvent H κ) : Prop :=
  ∀ post ∈ (system κ config).received s e,
    (post.dst = .router n → isRegistration post.msg = false) ∧
    ∀ order ∈ ordersOf post, order.symbolId = symbolId → post.dst = .router post.dst.host →
      post.dst.host = n

/-- The orders of the symbol that are under way are under way to routers. -/
def Drained (symbolId : ℤ) (s : ClusterState H κ config) : Prop :=
  ∀ post ∈ s.net.all, ∀ order ∈ ordersOf post, order.symbolId = symbolId →
    post.dst = .router post.dst.host

/-- From `s` to `t` only the router of `n` handles orders of the symbol, with the registrations
that it has in `s`; all of these orders have been handled in the end. -/
structure SettledRun (n : H) (symbolId : ℤ) (s : ClusterState H κ config)
    (es : List (ClusterEvent H κ)) (t : ClusterState H κ config) : Prop where
  run : ((system κ config).machine.startAt s).Run (Settled n symbolId) es t
  start : Drained symbolId s
  finish : Drained symbolId t

/-! ### The registrations -/

omit [DecidableEq κ] in
/-- Without registrations a router keeps its table. -/
lemma react_symbolActor {node : Node H κ} (now : Clock) {post : Post H}
    (h : post.dst = .router post.dst.host → isRegistration post.msg = false) (symbolId : ℤ) :
    (react node now post).1.router.symbolActor symbolId = node.router.symbolActor symbolId := by
  obtain ⟨src, dst, msg⟩ := post
  cases dst with
  | router host =>
    have hmsg : isRegistration msg = false := h rfl
    cases msg with
    | rawOrder order => exact SymbolRouterData.symbolActor_lookUp _ _ _
    | remoteSymbolActor _ _ _ => cases hmsg
    | localSymbolActor _ _ => cases hmsg
    | nodeDown _ => cases hmsg
    | _ => rfl
  | matchActor host k => cases hbook : node.books[k]? <;> simp [react, hbook]
  | matchResultDealActor host => cases msg <;> rfl
  | cluster host => cases msg <;> rfl
  | _ => rfl

section Run

variable {n : H} {symbolId : ℤ} {es₀ : List (ClusterEvent H κ)} {s₀ : ClusterState H κ config}
  {es : List (ClusterEvent H κ)} {s : ClusterState H κ config}

lemma symbolActor_of_run (h : ((system κ config).machine.startAt s₀).Run (Settled n symbolId) es s)
    (s' : ℤ) : (s.nodes n).router.symbolActor s' = (s₀.nodes n).router.symbolActor s' := by
  refine h.invariant (P := fun _ s =>
    (s.nodes n).router.symbolActor s' = (s₀.nodes n).router.symbolActor s') rfl ?_
  intro es s e t _ ih hG hstep
  rw [← ih]
  rcases ActorSystem.nodes_of_step hstep n with hnode | ⟨x, out, -, hact⟩ |
    ⟨now, post, hpost, hhost, hnode⟩
  · rw [hnode]
  · rw [(act_spec hact).router]
  · rw [hnode]
    refine react_symbolActor now (fun hdst => (hG post hpost).1 ?_) s'
    rw [hdst]
    exact congrArg Address.router hhost

/-- **Orders of the symbol on their way to a match actor** come from the router of `n`, and go to
the actor that this router has for the symbol. -/
lemma order_of_run (h₀ : (system κ config).machine.Reaches es₀ s₀) (hdrained : Drained symbolId s₀)
    (h : ((system κ config).machine.startAt s₀).Run (Settled n symbolId) es s) :
    ∀ post ∈ s.net.all, ∀ order ∈ ordersOf post, order.symbolId = symbolId →
      post.dst ≠ .router post.dst.host →
      post.src = .router n ∧ (s₀.nodes n).router.symbolActor symbolId = some post.dst := by
  refine h.invariant (P := fun _ s => ∀ post ∈ s.net.all, ∀ order ∈ ordersOf post,
    order.symbolId = symbolId → post.dst ≠ .router post.dst.host →
      post.src = .router n ∧ (s₀.nodes n).router.symbolActor symbolId = some post.dst) ?_ ?_
  · intro post hpost order horder hs hdst
    exact absurd (hdrained post hpost order horder hs) hdst
  · intro es s e t hrun ih hG hstep post hpost order horder hs hdst
    rcases ActorSystem.mem_all_of_step hstep hpost with hpost | hpost
    · exact ih post hpost order horder hs hdst
    · have hmsg := mem_ordersOf.1 horder
      rcases ActorSystem.sent_cases hpost with ⟨host, x, node, out, -, hact, hout⟩ |
        ⟨now, post', hpost', hout⟩
      · obtain ⟨-, -, hrouter⟩ := act_order hact (mainOk_of_run (h₀.append hrun) host) hout hmsg
        rw [hrouter] at hdst
        exact absurd rfl hdst
      · obtain ⟨host, hdst', hmsg', hsrc, hactor⟩ := (react_sends hout).2 order hmsg
        have hhost := (hG post' hpost').2 order (mem_ordersOf.2 hmsg') hs (by rw [hdst']; rfl)
        rw [hdst'] at hhost hactor
        obtain rfl : host = n := hhost
        refine ⟨hsrc, ?_⟩
        rw [← symbolActor_of_run hrun, ← hs]
        exact hactor

/-! ### One event -/

/-- The trades of the symbol are made by the actor that the router of `n` has for it. -/
lemma madeTrades_filter (h₀ : (system κ config).machine.Reaches es₀ s₀)
    (hdrained : Drained symbolId s₀)
    (h : ((system κ config).machine.startAt s₀).Run (Settled n symbolId) es s)
    {actor : Option (Address H)} (hactor : (s₀.nodes n).router.symbolActor symbolId = actor)
    (e : ClusterEvent H κ) :
    (madeTrades s e).filter (fun t => t.symbolId = symbolId) =
      match e with
      | .handle a _ => if some a = actor then madeTrades s e else []
      | _ => [] := by
  obtain ⟨hnodes, hposts⟩ := isolated_of_run (h₀.append h)
  cases e with
  | handle a now =>
    cases a with
    | matchActor host k =>
      have hall : ∀ t ∈ madeTrades s (.handle (.matchActor host k) now),
          t.symbolId = symbolId ↔ some (.matchActor host k) = actor := by
        intro t ht
        obtain ⟨x, hx, ht⟩ := List.mem_flatMap.1 ht
        obtain ⟨ho, hbook⟩ := handling_isolated hnodes hposts hx
        rw [matchActorOrder_symbolId x.now hbook.1 t ht]
        constructor
        · intro hs
          obtain ⟨post, hpost, hdst, hmsg⟩ := mem_handling hx
          obtain ⟨-, htable⟩ := order_of_run h₀ hdrained h post
            (ActorSystem.mem_all_of_received hpost) x.order (mem_ordersOf.2 hmsg) hs
            (by rw [hdst]; rintro ⟨⟩)
          rw [← hactor, htable, hdst]
        · intro heq
          have htable := hactor.trans heq.symm
          rw [← symbolActor_of_run h] at htable
          obtain ⟨host', k', hdst, hk⟩ := (hnodes n).knows _ _ (.table htable)
          cases hdst
          rw [ho] at hk
          exact Option.some.inj hk
      change _ = if _ then _ else _
      split_ifs with heq
      · exact List.filter_eq_self.2 fun t ht => decide_eq_true ((hall t ht).2 heq)
      · exact List.filter_eq_nil_iff.2 fun t ht hs => heq ((hall t ht).1 (of_decide_eq_true hs))
    | _ => simp [madeTrades]
  | _ => rfl

/-- The actor of the symbol handles what it receives from the router of `n`. -/
lemma handling_eq_received (h₀ : (system κ config).machine.Reaches es₀ s₀)
    (hdrained : Drained symbolId s₀)
    (h : ((system κ config).machine.startAt s₀).Run (Settled n symbolId) es s)
    {host : H} {k : ℕ}
    (hactor : (s₀.nodes n).router.symbolActor symbolId = some (.matchActor host k))
    (e : ClusterEvent H κ) : (handling host k s e).map Handling.order =
      receivedOrders (.router n) (.matchActor host k) s e := by
  have hrun := h₀.append h
  obtain ⟨hnodes, hposts⟩ := isolated_of_run hrun
  have htable : (s.nodes n).router.symbolActor symbolId = some (.matchActor host k) :=
    (symbolActor_of_run h symbolId).trans hactor
  cases e with
  | handle a now =>
    by_cases ha : a = .matchActor host k
    · subst ha
      rw [receivedOrders, ActorSystem.received, handling, if_pos rfl]
      cases htake : s.net.take (.matchActor host k) with
      | none => rfl
      | some r =>
        obtain ⟨⟨src, dst, msg⟩, net⟩ := r
        obtain rfl : dst = .matchActor host k := (Net.take_spec htake).1
        have hmem := (Net.take_all_perm htake).mem_iff.2 List.mem_cons_self
        cases hbook : bookAt s host k with
        | none => exact absurd (.table htable) ((unknown_of_bookAt hrun host k hbook).1 n symbolId)
        | some book =>
          cases msg with
          | rawOrder order =>
            obtain ⟨host', k', hdst, hk⟩ := (hnodes n).knows _ _ (.table htable)
            cases hdst
            have ho := (hposts _ hmem).orders order host k rfl rfl
            have hs : order.symbolId = symbolId := Option.some.inj (ho.symm.trans hk)
            obtain ⟨hsrc, -⟩ := order_of_run h₀ hdrained h _ hmem order (mem_ordersOf.2 rfl) hs
              (by rintro ⟨⟩)
            obtain rfl : src = .router n := hsrc
            simp [between, ordersOf]
          | _ => by_cases hsrc : src = .router n <;> simp [between, hsrc, ordersOf]
    · rw [handling_of_ne ha]
      refine (List.flatMap_eq_nil_iff.2 fun post hpost => ?_).symm
      obtain ⟨hpost, -, hdst⟩ := mem_between.1 hpost
      rw [ActorSystem.received] at hpost
      obtain ⟨⟨post', net⟩, htake, rfl⟩ := Option.map_eq_some_iff.1 (Option.mem_toList.1 hpost)
      exact absurd ((Net.take_spec htake).1.symm.trans hdst) ha
  | _ => rfl

/-- What the router of `n` sends to the actor of the symbol are the orders of the symbol. -/
lemma sent_eq_routedOrder (h₀ : (system κ config).machine.Reaches es₀ s₀)
    (h : ((system κ config).machine.startAt s₀).Run (Settled n symbolId) es s)
    {host : H} {k : ℕ}
    (hactor : (s₀.nodes n).router.symbolActor symbolId = some (.matchActor host k))
    (e : ClusterEvent H κ) : sentOrders (.router n) (.matchActor host k) s e =
      (routedOrder n s e).filter fun o => o.symbolId = symbolId := by
  have hrun := h₀.append h
  have hnodes := (isolated_of_run hrun).1
  have htable : (s.nodes n).router.symbolActor symbolId = some (.matchActor host k) :=
    (symbolActor_of_run h symbolId).trans hactor
  cases e with
  | act host' x =>
    rw [sentOrders, sent_act_router hrun]
    rfl
  | arrive src dst => rfl
  | handle a now =>
    rw [sentOrders, routedOrder, ActorSystem.sent, ActorSystem.received]
    cases htake : s.net.take a with
    | none => rfl
    | some r =>
      obtain ⟨⟨src, dst, msg⟩, net⟩ := r
      obtain rfl : dst = a := (Net.take_spec htake).1
      simp only [Option.map_some, Option.getD_some, Option.toList_some]
      by_cases ha : dst = .router n
      · subst ha
        rw [List.filter_cons_of_pos (by simp), List.filter_nil, List.flatMap_singleton]
        have hforward := routerReact_orders n (s.nodes n).router src (.matchActor host k) msg
        cases msg with
        | rawOrder order =>
          change (between _ _ (((s.nodes n).router.actorOf order).toList.map fun actor =>
            (⟨.router n, actor, .rawOrder order⟩ : Post H))).flatMap ordersOf =
              [order].filter fun o => o.symbolId = symbolId
          by_cases hs : order.symbolId = symbolId
          · have hof : (s.nodes n).router.actorOf order = some (.matchActor host k) := by
              rw [SymbolRouterData.actorOf, hs]
              exact htable
            rw [hof]
            simp [between, ordersOf, hs]
          · cases hof : (s.nodes n).router.actorOf order with
            | none => simp [hs]
            | some actor =>
              -- the actor of another symbol
              have hne : actor ≠ .matchActor host k := by
                rintro rfl
                exact hs (ActorFor.inj ((hnodes n).knows _ _ (.table hof))
                  ((hnodes n).knows _ _ (.table htable)))
              simp [between, hs, hne]
        | _ => exact List.eq_nil_of_sublist_nil hforward
      · rw [List.filter_cons_of_neg (by simpa using ha)]
        refine List.flatMap_eq_nil_iff.2 fun post hpost => ?_
        obtain ⟨hpost, hsrc, -⟩ := mem_between.1 hpost
        exact absurd ((react_src _ _ _ post hpost).symm.trans hsrc) ha

/-! ### The run -/

/-- The trades that the orders of a symbol lead to, handled by the actor that the router of `n`
has for the symbol. -/
def symbolTrades (n : H) (symbolId : ℤ) (s : ClusterState H κ config) (orders : List RawOrder) :
    TradeList :=
  match (s.nodes n).router.symbolActor symbolId with
  | some (.matchActor host k) =>
    match bookAt s host k with
    | some book => (runOrders (fun _ _ => 0) book orders).1.flatten
    | none => []
  | _ => []

/-- No order is on its way to the actor of the symbol. -/
lemma Drained.pending (hdrained : Drained symbolId s) (h : (system κ config).machine.Reaches es s)
    {host : H} {k : ℕ} (hk : (config.symbolIdList host)[k]? = some symbolId) (src : Address H) :
    (s.net.pending src (.matchActor host k)).flatMap ordersOf = [] := by
  refine List.flatMap_eq_nil_iff.2 fun post hpost => List.eq_nil_iff_forall_not_mem.2 ?_
  intro order horder
  obtain ⟨hmem, -, hdst⟩ := mem_between.1 hpost
  have ho := ((isolated_of_run h).2 post hmem).orders order host k (mem_ordersOf.1 horder) hdst
  have hrouter := hdrained post hmem order horder (Option.some.inj (ho.symm.trans hk))
  rw [hdst] at hrouter
  cases hrouter

/-- The orders of the symbol are handled in the order in which they are routed. -/
lemma handled_eq_routed (h₀ : (system κ config).machine.Reaches es₀ s₀)
    (h : SettledRun n symbolId s₀ es s) {host : H} {k : ℕ}
    (hactor : (s₀.nodes n).router.symbolActor symbolId = some (.matchActor host k)) :
    (((system κ config).machine.startAt s₀).trace (handling host k) es).map Handling.order =
      (((system κ config).machine.startAt s₀).trace (routedOrder n) es).filter
        fun o => o.symbolId = symbolId := by
  obtain ⟨host', k', hdst, hk⟩ := ((isolated_of_run h₀).1 n).knows _ _ (.table hactor)
  cases hdst
  -- nothing is under way in the beginning and in the end
  have hchannel := congrArg (List.flatMap ordersOf)
    (ActorSystem.channel_from h.run (.router n) (.matchActor host k))
  rw [List.flatMap_append, List.flatMap_append, h.start.pending h₀ hk,
    h.finish.pending (h₀.append h.run) hk, List.nil_append, List.append_nil,
    ← h.run.trace_flatMap, ← h.run.trace_flatMap] at hchannel
  calc
    _ = ((system κ config).machine.startAt s₀).trace
        (fun s e => (handling host k s e).map Handling.order) es :=
      (h.run.trace_map Handling.order).symm
    _ = ((system κ config).machine.startAt s₀).trace
        (receivedOrders (.router n) (.matchActor host k)) es :=
      h.run.trace_congr fun _ _ e hrun _ => handling_eq_received h₀ h.start hrun hactor e
    _ = ((system κ config).machine.startAt s₀).trace
        (sentOrders (.router n) (.matchActor host k)) es := hchannel.symm
    _ = ((system κ config).machine.startAt s₀).trace
        (fun s e => (routedOrder n s e).filter fun o => o.symbolId = symbolId) es :=
      h.run.trace_congr fun _ _ e hrun _ => sent_eq_routedOrder h₀ hrun hactor e
    _ = _ := h.run.trace_filter _

/-- The trades of the symbol are those of its actor. -/
lemma madeTrades_eq_handling (h₀ : (system κ config).machine.Reaches es₀ s₀)
    (hdrained : Drained symbolId s₀)
    (h : ((system κ config).machine.startAt s₀).Run (Settled n symbolId) es s) {host : H} {k : ℕ}
    (hactor : (s₀.nodes n).router.symbolActor symbolId = some (.matchActor host k))
    (e : ClusterEvent H κ) : (madeTrades s e).filter (fun t => t.symbolId = symbolId) =
      (handling host k s e).flatMap fun x => (matchActorOrder x.now x.book x.order).2 := by
  rw [madeTrades_filter h₀ hdrained h hactor e]
  cases e with
  | handle a now =>
    by_cases ha : a = .matchActor host k
    · subst ha
      exact if_pos rfl
    · rw [handling_of_ne ha]
      exact if_neg fun heq => ha (Option.some.inj heq)
  | _ => rfl

/-- **The actor of the symbol** makes the trades of the orders that it handles, from the book that
it has in the beginning. -/
lemma actor_of_run (h₀ : (system κ config).machine.Reaches es₀ s₀) (hdrained : Drained symbolId s₀)
    (h : ((system κ config).machine.startAt s₀).Run (Settled n symbolId) es s) {host : H} {k : ℕ}
    (hactor : (s₀.nodes n).router.symbolActor symbolId = some (.matchActor host k))
    {book₀ : OrderBook (Address H)} (hbook₀ : bookAt s₀ host k = some book₀) :
    let run := runOrders (fun _ _ => 0) book₀
      ((((system κ config).machine.startAt s₀).trace (handling host k) es).map Handling.order)
    (∃ book, bookAt s host k = some book ∧ SameTables run.2 book) ∧
      ((((system κ config).machine.startAt s₀).trace madeTrades es).filter
        fun t => t.symbolId = symbolId).map untimed = run.1.flatten.map untimed := by
  refine h.invariant (P := fun es s =>
    let run := runOrders (fun _ _ => 0) book₀
      ((((system κ config).machine.startAt s₀).trace (handling host k) es).map Handling.order)
    (∃ book, bookAt s host k = some book ∧ SameTables run.2 book) ∧
      ((((system κ config).machine.startAt s₀).trace madeTrades es).filter
        fun t => t.symbolId = symbolId).map untimed = run.1.flatten.map untimed)
    ⟨⟨book₀, hbook₀, rfl, rfl⟩, rfl⟩ ?_
  rintro es s e t hrun ⟨⟨book, hbook, hsame⟩, htrades⟩ _ hstep
  rw [hrun.trace_concat, hrun.trace_concat, List.filter_append,
    madeTrades_eq_handling h₀ hdrained hrun hactor e]
  rcases bookAt_cases hstep host k with ⟨hnone, hbook'⟩ | ⟨-, hempty, -⟩ |
    ⟨book', receiver, -, hnone, hold, -, -, hbook'⟩ |
    ⟨now, book', order, -, -, -, -, -, hone, hold, hbook'⟩
  · rw [hnone, List.append_nil]
    exact ⟨⟨book, hbook'.trans hbook, hsame⟩, by simpa using htrades⟩
  · rw [hbook] at hempty
    cases hempty
  · obtain rfl : book = book' := Option.some.inj (hbook.symm.trans hold)
    rw [hnone, List.append_nil]
    exact ⟨⟨_, hbook', hsame.sellList, hsame.buyList⟩, by simpa using htrades⟩
  · obtain rfl : book = book' := Option.some.inj (hbook.symm.trans hold)
    rw [hone, List.map_append, List.map_singleton, runOrders_concat]
    obtain ⟨huntimed, hsame'⟩ := matchActorOrder_untimed (fun _ => 0) now hsame order
    refine ⟨⟨_, hbook', hsame'⟩, ?_⟩
    rw [List.flatMap_singleton, List.map_append, htrades, huntimed, List.flatten_append,
      List.flatten_singleton, List.map_append]

/-- **The trades of a symbol** are what its orders lead to. -/
theorem madeTrades_eq (h₀ : (system κ config).machine.Reaches es₀ s₀)
    (h : SettledRun n symbolId s₀ es s) :
    ((((system κ config).machine.startAt s₀).trace madeTrades es).filter
        fun t => t.symbolId = symbolId).map untimed =
      (symbolTrades n symbolId s₀
        ((((system κ config).machine.startAt s₀).trace (routedOrder n) es).filter
          fun o => o.symbolId = symbolId)).map untimed := by
  cases hactor : (s₀.nodes n).router.symbolActor symbolId with
  | none =>
    have hnone : ((system κ config).machine.startAt s₀).trace
        (fun s e => (madeTrades s e).filter fun t => t.symbolId = symbolId) es = [] := by
      refine h.run.invariant (P := fun es _ => ((system κ config).machine.startAt s₀).trace
        (fun s e => (madeTrades s e).filter fun t => t.symbolId = symbolId) es = []) rfl ?_
      intro es s e t hrun ih _ _
      rw [hrun.trace_concat, ih, madeTrades_filter h₀ h.start hrun hactor e, List.nil_append]
      cases e with
      | handle a now => exact if_neg (by rintro ⟨⟩)
      | _ => rfl
    rw [← h.run.trace_filter, hnone, symbolTrades, hactor]
  | some actor =>
    obtain ⟨host, k, rfl, -⟩ := ((isolated_of_run h₀).1 n).knows _ _ (.table hactor)
    cases hbook₀ : bookAt s₀ host k with
    | none => exact absurd (.table hactor) ((unknown_of_bookAt h₀ host k hbook₀).1 n symbolId)
    | some book₀ =>
      rw [(actor_of_run h₀ h.start h.run hactor hbook₀).2, handled_eq_routed h₀ h hactor]
      simp only [symbolTrades, hactor, hbook₀]

lemma Agree.symbolTrades {s' : ClusterState H κ config} (h : Agree n symbolId s.nodes s'.nodes)
    (orders : List RawOrder) :
    System.symbolTrades n symbolId s' orders = System.symbolTrades n symbolId s orders := by
  unfold System.symbolTrades
  rw [h.table]
  cases hactor : (s.nodes n).router.symbolActor symbolId with
  | none => rfl
  | some actor =>
    cases actor with
    | matchActor host k =>
      have hbook : bookAt s' host k = bookAt s host k := h.book host k hactor
      simp only [hbook]
    | _ => rfl

end Run

instance (n : H) (symbolId : ℤ) (s : ClusterState H κ config) (e : ClusterEvent H κ) :
    Decidable (Settled n symbolId s e) :=
  inferInstanceAs (Decidable (∀ post ∈ (system κ config).received s e, _))

instance (symbolId : ℤ) (s : ClusterState H κ config) : Decidable (Drained symbolId s) :=
  inferInstanceAs (Decidable (∀ post ∈ s.net.all, _))

/-- **Symbols are isolated.**  In every run the parties of a trade have the same symbol.  From
every state that is reached, the trades of a symbol that the orders handled by a router lead to
are the trades that the orders of this symbol alone lead to.  And whatever happens in between, a
second run in which the router handles the orders of this symbol only has the same trades of it,
up to the deal times. -/
theorem symbols_isolated (config : Config H) (es : List (ClusterEvent H κ))
    (s : ClusterState H κ config) (h : (system κ config).machine.Reaches es s) :
    (∀ host k, ∀ x ∈ (system κ config).machine.trace (handling host k) es, WithinSymbol x) ∧
    (∀ (n : H) (symbolId : ℤ) (orders : List (Clock × RawOrder)),
      (handleOrders n s.nodes orders).filter (fun t => t.symbolId = symbolId) =
        handleOrders n s.nodes (orders.filter fun o => o.2.symbolId = symbolId)) ∧
    ∀ (es' : List (ClusterEvent H κ)) (s' : ClusterState H κ config)
      (n : H) (symbolId : ℤ) (fs fs' : List (ClusterEvent H κ)) (t t' : ClusterState H κ config),
      (system κ config).machine.Reaches es' s' → Agree n symbolId s.nodes s'.nodes →
      SettledRun n symbolId s fs t → SettledRun n symbolId s' fs' t' →
      ((system κ config).machine.startAt s').trace (routedOrder n) fs' =
        (((system κ config).machine.startAt s).trace (routedOrder n) fs).filter
          (fun o => o.symbolId = symbolId) →
      ((((system κ config).machine.startAt s').trace madeTrades fs').filter
          fun t => t.symbolId = symbolId).map untimed =
        ((((system κ config).machine.startAt s).trace madeTrades fs).filter
          fun t => t.symbolId = symbolId).map untimed := by
  refine ⟨fun host k => ?_, fun n symbolId orders => ?_, ?_⟩
  · refine h.invariant (P := fun es _ =>
      ∀ x ∈ (system κ config).machine.trace (handling host k) es, WithinSymbol x) ?_ ?_
    · intro x hx
      cases hx
    · intro es s e s' hrun ih _ _ x hx
      rw [hrun.trace_concat] at hx
      rcases List.mem_append.1 hx with hx | hx
      · exact ih x hx
      · obtain ⟨hnodes, hposts⟩ := isolated_of_run hrun
        obtain ⟨ho, hbook⟩ := handling_isolated hnodes hposts hx
        exact withinSymbol_of_isolated ho hbook
  · exact handleOrders_filter (isolated_of_run h).1 ⟨fun _ => rfl, fun _ _ _ => rfl⟩ orders
  · intro es' s' n symbolId fs fs' t t' h' hagree hfs hfs' horders
    rw [madeTrades_eq h hfs, madeTrades_eq h' hfs', horders, List.filter_filter]
    simp only [Bool.and_self]
    rw [hagree.symbolTrades]

/-! ### Two symbols -/

/-- One node has the actors of the symbols 7 and 8; the other one (`true`) has none. -/
def twoSymbols : Config Bool where
  role := fun _ => "match_engine"
  symbolIdList := fun host => if host then [] else [7, 8]

/-- The start of two nodes, one of which has two symbols. -/
def twoSymbolsStart : List (ClusterEvent Bool Unit) :=
  [.act false .boot, .act false .mainStep, .act false .mainStep, .handle (.router false) 0,
    .handle (.router false) 0, .act true .boot, .act true (.addNewNode false true),
    .arrive (.cluster true) (.router false), .handle (.router false) 0,
    .arrive (.router false) (.cluster true), .handle (.cluster true) 0,
    .act true (.sendSymbol 0), .act true (.sendSymbol 0), .act true (.fetchMergeResult 0 true),
    .handle (.router true) 0, .handle (.router true) 0, .act true .serve]

/-- The second node takes an order of symbol 8 and routes it. -/
def routeOther (id : ℤ) (side : MatchEngineProto.TradingSide) : List (ClusterEvent Bool Unit) :=
  [.act true (.match ⟨id, .ofInt 8, .ofInt 10, side, .ofInt 5, .ofInt 100, id⟩),
    .handle (.router true) 0, .arrive (.router true) (.matchActor false 1),
    .handle (.matchActor false 1) 0]

/-- Two orders of symbol 7, with and without orders of symbol 8 in between. -/
theorem symbols_isolated_of_twoSymbols :
    let mixed := routeOther 1 .tradingSell ++ routeOrder (orderOf 2 .tradingSell (.ofInt 7)) ++
      routeOther 3 .tradingBuy ++ routeOrder (orderOf 4 .tradingBuy (.ofInt 3))
    let alone := routeOrder (orderOf 2 .tradingSell (.ofInt 7)) ++
      routeOrder (orderOf 4 .tradingBuy (.ofInt 3))
    ∃ s t t' : ClusterState Bool Unit twoSymbols,
      (system Unit twoSymbols).machine.Reaches twoSymbolsStart s ∧
      SettledRun true 7 s mixed t ∧ SettledRun true 7 s alone t' ∧
      (((system Unit twoSymbols).machine.startAt s).trace madeTrades mixed).map
        (fun t => (t.makerId, t.takerId)) = [(1, 3), (2, 4)] ∧
      ((((system Unit twoSymbols).machine.startAt s).trace madeTrades alone).filter
          fun t => t.symbolId = 7).map untimed =
        ((((system Unit twoSymbols).machine.startAt s).trace madeTrades mixed).filter
          fun t => t.symbolId = 7).map untimed := by
  intro mixed alone
  have hcheck : ((system Unit twoSymbols).machine.runFrom (fun _ _ => True)
      (system Unit twoSymbols).machine.init twoSymbolsStart).any (fun s =>
        let M := (system Unit twoSymbols).machine.startAt s
        Drained 7 s ∧
          (M.runFrom (Settled true 7) s mixed).any (fun t => Drained 7 t) ∧
          (M.runFrom (Settled true 7) s alone).any (fun t => Drained 7 t) ∧
          M.trace (routedOrder true) alone =
            (M.trace (routedOrder true) mixed).filter (fun o => o.symbolId = 7) ∧
          (M.trace madeTrades mixed).map (fun t => (t.makerId, t.takerId)) = [(1, 3), (2, 4)]) =
      true := by decide
  obtain ⟨s, hs, hcheck⟩ := (Option.any_eq_true _ _).1 hcheck
  obtain ⟨hdrained, hmixed, halone, horders, htrades⟩ := of_decide_eq_true hcheck
  obtain ⟨t, ht, hend⟩ := (Option.any_eq_true _ _).1 hmixed
  obtain ⟨t', ht', hend'⟩ := (Option.any_eq_true _ _).1 halone
  have hreach := (system Unit twoSymbols).machine.run_of_runFrom hs
  have hrun : SettledRun true 7 s mixed t :=
    ⟨Machine.run_of_runFrom _ ht, hdrained, of_decide_eq_true hend⟩
  have hrun' : SettledRun true 7 s alone t' :=
    ⟨Machine.run_of_runFrom _ ht', hdrained, of_decide_eq_true hend'⟩
  exact ⟨s, t, t', hreach, hrun, hrun', htrades,
    (symbols_isolated twoSymbols twoSymbolsStart s hreach).2.2 twoSymbolsStart s true 7 mixed alone
      t t' hreach ⟨fun _ => rfl, fun _ _ _ => rfl⟩ hrun hrun' horders⟩

end TradingEngine.System
