/-
Symbols are kept apart.

A match actor never looks at the symbol of an order.  What keeps the symbols apart is that an
actor is only ever paired with its own symbol: in the tables of all routers, in the lists that
nodes exchange, and in the messages under way.  From this follow two things: both parties of a
trade have the symbol of the actor that makes it, and what a router does with the orders of
other symbols has no influence on the trades of a symbol.
-/
import TradingEngine.Matching.Amounts
import TradingEngine.System.Knowledge

namespace TradingEngine.System

open Lib MatchEngine MatchEngine.Cluster Matching Market

variable {H κ : Type} [DecidableEq H] [DecidableEq κ] {config : Config H}

/-! ### Actors and their symbols -/

/-- The actor was spawned for this entry of a `symbol_id_list`. -/
def ActorFor (config : Config H) (symbolId : ℤ) (actor : Address H) : Prop :=
  ∃ host k, actor = .matchActor host k ∧ (config.symbolIdList host)[k]? = some symbolId

omit [DecidableEq H] in
/-- An actor has one symbol. -/
lemma ActorFor.inj {s s' : ℤ} {actor : Address H} (h : ActorFor config s actor)
    (h' : ActorFor config s' actor) : s = s' := by
  obtain ⟨host, k, rfl, hk⟩ := h
  obtain ⟨host', k', heq, hk'⟩ := h'
  cases heq
  rw [hk] at hk'
  exact Option.some.inj hk'

/-- The messages pair actors with their symbols, and match actors get orders of their own. -/
structure PostIsolated (config : Config H) (post : Post H) : Prop where
  tells : ∀ symbolId actor, Tells post symbolId actor → ActorFor config symbolId actor
  orders : ∀ order host k, post.msg = .rawOrder order → post.dst = .matchActor host k →
    (config.symbolIdList host)[k]? = some order.symbolId

/-- What the main thread has left to spawn are the symbols that have no actor yet. -/
def MainAt (config : Config H) (host : H) (node : Node H κ) : Prop :=
  match node.main with
  | none => node.books = []
  | some steps => ∃ tail : List MainStep, (∀ step ∈ tail, step = .spawnResultActor) ∧
      steps = ((config.symbolIdList host).drop node.books.length).map .spawnMatchActor ++ tail

/-- The book of an actor holds orders of its symbol. -/
def BookIsolated (config : Config H) (host : H) (k : ℕ) (book : OrderBook (Address H)) : Prop :=
  BookOk book ∧ ∀ side, ∀ r ∈ book.queue side,
    (config.symbolIdList host)[k]? = some r.symbolId

/-- A node keeps the orders of each symbol with the actor of the symbol. -/
structure NodeIsolated (config : Config H) (host : H) (node : Node H κ) : Prop where
  main : MainAt config host node
  knows : ∀ symbolId actor, Knows node symbolId actor → ActorFor config symbolId actor
  books : ∀ k book, node.books[k]? = some book → BookIsolated config host k book

/-! ### Threads -/

omit [DecidableEq H] [DecidableEq κ] in
lemma mainAt_of_some {host : H} {node : Node H κ} {steps : List MainStep}
    (h : node.main = some steps) : MainAt config host node ↔
      ∃ tail : List MainStep, (∀ step ∈ tail, step = .spawnResultActor) ∧ steps =
        ((config.symbolIdList host).drop node.books.length).map .spawnMatchActor ++ tail := by
  rw [MainAt, h]

omit [DecidableEq H] [DecidableEq κ] in
/-- The next actor that the main thread spawns is for the next symbol. -/
lemma MainAt.next {host : H} {node : Node H κ} {symbolId : ℤ} {steps : List MainStep}
    (h : MainAt config host node) (hmain : node.main = some (.spawnMatchActor symbolId :: steps)) :
    (config.symbolIdList host)[node.books.length]? = some symbolId ∧
      ∃ tail : List MainStep, (∀ step ∈ tail, step = .spawnResultActor) ∧ steps =
        ((config.symbolIdList host).drop (node.books.length + 1)).map .spawnMatchActor ++ tail := by
  obtain ⟨tail, htail, hsteps⟩ := (mainAt_of_some hmain).1 h
  cases hdrop : (config.symbolIdList host).drop node.books.length with
  | nil =>
    rw [hdrop, List.map_nil, List.nil_append] at hsteps
    have hstep := htail _ (hsteps ▸ List.mem_cons_self)
    cases hstep
  | cons s rest =>
    rw [hdrop, List.map_cons, List.cons_append, List.cons.injEq] at hsteps
    obtain ⟨hs, hsteps⟩ := hsteps
    cases hs
    have hhead := congrArg (·[0]?) hdrop
    rw [List.getElem?_drop] at hhead
    refine ⟨hhead, tail, htail, ?_⟩
    rw [← List.tail_drop, hdrop]
    exact hsteps

omit [DecidableEq H] [DecidableEq κ] in
lemma mainAt_of_mainSteps {host : H} {node : Node H κ} (hbooks : node.books = [])
    (hmain : node.main = some (mainSteps config host)) : MainAt config host node := by
  refine (mainAt_of_some hmain).2
    ⟨if config.role host = kResultHostRoleName then [.spawnResultActor] else [], ?_, ?_⟩
  · intro step hstep
    split_ifs at hstep
    · exact List.mem_singleton.1 hstep
    · cases hstep
  · rw [hbooks]
    rfl

omit [DecidableEq H] [DecidableEq κ] in
lemma MainAt.set {host : H} {node : Node H κ} {k : ℕ} {book : OrderBook (Address H)}
    (h : MainAt config host node) (hbook : node.books[k]? = some book)
    (book' : OrderBook (Address H)) :
    MainAt config host { node with books := node.books.set k book' } := by
  cases hmain : node.main with
  | none =>
    rw [MainAt, hmain] at h
    rw [show node.books = [] from h] at hbook
    cases hbook
  | some steps =>
    obtain ⟨tail, htail, hsteps⟩ := (mainAt_of_some hmain).1 h
    refine ⟨tail, htail, ?_⟩
    rw [List.length_set]
    exact hsteps

omit [DecidableEq H] in
lemma bookIsolated_empty (host : H) (k : ℕ) : BookIsolated config host k {} :=
  ⟨bookOk_empty none, fun side r hr => by cases side <;> cases hr⟩

/-- What a thread does to the main thread's list and to the books. -/
lemma act_mainAt {nodes : H → Node H κ} {host : H} {x : MatchEngine.Action H κ} {node : Node H κ}
    {out : List (Post H)} (h : MainAt config host (nodes host))
    (hact : act config nodes host x = some (node, out)) : MainAt config host node := by
  rcases act_main hact with ⟨hnone, hsome, hbooks, -⟩ |
    ⟨symbolId, steps, hsteps, hsome, hbooks, -⟩ | ⟨steps, hsteps, hsome, hbooks, -⟩ |
    ⟨hsame, hbooks, -⟩
  · -- the main thread starts
    rw [MainAt, hnone] at h
    exact mainAt_of_mainSteps (hbooks.trans h) hsome
  · -- an actor is spawned for the next symbol
    obtain ⟨-, tail, htail, hrest⟩ := h.next hsteps
    refine (mainAt_of_some hsome).2 ⟨tail, htail, ?_⟩
    rw [hbooks, List.length_append]
    exact hrest
  · -- no symbol is left
    obtain ⟨tail, htail, hall⟩ := (mainAt_of_some hsteps).1 h
    have hnone : (config.symbolIdList host).drop (nodes host).books.length = [] := by
      cases hdrop : (config.symbolIdList host).drop (nodes host).books.length with
      | nil => rfl
      | cons s rest =>
        rw [hdrop, List.map_cons, List.cons_append, List.cons.injEq] at hall
        cases hall.1
    rw [hnone, List.map_nil, List.nil_append] at hall
    refine (mainAt_of_some hsome).2 ⟨steps, fun step hstep => htail step ?_, ?_⟩
    · rw [← hall]
      exact List.mem_cons_of_mem _ hstep
    · rw [hbooks, hnone]
      rfl
  · rwa [MainAt, ← hsame, ← hbooks] at h

/-- **Threads** keep actors and symbols paired. -/
theorem act_isolated {nodes : H → Node H κ} {host : H} {x : MatchEngine.Action H κ}
    {node : Node H κ} {out : List (Post H)} (hmain : MainOk config host (nodes host))
    (h : NodeIsolated config host (nodes host))
    (hact : act config nodes host x = some (node, out)) :
    NodeIsolated config host node ∧ ∀ post ∈ out, PostIsolated config post := by
  refine ⟨⟨act_mainAt h.main hact, fun symbolId actor hknows => ?_, fun k book hbook => ?_⟩,
    fun post hpost => ⟨fun symbolId actor htells => ?_, fun order host' k horder hdst => ?_⟩⟩
  · exact h.knows _ _ (act_knows hact hknows)
  · rcases (act_spec hact).books with hbooks | hbooks
    · rw [hbooks] at hbook
      exact h.books k book hbook
    · rw [hbooks, List.getElem?_append] at hbook
      split_ifs at hbook
      · exact h.books k book hbook
      · rw [List.mem_singleton.1 (List.mem_of_getElem? hbook)]
        exact bookIsolated_empty host k
  · rcases act_tells hact hmain hpost htells with hknows | ⟨steps, hsteps, -, rfl⟩
    · exact h.knows _ _ hknows
    · exact ⟨host, _, rfl, (h.main.next hsteps).1⟩
  · obtain ⟨-, -, hrouter⟩ := act_order hact hmain hpost horder
    rw [hrouter] at hdst
    cases hdst

/-! ### Handlers -/

omit [DecidableEq H] in
/-- **Match actors** hold orders of their symbols. -/
lemma matchActorOrder_isolated (now : Clock) {host : H} {k : ℕ} {book : OrderBook (Address H)}
    {order : RawOrder} (hbook : BookIsolated config host k book)
    (horder : (config.symbolIdList host)[k]? = some order.symbolId) :
    BookIsolated config host k (matchActorOrder now book order).1 := by
  obtain ⟨hok, hsymbol⟩ := hbook
  have hsame : ∀ {o r : RawOrder}, SameOrder o r →
      (config.symbolIdList host)[k]? = some o.symbolId →
      (config.symbolIdList host)[k]? = some r.symbolId := by
    intro o r hr ho
    rwa [hr.symbolId]
  exact ⟨matchActorOrder_bookOk now order hok,
    (matchActorOrder_forall now (T := fun _ => True) hsame hsame id (fun _ _ => trivial) hok
      hsymbol horder).2⟩

omit [DecidableEq κ] in
/-- A handler leaves the main thread where it is. -/
lemma react_mainAt {node : Node H κ} {host : H} (now : Clock) (post : Post H)
    (h : MainAt config host node) : MainAt config host (react node now post).1 := by
  obtain ⟨src, dst, msg⟩ := post
  cases dst with
  | matchActor host' k =>
    cases hbook : node.books[k]? with
    | none =>
      simp only [react, hbook]
      exact h
    | some book =>
      rw [react_matchActor hbook]
      exact h.set hbook _
  | matchResultDealActor host' => cases msg <;> exact h
  | cluster host' => cases msg <;> exact h
  | _ => exact h

omit [DecidableEq κ] in
lemma react_books {node : Node H κ} {now : Clock} {post : Post H}
    (hpost : PostIsolated config post)
    (h : ∀ k book, node.books[k]? = some book → BookIsolated config post.dst.host k book)
    {k : ℕ} {book' : OrderBook (Address H)}
    (hbook' : (react node now post).1.books[k]? = some book') :
    BookIsolated config post.dst.host k book' := by
  by_cases hdst : ∃ host, post.dst = .matchActor host k
  · obtain ⟨src, dst, msg⟩ := post
    obtain ⟨host, rfl⟩ : ∃ host, dst = .matchActor host k := hdst
    cases hbook : node.books[k]? with
    | none =>
      simp only [react, hbook] at hbook'
      cases hbook'
    | some book =>
      obtain ⟨hk, -⟩ := List.getElem?_eq_some_iff.1 hbook
      have hset : ∀ book₁, (node.books.set k book₁)[k]? = some book₁ :=
        fun _ => List.getElem?_set_self hk
      have hisolated := h k book hbook
      rw [react_matchActor hbook] at hbook'
      rw [← Option.some.inj ((hset _).symm.trans hbook')]
      cases msg with
      | rawOrder order =>
        exact matchActorOrder_isolated now hisolated (hpost.orders order host k rfl rfl)
      | actor receiver => exact ⟨⟨hisolated.1.table_ok⟩, hisolated.2⟩
      | _ => exact hisolated
  · rw [react_books_ne _ _ fun host heq => hdst ⟨host, heq⟩] at hbook'
    exact h k book' hbook'

omit [DecidableEq κ] in
/-- **Handlers** keep actors and symbols paired. -/
theorem react_isolated {node : Node H κ} (now : Clock) {post : Post H}
    (hpost : PostIsolated config post) (h : NodeIsolated config post.dst.host node) :
    NodeIsolated config post.dst.host (react node now post).1 ∧
      ∀ post' ∈ (react node now post).2, PostIsolated config post' := by
  refine ⟨⟨react_mainAt now post h.main, fun symbolId actor hknows => ?_,
    fun k book => react_books hpost h.books⟩, fun post' hpost' => ?_⟩
  · rcases react_knows hknows with hknows | htells
    · exact h.knows _ _ hknows
    · exact hpost.tells _ _ htells
  · obtain ⟨htells, horders⟩ := react_sends hpost'
    refine ⟨fun symbolId actor ha => h.knows _ _ (htells _ _ ha),
      fun order host k horder hdst => ?_⟩
    -- the actor of the symbol gets the order
    obtain ⟨-, -, -, -, hactor⟩ := horders order horder
    obtain ⟨host', k', heq, hk⟩ := h.knows _ _ (.table hactor)
    rw [hdst] at heq
    cases heq
    exact hk

/-! ### Runs -/

/-- **Actors and symbols are paired in every run.** -/
theorem isolated_of_run {G : ClusterState H κ config → ClusterEvent H κ → Prop}
    {es : List (ClusterEvent H κ)} {s : ClusterState H κ config}
    (h : (system κ config).machine.Run G es s) :
    (∀ host, NodeIsolated config host (s.nodes host)) ∧
      ∀ post ∈ s.net.all, PostIsolated config post := by
  suffices hrun : (∀ host, MainOk config host (s.nodes host) ∧
      NodeIsolated config host (s.nodes host)) ∧ ∀ post ∈ s.net.all, PostIsolated config post from
    ⟨fun host => (hrun.1 host).2, hrun.2⟩
  refine ActorSystem.local_invariant
    (Q := fun host node => MainOk config host node ∧ NodeIsolated config host node)
    (P := PostIsolated config) ?_ ?_ ?_ h
  · intro host
    refine ⟨fun steps hs => ?_, ⟨rfl, fun symbolId actor hknows => ?_, fun k book hbook => ?_⟩⟩
    · cases hs
    · exact absurd hknows (not_knows_init symbolId actor)
    · cases hbook
  · intro s host x node out _ hQ hact
    obtain ⟨hnode, hout⟩ := act_isolated (hQ host).1 (hQ host).2 hact
    exact ⟨⟨(act_spec hact).mainOk (hQ host).1, hnode⟩, hout⟩
  · rintro node now post hpost ⟨hmain, hnode⟩
    obtain ⟨hnode', hout⟩ := react_isolated now hpost hnode
    refine ⟨⟨fun steps hs => hmain steps ?_, hnode'⟩, hout⟩
    rw [← react_main node now post]
    exact hs

/-- A match actor handles orders of its symbol, on a book that holds orders of its symbol. -/
lemma handling_isolated {s : ClusterState H κ config}
    (hnodes : ∀ host, NodeIsolated config host (s.nodes host))
    (hposts : ∀ post ∈ s.net.all, PostIsolated config post) {e : ClusterEvent H κ} {host : H}
    {k : ℕ} {x : Handling H} (hx : x ∈ handling host k s e) :
    (config.symbolIdList host)[k]? = some x.order.symbolId ∧ BookIsolated config host k x.book := by
  obtain ⟨post, hpost, hdst, hmsg⟩ := mem_handling hx
  exact ⟨(hposts post (ActorSystem.mem_all_of_received hpost)).orders _ host k hmsg hdst,
    (hnodes host).books k x.book (bookAt_of_mem_handling hx)⟩

/-- Every trade of an order is between two orders of one symbol. -/
def WithinSymbol (x : Handling H) : Prop :=
  List.Forall₂ (fun call t => t.makerId = call.1.orderId ∧ t.takerId = call.2.orderId ∧
      call.1.symbolId = call.2.symbolId)
    (makeTradeCalls x.now x.book x.order) (matchActorOrder x.now x.book x.order).2

omit [DecidableEq H] in
lemma withinSymbol_of_isolated {host : H} {k : ℕ} {x : Handling H}
    (ho : (config.symbolIdList host)[k]? = some x.order.symbolId)
    (hbook : BookIsolated config host k x.book) : WithinSymbol x := by
  obtain ⟨hok, hsymbol⟩ := hbook
  have hparties : ∀ call ∈ makeTradeCalls x.now x.book x.order,
      call.1.symbolId = x.order.symbolId ∧ call.2.symbolId = x.order.symbolId := by
    rw [makeTradeCalls_eq x.now x.order hok]
    refine rule.parties_forall (I := fun o => o.symbolId = x.order.symbolId)
      (P := fun r => r.symbolId = x.order.symbolId)
      (fun r o _ ho _ _ => (sameOrder_incoming r o).symbolId.trans ho) _ _ (fun r hr => ?_) rfl
    have hr' := hsymbol _ r hr
    rw [ho] at hr'
    exact (Option.some.inj hr').symm
  refine List.Forall₂.imp ?_ ((List.forall₂_and_left (p := fun call =>
    call.1.symbolId = call.2.symbolId) _ _).2
      ⟨fun call hcall => (hparties call hcall).1.trans (hparties call hcall).2.symm,
        makeTradeCalls_trades x.now x.order hok⟩)
  rintro call t ⟨hsame, hrecord⟩
  have hmaker := congrArg Trade.makerId hrecord
  have htaker := congrArg Trade.takerId hrecord
  exact ⟨hmaker.symm, htaker.symm, hsame⟩

/-! ### The orders that a router handles -/

/-- An actor handles a message; what it sends is returned. -/
def deliver (nodes : H → Node H κ) (now : Clock) (post : Post H) :
    (H → Node H κ) × List (Post H) :=
  let r := react (nodes post.dst.host) now post
  (fun host => if host = post.dst.host then r.1 else nodes host, r.2)

/-- The trades that a match actor makes when it handles a message. -/
def tradesOf (nodes : H → Node H κ) (now : Clock) (post : Post H) : TradeList :=
  match post.dst, post.msg with
  | .matchActor host k, .rawOrder order =>
    match (nodes host).books[k]? with
    | some book => (matchActorOrder now book order).2
    | none => []
  | _, _ => []

/-- Messages are handled one after the other, with the trades that this makes. -/
def deliverAll (now : Clock) (nodes : H → Node H κ) : List (Post H) → (H → Node H κ) × TradeList
  | [] => (nodes, [])
  | post :: posts =>
    let (nodes', trades) := deliverAll now (deliver nodes now post).1 posts
    (nodes', tradesOf nodes now post ++ trades)

/-- The router of a node handles orders, and the match actors what it sends them: the trades. -/
def handleOrders (n : H) (nodes : H → Node H κ) : List (Clock × RawOrder) → TradeList
  | [] => []
  | (now, order) :: orders =>
    let (nodes, posts) := deliver nodes now ⟨.cluster n, .router n, .rawOrder order⟩
    let (nodes, trades) := deliverAll now nodes posts
    trades ++ handleOrders n nodes orders

section Orders

omit [DecidableEq κ]

variable {n : H} {nodes nodes' : H → Node H κ} {now : Clock} {order : RawOrder}

/-- The nodes after a router has handled an order. -/
def route (n : H) (nodes : H → Node H κ) (now : Clock) (order : RawOrder) : H → Node H κ :=
  (deliver nodes now ⟨.cluster n, .router n, .rawOrder order⟩).1

lemma handleOrders_cons (orders : List (Clock × RawOrder)) :
    handleOrders n nodes ((now, order) :: orders) =
      (deliverAll now (route n nodes now order)
        (deliver nodes now ⟨.cluster n, .router n, .rawOrder order⟩).2).2 ++
      handleOrders n (deliverAll now (route n nodes now order)
        (deliver nodes now ⟨.cluster n, .router n, .rawOrder order⟩).2).1 orders := rfl

lemma handleOrders_none (h : (nodes n).router.actorOf order = none)
    (orders : List (Clock × RawOrder)) : handleOrders n nodes ((now, order) :: orders) =
      handleOrders n (route n nodes now order) orders := by
  have hposts : (deliver nodes now ⟨.cluster n, .router n, .rawOrder order⟩).2 = [] := by
    change ((nodes n).router.actorOf order).toList.map _ = []
    rw [h]
    rfl
  rw [handleOrders_cons, hposts]
  rfl

lemma handleOrders_some {actor : Address H} (h : (nodes n).router.actorOf order = some actor)
    (orders : List (Clock × RawOrder)) : handleOrders n nodes ((now, order) :: orders) =
      tradesOf (route n nodes now order) now ⟨.router n, actor, .rawOrder order⟩ ++
        handleOrders n
          (deliver (route n nodes now order) now ⟨.router n, actor, .rawOrder order⟩).1 orders := by
  have hposts : (deliver nodes now ⟨.cluster n, .router n, .rawOrder order⟩).2 =
      [⟨.router n, actor, .rawOrder order⟩] := by
    change ((nodes n).router.actorOf order).toList.map _ = _
    rw [h]
    rfl
  rw [handleOrders_cons, hposts]
  simp only [deliverAll, List.append_nil]

/-- A router that handles an order changes no book, and not which actor a symbol has. -/
lemma route_books (host : H) : (route n nodes now order host).books = (nodes host).books := by
  change (if host = n then _ else nodes host : Node H κ).books = _
  split_ifs with h
  · rw [h]
    rfl
  · rfl

lemma route_symbolActor (s : ℤ) : (route n nodes now order n).router.symbolActor s =
    (nodes n).router.symbolActor s := by
  change (if n = n then _ else nodes n : Node H κ).router.symbolActor s = _
  rw [if_pos rfl]
  exact SymbolRouterData.symbolActor_lookUp _ _ _

/-- A match actor that handles an order changes its own book. -/
lemma deliver_router (src : Address H) (host h : H) (k : ℕ) (msg : Message H) :
    ((deliver nodes now ⟨src, .matchActor host k, msg⟩).1 h).router = (nodes h).router := by
  change (if h = host then (react (nodes host) now _).1 else nodes h : Node H κ).router = _
  split_ifs with heq
  · rw [heq]
    cases hbook : (nodes host).books[k]? <;> simp [react, hbook]
  · rfl

lemma deliver_book_self (src : Address H) (host : H) (k : ℕ) :
    ((deliver nodes now ⟨src, .matchActor host k, .rawOrder order⟩).1 host).books[k]? =
      ((nodes host).books[k]?).map fun book => (matchActorOrder now book order).1 := by
  change (if host = host then (react (nodes host) now _).1 else nodes host : Node H κ).books[k]? = _
  rw [if_pos rfl]
  cases hbook : (nodes host).books[k]? with
  | none => simp only [react, hbook, Option.map_none]
  | some book =>
    obtain ⟨hk, -⟩ := List.getElem?_eq_some_iff.1 hbook
    rw [react_matchActor hbook]
    exact List.getElem?_set_self hk

lemma deliver_book_ne (src : Address H) {host host' : H} {k k' : ℕ} (msg : Message H)
    (hne : Address.matchActor host' k' ≠ .matchActor host k) :
    ((deliver nodes now ⟨src, .matchActor host k, msg⟩).1 host').books[k']? =
      (nodes host').books[k']? := by
  change (if host' = host then (react (nodes host) now _).1 else nodes host' :
    Node H κ).books[k']? = _
  split_ifs with heq
  · subst heq
    refine react_books_ne _ _ fun host'' hdst => hne ?_
    cases hdst
    rfl
  · rfl

/-- What the nodes of the second run have in common with those of the first: the actors of the
symbols, and the book of one symbol. -/
structure Agree (n : H) (symbolId : ℤ) (nodes nodes' : H → Node H κ) : Prop where
  table : ∀ s, (nodes' n).router.symbolActor s = (nodes n).router.symbolActor s
  book : ∀ host k, (nodes n).router.symbolActor symbolId = some (.matchActor host k) →
    (nodes' host).books[k]? = (nodes host).books[k]?

lemma Agree.route_left {symbolId : ℤ} (h : Agree n symbolId nodes nodes') :
    Agree n symbolId (route n nodes now order) nodes' := by
  refine ⟨fun s => ?_, fun host k hk => ?_⟩
  · rw [route_symbolActor]
    exact h.table s
  · rw [route_symbolActor] at hk
    rw [route_books]
    exact h.book host k hk

lemma Agree.route_right {symbolId : ℤ} (h : Agree n symbolId nodes nodes') :
    Agree n symbolId nodes (route n nodes' now order) := by
  refine ⟨fun s => ?_, fun host k hk => ?_⟩
  · rw [route_symbolActor]
    exact h.table s
  · rw [route_books]
    exact h.book host k hk

lemma deliver_isolated {post : Post H} (h : ∀ host, NodeIsolated config host (nodes host))
    (hpost : PostIsolated config post) (host : H) :
    NodeIsolated config host ((deliver nodes now post).1 host) := by
  change NodeIsolated config host
    (if host = post.dst.host then (react (nodes post.dst.host) now post).1 else nodes host)
  split_ifs with heq
  · rw [heq]
    exact (react_isolated now hpost (h _)).1
  · exact h host

lemma route_isolated (h : ∀ host, NodeIsolated config host (nodes host)) (host : H) :
    NodeIsolated config host (route n nodes now order host) := by
  have hpost : PostIsolated config ⟨.cluster n, .router n, .rawOrder order⟩ := by
    constructor
    · rintro _ _ ⟨⟩
    · rintro _ _ _ - ⟨⟩
  exact deliver_isolated h hpost host

omit [DecidableEq H] in
lemma postIsolated_of_getElem? {src : Address H} {host : H} {k : ℕ}
    (h : (config.symbolIdList host)[k]? = some order.symbolId) :
    PostIsolated config ⟨src, .matchActor host k, .rawOrder order⟩ := by
  constructor
  · rintro _ _ ⟨⟩
  · rintro _ _ _ ⟨⟩ ⟨⟩
    exact h

omit [DecidableEq H] in
/-- The trades of an order that a match actor gets: those of its symbol are all, or none. -/
lemma tradesOf_filter (h : ∀ host, NodeIsolated config host (nodes host)) (src actor : Address H)
    (symbolId : ℤ) :
    (tradesOf nodes now ⟨src, actor, .rawOrder order⟩).filter (fun t => t.symbolId = symbolId) =
      if order.symbolId = symbolId then tradesOf nodes now ⟨src, actor, .rawOrder order⟩
      else [] := by
  have hall : ∀ t ∈ tradesOf nodes now ⟨src, actor, .rawOrder order⟩,
      t.symbolId = order.symbolId := by
    intro t ht
    unfold tradesOf at ht
    split at ht
    · rename_i host k order' hdst hmsg
      cases hmsg
      split at ht
      · rename_i book hbook
        exact matchActorOrder_symbolId now ((h host).books k book hbook).1 t ht
      · cases ht
    · cases ht
  split_ifs with hs
  · exact List.filter_eq_self.2 fun t ht => by simpa using (hall t ht).trans hs
  · exact List.filter_eq_nil_iff.2 fun t ht => by simpa [hall t ht] using hs

/-- **The trades of a symbol** are those of the run without the orders of other symbols. -/
theorem handleOrders_filter {symbolId : ℤ} (h : ∀ host, NodeIsolated config host (nodes host))
    (hagree : Agree n symbolId nodes nodes') (orders : List (Clock × RawOrder)) :
    (handleOrders n nodes orders).filter (fun t => t.symbolId = symbolId) =
      handleOrders n nodes' (orders.filter fun o => o.2.symbolId = symbolId) := by
  induction orders generalizing nodes nodes' with
  | nil => rfl
  | cons o orders ih =>
    obtain ⟨now, order⟩ := o
    have hroute : ∀ host, NodeIsolated config host (route n nodes now order host) :=
      fun host => route_isolated h host
    by_cases hs : order.symbolId = symbolId
    · -- the order is in both runs
      rw [List.filter_cons_of_pos (by simpa using hs)]
      have hboth : Agree n symbolId (route n nodes now order) (route n nodes' now order) :=
        hagree.route_left.route_right
      cases hactor : (nodes n).router.actorOf order with
      | none =>
        rw [handleOrders_none hactor, handleOrders_none ((hagree.table _).trans hactor)]
        exact ih hroute hboth
      | some actor =>
        obtain ⟨host, k, rfl, hk⟩ := (h n).knows _ _ (.table hactor)
        have hsymbol : (route n nodes now order n).router.symbolActor symbolId =
            some (.matchActor host k) := by
          rw [route_symbolActor, ← hs]
          exact hactor
        have hbook := hboth.book host k hsymbol
        rw [handleOrders_some hactor, handleOrders_some ((hagree.table _).trans hactor),
          List.filter_append, tradesOf_filter hroute, if_pos hs]
        congr 1
        · simp only [tradesOf, hbook]
        · refine ih (fun host' => deliver_isolated hroute (postIsolated_of_getElem? hk) host')
            ⟨fun s => ?_, fun host' k' hk' => ?_⟩
          · rw [deliver_router, deliver_router]
            exact hboth.table s
          · rw [deliver_router, hsymbol] at hk'
            cases hk'
            rw [deliver_book_self, deliver_book_self, hbook]
    · -- the order is in the first run only
      rw [List.filter_cons_of_neg (by simpa using hs)]
      cases hactor : (nodes n).router.actorOf order with
      | none =>
        rw [handleOrders_none hactor]
        exact ih hroute hagree.route_left
      | some actor =>
        obtain ⟨host, k, rfl, hk⟩ := (h n).knows _ _ (.table hactor)
        rw [handleOrders_some hactor, List.filter_append, tradesOf_filter hroute, if_neg hs,
          List.nil_append]
        refine ih (fun host' => deliver_isolated hroute (postIsolated_of_getElem? hk) host')
          ⟨fun s => ?_, fun host' k' hk' => ?_⟩
        · rw [deliver_router]
          exact hagree.route_left.table s
        · rw [deliver_router] at hk'
          rw [deliver_book_ne]
          · exact hagree.route_left.book host' k' hk'
          · -- the actor of another symbol
            intro heq
            have hsame := (hroute n).knows _ _ (.table hk')
            rw [heq] at hsame
            exact hs (ActorFor.inj ⟨host, k, rfl, hk⟩ hsame)

end Orders

/-- An order of a symbol that nobody has does not disturb those of symbol 7. -/
example : ((system Unit twoNodes).machine.runFrom (fun _ _ => True)
      (system Unit twoNodes).machine.init twoNodesStart).map (fun s =>
        (handleOrders true s.nodes [(0, ⟨1, 7, 10, .sell, 5, 100, 1⟩),
          (0, ⟨2, 8, 11, .buy, 5, 100, 2⟩), (0, ⟨3, 7, 12, .buy, 4, 100, 3⟩)]).map
            fun t => (t.makerId, t.takerId, t.amount)) =
    some [(1, 3, 4)] := by decide

end TradingEngine.System
