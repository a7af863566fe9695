/-
The way of the orders to a match actor.

An order goes from the service of a node to the router of that node, and from there to the
match actor.  Both hops keep the order of the messages, so the orders that come in at one
node are handled by every match actor in the order in which they came (`handled_filter`).
When this is also the order of their ids, resting orders trade by time priority
(`earlierFirst_of_inOrder`).
-/
import TradingEngine.Matching.Priority
import TradingEngine.System.Knowledge

namespace TradingEngine.System

open Lib MatchEngine MatchEngine.Cluster Matching

variable {H κ : Type} [DecidableEq H] [DecidableEq κ] {config : Config H}

/-! ### Orders along a run -/

/-- The orders that a match actor handles in the course of a run, with the book each of them
meets. -/
def handlings (config : Config H) (κ : Type) [DecidableEq κ] (host : H) (k : ℕ)
    (es : List (ClusterEvent H κ)) : List (Handling H) :=
  (system κ config).machine.trace (handling host k) es

/-- The orders that a match actor handles in the course of a run. -/
def handledOrders (config : Config H) (κ : Type) [DecidableEq κ] (host : H) (k : ℕ)
    (es : List (ClusterEvent H κ)) : List RawOrder :=
  (handlings config κ host k es).map Handling.order

/-- The orders that come in at a node. -/
def acceptedOrder (n : H) (s : ClusterState H κ config) : ClusterEvent H κ → List RawOrder
  | .act host (.match request) =>
    if host = n ∧ (s.nodes host).serving then ((s.nodes host).grpc.match request).2.2.toList else []
  | _ => []

/-- The orders that a step sends from one actor to another. -/
def sentOrders (src dst : Address H) (s : ClusterState H κ config) (e : ClusterEvent H κ) :
    List RawOrder :=
  (between src dst ((system κ config).sent s e)).flatMap ordersOf

/-- The orders that a step lets an actor receive from another. -/
def receivedOrders (src dst : Address H) (s : ClusterState H κ config) (e : ClusterEvent H κ) :
    List RawOrder :=
  (between src dst ((system κ config).received s e)).flatMap ordersOf

/-- What is received from an actor is the beginning of what it has sent. -/
lemma received_sublist {G : ClusterState H κ config → ClusterEvent H κ → Prop}
    {es : List (ClusterEvent H κ)} {s : ClusterState H κ config}
    (h : (system κ config).machine.Run G es s) (src dst : Address H) :
    ((system κ config).machine.trace (receivedOrders src dst) es).Sublist
      ((system κ config).machine.trace (sentOrders src dst) es) := by
  have hreceived : (system κ config).machine.trace (receivedOrders src dst) es = _ :=
    h.trace_flatMap ordersOf
  have hsent : (system κ config).machine.trace (sentOrders src dst) es = _ :=
    h.trace_flatMap ordersOf
  rw [hsent, hreceived, ActorSystem.channel h, List.flatMap_append]
  exact List.sublist_append_left _ _

/-! ### The path -/

/-- The actor is a match actor. -/
def IsMatchActor (a : Address H) : Prop := ∃ host k, a = .matchActor host k

/-- Orders come in at the nodes of `N` only. -/
def MatchAt (N : Set H) (_ : ClusterState H κ config) : ClusterEvent H κ → Prop
  | .act host (.match _) => host ∈ N
  | _ => True

/-- The message `post` is on the way of an order that has come in at `n`. -/
def OnPath (n : H) (post : Post H) : Prop :=
  (post.src = .cluster n ∧ post.dst = .router n) ∨ (post.src = .router n ∧ IsMatchActor post.dst)

/-- Orders are on their way to the router of a node of `N` or from it to a match actor; the
actors of symbols are match actors. -/
def PathOk (N : Set H) (post : Post H) : Prop :=
  match post.msg with
  | .rawOrder _ => ∃ n ∈ N, OnPath n post
  | .localSymbolActor _ a => IsMatchActor a
  | .remoteSymbolActor _ _ a => IsMatchActor a
  | .symbolActorInfoList _ list => ∀ info ∈ list, IsMatchActor info.symbolActor
  | _ => True

/-- The actors of symbols that a node knows are match actors. -/
structure AddressesOk (node : Node H κ) : Prop where
  map : ∀ symbolId a, node.router.symbolActor symbolId = some a → IsMatchActor a
  locals : ∀ info ∈ node.router.localSymbolActors, IsMatchActor info.symbolActor
  calls : ∀ info, InCalls node info → IsMatchActor info.symbolActor

omit [DecidableEq H] [DecidableEq κ] in
lemma addressesOk_iff {node : Node H κ} :
    AddressesOk node ↔ ∀ symbolId a, Knows node symbolId a → IsMatchActor a := by
  constructor
  · rintro h symbolId a (htable | hinfo | hinfo)
    · exact h.map _ _ htable
    · exact h.locals _ hinfo
    · exact h.calls _ hinfo
  · intro h
    exact ⟨fun symbolId a ha => h symbolId a (.table ha), fun info hinfo => h _ _ (.locals hinfo),
      fun info hinfo => h _ _ (.calls hinfo)⟩

omit [DecidableEq H] in
lemma pathOk_iff {N : Set H} {post : Post H} : PathOk N post ↔
    (∀ symbolId a, Tells post symbolId a → IsMatchActor a) ∧
    ∀ order, post.msg = .rawOrder order → ∃ n ∈ N, OnPath n post := by
  obtain ⟨src, dst, msg⟩ := post
  cases msg with
  | symbolActorInfoList request list =>
    constructor
    · intro h
      refine ⟨?_, by rintro _ ⟨⟩⟩
      rintro symbolId a ⟨info, hinfo, -, rfl⟩
      exact h info hinfo
    · exact fun h info hinfo => h.1 _ _ ⟨info, hinfo, rfl, rfl⟩
  | _ => simp [PathOk, Tells]

lemma act_path {N : Set H} {s : ClusterState H κ config} {host : H} {x : MatchEngine.Action H κ}
    {node : Node H κ} {out : List (Post H)} (hG : MatchAt N s (.act host x))
    (hmain : MainOk config host (s.nodes host))
    (hQ : AddressesOk (s.nodes host)) (hact : act config s.nodes host x = some (node, out)) :
    AddressesOk node ∧ ∀ post ∈ out, PathOk N post := by
  rw [addressesOk_iff] at hQ ⊢
  refine ⟨fun symbolId a ha => hQ _ _ (act_knows hact ha), fun post hpost => pathOk_iff.2 ⟨?_, ?_⟩⟩
  · intro symbolId a ha
    rcases act_tells hact hmain hpost ha with ha | ⟨steps, -, -, rfl⟩
    · exact hQ _ _ ha
    · exact ⟨host, _, rfl⟩
  · intro order horder
    obtain ⟨⟨request, rfl⟩, hsrc, hdst⟩ := act_order hact hmain hpost horder
    exact ⟨host, hG, Or.inl ⟨hsrc, hdst⟩⟩

omit [DecidableEq κ] in
lemma react_path {N : Set H} {node : Node H κ} (now : Clock) {post : Post H}
    (hpost : PathOk N post) (hnode : AddressesOk node) :
    AddressesOk (react node now post).1 ∧ ∀ post' ∈ (react node now post).2, PathOk N post' := by
  rw [addressesOk_iff] at hnode ⊢
  obtain ⟨htells, horders⟩ := pathOk_iff.1 hpost
  refine ⟨fun symbolId a ha => ?_, fun post' hpost' => ?_⟩
  · rcases react_knows ha with ha | ha
    · exact hnode _ _ ha
    · exact htells _ _ ha
  · obtain ⟨htells', horders'⟩ := react_sends hpost'
    refine pathOk_iff.2 ⟨fun symbolId a ha => hnode _ _ (htells' _ _ ha), fun order horder => ?_⟩
    obtain ⟨host, hdst, hmsg, hsrc, hactor⟩ := horders' order horder
    obtain ⟨n, hn, hpath⟩ := horders order hmsg
    -- the router is the one that the order was sent to
    have hhost : host = n := by
      rcases hpath with ⟨-, hdst'⟩ | ⟨-, host', k, hdst'⟩
      · exact Address.router.inj (hdst.symm.trans hdst')
      · rw [hdst] at hdst'
        cases hdst'
    exact ⟨n, hn, Or.inr ⟨hhost ▸ hsrc, hnode _ _ (.table hactor)⟩⟩

/-- **Every order is on the path.** -/
lemma path_invariant {N : Set H} {es : List (ClusterEvent H κ)} {s : ClusterState H κ config}
    (h : (system κ config).machine.Run (MatchAt N) es s) : ∀ post ∈ s.net.all, PathOk N post := by
  refine (ActorSystem.local_invariant
    (Q := fun host node => MainOk config host node ∧ AddressesOk node) (P := PathOk N)
    ?_ ?_ ?_ h).2
  · refine fun host => ⟨fun steps hs => ?_, by simp [system], by simp [system], ?_⟩
    · cases hs
    · rintro info ⟨call, hcall, -⟩
      cases hcall
  · intro s host x node out hG hQ hact
    obtain ⟨hnode, hout⟩ := act_path hG (hQ host).1 (hQ host).2 hact
    exact ⟨⟨(act_spec hact).mainOk (hQ host).1, hnode⟩, hout⟩
  · rintro node now post hpost ⟨hmain, hnode⟩
    obtain ⟨hnode', hout⟩ := react_path now hpost hnode
    refine ⟨⟨fun steps hs => hmain steps ?_, hnode'⟩, hout⟩
    rw [← react_main node now post]
    exact hs

/-- In any run orders come in at the nodes that there are. -/
lemma run_matchAt_univ {G : ClusterState H κ config → ClusterEvent H κ → Prop}
    {es : List (ClusterEvent H κ)} {s : ClusterState H κ config}
    (h : (system κ config).machine.Run G es s) :
    (system κ config).machine.Run (MatchAt Set.univ) es s := by
  refine h.mono fun _ _ e _ _ => ?_
  cases e with
  | act host x => cases x <;> trivial
  | _ => trivial

/-! ### The order of the orders -/

section Order

variable {n : H} {G : ClusterState H κ config → ClusterEvent H κ → Prop}
  {es : List (ClusterEvent H κ)} {s : ClusterState H κ config}

/-- A step adds the order that it lets the match actor handle. -/
lemma handledOrders_concat (h : (system κ config).machine.Run G es s) (host : H) (k : ℕ)
    (e : ClusterEvent H κ) : handledOrders config κ host k (es ++ [e]) =
      handledOrders config κ host k es ++ (handling host k s e).map Handling.order := by
  rw [handledOrders, handlings, h.trace_concat, List.map_append]
  rfl

/-- A match actor handles what it receives from the routers. -/
lemma handling_sublist (h : (system κ config).machine.Run G es s) (e : ClusterEvent H κ)
    (host : H) (k : ℕ) : ∃ n, ((handling host k s e).map Handling.order).Sublist
      (receivedOrders (.router n) (.matchActor host k) s e) := by
  cases e with
  | act host' x => exact ⟨host, List.nil_sublist _⟩
  | arrive src dst => exact ⟨host, List.nil_sublist _⟩
  | handle a now =>
    by_cases ha : a = .matchActor host k
    · subst ha
      simp only [receivedOrders, ActorSystem.received, handling, if_true]
      cases htake : s.net.take (.matchActor host k) with
      | none => exact ⟨host, List.nil_sublist _⟩
      | some r =>
        obtain ⟨⟨src, dst, msg⟩, net⟩ := r
        obtain rfl : dst = .matchActor host k := (Net.take_spec htake).1
        cases hbook : bookAt s host k with
        | none => cases msg <;> exact ⟨host, List.nil_sublist _⟩
        | some book =>
          cases msg with
          | rawOrder o =>
            obtain ⟨n, -, hpath⟩ := path_invariant (run_matchAt_univ h) _
              ((Net.take_all_perm htake).mem_iff.2 List.mem_cons_self)
            have hsrc : src = .router n := by
              rcases hpath with ⟨-, hdst⟩ | ⟨hsrc, -⟩
              · cases hdst
              · exact hsrc
            subst hsrc
            exact ⟨n, by simp [between, ordersOf]⟩
          | _ => exact ⟨host, List.nil_sublist _⟩
    · rw [handling_of_ne ha]
      exact ⟨host, List.nil_sublist _⟩

omit [DecidableEq κ] in
/-- The orders that a router sends are those of the message. -/
lemma routerReact_orders (host : H) (router : SymbolRouterData H (Address H)) (src dst : Address H)
    (msg : Message H) :
    ((between (.router host) dst (routerReact host router src msg).2).flatMap ordersOf).Sublist
      (ordersOf ⟨src, .router host, msg⟩) := by
  cases msg with
  | rawOrder o =>
    cases hactor : router.actorOf o with
    | none => simp [routerReact, hactor]
    | some a => by_cases ha : a = dst <;> simp [routerReact, hactor, between, ha, ordersOf]
  | get request => by_cases hs : src = dst <;> simp [routerReact, between, hs, ordersOf]
  | actor handle =>
    rw [List.flatMap_eq_nil_iff.2]
    · exact List.nil_sublist _
    · intro post hpost
      obtain ⟨a, -, rfl⟩ := List.mem_map.1 (mem_between.1 hpost).1
      rfl
  | _ => exact List.nil_sublist _

/-- No thread sends in the name of a router. -/
lemma sent_act_router (h : (system κ config).machine.Run G es s) (dst : Address H) (host : H)
    (x : MatchEngine.Action H κ) :
    between (.router n) dst ((system κ config).sent s (.act host x)) = [] := by
  refine between_eq_nil fun post hpost hon => ?_
  rcases ActorSystem.sent_cases hpost with ⟨host', x', node, out, -, hact, hout⟩ | ⟨_, _, hmem, -⟩
  · have hthread := (act_spec hact).posts (mainOk_of_run h host') post hout
    cases hthread <;> cases hon.1
  · cases hmem

/-- The router of `n` passes on what it receives from the service of `n`. -/
lemma forward_sublist (h : (system κ config).machine.Run G es s) (e : ClusterEvent H κ)
    (n host : H) (k : ℕ) :
    (sentOrders (.router n) (.matchActor host k) s e).Sublist
      (receivedOrders (.cluster n) (.router n) s e) := by
  cases e with
  | act host' x =>
    rw [sentOrders, sent_act_router h]
    exact List.nil_sublist _
  | arrive src dst => exact List.nil_sublist _
  | handle a now =>
    rw [sentOrders, receivedOrders, ActorSystem.sent, ActorSystem.received]
    cases htake : s.net.take a with
    | none => exact List.nil_sublist _
    | some r =>
      obtain ⟨⟨src, dst, msg⟩, net⟩ := r
      obtain rfl : dst = a := (Net.take_spec htake).1
      by_cases ha : dst = .router n
      · subst ha
        simp only [Option.map_some, Option.getD_some, Option.toList_some]
        refine (routerReact_orders n (s.nodes n).router src (.matchActor host k) msg).trans ?_
        cases msg with
        | rawOrder o =>
          obtain ⟨n', -, hpath⟩ := path_invariant (run_matchAt_univ h) _
            ((Net.take_all_perm htake).mem_iff.2 List.mem_cons_self)
          have hsrc : src = .cluster n := by
            rcases hpath with ⟨hsrc, hdst⟩ | ⟨-, host', k', hdst⟩
            · rw [Address.router.inj hdst]
              exact hsrc
            · cases hdst
          subst hsrc
          simp [between, ordersOf]
        | _ => exact List.nil_sublist _
      · have hnone : between (.router n) (.matchActor host k)
            ((system κ config).react (s.nodes ((system κ config).host dst)) now
              ⟨src, dst, msg⟩).2 = [] := by
          refine between_eq_nil fun post hpost hon => ha ?_
          rw [← hon.1]
          exact (react_src _ _ _ post hpost).symm
        simp only [Option.map_some, Option.getD_some]
        rw [hnone]
        exact List.nil_sublist _

omit [DecidableEq κ] in
/-- The thread actor of a node handles nothing that makes it send. -/
lemma react_cluster (node : Node H κ) (now : Clock) (src : Address H) (host : H)
    (msg : Message H) : (react node now ⟨src, .cluster host, msg⟩).2 = [] := by
  cases msg <;> rfl

/-- What the service of `n` sends to its router are the orders that come in. -/
lemma accepted_sublist (h : (system κ config).machine.Run G es s) (e : ClusterEvent H κ) (n : H) :
    (sentOrders (.cluster n) (.router n) s e).Sublist (acceptedOrder n s e) := by
  cases e with
  | arrive src dst => exact List.nil_sublist _
  | handle a now =>
    have hnone : between (.cluster n) (.router n)
        ((system κ config).sent s (.handle a now)) = [] := by
      refine between_eq_nil fun post hpost hon => ?_
      rw [ActorSystem.sent] at hpost
      cases htake : s.net.take a with
      | none => simp [htake] at hpost
      | some r =>
        obtain ⟨⟨src, dst, msg⟩, net⟩ := r
        rw [htake] at hpost
        obtain rfl : dst = .cluster n := (react_src _ _ _ post hpost).symm.trans hon.1
        change post ∈ (react _ now ⟨src, .cluster n, msg⟩).2 at hpost
        rw [react_cluster] at hpost
        cases hpost
    rw [sentOrders, hnone]
    exact List.nil_sublist _
  | act host x =>
    cases hact : act config s.nodes host x with
    | none =>
      have hnone : (system κ config).sent s (.act host x) = [] := by
        simp [ActorSystem.sent, system, hact]
      rw [sentOrders, hnone]
      exact List.nil_sublist _
    | some r =>
      obtain ⟨node, out⟩ := r
      have hsent : (system κ config).sent s (.act host x) = out := by
        simp [ActorSystem.sent, system, hact]
      have hposts := (act_spec hact).posts (mainOk_of_run h host)
      rw [sentOrders, hsent]
      cases x with
      | «match» request =>
        simp only [act] at hact
        split_ifs at hact with hserving
        obtain ⟨rfl, rfl⟩ := Prod.mk.inj (Option.some.inj hact)
        by_cases hn : host = n
        · subst hn
          rw [acceptedOrder, if_pos ⟨rfl, hserving⟩]
          cases ((s.nodes host).grpc.match request).2.2 <;> simp [between, ordersOf]
        · have hnone : ∀ o : RawOrder, between (.cluster n) (.router n)
              [(⟨.cluster host, .router host, .rawOrder o⟩ : Post H)] = [] := by
            intro o
            refine between_eq_nil fun post hpost hon => hn ?_
            rw [List.mem_singleton.1 hpost] at hon
            exact Address.cluster.inj hon.1
          cases ((s.nodes host).grpc.match request).2.2 with
          | none => exact List.nil_sublist _
          | some o =>
            rw [Option.toList_some, List.map_singleton, hnone]
            exact List.nil_sublist _
      | _ =>
        -- no other thread sends orders
        rw [List.flatMap_eq_nil_iff.2]
        · exact List.nil_sublist _
        · intro post hpost
          cases hposts post (mem_between.1 hpost).1 with
          | order hx _ _ => cases hx
          | _ => rfl

/-- What a match actor receives from the router of `n` are orders that come in at `n`, in the
order in which they come. -/
lemma received_accepted (h : (system κ config).machine.Run G es s) (n host : H) (k : ℕ) :
    ((system κ config).machine.trace (receivedOrders (.router n) (.matchActor host k)) es).Sublist
      ((system κ config).machine.trace (acceptedOrder n) es) :=
  calc
    List.Sublist _ ((system κ config).machine.trace
        (sentOrders (.router n) (.matchActor host k)) es) := received_sublist h _ _
    List.Sublist _ ((system κ config).machine.trace
        (receivedOrders (.cluster n) (.router n)) es) :=
      h.trace_sublist fun _ _ e hrun _ => forward_sublist hrun e n host k
    List.Sublist _ ((system κ config).machine.trace
        (sentOrders (.cluster n) (.router n)) es) := received_sublist h _ _
    List.Sublist _ ((system κ config).machine.trace (acceptedOrder n) es) :=
      h.trace_sublist fun _ _ e hrun _ => accepted_sublist hrun e n

/-- **The orders are handled in the order in which they come in at the node**: those of the
orders `P` that are handled, when no order `P` comes in at another node. -/
theorem handled_filter (h : (system κ config).machine.Run G es s) (P : RawOrder → Prop)
    [DecidablePred P]
    (hP : ∀ m, m ≠ n → ∀ o ∈ (system κ config).machine.trace (acceptedOrder m) es, ¬ P o)
    (host : H) (k : ℕ) : ((handledOrders config κ host k es).filter fun o => P o).Sublist
      ((system κ config).machine.trace (acceptedOrder n) es) := by
  refine List.Sublist.trans ?_ (received_accepted h n host k)
  have hP : ∀ m, m ≠ n → ∀ o ∈ (system κ config).machine.trace
      (receivedOrders (.router m) (.matchActor host k)) es, ¬ P o :=
    fun m hm o ho => hP m hm o ((received_accepted h m host k).subset ho)
  revert hP
  refine h.invariant (P := fun es _ =>
    (∀ m, m ≠ n → ∀ o ∈ (system κ config).machine.trace
      (receivedOrders (.router m) (.matchActor host k)) es, ¬ P o) →
    ((handledOrders config κ host k es).filter fun o => P o).Sublist
      ((system κ config).machine.trace (receivedOrders (.router n) (.matchActor host k)) es))
    (fun _ => List.nil_sublist _) ?_
  intro es s e s' hrun ih _ _ hP
  have hreceived : ∀ m, (system κ config).machine.trace
      (receivedOrders (.router m) (.matchActor host k)) (es ++ [e]) =
        (system κ config).machine.trace (receivedOrders (.router m) (.matchActor host k)) es ++
          receivedOrders (.router m) (.matchActor host k) s e := fun m => hrun.trace_concat _ e
  rw [handledOrders_concat hrun, hreceived, List.filter_append]
  refine (ih fun m hm o ho => hP m hm o ?_).append ?_
  · rw [hreceived]
    exact List.mem_append_left _ ho
  · obtain ⟨m, hm⟩ := handling_sublist hrun e host k
    by_cases hmn : m = n
    · subst hmn
      exact List.filter_sublist.trans hm
    · -- from another node comes no order `P`
      rw [List.filter_eq_nil_iff.2 fun o ho => ?_]
      · exact List.nil_sublist _
      · have hnot := hP m hmn o (by rw [hreceived]; exact List.mem_append_right _ (hm.subset ho))
        simpa using hnot

/-! ### Priority -/

/-- The book of a match actor is made of the orders that it has handled. -/
lemma stamps_invariant (h : (system κ config).machine.Run G es s) (host : H) (k : ℕ) :
    (bookAt s host k = none → handledOrders config κ host k es = []) ∧
      ∀ book, bookAt s host k = some book → BookOk book ∧
        ∃ queue, Stamps (handledOrders config κ host k es) book queue := by
  refine h.invariant (P := fun es s =>
    (bookAt s host k = none → handledOrders config κ host k es = []) ∧
      ∀ book, bookAt s host k = some book → BookOk book ∧
        ∃ queue, Stamps (handledOrders config κ host k es) book queue) ⟨fun _ => rfl, ?_⟩ ?_
  · intro book hbook
    cases hbook
  rintro es s e s' hrun ⟨hempty, hbooks⟩ - hstep
  rw [handledOrders_concat hrun]
  rcases bookAt_cases hstep host k with ⟨hnone, hbook⟩ | ⟨hnone, hbook, hbook'⟩ |
    ⟨book, receiver, post, hnone, hbook, -, -, hbook'⟩ |
    ⟨now, book, order, post, net, -, -, -, hone, hbook, hbook'⟩
  · rw [hnone, hbook, List.map_nil, List.append_nil]
    exact ⟨hempty, hbooks⟩
  · rw [hnone, hbook', List.map_nil, List.append_nil, hempty hbook]
    refine ⟨by simp, fun book heq => ?_⟩
    rw [← Option.some.inj heq]
    exact ⟨bookOk_empty none, _, Stamps.empty none⟩
  · rw [hnone, hbook', List.map_nil, List.append_nil]
    refine ⟨by simp, fun book' heq => ?_⟩
    rw [← Option.some.inj heq]
    obtain ⟨hok, queue, hstamps⟩ := hbooks book hbook
    exact ⟨⟨hok.table_ok⟩, queue, hstamps.queue_eq, hstamps.sorted, hstamps.arrived⟩
  · rw [hone, hbook', List.map_singleton]
    refine ⟨by simp, fun book' heq => ?_⟩
    rw [← Option.some.inj heq]
    obtain ⟨hok, queue, hstamps⟩ := hbooks book hbook
    obtain ⟨queue', hstamps', -⟩ := hstamps.handle hok now order
    exact ⟨matchActorOrder_bookOk now order hok, queue', hstamps'⟩

/-- **Time priority**: when a match actor handles the orders with these ids in the order of
the ids, those of them that rest at one price trade in this order. -/
theorem earlierFirst_of_inOrder (h : (system κ config).machine.Run G es s) (host : H) (k : ℕ)
    {ids : List ℤ} (hids : (handledOrders config κ host k es).Pairwise (InOrder ids)) :
    ∀ g ∈ handlings config κ host k es,
      EarlierFirst ids (g.book.queue g.order.tradingSide.opposite)
        (matchActorOrder g.now g.book g.order).2 := by
  revert hids
  refine h.invariant (P := fun es _ =>
    (handledOrders config κ host k es).Pairwise (InOrder ids) →
      ∀ g ∈ handlings config κ host k es,
        EarlierFirst ids (g.book.queue g.order.tradingSide.opposite)
          (matchActorOrder g.now g.book g.order).2) ?_ ?_
  · intro _ g hg
    cases hg
  intro es s e s' hrun ih _ _ hids g hg
  have htrace : handlings config κ host k (es ++ [e]) =
      handlings config κ host k es ++ handling host k s e := hrun.trace_concat _ e
  rw [handledOrders, htrace, List.map_append] at hids
  have hold := (List.pairwise_append.1 hids).1
  rw [htrace] at hg
  rcases List.mem_append.1 hg with hg | hg
  · exact ih hold g hg
  · obtain ⟨hok, queue, hstamps⟩ :=
      (stamps_invariant hrun host k).2 g.book (bookAt_of_mem_handling hg)
    exact hstamps.earlierFirst hok hold g.now g.order

end Order

end TradingEngine.System
