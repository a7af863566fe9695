/-
Several order managers in front of one match engine.

Every instance of the order manager has a counter of its own for the ids of its orders, and
gets all trades of the engine.  As long as only ids are handed out that no other instance has
handed out, an instance changes an order only for a trade of this order
(`ownTrades_of_freshId`); two instances that both place orders begin with the same id.
-/
import TradingEngine.System.Exchange

namespace TradingEngine.System

open Lib MatchEngine MatchEngine.Cluster Matching OrderManager

/-! ### Ids in the cluster -/

section Cluster

variable {H κ : Type} [DecidableEq H] [DecidableEq κ] {config : Config H} {K : Set ℤ}

/-- The orders that come in have ids in `K`. -/
def AcceptIn (K : Set ℤ) (s : ClusterState H κ config) : ClusterEvent H κ → Prop
  | .act host (.match request) =>
    ∀ o, ((s.nodes host).grpc.match request).2.2 = some o → o.orderId ∈ K
  | _ => True

/-- The ids in a message are of `K`. -/
def PostIn (K : Set ℤ) (post : Post H) : Prop :=
  match post.msg with
  | .rawOrder o => o.orderId ∈ K
  | .tradeList ts => ∀ t ∈ ts, t.makerId ∈ K ∧ t.takerId ∈ K
  | _ => True

/-- The ids in a book are of `K`. -/
def BookIn (K : Set ℤ) (book : OrderBook (Address H)) : Prop :=
  BookOk book ∧ ∀ side, ∀ r ∈ book.queue side, r.orderId ∈ K

/-- The ids that a node keeps are of `K`. -/
structure NodeIn (K : Set ℤ) (node : Node H κ) : Prop where
  books : ∀ book ∈ node.books, BookIn K book
  written : ∀ m ∈ node.written, m.2.makerId ∈ K ∧ m.2.takerId ∈ K

lemma act_in {s : ClusterState H κ config} {host : H} {x : MatchEngine.Action H κ} {node : Node H κ}
    {out : List (Post H)} (hG : AcceptIn K s (.act host x))
    (hmain : MainOk config host (s.nodes host))
    (hQ : NodeIn K (s.nodes host)) (hact : act config s.nodes host x = some (node, out)) :
    NodeIn K node ∧ ∀ post ∈ out, PostIn K post := by
  have hspec := act_spec hact
  refine ⟨⟨fun book hbook => ?_, fun m hm => hQ.written m (hspec.written.subset hm)⟩,
    fun post hpost => ?_⟩
  · rcases hspec.books with hbooks | hbooks
    · rw [hbooks] at hbook
      exact hQ.books book hbook
    · rw [hbooks] at hbook
      rcases List.mem_append.1 hbook with hbook | hbook
      · exact hQ.books book hbook
      · rw [List.mem_singleton.1 hbook]
        refine ⟨bookOk_empty none, fun side r hr => ?_⟩
        cases side <;> cases hr
  · cases hspec.posts hmain post hpost with
    | order hx _ ho =>
      subst hx
      exact hG _ ho
    | _ => trivial

omit [DecidableEq H] in
/-- The message of a match actor is its trades. -/
lemma sendMatchResult_snd {receiver : Option (Address H)} {ts : TradeList}
    {message : Address H × TradeList} (h : sendMatchResult receiver ts = some message) :
    message.2 = ts := by
  unfold sendMatchResult at h
  split_ifs at h
  split at h
  · rw [← Option.some.inj h]
  · cases h

omit [DecidableEq H] in
/-- The handlers of a match actor. -/
lemma matchActorReact_in (now : Clock) {src self : Address H} {book : OrderBook (Address H)}
    {msg : Message H} (hpost : PostIn K ⟨src, self, msg⟩) (hbook : BookIn K book) :
    BookIn K (matchActorReact now self book msg).1 ∧
      ∀ post ∈ (matchActorReact now self book msg).2, PostIn K post := by
  obtain ⟨hok, hids⟩ := hbook
  cases msg with
  | rawOrder o =>
    obtain ⟨htrades, hqueue⟩ := matchActorOrder_ids now hok hids hpost
    refine ⟨⟨matchActorOrder_bookOk now o hok, hqueue⟩, fun post hmem => ?_⟩
    obtain ⟨message, hmessage, rfl⟩ := List.mem_map.1 hmem
    have hdata : message.2 = (matchActorOrder now book o).2 :=
      sendMatchResult_snd (Option.mem_toList.1 hmessage)
    intro t ht
    rw [hdata] at ht
    exact htrades t ht
  | actor receiver => exact ⟨⟨⟨hok.table_ok⟩, hids⟩, by simp [matchActorReact]⟩
  | _ => exact ⟨⟨hok, hids⟩, by simp [matchActorReact]⟩

omit [DecidableEq κ] in
lemma react_in {node : Node H κ} (now : Clock) {post : Post H} (hpost : PostIn K post)
    (hnode : NodeIn K node) :
    NodeIn K (react node now post).1 ∧ ∀ post' ∈ (react node now post).2, PostIn K post' := by
  obtain ⟨src, dst, msg⟩ := post
  cases dst with
  | router host =>
    refine ⟨⟨hnode.books, hnode.written⟩, fun post' hpost' => ?_⟩
    change post' ∈ (routerReact host node.router src msg).2 at hpost'
    cases msg with
    | rawOrder o =>
      obtain ⟨a, -, rfl⟩ := List.mem_map.1 hpost'
      exact hpost
    | get request =>
      rw [List.mem_singleton.1 hpost']
      trivial
    | actor handle =>
      obtain ⟨a, -, rfl⟩ := List.mem_map.1 hpost'
      trivial
    | _ => cases hpost'
  | matchActor host k =>
    cases hbook : node.books[k]? with
    | none =>
      simp only [react, hbook]
      exact ⟨hnode, by simp⟩
    | some book =>
      obtain ⟨hbook', hout⟩ :=
        matchActorReact_in now hpost (hnode.books book (List.mem_of_getElem? hbook))
      rw [react_matchActor hbook]
      refine ⟨⟨fun b hb => ?_, hnode.written⟩, hout⟩
      rcases List.mem_or_eq_of_mem_set hb with hb | rfl
      · exact hnode.books b hb
      · exact hbook'
  | matchResultDealActor host =>
    cases msg with
    | tradeList ts =>
      refine ⟨⟨hnode.books, fun m hm => ?_⟩, by simp [react]⟩
      simp only [react, sendMatchResult_write] at hm
      rcases List.mem_append.1 hm with hm | hm
      · exact hnode.written m hm
      · obtain ⟨t, ht, hm⟩ := List.mem_flatMap.1 hm
        obtain ⟨writer, -, rfl⟩ := List.mem_map.1 hm
        exact hpost t ht
    | _ => exact ⟨⟨hnode.books, hnode.written⟩, by simp [react]⟩
  | cluster host => cases msg <;> exact ⟨⟨hnode.books, hnode.written⟩, by simp [react]⟩
  | main host => exact ⟨hnode, by simp [react]⟩
  | callback host => exact ⟨hnode, by simp [react]⟩

/-- **The trades are between orders that came in.** -/
theorem written_in {es : List (ClusterEvent H κ)} {s : ClusterState H κ config}
    (h : (system κ config).machine.Run (AcceptIn K) es s) (host : H) :
    ∀ m ∈ (s.nodes host).written, m.2.makerId ∈ K ∧ m.2.takerId ∈ K := by
  refine ((ActorSystem.local_invariant
    (Q := fun host node => MainOk config host node ∧ NodeIn K node) (P := PostIn K)
    ?_ ?_ ?_ h).1 host).2.written
  · refine fun host => ⟨fun steps hs => ?_, by simp [system], by simp [system]⟩
    cases hs
  · intro s host x node out hG hQ hact
    obtain ⟨hnode, hout⟩ := act_in hG (hQ host).1 (hQ host).2 hact
    exact ⟨⟨(act_spec hact).mainOk (hQ host).1, hnode⟩, hout⟩
  · rintro node now post hpost ⟨hmain, hnode⟩
    obtain ⟨hnode', hout⟩ := react_in now hpost hnode
    refine ⟨⟨fun steps hs => hmain steps ?_, hnode'⟩, hout⟩
    rw [← react_main node now post]
    exact hs

end Cluster

/-! ### The instances -/

/-- Order managers in front of one cluster. -/
structure InstancesState (ι H : Type) [DecidableEq ι] [DecidableEq H] (config : Config H) where
  managers : ι → OrderManagerService := fun _ => {}
  cluster : ClusterState H ι config

/-- The streams of the engine have the instances as subscribers. -/
inductive InstancesEvent (ι H : Type)
  /-- A step of an instance that needs no engine. -/
  | manager (i : ι) (e : OrderManager.Event)
  /-- `Match` of the `c`-th call of an instance reaches a node. -/
  | submit (i : ι) (c : ℕ) (host : H)
  /-- The next trade of the stream of an instance is read from a node and passes the critical
  section. -/
  | receive (i : ι) (host : H)
  | cluster (e : ClusterEvent H ι)

variable {ι H : Type} [DecidableEq ι] [DecidableEq H] {config : Config H}

/-- `Match` fails when it does not reach the engine. -/
def Alone : OrderManager.Event → Bool
  | .matchEngine _ success => !success
  | .receive _ => false
  | _ => true

/-- Steps of the cluster in which no order manager takes part. -/
def WithoutClient : ClusterEvent H ι → Bool
  | .act _ (.match _) => false
  | .act _ (.read _) => false
  | _ => true

namespace InstancesState

/-- A step of one order manager alone. -/
def stepManager (s : InstancesState ι H config) (i : ι) (e : OrderManager.Event) :
    Option (InstancesState ι H config) :=
  ((s.managers i).step e).map fun manager =>
    { s with managers := Function.update s.managers i manager }

/-- A step of the cluster alone. -/
def stepCluster (s : InstancesState ι H config) (e : ClusterEvent H ι) :
    Option (InstancesState ι H config) :=
  ((system ι config).step s.cluster e).map fun cluster => { s with cluster := cluster }

/-- The next trade of the stream of an instance. -/
def nextTrade (s : InstancesState ι H config) (i : ι) (host : H) :
    Option MatchEngineProto.Trade :=
  ((s.cluster.nodes host).written.find? fun m => m.1 = i).map Prod.snd

/-- A step of an order manager, of the cluster, or of both. -/
def step (s : InstancesState ι H config) : InstancesEvent ι H → Option (InstancesState ι H config)
  | .manager i e => if Alone e then s.stepManager i e else none
  | .submit i c host =>
    match (s.managers i).calls[c]? with
    | some call =>
      (s.stepManager i (.matchEngine c (succeeds (s.cluster.nodes host).grpc
        call.matchEngineOrder))).bind fun s =>
          s.stepCluster (.act host (.match call.matchEngineOrder))
    | none => none
  | .receive i host =>
    match s.nextTrade i host with
    | some trade =>
      (s.stepManager i (.receive trade)).bind fun s => s.stepCluster (.act host (.read i))
    | none => none
  | .cluster e => if WithoutClient e then s.stepCluster e else none

end InstancesState

/-- Any number of order managers before a match engine.  An instance that is restarted begins
again as another one. -/
def instances (ι : Type) [DecidableEq ι] (config : Config H) :
    Machine (InstancesState ι H config) (InstancesEvent ι H) where
  init := { cluster := (system ι config).start }
  step := InstancesState.step

/-- The order that the engine accepts, with its instance. -/
def knownOrder (s : InstancesState ι H config) : InstancesEvent ι H → List (ι × OrderManager.Order)
  | .submit i c host =>
    match (s.managers i).calls[c]? with
    | some call =>
      if ((s.cluster.nodes host).grpc.match call.matchEngineOrder).2.2.isSome then
        [(i, call.order)]
      else []
    | none => []
  | _ => []

variable (config) in
/-- The orders that are known to the engine after a run. -/
def knownOrders (es : List (InstancesEvent ι H)) : List (ι × OrderManager.Order) :=
  (instances ι config).trace knownOrder es

variable (config) in
/-- No two orders that are known to the engine have the same id. -/
def DistinctIds (es : List (InstancesEvent ι H)) : Prop :=
  (knownOrders config es).Pairwise fun x y => x.2.orderId ≠ y.2.orderId

/-- The trade is between two orders known to the engine, and `x` is one of them. -/
def TookPart (known : List (ι × OrderManager.Order)) (x : ι × OrderManager.Order)
    (trade : MatchEngineProto.Trade) : Prop :=
  ∃ maker ∈ known, ∃ taker ∈ known, maker.2.orderId = trade.makerId ∧
    taker.2.orderId = trade.takerId ∧ (x = maker ∨ x = taker)

/-- When an instance reads a trade, it changes only entries of orders that took part in it. -/
def OwnTrades (es : List (InstancesEvent ι H)) (s : InstancesState ι H config) : Prop :=
  ∀ (i : ι) (host : H) (trade : MatchEngineProto.Trade) (s' : InstancesState ι H config),
    s.nextTrade i host = some trade → (instances ι config).step s (.receive i host) = some s' →
      ∀ (id : ℤ) (status : OrderStatus), (s.managers i).orderIdToOrderStatus id = some status →
        (s'.managers i).orderIdToOrderStatus id ≠ some status →
          TookPart (knownOrders config es) (i, status.order) trade

/-- An instance hands out an id that no other instance has handed out. -/
def FreshId (s : InstancesState ι H config) : InstancesEvent ι H → Prop
  | .manager i (.placeOrder _ _) => ∀ j, j ≠ i → (s.managers j).counter ≤ (s.managers i).counter
  | _ => True

/-! ### Steps -/

/-- What a step does, case by case. -/
inductive InstancesStep (s : InstancesState ι H config) :
    InstancesEvent ι H → InstancesState ι H config → Prop
  | manager {i : ι} {e : OrderManager.Event} {manager : OrderManagerService} (he : Alone e)
      (h : (s.managers i).step e = some manager) : InstancesStep s (.manager i e)
        { s with managers := Function.update s.managers i manager }
  | submit {i : ι} {c : ℕ} {host : H} {call : PlaceOrderCall} {success : Bool}
      {manager : OrderManagerService} {cluster : ClusterState H ι config}
      (hcall : (s.managers i).calls[c]? = some call)
      (h : (s.managers i).step (.matchEngine c success) = some manager)
      (hcluster : (system ι config).step s.cluster (.act host (.match call.matchEngineOrder)) =
        some cluster) : InstancesStep s (.submit i c host)
          ⟨Function.update s.managers i manager, cluster⟩
  | receive {i : ι} {host : H} {trade : MatchEngineProto.Trade} {manager : OrderManagerService}
      {cluster : ClusterState H ι config} (htrade : s.nextTrade i host = some trade)
      (h : (s.managers i).step (.receive trade) = some manager)
      (hcluster : (system ι config).step s.cluster (.act host (.read i)) = some cluster) :
      InstancesStep s (.receive i host) ⟨Function.update s.managers i manager, cluster⟩
  | cluster {e : ClusterEvent H ι} {cluster : ClusterState H ι config} (he : WithoutClient e)
      (hcluster : (system ι config).step s.cluster e = some cluster) :
      InstancesStep s (.cluster e) { s with cluster := cluster }

variable {es : List (InstancesEvent ι H)} {s s' : InstancesState ι H config}
  {e : InstancesEvent ι H}

lemma instances_step (h : (instances ι config).step s e = some s') : InstancesStep s e s' := by
  cases e with
  | manager i e =>
    simp only [instances, InstancesState.step] at h
    split_ifs at h with he
    obtain ⟨manager, hmanager, rfl⟩ := Option.map_eq_some_iff.1 h
    exact .manager he hmanager
  | submit i c host =>
    simp only [instances, InstancesState.step] at h
    split at h
    · rename_i call hcall
      obtain ⟨s₁, hs₁, h⟩ := Option.bind_eq_some_iff.1 h
      obtain ⟨manager, hmanager, rfl⟩ := Option.map_eq_some_iff.1 hs₁
      obtain ⟨cluster, hcluster, rfl⟩ := Option.map_eq_some_iff.1 h
      exact .submit hcall hmanager hcluster
    · cases h
  | receive i host =>
    simp only [instances, InstancesState.step] at h
    split at h
    · rename_i trade htrade
      obtain ⟨s₁, hs₁, h⟩ := Option.bind_eq_some_iff.1 h
      obtain ⟨manager, hmanager, rfl⟩ := Option.map_eq_some_iff.1 hs₁
      obtain ⟨cluster, hcluster, rfl⟩ := Option.map_eq_some_iff.1 h
      exact .receive htrade hmanager hcluster
    · cases h
  | cluster e =>
    simp only [instances, InstancesState.step] at h
    split_ifs at h with he
    obtain ⟨cluster, hcluster, rfl⟩ := Option.map_eq_some_iff.1 h
    exact .cluster he hcluster

/-- An instance takes a step of its own, or nothing changes for it. -/
lemma manager_step (h : InstancesStep s e s') (i : ι) : s'.managers i = s.managers i ∨
    ∃ e', (s.managers i).step e' = some (s'.managers i) ∧
      ∀ now request, e' = .placeOrder now request → e = .manager i e' := by
  have hupdate : ∀ {j : ι} {e' : OrderManager.Event} {manager : OrderManagerService},
      (s.managers j).step e' = some manager →
      (∀ now request, e' = .placeOrder now request → e = .manager j e') →
      Function.update s.managers j manager i = s.managers i ∨
        ∃ e', (s.managers i).step e' = some (Function.update s.managers j manager i) ∧
          ∀ now request, e' = .placeOrder now request → e = .manager i e' := by
    intro j e' manager hstep hplace
    by_cases hij : i = j
    · subst hij
      rw [Function.update_self]
      exact Or.inr ⟨e', hstep, hplace⟩
    · exact Or.inl (Function.update_of_ne hij _ _)
  cases h with
  | manager _ hstep => exact hupdate hstep fun _ _ _ => rfl
  | submit _ hstep _ => exact hupdate hstep (by simp)
  | receive _ hstep _ => exact hupdate hstep (by simp)
  | cluster _ _ => exact Or.inl rfl

/-- What every step of an order manager keeps, the instances keep. -/
lemma forall_manager {P : OrderManagerService → Prop} (hinit : P {})
    (hstep : ∀ m m' e, P m → m.step e = some m' → P m')
    (h : (instances ι config).Reaches es s) : ∀ i, P (s.managers i) := by
  refine h.invariant (P := fun _ s => ∀ i, P (s.managers i)) (fun _ => hinit) ?_
  intro es s e s' _ ih _ hs i
  rcases manager_step (instances_step hs) i with heq | ⟨e', he', -⟩
  · rw [heq]
    exact ih i
  · exact hstep _ _ e' (ih i) he'

lemma callsOk_of_run (h : (instances ι config).Reaches es s) : ∀ i, CallsOk (s.managers i) :=
  forall_manager callsOk_init (fun _ _ _ hok hstep => hok.step hstep) h

lemma entriesOk_of_run (h : (instances ι config).Reaches es s) : ∀ i, EntriesOk (s.managers i) :=
  forall_manager (fun id status hstatus => by cases hstatus)
    (fun _ _ _ hok hstep => EntriesOk.step hok hstep) h

/-! ### The orders known to the engine -/

lemma knownOrders_concat (h : (instances ι config).Reaches es s) (e : InstancesEvent ι H) :
    knownOrders config (es ++ [e]) = knownOrders config es ++ knownOrder s e :=
  h.trace_concat _ e

lemma mem_knownOrder {x : ι × OrderManager.Order} (hx : x ∈ knownOrder s e) :
    ∃ c host call, e = .submit x.1 c host ∧ (s.managers x.1).calls[c]? = some call ∧
      call.order = x.2 := by
  cases e with
  | submit i c host =>
    simp only [knownOrder] at hx
    split at hx
    · rename_i call hcall
      split_ifs at hx
      · rw [List.mem_singleton.1 hx]
        exact ⟨c, host, call, rfl, hcall, rfl⟩
      · cases hx
    · cases hx
  | _ => cases hx

/-- `Match` of a known order has reached the engine. -/
lemma known_reached (h : (instances ι config).Reaches es s) :
    ∀ x ∈ knownOrders config es, ∃ (c : ℕ) (call : PlaceOrderCall),
      (s.managers x.1).calls[c]? = some call ∧ call.order = x.2 ∧ call.stage.reached = true := by
  refine h.invariant (P := fun es s => ∀ x ∈ knownOrders config es, ∃ (c : ℕ)
    (call : PlaceOrderCall), (s.managers x.1).calls[c]? = some call ∧ call.order = x.2 ∧
      call.stage.reached = true) (by simp [knownOrders]) ?_
  intro es s e s' hrun ih _ hstep x hx
  rw [knownOrders_concat hrun] at hx
  rcases List.mem_append.1 hx with hx | hx
  · obtain ⟨c, call, hc, horder, hreached⟩ := ih x hx
    rcases manager_step (instances_step hstep) x.1 with heq | ⟨e', he', -⟩
    · rw [heq]
      exact ⟨c, call, hc, horder, hreached⟩
    · obtain ⟨call', hc', horder', hreached'⟩ := OrderManagerService.call_step he' hc
      exact ⟨c, call', hc', horder'.trans horder, hreached' hreached⟩
  · obtain ⟨c, host, call, rfl, hc, horder⟩ := mem_knownOrder hx
    cases instances_step hstep with
    | @submit _ _ _ _ success _ _ hcall hmanager _ =>
      cases OrderManagerService.step_spec hmanager with
      | matchEngine _ hi _ =>
        obtain rfl : call = _ := Option.some.inj (hc.symm.trans hi)
        refine ⟨c, { call with stage := .matched success }, ?_, horder, rfl⟩
        simp only [Function.update_self, OrderManagerService.setStage_calls]
        exact List.getElem?_set_self (List.getElem?_eq_some_iff.1 hi).1

/-- One instance does not use an id twice. -/
lemma known_distinct (h : (instances ι config).Reaches es s) :
    (knownOrders config es).Pairwise fun x y => x.1 = y.1 → x.2.orderId ≠ y.2.orderId := by
  refine h.invariant (P := fun es _ => (knownOrders config es).Pairwise fun x y =>
    x.1 = y.1 → x.2.orderId ≠ y.2.orderId) .nil ?_
  intro es s e s' hrun ih _ hstep
  rw [knownOrders_concat hrun]
  refine List.pairwise_append.2 ⟨ih, ?_, fun x hx y hy hxy hid => ?_⟩
  · cases e with
    | submit i c host =>
      simp only [knownOrder]
      split
      · split_ifs
        · exact List.pairwise_singleton _ _
        · exact .nil
      · exact .nil
    | _ => exact .nil
  · obtain ⟨c, host, call, rfl, hc, horder⟩ := mem_knownOrder hy
    obtain ⟨c', call', hc', horder', hreached⟩ := known_reached hrun x hx
    rw [hxy] at hc'
    obtain rfl : c' = c := by
      refine (callsOk_of_run hrun y.1).inj hc' hc ?_
      rw [horder', horder, hid]
    obtain rfl : call' = call := Option.some.inj (hc'.symm.trans hc)
    -- its `Match` has not reached the engine before
    cases instances_step hstep with
    | submit hcall hmanager _ =>
      cases OrderManagerService.step_spec hmanager with
      | matchEngine success hi hstage =>
        obtain rfl := Option.some.inj (hi.symm.trans hc)
        rw [hstage] at hreached
        cases hreached

/-- The cluster runs with the orders that are known after the run. -/
lemma cluster_accepts (h : (instances ι config).Reaches es s) {K : Set ℤ}
    (hK : ∀ x ∈ knownOrders config es, x.2.orderId ∈ K) :
    ∃ es', (system ι config).machine.Run (AcceptIn K) es' s.cluster := by
  revert hK
  refine h.invariant (P := fun es s => (∀ x ∈ knownOrders config es, x.2.orderId ∈ K) →
    ∃ es', (system ι config).machine.Run (AcceptIn K) es' s.cluster) (fun _ => ⟨[], .start⟩) ?_
  intro es s e s' hrun ih _ hstep hK
  rw [knownOrders_concat hrun] at hK
  obtain ⟨es', hes'⟩ := ih fun x hx => hK x (List.mem_append_left _ hx)
  cases instances_step hstep with
  | manager _ _ => exact ⟨es', hes'⟩
  | @submit i c host call success manager cluster hcall _ hcluster =>
    have haccept : AcceptIn K s.cluster (.act host (.match call.matchEngineOrder)) := by
      intro o ho
      have hid := (callsOk_of_run hrun i).ids c call hcall
      have hknown : (i, call.order) ∈ knownOrder s (.submit i c host) := by
        simp [knownOrder, hcall, ho]
      rw [match_order ho]
      show call.matchEngineOrder.orderId ∈ K
      rw [hid.2, ← hid.1]
      exact hK _ (List.mem_append_right _ hknown)
    exact ⟨_, hes'.step haccept hcluster⟩
  | @receive i host trade manager cluster _ _ hcluster =>
    have haccept : AcceptIn K s.cluster (.act host (.read i)) := trivial
    exact ⟨_, hes'.step haccept hcluster⟩
  | @cluster e cluster he hcluster =>
    refine ⟨_, hes'.step ?_ hcluster⟩
    cases e with
    | act host x => cases x <;> trivial
    | _ => trivial

/-! ### Fresh ids -/

/-- At most one instance hands out ids. -/
lemma single_of_freshId (h : (instances ι config).Run FreshId es s) :
    ∀ i j, i ≠ j → (s.managers i).counter = 0 ∨ (s.managers j).counter = 0 := by
  refine h.invariant (P := fun _ s => ∀ i j, i ≠ j →
    (s.managers i).counter = 0 ∨ (s.managers j).counter = 0) (fun _ _ _ => Or.inl rfl) ?_
  intro es s e s' hrun ih hfresh hstep
  have hok := callsOk_of_run hrun.reaches
  have hnonneg : ∀ i, 0 ≤ (s.managers i).counter := fun i => by
    rw [(hok i).counter]
    exact Int.natCast_nonneg _
  -- a counter moves only with `BuildOrder`, when the others are at zero
  have hmove : ∀ i, (s'.managers i).counter = (s.managers i).counter ∨
      ∀ j, j ≠ i → (s.managers j).counter = 0 ∧ s'.managers j = s.managers j := by
    intro i
    rcases manager_step (instances_step hstep) i with heq | ⟨e', he', hplace⟩
    · exact Or.inl (by rw [heq])
    · generalize hm : s'.managers i = m at he'
      cases OrderManagerService.step_spec he' with
      | placeOrder now request =>
        obtain rfl := hplace now request rfl
        refine Or.inr fun j hj => ⟨?_, ?_⟩
        · have hle : (s.managers j).counter ≤ (s.managers i).counter := hfresh j hj
          rcases ih j i hj with hzero | hzero
          · exact hzero
          · have := hnonneg j
            omega
        · cases instances_step hstep with
          | manager _ _ => exact Function.update_of_ne hj _ _
      | _ => exact Or.inl rfl
  intro i j hij
  rcases hmove i with hi | hi
  · rcases hmove j with hj | hj
    · rw [hi, hj]
      exact ih i j hij
    · obtain ⟨hzero, heq⟩ := hj i hij
      exact Or.inl (by rw [heq, hzero])
  · obtain ⟨hzero, heq⟩ := hi j hij.symm
    exact Or.inr (by rw [heq, hzero])

/-- An id is fresh when no other instance has an order with it. -/
lemma freshId_iff (h : (instances ι config).Reaches es s) (i : ι) (now : ℤ)
    (request : OrderManagerProto.Order) : FreshId s (.manager i (.placeOrder now request)) ↔
      ∀ j, j ≠ i → ∀ call ∈ (s.managers j).calls,
        call.order.orderId ≠ (buildOrder now (s.managers i).counter request).2.1.orderId := by
  have hok := callsOk_of_run h
  show (∀ j, j ≠ i → (s.managers j).counter ≤ (s.managers i).counter) ↔
    ∀ j, j ≠ i → ∀ call ∈ (s.managers j).calls, call.order.orderId ≠ (s.managers i).counter + 1
  refine forall₂_congr fun j _ => ⟨fun hle call hcall hid => ?_, fun hne => ?_⟩
  · obtain ⟨c, hc⟩ := List.mem_iff_getElem?.1 hcall
    have hlt := (List.getElem?_eq_some_iff.1 hc).1
    have horder := ((hok j).ids c call hc).1
    have hcounter := (hok j).counter
    omega
  · by_contra hlt
    have hcounter := (hok j).counter
    have hcounter' := (hok i).counter
    have hc : (s.managers i).calls.length < (s.managers j).calls.length := by omega
    refine hne _ (List.getElem_mem hc) ?_
    rw [((hok j).ids _ _ (List.getElem?_eq_getElem hc)).1, hcounter']

/-- An instance with a call is the only one. -/
lemma eq_of_calls (h : (instances ι config).Run FreshId es s) {i j : ι} {c d : ℕ}
    {call call' : PlaceOrderCall} (hi : (s.managers i).calls[c]? = some call)
    (hj : (s.managers j).calls[d]? = some call') : i = j := by
  by_contra hne
  have hok := callsOk_of_run h.reaches
  have hpos : ∀ {i : ι} {c : ℕ} {call : PlaceOrderCall}, (s.managers i).calls[c]? = some call →
      (s.managers i).counter ≠ 0 := by
    intro i c call hc
    have hlt := (List.getElem?_eq_some_iff.1 hc).1
    rw [(hok i).counter]
    omega
  rcases single_of_freshId h i j hne with hzero | hzero
  · exact hpos hi hzero
  · exact hpos hj hzero

/-- **With fresh ids, trades are attributed to the right orders.**  As long as an instance hands
out only ids that no other instance has handed out, no two orders known to the engine share an
id, and a trade changes only entries of orders that took part in it. -/
theorem ownTrades_of_freshId (config : Config H) (es : List (InstancesEvent ι H))
    (s : InstancesState ι H config) (h : (instances ι config).Run FreshId es s) :
    DistinctIds config es ∧ OwnTrades es s := by
  have hreached := known_reached h.reaches
  have hdistinct : DistinctIds config es := by
    refine (known_distinct h.reaches).imp_of_mem fun {x y} hx hy hne => ?_
    obtain ⟨_, _, hc, -⟩ := hreached x hx
    obtain ⟨_, _, hd, -⟩ := hreached y hy
    exact hne (eq_of_calls h hc hd)
  refine ⟨hdistinct, ?_⟩
  intro i host trade s' htrade hstep id status hstatus hchange
  -- the parties of the trade are known
  obtain ⟨es', hes'⟩ := cluster_accepts h.reaches
    (K := {id | ∃ x ∈ knownOrders config es, x.2.orderId = id}) fun x hx => ⟨x, hx, rfl⟩
  obtain ⟨m, hm, rfl⟩ := Option.map_eq_some_iff.1 htrade
  obtain ⟨⟨maker, hmaker, hmakerId⟩, taker, htaker, htakerId⟩ :=
    written_in hes' host m (List.mem_of_find?_eq_some hm)
  -- the entry is that of a call, and so is the known order with its id
  obtain ⟨c, call, hc, horder, hid⟩ := entriesOk_of_run h.reaches i id status hstatus
  have hsame : ∀ x ∈ knownOrders config es, x.2.orderId = id → (i, status.order) = x := by
    rintro ⟨j, o⟩ hx hxid
    obtain ⟨d, call', hd, horder', -⟩ := hreached _ hx
    obtain rfl := eq_of_calls h hc hd
    obtain rfl : c = d := by
      refine (callsOk_of_run h.reaches i).inj hc hd ?_
      rw [hid, horder', hxid]
    obtain rfl : call = call' := Option.some.inj (hc.symm.trans hd)
    rw [← horder, horder']
  refine ⟨maker, hmaker, taker, htaker, hmakerId, htakerId, ?_⟩
  by_cases hmid : id = m.2.makerId
  · exact Or.inl (hsame maker hmaker (hmakerId.trans hmid.symm))
  by_cases htid : id = m.2.takerId
  · exact Or.inr (hsame taker htaker (htakerId.trans htid.symm))
  · refine absurd ?_ hchange
    cases instances_step hstep with
    | @receive _ _ trade' manager cluster htrade' hmanager _ =>
      obtain rfl : m.2 = trade' := Option.some.inj (htrade.symm.trans htrade')
      rw [← hstatus]
      simp only [Function.update_self]
      cases OrderManagerService.step_spec hmanager with
      | receive _ _ => exact handleMatchResult_other hmid htid

/-! ### Two instances -/

instance [Fintype ι] (s : InstancesState ι H config) (e : InstancesEvent ι H) :
    Decidable (FreshId s e) :=
  match e with
  | .manager i (.placeOrder _ _) => inferInstanceAs (Decidable (∀ j, j ≠ i → _ ≤ _))
  | .manager _ (.save _) => .isTrue trivial
  | .manager _ (.persistUnsubmitted _) => .isTrue trivial
  | .manager _ (.matchEngine _ _) => .isTrue trivial
  | .manager _ (.persistResult _) => .isTrue trivial
  | .manager _ (.receive _) => .isTrue trivial
  | .manager _ .persistTrade => .isTrue trivial
  | .submit _ _ _ => .isTrue trivial
  | .receive _ _ => .isTrue trivial
  | .cluster _ => .isTrue trivial

/-- The node starts, with one symbol, and both instances subscribe. -/
def instancesStart : List (InstancesEvent Bool Unit) :=
  [.cluster (.act () .boot), .cluster (.act () .mainStep), .cluster (.act () .mainStep),
    .cluster (.act () .serve), .cluster (.act () (.subscribe false)),
    .cluster (.act () (.subscribe true))]

/-- The `c`-th call of an instance, up to `Match`. -/
def placeAt (i : Bool) (c : ℕ) (side : OrderManagerProto.TradingSide) (amount : I32) :
    List (InstancesEvent Bool Unit) :=
  [.manager i (.placeOrder 0 ⟨.ofInt 7, .ofInt 2, side, amount, .ofInt 100⟩),
    .manager i (.save c), .manager i (.persistUnsubmitted c)]

/-- A sell order of 5 and a buy order of 3 of the first instance, and their trade.  The router
handles four messages and the match actor three. -/
def firstTrades : List (InstancesEvent Bool Unit) :=
  instancesStart ++ placeAt false 0 .tradingSell (.ofInt 5) ++ [.submit false 0 ()] ++
    placeAt false 1 .tradingBuy (.ofInt 3) ++ [.submit false 1 ()] ++
    List.replicate 4 (.cluster (.handle (.router ()) 0)) ++
    List.replicate 3 (.cluster (.handle (.matchActor () 0) 0)) ++
    [.cluster (.handle (.matchResultDealActor ()) 0)]

theorem ownTrades_of_firstTrades :
    ∃ s, (instances Bool (singleNode [7])).Run FreshId firstTrades s ∧
      DistinctIds (singleNode [7]) firstTrades ∧ OwnTrades firstTrades s := by
  have hrun : (instances Bool (singleNode [7])).admits FreshId firstTrades := by decide
  obtain ⟨s, hs⟩ := Machine.exists_run _ hrun
  exact ⟨s, hs, ownTrades_of_freshId (singleNode [7]) firstTrades s hs⟩

/-- The second instance places two orders as well, and `Match` of the second of them does not
reach the engine yet. -/
def secondPlaces : List (InstancesEvent Bool Unit) :=
  firstTrades ++ placeAt true 0 .tradingSell (.ofInt 9) ++ [.submit true 0 ()] ++
    placeAt true 1 .tradingBuy (.ofInt 9)

/-- Two orders with the id 1 are known to the engine, and the trade of the first instance adds
to the concluded amount of an order of the second one that is not. -/
theorem not_ownTrades_of_secondPlaces :
    ∃ s, (instances Bool (singleNode [7])).Reaches secondPlaces s ∧
      ¬ DistinctIds (singleNode [7]) secondPlaces ∧ ¬ OwnTrades secondPlaces s := by
  have hrun : (instances Bool (singleNode [7])).admits (fun _ _ => True) secondPlaces := by decide
  obtain ⟨s, hs⟩ := Machine.exists_run _ hrun
  refine ⟨s, hs, by unfold DistinctIds; decide, fun hown => ?_⟩
  -- the table of the second instance before and after the trade is read
  have hbefore : ((instances Bool (singleNode [7])).runFrom (fun _ _ => True)
      (instances Bool (singleNode [7])).init secondPlaces).map (fun s =>
        (s.nextTrade true (), (s.managers true).orderIdToOrderStatus 2)) =
      some (some ⟨1, 2, .tradingBuy, 3, 100, 2, 2, 7, 0⟩,
        some ⟨⟨2, 7, 2, 100, 9, .buy, 0⟩, 0⟩) := by decide
  have hafter : ((instances Bool (singleNode [7])).runFrom (fun _ _ => True)
      (instances Bool (singleNode [7])).init (secondPlaces ++ [.receive true ()])).map (fun s =>
        (s.managers true).orderIdToOrderStatus 2) =
      some (some ⟨⟨2, 7, 2, 100, 9, .buy, 0⟩, 3⟩) := by decide
  rw [hs.runFrom, Option.map_some, Option.some.injEq, Prod.mk.injEq] at hbefore
  rw [Machine.runFrom_concat, hs.runFrom, Option.bind_some, if_pos trivial] at hafter
  obtain ⟨s', hs', hstatus⟩ := Option.map_eq_some_iff.1 hafter
  obtain ⟨maker, hmaker, taker, htaker, -, -, hparty⟩ := hown true () _ s' hbefore.1 hs' 2 _
    hbefore.2 (by rw [hstatus]; decide)
  have hunknown : (true, (⟨2, 7, 2, 100, 9, .buy, 0⟩ : OrderManager.Order)) ∉
      knownOrders (singleNode [7]) secondPlaces := by decide
  rcases hparty with rfl | rfl
  · exact hunknown hmaker
  · exact hunknown htaker

end TradingEngine.System
