/-
The switch of a node.

`OpenCloseEngine` closes the service of one node: a `Match` request that arrives there while
it is closed is rejected, and the run goes on as if it had not arrived.  The actors of the node
know nothing of the switch; the routers of other nodes reach them as before.
-/
import TradingEngine.System.Steps

namespace TradingEngine.System

open Lib MatchEngine MatchEngine.Cluster MatchEngineProto

variable {H κ : Type} [DecidableEq H] [DecidableEq κ] {config : Config H}

/-! ### The commands -/

/-- The switch command that a node receives. -/
def switchAt (host : H) : ClusterEvent H κ → List EngineStatus
  | .act host' (.openCloseEngine status) => if host' = host then [status] else []
  | _ => []

/-- The switch commands that a node has received. -/
def switches (host : H) (es : List (ClusterEvent H κ)) : List EngineStatus :=
  es.flatMap (switchAt host)

/-- What a command does to the switch. -/
def afterSwitch (engineIsOpen : Bool) : EngineStatus → Bool
  | .engineClose => false
  | .engineOpen => true
  | .unrecognized _ => engineIsOpen

omit [DecidableEq κ] in
@[simp] lemma openCloseEngine_engineIsOpen (impl : MatchEngineGRPCImpl κ) (status : EngineStatus) :
    (impl.openCloseEngine status).1.engineIsOpen = afterSwitch impl.engineIsOpen status := by
  cases status <;> rfl

/-- No other thread touches the switch. -/
lemma act_engineIsOpen {nodes : H → Node H κ} {host : H} {x : MatchEngine.Action H κ}
    {node : Node H κ} {out : List (Post H)} (h : act config nodes host x = some (node, out)) :
    node.grpc.engineIsOpen =
      (switchAt host (.act host x : ClusterEvent H κ)).foldl afterSwitch
        (nodes host).grpc.engineIsOpen := by
  cases x with
  | mainStep =>
    simp only [act] at h
    split at h
    · rename_i step steps hmain
      cases step <;> obtain ⟨rfl, rfl⟩ := Prod.mk.inj (Option.some.inj h) <;> rfl
    · simp at h
  | openCloseEngine status =>
    simp only [act] at h
    split_ifs at h
    obtain ⟨rfl, rfl⟩ := Prod.mk.inj (Option.some.inj h)
    simp [switchAt]
  | addNewNode other connected =>
    simp only [act, addNewNode] at h
    split_ifs at h <;> obtain ⟨rfl, rfl⟩ := Prod.mk.inj (Option.some.inj h) <;> rfl
  | _ =>
    simp only [act] at h
    split at h <;> first
      | obtain ⟨rfl, rfl⟩ := Prod.mk.inj (Option.some.inj h)
        rfl
      | cases h

omit [DecidableEq κ] in
/-- No handler touches the switch. -/
lemma react_engineIsOpen (node : Node H κ) (now : Clock) (post : Post H) :
    (react node now post).1.grpc.engineIsOpen = node.grpc.engineIsOpen := by
  obtain ⟨src, dst, msg⟩ := post
  cases dst with
  | matchActor host k => cases hbook : node.books[k]? <;> simp [react, hbook]
  | matchResultDealActor host =>
    cases msg <;> simp [react, MatchEngineGRPCImpl.sendMatchResult]
  | cluster host => cases msg <;> simp [react]
  | _ => simp [react]

lemma engineIsOpen_step {s s' : ClusterState H κ config} {e : ClusterEvent H κ}
    (h : (system κ config).step s e = some s') (host : H) :
    (s'.nodes host).grpc.engineIsOpen =
      (switchAt host e).foldl afterSwitch (s.nodes host).grpc.engineIsOpen := by
  rcases ActorSystem.step_cases h with ⟨host', x, node, out, rfl, hx, rfl⟩ |
    ⟨a, now, post, net, rfl, htake, hdst, rfl⟩ | ⟨a, b, net, rfl, harrive, rfl⟩
  · rcases eq_or_ne host host' with rfl | hne
    · rw [ActorSystem.put_nodes_self]
      exact act_engineIsOpen hx
    · have hnone : switchAt host (.act host' x : ClusterEvent H κ) = [] := by
        cases x <;> simp [switchAt, hne.symm]
      rw [ActorSystem.put_nodes_ne _ _ _ _ hne, hnone, List.foldl_nil]
  · rcases eq_or_ne host a.host with rfl | hne
    · rw [show (system κ config).host a = a.host from rfl, ActorSystem.put_nodes_self]
      exact react_engineIsOpen _ now post
    · rw [show (system κ config).host a = a.host from rfl, ActorSystem.put_nodes_ne _ _ _ _ hne]
      rfl
  · rfl

/-- **The switch is as the commands have left it.** -/
theorem engineIsOpen_eq {es : List (ClusterEvent H κ)} {s : ClusterState H κ config}
    (h : (system κ config).machine.Reaches es s) (host : H) :
    (s.nodes host).grpc.engineIsOpen = (switches host es).foldl afterSwitch true := by
  refine h.invariant (P := fun es s =>
    (s.nodes host).grpc.engineIsOpen = (switches host es).foldl afterSwitch true) rfl ?_
  rintro es s e s' - ih - hstep
  rw [engineIsOpen_step hstep, ih, switches, switches, List.flatMap_append, List.foldl_append,
    List.flatMap_singleton]

lemma engineIsOpen_of_close {es : List (ClusterEvent H κ)} {s : ClusterState H κ config}
    (h : (system κ config).machine.Reaches es s) {host : H}
    (hclosed : (switches host es).getLast? = some .engineClose) :
    (s.nodes host).grpc.engineIsOpen = false := by
  obtain ⟨before, hbefore⟩ := List.getLast?_eq_some_iff.1 hclosed
  rw [engineIsOpen_eq h, hbefore, List.foldl_append]
  rfl

/-! ### Requests to a closed node -/

omit [DecidableEq κ] in
/-- A request to a closed node is rejected. -/
lemma match_closed {impl : MatchEngineGRPCImpl κ} (h : impl.engineIsOpen = false)
    (request : MatchEngineProto.Order) :
    impl.match request = (.unavailable "Engine is close", .statusUnknown, none) :=
  if_pos h

/-- A request to a closed node changes nothing. -/
lemma step_match_closed {s s' : ClusterState H κ config} {host : H}
    (h : (s.nodes host).grpc.engineIsOpen = false) {request : MatchEngineProto.Order}
    (hstep : (system κ config).step s (.act host (.match request)) = some s') : s' = s := by
  obtain ⟨⟨node, out⟩, hact, rfl⟩ := Option.map_eq_some_iff.1 hstep
  replace hact : act config s.nodes host (.match request) = some (node, out) := hact
  simp only [act, match_closed h] at hact
  split_ifs at hact
  obtain ⟨rfl, rfl⟩ := Prod.mk.inj (Option.some.inj hact)
  exact ActorSystem.put_same s host

/-- **A closed node takes no order**: a request that arrives while the last command was to
close is rejected, and whatever happens then, every book in the cluster handles the orders that
it would have handled without the request. -/
theorem closed_node_takes_no_order (config : Config H) (es es' : List (ClusterEvent H κ))
    (host : H) (request : MatchEngineProto.Order) (s : ClusterState H κ config)
    (h : (system κ config).machine.Reaches (es ++ .act host (.match request) :: es') s)
    (hclosed : (switches host es).getLast? = some .engineClose) :
    (∀ s₀, (system κ config).machine.Reaches es s₀ → (s₀.nodes host).grpc.match request =
      (.unavailable "Engine is close", .statusUnknown, none)) ∧
    (system κ config).machine.Reaches (es ++ es') s ∧
    ∀ host' k, (system κ config).machine.trace (handling host' k)
        (es ++ .act host (.match request) :: es') =
      (system κ config).machine.trace (handling host' k) (es ++ es') := by
  have hopen : ∀ s₀, (system κ config).machine.Reaches es s₀ →
      (s₀.nodes host).grpc.engineIsOpen = false := fun s₀ h₀ => engineIsOpen_of_close h₀ hclosed
  have hskip : ∀ s₀ s₁, (system κ config).machine.Reaches es s₀ →
      (system κ config).machine.step s₀ (.act host (.match request)) = some s₁ → s₁ = s₀ :=
    fun s₀ s₁ h₀ hstep => step_match_closed (hopen s₀ h₀) hstep
  refine ⟨fun s₀ h₀ => match_closed (hopen s₀ h₀) request, h.skip hskip, fun host' k => ?_⟩
  exact h.trace_skip fun s₀ s₁ h₀ hstep => ⟨hskip s₀ s₁ h₀ hstep, rfl⟩

/-! ### Requests to other nodes -/

/-- The first node of the two serves, and is closed. -/
def firstNodeClosed : List (ClusterEvent Bool Unit) :=
  twoNodesStart ++ [.act false .serve, .act false (.openCloseEngine .engineClose)]

/-- A request that arrives at the closed node, and one that arrives at the other node. -/
theorem closed_node_of_twoNodes : ∃ s : ClusterState Bool Unit twoNodes,
    (system Unit twoNodes).machine.Reaches
      (firstNodeClosed ++ routeOrder (orderOf 2 .tradingBuy (.ofInt 5))) s ∧
    ∀ host' k, (system Unit twoNodes).machine.trace (handling host' k)
        (firstNodeClosed ++ .act false (.match (orderOf 1 .tradingBuy (.ofInt 5))) ::
          routeOrder (orderOf 2 .tradingBuy (.ofInt 5))) =
      (system Unit twoNodes).machine.trace (handling host' k)
        (firstNodeClosed ++ routeOrder (orderOf 2 .tradingBuy (.ofInt 5))) := by
  have hrun : (system Unit twoNodes).machine.admits (fun _ _ => True)
      (firstNodeClosed ++ .act false (.match (orderOf 1 .tradingBuy (.ofInt 5))) ::
        routeOrder (orderOf 2 .tradingBuy (.ofInt 5))) := by decide
  obtain ⟨s, hs⟩ := Machine.exists_run _ hrun
  exact ⟨s, (closed_node_takes_no_order twoNodes _ _ false _ s hs (by decide)).2⟩

/-- The other node routes its order to the closed node, which adds it to its book. -/
theorem closed_node_books_order : ¬ ∀ (config : Config Bool)
    (es es' : List (ClusterEvent Bool Unit)) (s : ClusterState Bool Unit config) (host : Bool)
    (k : ℕ),
    (system Unit config).machine.Reaches (es ++ es') s →
    (switches host es).getLast? = some .engineClose → switches host es' = [] →
    (∀ host' request, .act host' (.match request) ∉ es) →
    (system Unit config).machine.trace (handling host k) (es ++ es') = [] := by
  intro hall
  have hrun : (system Unit twoNodes).machine.admits (fun _ _ => True)
      (firstNodeClosed ++ routeOrder (orderOf 2 .tradingBuy (.ofInt 5))) := by decide
  obtain ⟨s, hs⟩ := Machine.exists_run _ hrun
  have hnone := hall twoNodes _ _ s false 0 hs (by decide) (by decide)
    (by simp [firstNodeClosed, twoNodesStart])
  have hone : ((system Unit twoNodes).machine.trace (handling false 0)
      (firstNodeClosed ++ routeOrder (orderOf 2 .tradingBuy (.ofInt 5)))).length = 1 := by decide
  rw [hnone] at hone
  cases hone

end TradingEngine.System
