/-
Clients that place one order after the other.

The stub of the order manager takes the nodes of its request channels in turn, and `Match`
returns before the order has reached its match actor.  The orders that a client places through
one node are handled by every match actor in the order in which they were placed
(`handled_through_node`).  So it is for all orders of the client when all request stubs point at
one node (`handled_as_placed`); with two nodes a later order can arrive first.
-/
import TradingEngine.OrderManager.MatchEngineStub
import TradingEngine.OrderManager.OrderManager
import TradingEngine.System.Path

namespace TradingEngine.System

open Lib MatchEngine MatchEngine.Cluster Matching OrderManager

/-! ### Placements, one after the other for each client -/

/-- An order manager and its clients before a cluster.  The open call of a client has an order,
and the node of its stub from `GetNextRequestStub` on. -/
structure PlacementState (C H κ : Type) [DecidableEq H] [DecidableEq κ] (config : Config H) where
  cluster : ClusterState H κ config
  /-- `order_id_` of the order manager. -/
  counter : ℤ := 0
  /-- `request_stub_index_` of its stub. -/
  requestStubIndex : ℕ := 0
  calls : C → Option (MatchEngineProto.Order × Option H) := fun _ => none

/-- A step of the open call of a client, or of the cluster. -/
inductive PlacementEvent (C H κ : Type)
  /-- A call of `PlaceOrder` begins with `BuildOrder`. -/
  | placeOrder (client : C) (now : ℤ) (request : OrderManagerProto.Order)
  | getNextRequestStub (client : C)
  /-- `Match` is answered by the node, and the call returns. -/
  | match (client : C)
  | cluster (e : ClusterEvent H κ)

variable {C H κ : Type} [DecidableEq C] [DecidableEq H] [DecidableEq κ] {config : Config H}

/-- An order comes in. -/
def IsMatch : ClusterEvent H κ → Bool
  | .act _ (.match _) => true
  | _ => false

/-- Only `Match` brings in orders. -/
lemma accepted_of_isMatch {n : H} {s : ClusterState H κ config} {e : ClusterEvent H κ}
    (h : IsMatch e = false) : acceptedOrder n s e = [] := by
  cases e with
  | act host x => cases x <;> first | rfl | cases h
  | _ => rfl

/-- What happens in the cluster, if there is something. -/
def clusterEvent (s : PlacementState C H κ config) :
    PlacementEvent C H κ → Option (ClusterEvent H κ)
  | .match client =>
    match s.calls client with
    | some (order, some stub) =>
      if (s.cluster.nodes stub).serving then some (.act stub (.match order)) else none
    | _ => none
  | .cluster e => some e
  | .placeOrder _ _ _ => none
  | .getNextRequestStub _ => none

/-- What happens in the order manager. -/
def PlacementState.advance (requestStubs : List H) (s : PlacementState C H κ config) :
    PlacementEvent C H κ → Option (PlacementState C H κ config)
  | .placeOrder client now request =>
    match s.calls client with
    | none =>
      let (counter, _, order) := buildOrder now s.counter request
      some { s with
        counter := counter
        calls := Function.update s.calls client (some (order, none)) }
    | some _ => none
  | .getNextRequestStub client =>
    match s.calls client with
    | some (order, none) =>
      match getNextRequestStub requestStubs s.requestStubIndex with
      | some (stub, index) =>
        some { s with
          requestStubIndex := index
          calls := Function.update s.calls client (some (order, some stub)) }
      -- without stubs `Match` does nothing
      | none => some { s with calls := Function.update s.calls client none }
    | _ => none
  | .match client =>
    match s.calls client with
    | some (_, some _) => some { s with calls := Function.update s.calls client none }
    | _ => none
  | .cluster e => if IsMatch e then none else some s

/-- A step of the order manager, with what it does in the cluster. -/
def PlacementState.step (requestStubs : List H) (s : PlacementState C H κ config)
    (e : PlacementEvent C H κ) : Option (PlacementState C H κ config) :=
  (s.advance requestStubs e).bind fun s' =>
    match clusterEvent s e with
    | some e' =>
      ((system κ config).step s.cluster e').map fun cluster => { s' with cluster := cluster }
    | none => some s'

/-- The order manager before a cluster that has not started. -/
def placement (C κ : Type) [DecidableEq C] [DecidableEq κ] (config : Config H)
    (requestStubs : List H) : Machine (PlacementState C H κ config) (PlacementEvent C H κ) where
  init := { cluster := (system κ config).start }
  step := PlacementState.step requestStubs

/-- The order of a placement, with its client. -/
def placedOrder (s : PlacementState C H κ config) :
    PlacementEvent C H κ → List (C × MatchEngineProto.Order)
  | .placeOrder client now request => [(client, (buildOrder now s.counter request).2.2)]
  | _ => []

/-- The order that a stub submits, with its client. -/
def submittedOrder (s : PlacementState C H κ config) :
    PlacementEvent C H κ → List (C × MatchEngineProto.Order)
  | .match client => (s.calls client).toList.map fun call => (client, call.1)
  | _ => []

/-- The order that a stub submits, with its node and its client. -/
def stubOrder (s : PlacementState C H κ config) :
    PlacementEvent C H κ → List (H × C × MatchEngineProto.Order)
  | .match client =>
    match s.calls client with
    | some (order, some stub) => [(stub, client, order)]
    | _ => []
  | _ => []

variable (κ config) in
/-- The orders that are placed, with their clients. -/
def placedOrders (requestStubs : List H) (es : List (PlacementEvent C H κ)) :
    List (C × MatchEngineProto.Order) :=
  (placement C κ config requestStubs).trace placedOrder es

variable (κ config) in
/-- The orders that are submitted, with their clients. -/
def submittedOrders (requestStubs : List H) (es : List (PlacementEvent C H κ)) :
    List (C × MatchEngineProto.Order) :=
  (placement C κ config requestStubs).trace submittedOrder es

variable (κ config) in
/-- The orders that are submitted, with their nodes and clients. -/
def stubOrders (requestStubs : List H) (es : List (PlacementEvent C H κ)) :
    List (H × C × MatchEngineProto.Order) :=
  (placement C κ config requestStubs).trace stubOrder es

variable (κ config) in
/-- The orders that are submitted through the stubs of the node `n`, with their clients. -/
def submittedThrough (n : H) (requestStubs : List H) (es : List (PlacementEvent C H κ)) :
    List (C × MatchEngineProto.Order) :=
  ((stubOrders κ config requestStubs es).filter fun q => q.1 = n).map Prod.snd

variable (κ config) in
/-- The run of the cluster inside. -/
def clusterEvents (requestStubs : List H) (es : List (PlacementEvent C H κ)) :
    List (ClusterEvent H κ) :=
  (placement C κ config requestStubs).trace (fun s e => (clusterEvent s e).toList) es

/-- The orders of one client. -/
def ofClient (client : C) (orders : List (C × MatchEngineProto.Order)) :
    List MatchEngineProto.Order :=
  (orders.filter fun p => p.1 = client).map Prod.snd

/-- The orders `placed` are handled as they were placed: their ids increase, a match actor
handles them in this order, and of those that rest at one price the one placed earlier trades
first. -/
structure HandledAsPlaced (placed : List MatchEngineProto.Order) (handlings : List (Handling H)) :
    Prop where
  increasing : placed.Pairwise fun o o' => o.orderId < o'.orderId
  sublist : ((handlings.map fun g => (g.order.orderId, g.order.submitTime)).filter fun x =>
      x.1 ∈ placed.map MatchEngineProto.Order.orderId).Sublist
    (placed.map fun o => (o.orderId, o.submitTime))
  priority : ∀ g ∈ handlings, EarlierFirst (placed.map MatchEngineProto.Order.orderId)
    (g.book.queue g.order.tradingSide.opposite) (matchActorOrder g.now g.book g.order).2

/-! ### Submitted orders -/

section Lists

variable {l l' : List (C × MatchEngineProto.Order)}

lemma filter_eq_ofClient (client : C) (l : List (C × MatchEngineProto.Order)) :
    (l.filter fun p => p.1 = client) = (ofClient client l).map fun o => (client, o) := by
  rw [ofClient, List.map_map]
  refine (List.map_id _).symm.trans (List.map_congr_left ?_)
  rintro ⟨client', o⟩ hp
  obtain rfl : client' = client := by simpa using (List.mem_filter.1 hp).2
  rfl

lemma ofClient_append (client : C) (l l' : List (C × MatchEngineProto.Order)) :
    ofClient client (l ++ l') = ofClient client l ++ ofClient client l' := by
  rw [ofClient, List.filter_append, List.map_append]
  rfl

/-- A list that is a part of another one client by client. -/
lemma subperm_of_ofClient (h : ∀ client, (ofClient client l).Sublist (ofClient client l')) :
    l.Subperm l' := by
  have h : ∀ client, (l.filter fun p => p.1 = client).Sublist
      (l'.filter fun p => p.1 = client) := by
    intro client
    rw [filter_eq_ofClient, filter_eq_ofClient]
    exact (h client).map _
  refine List.subperm_ext_iff.2 fun p _ => ?_
  calc
    l.count p = (l.filter fun q => q.1 = p.1).count p := (List.count_filter (by simp)).symm
    _ ≤ (l'.filter fun q => q.1 = p.1).count p := (h p.1).count_le p
    _ = l'.count p := List.count_filter (by simp)

end Lists

variable {requestStubs : List H} {es : List (PlacementEvent C H κ)}
  {s s' : PlacementState C H κ config}

/-- What happens in the order manager, case by case. -/
inductive Advance (requestStubs : List H) (s : PlacementState C H κ config) :
    PlacementEvent C H κ → PlacementState C H κ config → Prop
  | placeOrder {client : C} (now : ℤ) (request : OrderManagerProto.Order)
      (h : s.calls client = none) : Advance requestStubs s (.placeOrder client now request) { s with
        counter := s.counter + 1
        calls := Function.update s.calls client
          (some ((buildOrder now s.counter request).2.2, none)) }
  | getNextRequestStub {client : C} {order : MatchEngineProto.Order} {stub : H} {index : ℕ}
      (h : s.calls client = some (order, none)) (hstub : stub ∈ requestStubs) :
      Advance requestStubs s (.getNextRequestStub client) { s with
        requestStubIndex := index
        calls := Function.update s.calls client (some (order, some stub)) }
  | noStub {client : C} {order : MatchEngineProto.Order} (h : s.calls client = some (order, none)) :
      Advance requestStubs s (.getNextRequestStub client)
        { s with calls := Function.update s.calls client none }
  | match {client : C} {order : MatchEngineProto.Order} {stub : H}
      (h : s.calls client = some (order, some stub)) :
      Advance requestStubs s (.match client)
        { s with calls := Function.update s.calls client none }
  | cluster {e : ClusterEvent H κ} (h : IsMatch e = false) : Advance requestStubs s (.cluster e) s

lemma advance_spec {e : PlacementEvent C H κ} (h : s.advance requestStubs e = some s') :
    Advance requestStubs s e s' := by
  cases e with
  | placeOrder client now request =>
    simp only [PlacementState.advance] at h
    split at h
    · rename_i hcall
      obtain rfl := Option.some.inj h
      exact .placeOrder now request hcall
    · cases h
  | getNextRequestStub client =>
    simp only [PlacementState.advance] at h
    split at h
    · rename_i order hcall
      split at h
      · rename_i stub index hnext
        obtain rfl := Option.some.inj h
        exact .getNextRequestStub hcall (mem_of_getNextRequestStub hnext)
      · obtain rfl := Option.some.inj h
        exact .noStub hcall
    · cases h
  | «match» client =>
    simp only [PlacementState.advance] at h
    split at h
    · rename_i order stub hcall
      obtain rfl := Option.some.inj h
      exact .match hcall
    · cases h
  | cluster e =>
    simp only [PlacementState.advance] at h
    split_ifs at h with hmatch
    obtain rfl := Option.some.inj h
    exact .cluster (by simpa using hmatch)

/-- **A step** is one of the order manager, and one of the cluster if there is one. -/
lemma placement_step {e : PlacementEvent C H κ}
    (h : (placement C κ config requestStubs).step s e = some s') :
    ∃ s₁, Advance requestStubs s e s₁ ∧ s'.counter = s₁.counter ∧ s'.calls = s₁.calls ∧
      ((clusterEvent s e = none ∧ s'.cluster = s.cluster) ∨
        ∃ e', clusterEvent s e = some e' ∧
          (system κ config).step s.cluster e' = some s'.cluster) := by
  obtain ⟨s₁, hadvance, hs'⟩ := Option.bind_eq_some_iff.1 h
  have hspec := advance_spec hadvance
  refine ⟨s₁, hspec, ?_⟩
  split at hs'
  · rename_i e' he'
    obtain ⟨cluster, hcluster, rfl⟩ := Option.map_eq_some_iff.1 hs'
    exact ⟨rfl, rfl, Or.inr ⟨e', he', hcluster⟩⟩
  · rename_i hnone
    obtain rfl := Option.some.inj hs'
    refine ⟨rfl, rfl, Or.inl ⟨hnone, ?_⟩⟩
    cases hspec <;> rfl

/-- What a step adds to the submitted orders of a client was its open call, and what it adds to
the placed ones is its open call now. -/
lemma advance_client {e : PlacementEvent C H κ} (h : Advance requestStubs s e s') (client : C) :
    (ofClient client (submittedOrder s e) ++ (s'.calls client).toList.map Prod.fst).Sublist
      ((s.calls client).toList.map Prod.fst ++ ofClient client (placedOrder s e)) := by
  cases h with
  | @placeOrder client' now request hnone =>
    by_cases hc : client = client'
    · subst hc
      simp [ofClient, submittedOrder, placedOrder, hnone]
    · simp [ofClient, submittedOrder, placedOrder, Function.update_of_ne hc]
  | @getNextRequestStub client' order stub index hcall hstub =>
    by_cases hc : client = client'
    · subst hc
      simp [ofClient, submittedOrder, placedOrder, hcall]
    · simp [ofClient, submittedOrder, placedOrder, Function.update_of_ne hc]
  | @noStub client' order hcall =>
    by_cases hc : client = client'
    · subst hc
      simp [ofClient, submittedOrder, placedOrder]
    · simp [ofClient, submittedOrder, placedOrder, Function.update_of_ne hc]
  | @«match» client' order stub hcall =>
    by_cases hc : client = client'
    · subst hc
      simp [ofClient, submittedOrder, placedOrder, hcall]
    · simp [ofClient, submittedOrder, placedOrder, hcall, Function.update_of_ne hc, Ne.symm hc]
  | cluster hmatch => simp [ofClient, submittedOrder, placedOrder]

/-- The orders of a client that are submitted, and the one of its open call, are among those
placed. -/
lemma submitted_sublist (h : (placement C κ config requestStubs).Reaches es s) (client : C) :
    (ofClient client (submittedOrders κ config requestStubs es) ++
      (s.calls client).toList.map Prod.fst).Sublist
        (ofClient client (placedOrders κ config requestStubs es)) := by
  refine h.invariant (P := fun es s => (ofClient client (submittedOrders κ config requestStubs es)
    ++ (s.calls client).toList.map Prod.fst).Sublist
      (ofClient client (placedOrders κ config requestStubs es))) (List.nil_sublist _) ?_
  intro es s e s' hrun ih _ hstep
  obtain ⟨s₁, hadvance, -, hcalls, -⟩ := placement_step hstep
  have hone := advance_client hadvance client
  rw [← hcalls] at hone
  have hplaced : placedOrders κ config requestStubs (es ++ [e]) =
      placedOrders κ config requestStubs es ++ placedOrder s e := hrun.trace_concat _ e
  have hsubmitted : submittedOrders κ config requestStubs (es ++ [e]) =
      submittedOrders κ config requestStubs es ++ submittedOrder s e := hrun.trace_concat _ e
  rw [hplaced, hsubmitted, ofClient_append, ofClient_append, List.append_assoc]
  refine ((List.Sublist.refl _).append hone).trans ?_
  rw [← List.append_assoc]
  exact ih.append (List.Sublist.refl _)

lemma submitted_part (h : (placement C κ config requestStubs).Reaches es s) (client : C) :
    (ofClient client (submittedOrders κ config requestStubs es)).Sublist
      (ofClient client (placedOrders κ config requestStubs es)) :=
  (List.sublist_append_left _ _).trans (submitted_sublist h client)

/-- The orders are placed with increasing ids. -/
lemma placed_increasing (h : (placement C κ config requestStubs).Reaches es s) :
    (placedOrders κ config requestStubs es).Pairwise (fun p p' => p.2.orderId < p'.2.orderId) ∧
      ∀ p ∈ placedOrders κ config requestStubs es, p.2.orderId ≤ s.counter := by
  refine h.invariant (P := fun es s => (placedOrders κ config requestStubs es).Pairwise
    (fun p p' => p.2.orderId < p'.2.orderId) ∧
      ∀ p ∈ placedOrders κ config requestStubs es, p.2.orderId ≤ s.counter)
    ⟨.nil, by simp [placedOrders]⟩ ?_
  rintro es s e s' hrun ⟨hpairwise, hle⟩ - hstep
  obtain ⟨s₁, hadvance, hcounter, -⟩ := placement_step hstep
  rw [placedOrders, hrun.trace_concat, hcounter]
  show List.Pairwise _ (placedOrders κ config requestStubs es ++ _) ∧
    ∀ p ∈ placedOrders κ config requestStubs es ++ _, _
  cases hadvance with
  | @placeOrder client now request hnone =>
    refine ⟨List.pairwise_append.2 ⟨hpairwise, by simp [placedOrder], fun p hp p' hp' => ?_⟩,
      fun p hp => ?_⟩
    · rw [List.mem_singleton.1 hp']
      have := hle p hp
      show p.2.orderId < s.counter + 1
      omega
    · rcases List.mem_append.1 hp with hp | hp
      · exact (hle p hp).trans (by simp)
      · rw [List.mem_singleton.1 hp]
        exact le_refl (s.counter + 1)
  | _ => simpa [placedOrder] using ⟨hpairwise, fun a b hab => hle (a, b) hab⟩

lemma ofClient_increasing (h : (placement C κ config requestStubs).Reaches es s) (client : C) :
    (ofClient client (placedOrders κ config requestStubs es)).Pairwise
      fun o o' => o.orderId < o'.orderId :=
  List.pairwise_map.2 ((placed_increasing h).1.filter _)

/-- The ids tell the orders of a client from those of others. -/
lemma mem_ids_iff (h : (placement C κ config requestStubs).Reaches es s) (client : C)
    {p : C × MatchEngineProto.Order} (hp : p ∈ submittedOrders κ config requestStubs es) :
    p.2.orderId ∈ (ofClient client (placedOrders κ config requestStubs es)).map
      MatchEngineProto.Order.orderId ↔ p.1 = client := by
  have hplaced : p ∈ placedOrders κ config requestStubs es :=
    (subperm_of_ofClient fun client => submitted_part h client).subset hp
  have hincreasing := (placed_increasing h).1
  constructor
  · intro hid
    obtain ⟨o, ho, hid⟩ := List.mem_map.1 hid
    obtain ⟨q, hq, rfl⟩ := List.mem_map.1 ho
    obtain ⟨hq, hclient⟩ := List.mem_filter.1 hq
    have hnodup : ((placedOrders κ config requestStubs es).map fun p => p.2.orderId).Nodup :=
      List.pairwise_map.2 (hincreasing.imp fun hlt => hlt.ne)
    obtain rfl : q = p := List.inj_on_of_nodup_map hnodup hq hplaced hid
    simpa using hclient
  · intro hclient
    exact List.mem_map_of_mem (List.mem_map_of_mem
      (List.mem_filter.2 ⟨hplaced, by simpa using hclient⟩))

/-! ### The nodes -/

section Nodes

/-- The open calls keep to the stubs that there are, and so does what is submitted. -/
lemma stubs_of_advance {e : PlacementEvent C H κ} (h : Advance requestStubs s e s')
    (hcalls : ∀ client order stub, s.calls client = some (order, some stub) →
      stub ∈ requestStubs) :
    (∀ client order stub, s'.calls client = some (order, some stub) → stub ∈ requestStubs) ∧
      ∀ q ∈ stubOrder s e, q.1 ∈ requestStubs := by
  -- the call of one client changes
  have hupdate : ∀ (client' : C) (call : Option (MatchEngineProto.Order × Option H)),
      (∀ order stub, call = some (order, some stub) → stub ∈ requestStubs) →
      ∀ client order stub, Function.update s.calls client' call client = some (order, some stub) →
        stub ∈ requestStubs := by
    intro client' call hcall client order stub heq
    by_cases hc : client = client'
    · subst hc
      rw [Function.update_self] at heq
      exact hcall order stub heq
    · rw [Function.update_of_ne hc] at heq
      exact hcalls client order stub heq
  cases h with
  | placeOrder now request hnone => exact ⟨hupdate _ _ (by simp), by simp [stubOrder]⟩
  | getNextRequestStub hcall hstub =>
    refine ⟨hupdate _ _ fun order stub heq => ?_, by simp [stubOrder]⟩
    obtain ⟨-, hstub'⟩ := Prod.mk.inj (Option.some.inj heq)
    rw [← Option.some.inj hstub']
    exact hstub
  | noStub hcall => exact ⟨hupdate _ _ (by simp), by simp [stubOrder]⟩
  | @«match» client order stub hcall =>
    refine ⟨hupdate _ _ (by simp), fun q hq => ?_⟩
    rw [stubOrder, hcall] at hq
    rw [List.mem_singleton.1 hq]
    exact hcalls client order stub hcall
  | cluster hmatch => exact ⟨hcalls, by simp [stubOrder]⟩

/-- The open calls and the submitted orders have the stubs that there are. -/
lemma stubs_of_run (h : (placement C κ config requestStubs).Reaches es s) :
    (∀ client order stub, s.calls client = some (order, some stub) → stub ∈ requestStubs) ∧
      ∀ q ∈ stubOrders κ config requestStubs es, q.1 ∈ requestStubs := by
  refine h.invariant (P := fun es s =>
    (∀ client order stub, s.calls client = some (order, some stub) → stub ∈ requestStubs) ∧
      ∀ q ∈ stubOrders κ config requestStubs es, q.1 ∈ requestStubs)
    ⟨(fun _ _ _ hcall => by cases hcall), (fun _ hq => by cases hq)⟩ ?_
  rintro es s e s' hrun ⟨hcalls, hstubs⟩ - hstep
  obtain ⟨s₁, hadvance, -, hcalls', -⟩ := placement_step hstep
  obtain ⟨hnew, hstubOrder⟩ := stubs_of_advance hadvance hcalls
  have hstubOrders : stubOrders κ config requestStubs (es ++ [e]) =
      stubOrders κ config requestStubs es ++ stubOrder s e := hrun.trace_concat _ e
  rw [hcalls', hstubOrders]
  exact ⟨hnew, fun q hq => (List.mem_append.1 hq).elim (hstubs q) (hstubOrder q)⟩

/-- The submitted orders, without their nodes. -/
lemma stubOrders_map (h : (placement C κ config requestStubs).Reaches es s) :
    (stubOrders κ config requestStubs es).map Prod.snd =
      submittedOrders κ config requestStubs es := by
  rw [stubOrders, ← h.trace_map]
  refine h.possible.trace_congr fun es s e hrun ⟨s', hstep⟩ => ?_
  obtain ⟨s₁, hadvance, -⟩ := placement_step hstep
  cases hadvance with
  | «match» hcall => simp [stubOrder, submittedOrder, hcall]
  | _ => rfl

/-- The cluster inside, with what is observed there. -/
lemma cluster_run (h : (placement C κ config requestStubs).Reaches es s) :
    (system κ config).machine.Reaches (clusterEvents κ config requestStubs es) s.cluster ∧
      ∀ {ω : Type} (observe : ClusterState H κ config → ClusterEvent H κ → List ω),
        (system κ config).machine.trace observe (clusterEvents κ config requestStubs es) =
          (placement C κ config requestStubs).trace
            (fun s e => (clusterEvent s e).toList.flatMap (observe s.cluster)) es := by
  refine h.inside PlacementState.cluster clusterEvent rfl fun es s e s' hrun _ hstep => ?_
  obtain ⟨s₁, -, -, -, hnone | ⟨e', he', hstep'⟩⟩ := placement_step hstep
  · exact Or.inl hnone
  · exact Or.inr ⟨e', he', trivial, hstep'⟩

/-- What identifies an order, and its time. -/
def stamp (o : RawOrder) : ℤ × ℤ := (o.orderId, o.submitTime)

/-- What identifies an order of a client, and its time. -/
def stampOf (o : MatchEngineProto.Order) : ℤ × ℤ := (o.orderId, o.submitTime)

/-- An order that comes in at a node is submitted through a stub of this node. -/
lemma accepted_of_advance {e : PlacementEvent C H κ} (h : Advance requestStubs s e s') (n : H) :
    (((clusterEvent s e).toList.flatMap (acceptedOrder n s.cluster)).map stamp).Sublist
      (((stubOrder s e).filter fun q => q.1 = n).map fun q => stampOf q.2.2) := by
  cases h with
  | @«match» client order stub hcall =>
    simp only [clusterEvent, stubOrder, hcall]
    split_ifs with hserving
    · simp only [Option.toList_some, List.flatMap_singleton, acceptedOrder]
      split_ifs with hstub
      · rw [List.filter_cons_of_pos (by simpa using hstub.1), List.filter_nil]
        cases ho : ((s.cluster.nodes stub).grpc.match order).2.2 with
        | none => exact List.nil_sublist _
        | some o =>
          have hstamp : stamp o = stampOf order := by
            rw [match_order ho]
            rfl
          simp [hstamp]
      · exact List.nil_sublist _
    · exact List.nil_sublist _
  | cluster hmatch => simp [clusterEvent, accepted_of_isMatch hmatch]
  | _ => exact List.nil_sublist _

/-- The orders that come in at a node are among those that are submitted through its stubs. -/
lemma accepted_submitted (h : (placement C κ config requestStubs).Reaches es s) (n : H) :
    (((system κ config).machine.trace (acceptedOrder n)
      (clusterEvents κ config requestStubs es)).map stamp).Sublist
        ((submittedThrough κ config n requestStubs es).map fun p => stampOf p.2) := by
  rw [(cluster_run h).2, submittedThrough, stubOrders, ← h.trace_filter, List.map_map,
    ← h.trace_map, ← h.trace_map]
  refine h.possible.trace_sublist fun es s e hrun ⟨s', hstep⟩ => ?_
  obtain ⟨s₁, hadvance, -⟩ := placement_step hstep
  exact accepted_of_advance hadvance n

/-- No two submitted orders have the same id. -/
lemma stubOrders_nodup (h : (placement C κ config requestStubs).Reaches es s) :
    ((stubOrders κ config requestStubs es).map fun q => q.2.2.orderId).Nodup := by
  have hnodup : ((submittedOrders κ config requestStubs es).map fun p => p.2.orderId).Nodup := by
    obtain ⟨l, hperm, hl⟩ := subperm_of_ofClient (submitted_part h)
    refine (hperm.map _).nodup_iff.1 (List.Sublist.nodup (hl.map _) ?_)
    exact List.pairwise_map.2 ((placed_increasing h).1.imp fun hlt => hlt.ne)
  rw [← stubOrders_map h, List.map_map] at hnodup
  exact hnodup

/-- Orders with one id are submitted through one node. -/
lemma stubOrder_eq (h : (placement C κ config requestStubs).Reaches es s)
    {q q' : H × C × MatchEngineProto.Order} (hq : q ∈ stubOrders κ config requestStubs es)
    (hq' : q' ∈ stubOrders κ config requestStubs es)
    (hid : q.2.2.orderId = q'.2.2.orderId) : q = q' :=
  List.inj_on_of_nodup_map (stubOrders_nodup h) hq hq' hid

/-- The orders of a client that are submitted through a node are in the order in which they were
placed. -/
lemma submittedThrough_part (h : (placement C κ config requestStubs).Reaches es s) (client : C)
    (n : H) : (ofClient client (submittedThrough κ config n requestStubs es)).Sublist
      (ofClient client (placedOrders κ config requestStubs es)) := by
  refine List.Sublist.trans ?_ (submitted_part h client)
  rw [ofClient, ofClient, submittedThrough, ← stubOrders_map h]
  exact ((List.filter_sublist.map _).filter _).map _

/-- The order that comes in at a node is submitted through a stub of this node. -/
lemma stubOrder_of_accepted (h : (placement C κ config requestStubs).Reaches es s) {n : H}
    {o : RawOrder} (ho : o ∈ (system κ config).machine.trace (acceptedOrder n)
      (clusterEvents κ config requestStubs es)) :
    ∃ q ∈ stubOrders κ config requestStubs es, q.1 = n ∧ q.2.2.orderId = o.orderId := by
  obtain ⟨p, hp, heq⟩ := List.mem_map.1 ((accepted_submitted h n).subset (List.mem_map_of_mem ho))
  obtain ⟨q, hq, rfl⟩ := List.mem_map.1 hp
  obtain ⟨hq, hn⟩ := List.mem_filter.1 hq
  exact ⟨q, hq, by simpa using hn, congrArg Prod.fst heq⟩

/-- No two orders that come in at a node have the same id. -/
lemma accepted_nodup (h : (placement C κ config requestStubs).Reaches es s) (n : H) :
    (((system κ config).machine.trace (acceptedOrder n)
      (clusterEvents κ config requestStubs es)).map RawOrder.orderId).Nodup := by
  have hsublist := (accepted_submitted h n).map Prod.fst
  rw [List.map_map, List.map_map, submittedThrough, List.map_map] at hsublist
  exact ((stubOrders_nodup h).sublist (List.filter_sublist.map _)).sublist hsublist

/-- Orders with one id come in at one node. -/
lemma exists_node (h : (placement C κ config requestStubs).Reaches es s) (host : H) (i : ℤ) :
    ∃ n, ∀ m, m ≠ n → ∀ o ∈ (system κ config).machine.trace (acceptedOrder m)
      (clusterEvents κ config requestStubs es), ¬ o.orderId = i := by
  by_cases hi : ∃ q ∈ stubOrders κ config requestStubs es, q.2.2.orderId = i
  · obtain ⟨q, hq, hid⟩ := hi
    refine ⟨q.1, fun m hm o ho heq => ?_⟩
    obtain ⟨q', hq', rfl, hid'⟩ := stubOrder_of_accepted h ho
    exact hm (congrArg Prod.fst (stubOrder_eq h hq' hq (by rw [hid', heq, hid])))
  · refine ⟨host, fun m hm o ho heq => hi ?_⟩
    obtain ⟨q, hq, -, hid⟩ := stubOrder_of_accepted h ho
    exact ⟨q, hq, hid.trans heq⟩

/-- A match actor handles no two orders with the same id. -/
lemma handled_nodup (h : (placement C κ config requestStubs).Reaches es s) (host : H) (k : ℕ) :
    ((handledOrders config κ host k (clusterEvents κ config requestStubs es)).map
      RawOrder.orderId).Nodup := by
  refine List.nodup_iff_count_le_one.2 fun i => ?_
  obtain ⟨n, hn⟩ := exists_node h host i
  have hone := (handled_filter (cluster_run h).1 (fun o => o.orderId = i) hn host k).map
    RawOrder.orderId
  calc
    _ = (((handledOrders config κ host k (clusterEvents κ config requestStubs es)).map
        RawOrder.orderId).filter fun j => j = i).count i := (List.count_filter (by simp)).symm
    _ ≤ (((system κ config).machine.trace (acceptedOrder n)
        (clusterEvents κ config requestStubs es)).map RawOrder.orderId).count i := by
      rw [List.filter_map]
      exact hone.count_le i
    _ ≤ 1 := List.nodup_iff_count_le_one.1 (accepted_nodup h n) i

/-- Orders `placed` of a client are handled as they were placed, when of all that is submitted
they have the ids of what the client submits through one node. -/
lemma handledAsPlaced_of_ids (h : (placement C κ config requestStubs).Reaches es s) {client : C}
    {n : H} {placed : List MatchEngineProto.Order}
    (hplaced : placed.Sublist (ofClient client (placedOrders κ config requestStubs es)))
    (hsubmitted : (ofClient client (submittedThrough κ config n requestStubs es)).Sublist placed)
    (hids : ∀ q ∈ stubOrders κ config requestStubs es,
      q.2.2.orderId ∈ placed.map MatchEngineProto.Order.orderId ↔ q.1 = n ∧ q.2.1 = client)
    (host : H) (k : ℕ) :
    HandledAsPlaced placed
      (handlings config κ host k (clusterEvents κ config requestStubs es)) := by
  have hrun := (cluster_run h).1
  have hincreasing := (ofClient_increasing h client).sublist hplaced
  set ids := placed.map MatchEngineProto.Order.orderId with hidsEq
  -- what is handled was submitted through `n`, in this order
  have hhandled := handled_filter hrun (fun o => o.orderId ∈ ids) (n := n)
    (fun m hm o ho hid => by
      obtain ⟨q, hq, rfl, hqid⟩ := stubOrder_of_accepted h ho
      exact hm ((hids q hq).1 (hqid ▸ hid)).1) host k
  have hfilter : (((submittedThrough κ config n requestStubs es).map fun p => stampOf p.2).filter
      fun x => x.1 ∈ ids) =
        (ofClient client (submittedThrough κ config n requestStubs es)).map stampOf := by
    rw [ofClient, List.map_map, List.filter_map]
    congr 1
    refine List.filter_congr fun p hp => ?_
    obtain ⟨q, hq, rfl⟩ := List.mem_map.1 hp
    obtain ⟨hq, hn⟩ := List.mem_filter.1 hq
    exact decide_eq_decide.2 ((hids q hq).trans (and_iff_right (by simpa using hn)))
  have hstamps : (((handledOrders config κ host k
      (clusterEvents κ config requestStubs es)).map stamp).filter fun x => x.1 ∈ ids).Sublist
        (placed.map stampOf) := by
    refine List.Sublist.trans ?_ (hsubmitted.map stampOf)
    rw [← hfilter]
    have hagain := ((hhandled.map stamp).trans (accepted_submitted h n)).filter
      fun x => decide (x.1 ∈ ids)
    rw [List.filter_map, List.filter_filter] at hagain
    rw [List.filter_map]
    rwa [List.filter_congr fun o _ => (Bool.and_self _).symm]
  refine ⟨hincreasing, ?_, earlierFirst_of_inOrder hrun host k ?_⟩
  · rw [handledOrders, List.map_map] at hstamps
    exact hstamps
  · have hpairwise : (placed.map stampOf).Pairwise fun x y => x.1 < y.1 :=
      List.pairwise_map.2 hincreasing
    have hlt := List.pairwise_map.1 (List.pairwise_filter.1 (hpairwise.sublist hstamps))
    refine ((List.pairwise_map.1 (handled_nodup h host k)).and hlt).imp fun {o o'} ho => ?_
    exact ⟨ho.1, fun hid hid' => ho.2 (decide_eq_true hid) (decide_eq_true hid')⟩

/-- **The orders that a client places through one node are handled as they were placed**, whatever
the other stubs are. -/
theorem handled_through_node (config : Config H) (requestStubs : List H) (n : H)
    (es : List (PlacementEvent C H κ)) (s : PlacementState C H κ config)
    (h : (placement C κ config requestStubs).Reaches es s) (client : C) (host : H) (k : ℕ) :
    HandledAsPlaced (ofClient client (submittedThrough κ config n requestStubs es))
      (handlings config κ host k (clusterEvents κ config requestStubs es)) := by
  refine handledAsPlaced_of_ids h (submittedThrough_part h client n) (List.Sublist.refl _)
    (fun q hq => ⟨fun hid => ?_, fun hq' => ?_⟩) host k
  · obtain ⟨o, ho, hid⟩ := List.mem_map.1 hid
    obtain ⟨p, hp, rfl⟩ := List.mem_map.1 ho
    obtain ⟨hp, hclient⟩ := List.mem_filter.1 hp
    obtain ⟨q', hq', rfl⟩ := List.mem_map.1 hp
    obtain ⟨hq', hn⟩ := List.mem_filter.1 hq'
    obtain rfl := stubOrder_eq h hq' hq hid
    exact ⟨by simpa using hn, by simpa using hclient⟩
  · exact List.mem_map_of_mem (List.mem_map_of_mem (List.mem_filter.2
      ⟨List.mem_map_of_mem (List.mem_filter.2 ⟨hq, by simpa using hq'.1⟩), by simpa using hq'.2⟩))

/-- **With one node behind all request stubs the orders of a client are handled as they were
placed.** -/
theorem handled_as_placed (config : Config H) (requestStubs : List H) (n : H)
    (hstubs : ∀ stub ∈ requestStubs, stub = n) (es : List (PlacementEvent C H κ))
    (s : PlacementState C H κ config)
    (h : (placement C κ config requestStubs).Reaches es s) (client : C) (host : H) (k : ℕ) :
    HandledAsPlaced (ofClient client (placedOrders κ config requestStubs es))
      (handlings config κ host k (clusterEvents κ config requestStubs es)) := by
  refine handledAsPlaced_of_ids (n := n) h (List.Sublist.refl _)
    (submittedThrough_part h client n) (fun q hq => ?_) host k
  have hnode : q.1 = n := hstubs q.1 ((stubs_of_run h).2 q hq)
  have hsubmitted : q.2 ∈ submittedOrders κ config requestStubs es := by
    rw [← stubOrders_map h]
    exact List.mem_map_of_mem hq
  exact (mem_ids_iff h client hsubmitted).trans (and_iff_right hnode).symm

end Nodes

/-! ### Two nodes -/

/-- An order of symbol 7 at price 100. -/
def requestOf (side : OrderManagerProto.TradingSide) (amount : I32) : OrderManagerProto.Order :=
  ⟨.ofInt 7, .ofInt 10, side, amount, .ofInt 100⟩

/-- A call of `PlaceOrder`, from its beginning to its end. -/
def placeOrder (now : ℤ) (request : OrderManagerProto.Order) :
    List (PlacementEvent Unit Bool Unit) :=
  [.placeOrder () now request, .getNextRequestStub (), .match ()]

/-- The second node passes an order on to the match actor. -/
def passOn : List (PlacementEvent Unit Bool Unit) :=
  [.cluster (.handle (.router true) 0), .cluster (.arrive (.router true) (.matchActor false 0)),
    .cluster (.handle (.matchActor false 0) 0)]

/-- The orders of one symbol. -/
def OneSymbol (symbol : ℤ) (_ : PlacementState C H κ config) : PlacementEvent C H κ → Prop
  | .placeOrder _ _ request => request.symbol.val = symbol
  | _ => True

instance (symbol : ℤ) (s : PlacementState C H κ config) (e : PlacementEvent C H κ) :
    Decidable (OneSymbol symbol s e) :=
  match e with
  | .placeOrder _ _ request => inferInstanceAs (Decidable (request.symbol.val = symbol))
  | .getNextRequestStub _ => .isTrue trivial
  | .match _ => .isTrue trivial
  | .cluster _ => .isTrue trivial

/-- Two sellers and a buyer, by the second node. -/
theorem handled_of_oneStub :
    let es := twoNodesStart.map .cluster ++ placeOrder 1 (requestOf .tradingSell (.ofInt 3)) ++
      placeOrder 2 (requestOf .tradingSell (.ofInt 3)) ++ passOn ++ passOn ++
      placeOrder 3 (requestOf .tradingBuy (.ofInt 3)) ++ passOn
    (∃ s, (placement Unit Unit twoNodes [true]).Reaches es s) ∧
      (handledOrders twoNodes Unit false 0 (clusterEvents Unit twoNodes [true] es)).map
        RawOrder.orderId = [1, 2, 3] ∧
      HandledAsPlaced (ofClient () (placedOrders Unit twoNodes [true] es))
        (handlings twoNodes Unit false 0 (clusterEvents Unit twoNodes [true] es)) := by
  have hrun : (placement Unit Unit twoNodes [true]).admits (fun _ _ => True)
      (twoNodesStart.map .cluster ++ placeOrder 1 (requestOf .tradingSell (.ofInt 3)) ++
        placeOrder 2 (requestOf .tradingSell (.ofInt 3)) ++ passOn ++ passOn ++
        placeOrder 3 (requestOf .tradingBuy (.ofInt 3)) ++ passOn) := by decide
  obtain ⟨s, hs⟩ := Machine.exists_run _ hrun
  exact ⟨⟨s, hs⟩, by decide, handled_as_placed twoNodes [true] true (by decide) _ s hs () false 0⟩

/-- With two nodes the second order can arrive first; the third one then trades with it. -/
theorem not_handledAsPlaced_of_twoStubs :
    ∃ (es : List (PlacementEvent Unit Bool Unit)) (s : PlacementState Unit Bool Unit twoNodes),
      (placement Unit Unit twoNodes [true, false]).Run (OneSymbol 7) es s ∧
      (placedOrders Unit twoNodes [true, false] es).map (fun p => p.2.orderId) = [1, 2, 3] ∧
      (handledOrders twoNodes Unit false 0 (clusterEvents Unit twoNodes [true, false] es)).map
        RawOrder.orderId = [2, 1, 3] ∧
      ¬ ∀ g ∈ handlings twoNodes Unit false 0 (clusterEvents Unit twoNodes [true, false] es),
        EarlierFirst [1, 2, 3] (g.book.queue g.order.tradingSide.opposite)
          (matchActorOrder g.now g.book g.order).2 := by
  have hrun : (placement Unit Unit twoNodes [true, false]).admits (OneSymbol 7)
      (twoNodesStart.map .cluster ++ [.cluster (.act false .serve)] ++
        placeOrder 1 (requestOf .tradingSell (.ofInt 3)) ++
        placeOrder 2 (requestOf .tradingSell (.ofInt 3)) ++
        [.cluster (.handle (.router false) 0), .cluster (.handle (.matchActor false 0) 0)] ++
        passOn ++ placeOrder 3 (requestOf .tradingBuy (.ofInt 3)) ++ passOn) := by decide
  obtain ⟨s, hs⟩ := Machine.exists_run _ hrun
  refine ⟨_, s, hs, by decide, by decide, ?_⟩
  decide

end TradingEngine.System
