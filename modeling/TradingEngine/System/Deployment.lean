/-
The whole way, from the orders of a load test to the trades that a subscriber reads.

The request generator shares the orders out to its threads, the threads send them to the order
managers in turn, the order managers number them and pass them on to a node of the cluster, and
the trades come back from the result actor.  The threads, the calls and the actors may take turns
in any way: the trades of each symbol are always those that its orders make one after the other
(`trades_of_loadTest`).
-/
import TradingEngine.Matching.Relabel
import TradingEngine.RequestGenerator.SendRequest
import TradingEngine.System.Delivery

namespace TradingEngine.System.Deployment

open Lib MatchEngine MatchEngine.Cluster Matching OrderManager RequestGenerator

/-! ### Load generator, order managers and cluster -/

/-- Where a call of `PlaceOrder` is. -/
inductive CallStage (H : Type)
  | built
  /-- The stub of the node is chosen. -/
  | submitting (stub : H)
  /-- `Match` has been answered. -/
  | returned
  deriving DecidableEq

/-- The call that a thread waits for, at an order manager. -/
structure OpenCall (H : Type) where
  server : ℕ
  order : MatchEngineProto.Order
  stage : CallStage H
  deriving DecidableEq

/-- A load generator, its order managers and a cluster. -/
structure State (H κ : Type) [DecidableEq H] [DecidableEq κ] (config : Config H) where
  cluster : ClusterState H κ config
  requests : Requests
  /-- `order_id_` of each order manager. -/
  counter : ℕ → ℤ := fun _ => 0
  /-- `request_stub_index_` of the stub of each order manager. -/
  requestStubIndex : ℕ → ℕ := fun _ => 0
  calls : ℕ → Option (OpenCall H) := fun _ => none

/-- A step of a thread of the generator, of its open call, or of the cluster. -/
inductive Event (H κ : Type)
  /-- The call of a thread begins at the order manager whose turn it is. -/
  | placeOrder (thread : ℕ) (now : ℤ)
  | getNextRequestStub (thread : ℕ)
  | match (thread : ℕ)
  | reply (thread : ℕ) (answer : Answer)
  | merge (thread : ℕ)
  | cluster (e : ClusterEvent H κ)

variable {H κ : Type} [DecidableEq H] [DecidableEq κ] {config : Config H}

/-- What happens in the cluster, if there is something. -/
def clusterEvent (s : State H κ config) : Event H κ → Option (ClusterEvent H κ)
  | .match thread =>
    match s.calls thread with
    | some ⟨_, order, .submitting stub⟩ =>
      if (s.cluster.nodes stub).serving then some (.act stub (.match order)) else none
    | _ => none
  | .cluster e => some e
  | _ => none

/-- What happens outside of the cluster.  `orderManagers` has the nodes of the request channels
of each order manager. -/
def State.advance (orderManagers : List (List H)) (s : State H κ config) :
    Event H κ → Option (State H κ config)
  | .placeOrder thread now =>
    match s.calls thread, s.requests.senders[thread]? with
    | none, some sender =>
      match sender.orders with
      | request :: _ =>
        let server := sender.serverIndex % orderManagers.length
        let (counter, _, order) := buildOrder now (s.counter server) request
        some { s with
          counter := Function.update s.counter server counter
          calls := Function.update s.calls thread (some ⟨server, order, .built⟩) }
      | [] => none
    | _, _ => none
  | .getNextRequestStub thread =>
    match s.calls thread with
    | some ⟨server, order, .built⟩ =>
      match getNextRequestStub (orderManagers.getD server []) (s.requestStubIndex server) with
      | some (stub, index) =>
        some { s with
          requestStubIndex := Function.update s.requestStubIndex server index
          calls := Function.update s.calls thread (some ⟨server, order, .submitting stub⟩) }
      -- without stubs `Match` does nothing
      | none =>
        some { s with calls := Function.update s.calls thread (some ⟨server, order, .returned⟩) }
    | _ => none
  | .match thread =>
    match s.calls thread with
    | some ⟨server, order, .submitting _⟩ =>
      some { s with calls := Function.update s.calls thread (some ⟨server, order, .returned⟩) }
    | _ => none
  | .reply thread answer =>
    match s.calls thread with
    | some ⟨_, _, .returned⟩ =>
      (s.requests.step orderManagers.length (.send thread answer)).map fun requests =>
        { s with requests := requests, calls := Function.update s.calls thread none }
    | _ => none
  | .merge thread =>
    (s.requests.step orderManagers.length (.merge thread)).map fun requests =>
      { s with requests := requests }
  | .cluster e => if IsMatch e then none else some s

/-- A step, with what it does in the cluster. -/
def State.step (orderManagers : List (List H)) (s : State H κ config) (e : Event H κ) :
    Option (State H κ config) :=
  (s.advance orderManagers e).bind fun s' =>
    match clusterEvent s e with
    | some e' =>
      ((system κ config).step s.cluster e').map fun cluster => { s' with cluster := cluster }
    | none => some s'

/-- The threads have these queues, and the cluster is in the state `s₀`. -/
def deployment (orderManagers : List (List H)) (s₀ : ClusterState H κ config)
    (queues : List (List OrderManagerProto.Order)) : Machine (State H κ config) (Event H κ) where
  init :=
    { cluster := s₀
      requests := (requests orderManagers.length queues).init }
  step := State.step orderManagers

/-- What can be observed of the cluster. -/
def inCluster {ω : Type} (observe : ClusterState H κ config → ClusterEvent H κ → List ω)
    (s : State H κ config) (e : Event H κ) : List ω :=
  (clusterEvent s e).toList.flatMap (observe s.cluster)

/-! ### The steps -/

section Steps

variable {orderManagers : List (List H)} {s s' : State H κ config} {e : Event H κ}

/-- What happens outside of the cluster, case by case. -/
inductive Advance (orderManagers : List (List H)) (s : State H κ config) :
    Event H κ → State H κ config → Prop
  | placeOrder {thread : ℕ} {sender : Sender} {request : OrderManagerProto.Order}
      {rest : List OrderManagerProto.Order} (now : ℤ) (hcall : s.calls thread = none)
      (hsender : s.requests.senders[thread]? = some sender)
      (horders : sender.orders = request :: rest) :
      Advance orderManagers s (.placeOrder thread now)
        { s with
          counter := Function.update s.counter (sender.serverIndex % orderManagers.length)
            (s.counter (sender.serverIndex % orderManagers.length) + 1)
          calls := Function.update s.calls thread
            (some ⟨sender.serverIndex % orderManagers.length,
              (buildOrder now (s.counter (sender.serverIndex % orderManagers.length))
                request).2.2, .built⟩) }
  | getNextRequestStub {thread server : ℕ} {order : MatchEngineProto.Order} {stub : H} {index : ℕ}
      (hcall : s.calls thread = some ⟨server, order, .built⟩)
      (hnext : getNextRequestStub (orderManagers.getD server []) (s.requestStubIndex server) =
        some (stub, index)) :
      Advance orderManagers s (.getNextRequestStub thread)
        { s with
          requestStubIndex := Function.update s.requestStubIndex server index
          calls := Function.update s.calls thread (some ⟨server, order, .submitting stub⟩) }
  | noStub {thread server : ℕ} {order : MatchEngineProto.Order}
      (hcall : s.calls thread = some ⟨server, order, .built⟩)
      (hnext : getNextRequestStub (orderManagers.getD server []) (s.requestStubIndex server) =
        none) :
      Advance orderManagers s (.getNextRequestStub thread)
        { s with calls := Function.update s.calls thread (some ⟨server, order, .returned⟩) }
  | match {thread server : ℕ} {order : MatchEngineProto.Order} {stub : H}
      (hcall : s.calls thread = some ⟨server, order, .submitting stub⟩) :
      Advance orderManagers s (.match thread)
        { s with calls := Function.update s.calls thread (some ⟨server, order, .returned⟩) }
  | reply {thread server : ℕ} {order : MatchEngineProto.Order} {sender sender' : Sender}
      {request : OrderManagerProto.Order} {rest : List OrderManagerProto.Order} (answer : Answer)
      (hcall : s.calls thread = some ⟨server, order, .returned⟩)
      (hsender : s.requests.senders[thread]? = some sender)
      (horders : sender.orders = request :: rest) (hrest : sender'.orders = rest) :
      Advance orderManagers s (.reply thread answer)
        { s with
          requests := { s.requests with senders := s.requests.senders.set thread sender' }
          calls := Function.update s.calls thread none }
  | merge {thread : ℕ} {sender : Sender} {requestsCount : ℕ} {totals : List ℕ}
      (hsender : s.requests.senders[thread]? = some sender) (horders : sender.orders = []) :
      Advance orderManagers s (.merge thread)
        { s with requests := ⟨s.requests.senders.set thread { sender with merged := true },
            requestsCount, totals⟩ }
  | cluster {e : ClusterEvent H κ} (h : IsMatch e = false) :
      Advance orderManagers s (.cluster e) s

lemma advance_spec (h : s.advance orderManagers e = some s') : Advance orderManagers s e s' := by
  cases e with
  | placeOrder thread now =>
    simp only [State.advance] at h
    split at h
    · rename_i sender hcall hsender
      split at h
      · rename_i request rest horders
        obtain rfl := Option.some.inj h
        exact .placeOrder now hcall hsender horders
      · cases h
    · cases h
  | getNextRequestStub thread =>
    simp only [State.advance] at h
    split at h
    · rename_i server order hcall
      split at h
      · rename_i stub index hnext
        obtain rfl := Option.some.inj h
        exact .getNextRequestStub hcall hnext
      · rename_i hnext
        obtain rfl := Option.some.inj h
        exact .noStub hcall hnext
    · cases h
  | «match» thread =>
    simp only [State.advance] at h
    split at h
    · rename_i server order stub hcall
      obtain rfl := Option.some.inj h
      exact .match hcall
    · cases h
  | reply thread answer =>
    simp only [State.advance] at h
    split at h
    · rename_i server order hcall
      obtain ⟨requests, hsend, rfl⟩ := Option.map_eq_some_iff.1 h
      have hsteps := Requests.steps_of_step hsend
      generalize hevent : SendEvent.send thread answer = event at hsteps
      generalize sentAt orderManagers.length s.requests event = xs at hsteps
      cases hsteps with
      | @send thread' sender sender' request rest answer' hsender horders hsent =>
        cases hevent
        refine .reply answer hcall hsender horders ?_
        rw [Sender.send, horders] at hsent
        rw [← Option.some.inj hsent]
      | merge => cases hevent
    · cases h
  | merge thread =>
    obtain ⟨requests, hmerge, rfl⟩ := Option.map_eq_some_iff.1 h
    have hsteps := Requests.steps_of_step hmerge
    generalize hevent : SendEvent.merge thread = event at hsteps
    generalize sentAt orderManagers.length s.requests event = xs at hsteps
    cases hsteps with
    | @merge thread' sender totals hsender horders hmerged htotals =>
      cases hevent
      exact .merge hsender horders
    | send => cases hevent
  | cluster e =>
    simp only [State.advance] at h
    split_ifs at h with hmatch
    obtain rfl := Option.some.inj h
    exact .cluster (by simpa using hmatch)

/-- **A step** is one outside of the cluster, and one of the cluster if there is one. -/
lemma deployment_step (h : s.step orderManagers e = some s') :
    ∃ s₁, Advance orderManagers s e s₁ ∧ s' = { s₁ with cluster := s'.cluster } ∧
      ((clusterEvent s e = none ∧ s'.cluster = s.cluster) ∨
        ∃ e', clusterEvent s e = some e' ∧
          (system κ config).step s.cluster e' = some s'.cluster) := by
  obtain ⟨s₁, hadvance, hs'⟩ := Option.bind_eq_some_iff.1 h
  have hspec := advance_spec hadvance
  refine ⟨s₁, hspec, ?_⟩
  split at hs'
  · rename_i e' he'
    obtain ⟨cluster, hcluster, rfl⟩ := Option.map_eq_some_iff.1 hs'
    exact ⟨rfl, Or.inr ⟨e', he', hcluster⟩⟩
  · rename_i hnone
    obtain rfl := Option.some.inj hs'
    refine ⟨rfl, Or.inl ⟨hnone, ?_⟩⟩
    cases hspec <;> rfl

end Steps

/-! ### The calls -/

/-- The orders that a thread has not had answered yet. -/
def queueOf (s : State H κ config) (thread : ℕ) : List OrderManagerProto.Order :=
  ((s.requests.senders[thread]?).map Sender.orders).getD []

/-- The request that a call passes on to the cluster. -/
def submitted (s : State H κ config) : Event H κ → List (ℕ × OrderManagerProto.Order)
  | .match thread => (queueOf s thread).head?.toList.map fun request => (thread, request)
  | _ => []

/-- The orders that a thread has not passed on to the cluster yet. -/
def left (s : State H κ config) (thread : ℕ) : List OrderManagerProto.Order :=
  match s.calls thread with
  | some ⟨_, _, .returned⟩ => (queueOf s thread).tail
  | _ => queueOf s thread

/-- An open call is for the next order of its thread, and at a node of its order manager. -/
structure CallOk (orderManagers : List (List H)) (s : State H κ config) (thread : ℕ)
    (call : OpenCall H) : Prop where
  server : call.server < orderManagers.length
  stub : ∀ stub, call.stage = .submitting stub → stub ∈ orderManagers.getD call.server []
  request : ∃ request rest now counter, queueOf s thread = request :: rest ∧
    call.order = (buildOrder now counter request).2.2

/-- What holds of the open calls and of the turns of the stubs. -/
structure CallsOk (orderManagers : List (List H)) (s : State H κ config) : Prop where
  calls : ∀ thread call, s.calls thread = some call → CallOk orderManagers s thread call
  index : ∀ server < orderManagers.length,
    s.requestStubIndex server ≤ (orderManagers.getD server []).length

section Calls

variable {orderManagers : List (List H)} {s s' : State H κ config} {e : Event H κ} {thread : ℕ}

lemma queueOf_of_sender {sender : Sender} (h : s.requests.senders[thread]? = some sender) :
    queueOf s thread = sender.orders := by
  rw [queueOf, h]
  rfl

/-- A thread's own sender changes, and no other. -/
lemma queueOf_of_set {sender sender' : Sender} (h : s.requests.senders[thread]? = some sender)
    (hs' : s'.requests.senders = s.requests.senders.set thread sender') (thread' : ℕ) :
    queueOf s' thread' = if thread' = thread then sender'.orders else queueOf s thread' := by
  have hlt := (List.getElem?_eq_some_iff.1 h).1
  rw [queueOf, hs', List.getElem?_set]
  by_cases heq : thread = thread'
  · subst heq
    rw [if_pos rfl, if_pos hlt, if_pos rfl]
    rfl
  · rw [if_neg heq, if_neg (Ne.symm heq), queueOf]

/-- A call that is not the one of the thread that changes is as before. -/
lemma CallOk.of_queueOf {call : OpenCall H} (h : CallOk orderManagers s thread call)
    (hqueue : queueOf s' thread = queueOf s thread) : CallOk orderManagers s' thread call := by
  refine ⟨h.server, h.stub, ?_⟩
  rw [hqueue]
  exact h.request

/-- The call of one thread is replaced. -/
lemma CallsOk.update (h : CallsOk orderManagers s) {call : Option (OpenCall H)}
    (hcalls : s'.calls = Function.update s.calls thread call)
    (hindex : ∀ server < orderManagers.length,
      s'.requestStubIndex server ≤ (orderManagers.getD server []).length)
    (hqueue : ∀ thread', thread' ≠ thread → queueOf s' thread' = queueOf s thread')
    (hcall : ∀ call', call = some call' → CallOk orderManagers s' thread call') :
    CallsOk orderManagers s' := by
  refine ⟨fun thread' call' hcall' => ?_, hindex⟩
  rw [hcalls] at hcall'
  by_cases heq : thread' = thread
  · subst heq
    rw [Function.update_self] at hcall'
    exact hcall call' hcall'
  · rw [Function.update_of_ne heq] at hcall'
    exact (h.calls thread' call' hcall').of_queueOf (hqueue thread' heq)

/-- **The calls stay in order.** -/
lemma CallsOk.advance (horderManagers : orderManagers ≠ []) (h : CallsOk orderManagers s)
    (hadvance : Advance orderManagers s e s') : CallsOk orderManagers s' := by
  cases hadvance with
  | @placeOrder thread sender request rest now hcall hsender horders =>
    have hlength : 0 < orderManagers.length := List.length_pos_iff.2 horderManagers
    refine h.update rfl h.index (fun _ _ => rfl) fun call' heq => ?_
    rw [← Option.some.inj heq]
    refine ⟨Nat.mod_lt _ hlength, fun stub hstage => (by cases hstage), request, rest, now, _, ?_,
      rfl⟩
    exact (queueOf_of_sender hsender).trans horders
  | @getNextRequestStub thread server order stub index hcall hnext =>
    have hold := h.calls thread _ hcall
    have hne : orderManagers.getD server [] ≠ [] := by
      intro hnil
      rw [hnil] at hnext
      exact absurd (mem_of_getNextRequestStub hnext) List.not_mem_nil
    obtain ⟨stub', index', hnext', hstub, hle⟩ :=
      getNextRequestStub_spec hne (h.index server hold.server)
    obtain ⟨rfl, rfl⟩ := Prod.mk.inj (Option.some.inj (hnext.symm.trans hnext'))
    refine h.update rfl (fun server' hserver' => ?_) (fun _ _ => rfl) fun call' heq => ?_
    · change Function.update s.requestStubIndex server index server' ≤ _
      by_cases heq : server' = server
      · subst heq
        rw [Function.update_self]
        exact hle
      · rw [Function.update_of_ne heq]
        exact h.index server' hserver'
    · rw [← Option.some.inj heq]
      refine ⟨hold.server, fun stub' hstage => ?_, hold.request⟩
      cases hstage
      exact hstub
  | @noStub thread server order hcall hnext =>
    have hold := h.calls thread _ hcall
    refine h.update rfl h.index (fun _ _ => rfl) fun call' heq => ?_
    rw [← Option.some.inj heq]
    exact ⟨hold.server, fun stub hstage => (by cases hstage), hold.request⟩
  | @«match» thread server order stub hcall =>
    have hold := h.calls thread _ hcall
    refine h.update rfl h.index (fun _ _ => rfl) fun call' heq => ?_
    rw [← Option.some.inj heq]
    exact ⟨hold.server, fun stub hstage => (by cases hstage), hold.request⟩
  | @reply thread server order sender sender' request rest answer hcall hsender horders hrest =>
    refine h.update rfl h.index (fun thread' hne => ?_) (by simp)
    rw [queueOf_of_set hsender rfl, if_neg hne]
  | @merge thread sender requestsCount totals hsender horders =>
    refine ⟨fun thread' call' hcall' => (h.calls thread' call' hcall').of_queueOf ?_, h.index⟩
    rw [queueOf_of_set hsender rfl]
    split_ifs with heq
    · rw [heq, queueOf_of_sender hsender]
    · rfl
  | cluster hmatch => exact h

/-- What happens in the cluster is nothing to the calls. -/
lemma CallsOk.of_cluster (h : CallsOk orderManagers s) (cluster : ClusterState H κ config) :
    CallsOk orderManagers { s with cluster := cluster } :=
  ⟨fun thread call hcall => (h.calls thread call hcall).of_queueOf rfl, h.index⟩

lemma callsOk_of_run (horderManagers : orderManagers ≠ []) {s₀ : ClusterState H κ config}
    {queues : List (List OrderManagerProto.Order)} {G : State H κ config → Event H κ → Prop}
    {es : List (Event H κ)} (h : (deployment orderManagers s₀ queues).Run G es s) :
    CallsOk orderManagers s := by
  refine h.invariant (P := fun _ s => CallsOk orderManagers s)
    ⟨fun thread call hcall => (by cases hcall), fun server _ => Nat.zero_le _⟩ ?_
  intro es s e s' _ ih _ hstep
  obtain ⟨s₁, hadvance, hs', -⟩ := deployment_step hstep
  rw [hs']
  exact (ih.advance horderManagers hadvance).of_cluster _

end Calls

/-! ### What the threads pass on -/

/-- What was passed on by a thread. -/
def ofThread (thread : ℕ) (xs : List (ℕ × OrderManagerProto.Order)) :
    List OrderManagerProto.Order :=
  (xs.filter fun x => x.1 = thread).map Prod.snd

/-- Each order manager has request channels, all to the node `n`. -/
def AllAt (n : H) (orderManagers : List (List H)) : Prop :=
  orderManagers ≠ [] ∧ ∀ stubs ∈ orderManagers, stubs ≠ [] ∧ ∀ stub ∈ stubs, stub = n

instance (n : H) (orderManagers : List (List H)) : Decidable (AllAt n orderManagers) :=
  inferInstanceAs (Decidable (_ ∧ _))

section Threads

variable {n : H} {orderManagers : List (List H)} {s s' : State H κ config} {e : Event H κ}

omit [DecidableEq H] in
lemma AllAt.stubs (h : AllAt n orderManagers) {server : ℕ}
    (hserver : server < orderManagers.length) :
    orderManagers.getD server [] ≠ [] ∧ ∀ stub ∈ orderManagers.getD server [], stub = n := by
  rw [List.getD_eq_getElem?_getD, List.getElem?_eq_getElem hserver, Option.getD_some]
  exact h.2 _ (List.getElem_mem hserver)

lemma left_of_returned {thread server : ℕ} {order : MatchEngineProto.Order}
    (h : s.calls thread = some ⟨server, order, .returned⟩) :
    left s thread = (queueOf s thread).tail := by
  simp only [left, h]

lemma left_of_ne {thread : ℕ}
    (h : ∀ server order, s.calls thread ≠ some ⟨server, order, .returned⟩) :
    left s thread = queueOf s thread := by
  unfold left
  split
  · rename_i server order hcall
    exact absurd hcall (h server order)
  · rfl

/-- What is left to a thread depends on its call and its queue. -/
lemma left_congr {thread : ℕ} (hcalls : s'.calls thread = s.calls thread)
    (hqueue : queueOf s' thread = queueOf s thread) : left s thread = left s' thread := by
  rw [left, left, hcalls, hqueue]

lemma left_of_update {thread thread' : ℕ} {call : Option (OpenCall H)}
    (hcalls : s'.calls = Function.update s.calls thread' call) (hne : thread ≠ thread')
    (hqueue : queueOf s' thread = queueOf s thread) : left s thread = left s' thread := by
  refine left_congr ?_ hqueue
  rw [hcalls, Function.update_of_ne hne]

/-- **A thread passes on its orders one after the other.** -/
lemma left_step (hall : AllAt n orderManagers) (hcallsOk : CallsOk orderManagers s)
    (h : Advance orderManagers s e s') (thread : ℕ) :
    left s thread = ofThread thread (submitted s e) ++ left s' thread := by
  cases h with
  | @placeOrder thread' sender request rest now hcall hsender horders =>
    change left s thread = left _ thread
    by_cases heq : thread = thread'
    · subst heq
      rw [left_of_ne (by simp [hcall]), left_of_ne (by simp)]
      rfl
    · exact left_of_update rfl heq rfl
  | @getNextRequestStub thread' server order stub index hcall hnext =>
    change left s thread = left _ thread
    by_cases heq : thread = thread'
    · subst heq
      rw [left_of_ne (by simp [hcall]), left_of_ne (by simp)]
      rfl
    · exact left_of_update rfl heq rfl
  | @noStub thread' server order hcall hnext =>
    -- there are stubs
    have hold := (hcallsOk.calls thread' _ hcall).server
    obtain ⟨stub, index, hnext', -⟩ :=
      getNextRequestStub_spec (hall.stubs hold).1 (hcallsOk.index server hold)
    rw [hnext] at hnext'
    cases hnext'
  | @«match» thread' server order stub hcall =>
    obtain ⟨request, rest, -, -, hqueue, -⟩ := (hcallsOk.calls thread' _ hcall).request
    have hsubmitted : submitted s (.match thread') = [(thread', request)] := by
      rw [submitted, hqueue]
      rfl
    rw [hsubmitted]
    by_cases heq : thread = thread'
    · subst heq
      rw [left_of_ne (by simp [hcall]), left_of_returned (Function.update_self ..), hqueue]
      change request :: rest = ofThread thread [(thread, request)] ++ (queueOf s thread).tail
      rw [hqueue]
      simp [ofThread]
    · have hnone : ofThread thread [(thread', request)] = [] := by
        simp [ofThread, Ne.symm heq]
      rw [hnone, List.nil_append]
      exact left_of_update rfl heq rfl
  | @reply thread' server order sender sender' request rest answer hcall hsender horders hrest =>
    change left s thread = left _ thread
    let returned : State H κ config := { s with
      requests := { s.requests with senders := s.requests.senders.set thread' sender' }
      calls := Function.update s.calls thread' none }
    have hqueue : queueOf returned thread =
        if thread = thread' then sender'.orders else queueOf s thread :=
      queueOf_of_set hsender rfl thread
    by_cases heq : thread = thread'
    · subst heq
      rw [left_of_returned hcall, left_of_ne (by simp), hqueue, if_pos rfl,
        queueOf_of_sender hsender, horders, hrest]
      rfl
    · rw [if_neg heq] at hqueue
      exact left_of_update rfl heq hqueue
  | @merge thread' sender requestsCount totals hsender horders =>
    change left s thread = left _ thread
    refine left_congr rfl ?_
    rw [queueOf_of_set hsender rfl]
    split_ifs with heq
    · rw [heq, queueOf_of_sender hsender]
    · rfl
  | cluster hmatch => rfl

/-- **Along a run** each thread passes on its queue. -/
lemma ofThread_submitted (hall : AllAt n orderManagers) {s₀ : ClusterState H κ config}
    {queues : List (List OrderManagerProto.Order)} {G : State H κ config → Event H κ → Prop}
    {es : List (Event H κ)} (h : (deployment orderManagers s₀ queues).Run G es s) (thread : ℕ) :
    queues[thread]?.getD [] =
      ofThread thread ((deployment orderManagers s₀ queues).trace submitted es) ++
        left s thread := by
  have hstep : ∀ (es : List (Event H κ)) (s : State H κ config) (e : Event H κ)
      (s' : State H κ config), (deployment orderManagers s₀ queues).Run G es s → G s e →
      (deployment orderManagers s₀ queues).step s e = some s' →
      left s thread ++ [] = ofThread thread (submitted s e) ++ left s' thread := by
    intro es s e s' hrun _ hstep
    obtain ⟨s₁, hadvance, hs', -⟩ := deployment_step hstep
    have hleft := left_step hall (callsOk_of_run hall.1 hrun) hadvance thread
    rw [List.append_nil, hleft, hs']
    rfl
  have hinput : (deployment orderManagers s₀ queues).trace
      (fun (_ : State H κ config) (_ : Event H κ) => ([] : List OrderManagerProto.Order)) es =
        [] := by
    rw [h.trace_events fun _ => []]
    exact List.flatMap_eq_nil_iff.2 fun _ _ => rfl
  have houtput : (deployment orderManagers s₀ queues).trace
      (fun s e => ofThread thread (submitted s e)) es =
        ofThread thread ((deployment orderManagers s₀ queues).trace submitted es) :=
    h.trace_hom (f := ofThread thread) rfl (fun _ _ => by simp [ofThread]) fun _ _ _ _ _ => rfl
  have hchannel := h.channel_from hstep
  rw [hinput, houtput, List.append_nil] at hchannel
  rw [← hchannel, left_of_ne (by simp [deployment]), queueOf]
  simp [deployment, requests, Option.map_map, Function.comp_def]

end Threads

/-! ### The orders in the cluster -/

section Orders

variable {n : H} {es₀ : List (ClusterEvent H κ)} {s₀ : ClusterState H κ config}
  {es : List (ClusterEvent H κ)} {s : ClusterState H κ config}

/-- What the service of `n` sends to its router are the orders that come in. -/
lemma sent_eq_accepted (h : (system κ config).machine.Run (MatchAt {n}) es s)
    (e : ClusterEvent H κ) :
    sentOrders (.cluster n) (.router n) s e = acceptedOrder n s e := by
  have hsublist := accepted_sublist h e n
  have hnone : acceptedOrder n s e = [] →
      sentOrders (.cluster n) (.router n) s e = acceptedOrder n s e := by
    intro hnone
    rw [hnone] at hsublist ⊢
    exact List.eq_nil_of_sublist_nil hsublist
  cases e with
  | act host x =>
    cases x with
    | «match» request =>
      by_cases hn : host = n ∧ (s.nodes host).serving = true
      · obtain ⟨rfl, hserving⟩ := hn
        rw [acceptedOrder, if_pos ⟨rfl, hserving⟩, sentOrders, ActorSystem.sent]
        cases ho : ((s.nodes host).grpc.match request).2.2 <;>
          simp [system, act, hserving, ho, between, ordersOf]
      · exact hnone (if_neg hn)
    | _ => exact hnone rfl
  | _ => exact hnone rfl

/-- An order goes from the service of `n` to its router, and from there to a match actor. -/
lemma path_of_received (h : (system κ config).machine.Run (MatchAt {n}) es s)
    {e : ClusterEvent H κ} {post : Post H} (hpost : post ∈ (system κ config).received s e)
    {order : RawOrder} (horder : order ∈ ordersOf post) :
    (post.src = .cluster n ∧ post.dst = .router n) ∨ ∃ host k, post.dst = .matchActor host k := by
  obtain ⟨n', hn', hpath⟩ := (pathOk_iff.1
    (path_invariant h post (ActorSystem.mem_all_of_received hpost))).2 order (mem_ordersOf.1 horder)
  obtain rfl : n' = n := hn'
  exact hpath.imp_right And.right

/-- The router of `n` handles what it receives from the service of `n`. -/
lemma routed_eq_received (h : (system κ config).machine.Run (MatchAt {n}) es s)
    (e : ClusterEvent H κ) :
    routedOrder n s e = receivedOrders (.cluster n) (.router n) s e := by
  have hpath : ∀ post ∈ (system κ config).received s e, post.dst = .router n →
      ordersOf post ≠ [] → post.src = .cluster n := by
    intro post hpost hdst hne
    obtain ⟨order, horder⟩ := List.exists_mem_of_ne_nil _ hne
    rcases path_of_received h hpost horder with ⟨hsrc, -⟩ | ⟨host, k, hactor⟩
    · exact hsrc
    · rw [hdst] at hactor
      cases hactor
  rw [routedOrder, receivedOrders]
  generalize (system κ config).received s e = posts at hpath ⊢
  induction posts with
  | nil => rfl
  | cons post posts ih =>
    have hposts := ih fun post' hpost' => hpath post' (List.mem_cons_of_mem _ hpost')
    by_cases hdst : post.dst = .router n
    · rw [List.filter_cons_of_pos (by simpa using hdst), List.flatMap_cons, hposts]
      by_cases hsrc : post.src = .cluster n
      · rw [between_cons_pos ⟨hsrc, hdst⟩, List.flatMap_cons]
      · have hnone : ordersOf post = [] := by
          by_contra hne
          exact hsrc (hpath post List.mem_cons_self hdst hne)
        rw [between_cons_neg fun hon => hsrc hon.1, hnone, List.nil_append]
    · rw [List.filter_cons_of_neg (by simpa using hdst), hposts,
        between_cons_neg fun hon => hdst hon.2]

/-- **The orders that come in are routed** in the order in which they come. -/
lemma routed_eq_accepted (h₀ : (system κ config).machine.Run (MatchAt {n}) es₀ s₀)
    (h : ((system κ config).machine.startAt s₀).Run (MatchAt {n}) es s)
    (hstart : ∀ post ∈ s₀.net.all, ordersOf post = [])
    (hend : ∀ post ∈ s.net.all, ordersOf post = []) :
    ((system κ config).machine.startAt s₀).trace (routedOrder n) es =
      ((system κ config).machine.startAt s₀).trace (acceptedOrder n) es := by
  have hpending : ∀ s : ClusterState H κ config, (∀ post ∈ s.net.all, ordersOf post = []) →
      (s.net.pending (.cluster n) (.router n)).flatMap ordersOf = [] := fun s hs =>
    List.flatMap_eq_nil_iff.2 fun post hpost => hs post (mem_between.1 hpost).1
  have hchannel := congrArg (List.flatMap ordersOf)
    (ActorSystem.channel_from h (.cluster n) (.router n))
  rw [List.flatMap_append, List.flatMap_append, hpending s₀ hstart, hpending s hend,
    List.nil_append, List.append_nil, ← h.trace_flatMap, ← h.trace_flatMap] at hchannel
  calc
    _ = ((system κ config).machine.startAt s₀).trace
        (receivedOrders (.cluster n) (.router n)) es :=
      h.trace_congr fun _ _ e hrun _ => routed_eq_received (h₀.trans hrun) e
    _ = ((system κ config).machine.startAt s₀).trace
        (sentOrders (.cluster n) (.router n)) es := hchannel.symm
    _ = _ := h.trace_congr fun _ _ e hrun _ => sent_eq_accepted (h₀.trans hrun) e

end Orders

/-! ### Undisturbed runs -/

/-- The registrations at `n` do not change, and the subscriber subscribes no second time. -/
def Calm (n m : H) (c : κ) (s : ClusterState H κ config) (e : ClusterEvent H κ) : Prop :=
  (∀ post ∈ (system κ config).received s e,
    post.dst = .router n → isRegistration post.msg = false) ∧ NoSubscription m c s e

/-- Moreover the engine takes orders when one comes in. -/
def Undisturbed (n m : H) (c : κ) (s : State H κ config) : Event H κ → Prop
  | .match _ => (s.cluster.nodes n).serving = true ∧ (s.cluster.nodes n).grpc.engineIsOpen = true
  | .cluster e => Calm n m c s.cluster e
  | _ => True

instance (n m : H) (c : κ) (s : ClusterState H κ config) (e : ClusterEvent H κ) :
    Decidable (Calm n m c s e) :=
  have : Decidable (NoSubscription m c s e) := by
    unfold NoSubscription
    split <;> infer_instance
  inferInstanceAs (Decidable ((∀ post ∈ (system κ config).received s e, _) ∧ _))

instance (n m : H) (c : κ) (s : State H κ config) (e : Event H κ) :
    Decidable (Undisturbed n m c s e) :=
  match e with
  | .match _ => inferInstanceAs (Decidable (_ ∧ _))
  | .cluster e => inferInstanceAs (Decidable (Calm n m c s.cluster e))
  | .placeOrder _ _ => .isTrue trivial
  | .getNextRequestStub _ => .isTrue trivial
  | .reply _ _ => .isTrue trivial
  | .merge _ => .isTrue trivial

/-- Without `Match` no order comes in elsewhere. -/
lemma matchAt_of_isMatch {n : H} {s : ClusterState H κ config} {e : ClusterEvent H κ}
    (h : IsMatch e = false) : MatchAt {n} s e := by
  cases e with
  | act host x =>
    cases x with
    | «match» request => cases h
    | _ => trivial
  | _ => trivial

/-- Orders come in at `n` only, so only the router of `n` handles them. -/
lemma settled_of_calm {n m : H} {c : κ} {es : List (ClusterEvent H κ)}
    {s : ClusterState H κ config} (h : (system κ config).machine.Run (MatchAt {n}) es s)
    {e : ClusterEvent H κ} (hcalm : Calm n m c s e) (symbolId : ℤ) : Settled n symbolId s e := by
  refine fun post hpost => ⟨hcalm.1 post hpost, fun order horder _ hdst => ?_⟩
  rcases path_of_received h hpost horder with ⟨-, hrouter⟩ | ⟨host, k, hactor⟩
  · rw [hrouter]
    rfl
  · rw [hactor] at hdst
    cases hdst

section Inside

variable {n m : H} {c : κ} {orderManagers : List (List H)} {s₀ : ClusterState H κ config}
  {queues : List (List OrderManagerProto.Order)} {es : List (Event H κ)} {s : State H κ config}

/-- **The cluster inside**: orders come in at `n` only. -/
lemma cluster_inside (hall : AllAt n orderManagers)
    (h : (deployment orderManagers s₀ queues).Run (Undisturbed n m c) es s) :
    ((system κ config).machine.startAt s₀).Run (fun s e => MatchAt {n} s e ∧ Calm n m c s e)
        ((deployment orderManagers s₀ queues).innerEvents clusterEvent es) s.cluster ∧
      ∀ {ω : Type} (observe : ClusterState H κ config → ClusterEvent H κ → List ω),
        ((system κ config).machine.startAt s₀).trace observe
            ((deployment orderManagers s₀ queues).innerEvents clusterEvent es) =
          (deployment orderManagers s₀ queues).trace (inCluster observe) es := by
  refine h.inside State.cluster clusterEvent rfl fun es s e s' hrun hG hstep => ?_
  obtain ⟨s₁, hadvance, -, hnone | ⟨e', he', hstep'⟩⟩ := deployment_step hstep
  · exact Or.inl hnone
  · refine Or.inr ⟨e', he', ?_, hstep'⟩
    cases hadvance with
    | @«match» thread server order stub hcall =>
      simp only [clusterEvent, hcall] at he'
      split_ifs at he'
      obtain rfl := Option.some.inj he'
      -- the stub of the call is one of its order manager, and these all lead to `n`
      have hcallOk := (callsOk_of_run hall.1 hrun).calls thread _ hcall
      refine ⟨(hall.stubs hcallOk.server).2 stub (hcallOk.stub stub rfl), fun post hpost => ?_,
        trivial⟩
      cases hpost
    | @cluster e₁ hmatch =>
      obtain rfl := Option.some.inj he'
      exact ⟨matchAt_of_isMatch hmatch, hG⟩
    | _ => cases he'

end Inside

/-! ### The orders without ids and times -/

/-- The ids of orders and the times are left out. -/
def anonymous : Relabelling := ⟨fun _ => 0, id, id, fun _ => 0⟩

/-- The order that a match actor gets of a request, if it gets one. -/
def referenceOrder (request : OrderManagerProto.Order) : Option RawOrder :=
  (transformGrpcOrder (buildOrder 0 0 request).2.2).map (RawOrder.relabel anonymous)

/-- The requests of a symbol. -/
def ofSymbol (symbolId : ℤ) (orders : List OrderManagerProto.Order) :
    List OrderManagerProto.Order :=
  orders.filter fun order => order.symbol.val = symbolId

/-- Who places a request and when does not matter otherwise. -/
lemma referenceOrder_eq (now counter : ℤ) (request : OrderManagerProto.Order) :
    (transformGrpcOrder (buildOrder now counter request).2.2).map (RawOrder.relabel anonymous) =
      referenceOrder request := by
  rw [referenceOrder]
  simp only [buildOrder, transformGrpcOrder]
  split <;> rfl

lemma referenceOrder_symbolId {request : OrderManagerProto.Order} {order : RawOrder}
    (h : referenceOrder request = some order) : order.symbolId = request.symbol.val := by
  obtain ⟨order', horder', rfl⟩ := Option.map_eq_some_iff.1 h
  simp only [buildOrder, transformGrpcOrder] at horder'
  split at horder' <;> first | (rw [← Option.some.inj horder']; rfl) | cases horder'

/-- A subscriber is not told the time of a deal. -/
lemma map_grpcTrade_of_untimed {ts ts' : TradeList} (h : ts.map untimed = ts'.map untimed) :
    ts.map MatchEngineGRPCImpl.grpcTrade = ts'.map MatchEngineGRPCImpl.grpcTrade := by
  have huntimed : ∀ ts : TradeList, ts.map MatchEngineGRPCImpl.grpcTrade =
      (ts.map untimed).map MatchEngineGRPCImpl.grpcTrade := by
    intro ts
    rw [List.map_map]
    rfl
  rw [huntimed, huntimed ts', h]

/-- The orders of a symbol, out of those that the requests lead to. -/
lemma filter_referenceOrder (symbolId : ℤ) (requests : List OrderManagerProto.Order) :
    (requests.filterMap referenceOrder).filter (fun order => order.symbolId = symbolId) =
      (ofSymbol symbolId requests).filterMap referenceOrder := by
  rw [ofSymbol, List.filter_filterMap, List.filterMap_filter]
  refine List.filterMap_congr fun request _ => ?_
  cases horder : referenceOrder request with
  | none => simp
  | some order =>
    rw [Option.filter_some, referenceOrder_symbolId horder]

/-! ### The way back -/

/-- The node `n` knows an actor for every symbol of the requests, every actor knows the result
actor, and the subscriber has subscribed once. -/
structure Ready (n m : H) (c : κ) (orders : List OrderManagerProto.Order)
    (s : ClusterState H κ config) : Prop where
  known : ∀ order ∈ orders, ((s.nodes n).router.symbolActor order.symbol.val).isSome
  receivers : ∀ host, ∀ book ∈ (s.nodes host).books,
    book.matchResultActor = some (.matchResultDealActor m)
  subscribed : (s.nodes m).grpc.matchResultWriterKeepers.count c = 1

/-- No thread has an order left, and nothing is under way in the cluster. -/
structure Complete (m : H) (c : κ) (s : State H κ config) : Prop where
  senders : ∀ sender ∈ s.requests.senders, sender.orders = []
  idle : Idle m c s.cluster

instance [Fintype H] (n m : H) (c : κ) (orders : List OrderManagerProto.Order)
    (s : ClusterState H κ config) : Decidable (Ready n m c orders s) :=
  decidable_of_iff ((∀ order ∈ orders, ((s.nodes n).router.symbolActor order.symbol.val).isSome) ∧
    (∀ host, ∀ book ∈ (s.nodes host).books,
      book.matchResultActor = some (.matchResultDealActor m)) ∧
    (s.nodes m).grpc.matchResultWriterKeepers.count c = 1)
    ⟨fun h => ⟨h.1, h.2.1, h.2.2⟩, fun h => ⟨h.known, h.receivers, h.subscribed⟩⟩

instance (m : H) (c : κ) (s : State H κ config) : Decidable (Complete m c s) :=
  decidable_of_iff ((∀ sender ∈ s.requests.senders, sender.orders = []) ∧ Idle m c s.cluster)
    ⟨fun h => ⟨h.1, h.2⟩, fun h => ⟨h.senders, h.idle⟩⟩

section Reference

variable {n m : H} {c : κ} {orderManagers : List (List H)} {es₀ : List (ClusterEvent H κ)}
  {s₀ : ClusterState H κ config} {orders : List OrderManagerProto.Order}

lemma Ready.sendsTo (h : Ready n m c orders s₀) (h₀ : (system κ config).machine.Reaches es₀ s₀)
    (symbolId : ℤ) : SendsTo n m symbolId s₀ := by
  unfold SendsTo
  split
  · rename_i host k hactor
    cases hbook : bookAt s₀ host k with
    | none => exact absurd (.table hactor) ((unknown_of_bookAt h₀ host k hbook).1 n symbolId)
    | some book => exact h.receivers host book (List.mem_of_getElem? hbook)
  · trivial

/-- In a cluster that has had no orders, the actor of a symbol starts with an empty book. -/
lemma symbolTrades_eq (h₀ : (system κ config).machine.Run WithoutMatch es₀ s₀)
    (hready : Ready n m c orders s₀) {symbolId : ℤ} {numbered : List RawOrder}
    (hnumbered : numbered.map (RawOrder.relabel anonymous) =
      (ofSymbol symbolId orders).filterMap referenceOrder) :
    symbolTrades n symbolId s₀ numbered =
      (runOrders (fun _ _ => 0) ({} : OrderBook Unit) numbered).1.flatten := by
  cases hactor : (s₀.nodes n).router.symbolActor symbolId with
  | none =>
    -- then there are no requests of the symbol
    have hnone : ofSymbol symbolId orders = [] := by
      refine List.filter_eq_nil_iff.2 fun order horder hsymbol => ?_
      have hknown := hready.known order horder
      rw [of_decide_eq_true hsymbol, hactor] at hknown
      cases hknown
    rw [hnone] at hnumbered
    obtain rfl := List.map_eq_nil_iff.1 hnumbered
    rw [symbolTrades, hactor]
    rfl
  | some actor =>
    obtain ⟨host, k, rfl, -⟩ := ((isolated_of_run h₀.reaches).1 n).knows _ _ (.table hactor)
    cases hbook : bookAt s₀ host k with
    | none =>
      exact absurd (.table hactor) ((unknown_of_bookAt h₀.reaches host k hbook).1 n symbolId)
    | some book =>
      obtain ⟨hsell, hbuy⟩ := (fresh_of_run h₀).books host book (List.mem_of_getElem? hbook)
      simp only [symbolTrades, hactor, hbook]
      rw [← runOrders_receiver (none : Option Unit), hsell, hbuy]

/-- What comes in is what the threads pass on. -/
lemma accepted_anonymous (hall : AllAt n orderManagers)
    {queues : List (List OrderManagerProto.Order)} {es : List (Event H κ)} {s : State H κ config}
    (h : (deployment orderManagers s₀ queues).Run (Undisturbed n m c) es s) :
    ((deployment orderManagers s₀ queues).trace (inCluster (acceptedOrder n)) es).map
        (RawOrder.relabel anonymous) =
      (((deployment orderManagers s₀ queues).trace submitted es).map Prod.snd).filterMap
        referenceOrder := by
  rw [← h.trace_map, List.filterMap_map]
  refine h.invariant (P := fun es _ => (deployment orderManagers s₀ queues).trace
      (fun s e => (inCluster (acceptedOrder n) s e).map (RawOrder.relabel anonymous)) es =
    ((deployment orderManagers s₀ queues).trace submitted es).filterMap
      (referenceOrder ∘ Prod.snd)) rfl ?_
  intro es s e s' hrun ih hG hstep
  rw [hrun.trace_concat, hrun.trace_concat, List.filterMap_append, ih]
  refine congrArg (_ ++ ·) ?_
  obtain ⟨s₁, hadvance, -⟩ := deployment_step hstep
  cases hadvance with
  | @«match» thread server order stub hcall =>
    have hcallOk := (callsOk_of_run hall.1 hrun).calls thread _ hcall
    obtain rfl := (hall.stubs hcallOk.server).2 stub (hcallOk.stub stub rfl)
    obtain ⟨request, rest, now, counter, hqueue, horder⟩ := hcallOk.request
    obtain rfl : order = (buildOrder now counter request).2.2 := horder
    obtain ⟨hserving, hopen⟩ := hG
    have hsubmitted : submitted s (.match thread) = [(thread, request)] := by
      rw [submitted, hqueue]
      rfl
    have hgrpc : ((s.cluster.nodes stub).grpc.match (buildOrder now counter request).2.2).2.2 =
        transformGrpcOrder (buildOrder now counter request).2.2 := by
      rw [MatchEngineGRPCImpl.match, if_neg (by simp [hopen])]
      cases transformGrpcOrder (buildOrder now counter request).2.2 <;> rfl
    rw [hsubmitted, inCluster, clusterEvent, hcall]
    simp only [hserving, if_true, Option.toList_some, List.flatMap_singleton, acceptedOrder,
      and_self, hgrpc, ← Option.toList_map, referenceOrder_eq]
    rfl
  | @cluster e₁ hmatch =>
    change (([e₁].flatMap (acceptedOrder n s.cluster)).map (RawOrder.relabel anonymous)) = []
    rw [List.flatMap_singleton, accepted_of_isMatch hmatch]
    rfl
  | _ => rfl

/-- **The requests of a symbol are passed on in their order**, whatever the threads do. -/
lemma submitted_ofSymbol {numOfThreads : ℕ} (hthreads : 1 ≤ numOfThreads)
    {dispatcher : Dispatcher} (hdispatch : dispatch numOfThreads orders = some dispatcher)
    (hall : AllAt n orderManagers) {G : State H κ config → Event H κ → Prop}
    {es : List (Event H κ)} {s : State H κ config}
    (h : (deployment orderManagers s₀ dispatcher.ordersForThread).Run G es s)
    (hsenders : ∀ sender ∈ s.requests.senders, sender.orders = []) (symbolId : ℤ) :
    ofSymbol symbolId (((deployment orderManagers s₀ dispatcher.ordersForThread).trace
      submitted es).map Prod.snd) = ofSymbol symbolId orders := by
  obtain ⟨dispatcher', hdispatch', htracks⟩ := dispatch_tracks hthreads orders
  obtain rfl := Option.some.inj (hdispatch.symm.trans hdispatch')
  have hqueue : ∀ thread, queueOf s thread = [] := by
    intro thread
    rw [queueOf]
    cases hsender : s.requests.senders[thread]? with
    | none => rfl
    | some sender => exact hsenders sender (List.mem_of_getElem? hsender)
  have hleft : ∀ thread, left s thread = [] := by
    intro thread
    unfold left
    split <;> simp [hqueue]
  have hdone : ∀ thread, ((((deployment orderManagers s₀ dispatcher.ordersForThread).trace
      submitted es).filter fun x => x.1 = thread).map Prod.snd) =
      (RoundRobin.queues numOfThreads OrderManagerProto.Order.symbol orders)[thread]?.getD [] := by
    intro thread
    have hthread := ofThread_submitted hall h thread
    rw [hleft, List.append_nil] at hthread
    rw [← htracks.queues, hthread]
    rfl
  by_cases hsymbol : IsInt32 symbolId
  · obtain ⟨symbol, rfl⟩ : ∃ symbol : I32, symbol.val = symbolId := ⟨⟨symbolId, hsymbol⟩, rfl⟩
    have hkey : ∀ requests : List OrderManagerProto.Order, ofSymbol symbol.val requests =
        requests.filter fun order => order.symbol = symbol := fun requests =>
      List.filter_congr fun order _ => decide_eq_decide.2
        ⟨fun heq => Subtype.ext heq, fun heq => congrArg Subtype.val heq⟩
    rw [hkey, hkey]
    exact RoundRobin.filter_of_workers numOfThreads OrderManagerProto.Order.symbol hthreads hdone
      symbol
  · have hnone : ∀ requests : List OrderManagerProto.Order, ofSymbol symbolId requests = [] :=
      fun requests => List.filter_eq_nil_iff.2 fun order _ heq => hsymbol
        (of_decide_eq_true heq ▸ order.symbol.2)
    rw [hnone, hnone]

/-- A load test of the requests: the orders that come in at the node, and the trades that a
subscriber has read at the end.  The cluster has one result actor, has had no orders before and
gets no new registrations; all order managers are before one node. -/
inductive LoadTestRun (κ : Type) [DecidableEq κ] (config : Config H)
    (orders : List OrderManagerProto.Order) : List RawOrder → List MatchEngineProto.Trade → Prop
  | run {n m : H} {c : κ} {orderManagers : List (List H)} {es₀ : List (ClusterEvent H κ)}
      {s₀ : ClusterState H κ config} {numOfThreads : ℕ} {dispatcher : Dispatcher}
      {es : List (Event H κ)} {s : State H κ config}
      (role : ∀ host, config.role host = kResultHostRoleName → host = m)
      (started : (system κ config).machine.Run WithoutMatch es₀ s₀)
      (ready : Ready n m c orders s₀) (stubs : AllAt n orderManagers)
      (threads : 1 ≤ numOfThreads) (dispatched : dispatch numOfThreads orders = some dispatcher)
      (ran : (deployment orderManagers s₀ dispatcher.ordersForThread).Run (Undisturbed n m c) es s)
      (complete : Complete m c s) :
      LoadTestRun κ config orders
        ((deployment orderManagers s₀ dispatcher.ordersForThread).trace
          (inCluster (acceptedOrder n)) es)
        ((deployment orderManagers s₀ dispatcher.ordersForThread).trace
          (inCluster (readTrade m c)) es)

/-- A load test of the requests, at the end of which a subscriber has read these trades. -/
def LoadTest (κ : Type) [DecidableEq κ] (config : Config H)
    (orders : List OrderManagerProto.Order) (trades : List MatchEngineProto.Trade) : Prop :=
  ∃ accepted, LoadTestRun κ config orders accepted trades

variable {accepted : List RawOrder} {trades : List MatchEngineProto.Trade}

/-- The requests of a symbol come in at the node in their order, with ids and times. -/
lemma LoadTestRun.accepted_ofSymbol (h : LoadTestRun κ config orders accepted trades)
    (symbolId : ℤ) :
    (accepted.filter fun order => order.symbolId = symbolId).map (RawOrder.relabel anonymous) =
      (ofSymbol symbolId orders).filterMap referenceOrder := by
  obtain ⟨-, -, -, hall, hthreads, hdispatch, h, hcomplete⟩ := h
  rw [← submitted_ofSymbol hthreads hdispatch hall h hcomplete.senders, ← filter_referenceOrder,
    ← accepted_anonymous hall h, List.filter_map]
  rfl

/-- The trades of a symbol that are read are those that the orders that came in make one after the
other. -/
lemma LoadTestRun.trades_ofSymbol (h : LoadTestRun κ config orders accepted trades)
    (symbolId : ℤ) : trades.filter (fun t => t.symbolId = symbolId) =
      (runOrders (fun _ _ => 0) ({} : OrderBook Unit)
        (accepted.filter fun order => order.symbolId = symbolId)).1.flatten.map
          MatchEngineGRPCImpl.grpcTrade := by
  have haccepted := h.accepted_ofSymbol symbolId
  obtain @⟨n, m, c, orderManagers, es₀, s₀, numOfThreads, dispatcher, es, s, hm, h₀, hready, hall,
    -, -, h, hcomplete⟩ := h
  obtain ⟨hinside, htrace⟩ := cluster_inside hall h
  set M := deployment orderManagers s₀ dispatcher.ordersForThread
  set fs := M.innerEvents clusterEvent es
  have hidle : Idle m c s₀ := (fresh_of_run h₀).idle m c
  have h₀' : (system κ config).machine.Run (MatchAt {n}) es₀ s₀ :=
    h₀.mono fun _ _ _ _ hG => matchAt_of_isMatch hG
  have hsettled : ((system κ config).machine.startAt s₀).Run
      (fun s e => Settled n symbolId s e ∧ NoSubscription m c s e) fs s.cluster :=
    hinside.mono fun _ _ _ hrun hG =>
      ⟨settled_of_calm (h₀'.trans (hrun.mono fun _ _ _ _ hG => hG.1)) hG.2 symbolId, hG.2.2⟩
  have hsettledRun : SettledRun n symbolId s₀ fs s.cluster :=
    ⟨hsettled.mono fun _ _ _ _ hG => hG.1, hidle.drained symbolId,
      hcomplete.idle.drained symbolId⟩
  -- the orders that come in are handled by the router in the same order
  have hrouted := routed_eq_accepted h₀' (hinside.mono fun _ _ _ _ hG => hG.1)
    (fun post hpost => (hidle.posts post hpost).1)
    (fun post hpost => (hcomplete.idle.posts post hpost).1)
  rw [← htrace, delivered_eq hm h₀.reaches hidle hready.subscribed
    (hready.sendsTo h₀.reaches symbolId) hsettled hcomplete.idle,
    map_grpcTrade_of_untimed (madeTrades_eq h₀.reaches hsettledRun), hrouted, htrace,
    symbolTrades_eq h₀ hready haccepted]

/-- **Every load test makes the trades of its requests.**  Whatever the number of threads, of order
managers and of nodes, and whatever turns the threads, the calls and the actors have taken: of each
symbol the requests come in at the node in their order, with ids and times, and the trades that the
subscriber has read are those that they make one after the other, with these ids and times, in an
empty book. -/
theorem trades_of_loadTest (h : LoadTestRun κ config orders accepted trades) (symbolId : ℤ) :
    (accepted.filter fun order => order.symbolId = symbolId).map (RawOrder.relabel anonymous) =
        (ofSymbol symbolId orders).filterMap referenceOrder ∧
      trades.filter (fun t => t.symbolId = symbolId) =
        (runOrders (fun _ _ => 0) ({} : OrderBook Unit)
          (accepted.filter fun order => order.symbolId = symbolId)).1.flatten.map
            MatchEngineGRPCImpl.grpcTrade :=
  ⟨h.accepted_ofSymbol symbolId, h.trades_ofSymbol symbolId⟩

end Reference

/-! ### Two threads and two order managers -/

/-- The node of symbol 7 and the result actor know each other, and there is a subscriber. -/
def started : List (ClusterEvent Bool Unit) :=
  twoNodesStart ++ learnResultActor ++ [.act true (.subscribe ())]

/-- A call of a thread, from its beginning to its end; the order is routed meanwhile. -/
def callOf (thread : ℕ) (now : ℤ) : List (Event Bool Unit) :=
  [.placeOrder thread now, .getNextRequestStub thread, .match thread,
    .cluster (.handle (.router true) 0), .reply thread ⟨true, .success⟩,
    .cluster (.arrive (.router true) (.matchActor false 0)),
    .cluster (.handle (.matchActor false 0) 0)]

/-- A seller and a buyer of symbol 7. -/
def sellerAndBuyer : List OrderManagerProto.Order :=
  [requestOf .tradingSell (.ofInt 5), requestOf .tradingBuy (.ofInt 3)]

/-- The trade on its way back. -/
def readBack : List (Event Bool Unit) :=
  [.cluster (.arrive (.matchActor false 0) (.matchResultDealActor true)),
    .cluster (.handle (.matchResultDealActor true) 0), .cluster (.act true (.read ()))]

/-- The load test can be run, with these orders that come in and these trades that are read. -/
def runsTo (numOfThreads : ℕ) (orderManagers : List (List Bool)) (es : List (Event Bool Unit))
    (accepted : List RawOrder) (trades : List MatchEngineProto.Trade) : Bool :=
  ((system Unit twoNodes).machine.runFrom WithoutMatch
    (system Unit twoNodes).machine.init started).any fun s₀ =>
      (dispatch numOfThreads sellerAndBuyer).any fun dispatcher =>
        let M := deployment orderManagers s₀ dispatcher.ordersForThread
        Ready true true () sellerAndBuyer s₀ ∧ AllAt true orderManagers ∧ 1 ≤ numOfThreads ∧
          (M.runFrom (Undisturbed true true ()) M.init es).any (fun s => Complete true () s) ∧
          M.trace (inCluster (acceptedOrder true)) es = accepted ∧
          M.trace (inCluster (readTrade true ())) es = trades

lemma loadTest_of_runsTo {numOfThreads : ℕ} {orderManagers : List (List Bool)}
    {es : List (Event Bool Unit)} {accepted : List RawOrder} {trades : List MatchEngineProto.Trade}
    (h : runsTo numOfThreads orderManagers es accepted trades) :
    LoadTestRun Unit twoNodes sellerAndBuyer accepted trades := by
  obtain ⟨s₀, hs₀, h⟩ := (Option.any_eq_true _ _).1 h
  obtain ⟨dispatcher, hdispatch, h⟩ := (Option.any_eq_true _ _).1 h
  obtain ⟨hready, hall, hthreads, hrun, haccepted, htrace⟩ := of_decide_eq_true h
  obtain ⟨s, hs, hcomplete⟩ := (Option.any_eq_true _ _).1 hrun
  rw [← haccepted, ← htrace]
  exact .run (n := true) (m := true) (by decide)
    ((system Unit twoNodes).machine.run_of_runFrom hs₀) hready hall hthreads hdispatch
    (Machine.run_of_runFrom _ hs) (of_decide_eq_true hcomplete)

/-- What comes in: each order manager has given the id 1. -/
def sellThenBuy : List RawOrder :=
  [⟨1, 7, 10, .sell, 5, 100, 1⟩, ⟨1, 7, 10, .buy, 3, 100, 2⟩]

lemma loadTest_twoThreads : LoadTestRun Unit twoNodes sellerAndBuyer sellThenBuy
    [⟨1, 1, .tradingBuy, 3, 100, 10, 10, 7, 2⟩] := by
  have hrun : runsTo 2 [[true], [true]] (callOf 0 1 ++ callOf 0 2 ++ readBack ++
      [.merge 1, .merge 0]) sellThenBuy [⟨1, 1, .tradingBuy, 3, 100, 10, 10, 7, 2⟩] := by decide
  exact loadTest_of_runsTo hrun

theorem trades_of_loadTest_twoThreads :
    (sellThenBuy.filter fun order => order.symbolId = 7).map (RawOrder.relabel anonymous) =
        (ofSymbol 7 sellerAndBuyer).filterMap referenceOrder ∧
      [⟨1, 1, .tradingBuy, 3, 100, 10, 10, 7, 2⟩].filter
          (fun t : MatchEngineProto.Trade => t.symbolId = 7) =
        (runOrders (fun _ _ => 0) ({} : OrderBook Unit)
          (sellThenBuy.filter fun order => order.symbolId = 7)).1.flatten.map
            MatchEngineGRPCImpl.grpcTrade :=
  trades_of_loadTest loadTest_twoThreads 7

end TradingEngine.System.Deployment
