/-
What the steps of a cluster do to the order books and which messages they send.

`act_spec` and `react_src` go through the threads and the handlers once; the books of the
match actors change only as `bookAt_cases` says.
-/
import TradingEngine.MatchEngine.Cluster
import TradingEngine.Matching.Book

namespace TradingEngine.System

open Lib MatchEngine MatchEngine.Cluster

variable {H κ : Type} [DecidableEq H] [DecidableEq κ] {config : Config H}

/-- The state of a cluster. -/
abbrev ClusterState (H κ : Type) [DecidableEq H] [DecidableEq κ] (config : Config H) :=
  (system κ config).State

/-- A step of a cluster. -/
abbrev ClusterEvent (H κ : Type) := ActorSystem.Event (Address H) H (MatchEngine.Action H κ) Clock

/-- The orders of a message. -/
def ordersOf (post : Post H) : List RawOrder :=
  match post.msg with
  | .rawOrder o => [o]
  | _ => []

omit [DecidableEq H] in
lemma mem_ordersOf {post : Post H} {o : RawOrder} : o ∈ ordersOf post ↔ post.msg = .rawOrder o := by
  obtain ⟨src, dst, msg⟩ := post
  cases msg <;> simp [ordersOf, eq_comm]

omit [DecidableEq κ] in
/-- An accepted order is the one of the request, but for the type of the side. -/
lemma match_order {impl : MatchEngineGRPCImpl κ} {request : MatchEngineProto.Order}
    {o : RawOrder} (h : (impl.match request).2.2 = some o) :
    o = ⟨request.orderId, request.symbolId, request.userId, o.tradingSide, request.amount,
      request.price, request.submitTime⟩ := by
  unfold MatchEngineGRPCImpl.match at h
  split_ifs at h
  cases hside : request.tradingSide <;> simp only [transformGrpcOrder, hside] at h <;>
    first | rw [← Option.some.inj h] | cases h

/-! ### Threads -/

/-- An entry that a call of `AddNewNode` still has to pass on. -/
def InCalls (node : Node H κ) (info : SymbolActorInfo (Address H)) : Prop :=
  ∃ call ∈ node.calls, ∃ list, call.stage = .sending list ∧ info ∈ list

/-- The messages that the threads of a node send. -/
inductive ThreadPost (config : Config H) (host : H) (x : MatchEngine.Action H κ) (node : Node H κ) :
    Post H → Prop
  | localSymbol (symbolId : ℤ) (k : ℕ) : ThreadPost config host x node
      ⟨.main host, .router host, .localSymbolActor symbolId (.matchActor host k)⟩
  | result (h : config.role host = kResultHostRoleName) : ThreadPost config host x node
      ⟨.main host, .router host, .actor (.matchResultDealActor host)⟩
  | get (other : H) (request : ℕ) : ThreadPost config host x node
      ⟨.cluster host, .router other, .get request⟩
  | remoteSymbol (other : H) {info : SymbolActorInfo (Address H)} (h : InCalls node info) :
      ThreadPost config host x node
        ⟨.callback host, .router host, .remoteSymbolActor info.symbolId other info.symbolActor⟩
  | mergeResult (other : H) (h : config.role other = kResultHostRoleName) :
      ThreadPost config host x node
        ⟨.cluster host, .router host, .actor (.matchResultDealActor other)⟩
  | nodeDown (other : H) : ThreadPost config host x node
      ⟨.cluster host, .router host, .nodeDown other⟩
  | order {request : MatchEngineProto.Order} {o : RawOrder} (hx : x = .match request)
      (hserving : node.serving = true) (ho : (node.grpc.match request).2.2 = some o) :
      ThreadPost config host x node ⟨.cluster host, .router host, .rawOrder o⟩

/-- The main thread spawns a result actor only in the role for it. -/
def MainOk (config : Config H) (host : H) (node : Node H κ) : Prop :=
  ∀ steps, node.main = some steps → .spawnResultActor ∈ steps →
    config.role host = kResultHostRoleName

/-- What a thread does: at most one empty book is added, nothing is added to what the
subscribers get or to what the calls of `AddNewNode` pass on, and the messages are as listed. -/
structure ActSpec (config : Config H) (host : H) (x : MatchEngine.Action H κ)
    (node node' : Node H κ) (out : List (Post H)) : Prop where
  books : node'.books = node.books ∨ node'.books = node.books ++ [({} : OrderBook (Address H))]
  router : node'.router = node.router
  written : node'.written.Sublist node.written
  calls : ∀ info, InCalls node' info → InCalls node info
  mainOk : MainOk config host node → MainOk config host node'
  posts : MainOk config host node → ∀ e ∈ out, ThreadPost config host x node e

omit [DecidableEq H] [DecidableEq κ] in
/-- Most threads leave the books, the router and the main thread alone. -/
lemma actSpec_of_eq {host : H} {x : MatchEngine.Action H κ} {node node' : Node H κ}
    {out : List (Post H)} (hout : ∀ e ∈ out, ThreadPost config host x node e)
    (hcalls : ∀ info, InCalls node' info → InCalls node info := by exact fun _ h => h)
    (hwritten : node'.written.Sublist node.written := by exact .refl _)
    (hbooks : node'.books = node.books := by rfl) (hrouter : node'.router = node.router := by rfl)
    (hmain : node'.main = node.main := by rfl) : ActSpec config host x node node' out :=
  ⟨Or.inl hbooks, hrouter, hwritten, hcalls, fun h steps hs => h steps (hmain ▸ hs), fun _ => hout⟩

omit [DecidableEq H] [DecidableEq κ] in
/-- A call that is added waits, or has nothing to pass on. -/
lemma inCalls_concat {node node' : Node H κ} {call : AddNewNodeCall H}
    (hcalls : node'.calls = node.calls ++ [call])
    (hcall : ∀ list, call.stage = .sending list → list = []) :
    ∀ info, InCalls node' info → InCalls node info := by
  rintro info ⟨call', hmem, list, hlist, hinfo⟩
  rw [hcalls] at hmem
  rcases List.mem_append.1 hmem with hmem | hmem
  · exact ⟨call', hmem, list, hlist, hinfo⟩
  · rw [List.mem_singleton.1 hmem] at hlist
    rw [hcall list hlist] at hinfo
    cases hinfo

omit [DecidableEq H] [DecidableEq κ] in
lemma inCalls_set {node node' : Node H κ} {i : ℕ} {other : H}
    {list : List (SymbolActorInfo (Address H))}
    (hcalls : node'.calls = node.calls.set i ⟨other, .sending list⟩)
    (hlist : ∀ info ∈ list, InCalls node info) :
    ∀ info, InCalls node' info → InCalls node info := by
  rintro info ⟨call, hmem, list', hstage, hinfo⟩
  rw [hcalls] at hmem
  rcases List.mem_or_eq_of_mem_set hmem with hmem | rfl
  · exact ⟨call, hmem, list', hstage, hinfo⟩
  · obtain rfl : list = list' := by simpa using hstage
    exact hlist info hinfo

lemma act_spec {nodes : H → Node H κ} {host : H} {x : MatchEngine.Action H κ} {node : Node H κ}
    {out : List (Post H)} (h : act config nodes host x = some (node, out)) :
    ActSpec config host x (nodes host) node out := by
  cases x with
  | boot =>
    simp only [act] at h
    split_ifs at h with hmain
    obtain ⟨rfl, rfl⟩ := Prod.mk.inj (Option.some.inj h)
    refine ⟨Or.inl rfl, rfl, .refl _, fun _ h => h, fun _ steps hs hmem => ?_, by simp⟩
    obtain rfl := Option.some.inj hs
    by_contra hrole
    simp [mainSteps, hrole] at hmem
  | mainStep =>
    simp only [act] at h
    split at h
    · rename_i step steps hmain
      have hrest : ∀ node' : Node H κ, node'.main = some steps →
          MainOk config host (nodes host) → MainOk config host node' := by
        intro node' hm hok steps' hs' hmem
        rw [hm, Option.some.injEq] at hs'
        exact hok _ hmain (List.mem_cons_of_mem _ (hs' ▸ hmem))
      cases step with
      | spawnMatchActor symbolId =>
        obtain ⟨rfl, rfl⟩ := Prod.mk.inj (Option.some.inj h)
        refine ⟨Or.inr rfl, rfl, .refl _, fun _ h => h, hrest _ rfl, fun _ e he => ?_⟩
        rw [List.mem_singleton.1 he]
        exact .localSymbol _ _
      | spawnResultActor =>
        obtain ⟨rfl, rfl⟩ := Prod.mk.inj (Option.some.inj h)
        refine ⟨Or.inl rfl, rfl, .refl _, fun _ h => h, hrest _ rfl, fun hok e he => ?_⟩
        rw [List.mem_singleton.1 he]
        exact .result (hok _ hmain List.mem_cons_self)
    · simp at h
  | serve =>
    simp only [act] at h
    split_ifs at h
    obtain ⟨rfl, rfl⟩ := Prod.mk.inj (Option.some.inj h)
    exact actSpec_of_eq (by simp)
  | addNewNode other connected =>
    simp only [act, addNewNode] at h
    split_ifs at h <;> obtain ⟨rfl, rfl⟩ := Prod.mk.inj (Option.some.inj h)
    · exact actSpec_of_eq (by simp)
    · refine actSpec_of_eq (fun e he => ?_) (inCalls_concat (by rfl) (by simp))
      rw [List.mem_singleton.1 he]
      exact .get _ _
    · exact actSpec_of_eq (by simp) (inCalls_concat (by rfl) (by simp))
  | requestFailed i =>
    simp only [act] at h
    split at h
    · obtain ⟨rfl, rfl⟩ := Prod.mk.inj (Option.some.inj h)
      exact actSpec_of_eq (by simp) (inCalls_set (by rfl) (by simp))
    · simp at h
  | sendSymbol i =>
    simp only [act] at h
    split at h
    · rename_i other info list hcall
      have hlist : ∀ info' ∈ info :: list, InCalls (nodes host) info' := fun info' hinfo' =>
        ⟨_, List.mem_of_getElem? hcall, _, rfl, hinfo'⟩
      obtain ⟨rfl, rfl⟩ := Prod.mk.inj (Option.some.inj h)
      refine actSpec_of_eq (fun e he => ?_)
        (inCalls_set (by rfl) fun info' hinfo' => hlist info' (List.mem_cons_of_mem _ hinfo'))
      rw [List.mem_singleton.1 he]
      exact .remoteSymbol _ (hlist info List.mem_cons_self)
    · simp at h
  | fetchMergeResult i connected =>
    simp only [act] at h
    split at h
    · obtain ⟨rfl, rfl⟩ := Prod.mk.inj (Option.some.inj h)
      refine actSpec_of_eq (fun e he => ?_) ?_
      · split_ifs at he with hrole
        · rw [List.mem_singleton.1 he]
          exact .mergeResult _ hrole.1
        · simp at he
      · rintro info ⟨call, hmem, list, hlist, hinfo⟩
        exact ⟨call, List.mem_of_mem_eraseIdx hmem, list, hlist, hinfo⟩
    · simp at h
  | actorSystemDown other =>
    simp only [act] at h
    split_ifs at h <;> obtain ⟨rfl, rfl⟩ := Prod.mk.inj (Option.some.inj h) <;>
      refine actSpec_of_eq fun e he => ?_
    · simp at he
    · rw [List.mem_singleton.1 he]
      exact .nodeDown _
  | openCloseEngine status =>
    simp only [act] at h
    split_ifs at h
    obtain ⟨rfl, rfl⟩ := Prod.mk.inj (Option.some.inj h)
    exact actSpec_of_eq (by simp)
  | «match» request =>
    simp only [act] at h
    split_ifs at h with hserving
    obtain ⟨rfl, rfl⟩ := Prod.mk.inj (Option.some.inj h)
    refine actSpec_of_eq fun e he => ?_
    obtain ⟨o, ho, rfl⟩ := List.mem_map.1 he
    exact .order rfl hserving (Option.mem_toList.1 ho)
  | subscribe writer =>
    simp only [act] at h
    split_ifs at h
    obtain ⟨rfl, rfl⟩ := Prod.mk.inj (Option.some.inj h)
    exact actSpec_of_eq (by simp)
  | read writer =>
    simp only [act] at h
    split_ifs at h
    obtain ⟨rfl, rfl⟩ := Prod.mk.inj (Option.some.inj h)
    exact actSpec_of_eq (by simp) (by exact fun _ h => h) List.eraseP_sublist

/-! ### Handlers -/

omit [DecidableEq κ] in
/-- An actor sends in its own name. -/
lemma react_src (node : Node H κ) (now : Clock) (post : Post H) :
    ∀ e ∈ (react node now post).2, e.src = post.dst := by
  obtain ⟨src, dst, msg⟩ := post
  cases dst with
  | router host => cases msg <;> simp [react, routerReact]
  | matchActor host k =>
    cases hbook : node.books[k]? <;> cases msg <;> simp [react, hbook, matchActorReact]
    rintro e receiver data - rfl
    rfl
  | matchResultDealActor host => cases msg <;> simp [react]
  | cluster host => cases msg <;> simp [react]
  | main host => simp [react]
  | callback host => simp [react]

omit [DecidableEq κ] in
lemma react_main (node : Node H κ) (now : Clock) (post : Post H) :
    (react node now post).1.main = node.main := by
  obtain ⟨src, dst, msg⟩ := post
  cases dst with
  | matchActor host k => cases hbook : node.books[k]? <;> simp [react, hbook]
  | matchResultDealActor host => cases msg <;> rfl
  | cluster host => cases msg <;> rfl
  | router host => rfl
  | main host => rfl
  | callback host => rfl

/-- The main threads are in order in every run. -/
lemma mainOk_of_run {G : ClusterState H κ config → ClusterEvent H κ → Prop}
    {es : List (ClusterEvent H κ)} {s : ClusterState H κ config}
    (h : (system κ config).machine.Run G es s) : ∀ host, MainOk config host (s.nodes host) := by
  refine (ActorSystem.local_invariant (Q := fun host node => MainOk config host node)
    (P := fun _ => True) ?_ ?_ ?_ h).1
  · intro host steps hs
    cases hs
  · exact fun s host x node out _ hQ hact => ⟨(act_spec hact).mainOk (hQ host), fun _ _ => trivial⟩
  · refine fun node now post _ hmain => ⟨fun steps hs => hmain steps ?_, fun _ _ => trivial⟩
    rw [← react_main node now post]
    exact hs

omit [DecidableEq κ] in
lemma react_matchActor {node : Node H κ} {k : ℕ} {book : OrderBook (Address H)}
    (h : node.books[k]? = some book) (now : Clock) (src : Address H) (host : H)
    (msg : Message H) : react node now ⟨src, .matchActor host k, msg⟩ =
      ({ node with
          books := node.books.set k (matchActorReact now (.matchActor host k) book msg).1 },
        (matchActorReact now (.matchActor host k) book msg).2) := by
  simp only [react, h]

omit [DecidableEq κ] in
/-- A handler leaves the books of other actors alone. -/
lemma react_books_ne (node : Node H κ) (now : Clock) {post : Post H} {k : ℕ}
    (h : ∀ host, post.dst ≠ .matchActor host k) :
    (react node now post).1.books[k]? = node.books[k]? := by
  obtain ⟨src, dst, msg⟩ := post
  cases dst with
  | matchActor host k' =>
    have hk : k' ≠ k := by
      rintro rfl
      exact h host rfl
    cases hbook : node.books[k']? <;> simp [react, hbook, hk]
  | matchResultDealActor host => cases msg <;> rfl
  | cluster host => cases msg <;> rfl
  | router host => rfl
  | main host => rfl
  | callback host => rfl

omit [DecidableEq H] [DecidableEq κ] in
lemma writeToKeepers_write (message : MatchEngineProto.Trade) (keepers : List κ)
    (written : List (κ × MatchEngineProto.Trade)) :
    MatchEngineGRPCImpl.writeToKeepers write message keepers written =
      (keepers, written ++ keepers.map fun writer => (writer, message)) := by
  induction keepers generalizing written with
  | nil => simp [MatchEngineGRPCImpl.writeToKeepers]
  | cons writer keepers ih => simp [MatchEngineGRPCImpl.writeToKeepers, write, ih]

omit [DecidableEq H] [DecidableEq κ] in
/-- Every trade is written to every subscriber. -/
lemma sendMatchResult_write (impl : MatchEngineGRPCImpl κ) (ts : TradeList)
    (written : List (κ × MatchEngineProto.Trade)) :
    impl.sendMatchResult write ts written =
      (impl, written ++ ts.flatMap fun t =>
        impl.matchResultWriterKeepers.map fun writer =>
          (writer, MatchEngineGRPCImpl.grpcTrade t)) := by
  have hloop : MatchEngineGRPCImpl.sendMatchResultLoop write ts impl.matchResultWriterKeepers
      written = (impl.matchResultWriterKeepers, written ++ ts.flatMap fun t =>
        impl.matchResultWriterKeepers.map fun writer =>
          (writer, MatchEngineGRPCImpl.grpcTrade t)) := by
    induction ts generalizing written with
    | nil => simp [MatchEngineGRPCImpl.sendMatchResultLoop]
    | cons t ts ih => simp [MatchEngineGRPCImpl.sendMatchResultLoop, writeToKeepers_write, ih]
  simp only [MatchEngineGRPCImpl.sendMatchResult, hloop]

/-! ### The books of the match actors -/

/-- The state of a match actor. -/
def bookAt (s : ClusterState H κ config) (host : H) (k : ℕ) : Option (OrderBook (Address H)) :=
  (s.nodes host).books[k]?

lemma bookAt_put_self (s : ClusterState H κ config) (host : H) (node : Node H κ)
    (net : Net (Address H) (Message H) (system κ config).near) (out : List (Post H))
    (k : ℕ) : bookAt (s.put host node net out) host k = node.books[k]? := by
  rw [bookAt, ActorSystem.put_nodes_self]

lemma bookAt_put_ne (s : ClusterState H κ config) {host host' : H} (node : Node H κ)
    (net : Net (Address H) (Message H) (system κ config).near) (out : List (Post H))
    (k : ℕ) (hne : host' ≠ host) : bookAt (s.put host node net out) host' k = bookAt s host' k := by
  rw [bookAt, ActorSystem.put_nodes_ne _ _ _ _ hne]
  rfl

/-- What a match actor starts from when it handles an order. -/
structure Handling (H : Type) where
  now : Clock
  book : OrderBook (Address H)
  order : RawOrder

/-- The handling of an order by a match actor, if the event is one. -/
def handling (host : H) (k : ℕ) (s : ClusterState H κ config) :
    ClusterEvent H κ → List (Handling H)
  | .handle a now =>
    if a = .matchActor host k then
      match s.net.take a, bookAt s host k with
      | some (⟨_, _, .rawOrder order⟩, _), some book => [⟨now, book, order⟩]
      | _, _ => []
    else []
  | .act _ _ => []
  | .arrive _ _ => []

lemma handling_of_ne {host : H} {k : ℕ} {s : ClusterState H κ config} {a : Address H}
    {now : Clock} (h : a ≠ .matchActor host k) :
    handling host k s (.handle a now) = [] := if_neg h

/-- The book that an order meets. -/
lemma bookAt_of_mem_handling {s : ClusterState H κ config} {e : ClusterEvent H κ} {host : H} {k : ℕ}
    {g : Handling H} (hg : g ∈ handling host k s e) : bookAt s host k = some g.book := by
  cases e with
  | act host' x => cases hg
  | arrive src dst => cases hg
  | handle a now =>
    rw [handling] at hg
    split_ifs at hg
    · split at hg
      · rename_i hbook
        rw [List.mem_singleton.1 hg]
        exact hbook
      · cases hg
    · cases hg

/-- The order that a match actor handles. -/
lemma mem_handling {s : ClusterState H κ config} {e : ClusterEvent H κ} {host : H} {k : ℕ}
    {x : Handling H} (hx : x ∈ handling host k s e) : ∃ post ∈ (system κ config).received s e,
      post.dst = .matchActor host k ∧ post.msg = .rawOrder x.order := by
  cases e with
  | handle a now =>
    rw [handling] at hx
    split_ifs at hx with ha
    · split at hx
      · rename_i src dst order net book htake hbook
        obtain rfl := List.mem_singleton.1 hx
        exact ⟨_, by simp [ActorSystem.received, htake], (Net.take_spec htake).1.trans ha, rfl⟩
      · cases hx
    · cases hx
  | _ => cases hx

/-- **The four ways in which an event concerns the book of a match actor.** -/
theorem bookAt_cases {s s' : ClusterState H κ config} {e : ClusterEvent H κ}
    (h : (system κ config).step s e = some s') (host : H) (k : ℕ) :
    (handling host k s e = [] ∧ bookAt s' host k = bookAt s host k) ∨
    (handling host k s e = [] ∧ bookAt s host k = none ∧ bookAt s' host k = some {}) ∨
    (∃ book receiver post, handling host k s e = [] ∧ bookAt s host k = some book ∧
      post ∈ s.net.all ∧ post.msg = .actor receiver ∧
      bookAt s' host k = some (matchActorReceiver book receiver)) ∨
    ∃ now book order post net, e = .handle (.matchActor host k) now ∧
      s.net.take (.matchActor host k) = some (post, net) ∧ post.msg = .rawOrder order ∧
      handling host k s e = [⟨now, book, order⟩] ∧ bookAt s host k = some book ∧
      bookAt s' host k = some (matchActorOrder now book order).1 := by
  rcases ActorSystem.step_cases h with ⟨host', x, node, out, rfl, hx, rfl⟩ |
    ⟨a, now, post, net, rfl, htake, hdst, rfl⟩ | ⟨a, b, net, rfl, harrive, rfl⟩
  · rcases eq_or_ne host host' with rfl | hne
    · rw [bookAt_put_self]
      rcases (act_spec hx).books with hb | hb
      · exact Or.inl ⟨rfl, by rw [hb]; rfl⟩
      · -- a new actor, which may be the one asked about
        rw [hb]
        rcases lt_trichotomy k (s.nodes host).books.length with hk | hk | hk
        · exact Or.inl ⟨rfl, List.getElem?_append_left hk⟩
        · refine Or.inr (Or.inl ⟨rfl, List.getElem?_eq_none hk.ge, ?_⟩)
          rw [hk, List.getElem?_concat_length]
        · refine Or.inl ⟨rfl, ?_⟩
          rw [bookAt, List.getElem?_eq_none hk.le, List.getElem?_eq_none]
          simpa using hk
    · exact Or.inl ⟨rfl, bookAt_put_ne _ _ _ _ _ hne⟩
  · by_cases ha : a = .matchActor host k
    · subst ha
      obtain ⟨src, dst, msg⟩ := post
      obtain rfl : dst = .matchActor host k := hdst
      have hmem := (Net.take_all_perm htake).mem_iff.2 List.mem_cons_self
      rw [show (system κ config).host (.matchActor host k) = host from rfl, bookAt_put_self]
      cases hbook : bookAt s host k with
      | none =>
        have hbook' : (s.nodes host).books[k]? = none := hbook
        refine Or.inl ⟨by simp [handling, htake, hbook], ?_⟩
        simp [system, react, hbook']
      | some book =>
        have hbook' : (s.nodes host).books[k]? = some book := hbook
        obtain ⟨hk, -⟩ := List.getElem?_eq_some_iff.1 hbook'
        have hreact := react_matchActor hbook' now src host msg
        have hset : ∀ book, ((s.nodes host).books.set k book)[k]? = some book :=
          fun _ => List.getElem?_set_self hk
        rw [show (system κ config).react = react from rfl, hreact, hset]
        cases msg with
        | rawOrder order =>
          exact Or.inr (Or.inr (Or.inr ⟨now, book, order, _, net, rfl, htake, rfl,
            by simp [handling, htake, hbook], rfl, rfl⟩))
        | actor receiver =>
          exact Or.inr (Or.inr (Or.inl ⟨book, receiver, _,
            by simp [handling, htake, hbook], rfl, hmem, rfl, rfl⟩))
        | _ => exact Or.inl ⟨by simp [handling, htake, hbook], rfl⟩
    · refine Or.inl ⟨handling_of_ne ha, ?_⟩
      rcases eq_or_ne host a.host with rfl | hne
      · -- another actor of the same node
        rw [show (system κ config).host a = a.host from rfl, bookAt_put_self]
        refine react_books_ne _ _ fun host' hpost => ha ?_
        rw [hdst] at hpost
        rw [hpost]
        rfl
      · exact bookAt_put_ne _ _ _ _ _ hne
  · exact Or.inl ⟨rfl, rfl⟩

/-! ### A cluster of two nodes -/

/-- One node has the actor of symbol 7, the other (`true`) the role `merge_result_host`. -/
def twoNodes : Config Bool where
  role := fun host => if host then kResultHostRoleName else "match_engine"
  symbolIdList := fun host => if host then [] else [7]

/-- An order for symbol 7, as a client sends it. -/
def orderOf (id : ℤ) (side : MatchEngineProto.TradingSide) (amount : I32) :
    MatchEngineProto.Order :=
  ⟨id, .ofInt 7, .ofInt 10, side, amount, .ofInt 100, id⟩

/-- Both nodes start, and the second one learns the symbol of the first. -/
def twoNodesStart : List (ClusterEvent Bool Unit) :=
  [.act false .boot, .act false .mainStep, .handle (.router false) 0,
    .act true .boot, .act true .mainStep, .handle (.router true) 0,
    .act true (.addNewNode false true), .arrive (.cluster true) (.router false),
    .handle (.router false) 0, .arrive (.router false) (.cluster true),
    .handle (.cluster true) 0, .act true (.sendSymbol 0), .act true (.fetchMergeResult 0 true),
    .handle (.router true) 0, .act true .serve]

/-- The second node takes an order and routes it to the first. -/
def routeOrder (request : MatchEngineProto.Order) : List (ClusterEvent Bool Unit) :=
  [.act true (.match request), .handle (.router true) 0,
    .arrive (.router true) (.matchActor false 0), .handle (.matchActor false 0) 0]

end TradingEngine.System
