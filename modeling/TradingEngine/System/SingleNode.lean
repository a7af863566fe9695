/-
A match engine of one node, which also has the role `merge_result_host`.

All messages stay on the node, so they are in the mailboxes in the order in which they were
sent.  The node goes through three phases: the main thread starts the actors (`Starting`),
the result actor is made known to the router (`Announcing`), and from then on no match actor
handles an order before it knows the result actor (`Running`).  `engine_step_spec` lists what
such a node can do.
-/
import TradingEngine.Matching.WellFormed
import TradingEngine.System.Steps

namespace TradingEngine.System

open Lib MatchEngine MatchEngine.Cluster Matching

/-- The options of the node: any list of symbols. -/
def singleNode (symbols : List ℤ) : Config Unit := ⟨fun _ => kResultHostRoleName, fun _ => symbols⟩

/-- The state of an engine of one node, with one subscriber. -/
abbrev EngineState (symbols : List ℤ) := ClusterState Unit Unit (singleNode symbols)

/-- A step of such an engine. -/
abbrev EngineEvent := ClusterEvent Unit Unit

/-- The node of such an engine. -/
abbrev EngineNode := Node Unit Unit

/-! ### The messages of the node -/

/-- The router is told of an actor. -/
def localSymbolPost (symbolId : ℤ) (k : ℕ) : Post Unit :=
  ⟨.main (), .router (), .localSymbolActor symbolId (.matchActor () k)⟩

/-- The router is told of the result actor. -/
def announcement : Post Unit := ⟨.main (), .router (), .actor (.matchResultDealActor ())⟩

/-- An order goes to the router. -/
def orderPost (o : RawOrder) : Post Unit := ⟨.cluster (), .router (), .rawOrder o⟩

/-- A match actor is told of the result actor. -/
def receiverPost (k : ℕ) : Post Unit :=
  ⟨.router (), .matchActor () k, .actor (.matchResultDealActor ())⟩

/-- An order goes to its match actor. -/
def routedPost (k : ℕ) (o : RawOrder) : Post Unit := ⟨.router (), .matchActor () k, .rawOrder o⟩

/-- Trades go to the result actor. -/
def tradesPost (k : ℕ) (ts : TradeList) : Post Unit :=
  ⟨.matchActor () k, .matchResultDealActor (), .tradeList ts⟩

/-- The messages that occur while there are `n` match actors. -/
inductive EnginePost (n : ℕ) : Post Unit → Prop
  | localSymbol (symbolId : ℤ) {k : ℕ} (hk : k < n) : EnginePost n (localSymbolPost symbolId k)
  | announcement : EnginePost n announcement
  | order (o : RawOrder) : EnginePost n (orderPost o)
  | receiver {k : ℕ} (hk : k < n) : EnginePost n (receiverPost k)
  | routed {k : ℕ} (hk : k < n) (o : RawOrder) : EnginePost n (routedPost k o)
  | trades (k : ℕ) {ts : TradeList} (hts : ts ≠ []) : EnginePost n (tradesPost k ts)

lemma EnginePost.mono {n n' : ℕ} {post : Post Unit} (h : EnginePost n post) (hn : n ≤ n') :
    EnginePost n' post := by
  cases h with
  | localSymbol symbolId hk => exact .localSymbol symbolId (hk.trans_le hn)
  | announcement => exact .announcement
  | order o => exact .order o
  | receiver hk => exact .receiver (hk.trans_le hn)
  | routed hk o => exact .routed (hk.trans_le hn) o
  | trades k hts => exact .trades k hts

lemma EnginePost.lt_of_localSymbol {n k : ℕ} {symbolId : ℤ}
    (h : EnginePost n (localSymbolPost symbolId k)) : k < n := by
  generalize hpost : localSymbolPost symbolId k = post at h
  cases h with
  | localSymbol symbolId' hk =>
    obtain ⟨-, rfl⟩ : symbolId = symbolId' ∧ k = _ := by simpa [localSymbolPost] using hpost
    exact hk
  | _ => cases hpost

/-! ### Phases -/

/-- The match actor is in the table of the router that results are announced to. -/
def KnownTo (router : SymbolRouterData Unit (Address Unit)) (k : ℕ) : Prop :=
  ∃ info ∈ router.localSymbolActors, info.symbolActor = .matchActor () k

/-- The main thread still starts actors. -/
structure Starting (node : EngineNode) (mail : List (Post Unit)) : Prop where
  main : node.main = none ∧ node.books = [] ∨
    ∃ symbols : List ℤ, node.main = some (symbols.map .spawnMatchActor ++ [.spawnResultActor])
  posts : ∀ post ∈ mail, ∃ symbolId k, post = localSymbolPost symbolId k
  known : ∀ k < node.books.length,
    KnownTo node.router k ∨ ∃ symbolId, localSymbolPost symbolId k ∈ mail

/-- The result actor is announced to the router, which does not know it yet. -/
structure Announcing (node : EngineNode) (mail : List (Post Unit)) : Prop where
  main : node.main = some []
  posts : ∃ before after, mail = before ++ announcement :: after ∧
    (∀ post ∈ before, ∃ symbolId k, post = localSymbolPost symbolId k) ∧
    (∀ post ∈ after, ∃ o, post = orderPost o) ∧
    ∀ k < node.books.length,
      KnownTo node.router k ∨ ∃ symbolId, localSymbolPost symbolId k ∈ before

/-- A match actor knows the result actor, or learns of it before it handles an order. -/
def Ready (books : List (OrderBook (Address Unit))) (mail : List (Post Unit)) (k : ℕ) : Prop :=
  (∃ book, books[k]? = some book ∧ book.matchResultActor = some (.matchResultDealActor ())) ∨
    receiverPost k ∈ mail ∧
      Preceded (· = receiverPost k) (fun post => ∃ o, post = routedPost k o) mail

/-- The node has started, and every match actor is ready for orders. -/
structure Running (node : EngineNode) (mail : List (Post Unit)) : Prop where
  main : node.main = some []
  posts : ∀ post ∈ mail, post ≠ announcement ∧ ∀ symbolId k, post ≠ localSymbolPost symbolId k
  ready : ∀ k < node.books.length, Ready node.books mail k

/-- The trades are written to one subscriber, or there are no orders yet. -/
def Subscribed (node : EngineNode) (mail : List (Post Unit)) : Prop :=
  node.grpc.matchResultWriterKeepers = [()] ∨
    node.grpc.matchResultWriterKeepers = [] ∧
      ∀ post ∈ mail, (∀ o, post.msg ≠ .rawOrder o) ∧ ∀ ts, post.msg ≠ .tradeList ts

/-- The invariant of the node. -/
structure EngineInv (node : EngineNode) (mail : List (Post Unit)) : Prop where
  calls : node.calls = []
  serving : node.serving = true → node.main = some []
  posts : ∀ post ∈ mail, EnginePost node.books.length post
  actors : ∀ symbolId a, node.router.symbolActor symbolId = some a →
    ∃ k < node.books.length, a = .matchActor () k
  receivers : ∀ info ∈ node.router.localSymbolActors,
    ∃ k < node.books.length, info.symbolActor = .matchActor () k
  books : ∀ book ∈ node.books, BookOk book ∧ AmountsIn (0 < ·) book
  orders : ∀ post ∈ mail, ∀ o, post.msg = .rawOrder o → 0 < o.amount
  subscribed : Subscribed node mail
  phase : Starting node mail ∨ Announcing node mail ∨ Running node mail

/-! ### Steps -/

/-- The events of the threads that leave the messages and the books alone. -/
def Quiet : EngineEvent → Prop
  | .act _ .serve => True
  | .act _ (.addNewNode _ _) => True
  | .act _ (.actorSystemDown _) => True
  | .act _ (.openCloseEngine _) => True
  | _ => False

/-- What the node can do. -/
inductive EngineStep (symbols : List ℤ) (node : EngineNode) (mail : List (Post Unit)) :
    EngineEvent → EngineNode → List (Post Unit) → Prop
  | boot (h : node.main = none) : EngineStep symbols node mail (.act () .boot)
      { node with main := some (mainSteps (singleNode symbols) ()) } mail
  | spawnMatchActor {symbolId : ℤ} {steps : List MainStep}
      (h : node.main = some (.spawnMatchActor symbolId :: steps)) :
      EngineStep symbols node mail (.act () .mainStep)
        { node with main := some steps, books := node.books ++ [{}] }
        (mail ++ [localSymbolPost symbolId node.books.length])
  | spawnResultActor {steps : List MainStep} (h : node.main = some (.spawnResultActor :: steps)) :
      EngineStep symbols node mail (.act () .mainStep)
        { node with main := some steps, resultActor := true } (mail ++ [announcement])
  | quiet {e : EngineEvent} (he : Quiet e) (h : node.main = some []) (serving engineIsOpen : Bool) :
      EngineStep symbols node mail e { node with
        serving := serving, grpc := { node.grpc with engineIsOpen := engineIsOpen } } mail
  | «match» (request : MatchEngineProto.Order) (h : node.main = some []) :
      EngineStep symbols node mail (.act () (.match request)) node
        (mail ++ (node.grpc.match request).2.2.toList.map orderPost)
  | subscribe (h : node.main = some []) : EngineStep symbols node mail (.act () (.subscribe ()))
      { node with grpc := node.grpc.subscribeMatchResult () } mail
  | read {trade : MatchEngineProto.Trade} {written : List (Unit × MatchEngineProto.Trade)}
      (h : node.written = ((), trade) :: written) :
      EngineStep symbols node mail (.act () (.read ())) { node with written := written } mail
  | routerSymbol {rest : List (Post Unit)} {symbolId : ℤ} {k : ℕ} (now : Clock)
      (h : Taken (localSymbolPost symbolId k) mail rest) :
      EngineStep symbols node mail (.handle (.router ()) now)
        { node with router := node.router.addLocalSymbolActor symbolId (.matchActor () k) } rest
  | routerAnnounce {rest : List (Post Unit)} (now : Clock) (h : Taken announcement mail rest) :
      EngineStep symbols node mail (.handle (.router ()) now) node
        (rest ++ node.router.mergeResultReceivers.map fun a =>
          ⟨.router (), a, .actor (.matchResultDealActor ())⟩)
  | routerOrder {rest : List (Post Unit)} {o : RawOrder} {k : ℕ} (now : Clock)
      (h : Taken (orderPost o) mail rest) (hk : k < node.books.length)
      (hactor : node.router.actorOf o = some (.matchActor () k)) :
      EngineStep symbols node mail (.handle (.router ()) now) node (rest ++ [routedPost k o])
  | routerDrop {rest : List (Post Unit)} {o : RawOrder} (now : Clock)
      (h : Taken (orderPost o) mail rest) (hactor : node.router.actorOf o = none) :
      EngineStep symbols node mail (.handle (.router ()) now)
        { node with router := node.router.lookUp o } rest
  | actorReceiver {rest : List (Post Unit)} {k : ℕ} {book : OrderBook (Address Unit)}
      (now : Clock) (h : Taken (receiverPost k) mail rest) (hbook : node.books[k]? = some book) :
      EngineStep symbols node mail (.handle (.matchActor () k) now)
        { node with books := node.books.set k (matchActorReceiver book (.matchResultDealActor ())) }
        rest
  | actorOrder {rest : List (Post Unit)} {k : ℕ} {o : RawOrder}
      {book : OrderBook (Address Unit)} (now : Clock) (h : Taken (routedPost k o) mail rest)
      (hbook : node.books[k]? = some book)
      (hreceiver : book.matchResultActor = some (.matchResultDealActor ())) :
      EngineStep symbols node mail (.handle (.matchActor () k) now)
        { node with books := node.books.set k (matchActorOrder now book o).1 }
        (rest ++ if (matchActorOrder now book o).2 = [] then []
          else [tradesPost k (matchActorOrder now book o).2])
  | resultTrades {rest : List (Post Unit)} {k : ℕ} {ts : TradeList} (now : Clock)
      (h : Taken (tradesPost k ts) mail rest)
      (hkeepers : node.grpc.matchResultWriterKeepers = [()]) :
      EngineStep symbols node mail (.handle (.matchResultDealActor ()) now)
        { node with
          written := node.written ++ ts.map (fun t => ((), MatchEngineGRPCImpl.grpcTrade t)) } rest

/-! ### The steps are these -/

lemma singleNode_near (symbols : List ℤ) (a b : Address Unit) :
    (system Unit (singleNode symbols)).near a b = true :=
  decide_eq_true (Subsingleton.elim _ _)

/-- The state of the node and its mailboxes after a step of the system. -/
lemma put_node {symbols : List ℤ} (s : EngineState symbols) (node : EngineNode)
    (net : Net (Address Unit) (Message Unit) (system Unit (singleNode symbols)).near)
    (out : List (Post Unit)) : (s.put () node net out).nodes () = node ∧
      (s.put () node net out).net.mail = net.mail ++ out ∧
      (s.put () node net out).net.wire = net.wire := by
  obtain ⟨hmail, hwire⟩ := net.sendAll_of_near fun e (_ : e ∈ out) =>
    singleNode_near symbols e.src e.dst
  exact ⟨ActorSystem.put_nodes_self s () node net out, hmail, hwire⟩

/-- A thread of the node takes a step. -/
lemma act_step {symbols : List ℤ} {nodes : Unit → EngineNode} {mail : List (Post Unit)}
    {x : MatchEngine.Action Unit Unit} {node : EngineNode} {out : List (Post Unit)}
    (h : EngineInv (nodes ()) mail)
    (hact : act (singleNode symbols) nodes () x = some (node, out)) :
    EngineStep symbols (nodes ()) mail (.act () x) node (mail ++ out) := by
  cases x with
  | boot =>
    simp only [act] at hact
    split_ifs at hact with hmain
    obtain ⟨rfl, rfl⟩ := Prod.mk.inj (Option.some.inj hact)
    rw [List.append_nil]
    exact .boot hmain
  | mainStep =>
    simp only [act] at hact
    split at hact
    · rename_i step steps hmain
      cases step with
      | spawnMatchActor symbolId =>
        obtain ⟨rfl, rfl⟩ := Prod.mk.inj (Option.some.inj hact)
        exact .spawnMatchActor hmain
      | spawnResultActor =>
        obtain ⟨rfl, rfl⟩ := Prod.mk.inj (Option.some.inj hact)
        exact .spawnResultActor hmain
    · cases hact
  | serve =>
    simp only [act] at hact
    split_ifs at hact with hmain
    obtain ⟨rfl, rfl⟩ := Prod.mk.inj (Option.some.inj hact)
    rw [List.append_nil]
    exact .quiet (by trivial) hmain true (nodes ()).grpc.engineIsOpen
  | addNewNode other connected =>
    simp only [act, addNewNode, if_true] at hact
    split_ifs at hact with hmain
    obtain ⟨rfl, rfl⟩ := Prod.mk.inj (Option.some.inj hact)
    rw [List.append_nil]
    exact .quiet (by trivial) hmain (nodes ()).serving (nodes ()).grpc.engineIsOpen
  | actorSystemDown other =>
    simp only [act, if_true] at hact
    split_ifs at hact with hmain
    obtain ⟨rfl, rfl⟩ := Prod.mk.inj (Option.some.inj hact)
    rw [List.append_nil]
    exact .quiet (by trivial) hmain (nodes ()).serving (nodes ()).grpc.engineIsOpen
  | openCloseEngine status =>
    simp only [act] at hact
    split_ifs at hact with hserving
    obtain ⟨rfl, rfl⟩ := Prod.mk.inj (Option.some.inj hact)
    rw [List.append_nil]
    have hmain := h.serving hserving
    cases status with
    | engineClose => exact .quiet (by trivial) hmain (nodes ()).serving false
    | engineOpen => exact .quiet (by trivial) hmain (nodes ()).serving true
    | unrecognized n =>
      exact .quiet (by trivial) hmain (nodes ()).serving (nodes ()).grpc.engineIsOpen
  | «match» request =>
    simp only [act] at hact
    split_ifs at hact with hserving
    obtain ⟨rfl, rfl⟩ := Prod.mk.inj (Option.some.inj hact)
    exact .match request (h.serving hserving)
  | subscribe writer =>
    simp only [act] at hact
    split_ifs at hact with hserving
    obtain ⟨rfl, rfl⟩ := Prod.mk.inj (Option.some.inj hact)
    rw [List.append_nil]
    exact .subscribe (h.serving hserving)
  | read writer =>
    simp only [act] at hact
    split_ifs at hact with hany
    obtain ⟨rfl, rfl⟩ := Prod.mk.inj (Option.some.inj hact)
    rw [List.append_nil]
    cases hwritten : (nodes ()).written with
    | nil => simp [hwritten] at hany
    | cons m written =>
      obtain ⟨reader, trade⟩ := m
      exact .read hwritten
  | requestFailed i => simp [act, h.calls] at hact
  | sendSymbol i => simp [act, h.calls] at hact
  | fetchMergeResult i connected => simp [act, h.calls] at hact

/-- A match actor that is handed an order knows the result actor. -/
lemma EngineInv.receiver_of_taken {node : EngineNode} {mail rest : List (Post Unit)}
    (h : EngineInv node mail) {k : ℕ} {o : RawOrder} {book : OrderBook (Address Unit)}
    (hk : k < node.books.length) (htaken : Taken (routedPost k o) mail rest)
    (hbook : node.books[k]? = some book) :
    book.matchResultActor = some (.matchResultDealActor ()) := by
  have hmem := htaken.mem
  rcases h.phase with hphase | hphase | hphase
  · obtain ⟨symbolId, k', heq⟩ := hphase.posts _ hmem
    cases heq
  · obtain ⟨before, after, rfl, hbefore, hafter, -⟩ := hphase.posts
    rcases List.mem_append.1 hmem with hmem | hmem
    · obtain ⟨symbolId, k', heq⟩ := hbefore _ hmem
      cases heq
    · rcases List.mem_cons.1 hmem with heq | hmem
      · cases heq
      · obtain ⟨o', heq⟩ := hafter _ hmem
        cases heq
  · rcases hphase.ready k hk with ⟨book', hbook', hset⟩ | ⟨-, hpreceded⟩
    · rw [hbook, Option.some.injEq] at hbook'
      rw [hbook']
      exact hset
    · -- the order would come after the message that names the receiver
      obtain ⟨m₁, m₂, rfl, -, hm₁⟩ := htaken
      obtain ⟨post, hmem, rfl⟩ := hpreceded.exists_mem ⟨o, rfl⟩ (by rintro ⟨⟩)
      exact absurd rfl (hm₁ (receiverPost k) hmem)

/-- The result actor writes the trades to the subscriber. -/
lemma sendMatchResult_written (impl : MatchEngineGRPCImpl Unit)
    (hkeepers : impl.matchResultWriterKeepers = [()]) (ts : TradeList)
    (written : List (Unit × MatchEngineProto.Trade)) :
    impl.sendMatchResult write ts written =
      (impl, written ++ ts.map fun t => ((), MatchEngineGRPCImpl.grpcTrade t)) := by
  rw [sendMatchResult_write, hkeepers]
  simp only [List.map_singleton]
  rw [← List.map_eq_flatMap]

/-- An actor of the node handles a message. -/
lemma react_step {symbols : List ℤ} {node : EngineNode} {mail rest : List (Post Unit)}
    (h : EngineInv node mail) {post : Post Unit} (htaken : Taken post mail rest) (now : Clock) :
    EngineStep symbols node mail (.handle post.dst now) (react node now post).1
      (rest ++ (react node now post).2) := by
  have hpost := h.posts post htaken.mem
  cases hpost with
  | localSymbol symbolId hk =>
    show EngineStep symbols node mail _ _ (rest ++ [])
    rw [List.append_nil]
    exact .routerSymbol now htaken
  | announcement => exact .routerAnnounce now htaken
  | order o =>
    show EngineStep symbols node mail _ { node with router := node.router.lookUp o }
      (rest ++ (node.router.actorOf o).toList.map fun a => ⟨.router (), a, .rawOrder o⟩)
    cases hactor : node.router.actorOf o with
    | none =>
      rw [Option.toList_none, List.map_nil, List.append_nil]
      exact .routerDrop now htaken hactor
    | some a =>
      obtain ⟨k, hk, rfl⟩ := h.actors _ _ hactor
      rw [node.router.lookUp_of_symbolActor hactor]
      exact .routerOrder now htaken hk hactor
  | @receiver k hk =>
    have hbook := List.getElem?_eq_getElem hk
    rw [receiverPost, react_matchActor hbook]
    show EngineStep symbols node mail _ _ (rest ++ [])
    rw [List.append_nil]
    exact .actorReceiver now htaken hbook
  | @routed k hk o =>
    have hbook := List.getElem?_eq_getElem hk
    have hreceiver := h.receiver_of_taken hk htaken hbook
    have hout : (matchActorReact now (.matchActor () k) node.books[k] (.rawOrder o)).2 =
        if (matchActorOrder now node.books[k] o).2 = [] then []
        else [tradesPost k (matchActorOrder now node.books[k] o).2] := by
      simp only [matchActorReact, matchActorOrder_matchResultActor, hreceiver, sendMatchResult,
        List.length_eq_zero_iff]
      split_ifs <;> rfl
    rw [routedPost, react_matchActor hbook]
    dsimp only
    rw [hout]
    exact .actorOrder now htaken hbook hreceiver
  | @trades k ts hts =>
    have hkeepers : node.grpc.matchResultWriterKeepers = [()] := by
      rcases h.subscribed with hkeepers | ⟨-, hnone⟩
      · exact hkeepers
      · exact absurd rfl ((hnone _ htaken.mem).2 ts)
    have hreact : react node now (tradesPost k ts) = ({ node with
        written := node.written ++ ts.map (fun t => ((), MatchEngineGRPCImpl.grpcTrade t)) },
        []) := by
      simp only [react, tradesPost, sendMatchResult_written node.grpc hkeepers]
    rw [hreact, List.append_nil]
    exact .resultTrades now htaken hkeepers

/-- **What the node can do.** -/
theorem engine_step_spec {symbols : List ℤ} {s s' : EngineState symbols} {e : EngineEvent}
    (h : EngineInv (s.nodes ()) s.net.mail) (hwire : s.net.wire = [])
    (hstep : (system Unit (singleNode symbols)).step s e = some s') :
    EngineStep symbols (s.nodes ()) s.net.mail e (s'.nodes ()) s'.net.mail ∧
      s'.net.wire = [] := by
  rcases ActorSystem.step_cases hstep with ⟨host, x, node, out, rfl, hact, rfl⟩ |
    ⟨a, now, post, net, rfl, htake, rfl, rfl⟩ | ⟨src, dst, net, rfl, harrive, rfl⟩
  · obtain ⟨hnode, hmail, hwire'⟩ := put_node s node s.net out
    rw [hnode, hmail, hwire', hwire]
    exact ⟨act_step h hact, rfl⟩
  · obtain ⟨hnode, hmail, hwire'⟩ := put_node s (react (s.nodes ()) now post).1 net
      (react (s.nodes ()) now post).2
    obtain ⟨-, hwire'', -⟩ := Net.take_spec htake
    refine ⟨?_, by rw [← hwire, ← hwire'']; exact hwire'⟩
    have hspec : EngineStep symbols _ _ _ _ _ := react_step h (Net.taken_of_take htake) now
    rw [← hnode, ← hmail] at hspec
    exact hspec
  · obtain ⟨e, w₁, w₂, -, -, hw, -⟩ := Net.arrive_spec harrive
    rw [hwire] at hw
    simp at hw

end TradingEngine.System
