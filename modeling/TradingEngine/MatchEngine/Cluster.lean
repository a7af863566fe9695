/-
The nodes of a match engine cluster (`match_grpc_server.cc`, `match_engine_cluster.cc`).

Every node runs a main thread, the service, the threads that are inside `AddNewNode`, and
actors: the router, one `MatchActor` for each local symbol and, in the role
`merge_result_host`, the actor that receives the results.  `act` gives the steps of the
threads, `react` the handlers of the actors.
-/
import TradingEngine.Lib.ActorSystem
import TradingEngine.MatchEngine.GrpcImpl
import TradingEngine.MatchEngine.MatchActor
import TradingEngine.MatchEngine.SymbolIdRouter

namespace TradingEngine.MatchEngine

open Lib

/-! ### Actors and messages -/

/-- The actors of a node, the scoped actors of its threads included. -/
inductive Address (H : Type)
  /-- `self` of `caf_main`. -/
  | main (host : H)
  /-- `self_actor_` of `MatchEngineCluster`. -/
  | cluster (host : H)
  /-- `self` of the callback in `AddNewNode`. -/
  | callback (host : H)
  | router (host : H)
  | matchActor (host : H) (k : ℕ)
  | matchResultDealActor (host : H)
  deriving DecidableEq

/-- The node on which an actor lives. -/
def Address.host {H : Type} : Address H → H
  | .main host => host
  | .cluster host => host
  | .callback host => host
  | .router host => host
  | .matchActor host _ => host
  | .matchResultDealActor host => host

/-- The messages, with the number of the request where there is an answer. -/
inductive Message (H : Type)
  | remoteSymbolActor (symbolId : ℤ) (nodeHost : H) (actor : Address H)
  | localSymbolActor (symbolId : ℤ) (actor : Address H)
  | nodeDown (nodeHost : H)
  | get (request : ℕ)
  | symbolActorInfoList (request : ℕ) (list : List (SymbolActorInfo (Address H)))
  | actor (handle : Address H)
  | rawOrder (order : RawOrder)
  | tradeList (data : TradeList)
  deriving DecidableEq

/-- A message between actors of the cluster. -/
abbrev Post (H : Type) := Envelope (Address H) (Message H)

/-! ### Nodes -/

/-- `kResultHostRoleName`. -/
def kResultHostRoleName : String := "merge_result_host"

/-- The options of the nodes: their role, and `symbol_id_list` in pieces. -/
structure Config (H : Type) where
  role : H → String
  symbolIdList : H → List ℤ

/-- What the main thread still has to do before it waits. -/
inductive MainStep
  | spawnMatchActor (symbolId : ℤ)
  | spawnResultActor
  deriving DecidableEq

/-- Where a call of `AddNewNode` is: it waits for the symbols of the other node, or it is in
the loop that passes them on. -/
inductive AddNewNodeStage (H : Type)
  | waiting (request : ℕ)
  | sending (list : List (SymbolActorInfo (Address H)))
  deriving DecidableEq

/-- A call of `AddNewNode` that has not returned. -/
structure AddNewNodeCall (H : Type) where
  host : H
  stage : AddNewNodeStage H
  deriving DecidableEq

/-- A node of the cluster: the main thread, the actors and the service. -/
structure Node (H κ : Type) where
  /-- `none` before the start. -/
  main : Option (List MainStep) := none
  router : SymbolRouterData H (Address H) := {}
  /-- The states of the match actors. -/
  books : List (OrderBook (Address H)) := []
  /-- The result actor is published. -/
  resultActor : Bool := false
  /-- The service is up. -/
  serving : Bool := false
  grpc : MatchEngineGRPCImpl κ := {}
  /-- What was written to the subscribers and not read yet. -/
  written : List (κ × MatchEngineProto.Trade) := []
  calls : List (AddNewNodeCall H) := []
  requests : ℕ := 0

/-- What a thread of a node does. -/
inductive Action (H κ : Type)
  | boot
  | mainStep
  | serve
  | addNewNode (host : H) (connected : Bool)
  | requestFailed (i : ℕ)
  | sendSymbol (i : ℕ)
  | fetchMergeResult (i : ℕ) (connected : Bool)
  | actorSystemDown (host : H)
  | openCloseEngine (status : MatchEngineProto.EngineStatus)
  | «match» (request : MatchEngineProto.Order)
  | subscribe (writer : κ)
  | read (writer : κ)
  deriving DecidableEq

namespace Cluster

variable {H κ : Type} [DecidableEq H] [DecidableEq κ]

/-! ### Threads -/

/-- What `caf_main` does between publishing the router and `AddObserver`. -/
def mainSteps (config : Config H) (host : H) : List MainStep :=
  (config.symbolIdList host).map .spawnMatchActor ++
    if config.role host = kResultHostRoleName then [.spawnResultActor] else []

/-- One of these steps: an actor is spawned and made known to the router. -/
def runMainStep (host : H) (node : Node H κ) : MainStep → Node H κ × List (Post H)
  | .spawnMatchActor symbolId =>
    ({ node with books := node.books ++ [{}] },
      [⟨.main host, .router host,
        .localSymbolActor symbolId (.matchActor host node.books.length)⟩])
  | .spawnResultActor =>
    ({ node with resultActor := true },
      [⟨.main host, .router host, .actor (.matchResultDealActor host)⟩])

/-- `AddNewNode` up to the request for the symbols of the other node.  The router of that
node is found when it is published and can be reached. -/
def addNewNode (host : H) (node : Node H κ) (other : H) (found : Bool) :
    Node H κ × List (Post H) :=
  if other = host then (node, [])
  else if found then
    ({ node with
        calls := node.calls ++ [⟨other, .waiting node.requests⟩]
        requests := node.requests + 1 },
      [⟨.cluster host, .router other, .get node.requests⟩])
  else ({ node with calls := node.calls ++ [⟨other, .sending []⟩] }, [])

/-- The threads of a node.  The loop of `caf_main` over the members and `Update` both call
`AddNewNode`, from the registration of the observer on; the service comes up after the loop. -/
def act (config : Config H) (nodes : H → Node H κ) (host : H) :
    Action H κ → Option (Node H κ × List (Post H))
  | .boot =>
    let node := nodes host
    if node.main = none then some ({ node with main := some (mainSteps config host) }, [])
    else none
  | .mainStep =>
    let node := nodes host
    match node.main with
    | some (step :: steps) => some (runMainStep host { node with main := some steps } step)
    | _ => none
  | .serve =>
    let node := nodes host
    if node.main = some [] then some ({ node with serving := true }, []) else none
  | .addNewNode other connected =>
    let node := nodes host
    if node.main = some [] then
      some (addNewNode host node other (connected && (nodes other).main.isSome))
    else none
  | .requestFailed i =>
    let node := nodes host
    match node.calls[i]? with
    | some ⟨other, .waiting _⟩ =>
      some ({ node with calls := node.calls.set i ⟨other, .sending []⟩ }, [])
    | _ => none
  | .sendSymbol i =>
    let node := nodes host
    match node.calls[i]? with
    | some ⟨other, .sending (info :: list)⟩ =>
      some ({ node with calls := node.calls.set i ⟨other, .sending list⟩ },
        [⟨.callback host, .router host,
          .remoteSymbolActor info.symbolId other info.symbolActor⟩])
    | _ => none
  | .fetchMergeResult i connected =>
    let node := nodes host
    match node.calls[i]? with
    | some ⟨other, .sending []⟩ =>
      -- the end of `AddNewNode`
      some ({ node with calls := node.calls.eraseIdx i },
        if config.role other = kResultHostRoleName ∧ connected ∧ (nodes other).resultActor then
          [⟨.cluster host, .router host, .actor (.matchResultDealActor other)⟩]
        else [])
    | _ => none
  | .actorSystemDown other =>
    let node := nodes host
    if node.main = some [] then
      some (node, if other = host then [] else [⟨.cluster host, .router host, .nodeDown other⟩])
    else none
  | .openCloseEngine status =>
    let node := nodes host
    if node.serving then some ({ node with grpc := (node.grpc.openCloseEngine status).1 }, [])
    else none
  | .match request =>
    let node := nodes host
    if node.serving then
      some (node, (node.grpc.match request).2.2.toList.map fun rawOrder =>
        ⟨.cluster host, .router host, .rawOrder rawOrder⟩)
    else none
  | .subscribe writer =>
    let node := nodes host
    if node.serving then some ({ node with grpc := node.grpc.subscribeMatchResult writer }, [])
    else none
  | .read writer =>
    let node := nodes host
    if (node.written.any fun m => m.1 = writer) then
      some ({ node with written := node.written.eraseP fun m => m.1 = writer }, [])
    else none

/-! ### Handlers -/

/-- `Write` on a stream that is not broken. -/
def write (writer : κ) (trade : MatchEngineProto.Trade)
    (written : List (κ × MatchEngineProto.Trade)) :
    Bool × List (κ × MatchEngineProto.Trade) :=
  (true, written ++ [(writer, trade)])

/-- `SymbolRouterActor`. -/
def routerReact (host : H) (router : SymbolRouterData H (Address H)) (sender : Address H) :
    Message H → SymbolRouterData H (Address H) × List (Post H)
  | .remoteSymbolActor symbolId nodeHost actor =>
    (router.addRemoteSymbolActor symbolId nodeHost actor, [])
  | .localSymbolActor symbolId actor => (router.addLocalSymbolActor symbolId actor, [])
  | .nodeDown nodeHost => (router.removeNode nodeHost, [])
  | .get request =>
    (router, [⟨.router host, sender, .symbolActorInfoList request router.localSymbolActors⟩])
  | .actor handle =>
    (router, router.mergeResultReceivers.map fun actor => ⟨.router host, actor, .actor handle⟩)
  | .rawOrder msg =>
    (router.lookUp msg,
      (router.actorOf msg).toList.map fun actor => ⟨.router host, actor, .rawOrder msg⟩)
  | .symbolActorInfoList _ _ => (router, [])
  | .tradeList _ => (router, [])

/-- `MatchActor`. -/
def matchActorReact (now : Clock) (self : Address H) (book : OrderBook (Address H)) :
    Message H → OrderBook (Address H) × List (Post H)
  | .rawOrder order =>
    let (book, tradeList) := matchActorOrder now book order
    (book, (sendMatchResult book.matchResultActor tradeList).toList.map fun message =>
      ⟨self, message.1, .tradeList message.2⟩)
  | .actor resultReceiver => (matchActorReceiver book resultReceiver, [])
  | _ => (book, [])

/-- The callback of the request in `AddNewNode` takes the answer; a late answer is dropped. -/
def receiveSymbols (calls : List (AddNewNodeCall H)) (request : ℕ)
    (list : List (SymbolActorInfo (Address H))) : List (AddNewNodeCall H) :=
  calls.map fun call =>
    if call.stage = .waiting request then { call with stage := .sending list } else call

/-- The handlers of the actors of a node. -/
def react (node : Node H κ) (now : Clock) (post : Post H) : Node H κ × List (Post H) :=
  match post.dst with
  | .router host =>
    let (router, out) := routerReact host node.router post.src post.msg
    ({ node with router := router }, out)
  | .matchActor _ k =>
    match node.books[k]? with
    | some book =>
      let (book, out) := matchActorReact now post.dst book post.msg
      ({ node with books := node.books.set k book }, out)
    | none => (node, [])
  | .matchResultDealActor _ =>
    match post.msg with
    | .tradeList data =>
      let (grpc, written) := node.grpc.sendMatchResult write data node.written
      ({ node with grpc := grpc, written := written }, [])
    | _ => (node, [])
  | .cluster _ =>
    match post.msg with
    | .symbolActorInfoList request list =>
      ({ node with calls := receiveSymbols node.calls request list }, [])
    | _ => (node, [])
  | .main _ => (node, [])
  | .callback _ => (node, [])

/-- The cluster. -/
def system (κ : Type) [DecidableEq κ] (config : Config H) :
    ActorSystem (Address H) H (Message H) (Node H κ) (Action H κ) Clock where
  host := Address.host
  init := fun _ => {}
  act := act config
  react := react

end Cluster

end TradingEngine.MatchEngine
