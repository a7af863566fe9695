/-
Where the router of a node sends orders, over the whole history of its messages.

Registrations come from the main thread of the node and from `AddNewNode`, and other nodes
are removed when their actor systems go down.  The tables of the router are a directory of
which these messages are the operations.
-/
import TradingEngine.Lib.Directory
import TradingEngine.System.Steps

namespace TradingEngine.System

open Lib MatchEngine MatchEngine.Cluster

variable {H κ : Type} [DecidableEq H]

/-! ### The router as a directory -/

/-- The router after a sequence of messages, each with its sender. -/
def routerAfter (host : H) (msgs : List (Address H × Message H)) :
    SymbolRouterData H (Address H) :=
  msgs.foldl (fun router m => (routerReact host router m.1 m.2).1) {}

lemma routerAfter_concat (host : H) (msgs : List (Address H × Message H))
    (m : Address H × Message H) : routerAfter host (msgs ++ [m]) =
      (routerReact host (routerAfter host msgs) m.1 m.2).1 := by
  simp [routerAfter]

/-- What a message means for the tables.  The registrations of the node itself stay. -/
def directoryOp : Message H → Option (DirectoryOp H ℤ (Address H))
  | .remoteSymbolActor symbolId nodeHost actor => some (.register ⟨some nodeHost, symbolId, actor⟩)
  | .localSymbolActor symbolId actor => some (.register ⟨none, symbolId, actor⟩)
  | .nodeDown nodeHost => some (.drop nodeHost)
  | _ => none

/-- The registrations and the removals among the messages. -/
def registrations (msgs : List (Address H × Message H)) : List (DirectoryOp H ℤ (Address H)) :=
  msgs.filterMap fun m => directoryOp m.2

omit [DecidableEq H] in
lemma registrations_concat (msgs : List (Address H × Message H)) (m : Address H × Message H) :
    registrations (msgs ++ [m]) = registrations msgs ++ (directoryOp m.2).toList := by
  cases h : directoryOp m.2 <;> simp [registrations, h]

/-- The directory in the tables of a router. -/
def directory (router : SymbolRouterData H (Address H)) : Directory H ℤ (Address H) where
  table := router.symbolActor
  keys := fun nodeHost => (router.nodeSymbolMap nodeHost).getD []

/-- A message is an operation of the directory, or leaves the directory alone. -/
lemma directory_routerReact (host : H) (router : SymbolRouterData H (Address H))
    (sender : Address H) (msg : Message H) : directory (routerReact host router sender msg).1 =
      (directoryOp msg).toList.foldl Directory.apply (directory router) := by
  cases msg with
  | remoteSymbolActor symbolId nodeHost actor =>
    refine Directory.ext (funext fun s => ?_) (funext fun h => ?_)
    · exact router.symbolActor_addRemoteSymbolActor symbolId s nodeHost actor
    · show ((router.addRemoteSymbolActor symbolId nodeHost actor).nodeSymbolMap h).getD [] =
        if some nodeHost = some h then (router.nodeSymbolMap h).getD [] ++ [symbolId]
        else (router.nodeSymbolMap h).getD []
      rcases eq_or_ne h nodeHost with rfl | hne
      · simp [SymbolRouterData.addRemoteSymbolActor]
      · simp [SymbolRouterData.addRemoteSymbolActor, hne, hne.symm]
  | localSymbolActor symbolId actor =>
    refine Directory.ext (funext fun s => ?_) (funext fun h => ?_)
    · exact router.symbolActor_addLocalSymbolActor symbolId s actor
    · simp [directory, directoryOp, routerReact, Directory.apply,
        SymbolRouterData.addLocalSymbolActor]
  | nodeDown nodeHost =>
    refine Directory.ext (funext fun s => ?_) (funext fun h => ?_)
    · exact router.symbolActor_removeNode nodeHost s
    · show ((router.removeNode nodeHost).nodeSymbolMap h).getD [] =
        if h = nodeHost then [] else (router.nodeSymbolMap h).getD []
      by_cases hh : h = nodeHost <;> simp [SymbolRouterData.removeNode, hh]
  | rawOrder o => exact Directory.ext (funext fun s => router.symbolActor_lookUp o s) rfl
  | _ => rfl

/-- **The router is a directory** of the registrations that it has handled. -/
theorem directory_routerAfter (host : H) (msgs : List (Address H × Message H)) :
    directory (routerAfter host msgs) = Directory.run (registrations msgs) := by
  induction msgs using List.reverseRecOn with
  | nil => rfl
  | append_singleton msgs m ih =>
    rw [routerAfter_concat, directory_routerReact, ih, registrations_concat, Directory.run,
      Directory.run, List.foldl_append]

/-! ### Where an order goes -/

/-- The actor of every symbol is the one of its latest live registration. -/
def RoutesLatest (host : H) (msgs : List (Address H × Message H)) : Prop :=
  ∀ symbolId, (routerAfter host msgs).symbolActor symbolId =
    latest symbolId (live (registrations msgs))

lemma routesLatest_iff_answers (host : H) (msgs : List (Address H × Message H)) :
    RoutesLatest host msgs ↔ Directory.Answers (registrations msgs) := by
  rw [Directory.Answers, ← directory_routerAfter host msgs]
  rfl

omit [DecidableEq H] in
/-- An operation of the directory comes from a message. -/
lemma exists_of_registrations {msgs : List (Address H × Message H)}
    {ops : List (DirectoryOp H ℤ (Address H))} {op : DirectoryOp H ℤ (Address H)}
    (h : ops ++ [op] <+: registrations msgs) : ∃ before m, before ++ [m] <+: msgs ∧
      registrations before = ops ∧ directoryOp m.2 = some op := by
  obtain ⟨rest, hrest⟩ := h
  rw [List.append_assoc, List.singleton_append] at hrest
  obtain ⟨l₁, l₂, rfl, hl₁, hl₂⟩ := List.filterMap_eq_append_iff.1 hrest.symm
  obtain ⟨l₃, m, l₄, rfl, hl₃, hm, -⟩ := List.filterMap_eq_cons_iff.1 hl₂
  refine ⟨l₁ ++ l₃, m, ⟨l₄, by simp⟩, ?_, hm⟩
  rw [registrations, List.filterMap_append, List.filterMap_eq_nil_iff.2 hl₃, List.append_nil, hl₁]

/-- **The router sends every order to the latest live registration of its symbol, throughout
a history**, if and only if every node that is removed is the only one with live registrations
of its symbols. -/
theorem routesLatest_iff_soleRemovals (host : H) (msgs : List (Address H × Message H)) :
    (∀ before, before <+: msgs → RoutesLatest host before) ↔
      ∀ before sender nodeHost, before ++ [(sender, .nodeDown nodeHost)] <+: msgs →
        Sole (live (registrations before)) nodeHost := by
  constructor
  · intro hall before sender nodeHost h
    have hbefore := (routesLatest_iff_answers host before).1
      (hall before ((List.prefix_append ..).trans h))
    have hafter := (routesLatest_iff_answers host _).1 (hall _ h)
    rw [registrations_concat] at hafter
    exact (Directory.answers_concat hbefore (.drop nodeHost)).1 hafter
  · intro hall before h
    rw [routesLatest_iff_answers]
    refine (Directory.answers_iff (registrations msgs)).2 (fun ops op hop => ?_) _
      (h.filterMap _)
    obtain ⟨before, ⟨sender, msg⟩, hmsgs, rfl, hm⟩ := exists_of_registrations hop
    cases op with
    | register r => trivial
    | drop nodeHost =>
      cases msg <;> cases hm
      exact hall before sender nodeHost hmsgs

/-- Node 1 has taken symbol 7 over when node 2 is removed. -/
theorem not_routesLatest_of_takeover : ¬ ∀ (msgs : List (Address ℕ × Message ℕ)),
    RoutesLatest 0 msgs := by
  intro hall
  have h := hall [(.callback 0, .remoteSymbolActor 7 2 (.matchActor 2 0)),
    (.callback 0, .remoteSymbolActor 7 1 (.matchActor 1 0)), (.cluster 0, .nodeDown 2)] 7
  revert h
  decide

/-! ### What `Match` answers -/

/-- What the router does with an order. -/
structure RoutesOrder (host : H) (msgs : List (Address H × Message H)) (sender : Address H)
    (o : RawOrder) : Prop where
  /-- The actor of the latest live registration gets the order, and the tables stay. -/
  forwarded : ∀ actor, (routerAfter host msgs).symbolActor o.symbolId = some actor →
    latest o.symbolId (live (registrations msgs)) = some actor ∧
      routerReact host (routerAfter host msgs) sender (.rawOrder o) =
        (routerAfter host msgs, [⟨.router host, actor, .rawOrder o⟩])
  /-- Without an actor the order goes nowhere, and no symbol gets or loses its actor. -/
  unroutable : (routerAfter host msgs).symbolActor o.symbolId = none →
    (routerReact host (routerAfter host msgs) sender (.rawOrder o)).2 = [] ∧
      (routerReact host (routerAfter host msgs) sender (.rawOrder o)).1.nodeSymbolMap =
        (routerAfter host msgs).nodeSymbolMap ∧
      ∀ symbolId, (routerReact host (routerAfter host msgs) sender
        (.rawOrder o)).1.symbolActor symbolId = (routerAfter host msgs).symbolActor symbolId
  /-- A symbol that was never registered, or whose nodes are removed, has no actor. -/
  unregistered : latest o.symbolId (live (registrations msgs)) = none →
    (routerAfter host msgs).symbolActor o.symbolId = none

lemma latest_of_symbolActor {host : H} {msgs : List (Address H × Message H)} {symbolId : ℤ}
    {actor : Address H} (h : (routerAfter host msgs).symbolActor symbolId = some actor) :
    latest symbolId (live (registrations msgs)) = some actor := by
  refine Directory.latest_of_table ?_
  rw [← directory_routerAfter host msgs]
  exact h

lemma routesOrder (host : H) (msgs : List (Address H × Message H)) (sender : Address H)
    (o : RawOrder) : RoutesOrder host msgs sender o where
  forwarded := by
    intro actor hactor
    have hactor' : (routerAfter host msgs).actorOf o = some actor := hactor
    refine ⟨latest_of_symbolActor hactor, ?_⟩
    rw [routerReact, (routerAfter host msgs).lookUp_of_symbolActor hactor', hactor']
    rfl
  unroutable := by
    intro hnone
    have hnone' : (routerAfter host msgs).actorOf o = none := hnone
    refine ⟨?_, rfl, fun symbolId => (routerAfter host msgs).symbolActor_lookUp o symbolId⟩
    rw [routerReact, hnone']
    rfl
  unregistered := by
    intro hlatest
    by_contra hne
    obtain ⟨actor, hactor⟩ := Option.ne_none_iff_exists'.1 hne
    rw [latest_of_symbolActor hactor] at hlatest
    cases hlatest

omit [DecidableEq H] in
/-- The answer of `Match` depends on the switch and on the side of the order only, and it is
given with the order on its way to the router. -/
lemma match_success_iff (impl : MatchEngineGRPCImpl κ) (request : MatchEngineProto.Order) :
    ((impl.match request).2.1 = .statusSuccess ↔ impl.engineIsOpen = true ∧
      (request.tradingSide = .tradingBuy ∨ request.tradingSide = .tradingSell)) ∧
    ((impl.match request).2.1 = .statusSuccess ↔ (impl.match request).1 = .ok) ∧
    ((impl.match request).2.1 = .statusSuccess ↔ (impl.match request).2.2 ≠ none) := by
  unfold MatchEngineGRPCImpl.match
  cases impl.engineIsOpen with
  | false => simp
  | true => cases hside : request.tradingSide <;> simp [transformGrpcOrder, hside]

/-- **What becomes of a request.**  `Match` answers with success when it has sent the order to
the router, whatever the router knows by then; the router sends it to the latest live
registration of its symbol, or to nobody, and no symbol gets or loses its actor. -/
theorem match_then_route (host : H) (msgs : List (Address H × Message H)) (sender : Address H)
    (impl : MatchEngineGRPCImpl κ) (request : MatchEngineProto.Order) :
    (((impl.match request).2.1 = .statusSuccess ↔ impl.engineIsOpen = true ∧
      (request.tradingSide = .tradingBuy ∨ request.tradingSide = .tradingSell)) ∧
    ((impl.match request).2.1 = .statusSuccess ↔ (impl.match request).1 = .ok) ∧
    ((impl.match request).2.1 = .statusSuccess ↔ (impl.match request).2.2 ≠ none)) ∧
    ∀ o, (impl.match request).2.2 = some o →
      o.symbolId = request.symbolId ∧ RoutesOrder host msgs sender o := by
  refine ⟨match_success_iff impl request, fun o ho => ⟨?_, routesOrder host msgs sender o⟩⟩
  rw [match_order ho]

/-- A buy order for a symbol that was never registered. -/
def unroutableRequest : MatchEngineProto.Order where
  orderId := 1
  symbolId := .ofInt 7
  userId := .ofInt 1
  price := .ofInt 100
  amount := .ofInt 5
  tradingSide := .tradingBuy
  submitTime := 0

/-- Success does not mean that an actor gets the order. -/
theorem not_forwarded_of_success : ¬ ∀ (msgs : List (Address ℕ × Message ℕ))
    (impl : MatchEngineGRPCImpl Unit) (request : MatchEngineProto.Order) (o : RawOrder),
    impl.match request = (.ok, .statusSuccess, some o) →
      ∃ actor, (routerReact 0 (routerAfter 0 msgs) (.cluster 0) (.rawOrder o)).2 =
        [⟨.router 0, actor, .rawOrder o⟩] := by
  intro hall
  obtain ⟨actor, hactor⟩ := hall [] {} unroutableRequest ⟨1, 7, 1, .buy, 5, 100, 0⟩ (by decide)
  have hnone : (routerReact (0 : ℕ) (routerAfter 0 []) (.cluster 0)
      (.rawOrder ⟨1, 7, 1, .buy, 5, 100, 0⟩)).2 = [] := by decide
  rw [hnone] at hactor
  cases hactor

end TradingEngine.System
