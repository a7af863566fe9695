/-
The router of a node: which actor handles the orders of a symbol (`symbol_id_router.cc`).

The lambdas of `SymbolRouterActor` are functions on its data.  A `caf::actor` may be null, and
`operator[]` puts a null actor where there is no entry; a message to a null actor is dropped.
-/
import TradingEngine.MatchEngine.Config

namespace TradingEngine.MatchEngine

/-- `SymbolRouterData`. -/
structure SymbolRouterData (H α : Type) where
  /-- The inner `none` is a null actor. -/
  symbolActorMap : ℤ → Option (Option α) := fun _ => none
  nodeSymbolMap : H → Option (List ℤ) := fun _ => none
  localSymbolActors : List (SymbolActorInfo α) := []

namespace SymbolRouterData

variable {H α : Type} [DecidableEq H]

/-- A symbol actor of another node. -/
def addRemoteSymbolActor (state : SymbolRouterData H α) (symbolId : ℤ) (nodeHost : H)
    (actor : α) : SymbolRouterData H α :=
  { state with
    symbolActorMap := fun s =>
      if s = symbolId then some (some actor) else state.symbolActorMap s
    nodeSymbolMap := fun h =>
      if h = nodeHost then some ((state.nodeSymbolMap nodeHost).getD [] ++ [symbolId])
      else state.nodeSymbolMap h }

/-- A symbol actor of this node. -/
def addLocalSymbolActor (state : SymbolRouterData H α) (symbolId : ℤ) (actor : α) :
    SymbolRouterData H α :=
  { state with
    localSymbolActors := state.localSymbolActors ++ [⟨symbolId, actor⟩]
    symbolActorMap := fun s =>
      if s = symbolId then some (some actor) else state.symbolActorMap s }

/-- The symbol actors of another node are removed. -/
def removeNode (state : SymbolRouterData H α) (nodeHost : H) : SymbolRouterData H α :=
  { state with
    symbolActorMap := fun s =>
      if s ∈ (state.nodeSymbolMap nodeHost).getD [] then none else state.symbolActorMap s
    nodeSymbolMap := fun h => if h = nodeHost then none else state.nodeSymbolMap h }

/-- The actors that the merge result actor is sent to. -/
def mergeResultReceivers (state : SymbolRouterData H α) : List α :=
  state.localSymbolActors.map SymbolActorInfo.symbolActor

/-- The actor of a symbol, if it has one that is not null. -/
def symbolActor (state : SymbolRouterData H α) (symbolId : ℤ) : Option α :=
  (state.symbolActorMap symbolId).join

/-- The actor that an order is sent to, if there is one. -/
def actorOf (state : SymbolRouterData H α) (msg : RawOrder) : Option α :=
  state.symbolActor msg.symbolId

/-- The table after `symbol_actor_map[msg.symbol_id]`. -/
def lookUp (state : SymbolRouterData H α) (msg : RawOrder) : SymbolRouterData H α :=
  { state with
    symbolActorMap := fun s =>
      if s = msg.symbolId ∧ state.symbolActorMap s = none then some none
      else state.symbolActorMap s }

/-! ### The actor of a symbol -/

variable (state : SymbolRouterData H α)

omit [DecidableEq H] in
@[simp] lemma symbolActor_empty (s : ℤ) : ({} : SymbolRouterData H α).symbolActor s = none := rfl

@[simp] lemma symbolActor_addRemoteSymbolActor (symbolId s : ℤ) (nodeHost : H) (actor : α) :
    (state.addRemoteSymbolActor symbolId nodeHost actor).symbolActor s =
      if s = symbolId then some actor else state.symbolActor s := by
  by_cases h : s = symbolId <;> simp [symbolActor, addRemoteSymbolActor, h]

omit [DecidableEq H] in
@[simp] lemma symbolActor_addLocalSymbolActor (symbolId s : ℤ) (actor : α) :
    (state.addLocalSymbolActor symbolId actor).symbolActor s =
      if s = symbolId then some actor else state.symbolActor s := by
  by_cases h : s = symbolId <;> simp [symbolActor, addLocalSymbolActor, h]

@[simp] lemma symbolActor_removeNode (nodeHost : H) (s : ℤ) :
    (state.removeNode nodeHost).symbolActor s =
      if s ∈ (state.nodeSymbolMap nodeHost).getD [] then none else state.symbolActor s := by
  by_cases h : s ∈ (state.nodeSymbolMap nodeHost).getD [] <;> simp [symbolActor, removeNode, h]

omit [DecidableEq H] in
@[simp] lemma symbolActor_lookUp (msg : RawOrder) (s : ℤ) :
    (state.lookUp msg).symbolActor s = state.symbolActor s := by
  by_cases h : s = msg.symbolId ∧ state.symbolActorMap s = none
  · show Option.join (if _ then _ else _) = (state.symbolActorMap s).join
    rw [if_pos h, h.2]
    rfl
  · simp only [symbolActor, lookUp, if_neg h]

omit [DecidableEq H] in
/-- `operator[]` changes nothing where there is an entry. -/
lemma lookUp_of_symbolActor {msg : RawOrder} {actor : α} (h : state.actorOf msg = some actor) :
    state.lookUp msg = state := by
  have hmap : ∀ s, ¬ (s = msg.symbolId ∧ state.symbolActorMap s = none) := by
    rintro s ⟨rfl, hnone⟩
    simp [actorOf, symbolActor, hnone] at h
  simp only [lookUp, hmap, if_false]

end SymbolRouterData

end TradingEngine.MatchEngine
