/-
What routers and messages say about the actors of symbols.

The router of a node, the calls of `AddNewNode` and some of the messages pair symbols with
actors.  A thread takes these pairs from what its node knows, or it spawns the actor; a
handler takes them from what its node knows or from the message.  An order is sent to a match
actor only by a router that has this actor in its table.
-/
import TradingEngine.System.Steps

namespace TradingEngine.System

open Lib MatchEngine MatchEngine.Cluster

variable {H κ : Type} [DecidableEq H] [DecidableEq κ] {config : Config H}

/-- The message pairs the symbol with the actor. -/
def Tells (post : Post H) (symbolId : ℤ) (actor : Address H) : Prop :=
  match post.msg with
  | .remoteSymbolActor s _ a => s = symbolId ∧ a = actor
  | .localSymbolActor s a => s = symbolId ∧ a = actor
  | .symbolActorInfoList _ list =>
    ∃ info ∈ list, info.symbolId = symbolId ∧ info.symbolActor = actor
  | _ => False

/-- The node pairs the symbol with the actor. -/
inductive Knows (node : Node H κ) : ℤ → Address H → Prop
  | table {symbolId : ℤ} {actor : Address H}
      (h : node.router.symbolActor symbolId = some actor) : Knows node symbolId actor
  | locals {info : SymbolActorInfo (Address H)} (h : info ∈ node.router.localSymbolActors) :
      Knows node info.symbolId info.symbolActor
  | calls {info : SymbolActorInfo (Address H)} (h : InCalls node info) :
      Knows node info.symbolId info.symbolActor

omit [DecidableEq H] [DecidableEq κ] in
lemma not_knows_init (symbolId : ℤ) (actor : Address H) :
    ¬ Knows ({} : Node H κ) symbolId actor := by
  rintro (htable | hinfo | ⟨call, hcall, -⟩)
  · cases htable
  · cases hinfo
  · cases hcall

/-! ### Threads -/

/-- What a thread does to the main thread's list and to the books. -/
lemma act_main {nodes : H → Node H κ} {host : H} {x : MatchEngine.Action H κ} {node : Node H κ}
    {out : List (Post H)} (h : act config nodes host x = some (node, out)) :
    ((nodes host).main = none ∧ node.main = some (mainSteps config host) ∧
      node.books = (nodes host).books ∧ out = []) ∨
    (∃ symbolId steps, (nodes host).main = some (.spawnMatchActor symbolId :: steps) ∧
      node.main = some steps ∧ node.books = (nodes host).books ++ [({} : OrderBook (Address H))] ∧
      out = [⟨.main host, .router host,
        .localSymbolActor symbolId (.matchActor host (nodes host).books.length)⟩]) ∨
    (∃ steps, (nodes host).main = some (.spawnResultActor :: steps) ∧ node.main = some steps ∧
      node.books = (nodes host).books ∧
      out = [⟨.main host, .router host, .actor (.matchResultDealActor host)⟩]) ∨
    (node.main = (nodes host).main ∧ node.books = (nodes host).books ∧
      ∀ post ∈ out, ∀ s actor, post.msg ≠ .localSymbolActor s actor) := by
  cases x with
  | boot =>
    simp only [act] at h
    split_ifs at h with hmain
    obtain ⟨rfl, rfl⟩ := Prod.mk.inj (Option.some.inj h)
    exact Or.inl ⟨hmain, rfl, rfl, rfl⟩
  | mainStep =>
    simp only [act] at h
    split at h
    · rename_i step steps hmain
      cases step with
      | spawnMatchActor symbolId =>
        obtain ⟨rfl, rfl⟩ := Prod.mk.inj (Option.some.inj h)
        exact Or.inr (Or.inl ⟨symbolId, steps, hmain, rfl, rfl, rfl⟩)
      | spawnResultActor =>
        obtain ⟨rfl, rfl⟩ := Prod.mk.inj (Option.some.inj h)
        exact Or.inr (Or.inr (Or.inl ⟨steps, hmain, rfl, rfl, rfl⟩))
    · cases h
  | addNewNode other connected =>
    simp only [act, addNewNode] at h
    split_ifs at h <;> obtain ⟨rfl, rfl⟩ := Prod.mk.inj (Option.some.inj h) <;>
      exact Or.inr (Or.inr (Or.inr ⟨rfl, rfl, by simp⟩))
  | _ =>
    simp only [act] at h
    split at h <;> first
      | obtain ⟨rfl, rfl⟩ := Prod.mk.inj (Option.some.inj h)
        exact Or.inr (Or.inr (Or.inr ⟨rfl, rfl, by grind⟩))
      | cases h

section Act

variable {nodes : H → Node H κ} {host : H} {x : MatchEngine.Action H κ} {node : Node H κ}
  {out : List (Post H)}

/-- A thread learns nothing. -/
lemma act_knows (h : act config nodes host x = some (node, out)) {symbolId : ℤ}
    {actor : Address H} (hknows : Knows node symbolId actor) :
    Knows (nodes host) symbolId actor := by
  have hspec := act_spec h
  cases hknows with
  | table htable => exact .table (hspec.router ▸ htable)
  | locals hinfo => exact .locals (hspec.router ▸ hinfo)
  | calls hinfo => exact .calls (hspec.calls _ hinfo)

/-- A thread passes on what its node knows, or makes known the actor that it spawns. -/
lemma act_tells (h : act config nodes host x = some (node, out))
    (hmain : MainOk config host (nodes host)) {post : Post H} (hpost : post ∈ out) {symbolId : ℤ}
    {actor : Address H} (htells : Tells post symbolId actor) :
    Knows (nodes host) symbolId actor ∨
    ∃ steps, (nodes host).main = some (.spawnMatchActor symbolId :: steps) ∧
      node.books = (nodes host).books ++ [({} : OrderBook (Address H))] ∧
      actor = .matchActor host (nodes host).books.length := by
  have hthread := (act_spec h).posts hmain post hpost
  cases hthread with
  | localSymbol s k =>
    obtain ⟨rfl, rfl⟩ := htells
    rcases act_main h with ⟨-, -, -, rfl⟩ | ⟨s', steps, hsteps, -, hbooks, rfl⟩ |
      ⟨steps, -, -, -, rfl⟩ | ⟨-, -, hposts⟩
    · cases hpost
    · cases List.mem_singleton.1 hpost
      exact Or.inr ⟨steps, hsteps, hbooks, rfl⟩
    · cases List.mem_singleton.1 hpost
    · exact absurd rfl (hposts _ hpost s (.matchActor host k))
  | remoteSymbol other hinfo =>
    obtain ⟨rfl, rfl⟩ := htells
    exact Or.inl (.calls hinfo)
  | _ => cases htells

/-- A thread sends orders to the router of its node. -/
lemma act_order (h : act config nodes host x = some (node, out))
    (hmain : MainOk config host (nodes host)) {post : Post H} (hpost : post ∈ out)
    {order : RawOrder} (horder : post.msg = .rawOrder order) :
    (∃ request, x = .match request) ∧ post.src = .cluster host ∧ post.dst = .router host := by
  have hthread := (act_spec h).posts hmain post hpost
  cases hthread with
  | order hx _ _ => exact ⟨⟨_, hx⟩, rfl, rfl⟩
  | _ => cases horder

end Act

/-! ### Handlers -/

omit [DecidableEq κ] in
/-- The symbols that a call of `AddNewNode` gets are those of the answer. -/
lemma inCalls_receiveSymbols {node : Node H κ} {request : ℕ}
    {list : List (SymbolActorInfo (Address H))} {info : SymbolActorInfo (Address H)}
    (h : InCalls { node with calls := receiveSymbols node.calls request list } info) :
    InCalls node info ∨ info ∈ list := by
  obtain ⟨call, hcall, list', hstage, hinfo⟩ := h
  obtain ⟨call', hcall', rfl⟩ := List.mem_map.1 hcall
  split_ifs at hstage
  · obtain rfl : list = list' := by simpa using hstage
    exact Or.inr hinfo
  · exact Or.inl ⟨call', hcall', list', hstage, hinfo⟩

/-- The table of a router takes pairs from the message. -/
lemma routerReact_table {host : H} {router : SymbolRouterData H (Address H)} {src : Address H}
    {msg : Message H} {symbolId : ℤ} {actor : Address H}
    (h : (routerReact host router src msg).1.symbolActor symbolId = some actor) :
    router.symbolActor symbolId = some actor ∨ Tells ⟨src, .router host, msg⟩ symbolId actor := by
  cases msg with
  | remoteSymbolActor s nodeHost a =>
    rw [routerReact, SymbolRouterData.symbolActor_addRemoteSymbolActor] at h
    split_ifs at h with hs
    · exact Or.inr ⟨hs.symm, Option.some.inj h⟩
    · exact Or.inl h
  | localSymbolActor s a =>
    rw [routerReact, SymbolRouterData.symbolActor_addLocalSymbolActor] at h
    split_ifs at h with hs
    · exact Or.inr ⟨hs.symm, Option.some.inj h⟩
    · exact Or.inl h
  | nodeDown nodeHost =>
    rw [routerReact, SymbolRouterData.symbolActor_removeNode] at h
    split_ifs at h
    exact Or.inl h
  | rawOrder order =>
    rw [routerReact, SymbolRouterData.symbolActor_lookUp] at h
    exact Or.inl h
  | _ => exact Or.inl h

lemma routerReact_locals {host : H} {router : SymbolRouterData H (Address H)} {src : Address H}
    {msg : Message H} {info : SymbolActorInfo (Address H)}
    (h : info ∈ (routerReact host router src msg).1.localSymbolActors) :
    info ∈ router.localSymbolActors ∨
      Tells ⟨src, .router host, msg⟩ info.symbolId info.symbolActor := by
  cases msg with
  | localSymbolActor s a =>
    rcases List.mem_append.1 h with h | h
    · exact Or.inl h
    · rw [List.mem_singleton.1 h]
      exact Or.inr ⟨rfl, rfl⟩
  | _ => exact Or.inl h

section React

omit [DecidableEq κ]

variable {node : Node H κ} {now : Clock} {post : Post H}

/-- A handler learns what the message says. -/
lemma react_knows {symbolId : ℤ} {actor : Address H}
    (h : Knows (react node now post).1 symbolId actor) :
    Knows node symbolId actor ∨ Tells post symbolId actor := by
  obtain ⟨src, dst, msg⟩ := post
  have hsame : (react node now ⟨src, dst, msg⟩).1.router = node.router →
      (∀ info, InCalls (react node now ⟨src, dst, msg⟩).1 info → InCalls node info) →
      Knows node symbolId actor := by
    intro hrouter hcalls
    cases h with
    | table htable => exact .table (hrouter ▸ htable)
    | locals hinfo => exact .locals (hrouter ▸ hinfo)
    | calls hinfo => exact .calls (hcalls _ hinfo)
  cases dst with
  | router host =>
    cases h with
    | table htable => exact (routerReact_table htable).imp_left .table
    | locals hinfo => exact (routerReact_locals hinfo).imp_left .locals
    | calls hinfo => exact Or.inl (.calls hinfo)
  | matchActor host k =>
    refine Or.inl (hsame ?_ ?_) <;>
      cases hbook : node.books[k]? <;> simp only [react, hbook] <;> first
        | trivial
        | exact fun _ hinfo => hinfo
  | matchResultDealActor host =>
    cases msg <;> exact Or.inl (hsame rfl fun _ hinfo => hinfo)
  | cluster host =>
    cases msg with
    | symbolActorInfoList request list =>
      cases h with
      | table htable => exact Or.inl (.table htable)
      | locals hinfo => exact Or.inl (.locals hinfo)
      | calls hinfo =>
        rcases inCalls_receiveSymbols hinfo with hinfo | hinfo
        · exact Or.inl (.calls hinfo)
        · exact Or.inr ⟨_, hinfo, rfl, rfl⟩
    | _ => exact Or.inl (hsame rfl fun _ hinfo => hinfo)
  | main host => exact Or.inl (hsame rfl fun _ hinfo => hinfo)
  | callback host => exact Or.inl (hsame rfl fun _ hinfo => hinfo)

/-- **What a handler sends.**  A router answers a request with its own symbols, and sends an
order to the actor that it has for the symbol. -/
lemma react_sends {post' : Post H} (h : post' ∈ (react node now post).2) :
    (∀ symbolId actor, Tells post' symbolId actor → Knows node symbolId actor) ∧
    ∀ order, post'.msg = .rawOrder order → ∃ host, post.dst = .router host ∧
      post.msg = .rawOrder order ∧ post'.src = .router host ∧
      node.router.symbolActor order.symbolId = some post'.dst := by
  obtain ⟨src, dst, msg⟩ := post
  cases dst with
  | router host =>
    cases msg with
    | get request =>
      cases List.mem_singleton.1 h
      refine ⟨?_, fun order horder => by cases horder⟩
      rintro symbolId actor ⟨info, hinfo, rfl, rfl⟩
      exact .locals hinfo
    | actor handle =>
      obtain ⟨actor, -, rfl⟩ := List.mem_map.1 h
      exact ⟨by rintro _ _ ⟨⟩, by rintro _ ⟨⟩⟩
    | rawOrder order =>
      obtain ⟨actor, hactor, rfl⟩ := List.mem_map.1 h
      refine ⟨by rintro _ _ ⟨⟩, fun order' horder => ?_⟩
      cases horder
      exact ⟨host, rfl, rfl, rfl, Option.mem_toList.1 hactor⟩
    | _ => simp [react, routerReact] at h
  | matchActor host k =>
    cases hbook : node.books[k]? with
    | none => simp [react, hbook] at h
    | some book =>
      rw [react_matchActor hbook] at h
      cases msg with
      | rawOrder order =>
        obtain ⟨message, -, rfl⟩ := List.mem_map.1 h
        exact ⟨by rintro _ _ ⟨⟩, by rintro _ ⟨⟩⟩
      | _ => simp [matchActorReact] at h
  | matchResultDealActor host => cases msg <;> simp [react] at h
  | cluster host => cases msg <;> simp [react] at h
  | main host => simp [react] at h
  | callback host => simp [react] at h

end React

end TradingEngine.System
