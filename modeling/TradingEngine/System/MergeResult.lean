/-
The way of the trades to the merge result actor.

Two handshakes make a node known to the others: one node learns the symbols of another and
routes orders to its match actors, and independently that node learns where the results go.
A match actor that has no receiver yet drops its trades.  From the moment the receiver is
set, every trade is sent to it exactly once and in order (`results_exactly_once`).
-/
import TradingEngine.System.Steps

namespace TradingEngine.System

open Lib MatchEngine MatchEngine.Cluster

variable {H κ : Type} [DecidableEq H] [DecidableEq κ] {config : Config H}

/-! ### Receivers -/

/-- The address is that of a result actor. -/
def IsResultActor (config : Config H) (a : Address H) : Prop :=
  ∃ m, config.role m = kResultHostRoleName ∧ a = .matchResultDealActor m

/-- A message that hands on a receiver hands on a result actor. -/
def ActorPostOk (config : Config H) (post : Post H) : Prop :=
  ∀ handle, post.msg = .actor handle → IsResultActor config handle

/-- The receivers of the match actors of a node are result actors. -/
def ReceiversOk (config : Config H) (node : Node H κ) : Prop :=
  ∀ book ∈ node.books, ∀ receiver, book.matchResultActor = some receiver →
    IsResultActor config receiver

omit [DecidableEq H] [DecidableEq κ] in
lemma ThreadPost.actorPostOk {host : H} {x : MatchEngine.Action H κ} {node : Node H κ}
    {post : Post H}
    (h : ThreadPost config host x node post) :
    ActorPostOk config post := by
  intro handle hmsg
  cases h with
  | result hrole => cases hmsg; exact ⟨host, hrole, rfl⟩
  | mergeResult other hrole => cases hmsg; exact ⟨other, hrole, rfl⟩
  | _ => cases hmsg

lemma routerReact_actorPostOk (host : H) (router : SymbolRouterData H (Address H))
    {sender dst : Address H} {msg : Message H} (h : ActorPostOk config ⟨sender, dst, msg⟩) :
    ∀ e ∈ (routerReact host router sender msg).2, ActorPostOk config e := by
  intro e he handle hmsg
  cases msg with
  | actor handle' =>
    obtain ⟨a, -, rfl⟩ := List.mem_map.1 he
    obtain rfl : handle' = handle := by simpa using hmsg
    exact h _ rfl
  | rawOrder o =>
    obtain ⟨a, -, rfl⟩ := List.mem_map.1 he
    cases hmsg
  | get request =>
    rw [List.mem_singleton.1 he] at hmsg
    cases hmsg
  | _ => simp [routerReact] at he

omit [DecidableEq H] in
lemma matchActorReact_receiversOk (now : Clock) (self : Address H)
    {book : OrderBook (Address H)} {sender dst : Address H} {msg : Message H}
    (h : ActorPostOk config ⟨sender, dst, msg⟩)
    (hbook : ∀ receiver, book.matchResultActor = some receiver → IsResultActor config receiver) :
    (∀ receiver, (matchActorReact now self book msg).1.matchResultActor = some receiver →
      IsResultActor config receiver) ∧
      ∀ e ∈ (matchActorReact now self book msg).2, ActorPostOk config e := by
  cases msg with
  | rawOrder o =>
    refine ⟨fun receiver hr => hbook receiver ?_, fun e he handle hmsg => ?_⟩
    · simpa [matchActorReact] using hr
    · obtain ⟨message, -, rfl⟩ := List.mem_map.1 he
      cases hmsg
  | actor handle =>
    refine ⟨fun receiver hr => ?_, by simp [matchActorReact]⟩
    obtain rfl : handle = receiver := Option.some.inj hr
    exact h _ rfl
  | _ => exact ⟨hbook, by simp [matchActorReact]⟩

omit [DecidableEq κ] in
lemma react_receiversOk {node : Node H κ} (now : Clock) {post : Post H}
    (h : ActorPostOk config post) (hnode : ReceiversOk config node) :
    ReceiversOk config (react node now post).1 ∧
      ∀ e ∈ (react node now post).2, ActorPostOk config e := by
  obtain ⟨src, dst, msg⟩ := post
  cases dst with
  | router host => exact ⟨hnode, routerReact_actorPostOk host node.router h⟩
  | matchActor host k =>
    cases hbook : node.books[k]? with
    | none =>
      simp only [react, hbook]
      exact ⟨hnode, by simp⟩
    | some book =>
      rw [react_matchActor hbook]
      obtain ⟨hreceiver, hout⟩ := matchActorReact_receiversOk now (.matchActor host k) h
        (hnode book (List.mem_of_getElem? hbook))
      refine ⟨fun book' hbook' => ?_, hout⟩
      rcases List.mem_or_eq_of_mem_set hbook' with hold | rfl
      · exact hnode book' hold
      · exact hreceiver
  | matchResultDealActor host => cases msg <;> exact ⟨hnode, by simp [react]⟩
  | cluster host => cases msg <;> exact ⟨hnode, by simp [react]⟩
  | main host => exact ⟨hnode, by simp [react]⟩
  | callback host => exact ⟨hnode, by simp [react]⟩

/-- **Receivers are result actors**, in the books and under way. -/
lemma receivers_invariant {es : List (ClusterEvent H κ)} {s : ClusterState H κ config}
    (h : (system κ config).machine.Reaches es s) :
    (∀ host, MainOk config host (s.nodes host) ∧ ReceiversOk config (s.nodes host)) ∧
      ∀ post ∈ s.net.all, ActorPostOk config post := by
  refine ActorSystem.local_invariant
    (Q := fun host node => MainOk config host node ∧ ReceiversOk config node)
    (P := ActorPostOk config) ?_ ?_ ?_ h
  · refine fun host => ⟨fun steps hs => ?_, fun book hbook => ?_⟩
    · cases hs
    · cases hbook
  · rintro s host x node out - hQ hact
    have hspec := act_spec hact
    refine ⟨⟨hspec.mainOk (hQ host).1, fun book hbook => ?_⟩,
      fun e he => (hspec.posts (hQ host).1 e he).actorPostOk⟩
    rcases hspec.books with hbooks | hbooks <;> rw [hbooks] at hbook
    · exact (hQ host).2 book hbook
    · rcases List.mem_append.1 hbook with hbook | hbook
      · exact (hQ host).2 book hbook
      · rw [List.mem_singleton.1 hbook]
        simp
  · rintro node now post hpost ⟨hmain, hnode⟩
    obtain ⟨hnode', hout⟩ := react_receiversOk now hpost hnode
    refine ⟨⟨fun steps hs => hmain steps ?_, hnode'⟩, hout⟩
    rw [← react_main node now post]
    exact hs

/-! ### Trade lists -/

/-- The trades that a match actor executes on its book, with the receiver it has then. -/
def execution (host : H) (k : ℕ) (s : ClusterState H κ config) (e : ClusterEvent H κ) :
    List (Option (Address H) × TradeList) :=
  (handling host k s e).map fun g =>
    (g.book.matchResultActor, (matchActorOrder g.now g.book g.order).2)

/-- The executions of a match actor in the course of a run. -/
def executions (config : Config H) (κ : Type) [DecidableEq κ] (host : H) (k : ℕ)
    (es : List (ClusterEvent H κ)) : List (Option (Address H) × TradeList) :=
  (system κ config).machine.trace (execution host k) es

/-- The message with the trades, if the receiver is `d` and there are any. -/
def resultPost (host : H) (k : ℕ) (d : Address H) (x : Option (Address H) × TradeList) :
    Option (Post H) :=
  if x.1 = some d ∧ x.2 ≠ [] then some ⟨.matchActor host k, d, .tradeList x.2⟩ else none

lemma sendMatchResult_toList {host : H} {k : ℕ} {d : Address H} (receiver : Option (Address H))
    (tradeList : TradeList) :
    between (.matchActor host k) d ((sendMatchResult receiver tradeList).toList.map fun message =>
        (⟨.matchActor host k, message.1, .tradeList message.2⟩ : Post H)) =
      [(receiver, tradeList)].filterMap (resultPost host k d) := by
  unfold sendMatchResult resultPost
  cases tradeList with
  | nil => simp
  | cons t ts =>
    cases receiver with
    | none => simp
    | some a => by_cases had : a = d <;> simp [between, had]

omit [DecidableEq κ] in
lemma filterMap_resultPost (host : H) (k : ℕ) (d : Address H) (late : List TradeList) :
    (late.map fun ts => (some d, ts)).filterMap (resultPost host k d) =
      (late.filter (· ≠ [])).map fun ts => ⟨.matchActor host k, d, .tradeList ts⟩ := by
  induction late with
  | nil => rfl
  | cons ts late ih =>
    by_cases hts : ts = []
    · simpa [resultPost, hts] using ih
    · simpa [resultPost, hts] using ih

/-- **A match actor sends what it executes, to the receiver it has.** -/
lemma sent_matchActor {s : ClusterState H κ config} (e : ClusterEvent H κ) (host : H) (k : ℕ)
    (hmain : ∀ host, MainOk config host (s.nodes host)) (d : Address H) :
    between (.matchActor host k) d ((system κ config).sent s e) =
      (execution host k s e).filterMap (resultPost host k d) := by
  cases e with
  | act host' x =>
    refine between_eq_nil fun post hpost hon => ?_
    rw [ActorSystem.sent] at hpost
    cases hact : (system κ config).act s.nodes host' x with
    | none => simp [hact] at hpost
    | some r =>
      rw [hact] at hpost
      have hthread := (act_spec hact).posts (hmain host') post hpost
      cases hthread <;> cases hon.1
  | arrive src dst => rfl
  | handle a now =>
    rw [ActorSystem.sent, execution]
    cases htake : s.net.take a with
    | none => simp [handling, htake]
    | some r =>
      obtain ⟨⟨src, dst, msg⟩, net⟩ := r
      obtain rfl : dst = a := (Net.take_spec htake).1
      by_cases ha : dst = .matchActor host k
      · subst ha
        simp only [Option.map_some, Option.getD_some]
        show between _ _ (react (s.nodes host) now _).2 = _
        cases hbook : (s.nodes host).books[k]? with
        | none =>
          simp [handling, htake, bookAt, hbook, react]
        | some book =>
          rw [react_matchActor hbook]
          cases msg with
          | rawOrder order =>
            have hhandling : handling host k s (.handle (.matchActor host k) now) =
                [⟨now, book, order⟩] := by
              simp [handling, htake, bookAt, hbook]
            rw [hhandling, List.map_singleton, ← sendMatchResult_toList]
            simp only [matchActorReact, Matching.matchActorOrder_matchResultActor]
          | _ => simp [handling, htake, matchActorReact]
      · rw [handling_of_ne ha]
        refine between_eq_nil fun post hpost hon => ha ?_
        rw [← hon.1]
        exact (react_src _ _ _ post hpost).symm

/-- The executions of a match actor: first some without a receiver, then some with the
result actor as receiver; once it is set, it stays set. -/
lemma executions_split {m : H} (hm : ∀ host, config.role host = kResultHostRoleName → host = m)
    {es : List (ClusterEvent H κ)} {s : ClusterState H κ config}
    (h : (system κ config).machine.Reaches es s) (host : H) (k : ℕ) :
    ∃ early late : List TradeList, executions config κ host k es =
        early.map (fun ts => (none, ts)) ++
          late.map (fun ts => (some (.matchResultDealActor m), ts)) ∧
      (late ≠ [] → ∃ book, bookAt s host k = some book ∧
        book.matchResultActor = some (.matchResultDealActor m)) := by
  have hresult : ∀ {a}, IsResultActor config a → a = .matchResultDealActor m := by
    rintro a ⟨host, hrole, rfl⟩
    rw [hm host hrole]
  refine h.invariant (P := fun es s => ∃ early late : List TradeList,
    executions config κ host k es = early.map (fun ts => (none, ts)) ++
        late.map (fun ts => (some (.matchResultDealActor m), ts)) ∧
      (late ≠ [] → ∃ book, bookAt s host k = some book ∧
        book.matchResultActor = some (.matchResultDealActor m))) ⟨[], [], rfl, by simp⟩ ?_
  rintro es s e s' hrun ⟨early, late, heq, hlate⟩ - hstep
  obtain ⟨hnodes, hposts⟩ := receivers_invariant hrun
  have htrace : executions config κ host k (es ++ [e]) =
      executions config κ host k es ++ execution host k s e := hrun.trace_concat _ e
  rw [htrace, heq]
  rcases bookAt_cases hstep host k with ⟨hnone, hbook⟩ | ⟨hnone, hbook, hbook'⟩ |
    ⟨book, receiver, post, hnone, hbook, hpost, hmsg, hbook'⟩ |
    ⟨now, book, order, post, net, -, -, -, hone, hbook, hbook'⟩
  · refine ⟨early, late, by simp [execution, hnone], fun hne => ?_⟩
    rw [hbook]
    exact hlate hne
  · refine ⟨early, late, by simp [execution, hnone], fun hne => ?_⟩
    obtain ⟨book, hsome, -⟩ := hlate hne
    rw [hbook] at hsome
    cases hsome
  · refine ⟨early, late, by simp [execution, hnone], fun _ => ⟨_, hbook', ?_⟩⟩
    rw [← hresult (hposts post hpost receiver hmsg)]
    rfl
  · cases hr : book.matchResultActor with
    | none =>
      -- nothing has been executed with a receiver yet
      obtain rfl : late = [] := by
        by_contra hne
        obtain ⟨book', hsome, hset⟩ := hlate hne
        rw [hbook, Option.some.injEq] at hsome
        rw [← hsome, hr] at hset
        cases hset
      exact ⟨early ++ [(matchActorOrder now book order).2], [],
        by simp [execution, hone, hr], by simp⟩
    | some receiver =>
      have hreceiver := hresult ((hnodes host).2 book (List.mem_of_getElem? hbook) receiver hr)
      refine ⟨early, late ++ [(matchActorOrder now book order).2],
        by simp [execution, hone, hr, hreceiver], fun _ => ⟨_, hbook', ?_⟩⟩
      rw [Matching.matchActorOrder_matchResultActor, hr, hreceiver]

/-- **Results are delivered exactly once and in order, from the first one with a receiver
on.**  The executions of a match actor are some without a receiver, whose trades are sent to
nobody, followed by the ones with the result actor as receiver; the nonempty trade lists of
these, in order, are what the result actor has received from it and what is under way. -/
theorem results_exactly_once (config : Config H) (m : H)
    (hm : ∀ host, config.role host = kResultHostRoleName → host = m)
    (es : List (ClusterEvent H κ)) (s : ClusterState H κ config)
    (h : (system κ config).machine.Reaches es s) (host : H) (k : ℕ) :
    ∃ early late : List TradeList, executions config κ host k es =
        early.map (fun ts => (none, ts)) ++
          late.map (fun ts => (some (.matchResultDealActor m), ts)) ∧
      ((late.filter (· ≠ [])).map fun ts =>
          (⟨.matchActor host k, .matchResultDealActor m, .tradeList ts⟩ : Post H)) =
        (system κ config).machine.trace (fun s e => between (.matchActor host k)
          (.matchResultDealActor m) ((system κ config).received s e)) es ++
          s.net.pending (.matchActor host k) (.matchResultDealActor m) ∧
      ∀ d, d ≠ .matchResultDealActor m → (system κ config).machine.trace (fun s e =>
        between (.matchActor host k) d ((system κ config).sent s e)) es = [] := by
  obtain ⟨early, late, heq, -⟩ := executions_split hm h host k
  have hsent : ∀ d, (system κ config).machine.trace (fun s e =>
      between (.matchActor host k) d ((system κ config).sent s e)) es =
        (executions config κ host k es).filterMap (resultPost host k d) := fun d =>
    h.trace_filterMap fun es s e hrun _ =>
      sent_matchActor e host k (fun host => ((receivers_invariant hrun).1 host).1) d
  refine ⟨early, late, heq, ?_, fun d hd => ?_⟩
  · rw [← ActorSystem.channel h, hsent, heq, List.filterMap_append]
    have hearly : (early.map fun ts => ((none : Option (Address H)), ts)).filterMap
        (resultPost host k (.matchResultDealActor m)) = [] := by
      simp [List.filterMap_map, resultPost, Function.comp_def]
    rw [hearly, List.nil_append, filterMap_resultPost]
  · rw [hsent, heq]
    simp [List.filterMap_map, resultPost, Function.comp_def, hd.symm]

/-- The first node learns the result actor of the second. -/
def learnResultActor : List (ClusterEvent Bool Unit) :=
  [.act false (.addNewNode true true), .arrive (.cluster false) (.router true),
    .handle (.router true) 0, .arrive (.router true) (.cluster false),
    .handle (.cluster false) 0, .act false (.fetchMergeResult 0 true),
    .handle (.router false) 0, .handle (.matchActor false 0) 0]

/-- One trade before the result actor is known, and one after. -/
theorem results_of_twoNodes :
    let es := twoNodesStart ++ routeOrder (orderOf 1 .tradingSell (.ofInt 7)) ++
      routeOrder (orderOf 2 .tradingBuy (.ofInt 3)) ++ learnResultActor ++
      routeOrder (orderOf 3 .tradingBuy (.ofInt 4))
    ∃ s, (system Unit twoNodes).machine.Reaches es s ∧
      ∃ early late : List TradeList, executions twoNodes Unit false 0 es =
          early.map (fun ts => (none, ts)) ++
            late.map (fun ts => (some (.matchResultDealActor true), ts)) ∧
        ((late.filter (· ≠ [])).map fun ts =>
            (⟨.matchActor false 0, .matchResultDealActor true, .tradeList ts⟩ : Post Bool)) =
          (system Unit twoNodes).machine.trace (fun s e => between (.matchActor false 0)
            (.matchResultDealActor true) ((system Unit twoNodes).received s e)) es ++
            s.net.pending (.matchActor false 0) (.matchResultDealActor true) ∧
        ∀ d, d ≠ .matchResultDealActor true → (system Unit twoNodes).machine.trace (fun s e =>
          between (.matchActor false 0) d ((system Unit twoNodes).sent s e)) es = [] := by
  have hrun : (system Unit twoNodes).machine.admits (fun _ _ => True)
      (twoNodesStart ++ routeOrder (orderOf 1 .tradingSell (.ofInt 7)) ++
        routeOrder (orderOf 2 .tradingBuy (.ofInt 3)) ++ learnResultActor ++
        routeOrder (orderOf 3 .tradingBuy (.ofInt 4))) := by decide
  obtain ⟨s, hs⟩ := Machine.exists_run _ hrun
  exact ⟨s, hs, results_exactly_once twoNodes true (by decide) _ s hs false 0⟩

/-- A trade can be executed and its result lost: the second node knows the match actor of
the first, which does not know the result actor yet. -/
theorem results_discarded :
    ¬ ∀ (es : List (ClusterEvent Bool Unit)) (s : ClusterState Bool Unit twoNodes),
      (system Unit twoNodes).machine.Reaches es s →
        ∀ x ∈ executions twoNodes Unit false 0 es, x.2 ≠ [] →
          (⟨.matchActor false 0, .matchResultDealActor true, .tradeList x.2⟩ : Post Bool) ∈
            (system Unit twoNodes).machine.trace (system Unit twoNodes).sent es := by
  intro hall
  have hrun : (system Unit twoNodes).machine.admits (fun _ _ => True)
      (twoNodesStart ++ routeOrder (orderOf 1 .tradingSell (.ofInt 5)) ++
        routeOrder (orderOf 2 .tradingBuy (.ofInt 5))) := by decide
  obtain ⟨s, hs⟩ := Machine.exists_run _ hrun
  have hlost := hall _ s hs (none, [⟨1, 2, .buy, 5, 100, 10, 10, 7, 2, 0⟩]) (by decide) (by decide)
  exact absurd hlost (by decide)

end TradingEngine.System
