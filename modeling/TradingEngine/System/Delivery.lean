/-
The way of the trades to a subscriber.

A match actor sends its trades to the merge result actor, and this one writes them to every
subscriber.  Once the actor of a symbol knows the result actor, what a subscriber reads of the
symbol are the trades that are made of it, each once and in order (`delivered_eq`).
-/
import TradingEngine.System.MergeResult
import TradingEngine.System.Placement
import TradingEngine.System.Projection

namespace TradingEngine.System

open Lib MatchEngine MatchEngine.Cluster Matching

variable {H κ : Type} [DecidableEq H] [DecidableEq κ] {config : Config H}

/-- The trades of a message. -/
def resultsOf (post : Post H) : TradeList :=
  match post.msg with
  | .tradeList ts => ts
  | _ => []

/-! ### Before the first order -/

/-- No order comes in. -/
def WithoutMatch (_ : ClusterState H κ config) (e : ClusterEvent H κ) : Prop := IsMatch e = false

instance (s : ClusterState H κ config) (e : ClusterEvent H κ) : Decidable (WithoutMatch s e) :=
  inferInstanceAs (Decidable (IsMatch e = false))

/-- A cluster that has had no orders. -/
structure Fresh (s : ClusterState H κ config) : Prop where
  books : ∀ host, ∀ book ∈ (s.nodes host).books, book.sellList = [] ∧ book.buyList = []
  written : ∀ host, (s.nodes host).written = []
  posts : ∀ post ∈ s.net.all, ordersOf post = [] ∧ resultsOf post = []

omit [DecidableEq κ] in
/-- Without orders and trades in messages, a handler keeps the books empty. -/
lemma react_fresh {node : Node H κ} (now : Clock) {post : Post H}
    (hpost : ordersOf post = [] ∧ resultsOf post = [])
    (hbooks : ∀ book ∈ node.books, book.sellList = [] ∧ book.buyList = [])
    (hwritten : node.written = []) :
    ((∀ book ∈ (react node now post).1.books, book.sellList = [] ∧ book.buyList = []) ∧
      (react node now post).1.written = []) ∧
      ∀ post' ∈ (react node now post).2, ordersOf post' = [] ∧ resultsOf post' = [] := by
  obtain ⟨src, dst, msg⟩ := post
  cases dst with
  | router host =>
    refine ⟨⟨hbooks, hwritten⟩, fun post' hpost' => ?_⟩
    change post' ∈ (routerReact host node.router src msg).2 at hpost'
    cases msg with
    | rawOrder o => cases hpost.1
    | get request =>
      rw [List.mem_singleton.1 hpost']
      exact ⟨rfl, rfl⟩
    | actor handle =>
      obtain ⟨a, -, rfl⟩ := List.mem_map.1 hpost'
      exact ⟨rfl, rfl⟩
    | _ => cases hpost'
  | matchActor host k =>
    cases hbook : node.books[k]? with
    | none =>
      simp only [react, hbook]
      exact ⟨⟨hbooks, hwritten⟩, by simp⟩
    | some book =>
      rw [react_matchActor hbook]
      have hold := hbooks book (List.mem_of_getElem? hbook)
      have hmsg : (matchActorReact now (.matchActor host k) book msg).2 = [] ∧
          (matchActorReact now (.matchActor host k) book msg).1.sellList = book.sellList ∧
          (matchActorReact now (.matchActor host k) book msg).1.buyList = book.buyList := by
        cases msg with
        | rawOrder o => cases hpost.1
        | _ => exact ⟨rfl, rfl, rfl⟩
      obtain ⟨hout, hsell, hbuy⟩ := hmsg
      refine ⟨⟨fun book' hbook' => ?_, hwritten⟩, by simp [hout]⟩
      rcases List.mem_or_eq_of_mem_set hbook' with hmem | rfl
      · exact hbooks book' hmem
      · rw [hsell, hbuy]
        exact hold
  | matchResultDealActor host =>
    cases msg with
    | tradeList ts =>
      obtain rfl : ts = [] := hpost.2
      exact ⟨⟨hbooks, hwritten⟩, by simp [react]⟩
    | _ => exact ⟨⟨hbooks, hwritten⟩, by simp [react]⟩
  | cluster host => cases msg <;> exact ⟨⟨hbooks, hwritten⟩, by simp [react]⟩
  | main host => exact ⟨⟨hbooks, hwritten⟩, by simp [react]⟩
  | callback host => exact ⟨⟨hbooks, hwritten⟩, by simp [react]⟩

/-- **A cluster in which no order has come in** has empty books, and nothing is under way to a
subscriber. -/
theorem fresh_of_run {es : List (ClusterEvent H κ)} {s : ClusterState H κ config}
    (h : (system κ config).machine.Run WithoutMatch es s) : Fresh s := by
  have hinv := ActorSystem.local_invariant
    (Q := fun host node => MainOk config host node ∧
      (∀ book ∈ node.books, book.sellList = [] ∧ book.buyList = []) ∧ node.written = [])
    (P := fun post => ordersOf post = [] ∧ resultsOf post = []) ?_ ?_ ?_ h
  · exact ⟨fun host => (hinv.1 host).2.1, fun host => (hinv.1 host).2.2, hinv.2⟩
  · refine fun host => ⟨fun steps hs => ?_, fun book hbook => ?_, rfl⟩
    · cases hs
    · cases hbook
  · intro s host x node out hG hQ hact
    obtain ⟨hmain, hbooks, hwritten⟩ := hQ host
    have hspec := act_spec hact
    refine ⟨⟨hspec.mainOk hmain, fun book hbook => ?_, ?_⟩, fun post hpost => ?_⟩
    · rcases hspec.books with heq | heq <;> rw [heq] at hbook
      · exact hbooks book hbook
      · rcases List.mem_append.1 hbook with hbook | hbook
        · exact hbooks book hbook
        · rw [List.mem_singleton.1 hbook]
          exact ⟨rfl, rfl⟩
    · have hsub := hspec.written
      rw [hwritten] at hsub
      exact List.eq_nil_of_sublist_nil hsub
    · have hthread := hspec.posts hmain post hpost
      cases hthread with
      | order hx _ _ =>
        subst hx
        cases hG
      | _ => exact ⟨rfl, rfl⟩
  · rintro node now post hpost ⟨hmain, hbooks, hwritten⟩
    obtain ⟨hnode, hout⟩ := react_fresh now hpost hbooks hwritten
    refine ⟨⟨fun steps hs => hmain steps ?_, hnode⟩, hout⟩
    rw [← react_main node now post]
    exact hs

/-! ### The stream of a subscriber -/

/-- What was written to a subscriber at `m` and not read yet. -/
def streamOf (m : H) (c : κ) (s : ClusterState H κ config) : List MatchEngineProto.Trade :=
  ((s.nodes m).written.filter fun w => w.1 = c).map Prod.snd

/-- The trade that the subscriber reads. -/
def readTrade (m : H) (c : κ) (s : ClusterState H κ config) :
    ClusterEvent H κ → List MatchEngineProto.Trade
  | .act host (.read writer) =>
    if host = m ∧ writer = c then (streamOf m c s).head?.toList else []
  | _ => []

/-- The trades that the result actor of `m` takes. -/
def resultsTaken (m : H) (s : ClusterState H κ config) (e : ClusterEvent H κ) : TradeList :=
  (((system κ config).received s e).filter fun post =>
    post.dst = .matchResultDealActor m).flatMap resultsOf

/-- What is left of the streams after a step of a thread. -/
def leftAfter (written : List (κ × MatchEngineProto.Trade)) :
    MatchEngine.Action H κ → List (κ × MatchEngineProto.Trade)
  | .read writer => written.eraseP fun w => w.1 = writer
  | _ => written

/-- The new subscribers of a step of a thread. -/
def subscribedBy : MatchEngine.Action H κ → List κ
  | .subscribe writer => [writer]
  | _ => []

/-- A thread that neither reads nor subscribes leaves the streams and the subscribers alone. -/
lemma act_stream {nodes : H → Node H κ} {host : H} {x : MatchEngine.Action H κ} {node : Node H κ}
    {out : List (Post H)} (h : act config nodes host x = some (node, out)) :
    node.written = leftAfter (nodes host).written x ∧
      node.grpc.matchResultWriterKeepers =
        (nodes host).grpc.matchResultWriterKeepers ++ subscribedBy x := by
  cases x with
  | boot | serve | addNewNode _ _ | actorSystemDown _ | «match» _ | subscribe _ | read _ =>
    simp only [act, addNewNode] at h
    split_ifs at h <;> obtain ⟨rfl, -⟩ := Prod.mk.inj (Option.some.inj h) <;>
      simp [MatchEngineGRPCImpl.subscribeMatchResult, leftAfter, subscribedBy]
  | openCloseEngine status =>
    simp only [act] at h
    split_ifs at h
    obtain ⟨rfl, -⟩ := Prod.mk.inj (Option.some.inj h)
    cases status <;> simp [MatchEngineGRPCImpl.openCloseEngine, leftAfter, subscribedBy]
  | mainStep =>
    simp only [act] at h
    split at h
    · rename_i step steps _
      cases step <;> obtain ⟨rfl, -⟩ := Prod.mk.inj (Option.some.inj h) <;>
        simp [leftAfter, subscribedBy]
    · cases h
  | requestFailed _ | sendSymbol _ | fetchMergeResult _ _ =>
    simp only [act] at h
    split at h
    · obtain ⟨rfl, -⟩ := Prod.mk.inj (Option.some.inj h)
      simp [leftAfter, subscribedBy]
    · cases h

omit [DecidableEq κ] in
/-- Only the result actor writes to the subscribers. -/
lemma react_stream (node : Node H κ) (now : Clock) (post : Post H) :
    (react node now post).1.grpc = node.grpc ∧
      (react node now post).1.written = node.written ++
        (if post.dst = .matchResultDealActor post.dst.host then resultsOf post else []).flatMap
          fun t => node.grpc.matchResultWriterKeepers.map fun writer =>
            (writer, MatchEngineGRPCImpl.grpcTrade t) := by
  obtain ⟨src, dst, msg⟩ := post
  cases dst with
  | matchActor host k => cases hbook : node.books[k]? <;> simp [react, hbook]
  | matchResultDealActor host =>
    cases msg with
    | tradeList ts => simp [react, sendMatchResult_write, resultsOf, Address.host]
    | _ => simp [react, resultsOf]
  | cluster host => cases msg <;> simp [react]
  | _ => simp [react]

/-- What a subscriber gets of a trade that is written to all of them. -/
lemma stream_of_keepers (c : κ) (message : MatchEngineProto.Trade) (keepers : List κ) :
    ((keepers.map fun writer => (writer, message)).filter fun w => w.1 = c).map Prod.snd =
      List.replicate (keepers.count c) message := by
  induction keepers with
  | nil => rfl
  | cons writer keepers ih =>
    by_cases hc : writer = c
    · subst hc
      rw [List.map_cons, List.filter_cons_of_pos (by simp), List.map_cons, ih,
        List.count_cons_self, List.replicate_succ]
    · rw [List.map_cons, List.filter_cons_of_neg (by simpa using hc), ih,
        List.count_cons_of_ne hc]

/-- Who has subscribed once gets every trade once. -/
lemma stream_of_trades {c : κ} {keepers : List κ} (hkeepers : keepers.count c = 1)
    (ts : TradeList) :
    ((ts.flatMap fun t => keepers.map fun writer =>
        (writer, MatchEngineGRPCImpl.grpcTrade t)).filter fun w => w.1 = c).map Prod.snd =
      ts.map MatchEngineGRPCImpl.grpcTrade := by
  induction ts with
  | nil => rfl
  | cons t ts ih =>
    rw [List.flatMap_cons, List.filter_append, List.map_append, ih, stream_of_keepers, hkeepers]
    rfl

/-- The reader of a stream takes its first trade. -/
lemma stream_of_read (c writer : κ) (written : List (κ × MatchEngineProto.Trade)) :
    (written.filter fun w => w.1 = c).map Prod.snd =
      (if writer = c then ((written.filter fun w => w.1 = c).map Prod.snd).head?.toList else []) ++
        ((written.eraseP fun w => w.1 = writer).filter fun w => w.1 = c).map Prod.snd := by
  induction written with
  | nil => simp
  | cons w written ih =>
    by_cases hw : w.1 = writer
    · rw [List.eraseP_cons_of_pos (by simpa using hw)]
      by_cases hc : writer = c
      · rw [if_pos hc, List.filter_cons_of_pos (by simpa using hw.trans hc)]
        simp
      · rw [if_neg hc, List.filter_cons_of_neg (by rw [hw]; simpa using hc), List.nil_append]
    · rw [List.eraseP_cons_of_neg (by simpa using hw)]
      by_cases hc : writer = c
      · have hne : ¬ w.1 = c := fun h => hw (h.trans hc.symm)
        rw [List.filter_cons_of_neg (by simpa using hne),
          List.filter_cons_of_neg (by simpa using hne)]
        exact ih
      · rw [if_neg hc, List.nil_append] at ih ⊢
        by_cases hwc : w.1 = c
        · rw [List.filter_cons_of_pos (by simpa using hwc),
            List.filter_cons_of_pos (by simpa using hwc), List.map_cons, List.map_cons, ih]
        · rw [List.filter_cons_of_neg (by simpa using hwc),
            List.filter_cons_of_neg (by simpa using hwc), ih]

section Stream

variable {m : H} {c : κ}

/-- The subscriber subscribes no second time. -/
def NoSubscription (m : H) (c : κ) (_ : ClusterState H κ config) : ClusterEvent H κ → Prop
  | .act host (.subscribe writer) => ¬ (host = m ∧ writer = c)
  | _ => True

/-- **One step of a stream**: the trades that the result actor takes are added, and what is read
is taken from the front. -/
lemma stream_step {s s' : ClusterState H κ config} {e : ClusterEvent H κ}
    (hkeepers : (s.nodes m).grpc.matchResultWriterKeepers.count c = 1)
    (h : (system κ config).step s e = some s') :
    streamOf m c s ++ (resultsTaken m s e).map MatchEngineGRPCImpl.grpcTrade =
      readTrade m c s e ++ streamOf m c s' := by
  rcases ActorSystem.step_cases h with ⟨host, x, node, out, rfl, hact, rfl⟩ |
    ⟨a, now, post, net, rfl, htake, hdst, rfl⟩ | ⟨src, dst, net, rfl, harrive, rfl⟩
  -- a thread takes no results; the one that reads takes the first trade of the stream
  · have hresults : (resultsTaken m s (.act host x)).map MatchEngineGRPCImpl.grpcTrade = [] := rfl
    rw [hresults, List.append_nil]
    rcases eq_or_ne m host with rfl | hne
    · rw [streamOf, streamOf, ActorSystem.put_nodes_self, (act_stream hact).1]
      cases x with
      | read writer =>
        have hread := stream_of_read c writer (s.nodes m).written
        rw [readTrade, streamOf]
        simpa [leftAfter] using hread
      | _ => rfl
    · rw [streamOf, streamOf, ActorSystem.put_nodes_ne _ _ _ _ hne]
      cases x with
      | read writer =>
        rw [readTrade, if_neg fun hhost => hne hhost.1.symm]
        rfl
      | _ => rfl
  · have hread : readTrade m c s (.handle a now) = [] := rfl
    have hreceived : (system κ config).received s (.handle a now) = [post] := by
      simp [ActorSystem.received, htake]
    rw [hread, List.nil_append, resultsTaken, hreceived]
    rcases eq_or_ne m a.host with rfl | hne
    · -- the subscriber's node handles the message
      rw [streamOf, streamOf, show (system κ config).host a = a.host from rfl,
        ActorSystem.put_nodes_self]
      change _ = List.map Prod.snd (List.filter _ (react (s.nodes a.host) now post).1.written)
      rw [(react_stream (s.nodes a.host) now post).2, List.filter_append, List.map_append,
        stream_of_trades hkeepers, hdst]
      by_cases ha : a = .matchResultDealActor a.host
      · rw [if_pos ha, List.filter_cons_of_pos (by simpa [hdst] using ha), List.filter_nil,
          List.flatMap_singleton]
      · rw [if_neg ha, List.filter_cons_of_neg (by simpa [hdst] using ha), List.filter_nil]
        rfl
    -- a message to another node is no result for this one
    · have ha : ¬ post.dst = .matchResultDealActor m := by
        rw [hdst]
        rintro rfl
        exact hne rfl
      rw [List.filter_cons_of_neg (by simpa using ha), List.filter_nil, streamOf, streamOf,
        show (system κ config).host a = a.host from rfl, ActorSystem.put_nodes_ne _ _ _ _ hne]
      exact List.append_nil _
  · exact List.append_nil _

/-- Who has subscribed once stays subscribed. -/
lemma keepers_of_run {s₀ s : ClusterState H κ config} {es : List (ClusterEvent H κ)}
    (hkeepers : (s₀.nodes m).grpc.matchResultWriterKeepers.count c = 1)
    (h : ((system κ config).machine.startAt s₀).Run (NoSubscription m c) es s) :
    (s.nodes m).grpc.matchResultWriterKeepers.count c = 1 := by
  refine h.invariant (P := fun _ s =>
    (s.nodes m).grpc.matchResultWriterKeepers.count c = 1) hkeepers ?_
  intro es s e s' _ ih hG hstep
  rcases ActorSystem.nodes_of_step hstep m with hnode | ⟨x, out, rfl, hact⟩ |
    ⟨now, post, -, -, hnode⟩
  · rw [hnode]
    exact ih
  · have hnone : (subscribedBy x).count c = 0 := by
      rw [List.count_eq_zero]
      intro hmem
      cases x with
      | subscribe writer =>
        obtain rfl := List.mem_singleton.1 hmem
        exact hG ⟨rfl, rfl⟩
      | _ => cases hmem
    rw [(act_stream hact).2, List.count_append, hnone, ih]
  · rw [hnode]
    change (react (s.nodes m) now post).1.grpc.matchResultWriterKeepers.count c = 1
    rw [(react_stream (s.nodes m) now post).1]
    exact ih

/-- **The subscriber reads what the result actor takes.** -/
lemma read_eq_taken {s₀ s : ClusterState H κ config} {es : List (ClusterEvent H κ)}
    (hkeepers : (s₀.nodes m).grpc.matchResultWriterKeepers.count c = 1)
    (h : ((system κ config).machine.startAt s₀).Run (NoSubscription m c) es s)
    (hstart : streamOf m c s₀ = []) (hend : streamOf m c s = []) :
    ((system κ config).machine.startAt s₀).trace (readTrade m c) es =
      (((system κ config).machine.startAt s₀).trace (resultsTaken m) es).map
        MatchEngineGRPCImpl.grpcTrade := by
  have hchannel : streamOf m c s₀ ++ ((system κ config).machine.startAt s₀).trace
      (fun s e => (resultsTaken m s e).map MatchEngineGRPCImpl.grpcTrade) es =
        ((system κ config).machine.startAt s₀).trace (readTrade m c) es ++ streamOf m c s :=
    h.channel_from fun es s e s' hrun _ hstep => stream_step (keepers_of_run hkeepers hrun) hstep
  rw [hend, List.append_nil, h.trace_map] at hchannel
  rw [← hchannel]
  change streamOf m c s₀ ++ _ = _
  rw [hstart, List.nil_append]

end Stream

/-! ### The trades of a symbol -/

/-- Trades are sent by match actors that make them. -/
lemma made_of_sent {s : ClusterState H κ config} {e : ClusterEvent H κ}
    (hmain : ∀ host, MainOk config host (s.nodes host)) {post : Post H}
    (hpost : post ∈ (system κ config).sent s e) {t : MatchedTrade} (ht : t ∈ resultsOf post) :
    t ∈ madeTrades s e ∧ ∃ host k now, post.src = .matchActor host k ∧
      e = .handle post.src now := by
  have hmade : ∀ host k, post.src = .matchActor host k →
      ∃ x ∈ handling host k s e, t ∈ (matchActorOrder x.now x.book x.order).2 := by
    intro host k hsrc
    -- a post of a match actor belongs to an order that it handles
    have hbetween : post ∈ between (.matchActor host k) post.dst ((system κ config).sent s e) :=
      mem_between.2 ⟨hpost, hsrc, rfl⟩
    rw [sent_matchActor e host k hmain] at hbetween
    obtain ⟨x, hx, hresult⟩ := List.mem_filterMap.1 hbetween
    obtain ⟨g, hg, rfl⟩ := List.mem_map.1 hx
    unfold resultPost at hresult
    split_ifs at hresult
    rw [← Option.some.inj hresult] at ht
    exact ⟨g, hg, ht⟩
  cases e with
  | act host x =>
    rcases ActorSystem.sent_cases hpost with ⟨host', x', node, out, -, hact, hout⟩ | ⟨_, _, hmem, -⟩
    · have hthread := (act_spec hact).posts (hmain host') post hout
      cases hthread <;> cases ht
    · cases hmem
  | arrive src dst => cases hpost
  | handle a now =>
    rw [ActorSystem.sent] at hpost
    cases htake : s.net.take a with
    | none => simp [htake] at hpost
    | some r =>
      obtain ⟨⟨src, dst, msg⟩, net⟩ := r
      obtain rfl : dst = a := (Net.take_spec htake).1
      simp only [htake, Option.map_some, Option.getD_some] at hpost
      have hsrc : post.src = dst := react_src _ now _ post hpost
      change post ∈ (react (s.nodes dst.host) now ⟨src, dst, msg⟩).2 at hpost
      cases dst with
      | matchActor host k =>
        obtain ⟨x, hx, hmem⟩ := hmade host k hsrc
        exact ⟨List.mem_flatMap.2 ⟨x, hx, hmem⟩, host, k, now, hsrc, by rw [hsrc]⟩
      | router host =>
        -- a router forwards orders and receivers
        cases msg with
        | rawOrder o =>
          obtain ⟨a, -, rfl⟩ := List.mem_map.1 hpost
          cases ht
        | get request =>
          rw [List.mem_singleton.1 hpost] at ht
          cases ht
        | actor handle =>
          obtain ⟨a, -, rfl⟩ := List.mem_map.1 hpost
          cases ht
        | _ => cases hpost
      | matchResultDealActor host => cases msg <;> cases hpost
      | cluster host => cases msg <;> cases hpost
      | main host => cases hpost
      | callback host => cases hpost

/-- The actor of the symbol sends its results to the result actor of `m`. -/
def SendsTo (n m : H) (symbolId : ℤ) (s : ClusterState H κ config) : Prop :=
  match (s.nodes n).router.symbolActor symbolId with
  | some (.matchActor host k) =>
    (bookAt s host k).bind OrderBook.matchResultActor = some (.matchResultDealActor m)
  | _ => True

instance (n m : H) (symbolId : ℤ) (s : ClusterState H κ config) :
    Decidable (SendsTo n m symbolId s) := by
  unfold SendsTo
  split <;> infer_instance

/-- Nothing is under way to a subscriber at `m`, and no order is under way. -/
structure Idle (m : H) (c : κ) (s : ClusterState H κ config) : Prop where
  posts : ∀ post ∈ s.net.all, ordersOf post = [] ∧ resultsOf post = []
  stream : streamOf m c s = []

instance (m : H) (c : κ) (s : ClusterState H κ config) : Decidable (Idle m c s) :=
  decidable_of_iff ((∀ post ∈ s.net.all, ordersOf post = [] ∧ resultsOf post = []) ∧
    streamOf m c s = []) ⟨fun h => ⟨h.1, h.2⟩, fun h => ⟨h.posts, h.stream⟩⟩

lemma Fresh.idle {s : ClusterState H κ config} (h : Fresh s) (m : H) (c : κ) : Idle m c s where
  posts := h.posts
  stream := by rw [streamOf, h.written m]; rfl

lemma Idle.drained {m : H} {c : κ} {s : ClusterState H κ config} (h : Idle m c s) (symbolId : ℤ) :
    Drained symbolId s := by
  intro post hpost order horder
  rw [(h.posts post hpost).1] at horder
  cases horder

section Trades

variable {n m : H} {c : κ} {symbolId : ℤ} {es₀ : List (ClusterEvent H κ)}
  {s₀ : ClusterState H κ config} {es : List (ClusterEvent H κ)} {s : ClusterState H κ config}

/-- **The trades under way**: those of the symbol come from the actor that the router of `n` has
for it, and no others do. -/
lemma resultsOf_of_run (h₀ : (system κ config).machine.Reaches es₀ s₀) (hidle : Idle m c s₀)
    (h : ((system κ config).machine.startAt s₀).Run (Settled n symbolId) es s) :
    ∀ post ∈ s.net.all, ∀ t ∈ resultsOf post,
      (t.symbolId = symbolId ↔ (s₀.nodes n).router.symbolActor symbolId = some post.src) := by
  refine h.invariant (P := fun _ s => ∀ post ∈ s.net.all, ∀ t ∈ resultsOf post,
    (t.symbolId = symbolId ↔ (s₀.nodes n).router.symbolActor symbolId = some post.src)) ?_ ?_
  · intro post hpost t ht
    rw [(hidle.posts post hpost).2] at ht
    cases ht
  · intro es s e s' hrun ih _ hstep post hpost t ht
    rcases ActorSystem.mem_all_of_step hstep hpost with hpost | hpost
    · exact ih post hpost t ht
    · obtain ⟨hmade, host, k, now, hsrc, rfl⟩ :=
        made_of_sent (mainOk_of_run (h₀.append hrun)) hpost ht
      have hfilter := madeTrades_filter h₀ (hidle.drained symbolId) hrun rfl
        (.handle post.src now)
      have hmem : t ∈ (madeTrades s (.handle post.src now)).filter
          (fun t => t.symbolId = symbolId) ↔ t.symbolId = symbolId := by
        simp [List.mem_filter, hmade]
      rw [hfilter] at hmem
      rw [← hmem]
      by_cases heq : some post.src = (s₀.nodes n).router.symbolActor symbolId
      · simp [heq, hmade]
      · simp [heq, eq_comm]

/-- **A receiver stays**, since there is one result actor. -/
lemma receiver_of_run (hm : ∀ host, config.role host = kResultHostRoleName → host = m)
    (h₀ : (system κ config).machine.Reaches es₀ s₀)
    {G : ClusterState H κ config → ClusterEvent H κ → Prop}
    (h : ((system κ config).machine.startAt s₀).Run G es s) {host : H} {k : ℕ}
    (hreceiver : (bookAt s₀ host k).bind OrderBook.matchResultActor =
      some (.matchResultDealActor m)) :
    (bookAt s host k).bind OrderBook.matchResultActor = some (.matchResultDealActor m) := by
  refine h.invariant (P := fun _ s => (bookAt s host k).bind OrderBook.matchResultActor =
    some (.matchResultDealActor m)) hreceiver ?_
  intro es s e s' hrun ih _ hstep
  rcases bookAt_cases hstep host k with ⟨-, hbook⟩ | ⟨-, hbook, -⟩ |
    ⟨book, receiver, post, -, hbook, hpost, hmsg, hbook'⟩ |
    ⟨now, book, order, -, -, -, -, -, -, hbook, hbook'⟩
  · rw [hbook]
    exact ih
  · rw [hbook] at ih
    cases ih
  · obtain ⟨m', hrole, rfl⟩ := (receivers_invariant (h₀.append hrun)).2 post hpost receiver hmsg
    rw [hbook', hm m' hrole]
    rfl
  · rw [hbook] at ih
    rw [hbook', Option.bind_some, matchActorOrder_matchResultActor]
    exact ih

/-- The actor of the symbol sends what it makes. -/
lemma sent_eq_handling (hm : ∀ host, config.role host = kResultHostRoleName → host = m)
    (h₀ : (system κ config).machine.Reaches es₀ s₀)
    {G : ClusterState H κ config → ClusterEvent H κ → Prop}
    (h : ((system κ config).machine.startAt s₀).Run G es s) {host : H} {k : ℕ}
    (hreceiver : (bookAt s₀ host k).bind OrderBook.matchResultActor =
      some (.matchResultDealActor m)) (e : ClusterEvent H κ) :
    (between (.matchActor host k) (.matchResultDealActor m)
        ((system κ config).sent s e)).flatMap resultsOf =
      (handling host k s e).flatMap fun x => (matchActorOrder x.now x.book x.order).2 := by
  have hrun := h₀.append h
  rw [sent_matchActor e host k (mainOk_of_run hrun), execution, List.filterMap_map]
  have hhandling : ∀ x ∈ handling host k s e,
      x.book.matchResultActor = some (.matchResultDealActor m) := by
    intro x hx
    have hkeep := receiver_of_run hm h₀ h hreceiver
    rw [bookAt_of_mem_handling hx] at hkeep
    exact hkeep
  generalize handling host k s e = xs at hhandling ⊢
  induction xs with
  | nil => rfl
  | cons x xs ih =>
    have hx := hhandling x List.mem_cons_self
    have hxs := ih fun y hy => hhandling y (List.mem_cons_of_mem _ hy)
    by_cases hnone : (matchActorOrder x.now x.book x.order).2 = []
    · rw [List.filterMap_cons_none (by simp [resultPost, hnone]), hxs, List.flatMap_cons, hnone,
        List.nil_append]
    · rw [List.filterMap_cons_some (b := ⟨.matchActor host k, .matchResultDealActor m,
        .tradeList (matchActorOrder x.now x.book x.order).2⟩) (by simp [resultPost, hx, hnone]),
        List.flatMap_cons, hxs, List.flatMap_cons]
      rfl

/-- The trades of the symbol that the result actor takes are what it receives from the actor of
the symbol. -/
lemma resultsTaken_filter (h₀ : (system κ config).machine.Reaches es₀ s₀) (hidle : Idle m c s₀)
    (h : ((system κ config).machine.startAt s₀).Run (Settled n symbolId) es s) {host : H} {k : ℕ}
    (hactor : (s₀.nodes n).router.symbolActor symbolId = some (.matchActor host k))
    (e : ClusterEvent H κ) :
    (resultsTaken m s e).filter (fun t => t.symbolId = symbolId) =
      (between (.matchActor host k) (.matchResultDealActor m)
        ((system κ config).received s e)).flatMap resultsOf := by
  have hreceived : ∀ post ∈ (system κ config).received s e, ∀ t ∈ resultsOf post,
      (t.symbolId = symbolId ↔ post.src = .matchActor host k) := by
    intro post hpost t ht
    rw [resultsOf_of_run h₀ hidle h post (ActorSystem.mem_all_of_received hpost) t ht, hactor]
    exact Option.some_inj.trans eq_comm
  rw [resultsTaken]
  generalize (system κ config).received s e = posts at hreceived ⊢
  induction posts with
  | nil => rfl
  | cons post posts ih =>
    have hpost := hreceived post List.mem_cons_self
    have hposts := ih fun post' hpost' => hreceived post' (List.mem_cons_of_mem _ hpost')
    by_cases hdst : post.dst = .matchResultDealActor m
    · rw [List.filter_cons_of_pos (by simpa using hdst), List.flatMap_cons, List.filter_append,
        hposts]
      by_cases hsrc : post.src = .matchActor host k
      · rw [between_cons_pos ⟨hsrc, hdst⟩, List.flatMap_cons,
          List.filter_eq_self.2 fun t ht => decide_eq_true ((hpost t ht).2 hsrc)]
      · rw [between_cons_neg fun hon => hsrc hon.1, List.filter_eq_nil_iff.2 fun t ht hs =>
          hsrc ((hpost t ht).1 (of_decide_eq_true hs)), List.nil_append]
    · rw [List.filter_cons_of_neg (by simpa using hdst), hposts,
        between_cons_neg fun hon => hdst hon.2]

/-- **The result actor takes the trades of the symbol** that are made, each once and in order. -/
lemma taken_eq_made (hm : ∀ host, config.role host = kResultHostRoleName → host = m)
    (h₀ : (system κ config).machine.Reaches es₀ s₀) (hidle : Idle m c s₀)
    (h : ((system κ config).machine.startAt s₀).Run (Settled n symbolId) es s)
    (hsends : SendsTo n m symbolId s₀) (hend : Idle m c s) :
    (((system κ config).machine.startAt s₀).trace (resultsTaken m) es).filter
        (fun t => t.symbolId = symbolId) =
      (((system κ config).machine.startAt s₀).trace madeTrades es).filter
        fun t => t.symbolId = symbolId := by
  rw [← h.trace_filter, ← h.trace_filter]
  have hpending : ∀ (s : ClusterState H κ config), Idle m c s → ∀ src dst : Address H,
      (s.net.pending src dst).flatMap resultsOf = [] := by
    intro s hidle src dst
    refine List.flatMap_eq_nil_iff.2 fun post hpost => ?_
    exact (hidle.posts post (mem_between.1 hpost).1).2
  have hsymbol := fun {es s} (hrun : ((system κ config).machine.startAt s₀).Run
    (Settled n symbolId) es s) => resultsOf_of_run h₀ hidle hrun
  cases hactor : (s₀.nodes n).router.symbolActor symbolId with
  | none =>
    -- there are no trades of the symbol
    refine h.trace_congr fun es s e hrun _ => ?_
    have hmade : (madeTrades s e).filter (fun t => t.symbolId = symbolId) = [] := by
      rw [madeTrades_filter h₀ (hidle.drained symbolId) hrun hactor e]
      cases e <;> simp
    rw [hmade]
    refine List.filter_eq_nil_iff.2 fun t ht hs => ?_
    obtain ⟨post, hpost, ht⟩ := List.mem_flatMap.1 ht
    have hpost := ActorSystem.mem_all_of_received (List.mem_filter.1 hpost).1
    have hsrc := (hsymbol hrun post hpost t ht).1 (of_decide_eq_true hs)
    rw [hactor] at hsrc
    cases hsrc
  | some actor =>
    obtain ⟨host, k, rfl, -⟩ := ((isolated_of_run h₀).1 n).knows _ _ (.table hactor)
    have hreceiver : (bookAt s₀ host k).bind OrderBook.matchResultActor =
        some (.matchResultDealActor m) := by
      rw [SendsTo, hactor] at hsends
      exact hsends
    have hchannel := congrArg (List.flatMap resultsOf)
      (ActorSystem.channel_from h (.matchActor host k) (.matchResultDealActor m))
    rw [List.flatMap_append, List.flatMap_append, hpending s₀ hidle, hpending s hend,
      List.nil_append, List.append_nil, ← h.trace_flatMap, ← h.trace_flatMap] at hchannel
    calc
      _ = ((system κ config).machine.startAt s₀).trace (fun s e =>
          (between (.matchActor host k) (.matchResultDealActor m)
            ((system κ config).received s e)).flatMap resultsOf) es :=
        h.trace_congr fun _ _ e hrun _ => resultsTaken_filter h₀ hidle hrun hactor e
      _ = ((system κ config).machine.startAt s₀).trace (fun s e =>
          (between (.matchActor host k) (.matchResultDealActor m)
            ((system κ config).sent s e)).flatMap resultsOf) es := hchannel.symm
      _ = ((system κ config).machine.startAt s₀).trace (fun s e =>
          (handling host k s e).flatMap fun x => (matchActorOrder x.now x.book x.order).2) es :=
        h.trace_congr fun _ _ e hrun _ => sent_eq_handling hm h₀ hrun hreceiver e
      _ = _ := h.trace_congr fun _ _ e hrun _ =>
        (madeTrades_eq_handling h₀ (hidle.drained symbolId) hrun hactor e).symm

/-- **The way of the trades of a symbol.**  A subscriber that has subscribed once reads the trades
that are made of the symbol, each once and in the order in which they are made. -/
theorem delivered_eq (hm : ∀ host, config.role host = kResultHostRoleName → host = m)
    (h₀ : (system κ config).machine.Reaches es₀ s₀) (hidle : Idle m c s₀)
    (hkeepers : (s₀.nodes m).grpc.matchResultWriterKeepers.count c = 1)
    (hsends : SendsTo n m symbolId s₀)
    (h : ((system κ config).machine.startAt s₀).Run
      (fun s e => Settled n symbolId s e ∧ NoSubscription m c s e) es s)
    (hend : Idle m c s) :
    (((system κ config).machine.startAt s₀).trace (readTrade m c) es).filter
        (fun t => t.symbolId = symbolId) =
      ((((system κ config).machine.startAt s₀).trace madeTrades es).filter
        fun t => t.symbolId = symbolId).map MatchEngineGRPCImpl.grpcTrade := by
  have hread := read_eq_taken hkeepers (h.mono fun _ _ _ _ hG => hG.2) hidle.stream hend.stream
  have htaken := taken_eq_made hm h₀ hidle (h.mono fun _ _ _ _ hG => hG.1) hsends hend
  rw [hread, ← htaken, List.filter_map]
  rfl

end Trades

end TradingEngine.System
