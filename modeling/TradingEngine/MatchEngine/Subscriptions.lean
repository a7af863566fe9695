/-
What the subscribers of a match engine node are sent.

A subscriber is known by the number of its registration.  When a write fails, the promise for
which `SubscribeMatchResult` waits is set and the writer is erased, within the loop over the
writers; `Delivered` says what a single subscriber sees of that, whatever the others do.
-/
import TradingEngine.MatchEngine.GrpcImpl

namespace TradingEngine.MatchEngine

open MatchEngineProto (Trade)

/-! ### The calls -/

/-- A call that `SendMatchResult` makes for a subscriber. -/
inductive Call
  /-- `Write`, and what it returns. -/
  | write (message : Trade) (success : Bool)
  /-- `set_value` of the promise. -/
  | setValue
  deriving DecidableEq

/-- The streams and the calls so far, with the number of the subscriber. -/
structure Streams (ω : Type) where
  world : ω
  calls : List (ℕ × Call)

variable {ω : Type}

/-- A round of the inner loop of `SendMatchResult`: the promise of a writer that fails is set,
before the writer is erased. -/
def writeOrEnd (write : ℕ → Trade → ω → Bool × ω) (writer : ℕ) (message : Trade)
    (streams : Streams ω) : Bool × Streams ω :=
  let (success, world) := write writer message streams.world
  let calls := streams.calls ++ [(writer, .write message success)]
  (success, ⟨world, if success then calls else calls ++ [(writer, .setValue)]⟩)

/-- A node with its subscribers. -/
structure Subscriptions (ω : Type) where
  impl : MatchEngineGRPCImpl ℕ := {}
  /-- The number of registrations. -/
  registrations : ℕ := 0
  streams : Streams ω

/-- A client subscribes, or trades are sent. -/
inductive SubscriptionEvent
  | subscribe
  | send (tradeList : TradeList)
  deriving DecidableEq

namespace Subscriptions

variable (write : ℕ → Trade → ω → Bool × ω)

/-- One call of the service. -/
def step (s : Subscriptions ω) : SubscriptionEvent → Subscriptions ω
  | .subscribe => { s with
      impl := s.impl.subscribeMatchResult s.registrations
      registrations := s.registrations + 1 }
  | .send tradeList =>
    let (impl, streams) := s.impl.sendMatchResult (writeOrEnd write) tradeList s.streams
    { s with impl := impl, streams := streams }

/-- The node after these events. -/
def after (world : ω) (es : List SubscriptionEvent) : Subscriptions ω :=
  es.foldl (step write) { streams := ⟨world, []⟩ }

end Subscriptions

/-- The calls that were made for a subscriber. -/
def callsFor (i : ℕ) (streams : Streams ω) : List Call :=
  (streams.calls.filter fun call => call.1 = i).map Prod.snd

/-- The messages of an event. -/
def sentBy : SubscriptionEvent → List Trade
  | .subscribe => []
  | .send tradeList => tradeList.map MatchEngineGRPCImpl.grpcTrade

/-- The messages that are sent after a registration. -/
def sentAfter : ℕ → List SubscriptionEvent → List Trade
  | _, [] => []
  | 0, .subscribe :: es => es.flatMap sentBy
  | i + 1, .subscribe :: es => sentAfter i es
  | i, .send _ :: es => sentAfter i es

/-- What a subscriber sees of the messages that are sent: all of them, or those up to and with
the first one that cannot be written, after which its promise is set. -/
def Delivered (sent : List Trade) (calls : List Call) (kept : Prop) : Prop :=
  (kept ∧ calls = sent.map fun message => .write message true) ∨
    (¬ kept ∧ ∃ before message after, sent = before ++ message :: after ∧
      calls = (before.map fun message => .write message true) ++
        [.write message false, .setValue])

/-! ### One message -/

section Loops

variable (write : ℕ → Trade → ω → Bool × ω)

lemma callsFor_writeOrEnd (i writer : ℕ) (message : Trade) (streams : Streams ω) :
    callsFor i (writeOrEnd write writer message streams).2 = callsFor i streams ++
      if i = writer then
        if (writeOrEnd write writer message streams).1 then [.write message true]
        else [.write message false, .setValue]
      else [] := by
  rcases eq_or_ne i writer with rfl | hi
  · cases hsuccess : (write i message streams.world).1 <;> simp [callsFor, writeOrEnd, hsuccess]
  · cases hsuccess : (write writer message streams.world).1 <;>
      simp [callsFor, writeOrEnd, hsuccess, hi, hi.symm]

/-- **A message** is written to every subscriber once; those to whom it cannot be written are
told and erased, and nothing else happens. -/
lemma writeToKeepers_spec (message : Trade) {keepers : List ℕ} (hnodup : keepers.Nodup)
    (streams : Streams ω) :
    let result := MatchEngineGRPCImpl.writeToKeepers (writeOrEnd write) message keepers streams
    result.1.Sublist keepers ∧ ∀ i, callsFor i result.2 = callsFor i streams ++
      if i ∈ keepers then
        if i ∈ result.1 then [.write message true] else [.write message false, .setValue]
      else [] := by
  induction keepers generalizing streams with
  | nil => simp [MatchEngineGRPCImpl.writeToKeepers]
  | cons writer keepers ih =>
    obtain ⟨hfresh, hnodup⟩ := List.nodup_cons.1 hnodup
    obtain ⟨hsub, hcalls⟩ := ih hnodup (writeOrEnd write writer message streams).2
    have hgone : writer ∉ (MatchEngineGRPCImpl.writeToKeepers (writeOrEnd write) message keepers
        (writeOrEnd write writer message streams).2).1 := fun hmem => hfresh (hsub.subset hmem)
    refine ⟨?_, fun i => ?_⟩
    · simp only [MatchEngineGRPCImpl.writeToKeepers]
      split_ifs
      · exact hsub.cons_cons writer
      · exact hsub.cons writer
    · simp only [MatchEngineGRPCImpl.writeToKeepers, hcalls, callsFor_writeOrEnd]
      rcases eq_or_ne i writer with rfl | hi
      · -- the subscriber is not met again
        rw [if_neg hfresh, List.append_nil, if_pos rfl, if_pos (List.mem_cons_self ..)]
        by_cases hsuccess : (writeOrEnd write i message streams).1 = true <;>
          simp [hsuccess, hgone]
      · rw [if_neg hi, List.append_nil]
        by_cases hsuccess : (writeOrEnd write writer message streams).1 = true <;>
          simp [hsuccess, hi]

/-- A message reaches a subscriber as the one after those that were sent before. -/
lemma Delivered.message {sent : List Trade} {calls : List Call} {kept kept' : Prop}
    [Decidable kept] [Decidable kept'] (h : Delivered sent calls kept) (hkept : kept' → kept)
    (message : Trade) : Delivered (sent ++ [message]) (calls ++
      if kept then if kept' then [.write message true] else [.write message false, .setValue]
      else []) kept' := by
  rcases h with ⟨hin, hcalls⟩ | ⟨hout, before, failed, after, hsent, hcalls⟩
  · rw [if_pos hin]
    by_cases hin' : kept'
    · rw [if_pos hin']
      exact Or.inl ⟨hin', by rw [hcalls, List.map_append, List.map_singleton]⟩
    · rw [if_neg hin']
      exact Or.inr ⟨hin', sent, message, [], rfl, by rw [hcalls]⟩
  · rw [if_neg hout, List.append_nil]
    refine Or.inr ⟨fun hin' => hout (hkept hin'), before, failed, after ++ [message], ?_, hcalls⟩
    rw [hsent, List.append_assoc, List.cons_append]

/-- **The messages of a call** of `SendMatchResult` reach a subscriber one after another. -/
lemma sendMatchResultLoop_spec (tradeList : TradeList) {keepers : List ℕ} (hnodup : keepers.Nodup)
    (streams : Streams ω) :
    let result :=
      MatchEngineGRPCImpl.sendMatchResultLoop (writeOrEnd write) tradeList keepers streams
    result.1.Sublist keepers ∧
    (∀ i, i ∉ keepers → callsFor i result.2 = callsFor i streams) ∧
    ∀ i sent, Delivered sent (callsFor i streams) (i ∈ keepers) →
      Delivered (sent ++ tradeList.map MatchEngineGRPCImpl.grpcTrade) (callsFor i result.2)
        (i ∈ result.1) := by
  induction tradeList generalizing keepers streams with
  | nil =>
    refine ⟨.refl _, fun _ _ => rfl, fun i sent h => ?_⟩
    rwa [List.map_nil, List.append_nil]
  | cons trade tradeList ih =>
    obtain ⟨hsub, hcalls⟩ :=
      writeToKeepers_spec write (MatchEngineGRPCImpl.grpcTrade trade) hnodup streams
    obtain ⟨hsub', hothers, hlater⟩ := ih (hnodup.sublist hsub) (MatchEngineGRPCImpl.writeToKeepers
      (writeOrEnd write) (MatchEngineGRPCImpl.grpcTrade trade) keepers streams).2
    refine ⟨hsub'.trans hsub, fun i hi => ?_, fun i sent h => ?_⟩
    · have hfirst := hcalls i
      rw [if_neg hi, List.append_nil] at hfirst
      exact (hothers i fun hmem => hi (hsub.subset hmem)).trans hfirst
    have hkept : i ∈ (MatchEngineGRPCImpl.writeToKeepers (writeOrEnd write)
        (MatchEngineGRPCImpl.grpcTrade trade) keepers streams).1 → i ∈ keepers :=
      fun hmem => hsub.subset hmem
    have hnext := h.message hkept (MatchEngineGRPCImpl.grpcTrade trade)
    rw [← hcalls i] at hnext
    have hall := hlater i _ hnext
    rwa [List.append_assoc] at hall

end Loops

/-! ### Runs -/

section Runs

variable (write : ℕ → Trade → ω → Bool × ω) (world : ω)

/-- The number of registrations among the events. -/
def registrations : List SubscriptionEvent → ℕ
  | [] => 0
  | .subscribe :: es => registrations es + 1
  | .send _ :: es => registrations es

lemma registrations_concat (es : List SubscriptionEvent) (e : SubscriptionEvent) :
    registrations (es ++ [e]) = registrations es + registrations [e] := by
  induction es with
  | nil => simp [registrations]
  | cons first es ih =>
    cases first with
    | subscribe =>
      simp only [List.cons_append, registrations, ih]
      omega
    | send earlier => simp only [List.cons_append, registrations, ih]

/-- An event sends its messages to those who have registered before. -/
lemma sentAfter_concat (i : ℕ) (es : List SubscriptionEvent) (e : SubscriptionEvent) :
    sentAfter i (es ++ [e]) = if i < registrations es then sentAfter i es ++ sentBy e else [] := by
  induction es generalizing i with
  | nil => cases e <;> cases i <;> rfl
  | cons first es ih =>
    cases first with
    | subscribe =>
      cases i with
      | zero => simp [sentAfter, registrations]
      | succ i =>
        rw [List.cons_append, sentAfter, sentAfter, ih]
        simp [registrations]
    | send earlier =>
      rw [List.cons_append, sentAfter, sentAfter, ih]
      rfl

/-- What holds of a node with its subscribers. -/
structure SubscriptionsOk (es : List SubscriptionEvent) (s : Subscriptions ω) : Prop where
  registrations : s.registrations = registrations es
  nodup : s.impl.matchResultWriterKeepers.Nodup
  lt : ∀ i ∈ s.impl.matchResultWriterKeepers, i < s.registrations
  new : ∀ i, s.registrations ≤ i → callsFor i s.streams = []
  delivered : ∀ i < s.registrations,
    Delivered (sentAfter i es) (callsFor i s.streams) (i ∈ s.impl.matchResultWriterKeepers)

lemma SubscriptionsOk.step {es : List SubscriptionEvent} {s : Subscriptions ω}
    (h : SubscriptionsOk es s) (e : SubscriptionEvent) :
    SubscriptionsOk (es ++ [e]) (s.step write e) := by
  cases e with
  | subscribe =>
    have hfresh : s.registrations ∉ s.impl.matchResultWriterKeepers :=
      fun hmem => lt_irrefl _ (h.lt _ hmem)
    refine ⟨?_, ?_, ?_, ?_, ?_⟩
    · rw [registrations_concat, ← h.registrations]
      rfl
    · exact List.nodup_append.2 ⟨h.nodup, List.nodup_singleton _, by
        intro i hi j hj heq
        rw [List.mem_singleton.1 hj] at heq
        exact hfresh (heq ▸ hi)⟩
    · intro i hi
      rcases List.mem_append.1 hi with hi | hi
      · exact Nat.lt_succ_of_lt (h.lt i hi)
      · rw [List.mem_singleton.1 hi]
        exact Nat.lt_succ_self _
    · intro i hi
      exact h.new i (Nat.le_of_succ_le hi)
    · intro i hi
      change Delivered _ (callsFor i s.streams)
        (i ∈ s.impl.matchResultWriterKeepers ++ [s.registrations])
      rw [sentAfter_concat, ← h.registrations]
      rcases Nat.lt_succ_iff_lt_or_eq.1 hi with hlt | rfl
      · have hmem : i ∈ s.impl.matchResultWriterKeepers ++ [s.registrations] ↔
            i ∈ s.impl.matchResultWriterKeepers := by simp [hlt.ne]
        rw [if_pos hlt, sentBy, List.append_nil, hmem]
        exact h.delivered i hlt
      · rw [if_neg (lt_irrefl _), h.new _ le_rfl]
        exact Or.inl ⟨by simp, rfl⟩
  | send tradeList =>
    obtain ⟨hsub, hothers, hdelivered⟩ :=
      sendMatchResultLoop_spec write tradeList h.nodup s.streams
    refine ⟨?_, h.nodup.sublist hsub, fun i hi => h.lt i (hsub.subset hi), ?_, ?_⟩
    · rw [registrations_concat, ← h.registrations]
      rfl
    · intro i hi
      rw [← h.new i hi]
      exact hothers i fun hmem => absurd (h.lt i hmem) (not_lt.2 hi)
    · intro i hi
      have hlt : i < s.registrations := hi
      rw [sentAfter_concat, ← h.registrations, if_pos hlt]
      exact hdelivered i _ (h.delivered i hlt)

/-- The invariant holds after every sequence of events. -/
theorem subscriptionsOk_after (es : List SubscriptionEvent) :
    SubscriptionsOk es (Subscriptions.after write world es) := by
  induction es using List.reverseRecOn with
  | nil => exact ⟨rfl, List.nodup_nil, by rintro i ⟨⟩, fun _ _ => rfl, by rintro i ⟨⟩⟩
  | append_singleton es e ih =>
    rw [Subscriptions.after, List.foldl_append]
    exact ih.step write e

end Runs

/-- **What a subscriber gets** are the trades that are sent after its registration, up to and
with the first one that cannot be written; then its promise is set, once, and it is erased. -/
theorem subscribers_delivered (write : ℕ → Trade → ω → Bool × ω) (world : ω)
    (es : List SubscriptionEvent) (i : ℕ) (hi : i < registrations es) :
    Delivered (sentAfter i es) (callsFor i (Subscriptions.after write world es).streams)
      (i ∈ (Subscriptions.after write world es).impl.matchResultWriterKeepers) := by
  have hok := subscriptionsOk_after write world es
  exact hok.delivered i (by rwa [hok.registrations])

/-- A trade of one share at this price. -/
def matchedTrade (price : ℤ) : MatchedTrade := ⟨1, 2, .buy, 1, price, 8, 7, 3, 1594020376, 0⟩

/-- The stream of the first subscriber breaks at its third trade. -/
def breakAtThird (i : ℕ) (_ : Trade) (world : ℕ) : Bool × ℕ :=
  if i = 0 then (world ≠ 2, world + 1) else (true, world)

/-- Another subscriber registers after the first trade, and there are three more. -/
def twoSubscribers : List SubscriptionEvent :=
  [.subscribe, .send [matchedTrade 90], .subscribe, .send [matchedTrade 91, matchedTrade 92],
    .send [matchedTrade 93]]

theorem subscribers_delivered_breakAtThird :
    Delivered (sentAfter 1 twoSubscribers)
      (callsFor 1 (Subscriptions.after breakAtThird 0 twoSubscribers).streams)
      (1 ∈ (Subscriptions.after breakAtThird 0
        twoSubscribers).impl.matchResultWriterKeepers) :=
  subscribers_delivered breakAtThird 0 twoSubscribers 1 (by decide)

end TradingEngine.MatchEngine
