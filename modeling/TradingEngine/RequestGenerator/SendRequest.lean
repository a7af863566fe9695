/-
The threads that send the orders (`Generator::SendRequest`).

A thread sends the orders of its queue to the servers in turn, and adds what it has counted to
the static totals when its queue is empty; that is one step, since `mutex_requests_count_` is
held.  The answers of the servers are a part of the events.
-/
import TradingEngine.Lib.Machine
import TradingEngine.RequestGenerator.Dispatch

namespace TradingEngine.RequestGenerator

open OrderManagerProto (Order ErrorCode)
open Lib

/-- The status of a call of `PlaceOrder`, and the code of the reply. -/
structure Answer where
  ok : Bool
  errorCode : ErrorCode
  deriving DecidableEq

/-- The test of `SendRequest` for a request that succeeded. -/
def Answer.success (answer : Answer) : Bool := answer.ok && answer.errorCode = .success

/-- The variables of `SendRequest`; `merged` behind the critical section. -/
structure Sender where
  orders : List Order
  count : ℕ := 0
  serverIndex : ℕ := 0
  countEachServer : List ℕ
  merged : Bool := false
  deriving DecidableEq

/-- The threads, and the static totals. -/
structure Requests where
  senders : List Sender
  requestsCount : ℕ := 0
  countEachServer : List ℕ := []
  deriving DecidableEq

/-- A thread sends its next request, or adds its numbers to the totals. -/
inductive SendEvent
  | send (thread : ℕ) (answer : Answer)
  | merge (thread : ℕ)
  deriving DecidableEq

/-- A round of the loop of `SendRequest`. -/
def Sender.send (servers : ℕ) (s : Sender) (answer : Answer) : Option Sender :=
  match s.orders with
  | [] => none
  | _ :: orders =>
    some { s with
      orders := orders
      count := if answer.success then s.count + 1 else s.count
      countEachServer := if answer.success then
          s.countEachServer.modify (s.serverIndex % servers) (· + 1)
        else s.countEachServer
      serverIndex := s.serverIndex + 1 }

/-- The loop `count_each_server_[i] += count_each_server[i]`; `none` if there is no entry. -/
def addCounts : List ℕ → List ℕ → Option (List ℕ)
  | totals, [] => some totals
  | [], _ :: _ => none
  | total :: totals, count :: counts =>
    (addCounts totals counts).map fun totals => (total + count) :: totals

/-- What becomes of `count_each_server_`: the first thread to merge finds it empty. -/
def mergeCounts (totals counts : List ℕ) : Option (List ℕ) :=
  if totals = [] then some counts else addCounts totals counts

namespace Requests

/-- The critical section of a thread. -/
def merge (s : Requests) (thread : ℕ) (sender : Sender) : Option Requests := do
  let totals ← mergeCounts s.countEachServer sender.countEachServer
  return {
    senders := s.senders.set thread { sender with merged := true }
    requestsCount := s.requestsCount + sender.count
    countEachServer := totals }

/-- A step of a thread, where it is possible. -/
def step (servers : ℕ) (s : Requests) : SendEvent → Option Requests
  | .send thread answer => do
    let sender ← s.senders[thread]?
    let sender ← sender.send servers answer
    return { s with senders := s.senders.set thread sender }
  | .merge thread => do
    let sender ← s.senders[thread]?
    if sender.orders = [] ∧ sender.merged = false then s.merge thread sender else none

/-- All threads are behind their critical sections. -/
def Finished (s : Requests) : Prop := ∀ sender ∈ s.senders, sender.merged = true

instance (s : Requests) : Decidable s.Finished := inferInstanceAs (Decidable (∀ _ ∈ _, _))

end Requests

/-- The threads of a generator with these queues, at this number of servers. -/
def requests (servers : ℕ) (queues : List (List Order)) : Machine Requests SendEvent where
  init :=
    { senders := queues.map fun orders =>
        { orders := orders, countEachServer := List.replicate servers 0 } }
  step := Requests.step servers

/-- An order that was sent. -/
structure Sent where
  thread : ℕ
  server : ℕ
  order : Order
  success : Bool
  deriving DecidableEq

/-- What an event sends. -/
def sentAt (servers : ℕ) (s : Requests) : SendEvent → List Sent
  | .send thread answer =>
    match s.senders[thread]? with
    | some sender =>
      (sender.orders.head?.map fun order =>
        ⟨thread, sender.serverIndex % servers, order, answer.success⟩).toList
    | none => []
  | .merge _ => []

/-- What is sent along a run. -/
def sent (servers : ℕ) (queues : List (List Order)) (es : List SendEvent) : List Sent :=
  (requests servers queues).trace (sentAt servers) es

/-! ### Numbers of successes -/

/-- The numbers of successes at each of the servers. -/
def counts (servers : ℕ) (xs : List Sent) : List ℕ :=
  (List.range servers).map fun server => xs.countP fun x => x.server = server && x.success

@[simp] lemma length_counts (servers : ℕ) (xs : List Sent) :
    (counts servers xs).length = servers := by
  simp [counts]

lemma counts_nil (servers : ℕ) : counts servers [] = List.replicate servers 0 := by
  have hconst : (List.range servers).map (fun _ => 0) = _ := List.map_const'
  rw [List.length_range] at hconst
  exact hconst

lemma counts_perm {servers : ℕ} {xs ys : List Sent} (h : xs.Perm ys) :
    counts servers xs = counts servers ys := by
  refine List.map_congr_left fun server _ => ?_
  exact h.countP_eq _

lemma counts_append_singleton (servers : ℕ) (xs : List Sent) (x : Sent) :
    counts servers (xs ++ [x]) =
      if x.success then (counts servers xs).modify x.server (· + 1) else counts servers xs := by
  refine List.ext_getElem? fun server => ?_
  by_cases hserver : server < servers
  · have hentry (xs : List Sent) : (counts servers xs)[server]? =
        some (xs.countP fun x => x.server = server && x.success) := by
      rw [counts, List.getElem?_map, List.getElem?_range hserver]
      rfl
    rw [hentry, List.countP_append]
    by_cases hsuccess : x.success = true
    · rw [if_pos hsuccess, List.getElem?_modify, hentry]
      by_cases heq : x.server = server <;> simp [hsuccess, heq]
    · rw [if_neg hsuccess, hentry]
      simp [hsuccess]
  · rw [List.getElem?_eq_none (by simpa using hserver), List.getElem?_eq_none]
    split_ifs <;> simpa using hserver

lemma addCounts_eq_zipWith {totals cs : List ℕ} (h : totals.length = cs.length) :
    addCounts totals cs = some (List.zipWith (· + ·) totals cs) := by
  induction totals generalizing cs with
  | nil =>
    obtain rfl := List.eq_nil_of_length_eq_zero h.symm
    rfl
  | cons total totals ih =>
    cases cs with
    | nil => cases h
    | cons c cs =>
      rw [addCounts, ih (Nat.succ.inj h)]
      rfl

lemma addCounts_counts (servers : ℕ) (xs ys : List Sent) :
    addCounts (counts servers xs) (counts servers ys) = some (counts servers (xs ++ ys)) := by
  rw [addCounts_eq_zipWith (by simp), counts, counts, List.zipWith_map, List.zipWith_self]
  refine congrArg some (List.map_congr_left fun server _ => ?_)
  rw [List.countP_append]

lemma sum_modify {l : List ℕ} {i : ℕ} (hi : i < l.length) :
    (l.modify i (· + 1)).sum = l.sum + 1 := by
  induction l generalizing i with
  | nil => cases hi
  | cons a l ih =>
    cases i with
    | zero =>
      rw [List.modify_zero_cons, List.sum_cons, List.sum_cons]
      omega
    | succ i =>
      rw [List.modify_succ_cons, List.sum_cons, List.sum_cons, ih (Nat.lt_of_succ_lt_succ hi)]
      omega

/-- Each success is at one of the servers. -/
lemma sum_counts {servers : ℕ} {xs : List Sent} (h : ∀ x ∈ xs, x.server < servers) :
    (counts servers xs).sum = xs.countP Sent.success := by
  induction xs using List.reverseRecOn with
  | nil => simp [counts_nil]
  | append_singleton xs x ih =>
    have hx : x.server < servers := h x (by simp)
    have hsum := ih fun y hy => h y (List.mem_append_left _ hy)
    rw [counts_append_singleton, List.countP_append, ← hsum]
    by_cases hsuccess : x.success = true
    · rw [if_pos hsuccess, sum_modify (by simpa using hx)]
      simp [hsuccess]
    · rw [if_neg hsuccess]
      simp [hsuccess]

/-! ### The steps -/

/-- The orders of a queue, to the servers in turn. -/
def inTurn (servers : ℕ) (queue : List Order) : List (ℕ × Order) :=
  queue.mapIdx fun i order => (i % servers, order)

/-- What a thread has sent. -/
def Sent.by (thread : ℕ) (xs : List Sent) : List Sent := xs.filter fun x => x.thread = thread

variable {servers : ℕ} {queues : List (List Order)} {s s' : Requests}

/-- The steps that are possible, and what each does and sends. -/
inductive Requests.Steps (servers : ℕ) (s : Requests) :
    SendEvent → List Sent → Requests → Prop
  | send {thread : ℕ} {sender sender' : Sender} {order : Order} {orders : List Order}
      (answer : Answer) (hsender : s.senders[thread]? = some sender)
      (horders : sender.orders = order :: orders)
      (hsend : sender.send servers answer = some sender') :
    Steps servers s (.send thread answer)
      [⟨thread, sender.serverIndex % servers, order, answer.success⟩]
      { s with senders := s.senders.set thread sender' }
  | merge {thread : ℕ} {sender : Sender} {totals : List ℕ}
      (hsender : s.senders[thread]? = some sender) (horders : sender.orders = [])
      (hmerged : sender.merged = false)
      (htotals : mergeCounts s.countEachServer sender.countEachServer = some totals) :
    Steps servers s (.merge thread) []
      { senders := s.senders.set thread { sender with merged := true }
        requestsCount := s.requestsCount + sender.count
        countEachServer := totals }

lemma Requests.steps_of_step {e : SendEvent} (h : s.step servers e = some s') :
    s.Steps servers e (sentAt servers s e) s' := by
  cases e with
  | send thread answer =>
    obtain ⟨sender, hsender, h⟩ := Option.bind_eq_some_iff.1 h
    obtain ⟨sender', hsend, h⟩ := Option.bind_eq_some_iff.1 h
    cases h
    cases horders : sender.orders with
    | nil =>
      rw [Sender.send, horders] at hsend
      cases hsend
    | cons order orders =>
      have hsent : sentAt servers s (.send thread answer) =
          [⟨thread, sender.serverIndex % servers, order, answer.success⟩] := by
        rw [sentAt, hsender]
        simp only [horders]
        rfl
      rw [hsent]
      exact .send answer hsender horders hsend
  | merge thread =>
    obtain ⟨sender, hsender, h⟩ := Option.bind_eq_some_iff.1 h
    rw [Option.ite_none_right_eq_some] at h
    obtain ⟨⟨horders, hmerged⟩, h⟩ := h
    obtain ⟨totals, htotals, h⟩ := Option.bind_eq_some_iff.1 h
    cases h
    exact .merge hsender horders hmerged htotals

lemma Requests.step_send (servers : ℕ) {thread : ℕ} {sender : Sender}
    (hsender : s.senders[thread]? = some sender) (horders : sender.orders ≠ []) (answer : Answer) :
    ∃ s', s.step servers (.send thread answer) = some s' := by
  obtain ⟨order, orders, horders⟩ := List.exists_cons_of_ne_nil horders
  have hsend : ∃ sender', sender.send servers answer = some sender' := by
    rw [Sender.send, horders]
    exact ⟨_, rfl⟩
  obtain ⟨sender', hsend⟩ := hsend
  exact ⟨_, Option.bind_eq_some_iff.2 ⟨sender, hsender,
    Option.bind_eq_some_iff.2 ⟨sender', hsend, rfl⟩⟩⟩

lemma Requests.step_merge (servers : ℕ) {thread : ℕ} {sender : Sender} {totals : List ℕ}
    (hsender : s.senders[thread]? = some sender) (horders : sender.orders = [])
    (hmerged : sender.merged = false)
    (htotals : mergeCounts s.countEachServer sender.countEachServer = some totals) :
    ∃ s', s.step servers (.merge thread) = some s' := by
  have hmerge : ∃ s', s.merge thread sender = some s' :=
    ⟨_, Option.bind_eq_some_iff.2 ⟨totals, htotals, rfl⟩⟩
  obtain ⟨s', hmerge⟩ := hmerge
  exact ⟨s', Option.bind_eq_some_iff.2 ⟨sender, hsender,
    (if_pos ⟨horders, hmerged⟩).trans hmerge⟩⟩

/-! ### The accounts -/

/-- What a thread has sent and counted, out of its queue. -/
structure Sender.Accounts (servers : ℕ) (queue : List Order) (xs : List Sent) (sender : Sender) :
    Prop where
  order : xs.map Sent.order ++ sender.orders = queue
  server : xs.map Sent.server = (List.range xs.length).map (· % servers)
  serverIndex : sender.serverIndex = xs.length
  countEachServer : sender.countEachServer = counts servers xs
  count : sender.count = xs.countP Sent.success
  merged : sender.merged = true → sender.orders = []

/-- The threads behind their critical sections. -/
def Requests.mergedAt (s : Requests) (thread : ℕ) : Bool :=
  (s.senders[thread]?.map Sender.merged).getD false

/-- What was sent along a run, and what the threads and the totals hold of it. -/
structure Requests.Accounts (servers : ℕ) (queues : List (List Order)) (xs : List Sent)
    (s : Requests) : Prop where
  length : s.senders.length = queues.length
  sender : ∀ (thread : ℕ) (sender : Sender) (queue : List Order),
    s.senders[thread]? = some sender → queues[thread]? = some queue →
    sender.Accounts servers queue (Sent.by thread xs)
  thread : ∀ x ∈ xs, x.thread < queues.length
  server : ∀ x ∈ xs, x.server < servers
  requestsCount : s.requestsCount =
    (xs.filter fun x => s.mergedAt x.thread).countP Sent.success
  /-- The first thread that merges finds the list empty. -/
  countEachServer : ((∀ thread, s.mergedAt thread = false) ∧ s.countEachServer = []) ∨
    s.countEachServer = counts servers (xs.filter fun x => s.mergedAt x.thread)

/-- One order more, sent to the next server. -/
lemma Sender.Accounts.send {queue : List Order} {xs : List Sent} {sender sender' : Sender}
    (h : sender.Accounts servers queue xs) {order : Order} {orders : List Order}
    (horders : sender.orders = order :: orders) (thread : ℕ) {answer : Answer}
    (hsend : sender.send servers answer = some sender') :
    sender'.merged = false ∧ sender'.Accounts servers queue
      (xs ++ [⟨thread, sender.serverIndex % servers, order, answer.success⟩]) := by
  have hmerged : sender.merged = false := by
    rw [Bool.eq_false_iff]
    intro hmerged
    rw [h.merged hmerged] at horders
    cases horders
  rw [Sender.send, horders] at hsend
  cases hsend
  refine ⟨hmerged, ?_, ?_, ?_, ?_, ?_, fun htrue => by cases hmerged.symm.trans htrue⟩
  · rw [← h.order, horders, List.map_append, List.append_assoc]
    rfl
  · rw [List.map_append, h.server, List.length_append, List.length_singleton, List.range_succ,
      List.map_append, h.serverIndex]
    rfl
  · rw [h.serverIndex, List.length_append, List.length_singleton]
  · rw [counts_append_singleton, h.countEachServer]
  · rw [List.countP_append, h.count]
    cases answer.success <;> simp

/-- A thread behind its critical section has nothing left to send. -/
lemma Sender.Accounts.merge {queue : List Order} {xs : List Sent} {sender : Sender}
    (h : sender.Accounts servers queue xs) (horders : sender.orders = []) :
    Sender.Accounts servers queue xs { sender with merged := true } :=
  ⟨h.order, h.server, h.serverIndex, h.countEachServer, h.count, fun _ => horders⟩

lemma Sender.accounts_nil (servers : ℕ) (queue : List Order) :
    Sender.Accounts servers queue []
      { orders := queue, countEachServer := List.replicate servers 0 } :=
  ⟨rfl, rfl, rfl, (counts_nil servers).symm, rfl, fun h => by cases h⟩

lemma Requests.accounts_init (servers : ℕ) (queues : List (List Order)) :
    Requests.Accounts servers queues [] (requests servers queues).init where
  length := List.length_map _
  sender thread sender queue hsender hqueue := by
    rw [requests, List.getElem?_map, hqueue] at hsender
    cases hsender
    exact Sender.accounts_nil servers queue
  thread x hx := by cases hx
  server x hx := by cases hx
  requestsCount := rfl
  countEachServer := by
    refine Or.inl ⟨fun thread => ?_, rfl⟩
    rw [Requests.mergedAt, requests, List.getElem?_map]
    cases queues[thread]? <;> rfl

lemma Requests.mergedAt_of_getElem? {thread : ℕ} {sender : Sender}
    (h : s.senders[thread]? = some sender) : s.mergedAt thread = sender.merged := by
  rw [mergedAt, h]
  rfl

/-- Only the threads that are set change. -/
lemma Requests.mergedAt_of_set {thread : ℕ} (sender : Sender)
    (hthread : thread < s.senders.length)
    (hs' : s'.senders = s.senders.set thread sender) (thread' : ℕ) :
    s'.mergedAt thread' = if thread' = thread then sender.merged else s.mergedAt thread' := by
  rw [mergedAt, hs', List.getElem?_set, mergedAt]
  by_cases h : thread = thread'
  · subst h
    rw [if_pos rfl, if_pos hthread, if_pos rfl]
    rfl
  · rw [if_neg h, if_neg (Ne.symm h)]

lemma Sent.by_append_singleton (thread : ℕ) (xs : List Sent) (x : Sent) :
    Sent.by thread (xs ++ [x]) =
      if x.thread = thread then Sent.by thread xs ++ [x] else Sent.by thread xs := by
  rw [Sent.by, List.filter_append, Sent.by]
  split_ifs with h <;> simp [h]

/-- What the threads that have merged sent, with one thread more. -/
lemma Requests.merged_perm {thread : ℕ} (xs : List Sent) (hthread : s.mergedAt thread = false)
    (hs' : ∀ thread', s'.mergedAt thread' = if thread' = thread then true else s.mergedAt thread') :
    ((xs.filter fun x => s.mergedAt x.thread) ++ Sent.by thread xs).Perm
      (xs.filter fun x => s'.mergedAt x.thread) := by
  have hor : (xs.filter fun x => s'.mergedAt x.thread) =
      xs.filter fun x => s.mergedAt x.thread || decide (x.thread = thread) := by
    refine List.filter_congr fun x _ => ?_
    rw [hs']
    by_cases h : x.thread = thread <;> simp [h]
  rw [hor]
  refine RoundRobin.filter_append_filter_perm fun x _ hx => ?_
  rw [decide_eq_false_iff_not]
  rintro rfl
  rw [hthread] at hx
  cases hx

lemma Requests.Accounts.sender_of_getElem? {xs : List Sent} (h : s.Accounts servers queues xs)
    {thread : ℕ} {sender : Sender} (hsender : s.senders[thread]? = some sender) :
    ∃ queue, queues[thread]? = some queue ∧ sender.Accounts servers queue (Sent.by thread xs) := by
  have hlt : thread < queues.length := by
    rw [← h.length]
    exact (List.getElem?_eq_some_iff.1 hsender).1
  exact ⟨_, List.getElem?_eq_getElem hlt, h.sender _ _ _ hsender (List.getElem?_eq_getElem hlt)⟩

/-- The other threads have sent what they had, and the one that is set what it should have. -/
lemma Requests.Accounts.set {xs ys : List Sent} (h : s.Accounts servers queues xs) {thread : ℕ}
    {sender' : Sender} {queue : List Order} (hqueue : queues[thread]? = some queue)
    (hsender' : sender'.Accounts servers queue (Sent.by thread (xs ++ ys)))
    (hys : ∀ y ∈ ys, y.thread = thread) (thread' : ℕ) (sender : Sender) (queue' : List Order)
    (hset : (s.senders.set thread sender')[thread']? = some sender)
    (hqueue' : queues[thread']? = some queue') :
    sender.Accounts servers queue' (Sent.by thread' (xs ++ ys)) := by
  rw [List.getElem?_set] at hset
  split_ifs at hset with heq hlt
  · subst heq
    cases hset
    cases hqueue.symm.trans hqueue'
    exact hsender'
  · have hother : Sent.by thread' ys = [] := by
      refine List.filter_eq_nil_iff.2 fun y hy => ?_
      rw [hys y hy, decide_eq_true_iff]
      exact heq
    have hby : Sent.by thread' (xs ++ ys) = Sent.by thread' xs := by
      rw [Sent.by, List.filter_append, ← Sent.by, ← Sent.by, hother, List.append_nil]
    rw [hby]
    exact h.sender _ _ _ hset hqueue'

/-- **An order is sent.** -/
lemma Requests.Accounts.send (hservers : 0 < servers) {xs : List Sent}
    (h : s.Accounts servers queues xs) {thread : ℕ} {sender sender' : Sender} {order : Order}
    {orders : List Order} {answer : Answer} (hsender : s.senders[thread]? = some sender)
    (horders : sender.orders = order :: orders)
    (hsend : sender.send servers answer = some sender') :
    Requests.Accounts servers queues
      (xs ++ [⟨thread, sender.serverIndex % servers, order, answer.success⟩])
      { s with senders := s.senders.set thread sender' } := by
  have hlt : thread < s.senders.length := (List.getElem?_eq_some_iff.1 hsender).1
  obtain ⟨queue, hqueue, hmine⟩ := h.sender_of_getElem? hsender
  obtain ⟨hmerged', hmine'⟩ := hmine.send horders thread hsend
  have hmerged : s.mergedAt thread = false := by
    rw [mergedAt_of_getElem? hsender, Bool.eq_false_iff]
    intro hmerged
    rw [hmine.merged hmerged] at horders
    cases horders
  have hstay : Requests.mergedAt { s with senders := s.senders.set thread sender' } =
      s.mergedAt := by
    ext thread'
    rw [mergedAt_of_set sender' hlt rfl, hmerged']
    split_ifs with heq
    · rw [heq, hmerged]
    · rfl
  have hfilter : (List.filter (fun x => s.mergedAt x.thread)
      (xs ++ [⟨thread, sender.serverIndex % servers, order, answer.success⟩])) =
      xs.filter fun x => s.mergedAt x.thread := by
    rw [List.filter_append, List.filter_cons_of_neg (by simp [hmerged]), List.filter_nil,
      List.append_nil]
  refine ⟨?_, ?_, ?_, ?_, ?_, ?_⟩
  · rw [List.length_set, h.length]
  · refine h.set hqueue ?_ ?_
    · rw [Sent.by_append_singleton, if_pos rfl]
      exact hmine'
    · simp
  · intro x hx
    rcases List.mem_append.1 hx with hx | hx
    · exact h.thread x hx
    · rw [List.mem_singleton.1 hx, ← h.length]
      exact hlt
  · intro x hx
    rcases List.mem_append.1 hx with hx | hx
    · exact h.server x hx
    · rw [List.mem_singleton.1 hx]
      exact Nat.mod_lt _ hservers
  · rw [hstay, hfilter]
    exact h.requestsCount
  · rw [hstay, hfilter]
    exact h.countEachServer

/-- **A thread adds what it has counted to the totals.** -/
lemma Requests.Accounts.merge (hservers : 0 < servers) {xs : List Sent}
    (h : s.Accounts servers queues xs) {thread : ℕ} {sender : Sender} {totals : List ℕ}
    (hsender : s.senders[thread]? = some sender) (horders : sender.orders = [])
    (hmerged : sender.merged = false)
    (htotals : mergeCounts s.countEachServer sender.countEachServer = some totals) :
    Requests.Accounts servers queues xs
      { senders := s.senders.set thread { sender with merged := true }
        requestsCount := s.requestsCount + sender.count
        countEachServer := totals } := by
  have hlt : thread < s.senders.length := (List.getElem?_eq_some_iff.1 hsender).1
  obtain ⟨queue, hqueue, hmine⟩ := h.sender_of_getElem? hsender
  set s' : Requests := { senders := _, requestsCount := _, countEachServer := _ } with hs'
  have hmergedAt : s.mergedAt thread = false := (mergedAt_of_getElem? hsender).trans hmerged
  have hmergedAt' : ∀ thread', s'.mergedAt thread' =
      if thread' = thread then true else s.mergedAt thread' :=
    mergedAt_of_set { sender with merged := true } hlt rfl
  have hperm := merged_perm xs hmergedAt hmergedAt'
  refine ⟨?_, ?_, h.thread, h.server, ?_, ?_⟩
  · rw [hs', List.length_set, h.length]
  · have hmine' := hmine.merge horders
    rw [← List.append_nil xs] at hmine'
    have hset := h.set hqueue hmine' (by simp)
    rwa [List.append_nil] at hset
  · rw [hs', ← hperm.countP_eq, List.countP_append, ← h.requestsCount, ← hmine.count]
  · refine Or.inr ?_
    rw [← counts_perm hperm]
    rcases h.countEachServer with ⟨hnone, hempty⟩ | hcounts
    · -- the first thread that merges
      have hfilter : (xs.filter fun x => s.mergedAt x.thread) = [] := by
        rw [List.filter_eq_nil_iff]
        intro x _
        rw [hnone]
        decide
      rw [mergeCounts, if_pos hempty, Option.some.injEq] at htotals
      rw [hfilter, List.nil_append, ← hmine.countEachServer, htotals]
    · have hne : s.countEachServer ≠ [] := by
        rw [hcounts]
        refine List.ne_nil_of_length_pos ?_
        rwa [length_counts]
      rw [mergeCounts, if_neg hne, hcounts, hmine.countEachServer, addCounts_counts,
        Option.some.injEq] at htotals
      exact htotals.symm

/-- **A step keeps the accounts.** -/
theorem Requests.Accounts.step (hservers : 0 < servers) {xs ys : List Sent} {e : SendEvent}
    (h : s.Accounts servers queues xs) (hstep : s.Steps servers e ys s') :
    s'.Accounts servers queues (xs ++ ys) := by
  cases hstep with
  | send _ hsender horders hsend => exact h.send hservers hsender horders hsend
  | merge hsender horders hmerged htotals =>
    rw [List.append_nil]
    exact h.merge hservers hsender horders hmerged htotals

lemma accounts_of_reaches (hservers : 0 < servers) {es : List SendEvent}
    (h : (requests servers queues).Reaches es s) :
    s.Accounts servers queues (sent servers queues es) := by
  induction h with
  | start => exact Requests.accounts_init servers queues
  | step hrun _ hstep ih =>
    rw [sent, hrun.trace_concat]
    exact ih.step hservers (Requests.steps_of_step hstep)

/-! ### The end -/

/-- What a thread has still to do. -/
def Sender.work (sender : Sender) : ℕ := sender.orders.length + if sender.merged then 0 else 1

/-- What all the threads have still to do. -/
def Requests.work (s : Requests) : ℕ := (s.senders.map Sender.work).sum

lemma Requests.work_of_steps {e : SendEvent} {ys : List Sent} (h : s.Steps servers e ys s') :
    s'.work + 1 = s.work := by
  cases h with
  | @send thread sender sender' order orders answer hsender horders hsend =>
    have hset := sum_map_set Sender.work hsender sender'
    rw [Sender.send, horders] at hsend
    cases hsend
    have hsender : sender.work = orders.length + 1 + if sender.merged then 0 else 1 := by
      rw [Sender.work, horders, List.length_cons]
    simp only [Requests.work, Sender.work] at hset hsender ⊢
    omega
  | @merge thread sender totals hsender horders hmerged htotals =>
    have hset := sum_map_set Sender.work hsender { sender with merged := true }
    have hsender : sender.work = 1 := by
      rw [Sender.work, horders, hmerged]
      rfl
    have hsender' : Sender.work { sender with merged := true } = 0 := by
      rw [Sender.work, horders]
      rfl
    simp only [Requests.work]
    omega

/-- A run is as long as the work that is done in it. -/
lemma length_add_work {es : List SendEvent} (h : (requests servers queues).Reaches es s) :
    es.length + s.work = (queues.map fun queue => queue.length + 1).sum := by
  induction h with
  | start =>
    rw [Requests.work, requests, List.map_map, List.length_nil, zero_add]
    rfl
  | step _ _ hstep ih =>
    have hwork := Requests.work_of_steps (Requests.steps_of_step hstep)
    rw [List.length_append, List.length_singleton]
    omega

/-- As long as a thread is not behind its critical section, some thread goes on. -/
lemma Requests.Accounts.exists_step {xs : List Sent} (h : s.Accounts servers queues xs)
    (hfinished : ¬ s.Finished) : ∃ e s', (requests servers queues).step s e = some s' := by
  rw [Requests.Finished] at hfinished
  push Not at hfinished
  obtain ⟨sender, hmem, hmerged⟩ := hfinished
  obtain ⟨thread, hsender⟩ := List.mem_iff_getElem?.1 hmem
  obtain ⟨queue, -, hmine⟩ := h.sender_of_getElem? hsender
  by_cases horders : sender.orders = []
  · have htotals : ∃ totals, mergeCounts s.countEachServer sender.countEachServer =
        some totals := by
      rw [mergeCounts]
      rcases h.countEachServer with ⟨-, hempty⟩ | hcounts
      · rw [if_pos hempty]
        exact ⟨_, rfl⟩
      · split_ifs
        · exact ⟨_, rfl⟩
        · rw [hcounts, hmine.countEachServer, addCounts_counts]
          exact ⟨_, rfl⟩
    obtain ⟨totals, htotals⟩ := htotals
    exact ⟨.merge thread, step_merge servers hsender horders (by simpa using hmerged) htotals⟩
  · exact ⟨.send thread ⟨true, .success⟩, step_send servers hsender horders _⟩

/-- What was sent and counted when all threads are through. -/
structure Totals (servers : ℕ) (queues : List (List Order)) (xs : List Sent) (s : Requests) :
    Prop where
  /-- Each thread has sent its queue, to the servers in turn. -/
  sent : ∀ (thread : ℕ) (queue : List Order), queues[thread]? = some queue →
    (Sent.by thread xs).map (fun x => (x.server, x.order)) = inTurn servers queue
  thread : ∀ x ∈ xs, x.thread < queues.length
  length : s.countEachServer.length = servers
  countEachServer : ∀ server < servers, s.countEachServer[server]? =
    some (xs.countP fun x => x.server = server && x.success)
  requestsCount : s.requestsCount = s.countEachServer.sum

lemma Sender.Accounts.inTurn {queue : List Order} {xs : List Sent} {sender : Sender}
    (h : sender.Accounts servers queue xs) (horders : sender.orders = []) :
    xs.map (fun x => (x.server, x.order)) = inTurn servers queue := by
  have horder := h.order
  rw [horders, List.append_nil] at horder
  refine List.ext_getElem? fun i => ?_
  have hserver : xs[i]?.map Sent.server = (List.range xs.length)[i]?.map (· % servers) := by
    rw [← List.getElem?_map, h.server, List.getElem?_map]
  rw [RequestGenerator.inTurn, ← horder, List.getElem?_map, List.getElem?_mapIdx,
    List.getElem?_map]
  cases hx : xs[i]? with
  | none => rfl
  | some x =>
    have hi : i < xs.length := (List.getElem?_eq_some_iff.1 hx).1
    rw [hx, List.getElem?_range hi] at hserver
    simp only [Option.map_some, Option.some.injEq] at hserver ⊢
    rw [hserver]

lemma Requests.Accounts.totals (hqueues : queues ≠ []) {xs : List Sent}
    (h : s.Accounts servers queues xs) (hfinished : s.Finished) :
    Totals servers queues xs s := by
  have hmerged : ∀ thread < queues.length, s.mergedAt thread = true := by
    intro thread hthread
    rw [← h.length] at hthread
    rw [mergedAt_of_getElem? (List.getElem?_eq_getElem hthread)]
    exact hfinished _ (List.getElem_mem hthread)
  have hfilter : (xs.filter fun x => s.mergedAt x.thread) = xs :=
    List.filter_eq_self.2 fun x hx => hmerged _ (h.thread x hx)
  have hcounts : s.countEachServer = counts servers xs := by
    rcases h.countEachServer with ⟨hnone, -⟩ | hcounts
    · have hfirst := hmerged 0 (List.length_pos_of_ne_nil hqueues)
      rw [hnone] at hfirst
      cases hfirst
    · rwa [hfilter] at hcounts
  refine ⟨?_, h.thread, ?_, ?_, ?_⟩
  · intro thread queue hqueue
    have hlt : thread < s.senders.length := by
      rw [h.length]
      exact (List.getElem?_eq_some_iff.1 hqueue).1
    have hmine := h.sender _ _ _ (List.getElem?_eq_getElem hlt) hqueue
    exact hmine.inTurn (hmine.merged (hfinished _ (List.getElem_mem hlt)))
  · rw [hcounts, length_counts]
  · intro server hserver
    rw [hcounts, counts, List.getElem?_map, List.getElem?_range hserver]
    rfl
  · rw [h.requestsCount, hfilter, hcounts, sum_counts h.server]

/-- **The totals.**  Whatever is answered, and in whatever order the threads get to their
critical sections: some thread goes on until all are through, which takes as many steps as there
are orders and threads, and then each order was sent once, and the totals are the numbers of
successes. -/
theorem totals_of_finished (servers : ℕ) (queues : List (List Order)) (hservers : 1 ≤ servers)
    (hthreads : queues ≠ []) (es : List SendEvent) (s : Requests)
    (h : (requests servers queues).Reaches es s) :
    (s.Finished → Totals servers queues (sent servers queues es) s) ∧
      (¬ s.Finished → ∃ e s', (requests servers queues).step s e = some s') ∧
      es.length ≤ (queues.map fun queue => queue.length + 1).sum :=
  ⟨(accounts_of_reaches hservers h).totals hthreads,
    (accounts_of_reaches hservers h).exists_step,
    le_of_le_of_eq (Nat.le_add_right _ _) (length_add_work h)⟩

/-- Two threads and two servers; the second thread is the first to merge, and one call fails. -/
def twoThreads : List (List Order) :=
  [[⟨.ofInt 3, .ofInt 7, .tradingBuy, .ofInt 10, .ofInt 5⟩,
      ⟨.ofInt 3, .ofInt 8, .tradingSell, .ofInt 20, .ofInt 6⟩],
    [⟨.ofInt 4, .ofInt 9, .tradingBuy, .ofInt 30, .ofInt 7⟩]]

/-- Two threads send three requests. -/
def twoThreadsRun : List SendEvent :=
  [.send 0 ⟨true, .success⟩, .send 1 ⟨false, .success⟩, .merge 1, .send 0 ⟨true, .success⟩,
    .merge 0]

theorem totals_of_finished_twoThreads : ∃ s, (requests 2 twoThreads).Reaches twoThreadsRun s ∧
    (s.Finished → Totals 2 twoThreads (sent 2 twoThreads twoThreadsRun) s) ∧
    (¬ s.Finished → ∃ e s', (requests 2 twoThreads).step s e = some s') ∧
    twoThreadsRun.length ≤ (twoThreads.map fun queue => queue.length + 1).sum := by
  have hrun : (requests 2 twoThreads).admits (fun _ _ => True) twoThreadsRun = true := by decide
  obtain ⟨s, hs⟩ := (requests 2 twoThreads).exists_run hrun
  exact ⟨s, hs, totals_of_finished 2 twoThreads (by decide) (by decide) twoThreadsRun s hs⟩

end TradingEngine.RequestGenerator
