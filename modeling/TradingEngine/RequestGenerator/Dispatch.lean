/-
How the orders are given to the threads (`Generator::Start`).
-/
import TradingEngine.Common.Protobuf
import TradingEngine.Lib.RoundRobin

namespace TradingEngine.RequestGenerator

open OrderManagerProto (Order)
open Lib RoundRobin

/-- The variables of the loop of `Start`. -/
structure Dispatcher where
  symbolToThread : List (I32 × ℕ) := []
  threadNumNow : ℕ := 0
  ordersForThread : List (List Order)
  deriving DecidableEq

namespace Dispatcher

/-- A symbol that is not in the map yet gets the thread that is next. -/
def see (numOfThreads : ℕ) (s : Dispatcher) (symbol : I32) : Dispatcher :=
  if s.symbolToThread.lookup symbol = none then
    { s with
      symbolToThread := s.symbolToThread ++ [(symbol, s.threadNumNow)]
      threadNumNow := if s.threadNumNow + 1 = numOfThreads then 0 else s.threadNumNow + 1 }
  else s

/-- A round of the loop; `none` if there is no queue of this index. -/
def round (numOfThreads : ℕ) (s : Dispatcher) (order : Order) : Option Dispatcher := do
  let s := s.see numOfThreads order.symbol
  let thread ← s.symbolToThread.lookup order.symbol
  if thread < s.ordersForThread.length then
    return { s with ordersForThread := s.ordersForThread.modify thread (· ++ [order]) }
  else none

end Dispatcher

/-- The loop of `Start` over the orders of the queue, from the empty queues of the constructor. -/
def dispatch (numOfThreads : ℕ) (orders : List Order) : Option Dispatcher :=
  orders.foldlM (Dispatcher.round numOfThreads)
    { ordersForThread := List.replicate numOfThreads [] }

/-! ### The loop gives the symbols to the threads in turn -/

/-- The variables after some orders. -/
structure Tracks (n : ℕ) (orders : List Order) (s : Dispatcher) : Prop where
  thread : ∀ symbol, s.symbolToThread.lookup symbol =
    if symbol ∈ orders.map Order.symbol then
      some (worker n (seen (orders.map Order.symbol)) symbol)
    else none
  now : s.threadNumNow = (seen (orders.map Order.symbol)).length % n
  queues : s.ordersForThread = queues n Order.symbol orders

variable {n : ℕ} {orders : List Order} {s : Dispatcher}

lemma tracks_nil : Tracks n [] { ordersForThread := List.replicate n [] } where
  thread _ := rfl
  now := (Nat.zero_mod n).symm
  queues := by
    have hconst : (List.range n).map (fun _ => ([] : List Order)) = _ := List.map_const'
    rw [List.length_range] at hconst
    exact hconst.symm

lemma succ_mod (hn : 0 < n) (m : ℕ) :
    (m + 1) % n = if m % n + 1 = n then 0 else m % n + 1 := by
  have hlt : m % n < n := Nat.mod_lt m hn
  have hdiv : n * (m / n) + m % n = m := Nat.div_add_mod m n
  split_ifs with hlast
  · have hsucc : m + 1 = n * (m / n + 1) := by
      rw [Nat.mul_add, Nat.mul_one]
      omega
    rw [hsucc, Nat.mul_mod_right]
  · have hsucc : m + 1 = n * (m / n) + (m % n + 1) := by omega
    rw [hsucc, Nat.mul_add_mod, Nat.mod_eq_of_lt (by omega)]

/-- After its symbol is seen, an order finds its thread. -/
lemma Tracks.see (hn : 0 < n) (h : Tracks n orders s) (order : Order) :
    let keys := (orders ++ [order]).map Order.symbol
    (∀ symbol, (s.see n order.symbol).symbolToThread.lookup symbol =
      if symbol ∈ keys then some (worker n (seen keys) symbol) else none) ∧
      (s.see n order.symbol).threadNumNow = (seen keys).length % n ∧
      (s.see n order.symbol).ordersForThread = s.ordersForThread := by
  intro keys
  have hkeys : keys = orders.map Order.symbol ++ [order.symbol] := by simp [keys]
  have hseen : seen keys = if order.symbol ∈ seen (orders.map Order.symbol) then
      seen (orders.map Order.symbol) else seen (orders.map Order.symbol) ++ [order.symbol] := by
    rw [hkeys, seen_append_singleton]
  by_cases hold : order.symbol ∈ orders.map Order.symbol
  · -- the map and the counter stay
    rw [if_pos (mem_seen.2 hold)] at hseen
    have hsee : s.see n order.symbol = s := by
      rw [Dispatcher.see, h.thread, if_pos hold, if_neg (by simp)]
    rw [hsee, hseen]
    refine ⟨fun symbol => ?_, h.now, rfl⟩
    have hmem : symbol ∈ keys ↔ symbol ∈ orders.map Order.symbol := by
      rw [hkeys, List.mem_append, List.mem_singleton, or_iff_left_of_imp]
      rintro rfl
      exact hold
    rw [h.thread]
    simp only [hmem]
  · have hnew : order.symbol ∉ seen (orders.map Order.symbol) := fun h => hold (mem_seen.1 h)
    rw [if_neg hnew] at hseen
    have hsee : s.see n order.symbol =
        { s with
          symbolToThread := s.symbolToThread ++ [(order.symbol, s.threadNumNow)]
          threadNumNow := if s.threadNumNow + 1 = n then 0 else s.threadNumNow + 1 } := by
      rw [Dispatcher.see, h.thread, if_neg hold, if_pos rfl]
    rw [hsee, hseen]
    refine ⟨fun symbol => ?_, ?_, rfl⟩
    · rw [List.lookup_append, h.thread]
      by_cases hsymbol : symbol ∈ orders.map Order.symbol
      · rw [if_pos hsymbol, if_pos (by rw [hkeys]; exact List.mem_append_left _ hsymbol),
          worker_append (mem_seen.2 hsymbol)]
        rfl
      · rw [if_neg hsymbol, Option.none_or]
        rcases eq_or_ne symbol order.symbol with rfl | hne
        · rw [if_pos (by simp [hkeys]), worker_new hnew, List.lookup_cons_self, h.now]
        · rw [if_neg (by simpa [hkeys, hne] using hsymbol), List.lookup_cons, List.lookup_nil]
          rw [beq_false_of_ne hne]
    · rw [List.length_append, List.length_singleton, succ_mod hn, h.now]

/-- One order more is put into the queue of its worker. -/
lemma Tracks.round (hn : 0 < n) (h : Tracks n orders s) (order : Order) :
    ∃ s', s.round n order = some s' ∧ Tracks n (orders ++ [order]) s' := by
  obtain ⟨hthread, hnow, hqueues⟩ := h.see hn order
  have hmem : order.symbol ∈ (orders ++ [order]).map Order.symbol := by simp
  have hlookup := hthread order.symbol
  rw [if_pos hmem] at hlookup
  have hlength : (s.see n order.symbol).ordersForThread.length = n := by
    rw [hqueues, h.queues, length_queues]
  have hround : s.round n order = some { s.see n order.symbol with
      ordersForThread := (s.see n order.symbol).ordersForThread.modify
        (worker n (seen ((orders ++ [order]).map Order.symbol)) order.symbol)
        (· ++ [order]) } := by
    rw [Dispatcher.round, hlookup]
    change (if _ then _ else _) = _
    rw [hlength]
    exact if_pos (worker_lt hn _ _)
  refine ⟨_, hround, hthread, hnow, ?_⟩
  rw [hqueues, h.queues]
  refine List.ext_getElem? fun t => ?_
  rw [List.getElem?_modify, RoundRobin.queues, RoundRobin.queues, List.getElem?_map,
    List.getElem?_map]
  by_cases ht : t < n
  · rw [List.getElem?_range ht, Option.map_some, Option.map_some, queue_append_singleton]
    split_ifs <;> simp
  · rw [List.getElem?_eq_none (by simpa using ht)]
    rfl

/-- **The loop**: the symbols go to the threads in turn. -/
theorem dispatch_tracks (hn : 0 < n) (orders : List Order) :
    ∃ s, dispatch n orders = some s ∧ Tracks n orders s := by
  induction orders using List.reverseRecOn with
  | nil => exact ⟨_, rfl, tracks_nil⟩
  | append_singleton orders order ih =>
    obtain ⟨s, hs, htracks⟩ := ih
    obtain ⟨s', hs', htracks'⟩ := htracks.round hn order
    refine ⟨s', ?_, htracks'⟩
    rw [dispatch, List.foldlM_append, ← dispatch, hs]
    exact (bind_pure _).trans hs'

/-! ### The queues of the threads -/

/-- The orders are shared out to the queues. -/
structure SharedOut (numOfThreads : ℕ) (orders : List Order) (qs : List (List Order)) : Prop where
  length : qs.length = numOfThreads
  perm : qs.flatten.Perm orders
  sublist : ∀ q ∈ qs, q.Sublist orders
  /-- No symbol is in two queues. -/
  thread : ∀ (t t' : ℕ) (q q' : List Order), qs[t]? = some q → qs[t']? = some q' →
    ∀ order ∈ q, ∀ order' ∈ q', order.symbol = order'.symbol → t = t'
  /-- The orders of a symbol are in one queue, one after the other. -/
  inOrder : ∀ symbol, ∃ q ∈ qs,
    (q.filter fun order => order.symbol = symbol) = orders.filter fun order => order.symbol = symbol
  /-- The symbols are spread evenly. -/
  balanced : ∀ q ∈ qs, ∀ q' ∈ qs,
    (q.map Order.symbol).toFinset.card ≤ (q'.map Order.symbol).toFinset.card + 1

lemma sharedOut_queues (hn : 0 < n) (orders : List Order) :
    SharedOut n orders (queues n Order.symbol orders) where
  length := length_queues n Order.symbol orders
  perm := flatten_queues_perm n Order.symbol hn orders
  sublist q hq := by
    obtain ⟨t, _, rfl⟩ := List.mem_map.1 hq
    exact List.filter_sublist
  thread t t' q q' ht ht' order hq order' hq' hsymbol := by
    obtain ⟨-, rfl⟩ := getElem?_queues n Order.symbol ht
    obtain ⟨-, rfl⟩ := getElem?_queues n Order.symbol ht'
    rw [← ((mem_queue n Order.symbol).1 hq).2, ← ((mem_queue n Order.symbol).1 hq').2, hsymbol]
  inOrder symbol :=
    ⟨_, List.mem_map_of_mem (List.mem_range.2 (worker_lt hn _ symbol)),
      filter_queue n Order.symbol orders symbol⟩
  balanced q hq q' hq' := by
    obtain ⟨t, ht, rfl⟩ := List.mem_map.1 hq
    obtain ⟨t', ht', rfl⟩ := List.mem_map.1 hq'
    exact card_keys_le n Order.symbol (List.mem_range.1 ht) (List.mem_range.1 ht')

/-- **The dispatch**: with any number of threads the loop of `Start` uses only queues that
exist, and shares the orders out to them. -/
theorem dispatch_sharedOut (numOfThreads : ℕ) (hthreads : 1 ≤ numOfThreads)
    (orders : List Order) : ∃ s, dispatch numOfThreads orders = some s ∧
      (∀ symbol thread, s.symbolToThread.lookup symbol = some thread → thread < numOfThreads) ∧
      SharedOut numOfThreads orders s.ordersForThread := by
  obtain ⟨s, hs, htracks⟩ := dispatch_tracks hthreads orders
  refine ⟨s, hs, ?_, ?_⟩
  · intro symbol thread hthread
    rw [htracks.thread, Option.ite_none_right_eq_some] at hthread
    rw [← Option.some.inj hthread.2]
    exact worker_lt hthreads _ symbol
  · rw [htracks.queues]
    exact sharedOut_queues hthreads orders

theorem dispatch_sharedOut_two : ∃ s, dispatch 2
      [⟨.ofInt 3, .ofInt 7, .tradingBuy, .ofInt 10, .ofInt 5⟩,
        ⟨.ofInt 4, .ofInt 8, .tradingSell, .ofInt 20, .ofInt 6⟩] = some s ∧
    (∀ symbol thread, s.symbolToThread.lookup symbol = some thread → thread < 2) ∧
    SharedOut 2
      [⟨.ofInt 3, .ofInt 7, .tradingBuy, .ofInt 10, .ofInt 5⟩,
        ⟨.ofInt 4, .ofInt 8, .tradingSell, .ofInt 20, .ofInt 6⟩] s.ordersForThread :=
  dispatch_sharedOut 2 (by decide) _

end TradingEngine.RequestGenerator
