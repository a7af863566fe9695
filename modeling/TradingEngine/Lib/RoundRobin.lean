/-
Items that are given to workers by their keys, the keys in turn.

The first key that is seen goes to worker `0`, the next new one to worker `1` and so on, over
and over; a key stays with its worker.
-/
import Mathlib.Tactic
import Mathlib.Data.Int.CardIntervalMod

namespace TradingEngine.Lib.RoundRobin

variable {α κ : Type*} [DecidableEq κ]

/-! ### The keys that are seen -/

/-- The keys, each where it is first seen. -/
def seen (keys : List κ) : List κ :=
  keys.foldl (fun ks k => if k ∈ ks then ks else ks ++ [k]) []

lemma seen_append_singleton (keys : List κ) (k : κ) :
    seen (keys ++ [k]) = if k ∈ seen keys then seen keys else seen keys ++ [k] := by
  rw [seen, List.foldl_append]
  rfl

@[simp] lemma mem_seen {keys : List κ} {k : κ} : k ∈ seen keys ↔ k ∈ keys := by
  induction keys using List.reverseRecOn with
  | nil => rfl
  | append_singleton keys k' ih =>
    rw [seen_append_singleton]
    split_ifs with hk
    · rw [ih, List.mem_append, List.mem_singleton, or_iff_left_of_imp]
      rintro rfl
      exact ih.1 hk
    · rw [List.mem_append, List.mem_append, ih]

lemma nodup_seen (keys : List κ) : (seen keys).Nodup := by
  induction keys using List.reverseRecOn with
  | nil => exact List.nodup_nil
  | append_singleton keys k ih =>
    rw [seen_append_singleton]
    split_ifs with hk
    · exact ih
    · exact ih.append (List.nodup_singleton k) (by simpa using hk)

/-! ### The worker of a key -/

variable {n : ℕ}

/-- The worker of a key, after the keys that were seen. -/
def worker (n : ℕ) (ks : List κ) (k : κ) : ℕ := ks.idxOf k % n

lemma worker_lt (hn : 0 < n) (ks : List κ) (k : κ) : worker n ks k < n := Nat.mod_lt _ hn

lemma worker_append {ks ks' : List κ} {k : κ} (h : k ∈ ks) :
    worker n (ks ++ ks') k = worker n ks k := by
  rw [worker, worker, List.idxOf_append_of_mem h]

lemma worker_new {ks : List κ} {k : κ} (h : k ∉ ks) :
    worker n (ks ++ [k]) k = ks.length % n := by
  rw [worker, List.idxOf_append_of_notMem h, List.idxOf_cons_self, add_zero]

/-- A key stays with its worker. -/
lemma worker_seen_append {keys : List κ} {k : κ} (k' : κ) (h : k ∈ keys) :
    worker n (seen (keys ++ [k'])) k = worker n (seen keys) k := by
  rw [seen_append_singleton]
  split_ifs
  · rfl
  · exact worker_append (mem_seen.2 h)

/-- The number of keys of a worker. -/
lemma card_worker {ks : List κ} (hks : ks.Nodup) (t : ℕ) :
    (ks.toFinset.filter fun k => worker n ks k = t).card =
      Nat.count (fun i => i % n = t) ks.length := by
  rw [Nat.count_eq_card_filter_range]
  refine Finset.card_bij (fun k _ => ks.idxOf k) ?_ ?_ ?_
  · intro k hk
    rw [Finset.mem_filter, List.mem_toFinset] at hk
    rw [Finset.mem_filter, Finset.mem_range]
    exact ⟨List.idxOf_lt_length_of_mem hk.1, hk.2⟩
  · intro k hk k' hk' heq
    rw [Finset.mem_filter, List.mem_toFinset] at hk
    exact (List.idxOf_inj hk.1).1 heq
  · intro i hi
    rw [Finset.mem_filter, Finset.mem_range] at hi
    have hidx : ks.idxOf ks[i] = i := hks.idxOf_getElem i hi.1
    refine ⟨ks[i], ?_, hidx⟩
    rw [Finset.mem_filter, List.mem_toFinset, worker, hidx]
    exact ⟨List.getElem_mem hi.1, hi.2⟩

lemma count_mod_le_count_mod_add_one {t t' : ℕ} (ht : t < n) (ht' : t' < n) (b : ℕ) :
    Nat.count (fun i => i % n = t) b ≤ Nat.count (fun i => i % n = t') b + 1 := by
  have hcount {t : ℕ} (ht : t < n) :
      Nat.count (fun i => i % n = t) b = b / n + if t < b % n then 1 else 0 := by
    have hmodEq := Nat.count_modEq_card b (Nat.zero_lt_of_lt ht) t
    simp only [Nat.ModEq, Nat.mod_eq_of_lt ht] at hmodEq
    exact hmodEq
  rw [hcount ht, hcount ht']
  split_ifs <;> omega

/-! ### The queues -/

variable (n) (key : α → κ)

/-- The items of a worker. -/
def queue (items : List α) (t : ℕ) : List α :=
  items.filter fun a => worker n (seen (items.map key)) (key a) = t

/-- The items of all workers. -/
def queues (items : List α) : List (List α) := (List.range n).map (queue n key items)

@[simp] lemma length_queues (items : List α) : (queues n key items).length = n := by
  simp [queues]

lemma getElem?_queues {items : List α} {t : ℕ} {q : List α}
    (h : (queues n key items)[t]? = some q) : t < n ∧ q = queue n key items t := by
  have ht : t < n := by simpa using (List.getElem?_eq_some_iff.1 h).1
  rw [queues, List.getElem?_map, List.getElem?_range ht] at h
  exact ⟨ht, (Option.some.inj h).symm⟩

lemma mem_queue {items : List α} {t : ℕ} {a : α} : a ∈ queue n key items t ↔
    a ∈ items ∧ worker n (seen (items.map key)) (key a) = t := by
  rw [queue, List.mem_filter, decide_eq_true_iff]

/-- One more item goes to the end of the queue of its worker, the others stay. -/
lemma queue_append_singleton (items : List α) (a : α) (t : ℕ) :
    queue n key (items ++ [a]) t = queue n key items t ++
      if worker n (seen ((items ++ [a]).map key)) (key a) = t then [a] else [] := by
  have hstays : ∀ b ∈ items, worker n (seen ((items ++ [a]).map key)) (key b) =
      worker n (seen (items.map key)) (key b) := by
    intro b hb
    rw [List.map_append, List.map_singleton]
    exact worker_seen_append (key a) (List.mem_map_of_mem hb)
  rw [queue, List.filter_append, queue]
  congr 1
  · refine List.filter_congr fun b hb => ?_
    rw [hstays b hb]
  · rw [List.filter_cons, List.filter_nil]
    simp only [decide_eq_true_eq]

omit [DecidableEq κ] in
/-- Two conditions that exclude one another take a list apart. -/
lemma filter_append_filter_perm {p q : α → Bool} {items : List α}
    (h : ∀ a ∈ items, p a = true → q a = false) :
    (items.filter p ++ items.filter q).Perm (items.filter fun a => p a || q a) := by
  have hp : (items.filter fun a => p a || q a).filter p = items.filter p := by
    rw [List.filter_filter]
    refine List.filter_congr fun a _ => ?_
    cases p a <;> simp
  have hq : (items.filter fun a => p a || q a).filter (fun a => !p a) = items.filter q := by
    rw [List.filter_filter]
    refine List.filter_congr fun a ha => ?_
    cases hpa : p a
    · simp
    · simp [h a ha hpa]
  rw [← hp, ← hq]
  exact List.filter_append_perm p _

omit [DecidableEq κ] in
lemma flatten_filter_perm (f : α → ℕ) (items : List α) :
    ((List.range n).map fun t => items.filter fun a => f a = t).flatten.Perm
      (items.filter fun a => f a < n) := by
  induction n with
  | zero => simp
  | succ n ih =>
    have hor : (items.filter fun a => f a < n + 1) =
        items.filter fun a => decide (f a < n) || decide (f a = n) := by
      refine List.filter_congr fun a _ => ?_
      rw [← Bool.decide_or, decide_eq_decide]
      omega
    have hexcl : ∀ a ∈ items, decide (f a < n) = true → decide (f a = n) = false := by
      intro a _ hlt
      rw [decide_eq_true_iff] at hlt
      exact decide_eq_false (by omega)
    rw [List.range_succ, List.map_append, List.flatten_append, List.map_singleton,
      List.flatten_singleton, hor]
    exact (ih.append_right _).trans (filter_append_filter_perm hexcl)

/-- **Each item is in one queue.** -/
theorem flatten_queues_perm (hn : 0 < n) (items : List α) :
    (queues n key items).flatten.Perm items := by
  refine (flatten_filter_perm n (fun a => worker n (seen (items.map key)) (key a)) items).trans ?_
  rw [List.filter_eq_self.2 fun a _ => by simpa using worker_lt hn _ _]

/-- Items of one key are in the queue of one worker, in their order. -/
lemma filter_queue (items : List α) (k : κ) :
    (queue n key items (worker n (seen (items.map key)) k)).filter (fun a => key a = k) =
      items.filter fun a => key a = k := by
  rw [queue, List.filter_filter]
  refine List.filter_congr fun a _ => ?_
  rw [← Bool.decide_and, decide_eq_decide, and_iff_left_iff_imp]
  rintro rfl
  rfl

/-- **Items of one key stay in their order**, whatever the order in which the workers take turns:
`done` has the items with their workers, and what a worker has done is its queue. -/
theorem filter_of_workers (hn : 0 < n) {items : List α} {done : List (ℕ × α)}
    (h : ∀ t, (done.filter fun x => x.1 = t).map Prod.snd = (queues n key items)[t]?.getD [])
    (k : κ) : (done.map Prod.snd).filter (fun a => key a = k) =
      items.filter fun a => key a = k := by
  set t := worker n (seen (items.map key)) k with ht
  have hlt : t < n := worker_lt hn _ k
  have hworker : ∀ x ∈ done, worker n (seen (items.map key)) (key x.2) = x.1 := by
    intro x hx
    have hmem : x.2 ∈ (done.filter fun y => y.1 = x.1).map Prod.snd :=
      List.mem_map_of_mem (List.mem_filter.2 ⟨hx, by simp⟩)
    rw [h] at hmem
    cases hq : (queues n key items)[x.1]? with
    | none => simp [hq] at hmem
    | some q =>
      rw [hq, Option.getD_some, (getElem?_queues n key hq).2] at hmem
      exact ((mem_queue n key).1 hmem).2
  have hqueue : (queues n key items)[t]?.getD [] = queue n key items t := by
    rw [queues, List.getElem?_map, List.getElem?_range hlt]
    rfl
  calc
    (done.map Prod.snd).filter (fun a => key a = k) =
        (done.filter fun x => key x.2 = k).map Prod.snd := List.filter_map
    _ = ((done.filter fun x => x.1 = t).filter fun x => key x.2 = k).map Prod.snd := by
      rw [List.filter_filter]
      refine congrArg (List.map Prod.snd) (List.filter_congr fun x hx => ?_)
      rw [← Bool.decide_and, decide_eq_decide, iff_self_and]
      rintro rfl
      exact (hworker x hx).symm
    _ = ((done.filter fun x => x.1 = t).map Prod.snd).filter fun a => key a = k := by
      rw [List.filter_map]
      rfl
    _ = items.filter fun a => key a = k := by rw [h, hqueue, ht, filter_queue]

/-- **The keys are spread evenly**: the numbers of keys of two workers differ by one at most. -/
theorem card_keys_le {items : List α} {t t' : ℕ} (ht : t < n) (ht' : t' < n) :
    ((queue n key items t).map key).toFinset.card ≤
      ((queue n key items t').map key).toFinset.card + 1 := by
  have hcard (t : ℕ) : ((queue n key items t).map key).toFinset.card =
      Nat.count (fun i => i % n = t) (seen (items.map key)).length := by
    rw [← card_worker (nodup_seen _)]
    congr 1
    ext k
    simp only [List.mem_toFinset, List.mem_map, mem_queue, Finset.mem_filter, mem_seen]
    constructor
    · rintro ⟨a, ⟨ha, hworker⟩, rfl⟩
      exact ⟨⟨a, ha, rfl⟩, hworker⟩
    · rintro ⟨⟨a, ha, rfl⟩, hworker⟩
      exact ⟨a, ⟨ha, hworker⟩, rfl⟩
  rw [hcard, hcard]
  exact count_mod_le_count_mod_add_one ht ht' _

end TradingEngine.Lib.RoundRobin
