/-
What the buffered writer does with the entities it accepts.

Every entity that was accepted went into one batch, in order, or is in the buffer
(`accepted_eq`).  Batches that the server refuses are gone, and a refused batch ends the
thread; `keeps_iff` says that nothing else is lost.
-/
import TradingEngine.Common.DatabaseInterface

namespace TradingEngine.DatabaseInterface

open Lib

/-! ### Batches -/

/-- The entities for which `write` returns `true`. -/
def acceptedAt (_ : InfluxDB) : Event → List Entity
  | .write dataEntity _ => [dataEntity]
  | _ => []

/-- The batch of a flush, and whether the server takes it. -/
def attemptedAt (db : InfluxDB) : Event → List (List Entity × Bool)
  | .write dataEntity reply =>
    if 10000 ≤ (db.buffer ++ [dataEntity]).length then
      [(db.buffer ++ [dataEntity], reply.success)]
    else []
  | .scan reply => if db.buffer ≠ [] then [(db.buffer, reply.success)] else []
  | .flush reply => [(db.buffer, reply.success)]
  | _ => []

variable (enableThread : Bool)

/-- The accepted entities, in order. -/
def accepted (es : List Event) : List Entity := (database enableThread).trace acceptedAt es

/-- The batches that were posted, with success or not. -/
def attempted (es : List Event) : List (List Entity × Bool) :=
  (database enableThread).trace attemptedAt es

/-- The batches that were posted successfully. -/
def posted (es : List Event) : List (List Entity) :=
  ((attempted enableThread es).filter Prod.snd).map Prod.fst

variable {enableThread}

/-- A step moves the buffer into a batch, or keeps it. -/
lemma step_buffer {db db' : InfluxDB} {e : Event} (h : db.step e = some db') :
    db.buffer ++ acceptedAt db e = (attemptedAt db e).flatMap Prod.fst ++ db'.buffer := by
  cases InfluxDB.step_eq_some_iff.1 h with
  | write dataEntity reply _ =>
    simp only [acceptedAt, attemptedAt, InfluxDB.write]
    split_ifs <;> simp [InfluxDB.flushBuffer]
  | scan reply _ =>
    by_cases hbuffer : db.buffer = [] <;>
      simp [acceptedAt, attemptedAt, InfluxDB.scan, InfluxDB.flushBuffer, hbuffer]
  | check _ => simp [acceptedAt, attemptedAt, InfluxDB.check]
  | flush reply _ _ => simp [acceptedAt, attemptedAt, InfluxDB.flushBuffer]
  | destruct _ => simp [acceptedAt, attemptedAt]
  | join _ _ => simp [acceptedAt, attemptedAt]

/-- **Every accepted entity is in one batch or in the buffer**, in order. -/
theorem accepted_eq {es : List Event} {db : InfluxDB} (h : (database enableThread).Reaches es db) :
    accepted enableThread es = (attempted enableThread es).flatMap Prod.fst ++ db.buffer := by
  have hbatches : (database enableThread).trace
      (fun db e => (attemptedAt db e).flatMap Prod.fst) es =
      (attempted enableThread es).flatMap Prod.fst := h.trace_flatMap Prod.fst
  rw [← hbatches]
  exact h.channel rfl fun _ _ _ _ _ _ hstep => step_buffer hstep

/-! ### Refused batches -/

/-- Leaving batches out changes nothing exactly when they are empty. -/
lemma flatMap_filter_eq_iff {α : Type*} (l : List (List α × Bool)) :
    l.flatMap Prod.fst = (l.filter Prod.snd).flatMap Prod.fst ↔
      ∀ batch ∈ l, batch.2 = true ∨ batch.1 = [] := by
  induction l with
  | nil => simp
  | cons batch l ih =>
    obtain ⟨batch, success⟩ := batch
    cases success with
    | true => simp [ih]
    | false =>
      have hle : ((l.filter Prod.snd).flatMap Prod.fst).length ≤ (l.flatMap Prod.fst).length :=
        (List.filter_sublist.flatMap _).length_le
      simp only [List.flatMap_cons, List.filter_cons_of_neg, List.mem_cons, forall_eq_or_imp,
        Bool.false_eq_true, false_or, not_false_eq_true]
      rw [← ih]
      constructor
      · intro heq
        have hlength := congrArg List.length heq
        rw [List.length_append] at hlength
        obtain rfl : batch = [] := List.eq_nil_of_length_eq_zero (by omega)
        exact ⟨rfl, heq⟩
      · rintro ⟨rfl, heq⟩
        exact heq

/-- When the server takes all batches, the accepted entities are those of the batches and those
of the buffer. -/
lemma accepted_of_posted {es : List Event} {db : InfluxDB}
    (h : (database enableThread).Reaches es db)
    (hposts : ∀ batch ∈ attempted enableThread es, batch.2 = true) :
    accepted enableThread es = (posted enableThread es).flatten ++ db.buffer := by
  rw [accepted_eq h, (flatMap_filter_eq_iff _).2 fun batch hbatch => Or.inl (hposts batch hbatch),
    posted, ← List.flatMap_def]

/-- The thread ends when it is told to, or after a refused batch. -/
lemma ended_of_run {es : List Event} {db : InfluxDB} (h : (database enableThread).Reaches es db)
    (hended : db.thread = .ended) : db.threadEndFlag = true ∨
      ∃ batch ∈ attempted enableThread es, batch.2 = false ∧ batch.1 ≠ [] := by
  revert hended
  refine h.invariant (P := fun es db => db.thread = .ended → db.threadEndFlag = true ∨
    ∃ batch ∈ attempted enableThread es, batch.2 = false ∧ batch.1 ≠ []) ?_ ?_
  · cases enableThread <;> simp [database]
  intro es db e db' hrun ih _ hstep hended
  have htrace : attempted enableThread (es ++ [e]) =
      attempted enableThread es ++ attemptedAt db e := hrun.trace_concat _ e
  have hold : db.thread = .ended → (db.threadEndFlag = true → db'.threadEndFlag = true) →
      db'.threadEndFlag = true ∨
        ∃ batch ∈ attempted enableThread (es ++ [e]), batch.2 = false ∧ batch.1 ≠ [] := by
    intro hthread hflag
    rcases ih hthread with h | ⟨batch, hbatch, hlost⟩
    · exact Or.inl (hflag h)
    · rw [htrace]
      exact Or.inr ⟨batch, List.mem_append_left _ hbatch, hlost⟩
  cases InfluxDB.step_eq_some_iff.1 hstep with
  | write dataEntity reply _ =>
    rw [InfluxDB.write_thread] at hended
    rw [InfluxDB.write_threadEndFlag] at hold ⊢
    exact hold hended id
  | scan reply _ =>
    rw [InfluxDB.scan_thread] at hended
    split_ifs at hended with hscan
    -- the flush has failed
    rw [not_or] at hscan
    refine Or.inr ⟨(db.buffer, reply.success), ?_, Bool.eq_false_of_not_eq_true hscan.2, hscan.1⟩
    rw [htrace, attemptedAt, if_pos hscan.1]
    simp
  | check _ =>
    simp only [InfluxDB.check] at hended ⊢
    split_ifs at hended with hend
    exact Or.inl hend.1
  | flush reply _ _ => exact hold hended id
  | destruct _ =>
    simp only at hended hold ⊢
    split_ifs at hold ⊢
    · exact hold hended id
    · exact Or.inl rfl
  | join _ _ => exact hold hended id

/-- Nothing is lost: every accepted entity is in the buffer or in exactly one batch that was
posted successfully, in order, and the thread runs until it is told to end. -/
structure Keeps (enableThread : Bool) (es : List Event) (db : InfluxDB) : Prop where
  entities : accepted enableThread es = (posted enableThread es).flatten ++ db.buffer
  thread : db.thread = .ended → db.threadEndFlag = true

/-- **Nothing is lost** if and only if every batch with entities is posted successfully.  The buffer
is the one of the object: after `destruct` (and `join`) without the thread it is that of an object
which is gone, and its entities are lost with it.  Without the thread `write` takes no mutex, so a
writer is then used by one thread of its process only. -/
theorem keeps_iff (enableThread : Bool) (es : List Event) (db : InfluxDB)
    (h : (database enableThread).Reaches es db) : Keeps enableThread es db ↔
      ∀ batch ∈ attempted enableThread es, batch.2 = true ∨ batch.1 = [] := by
  rw [← flatMap_filter_eq_iff]
  constructor
  · intro hkeeps
    have heq := hkeeps.entities
    rw [accepted_eq h, posted, ← List.flatMap_def] at heq
    exact List.append_cancel_right heq
  · intro heq
    refine ⟨?_, fun hended => ?_⟩
    · rw [accepted_eq h, heq, posted, ← List.flatMap_def]
    · rcases ended_of_run h hended with hflag | ⟨batch, hbatch, hfail, hne⟩
      · exact hflag
      · rcases (flatMap_filter_eq_iff _).1 heq batch hbatch with hsuccess | hnil
        · rw [hfail] at hsuccess
          cases hsuccess
        · exact absurd hnil hne

/-- An entity is written and the thread posts it. -/
def writeAndScan (reply : Reply) : List Event :=
  [.write ⟨"order", [], [⟨"order_id", "1"⟩], 5⟩ ⟨0, ""⟩, .scan reply]

theorem keeps_of_success : ∃ db, (database true).Reaches (writeAndScan ⟨0, ""⟩) db ∧
    Keeps true (writeAndScan ⟨0, ""⟩) db := by
  have hrun : (database true).admits (fun _ _ => True) (writeAndScan ⟨0, ""⟩) := by decide
  obtain ⟨db, hdb⟩ := (database true).exists_run hrun
  exact ⟨db, hdb, (keeps_iff true _ db hdb).2 (by decide)⟩

/-- The server cannot be reached while the thread posts the entity. -/
theorem not_keeps_of_failure : ¬ ∀ (es : List Event) (db : InfluxDB),
    (database true).Reaches es db → Keeps true es db := by
  intro hall
  have hrun : (database true).admits (fun _ _ => True) (writeAndScan ⟨-3, ""⟩) := by decide
  obtain ⟨db, hdb⟩ := (database true).exists_run hrun
  have hbuffer : ((database true).runFrom (fun _ _ => True) (database true).init
      (writeAndScan ⟨-3, ""⟩)).map InfluxDB.buffer = some [] := by decide
  rw [hdb.runFrom, Option.map_some, Option.some.injEq] at hbuffer
  have hentities := (hall _ db hdb).entities
  rw [hbuffer] at hentities
  revert hentities
  decide

end TradingEngine.DatabaseInterface
