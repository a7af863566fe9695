/-
What is left in the buffer when the writer is gone.

Every flush leaves the buffer empty, and a write that fills it flushes, so a batch has 10000
entities at most (`length_le_of_attempted`).  The thread ends after it has seen the flag and an
empty buffer, and nobody writes then: nothing is left when all posts succeed (`drained`).
-/
import TradingEngine.Database.Buffer

namespace TradingEngine.DatabaseInterface

open Lib

variable {enableThread : Bool} {es : List Event} {db : InfluxDB}

/-! ### Lengths -/

lemma length_buffer_lt (h : (database enableThread).Reaches es db) : db.buffer.length < 10000 := by
  refine h.invariant (P := fun _ db => db.buffer.length < 10000) (by simp [database]) ?_
  intro _ db e db' _ ih _ hstep
  cases InfluxDB.step_eq_some_iff.1 hstep with
  | write dataEntity reply _ =>
    simp only [InfluxDB.write]
    split_ifs with hfull
    · simp [InfluxDB.flushBuffer]
    · show (db.buffer ++ [dataEntity]).length < 10000
      omega
  | scan reply _ => simp
  | check _ => exact ih
  | flush reply _ _ => simp [InfluxDB.flushBuffer]
  | destruct _ => exact ih
  | join _ _ => exact ih

lemma length_le_of_attemptedAt (hlt : db.buffer.length < 10000) (e : Event) :
    ∀ batch ∈ attemptedAt db e, batch.1.length ≤ 10000 := by
  intro batch hbatch
  cases e with
  | write dataEntity reply =>
    simp only [attemptedAt, List.mem_ite_nil_right, List.mem_singleton] at hbatch
    rw [hbatch.2, List.length_append, List.length_singleton]
    omega
  | scan reply =>
    simp only [attemptedAt, List.mem_ite_nil_right, List.mem_singleton] at hbatch
    rw [hbatch.2]
    exact hlt.le
  | flush reply =>
    rw [attemptedAt, List.mem_singleton] at hbatch
    rw [hbatch]
    exact hlt.le
  | check => cases hbatch
  | destruct => cases hbatch
  | join => cases hbatch

/-- **A batch has 10000 entities at most.** -/
theorem length_le_of_attempted (h : (database enableThread).Reaches es db) :
    ∀ batch ∈ attempted enableThread es, batch.1.length ≤ 10000 := by
  refine h.invariant
    (P := fun es _ => ∀ batch ∈ attempted enableThread es, batch.1.length ≤ 10000)
    (by simp [attempted]) ?_
  intro es db e db' hrun ih _ _ batch hbatch
  rw [attempted, hrun.trace_concat, List.mem_append] at hbatch
  rcases hbatch with hold | hnew
  · exact ih batch hold
  · exact length_le_of_attemptedAt (length_buffer_lt hrun) e batch hnew

/-! ### The end of the thread -/

/-- The flag is set by the destructor. -/
lemma not_alive_of_flag (h : (database enableThread).Reaches es db)
    (hflag : db.threadEndFlag = true) : db.life ≠ .alive := by
  revert hflag
  refine h.invariant (P := fun _ db => db.threadEndFlag = true → db.life ≠ .alive)
    (by simp [database]) ?_
  intro _ db e db' _ ih _ hstep hflag
  cases InfluxDB.step_eq_some_iff.1 hstep with
  | write dataEntity reply hlife =>
    rw [InfluxDB.write_threadEndFlag] at hflag
    exact absurd hlife (ih hflag)
  | scan reply _ =>
    rw [InfluxDB.scan_threadEndFlag] at hflag
    rw [InfluxDB.scan_life]
    exact ih hflag
  | check _ => exact ih hflag
  | flush reply _ _ => exact ih hflag
  | destruct _ => simp
  | join _ _ => simp

/-- A thread that was told to end has left nothing in the buffer. -/
lemma buffer_nil_of_ended (h : (database enableThread).Reaches es db)
    (hposts : ∀ batch ∈ attempted enableThread es, batch.2 = true) (hended : db.thread = .ended) :
    db.buffer = [] := by
  revert hposts hended
  refine h.invariant (P := fun es db => (∀ batch ∈ attempted enableThread es, batch.2 = true) →
    db.thread = .ended → db.buffer = []) ?_ ?_
  · cases enableThread <;> simp [database]
  intro es db e db' hrun ih _ hstep hposts hended
  rw [attempted, hrun.trace_concat] at hposts
  have hold : ∀ batch ∈ attempted enableThread es, batch.2 = true :=
    fun batch hbatch => hposts batch (List.mem_append_left _ hbatch)
  cases InfluxDB.step_eq_some_iff.1 hstep with
  | write dataEntity reply hlife =>
    -- the thread has not ended while there are writers
    rw [InfluxDB.write_thread] at hended
    exfalso
    rcases ended_of_run hrun hended with hflag | ⟨batch, hbatch, hfailed, -⟩
    · exact not_alive_of_flag hrun hflag hlife
    · rw [hold batch hbatch] at hfailed
      cases hfailed
  | scan reply _ => exact db.scan_buffer reply
  | check _ =>
    simp only [InfluxDB.check] at hended ⊢
    split_ifs at hended with hend
    exact hend.2
  | flush reply _ _ => rfl
  | destruct _ => exact ih hold hended
  | join _ _ => exact ih hold hended

/-- The destructor returns after the thread has ended. -/
lemma ended_of_gone (h : (database true).Reaches es db) (hgone : db.life = .gone) :
    db.thread = .ended := by
  have hend : db.thread ≠ .absent ∧ (db.life = .gone → db.thread = .ended) := by
    refine h.invariant (P := fun _ db => db.thread ≠ .absent ∧
      (db.life = .gone → db.thread = .ended)) (by simp [database]) ?_
    rintro _ db e db' _ ⟨hpresent, ih⟩ _ hstep
    cases InfluxDB.step_eq_some_iff.1 hstep with
    | write dataEntity reply hlife =>
      rw [InfluxDB.write_thread, InfluxDB.write_life]
      exact ⟨hpresent, ih⟩
    | scan reply hthread =>
      rw [InfluxDB.scan_thread, InfluxDB.scan_life]
      refine ⟨by split_ifs <;> simp, fun hlife => ?_⟩
      rw [ih hlife] at hthread
      cases hthread
    | check hthread =>
      refine ⟨by simp only [InfluxDB.check]; split_ifs <;> simp, fun hlife => ?_⟩
      rw [ih hlife] at hthread
      cases hthread
    | flush reply _ hthread => exact absurd hthread hpresent
    | destruct hlife => exact ⟨hpresent, by rintro ⟨⟩⟩
    | join hlife hthread => exact ⟨hpresent, fun _ => hthread.resolve_left hpresent⟩
  exact hend.2 hgone

/-- **Nothing is left** when the destructor has returned and all posts have succeeded. -/
theorem drained (h : (database true).Reaches es db) (hgone : db.life = .gone)
    (hposts : ∀ batch ∈ attempted true es, batch.2 = true) :
    accepted true es = (posted true es).flatten := by
  rw [accepted_of_posted h hposts, buffer_nil_of_ended h hposts (ended_of_gone h hgone),
    List.append_nil]

end TradingEngine.DatabaseInterface
