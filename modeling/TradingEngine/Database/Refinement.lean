/-
The runs of the threads refine the runs in which a call is one step.

A call of `write` takes effect when it tests the size of the buffer, and a round of
`thread_main` when it flushes; the reads without the lock are one step with the flag, because
nobody writes any more when the flag is set (`exists_refines`).  What is posted by the time the
destructor returns follows from `drained` (`destructor_drains`).
-/
import TradingEngine.Database.Drain
import TradingEngine.Database.Threads

namespace TradingEngine.DatabaseInterface

open Lib

/-! ### Calls as one step -/

/-- The entity that is in the buffer while its call has not come to the end. -/
def WriterStage.pending : WriterStage → List Entity
  | emplaced dataEntity => [dataEntity]
  | outside | locking _ | locked _ | unlocking => []

/-- Where `thread_main` is when the steps between locking and unlocking are one step. -/
def MainStage.atomic : MainStage → ThreadStage
  | locking | locked | sleeping => .scanning
  | unlocking true | readingFlag | readingSize => .checking
  | unlocking false | ended => .ended

namespace Threads

variable {W : Type} [DecidableEq W] {es : List (ThreadEvent W)} {s : Threads W}

/-- The entities of a call that is not finished. -/
def pending (s : Threads W) : List Entity :=
  match s.bufferMutex with
  | .writer w => (s.writer w).pending
  | _ => []

lemma pending_setWriter {w : W} {stage : WriterStage}
    (h : stage.pending = (s.writer w).pending) : (s.setWriter w stage).pending = s.pending := by
  show (match s.bufferMutex with
    | .writer w' => ((s.setWriter w stage).writer w').pending
    | _ => []) = s.pending
  rw [pending]
  cases s.bufferMutex with
  | nobody => rfl
  | main => rfl
  | writer w' =>
    by_cases hw : w' = w
    · simp [writer_setWriter, hw, h]
    · simp [writer_setWriter, hw]

omit [DecidableEq W] in
lemma pending_of_returned (h : ∀ w, s.writer w = .outside) : s.pending = [] := by
  rw [pending]
  cases s.bufferMutex with
  | nobody => rfl
  | main => rfl
  | writer w => simp [h w, WriterStage.pending]

omit [DecidableEq W] in
lemma Exclusive.pending_writer (h : s.Exclusive) {w : W} (hholds : (s.writer w).Holds) :
    s.pending = (s.writer w).pending := by
  rw [pending, h.writer w hholds]

omit [DecidableEq W] in
lemma Exclusive.pending_main (h : s.Exclusive) (hholds : s.main.Holds) : s.pending = [] := by
  rw [pending, h.main hholds]

/-- A run of the threads, and a run in which a call is one step. -/
structure Refines (es : List (ThreadEvent W)) (s : Threads W) (es' : List Event)
    (db : InfluxDB) : Prop where
  buffer : s.buffer = db.buffer ++ s.pending
  flag : db.threadEndFlag = s.threadEndFlag
  life : db.life = s.life
  thread : db.thread = s.main.atomic
  entered : (entered es).map Prod.snd = accepted true es' ++ s.pending
  attempted : attempted es = DatabaseInterface.attempted true es'

namespace Refines

variable {es' : List Event} {db : InfluxDB}

/-- A step that the other run does not have. -/
lemma silent {s' : Threads W} {e : ThreadEvent W} (h : Refines es s es' db)
    (hrun : (threads W).Reaches es s)
    (hbuffer : s'.buffer = s.buffer ++ (s.enteredAt e).map Prod.snd)
    (hpending : s'.pending = s.pending ++ (s.enteredAt e).map Prod.snd)
    (hattempted : s.attemptedAt e = []) (hflag : s'.threadEndFlag = s.threadEndFlag)
    (hlife : s'.life = s.life) (hthread : s'.main.atomic = s.main.atomic) :
    Refines (es ++ [e]) s' es' db where
  buffer := by rw [hbuffer, h.buffer, hpending, List.append_assoc]
  flag := by rw [h.flag, hflag]
  life := by rw [h.life, hlife]
  thread := by rw [h.thread, hthread]
  entered := by
    have htrace : Threads.entered (es ++ [e]) = Threads.entered es ++ s.enteredAt e :=
      hrun.trace_concat _ e
    rw [htrace, List.map_append, h.entered, hpending, List.append_assoc]
  attempted := by
    have htrace : Threads.attempted (es ++ [e]) = Threads.attempted es ++ s.attemptedAt e :=
      hrun.trace_concat _ e
    rw [htrace, hattempted, List.append_nil, h.attempted]

/-- A step of both runs. -/
lemma both {s' : Threads W} {db' : InfluxDB} {e : ThreadEvent W} {e' : Event}
    (h : Refines es s es' db) (hrun : (threads W).Reaches es s)
    (hrun' : (database true).Reaches es' db) (hbuffer : s'.buffer = db'.buffer ++ s'.pending)
    (hflag : db'.threadEndFlag = s'.threadEndFlag) (hlife : db'.life = s'.life)
    (hthread : db'.thread = s'.main.atomic)
    (hentered : s.pending ++ (s.enteredAt e).map Prod.snd = acceptedAt db e' ++ s'.pending)
    (hattempted : s.attemptedAt e = DatabaseInterface.attemptedAt db e') :
    Refines (es ++ [e]) s' (es' ++ [e']) db' where
  buffer := hbuffer
  flag := hflag
  life := hlife
  thread := hthread
  entered := by
    have htrace : Threads.entered (es ++ [e]) = Threads.entered es ++ s.enteredAt e :=
      hrun.trace_concat _ e
    have htrace' : accepted true (es' ++ [e']) = accepted true es' ++ acceptedAt db e' :=
      hrun'.trace_concat _ e'
    rw [htrace, htrace', List.map_append, h.entered, List.append_assoc, hentered,
      List.append_assoc]
  attempted := by
    have htrace : Threads.attempted (es ++ [e]) = Threads.attempted es ++ s.attemptedAt e :=
      hrun.trace_concat _ e
    have htrace' : DatabaseInterface.attempted true (es' ++ [e']) =
        DatabaseInterface.attempted true es' ++ DatabaseInterface.attemptedAt db e' :=
      hrun'.trace_concat _ e'
    rw [htrace, htrace', h.attempted, hattempted]

variable (h : Refines es s es' db) (hrun : (threads W).Run Returned es s)
  (hrun' : (database true).Reaches es' db)

include h hrun hrun'

/-- The call is one step when it tests the size. -/
lemma flush {w : W} {dataEntity : Entity} (reply : Reply)
    (hwriter : s.writer w = .emplaced dataEntity) :
    ∃ es'' db', (database true).Reaches es'' db' ∧ Refines (es ++ [.flush w reply])
      { s.setWriter w .unlocking with
        buffer := if 10000 ≤ s.buffer.length then [] else s.buffer } es'' db' := by
  have hexclusive := exclusive_of_run hrun.reaches
  have hholds : (s.writer w).Holds := by rw [hwriter]; trivial
  have hpending : s.pending = [dataEntity] := by
    rw [hexclusive.pending_writer hholds, hwriter, WriterStage.pending]
  have hbuffer : s.buffer = db.buffer ++ [dataEntity] := by rw [h.buffer, hpending]
  have hlife : db.life = .alive := by
    rw [h.life]
    by_contra hlife
    have houtside := (stopped_of_run hrun).writer hlife w
    rw [hwriter] at houtside
    cases houtside
  have hpending' : Threads.pending { s.setWriter w .unlocking with
      buffer := if 10000 ≤ s.buffer.length then [] else s.buffer } = [] := by
    simp [pending, setWriter, hexclusive.writer w hholds, WriterStage.pending]
  refine ⟨_, _, hrun'.step trivial (InfluxDB.step_eq_some_iff.2 (.write dataEntity reply hlife)),
    h.both hrun.reaches hrun' ?_ ?_ ?_ ?_ ?_ ?_⟩
  · rw [hpending', InfluxDB.write_buffer, hbuffer, List.append_nil]
  · rw [InfluxDB.write_threadEndFlag, h.flag]
    rfl
  · rw [InfluxDB.write_life, h.life]
    rfl
  · rw [InfluxDB.write_thread, h.thread]
    rfl
  · rw [hpending', hpending]
    rfl
  · rw [attemptedAt, DatabaseInterface.attemptedAt, hbuffer]

/-- The thread flushes what the finished calls have written. -/
lemma mainFlush (reply : Reply) (hmain : s.main = .locked) :
    ∃ es'' db', (database true).Reaches es'' db' ∧ Refines (es ++ [.mainFlush reply])
      { s with
        main := .unlocking (if s.buffer ≠ [] then reply.success else true)
        buffer := [] } es'' db' := by
  have hholds : s.main.Holds := by rw [hmain]; trivial
  have hexclusive := exclusive_of_run hrun.reaches
  have hmutex := hexclusive.main hholds
  have hbuffer : s.buffer = db.buffer := by
    rw [h.buffer, hexclusive.pending_main hholds, List.append_nil]
  have hthread : db.thread = .scanning := by
    rw [h.thread, hmain]
    rfl
  refine ⟨_, _, hrun'.step trivial (InfluxDB.step_eq_some_iff.2 (.scan reply hthread)),
    h.both hrun.reaches hrun' ?_ ?_ ?_ ?_ ?_ ?_⟩
  · simp [pending, hmutex]
  · rw [InfluxDB.scan_threadEndFlag, h.flag]
  · rw [InfluxDB.scan_life, h.life]
  · rw [InfluxDB.scan_thread, ← hbuffer]
    by_cases hnil : s.buffer = []
    · simp [hnil, MainStage.atomic]
    · cases reply.success <;> simp [hnil, MainStage.atomic]
  · simp [pending, hmutex, enteredAt, acceptedAt]
  · rw [attemptedAt, DatabaseInterface.attemptedAt, hbuffer]

/-- The check is one step when the flag is not set, and else it is not over. -/
lemma readFlag (hmain : s.main = .readingFlag) :
    ∃ es'' db', (database true).Reaches es'' db' ∧ Refines (es ++ [.readFlag])
      { s with main := if s.threadEndFlag then .readingSize else .sleeping } es'' db' := by
  cases hflag : s.threadEndFlag with
  | true =>
    refine ⟨es', db, hrun', h.silent hrun.reaches ?_ ?_ rfl ?_ rfl ?_⟩
    · simp [enteredAt]
    · simp [pending, enteredAt]
    · rw [hflag]
    · rw [hmain]
      rfl
  | false =>
    have hthread : db.thread = .checking := by
      rw [h.thread, hmain]
      rfl
    refine ⟨_, _, hrun'.step trivial (InfluxDB.step_eq_some_iff.2 (.check hthread)),
      h.both hrun.reaches hrun' h.buffer ?_ h.life ?_ ?_ rfl⟩
    · exact h.flag.trans hflag
    · simp [InfluxDB.check, h.flag, hflag, MainStage.atomic]
    · simp [enteredAt, acceptedAt, pending]

/-- When the size is read without the lock, no call is running. -/
lemma readSize (hmain : s.main = .readingSize) :
    ∃ es'' db', (database true).Reaches es'' db' ∧ Refines (es ++ [.readSize])
      { s with main := if s.buffer = [] then .ended else .sleeping } es'' db' := by
  have hstopped := stopped_of_run hrun
  have hflag := hstopped.readingSize hmain
  have hpending : s.pending = [] := pending_of_returned (hstopped.writer (hstopped.flag.1 hflag))
  have hbuffer : s.buffer = db.buffer := by rw [h.buffer, hpending, List.append_nil]
  have hthread : db.thread = .checking := by
    rw [h.thread, hmain]
    rfl
  refine ⟨_, _, hrun'.step trivial (InfluxDB.step_eq_some_iff.2 (.check hthread)),
    h.both hrun.reaches hrun' h.buffer h.flag h.life ?_ ?_ rfl⟩
  · by_cases hnil : s.buffer = [] <;>
      simp [InfluxDB.check, h.flag, hflag, ← hbuffer, hnil, MainStage.atomic]
  · simp [enteredAt, acceptedAt, pending]

end Refines

/-- **A run of the threads refines a run of `database`.** -/
theorem exists_refines (h : (threads W).Run Returned es s) :
    ∃ es' db, (database true).Reaches es' db ∧ Refines es s es' db := by
  refine h.simulation ⟨rfl, rfl, rfl, rfl, rfl, rfl⟩ ?_
  intro es s e s' es' db hrun hrun' hrefines _ hstep
  have hexclusive := exclusive_of_run hrun.reaches
  cases steps_of_step hstep with
  | call w dataEntity hwriter =>
    refine ⟨es', db, hrun', hrefines.silent hrun.reaches ?_ ?_ rfl rfl rfl rfl⟩
    · simp [setWriter, enteredAt]
    · show (s.setWriter w _).pending = s.pending ++ []
      rw [List.append_nil]
      exact pending_setWriter (by simp [hwriter, WriterStage.pending])
  | lock w dataEntity hwriter hmutex =>
    refine ⟨es', db, hrun', hrefines.silent hrun.reaches ?_ ?_ rfl rfl rfl rfl⟩
    · simp [setWriter, enteredAt]
    · simp [pending, setWriter, enteredAt, hmutex, WriterStage.pending]
  | emplace w dataEntity hwriter =>
    have hholds : (s.writer w).Holds := by rw [hwriter]; trivial
    refine ⟨es', db, hrun', hrefines.silent hrun.reaches ?_ ?_ rfl rfl rfl rfl⟩
    · simp [enteredAt, hwriter]
    · rw [hexclusive.pending_writer hholds]
      simp [pending, setWriter, enteredAt, hexclusive.writer w hholds, hwriter,
        WriterStage.pending]
  | flush w reply dataEntity hwriter => exact hrefines.flush hrun hrun' reply hwriter
  | unlock w hwriter =>
    have hholds : (s.writer w).Holds := by rw [hwriter]; trivial
    refine ⟨es', db, hrun', hrefines.silent hrun.reaches ?_ ?_ rfl rfl rfl rfl⟩
    · simp [setWriter, enteredAt]
    · rw [hexclusive.pending_writer hholds]
      simp [pending, enteredAt, hwriter, WriterStage.pending]
  | mainLock hmain hmutex =>
    refine ⟨es', db, hrun', hrefines.silent hrun.reaches ?_ ?_ rfl rfl rfl ?_⟩
    · simp [enteredAt]
    · simp [pending, enteredAt, hmutex]
    · rw [hmain]
      rfl
  | mainFlush reply hmain => exact hrefines.mainFlush hrun hrun' reply hmain
  | mainUnlock res hmain =>
    have hholds : s.main.Holds := by rw [hmain]; trivial
    refine ⟨es', db, hrun', hrefines.silent hrun.reaches ?_ ?_ rfl rfl rfl ?_⟩
    · simp [enteredAt]
    · rw [hexclusive.pending_main hholds]
      simp [pending, enteredAt]
    · rw [hmain]
      cases res <;> rfl
  | readFlag hmain => exact hrefines.readFlag hrun hrun' hmain
  | readSize hmain => exact hrefines.readSize hrun hrun' hmain
  | wake hmain =>
    refine ⟨es', db, hrun', hrefines.silent hrun.reaches ?_ ?_ rfl rfl rfl ?_⟩
    · simp [enteredAt]
    · simp [pending, enteredAt]
    · rw [hmain]
      rfl
  | destruct hlife =>
    have hpresent : db.thread ≠ .absent := by
      rw [hrefines.thread]
      cases s.main with
      | unlocking res => cases res <;> rintro ⟨⟩
      | _ => rintro ⟨⟩
    refine ⟨_, _, hrun'.step trivial (InfluxDB.step_eq_some_iff.2
        (.destruct (hrefines.life.trans hlife))),
      hrefines.both hrun.reaches hrun' hrefines.buffer ?_ rfl hrefines.thread ?_ rfl⟩
    · exact if_neg hpresent
    · simp [enteredAt, acceptedAt, pending]
  | join hlife hmain =>
    have hthread : db.thread = .ended := by
      rw [hrefines.thread, hmain]
      rfl
    refine ⟨_, _, hrun'.step trivial (InfluxDB.step_eq_some_iff.2
        (.join (hrefines.life.trans hlife) (Or.inr hthread))),
      hrefines.both hrun.reaches hrun' hrefines.buffer hrefines.flag rfl hrefines.thread ?_ rfl⟩
    simp [enteredAt, acceptedAt, pending]

/-! ### When the destructor has returned -/

/-- **Nothing is lost, and nothing is posted twice.**  When the destructor has returned and all
posts have succeeded, the batches are the entities in the order in which they entered the
buffer, every thread has all of its entities there in its own order, and no batch has more than
10000 entities. -/
theorem destructor_drains (es : List (ThreadEvent W)) (s : Threads W)
    (h : (threads W).Run Returned es s) (hgone : s.life = .gone)
    (hposts : ∀ batch ∈ attempted es, batch.2 = true) :
    (posted es).flatten = (entered es).map Prod.snd ∧
      (∀ w, written w es = ((entered es).filter (·.1 = w)).map Prod.snd) ∧
      ∀ batch ∈ posted es, batch.length ≤ 10000 := by
  obtain ⟨es', db, hrun, hrefines⟩ := exists_refines h
  have hreturned := (stopped_of_run h).writer (by simp [hgone])
  refine ⟨?_, fun w => ?_, ?_⟩
  · have hdrained := drained hrun (hrefines.life.trans hgone) (hrefines.attempted ▸ hposts)
    have hposted : DatabaseInterface.posted true es' = posted es := by
      rw [DatabaseInterface.posted, posted, ← hrefines.attempted, List.filter_eq_self.2 hposts]
    rw [hrefines.entered, pending_of_returned hreturned, List.append_nil, hdrained, hposted]
  · rw [written_eq h.reaches w, hreturned w, WriterStage.waiting, List.append_nil]
  · intro batch hbatch
    obtain ⟨⟨_, res⟩, hattempted, rfl⟩ := List.mem_map.1 hbatch
    rw [hrefines.attempted] at hattempted
    exact length_le_of_attempted hrun _ hattempted

/-- Two threads write, the second of them once more while `thread_main` sleeps, and the
destructor starts. -/
def twoThreads : List (ThreadEvent Bool) :=
  let order (id : String) : Entity := ⟨"order", [], [⟨"order_id", id⟩], 5⟩
  let success : Reply := ⟨0, ""⟩
  [.call false (order "1"), .call true (order "2"), .lock true, .emplace true,
    .flush true success, .unlock true, .lock false, .emplace false, .flush false success,
    .unlock false, .mainLock, .mainFlush success, .mainUnlock, .readFlag, .call true (order "3"),
    .lock true, .emplace true, .flush true success, .unlock true, .destruct, .wake, .mainLock,
    .mainFlush success, .mainUnlock, .readFlag, .readSize, .join]

theorem destructor_drains_twoThreads : (posted twoThreads).map List.length = [2, 1] ∧
    (posted twoThreads).flatten = (entered twoThreads).map Prod.snd ∧
    (∀ w, written w twoThreads = ((entered twoThreads).filter (·.1 = w)).map Prod.snd) ∧
    ∀ batch ∈ posted twoThreads, batch.length ≤ 10000 := by
  have hrun : (threads Bool).admits Returned twoThreads := by decide
  obtain ⟨s, hs⟩ := (threads Bool).exists_run hrun
  have hgone : ((threads Bool).runFrom (fun _ _ => True) (threads Bool).init
      twoThreads).map Threads.life = some .gone := by decide
  rw [hs.runFrom, Option.map_some, Option.some.injEq] at hgone
  exact ⟨by decide, destructor_drains twoThreads s hs hgone (by decide)⟩

end Threads

end TradingEngine.DatabaseInterface
