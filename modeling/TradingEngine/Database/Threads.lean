/-
The threads of the buffered writer, and the destructor (`database_interface.cc`).

Several threads call `write` while `thread_main` runs, and `buffer_mutex` is a part of the
state: the steps between locking and unlocking are steps of their own, and `thread_main` reads
the flag and the size of the buffer without the lock.  A thread between locking and unlocking
holds the lock (`Exclusive`), and while the destructor runs nobody writes (`Stopped`).
-/
import TradingEngine.Common.DatabaseInterface

namespace TradingEngine.DatabaseInterface

open Lib

/-- Where a thread is that calls `write`. -/
inductive WriterStage
  /-- It is in no call. -/
  | outside
  /-- Before `buffer_mutex.lock()`. -/
  | locking (dataEntity : Entity)
  | locked (dataEntity : Entity)
  /-- Before `buffer.size()` is tested. -/
  | emplaced (dataEntity : Entity)
  /-- Before `buffer_mutex.unlock()`. -/
  | unlocking
  deriving DecidableEq

/-- Where `thread_main` is. -/
inductive MainStage
  | locking
  | locked
  /-- Before `buffer_mutex.unlock()`, with the result of the flush. -/
  | unlocking (res : Bool)
  /-- Before `thread_end_flag` is read. -/
  | readingFlag
  /-- Before `buffer.size()` is read. -/
  | readingSize
  | sleeping
  | ended
  deriving DecidableEq

/-- Who holds `buffer_mutex`. -/
inductive Holder (W : Type)
  | nobody
  | main
  | writer (w : W)
  deriving DecidableEq

/-- The writer with the threads that call it and the thread of its own. -/
structure Threads (W : Type) where
  buffer : List Entity := []
  threadEndFlag : Bool := false
  bufferMutex : Holder W := .nobody
  writer : W → WriterStage := fun _ => .outside
  main : MainStage := .locking
  life : Life := .alive

/-- A step of a thread, up to its next access to something shared. -/
inductive ThreadEvent (W : Type)
  /-- A thread calls `write`. -/
  | call (w : W) (dataEntity : Entity)
  | lock (w : W)
  | emplace (w : W)
  /-- The test of the size, and the flush when the buffer is full. -/
  | flush (w : W) (reply : Reply)
  | unlock (w : W)
  | mainLock
  | mainFlush (reply : Reply)
  | mainUnlock
  | readFlag
  | readSize
  | wake
  | destruct
  | join
  deriving DecidableEq

namespace Threads

variable {W : Type} [DecidableEq W]

/-- A calling thread gets to another place. -/
def setWriter (s : Threads W) (w : W) (stage : WriterStage) : Threads W :=
  { s with writer := Function.update s.writer w stage }

/-- A step of a thread, where it is possible. -/
def step (s : Threads W) : ThreadEvent W → Option (Threads W)
  | .call w dataEntity =>
    if s.writer w = .outside then some (s.setWriter w (.locking dataEntity)) else none
  | .lock w =>
    match s.writer w, s.bufferMutex with
    | .locking dataEntity, .nobody =>
      some { s.setWriter w (.locked dataEntity) with bufferMutex := .writer w }
    | _, _ => none
  | .emplace w =>
    match s.writer w with
    | .locked dataEntity =>
      some { s.setWriter w (.emplaced dataEntity) with buffer := s.buffer ++ [dataEntity] }
    | _ => none
  | .flush w _ =>
    match s.writer w with
    | .emplaced _ =>
      some { s.setWriter w .unlocking with
        buffer := if 10000 ≤ s.buffer.length then [] else s.buffer }
    | _ => none
  | .unlock w =>
    if s.writer w = .unlocking then
      some { s.setWriter w .outside with bufferMutex := .nobody }
    else none
  | .mainLock =>
    if s.main = .locking ∧ s.bufferMutex = .nobody then
      some { s with main := .locked, bufferMutex := .main }
    else none
  | .mainFlush reply =>
    if s.main = .locked then
      some { s with
        main := .unlocking (if s.buffer ≠ [] then reply.success else true)
        buffer := [] }
    else none
  | .mainUnlock =>
    match s.main with
    | .unlocking res =>
      some { s with main := if res then .readingFlag else .ended, bufferMutex := .nobody }
    | _ => none
  | .readFlag =>
    if s.main = .readingFlag then
      some { s with main := if s.threadEndFlag then .readingSize else .sleeping }
    else none
  | .readSize =>
    if s.main = .readingSize then
      some { s with main := if s.buffer = [] then .ended else .sleeping }
    else none
  | .wake => if s.main = .sleeping then some { s with main := .locking } else none
  | .destruct =>
    if s.life = .alive then
      some { s with life := .destructing, threadEndFlag := true }
    else none
  | .join =>
    if s.life = .destructing ∧ s.main = .ended then some { s with life := .gone } else none

end Threads

/-- The writer with its thread, used by the threads in `W`. -/
def threads (W : Type) [DecidableEq W] : Machine (Threads W) (ThreadEvent W) where
  init := {}
  step := Threads.step

/-- The calls that hold the lock. -/
def WriterStage.Holds : WriterStage → Prop
  | locked _ | emplaced _ | unlocking => True
  | outside | locking _ => False

/-- The places where `thread_main` holds the mutex. -/
def MainStage.Holds : MainStage → Prop
  | locked | unlocking _ => True
  | locking | readingFlag | readingSize | sleeping | ended => False

/-- The entity that is not in the buffer yet. -/
def WriterStage.waiting : WriterStage → List Entity
  | locking dataEntity | locked dataEntity => [dataEntity]
  | outside | emplaced _ | unlocking => []

namespace Threads

variable {W : Type} [DecidableEq W]

/-! ### Steps -/

lemma writer_setWriter (s : Threads W) (w w' : W) (stage : WriterStage) :
    (s.setWriter w stage).writer w' = if w' = w then stage else s.writer w' :=
  Function.update_apply s.writer w stage w'

/-- The steps that are possible, and what each does. -/
inductive Steps (s : Threads W) : ThreadEvent W → Threads W → Prop
  | call (w : W) (dataEntity : Entity) (hwriter : s.writer w = .outside) :
    Steps s (.call w dataEntity) (s.setWriter w (.locking dataEntity))
  | lock (w : W) (dataEntity : Entity) (hwriter : s.writer w = .locking dataEntity)
      (hmutex : s.bufferMutex = .nobody) :
    Steps s (.lock w) { s.setWriter w (.locked dataEntity) with bufferMutex := .writer w }
  | emplace (w : W) (dataEntity : Entity) (hwriter : s.writer w = .locked dataEntity) :
    Steps s (.emplace w)
      { s.setWriter w (.emplaced dataEntity) with buffer := s.buffer ++ [dataEntity] }
  | flush (w : W) (reply : Reply) (dataEntity : Entity)
      (hwriter : s.writer w = .emplaced dataEntity) :
    Steps s (.flush w reply) { s.setWriter w .unlocking with
      buffer := if 10000 ≤ s.buffer.length then [] else s.buffer }
  | unlock (w : W) (hwriter : s.writer w = .unlocking) :
    Steps s (.unlock w) { s.setWriter w .outside with bufferMutex := .nobody }
  | mainLock (hmain : s.main = .locking) (hmutex : s.bufferMutex = .nobody) :
    Steps s .mainLock { s with main := .locked, bufferMutex := .main }
  | mainFlush (reply : Reply) (hmain : s.main = .locked) :
    Steps s (.mainFlush reply) { s with
      main := .unlocking (if s.buffer ≠ [] then reply.success else true)
      buffer := [] }
  | mainUnlock (res : Bool) (hmain : s.main = .unlocking res) :
    Steps s .mainUnlock
      { s with main := if res then .readingFlag else .ended, bufferMutex := .nobody }
  | readFlag (hmain : s.main = .readingFlag) :
    Steps s .readFlag { s with main := if s.threadEndFlag then .readingSize else .sleeping }
  | readSize (hmain : s.main = .readingSize) :
    Steps s .readSize { s with main := if s.buffer = [] then .ended else .sleeping }
  | wake (hmain : s.main = .sleeping) : Steps s .wake { s with main := .locking }
  | destruct (hlife : s.life = .alive) :
    Steps s .destruct { s with life := .destructing, threadEndFlag := true }
  | join (hlife : s.life = .destructing) (hmain : s.main = .ended) :
    Steps s .join { s with life := .gone }

lemma steps_of_step {s s' : Threads W} {e : ThreadEvent W} (h : s.step e = some s') :
    s.Steps e s' := by
  cases e with
  | call w dataEntity =>
    simp only [step, Option.ite_none_right_eq_some, Option.some.injEq] at h
    obtain ⟨hwriter, rfl⟩ := h
    exact .call w dataEntity hwriter
  | lock w =>
    simp only [step] at h
    split at h
    · obtain rfl := Option.some.inj h
      exact .lock w _ ‹_› ‹_›
    · cases h
  | emplace w =>
    simp only [step] at h
    split at h
    · obtain rfl := Option.some.inj h
      exact .emplace w _ ‹_›
    · cases h
  | flush w reply =>
    simp only [step] at h
    split at h
    · obtain rfl := Option.some.inj h
      exact .flush w reply _ ‹_›
    · cases h
  | unlock w =>
    simp only [step, Option.ite_none_right_eq_some, Option.some.injEq] at h
    obtain ⟨hwriter, rfl⟩ := h
    exact .unlock w hwriter
  | mainLock =>
    simp only [step, Option.ite_none_right_eq_some, Option.some.injEq] at h
    obtain ⟨⟨hmain, hmutex⟩, rfl⟩ := h
    exact .mainLock hmain hmutex
  | mainFlush reply =>
    simp only [step, Option.ite_none_right_eq_some, Option.some.injEq] at h
    obtain ⟨hmain, rfl⟩ := h
    exact .mainFlush reply hmain
  | mainUnlock =>
    simp only [step] at h
    split at h
    · obtain rfl := Option.some.inj h
      exact .mainUnlock _ ‹_›
    · cases h
  | readFlag =>
    simp only [step, Option.ite_none_right_eq_some, Option.some.injEq] at h
    obtain ⟨hmain, rfl⟩ := h
    exact .readFlag hmain
  | readSize =>
    simp only [step, Option.ite_none_right_eq_some, Option.some.injEq] at h
    obtain ⟨hmain, rfl⟩ := h
    exact .readSize hmain
  | wake =>
    simp only [step, Option.ite_none_right_eq_some, Option.some.injEq] at h
    obtain ⟨hmain, rfl⟩ := h
    exact .wake hmain
  | destruct =>
    simp only [step, Option.ite_none_right_eq_some, Option.some.injEq] at h
    obtain ⟨hlife, rfl⟩ := h
    exact .destruct hlife
  | join =>
    simp only [step, Option.ite_none_right_eq_some, Option.some.injEq] at h
    obtain ⟨⟨hlife, hmain⟩, rfl⟩ := h
    exact .join hlife hmain

/-! ### What the users of the writer keep to -/

/-- All calls of `write` have returned before the destructor starts. -/
def Returned (s : Threads W) : ThreadEvent W → Prop
  | .call _ _ => s.life = .alive
  | .destruct => ∀ w, s.writer w = .outside
  | _ => True

instance [Fintype W] (s : Threads W) : ∀ e, Decidable (s.Returned e)
  | .call _ _ => inferInstanceAs (Decidable (s.life = .alive))
  | .destruct => inferInstanceAs (Decidable (∀ w, s.writer w = .outside))
  | .lock _ | .emplace _ | .flush _ _ | .unlock _ | .mainLock | .mainFlush _ | .mainUnlock
  | .readFlag | .readSize | .wake | .join => inferInstanceAs (Decidable True)

/-! ### Observations -/

/-- The entity that a thread puts into the buffer. -/
def enteredAt (s : Threads W) : ThreadEvent W → List (W × Entity)
  | .emplace w => match s.writer w with
    | .locked dataEntity => [(w, dataEntity)]
    | _ => []
  | _ => []

/-- The batch of a flush, and whether the server takes it. -/
def attemptedAt (s : Threads W) : ThreadEvent W → List (List Entity × Bool)
  | .flush _ reply => if 10000 ≤ s.buffer.length then [(s.buffer, reply.success)] else []
  | .mainFlush reply => if s.buffer ≠ [] then [(s.buffer, reply.success)] else []
  | _ => []

/-- What a thread gives to `write`. -/
def writtenAt (w : W) : ThreadEvent W → List Entity
  | .call w' dataEntity => if w' = w then [dataEntity] else []
  | _ => []

/-- The entities in the order in which they entered the buffer, with the threads that wrote
them. -/
def entered (es : List (ThreadEvent W)) : List (W × Entity) := (threads W).trace enteredAt es

/-- The batches that were posted, with success or not. -/
def attempted (es : List (ThreadEvent W)) : List (List Entity × Bool) :=
  (threads W).trace attemptedAt es

/-- The batches that were posted. -/
def posted (es : List (ThreadEvent W)) : List (List Entity) := (attempted es).map Prod.fst

/-- The entities with which a thread called `write`. -/
def written (w : W) (es : List (ThreadEvent W)) : List Entity := es.flatMap (writtenAt w)

/-! ### The lock -/

/-- A thread between locking and unlocking is the one that holds the lock. -/
structure Exclusive (s : Threads W) : Prop where
  writer : ∀ w, (s.writer w).Holds → s.bufferMutex = .writer w
  main : s.main.Holds → s.bufferMutex = .main

variable {es : List (ThreadEvent W)} {s : Threads W}

lemma holds_setWriter {w w' : W} {stage : WriterStage}
    (h : ((s.setWriter w stage).writer w').Holds) :
    w' = w ∧ stage.Holds ∨ w' ≠ w ∧ (s.writer w').Holds := by
  rw [writer_setWriter] at h
  split_ifs at h with hw
  · exact Or.inl ⟨hw, h⟩
  · exact Or.inr ⟨hw, h⟩

lemma exclusive_of_run (h : (threads W).Reaches es s) : s.Exclusive := by
  refine h.invariant (P := fun _ s => s.Exclusive) ⟨fun _ hw => hw.elim, fun hm => hm.elim⟩ ?_
  rintro _ s e s' _ ⟨hwriters, hmains⟩ _ hstep
  cases steps_of_step hstep with
  | call w dataEntity hwriter =>
    refine ⟨fun w' hholds => ?_, hmains⟩
    rcases holds_setWriter hholds with ⟨-, hnew⟩ | ⟨-, hold⟩
    · exact hnew.elim
    · exact hwriters w' hold
  | lock w dataEntity hwriter hmutex =>
    refine ⟨fun w' hholds => ?_, fun hholds => ?_⟩
    · rcases holds_setWriter hholds with ⟨rfl, -⟩ | ⟨-, hold⟩
      · rfl
      · rw [hwriters w' hold] at hmutex
        cases hmutex
    · rw [hmains hholds] at hmutex
      cases hmutex
  | emplace w dataEntity hwriter =>
    refine ⟨fun w' hholds => ?_, hmains⟩
    rcases holds_setWriter hholds with ⟨rfl, -⟩ | ⟨-, hold⟩
    · exact hwriters w' (by rw [hwriter]; trivial)
    · exact hwriters w' hold
  | flush w reply dataEntity hwriter =>
    refine ⟨fun w' hholds => ?_, hmains⟩
    rcases holds_setWriter hholds with ⟨rfl, -⟩ | ⟨-, hold⟩
    · exact hwriters w' (by rw [hwriter]; trivial)
    · exact hwriters w' hold
  | unlock w hwriter =>
    have hmutex : s.bufferMutex = .writer w := hwriters w (by rw [hwriter]; trivial)
    refine ⟨fun w' hholds => ?_, fun hholds => ?_⟩
    · rcases holds_setWriter hholds with ⟨-, hnew⟩ | ⟨hne, hold⟩
      · exact hnew.elim
      · rw [hwriters w' hold, Holder.writer.injEq] at hmutex
        exact absurd hmutex hne
    · rw [hmains hholds] at hmutex
      cases hmutex
  | mainLock hmain hmutex =>
    refine ⟨fun w hholds => ?_, fun _ => rfl⟩
    rw [hwriters w hholds] at hmutex
    cases hmutex
  | mainFlush reply hmain => exact ⟨hwriters, fun _ => hmains (by rw [hmain]; trivial)⟩
  | mainUnlock res hmain =>
    have hmutex : s.bufferMutex = .main := hmains (by rw [hmain]; trivial)
    refine ⟨fun w hholds => ?_, fun hholds => ?_⟩
    · rw [hwriters w hholds] at hmutex
      cases hmutex
    · cases res
      · exact hholds.elim
      · exact hholds.elim
  | readFlag hmain =>
    refine ⟨hwriters, fun hholds => ?_⟩
    split_ifs at hholds
    · exact hholds.elim
    · exact hholds.elim
  | readSize hmain =>
    refine ⟨hwriters, fun hholds => ?_⟩
    split_ifs at hholds
    · exact hholds.elim
    · exact hholds.elim
  | wake hmain => exact ⟨hwriters, fun hholds => hholds.elim⟩
  | destruct hlife => exact ⟨hwriters, hmains⟩
  | join hlife hmain => exact ⟨hwriters, hmains⟩

/-! ### The destructor -/

/-- When the destructor runs, the flag is set and nobody writes any more. -/
structure Stopped (s : Threads W) : Prop where
  flag : s.threadEndFlag = true ↔ s.life ≠ .alive
  writer : s.life ≠ .alive → ∀ w, s.writer w = .outside
  readingSize : s.main = .readingSize → s.threadEndFlag = true

lemma stopped_of_run (h : (threads W).Run Returned es s) : s.Stopped := by
  refine h.invariant (P := fun _ s => s.Stopped)
    ⟨by simp [threads], by simp [threads], by simp [threads]⟩ ?_
  rintro _ s e s' _ ⟨hflag, hwriters, hsize⟩ hreturned hstep
  -- a thread that is in a call runs while the writer is alive
  have halive : ∀ w, s.writer w ≠ .outside → s.life = .alive := by
    intro w hw
    by_contra hlife
    exact hw (hwriters hlife w)
  cases steps_of_step hstep with
  | call w dataEntity hwriter => exact ⟨hflag, fun hlife => absurd hreturned hlife, hsize⟩
  | lock w dataEntity hwriter hmutex =>
    exact ⟨hflag, fun hlife => absurd (halive w (by simp [hwriter])) hlife, hsize⟩
  | emplace w dataEntity hwriter =>
    exact ⟨hflag, fun hlife => absurd (halive w (by simp [hwriter])) hlife, hsize⟩
  | flush w reply dataEntity hwriter =>
    exact ⟨hflag, fun hlife => absurd (halive w (by simp [hwriter])) hlife, hsize⟩
  | unlock w hwriter =>
    exact ⟨hflag, fun hlife => absurd (halive w (by simp [hwriter])) hlife, hsize⟩
  | mainLock hmain hmutex => exact ⟨hflag, hwriters, by rintro ⟨⟩⟩
  | mainFlush reply hmain => exact ⟨hflag, hwriters, by rintro ⟨⟩⟩
  | mainUnlock res hmain => exact ⟨hflag, hwriters, by cases res <;> rintro ⟨⟩⟩
  | readFlag hmain =>
    refine ⟨hflag, hwriters, fun hmain' => ?_⟩
    by_contra hset
    simp [hset] at hmain'
  | readSize hmain => exact ⟨hflag, hwriters, fun _ => hsize hmain⟩
  | wake hmain => exact ⟨hflag, hwriters, by rintro ⟨⟩⟩
  | destruct hlife => exact ⟨by simp, fun _ => hreturned, fun _ => rfl⟩
  | join hlife hmain =>
    exact ⟨⟨by simp, fun _ => hflag.2 (by simp [hlife])⟩, fun _ => hwriters (by simp [hlife]),
      hsize⟩

/-- A stage that waits for nothing else leaves every thread as it is. -/
lemma waiting_setWriter {w' : W} {stage : WriterStage}
    (h : stage.waiting = (s.writer w').waiting) (w : W) :
    ((s.setWriter w' stage).writer w).waiting = (s.writer w).waiting := by
  rw [writer_setWriter]
  split_ifs with hw
  · rw [hw, h]
  · rfl

/-- A call puts its entity into the buffer, or has it still. -/
lemma step_waiting {s' : Threads W} {e : ThreadEvent W} (h : s.step e = some s') (w : W) :
    (s.writer w).waiting ++ writtenAt w e =
      ((s.enteredAt e).filter (·.1 = w)).map Prod.snd ++ (s'.writer w).waiting := by
  cases steps_of_step h with
  | call w' dataEntity hwriter =>
    rw [writer_setWriter]
    by_cases hw : w = w'
    · subst hw
      simp [writtenAt, enteredAt, hwriter, WriterStage.waiting]
    · simp [writtenAt, enteredAt, hw, Ne.symm hw]
  | lock w' dataEntity hwriter hmutex =>
    have hsame : (WriterStage.locked dataEntity).waiting = (s.writer w').waiting := by
      rw [hwriter]
      rfl
    show (s.writer w).waiting ++ [] = [] ++ ((s.setWriter w' _).writer w).waiting
    rw [waiting_setWriter hsame, List.append_nil, List.nil_append]
  | emplace w' dataEntity hwriter =>
    show _ = _ ++ ((s.setWriter w' _).writer w).waiting
    rw [writer_setWriter]
    by_cases hw : w = w'
    · subst hw
      simp [writtenAt, enteredAt, hwriter, WriterStage.waiting]
    · simp [writtenAt, enteredAt, hwriter, hw, Ne.symm hw]
  | flush w' reply dataEntity hwriter =>
    have hsame : WriterStage.unlocking.waiting = (s.writer w').waiting := by
      rw [hwriter]
      rfl
    show (s.writer w).waiting ++ [] = [] ++ ((s.setWriter w' _).writer w).waiting
    rw [waiting_setWriter hsame, List.append_nil, List.nil_append]
  | unlock w' hwriter =>
    have hsame : WriterStage.outside.waiting = (s.writer w').waiting := by
      rw [hwriter]
      rfl
    show (s.writer w).waiting ++ [] = [] ++ ((s.setWriter w' _).writer w).waiting
    rw [waiting_setWriter hsame, List.append_nil, List.nil_append]
  | _ => simp [writtenAt, enteredAt]

/-- Between its calls, a thread has put all of its entities into the buffer. -/
lemma written_eq (h : (threads W).Reaches es s) (w : W) : written w es =
    ((entered es).filter (·.1 = w)).map Prod.snd ++ (s.writer w).waiting := by
  have hentered : (threads W).trace
      (fun s e => ((s.enteredAt e).filter (·.1 = w)).map Prod.snd) es =
      ((entered es).filter (·.1 = w)).map Prod.snd := by
    rw [h.trace_map, h.trace_filter]
    rfl
  rw [written, ← h.trace_events, ← hentered]
  exact h.channel rfl fun _ _ _ _ _ _ hstep => step_waiting hstep w

end Threads

end TradingEngine.DatabaseInterface
