/-
The buffered writer of the database (`database_interface.cc`).

Threads call `write` and a thread of its own runs `thread_main`; what `buffer_mutex` guards is
one step here.  Without that thread the writer is used by one thread only, which may also call
`flush_buffer`.  What the server answers to a post is a part of the event.
-/
import TradingEngine.Lib.Machine

namespace TradingEngine.DatabaseInterface

open Lib

/-- `data_pair`, a tag or a field of an entity. -/
structure DataPair where
  key : String
  value : String
  deriving DecidableEq

/-- The type `entity`. -/
structure Entity where
  measurement : String
  tag : List DataPair
  field : List DataPair
  timestamp : ℤ
  deriving DecidableEq

/-- The result of `post_http`: the code and the text of the response. -/
structure Reply where
  ret : ℤ
  resp : String
  deriving DecidableEq

/-- The test of `flush_buffer` for a post that succeeded. -/
def Reply.success (reply : Reply) : Bool := reply.ret = 0 && reply.resp.isEmpty

/-- Where `thread_main` is. -/
inductive ThreadStage
  /-- There is no such thread. -/
  | absent
  /-- Before `buffer_mutex.lock()`. -/
  | scanning
  /-- Before `thread_end_flag` is read. -/
  | checking
  | ended
  deriving DecidableEq

/-- How far the destructor is. -/
inductive Life
  | alive
  /-- The destructor waits for the thread. -/
  | destructing
  | gone
  deriving DecidableEq

/-- `InfluxDB`, with its thread if there is one. -/
structure InfluxDB where
  buffer : List Entity := []
  threadEndFlag : Bool := false
  thread : ThreadStage
  life : Life := .alive
  deriving DecidableEq

/-- What can happen to the writer, with the answer of the server where it posts. -/
inductive Event
  | write (dataEntity : Entity) (reply : Reply)
  | scan (reply : Reply)
  | check
  | flush (reply : Reply)
  | destruct
  | join
  deriving DecidableEq

namespace InfluxDB

/-- `flush_buffer`; the buffer is cleared whatever the server answers. -/
def flushBuffer (db : InfluxDB) (reply : Reply) : InfluxDB × Bool :=
  ({ db with buffer := [] }, reply.success)

/-- `write`, which returns `true` in any case. -/
def write (db : InfluxDB) (dataEntity : Entity) (reply : Reply) : InfluxDB × Bool :=
  let db := { db with buffer := db.buffer ++ [dataEntity] }
  (if 10000 ≤ db.buffer.length then (db.flushBuffer reply).1 else db, true)

@[simp] lemma write_snd (db : InfluxDB) (dataEntity : Entity) (reply : Reply) :
    (db.write dataEntity reply).2 = true := rfl

lemma write_buffer (db : InfluxDB) (dataEntity : Entity) (reply : Reply) :
    (db.write dataEntity reply).1.buffer =
      if 10000 ≤ (db.buffer ++ [dataEntity]).length then [] else db.buffer ++ [dataEntity] := by
  simp only [write]
  split_ifs <;> rfl

@[simp] lemma write_threadEndFlag (db : InfluxDB) (dataEntity : Entity) (reply : Reply) :
    (db.write dataEntity reply).1.threadEndFlag = db.threadEndFlag := by
  simp only [write]
  split_ifs <;> rfl

@[simp] lemma write_thread (db : InfluxDB) (dataEntity : Entity) (reply : Reply) :
    (db.write dataEntity reply).1.thread = db.thread := by
  simp only [write]
  split_ifs <;> rfl

@[simp] lemma write_life (db : InfluxDB) (dataEntity : Entity) (reply : Reply) :
    (db.write dataEntity reply).1.life = db.life := by
  simp only [write]
  split_ifs <;> rfl

/-- A round of `thread_main` up to the return after a failed flush. -/
def scan (db : InfluxDB) (reply : Reply) : InfluxDB :=
  let (db, res) := if db.buffer ≠ [] then db.flushBuffer reply else (db, true)
  { db with thread := if res then .checking else .ended }

@[simp] lemma scan_buffer (db : InfluxDB) (reply : Reply) : (db.scan reply).buffer = [] := by
  by_cases hbuffer : db.buffer = [] <;> simp [scan, flushBuffer, hbuffer]

@[simp] lemma scan_threadEndFlag (db : InfluxDB) (reply : Reply) :
    (db.scan reply).threadEndFlag = db.threadEndFlag := by
  by_cases hbuffer : db.buffer = [] <;> simp [scan, flushBuffer, hbuffer]

@[simp] lemma scan_life (db : InfluxDB) (reply : Reply) : (db.scan reply).life = db.life := by
  by_cases hbuffer : db.buffer = [] <;> simp [scan, flushBuffer, hbuffer]

/-- The thread ends after a batch that was refused. -/
lemma scan_thread (db : InfluxDB) (reply : Reply) : (db.scan reply).thread =
    if db.buffer = [] ∨ reply.success = true then .checking else .ended := by
  by_cases hbuffer : db.buffer = [] <;> simp [scan, flushBuffer, hbuffer]

/-- The end of a round of `thread_main`. -/
def check (db : InfluxDB) : InfluxDB :=
  { db with
    thread := if db.threadEndFlag = true ∧ db.buffer = [] then .ended else .scanning }

/-- A call of a member, or a step of the thread, where it is possible. -/
def step (db : InfluxDB) : Event → Option InfluxDB
  | .write dataEntity reply =>
    if db.life = .alive then some (db.write dataEntity reply).1 else none
  | .scan reply => if db.thread = .scanning then some (db.scan reply) else none
  | .check => if db.thread = .checking then some db.check else none
  | .flush reply =>
    if db.life = .alive ∧ db.thread = .absent then some (db.flushBuffer reply).1 else none
  | .destruct =>
    if db.life = .alive then
      some { db with
        life := .destructing
        threadEndFlag := if db.thread = .absent then db.threadEndFlag else true }
    else none
  | .join =>
    if db.life = .destructing ∧ (db.thread = .absent ∨ db.thread = .ended) then
      some { db with life := .gone }
    else none

/-- The steps that are possible, and what each does. -/
inductive Steps (db : InfluxDB) : Event → InfluxDB → Prop
  | write (dataEntity : Entity) (reply : Reply) (hlife : db.life = .alive) :
    Steps db (.write dataEntity reply) (db.write dataEntity reply).1
  | scan (reply : Reply) (hthread : db.thread = .scanning) : Steps db (.scan reply) (db.scan reply)
  | check (hthread : db.thread = .checking) : Steps db .check db.check
  | flush (reply : Reply) (hlife : db.life = .alive) (hthread : db.thread = .absent) :
    Steps db (.flush reply) (db.flushBuffer reply).1
  | destruct (hlife : db.life = .alive) : Steps db .destruct
      { db with
        life := .destructing
        threadEndFlag := if db.thread = .absent then db.threadEndFlag else true }
  | join (hlife : db.life = .destructing) (hthread : db.thread = .absent ∨ db.thread = .ended) :
    Steps db .join { db with life := .gone }

lemma step_eq_some_iff {db db' : InfluxDB} {e : Event} :
    db.step e = some db' ↔ db.Steps e db' := by
  constructor
  · intro h
    cases e <;> simp only [step, Option.ite_none_right_eq_some, Option.some.injEq] at h <;>
      obtain ⟨hguard, rfl⟩ := h
    · exact .write _ _ hguard
    · exact .scan _ hguard
    · exact .check hguard
    · exact .flush _ hguard.1 hguard.2
    · exact .destruct hguard
    · exact .join hguard.1 hguard.2
  · rintro (⟨_, _, hlife⟩ | ⟨_, hthread⟩ | hthread | ⟨_, hlife, hthread⟩ | hlife | ⟨hlife, hthread⟩)
    · exact if_pos hlife
    · exact if_pos hthread
    · exact if_pos hthread
    · exact if_pos ⟨hlife, hthread⟩
    · exact if_pos hlife
    · exact if_pos ⟨hlife, hthread⟩

end InfluxDB

/-- A writer with or without its thread. -/
def database (enableThread : Bool) : Machine InfluxDB Event where
  init := { thread := if enableThread then .scanning else .absent }
  step := InfluxDB.step

end TradingEngine.DatabaseInterface
