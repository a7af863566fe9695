/-
The text that `flush_buffer` posts (`influxdb.hpp`, `database_interface.cc`).

One builder is cast to the caller that puts the right separator in front of what it writes.
The text is a line for each entity, with a line end in front (`bufferPayload_toList`), so that it
is read back by the line protocol; along a run of the writer this gives the entities that were
accepted (`accepted_read`).
-/
import Mathlib.Data.List.TakeWhile
import TradingEngine.Database.Buffer
import TradingEngine.Lib.LineProtocol

namespace TradingEngine.DatabaseInterface

open Lib

/-! ### The builder -/

/-- The loop of `_escape`, from `start` on; `find_first_of` finds what `dropWhile` leaves. -/
def escapeFrom (escapeSeq lines : String) (src : List Char) : String :=
  match hfound : src.dropWhile (· ∉ escapeSeq.toList) with
  -- `npos`: the loop ends
  | [] => lines ++ String.ofList src
  | c :: rest =>
    have : rest.length < src.length := by
      have hle := (src.dropWhile_suffix (· ∉ escapeSeq.toList)).length_le
      rw [hfound] at hle
      exact hle
    escapeFrom escapeSeq (lines ++ String.ofList (src.takeWhile (· ∉ escapeSeq.toList)) ++ "\\" ++
      String.singleton c) rest
termination_by src.length

/-- The type `builder`; `lines` is the text in the stream. -/
structure Builder where
  lines : String := ""

namespace Builder

/-- `_escape`, which appends the text with a backslash before the given characters. -/
def escape (b : Builder) (src escapeSeq : String) : Builder :=
  { b with lines := escapeFrom escapeSeq b.lines src.toList }

/-- `lines_ << c`. -/
def put (b : Builder) (c : Char) : Builder := { b with lines := b.lines ++ String.singleton c }

/-- `_m` -/
def m (b : Builder) (measurement : String) : Builder := b.escape measurement ", "

/-- `_t` -/
def t (b : Builder) (k v : String) : Builder :=
  (((b.put ',').escape k ",= ").put '=').escape v ",= "

/-- `_f_s` -/
def fS (b : Builder) (delim : Char) (k v : String) : Builder :=
  (((((b.put delim).escape k ",= ").put '=').put '"').escape v "\"").put '"'

/-- The conversions from `int64_t` to `uint64_t` and back that a timestamp goes through. -/
def toUInt64 (x : ℤ) : ℤ := x % 2 ^ 64

/-- The conversion back to a signed number. -/
def toInt64 (x : ℤ) : ℤ := x.bmod (2 ^ 64)

/-- `_ts` -/
def ts (b : Builder) (ts : ℤ) : Builder :=
  { (b.put ' ') with lines := (b.put ' ').lines ++ toString ts }

end Builder

namespace TagCaller

/-- `tag`. -/
def tag (b : Builder) (k v : String) : Builder := b.t k v

/-- The first field of a line. -/
def field (b : Builder) (k v : String) : Builder := b.fS ' ' k v

end TagCaller

/-- `ts_caller::meas`, which hides that of `builder`. -/
def TsCaller.meas (b : Builder) (measurement : String) : Builder := (b.put '\n').m measurement

namespace FieldCaller

/-- A further field of a line. -/
def field (b : Builder) (k v : String) : Builder := b.fS ',' k v

/-- `timestamp`, which is converted to `unsigned long long` and back. -/
def timestamp (b : Builder) (ts : ℤ) : Builder := b.ts (Builder.toInt64 (Builder.toUInt64 ts))

end FieldCaller

/-- A field and its index, in the loop over the fields. -/
def putField (payload : Builder) (field : DataPair × ℕ) : Builder :=
  if field.2 = 0 then TagCaller.field payload field.1.key field.1.value
  else FieldCaller.field payload field.1.key field.1.value

/-- A round of the loop of `flush_buffer`. -/
def writeEntity (payload : Builder) (e : Entity) : Builder :=
  let payload := TsCaller.meas payload e.measurement
  let payload := e.tag.foldl (fun b tag => TagCaller.tag b tag.key tag.value) payload
  let payload := e.field.zipIdx.foldl putField payload
  FieldCaller.timestamp payload e.timestamp

/-- The text that `flush_buffer` posts. -/
def bufferPayload (buffer : List Entity) : String := (buffer.foldl writeEntity {}).lines

/-! ### The text of the builder -/

open Reader LineProtocol

lemma escapeFrom_toList (escapeSeq lines : String) (src : List Char) :
    (escapeFrom escapeSeq lines src).toList =
      lines.toList ++ Reader.escape (fun c => c ∈ escapeSeq.toList) src := by
  fun_induction escapeFrom escapeSeq lines src with
  | case1 lines src hfound =>
    have hnone : ∀ c ∈ src, decide (c ∈ escapeSeq.toList) = false := by
      simpa [List.dropWhile_eq_nil_iff] using hfound
    rw [escape_eq_self hnone, String.toList_append, String.toList_ofList]
  | case2 lines src c rest hfound hlt ih =>
    -- what is skipped needs no backslash, the character that is found does
    have hskipped : ∀ d ∈ src.takeWhile (· ∉ escapeSeq.toList),
        decide (d ∈ escapeSeq.toList) = false := by
      intro d hd
      simpa using List.mem_takeWhile_imp hd
    have hc : decide (c ∈ escapeSeq.toList) = true := by
      have hhead := List.head?_dropWhile_not (· ∉ escapeSeq.toList) src
      rw [hfound] at hhead
      simpa using hhead
    have hsrc : src = src.takeWhile (· ∉ escapeSeq.toList) ++ c :: rest := by
      rw [← hfound, List.takeWhile_append_dropWhile]
    rw [ih]
    conv_rhs => rw [hsrc, escape_append, escape_eq_self hskipped, escape_cons, if_pos hc]
    simp

/-- The escape sets of the builder are those of the protocol. -/
lemma mem_measurementSet : (fun c : Char => decide (c ∈ ", ".toList)) = inMeasurement := by
  funext c
  have hset : ", ".toList = [',', ' '] := rfl
  simp [hset, inMeasurement]

lemma mem_keySet : (fun c : Char => decide (c ∈ ",= ".toList)) = inKey := by
  funext c
  have hset : ",= ".toList = [',', '=', ' '] := rfl
  simp [hset, inKey, Bool.or_assoc]

lemma mem_quoteSet : (fun c : Char => decide (c ∈ "\"".toList)) = inQuotes := by
  funext c
  have hset : "\"".toList = ['"'] := rfl
  simp [hset, inQuotes]

namespace Builder

variable (b : Builder)

@[simp] lemma put_toList (c : Char) : (b.put c).lines.toList = b.lines.toList ++ [c] := by
  simp [put]

@[simp] lemma m_toList (s : String) :
    (b.m s).lines.toList = b.lines.toList ++ Reader.escape inMeasurement s.toList := by
  rw [m, escape, escapeFrom_toList, mem_measurementSet]

@[simp] lemma escapeKey_toList (s : String) : (b.escape s ",= ").lines.toList =
    b.lines.toList ++ Reader.escape inKey s.toList := by
  rw [escape, escapeFrom_toList, mem_keySet]

@[simp] lemma escapeQuotes_toList (s : String) : (b.escape s "\"").lines.toList =
    b.lines.toList ++ Reader.escape inQuotes s.toList := by
  rw [escape, escapeFrom_toList, mem_quoteSet]

@[simp] lemma t_toList (k v : String) :
    (b.t k v).lines.toList = b.lines.toList ++ ',' :: writeTag (k, v) := by
  simp [t, writeTag]

@[simp] lemma fS_toList (delim : Char) (k v : String) : (b.fS delim k v).lines.toList =
    b.lines.toList ++ delim :: writeField (k, .quoted v) := by
  simp [fS, writeField, Value.write]

@[simp] lemma ts_toList (x : ℤ) :
    (b.ts x).lines.toList = b.lines.toList ++ writeTimestamp (some x) := by
  simp [ts, writeTimestamp]

end Builder

/-- The values of an `int64_t`. -/
def IsInt64 (x : ℤ) : Prop := -2 ^ 63 ≤ x ∧ x < 2 ^ 63

instance (x : ℤ) : Decidable (IsInt64 x) := inferInstanceAs (Decidable (_ ∧ _))

lemma toInt64_toUInt64 {x : ℤ} (h : IsInt64 x) : Builder.toInt64 (Builder.toUInt64 x) = x := by
  obtain ⟨hlow, hhigh⟩ := h
  have hmod : (x % 2 ^ 64).bmod (2 ^ 64) = x.bmod (2 ^ 64) := Int.emod_bmod x (2 ^ 64)
  rw [Builder.toInt64, Builder.toUInt64, hmod]
  exact Int.bmod_eq_of_le (by norm_num; omega) (by norm_num; omega)

/-- An entity as a point of the protocol. -/
def Entity.toPoint (e : Entity) : Point where
  measurement := e.measurement
  tags := e.tag.map fun t => (t.key, t.value)
  fields := e.field.map fun f => (f.key, .quoted f.value)
  timestamp := some e.timestamp

lemma tags_toList (tags : List DataPair) (b : Builder) :
    (tags.foldl (fun b tag => TagCaller.tag b tag.key tag.value) b).lines.toList =
      b.lines.toList ++ (tags.map fun t => (t.key, t.value)).flatMap fun t =>
        ',' :: writeTag t := by
  induction tags generalizing b with
  | nil => simp
  | cons tag tags ih =>
    rw [List.foldl_cons, ih, TagCaller.tag, Builder.t_toList, List.map_cons, List.flatMap_cons,
      List.append_assoc]

/-- All fields but the first. -/
lemma otherFields_toList (fs : List DataPair) (n : ℕ) (b : Builder) :
    ((fs.zipIdx (n + 1)).foldl putField b).lines.toList = b.lines.toList ++
      (fs.map fun f => (f.key, Value.quoted f.value)).flatMap fun f => ',' :: writeField f := by
  induction fs generalizing n b with
  | nil => simp
  | cons f fs ih =>
    rw [List.zipIdx_cons, List.foldl_cons, ih, putField, if_neg (Nat.succ_ne_zero n),
      FieldCaller.field, Builder.fS_toList, List.map_cons, List.flatMap_cons, List.append_assoc]

lemma fields_toList (fs : List DataPair) (b : Builder) :
    (fs.zipIdx.foldl putField b).lines.toList =
      b.lines.toList ++ writeFields (fs.map fun f => (f.key, .quoted f.value)) := by
  cases fs with
  | nil => simp [writeFields]
  | cons f fs =>
    rw [List.zipIdx_cons, List.foldl_cons, otherFields_toList, putField, if_pos rfl,
      TagCaller.field, Builder.fS_toList, List.map_cons, writeFields, List.append_assoc,
      List.cons_append]

lemma writeEntity_toList (b : Builder) {e : Entity} (h : IsInt64 e.timestamp) :
    (writeEntity b e).lines.toList = b.lines.toList ++ '\n' :: e.toPoint.write := by
  rw [writeEntity, FieldCaller.timestamp, Builder.ts_toList, fields_toList, tags_toList,
    TsCaller.meas, Builder.m_toList, Builder.put_toList, toInt64_toUInt64 h]
  simp [Point.write, Entity.toPoint]

/-- **The text has a line for each entity.** -/
theorem bufferPayload_toList {buffer : List Entity} (h : ∀ e ∈ buffer, IsInt64 e.timestamp) :
    (bufferPayload buffer).toList =
      (buffer.map Entity.toPoint).flatMap fun p => '\n' :: p.write := by
  induction buffer using List.reverseRecOn with
  | nil => rfl
  | append_singleton buffer e ih =>
    have hbuffer := ih fun e' he' => h e' (List.mem_append_left _ he')
    rw [bufferPayload, List.foldl_append, List.foldl_cons, List.foldl_nil,
      writeEntity_toList _ (h e (by simp)), ← bufferPayload, hbuffer]
    simp

/-! ### Reading back -/

/-- An entity that is read back: with names, and without line ends and backslashes. -/
structure EntityOk (e : Entity) : Prop where
  measurement : NameOk e.measurement
  tag : ∀ t ∈ e.tag, NameOk t.key ∧ NameOk t.value
  field : ∀ f ∈ e.field, NameOk f.key ∧ Plain f.value
  field_ne_nil : e.field ≠ []
  timestamp : IsInt64 e.timestamp

lemma EntityOk.toPoint_ok {e : Entity} (h : EntityOk e) : e.toPoint.Ok where
  measurement := h.measurement
  tags := by
    intro t ht
    obtain ⟨tag, htag, rfl⟩ := List.mem_map.1 ht
    exact h.tag tag htag
  fields := by
    intro f hf
    obtain ⟨field, hfield, rfl⟩ := List.mem_map.1 hf
    exact ⟨(h.field field hfield).1, .quoted (h.field field hfield).2⟩
  fields_ne_nil := by
    rw [Entity.toPoint, ne_eq, List.map_eq_nil_iff]
    exact h.field_ne_nil

section Buffer

variable {buffer : List Entity}

lemma toPoint_ok (h : ∀ e ∈ buffer, EntityOk e) : ∀ p ∈ buffer.map Entity.toPoint, p.Ok := by
  intro p hp
  obtain ⟨e, he, rfl⟩ := List.mem_map.1 hp
  exact (h e he).toPoint_ok

lemma bufferPayload_eq (h : ∀ e ∈ buffer, EntityOk e) : bufferPayload buffer =
    String.ofList ((buffer.map Entity.toPoint).flatMap fun p => '\n' :: p.write) := by
  rw [← bufferPayload_toList fun e he => (h e he).timestamp, String.ofList_toList]

end Buffer

/-- **The entities are read back** from the text that `flush_buffer` posts. -/
theorem read_bufferPayload (buffer : List Entity) (h : ∀ e ∈ buffer, EntityOk e) :
    LineProtocol.read (bufferPayload buffer) = some (buffer.map Entity.toPoint) := by
  rw [bufferPayload_eq h]
  exact read_write (toPoint_ok h)

/-- The separators stand in names and values of the first entity. -/
theorem read_bufferPayload_twoEntities :
    let buffer : List Entity :=
      [⟨"trade, all", [⟨"symbol id", "a=1,b"⟩], [⟨"said", "\"yes\", once"⟩, ⟨"k=v", ""⟩], 5⟩,
        ⟨"order", [], [⟨"status", "placed"⟩], -1⟩]
    (∀ e ∈ buffer, EntityOk e) ∧
      LineProtocol.read (bufferPayload buffer) = some (buffer.map Entity.toPoint) := by
  intro buffer
  have hfirst : EntityOk
      ⟨"trade, all", [⟨"symbol id", "a=1,b"⟩], [⟨"said", "\"yes\", once"⟩, ⟨"k=v", ""⟩], 5⟩ :=
    ⟨by decide, by decide, by decide, by decide, by decide⟩
  have hsecond : EntityOk ⟨"order", [], [⟨"status", "placed"⟩], -1⟩ :=
    ⟨by decide, by decide, by decide, by decide, by decide⟩
  have hbuffer : ∀ e ∈ buffer, EntityOk e := by
    intro e he
    rcases List.mem_pair.1 he with rfl | rfl
    · exact hfirst
    · exact hsecond
  exact ⟨hbuffer, read_bufferPayload buffer hbuffer⟩

lemma Entity.toPoint_injective : Function.Injective Entity.toPoint := by
  rintro ⟨m, tag, field, ts⟩ ⟨m', tag', field', ts'⟩ h
  have htag : Function.Injective fun t : DataPair => (t.key, t.value) := by
    rintro ⟨k, v⟩ ⟨k', v'⟩ heq
    simpa using heq
  have hfield : Function.Injective fun f : DataPair => (f.key, Value.quoted f.value) := by
    rintro ⟨k, v⟩ ⟨k', v'⟩ heq
    simpa using heq
  simp only [Entity.toPoint, Point.mk.injEq, Option.some.injEq] at h
  obtain ⟨rfl, htags, hfields, rfl⟩ := h
  rw [List.map_injective_iff.2 htag htags, List.map_injective_iff.2 hfield hfields]

/-- **Different buffers give different texts.** -/
theorem bufferPayload_injective {buffer buffer' : List Entity} (h : ∀ e ∈ buffer, EntityOk e)
    (h' : ∀ e ∈ buffer', EntityOk e) (heq : bufferPayload buffer = bufferPayload buffer') :
    buffer = buffer' := by
  rw [bufferPayload_eq h, bufferPayload_eq h'] at heq
  have hread := read_write (toPoint_ok h)
  have hread' := read_write (toPoint_ok h')
  rw [heq, hread', Option.some.injEq] at hread
  exact List.map_injective_iff.2 Entity.toPoint_injective hread.symm

/-- **What the server reads along a run** are the entities that were accepted, in order, up to
those that are in the buffer. -/
theorem accepted_read {enableThread : Bool} {es : List Event} {db : InfluxDB}
    (h : (database enableThread).Reaches es db)
    (hok : ∀ e ∈ accepted enableThread es, EntityOk e) : ∃ posts : List (List Point),
      ((attempted enableThread es).map fun batch => LineProtocol.read (bufferPayload batch.1)) =
        posts.map some ∧
      (accepted enableThread es).map Entity.toPoint =
        posts.flatten ++ db.buffer.map Entity.toPoint := by
  have haccepted := accepted_eq h
  refine ⟨(attempted enableThread es).map fun batch => batch.1.map Entity.toPoint, ?_, ?_⟩
  · rw [List.map_map]
    refine List.map_congr_left fun batch hbatch => ?_
    have hbatch_ok : ∀ e ∈ batch.1, EntityOk e := by
      intro e he
      refine hok e ?_
      rw [haccepted]
      exact List.mem_append_left _ (List.mem_flatMap.2 ⟨batch, hbatch, he⟩)
    rw [bufferPayload_eq hbatch_ok]
    exact read_write (toPoint_ok hbatch_ok)
  · rw [haccepted, List.map_append, List.map_flatMap, List.flatMap_def]

end TradingEngine.DatabaseInterface
