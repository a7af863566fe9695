/-
The line protocol of InfluxDB.

A line holds one point: a measurement, tags, fields and possibly a timestamp.  Names and tag
values are not quoted; what would end them has a backslash in front.  `read_write` says that
points are read back from the lines that they are written to.
-/
import TradingEngine.Lib.Reader

namespace TradingEngine.Lib.LineProtocol

open Reader

/-! ### The grammar -/

/-- The value of a field. -/
inductive Value
  | quoted (text : String)
  /-- A number or a truth value, as it is written. -/
  | bare (text : String)
  deriving DecidableEq

/-- A line: measurement, tags, fields and time. -/
structure Point where
  measurement : String
  tags : List (String × String)
  fields : List (String × Value)
  timestamp : Option ℤ
  deriving DecidableEq

/-- The characters that are escaped in a measurement. -/
def inMeasurement (c : Char) : Bool := c = ',' || c = ' '

/-- The characters that are escaped in keys and in the values of tags. -/
def inKey (c : Char) : Bool := c = ',' || c = '=' || c = ' '

/-- The characters that are escaped between quotes. -/
def inQuotes (c : Char) : Bool := c = '"'

/-- A special character ends a name, and so does the line. -/
def ends (special : Char → Bool) (c : Char) : Bool := special c || c = '\n'

/-- The name of a measurement, with its escapes. -/
def measurement : Reader String := name inMeasurement (ends inMeasurement)

/-- The name of a tag or a field, or the value of a tag. -/
def key : Reader String := name inKey (ends inKey)

/-- A tag, after its comma. -/
def tag : Reader (String × String) := do
  let k ← key
  char '='
  let v ← key
  return (k, v)

/-- The value of a field, in quotes or bare. -/
def value : Reader Value
  -- a line end may stand between the quotes
  | '"' :: cs => (do
      let s ← text inQuotes inQuotes
      char '"'
      return Value.quoted s).run cs
  | cs => (Value.bare <$> name (fun _ => false) (ends inMeasurement)).run cs

/-- A field with its value. -/
def field : Reader (String × Value) := do
  let k ← key
  char '='
  let v ← value
  return (k, v)

/-- The time at the end of a line, if there is one. -/
def timestamp : Reader (Option ℤ)
  | ' ' :: cs => (some <$> integer).run cs
  | cs => some (none, cs)

/-- The fields of a line; there is at least one. -/
def fields : Reader (List (String × Value)) := do
  let first ← field
  let others ← many ',' field
  return first :: others

/-- A line that is not empty. -/
def point : Reader Point := do
  let m ← measurement
  let tags ← many ',' tag
  char ' '
  let fs ← fields
  let ts ← timestamp
  return ⟨m, tags, fs, ts⟩

/-- A line may be blank. -/
def line : Reader (Option Point)
  | [] => some (none, [])
  | '\n' :: cs => some (none, '\n' :: cs)
  | cs => (some <$> point).run cs

/-- The lines of a text, without the empty ones. -/
def points : Reader (List Point) := do
  let first ← line
  let others ← many '\n' line
  return (first :: others).reduceOption

/-- The points of a text, if it follows the grammar. -/
def read (text : String) : Option (List Point) := readAll points text

/-! ### Writing -/

/-- The text of a tag. -/
def writeTag (t : String × String) : List Char :=
  escape inKey t.1.toList ++ '=' :: escape inKey t.2.toList

/-- The text of a value. -/
def Value.write : Value → List Char
  | .quoted text => '"' :: (escape inQuotes text.toList ++ ['"'])
  | .bare text => text.toList

/-- The text of a field. -/
def writeField (f : String × Value) : List Char :=
  escape inKey f.1.toList ++ '=' :: f.2.write

/-- The first field comes after a blank, the others after commas. -/
def writeFields : List (String × Value) → List Char
  | [] => []
  | f :: fs => ' ' :: (writeField f ++ fs.flatMap fun f => ',' :: writeField f)

/-- The text of the time. -/
def writeTimestamp : Option ℤ → List Char
  | none => []
  | some ts => ' ' :: (toString ts).toList

/-- The text of a line. -/
def Point.write (p : Point) : List Char :=
  escape inMeasurement p.measurement.toList ++ ((p.tags.flatMap fun t => ',' :: writeTag t) ++
    (writeFields p.fields ++ writeTimestamp p.timestamp))

/-! ### Reading back -/

/-- Without line ends and backslashes. -/
def Plain (s : String) : Prop := ∀ c ∈ s.toList, c ≠ '\n' ∧ c ≠ '\\'

instance (s : String) : Decidable (Plain s) :=
  List.decidableBAll (fun c => c ≠ '\n' ∧ c ≠ '\\') s.toList

/-- A name that can be written. -/
structure NameOk (s : String) : Prop where
  ne_empty : s ≠ ""
  plain : Plain s

instance (s : String) : Decidable (NameOk s) :=
  decidable_of_iff (s ≠ "" ∧ Plain s) ⟨fun h => ⟨h.1, h.2⟩, fun h => ⟨h.1, h.2⟩⟩

/-- A value that is read as it is written. -/
inductive ValueOk : Value → Prop
  | quoted {s : String} (h : Plain s) : ValueOk (.quoted s)
  /-- Not quoted, nothing can be escaped. -/
  | bare {s : String} (h : NameOk s) (hend : ∀ c ∈ s.toList, inMeasurement c = false)
    (hquote : s.toList.head? ≠ some '"') : ValueOk (.bare s)

/-- A line that is read as it is written. -/
structure Point.Ok (p : Point) : Prop where
  measurement : NameOk p.measurement
  tags : ∀ t ∈ p.tags, NameOk t.1 ∧ NameOk t.2
  fields : ∀ f ∈ p.fields, NameOk f.1 ∧ ValueOk f.2
  fields_ne_nil : p.fields ≠ []

section Names

variable {special : Char → Bool} {s : String}

lemma reads_name_ends (h : NameOk s) (hstop : special '\\' = false) :
    Reads (ends special) (name special (ends special)) (escape special s.toList) s := by
  refine reads_name h.ne_empty (by simp [ends, hstop]) fun c hc => ⟨(h.plain c hc).2, ?_⟩
  intro hends
  simpa [ends, (h.plain c hc).1] using hends

lemma reads_measurement (h : NameOk s) :
    Reads (ends inMeasurement) measurement (escape inMeasurement s.toList) s :=
  reads_name_ends h rfl

lemma reads_key (h : NameOk s) : Reads (ends inKey) key (escape inKey s.toList) s :=
  reads_name_ends h rfl

end Names

/-- What comes after a tag or a field in a point, or after a point. -/
lemma inKey_of_inMeasurement {c : Char} (h : ends inMeasurement c = true) :
    ends inKey c = true := by
  simp only [ends, inMeasurement, inKey, Bool.or_eq_true, decide_eq_true_eq] at h ⊢
  tauto

lemma reads_tag {t : String × String} (h : NameOk t.1 ∧ NameOk t.2) :
    Reads (ends inMeasurement) tag (writeTag t) t := by
  have hvalue : Reads (ends inMeasurement) (do
      let v ← key
      return (t.1, v)) (escape inKey t.2.toList) t :=
    ((reads_key h.2).mono fun c => inKey_of_inMeasurement).map (t.1, ·)
  exact (reads_key h.1).bind_cons hvalue.char_bind rfl

lemma reads_value {v : Value} (h : ValueOk v) : Reads (ends inMeasurement) value v.write v := by
  cases h with
  | @quoted s h =>
    have hs : ∀ c ∈ s.toList, c ≠ '\\' ∧ (inQuotes c = true → inQuotes c = true) :=
      fun c hc => ⟨(h c hc).2, id⟩
    have hend : Reads (ends inMeasurement) (do
        char '"'
        return Value.quoted s) ['"'] (.quoted s) :=
      Reads.char_bind (.pure _ _)
    exact (reads_text rfl hs).bind_cons hend rfl
  | @bare s h hend hquote =>
    have hs : ∀ c ∈ s.toList, c ≠ '\\' ∧ (ends inMeasurement c = true → false = true) := by
      refine fun c hc => ⟨(h.plain c hc).2, fun hends => ?_⟩
      simp [ends, hend c hc, (h.plain c hc).1] at hends
    have hread := (reads_name h.ne_empty rfl hs).map Value.bare
    rw [escape_eq_self fun _ _ => rfl] at hread
    obtain ⟨c, cs, hcs⟩ := List.exists_cons_of_ne_nil (by simpa using h.ne_empty : s.toList ≠ [])
    have hc : c ≠ '"' := by
      rintro rfl
      exact hquote (by rw [hcs]; rfl)
    intro rest hrest
    have hrun := hread rest hrest
    show value.run (s.toList ++ rest) = _
    rw [hcs] at hrun ⊢
    refine Eq.trans ?_ hrun
    show value (c :: (cs ++ rest)) = _
    unfold value
    split
    · next heq => exact absurd (List.cons.inj heq).1 hc
    · rfl

lemma reads_field {f : String × Value} (h : NameOk f.1 ∧ ValueOk f.2) :
    Reads (ends inMeasurement) field (writeField f) f := by
  have hvalue : Reads (ends inMeasurement) (do
      let v ← value
      return (f.1, v)) f.2.write f :=
    (reads_value h.2).map (f.1, ·)
  exact (reads_key h.1).bind_cons hvalue.char_bind rfl

/-- The end of a line. -/
def lineEnd (c : Char) : Bool := c = '\n'

lemma not_isDigit_of_lineEnd {c : Char} (h : lineEnd c = true) : (!c.isDigit) = true := by
  rw [lineEnd, decide_eq_true_eq] at h
  rw [h]
  rfl

lemma reads_timestamp (ts : Option ℤ) : Reads lineEnd timestamp (writeTimestamp ts) ts := by
  cases ts with
  | none =>
    intro rest hrest
    cases rest with
    | nil => rfl
    | cons c cs =>
      obtain rfl : c = '\n' := of_decide_eq_true (next_cons.1 hrest)
      rfl
  | some ts =>
    exact ((reads_integer ts).mono fun c => not_isDigit_of_lineEnd).map some

/-- After the last field comes the end of the line, or a blank. -/
def fieldsEnd (c : Char) : Bool := c = ' ' || c = '\n'

lemma next_timestamp (ts : Option ℤ) {rest : List Char} (h : Next lineEnd rest) :
    Next fieldsEnd (writeTimestamp ts ++ rest) := by
  cases ts with
  | none =>
    refine h.mono fun c hc => ?_
    rw [lineEnd, decide_eq_true_eq] at hc
    rw [hc]
    rfl
  | some ts => exact next_cons.2 rfl

lemma ends_of_fieldsEnd {c : Char} (h : fieldsEnd c = true) : ends inMeasurement c = true := by
  simp only [ends, inMeasurement, fieldsEnd, Bool.or_eq_true, decide_eq_true_eq] at h ⊢
  tauto

lemma reads_fields {first : String × Value} {others : List (String × Value)}
    (h : ∀ f ∈ first :: others, NameOk f.1 ∧ ValueOk f.2) : Reads fieldsEnd fields
      (writeField first ++ others.flatMap fun f => ',' :: writeField f) (first :: others) := by
  have hothers : Reads fieldsEnd (many ',' field)
      (others.flatMap fun f => ',' :: writeField f) others :=
    reads_many (fun f hf => reads_field (h f (List.mem_cons_of_mem first hf))) rfl
      (fun c => ends_of_fieldsEnd) rfl
  refine (reads_field (h first List.mem_cons_self)).bind (hothers.map (first :: ·)) ?_
  exact fun rest hrest => next_flatMap (P := ends inMeasurement) rfl writeField others
    (hrest.mono fun c => ends_of_fieldsEnd)

lemma reads_tags {tags : List (String × String)} (h : ∀ t ∈ tags, NameOk t.1 ∧ NameOk t.2) :
    Reads (fun c => c = ' ') (many ',' tag) (tags.flatMap fun t => ',' :: writeTag t) tags := by
  refine reads_many (fun t ht => reads_tag (h t ht)) rfl (fun c hc => ?_) rfl
  rw [of_decide_eq_true hc]
  rfl

lemma reads_point {p : Point} (h : p.Ok) : Reads lineEnd point p.write p := by
  obtain ⟨m, tags, fs, ts⟩ := p
  obtain ⟨hm, htags, hfields, hne⟩ := h
  obtain ⟨first, others, rfl⟩ := List.exists_cons_of_ne_nil hne
  rw [point]
  -- from the left to the right; what is behind a part tells where it ends
  refine (reads_measurement hm).bind ((reads_tags htags).bind_cons (Reads.char_bind ?_) rfl) ?_
  · refine (reads_fields hfields).bind ?_ fun rest => next_timestamp ts
    exact (reads_timestamp ts).map (Point.mk m tags (first :: others))
  · intro rest _
    rw [List.append_assoc]
    exact next_flatMap (P := ends inMeasurement) rfl writeTag tags (next_cons.2 rfl)

/-- A line with a point on it does not look blank. -/
lemma reads_line {p : Point} (h : p.Ok) : Reads lineEnd line p.write (some p) := by
  obtain ⟨c, cs, hcs⟩ := List.exists_cons_of_ne_nil
    (by simpa using h.measurement.ne_empty : p.measurement.toList ≠ [])
  -- the measurement comes first, behind a backslash if need be
  have hc : ∃ d ds, p.write = d :: ds ∧ d ≠ '\n' := by
    have hplain := h.measurement.plain c (by simp [hcs])
    rw [Point.write, hcs, escape_cons]
    split_ifs
    · exact ⟨_, _, rfl, by decide⟩
    · exact ⟨_, _, rfl, hplain.1⟩
  obtain ⟨d, ds, hwrite, hd⟩ := hc
  intro rest hrest
  have hrun := (reads_point h).map some rest hrest
  rw [hwrite] at hrun ⊢
  refine Eq.trans ?_ hrun
  show line (d :: (ds ++ rest)) = _
  unfold line
  split
  · next heq => cases heq
  · next heq => exact absurd (List.cons.inj heq).1 hd
  · rfl

lemma reads_blank : Reads lineEnd line [] none := by
  intro rest hrest
  cases rest with
  | nil => rfl
  | cons c cs =>
    obtain rfl : c = '\n' := of_decide_eq_true (next_cons.1 hrest)
    rfl

/-- **Points are read back** from the lines that they are written to. -/
theorem read_write {ps : List Point} (h : ∀ p ∈ ps, p.Ok) :
    read (String.ofList (ps.flatMap fun p => '\n' :: p.write)) = some ps := by
  have hnothing : ∀ c : Char, false = true → lineEnd c = true := fun c hc => absurd hc (by decide)
  have hlines : Reads (fun _ => false) (many '\n' line)
      ((ps.map some).flatMap fun o => '\n' :: o.elim [] Point.write) (ps.map some) := by
    refine reads_many (P := lineEnd) (fun o ho => ?_) rfl hnothing rfl
    obtain ⟨p, hp, rfl⟩ := List.mem_map.1 ho
    exact reads_line (h p hp)
  -- the text starts with a line end, and what stands in front of that is a blank line
  have hpoints : Reads (fun _ => false) points
      ((ps.map some).flatMap fun o => '\n' :: o.elim [] Point.write)
      (none :: ps.map some).reduceOption :=
    reads_blank.bind (hlines.map fun others => (none :: others).reduceOption) fun rest hrest =>
      next_flatMap rfl _ _ (hrest.mono hnothing)
  have hps : (none :: ps.map some).reduceOption = ps := by
    show (none :: ps.map some).filterMap id = ps
    simp
  rw [List.flatMap_map, hps] at hpoints
  refine readAll_of_reads (P := fun _ => false) ?_
  rw [String.toList_ofList]
  exact hpoints

/-- A blank line, unquoted values, and a line without a timestamp. -/
example : read "weather,loc=us\\ west t=5i,s=\"a \\\"b\" 12\n\nx y=t" =
    some [⟨"weather", [("loc", "us west")], [("t", .bare "5i"), ("s", .quoted "a \"b")], some 12⟩,
      ⟨"x", [], [("y", .bare "t")], none⟩] := by decide +kernel

end TradingEngine.Lib.LineProtocol
