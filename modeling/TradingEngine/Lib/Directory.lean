/-
Directories with owners.

Owners register values under keys, and an owner can be dropped with all its registrations.
What a directory should answer for a key is the value of the latest registration that is
still live.  `Directory` keeps less than the registrations: one value for a key, and the keys
that each owner has registered.  `answers_iff` says for which histories this is enough.
-/
import Mathlib.Tactic

namespace TradingEngine.Lib

/-- The owner `none` cannot be dropped. -/
structure Registration (O K V : Type*) where
  owner : Option O
  key : K
  value : V
  deriving DecidableEq

/-- An entry comes in, or all entries of an owner are dropped. -/
inductive DirectoryOp (O K V : Type*)
  | register (r : Registration O K V)
  | drop (owner : O)

/-! ### Live registrations -/

section Live

variable {O K V : Type*} [DecidableEq O]

/-- An owner that is dropped loses its registrations. -/
def applyOp (rs : List (Registration O K V)) : DirectoryOp O K V → List (Registration O K V)
  | .register r => rs ++ [r]
  | .drop o => rs.filter fun r => r.owner ≠ some o

/-- The registrations that are live after a history. -/
def live (ops : List (DirectoryOp O K V)) : List (Registration O K V) := ops.foldl applyOp []

@[simp] lemma live_nil : live ([] : List (DirectoryOp O K V)) = [] := rfl

lemma live_concat (ops : List (DirectoryOp O K V)) (op : DirectoryOp O K V) :
    live (ops ++ [op]) = applyOp (live ops) op := by
  simp [live]

/-- An owner can be dropped: nobody else has a registration for one of its keys. -/
def Sole (rs : List (Registration O K V)) (o : O) : Prop :=
  ∀ r ∈ rs, r.owner = some o → ∀ r' ∈ rs, r'.key = r.key → r'.owner = some o

instance [DecidableEq K] (rs : List (Registration O K V)) (o : O) : Decidable (Sole rs o) :=
  inferInstanceAs (Decidable (∀ r ∈ rs, r.owner = some o → ∀ r' ∈ rs, r'.key = r.key →
    r'.owner = some o))

/-- What an operation has to meet. -/
def Fine (rs : List (Registration O K V)) : DirectoryOp O K V → Prop
  | .register _ => True
  | .drop o => Sole rs o

variable [DecidableEq K]

/-- The value of the latest registration for a key. -/
def latest (k : K) (rs : List (Registration O K V)) : Option V :=
  (rs.filter fun r => r.key = k).getLast?.map Registration.value

omit [DecidableEq O] in
lemma latest_concat (k : K) (rs : List (Registration O K V)) (r : Registration O K V) :
    latest k (rs ++ [r]) = if r.key = k then some r.value else latest k rs := by
  by_cases h : r.key = k <;> simp [latest, h]

omit [DecidableEq O] in
lemma latest_eq_none {k : K} {rs : List (Registration O K V)} :
    latest k rs = none ↔ ∀ r ∈ rs, r.key ≠ k := by
  simp [latest]

/-- Without a registration of the dropped owner for a key the answer stays. -/
lemma latest_drop {k : K} {o : O} {rs : List (Registration O K V)}
    (h : ∀ r ∈ rs, r.key = k → r.owner ≠ some o) :
    latest k (applyOp rs (.drop o)) = latest k rs := by
  have hkeep : (rs.filter fun r => r.owner ≠ some o).filter (fun r => r.key = k) =
      rs.filter fun r => r.key = k := by
    rw [List.filter_filter]
    refine List.filter_congr fun r hr => ?_
    by_cases hk : r.key = k <;> simp [hk, h r hr]
  rw [latest, applyOp, hkeep, latest]

end Live

/-! ### Directories -/

/-- One value for a key, and the keys of each owner. -/
@[ext]
structure Directory (O K V : Type*) where
  table : K → Option V := fun _ => none
  keys : O → List K := fun _ => []

namespace Directory

variable {O K V : Type*} [DecidableEq O] [DecidableEq K]

/-- One operation. -/
def apply (d : Directory O K V) : DirectoryOp O K V → Directory O K V
  | .register r =>
    { table := fun k => if k = r.key then some r.value else d.table k
      keys := fun o => if r.owner = some o then d.keys o ++ [r.key] else d.keys o }
  | .drop o =>
    { table := fun k => if k ∈ d.keys o then none else d.table k
      keys := fun o' => if o' = o then [] else d.keys o' }

/-- The directory after a history of operations. -/
def run (ops : List (DirectoryOp O K V)) : Directory O K V := ops.foldl apply {}

@[simp] lemma run_nil : run ([] : List (DirectoryOp O K V)) = {} := rfl

lemma run_concat (ops : List (DirectoryOp O K V)) (op : DirectoryOp O K V) :
    run (ops ++ [op]) = (run ops).apply op := by
  simp [run]

/-- The keys of an owner are those of its live registrations. -/
lemma mem_keys_run (ops : List (DirectoryOp O K V)) (o : O) (k : K) :
    k ∈ (run ops).keys o ↔ ∃ r ∈ live ops, r.owner = some o ∧ r.key = k := by
  induction ops using List.reverseRecOn with
  | nil => simp
  | append_singleton ops op ih =>
    rw [run_concat, live_concat]
    cases op with
    | register r =>
      have hsplit : (∃ r' ∈ live ops ++ [r], r'.owner = some o ∧ r'.key = k) ↔
          (∃ r' ∈ live ops, r'.owner = some o ∧ r'.key = k) ∨ r.owner = some o ∧ r.key = k := by
        simp only [List.mem_append, List.mem_singleton, or_and_right, exists_or, exists_eq_left]
      rw [applyOp, hsplit, ← ih]
      by_cases hr : r.owner = some o <;> simp [apply, hr, eq_comm]
    | drop o' =>
      simp only [apply, applyOp, List.mem_filter, decide_eq_true_eq]
      rcases eq_or_ne o o' with rfl | hne
      · simp only [if_true, List.not_mem_nil, false_iff]
        rintro ⟨r, ⟨-, hr⟩, hr', -⟩
        exact hr hr'
      · rw [if_neg hne, ih]
        constructor
        · rintro ⟨r, hr, ho, hk⟩
          exact ⟨r, ⟨hr, fun heq => hne (Option.some.inj (ho.symm.trans heq))⟩, ho, hk⟩
        · rintro ⟨r, ⟨hr, -⟩, ho, hk⟩
          exact ⟨r, hr, ho, hk⟩

/-- Whatever a directory answers is the latest live registration. -/
lemma latest_of_table {ops : List (DirectoryOp O K V)} {k : K} {v : V}
    (h : (run ops).table k = some v) : latest k (live ops) = some v := by
  induction ops using List.reverseRecOn with
  | nil => simp at h
  | append_singleton ops op ih =>
    rw [run_concat] at h
    rw [live_concat]
    cases op with
    | register r =>
      simp only [apply] at h
      rw [applyOp, latest_concat]
      split_ifs at h ⊢ with hk hk'
      · exact h
      · exact absurd hk.symm hk'
      · exact absurd (Eq.symm ‹_›) hk
      · exact ih h
    | drop o =>
      simp only [apply] at h
      split_ifs at h with hk
      rw [latest_drop fun r hr hkey ho => hk ((mem_keys_run ops o k).2 ⟨r, hr, ho, hkey⟩)]
      exact ih h

/-- A directory answers with the latest live registrations. -/
def Answers (ops : List (DirectoryOp O K V)) : Prop :=
  ∀ k, (run ops).table k = latest k (live ops)

lemma answers_nil : Answers ([] : List (DirectoryOp O K V)) := fun _ => rfl

/-- **One operation.** -/
theorem answers_concat {ops : List (DirectoryOp O K V)} (h : Answers ops)
    (op : DirectoryOp O K V) : Answers (ops ++ [op]) ↔ Fine (live ops) op := by
  cases op with
  | register r =>
    refine ⟨fun _ => trivial, fun _ k => ?_⟩
    rw [run_concat, live_concat, applyOp, latest_concat, ← h k]
    simp only [apply, eq_comm]
  | drop o =>
    have htable : ∀ k, (run (ops ++ [.drop o])).table k =
        if k ∈ (run ops).keys o then none else latest k (live ops) := by
      intro k
      rw [run_concat, ← h k]
      rfl
    constructor
    · -- a key of the owner that somebody else has registered is erased, but should not be
      intro hall r hr ho r' hr' hk
      by_contra hne
      have hkey : r.key ∈ (run ops).keys o := (mem_keys_run ops o r.key).2 ⟨r, hr, ho, rfl⟩
      have hnone := hall r.key
      rw [htable, if_pos hkey, live_concat, eq_comm, latest_eq_none] at hnone
      exact hnone r' (List.mem_filter.2 ⟨hr', decide_eq_true hne⟩) hk
    · intro hsole k
      rw [htable, live_concat]
      split_ifs with hk
      · obtain ⟨r, hr, ho, rfl⟩ := (mem_keys_run ops o k).1 hk
        rw [eq_comm, latest_eq_none]
        intro r' hr' hkey
        rw [applyOp, List.mem_filter, decide_eq_true_eq] at hr'
        exact hr'.2 (hsole r hr ho r' hr'.1 hkey)
      · refine (latest_drop fun r hr hkey ho => hk ?_).symm
        exact (mem_keys_run ops o k).2 ⟨r, hr, ho, hkey⟩

/-- **The directory answers right throughout a history** if and only if every owner that is
dropped is the only one with registrations for its keys. -/
theorem answers_iff (ops : List (DirectoryOp O K V)) :
    (∀ before, before <+: ops → Answers before) ↔
      ∀ before op, before ++ [op] <+: ops → Fine (live before) op := by
  induction ops using List.reverseRecOn with
  | nil =>
    refine ⟨fun _ before op h => ?_, fun _ before h => ?_⟩
    · simp at h
    · rw [List.prefix_nil.1 h]
      exact answers_nil
  | append_singleton ops op ih =>
    constructor
    · intro hall before op' h
      have hbefore : Answers before := hall before ((List.prefix_append before [op']).trans h)
      exact (answers_concat hbefore op').1 (hall _ h)
    · intro hall before h
      have hold := ih.2 fun before op' h' => hall before op' (h'.trans (List.prefix_append ..))
      rcases List.prefix_concat_iff.1 h with rfl | h
      · exact (answers_concat (hold ops (List.prefix_refl _)) op).2
          (hall ops op (List.prefix_refl _))
      · exact hold before h

end Directory

end TradingEngine.Lib
