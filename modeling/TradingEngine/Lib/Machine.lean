/-
Machines with partial steps.

A machine is run by a list of events; an event that is not possible ends the run.
`Machine.Run` collects the runs whose every step meets a condition, `Run.invariant` is the
induction over them, and `Machine.trace` lists what can be observed along a run.
-/
import Mathlib.Tactic

namespace TradingEngine.Lib

/-- A deterministic machine: an event is possible in a state or not. -/
structure Machine (σ ε : Type*) where
  init : σ
  step : σ → ε → Option σ

namespace Machine

variable {σ ε : Type*} (M : Machine σ ε)

/-! ### Runs -/

/-- The runs from the initial state in which every event meets the condition `G` in the
state where it happens. -/
inductive Run (G : σ → ε → Prop) : List ε → σ → Prop
  | start : Run G [] M.init
  | step {es : List ε} {e : ε} {s s' : σ} (h : Run G es s) (hG : G s e)
      (hstep : M.step s e = some s') : Run G (es ++ [e]) s'

/-- All runs. -/
abbrev Reaches (es : List ε) (s : σ) : Prop := M.Run (fun _ _ => True) es s

variable {M}

/-- **The rule of invariants.**  What holds initially and is kept by every step holds in
every state reached; the invariant may speak of the events so far. -/
theorem Run.invariant {G : σ → ε → Prop} {P : List ε → σ → Prop} (hinit : P [] M.init)
    (hstep : ∀ es s e s', M.Run G es s → P es s → G s e → M.step s e = some s' →
      P (es ++ [e]) s') {es : List ε} {s : σ} (h : M.Run G es s) : P es s := by
  induction h with
  | start => exact hinit
  | step h hG hs ih => exact hstep _ _ _ _ h ih hG hs

lemma Run.reaches {G : σ → ε → Prop} {es : List ε} {s : σ} (h : M.Run G es s) :
    M.Reaches es s := by
  induction h with
  | start => exact .start
  | step _ _ hs ih => exact .step ih trivial hs

/-- A weaker condition. -/
lemma Run.mono {G G' : σ → ε → Prop} {es : List ε} {s : σ} (h : M.Run G es s)
    (hG : ∀ es s e, M.Run G es s → G s e → G' s e) : M.Run G' es s := by
  induction h with
  | start => exact .start
  | step h he hs ih => exact .step ih (hG _ _ _ h he) hs

/-- The last step of a run. -/
lemma Run.last {G : σ → ε → Prop} {es : List ε} {e : ε} {s' : σ} (h : M.Run G (es ++ [e]) s') :
    ∃ s, M.Run G es s ∧ G s e ∧ M.step s e = some s' := by
  generalize hes : es ++ [e] = l at h
  cases h with
  | start => simp at hes
  | step h hG hs =>
    obtain ⟨rfl, he⟩ := List.append_inj' hes rfl
    obtain rfl : e = _ := by simpa using he
    exact ⟨_, h, hG, hs⟩

/-- Every event of a run is possible where it happens. -/
lemma Run.possible {G : σ → ε → Prop} {es : List ε} {s : σ} (h : M.Run G es s) :
    M.Run (fun s e => ∃ s', M.step s e = some s') es s := by
  induction h with
  | start => exact .start
  | step _ _ hs ih => exact .step ih ⟨_, hs⟩ hs

/-- An event that changes nothing can be left out of a run. -/
lemma Run.skip {G : σ → ε → Prop} {es es' : List ε} {e : ε} {s : σ}
    (hskip : ∀ s₀ s₁, M.Run G es s₀ → M.step s₀ e = some s₁ → s₁ = s₀)
    (h : M.Run G (es ++ e :: es') s) : M.Run G (es ++ es') s := by
  induction es' using List.reverseRecOn generalizing s with
  | nil =>
    obtain ⟨s₀, h₀, -, hstep⟩ := Run.last h
    rw [hskip s₀ s h₀ hstep, List.append_nil]
    exact h₀
  | append_singleton es' e' ih =>
    rw [← List.cons_append, ← List.append_assoc] at h
    obtain ⟨s₁, h₁, hG, hstep⟩ := Run.last h
    rw [← List.append_assoc]
    exact .step (ih h₁) hG hstep

variable (M)

/-- The machine that starts in another state. -/
def startAt (s : σ) : Machine σ ε := { M with init := s }

variable {M}

/-- A run is continued. -/
lemma Run.append {G G' : σ → ε → Prop} {es es' : List ε} {s s' : σ} (h : M.Run G es s)
    (h' : (M.startAt s).Run G' es' s') : M.Reaches (es ++ es') s' := by
  induction h' with
  | start =>
    rw [List.append_nil]
    exact h.reaches
  | step _ _ hstep ih =>
    rw [← List.append_assoc]
    exact .step ih trivial hstep

/-- A run is continued under the same condition. -/
lemma Run.trans {G : σ → ε → Prop} {es es' : List ε} {s s' : σ} (h : M.Run G es s)
    (h' : (M.startAt s).Run G es' s') : M.Run G (es ++ es') s' := by
  induction h' with
  | start =>
    rw [List.append_nil]
    exact h
  | step _ hG hstep ih =>
    rw [← List.append_assoc]
    exact .step ih hG hstep

variable (M)

/-- The state after a sequence of events from `s`, if every event is possible and meets the
condition. -/
def runFrom (G : σ → ε → Prop) [∀ s e, Decidable (G s e)] (s : σ) : List ε → Option σ
  | [] => some s
  | e :: es => if G s e then (M.step s e).bind fun s' => runFrom G s' es else none

lemma runFrom_concat {G : σ → ε → Prop} [∀ s e, Decidable (G s e)] (s : σ) (es : List ε)
    (e : ε) : M.runFrom G s (es ++ [e]) =
      (M.runFrom G s es).bind fun s' => if G s' e then M.step s' e else none := by
  induction es generalizing s with
  | nil => by_cases h : G s e <;> simp [runFrom, h]
  | cons e' es ih =>
    by_cases h : G s e'
    · cases hs : M.step s e' <;> simp [runFrom, h, hs, ih]
    · simp [runFrom, h]

lemma run_of_runFrom {G : σ → ε → Prop} [∀ s e, Decidable (G s e)] {es : List ε} {s : σ}
    (h : M.runFrom G M.init es = some s) : M.Run G es s := by
  induction es using List.reverseRecOn generalizing s with
  | nil =>
    obtain rfl : M.init = s := Option.some.inj h
    exact .start
  | append_singleton es e ih =>
    rw [runFrom_concat, Option.bind_eq_some_iff] at h
    obtain ⟨s₁, h₁, h₂⟩ := h
    split_ifs at h₂ with hG
    exact .step (ih h₁) hG h₂

/-- Every event of the sequence is possible and meets the condition. -/
def admits (G : σ → ε → Prop) [∀ s e, Decidable (G s e)] (es : List ε) : Bool :=
  (M.runFrom G M.init es).isSome

/-- A run that can be computed is a run. -/
lemma exists_run {G : σ → ε → Prop} [∀ s e, Decidable (G s e)] {es : List ε}
    (h : M.admits G es) : ∃ s, M.Run G es s := by
  obtain ⟨s, hs⟩ := Option.isSome_iff_exists.1 h
  exact ⟨s, M.run_of_runFrom hs⟩

/-! ### Traces -/

/-- What is observed from `s` on, event by event. -/
def traceFrom {ω : Type*} (observe : σ → ε → List ω) (s : σ) : List ε → List ω
  | [] => []
  | e :: es => observe s e ++ ((M.step s e).map fun s' => traceFrom observe s' es).getD []

/-- What is observed along a run. -/
def trace {ω : Type*} (observe : σ → ε → List ω) (es : List ε) : List ω :=
  M.traceFrom observe M.init es

@[simp] lemma trace_nil {ω : Type*} (observe : σ → ε → List ω) : M.trace observe [] = [] := rfl

lemma traceFrom_concat {ω : Type*} (observe : σ → ε → List ω) (s s' : σ) (es : List ε) (e : ε)
    (h : M.runFrom (fun _ _ => True) s es = some s') :
    M.traceFrom observe s (es ++ [e]) = M.traceFrom observe s es ++ observe s' e := by
  induction es generalizing s with
  | nil =>
    obtain rfl : s = s' := Option.some.inj h
    cases hs : M.step s e <;> simp [traceFrom, hs]
  | cons e' es ih =>
    simp only [runFrom, if_true] at h
    cases hs : M.step s e' with
    | none => simp [hs] at h
    | some s₁ =>
      rw [hs, Option.bind_some] at h
      simp [traceFrom, hs, ih s₁ h]

variable {M}

lemma Run.runFrom {G : σ → ε → Prop} {es : List ε} {s : σ} (h : M.Run G es s) :
    M.runFrom (fun _ _ => True) M.init es = some s := by
  induction h with
  | start => rfl
  | step _ _ hs ih => rw [runFrom_concat, ih, Option.bind_some, if_pos trivial, hs]

/-- A step adds its own observations to the trace. -/
lemma Run.trace_concat {ω : Type*} {G : σ → ε → Prop} {es : List ε} {s : σ}
    (h : M.Run G es s) (observe : σ → ε → List ω) (e : ε) :
    M.trace observe (es ++ [e]) = M.trace observe es ++ observe s e :=
  M.traceFrom_concat observe M.init s es e h.runFrom

/-- An event that changes nothing, and at which nothing is observed, leaves no trace. -/
lemma Run.trace_skip {ω : Type*} {G : σ → ε → Prop} {observe : σ → ε → List ω}
    {es es' : List ε} {e : ε} {s : σ}
    (hskip : ∀ s₀ s₁, M.Run G es s₀ → M.step s₀ e = some s₁ → s₁ = s₀ ∧ observe s₀ e = [])
    (h : M.Run G (es ++ e :: es') s) :
    M.trace observe (es ++ e :: es') = M.trace observe (es ++ es') := by
  induction es' using List.reverseRecOn generalizing s with
  | nil =>
    obtain ⟨s₀, h₀, -, hstep⟩ := Run.last h
    rw [h₀.trace_concat, (hskip s₀ s h₀ hstep).2, List.append_nil, List.append_nil]
  | append_singleton es' e' ih =>
    rw [← List.cons_append, ← List.append_assoc] at h ⊢
    obtain ⟨s₁, h₁, -, -⟩ := Run.last h
    have hskipped := Run.skip (fun s₀ s₁ h₀ hstep => (hskip s₀ s₁ h₀ hstep).1) h₁
    rw [h₁.trace_concat, ih h₁, ← List.append_assoc, hskipped.trace_concat]

/-- A function of what is observed at each event, which respects appending, is a function of
the whole trace. -/
lemma Run.trace_hom {ω ω' : Type*} {G : σ → ε → Prop} {observe : σ → ε → List ω}
    {observe' : σ → ε → List ω'} {f : List ω → List ω'} (hnil : f [] = [])
    (happend : ∀ l l', f (l ++ l') = f l ++ f l')
    (heq : ∀ es s e, M.Run G es s → G s e → observe' s e = f (observe s e))
    {es : List ε} {s : σ} (h : M.Run G es s) : M.trace observe' es = f (M.trace observe es) := by
  induction h with
  | start => exact hnil.symm
  | step h hG _ ih => rw [h.trace_concat, h.trace_concat, ih, heq _ _ _ h hG, happend]

lemma Run.trace_congr {ω : Type*} {G : σ → ε → Prop} {observe observe' : σ → ε → List ω}
    (heq : ∀ es s e, M.Run G es s → G s e → observe' s e = observe s e)
    {es : List ε} {s : σ} (h : M.Run G es s) : M.trace observe' es = M.trace observe es :=
  h.trace_hom (f := id) rfl (fun _ _ => rfl) heq

/-- What is observed of the events alone does not depend on the run. -/
lemma Run.trace_events {ω : Type*} {G : σ → ε → Prop} (f : ε → List ω) {es : List ε} {s : σ}
    (h : M.Run G es s) : M.trace (fun _ e => f e) es = es.flatMap f := by
  induction h with
  | start => rfl
  | step h _ _ ih =>
    rw [h.trace_concat, ih, List.flatMap_append, List.flatMap_singleton]

lemma Run.trace_filterMap {ω ω' : Type*} {G : σ → ε → Prop} {observe : σ → ε → List ω}
    {observe' : σ → ε → List ω'} {f : ω → Option ω'}
    (heq : ∀ es s e, M.Run G es s → G s e → observe' s e = (observe s e).filterMap f)
    {es : List ε} {s : σ} (h : M.Run G es s) :
    M.trace observe' es = (M.trace observe es).filterMap f :=
  h.trace_hom rfl (fun _ _ => List.filterMap_append ..) heq

lemma Run.trace_map {ω ω' : Type*} {G : σ → ε → Prop} {observe : σ → ε → List ω} (f : ω → ω')
    {es : List ε} {s : σ} (h : M.Run G es s) :
    M.trace (fun s e => (observe s e).map f) es = (M.trace observe es).map f :=
  h.trace_hom rfl (fun _ _ => List.map_append ..) fun _ _ _ _ _ => rfl

lemma Run.trace_flatMap {ω ω' : Type*} {G : σ → ε → Prop} {observe : σ → ε → List ω}
    (f : ω → List ω') {es : List ε} {s : σ} (h : M.Run G es s) :
    M.trace (fun s e => (observe s e).flatMap f) es = (M.trace observe es).flatMap f :=
  h.trace_hom rfl (fun _ _ => List.flatMap_append ..) fun _ _ _ _ _ => rfl

lemma Run.trace_filter {ω : Type*} {G : σ → ε → Prop} {observe : σ → ε → List ω} (p : ω → Bool)
    {es : List ε} {s : σ} (h : M.Run G es s) :
    M.trace (fun s e => (observe s e).filter p) es = (M.trace observe es).filter p :=
  h.trace_hom rfl (fun _ _ => List.filter_append ..) fun _ _ _ _ _ => rfl

lemma Run.trace_sublist {ω : Type*} {G : σ → ε → Prop} {observe observe' : σ → ε → List ω}
    (hle : ∀ es s e, M.Run G es s → G s e → (observe s e).Sublist (observe' s e))
    {es : List ε} {s : σ} (h : M.Run G es s) :
    (M.trace observe es).Sublist (M.trace observe' es) := by
  induction h with
  | start => exact .slnil
  | step h hG _ ih =>
    rw [h.trace_concat, h.trace_concat]
    exact ih.append (hle _ _ _ h hG)

/-- **The rule of channels.**  When every step takes from the front of a queue what is
observed as output and appends what is observed as input, the first queue and the inputs of a
run are its outputs and the last queue. -/
theorem Run.channel_from {ω : Type*} {G : σ → ε → Prop} {queue : σ → List ω}
    {input output : σ → ε → List ω}
    (hstep : ∀ es s e s', M.Run G es s → G s e → M.step s e = some s' →
      queue s ++ input s e = output s e ++ queue s')
    {es : List ε} {s : σ} (h : M.Run G es s) :
    queue M.init ++ M.trace input es = M.trace output es ++ queue s := by
  induction h with
  | start => simp
  | step h hG hs ih =>
    rw [h.trace_concat, h.trace_concat, ← List.append_assoc, ih, List.append_assoc,
      hstep _ _ _ _ h hG hs, List.append_assoc]

/-- When the queue is empty at first, the inputs are the outputs followed by the queue. -/
theorem Run.channel {ω : Type*} {G : σ → ε → Prop} {queue : σ → List ω}
    {input output : σ → ε → List ω} (hinit : queue M.init = [])
    (hstep : ∀ es s e s', M.Run G es s → G s e → M.step s e = some s' →
      queue s ++ input s e = output s e ++ queue s')
    {es : List ε} {s : σ} (h : M.Run G es s) :
    M.trace input es = M.trace output es ++ queue s := by
  have hall := h.channel_from hstep
  rwa [hinit, List.nil_append] at hall

/-! ### Simulation -/

/-- **The rule of simulation.**  When every step of a run is matched by some steps of another
machine, the run is matched by a run of the other machine; the relation may speak of the events
of both so far. -/
theorem Run.simulation {σ' ε' : Type*} {M' : Machine σ' ε'} {G : σ → ε → Prop}
    {R : List ε → σ → List ε' → σ' → Prop} (hinit : R [] M.init [] M'.init)
    (hstep : ∀ es s e s' es' t, M.Run G es s → M'.Reaches es' t → R es s es' t → G s e →
      M.step s e = some s' → ∃ es'' t', M'.Reaches es'' t' ∧ R (es ++ [e]) s' es'' t')
    {es : List ε} {s : σ} (h : M.Run G es s) : ∃ es' t, M'.Reaches es' t ∧ R es s es' t := by
  induction h with
  | start => exact ⟨[], M'.init, .start, hinit⟩
  | step h hG hs ih =>
    obtain ⟨es', t, hreaches, hR⟩ := ih
    exact hstep _ _ _ _ es' t h hreaches hR hG hs

/-! ### Machines inside machines -/

/-- The events of the inner machine. -/
def innerEvents {ε' : Type*} (M : Machine σ ε) (inner : σ → ε → Option ε') (es : List ε) :
    List ε' :=
  M.trace (fun s e => (inner s e).toList) es

/-- **The rule of inner machines.**  When every step is a step of an inner machine or leaves the
state of it alone, a run is a run of the inner machine, and what is observed of the inner machine
on the one is observed on the other. -/
theorem Run.inside {σ' ε' : Type*} {M' : Machine σ' ε'} {G : σ → ε → Prop} {G' : σ' → ε' → Prop}
    (state : σ → σ') (inner : σ → ε → Option ε') (hinit : state M.init = M'.init)
    (hstep : ∀ es s e s', M.Run G es s → G s e → M.step s e = some s' →
      (inner s e = none ∧ state s' = state s) ∨
        ∃ e', inner s e = some e' ∧ G' (state s) e' ∧ M'.step (state s) e' = some (state s'))
    {es : List ε} {s : σ} (h : M.Run G es s) :
    M'.Run G' (M.innerEvents inner es) (state s) ∧
      ∀ {ω : Type*} (observe : σ' → ε' → List ω), M'.trace observe (M.innerEvents inner es) =
        M.trace (fun s e => (inner s e).toList.flatMap (observe (state s))) es := by
  induction h with
  | start =>
    refine ⟨?_, fun observe => rfl⟩
    rw [hinit]
    exact .start
  | @step es e s s' hrun hG hs ih =>
    obtain ⟨hinner, htrace⟩ := ih
    have hevents : M.innerEvents inner (es ++ [e]) =
        M.innerEvents inner es ++ (inner s e).toList := hrun.trace_concat _ e
    rcases hstep es s e s' hrun hG hs with ⟨hnone, hsame⟩ | ⟨e', hsome, hG', hs'⟩
    · rw [hevents, hnone, hsame, Option.toList_none, List.append_nil]
      refine ⟨hinner, fun observe => ?_⟩
      rw [hrun.trace_concat, htrace, hnone]
      simp
    · rw [hevents, hsome, Option.toList_some]
      refine ⟨.step hinner hG' hs', fun observe => ?_⟩
      rw [hrun.trace_concat, hinner.trace_concat, htrace, hsome]
      simp

end Machine

/-! ### States with several parties -/

/-- A sum over the parties changes by what changes for the party that takes a step. -/
lemma sum_map_set {α β : Type*} [AddCommMonoid β] (f : α → β) {l : List α} {i : ℕ} {a : α}
    (h : l[i]? = some a) (b : α) : ((l.set i b).map f).sum + f a = (l.map f).sum + f b := by
  induction l generalizing i with
  | nil => cases h
  | cons c l ih =>
    cases i with
    | zero =>
      cases h
      rw [List.set_cons_zero, List.map_cons, List.map_cons, List.sum_cons, List.sum_cons,
        add_comm (f b), add_right_comm, add_comm _ (f a)]
    | succ i =>
      rw [List.set_cons_succ, List.map_cons, List.map_cons, List.sum_cons, List.sum_cons,
        add_assoc, ih h, add_assoc]

end TradingEngine.Lib
