/-
Programs with a state, loops that need not end and jumps to the end.

A program is run with a bound for the rounds of its loops; what it gives under one bound it gives
under every greater one.  `Ends` leaves the bound out.  `Simulates` compares programs over two
kinds of state, and there is one rule for each way to put programs together.
-/
import Mathlib.Tactic

namespace TradingEngine.Lib

/-- How a part of a program ends. -/
inductive Outcome (α : Type)
  | value (x : α)
  /-- By a jump to the end of the whole program. -/
  | jump
  deriving DecidableEq

/-- A computation on a state, with jumps and loops; `n` bounds the rounds of each loop. -/
structure Program (σ α : Type) where
  /-- The outcome and the state after it; `none` if a loop has reached the bound. -/
  run : ℕ → σ → Option (Outcome α × σ)
  run_mono : ∀ {n m : ℕ} {s : σ} {r : Outcome α × σ}, n ≤ m → run n s = some r → run m s = some r

namespace Program

variable {σ τ α β : Type}

/-! ### How programs are put together -/

/-- A step that changes the state and has a value. -/
def act (f : σ → α × σ) : Program σ α where
  run _ s := some (.value (f s).1, (f s).2)
  run_mono _ h := h

/-- A step that only reads the state. -/
def read (g : σ → α) : Program σ α := act fun s => (g s, s)

/-- A last step, after which the program is at its end. -/
def jump (f : σ → σ) : Program σ α where
  run _ s := some (.jump, f s)
  run_mono _ h := h

/-- The program that never ends. -/
def diverge : Program σ α where
  run _ _ := none
  run_mono _ h := by cases h

/-- One computation after the other; a jump leaves both. -/
def bindRun (p : Program σ α) (f : α → Program σ β) (n : ℕ) (s : σ) : Option (Outcome β × σ) :=
  match p.run n s with
  | none => none
  | some (.jump, s') => some (.jump, s')
  | some (.value x, s') => (f x).run n s'

lemma bindRun_mono {p : Program σ α} {f : α → Program σ β} {n m : ℕ} {s : σ}
    {r : Outcome β × σ} (hnm : n ≤ m) (h : bindRun p f n s = some r) :
    bindRun p f m s = some r := by
  rcases hp : p.run n s with _ | ⟨_ | _, s'⟩
  · rw [bindRun, hp] at h
    cases h
  · rw [bindRun, hp] at h
    rw [bindRun, p.run_mono hnm hp]
    exact (f _).run_mono hnm h
  · rw [bindRun, hp] at h
    rw [bindRun, p.run_mono hnm hp]
    exact h

instance : Monad (Program σ) where
  pure x := act fun s => (x, s)
  bind p f := ⟨bindRun p f, bindRun_mono⟩

/-- At most `k` rounds of a loop that goes on as long as its body gives `true`. -/
def loopRun (body : Program σ Bool) (n : ℕ) : ℕ → σ → Option (Outcome Unit × σ)
  | 0, _ => none
  | k + 1, s =>
    match body.run n s with
    | none => none
    | some (.jump, s') => some (.jump, s')
    | some (.value false, s') => some (.value (), s')
    | some (.value true, s') => loopRun body n k s'

lemma loopRun_mono {body : Program σ Bool} {n m : ℕ} (hnm : n ≤ m) {k l : ℕ} (hkl : k ≤ l) {s : σ}
    {r : Outcome Unit × σ} (h : loopRun body n k s = some r) : loopRun body m l s = some r := by
  induction k generalizing l s with
  | zero => cases h
  | succ k ih =>
    obtain ⟨l, rfl⟩ : ∃ l', l = l' + 1 := ⟨l - 1, by omega⟩
    rcases hbody : body.run n s with _ | ⟨(_ | _) | _, s'⟩
    · simp [loopRun, hbody] at h
    · simpa [loopRun, hbody, body.run_mono hnm hbody] using h
    · rw [loopRun, hbody] at h
      rw [loopRun, body.run_mono hnm hbody]
      exact ih (by omega) h
    · simpa [loopRun, hbody, body.run_mono hnm hbody] using h

/-- The body again and again, as long as it gives `true`. -/
def loop (body : Program σ Bool) : Program σ Unit where
  run n s := loopRun body n n s
  run_mono hnm h := loopRun_mono hnm hnm h

/-! ### How a program ends -/

/-- The program ends so, in this state. -/
def Ends (p : Program σ α) (s : σ) (o : Outcome α) (s' : σ) : Prop := ∃ n, p.run n s = some (o, s')

/-- The program never ends. -/
def Diverges (p : Program σ α) (s : σ) : Prop := ∀ n, p.run n s = none

lemma Ends.unique {p : Program σ α} {s s₁ s₂ : σ} {o₁ o₂ : Outcome α} (h₁ : p.Ends s o₁ s₁)
    (h₂ : p.Ends s o₂ s₂) : o₁ = o₂ ∧ s₁ = s₂ := by
  obtain ⟨n, hn⟩ := h₁
  obtain ⟨m, hm⟩ := h₂
  have hn' := p.run_mono (le_max_left n m) hn
  rw [p.run_mono (le_max_right n m) hm] at hn'
  simpa [eq_comm] using hn'

lemma Diverges.not_ends {p : Program σ α} {s s' : σ} {o : Outcome α} (h : p.Diverges s) :
    ¬ p.Ends s o s' := by
  rintro ⟨n, hn⟩
  rw [h n] at hn
  cases hn

lemma diverges_iff {p : Program σ α} {s : σ} : p.Diverges s ↔ ∀ o s', ¬ p.Ends s o s' := by
  constructor
  · exact fun h o s' => h.not_ends
  · intro h n
    cases hrun : p.run n s with
    | none => rfl
    | some r => exact absurd ⟨n, hrun⟩ (h r.1 r.2)

lemma ends_act (f : σ → α × σ) (s : σ) : (act f).Ends s (.value (f s).1) (f s).2 := ⟨0, rfl⟩

lemma ends_read (g : σ → α) (s : σ) : (read g).Ends s (.value (g s)) s := ⟨0, rfl⟩

lemma ends_pure (x : α) (s : σ) : (pure x : Program σ α).Ends s (.value x) s := ⟨0, rfl⟩

lemma ends_jump (f : σ → σ) (s : σ) : (jump f : Program σ α).Ends s .jump (f s) := ⟨0, rfl⟩

section Bind

variable {p : Program σ α} {f : α → Program σ β} {s s₁ s' : σ} {x : α} {o : Outcome β}

lemma Ends.bind (hp : p.Ends s (.value x) s₁) (hf : (f x).Ends s₁ o s') :
    (p >>= f).Ends s o s' := by
  obtain ⟨n, hn⟩ := hp
  obtain ⟨m, hm⟩ := hf
  refine ⟨max n m, ?_⟩
  show bindRun p f _ s = _
  rw [bindRun, p.run_mono (le_max_left n m) hn]
  exact (f x).run_mono (le_max_right n m) hm

lemma Ends.bind_jump (hp : p.Ends s .jump s') : (p >>= f).Ends s .jump s' := by
  obtain ⟨n, hn⟩ := hp
  refine ⟨n, ?_⟩
  show bindRun p f n s = _
  rw [bindRun, hn]

/-- What the first part has done. -/
lemma ends_bind_iff : (p >>= f).Ends s o s' ↔
    p.Ends s .jump s' ∧ o = .jump ∨ ∃ x s₁, p.Ends s (.value x) s₁ ∧ (f x).Ends s₁ o s' := by
  constructor
  · rintro ⟨n, hn⟩
    change bindRun p f n s = _ at hn
    rcases hp : p.run n s with _ | ⟨x | _, s₁⟩
    · rw [bindRun, hp] at hn
      cases hn
    · rw [bindRun, hp] at hn
      exact .inr ⟨x, s₁, ⟨n, hp⟩, ⟨n, hn⟩⟩
    · rw [bindRun, hp] at hn
      cases hn
      exact .inl ⟨⟨n, hp⟩, rfl⟩
  · rintro (⟨hp, rfl⟩ | ⟨x, s₁, hp, hf⟩)
    · exact hp.bind_jump
    · exact hp.bind hf

lemma Diverges.bind (hp : p.Diverges s) : (p >>= f).Diverges s := by
  intro n
  show bindRun p f n s = none
  rw [bindRun, hp n]

lemma Ends.bind_diverges (hp : p.Ends s (.value x) s₁) (hf : (f x).Diverges s₁) :
    (p >>= f).Diverges s := by
  refine diverges_iff.2 fun o s' hends => ?_
  rcases ends_bind_iff.1 hends with ⟨hjump, -⟩ | ⟨y, s₂, hp', hf'⟩
  · cases (hp.unique hjump).1
  · obtain ⟨hxy, rfl⟩ := hp.unique hp'
    cases hxy
    exact hf.not_ends hf'

end Bind

section Loop

variable {body : Program σ Bool} {s s₁ s' : σ} {o : Outcome Unit}

lemma Ends.loop_done (h : body.Ends s (.value false) s') :
    (loop body).Ends s (.value ()) s' := by
  obtain ⟨n, hn⟩ := h
  refine ⟨n + 1, ?_⟩
  show loopRun body (n + 1) (n + 1) s = _
  rw [loopRun, body.run_mono n.le_succ hn]

lemma Ends.loop_jump (h : body.Ends s .jump s') : (loop body).Ends s .jump s' := by
  obtain ⟨n, hn⟩ := h
  refine ⟨n + 1, ?_⟩
  show loopRun body (n + 1) (n + 1) s = _
  rw [loopRun, body.run_mono n.le_succ hn]

lemma Ends.loop_again (h : body.Ends s (.value true) s₁) (hloop : (loop body).Ends s₁ o s') :
    (loop body).Ends s o s' := by
  obtain ⟨n, hn⟩ := h
  obtain ⟨m, hm⟩ := hloop
  refine ⟨max n m + 1, ?_⟩
  show loopRun body (max n m + 1) (max n m + 1) s = _
  rw [loopRun, body.run_mono ((le_max_left n m).trans (Nat.le_succ _)) hn]
  exact loopRun_mono ((le_max_right n m).trans (Nat.le_succ _)) (le_max_right n m) hm

/-- **Induction on the rounds of a loop.** -/
theorem Ends.loop_rec {motive : σ → Outcome Unit → σ → Prop}
    (hjump : ∀ s s', body.Ends s .jump s' → motive s .jump s')
    (hdone : ∀ s s', body.Ends s (.value false) s' → motive s (.value ()) s')
    (hagain : ∀ s s₁ o s', body.Ends s (.value true) s₁ → motive s₁ o s' → motive s o s')
    (h : (loop body).Ends s o s') : motive s o s' := by
  obtain ⟨n, hn⟩ := h
  have hrounds : ∀ k s, loopRun body n k s = some (o, s') → motive s o s' := by
    intro k
    induction k with
    | zero =>
      intro s h
      cases h
    | succ k ih =>
      intro s h
      rcases hbody : body.run n s with _ | ⟨(_ | _) | _, s₁⟩ <;> rw [loopRun, hbody] at h
      · cases h
      · cases h
        exact hdone s _ ⟨n, hbody⟩
      · exact hagain s s₁ o s' ⟨n, hbody⟩ (ih s₁ h)
      · cases h
        exact hjump s _ ⟨n, hbody⟩
  exact hrounds n s hn

/-- **A loop with an invariant under which it always goes on never ends.** -/
theorem diverges_loop {I : σ → Prop}
    (hstep : ∀ s, I s → ∃ s', body.Ends s (.value true) s' ∧ I s') (hs : I s) :
    (loop body).Diverges s := by
  refine diverges_iff.2 fun o s' h => h.loop_rec (motive := fun s _ _ => ¬ I s) ?_ ?_ ?_ hs
  · intro s s' hjump hI
    obtain ⟨s₁, hs₁, -⟩ := hstep s hI
    cases (hjump.unique hs₁).1
  · intro s s' hdone hI
    obtain ⟨s₁, hs₁, -⟩ := hstep s hI
    cases (hdone.unique hs₁).1
  · intro s s₁ o s' hagain ih hI
    obtain ⟨s₂, hs₂, hI₂⟩ := hstep s hI
    obtain ⟨-, rfl⟩ := hagain.unique hs₂
    exact ih hI₂

/-- Rounds of a loop after which it goes on. -/
def Rounds (body : Program σ Bool) : σ → σ → Prop :=
  Relation.ReflTransGen fun s s' => body.Ends s (.value true) s'

lemma Ends.rounds (h : body.Ends s (.value true) s') : Rounds body s s' := .single h

lemma Rounds.ends (h : Rounds body s s₁) (hloop : (loop body).Ends s₁ o s') :
    (loop body).Ends s o s' := by
  induction h using Relation.ReflTransGen.head_induction_on with
  | refl => exact hloop
  | head hround _ ih => exact hround.loop_again ih

/-- What the first round has done. -/
lemma ends_loop_iff : (loop body).Ends s o s' ↔
    body.Ends s .jump s' ∧ o = .jump ∨ body.Ends s (.value false) s' ∧ o = .value () ∨
      ∃ s₁, body.Ends s (.value true) s₁ ∧ (loop body).Ends s₁ o s' := by
  constructor
  · intro h
    have hboth := h.loop_rec (motive := fun s o s' => (loop body).Ends s o s' ∧
      (body.Ends s .jump s' ∧ o = .jump ∨ body.Ends s (.value false) s' ∧ o = .value () ∨
        ∃ s₁, body.Ends s (.value true) s₁ ∧ (loop body).Ends s₁ o s'))
      (fun _ _ hjump => ⟨hjump.loop_jump, .inl ⟨hjump, rfl⟩⟩)
      (fun _ _ hdone => ⟨hdone.loop_done, .inr (.inl ⟨hdone, rfl⟩)⟩)
      (fun _ s₁ _ _ hagain ih => ⟨hagain.loop_again ih.1, .inr (.inr ⟨s₁, hagain, ih.1⟩)⟩)
    exact hboth.2
  · rintro (⟨hjump, rfl⟩ | ⟨hdone, rfl⟩ | ⟨s₁, hagain, hloop⟩)
    · exact hjump.loop_jump
    · exact hdone.loop_done
    · exact hagain.loop_again hloop

lemma Diverges.loop (h : body.Diverges s) : (Program.loop body).Diverges s := by
  refine diverges_iff.2 fun o s' hends => ?_
  rcases ends_loop_iff.1 hends with ⟨hbody, -⟩ | ⟨hbody, -⟩ | ⟨s₁, hbody, -⟩ <;>
    exact h.not_ends hbody

lemma Ends.loop_diverges (h : body.Ends s (.value true) s₁) (hloop : (loop body).Diverges s₁) :
    (loop body).Diverges s := by
  refine diverges_iff.2 fun o s' hends => ?_
  rcases ends_loop_iff.1 hends with ⟨hbody, -⟩ | ⟨hbody, -⟩ | ⟨s₂, hbody, hrest⟩
  · cases (h.unique hbody).1
  · cases (h.unique hbody).1
  · obtain ⟨-, rfl⟩ := h.unique hbody
    exact hloop.not_ends hrest

lemma Rounds.diverges (h : Rounds body s s₁) (hloop : (loop body).Diverges s₁) :
    (loop body).Diverges s := by
  induction h using Relation.ReflTransGen.head_induction_on with
  | refl => exact hloop
  | head hround _ ih => exact hround.loop_diverges ih

end Loop

/-! ### Simulation -/

/-- Where `q` ends, `p` ends in the same way, and the states are related again. -/
def Simulates (R : σ → τ → Prop) (p : Program σ α) (q : Program τ α) : Prop :=
  ∀ s t, R s t → ∀ o t', q.Ends t o t' → ∃ s', p.Ends s o s' ∧ R s' t'

section Simulation

variable {R : σ → τ → Prop}

lemma simulates_act {f : σ → α × σ} {g : τ → α × τ}
    (h : ∀ s t, R s t → (f s).1 = (g t).1 ∧ R (f s).2 (g t).2) :
    Simulates R (act f) (act g) := by
  rintro s t hst o t' ⟨n, hn⟩
  cases hn
  obtain ⟨hvalue, hstate⟩ := h s t hst
  exact ⟨(f s).2, by rw [← hvalue]; exact ends_act f s, hstate⟩

lemma simulates_read {f : σ → α} {g : τ → α} (h : ∀ s t, R s t → f s = g t) :
    Simulates R (read f) (read g) :=
  simulates_act fun s t hst => ⟨h s t hst, hst⟩

lemma simulates_pure (x : α) : Simulates R (pure x) (pure x) :=
  simulates_act fun _ _ hst => ⟨rfl, hst⟩

lemma simulates_jump {f : σ → σ} {g : τ → τ} (h : ∀ s t, R s t → R (f s) (g t)) :
    Simulates R (jump f : Program σ α) (jump g) := by
  rintro s t hst o t' ⟨n, hn⟩
  cases hn
  exact ⟨f s, ends_jump f s, h s t hst⟩

lemma Simulates.bind {p : Program σ α} {q : Program τ α} {f : α → Program σ β}
    {g : α → Program τ β} (hp : Simulates R p q) (hf : ∀ x, Simulates R (f x) (g x)) :
    Simulates R (p >>= f) (q >>= g) := by
  intro s t hst o t' h
  rcases ends_bind_iff.1 h with ⟨hjump, rfl⟩ | ⟨x, t₁, hq, hg⟩
  · obtain ⟨s', hs', hR⟩ := hp s t hst _ _ hjump
    exact ⟨s', hs'.bind_jump, hR⟩
  · obtain ⟨s₁, hs₁, hR₁⟩ := hp s t hst _ _ hq
    obtain ⟨s', hs', hR⟩ := hf x s₁ t₁ hR₁ _ _ hg
    exact ⟨s', hs₁.bind hs', hR⟩

lemma Simulates.ite {c : Prop} [Decidable c] {p p' : Program σ α} {q q' : Program τ α}
    (h : Simulates R p q) (h' : Simulates R p' q') :
    Simulates R (if c then p else p') (if c then q else q') := by
  split_ifs
  · exact h
  · exact h'

/-- **Loops simulate each other** if their bodies do. -/
theorem Simulates.loop {p : Program σ Bool} {q : Program τ Bool} (h : Simulates R p q) :
    Simulates R (loop p) (loop q) := by
  intro s t hst o t' hq
  refine hq.loop_rec (motive := fun t o t' =>
    ∀ s, R s t → ∃ s', (Program.loop p).Ends s o s' ∧ R s' t') ?_ ?_ ?_ s hst
  · intro t t' hjump s hst
    obtain ⟨s', hs', hR⟩ := h s t hst _ _ hjump
    exact ⟨s', hs'.loop_jump, hR⟩
  · intro t t' hdone s hst
    obtain ⟨s', hs', hR⟩ := h s t hst _ _ hdone
    exact ⟨s', hs'.loop_done, hR⟩
  · intro t t₁ o t' hagain ih s hst
    obtain ⟨s₁, hs₁, hR₁⟩ := h s t hst _ _ hagain
    obtain ⟨s', hs', hR⟩ := ih s₁ hR₁
    exact ⟨s', hs₁.loop_again hs', hR⟩

lemma Simulates.rounds {p : Program σ Bool} {q : Program τ Bool} (h : Simulates R p q) {s : σ}
    {t t' : τ} (hst : R s t) (hq : Rounds q t t') : ∃ s', Rounds p s s' ∧ R s' t' := by
  induction hq with
  | refl => exact ⟨s, .refl, hst⟩
  | tail _ hround ih =>
    obtain ⟨s₁, hs₁, hR₁⟩ := ih
    obtain ⟨s', hs', hR⟩ := h _ _ hR₁ _ _ hround
    exact ⟨s', hs₁.tail hs', hR⟩

end Simulation

/-! ### Termination -/

/-- The program ends, and a measure of the state does not grow. -/
def Total (μ : σ → ℕ) (p : Program σ α) : Prop := ∀ s, ∃ o s', p.Ends s o s' ∧ μ s' ≤ μ s

/-- The program ends, and the measure decreases unless there is a jump. -/
def Consumes (μ : σ → ℕ) (p : Program σ α) : Prop :=
  ∀ s, ∃ o s', p.Ends s o s' ∧ μ s' ≤ μ s ∧ (o ≠ .jump → μ s' < μ s)

section Termination

variable {μ : σ → ℕ}

lemma Consumes.total {p : Program σ α} (h : Consumes μ p) : Total μ p := by
  intro s
  obtain ⟨o, s', hends, hle, -⟩ := h s
  exact ⟨o, s', hends, hle⟩

lemma total_act {f : σ → α × σ} (h : ∀ s, μ (f s).2 ≤ μ s) : Total μ (act f) :=
  fun s => ⟨_, _, ends_act f s, h s⟩

lemma total_pure (x : α) : Total μ (pure x : Program σ α) := total_act fun _ => le_rfl

lemma total_read (g : σ → α) : Total μ (read g) := total_act fun _ => le_rfl

lemma total_jump {f : σ → σ} (h : ∀ s, μ (f s) ≤ μ s) : Total μ (jump f : Program σ α) :=
  fun s => ⟨_, _, ends_jump f s, h s⟩

lemma Total.ite {c : Prop} [Decidable c] {p q : Program σ α} (hp : Total μ p) (hq : Total μ q) :
    Total μ (if c then p else q) := by
  split_ifs
  · exact hp
  · exact hq

lemma Total.bind {p : Program σ α} {f : α → Program σ β} (hp : Total μ p)
    (hf : ∀ x, Total μ (f x)) : Total μ (p >>= f) := by
  intro s
  obtain ⟨x | _, s₁, hs₁, hle⟩ := hp s
  · obtain ⟨o, s', hs', hle'⟩ := hf x s₁
    exact ⟨o, s', hs₁.bind hs', hle'.trans hle⟩
  · exact ⟨.jump, s₁, hs₁.bind_jump, hle⟩

lemma Consumes.bind {p : Program σ α} {f : α → Program σ β} (hp : Consumes μ p)
    (hf : ∀ x, Total μ (f x)) : Consumes μ (p >>= f) := by
  intro s
  obtain ⟨x | _, s₁, hs₁, hle, hlt⟩ := hp s
  · obtain ⟨o, s', hs', hle'⟩ := hf x s₁
    have hless : μ s₁ < μ s := hlt (by rintro ⟨⟩)
    exact ⟨o, s', hs₁.bind hs', hle'.trans hle, fun _ => by omega⟩
  · exact ⟨.jump, s₁, hs₁.bind_jump, hle, fun hne => absurd rfl hne⟩

/-- **A loop ends** if every round of it consumes something. -/
theorem Consumes.loop {body : Program σ Bool} (h : Consumes μ body) :
    Consumes μ (Program.loop body) := by
  intro s
  induction hμ : μ s using Nat.strong_induction_on generalizing s with
  | _ k ih =>
    obtain ⟨(_ | _) | _, s₁, hbody, hle, hlt⟩ := h s
    · have hless : μ s₁ < μ s := hlt (by rintro ⟨⟩)
      exact ⟨_, s₁, hbody.loop_done, by omega, fun _ => by omega⟩
    · have hless : μ s₁ < μ s := hlt (by rintro ⟨⟩)
      obtain ⟨o, s', hloop, hle', hlt'⟩ := ih (μ s₁) (by omega) s₁ rfl
      exact ⟨o, s', hbody.loop_again hloop, by omega, fun _ => by omega⟩
    · exact ⟨.jump, s₁, hbody.loop_jump, by omega, fun hne => absurd rfl hne⟩

end Termination

end Program

end TradingEngine.Lib
