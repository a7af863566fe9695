/-
Actors that exchange messages.

Every actor has an address on a host and one mailbox.  A message within a host goes straight
into the mailbox; a message to another host is on the wire first.  The wire keeps the order
of the messages of one pair of actors, and no other order.  `ActorSystem.channel` is the
resulting fact: on every run, what one actor has sent to another is what the other has
received from it, followed by what is under way.
-/
import TradingEngine.Lib.Machine

namespace TradingEngine.Lib

/-! ### Messages under way -/

/-- A message with its sender and its receiver. -/
structure Envelope (A M : Type*) where
  src : A
  dst : A
  msg : M
  deriving DecidableEq

section Between

variable {A M : Type*} [DecidableEq A]

/-- The messages of a list that go from `s` to `d`. -/
def between (s d : A) (es : List (Envelope A M)) : List (Envelope A M) :=
  es.filter fun e => e.src = s ∧ e.dst = d

variable {s d : A} {e : Envelope A M} {es es' : List (Envelope A M)}

@[simp] lemma between_nil : between s d ([] : List (Envelope A M)) = [] := rfl

@[simp] lemma between_append : between s d (es ++ es') = between s d es ++ between s d es' :=
  List.filter_append ..

lemma between_cons_pos (h : e.src = s ∧ e.dst = d) :
    between s d (e :: es) = e :: between s d es := by
  simp [between, h]

lemma between_cons_neg (h : ¬ (e.src = s ∧ e.dst = d)) :
    between s d (e :: es) = between s d es :=
  List.filter_cons_of_neg (by simpa using h)

lemma mem_between : e ∈ between s d es ↔ e ∈ es ∧ e.src = s ∧ e.dst = d := by
  simp [between]

lemma between_eq_nil (h : ∀ e ∈ es, ¬ (e.src = s ∧ e.dst = d)) : between s d es = [] :=
  List.filter_eq_nil_iff.2 fun e he hp => h e he (of_decide_eq_true hp)

end Between

/-- The messages under way: on the wire, and in the mailboxes in order of arrival.  Between
near addresses nothing is on the wire. -/
structure Net (A M : Type*) (near : A → A → Bool) where
  wire : List (Envelope A M)
  mail : List (Envelope A M)
  far : ∀ e ∈ wire, near e.src e.dst = false

namespace Net

variable {A M : Type*} {near : A → A → Bool}

/-- No message is under way. -/
def empty : Net A M near := ⟨[], [], by simp⟩

/-- A message is sent. -/
def send (n : Net A M near) (e : Envelope A M) : Net A M near :=
  if h : near e.src e.dst = true then { n with mail := n.mail ++ [e] }
  else
    { n with
      wire := n.wire ++ [e]
      far := by
        intro e' he'
        rcases List.mem_append.1 he' with he' | he'
        · exact n.far e' he'
        · rw [List.mem_singleton.1 he']
          exact Bool.not_eq_true _ ▸ h }

/-- Messages are sent, one after the other. -/
def sendAll (n : Net A M near) (es : List (Envelope A M)) : Net A M near :=
  es.foldl send n

/-- All messages under way, those in the mailboxes first. -/
def all (n : Net A M near) : List (Envelope A M) := n.mail ++ n.wire

@[simp] lemma all_empty : (empty : Net A M near).all = [] := rfl

variable [DecidableEq A]

/-- The first message from `s` to `d` on the wire arrives. -/
def arrive (n : Net A M near) (s d : A) : Option (Net A M near) :=
  (n.wire.find? fun e => e.src = s ∧ e.dst = d).map fun e =>
    { wire := n.wire.eraseP fun e => e.src = s ∧ e.dst = d
      mail := n.mail ++ [e]
      far := fun e' he' => n.far e' (List.mem_of_mem_eraseP he') }

/-- The first message in the mailbox of `d` is taken out. -/
def take (n : Net A M near) (d : A) : Option (Envelope A M × Net A M near) :=
  (n.mail.find? fun e => e.dst = d).map fun e =>
    (e, { n with mail := n.mail.eraseP fun e => e.dst = d })

/-- What is under way from `s` to `d`, in the order in which it will be taken. -/
def pending (n : Net A M near) (s d : A) : List (Envelope A M) := between s d n.all

@[simp] lemma pending_empty (s d : A) : (empty : Net A M near).pending s d = [] := rfl

/-- The first element with a property, and the list without it. -/
lemma split_of_find {α : Type*} {p : α → Bool} {l : List α} {a : α} (h : l.find? p = some a) :
    ∃ l₁ l₂, l = l₁ ++ a :: l₂ ∧ l.eraseP p = l₁ ++ l₂ ∧ p a = true ∧
      ∀ b ∈ l₁, p b = false := by
  obtain ⟨ha, l₁, l₂, rfl, hl₁⟩ := List.find?_eq_some_iff_append.1 h
  have hl₁' : ∀ b ∈ l₁, ¬ p b = true := by simpa using hl₁
  refine ⟨l₁, l₂, rfl, ?_, ha, by simpa using hl₁⟩
  rw [List.eraseP_append_right _ hl₁', List.eraseP_cons_of_pos ha]

lemma arrive_spec {n n' : Net A M near} {s d : A} (h : n.arrive s d = some n') :
    ∃ e w₁ w₂, e.src = s ∧ e.dst = d ∧ n.wire = w₁ ++ e :: w₂ ∧ n'.wire = w₁ ++ w₂ ∧
      n'.mail = n.mail ++ [e] ∧ ∀ e' ∈ w₁, ¬ (e'.src = s ∧ e'.dst = d) := by
  obtain ⟨e, he, rfl⟩ := Option.map_eq_some_iff.1 h
  obtain ⟨w₁, w₂, hw, herase, hp, hw₁⟩ := split_of_find he
  obtain ⟨hs, hd⟩ := of_decide_eq_true hp
  exact ⟨e, w₁, w₂, hs, hd, hw, herase, rfl, fun e' he' => of_decide_eq_false (hw₁ e' he')⟩

lemma take_spec {n n' : Net A M near} {d : A} {e : Envelope A M}
    (h : n.take d = some (e, n')) : e.dst = d ∧ n'.wire = n.wire ∧
      ∃ m₁ m₂, n.mail = m₁ ++ e :: m₂ ∧ n'.mail = m₁ ++ m₂ ∧ ∀ e' ∈ m₁, e'.dst ≠ d := by
  obtain ⟨e', he, heq⟩ := Option.map_eq_some_iff.1 h
  obtain ⟨rfl, rfl⟩ := Prod.mk.inj heq
  obtain ⟨m₁, m₂, hm, herase, hp, hm₁⟩ := split_of_find he
  exact ⟨of_decide_eq_true hp, rfl, m₁, m₂, hm, herase,
    fun e' he' => of_decide_eq_false (hm₁ e' he')⟩

/-! ### All messages -/

omit [DecidableEq A] in
lemma send_all_perm (n : Net A M near) (e : Envelope A M) : (n.send e).all.Perm (e :: n.all) := by
  unfold send all
  split_ifs
  · rw [List.append_assoc]
    exact List.perm_middle
  · rw [← List.append_assoc]
    exact List.perm_append_singleton e _

omit [DecidableEq A] in
lemma sendAll_all_perm (n : Net A M near) (es : List (Envelope A M)) :
    (n.sendAll es).all.Perm (es ++ n.all) := by
  induction es generalizing n with
  | nil => exact .refl _
  | cons e es ih => exact (ih (n.send e)).trans (((n.send_all_perm e).append_left es).trans
      List.perm_middle)

lemma arrive_all_perm {n n' : Net A M near} {s d : A} (h : n.arrive s d = some n') :
    n'.all.Perm n.all := by
  obtain ⟨e, w₁, w₂, -, -, hw, hw', hm', -⟩ := arrive_spec h
  unfold all
  rw [hw, hw', hm', List.append_assoc]
  exact (@List.perm_middle _ e w₁ w₂).symm.append_left n.mail

lemma take_all_perm {n n' : Net A M near} {d : A} {e : Envelope A M}
    (h : n.take d = some (e, n')) : n.all.Perm (e :: n'.all) := by
  obtain ⟨-, hw, m₁, m₂, hm, hm', -⟩ := take_spec h
  unfold all
  rw [hw, hm, hm', List.append_assoc, List.append_assoc]
  exact List.perm_middle

/-! ### The messages of one pair -/

lemma pending_send (n : Net A M near) (e : Envelope A M) (s d : A) :
    (n.send e).pending s d = n.pending s d ++ between s d [e] := by
  unfold send pending all
  split_ifs with hnear
  · by_cases h : e.src = s ∧ e.dst = d
    · -- nothing from `s` to `d` is on the wire
      have hwire : between s d n.wire = [] := by
        refine between_eq_nil fun e' he' hp => ?_
        have hfar := n.far e' he'
        rw [hp.1, hp.2, ← h.1, ← h.2, hnear] at hfar
        exact Bool.noConfusion hfar
      simp [hwire, between_cons_pos h]
    · simp [between_cons_neg h]
  · simp

lemma pending_sendAll (n : Net A M near) (es : List (Envelope A M)) (s d : A) :
    (n.sendAll es).pending s d = n.pending s d ++ between s d es := by
  induction es generalizing n with
  | nil => simp [sendAll]
  | cons e es ih =>
    calc
      (n.sendAll (e :: es)).pending s d = ((n.send e).sendAll es).pending s d := rfl
      _ = n.pending s d ++ between s d ([e] ++ es) := by
        rw [ih, pending_send, between_append, List.append_assoc]

lemma pending_arrive {n n' : Net A M near} {a b : A} (h : n.arrive a b = some n') (s d : A) :
    n'.pending s d = n.pending s d := by
  obtain ⟨e, w₁, w₂, ha, hb, hw, hw', hm', hw₁⟩ := arrive_spec h
  unfold pending all
  rw [hw, hw', hm']
  by_cases hp : e.src = s ∧ e.dst = d
  · -- this is the pair of the message, and `w₁` holds none of this pair
    have hnone : between s d w₁ = [] := by
      refine between_eq_nil fun e' he' hp' => hw₁ e' he' ?_
      rw [← ha, ← hb, hp.1, hp.2]
      exact hp'
    simp [hnone, between_cons_pos hp]
  · simp [between_cons_neg hp]

lemma pending_take {n n' : Net A M near} {b : A} {e : Envelope A M}
    (h : n.take b = some (e, n')) (s d : A) :
    n.pending s d = between s d [e] ++ n'.pending s d := by
  obtain ⟨hb, hw, m₁, m₂, hm, hm', hm₁⟩ := take_spec h
  unfold pending all
  rw [hw, hm, hm']
  by_cases hp : e.src = s ∧ e.dst = d
  · -- `m₁` holds nothing for this receiver
    have hnone : between s d m₁ = [] := by
      refine between_eq_nil fun e' he' hp' => hm₁ e' he' ?_
      rw [← hb, hp.2]
      exact hp'.2
    simp [hnone, between_cons_pos hp]
  · simp [between_cons_neg hp]

omit [DecidableEq A] in
/-- Messages between near addresses all go into the mailboxes. -/
lemma sendAll_of_near (n : Net A M near) {es : List (Envelope A M)}
    (h : ∀ e ∈ es, near e.src e.dst = true) :
    (n.sendAll es).mail = n.mail ++ es ∧ (n.sendAll es).wire = n.wire := by
  induction es generalizing n with
  | nil => simp [sendAll]
  | cons e es ih =>
    have hsend : n.send e = { n with mail := n.mail ++ [e] } :=
      dif_pos (h e List.mem_cons_self)
    obtain ⟨hmail, hwire⟩ := ih (n.send e) fun e' he' => h e' (List.mem_cons_of_mem _ he')
    constructor
    · calc
        ((n.send e).sendAll es).mail = (n.send e).mail ++ es := hmail
        _ = n.mail ++ e :: es := by rw [hsend, List.append_assoc, List.singleton_append]
    · calc
        ((n.send e).sendAll es).wire = (n.send e).wire := hwire
        _ = n.wire := by rw [hsend]

end Net

section Taken

variable {A M : Type*}

/-- The first message of its receiver is taken from a list of messages. -/
def Taken (e : Envelope A M) (mail rest : List (Envelope A M)) : Prop :=
  ∃ m₁ m₂, mail = m₁ ++ e :: m₂ ∧ rest = m₁ ++ m₂ ∧ ∀ e' ∈ m₁, e'.dst ≠ e.dst

variable {e e' : Envelope A M} {mail rest : List (Envelope A M)}

lemma Taken.perm (h : Taken e mail rest) : mail.Perm (e :: rest) := by
  obtain ⟨m₁, m₂, rfl, rfl, -⟩ := h
  exact List.perm_middle

lemma Taken.mem (h : Taken e mail rest) : e ∈ mail := h.perm.mem_iff.2 List.mem_cons_self

lemma Taken.mem_of_mem (h : Taken e mail rest) (he' : e' ∈ rest) : e' ∈ mail :=
  h.perm.mem_iff.2 (List.mem_cons_of_mem _ he')

lemma Taken.mem_rest (h : Taken e mail rest) (he' : e' ∈ mail) (hne : e' ≠ e) : e' ∈ rest :=
  (List.mem_cons.1 (h.perm.mem_iff.1 he')).resolve_left hne

lemma Taken.find? [DecidableEq A] (h : Taken e mail rest) :
    (mail.find? fun e' => e'.dst = e.dst) = some e := by
  obtain ⟨m₁, m₂, rfl, -, hm₁⟩ := h
  refine List.find?_eq_some_iff_append.2 ⟨by simp, m₁, m₂, rfl, fun e' he' => ?_⟩
  simpa using hm₁ e' he'

/-- The first message of all is the first one of its receiver. -/
lemma Taken.of_cons (h : Taken e (e' :: mail) rest) (hdst : e.dst = e'.dst) :
    e = e' ∧ rest = mail := by
  obtain ⟨m₁, m₂, heq, rfl, hm₁⟩ := h
  cases m₁ with
  | nil =>
    obtain ⟨rfl, rfl⟩ := List.cons.inj heq
    exact ⟨rfl, rfl⟩
  | cons x m₁ =>
    obtain ⟨rfl, -⟩ := List.cons.inj heq
    exact absurd hdst.symm (hm₁ _ List.mem_cons_self)

lemma Net.taken_of_take [DecidableEq A] {near : A → A → Bool} {n n' : Net A M near} {d : A}
    (h : n.take d = some (e, n')) : Taken e n.mail n'.mail := by
  obtain ⟨hdst, -, m₁, m₂, hm, hm', hm₁⟩ := Net.take_spec h
  exact ⟨m₁, m₂, hm, hm', fun e' he' => by rw [hdst]; exact hm₁ e' he'⟩

/-- In the list every message with the property `q` comes after one with the property `p`. -/
def Preceded {α : Type*} (p q : α → Prop) : List α → Prop
  | [] => True
  | x :: l => p x ∨ ¬ q x ∧ Preceded p q l

variable {α : Type*} {p q : α → Prop} {l l' : List α}

lemma preceded_of_forall (h : ∀ x ∈ l, ¬ q x) : Preceded p q l := by
  induction l with
  | nil => trivial
  | cons x l ih => exact Or.inr ⟨h x List.mem_cons_self,
      ih fun y hy => h y (List.mem_cons_of_mem _ hy)⟩

/-- What is appended after a message with the property `p` comes after it. -/
lemma Preceded.append (h : Preceded p q l) (hp : ∃ x ∈ l, p x) : Preceded p q (l ++ l') := by
  induction l with
  | nil =>
    obtain ⟨x, hx, -⟩ := hp
    simp at hx
  | cons y l ih =>
    rcases h with hy | ⟨hy, h⟩
    · exact Or.inl hy
    · obtain ⟨x, hx, hpx⟩ := hp
      rcases List.mem_cons.1 hx with rfl | hx
      · exact Or.inl hpx
      · exact Or.inr ⟨hy, ih h ⟨x, hx, hpx⟩⟩

lemma Preceded.remove {l₁ l₂ : List α} {a : α} (h : Preceded p q (l₁ ++ a :: l₂)) (ha : ¬ p a) :
    Preceded p q (l₁ ++ l₂) := by
  induction l₁ with
  | nil => exact (h.resolve_left ha).2
  | cons y l₁ ih =>
    rcases h with hy | ⟨hy, h⟩
    · exact Or.inl hy
    · exact Or.inr ⟨hy, ih h⟩

lemma Preceded.exists_mem {l₁ l₂ : List α} {a : α} (h : Preceded p q (l₁ ++ a :: l₂))
    (hq : q a) (ha : ¬ p a) : ∃ x ∈ l₁, p x := by
  induction l₁ with
  | nil => exact absurd hq (h.resolve_left ha).1
  | cons y l₁ ih =>
    rcases h with hy | ⟨-, h⟩
    · exact ⟨y, List.mem_cons_self, hy⟩
    · obtain ⟨x, hx, hpx⟩ := ih h
      exact ⟨x, List.mem_cons_of_mem _ hx, hpx⟩

end Taken

/-! ### Systems of actors -/

/-- What the hosts and their actors do.  `A` are the addresses, `H` the hosts, `M` the
messages, `N` the states of a host, `X` what the threads of a host may do on their own, and
`Y` what a handler may depend on besides the message. -/
structure ActorSystem (A H M N X Y : Type*) where
  host : A → H
  init : H → N
  /-- A thread of a host takes a step; it may look at other hosts. -/
  act : (H → N) → H → X → Option (N × List (Envelope A M))
  /-- The actor that a message is for handles it. -/
  react : N → Y → Envelope A M → N × List (Envelope A M)

namespace ActorSystem

variable {A H M N X Y : Type*} [DecidableEq H]

/-- Addresses of one host are near. -/
def near (S : ActorSystem A H M N X Y) (a b : A) : Bool := S.host a = S.host b

/-- The nodes and the messages on the way. -/
structure State (S : ActorSystem A H M N X Y) where
  nodes : H → N
  net : Net A M S.near

/-- A thread of a node acts, an actor handles a message, or one comes in from another node. -/
inductive Event (A H X Y : Type*)
  | act (h : H) (x : X)
  | handle (a : A) (y : Y)
  | arrive (s d : A)
  deriving DecidableEq

variable (S : ActorSystem A H M N X Y)

/-- The nodes as they are in the beginning, and no messages. -/
def start : S.State := ⟨S.init, Net.empty⟩

variable {S}

/-- The state of a host changes and messages are sent. -/
def State.put (s : S.State) (h : H) (node : N) (net : Net A M S.near)
    (out : List (Envelope A M)) : S.State :=
  ⟨fun h' => if h' = h then node else s.nodes h', net.sendAll out⟩

@[simp] lemma put_net (s : S.State) (h : H) (node : N) (net : Net A M S.near)
    (out : List (Envelope A M)) : (s.put h node net out).net = net.sendAll out := rfl

@[simp] lemma put_nodes_self (s : S.State) (h : H) (node : N) (net : Net A M S.near)
    (out : List (Envelope A M)) : (s.put h node net out).nodes h = node := if_pos rfl

lemma put_nodes_ne (s : S.State) {h h' : H} (node : N) (net : Net A M S.near)
    (out : List (Envelope A M)) (hne : h' ≠ h) :
    (s.put h node net out).nodes h' = s.nodes h' := if_neg hne

/-- Nothing changes when nothing is put. -/
lemma put_same (s : S.State) (h : H) : s.put h (s.nodes h) s.net [] = s := by
  have hnodes : (fun h' => if h' = h then s.nodes h else s.nodes h') = s.nodes := by
    funext h'
    split_ifs with heq
    · rw [heq]
    · rfl
  rw [State.put, hnodes]
  rfl

variable (S) [DecidableEq A]

/-- A step of a thread, of an actor or of the net, where it is possible. -/
def step (s : S.State) : Event A H X Y → Option S.State
  | .act h x => (S.act s.nodes h x).map fun r => s.put h r.1 s.net r.2
  | .handle a y => (s.net.take a).map fun (e, net) =>
      let r := S.react (s.nodes (S.host a)) y e
      s.put (S.host a) r.1 net r.2
  | .arrive src dst => (s.net.arrive src dst).map fun net => { s with net := net }

/-- The machine that an actor system is. -/
def machine : Machine S.State (Event A H X Y) := ⟨S.start, S.step⟩

/-- The messages that an event sends. -/
def sent (s : S.State) : Event A H X Y → List (Envelope A M)
  | .act h x => ((S.act s.nodes h x).map Prod.snd).getD []
  | .handle a y => ((s.net.take a).map fun (e, _) =>
      (S.react (s.nodes (S.host a)) y e).2).getD []
  | .arrive _ _ => []

/-- The message that an event handles. -/
def received (s : S.State) : Event A H X Y → List (Envelope A M)
  | .act _ _ => []
  | .handle a _ => ((s.net.take a).map Prod.fst).toList
  | .arrive _ _ => []

variable {S}

/-- **What a step does**, in three cases. -/
theorem step_cases {s s' : S.State} {e : Event A H X Y} (h : S.step s e = some s') :
    (∃ host x node out, e = .act host x ∧ S.act s.nodes host x = some (node, out) ∧
      s' = s.put host node s.net out) ∨
    (∃ a y env net, e = .handle a y ∧ s.net.take a = some (env, net) ∧ env.dst = a ∧
      s' = s.put (S.host a) (S.react (s.nodes (S.host a)) y env).1 net
        (S.react (s.nodes (S.host a)) y env).2) ∨
    ∃ src dst net, e = .arrive src dst ∧ s.net.arrive src dst = some net ∧
      s' = { s with net := net } := by
  cases e with
  | act host x =>
    obtain ⟨⟨node, out⟩, hact, rfl⟩ := Option.map_eq_some_iff.1 h
    exact Or.inl ⟨host, x, node, out, rfl, hact, rfl⟩
  | handle a y =>
    obtain ⟨⟨env, net⟩, htake, rfl⟩ := Option.map_eq_some_iff.1 h
    exact Or.inr (Or.inl ⟨a, y, env, net, rfl, htake, (Net.take_spec htake).1, rfl⟩)
  | arrive src dst =>
    obtain ⟨net, harrive, rfl⟩ := Option.map_eq_some_iff.1 h
    exact Or.inr (Or.inr ⟨src, dst, net, rfl, harrive, rfl⟩)

/-- **The rule of local invariants.**  `Q` speaks of the state of a host and `P` of a
message under way; every thread and every handler keeps both. -/
theorem local_invariant {P : Envelope A M → Prop} {Q : H → N → Prop}
    {G : S.State → Event A H X Y → Prop} (hinit : ∀ h, Q h (S.init h))
    (hact : ∀ s h x node out, G s (.act h x) → (∀ h', Q h' (s.nodes h')) →
      S.act s.nodes h x = some (node, out) → Q h node ∧ ∀ e ∈ out, P e)
    (hreact : ∀ node y e, P e → Q (S.host e.dst) node →
      Q (S.host e.dst) (S.react node y e).1 ∧ ∀ e' ∈ (S.react node y e).2, P e')
    {es : List (Event A H X Y)} {s : S.State} (h : S.machine.Run G es s) :
    (∀ h, Q h (s.nodes h)) ∧ ∀ e ∈ s.net.all, P e := by
  refine h.invariant (P := fun _ s => (∀ h, Q h (s.nodes h)) ∧ ∀ e ∈ s.net.all, P e)
    ⟨hinit, by simp [machine, start]⟩ ?_
  rintro es s e s' - ⟨hQ, hP⟩ hG hstep
  have hput : ∀ {host node net out}, Q host node → (∀ e ∈ net.all, P e) →
      (∀ e ∈ out, P e) → (∀ h, Q h ((s.put host node net out).nodes h)) ∧
        ∀ e ∈ (s.put host node net out).net.all, P e := by
    intro host node net out hnode hnet hout
    refine ⟨fun h => ?_, fun e he => ?_⟩
    · rcases eq_or_ne h host with rfl | hne
      · rw [put_nodes_self]
        exact hnode
      · rw [put_nodes_ne _ _ _ _ hne]
        exact hQ h
    · rcases List.mem_append.1 ((net.sendAll_all_perm out).mem_iff.1 he) with he | he
      · exact hout e he
      · exact hnet e he
  rcases step_cases hstep with ⟨host, x, node, out, rfl, hx, rfl⟩ |
    ⟨a, y, env, net, rfl, htake, rfl, rfl⟩ | ⟨src, dst, net, rfl, harrive, rfl⟩
  · obtain ⟨hnode, hout⟩ := hact s host x node out hG hQ hx
    exact hput hnode hP hout
  · have hall := Net.take_all_perm htake
    have henv : P env := hP env (hall.mem_iff.2 List.mem_cons_self)
    obtain ⟨hnode, hout⟩ := hreact _ y env henv (hQ _)
    exact hput hnode (fun e he => hP e (hall.mem_iff.2 (List.mem_cons_of_mem _ he))) hout
  · exact ⟨hQ, fun e he => hP e ((Net.arrive_all_perm harrive).mem_iff.1 he)⟩

lemma mem_all_of_received {s : S.State} {e : Event A H X Y} {env : Envelope A M}
    (h : env ∈ S.received s e) : env ∈ s.net.all := by
  cases e with
  | handle a y =>
    obtain ⟨⟨env', net⟩, htake, rfl⟩ := Option.map_eq_some_iff.1 (Option.mem_toList.1 h)
    exact (Net.take_all_perm htake).mem_iff.2 List.mem_cons_self
  | _ => cases h

/-- What is under way after a step was under way before, or is sent. -/
lemma mem_all_of_step {s s' : S.State} {e : Event A H X Y} (h : S.step s e = some s')
    {env : Envelope A M} (henv : env ∈ s'.net.all) : env ∈ s.net.all ∨ env ∈ S.sent s e := by
  rcases step_cases h with ⟨host, x, node, out, rfl, hx, rfl⟩ |
    ⟨a, y, env', net, rfl, htake, rfl, rfl⟩ | ⟨a, b, net, rfl, harrive, rfl⟩
  · rcases List.mem_append.1 ((s.net.sendAll_all_perm out).mem_iff.1 henv) with henv | henv
    · exact Or.inr (by simpa [sent, hx] using henv)
    · exact Or.inl henv
  · rcases List.mem_append.1 ((net.sendAll_all_perm _).mem_iff.1 henv) with henv | henv
    · exact Or.inr (by simpa [sent, htake] using henv)
    · exact Or.inl ((Net.take_all_perm htake).mem_iff.2 (List.mem_cons_of_mem _ henv))
  · exact Or.inl ((Net.arrive_all_perm harrive).mem_iff.1 henv)

/-- Who sends: a thread, or the handler of a message. -/
lemma sent_cases {s : S.State} {e : Event A H X Y} {env : Envelope A M} (h : env ∈ S.sent s e) :
    (∃ host x node out, e = .act host x ∧ S.act s.nodes host x = some (node, out) ∧ env ∈ out) ∨
    ∃ y env', env' ∈ S.received s e ∧ env ∈ (S.react (s.nodes (S.host env'.dst)) y env').2 := by
  cases e with
  | act host x =>
    rw [sent] at h
    cases hx : S.act s.nodes host x with
    | none => simp [hx] at h
    | some r => exact Or.inl ⟨host, x, r.1, r.2, rfl, hx, by simpa [hx] using h⟩
  | handle a y =>
    rw [sent] at h
    cases htake : s.net.take a with
    | none => simp [htake] at h
    | some r =>
      obtain ⟨env', net⟩ := r
      obtain rfl : env'.dst = a := (Net.take_spec htake).1
      exact Or.inr ⟨y, env', by simp [received, htake], by simpa [htake] using h⟩
  | arrive a b => cases h

/-- How the state of a host changes: by a thread, or by the handler of a message. -/
lemma nodes_of_step {s s' : S.State} {e : Event A H X Y} (h : S.step s e = some s') (host : H) :
    s'.nodes host = s.nodes host ∨
    (∃ x out, e = .act host x ∧ S.act s.nodes host x = some (s'.nodes host, out)) ∨
    ∃ y env, env ∈ S.received s e ∧ S.host env.dst = host ∧
      s'.nodes host = (S.react (s.nodes host) y env).1 := by
  rcases step_cases h with ⟨host', x, node, out, rfl, hx, rfl⟩ |
    ⟨a, y, env, net, rfl, htake, rfl, rfl⟩ | ⟨a, b, net, rfl, harrive, rfl⟩
  · rcases eq_or_ne host host' with rfl | hne
    · rw [put_nodes_self]
      exact Or.inr (Or.inl ⟨x, out, rfl, hx⟩)
    · exact Or.inl (put_nodes_ne _ _ _ _ hne)
  · rcases eq_or_ne host (S.host env.dst) with rfl | hne
    · rw [put_nodes_self]
      exact Or.inr (Or.inr ⟨y, env, by simp [received, htake], rfl, rfl⟩)
    · exact Or.inl (put_nodes_ne _ _ _ _ hne)
  · exact Or.inl rfl

/-- One step keeps the order of the messages of a pair. -/
lemma step_pending {s s' : S.State} {e : Event A H X Y} (h : S.step s e = some s')
    (src dst : A) : s.net.pending src dst ++ between src dst (S.sent s e) =
      between src dst (S.received s e) ++ s'.net.pending src dst := by
  rcases step_cases h with ⟨host, x, node, out, rfl, hx, rfl⟩ |
    ⟨a, y, env, net, rfl, htake, rfl, rfl⟩ | ⟨a, b, net, rfl, harrive, rfl⟩
  · simp [sent, received, hx, Net.pending_sendAll]
  · simp only [sent, received, htake, Option.map_some, Option.getD_some, Option.toList_some,
      put_net, Net.pending_sendAll, Net.pending_take htake src dst]
    rw [List.append_assoc]
  · simp only [sent, received, between_nil, List.append_nil, List.nil_append]
    exact (Net.pending_arrive harrive src dst).symm

/-- **Channels are reliable and in order.**  What `src` has sent to `dst` is what `dst` has
received from `src`, followed by what is under way. -/
theorem channel {G : S.State → Event A H X Y → Prop} {es : List (Event A H X Y)} {s : S.State}
    (h : S.machine.Run G es s) (src dst : A) :
    S.machine.trace (fun s e => between src dst (S.sent s e)) es =
      S.machine.trace (fun s e => between src dst (S.received s e)) es ++
        s.net.pending src dst :=
  h.channel rfl fun _ _ _ _ _ _ hstep => step_pending hstep src dst

/-- The same from a state on: what was under way is received first. -/
theorem channel_from {s₀ : S.State} {G : S.State → Event A H X Y → Prop}
    {es : List (Event A H X Y)} {s : S.State} (h : (S.machine.startAt s₀).Run G es s)
    (src dst : A) : s₀.net.pending src dst ++
        (S.machine.startAt s₀).trace (fun s e => between src dst (S.sent s e)) es =
      (S.machine.startAt s₀).trace (fun s e => between src dst (S.received s e)) es ++
        s.net.pending src dst :=
  h.channel_from fun _ _ _ _ _ _ hstep => step_pending hstep src dst

end ActorSystem

end TradingEngine.Lib
