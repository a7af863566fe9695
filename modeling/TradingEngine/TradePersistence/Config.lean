/-
The address on the command line of the tool (`config.cc`).

The characters of a text are those of a `std::string`, which has one more after the last, the
terminating one; what is read behind that is undefined.  The loop skips two characters at a
colon, wherever that leads.
-/
import Mathlib.Tactic

namespace TradingEngine.TradePersistence

/-- The null character at the end of a string. -/
def terminator : Char := Char.ofNat 0

/-- `address[i]`, where it is defined. -/
def charAt (address : List Char) (i : ℕ) : Option Char := (address ++ [terminator])[i]?

/-- The variables of the loop of `ParseIpAddress`. -/
structure Scan where
  i : ℕ
  ip : List Char
  port : List Char
  deriving DecidableEq

/-- The first half of a round: at a colon the next character goes to the port. -/
def Scan.skip (address : List Char) (s : Scan) : Option Scan := do
  let c ← charAt address s.i
  if c = ':' then
    let d ← charAt address (s.i + 1)
    return { s with i := s.i + 2, port := s.port ++ [d] }
  else return s

/-- The second half of a round, and `i++`. -/
def Scan.append (address : List Char) (s : Scan) : Option Scan := do
  let c ← charAt address s.i
  if s.port = [] then return { s with i := s.i + 1, ip := s.ip ++ [c] }
  else return { s with i := s.i + 1, port := s.port ++ [c] }

/-- A round of the loop. -/
def Scan.round (address : List Char) (s : Scan) : Option Scan :=
  (s.skip address).bind (Scan.append address)

/-- What a round does to the variables, and what it reads. -/
inductive Scan.Rounds (address : List Char) (s : Scan) : Scan → Prop
  | ip {c : Char} (hc : charAt address s.i = some c) (hcolon : c ≠ ':') (hport : s.port = []) :
    Rounds address s { s with i := s.i + 1, ip := s.ip ++ [c] }
  | port {c : Char} (hc : charAt address s.i = some c) (hcolon : c ≠ ':') (hport : s.port ≠ []) :
    Rounds address s { s with i := s.i + 1, port := s.port ++ [c] }
  | colon {d e : Char} (hc : charAt address s.i = some ':')
    (hd : charAt address (s.i + 1) = some d) (he : charAt address (s.i + 2) = some e) :
    Rounds address s { s with i := s.i + 3, port := s.port ++ [d] ++ [e] }

lemma Scan.round_eq_some_iff {address : List Char} {s s' : Scan} :
    s.round address = some s' ↔ s.Rounds address s' := by
  constructor
  · intro h
    obtain ⟨s₁, hskip, happend⟩ := Option.bind_eq_some_iff.1 h
    obtain ⟨c, hc, hskip⟩ := Option.bind_eq_some_iff.1 hskip
    obtain ⟨e, he, happend⟩ := Option.bind_eq_some_iff.1 happend
    by_cases hcolon : c = ':'
    · subst hcolon
      obtain ⟨d, hd, hskip⟩ := Option.bind_eq_some_iff.1 ((if_pos rfl).symm.trans hskip)
      cases hskip
      rw [if_neg (by simp)] at happend
      cases happend
      exact .colon hc hd he
    · cases (if_neg hcolon).symm.trans hskip
      obtain rfl : c = e := Option.some.inj (hc.symm.trans he)
      by_cases hport : s.port = []
      · cases (if_pos hport).symm.trans happend
        exact .ip hc hcolon hport
      · cases (if_neg hport).symm.trans happend
        exact .port hc hcolon hport
  · rintro (⟨hc, hcolon, hport⟩ | ⟨hc, hcolon, hport⟩ | ⟨hc, hd, he⟩)
    · simp [Scan.round, Scan.skip, Scan.append, hc, hcolon, hport]
    · simp [Scan.round, Scan.skip, Scan.append, hc, hcolon, hport]
    · simp [Scan.round, Scan.skip, Scan.append, hc, hd, he]

lemma Scan.lt_of_round {address : List Char} {s s' : Scan} (h : s.round address = some s') :
    s.i < s'.i := by
  cases Scan.round_eq_some_iff.1 h with
  | ip | port => exact Nat.lt_succ_self _
  | colon => exact Nat.lt_add_of_pos_right (by norm_num)

/-- The loop, from the state of a round on; `none` if it reads behind the terminating character. -/
def Scan.loop (address : List Char) (s : Scan) : Option Scan :=
  if s.i < address.length then
    match _h : s.round address with
    | none => none
    | some s' => s'.loop address
  else some s
termination_by address.length - s.i
decreasing_by
  have := Scan.lt_of_round ‹_›
  omega

/-- `ParseIpAddress`. -/
def parseIpAddress (address : String) : Option (List String) :=
  (Scan.loop address.toList ⟨0, [], []⟩).map fun s => [String.ofList s.ip, String.ofList s.port]

/-! ### The rest of the address -/

lemma charAt_append (u cs : List Char) (k : ℕ) :
    charAt (u ++ cs) (u.length + k) = (cs ++ [terminator])[k]? := by
  rw [charAt, List.append_assoc, List.getElem?_append_right (Nat.le_add_right _ _),
    Nat.add_sub_cancel_left]

lemma Scan.loop_of_rounds {address : List Char} {s s' : Scan} (hi : s.i < address.length)
    (h : s.Rounds address s') : s.loop address = s'.loop address := by
  rw [Scan.loop, if_pos hi]
  have hround : s.round address = some s' := Scan.round_eq_some_iff.2 h
  split
  · next hnone => cases hround.symm.trans hnone
  · next s₁ hsome => rw [Option.some.inj (hsome.symm.trans hround)]

section

variable (u cs ip port : List Char)

lemma loop_end {address : List Char} {i : ℕ} (h : address.length ≤ i) :
    Scan.loop address ⟨i, ip, port⟩ = some ⟨i, ip, port⟩ := by
  rw [Scan.loop, if_neg (by simpa using h)]

lemma loop_ip {c : Char} (hcolon : c ≠ ':') : Scan.loop (u ++ c :: cs) ⟨u.length, ip, []⟩ =
    Scan.loop (u ++ c :: cs) ⟨u.length + 1, ip ++ [c], []⟩ :=
  Scan.loop_of_rounds (by simp) (.ip (charAt_append u (c :: cs) 0) hcolon rfl)

lemma loop_port {c : Char} (hcolon : c ≠ ':') (hport : port ≠ []) :
    Scan.loop (u ++ c :: cs) ⟨u.length, ip, port⟩ =
      Scan.loop (u ++ c :: cs) ⟨u.length + 1, ip, port ++ [c]⟩ :=
  Scan.loop_of_rounds (by simp) (.port (charAt_append u (c :: cs) 0) hcolon hport)

lemma loop_colon (d e : Char) : Scan.loop (u ++ ':' :: d :: e :: cs) ⟨u.length, ip, port⟩ =
    Scan.loop (u ++ ':' :: d :: e :: cs) ⟨u.length + 3, ip, port ++ [d] ++ [e]⟩ :=
  Scan.loop_of_rounds (by simp) (.colon (charAt_append u (':' :: d :: e :: cs) 0)
    (charAt_append u (':' :: d :: e :: cs) 1) (charAt_append u (':' :: d :: e :: cs) 2))

/-- One character behind a colon: the terminating character goes to the port as well. -/
lemma loop_colon_last (d : Char) : Scan.loop (u ++ [':', d]) ⟨u.length, ip, port⟩ =
    some ⟨u.length + 3, ip, port ++ [d] ++ [terminator]⟩ := by
  have hrounds : Scan.Rounds (u ++ [':', d]) ⟨u.length, ip, port⟩
      ⟨u.length + 3, ip, port ++ [d] ++ [terminator]⟩ :=
    .colon (charAt_append u [':', d] 0) (charAt_append u [':', d] 1) (charAt_append u [':', d] 2)
  rw [Scan.loop_of_rounds (by simp) hrounds, loop_end _ _ (by simp)]

/-- Nothing behind a colon: what is behind the terminating character is read. -/
lemma loop_colon_end : Scan.loop (u ++ [':']) ⟨u.length, ip, port⟩ = none := by
  rw [Scan.loop, if_pos (by simp)]
  split
  · rfl
  · next s' hround =>
    have hcolon : charAt (u ++ [':']) u.length = some ':' := charAt_append u [':'] 0
    cases Scan.round_eq_some_iff.1 hround with
    | ip hc hne | port hc hne => exact absurd (Option.some.inj (hc.symm.trans hcolon)) hne
    | colon _ _ he => cases (charAt_append u [':'] 2).symm.trans he

end

/-- A text that rounds of the loop go through, each colon with the two characters behind it. -/
inductive Passed : List Char → Prop
  | nil : Passed []
  | char {c : Char} {cs : List Char} (hcolon : c ≠ ':') (h : Passed cs) : Passed (c :: cs)
  | colon {d e : Char} {cs : List Char} (h : Passed cs) : Passed (':' :: d :: e :: cs)

/-- An address is passed, but for a colon and perhaps one character behind it. -/
lemma passed_cases : ∀ cs : List Char, Passed cs ∨ (∃ v, Passed v ∧ cs = v ++ [':']) ∨
    ∃ v d, Passed v ∧ cs = v ++ [':', d]
  | [] => Or.inl .nil
  | c :: cs => by
    by_cases hcolon : c = ':'
    · subst hcolon
      match cs with
      | [] => exact Or.inr (Or.inl ⟨[], .nil, rfl⟩)
      | [d] => exact Or.inr (Or.inr ⟨[], d, .nil, rfl⟩)
      | d :: e :: cs =>
        rcases passed_cases cs with h | ⟨v, h, rfl⟩ | ⟨v, x, h, rfl⟩
        · exact Or.inl h.colon
        · exact Or.inr (Or.inl ⟨_, h.colon, rfl⟩)
        · exact Or.inr (Or.inr ⟨_, x, h.colon, rfl⟩)
    · rcases passed_cases cs with h | ⟨v, h, rfl⟩ | ⟨v, x, h, rfl⟩
      · exact Or.inl (.char hcolon h)
      · exact Or.inr (Or.inl ⟨_, .char hcolon h, rfl⟩)
      · exact Or.inr (Or.inr ⟨_, x, .char hcolon h, rfl⟩)

/-- The loop goes on behind a text that is passed. -/
lemma loop_passed {v : List Char} (h : Passed v) (u cs ip port : List Char) : ∃ ip' port',
    Scan.loop (u ++ (v ++ cs)) ⟨u.length, ip, port⟩ =
      Scan.loop (u ++ (v ++ cs)) ⟨u.length + v.length, ip', port'⟩ := by
  induction h generalizing u ip port with
  | nil => exact ⟨ip, port, rfl⟩
  | @char c v hcolon _ ih =>
    have happend : u ++ (c :: v ++ cs) = u ++ [c] ++ (v ++ cs) := by simp
    have hlength : u.length + (c :: v).length = (u ++ [c]).length + v.length := by
      simp only [List.length_cons, List.length_append, List.length_nil]
      omega
    rw [hlength]
    rcases eq_or_ne port [] with rfl | hport
    · obtain ⟨ip', port', heq⟩ := ih (u ++ [c]) (ip ++ [c]) []
      refine ⟨ip', port', ?_⟩
      rw [← happend] at heq
      rw [← heq]
      simpa using loop_ip u (v ++ cs) ip hcolon
    · obtain ⟨ip', port', heq⟩ := ih (u ++ [c]) ip (port ++ [c])
      refine ⟨ip', port', ?_⟩
      rw [← happend] at heq
      rw [← heq]
      simpa using loop_port u (v ++ cs) ip port hcolon hport
  | @colon d e v _ ih =>
    have happend : u ++ (':' :: d :: e :: v ++ cs) = u ++ [':', d, e] ++ (v ++ cs) := by simp
    have hlength : u.length + (':' :: d :: e :: v).length =
        (u ++ [':', d, e]).length + v.length := by
      simp only [List.length_cons, List.length_append, List.length_nil]
      omega
    obtain ⟨ip', port', heq⟩ := ih (u ++ [':', d, e]) ip (port ++ [d] ++ [e])
    refine ⟨ip', port', ?_⟩
    rw [← happend] at heq
    rw [hlength, ← heq]
    simpa using loop_colon u (v ++ cs) ip port d e

/-! ### What `ParseIpAddress` returns -/

lemma loop_ips {v : List Char} (h : ':' ∉ v) (u cs ip : List Char) :
    Scan.loop (u ++ (v ++ cs)) ⟨u.length, ip, []⟩ =
      Scan.loop (u ++ (v ++ cs)) ⟨(u ++ v).length, ip ++ v, []⟩ := by
  induction v generalizing u ip with
  | nil => simp
  | cons c v ih =>
    rw [List.mem_cons, not_or] at h
    have hstep := loop_ip u (v ++ cs) ip (Ne.symm h.1)
    have hrest := ih h.2 (u ++ [c]) (ip ++ [c])
    simp only [List.append_assoc, List.cons_append, List.nil_append, List.length_append,
      List.length_cons, List.length_nil, zero_add] at hstep hrest ⊢
    exact hstep.trans hrest

lemma loop_ports {v : List Char} (h : ':' ∉ v) (u ip port : List Char) (hport : port ≠ []) :
    Scan.loop (u ++ v) ⟨u.length, ip, port⟩ = some ⟨(u ++ v).length, ip, port ++ v⟩ := by
  induction v generalizing u port with
  | nil =>
    rw [List.append_nil, List.append_nil]
    exact loop_end ip port le_rfl
  | cons c v ih =>
    rw [List.mem_cons, not_or] at h
    have hstep := loop_port u v ip port (Ne.symm h.1) hport
    have hrest := ih h.2 (u ++ [c]) (port ++ [c]) (by simp)
    simp only [List.append_assoc, List.cons_append, List.nil_append, List.length_append,
      List.length_cons, List.length_nil, zero_add] at hstep hrest ⊢
    exact hstep.trans hrest

/-- What the loop makes of an address with the first colon at `u`. -/
lemma loop_address {u : List Char} (hu : ':' ∉ u) (d e : Char) {cs : List Char}
    (hcs : ':' ∉ cs) : ∃ i, Scan.loop (u ++ ':' :: d :: e :: cs) ⟨0, [], []⟩ =
      some ⟨i, u, d :: e :: cs⟩ := by
  have hip := loop_ips hu [] (':' :: d :: e :: cs) []
  have hcolon := loop_colon u cs u [] d e
  have hport := loop_ports hcs (u ++ [':', d, e]) u [d, e] (by simp)
  simp only [List.append_assoc, List.cons_append, List.nil_append, List.length_append,
    List.length_cons, List.length_nil, zero_add] at hip hcolon hport
  exact ⟨_, hip.trans (hcolon.trans hport)⟩

lemma loop_address_last {u : List Char} (hu : ':' ∉ u) (d : Char) :
    ∃ i, Scan.loop (u ++ [':', d]) ⟨0, [], []⟩ = some ⟨i, u, [d, terminator]⟩ :=
  ⟨_, (loop_ips hu [] [':', d] []).trans (loop_colon_last u u [] d)⟩

/-- There is no colon in the first text that is returned. -/
lemma Scan.colon_notMem_ip {address : List Char} {s s' : Scan} (h : s.loop address = some s')
    (hip : ':' ∉ s.ip) : ':' ∉ s'.ip := by
  induction s using Scan.loop.induct address with
  | case1 s hi hround =>
    rw [Scan.loop, if_pos hi] at h
    split at h
    · cases h
    · next _ hsome => cases hround.symm.trans hsome
  | case2 s hi s₁ hround ih =>
    have hrounds : s.Rounds address s₁ := Scan.round_eq_some_iff.1 hround
    rw [Scan.loop_of_rounds hi hrounds] at h
    refine ih h ?_
    cases hrounds with
    | ip hc hcolon => simpa [hip] using Ne.symm hcolon
    | port | colon => exact hip
  | case3 s hi =>
    rw [Scan.loop, if_neg hi] at h
    cases h
    exact hip

lemma parseIpAddress_eq_some_iff {address ip port : String} :
    parseIpAddress address = some [ip, port] ↔
      ∃ i, Scan.loop address.toList ⟨0, [], []⟩ = some ⟨i, ip.toList, port.toList⟩ := by
  rw [parseIpAddress, Option.map_eq_some_iff]
  constructor
  · rintro ⟨s, hs, heq⟩
    simp only [List.cons.injEq, and_true] at heq
    refine ⟨s.i, ?_⟩
    rw [hs, ← heq.1, ← heq.2, String.toList_ofList, String.toList_ofList]
  · rintro ⟨i, hi⟩
    refine ⟨_, hi, ?_⟩
    rw [String.ofList_toList, String.ofList_toList]

/-- An address is taken apart if the first text has no colon and the port is not one digit. -/
lemma parseIpAddress_append_iff {ip port : String} (hport : port ≠ "")
    (hcolon : ':' ∉ port.toList) : parseIpAddress (ip ++ ":" ++ port) = some [ip, port] ↔
      ':' ∉ ip.toList ∧ 2 ≤ port.length := by
  have htext : (ip ++ ":" ++ port).toList = ip.toList ++ ':' :: port.toList := by
    rw [String.toList_append, String.toList_append, List.append_assoc]
    rfl
  rw [parseIpAddress_eq_some_iff, htext, ← String.length_toList]
  by_cases hip : ':' ∈ ip.toList
  · refine iff_of_false ?_ fun h => h.1 hip
    rintro ⟨i, hi⟩
    exact Scan.colon_notMem_ip hi (by simp) hip
  rw [and_iff_right hip]
  match hchars : port.toList with
  | [] => exact absurd (String.toList_eq_nil_iff.1 hchars) hport
  | [d] =>
    refine iff_of_false ?_ (by simp)
    rintro ⟨i, hi⟩
    obtain ⟨j, hj⟩ := loop_address_last hip d
    cases hj.symm.trans hi
  | d :: e :: cs =>
    rw [hchars, List.mem_cons, List.mem_cons, not_or, not_or] at hcolon
    exact iff_of_true (loop_address hip d e hcolon.2.2) (by simp)

/-- The loop reads behind the terminating character at a last colon. -/
lemma parseIpAddress_eq_none_iff (address : String) : parseIpAddress address = none ↔
    ∃ v, Passed v ∧ address.toList = v ++ [':'] := by
  rw [parseIpAddress, Option.map_eq_none_iff]
  have hpassed {v : List Char} (h : Passed v) (cs : List Char) :=
    loop_passed h [] cs [] []
  constructor
  · intro hnone
    rcases passed_cases address.toList with h | h | ⟨v, d, h, heq⟩
    · obtain ⟨ip, port, hloop⟩ := hpassed h []
      rw [List.nil_append, List.append_nil] at hloop
      cases hnone.symm.trans (hloop.trans (loop_end _ _ (by simp)))
    · exact h
    · obtain ⟨ip, port, hloop⟩ := hpassed h [':', d]
      rw [List.nil_append, List.length_nil, zero_add] at hloop
      rw [heq] at hnone
      cases hnone.symm.trans (hloop.trans (loop_colon_last v ip port d))
  · rintro ⟨v, h, heq⟩
    obtain ⟨ip, port, hloop⟩ := hpassed h [':']
    rw [List.nil_append, List.length_nil, zero_add] at hloop
    rw [heq]
    exact hloop.trans (loop_colon_end v ip port)

/-- **An address is taken apart** if and only if the first text has no colon and the port is not
a single character, and **nothing behind the terminating character is read** if and only if no
colon is met at the end of the address. -/
theorem parseIpAddress_iff (ip port address : String) :
    (ip ≠ "" → port ≠ "" → ':' ∉ port.toList →
      (parseIpAddress (ip ++ ":" ++ port) = some [ip, port] ↔
        ':' ∉ ip.toList ∧ 2 ≤ port.length)) ∧
      (parseIpAddress address ≠ none ↔ ¬ ∃ v, Passed v ∧ address.toList = v ++ [':']) :=
  ⟨fun _ hport hcolon => parseIpAddress_append_iff hport hcolon,
    not_congr (parseIpAddress_eq_none_iff address)⟩

theorem parseIpAddress_iff_localhost :
    parseIpAddress ("127.0.0.1" ++ ":" ++ "50051") = some ["127.0.0.1", "50051"] ↔
      ':' ∉ "127.0.0.1".toList ∧ 2 ≤ "50051".length :=
  (parseIpAddress_iff "127.0.0.1" "50051" "").1 (by decide) (by decide) (by decide)

/-- The port of one digit gets the terminating character as well, and in an address that ends
with its colon the loop reads too far. -/
theorem not_parseIpAddress :
    (¬ ∀ ip port : String, ip ≠ "" → port ≠ "" → ':' ∉ port.toList →
      parseIpAddress (ip ++ ":" ++ port) = some [ip, port]) ∧
      ¬ ∀ address : String, parseIpAddress address ≠ none := by
  constructor
  · intro hall
    have h := hall "localhost" "5" (by decide) (by decide) (by decide)
    exact absurd ((parseIpAddress_append_iff (by decide) (by decide)).1 h).2 (by decide)
  · intro hall
    refine hall "a:" ((parseIpAddress_eq_none_iff _).2 ⟨['a'], .char (by decide) .nil, ?_⟩)
    decide

end TradingEngine.TradePersistence
