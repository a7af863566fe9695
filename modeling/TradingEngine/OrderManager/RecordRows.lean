/-
The rows that `PrintRecordResult` writes.

`MANAGER_END` empties two of the three lists only, so the third one is aligned with them in the
first recording and never again.
-/
import TradingEngine.OrderManager.Recording

namespace TradingEngine.OrderManager.Recording

open Lib

/-! ### What the steps do to the lists -/

/-- What a step does to the three lists and the trackers. -/
inductive RowSteps (s : Recorder) : Event → Recorder → Prop
  /-- Nothing that concerns the lists. -/
  | other {e : Event} {s' : Recorder} (hflag : s'.recordIsStart = s.recordIsStart)
      (hrecording : s'.recording = s.recording) (htrackers : s'.trackers = s.trackers)
      (hsend : s'.sendDataList = s.sendDataList) (hreceive : s'.receiveDataList = s.receiveDataList)
      (hlatency : s'.latencyList = s.latencyList) : RowSteps s e s'
  | opened (hflag : s.recordIsStart = false) : RowSteps s .managerStart s.opened
  | closed (hflag : s.recordIsStart = true) : RowSteps s .managerEnd s.closed
  | append {e : Event} {i : ℕ} {tracker tracker' : Tracker} {send receive latency : ℤ}
      (htracker : s.trackers[i]? = some tracker)
      (hrecording : tracker'.recording = tracker.recording) :
      RowSteps s e (s.append i tracker' send receive latency)
  | turn {e : Event} {i : ℕ} {tracker : Tracker} {stage : TrackerStage}
      (htracker : s.trackers[i]? = some tracker) (hstage : tracker.stage ≠ .starting) :
      RowSteps s e { s with trackers := s.trackers.set i { tracker with stage := stage } }

variable {s s' : Recorder} {e : Event}

lemma rowSteps_of_callStep {i : ℕ} {call : Call} {action : CallAction}
    (h : s.callStep i call action = some s') : RowSteps s e s' := by
  cases action <;> rw [Recorder.callStep, Option.ite_none_right_eq_some] at h <;>
    cases h.2 <;> exact .other rfl rfl rfl rfl rfl rfl

lemma rowSteps_of_trackerStep {i : ℕ} {tracker : Tracker} {action : TrackerAction}
    (htracker : s.trackers[i]? = some tracker)
    (h : s.trackerStep i tracker action = some s') : RowSteps s e s' := by
  cases action with
  | start =>
    rw [Recorder.trackerStep, Option.ite_none_right_eq_some] at h
    cases h.2
    exact .append htracker rfl
  | check =>
    rw [Recorder.trackerStep, Option.ite_none_right_eq_some] at h
    cases h.2
    exact .turn htracker (by rw [h.1]; decide)
  | tick elapsed =>
    rw [Recorder.trackerStep, Option.ite_none_right_eq_some] at h
    cases h.2
    split_ifs
    · exact .append htracker rfl
    · exact .turn htracker (by rw [h.1]; decide)

lemma rowSteps_of_step (h : s.step e = some s') : RowSteps s e s' := by
  cases e with
  | managerStart =>
    cases h
    split_ifs with hflag
    · exact .other rfl rfl rfl rfl rfl rfl
    · exact .opened (by simpa using hflag)
  | managerEnd =>
    cases h
    split_ifs with hflag
    · exact .closed hflag
    · exact .other rfl rfl rfl rfl rfl rfl
  | tracker i action =>
    obtain ⟨tracker, htracker, h⟩ := Option.bind_eq_some_iff.1 h
    exact rowSteps_of_trackerStep htracker h
  | placeOrder =>
    cases h
    exact .other rfl rfl rfl rfl rfl rfl
  | call i action =>
    obtain ⟨call, -, h⟩ := Option.bind_eq_some_iff.1 h
    exact rowSteps_of_callStep h
  | matchResult =>
    rw [Recorder.step] at h
    split_ifs at h
    cases h
    exact .other rfl rfl rfl rfl rfl rfl
  | receive =>
    rw [Recorder.step] at h
    split_ifs at h
    cases h
    exact .other rfl rfl rfl rfl rfl rfl

/-! ### The alignment of the lists -/

/-- The trackers that there are have ended before a recording is opened. -/
def TrackersEnded (s : Recorder) : Event → Prop
  | .managerStart => s.recordIsStart = false → ∀ tracker ∈ s.trackers, tracker.stage = .ended
  | _ => True

instance (s : Recorder) : DecidablePred (TrackersEnded s)
  | .managerStart =>
    have : Decidable (∀ tracker ∈ s.trackers, tracker.stage = .ended) :=
      List.decidableBAll (fun tracker => tracker.stage = .ended) s.trackers
    inferInstanceAs (Decidable (s.recordIsStart = false → _))
  | .managerEnd => .isTrue trivial
  | .tracker _ _ => .isTrue trivial
  | .placeOrder => .isTrue trivial
  | .call _ _ => .isTrue trivial
  | .matchResult => .isTrue trivial
  | .receive => .isTrue trivial

/-- What holds of the three lists in every run: those of sends and receives are aligned. -/
structure Aligned (s : Recorder) : Prop where
  flag : s.recordIsStart = true → 1 ≤ s.recording
  unopened : s.recording = 0 → s.sendDataList = [] ∧ s.latencyList = [] ∧ s.trackers = []
  opened : 1 ≤ s.recording → s.trackers ≠ []
  tracker : ∀ tracker ∈ s.trackers, 1 ≤ tracker.recording ∧ tracker.recording ≤ s.recording
  receive : s.receiveDataList.map Entry.stamp = s.sendDataList.map Entry.stamp
  /-- In the first recording the third list is aligned with the others. -/
  latency : s.recording = 1 → s.recordIsStart = true →
    s.latencyList.map Entry.stamp = s.sendDataList.map Entry.stamp
  send : ∀ entry ∈ s.sendDataList, 1 ≤ entry.recording ∧ entry.recording ≤ s.recording
  /-- A tracker that has started leaves something in the third list. -/
  started : ∀ tracker ∈ s.trackers, tracker.stage ≠ .starting → s.latencyList ≠ []
  later : 2 ≤ s.recording → s.latencyList ≠ []
  first : ∀ entry, s.latencyList.head? = some entry → entry.recording = 1

lemma aligned_init : Aligned recorder.init where
  flag h := by cases h
  unopened _ := ⟨rfl, rfl, rfl⟩
  opened h := by cases h
  tracker _ h := by cases h
  receive := rfl
  latency h := by cases h
  send _ h := by cases h
  started _ h := by cases h
  later h := by cases h
  first _ h := by cases h

lemma Aligned.append (h : Aligned s) {i : ℕ} {tracker tracker' : Tracker}
    (htracker : s.trackers[i]? = some tracker)
    (hrecording : tracker'.recording = tracker.recording) (send receive latency : ℤ) :
    Aligned (s.append i tracker' send receive latency) := by
  have hmem : tracker ∈ s.trackers := List.mem_of_getElem? htracker
  have hrange := h.tracker tracker hmem
  rw [← hrecording] at hrange
  have hopened : 1 ≤ s.recording := hrange.1.trans hrange.2
  refine ⟨h.flag, ?_, ?_, ?_, ?_, ?_, ?_, ?_, ?_, ?_⟩
  · intro hzero
    have hzero' : s.recording = 0 := hzero
    omega
  · intro _
    rw [Recorder.append, ne_eq, List.set_eq_nil_iff]
    exact h.opened hopened
  · intro tracker₁ hmem₁
    rcases List.mem_or_eq_of_mem_set hmem₁ with hmem₁ | rfl
    · exact h.tracker _ hmem₁
    · exact hrange
  · simp only [Recorder.append, List.map_append, h.receive]
    rfl
  · intro hone hflag
    simp only [Recorder.append, List.map_append, h.latency hone hflag]
    rfl
  · intro entry hentry
    rcases List.mem_append.1 hentry with hentry | hentry
    · exact h.send entry hentry
    · rw [List.mem_singleton.1 hentry]
      exact hrange
  · intro _ _ _
    simp [Recorder.append]
  · intro _
    simp [Recorder.append]
  · intro entry hentry
    cases hlist : s.latencyList with
    | nil =>
      -- only the tracker of the first recording finds the list empty
      have hfirst : ¬ 2 ≤ s.recording := fun hlater => h.later hlater hlist
      simp only [Recorder.append, hlist, List.nil_append, List.head?_cons,
        Option.some.injEq] at hentry
      rw [← hentry]
      show tracker'.recording = 1
      omega
    | cons entry₁ entries =>
      refine h.first entry ?_
      simpa [Recorder.append, hlist] using hentry

lemma Aligned.open (h : Aligned s)
    (hended : ∀ tracker ∈ s.trackers, tracker.stage = .ended) : Aligned s.opened := by
  have hstarted : 1 ≤ s.recording → s.latencyList ≠ [] := by
    intro hrecording
    obtain ⟨tracker, hmem⟩ := List.exists_mem_of_ne_nil _ (h.opened hrecording)
    exact h.started tracker hmem (by rw [hended tracker hmem]; decide)
  refine ⟨?_, ?_, ?_, ?_, h.receive, ?_, ?_, ?_, ?_, h.first⟩
  · intro _
    exact Nat.le_add_left 1 _
  · intro hzero
    cases hzero
  · intro _
    simp [Recorder.opened]
  · intro tracker hmem
    rcases List.mem_append.1 hmem with hmem | hmem
    · obtain ⟨hlow, hhigh⟩ := h.tracker tracker hmem
      exact ⟨hlow, Nat.le_succ_of_le hhigh⟩
    · rw [List.mem_singleton.1 hmem]
      exact ⟨Nat.le_add_left 1 _, le_rfl⟩
  · intro hone _
    have hzero : s.recording = 0 := Nat.succ.inj hone
    obtain ⟨hsend, hlatency, -⟩ := h.unopened hzero
    show s.latencyList.map Entry.stamp = s.sendDataList.map Entry.stamp
    rw [hsend, hlatency]
  · intro entry hentry
    obtain ⟨hlow, hhigh⟩ := h.send entry hentry
    exact ⟨hlow, Nat.le_succ_of_le hhigh⟩
  · intro tracker hmem hstage
    rcases List.mem_append.1 hmem with hmem | hmem
    · exact h.started tracker hmem hstage
    · rw [List.mem_singleton.1 hmem] at hstage
      exact absurd rfl hstage
  · intro hlater
    exact hstarted (Nat.le_of_succ_le_succ hlater)

lemma Aligned.close (h : Aligned s) (hflag : s.recordIsStart = true) : Aligned s.closed := by
  refine ⟨?_, ?_, h.opened, h.tracker, rfl, ?_, ?_, h.started, h.later, h.first⟩
  · intro hopen
    cases hopen
  · intro hzero
    have hopened := h.flag hflag
    have hzero' : s.recording = 0 := hzero
    omega
  · intro _ hopen
    cases hopen
  · intro entry hentry
    cases hentry

lemma Aligned.turn (h : Aligned s) {i : ℕ} {tracker : Tracker}
    (htracker : s.trackers[i]? = some tracker) (hstage : tracker.stage ≠ .starting)
    (stage : TrackerStage) :
    Aligned { s with trackers := s.trackers.set i { tracker with stage := stage } } := by
  have hmem : tracker ∈ s.trackers := List.mem_of_getElem? htracker
  have hopened : 1 ≤ s.recording := (h.tracker _ hmem).1.trans (h.tracker _ hmem).2
  refine ⟨h.flag, ?_, ?_, ?_, h.receive, h.latency, h.send, ?_, h.later, h.first⟩
  · intro hzero
    have hzero' : s.recording = 0 := hzero
    omega
  · intro _
    rw [ne_eq, List.set_eq_nil_iff]
    exact h.opened hopened
  · intro tracker₁ hmem₁
    rcases List.mem_or_eq_of_mem_set hmem₁ with hmem₁ | rfl
    · exact h.tracker _ hmem₁
    · exact h.tracker tracker hmem
  · intro tracker₁ hmem₁ hstage₁
    rcases List.mem_or_eq_of_mem_set hmem₁ with hmem₁ | rfl
    · exact h.started _ hmem₁ hstage₁
    · exact h.started tracker hmem hstage

/-- **A step keeps the lists aligned.** -/
theorem Aligned.step (h : Aligned s) (hsteps : RowSteps s e s') (hended : TrackersEnded s e) :
    Aligned s' := by
  cases hsteps with
  | other hflag hrecording htrackers hsend hreceive hlatency =>
    constructor
    · rw [hflag, hrecording]
      exact h.flag
    · rw [hrecording, hsend, hlatency, htrackers]
      exact h.unopened
    · rw [hrecording, htrackers]
      exact h.opened
    · rw [hrecording, htrackers]
      exact h.tracker
    · rw [hreceive, hsend]
      exact h.receive
    · rw [hrecording, hflag, hlatency, hsend]
      exact h.latency
    · rw [hsend, hrecording]
      exact h.send
    · rw [htrackers, hlatency]
      exact h.started
    · rw [hrecording, hlatency]
      exact h.later
    · rw [hlatency]
      exact h.first
  | opened hflag => exact h.open (hended hflag)
  | closed hflag => exact h.close hflag
  | append htracker hrecording => exact h.append htracker hrecording _ _ _
  | turn htracker hstage => exact h.turn htracker hstage _

lemma aligned_of_run {es : List Event} (h : recorder.Run TrackersEnded es s) : Aligned s := by
  induction h with
  | start => exact aligned_init
  | step _ hG hstep ih => exact ih.step (rowSteps_of_step hstep) hG

/-! ### The rows -/

/-- What `PrintRecordResult` writes has its indices, and a row holds what one round of the tracker
of this recording appended. -/
def RowsOk (recordTimeInterval : ℤ) (s : Recorder) : Prop :=
  ∃ report, s.printRecordResult recordTimeInterval = some (0, some report) ∧
    ∀ row ∈ report.rows, row.send.stamp = row.receive.stamp ∧
      row.send.stamp = row.latency.stamp ∧ row.send.recording = s.recording

lemma exists_mapM {α β : Type} {f : α → Option β} {P : β → Prop} {l : List α}
    (h : ∀ a ∈ l, ∃ b, f a = some b ∧ P b) : ∃ bs, l.mapM f = some bs ∧ ∀ b ∈ bs, P b := by
  induction l with
  | nil => exact ⟨[], rfl, by simp⟩
  | cons a l ih =>
    obtain ⟨b, hb, hP⟩ := h a (by simp)
    obtain ⟨bs, hbs, hPs⟩ := ih fun a' ha' => h a' (List.mem_cons_of_mem a ha')
    refine ⟨b :: bs, ?_, ?_⟩
    · rw [List.mapM_cons, hb, hbs]
      rfl
    · intro b' hb'
      rcases List.mem_cons.1 hb' with rfl | hb'
      · exact hP
      · exact hPs b' hb'

lemma exists_of_mapM {α β : Type} {f : α → Option β} {l : List α} {bs : List β}
    (h : l.mapM f = some bs) {a : α} (ha : a ∈ l) : ∃ b ∈ bs, f a = some b := by
  induction l generalizing bs with
  | nil => cases ha
  | cons a' l ih =>
    rw [List.mapM_cons] at h
    obtain ⟨b', hb', h⟩ := Option.bind_eq_some_iff.1 h
    obtain ⟨bs', hbs', h⟩ := Option.bind_eq_some_iff.1 h
    cases h
    rcases List.mem_cons.1 ha with rfl | ha
    · exact ⟨b', by simp, hb'⟩
    · obtain ⟨b, hb, hf⟩ := ih hbs' ha
      exact ⟨b, List.mem_cons_of_mem b' hb, hf⟩

variable {recordTimeInterval : ℤ}

/-- The file that is written when a recording is open. -/
lemma rows_of_printRecordResult (hflag : s.recordIsStart = true) {report : Report}
    (h : s.printRecordResult recordTimeInterval = some (0, some report)) :
    (List.range s.sendDataList.length).mapM (s.row recordTimeInterval) = some report.rows := by
  rw [Recorder.printRecordResult, hflag, if_neg (by decide)] at h
  obtain ⟨rows, hrows, h⟩ := Option.bind_eq_some_iff.1 h
  cases h
  exact hrows

lemma exists_printRecordResult (hflag : s.recordIsStart = true) {rows : List Row}
    (hrows : (List.range s.sendDataList.length).mapM (s.row recordTimeInterval) = some rows) :
    ∃ report, s.printRecordResult recordTimeInterval = some (0, some report) ∧
      report.rows = rows := by
  rw [Recorder.printRecordResult, hflag, if_neg (by decide), hrows]
  exact ⟨_, rfl, rfl⟩

/-- In the first recording the rows are as they should be. -/
lemma Aligned.rowsOk_of_first (h : Aligned s) (hflag : s.recordIsStart = true)
    (hfirst : s.recording = 1) : RowsOk recordTimeInterval s := by
  have hrows : ∀ i ∈ List.range s.sendDataList.length, ∃ row,
      s.row recordTimeInterval i = some row ∧ row.send.stamp = row.receive.stamp ∧
        row.send.stamp = row.latency.stamp ∧ row.send.recording = s.recording := by
    intro i hi
    have hsend := List.getElem?_eq_getElem (List.mem_range.1 hi)
    have hreceive : (s.receiveDataList.map Entry.stamp)[i]? =
        (s.sendDataList.map Entry.stamp)[i]? := by
      rw [h.receive]
    have hlatency : (s.latencyList.map Entry.stamp)[i]? =
        (s.sendDataList.map Entry.stamp)[i]? := by
      rw [h.latency hfirst hflag]
    rw [List.getElem?_map, List.getElem?_map, hsend, Option.map_some,
      Option.map_eq_some_iff] at hreceive hlatency
    obtain ⟨receive, hreceive, hstamp⟩ := hreceive
    obtain ⟨latency, hlatency, hstamp'⟩ := hlatency
    refine ⟨⟨i * recordTimeInterval, _, receive, latency⟩, ?_, hstamp.symm, hstamp'.symm, ?_⟩
    · rw [Recorder.row, hsend, hreceive, hlatency]
      rfl
    · have hrange := h.send _ (List.mem_of_getElem? hsend)
      exact le_antisymm hrange.2 (hfirst.le.trans hrange.1)
  obtain ⟨rows, hmap, hok⟩ := exists_mapM hrows
  obtain ⟨report, hreport, rfl⟩ := exists_printRecordResult hflag hmap
  exact ⟨report, hreport, hok⟩

/-- In a later recording the first row has a value of the first recording. -/
lemma Aligned.stale_of_later (h : Aligned s) (hflag : s.recordIsStart = true)
    (hfirst : s.recording ≠ 1) (hsend : s.sendDataList ≠ []) :
    ¬ RowsOk recordTimeInterval s := by
  rintro ⟨report, hreport, hok⟩
  have hopened := h.flag hflag
  have hzero : 0 ∈ List.range s.sendDataList.length :=
    List.mem_range.2 (List.length_pos_of_ne_nil hsend)
  obtain ⟨row, hmem, hrow⟩ := exists_of_mapM (rows_of_printRecordResult hflag hreport) hzero
  obtain ⟨send, -, hrow⟩ := Option.bind_eq_some_iff.1 hrow
  obtain ⟨receive, -, hrow⟩ := Option.bind_eq_some_iff.1 hrow
  obtain ⟨latency, hlatency, hrow⟩ := Option.bind_eq_some_iff.1 hrow
  cases hrow
  obtain ⟨-, hstamp, hrecording⟩ := hok _ hmem
  have hold : latency.recording = 1 := by
    refine h.first latency ?_
    rw [← hlatency]
    exact List.head?_eq_getElem?
  have hsame : send.recording = latency.recording := congrArg Prod.fst hstamp
  have hcurrent : send.recording = s.recording := hrecording
  omega

/-- **The rows are those of the recording** if and only if it is the first one, or nothing is in
the list of what was sent. -/
theorem rowsOk_iff (recordTimeInterval : ℤ) (es : List Event) (s : Recorder)
    (h : recorder.Run TrackersEnded es s) (hflag : s.recordIsStart = true) :
    RowsOk recordTimeInterval s ↔ s.recording = 1 ∨ s.sendDataList = [] := by
  have haligned := aligned_of_run h
  constructor
  · intro hok
    by_contra hne
    rw [not_or] at hne
    exact haligned.stale_of_later hflag hne.1 hne.2 hok
  · rintro (hfirst | hempty)
    · exact haligned.rowsOk_of_first hflag hfirst
    · have hmap : (List.range s.sendDataList.length).mapM (s.row recordTimeInterval) =
          some [] := by
        rw [hempty]
        rfl
      obtain ⟨report, hreport, hrows⟩ := exists_printRecordResult hflag hmap
      refine ⟨report, hreport, ?_⟩
      rw [hrows]
      simp

/-- A recording is opened and its tracker starts. -/
def startRecording : List Event := [.managerStart, .tracker 0 .start]

theorem rowsOk_iff_startRecording : ∃ s, recorder.Run TrackersEnded startRecording s ∧
    s.recordIsStart = true ∧ (RowsOk 10 s ↔ s.recording = 1 ∨ s.sendDataList = []) := by
  have hrun : recorder.admits TrackersEnded startRecording = true := by decide
  obtain ⟨s, hs⟩ := recorder.exists_run hrun
  have hflag : (recorder.runFrom (fun _ _ => True) recorder.init startRecording).map
      Recorder.recordIsStart = some true := by decide
  rw [hs.runFrom, Option.map_some, Option.some.injEq] at hflag
  exact ⟨s, hs, hflag, rowsOk_iff 10 startRecording s hs hflag⟩

/-- Two recordings, the first one over when the second one is opened. -/
def twoRecordings : List Event :=
  [.managerStart, .tracker 0 .start, .managerEnd, .tracker 0 .check, .managerStart,
    .tracker 1 .start]

/-- What the first tracker appended last is written with the second recording. -/
theorem not_rowsOk : ¬ ∀ (recordTimeInterval : ℤ) (es : List Event) (s : Recorder),
    recorder.Run TrackersEnded es s → s.recordIsStart = true → RowsOk recordTimeInterval s := by
  intro hall
  have hrun : recorder.admits TrackersEnded twoRecordings = true := by decide
  obtain ⟨s, hs⟩ := recorder.exists_run hrun
  have hstate : (recorder.runFrom (fun _ _ => True) recorder.init twoRecordings).map
      (fun s => (s.recordIsStart, s.recording, s.sendDataList.length)) =
        some (true, 2, 1) := by decide
  rw [hs.runFrom, Option.map_some, Option.some.injEq, Prod.mk.injEq, Prod.mk.injEq] at hstate
  obtain ⟨hflag, hrecording, hlength⟩ := hstate
  refine (aligned_of_run hs).stale_of_later hflag ?_ ?_ (hall 10 twoRecordings s hs hflag)
  · omega
  · exact List.ne_nil_of_length_pos (by omega)

end TradingEngine.OrderManager.Recording
