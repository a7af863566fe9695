/-
The sum of the latencies of `PlaceOrder` while recordings are opened and closed.

A call reads the flag twice, and adds its latency whether it was counted in this recording or
not.  In every run the number of calls is that of the calls that were counted
(`sendDataAmount_eq`); the invariant `Accounts` says what each call has put into the sum so far.
-/
import TradingEngine.OrderManager.Recording

namespace TradingEngine.OrderManager.Recording

open Lib

/-- `Match` has returned. -/
def CallStage.returned : CallStage → Bool
  | .counting | .matching => false
  | _ => true

/-- Behind the second reading of the flag, when it was set, and not at the end yet. -/
def CallStage.updating : CallStage → Bool
  | .adding | .comparingMin | .storingMin | .comparingMax | .storingMax => true
  | _ => false

/-- The calls that were counted in this recording and whose `Match` has returned. -/
def Recorder.returnedCalls (s : Recorder) : List Call :=
  s.calls.filter fun call => call.counted = some s.recording && call.stage.returned

/-- The sum is that of the calls that were counted, and the average is not above the maximum. -/
structure Accounted (s : Recorder) : Prop where
  latencySum : s.latencySum = (s.returnedCalls.map Call.latency).sum
  average : s.sendDataAmount ≠ 0 → s.latencySum.tdiv s.sendDataAmount ≤ s.latencyMax

/-! ### The calls that are counted -/

/-- What a call has put into the number of calls. -/
def Call.tally (recording : ℕ) (call : Call) : ℤ := if call.counted = some recording then 1 else 0

/-- Calls are counted once and for no later recording, and `send_data_amount_` is their number. -/
structure Counts (s : Recorder) : Prop where
  counted : ∀ call ∈ s.calls, ∀ r, call.counted = some r → r ≤ s.countedIn
  counting : ∀ call ∈ s.calls, call.stage = .counting → call.counted = none
  amount : s.sendDataAmount = toInt (s.calls.map (Call.tally s.countedIn)).sum

section Counts

variable {s s' : Recorder}

/-- A step that touches neither the calls nor their number. -/
lemma Counts.congr (h : Counts s) (hcalls : s'.calls = s.calls)
    (hrecording : s'.countedIn = s.countedIn) (hamount : s'.sendDataAmount = s.sendDataAmount) :
    Counts s' := by
  constructor
  · rw [hcalls, hrecording]
    exact h.counted
  · rw [hcalls]
    exact h.counting
  · rw [hcalls, hrecording, hamount]
    exact h.amount

/-- A call is behind the count after its step, and the number grows if it is counted there. -/
lemma Counts.set (h : Counts s) {i : ℕ} {call call' : Call} (hcall : s.calls[i]? = some call)
    (hcalls : s'.calls = s.calls.set i call') (hrecording : s'.countedIn = s.countedIn)
    (hstage : call'.stage ≠ .counting)
    (hcounted : ∀ r, call'.counted = some r → r ≤ s.countedIn)
    (hamount : s'.sendDataAmount =
      toInt (s.sendDataAmount + (call'.tally s.countedIn - call.tally s.countedIn))) :
    Counts s' := by
  have htally := sum_map_set (Call.tally s.countedIn) hcall call'
  constructor
  · rw [hcalls, hrecording]
    intro c hc
    rcases List.mem_or_eq_of_mem_set hc with hc | rfl
    · exact h.counted c hc
    · exact hcounted
  · rw [hcalls]
    intro c hc
    rcases List.mem_or_eq_of_mem_set hc with hc | rfl
    · exact h.counting c hc
    · exact fun heq => absurd heq hstage
  · have hsum : (s.calls.map (Call.tally s.countedIn)).sum +
        (call'.tally s.countedIn - call.tally s.countedIn) =
          ((s.calls.set i call').map (Call.tally s.countedIn)).sum := by omega
    rw [hamount, hcalls, hrecording, ← hsum, h.amount]
    exact Int.bmod_add_bmod

/-- A step of a call at which it is not counted. -/
lemma Counts.move (h : Counts s) {i : ℕ} {call call' : Call} (hcall : s.calls[i]? = some call)
    (hcalls : s'.calls = s.calls.set i call') (hrecording : s'.countedIn = s.countedIn)
    (hamount : s'.sendDataAmount = s.sendDataAmount) (hcounted : call'.counted = call.counted)
    (hstage : call'.stage ≠ .counting) : Counts s' := by
  refine h.set hcall hcalls hrecording hstage ?_ ?_
  · rw [hcounted]
    exact h.counted call (List.mem_of_getElem? hcall)
  · rw [Call.tally, Call.tally, hcounted, sub_self, add_zero, hamount, h.amount]
    exact (toInt_eq (isInt32_toInt _)).symm

lemma Counts.callStep (h : Counts s) {i : ℕ} {call : Call} {action : CallAction}
    (hcall : s.calls[i]? = some call) (hstep : s.callStep i call action = some s') :
    Counts s' := by
  cases action with
  | count =>
    obtain ⟨hstage, hstep⟩ := Option.ite_none_right_eq_some.1 hstep
    cases hstep
    have huncounted := h.counting call (List.mem_of_getElem? hcall) hstage
    refine h.set hcall rfl rfl (by simp) (fun r hr => ?_) ?_
    · exact (Option.some.inj hr).ge
    · rw [Call.tally, Call.tally, huncounted, if_pos rfl, if_neg (by simp), sub_zero]
  | matched latency =>
    obtain ⟨-, hstep⟩ := Option.ite_none_right_eq_some.1 hstep
    cases hstep
    exact h.move hcall rfl rfl rfl rfl (by dsimp only; split_ifs <;> decide)
  | compareMin =>
    obtain ⟨-, hstep⟩ := Option.ite_none_right_eq_some.1 hstep
    cases hstep
    exact h.move hcall rfl rfl rfl rfl (by dsimp only; split_ifs <;> decide)
  | compareMax =>
    obtain ⟨-, hstep⟩ := Option.ite_none_right_eq_some.1 hstep
    cases hstep
    exact h.move hcall rfl rfl rfl rfl (by dsimp only; split_ifs <;> decide)
  | add =>
    obtain ⟨-, hstep⟩ := Option.ite_none_right_eq_some.1 hstep
    cases hstep
    exact h.move hcall rfl rfl rfl rfl (by simp)
  | storeMin =>
    obtain ⟨-, hstep⟩ := Option.ite_none_right_eq_some.1 hstep
    cases hstep
    exact h.move hcall rfl rfl rfl rfl (by simp)
  | storeMax =>
    obtain ⟨-, hstep⟩ := Option.ite_none_right_eq_some.1 hstep
    cases hstep
    exact h.move hcall rfl rfl rfl rfl (by simp)

lemma Counts.trackerStep (h : Counts s) {i : ℕ} {tracker : Tracker} {action : TrackerAction}
    (hstep : s.trackerStep i tracker action = some s') : Counts s' := by
  cases action with
  | start =>
    obtain ⟨-, hstep⟩ := Option.ite_none_right_eq_some.1 hstep
    cases hstep
    exact h.congr rfl rfl rfl
  | check =>
    obtain ⟨-, hstep⟩ := Option.ite_none_right_eq_some.1 hstep
    cases hstep
    exact h.congr rfl rfl rfl
  | tick elapsed =>
    obtain ⟨-, hstep⟩ := Option.ite_none_right_eq_some.1 hstep
    cases hstep
    cases elapsed <;> exact h.congr rfl rfl rfl

/-- The calls that are counted from now on are counted for the next recording. -/
lemma Counts.close (h : Counts s) (hon : s.recordIsStart = true) : Counts s.closed := by
  have hold : s.countedIn = s.recording := if_pos hon
  have hnew : s.closed.countedIn = s.recording + 1 := rfl
  have hnone : ∀ call ∈ s.calls, call.counted ≠ some (s.recording + 1) := by
    intro call hcall hcounted
    have hle := h.counted call hcall _ hcounted
    omega
  have hsum : (s.calls.map (Call.tally (s.recording + 1))).sum = 0 := by
    refine List.sum_eq_zero fun x hx => ?_
    obtain ⟨call, hcall, rfl⟩ := List.mem_map.1 hx
    exact if_neg (hnone call hcall)
  constructor
  · intro call hcall r hr
    have hle := h.counted call hcall r hr
    omega
  · exact h.counting
  · rw [hnew]
    show 0 = toInt (s.calls.map (Call.tally (s.recording + 1))).sum
    rw [hsum]
    rfl

lemma Counts.step {e : Event} (h : Counts s) (hstep : s.step e = some s') : Counts s' := by
  cases e with
  | managerStart =>
    cases hstep
    split_ifs with hon
    · exact h
    · exact h.congr rfl (if_neg hon).symm rfl
  | managerEnd =>
    cases hstep
    split_ifs with hon
    · exact h.close hon
    · exact h
  | tracker i action =>
    obtain ⟨tracker, -, hstep⟩ := Option.bind_eq_some_iff.1 hstep
    exact h.trackerStep hstep
  | placeOrder =>
    cases hstep
    have htally (stage : CallStage) : Call.tally s.countedIn { stage := stage } = 0 :=
      if_neg (by simp)
    constructor
    · intro call hcall r hr
      rcases List.mem_append.1 hcall with hcall | hcall
      · exact h.counted call hcall r hr
      · rw [List.mem_singleton.1 hcall] at hr
        cases hr
    · intro call hcall hstage
      rcases List.mem_append.1 hcall with hcall | hcall
      · exact h.counting call hcall hstage
      · rw [List.mem_singleton.1 hcall]
    · show s.sendDataAmount = toInt (List.map (Call.tally s.countedIn) (s.calls ++ _)).sum
      rw [List.map_append, List.sum_append, List.map_singleton, List.sum_singleton, htally,
        add_zero]
      exact h.amount
  | call i action =>
    obtain ⟨call, hcall, hstep⟩ := Option.bind_eq_some_iff.1 hstep
    exact h.callStep hcall hstep
  | matchResult =>
    rw [Recorder.step] at hstep
    split_ifs at hstep
    cases hstep
    exact h.congr rfl rfl rfl
  | receive =>
    obtain ⟨-, hstep⟩ := Option.ite_none_right_eq_some.1 hstep
    cases hstep
    exact h.congr rfl rfl rfl

end Counts

/-! ### Calls that keep to their recording -/

/-- A call whose `Match` returns in a recording was counted in it, no larger maximum is
overwritten, and what is computed is in the range of `int`. -/
def Recorder.undisturbed (s : Recorder) (call : Call) : CallAction → Bool
  | .count => s.sendDataAmount + 1 < 2 ^ 31
  | .matched _ => !s.recordIsStart || call.counted = some s.recording
  | .add =>
    -2 ^ 31 ≤ s.latencySum + call.latency && decide (s.latencySum + call.latency < 2 ^ 31)
  | .storeMax => s.latencyMax ≤ call.latency && decide (call.latency < 2 ^ 31)
  | _ => true

/-- A recording is not closed when a call is about to be counted or to add to the sum, and the
calls keep to their recording. -/
def Undisturbed (s : Recorder) : Event → Prop
  | .managerEnd => s.recordIsStart = true →
      ∀ call ∈ s.calls, call.stage ≠ .counting ∧ call.stage ≠ .adding
  | .call i action => ∀ call ∈ s.calls[i]?, s.undisturbed call action = true
  | _ => True

instance (s : Recorder) (e : Event) : Decidable (Undisturbed s e) := by
  cases e <;> unfold Undisturbed <;> infer_instance

/-! ### The invariant -/

/-- What a call has put into the sum. -/
def Call.share (recording : ℕ) (call : Call) : ℤ :=
  if call.counted = some recording ∧ call.stage.returned = true ∧ call.stage ≠ .adding then
    call.latency
  else 0

/-- How far a call can be, and what it has stored. -/
structure CallOk (s : Recorder) (call : Call) : Prop where
  counted : ∀ r, call.counted = some r → r ≤ s.recording
  counting : call.stage = .counting → s.recordIsStart = true ∧ call.counted = none
  adding : call.stage = .adding → s.recordIsStart = true ∧ call.counted = some s.recording
  unrecorded : s.recordIsStart = true → call.counted = some s.recording →
    call.stage ≠ .unrecorded
  bounded : s.recordIsStart = true → call.counted = some s.recording →
    call.stage = .recorded → call.latency ≤ s.latencyMax

/-- The accounts of the open recording: what each call has stored, the maximum, the sum of the
latencies and the number of counted calls. -/
structure Accounts (s : Recorder) : Prop where
  call : ∀ call ∈ s.calls, CallOk s call
  max : 0 ≤ s.latencyMax ∧ s.latencyMax < 2 ^ 31
  sum : s.latencySum = if s.recordIsStart then (s.calls.map (Call.share s.recording)).sum else 0
  amount : 0 ≤ s.sendDataAmount ∧ (s.recordIsStart = true →
    (s.calls.map (Call.tally s.recording)).sum ≤ s.sendDataAmount)

variable {s s' : Recorder}

lemma CallOk.mono {call : Call} (h : CallOk s call) (hflag : s'.recordIsStart = s.recordIsStart)
    (hrecording : s'.recording = s.recording) (hmax : s.latencyMax ≤ s'.latencyMax) :
    CallOk s' call := by
  constructor
  · rw [hrecording]
    exact h.counted
  · rw [hflag]
    exact h.counting
  · rw [hflag, hrecording]
    exact h.adding
  · rw [hflag, hrecording]
    exact h.unrecorded
  · rw [hflag, hrecording]
    exact fun hon hcounted hstage => (h.bounded hon hcounted hstage).trans hmax

/-- A step that touches nothing of this. -/
lemma Accounts.congr (h : Accounts s) (hflag : s'.recordIsStart = s.recordIsStart)
    (hrecording : s'.recording = s.recording) (hcalls : s'.calls = s.calls)
    (hsum : s'.latencySum = s.latencySum) (hmax : s'.latencyMax = s.latencyMax)
    (hamount : s'.sendDataAmount = s.sendDataAmount) : Accounts s' := by
  constructor
  · rw [hcalls]
    exact fun call hcall => (h.call call hcall).mono hflag hrecording hmax.ge
  · rw [hmax]
    exact h.max
  · rw [hsum, hflag, hcalls, hrecording]
    exact h.sum
  · rw [hamount, hflag, hcalls, hrecording]
    exact h.amount

/-- A call takes a step, and the maximum does not fall. -/
lemma Accounts.set (h : Accounts s) {i : ℕ} {call call' : Call} (hcall : s.calls[i]? = some call)
    (hflag : s'.recordIsStart = s.recordIsStart) (hrecording : s'.recording = s.recording)
    (hcalls : s'.calls = s.calls.set i call') (hok : CallOk s' call')
    (hmax : s.latencyMax ≤ s'.latencyMax ∧ s'.latencyMax < 2 ^ 31)
    (hsum : s.recordIsStart = true →
      s'.latencySum + call.share s.recording = s.latencySum + call'.share s.recording)
    (hsum' : s.recordIsStart = false → s'.latencySum = s.latencySum)
    (hamount : s.sendDataAmount ≤ s'.sendDataAmount ∧ (s.recordIsStart = true →
      s.sendDataAmount + call'.tally s.recording ≤ s'.sendDataAmount + call.tally s.recording)) :
    Accounts s' := by
  have hshare := sum_map_set (Call.share s.recording) hcall call'
  have htally := sum_map_set (Call.tally s.recording) hcall call'
  refine ⟨?_, ⟨h.max.1.trans hmax.1, hmax.2⟩, ?_, ?_⟩
  · rw [hcalls]
    intro c hc
    rcases List.mem_or_eq_of_mem_set hc with hc | rfl
    · exact (h.call c hc).mono hflag hrecording hmax.1
    · exact hok
  · have hold := h.sum
    rw [hflag, hrecording, hcalls]
    cases hon : s.recordIsStart with
    | true =>
      rw [hon, if_pos rfl] at hold
      rw [if_pos rfl]
      have := hsum hon
      omega
    | false =>
      rw [hon, if_neg (by decide)] at hold
      rw [if_neg (by decide), hsum' hon, hold]
  · refine ⟨h.amount.1.trans hamount.1, fun hon => ?_⟩
    rw [hflag] at hon
    rw [hrecording, hcalls]
    have hold := h.amount.2 hon
    have := hamount.2 hon
    omega

/-- A step of a call that touches neither the sum nor the maximum nor the number of calls. -/
lemma Accounts.setCall (h : Accounts s) {i : ℕ} {call call' : Call}
    (hcall : s.calls[i]? = some call) (hcounted : call'.counted = call.counted)
    (hok : CallOk s call') (hshare : s.recordIsStart = true →
      call'.share s.recording = call.share s.recording) :
    Accounts (s.setCall i call') := by
  have htally : call'.tally s.recording = call.tally s.recording := by
    rw [Call.tally, Call.tally, hcounted]
  refine h.set hcall rfl rfl rfl (hok.mono rfl rfl le_rfl) ⟨le_rfl, h.max.2⟩ ?_ (fun _ => rfl)
    ⟨le_rfl, fun _ => ?_⟩
  · intro hon
    rw [hshare hon]
    rfl
  · rw [htally]
    rfl

lemma Accounts.count (h : Accounts s) {i : ℕ} {call : Call} (hcall : s.calls[i]? = some call)
    (hstage : call.stage = .counting) (hrange : s.sendDataAmount + 1 < 2 ^ 31) :
    Accounts { s.setCall i { call with stage := .matching, counted := some s.countedIn } with
      sendDataAmount := toInt (s.sendDataAmount + 1) } := by
  have hlow := h.amount.1
  have hnew : toInt (s.sendDataAmount + 1) = s.sendDataAmount + 1 := toInt_eq ⟨by omega, hrange⟩
  obtain ⟨hon, huncounted⟩ := (h.call call (List.mem_of_getElem? hcall)).counting hstage
  rw [show s.countedIn = s.recording from if_pos hon]
  refine h.set hcall rfl rfl rfl ?_ ⟨le_rfl, h.max.2⟩ ?_ (fun _ => rfl) ?_
  · constructor <;> simp [Recorder.setCall]
  · intro _
    simp [Call.share, hstage, CallStage.returned, Recorder.setCall]
  · show s.sendDataAmount ≤ toInt (s.sendDataAmount + 1) ∧ (s.recordIsStart = true →
      s.sendDataAmount + Call.tally s.recording _ ≤
        toInt (s.sendDataAmount + 1) + Call.tally s.recording call)
    rw [hnew, Call.tally, Call.tally, huncounted]
    simp

lemma Accounts.matched (h : Accounts s) {i : ℕ} {call : Call} (hcall : s.calls[i]? = some call)
    (hstage : call.stage = .matching)
    (hcounted : s.recordIsStart = true → call.counted = some s.recording) (latency : ℤ) :
    Accounts (s.setCall i
      { call with
        stage := if s.recordIsStart then .adding else .unrecorded
        latency := latency }) := by
  have hrange := (h.call call (List.mem_of_getElem? hcall)).counted
  cases hon : s.recordIsStart with
  | true =>
    refine h.setCall hcall rfl ?_ ?_
    · constructor <;> simp_all
    · intro _
      simp [Call.share, hstage, CallStage.returned]
  | false =>
    refine h.setCall hcall rfl ?_ ?_
    · constructor <;> simp_all
    · intro hon'
      cases hon.symm.trans hon'

lemma Accounts.add (h : Accounts s) {i : ℕ} {call : Call} (hcall : s.calls[i]? = some call)
    (hstage : call.stage = .adding) (hlow : -2 ^ 31 ≤ s.latencySum + call.latency)
    (hhigh : s.latencySum + call.latency < 2 ^ 31) :
    Accounts { s.setCall i { call with stage := .comparingMin } with
      latencySum := toInt (s.latencySum + call.latency) } := by
  have hold := h.call call (List.mem_of_getElem? hcall)
  obtain ⟨hon, hcounted⟩ := hold.adding hstage
  refine h.set hcall rfl rfl rfl ?_ ⟨le_rfl, h.max.2⟩ ?_ ?_ ⟨le_rfl, fun _ => ?_⟩
  · have hcounted' := hold.counted
    constructor <;> simp_all [Recorder.setCall]
  · intro _
    show toInt _ + _ = _
    rw [toInt_eq ⟨hlow, hhigh⟩]
    simp [Call.share, hstage, hcounted, CallStage.returned]
  · intro hoff
    cases hon.symm.trans hoff
  · exact le_rfl

/-- A call goes on behind the sum, and is not at the end yet. -/
lemma Accounts.goOn (h : Accounts s) {i : ℕ} {call : Call} {stage : CallStage}
    (hcall : s.calls[i]? = some call) (hadded : call.stage = .comparingMin ∨
      call.stage = .storingMin ∨ call.stage = .comparingMax)
    (hstage : stage = .storingMin ∨ stage = .comparingMax ∨ stage = .storingMax) :
    Accounts (s.setCall i { call with stage := stage }) := by
  have hrange := (h.call call (List.mem_of_getElem? hcall)).counted
  refine h.setCall hcall rfl ?_ ?_
  · rcases hstage with rfl | rfl | rfl <;> constructor <;> simp_all
  · intro _
    rcases hstage with rfl | rfl | rfl <;> rcases hadded with hadded | hadded | hadded <;>
      simp [Call.share, hadded, CallStage.returned]

/-- A call is at its end, and its latency is not above the maximum. -/
lemma Accounts.finish (h : Accounts s) {i : ℕ} {call : Call} (hcall : s.calls[i]? = some call)
    (hstage : call.stage = .comparingMax ∨ call.stage = .storingMax) {latencyMax : ℤ}
    (hmax : s.latencyMax ≤ latencyMax ∧ latencyMax < 2 ^ 31)
    (hlatency : call.latency ≤ latencyMax) :
    Accounts { s.setCall i { call with stage := .recorded } with latencyMax := latencyMax } := by
  have hrange := (h.call call (List.mem_of_getElem? hcall)).counted
  refine h.set hcall rfl rfl rfl ?_ hmax ?_ (fun _ => rfl) ⟨le_rfl, fun _ => le_rfl⟩
  · constructor <;> simp_all [Recorder.setCall]
  · intro _
    rcases hstage with hstage | hstage <;>
      simp [Call.share, hstage, CallStage.returned, Recorder.setCall]

/-- **A step of a call keeps the accounts.** -/
lemma Accounts.callStep (h : Accounts s) {i : ℕ} {call : Call} {action : CallAction}
    (hcall : s.calls[i]? = some call) (hG : s.undisturbed call action = true)
    (hstep : s.callStep i call action = some s') : Accounts s' := by
  cases action with
  | count =>
    obtain ⟨hstage, hstep⟩ := (Option.ite_none_right_eq_some.1 hstep)
    cases hstep
    exact h.count hcall hstage (by simpa [Recorder.undisturbed] using hG)
  | matched latency =>
    obtain ⟨hstage, hstep⟩ := (Option.ite_none_right_eq_some.1 hstep)
    cases hstep
    refine h.matched hcall hstage (fun hon => ?_) latency
    simpa [Recorder.undisturbed, hon] using hG
  | add =>
    obtain ⟨hstage, hstep⟩ := (Option.ite_none_right_eq_some.1 hstep)
    cases hstep
    simp only [Recorder.undisturbed, Bool.and_eq_true, decide_eq_true_eq] at hG
    exact h.add hcall hstage hG.1 hG.2
  | compareMin =>
    obtain ⟨hstage, hstep⟩ := (Option.ite_none_right_eq_some.1 hstep)
    cases hstep
    refine h.goOn hcall (Or.inl hstage) ?_
    split_ifs <;> simp
  | storeMin =>
    obtain ⟨hstage, hstep⟩ := (Option.ite_none_right_eq_some.1 hstep)
    cases hstep
    have hnext := h.goOn hcall (Or.inr (Or.inl hstage)) (Or.inr (Or.inl rfl))
    exact hnext.congr rfl rfl rfl rfl rfl rfl
  | compareMax =>
    obtain ⟨hstage, hstep⟩ := (Option.ite_none_right_eq_some.1 hstep)
    cases hstep
    split_ifs with hlatency
    · exact h.goOn hcall (Or.inr (Or.inr hstage)) (Or.inr (Or.inr rfl))
    · exact h.finish hcall (Or.inl hstage) ⟨le_rfl, h.max.2⟩ (not_lt.1 hlatency)
  | storeMax =>
    obtain ⟨hstage, hstep⟩ := (Option.ite_none_right_eq_some.1 hstep)
    cases hstep
    simp only [Recorder.undisturbed, Bool.and_eq_true, decide_eq_true_eq] at hG
    have hlow := h.max.1
    have hnew : toInt call.latency = call.latency := toInt_eq ⟨by omega, hG.2⟩
    rw [hnew]
    exact h.finish hcall (Or.inr hstage) hG le_rfl

/-! ### Requests and new calls -/

lemma Accounts.open (h : Accounts s) (hoff : s.recordIsStart = false) : Accounts s.opened := by
  -- no call was counted in the new recording, so that none has a share in it
  have hnew : ∀ call ∈ s.calls, call.counted ≠ some (s.recording + 1) := by
    intro call hcall hcounted
    exact absurd ((h.call call hcall).counted _ hcounted) (by omega)
  have hzero (f : ℕ → Call → ℤ)
      (hf : ∀ call ∈ s.calls, f (s.recording + 1) call = 0) :
      (s.calls.map (f (s.recording + 1))).sum = 0 := by
    refine List.sum_eq_zero fun x hx => ?_
    obtain ⟨call, hcall, rfl⟩ := List.mem_map.1 hx
    exact hf call hcall
  refine ⟨fun call hcall => ?_, h.max, ?_, h.amount.1, fun _ => ?_⟩
  · have hold := h.call call hcall
    constructor
    · intro r hr
      exact Nat.le_succ_of_le (hold.counted r hr)
    · exact fun hstage => ⟨rfl, (hold.counting hstage).2⟩
    · intro hstage
      cases hoff.symm.trans (hold.adding hstage).1
    · intro _ hcounted
      exact absurd hcounted (hnew call hcall)
    · intro _ hcounted
      exact absurd hcounted (hnew call hcall)
  · have hsum := h.sum
    rw [hoff, if_neg (by decide)] at hsum
    have hshare : (s.calls.map (Call.share (s.recording + 1))).sum = 0 :=
      hzero Call.share fun call hcall => if_neg fun hcond => hnew call hcall hcond.1
    exact hsum.trans hshare.symm
  · have htally : (s.calls.map (Call.tally (s.recording + 1))).sum = 0 :=
      hzero Call.tally fun call hcall => if_neg (hnew call hcall)
    show (s.calls.map (Call.tally (s.recording + 1))).sum ≤ s.sendDataAmount
    rw [htally]
    exact h.amount.1

lemma Accounts.close (h : Accounts s)
    (hapart : ∀ call ∈ s.calls, call.stage ≠ .counting ∧ call.stage ≠ .adding) :
    Accounts s.closed := by
  refine ⟨fun call hcall => ?_, ⟨le_rfl, by norm_num [Recorder.closed]⟩, rfl, le_rfl, ?_⟩
  · have hold := h.call call hcall
    constructor
    · exact hold.counted
    · -- a call that is about to be counted would be counted for the next recording
      intro hstage
      exact absurd hstage (hapart call hcall).1
    · -- a call that is about to add would do so after the sum is reset
      intro hstage
      exact absurd hstage (hapart call hcall).2
    · intro hon
      cases hon
    · intro hon
      cases hon
  · intro hon
    cases hon

lemma Accounts.placeOrder (h : Accounts s) : Accounts { s with
    calls := s.calls ++ [{ stage := if s.recordIsStart then .counting else .matching }] } := by
  refine ⟨fun call hcall => ?_, h.max, ?_, h.amount.1, fun hon => ?_⟩
  · rcases List.mem_append.1 hcall with hcall | hcall
    · exact (h.call call hcall).mono rfl rfl le_rfl
    · rw [List.mem_singleton.1 hcall]
      constructor <;> simp
      split_ifs <;> simp
  · have hold := h.sum
    have hnew (stage : CallStage) : Call.share s.recording { stage := stage } = 0 :=
      if_neg (by simp)
    simp only [List.map_append, List.sum_append, List.map_singleton, List.sum_singleton, hnew,
      add_zero]
    exact hold
  · have hold := h.amount.2 hon
    have hnew (stage : CallStage) : Call.tally s.recording { stage := stage } = 0 :=
      if_neg (by simp)
    simp only [List.map_append, List.sum_append, List.map_singleton, List.sum_singleton, hnew,
      add_zero]
    exact hold

/-- A tracker touches none of this. -/
lemma Accounts.trackerStep (h : Accounts s) {i : ℕ} {tracker : Tracker} {action : TrackerAction}
    (hstep : s.trackerStep i tracker action = some s') : Accounts s' := by
  cases action with
  | start =>
    obtain ⟨-, hstep⟩ := Option.ite_none_right_eq_some.1 hstep
    cases hstep
    exact h.congr rfl rfl rfl rfl rfl rfl
  | check =>
    obtain ⟨-, hstep⟩ := Option.ite_none_right_eq_some.1 hstep
    cases hstep
    exact h.congr rfl rfl rfl rfl rfl rfl
  | tick elapsed =>
    obtain ⟨-, hstep⟩ := Option.ite_none_right_eq_some.1 hstep
    cases hstep
    cases elapsed <;> exact h.congr rfl rfl rfl rfl rfl rfl

/-- **A step keeps the accounts.** -/
theorem Accounts.step {e : Event} (h : Accounts s) (hG : Undisturbed s e)
    (hstep : s.step e = some s') : Accounts s' := by
  cases e with
  | managerStart =>
    cases hstep
    split_ifs with hon
    · exact h
    · exact h.open (by simpa using hon)
  | managerEnd =>
    cases hstep
    split_ifs with hon
    · exact h.close (hG hon)
    · exact h
  | tracker i action =>
    obtain ⟨tracker, -, hstep⟩ := Option.bind_eq_some_iff.1 hstep
    exact h.trackerStep hstep
  | placeOrder =>
    cases hstep
    exact h.placeOrder
  | call i action =>
    obtain ⟨call, hcall, hstep⟩ := Option.bind_eq_some_iff.1 hstep
    exact h.callStep hcall (hG call hcall) hstep
  | matchResult =>
    rw [Recorder.step] at hstep
    split_ifs at hstep
    cases hstep
    exact h.congr rfl rfl rfl rfl rfl rfl
  | receive =>
    obtain ⟨-, hstep⟩ := Option.ite_none_right_eq_some.1 hstep
    cases hstep
    exact h.congr rfl rfl rfl rfl rfl rfl

/-- No call is between the two ends of its update. -/
def Quiet (s : Recorder) : Prop := ∀ call ∈ s.calls, call.stage.updating = false

instance (s : Recorder) : Decidable (Quiet s) := inferInstanceAs (Decidable (∀ _ ∈ _, _))

end TradingEngine.OrderManager.Recording
