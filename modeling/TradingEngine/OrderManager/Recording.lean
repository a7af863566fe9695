/-
The statistics of the order manager (`order_manager.cc`).

`StartEndManager` opens and closes a recording; a request is one step.  Each recording has a
thread of its own (`RecordTracker`) that appends to three lists, and the calls of `PlaceOrder`
read the flag before and after the match engine is asked, on the threads of the server; what a
thread does to one atomic variable is a step.  What is only logged is left out.

The number of a recording, of what its tracker appends and of the calls that are counted for it,
is not a part of the program.
-/
import TradingEngine.Common.Protobuf
import TradingEngine.Lib.Machine

namespace TradingEngine.OrderManager.Recording

open Lib

/-- An element of a list, with the recording and the number of the round that appended it. -/
structure Entry where
  value : ℤ
  recording : ℕ
  round : ℕ
  deriving DecidableEq

/-- The recording and the round in which an entry was appended. -/
def Entry.stamp (entry : Entry) : ℕ × ℕ := (entry.recording, entry.round)

/-- The places of a tracker thread. -/
inductive TrackerStage
  | starting
  /-- Before `record_is_start_` is read. -/
  | checking
  | looping
  | ended
  deriving DecidableEq

/-- The thread of `RecordTracker`. -/
structure Tracker where
  recording : ℕ
  stage : TrackerStage := .starting
  rounds : ℕ := 0
  sendDataAmountBefore : ℤ := 0
  receiveDataAmountBefore : ℤ := 0
  latencySumBefore : ℤ := 0
  deriving DecidableEq

/-- Where a call of `PlaceOrder` is. -/
inductive CallStage
  /-- Before `send_data_amount_ += 1`. -/
  | counting
  /-- `Match` is called. -/
  | matching
  /-- Before `latency_sum_ += latency.count()`. -/
  | adding
  | comparingMin
  | storingMin
  | comparingMax
  | storingMax
  | recorded
  /-- The flag was not set when `Match` returned. -/
  | unrecorded
  deriving DecidableEq

/-- A call of `PlaceOrder`, with the recording for which it was counted. -/
structure Call where
  stage : CallStage
  counted : Option ℕ := none
  latency : ℤ := 0
  deriving DecidableEq

/-- The members of `OrderManagerService` that a recording uses, with the threads that use them. -/
structure Recorder where
  recordIsStart : Bool := false
  sendDataAmount : ℤ := 0
  receiveDataAmount : ℤ := 0
  latencySum : ℤ := 0
  latencyMax : ℤ := 0
  latencyMin : ℤ := 100000
  sendDataList : List Entry := []
  receiveDataList : List Entry := []
  latencyList : List Entry := []
  recording : ℕ := 0
  trackers : List Tracker := []
  calls : List Call := []
  /-- `HandleMatchResult` has found the flag set. -/
  receiving : Bool := false
  deriving DecidableEq

/-- What a tracker thread does next. -/
inductive TrackerAction
  | start
  | check
  /-- A round, in which the interval has passed or not. -/
  | tick (elapsed : Bool)
  deriving DecidableEq

/-- What a call of `PlaceOrder` does next, one access to a shared member at a time. -/
inductive CallAction
  | count
  /-- `Match` returns, and the flag is read again. -/
  | matched (latency : ℤ)
  | add
  | compareMin
  | storeMin
  | compareMax
  | storeMax
  deriving DecidableEq

/-- A request, a step of a tracker thread, of a call or of the thread that reads trades. -/
inductive Event
  /-- The requests `MANAGER_START` and `MANAGER_END`. -/
  | managerStart
  | managerEnd
  | tracker (i : ℕ) (action : TrackerAction)
  /-- A call of `PlaceOrder`, up to the first reading of the flag. -/
  | placeOrder
  | call (i : ℕ) (action : CallAction)
  /-- A trade arrives, up to the reading of the flag. -/
  | matchResult
  | receive
  deriving DecidableEq

namespace Recorder

/-! ### `RecordTracker` -/

/-- A tracker appends to the three lists. -/
def append (s : Recorder) (i : ℕ) (tracker : Tracker) (send receive latency : ℤ) : Recorder :=
  { s with
    sendDataList := s.sendDataList ++ [⟨send, tracker.recording, tracker.rounds⟩]
    receiveDataList := s.receiveDataList ++ [⟨receive, tracker.recording, tracker.rounds⟩]
    latencyList := s.latencyList ++ [⟨latency, tracker.recording, tracker.rounds⟩]
    trackers := s.trackers.set i
      { tracker with
        stage := .checking
        rounds := tracker.rounds + 1 } }

/-- The body of the loop, when the interval has passed. -/
def tick (s : Recorder) (i : ℕ) (tracker : Tracker) : Recorder :=
  let sendDataNow := s.sendDataAmount - tracker.sendDataAmountBefore
  let receiveDataNow := s.receiveDataAmount - tracker.receiveDataAmountBefore
  let latencySumNow := s.latencySum - tracker.latencySumBefore
  s.append i
    { tracker with
      sendDataAmountBefore := tracker.sendDataAmountBefore + sendDataNow
      receiveDataAmountBefore := tracker.receiveDataAmountBefore + receiveDataNow
      latencySumBefore := tracker.latencySumBefore + latencySumNow }
    sendDataNow receiveDataNow
    (if sendDataNow ≠ 0 then latencySumNow.tdiv sendDataNow else 0)

/-- A step of a tracker thread, where it is possible. -/
def trackerStep (s : Recorder) (i : ℕ) (tracker : Tracker) : TrackerAction → Option Recorder
  | .start => if tracker.stage = .starting then some (s.append i tracker 0 0 0) else none
  | .check =>
    if tracker.stage = .checking then
      some { s with
        trackers := s.trackers.set i
          { tracker with stage := if s.recordIsStart then .looping else .ended } }
    else none
  | .tick elapsed =>
    if tracker.stage = .looping then
      some (if elapsed then s.tick i tracker
        else { s with trackers := s.trackers.set i { tracker with stage := .checking } })
    else none

/-! ### `PlaceOrder` -/

/-- The call at `i` is another one. -/
def setCall (s : Recorder) (i : ℕ) (call : Call) : Recorder :=
  { s with calls := s.calls.set i call }

/-- The recording that `send_data_amount_` counts for: after `MANAGER_END` the next one. -/
def countedIn (s : Recorder) : ℕ := if s.recordIsStart then s.recording else s.recording + 1

/-- A step of a call of `PlaceOrder`. -/
def callStep (s : Recorder) (i : ℕ) (call : Call) : CallAction → Option Recorder
  | .count =>
    if call.stage = .counting then
      some { s.setCall i { call with stage := .matching, counted := some s.countedIn } with
        sendDataAmount := toInt (s.sendDataAmount + 1) }
    else none
  | .matched latency =>
    if call.stage = .matching then
      some (s.setCall i
        { call with
          stage := if s.recordIsStart then .adding else .unrecorded
          latency := latency })
    else none
  | .add =>
    if call.stage = .adding then
      some { s.setCall i { call with stage := .comparingMin } with
        latencySum := toInt (s.latencySum + call.latency) }
    else none
  | .compareMin =>
    if call.stage = .comparingMin then
      some (s.setCall i
        { call with
          stage := if call.latency < s.latencyMin ∧ 0 ≤ call.latency then .storingMin
            else .comparingMax })
    else none
  | .storeMin =>
    if call.stage = .storingMin then
      some { s.setCall i { call with stage := .comparingMax } with
        latencyMin := toInt call.latency }
    else none
  | .compareMax =>
    if call.stage = .comparingMax then
      some (s.setCall i
        { call with stage := if s.latencyMax < call.latency then .storingMax else .recorded })
    else none
  | .storeMax =>
    if call.stage = .storingMax then
      some { s.setCall i { call with stage := .recorded } with
        latencyMax := toInt call.latency }
    else none

/-! ### `StartEndManager` -/

/-- `MANAGER_START` when the recording is not open. -/
def opened (s : Recorder) : Recorder :=
  { s with
    recordIsStart := true
    recording := s.recording + 1
    trackers := s.trackers ++ [{ recording := s.recording + 1 }] }

/-- `MANAGER_END` when the recording is open: what becomes of the variables. -/
def closed (s : Recorder) : Recorder :=
  { s with
    recordIsStart := false
    sendDataAmount := 0
    receiveDataAmount := 0
    latencySum := 0
    latencyMax := 0
    latencyMin := 100000
    sendDataList := []
    receiveDataList := [] }

/-- A step, where it is possible. -/
def step (s : Recorder) : Event → Option Recorder
  | .managerStart => some (if s.recordIsStart then s else s.opened)
  | .managerEnd => some (if s.recordIsStart then s.closed else s)
  | .tracker i action => s.trackers[i]?.bind fun tracker => s.trackerStep i tracker action
  | .placeOrder =>
    some { s with
      calls := s.calls ++ [{ stage := if s.recordIsStart then .counting else .matching }] }
  | .call i action => s.calls[i]?.bind fun call => s.callStep i call action
  | .matchResult =>
    if s.receiving then none else some { s with receiving := s.recordIsStart }
  | .receive =>
    if s.receiving then
      some { s with
        receiving := false
        receiveDataAmount := toInt (s.receiveDataAmount + 1) }
    else none

end Recorder

/-- The service, from its start on. -/
def recorder : Machine Recorder Event where
  init := {}
  step := Recorder.step

/-! ### `PrintRecordResult` -/

/-- A row that is printed at the end of a recording. -/
structure Row where
  elapsed : ℤ
  send : Entry
  receive : Entry
  latency : Entry
  deriving DecidableEq

/-- What is written to the file. -/
structure Report where
  managerSend : ℤ
  managerReceive : ℤ
  /-- The average, the maximum and the minimum. -/
  latency : Option (ℤ × ℤ × ℤ)
  rows : List Row
  deriving DecidableEq

/-- A row of the file; `none` if an index does not exist. -/
def Recorder.row (recordTimeInterval : ℤ) (s : Recorder) (i : ℕ) : Option Row := do
  let send ← s.sendDataList[i]?
  let receive ← s.receiveDataList[i]?
  let latency ← s.latencyList[i]?
  return ⟨i * recordTimeInterval, send, receive, latency⟩

/-- `PrintRecordResult`: what it returns and writes. -/
def Recorder.printRecordResult (recordTimeInterval : ℤ) (s : Recorder) :
    Option (ℤ × Option Report) :=
  if s.recordIsStart = false then some (1, none)
  else do
    let rows ← (List.range s.sendDataList.length).mapM (s.row recordTimeInterval)
    return (0, some {
      managerSend := s.sendDataAmount
      managerReceive := s.receiveDataAmount
      latency :=
        if s.sendDataAmount ≠ 0 then
          some (s.latencySum.tdiv s.sendDataAmount, s.latencyMax, s.latencyMin)
        else none
      rows := rows })

end TradingEngine.OrderManager.Recording
