/-
What `PlaceOrder` tells its caller.

`placeOrder` is a whole call, with no other thread in between (`placeOrder_steps`).  The reply
only depends on whether the last row was persisted, and the order stays in the table in any
case, so that the caller is not told when the match engine does not take the order.
-/
import TradingEngine.OrderManager.MatchEngineStub
import TradingEngine.OrderManager.OrderStoreInfluxdb
import TradingEngine.OrderManager.Steps

namespace TradingEngine.OrderManager

/-- The match engine has taken the order. -/
def MatchAnswer.Submitted (answer : MatchAnswer) : Prop :=
  answer.ok = true ∧ answer.status = .statusSuccess

instance (answer : MatchAnswer) : Decidable answer.Submitted :=
  inferInstanceAs (Decidable (_ ∧ _))

namespace OrderManagerService

/-- A call of `PersistOrder` of the order store, which writes the row when it returns 0. -/
def tryPersistOrder (s : OrderManagerService) (persist : Record → ℤ) (record : Record) :
    OrderManagerService × ℤ :=
  (if persist record = 0 then s.persistOrder record else s, persist record)

/-- `PlaceOrder`; test mode is off, and there is a stub, whose `Match` returns `answer`. -/
def placeOrder (s : OrderManagerService) (persist : Record → ℤ) (now : ℤ)
    (request : OrderManagerProto.Order) (answer : MatchAnswer) :
    OrderManagerService × OrderManagerProto.Reply :=
  let (counter, order, matchEngineOrder) := buildOrder now s.counter request
  let s : OrderManagerService := { s with
    counter := counter
    orderIdToOrderStatus := saveOrderStatus s.orderIdToOrderStatus order
    calls := s.calls ++ [⟨order, matchEngineOrder, .persistedResult⟩] }
  let (s, _) := s.tryPersistOrder persist ⟨order, "unsubmitted", 0⟩
  let (s, ret) :=
    if answer.status ≠ MatchEngineProto.Status.statusSuccess ∨ ¬ answer.ok then
      s.tryPersistOrder persist ⟨order, "submission error", 0⟩
    else s.tryPersistOrder persist ⟨order, "submitted", 0⟩
  (s, if 0 = ret then ⟨.success, "order submitted"⟩ else ⟨.failure, "order submission error"⟩)

variable (s : OrderManagerService) (persist : Record → ℤ) (now : ℤ)
  (request : OrderManagerProto.Order) (answer : MatchAnswer)

/-- The order of a call. -/
def orderOf : Order := (buildOrder now s.counter request).2.1

/-- The row that a call ends with. -/
def resultRecord (order : Order) (answer : MatchAnswer) : Record where
  order := order
  status := if answer.Submitted then "submitted" else "submission error"
  concludedAmount := 0

/-- The service with the order of a call in the table. -/
def withOrder : OrderManagerService :=
  { s with
    counter := s.counter + 1
    orderIdToOrderStatus := saveOrderStatus s.orderIdToOrderStatus (s.orderOf now request)
    calls := s.calls ++
      [⟨s.orderOf now request, (buildOrder now s.counter request).2.2, .persistedResult⟩] }

/-- The service when the first row is written, or not. -/
def withUnsubmitted : OrderManagerService :=
  ((s.withOrder now request).tryPersistOrder persist
    ⟨s.orderOf now request, "unsubmitted", 0⟩).1

lemma placeOrder_eq : s.placeOrder persist now request answer =
    (((s.withUnsubmitted persist now request).tryPersistOrder persist
        (resultRecord (s.orderOf now request) answer)).1,
      if persist (resultRecord (s.orderOf now request) answer) = 0 then
        ⟨.success, "order submitted"⟩
      else ⟨.failure, "order submission error"⟩) := by
  have hanswer : (answer.status ≠ MatchEngineProto.Status.statusSuccess ∨ ¬ answer.ok) ↔
      ¬ answer.Submitted := by
    rw [MatchAnswer.Submitted, not_and_or, or_comm]
  by_cases hsubmitted : answer.Submitted
  · have hneg : ¬ (answer.status ≠ MatchEngineProto.Status.statusSuccess ∨ ¬ answer.ok) :=
      fun h => hanswer.1 h hsubmitted
    simp only [placeOrder, resultRecord, if_neg hneg, if_pos hsubmitted, eq_comm (a := (0 : ℤ))]
    rfl
  · simp only [placeOrder, resultRecord, if_pos (hanswer.2 hsubmitted), if_neg hsubmitted,
      eq_comm (a := (0 : ℤ))]
    rfl

/-- **A call is a sequence of steps** of the service, with a store that writes every row. -/
theorem placeOrder_steps (hpersist : ∀ record, persist record = 0) :
    [.placeOrder now request, .save s.calls.length, .persistUnsubmitted s.calls.length,
      .matchEngine s.calls.length answer.Submitted, .persistResult s.calls.length].foldlM step s =
      some (s.placeOrder persist now request answer).1 := by
  rw [placeOrder_eq]
  simp [step, setStage, persistOrder, tryPersistOrder, hpersist, resultRecord, withUnsubmitted,
    withOrder, orderOf, buildOrder]

/-- The store in the database writes every row, whatever the database answers. -/
theorem placeOrder_steps_database (db : DatabaseInterface.InfluxDB)
    (reply : DatabaseInterface.Reply) :
    [.placeOrder now request, .save s.calls.length, .persistUnsubmitted s.calls.length,
      .matchEngine s.calls.length answer.Submitted, .persistResult s.calls.length].foldlM step s =
      some (s.placeOrder (Record.persist db reply) now request answer).1 :=
  s.placeOrder_steps _ now request answer (Record.persist_eq_zero db reply)

@[simp] lemma tryPersistOrder_statusMap (record : Record) :
    (s.tryPersistOrder persist record).1.orderIdToOrderStatus = s.orderIdToOrderStatus := by
  unfold tryPersistOrder
  split_ifs <;> rfl

/-- The order of a call is in the table after it, whatever happens. -/
lemma placeOrder_statusMap : (s.placeOrder persist now request answer).1.orderIdToOrderStatus =
    saveOrderStatus s.orderIdToOrderStatus (s.orderOf now request) := by
  rw [placeOrder_eq, tryPersistOrder_statusMap, withUnsubmitted, tryPersistOrder_statusMap]
  rfl

lemma placeOrder_success : (s.placeOrder persist now request answer).2.errorCode = .success ↔
    persist (resultRecord (s.orderOf now request) answer) = 0 := by
  rw [placeOrder_eq]
  split_ifs with h <;> simp [h]

end OrderManagerService

/-- Saving an order changes nothing if it is in the table already. -/
lemma saveOrderStatus_eq_self_iff {statusMap : OrderStatusMap} {order : Order} :
    saveOrderStatus statusMap order = statusMap ↔ statusMap order.orderId = some ⟨order, 0⟩ := by
  constructor
  · intro h
    rw [← h]
    exact if_pos rfl
  · intro h
    ext1 id
    unfold saveOrderStatus
    split_ifs with hid
    · rw [hid, h]
    · rfl

/-- The caller is told the truth: success means that the match engine has taken the order and
that the row that says so is written; an order that is not taken is answered with a failure and
leaves nothing in the table. -/
structure Truthful (s : OrderManagerService) (order : Order) (answer : MatchAnswer)
    (result : OrderManagerService × OrderManagerProto.Reply) : Prop where
  success : result.2.errorCode = .success →
    answer.Submitted ∧ result.1.lastRecord order.orderId = some ⟨order, "submitted", 0⟩
  failure : ¬ answer.Submitted →
    result.2.errorCode = .failure ∧ result.1.orderIdToOrderStatus = s.orderIdToOrderStatus

/-- **The caller is told the truth** if and only if the match engine takes the order, or else
neither the row that says so can be written nor saving the order has changed the table. -/
theorem placeOrder_truthful_iff (s : OrderManagerService) (persist : Record → ℤ) (now : ℤ)
    (request : OrderManagerProto.Order) (answer : MatchAnswer) :
    Truthful s (s.orderOf now request) answer (s.placeOrder persist now request answer) ↔
      answer.Submitted ∨
        persist ⟨s.orderOf now request, "submission error", 0⟩ ≠ 0 ∧
          s.orderIdToOrderStatus (s.orderOf now request).orderId =
            some ⟨s.orderOf now request, 0⟩ := by
  by_cases hsubmitted : answer.Submitted
  · have hrecord : OrderManagerService.resultRecord (s.orderOf now request) answer =
        ⟨s.orderOf now request, "submitted", 0⟩ := by
      rw [OrderManagerService.resultRecord, if_pos hsubmitted]
    refine iff_of_true ⟨?_, fun h => absurd hsubmitted h⟩ (Or.inl hsubmitted)
    intro hsuccess
    rw [OrderManagerService.placeOrder_success, hrecord] at hsuccess
    refine ⟨hsubmitted, ?_⟩
    rw [OrderManagerService.placeOrder_eq, hrecord, OrderManagerService.tryPersistOrder,
      if_pos hsuccess, OrderManagerService.lastRecord_persistOrder]
    exact if_pos rfl
  · have hrecord : OrderManagerService.resultRecord (s.orderOf now request) answer =
        ⟨s.orderOf now request, "submission error", 0⟩ := by
      rw [OrderManagerService.resultRecord, if_neg hsubmitted]
    have hsuccess := s.placeOrder_success persist now request answer
    rw [hrecord] at hsuccess
    rw [← saveOrderStatus_eq_self_iff, ← s.placeOrder_statusMap persist now request answer]
    constructor
    · intro h
      obtain ⟨hfailure, hmap⟩ := h.failure hsubmitted
      refine Or.inr ⟨fun hpersist => ?_, hmap⟩
      rw [hsuccess.2 hpersist] at hfailure
      cases hfailure
    · rintro (h | ⟨hpersist, hmap⟩)
      · exact absurd h hsubmitted
      · refine ⟨fun h => absurd (hsuccess.1 h) hpersist, fun _ => ⟨?_, hmap⟩⟩
        rw [OrderManagerService.placeOrder_eq, hrecord, if_neg hpersist]

/-- An order for one share of symbol 3. -/
def exampleRequest : OrderManagerProto.Order :=
  ⟨.ofInt 3, .ofInt 7, .tradingBuy, .ofInt 1, .ofInt 50⟩

/-- The one stub of the match engine, which is closed. -/
def closedEngine (_ : Unit) (_ : MatchEngineProto.Order) : MatchAnswer := ⟨false, .statusUnknown⟩

/-- The engine is closed, and the caller is told that the order was submitted. -/
theorem not_placeOrder_truthful : ¬ ∀ (s : OrderManagerService) (persist : Record → ℤ)
    (now : ℤ) (request : OrderManagerProto.Order) (answer : MatchAnswer),
    Truthful s (s.orderOf now request) answer (s.placeOrder persist now request answer) := by
  intro hall
  have h := hall {} (fun _ => 0) 1594020376000 exampleRequest
    (stubMatch closedEngine [()] 0 (buildOrder 1594020376000 0 exampleRequest).2.2).1
  have hsubmitted := (h.success (by decide)).1
  revert hsubmitted
  decide

end TradingEngine.OrderManager
