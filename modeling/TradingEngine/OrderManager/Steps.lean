/-
What the steps of the order manager do.

`Step` spells out the seven kinds of steps, `handleMatchResult_apply` the critical section
for one order, and `CallsOk` says that the calls of `PlaceOrder` have the ids 1, 2, 3, ….
-/
import TradingEngine.OrderManager.OrderManager

namespace TradingEngine.OrderManager

namespace OrderManagerService

variable {s s' : OrderManagerService}

@[simp] lemma setStage_calls (s : OrderManagerService) (i : ℕ) (call : PlaceOrderCall)
    (stage : PlaceOrderStage) :
    (s.setStage i call stage).calls = s.calls.set i { call with stage := stage } := rfl

/-- The row that is written last is the last one of its order. -/
lemma lastRecord_persistOrder (s : OrderManagerService) (record : Record) (id : ℤ) :
    (s.persistOrder record).lastRecord id =
      if record.order.orderId = id then some record else s.lastRecord id := by
  by_cases h : record.order.orderId = id <;> simp [lastRecord, persistOrder, h]

/-- The steps of the order manager. -/
inductive Step (s : OrderManagerService) : Event → OrderManagerService → Prop
  | placeOrder (now : ℤ) (request : OrderManagerProto.Order) :
      Step s (.placeOrder now request) { s with
        counter := s.counter + 1
        calls := s.calls ++ [⟨(buildOrder now s.counter request).2.1,
          (buildOrder now s.counter request).2.2, .built⟩] }
  | save {i : ℕ} {call : PlaceOrderCall} (h : s.calls[i]? = some call)
      (hstage : call.stage = .built) :
      Step s (.save i) { s.setStage i call .saved with
        orderIdToOrderStatus := saveOrderStatus s.orderIdToOrderStatus call.order }
  | persistUnsubmitted {i : ℕ} {call : PlaceOrderCall} (h : s.calls[i]? = some call)
      (hstage : call.stage = .saved) :
      Step s (.persistUnsubmitted i)
        ((s.setStage i call .persistedUnsubmitted).persistOrder ⟨call.order, "unsubmitted", 0⟩)
  | matchEngine {i : ℕ} {call : PlaceOrderCall} (success : Bool) (h : s.calls[i]? = some call)
      (hstage : call.stage = .persistedUnsubmitted) :
      Step s (.matchEngine i success) (s.setStage i call (.matched success))
  | persistResult {i : ℕ} {call : PlaceOrderCall} {success : Bool}
      (h : s.calls[i]? = some call) (hstage : call.stage = .matched success) :
      Step s (.persistResult i) ((s.setStage i call .persistedResult).persistOrder
        ⟨call.order, if success then "submitted" else "submission error", 0⟩)
  | receive (trade : MatchEngineProto.Trade) (h : s.handling = none) :
      Step s (.receive trade) { s with
        orderIdToOrderStatus := (handleMatchResult s.orderIdToOrderStatus trade).1
        handling := if (handleMatchResult s.orderIdToOrderStatus trade).2 = [] then none
          else some (trade, (handleMatchResult s.orderIdToOrderStatus trade).2) }
  | persistTrade {trade : MatchEngineProto.Trade} {record : Record} {records : List Record}
      (h : s.handling = some (trade, record :: records)) :
      Step s .persistTrade { s.persistOrder record with
        handling := if records = [] then none else some (trade, records) }

/-- **The steps are these.** -/
theorem step_spec {e : Event} (h : s.step e = some s') : Step s e s' := by
  cases e with
  | placeOrder now request =>
    obtain rfl := Option.some.inj h
    exact .placeOrder now request
  | save i =>
    simp only [step] at h
    split at h
    · rename_i call hcall
      split_ifs at h with hstage
      obtain rfl := Option.some.inj h
      exact .save hcall hstage
    · cases h
  | persistUnsubmitted i =>
    simp only [step] at h
    split at h
    · rename_i call hcall
      split_ifs at h with hstage
      obtain rfl := Option.some.inj h
      exact .persistUnsubmitted hcall hstage
    · cases h
  | matchEngine i success =>
    simp only [step] at h
    split at h
    · rename_i call hcall
      split_ifs at h with hstage
      obtain rfl := Option.some.inj h
      exact .matchEngine success hcall hstage
    · cases h
  | persistResult i =>
    simp only [step] at h
    split at h
    · rename_i call hcall
      split at h
      · rename_i success hstage
        obtain rfl := Option.some.inj h
        exact .persistResult hcall hstage
      · cases h
    · cases h
  | receive trade =>
    simp only [step] at h
    split at h
    · rename_i hhandling
      obtain rfl := Option.some.inj h
      exact .receive trade hhandling
    · cases h
  | persistTrade =>
    simp only [step] at h
    split at h
    · rename_i trade record records hhandling
      obtain rfl := Option.some.inj h
      exact .persistTrade hhandling
    · cases h

end OrderManagerService

/-! ### The critical section -/

/-- What a trade adds to the concluded amount of an order. -/
def concludedBy (trade : MatchEngineProto.Trade) (id : ℤ) : ℤ :=
  (if id = trade.makerId then trade.amount else 0) +
    if id = trade.takerId then trade.amount else 0

/-- The entry of an order to whose concluded amount something is added. -/
def OrderStatus.add (status : OrderStatus) (amount : ℤ) : OrderStatus :=
  { status with concludedAmount := status.concludedAmount + amount }

/-- The whole amount of the order is concluded. -/
def OrderStatus.Concluded (status : OrderStatus) : Prop :=
  status.order.amount ≤ status.concludedAmount

instance (status : OrderStatus) : Decidable status.Concluded :=
  inferInstanceAs (Decidable (_ ≤ _))

lemma addConcluded_apply (statusMap : OrderStatusMap) (orderId amount id : ℤ) :
    addConcluded statusMap orderId amount id =
      (statusMap id).map fun status => status.add (if id = orderId then amount else 0) := by
  unfold addConcluded OrderStatus.add
  split_ifs
  · rfl
  · cases statusMap id <;> simp

lemma addConcluded_both (statusMap : OrderStatusMap) (trade : MatchEngineProto.Trade) (id : ℤ) :
    addConcluded (addConcluded statusMap trade.makerId trade.amount) trade.takerId trade.amount
      id = (statusMap id).map fun status => status.add (concludedBy trade id) := by
  rw [addConcluded_apply, addConcluded_apply, Option.map_map]
  simp only [Function.comp_def, OrderStatus.add, concludedBy, add_assoc]

lemma eraseConcluded_apply (statusMap : OrderStatusMap) (orderId id : ℤ)
    (status : OrderStatus) : eraseConcluded statusMap orderId status id =
      if id = orderId ∧ status.Concluded then none else statusMap id := by
  unfold eraseConcluded OrderStatus.Concluded
  by_cases h : status.order.amount ≤ status.concludedAmount <;> by_cases hid : id = orderId <;>
    simp [h, hid]

/-- **The critical section**, when both orders are in the table: what the trade adds to an
order, which of the two leave the table, and the rows that are persisted. -/
theorem handleMatchResult_spec {statusMap : OrderStatusMap} {trade : MatchEngineProto.Trade}
    {maker taker : OrderStatus} (hm : statusMap trade.makerId = some maker)
    (ht : statusMap trade.takerId = some taker) :
    (∀ id, (handleMatchResult statusMap trade).1 id =
      (statusMap id).bind fun status =>
        if (id = trade.makerId ∨ id = trade.takerId) ∧
          (status.add (concludedBy trade id)).Concluded then none
        else some (status.add (concludedBy trade id))) ∧
    (handleMatchResult statusMap trade).2 =
      [tradeRecord (maker.add (concludedBy trade trade.makerId)),
        tradeRecord (taker.add (concludedBy trade trade.takerId))] := by
  have hboth : (statusMap trade.makerId).isSome ∧ (statusMap trade.takerId).isSome := by
    simp [hm, ht]
  have heq : handleMatchResult statusMap trade =
      (eraseConcluded (eraseConcluded
          (addConcluded (addConcluded statusMap trade.makerId trade.amount) trade.takerId
            trade.amount)
          trade.makerId (maker.add (concludedBy trade trade.makerId)))
        trade.takerId (taker.add (concludedBy trade trade.takerId)),
      [tradeRecord (maker.add (concludedBy trade trade.makerId)),
        tradeRecord (taker.add (concludedBy trade trade.takerId))]) := by
    rw [handleMatchResult, if_pos hboth]
    simp only [addConcluded_both, hm, ht, Option.map_some]
  rw [heq]
  refine ⟨fun id => ?_, rfl⟩
  dsimp only
  rw [eraseConcluded_apply, eraseConcluded_apply, addConcluded_both]
  by_cases hmaker : id = trade.makerId
  · subst hmaker
    rw [hm, Option.map_some, Option.bind_some]
    by_cases htaker : trade.makerId = trade.takerId
    · obtain rfl : maker = taker := by
        rw [htaker, ht, Option.some.injEq] at hm
        exact hm.symm
      rw [← htaker]
      split_ifs <;> simp_all
    · split_ifs <;> simp_all
  · by_cases htaker : id = trade.takerId
    · subst htaker
      rw [ht, Option.map_some, Option.bind_some]
      split_ifs <;> simp_all
    · cases statusMap id <;> simp [hmaker, htaker]

/-- Without an entry for both orders nothing happens. -/
lemma handleMatchResult_of_none {statusMap : OrderStatusMap} {trade : MatchEngineProto.Trade}
    (h : statusMap trade.makerId = none ∨ statusMap trade.takerId = none) :
    handleMatchResult statusMap trade = (statusMap, []) := by
  rw [handleMatchResult, if_neg]
  rcases h with h | h <;> simp [h]

/-- A trade leaves the entries of other orders alone. -/
lemma handleMatchResult_other {statusMap : OrderStatusMap} {trade : MatchEngineProto.Trade}
    {id : ℤ} (hm : id ≠ trade.makerId) (ht : id ≠ trade.takerId) :
    (handleMatchResult statusMap trade).1 id = statusMap id := by
  cases hmaker : statusMap trade.makerId with
  | none => rw [handleMatchResult_of_none (Or.inl hmaker)]
  | some maker =>
    cases htaker : statusMap trade.takerId with
    | none => rw [handleMatchResult_of_none (Or.inr htaker)]
    | some taker =>
      rw [(handleMatchResult_spec hmaker htaker).1]
      cases hstatus : statusMap id <;> simp [hm, ht, concludedBy, OrderStatus.add]

/-- An entry after a trade is that of an order that was in the table. -/
lemma handleMatchResult_order {statusMap : OrderStatusMap} {trade : MatchEngineProto.Trade}
    {id : ℤ} {status : OrderStatus} (h : (handleMatchResult statusMap trade).1 id = some status) :
    ∃ old, statusMap id = some old ∧ status.order = old.order := by
  cases hmaker : statusMap trade.makerId with
  | none =>
    rw [handleMatchResult_of_none (Or.inl hmaker)] at h
    exact ⟨status, h, rfl⟩
  | some maker =>
    cases htaker : statusMap trade.takerId with
    | none =>
      rw [handleMatchResult_of_none (Or.inr htaker)] at h
      exact ⟨status, h, rfl⟩
    | some taker =>
      rw [(handleMatchResult_spec hmaker htaker).1, Option.bind_eq_some_iff] at h
      obtain ⟨old, hold, h⟩ := h
      split_ifs at h
      rw [← Option.some.inj h]
      exact ⟨old, hold, rfl⟩

lemma concludedBy_of_ne {trade : MatchEngineProto.Trade} {id : ℤ} (hm : id ≠ trade.makerId)
    (ht : id ≠ trade.takerId) : concludedBy trade id = 0 := by
  simp [concludedBy, hm, ht]

@[simp] lemma OrderStatus.add_zero (status : OrderStatus) : status.add 0 = status := by
  simp [OrderStatus.add]

/-- The amounts of the trades of an order. -/
def tradesFor (id : ℤ) (trades : List MatchEngineProto.Trade) : List ℤ :=
  (trades.filter fun t => id = t.makerId ∨ id = t.takerId).map MatchEngineProto.Trade.amount

lemma tradesFor_append (id : ℤ) (trades trades' : List MatchEngineProto.Trade) :
    tradesFor id (trades ++ trades') = tradesFor id trades ++ tradesFor id trades' := by
  simp [tradesFor]

/-! ### The calls of `PlaceOrder` -/

/-- `Match` has reached the match engine. -/
def PlaceOrderStage.reached : PlaceOrderStage → Bool
  | .built => false
  | .saved => false
  | .persistedUnsubmitted => false
  | .matched _ => true
  | .persistedResult => true

/-- The calls have the ids 1, 2, 3, …, in the order in which they got them. -/
structure CallsOk (s : OrderManagerService) : Prop where
  counter : s.counter = s.calls.length
  ids : ∀ (i : ℕ) (call : PlaceOrderCall), s.calls[i]? = some call →
    call.order.orderId = i + 1 ∧ call.matchEngineOrder.orderId = i + 1

lemma callsOk_init : CallsOk {} := ⟨rfl, by simp⟩

/-- The call at `i` after a call has changed its stage. -/
lemma getElem?_set_stage {s : OrderManagerService} {i j : ℕ} {call call' : PlaceOrderCall}
    {stage : PlaceOrderStage} (h : s.calls[i]? = some call)
    (hj : (s.calls.set i { call with stage := stage })[j]? = some call') :
    (j = i ∧ call' = { call with stage := stage }) ∨ (j ≠ i ∧ s.calls[j]? = some call') := by
  rcases eq_or_ne j i with rfl | hne
  · rw [List.getElem?_set_self (List.getElem?_eq_some_iff.1 h).1] at hj
    exact Or.inl ⟨rfl, (Option.some.inj hj).symm⟩
  · rw [List.getElem?_set_ne hne.symm] at hj
    exact Or.inr ⟨hne, hj⟩

/-- No call has the id, if none has it after a call has changed its stage. -/
lemma ne_of_set_stage {s : OrderManagerService} {i : ℕ} {call : PlaceOrderCall}
    {stage : PlaceOrderStage} {id : ℤ} (h : s.calls[i]? = some call)
    (hid : ∀ call' ∈ s.calls.set i { call with stage := stage }, call'.order.orderId ≠ id) :
    ∀ call' ∈ s.calls, call'.order.orderId ≠ id := by
  intro call' hmem
  obtain ⟨j, hj⟩ := List.mem_iff_getElem?.1 hmem
  rcases eq_or_ne j i with rfl | hne
  · rw [h, Option.some.injEq] at hj
    rw [← hj]
    exact hid { call with stage := stage }
      (List.mem_of_getElem? (List.getElem?_set_self (List.getElem?_eq_some_iff.1 h).1))
  · exact hid call' (List.mem_of_getElem? ((List.getElem?_set_ne hne.symm).trans hj))

/-- The call at `i` after a call has been added. -/
lemma getElem?_concat {l : List PlaceOrderCall} {i : ℕ} {call call' : PlaceOrderCall}
    (h : (l ++ [call])[i]? = some call') : l[i]? = some call' ∨ i = l.length ∧ call' = call := by
  rcases lt_or_ge i l.length with hlt | hge
  · rw [List.getElem?_append_left hlt] at h
    exact Or.inl h
  · have hlen := (List.getElem?_eq_some_iff.1 h).1
    obtain rfl : i = l.length := by
      simp at hlen
      omega
    rw [List.getElem?_concat_length, Option.some.injEq] at h
    exact Or.inr ⟨rfl, h.symm⟩

lemma CallsOk.set_stage {s s' : OrderManagerService} (hok : CallsOk s) {i : ℕ}
    {call : PlaceOrderCall} {stage : PlaceOrderStage} (h : s.calls[i]? = some call)
    (hcounter : s'.counter = s.counter)
    (hcalls : s'.calls = s.calls.set i { call with stage := stage }) : CallsOk s' := by
  refine ⟨by rw [hcounter, hcalls, hok.counter, List.length_set], fun j call' hj => ?_⟩
  rw [hcalls] at hj
  rcases getElem?_set_stage h hj with ⟨rfl, rfl⟩ | ⟨-, hj⟩
  · exact hok.ids _ call h
  · exact hok.ids _ _ hj

/-- Every step keeps the numbering of the calls. -/
lemma CallsOk.step {s s' : OrderManagerService} {e : Event} (hok : CallsOk s)
    (h : s.step e = some s') : CallsOk s' := by
  cases OrderManagerService.step_spec h with
  | placeOrder now request =>
    refine ⟨by simp [hok.counter], fun i call hi => ?_⟩
    rcases getElem?_concat hi with hi | ⟨rfl, rfl⟩
    · exact hok.ids i call hi
    · rw [← hok.counter]
      exact ⟨rfl, rfl⟩
  | save hi _ => exact hok.set_stage hi rfl rfl
  | persistUnsubmitted hi _ => exact hok.set_stage hi rfl rfl
  | matchEngine success hi _ => exact hok.set_stage hi rfl rfl
  | persistResult hi _ => exact hok.set_stage hi rfl rfl
  | receive trade _ => exact ⟨hok.counter, hok.ids⟩
  | persistTrade _ => exact ⟨hok.counter, hok.ids⟩

/-- The next id is a new one. -/
lemma CallsOk.ne_counter {s : OrderManagerService} (hok : CallsOk s) :
    ∀ call ∈ s.calls, call.order.orderId ≠ s.counter + 1 := by
  intro call hmem heq
  obtain ⟨i, hi⟩ := List.mem_iff_getElem?.1 hmem
  have hlt := (List.getElem?_eq_some_iff.1 hi).1
  have hid := (hok.ids i call hi).1
  have hcounter := hok.counter
  omega

/-- Calls with one id are one call. -/
lemma CallsOk.inj {s : OrderManagerService} (hok : CallsOk s) {i j : ℕ}
    {call call' : PlaceOrderCall} (hi : s.calls[i]? = some call)
    (hj : s.calls[j]? = some call') (h : call.order.orderId = call'.order.orderId) : i = j := by
  have h1 := (hok.ids i call hi).1
  have h2 := (hok.ids j call' hj).1
  omega

/-- A call stays, with its order, and `Match` has still reached the match engine if it had. -/
lemma OrderManagerService.call_step {s s' : OrderManagerService} {e : Event}
    (h : s.step e = some s') {i : ℕ} {call : PlaceOrderCall} (hi : s.calls[i]? = some call) :
    ∃ call', s'.calls[i]? = some call' ∧ call'.order = call.order ∧
      (call.stage.reached = true → call'.stage.reached = true) := by
  have hlt := (List.getElem?_eq_some_iff.1 hi).1
  -- a call that goes from one stage to another
  have hset : ∀ {j : ℕ} {callj : PlaceOrderCall} {stage : PlaceOrderStage},
      s.calls[j]? = some callj → (callj.stage.reached = true → stage.reached = true) →
      ∃ call', (s.calls.set j { callj with stage := stage })[i]? = some call' ∧
        call'.order = call.order ∧ (call.stage.reached = true → call'.stage.reached = true) := by
    intro j callj stage hj hstage
    rcases eq_or_ne j i with rfl | hne
    · obtain rfl : callj = call := Option.some.inj (hj.symm.trans hi)
      exact ⟨_, List.getElem?_set_self hlt, rfl, hstage⟩
    · exact ⟨call, (List.getElem?_set_ne hne).trans hi, rfl, id⟩
  cases step_spec h with
  | placeOrder now request => exact ⟨call, (List.getElem?_append_left hlt).trans hi, rfl, id⟩
  | save hj hstage => exact hset hj (by simp [hstage, PlaceOrderStage.reached])
  | persistUnsubmitted hj hstage => exact hset hj (by simp [hstage, PlaceOrderStage.reached])
  | matchEngine success hj hstage => exact hset hj (by simp [PlaceOrderStage.reached])
  | persistResult hj hstage => exact hset hj (by simp [PlaceOrderStage.reached])
  | receive trade _ => exact ⟨call, hi, rfl, id⟩
  | persistTrade _ => exact ⟨call, hi, rfl, id⟩

/-- The entries of the table are those of calls. -/
def EntriesOk (s : OrderManagerService) : Prop :=
  ∀ id status, s.orderIdToOrderStatus id = some status →
    ∃ (i : ℕ) (call : PlaceOrderCall), s.calls[i]? = some call ∧ call.order = status.order ∧
      call.order.orderId = id

lemma EntriesOk.step {s s' : OrderManagerService} {e : Event} (hok : EntriesOk s)
    (h : s.step e = some s') : EntriesOk s' := by
  intro id status hstatus
  -- it is enough to find the order among the calls of the old state
  suffices hold : ∃ (i : ℕ) (call : PlaceOrderCall), s.calls[i]? = some call ∧
      call.order = status.order ∧ call.order.orderId = id by
    obtain ⟨i, call, hi, horder, hid⟩ := hold
    obtain ⟨call', hi', horder', -⟩ := OrderManagerService.call_step h hi
    exact ⟨i, call', hi', horder'.trans horder, by rw [horder', hid]⟩
  cases OrderManagerService.step_spec h with
  | @save i call hi _ =>
    simp only [saveOrderStatus] at hstatus
    split_ifs at hstatus with hid
    · rw [← Option.some.inj hstatus]
      exact ⟨i, call, hi, rfl, hid.symm⟩
    · exact hok id status hstatus
  | receive trade _ =>
    obtain ⟨old, hold, horder⟩ := handleMatchResult_order hstatus
    rw [horder]
    exact hok id old hold
  | _ => exact hok id status hstatus

end TradingEngine.OrderManager
