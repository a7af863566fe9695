/-
The last row of an order.

The thread of `PlaceOrder` that waits for the answer of `Match` and the thread that reads
the trades write rows of the same order, and nothing orders them.  `Consistent` is what the
last row should say; it holds in every state of a run in which the answer is persisted before
the first row of a trade (`consistent_of_resultFirst`).
-/
import TradingEngine.OrderManager.Persistence

namespace TradingEngine.OrderManager

open Lib OrderManagerService

/-- The last row of an order carries the amounts of all its trades that were handled, and
the status of an order with a trade. -/
structure Consistent (s : PersistenceState) : Prop where
  amount : ∀ id record, s.service.lastRecord id = some record →
    record.concludedAmount = (handledAmounts id s).sum
  status : ∀ id, handledAmounts id s ≠ [] →
    ∃ record, s.service.lastRecord id = some record ∧ IsTradeStatus record.status

/-- The answer of `Match` is persisted while the last row of the order is still the one
from before `Match`. -/
def ResultFirst (s : PersistenceState) : Event → Prop
  | .persistResult i => ∀ call ∈ s.service.calls[i]?,
      (s.service.lastRecord call.order.orderId).map Record.status = some "unsubmitted"
  | _ => True

instance (s : PersistenceState) (e : Event) : Decidable (ResultFirst s e) := by
  cases e <;> unfold ResultFirst <;> infer_instance

/-! ### The invariant of the rows -/

/-- What is known of the last row of a call. -/
structure RowInv (call : PlaceOrderCall) (last : Option Record) (handled : List ℤ) : Prop where
  last_none : call.stage = .built ∨ call.stage = .saved → last = none
  last_some : call.stage ≠ .built → call.stage ≠ .saved → ∃ record, last = some record ∧
    record.concludedAmount = handled.sum ∧ (handled ≠ [] → IsTradeStatus record.status)

/-- The invariant of the rows. -/
structure RowsInv (s : PersistenceState) : Prop where
  inv : Inv s
  rows : ∀ (i : ℕ) (call : PlaceOrderCall), s.service.calls[i]? = some call →
    RowInv call (s.service.lastRecord call.order.orderId)
      (handledAmounts call.order.orderId s)
  fresh : ∀ id, (∀ call ∈ s.service.calls, call.order.orderId ≠ id) →
    s.service.lastRecord id = none

lemma rowsInv_init : RowsInv {} := ⟨inv_init, by simp, fun _ _ => rfl⟩

/-- A handled trade of an order is one that was sent. -/
lemma Inv.handled_eq_nil {s : PersistenceState} (h : Inv s) {id : ℤ}
    (hsent : tradesFor id s.delivered = []) : handledAmounts id s = [] := by
  have hsplit := h.sent_eq id
  rw [hsent] at hsplit
  exact (List.append_eq_nil_iff.1 hsplit.symm).1

section RowSteps

variable {s s' : PersistenceState} {e : Event}

lemma handledAmounts_congr (hdelivered : s'.delivered = s.delivered)
    (hhandling : s'.service.handling = s.service.handling) (id : ℤ) :
    handledAmounts id s' = handledAmounts id s := by
  simp only [handledAmounts, handledTrades, hdelivered, hhandling]

/-- A step of `PlaceOrder` concerns the rows of one order. -/
lemma RowsInv.of_call (h : RowsInv s) (hinv : Inv s') {i : ℕ} {call : PlaceOrderCall}
    (stage : PlaceOrderStage) (hi : s.service.calls[i]? = some call)
    (hcalls : s'.service.calls = s.service.calls.set i { call with stage := stage })
    (hdelivered : s'.delivered = s.delivered)
    (hhandling : s'.service.handling = s.service.handling)
    (hlast : ∀ id, id ≠ call.order.orderId →
      s'.service.lastRecord id = s.service.lastRecord id)
    (hrow : RowInv call (s.service.lastRecord call.order.orderId)
        (handledAmounts call.order.orderId s) →
      RowInv { call with stage := stage } (s'.service.lastRecord call.order.orderId)
        (handledAmounts call.order.orderId s)) : RowsInv s' := by
  refine ⟨hinv, fun j call' hj => ?_, fun id hid => ?_⟩
  · rw [hcalls] at hj
    rw [handledAmounts_congr hdelivered hhandling]
    rcases getElem?_set_stage hi hj with ⟨rfl, rfl⟩ | ⟨hne, hj⟩
    · exact hrow (h.rows j call hi)
    · have hid : call'.order.orderId ≠ call.order.orderId :=
        fun heq => hne (h.inv.callsOk.inj hj hi heq)
      rw [hlast _ hid]
      exact h.rows j call' hj
  · rw [hcalls] at hid
    have hold := ne_of_set_stage hi hid
    rw [hlast id fun heq => hold call (List.mem_of_getElem? hi) heq.symm]
    exact h.fresh id hold

lemma rows_placeOrder (h : RowsInv s) (now : ℤ) (request : OrderManagerProto.Order)
    {service : OrderManagerService} (hinv : Inv { s with service := service })
    (hstep : Step s.service (.placeOrder now request) service) :
    RowsInv { s with service := service } := by
  cases hstep with
  | placeOrder now request =>
    have hlast := h.fresh _ h.inv.callsOk.ne_counter
    refine ⟨hinv, fun j call' hj => ?_, fun id hid => ?_⟩
    · rcases getElem?_concat hj with hj | ⟨-, rfl⟩
      · exact h.rows j call' hj
      · exact ⟨fun _ => hlast, fun hne => absurd rfl hne⟩
    · exact h.fresh id fun call' hmem => hid call' (List.mem_append_left _ hmem)

lemma rows_call (h : RowsInv s) (hresult : ResultFirst s e) {service : OrderManagerService}
    (hinv : Inv { s with service := service }) (hstep : Step s.service e service)
    (hplace : ∀ now request, e ≠ .placeOrder now request)
    (hreceive : ∀ trade, e ≠ .receive trade) (htrade : e ≠ .persistTrade) :
    RowsInv { s with service := service } := by
  cases hstep with
  | placeOrder now request => exact absurd rfl (hplace now request)
  | receive trade _ => exact absurd rfl (hreceive trade)
  | persistTrade _ => exact absurd rfl htrade
  | @save i call hi hstage =>
    exact h.of_call hinv .saved hi rfl rfl rfl (fun _ _ => rfl) fun hrow =>
      ⟨fun _ => hrow.last_none (Or.inl hstage), fun _ hne => absurd rfl hne⟩
  | @persistUnsubmitted i call hi hstage =>
    refine h.of_call hinv .persistedUnsubmitted hi rfl rfl rfl (fun id hne => ?_)
      fun hrow => ?_
    · rw [lastRecord_persistOrder, if_neg hne.symm]
      rfl
    · have hnone := h.inv.handled_eq_nil
        ((h.inv.calls i call hi).sent_eq (by rw [hstage]; rfl))
      refine ⟨fun hne => ?_, fun _ _ => ?_⟩
      · rcases hne with hne | hne <;> cases hne
      · rw [lastRecord_persistOrder, if_pos rfl, hnone]
        exact ⟨_, rfl, rfl, by simp⟩
  | @matchEngine i call success hi hstage =>
    refine h.of_call hinv (.matched success) hi rfl rfl rfl (fun _ _ => rfl) fun hrow => ?_
    refine ⟨fun hne => ?_, fun _ _ => ?_⟩
    · rcases hne with hne | hne <;> cases hne
    · exact hrow.last_some (by rw [hstage]; decide) (by rw [hstage]; decide)
  | @persistResult i call success hi hstage =>
    refine h.of_call hinv .persistedResult hi rfl rfl rfl (fun id hne => ?_) fun hrow => ?_
    · rw [lastRecord_persistOrder, if_neg hne.symm]
      rfl
    · -- no trade of the order has been handled: its last row has another status
      have hnone : handledAmounts call.order.orderId s = [] := by
        by_contra hne
        obtain ⟨record, hlast, -, hstatus⟩ := hrow.last_some (by rw [hstage]; simp)
          (by rw [hstage]; simp)
        have hunsubmitted := hresult call hi
        rw [hlast, Option.map_some, Option.some.injEq] at hunsubmitted
        rcases hstatus hne with hs | hs <;> rw [hunsubmitted] at hs <;> revert hs <;> decide
      refine ⟨fun hne => ?_, fun _ _ => ?_⟩
      · rcases hne with hne | hne <;> cases hne
      · rw [lastRecord_persistOrder, if_pos rfl, hnone]
        exact ⟨_, rfl, rfl, by simp⟩

/-- A trade that is sent is not handled yet for its orders, and is of no other order. -/
lemma handledAmounts_receive (h : Inv s) {trade : MatchEngineProto.Trade}
    (hdeliver : Deliverable s trade) {service : OrderManagerService}
    (hstep : Step s.service (.receive trade) service) (id : ℤ) :
    handledAmounts id ⟨service, s.delivered ++ [trade]⟩ = handledAmounts id s := by
  cases hstep with
  | receive trade hidle =>
    obtain ⟨maker, taker, hidm, hidt, -, hrecords⟩ := h.receive_spec hdeliver
    simp only [handledAmounts, handledTrades, hidle, hrecords, List.cons_ne_nil, if_false,
      List.dropLast_concat]
    by_cases hparty : id = trade.makerId ∨ id = trade.takerId
    · rw [if_pos]
      rcases hparty with rfl | rfl
      · exact ⟨_, List.mem_cons_self, hidm⟩
      · exact ⟨_, List.mem_cons_of_mem _ List.mem_cons_self, hidt⟩
    · rw [if_neg, tradesFor_concat, if_neg hparty, List.append_nil]
      rintro ⟨r, hr, rfl⟩
      refine hparty ?_
      rcases List.mem_cons.1 hr with rfl | hr
      · exact Or.inl hidm
      · rw [List.mem_singleton.1 hr]
        exact Or.inr hidt

lemma rows_receive (h : RowsInv s) {trade : MatchEngineProto.Trade}
    (hdeliver : Deliverable s trade) {service : OrderManagerService}
    (hinv : Inv ⟨service, s.delivered ++ [trade]⟩)
    (hstep : Step s.service (.receive trade) service) :
    RowsInv ⟨service, s.delivered ++ [trade]⟩ := by
  have hhandled := handledAmounts_receive h.inv hdeliver hstep
  cases hstep with
  | receive trade hidle =>
    refine ⟨hinv, fun j call hj => ?_, h.fresh⟩
    rw [hhandled]
    exact h.rows j call hj

/-- When a row is persisted, its order has no trade in hand any more. -/
lemma Inv.handledAmounts_persistTrade (h : Inv s) {trade : MatchEngineProto.Trade}
    {record : Record} {records : List Record}
    (hhandling : s.service.handling = some (trade, record :: records))
    (hdelivered : s'.delivered = s.delivered)
    (hrest : s'.service.handling = if records = [] then none else some (trade, records))
    (id : ℤ) : handledAmounts id s' =
      if record.order.orderId = id then tradesFor id s.delivered else handledAmounts id s := by
  obtain ⟨-, hrows⟩ := h.pending _ _ hhandling
  have hnodup := (List.nodup_cons.1 hrows.nodup).1
  have hafter : handledAmounts id s' = tradesFor id
      (if ∃ r ∈ records, r.order.orderId = id then s.delivered.dropLast else s.delivered) := by
    by_cases hnil : records = [] <;>
      simp [handledAmounts, handledTrades, hrest, hdelivered, hnil]
  rw [hafter]
  by_cases hid : record.order.orderId = id
  · subst hid
    rw [if_pos rfl, if_neg]
    rintro ⟨r, hr, heq⟩
    exact hnodup (List.mem_map.2 ⟨r, hr, heq⟩)
  · have hother : (∃ r ∈ record :: records, r.order.orderId = id) ↔
        ∃ r ∈ records, r.order.orderId = id := by
      simp [hid]
    simp only [if_neg hid, handledAmounts, handledTrades, hhandling, hother]

lemma rows_persistTrade (h : RowsInv s) {service : OrderManagerService}
    (hinv : Inv { s with service := service }) (hstep : Step s.service .persistTrade service) :
    RowsInv { s with service := service } := by
  cases hstep with
  | @persistTrade trade record records hhandling =>
    obtain ⟨-, hrows⟩ := h.inv.pending _ _ hhandling
    have hhandled : ∀ id, handledAmounts id { s with service := { s.service.persistOrder record with
        handling := if records = [] then none else some (trade, records) } } =
        if record.order.orderId = id then tradesFor id s.delivered else handledAmounts id s :=
      h.inv.handledAmounts_persistTrade hhandling rfl rfl
    have hlast : ∀ id, ({ s.service.persistOrder record with
        handling := if records = [] then none else some (trade, records) } :
          OrderManagerService).lastRecord id =
        if record.order.orderId = id then some record else s.service.lastRecord id :=
      fun id => lastRecord_persistOrder s.service record id
    have hsent : tradesFor record.order.orderId s.delivered ≠ [] := by
      rw [h.inv.sent_eq, pendingFor_persistTrade hhandling]
      simp [writtenTrade, hhandling]
    refine ⟨hinv, fun j call hj => ?_, fun id hid => ?_⟩
    · have hcall := h.inv.calls j call hj
      rw [hlast, hhandled]
      by_cases hid : record.order.orderId = call.order.orderId
      · rw [if_pos hid, if_pos hid, ← hid]
        rw [← hid] at hcall
        have hreached : call.stage.reached = true := by
          by_contra hnot
          exact hsent (hcall.sent_eq (Bool.not_eq_true _ ▸ hnot))
        refine ⟨fun hearly => ?_, fun _ _ => ⟨record, rfl,
          hrows.amount record List.mem_cons_self, fun _ =>
            hrows.status record List.mem_cons_self⟩⟩
        rcases hearly with hearly | hearly <;> rw [hearly] at hreached <;> cases hreached
      · rw [if_neg hid, if_neg hid]
        exact h.rows j call hj
    · have hne : record.order.orderId ≠ id := by
        rintro rfl
        exact hsent (h.inv.fresh _ hid).2
      rw [hlast, if_neg hne]
      exact h.fresh id hid

/-- One step keeps the invariant, if the answer of `Match` is persisted first. -/
lemma RowsInv.step (h : RowsInv s) (hresult : ResultFirst s e)
    (hstep : persistence.step s e = some s') : RowsInv s' := by
  have hinv := h.inv.step hstep
  cases e with
  | receive trade =>
    obtain ⟨service, hdeliver, hservice, rfl⟩ := persistence_receive hstep
    exact rows_receive h hdeliver hinv (step_spec hservice)
  | persistTrade =>
    obtain ⟨service, hservice, rfl⟩ := persistence_step (by simp) hstep
    exact rows_persistTrade h hinv (step_spec hservice)
  | placeOrder now request =>
    obtain ⟨service, hservice, rfl⟩ := persistence_step (by simp) hstep
    exact rows_placeOrder h now request hinv (step_spec hservice)
  | _ =>
    obtain ⟨service, hservice, rfl⟩ := persistence_step (by simp) hstep
    exact rows_call h hresult hinv (step_spec hservice) (by simp) (by simp) (by simp)

end RowSteps

lemma RowsInv.consistent {s : PersistenceState} (h : RowsInv s) : Consistent s := by
  -- an order with a row or a handled trade has a call, past its first two stages
  have hcall : ∀ id, s.service.lastRecord id ≠ none ∨ handledAmounts id s ≠ [] →
      ∃ record, s.service.lastRecord id = some record ∧
        record.concludedAmount = (handledAmounts id s).sum ∧
        (handledAmounts id s ≠ [] → IsTradeStatus record.status) := by
    intro id hid
    have hknown : ∃ call ∈ s.service.calls, call.order.orderId = id := by
      by_contra hnot
      have hnew : ∀ call ∈ s.service.calls, call.order.orderId ≠ id :=
        fun call hmem heq => hnot ⟨call, hmem, heq⟩
      rcases hid with hid | hid
      · exact hid (h.fresh id hnew)
      · exact hid (h.inv.handled_eq_nil (h.inv.fresh id hnew).2)
    obtain ⟨call, hmem, rfl⟩ := hknown
    obtain ⟨i, hi⟩ := List.mem_iff_getElem?.1 hmem
    have hrow := h.rows i call hi
    have hlate : ¬ (call.stage = .built ∨ call.stage = .saved) := by
      intro hearly
      rcases hid with hid | hid
      · exact hid (hrow.last_none hearly)
      · refine hid (h.inv.handled_eq_nil ((h.inv.calls i call hi).sent_eq ?_))
        rcases hearly with hearly | hearly <;> rw [hearly] <;> rfl
    exact hrow.last_some (fun hstage => hlate (Or.inl hstage)) fun hstage => hlate (Or.inr hstage)
  refine ⟨fun id record hrecord => ?_, fun id hne => ?_⟩
  · obtain ⟨record', hlast, hsum, -⟩ := hcall id (Or.inl (by simp [hrecord]))
    rw [hrecord, Option.some.injEq] at hlast
    rw [hlast]
    exact hsum
  · obtain ⟨record, hlast, -, hstatus⟩ := hcall id (Or.inr hne)
    exact ⟨record, hlast, hstatus hne⟩

/-- **The store is right as long as answers are persisted before trades.**  In a run in which
every answer of `Match` is persisted while the last row of its order is the one with the
status `unsubmitted`, every state reached is consistent. -/
theorem consistent_of_resultFirst (es : List Event) (s : PersistenceState)
    (h : persistence.Run ResultFirst es s) : Consistent s := by
  refine RowsInv.consistent (h.invariant (P := fun _ s => RowsInv s) rowsInv_init ?_)
  intro es s e s' _ hrows hG hstep
  exact hrows.step hG hstep

/-- An order is placed, and `Match` answered with success, as the `i`-th call. -/
def placeAndMatch (i : ℕ) (side : OrderManagerProto.TradingSide) : List Event :=
  [.placeOrder 0 ⟨.ofInt 7, .ofInt 2, side, .ofInt 5, .ofInt 100⟩,
    .save i, .persistUnsubmitted i, .matchEngine i true]

/-- The trade of the two orders, and the rows that it writes. -/
def tradeOfTwo : List Event :=
  [.receive ⟨1, 2, .tradingBuy, 5, 100, 2, 2, 7, 0⟩, .persistTrade, .persistTrade]

/-- Both answers are persisted before the trade. -/
def answersFirst : List Event :=
  placeAndMatch 0 .tradingSell ++ [.persistResult 0] ++ placeAndMatch 1 .tradingBuy ++
    [.persistResult 1] ++ tradeOfTwo

/-- The answer for the second order is persisted after its trade. -/
def tradeFirst : List Event :=
  placeAndMatch 0 .tradingSell ++ [.persistResult 0] ++ placeAndMatch 1 .tradingBuy ++
    tradeOfTwo ++ [.persistResult 1]

theorem consistent_of_answersFirst :
    ∃ s, persistence.Run ResultFirst answersFirst s ∧ Consistent s ∧
      handledAmounts 2 s = [5] := by
  have hrun : persistence.admits ResultFirst answersFirst := by decide
  obtain ⟨s, hs⟩ := persistence.exists_run hrun
  refine ⟨s, hs, consistent_of_resultFirst answersFirst s hs, ?_⟩
  rw [← written_eq_handled hs.reaches]
  decide

/-- The last row of the second order says that nothing of it is concluded. -/
theorem not_consistent_of_tradeFirst :
    ¬ ∀ (es : List Event) (s : PersistenceState), persistence.Reaches es s →
      Consistent s := by
  intro hall
  have hrun : persistence.admits (fun _ _ => True) tradeFirst := by decide
  obtain ⟨s, hs⟩ := persistence.exists_run hrun
  have hhandled : handledAmounts 2 s = [5] := by
    rw [← written_eq_handled hs]
    decide
  obtain ⟨record, hlast, hstatus⟩ := (hall tradeFirst s hs).status 2 (by simp [hhandled])
  have hrow : (persistence.runFrom (fun _ _ => True) persistence.init tradeFirst).bind
      (fun s => (s.service.lastRecord 2).map Record.status) = some "submitted" := by decide
  rw [hs.runFrom, Option.bind_some, hlast, Option.map_some, Option.some.injEq] at hrow
  rcases hstatus with hs | hs <;> rw [hrow] at hs <;> revert hs <;> decide

end TradingEngine.OrderManager
