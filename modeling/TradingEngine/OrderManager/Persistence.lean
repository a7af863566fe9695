/-
The trades on their way to the order store.

The calls of `PlaceOrder` and the thread that reads the trades write the rows.  Whatever their
order, a trade that the match engine sends finds both of its orders in the table, and its rows
are written: for every order, what is sent is what is written and what is in hand
(`sent_eq_written`).
-/
import TradingEngine.Lib.Machine
import TradingEngine.OrderManager.Steps

namespace TradingEngine.OrderManager

open Lib OrderManagerService

/-! ### The order manager and the trades it is sent -/

/-- The order manager, with the trades that it was sent. -/
structure PersistenceState where
  service : OrderManagerService := {}
  /-- The trades that the match engine has sent. -/
  delivered : List MatchEngineProto.Trade := []

/-- The match engine knows the order, and has not concluded it yet. -/
def MayTrade (s : PersistenceState) (id : ℤ) : Prop :=
  ∃ call ∈ s.service.calls, call.order.orderId = id ∧ call.stage.reached ∧
    (tradesFor id s.delivered = [] ∨ (tradesFor id s.delivered).sum < call.order.amount)

instance (s : PersistenceState) (id : ℤ) : Decidable (MayTrade s id) :=
  inferInstanceAs (Decidable (∃ call ∈ s.service.calls, _))

/-- A trade is between two orders that may trade. -/
def Deliverable (s : PersistenceState) (trade : MatchEngineProto.Trade) : Prop :=
  trade.makerId ≠ trade.takerId ∧ MayTrade s trade.makerId ∧ MayTrade s trade.takerId

instance (s : PersistenceState) (trade : MatchEngineProto.Trade) :
    Decidable (Deliverable s trade) := inferInstanceAs (Decidable (_ ∧ _))

/-- The order manager, with the trades that a match engine can send. -/
def persistence : Machine PersistenceState Event where
  init := {}
  step s e :=
    match e with
    | .receive trade =>
      if Deliverable s trade then
        (s.service.step e).map fun service => ⟨service, s.delivered ++ [trade]⟩
      else none
    | _ => (s.service.step e).map fun service => { s with service := service }

/-- The trades that are handled as far as one order is concerned: all that were sent, but for
the one that `HandleMatchResult` is at while its row of the order is still to be persisted. -/
def handledTrades (id : ℤ) (s : PersistenceState) : List MatchEngineProto.Trade :=
  match s.service.handling with
  | some (_, records) =>
    if ∃ r ∈ records, r.order.orderId = id then s.delivered.dropLast else s.delivered
  | none => s.delivered

/-- The amounts of the trades of an order that have been handled. -/
def handledAmounts (id : ℤ) (s : PersistenceState) : List ℤ := tradesFor id (handledTrades id s)

/-- The status after a trade. -/
def IsTradeStatus (status : String) : Prop :=
  status = "concluded" ∨ status = "partially concluded"

/-! ### What holds in every run -/

/-- The rows of an order that the current call of `HandleMatchResult` still has to persist,
as amounts of trades. -/
def pendingFor (id : ℤ) (s : PersistenceState) : List ℤ :=
  match s.service.handling with
  | some (trade, records) =>
    (records.filter fun r => r.order.orderId = id).map fun _ => trade.amount
  | none => []

/-- What is known of a call: its entry in the table, and the amounts of its trades that were
sent. -/
structure CallInv (call : PlaceOrderCall) (entry : Option OrderStatus) (sent : List ℤ) :
    Prop where
  entry_eq : entry = if call.stage = .built ∨ sent ≠ [] ∧ call.order.amount ≤ sent.sum then none
    else some ⟨call.order, sent.sum⟩
  sent_eq : call.stage.reached = false → sent = []

/-- The entry is the same in all stages but the first. -/
lemma CallInv.of_stage {call : PlaceOrderCall} {entry : Option OrderStatus} {sent : List ℤ}
    (h : CallInv call entry sent) (hold : call.stage ≠ .built) {stage : PlaceOrderStage}
    (hnew : stage ≠ .built) (hreached : stage.reached = false → call.stage.reached = false) :
    CallInv { call with stage := stage } entry sent := by
  refine ⟨?_, fun hnot => h.sent_eq (hreached hnot)⟩
  rw [h.entry_eq]
  simp only [hold, hnew, false_or]

/-- The rows that a trade leaves: for different orders of the trade, with the sums of all
trades that were sent. -/
structure RowsOf (trade : MatchEngineProto.Trade) (delivered : List MatchEngineProto.Trade)
    (records : List Record) : Prop where
  nodup : (records.map fun r => r.order.orderId).Nodup
  party : ∀ r ∈ records, r.order.orderId = trade.makerId ∨ r.order.orderId = trade.takerId
  amount : ∀ r ∈ records, r.concludedAmount = (tradesFor r.order.orderId delivered).sum
  status : ∀ r ∈ records, IsTradeStatus r.status

/-- The invariant of the table and of the trade in hand. -/
structure Inv (s : PersistenceState) : Prop where
  callsOk : CallsOk s.service
  calls : ∀ (i : ℕ) (call : PlaceOrderCall), s.service.calls[i]? = some call →
    CallInv call (s.service.orderIdToOrderStatus call.order.orderId)
      (tradesFor call.order.orderId s.delivered)
  fresh : ∀ id, (∀ call ∈ s.service.calls, call.order.orderId ≠ id) →
    s.service.orderIdToOrderStatus id = none ∧ tradesFor id s.delivered = []
  pending : ∀ trade records, s.service.handling = some (trade, records) →
    s.delivered.getLast? = some trade ∧ RowsOf trade s.delivered records

lemma inv_init : Inv {} := ⟨callsOk_init, by simp, fun _ _ => ⟨rfl, rfl⟩, by simp⟩

section Steps

variable {s s' : PersistenceState} {e : Event}

/-- A step of `PlaceOrder` concerns one call: the entries of other orders, the trades, and
`HandleMatchResult` stay. -/
lemma Inv.of_call (h : Inv s) {i : ℕ} {call : PlaceOrderCall} (stage : PlaceOrderStage)
    (hi : s.service.calls[i]? = some call)
    (hcalls : s'.service.calls = s.service.calls.set i { call with stage := stage })
    (hok : CallsOk s'.service) (hdelivered : s'.delivered = s.delivered)
    (hhandling : s'.service.handling = s.service.handling)
    (hentry : ∀ id, id ≠ call.order.orderId →
      s'.service.orderIdToOrderStatus id = s.service.orderIdToOrderStatus id)
    (hcall : CallInv call (s.service.orderIdToOrderStatus call.order.orderId)
        (tradesFor call.order.orderId s.delivered) →
      CallInv { call with stage := stage }
        (s'.service.orderIdToOrderStatus call.order.orderId)
        (tradesFor call.order.orderId s.delivered)) :
    Inv s' := by
  refine ⟨hok, fun j call' hj => ?_, fun id hid => ?_, ?_⟩
  · rw [hcalls] at hj
    rw [hdelivered]
    rcases getElem?_set_stage hi hj with ⟨rfl, rfl⟩ | ⟨hne, hj⟩
    · exact hcall (h.calls j call hi)
    · have hid : call'.order.orderId ≠ call.order.orderId :=
        fun heq => hne (h.callsOk.inj hj hi heq)
      rw [hentry _ hid]
      exact h.calls j call' hj
  · rw [hcalls] at hid
    have hold := ne_of_set_stage hi hid
    have hne : id ≠ call.order.orderId :=
      fun heq => hold call (List.mem_of_getElem? hi) heq.symm
    rw [hentry _ hne, hdelivered]
    exact h.fresh id hold
  · rw [hhandling, hdelivered]
    exact h.pending

lemma inv_placeOrder (h : Inv s) (now : ℤ) (request : OrderManagerProto.Order)
    {service : OrderManagerService} (hok : CallsOk service)
    (hstep : Step s.service (.placeOrder now request) service) :
    Inv { s with service := service } := by
  cases hstep with
  | placeOrder now request =>
    set call : PlaceOrderCall := ⟨(buildOrder now s.service.counter request).2.1,
      (buildOrder now s.service.counter request).2.2, .built⟩
    obtain ⟨hentry, hsent⟩ := h.fresh call.order.orderId h.callsOk.ne_counter
    refine ⟨hok, fun j call' hj => ?_, fun id hid => ?_, h.pending⟩
    · rcases getElem?_concat hj with hj | ⟨-, rfl⟩
      · exact h.calls j call' hj
      · exact ⟨by rw [hentry]; rfl, fun _ => hsent⟩
    · exact h.fresh id fun call' hmem => hid call' (List.mem_append_left _ hmem)

lemma inv_call (h : Inv s) {service : OrderManagerService} (hok : CallsOk service)
    (hstep : Step s.service e service) (hplace : ∀ now request, e ≠ .placeOrder now request)
    (hreceive : ∀ trade, e ≠ .receive trade) (htrade : e ≠ .persistTrade) :
    Inv { s with service := service } := by
  cases hstep with
  | placeOrder now request => exact absurd rfl (hplace now request)
  | receive trade _ => exact absurd rfl (hreceive trade)
  | persistTrade _ => exact absurd rfl htrade
  | @save i call hi hstage =>
    refine h.of_call .saved hi rfl hok rfl rfl (fun id hne => if_neg hne) fun hcall => ?_
    have hsent := hcall.sent_eq (by rw [hstage]; rfl)
    exact ⟨by simp [saveOrderStatus, hsent], fun _ => hsent⟩
  | @persistUnsubmitted i call hi hstage =>
    exact h.of_call .persistedUnsubmitted hi rfl hok rfl rfl (fun _ _ => rfl) fun hcall =>
      hcall.of_stage (by rw [hstage]; simp) (by simp) fun _ => by rw [hstage]; rfl
  | @matchEngine i call success hi hstage =>
    exact h.of_call (.matched success) hi rfl hok rfl rfl (fun _ _ => rfl) fun hcall =>
      hcall.of_stage (by rw [hstage]; simp) (by simp) (by simp [PlaceOrderStage.reached])
  | @persistResult i call success hi hstage =>
    exact h.of_call .persistedResult hi rfl hok rfl rfl (fun _ _ => rfl) fun hcall =>
      hcall.of_stage (by rw [hstage]; simp) (by simp) (by simp [PlaceOrderStage.reached])

/-- An order that may trade has an entry. -/
lemma Inv.entry_of_mayTrade (h : Inv s) {i : ℕ} {call : PlaceOrderCall}
    (hi : s.service.calls[i]? = some call) (hmay : MayTrade s call.order.orderId) :
    call.stage ≠ .built ∧ call.stage.reached = true ∧
      s.service.orderIdToOrderStatus call.order.orderId =
        some ⟨call.order, (tradesFor call.order.orderId s.delivered).sum⟩ := by
  obtain ⟨call', hmem, hid, hreached, hopen⟩ := hmay
  obtain ⟨j, hj⟩ := List.mem_iff_getElem?.1 hmem
  obtain rfl := h.callsOk.inj hi hj hid.symm
  obtain rfl : call = call' := Option.some.inj (hi.symm.trans hj)
  have hbuilt : call.stage ≠ .built := by
    intro hstage
    rw [hstage] at hreached
    cases hreached
  refine ⟨hbuilt, hreached, ?_⟩
  rw [(h.calls i call hi).entry_eq, if_neg]
  rintro (hstage | ⟨hne, hle⟩)
  · exact hbuilt hstage
  · rcases hopen with hnil | hlt
    · exact hne hnil
    · omega

/-- Such an order is that of a call. -/
lemma MayTrade.exists_call {id : ℤ} (h : MayTrade s id) : ∃ (i : ℕ) (call : PlaceOrderCall),
    s.service.calls[i]? = some call ∧ call.order.orderId = id := by
  obtain ⟨call, hmem, hid, -⟩ := h
  obtain ⟨i, hi⟩ := List.mem_iff_getElem?.1 hmem
  exact ⟨i, call, hi, hid⟩

lemma isTradeStatus_tradeRecord (status : OrderStatus) :
    IsTradeStatus (tradeRecord status).status := by
  unfold IsTradeStatus tradeRecord
  split_ifs
  · exact Or.inl rfl
  · exact Or.inr rfl

lemma tradesFor_concat (id : ℤ) (trades : List MatchEngineProto.Trade)
    (trade : MatchEngineProto.Trade) : tradesFor id (trades ++ [trade]) = tradesFor id trades ++
      if id = trade.makerId ∨ id = trade.takerId then [trade.amount] else [] := by
  by_cases h : id = trade.makerId ∨ id = trade.takerId <;> simp [tradesFor, h]

/-- A trade that can be sent finds both orders, with the sums of their trades so far. -/
lemma Inv.receive_spec (h : Inv s) {trade : MatchEngineProto.Trade}
    (hdeliver : Deliverable s trade) : ∃ maker taker : Order,
      maker.orderId = trade.makerId ∧ taker.orderId = trade.takerId ∧
      (∀ id, (handleMatchResult s.service.orderIdToOrderStatus trade).1 id =
        (s.service.orderIdToOrderStatus id).bind fun status =>
          if (id = trade.makerId ∨ id = trade.takerId) ∧
            (status.add (concludedBy trade id)).Concluded then none
          else some (status.add (concludedBy trade id))) ∧
      (handleMatchResult s.service.orderIdToOrderStatus trade).2 =
        [tradeRecord ⟨maker, (tradesFor trade.makerId s.delivered).sum + trade.amount⟩,
          tradeRecord ⟨taker, (tradesFor trade.takerId s.delivered).sum + trade.amount⟩] := by
  obtain ⟨hne, hmaker, htaker⟩ := hdeliver
  obtain ⟨im, cm, him, hidm⟩ := hmaker.exists_call
  obtain ⟨it, ct, hit, hidt⟩ := htaker.exists_call
  obtain ⟨-, -, hentrym⟩ := h.entry_of_mayTrade him (hidm ▸ hmaker)
  obtain ⟨-, -, hentryt⟩ := h.entry_of_mayTrade hit (hidt ▸ htaker)
  rw [hidm] at hentrym
  rw [hidt] at hentryt
  obtain ⟨htable, hrecords⟩ := handleMatchResult_spec hentrym hentryt
  refine ⟨cm.order, ct.order, hidm, hidt, htable, ?_⟩
  rw [hrecords]
  simp [OrderStatus.add, concludedBy, hne, hne.symm]

lemma inv_receive (h : Inv s) (trade : MatchEngineProto.Trade) (hdeliver : Deliverable s trade)
    {service : OrderManagerService} (hok : CallsOk service)
    (hstep : Step s.service (.receive trade) service) :
    Inv ⟨service, s.delivered ++ [trade]⟩ := by
  cases hstep with
  | receive trade hidle =>
    obtain ⟨maker, taker, hidm, hidt, htable, hrecords⟩ := h.receive_spec hdeliver
    obtain ⟨hne, hmaker, htaker⟩ := hdeliver
    have hparty : ∀ id, id = trade.makerId ∨ id = trade.takerId →
        MayTrade s id ∧ concludedBy trade id = trade.amount := by
      rintro id (rfl | rfl)
      · exact ⟨hmaker, by simp [concludedBy, hne]⟩
      · exact ⟨htaker, by simp [concludedBy, hne.symm]⟩
    refine ⟨hok, fun j call hj => ?_, fun id hid => ?_, ?_⟩
    · have hcall := h.calls j call hj
      rw [tradesFor_concat]
      simp only [htable]
      by_cases hid : call.order.orderId = trade.makerId ∨ call.order.orderId = trade.takerId
      · obtain ⟨hmay, hconcluded⟩ := hparty _ hid
        obtain ⟨hbuilt, hreached, hentry⟩ := h.entry_of_mayTrade hj hmay
        rw [if_pos hid, hentry, Option.bind_some, hconcluded]
        refine ⟨?_, fun hnot => ?_⟩
        · by_cases hle : call.order.amount ≤
              (tradesFor call.order.orderId s.delivered).sum + trade.amount <;>
            simp [OrderStatus.add, OrderStatus.Concluded, hid, hbuilt, hle]
        · rw [hreached] at hnot
          cases hnot
      · have hzero : concludedBy trade call.order.orderId = 0 :=
          concludedBy_of_ne (fun heq => hid (Or.inl heq)) fun heq => hid (Or.inr heq)
        simp only [hid, false_and, if_false, hzero, OrderStatus.add_zero, List.append_nil,
          Option.bind_fun_some]
        exact hcall
    · obtain ⟨hentry, hsent⟩ := h.fresh id hid
      have hout : ¬ (id = trade.makerId ∨ id = trade.takerId) := by
        intro hin
        obtain ⟨i, call, hi, hcall⟩ := (hparty id hin).1.exists_call
        exact hid call (List.mem_of_getElem? hi) hcall
      exact ⟨by simp only [htable, hentry, Option.bind_none],
        by rw [tradesFor_concat, hsent, if_neg hout, List.nil_append]⟩
    · intro trade' records' hhandling
      rw [hrecords] at hhandling
      simp only [List.cons_ne_nil, if_false, Option.some.injEq, Prod.mk.injEq] at hhandling
      obtain ⟨rfl, rfl⟩ := hhandling
      refine ⟨by simp, ?_, ?_, ?_, ?_⟩
      · simp [tradeRecord, hidm, hidt, hne]
      · simp [tradeRecord, hidm, hidt]
      · simp [tradeRecord, hidm, hidt, tradesFor_concat]
      · simp [isTradeStatus_tradeRecord]

lemma inv_persistTrade (h : Inv s) {service : OrderManagerService} (hok : CallsOk service)
    (hstep : Step s.service .persistTrade service) : Inv { s with service := service } := by
  cases hstep with
  | @persistTrade trade record records hhandling =>
    obtain ⟨hsent, hrows⟩ := h.pending _ _ hhandling
    refine ⟨hok, h.calls, h.fresh, ?_⟩
    intro trade' records' hhandling'
    by_cases hnil : records = []
    · simp [hnil] at hhandling'
    · simp only [hnil, if_false, Option.some.injEq, Prod.mk.injEq] at hhandling'
      obtain ⟨rfl, rfl⟩ := hhandling'
      exact ⟨hsent, (List.nodup_cons.1 hrows.nodup).2,
        fun r hr => hrows.party r (List.mem_cons_of_mem _ hr),
        fun r hr => hrows.amount r (List.mem_cons_of_mem _ hr),
        fun r hr => hrows.status r (List.mem_cons_of_mem _ hr)⟩

/-- What the machine does when no trade is sent. -/
lemma persistence_step (he : ∀ trade, e ≠ .receive trade)
    (hstep : persistence.step s e = some s') :
    ∃ service, s.service.step e = some service ∧ s' = { s with service := service } := by
  have hmap : persistence.step s e =
      (s.service.step e).map fun service => { s with service := service } := by
    cases e with
    | receive trade => exact absurd rfl (he trade)
    | _ => rfl
  rw [hmap] at hstep
  obtain ⟨service, hservice, rfl⟩ := Option.map_eq_some_iff.1 hstep
  exact ⟨service, hservice, rfl⟩

/-- What the machine does when a trade is sent. -/
lemma persistence_receive {trade : MatchEngineProto.Trade}
    (hstep : persistence.step s (.receive trade) = some s') :
    ∃ service, Deliverable s trade ∧ s.service.step (.receive trade) = some service ∧
      s' = ⟨service, s.delivered ++ [trade]⟩ := by
  simp only [persistence] at hstep
  split_ifs at hstep with hdeliver
  obtain ⟨service, hservice, rfl⟩ := Option.map_eq_some_iff.1 hstep
  exact ⟨service, hdeliver, hservice, rfl⟩

/-- One step keeps the invariant. -/
lemma Inv.step (h : Inv s) (hstep : persistence.step s e = some s') : Inv s' := by
  cases e with
  | receive trade =>
    obtain ⟨service, hdeliver, hservice, rfl⟩ := persistence_receive hstep
    exact inv_receive h trade hdeliver (h.callsOk.step hservice) (step_spec hservice)
  | persistTrade =>
    obtain ⟨service, hservice, rfl⟩ := persistence_step (by simp) hstep
    exact inv_persistTrade h (h.callsOk.step hservice) (step_spec hservice)
  | placeOrder now request =>
    obtain ⟨service, hservice, rfl⟩ := persistence_step (by simp) hstep
    exact inv_placeOrder h now request (h.callsOk.step hservice) (step_spec hservice)
  | _ =>
    obtain ⟨service, hservice, rfl⟩ := persistence_step (by simp) hstep
    exact inv_call h (h.callsOk.step hservice) (step_spec hservice) (by simp) (by simp)
      (by simp)

end Steps

lemma inv_reaches {es : List Event} {s : PersistenceState} (h : persistence.Reaches es s) :
    Inv s :=
  h.invariant (P := fun _ s => Inv s) inv_init fun _ _ _ _ _ hinv _ hstep => hinv.step hstep

/-! ### What is sent, handled and written -/

section Written

variable {es : List Event} {s s' : PersistenceState}

/-- The trades of an order that were sent are the ones that are handled, and the one in hand. -/
lemma Inv.sent_eq (h : Inv s) (id : ℤ) :
    tradesFor id s.delivered = handledAmounts id s ++ pendingFor id s := by
  cases hhandling : s.service.handling with
  | none => simp [handledAmounts, handledTrades, pendingFor, hhandling]
  | some current =>
    obtain ⟨trade, records⟩ := current
    obtain ⟨hlast, hrows⟩ := h.pending _ _ hhandling
    simp only [handledAmounts, handledTrades, pendingFor, hhandling]
    by_cases hrow : ∃ r ∈ records, r.order.orderId = id
    · rw [if_pos hrow]
      obtain ⟨r, hr, rfl⟩ := hrow
      -- the orders of the rows are different: one row is of this order
      have hone : records.filter (fun r' => r'.order.orderId = r.order.orderId) = [r] := by
        have hcongr : records.filter (fun r' => r'.order.orderId = r.order.orderId) =
            records.filter (fun r' => r' = r) :=
          List.filter_congr fun r' hr' => decide_eq_decide.2
            ⟨List.inj_on_of_nodup_map hrows.nodup hr' hr, fun heq => heq ▸ rfl⟩
        rw [hcongr, List.filter_eq, List.count_eq_one_of_mem (hrows.nodup.of_map _) hr,
          List.replicate_one]
      have hdelivered : s.delivered = s.delivered.dropLast ++ [trade] :=
        (List.dropLast_append_getLast? trade hlast).symm
      rw [hone]
      nth_rewrite 1 [hdelivered]
      rw [tradesFor_concat, if_pos (hrows.party r hr)]
      rfl
    · have hnone : records.filter (fun r => r.order.orderId = id) = [] :=
        List.filter_eq_nil_iff.2 fun r hr heq => hrow ⟨r, hr, of_decide_eq_true heq⟩
      rw [if_neg hrow, hnone]
      simp

/-- The amount of the trade of an order whose row is persisted by the event. -/
def writtenTrade (id : ℤ) (s : PersistenceState) : Event → List ℤ
  | .persistTrade =>
    match s.service.handling with
    | some (trade, record :: _) => if record.order.orderId = id then [trade.amount] else []
    | _ => []
  | _ => []

/-- The amounts of the trades of an order whose rows were persisted in a run. -/
def writtenAmounts (id : ℤ) (es : List Event) : List ℤ := persistence.trace (writtenTrade id) es

/-- The trade that is sent at the event. -/
def sentTrade : Event → List MatchEngineProto.Trade
  | .receive trade => [trade]
  | _ => []

lemma delivered_eq (h : persistence.Reaches es s) : s.delivered = es.flatMap sentTrade := by
  induction h with
  | start => rfl
  | @step es e s s' _ _ hstep ih =>
    rw [List.flatMap_append, List.flatMap_singleton, ← ih]
    cases e with
    | receive trade =>
      obtain ⟨service, -, -, rfl⟩ := persistence_receive hstep
      rfl
    | _ =>
      obtain ⟨service, -, rfl⟩ := persistence_step (by simp) hstep
      exact (List.append_nil _).symm

lemma pendingFor_persistTrade {trade : MatchEngineProto.Trade} {record : Record}
    {records : List Record} (hhandling : s.service.handling = some (trade, record :: records))
    (id : ℤ) : pendingFor id s = writtenTrade id s .persistTrade ++
      (records.filter fun r => r.order.orderId = id).map fun _ => trade.amount := by
  simp only [pendingFor, writtenTrade, hhandling]
  by_cases hid : record.order.orderId = id <;> simp [hid]

/-- The calls of `PlaceOrder` leave the trade in hand alone. -/
lemma handling_of_call {service service' : OrderManagerService} {e : Event}
    (hstep : Step service e service') (hreceive : ∀ trade, e ≠ .receive trade)
    (htrade : e ≠ .persistTrade) : service'.handling = service.handling := by
  cases hstep with
  | receive trade _ => exact absurd rfl (hreceive trade)
  | persistTrade _ => exact absurd rfl htrade
  | _ => rfl

/-- The rows of an order in hand are a queue between the trades and the store. -/
lemma Inv.pendingFor_step (h : Inv s) {e : Event} (hstep : persistence.step s e = some s')
    (id : ℤ) : pendingFor id s ++ tradesFor id (sentTrade e) =
      writtenTrade id s e ++ pendingFor id s' := by
  -- the other events do not concern the trade in hand
  have hquiet : ∀ service : OrderManagerService, service.handling = s.service.handling →
      pendingFor id s ++ tradesFor id [] =
        [] ++ pendingFor id { s with service := service } := by
    intro service hsame
    simp only [pendingFor, hsame, tradesFor, List.filter_nil, List.map_nil, List.append_nil,
      List.nil_append]
  cases e with
  | receive trade =>
    obtain ⟨service, hdeliver, hservice, rfl⟩ := persistence_receive hstep
    obtain ⟨maker, taker, hidm, hidt, -, hrecords⟩ := h.receive_spec hdeliver
    have hne := hdeliver.1
    cases step_spec hservice with
    | receive trade hidle =>
      simp only [pendingFor, hidle, hrecords, List.cons_ne_nil, if_false, List.nil_append,
        sentTrade, writtenTrade, tradeRecord]
      rw [← hidm, ← hidt] at hne
      by_cases h1 : maker.orderId = id
      · subst h1
        simp [tradesFor, ← hidm, hne.symm]
      · by_cases h2 : taker.orderId = id
        · simp [tradesFor, ← hidt, h1, h2]
        · simp [tradesFor, ← hidm, ← hidt, h1, h2, Ne.symm h1, Ne.symm h2]
  | persistTrade =>
    obtain ⟨service, hservice, rfl⟩ := persistence_step (by simp) hstep
    cases step_spec hservice with
    | persistTrade hhandling =>
      rename_i trade record records
      rw [pendingFor_persistTrade hhandling]
      by_cases hnil : records = [] <;> simp [pendingFor, hnil, sentTrade, tradesFor]
  | _ =>
    obtain ⟨service, hservice, rfl⟩ := persistence_step (by simp) hstep
    exact hquiet service (handling_of_call (step_spec hservice) (by simp) (by simp))

/-- **No trade is lost.**  In every run the trades of an order that were sent are, in their
order, the ones whose rows are written and the one in hand. -/
theorem sent_eq_written (h : persistence.Reaches es s) (id : ℤ) :
    tradesFor id s.delivered = writtenAmounts id es ++ pendingFor id s := by
  have hsent : persistence.trace (fun _ e => tradesFor id (sentTrade e)) es =
      tradesFor id s.delivered := by
    rw [delivered_eq h, ← h.trace_events sentTrade]
    exact h.trace_hom rfl (tradesFor_append id) fun _ _ _ _ _ => rfl
  rw [← hsent]
  exact h.channel rfl fun _ _ _ _ hrun _ hstep => (inv_reaches hrun).pendingFor_step hstep id

/-- The rows of an order that are written are those of the trades that are handled. -/
theorem written_eq_handled (h : persistence.Reaches es s) (id : ℤ) :
    writtenAmounts id es = handledAmounts id s :=
  List.append_cancel_right ((sent_eq_written h id).symm.trans ((inv_reaches h).sent_eq id))

end Written

end TradingEngine.OrderManager
