/-
Every order is accounted for, from the order manager to the books and back.

`ExchangeInv` balances, for every id, what was submitted against what was rejected, what the
node holds and what `HandleMatchResult` has handled, and ties both ends to the table of the
order manager.  `exchange_accounts` draws the conclusions for the orders in the table.
-/
import TradingEngine.System.Exchange

namespace TradingEngine.System

open Lib MatchEngine MatchEngine.Cluster Matching OrderManager

variable {symbols : List ℤ}

/-! ### What is observed along a run -/

/-- The quantity of an id in a list of ids and amounts. -/
def quantity (id : ℤ) (l : List (ℤ × ℤ)) : ℤ := ((l.filter fun x => x.1 = id).map Prod.snd).sum

@[simp] lemma quantity_nil (id : ℤ) : quantity id [] = 0 := rfl

@[simp] lemma quantity_append (id : ℤ) (l l' : List (ℤ × ℤ)) :
    quantity id (l ++ l') = quantity id l + quantity id l' := by
  simp [quantity]

lemma quantity_singleton (id : ℤ) (x : ℤ × ℤ) :
    quantity id [x] = if x.1 = id then x.2 else 0 := by
  by_cases h : x.1 = id <;> simp [quantity, h]

/-- The order that is submitted to the node. -/
def submission (s : ExchangeState symbols) : ExchangeEvent → List (ℤ × ℤ)
  | .submit i =>
    (s.manager.calls[i]?.map fun call => (call.order.orderId, call.order.amount)).toList
  | _ => []

/-- The order that `Match` rejects, or the router drops. -/
def rejection (s : ExchangeState symbols) : ExchangeEvent → List (ℤ × ℤ)
  | .submit i =>
    match s.manager.calls[i]? with
    | some call =>
      if (s.node.grpc.match call.matchEngineOrder).2.2 = none then
        [(call.order.orderId, call.order.amount)]
      else []
    | none => []
  | .engine (.handle (.router _) _) =>
    (dropped s.node s.mail).map fun o => (o.orderId, o.amount)
  | _ => []

/-- The trade that passes the critical section of `HandleMatchResult`. -/
def handledTrade (s : ExchangeState symbols) : ExchangeEvent → List MatchEngineProto.Trade
  | .receive => (s.node.written.map Prod.snd).head?.toList
  | _ => []

/-- What the calls have submitted of an order. -/
def submitted (symbols : List ℤ) (id : ℤ) (es : List ExchangeEvent) : ℤ :=
  quantity id ((exchange symbols).trace submission es)

/-- What the engine has rejected of it. -/
def rejected (symbols : List ℤ) (id : ℤ) (es : List ExchangeEvent) : ℤ :=
  quantity id ((exchange symbols).trace rejection es)

/-- What the order manager has handled of it in trades. -/
def handled (symbols : List ℤ) (id : ℤ) (es : List ExchangeEvent) : ℤ :=
  inTrades id ((exchange symbols).trace handledTrade es)

/-! ### The accounts of the calls -/

/-- What is known of a call of `PlaceOrder`: its entry in the table, and the quantities that
were submitted and handled under its id. -/
structure CallAccount (call : PlaceOrderCall) (entry : Option OrderStatus) (submitted handled : ℤ) :
    Prop where
  positive : 0 < call.order.amount
  int32 : IsInt32 call.order.amount
  same : (call.matchEngineOrder.amount : ℤ) = call.order.amount
  entry_eq : entry = if call.stage = .built ∨ call.order.amount ≤ handled then none
    else some ⟨call.order, handled⟩
  submitted_eq : submitted = if call.stage.reached then call.order.amount else 0

/-- The entry is the same in all stages but the first. -/
lemma CallAccount.entry_of_stage {call : PlaceOrderCall} {entry : Option OrderStatus}
    {submitted handled : ℤ} (h : CallAccount call entry submitted handled)
    (hold : call.stage ≠ .built) {stage : PlaceOrderStage} (hnew : stage ≠ .built) :
    entry = if stage = .built ∨ call.order.amount ≤ handled then none
      else some ⟨call.order, handled⟩ := by
  rw [h.entry_eq]
  simp only [hold, hnew, false_or]

lemma CallAccount.of_stage {call : PlaceOrderCall} {entry : Option OrderStatus}
    {submitted handled : ℤ} (h : CallAccount call entry submitted handled)
    (hold : call.stage ≠ .built) {stage : PlaceOrderStage} (hnew : stage ≠ .built)
    (hreached : stage.reached = call.stage.reached) :
    CallAccount { call with stage := stage } entry submitted handled :=
  ⟨h.positive, h.int32, h.same, h.entry_of_stage hold hnew,
    by rw [h.submitted_eq, hreached]⟩

/-- The entry of each call agrees with what was submitted and handled of its order. -/
structure Accounts (manager : OrderManagerService) (submitted handled : ℤ → ℤ) : Prop where
  calls : ∀ (i : ℕ) (call : PlaceOrderCall), manager.calls[i]? = some call →
    CallAccount call (manager.orderIdToOrderStatus call.order.orderId)
      (submitted call.order.orderId) (handled call.order.orderId)
  fresh : ∀ id, (∀ call ∈ manager.calls, call.order.orderId ≠ id) →
    manager.orderIdToOrderStatus id = none ∧ submitted id = 0

section Accounts

variable {manager manager' : OrderManagerService} {submitted handled submitted' handled' : ℤ → ℤ}

/-- A step of one call leaves the accounts of the other orders alone. -/
lemma Accounts.set_stage (h : Accounts manager submitted handled) (hok : CallsOk manager) {i : ℕ}
    {call : PlaceOrderCall} (stage : PlaceOrderStage) (hi : manager.calls[i]? = some call)
    (hcalls : manager'.calls = manager.calls.set i { call with stage := stage })
    (hother : ∀ id, id ≠ call.order.orderId →
      manager'.orderIdToOrderStatus id = manager.orderIdToOrderStatus id ∧
        submitted' id = submitted id ∧ handled' id = handled id)
    (hcall : CallAccount call (manager.orderIdToOrderStatus call.order.orderId)
        (submitted call.order.orderId) (handled call.order.orderId) →
      CallAccount { call with stage := stage } (manager'.orderIdToOrderStatus call.order.orderId)
        (submitted' call.order.orderId) (handled' call.order.orderId)) :
    Accounts manager' submitted' handled' := by
  refine ⟨fun j call' hj => ?_, fun id hid => ?_⟩
  · rw [hcalls] at hj
    rcases getElem?_set_stage hi hj with ⟨rfl, rfl⟩ | ⟨hne, hj⟩
    · exact hcall (h.calls j call hi)
    · obtain ⟨hentry, hsubmitted, hhandled⟩ :=
        hother call'.order.orderId fun heq => hne (hok.inj hj hi heq)
      rw [hentry, hsubmitted, hhandled]
      exact h.calls j call' hj
  · rw [hcalls] at hid
    have hold := ne_of_set_stage hi hid
    obtain ⟨hentry, hsubmitted, -⟩ :=
      hother id fun heq => hold call (List.mem_of_getElem? hi) heq.symm
    rw [hentry, hsubmitted]
    exact h.fresh id hold

end Accounts

/-! ### The invariant -/

/-- What holds in every state of a run: where every amount of an order is. -/
structure ExchangeInv (es : List ExchangeEvent) (s : ExchangeState symbols) : Prop where
  wire : s.engine.net.wire = []
  engine : EngineInv s.node s.mail
  callsOk : CallsOk s.manager
  subscribed : s.manager.calls ≠ [] → s.node.grpc.matchResultWriterKeepers = [()]
  /-- An order under way is that of a call. -/
  orders : ∀ post ∈ s.mail, ∀ o, post.msg = .rawOrder o →
    ∃ call ∈ s.manager.calls, call.order.orderId = o.orderId ∧ call.order.amount = o.amount
  trades : ∀ t ∈ unhandled s.node s.mail, 0 < t.amount ∧ t.makerId ≠ t.takerId
  nonneg : ∀ id, 0 ≤ rejected symbols id es ∧ 0 ≤ handled symbols id es
  balance : ∀ id, submitted symbols id es =
    rejected symbols id es + held id s.node s.mail + handled symbols id es
  accounts : Accounts s.manager (fun id => submitted symbols id es)
    fun id => handled symbols id es

lemma exchangeInv_init : ExchangeInv [] (exchange symbols).init where
  wire := rfl
  engine := engineInv_init
  callsOk := callsOk_init
  subscribed := fun h => absurd rfl h
  orders := by
    intro post hpost
    cases hpost
  trades := by
    intro t ht
    cases ht
  nonneg := fun _ => ⟨le_rfl, le_rfl⟩
  balance := fun _ => rfl
  accounts := by
    refine ⟨fun i call hi => ?_, fun _ _ => ⟨rfl, rfl⟩⟩
    cases hi

section Invariant

variable {es : List ExchangeEvent} {s : ExchangeState symbols} {e : ExchangeEvent}
  {node' : EngineNode} {mail' : List (Post Unit)} {x : EngineEvent}

lemma ExchangeInv.trades_positive (h : ExchangeInv es s) :
    ∀ t ∈ unhandled s.node s.mail, 0 < t.amount := fun t ht => (h.trades t ht).1

/-- What is submitted under an id is at most the amount of its call. -/
lemma ExchangeInv.submitted_le (h : ExchangeInv es s) {call : PlaceOrderCall}
    (hcall : call ∈ s.manager.calls) :
    submitted symbols call.order.orderId es ≤ call.order.amount := by
  obtain ⟨i, hi⟩ := List.mem_iff_getElem?.1 hcall
  have haccount := h.accounts.calls i call hi
  have hpositive := haccount.positive
  rw [haccount.submitted_eq]
  split_ifs <;> omega

/-- **The two orders of a trade under way are in the table**, and the trade fits in. -/
lemma ExchangeInv.entry_of_trade (h : ExchangeInv es s) {t : MatchEngineProto.Trade}
    (ht : t ∈ unhandled s.node s.mail) {id : ℤ} (hid : id = t.makerId ∨ id = t.takerId) :
    ∃ (i : ℕ) (call : PlaceOrderCall), s.manager.calls[i]? = some call ∧
      call.order.orderId = id ∧ call.stage ≠ .built ∧
      s.manager.orderIdToOrderStatus id = some ⟨call.order, handled symbols id es⟩ ∧
      handled symbols id es + t.amount ≤ call.order.amount := by
  obtain ⟨hpositive, hne⟩ := h.trades t ht
  have hshare : concludedBy t id = t.amount := by
    rcases hid with rfl | rfl
    · simp [concludedBy, hne]
    · simp [concludedBy, hne.symm]
  -- the trade is a part of what the node holds
  have hpart := concludedBy_le_inTrades h.trades_positive ht id
  have hbalance := h.balance id
  have htransit := inTransit_nonneg h.engine id
  have hbooks := inBooks_nonneg h.engine id
  obtain ⟨hrejected, hhandled⟩ := h.nonneg id
  rw [held] at hbalance
  have hknown : ∃ call ∈ s.manager.calls, call.order.orderId = id := by
    by_contra hnot
    have hzero := (h.accounts.fresh id fun call hcall heq => hnot ⟨call, hcall, heq⟩).2
    omega
  obtain ⟨call, hcall, rfl⟩ := hknown
  have hle := h.submitted_le hcall
  obtain ⟨i, hi⟩ := List.mem_iff_getElem?.1 hcall
  have haccount := h.accounts.calls i call hi
  have hbuilt : call.stage ≠ .built := by
    intro hstage
    have hzero := haccount.submitted_eq
    rw [hstage] at hzero
    simp only [PlaceOrderStage.reached, Bool.false_eq_true, if_false] at hzero
    omega
  refine ⟨i, call, hi, rfl, hbuilt, ?_, by omega⟩
  rw [haccount.entry_eq, if_neg]
  rintro (hstage | hdone)
  · exact hbuilt hstage
  · omega

/-- No order trades with itself: what rests under its id and what is on its way to a match
actor would be more than was submitted. -/
lemma ExchangeInv.trades_step (h : ExchangeInv es s)
    (hstep : EngineStep symbols s.node s.mail x node' mail') :
    ∀ t ∈ unhandled node' mail', 0 < t.amount ∧ t.makerId ≠ t.takerId := by
  intro t ht
  rcases mem_unhandled_step hstep ht with hold | ⟨k, o, book, now, rest, htaken, hbook, hnew⟩
  · exact h.trades t hold
  · obtain ⟨t, htrade, rfl⟩ := List.mem_map.1 hnew
    have hmem := List.mem_of_getElem? hbook
    obtain ⟨hok, hamounts⟩ := h.engine.books book hmem
    obtain ⟨hpositive, htaker, side, r, hr, hmaker⟩ := matchActorOrder_parties now hok hamounts
      (h.engine.orders _ htaken.mem o rfl) htrade
    refine ⟨hpositive, fun hself => ?_⟩
    have hid : r.orderId = o.orderId := hmaker.symm.trans (hself.trans htaker)
    obtain ⟨call, hcall, hcallId, hamount⟩ := h.orders _ htaken.mem o rfl
    have hle := h.submitted_le hcall
    have hrest := (amount_le_resting hamounts hr).trans (resting_le_inBooks h.engine hmem r.orderId)
    have htransit := amount_le_inTransit h.engine htaken.mem (o := o) rfl
    have hrpos : 0 < r.amount := hamounts side r hr
    have hbalance := h.balance o.orderId
    have htrades := inTrades_nonneg h.trades_positive o.orderId
    obtain ⟨hrejected, hhandled⟩ := h.nonneg o.orderId
    rw [held] at hbalance
    rw [hid] at hrest
    rw [hcallId] at hle
    omega

/-- The orders under way after a step of the node. -/
lemma ExchangeInv.orders_step (h : ExchangeInv es s)
    (hstep : EngineStep symbols s.node s.mail x node' mail') :
    ∀ post ∈ mail', ∀ o, post.msg = .rawOrder o →
      (∃ call ∈ s.manager.calls, call.order.orderId = o.orderId ∧ call.order.amount = o.amount) ∨
        ∃ request, x = .act () (.match request) ∧ (s.node.grpc.match request).2.2 = some o := by
  intro post hpost o hmsg
  rcases mem_mail_step h.engine hstep hpost with hold | hsent
  · exact Or.inl (h.orders post hold o hmsg)
  · cases hsent with
    | @order request o' hmatch ho =>
      obtain rfl : o' = o := Message.rawOrder.inj hmsg
      exact Or.inr ⟨request, hmatch, ho⟩
    | @routed k o' _ ho =>
      obtain rfl : o' = o := Message.rawOrder.inj hmsg
      exact Or.inl (h.orders _ ho o' rfl)
    | _ => cases hmsg

/-- A step of the node, as a step of the exchange. -/
lemma stepEngine_spec (h : ExchangeInv es s) {s' : ExchangeState symbols}
    (hstep : s.stepEngine x = some s') : s'.manager = s.manager ∧
      EngineStep symbols s.node s.mail x s'.node s'.mail ∧ s'.engine.net.wire = [] := by
  obtain ⟨engine, hengine, rfl⟩ := Option.map_eq_some_iff.1 hstep
  exact ⟨rfl, engine_step_spec h.engine h.wire hengine⟩

/-- The traces after an event. -/
lemma traces_concat (hrun : (exchange symbols).Reaches es s) (e : ExchangeEvent) (id : ℤ) :
    submitted symbols id (es ++ [e]) = submitted symbols id es + quantity id (submission s e) ∧
    rejected symbols id (es ++ [e]) = rejected symbols id es + quantity id (rejection s e) ∧
    handled symbols id (es ++ [e]) = handled symbols id es + inTrades id (handledTrade s e) := by
  unfold submitted rejected handled
  rw [hrun.trace_concat, hrun.trace_concat, hrun.trace_concat]
  exact ⟨quantity_append .., quantity_append .., inTrades_append ..⟩

/-- A step of the order manager alone. -/
lemma ExchangeInv.of_manager (hrun : (exchange symbols).Reaches es s) (h : ExchangeInv es s)
    {manager : OrderManagerService} (hok : CallsOk manager)
    (hquiet : submission s e = [] ∧ rejection s e = [] ∧ handledTrade s e = [])
    (hsubscribed : manager.calls ≠ [] → s.node.grpc.matchResultWriterKeepers = [()])
    (hcalls : ∀ call ∈ s.manager.calls, ∃ call' ∈ manager.calls, call'.order = call.order)
    (haccounts : Accounts manager (fun id => submitted symbols id es)
      fun id => handled symbols id es) :
    ExchangeInv (es ++ [e]) { s with manager := manager } := by
  have htraces : ∀ id, submitted symbols id (es ++ [e]) = submitted symbols id es ∧
      rejected symbols id (es ++ [e]) = rejected symbols id es ∧
      handled symbols id (es ++ [e]) = handled symbols id es := by
    intro id
    obtain ⟨hsubmitted, hrejected, hhandled⟩ := traces_concat hrun e id
    rw [hsubmitted, hrejected, hhandled, hquiet.1, hquiet.2.1, hquiet.2.2]
    exact ⟨add_zero _, add_zero _, add_zero _⟩
  refine ⟨h.wire, h.engine, hok, hsubscribed, fun post hpost o hmsg => ?_, h.trades,
    fun id => ?_, fun id => ?_, ?_⟩
  · obtain ⟨call, hcall, hid, hamount⟩ := h.orders post hpost o hmsg
    obtain ⟨call', hcall', heq⟩ := hcalls call hcall
    exact ⟨call', hcall', by rw [heq]; exact hid, by rw [heq]; exact hamount⟩
  · rw [(htraces id).2.1, (htraces id).2.2]
    exact h.nonneg id
  · rw [(htraces id).1, (htraces id).2.1, (htraces id).2.2]
    exact h.balance id
  · simp only [htraces]
    exact haccounts

/-- A call that changes its stage keeps its order. -/
lemma exists_order_set {calls : List PlaceOrderCall} {i : ℕ} {call : PlaceOrderCall}
    (hi : calls[i]? = some call) (stage : PlaceOrderStage) :
    ∀ call' ∈ calls, ∃ call'' ∈ calls.set i { call with stage := stage },
      call''.order = call'.order := by
  intro call' hmem
  obtain ⟨j, hj⟩ := List.mem_iff_getElem?.1 hmem
  rcases eq_or_ne i j with rfl | hne
  · obtain rfl : call = call' := Option.some.inj (hi.symm.trans hj)
    exact ⟨_, List.mem_of_getElem? (List.getElem?_set_self (List.getElem?_eq_some_iff.1 hi).1), rfl⟩
  · exact ⟨call', List.mem_of_getElem? ((List.getElem?_set_ne hne).trans hj), rfl⟩

/-- Nothing is handled of an order before it is submitted. -/
lemma ExchangeInv.handled_eq_zero (h : ExchangeInv es s) {id : ℤ}
    (hsubmitted : submitted symbols id es = 0) : handled symbols id es = 0 := by
  have hbalance := h.balance id
  have htransit := inTransit_nonneg h.engine id
  have hbooks := inBooks_nonneg h.engine id
  have htrades := inTrades_nonneg h.trades_positive id
  obtain ⟨hrejected, hhandled⟩ := h.nonneg id
  rw [held] at hbalance
  omega

/-- The steps of `PlaceOrder` outside `Match`, and the writing of rows. -/
lemma ExchangeInv.step_manager (hrun : (exchange symbols).Reaches es s) (h : ExchangeInv es s)
    {manager : OrderManagerService} {x : OrderManager.Event}
    (hquiet : submission s e = [] ∧ rejection s e = [] ∧ handledTrade s e = [])
    (hstep : s.manager.step x = some manager) (hplace : ∀ now request, x = .placeOrder now request →
      0 < (request.amount : ℤ) ∧ s.node.grpc.matchResultWriterKeepers = [()])
    (hmatch : ∀ i success, x ≠ .matchEngine i success) (hreceive : ∀ trade, x ≠ .receive trade) :
    ExchangeInv (es ++ [e]) { s with manager := manager } := by
  have hok := h.callsOk.step hstep
  have hsubscribed : ∀ {i : ℕ} {call : PlaceOrderCall}, s.manager.calls[i]? = some call →
      s.node.grpc.matchResultWriterKeepers = [()] := by
    intro i call hi
    exact h.subscribed fun hnil => by simp [hnil] at hi
  cases OrderManagerService.step_spec hstep with
  | placeOrder now request =>
    obtain ⟨hpositive, hkeepers⟩ := hplace now request rfl
    set call : PlaceOrderCall := ⟨(buildOrder now s.manager.counter request).2.1,
      (buildOrder now s.manager.counter request).2.2, .built⟩ with hcall
    obtain ⟨hentry, hsubmitted⟩ := h.accounts.fresh call.order.orderId h.callsOk.ne_counter
    refine h.of_manager hrun hok hquiet (fun _ => hkeepers)
      (fun call' hcall' => ⟨call', List.mem_append_left _ hcall', rfl⟩)
      ⟨fun j call' hj => ?_, fun id hid => ?_⟩
    · rcases getElem?_concat hj with hj | ⟨-, rfl⟩
      · exact h.accounts.calls j call' hj
      · exact ⟨hpositive, request.amount.2, rfl, by rw [hentry]; rfl, hsubmitted⟩
    · exact h.accounts.fresh id fun call' hcall' => hid call' (List.mem_append_left _ hcall')
  | @save i call hi hstage =>
    refine h.of_manager hrun hok hquiet (fun _ => hsubscribed hi) (exists_order_set hi _)
      (h.accounts.set_stage h.callsOk .saved hi rfl (fun id hne => ⟨if_neg hne, rfl, rfl⟩)
        fun haccount => ?_)
    have hsubmitted := haccount.submitted_eq
    rw [hstage] at hsubmitted
    have hhandled := h.handled_eq_zero hsubmitted
    refine ⟨haccount.positive, haccount.int32, haccount.same, ?_, hsubmitted⟩
    have hpositive := haccount.positive
    simp only [saveOrderStatus, if_true, hhandled]
    rw [if_neg]
    rintro (hbuilt | hle)
    · cases hbuilt
    · exact absurd hpositive (not_lt.2 hle)
  | @persistUnsubmitted i call hi hstage =>
    refine h.of_manager hrun hok hquiet (fun _ => hsubscribed hi) (exists_order_set hi _)
      (h.accounts.set_stage h.callsOk .persistedUnsubmitted hi rfl (fun id _ => ⟨rfl, rfl, rfl⟩)
        fun haccount => haccount.of_stage (by rw [hstage]; simp) (by simp) ?_)
    rw [hstage]
    rfl
  | matchEngine success _ _ => exact absurd rfl (hmatch _ success)
  | @persistResult i call success hi hstage =>
    refine h.of_manager hrun hok hquiet (fun _ => hsubscribed hi) (exists_order_set hi _)
      (h.accounts.set_stage h.callsOk .persistedResult hi rfl (fun id _ => ⟨rfl, rfl, rfl⟩)
        fun haccount => haccount.of_stage (by rw [hstage]; simp) (by simp) ?_)
    rw [hstage]
    rfl
  | receive trade _ => exact absurd rfl (hreceive trade)
  | @persistTrade trade record records hhandling =>
    exact h.of_manager hrun hok hquiet h.subscribed (fun call hcall => ⟨call, hcall, rfl⟩)
      ⟨h.accounts.calls, h.accounts.fresh⟩

/-- A step of the node without a client, or the subscription. -/
lemma ExchangeInv.step_engine (hrun : (exchange symbols).Reaches es s) (h : ExchangeInv es s)
    {s' : ExchangeState symbols} (hquiet : submission s e = [] ∧ handledTrade s e = [])
    (hadmitted : Admitted s.node x) (hmatch : ∀ request, x ≠ .act () (.match request))
    (hentering : ∀ id, entering id s.node x = 0)
    (hleaving : ∀ id, leaving id s.node s.mail x = quantity id (rejection s e))
    (hnonneg : ∀ id, 0 ≤ quantity id (rejection s e)) (hstep : s.stepEngine x = some s') :
    ExchangeInv (es ++ [e]) s' := by
  obtain ⟨hmanager, hspec, hwire⟩ := stepEngine_spec h hstep
  have htraces : ∀ id, submitted symbols id (es ++ [e]) = submitted symbols id es ∧
      rejected symbols id (es ++ [e]) = rejected symbols id es + quantity id (rejection s e) ∧
      handled symbols id (es ++ [e]) = handled symbols id es := by
    intro id
    obtain ⟨hsubmitted, hrejected, hhandled⟩ := traces_concat hrun e id
    rw [hsubmitted, hrejected, hhandled, hquiet.1, hquiet.2]
    exact ⟨add_zero _, rfl, add_zero _⟩
  refine ⟨hwire, h.engine.step hadmitted hspec, by rw [hmanager]; exact h.callsOk,
    fun hcalls => ?_, fun post hpost o hmsg => ?_, h.trades_step hspec, fun id => ?_,
    fun id => ?_, ?_⟩
  · rw [hmanager] at hcalls
    have hkeepers := h.subscribed hcalls
    rcases keepers_step hspec with hsame | ⟨rfl, -⟩
    · exact hsame.trans hkeepers
    · rw [show s.node.grpc.matchResultWriterKeepers = [] from hadmitted] at hkeepers
      cases hkeepers
  · rw [hmanager]
    rcases h.orders_step hspec post hpost o hmsg with hold | ⟨request, heq, -⟩
    · exact hold
    · exact absurd heq (hmatch request)
  · have hrejection := hnonneg id
    obtain ⟨hrejected, hhandled⟩ := h.nonneg id
    rw [(htraces id).2.1, (htraces id).2.2]
    exact ⟨by omega, hhandled⟩
  · have hheld := held_step h.engine hspec id
    have hbalance := h.balance id
    rw [hentering, hleaving] at hheld
    rw [(htraces id).1, (htraces id).2.1, (htraces id).2.2]
    omega
  · rw [hmanager]
    simp only [htraces]
    exact h.accounts

/-- `Match` of a call reaches the node. -/
lemma ExchangeInv.step_submit (hrun : (exchange symbols).Reaches es s) (h : ExchangeInv es s)
    {i : ℕ}
    {call : PlaceOrderCall} (hi : s.manager.calls[i]? = some call) {success : Bool}
    {manager : OrderManagerService}
    (hmanager : s.manager.step (.matchEngine i success) = some manager)
    {s' : ExchangeState symbols} (hstep : ExchangeState.stepEngine { s with manager := manager }
      (.act () (.match call.matchEngineOrder)) = some s') :
    ExchangeInv (es ++ [.submit i]) s' := by
  obtain ⟨engine, hengine, rfl⟩ := Option.map_eq_some_iff.1 hstep
  obtain ⟨hspec, hwire⟩ := engine_step_spec h.engine h.wire hengine
  have hcallAccount := h.accounts.calls i call hi
  have hkeepers := h.subscribed fun hnil => by simp [hnil] at hi
  have hok := h.callsOk.step hmanager
  obtain ⟨hid, hrequestId⟩ := h.callsOk.ids i call hi
  have hadmitted : Admitted s.node (.act () (.match call.matchEngineOrder)) :=
    ⟨by rw [hcallAccount.same]; exact hcallAccount.positive, hkeepers⟩
  -- the order goes in or is rejected
  have hentering : ∀ id, entering id s.node (.act () (.match call.matchEngineOrder)) +
      quantity id (rejection s (.submit i)) = quantity id (submission s (.submit i)) := by
    intro id
    simp only [rejection, submission, hi, entering, Option.map_some, Option.toList_some]
    cases ho : (s.node.grpc.match call.matchEngineOrder).2.2 with
    | none => simp
    | some o =>
      have hoid : o.orderId = call.matchEngineOrder.orderId := by rw [match_order ho]
      have hoamount : o.amount = call.matchEngineOrder.amount := by rw [match_order ho]
      simp [quantity_singleton, amountOf, hoid, hoamount, hcallAccount.same, hrequestId, hid]
  have hnonneg : ∀ id, 0 ≤ quantity id (rejection s (.submit i)) := by
    intro id
    have hpositive := hcallAccount.positive
    simp only [rejection, hi]
    split_ifs
    · rw [quantity_singleton]
      split_ifs
      · exact hpositive.le
      · exact le_rfl
    · exact le_rfl
  have htraces := traces_concat hrun (.submit i)
  have hhandled : ∀ id, handled symbols id (es ++ [.submit i]) = handled symbols id es :=
    fun id => (htraces id).2.2.trans (add_zero _)
  cases OrderManagerService.step_spec hmanager with
  | @matchEngine _ call' _ hi' hstage =>
    obtain rfl : call = call' := Option.some.inj (hi.symm.trans hi')
    refine ⟨hwire, h.engine.step hadmitted hspec, hok, fun _ => ?_, fun post hpost o hmsg => ?_,
      h.trades_step hspec, fun id => ?_, fun id => ?_, ?_⟩
    · rcases keepers_step hspec with hsame | ⟨heq, -⟩
      · exact hsame.trans hkeepers
      · cases heq
    · obtain ⟨call', hcall', horder⟩ : ∃ call' ∈ s.manager.calls,
          call'.order.orderId = o.orderId ∧ call'.order.amount = o.amount := by
        rcases h.orders_step hspec post hpost o hmsg with hold | ⟨request, heq, ho⟩
        · exact hold
        · obtain rfl : call.matchEngineOrder = request := by simpa using heq
          have hoid : o.orderId = call.matchEngineOrder.orderId := by rw [match_order ho]
          have hoamount : o.amount = call.matchEngineOrder.amount := by rw [match_order ho]
          exact ⟨call, List.mem_of_getElem? hi, by rw [hoid, hrequestId, hid],
            by rw [hoamount, hcallAccount.same]⟩
      obtain ⟨call'', hcall'', heq⟩ := exists_order_set hi (.matched success) call' hcall'
      exact ⟨call'', hcall'', by rw [heq]; exact horder.1, by rw [heq]; exact horder.2⟩
    · have hrejection := hnonneg id
      obtain ⟨hrejected, hhandled'⟩ := h.nonneg id
      rw [(htraces id).2.1, hhandled]
      exact ⟨by omega, hhandled'⟩
    · have hheld := held_step h.engine hspec id
      have hbalance := h.balance id
      have hin := hentering id
      rw [show leaving id s.node s.mail (.act () (.match call.matchEngineOrder)) = 0 from rfl]
        at hheld
      rw [(htraces id).1, (htraces id).2.1, hhandled]
      show _ = _ + held id (engine.nodes ()) engine.net.mail + _
      omega
    · refine h.accounts.set_stage h.callsOk (.matched success) hi rfl
        (fun id hne => ⟨rfl, ?_, hhandled id⟩)
        fun haccount => ⟨haccount.positive, haccount.int32, haccount.same, ?_, ?_⟩
      · rw [(htraces id).1]
        simp [submission, hi, quantity_singleton, hne.symm]
      · rw [hhandled]
        exact haccount.entry_of_stage (by rw [hstage]; simp) (by simp)
      · have hzero := haccount.submitted_eq
        rw [hstage] at hzero
        rw [(htraces _).1, hzero]
        simp [submission, hi, quantity_singleton, PlaceOrderStage.reached]

/-- A trade is read and passes the critical section. -/
lemma ExchangeInv.step_receive (hrun : (exchange symbols).Reaches es s) (h : ExchangeInv es s)
    {trade : MatchEngineProto.Trade} {written : List (Unit × MatchEngineProto.Trade)}
    (hwritten : s.node.written = ((), trade) :: written) {manager : OrderManagerService}
    (hmanager : s.manager.step (.receive trade) = some manager) {s' : ExchangeState symbols}
    (hstep : ExchangeState.stepEngine { s with manager := manager } (.act () (.read ())) =
      some s') :
    ExchangeInv (es ++ [.receive]) s' := by
  obtain ⟨engine, hengine, rfl⟩ := Option.map_eq_some_iff.1 hstep
  obtain ⟨hspec, hwire⟩ := engine_step_spec h.engine h.wire hengine
  have hok := h.callsOk.step hmanager
  have hmem : trade ∈ unhandled s.node s.mail := by
    rw [unhandled, hwritten]
    exact List.mem_cons_self
  obtain ⟨hpositive, hne⟩ := h.trades trade hmem
  have htraces := traces_concat hrun .receive
  have hhandled : ∀ id, handled symbols id (es ++ [.receive]) =
      handled symbols id es + concludedBy trade id := by
    intro id
    rw [(htraces id).2.2]
    simp [handledTrade, hwritten, inTrades]
  have hsubmitted : ∀ id, submitted symbols id (es ++ [.receive]) = submitted symbols id es :=
    fun id => (htraces id).1.trans (add_zero _)
  have hrejected : ∀ id, rejected symbols id (es ++ [.receive]) = rejected symbols id es :=
    fun id => (htraces id).2.1.trans (add_zero _)
  cases OrderManagerService.step_spec hmanager with
  | receive _ hidle =>
    have hadmitted : Admitted s.node (.act () (.read ())) := trivial
    -- both orders of the trade are in the table
    obtain ⟨_, _, -, -, -, hmaker, -⟩ := h.entry_of_trade hmem (Or.inl rfl)
    obtain ⟨_, _, -, -, -, htaker, -⟩ := h.entry_of_trade hmem (Or.inr rfl)
    obtain ⟨htable, -⟩ := handleMatchResult_spec hmaker htaker
    refine ⟨hwire, h.engine.step hadmitted hspec, hok, fun hcalls => ?_,
      fun post hpost o hmsg => ?_,
      h.trades_step hspec, fun id => ?_, fun id => ?_, ⟨fun j call hj => ?_, fun id hid => ?_⟩⟩
    · rcases keepers_step hspec with hsame | ⟨heq, -⟩
      · exact hsame.trans (h.subscribed hcalls)
      · cases heq
    · rcases h.orders_step hspec post hpost o hmsg with hold | ⟨request, heq, -⟩
      · exact hold
      · cases heq
    · obtain ⟨hrej, hhan⟩ := h.nonneg id
      have hnonneg := concludedBy_nonneg hpositive id
      rw [hrejected, hhandled]
      exact ⟨hrej, by omega⟩
    · have hheld := held_step h.engine hspec id
      have hbalance := h.balance id
      have hleaving : leaving id s.node s.mail (.act () (.read ())) = concludedBy trade id := by
        simp [leaving, hwritten, inTrades]
      rw [hleaving, show entering id s.node (.act () (.read ())) = 0 from rfl] at hheld
      rw [hsubmitted, hrejected, hhandled]
      show _ = _ + held id (engine.nodes ()) engine.net.mail + _
      omega
    · have haccount := h.accounts.calls j call hj
      refine ⟨haccount.positive, haccount.int32, haccount.same, ?_, ?_⟩
      · rw [hhandled]
        simp only [htable]
        by_cases hid : call.order.orderId = trade.makerId ∨ call.order.orderId = trade.takerId
        · obtain ⟨i, call', hi, hcallId, hbuilt, hentry, hle⟩ := h.entry_of_trade hmem hid
          obtain rfl := h.callsOk.inj hj hi hcallId.symm
          obtain rfl : call = call' := Option.some.inj (hj.symm.trans hi)
          rw [hentry, Option.bind_some]
          simp [OrderStatus.add, OrderStatus.Concluded, hid, hbuilt]
        · have hzero : concludedBy trade call.order.orderId = 0 :=
            concludedBy_of_ne (fun heq => hid (Or.inl heq)) fun heq => hid (Or.inr heq)
          simp only [hid, false_and, if_false, hzero, OrderStatus.add_zero, add_zero,
            Option.bind_fun_some]
          exact haccount.entry_eq
      · rw [hsubmitted]
        exact haccount.submitted_eq
    · obtain ⟨hnone, hzero⟩ := h.accounts.fresh id hid
      refine ⟨?_, by rw [hsubmitted]; exact hzero⟩
      simp only [htable, hnone, Option.bind_none]

lemma quantity_orders (id : ℤ) (os : List RawOrder) :
    quantity id (os.map fun o => (o.orderId, o.amount)) = (os.map (amountOf id)).sum := by
  induction os with
  | nil => rfl
  | cons o os ih =>
    rw [List.map_cons, ← List.singleton_append, quantity_append, ih, quantity_singleton,
      List.map_cons, List.sum_cons, amountOf]

/-- What the node does on its own. -/
lemma internal_spec (s : ExchangeState symbols) (hinternal : Internal x = true) :
    Admitted s.node x ∧ (∀ request, x ≠ .act () (.match request)) ∧
      ∀ id, entering id s.node x = 0 ∧
        leaving id s.node s.mail x = quantity id (rejection s (.engine x)) := by
  cases x with
  | act host a =>
    cases a with
    | «match» request => cases hinternal
    | subscribe writer => cases hinternal
    | read writer => cases hinternal
    | _ => exact ⟨trivial, by simp, fun _ => ⟨rfl, rfl⟩⟩
  | handle a now =>
    refine ⟨trivial, by simp, fun id => ⟨rfl, ?_⟩⟩
    cases a with
    | router host => exact (quantity_orders id _).symm
    | _ => rfl
  | arrive src dst => exact ⟨trivial, by simp, fun _ => ⟨rfl, rfl⟩⟩

lemma ExchangeInv.leaving_nonneg (h : ExchangeInv es s) (id : ℤ) :
    0 ≤ ((dropped s.node s.mail).map (amountOf id)).sum := by
  refine List.sum_nonneg fun y hy => ?_
  obtain ⟨o, ho, rfl⟩ := List.mem_map.1 hy
  rw [dropped] at ho
  split at ho
  · rename_i post hfind
    exact amountOf_nonneg (h.engine.orders post (List.mem_of_find?_eq_some hfind) o
      (mem_ordersOf.1 (List.mem_filter.1 ho).1)) id
  · cases ho

/-- The keepers are those of the one subscription, once there are any. -/
lemma ExchangeInv.keepers (h : ExchangeInv es s) (hne : s.node.grpc.matchResultWriterKeepers ≠ []) :
    s.node.grpc.matchResultWriterKeepers = [()] :=
  h.engine.subscribed.resolve_right fun hnone => hne hnone.1

/-- **Every step keeps the balance.** -/
theorem ExchangeInv.step (hrun : (exchange symbols).Reaches es s) (h : ExchangeInv es s)
    (hpositive : PositiveAmount s e) {s' : ExchangeState symbols}
    (hstep : s.step e = some s') : ExchangeInv (es ++ [e]) s' := by
  have hmanager : ∀ {x : OrderManager.Event},
      (submission s e = [] ∧ rejection s e = [] ∧ handledTrade s e = []) →
      s.stepManager x = some s' → (∀ now request, x = .placeOrder now request →
        0 < (request.amount : ℤ) ∧ s.node.grpc.matchResultWriterKeepers = [()]) →
      (∀ i success, x ≠ .matchEngine i success) → (∀ trade, x ≠ .receive trade) →
      ExchangeInv (es ++ [e]) s' := by
    intro x hquiet hx hplace hmatch hreceive
    obtain ⟨manager, hmanager, rfl⟩ := Option.map_eq_some_iff.1 hx
    exact h.step_manager hrun hquiet hmanager hplace hmatch hreceive
  cases e with
  | placeOrder now request =>
    simp only [ExchangeState.step] at hstep
    split_ifs at hstep with hkeepers
    refine hmanager ⟨rfl, rfl, rfl⟩ hstep (fun now' request' heq => ?_) (by simp) (by simp)
    obtain ⟨-, rfl⟩ := OrderManager.Event.placeOrder.inj heq
    exact ⟨hpositive, h.keepers hkeepers⟩
  | save i => exact hmanager ⟨rfl, rfl, rfl⟩ hstep (by simp) (by simp) (by simp)
  | persistUnsubmitted i => exact hmanager ⟨rfl, rfl, rfl⟩ hstep (by simp) (by simp) (by simp)
  | persistResult i => exact hmanager ⟨rfl, rfl, rfl⟩ hstep (by simp) (by simp) (by simp)
  | persistTrade => exact hmanager ⟨rfl, rfl, rfl⟩ hstep (by simp) (by simp) (by simp)
  | submit i =>
    simp only [ExchangeState.step] at hstep
    split at hstep
    · rename_i call hi
      obtain ⟨s₁, h₁, h₂⟩ := Option.bind_eq_some_iff.1 hstep
      obtain ⟨manager, hmanager', rfl⟩ := Option.map_eq_some_iff.1 h₁
      exact h.step_submit hrun hi hmanager' h₂
    · cases hstep
  | receive =>
    simp only [ExchangeState.step] at hstep
    split at hstep
    · rename_i reader trade written hwritten
      obtain ⟨s₁, h₁, h₂⟩ := Option.bind_eq_some_iff.1 hstep
      obtain ⟨manager, hmanager', rfl⟩ := Option.map_eq_some_iff.1 h₁
      exact h.step_receive hrun hwritten hmanager' h₂
    · cases hstep
  | subscribe =>
    simp only [ExchangeState.step] at hstep
    split_ifs at hstep with hkeepers
    have hadmitted : Admitted s.node (.act () (.subscribe ())) := hkeepers
    exact h.step_engine hrun ⟨rfl, rfl⟩ hadmitted (by simp) (fun _ => rfl) (fun _ => rfl)
      (fun _ => le_rfl) hstep
  | engine x =>
    simp only [ExchangeState.step] at hstep
    split_ifs at hstep with hinternal
    obtain ⟨hadmitted, hmatch, hflow⟩ := internal_spec s hinternal
    refine h.step_engine hrun ⟨rfl, rfl⟩ hadmitted hmatch (fun id => (hflow id).1)
      (fun id => (hflow id).2) (fun id => ?_) hstep
    rw [← (hflow id).2]
    cases x with
    | act host a =>
      cases a with
      | read writer => cases hinternal
      | _ => exact le_rfl
    | handle a now =>
      cases a with
      | router host => exact h.leaving_nonneg id
      | _ => exact le_rfl
    | arrive src dst => exact le_rfl

end Invariant

/-! ### The accounts -/

/-- The quantity of an order whose `Match` has not reached the node. -/
def notSubmitted (id : ℤ) (calls : List PlaceOrderCall) : ℤ :=
  ((calls.filter fun call => call.order.orderId = id ∧ call.stage.reached = false).map
    fun call => call.order.amount).sum

/-- The unmatched quantity of an order: not submitted, rejected, in transit or in a book. -/
def unmatched (id : ℤ) (es : List ExchangeEvent) (s : ExchangeState symbols) : ℤ :=
  notSubmitted id s.manager.calls + rejected symbols id es + inTransit id s.mail + inBooks id s.node

/-- The accounts of all orders. -/
structure Accounted (es : List ExchangeEvent) (s : ExchangeState symbols) : Prop where
  /-- An order in the table: concluded, in trades on their way, or unmatched. -/
  balance : ∀ id status, s.manager.orderIdToOrderStatus id = some status →
    status.order.orderId = id ∧ status.order.amount =
      status.concludedAmount + (tradesFor id (unhandled s.node s.mail)).sum + unmatched id es s
  /-- An order that has left the table. -/
  erased : ∀ call ∈ s.manager.calls, call.stage ≠ .built →
    s.manager.orderIdToOrderStatus call.order.orderId = none →
      unmatched call.order.orderId es s = 0 ∧
        tradesFor call.order.orderId (unhandled s.node s.mail) = []
  /-- Both orders of a trade that is still to be handled are in the table, and the concluded
  amounts that it leads to are no larger than the amounts of the orders. -/
  found : ∀ t ∈ unhandled s.node s.mail, ∃ maker taker,
    s.manager.orderIdToOrderStatus t.makerId = some maker ∧
      s.manager.orderIdToOrderStatus t.takerId = some taker ∧
        maker.concludedAmount + t.amount ≤ maker.order.amount ∧
          taker.concludedAmount + t.amount ≤ taker.order.amount
  bounded : ∀ id status, s.manager.orderIdToOrderStatus id = some status →
    0 ≤ status.concludedAmount ∧ status.concludedAmount ≤ status.order.amount ∧
      IsInt32 status.order.amount

lemma notSubmitted_eq {manager : OrderManagerService} (hok : CallsOk manager) {i : ℕ}
    {call : PlaceOrderCall} (hi : manager.calls[i]? = some call) :
    notSubmitted call.order.orderId manager.calls =
      if call.stage.reached then 0 else call.order.amount := by
  obtain ⟨hlt, hget⟩ := List.getElem?_eq_some_iff.1 hi
  have hsplit : manager.calls = manager.calls.take i ++ call :: manager.calls.drop (i + 1) := by
    rw [← hget, List.cons_getElem_drop_succ, List.take_append_drop]
  -- no other call has this id
  have hother : ∀ {l : List PlaceOrderCall}, (∀ (j : ℕ) (call' : PlaceOrderCall),
      l[j]? = some call' → call'.order.orderId ≠ call.order.orderId) →
      l.filter (fun c => c.order.orderId = call.order.orderId ∧ c.stage.reached = false) = [] := by
    intro l hl
    refine List.filter_eq_nil_iff.2 fun c hc hmatch => ?_
    obtain ⟨j, hj⟩ := List.mem_iff_getElem?.1 hc
    exact hl j c hj (of_decide_eq_true hmatch).1
  have htake : ∀ (j : ℕ) (call' : PlaceOrderCall), (manager.calls.take i)[j]? = some call' →
      call'.order.orderId ≠ call.order.orderId := by
    intro j call' hj heq
    have hji : j < i := by
      have hlen := (List.getElem?_eq_some_iff.1 hj).1
      rw [List.length_take] at hlen
      omega
    rw [List.getElem?_take_of_lt hji] at hj
    exact hji.ne (hok.inj hj hi heq)
  have hdrop : ∀ (j : ℕ) (call' : PlaceOrderCall), (manager.calls.drop (i + 1))[j]? = some call' →
      call'.order.orderId ≠ call.order.orderId := by
    intro j call' hj heq
    rw [List.getElem?_drop] at hj
    have hij := hok.inj hj hi heq
    omega
  rw [notSubmitted, hsplit, List.filter_append, List.filter_cons, hother htake, hother hdrop]
  cases call.stage.reached <;> simp

/-- The balance of a call. -/
lemma ExchangeInv.unmatched_eq {es : List ExchangeEvent} {s : ExchangeState symbols}
    (h : ExchangeInv es s) {call : PlaceOrderCall} (hcall : call ∈ s.manager.calls) :
    call.order.amount = handled symbols call.order.orderId es +
      (tradesFor call.order.orderId (unhandled s.node s.mail)).sum +
        unmatched call.order.orderId es s := by
  obtain ⟨i, hi⟩ := List.mem_iff_getElem?.1 hcall
  have hbalance := h.balance call.order.orderId
  have hsubmitted := (h.accounts.calls i call hi).submitted_eq
  have hnot := notSubmitted_eq h.callsOk hi
  have htrades := inTrades_eq (fun t ht => (h.trades t ht).2) call.order.orderId
  rw [held] at hbalance
  unfold unmatched
  split_ifs at hsubmitted hnot <;> omega

/-- **Every order is accounted for.**  In every state that the exchange reaches with positive
amounts: the amount of an order in the table is what is concluded of it, what is in trades on
their way, and what is unmatched; an order that has left the table has nothing of the last
two; and a trade finds both its orders. -/
theorem exchange_accounts (symbols : List ℤ) (es : List ExchangeEvent)
    (s : ExchangeState symbols) (h : (exchange symbols).Run PositiveAmount es s) :
    Accounted es s := by
  have hinv : ExchangeInv es s := by
    refine h.invariant (P := ExchangeInv) exchangeInv_init ?_
    intro es s e s' hrun hinv hpositive hstep
    exact hinv.step hrun.reaches hpositive hstep
  -- an entry of the table is that of a call
  have hentry : ∀ id status, s.manager.orderIdToOrderStatus id = some status →
      ∃ call ∈ s.manager.calls, call.order.orderId = id ∧
        status = ⟨call.order, handled symbols id es⟩ ∧
          handled symbols id es < call.order.amount ∧ IsInt32 call.order.amount := by
    intro id status hstatus
    have hknown : ∃ call ∈ s.manager.calls, call.order.orderId = id := by
      by_contra hnot
      rw [(hinv.accounts.fresh id fun call hcall heq => hnot ⟨call, hcall, heq⟩).1] at hstatus
      cases hstatus
    obtain ⟨call, hcall, rfl⟩ := hknown
    obtain ⟨i, hi⟩ := List.mem_iff_getElem?.1 hcall
    have haccount := hinv.accounts.calls i call hi
    rw [haccount.entry_eq] at hstatus
    split_ifs at hstatus with hdone
    exact ⟨call, hcall, rfl, (Option.some.inj hstatus).symm,
      lt_of_not_ge fun hle => hdone (Or.inr hle), haccount.int32⟩
  refine ⟨fun id status hstatus => ?_, fun call hcall hbuilt hnone => ?_, fun t ht => ?_,
    fun id status hstatus => ?_⟩
  · obtain ⟨call, hcall, rfl, rfl, -, -⟩ := hentry id status hstatus
    exact ⟨rfl, hinv.unmatched_eq hcall⟩
  · -- all of the order is handled, so the other two parts are zero
    obtain ⟨i, hi⟩ := List.mem_iff_getElem?.1 hcall
    have haccount := hinv.accounts.calls i call hi
    have hdone : call.order.amount ≤ handled symbols call.order.orderId es := by
      by_contra hnot
      have hsome := haccount.entry_eq
      rw [hnone, if_neg (by rintro (h | h) <;> contradiction)] at hsome
      cases hsome
    have hbalance := hinv.unmatched_eq hcall
    have htrades := inTrades_eq (fun t ht => (hinv.trades t ht).2) call.order.orderId
    have hnonneg := inTrades_nonneg hinv.trades_positive call.order.orderId
    have hunmatched : 0 ≤ unmatched call.order.orderId es s := by
      have hnot := notSubmitted_eq hinv.callsOk hi
      have hrejected := (hinv.nonneg call.order.orderId).1
      have htransit := inTransit_nonneg hinv.engine call.order.orderId
      have hbooks := inBooks_nonneg hinv.engine call.order.orderId
      have hpositive := haccount.positive
      unfold unmatched
      split_ifs at hnot <;> omega
    refine ⟨by omega, ?_⟩
    rw [tradesFor, List.map_eq_nil_iff, List.filter_eq_nil_iff]
    intro t ht hparty
    obtain ⟨_, _, -, -, -, hentry, -⟩ := hinv.entry_of_trade ht (of_decide_eq_true hparty)
    rw [hnone] at hentry
    cases hentry
  · obtain ⟨_, maker, -, -, -, hmaker, hlem⟩ := hinv.entry_of_trade ht (Or.inl rfl)
    obtain ⟨_, taker, -, -, -, htaker, hlet⟩ := hinv.entry_of_trade ht (Or.inr rfl)
    exact ⟨_, _, hmaker, htaker, hlem, hlet⟩
  · obtain ⟨call, hcall, rfl, rfl, hlt, hint⟩ := hentry id status hstatus
    exact ⟨(hinv.nonneg _).2, hlt.le, hint⟩

/-- The node starts, with one symbol, and the order manager subscribes. -/
def exchangeStart : List ExchangeEvent :=
  [.engine (.act () .boot), .engine (.act () .mainStep), .engine (.act () .mainStep),
    .engine (.act () .serve), .subscribe]

/-- An order of 5 or 3 for the symbol is placed as the `i`-th call, up to `Match`. -/
def placeAndSubmit (i : ℕ) (side : OrderManagerProto.TradingSide) (amount : I32) :
    List ExchangeEvent :=
  [.placeOrder 0 ⟨.ofInt 7, .ofInt 2, side, amount, .ofInt 100⟩,
    .save i, .persistUnsubmitted i, .submit i]

/-- The router handles its four messages, the match actor its three, and the trades go out. -/
def matchAll : List ExchangeEvent :=
  [.engine (.handle (.router ()) 0), .engine (.handle (.router ()) 0),
    .engine (.handle (.router ()) 0), .engine (.handle (.router ()) 0),
    .engine (.handle (.matchActor () 0) 0), .engine (.handle (.matchActor () 0) 0),
    .engine (.handle (.matchActor () 0) 0), .engine (.handle (.matchResultDealActor ()) 0)]

/-- A sell order of 5 and a buy order of 3, whose trade has been read. -/
theorem accounts_of_twoOrders :
    let es := exchangeStart ++ placeAndSubmit 0 .tradingSell (.ofInt 5) ++
      placeAndSubmit 1 .tradingBuy (.ofInt 3) ++ matchAll ++ [.receive]
    ∃ s, (exchange [7]).Run PositiveAmount es s ∧ Accounted es s ∧ handled [7] 1 es = 3 ∧
      handled [7] 2 es = 3 := by
  have hrun : (exchange [7]).admits PositiveAmount (exchangeStart ++
      placeAndSubmit 0 .tradingSell (.ofInt 5) ++
        placeAndSubmit 1 .tradingBuy (.ofInt 3) ++ matchAll ++ [.receive]) := by decide
  obtain ⟨s, hs⟩ := Machine.exists_run _ hrun
  exact ⟨s, hs, exchange_accounts [7] _ s hs, by decide, by decide⟩

end TradingEngine.System
