/-
Which rows of the database the orders and the trades end up in.

A row is identified by its measurement, its tags and its timestamp, and a later write to it
overwrites the earlier one.  The entities have no tags, so a row is as good as a reading of
the clock.
-/
import TradingEngine.OrderManager.OrderStoreInfluxdb
import TradingEngine.OrderManager.Steps
import TradingEngine.TradePersistence.TradePersistenceClient

namespace TradingEngine.DatabaseInterface

open Lib OrderManager TradePersistence

/-! ### Points -/

/-- What identifies a row. -/
structure Point where
  measurement : String
  tags : Finset DataPair
  timestamp : ℤ
  deriving DecidableEq

/-- The point that an entity is written to. -/
def Entity.point (e : Entity) : Point := ⟨e.measurement, e.tag.toFinset, e.timestamp⟩

/-- The rows after the entities are written. -/
def rows (es : List Entity) : Finset Point := (es.map Entity.point).toFinset

/-! ### Orders -/

/-- The order manager on its own. -/
def orderManager : Machine OrderManagerService OrderManager.Event where
  init := {}
  step := OrderManagerService.step

/-- The readings of the clock by the calls of `PlaceOrder`. -/
def readings (es : List OrderManager.Event) : List ℤ :=
  es.filterMap fun e =>
    match e with
    | .placeOrder now _ => some now
    | _ => none

/-- An order of which a row was written. -/
def Written (s : OrderManagerService) (call : PlaceOrderCall) : Prop :=
  call.order ∈ s.orderStore.map Record.order

instance (s : OrderManagerService) (call : PlaceOrderCall) : Decidable (Written s call) :=
  inferInstanceAs (Decidable (_ ∈ _))

/-- The calls whose orders were written. -/
def writtenCalls (s : OrderManagerService) : List PlaceOrderCall :=
  s.calls.filter fun call => Written s call

/-- The clock readings of these orders. -/
def writtenReadings (s : OrderManagerService) : List ℤ :=
  (writtenCalls s).map fun call => call.order.submitTime

/-- Two orders are never in one row, and every order that was written has one row. -/
structure OrdersApart (s : OrderManagerService) : Prop where
  apart : ∀ r ∈ s.orderStore, ∀ r' ∈ s.orderStore, r.order.orderId ≠ r'.order.orderId →
    r.entity.point ≠ r'.entity.point
  count : (rows (s.orderStore.map Record.entity)).card = (writtenCalls s).length

/-- The orders of the calls of `PlaceOrder`. -/
def placedOrders (s : OrderManagerService) : List Order := s.calls.map PlaceOrderCall.order

/-- The rows are those of orders that were placed, at the times of the readings. -/
structure RecordsOk (es : List OrderManager.Event) (s : OrderManagerService) : Prop where
  callsOk : CallsOk s
  entriesOk : EntriesOk s
  readings_eq : (placedOrders s).map Order.submitTime = readings es
  stored : ∀ r ∈ s.orderStore, r.order ∈ placedOrders s
  handling : ∀ trade records, s.handling = some (trade, records) →
    ∀ r ∈ records, r.order ∈ placedOrders s

lemma placedOrders_setStage {s : OrderManagerService} {i : ℕ} {call : PlaceOrderCall}
    {stage : PlaceOrderStage} (h : s.calls[i]? = some call) :
    placedOrders (s.setStage i call stage) = placedOrders s := by
  refine List.ext_getElem? fun j => ?_
  rw [placedOrders, placedOrders, List.getElem?_map, List.getElem?_map,
    OrderManagerService.setStage_calls]
  rcases eq_or_ne i j with rfl | hne
  · rw [List.getElem?_set_self (List.getElem?_eq_some_iff.1 h).1, h]
    rfl
  · rw [List.getElem?_set_ne hne]

lemma mem_placedOrders {s : OrderManagerService} {i : ℕ} {call : PlaceOrderCall}
    (h : s.calls[i]? = some call) : call.order ∈ placedOrders s :=
  List.mem_map_of_mem (List.mem_of_getElem? h)

/-- What `HandleMatchResult` is going to persist are rows of orders in the table. -/
lemma handleMatchResult_records {statusMap : OrderStatusMap} {trade : MatchEngineProto.Trade} :
    ∀ r ∈ (handleMatchResult statusMap trade).2,
      ∃ id status, statusMap id = some status ∧ status.order = r.order := by
  intro r hr
  cases hm : statusMap trade.makerId with
  | none =>
    rw [handleMatchResult_of_none (Or.inl hm)] at hr
    cases hr
  | some maker =>
    cases ht : statusMap trade.takerId with
    | none =>
      rw [handleMatchResult_of_none (Or.inr ht)] at hr
      cases hr
    | some taker =>
      rw [(handleMatchResult_spec hm ht).2] at hr
      rcases List.mem_cons.1 hr with rfl | hr
      · exact ⟨_, _, hm, rfl⟩
      · rw [List.mem_singleton.1 hr]
        exact ⟨_, _, ht, rfl⟩

section Steps

variable {es : List OrderManager.Event} {s s' : OrderManagerService} {e : OrderManager.Event}

/-- A step of which the orders are those that are already placed. -/
lemma RecordsOk.keep (h : RecordsOk es s) (hstep : s.step e = some s')
    (hreadings : readings (es ++ [e]) = readings es) (horders : placedOrders s' = placedOrders s)
    (hstored : ∀ r ∈ s'.orderStore, r ∈ s.orderStore ∨ r.order ∈ placedOrders s)
    (hhandling : ∀ trade records, s'.handling = some (trade, records) →
      ∀ r ∈ records, r.order ∈ placedOrders s) : RecordsOk (es ++ [e]) s' where
  callsOk := h.callsOk.step hstep
  entriesOk := h.entriesOk.step hstep
  readings_eq := by rw [horders, hreadings, h.readings_eq]
  stored := by
    intro r hr
    rw [horders]
    rcases hstored r hr with hr | hr
    · exact h.stored r hr
    · exact hr
  handling := by
    rw [horders]
    exact hhandling

lemma readings_concat (es : List OrderManager.Event) (e : OrderManager.Event) :
    readings (es ++ [e]) = readings es ++ readings [e] :=
  List.filterMap_append ..

/-- A row is written for an order that was placed. -/
lemma mem_orderStore_persistOrder {record r : Record} (hr : r ∈ (s.persistOrder record).orderStore)
    (hrecord : record.order ∈ placedOrders s) : r ∈ s.orderStore ∨ r.order ∈ placedOrders s := by
  rcases List.mem_append.1 hr with hr | hr
  · exact Or.inl hr
  · rw [List.mem_singleton.1 hr]
    exact Or.inr hrecord

lemma RecordsOk.step (h : RecordsOk es s) (hstep : s.step e = some s') :
    RecordsOk (es ++ [e]) s' := by
  cases OrderManagerService.step_spec hstep with
  | placeOrder now request =>
    have hold : ∀ order ∈ placedOrders s,
        order ∈ placedOrders s ++ [(buildOrder now s.counter request).2.1] := fun order horder =>
      List.mem_append_left _ horder
    have horders : placedOrders { s with
        counter := s.counter + 1
        calls := s.calls ++ [⟨(buildOrder now s.counter request).2.1,
          (buildOrder now s.counter request).2.2, .built⟩] } =
        placedOrders s ++ [(buildOrder now s.counter request).2.1] := List.map_append
    refine ⟨h.callsOk.step hstep, h.entriesOk.step hstep, ?_, ?_, ?_⟩
    · rw [horders, List.map_append, h.readings_eq, readings_concat]
      rfl
    · rw [horders]
      exact fun r hr => hold _ (h.stored r hr)
    · rw [horders]
      exact fun trade records hhandling r hr => hold _ (h.handling trade records hhandling r hr)
  | save hi _ =>
    exact h.keep hstep (by simp [readings]) (placedOrders_setStage hi) (fun _ => Or.inl) h.handling
  | persistUnsubmitted hi _ =>
    exact h.keep hstep (by simp [readings]) (placedOrders_setStage hi)
      (fun r hr => mem_orderStore_persistOrder hr (mem_placedOrders hi)) h.handling
  | matchEngine success hi _ =>
    exact h.keep hstep (by simp [readings]) (placedOrders_setStage hi) (fun _ => Or.inl) h.handling
  | persistResult hi _ =>
    exact h.keep hstep (by simp [readings]) (placedOrders_setStage hi)
      (fun r hr => mem_orderStore_persistOrder hr (mem_placedOrders hi)) h.handling
  | receive trade _ =>
    refine h.keep hstep (by simp [readings]) rfl (fun _ => Or.inl)
      fun trade' records hhandling r hr => ?_
    have hrecords : records = (handleMatchResult s.orderIdToOrderStatus trade).2 := by
      dsimp only at hhandling
      split_ifs at hhandling
      exact (Prod.mk.inj (Option.some.inj hhandling)).2.symm
    rw [hrecords] at hr
    obtain ⟨id, status, hstatus, horder⟩ := handleMatchResult_records r hr
    obtain ⟨i, call, hi, hcall, -⟩ := h.entriesOk id status hstatus
    rw [← horder, ← hcall]
    exact mem_placedOrders hi
  | @persistTrade trade record records hhandling =>
    have hall := h.handling trade _ hhandling
    refine h.keep hstep (by simp [readings]) rfl
      (fun r hr => mem_orderStore_persistOrder hr (hall record List.mem_cons_self))
      fun trade' records' hhandling' r hr => ?_
    dsimp only at hhandling'
    split_ifs at hhandling'
    obtain ⟨rfl, rfl⟩ := Prod.mk.inj (Option.some.inj hhandling')
    exact hall r (List.mem_cons_of_mem _ hr)

end Steps

lemma recordsOk_of_run {es : List OrderManager.Event} {s : OrderManagerService}
    (h : orderManager.Reaches es s) : RecordsOk es s := by
  refine h.invariant (P := RecordsOk)
    ⟨callsOk_init, fun id status hs => ?_, rfl, fun r hr => ?_, fun trade records hr => ?_⟩
    fun es s e s' _ hok _ hstep => hok.step hstep
  · cases hs
  · cases hr
  · cases hr

/-- The row of an order that was placed at a reading of the clock. -/
def orderPoint (now : ℤ) : Point := ⟨"order", ∅, now⟩

lemma orderPoint_injective : Function.Injective orderPoint := by
  intro a b h
  simpa [orderPoint] using h

lemma Record.point_entity (r : Record) : r.entity.point = orderPoint r.order.submitTime := by
  simp [Record.entity, persistOrderEntity, Entity.point, orderPoint]

/-- The rows of the orders are those of their readings. -/
lemma rows_orderStore {es : List OrderManager.Event} {s : OrderManagerService}
    (h : RecordsOk es s) :
    rows (s.orderStore.map Record.entity) = (writtenReadings s).toFinset.image orderPoint := by
  ext p
  simp only [rows, writtenReadings, writtenCalls, Written, List.mem_toFinset, List.mem_map,
    Finset.mem_image, List.mem_filter, decide_eq_true_eq]
  constructor
  · rintro ⟨e, ⟨r, hr, rfl⟩, rfl⟩
    obtain ⟨call, hcall, horder⟩ := List.mem_map.1 (h.stored r hr)
    exact ⟨r.order.submitTime, ⟨call, ⟨hcall, r, hr, horder.symm⟩, by rw [horder]⟩,
      (Record.point_entity r).symm⟩
  · rintro ⟨now, ⟨call, ⟨-, r, hr, horder⟩, rfl⟩, rfl⟩
    exact ⟨r.entity, ⟨r, hr, rfl⟩, by rw [Record.point_entity, horder]⟩

lemma card_toFinset_eq_length_iff {α : Type*} [DecidableEq α] (l : List α) :
    l.toFinset.card = l.length ↔ l.Nodup :=
  Multiset.toFinset_card_eq_card_iff_nodup

/-- **The orders are apart** if and only if those that were written were placed at different
readings of the clock. -/
theorem ordersApart_iff {es : List OrderManager.Event} {s : OrderManagerService}
    (h : RecordsOk es s) : OrdersApart s ↔ (writtenReadings s).Nodup := by
  have hcard : (rows (s.orderStore.map Record.entity)).card = (writtenCalls s).length ↔
      (writtenReadings s).Nodup := by
    rw [rows_orderStore h, Finset.card_image_of_injective _ orderPoint_injective,
      ← card_toFinset_eq_length_iff, writtenReadings, List.length_map]
  refine ⟨fun hapart => hcard.1 hapart.count, fun hnodup => ⟨?_, hcard.2 hnodup⟩⟩
  intro r hr r' hr' hid hpoint
  rw [Record.point_entity, Record.point_entity, orderPoint_injective.eq_iff] at hpoint
  -- the calls of the two orders are written, so they are one call
  have hwritten : ∀ r ∈ s.orderStore, ∃ call ∈ writtenCalls s, call.order = r.order := by
    intro r hr
    obtain ⟨call, hcall, horder⟩ := List.mem_map.1 (h.stored r hr)
    refine ⟨call, List.mem_filter.2 ⟨hcall, decide_eq_true ?_⟩, horder⟩
    rw [Written, horder]
    exact List.mem_map_of_mem hr
  obtain ⟨call, hcall, horder⟩ := hwritten r hr
  obtain ⟨call', hcall', horder'⟩ := hwritten r' hr'
  have heq : call = call' := List.inj_on_of_nodup_map hnodup hcall hcall'
    (by rw [horder, horder', hpoint])
  rw [← horder, ← horder', heq] at hid
  exact hid rfl

/-! ### Trades -/

/-- Two trades are never in one row, and every trade has one row. -/
structure TradesApart (databaseTableName : String) (received : List Received) : Prop where
  apart : (tradeEntities databaseTableName received).Pairwise fun e e' => e.point ≠ e'.point
  count : (rows (tradeEntities databaseTableName received)).card = received.length

/-- **The trades are apart** if and only if they are written at different readings. -/
theorem tradesApart_iff (databaseTableName : String) (received : List Received) :
    TradesApart databaseTableName received ↔ (received.map Received.now).Nodup := by
  have hpoints : (tradeEntities databaseTableName received).map Entity.point =
      (received.map Received.now).map fun now => ⟨databaseTableName, ∅, now⟩ := by
    rw [tradeEntities_eq, List.map_map, List.map_map]
    refine List.map_congr_left fun r _ => ?_
    simp [Received.entity, TradeEntity.toEntity, Entity.point]
  have hnodup : ((tradeEntities databaseTableName received).map Entity.point).Nodup ↔
      (received.map Received.now).Nodup := by
    rw [hpoints]
    refine List.nodup_map_iff fun a b hab => ?_
    simpa using hab
  refine ⟨fun hapart => hnodup.1 (List.pairwise_map.2 hapart.apart), fun hnow => ⟨?_, ?_⟩⟩
  · exact List.pairwise_map.1 (hnodup.2 hnow)
  · rw [rows, (card_toFinset_eq_length_iff _).2 (hnodup.2 hnow), hpoints]
    simp

/-- **Every order and every trade has a row of its own** if and only if no two of the written
orders, and no two of the trades, get the same reading of the clock.  Orders are compared with
orders and trades with trades: `databaseTableName` is the measurement of the trades, and it is not
`order` in a deployment, as an order and a trade of one measurement could share a row. -/
theorem onePointEach_iff (es : List OrderManager.Event) (s : OrderManagerService)
    (h : orderManager.Reaches es s) (databaseTableName : String) (received : List Received) :
    OrdersApart s ∧ TradesApart databaseTableName received ↔
      (writtenReadings s).Nodup ∧ (received.map Received.now).Nodup := by
  rw [ordersApart_iff (recordsOk_of_run h), tradesApart_iff]

/-- A clock that is never read twice at one value keeps the orders apart. -/
lemma ordersApart_of_increasing {es : List OrderManager.Event} {s : OrderManagerService}
    (h : orderManager.Reaches es s) (hclock : (readings es).Pairwise (· < ·)) :
    OrdersApart s := by
  have hok := recordsOk_of_run h
  rw [ordersApart_iff hok]
  have hsublist : (writtenReadings s).Sublist (readings es) := by
    rw [← hok.readings_eq, placedOrders, List.map_map]
    exact List.filter_sublist.map _
  exact (hclock.imp fun hlt => ne_of_lt hlt).sublist hsublist

/-- Two orders are placed, at the readings `a` and `b`, and written. -/
def twoOrders (a b : ℤ) : List OrderManager.Event :=
  let request : OrderManagerProto.Order :=
    ⟨.ofInt 7, .ofInt 2, .tradingBuy, .ofInt 5, .ofInt 100⟩
  [.placeOrder a request, .placeOrder b request, .save 0, .persistUnsubmitted 0, .save 1,
    .persistUnsubmitted 1]

/-- A trade of these orders, written at a reading of the clock. -/
def tradeAt (now : ℤ) : Received := ⟨⟨1, 2, .tradingBuy, 5, 100, 2, 2, 7, 0⟩, "uuid", now⟩

theorem onePointEach_of_twoOrders : ∃ s, orderManager.Reaches (twoOrders 5 6) s ∧
    OrdersApart s ∧ TradesApart "trades" [tradeAt 7, tradeAt 8] := by
  have hrun : orderManager.admits (fun _ _ => True) (twoOrders 5 6) := by decide
  obtain ⟨s, hs⟩ := orderManager.exists_run hrun
  have hreadings : (orderManager.runFrom (fun _ _ => True) orderManager.init
      (twoOrders 5 6)).map writtenReadings = some [5, 6] := by decide
  rw [hs.runFrom, Option.map_some, Option.some.injEq] at hreadings
  exact ⟨s, hs, (onePointEach_iff _ s hs "trades" [tradeAt 7, tradeAt 8]).2
    (by rw [hreadings]; decide)⟩

/-- Two orders that read the same clock value are in one row. -/
theorem not_onePointEach_of_sameReading : ¬ ∀ (es : List OrderManager.Event)
    (s : OrderManagerService), orderManager.Reaches es s → (readings es).Pairwise (· ≤ ·) →
      OrdersApart s := by
  intro hall
  have hrun : orderManager.admits (fun _ _ => True) (twoOrders 5 5) := by decide
  obtain ⟨s, hs⟩ := orderManager.exists_run hrun
  have hreadings : (orderManager.runFrom (fun _ _ => True) orderManager.init
      (twoOrders 5 5)).map writtenReadings = some [5, 5] := by decide
  rw [hs.runFrom, Option.map_some, Option.some.injEq] at hreadings
  have hnodup := (ordersApart_iff (recordsOk_of_run hs)).1 (hall _ s hs (by decide))
  rw [hreadings] at hnodup
  revert hnodup
  decide

end TradingEngine.DatabaseInterface
