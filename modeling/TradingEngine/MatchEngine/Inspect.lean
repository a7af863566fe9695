/-
The inspect functions of the messages of the cluster (`match_engine_config.h`).

A message for an actor of the same node is handed over as it is; for an actor of another node
it is saved and loaded with its inspect function.  The function of `MatchedTrade` leaves
`deal_time` out, and the constructor of `MatchedTrade` does not set it either
(`otherNode_eq_sameNode_iff`).
-/
import TradingEngine.Lib.Inspector
import TradingEngine.MatchEngine.Config

namespace TradingEngine.MatchEngine

open Lib

variable {α : Type}

/-- What is written for another node. -/
inductive Wire (α : Type)
  | number (n : ℤ)
  | actor (handle : α)
  deriving DecidableEq

namespace Wire

/-- The number in a slot, if there is one. -/
def getNumber : Wire α → Option ℤ
  | number n => some n
  | actor _ => none

/-- The handle in a slot, if there is one. -/
def getActor : Wire α → Option α
  | number _ => none
  | actor handle => some handle

/-- The number of an enumerator. -/
def ofSite : TradingSite → Wire α
  | .buy => number 0
  | .sell => number 1

/-- The side whose number is in a slot. -/
def getSite : Wire α → Option TradingSite
  | number 0 => some .buy
  | number 1 => some .sell
  | _ => none

/-- The length that goes before the elements. -/
def ofSize (n : ℕ) : Wire α := number n

/-- The length in a slot. -/
def getSize : Wire α → Option ℕ
  | number n => n.toNat?
  | actor _ => none

lemma getNumber_number (n : ℤ) : getNumber (number n : Wire α) = some n := rfl

lemma getActor_actor (handle : α) : getActor (actor handle) = some handle := rfl

lemma getSite_ofSite (side : TradingSite) : getSite (ofSite side : Wire α) = some side := by
  cases side <;> rfl

lemma getSize_ofSize (n : ℕ) : getSize (ofSize n : Wire α) = some n := rfl

end Wire

/-- What the memory of a node holds before a message is loaded: the members of an order, the
symbol of an entry, and the members of each trade, which the constructors do not set. -/
structure Memory where
  rawOrder : RawOrder
  symbolId : ℤ
  trade : ℕ → MatchedTrade

/-! ### The inspect functions -/

/-- An integer goes into one slot. -/
def inspectNumber : Inspector (Wire α) Memory ℤ :=
  .value Wire.number Wire.getNumber Wire.getNumber_number

/-- A side goes into one slot. -/
def inspectSite : Inspector (Wire α) Memory TradingSite :=
  .value Wire.ofSite Wire.getSite Wire.getSite_ofSite

/-- A handle goes into one slot. -/
def inspectActor : Inspector (Wire α) Memory α :=
  .value Wire.actor Wire.getActor Wire.getActor_actor

/-- `inspect` of `RawOrder`. -/
def RawOrder.inspect : Inspector (Wire α) Memory RawOrder :=
  Inspector.nothing
    |>.andMember inspectNumber RawOrder.orderId (fun x v => { x with orderId := v })
    |>.andMember inspectNumber RawOrder.symbolId (fun x v => { x with symbolId := v })
    |>.andMember inspectNumber RawOrder.userId (fun x v => { x with userId := v })
    |>.andMember inspectSite RawOrder.tradingSide (fun x v => { x with tradingSide := v })
    |>.andMember inspectNumber RawOrder.amount (fun x v => { x with amount := v })
    |>.andMember inspectNumber RawOrder.price (fun x v => { x with price := v })
    |>.andMember inspectNumber RawOrder.submitTime (fun x v => { x with submitTime := v })

/-- `inspect` of `SymbolActorInfo`. -/
def SymbolActorInfo.inspect : Inspector (Wire α) Memory (SymbolActorInfo α) :=
  Inspector.nothing
    |>.andMember inspectNumber SymbolActorInfo.symbolId (fun x v => { x with symbolId := v })
    |>.andMember inspectActor SymbolActorInfo.symbolActor (fun x v => { x with symbolActor := v })

/-- `inspect` of `MatchedTrade`. -/
def MatchedTrade.inspect : Inspector (Wire α) Memory MatchedTrade :=
  Inspector.nothing
    |>.andMember inspectNumber MatchedTrade.makerId (fun x v => { x with makerId := v })
    |>.andMember inspectNumber MatchedTrade.takerId (fun x v => { x with takerId := v })
    |>.andMember inspectSite MatchedTrade.tradingSide (fun x v => { x with tradingSide := v })
    |>.andMember inspectNumber MatchedTrade.amount (fun x v => { x with amount := v })
    |>.andMember inspectNumber MatchedTrade.price (fun x v => { x with price := v })
    |>.andMember inspectNumber MatchedTrade.sellerUserId (fun x v => { x with sellerUserId := v })
    |>.andMember inspectNumber MatchedTrade.buyerUserId (fun x v => { x with buyerUserId := v })
    |>.andMember inspectNumber MatchedTrade.symbolId (fun x v => { x with symbolId := v })
    |>.andMember inspectNumber MatchedTrade.submitTime (fun x v => { x with submitTime := v })

/-- `TradeListMsg`. -/
structure TradeListMsg where
  data : TradeList
  deriving DecidableEq

/-- Each trade of the list is constructed in the memory before it is loaded. -/
def inspectTradeList : Inspector (Wire α) Memory TradeList :=
  .vector MatchedTrade.inspect Wire.ofSize Wire.getSize Wire.getSize_ofSize Memory.trade

/-- `inspect` of `TradeListMsg`. -/
def TradeListMsg.inspect : Inspector (Wire α) Memory TradeListMsg :=
  Inspector.nothing
    |>.andMember inspectTradeList TradeListMsg.data (fun x v => { x with data := v })

/-! ### What comes back -/

lemma RawOrder.merge_inspect (memory : Memory) (order place : RawOrder) :
    (RawOrder.inspect (α := α)).merge memory order place = order := by
  simp [inspect, inspectNumber, inspectSite]

lemma SymbolActorInfo.merge_inspect (memory : Memory) (info place : SymbolActorInfo α) :
    SymbolActorInfo.inspect.merge memory info place = info := by
  simp [inspect, inspectNumber, inspectActor]

/-- The deal time of a loaded trade is the one of the place. -/
lemma MatchedTrade.merge_inspect (memory : Memory) (trade place : MatchedTrade) :
    (MatchedTrade.inspect (α := α)).merge memory trade place =
      { trade with dealTime := place.dealTime } := by
  simp [inspect, inspectNumber, inspectSite]

lemma MatchedTrade.merge_inspect_eq_iff (memory : Memory) (trade place : MatchedTrade) :
    (MatchedTrade.inspect (α := α)).merge memory trade place = trade ↔
      place.dealTime = trade.dealTime := by
  rw [merge_inspect]
  constructor
  · intro heq
    have htime := congrArg MatchedTrade.dealTime heq
    exact htime
  · intro htime
    rw [htime]

/-- A list of trades comes back when each deal time is in memory already. -/
lemma TradeListMsg.merge_inspect_eq_iff (memory : Memory) (msg place : TradeListMsg) :
    (TradeListMsg.inspect (α := α)).merge memory msg place = msg ↔
      ∀ i (h : i < msg.data.length), (memory.trade i).dealTime = msg.data[i].dealTime := by
  obtain ⟨data⟩ := msg
  simp only [inspect, inspectTradeList, Inspector.merge_andMember, Inspector.merge_nothing,
    TradeListMsg.mk.injEq, Inspector.merge_vector_eq_iff]
  exact forall₂_congr fun i _ => MatchedTrade.merge_inspect_eq_iff memory _ _

/-! ### Messages -/

/-- The messages that go from one node to another. -/
inductive ClusterMessage (α : Type)
  | rawOrder (order : RawOrder)
  | symbolActorInfo (info : SymbolActorInfo α)
  | tradeListMsg (msg : TradeListMsg)
  deriving DecidableEq

namespace ClusterMessage

/-- The registered name of the type of a message, and its members. -/
def save : ClusterMessage α → String × List (Wire α)
  | rawOrder order => ("RawOrder", RawOrder.inspect.save order)
  | symbolActorInfo info => ("SymbolActorInfo", SymbolActorInfo.inspect.save info)
  | tradeListMsg msg => ("TradeListMsg", TradeListMsg.inspect.save msg)

/-- A message of the registered type is constructed and loaded; a handle and a vector have
constructors of their own. -/
def load [Inhabited α] (memory : Memory) : String × List (Wire α) → Option (ClusterMessage α)
  | ("RawOrder", values) =>
    (RawOrder.inspect.load memory memory.rawOrder values).map fun (order, _) => rawOrder order
  | ("SymbolActorInfo", values) =>
    (SymbolActorInfo.inspect.load memory ⟨memory.symbolId, default⟩ values).map
      fun (info, _) => symbolActorInfo info
  | ("TradeListMsg", values) =>
    (TradeListMsg.inspect.load memory ⟨[]⟩ values).map fun (msg, _) => tradeListMsg msg
  | _ => none

/-- What an actor of the same node receives. -/
def sameNode (message : ClusterMessage α) : Option (ClusterMessage α) := some message

/-- What an actor of another node receives. -/
def otherNode [Inhabited α] (memory : Memory) (message : ClusterMessage α) :
    Option (ClusterMessage α) :=
  load memory message.save

variable [Inhabited α]

lemma otherNode_rawOrder (memory : Memory) (order : RawOrder) :
    otherNode memory (rawOrder order : ClusterMessage α) = some (rawOrder order) := by
  simp only [otherNode, save, load, Inspector.load_save_nil, RawOrder.merge_inspect,
    Option.map_some]

lemma otherNode_symbolActorInfo (memory : Memory) (info : SymbolActorInfo α) :
    otherNode memory (symbolActorInfo info) = some (symbolActorInfo info) := by
  simp only [otherNode, save, load, Inspector.load_save_nil, SymbolActorInfo.merge_inspect,
    Option.map_some]

/-- The deal time of every trade must be in the memory of the other node already. -/
lemma otherNode_tradeListMsg_iff (memory : Memory) (msg : TradeListMsg) :
    otherNode memory (tradeListMsg msg : ClusterMessage α) = some (tradeListMsg msg) ↔
      ∀ i (h : i < msg.data.length), (memory.trade i).dealTime = msg.data[i].dealTime := by
  simp only [otherNode, save, load, Inspector.load_save_nil, Option.map_some, Option.some.injEq,
    tradeListMsg.injEq, TradeListMsg.merge_inspect_eq_iff]

/-- A memory in which each trade has another deal time than the one that is loaded. -/
def otherMemory (trades : TradeList) : Memory where
  rawOrder := ⟨0, 0, 0, .buy, 0, 0, 0⟩
  symbolId := 0
  trade i := ⟨0, 0, .buy, 0, 0, 0, 0, 0, 0, (trades[i]?.map MatchedTrade.dealTime).getD 0 + 1⟩

/-- **Local and remote delivery agree**, whatever the memory of the other node holds, exactly
for the messages without trades. -/
theorem otherNode_eq_sameNode_iff (message : ClusterMessage α) :
    (∀ memory, otherNode memory message = message.sameNode) ↔
      ∀ trades, message = tradeListMsg ⟨trades⟩ → trades = [] := by
  cases message with
  | rawOrder order => simp [sameNode, otherNode_rawOrder]
  | symbolActorInfo info => simp [sameNode, otherNode_symbolActorInfo]
  | tradeListMsg msg =>
    obtain ⟨trades⟩ := msg
    simp only [sameNode, otherNode_tradeListMsg_iff]
    constructor
    · rintro hagree _ ⟨⟩
      by_contra hne
      have htime := hagree (otherMemory trades) 0 (List.length_pos_of_ne_nil hne)
      simp [otherMemory, List.getElem?_eq_getElem (List.length_pos_of_ne_nil hne)] at htime
    · intro hnil memory i hi
      obtain rfl := hnil trades rfl
      cases hi

/-- A trade with the deal time 1 is loaded into a memory that holds 0. -/
theorem not_otherNode_eq_sameNode : ¬ ∀ (memory : Memory) (message : ClusterMessage Unit),
    otherNode memory message = message.sameNode := by
  intro hall
  have hagree := hall ⟨⟨0, 0, 0, .buy, 0, 0, 0⟩, 0, fun _ => ⟨0, 0, .buy, 0, 0, 0, 0, 0, 0, 0⟩⟩
    (tradeListMsg ⟨[⟨1, 2, .sell, 5, 100, 12, 11, 1, 7, 1⟩]⟩)
  revert hagree
  decide

end ClusterMessage

end TradingEngine.MatchEngine
