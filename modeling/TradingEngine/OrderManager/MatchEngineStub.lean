/-
The stub of the match engine (`match_engine_stub_grpc.cc`): which node an order is sent to,
and what comes back.
-/
import TradingEngine.Common.Protobuf

namespace TradingEngine.OrderManager

/-- `GetNextRequestStub`: the stub, and `request_stub_index_` afterwards.  `none` stands for
the failed assertion that there are stubs. -/
def getNextRequestStub {η : Type} (requestStubs : List η) (requestStubIndex : ℕ) :
    Option (η × ℕ) :=
  let index :=
    if requestStubIndex ≠ 0 ∧ requestStubIndex = requestStubs.length then 0
    else requestStubIndex
  requestStubs[index]?.map fun stub => (stub, index + 1)

/-- The index never leaves the list: there is always a next stub. -/
lemma getNextRequestStub_spec {η : Type} {requestStubs : List η} {index : ℕ}
    (hne : requestStubs ≠ []) (hle : index ≤ requestStubs.length) :
    ∃ stub index', getNextRequestStub requestStubs index = some (stub, index') ∧
      stub ∈ requestStubs ∧ index' ≤ requestStubs.length := by
  have hpos : 0 < requestStubs.length := List.length_pos_iff.2 hne
  set next := if index ≠ 0 ∧ index = requestStubs.length then 0 else index with hnext
  have hlt : next < requestStubs.length := by
    rw [hnext]
    split_ifs with h
    · exact hpos
    · omega
  refine ⟨requestStubs[next], next + 1, ?_, List.getElem_mem hlt, hlt⟩
  simp only [getNextRequestStub, ← hnext, List.getElem?_eq_getElem hlt, Option.map_some]

lemma mem_of_getNextRequestStub {η : Type} {requestStubs : List η} {index index' : ℕ} {stub : η}
    (h : getNextRequestStub requestStubs index = some (stub, index')) : stub ∈ requestStubs := by
  simp only [getNextRequestStub, Option.map_eq_some_iff] at h
  obtain ⟨stub', hstub', heq⟩ := h
  rw [← (Prod.mk.inj heq).1]
  exact List.mem_of_getElem? hstub'

/-- What `Match` returns: whether the status of the call is ok, and the status in the reply. -/
structure MatchAnswer where
  ok : Bool
  status : MatchEngineProto.Status
  deriving DecidableEq

/-- `MatchEngineStubGrpc::Match`, with the calls of the stubs.  Without stubs nothing is sent,
and the status and the reply are those that were constructed. -/
def stubMatch {η : Type} (call : η → MatchEngineProto.Order → MatchAnswer)
    (requestStubs : List η) (requestStubIndex : ℕ) (request : MatchEngineProto.Order) :
    MatchAnswer × ℕ :=
  match getNextRequestStub requestStubs requestStubIndex with
  | some (stub, index) => (call stub request, index)
  | none => (⟨true, .statusUnknown⟩, requestStubIndex)

end TradingEngine.OrderManager
