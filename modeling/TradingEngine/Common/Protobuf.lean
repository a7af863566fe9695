/-
The messages of `match_engine.proto` and `order_manager.proto`.

The `int32` fields that come from a client are kept in the range of the type (`I32`);
identifiers and times, which the services produce themselves, are integers.  Enumerations
are open, as in proto3: a number without a name is kept.
-/
import Mathlib.Tactic

namespace TradingEngine

/-- The values of an `int32`. -/
def IsInt32 (x : ℤ) : Prop := -2 ^ 31 ≤ x ∧ x < 2 ^ 31

instance (x : ℤ) : Decidable (IsInt32 x) := inferInstanceAs (Decidable (_ ∧ _))

/-- An `int32` field. -/
def I32 : Type := {x : ℤ // IsInt32 x}

instance : DecidableEq I32 := inferInstanceAs (DecidableEq {x : ℤ // IsInt32 x})

instance : CoeOut I32 ℤ := ⟨Subtype.val⟩

/-- A number in a variable of type `int` or `int32`: it wraps around. -/
def toInt (x : ℤ) : ℤ := x.bmod (2 ^ 32)

lemma isInt32_toInt (x : ℤ) : IsInt32 (toInt x) := by
  have hlow := Int.le_bmod (x := x) (m := 2 ^ 32) (by norm_num)
  have hhigh := Int.bmod_lt (x := x) (m := 2 ^ 32) (by norm_num)
  exact ⟨by unfold toInt; omega, by unfold toInt; omega⟩

lemma toInt_eq {x : ℤ} (h : IsInt32 x) : toInt x = x :=
  Int.bmod_eq_of_le (by norm_num; exact h.1) (by norm_num; exact h.2)

/-- The conversion to `int32`. -/
def I32.ofInt (x : ℤ) : I32 := ⟨toInt x, isInt32_toInt x⟩

namespace MatchEngineProto

/-- `match_engine_proto.TradingSide`. -/
inductive TradingSide
  | tradingUnknown
  | tradingBuy
  | tradingSell
  | unrecognized (n : ℤ)
  deriving DecidableEq

/-- The side of a number on the wire. -/
def TradingSide.ofNumber (n : ℤ) : TradingSide :=
  if n = 0 then .tradingUnknown else if n = 1 then .tradingBuy
  else if n = 2 then .tradingSell else .unrecognized n

/-- `match_engine_proto.Order`. -/
structure Order where
  orderId : ℤ
  symbolId : I32
  userId : I32
  tradingSide : TradingSide
  amount : I32
  price : I32
  submitTime : ℤ
  deriving DecidableEq

/-- `match_engine_proto.Status`. -/
inductive Status
  | statusUnknown
  | statusSuccess
  | statusFailure
  | unrecognized (n : ℤ)
  deriving DecidableEq

/-- `match_engine_proto.Trade`. -/
structure Trade where
  makerId : ℤ
  takerId : ℤ
  tradingSide : TradingSide
  amount : ℤ
  price : ℤ
  sellerUserId : ℤ
  buyerUserId : ℤ
  symbolId : ℤ
  submitTime : ℤ
  deriving DecidableEq

/-- `match_engine_proto.EngineStatus`. -/
inductive EngineStatus
  | engineClose
  | engineOpen
  | unrecognized (n : ℤ)
  deriving DecidableEq

end MatchEngineProto

namespace OrderManagerProto

/-- `order_manager_proto.TradingSide`. -/
inductive TradingSide
  | tradingUnknown
  | tradingBuy
  | tradingSell
  | unrecognized (n : ℤ)
  deriving DecidableEq

/-- The number of a side on the wire. -/
def TradingSide.number : TradingSide → ℤ
  | .tradingUnknown => 0
  | .tradingBuy => 1
  | .tradingSell => 2
  | .unrecognized n => n

/-- The cast of a number to a side. -/
def TradingSide.ofNumber (n : ℤ) : TradingSide :=
  if n = 0 then .tradingUnknown else if n = 1 then .tradingBuy
  else if n = 2 then .tradingSell else .unrecognized n

/-- `order_manager_proto.Order`. -/
structure Order where
  symbol : I32
  userId : I32
  tradingSide : TradingSide
  amount : I32
  price : I32
  deriving DecidableEq

/-- `order_manager_proto.ErrorCode`. -/
inductive ErrorCode
  | success
  | failure
  deriving DecidableEq

/-- `order_manager_proto.Reply`. -/
structure Reply where
  errorCode : ErrorCode
  message : String
  deriving DecidableEq

end OrderManagerProto

end TradingEngine
