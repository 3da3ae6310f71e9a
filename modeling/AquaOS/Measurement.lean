import AquaOS.Domain
import Mathlib.Data.Rat.Defs

/-! Quantities with units, and the floating-point values they and the configuration hold. -/
namespace AquaOS
namespace Domain

/-- A 64-bit float: no arithmetic is done on it here, it is only compared. -/
inductive Float64
  | nan
  | infinite (negative : Bool)
  | finite (value : ℚ)
  deriving DecidableEq

/-- `<` on floats; no comparison with a NaN holds. -/
def Float64.lt : Float64 → Float64 → Bool
  | .nan, _ | _, .nan => false
  | .infinite negative, .infinite negative' => negative && !negative'
  | .infinite negative, .finite _ => negative
  | .finite _, .infinite negative => !negative
  | .finite x, .finite y => x < y

def Float64.isFinite : Float64 → Bool
  | .finite _ => true
  | _ => false

instance (n : ℕ) : OfNat Float64 n := ⟨.finite n⟩

inductive QuantityKind
  | temperature | ph | salinity | flow | level | power | voltage | current
  | other (text : String)
  deriving DecidableEq

inductive QuantityUnit
  | celsius | pH | ppt | litersPerHour | percent | watts | volts | amperes
  | other (text : String)
  deriving DecidableEq

def QuantityKind.unit : QuantityKind → Option QuantityUnit
  | .temperature => some .celsius
  | .ph => some .pH
  | .salinity => some .ppt
  | .flow => some .litersPerHour
  | .level => some .percent
  | .power => some .watts
  | .voltage => some .volts
  | .current => some .amperes
  | .other _ => none

def QuantityKind.text : QuantityKind → String
  | .temperature => "temperature"
  | .ph => "ph"
  | .salinity => "salinity"
  | .flow => "flow"
  | .level => "level"
  | .power => "power"
  | .voltage => "voltage"
  | .current => "current"
  | .other text => text

def QuantityUnit.text : QuantityUnit → String
  | .celsius => "celsius"
  | .pH => "pH"
  | .ppt => "ppt"
  | .litersPerHour => "liters_per_hour"
  | .percent => "percent"
  | .watts => "watts"
  | .volts => "volts"
  | .amperes => "amperes"
  | .other text => text

structure Quantity where
  kind : QuantityKind
  value : Float64
  unit : QuantityUnit
  deriving DecidableEq

def Quantity.validate (q : Quantity) : Option Failure :=
  if ¬ q.value.isFinite then some (.message "quantity value must be finite")
  else
    match q.kind.unit with
    | none => some (.quoted "unsupported quantity kind" q.kind.text)
    | some unit =>
      if q.unit ≠ unit then
        some (.quoted ("unit "++q.unit.text++" is incompatible with quantity kind") q.kind.text)
      else if q.kind = .ph ∧ (q.value.lt 0 ∨ Float64.lt 14 q.value) then
        some (.message "pH must be between 0 and 14")
      else if q.kind = .level ∧ (q.value.lt 0 ∨ Float64.lt 100 q.value) then
        some (.message "level percent must be between 0 and 100")
      else none

def newQuantity (kind : QuantityKind) (value : Float64) (unit : QuantityUnit) :
    Except Failure Quantity :=
  match Quantity.validate ⟨kind,value,unit⟩ with
  | some err => .error err
  | none => .ok ⟨kind,value,unit⟩

/-- A canonical scalar, which has exactly one of the members of the source's `Value`. -/
inductive Scalar
  | quantity (q : Quantity)
  | boolean (b : Bool)
  | text (s : String)
  deriving DecidableEq

end Domain
end AquaOS
