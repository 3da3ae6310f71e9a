import AquaOS.Table
import AquaOS.Domain

/-! The canonical state store as its readers see it: keys, stored values, and reads
that evaluate freshness at the store's own clock. -/
namespace AquaOS
namespace CanonicalState

open Domain

inductive EntityKind
  | sensor | equipment | other (text : String)
  deriving DecidableEq

inductive Plane
  | observation | desired | reported | other (text : String)
  deriving DecidableEq

structure Key where
  entityKind : EntityKind
  entityID : EntityID
  plane : Plane
  attributeName : String
  deriving DecidableEq

/-- A stored value, with the members its readers use. -/
structure Value where
  boolean : Option Bool
  quality : Quality
  observedAt : ℤ
  freshFor : ℤ
  deriving DecidableEq

structure Manager where
  values : Table Key Value

/-- A value no longer fresh at `now` reads as stale, whatever quality was stored. -/
def Value.readAt (value : Value) (now : ℤ) : Value :=
  if now < value.observedAt+value.freshFor then value else { value with quality := .stale }

/-- `Manager.Get` with the caller's context state and the store's clock reading. -/
def Manager.get (m : Manager) (ctx : Option Failure) (now : ℤ) (key : Key) :
    Except Failure Value :=
  match ctx with
  | some e => .error e
  | none =>
    match m.values.lookup key with
    | none => .error .stateNotFound
    | some value => .ok (value.readAt now)

theorem readAt_good_iff (value : Value) (now : ℤ) :
    (value.readAt now).quality = .good ↔
      now < value.observedAt+value.freshFor ∧ value.quality = .good := by
  unfold Value.readAt
  split <;> simp_all

@[simp] theorem readAt_boolean (value : Value) (now : ℤ) :
    (value.readAt now).boolean = value.boolean := by
  unfold Value.readAt
  split <;> rfl

end CanonicalState
end AquaOS
