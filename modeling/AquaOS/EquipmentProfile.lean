import AquaOS.CanonicalState

/-! Equipment safety profiles and the checks a profile passes before the safety
engine accepts it. -/
namespace AquaOS
namespace EquipmentProfile

open Domain CanonicalState

inductive Kind
  | outlet | heater | returnPump | circulationPump | ato | dosingPump | light
  | other (text : String)
  deriving DecidableEq

structure InputRequirement where
  key : Key
  requireBoolean : Option Bool
  deriving DecidableEq

/-- Hard limits as durations; zero disables a limit. -/
structure Limits where
  maximumOn : ℤ
  maximumDailyOn : ℤ
  minimumOff : ℤ
  deriving DecidableEq

structure Profile where
  equipmentID : EquipmentID
  kind : Kind
  hazardous : Bool
  failSafeOn : Bool
  capabilities : List Capability
  limits : Limits
  requiredInputs : List InputRequirement
  deriving DecidableEq

def validateKind (p : Profile) : Option Failure :=
  match p.kind with
  | .outlet | .returnPump | .circulationPump | .light => none
  | .heater | .ato | .dosingPump =>
    if ¬p.hazardous then some (.message "heater, ATO, and dosing profiles must be hazardous")
    else if p.limits.maximumOn ≤ 0 then
      some (.message "hazardous equipment requires a positive maximum-on limit")
    else if p.requiredInputs = [] then
      some (.message "hazardous equipment requires at least one safety input")
    else none
  | .other _ => some (.message "unsupported equipment kind")

def validateRequirement (r : InputRequirement) : Option Failure :=
  if r.key.entityKind ≠ .sensor ∨ r.key.plane ≠ .observation ∨ r.key.attributeName = "" then
    some (.message "safety inputs must reference a sensor observation attribute")
  else if (validateID r.key.entityID).isSome then
    some (.message "safety input entity ID is invalid")
  else none

def controlCapabilities : List Capability := [.switch,.commandAcknowledgement,.reportedState]

/-- `Profile.Validate`: the first failed check is reported. -/
def Profile.validate (p : Profile) : Option Failure :=
  (validateID p.equipmentID)
  <|> (validateCapabilities p.capabilities)
  <|> (if supportsAll p.capabilities controlCapabilities then none else
    some (.message
      "controlled equipment requires switch, acknowledgement, and reported-state capabilities"))
  <|> (validateKind p)
  <|> (if p.limits.maximumOn < 0 ∨ p.limits.maximumDailyOn < 0 ∨ p.limits.minimumOff < 0 then
    some (.message "equipment limits cannot be negative") else none)
  <|> (if 0 < p.limits.maximumDailyOn ∧ p.limits.maximumDailyOn < p.limits.maximumOn then
    some (.message "maximum-on cannot exceed maximum-daily-on") else none)
  <|> (if p.failSafeOn ∧ p.hazardous then
    some (.message "hazardous equipment cannot fail safe on") else none)
  <|> (if p.kind = .dosingPump ∧ p.limits.maximumDailyOn ≤ 0 then
    some (.message "dosing equipment requires a positive maximum-daily-on limit") else none)
  <|> p.requiredInputs.findSome? validateRequirement

structure Profile.Accepted (p : Profile) : Prop where
  id : validateID p.equipmentID = none
  capabilities : validateCapabilities p.capabilities = none
  control : supportsAll p.capabilities controlCapabilities = true
  kind : validateKind p = none
  limits : 0 ≤ p.limits.maximumOn ∧ 0 ≤ p.limits.maximumDailyOn ∧ 0 ≤ p.limits.minimumOff
  daily : 0 < p.limits.maximumDailyOn → p.limits.maximumOn ≤ p.limits.maximumDailyOn
  safe : p.failSafeOn = true → p.hazardous = false
  dosing : p.kind = .dosingPump → 0 < p.limits.maximumDailyOn
  inputs : ∀ r ∈ p.requiredInputs, validateRequirement r = none

theorem validate_eq_none_iff (p : Profile) : p.validate = none ↔ p.Accepted := by
  unfold Profile.validate
  simp only [Option.orElse_eq_none,List.findSome?_eq_none_iff,ite_eq_left_iff,ite_eq_right_iff,
    reduceCtorEq,imp_false,not_or,not_and,not_lt,not_le,Bool.not_eq_true,Bool.not_eq_false]
  constructor
  · rintro ⟨h1,h2,h3,h4,h5,h6,h7,h8,h9⟩
    exact ⟨h1,h2,h3,h4,h5,h6,h7,h8,h9⟩
  · rintro ⟨h1,h2,h3,h4,h5,h6,h7,h8,h9⟩
    exact ⟨h1,h2,h3,h4,h5,h6,h7,h8,h9⟩

end EquipmentProfile
end AquaOS
