import AquaOS.Domain
import AquaOS.WordTime

/-! The scenarios of the simulator: what is accepted, and which of its faults are active at a step.
The temperatures and levels are of any type with the operations that the simulator uses; nothing is
assumed of them. -/
namespace AquaOS
namespace Simulator

open Domain WordTime

/-- The operations on temperatures, levels and rates. -/
class Amount (F : Type) extends Zero F, Add F, Sub F, Mul F, LE F, LT F, BEq F, Max F, Min F where
  hundred : F
  isNaN : F → Bool
  isInf : F → Bool
  hours : Int64 → F
  round : F → F
  decidableLE (x y : F) : Decidable (x ≤ y)
  decidableLT (x y : F) : Decidable (x < y)

instance amountLE {F : Type} [Amount F] (x y : F) : Decidable (x ≤ y) := Amount.decidableLE x y

instance amountLT {F : Type} [Amount F] (x y : F) : Decidable (x < y) := Amount.decidableLT x y

inductive FaultType
  | sensorNoise | sensorDrift | sensorStale | relayStuckOn | ackDelay | ackLoss | brokerLoss
  | storageLoss | leak | returnPumpFailure
  | other (text : String)
  deriving DecidableEq

def validFault : FaultType → Bool
  | .other _ => false
  | _ => true

/-- The text of a type that is not supported. -/
def FaultType.text : FaultType → String
  | .sensorNoise => "sensor-noise"
  | .sensorDrift => "sensor-drift"
  | .sensorStale => "sensor-stale"
  | .relayStuckOn => "relay-stuck-on"
  | .ackDelay => "ack-delay"
  | .ackLoss => "ack-loss"
  | .brokerLoss => "broker-loss"
  | .storageLoss => "storage-loss"
  | .leak => "leak"
  | .returnPumpFailure => "return-pump-failure"
  | .other text => text

/-- A fault from the step `begins` on, which is `At` in the source. -/
structure Fault (F : Type) where
  begins : Int64
  duration : Int64 := 0
  type : FaultType
  value : F

structure ModelConfig (F : Type) where
  initialTemperatureC : F
  ambientTemperatureC : F
  initialLevelPercent : F
  temperatureLowC : F
  temperatureHighC : F
  levelLowPercent : F
  levelHighPercent : F
  ambientExchangePerHour : F
  heaterInfluenceCPerHour : F
  evaporationPercentPerHour : F
  atoFillPercentPerHour : F
  sensorFreshFor : Int64

structure Scenario (F : Type) where
  schemaVersion : Int64
  name : String
  seed : Int64
  start : Time
  step : Int64
  steps : Int64
  model : ModelConfig F
  faults : List (Fault F) := []

def hour : Int64 := 3600000000000

variable {F : Type}

/-- The end of the fault is a sum of two words. -/
def Fault.activeAt (fault : Fault F) (step : Int64) : Bool :=
  step ≥ fault.begins && (fault.duration == 0 || step < fault.begins+fault.duration)

def Scenario.activeFaults (s : Scenario F) (step : Int64) : List (Fault F) :=
  s.faults.filter fun fault => fault.activeAt step

def hasFault (faults : List (Fault F)) (kind : FaultType) : Bool :=
  faults.any fun fault => fault.type = kind

theorem hasFault_iff {faults : List (Fault F)} {kind : FaultType} :
    hasFault faults kind = true ↔ ∃ fault ∈ faults, fault.type = kind := by
  simp [hasFault]

def ModelConfig.values (m : ModelConfig F) : List F :=
  [m.initialTemperatureC,m.ambientTemperatureC,m.initialLevelPercent,m.temperatureLowC,
    m.temperatureHighC,m.levelLowPercent,m.levelHighPercent,m.ambientExchangePerHour,
    m.heaterInfluenceCPerHour,m.evaporationPercentPerHour,m.atoFillPercentPerHour]

variable [Amount F]

/-- The checks of the fault at an index. -/
def Scenario.validateFault (s : Scenario F) (fault : Fault F) (index : ℕ) : Option Failure :=
  if fault.begins < 0 ∨ fault.begins ≥ s.steps ∨ fault.duration < 0 then
    some (.message ("fault "++toString index++" schedule is outside the scenario"))
  else if validFault fault.type = false then
    some (.quoted ("fault "++toString index++" has unsupported type") fault.type.text)
  else if fault.type = .sensorNoise ∧ fault.value < 0 then
    some (.message ("fault "++toString index++" sensor noise cannot be negative"))
  else none

def Scenario.validate (s : Scenario F) : Option Failure :=
  let m := s.model
  if s.schemaVersion ≠ 1 then some (.message "scenario schemaVersion must equal 1")
  else if s.name = "" ∨ 128 < (bytes s.name).length ∨ s.start.isZero then
    some (.message "scenario name and start are required")
  else if s.step ≤ 0 ∨ s.step > hour ∨ s.steps < 1 ∨ s.steps > 100000 then
    some (.message "scenario step must be within (0,1h] and steps within [1,100000]")
  else if m.values.any fun value => Amount.isNaN value || Amount.isInf value then
    some (.message "scenario model values must be finite")
  else if m.temperatureLowC ≥ m.temperatureHighC ∨ m.levelLowPercent ≥ m.levelHighPercent ∨
      m.initialLevelPercent < 0 ∨ m.initialLevelPercent > Amount.hundred ∨
      m.sensorFreshFor ≤ 0 then
    some (.message "scenario model thresholds or initial level are invalid")
  else if m.ambientExchangePerHour < 0 ∨ m.heaterInfluenceCPerHour < 0 ∨
      m.evaporationPercentPerHour < 0 ∨ m.atoFillPercentPerHour ≤ 0 then
    some (.message "scenario physical rates are invalid")
  else if 10000 < s.faults.length then
    some (.message "scenario cannot contain more than 10000 faults")
  else s.faults.zipIdx.findSome? fun (fault,index) => s.validateFault fault index

def faultValue (faults : List (Fault F)) (kind : FaultType) : F :=
  match faults.find? fun fault => fault.type = kind with
  | some fault => fault.value
  | none => 0

/-- What an accepted scenario bounds. -/
structure Scenario.Bounded (s : Scenario F) : Prop where
  step_pos : 0 < s.step.toInt
  step_le : s.step.toInt ≤ 3600000000000
  steps_pos : 1 ≤ s.steps.toInt
  steps_le : s.steps.toInt ≤ 100000
  faults : ∀ fault ∈ s.faults, 0 ≤ fault.begins.toInt ∧ fault.begins.toInt < s.steps.toInt ∧
    0 ≤ fault.duration.toInt

variable {s : Scenario F}

theorem validateFault_ok {fault : Fault F} {index : ℕ}
    (h : s.validateFault fault index = none) :
    0 ≤ fault.begins.toInt ∧ fault.begins.toInt < s.steps.toInt ∧ 0 ≤ fault.duration.toInt := by
  unfold Scenario.validateFault at h
  split_ifs at h with hschedule
  simp only [ge_iff_le,not_or,Int64.le_iff_toInt_le,Int64.lt_iff_toInt_lt,not_lt,not_le] at hschedule
  exact hschedule

theorem validate_bounded (h : s.validate = none) : s.Bounded := by
  unfold Scenario.validate at h
  dsimp only at h
  split_ifs at h with _ _ hstep
  simp only [gt_iff_lt,not_or,Int64.le_iff_toInt_le,Int64.lt_iff_toInt_lt,not_lt,not_le] at hstep
  obtain ⟨hpos,hle,hone,hmany⟩ := hstep
  refine ⟨hpos,hle,hone,hmany,fun fault hfault => ?_⟩
  rw [List.findSome?_eq_none_iff] at h
  obtain ⟨index,hindex⟩ := List.getElem?_of_mem hfault
  exact validateFault_ok (h (fault,index) (List.mk_mem_zipIdx_iff_getElem?.mpr hindex))

end Simulator
end AquaOS
