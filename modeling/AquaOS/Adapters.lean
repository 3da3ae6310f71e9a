import AquaOS.Measurement
import AquaOS.Table

/-! The endpoints of the two direct adapters, and what a Shelly switch reports. -/
namespace AquaOS

open Domain

namespace Shelly

inductive PowerReturnPolicy
  | off | restore | other (text : String)
  deriving DecidableEq

/-- A parsed URL, with the members the adapters look at. -/
structure URL where
  scheme : String
  host : String
  user : Bool
  rawQuery : String
  fragment : String

structure Endpoint where
  id : EndpointID
  equipmentID : EquipmentID
  baseURL : String
  channel : ℤ
  pollInterval : ℤ
  requestTimeout : ℤ
  retries : ℤ
  safeOn : Bool
  powerReturnPolicy : PowerReturnPolicy
  deriving DecidableEq

structure SwitchStatus where
  source : String
  output : Bool
  apower : Float64
  voltage : Float64
  current : Float64
  errors : List String
  deriving DecidableEq

structure Report where
  endpointID : EndpointID
  equipmentID : EquipmentID
  on : Bool
  apower : Float64
  voltage : Float64
  current : Float64
  source : String
  observedAt : ℤ
  desiredOn : Option Bool
  pending : Bool
  errors : List String
  deriving DecidableEq

/-- The initial state the switch has to be configured with. -/
def Endpoint.expectedInitialState (e : Endpoint) : String :=
  if e.powerReturnPolicy = .restore then "restore_last" else "off"

/-- One attempt of `Switch.Set`: its error, and the caller's context after a failed one. -/
structure Attempt where
  err : Option Failure := none
  ctx : Option Failure := none

/-- The loop of `setWithRetry`, from the given attempt on and with the last error so far. -/
def attempts (answers : ℕ → Attempt) (failed : Option Failure → Failure) :
    ℕ → ℕ → Option Failure → Option Failure
  | 0, _, last => some (failed last)
  | n+1, i, _ =>
    match (answers i).err, (answers i).ctx with
    | none, _ => none
    | some _, some err => some err
    | some err, none => attempts answers failed n (i+1) (some err)

/-- The error after `retries+1` failed attempts; a negative number of retries makes none. -/
def Endpoint.attemptsFailed (e : Endpoint) (last : Option Failure) : Failure :=
  let text := "shelly Switch.Set failed after "++toString (e.retries+1)++" attempts"
  match last with
  | some err => .wrapped text err
  | none => .message text

def Endpoint.setWithRetry (e : Endpoint) (answers : ℕ → Attempt) : Option Failure :=
  attempts answers e.attemptsFailed (e.retries+1).toNat 0 none

end Shelly

namespace ESP32

structure Endpoint where
  id : EndpointID
  deviceID : DeviceID
  baseURL : String
  bearerToken : String
  probeIDs : SensorID × SensorID
  pollInterval : ℤ
  requestTimeout : ℤ
  freshFor : ℤ
  maximumClockSkew : ℤ
  maximumDifference : Float64
  deriving DecidableEq

end ESP32

end AquaOS
