import AquaOS.Adapters
import AquaOS.Alarms
import AquaOS.EquipmentProfile
import Mathlib.Data.Finmap

/-! The configuration tree, with every field of the source, and its defaults. Texts of closed
sets are enumerations with the rest under `other`; durations and counts are integers. -/
namespace AquaOS
namespace Configuration

open Domain EquipmentProfile

def second : ℤ := 1000000000
def minute : ℤ := 60*second

structure Application where
  logLevel : String := "info"
  startupTimeout : ℤ := 30*second
  shutdownTimeout : ℤ := 15*second
  componentTimeout : ℤ := 5*second
  eventConcurrency : ℤ := 64
  deriving DecidableEq

structure HTTP where
  address : String := "localhost:8080"
  readTimeout : ℤ := 5*second
  writeTimeout : ℤ := 10*second
  idleTimeout : ℤ := 60*second
  bearerTokenFile : String := ""
  maximumRequestBytes : ℤ := 64*1024
  mutationRate : ℤ := 10
  mutationBurst : ℤ := 20
  deriving DecidableEq

structure HomeAssistantTombstone where
  component : String
  objectID : String
  deriving DecidableEq

structure HomeAssistant where
  enabled : Bool := false
  commandTTL : ℤ := 10*second
  tombstones : List HomeAssistantTombstone := []
  deriving DecidableEq

/-- The default jitter is the float nearest to one fifth. -/
structure MQTT where
  enabled : Bool := false
  siteID : String := ""
  broker : String := ""
  clientID : String := ""
  username : String := ""
  password : String := ""
  connectTimeout : ℤ := 10*second
  keepAlive : ℤ := 30*second
  disconnectQuiesce : ℤ := 250000000
  requiredForReady : Bool := false
  maximumPayload : ℤ := 256*1024
  queueCapacity : ℤ := 256
  idempotencyCapacity : ℤ := 4096
  reconnectMinimum : ℤ := second
  reconnectMaximum : ℤ := minute
  reconnectJitter : Float64 := .finite (3602879701896397/18014398509481984)
  homeAssistant : HomeAssistant := {}
  deriving DecidableEq

structure Simulator where
  enabled : Bool := true
  deriving DecidableEq

structure ShellyEndpoint where
  id : String
  equipmentID : String
  alarmRuleID : String
  baseURL : String
  channel : ℤ := 0
  pollInterval : ℤ := 0
  requestTimeout : ℤ := 0
  retries : ℤ := 0
  safeOn : Bool := false
  powerReturnPolicy : Shelly.PowerReturnPolicy := .other ""
  equipmentKind : Kind := .other ""
  maximumOn : ℤ := 0
  requiredProbeIDs : List String := []
  deriving DecidableEq

structure ShellyAdapter where
  enabled : Bool := false
  endpoints : List ShellyEndpoint := []
  deriving DecidableEq

structure ESP32Endpoint where
  id : String
  deviceID : String
  alarmRuleID : String
  baseURL : String
  bearerTokenFile : String := ""
  probeIDs : List String := []
  pollInterval : ℤ := 0
  requestTimeout : ℤ := 0
  freshFor : ℤ := 0
  maximumClockSkew : ℤ := 0
  maximumDifference : Float64 := 0
  deriving DecidableEq

structure ESP32Adapter where
  enabled : Bool := false
  endpoints : List ESP32Endpoint := []
  deriving DecidableEq

structure Adapters where
  shelly : ShellyAdapter := {}
  esp32 : ESP32Adapter := {}
  deriving DecidableEq

structure Bench where
  enabled : Bool := false
  safeLoadAcknowledged : Bool := false
  deriving DecidableEq

structure InfluxDB where
  enabled : Bool := false
  url : String := ""
  organization : String := ""
  bucket : String := ""
  tokenFile : String := ""
  queueCapacity : ℤ := 4096
  batchSize : ℤ := 200
  flushInterval : ℤ := 5*second
  retryMinimum : ℤ := second
  retryMaximum : ℤ := minute
  writeTimeout : ℤ := 5*second
  deriving DecidableEq

structure Storage where
  influxDB : InfluxDB := {}
  deriving DecidableEq

/-- A string map; a nil map and an empty one are different values. -/
abbrev Metadata := Option (Finmap fun _ : String => String)

structure Device where
  id : String
  entityID : String := ""
  name : String := ""
  description : String := ""
  manufacturer : String := ""
  model : String := ""
  firmware : String := ""
  metadata : Metadata := none
  deriving DecidableEq

/-- A `time.Time` read from a file: an instant, zero for the zero time, and a location. -/
structure Time where
  instant : ℤ := 0
  location : String := ""
  deriving DecidableEq

structure Calibration where
  enabled : Bool := false
  scale : Float64 := 0
  offset : Float64 := 0
  reference : String := ""
  calibratedBy : String := ""
  calibratedAt : Time := {}
  deriving DecidableEq

inductive SensorUnit
  | celsius | fahrenheit | pH | ppt | litersPerHour | boolean | other (text : String)
  deriving DecidableEq

structure Sensor where
  id : String
  entityID : String := ""
  deviceID : String
  unit : SensorUnit
  minimum : Option Float64 := none
  maximum : Option Float64 := none
  name : String := ""
  quantity : String := ""
  calibration : Calibration := {}
  deriving DecidableEq

inductive Stage
  | uncommissioned | discovered | mapped | configured | validated | benchTested | commissioned
  | disabled | other (text : String)
  deriving DecidableEq

structure Commissioning where
  stage : Option Stage := none
  safeTestLoad : Bool := false
  failSafeStateVerified : Bool := false
  powerReturnVerified : Bool := false
  independentSafeguardPresent : Bool := false
  verifiedBy : String := ""
  verifiedAt : Time := {}
  deriving DecidableEq

structure Equipment where
  id : String
  entityID : String := ""
  deviceID : String
  name : String := ""
  kind : Option Kind := none
  capabilities : List Capability := []
  hazardous : Bool := false
  failSafeOn : Bool := false
  maximumOn : ℤ := 0
  maximumDaily : ℤ := 0
  minimumOff : ℤ := 0
  requiredSensorIDs : List String := []
  commissioning : Commissioning := {}
  deriving DecidableEq

structure Inventory where
  devices : List Device := []
  sensors : List Sensor := []
  equipment : List Equipment := []
  deriving DecidableEq

inductive Condition
  | above | below | outside | isTrue | isFalse | other (text : String)
  deriving DecidableEq

inductive NotificationTarget
  | homeAssistant | mqtt | log | other (text : String)
  deriving DecidableEq

structure AlarmRule where
  id : String
  name : String
  sensorID : String
  condition : Condition
  threshold : Float64 := 0
  thresholdHigh : Option Float64 := none
  severity : Alarms.Severity
  delay : ℤ := 0
  clearDelay : ℤ := 0
  latching : Bool := false
  notifications : List NotificationTarget := []
  deriving DecidableEq

structure AlarmConfig where
  rules : List AlarmRule := []
  deriving DecidableEq

structure Backup where
  enabled : Bool := false
  destination : String := ""
  retentionDays : ℤ := 0
  deriving DecidableEq

def currentSchemaVersion : ℤ := 1

/-- The whole configuration; its default values are those of `Defaults`. -/
structure Config where
  schemaVersion : ℤ := currentSchemaVersion
  application : Application := {}
  http : HTTP := {}
  mqtt : MQTT := {}
  simulator : Simulator := {}
  adapters : Adapters := {}
  bench : Bench := {}
  storage : Storage := {}
  inventory : Inventory := {}
  alarms : AlarmConfig := {}
  backups : Backup := {}
  deriving DecidableEq

end Configuration
end AquaOS
