import AquaOS.Configuration
import AquaOS.Scan

/-! `Config.Validate`: every check in the order of the source, with the path, code and message
of its error, and what an accepted configuration meets. -/
namespace AquaOS

open Domain

namespace Domain

/-- `Error()` of an error value; `quote` is what `%q` prints. -/
def Failure.text (quote : String → String) : Failure → String
  | .message text | .external text => text
  | .quoted context value => context++" "++quote value
  | .wrapped context cause => context++": "++cause.text quote
  | .stateNotFound => "state not found"
  | .commandNotFound => "command not found"
  | .conflict => "idempotency key conflict"
  | .invalidTransition => "invalid command transition"

/-- `>=` on floats; no comparison with a NaN holds. -/
def Float64.ge (a b : Float64) : Bool := a ≠ .nan && b ≠ .nan && !a.lt b

end Domain

namespace Configuration

open EquipmentProfile Scan

structure ValidationError where
  path : String
  code : String
  message : String
  deriving DecidableEq

/-- What validation calls outside the program, and the orders in which it visits the maps it
builds: the timeouts, and the identifiers of the endpoint at a path. -/
structure Library where
  toLower : String → String
  trimSpace : String → String
  quote : String → String
  splitHost : String → Option String
  isLoopback : String → Bool
  parseURL : String → Option Shelly.URL
  cleanPath : String → String
  timeouts : List (String × ℤ) → List (String × ℤ)
  identifiers : String → List (String × String) → List (String × String)
  timeouts_perm : ∀ l, (timeouts l).Perm l
  identifiers_perm : ∀ base l, (identifiers base l).Perm l

def refuse (bad : Prop) [Decidable bad] (path code message : String) : Option ValidationError :=
  if bad then some ⟨path,code,message⟩ else none

@[simp] theorem refuse_eq_none {bad : Prop} [Decidable bad] {path code message : String} :
    refuse bad path code message = none ↔ ¬ bad := by
  unfold refuse
  split_ifs with h <;> simp [h]

/-- The text does not parse, or the URL is one to refuse. -/
def Library.rejectsURL (lib : Library) (text : String) (bad : Shelly.URL → Bool) : Bool :=
  match lib.parseURL text with
  | none => true
  | some u => bad u

def isLower (b : UInt8) : Bool := 0x61 ≤ b && b ≤ 0x7a
def isDigit (b : UInt8) : Bool := 0x30 ≤ b && b ≤ 0x39
def underscore : UInt8 := 0x5f

/-- The two identifier patterns: a lower-case letter and at most 62 letters, digits and
separators. -/
def matchesIdentifier (separator : UInt8) (text : String) : Bool :=
  match bytes text with
  | [] => false
  | b::bs => isLower b && bs.length ≤ 62 && bs.all fun b => isLower b || isDigit b || b == separator

section Sections

variable (lib : Library)

def validateUUID (path value : String) : Option ValidationError :=
  (Domain.validateID value).map fun err => ⟨path,"invalid_uuid",err.text lib.quote⟩

def validateID (path id : String) : Option ValidationError :=
  refuse (¬ matchesIdentifier hyphen id) path "invalid_id" "must match ^[a-z][a-z0-9-]\x7b0,62\x7d$"

def indexed (name : String) (index : ℕ) : String := name++"["++toString index++"]"

def validateTimeouts (c : Config) : Option ValidationError :=
  (lib.timeouts [("application.startup_timeout",c.application.startupTimeout),
    ("application.shutdown_timeout",c.application.shutdownTimeout),
    ("application.component_timeout",c.application.componentTimeout),
    ("http.read_timeout",c.http.readTimeout),("http.write_timeout",c.http.writeTimeout),
    ("http.idle_timeout",c.http.idleTimeout)]).findSome? fun (path,value) =>
      refuse (value ≤ 0 ∨ 10*minute < value) path "out_of_range"
        "must be greater than zero and at most 10m"

def validateHTTP (h : HTTP) : Option ValidationError :=
  (refuse (lib.trimSpace h.address = "") "http.address" "required" "is required")
  <|> (match lib.splitHost h.address with
    | none => some ⟨"http.address","invalid_address","must contain a host and port"⟩
    | some host =>
      refuse (¬ (host = "localhost" ∨ lib.isLoopback host) ∧ h.bearerTokenFile = "")
        "http.bearer_token_file" "required" "is required for a non-loopback listener")
  <|> (refuse (h.maximumRequestBytes < 1024 ∨ 1024*1024 < h.maximumRequestBytes)
    "http.maximum_request_bytes" "out_of_range" "must be between 1024 and 1048576")
  <|> (refuse (h.mutationRate < 1 ∨ 1000 < h.mutationRate ∨ h.mutationBurst < 1 ∨
      1000 < h.mutationBurst)
    "http.mutation_rate" "out_of_range" "mutation rate and burst must be between 1 and 1000")

def validateBroker (m : MQTT) : Option ValidationError :=
  (refuse (¬ matchesIdentifier hyphen m.siteID) "mqtt.site_id" "invalid_id"
    "must be lowercase kebab-case when MQTT is enabled")
  <|> (refuse (m.broker = "") "mqtt.broker" "required" "is required when MQTT is enabled")
  <|> (refuse (lib.rejectsURL m.broker fun u => (u.scheme ≠ "tcp" && u.scheme ≠ "ssl") ||
      u.host = "")
    "mqtt.broker" "invalid_uri" "must be a tcp:// or ssl:// URI with a host")
  <|> (refuse (lib.rejectsURL m.broker fun u => u.user) "mqtt.broker" "secret_inline"
    "must not contain credentials; use explicit environment overrides")
  <|> (refuse (m.clientID = "") "mqtt.client_id" "required" "is required when MQTT is enabled")
  <|> (refuse (m.connectTimeout ≤ 0 ∨ minute < m.connectTimeout) "mqtt.connect_timeout"
    "out_of_range" "must be greater than zero and at most 1m")
  <|> (refuse (m.keepAlive < second ∨ 10*minute < m.keepAlive) "mqtt.keep_alive" "out_of_range"
    "must be between 1s and 10m")
  <|> (refuse (m.maximumPayload < 256 ∨ 16*1024*1024 < m.maximumPayload) "mqtt.maximum_payload"
    "out_of_range" "must be between 256 and 16777216 bytes")
  <|> (refuse (m.queueCapacity < 1 ∨ 65536 < m.queueCapacity ∨ m.idempotencyCapacity < 1 ∨
      1000000 < m.idempotencyCapacity)
    "mqtt.queue_capacity" "out_of_range" "queue and idempotency capacities are outside safe bounds")
  <|> (refuse (m.reconnectMinimum ≤ 0 ∨ m.reconnectMaximum < m.reconnectMinimum ∨
      10*minute < m.reconnectMaximum)
    "mqtt.reconnect_maximum" "out_of_range" "reconnect bounds are invalid")
  <|> (refuse (m.reconnectJitter.lt 0 ∨ Float64.lt (.finite (1/2)) m.reconnectJitter)
    "mqtt.reconnect_jitter" "out_of_range" "must be between 0 and 0.5")

def validateMQTT (m : MQTT) : Option ValidationError :=
  (if m.enabled then validateBroker lib m else none)
  <|> (refuse (m.homeAssistant.enabled ∧ ¬ m.enabled) "mqtt.home_assistant.enabled"
    "dependency_disabled" "requires MQTT to be enabled")
  <|> (refuse (m.homeAssistant.commandTTL ≤ 0 ∨ minute < m.homeAssistant.commandTTL)
    "mqtt.home_assistant.command_ttl" "out_of_range" "must be greater than zero and at most 1m")

def validateStorage (s : InfluxDB) : Option ValidationError :=
  (refuse (s.queueCapacity < 1 ∨ 1000000 < s.queueCapacity ∨ s.batchSize < 1 ∨
      s.queueCapacity < s.batchSize)
    "storage.influxdb.queue_capacity" "out_of_range" "queue and batch bounds are invalid")
  <|> (refuse (s.flushInterval ≤ 0 ∨ s.retryMinimum ≤ 0 ∨ s.retryMaximum < s.retryMinimum ∨
      10*minute < s.retryMaximum ∨ s.writeTimeout ≤ 0 ∨ minute < s.writeTimeout)
    "storage.influxdb.retry_maximum" "out_of_range" "storage timing bounds are invalid")
  <|> (if s.enabled then
    (refuse (lib.rejectsURL s.url fun u => u.host = "" || (u.scheme ≠ "http" && u.scheme ≠ "https"))
      "storage.influxdb.url" "invalid_uri" "must be an HTTP or HTTPS origin")
    <|> (refuse (lib.rejectsURL s.url fun u => u.user) "storage.influxdb.url" "secret_inline"
      "must not contain credentials")
    <|> (refuse (s.organization = "" ∨ s.bucket = "" ∨ s.tokenFile = "") "storage.influxdb"
      "required" "organization, bucket, and token_file are required when enabled")
    else none)

def validateTombstones (tombstones : List HomeAssistantTombstone) : Option ValidationError :=
  tombstones.zipIdx.findSome? fun (item,index) =>
    refuse (¬ matchesIdentifier underscore item.component ∨ ¬ matchesIdentifier hyphen item.objectID)
      (indexed "mqtt.home_assistant.tombstones" index) "invalid_id"
      "component or object_id is invalid"

/-- The sets `validateAdapters` fills: endpoint IDs of both adapters, equipment, devices and
probes. -/
structure AdapterSeen where
  endpoints : List String := []
  equipment : List String := []
  devices : List String := []
  probes : List String := []

def validateHeater (base : String) (e : ShellyEndpoint) : Option ValidationError :=
  (refuse (e.safeOn = true) (base++".safe_on") "unsafe_value" "must be false for heater equipment")
  <|> (refuse (e.maximumOn ≤ 0) (base++".maximum_on") "out_of_range"
    "must be positive for heater equipment")
  <|> (refuse (e.requiredProbeIDs.length ≠ 2) (base++".required_probe_ids") "invalid_count"
    "must contain both independent probe IDs for heater equipment")
  <|> (e.requiredProbeIDs.zipIdx.findSome? fun (probeID,index) =>
    validateUUID lib (indexed (base++".required_probe_ids") index) probeID)
  <|> (refuse (e.requiredProbeIDs[0]? = e.requiredProbeIDs[1]?) (base++".required_probe_ids")
    "duplicate_id" "heater probes must be independent")

/-- One turn of the Shelly loop. -/
def validateShellyEndpoint (index : ℕ) (seen : AdapterSeen) (e : ShellyEndpoint) :
    Except ValidationError AdapterSeen :=
  let base := indexed "adapters.shelly.endpoints" index
  let checks :=
    ((lib.identifiers base [("id",e.id),("equipment_id",e.equipmentID),
        ("alarm_rule_id",e.alarmRuleID)]).findSome? fun (path,value) =>
      validateUUID lib (base++"."++path) value)
    <|> (refuse (e.id ∈ seen.endpoints) (base++".id") "duplicate_id" ("duplicates endpoint "++e.id))
    <|> (refuse (e.equipmentID ∈ seen.equipment) (base++".equipment_id") "duplicate_id"
      "equipment has more than one owning adapter")
    <|> (refuse (lib.rejectsURL e.baseURL fun u => u.scheme ≠ "http" || u.host = "" || u.user ||
        u.rawQuery ≠ "" || u.fragment ≠ "")
      (base++".base_url") "invalid_uri" "must be an unauthenticated http URL with a host")
    <|> (refuse (e.channel < 0 ∨ 31 < e.channel) (base++".channel") "out_of_range"
      "must be between 0 and 31")
    <|> (refuse (e.pollInterval ≤ 0 ∨ e.requestTimeout ≤ 0 ∨ e.pollInterval < e.requestTimeout)
      (base++".request_timeout") "out_of_range" "must be positive and no greater than poll_interval")
    <|> (refuse (e.retries < 0 ∨ 5 < e.retries) (base++".retries") "out_of_range"
      "must be between 0 and 5")
    <|> (refuse (e.powerReturnPolicy ≠ .off ∧ e.powerReturnPolicy ≠ .restore)
      (base++".power_return_policy") "invalid_enum" "must be off or restore")
    <|> (refuse (e.equipmentKind ≠ .outlet ∧ e.equipmentKind ≠ .heater) (base++".equipment_kind")
      "invalid_enum" "must be outlet or heater")
    <|> (if e.equipmentKind = .heater then validateHeater lib base e
      else refuse (e.maximumOn < 0 ∨ e.requiredProbeIDs.length ≠ 0) (base++".maximum_on")
        "invalid_combination"
        "outlet equipment cannot declare heater probe requirements and maximum_on cannot be negative")
  match checks with
  | some err => .error err
  | none =>
    .ok { seen with endpoints := e.id::seen.endpoints, equipment := e.equipmentID::seen.equipment }

/-- One turn of the loop over the probes of a node. -/
def validateProbe (base : String) (index : ℕ) (probes : List String) (probeID : String) :
    Except ValidationError (List String) :=
  match (validateUUID lib (indexed (base++".probe_ids") index) probeID)
    <|> (refuse (probeID ∈ probes) (base++".probe_ids") "duplicate_id" "probe identity is reused") with
  | some err => .error err
  | none => .ok (probeID::probes)

/-- One turn of the ESP32 loop up to its probes. -/
def validateNode (base : String) (seen : AdapterSeen) (e : ESP32Endpoint) :
    Option ValidationError :=
  ((lib.identifiers base [("id",e.id),("device_id",e.deviceID),
      ("alarm_rule_id",e.alarmRuleID)]).findSome? fun (path,value) =>
    validateUUID lib (base++"."++path) value)
  <|> (refuse (e.id ∈ seen.endpoints) (base++".id") "duplicate_id" ("duplicates endpoint "++e.id))
  <|> (refuse (e.deviceID ∈ seen.devices) (base++".device_id") "duplicate_id"
    "device has more than one node endpoint")
  <|> (refuse (lib.rejectsURL e.baseURL fun u => (u.scheme ≠ "http" && u.scheme ≠ "https") ||
      u.host = "" || u.user || u.rawQuery ≠ "" || u.fragment ≠ "")
    (base++".base_url") "invalid_uri" "must be an http or https URL with a host and no credentials")
  <|> (refuse (e.probeIDs.length ≠ 2) (base++".probe_ids") "invalid_count"
    "must contain exactly two probe IDs")

/-- The bounds checked after the probes. -/
def validateBounds (base : String) (e : ESP32Endpoint) : Option ValidationError :=
  (refuse (e.pollInterval ≤ 0 ∨ e.requestTimeout ≤ 0 ∨ e.pollInterval < e.requestTimeout ∨
      e.freshFor < e.pollInterval)
    (base++".fresh_for") "out_of_range" "poll, timeout, and freshness bounds are invalid")
  <|> (refuse (e.maximumClockSkew < 0 ∨ minute < e.maximumClockSkew) (base++".maximum_clock_skew")
    "out_of_range" "must be between zero and 1m")
  <|> (refuse (Float64.ge 0 e.maximumDifference ∨ Float64.lt 10 e.maximumDifference)
    (base++".maximum_difference_celsius") "out_of_range" "must be greater than zero and at most 10")

def validateESP32Endpoint (index : ℕ) (seen : AdapterSeen) (e : ESP32Endpoint) :
    Except ValidationError AdapterSeen :=
  let base := indexed "adapters.esp32.endpoints" index
  match validateNode lib base seen e with
  | some err => .error err
  | none =>
    match scan (validateProbe lib base) 0 seen.probes e.probeIDs with
    | .error err => .error err
    | .ok probes =>
      match validateBounds base e with
      | some err => .error err
      | none =>
        .ok { seen with
          endpoints := e.id::seen.endpoints, devices := e.deviceID::seen.devices, probes := probes }

/-- The last loop: an enabled heater needs known probes of the enabled ESP32 adapter. -/
def validateHeaterProbes (a : Adapters) (probes : List String) : Option ValidationError :=
  a.shelly.endpoints.zipIdx.findSome? fun (e,index) =>
    let path := indexed "adapters.shelly.endpoints" index++".required_probe_ids"
    if e.equipmentKind ≠ .heater ∨ ¬ a.shelly.enabled then none
    else
      (refuse (¬ a.esp32.enabled) path "adapter_dependency"
        "heater bench equipment requires the direct ESP32 adapter")
      <|> (e.requiredProbeIDs.findSome? fun probeID =>
        refuse (probeID ∉ probes) path "invalid_reference"
          ("references an unknown ESP32 probe "++probeID))

def validateAdapters (c : Config) : Option ValidationError :=
  let realEnabled := c.adapters.shelly.enabled || c.adapters.esp32.enabled
  (refuse (realEnabled ∧ c.simulator.enabled) "simulator.enabled" "adapter_conflict"
    "must be false when a real adapter is enabled")
  <|> (refuse (realEnabled ∧ (¬ c.bench.enabled ∨ ¬ c.bench.safeLoadAcknowledged))
    "bench.safe_load_acknowledged" "activation_guard"
    "must be true with bench.enabled before real adapters can start")
  <|> (refuse (c.adapters.shelly.enabled ∧ c.adapters.shelly.endpoints.length = 0)
    "adapters.shelly.endpoints" "required" "must contain at least one endpoint when enabled")
  <|> (match scan (validateShellyEndpoint lib) 0 {} c.adapters.shelly.endpoints with
    | .error err => some err
    | .ok seen =>
      (refuse (c.adapters.esp32.enabled ∧ c.adapters.esp32.endpoints.length = 0)
        "adapters.esp32.endpoints" "required" "must contain at least one endpoint when enabled")
      <|> (match scan (validateESP32Endpoint lib) 0 seen c.adapters.esp32.endpoints with
        | .error err => some err
        | .ok seen => validateHeaterProbes c.adapters seen.probes))

def validateDevice (index : ℕ) (devices : List String) (d : Device) :
    Except ValidationError (List String) :=
  let path := indexed "inventory.devices" index++".id"
  match (validateID path d.id)
    <|> (refuse (d.id ∈ devices) path "duplicate_id" ("duplicates "++d.id))
    <|> (if d.entityID ≠ "" then
      validateUUID lib (indexed "inventory.devices" index++".entity_id") d.entityID else none) with
  | some err => .error err
  | none => .ok (d.id::devices)

/-- The maps of `Inventory.validate`: the paths of the sensor and equipment IDs seen, and the
sensor IDs among them. -/
structure InventorySeen where
  paths : List (String × String) := []
  sensorIDs : List String := []

def refuseSeen (seen : InventorySeen) (path id : String) : Option ValidationError :=
  (seen.paths.lookup id).map fun previous => ⟨path,"duplicate_id","duplicates "++previous⟩

def unbounded : Option Float64 → Bool
  | none => false
  | some x => !x.isFinite

def validateCalibration (base : String) (k : Calibration) : Option ValidationError :=
  if k.enabled then
    (refuse (k.scale = 0 ∨ ¬ k.scale.isFinite ∨ ¬ k.offset.isFinite) (base++".calibration")
      "out_of_range" "scale must be non-zero and calibration values must be finite")
    <|> (refuse (lib.trimSpace k.reference = "" ∨ lib.trimSpace k.calibratedBy = "" ∨
        k.calibratedAt.instant = 0)
      (base++".calibration") "evidence_required"
      "reference, operator, and calibration time are required")
  else none

def validateSensor (devices : List String) (index : ℕ) (seen : InventorySeen) (s : Sensor) :
    Except ValidationError InventorySeen :=
  let base := indexed "inventory.sensors" index
  let checks :=
    (validateID (base++".id") s.id)
    <|> (refuseSeen seen (base++".id") s.id)
    <|> (if s.entityID ≠ "" then validateUUID lib (base++".entity_id") s.entityID else none)
    <|> (refuse (s.deviceID ∉ devices) (base++".device_id") "invalid_reference"
      ("references unknown device "++s.deviceID))
    <|> (refuse (s.unit ∉ [SensorUnit.celsius,.fahrenheit,.pH,.ppt,.litersPerHour,.boolean])
      (base++".unit") "unsupported_unit" "is not a supported canonical unit")
    <|> (refuse (unbounded s.minimum = true) (base++".minimum") "out_of_range" "must be finite")
    <|> (refuse (unbounded s.maximum = true) (base++".maximum") "out_of_range" "must be finite")
    <|> (refuse (∃ lo ∈ s.minimum, ∃ hi ∈ s.maximum, lo.ge hi = true) (base++".maximum")
      "out_of_range" "must be greater than minimum")
    <|> (validateCalibration lib base s.calibration)
  match checks with
  | some err => .error err
  | none => .ok ⟨(s.id,base++".id")::seen.paths,s.id::seen.sensorIDs⟩

def validateCommissioning (path : String) (k : Commissioning) : Option ValidationError :=
  refuse (k.stage.getD .uncommissioned ∉ [Stage.uncommissioned,.discovered,.mapped,.configured,
      .validated,.benchTested,.commissioned,.disabled])
    (path++".stage") "invalid_enum" "is not a supported commissioning stage"

def configuredKinds : List Kind :=
  [.outlet,.heater,.returnPump,.circulationPump,.dosingPump,.light,.ato]

def hazardousKinds : List (Option Kind) := [some .heater,some .dosingPump,some .ato]

def validateKindAndCapabilities (base : String) (d : Equipment) : Option ValidationError :=
  match d.kind with
  | none => none
  | some kind =>
    (refuse (kind ∉ configuredKinds) (base++".kind") "invalid_enum"
      "is not a supported equipment kind")
    <|> ((validateCapabilities d.capabilities).map fun err =>
      ⟨base++".capabilities","invalid_capability",err.text lib.quote⟩)

def validateEquipment (devices : List String) (index : ℕ) (seen : InventorySeen) (d : Equipment) :
    Except ValidationError InventorySeen :=
  let base := indexed "inventory.equipment" index
  let checks :=
    (validateID (base++".id") d.id)
    <|> (refuseSeen seen (base++".id") d.id)
    <|> (if d.entityID ≠ "" then validateUUID lib (base++".entity_id") d.entityID else none)
    <|> (refuse (d.deviceID ∉ devices) (base++".device_id") "invalid_reference"
      ("references unknown device "++d.deviceID))
    <|> (validateKindAndCapabilities lib base d)
    <|> (refuse (d.maximumOn < 0 ∨ d.maximumDaily < 0 ∨ d.minimumOff < 0) (base++".maximum_on")
      "out_of_range" "equipment time limits cannot be negative")
    <|> (refuse (0 < d.maximumDaily ∧ d.maximumDaily < d.maximumOn) (base++".maximum_daily_on")
      "out_of_range" "must be at least maximum_on")
    <|> (refuse (d.kind ∈ hazardousKinds ∧ (¬ d.hazardous ∨ d.failSafeOn ∨ d.maximumOn ≤ 0 ∨
        d.requiredSensorIDs.length = 0))
      base "unsafe_equipment" ("heater, dosing-pump, and ATO equipment must be hazardous, "++
        "fail safe off, have a positive maximum_on, and require safety sensors"))
    <|> (d.requiredSensorIDs.findSome? fun sensorID =>
      refuse (sensorID ∉ seen.sensorIDs) (base++".required_sensor_ids") "invalid_reference"
        ("references unknown sensor "++sensorID))
    <|> (refuse (d.kind = some .dosingPump ∧ d.maximumDaily ≤ 0) (base++".maximum_daily_on")
      "required" "is required for dosing equipment")
    <|> (validateCommissioning (base++".commissioning") d.commissioning)
  match checks with
  | some err => .error err
  | none => .ok { seen with paths := (d.id,base++".id")::seen.paths }

def Inventory.validate (i : Inventory) : Option ValidationError :=
  match scan (validateDevice lib) 0 [] i.devices with
  | .error err => some err
  | .ok devices =>
    match scan (validateSensor lib devices) 0 {} i.sensors with
    | .error err => some err
    | .ok seen =>
      match scan (validateEquipment lib devices) 0 seen i.equipment with
      | .error err => some err
      | .ok _ => none

/-- One turn of the alarm rule loop, with the configured sensors by ID. -/
def validateRule (sensors : Table String Sensor) (index : ℕ) (seen : List String) (r : AlarmRule) :
    Except ValidationError (List String) :=
  let base := indexed "alarms.rules" index
  let checks :=
    (validateID (base++".id") r.id)
    <|> (refuse (r.id ∈ seen) (base++".id") "duplicate_id" "alarm rule ID is duplicated")
    <|> (match sensors.lookup r.sensorID with
      | none => some ⟨base++".sensor_id","invalid_reference","references unknown sensor "++r.sensorID⟩
      | some s =>
        refuse (s.entityID = "") (base++".sensor_id") "runtime_identity_required"
          "referenced sensor requires entity_id")
    <|> (refuse (lib.trimSpace r.name = "") (base++".name") "required" "is required")
    <|> (refuse (r.condition ∉ [Condition.above,.below,.outside,.isTrue,.isFalse])
      (base++".condition") "invalid_enum" "must be above, below, outside, true, or false")
    <|> (refuse (¬ r.threshold.isFinite ∨ unbounded r.thresholdHigh = true)
      (base++".threshold") "out_of_range" "threshold values must be finite")
    <|> (refuse (r.condition = .outside ∧ ∀ high ∈ r.thresholdHigh, r.threshold.ge high = true)
      (base++".threshold_high") "out_of_range"
      "outside condition requires an upper threshold greater than the lower threshold")
    <|> (refuse (r.severity ∉ [Alarms.Severity.info,.warning,.critical]) (base++".severity")
      "invalid_enum" "must be info, warning, or critical")
    <|> (refuse (r.delay < 0 ∨ 24*60*minute < r.delay ∨ r.clearDelay < 0 ∨
        24*60*minute < r.clearDelay)
      (base++".delay") "out_of_range" "delay and clear_delay must be between zero and 24h")
    <|> (r.notifications.findSome? fun target =>
      refuse (target ∉ [NotificationTarget.homeAssistant,.mqtt,.log]) (base++".notifications")
        "invalid_enum" "contains an unsupported notification target")
  match checks with
  | some err => .error err
  | none => .ok (r.id::seen)

def AlarmConfig.validate (a : AlarmConfig) (i : Inventory) : Option ValidationError :=
  match scan (validateRule lib (Table.tabulate Sensor.id i.sensors)) 0 [] a.rules with
  | .error err => some err
  | .ok _ => none

def Backup.validate (b : Backup) : Option ValidationError :=
  if ¬ b.enabled then none
  else
    (refuse (¬ (bytes "/").isPrefixOf (bytes (lib.cleanPath b.destination)) ∨
        lib.cleanPath b.destination = "/")
      "backups.destination" "invalid_path" "must be a dedicated absolute directory")
    <|> (refuse (b.retentionDays < 1 ∨ 3650 < b.retentionDays) "backups.retention_days"
      "out_of_range" "must be between 1 and 3650")

def Config.validate (c : Config) : Option ValidationError :=
  (refuse (c.schemaVersion ≠ currentSchemaVersion) "schema_version" "unsupported_version"
    ("must equal "++toString currentSchemaVersion))
  <|> (refuse (lib.toLower c.application.logLevel ∉ ["debug","info","warn","error"])
    "application.log_level" "invalid_enum" "must be debug, info, warn, or error")
  <|> (validateTimeouts lib c)
  <|> (validateHTTP lib c.http)
  <|> (refuse (c.application.eventConcurrency < 1 ∨ 4096 < c.application.eventConcurrency)
    "application.event_concurrency" "out_of_range" "must be between 1 and 4096")
  <|> (validateMQTT lib c.mqtt)
  <|> (validateStorage lib c.storage.influxDB)
  <|> (validateTombstones c.mqtt.homeAssistant.tombstones)
  <|> (validateAdapters lib c)
  <|> (c.inventory.validate lib)
  <|> (c.alarms.validate lib c.inventory)
  <|> (c.backups.validate lib)

end Sections

end Configuration
end AquaOS
