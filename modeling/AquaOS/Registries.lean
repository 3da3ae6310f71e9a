import AquaOS.Measurement
import AquaOS.Table
import Mathlib.Data.Finmap

/-! The registries of devices and their endpoints, of sensors and of equipment. `Register`
completes and validates an entry before it takes the lock, and stores it under the lock if its
ID is free; the event is published after that, so that an entry stays when publication fails. -/
namespace AquaOS
namespace Registries

open Domain

structure Device where
  id : DeviceID
  name : String
  capabilities : List Capability
  metadata : Option (Finmap fun _ : String => String) := none

structure Endpoint where
  id : EndpointID
  deviceID : DeviceID
  name : String
  capabilities : List Capability

structure Sensor where
  id : SensorID
  deviceID : DeviceID
  endpointID : EndpointID
  name : String
  quantity : QuantityKind
  unit : QuantityUnit
  capabilities : List Capability
  metadata : Option (Finmap fun _ : String => String) := none

structure Equipment where
  id : EquipmentID
  deviceID : DeviceID
  endpointID : EndpointID
  name : String
  capabilities : List Capability
  metadata : Option (Finmap fun _ : String => String) := none

/-- What the environment answers to a registration: the context, a generated identifier, and
whether the event could be published. -/
structure Answer where
  ctx : Option Failure := none
  newID : Except Failure String := .error (.message "no identifier")
  emitted : Option Failure := none

/-- The value and the error a registration returns, and the registry it leaves. No value is the
zero value. -/
structure Outcome (V R : Type) where
  value : Option V
  err : Option Failure
  registry : R

def Outcome.refused {V R : Type} (err : Failure) (r : R) : Outcome V R := ⟨none,some err,r⟩

/-- How a caller goes on that only looks at the error. -/
def Outcome.proceed {V R : Type} (o : Outcome V R) : Except Failure R :=
  match o.err with
  | some err => .error err
  | none => .ok o.registry

/-- The outcome on a part of a registry as one on the whole. -/
def Outcome.within {V R R' : Type} (o : Outcome V R) (whole : R → R') : Outcome V R' :=
  ⟨o.value,o.err,whole o.registry⟩

theorem within_proceeds {V R R' : Type} {o : Outcome V R} {whole : R → R'} {r' : R'} :
    (o.within whole).proceed = .ok r' ↔ ∃ r, o.proceed = .ok r ∧ r' = whole r := by
  unfold Outcome.within Outcome.proceed
  cases o.err with
  | some err => simp
  | none => simp [eq_comm]

/-- How an update or a removal ends: its lock section, and then its event. -/
def concluded {R : Type} (emitted : Option Failure) (r : R) : Except Failure R → Option Failure × R
  | .error err => (some err,r)
  | .ok r' => (emitted,r')

def notFound : Failure := .message "registry entry not found"
def registryExists : Failure := .message "registry ID already exists"
def sensorExists : Failure := .message "sensor already exists"
def equipmentExists : Failure := .message "equipment already exists"
def deviceOwned : Failure := .message "device still owns adapter endpoints"
def sensorNotFound : Failure := .message "sensor not found"
def equipmentNotFound : Failure := .message "equipment not found"

section Register

variable {V : Type} (id : V → String) (withID : V → String → V)

/-- The part of a registration before its lock: an empty ID is replaced by a new one. -/
def prepare (validate : V → Option Failure) (a : Answer) (v : V) : Except Failure V :=
  match a.ctx with
  | some err => .error err
  | none =>
    match if id v = "" then a.newID.map (withID v) else .ok v with
    | .error err => .error err
    | .ok v =>
      match validate v with
      | some err => .error err
      | none => .ok v

/-- The lock section, and the publication after it. -/
def store (taken : Failure) (a : Answer) (t : Table String V) (v : V) : Outcome V (Table String V) :=
  if id v ∈ t then .refused taken t else ⟨some v,a.emitted,t.insert (id v) v⟩

def register (validate : V → Option Failure) (taken : Failure) (a : Answer) (t : Table String V)
    (v : V) : Outcome V (Table String V) :=
  match prepare id withID validate a v with
  | .error err => .refused err t
  | .ok v => store id taken a t v

/-- The part of an update before its lock. -/
def admitted (validate : V → Option Failure) (a : Answer) (v : V) : Except Failure V :=
  match a.ctx, validate v with
  | some err, _ | none, some err => .error err
  | none, none => .ok v

/-- The lock section of an update. -/
def replace (missing : Failure) (t : Table String V) (v : V) : Except Failure (Table String V) :=
  if id v ∈ t then .ok (t.insert (id v) v) else .error missing

/-- The lock section of a removal. -/
def delete (missing : Failure) (t : Table String V) (key : String) :
    Except Failure (Table String V) :=
  if key ∈ t then .ok (t.erase key) else .error missing

def update (validate : V → Option Failure) (missing : Failure) (a : Answer) (t : Table String V)
    (v : V) : Option Failure × Table String V :=
  match admitted validate a v with
  | .error err => (some err,t)
  | .ok v => concluded a.emitted t (replace id missing t v)

def remove (missing : Failure) (a : Answer) (t : Table String V) (key : String) :
    Option Failure × Table String V :=
  match a.ctx with
  | some err => (some err,t)
  | none => concluded a.emitted t (delete missing t key)

variable {id withID} {validate : V → Option Failure} {a : Answer} {v : V}

theorem prepare_eq (hctx : a.ctx = none) (hid : id v ≠ "") : prepare id withID validate a v =
      match validate v with
      | some err => .error err
      | none => .ok v := by
  simp only [prepare,hctx,hid,if_false]

/-- With a running context and a published event, an entry that has an ID is registered exactly
if it is valid and the ID is free. -/
theorem register_proceeds {taken : Failure}
    {t t' : Table String V} (hctx : a.ctx = none) (hemit : a.emitted = none) (hid : id v ≠ "") :
    (register id withID validate taken a t v).proceed = .ok t' ↔
      validate v = none ∧ id v ∉ t ∧ t' = t.insert (id v) v := by
  rw [register,prepare_eq hctx hid]
  cases hv : validate v with
  | some err => simp [Outcome.proceed,Outcome.refused]
  | none =>
    by_cases hm : id v ∈ t
    · simp [store,hm,Outcome.proceed,Outcome.refused]
    · simp [store,hm,Outcome.proceed,hemit,eq_comm]

end Register

/-- The checks every kind of entry begins with. -/
def validateIdentity (noun id name : String) (capabilities : List Capability) : Option Failure :=
  ((validateID id).map (.wrapped (noun++" ID")))
  <|> (if name = "" then some (.message (noun++" name is required")) else none)
  <|> validateCapabilities capabilities

structure Devices where
  devices : Table DeviceID Device := ∅
  endpoints : Table EndpointID Endpoint := ∅

def validateDevice (d : Device) : Option Failure :=
  validateIdentity "device" d.id d.name d.capabilities

def Devices.register (r : Devices) (a : Answer) (d : Device) : Outcome Device Devices :=
  (Registries.register Device.id (fun d id => { d with id := id }) validateDevice
    registryExists a r.devices d).within fun t => { r with devices := t }

/-- The lock section of `Update`, which keeps what the endpoints of the device need. -/
def Devices.replaceDevice (r : Devices) (d : Device) : Except Failure Devices :=
  if d.id ∉ r.devices then .error notFound
  else if r.endpoints.values.any fun e =>
      e.deviceID = d.id && !supportsAll d.capabilities e.capabilities then
    .error (.message "device update would orphan endpoint capabilities")
  else .ok { r with devices := r.devices.insert d.id d }

/-- The lock section of `Remove`. -/
def Devices.deleteDevice (r : Devices) (id : DeviceID) : Except Failure Devices :=
  if id ∉ r.devices then .error notFound
  else if r.endpoints.values.any fun e => e.deviceID = id then .error deviceOwned
  else .ok { r with devices := r.devices.erase id }

def Devices.update (r : Devices) (a : Answer) (d : Device) : Option Failure × Devices :=
  match admitted validateDevice a d with
  | .error err => (some err,r)
  | .ok d => concluded a.emitted r (r.replaceDevice d)

def Devices.remove (r : Devices) (a : Answer) (id : DeviceID) : Option Failure × Devices :=
  match a.ctx with
  | some err => (some err,r)
  | none => concluded a.emitted r (r.deleteDevice id)

def validateEndpoint (e : Endpoint) : Option Failure :=
  validateIdentity "endpoint" e.id e.name e.capabilities

/-- The lock section of `RegisterEndpoint`. -/
def Devices.storeEndpoint (r : Devices) (e : Endpoint) : Outcome Endpoint Devices :=
  match r.devices.lookup e.deviceID with
  | none => .refused (.wrapped "device ownership" notFound) r
  | some d =>
    if e.id ∈ r.endpoints then .refused registryExists r
    else if ¬ supportsAll d.capabilities e.capabilities then
      .refused (.message "endpoint capabilities exceed owning device capabilities") r
    else ⟨some e,none,{ r with endpoints := r.endpoints.insert e.id e }⟩

/-- `RegisterEndpoint`, which publishes no event. -/
def Devices.registerEndpoint (r : Devices) (a : Answer) (e : Endpoint) : Outcome Endpoint Devices :=
  match prepare Endpoint.id (fun e id => { e with id := id }) validateEndpoint a e with
  | .error err => .refused err r
  | .ok e => r.storeEndpoint e

/-- `Endpoint`, the ownership lookup of the other registries. -/
def Devices.endpoint (r : Devices) (ctx : Option Failure) (id : EndpointID) :
    Except Failure Endpoint :=
  match ctx, r.endpoints.lookup id with
  | some err, _ => .error err
  | none, none => .error notFound
  | none, some e => .ok e

/-- The ownership checks sensors and equipment end with. -/
def validateOwner (noun : String) (owners : Devices) (ctx : Option Failure) (deviceID : DeviceID)
    (endpointID : EndpointID) (capabilities : List Capability) : Option Failure :=
  match owners.endpoint ctx endpointID with
  | .error err => some (.wrapped "endpoint ownership" err)
  | .ok e =>
    if e.deviceID ≠ deviceID then some (.message (noun++" device does not own endpoint"))
    else if ¬ supportsAll e.capabilities capabilities then
      some (.message (noun++" capabilities exceed endpoint capabilities"))
    else none

def validateSensor (owners : Devices) (ctx : Option Failure) (s : Sensor) : Option Failure :=
  (validateIdentity "sensor" s.id s.name s.capabilities)
  <|> (if s.capabilities ≠ [.observe] then
    some (.message "sensor supports only the observe capability") else none)
  <|> (match newQuantity s.quantity 0 s.unit with
    | .error err => some err
    | .ok _ => none)
  <|> validateOwner "sensor" owners ctx s.deviceID s.endpointID s.capabilities

abbrev Sensors := Table SensorID Sensor

def Sensors.register (t : Sensors) (owners : Devices) (a : Answer) (s : Sensor) :
    Outcome Sensor Sensors :=
  Registries.register Sensor.id (fun s id => { s with id := id }) (validateSensor owners a.ctx)
    sensorExists a t s

def Sensors.update (t : Sensors) (owners : Devices) (a : Answer) (s : Sensor) :
    Option Failure × Sensors :=
  Registries.update Sensor.id (validateSensor owners a.ctx) sensorNotFound a t s

def Sensors.remove (t : Sensors) (a : Answer) (id : SensorID) : Option Failure × Sensors :=
  Registries.remove sensorNotFound a t id

def validateEquipment (owners : Devices) (ctx : Option Failure) (e : Equipment) : Option Failure :=
  (validateIdentity "equipment" e.id e.name e.capabilities)
  <|> (if ¬ supportsAll e.capabilities [.switch] ∧ ¬ supportsAll e.capabilities [.variableOutput] then
    some (.message "equipment requires switch or variable-output capability") else none)
  <|> validateOwner "equipment" owners ctx e.deviceID e.endpointID e.capabilities

abbrev EquipmentTable := Table EquipmentID Equipment

def EquipmentTable.register (t : EquipmentTable) (owners : Devices) (a : Answer) (e : Equipment) :
    Outcome Equipment EquipmentTable :=
  Registries.register Equipment.id (fun e id => { e with id := id })
    (validateEquipment owners a.ctx) equipmentExists a t e

def EquipmentTable.update (t : EquipmentTable) (owners : Devices) (a : Answer) (e : Equipment) :
    Option Failure × EquipmentTable :=
  Registries.update Equipment.id (validateEquipment owners a.ctx) equipmentNotFound a t e

def EquipmentTable.remove (t : EquipmentTable) (a : Answer) (id : EquipmentID) :
    Option Failure × EquipmentTable :=
  Registries.remove equipmentNotFound a t id

section Proceeds

variable {a : Answer} {r r' : Devices} {d : Device}

theorem device_proceeds (hctx : a.ctx = none) (hemit : a.emitted = none) (hid : d.id ≠ "") :
    (r.register a d).proceed = .ok r' ↔ validateDevice d = none ∧ d.id ∉ r.devices ∧
      r' = { r with devices := r.devices.insert d.id d } := by
  rw [Devices.register,within_proceeds]
  constructor
  · rintro ⟨t,ht,rfl⟩
    obtain ⟨hv,hm,rfl⟩ := (register_proceeds hctx hemit hid).mp ht
    exact ⟨hv,hm,rfl⟩
  · rintro ⟨hv,hm,rfl⟩
    exact ⟨_,(register_proceeds hctx hemit hid).mpr ⟨hv,hm,rfl⟩,rfl⟩

/-- An endpoint is registered exactly if it is valid, its ID is free and its device exists with
its capabilities. -/
theorem endpoint_proceeds {e : Endpoint} (hctx : a.ctx = none)
    (hid : e.id ≠ "") (hd : r.devices.lookup e.deviceID = some d) :
    (r.registerEndpoint a e).proceed = .ok r' ↔ validateEndpoint e = none ∧ e.id ∉ r.endpoints ∧
      supportsAll d.capabilities e.capabilities = true ∧
      r' = { r with endpoints := r.endpoints.insert e.id e } := by
  rw [Devices.registerEndpoint,prepare_eq hctx hid]
  cases hv : validateEndpoint e with
  | some err => simp [Outcome.proceed,Outcome.refused]
  | none =>
    by_cases hm : e.id ∈ r.endpoints
    · simp [Devices.storeEndpoint,hd,hm,Outcome.proceed,Outcome.refused]
    · by_cases hs : supportsAll d.capabilities e.capabilities = true
      · simp [Devices.storeEndpoint,hd,hm,hs,Outcome.proceed,eq_comm]
      · simp [Devices.storeEndpoint,hd,hm,hs,Outcome.proceed,Outcome.refused]

end Proceeds

end Registries
end AquaOS
