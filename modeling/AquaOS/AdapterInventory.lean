import AquaOS.AcceptedConfig
import AquaOS.Coordinator
import AquaOS.DerivedProfiles
import AquaOS.Registries

/-! The identities `New` registers from the endpoints of both adapters, enabled or not, and the
alarm rules of the coordinator. Both adapters share the registries, and each registration takes
identifiers; construction succeeds exactly if none is taken twice. -/
namespace AquaOS
namespace App

open Domain EquipmentProfile Scan Registries
open AquaOS.Configuration (Config ShellyEndpoint ESP32Endpoint ShellyAccepted ESP32Accepted Library)

def kindText : Kind → String
  | .outlet => "outlet"
  | .heater => "heater"
  | .returnPump => "return-pump"
  | .circulationPump => "circulation-pump"
  | .ato => "ato"
  | .dosingPump => "dosing-pump"
  | .light => "light"
  | .other text => text

/-- The configured name of a definition that has one. -/
def nameOr (configured : Option String) (name : String) : String :=
  match configured with
  | none => name
  | some text => if text ≠ "" then text else name

def labels (pairs : List (String × String)) : Finmap fun _ : String => String :=
  pairs.foldl (fun m p => m.insert p.1 p.2) ∅

section Definitions

variable (c : Config)

def deviceDefinition (id : String) : Option Configuration.Device :=
  (Table.tabulate Configuration.Device.entityID c.inventory.devices).lookup id

def sensorDefinition (id : String) : Option Configuration.Sensor :=
  (Table.tabulate Configuration.Sensor.entityID c.inventory.sensors).lookup id

/-- A configured metadata entry replaces one of the adapter. -/
def shellyMetadata (e : ShellyEndpoint) : Finmap fun _ : String => String :=
  let own := labels [("adapter","shelly"),("equipmentKind",kindText e.equipmentKind)]
  match (deviceDefinition c e.id).bind Configuration.Device.metadata with
  | none => own
  | some configured => configured ∪ own

def shellyDevice (e : ShellyEndpoint) : Device :=
  { id := e.id
    name := nameOr ((deviceDefinition c e.id).map Configuration.Device.name)
      ("Shelly "++kindText e.equipmentKind)
    capabilities := shellyCapabilities, metadata := some (shellyMetadata c e) }

def shellyChannel (e : ShellyEndpoint) : Endpoint :=
  ⟨e.id,e.id,"Shelly channel",shellyCapabilities⟩

def shellyEquipment (e : ShellyEndpoint) : Equipment :=
  { id := e.equipmentID, deviceID := e.id, endpointID := e.id
    name := nameOr ((equipmentDefinition c e.equipmentID).map Configuration.Equipment.name)
      (kindText e.equipmentKind)
    capabilities := shellyCapabilities, metadata := some (labels [("adapter","shelly")]) }

def nodeDevice (e : ESP32Endpoint) : Device :=
  { id := e.deviceID
    name := nameOr ((deviceDefinition c e.deviceID).map Configuration.Device.name)
      "ESP32 sensor node"
    capabilities := [.observe], metadata := some (labels [("adapter","esp32")]) }

def nodeEndpoint (e : ESP32Endpoint) : Endpoint :=
  ⟨e.id,e.deviceID,"ESP32 dual-probe endpoint",[.observe]⟩

def probeSensor (e : ESP32Endpoint) (index : ℕ) (probeID : String) : Sensor :=
  { id := probeID, deviceID := e.deviceID, endpointID := e.id
    name := nameOr ((sensorDefinition c probeID).map Configuration.Sensor.name)
      ("Temperature probe "++toString (index+1))
    quantity := .temperature, unit := .celsius, capabilities := [.observe]
    metadata := some (labels [("adapter","esp32")]) }

end Definitions

structure Registered where
  devices : Devices := {}
  sensors : Sensors := ∅
  equipment : EquipmentTable := ∅

section Registration

variable (a : Answer) (c : Config)

/-- One turn of the Shelly loop of `registerAdapterInventory`. -/
def registerShelly (_ : ℕ) (r : Registered) (e : ShellyEndpoint) : Except Failure Registered := do
  let devices ← (r.devices.register a (shellyDevice c e)).proceed
  let devices ← (devices.registerEndpoint a (shellyChannel e)).proceed
  let equipment ← (r.equipment.register devices a (shellyEquipment c e)).proceed
  return { r with devices := devices, equipment := equipment }

def registerProbe (owners : Devices) (e : ESP32Endpoint) (index : ℕ) (t : Sensors)
    (probeID : String) : Except Failure Sensors :=
  (t.register owners a (probeSensor c e index probeID)).proceed

def registerNode (_ : ℕ) (r : Registered) (e : ESP32Endpoint) : Except Failure Registered := do
  let devices ← (r.devices.register a (nodeDevice c e)).proceed
  let devices ← (devices.registerEndpoint a (nodeEndpoint e)).proceed
  let sensors ← scan (registerProbe a c devices e) 0 r.sensors e.probeIDs
  return { r with devices := devices, sensors := sensors }

/-- `registerAdapterInventory` on empty registries. -/
def registerAdapterInventory : Except Failure Registered := do
  let r ← scan (registerShelly a c) 0 {} c.adapters.shelly.endpoints
  scan (registerNode a c) 0 r c.adapters.esp32.endpoints

end Registration

inductive Entity
  | device | endpoint | sensor | equipment
  deriving DecidableEq

/-- An identifier of one of the registries, as a registration takes it. -/
abbrev Slot := Entity × String

def Registered.Has (r : Registered) : Slot → Prop
  | (.device,id) => id ∈ r.devices.devices
  | (.endpoint,id) => id ∈ r.devices.endpoints
  | (.sensor,id) => id ∈ r.sensors
  | (.equipment,id) => id ∈ r.equipment

def shellySlots (e : ShellyEndpoint) : List Slot :=
  [(.device,e.id),(.endpoint,e.id),(.equipment,e.equipmentID)]

def nodeSlots (e : ESP32Endpoint) : List Slot :=
  (.device,e.deviceID)::(.endpoint,e.id)::e.probeIDs.map (Entity.sensor,·)

variable {id name noun : String}

theorem ne_empty_of_valid (h : validateID id = none) : id ≠ "" := by
  rintro rfl
  exact absurd h (by decide)

theorem nameOr_ne_empty {configured : Option String} (h : name ≠ "") :
    nameOr configured name ≠ "" := by
  unfold nameOr
  split
  · exact h
  · split_ifs with ht
    · exact ht
    · exact h

theorem validateIdentity_eq_none {capabilities : List Capability} (hid : validateID id = none)
    (hname : name ≠ "") (hcaps : validateCapabilities capabilities = none) :
    validateIdentity noun id name capabilities = none := by
  simp [validateIdentity,hid,hname,hcaps]

theorem observe_valid : validateCapabilities [.observe] = none := by decide

theorem observe_supports : supportsAll [.observe] [.observe] = true := by decide

theorem shelly_supports : supportsAll shellyCapabilities shellyCapabilities = true := by decide

theorem validateOwner_eq_none {owners : Devices} (endpoint : Endpoint)
    (h : owners.endpoints.lookup endpoint.id = some endpoint)
    (hcaps : supportsAll endpoint.capabilities endpoint.capabilities = true) :
    validateOwner noun owners none endpoint.deviceID endpoint.id endpoint.capabilities = none := by
  simp [validateOwner,Devices.endpoint,h,hcaps]

section Turns

variable {a : Answer} {c : Config} {S : Type} {s : S} {r' : Registered}

theorem pure_ok {t : S} : (pure s : Except Failure S) = .ok t ↔ t = s := by
  simp [pure,Except.pure,eq_comm]

variable {e : ShellyEndpoint} {i : ℕ} {r : Registered}

theorem kindText_ne_empty (he : ShellyAccepted e) : kindText e.equipmentKind ≠ "" := by
  rcases he.kind with hk | hk <;> simp [hk,kindText]

/-- The device registry after a device and its endpoint have been registered. -/
def owning (ds : Devices) (d : Device) (e : Endpoint) : Devices :=
  ⟨ds.devices.insert d.id d,ds.endpoints.insert e.id e⟩

variable (hctx : a.ctx = none) (hemit : a.emitted = none)

include hctx hemit

/-- Registering a valid device with a valid endpoint of its capabilities takes their IDs. -/
theorem owning_bind {ds : Devices} {d : Device} {e : Endpoint}
    {k : Devices → Except Failure S} (hd : validateDevice d = none) (he : validateEndpoint e = none)
    (hdid : validateID d.id = none) (heid : validateID e.id = none) (howns : e.deviceID = d.id)
    (hcaps : supportsAll d.capabilities e.capabilities = true) :
    ((ds.register a d).proceed >>= fun t => (t.registerEndpoint a e).proceed >>= k) = .ok s ↔
      (d.id ∉ ds.devices ∧ e.id ∉ ds.endpoints) ∧ k (owning ds d e) = .ok s := by
  have hlookup : (ds.devices.insert d.id d).lookup e.deviceID = some d := by
    rw [howns]
    exact AList.lookup_insert _
  simp only [bind_ok]
  constructor
  · rintro ⟨t,ht,ds',hds,hk⟩
    obtain ⟨_,hfree,rfl⟩ := (device_proceeds hctx hemit (ne_empty_of_valid hdid)).mp ht
    obtain ⟨_,hfree',_,rfl⟩ :=
      (endpoint_proceeds hctx (ne_empty_of_valid heid) hlookup).mp hds
    exact ⟨⟨hfree,hfree'⟩,hk⟩
  · rintro ⟨⟨hfree,hfree'⟩,hk⟩
    exact ⟨_,(device_proceeds hctx hemit (ne_empty_of_valid hdid)).mpr ⟨hd,hfree,rfl⟩,_,
      (endpoint_proceeds hctx (ne_empty_of_valid heid) hlookup).mpr ⟨he,hfree',hcaps,rfl⟩,hk⟩

theorem shelly_equipment_ok (ds : Devices) (t t' : EquipmentTable) (he : ShellyAccepted e)
    (hds : ds.endpoints.lookup e.id = some (shellyChannel e)) :
    (t.register ds a (shellyEquipment c e)).proceed = .ok t' ↔
      e.equipmentID ∉ t ∧ t' = t.insert e.equipmentID (shellyEquipment c e) := by
  have hident : validateIdentity "equipment" e.equipmentID (shellyEquipment c e).name
      shellyCapabilities = none :=
    validateIdentity_eq_none he.equipmentID (nameOr_ne_empty (kindText_ne_empty he))
      shellyCapabilities_valid.1
  have howner : validateOwner "equipment" ds none e.id e.id shellyCapabilities = none :=
    validateOwner_eq_none (shellyChannel e) hds shelly_supports
  have hswitch : supportsAll shellyCapabilities [.switch] = true := by decide
  have hvalid : validateEquipment ds a.ctx (shellyEquipment c e) = none := by
    simp only [validateEquipment,Option.orElse_eq_none,hctx]
    refine ⟨hident,?_,howner⟩
    simp [shellyEquipment,hswitch]
  have hid : (shellyEquipment c e).id ≠ "" := ne_empty_of_valid he.equipmentID
  rw [EquipmentTable.register,register_proceeds hctx hemit hid]
  exact ⟨fun h => h.2,fun h => ⟨hvalid,h⟩⟩

theorem registerShelly_ok (he : ShellyAccepted e) : registerShelly a c i r e = .ok r' ↔
      (e.id ∉ r.devices.devices ∧ e.id ∉ r.devices.endpoints ∧ e.equipmentID ∉ r.equipment) ∧
      r' = { r with
        devices := owning r.devices (shellyDevice c e) (shellyChannel e)
        equipment := r.equipment.insert e.equipmentID (shellyEquipment c e) } := by
  have hcaps := shellyCapabilities_valid.1
  have hdev : validateDevice (shellyDevice c e) = none :=
    validateIdentity_eq_none he.id (nameOr_ne_empty (by simp)) hcaps
  have hend : validateEndpoint (shellyChannel e) = none :=
    validateIdentity_eq_none he.id (by simp [shellyChannel]) hcaps
  have hequip := fun t' => shelly_equipment_ok (c := c) hctx hemit
    (owning r.devices (shellyDevice c e) (shellyChannel e)) r.equipment t' he
    (AList.lookup_insert _)
  rw [registerShelly,owning_bind hctx hemit hdev hend he.id he.id rfl shelly_supports]
  simp only [bind_ok,pure_ok,hequip,and_assoc,exists_and_left,exists_eq_left]
  rfl

theorem registerShelly_takes (he : ShellyAccepted e) : (∃ r', registerShelly a c i r e = .ok r') ↔
      True ∧ (shellySlots e).Nodup ∧ ∀ k ∈ shellySlots e, ¬ r.Has k := by
  simp [registerShelly_ok hctx hemit he,shellySlots,Registered.Has]

theorem registerShelly_has (he : ShellyAccepted e)
    (h : registerShelly a c i r e = .ok r') (k : Slot) : r'.Has k ↔ k ∈ shellySlots e ∨ r.Has k := by
  obtain ⟨_,rfl⟩ := (registerShelly_ok hctx hemit he).mp h
  obtain ⟨entity,id⟩ := k
  cases entity <;> simp [Registered.Has,shellySlots,owning,shellyDevice,shellyChannel]

theorem registerProbe_ok {e : ESP32Endpoint} {owners : Devices} {t t' : Sensors} {probeID : String}
    (hp : validateID probeID = none)
    (howners : owners.endpoints.lookup e.id = some (nodeEndpoint e)) :
    registerProbe a c owners e i t probeID = .ok t' ↔
      probeID ∉ t ∧ t' = t.insert probeID (probeSensor c e i probeID) := by
  have hident : validateIdentity "sensor" probeID (probeSensor c e i probeID).name [.observe] =
      none :=
    validateIdentity_eq_none hp (nameOr_ne_empty (by simp)) observe_valid
  have howner : validateOwner "sensor" owners none e.deviceID e.id [.observe] = none :=
    validateOwner_eq_none (nodeEndpoint e) howners observe_supports
  have hquantity : newQuantity .temperature 0 .celsius = .ok ⟨.temperature,0,.celsius⟩ := rfl
  have hvalid : validateSensor owners a.ctx (probeSensor c e i probeID) = none := by
    simp only [validateSensor,Option.orElse_eq_none,hctx]
    refine ⟨hident,?_,?_,howner⟩
    · simp [probeSensor]
    · simp [probeSensor,hquantity]
  have hid : (probeSensor c e i probeID).id ≠ "" := ne_empty_of_valid hp
  rw [registerProbe,Sensors.register,register_proceeds hctx hemit hid]
  exact ⟨fun h => h.2,fun h => ⟨hvalid,h⟩⟩

section Probes

variable {e : ESP32Endpoint} {owners : Devices} {t : Sensors} (he : ESP32Accepted e)
  (howners : owners.endpoints.lookup e.id = some (nodeEndpoint e))

include he howners

theorem probes_take :
    (∃ t', scan (registerProbe a c owners e) 0 t e.probeIDs = .ok t') ↔
      e.probeIDs.Nodup ∧ ∀ p ∈ e.probeIDs, p ∉ t := by
  have hinsert := scan_inserts_iff (f := registerProbe a c owners e) (i := 0) (s := t)
    (H := fun t p => p ∈ t) (k := id) (V := fun _ => True) (l := e.probeIDs)
    (u := fun i t p => t.insert p (probeSensor c e i p))
    (fun i s p hp t => by simp [registerProbe_ok hctx hemit (he.valid p hp) howners])
    (fun _ _ _ _ => by simp)
  simpa using hinsert

theorem probes_hold {t' : Sensors}
    (h : scan (registerProbe a c owners e) 0 t e.probeIDs = .ok t') (p : String) :
    p ∈ t' ↔ p ∈ e.probeIDs ∨ p ∈ t := by
  have hholds := scan_inserts_holds (H := fun (t : Sensors) p => p ∈ t) (k := id)
    (V := fun _ => True) (u := fun i t p => t.insert p (probeSensor c e i p)) h
    (fun i s p hp t => by simp [registerProbe_ok hctx hemit (he.valid p hp) howners])
    (fun _ _ _ _ => by simp) p
  simpa using hholds

end Probes

variable {e : ESP32Endpoint} {i : ℕ} {r r' : Registered}

theorem registerNode_ok (he : ESP32Accepted e) : registerNode a c i r e = .ok r' ↔
      (e.deviceID ∉ r.devices.devices ∧ e.id ∉ r.devices.endpoints) ∧
      ∃ t, scan (registerProbe a c (owning r.devices (nodeDevice c e) (nodeEndpoint e)) e) 0
          r.sensors e.probeIDs = .ok t ∧
        r' = { r with devices := owning r.devices (nodeDevice c e) (nodeEndpoint e), sensors := t } := by
  have hdev : validateDevice (nodeDevice c e) = none :=
    validateIdentity_eq_none he.deviceID (nameOr_ne_empty (by simp)) observe_valid
  have hend : validateEndpoint (nodeEndpoint e) = none :=
    validateIdentity_eq_none he.id (by simp [nodeEndpoint]) observe_valid
  rw [registerNode,owning_bind hctx hemit hdev hend he.deviceID he.id rfl observe_supports]
  simp only [bind_ok,pure_ok]
  rfl

theorem registerNode_takes (he : ESP32Accepted e) : (∃ r', registerNode a c i r e = .ok r') ↔
      True ∧ (nodeSlots e).Nodup ∧ ∀ k ∈ nodeSlots e, ¬ r.Has k := by
  have howners : (owning r.devices (nodeDevice c e) (nodeEndpoint e)).endpoints.lookup e.id =
      some (nodeEndpoint e) := AList.lookup_insert _
  have hprobes := probes_take (c := c) (t := r.sensors) hctx hemit he howners
  have hinj : Function.Injective fun id : String => (Entity.sensor,id) :=
    Prod.mk_right_injective _
  have hslots : (nodeSlots e).Nodup ↔ e.probeIDs.Nodup := by
    simp [nodeSlots,List.nodup_map_iff hinj]
  have hfree : (∀ k ∈ nodeSlots e, ¬ r.Has k) ↔ (e.deviceID ∉ r.devices.devices ∧
      e.id ∉ r.devices.endpoints) ∧ ∀ p ∈ e.probeIDs, p ∉ r.sensors := by
    simp [nodeSlots,Registered.Has,and_assoc]
  simp only [registerNode_ok hctx hemit he,hslots,hfree,true_and]
  constructor
  · rintro ⟨_,hids,t,ht,_⟩
    obtain ⟨hnd,hnew⟩ := hprobes.mp ⟨t,ht⟩
    exact ⟨hnd,hids,hnew⟩
  · rintro ⟨hnd,hids,hnew⟩
    obtain ⟨t,ht⟩ := hprobes.mpr ⟨hnd,hnew⟩
    exact ⟨_,hids,t,ht,rfl⟩

theorem registerNode_has (he : ESP32Accepted e)
    (h : registerNode a c i r e = .ok r') (k : Slot) : r'.Has k ↔ k ∈ nodeSlots e ∨ r.Has k := by
  obtain ⟨_,t,ht,rfl⟩ := (registerNode_ok hctx hemit he).mp h
  have hold := probes_hold hctx hemit he (AList.lookup_insert _) ht
  obtain ⟨entity,id⟩ := k
  cases entity <;> simp [Registered.Has,nodeSlots,owning,nodeDevice,nodeEndpoint,hold]

end Turns

def slots (c : Config) : List Slot :=
  c.adapters.shelly.endpoints.flatMap shellySlots++c.adapters.esp32.endpoints.flatMap nodeSlots

/-- The inventory of an accepted configuration registers exactly if no identifier is taken
twice. -/
theorem registerAdapterInventory_ok_iff {a : Answer} {c : Config} (hctx : a.ctx = none)
    (hemit : a.emitted = none) (hc : Configuration.AdaptersAccepted c.adapters) :
    (∃ r, registerAdapterInventory a c = .ok r) ↔ (slots c).Nodup := by
  have hshelly := scan_takes_iff (f := registerShelly a c) (i := 0) (s := {})
    (l := c.adapters.shelly.endpoints)
    (fun i s e he => registerShelly_takes hctx hemit (hc.shelly e he))
    (fun i s e he t ht => registerShelly_has hctx hemit (hc.shelly e he) ht)
  have hnode := fun r => scan_takes_iff (f := registerNode a c) (i := 0) (s := r)
    (l := c.adapters.esp32.endpoints)
    (fun i s e he => registerNode_takes hctx hemit (hc.esp32 e he))
    (fun i s e he t ht => registerNode_has hctx hemit (hc.esp32 e he) ht)
  have hempty : ∀ k, ¬ Registered.Has {} k := by
    rintro ⟨entity,id⟩
    cases entity <;> simp [Registered.Has]
  have hheld := fun r (hr : scan (registerShelly a c) 0 {} c.adapters.shelly.endpoints = .ok r) =>
    scan_holds hr fun i s e he t ht => registerShelly_has hctx hemit (hc.shelly e he) ht
  simp only [registerAdapterInventory,bind_ok,slots,List.nodup_append]
  constructor
  · rintro ⟨r',r,hr,hr'⟩
    obtain ⟨_,hnd,_⟩ := hshelly.mp ⟨r,hr⟩
    obtain ⟨_,hnd',hfree⟩ := (hnode r).mp ⟨r',hr'⟩
    refine ⟨hnd,hnd',?_⟩
    rintro k hk k' hk' rfl
    exact hfree k hk' ((hheld r hr k).mpr (.inl hk))
  · rintro ⟨hnd,hnd',hdisj⟩
    obtain ⟨r,hr⟩ := hshelly.mpr ⟨fun _ _ => trivial,hnd,fun k _ => hempty k⟩
    have hfree : ∀ k ∈ c.adapters.esp32.endpoints.flatMap nodeSlots, ¬ r.Has k := by
      intro k hk hhas
      rcases (hheld r hr k).mp hhas with hk' | hno
      · exact hdisj k hk' k hk rfl
      · exact hempty k hno
    obtain ⟨r',hr'⟩ := (hnode r).mpr ⟨fun _ _ => trivial,hnd',hfree⟩
    exact ⟨r',r,hr,hr'⟩

def ids (entity : Entity) (ks : List Slot) : List String :=
  (ks.filter fun k => k.1 = entity).map Prod.snd

theorem mem_ids {entity : Entity} {ks : List Slot} {id : String} :
    id ∈ ids entity ks ↔ (entity,id) ∈ ks := by
  simp [ids]

@[simp] theorem ids_nil (entity : Entity) : ids entity [] = [] := rfl

@[simp] theorem ids_cons (entity other : Entity) (id : String) (ks : List Slot) :
    ids other ((entity,id)::ks) = if entity = other then id::ids other ks else ids other ks := by
  by_cases h : entity = other <;> simp [ids,h]

@[simp] theorem ids_append (entity : Entity) (ks ls : List Slot) :
    ids entity (ks++ls) = ids entity ks++ids entity ls := by
  simp [ids]

@[simp] theorem ids_flatMap {A : Type} (entity : Entity) (f : A → List Slot) (xs : List A) :
    ids entity (xs.flatMap f) = xs.flatMap fun x => ids entity (f x) := by
  simp [ids,List.filter_flatMap,List.map_flatMap]

@[simp] theorem ids_map (entity other : Entity) (xs : List String) :
    ids other (xs.map (entity,·)) = if entity = other then xs else [] := by
  induction xs with
  | nil => simp
  | cons x xs ih => by_cases h : entity = other <;> simp_all

theorem nodup_iff_ids (ks : List Slot) : ks.Nodup ↔ ∀ entity, (ids entity ks).Nodup := by
  induction ks with
  | nil => simp
  | cons k ks ih =>
    obtain ⟨entity,id⟩ := k
    rw [List.nodup_cons,ih,← mem_ids]
    constructor
    · rintro ⟨hnew,hnd⟩ other
      rw [ids_cons]
      split_ifs with h
      · subst h
        exact List.nodup_cons.mpr ⟨hnew,hnd entity⟩
      · exact hnd other
    · intro hnd
      have hown := hnd entity
      rw [ids_cons,if_pos rfl,List.nodup_cons] at hown
      refine ⟨hown.1,fun other => ?_⟩
      by_cases h : entity = other
      · exact h ▸ hown.2
      · simpa [h] using hnd other

/-- A node's device has the ID of a Shelly endpoint, which is also that endpoint's device. -/
def SharedDevice (a : Configuration.Adapters) : Prop :=
  ∃ s ∈ a.shelly.endpoints, ∃ e ∈ a.esp32.endpoints, e.deviceID = s.id

theorem slots_nodup_iff {c : Config} (hc : Configuration.AdaptersAccepted c.adapters) :
    (slots c).Nodup ↔ ¬ SharedDevice c.adapters := by
  have hdevices : ids .device (slots c) = c.adapters.shelly.endpoints.map ShellyEndpoint.id++
      c.adapters.esp32.endpoints.map ESP32Endpoint.deviceID := by
    simp [slots,shellySlots,nodeSlots,← List.map_eq_flatMap]
  have hendpoints : ids .endpoint (slots c) = c.adapters.shelly.endpoints.map ShellyEndpoint.id++
      c.adapters.esp32.endpoints.map ESP32Endpoint.id := by
    simp [slots,shellySlots,nodeSlots,← List.map_eq_flatMap]
  have hsensors : ids .sensor (slots c) =
      c.adapters.esp32.endpoints.flatMap ESP32Endpoint.probeIDs := by
    simp [slots,shellySlots,nodeSlots]
  have hequipment : ids .equipment (slots c) =
      c.adapters.shelly.endpoints.map ShellyEndpoint.equipmentID := by
    simp [slots,shellySlots,nodeSlots,← List.map_eq_flatMap]
  have hshelly : (c.adapters.shelly.endpoints.map ShellyEndpoint.id).Nodup :=
    (List.nodup_append.mp hc.endpoints).1
  rw [nodup_iff_ids]
  constructor
  · rintro hnd ⟨s,hs,e,he,hsame⟩
    have hdev := hnd .device
    rw [hdevices] at hdev
    exact (List.nodup_append.mp hdev).2.2 s.id (List.mem_map_of_mem hs) e.deviceID
      (List.mem_map_of_mem he) hsame.symm
  · rintro hdisj entity
    cases entity with
    | device =>
      rw [hdevices]
      refine List.nodup_append.mpr ⟨hshelly,hc.devices,?_⟩
      intro id hid id' hid' hsame
      obtain ⟨s,hs,rfl⟩ := List.mem_map.mp hid
      obtain ⟨e,he,rfl⟩ := List.mem_map.mp hid'
      exact hdisj ⟨s,hs,e,he,hsame.symm⟩
    | endpoint => rw [hendpoints]; exact hc.endpoints
    | sensor => rw [hsensors]; exact hc.probes
    | equipment => rw [hequipment]; exact hc.equipment

end App
end AquaOS
