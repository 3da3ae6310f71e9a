import AquaOS.EventExport
import AquaOS.Registries

/-! The Home Assistant integration: its construction and the discovery documents of an inventory.
Object IDs are put together from identifiers that other packages have checked, and have to be
segments of topics again. -/
namespace AquaOS
namespace HomeAssistant

open Domain Mqtt
open Registries (Device Sensor Equipment)

theorem newRegistry_siteID {siteID : String} {r : Registry} (h : newRegistry siteID = .ok r) :
    r.siteID = siteID := by
  unfold newRegistry at h
  split_ifs at h
  cases h
  rfl

structure Tombstone where
  component : String
  objectID : String
  deriving DecidableEq

structure Config where
  siteID : String
  commandTTL : ℤ
  maximumPayload : ℤ
  tombstones : List Tombstone := []
  notificationRuleIDs : List RuleID := []

/-- The integration; `New` makes one. Its published entities are a set of keys, in no particular
order. -/
structure Manager where
  cfg : Config
  registry : Registry
  codec : Codec
  site : registry.siteID = cfg.siteID
  ttl : 0 < cfg.commandTTL ∧ cfg.commandTTL ≤ Configuration.minute
  lastErr : Option Failure := none
  published : List String := []
  allowed : Table String EquipmentID := ∅

/-- `New`, given all its dependencies. -/
def newManager (cfg : Config) (now : ℤ) : Except Failure Manager :=
  if httl : 0 < cfg.commandTTL ∧ cfg.commandTTL ≤ Configuration.minute then
    match hr : newRegistry cfg.siteID with
    | .error err => .error err
    | .ok registry =>
      match newCodec cfg.siteID cfg.maximumPayload now with
      | .error err => .error err
      | .ok codec =>
        .ok { cfg, registry, codec, site := newRegistry_siteID hr, ttl := httl }
  else .error (.message "home assistant command TTL must be positive and at most one minute")

structure HaDevice where
  identifiers : List String
  name : String
  manufacturer : String
  model : String

/-- An empty text is left out of the document where the source says so. -/
structure DiscoveryPayload where
  name : String
  uniqueID : String
  suggestedObjectID : String
  stateTopic : String
  commandTopic : String := ""
  availabilityTopic : String
  valueTemplate : String := ""
  payloadOn : String := ""
  payloadOff : String := ""
  unitOfMeasurement : String := ""
  deviceClass : String := ""
  stateClass : String := ""
  device : HaDevice

structure Entity where
  component : String
  objectID : String
  payload : List UInt8
  deriving DecidableEq

/-- `json.Marshal` of discovery documents, which always writes an object. -/
structure Encoder where
  marshal : DiscoveryPayload → List UInt8
  nonempty : ∀ p, marshal p ≠ []

structure Inventory where
  devices : Except Failure (List Device)
  sensors : Except Failure (List Sensor)
  equipment : Except Failure (List Equipment)

/-- Lower case, and everything but letters, digits and underscores as an underscore. -/
def entityObjectID (kind id : String) : String :=
  String.ofList (("aquaos_"++kind++"_"++id).toList.map fun c =>
    let c := c.toLower
    if ('a' ≤ c ∧ c ≤ 'z') ∨ ('0' ≤ c ∧ c ≤ '9') ∨ c = '_' then c else '_')

def deviceInfo (id : DeviceID) (name : String) : HaDevice :=
  { identifiers := [if id = "" then "aquaos-core" else "aquaos-device-"++id]
    name := if name = "" then "AquaOS Device" else name
    manufacturer := "AquaOS", model := "AquaOS managed device" }

def haUnit : QuantityUnit → String
  | .celsius => "°C"
  | .ppt => "ppt"
  | .litersPerHour => "L/h"
  | .percent => "%"
  | .watts => "W"
  | .volts => "V"
  | .amperes => "A"
  | unit => unit.text

def deviceClass : QuantityKind → String
  | .temperature => "temperature"
  | .power => "power"
  | .voltage => "voltage"
  | .current => "current"
  | _ => ""

/-- `map[domain.DeviceID]string`; a missing name reads as the empty one. -/
def deviceNames (devices : List Device) : DeviceID → String :=
  let names := devices.foldl (fun t d => t.insert d.id d.name) (∅ : Table DeviceID String)
  fun id => (names.lookup id).getD ""

section Documents

variable (r : Registry) (encoder : Encoder)

def sensorEntity (names : DeviceID → String) (availability : String) (s : Sensor) :
    Except Failure Entity := do
  let resource := "sensor-"++s.id
  let (stateTopic,_) ← r.topic .sensorState resource
  .ok ⟨"sensor",resource,encoder.marshal
    { name := s.name, uniqueID := "aquaos_sensor_"++s.id
      suggestedObjectID := entityObjectID "sensor" s.id, stateTopic
      availabilityTopic := availability
      valueTemplate := "\x7b\x7b value_json.data.value.quantity.value \x7d\x7d"
      unitOfMeasurement := haUnit s.unit, deviceClass := deviceClass s.quantity
      stateClass := "measurement", device := deviceInfo s.deviceID (names s.deviceID) }⟩

def equipmentEntity (names : DeviceID → String) (availability : String) (q : Equipment) :
    Except Failure Entity := do
  let resource := "equipment-"++q.id
  let (stateTopic,_) ← r.topic .equipmentReported resource
  let (commandTopic,_) ← r.haCommand resource
  .ok ⟨"switch",resource,encoder.marshal
    { name := q.name, uniqueID := "aquaos_equipment_"++q.id
      suggestedObjectID := entityObjectID "equipment" q.id, stateTopic, commandTopic
      availabilityTopic := availability
      valueTemplate := "\x7b\x7b 'ON' if value_json.data.value.boolean else 'OFF' \x7d\x7d"
      payloadOn := "ON", payloadOff := "OFF"
      device := deviceInfo q.deviceID (names q.deviceID) }⟩

/-- The entities of the core: its status, and whether an alarm is active or notifiable. -/
def coreEntities (siteID availability : String) : List Entity :=
  let statusTopic := r.haStatus.1
  let device := deviceInfo "" "AquaOS Core"
  let alarm (name kind count : String) : Entity :=
    ⟨"binary_sensor","aquaos-"++siteID++"-"++kind,encoder.marshal
      { name, uniqueID := "aquaos_"++siteID++"_"++kind
        suggestedObjectID := entityObjectID siteID kind, stateTopic := statusTopic
        availabilityTopic := availability
        valueTemplate :=
          "\x7b\x7b 'ON' if value_json.data."++count++" > 0 else 'OFF' \x7d\x7d"
        payloadOn := "ON", payloadOff := "OFF", deviceClass := "problem", device }⟩
  [⟨"sensor","aquaos-"++siteID++"-"++"core",encoder.marshal
      { name := "AquaOS Core", uniqueID := "aquaos_"++siteID++"_core"
        suggestedObjectID := entityObjectID siteID "core", stateTopic := statusTopic
        availabilityTopic := availability
        valueTemplate := "\x7b\x7b value_json.data.status \x7d\x7d", device }⟩,
    alarm "Active alarm" "alarm" "activeAlarmCount",
    alarm "Notifiable alarm" "notification" "notificationAlarmCount"]

end Documents

/-- The equipment that commands may name, by the resource in their topics. -/
def allowedEquipment (equipment : List Equipment) : Table String EquipmentID :=
  equipment.foldl (fun t q => t.insert ("equipment-"++q.id) q.id) ∅

def Manager.entities (m : Manager) (encoder : Encoder) (inventory : Inventory) :
    Except Failure (List Entity × Table String EquipmentID) := do
  let devices ← inventory.devices
  let sensors ← inventory.sensors
  let equipment ← inventory.equipment
  let names := deviceNames devices
  let (availability,_) ← m.registry.topic .availability "core"
  let sensorItems ← sensors.mapM (sensorEntity m.registry encoder names availability)
  let equipmentItems ← equipment.mapM (equipmentEntity m.registry encoder names availability)
  .ok (sensorItems++equipmentItems++coreEntities m.registry encoder m.cfg.siteID availability,
    allowedEquipment equipment)

section Fallible

variable {A B : Type} {f : A → Except Failure B} {l : List A}

theorem mapM_cons_ok {x : A} {ys : List B} : (x::l).mapM f = .ok ys ↔
    ∃ y zs, f x = .ok y ∧ l.mapM f = .ok zs ∧ ys = y::zs := by
  rw [List.mapM_cons]
  cases hx : f x with
  | error err => simp [bind,Except.bind]
  | ok y =>
    cases hl : l.mapM f with
    | error err => simp [bind,Except.bind]
    | ok zs => simp [bind,Except.bind,pure,Except.pure,eq_comm]

theorem mapM_isOk_iff : (∃ ys, l.mapM f = .ok ys) ↔ ∀ x ∈ l, ∃ y, f x = .ok y := by
  induction l with
  | nil => simp [pure,Except.pure]
  | cons x l ih =>
    rw [List.forall_mem_cons,← ih]
    constructor
    · rintro ⟨ys,h⟩
      obtain ⟨y,zs,hx,hl,_⟩ := mapM_cons_ok.mp h
      exact ⟨⟨y,hx⟩,zs,hl⟩
    · rintro ⟨⟨y,hy⟩,⟨ys,hys⟩⟩
      exact ⟨y::ys,mapM_cons_ok.mpr ⟨y,ys,hy,hys,rfl⟩⟩

theorem mem_mapM {ys : List B} (h : l.mapM f = .ok ys) {y : B} (hy : y ∈ ys) :
    ∃ x ∈ l, f x = .ok y := by
  induction l generalizing ys with
  | nil =>
    cases h
    cases hy
  | cons x l ih =>
    obtain ⟨z,zs,hx,hl,rfl⟩ := mapM_cons_ok.mp h
    rcases List.mem_cons.mp hy with rfl | hmem
    · exact ⟨x,List.mem_cons_self,hx⟩
    · obtain ⟨w,hw,hfw⟩ := ih hl hmem
      exact ⟨w,List.mem_cons_of_mem _ hw,hfw⟩

theorem map_mapM {C : Type} {g : B → C} {k : A → C} (hf : ∀ x y, f x = .ok y → g y = k x)
    {ys : List B} (h : l.mapM f = .ok ys) : ys.map g = l.map k := by
  induction l generalizing ys with
  | nil =>
    cases h
    rfl
  | cons x l ih =>
    obtain ⟨z,zs,hx,hl,rfl⟩ := mapM_cons_ok.mp h
    rw [List.map_cons,List.map_cons,hf x z hx,ih hl]

end Fallible

section Acceptance

variable {r : Registry} {encoder : Encoder} {names : DeviceID → String} {availability id : String}
  {m : Manager} {inventory : Inventory} {es : List Entity} {allowed : Table String EquipmentID}
  {owners : Registries.Devices} {ctx : Option Failure}

/-- What `HADiscovery` asks of its arguments. -/
def Addressable (component objectID : String) : Prop :=
  haComponentPattern component = true ∧ topicSegmentPattern objectID = true

instance (component objectID : String) : Decidable (Addressable component objectID) :=
  inferInstanceAs (Decidable (_ ∧ _))

theorem haDiscovery_isOk_iff {component objectID : String} :
    (∃ t p, r.haDiscovery component objectID = .ok (t,p)) ↔ Addressable component objectID := by
  unfold Registry.haDiscovery Addressable
  split_ifs with h
  · simp only [exists_false,false_iff]
    tauto
  · simp only [Except.ok.injEq,Prod.mk.injEq]
    constructor
    · intro _
      tauto
    · intro _
      exact ⟨_,_,rfl,rfl⟩

/-- The resource of a valid ID is a segment if the ID is spelled in lower case. -/
theorem sensor_segment_iff (hid : validateID id = none) :
    topicSegmentPattern ("sensor-"++id) = true ↔ lowercase id = true :=
  id_segment_iff (by decide +kernel) (by decide) hid

theorem equipment_segment_iff (hid : validateID id = none) :
    topicSegmentPattern ("equipment-"++id) = true ↔ lowercase id = true :=
  id_segment_iff (by decide) (by decide) hid

variable {s : Sensor} {e : Entity} {q : Equipment}

theorem sensorEntity_ok (h : sensorEntity r encoder names availability s = .ok e) :
    topicSegmentPattern ("sensor-"++s.id) = true ∧ e.component = "sensor" ∧
      e.objectID = "sensor-"++s.id ∧ e.payload ≠ [] := by
  cases hseg : topicSegmentPattern ("sensor-"++s.id) with
  | false => simp [sensorEntity,topic_rejects r _ hseg,bind,Except.bind] at h
  | true =>
    obtain ⟨t,ht⟩ := topic_accepts r (.inr (.inl rfl)) hseg
    simp only [sensorEntity,ht,bind,Except.bind,Except.ok.injEq] at h
    subst h
    exact ⟨rfl,rfl,rfl,encoder.nonempty _⟩

theorem sensorEntity_isOk (h : topicSegmentPattern ("sensor-"++s.id) = true) :
    ∃ e, sensorEntity r encoder names availability s = .ok e := by
  obtain ⟨t,ht⟩ := topic_accepts r (.inr (.inl rfl)) h
  simp [sensorEntity,ht,bind,Except.bind]

theorem haCommand_accepts {equipmentID : String} (r : Registry)
    (h : topicSegmentPattern equipmentID = true) : ∃ t p, r.haCommand equipmentID = .ok (t,p) := by
  simp [Registry.haCommand,h]

theorem equipmentEntity_ok (h : equipmentEntity r encoder names availability q = .ok e) :
    topicSegmentPattern ("equipment-"++q.id) = true ∧ e.component = "switch" ∧
      e.objectID = "equipment-"++q.id ∧ e.payload ≠ [] := by
  cases hseg : topicSegmentPattern ("equipment-"++q.id) with
  | false => simp [equipmentEntity,topic_rejects r _ hseg,bind,Except.bind] at h
  | true =>
    obtain ⟨t,ht⟩ := topic_accepts r (.inr (.inr (.inl rfl))) hseg
    obtain ⟨t',p',ht'⟩ := haCommand_accepts r hseg
    simp only [equipmentEntity,ht,ht',bind,Except.bind,Except.ok.injEq] at h
    subst h
    exact ⟨rfl,rfl,rfl,encoder.nonempty _⟩

theorem equipmentEntity_isOk (h : topicSegmentPattern ("equipment-"++q.id) = true) :
    ∃ e, equipmentEntity r encoder names availability q = .ok e := by
  obtain ⟨t,ht⟩ := topic_accepts r (.inr (.inr (.inl rfl))) h
  obtain ⟨t',p',ht'⟩ := haCommand_accepts r h
  simp [equipmentEntity,ht,ht',bind,Except.bind]

/-- The object ID of an entity of the core is a segment unless its site is too long. -/
theorem core_segment_iff (r : Registry) (kind : String) (hkind : topicSegmentPattern kind = true) :
    topicSegmentPattern ("aquaos-"++r.siteID++"-"++kind) = true ↔
      (bytes r.siteID).length+(bytes kind).length ≤ 55 := by
  have hlead : topicSegmentPattern "aquaos-" = true := by decide +kernel
  have hseven : (bytes "aquaos-").length = 7 := by decide +kernel
  have hdash : bytes "-" = [hyphen] := by decide +kernel
  rw [String.append_assoc,String.append_assoc,topicSegmentPattern,identifier_append hlead,hseven,
    bytes_append,bytes_append,hdash]
  simp only [List.length_append,List.length_cons,List.length_nil,List.mem_append,
    List.mem_cons,List.not_mem_nil,or_false]
  constructor
  · rintro ⟨hlen,_⟩
    omega
  · intro hlen
    refine ⟨by omega,?_⟩
    rintro b (hb | rfl | hb)
    · exact identifier_bytes r.valid hb
    · exact .inr (.inr rfl)
    · exact identifier_bytes hkind hb

/-- The longest object ID of the core decides for all three. -/
theorem coreEntities_accepted_iff (r : Registry) (encoder : Encoder) (availability : String) :
    (∀ e ∈ coreEntities r encoder r.siteID availability, Addressable e.component e.objectID) ↔
      (bytes r.siteID).length ≤ 43 := by
  have hcore := core_segment_iff r "core" (by decide)
  have halarm := core_segment_iff r "alarm" (by decide)
  have hnotification := core_segment_iff r "notification" (by decide +kernel)
  have hlengths : (bytes "core").length = 4 ∧ (bytes "alarm").length = 5 ∧
      (bytes "notification").length = 12 := by decide
  have hcomponents : haComponentPattern "sensor" = true ∧ haComponentPattern "binary_sensor" = true :=
    by decide
  rw [hlengths.1] at hcore
  rw [hlengths.2.1] at halarm
  rw [hlengths.2.2] at hnotification
  simp only [Addressable,coreEntities,List.forall_mem_cons,hcore,halarm,hnotification,hcomponents]
  simp only [List.not_mem_nil,false_implies,implies_true,true_and,and_true]
  omega

theorem coreEntities_payload {siteID : String}
    (h : e ∈ coreEntities r encoder siteID availability) : e.payload ≠ [] := by
  simp only [coreEntities,List.mem_cons,List.not_mem_nil,or_false] at h
  rcases h with rfl | rfl | rfl
  · exact encoder.nonempty _
  · exact encoder.nonempty _
  · exact encoder.nonempty _

theorem entities_inv (h : m.entities encoder inventory = .ok (es,allowed)) :
    ∃ devices sensors equipment availability sensorItems equipmentItems,
      inventory = ⟨.ok devices,.ok sensors,.ok equipment⟩ ∧
      sensors.mapM (sensorEntity m.registry encoder (deviceNames devices) availability) =
        .ok sensorItems ∧
      equipment.mapM (equipmentEntity m.registry encoder (deviceNames devices) availability) =
        .ok equipmentItems ∧
      es = sensorItems++equipmentItems++
        coreEntities m.registry encoder m.cfg.siteID availability ∧
      allowed = allowedEquipment equipment := by
  obtain ⟨devices | devices,sensors | sensors,equipment | equipment⟩ := inventory <;>
    simp only [Manager.entities,bind,Except.bind,reduceCtorEq] at h
  obtain ⟨t,ht⟩ := topic_accepts m.registry (.inl rfl)
    (show topicSegmentPattern "core" = true by decide)
  simp only [ht] at h
  cases hs : sensors.mapM (sensorEntity m.registry encoder (deviceNames devices) t) with
  | error err => simp [hs] at h
  | ok sensorItems =>
    cases hq : equipment.mapM (equipmentEntity m.registry encoder (deviceNames devices) t) with
    | error err => simp [hs,hq] at h
    | ok equipmentItems =>
      simp only [hs,hq,Except.ok.injEq,Prod.mk.injEq] at h
      exact ⟨devices,sensors,equipment,t,sensorItems,equipmentItems,rfl,hs,hq,h.1.symm,h.2.symm⟩

theorem entities_payload (h : m.entities encoder inventory = .ok (es,allowed))
    (he : e ∈ es) : e.payload ≠ [] := by
  obtain ⟨_,_,_,_,_,_,_,hs,hq,rfl,_⟩ := entities_inv h
  rcases List.mem_append.mp he with he | he
  · rcases List.mem_append.mp he with he | he
    · obtain ⟨_,_,hx⟩ := mem_mapM hs he
      exact (sensorEntity_ok hx).2.2.2
    · obtain ⟨_,_,hx⟩ := mem_mapM hq he
      exact (equipmentEntity_ok hx).2.2.2
  · exact coreEntities_payload he

/-- Everything the documents name fits into a segment. -/
def Nameable (siteID : String) (sensors : List Sensor) (equipment : List Equipment) : Prop :=
  (bytes siteID).length ≤ 43 ∧ (∀ s ∈ sensors, lowercase s.id = true) ∧
    ∀ q ∈ equipment, lowercase q.id = true

instance (siteID : String) (sensors : List Sensor) (equipment : List Equipment) :
    Decidable (Nameable siteID sensors equipment) :=
  inferInstanceAs (Decidable (_ ∧ _ ∧ _))

/-- There are entities and each has a discovery topic. -/
def Manager.Discoverable (m : Manager) (encoder : Encoder) (inventory : Inventory) : Prop :=
  ∃ es allowed, m.entities encoder inventory = .ok (es,allowed) ∧
    ∀ e ∈ es, ∃ t p, m.registry.haDiscovery e.component e.objectID = .ok (t,p)

theorem discoverable_iff (m : Manager) (encoder : Encoder) (devices : List Device)
    {sensors : List Sensor} {equipment : List Equipment}
    (hs : ∀ s ∈ sensors, validateID s.id = none) (hq : ∀ q ∈ equipment, validateID q.id = none) :
    m.Discoverable encoder ⟨.ok devices,.ok sensors,.ok equipment⟩ ↔
      Nameable m.cfg.siteID sensors equipment := by
  unfold Manager.Discoverable Nameable
  simp only [haDiscovery_isOk_iff]
  constructor
  · rintro ⟨es,allowed,hes,haccepted⟩
    obtain ⟨_,_,_,availability,_,_,hinv,hsensors,hequipment,rfl,_⟩ := entities_inv hes
    cases hinv
    refine ⟨?_,?_,?_⟩
    · rw [← m.site] at haccepted ⊢
      exact (coreEntities_accepted_iff m.registry encoder availability).mp
        fun e he => haccepted e (List.mem_append_right _ he)
    · intro s hmem
      obtain ⟨e,he⟩ := mapM_isOk_iff.mp ⟨_,hsensors⟩ s hmem
      exact (sensor_segment_iff (hs s hmem)).mp (sensorEntity_ok he).1
    · intro q hmem
      obtain ⟨e,he⟩ := mapM_isOk_iff.mp ⟨_,hequipment⟩ q hmem
      exact (equipment_segment_iff (hq q hmem)).mp (equipmentEntity_ok he).1
  · rintro ⟨hsite,hlows,hlowq⟩
    obtain ⟨t,ht⟩ := topic_accepts m.registry (.inl rfl)
      (show topicSegmentPattern "core" = true by decide)
    have hsensors : ∃ items, sensors.mapM
        (sensorEntity m.registry encoder (deviceNames devices) t) = .ok items :=
      mapM_isOk_iff.mpr fun s hmem =>
        sensorEntity_isOk ((sensor_segment_iff (hs s hmem)).mpr (hlows s hmem))
    have hequipment : ∃ items, equipment.mapM
        (equipmentEntity m.registry encoder (deviceNames devices) t) = .ok items :=
      mapM_isOk_iff.mpr fun q hmem =>
        equipmentEntity_isOk ((equipment_segment_iff (hq q hmem)).mpr (hlowq q hmem))
    obtain ⟨sensorItems,hsensors⟩ := hsensors
    obtain ⟨equipmentItems,hequipment⟩ := hequipment
    refine ⟨sensorItems++equipmentItems++coreEntities m.registry encoder m.cfg.siteID t,
      allowedEquipment equipment,
      by simp only [Manager.entities,bind,Except.bind,ht,hsensors,hequipment],?_⟩
    intro e he
    rcases List.mem_append.mp he with he | he
    · rcases List.mem_append.mp he with he | he
      · obtain ⟨s,hmem,hx⟩ := mem_mapM hsensors he
        obtain ⟨hseg,hcomponent,hobject,_⟩ := sensorEntity_ok hx
        exact ⟨by rw [hcomponent]; decide,by rw [hobject,hseg]⟩
      · obtain ⟨q,hmem,hx⟩ := mem_mapM hequipment he
        obtain ⟨hseg,hcomponent,hobject,_⟩ := equipmentEntity_ok hx
        exact ⟨by rw [hcomponent]; decide,by rw [hobject,hseg]⟩
    · rw [← m.site] at hsite he
      exact (coreEntities_accepted_iff m.registry encoder t).mpr hsite e he

theorem validateSensor_id
    (h : Registries.validateSensor owners ctx s = none) : validateID s.id = none := by
  simp only [Registries.validateSensor,Registries.validateIdentity,Option.orElse_eq_none,
    Option.map_eq_none_iff] at h
  exact h.1.1

theorem validateEquipment_id
    (h : Registries.validateEquipment owners ctx q = none) : validateID q.id = none := by
  simp only [Registries.validateEquipment,Registries.validateIdentity,Option.orElse_eq_none,
    Option.map_eq_none_iff] at h
  exact h.1.1

end Acceptance

end HomeAssistant
end AquaOS
