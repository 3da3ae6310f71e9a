import AquaOS.ConfigValidation

/-! What a configuration that passes validation meets, section by section: the adapters with the
uniqueness of their identifiers, and the inventory with its references. -/
namespace AquaOS
namespace Configuration

open Domain EquipmentProfile Scan

variable {lib : Library} {base : String} {e : ShellyEndpoint} {index : ℕ} {seen t : AdapterSeen}
  {probes : List String}

@[simp] theorem validateUUID_eq_none {path value : String} :
    validateUUID lib path value = none ↔ Domain.validateID value = none := by
  simp [validateUUID]

theorem identifiers_valid {ids : List (String × String)}
    (h : (lib.identifiers base ids).findSome? (fun (path,value) =>
      validateUUID lib (base++"."++path) value) = none) :
    ∀ id ∈ ids, Domain.validateID id.2 = none := by
  intro id hid
  have hmem := (lib.identifiers_perm base ids).mem_iff.mpr hid
  simpa using List.findSome?_eq_none_iff.mp h id hmem

structure HeaterAccepted (e : ShellyEndpoint) : Prop where
  off : e.safeOn = false
  limited : 0 < e.maximumOn
  probes : e.requiredProbeIDs.length = 2
  valid : ∀ p ∈ e.requiredProbeIDs, Domain.validateID p = none

theorem validateHeater_accepted (h : validateHeater lib base e = none) : HeaterAccepted e := by
  simp only [validateHeater,Option.orElse_eq_none,refuse_eq_none,List.findSome?_eq_none_iff,
    validateUUID_eq_none,not_le,not_not,Bool.not_eq_true] at h
  obtain ⟨hoff,hlim,hlen,hval,_⟩ := h
  refine ⟨hoff,hlim,hlen,fun p hp => ?_⟩
  obtain ⟨n,hn⟩ := List.mem_iff_getElem?.mp hp
  exact hval (p,n) (List.mem_zipIdx_iff_getElem?.mpr hn)

structure ShellyAccepted (e : ShellyEndpoint) : Prop where
  id : Domain.validateID e.id = none
  equipmentID : Domain.validateID e.equipmentID = none
  alarmRuleID : Domain.validateID e.alarmRuleID = none
  kind : e.equipmentKind = .outlet ∨ e.equipmentKind = .heater
  heater : e.equipmentKind = .heater → HeaterAccepted e
  outlet : e.equipmentKind ≠ .heater → 0 ≤ e.maximumOn ∧ e.requiredProbeIDs = []

theorem validateShellyEndpoint_ok (h : validateShellyEndpoint lib index seen e = .ok t) :
    ShellyAccepted e ∧ e.id ∉ seen.endpoints ∧ e.equipmentID ∉ seen.equipment ∧
      t = { seen with
        endpoints := e.id::seen.endpoints, equipment := e.equipmentID::seen.equipment } := by
  unfold validateShellyEndpoint at h
  dsimp only at h
  split at h
  · cases h
  · next hchecks =>
    cases h
    simp only [Option.orElse_eq_none,refuse_eq_none] at hchecks
    obtain ⟨hids,hid,heq,_,_,_,_,_,hkind,hrest⟩ := hchecks
    have hvalid := identifiers_valid hids
    refine ⟨⟨hvalid ("id",_) (by simp),hvalid ("equipment_id",_) (by simp),
      hvalid ("alarm_rule_id",_) (by simp),by tauto,?_,?_⟩,hid,heq,rfl⟩
    · intro hheater
      rw [if_pos hheater] at hrest
      exact validateHeater_accepted hrest
    · intro hne
      rw [if_neg hne,refuse_eq_none,not_or,not_lt,not_not] at hrest
      exact ⟨hrest.1,List.length_eq_zero_iff.mp hrest.2⟩

structure ESP32Accepted (e : ESP32Endpoint) : Prop where
  id : Domain.validateID e.id = none
  deviceID : Domain.validateID e.deviceID = none
  alarmRuleID : Domain.validateID e.alarmRuleID = none
  probes : e.probeIDs.length = 2
  valid : ∀ p ∈ e.probeIDs, Domain.validateID p = none

theorem validateProbe_ok {t : List String} {p : String}
    (h : validateProbe lib base index probes p = .ok t) :
    Domain.validateID p = none ∧ p ∉ probes ∧ t = p::probes := by
  unfold validateProbe at h
  split at h
  · cases h
  · next hchecks =>
    cases h
    simpa using hchecks

theorem probes_ok {probes' ids : List String}
    (h : scan (validateProbe lib base) 0 probes ids = .ok probes') :
    (∀ p ∈ ids, Domain.validateID p = none) ∧ probes' = ids.reverse++probes ∧
      (probes.Nodup → probes'.Nodup) := by
  refine ⟨scan_forall h fun _ _ _ _ hp => (validateProbe_ok hp).1,?_,fun hnodup => ?_⟩
  · have hcol := scan_collects_map (q := id) (k := id) h
      fun _ _ _ _ hp => (validateProbe_ok hp).2.2
    simpa using hcol
  · refine scan_invariant h hnodup fun _ s p t hs hp => ?_
    obtain ⟨_,hnew,rfl⟩ := validateProbe_ok hp
    exact List.nodup_cons.mpr ⟨hnew,hs⟩

/-- A node is accepted, and only adds to what has been seen. -/
structure NodeAdded (seen t : AdapterSeen) (e : ESP32Endpoint) : Prop where
  accepted : ESP32Accepted e
  id : e.id ∉ seen.endpoints
  deviceID : e.deviceID ∉ seen.devices
  endpoints : t.endpoints = e.id::seen.endpoints
  equipment : t.equipment = seen.equipment
  devices : t.devices = e.deviceID::seen.devices
  probes : t.probes = e.probeIDs.reverse++seen.probes
  distinct : seen.probes.Nodup → t.probes.Nodup

theorem validateESP32Endpoint_ok {e : ESP32Endpoint}
    (h : validateESP32Endpoint lib index seen e = .ok t) : NodeAdded seen t e := by
  unfold validateESP32Endpoint at h
  dsimp only at h
  split at h
  · cases h
  · next hnode =>
    split at h
    · cases h
    · next probes hprobes =>
      split at h
      · cases h
      · cases h
        simp only [validateNode,Option.orElse_eq_none,refuse_eq_none,not_not] at hnode
        obtain ⟨hids,hid,hdev,_,hlen⟩ := hnode
        have hvalid := identifiers_valid hids
        obtain ⟨hval,hcol,hdist⟩ := probes_ok hprobes
        exact ⟨⟨hvalid ("id",_) (by simp),hvalid ("device_id",_) (by simp),
          hvalid ("alarm_rule_id",_) (by simp),hlen,hval⟩,hid,hdev,rfl,rfl,rfl,hcol,hdist⟩

/-- Endpoint IDs are unique over both adapters; equipment, devices and probes each over one. -/
structure AdaptersAccepted (a : Adapters) : Prop where
  shelly : ∀ e ∈ a.shelly.endpoints, ShellyAccepted e
  esp32 : ∀ e ∈ a.esp32.endpoints, ESP32Accepted e
  endpoints : (a.shelly.endpoints.map ShellyEndpoint.id++a.esp32.endpoints.map ESP32Endpoint.id).Nodup
  equipment : (a.shelly.endpoints.map ShellyEndpoint.equipmentID).Nodup
  devices : (a.esp32.endpoints.map ESP32Endpoint.deviceID).Nodup
  probes : (a.esp32.endpoints.flatMap ESP32Endpoint.probeIDs).Nodup

structure AdapterSeen.Distinct (seen : AdapterSeen) : Prop where
  endpoints : seen.endpoints.Nodup
  equipment : seen.equipment.Nodup
  devices : seen.devices.Nodup
  probes : seen.probes.Nodup

theorem shelly_distinct {index : ℕ} {seen t : AdapterSeen} {e : ShellyEndpoint}
    (hs : seen.Distinct) (h : validateShellyEndpoint lib index seen e = .ok t) : t.Distinct := by
  obtain ⟨_,hid,heq,rfl⟩ := validateShellyEndpoint_ok h
  exact ⟨List.nodup_cons.mpr ⟨hid,hs.endpoints⟩,List.nodup_cons.mpr ⟨heq,hs.equipment⟩,hs.devices,
    hs.probes⟩

theorem NodeAdded.keeps_distinct {seen t : AdapterSeen} {e : ESP32Endpoint} (h : NodeAdded seen t e)
    (hs : seen.Distinct) : t.Distinct := by
  refine ⟨?_,h.equipment ▸ hs.equipment,?_,h.distinct hs.probes⟩
  · rw [h.endpoints]
    exact List.nodup_cons.mpr ⟨h.id,hs.endpoints⟩
  · rw [h.devices]
    exact List.nodup_cons.mpr ⟨h.deviceID,hs.devices⟩

variable {seen t : InventorySeen} {c : Config} {d : Equipment} {devices : List String} {index : ℕ}

theorem validateAdapters_accepted (h : validateAdapters lib c = none) :
    AdaptersAccepted c.adapters := by
  simp only [validateAdapters,Option.orElse_eq_none] at h
  obtain ⟨_,_,_,h⟩ := h
  split at h
  · cases h
  · next seen hshelly =>
    simp only [Option.orElse_eq_none] at h
    obtain ⟨_,h⟩ := h
    split at h
    · cases h
    · next seen' hesp =>
      have hempty : ({} : AdapterSeen).Distinct := ⟨.nil,.nil,.nil,.nil⟩
      have hdist : seen'.Distinct := by
        refine scan_invariant hesp (scan_invariant hshelly hempty fun _ _ _ _ => shelly_distinct) ?_
        exact fun _ _ _ _ hs hx => (validateESP32Endpoint_ok hx).keeps_distinct hs
      have hadd {i s e s'} (hx : validateShellyEndpoint lib i s e = .ok s') :=
        (validateShellyEndpoint_ok hx).2.2.2
      have hids : seen'.endpoints = (c.adapters.shelly.endpoints.map ShellyEndpoint.id++
          c.adapters.esp32.endpoints.map ESP32Endpoint.id).reverse := by
        rw [scan_collects_map hesp fun _ _ _ _ hx => (validateESP32Endpoint_ok hx).endpoints,
          scan_collects_map hshelly fun _ _ _ _ hx => congrArg AdapterSeen.endpoints (hadd hx)]
        simp
      have hequip : seen'.equipment =
          (c.adapters.shelly.endpoints.map ShellyEndpoint.equipmentID).reverse := by
        rw [scan_keeps hesp fun _ _ _ _ hx => (validateESP32Endpoint_ok hx).equipment,
          scan_collects_map hshelly fun _ _ _ _ hx => congrArg AdapterSeen.equipment (hadd hx)]
        simp
      have hdev : seen'.devices =
          (c.adapters.esp32.endpoints.map ESP32Endpoint.deviceID).reverse := by
        rw [scan_collects_map hesp fun _ _ _ _ hx => (validateESP32Endpoint_ok hx).devices,
          scan_keeps (p := AdapterSeen.devices) hshelly fun _ _ _ _ hx => by rw [hadd hx]]
        simp
      have hprobe : seen'.probes =
          (c.adapters.esp32.endpoints.flatMap ESP32Endpoint.probeIDs).reverse := by
        rw [scan_collects hesp fun _ _ _ _ hx => (validateESP32Endpoint_ok hx).probes,
          scan_keeps (p := AdapterSeen.probes) hshelly fun _ _ _ _ hx => by rw [hadd hx]]
        simp
      refine ⟨scan_forall hshelly fun _ _ _ _ hx => (validateShellyEndpoint_ok hx).1,
        scan_forall hesp fun _ _ _ _ hx => (validateESP32Endpoint_ok hx).accepted,?_,?_,?_,?_⟩
      · exact List.nodup_reverse.mp (hids ▸ hdist.endpoints)
      · exact List.nodup_reverse.mp (hequip ▸ hdist.equipment)
      · exact List.nodup_reverse.mp (hdev ▸ hdist.devices)
      · exact List.nodup_reverse.mp (hprobe ▸ hdist.probes)

/-- What an accepted equipment definition meets, given the configured sensor IDs. -/
structure DefinitionAccepted (sensorIDs : List String) (d : Equipment) : Prop where
  kind : ∀ k ∈ d.kind, k ∈ configuredKinds
  limits : 0 ≤ d.maximumOn ∧ 0 ≤ d.maximumDaily ∧ 0 ≤ d.minimumOff
  daily : 0 < d.maximumDaily → d.maximumOn ≤ d.maximumDaily
  hazard : d.kind ∈ hazardousKinds →
    d.hazardous = true ∧ d.failSafeOn = false ∧ 0 < d.maximumOn ∧ d.requiredSensorIDs ≠ []
  sensors : ∀ id ∈ d.requiredSensorIDs, id ∈ sensorIDs
  dosing : d.kind = some .dosingPump → 0 < d.maximumDaily

theorem kind_accepted {base : String}
    (h : validateKindAndCapabilities lib base d = none) : ∀ k ∈ d.kind, k ∈ configuredKinds := by
  intro k hk
  have hk' : d.kind = some k := hk
  simp only [validateKindAndCapabilities,hk',Option.orElse_eq_none,refuse_eq_none,not_not] at h
  exact h.1

theorem validateEquipment_ok (h : validateEquipment lib devices index seen d = .ok t) :
    DefinitionAccepted seen.sensorIDs d ∧ t.sensorIDs = seen.sensorIDs := by
  unfold validateEquipment at h
  dsimp only at h
  split at h
  · cases h
  · next hchecks =>
    cases h
    simp only [Option.orElse_eq_none,refuse_eq_none,List.findSome?_eq_none_iff,not_not] at hchecks
    obtain ⟨_,_,_,_,hkind,hlim,hdaily,hhaz,hsens,hdose,_⟩ := hchecks
    refine ⟨⟨kind_accepted hkind,by omega,by omega,fun hk => ?_,hsens,fun hk => ?_⟩,rfl⟩
    · simpa [hk,not_or] using hhaz
    · simpa [hk] using hdose

structure SensorAccepted (s : Sensor) : Prop where
  entityID : s.entityID ≠ "" → Domain.validateID s.entityID = none

theorem validateSensor_ok {s : Sensor} (h : validateSensor lib devices index seen s = .ok t) :
    SensorAccepted s ∧ t.sensorIDs = s.id::seen.sensorIDs := by
  unfold validateSensor at h
  dsimp only at h
  split at h
  · cases h
  · next hchecks =>
    cases h
    simp only [Option.orElse_eq_none] at hchecks
    obtain ⟨_,_,hent,_⟩ := hchecks
    refine ⟨⟨fun hne => ?_⟩,rfl⟩
    rw [if_pos hne,validateUUID_eq_none] at hent
    exact hent

structure InventoryAccepted (i : Inventory) : Prop where
  sensors : ∀ s ∈ i.sensors, SensorAccepted s
  equipment : ∀ d ∈ i.equipment, DefinitionAccepted (i.sensors.map Sensor.id).reverse d

theorem inventory_accepted {i : Inventory} (h : i.validate lib = none) : InventoryAccepted i := by
  unfold Inventory.validate at h
  split at h
  · cases h
  · next devices hdev =>
    split at h
    · cases h
    · next seen hsens =>
      split at h
      · cases h
      · next seen' hequip =>
        have hids : seen.sensorIDs = (i.sensors.map Sensor.id).reverse := by
          rw [scan_collects_map hsens fun _ _ _ _ hx => (validateSensor_ok hx).2]
          simp
        refine ⟨scan_forall hsens fun _ _ _ _ hx => (validateSensor_ok hx).1,?_⟩
        refine (scan_invariant_forall (I := fun t => t.sensorIDs = (i.sensors.map Sensor.id).reverse)
          hequip hids fun _ _ _ _ hs hx => ?_).2
        obtain ⟨hd,hsame⟩ := validateEquipment_ok hx
        exact ⟨hsame.trans hs,hs ▸ hd⟩

theorem validate_accepted (h : c.validate lib = none) :
    AdaptersAccepted c.adapters ∧ InventoryAccepted c.inventory := by
  simp only [Config.validate,Option.orElse_eq_none] at h
  obtain ⟨_,_,_,_,_,_,_,_,hadapters,hinventory,_⟩ := h
  exact ⟨validateAdapters_accepted hadapters,inventory_accepted hinventory⟩

def benchHeater : ShellyEndpoint :=
  { id := "11111111-1111-4111-8111-111111111111"
    equipmentID := "22222222-2222-4222-8222-222222222222"
    alarmRuleID := "33333333-3333-4333-8333-333333333333"
    baseURL := "http://shelly-bench.local", pollInterval := 2*second, requestTimeout := 500000000
    retries := 1, powerReturnPolicy := .off, equipmentKind := .heater, maximumOn := 10*minute
    requiredProbeIDs := ["77777777-7777-4777-8777-777777777777",
      "88888888-8888-4888-8888-888888888888"] }

def benchNode : ESP32Endpoint :=
  { id := "44444444-4444-4444-8444-444444444444"
    deviceID := "55555555-5555-4555-8555-555555555555"
    alarmRuleID := "66666666-6666-4666-8666-666666666666"
    baseURL := "http://esp32-bench.local", bearerTokenFile := "/etc/aquaos/secrets/esp32-node.token"
    probeIDs := ["77777777-7777-4777-8777-777777777777","88888888-8888-4888-8888-888888888888"]
    pollInterval := 2*second, requestTimeout := 500000000, freshFor := 10*second
    maximumClockSkew := 2*second, maximumDifference := .finite (1/2) }

/-- The bench example with both adapters enabled. -/
def benchConfig : Config :=
  { simulator := ⟨false⟩, adapters := ⟨⟨true,[benchHeater]⟩,⟨true,[benchNode]⟩⟩
    bench := ⟨true,true⟩ }

def benchLibrary : Library where
  toLower := id
  trimSpace := id
  quote text := "\""++text++"\""
  splitHost address := if address = "localhost:8080" then some "localhost" else none
  isLoopback _ := false
  parseURL text :=
    if text = "http://shelly-bench.local" then some ⟨"http","shelly-bench.local",false,"",""⟩
    else if text = "http://esp32-bench.local" then some ⟨"http","esp32-bench.local",false,"",""⟩
    else none
  cleanPath := id
  timeouts := id
  identifiers _ := id
  timeouts_perm _ := .refl _
  identifiers_perm _ _ := .refl _

example : benchConfig.validate benchLibrary = none := by decide +kernel

end Configuration
end AquaOS
