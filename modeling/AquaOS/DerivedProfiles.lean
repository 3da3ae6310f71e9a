import AquaOS.AcceptedConfig
import AquaOS.SafetyEngine

/-! The safety profiles the application derives from the Shelly endpoints and the inventory. An
inventory definition of the same entity replaces the kind, the hazard flag and the limits of the
endpoint if it has a kind, and its probes if it names sensors; the two sections are validated
separately. -/
namespace AquaOS
namespace App

open Domain CanonicalState EquipmentProfile SafetyEngine AquaOS.Configuration

variable (c : Config)

def equipmentDefinition (id : String) : Option Equipment :=
  (Table.tabulate Equipment.entityID c.inventory.equipment).lookup id

/-- `sensorDefinitions[id].EntityID`, empty for an unknown sensor. -/
def sensorEntityID (id : String) : String :=
  (((Table.tabulate Sensor.id c.inventory.sensors).lookup id).map Sensor.entityID).getD ""

def endpointClass (e : ShellyEndpoint) : Kind × Bool × Limits :=
  if e.equipmentKind = .heater then (.heater,true,⟨e.maximumOn,0,0⟩)
  else (.outlet,false,⟨e.maximumOn,0,0⟩)

def classOf (e : ShellyEndpoint) : Kind × Bool × Limits :=
  match equipmentDefinition c e.equipmentID with
  | none => endpointClass e
  | some d =>
    match d.kind with
    | none => endpointClass e
    | some kind => (kind,d.hazardous,⟨d.maximumOn,d.maximumDaily,d.minimumOff⟩)

def requiredProbes (e : ShellyEndpoint) : List String :=
  match equipmentDefinition c e.equipmentID with
  | none => e.requiredProbeIDs
  | some d =>
    if 0 < d.requiredSensorIDs.length then d.requiredSensorIDs.map (sensorEntityID c)
    else e.requiredProbeIDs

def probeRequirement (id : String) : InputRequirement :=
  ⟨⟨.sensor,id,.observation,"measurement"⟩,none⟩

def shellyCapabilities : List Capability :=
  [.switch,.commandAcknowledgement,.reportedState,.powerTelemetry]

def profileOf (e : ShellyEndpoint) : Profile :=
  { equipmentID := e.equipmentID, kind := (classOf c e).1, hazardous := (classOf c e).2.1
    failSafeOn := e.safeOn, capabilities := shellyCapabilities, limits := (classOf c e).2.2
    requiredInputs := (requiredProbes c e).map probeRequirement }

def profiles : List Profile :=
  if c.adapters.shelly.enabled then c.adapters.shelly.endpoints.map (profileOf c) else []

/-- What a heater's definition has to declare for its profile to stay a heater's. -/
def KeepsHeater (e : ShellyEndpoint) : Prop :=
  ∀ d ∈ equipmentDefinition c e.equipmentID,
    (d.kind = none ∨ d.hazardous = true ∧ 0 < d.maximumOn) ∧
    (d.requiredSensorIDs = [] ∨
      ∀ id ∈ e.requiredProbeIDs, id ∈ d.requiredSensorIDs.map (sensorEntityID c))

instance (e : ShellyEndpoint) : Decidable (KeepsHeater c e) :=
  inferInstanceAs (Decidable (∀ d ∈ equipmentDefinition c e.equipmentID, _))

/-- The definition of an endpoint that is safe when on declares no hazardous kind, and the
sensors it names have entity IDs. -/
def Constructible (e : ShellyEndpoint) : Prop :=
  ∀ d ∈ equipmentDefinition c e.equipmentID,
    ¬ (e.safeOn = true ∧ d.kind ≠ none ∧ d.hazardous = true) ∧
    ∀ id ∈ d.requiredSensorIDs, sensorEntityID c id ≠ ""

instance (e : ShellyEndpoint) : Decidable (Constructible c e) :=
  inferInstanceAs (Decidable (∀ d ∈ equipmentDefinition c e.equipmentID, _))

variable {c} {lib : Library} {e : ShellyEndpoint} {id : String} {d : Equipment} {ids : List String}

theorem definition_mem (h : equipmentDefinition c id = some d) :
    d ∈ c.inventory.equipment := (Table.tabulate_mem h).1

theorem probeRequirement_mem :
    probeRequirement id ∈ ids.map probeRequirement ↔ id ∈ ids := by
  simp [probeRequirement]

theorem heater_class (hk : e.equipmentKind = .heater) (ha : HeaterAccepted e) :
    ((classOf c e).2.1 = true ∧ 0 < (classOf c e).2.2.maximumOn) ↔
      ∀ d ∈ equipmentDefinition c e.equipmentID,
        d.kind = none ∨ d.hazardous = true ∧ 0 < d.maximumOn := by
  unfold classOf
  cases hd : equipmentDefinition c e.equipmentID with
  | none => simp [endpointClass,hk,ha.limited]
  | some d =>
    cases hkind : d.kind with
    | none => simp [endpointClass,hk,ha.limited,hkind]
    | some kind => simp [hkind]

theorem heater_probes :
    (∀ id ∈ e.requiredProbeIDs, id ∈ requiredProbes c e) ↔
      ∀ d ∈ equipmentDefinition c e.equipmentID, d.requiredSensorIDs = [] ∨
        ∀ id ∈ e.requiredProbeIDs, id ∈ d.requiredSensorIDs.map (sensorEntityID c) := by
  unfold requiredProbes
  cases hd : equipmentDefinition c e.equipmentID with
  | none => simp
  | some d =>
    by_cases hnil : d.requiredSensorIDs = []
    · simp [hnil]
    · simp [hnil,List.length_pos_iff]

/-- The profile of an enabled heater endpoint of an accepted configuration is hazardous, fails
safe off, is limited and requires both probes, exactly if the inventory definition of the same
entity does not say otherwise. -/
theorem heater_profile_iff (h : c.validate lib = none) (hon : c.adapters.shelly.enabled = true)
    (he : e ∈ c.adapters.shelly.endpoints) (hk : e.equipmentKind = .heater) :
    profileOf c e ∈ profiles c ∧
    (((profileOf c e).hazardous = true ∧ (profileOf c e).failSafeOn = false ∧
      0 < (profileOf c e).limits.maximumOn ∧ e.requiredProbeIDs.length = 2 ∧
      ∀ id ∈ e.requiredProbeIDs, probeRequirement id ∈ (profileOf c e).requiredInputs) ↔
      KeepsHeater c e) := by
  have ha := ((validate_accepted h).1.shelly e he).heater hk
  refine ⟨by simpa [profiles,hon] using ⟨e,he,rfl⟩,?_⟩
  have hclass := heater_class (c := c) hk ha
  have hprobes := heater_probes (c := c) (e := e)
  simp only [profileOf,probeRequirement_mem,ha.off,ha.probes,KeepsHeater]
  constructor
  · rintro ⟨hhaz,_,hmax,_,hp⟩ d hd
    exact ⟨hclass.mp ⟨hhaz,hmax⟩ d hd,hprobes.mp hp d hd⟩
  · intro hkeep
    obtain ⟨hhaz,hmax⟩ := hclass.mpr fun d hd => (hkeep d hd).1
    exact ⟨hhaz,trivial,hmax,trivial,hprobes.mpr fun d hd => (hkeep d hd).2⟩

theorem bench_heater_profile :
    benchConfig.validate benchLibrary = none ∧ KeepsHeater benchConfig benchHeater ∧
      (profileOf benchConfig benchHeater).hazardous = true ∧
      (profileOf benchConfig benchHeater).failSafeOn = false ∧
      0 < (profileOf benchConfig benchHeater).limits.maximumOn ∧
      ∀ id ∈ benchHeater.requiredProbeIDs,
        probeRequirement id ∈ (profileOf benchConfig benchHeater).requiredInputs := by
  have hvalid : benchConfig.validate benchLibrary = none := by decide +kernel
  have hkeep : KeepsHeater benchConfig benchHeater := by decide +kernel
  have hmem : benchHeater ∈ benchConfig.adapters.shelly.endpoints := by simp [benchConfig]
  obtain ⟨hhaz,hoff,hmax,_,hprobes⟩ := (heater_profile_iff hvalid rfl hmem rfl).2.mpr hkeep
  exact ⟨hvalid,hkeep,hhaz,hoff,hmax,hprobes⟩

def relabelledConfig : Config :=
  { benchConfig with
    inventory :=
      { devices := [{ id := "plug" }]
        equipment := [{
          id := "lamp", entityID := benchHeater.equipmentID, deviceID := "plug"
          kind := some .outlet, capabilities := [.switch] }] } }

theorem heater_relabelled_as_outlet :
    relabelledConfig.validate benchLibrary = none ∧
      relabelledConfig.adapters.shelly.enabled = true ∧
      benchHeater ∈ relabelledConfig.adapters.shelly.endpoints ∧
      benchHeater.equipmentKind = .heater ∧
      profileOf relabelledConfig benchHeater ∈ profiles relabelledConfig ∧
      (profileOf relabelledConfig benchHeater).hazardous = false ∧
      (profileOf relabelledConfig benchHeater).limits.maximumOn = 0 := by
  decide +kernel

theorem probeRequirement_valid :
    validateRequirement (probeRequirement id) = none ↔ Domain.validateID id = none := by
  cases hv : Domain.validateID id <;> simp [validateRequirement,probeRequirement,hv]

theorem sensorEntityID_valid (hi : InventoryAccepted c.inventory) (id : String) :
    Domain.validateID (sensorEntityID c id) = none ↔ sensorEntityID c id ≠ "" := by
  unfold sensorEntityID
  cases hs : (Table.tabulate Sensor.id c.inventory.sensors).lookup id with
  | none => simp only [Option.map_none,Option.getD_none]; decide
  | some s =>
    have hsensor := hi.sensors s (Table.tabulate_mem hs).1
    refine ⟨fun hv hempty => ?_,hsensor.entityID⟩
    simp only [Option.map_some,Option.getD_some] at hv hempty
    rw [hempty] at hv
    exact absurd hv (by decide)

theorem endpoint_probes_valid (hs : ShellyAccepted e) :
    ∀ id ∈ e.requiredProbeIDs, Domain.validateID id = none := by
  rcases hs.kind with hk | hk
  · simp [(hs.outlet (by simp [hk])).2]
  · exact (hs.heater hk).valid

theorem requiredProbes_valid (hs : ShellyAccepted e) (hi : InventoryAccepted c.inventory) :
    (∀ id ∈ requiredProbes c e, Domain.validateID id = none) ↔
      ∀ d ∈ equipmentDefinition c e.equipmentID,
        ∀ id ∈ d.requiredSensorIDs, sensorEntityID c id ≠ "" := by
  have hown := endpoint_probes_valid hs
  unfold requiredProbes
  cases hd : equipmentDefinition c e.equipmentID with
  | none => simpa using hown
  | some d =>
    by_cases hnil : d.requiredSensorIDs = []
    · simpa [hnil] using hown
    · simp [hnil,List.length_pos_iff,sensorEntityID_valid hi]

/-- What the class of an endpoint meets whatever section it comes from. -/
structure ClassAccepted (c : Config) (e : ShellyEndpoint) : Prop where
  kind : validateKind (profileOf c e) = none
  limits : 0 ≤ (classOf c e).2.2.maximumOn ∧ 0 ≤ (classOf c e).2.2.maximumDailyOn ∧
    0 ≤ (classOf c e).2.2.minimumOff
  daily : 0 < (classOf c e).2.2.maximumDailyOn →
    (classOf c e).2.2.maximumOn ≤ (classOf c e).2.2.maximumDailyOn
  dosing : (classOf c e).1 = .dosingPump → 0 < (classOf c e).2.2.maximumDailyOn

theorem heater_requires_probe (ha : HeaterAccepted e) : requiredProbes c e ≠ [] := by
  have hprobes : e.requiredProbeIDs ≠ [] := by
    intro hnil
    have hlen := ha.probes
    simp [hnil] at hlen
  unfold requiredProbes
  split
  · exact hprobes
  · split_ifs with hlen
    · simpa [List.length_pos_iff] using hlen
    · exact hprobes

theorem classAccepted_of_endpoint (hs : ShellyAccepted e) (hclass : classOf c e = endpointClass e) :
    ClassAccepted c e := by
  by_cases hk : e.equipmentKind = .heater
  · have ha := hs.heater hk
    have hlim := ha.limited
    have hp := heater_requires_probe (c := c) ha
    refine ⟨?_,?_,?_,?_⟩
    · simp [validateKind,profileOf,hclass,endpointClass,hk,hp,hlim]
    all_goals simp [hclass,endpointClass,hk,hlim.le]
  · have hmax := (hs.outlet hk).1
    refine ⟨?_,?_,?_,?_⟩
    · simp [validateKind,profileOf,hclass,endpointClass,hk]
    all_goals simp [hclass,endpointClass,hk,hmax]

theorem classAccepted_of_definition {kind : Kind}
    (hd : equipmentDefinition c e.equipmentID = some d) (hk : d.kind = some kind)
    (ha : DefinitionAccepted ids d) : ClassAccepted c e := by
  have hclass : classOf c e = (kind,d.hazardous,⟨d.maximumOn,d.maximumDaily,d.minimumOff⟩) := by
    simp [classOf,hd,hk]
  refine ⟨?_,?_,?_,?_⟩
  · have hkind := ha.kind kind hk
    have hhaz := ha.hazard
    by_cases hh : d.kind ∈ hazardousKinds
    · obtain ⟨h1,_,h3,h4⟩ := hhaz hh
      have hp : requiredProbes c e ≠ [] := by
        simp [requiredProbes,hd,List.length_pos_iff,h4]
      cases kind <;> simp_all [validateKind,profileOf,configuredKinds]
    · cases kind <;> simp_all [validateKind,profileOf,configuredKinds,hazardousKinds]
  · simpa [hclass] using ha.limits
  · simpa [hclass] using ha.daily
  · rw [hclass]
    rintro rfl
    exact ha.dosing hk

theorem classAccepted (hs : ShellyAccepted e) (hi : InventoryAccepted c.inventory) :
    ClassAccepted c e := by
  cases hd : equipmentDefinition c e.equipmentID with
  | none => exact classAccepted_of_endpoint hs (by simp [classOf,hd])
  | some d =>
    cases hk : d.kind with
    | none => exact classAccepted_of_endpoint hs (by simp [classOf,hd,hk])
    | some kind => exact classAccepted_of_definition hd hk (hi.equipment d (definition_mem hd))

theorem failSafe_iff (hs : ShellyAccepted e) : (e.safeOn = true → (classOf c e).2.1 = false) ↔
      ∀ d ∈ equipmentDefinition c e.equipmentID,
        ¬ (e.safeOn = true ∧ d.kind ≠ none ∧ d.hazardous = true) := by
  have hown : e.safeOn = true → (endpointClass e).2.1 = false := by
    intro hsafe
    have hk : e.equipmentKind ≠ .heater := by
      intro hk
      have hoff := (hs.heater hk).off
      simp [hsafe] at hoff
    simp [endpointClass,hk]
  unfold classOf
  cases hd : equipmentDefinition c e.equipmentID with
  | none => simpa using hown
  | some d =>
    cases hk : d.kind with
    | none => simpa [hk] using hown
    | some kind => simp [hk]

theorem shellyCapabilities_valid : validateCapabilities shellyCapabilities = none ∧
    supportsAll shellyCapabilities controlCapabilities = true := by decide

theorem profile_validates_iff (hs : ShellyAccepted e) (hi : InventoryAccepted c.inventory) :
    (profileOf c e).validate = none ↔ Constructible c e := by
  have hclass := classAccepted hs hi
  have hsafe := failSafe_iff (c := c) hs
  have hprobes := requiredProbes_valid (c := c) hs hi
  have hinputs : (∀ r ∈ (profileOf c e).requiredInputs, validateRequirement r = none) ↔
      ∀ id ∈ requiredProbes c e, Domain.validateID id = none := by
    simp [profileOf,probeRequirement_valid]
  rw [validate_eq_none_iff]
  constructor
  · intro h d hd
    exact ⟨hsafe.mp h.safe d hd,hprobes.mp (hinputs.mp h.inputs) d hd⟩
  · intro h
    obtain ⟨hcaps,hcontrol⟩ := shellyCapabilities_valid
    refine ⟨hs.equipmentID,hcaps,hcontrol,hclass.kind,hclass.limits,hclass.daily,?_,
      hclass.dosing,?_⟩
    · exact hsafe.mpr fun d hd => (h d hd).1
    · exact hinputs.mpr (hprobes.mpr fun d hd => (h d hd).2)

/-- The profiles of an accepted configuration with the Shelly adapter enabled all validate, have
distinct equipment IDs and give a safety engine, exactly if every endpoint agrees with the
inventory definition of its entity. -/
theorem safety_engine_constructible_iff (h : c.validate lib = none)
    (hon : c.adapters.shelly.enabled = true) :
    ((∀ p ∈ profiles c, p.validate = none) ∧ ((profiles c).map Profile.equipmentID).Nodup ∧
      ∃ engine, newEngine (profiles c) = .ok engine) ↔
      ∀ e ∈ c.adapters.shelly.endpoints, Constructible c e := by
  obtain ⟨ha,hi⟩ := validate_accepted h
  have hids : ((profiles c).map Profile.equipmentID).Nodup := by
    have heq : (profiles c).map Profile.equipmentID =
        c.adapters.shelly.endpoints.map ShellyEndpoint.equipmentID := by
      simp [profiles,hon,profileOf]
    exact heq ▸ ha.equipment
  have hvalid : (∀ p ∈ profiles c, p.validate = none) ↔
      ∀ e ∈ c.adapters.shelly.endpoints, Constructible c e := by
    simp only [profiles,hon,if_true,List.forall_mem_map]
    exact forall₂_congr fun e he => profile_validates_iff (ha.shelly e he) hi
  rw [newEngine_ok_iff,← hvalid]
  tauto

theorem bench_engine_constructible :
    benchConfig.validate benchLibrary = none ∧
      ∃ engine, newEngine (profiles benchConfig) = .ok engine := by
  have hvalid : benchConfig.validate benchLibrary = none := by decide +kernel
  have hall : ∀ e ∈ benchConfig.adapters.shelly.endpoints, Constructible benchConfig e := by
    decide +kernel
  exact ⟨hvalid,((safety_engine_constructible_iff hvalid rfl).mpr hall).2.2⟩

def unboundSensorConfig : Config :=
  { benchConfig with
    inventory :=
      { devices := [{ id := "plug" }]
        sensors := [{ id := "tank-probe", deviceID := "plug", unit := .celsius }]
        equipment := [{
          id := "heater", entityID := benchHeater.equipmentID, deviceID := "plug"
          kind := some .heater, capabilities := [.switch], hazardous := true, maximumOn := 10*minute
          requiredSensorIDs := ["tank-probe"] }] } }

theorem unbound_sensor_refuses_engine :
    unboundSensorConfig.validate benchLibrary = none ∧
      unboundSensorConfig.adapters.shelly.enabled = true ∧
      newEngine (profiles unboundSensorConfig) =
        .error (.wrapped "profile" (.message "safety input entity ID is invalid")) := by
  refine ⟨by decide +kernel,rfl,?_⟩
  have hinvalid : (profileOf unboundSensorConfig benchHeater).validate =
      some (.message "safety input entity ID is invalid") := by decide +kernel
  have hprofiles : profiles unboundSensorConfig = [profileOf unboundSensorConfig benchHeater] := rfl
  rw [hprofiles]
  simp [newEngine,Engine.addProfiles,hinvalid]

end App
end AquaOS
