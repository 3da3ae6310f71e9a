import AquaOS.Registries
import AquaOS.Transition

/-! Ownership across the three registries. Calls of all of them interleave at their lock sections:
an entity is checked against the endpoints as they were when it was looked up and stored later. It
stays valid in between because endpoints are never changed or removed, and devices keep what their
endpoints need. -/
namespace AquaOS
namespace Registries

open Domain Transition

inductive Call
  | registerDevice (d : Device)
  | updateDevice (d : Device)
  | removeDevice (id : DeviceID)
  | registerEndpoint (e : Endpoint)
  | registerSensor (s : Sensor)
  | updateSensor (s : Sensor)
  | removeSensor (id : SensorID)
  | registerEquipment (q : Equipment)
  | updateEquipment (q : Equipment)
  | removeEquipment (id : EquipmentID)

structure Registers where
  devices : Devices := {}
  sensors : Sensors := ∅
  equipment : EquipmentTable := ∅

/-- A removal has only its context to look at. -/
def unlessCancelled {A : Type} (a : Answer) (x : A) : Except Failure A :=
  match a.ctx with
  | some err => .error err
  | none => .ok x

/-- A call up to its lock section; `lookup` is the context as the ownership lookup finds it. -/
def Call.prepare (owners : Devices) (a : Answer) (lookup : Option Failure) :
    Call → Except Failure Call
  | registerDevice d => (Registries.prepare Device.id (fun d id => { d with id := id })
      validateDevice a d).map registerDevice
  | updateDevice d => (admitted validateDevice a d).map updateDevice
  | removeDevice id => unlessCancelled a (removeDevice id)
  | registerEndpoint e => (Registries.prepare Endpoint.id (fun e id => { e with id := id })
      validateEndpoint a e).map registerEndpoint
  | registerSensor s => (Registries.prepare Sensor.id (fun s id => { s with id := id })
      (validateSensor owners lookup) a s).map registerSensor
  | updateSensor s => (admitted (validateSensor owners lookup) a s).map updateSensor
  | removeSensor id => unlessCancelled a (removeSensor id)
  | registerEquipment q => (Registries.prepare Equipment.id (fun q id => { q with id := id })
      (validateEquipment owners lookup) a q).map registerEquipment
  | updateEquipment q => (admitted (validateEquipment owners lookup) a q).map updateEquipment
  | removeEquipment id => unlessCancelled a (removeEquipment id)

/-- The lock section of a prepared call. -/
def Registers.lock (s : Registers) : Call → Registers
  | .registerDevice d => { s with devices := { s.devices with
      devices := (store Device.id registryExists {} s.devices.devices d).registry } }
  | .updateDevice d => { s with devices := (s.devices.replaceDevice d).toOption.getD s.devices }
  | .removeDevice id => { s with devices := (s.devices.deleteDevice id).toOption.getD s.devices }
  | .registerEndpoint e => { s with devices := (s.devices.storeEndpoint e).registry }
  | .registerSensor x => { s with sensors := (store Sensor.id sensorExists {} s.sensors x).registry }
  | .updateSensor x =>
    { s with sensors := (replace Sensor.id sensorNotFound s.sensors x).toOption.getD s.sensors }
  | .removeSensor id => { s with sensors := (delete sensorNotFound s.sensors id).toOption.getD s.sensors }
  | .registerEquipment q =>
    { s with equipment := (store Equipment.id equipmentExists {} s.equipment q).registry }
  | .updateEquipment q => { s with equipment :=
      (replace Equipment.id equipmentNotFound s.equipment q).toOption.getD s.equipment }
  | .removeEquipment id =>
    { s with equipment := (delete equipmentNotFound s.equipment id).toOption.getD s.equipment }

/-- A whole call that no other interrupts. -/
def Registers.call (s : Registers) (a : Answer) : Call → Registers
  | .registerDevice d => { s with devices := (s.devices.register a d).registry }
  | .updateDevice d => { s with devices := (s.devices.update a d).2 }
  | .removeDevice id => { s with devices := (s.devices.remove a id).2 }
  | .registerEndpoint e => { s with devices := (s.devices.registerEndpoint a e).registry }
  | .registerSensor x => { s with sensors := (s.sensors.register s.devices a x).registry }
  | .updateSensor x => { s with sensors := (s.sensors.update s.devices a x).2 }
  | .removeSensor id => { s with sensors := (s.sensors.remove a id).2 }
  | .registerEquipment q => { s with equipment := (s.equipment.register s.devices a q).registry }
  | .updateEquipment q => { s with equipment := (s.equipment.update s.devices a q).2 }
  | .removeEquipment id => { s with equipment := (s.equipment.remove a id).2 }

/-- The registries and the calls between their preparation and their lock section. -/
structure System where
  registers : Registers := {}
  calls : ℕ → Option Call := fun _ => none

inductive Step
  | enter (i : ℕ) (a : Answer) (lookup : Option Failure) (c : Call)
  | lock (i : ℕ)

def System.step (s : System) : Step → System
  | .enter i a lookup c =>
    match s.calls i, c.prepare s.registers.devices a lookup with
    | none, .ok c' => { s with calls := Function.update s.calls i (some c') }
    | _, _ => s
  | .lock i =>
    match s.calls i with
    | none => s
    | some c => ⟨s.registers.lock c,Function.update s.calls i none⟩

section Whole

variable {V : Type} {id : V → String} {withID : V → String → V} {validate : V → Option Failure}

theorem store_registry (taken : Failure) (a a' : Answer) (t : Table String V) (v : V) :
    (store id taken a t v).registry = (store id taken a' t v).registry := by
  unfold store
  split_ifs <;> rfl

theorem concluded_registry {R : Type} (emitted : Option Failure) (r : R) (result : Except Failure R) :
    (concluded emitted r result).2 = result.toOption.getD r := by
  cases result <;> rfl

/-- Without interruption, a call is its preparation and its lock section. -/
theorem call_eq_prepare_lock (s : Registers) (a : Answer) (c : Call) :
    s.call a c = match c.prepare s.devices a a.ctx with
      | .error _ => s
      | .ok c' => s.lock c' := by
  cases c with
  | registerDevice v | registerSensor v | registerEquipment v =>
    simp only [Registers.call,Call.prepare,Devices.register,Sensors.register,
      EquipmentTable.register,Registries.register,Outcome.within]
    generalize Registries.prepare _ _ _ a v = prepared
    cases prepared with
    | error err => rfl
    | ok v => simp only [Except.map,Registers.lock,store_registry _ a {}]
  | updateDevice v | updateSensor v | updateEquipment v =>
    simp only [Registers.call,Call.prepare,Devices.update,Sensors.update,EquipmentTable.update,
      Registries.update]
    generalize admitted _ a v = prepared
    cases prepared with
    | error err => rfl
    | ok v => simp only [Except.map,Registers.lock,concluded_registry]
  | removeDevice id | removeSensor id | removeEquipment id =>
    simp only [Registers.call,Call.prepare,Devices.remove,Sensors.remove,EquipmentTable.remove,
      Registries.remove,unlessCancelled]
    cases a.ctx with
    | some err => rfl
    | none => simp only [Registers.lock,concluded_registry]
  | registerEndpoint e =>
    simp only [Registers.call,Call.prepare,Devices.registerEndpoint]
    cases Registries.prepare Endpoint.id (fun e id => { e with id := id }) validateEndpoint a e with
    | error err => rfl
    | ok e => rfl

/-- A call that enters and locks with nothing in between is the whole call. -/
theorem enter_lock_eq_call {s : System} {i : ℕ} (hidle : s.calls i = none) (a : Answer) (c : Call) :
    (s.step (.enter i a a.ctx c)).step (.lock i) = ⟨s.registers.call a c,s.calls⟩ := by
  rw [call_eq_prepare_lock]
  unfold System.step
  dsimp only
  cases c.prepare s.registers.devices a a.ctx with
  | error err => simp [hidle]
  | ok c' =>
    have hcalls : Function.update s.calls i none = s.calls := by
      rw [← hidle,Function.update_eq_self]
    simp [hidle,hcalls]

def shelfDevice (id : DeviceID) : Device := { id, name := "Shelf", capabilities := [.observe] }

example :
    let d := shelfDevice "11111111-1111-4111-8111-111111111111"
    let s := (({} : System).step (.enter 0 {} none (.registerDevice d))).step (.lock 0)
    s = ⟨({} : Registers).call {} (.registerDevice d),fun _ => none⟩ ∧
      d.id ∈ s.registers.devices.devices :=
  ⟨enter_lock_eq_call rfl {} _,by decide⟩

end Whole

/-- The device of an endpoint exists and has its capabilities. -/
def Devices.Covered (r : Devices) : Prop :=
  ∀ id e, r.endpoints.lookup id = some e →
    ∃ d, r.devices.lookup e.deviceID = some d ∧ supportsAll d.capabilities e.capabilities = true

/-- The endpoint exists, belongs to the device and has the capabilities. -/
def Devices.Owns (r : Devices) (deviceID : DeviceID) (endpointID : EndpointID)
    (capabilities : List Capability) : Prop :=
  ∃ e, r.endpoints.lookup endpointID = some e ∧ e.deviceID = deviceID ∧
    supportsAll e.capabilities capabilities = true

def Devices.Keeps (r r' : Devices) : Prop :=
  ∀ id e, r.endpoints.lookup id = some e → r'.endpoints.lookup id = some e

def Call.Checked (r : Devices) : Call → Prop
  | .registerSensor s | .updateSensor s => r.Owns s.deviceID s.endpointID s.capabilities
  | .registerEquipment q | .updateEquipment q => r.Owns q.deviceID q.endpointID q.capabilities
  | _ => True

structure System.Consistent (s : System) : Prop where
  covered : s.registers.devices.Covered
  sensors : ∀ id x, s.registers.sensors.lookup id = some x →
    s.registers.devices.Owns x.deviceID x.endpointID x.capabilities
  equipment : ∀ id q, s.registers.equipment.lookup id = some q →
    s.registers.devices.Owns q.deviceID q.endpointID q.capabilities
  calls : ∀ i c, s.calls i = some c → c.Checked s.registers.devices

section Devices

variable {r r' : Devices}

theorem Devices.Owns.mono {deviceID : DeviceID} {endpointID : EndpointID}
    {capabilities : List Capability} (h : r.Owns deviceID endpointID capabilities)
    (hk : r.Keeps r') : r'.Owns deviceID endpointID capabilities := by
  obtain ⟨e,he,hdevice,hcaps⟩ := h
  exact ⟨e,hk _ _ he,hdevice,hcaps⟩

theorem Call.Checked.mono {c : Call} (h : c.Checked r) (hk : r.Keeps r') : c.Checked r' := by
  cases c with
  | registerSensor s | updateSensor s | registerEquipment q
  | updateEquipment q => exact Devices.Owns.mono h hk
  | _ => trivial

/-- Devices may change as long as those of endpoints keep their capabilities. -/
theorem Devices.Covered.devices_changed {devices : Table DeviceID Device} (h : r.Covered)
    (hd : ∀ id e d, r.endpoints.lookup id = some e → r.devices.lookup e.deviceID = some d →
      supportsAll d.capabilities e.capabilities = true →
      ∃ d', devices.lookup e.deviceID = some d' ∧
        supportsAll d'.capabilities e.capabilities = true) :
    ({ r with devices := devices } : Devices).Covered := by
  intro id e he
  obtain ⟨d,hlookup,hcaps⟩ := h id e he
  exact hd id e d he hlookup hcaps

theorem storeDevice_covered (h : r.Covered) (d : Device) :
    ({ r with devices := (store Device.id registryExists {} r.devices d).registry } :
      Devices).Covered := by
  refine h.devices_changed fun id e d' he hd' hcaps => ?_
  unfold store
  split_ifs with hmem
  · exact ⟨d',hd',hcaps⟩
  · exact ⟨d',Table.lookup_insert_new hmem hd',hcaps⟩

theorem replaceDevice_covered (h : r.Covered) {d : Device} (hr : r.replaceDevice d = .ok r') :
    r'.Covered ∧ r.Keeps r' := by
  unfold Devices.replaceDevice at hr
  split_ifs at hr with hmem horphan
  cases hr
  refine ⟨h.devices_changed fun id e d' he hd' hcaps => ?_,fun id e he => he⟩
  rw [Table.lookup_insert_ite]
  split_ifs with heq
  · refine ⟨d,rfl,?_⟩
    by_contra hmissing
    refine horphan (List.any_eq_true.mpr ⟨e,Table.mem_values.mpr ⟨id,he⟩,?_⟩)
    simp [heq,Bool.eq_false_of_not_eq_true hmissing]
  · exact ⟨d',hd',hcaps⟩

theorem deleteDevice_covered (h : r.Covered) {id : DeviceID} (hr : r.deleteDevice id = .ok r') :
    r'.Covered ∧ r.Keeps r' := by
  unfold Devices.deleteDevice at hr
  split_ifs at hr with hmem howned
  cases hr
  refine ⟨h.devices_changed fun id' e d he hd hcaps => ⟨d,?_,hcaps⟩,fun id e he => he⟩
  have hne : e.deviceID ≠ id := by
    intro heq
    refine howned (List.any_eq_true.mpr ⟨e,Table.mem_values.mpr ⟨id',he⟩,?_⟩)
    simp [heq]
  rw [AList.lookup_erase_ne hne]
  exact hd

theorem storeEndpoint_covered (h : r.Covered) (e : Endpoint) :
    (r.storeEndpoint e).registry.Covered ∧ r.Keeps (r.storeEndpoint e).registry := by
  unfold Devices.storeEndpoint
  split
  · exact ⟨h,fun _ _ he => he⟩
  · next d hd =>
    split_ifs with hmem hcaps
    · exact ⟨h,fun _ _ he => he⟩
    · exact ⟨Table.forall_insert ⟨d,hd,hcaps⟩ h,fun _ _ he => Table.lookup_insert_new hmem he⟩
    · exact ⟨h,fun _ _ he => he⟩

end Devices

section Entities

variable {V : Type} {id : V → String} {P : V → Prop} {t : Table String V} {v v' : V}
  {validate : V → Option Failure} {a : Answer}

/-- What a lock section stores in a table of entities it has checked. -/
theorem store_entries (taken : Failure) (a : Answer) (hv : P v)
    (h : ∀ k v, t.lookup k = some v → P v) :
    ∀ k x, (store id taken a t v).registry.lookup k = some x → P x := by
  unfold store
  split_ifs
  · exact h
  · exact Table.forall_insert (P := fun _ => P) hv h

theorem replace_entries (missing : Failure) (hv : P v) (h : ∀ k v, t.lookup k = some v → P v) :
    ∀ k x, ((replace id missing t v).toOption.getD t).lookup k = some x → P x := by
  unfold replace
  split_ifs
  · exact Table.forall_insert (P := fun _ => P) hv h
  · exact h

theorem delete_entries {key : String} (missing : Failure) (h : ∀ k v, t.lookup k = some v → P v) :
    ∀ k x, ((delete missing t key).toOption.getD t).lookup k = some x → P x := by
  unfold delete
  split_ifs
  · intro k x hx
    by_cases hk : k = key
    · subst hk
      simp [Except.toOption] at hx
    · exact h k x (by simpa [Except.toOption,AList.lookup_erase_ne hk] using hx)
  · exact h

theorem prepare_valid {withID : V → String → V}
    (h : prepare id withID validate a v = .ok v') : validate v' = none := by
  unfold prepare at h
  split at h
  · cases h
  · split at h
    · cases h
    · next w _ =>
      split at h
      · cases h
      · next hvalid =>
        cases h
        exact hvalid

theorem admitted_valid (h : admitted validate a v = .ok v') : validate v' = none := by
  unfold admitted at h
  split at h
  · cases h
  · cases h
  · next hvalid =>
    cases h
    exact hvalid

end Entities

section Validation

variable {owners : Devices} {ctx : Option Failure}

theorem validateOwner_owns {noun : String} {deviceID : DeviceID} {endpointID : EndpointID}
    {capabilities : List Capability}
    (h : validateOwner noun owners ctx deviceID endpointID capabilities = none) :
    owners.Owns deviceID endpointID capabilities := by
  unfold validateOwner at h
  split at h
  · cases h
  · next e he =>
    split_ifs at h with hdevice hcaps
    refine ⟨e,?_,not_not.mp hdevice,by simpa using hcaps⟩
    unfold Devices.endpoint at he
    split at he
    · cases he
    · cases he
    · next e' hlookup =>
      cases he
      exact hlookup

theorem validateSensor_owns {s : Sensor} (h : validateSensor owners ctx s = none) :
    owners.Owns s.deviceID s.endpointID s.capabilities := by
  simp only [validateSensor,Option.orElse_eq_none] at h
  exact validateOwner_owns h.2.2.2

theorem validateEquipment_owns {q : Equipment} (h : validateEquipment owners ctx q = none) :
    owners.Owns q.deviceID q.endpointID q.capabilities := by
  simp only [validateEquipment,Option.orElse_eq_none] at h
  exact validateOwner_owns h.2.2

theorem map_ok {A B : Type} {f : A → B} {x : Except Failure A} {b : B} (h : x.map f = .ok b) :
    ∃ a, x = .ok a ∧ b = f a := by
  cases x with
  | error err => cases h
  | ok a =>
    cases h
    exact ⟨a,rfl,rfl⟩

theorem prepare_checked {a : Answer} {c c' : Call} (h : c.prepare owners a ctx = .ok c') :
    c'.Checked owners := by
  cases c with
  | registerDevice d | updateDevice d => obtain ⟨d',_,rfl⟩ := map_ok h; trivial
  | registerEndpoint e => obtain ⟨e',_,rfl⟩ := map_ok h; trivial
  | registerSensor s =>
    obtain ⟨s',hs,rfl⟩ := map_ok h
    exact validateSensor_owns (prepare_valid hs)
  | updateSensor s =>
    obtain ⟨s',hs,rfl⟩ := map_ok h
    exact validateSensor_owns (admitted_valid hs)
  | registerEquipment q =>
    obtain ⟨q',hq,rfl⟩ := map_ok h
    exact validateEquipment_owns (prepare_valid hq)
  | updateEquipment q =>
    obtain ⟨q',hq,rfl⟩ := map_ok h
    exact validateEquipment_owns (admitted_valid hq)
  | removeDevice id | removeSensor id | removeEquipment id =>
    simp only [Call.prepare,unlessCancelled] at h
    split at h <;> cases h
    trivial

end Validation

section Steps

variable {s : System} {c : Call}

theorem lock_keeps (h : s.registers.devices.Covered) (c : Call) :
    (s.registers.lock c).devices.Covered ∧ s.registers.devices.Keeps (s.registers.lock c).devices := by
  have hsame : s.registers.devices.Covered ∧ s.registers.devices.Keeps s.registers.devices :=
    ⟨h,fun _ _ he => he⟩
  cases c with
  | registerDevice d => exact ⟨storeDevice_covered h d,fun _ _ he => he⟩
  | updateDevice d =>
    simp only [Registers.lock]
    cases hr : s.registers.devices.replaceDevice d with
    | error err => exact hsame
    | ok r' => exact replaceDevice_covered h hr
  | removeDevice id =>
    simp only [Registers.lock]
    cases hr : s.registers.devices.deleteDevice id with
    | error err => exact hsame
    | ok r' => exact deleteDevice_covered h hr
  | registerEndpoint e => exact storeEndpoint_covered h e
  | _ => exact hsame

theorem lock_sensors (h : s.Consistent) (hc : c.Checked s.registers.devices) :
    ∀ id x, (s.registers.lock c).sensors.lookup id = some x →
      s.registers.devices.Owns x.deviceID x.endpointID x.capabilities := by
  cases c with
  | registerSensor x => exact store_entries sensorExists {} hc h.sensors
  | updateSensor x => exact replace_entries sensorNotFound hc h.sensors
  | removeSensor id => exact delete_entries sensorNotFound h.sensors
  | _ => exact h.sensors

theorem lock_equipment (h : s.Consistent) (hc : c.Checked s.registers.devices) :
    ∀ id q, (s.registers.lock c).equipment.lookup id = some q →
      s.registers.devices.Owns q.deviceID q.endpointID q.capabilities := by
  cases c with
  | registerEquipment q => exact store_entries equipmentExists {} hc h.equipment
  | updateEquipment q => exact replace_entries equipmentNotFound hc h.equipment
  | removeEquipment id => exact delete_entries equipmentNotFound h.equipment
  | _ => exact h.equipment

theorem step_consistent (h : s.Consistent) (l : Step) : (s.step l).Consistent := by
  cases l with
  | enter i a lookup c =>
    unfold System.step
    dsimp only
    split
    · next c' _ hprepared =>
      refine ⟨h.covered,h.sensors,h.equipment,?_⟩
      intro j call hj
      rcases update_cases hj with ⟨_,hcall⟩ | hcall
      · cases hcall
        exact prepare_checked hprepared
      · exact h.calls j call hcall
    · exact h
  | lock i =>
    unfold System.step
    dsimp only
    split
    · exact h
    · next c hcall =>
      have hchecked := h.calls i c hcall
      obtain ⟨hcovered,hkeeps⟩ := lock_keeps h.covered c
      refine ⟨hcovered,fun id x hx => (lock_sensors h hchecked id x hx).mono hkeeps,
        fun id q hq => (lock_equipment h hchecked id q hq).mono hkeeps,?_⟩
      intro j call hj
      rcases update_cases hj with ⟨_,hcall⟩ | hcall
      · cases hcall
      · exact (h.calls j call hcall).mono hkeeps

theorem initial_consistent : ({} : System).Consistent := by
  refine ⟨?_,?_,?_,?_⟩
  · intro id e he
    simp at he
  · intro id x hx
    simp at hx
  · intro id q hq
    simp at hq
  · intro i c hc
    cases hc

end Steps

theorem supportsAll_iff {available required : List Capability} :
    supportsAll available required = true ↔ required ⊆ available := by
  simp [supportsAll,List.subset_def]

theorem Devices.Owns.device {r : Devices} {deviceID : DeviceID} {endpointID : EndpointID}
    {capabilities : List Capability} (h : r.Owns deviceID endpointID capabilities)
    (hr : r.Covered) : ∃ d, r.devices.lookup deviceID = some d ∧ capabilities ⊆ d.capabilities := by
  obtain ⟨e,he,rfl,hcaps⟩ := h
  obtain ⟨d,hd,hcover⟩ := hr endpointID e he
  exact ⟨d,hd,List.Subset.trans (supportsAll_iff.mp hcaps) (supportsAll_iff.mp hcover)⟩

/-- However the calls interleave, the device of every endpoint exists with its capabilities, and
every sensor and every piece of equipment has an endpoint of its device with its capabilities, so
that its device has them too. -/
theorem ownership_always (steps : List Step) : let s := (run System.step {} steps).registers
    (∀ id e, s.devices.endpoints.lookup id = some e →
      ∃ d, s.devices.devices.lookup e.deviceID = some d ∧ e.capabilities ⊆ d.capabilities) ∧
    (∀ id x, s.sensors.lookup id = some x →
      (∃ e, s.devices.endpoints.lookup x.endpointID = some e ∧ e.deviceID = x.deviceID ∧
        x.capabilities ⊆ e.capabilities) ∧
      ∃ d, s.devices.devices.lookup x.deviceID = some d ∧ x.capabilities ⊆ d.capabilities) ∧
    (∀ id q, s.equipment.lookup id = some q →
      (∃ e, s.devices.endpoints.lookup q.endpointID = some e ∧ e.deviceID = q.deviceID ∧
        q.capabilities ⊆ e.capabilities) ∧
      ∃ d, s.devices.devices.lookup q.deviceID = some d ∧ q.capabilities ⊆ d.capabilities) := by
  have h := invariant_always (I := System.Consistent) (fun _ l hs => step_consistent hs l)
    initial_consistent steps
  have howned : ∀ {deviceID endpointID capabilities},
      (run System.step {} steps).registers.devices.Owns deviceID endpointID capabilities →
      ∃ e, (run System.step {} steps).registers.devices.endpoints.lookup endpointID = some e ∧
        e.deviceID = deviceID ∧ capabilities ⊆ e.capabilities := by
    rintro deviceID endpointID capabilities ⟨e,he,hdevice,hcaps⟩
    exact ⟨e,he,hdevice,supportsAll_iff.mp hcaps⟩
  refine ⟨?_,?_,?_⟩
  · intro id e he
    obtain ⟨d,hd,hcaps⟩ := h.covered id e he
    exact ⟨d,hd,supportsAll_iff.mp hcaps⟩
  · intro id x hx
    exact ⟨howned (h.sensors id x hx),(h.sensors id x hx).device h.covered⟩
  · intro id q hq
    exact ⟨howned (h.equipment id q hq),(h.equipment id q hq).device h.covered⟩

end Registries
end AquaOS
