import AquaOS.AdapterInventory
import AquaOS.FailureAlarm

/-! The coordinator `New` builds from an accepted configuration and the alarm rules it registers,
together with the inventory: what construction needs beyond validation. -/
namespace AquaOS
namespace Bench

open Domain Scan

section Loops

variable {P : Type} {ruleID : P → RuleID} {endpointID : P → EndpointID} {invalid duplicate : String}

theorem addPolicies_single {t t' : Table EndpointID P} {p : P} :
    addPolicies ruleID endpointID invalid duplicate t [p] = .ok t' ↔
      validateID (ruleID p) = none ∧ endpointID p ∉ t ∧ t' = t.insert (endpointID p) p := by
  unfold addPolicies
  cases validateID (ruleID p) with
  | some err => simp
  | none => by_cases hm : endpointID p ∈ t <;> simp [hm,addPolicies,eq_comm]

theorem addPolicies_fills {ps : List P} (hv : ∀ p ∈ ps, validateID (ruleID p) = none)
    (hnd : (ps.map endpointID).Nodup) :
    ∃ t, addPolicies ruleID endpointID invalid duplicate ∅ ps = .ok t ∧
      t.entries.map Sigma.snd = ps.reverse := by
  obtain ⟨t,ht,hvalues⟩ := scan_fills (i := 0) (p := id)
    (f := fun _ t p => addPolicies ruleID endpointID invalid duplicate t [p])
    (fun _ _ _ _ => addPolicies_single) (fun _ _ => rfl) rfl hv hnd
  refine ⟨t,(eq_scan (fun _ => rfl) fun t p ps => ?_).trans ht,hvalues⟩
  simp only [addPolicies]
  cases validateID (ruleID p) with
  | some err => rfl
  | none => by_cases hm : endpointID p ∈ t <;> simp [hm]

/-- Such policies of both adapters give a coordinator, and every order over its maps visits
exactly them. -/
theorem newCoordinator_fills (ss : List ShellyPolicy) (es : List ESP32Policy)
    (hs : ∀ p ∈ ss, validateID p.ruleID = none) (hsnd : (ss.map fun p => p.endpoint.id).Nodup)
    (he : ∀ p ∈ es, validateID p.ruleID = none) (hend : (es.map fun p => p.endpoint.id).Nodup) :
    ∃ c, newCoordinator ss es = .ok c ∧
      ∀ order : PolicyOrder c, order.shelly.Perm ss ∧ order.esp32.Perm es := by
  obtain ⟨shelly,hshelly,hss⟩ : ∃ t, addShellyPolicies ss = .ok t ∧ _ := addPolicies_fills hs hsnd
  obtain ⟨esp32,hesp32,hes⟩ : ∃ t, addESP32Policies es = .ok t ∧ _ := addPolicies_fills he hend
  refine ⟨{ shelly, esp32 },by simp [newCoordinator,hshelly,hesp32,bind,Except.bind],
    fun order => ⟨?_,?_⟩⟩
  · exact (order.shelly_perm.trans (.of_eq hss)).trans (List.reverse_perm ss)
  · exact (order.esp32_perm.trans (.of_eq hes)).trans (List.reverse_perm es)

end Loops

end Bench

namespace App

open Domain Bench Registries
open AquaOS.Configuration (Config ShellyEndpoint ESP32Endpoint ShellyAccepted ESP32Accepted Library
  benchConfig benchHeater benchNode benchLibrary)

def shellyPolicy (e : ShellyEndpoint) : ShellyPolicy :=
  ⟨{ id := e.id, equipmentID := e.equipmentID, baseURL := e.baseURL, channel := e.channel
     pollInterval := e.pollInterval, requestTimeout := e.requestTimeout, retries := e.retries
     safeOn := e.safeOn, powerReturnPolicy := e.powerReturnPolicy },e.alarmRuleID⟩

def esp32Policy (token : String → String) (e : ESP32Endpoint) : ESP32Policy :=
  ⟨{ id := e.id, deviceID := e.deviceID, baseURL := e.baseURL
     bearerToken := token e.bearerTokenFile
     probeIDs := (e.probeIDs.getD 0 "",e.probeIDs.getD 1 ""), pollInterval := e.pollInterval
     requestTimeout := e.requestTimeout, freshFor := e.freshFor
     maximumClockSkew := e.maximumClockSkew, maximumDifference := e.maximumDifference },
    e.alarmRuleID⟩

/-- The coordinator of a configuration, with what the secret files hold. -/
def coordinatorOf (token : String → String) (c : Config) : Except Failure Coordinator :=
  newCoordinator (c.adapters.shelly.endpoints.map shellyPolicy)
    (c.adapters.esp32.endpoints.map (esp32Policy token))

def alarmRuleIDs (c : Config) : List RuleID :=
  c.adapters.shelly.endpoints.map ShellyEndpoint.alarmRuleID++
    c.adapters.esp32.endpoints.map ESP32Endpoint.alarmRuleID

/-- The coordinator is built and registers its rules in an alarm engine without rules, in
whatever order its maps are visited. -/
def RulesRegister (token : String → String) (c : Config) : Prop :=
  ∃ coordinator, coordinatorOf token c = .ok coordinator ∧
    ∀ (order : PolicyOrder coordinator) (m : Alarms.Manager), m.rules = ∅ →
      ∃ m', coordinator.registerRules none order m = .ok m'

theorem shelly_rule_valid {e : ShellyEndpoint} (he : ShellyAccepted e) :
    Alarms.validateRule (shellyPolicy e).rule = none := by
  simp [Alarms.validateRule,shellyPolicy,ShellyPolicy.rule,he.alarmRuleID,he.equipmentID,
    Alarms.Severity.rank]

theorem esp32_rule_valid {token : String → String} {e : ESP32Endpoint} (he : ESP32Accepted e) :
    Alarms.validateRule (esp32Policy token e).rule = none := by
  simp [Alarms.validateRule,esp32Policy,ESP32Policy.rule,he.alarmRuleID,he.deviceID,
    Alarms.Severity.rank]

theorem rulesRegister_iff {token : String → String} {c : Config}
    (hc : Configuration.AdaptersAccepted c.adapters) :
    RulesRegister token c ↔ (alarmRuleIDs c).Nodup := by
  obtain ⟨hshelly,hesp32,_⟩ := List.nodup_append.mp hc.endpoints
  obtain ⟨coordinator,hcoord,horder⟩ := newCoordinator_fills
    (c.adapters.shelly.endpoints.map shellyPolicy)
    (c.adapters.esp32.endpoints.map (esp32Policy token))
    (List.forall_mem_map.mpr fun e he => (hc.shelly e he).alarmRuleID)
    (by simpa [shellyPolicy,Function.comp_def] using hshelly)
    (List.forall_mem_map.mpr fun e he => (hc.esp32 e he).alarmRuleID)
    (by simpa [esp32Policy,Function.comp_def] using hesp32)
  have hrules : ∀ (order : PolicyOrder coordinator) (m : Alarms.Manager), m.rules = ∅ →
      ((∃ m', coordinator.registerRules none order m = .ok m') ↔ (alarmRuleIDs c).Nodup) := by
    intro order m hempty
    obtain ⟨hs,he⟩ := horder order
    have hsv : ∀ p ∈ order.shelly, Alarms.validateRule p.rule = none := by
      intro p hp
      obtain ⟨e,hmem,rfl⟩ := List.mem_map.mp (hs.mem_iff.mp hp)
      exact shelly_rule_valid (hc.shelly e hmem)
    have hev : ∀ p ∈ order.esp32, Alarms.validateRule p.rule = none := by
      intro p hp
      obtain ⟨e,hmem,rfl⟩ := List.mem_map.mp (he.mem_iff.mp hp)
      exact esp32_rule_valid (hc.esp32 e hmem)
    have hids : (order.shelly.map ShellyPolicy.ruleID++order.esp32.map ESP32Policy.ruleID).Perm
        (alarmRuleIDs c) := by
      have hperm := (hs.map ShellyPolicy.ruleID).append (he.map ESP32Policy.ruleID)
      simpa [alarmRuleIDs,shellyPolicy,esp32Policy,Function.comp_def] using hperm
    rw [registerRules_ok_iff hempty hsv hev,hids.nodup_iff]
  constructor
  · rintro ⟨coordinator',hcoord',hall⟩
    have hsame : coordinator' = coordinator := Except.ok.inj (hcoord'.symm.trans hcoord)
    subst hsame
    exact (hrules ⟨_,_,.refl _,.refl _⟩ {} rfl).mp (hall _ _ rfl)
  · intro hnd
    exact ⟨coordinator,hcoord,fun order m hempty => (hrules order m hempty).mpr hnd⟩

/-- With every event published, construction from an accepted configuration registers the
inventory and, if an adapter is enabled, all alarm rules exactly if no node has the device ID of
a Shelly endpoint and, if an adapter is enabled, no alarm rule ID is used twice. -/
theorem registrations_succeed_iff {lib : Library} {c : Config} {a : Answer}
    (h : c.validate lib = none) (hctx : a.ctx = none) (hemit : a.emitted = none)
    (token : String → String) :
    ((∃ r, registerAdapterInventory a c = .ok r) ∧
      (c.adapters.shelly.enabled = true ∨ c.adapters.esp32.enabled = true →
        RulesRegister token c)) ↔
      ¬ SharedDevice c.adapters ∧
      (c.adapters.shelly.enabled = true ∨ c.adapters.esp32.enabled = true →
        (alarmRuleIDs c).Nodup) := by
  have hc := (Configuration.validate_accepted h).1
  rw [registerAdapterInventory_ok_iff hctx hemit hc,slots_nodup_iff hc,rulesRegister_iff hc]

theorem bench_registrations_succeed :
    benchConfig.validate benchLibrary = none ∧
      (∃ r, registerAdapterInventory {} benchConfig = .ok r) ∧ RulesRegister id benchConfig := by
  have hvalid : benchConfig.validate benchLibrary = none := by decide +kernel
  have hdevices : ¬ SharedDevice benchConfig.adapters := by
    rintro ⟨s,hs,e,he,hsame⟩
    simp only [benchConfig,List.mem_singleton] at hs he
    subst hs he
    exact absurd hsame (by decide)
  have hrules : (alarmRuleIDs benchConfig).Nodup := by decide
  have hboth := (registrations_succeed_iff (a := {}) hvalid rfl rfl id).mpr ⟨hdevices,fun _ => hrules⟩
  exact ⟨hvalid,hboth.1,hboth.2 (.inl rfl)⟩

def sharedDeviceConfig : Config :=
  { benchConfig with
    adapters := ⟨⟨true,[benchHeater]⟩,⟨true,[{ benchNode with deviceID := benchHeater.id }]⟩⟩ }

def sharedRuleConfig : Config :=
  { benchConfig with
    adapters := ⟨⟨true,[benchHeater]⟩,
      ⟨true,[{ benchNode with alarmRuleID := benchHeater.alarmRuleID }]⟩⟩ }

def sharedRuleCoordinator : Coordinator :=
  { shelly := AList.singleton benchHeater.id (shellyPolicy benchHeater)
    esp32 := AList.singleton benchNode.id
      (esp32Policy id { benchNode with alarmRuleID := benchHeater.alarmRuleID }) }

def sharedRuleOrder : PolicyOrder sharedRuleCoordinator := ⟨_,_,.refl _,.refl _⟩

/-- Both are accepted; the first stops at the second device, the second at the second rule. -/
theorem registrations_collide :
    (sharedDeviceConfig.validate benchLibrary = none ∧
      (registerAdapterInventory {} sharedDeviceConfig).map (fun _ => ()) = .error registryExists) ∧
    sharedRuleConfig.validate benchLibrary = none ∧
      coordinatorOf id sharedRuleConfig = .ok sharedRuleCoordinator ∧
      (sharedRuleCoordinator.registerRules none sharedRuleOrder {}).map (fun _ => ()) =
        .error (.wrapped "register ESP32 alarm" Alarms.duplicate) := by
  refine ⟨⟨by decide +kernel,?_⟩,by decide +kernel,?_,?_⟩
  · rfl
  · rfl
  · rfl

end App
end AquaOS
