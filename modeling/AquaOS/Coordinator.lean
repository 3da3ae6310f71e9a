import AquaOS.Adapters
import AquaOS.AlarmState
import AquaOS.CanonicalState
import AquaOS.Output

/-! The coordinator between the direct adapters and the rest: reports become writes of the
canonical state, failures become alarm observations and, on the first transition into
failure, a request for the safe state. Each function is cut at its lock sections and at the
calls it makes, so that calls can be interleaved. -/
namespace AquaOS
namespace Bench

open Domain CanonicalState

structure Write where
  key : Key
  value : Scalar
  quality : Quality
  observedAt : ℤ
  receivedAt : ℤ
  freshFor : ℤ
  source : EndpointID
  deriving DecidableEq

structure ShellyPolicy where
  endpoint : Shelly.Endpoint
  ruleID : RuleID
  deriving DecidableEq

structure ESP32Policy where
  endpoint : ESP32.Endpoint
  ruleID : RuleID
  deriving DecidableEq

/-- The rule and the endpoint kept for one endpoint ID are written together and stand in one
table here. An endpoint without an entry of `shellyActive` is not failing. -/
structure Coordinator where
  shelly : Table EndpointID ShellyPolicy := ∅
  esp32 : Table EndpointID ESP32Policy := ∅
  shellyActive : Table EndpointID Bool := ∅

/-- A loop of `NewCoordinator`, over the policies of one adapter. -/
def addPolicies {P : Type} (ruleID : P → RuleID) (endpointID : P → EndpointID)
    (invalid duplicate : String) (t : Table EndpointID P) :
    List P → Except Failure (Table EndpointID P)
  | [] => .ok t
  | p::ps =>
    match validateID (ruleID p) with
    | some err => .error (.wrapped invalid err)
    | none =>
      if endpointID p ∈ t then .error (.message duplicate)
      else addPolicies ruleID endpointID invalid duplicate (t.insert (endpointID p) p) ps

def addShellyPolicies : List ShellyPolicy → Except Failure (Table EndpointID ShellyPolicy) :=
  addPolicies ShellyPolicy.ruleID (·.endpoint.id) "shelly alarm rule ID"
    "duplicate Shelly bench policy" ∅

def addESP32Policies : List ESP32Policy → Except Failure (Table EndpointID ESP32Policy) :=
  addPolicies ESP32Policy.ruleID (·.endpoint.id) "esp32 alarm rule ID"
    "duplicate ESP32 bench policy" ∅

/-- `NewCoordinator` with its dependencies given. -/
def newCoordinator (shellyPolicies : List ShellyPolicy) (espPolicies : List ESP32Policy) :
    Except Failure Coordinator := do
  let shelly ← addShellyPolicies shellyPolicies
  let esp32 ← addESP32Policies espPolicies
  .ok { shelly, esp32 }

def ShellyPolicy.rule (p : ShellyPolicy) : Alarms.Rule :=
  { id := p.ruleID, code := "shelly.protection_or_connection_fault"
    name := "Shelly protection or connection fault"
    subject := ⟨"equipment",p.endpoint.equipmentID⟩, severity := .critical, latching := true }

def ESP32Policy.rule (p : ESP32Policy) : Alarms.Rule :=
  { id := p.ruleID, code := "esp32.node_unhealthy", name := "ESP32 sensor node unhealthy"
    subject := ⟨"device",p.endpoint.deviceID⟩, severity := .critical, latching := true }

/-- The orders in which a call visits the two maps. -/
structure PolicyOrder (c : Coordinator) where
  shelly : List ShellyPolicy
  esp32 : List ESP32Policy
  shelly_perm : shelly.Perm (c.shelly.entries.map Sigma.snd)
  esp32_perm : esp32.Perm (c.esp32.entries.map Sigma.snd)

/-- One loop of `RegisterRules`. -/
def registerAll (context : String) (ctx : Option Failure) (m : Alarms.Manager) :
    List Alarms.Rule → Except Failure Alarms.Manager
  | [] => .ok m
  | rule::rules =>
    match m.registerRule ctx rule with
    | .error err => .error (.wrapped context err)
    | .ok m => registerAll context ctx m rules

def Coordinator.registerRules (c : Coordinator) (ctx : Option Failure) (order : PolicyOrder c)
    (m : Alarms.Manager) : Except Failure Alarms.Manager :=
  match registerAll "register Shelly alarm" ctx m (order.shelly.map ShellyPolicy.rule) with
  | .error err => .error err
  | .ok m => registerAll "register ESP32 alarm" ctx m (order.esp32.map ESP32Policy.rule)

structure ShellyCall where
  endpoint : Shelly.Endpoint
  active : Bool
  reason : String
  observedAt : ℤ
  deriving DecidableEq

def ShellyCall.observation (f : ShellyCall) (ruleID : RuleID) : Alarms.Observation :=
  { ruleID := ruleID, active := f.active, observedAt := f.observedAt
    evidence := { code := f.reason
                  message := "Shelly reported a protection or connection fault" } }

def unknownShellyFailure : Failure := .message "unknown Shelly failure endpoint"

/-- `ShellyFailure` up to and with its `Observe`: the error it carries on. An endpoint without
a rule ends the call. -/
def Coordinator.observeShelly (c : Coordinator) (m : Alarms.Manager) (a : Alarms.Answer)
    (f : ShellyCall) : Except Failure (Option Failure) × Alarms.Manager :=
  match c.shelly.lookup f.endpoint.id with
  | none => (.error unknownShellyFailure,m)
  | some p =>
    let out := m.observe a (f.observation p.ruleID)
    (.ok out.1.2.2,out.2)

def Coordinator.wasActive (c : Coordinator) (id : EndpointID) : Bool :=
  (c.shellyActive.lookup id).getD false

/-- The lock section of `ShellyFailure`. -/
def Coordinator.mark (c : Coordinator) (f : ShellyCall) : Coordinator :=
  { c with shellyActive := c.shellyActive.insert f.endpoint.id f.active }

/-- Whether `ShellyFailure` goes on to request the safe state. -/
def Coordinator.requests (c : Coordinator) (f : ShellyCall) : Bool :=
  f.active && !c.wasActive f.endpoint.id

def unixEpoch : ℤ := 62135596800000000000

/-- `UnixNano`, in 64 bits. -/
def unixNano (t : ℤ) : ℤ := (t-unixEpoch).bmod (2^64)

def ShellyCall.command (f : ShellyCall) : Output.Command :=
  { id := "", correlationID := ""
    idempotencyKey := "adapter-failure/"++f.endpoint.id++"/"++toString (unixNano f.observedAt)
    equipmentID := f.endpoint.equipmentID, requester := "adapter-failure-policy"
    issuedAt := f.observedAt, expiresAt := f.observedAt+2*f.endpoint.requestTimeout
    on := f.endpoint.safeOn }

def reportKey (id : EquipmentID) (attributeName : String) : Key :=
  ⟨.equipment,id,.reported,attributeName⟩

def reportWrite (e : Shelly.Endpoint) (r : Shelly.Report) (attributeName : String)
    (value : Scalar) : Write :=
  { key := reportKey r.equipmentID attributeName, value := value, quality := .good
    observedAt := r.observedAt, receivedAt := r.observedAt, freshFor := e.pollInterval*2
    source := r.endpointID }

/-- The telemetry of a report; a quantity that is not valid rejects the report. -/
def quantityWrites (e : Shelly.Endpoint) (r : Shelly.Report) :
    List (String × QuantityKind × QuantityUnit × Float64) → Except Failure (List Write)
  | [] => .ok []
  | (name,kind,unit,value)::items =>
    match newQuantity kind value unit, quantityWrites e r items with
    | .error err, _ | .ok _, .error err => .error err
    | .ok q, .ok writes => .ok (reportWrite e r name (.quantity q)::writes)

def reportWrites (e : Shelly.Endpoint) (r : Shelly.Report) : Except Failure (List Write) :=
  match quantityWrites e r [("power",.power,.watts,r.apower),
    ("voltage",.voltage,.volts,r.voltage),("current",.current,.amperes,r.current)] with
  | .error err => .error err
  | .ok writes => .ok (reportWrite e r "on" (.boolean r.on)::writes)

/-- What a report says about the endpoint's failure, if anything. -/
def failureOf (e : Shelly.Endpoint) (r : Shelly.Report) : Option ShellyCall :=
  let desired := r.desiredOn.getD e.safeOn
  if r.errors ≠ [] then
    some ⟨e,true,"shelly.protection."++"+".intercalate r.errors,r.observedAt⟩
  else if r.pending = false ∧ r.on ≠ desired then
    some ⟨e,true,"shelly.reported_divergence",r.observedAt⟩
  else if r.on = desired then some ⟨e,false,"shelly.reported_converged",r.observedAt⟩
  else none

/-- `ReportShelly` up to its call of `ShellyFailure`; the canonical state answers each `Set`,
and the first error ends the call. -/
def Coordinator.reportShelly (c : Coordinator) (set : Write → Option Failure)
    (r : Shelly.Report) : Except Failure (Option ShellyCall) :=
  match c.shelly.lookup r.endpointID with
  | none => .error (.message "unknown Shelly report endpoint")
  | some p =>
    if p.endpoint.equipmentID ≠ r.equipmentID then
      .error (.message "unknown Shelly report endpoint")
    else
      match reportWrites p.endpoint r with
      | .error err => .error err
      | .ok writes =>
        match writes.findSome? set with
        | some err => .error err
        | none => .ok (failureOf p.endpoint r)

end Bench
end AquaOS
