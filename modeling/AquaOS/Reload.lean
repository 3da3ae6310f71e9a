import AquaOS.AcceptedConfig

/-! The reload policy: `Plan` compares two configurations section by section and accepts only a
change of the log level. The comparison is `reflect.DeepEqual`, on which a NaN differs from
itself, and leaves out the event concurrency, the alarm rules, the backups and, by redaction, the
broker password. -/
namespace AquaOS
namespace Configuration

open Domain

def redactedSecret : String := "[REDACTED]"

def MQTT.redacted (m : MQTT) : MQTT :=
  if m.password ≠ "" then { m with password := redactedSecret } else m

/-- `DeepEqual` of two values of a section, which holds of equal ones without a NaN. -/
def deepEqual {A : Type} [DecidableEq A] (nanFree : A → Bool) (before after : A) : Bool :=
  nanFree before && before = after

def notNaN (x : Float64) : Bool := x ≠ .nan

def MQTT.nanFree (m : MQTT) : Bool := notNaN m.reconnectJitter

def Adapters.nanFree (a : Adapters) : Bool :=
  a.esp32.endpoints.all fun e => notNaN e.maximumDifference

def Sensor.nanFree (s : Sensor) : Bool :=
  s.minimum.all notNaN && s.maximum.all notNaN && notNaN s.calibration.scale &&
    notNaN s.calibration.offset

def Inventory.nanFree (i : Inventory) : Bool := i.sensors.all Sensor.nanFree

structure Change where
  path : String
  reloadable : Bool
  reason : String
  deriving DecidableEq

structure ReloadPlan where
  digest : String := ""
  changes : List Change := []
  deriving DecidableEq

inductive PlanError
  | invalid (err : ValidationError)
  | undigested (err : Failure)
  | rejected (changes : List Change)
  deriving DecidableEq

def add (path : String) (reloadable : Bool) (reason : String) (same : Bool) : List Change :=
  if same then [] else [⟨path,reloadable,reason⟩]

def plain {A : Type} [DecidableEq A] (before after : A) : Bool := deepEqual (fun _ => true) before after

def changesBetween (current next : Config) : List Change :=
  add "schema_version" false "schema changes require migration and restart"
    (plain current.schemaVersion next.schemaVersion)
  ++add "application.log_level" true "logging verbosity is operationally harmless"
    (plain current.application.logLevel next.application.logLevel)
  ++add "application.startup_timeout" false "lifecycle bounds are fixed at startup"
    (plain current.application.startupTimeout next.application.startupTimeout)
  ++add "application.shutdown_timeout" false "lifecycle bounds are fixed at startup"
    (plain current.application.shutdownTimeout next.application.shutdownTimeout)
  ++add "application.component_timeout" false "lifecycle bounds are fixed at startup"
    (plain current.application.componentTimeout next.application.componentTimeout)
  ++add "http" false "HTTP listeners and timeouts require restart" (plain current.http next.http)
  ++add "mqtt" false "MQTT connection changes require restart"
    (deepEqual MQTT.nanFree current.mqtt.redacted next.mqtt.redacted)
  ++add "simulator" false "adapter activation requires restart"
    (plain current.simulator next.simulator)
  ++add "adapters" false
    "direct adapter identity, safety, and connection changes require restart"
    (deepEqual Adapters.nanFree current.adapters next.adapters)
  ++add "bench" false "bench activation guard changes require restart"
    (plain current.bench next.bench)
  ++add "storage" false "storage pipeline changes require restart"
    (plain current.storage next.storage)
  ++add "inventory" false "inventory changes require validated registry activation"
    (deepEqual Inventory.nanFree current.inventory next.inventory)

section Plan

variable (lib : Library) (digest : Config → Except Failure String) (current next : Config)

/-- `Plan` of a manager whose snapshot is `current`. The digest is a hash of the redacted JSON
encoding, which a NaN does not have. -/
def plan : ReloadPlan × Option PlanError :=
  match next.validate lib with
  | some err => ({},some (.invalid err))
  | none =>
    match digest next with
    | .error err => ({},some (.undigested err))
    | .ok text =>
      let changes := changesBetween current next
      let restart := changes.filter fun change => !change.reloadable
      if restart.length ≠ 0 then (⟨text,changes⟩,some (.rejected restart)) else (⟨text,changes⟩,none)

/-- Everything the comparison looks at agrees, the log level apart. -/
structure ComparedAgree : Prop where
  schemaVersion : current.schemaVersion = next.schemaVersion
  startupTimeout : current.application.startupTimeout = next.application.startupTimeout
  shutdownTimeout : current.application.shutdownTimeout = next.application.shutdownTimeout
  componentTimeout : current.application.componentTimeout = next.application.componentTimeout
  http : current.http = next.http
  mqtt : deepEqual MQTT.nanFree current.mqtt.redacted next.mqtt.redacted = true
  simulator : current.simulator = next.simulator
  adapters : deepEqual Adapters.nanFree current.adapters next.adapters = true
  bench : current.bench = next.bench
  storage : current.storage = next.storage
  inventory : deepEqual Inventory.nanFree current.inventory next.inventory = true

/-- What the comparison leaves out agrees. -/
structure UncomparedAgree : Prop where
  eventConcurrency : current.application.eventConcurrency = next.application.eventConcurrency
  password : current.mqtt.password = next.mqtt.password
  alarms : current.alarms = next.alarms
  backups : current.backups = next.backups

/-- The configurations agree in every field but the log level. -/
def EqualButLogLevel : Prop :=
  next = { current with
    application := { current.application with logLevel := next.application.logLevel } }

end Plan

variable {lib : Library} {digest : Config → Except Failure String} {current next : Config}
  {A : Type} {before after : A} {path reason : String} {same : Bool}

@[simp] theorem plain_eq_true [DecidableEq A] : plain before after = true ↔ before = after := by
  simp [plain,deepEqual]

theorem eq_of_deepEqual [DecidableEq A] {nanFree : A → Bool}
    (h : deepEqual nanFree before after = true) : before = after := by
  simp only [deepEqual,Bool.and_eq_true,decide_eq_true_eq] at h
  exact h.2

@[simp] theorem add_restart_nil :
    ((add path false reason same).filter fun change => !change.reloadable) = [] ↔ same = true := by
  cases same <;> simp [add]

@[simp] theorem add_reloadable_nil :
    ((add path true reason same).filter fun change => !change.reloadable) = [] := by
  cases same <;> simp [add]

theorem restart_nil_iff :
    ((changesBetween current next).filter fun change => !change.reloadable) = [] ↔
      ComparedAgree current next := by
  simp only [changesBetween,List.filter_append,List.append_eq_nil_iff,add_restart_nil,
    add_reloadable_nil,plain_eq_true,and_true,and_assoc]
  constructor
  · rintro ⟨h1,h2,h3,h4,h5,h6,h7,h8,h9,h10,h11⟩
    exact ⟨h1,h2,h3,h4,h5,h6,h7,h8,h9,h10,h11⟩
  · rintro ⟨h1,h2,h3,h4,h5,h6,h7,h8,h9,h10,h11⟩
    exact ⟨h1,h2,h3,h4,h5,h6,h7,h8,h9,h10,h11⟩

theorem logLevel_reported (h : current.application.logLevel ≠ next.application.logLevel) :
    changesBetween current next ≠ [] := by
  have hlevel : plain current.application.logLevel next.application.logLevel = false := by
    simpa [← Bool.not_eq_true] using h
  simp [changesBetween,add,hlevel]

theorem eq_of_redacted {m n : MQTT} (h : m.redacted = n.redacted) (hp : m.password = n.password) :
    m = n := by
  unfold MQTT.redacted at h
  rw [hp] at h
  split_ifs at h with hempty
  · cases m
    cases n
    simp_all
  · exact h

theorem equalButLogLevel_of_agree (hc : ComparedAgree current next)
    (hu : UncomparedAgree current next) : EqualButLogLevel current next := by
  have hmqtt := eq_of_redacted (eq_of_deepEqual hc.mqtt) hu.password
  have hadapters := eq_of_deepEqual hc.adapters
  have hinventory := eq_of_deepEqual hc.inventory
  obtain ⟨h1,h2,h3,h4,h5,_,h7,_,h9,h10,_⟩ := hc
  obtain ⟨hevents,_,halarms,hbackups⟩ := hu
  obtain ⟨_,⟨_,_,_,_,_⟩,_,_,_,_,_,_,_,_,_⟩ := current
  obtain ⟨_,⟨_,_,_,_,_⟩,_,_,_,_,_,_,_,_,_⟩ := next
  simp_all [EqualButLogLevel]

theorem EqualButLogLevel.uncompared (h : EqualButLogLevel current next) :
    UncomparedAgree current next := by
  unfold EqualButLogLevel at h
  rw [h]
  exact ⟨rfl,rfl,rfl,rfl⟩

/-- What `Plan` answers for a valid candidate with a digest. -/
theorem plan_of_digest (current : Config) {text : String} (hv : next.validate lib = none)
    (hd : digest next = .ok text) : (ComparedAgree current next → plan lib digest current next =
      (⟨text,changesBetween current next⟩,none)) ∧
    (¬ ComparedAgree current next →
      ∃ restart, (plan lib digest current next).2 = some (.rejected restart)) := by
  have hlength : ((changesBetween current next).filter fun change => !change.reloadable).length ≠ 0 ↔
      ¬ ComparedAgree current next := by
    rw [ne_eq,List.length_eq_zero_iff,restart_nil_iff]
  simp only [plan,hv,hd]
  constructor
  · intro h
    rw [if_neg fun hrestart => hlength.mp hrestart h]
  · intro h
    rw [if_pos (hlength.mpr h)]
    exact ⟨_,rfl⟩

/-- An accepted plan leaves every field but the log level, whose change it reports, and any
other difference is rejected, exactly if what the comparison leaves out agrees or something it
looks at differs, and the candidate has a digest or differs in the log level only. -/
theorem plan_sound_iff (digest : Config → Except Failure String) (current : Config)
    (hv : next.validate lib = none) :
    ((∀ p, plan lib digest current next = (p,none) → EqualButLogLevel current next ∧
        (current.application.logLevel ≠ next.application.logLevel → p.changes ≠ [])) ∧
      (¬ EqualButLogLevel current next →
        ∃ restart, (plan lib digest current next).2 = some (.rejected restart))) ↔
      (UncomparedAgree current next ∨ ¬ ComparedAgree current next) ∧
      ((∃ text, digest next = .ok text) ∨ EqualButLogLevel current next) := by
  cases hd : digest next with
  | error err =>
    have hplan : plan lib digest current next = ({},some (.undigested err)) := by
      simp only [plan,hv,hd]
    simp only [hplan,Prod.mk.injEq,reduceCtorEq,and_false,false_implies,implies_true,true_and,
      Option.some.injEq,exists_false,imp_false,not_not,false_or]
    exact ⟨fun h => ⟨.inl h.uncompared,h⟩,fun h => h.2⟩
  | ok text =>
    obtain ⟨haccepts,hrejects⟩ := plan_of_digest current hv hd
    by_cases hc : ComparedAgree current next
    · have hplan := haccepts hc
      constructor
      · rintro ⟨hok,_⟩
        exact ⟨.inl (hok _ hplan).1.uncompared,.inl ⟨text,rfl⟩⟩
      · rintro ⟨hagree,_⟩
        have heq : EqualButLogLevel current next :=
          equalButLogLevel_of_agree hc (hagree.resolve_right fun h => h hc)
        refine ⟨fun p hp => ⟨heq,fun hlevel => ?_⟩,fun hne => absurd heq hne⟩
        have hsame := (Prod.mk.injEq _ _ _ _).mp (hplan.symm.trans hp)
        rw [← hsame.1]
        exact logLevel_reported hlevel
    · obtain ⟨restart,hrestart⟩ := hrejects hc
      refine iff_of_true ⟨fun p hp => ?_,fun _ => ⟨restart,hrestart⟩⟩ ⟨.inr hc,.inl ⟨text,rfl⟩⟩
      rw [hp] at hrestart
      cases hrestart

def debugConfig : Config := { benchConfig with application := { logLevel := "debug" } }

theorem debug_plan_sound :
    debugConfig.validate benchLibrary = none ∧
      ∀ p, plan benchLibrary (fun _ => .ok "") benchConfig debugConfig = (p,none) →
        EqualButLogLevel benchConfig debugConfig ∧ p.changes ≠ [] := by
  have hvalid : debugConfig.validate benchLibrary = none := by decide +kernel
  have hsound := (plan_sound_iff (fun _ => .ok "") benchConfig hvalid).mpr
    ⟨.inl ⟨rfl,rfl,rfl,rfl⟩,.inl ⟨"",rfl⟩⟩
  refine ⟨hvalid,fun p hp => ?_⟩
  obtain ⟨heq,hchanges⟩ := hsound.1 p hp
  exact ⟨heq,hchanges (by decide)⟩

def securedConfig : Config := { benchConfig with mqtt := { password := "first" } }

def driftedConfig : Config :=
  { benchConfig with
    application := { eventConcurrency := 128 }, mqtt := { password := "second" }
    backups := ⟨true,"/var/backups/aquaos",7⟩ }

theorem drift_accepted_unreported :
    securedConfig.validate benchLibrary = none ∧ driftedConfig.validate benchLibrary = none ∧
      plan benchLibrary (fun _ => .ok "") securedConfig driftedConfig = ({},none) ∧
      securedConfig.application.eventConcurrency ≠ driftedConfig.application.eventConcurrency ∧
      securedConfig.mqtt.password ≠ driftedConfig.mqtt.password ∧
      securedConfig.backups ≠ driftedConfig.backups := by
  decide +kernel

end Configuration
end AquaOS
