import AquaOS.EquipmentProfile
import AquaOS.Scan

/-! The safety engine: operating modes, hard limits, runtime accounting, overrides
and watchdogs. Each operation is a function of the engine state, the clock reading
it makes and the answers of its collaborators; the locked section of `Evaluate` is a
function of its own. -/
namespace AquaOS
namespace SafetyEngine

open Domain CanonicalState EquipmentProfile Timeline Scan

inductive Mode
  | normal | maintenance | manual | emergencyStop | other (text : String)
  deriving DecidableEq

def reasonAllowed : String := "safety.allowed"
def reasonUnknownEquipment : String := "safety.unknown_equipment"
def reasonEmergencyStop : String := "safety.emergency_stop"
def reasonOverrideRequired : String := "safety.override_required"
def reasonOverrideExpired : String := "safety.override_expired"
def reasonInputMissing : String := "safety.input_missing"
def reasonInputInvalid : String := "safety.input_invalid"
def reasonInputStale : String := "safety.input_stale"
def reasonInputMismatch : String := "safety.input_mismatch"
def reasonMaximumOn : String := "safety.maximum_on"
def reasonMaximumDailyOn : String := "safety.maximum_daily_on"
def reasonMinimumOff : String := "safety.minimum_off"

structure Intent where
  equipmentID : EquipmentID
  on : Bool
  issuedAt : ℤ
  deriving DecidableEq

structure Decision where
  allowed : Bool := false
  reason : String := ""
  hardLimit : Bool := false
  overrideID : OverrideID := ""
  deriving DecidableEq

structure Override where
  id : OverrideID
  equipmentID : EquipmentID
  requester : String
  reason : String
  createdAt : ℤ
  expiresAt : ℤ
  deriving DecidableEq

structure WatchdogAction where
  equipmentID : EquipmentID
  on : Bool
  reason : String
  observedAt : ℤ
  deriving DecidableEq

/-- Runtime accounting of one equipment. The date text is kept as the day number it
writes out, and is absent before the first accounting. -/
structure RuntimeState where
  on : Bool := false
  onSince : ℤ := 0
  offSince : ℤ := 0
  dailyOn : ℤ := 0
  dailyDate : Option ℤ := none
  lastAccounted : ℤ := 0
  watchdogReason : String := ""
  deriving DecidableEq

structure Engine where
  mode : Mode := .normal
  profiles : Table EquipmentID Profile := ∅
  overrides : Table EquipmentID Override := ∅
  runtime : Table EquipmentID RuntimeState := ∅

/-- `NewEngine` on its list of profiles. -/
def Engine.addProfiles (e : Engine) : List Profile → Except Failure Engine
  | [] => .ok e
  | p::ps =>
    match p.validate with
    | some err => .error (.wrapped "profile" err)
    | none =>
      if p.equipmentID ∈ e.profiles then .error (.message "duplicate equipment safety profile")
      else Engine.addProfiles { e with profiles := e.profiles.insert p.equipmentID p } ps

def newEngine (profiles : List Profile) : Except Failure Engine :=
  Engine.addProfiles {} profiles

theorem addProfiles_single {engine engine' : Engine} {p : Profile} :
    engine.addProfiles [p] = .ok engine' ↔ p.validate = none ∧ p.equipmentID ∉ engine.profiles ∧
      engine' = { engine with profiles := engine.profiles.insert p.equipmentID p } := by
  simp only [Engine.addProfiles]
  cases p.validate with
  | some err => simp
  | none => by_cases hm : p.equipmentID ∈ engine.profiles <;> simp [hm,eq_comm]

theorem addProfiles_scan (engine : Engine) (ps : List Profile) :
    engine.addProfiles ps = scan (fun _ e p => e.addProfiles [p]) 0 engine ps := by
  refine eq_scan (fun _ => rfl) fun engine p ps => ?_
  simp only [Engine.addProfiles]
  cases p.validate with
  | some err => rfl
  | none => by_cases hm : p.equipmentID ∈ engine.profiles <;> simp [hm]

/-- An engine is made exactly from valid profiles with distinct equipment IDs. -/
theorem newEngine_ok_iff (ps : List Profile) : (∃ engine, newEngine ps = .ok engine) ↔
      (∀ p ∈ ps, p.validate = none) ∧ (ps.map Profile.equipmentID).Nodup := by
  rw [newEngine,addProfiles_scan,scan_inserts_iff (H := fun e id => id ∈ e.profiles)
    (fun _ _ _ _ _ => addProfiles_single) (fun _ _ _ _ => by simp)]
  simp

def Engine.setMode (e : Engine) (ctx : Option Failure) (mode : Mode) : Except Failure Engine :=
  match ctx, mode with
  | some err, _ => .error err
  | none, .other _ => .error (.message "unsupported safety mode")
  | none, mode => .ok { e with mode := mode }

/-- A change of UTC date starts a new daily total. -/
def RuntimeState.rollOver (r : RuntimeState) (now : ℤ) : RuntimeState :=
  if r.dailyDate = some (day now) then r
  else { r with
    dailyDate := some (day now)
    dailyOn := 0
    lastAccounted := if r.on then now else r.lastAccounted }

def RuntimeState.accrue (r : RuntimeState) (now : ℤ) : RuntimeState :=
  if r.on ∧ r.lastAccounted ≠ 0 ∧ r.lastAccounted < now then
    { r with dailyOn := r.dailyOn + sub now r.lastAccounted, lastAccounted := now }
  else r

def RuntimeState.account (r : RuntimeState) (now : ℤ) : RuntimeState :=
  (r.rollOver now).accrue now

namespace RuntimeState

section Frame

variable (r : RuntimeState) (now : ℤ)

/-- Accounting writes the date, the total of the day and the time accounted to. -/
theorem account_eq : ∃ dailyOn lastAccounted, r.account now = { r with
    dailyDate := some (day now), dailyOn := dailyOn, lastAccounted := lastAccounted } := by
  have hroll : ∃ dailyOn lastAccounted, r.rollOver now = { r with
      dailyDate := some (day now), dailyOn := dailyOn, lastAccounted := lastAccounted } := by
    unfold rollOver
    split
    · next hday => exact ⟨_,_,by rw [← hday]⟩
    · exact ⟨_,_,rfl⟩
  obtain ⟨dailyOn,lastAccounted,hr⟩ := hroll
  rw [account,hr,accrue]
  split_ifs
  · exact ⟨_,_,rfl⟩
  · exact ⟨_,_,rfl⟩

@[simp] theorem account_on : (r.account now).on = r.on := by
  obtain ⟨_,_,h⟩ := account_eq r now
  rw [h]

@[simp] theorem account_onSince : (r.account now).onSince = r.onSince := by
  obtain ⟨_,_,h⟩ := account_eq r now
  rw [h]

@[simp] theorem account_offSince : (r.account now).offSince = r.offSince := by
  obtain ⟨_,_,h⟩ := account_eq r now
  rw [h]

@[simp] theorem account_watchdogReason : (r.account now).watchdogReason = r.watchdogReason := by
  obtain ⟨_,_,h⟩ := account_eq r now
  rw [h]

@[simp] theorem account_dailyDate : (r.account now).dailyDate = some (day now) := by
  obtain ⟨_,_,h⟩ := account_eq r now
  rw [h]

end Frame

variable {r : RuntimeState} {now : ℤ}

theorem account_dailyOn_same (h : r.dailyDate = some (day now)) :
    (r.account now).dailyOn = r.dailyOn +
      if r.on = true ∧ r.lastAccounted ≠ 0 ∧ r.lastAccounted < now then sub now r.lastAccounted
      else 0 := by
  unfold account rollOver accrue
  rw [if_pos h]
  split_ifs <;> simp

theorem account_dailyOn_new (h : r.dailyDate ≠ some (day now)) : (r.account now).dailyOn = 0 := by
  unfold account rollOver accrue
  rw [if_neg h]
  cases r.on <;> simp

/-- Within one UTC day accounting later never accounts less. -/
theorem account_dailyOn_mono (r : RuntimeState) {t u : ℤ} (htu : t ≤ u) (hd : day t = day u) :
    (r.account t).dailyOn ≤ (r.account u).dailyOn := by
  by_cases h : r.dailyDate = some (day t)
  · rw [account_dailyOn_same h,account_dailyOn_same (hd ▸ h)]
    have hs : sub t r.lastAccounted ≤ sub u r.lastAccounted := sub_le_sub htu
    have hu : r.lastAccounted < u → 0 < sub u r.lastAccounted := sub_pos
    split_ifs with h1 h2 h2
    · omega
    · exact absurd ⟨h1.1,h1.2.1,by omega⟩ h2
    · have := hu h2.2.2
      omega
    · omega
  · rw [account_dailyOn_new h,account_dailyOn_new (hd ▸ h)]

end RuntimeState

/-- The stored runtime, or the zero value an absent map entry reads as. -/
def Engine.runtimeOf (e : Engine) (id : EquipmentID) : RuntimeState :=
  (e.runtime.lookup id).getD {}

def Engine.setRuntime (e : Engine) (id : EquipmentID) (r : RuntimeState) : Engine :=
  { e with runtime := e.runtime.insert id r }

theorem runtimeOf_setRuntime (e : Engine) (id id' : EquipmentID) (r : RuntimeState) :
    (e.setRuntime id r).runtimeOf id' = if id' = id then r else e.runtimeOf id' := by
  unfold Engine.setRuntime Engine.runtimeOf
  rw [Table.lookup_insert_ite]
  split_ifs <;> rfl

@[simp] theorem setRuntime_overrides (e : Engine) (id : EquipmentID) (r : RuntimeState) :
    (e.setRuntime id r).overrides = e.overrides := rfl

def Engine.accountLocked (e : Engine) (id : EquipmentID) (now : ℤ) : RuntimeState × Engine :=
  let r := (e.runtimeOf id).account now
  (r,e.setRuntime id r)

@[simp] theorem accountLocked_fst (e : Engine) (id : EquipmentID) (now : ℤ) :
    (e.accountLocked id now).1 = (e.runtimeOf id).account now := rfl

@[simp] theorem runtimeOf_with_overrides (e : Engine) (overrides : Table EquipmentID Override)
    (id : EquipmentID) : Engine.runtimeOf { e with overrides := overrides } id = e.runtimeOf id := rfl

def maximumOnReached (p : Profile) (r : RuntimeState) (now : ℤ) : Prop :=
  r.on ∧ 0 < p.limits.maximumOn ∧ p.limits.maximumOn ≤ sub now r.onSince

def maximumDailyOnReached (p : Profile) (r : RuntimeState) : Prop :=
  0 < p.limits.maximumDailyOn ∧ p.limits.maximumDailyOn ≤ r.dailyOn

def minimumOffPending (p : Profile) (r : RuntimeState) (now : ℤ) : Prop :=
  r.offSince ≠ 0 ∧ 0 < p.limits.minimumOff ∧ sub now r.offSince < p.limits.minimumOff

instance (p : Profile) (r : RuntimeState) (now : ℤ) : Decidable (maximumOnReached p r now) :=
  inferInstanceAs (Decidable (_ ∧ _))
instance (p : Profile) (r : RuntimeState) : Decidable (maximumDailyOnReached p r) :=
  inferInstanceAs (Decidable (_ ∧ _))
instance (p : Profile) (r : RuntimeState) (now : ℤ) : Decidable (minimumOffPending p r now) :=
  inferInstanceAs (Decidable (_ ∧ _))

def granted : Decision := { allowed := true, reason := reasonAllowed }
def refusedHard (reason : String) : Decision := { reason := reason, hardLimit := true }

def requirementDecision (r : InputRequirement) (value : Value) : Decision :=
  match value.quality with
  | .stale => refusedHard reasonInputStale
  | .good =>
    if r.requireBoolean ≠ none ∧ value.boolean ≠ r.requireBoolean then
      refusedHard reasonInputMismatch
    else granted
  | _ => refusedHard reasonInputInvalid

/-- The answers of the state reader: the `n`-th read of one evaluation, by key. -/
abbrev Reader := ℕ → Key → Except Failure Value

/-- `validateInputs` from its `n`-th requirement on: the first one not met decides. -/
def validateInputs (get : Reader) : ℕ → List InputRequirement → Except Failure Decision
  | _, [] => .ok granted
  | n, r::rs =>
    match get n r.key with
    | .error err =>
      if err.isStateNotFound then .ok (refusedHard reasonInputMissing) else .error err
    | .ok value =>
      let d := requirementDecision r value
      if d.allowed then validateInputs get (n+1) rs else .ok d

/-- What `Evaluate` has read when it releases the engine lock. -/
structure Evaluation where
  now : ℤ
  on : Bool
  profile : Profile
  runtime : RuntimeState
  mode : Mode
  override : Option Override

/-- The locked section of `Evaluate`: it accounts the runtime and drops an override
that has expired at the intent's time. No evaluation is left for unknown equipment. -/
def Engine.evaluateLocked (e : Engine) (intent : Intent) (now : ℤ) :
    Option Evaluation × Engine :=
  match e.profiles.lookup intent.equipmentID with
  | none => (none,e)
  | some profile =>
    let (runtime,e) := e.accountLocked intent.equipmentID now
    match e.overrides.lookup intent.equipmentID with
    | none => (some ⟨now,intent.on,profile,runtime,e.mode,none⟩,e)
    | some override =>
      if now < override.expiresAt then
        (some ⟨now,intent.on,profile,runtime,e.mode,some override⟩,e)
      else
        (some ⟨now,intent.on,profile,runtime,e.mode,none⟩,
          { e with overrides := e.overrides.erase intent.equipmentID })

def Evaluation.modeDecision (ev : Evaluation) : Decision :=
  if (ev.mode = .maintenance ∨ ev.mode = .manual) ∧ ev.override = none then
    { reason := reasonOverrideRequired }
  else { granted with overrideID := (ev.override.map Override.id).getD "" }

/-- The checks of `Evaluate` after the lock is released, in the source's order. -/
def Evaluation.decide (ev : Evaluation) (get : Reader) : Except Failure Decision :=
  if ev.on = false then .ok granted
  else if ev.mode = .emergencyStop then .ok (refusedHard reasonEmergencyStop)
  else if maximumOnReached ev.profile ev.runtime ev.now then .ok (refusedHard reasonMaximumOn)
  else if maximumDailyOnReached ev.profile ev.runtime then
    .ok (refusedHard reasonMaximumDailyOn)
  else if minimumOffPending ev.profile ev.runtime ev.now then .ok (refusedHard reasonMinimumOff)
  else if ev.profile.hazardous then
    match validateInputs get 0 ev.profile.requiredInputs with
    | .error err => .error err
    | .ok d => if d.allowed then .ok ev.modeDecision else .ok d
  else .ok ev.modeDecision

variable {e : Engine} {intent : Intent}

theorem evaluateLocked_unknown (now : ℤ)
    (h : e.profiles.lookup intent.equipmentID = none) : e.evaluateLocked intent now = (none,e) := by
  simp [Engine.evaluateLocked,h]

/-- All an evaluation reads, and all it changes: the accounted runtime, and an override that may be
dropped. -/
theorem evaluateLocked_known {p : Profile} (now : ℤ)
    (h : e.profiles.lookup intent.equipmentID = some p) :
    let r := (e.runtimeOf intent.equipmentID).account now
    ∃ override overrides, e.evaluateLocked intent now =
      (some ⟨now,intent.on,p,r,e.mode,override⟩,
        { e.setRuntime intent.equipmentID r with overrides := overrides }) ∧
      (overrides = e.overrides ∨ overrides = e.overrides.erase intent.equipmentID) := by
  simp only [Engine.evaluateLocked,h,Engine.accountLocked,setRuntime_overrides]
  cases e.overrides.lookup intent.equipmentID with
  | none => exact ⟨_,_,rfl,.inl rfl⟩
  | some o =>
    dsimp only
    split_ifs
    · exact ⟨_,_,rfl,.inl rfl⟩
    · exact ⟨_,_,rfl,.inr rfl⟩

/-- Evaluating accounts the runtime of the equipment it is asked about, and no other. -/
theorem evaluateLocked_runtimeOf (e : Engine) (intent : Intent) (now : ℤ) (id : EquipmentID) :
    (e.evaluateLocked intent now).2.runtimeOf id =
      if id = intent.equipmentID ∧ id ∈ e.profiles then (e.runtimeOf id).account now
      else e.runtimeOf id := by
  cases hp : e.profiles.lookup intent.equipmentID with
  | none =>
    have hn : intent.equipmentID ∉ e.profiles := AList.lookup_eq_none.mp hp
    rw [evaluateLocked_unknown now hp,if_neg (by rintro ⟨rfl,h⟩; exact hn h)]
  | some p =>
    have hmem : intent.equipmentID ∈ e.profiles := AList.lookup_isSome.mp (by simp [hp])
    obtain ⟨_,overrides,hs,_⟩ := evaluateLocked_known now hp
    have hr := runtimeOf_setRuntime e intent.equipmentID id
      ((e.runtimeOf intent.equipmentID).account now)
    rw [hs]
    refine Eq.trans hr ?_
    by_cases h : id = intent.equipmentID
    · subst h; simp [hmem]
    · simp [h]

theorem evaluateLocked_frame (e : Engine) (intent : Intent) (now : ℤ) :
    (e.evaluateLocked intent now).2.profiles = e.profiles ∧
      (e.evaluateLocked intent now).2.mode = e.mode := by
  cases hp : e.profiles.lookup intent.equipmentID with
  | none =>
    rw [evaluateLocked_unknown now hp]
    exact ⟨rfl,rfl⟩
  | some p =>
    obtain ⟨_,overrides,hs,_⟩ := evaluateLocked_known now hp
    rw [hs]
    exact ⟨rfl,rfl⟩

@[simp] theorem evaluateLocked_profiles (e : Engine) (intent : Intent) (now : ℤ) :
    (e.evaluateLocked intent now).2.profiles = e.profiles := (evaluateLocked_frame e intent now).1

@[simp] theorem evaluateLocked_mode (e : Engine) (intent : Intent) (now : ℤ) :
    (e.evaluateLocked intent now).2.mode = e.mode := (evaluateLocked_frame e intent now).2

def Intent.time (intent : Intent) (clock : ℤ) : ℤ :=
  if intent.issuedAt = 0 then clock else intent.issuedAt

def Engine.evaluate (e : Engine) (ctx : Option Failure) (clock : ℤ) (get : Reader)
    (intent : Intent) : Except Failure Decision × Engine :=
  match ctx with
  | some err => (.error err,e)
  | none =>
    match e.evaluateLocked intent (intent.time clock) with
    | (none,e) => (.ok { reason := reasonUnknownEquipment },e)
    | (some ev,e) => (ev.decide get,e)

theorem evaluate_snd (e : Engine) (clock : ℤ) (get : Reader) (intent : Intent) :
    (e.evaluate none clock get intent).2 =
      (e.evaluateLocked intent (intent.time clock)).2 := by
  unfold Engine.evaluate
  rcases e.evaluateLocked intent (intent.time clock) with ⟨_ | ev,e'⟩ <;> rfl

/-- A reported change of state; a repeated report only accounts. -/
def RuntimeState.report (r : RuntimeState) (on : Bool) (observedAt : ℤ) : RuntimeState :=
  if r.on = on then r
  else if on then
    { r with on := true, onSince := observedAt, lastAccounted := observedAt, watchdogReason := "" }
  else
    { r with
      on := false, offSince := observedAt, onSince := 0, lastAccounted := 0
      watchdogReason := "" }

def Engine.recordReported (e : Engine) (ctx : Option Failure) (id : EquipmentID) (on : Bool)
    (observedAt : ℤ) : Option Failure × Engine :=
  match ctx with
  | some err => (some err,e)
  | none =>
    if observedAt = 0 then (some (.message "reported-state timestamp is required"),e)
    else if id ∈ e.profiles then
      let (runtime,e) := e.accountLocked id observedAt
      (none,e.setRuntime id (runtime.report on observedAt))
    else (some (.message reasonUnknownEquipment),e)

def Engine.failSafeOn (e : Engine) (id : EquipmentID) : Bool :=
  ((e.profiles.lookup id).map Profile.failSafeOn).getD false

/-- Latch a watchdog reason and emit the action that restores the safe state. -/
def Engine.trip (e : Engine) (id : EquipmentID) (runtime : RuntimeState) (reason : String)
    (now : ℤ) : List WatchdogAction × Engine :=
  ([⟨id,e.failSafeOn id,reason,now⟩],e.setRuntime id { runtime with watchdogReason := reason })

/-- One turn of the loop over the overrides. -/
def Engine.expireOverride (e : Engine) (now : ℤ) (id : EquipmentID) :
    List WatchdogAction × Engine :=
  match e.overrides.lookup id with
  | none => ([],e)
  | some override =>
    if now < override.expiresAt then ([],e)
    else
      let (runtime,e) := Engine.accountLocked { e with overrides := e.overrides.erase id } id now
      if runtime.on ∧ runtime.watchdogReason = "" then e.trip id runtime reasonOverrideExpired now
      else ([],e)

/-- One turn of the loop over the profiles. -/
def Engine.checkProfile (e : Engine) (now : ℤ) (id : EquipmentID) :
    List WatchdogAction × Engine :=
  match e.profiles.lookup id with
  | none => ([],e)
  | some profile =>
    let (runtime,e) := e.accountLocked id now
    if runtime.watchdogReason ≠ "" then ([],e)
    else if maximumOnReached profile runtime now then e.trip id runtime reasonMaximumOn now
    else if runtime.on ∧ maximumDailyOnReached profile runtime then
      e.trip id runtime reasonMaximumDailyOn now
    else ([],e)

/-- A loop over map keys in the order the iteration visits them. -/
def Engine.sweep (turn : Engine → EquipmentID → List WatchdogAction × Engine) (e : Engine) :
    List EquipmentID → List WatchdogAction × Engine
  | [] => ([],e)
  | id::ids =>
    let (actions,e) := turn e id
    let (rest,e) := Engine.sweep turn e ids
    (actions++rest,e)

/-- The orders in which one `CheckWatchdogs` call visits its two maps. -/
structure VisitOrder where
  overrides : List EquipmentID
  profiles : List EquipmentID

def Engine.checkLocked (e : Engine) (now : ℤ) (order : VisitOrder) :
    List WatchdogAction × Engine :=
  let (expired,e) := e.sweep (fun e id => e.expireOverride now id) order.overrides
  let (tripped,e) := e.sweep (fun e id => e.checkProfile now id) order.profiles
  (expired++tripped,e)

def Engine.checkWatchdogs (e : Engine) (ctx : Option Failure) (now : ℤ) (order : VisitOrder) :
    Except Failure (List WatchdogAction) × Engine :=
  match ctx with
  | some err => (.error err,e)
  | none => let r := e.checkLocked now order; (.ok r.1,r.2)

def Engine.grantOverride (e : Engine) (ctx : Option Failure) (clock : ℤ) (o : Override) :
    Option Failure × Engine :=
  match ctx with
  | some err => (some err,e)
  | none =>
    match validateID o.id with
    | some err => (some err,e)
    | none =>
      if o.reason = "" ∨ o.requester = "" then
        (some (.message "override requester and reason are required"),e)
      else
        let o := { o with createdAt := if o.createdAt = 0 then clock else o.createdAt }
        if o.expiresAt ≤ o.createdAt then
          (some (.message "override expiry must follow creation"),e)
        else if o.equipmentID ∈ e.profiles then
          (none,{ e with overrides := e.overrides.insert o.equipmentID o })
        else (some (.message reasonUnknownEquipment),e)

def Engine.revokeOverride (e : Engine) (ctx : Option Failure) (id : EquipmentID) :
    Option Failure × Engine :=
  match ctx with
  | some err => (some err,e)
  | none => (none,{ e with overrides := e.overrides.erase id })

/-- Midnight at the start of 1 January 2026. -/
def newYear : ℤ := 63902822400000000000

def hour : ℤ := 3600000000000

def outletID : EquipmentID := "10000000-0000-4000-8000-000000000001"

def outlet : Profile :=
  { equipmentID := outletID, kind := .outlet, hazardous := false, failSafeOn := false
    capabilities := controlCapabilities, limits := ⟨2*hour,3*hour,0⟩, requiredInputs := [] }

def outletEngine : Engine := { profiles := (∅ : Table EquipmentID Profile).insert outletID outlet }

def outletOn : Engine := (outletEngine.recordReported none outletID true (newYear+hour)).2

example : newEngine [outlet] = .ok outletEngine := by rfl

end SafetyEngine
end AquaOS
