import AquaOS.Scenario
import Mathlib.Data.List.Sort
import Mathlib.Data.String.Basic

/-! The runs of the simulator. A step reads its sensor, decides what the equipment should do, and
reports what it does; the state that is desired is kept for the next step, and every fault may meet
every other. -/
namespace AquaOS
namespace Simulator

open Domain WordTime

structure EquipmentState where
  heater : Bool := false
  returnPump : Bool := false
  circulationPump : Bool := false
  ato : Bool := false
  dosingPump : Bool := false
  deriving DecidableEq

structure Trace (F : Type) where
  step : Int64
  timestamp : Time
  temperatureC : F
  observedTemperatureC : F
  temperatureQuality : Quality
  levelPercent : F
  leak : Bool
  desired : EquipmentState
  reported : EquipmentState
  acknowledgement : String
  brokerAvailable : Bool
  storageAvailable : Bool
  alarmCodes : List String
  safeTransitions : List String

structure Result (F : Type) where
  name : String
  seed : Int64
  traces : List (Trace F)

/-- The source of random numbers: what a seed gives, and the next normal deviate. -/
structure Generator (F R : Type) where
  newSource : Int64 → R
  normFloat64 : R → F × R

structure ModelRunner (F R : Type) where
  random : R
  temperature : F
  level : F
  desired : EquipmentState
  reported : EquipmentState
  lastObserved : F
  lastObservedAt : Time
  brokerAvailable : Bool
  storageAvailable : Bool

/-- What a step has read of its sensor. -/
structure Reading (F R : Type) where
  observed : F
  quality : Quality
  random : R
  lastObserved : F
  lastObservedAt : Time

def safeTransitions (previous next : EquipmentState) : List String :=
  (if previous.heater && !next.heater then ["heater:off"] else [])
  ++(if previous.returnPump && !next.returnPump then ["return-pump:off"] else [])
  ++(if previous.circulationPump && !next.circulationPump then ["circulation-pump:off"] else [])
  ++(if previous.ato && !next.ato then ["ato:off"] else [])
  ++(if previous.dosingPump && !next.dosingPump then ["dosing-pump:off"] else [])

/-- `sort.Strings`. -/
def sortStrings (texts : List String) : List String := texts.insertionSort (· ≤ ·)

variable {F R : Type}

/-- How the commands of a step are acknowledged, with the alarm of that. -/
def acknowledge (faults : List (Fault F)) : String × List String :=
  if hasFault faults .ackLoss then ("lost",["sim.alarm.command-acknowledgement-lost"])
  else if hasFault faults .ackDelay then ("delayed",["sim.alarm.command-acknowledgement-delayed"])
  else ("acknowledged",[])

def failureAlarm (faults : List (Fault F)) : List String :=
  if hasFault faults .returnPumpFailure then ["sim.alarm.return-pump-failure"] else []

/-- What the equipment reports of a desired state, with the alarm of a relay that is stuck. -/
def report (faults : List (Fault F)) (desired : EquipmentState) : EquipmentState × List String :=
  let (reported,alarms) : EquipmentState × List String :=
    if hasFault faults .relayStuckOn then
      ({ desired with heater := true },
        if !desired.heater then ["sim.alarm.relay-stuck-on"] else [])
    else (desired,[])
  if hasFault faults .returnPumpFailure then ({ reported with returnPump := false },alarms)
  else (reported,alarms)

namespace ModelRunner

variable [Amount F] (gen : Generator F R) (s : Scenario F) (r : ModelRunner F R)

def read (now : Time) (faults : List (Fault F)) : Reading F R :=
  let noise := faultValue faults .sensorNoise
  let drift := faultValue faults .sensorDrift*Amount.hours (now.sub s.start)
  let (deviate,next) := gen.normFloat64 r.random
  let (observed,random,quality) : F × R × Quality :=
    if noise != 0 then (r.temperature+drift+deviate*noise,next,.suspect)
    else (r.temperature+drift,r.random,.good)
  if hasFault faults .sensorStale then
    { observed := r.lastObserved
      quality :=
        if r.lastObservedAt.isZero || !now.before (r.lastObservedAt.add s.model.sensorFreshFor) then
          .stale
        else quality
      random := random, lastObserved := r.lastObserved, lastObservedAt := r.lastObservedAt }
  else
    { observed := observed, quality := quality, random := random, lastObserved := observed
      lastObservedAt := now }

/-- The heater by the reading, with its alarms. -/
def superviseHeater (reading : Reading F R) (desired : EquipmentState) :
    EquipmentState × List String :=
  if reading.quality = .stale then ({ desired with heater := false },["sim.alarm.sensor-stale"])
  else if reading.observed ≤ s.model.temperatureLowC then ({ desired with heater := true },[])
  else if reading.observed ≥ s.model.temperatureHighC then
    ({ desired with heater := false },["sim.alarm.high-temperature"])
  else (desired,[])

def superviseLevel (desired : EquipmentState) : EquipmentState :=
  if r.level ≤ s.model.levelLowPercent then { desired with ato := true }
  else if r.level ≥ s.model.levelHighPercent then { desired with ato := false }
  else desired

/-- The state that is desired after a reading, with the alarms raised so far. -/
def supervise (reading : Reading F R) (leak : Bool) : EquipmentState × List String :=
  let (desired,alarms) := superviseHeater s reading
    { r.desired with returnPump := true, circulationPump := true, dosingPump := false }
  if leak then ({},alarms++["sim.alarm.leak"]) else (superviseLevel s r desired,alarms)

def advancePhysics : ModelRunner F R :=
  let hours : F := Amount.hours s.step
  let temperature := r.temperature+
    (s.model.ambientTemperatureC-r.temperature)*s.model.ambientExchangePerHour*hours
  let level := r.level-s.model.evaporationPercentPerHour*hours
  let level := if r.reported.ato then level+s.model.atoFillPercentPerHour*hours else level
  { r with
    temperature :=
      if r.reported.heater then temperature+s.model.heaterInfluenceCPerHour*hours else temperature
    level := max 0 (min Amount.hundred level) }

def tick (step : Int64) : Trace F × ModelRunner F R :=
  let now := s.start.add (step*s.step)
  let faults := s.activeFaults step
  let reading := r.read gen s now faults
  let leak := hasFault faults .leak
  let (desired,raised) := r.supervise s reading leak
  let (ack,acknowledged) := acknowledge faults
  let (reported,stuck) := report faults desired
  let broker := !hasFault faults .brokerLoss
  let storage := !hasFault faults .storageLoss
  let next := advancePhysics s
    { r with
      random := reading.random, desired := desired, reported := reported
      lastObserved := reading.lastObserved, lastObservedAt := reading.lastObservedAt
      brokerAvailable := broker, storageAvailable := storage }
  ({ step := step, timestamp := now, temperatureC := Amount.round next.temperature
     observedTemperatureC := Amount.round reading.observed, temperatureQuality := reading.quality
     levelPercent := Amount.round next.level, leak := leak, desired := desired
     reported := reported, acknowledgement := ack, brokerAvailable := broker
     storageAvailable := storage
     alarmCodes := sortStrings (raised++failureAlarm faults++acknowledged++stuck)
     safeTransitions := sortStrings (safeTransitions r.desired desired) },next)

/-- The steps that are left, from the given one on. -/
def loop : ℕ → Int64 → ModelRunner F R → List (Trace F)
  | 0, _, _ => []
  | n+1, step, r =>
    let (trace,next) := r.tick gen s step
    trace::loop n (step+1) next

end ModelRunner

def initialState : EquipmentState := { returnPump := true, circulationPump := true }

def newRunner [Amount F] (gen : Generator F R) (s : Scenario F) : ModelRunner F R where
  random := gen.newSource s.seed
  temperature := s.model.initialTemperatureC
  level := s.model.initialLevelPercent
  desired := initialState
  reported := initialState
  lastObserved := 0
  lastObservedAt := .zero
  brokerAvailable := true
  storageAvailable := true

def run [Amount F] (gen : Generator F R) (s : Scenario F) : Except Failure (Result F) :=
  match s.validate with
  | some err => .error err
  | none => .ok ⟨s.name,s.seed,ModelRunner.loop gen s s.steps.toInt.toNat 0 (newRunner gen s)⟩

section Steps

inductive Output
  | heater | returnPump | circulationPump | ato | dosingPump
  deriving DecidableEq

def Output.all : List Output := [.heater,.returnPump,.circulationPump,.ato,.dosingPump]

def Output.turnedOff : Output → String
  | .heater => "heater:off"
  | .returnPump => "return-pump:off"
  | .circulationPump => "circulation-pump:off"
  | .ato => "ato:off"
  | .dosingPump => "dosing-pump:off"

def EquipmentState.on (e : EquipmentState) : Output → Bool
  | .heater => e.heater
  | .returnPump => e.returnPump
  | .circulationPump => e.circulationPump
  | .ato => e.ato
  | .dosingPump => e.dosingPump

/-- What a trace must show, given the faults that are active at its step and the state desired
before it. -/
structure Trace.Sound (faults : List (Fault F)) (previous : EquipmentState) (t : Trace F) :
    Prop where
  leak : (∃ fault ∈ faults, fault.type = .leak) →
    (∀ o, t.desired.on o = false) ∧ "sim.alarm.leak" ∈ t.alarmCodes
  stale : t.temperatureQuality = .stale →
    t.desired.heater = false ∧ "sim.alarm.sensor-stale" ∈ t.alarmCodes
  heater : t.reported.heater ≠ t.desired.heater → t.reported.heater = true ∧
    (∃ fault ∈ faults, fault.type = .relayStuckOn) ∧ "sim.alarm.relay-stuck-on" ∈ t.alarmCodes
  returnPump : t.reported.returnPump ≠ t.desired.returnPump → t.reported.returnPump = false ∧
    (∃ fault ∈ faults, fault.type = .returnPumpFailure) ∧
      "sim.alarm.return-pump-failure" ∈ t.alarmCodes
  others : ∀ o, o ≠ .heater → o ≠ .returnPump → t.reported.on o = t.desired.on o
  transitions : t.safeTransitions.Perm
    ((Output.all.filter fun o => previous.on o && !t.desired.on o).map Output.turnedOff)

theorem mem_sortStrings {texts : List String} {text : String} :
    text ∈ sortStrings texts ↔ text ∈ texts :=
  (List.perm_insertionSort _ texts).mem_iff

theorem safeTransitions_eq (previous next : EquipmentState) :
    safeTransitions previous next =
      (Output.all.filter fun o => previous.on o && !next.on o).map Output.turnedOff := by
  have hfilter : ∀ (p : Output → Bool) (os : List Output), (os.filter p).map Output.turnedOff =
      os.flatMap fun o => if p o then [o.turnedOff] else [] := by
    intro p os
    induction os with
    | nil => rfl
    | cons o os ih => cases hp : p o <;> simp [hp,ih]
  rw [hfilter]
  simp [safeTransitions,Output.all,EquipmentState.on,Output.turnedOff]

/-- The report differs in the heater of a stuck relay and in the pump of a failure only. -/
theorem report_heater (faults : List (Fault F)) (desired : EquipmentState)
    (h : (report faults desired).1.heater ≠ desired.heater) :
    (report faults desired).1.heater = true ∧ hasFault faults .relayStuckOn = true ∧
      "sim.alarm.relay-stuck-on" ∈ (report faults desired).2 := by
  unfold report at h ⊢
  cases hstuck : hasFault faults .relayStuckOn with
  | false => cases hfailure : hasFault faults .returnPumpFailure <;> simp [hstuck,hfailure] at h
  | true =>
    cases hheater : desired.heater with
    | true => cases hfailure : hasFault faults .returnPumpFailure <;> simp [hstuck,hfailure,hheater] at h
    | false => cases hfailure : hasFault faults .returnPumpFailure <;> simp

theorem report_returnPump (faults : List (Fault F)) (desired : EquipmentState)
    (h : (report faults desired).1.returnPump ≠ desired.returnPump) :
    (report faults desired).1.returnPump = false ∧ hasFault faults .returnPumpFailure = true := by
  unfold report at h ⊢
  cases hfailure : hasFault faults .returnPumpFailure with
  | true => simp
  | false => cases hstuck : hasFault faults .relayStuckOn <;> simp [hstuck,hfailure] at h

theorem report_others (faults : List (Fault F)) (desired : EquipmentState) {o : Output}
    (hheater : o ≠ .heater) (hpump : o ≠ .returnPump) :
    (report faults desired).1.on o = desired.on o := by
  unfold report
  cases o with
  | heater => exact absurd rfl hheater
  | returnPump => exact absurd rfl hpump
  | _ =>
    cases hasFault faults .relayStuckOn <;> cases hasFault faults .returnPumpFailure <;> rfl

section Ticks

variable [Amount F] {gen : Generator F R} {s : Scenario F} {r : ModelRunner F R}

open ModelRunner

theorem superviseHeater_stale {reading : Reading F R} (h : reading.quality = .stale)
    (desired : EquipmentState) :
    superviseHeater s reading desired =
      ({ desired with heater := false },["sim.alarm.sensor-stale"]) := by
  rw [superviseHeater,if_pos h]

theorem superviseLevel_heater (desired : EquipmentState) :
    (superviseLevel s r desired).heater = desired.heater := by
  unfold superviseLevel
  split_ifs <;> rfl

theorem supervise_spec (reading : Reading F R) (leak : Bool) :
    (leak = true → (r.supervise s reading leak).1 = {} ∧
      "sim.alarm.leak" ∈ (r.supervise s reading leak).2) ∧
    (reading.quality = .stale → (r.supervise s reading leak).1.heater = false ∧
      "sim.alarm.sensor-stale" ∈ (r.supervise s reading leak).2) := by
  unfold supervise
  refine ⟨?_,fun hstale => ?_⟩
  · rintro rfl
    simp
  · rw [superviseHeater_stale hstale]
    cases leak with
    | true => simp
    | false => simp [superviseLevel_heater]

theorem tick_sound (gen : Generator F R) (s : Scenario F) (r : ModelRunner F R) (step : Int64) :
    (r.tick gen s step).1.Sound (s.activeFaults step) r.desired := by
  let now := s.start.add (step*s.step)
  let faults := s.activeFaults step
  let reading := r.read gen s now faults
  let decided := r.supervise s reading (hasFault faults .leak)
  -- the alarms of the parts of a step, before they are sorted
  have halarm : ∀ text, text ∈ decided.2 ∨ text ∈ failureAlarm faults ∨
      text ∈ (report faults decided.1).2 → text ∈ (r.tick gen s step).1.alarmCodes := by
    intro text htext
    refine mem_sortStrings.mpr ?_
    rcases htext with h | h | h
    · exact List.mem_append_left _ (List.mem_append_left _ (List.mem_append_left _ h))
    · exact List.mem_append_left _ (List.mem_append_left _ (List.mem_append_right _ h))
    · exact List.mem_append_right _ h
  obtain ⟨hleak,hstale⟩ := supervise_spec (s := s) (r := r) reading (hasFault faults .leak)
  refine ⟨fun h => ?_,fun h => ?_,fun h => ?_,fun h => ?_,fun o => report_others faults decided.1,?_⟩
  · obtain ⟨hoff,hraised⟩ := hleak (hasFault_iff.mpr h)
    refine ⟨fun o => ?_,halarm _ (.inl hraised)⟩
    change decided.1.on o = false
    rw [show decided.1 = {} from hoff]
    cases o <;> rfl
  · obtain ⟨hoff,hraised⟩ := hstale h
    exact ⟨hoff,halarm _ (.inl hraised)⟩
  · obtain ⟨hon,hstuck,hraised⟩ := report_heater faults decided.1 h
    exact ⟨hon,hasFault_iff.mp hstuck,halarm _ (.inr (.inr hraised))⟩
  · obtain ⟨hoff,hfailure⟩ := report_returnPump faults decided.1 h
    refine ⟨hoff,hasFault_iff.mp hfailure,halarm _ (.inr (.inl ?_))⟩
    rw [failureAlarm,if_pos hfailure]
    exact List.mem_singleton_self _
  · rw [← safeTransitions_eq]
    exact List.perm_insertionSort _ _

theorem tick_desired (gen : Generator F R) (s : Scenario F) (r : ModelRunner F R) (step : Int64) :
    (r.tick gen s step).2.desired = (r.tick gen s step).1.desired := rfl

end Ticks

def desiredBefore (first : EquipmentState) (traces : List (Trace F)) : ℕ → EquipmentState
  | 0 => first
  | i+1 =>
    match traces[i]? with
    | some t => t.desired
    | none => {}

theorem desiredBefore_cons (first : EquipmentState) (t : Trace F) (traces : List (Trace F)) (i : ℕ) :
    desiredBefore first (t::traces) (i+1) = desiredBefore t.desired traces i := by
  cases i <;> rfl

end Steps

section Runs

open ModelRunner

variable [Amount F] {gen : Generator F R} {s : Scenario F}

theorem length_loop (n : ℕ) (step : Int64) (r : ModelRunner F R) :
    (loop gen s n step r).length = n := by
  induction n generalizing step r with
  | zero => rfl
  | succ n ih => exact congrArg (·+1) (ih (step+1) (r.tick gen s step).2)

theorem loop_trace {n i : ℕ} {step : Int64} {r : ModelRunner F R} {t : Trace F}
    (h : (loop gen s n step r)[i]? = some t) :
    ∃ r' : ModelRunner F R, t = (r'.tick gen s (step+Int64.ofNat i)).1 ∧
      r'.desired = desiredBefore r.desired (loop gen s n step r) i := by
  induction n generalizing step r i with
  | zero => cases h
  | succ n ih =>
    have hloop : loop gen s (n+1) step r =
        (r.tick gen s step).1::loop gen s n (step+1) (r.tick gen s step).2 := rfl
    rw [hloop] at h ⊢
    cases i with
    | zero => exact ⟨r,by rw [← Option.some.inj h]; simp,rfl⟩
    | succ i =>
      obtain ⟨r',ht,hr⟩ := ih h
      have hstep : step+1+Int64.ofNat i = step+Int64.ofNat (i+1) := by
        rw [Int64.ofNat_add,Int64.add_assoc,Int64.add_comm 1]
        rfl
      rw [hstep] at ht
      refine ⟨r',ht,?_⟩
      rw [desiredBefore_cons,← tick_desired,hr]

theorem run_ok (h : s.validate = none) :
    run gen s = .ok ⟨s.name,s.seed,loop gen s s.steps.toInt.toNat 0 (newRunner gen s)⟩ := by
  rw [run,h]

theorem run_trace (h : s.validate = none) {result : Result F} (hrun : run gen s = .ok result)
    {i : ℕ} {t : Trace F} (ht : result.traces[i]? = some t) :
    (i : ℤ) < s.steps.toInt ∧ (Int64.ofNat i).toInt = i ∧
      ∃ r : ModelRunner F R, t = (r.tick gen s (Int64.ofNat i)).1 ∧
        r.desired = desiredBefore initialState result.traces i := by
  rw [run_ok h] at hrun
  obtain rfl := Except.ok.inj hrun
  have hbounds := validate_bounded h
  have hpos := hbounds.steps_pos
  have hle := hbounds.steps_le
  obtain ⟨hi,_⟩ := List.getElem?_eq_some_iff.mp ht
  rw [length_loop] at hi
  obtain ⟨r,hr,hdesired⟩ := loop_trace ht
  rw [Int64.zero_add] at hr
  exact ⟨by omega,Int64.toInt_ofNat_of_lt (by omega),r,hr,hdesired⟩

/-- Every run of an accepted scenario has a trace for each step, and each trace is sound. -/
theorem simulation_sound (gen : Generator F R) (s : Scenario F) (h : s.validate = none) :
    ∃ result : Result F, run gen s = .ok result ∧ result.traces.length = s.steps.toInt.toNat ∧
      ∀ (i : ℕ) (t : Trace F), result.traces[i]? = some t → t.step.toInt = i ∧
        t.Sound (s.activeFaults t.step) (desiredBefore initialState result.traces i) := by
  refine ⟨_,run_ok h,length_loop _ _ _,fun i t ht => ?_⟩
  obtain ⟨_,hindex,r,rfl,hdesired⟩ := run_trace h (run_ok h) ht
  refine ⟨hindex,?_⟩
  rw [← hdesired]
  exact tick_sound gen s r (Int64.ofNat i)

structure Whole where
  value : ℤ
  deriving DecidableEq

instance : Amount Whole where
  zero := ⟨0⟩
  add x y := ⟨x.value+y.value⟩
  sub x y := ⟨x.value-y.value⟩
  mul x y := ⟨x.value*y.value⟩
  le x y := x.value ≤ y.value
  lt x y := x.value < y.value
  beq x y := x.value == y.value
  max x y := if x.value ≤ y.value then y else x
  min x y := if x.value ≤ y.value then x else y
  hundred := ⟨100⟩
  isNaN _ := false
  isInf _ := false
  hours d := ⟨d.toInt/3600000000000⟩
  round := id
  decidableLE x y := inferInstanceAs (Decidable (x.value ≤ y.value))
  decidableLT x y := inferInstanceAs (Decidable (x.value < y.value))

def stillGenerator : Generator Whole Unit := ⟨fun _ => (),fun _ => (⟨0⟩,())⟩

def leakScenario : Scenario Whole where
  schemaVersion := 1
  name := "leak"
  seed := 7
  start := .ofWord 1
  step := hour
  steps := 3
  model :=
    { initialTemperatureC := ⟨20⟩, ambientTemperatureC := ⟨20⟩, initialLevelPercent := ⟨80⟩
      temperatureLowC := ⟨24⟩, temperatureHighC := ⟨26⟩, levelLowPercent := ⟨70⟩
      levelHighPercent := ⟨90⟩, ambientExchangePerHour := ⟨0⟩, heaterInfluenceCPerHour := ⟨1⟩
      evaporationPercentPerHour := ⟨1⟩, atoFillPercentPerHour := ⟨5⟩, sensorFreshFor := hour }
  faults := [⟨1,1,.leak,⟨0⟩⟩,⟨1,0,.relayStuckOn,⟨0⟩⟩]

theorem leakScenario_sound :
    leakScenario.validate = none ∧
      ∃ result : Result Whole, run stillGenerator leakScenario = .ok result ∧
        (∀ (i : ℕ) (t : Trace Whole), result.traces[i]? = some t →
          t.Sound (leakScenario.activeFaults t.step)
            (desiredBefore initialState result.traces i)) ∧
        result.traces.map Trace.safeTransitions =
          [[],["circulation-pump:off","heater:off","return-pump:off"],[]] ∧
        result.traces.map Trace.alarmCodes =
          [[],["sim.alarm.leak","sim.alarm.relay-stuck-on"],[]] := by
  have hvalid : leakScenario.validate = none := by decide
  obtain ⟨result,hrun,_,hsound⟩ := simulation_sound stillGenerator leakScenario hvalid
  refine ⟨hvalid,result,hrun,fun i t ht => (hsound i t ht).2,?_⟩
  obtain rfl := Except.ok.inj ((run_ok hvalid).symm.trans hrun)
  decide

end Runs

end Simulator
end AquaOS
