import AquaOS.Evaluator
import AquaOS.AcceptedConfig

/-! Which active alarms Home Assistant is told about. The evaluator knows a configured rule to the
engine by an identifier it derives from the configured one; the status counts alarms by the
configured one. -/
namespace AquaOS

open Domain Transition

namespace Alarms

/-- `List`; the sort is by the time of the first observation. -/
def Manager.list (m : Manager) (ctx : Option Failure) (status : Option Status) :
    Except Failure (List Alarm) :=
  match ctx with
  | some err => .error err
  | none =>
    .ok ((m.alarms.values.filter fun a => status = none ∨ some a.status = status).insertionSort
      fun a b => a.firstObserved ≤ b.firstObserved)

end Alarms

namespace App

open Alarms CanonicalState
open AquaOS.Configuration (AlarmRule Config Library NotificationTarget Sensor benchConfig benchLibrary)

/-- One turn of the loop of `configuredThresholdRules`; an unknown sensor reads as the empty one. -/
def configuredThresholdRule (sensors : Table String Sensor) (r : AlarmRule) :
    Except Failure ThresholdRule :=
  match sensors.lookup r.sensorID with
  | some s =>
    if s.entityID = "" then
      .error (.message ("alarm "++r.id++" sensor "++r.sensorID++" has no runtime entity_id"))
    else
      .ok { id := r.id, name := r.name, sensorID := s.entityID, condition := r.condition
            threshold := r.threshold, thresholdHigh := r.thresholdHigh, severity := r.severity
            delay := r.delay, clearDelay := r.clearDelay, latching := r.latching
            scale := if s.calibration.enabled then s.calibration.scale else 1
            offset := if s.calibration.enabled then s.calibration.offset else 0 }
  | none => .error (.message ("alarm "++r.id++" sensor "++r.sensorID++" has no runtime entity_id"))

def configuredThresholdRules (c : Config) : Except Failure (List ThresholdRule) :=
  c.alarms.rules.mapM (configuredThresholdRule (Table.tabulate Sensor.id c.inventory.sensors))

def alarmEvaluator (c : Config) : Except Failure Evaluator :=
  match configuredThresholdRules c with
  | .error err => .error (.wrapped "construct configured alarm rules" err)
  | .ok rules =>
    match newEvaluator rules with
    | .error err => .error (.wrapped "construct alarm evaluator" err)
    | .ok e => .ok e

/-- The rules Home Assistant is told about, under their configured identifiers. -/
def notificationRuleIDs (c : Config) : List RuleID :=
  (c.alarms.rules.filter (.homeAssistant ∈ ·.notifications)).map AlarmRule.id

structure StatusMessage where
  status : String
  activeAlarmCount : ℕ
  notificationAlarmCount : ℕ
  deriving DecidableEq

def counted (ids : List RuleID) (active : List Alarm) : List Alarm := active.filter (·.ruleID ∈ ids)

/-- `publishStatus` up to the encoding of its message. -/
def publishStatus (ids : List RuleID) (ctx : Option Failure) (m : Alarms.Manager) :
    Except Failure StatusMessage :=
  match m.list ctx (some .active) with
  | .error err => .error err
  | .ok active => .ok ⟨"online",active.length,(counted ids active).length⟩

/-- The engine, and for each alarm the configured rule the evaluator last raised it for. -/
structure Watch where
  engine : Alarms.Manager
  raisedFor : AlarmID → Option String := fun _ => none

/-- Remember for whom an observation raised an alarm. -/
def Watch.observe (w : Watch) (a : Answer) (o : Observation) (rule : Option String) :
    Option Failure × Watch :=
  let r := w.engine.observe a o
  (r.1.2.2,⟨r.2,if r.1.2.1 = .raised then Function.update w.raisedFor r.1.1.id rule
    else w.raisedFor⟩)

inductive WatchCall
  | event (answers : RuleID → Answer) (value : StateValue) (correlationID : CorrelationID)
  | engine (c : AlarmCall)

/-- A state event handled by the evaluator of a configuration, or a call by anyone else. -/
def Watch.call (p : Platform) (c : Config) (w : Watch) : WatchCall → Watch
  | .event answers value correlationID =>
    match alarmEvaluator c with
    | .error _ => w
    | .ok e =>
      (e.handle p (fun r o w => w.observe (answers o.ruleID) o (some r.id)) value correlationID w).2
  | .engine (.observe a o) => (w.observe a o none).2
  | .engine call => ⟨w.engine.call call,w.raisedFor⟩

/-- An alarm raised for a configured rule bears the derived identifier of that rule. -/
structure Watch.Attributed (p : Platform) (w : Watch) : Prop where
  keyed : w.engine.Keyed
  owner : ∀ id rule a, w.raisedFor id = some rule → w.engine.alarms.lookup id = some a →
    a.ruleID = thresholdRuleID p rule

section Runs

variable {p : Platform} {c : Config} {w : Watch}

theorem watch_observe_attributed (h : w.Attributed p) (a : Answer) (o : Observation)
    (rule : Option String) (hrule : ∀ r, rule = some r → o.ruleID = thresholdRuleID p r) :
    (w.observe a o rule).2.Attributed p := by
  obtain ⟨hkeyed,hstep⟩ := observe_attributed h.keyed a o
  refine ⟨hkeyed,fun id r b hr hb => ?_⟩
  obtain ⟨hraised,hkept⟩ := hstep id b hb
  simp only [Watch.observe] at hr
  have hbefore : ((w.engine.observe a o).1.2.1 ≠ .raised ∨ id ≠ (w.engine.observe a o).1.1.id) →
      w.raisedFor id = some r → b.ruleID = thresholdRuleID p r := by
    intro hnot hfor
    obtain ⟨b',hb',hsame⟩ := hkept hnot
    rw [← hsame]
    exact h.owner id r b' hfor hb'
  split_ifs at hr with htr
  · by_cases hid : id = (w.engine.observe a o).1.1.id
    · rw [hid,Function.update_self] at hr
      exact (hraised htr hid).trans (hrule r hr)
    · rw [Function.update_of_ne hid] at hr
      exact hbefore (.inr hid) hr
  · exact hbefore (.inl htr) hr

theorem watch_other_attributed (h : w.Attributed p) (call : AlarmCall)
    (hc : ∀ a o, call ≠ .observe a o) : Watch.Attributed p ⟨w.engine.call call,w.raisedFor⟩ := by
  obtain ⟨hkeyed,hkept⟩ := call_attributed h.keyed call hc
  refine ⟨hkeyed,fun id r b hr hb => ?_⟩
  obtain ⟨b',hb',hsame⟩ := hkept id b hb
  rw [← hsame]
  exact h.owner id r b' hr hb'

theorem watch_call_attributed (h : w.Attributed p) (call : WatchCall) :
    (w.call p c call).Attributed p := by
  cases call with
  | event answers value correlationID =>
    unfold Watch.call
    dsimp only
    cases alarmEvaluator c with
    | error err => exact h
    | ok e =>
      refine Evaluator.handle_invariant (P := Watch.Attributed p) e (fun r active evidence w hw => ?_) h
      refine watch_observe_attributed hw _ _ _ fun r' hr' => ?_
      obtain rfl := Option.some.inj hr'
      rfl
  | engine call =>
    cases call with
    | observe a o => exact watch_observe_attributed h a o none fun r hr => nomatch hr
    | registerRule ctx rule | acknowledge a id
    | clear a id => exact watch_other_attributed h _ (by simp)

theorem watch_run_attributed (limit : ℤ) (calls : List WatchCall) :
    (run (Watch.call p c) ⟨newManager limit,fun _ => none⟩ calls).Attributed p := by
  refine invariant_always (I := Watch.Attributed p)
    (fun _ call hw => watch_call_attributed hw call) ⟨⟨?_,?_⟩,?_⟩ calls
  · simp [newManager]
  · simp [newManager]
  · simp [newManager]

theorem mem_list {m : Alarms.Manager} {active : List Alarm}
    (h : m.list none (some .active) = .ok active) (a : Alarm) :
    a ∈ active ↔ (∃ id, m.alarms.lookup id = some a) ∧ a.status = .active := by
  obtain rfl := Except.ok.inj h
  rw [(List.perm_insertionSort _ _).mem_iff,List.mem_filter,Table.mem_values]
  simp

end Runs

/-- An active alarm the evaluator raised for a configured rule is counted exactly if the rule is
one Home Assistant is told about, if and only if that also decides whether one of those rules is
configured under the identifier derived from the first. -/
theorem counted_iff_notified_iff (p : Platform) (c : Config) (limit : ℤ) (calls : List WatchCall)
    {r : AlarmRule} {id : AlarmID} {a : Alarm} {active : List Alarm}
    (hfor : (run (Watch.call p c) ⟨newManager limit,fun _ => none⟩ calls).raisedFor id = some r.id)
    (ha : (run (Watch.call p c) ⟨newManager limit,fun _ => none⟩ calls).engine.alarms.lookup id =
      some a) (hactive : a.status = .active)
    (hlist : (run (Watch.call p c) ⟨newManager limit,fun _ => none⟩ calls).engine.list none
      (some .active) = .ok active) :
    publishStatus (notificationRuleIDs c) none
        (run (Watch.call p c) ⟨newManager limit,fun _ => none⟩ calls).engine =
      .ok ⟨"online",active.length,(counted (notificationRuleIDs c) active).length⟩ ∧
    ((a ∈ counted (notificationRuleIDs c) active ↔ .homeAssistant ∈ r.notifications) ↔
      ((∃ r' ∈ c.alarms.rules, .homeAssistant ∈ r'.notifications ∧ r'.id = thresholdRuleID p r.id) ↔
        .homeAssistant ∈ r.notifications)) := by
  have howner := (watch_run_attributed limit calls).owner id r.id a hfor ha
  have hmem : a ∈ active := (mem_list hlist a).mpr ⟨⟨id,ha⟩,hactive⟩
  have hcounted : a ∈ counted (notificationRuleIDs c) active ↔
      ∃ r' ∈ c.alarms.rules, .homeAssistant ∈ r'.notifications ∧ r'.id = thresholdRuleID p r.id := by
    simp [counted,notificationRuleIDs,hmem,howner,and_assoc]
  refine ⟨?_,by rw [hcounted]⟩
  unfold publishStatus
  rw [hlist]

section Samples

def hotTankRule (targets : List NotificationTarget) : AlarmRule :=
  { id := "tank-hot", name := "Tank hot", sensorID := "probe", condition := .above, threshold := 30
    severity := .warning, notifications := targets }

/-- The bench with a broker, Home Assistant and one alarm rule on one sensor. -/
def hotTankConfig (targets : List NotificationTarget) : Config :=
  { benchConfig with
    mqtt := { enabled := true, siteID := "tank", broker := "tcp://broker", clientID := "aquaos"
              homeAssistant := { enabled := true } }
    inventory := ⟨[{ id := "node" }],
      [{ id := "probe", deviceID := "node", unit := .celsius,
         entityID := "99999999-9999-4999-8999-999999999999" }],[]⟩
    alarms := ⟨[hotTankRule targets]⟩ }

def hotTankLibrary : Library :=
  { benchLibrary with
    parseURL := fun text =>
      if text = "tcp://broker" then some ⟨"tcp","broker",false,"",""⟩ else benchLibrary.parseURL text }

def hotTankRun : List WatchCall :=
  [.engine (.registerRule none (hotTank.rule plainPlatform)),
    .event (fun _ => { now := 1, alarmID := .ok "first" }) hotReading
      "aaaaaaaa-aaaa-4aaa-8aaa-aaaaaaaaaaaa"]

def hotTankWatch (targets : List NotificationTarget) : Watch :=
  run (Watch.call plainPlatform (hotTankConfig targets)) ⟨newManager 16,fun _ => none⟩ hotTankRun

end Samples

theorem logged_tank_not_counted :
    ∃ a active, (hotTankWatch [.log]).engine.alarms.lookup "first" = some a ∧
      (hotTankWatch [.log]).engine.list none (some .active) = .ok active ∧
      (a ∈ counted (notificationRuleIDs (hotTankConfig [.log])) active ↔
        .homeAssistant ∈ (hotTankRule [.log]).notifications) := by
  obtain ⟨a,ha⟩ : ∃ a, (hotTankWatch [.log]).engine.alarms.lookup "first" = some a :=
    Option.isSome_iff_exists.mp (by decide)
  have hactive : ((hotTankWatch [.log]).engine.alarms.lookup "first").map Alarm.status =
      some .active := by decide
  rw [ha] at hactive
  refine ⟨a,_,ha,rfl,?_⟩
  refine (counted_iff_notified_iff plainPlatform (hotTankConfig [.log]) 16 hotTankRun
    (by decide) ha (Option.some.inj hactive) rfl).2.mpr ?_
  decide

/-- An alarm of a rule Home Assistant should be told about is active and not counted. -/
theorem hot_tank_not_counted :
    (hotTankConfig [.homeAssistant]).validate hotTankLibrary = none ∧
      hotTankRule [.homeAssistant] ∈ (hotTankConfig [.homeAssistant]).alarms.rules ∧
      (hotTankWatch [.homeAssistant]).raisedFor "first" = some (hotTankRule [.homeAssistant]).id ∧
      ((hotTankWatch [.homeAssistant]).engine.alarms.lookup "first").map Alarm.status =
        some .active ∧
      publishStatus (notificationRuleIDs (hotTankConfig [.homeAssistant])) none
        (hotTankWatch [.homeAssistant]).engine = .ok ⟨"online",1,0⟩ := by
  decide +kernel

end App
end AquaOS
