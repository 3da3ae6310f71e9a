import AquaOS.Table
import AquaOS.Domain

/-! The alarm engine: rules, their temporal state, and one alarm per condition episode.
`Observe` decides and stores inside one lock section; its event is emitted afterwards and
changes nothing in the engine, so a call is one function of the engine and of what the
environment answers. Copies handed out by the engine are values here. -/
namespace AquaOS
namespace Alarms

open Domain Timeline

inductive Severity
  | debug | info | warning | critical | other (text : String)
  deriving DecidableEq

def Severity.rank : Severity → ℕ
  | .debug => 1
  | .info => 2
  | .warning => 3
  | .critical => 4
  | .other _ => 0

/-- The status of an alarm; `unset` is the empty text of the zero alarm. -/
inductive Status
  | unset | active | acknowledged | cleared
  deriving DecidableEq

def Status.text : Status → String
  | unset => ""
  | active => "active"
  | acknowledged => "acknowledged"
  | cleared => "cleared"

structure Subject where
  kind : String
  id : EntityID
  deriving DecidableEq

structure Evidence where
  code : String
  message : String
  metadata : Option (Table String String) := none
  deriving DecidableEq

structure Rule where
  id : RuleID
  code : String
  name : String
  subject : Subject
  severity : Severity
  debounce : ℤ := 0
  hysteresis : ℤ := 0
  latching : Bool
  deriving DecidableEq

structure Observation where
  ruleID : RuleID
  active : Bool
  severity : Severity := .other ""
  observedAt : ℤ
  evidence : Evidence
  correlationID : CorrelationID := ""

structure Alarm where
  id : AlarmID
  ruleID : RuleID
  code : String
  subject : Subject
  severity : Severity
  status : Status
  conditionActive : Bool
  evidence : List Evidence
  firstObserved : ℤ
  lastObserved : ℤ
  occurrenceCount : ℕ
  acknowledgedAt : Option ℤ := none
  clearedAt : Option ℤ := none
  correlationID : CorrelationID
  deriving DecidableEq

def Alarm.zero : Alarm :=
  { id := "", ruleID := "", code := "", subject := ⟨"",""⟩, severity := .other ""
    status := .unset, conditionActive := false, evidence := [], firstObserved := 0
    lastObserved := 0, occurrenceCount := 0, correlationID := "" }

inductive Transition
  | none | debouncing | raised | escalated | clearPending | cleared | acknowledged | ignoredStale
  deriving DecidableEq

def notFound : Failure := .message "alarm or rule not found"
def duplicate : Failure := .message "alarm or rule already exists"
def invalidTransition : Failure := .message "invalid alarm transition"
def conditionStillActive : Failure := .message "underlying alarm condition remains active"

/-- A rule with what its observations have led to. The empty alarm ID stands for no current
alarm, the zero instant for no observation. -/
structure RuleState where
  rule : Rule
  pendingActive : Option ℤ := none
  pendingClear : Option ℤ := none
  lastObservation : ℤ := 0
  current : AlarmID := ""
  deriving DecidableEq

structure Manager where
  rules : Table RuleID RuleState := ∅
  alarms : Table AlarmID Alarm := ∅
  evidenceLimit : ℕ := 16
  limit_pos : 1 ≤ evidenceLimit := by decide

/-- `NewManagerWithDependencies`, which keeps at least one evidence entry. -/
def newManager (evidenceLimit : ℤ) : Manager :=
  ⟨∅,∅,(max 1 evidenceLimit).toNat,by omega⟩

/-- What the environment answers to a call: the context, the clock, new identifiers, and
whether the lifecycle event could be emitted. -/
structure Answer where
  ctx : Option Failure := none
  now : ℤ := 0
  correlationID : Except Failure CorrelationID := .error (.message "no identifier")
  alarmID : Except Failure AlarmID := .error (.message "no identifier")
  emitted : Option Failure := none

def validateRule (r : Rule) : Option Failure :=
  match validateID r.id with
  | some err => some (.wrapped "rule ID" err)
  | none =>
    if r.code = "" ∨ r.name = "" ∨ r.subject.kind = "" then
      some (.message "rule code, name, and subject kind are required")
    else
      match validateID r.subject.id with
      | some err => some (.wrapped "subject ID" err)
      | none =>
        if r.severity.rank = 0 then some (.message "rule severity is invalid")
        else if r.debounce < 0 ∨ r.hysteresis < 0 then
          some (.message "debounce and hysteresis cannot be negative")
        else none

def Manager.registerRule (m : Manager) (ctx : Option Failure) (rule : Rule) :
    Except Failure Manager :=
  match ctx, validateRule rule with
  | some err, _ | none, some err => .error err
  | none, none =>
    if rule.id ∈ m.rules then .error duplicate
    else .ok { m with rules := m.rules.insert rule.id { rule := rule } }

/-- Evidence without code and message is not kept, and only the newest entries are. -/
def appendEvidence (values : List Evidence) (value : Evidence) (limit : ℕ) : List Evidence :=
  if value.code = "" ∧ value.message = "" then values
  else (values++[value]).drop ((values++[value]).length-limit)

def Manager.alarmOf (m : Manager) (id : AlarmID) : Alarm := (m.alarms.lookup id).getD .zero

/-- The rule has no current alarm, or only a cleared one. -/
def Manager.Free (m : Manager) (st : RuleState) : Prop :=
  st.current = "" ∨ (m.alarmOf st.current).status = .cleared

instance (m : Manager) (st : RuleState) : Decidable (m.Free st) :=
  inferInstanceAs (Decidable (_ ∨ _))

def Alarm.observed (alarm : Alarm) (o : Observation) (limit : ℕ) : Alarm :=
  { alarm with
    conditionActive := o.active, lastObserved := o.observedAt
    evidence := appendEvidence alarm.evidence o.evidence limit, correlationID := o.correlationID }

def Rule.alarm (rule : Rule) (o : Observation) (id : AlarmID) (since : ℤ) (limit : ℕ) : Alarm :=
  { id := id, ruleID := rule.id, code := rule.code, subject := rule.subject
    severity := if rule.severity.rank < o.severity.rank then o.severity else rule.severity
    status := .active, conditionActive := true, evidence := appendEvidence [] o.evidence limit
    firstObserved := since, lastObserved := o.observedAt, occurrenceCount := 1
    correlationID := o.correlationID }

/-- What `applyObservation` leaves: the rule state, and what it returns. -/
structure Outcome where
  state : RuleState
  alarm : Alarm
  transition : Transition
  err : Option Failure := none

/-- An active observation of a rule with no alarm to add to. -/
def Manager.raise (m : Manager) (newID : Except Failure AlarmID) (st : RuleState)
    (o : Observation) : Outcome :=
  let since := st.pendingActive.getD o.observedAt
  let pending := { st with pendingClear := none, pendingActive := some since }
  if sub o.observedAt since < st.rule.debounce then ⟨pending,.zero,.debouncing,none⟩
  else
    match newID with
    | .error err => ⟨pending,.zero,.none,some err⟩
    | .ok id =>
      ⟨{ st with pendingClear := none, pendingActive := none, current := id },
        st.rule.alarm o id since m.evidenceLimit,.raised,none⟩

/-- An active observation of a rule whose alarm is live; `OccurrenceCount` is 64 bits wide. -/
def Manager.repeated (m : Manager) (st : RuleState) (o : Observation) : Outcome :=
  let before := m.alarmOf st.current
  let alarm := { before.observed o m.evidenceLimit with
    occurrenceCount := (before.occurrenceCount+1) % 2^64 }
  let st := { st with pendingClear := none }
  if alarm.severity.rank < o.severity.rank then
    ⟨st,{ alarm with severity := o.severity },.escalated,none⟩
  else ⟨st,alarm,.none,none⟩

/-- An inactive observation of a rule whose alarm is live. -/
def Manager.recover (m : Manager) (st : RuleState) (o : Observation) : Outcome :=
  let alarm := (m.alarmOf st.current).observed o m.evidenceLimit
  let since := st.pendingClear.getD o.observedAt
  if sub o.observedAt since < st.rule.hysteresis ∨ st.rule.latching then
    ⟨{ st with pendingActive := none, pendingClear := some since },alarm,.clearPending,none⟩
  else
    ⟨{ st with pendingActive := none, pendingClear := none },
      { alarm with status := .cleared, clearedAt := some o.observedAt },.cleared,none⟩

def Manager.applyObservation (m : Manager) (newID : Except Failure AlarmID) (st : RuleState)
    (o : Observation) : Outcome :=
  if o.active then
    if m.Free st then m.raise newID st o else m.repeated st o
  else if st.current = "" then ⟨{ st with pendingActive := none },.zero,.none,none⟩
  else if (m.alarmOf st.current).status = .cleared then
    ⟨{ st with pendingActive := none },m.alarmOf st.current,.none,none⟩
  else m.recover st o

/-- The time of an observation; a missing one is read from the clock. -/
def Observation.instant (o : Observation) (a : Answer) : ℤ :=
  if o.observedAt = 0 then a.now else o.observedAt

/-- `Observe` before its lock section; a missing correlation ID is generated. -/
def Observation.stamped (o : Observation) (a : Answer) : Except Failure Observation :=
  match if o.correlationID = "" then a.correlationID else .ok o.correlationID with
  | .error err => .error err
  | .ok id => .ok { o with observedAt := o.instant a, correlationID := id }

def Manager.store (m : Manager) (id : RuleID) (out : Outcome) : Manager :=
  { m with
    rules := m.rules.insert id out.state
    alarms := if out.alarm.id = "" then m.alarms else m.alarms.insert out.alarm.id out.alarm }

def Transition.silent : Transition → Bool
  | .none | .debouncing | .clearPending => true
  | _ => false

/-- The error `Observe` returns for an applied observation: that of applying it, or that of
the event. -/
def Outcome.failure (out : Outcome) (a : Answer) : Option Failure :=
  if out.err.isSome ∨ out.transition.silent then out.err else a.emitted

def RuleState.Fresh (st : RuleState) (observedAt : ℤ) : Prop :=
  st.lastObservation = 0 ∨ st.lastObservation < observedAt

instance (st : RuleState) (observedAt : ℤ) : Decidable (st.Fresh observedAt) :=
  inferInstanceAs (Decidable (_ ∨ _))

/-- `Observe` from its lock section on. -/
def Manager.observeLocked (m : Manager) (a : Answer) (o : Observation) :
    (Alarm × Transition × Option Failure) × Manager :=
  match m.rules.lookup o.ruleID with
  | none => ((.zero,.none,some notFound),m)
  | some st =>
    if st.Fresh o.observedAt then
      let out := m.applyObservation a.alarmID { st with lastObservation := o.observedAt } o
      ((out.alarm,out.transition,out.failure a),m.store o.ruleID out)
    else ((m.alarmOf st.current,.ignoredStale,none),m)

def Manager.observe (m : Manager) (a : Answer) (o : Observation) :
    (Alarm × Transition × Option Failure) × Manager :=
  match a.ctx with
  | some err => ((.zero,.none,some err),m)
  | none =>
    match o.stamped a with
    | .error err => ((.zero,.none,some err),m)
    | .ok o => m.observeLocked a o

def Manager.acknowledge (m : Manager) (a : Answer) (id : AlarmID) :
    (Alarm × Option Failure) × Manager :=
  match a.ctx, m.alarms.lookup id with
  | some err, _ => ((.zero,some err),m)
  | none, none => ((.zero,some notFound),m)
  | none, some alarm =>
    if alarm.status = .active then
      let alarm := { alarm with status := .acknowledged, acknowledgedAt := some a.now }
      ((alarm,a.emitted),{ m with alarms := m.alarms.insert id alarm })
    else ((.zero,some invalidTransition),m)

def Manager.clear (m : Manager) (a : Answer) (id : AlarmID) : (Alarm × Option Failure) × Manager :=
  match a.ctx, m.alarms.lookup id with
  | some err, _ => ((.zero,some err),m)
  | none, none => ((.zero,some notFound),m)
  | none, some alarm =>
    if alarm.conditionActive then ((.zero,some conditionStillActive),m)
    else if alarm.status = .cleared then ((.zero,some invalidTransition),m)
    else
      let alarm := { alarm with status := .cleared, clearedAt := some a.now }
      ((alarm,a.emitted),{ m with alarms := m.alarms.insert id alarm })

end Alarms
end AquaOS
