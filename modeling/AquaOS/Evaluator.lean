import AquaOS.AlarmState
import AquaOS.StateStore
import AquaOS.Configuration

/-! The threshold evaluator, which turns canonical sensor observations into alarm observations.
The engine it observes is a parameter, as it is one of its dependencies. -/
namespace AquaOS
namespace Alarms

open Domain CanonicalState
open AquaOS.Configuration (Condition)

/-- What the standard library and the hardware compute: SHA-256, and a product with an offset in
floating point. -/
structure Platform where
  sha256 : List UInt8 → Fin 32 → UInt8
  calibrated : Float64 → Float64 → Float64 → Float64

structure ThresholdRule where
  id : String
  name : String
  sensorID : SensorID
  condition : Condition
  threshold : Float64
  thresholdHigh : Option Float64 := none
  severity : Severity
  delay : ℤ := 0
  clearDelay : ℤ := 0
  latching : Bool := false
  scale : Float64 := 1
  offset : Float64 := 0
  deriving DecidableEq

structure Evaluator where
  rules : List ThresholdRule

/-- The checks of `NewEvaluator`. -/
def ThresholdRule.Accepted (r : ThresholdRule) : Prop :=
  validateID r.sensorID = none ∧ r.id ≠ "" ∧ r.name ≠ "" ∧
    r.condition ∈ [Condition.above,.below,.outside,.isTrue,.isFalse] ∧ r.severity.rank ≠ 0 ∧
    0 ≤ r.delay ∧ 0 ≤ r.clearDelay

instance (r : ThresholdRule) : Decidable r.Accepted := inferInstanceAs (Decidable (_ ∧ _))

def newEvaluator (rules : List ThresholdRule) : Except Failure Evaluator :=
  if ∀ r ∈ rules, r.Accepted then
    .ok ⟨rules.map fun r => if r.scale = 0 then { r with scale := 1 } else r⟩
  else .error (.message "alarm threshold rule is invalid")

def conditionText : Condition → String
  | .above => "above"
  | .below => "below"
  | .outside => "outside"
  | .isTrue => "true"
  | .isFalse => "false"
  | .other text => text

section Identity

variable (p : Platform)

def hexDigit (n : ℕ) : Char := if n < 10 then Char.ofNat (48+n) else Char.ofNat (87+n)

/-- The first half of a digest with the version and variant bits of a random UUID. -/
def derivedBytes (sum : Fin 32 → UInt8) : List UInt8 :=
  (List.finRange 16).map fun i =>
    let b := sum (i.castLE (by decide))
    if i = 6 then (b &&& 0x0f) ||| 0x40 else if i = 8 then (b &&& 0x3f) ||| 0x80 else b

def thresholdRuleID (value : String) : RuleID :=
  let hexValue := (derivedBytes (p.sha256 (bytes ("aquaos-alarm-rule:"++value)))).flatMap fun b =>
    [hexDigit (b.toNat/16),hexDigit (b.toNat%16)]
  let text (start stop : ℕ) := String.ofList ((hexValue.take stop).drop start)
  text 0 8++"-"++text 8 12++"-"++text 12 16++"-"++text 16 20++"-"++text 20 32

end Identity

def ThresholdRule.rule (p : Platform) (r : ThresholdRule) : Rule :=
  { id := thresholdRuleID p r.id, code := "sensor.threshold."++conditionText r.condition
    name := r.name, subject := ⟨"sensor",r.sensorID⟩, severity := r.severity, debounce := r.delay
    hysteresis := r.clearDelay, latching := r.latching }

/-- The reading a rule compares: a calibrated number, or a boolean. -/
def reading (p : Platform) (r : ThresholdRule) (v : CanonicalValue) :
    Except Failure (Float64 × Bool) :=
  match v.kind, v.quantity, v.boolean with
  | .quantity, some q, _ => .ok (p.calibrated q.value r.scale r.offset,false)
  | .boolean, _, some b => .ok (0,b)
  | .quantity, none, _ | .boolean, _, none => .error (.external "nil pointer dereference")
  | .text, _, _ | .other _, _, _ =>
    .error (.message "alarm threshold requires numeric or boolean state")

def evaluate (p : Platform) (r : ThresholdRule) (v : CanonicalValue) :
    Except Failure (Bool × Evidence) :=
  let evidence : Evidence :=
    ⟨"sensor.threshold","configured sensor threshold evaluated",
      some ((∅ : Table String String).insert "condition" (conditionText r.condition))⟩
  match reading p r v with
  | .error err => .error err
  | .ok (numeric,boolean) =>
    match r.condition, r.thresholdHigh with
    | .above, _ => .ok (r.threshold.lt numeric,evidence)
    | .below, _ => .ok (numeric.lt r.threshold,evidence)
    | .outside, none => .error (.message "outside alarm threshold requires upper bound")
    | .outside, some high => .ok (numeric.lt r.threshold || high.lt numeric,evidence)
    | .isTrue, _ => .ok (boolean,evidence)
    | .isFalse, _ => .ok (!boolean,evidence)
    | .other _, _ => .ok (false,evidence)

namespace Evaluator

section Handle

variable {S : Type} (p : Platform) (observe : ThresholdRule → Observation → S → Option Failure × S)

/-- What a rule tells the engine about a state value. -/
def observation (r : ThresholdRule) (value : StateValue) (correlationID : CorrelationID)
    (active : Bool) (evidence : Evidence) : Observation :=
  { ruleID := thresholdRuleID p r.id, active, severity := r.severity
    observedAt := value.observedAt, evidence, correlationID }

def sweep (value : StateValue) (correlationID : CorrelationID) :
    List ThresholdRule → S → Option Failure × S
  | [], s => (none,s)
  | r::rules, s =>
    match evaluate p r value.value with
    | .error err => (some err,s)
    | .ok (active,evidence) =>
      match observe r (observation p r value correlationID active evidence) s with
      | (some err,s) => (some (.wrapped "observe configured alarm rule" err),s)
      | (none,s) => sweep value correlationID rules s

/-- `handle` for an event whose payload decodes to the value. -/
def handle (e : Evaluator) (value : StateValue) (correlationID : CorrelationID) (s : S) :
    Option Failure × S :=
  if value.key.entityKind ≠ .sensor ∨ value.key.plane ≠ .observation ∨
      value.key.attributeName ≠ "measurement" ∨ value.quality ≠ .known .good then (none,s)
  else
    sweep p observe value correlationID (e.rules.filter (·.sensorID = value.key.entityID)) s

variable {p observe} {P : S → Prop} {value : StateValue} {correlationID : CorrelationID} {s : S}

/-- What every observation keeps, the evaluation of an event keeps. -/
theorem sweep_invariant (hobserve : ∀ r active evidence s, P s →
      P (observe r (observation p r value correlationID active evidence) s).2)
    (rules : List ThresholdRule) (hs : P s) :
    P (sweep p observe value correlationID rules s).2 := by
  induction rules generalizing s with
  | nil => exact hs
  | cons r rules ih =>
    unfold sweep
    cases evaluate p r value.value with
    | error err => exact hs
    | ok judged =>
      obtain ⟨active,evidence⟩ := judged
      have hnext := hobserve r active evidence s hs
      dsimp only
      rcases hr : observe r (observation p r value correlationID active evidence) s with ⟨_ | err,s'⟩
      · rw [hr] at hnext
        exact ih hnext
      · rw [hr] at hnext
        exact hnext

theorem handle_invariant (e : Evaluator) (hobserve : ∀ r active evidence s, P s →
      P (observe r (observation p r value correlationID active evidence) s).2)
    (hs : P s) : P (e.handle p observe value correlationID s).2 := by
  unfold handle
  split_ifs
  · exact hs
  · exact sweep_invariant hobserve _ hs

end Handle
end Evaluator

section Samples

def plainPlatform : Platform := ⟨fun _ _ => 0,fun value _ _ => value⟩

def hotTank : ThresholdRule :=
  { id := "tank-hot", name := "Tank hot", sensorID := "99999999-9999-4999-8999-999999999999"
    condition := .above, threshold := 30, severity := .warning }

def hotReading : StateValue :=
  { key := ⟨.sensor,"99999999-9999-4999-8999-999999999999",.observation,"measurement"⟩
    value := { kind := .quantity, quantity := some ⟨.temperature,31,.celsius⟩ }
    quality := .known .good, observedAt := 1, receivedAt := 1, freshFor := 10
    source := "44444444-4444-4444-8444-444444444444" }

end Samples

end Alarms
end AquaOS
