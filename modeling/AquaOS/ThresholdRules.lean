import AquaOS.Evaluator

/-! The rules of one sensor: which of them observe an event when evaluations or observations of
others fail, and which values activate them. -/
namespace AquaOS
namespace Alarms

open Domain CanonicalState
open AquaOS.Configuration (Condition)

section Observed

variable {S : Type} (p : Platform) (observe : ThresholdRule → Observation → S → Option Failure × S)
  (value : StateValue) (correlationID : CorrelationID)

/-- The engine beside the observations it was given, in order. -/
def logged (r : ThresholdRule) (o : Observation) (s : S × List (ThresholdRule × Observation)) :
    Option Failure × S × List (ThresholdRule × Observation) :=
  ((observe r o s.1).1,(observe r o s.1).2,s.2++[(r,o)])

/-- The observation of a rule whose evaluation succeeds, with the activity of its own condition. -/
def judged (r : ThresholdRule) : Option (ThresholdRule × Observation) :=
  match evaluate p r value.value with
  | .error _ => none
  | .ok (active,evidence) =>
    some (r,Evaluator.observation p r value correlationID active evidence)

/-- A rule that fails is followed by none whose evaluation succeeds. -/
def Uninterrupted : List ThresholdRule → S → Prop
  | [], _ => True
  | r::rules, s =>
    match judged p value correlationID r with
    | none => ∀ r' ∈ rules, judged p value correlationID r' = none
    | some (_,o) =>
      match observe r o s with
      | (some _,_) => ∀ r' ∈ rules, judged p value correlationID r' = none
      | (none,s') => Uninterrupted rules s'

def observations (e : Evaluator) (s : S) : List (ThresholdRule × Observation) :=
  (e.handle p (logged observe) value correlationID (s,[])).2.2

theorem sweep_logged_iff (rules : List ThresholdRule) (s : S)
    (log : List (ThresholdRule × Observation)) :
    (Evaluator.sweep p (logged observe) value correlationID rules (s,log)).2.2 =
        log++rules.filterMap (judged p value correlationID) ↔
      Uninterrupted p observe value correlationID rules s := by
  induction rules generalizing s log with
  | nil => simp [Evaluator.sweep,Uninterrupted]
  | cons r rules ih =>
    rw [Evaluator.sweep,Uninterrupted]
    cases hjudged : evaluate p r value.value with
    | error err =>
      have hnone : judged p value correlationID r = none := by simp only [judged,hjudged]
      simp [hnone]
    | ok out =>
      obtain ⟨active,evidence⟩ := out
      have hsome : judged p value correlationID r =
          some (r,Evaluator.observation p r value correlationID active evidence) := by
        simp only [judged,hjudged]
      rw [hsome,List.filterMap_cons_some hsome]
      dsimp only [logged]
      rcases hobserve : observe r
        (Evaluator.observation p r value correlationID active evidence) s with ⟨_ | err,s'⟩
      · have := ih s' (log++[(r,Evaluator.observation p r value correlationID active evidence)])
        simpa using this
      · simp [List.filterMap_eq_nil_iff]

def openTank : ThresholdRule :=
  { hotTank with id := "tank-open", name := "Tank out of range", condition := .outside }

def accepting (_ : ThresholdRule) (_ : Observation) (s : Unit) : Option Failure × Unit := (none,s)

def coldTank : ThresholdRule :=
  { hotTank with id := "tank-cold", name := "Tank cold", condition := .below }

end Observed

section Kinds

variable (p : Platform) (r : ThresholdRule)

def ThresholdRule.meets (x : Float64) : Bool :=
  match r.condition, r.thresholdHigh with
  | .above, _ => r.threshold.lt x
  | .below, _ => x.lt r.threshold
  | .outside, some high => x.lt r.threshold || high.lt x
  | _, _ => false

/-- The value is of the kind the condition is about, and the condition holds of it. -/
def ThresholdRule.HoldsOf (v : CanonicalValue) : Prop :=
  (v.kind = .quantity ∧ ∃ q, v.quantity = some q ∧
    r.meets (p.calibrated q.value r.scale r.offset) = true) ∨
  (v.kind = .boolean ∧ (r.condition = .isTrue ∧ v.boolean = some true ∨
    r.condition = .isFalse ∧ v.boolean = some false))

/-- A quantity meets no rule for false, and a Boolean value none that holds of zero. -/
def ThresholdRule.KindSafe (v : CanonicalValue) : Prop :=
  (v.kind = .quantity → r.condition ≠ .isFalse) ∧ (v.kind = .boolean → r.meets 0 = false)

theorem meets_numeric {r : ThresholdRule} {x : Float64} (h : r.meets x = true) :
    r.condition ≠ .isTrue ∧ r.condition ≠ .isFalse := by
  unfold ThresholdRule.meets at h
  cases hcondition : r.condition <;> simp [hcondition] at h ⊢

/-- What a rule makes of the number and the truth value it reads. -/
theorem evaluate_active_iff {v : CanonicalValue} {x : Float64} {b : Bool}
    (h : reading p r v = .ok (x,b)) :
    (∃ evidence, evaluate p r v = .ok (true,evidence)) ↔
      r.meets x = true ∨ r.condition = .isTrue ∧ b = true ∨ r.condition = .isFalse ∧ b = false := by
  unfold evaluate ThresholdRule.meets
  rw [h]
  cases r.condition <;> cases r.thresholdHigh <;> simp

/-- A stored value is read as a number beside false, as a truth value beside zero, or not at all. -/
theorem reading_cases {v : CanonicalValue} (h : v.validate = none) :
    (v.kind = .quantity ∧ ∃ q, v.quantity = some q ∧
      reading p r v = .ok (p.calibrated q.value r.scale r.offset,false)) ∨
    (v.kind = .boolean ∧ ∃ b, v.boolean = some b ∧ reading p r v = .ok (0,b)) ∨
    (v.kind = .text ∧ ∃ err, reading p r v = .error err) := by
  unfold CanonicalValue.validate at h
  split_ifs at h
  unfold reading
  cases hkind : v.kind with
  | quantity => cases hquantity : v.quantity <;> simp_all
  | boolean => cases hboolean : v.boolean <;> simp_all
  | text => simp
  | other text => simp [hkind] at h

/-- A rule is activated only by values of its kind of which its condition holds, just where no value
of another kind is taken for false or for zero that meets it. -/
theorem active_holdsOf_iff {value : StateValue} (h : value.validate = none) :
    (∀ evidence, evaluate p r value.value = .ok (true,evidence) → r.HoldsOf p value.value) ↔
      r.KindSafe value.value := by
  rw [← exists_imp]
  unfold ThresholdRule.HoldsOf ThresholdRule.KindSafe
  rcases reading_cases p r (validate_value h) with ⟨hkind,q,hq,hread⟩ | ⟨hkind,b,hb,hread⟩ |
    ⟨hkind,err,hread⟩
  · rw [evaluate_active_iff p r hread]
    constructor
    · intro hfits
      refine ⟨fun _ hfalse => ?_,fun hboolean => ?_⟩
      · rcases hfits (.inr (.inr ⟨hfalse,rfl⟩)) with ⟨-,q',-,hmeets⟩ | ⟨hboolean,-⟩
        · exact (meets_numeric hmeets).2 hfalse
        · exact nomatch hkind.symm.trans hboolean
      · exact nomatch hkind.symm.trans hboolean
    · rintro ⟨hsafe,-⟩ (hmeets | ⟨-,hb⟩ | ⟨hfalse,-⟩)
      · exact .inl ⟨hkind,q,hq,hmeets⟩
      · cases hb
      · exact absurd hfalse (hsafe hkind)
  · rw [evaluate_active_iff p r hread]
    constructor
    · intro hfits
      refine ⟨fun hquantity => ?_,fun _ => ?_⟩
      · exact nomatch hkind.symm.trans hquantity
      · by_contra hmeets
        have hzero : r.meets 0 = true := by simpa using hmeets
        obtain ⟨htrue,hfalse⟩ := meets_numeric hzero
        rcases hfits (.inl hzero) with ⟨hquantity,-⟩ | ⟨-,⟨heq,-⟩ | ⟨heq,-⟩⟩
        · exact nomatch hkind.symm.trans hquantity
        · exact htrue heq
        · exact hfalse heq
    · rintro ⟨-,hsafe⟩ (hmeets | ⟨htrue,rfl⟩ | ⟨hfalse,rfl⟩)
      · exact nomatch (hsafe hkind).symm.trans hmeets
      · exact .inr ⟨hkind,.inl ⟨htrue,hb⟩⟩
      · exact .inr ⟨hkind,.inr ⟨hfalse,hb⟩⟩
  · simp [evaluate,hread,hkind]

theorem hotTank_kindSafe :
    hotReading.validate = none ∧
      ∀ evidence, evaluate plainPlatform hotTank hotReading.value = .ok (true,evidence) →
        hotTank.HoldsOf plainPlatform hotReading.value :=
  ⟨by decide +kernel,(active_holdsOf_iff plainPlatform hotTank (by decide +kernel)).mpr
    ⟨fun _ => nofun,nofun⟩⟩

def drySwitch : ThresholdRule := { hotTank with id := "dry", name := "Dry", condition := .isFalse }

/-- A temperature activates the rule for false. -/
theorem drySwitch_active :
    (newEvaluator [drySwitch]).isOk = true ∧ hotReading.validate = none ∧
      hotReading.value.kind = .quantity ∧
      (evaluate plainPlatform drySwitch hotReading.value).toOption.map Prod.fst = some true := by
  decide +kernel

end Kinds

end Alarms
end AquaOS
