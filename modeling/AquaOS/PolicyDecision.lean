import AquaOS.SafetyEngine

/-! What a safety decision depends on. Hard constraints are decided before the mode
and the overrides are looked at, and every comparison is made at the intent's own
time. -/
namespace AquaOS
namespace SafetyEngine

open Domain CanonicalState EquipmentProfile Timeline

/-- The override in force for an equipment at an instant. -/
def Engine.liveOverride (e : Engine) (id : EquipmentID) (now : ℤ) : Option Override :=
  (e.overrides.lookup id).filter fun o => now < o.expiresAt

/-- What the locked section reads for an equipment with profile `p`. -/
def Engine.evaluationAt (e : Engine) (intent : Intent) (now : ℤ) (p : Profile) : Evaluation :=
  ⟨now,intent.on,p,(e.runtimeOf intent.equipmentID).account now,e.mode,
    e.liveOverride intent.equipmentID now⟩

theorem evaluateLocked_fst (e : Engine) (intent : Intent) (now : ℤ) :
    (e.evaluateLocked intent now).1 =
      (e.profiles.lookup intent.equipmentID).map (e.evaluationAt intent now) := by
  unfold Engine.evaluateLocked Engine.evaluationAt Engine.liveOverride
  cases e.profiles.lookup intent.equipmentID with
  | none => rfl
  | some p =>
    simp only [Engine.accountLocked,Engine.setRuntime,Option.map_some]
    cases e.overrides.lookup intent.equipmentID with
    | none => rfl
    | some o => by_cases h : now < o.expiresAt <;> simp [h,Option.filter]

theorem evaluate_eq (e : Engine) (clock : ℤ) (get : Reader) (intent : Intent) :
    (e.evaluate none clock get intent).1 =
      match e.profiles.lookup intent.equipmentID with
      | none => .ok { reason := reasonUnknownEquipment }
      | some p => (e.evaluationAt intent (intent.time clock) p).decide get := by
  have h := evaluateLocked_fst e intent (intent.time clock)
  unfold Engine.evaluate
  cases hp : e.profiles.lookup intent.equipmentID with
  | none =>
    rw [hp] at h
    rcases hl : e.evaluateLocked intent (intent.time clock) with ⟨ev,e'⟩
    rw [hl] at h
    simp only [Option.map_none] at h
    subst h
    rfl
  | some p =>
    rw [hp] at h
    rcases hl : e.evaluateLocked intent (intent.time clock) with ⟨ev,e'⟩
    rw [hl] at h
    simp only [Option.map_some] at h
    subst h
    rfl

/-- The hard constraints of one evaluation, in order; the first that applies. -/
def Evaluation.hardOutcome (ev : Evaluation) (get : Reader) : Option (Except Failure Decision) :=
  if ev.mode = .emergencyStop then some (.ok (refusedHard reasonEmergencyStop))
  else if maximumOnReached ev.profile ev.runtime ev.now then
    some (.ok (refusedHard reasonMaximumOn))
  else if maximumDailyOnReached ev.profile ev.runtime then
    some (.ok (refusedHard reasonMaximumDailyOn))
  else if minimumOffPending ev.profile ev.runtime ev.now then
    some (.ok (refusedHard reasonMinimumOff))
  else if ev.profile.hazardous then
    match validateInputs get 0 ev.profile.requiredInputs with
    | .error err => some (.error err)
    | .ok d => if d.allowed then none else some (.ok d)
  else none

/-- Mode and overrides decide only what no hard constraint has decided. -/
theorem decide_eq (ev : Evaluation) (get : Reader) (hon : ev.on = true) :
    ev.decide get = (ev.hardOutcome get).getD (.ok ev.modeDecision) := by
  unfold Evaluation.decide Evaluation.hardOutcome
  simp only [hon,Bool.true_eq_false,if_false]
  split_ifs <;> try rfl
  cases validateInputs get 0 ev.profile.requiredInputs with
  | error err => rfl
  | ok d => by_cases hd : d.allowed <;> simp [hd]

theorem requirementDecision_hard (r : InputRequirement) (value : Value)
    (h : (requirementDecision r value).allowed = false) :
    (requirementDecision r value).hardLimit = true := by
  unfold requirementDecision at *
  cases hq : value.quality <;> simp only [hq] at h ⊢ <;> try rfl
  split_ifs at h ⊢ with hb
  · rfl
  · simp [granted] at h

theorem requirementDecision_allowed_iff (r : InputRequirement) (value : Value) :
    (requirementDecision r value).allowed = true ↔
      value.quality = .good ∧ ∀ b, r.requireBoolean = some b → value.boolean = some b := by
  unfold requirementDecision
  cases hq : value.quality <;> simp only [refusedHard,granted,reduceCtorEq,false_and,true_and,
    Bool.false_eq_true]
  cases hr : r.requireBoolean with
  | none => simp
  | some b =>
    by_cases hb : value.boolean = some b
    · simp [hb]
    · simp only [ne_eq,reduceCtorEq,not_false_eq_true,hb,and_self,if_true,Bool.false_eq_true,
        Option.some.injEq,forall_eq']

/-- Inputs are refused as missing or as one of the requirements has it. -/
theorem validateInputs_cases {get : Reader} {n : ℕ} {rs : List InputRequirement} {d : Decision}
    (h : validateInputs get n rs = .ok d) :
    d = granted ∨ d = refusedHard reasonInputMissing ∨ ∃ r value, d = requirementDecision r value := by
  induction rs generalizing n with
  | nil => exact .inl (by simpa [validateInputs] using h.symm)
  | cons r rs ih =>
    unfold validateInputs at h
    cases hg : get n r.key with
    | error err =>
      simp only [hg] at h
      split_ifs at h
      exact .inr (.inl (by simpa using h.symm))
    | ok value =>
      simp only [hg] at h
      split_ifs at h
      · exact ih h
      · exact .inr (.inr ⟨r,value,by simpa using h.symm⟩)

theorem validateInputs_hard (get : Reader) (n : ℕ) (rs : List InputRequirement) (d : Decision)
    (h : validateInputs get n rs = .ok d) (hd : d.allowed = false) : d.hardLimit = true := by
  rcases validateInputs_cases h with rfl | rfl | ⟨r,value,rfl⟩
  · simp [granted] at hd
  · rfl
  · exact requirementDecision_hard r value hd

/-- Inputs pass together exactly when every read succeeds and passes on its own. -/
theorem validateInputs_allowed (get : Reader) (n : ℕ) (rs : List InputRequirement) (d : Decision)
    (h : validateInputs get n rs = .ok d) (hd : d.allowed = true) :
    ∀ i r, rs[i]? = some r → ∃ value, get (n+i) r.key = .ok value ∧ value.quality = .good ∧
      ∀ b, r.requireBoolean = some b → value.boolean = some b := by
  induction rs generalizing n with
  | nil => intro i r hi; simp at hi
  | cons q rs ih =>
    unfold validateInputs at h
    cases hg : get n q.key with
    | error err =>
      simp only [hg] at h
      split_ifs at h
      obtain rfl : refusedHard reasonInputMissing = d := by simpa using h
      simp [refusedHard] at hd
    | ok value =>
      simp only [hg] at h
      split_ifs at h with ha
      · intro i r hi
        cases i with
        | zero =>
          obtain rfl : q = r := by simpa using hi
          exact ⟨value,by simpa using hg,(requirementDecision_allowed_iff q value).mp ha⟩
        | succ i =>
          obtain ⟨v,hv,hrest⟩ := ih (n+1) h i r (by simpa using hi)
          exact ⟨v,by rw [← hv]; congr 1; omega,hrest⟩
      · obtain rfl : requirementDecision q value = d := by simpa using h
        exact absurd hd ha

theorem hardOutcome_hard (ev : Evaluation) (get : Reader) (d : Decision)
    (h : ev.hardOutcome get = some (.ok d)) : d.allowed = false ∧ d.hardLimit = true := by
  unfold Evaluation.hardOutcome at h
  split_ifs at h <;> try (obtain rfl := Except.ok.inj (Option.some.inj h); exact ⟨rfl,rfl⟩)
  cases hv : validateInputs get 0 ev.profile.requiredInputs with
  | error err => simp [hv] at h
  | ok d' =>
    simp only [hv] at h
    split_ifs at h with ha
    obtain rfl := Except.ok.inj (Option.some.inj h)
    have hd : d'.allowed = false := by simpa using ha
    exact ⟨hd,validateInputs_hard get 0 _ d' hv hd⟩

theorem modeDecision_soft (ev : Evaluation) : ev.modeDecision.hardLimit = false := by
  unfold Evaluation.modeDecision
  split_ifs <;> rfl

/-- An evaluation that no hard constraint decides has none of them violated. -/
theorem hardOutcome_eq_none (ev : Evaluation) (get : Reader) (h : ev.hardOutcome get = none) :
    ev.mode ≠ .emergencyStop ∧ ¬maximumOnReached ev.profile ev.runtime ev.now ∧
    ¬maximumDailyOnReached ev.profile ev.runtime ∧
    ¬minimumOffPending ev.profile ev.runtime ev.now ∧
    (ev.profile.hazardous = true →
      ∃ d, validateInputs get 0 ev.profile.requiredInputs = .ok d ∧ d.allowed = true) := by
  unfold Evaluation.hardOutcome at h
  split_ifs at h with h1 h2 h3 h4 h5
  · refine ⟨h1,h2,h3,h4,fun _ => ?_⟩
    cases hv : validateInputs get 0 ev.profile.requiredInputs with
    | error err => simp [hv] at h
    | ok d =>
      simp only [hv] at h
      split_ifs at h with ha
      exact ⟨d,rfl,ha⟩
  · exact ⟨h1,h2,h3,h4,fun hz => absurd hz h5⟩

/-- The modes other than the emergency stop that can be set. -/
def Mode.Running (m : Mode) : Prop := m = .normal ∨ m = .maintenance ∨ m = .manual

theorem Mode.Running.ne_emergencyStop {m : Mode} (h : m.Running) : m ≠ .emergencyStop := by
  rintro rfl
  rcases h with h | h | h <;> cases h

/-- The reads one evaluation makes of the canonical store, each with its own context
state and clock reading. -/
def storeReader (store : Manager) (ctx : ℕ → Option Failure) (now : ℕ → ℤ) : Reader :=
  fun n key => store.get (ctx n) (now n) key

theorem storeReader_good {store : Manager} {ctx : ℕ → Option Failure} {now : ℕ → ℤ} {n : ℕ}
    {key : Key} {value : Value} (h : storeReader store ctx now n key = .ok value)
    (hg : value.quality = .good) :
    ∃ v, store.values.lookup key = some v ∧ now n < v.observedAt+v.freshFor ∧
      v.quality = .good ∧ v.boolean = value.boolean := by
  unfold storeReader Manager.get at h
  cases hc : ctx n with
  | some err => simp [hc] at h
  | none =>
    cases hl : store.values.lookup key with
    | none => simp [hc,hl] at h
    | some v =>
      obtain rfl : v.readAt (now n) = value := by simpa [hc,hl] using h
      obtain ⟨hf,hq⟩ := (readAt_good_iff v (now n)).mp hg
      exact ⟨v,rfl,hf,hq,(readAt_boolean v (now n)).symm⟩

theorem hardOutcome_congr {ev ev' : Evaluation} (get : Reader) (hn : ev.now = ev'.now)
    (hp : ev.profile = ev'.profile) (hr : ev.runtime = ev'.runtime)
    (hm : ev.mode ≠ .emergencyStop) (hm' : ev'.mode ≠ .emergencyStop) :
    ev.hardOutcome get = ev'.hardOutcome get := by
  unfold Evaluation.hardOutcome
  rw [if_neg hm,if_neg hm',hn,hp,hr]

theorem evaluate_hard_denial_transfers (e e' : Engine) (clock : ℤ) (get : Reader)
    (intent : Intent) (hp : e.profiles = e'.profiles) (hr : e.runtime = e'.runtime)
    (hm : e.mode ≠ .emergencyStop) (hm' : e'.mode ≠ .emergencyStop) (d : Decision)
    (h : (e.evaluate none clock get intent).1 = .ok d) (hd : d.allowed = false)
    (hh : d.hardLimit = true) : (e'.evaluate none clock get intent).1 = .ok d := by
  rw [evaluate_eq] at h ⊢
  rw [← hp]
  have hrt : e'.runtimeOf intent.equipmentID = e.runtimeOf intent.equipmentID := by
    rw [Engine.runtimeOf,Engine.runtimeOf,hr]
  cases hl : e.profiles.lookup intent.equipmentID with
  | none => simpa only [hl] using h
  | some p =>
    simp only [hl] at h ⊢
    by_cases hon : intent.on = true
    · have hc : (e.evaluationAt intent (intent.time clock) p).hardOutcome get =
          (e'.evaluationAt intent (intent.time clock) p).hardOutcome get :=
        hardOutcome_congr get rfl rfl (by simp [Engine.evaluationAt,hrt]) hm hm'
      rw [decide_eq _ _ hon] at h ⊢
      rw [← hc]
      cases ho : (e.evaluationAt intent (intent.time clock) p).hardOutcome get with
      | some out => simpa [ho] using h
      | none =>
        rw [ho] at h
        obtain rfl := Except.ok.inj h
        simp [modeDecision_soft] at hh
    · have hoff : (e.evaluationAt intent (intent.time clock) p).on = false := by
        simpa [Engine.evaluationAt] using hon
      simp only [Evaluation.decide,hoff,if_true] at h
      obtain rfl := Except.ok.inj h
      simp [granted] at hd

theorem evaluate_allowed (e : Engine) (clock : ℤ) (get : Reader) (intent : Intent)
    (hon : intent.on = true) (d : Decision)
    (h : (e.evaluate none clock get intent).1 = .ok d) (hd : d.allowed = true) :
    ∃ p, e.profiles.lookup intent.equipmentID = some p ∧
      (e.evaluationAt intent (intent.time clock) p).hardOutcome get = none := by
  rw [evaluate_eq] at h
  cases hl : e.profiles.lookup intent.equipmentID with
  | none =>
    simp only [hl] at h
    obtain rfl := Except.ok.inj h
    simp at hd
  | some p =>
    simp only [hl] at h
    rw [decide_eq _ _ hon] at h
    cases ho : (e.evaluationAt intent (intent.time clock) p).hardOutcome get with
    | some out =>
      rw [ho] at h
      obtain rfl : out = .ok d := h
      simp [(hardOutcome_hard _ get d ho).1] at hd
    | none => exact ⟨p,rfl,ho⟩

/-- Hard constraints hold in every mode and under every override. -/
theorem hard_constraints_ignore_mode_and_overrides (store : Manager)
    (readCtx : ℕ → Option Failure) (readNow : ℕ → ℤ) (e e' : Engine) (ctx : Option Failure)
    (clock : ℤ) (intent : Intent) :
    (e.profiles = e'.profiles → e.runtime = e'.runtime → e.mode.Running → e'.mode.Running →
      ∀ d, (e.evaluate ctx clock (storeReader store readCtx readNow) intent).1 = .ok d →
        d.allowed = false → d.hardLimit = true →
        ∃ d', (e'.evaluate ctx clock (storeReader store readCtx readNow) intent).1 = .ok d' ∧
          d'.allowed = false ∧ d'.hardLimit = true ∧ d'.reason = d.reason) ∧
    (∀ d, (e.evaluate ctx clock (storeReader store readCtx readNow) intent).1 = .ok d →
      d.allowed = true → intent.on = true →
      e.mode ≠ .emergencyStop ∧ ∃ p, e.profiles.lookup intent.equipmentID = some p ∧
        ¬maximumOnReached p ((e.runtimeOf intent.equipmentID).account (intent.time clock))
          (intent.time clock) ∧
        ¬maximumDailyOnReached p
          ((e.runtimeOf intent.equipmentID).account (intent.time clock)) ∧
        ¬minimumOffPending p ((e.runtimeOf intent.equipmentID).account (intent.time clock))
          (intent.time clock) ∧
        (p.hazardous = true → ∀ i q, p.requiredInputs[i]? = some q →
          ∃ v, store.values.lookup q.key = some v ∧ readNow i < v.observedAt+v.freshFor ∧
            v.quality = .good ∧ ∀ b, q.requireBoolean = some b → v.boolean = some b)) ∧
    (intent.on = false → intent.equipmentID ∈ e.profiles → ctx = none →
      (e.evaluate ctx clock (storeReader store readCtx readNow) intent).1 = .ok granted) := by
  cases ctx with
  | some err => exact ⟨fun _ _ _ _ _ h => by simp [Engine.evaluate] at h,
      fun _ h => by simp [Engine.evaluate] at h,fun _ _ h => by cases h⟩
  | none =>
    refine ⟨?_,?_,?_⟩
    · intro hp hr hm hm' d h hd hh
      have h' := evaluate_hard_denial_transfers e e' clock _ intent hp hr hm.ne_emergencyStop
        hm'.ne_emergencyStop d h hd hh
      exact ⟨d,h',hd,hh,rfl⟩
    · intro d h hd hon
      obtain ⟨p,hp,hnone⟩ := evaluate_allowed e clock _ intent hon d h hd
      obtain ⟨hm,h1,h2,h3,h4⟩ := hardOutcome_eq_none _ _ hnone
      refine ⟨hm,p,hp,h1,h2,h3,?_⟩
      intro hz i q hq
      obtain ⟨d',hv,hd'⟩ := h4 hz
      obtain ⟨value,hget,hgood,hb⟩ := validateInputs_allowed _ 0 _ d' hv hd' i q hq
      rw [Nat.zero_add] at hget
      obtain ⟨v,hl,hf,hvq,hvb⟩ := storeReader_good hget hgood
      exact ⟨v,hl,hf,hvq,fun b hbq => hvb.trans (hb b hbq)⟩
    · intro hoff hmem _
      rw [evaluate_eq]
      obtain ⟨p,hp⟩ := Option.isSome_iff_exists.mp (AList.lookup_isSome.mpr hmem)
      simp [hp,Evaluation.decide,Engine.evaluationAt,hoff]

theorem hard_constraints_outlet :
    ∃ d', (Engine.evaluate { outletOn with mode := .manual } none 0
        (storeReader ⟨∅⟩ (fun _ => none) (fun _ => newYear))
        ⟨outletID,true,newYear+3*hour⟩).1 = .ok d' ∧
      d'.allowed = false ∧ d'.hardLimit = true ∧ d'.reason = reasonMaximumOn :=
  (hard_constraints_ignore_mode_and_overrides ⟨∅⟩ (fun _ => none) (fun _ => newYear) outletOn
    { outletOn with mode := .manual } none 0 ⟨outletID,true,newYear+3*hour⟩).1 rfl rfl (.inl rfl)
    (.inr (.inr rfl)) (refusedHard reasonMaximumOn) (by decide) rfl rfl

end SafetyEngine
end AquaOS
