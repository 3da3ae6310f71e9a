import AquaOS.Controller
import AquaOS.DailyLimit

/-! Runs of calls on the safety engine by all its users. An engine starts from the profiles
it accepts and changes only by its calls; what they never break is stated once. -/
namespace AquaOS
namespace SafetyEngine

open Domain EquipmentProfile Timeline Transition

inductive EngineCall
  | policy (call : PolicyCall) (q : PolicyAnswer)
  | setMode (ctx : Option Failure) (mode : Mode)

def Engine.call (e : Engine) : EngineCall → Engine
  | .policy call q => call.apply e q
  | .setMode ctx mode =>
    match e.setMode ctx mode with
    | .error _ => e
    | .ok e' => e'

/-- The engine has been swept at `now`: overrides may be gone and runtimes accounted or
latched, and everything else is as it was. -/
structure SameAccounts (now : ℤ) (e e' : Engine) : Prop where
  profiles : e'.profiles = e.profiles
  mode : e'.mode = e.mode
  overrides : ∀ id o, e'.overrides.lookup id = some o → e.overrides.lookup id = some o
  account : ∀ id, ∃ reason, (e'.runtimeOf id).account now =
    { (e.runtimeOf id).account now with watchdogReason := reason }

theorem SameAccounts.refl (now : ℤ) (e : Engine) : SameAccounts now e e :=
  ⟨rfl,rfl,fun _ _ h => h,fun _ => ⟨_,rfl⟩⟩

variable {now : ℤ} {id i : EquipmentID} {e e' : Engine} {ps : List Profile}
  {out : List WatchdogAction × Engine} {o : Override}

theorem Turn.account (h : Turn now id e out) (i : EquipmentID) :
    ∃ reason, (out.2.runtimeOf i).account now =
      { (e.runtimeOf i).account now with watchdogReason := reason } := by
  by_cases hi : i = id
  · subst hi
    rcases h.own with ⟨_,hs | hs⟩ | ⟨reason,_,_,_,_,hs⟩
    · exact ⟨_,by rw [hs]⟩
    · exact ⟨_,by rw [hs,account_account]⟩
    · exact ⟨reason,by rw [hs,account_latch,account_account]⟩
  · exact ⟨_,by rw [h.others i hi]⟩

theorem SameAccounts.turn (h : SameAccounts now e e') (ht : Turn now id e' out)
    (ho : ∀ i o, out.2.overrides.lookup i = some o → e'.overrides.lookup i = some o) :
    SameAccounts now e out.2 := by
  refine ⟨ht.profiles.trans h.profiles,ht.mode.trans h.mode,
    fun i o hi => h.overrides i o (ho i o hi),fun i => ?_⟩
  obtain ⟨reason,hr⟩ := ht.account i
  obtain ⟨reason',hr'⟩ := h.account i
  exact ⟨reason,by rw [hr,hr']⟩

theorem erase_lookup {overrides : Table EquipmentID Override}
    (h : (overrides.erase id).lookup i = some o) : overrides.lookup i = some o := by
  by_cases hi : i = id
  · subst hi; simp at h
  · rwa [AList.lookup_erase_ne hi] at h

theorem expireOverride_overrides (h : (e.expireOverride now id).2.overrides.lookup i = some o) :
    e.overrides.lookup i = some o := by
  unfold Engine.expireOverride at h
  cases ho : e.overrides.lookup id with
  | none => simpa only [ho] using h
  | some o' =>
    simp only [ho] at h
    split_ifs at h
    · exact h
    · exact erase_lookup h
    · exact erase_lookup h

theorem checkProfile_overrides (e : Engine) (now : ℤ) (id : EquipmentID) :
    (e.checkProfile now id).2.overrides = e.overrides := by
  unfold Engine.checkProfile
  cases e.profiles.lookup id with
  | none => rfl
  | some p => dsimp only; split_ifs <;> rfl

theorem expireOverrides_sameAccounts (e : Engine) (now : ℤ) (order : List EquipmentID) :
    SameAccounts now e (e.sweep (fun e id => e.expireOverride now id) order).2 :=
  sweep_invariant (P := SameAccounts now e)
    (fun e id _ h => h.turn (expireOverride_turn e now id) fun _ _ => expireOverride_overrides)
    (SameAccounts.refl now e)

theorem SameAccounts.checkProfile (h : SameAccounts now e e')
    (id : EquipmentID) : SameAccounts now e (e'.checkProfile now id).2 :=
  h.turn (checkProfile_turn e' now id) fun i o hi => by rwa [checkProfile_overrides] at hi

theorem checkLocked_sameAccounts (e : Engine) (now : ℤ) (order : VisitOrder) :
    SameAccounts now e (e.checkLocked now order).2 :=
  sweep_invariant (P := SameAccounts now e) (fun _ id _ h => h.checkProfile id)
    (expireOverrides_sameAccounts e now order.overrides)

theorem SameAccounts.failSafeOn (h : SameAccounts now e e')
    (id : EquipmentID) : e'.failSafeOn id = e.failSafeOn id := by
  unfold Engine.failSafeOn
  rw [h.profiles]

theorem SameAccounts.maximumOn (h : SameAccounts now e e') (p : Profile) (id : EquipmentID) :
    maximumOnReached p ((e'.runtimeOf id).account now) now ↔
      maximumOnReached p (e.runtimeOf id) now := by
  obtain ⟨reason,hr⟩ := h.account id
  simp [maximumOnReached,hr]

theorem SameAccounts.maximumDailyOn (h : SameAccounts now e e') (p : Profile) (id : EquipmentID) :
    maximumDailyOnReached p ((e'.runtimeOf id).account now) ↔
      maximumDailyOnReached p ((e.runtimeOf id).account now) := by
  obtain ⟨reason,hr⟩ := h.account id
  simp [maximumDailyOnReached,hr]

theorem SameAccounts.minimumOff (h : SameAccounts now e e') (p : Profile) (id : EquipmentID) :
    minimumOffPending p ((e'.runtimeOf id).account now) now ↔
      minimumOffPending p (e.runtimeOf id) now := by
  obtain ⟨reason,hr⟩ := h.account id
  simp [minimumOffPending,hr]

/-- What building an engine establishes and no call breaks: every profile was accepted,
overrides are for known equipment, and the mode is one of the four. -/
structure Engine.Sound (e : Engine) : Prop where
  profiles : ∀ id p, e.profiles.lookup id = some p → p.validate = none
  overrides : ∀ id ∈ e.overrides, id ∈ e.profiles
  mode : ∀ text, e.mode ≠ .other text

theorem SameAccounts.sound (h : SameAccounts now e e') (he : e.Sound) : e'.Sound := by
  refine ⟨by rw [h.profiles]; exact he.profiles,?_,by rw [h.mode]; exact he.mode⟩
  intro id hid
  obtain ⟨o,ho⟩ := Option.isSome_iff_exists.mp (AList.lookup_isSome.mpr hid)
  rw [h.profiles]
  exact he.overrides id (Table.mem_of_lookup (h.overrides id o ho))

theorem addProfiles_sound (he : e.Sound) (h : e.addProfiles ps = .ok e') : e'.Sound := by
  rw [addProfiles_scan] at h
  refine Scan.scan_invariant h he fun _ e p t he ht => ?_
  obtain ⟨hv,_,rfl⟩ := addProfiles_single.mp ht
  exact ⟨Table.forall_insert hv he.profiles,
    fun id hid => (AList.mem_insert _).mpr (.inr (he.overrides id hid)),he.mode⟩

theorem newEngine_sound (h : newEngine ps = .ok e) : e.Sound :=
  addProfiles_sound ⟨by rintro id p ⟨⟩,by rintro id ⟨⟩,by rintro text ⟨⟩⟩ h

theorem evaluateLocked_lookup {intent : Intent}
    (h : (e.evaluateLocked intent now).2.overrides.lookup id = some o) :
    e.overrides.lookup id = some o := by
  cases hp : e.profiles.lookup intent.equipmentID with
  | none => rwa [evaluateLocked_unknown now hp] at h
  | some p =>
    obtain ⟨_,_,hs,rfl | rfl⟩ := evaluateLocked_known now hp
    · rwa [hs] at h
    · rw [hs] at h
      exact erase_lookup h

/-- A grant that succeeds stores a valid override of known equipment, and one that fails changes
nothing. -/
theorem grantOverride_cases (e : Engine) (ctx : Option Failure) (clock : ℤ) (o : Override) :
    let o' := { o with createdAt := if o.createdAt = 0 then clock else o.createdAt }
    ((e.grantOverride ctx clock o).1 ≠ none ∧ (e.grantOverride ctx clock o).2 = e) ∨
    ((e.grantOverride ctx clock o).1 = none ∧ validateID o.id = none ∧
      o.equipmentID ∈ e.profiles ∧ (e.grantOverride ctx clock o).2 =
        { e with overrides := e.overrides.insert o.equipmentID o' }) := by
  unfold Engine.grantOverride
  cases ctx with
  | some err => exact .inl ⟨nofun,rfl⟩
  | none =>
    cases validateID o.id with
    | some err => exact .inl ⟨nofun,rfl⟩
    | none =>
      dsimp only
      generalize (if o.createdAt = 0 then clock else o.createdAt) = created
      split_ifs with _ _ hmem
      · exact .inl ⟨nofun,rfl⟩
      · exact .inl ⟨nofun,rfl⟩
      · exact .inr ⟨rfl,rfl,hmem,rfl⟩
      · exact .inl ⟨nofun,rfl⟩

theorem policyCall_sound (he : e.Sound) (call : PolicyCall) (q : PolicyAnswer) :
    (call.apply e q).Sound := by
  cases call with
  | evaluate intent =>
    unfold PolicyCall.apply
    dsimp only
    cases q.ctx with
    | some err => exact he
    | none =>
      rw [evaluate_snd]
      refine ⟨?_,?_,?_⟩
      · rw [evaluateLocked_profiles]; exact he.profiles
      · intro id hid
        rw [evaluateLocked_profiles]
        obtain ⟨o,ho⟩ := Option.isSome_iff_exists.mp (AList.lookup_isSome.mpr hid)
        exact he.overrides id (Table.mem_of_lookup (evaluateLocked_lookup ho))
      · rw [evaluateLocked_mode]; exact he.mode
  | recordReported id on observedAt =>
    unfold PolicyCall.apply Engine.recordReported
    dsimp only
    cases q.ctx with
    | some err => exact he
    | none => dsimp only; split_ifs <;> exact ⟨he.profiles,he.overrides,he.mode⟩
  | checkWatchdogs =>
    unfold PolicyCall.apply Engine.checkWatchdogs
    dsimp only
    cases q.ctx with
    | some err => exact he
    | none => exact (checkLocked_sameAccounts e q.clock q.order).sound he
  | grantOverride o =>
    unfold PolicyCall.apply
    dsimp only
    rcases grantOverride_cases e q.ctx q.clock o with ⟨_,h⟩ | ⟨_,_,hmem,h⟩
    · rw [h]; exact he
    · rw [h]
      refine ⟨he.profiles,fun id hid => ?_,he.mode⟩
      rcases (AList.mem_insert _).mp hid with rfl | hid
      · exact hmem
      · exact he.overrides id hid
  | revokeOverride id =>
    unfold PolicyCall.apply Engine.revokeOverride
    dsimp only
    cases q.ctx with
    | some err => exact he
    | none => exact ⟨he.profiles,fun i hi => he.overrides i (AList.mem_erase.mp hi).2,he.mode⟩

theorem call_sound (he : e.Sound) (c : EngineCall) : (e.call c).Sound := by
  cases c with
  | policy call q => exact policyCall_sound he call q
  | setMode ctx mode =>
    unfold Engine.call Engine.setMode
    cases ctx with
    | some err => exact he
    | none =>
      cases mode with
      | other text => exact he
      | _ => exact ⟨he.profiles,he.overrides,by rintro text ⟨⟩⟩

theorem run_sound (h : newEngine ps = .ok e)
    (calls : List EngineCall) : (run Engine.call e calls).Sound :=
  invariant_always (I := Engine.Sound) (fun _ c he => call_sound he c) (newEngine_sound h) calls

end SafetyEngine
end AquaOS
