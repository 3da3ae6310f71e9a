import AquaOS.EngineCalls

/-! Whether the policy lets through what its own watchdogs ask for. An action that switches
equipment off always passes. An action that keeps fail-safe-on equipment on is checked
against the limits like any other activation. -/
namespace AquaOS
namespace SafetyEngine

open Domain EquipmentProfile Timeline Transition

/-- The intent `RunWatchdogs` submits for an action. -/
def WatchdogAction.intent (a : WatchdogAction) : Intent := ⟨a.equipmentID,a.on,a.observedAt⟩

def Allowed (answer : Except Failure Decision) : Prop := ∃ d, answer = .ok d ∧ d.allowed = true

/-- Why a check emits an action, read off the engine it started from. -/
structure Emitted (e : Engine) (now : ℤ) (a : WatchdogAction) : Prop where
  time : a.observedAt = now
  safe : a.on = e.failSafeOn a.equipmentID
  cause : (∃ o, e.overrides.lookup a.equipmentID = some o ∧ o.expiresAt ≤ now) ∨
    ∃ p, e.profiles.lookup a.equipmentID = some p ∧
      (maximumOnReached p (e.runtimeOf a.equipmentID) now ∨
        maximumDailyOnReached p ((e.runtimeOf a.equipmentID).account now))

variable {now : ℤ} {id : EquipmentID} {e e' : Engine} {a : WatchdogAction}

theorem Turn.emits {out : List WatchdogAction × Engine} (h : Turn now id e out) (ha : a ∈ out.1) :
    ∃ reason, a = ⟨id,e.failSafeOn id,reason,now⟩ := by
  rcases h.own with ⟨hnone,_⟩ | ⟨reason,_,_,_,hone,_⟩
  · rw [hnone] at ha; cases ha
  · rw [hone] at ha; exact ⟨reason,List.mem_singleton.mp ha⟩

theorem expireOverride_emitted (h : SameAccounts now e e') (ha : a ∈ (e'.expireOverride now id).1) :
    Emitted e now a := by
  obtain ⟨reason,rfl⟩ := (expireOverride_turn e' now id).emits ha
  refine ⟨rfl,h.failSafeOn id,.inl ?_⟩
  unfold Engine.expireOverride at ha
  cases ho : e'.overrides.lookup id with
  | none => simp [ho] at ha
  | some o =>
    simp only [ho] at ha
    split_ifs at ha with hlive
    · cases ha
    · exact ⟨o,h.overrides id o ho,not_lt.mp hlive⟩
    · cases ha

theorem checkProfile_emitted (h : SameAccounts now e e') (ha : a ∈ (e'.checkProfile now id).1) :
    Emitted e now a := by
  obtain ⟨reason,rfl⟩ := (checkProfile_turn e' now id).emits ha
  refine ⟨rfl,h.failSafeOn id,.inr ?_⟩
  unfold Engine.checkProfile at ha
  cases hp : e'.profiles.lookup id with
  | none => simp [hp] at ha
  | some p =>
    refine ⟨p,h.profiles ▸ hp,?_⟩
    simp only [hp] at ha
    split_ifs at ha with _ hmax hdaily
    · cases ha
    · exact .inl ((h.maximumOn p id).mp hmax)
    · exact .inr ((h.maximumDailyOn p id).mp hdaily.2)
    · cases ha

/-- Every action of a check has its cause in the state the check found. -/
theorem checkLocked_emitted {order : VisitOrder}
    (ha : a ∈ (e.checkLocked now order).1) : Emitted e now a := by
  rcases List.mem_append.mp ha with ha | ha
  · exact sweep_emits (P := SameAccounts now e) (R := Emitted e now)
      (fun e id _ h => h.turn (expireOverride_turn e now id) fun _ _ => expireOverride_overrides)
      (fun e id _ a h ha => expireOverride_emitted h ha) (SameAccounts.refl now e) ha
  · exact sweep_emits (P := SameAccounts now e) (R := Emitted e now)
      (fun e id _ h => h.checkProfile id) (fun e id _ a h ha => checkProfile_emitted h ha)
      (expireOverrides_sameAccounts e now order.overrides) ha

theorem Emitted.known (h : Emitted e now a)
    (he : e.Sound) : ∃ p, e.profiles.lookup a.equipmentID = some p := by
  rcases h.cause with ⟨o,ho,_⟩ | ⟨p,hp,_⟩
  · have hmem := he.overrides _ (Table.mem_of_lookup ho)
    exact Option.isSome_iff_exists.mp (AList.lookup_isSome.mpr hmem)
  · exact ⟨p,hp⟩

/-- An evaluation without hazardous inputs allows equipment on unless the stop, a limit or
the mode is against it. -/
theorem decide_allowed_iff (ev : Evaluation) (get : Reader) (hon : ev.on = true)
    (hz : ev.profile.hazardous = false) : Allowed (ev.decide get) ↔ ev.mode ≠ .emergencyStop ∧
      ¬ maximumOnReached ev.profile ev.runtime ev.now ∧
      ¬ maximumDailyOnReached ev.profile ev.runtime ∧
      ¬ minimumOffPending ev.profile ev.runtime ev.now ∧
      ((ev.mode = .maintenance ∨ ev.mode = .manual) → ev.override ≠ none) := by
  unfold Evaluation.decide Evaluation.modeDecision Allowed
  simp only [hon,hz]
  split_ifs <;> simp_all [refusedHard,granted]

/-- The safe state of the equipment is off; or it is on, the mode is normal, and neither a
limit nor a pause stands against it. -/
def SafeStateAdmitted (e : Engine) (now : ℤ) (id : EquipmentID) : Prop :=
  ∀ p, e.profiles.lookup id = some p → p.failSafeOn = true →
    e.mode = .normal ∧ ¬ maximumOnReached p (e.runtimeOf id) now ∧
      ¬ maximumDailyOnReached p ((e.runtimeOf id).account now) ∧
      ¬ minimumOffPending p (e.runtimeOf id) now

theorem swept_admits_iff {get : Reader} (he : e.Sound) (h : SameAccounts now e e')
    (ha : Emitted e now a) {p : Profile} (hp : e.profiles.lookup a.equipmentID = some p) :
    Allowed ((e'.evaluationAt a.intent now p).decide get) ↔
      SafeStateAdmitted e now a.equipmentID := by
  have hsafe : a.on = p.failSafeOn := by rw [ha.safe,Engine.failSafeOn,hp]; rfl
  cases hon : p.failSafeOn with
  | false =>
    have hoff : (e'.evaluationAt a.intent now p).on = false := hsafe.trans hon
    refine iff_of_true ⟨granted,?_,rfl⟩ ?_
    · rw [Evaluation.decide,if_pos hoff]
    · intro q hq hq'
      rw [hp] at hq
      cases hq
      rw [hon] at hq'
      cases hq'
  | true =>
    have hz := ((validate_eq_none_iff p).mp (he.profiles _ p hp)).safe hon
    rw [decide_allowed_iff _ get (hsafe.trans hon) hz]
    have hmode : (e'.evaluationAt a.intent now p).mode = e.mode := h.mode
    have hmax := h.maximumOn p a.equipmentID
    have hdaily := h.maximumDailyOn p a.equipmentID
    have hoff := h.minimumOff p a.equipmentID
    rw [hmode]
    refine Iff.trans (and_congr_right fun _ => and_congr (not_congr hmax)
      (and_congr (not_congr hdaily) (and_congr_left fun _ => not_congr hoff))) ?_
    constructor
    · rintro ⟨hstop,h1,h2,h3,hoverride⟩ q hq _
      rw [hp] at hq
      cases hq
      refine ⟨?_,h1,h2,h3⟩
      rcases ha.cause with ⟨o,ho,hexp⟩ | ⟨q,hq,hlimit⟩
      · have hnone : e'.liveOverride a.equipmentID now = none := by
          unfold Engine.liveOverride
          cases ho' : e'.overrides.lookup a.equipmentID with
          | none => rfl
          | some o' =>
            obtain rfl := Option.mem_unique ho (h.overrides _ o' ho')
            simp [Option.filter,hexp]
        have hm : ¬ (e.mode = .maintenance ∨ e.mode = .manual) := fun hm => hoverride hm hnone
        have hother := he.mode
        cases hmode : e.mode with
        | normal => rfl
        | maintenance => exact absurd (.inl hmode) hm
        | manual => exact absurd (.inr hmode) hm
        | emergencyStop => exact absurd hmode hstop
        | other text => exact absurd hmode (hother text)
      · rw [hp] at hq
        cases hq
        rcases hlimit with hl | hl
        · exact absurd hl h1
        · exact absurd hl h2
    · intro hadm
      obtain ⟨hn,h1,h2,h3⟩ := hadm p hp hon
      rw [hn]
      exact ⟨by simp,h1,h2,h3,by simp⟩

/-- In every state calls on an accepted set of profiles lead to, an action of a watchdog
check passes the policy right after it exactly when the safe state it asks for is off, or
is on, in normal mode, with no limit reached and no pause pending when the check began. -/
theorem watchdog_action_allowed_iff {profiles : List Profile} {e : Engine}
    (hnew : newEngine profiles = .ok e) (calls : List EngineCall) (now clock : ℤ)
    (order : VisitOrder) (get : Reader) (hclock : now = 0 → clock = 0)
    {actions : List WatchdogAction}
    (hcheck : ((run Engine.call e calls).checkWatchdogs none now order).1 = .ok actions)
    {a : WatchdogAction} (ha : a ∈ actions) :
    Allowed (((run Engine.call e calls).checkWatchdogs none now order).2.evaluate none clock get
      a.intent).1 ↔ SafeStateAdmitted (run Engine.call e calls) now a.equipmentID := by
  have he := run_sound hnew calls
  obtain rfl : ((run Engine.call e calls).checkLocked now order).1 = actions :=
    Except.ok.inj hcheck
  have hem := checkLocked_emitted ha
  have hsame := checkLocked_sameAccounts (run Engine.call e calls) now order
  obtain ⟨p,hp⟩ := hem.known he
  have htime : a.intent.time clock = now := by
    have ht : a.intent.issuedAt = now := hem.time
    unfold Intent.time
    rw [ht]
    split_ifs with hz
    · rw [hz,hclock hz]
    · rfl
  have heval := evaluate_eq (((run Engine.call e calls).checkWatchdogs none now order).2) clock get
    a.intent
  have hp' : ((run Engine.call e calls).checkWatchdogs none now order).2.profiles.lookup
      a.intent.equipmentID = some p := by
    rw [← hp]
    exact congrArg (AList.lookup a.equipmentID) hsame.profiles
  rw [hp',htime] at heval
  rw [heval]
  exact swept_admits_iff he hsame hem hp

def returnPump : Profile := { outlet with kind := .returnPump, failSafeOn := true }

def pumpOverride : Override :=
  { id := "50000000-0000-4000-8000-000000000001", equipmentID := outletID, requester := "operator"
    reason := "service", createdAt := newYear, expiresAt := newYear+2*hour }

def pumpCalls : List EngineCall :=
  [.policy (.grantOverride pumpOverride) {},.policy (.recordReported outletID true (newYear+hour)) {}]

def pumpEngine : Engine := { profiles := (∅ : Table EquipmentID Profile).insert outletID returnPump }

def expiryAction : WatchdogAction := ⟨outletID,true,reasonOverrideExpired,newYear+2*hour⟩

/-- The expiry of the override in normal mode asks for the pump to stay on, and may. -/
theorem pump_kept_on :
    Allowed (((run Engine.call pumpEngine pumpCalls).checkWatchdogs none (newYear+2*hour)
      ⟨[outletID],[outletID]⟩).2.evaluate none 0 (fun _ _ => .error .stateNotFound)
      expiryAction.intent).1 := by
  have hnew : newEngine [returnPump] = .ok pumpEngine := by rfl
  have hcheck : ((run Engine.call pumpEngine pumpCalls).checkWatchdogs none (newYear+2*hour)
      ⟨[outletID],[outletID]⟩).1 = .ok [expiryAction] := by rfl
  refine (watchdog_action_allowed_iff hnew pumpCalls (newYear+2*hour) 0 ⟨[outletID],[outletID]⟩ _
    (by decide) hcheck List.mem_cons_self).mpr ?_
  intro p hp _
  obtain rfl : returnPump = p := Option.some.inj hp
  decide

/-- A pump that has run past its limit is told to stay on, and the policy refuses. -/
theorem pump_refused_by_limit :
    ¬ ∀ (profiles : List Profile) (e : Engine) (calls : List EngineCall) (now clock : ℤ)
      (order : VisitOrder) (get : Reader) (actions : List WatchdogAction) (a : WatchdogAction),
      newEngine profiles = .ok e → (now = 0 → clock = 0) →
      ((run Engine.call e calls).checkWatchdogs none now order).1 = .ok actions → a ∈ actions →
      Allowed (((run Engine.call e calls).checkWatchdogs none now order).2.evaluate none clock get
        a.intent).1 := by
  intro h
  obtain ⟨d,hd,hallowed⟩ := h [returnPump] pumpEngine
    [.policy (.recordReported outletID true (newYear+hour)) {}] (newYear+3*hour) 0
    ⟨[],[outletID]⟩ (fun _ _ => .error .stateNotFound)
    [⟨outletID,true,reasonMaximumOn,newYear+3*hour⟩] _ (by rfl) (by decide) (by rfl)
    List.mem_cons_self
  obtain rfl : refusedHard reasonMaximumOn = d := Except.ok.inj hd
  cases hallowed

end SafetyEngine
end AquaOS
