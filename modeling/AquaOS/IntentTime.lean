import AquaOS.PolicyDecision

/-! The time an intent carries. `Evaluate` decides at the intent's own time, so a
refusal carries over to another time exactly where a constraint stands there too, and
a call dated another day discards the runtime accounted for the equipment. -/
namespace AquaOS
namespace SafetyEngine

open Domain CanonicalState EquipmentProfile Timeline

def Refused (answer : Except Failure Decision) : Prop := ∃ d, answer = .ok d ∧ d.allowed = false

/-- What stands behind a refusal of an on-intent. -/
inductive RefusalCause (ev : Evaluation) (get : Reader) (d : Decision) : Prop
  | emergencyStop (h : ev.mode = .emergencyStop) (hd : d = refusedHard reasonEmergencyStop)
  | maximumOn (h : maximumOnReached ev.profile ev.runtime ev.now)
      (hd : d = refusedHard reasonMaximumOn)
  | maximumDailyOn (h : maximumDailyOnReached ev.profile ev.runtime)
      (hd : d = refusedHard reasonMaximumDailyOn)
  | minimumOff (h : minimumOffPending ev.profile ev.runtime ev.now)
      (hd : d = refusedHard reasonMinimumOff)
  | inputs (hz : ev.profile.hazardous = true)
      (h : validateInputs get 0 ev.profile.requiredInputs = .ok d)
  | overrideRequired (hm : ev.mode = .maintenance ∨ ev.mode = .manual) (ho : ev.override = none)
      (hi : ev.profile.hazardous = true →
        ∃ d', validateInputs get 0 ev.profile.requiredInputs = .ok d' ∧ d'.allowed = true)
      (hd : d = { reason := reasonOverrideRequired })

theorem refusalCause (ev : Evaluation) (get : Reader) (hon : ev.on = true) (d : Decision)
    (h : ev.decide get = .ok d) (hd : d.allowed = false) : RefusalCause ev get d := by
  rw [decide_eq ev get hon] at h
  cases ho : ev.hardOutcome get with
  | none =>
    obtain ⟨-,-,-,-,hi⟩ := hardOutcome_eq_none ev get ho
    rw [ho] at h
    obtain rfl := Except.ok.inj h
    unfold Evaluation.modeDecision at hd ⊢
    split_ifs at hd ⊢ with hm
    · exact .overrideRequired hm.1 hm.2 hi rfl
    · simp [granted] at hd
  | some out =>
    rw [ho] at h
    obtain rfl : out = .ok d := h
    unfold Evaluation.hardOutcome at ho
    split_ifs at ho with h1 h2 h3 h4 h5
    · exact .emergencyStop h1 (by simpa using ho.symm)
    · exact .maximumOn h2 (by simpa using ho.symm)
    · exact .maximumDailyOn h3 (by simpa using ho.symm)
    · exact .minimumOff h4 (by simpa using ho.symm)
    · apply RefusalCause.inputs h5
      cases hv : validateInputs get 0 ev.profile.requiredInputs with
      | error err => simp [hv] at ho
      | ok d' =>
        simp only [hv] at ho
        split_ifs at ho
        simpa using ho

/-- A constraint refuses the activation at the time of the evaluation. -/
def Evaluation.Stands (ev : Evaluation) (get : Reader) : Prop :=
  (ev.mode = .emergencyStop ∨ maximumOnReached ev.profile ev.runtime ev.now ∨
    maximumDailyOnReached ev.profile ev.runtime ∨ minimumOffPending ev.profile ev.runtime ev.now) ∨
  (ev.profile.hazardous = true ∧
    ∃ d, validateInputs get 0 ev.profile.requiredInputs = .ok d ∧ d.allowed = false) ∨
  ((ev.mode = .maintenance ∨ ev.mode = .manual) ∧ ev.override = none ∧
    (ev.profile.hazardous = true →
      ∃ d, validateInputs get 0 ev.profile.requiredInputs = .ok d ∧ d.allowed = true))

theorem not_refused_error (err : Failure) : ¬ Refused (.error err) := nofun

theorem refused_ok {d : Decision} : Refused (.ok d) ↔ d.allowed = false := by
  simp [Refused]

theorem modeDecision_allowed (ev : Evaluation) : ev.modeDecision.allowed = false ↔
    (ev.mode = .maintenance ∨ ev.mode = .manual) ∧ ev.override = none := by
  unfold Evaluation.modeDecision
  split_ifs with h
  · exact iff_of_true rfl h
  · exact iff_of_false nofun h

theorem refused_iff_stands (ev : Evaluation) (get : Reader) (hon : ev.on = true) :
    Refused (ev.decide get) ↔ ev.Stands get := by
  unfold Evaluation.decide Evaluation.Stands
  simp only [hon,Bool.true_eq_false,if_false]
  split_ifs with h1 h2 h3 h4 h5
  · exact iff_of_true (refused_ok.mpr rfl) (.inl (.inl h1))
  · exact iff_of_true (refused_ok.mpr rfl) (.inl (.inr (.inl h2)))
  · exact iff_of_true (refused_ok.mpr rfl) (.inl (.inr (.inr (.inl h3))))
  · exact iff_of_true (refused_ok.mpr rfl) (.inl (.inr (.inr (.inr h4))))
  · cases validateInputs get 0 ev.profile.requiredInputs with
    | error err => simp [h1,h2,h3,h4,h5,not_refused_error]
    | ok d =>
      cases hd : d.allowed with
      | false => simp [hd,h5,refused_ok]
      | true => simp [hd,h1,h2,h3,h4,h5,refused_ok,modeDecision_allowed]
  · simp [h1,h2,h3,h4,h5,refused_ok,modeDecision_allowed]

variable {p : Profile} {r : RuntimeState} {t u : ℤ}

theorem maximumOnReached_mono (htu : t ≤ u)
    (h : maximumOnReached p (r.account t) t) : maximumOnReached p (r.account u) u := by
  obtain ⟨hon,hp,hs⟩ := h
  simp only [RuntimeState.account_on,RuntimeState.account_onSince] at hon hs
  exact ⟨by simpa using hon,hp,by simpa using hs.trans (sub_le_sub htu)⟩

theorem minimumOffPending_anti (hut : u ≤ t)
    (h : minimumOffPending p (r.account t) t) : minimumOffPending p (r.account u) u := by
  obtain ⟨ho,hp,hs⟩ := h
  simp only [RuntimeState.account_offSince] at ho hs
  exact ⟨by simpa using ho,hp,by simpa using lt_of_le_of_lt (sub_le_sub hut) hs⟩

theorem maximumDailyOnReached_mono (htu : t ≤ u) (hd : day t = day u)
    (h : maximumDailyOnReached p (r.account t)) : maximumDailyOnReached p (r.account u) :=
  ⟨h.1,h.2.trans (r.account_dailyOn_mono htu hd)⟩

theorem liveOverride_eq_none_mono {e : Engine} {id : EquipmentID} (h : e.liveOverride id t = none)
    (hu : t ≤ u ∨ e.overrides.lookup id = none) : e.liveOverride id u = none := by
  unfold Engine.liveOverride at *
  rcases hu with htu | hn
  · cases ho : e.overrides.lookup id with
    | none => rfl
    | some o =>
      simp only [ho,Option.filter,decide_eq_true_eq] at h ⊢
      split_ifs at h ⊢ <;> first | rfl | omega
  · simp [hn]

/-- The refusals that carry over from the time `t` to the time `u`: those that rest on
nothing time-dependent, and each time limit in its own direction. -/
def CarriesOver (e : Engine) (id : EquipmentID) (reason : String) (t u : ℤ) : Prop :=
  reason ∈ [reasonUnknownEquipment,reasonEmergencyStop,reasonInputMissing,reasonInputInvalid,
    reasonInputStale,reasonInputMismatch] ∨
  (reason = reasonMaximumOn ∧ t ≤ u) ∨
  (reason = reasonMaximumDailyOn ∧ t ≤ u ∧ day t = day u) ∨
  (reason = reasonMinimumOff ∧ u ≤ t) ∨
  (reason = reasonOverrideRequired ∧ (t ≤ u ∨ e.overrides.lookup id = none))

theorem carriesOver_limits (e : Engine) (id : EquipmentID) (t u : ℤ) :
    (CarriesOver e id reasonMaximumOn t u ↔ t ≤ u) ∧
    (CarriesOver e id reasonMaximumDailyOn t u ↔ t ≤ u ∧ day t = day u) ∧
    (CarriesOver e id reasonMinimumOff t u ↔ u ≤ t) ∧
    (CarriesOver e id reasonOverrideRequired t u ↔
      (t ≤ u ∨ e.overrides.lookup id = none)) := by
  simp [CarriesOver,reasonUnknownEquipment,reasonEmergencyStop,reasonInputMissing,
    reasonInputInvalid,reasonInputStale,reasonInputMismatch,reasonMaximumOn,
    reasonMaximumDailyOn,reasonMinimumOff,reasonOverrideRequired]

theorem evaluation_refusal_carries_over (e : Engine) (id : EquipmentID) (p : Profile) (get : Reader)
    (d : Decision) (h : (e.evaluationAt ⟨id,true,t⟩ t p).decide get = .ok d)
    (hd : d.allowed = false) (hc : CarriesOver e id d.reason t u) :
    Refused ((e.evaluationAt ⟨id,true,u⟩ u p).decide get) := by
  obtain ⟨hon,hdaily,hoff,hover⟩ := carriesOver_limits e id t u
  rw [refused_iff_stands _ get rfl]
  cases refusalCause (e.evaluationAt ⟨id,true,t⟩ t p) get rfl d h hd with
  | emergencyStop hm _ => exact .inl (.inl hm)
  | maximumOn hl hd' =>
    subst hd'
    exact .inl (.inr (.inl (maximumOnReached_mono (hon.mp hc) hl)))
  | maximumDailyOn hl hd' =>
    subst hd'
    obtain ⟨htu,hday⟩ := hdaily.mp hc
    exact .inl (.inr (.inr (.inl (maximumDailyOnReached_mono htu hday hl))))
  | minimumOff hl hd' =>
    subst hd'
    exact .inl (.inr (.inr (.inr (minimumOffPending_anti (hoff.mp hc) hl))))
  | inputs hz hv => exact .inr (.inl ⟨hz,d,hv,hd⟩)
  | overrideRequired hm ho hi hd' =>
    subst hd'
    exact .inr (.inr ⟨hm,liveOverride_eq_none_mono ho (hover.mp hc),hi⟩)

/-- The runtime the engine has accounted to an equipment for one UTC day. -/
def Engine.accountedFor (e : Engine) (id : EquipmentID) (date : ℤ) : ℤ :=
  if (e.runtimeOf id).dailyDate = some date then (e.runtimeOf id).dailyOn else 0

theorem accountedFor_evaluate (e : Engine) (clock : ℤ) (get : Reader) (intent : Intent)
    (id : EquipmentID) (date : ℤ) :
    (e.evaluate none clock get intent).2.accountedFor id date =
      if id = intent.equipmentID ∧ id ∈ e.profiles then
        if day (intent.time clock) = date then
          ((e.runtimeOf id).account (intent.time clock)).dailyOn
        else 0
      else e.accountedFor id date := by
  rw [evaluate_snd]
  unfold Engine.accountedFor
  rw [evaluateLocked_runtimeOf]
  split_ifs <;> simp_all

/-- Accounting within a day only extends what is accounted for it. -/
theorem accountedFor_le_account (e : Engine) (id : EquipmentID) (now : ℤ) :
    e.accountedFor id (day now) ≤ ((e.runtimeOf id).account now).dailyOn := by
  unfold Engine.accountedFor
  by_cases hdate : (e.runtimeOf id).dailyDate = some (day now)
  · rw [if_pos hdate,RuntimeState.account_dailyOn_same hdate]
    have hpos : (e.runtimeOf id).lastAccounted < now →
      0 < sub now (e.runtimeOf id).lastAccounted := sub_pos
    split_ifs with h
    · have := hpos h.2.2
      omega
    · omega
  · rw [if_neg hdate,RuntimeState.account_dailyOn_new hdate]

/-- A call loses runtime accounted for a day exactly if it is dated another day and is for the
equipment itself. -/
theorem accountedFor_le_iff (e : Engine) (ctx : Option Failure) (clock : ℤ) (get : Reader)
    (intent : Intent) (id : EquipmentID) (date : ℤ) :
    e.accountedFor id date ≤ (e.evaluate ctx clock get intent).2.accountedFor id date ↔
      ctx ≠ none ∨ intent.equipmentID ≠ id ∨ id ∉ e.profiles ∨
        day (intent.time clock) = date ∨ e.accountedFor id date ≤ 0 := by
  cases ctx with
  | some err => exact iff_of_true le_rfl (.inl nofun)
  | none =>
    rw [accountedFor_evaluate]
    split_ifs with hid hdate
    · refine iff_of_true ?_ (.inr (.inr (.inr (.inl hdate))))
      rw [← hdate]
      exact accountedFor_le_account e id (intent.time clock)
    · simp [hid.1.symm,hid.2,hdate]
    · refine iff_of_true le_rfl ?_
      by_cases hequipment : intent.equipmentID = id
      · exact .inr (.inr (.inl fun hmem => hid ⟨hequipment.symm,hmem⟩))
      · exact .inr (.inl hequipment)

/-- Three hours on, which is all the day allows, and off again. -/
def outletSpent : Engine := (outletOn.recordReported none outletID false (newYear+4*hour)).2

end SafetyEngine
end AquaOS
