import AquaOS.IntentTime
import AquaOS.RuntimeAccounting

/-! The maximum-daily-on limit over whole runs: it is enforced by intents and by watchdog
checks alike, on a total that is exact as long as midnight does not fall between two
accountings of equipment that is on. -/
namespace AquaOS
namespace SafetyEngine

open Domain EquipmentProfile Timeline Transition

theorem accrue_accrue (r : RuntimeState) (now : ℤ) : (r.accrue now).accrue now = r.accrue now := by
  unfold RuntimeState.accrue
  split_ifs <;> simp_all

theorem account_account (r : RuntimeState) (now : ℤ) :
    (r.account now).account now = r.account now := by
  have hroll : (r.account now).rollOver now = r.account now :=
    if_pos (RuntimeState.account_dailyDate r now)
  calc (r.account now).account now = (r.account now).accrue now := by
        rw [RuntimeState.account,hroll]
    _ = r.account now := accrue_accrue (r.rollOver now) now

theorem account_latch (r : RuntimeState) (reason : String) (now : ℤ) :
    RuntimeState.account { r with watchdogReason := reason } now =
      { r.account now with watchdogReason := reason } := by
  unfold RuntimeState.account RuntimeState.rollOver RuntimeState.accrue
  by_cases hd : r.dailyDate = some (day now)
  · simp only [if_pos hd]
    split_ifs <;> rfl
  · simp only [if_neg hd]
    split_ifs <;> rfl

/-- The engine with the runtime of every equipment brought up to `now` as `e` has it. -/
structure SameTotals (now : ℤ) (e e' : Engine) : Prop where
  profiles : e'.profiles = e.profiles
  total : ∀ id, ((e'.runtimeOf id).account now).dailyOn = ((e.runtimeOf id).account now).dailyOn

variable {now clock : ℤ} {e e' : Engine} {id : EquipmentID} {a : WatchdogAction} {p : Profile}
  {order : VisitOrder} {get : Reader} {intent : Intent}

theorem SameTotals.turn (h : SameTotals now e e')
    {out : List WatchdogAction × Engine} (ht : Turn now id e' out) : SameTotals now e out.2 := by
  refine ⟨ht.profiles.trans h.profiles,fun i => Eq.trans ?_ (h.total i)⟩
  by_cases hi : i = id
  · subst hi
    rcases ht.own with ⟨_,hs | hs⟩ | ⟨reason,_,_,_,_,hs⟩
    · rw [hs]
    · rw [hs,account_account]
    · rw [hs,account_latch,account_account]
  · rw [ht.others i hi]

theorem expireOverrides_sameTotals (e : Engine) (now : ℤ) (order : List EquipmentID) :
    SameTotals now e (e.sweep (fun e id => e.expireOverride now id) order).2 :=
  sweep_invariant (P := SameTotals now e)
    (fun e id _ h => h.turn (expireOverride_turn e now id)) ⟨rfl,fun _ => rfl⟩

theorem SameTotals.reached (h : SameTotals now e e') (p : Profile) (id : EquipmentID) :
    maximumDailyOnReached p ((e'.runtimeOf id).account now) ↔
      maximumDailyOnReached p ((e.runtimeOf id).account now) := by
  unfold maximumDailyOnReached
  rw [h.total id]

theorem expireOverride_reason
    (h : a ∈ (e.expireOverride now id).1) : a.reason = reasonOverrideExpired := by
  unfold Engine.expireOverride at h
  cases ho : e.overrides.lookup id with
  | none => simp [ho] at h
  | some o =>
    simp only [ho] at h
    split_ifs at h
    · cases h
    · rw [List.mem_singleton.mp h]
    · cases h

theorem checkProfile_daily
    (h : a ∈ (e.checkProfile now id).1) (hr : a.reason = reasonMaximumDailyOn) :
    a.equipmentID = id ∧ ∀ p, e.profiles.lookup id = some p →
      maximumDailyOnReached p ((e.runtimeOf id).account now) := by
  unfold Engine.checkProfile at h
  cases hp : e.profiles.lookup id with
  | none => simp [hp] at h
  | some p =>
    simp only [hp] at h
    split_ifs at h with hlatched hmax hdaily
    · cases h
    · obtain rfl := List.mem_singleton.mp h
      simp [reasonMaximumOn,reasonMaximumDailyOn] at hr
    · obtain rfl := List.mem_singleton.mp h
      refine ⟨rfl,?_⟩
      rintro q ⟨⟩
      exact hdaily.2
    · cases h

/-- A watchdog check that reports the daily limit found it reached. -/
theorem checkLocked_daily_sound (h : a ∈ (e.checkLocked now order).1)
    (hr : a.reason = reasonMaximumDailyOn) (hp : e.profiles.lookup a.equipmentID = some p) :
    maximumDailyOnReached p ((e.runtimeOf a.equipmentID).account now) := by
  have hover := expireOverrides_sameTotals e now order.overrides
  rcases List.mem_append.mp h with h | h
  · have hreason := sweep_emits (P := fun _ => True)
      (R := fun a => a.reason = reasonOverrideExpired)
      (fun _ _ _ _ => trivial) (fun e i _ a _ ha => expireOverride_reason ha) trivial h
    rw [hreason] at hr
    simp [reasonOverrideExpired,reasonMaximumDailyOn] at hr
  · refine sweep_emits (P := SameTotals now e)
      (R := fun a => a.reason = reasonMaximumDailyOn → ∀ p,
        e.profiles.lookup a.equipmentID = some p →
        maximumDailyOnReached p ((e.runtimeOf a.equipmentID).account now))
      (fun e i _ h => h.turn (checkProfile_turn e now i)) ?_ hover h hr p hp
    intro e' i _ a h' ha hr p hp
    obtain ⟨rfl,hreached⟩ := checkProfile_daily ha hr
    exact (h'.reached p a.equipmentID).mp (hreached p (h'.profiles ▸ hp))

/-- A watchdog check leaves no equipment on and unlatched past its daily limit. -/
theorem checkLocked_daily_complete (hp : e.profiles.lookup id = some p)
    (hmem : id ∈ order.profiles) (h : maximumDailyOnReached p ((e.runtimeOf id).account now)) :
    Latched (e.checkLocked now order).2 id := by
  have hover := expireOverrides_sameTotals e now order.overrides
  refine sweep_establishes (P := SameTotals now e) (Q := fun e => Latched e id)
    (fun e i _ h => h.turn (checkProfile_turn e now i))
    (fun e i _ _ hl => (checkProfile_turn e now i).latched hl) ?_ hover hmem
  intro e' h'
  exact checkProfile_latches (h'.profiles.symm ▸ hp) (.inr ((h'.reached p id).mpr h))

theorem requirementDecision_reason (r : InputRequirement) (value : CanonicalState.Value) :
    (requirementDecision r value).reason ≠ reasonMaximumDailyOn := by
  unfold requirementDecision
  cases value.quality <;> dsimp only
  case good => split_ifs <;> decide
  all_goals decide

theorem validateInputs_reason {n : ℕ} {rs : List InputRequirement} {d : Decision}
    (h : validateInputs get n rs = .ok d) : d.reason ≠ reasonMaximumDailyOn := by
  rcases validateInputs_cases h with rfl | rfl | ⟨r,value,rfl⟩
  · decide
  · decide
  · exact requirementDecision_reason r value

/-- An evaluation that reports the daily limit found it reached. -/
theorem evaluate_daily_sound {ctx : Option Failure}
    (hp : e.profiles.lookup intent.equipmentID = some p)
    (h : (e.evaluate ctx clock get intent).1 = .ok (refusedHard reasonMaximumDailyOn)) :
    maximumDailyOnReached p ((e.runtimeOf intent.equipmentID).account (intent.time clock)) := by
  cases ctx with
  | some err => simp [Engine.evaluate] at h
  | none =>
    rw [evaluate_eq,hp] at h
    by_cases hon : intent.on = true
    · cases refusalCause _ get hon _ h rfl with
      | maximumDailyOn hl _ => exact hl
      | inputs _ hv => exact absurd rfl (validateInputs_reason hv)
      | emergencyStop _ hd => simp [refusedHard,reasonMaximumDailyOn,reasonEmergencyStop] at hd
      | maximumOn _ hd => simp [refusedHard,reasonMaximumDailyOn,reasonMaximumOn] at hd
      | minimumOff _ hd => simp [refusedHard,reasonMaximumDailyOn,reasonMinimumOff] at hd
      | overrideRequired _ _ _ hd => simp [refusedHard] at hd
    · have hoff : (e.evaluationAt intent (intent.time clock) p).on = false := by
        simpa [Engine.evaluationAt] using hon
      simp [Evaluation.decide,hoff,granted,refusedHard] at h

theorem evaluate_daily_complete (get : Reader)
    (hp : e.profiles.lookup intent.equipmentID = some p) (hon : intent.on = true)
    (h : maximumDailyOnReached p ((e.runtimeOf intent.equipmentID).account (intent.time clock))) :
    Refused (e.evaluate none clock get intent).1 := by
  rw [evaluate_eq,hp]
  exact (refused_iff_stands (e.evaluationAt intent (intent.time clock) p) get hon).mpr
    (.inl (.inr (.inr (.inl h))))

def Call.ReportsDailyLimit (e : Engine) : Call → EquipmentID → Prop
  | .report _ _ _ _, _ => False
  | .evaluate ctx clock get intent, i => intent.equipmentID = i ∧
      (e.evaluate ctx clock get intent).1 = .ok (refusedHard reasonMaximumDailyOn)
  | .check ctx now order, i => ∃ actions, (e.checkWatchdogs ctx now order).1 = .ok actions ∧
      ∃ a ∈ actions, a.equipmentID = i ∧ a.reason = reasonMaximumDailyOn

/-- The call stops the equipment: it refuses an on-intent, or leaves a watchdog reason
latched on equipment that is on. -/
def Call.Stops (e : Engine) : Call → EquipmentID → Prop
  | .report _ _ _ _, _ => True
  | .evaluate ctx clock get intent, _ =>
      intent.on = true → Refused (e.evaluate ctx clock get intent).1
  | .check ctx now order, i => Latched (e.checkWatchdogs ctx now order).2 i

theorem Accounted.reached_iff {r : RuntimeState} {history : List Report}
    (h : Accounted r history now) (p : Profile) :
    maximumDailyOnReached p r ↔ 0 < p.limits.maximumDailyOn ∧
      p.limits.maximumDailyOn ≤ onTime history (dayStart now) now := by
  rw [maximumDailyOnReached,h.total]

/-- One call enforces the daily limit on the time the equipment was on. -/
theorem step_enforces_daily {l : Ledger} {c : Call} (h : l.Tracks c.time) (hp : l.Prompt c)
    (hid : c.Accounts l.engine id) (hl : l.engine.profiles.lookup id = some p) :
    (c.ReportsDailyLimit l.engine id → 0 < p.limits.maximumDailyOn ∧
      p.limits.maximumDailyOn ≤ onTime ((l.step c).history id) (dayStart c.time) c.time) ∧
    (0 < p.limits.maximumDailyOn → p.limits.maximumDailyOn ≤
      onTime ((l.step c).history id) (dayStart c.time) c.time → c.Stops l.engine id) := by
  cases c with
  | report ctx i on observedAt => exact ⟨False.elim,fun _ _ => trivial⟩
  | evaluate ctx clock get intent =>
    obtain ⟨rfl,rfl,_⟩ := hid
    have hiff := ((h _).account (hp _ ⟨rfl,rfl⟩)).reached_iff p
    exact ⟨fun hr => hiff.mp (evaluate_daily_sound hl hr.2),
      fun h0 hle hon => evaluate_daily_complete get hl hon (hiff.mpr ⟨h0,hle⟩)⟩
  | check ctx now order =>
    obtain ⟨rfl,hmem,_⟩ := hid
    have hiff := ((h id).account (hp id ⟨rfl,List.mem_append_right _ hmem⟩)).reached_iff p
    refine ⟨?_,fun h0 hle => checkLocked_daily_complete hl hmem (hiff.mpr ⟨h0,hle⟩)⟩
    rintro ⟨actions,hactions,a,ha,rfl,hr⟩
    obtain rfl : (l.engine.checkLocked now order).1 = actions := Except.ok.inj hactions
    exact hiff.mp (checkLocked_daily_sound ha hr hl)

/-- After every call at `t` the daily total of the equipment the call accounts is the time
its reports say it was on since midnight, and the daily limit is reported only, and
enforced always, once that time reaches it, as long as no call comes late on the day
after one that left the equipment on. -/
theorem daily_total_is_on_time (e : Engine) (calls : List Call) (c : Call)
    (hsorted : ((calls++[c]).map Call.time).Pairwise (· ≤ ·))
    (hp : Guarded Ledger.step Ledger.Prompt (Ledger.fresh e) (calls++[c]))
    (id : EquipmentID) (hid : c.Accounts (run Ledger.step (Ledger.fresh e) calls).engine id) :
    ((run Ledger.step (Ledger.fresh e) (calls++[c])).engine.runtimeOf id).dailyOn =
      onTime ((run Ledger.step (Ledger.fresh e) (calls++[c])).history id)
        (dayStart c.time) c.time ∧
    ∀ p, (run Ledger.step (Ledger.fresh e) calls).engine.profiles.lookup id = some p →
      (c.ReportsDailyLimit (run Ledger.step (Ledger.fresh e) calls).engine id →
        0 < p.limits.maximumDailyOn ∧ p.limits.maximumDailyOn ≤
          onTime ((run Ledger.step (Ledger.fresh e) (calls++[c])).history id)
            (dayStart c.time) c.time) ∧
      (0 < p.limits.maximumDailyOn → p.limits.maximumDailyOn ≤
          onTime ((run Ledger.step (Ledger.fresh e) (calls++[c])).history id)
            (dayStart c.time) c.time →
        c.Stops (run Ledger.step (Ledger.fresh e) calls).engine id) := by
  have htracks := fresh_run_tracks hsorted hp.append_left
  have hprompt := hp.append_right.1
  rw [run_append,run_cons,run_nil]
  exact ⟨((step_booked htracks le_rfl hprompt).books id hid).total,
    fun p hl => step_enforces_daily htracks hprompt hid hl⟩

def outletDay : List Call :=
  [.report none outletID true (newYear+hour),
    .check none (newYear+2*hour) ⟨[],[outletID]⟩]

theorem daily_total_outlet :
    ((run Ledger.step (Ledger.fresh outletEngine) (outletDay++
      [.check none (newYear+5*hour) ⟨[],[outletID]⟩])).engine.runtimeOf outletID).dailyOn =
      onTime ((run Ledger.step (Ledger.fresh outletEngine) (outletDay++
        [.check none (newYear+5*hour) ⟨[],[outletID]⟩])).history outletID)
        (dayStart (newYear+5*hour)) (newYear+5*hour) := by
  refine (daily_total_is_on_time outletEngine outletDay
    (.check none (newYear+5*hour) ⟨[],[outletID]⟩) (by decide) ⟨?_,?_,?_,trivial⟩ outletID
    ⟨rfl,by decide,by decide⟩).1
  · rintro id ⟨_,rfl⟩
    decide
  · rintro id ⟨_,hid⟩
    obtain rfl := List.mem_singleton.mp hid
    decide
  · rintro id ⟨_,hid⟩
    obtain rfl := List.mem_singleton.mp hid
    decide

/-- An outlet on since eleven in the evening and first checked at one in the morning has
been on for an hour of the new day, and the engine accounts none of it. -/
theorem midnight_drops_on_time :
    ¬ ∀ (e : Engine) (calls : List Call) (c : Call) (id : EquipmentID),
      ((calls++[c]).map Call.time).Pairwise (· ≤ ·) →
      c.Accounts (run Ledger.step (Ledger.fresh e) calls).engine id →
      ((run Ledger.step (Ledger.fresh e) (calls++[c])).engine.runtimeOf id).dailyOn =
        onTime ((run Ledger.step (Ledger.fresh e) (calls++[c])).history id)
          (dayStart c.time) c.time := by
  intro h
  have hbad := h outletEngine [.report none outletID true (newYear+23*hour)]
    (.check none (newYear+25*hour) ⟨[],[outletID]⟩) outletID (by decide)
    ⟨rfl,by decide,by decide⟩
  have hcode : ((run Ledger.step (Ledger.fresh outletEngine)
      ([.report none outletID true (newYear+23*hour)]++
        [.check none (newYear+25*hour) ⟨[],[outletID]⟩])).engine.runtimeOf outletID).dailyOn = 0 := by
    decide
  have hhistory : (run Ledger.step (Ledger.fresh outletEngine)
      ([.report none outletID true (newYear+23*hour)]++
        [.check none (newYear+25*hour) ⟨[],[outletID]⟩])).history outletID =
      [⟨newYear+23*hour,true⟩] := by decide
  have hspec : onTime [⟨newYear+23*hour,true⟩] (dayStart (newYear+25*hour)) (newYear+25*hour) =
      newYear+25*hour-dayStart (newYear+25*hour) := by
    apply onTime_of_on (dayStart_le _)
    intro s hs _
    have hd : newYear+23*hour ≤ dayStart (newYear+25*hour) := by decide
    exact onAt_cons_of_le (hd.trans hs)
  rw [hcode,hhistory] at hbad
  have hlen : newYear+25*hour-dayStart (newYear+25*hour) = hour := by decide
  have hzero : (0:ℤ) = hour := hbad.trans (hspec.trans hlen)
  revert hzero
  decide

end SafetyEngine
end AquaOS
