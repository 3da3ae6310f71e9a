import AquaOS.AlarmState

/-! The life of an alarm: a rule has one alarm that is not cleared, and clearing closes a record
for good. Nothing is assumed of the clock, and of alarm IDs only that none is used twice. -/
namespace AquaOS

open Domain Timeline Transition

namespace Alarms

def Unused (m : Manager) : AlarmCall → Prop
  | .observe a _ => ∀ id, a.alarmID = .ok id → id ∉ m.alarms
  | _ => True

instance (m : Manager) : (c : AlarmCall) → Decidable (Unused m c)
  | .observe ⟨_,_,_,.error _,_⟩ _ => .isTrue fun _ h => nomatch h
  | .observe ⟨_,_,_,.ok id,_⟩ _ => decidable_of_iff (id ∉ m.alarms)
      ⟨fun h _ hid => Except.ok.inj hid ▸ h,fun h => h id rfl⟩
  | .registerRule _ _ | .acknowledge _ _ | .clear _ _ => .isTrue trivial

/-- A cleared record has its condition inactive and the time it was cleared at. -/
def Alarm.Sealed (a : Alarm) : Prop :=
  a.status = .cleared → a.conditionActive = false ∧ a.clearedAt.isSome = true

structure Manager.Orderly (m : Manager) : Prop where
  linked : m.Linked
  closed : ∀ id a, m.alarms.lookup id = some a → a.Sealed

theorem newManager_orderly (limit : ℤ) : (newManager limit).Orderly :=
  ⟨(newManager_consistent limit).linked,fun id a ha => by simp [newManager] at ha⟩

variable {m : Manager}

/-- An applied observation writes a new alarm in place of none, the live one, or a cleared one as
it is. -/
theorem applies_written {newID : Except Failure AlarmID} {st : RuleState} {t : ℤ} {o : Observation}
    {out : Outcome} (ha : Applies m newID { st with lastObservation := t } o out)
    (hid : out.alarm.id ≠ "") : (newID = .ok out.alarm.id ∧ out.alarm.status = .active) ∨
    (¬ m.Free st ∧ out.alarm.id = (m.alarmOf st.current).id ∧ out.alarm.Sealed) ∨
    ((m.alarmOf st.current).status = .cleared ∧ out.alarm = m.alarmOf st.current) := by
  have hopen : ¬ m.Free st → (m.alarmOf st.current).status ≠ .cleared := fun h hc => h (.inr hc)
  cases ha with
  | debouncing _ _ _ _ _ | unnamed _ _ _ _ | idle _ _ => exact absurd rfl hid
  | raised _ id _ _ hnew => exact .inl ⟨hnew,rfl⟩
  | past _ _ hcleared => exact .inr (.inr ⟨hcleared,rfl⟩)
  | repeated _ _ _ _ hheld | recovering _ _ hheld =>
    exact .inr (.inl ⟨hheld,rfl,fun hcl => absurd hcl (hopen hheld)⟩)
  | cleared hactive hheld => exact .inr (.inl ⟨hheld,rfl,fun _ => ⟨hactive,rfl⟩⟩)

section Store

variable {newID : Except Failure AlarmID} {r : RuleID} {st : RuleState} {t : ℤ} {o : Observation}
  {out : Outcome}

theorem store_sealed (h : m.Orderly) (hst : m.rules.lookup r = some st)
    (ha : Applies m newID { st with lastObservation := t } o out) :
    ∀ id a, (m.store r out).alarms.lookup id = some a → a.Sealed := by
  refine forall_store_alarms (fun hid => ?_) h.closed
  rcases applies_written ha hid with ⟨_,hactive⟩ | ⟨_,_,hsealed⟩ | ⟨_,hsame⟩
  · intro hcl
    rw [hactive] at hcl
    cases hcl
  · exact hsealed
  · have hne : st.current ≠ "" := by
      intro hnone
      rw [hsame,hnone,alarmOf_empty h.linked] at hid
      exact hid rfl
    obtain ⟨b,hb,_⟩ := h.linked.current r st hst hne
    rw [hsame,alarmOf_eq hb]
    exact h.closed _ b hb

theorem store_keeps (h : m.Linked) (hst : m.rules.lookup r = some st)
    (hnew : ∀ id, newID = .ok id → id ∉ m.alarms)
    (ha : Applies m newID { st with lastObservation := t } o out) {id : AlarmID} {a : Alarm}
    (hl : m.alarms.lookup id = some a) (hcl : a.status = .cleared) :
    (m.store r out).alarms.lookup id = some a := by
  rw [store_alarms]
  split_ifs with hw
  · obtain ⟨hne,rfl⟩ := hw
    have hcur : out.alarm.id = st.current := (fits_owner h hst (applies_fits h hst hnew ha) hne hl).2
    have hof : m.alarmOf st.current = a := by rw [← hcur]; exact alarmOf_eq hl
    rcases applies_written ha hne with ⟨hid,_⟩ | ⟨hheld,_,_⟩ | ⟨_,hsame⟩
    · exact absurd (Table.mem_of_lookup hl) (hnew _ hid)
    · exact absurd (.inr (by rwa [hof])) hheld
    · rw [hsame,hof]
  · exact hl

end Store

theorem observe_orderly (h : m.Orderly) (a : Answer) (o : Observation)
    (hu : Unused m (.observe a o)) : (m.observe a o).2.Orderly := by
  rcases observe_cases m a o with ⟨_,_,hm⟩ | ⟨st,hst,⟨_,hm⟩ | ⟨_,o',out,_,_,happ,hm⟩⟩
  · rwa [hm]
  · rwa [hm]
  · rw [hm]
    exact ⟨store_linked h.linked hst (applies_fits h.linked hst hu happ),store_sealed h hst happ⟩

theorem call_orderly (h : m.Orderly) (c : AlarmCall) (hu : Unused m c) : (m.call c).Orderly := by
  rcases call_cases m c with ⟨a,o,rfl⟩ | ⟨_,hm | ⟨_,rule,hnew,_,hm⟩ | ⟨id,a,_,_,_,ha,hm,hopen,hcl⟩⟩
  · exact observe_orderly h a o hu
  · rwa [hm]
  · rw [hm]
    exact ⟨registered_linked h.linked hnew,h.closed⟩
  · rw [hm]
    exact ⟨replace_linked h.linked ha rfl rfl fun hc => absurd hc hopen,
      Table.forall_insert hcl h.closed⟩

variable {calls : List AlarmCall} {id : AlarmID} {a : Alarm}

theorem run_orderly (h : m.Orderly)
    (hu : Guarded Manager.call Unused m calls) : (run Manager.call m calls).Orderly := by
  have hstep : ∀ (m : Manager) c, m.Orderly → Unused m c → (m.call c).Orderly :=
    fun m c hm hc => call_orderly hm c hc
  exact invariant_run hstep h hu

theorem call_keeps_cleared (h : m.Linked) (c : AlarmCall) (hu : Unused m c)
    (ha : m.alarms.lookup id = some a) (hcl : a.status = .cleared) :
    (m.call c).alarms.lookup id = some a := by
  rcases call_cases m c with ⟨ans,o,rfl⟩ | ⟨_,hm | ⟨_,rule,_,_,hm⟩ | ⟨id',a',_,_,_,ha',hm,hopen,_⟩⟩
  · unfold Manager.call
    dsimp only
    rcases observe_cases m ans o with ⟨_,_,hm⟩ | ⟨st,hst,⟨_,hm⟩ | ⟨_,o',out,_,_,happ,hm⟩⟩
    · rwa [hm]
    · rwa [hm]
    · rw [hm]
      exact store_keeps h hst hu happ ha hcl
  · rwa [hm]
  · rwa [hm]
  · have hne : id ≠ id' := by
      rintro rfl
      rw [ha] at ha'
      obtain rfl := Option.some.inj ha'
      exact hopen hcl
    rw [hm]
    exact (AList.lookup_insert_ne hne).trans ha

theorem run_keeps_cleared (h : m.Orderly) (hu : Guarded Manager.call Unused m calls)
    (ha : m.alarms.lookup id = some a) (hcl : a.status = .cleared) :
    (run Manager.call m calls).alarms.lookup id = some a := by
  induction calls generalizing m with
  | nil => exact ha
  | cons c calls ih =>
    exact ih (call_orderly h c hu.1) hu.2 (call_keeps_cleared h.linked c hu.1 ha hcl)

/-- After any calls every alarm that is not cleared is the current and only one of its rule,
cleared alarms are closed, and whatever calls follow leave their records as they are. -/
theorem one_open_alarm_and_cleared_for_good (limit : ℤ) {calls more : List AlarmCall}
    (hids : Guarded Manager.call Unused (newManager limit) (calls++more)) :
    let m := run Manager.call (newManager limit) calls
    (∀ id a, m.alarms.lookup id = some a → a.status ≠ .cleared →
      (∃ st, m.rules.lookup a.ruleID = some st ∧ st.current = id) ∧
      ∀ id' a', m.alarms.lookup id' = some a' → a'.ruleID = a.ruleID → a'.status ≠ .cleared →
        id' = id) ∧
    ∀ id a, m.alarms.lookup id = some a → a.status = .cleared →
      a.conditionActive = false ∧ a.clearedAt ≠ none ∧
      (run Manager.call m more).alarms.lookup id = some a := by
  intro m
  have hm : m.Orderly := run_orderly (newManager_orderly limit) hids.append_left
  constructor
  · intro id a ha hopen
    obtain ⟨st,hst,hcur⟩ := hm.linked.sole id a ha hopen
    refine ⟨⟨st,hst,hcur⟩,fun id' a' ha' hr hopen' => ?_⟩
    obtain ⟨st',hst',hcur'⟩ := hm.linked.sole id' a' ha' hopen'
    rw [hr,hst] at hst'
    obtain rfl := Option.some.inj hst'
    exact hcur'.symm.trans hcur
  · intro id a ha hcl
    obtain ⟨hcond,htime⟩ := hm.closed id a ha hcl
    exact ⟨hcond,Option.ne_none_iff_isSome.mpr htime,
      run_keeps_cleared hm hids.append_right ha hcl⟩

def leakRule : Rule :=
  { id := "00000000-0000-4000-8000-000000000001", code := "sensor.threshold.leak", name := "Leak"
    subject := ⟨"sensor","00000000-0000-4000-8000-000000000002"⟩, severity := .warning
    latching := false }

def leakSeen (t : ℤ) (active : Bool) (id : AlarmID) : AlarmCall :=
  .observe { now := t, alarmID := .ok id }
    { ruleID := leakRule.id, active := active, observedAt := t, evidence := ⟨"wet","",none⟩
      correlationID := "c" }

def leakEpisode : List AlarmCall :=
  [.registerRule none leakRule,leakSeen 1 true "first",leakSeen 2 false "unused"]

theorem leak_cleared_for_good :
    ((run Manager.call (newManager 16) leakEpisode).alarms.lookup "first").map Alarm.status =
        some .cleared ∧
      (run Manager.call (newManager 16) (leakEpisode++[leakSeen 3 true "second"])).alarms.lookup
          "first" = (run Manager.call (newManager 16) leakEpisode).alarms.lookup "first" := by
  have hcleared : ((run Manager.call (newManager 16) leakEpisode).alarms.lookup "first").map
      Alarm.status = some .cleared := by decide +kernel
  obtain ⟨a,ha,hcl⟩ := Option.map_eq_some_iff.mp hcleared
  have hlater := one_open_alarm_and_cleared_for_good 16 (by decide +kernel :
      Guarded Manager.call Unused (newManager 16) (leakEpisode++[leakSeen 3 true "second"]))
  refine ⟨hcleared,?_⟩
  rw [run_append,(hlater.2 "first" a ha hcl).2.2,ha]

end Alarms
end AquaOS
