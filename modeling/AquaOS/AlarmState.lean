import AquaOS.Alarms
import AquaOS.Transition

/-! What holds of the alarm engine after any calls: identifiers match their keys, a rule's
current alarm is stored and is the only alarm of the rule that can be live, and a pending
raise is not newer than the last observation. New alarm IDs are taken to be unused ones, and
the clock never to read the zero instant. -/
namespace AquaOS

open Domain Timeline Transition

namespace Alarms

/-- Every way out of `applyObservation`. -/
inductive Applies (m : Manager) (newID : Except Failure AlarmID) (st : RuleState)
    (o : Observation) : Outcome → Prop
  | debouncing (since : ℤ) (hactive : o.active = true) (hfree : m.Free st)
      (hsince : since = st.pendingActive.getD o.observedAt)
      (hwait : sub o.observedAt since < st.rule.debounce) :
      Applies m newID st o
        ⟨{ st with pendingClear := none, pendingActive := some since },.zero,.debouncing,none⟩
  | unnamed (since : ℤ) (err : Failure) (hactive : o.active = true)
      (hsince : since = st.pendingActive.getD o.observedAt) :
      Applies m newID st o
        ⟨{ st with pendingClear := none, pendingActive := some since },.zero,.none,some err⟩
  | raised (since : ℤ) (id : AlarmID) (hactive : o.active = true) (hfree : m.Free st)
      (hid : newID = .ok id) :
      Applies m newID st o
        ⟨{ st with pendingClear := none, pendingActive := none, current := id },
          st.rule.alarm o id since m.evidenceLimit,.raised,none⟩
  | repeated (count : ℕ) (severity : Severity) (tr : Transition) (hactive : o.active = true)
      (hheld : ¬ m.Free st) :
      Applies m newID st o
        ⟨{ st with pendingClear := none },
          { (m.alarmOf st.current).observed o m.evidenceLimit with
            occurrenceCount := count, severity := severity },tr,none⟩
  | idle (hactive : o.active = false) (hnone : st.current = "") :
      Applies m newID st o ⟨{ st with pendingActive := none },.zero,.none,none⟩
  | past (hactive : o.active = false) (hsome : st.current ≠ "")
      (hcleared : (m.alarmOf st.current).status = .cleared) :
      Applies m newID st o
        ⟨{ st with pendingActive := none },m.alarmOf st.current,.none,none⟩
  | recovering (since : ℤ) (hactive : o.active = false) (hheld : ¬ m.Free st) :
      Applies m newID st o
        ⟨{ st with pendingActive := none, pendingClear := some since },
          (m.alarmOf st.current).observed o m.evidenceLimit,.clearPending,none⟩
  | cleared (hactive : o.active = false) (hheld : ¬ m.Free st) :
      Applies m newID st o
        ⟨{ st with pendingActive := none, pendingClear := none },
          { (m.alarmOf st.current).observed o m.evidenceLimit with
            status := .cleared, clearedAt := some o.observedAt },.cleared,none⟩

theorem applyObservation_applies (m : Manager) (newID : Except Failure AlarmID) (st : RuleState)
    (o : Observation) : Applies m newID st o (m.applyObservation newID st o) := by
  unfold Manager.applyObservation
  split_ifs with hactive hfree hnone hcleared
  · unfold Manager.raise
    dsimp only
    split_ifs with hwait
    · exact .debouncing _ hactive hfree rfl hwait
    · cases hid : newID with
      | error err => exact .unnamed _ err hactive rfl
      | ok id => exact .raised _ id hactive hfree rfl
  · unfold Manager.repeated
    dsimp only
    split_ifs
    · exact .repeated _ _ _ hactive hfree
    · exact .repeated _ _ _ hactive hfree
  · exact .idle (by simpa using hactive) hnone
  · exact .past (by simpa using hactive) hnone hcleared
  · have hheld : ¬ m.Free st := fun h => h.elim hnone hcleared
    unfold Manager.recover
    dsimp only
    split_ifs
    · exact .recovering _ (by simpa using hactive) hheld
    · exact .cleared (by simpa using hactive) hheld

section Apply

variable {m : Manager} {st : RuleState} {newID : Except Failure AlarmID} {o : Observation}

theorem apply_raise (hactive : o.active = true) (hfree : m.Free st) :
    m.applyObservation newID st o = m.raise newID st o := by
  simp [Manager.applyObservation,hactive,hfree]

theorem apply_repeated (hactive : o.active = true) (hheld : ¬ m.Free st) :
    m.applyObservation newID st o = m.repeated st o := by
  simp [Manager.applyObservation,hactive,hheld]

theorem apply_recover (hactive : o.active = false) (hheld : ¬ m.Free st) :
    m.applyObservation newID st o = m.recover st o := by
  have hnone : ¬ st.current = "" := fun h => hheld (.inl h)
  have hcl : ¬ (m.alarmOf st.current).status = .cleared := fun h => hheld (.inr h)
  simp [Manager.applyObservation,hactive,hnone,hcl]

theorem apply_idle (hactive : o.active = false) (hfree : m.Free st) :
    ∃ alarm, (alarm = .zero ∨ (alarm = m.alarmOf st.current ∧ alarm.status = .cleared)) ∧
      m.applyObservation newID st o = ⟨{ st with pendingActive := none },alarm,.none,none⟩ := by
  by_cases hnone : st.current = ""
  · exact ⟨.zero,.inl rfl,by simp [Manager.applyObservation,hactive,hnone]⟩
  · have hcl := hfree.resolve_left hnone
    exact ⟨_,.inr ⟨rfl,hcl⟩,by simp [Manager.applyObservation,hactive,hnone,hcl]⟩

/-- An active observation without a live alarm waits for the debounce, fails to name an alarm, or
raises one. -/
theorem raise_cases (m : Manager) (newID : Except Failure AlarmID) (st : RuleState)
    (o : Observation) : let since := st.pendingActive.getD o.observedAt
    let pending := { st with pendingClear := none, pendingActive := some since }
    (sub o.observedAt since < st.rule.debounce ∧
      m.raise newID st o = ⟨pending,.zero,.debouncing,none⟩) ∨
    (¬ sub o.observedAt since < st.rule.debounce ∧ ∃ err, newID = .error err ∧
      m.raise newID st o = ⟨pending,.zero,.none,some err⟩) ∨
    (¬ sub o.observedAt since < st.rule.debounce ∧ ∃ id, newID = .ok id ∧
      m.raise newID st o =
        ⟨{ st with pendingClear := none, pendingActive := none, current := id },
          st.rule.alarm o id since m.evidenceLimit,.raised,none⟩) := by
  unfold Manager.raise
  dsimp only
  split_ifs with hwait
  · exact .inl ⟨hwait,rfl⟩
  · cases newID with
    | error err => exact .inr (.inl ⟨hwait,err,rfl,rfl⟩)
    | ok id => exact .inr (.inr ⟨hwait,id,rfl,rfl⟩)

theorem repeated_eq (m : Manager) (st : RuleState) (o : Observation) :
    m.repeated st o = ⟨{ st with pendingClear := none },
      { (m.alarmOf st.current).observed o m.evidenceLimit with
        occurrenceCount := ((m.alarmOf st.current).occurrenceCount+1) % 2^64
        severity := if (m.alarmOf st.current).severity.rank < o.severity.rank then o.severity
          else (m.alarmOf st.current).severity },
      if (m.alarmOf st.current).severity.rank < o.severity.rank then .escalated else .none,none⟩ := by
  unfold Manager.repeated Alarm.observed
  dsimp only
  split_ifs
  · rfl
  · rfl

/-- An inactive observation of a live alarm waits for the hysteresis or clears it. -/
theorem recover_cases (m : Manager) (st : RuleState) (o : Observation) :
    let since := st.pendingClear.getD o.observedAt
    let alarm := (m.alarmOf st.current).observed o m.evidenceLimit
    ((sub o.observedAt since < st.rule.hysteresis ∨ st.rule.latching = true) ∧
      m.recover st o =
        ⟨{ st with pendingActive := none, pendingClear := some since },alarm,.clearPending,none⟩) ∨
    (st.rule.hysteresis ≤ sub o.observedAt since ∧ st.rule.latching = false ∧
      m.recover st o = ⟨{ st with pendingActive := none, pendingClear := none },
        { alarm with status := .cleared, clearedAt := some o.observedAt },.cleared,none⟩) := by
  unfold Manager.recover
  dsimp only
  split_ifs with hwait
  · exact .inl ⟨hwait,rfl⟩
  · push Not at hwait
    exact .inr ⟨hwait.1,by simpa using hwait.2,rfl⟩

/-- What is observed and whether an alarm is live decide what an observation does. -/
theorem apply_cases (m : Manager) (newID : Except Failure AlarmID) (st : RuleState)
    (o : Observation) : (o.active = false ∧ m.Free st ∧ ∃ alarm,
      (alarm = .zero ∨ (alarm = m.alarmOf st.current ∧ alarm.status = .cleared)) ∧
      m.applyObservation newID st o = ⟨{ st with pendingActive := none },alarm,.none,none⟩) ∨
    (o.active = true ∧ m.Free st ∧ m.applyObservation newID st o = m.raise newID st o) ∨
    (o.active = true ∧ ¬ m.Free st ∧ m.applyObservation newID st o = m.repeated st o) ∨
    (o.active = false ∧ ¬ m.Free st ∧ m.applyObservation newID st o = m.recover st o) := by
  cases hactive : o.active with
  | true =>
    by_cases hfree : m.Free st
    · exact .inr (.inl ⟨rfl,hfree,apply_raise hactive hfree⟩)
    · exact .inr (.inr (.inl ⟨rfl,hfree,apply_repeated hactive hfree⟩))
  | false =>
    by_cases hfree : m.Free st
    · exact .inl ⟨rfl,hfree,apply_idle hactive hfree⟩
    · exact .inr (.inr (.inr ⟨rfl,hfree,apply_recover hactive hfree⟩))

end Apply

structure Manager.Linked (m : Manager) : Prop where
  rule : ∀ r st, m.rules.lookup r = some st → st.rule.id = r
  alarm : ∀ id a, m.alarms.lookup id = some a → a.id = id ∧ id ≠ ""
  current : ∀ r st, m.rules.lookup r = some st → st.current ≠ "" →
    ∃ a, m.alarms.lookup st.current = some a ∧ a.ruleID = r
  sole : ∀ id a, m.alarms.lookup id = some a → a.status ≠ .cleared →
    ∃ st, m.rules.lookup a.ruleID = some st ∧ st.current = id

structure Manager.Consistent (m : Manager) : Prop extends linked : m.Linked where
  pending : ∀ r st since, m.rules.lookup r = some st → st.pendingActive = some since →
    st.lastObservation ≠ 0 ∧ since ≤ st.lastObservation

variable {m : Manager}

theorem Manager.Linked.no_empty (h : m.Linked) : m.alarms.lookup "" = none := by
  by_contra hsome
  obtain ⟨a,ha⟩ := Option.ne_none_iff_exists'.mp hsome
  exact (h.alarm "" a ha).2 rfl

theorem empty_consistent : Manager.Consistent {} := by
  refine ⟨⟨?_,?_,?_,?_⟩,?_⟩ <;> intro _ _ <;> simp

theorem newManager_consistent (limit : ℤ) : (newManager limit).Consistent := by
  refine ⟨⟨?_,?_,?_,?_⟩,?_⟩ <;> intro _ _ <;> simp [newManager]

def Manager.Live (m : Manager) (r : RuleID) : Prop :=
  ∃ id a, m.alarms.lookup id = some a ∧ a.ruleID = r ∧ a.status ≠ .cleared ∧
    a.conditionActive = true

theorem alarmOf_eq {id : AlarmID} {a : Alarm} (h : m.alarms.lookup id = some a) :
    m.alarmOf id = a := by
  simp [Manager.alarmOf,h]

theorem alarmOf_empty (h : m.Linked) : m.alarmOf "" = .zero := by
  simp [Manager.alarmOf,h.no_empty]

section Rule

variable {m : Manager} {r : RuleID} {st : RuleState} {a : Alarm}

/-- Only the current alarm of a rule can be live. -/
theorem live_iff (h : m.Linked) (hst : m.rules.lookup r = some st) :
    m.Live r ↔ ¬ m.Free st ∧ (m.alarmOf st.current).conditionActive = true := by
  constructor
  · rintro ⟨id,a,ha,rfl,hopen,hcond⟩
    obtain ⟨st',hst',rfl⟩ := h.sole id a ha hopen
    obtain rfl := Option.mem_unique hst hst'
    refine ⟨?_,by rwa [alarmOf_eq ha]⟩
    rintro (hnone | hcleared)
    · exact (h.alarm _ a ha).2 hnone
    · exact hopen (by rwa [alarmOf_eq ha] at hcleared)
  · rintro ⟨hheld,hcond⟩
    obtain ⟨a,ha,hr⟩ := h.current r st hst fun hnone => hheld (.inl hnone)
    rw [alarmOf_eq ha] at hcond
    exact ⟨_,a,ha,hr,fun hc => hheld (.inr (by rwa [alarmOf_eq ha])),hcond⟩

def NewAlarmID (m : Manager) (newID : Except Failure AlarmID) : Prop :=
  ∀ id, newID = .ok id → id ≠ "" ∧ id ∉ m.alarms

instance (m : Manager) : (newID : Except Failure AlarmID) → Decidable (NewAlarmID m newID)
  | .error err => .isTrue fun id h => nomatch h
  | .ok id => decidable_of_iff (id ≠ "" ∧ id ∉ m.alarms)
      ⟨fun h id' hid => by cases hid; exact h,fun h => h id rfl⟩

/-- What is stored for a rule: the rule itself, an alarm that becomes its current one, which is
the one it had or a new one in place of none, and a pending raise of the past. -/
structure Proper (m : Manager) (r : RuleID) (st : RuleState) (out : Outcome) : Prop where
  rule : out.state.rule.id = r
  kept : out.alarm.id = "" → out.state.current = st.current
  named : out.alarm.id ≠ "" → out.state.current = out.alarm.id ∧ out.alarm.ruleID = r ∧
    (out.alarm.id = st.current ∨ (out.alarm.id ∉ m.alarms ∧ m.Free st))
  pending : ∀ since, out.state.pendingActive = some since →
    out.state.lastObservation ≠ 0 ∧ since ≤ out.state.lastObservation

/-- What of it keeps an engine linked: the current alarm may also be given up for none. -/
structure Fits (m : Manager) (r : RuleID) (st : RuleState) (out : Outcome) : Prop where
  rule : out.state.rule.id = r
  kept : out.alarm.id = "" → out.state.current = st.current ∨
    (out.state.current = "" ∧ m.Free st)
  named : out.alarm.id ≠ "" → out.state.current = out.alarm.id ∧ out.alarm.ruleID = r ∧
    (out.alarm.id = st.current ∨ (out.alarm.id ∉ m.alarms ∧ m.Free st))

theorem Proper.fits {out : Outcome} (h : Proper m r st out) : Fits m r st out :=
  ⟨h.rule,fun hid => .inl (h.kept hid),h.named⟩

theorem store_rules (m : Manager) (r r' : RuleID) (out : Outcome) :
    (m.store r out).rules.lookup r' = if r' = r then some out.state else m.rules.lookup r' :=
  Table.lookup_insert_ite _ _ _ _

theorem store_alarms (m : Manager) (r : RuleID) (out : Outcome) (id : AlarmID) :
    (m.store r out).alarms.lookup id =
      if out.alarm.id ≠ "" ∧ id = out.alarm.id then some out.alarm else m.alarms.lookup id := by
  unfold Manager.store
  dsimp only
  by_cases hid : out.alarm.id = ""
  · simp [hid]
  · rw [if_neg hid,Table.lookup_insert_ite]
    simp [hid]

theorem forall_store_alarms {P : AlarmID → Alarm → Prop} {out : Outcome}
    (hnew : out.alarm.id ≠ "" → P out.alarm.id out.alarm)
    (hold : ∀ id a, m.alarms.lookup id = some a → P id a) :
    ∀ id a, (m.store r out).alarms.lookup id = some a → P id a := by
  by_cases hid : out.alarm.id = ""
  · rw [show (m.store r out).alarms = m.alarms from if_pos hid]
    exact hold
  · rw [show (m.store r out).alarms = m.alarms.insert out.alarm.id out.alarm from if_neg hid]
    exact Table.forall_insert (hnew hid) hold

theorem store_alarmOf (m : Manager) (r : RuleID) (out : Outcome) (id : AlarmID) :
    (m.store r out).alarmOf id =
      if out.alarm.id ≠ "" ∧ id = out.alarm.id then out.alarm else m.alarmOf id := by
  unfold Manager.alarmOf
  rw [store_alarms]
  split_ifs <;> rfl

theorem store_alarmOf_written {out : Outcome} (hid : out.alarm.id ≠ "")
    (hcur : out.state.current = out.alarm.id) :
    (m.store r out).alarmOf out.state.current = out.alarm := by
  rw [store_alarmOf,if_pos ⟨hid,hcur⟩]

/-- An alarm stored before under the ID that is written belongs to the same rule. -/
theorem fits_owner (h : m.Linked) (hst : m.rules.lookup r = some st) {out : Outcome}
    (hp : Fits m r st out) (hid : out.alarm.id ≠ "")
    (ha : m.alarms.lookup out.alarm.id = some a) : a.ruleID = r ∧ out.alarm.id = st.current := by
  obtain ⟨_,_,hcur | ⟨hnew,_⟩⟩ := hp.named hid
  · obtain ⟨a',ha',hr⟩ := h.current r st hst (hcur ▸ hid)
    rw [← hcur,ha] at ha'
    obtain rfl : a = a' := Option.some.inj ha'
    exact ⟨hr,hcur⟩
  · exact absurd (Table.mem_of_lookup ha) hnew

theorem free_not_current (h : m.Linked) (hfree : m.Free st) {id : AlarmID}
    (ha : m.alarms.lookup id = some a) (hopen : a.status ≠ .cleared) : st.current ≠ id := by
  rintro rfl
  rcases hfree with hnone | hcleared
  · exact (h.alarm _ a ha).2 hnone
  · rw [alarmOf_eq ha] at hcleared
    exact hopen hcleared

theorem store_linked (h : m.Linked) (hst : m.rules.lookup r = some st) {out : Outcome}
    (hp : Fits m r st out) : (m.store r out).Linked where
  rule := Table.forall_insert hp.rule h.rule
  alarm := forall_store_alarms (fun hid => ⟨rfl,hid⟩) h.alarm
  current r' st' h' hcur := by
    rw [store_rules] at h'
    rw [store_alarms]
    split_ifs at h' with hr
    · obtain rfl := Option.some.inj h'
      subst hr
      by_cases hid : out.alarm.id = ""
      · obtain hsame := (hp.kept hid).resolve_right fun hnone => hcur hnone.1
        rw [if_neg fun hc => hc.1 hid,hsame]
        exact h.current r' st hst (hsame ▸ hcur)
      · obtain ⟨hnext,hown,_⟩ := hp.named hid
        exact ⟨out.alarm,if_pos ⟨hid,hnext⟩,hown⟩
    · obtain ⟨a,ha,hown⟩ := h.current r' st' h' hcur
      refine ⟨a,?_,hown⟩
      rw [if_neg,ha]
      rintro ⟨hid,hsame⟩
      rw [hsame] at ha
      exact hr (hown.symm.trans (fits_owner h hst hp hid ha).1)
  sole id a ha hopen := by
    rw [store_alarms] at ha
    rw [store_rules]
    split_ifs at ha with hid
    · obtain rfl := Option.some.inj ha
      obtain ⟨hnext,hown,_⟩ := hp.named hid.1
      exact ⟨out.state,if_pos hown,hnext.trans hid.2.symm⟩
    · obtain ⟨st',hst',hcur⟩ := h.sole id a ha hopen
      by_cases hr : a.ruleID = r
      · rw [hr,hst] at hst'
        obtain rfl := Option.some.inj hst'
        refine ⟨out.state,if_pos hr,?_⟩
        by_cases hname : out.alarm.id = ""
        · rcases hp.kept hname with hsame | ⟨_,hfree⟩
          · exact hsame.trans hcur
          · exact absurd hcur (free_not_current h hfree ha hopen)
        · obtain ⟨_,_,hsame | ⟨_,hfree⟩⟩ := hp.named hname
          · exact absurd ⟨hname,(hsame.trans hcur).symm⟩ hid
          · exact absurd hcur (free_not_current h hfree ha hopen)
      · exact ⟨st',by rwa [if_neg hr],hcur⟩

theorem store_consistent (h : m.Consistent) (hst : m.rules.lookup r = some st) {out : Outcome}
    (hp : Proper m r st out) : (m.store r out).Consistent := by
  refine ⟨store_linked h.linked hst hp.fits,fun r' st' since h' hs => ?_⟩
  rw [store_rules] at h'
  split_ifs at h' with hr
  · obtain rfl := Option.some.inj h'
    exact hp.pending since hs
  · exact h.pending r' st' since h' hs

theorem held_alarm (h : m.Linked) (hst : m.rules.lookup r = some st) (hcur : st.current ≠ "") :
    (m.alarmOf st.current).id = st.current ∧ (m.alarmOf st.current).ruleID = r := by
  obtain ⟨a,ha,hr⟩ := h.current r st hst hcur
  rw [alarmOf_eq ha]
  exact ⟨(h.alarm _ a ha).1,hr⟩

theorem held_mem (h : m.Linked) (hst : m.rules.lookup r = some st) (hheld : ¬ m.Free st) :
    st.current ≠ "" ∧ (m.alarmOf st.current).id = st.current ∧ st.current ∈ m.alarms ∧
      (m.alarmOf st.current).status ≠ .cleared := by
  have hne : st.current ≠ "" := fun hnone => hheld (.inl hnone)
  obtain ⟨a,ha,_⟩ := h.current r st hst hne
  exact ⟨hne,(held_alarm h hst hne).1,Table.mem_of_lookup ha,
    fun hcl => hheld (.inr hcl)⟩

theorem pending_since (h : m.Consistent) (hst : m.rules.lookup r = some st) {t : ℤ}
    (hfresh : st.Fresh t) : st.pendingActive.getD t ≤ t := by
  cases hp : st.pendingActive with
  | none => exact le_refl t
  | some since =>
    obtain ⟨hne,hle⟩ := h.pending r st since hst hp
    rcases hfresh with hz | hlt
    · exact absurd hz hne
    · exact hle.trans hlt.le

variable {newID : Except Failure AlarmID} {o : Observation} {out : Outcome}

theorem applies_fits (h : m.Linked) (hst : m.rules.lookup r = some st)
    (hid : ∀ id, newID = .ok id → id ∉ m.alarms) {t : ℤ}
    (ha : Applies m newID { st with lastObservation := t } o out) : Fits m r st out := by
  have hrule := h.rule r st hst
  have hheld : st.current ≠ "" → (m.alarmOf st.current).id = st.current ∧
      (m.alarmOf st.current).ruleID = r := held_alarm h hst
  cases ha with
  | debouncing _ _ _ _ _ | unnamed _ _ _ _ | idle _ _ =>
    exact ⟨hrule,fun _ => .inl rfl,fun hne => absurd rfl hne⟩
  | raised _ id _ hfree hnew =>
    exact ⟨hrule,fun hz => .inr ⟨hz,hfree⟩,fun _ => ⟨rfl,hrule,.inr ⟨hid id hnew,hfree⟩⟩⟩
  | past _ hsome _ =>
    obtain ⟨hown,hr⟩ := hheld hsome
    exact ⟨hrule,fun _ => .inl rfl,fun _ => ⟨hown.symm,hr,.inl hown⟩⟩
  | repeated _ _ _ _ hopen | recovering _ _ hopen | cleared _ hopen =>
    obtain ⟨hown,hr⟩ := hheld fun hnone => hopen (.inl hnone)
    exact ⟨hrule,fun _ => .inl rfl,fun _ => ⟨hown.symm,hr,.inl hown⟩⟩

theorem applies_proper (h : m.Consistent) (hst : m.rules.lookup r = some st)
    (hid : NewAlarmID m newID) (ht : o.observedAt ≠ 0) (hfresh : st.Fresh o.observedAt)
    (ha : Applies m newID { st with lastObservation := o.observedAt } o out) :
    Proper m r st out := by
  have hfits := applies_fits h.linked hst (fun id hnew => (hid id hnew).2) ha
  have hsince := pending_since h hst hfresh
  refine ⟨hfits.rule,fun hz => ?_,hfits.named,fun t hp => ?_⟩
  · cases ha with
    | raised _ id _ _ hnew => exact absurd hz (hid id hnew).1
    | debouncing _ _ _ _ _ | unnamed _ _ _ _ | idle _ _ | past _ _ _ | repeated _ _ _ _ _
    | recovering _ _ _ | cleared _ _ => rfl
  · cases ha with
    | debouncing since _ _ hs _ | unnamed since _ _ hs =>
      obtain rfl : since = t := Option.some.inj hp
      exact ⟨ht,hs ▸ hsince⟩
    | repeated _ _ _ _ _ =>
      have hpend : st.pendingActive.getD o.observedAt = t := by
        rw [show st.pendingActive = some t from hp]
        rfl
      exact ⟨ht,hpend ▸ hsince⟩
    | raised _ _ _ _ _ | idle _ _ | past _ _ _ | recovering _ _ _ | cleared _ _ => cases hp

end Rule

inductive AlarmCall
  | registerRule (ctx : Option Failure) (rule : Rule)
  | observe (a : Answer) (o : Observation)
  | acknowledge (a : Answer) (id : AlarmID)
  | clear (a : Answer) (id : AlarmID)

def Manager.call (m : Manager) : AlarmCall → Manager
  | .registerRule ctx rule =>
    match m.registerRule ctx rule with
    | .ok m' => m'
    | .error _ => m
  | .observe a o => (m.observe a o).2
  | .acknowledge a id => (m.acknowledge a id).2
  | .clear a id => (m.clear a id).2

def AlarmCall.observes : AlarmCall → Option RuleID
  | .observe _ o => some o.ruleID
  | _ => none

/-- What is assumed of the clock and of the source of alarm IDs. -/
def Supplied (m : Manager) : AlarmCall → Prop
  | .observe a _ => a.now ≠ 0 ∧ NewAlarmID m a.alarmID
  | _ => True

instance (m : Manager) : (c : AlarmCall) → Decidable (Supplied m c)
  | .observe a _ => inferInstanceAs (Decidable (a.now ≠ 0 ∧ NewAlarmID m a.alarmID))
  | .registerRule _ _ | .acknowledge _ _ | .clear _ _ => .isTrue trivial

variable {a : Answer} {o o' : Observation}

theorem instant_ne_zero (h : a.now ≠ 0) (o : Observation) : o.instant a ≠ 0 := by
  unfold Observation.instant
  split_ifs with hz
  · exact h
  · exact hz

theorem stamped_ok (h : o.stamped a = .ok o') :
    ∃ id, o' = { o with observedAt := o.instant a, correlationID := id } := by
  unfold Observation.stamped at h
  split at h
  · cases h
  · exact ⟨_,(Except.ok.inj h).symm⟩

/-- The call reaches the state of its rule, with the observation stamped. -/
def Reaches (m : Manager) (a : Answer) (o : Observation) (st : RuleState) (o' : Observation) : Prop :=
  a.ctx = none ∧ o.stamped a = .ok o' ∧ m.rules.lookup o.ruleID = some st

theorem observe_of_reaches {m : Manager} {st : RuleState}
    (h : Reaches m a o st o') : m.observe a o = if st.Fresh o'.observedAt then
      let out := m.applyObservation a.alarmID { st with lastObservation := o'.observedAt } o'
      ((out.alarm,out.transition,out.failure a),m.store o.ruleID out)
    else ((m.alarmOf st.current,.ignoredStale,none),m) := by
  obtain ⟨hctx,hs,hst⟩ := h
  obtain ⟨id,rfl⟩ := stamped_ok hs
  simp only [Manager.observe,hctx,hs,Manager.observeLocked,hst]

theorem observe_unreached {m : Manager}
    (h : ¬ ∃ st o', Reaches m a o st o') : ∃ err, m.observe a o = ((.zero,.none,some err),m) := by
  cases hctx : a.ctx with
  | some err => exact ⟨err,by simp [Manager.observe,hctx]⟩
  | none =>
    cases hs : o.stamped a with
    | error err => exact ⟨err,by simp [Manager.observe,hctx,hs]⟩
    | ok o' =>
      cases hst : m.rules.lookup o.ruleID with
      | none =>
        obtain ⟨id,rfl⟩ := stamped_ok hs
        exact ⟨notFound,by simp [Manager.observe,hctx,hs,Manager.observeLocked,hst]⟩
      | some st => exact absurd ⟨st,o',hctx,hs,hst⟩ h

/-- All `Observe` can do: not reach its rule, ignore a stale observation, or apply one. -/
theorem observe_outcomes (m : Manager) (a : Answer) (o : Observation) :
    ((¬ ∃ st o', Reaches m a o st o') ∧ ∃ err, m.observe a o = ((.zero,.none,some err),m)) ∨
    (∃ st o', Reaches m a o st o' ∧ ¬ st.Fresh o'.observedAt ∧
      m.observe a o = ((m.alarmOf st.current,.ignoredStale,none),m)) ∨
    (∃ st o' out, Reaches m a o st o' ∧ st.Fresh o'.observedAt ∧
      m.applyObservation a.alarmID { st with lastObservation := o'.observedAt } o' = out ∧
      m.observe a o = ((out.alarm,out.transition,out.failure a),m.store o.ruleID out)) := by
  by_cases hreach : ∃ st o', Reaches m a o st o'
  · obtain ⟨st,o',hr⟩ := hreach
    have hm := observe_of_reaches hr
    by_cases hfresh : st.Fresh o'.observedAt
    · exact .inr (.inr ⟨st,o',_,hr,hfresh,rfl,hm.trans (if_pos hfresh)⟩)
    · exact .inr (.inl ⟨st,o',hr,hfresh,hm.trans (if_neg hfresh)⟩)
  · exact .inl ⟨hreach,observe_unreached hreach⟩

/-- The same for callers that need of the stamped observation only its time. -/
theorem observe_cases (m : Manager) (a : Answer) (o : Observation) :
    (∃ err, (m.observe a o).1.2.2 = some err ∧ (m.observe a o).2 = m) ∨
    ∃ st, m.rules.lookup o.ruleID = some st ∧
      ((¬ st.Fresh (o.instant a) ∧ m.observe a o = ((m.alarmOf st.current,.ignoredStale,none),m)) ∨
      (st.Fresh (o.instant a) ∧ ∃ o' out, o'.active = o.active ∧ o'.observedAt = o.instant a ∧
        Applies m a.alarmID { st with lastObservation := o'.observedAt } o' out ∧
        m.observe a o = ((out.alarm,out.transition,out.failure a),m.store o.ruleID out))) := by
  rcases observe_outcomes m a o with ⟨_,err,hm⟩ | ⟨st,o',hr,hstale,hm⟩ | ⟨st,o',out,hr,hfresh,hout,hm⟩
  · exact .inl ⟨err,by rw [hm],by rw [hm]⟩
  · obtain ⟨id,rfl⟩ := stamped_ok hr.2.1
    exact .inr ⟨st,hr.2.2,.inl ⟨hstale,hm⟩⟩
  · have happ := applyObservation_applies m a.alarmID { st with lastObservation := o'.observedAt } o'
    rw [hout] at happ
    obtain ⟨id,rfl⟩ := stamped_ok hr.2.1
    exact .inr ⟨st,hr.2.2,.inr ⟨hfresh,
      { o with observedAt := o.instant a, correlationID := id },out,rfl,rfl,happ,hm⟩⟩

section Calls

variable {m : Manager}

theorem observe_consistent (h : m.Consistent) (a : Answer) (o : Observation)
    (hs : Supplied m (.observe a o)) : (m.observe a o).2.Consistent := by
  rcases observe_cases m a o with ⟨_,_,hm⟩ | ⟨st,hst,⟨_,hm⟩ | ⟨hfresh,o',out,_,htime,happ,hm⟩⟩
  · rwa [hm]
  · rwa [hm]
  · rw [hm]
    exact store_consistent h hst (applies_proper h hst hs.2 (htime ▸ instant_ne_zero hs.1 o)
      (htime ▸ hfresh) happ)

/-- A stored alarm replaced by one of the same identity that is not reopened. -/
theorem replace_linked (h : m.Linked) {id : AlarmID} {a b : Alarm}
    (ha : m.alarms.lookup id = some a) (hid : b.id = a.id) (hr : b.ruleID = a.ruleID)
    (hopen : a.status = .cleared → b.status = .cleared) :
    Manager.Linked { m with alarms := m.alarms.insert id b } where
  rule := h.rule
  alarm := Table.forall_insert ⟨hid.trans (h.alarm id a ha).1,(h.alarm id a ha).2⟩ h.alarm
  current r st hst hcur := by
    obtain ⟨c,hc,hown⟩ := h.current r st hst hcur
    dsimp only
    rw [Table.lookup_insert_ite]
    by_cases hsame : st.current = id
    · rw [hsame,ha] at hc
      obtain rfl := Option.some.inj hc
      exact ⟨b,if_pos hsame,hr.trans hown⟩
    · exact ⟨c,by rwa [if_neg hsame],hown⟩
  sole := by
    refine Table.forall_insert (fun hstat => ?_) h.sole
    obtain ⟨st,hst,hcur⟩ := h.sole id a ha fun hcl => hstat (hopen hcl)
    exact ⟨st,hr ▸ hst,hcur⟩

/-- What `Acknowledge` and `Clear` can do: nothing, or close a step of one alarm's life, of
which they change the status and its times only. -/
theorem operator_cases (m : Manager) (c : AlarmCall) (hc : (∃ a id, c = .acknowledge a id) ∨
    ∃ a id, c = .clear a id) :
    m.call c = m ∨ ∃ id a status acknowledgedAt clearedAt, m.alarms.lookup id = some a ∧
      m.call c = { m with
        alarms := m.alarms.insert id
          { a with status := status, acknowledgedAt := acknowledgedAt, clearedAt := clearedAt } } ∧
      a.status ≠ .cleared ∧
      (status = .cleared → a.conditionActive = false ∧ clearedAt.isSome = true) := by
  rcases hc with ⟨ans,id,rfl⟩ | ⟨ans,id,rfl⟩
  · unfold Manager.call Manager.acknowledge
    dsimp only
    cases ans.ctx with
    | some err => exact .inl rfl
    | none =>
      cases ha : m.alarms.lookup id with
      | none => exact .inl rfl
      | some a =>
        dsimp only
        split_ifs with hst
        · exact .inr ⟨id,a,_,_,a.clearedAt,ha,rfl,by simp [hst],fun hcl => nomatch hcl⟩
        · exact .inl rfl
  · unfold Manager.call Manager.clear
    dsimp only
    cases ans.ctx with
    | some err => exact .inl rfl
    | none =>
      cases ha : m.alarms.lookup id with
      | none => exact .inl rfl
      | some a =>
        dsimp only
        split_ifs with hcond hst
        · exact .inl rfl
        · exact .inl rfl
        · exact .inr ⟨id,a,_,a.acknowledgedAt,_,ha,rfl,hst,fun _ => ⟨by simpa using hcond,rfl⟩⟩

variable {rule : Rule} {r : RuleID} {calls : List AlarmCall} {st : RuleState} {out : Outcome}

theorem registerRule_ok {ctx : Option Failure} {m' : Manager}
    (h : m.registerRule ctx rule = .ok m') :
    rule.id ∉ m.rules ∧ m' = { m with rules := m.rules.insert rule.id { rule := rule } } := by
  unfold Manager.registerRule at h
  split at h
  · cases h
  · cases h
  · split_ifs at h with hmem
    exact ⟨hmem,(Except.ok.inj h).symm⟩

theorem registerRule_cases (m : Manager) (ctx : Option Failure) (rule : Rule) :
    m.call (.registerRule ctx rule) = m ∨ (rule.id ∉ m.rules ∧
      m.registerRule ctx rule = .ok { m with rules := m.rules.insert rule.id { rule := rule } } ∧
      m.call (.registerRule ctx rule) =
        { m with rules := m.rules.insert rule.id { rule := rule } }) := by
  unfold Manager.call
  dsimp only
  cases hreg : m.registerRule ctx rule with
  | error err => exact .inl rfl
  | ok m' =>
    obtain ⟨hnew,rfl⟩ := registerRule_ok hreg
    exact .inr ⟨hnew,rfl,rfl⟩

/-- All a call that observes nothing can do: leave the engine, register a rule, or change the
status of an alarm that is not cleared. -/
theorem call_cases (m : Manager) (c : AlarmCall) :
    (∃ a o, c = .observe a o) ∨ c.observes = none ∧ (m.call c = m ∨
      (∃ ctx rule, rule.id ∉ m.rules ∧
        m.registerRule ctx rule = .ok { m with rules := m.rules.insert rule.id { rule := rule } } ∧
        m.call c = { m with rules := m.rules.insert rule.id { rule := rule } }) ∨
      ∃ id a status acknowledgedAt clearedAt, m.alarms.lookup id = some a ∧
        m.call c = { m with
          alarms := m.alarms.insert id
            { a with status := status, acknowledgedAt := acknowledgedAt, clearedAt := clearedAt } } ∧
        a.status ≠ .cleared ∧
        (status = .cleared → a.conditionActive = false ∧ clearedAt.isSome = true)) := by
  cases c with
  | observe a o => exact .inl ⟨a,o,rfl⟩
  | registerRule ctx rule =>
    refine .inr ⟨rfl,(registerRule_cases m ctx rule).imp_right fun hnew => .inl ⟨ctx,rule,hnew⟩⟩
  | acknowledge a id => exact .inr ⟨rfl,(operator_cases m _ (.inl ⟨a,id,rfl⟩)).imp_right .inr⟩
  | clear a id => exact .inr ⟨rfl,(operator_cases m _ (.inr ⟨a,id,rfl⟩)).imp_right .inr⟩

theorem registered_linked (h : m.Linked) (hnew : rule.id ∉ m.rules) :
    Manager.Linked { m with rules := m.rules.insert rule.id { rule := rule } } where
  rule := Table.forall_insert rfl h.rule
  alarm := h.alarm
  current := Table.forall_insert (fun hcur => absurd rfl hcur) h.current
  sole id a ha hopen := by
    obtain ⟨st,hst,hcur⟩ := h.sole id a ha hopen
    refine ⟨st,?_,hcur⟩
    dsimp only
    rw [Table.lookup_insert_ite,if_neg,hst]
    rintro hr
    exact hnew (hr ▸ Table.mem_of_lookup hst)

theorem registered_consistent (h : m.Consistent) (hnew : rule.id ∉ m.rules) :
    Manager.Consistent { m with rules := m.rules.insert rule.id { rule := rule } } := by
  refine ⟨registered_linked h.linked hnew,fun r st since hst hs => ?_⟩
  rw [Table.lookup_insert_ite] at hst
  split_ifs at hst with hr
  · obtain rfl := Option.some.inj hst
    cases hs
  · exact h.pending r st since hst hs

theorem call_consistent (h : m.Consistent) (c : AlarmCall) (hs : Supplied m c) :
    (m.call c).Consistent := by
  rcases call_cases m c with ⟨a,o,rfl⟩ | ⟨_,hm | ⟨_,rule,hnew,_,hm⟩ | ⟨id,a,_,_,_,ha,hm,hopen,_⟩⟩
  · exact observe_consistent h a o hs
  · rwa [hm]
  · rw [hm]
    exact registered_consistent h hnew
  · rw [hm]
    exact ⟨replace_linked h.linked ha rfl rfl fun hcl => absurd hcl hopen,h.pending⟩

theorem store_live (h : m.Linked) {r' : RuleID} (hst : m.rules.lookup r' = some st)
    (hp : Fits m r' st out) (hne : r ≠ r') : (m.store r' out).Live r ↔ m.Live r := by
  constructor
  · rintro ⟨id,a,ha,hr,hrest⟩
    rw [store_alarms] at ha
    split_ifs at ha with hid
    · obtain rfl := Option.some.inj ha
      exact absurd (hr.symm.trans (hp.named hid.1).2.1) hne
    · exact ⟨id,a,ha,hr,hrest⟩
  · rintro ⟨id,a,ha,hr,hrest⟩
    refine ⟨id,a,?_,hr,hrest⟩
    rw [store_alarms,if_neg,ha]
    rintro ⟨hid,hsame⟩
    rw [hsame] at ha
    exact hne (hr.symm.trans (fits_owner h hst hp hid ha).1)

theorem call_live (h : m.Consistent) (c : AlarmCall) (hs : Supplied m c)
    (hc : c.observes ≠ some r) : (m.call c).Live r ↔ m.Live r := by
  rcases call_cases m c with ⟨a,o,rfl⟩ | ⟨_,hm | ⟨_,rule,_,_,hm⟩ |
    ⟨id,a,status,_,_,ha,hm,hopen,hclosed⟩⟩
  · have hne : r ≠ o.ruleID := fun he => hc (congrArg some he.symm)
    unfold Manager.call
    dsimp only
    rcases observe_cases m a o with ⟨_,_,hm⟩ | ⟨st,hst,⟨_,hm⟩ | ⟨_,o',out,_,_,happ,hm⟩⟩
    · rw [hm]
    · rw [hm]
    · rw [hm]
      exact store_live h.linked hst
        (applies_fits h.linked hst (fun id hid => (hs.2 id hid).2) happ) hne
  · rw [hm]
  · rw [hm]
    exact Iff.rfl
  · rw [hm]
    constructor
    · rintro ⟨id',a',ha',hr',hopen',hcond'⟩
      rw [Table.lookup_insert_ite] at ha'
      split_ifs at ha' with hsame
      · obtain rfl := Option.some.inj ha'
        exact ⟨id,a,ha,hr',hopen,hcond'⟩
      · exact ⟨id',a',ha',hr',hopen',hcond'⟩
    · rintro ⟨id',a',ha',hr',hopen',hcond'⟩
      by_cases hsame : id' = id
      · rw [hsame,ha] at ha'
        obtain rfl := Option.some.inj ha'
        refine ⟨id,_,AList.lookup_insert _,hr',fun hcl => ?_,hcond'⟩
        rw [(hclosed hcl).1] at hcond'
        cases hcond'
      · exact ⟨id',a',(AList.lookup_insert_ne hsame).trans ha',hr',hopen',hcond'⟩

/-- An applied observation of a rule without debounce decides whether its alarm is live. -/
theorem applied_live (h : m.Consistent) (hst : m.rules.lookup r = some st)
    (hdeb : st.rule.debounce = 0) {newID : Except Failure AlarmID} {o : Observation}
    (hnew : NewAlarmID m newID) (ht : o.observedAt ≠ 0) (hfresh : st.Fresh o.observedAt)
    (ha : Applies m newID { st with lastObservation := o.observedAt } o out)
    (herr : out.err = none) : (m.store r out).Live r ↔ o.active = true := by
  have hp := applies_proper h hst hnew ht hfresh ha
  have hst' : (m.store r out).rules.lookup r = some out.state := by rw [store_rules,if_pos rfl]
  have hcons := store_consistent h hst hp
  rw [live_iff hcons.linked hst']
  have hwritten : out.alarm.id ≠ "" → (m.store r out).alarmOf out.state.current = out.alarm :=
    fun hid => store_alarmOf_written hid (hp.named hid).1
  have hnamed : out.alarm.id ≠ "" → out.alarm.status ≠ .cleared →
      ((¬ (m.store r out).Free out.state ∧
        ((m.store r out).alarmOf out.state.current).conditionActive = true) ↔
        out.alarm.conditionActive = true) := by
    intro hid hopen
    rw [hwritten hid]
    refine and_iff_right ?_
    rintro (hnone | hcl)
    · exact hid ((hp.named hid).1 ▸ hnone)
    · exact hopen (hwritten hid ▸ hcl)
  have hfreed : (m.store r out).Free out.state → o.active = false →
      ((¬ (m.store r out).Free out.state ∧
        ((m.store r out).alarmOf out.state.current).conditionActive = true) ↔
        o.active = true) := by
    intro hfree hactive
    simp [hfree,hactive]
  have hheld' : ¬ m.Free st → (m.alarmOf st.current).id ≠ "" ∧
      (m.alarmOf st.current).status ≠ .cleared := by
    intro hheld
    have hcur : st.current ≠ "" := fun hnone => hheld (.inl hnone)
    exact ⟨by rwa [(held_alarm h.linked hst hcur).1],fun hcl => hheld (.inr hcl)⟩
  cases ha with
  | debouncing since _ _ hs hwait =>
    have hle : since ≤ o.observedAt := hs ▸ pending_since h hst hfresh
    have hpos : 0 ≤ sub o.observedAt since := by
      unfold sub minDuration maxDuration
      omega
    have hlt : sub o.observedAt since < 0 := hdeb ▸ hwait
    omega
  | unnamed since err _ _ => cases herr
  | raised since id hactive hfree hid =>
    rw [hnamed (hnew id hid).1 (by simp [Rule.alarm])]
    simp [Rule.alarm,hactive]
  | repeated count severity tr hactive hheld =>
    rw [hnamed (hheld' hheld).1 (hheld' hheld).2]
    exact Iff.rfl
  | idle hactive hnone => exact hfreed (.inl hnone) hactive
  | past hactive hsome hcl =>
    have hid : (m.alarmOf st.current).id ≠ "" := by rwa [(held_alarm h.linked hst hsome).1]
    exact hfreed (.inr ((congrArg Alarm.status (hwritten hid)).trans hcl)) hactive
  | recovering since hactive hheld =>
    rw [hnamed (hheld' hheld).1 (hheld' hheld).2]
    exact Iff.rfl
  | cleared hactive hheld =>
    exact hfreed (.inr (congrArg Alarm.status (hwritten (hheld' hheld).1))) hactive

end Calls

structure Manager.Keyed (m : Manager) : Prop where
  rules : ∀ r st, m.rules.lookup r = some st → st.rule.id = r
  alarms : ∀ id a, m.alarms.lookup id = some a → a.id = id ∧ id ≠ ""

section Attribution

variable {m : Manager}

/-- An alarm is raised in the name of its rule; any other transition leaves it with its owner. -/
theorem apply_attributed (m : Manager) (newID : Except Failure AlarmID) (st : RuleState)
    (o : Observation) : let out := m.applyObservation newID st o
    out.state.rule = st.rule ∧ (out.transition = .raised → out.alarm.ruleID = st.rule.id) ∧
    (out.transition ≠ .raised → out.alarm.id = "" ∨
      out.alarm.id = (m.alarmOf st.current).id ∧
      out.alarm.ruleID = (m.alarmOf st.current).ruleID) := by
  intro out
  rcases apply_cases m newID st o with ⟨_,_,alarm,halarm,hout⟩ | ⟨_,_,hout⟩ | ⟨_,_,hout⟩ | ⟨_,_,hout⟩
  · rw [show out = _ from hout]
    refine ⟨rfl,by simp,fun _ => ?_⟩
    rcases halarm with rfl | ⟨rfl,_⟩
    · exact .inl rfl
    · exact .inr ⟨rfl,rfl⟩
  · rw [show out = _ from hout]
    rcases raise_cases m newID st o with ⟨_,hraise⟩ | ⟨_,err,_,hraise⟩ | ⟨_,id,_,hraise⟩ <;>
      rw [hraise]
    · exact ⟨rfl,by simp,fun _ => .inl rfl⟩
    · exact ⟨rfl,by simp,fun _ => .inl rfl⟩
    · exact ⟨rfl,fun _ => rfl,by simp⟩
  · rw [show out = _ from hout,repeated_eq]
    refine ⟨rfl,fun htr => ?_,fun _ => .inr ⟨rfl,rfl⟩⟩
    dsimp only at htr
    split_ifs at htr
  · rw [show out = _ from hout]
    rcases recover_cases m st o with ⟨_,hrecover⟩ | ⟨_,_,hrecover⟩ <;> rw [hrecover]
    · exact ⟨rfl,by simp,fun _ => .inr ⟨rfl,rfl⟩⟩
    · exact ⟨rfl,by simp,fun _ => .inr ⟨rfl,rfl⟩⟩

theorem alarmOf_keyed (h : m.Keyed) {id : AlarmID} (hid : (m.alarmOf id).id ≠ "") :
    m.alarms.lookup id = some (m.alarmOf id) ∧ (m.alarmOf id).id = id := by
  unfold Manager.alarmOf at *
  cases ha : m.alarms.lookup id with
  | none => simp [ha,Alarm.zero] at hid
  | some a => exact ⟨rfl,(h.alarms id a ha).1⟩

/-- What one observation does to the alarms: it raises one in the name of the rule observed, or
every alarm keeps its owner. -/
theorem observe_attributed (h : m.Keyed) (a : Answer) (o : Observation) : (m.observe a o).2.Keyed ∧
    ∀ id b, (m.observe a o).2.alarms.lookup id = some b →
      ((m.observe a o).1.2.1 = .raised → id = (m.observe a o).1.1.id → b.ruleID = o.ruleID) ∧
      ((m.observe a o).1.2.1 ≠ .raised ∨ id ≠ (m.observe a o).1.1.id →
        ∃ b', m.alarms.lookup id = some b' ∧ b'.ruleID = b.ruleID) := by
  rcases observe_outcomes m a o with ⟨_,err,hm⟩ | ⟨st,o',hr,_,hm⟩ | ⟨st,o',out,hr,_,hout,hm⟩ <;> rw [hm]
  · exact ⟨h,fun id b hb => ⟨nofun,fun _ => ⟨b,hb,rfl⟩⟩⟩
  · exact ⟨h,fun id b hb => ⟨nofun,fun _ => ⟨b,hb,rfl⟩⟩⟩
  · obtain ⟨hrule,hraised,hother⟩ := apply_attributed m a.alarmID
      { st with lastObservation := o'.observedAt } o'
    rw [hout] at hrule hraised hother
    have hid : st.rule.id = o.ruleID := h.rules _ st hr.2.2
    refine ⟨⟨Table.forall_insert ((congrArg Rule.id hrule).trans hid) h.rules,
      forall_store_alarms (fun hne => ⟨rfl,hne⟩) h.alarms⟩,
      fun id b hb => ⟨fun htr hname => ?_,fun hnot => ?_⟩⟩
    · rw [store_alarms] at hb
      split_ifs at hb with hstored
      · obtain rfl := Option.some.inj hb
        exact (hraised htr).trans hid
      · have hempty : id = "" := by
          by_contra hne
          exact hstored ⟨hname ▸ hne,hname⟩
        exact absurd hempty (h.alarms id b hb).2
    · rw [store_alarms] at hb
      split_ifs at hb with hstored
      · obtain rfl := Option.some.inj hb
        rcases hother (hnot.resolve_right (not_not.mpr hstored.2)) with hempty | ⟨hown,howner⟩
        · exact absurd hempty hstored.1
        · obtain ⟨hlook,hkey⟩ := alarmOf_keyed h (hown ▸ hstored.1)
          refine ⟨_,?_,howner.symm⟩
          rw [hstored.2,hown,hkey]
          exact hlook
      · exact ⟨b,hb,rfl⟩

theorem call_attributed (h : m.Keyed) (c : AlarmCall) (hc : ∀ a o, c ≠ .observe a o) :
    (m.call c).Keyed ∧ ∀ id b, (m.call c).alarms.lookup id = some b →
      ∃ b', m.alarms.lookup id = some b' ∧ b'.ruleID = b.ruleID := by
  rcases call_cases m c with ⟨a,o,rfl⟩ | ⟨_,hm | ⟨_,rule,_,_,hm⟩ | ⟨id,a,_,_,_,ha,hm,_⟩⟩
  · exact absurd rfl (hc a o)
  · rw [hm]
    exact ⟨h,fun id b hb => ⟨b,hb,rfl⟩⟩
  · rw [hm]
    exact ⟨⟨Table.forall_insert rfl h.rules,h.alarms⟩,fun id b hb => ⟨b,hb,rfl⟩⟩
  · rw [hm]
    exact ⟨⟨h.rules,Table.forall_insert (h.alarms id a ha) h.alarms⟩,
      Table.forall_insert ⟨a,ha,rfl⟩ fun id b hb => ⟨b,hb,rfl⟩⟩

theorem call_keyed (h : m.Keyed) (c : AlarmCall) : (m.call c).Keyed := by
  cases c with
  | observe a o => exact (observe_attributed h a o).1
  | registerRule ctx rule | acknowledge a id | clear a id => exact (call_attributed h _ (by simp)).1

end Attribution

end Alarms
end AquaOS
