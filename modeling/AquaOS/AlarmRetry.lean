import AquaOS.AlarmLife

/-! An observation delivered again after its first delivery failed. `Observe` dates the rule's last
observation before it needs an alarm ID and before its event is published, so a failure of either
leaves the observation behind as one already heard. -/
namespace AquaOS

open Domain Timeline Transition

namespace Alarms

/-- What the first delivery meets if the fault does not occur. -/
def Answer.repaired (a : Answer) (id : AlarmID) : Answer :=
  { a with
    alarmID := match a.alarmID with
      | .ok named => .ok named
      | .error _ => .ok id
    emitted := none }

/-- What a second delivery meets once the fault is gone, at a later reading of the clock. -/
def Answer.again (a : Answer) (id : AlarmID) (now : ℤ) : Answer :=
  { a with now := now, alarmID := .ok id, emitted := none }

/-- The transitions whose event a call publishes: at most one. -/
def Manager.published (m : Manager) (a : Answer) (o : Observation) : List Transition :=
  match (m.observe a o).1 with
  | (_,tr,none) => if tr.silent ∨ tr = .ignoredStale then [] else [tr]
  | (_,_,some _) => []

/-- A second delivery leaves the alarms the first one should have left, the event is published
once, and the second is not taken for a stale one. -/
structure Recovered (m : Manager) (a : Answer) (o : Observation) (id : AlarmID) (now : ℤ) :
    Prop where
  alarms : ∀ i, ((m.observe a o).2.observe (a.again id now) o).2.alarms.lookup i =
    (m.observe (a.repaired id) o).2.alarms.lookup i
  event : m.published a o++(m.observe a o).2.published (a.again id now) o =
    m.published (a.repaired id) o
  heard : ((m.observe a o).2.observe (a.again id now) o).1.2.1 ≠ .ignoredStale

section Due

variable (m : Manager) (st : RuleState) (o : Observation)

def Manager.RaiseDue : Prop :=
  o.active = true ∧ m.Free st ∧
    st.rule.debounce ≤ sub o.observedAt (st.pendingActive.getD o.observedAt)

def Manager.EscalationDue : Prop :=
  o.active = true ∧ ¬ m.Free st ∧ (m.alarmOf st.current).severity.rank < o.severity.rank

def Manager.ClearDue : Prop :=
  o.active = false ∧ ¬ m.Free st ∧ st.rule.latching = false ∧
    st.rule.hysteresis ≤ sub o.observedAt (st.pendingClear.getD o.observedAt)

/-- An alarm ID is available if one is due to be raised, and its event goes out if any transition
is due. -/
def Manager.Faultless (a : Answer) : Prop :=
  st.Fresh o.observedAt → (m.RaiseDue st o → ∃ id, a.alarmID = .ok id) ∧
    (m.RaiseDue st o ∨ m.EscalationDue st o ∨ m.ClearDue st o → a.emitted = none)

end Due

section Outcome

variable {m : Manager} {st : RuleState} {o : Observation} {newID : Except Failure AlarmID} {t : ℤ}

theorem apply_raise_due (h : m.RaiseDue st o) (newID : Except Failure AlarmID) (t : ℤ) :
    (∀ err, newID = .error err →
      m.applyObservation newID { st with lastObservation := t } o =
        ⟨{ st with lastObservation := t, pendingClear := none
                   pendingActive := some (st.pendingActive.getD o.observedAt) },
          .zero,.none,some err⟩) ∧
    (∀ id, newID = .ok id →
      m.applyObservation newID { st with lastObservation := t } o =
        ⟨{ st with lastObservation := t, pendingClear := none, pendingActive := none, current := id },
          st.rule.alarm o id (st.pendingActive.getD o.observedAt) m.evidenceLimit,.raised,none⟩) := by
  obtain ⟨hactive,hfree,hlasted⟩ := h
  rw [apply_raise hactive (show m.Free { st with lastObservation := t } from hfree)]
  rcases raise_cases m newID { st with lastObservation := t } o with
    ⟨hwait,_⟩ | ⟨_,err,herr,hout⟩ | ⟨_,id,hid,hout⟩
  · exact absurd hlasted (not_le.mpr hwait)
  · refine ⟨fun err' herr' => ?_,fun id hid => ?_⟩
    · obtain rfl : err = err' := Except.error.inj (herr.symm.trans herr')
      exact hout
    · rw [herr] at hid
      cases hid
  · refine ⟨fun err herr => ?_,fun id' hid' => ?_⟩
    · rw [hid] at herr
      cases herr
    · obtain rfl : id = id' := Except.ok.inj (hid.symm.trans hid')
      exact hout

theorem apply_escalation_due (h : m.EscalationDue st o) :
    m.applyObservation newID { st with lastObservation := t } o =
      ⟨{ st with lastObservation := t, pendingClear := none },
        { (m.alarmOf st.current).observed o m.evidenceLimit with
          occurrenceCount := ((m.alarmOf st.current).occurrenceCount+1) % 2^64
          severity := o.severity },.escalated,none⟩ := by
  obtain ⟨hactive,hheld,hlt⟩ := h
  rw [apply_repeated hactive (show ¬ m.Free { st with lastObservation := t } from hheld),repeated_eq]
  dsimp only
  rw [if_pos hlt,if_pos hlt]

theorem apply_clear_due (h : m.ClearDue st o) :
    m.applyObservation newID { st with lastObservation := t } o =
      ⟨{ st with lastObservation := t, pendingActive := none, pendingClear := none },
        { (m.alarmOf st.current).observed o m.evidenceLimit with
          status := .cleared, clearedAt := some o.observedAt },.cleared,none⟩ := by
  obtain ⟨hactive,hheld,hlatch,hlasted⟩ := h
  rw [apply_recover hactive (show ¬ m.Free { st with lastObservation := t } from hheld)]
  rcases recover_cases m { st with lastObservation := t } o with
    ⟨hwait | hlatching,_⟩ | ⟨_,_,hout⟩
  · exact absurd hlasted (not_le.mpr hwait)
  · exact absurd (hlatch.symm.trans hlatching) Bool.false_ne_true
  · exact hout

theorem apply_nothing_due (hraise : ¬ m.RaiseDue st o) (hescalate : ¬ m.EscalationDue st o)
    (hclear : ¬ m.ClearDue st o) (newID : Except Failure AlarmID) (t : ℤ) :
    let out := m.applyObservation newID { st with lastObservation := t } o
    out.transition.silent = true ∧ out.err = none := by
  intro out
  rcases apply_cases m newID { st with lastObservation := t } o with
    ⟨_,_,alarm,_,hout⟩ | ⟨hon,hfree,hout⟩ | ⟨hon,hheld,hout⟩ | ⟨hoff,hheld,hout⟩
  · rw [show out = _ from hout]
    exact ⟨rfl,rfl⟩
  · have hwait : sub o.observedAt (st.pendingActive.getD o.observedAt) < st.rule.debounce := by
      by_contra hlasted
      exact hraise ⟨hon,hfree,not_lt.mp hlasted⟩
    rw [show out = _ from hout]
    rcases raise_cases m newID { st with lastObservation := t } o with
      ⟨_,hwaits⟩ | ⟨hlasted,_⟩ | ⟨hlasted,_⟩
    · rw [hwaits]
      exact ⟨rfl,rfl⟩
    · exact absurd hwait hlasted
    · exact absurd hwait hlasted
  · rw [show out = _ from hout,repeated_eq]
    dsimp only
    rw [if_neg fun hlt => hescalate ⟨hon,hheld,hlt⟩]
    exact ⟨rfl,rfl⟩
  · rw [show out = _ from hout]
    rcases recover_cases m { st with lastObservation := t } o with
      ⟨_,hwaits⟩ | ⟨hlasted,hlatch,_⟩
    · rw [hwaits]
      exact ⟨rfl,rfl⟩
    · exact absurd ⟨hoff,hheld,hlatch,hlasted⟩ hclear

end Outcome

section Retry

variable {m : Manager} {a : Answer} {o o' : Observation} {st : RuleState} {id : AlarmID} {now : ℤ}
  {out : Outcome}

theorem observe_fresh (hr : Reaches m a o st o') (hfresh : st.Fresh o'.observedAt)
    (hout : m.applyObservation a.alarmID { st with lastObservation := o'.observedAt } o' = out) :
    m.observe a o = ((out.alarm,out.transition,out.failure a),m.store o.ruleID out) := by
  rw [observe_of_reaches hr,if_pos hfresh]
  dsimp only
  rw [hout]

theorem reaches_again (hr : Reaches m a o st o') (id : AlarmID) (now : ℤ) (out : Outcome) :
    Reaches (m.store o.ruleID out) (a.again id now) o out.state
      { o' with observedAt := o.instant (a.again id now) } := by
  obtain ⟨hctx,hs,_⟩ := hr
  refine ⟨hctx,?_,by rw [store_rules,if_pos rfl]⟩
  unfold Observation.stamped at hs ⊢
  rw [show (a.again id now).correlationID = a.correlationID from rfl]
  split at hs
  · cases hs
  · obtain rfl := Except.ok.inj hs
    rfl

theorem published_failed (h : (m.observe a o).1.2.2 ≠ none) : m.published a o = [] := by
  unfold Manager.published
  split
  · next heq =>
    rw [heq] at h
    exact absurd rfl h
  · rfl

theorem published_silent (hm : m.observe a o = ((out.alarm,out.transition,out.failure a),
    m.store o.ruleID out)) (hsilent : out.transition.silent = true) : m.published a o = [] := by
  unfold Manager.published
  rw [hm]
  dsimp only
  split
  · next heq =>
    obtain rfl : out.transition = _ := congrArg (fun x => x.2.1) heq
    rw [if_pos (.inl hsilent)]
  · rfl

theorem published_loud (hm : m.observe a o = ((out.alarm,out.transition,out.failure a),
    m.store o.ruleID out)) (herr : out.err = none) (hloud : out.transition.silent = false)
    (hstale : out.transition ≠ .ignoredStale) (hemit : a.emitted = none) :
    m.published a o = [out.transition] := by
  unfold Manager.published
  rw [hm]
  simp [Outcome.failure,herr,hloud,hstale,hemit]

theorem failure_loud (herr : out.err = none) (hloud : out.transition.silent = false) :
    out.failure a = a.emitted := by
  simp [Outcome.failure,herr,hloud]

theorem published_again_nil (hr : Reaches m a o st o') (hquiet : ∀ t,
    ¬ (m.store o.ruleID out).RaiseDue out.state { o' with observedAt := t } ∧
    ¬ (m.store o.ruleID out).EscalationDue out.state { o' with observedAt := t } ∧
    ¬ (m.store o.ruleID out).ClearDue out.state { o' with observedAt := t }) :
    (m.store o.ruleID out).published (a.again id now) o = [] := by
  have hagain := reaches_again hr id now out
  by_cases hfresh : out.state.Fresh (o.instant (a.again id now))
  · obtain ⟨hraise,hescalate,hclear⟩ := hquiet (o.instant (a.again id now))
    obtain ⟨hsilent,_⟩ := apply_nothing_due hraise hescalate hclear (a.again id now).alarmID
      (o.instant (a.again id now))
    exact published_silent (observe_fresh hagain hfresh rfl) hsilent
  · have hm := observe_of_reaches hagain
    rw [if_neg hfresh] at hm
    unfold Manager.published
    rw [hm]
    simp

/-- An event that could not be published is lost where the first delivery leaves nothing due. -/
theorem lost_event (hr : Reaches m a o st o') (hfresh : st.Fresh o'.observedAt)
    (hfirst : m.applyObservation a.alarmID { st with lastObservation := o'.observedAt } o' = out)
    (hideal : m.applyObservation (a.repaired id).alarmID
      { st with lastObservation := o'.observedAt } o' = out)
    (herr : out.err = none) (hloud : out.transition.silent = false)
    (hstale : out.transition ≠ .ignoredStale) (hemit : a.emitted ≠ none) (hquiet : ∀ t,
      ¬ (m.store o.ruleID out).RaiseDue out.state { o' with observedAt := t } ∧
      ¬ (m.store o.ruleID out).EscalationDue out.state { o' with observedAt := t } ∧
      ¬ (m.store o.ruleID out).ClearDue out.state { o' with observedAt := t }) :
    (m.observe a o).1.2.2 ≠ none ∧ ¬ Recovered m a o id now := by
  have hm := observe_fresh hr hfresh hfirst
  have hfail : (m.observe a o).1.2.2 ≠ none := by
    rw [hm]
    dsimp only
    rwa [failure_loud herr hloud]
  have hideal' : Reaches m (a.repaired id) o st o' := hr
  refine ⟨hfail,fun hrec => ?_⟩
  have hevent := hrec.event
  rw [published_failed hfail,hm,published_again_nil hr hquiet,
    published_loud (observe_fresh hideal' hfresh hideal) herr hloud hstale rfl] at hevent
  cases hevent

/-- An active observation is not due again once a live alarm has its severity. -/
theorem active_settled {r : RuleID} (hactive : o'.active = true) (hid : out.alarm.id ≠ "")
    (hcur : out.state.current = out.alarm.id) (hopen : out.alarm.status ≠ .cleared)
    (hrank : o'.severity.rank ≤ out.alarm.severity.rank) (t : ℤ) :
    ¬ (m.store r out).RaiseDue out.state { o' with observedAt := t } ∧
    ¬ (m.store r out).EscalationDue out.state { o' with observedAt := t } ∧
    ¬ (m.store r out).ClearDue out.state { o' with observedAt := t } := by
  have hof := store_alarmOf_written (m := m) (r := r) hid hcur
  refine ⟨?_,?_,?_⟩
  · rintro ⟨_,hnone | hcl,_⟩
    · exact hid (hcur ▸ hnone)
    · rw [hof] at hcl
      exact hopen hcl
  · rintro ⟨_,_,hlt⟩
    rw [hof] at hlt
    exact absurd hrank (not_le.mpr hlt)
  · rintro ⟨hoff,_⟩
    rw [show o'.active = false from hoff] at hactive
    cases hactive

/-- The alarm of the first delivery, had it been named, differs from that of the second in its
time. -/
theorem lost_alarm (hr : Reaches m a o st o') (hfresh : st.Fresh o'.observedAt)
    (hdate : o'.observedAt ≠ 0) (hdue : m.RaiseDue st o') {err : Failure}
    (herr : a.alarmID = .error err) (hne : id ≠ "") :
    (m.observe a o).1.2.2 ≠ none ∧ ¬ Recovered m a o id now := by
  have hfirst := (apply_raise_due hdue a.alarmID o'.observedAt).1 err herr
  have hm := observe_fresh hr hfresh hfirst
  have hideal : Reaches m (a.repaired id) o st o' := hr
  have hnamed : (a.repaired id).alarmID = .ok id := by simp [Answer.repaired,herr]
  have hbest := observe_fresh hideal hfresh
    ((apply_raise_due hdue (a.repaired id).alarmID o'.observedAt).2 id hnamed)
  refine ⟨by rw [hm]; simp [Outcome.failure],fun hrec => ?_⟩
  have hheard := hrec.heard
  have halarms := hrec.alarms id
  rw [hm] at hheard halarms
  rw [hbest,store_alarms,if_pos ⟨hne,rfl⟩] at halarms
  set pending : Outcome := ⟨{ st with lastObservation := o'.observedAt, pendingClear := none
                                      pendingActive := some (st.pendingActive.getD o'.observedAt) },
    .zero,.none,some err⟩ with hpending
  have hagain := reaches_again hr id now pending
  by_cases hfresh' : pending.state.Fresh (o.instant (a.again id now))
  · have hlater : o'.observedAt < o.instant (a.again id now) := hfresh'.resolve_left hdate
    have hdue' : (m.store o.ruleID pending).RaiseDue pending.state
        { o' with observedAt := o.instant (a.again id now) } := by
      refine ⟨hdue.1,?_,hdue.2.2.trans (sub_le_sub hlater.le)⟩
      simpa [Manager.Free,store_alarmOf,hpending,Alarm.zero] using hdue.2.1
    have hsecond := (apply_raise_due hdue' (a.again id now).alarmID
      (o.instant (a.again id now))).2 id rfl
    rw [observe_fresh hagain hfresh' hsecond,store_alarms,if_pos ⟨hne,rfl⟩] at halarms
    have htime : o.instant (a.again id now) = o'.observedAt :=
      congrArg Alarm.lastObserved (Option.some.inj halarms)
    exact absurd htime hlater.ne'
  · rw [observe_of_reaches hagain,if_neg hfresh'] at hheard
    exact hheard rfl

theorem faultless_ok (hr : Reaches m a o st o') (hf : m.Faultless st o' a) :
    (m.observe a o).1.2.2 = none := by
  by_cases hfresh : st.Fresh o'.observedAt
  · obtain ⟨hnamed,hemit⟩ := hf hfresh
    by_cases hraise : m.RaiseDue st o'
    · obtain ⟨id,hid⟩ := hnamed hraise
      rw [observe_fresh hr hfresh ((apply_raise_due hraise _ _).2 id hid)]
      simp [Outcome.failure,hemit (.inl hraise)]
    by_cases hescalate : m.EscalationDue st o'
    · rw [observe_fresh hr hfresh (apply_escalation_due hescalate)]
      simp [Outcome.failure,hemit (.inr (.inl hescalate))]
    by_cases hclear : m.ClearDue st o'
    · rw [observe_fresh hr hfresh (apply_clear_due hclear)]
      simp [Outcome.failure,hemit (.inr (.inr hclear))]
    · obtain ⟨hsilent,herr⟩ := apply_nothing_due hraise hescalate hclear a.alarmID o'.observedAt
      rw [observe_fresh hr hfresh rfl]
      simp [Outcome.failure,herr,hsilent]
  · rw [observe_of_reaches hr,if_neg hfresh]

/-- Whatever transition was due, an event that could not be published is lost. -/
theorem lost_transition (h : m.Linked) (hr : Reaches m a o st o') (hfresh : st.Fresh o'.observedAt)
    (hids : NewAlarmID m a.alarmID) (hnamed : m.RaiseDue st o' → ∃ id, a.alarmID = .ok id)
    (hdue : m.RaiseDue st o' ∨ m.EscalationDue st o' ∨ m.ClearDue st o') (hemit : a.emitted ≠ none) :
    (m.observe a o).1.2.2 ≠ none ∧ ¬ Recovered m a o id now := by
  rcases hdue with hraise | hescalate | hclear
  · obtain ⟨named,hid⟩ := hnamed hraise
    have hrepaired : (a.repaired id).alarmID = .ok named := by simp [Answer.repaired,hid]
    refine lost_event hr hfresh ((apply_raise_due hraise _ _).2 named hid)
      ((apply_raise_due hraise _ _).2 named hrepaired) rfl rfl (by simp) hemit
      (active_settled hraise.1 (hids named hid).1 rfl (by simp [Rule.alarm]) ?_)
    simp only [Rule.alarm]
    split_ifs with hlt
    · exact le_refl _
    · exact not_lt.mp hlt
  · obtain ⟨hne,hown,_,hopen⟩ := held_mem h hr.2.2 hescalate.2.1
    refine lost_event hr hfresh (apply_escalation_due hescalate) (apply_escalation_due hescalate)
      rfl rfl (by simp) hemit (active_settled hescalate.1 ?_ ?_ hopen (le_refl _))
    · simpa [Alarm.observed,hown] using hne
    · simp [Alarm.observed,hown]
  · obtain ⟨hne,hown,_,_⟩ := held_mem h hr.2.2 hclear.2.1
    refine lost_event hr hfresh (apply_clear_due hclear) (apply_clear_due hclear) rfl rfl (by simp)
      hemit fun t => ⟨?_,?_,?_⟩
    · rintro ⟨hon,_⟩
      rw [hclear.1] at hon
      cases hon
    · rintro ⟨hon,_⟩
      rw [hclear.1] at hon
      cases hon
    · rintro ⟨_,hheld,_⟩
      refine hheld (.inr ?_)
      rw [store_alarmOf_written]
      · simpa [Alarm.observed,hown] using hne
      · simp [Alarm.observed,hown]

end Retry

/-- A failed delivery has its effect when repeated exactly if it met no fault: the ID of an alarm
due to be raised, and the publication of any transition due, succeed. -/
theorem retry_recovers_iff {m : Manager} (h : m.Linked) {a : Answer} {o o' : Observation}
    {st : RuleState} (hr : Reaches m a o st o') (hnow : a.now ≠ 0) (hids : NewAlarmID m a.alarmID)
    {id : AlarmID} (hne : id ≠ "") (now : ℤ) :
    ((m.observe a o).1.2.2 ≠ none → Recovered m a o id now) ↔ m.Faultless st o' a := by
  have hdate : o'.observedAt ≠ 0 := by
    obtain ⟨_,rfl⟩ := stamped_ok hr.2.1
    exact instant_ne_zero hnow o
  constructor
  · intro hrec hfresh
    have hnamed : m.RaiseDue st o' → ∃ id, a.alarmID = .ok id := by
      intro hdue
      cases herr : a.alarmID with
      | ok named => exact ⟨named,rfl⟩
      | error err =>
        obtain ⟨hfail,hlost⟩ := lost_alarm hr hfresh hdate hdue herr hne
        exact absurd (hrec hfail) hlost
    refine ⟨hnamed,fun hdue => ?_⟩
    by_contra hemit
    obtain ⟨hfail,hlost⟩ := lost_transition h hr hfresh hids hnamed hdue hemit
    exact hlost (hrec hfail)
  · intro hf hfail
    exact absurd (faultless_ok hr hf) hfail

def leakWatched : Manager := run Manager.call (newManager 16) [.registerRule none leakRule]

def leakObserved : Observation :=
  { ruleID := leakRule.id, active := true, observedAt := 1, evidence := ⟨"wet","",none⟩
    correlationID := "c" }

/-- No alarm ID can be had for a leak, and its observation is not recovered. -/
theorem unnamed_leak_not_recovered :
    (leakWatched.observe { now := 1 } leakObserved).1.2.2 ≠ none ∧
      ¬ Recovered leakWatched { now := 1 } leakObserved "first" 2 := by
  have hreach : Reaches leakWatched { now := 1 } leakObserved { rule := leakRule } leakObserved :=
    ⟨rfl,rfl,by decide +kernel⟩
  have hlinked : leakWatched.Linked :=
    (run_orderly (newManager_orderly 16) (by decide +kernel)).linked
  have hiff := retry_recovers_iff hlinked hreach (by decide) (fun id hid => nomatch hid)
    (show "first" ≠ "" by decide) 2
  refine ⟨by decide +kernel,fun hrec => ?_⟩
  obtain ⟨id,hid⟩ := (hiff.mp (fun _ => hrec) (.inl rfl)).1 ⟨rfl,.inl rfl,by decide⟩
  cases hid

theorem unnamed_leak_retry_ignored :
    let failed := leakWatched.observe { now := 1 } leakObserved
    let retried := failed.2.observe { now := 2, alarmID := .ok "first" } leakObserved
    let meant := leakWatched.observe { now := 1, alarmID := .ok "first" } leakObserved
    failed.1.2.2 ≠ none ∧ retried.1.2.1 = .ignoredStale ∧ retried.2.alarms.lookup "first" = none ∧
      (meant.2.alarms.lookup "first").map Alarm.status = some .active := by
  decide +kernel

end Alarms
end AquaOS
