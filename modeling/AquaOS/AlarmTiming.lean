import AquaOS.AlarmLife

/-! Debounce and hysteresis against the history of a rule. Of the observations that reach the
engine those later than all before count; an alarm is raised once an unbroken run of active ones
has lasted the debounce, and cleared once a run of inactive ones has lasted the hysteresis. -/
namespace AquaOS

open Domain Timeline Transition

namespace Alarms

def AlarmCall.heard (r : RuleID) : AlarmCall → Option Report
  | .observe a o => if a.ctx = none ∧ o.ruleID = r then some ⟨o.observedAt,o.active⟩ else none
  | _ => none

/-- All the engine is told of a rule, newest first. -/
def heardBy (r : RuleID) (calls : List AlarmCall) : List Report :=
  (calls.filterMap (AlarmCall.heard r)).reverse

/-- Observations are dated, and every new identifier is available and unused. -/
def Equipped (m : Manager) : AlarmCall → Prop
  | .observe a o => o.observedAt ≠ 0 ∧ (∃ o', o.stamped a = .ok o') ∧
      ∃ id, a.alarmID = .ok id ∧ id ≠ "" ∧ id ∉ m.alarms
  | _ => True

def Manager.Occupied (m : Manager) (r : RuleID) : Prop :=
  ∃ id a, m.alarms.lookup id = some a ∧ a.ruleID = r ∧ a.status ≠ .cleared

def Manager.Raises (m m' : Manager) (r : RuleID) : Prop :=
  ∃ id a, id ∉ m.alarms ∧ m'.alarms.lookup id = some a ∧ a.ruleID = r ∧ a.status ≠ .cleared

def Manager.Clears (m m' : Manager) (r : RuleID) : Prop :=
  ∃ id a a', m.alarms.lookup id = some a ∧ a.ruleID = r ∧ a.status ≠ .cleared ∧
    m'.alarms.lookup id = some a' ∧ a'.status = .cleared

/-- The timers of a rule say what its history of accepted observations, newest first, says:
without a live alarm since when the condition is active, with one since when it is not. -/
structure Timed (m : Manager) (st : RuleState) (history : List Report) : Prop where
  last : st.lastObservation = (history.head?.map Report.time).getD 0
  dated : ∀ x, history.head? = some x → x.time ≠ 0
  free : m.Free st → st.pendingActive = runStart true history
  held : ¬ m.Free st → st.pendingActive = none ∧ st.pendingClear = runStart false history ∧
    ((m.alarmOf st.current).conditionActive = false → runStart true history = none)

variable {m : Manager} {r : RuleID} {st : RuleState} {history : List Report}

theorem occupied_iff (h : m.Linked) (hst : m.rules.lookup r = some st) :
    m.Occupied r ↔ ¬ m.Free st := by
  constructor
  · rintro ⟨id,a,ha,rfl,hopen⟩ hfree
    obtain ⟨st',hst',hcur⟩ := h.sole id a ha hopen
    obtain rfl := Option.mem_unique hst hst'
    exact free_not_current h hfree ha hopen hcur
  · intro hheld
    obtain ⟨a,ha,hr⟩ := h.current r st hst fun hnone => hheld (.inl hnone)
    exact ⟨_,a,ha,hr,fun hcl => hheld (.inr (by rwa [alarmOf_eq ha]))⟩

theorem Timed.fresh_iff (h : Timed m st history) {t : ℤ} :
    st.Fresh t ↔ ∀ x, history.head? = some x → x.time < t := by
  unfold RuleState.Fresh
  rw [h.last]
  cases hx : history.head? with
  | none => simp
  | some x => simp [h.dated x hx]

/-- Only the rule's current alarm matters to its timers. -/
theorem Timed.frame (h : Timed m st history) {m' : Manager}
    (hsame : st.current = "" ∨ m'.alarmOf st.current = m.alarmOf st.current) :
    Timed m' st history := by
  rcases hsame with hnone | hsame
  · exact ⟨h.last,h.dated,fun _ => h.free (.inl hnone),fun hheld => absurd (.inl hnone) hheld⟩
  · have hfree : m'.Free st ↔ m.Free st := by simp only [Manager.Free,hsame]
    exact ⟨h.last,h.dated,fun hf => h.free (hfree.mp hf),fun hheld => by
      rw [hsame]
      exact h.held fun hf => hheld (hfree.mpr hf)⟩

theorem registered_timed (m : Manager) (rule : Rule) : Timed m { rule := rule } [] :=
  ⟨rfl,fun x hx => by simp at hx,fun _ => rfl,fun hheld => absurd (.inl rfl) hheld⟩

structure Advanced (m : Manager) (r : RuleID) (st : RuleState) (history : List Report)
    (o : Observation) (out : Outcome) : Prop where
  rule : out.state.rule = st.rule
  timed : Timed (m.store r out) out.state (⟨o.observedAt,o.active⟩::history)
  raises : o.active = true → (m.Raises (m.store r out) r ↔ m.Free st ∧
    st.rule.debounce ≤ sub o.observedAt ((runStart true history).getD o.observedAt))
  clears : o.active = false → (m.Clears (m.store r out) r ↔ ¬ m.Free st ∧
    st.rule.latching = false ∧
    st.rule.hysteresis ≤ sub o.observedAt ((runStart false history).getD o.observedAt))

section Advance

variable {newID : Except Failure AlarmID} {o : Observation} {id : AlarmID}

theorem not_raises {out : Outcome} (h : out.alarm.id = "" ∨ out.alarm.id ∈ m.alarms) :
    ¬ m.Raises (m.store r out) r := by
  rintro ⟨id,a,hnew,ha,_⟩
  rw [store_alarms] at ha
  split_ifs at ha with hw
  · rcases h with hnone | hmem
    · exact hw.1 hnone
    · exact hnew (hw.2 ▸ hmem)
  · exact hnew (Table.mem_of_lookup ha)

theorem not_clears {out : Outcome} (h : out.alarm.status = .cleared →
    ∀ a, m.alarms.lookup out.alarm.id = some a → a.status = .cleared) :
    ¬ m.Clears (m.store r out) r := by
  rintro ⟨id,a,a',ha,_,hopen,ha',hcl⟩
  rw [store_alarms] at ha'
  split_ifs at ha' with hw
  · obtain rfl := Option.some.inj ha'
    exact hopen (h hcl a (hw.2 ▸ ha))
  · rw [ha] at ha'
    obtain rfl := Option.some.inj ha'
    exact hopen hcl

theorem Timed.now {m' : Manager} {st' : RuleState} (hdate : o.observedAt ≠ 0)
    (hlast : st'.lastObservation = o.observedAt)
    (hfree : m'.Free st' → st'.pendingActive = runStart true (⟨o.observedAt,o.active⟩::history))
    (hheld : ¬ m'.Free st' → st'.pendingActive = none ∧
      st'.pendingClear = runStart false (⟨o.observedAt,o.active⟩::history) ∧
      ((m'.alarmOf st'.current).conditionActive = false →
        runStart true (⟨o.observedAt,o.active⟩::history) = none)) :
    Timed m' st' (⟨o.observedAt,o.active⟩::history) := by
  refine ⟨hlast,fun x hx => ?_,hfree,hheld⟩
  obtain rfl := Option.some.inj hx
  exact hdate

theorem advanced_raise (h : m.Linked) (hst : m.rules.lookup r = some st) (ht : Timed m st history)
    (hdate : o.observedAt ≠ 0) (hactive : o.active = true) (hfree : m.Free st) (hne : id ≠ "")
    (hnew : id ∉ m.alarms) : Advanced m r st history o
      (m.raise (.ok id) { st with lastObservation := o.observedAt } o) := by
  have hoff : o.active ≠ false := by simp [hactive]
  unfold Manager.raise
  dsimp only
  rw [ht.free hfree]
  split_ifs with hwait
  · refine ⟨rfl,.now hdate rfl (fun _ => ?_) fun hheld => absurd ?_ hheld,fun _ => ?_,
      fun h => absurd h hoff⟩
    · simp [runStart_cons,hactive]
    · simpa [Manager.Free,store_alarmOf,Alarm.zero] using hfree
    · exact iff_of_false (not_raises (.inl rfl)) fun hc => by omega
  · have hwritten : ((m.store r ⟨_,st.rule.alarm o id ((runStart true history).getD o.observedAt)
        m.evidenceLimit,.raised,none⟩).alarms.lookup id) = some (st.rule.alarm o id
          ((runStart true history).getD o.observedAt) m.evidenceLimit) :=
      (store_alarms m r ⟨{ st with current := id },_,_,_⟩ id).trans (if_pos ⟨hne,rfl⟩)
    refine ⟨rfl,.now hdate rfl (fun hf => ?_) fun _ => ⟨rfl,?_,fun hcond => ?_⟩,fun _ => ?_,
      fun h => absurd h hoff⟩
    · simp [Manager.Free,store_alarmOf,Rule.alarm,hne] at hf
    · simp [runStart_cons,hactive]
    · simp [store_alarmOf,Rule.alarm,hne] at hcond
    · exact iff_of_true ⟨id,_,hnew,hwritten,h.rule r st hst,by simp [Rule.alarm]⟩
        ⟨hfree,by omega⟩

theorem advanced_repeated (h : m.Linked) (hst : m.rules.lookup r = some st)
    (ht : Timed m st history) (hdate : o.observedAt ≠ 0) (hactive : o.active = true)
    (hheld : ¬ m.Free st) :
    Advanced m r st history o (m.repeated { st with lastObservation := o.observedAt } o) := by
  obtain ⟨hne,hown,hmem,hopen⟩ := held_mem h hst hheld
  rw [repeated_eq]
  refine ⟨rfl,.now hdate rfl (fun hf => ?_) fun _ => ⟨(ht.held hheld).1,?_,fun hcond => ?_⟩,
    fun _ => iff_of_false (not_raises (.inr ?_)) fun hc => hheld hc.1,fun hoff => ?_⟩
  · simp [Manager.Free,store_alarmOf,Alarm.observed,hown,hne,hopen] at hf
  · simp [runStart_cons,hactive]
  · simp [store_alarmOf,Alarm.observed,hown,hne,hactive] at hcond
  · simpa [Alarm.observed,hown] using hmem
  · simp [hactive] at hoff

theorem advanced_recover (h : m.Linked) (hst : m.rules.lookup r = some st) (ht : Timed m st history)
    (hdate : o.observedAt ≠ 0) (hactive : o.active = false) (hheld : ¬ m.Free st) :
    Advanced m r st history o (m.recover { st with lastObservation := o.observedAt } o) := by
  obtain ⟨hne,hown,hmem,hopen⟩ := held_mem h hst hheld
  obtain ⟨hpending,hsince,_⟩ := ht.held hheld
  have hon : o.active ≠ true := by simp [hactive]
  unfold Manager.recover
  dsimp only
  rw [hsince]
  split_ifs with hwait
  · refine ⟨rfl,.now hdate rfl (fun hf => ?_) fun _ => ⟨rfl,?_,fun _ => ?_⟩,
      fun h => absurd h hon,fun _ => iff_of_false (not_clears fun hcl => ?_) ?_⟩
    · simp [Manager.Free,store_alarmOf,Alarm.observed,hown,hne,hopen] at hf
    · simp [runStart_cons,hactive]
    · simp [runStart_cons,hactive]
    · exact absurd hcl hopen
    · rintro ⟨_,hlatch,hlasted⟩
      rcases hwait with hshort | hlatching
      · omega
      · simp [hlatch] at hlatching
  · push Not at hwait
    obtain ⟨hlasted,hlatch⟩ := hwait
    refine ⟨rfl,.now hdate rfl (fun _ => ?_) fun hheld => absurd ?_ hheld,
      fun h => absurd h hon,fun _ => iff_of_true ?_ ⟨hheld,by simpa using hlatch,hlasted⟩⟩
    · simp [runStart_cons,hactive]
    · simp [Manager.Free,store_alarmOf,Alarm.observed,hown,hne]
    · obtain ⟨a,ha,hr⟩ := h.current r st hst hne
      refine ⟨st.current,a,_,ha,hr,by rwa [alarmOf_eq ha] at hopen,
        (store_alarms _ _ _ _).trans (if_pos ⟨?_,?_⟩),rfl⟩
      · simpa [Alarm.observed,hown] using hne
      · simp [Alarm.observed,hown]

theorem advanced_idle (h : m.Linked) (hst : m.rules.lookup r = some st)
    (hdate : o.observedAt ≠ 0) (hactive : o.active = false) (hfree : m.Free st) {alarm : Alarm}
    (halarm : alarm = .zero ∨ (alarm = m.alarmOf st.current ∧ alarm.status = .cleared)) :
    Advanced m r st history o
      ⟨{ st with lastObservation := o.observedAt, pendingActive := none },alarm,.none,none⟩ := by
  have hon : o.active ≠ true := by simp [hactive]
  refine ⟨rfl,.now hdate rfl (fun _ => ?_) fun hheld => absurd ?_ hheld,fun h => absurd h hon,
    fun _ => iff_of_false (not_clears fun hcl => ?_) fun hc => hc.1 hfree⟩
  · simp [runStart_cons,hactive]
  · rcases halarm with rfl | ⟨rfl,hcl⟩
    · simpa [Manager.Free,store_alarmOf,Alarm.zero] using hfree
    · refine .inr ?_
      rw [store_alarmOf]
      split_ifs <;> exact hcl
  · rcases halarm with rfl | ⟨rfl,_⟩
    · cases hcl
    · intro a ha
      have hne : st.current ≠ "" := by
        intro hnone
        rw [hnone,alarmOf_empty h] at hcl
        cases hcl
      rw [(held_alarm h hst hne).1] at ha
      rwa [alarmOf_eq ha] at hcl

/-- What an accepted observation of a rule does, by whether it is active and whether an alarm is
live. -/
theorem apply_advanced (h : m.Linked) (hst : m.rules.lookup r = some st) (ht : Timed m st history)
    (hdate : o.observedAt ≠ 0) (hnew : ∃ id, newID = .ok id ∧ id ≠ "" ∧ id ∉ m.alarms) :
    Advanced m r st history o
      (m.applyObservation newID { st with lastObservation := o.observedAt } o) := by
  obtain ⟨id,rfl,hne,hunused⟩ := hnew
  rcases apply_cases m (.ok id) { st with lastObservation := o.observedAt } o with
    ⟨hoff,hfree,alarm,halarm,hout⟩ | ⟨hon,hfree,hout⟩ | ⟨hon,hheld,hout⟩ | ⟨hoff,hheld,hout⟩ <;>
    rw [hout]
  · exact advanced_idle h hst hdate hoff hfree halarm
  · exact advanced_raise h hst ht hdate hon hfree hne hunused
  · exact advanced_repeated h hst ht hdate hon hheld
  · exact advanced_recover h hst ht hdate hoff hheld

end Advance

/-- A rule, unchanged, with timers that follow what has been heard of it. -/
structure Tracks (m : Manager) (rule : Rule) (heard : List Report) : Prop where
  orderly : m.Orderly
  timed : ∃ st, m.rules.lookup rule.id = some st ∧ st.rule = rule ∧ Timed m st (records heard)

section Calls

variable {rule : Rule} {heard : List Report}

theorem store_alarmOf_other (h : m.Linked) {r' : RuleID} {st' : RuleState} {out : Outcome}
    (hst : m.rules.lookup r = some st) (hst' : m.rules.lookup r' = some st')
    (hp : Fits m r' st' out) (hne : r ≠ r') :
    st.current = "" ∨ (m.store r' out).alarmOf st.current = m.alarmOf st.current := by
  refine or_iff_not_imp_left.mpr fun hcur => ?_
  obtain ⟨a,ha,hr⟩ := h.current r st hst hcur
  rw [store_alarmOf,if_neg]
  rintro ⟨hid,hsame⟩
  rw [hsame] at ha
  exact hne (hr.symm.trans (fits_owner h hst' hp hid ha).1)

variable {c : AlarmCall} {a : Answer} {o : Observation}

theorem Equipped.unused (h : Equipped m c) : Unused m c := by
  cases c with
  | observe a o =>
    obtain ⟨_,_,id,hid,_,hnew⟩ := h
    intro id' hid'
    obtain rfl : id = id' := Except.ok.inj (hid.symm.trans hid')
    exact hnew
  | registerRule _ _ | acknowledge _ _ | clear _ _ => trivial

/-- A change of status of one alarm keeps the timers of every rule: a manual clear is only
possible while the condition is inactive, which stopped the debounce. -/
theorem Timed.replaced (h : m.Linked) (ht : Timed m st history) {id : AlarmID} {a : Alarm}
    (ha : m.alarms.lookup id = some a) (hopen : a.status ≠ .cleared) {status : Status}
    {acknowledgedAt clearedAt : Option ℤ} (hcl : status = .cleared → a.conditionActive = false) :
    Timed { m with
      alarms := m.alarms.insert id
        { a with status := status, acknowledgedAt := acknowledgedAt, clearedAt := clearedAt } }
      st history := by
  by_cases hcur : st.current = id
  · subst hcur
    have hheld : ¬ m.Free st := fun hfree => free_not_current h hfree ha hopen rfl
    obtain ⟨hpending,hsince,hcond⟩ := ht.held hheld
    rw [alarmOf_eq ha] at hcond
    refine ⟨ht.last,ht.dated,fun hfree => ?_,fun _ => ⟨hpending,hsince,fun hoff => hcond ?_⟩⟩
    · rcases hfree with hnone | hcleared
      · exact absurd (.inl hnone) hheld
      · rw [hpending,hcond (hcl ?_)]
        simpa [Manager.alarmOf] using hcleared
    · simpa [Manager.alarmOf] using hoff
  · refine ht.frame (.inr ?_)
    simp [Manager.alarmOf,AList.lookup_insert_ne hcur]

theorem heard_other (h : ¬ (a.ctx = none ∧ o.ruleID = r)) :
    AlarmCall.heard r (.observe a o) = none := if_neg h

theorem heard_this (hctx : a.ctx = none) (h : o.ruleID = r) :
    AlarmCall.heard r (.observe a o) = some ⟨o.observedAt,o.active⟩ := if_pos ⟨hctx,h⟩

theorem heard_none (h : c.observes = none) : c.heard r = none := by
  cases c with
  | observe a o => cases h
  | registerRule _ _ | acknowledge _ _ | clear _ _ => rfl

theorem instant_of_dated (h : o.observedAt ≠ 0) : o.instant a = o.observedAt := if_neg h

/-- An observation of the rule itself: it is accepted exactly if it is later than all heard before,
and then advances the timers. -/
theorem observe_this (h : m.Linked) (he : Equipped m (.observe a o)) (hctx : a.ctx = none)
    (hst : m.rules.lookup o.ruleID = some st) (ht : Timed m st (records heard)) :
    ((∀ x ∈ heard, x.time < o.observedAt) ∧ ∃ out,
      Advanced m o.ruleID st (records heard) o out ∧ (m.observe a o).2 = m.store o.ruleID out) ∨
    (¬ (∀ x ∈ heard, x.time < o.observedAt) ∧ (m.observe a o).2 = m) := by
  obtain ⟨hdate,⟨o',hs⟩,hnew⟩ := he
  have hm := observe_of_reaches ⟨hctx,hs,hst⟩
  obtain ⟨id,rfl⟩ := stamped_ok hs
  have hfresh : st.Fresh o.observedAt ↔ ∀ x ∈ heard, x.time < o.observedAt :=
    ht.fresh_iff.trans later_iff_newest.symm
  rw [instant_of_dated hdate] at hm
  by_cases hlater : ∀ x ∈ heard, x.time < o.observedAt
  · rw [if_pos (hfresh.mpr hlater)] at hm
    obtain ⟨hrule,htimed,hraises,hclears⟩ := apply_advanced
      (o := { o with correlationID := id }) h hst ht hdate hnew
    exact .inl ⟨hlater,_,⟨hrule,htimed,hraises,hclears⟩,congrArg Prod.snd hm⟩
  · rw [if_neg fun hf => hlater (hfresh.mp hf)] at hm
    exact .inr ⟨hlater,congrArg Prod.snd hm⟩

theorem observe_tracks (h : Tracks m rule heard) (he : Equipped m (.observe a o)) :
    Tracks (m.observe a o).2 rule ((AlarmCall.heard rule.id (.observe a o)).toList++heard) := by
  have hnext : (m.observe a o).2.Orderly := observe_orderly h.orderly a o he.unused
  obtain ⟨st,hst,hrule,ht⟩ := h.timed
  have hl := h.orderly.linked
  refine ⟨hnext,?_⟩
  by_cases hthis : a.ctx = none ∧ o.ruleID = rule.id
  · obtain ⟨hctx,hid⟩ := hthis
    rw [heard_this hctx hid]
    rw [← hid] at hst ⊢
    rcases observe_this hl he hctx hst ht with ⟨hlater,out,hadv,hm⟩ | ⟨hlate,hm⟩
    · refine ⟨out.state,?_,hadv.rule.trans hrule,?_⟩
      · rw [hm,store_rules,if_pos rfl]
      · rw [hm,Option.toList_some,List.singleton_append,records,if_pos hlater]
        exact hadv.timed
    · refine ⟨st,by rwa [hm],hrule,?_⟩
      rw [hm,Option.toList_some,List.singleton_append,records,if_neg hlate]
      exact ht
  · rw [heard_other hthis]
    rcases observe_outcomes m a o with ⟨_,err,hm⟩ | ⟨st',o',_,_,hm⟩ | ⟨st',o',out,hr,_,hout,hm⟩
    · exact ⟨st,by rwa [hm],hrule,by rwa [hm]⟩
    · exact ⟨st,by rwa [hm],hrule,by rwa [hm]⟩
    · have hne : rule.id ≠ o.ruleID := fun hsame => hthis ⟨hr.1,hsame.symm⟩
      have hfits : Fits m o.ruleID st' out :=
        applies_fits hl hr.2.2 he.unused (hout ▸ applyObservation_applies m a.alarmID _ o')
      rw [hm]
      refine ⟨st,?_,hrule,ht.frame (store_alarmOf_other hl hst hr.2.2 hfits hne)⟩
      rw [store_rules,if_neg hne]
      exact hst

theorem call_tracks (h : Tracks m rule heard) (he : Equipped m c) :
    Tracks (m.call c) rule ((c.heard rule.id).toList++heard) := by
  have hnext := call_orderly h.orderly c he.unused
  obtain ⟨st,hst,hrule,ht⟩ := h.timed
  rcases call_cases m c with ⟨a,o,rfl⟩ | ⟨hquiet,hcase⟩
  · exact observe_tracks h he
  · rw [heard_none hquiet]
    refine ⟨hnext,?_⟩
    rcases hcase with hm | ⟨_,rule',hnew,_,hm⟩ | ⟨id,a,_,_,_,ha,hm,hopen,hcl⟩
    · exact ⟨st,by rwa [hm],hrule,by rwa [hm]⟩
    · have hne : rule.id ≠ rule'.id := by
        intro hsame
        exact hnew (hsame ▸ Table.mem_of_lookup hst)
      rw [hm]
      exact ⟨st,(AList.lookup_insert_ne hne).trans hst,hrule,ht.frame (.inr rfl)⟩
    · rw [hm]
      exact ⟨st,hst,hrule,ht.replaced h.orderly.linked ha hopen fun hs => (hcl hs).1⟩

theorem run_tracks (h : Tracks m rule heard) {calls : List AlarmCall}
    (he : Guarded Manager.call Equipped m calls) :
    Tracks (run Manager.call m calls) rule (heardBy rule.id calls++heard) := by
  induction calls generalizing m heard with
  | nil => exact h
  | cons c calls ih =>
    have hlater := ih (call_tracks h he.1) he.2
    have hheard : heardBy rule.id (c::calls)++heard =
        heardBy rule.id calls++((c.heard rule.id).toList++heard) := by
      cases hc : c.heard rule.id <;> simp [heardBy,hc]
    rw [hheard]
    exact hlater

end Calls

/-- Since its registration a rule's alarm is raised by an active observation later than all heard
before exactly if none is live and the run of active ones it ends has lasted the debounce, and
cleared by an inactive one exactly if one is live that does not latch and the run of inactive ones
has lasted the hysteresis; any other observation changes nothing. -/
theorem raised_and_cleared_iff (limit : ℤ) {earlier calls : List AlarmCall} {rule : Rule}
    (hids : Guarded Manager.call Unused (newManager limit) earlier)
    (hnew : (run Manager.call (newManager limit) earlier).rules.lookup rule.id =
      some { rule := rule })
    (hwidth : rule.debounce ≤ maxDuration ∧ rule.hysteresis ≤ maxDuration)
    {a : Answer} {o : Observation} (hctx : a.ctx = none) (hrule : o.ruleID = rule.id)
    (hcalls : Guarded Manager.call Equipped (run Manager.call (newManager limit) earlier)
      (calls++[.observe a o])) :
    let m := run Manager.call (run Manager.call (newManager limit) earlier) calls
    let heard := heardBy rule.id calls
    let t := o.observedAt
    let later := ∀ x ∈ heard, x.time < t
    (¬ later → (m.observe a o).2 = m) ∧
    (later → o.active = true → (m.Raises (m.observe a o).2 rule.id ↔ ¬ m.Occupied rule.id ∧
      ∃ since, runStart true (⟨t,true⟩::records heard) = some since ∧ rule.debounce ≤ t-since)) ∧
    (later → o.active = false → (m.Clears (m.observe a o).2 rule.id ↔ m.Occupied rule.id ∧
      rule.latching = false ∧ ∃ since, runStart false (⟨t,false⟩::records heard) = some since ∧
        rule.hysteresis ≤ t-since)) := by
  intro m heard t later
  have hstart : Tracks (run Manager.call (newManager limit) earlier) rule [] :=
    ⟨run_orderly (newManager_orderly limit) hids,_,hnew,rfl,registered_timed _ _⟩
  have htracks : Tracks m rule heard := by
    simpa using run_tracks hstart hcalls.append_left
  have hlast : Equipped m (.observe a o) := hcalls.append_right.1
  obtain ⟨st,hst,hsame,ht⟩ := htracks.timed
  have hl := htracks.orderly.linked
  have hoccupied := occupied_iff hl hst
  have hlasted : ∀ on d, later → d ≤ maxDuration →
      (d ≤ sub t ((runStart on (records heard)).getD t) ↔
        ∃ since, runStart on (⟨t,on⟩::records heard) = some since ∧ d ≤ t-since) := by
    intro on d hlater hd
    have hle : (runStart on (records heard)).getD t ≤ t := by
      cases hs : runStart on (records heard) with
      | none => exact le_refl t
      | some since =>
        obtain ⟨x,hx,rfl⟩ := runStart_mem hs
        exact (hlater x (records_subset heard hx)).le
    have hsub := sub_lt_iff hle hd
    simp only [runStart_cons,if_true,Option.some.injEq,exists_eq_left']
    omega
  rw [← hrule] at hst ⊢
  rcases observe_this hl hlast hctx hst ht with ⟨hlater,out,hadv,hm⟩ | ⟨hlate,hm⟩
  · rw [hm]
    refine ⟨fun hlate => absurd hlater hlate,fun _ hon => ?_,fun _ hoff => ?_⟩
    · rw [hadv.raises hon,hsame,hrule,hoccupied,not_not,hlasted true _ hlater hwidth.1]
    · rw [hadv.clears hoff,hsame,hrule,hoccupied,hlasted false _ hlater hwidth.2]
  · exact ⟨fun _ => hm,fun hlater => absurd hlater hlate,fun hlater => absurd hlater hlate⟩

def slowLeakRule : Rule := { leakRule with debounce := 10 }

def slowLeakSeen : Manager :=
  run Manager.call (run Manager.call (newManager 16) [.registerRule none slowLeakRule])
    [leakSeen 1 true "early"]

theorem slow_leak_raised_after_debounce :
    slowLeakSeen.Raises (slowLeakSeen.call (leakSeen 11 true "first")) slowLeakRule.id ∧
      ¬ slowLeakSeen.Raises (slowLeakSeen.call (leakSeen 10 true "first")) slowLeakRule.id := by
  have hids : Guarded Manager.call Unused (newManager 16) [.registerRule none slowLeakRule] := by
    decide
  have hequipped : ∀ t, t ≠ 0 → Guarded Manager.call Equipped
      (run Manager.call (newManager 16) [.registerRule none slowLeakRule])
      ([leakSeen 1 true "early"]++[leakSeen t true "first"]) := by
    intro t ht
    exact ⟨⟨by decide,⟨_,rfl⟩,"early",rfl,by decide,by decide⟩,
      ⟨ht,⟨_,rfl⟩,"first",rfl,by decide,by decide⟩,trivial⟩
  have hfree : ¬ slowLeakSeen.Occupied slowLeakRule.id := by
    have hempty : slowLeakSeen.alarms.keys = [] := by decide
    rintro ⟨id,a,ha,_⟩
    have hmem : id ∈ slowLeakSeen.alarms.keys := Table.mem_of_lookup ha
    simp [hempty] at hmem
  constructor
  · refine ((raised_and_cleared_iff 16 hids (by decide) (by decide) rfl rfl
      (hequipped 11 (by decide))).2.1 (by decide) rfl).mpr ⟨hfree,1,?_,?_⟩
    · decide
    · decide
  · intro hraises
    obtain ⟨_,since,hsince,hlasted⟩ := ((raised_and_cleared_iff 16 hids (by decide)
      (by decide) rfl rfl (hequipped 10 (by decide))).2.1 (by decide) rfl).mp hraises
    have hone : runStart true (⟨10,true⟩::records (heardBy slowLeakRule.id
      [leakSeen 1 true "early"])) = some 1 := by decide
    obtain rfl : (1 : ℤ) = since := Option.mem_unique hone hsince
    exact absurd hlasted (by decide)

end Alarms
end AquaOS
