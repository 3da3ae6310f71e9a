import AquaOS.AlarmLife
import Mathlib.Data.List.DropRight

/-! An alarm record against its episode: the accepted observations of the rule from the one that
raised the alarm until it is cleared. The episodes are kept beside the engine; what the engine
folds into the record one observation at a time is the summary of the whole episode. -/
namespace AquaOS

open Domain Timeline Transition

namespace Alarms

/-- Evidence the engine keeps has a code or a message. -/
def Evidence.said (e : Evidence) : Bool := ¬ (e.code = "" ∧ e.message = "")

/-- The alarm whose episode an observation belongs to, if it is accepted: the live one of its rule
or the one it raises. -/
def Manager.episodeOf (m : Manager) (a : Answer) (o : Observation) :
    Option (AlarmID × Observation) :=
  match a.ctx, o.stamped a, m.rules.lookup o.ruleID with
  | none, .ok o', some st =>
    if ¬ st.Fresh o'.observedAt then none
    else if ¬ m.Free st then some (st.current,o')
    else if (m.observe a o).1.2.1 = .raised then some ((m.observe a o).1.1.id,o')
    else none
  | _, _, _ => none

/-- The engine with the episode of every alarm, oldest observation first. -/
structure Journal where
  engine : Manager
  episodes : Table AlarmID (List Observation)

def Journal.entered (j : Journal) : AlarmCall → Table AlarmID (List Observation)
  | .observe a o =>
    match j.engine.episodeOf a o with
    | some (id,o') => j.episodes.insert id ((j.episodes.lookup id).getD []++[o'])
    | none => j.episodes
  | _ => j.episodes

def Journal.call (j : Journal) (c : AlarmCall) : Journal := ⟨j.engine.call c,j.entered c⟩

def actives (episode : List Observation) : List Observation := episode.filter (·.active)

/-- The record says of the episode what it should. -/
structure Summarises (rule : Rule) (limit : ℕ) (episode : List Observation) (a : Alarm) : Prop where
  severity : a.severity ∈ rule.severity::(actives episode).map Observation.severity ∧
    ∀ s ∈ rule.severity::(actives episode).map Observation.severity, s.rank ≤ a.severity.rank
  occurrenceCount : a.occurrenceCount = (actives episode).length % 2^64
  order : a.firstObserved ≤ a.lastObserved
  lastObserved : episode.getLast?.map Observation.observedAt = some a.lastObserved ∧
    ∀ o ∈ episode, o.observedAt ≤ a.lastObserved
  evidence : a.evidence = ((episode.map Observation.evidence).filter Evidence.said).rtake limit

section Evidence

theorem rtake_append_rtake {A : Type} (l : List A) (v : A) (n : ℕ) :
    (l.rtake n++[v]).rtake n = (l++[v]).rtake n := by
  unfold List.rtake
  have hle : l.length-n ≤ l.length := Nat.sub_le _ _
  rw [← List.drop_append_of_le_length hle,List.drop_drop]
  congr 1
  simp only [List.length_drop,List.length_append,List.length_singleton]
  omega

theorem appendEvidence_rtake (l : List Evidence) (e : Evidence) (n : ℕ) :
    appendEvidence (l.rtake n) e n = (l++[e].filter Evidence.said).rtake n := by
  unfold appendEvidence
  split_ifs with hblank
  · simp [Evidence.said,hblank]
  · have hsaid : e.said = true := decide_eq_true hblank
    rw [List.filter_cons_of_pos hsaid,List.filter_nil,← rtake_append_rtake]
    rfl

end Evidence

section Summary

variable {rule : Rule} {limit : ℕ} {episode : List Observation} {a : Alarm} {o : Observation}

theorem higher_mem_le (s s' : Severity) (severities : List Severity)
    (h : s ∈ severities ∧ ∀ x ∈ severities, x.rank ≤ s.rank) :
    (if s.rank < s'.rank then s' else s) ∈ severities++[s'] ∧
      ∀ x ∈ severities++[s'], x.rank ≤ (if s.rank < s'.rank then s' else s).rank := by
  simp only [List.mem_append,List.mem_singleton]
  split_ifs with hlt
  · refine ⟨.inr rfl,?_⟩
    rintro x (hx | rfl)
    · exact (h.2 x hx).trans hlt.le
    · exact le_refl _
  · refine ⟨.inl h.1,?_⟩
    rintro x (hx | rfl)
    · exact h.2 x hx
    · omega

theorem summarises_raised {id : AlarmID} {since : ℤ} (hactive : o.active = true)
    (hsince : since ≤ o.observedAt) : Summarises rule limit [o] (rule.alarm o id since limit) where
  severity := by
    simpa [actives,hactive,Rule.alarm] using
      higher_mem_le rule.severity o.severity [rule.severity] (by simp)
  occurrenceCount := by simp [actives,hactive,Rule.alarm]
  order := hsince
  lastObserved := by simp [Rule.alarm]
  evidence := by
    have hfirst := appendEvidence_rtake [] o.evidence limit
    simpa [Rule.alarm,List.rtake] using hfirst

theorem Summarises.last (h : Summarises rule limit episode a)
    (hlater : a.lastObserved ≤ o.observedAt) :
    (episode++[o]).getLast?.map Observation.observedAt = some o.observedAt ∧
      ∀ x ∈ episode++[o], x.observedAt ≤ o.observedAt := by
  refine ⟨by simp,fun x hx => ?_⟩
  rcases List.mem_append.mp hx with hold | hnew
  · exact (h.lastObserved.2 x hold).trans hlater
  · rw [List.mem_singleton.mp hnew]

theorem Summarises.appended (h : Summarises rule limit episode a) :
    appendEvidence a.evidence o.evidence limit =
      (((episode++[o]).map Observation.evidence).filter Evidence.said).rtake limit := by
  rw [h.evidence,appendEvidence_rtake,List.map_append,List.filter_append]
  rfl

theorem Summarises.repeated (h : Summarises rule limit episode a) (hactive : o.active = true)
    (hlater : a.lastObserved ≤ o.observedAt) : Summarises rule limit (episode++[o])
      { a.observed o limit with
        occurrenceCount := (a.occurrenceCount+1) % 2^64
        severity := if a.severity.rank < o.severity.rank then o.severity else a.severity } where
  severity := by
    simpa [actives,hactive] using higher_mem_le a.severity o.severity _ h.severity
  occurrenceCount := by simp [h.occurrenceCount,actives,hactive]
  order := h.order.trans hlater
  lastObserved := h.last hlater
  evidence := h.appended

theorem Summarises.recovering (h : Summarises rule limit episode a) (hactive : o.active = false)
    (hlater : a.lastObserved ≤ o.observedAt) :
    Summarises rule limit (episode++[o]) (a.observed o limit) where
  severity := by simpa [actives,hactive,Alarm.observed] using h.severity
  occurrenceCount := by simpa [actives,hactive,Alarm.observed] using h.occurrenceCount
  order := h.order.trans hlater
  lastObserved := h.last hlater
  evidence := h.appended

theorem Summarises.replaced (h : Summarises rule limit episode a) (status : Status)
    (acknowledgedAt clearedAt : Option ℤ) : Summarises rule limit episode
      { a with status := status, acknowledgedAt := acknowledgedAt, clearedAt := clearedAt } :=
  ⟨h.severity,h.occurrenceCount,h.order,h.lastObserved,h.evidence⟩

end Summary

def Alarm.Current (a : Alarm) (st : RuleState) : Prop :=
  a.status ≠ .cleared → st.lastObservation ≠ 0 ∧ a.lastObserved ≤ st.lastObservation

/-- Every record has an episode, which it summarises. -/
structure Journal.Kept (j : Journal) : Prop where
  consistent : j.engine.Consistent
  records : ∀ id a, j.engine.alarms.lookup id = some a → ∃ episode st,
    j.episodes.lookup id = some episode ∧ j.engine.rules.lookup a.ruleID = some st ∧
    Summarises st.rule j.engine.evidenceLimit episode a ∧ a.Current st
  known : ∀ id, id ∈ j.episodes → id ∈ j.engine.alarms

theorem newJournal_kept (limit : ℤ) : Journal.Kept ⟨newManager limit,∅⟩ :=
  ⟨newManager_consistent limit,fun id a ha => by simp [newManager] at ha,fun id hid => by simp at hid⟩

section Apply

variable {m : Manager} {episodes : Table AlarmID (List Observation)} {r : RuleID} {st : RuleState}
  {out : Outcome}

/-- What an accepted observation has to leave for the journal to stay in order. -/
structure Entered (m : Manager) (episodes episodes' : Table AlarmID (List Observation)) (r : RuleID)
    (st : RuleState) (out : Outcome) : Prop where
  rule : out.state.rule = st.rule
  alone : out.alarm.id = st.current ∨ m.Free st
  written : out.alarm.id ≠ "" → out.alarm.ruleID = r ∧ ∃ episode,
    episodes'.lookup out.alarm.id = some episode ∧
    Summarises st.rule m.evidenceLimit episode out.alarm ∧ out.alarm.Current out.state
  others : ∀ id, id ≠ out.alarm.id ∨ out.alarm.id = "" → episodes'.lookup id = episodes.lookup id

theorem store_kept (h : Journal.Kept ⟨m,episodes⟩) (hst : m.rules.lookup r = some st)
    {episodes' : Table AlarmID (List Observation)} (he : Entered m episodes episodes' r st out)
    (hnext : (m.store r out).Consistent) : Journal.Kept ⟨m.store r out,episodes'⟩ := by
  have hl := h.consistent.linked
  refine ⟨hnext,fun id a ha => ?_,fun id hid => ?_⟩
  · rw [store_alarms] at ha
    dsimp only at ha ⊢
    split_ifs at ha with hw
    · obtain rfl := Option.some.inj ha
      obtain ⟨hr,episode,hep,hsum,hcur⟩ := he.written hw.1
      refine ⟨episode,out.state,hw.2 ▸ hep,?_,he.rule ▸ hsum,hcur⟩
      rw [store_rules,if_pos hr]
    · obtain ⟨episode,st',hep,hst',hsum,hcur⟩ := h.records id a ha
      have hkept : episodes'.lookup id = some episode := by
        rw [he.others id (by tauto)]
        exact hep
      by_cases hr : a.ruleID = r
      · obtain rfl := Option.mem_unique hst (hr ▸ hst')
        refine ⟨episode,out.state,hkept,by rw [store_rules,if_pos hr],he.rule ▸ hsum,fun hopen => ?_⟩
        exfalso
        obtain ⟨st'',hst'',hid⟩ := hl.sole id a ha hopen
        obtain rfl := Option.mem_unique hst (hr ▸ hst'')
        rcases he.alone with hsame | hfree
        · refine hw ⟨?_,hid.symm.trans hsame.symm⟩
          rw [hsame,hid]
          exact (hl.alarm id a ha).2
        · exact free_not_current hl hfree ha hopen hid
      · exact ⟨episode,st',hkept,by rwa [store_rules,if_neg hr],hsum,hcur⟩
  · have hmem : id ∈ m.alarms ∨ (out.alarm.id ≠ "" ∧ id = out.alarm.id) := by
      by_contra hno
      push Not at hno
      have hsame : episodes'.lookup id = episodes.lookup id := he.others id (by tauto)
      refine hno.1 (h.known id (AList.lookup_isSome.mp ?_))
      rw [← hsame]
      exact AList.lookup_isSome.mpr hid
    refine AList.lookup_isSome.mp ?_
    dsimp only
    rw [store_alarms]
    split_ifs with hw
    · rfl
    · exact AList.lookup_isSome.mpr (hmem.resolve_right hw)

variable {o : Observation} {id : AlarmID}

theorem entered_idle (h : Journal.Kept ⟨m,episodes⟩) (hst : m.rules.lookup r = some st)
    (hfree : m.Free st) (hrule : out.state.rule = st.rule)
    (halarm : out.alarm = .zero ∨ (out.alarm = m.alarmOf st.current ∧ out.alarm.status = .cleared)) :
    Entered m episodes episodes r st out := by
  refine ⟨hrule,.inr hfree,fun hid => ?_,fun _ _ => rfl⟩
  rcases halarm with hzero | ⟨hsame,hcl⟩
  · rw [hzero] at hid
    exact absurd rfl hid
  · have hne : st.current ≠ "" := by
      intro hnone
      rw [hsame,hnone,alarmOf_empty h.consistent.linked] at hid
      exact hid rfl
    obtain ⟨a,ha,hr⟩ := h.consistent.current r st hst hne
    obtain ⟨episode,st',hep,hst',hsum,_⟩ := h.records _ a ha
    rw [hr] at hst'
    obtain rfl := Option.mem_unique hst hst'
    rw [hsame,alarmOf_eq ha] at hcl ⊢
    refine ⟨hr,episode,?_,hsum,fun hopen => absurd hcl hopen⟩
    rw [(h.consistent.alarm _ a ha).1]
    exact hep

theorem entered_raised (h : Journal.Kept ⟨m,episodes⟩) (hst : m.rules.lookup r = some st)
    (hfree : m.Free st) (hactive : o.active = true) (hdate : o.observedAt ≠ 0) {since : ℤ}
    (hsince : since ≤ o.observedAt) (hne : id ≠ "") (hnew : id ∉ m.alarms) :
    Entered m episodes (episodes.insert id ((episodes.lookup id).getD []++[o])) r st
      ⟨{ st with
        lastObservation := o.observedAt, pendingClear := none, pendingActive := none, current := id },
        st.rule.alarm o id since m.evidenceLimit,.raised,none⟩ := by
  have hnone : episodes.lookup id = none := AList.lookup_eq_none.mpr fun hid => hnew (h.known id hid)
  refine ⟨rfl,.inr hfree,fun _ => ⟨h.consistent.rule r st hst,[o],?_,
    summarises_raised hactive hsince,fun _ => ⟨hdate,le_refl _⟩⟩,fun id' hid => ?_⟩
  · rw [hnone]
    exact AList.lookup_insert _
  · rcases hid with hother | hempty
    · exact AList.lookup_insert_ne hother
    · exact absurd hempty hne

theorem entered_live (h : Journal.Kept ⟨m,episodes⟩) (hst : m.rules.lookup r = some st)
    (hheld : ¬ m.Free st) (hdate : o.observedAt ≠ 0)
    (hrule : out.state.rule = st.rule) (hid : out.alarm.id = (m.alarmOf st.current).id)
    (howner : out.alarm.ruleID = (m.alarmOf st.current).ruleID)
    (htime : out.alarm.lastObserved = o.observedAt) (hlast : out.state.lastObservation = o.observedAt)
    (hsum : ∀ episode, Summarises st.rule m.evidenceLimit episode (m.alarmOf st.current) →
      (m.alarmOf st.current).lastObserved ≤ st.lastObservation → st.lastObservation ≠ 0 →
      Summarises st.rule m.evidenceLimit (episode++[o]) out.alarm) :
    Entered m episodes
      (episodes.insert st.current ((episodes.lookup st.current).getD []++[o])) r st out := by
  obtain ⟨hne,hown,_,hopen⟩ := held_mem h.consistent.linked hst hheld
  obtain ⟨a,ha,hr⟩ := h.consistent.current r st hst hne
  obtain ⟨episode,st',hep,hst',hold,hcur⟩ := h.records _ a ha
  rw [hr] at hst'
  obtain rfl := Option.mem_unique hst hst'
  rw [alarmOf_eq ha] at hid howner hown hopen hsum
  rw [hown] at hid
  obtain ⟨hzero,hle⟩ := hcur hopen
  refine ⟨hrule,.inl hid,fun _ => ⟨howner.trans hr,episode++[o],?_,hsum episode hold hle hzero,
    fun _ => ?_⟩,fun id' hother => ?_⟩
  · rw [hid,show episodes.lookup st.current = some episode from hep]
    exact AList.lookup_insert _
  · rw [hlast,htime]
    exact ⟨hdate,le_refl _⟩
  · rcases hother with hother | hempty
    · exact AList.lookup_insert_ne (hid ▸ hother)
    · exact absurd (hid.symm.trans hempty) hne

end Apply

section Calls

variable {m : Manager} {episodes : Table AlarmID (List Observation)} {a : Answer}
  {o o' : Observation} {st : RuleState} {j : Journal} {c : AlarmCall} {b : Alarm}

theorem episodeOf_of_reaches (h : Reaches m a o st o') :
    m.episodeOf a o = if ¬ st.Fresh o'.observedAt then none
      else if ¬ m.Free st then some (st.current,o')
      else if (m.observe a o).1.2.1 = .raised then some ((m.observe a o).1.1.id,o') else none := by
  simp only [Manager.episodeOf,h.1,h.2.1,h.2.2]

theorem episodeOf_unreached (h : ¬ ∃ st o', Reaches m a o st o') : m.episodeOf a o = none := by
  unfold Manager.episodeOf
  split
  · next o' st hctx hs hst => exact absurd ⟨st,o',hctx,hs,hst⟩ h
  · rfl

/-- The episodes after an observation, by whether it raises an alarm, adds to a live one or
neither. -/
theorem observe_entered (h : Journal.Kept ⟨m,episodes⟩) (hr : Reaches m a o st o')
    (hs : Supplied m (.observe a o)) (hfresh : st.Fresh o'.observedAt) :
    Entered m episodes (Journal.entered ⟨m,episodes⟩ (.observe a o)) o.ruleID st
      (m.applyObservation a.alarmID { st with lastObservation := o'.observedAt } o') := by
  have hst := hr.2.2
  have hdate : o'.observedAt ≠ 0 := by
    obtain ⟨id,rfl⟩ := stamped_ok hr.2.1
    exact instant_ne_zero hs.1 o
  have hof := episodeOf_of_reaches hr
  rw [if_neg (not_not.mpr hfresh),observe_of_reaches hr,if_pos hfresh] at hof
  have hlater : st.lastObservation ≠ 0 → st.lastObservation ≤ o'.observedAt :=
    fun hne => (hfresh.resolve_left hne).le
  unfold Journal.entered
  dsimp only at hof ⊢
  rw [hof]
  rcases apply_cases m a.alarmID { st with lastObservation := o'.observedAt } o' with
    ⟨_,hfree,alarm,halarm,hout⟩ | ⟨hon,hfree,hout⟩ | ⟨hon,hheld,hout⟩ | ⟨hoff,hheld,hout⟩
  · rw [if_neg (not_not.mpr (show m.Free st from hfree)),hout]
    exact entered_idle h hst hfree rfl halarm
  · have hsince := pending_since h.consistent hst hfresh
    rw [if_neg (not_not.mpr (show m.Free st from hfree)),hout]
    rcases raise_cases m a.alarmID { st with lastObservation := o'.observedAt } o' with
      ⟨_,hraise⟩ | ⟨_,err,_,hraise⟩ | ⟨_,id,hid,hraise⟩ <;> rw [hraise]
    · exact entered_idle h hst hfree rfl (.inl rfl)
    · exact entered_idle h hst hfree rfl (.inl rfl)
    · obtain ⟨hne,hnew⟩ := hs.2 id hid
      exact entered_raised h hst hfree hon hdate hsince hne hnew
  · rw [if_pos (show ¬ m.Free st from hheld),hout,repeated_eq]
    exact entered_live h hst hheld hdate rfl rfl rfl rfl rfl fun episode hold hle hne =>
      hold.repeated hon (hle.trans (hlater hne))
  · rw [if_pos (show ¬ m.Free st from hheld),hout]
    rcases recover_cases m { st with lastObservation := o'.observedAt } o' with
      ⟨_,hrecover⟩ | ⟨_,_,hrecover⟩ <;> rw [hrecover]
    · exact entered_live h hst hheld hdate rfl rfl rfl rfl rfl fun episode hold hle hne =>
        hold.recovering hoff (hle.trans (hlater hne))
    · exact entered_live h hst hheld hdate rfl rfl rfl rfl rfl fun episode hold hle hne =>
        (hold.recovering hoff (hle.trans (hlater hne))).replaced _ _ _

theorem observe_kept (h : Journal.Kept ⟨m,episodes⟩) (hs : Supplied m (.observe a o)) :
    Journal.Kept (Journal.call ⟨m,episodes⟩ (.observe a o)) := by
  have hnext := observe_consistent h.consistent a o hs
  unfold Journal.call Manager.call
  dsimp only
  rcases observe_outcomes m a o with ⟨hreach,err,hm⟩ | ⟨st,o',hr,hstale,hm⟩ |
    ⟨st,o',out,hr,hfresh,hout,hm⟩
  · rw [hm,Journal.entered,episodeOf_unreached hreach]
    exact h
  · rw [hm,Journal.entered,episodeOf_of_reaches hr,if_pos hstale]
    exact h
  · rw [hm] at hnext ⊢
    exact store_kept h hr.2.2 (hout ▸ observe_entered h hr hs hfresh) hnext

theorem entered_none (h : c.observes = none) : j.entered c = j.episodes := by
  cases c with
  | observe a o => cases h
  | registerRule _ _ | acknowledge _ _ | clear _ _ => rfl

theorem call_kept (h : j.Kept) (c : AlarmCall) (hs : Supplied j.engine c) : (j.call c).Kept := by
  obtain ⟨m,episodes⟩ := j
  have hnext := call_consistent h.consistent c hs
  rcases call_cases m c with ⟨a,o,rfl⟩ | ⟨hquiet,hcase⟩
  · exact observe_kept h hs
  · unfold Journal.call
    dsimp only at hnext ⊢
    rw [entered_none hquiet]
    rcases hcase with hm | ⟨_,rule,hnew,_,hm⟩ | ⟨id,a,_,_,_,ha,hm,hopen,_⟩ <;> rw [hm] at hnext ⊢
    · exact h
    · refine ⟨hnext,fun id a ha => ?_,h.known⟩
      obtain ⟨episode,st,hep,hst,hsum,hcur⟩ := h.records id a ha
      refine ⟨episode,st,hep,?_,hsum,hcur⟩
      dsimp only
      rw [AList.lookup_insert_ne,hst]
      rintro hsame
      exact hnew (hsame ▸ Table.mem_of_lookup hst)
    · refine ⟨hnext,Table.forall_insert ?_ h.records,
        fun id' hid => (AList.mem_insert _).mpr (.inr (h.known id' hid))⟩
      obtain ⟨episode,st,hep,hst,hsum,hcur⟩ := h.records id a ha
      exact ⟨episode,st,hep,hst,hsum.replaced _ _ _,fun _ => hcur hopen⟩

/-- An accepted observation does not lower the severity of the alarm it writes over. -/
theorem apply_severity (h : m.Linked) {r : RuleID} (hst : m.rules.lookup r = some st)
    {newID : Except Failure AlarmID} (hnew : ∀ id, newID = .ok id → id ∉ m.alarms) {t : ℤ}
    {out : Outcome} (hout : m.applyObservation newID { st with lastObservation := t } o = out)
    (hne : out.alarm.id ≠ "") (hb : m.alarms.lookup out.alarm.id = some b) :
    b.severity.rank ≤ out.alarm.severity.rank := by
  have hfits : Fits m r st out :=
    applies_fits h hst hnew (hout ▸ applyObservation_applies m newID _ o)
  have hcur : m.alarmOf st.current = b := by
    rw [← (fits_owner h hst hfits hne hb).2]
    exact alarmOf_eq hb
  subst hout
  rcases apply_cases m newID { st with lastObservation := t } o with
    ⟨_,_,alarm,hzero | ⟨hpast,_⟩,hout⟩ | ⟨_,_,hout⟩ | ⟨_,_,hout⟩ | ⟨_,_,hout⟩
  · rw [hout,hzero] at hne
    exact absurd rfl hne
  · rw [hout,hpast,hcur]
  · rw [hout] at hne hb ⊢
    rcases raise_cases m newID { st with lastObservation := t } o with
      ⟨_,hraise⟩ | ⟨_,err,_,hraise⟩ | ⟨_,id,hid,hraise⟩
    · rw [hraise] at hne
      exact absurd rfl hne
    · rw [hraise] at hne
      exact absurd rfl hne
    · rw [hraise] at hb
      exact absurd (Table.mem_of_lookup hb) (hnew id hid)
  · rw [hout,repeated_eq]
    dsimp only
    rw [hcur]
    split_ifs with hlt
    · exact hlt.le
    · exact le_refl _
  · rw [hout,← hcur]
    rcases recover_cases m { st with lastObservation := t } o with
      ⟨_,hrecover⟩ | ⟨_,_,hrecover⟩ <;> rw [hrecover]
    · exact le_refl _
    · exact le_refl _

theorem call_severity (h : m.Linked) (c : AlarmCall) (hu : Unused m c) {id : AlarmID}
    (hb : m.alarms.lookup id = some b) :
    ∃ b', (m.call c).alarms.lookup id = some b' ∧ b.severity.rank ≤ b'.severity.rank := by
  rcases call_cases m c with ⟨a,o,rfl⟩ | ⟨_,hm | ⟨_,rule,_,_,hm⟩ | ⟨id',a,_,_,_,ha,hm,_,_⟩⟩
  · unfold Manager.call
    dsimp only
    rcases observe_outcomes m a o with ⟨_,err,hm⟩ | ⟨st,o',_,_,hm⟩ | ⟨st,o',out,hr,_,hout,hm⟩
    · exact ⟨b,by rwa [hm],le_refl _⟩
    · exact ⟨b,by rwa [hm],le_refl _⟩
    · rw [hm]
      dsimp only
      rw [store_alarms]
      split_ifs with hw
      · exact ⟨_,rfl,apply_severity h hr.2.2 hu hout hw.1 (hw.2 ▸ hb)⟩
      · exact ⟨b,hb,le_refl _⟩
  · exact ⟨b,by rwa [hm],le_refl _⟩
  · exact ⟨b,by rwa [hm],le_refl _⟩
  · rw [hm]
    by_cases hid : id = id'
    · subst hid
      obtain rfl := Option.mem_unique ha hb
      exact ⟨_,AList.lookup_insert _,le_refl _⟩
    · exact ⟨b,(AList.lookup_insert_ne hid).trans hb,le_refl _⟩

theorem Supplied.unused (h : Supplied m c) : Unused m c := by
  cases c with
  | observe a o => exact fun id hid => (h.2 id hid).2
  | registerRule _ _ | acknowledge _ _ | clear _ _ => trivial

end Calls

theorem journal_engine (j : Journal) (calls : List AlarmCall) :
    (run Journal.call j calls).engine = run Manager.call j.engine calls :=
  (List.foldl_hom Journal.engine fun _ _ => rfl).symm

theorem run_kept {j : Journal} (h : j.Kept) {calls : List AlarmCall}
    (hs : Guarded Manager.call Supplied j.engine calls) : (run Journal.call j calls).Kept := by
  induction calls generalizing j with
  | nil => exact h
  | cons c calls ih => exact ih (call_kept h c hs.1) hs.2

/-- After any calls every alarm's record summarises its episode, and no further call lowers its
severity. -/
theorem record_summarises_episode (limit : ℤ) {calls : List AlarmCall}
    (hs : Guarded Manager.call Supplied (newManager limit) calls) :
    let j := run Journal.call ⟨newManager limit,∅⟩ calls
    j.engine = run Manager.call (newManager limit) calls ∧
    (∀ id a, j.engine.alarms.lookup id = some a → ∃ episode st,
      j.episodes.lookup id = some episode ∧ j.engine.rules.lookup a.ruleID = some st ∧
      Summarises st.rule j.engine.evidenceLimit episode a) ∧
    ∀ c, Supplied j.engine c → ∀ id a, j.engine.alarms.lookup id = some a →
      ∃ a', (j.engine.call c).alarms.lookup id = some a' ∧ a.severity.rank ≤ a'.severity.rank := by
  intro j
  have hkept : j.Kept := run_kept (newJournal_kept limit) hs
  refine ⟨journal_engine _ calls,fun id a ha => ?_,fun c hc id a ha => ?_⟩
  · obtain ⟨episode,st,hep,hst,hsum,_⟩ := hkept.records id a ha
    exact ⟨episode,st,hep,hst,hsum⟩
  · exact call_severity hkept.consistent.linked c hc.unused ha

/-- After the leak is seen, gone and seen again its second alarm counts one occurrence. -/
theorem second_leak_counts_once :
    ((run Manager.call (newManager 16) (leakEpisode++[leakSeen 3 true "second"])).alarms.lookup
        "second").map Alarm.occurrenceCount = some 1 ∧
      ∃ episode, (run Journal.call ⟨newManager 16,∅⟩
        (leakEpisode++[leakSeen 3 true "second"])).episodes.lookup "second" = some episode ∧
        (actives episode).length % 2^64 = 1 := by
  have hcount : ((run Manager.call (newManager 16) (leakEpisode++[leakSeen 3 true
      "second"])).alarms.lookup "second").map Alarm.occurrenceCount = some 1 := by decide +kernel
  obtain ⟨hengine,hrecords,_⟩ := record_summarises_episode 16 (by decide +kernel :
    Guarded Manager.call Supplied (newManager 16) (leakEpisode++[leakSeen 3 true "second"]))
  obtain ⟨a,ha,hone⟩ := Option.map_eq_some_iff.mp hcount
  obtain ⟨episode,st,hep,_,hsum⟩ := hrecords "second" a (by rw [hengine]; exact ha)
  exact ⟨hcount,episode,hep,hsum.occurrenceCount.symm.trans hone⟩

end Alarms
end AquaOS
