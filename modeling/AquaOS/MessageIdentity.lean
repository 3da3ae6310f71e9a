import AquaOS.AlarmLife
import AquaOS.CommandRouter
import AquaOS.StateEvents

/-! The message IDs of exported events. A message is named by the correlation ID of its event: a
state event has it from the context of its `Set`, an alarm event from the last observation recorded
on the alarm, whatever events have had it before. -/
namespace AquaOS

open Domain CanonicalState Events Transition

namespace Alarms

/-- The transition a call emits. An observation that fails has none, and the error of the emission
itself is set aside. -/
def Manager.emits (m : Manager) : AlarmCall → Option (Transition × Alarm)
  | .registerRule _ _ => none
  | .observe a o =>
    let (alarm,transition,_) := (m.observe a o).1
    if transition.silent ∨ transition = .ignoredStale then none else some (transition,alarm)
  | .acknowledge a id =>
    match (m.acknowledge { a with emitted := none } id).1 with
    | (alarm,none) => some (.acknowledged,alarm)
    | (_,some _) => none
  | .clear a id =>
    match (m.clear { a with emitted := none } id).1 with
    | (alarm,none) => some (.cleared,alarm)
    | (_,some _) => none

def Manager.correlation (m : Manager) (id : AlarmID) : Option CorrelationID :=
  (m.alarms.lookup id).map Alarm.correlationID

def Manager.Records (m : Manager) (a : Answer) (o o' : Observation) : Prop :=
  (m.observe a o).1.2.1 ≠ .ignoredStale ∧ (m.observe a o).1.1.correlationID = o'.correlationID

instance (m : Manager) (a : Answer) (o o' : Observation) : Decidable (m.Records a o o') :=
  inferInstanceAs (Decidable (_ ∧ _))

section Correlations

variable {m : Manager}

/-- An applied observation gives its correlation ID to the alarm, or changes none and is silent. -/
theorem apply_correlation (m : Manager) (newID : Except Failure AlarmID) (st : RuleState)
    (o : Observation) : let out := m.applyObservation newID st o
    out.transition ≠ .ignoredStale ∧ (out.alarm.correlationID = o.correlationID ∨
      out.transition.silent = true ∧ (out.alarm = .zero ∨ out.alarm = m.alarmOf st.current)) := by
  intro out
  rcases apply_cases m newID st o with ⟨_,_,alarm,halarm,hout⟩ | ⟨_,_,hout⟩ | ⟨_,_,hout⟩ | ⟨_,_,hout⟩ <;>
    rw [show out = _ from hout]
  · exact ⟨by simp,.inr ⟨rfl,halarm.imp_right And.left⟩⟩
  · rcases raise_cases m newID st o with ⟨_,hraise⟩ | ⟨_,err,_,hraise⟩ | ⟨_,id,_,hraise⟩ <;>
      rw [hraise]
    · exact ⟨by simp,.inr ⟨rfl,.inl rfl⟩⟩
    · exact ⟨by simp,.inr ⟨rfl,.inl rfl⟩⟩
    · exact ⟨by simp,.inl rfl⟩
  · rw [repeated_eq]
    dsimp only
    split_ifs
    · exact ⟨by simp,.inl rfl⟩
    · exact ⟨by simp,.inl rfl⟩
  · rcases recover_cases m st o with ⟨_,hrecover⟩ | ⟨_,_,hrecover⟩ <;> rw [hrecover]
    · exact ⟨by simp,.inl rfl⟩
    · exact ⟨by simp,.inl rfl⟩

theorem store_correlation_same (h : m.Keyed) {r : RuleID} {out : Outcome} {current : AlarmID}
    (hout : out.alarm = .zero ∨ out.alarm = m.alarmOf current) (id : AlarmID) :
    (m.store r out).correlation id = m.correlation id := by
  unfold Manager.correlation
  rw [store_alarms]
  split_ifs with hwritten
  · rcases hout with hzero | hcurrent
    · exact absurd (congrArg Alarm.id hzero) hwritten.1
    · obtain ⟨hlook,hkey⟩ := alarmOf_keyed h (hcurrent ▸ hwritten.1)
      rw [hwritten.2,hcurrent,hkey,hlook]
  · rfl

/-- All an observation can do to correlation IDs: nothing, without a transition to emit, or write
its own on the alarm it returns. -/
theorem observe_correlations (h : m.Keyed) (a : Answer) (o : Observation) :
    ((∀ id, (m.observe a o).2.correlation id = m.correlation id) ∧
      m.emits (.observe a o) = none) ∨
    ∃ o', o.stamped a = .ok o' ∧ m.Records a o o' ∧
      (∀ id, (m.observe a o).2.correlation id =
        if (m.observe a o).1.1.id ≠ "" ∧ id = (m.observe a o).1.1.id then some o'.correlationID
        else m.correlation id) ∧
      ∀ x ∈ m.emits (.observe a o), x.2 = (m.observe a o).1.1 := by
  have hemits : ∀ x ∈ m.emits (.observe a o), x.2 = (m.observe a o).1.1 := by
    intro x hx
    simp only [Manager.emits] at hx
    split_ifs at hx
    · cases hx
    · obtain rfl := Option.some.inj hx
      rfl
  rcases observe_outcomes m a o with ⟨_,err,hm⟩ | ⟨st,o',_,_,hm⟩ | ⟨st,o',out,hr,_,hout,hm⟩
  · exact .inl ⟨fun id => by rw [hm],by simp [Manager.emits,hm,Transition.silent]⟩
  · exact .inl ⟨fun id => by rw [hm],by simp [Manager.emits,hm]⟩
  · obtain ⟨hstale,hwritten⟩ := apply_correlation m a.alarmID
      { st with lastObservation := o'.observedAt } o'
    rw [hout] at hstale hwritten
    rcases hwritten with hown | ⟨hsilent,hsame⟩
    · refine .inr ⟨o',hr.2.1,⟨by rwa [hm],by rwa [hm]⟩,fun id => ?_,hemits⟩
      rw [hm]
      unfold Manager.correlation
      dsimp only
      rw [store_alarms,apply_ite (Option.map Alarm.correlationID),Option.map_some,hown]
    · refine .inl ⟨fun id => ?_,by simp [Manager.emits,hm,hsilent]⟩
      rw [hm]
      exact store_correlation_same h hsame id

/-- A call of an operator keeps every correlation ID, and what it emits has the one of its alarm. -/
theorem operator_correlations (h : m.Keyed) {c : AlarmCall} {a : Answer} {id : AlarmID}
    (hc : c = .acknowledge a id ∨ c = .clear a id) :
    (∀ id', (m.call c).correlation id' = m.correlation id') ∧
      ∀ x ∈ m.emits c, x.2.id = id ∧ m.correlation id = some x.2.correlationID := by
  constructor
  · intro id'
    rcases operator_cases m c (hc.imp (fun h => ⟨a,id,h⟩) fun h => ⟨a,id,h⟩) with
      hm | ⟨key,b,_,_,_,hb,hm,_⟩
    · rw [hm]
    · rw [hm]
      unfold Manager.correlation
      dsimp only
      rw [Table.lookup_insert_ite]
      split_ifs with hkey
      · rw [hkey,hb]
        rfl
      · rfl
  · intro x hx
    unfold Manager.correlation
    cases hctx : a.ctx with
    | some err =>
      rcases hc with rfl | rfl <;>
        simp [Manager.emits,Manager.acknowledge,Manager.clear,hctx] at hx
    | none =>
      cases hb : m.alarms.lookup id with
      | none =>
        rcases hc with rfl | rfl <;>
          simp [Manager.emits,Manager.acknowledge,Manager.clear,hctx,hb] at hx
      | some b =>
        have hid := (h.alarms id b hb).1
        rcases hc with rfl | rfl
        · simp only [Manager.emits,Manager.acknowledge,hctx,hb] at hx
          split_ifs at hx
          · exact Option.some.inj hx ▸ ⟨hid,rfl⟩
          · cases hx
        · simp only [Manager.emits,Manager.clear,hctx,hb] at hx
          split_ifs at hx
          · cases hx
          · cases hx
          · exact Option.some.inj hx ▸ ⟨hid,rfl⟩

end Correlations

end Alarms

namespace Mqtt

open Alarms (Alarm AlarmCall newManager)

inductive Announcement
  | state (value : StateValue)
  | alarm (transition : Alarms.Transition) (alarm : Alarm)

/-- An event that the exporter has given to the transport. -/
structure Exported where
  event : Events.Event Data
  publication : Publication

def Exported.messageID (x : Exported) : String := x.event.correlationID

namespace Announcement

def event (outlet : Outlet) : Announcement → Except Failure (Events.Event Data)
  | .state value =>
    outlet.factory.new outlet.encoded "state" .stateChanged .info (.state value) outlet.correlationID
  | .alarm transition a =>
    outlet.factory.new outlet.encoded "alarms" transition.eventType a.severity (.alarm a)
      a.correlationID

def exported (e : EventExporter) (json : Json Data) (outlet : Outlet) (a : Announcement) :
    Option Exported :=
  match a.event outlet with
  | .error _ => none
  | .ok event =>
    if outlet.refused.isSome then none else (e.handle json event).map fun x => ⟨event,x⟩

end Announcement

/-- The store and the alarm engine, the calls on them that have yet to publish, and the events
exported so far, both newest first. -/
structure Producers where
  store : StateManager := {}
  engine : Alarms.Manager
  pending : List Announcement := []
  exported : List Exported := []

inductive ProducerStep
  | set (ctx : Option Failure) (value : StateValue)
  | delete (ctx : Option Failure) (key : Key)
  | engine (c : AlarmCall)
  | publish (n : ℕ) (outlet : Outlet)

namespace Producers

def publish (e : EventExporter) (json : Json Data) (s : Producers) (n : ℕ) (outlet : Outlet) :
    Producers :=
  match s.pending[n]? with
  | none => s
  | some a =>
    { s with
      pending := s.pending.eraseIdx n
      exported := (a.exported e json outlet).toList++s.exported }

def step (e : EventExporter) (json : Json Data) (s : Producers) : ProducerStep → Producers
  | .set ctx value =>
    match s.store.set ctx none value with
    | (.ok stored,store) => { s with store, pending := .state stored::s.pending }
    | (.error _,store) => { s with store }
  | .delete ctx key => { s with store := (s.store.delete ctx key).2 }
  | .engine c =>
    match s.engine.emits c with
    | some (transition,alarm) =>
      { s with engine := s.engine.call c, pending := .alarm transition alarm::s.pending }
    | none => { s with engine := s.engine.call c }
  | .publish n outlet => s.publish e json n outlet

end Producers

/-- A correlation ID an event has, and the alarm it is about. -/
abbrev Mark := CorrelationID × Option AlarmID

def Announcement.mark : Announcement → Option Mark
  | .state _ => none
  | .alarm _ a => some (a.correlationID,some a.id)

def Exported.mark (x : Exported) : Mark :=
  (x.event.correlationID,
    match x.event.payload with
    | .alarm alarm => some alarm.id
    | _ => none)

namespace Producers

def marks (s : Producers) : List Mark :=
  s.pending.filterMap Announcement.mark++s.exported.map Exported.mark

/-- No event and no stored alarm has the correlation ID. -/
def New (s : Producers) (c : CorrelationID) : Prop :=
  c ≠ "" ∧ c ∉ s.marks.map Prod.fst ∧ c ∉ s.engine.alarms.values.map Alarm.correlationID

instance (s : Producers) (c : CorrelationID) : Decidable (s.New c) :=
  inferInstanceAs (Decidable (_ ∧ _ ∧ _))

/-- A `Set` publishes under a new correlation ID, an observation is recorded under a new one, and an
operator acts on an alarm only if no event of it has the correlation ID it is stored with. -/
def Renewed (s : Producers) : ProducerStep → Prop
  | .set _ _ | .delete _ _ | .engine (.registerRule _ _) => True
  | .engine (.observe a o) =>
    match o.stamped a with
    | .ok o' => s.engine.Records a o o' → s.New o'.correlationID
    | .error _ => True
  | .engine (.acknowledge _ id) | .engine (.clear _ id) =>
    ∀ c ∈ s.engine.correlation id, (c,some id) ∉ s.marks
  | .publish n outlet =>
    match s.pending[n]?, outlet.factory.correlation outlet.correlationID with
    | some (.state _), .ok c => s.New c
    | _, _ => True

instance (s : Producers) : (l : ProducerStep) → Decidable (s.Renewed l)
  | .set _ _ | .delete _ _ | .engine (.registerRule _ _) => .isTrue trivial
  | .engine (.observe a o) =>
    match h : o.stamped a with
    | .ok o' => decidable_of_iff (s.engine.Records a o o' → s.New o'.correlationID)
        (by simp only [Renewed,h])
    | .error _ => .isTrue (by simp only [Renewed,h])
  | .engine (.acknowledge _ id) | .engine (.clear _ id) =>
    inferInstanceAs (Decidable (∀ c ∈ s.engine.correlation id, (c,some id) ∉ s.marks))
  | .publish n outlet =>
    match hn : s.pending[n]?, hc : outlet.factory.correlation outlet.correlationID with
    | some (.state _), .ok c => decidable_of_iff (s.New c) (by simp only [Renewed,hn,hc])
    | some (.state _), .error _ | some (.alarm _ _), _ | none, _ =>
      .isTrue (by simp only [Renewed,hn,hc])

end Producers

section Naming

variable {e : EventExporter} {json : Json Data} {outlet : Outlet} {s s' : Producers} {x : Exported}

/-- The payload of the publication is the text of an envelope under the message ID. -/
def Exported.Enveloped (json : Json Data) (x : Exported) : Prop :=
  ∃ envelope : Envelope, envelope.messageID = x.messageID ∧
    json.marshalEnvelope envelope = .ok x.publication.payload

theorem exported_ok {a : Announcement} (h : a.exported e json outlet = some x) :
    a.event outlet = .ok x.event ∧ x.Enveloped json := by
  unfold Announcement.exported at h
  cases hevent : a.event outlet with
  | error err => simp [hevent] at h
  | ok event =>
    simp only [hevent] at h
    split_ifs at h
    obtain ⟨publication,hhandle,rfl⟩ := Option.map_eq_some_iff.mp h
    refine ⟨rfl,?_⟩
    unfold EventExporter.handle at hhandle
    cases haddress : EventExporter.address json event with
    | none => simp [haddress] at hhandle
    | some found =>
      obtain ⟨purpose,resource,data,revision⟩ := found
      simp only [haddress] at hhandle
      cases hencoded : e.encoded json event data revision with
      | error err => simp [hencoded] at hhandle
      | ok payload =>
        simp only [hencoded] at hhandle
        obtain rfl := Option.some.inj hhandle
        exact encode_ok hencoded

theorem exported_state {value : StateValue}
    (h : (Announcement.state value).exported e json outlet = some x) :
    outlet.factory.correlation outlet.correlationID = .ok x.mark.1 ∧ x.mark.2 = none := by
  have hevent := (exported_ok h).1
  simp only [Announcement.event] at hevent
  exact ⟨new_correlation hevent,by simp [Exported.mark,(new_valid hevent).2]⟩

theorem exported_alarm {transition : Alarms.Transition} {a : Alarm}
    (h : (Announcement.alarm transition a).exported e json outlet = some x)
    (hnamed : a.correlationID ≠ "") : x.mark = (a.correlationID,some a.id) := by
  have hevent := (exported_ok h).1
  simp only [Announcement.event] at hevent
  have hid := new_correlation hevent
  rw [Factory.correlation,if_neg hnamed] at hid
  simp only [Exported.mark,(new_valid hevent).2,Except.ok.inj hid]

namespace Producers

/-- The correlation IDs of events are different. An alarm shares its own with events of its own
only, and with no other alarm. -/
structure Apart (json : Json Data) (s : Producers) : Prop where
  keyed : s.engine.Keyed
  distinct : (s.marks.map Prod.fst).Nodup
  named : ∀ x ∈ s.marks, x.1 ≠ ""
  stored : ∀ id, s.engine.correlation id ≠ some ""
  owned : ∀ x ∈ s.marks, ∀ id, s.engine.correlation id = some x.1 → x.2 = some id
  single : ∀ id id' c, s.engine.correlation id = some c → s.engine.correlation id' = some c →
    id = id'
  enveloped : ∀ x ∈ s.exported, x.Enveloped json

theorem New.correlation_ne {c : CorrelationID} (h : s.New c) (id : AlarmID) :
    s.engine.correlation id ≠ some c := by
  intro hid
  obtain ⟨alarm,hlook,rfl⟩ := Option.map_eq_some_iff.mp hid
  exact h.2.2 (List.mem_map_of_mem (Table.mem_values.mpr ⟨id,hlook⟩))

namespace Apart

theorem start (limit : ℤ) : Apart json { engine := newManager limit } where
  keyed := ⟨fun _ _ h => by simp [newManager] at h,fun _ _ h => by simp [newManager] at h⟩
  distinct := List.nodup_nil
  named _ hx := absurd hx List.not_mem_nil
  stored id h := by simp [Alarms.Manager.correlation,newManager] at h
  owned _ hx := absurd hx List.not_mem_nil
  single id _ _ h := by simp [Alarms.Manager.correlation,newManager] at h
  enveloped _ hx := absurd hx List.not_mem_nil

theorem shrink (h : s.Apart json) (hengine : s'.engine = s.engine)
    (hdistinct : (s'.marks.map Prod.fst).Nodup) (hsub : s'.marks ⊆ s.marks)
    (henveloped : ∀ x ∈ s'.exported, x.Enveloped json) : s'.Apart json where
  keyed := hengine ▸ h.keyed
  distinct := hdistinct
  named x hx := h.named x (hsub hx)
  stored := hengine ▸ h.stored
  owned x hx := hengine ▸ h.owned x (hsub hx)
  single := hengine ▸ h.single
  enveloped := henveloped

/-- One more event, under a correlation ID that no event and no other alarm has. -/
theorem add (h : s.Apart json) (hengine : s'.engine = s.engine) {x : Mark}
    (hmarks : s'.marks.Perm (x::s.marks)) (hnamed : x.1 ≠ "") (hnew : x.1 ∉ s.marks.map Prod.fst)
    (howned : ∀ id, s.engine.correlation id = some x.1 → x.2 = some id)
    (henveloped : ∀ x ∈ s'.exported, x.Enveloped json) : s'.Apart json where
  keyed := hengine ▸ h.keyed
  distinct := (hmarks.map Prod.fst).nodup_iff.mpr (List.nodup_cons.mpr ⟨hnew,h.distinct⟩)
  named y hy := by
    rcases List.mem_cons.mp (hmarks.subset hy) with rfl | hy
    · exact hnamed
    · exact h.named y hy
  stored := hengine ▸ h.stored
  owned y hy := by
    rw [hengine]
    rcases List.mem_cons.mp (hmarks.subset hy) with rfl | hy
    · exact howned
    · exact h.owned y hy
  single := hengine ▸ h.single
  enveloped := henveloped

theorem announce (h : s.Apart json) (transition : Alarms.Transition) {a : Alarm}
    (hnamed : a.correlationID ≠ "") (hnew : a.correlationID ∉ s.marks.map Prod.fst)
    (howned : ∀ id, s.engine.correlation id = some a.correlationID → id = a.id) :
    Apart json { s with pending := .alarm transition a::s.pending } :=
  h.add rfl (.refl _) hnamed hnew (fun id hid => congrArg some (howned id hid).symm) h.enveloped

variable {m : Alarms.Manager}

theorem same_engine (h : s.Apart json) (hkeyed : m.Keyed)
    (hsame : ∀ id, m.correlation id = s.engine.correlation id) :
    Apart json { s with engine := m } where
  keyed := hkeyed
  distinct := h.distinct
  named := h.named
  stored id := by
    rw [hsame]
    exact h.stored id
  owned x hx id hid := h.owned x hx id (hsame id ▸ hid)
  single id id' c hid hid' := h.single id id' c (hsame id ▸ hid) (hsame id' ▸ hid')
  enveloped := h.enveloped

theorem record (h : s.Apart json) (hkeyed : m.Keyed) {key : AlarmID}
    {c : CorrelationID} (hnew : s.New c)
    (hm : ∀ id, m.correlation id = if key ≠ "" ∧ id = key then some c
      else s.engine.correlation id) : Apart json { s with engine := m } where
  keyed := hkeyed
  distinct := h.distinct
  named := h.named
  stored id hid := by
    rw [hm] at hid
    split_ifs at hid
    · exact hnew.1 (Option.some.inj hid)
    · exact h.stored id hid
  owned x hx id hid := by
    rw [hm] at hid
    split_ifs at hid
    · exact absurd (List.mem_map_of_mem hx) (Option.some.inj hid ▸ hnew.2.1)
    · exact h.owned x hx id hid
  single id id' c' hid hid' := by
    rw [hm] at hid hid'
    split_ifs at hid hid' with hkey hkey' hkey'
    · exact hkey.2.trans hkey'.2.symm
    · exact absurd (hid'.trans hid.symm) (hnew.correlation_ne id')
    · exact absurd (hid.trans hid'.symm) (hnew.correlation_ne id)
    · exact h.single id id' c' hid hid'
  enveloped := h.enveloped

end Apart

theorem operator_apart (h : s.Apart json) {c : AlarmCall} {a : Alarms.Answer} {id : AlarmID}
    (hoperator : c = .acknowledge a id ∨ c = .clear a id)
    (hunused : ∀ c ∈ s.engine.correlation id, (c,some id) ∉ s.marks) :
    (s.step e json (.engine c)).Apart json := by
  obtain ⟨hsame,hemits⟩ := Alarms.operator_correlations h.keyed hoperator
  have hnext := h.same_engine (Alarms.call_keyed h.keyed c) hsame
  unfold step
  dsimp only
  cases hx : s.engine.emits c with
  | none => exact hnext
  | some x =>
    obtain ⟨transition,alarm⟩ := x
    obtain ⟨hid,hcorrelation⟩ := hemits _ hx
    refine hnext.announce transition (fun hempty => h.stored id (hempty ▸ hcorrelation))
      (fun hmem => ?_) fun id' hid' => ?_
    · obtain ⟨⟨c,owner⟩,hmark,rfl⟩ := List.mem_map.mp hmem
      obtain rfl : owner = some id := h.owned _ hmark id hcorrelation
      exact hunused _ hcorrelation hmark
    · exact (h.single id' id _ ((hsame id').symm.trans hid') hcorrelation).trans hid.symm

theorem engine_apart (h : s.Apart json) {c : AlarmCall} (hc : s.Renewed (.engine c)) :
    (s.step e json (.engine c)).Apart json := by
  cases c with
  | registerRule ctx rule =>
    refine h.same_engine (Alarms.call_keyed h.keyed _) fun id => ?_
    rcases Alarms.registerRule_cases s.engine ctx rule with hm | ⟨_,_,hm⟩
    · rw [hm]
    · rw [hm]
      rfl
  | observe a o =>
    have hkeyed := Alarms.call_keyed h.keyed (.observe a o)
    unfold step
    dsimp only
    rcases Alarms.observe_correlations h.keyed a o with ⟨hsame,hemits⟩ | ⟨o',ho,hrec,hm,hemits⟩
    · rw [hemits]
      exact h.same_engine hkeyed hsame
    · simp only [Renewed,ho] at hc
      have hnew := hc hrec
      have hnext := h.record hkeyed hnew hm
      cases hx : s.engine.emits (.observe a o) with
      | none => exact hnext
      | some x =>
        obtain ⟨transition,alarm⟩ := x
        obtain rfl : alarm = _ := hemits _ hx
        refine hnext.announce transition (hrec.2 ▸ hnew.1) (hrec.2 ▸ hnew.2.1) fun id hid => ?_
        rw [hrec.2] at hid
        by_contra hne
        rw [show (s.engine.call (.observe a o)).correlation id = _ from hm id,
          if_neg fun h => hne h.2] at hid
        exact hnew.correlation_ne id hid
  | acknowledge a id => exact operator_apart h (.inl rfl) hc
  | clear a id => exact operator_apart h (.inr rfl) hc

theorem publish_apart (h : s.Apart json) {n : ℕ} (hn : s.Renewed (.publish n outlet)) :
    (s.publish e json n outlet).Apart json := by
  unfold publish
  cases hpending : s.pending[n]? with
  | none => exact h
  | some a =>
    -- The announcement leaves the calls first; an event under a mark of its own may then follow.
    obtain ⟨hlt,hget⟩ := List.getElem?_eq_some_iff.mp hpending
    have hperm : (a::s.pending.eraseIdx n).Perm s.pending := by
      rw [← hget]
      exact List.getElem_cons_eraseIdx_perm hlt
    have hrest : (s.pending.eraseIdx n).filterMap Announcement.mark++s.exported.map Exported.mark
        |>.Sublist s.marks :=
      ((List.eraseIdx_sublist _ _).filterMap _).append_right _
    have hdropped : Apart json { s with pending := s.pending.eraseIdx n } :=
      h.shrink rfl (h.distinct.sublist (hrest.map _)) hrest.subset h.enveloped
    dsimp only
    cases hx : a.exported e json outlet with
    | none => exact hdropped
    | some x =>
      have henveloped : ∀ y ∈ x::s.exported, y.Enveloped json := by
        intro y hy
        rcases List.mem_cons.mp hy with rfl | hy
        · exact (exported_ok hx).2
        · exact h.enveloped y hy
      cases a with
      | state value =>
        obtain ⟨hid,hmark⟩ := exported_state hx
        simp only [Renewed,hpending,hid] at hn
        exact hdropped.add rfl List.perm_middle hn.1
          (fun hmem => hn.2.1 ((hrest.map _).subset hmem))
          (fun id hstored => absurd hstored (hn.correlation_ne id)) henveloped
      | alarm transition alarm =>
        have hmem : (alarm.correlationID,some alarm.id) ∈ s.marks :=
          List.mem_append_left _ (List.mem_filterMap.mpr ⟨_,List.mem_of_getElem? hpending,rfl⟩)
        have hmark := exported_alarm hx (h.named _ hmem)
        have hmoved : ((s.pending.eraseIdx n).filterMap Announcement.mark++
            (x::s.exported).map Exported.mark).Perm s.marks := by
          rw [List.map_cons,hmark]
          exact List.perm_middle.trans ((hperm.filterMap Announcement.mark).append_right _)
        exact h.shrink rfl ((hmoved.map _).nodup_iff.mpr h.distinct) hmoved.subset henveloped

theorem step_apart (h : s.Apart json) {l : ProducerStep} (hl : s.Renewed l) :
    (s.step e json l).Apart json := by
  cases l with
  | set ctx value =>
    unfold step
    dsimp only
    rcases s.store.set ctx none value with ⟨_ | stored,store⟩
    · exact h.shrink rfl h.distinct (List.Subset.refl _) h.enveloped
    · exact h.shrink rfl h.distinct (List.Subset.refl _) h.enveloped
  | delete ctx key => exact h.shrink rfl h.distinct (List.Subset.refl _) h.enveloped
  | engine c => exact engine_apart h hl
  | publish n outlet => exact publish_apart h hl

/-- In every run whose observations and values come under new correlation IDs, and in which an alarm
has been observed since its last event before an operator acts on it, the exported envelopes have
different message IDs, and no consumer that has seen earlier ones only takes one for a repeat. -/
theorem events_named_apart (e : EventExporter) (json : Json Data) (limit : ℤ)
    (steps : List ProducerStep)
    (h : Guarded (step e json) Renewed { engine := newManager limit } steps) :
    let s := run (step e json) { engine := newManager limit } steps
    (∀ x ∈ s.exported, x.Enveloped json) ∧
    (s.exported.map Exported.messageID).Nodup ∧
    ∀ later x earlier, s.exported = later++x::earlier → ∀ window : Window String,
      window.order ⊆ earlier.map Exported.messageID → window.reserve x.messageID ≠ none := by
  intro s
  have hstep : ∀ s l, Apart json s → s.Renewed l → Apart json (s.step e json l) :=
    fun _ _ hs hl => step_apart hs hl
  have hs : s.Apart json := invariant_run hstep (Apart.start limit) h
  have hdistinct : (s.exported.map Exported.messageID).Nodup := by
    have hmarks := hs.distinct.sublist ((List.sublist_append_right _ _).map Prod.fst)
    rwa [List.map_map] at hmarks
  refine ⟨hs.enveloped,hdistinct,fun later x earlier hsplit window hseen hrefused => ?_⟩
  rw [hsplit,List.map_append,List.map_cons] at hdistinct
  exact (List.nodup_cons.mp hdistinct.of_append_right).1
    (hseen (Window.reserve_none_iff.mp hrefused))

end Producers

end Naming

namespace Producers

section Samples

open EventExporter (booleanJson homeExporter quoted member object)
open Router (instant)

def alarmText (a : Alarm) : String :=
  object ([member "id" (quoted a.id),member "ruleId" (quoted a.ruleID),
      member "code" (quoted a.code),
      member "subject" (object [member "kind" (quoted a.subject.kind),
        member "id" (quoted a.subject.id)]),
      member "severity" (quoted "warning"),member "status" (quoted (a.status.text)),
      member "conditionActive" (if a.conditionActive then "true" else "false"),
      member "evidence" ("["++String.intercalate "," (a.evidence.map fun evidence =>
        object [member "code" (quoted evidence.code),member "message" (quoted evidence.message)])++"]"),
      member "firstObserved" (instant a.firstObserved),
      member "lastObserved" (instant a.lastObserved),
      member "occurrenceCount" (toString a.occurrenceCount)]++
    a.acknowledgedAt.toList.map (fun t => member "acknowledgedAt" (instant t))++
    a.clearedAt.toList.map (fun t => member "clearedAt" (instant t))++
    [member "correlationId" (quoted a.correlationID)])

def alarmJson : Json Data :=
  { booleanJson with
    marshal
      | .alarm a => .ok (bytes (alarmText a))
      | data => booleanJson.marshal data }

def leakAlarmID : AlarmID := "a0000000-0000-4000-8000-000000000001"

def leakReported (t : ℤ) (c : CorrelationID) : ProducerStep :=
  .engine (.observe { now := t, alarmID := .ok leakAlarmID }
    { ruleID := Alarms.leakRule.id, active := true, observedAt := t, evidence := ⟨"wet","",none⟩
      correlationID := c })

def leakAcknowledged (t : ℤ) : ProducerStep := .engine (.acknowledge { now := t } leakAlarmID)

def published (c : CorrelationID) : ProducerStep :=
  .publish 0 { correlationID := c, factory := { now := 1 } }

def observedAgain : List ProducerStep :=
  [.engine (.registerRule none Alarms.leakRule),
    leakReported 1 "c0000000-0000-4000-8000-000000000001",published "",
    leakReported 2 "c0000000-0000-4000-8000-000000000002",leakAcknowledged 3,published "",
    .set none (reportedSwitch true),published "c0000000-0000-4000-8000-000000000003"]

def watched (steps : List ProducerStep) : Producers :=
  run (step homeExporter alarmJson) { engine := newManager 16 } steps

theorem observedAgain_named_apart :
    (watched observedAgain).exported.length = 3 ∧
      ((watched observedAgain).exported.map Exported.messageID).Nodup :=
  ⟨by decide +kernel,
    (events_named_apart homeExporter alarmJson 16 observedAgain (by decide +kernel)).2.1⟩

/-- An alarm acknowledged right after it was raised: both events are exported under one message ID,
and a consumer of the first refuses the second. -/
theorem acknowledged_under_raised_id :
    (watched [.engine (.registerRule none Alarms.leakRule),
        leakReported 1 "c0000000-0000-4000-8000-000000000001",published "",
        leakAcknowledged 2,published ""]).exported.map (fun x => (x.messageID,x.event.eventType)) =
        [("c0000000-0000-4000-8000-000000000001",.alarmAcknowledged),
          ("c0000000-0000-4000-8000-000000000001",.alarmRaised)] ∧
      ((Window.make String 8 (by decide)).reserve "c0000000-0000-4000-8000-000000000001").map
        (fun window => (window.reserve "c0000000-0000-4000-8000-000000000001").isNone) =
          some true := by
  decide +kernel

end Samples

end Producers

end Mqtt
end AquaOS
