import AquaOS.EventBus
import AquaOS.Evaluator

/-! The store, the evaluator and the alarm engine on one bus. A state event is delivered while its
publication holds a slot, and the alarm events it leads to are published from inside that
delivery. -/
namespace AquaOS

open Domain CanonicalState Events Transition

namespace Alarms

/-- `events.Type(transition)`. -/
def Transition.eventType : Transition → EventType
  | .none => .other "alarm.no_change"
  | .debouncing => .other "alarm.debouncing"
  | .raised => .alarmRaised
  | .escalated => .alarmEscalated
  | .clearPending => .other "alarm.clear_pending"
  | .cleared => .alarmCleared
  | .acknowledged => .alarmAcknowledged
  | .ignoredStale => .other "alarm.ignored_stale"

/-- The evaluator, and handlers that do not publish: exporters, status and history. -/
inductive Handler
  | evaluator
  | listener (n : ℕ)
  deriving DecidableEq

/-- A transition an observation led to, and how its event was published. -/
structure Emission where
  transition : Transition
  alarm : Alarm
  publication : Publication Handler

/-- The components that share a bus, with the emissions of the last `Set`. -/
structure Core where
  bus : Bus Handler
  store : StateManager := {}
  engine : Manager
  evaluator : Evaluator
  emissions : List Emission := []

/-- What a `Set` meets: its context, what the factories read, the encoder, new alarm IDs, and what
the listeners return. -/
structure Env where
  ctx : Option Failure := none
  correlationID : CorrelationID := ""
  factory : Factory
  stateEncoded : Option Failure := none
  alarmEncoded : Alarm → Option Failure := fun _ => none
  alarmID : RuleID → Except Failure AlarmID
  listener : ℕ → Option Failure := fun _ => none

namespace Core

variable (p : Platform) (env : Env)

def hold (slots : Channel Unit) (c : Core) : Core := { c with bus := { c.bus with slots } }

/-- An alarm decodes to a value without a key, so the evaluator passes over it. -/
def alarmHandler : Handler → Core → Option Failure × Core
  | .evaluator, c => (none,c)
  | .listener n, c => (env.listener n,c)

def emit (transition : Transition) (alarm : Alarm) (c : Core) : Publication Handler × Core :=
  match env.factory.new (env.alarmEncoded alarm) "alarms" transition.eventType alarm.severity alarm
    alarm.correlationID with
  | .error err => ({ refused := some err },c)
  | .ok event => publish Core.bus hold (alarmHandler env) env.ctx event c

/-- `Observe` with its event: the engine is written first, and the event decides the error. -/
def observe (o : Observation) (c : Core) : Option Failure × Core :=
  let answer : Answer :=
    { ctx := env.ctx, now := env.factory.now, correlationID := env.factory.newCorrelationID
      alarmID := env.alarmID o.ruleID }
  let ((alarm,transition,err),engine) := c.engine.observe answer o
  if err.isSome ∨ transition.silent ∨ transition = .ignoredStale then (err,{ c with engine })
  else
    let (publication,c) := emit env transition alarm { c with engine }
    (publication.error.map (.wrapped ("publish "++transition.eventType.text)),
      { c with emissions := c.emissions++[⟨transition,alarm,publication⟩] })

def stateHandler (event : Event StateValue) : Handler → Core → Option Failure × Core
  | .evaluator, c =>
    c.evaluator.handle p (fun _ => observe env) event.payload event.correlationID c
  | .listener n, c => (env.listener n,c)

/-- `Set` from the end of its lock section on. -/
def announce (stored : StateValue) (c : Core) : Except Failure StateValue × Core :=
  match env.factory.new env.stateEncoded "state" .stateChanged .info stored env.correlationID with
  | .error err => (.error err,c)
  | .ok event =>
    let (publication,c) := publish Core.bus hold (stateHandler p env event) env.ctx event c
    match publication.error with
    | some err => (.error err,c)
    | none => (.ok stored,c)

def set (value : StateValue) (c : Core) : Except Failure StateValue × Core :=
  match env.ctx, value.validate with
  | some err, _ | none, some err => (.error err,{ c with emissions := [] })
  | none, none =>
    announce p env { value with revision := (c.store.revision+1) % 2^64 }
      { c with store := c.store.commit (.set value), emissions := [] }

end Core

/-- Calls made one after the other; those on the engine publish at most to listeners. -/
inductive CoreCall
  | set (env : Env) (value : StateValue)
  | delete (ctx : Option Failure) (key : Key)
  | engine (c : AlarmCall)
  | subscribe (topic : EventType) (handler : Handler)
  | unsubscribe (n : ℕ)
  | stop

def Core.call (p : Platform) (c : Core) : CoreCall → Core
  | .set env value => (c.set p env value).2
  | .delete ctx key => { c with store := (c.store.delete ctx key).2 }
  | .engine call => { c with engine := c.engine.call call }
  | .subscribe topic handler =>
    match c.bus.subscribe topic handler with
    | .ok bus => { c with bus }
    | .error _ => c
  | .unsubscribe n => { c with bus := c.bus.unsubscribe n }
  | .stop => { c with bus := c.bus.stop }

structure Manager.Rated (m : Manager) : Prop where
  rules : ∀ r st, m.rules.lookup r = some st → st.rule.severity.rank ≠ 0
  current : ∀ r st, m.rules.lookup r = some st → st.current = "" ∨ st.current ∈ m.alarms
  alarms : ∀ id a, m.alarms.lookup id = some a → a.severity.rank ≠ 0

section Rated

variable {m : Manager} {id : AlarmID} {r : RuleID} {st : RuleState}

theorem alarmOf_rated (h : m.Rated) (hid : (m.alarmOf id).id ≠ "") :
    (m.alarmOf id).severity.rank ≠ 0 := by
  unfold Manager.alarmOf at *
  cases ha : m.alarms.lookup id with
  | none => simp [ha,Alarm.zero] at hid
  | some a => exact h.alarms id a ha

theorem held_rated (h : m.Rated) (hst : m.rules.lookup r = some st)
    (hheld : ¬ m.Free st) : (m.alarmOf st.current).severity.rank ≠ 0 := by
  have hmem := (h.current r st hst).resolve_left fun hnone => hheld (.inl hnone)
  obtain ⟨a,ha⟩ := Option.isSome_iff_exists.mp (AList.lookup_isSome.mpr hmem)
  rw [alarmOf_eq ha]
  exact h.alarms _ a ha

/-- What an observation leaves of a rule whose engine is rated. -/
structure RatedOutcome (st : RuleState) (o : Observation) (out : Outcome) : Prop where
  rule : out.state.rule = st.rule
  current : out.state.current = st.current ∨ out.state.current = out.alarm.id
  severity : out.alarm.id ≠ "" ∨ out.transition.silent = false → out.alarm.severity.rank ≠ 0
  correlation : out.transition.silent = false → out.alarm.correlationID = o.correlationID

theorem apply_rated (h : m.Rated) (hst : m.rules.lookup r = some st)
    (newID : Except Failure AlarmID) (t : ℤ) (o : Observation) :
    RatedOutcome st o (m.applyObservation newID { st with lastObservation := t } o) := by
  rcases apply_cases m newID { st with lastObservation := t } o with
    ⟨_,_,alarm,halarm,hout⟩ | ⟨_,_,hout⟩ | ⟨_,hheld,hout⟩ | ⟨_,hheld,hout⟩ <;> rw [hout]
  · refine ⟨rfl,.inl rfl,?_,by simp [Transition.silent]⟩
    rintro (hid | hloud)
    · rcases halarm with rfl | ⟨rfl,_⟩
      · exact absurd rfl hid
      · exact alarmOf_rated h hid
    · simp [Transition.silent] at hloud
  · rcases raise_cases m newID { st with lastObservation := t } o with
      ⟨_,hraise⟩ | ⟨_,err,_,hraise⟩ | ⟨_,id,_,hraise⟩ <;> rw [hraise]
    · exact ⟨rfl,.inl rfl,by simp [Alarm.zero,Transition.silent],by simp [Transition.silent]⟩
    · exact ⟨rfl,.inl rfl,by simp [Alarm.zero,Transition.silent],by simp [Transition.silent]⟩
    · refine ⟨rfl,.inr rfl,fun _ => ?_,fun _ => rfl⟩
      simp only [Rule.alarm]
      split_ifs with hhigher
      · omega
      · exact h.rules r st hst
  · have hknown := held_rated h hst hheld
    rw [repeated_eq]
    refine ⟨rfl,.inl rfl,fun _ => ?_,fun _ => rfl⟩
    dsimp only
    split_ifs with hhigher
    · omega
    · exact hknown
  · have hknown := held_rated h hst hheld
    rcases recover_cases m { st with lastObservation := t } o with
      ⟨_,hrecover⟩ | ⟨_,_,hrecover⟩ <;> rw [hrecover]
    · exact ⟨rfl,.inl rfl,fun _ => hknown,fun _ => rfl⟩
    · exact ⟨rfl,.inl rfl,fun _ => hknown,fun _ => rfl⟩

theorem store_rated (h : m.Rated) {o : Observation} {out : Outcome}
    (hst : m.rules.lookup r = some st) (hout : RatedOutcome st o out) : (m.store r out).Rated := by
  have hgrow : ∀ id, id ∈ m.alarms → id ∈ (m.store r out).alarms := by
    intro id hid
    unfold Manager.store
    dsimp only
    split_ifs
    · exact hid
    · exact (AList.mem_insert _).mpr (.inr hid)
  refine ⟨Table.forall_insert (hout.rule ▸ h.rules r st hst) h.rules,Table.forall_insert ?_ ?_,
    forall_store_alarms (fun hid => hout.severity (.inl hid)) h.alarms⟩
  · rcases hout.current with hcur | hcur
    · rw [hcur]
      exact (h.current r st hst).imp_right (hgrow _)
    · rw [hcur]
      by_cases hid : out.alarm.id = ""
      · exact .inl hid
      · refine .inr (Table.mem_of_lookup (v := out.alarm) ?_)
        rw [store_alarms,if_pos ⟨hid,rfl⟩]
  · exact fun r' st' hst' => (h.current r' st' hst').imp_right (hgrow _)

/-- An observation keeps the engine rated, and what it announces has a known severity and the
correlation of the observation. -/
theorem observe_rated (h : m.Rated) (a : Answer) (o : Observation) : (m.observe a o).2.Rated ∧
    ((m.observe a o).1.2.1.silent = false → (m.observe a o).1.2.1 ≠ .ignoredStale →
      (m.observe a o).1.1.severity.rank ≠ 0 ∧
      (o.correlationID ≠ "" → (m.observe a o).1.1.correlationID = o.correlationID)) := by
  rcases observe_outcomes m a o with ⟨_,err,hm⟩ | ⟨st,o',_,_,hm⟩ | ⟨st,o',out,hr,_,hout,hm⟩ <;> rw [hm]
  · exact ⟨h,by simp [Transition.silent]⟩
  · exact ⟨h,fun _ hstale => absurd rfl hstale⟩
  · have hrated : RatedOutcome st o' out := hout ▸ apply_rated h hr.2.2 a.alarmID o'.observedAt o'
    refine ⟨store_rated h hr.2.2 hrated,fun hloud _ => ⟨hrated.severity (.inr hloud),fun hgiven => ?_⟩⟩
    have hstamped := hr.2.1
    simp only [Observation.stamped,hgiven,if_false,Except.ok.injEq] at hstamped
    rw [hrated.correlation hloud,← hstamped]

theorem registered_severity {ctx : Option Failure} {rule : Rule} {m' : Manager}
    (h : m.registerRule ctx rule = .ok m') : rule.severity.rank ≠ 0 := by
  intro hrank
  cases ctx with
  | some err => simp [Manager.registerRule] at h
  | none =>
    cases hv : validateRule rule with
    | some err => simp [Manager.registerRule,hv] at h
    | none =>
      unfold validateRule at hv
      cases hid : validateID rule.id with
      | some err => simp [hid] at hv
      | none =>
        cases hsubject : validateID rule.subject.id with
        | some err =>
          simp only [hid,hsubject] at hv
          split_ifs at hv
        | none =>
          simp only [hid,hsubject,hrank] at hv
          split_ifs at hv

theorem call_rated (h : m.Rated) (c : AlarmCall) : (m.call c).Rated := by
  rcases call_cases m c with ⟨a,o,rfl⟩ | ⟨_,hm | ⟨_,rule,_,hok,hm⟩ | ⟨id,a,_,_,_,ha,hm,_⟩⟩
  · exact (observe_rated h a o).1
  · rwa [hm]
  · rw [hm]
    exact ⟨Table.forall_insert (registered_severity hok) h.rules,
      Table.forall_insert (.inl rfl) h.current,h.alarms⟩
  · rw [hm]
    refine ⟨h.rules,fun r st hst => ?_,Table.forall_insert (h.alarms id a ha) h.alarms⟩
    exact (h.current r st hst).imp_right fun hmem => (AList.mem_insert _).mpr (.inr hmem)

/-- A silent transition writes back an alarm of the same status and severity. -/
theorem apply_silent (m : Manager) (newID : Except Failure AlarmID) (st : RuleState)
    (o : Observation) : let out := m.applyObservation newID st o
    (out.transition.silent = false → out.err = none ∧ out.transition ≠ .ignoredStale) ∧
    (out.transition.silent = true → out.alarm.id = "" ∨
      (out.alarm.id = (m.alarmOf st.current).id ∧
      (m.alarmOf st.current).status = out.alarm.status ∧
      (m.alarmOf st.current).severity = out.alarm.severity)) := by
  intro out
  rcases apply_cases m newID st o with ⟨_,_,alarm,halarm,hout⟩ | ⟨_,_,hout⟩ | ⟨_,_,hout⟩ | ⟨_,_,hout⟩ <;>
    rw [show out = _ from hout]
  · refine ⟨by simp [Transition.silent],fun _ => ?_⟩
    rcases halarm with rfl | ⟨rfl,_⟩
    · exact .inl rfl
    · exact .inr ⟨rfl,rfl,rfl⟩
  · rcases raise_cases m newID st o with ⟨_,hraise⟩ | ⟨_,err,_,hraise⟩ | ⟨_,id,_,hraise⟩ <;>
      rw [hraise]
    · exact ⟨by simp [Transition.silent],fun _ => .inl rfl⟩
    · exact ⟨by simp [Transition.silent],fun _ => .inl rfl⟩
    · exact ⟨by simp,by simp [Transition.silent]⟩
  · rw [repeated_eq]
    dsimp only
    split_ifs with hhigher
    · exact ⟨by simp,by simp [Transition.silent]⟩
    · exact ⟨by simp [Transition.silent],fun _ => .inr ⟨rfl,rfl,rfl⟩⟩
  · rcases recover_cases m st o with ⟨_,hrecover⟩ | ⟨_,_,hrecover⟩ <;> rw [hrecover]
    · exact ⟨by simp [Transition.silent],fun _ => .inr ⟨rfl,rfl,rfl⟩⟩
    · exact ⟨by simp,by simp [Transition.silent]⟩

/-- An alarm whose status or severity an observation changes is the one it announces. -/
theorem observe_announces (h : m.Keyed) {a : Answer} (hemitted : a.emitted = none)
    (o : Observation) {b : Alarm} (hb : (m.observe a o).2.alarms.lookup id = some b) :
    (∃ b', m.alarms.lookup id = some b' ∧ b'.status = b.status ∧ b'.severity = b.severity) ∨
    ((m.observe a o).1.1.id = id ∧ (m.observe a o).1.2.2 = none ∧
      (m.observe a o).1.2.1.silent = false ∧ (m.observe a o).1.2.1 ≠ .ignoredStale) := by
  rcases observe_outcomes m a o with ⟨_,err,hm⟩ | ⟨st,o',_,_,hm⟩ | ⟨st,o',out,hr,_,hout,hm⟩ <;>
    rw [hm] at hb ⊢
  · exact .inl ⟨b,hb,rfl,rfl⟩
  · exact .inl ⟨b,hb,rfl,rfl⟩
  · obtain ⟨hloud,hsilent⟩ := apply_silent m a.alarmID
      { st with lastObservation := o'.observedAt } o'
    rw [hout] at hloud hsilent
    dsimp only at hb ⊢
    rw [store_alarms] at hb
    split_ifs at hb with hwritten
    · obtain rfl := Option.some.inj hb
      cases htr : out.transition.silent with
      | true =>
        rcases hsilent htr with hempty | ⟨hid,hstatus,hseverity⟩
        · exact absurd hempty hwritten.1
        · obtain ⟨hlook,hkey⟩ := alarmOf_keyed h (hid ▸ hwritten.1)
          refine .inl ⟨_,?_,hstatus,hseverity⟩
          rw [hwritten.2,hid,hkey]
          exact hlook
      | false =>
        refine .inr ⟨hwritten.2.symm,?_,rfl,?_⟩
        · simp [Outcome.failure,(hloud htr).1,htr,hemitted]
        · exact (hloud htr).2
    · exact .inl ⟨b,hb,rfl,rfl⟩

end Rated

section Slots

variable {p : Platform} {env : Env} {c : Core} {b : Bus Handler} {m : Manager}

theorem release_hold {c' : Core} {slots : Channel Unit} (hslot : c.bus.slots.send () = some slots)
    (hbus : c'.bus = (c.hold slots).bus) :
    release Core.bus Core.hold c' = { c' with bus := c.bus } := by
  simp only [release,hbus,Core.hold,slot_returned hslot]

theorem emit_same (env : Env) (tr : Transition) (alarm : Alarm) (c : Core) :
    (c.emit env tr alarm).2 = c := by
  unfold Core.emit
  split
  · rfl
  · next event _ =>
    rcases publish_cases Core.hold (Core.alarmHandler env) env.ctx event c with
      ⟨err,heq⟩ | ⟨slots,subs,_,_,hslot,heq⟩
    · rw [heq]
    · have hstill : (deliver (Core.alarmHandler env) env.ctx subs (c.hold slots)).2 =
          c.hold slots := by
        refine deliver_invariant (I := (· = c.hold slots)) (fun h s hs => ?_) env.ctx subs rfl
        cases h with
        | evaluator => exact hs
        | listener n => exact hs
      rw [heq,hstill,release_hold hslot rfl]
      rfl

/-- The alarms that changed status or severity since the engine was `m` have emissions. -/
def Core.Accounted (m : Manager) (c : Core) : Prop :=
  ∀ id a, c.engine.alarms.lookup id = some a →
    (∃ a', m.alarms.lookup id = some a' ∧ a'.status = a.status ∧ a'.severity = a.severity) ∨
    ∃ e ∈ c.emissions, e.alarm.id = id

/-- What every handler keeps: the bus, an engine with known identifiers and severities, and the
account of its changes. -/
structure Core.Steady (b : Bus Handler) (m : Manager) (c : Core) : Prop where
  bus : c.bus = b
  keyed : c.engine.Keyed
  rated : c.engine.Rated
  accounted : c.Accounted m

theorem observe_steady (env : Env) (hc : c.Steady b m) (o : Observation) :
    (c.observe env o).2.Steady b m := by
  unfold Core.observe
  dsimp only
  generalize hanswer : (⟨env.ctx,env.factory.now,env.factory.newCorrelationID,
    env.alarmID o.ruleID,none⟩ : Answer) = answer
  have hemitted : answer.emitted = none := by rw [← hanswer]
  have hkeyed := (observe_attributed hc.keyed answer o).1
  have hrated := (observe_rated hc.rated answer o).1
  split_ifs with hquiet
  · refine ⟨hc.bus,hkeyed,hrated,fun id a ha => ?_⟩
    rcases observe_announces hc.keyed hemitted o ha with ⟨a',ha',hstatus,hseverity⟩ |
      ⟨_,herr,hloud,hstale⟩
    · rw [← hstatus,← hseverity]
      exact hc.accounted id a' ha'
    · simp [herr,hloud,hstale] at hquiet
  · rw [emit_same]
    refine ⟨hc.bus,hkeyed,hrated,fun id a ha => ?_⟩
    rcases observe_announces hc.keyed hemitted o ha with ⟨a',ha',hstatus,hseverity⟩ | ⟨hid,_⟩
    · rw [← hstatus,← hseverity]
      refine (hc.accounted id a' ha').imp_right ?_
      rintro ⟨e,he,hid⟩
      exact ⟨e,List.mem_append_left _ he,hid⟩
    · exact .inr ⟨_,List.mem_append_right _ (List.mem_singleton_self _),hid⟩

theorem stateHandler_steady (p : Platform) (env : Env) (event : Event StateValue) (h : Handler)
    (hc : c.Steady b m) : (c.stateHandler p env event h).2.Steady b m := by
  cases h with
  | listener n => exact hc
  | evaluator =>
    exact Evaluator.handle_invariant (P := Core.Steady b m) _
      (fun r active evidence s hs => observe_steady env hs _) hc

theorem start_steady (hkeyed : c.engine.Keyed) (hrated : c.engine.Rated) :
    c.Steady c.bus c.engine :=
  ⟨rfl,hkeyed,hrated,fun _ a ha => .inl ⟨a,ha,rfl,rfl⟩⟩

theorem announce_steady (hkeyed : c.engine.Keyed) (hrated : c.engine.Rated) (stored : StateValue) :
    (c.announce p env stored).2.Steady c.bus c.engine := by
  have hstart := start_steady hkeyed hrated
  have hsteady : ∀ event : Event StateValue,
      (publish Core.bus Core.hold (Core.stateHandler p env event) env.ctx event c).2.Steady c.bus
        c.engine := by
    intro event
    rcases publish_cases Core.hold (Core.stateHandler p env event) env.ctx event c with
      ⟨err,heq⟩ | ⟨slots,subs,_,_,hslot,heq⟩
    · rw [heq]
      exact hstart
    · have hc : (c.hold slots).Steady (c.hold slots).bus c.engine := start_steady hkeyed hrated
      have hafter := deliver_invariant (fun h s => stateHandler_steady p env event h) env.ctx subs hc
      rw [heq,release_hold hslot hafter.bus]
      exact ⟨rfl,hafter.keyed,hafter.rated,hafter.accounted⟩
  unfold Core.announce
  split
  · exact hstart
  · next event _ =>
    dsimp only
    split
    · exact hsteady event
    · exact hsteady event

theorem set_steady (hkeyed : c.engine.Keyed) (hrated : c.engine.Rated) (env : Env)
    (value : StateValue) : (c.set p env value).2.Steady c.bus c.engine := by
  unfold Core.set
  split
  · exact start_steady (c := { c with emissions := [] }) hkeyed hrated
  · exact start_steady (c := { c with emissions := [] }) hkeyed hrated
  · exact announce_steady (c := { c with store := c.store.commit (.set value), emissions := [] })
      hkeyed hrated _

end Slots

/-- A core between two calls: no slot is taken. -/
structure Core.Resting (capacity : ℤ) (c : Core) : Prop where
  free : c.bus.slots.items = []
  capacity : c.bus.slots.capacity = (max 1 capacity).toNat
  keyed : c.engine.Keyed
  rated : c.engine.Rated

theorem call_resting {p : Platform} {capacity : ℤ} {c : Core} (h : c.Resting capacity)
    (call : CoreCall) : (c.call p call).Resting capacity := by
  cases call with
  | set env value =>
    obtain ⟨hbus,hkeyed,hrated,_⟩ := set_steady h.keyed h.rated env value
    exact ⟨hbus.symm ▸ h.free,hbus.symm ▸ h.capacity,hkeyed,hrated⟩
  | delete ctx key => exact ⟨h.free,h.capacity,h.keyed,h.rated⟩
  | engine call => exact ⟨h.free,h.capacity,call_keyed h.keyed call,call_rated h.rated call⟩
  | subscribe topic handler =>
    unfold Core.call Bus.subscribe
    dsimp only
    split
    · next bus hbus =>
      split_ifs at hbus
      obtain rfl := Except.ok.inj hbus
      exact ⟨h.free,h.capacity,h.keyed,h.rated⟩
    · exact h
  | unsubscribe n | stop => exact ⟨h.free,h.capacity,h.keyed,h.rated⟩

def newCore (capacity limit : ℤ) (e : Evaluator) : Core :=
  { bus := newBus Handler capacity, engine := newManager limit, evaluator := e }

theorem run_resting (p : Platform) (capacity limit : ℤ) (e : Evaluator) (calls : List CoreCall) :
    (run (Core.call p) (newCore capacity limit e) calls).Resting capacity := by
  have hnew : (newCore capacity limit e).Resting capacity := by
    refine ⟨rfl,rfl,⟨?_,?_⟩,⟨?_,?_,?_⟩⟩ <;> simp [newCore,newManager]
  exact invariant_always (I := Core.Resting capacity) (fun _ call hc => call_resting hc call) hnew calls

section Emissions

variable {p : Platform} {env : Env} {c : Core} {b : Bus Handler} {m : Manager} {e : Emission}

/-- The environment of a call that is not cancelled: the clock reads, and alarms encode. -/
structure Env.Sound (env : Env) : Prop where
  ctx : env.ctx = none
  now : env.factory.now ≠ 0
  encoded : ∀ alarm, env.alarmEncoded alarm = none

/-- The event of an emission went to the subscribers of its type. -/
def Emission.Delivered (b : Bus Handler) (e : Emission) : Prop :=
  e.publication.refused = none ∧ e.publication.reached = b.subscribers e.transition.eventType

/-- While a publication has the bus, an alarm event is delivered exactly if another slot is
free. -/
def Core.Settled (b : Bus Handler) (m : Manager) (c : Core) : Prop :=
  c.Steady b m ∧ ∀ e ∈ c.emissions, e.Delivered b ↔ b.slots.items.length < b.slots.capacity

theorem eventType_named (tr : Transition) : tr.eventType ≠ .other "" := by
  cases tr <;> decide

theorem emit_delivered (henv : env.Sound) (hbus : c.bus = b) (hopen : b.closed = false)
    (tr : Transition) {alarm : Alarm} (hseverity : alarm.severity.rank ≠ 0)
    (hid : validateID alarm.correlationID = none) :
    Emission.Delivered b ⟨tr,alarm,(c.emit env tr alarm).1⟩ ↔
      b.slots.items.length < b.slots.capacity := by
  obtain ⟨event,hnew,hvalid,htype⟩ := new_ok env.factory alarm henv.now
    (show "alarms" ≠ "" by decide) (eventType_named tr) hseverity (correlation_given _ hid) hid
  have hemit : c.emit env tr alarm =
      publish Core.bus Core.hold (Core.alarmHandler env) none event c := by
    simp only [Core.emit,henv.encoded,hnew,henv.ctx]
  rw [hemit]
  subst hbus
  rcases c.bus.slots.fits.lt_or_eq with hroom | hfull
  · obtain ⟨hrefused,hreached⟩ := publish_reaches Core.hold (Core.alarmHandler env) hopen hvalid hroom
    exact iff_of_true ⟨hrefused,hreached.trans (by rw [htype])⟩ hroom
  · rw [publish_full _ _ hopen hvalid hfull]
    simp [Emission.Delivered,hfull]

theorem observe_settled (henv : env.Sound) (hopen : b.closed = false) (hc : c.Settled b m)
    {o : Observation} (hid : validateID o.correlationID = none) :
    (c.observe env o).2.Settled b m := by
  have hgiven := valid_nonempty hid
  refine ⟨observe_steady env hc.1 o,?_⟩
  unfold Core.observe
  dsimp only
  generalize (⟨env.ctx,env.factory.now,env.factory.newCorrelationID,env.alarmID o.ruleID,none⟩ :
    Answer) = answer
  obtain ⟨_,hannounced⟩ := observe_rated hc.1.rated answer o
  split_ifs with hquiet
  · exact hc.2
  · simp only [not_or,Bool.not_eq_true] at hquiet
    obtain ⟨hseverity,hcorrelation⟩ := hannounced hquiet.2.1 hquiet.2.2
    rw [emit_same]
    intro e he
    rcases List.mem_append.mp he with he | he
    · exact hc.2 e he
    · obtain rfl := List.mem_singleton.mp he
      refine emit_delivered henv ?_ hopen _ hseverity ((hcorrelation hgiven).symm ▸ hid)
      exact hc.1.bus

theorem stateHandler_settled (p : Platform) (henv : env.Sound) (hopen : b.closed = false)
    {event : Event StateValue} (hvalid : event.validate = none) (h : Handler) (hc : c.Settled b m) :
    (c.stateHandler p env event h).2.Settled b m := by
  cases h with
  | listener n => exact hc
  | evaluator =>
    refine Evaluator.handle_invariant (P := Core.Settled b m) _ (fun r active evidence s hs => ?_) hc
    exact observe_settled henv hopen hs (validate_correlation hvalid)

/-- The alarm events of a state event are published with its slot taken. -/
theorem publish_settled (henv : env.Sound) (hkeyed : c.engine.Keyed) (hrated : c.engine.Rated)
    (hnone : c.emissions = []) (event : Event StateValue)
    (he : e ∈ (publish Core.bus Core.hold (Core.stateHandler p env event) env.ctx event
      c).2.emissions) :
    e.Delivered c.bus ↔ c.bus.slots.items.length+1 < c.bus.slots.capacity := by
  rcases publish_cases Core.hold (Core.stateHandler p env event) env.ctx event c with
    ⟨err,heq⟩ | ⟨slots,subs,hvalid,hopen,hslot,heq⟩
  · rw [heq,hnone] at he
    cases he
  · obtain ⟨_,hcapacity,hitems⟩ := Channel.send_some hslot
    have hc : (c.hold slots).Settled (c.hold slots).bus c.engine := by
      refine ⟨start_steady hkeyed hrated,fun e he => ?_⟩
      rw [show (c.hold slots).emissions = [] from hnone] at he
      cases he
    have hafter := deliver_invariant
      (fun h s => stateHandler_settled p henv (show (c.hold slots).bus.closed = false from hopen)
        hvalid h) env.ctx subs hc
    rw [heq,release_hold hslot hafter.1.bus] at he
    have hdelivered := hafter.2 e he
    have hlength : slots.items.length = c.bus.slots.items.length+1 := by simp [hitems]
    rw [← hlength,← hcapacity]
    exact hdelivered

theorem announce_settled (henv : env.Sound) (hkeyed : c.engine.Keyed) (hrated : c.engine.Rated)
    (hnone : c.emissions = []) (stored : StateValue) (he : e ∈ (c.announce p env stored).2.emissions) :
    e.Delivered c.bus ↔ c.bus.slots.items.length+1 < c.bus.slots.capacity := by
  unfold Core.announce at he
  split at he
  · rw [hnone] at he
    cases he
  · next event _ =>
    refine publish_settled (p := p) henv hkeyed hrated hnone event ?_
    dsimp only at he
    split at he
    · exact he
    · exact he

end Emissions

/-- In every single-threaded run, a `Set` that changes the status or severity of alarms publishes
an event for each of them, and such an event is delivered to its subscribers exactly if the bus
admits two publications at once. -/
theorem nested_alarm_delivered_iff (p : Platform) (capacity limit : ℤ) (evaluator : Evaluator)
    (calls : List CoreCall) (env : Env) (henv : env.Sound) (value : StateValue) :
    let c := run (Core.call p) (newCore capacity limit evaluator) calls
    let c' := (c.set p env value).2
    (∀ id a, c'.engine.alarms.lookup id = some a →
      (∃ a', c.engine.alarms.lookup id = some a' ∧ a'.status = a.status ∧
        a'.severity = a.severity) ∨ ∃ e ∈ c'.emissions, e.alarm.id = id) ∧
    ∀ e ∈ c'.emissions, e.Delivered c.bus ↔ 2 ≤ capacity := by
  intro c c'
  have hrest : c.Resting capacity := run_resting p capacity limit evaluator calls
  have hslots : c.bus.slots.items.length+1 < c.bus.slots.capacity ↔ 2 ≤ capacity := by
    rw [hrest.free,hrest.capacity,List.length_nil]
    omega
  refine ⟨(set_steady hrest.keyed hrest.rated env value).accounted,fun e he => ?_⟩
  rw [← hslots]
  unfold c' Core.set at he
  split at he
  · cases he
  · cases he
  · exact announce_settled (c := { c with store := c.store.commit (.set value), emissions := [] })
      henv hrest.keyed hrest.rated rfl _ he

section Samples

def hotCore (capacity : ℤ) : Core :=
  run (Core.call plainPlatform) (newCore capacity 16 ⟨[hotTank]⟩)
    [.engine (.registerRule none (hotTank.rule plainPlatform)),
      .subscribe .stateChanged .evaluator,.subscribe .alarmRaised (.listener 0)]

def hotEnv : Env :=
  { correlationID := "aaaaaaaa-aaaa-4aaa-8aaa-aaaaaaaaaaaa", factory := { now := 1 }
    alarmID := fun _ => .ok "first" }

end Samples

theorem hot_tank_heard :
    ∃ e ∈ ((hotCore 2).set plainPlatform hotEnv hotReading).2.emissions,
      e.alarm.id = "first" ∧ e.Delivered (hotCore 2).bus := by
  have henv : hotEnv.Sound := ⟨rfl,by decide,fun _ => rfl⟩
  obtain ⟨haccount,hdelivered⟩ := nested_alarm_delivered_iff plainPlatform 2 16 ⟨[hotTank]⟩ _ hotEnv
    henv hotReading
  obtain ⟨a,ha⟩ : ∃ a, ((hotCore 2).set plainPlatform hotEnv hotReading).2.engine.alarms.lookup
      "first" = some a := Option.isSome_iff_exists.mp (by decide +kernel)
  rcases haccount "first" a ha with ⟨a',ha',_⟩ | ⟨e,he,hid⟩
  · have hnew : (hotCore 2).engine.alarms.lookup "first" = none := by decide +kernel
    exact absurd (hnew.symm.trans ha') (by simp)
  · exact ⟨e,he,hid,(hdelivered e he).mpr (by decide)⟩

/-- On a bus that admits one publication the alarm is raised and its event refused. -/
theorem hot_tank_refused :
    let c := ((hotCore 1).set plainPlatform hotEnv hotReading).2
    (c.engine.alarms.lookup "first").map Alarm.status = some .active ∧
      (hotCore 1).bus.subscribers .alarmRaised = [.listener 0] ∧
      c.emissions.map (fun e => (e.transition,e.publication.refused,e.publication.reached)) =
        [(.raised,some errBackpressure,[])] := by
  decide +kernel

end Alarms
end AquaOS
