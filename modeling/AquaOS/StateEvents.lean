import AquaOS.StateStore
import AquaOS.EventBus

/-! The order of state events. `Set` commits under the lock of the store and publishes after it has
been released, so calls that commit one key after the other may publish the other way round. -/
namespace AquaOS
namespace CanonicalState

open Domain Events Transition

/-- The store, the values that calls have committed and not yet published, and the events
published so far, newest first. -/
structure Writers where
  store : StateManager := {}
  calls : ℕ → Option StateValue := fun _ => none
  events : List (Event StateValue) := []

/-- What the publication of a call meets: the correlation of its context, the factory, the encoder
and the publisher. -/
structure Outlet where
  correlationID : CorrelationID := ""
  factory : Factory
  encoded : Option Failure := none
  refused : Option Failure := none

inductive WriterStep
  | commit (i : ℕ) (ctx : Option Failure) (value : StateValue)
  | publish (i : ℕ) (outlet : Outlet)

def Outlet.event (outlet : Outlet) (value : StateValue) : Option (Event StateValue) :=
  match outlet.factory.new outlet.encoded "state" .stateChanged .info value outlet.correlationID with
  | .error _ => none
  | .ok event => if outlet.refused.isSome then none else some event

/-- `Set` of call `i` up to the end of its lock section. -/
def Writers.commit (w : Writers) (i : ℕ) (ctx : Option Failure) (value : StateValue) : Writers :=
  if w.calls i = none ∧ ctx = none ∧ value.validate = none then
    { w with
      store := w.store.commit (.set value)
      calls := Function.update w.calls i
        (some { value with revision := (w.store.revision+1) % 2^64 }) }
  else w

/-- The rest of it, after which the call has returned. -/
def Writers.publish (w : Writers) (i : ℕ) (outlet : Outlet) : Writers :=
  match w.calls i with
  | none => w
  | some value =>
    { w with
      calls := Function.update w.calls i none
      events := (outlet.event value).toList++w.events }

def Writers.step (w : Writers) : WriterStep → Writers
  | .commit i ctx value => w.commit i ctx value
  | .publish i outlet => w.publish i outlet

/-- No other call has committed the key and not yet published it, and the revision does not
wrap. -/
def Alone (w : Writers) : WriterStep → Prop
  | .commit _ _ value =>
    w.store.revision+1 < 2^64 ∧ ∀ i v, w.calls i = some v → v.key ≠ value.key
  | .publish _ _ => True

/-- The clock reads, the payload encodes, the correlation is valid and the publisher accepts. -/
def Accepted (_ : Writers) : WriterStep → Prop
  | .commit _ _ _ => True
  | .publish _ outlet =>
    outlet.factory.now ≠ 0 ∧ outlet.encoded = none ∧ outlet.refused = none ∧
      ∃ id, outlet.factory.correlation outlet.correlationID = .ok id ∧ validateID id = none

def Writers.history (w : Writers) (key : Key) : List StateValue :=
  (w.events.map Event.payload).filter (·.key = key)

def pendingKey (call : Option StateValue) : Option Key := call.map StateValue.key

/-- A call that is about to publish holds the stored value, which is newer than all events of its
key. -/
structure Writers.Ordered (w : Writers) : Prop where
  exclusive : Exclusive pendingKey w.calls
  stored : ∀ i v, w.calls i = some v →
    w.store.values.lookup v.key = some v ∧ v.revision ≤ w.store.revision
  newer : ∀ i v, w.calls i = some v → ∀ e ∈ w.history v.key, e.revision < v.revision
  bounded : ∀ e ∈ w.events, e.payload.revision ≤ w.store.revision
  increasing : ∀ key, ((w.history key).map StateValue.revision).Pairwise (· > ·)

section Steps

variable {w : Writers} {outlet : Outlet} {value v : StateValue} {i : ℕ}

theorem event_payload {event : Event StateValue}
    (h : outlet.event value = some event) : event.payload = value := by
  unfold Outlet.event at h
  split at h
  · cases h
  · next event' hnew =>
    split_ifs at h
    obtain rfl := Option.some.inj h
    exact (new_valid hnew).2

theorem accepted_event (h : Accepted w (.publish i outlet))
    (v : StateValue) : ∃ event, outlet.event v = some event := by
  obtain ⟨hnow,hencoded,hrefused,id,hgiven,hid⟩ := h
  obtain ⟨event,hnew,_⟩ := new_ok outlet.factory v hnow (show "state" ≠ "" by decide)
    (show EventType.stateChanged ≠ .other "" by decide)
    (show Alarms.Severity.info.rank ≠ 0 by decide) hgiven hid
  exact ⟨event,by simp [Outlet.event,hencoded,hnew,hrefused]⟩

theorem mem_history {key : Key} :
    v ∈ w.history key ↔ (∃ e ∈ w.events, e.payload = v) ∧ v.key = key := by
  simp [Writers.history]

theorem commit_ordered (h : w.Ordered) {ctx : Option Failure}
    (ha : Alone w (.commit i ctx value)) : (w.commit i ctx value).Ordered := by
  unfold Writers.commit
  split_ifs with hc
  · obtain ⟨hroom,hfree⟩ := ha
    have hrevision : (w.store.revision+1) % 2^64 = w.store.revision+1 := Nat.mod_eq_of_lt hroom
    refine ⟨?_,?_,?_,?_,h.increasing⟩
    · refine h.exclusive.enter i fun k hk j _ hj => ?_
      obtain ⟨v,hv,hkey⟩ := Option.map_eq_some_iff.mp hj
      exact hfree j v hv (hkey.trans (Option.some.inj hk).symm)
    · intro j v hv
      rcases update_cases hv with ⟨_,hv⟩ | hv
      · obtain rfl := Option.some.inj hv
        exact ⟨AList.lookup_insert _,le_rfl⟩
      · obtain ⟨hlook,hle⟩ := h.stored j v hv
        rw [StateManager.commit,Table.lookup_insert_ite,if_neg (hfree j v hv),hrevision]
        exact ⟨hlook,hle.trans (Nat.le_succ _)⟩
    · intro j v hv e he
      rcases update_cases hv with ⟨_,hv⟩ | hv
      · obtain rfl := Option.some.inj hv
        obtain ⟨⟨event,hmem,rfl⟩,_⟩ := mem_history.mp he
        exact (Nat.lt_succ_of_le (h.bounded event hmem)).trans_eq hrevision.symm
      · exact h.newer j v hv e he
    · intro e he
      refine (h.bounded e he).trans ?_
      rw [StateManager.commit,hrevision]
      exact Nat.le_succ _
  · exact h

/-- What a publication adds to the history of a key: nothing, or the value of the call. -/
theorem publish_history (hv : w.calls i = some v) (outlet : Outlet) (key : Key) :
    (w.publish i outlet).history key = w.history key ∨
    (v.key = key ∧ (w.publish i outlet).history key = v::w.history key) := by
  simp only [Writers.publish,hv,Writers.history]
  cases he : outlet.event v with
  | none => exact .inl rfl
  | some event =>
    have hpayload := event_payload he
    by_cases hkey : v.key = key
    · exact .inr ⟨hkey,by simp [hpayload,hkey]⟩
    · exact .inl (by simp [hpayload,hkey])

theorem publish_ordered (h : w.Ordered) (i : ℕ) (outlet : Outlet) :
    (w.publish i outlet).Ordered := by
  cases hv : w.calls i with
  | none =>
    rw [show w.publish i outlet = w by simp [Writers.publish,hv]]
    exact h
  | some v =>
    have hpub : w.publish i outlet = { w with
        calls := Function.update w.calls i none
        events := (outlet.event v).toList++w.events } := by
      simp only [Writers.publish,hv]
    have hother : ∀ j v', (w.publish i outlet).calls j = some v' → w.calls j = some v' ∧ j ≠ i := by
      intro j v' hv'
      rw [hpub] at hv'
      by_cases hj : j = i
      · simp [hj] at hv'
      · exact ⟨by simpa [Function.update_of_ne hj] using hv',hj⟩
    refine ⟨?_,fun j v' hv' => ?_,fun j v' hv' e he => ?_,fun e he => ?_,fun key => ?_⟩
    · rw [hpub]
      exact h.exclusive.leave i rfl
    · rw [hpub]
      exact h.stored j v' (hother j v' hv').1
    · obtain ⟨hv',hj⟩ := hother j v' hv'
      rcases publish_history hv outlet v'.key with hsame | ⟨hkey,_⟩
      · rw [hsame] at he
        exact h.newer j v' hv' e he
      · refine absurd (h.exclusive j i v'.key ?_ ?_) hj
        · simp [pendingKey,hv']
        · simp [pendingKey,hv,hkey]
    · rw [hpub] at he ⊢
      rcases List.mem_append.mp he with he | he
      · rw [event_payload (Option.mem_toList.mp he)]
        exact (h.stored i v hv).2
      · exact h.bounded e he
    · rcases publish_history hv outlet key with hsame | ⟨rfl,hcons⟩
      · rw [hsame]
        exact h.increasing key
      · rw [hcons,List.map_cons,List.pairwise_cons]
        refine ⟨fun n hn => ?_,h.increasing _⟩
        obtain ⟨e,he,rfl⟩ := List.mem_map.mp hn
        exact h.newer i v hv e he

theorem step_ordered (h : w.Ordered) (s : WriterStep) (ha : Alone w s) : (w.step s).Ordered := by
  cases s with
  | commit i ctx value => exact commit_ordered h ha
  | publish i outlet => exact publish_ordered h i outlet

/-- A call that publishes what it has committed leaves the others as they were. -/
theorem commit_publish_calls (hi : w.calls i = none) (ctx : Option Failure)
    (value : StateValue) (outlet : Outlet) :
    ((w.step (.commit i ctx value)).step (.publish i outlet)).calls = w.calls := by
  simp only [Writers.step,Writers.commit]
  split_ifs with hc
  · simp [Writers.publish,← hi]
  · simp [Writers.publish,hi]

/-- A key that no call is about to publish was last published as it is stored. -/
def Writers.Current (w : Writers) : Prop :=
  ∀ key, (∀ i v, w.calls i = some v → v.key ≠ key) →
    (w.history key).head? = w.store.values.lookup key

theorem step_current (h : w.Ordered) (hc : w.Current) (s : WriterStep) (ha : Accepted w s) :
    (w.step s).Current := by
  cases s with
  | commit i ctx value =>
    unfold Writers.step Writers.commit
    dsimp only
    split_ifs with hcommit
    · intro key hfree
      have hkey : value.key ≠ key :=
        hfree i { value with revision := (w.store.revision+1) % 2^64 }
          (Function.update_self i _ w.calls)
      rw [StateManager.commit,Table.lookup_insert_ite,if_neg fun heq => hkey heq.symm]
      refine hc key fun j v hv => hfree j v ?_
      have hj : j ≠ i := by
        rintro rfl
        rw [hcommit.1] at hv
        cases hv
      exact (Function.update_of_ne hj _ _).trans hv
    · exact hc
  | publish i outlet =>
    cases hv : w.calls i with
    | none =>
      rw [show w.step (.publish i outlet) = w by simp [Writers.step,Writers.publish,hv]]
      exact hc
    | some v =>
      obtain ⟨event,he⟩ := accepted_event ha v
      intro key hfree
      have hstore : (w.step (.publish i outlet)).store = w.store := by
        simp [Writers.step,Writers.publish,hv]
      have hhistory : (w.step (.publish i outlet)).history key =
          if v.key = key then v::w.history key else w.history key := by
        simp only [Writers.step,Writers.publish,hv,Writers.history,he]
        split_ifs with hkey <;> simp [event_payload he,hkey]
      rw [hstore,hhistory]
      split_ifs with hkey
      · rw [← hkey]
        exact (h.stored i v hv).1.symm
      · refine hc key fun j v' hv' => ?_
        by_cases hj : j = i
        · rw [hj,hv] at hv'
          rw [← Option.some.inj hv']
          exact hkey
        · refine hfree j v' ?_
          simpa [Writers.step,Writers.publish,hv,Function.update_of_ne hj] using hv'

end Steps

/-- If no call commits a key while another is about to publish it, the events of every key are
published in increasing order of revision; and if all publications succeed, then once all calls have
returned the last event of a key is the value the store holds. -/
theorem events_in_commit_order (steps : List WriterStep)
    (halone : Guarded Writers.step Alone {} steps) : let w := run Writers.step {} steps
    (∀ key, ((w.history key).map StateValue.revision).Pairwise (· > ·)) ∧
    (Guarded Writers.step Accepted {} steps → (∀ i, w.calls i = none) →
      ∀ key, (w.history key).head? = w.store.values.lookup key) := by
  intro w
  have hempty : Writers.Ordered {} := by
    refine ⟨?_,?_,?_,?_,?_⟩ <;> simp [Exclusive,pendingKey,Writers.history]
  have hstep : ∀ (w : Writers) s, w.Ordered → Alone w s → (w.step s).Ordered :=
    fun w s hw ha => step_ordered hw s ha
  refine ⟨(invariant_run hstep hempty halone).increasing,fun haccepted hreturned key => ?_⟩
  have hcurrent : ∀ (w : Writers) s, w.Current → (Alone w s ∧ w.Ordered) ∧ Accepted w s →
      (w.step s).Current := fun w s hw hg => step_current hg.1.2 hw s hg.2
  have hstart : Writers.Current {} := fun key _ => by simp [Writers.history]
  have hguarded := (guarded_and_invariant hstep hempty halone).and haccepted
  refine invariant_run hcurrent hstart hguarded key fun i v hv => ?_
  rw [hreturned i] at hv
  cases hv

def busyOutlet : Outlet :=
  { correlationID := "aaaaaaaa-aaaa-4aaa-8aaa-aaaaaaaaaaaa", factory := { now := 1 } }

theorem queued_writers_in_order :
    let w := run Writers.step {} [.commit 0 none (reportedSwitch true),.publish 0 busyOutlet,
      .commit 1 none (reportedSwitch false),.publish 1 busyOutlet]
    ((w.history (reportedSwitch true).key).map StateValue.revision).Pairwise (· > ·) ∧
      (w.history (reportedSwitch true).key).head? =
        w.store.values.lookup (reportedSwitch true).key := by
  have hfirst : ((({} : Writers).step (.commit 0 none (reportedSwitch true))).step
      (.publish 0 busyOutlet)).calls = fun _ => none := commit_publish_calls rfl none _ busyOutlet
  have hsecond := commit_publish_calls (i := 1) (congrFun hfirst 1) none (reportedSwitch false)
    busyOutlet
  have houtlet : ∀ w i, Accepted w (.publish i busyOutlet) := fun w i =>
    ⟨by decide,rfl,rfl,"aaaaaaaa-aaaa-4aaa-8aaa-aaaaaaaaaaaa",rfl,by decide +kernel⟩
  obtain ⟨horder,hlast⟩ := events_in_commit_order
    [.commit 0 none (reportedSwitch true),.publish 0 busyOutlet,
      .commit 1 none (reportedSwitch false),.publish 1 busyOutlet]
    ⟨⟨by decide +kernel,by simp⟩,trivial,⟨by decide +kernel,fun i v hv => by simp [hfirst] at hv⟩,
      trivial,trivial⟩
  exact ⟨horder _,hlast ⟨trivial,houtlet _ _,trivial,houtlet _ _,trivial⟩
    (congrFun (hsecond.trans hfirst)) _⟩

/-- The second writer publishes first, and the last event is the value it has overwritten. -/
theorem overtaken_writer_published_last :
    let w := run Writers.step {} [.commit 0 none (reportedSwitch true),
      .commit 1 none (reportedSwitch false),.publish 1 busyOutlet,.publish 0 busyOutlet]
    w.calls 0 = none ∧ w.calls 1 = none ∧
      (w.history (reportedSwitch true).key).map (fun v => (v.revision,v.value.boolean)) =
        [(1,some true),(2,some false)] ∧
      (w.store.values.lookup (reportedSwitch true).key).map
        (fun v => (v.revision,v.value.boolean)) = some (2,some false) := by
  decide +kernel

end CanonicalState
end AquaOS
