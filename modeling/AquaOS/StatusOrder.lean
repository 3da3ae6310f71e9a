import AquaOS.WorkerThreads

/-! The order of `Switch.Set` and the status that confirms it. A poll reads the switch, reports
what it read, and only then looks up the pending command, so a command accepted in between can
be confirmed by a status older than itself. It cannot where no command is accepted that asks
for the state its endpoint's poll is just holding. -/
namespace AquaOS

open Domain SafetyEngine Output Transition Shelly Bench

namespace Shelly

def Next.window : Next → Option SwitchStatus
  | .look st _ => some st
  | _ => none

/-- The status a poll has read and will still compare with the pending command. -/
def PollPoint.window : PollPoint → Option SwitchStatus
  | .snapshot st _ | .report st _ _ => some st
  | .observe _ next | .mark _ _ next | .requesting _ next => next.window
  | .look seen _ => some seen.status
  | _ => none

@[simp] theorem next_window (next : Next) (errs : List Failure) :
    (next.point errs).window = next.window := by
  cases next <;> rfl

section Steps

variable {a : Adapter} {s : Site} {e : Endpoint} {reply : Option Reply} {pt : PollPoint}
  {eff : PollEffect}

/-- A status comes into the window only by being read. -/
theorem PollSteps.window (h : PollSteps a s e reply pt eff) :
    (∃ st now, eff.point = .snapshot st now ∧ eff.read = some st.output) ∨
    (eff.read = none ∧ (eff.point.window = none ∨ eff.point.window = pt.window)) := by
  cases h with
  | read st now => exact .inl ⟨st,now,rfl,rfl⟩
  | snapshot st now | reported st now r errs | failing st now r f => exact .inr ⟨rfl,.inr rfl⟩
  | unknown f next s' err => exact .inr ⟨rfl,.inr (next_window _ _)⟩
  | observed f next s' err | requested f err next => exact .inr ⟨rfl,.inr rfl⟩
  | marked f err next => exact .inr ⟨rfl,.inr (next_window _ _)⟩
  | waits p hp hr => exact .inr ⟨rfl,.inr rfl⟩
  | answered errs next r hr => exact .inr ⟨rfl,.inr (next_window _ _)⟩
  | _ => exact .inr ⟨rfl,.inl rfl⟩

/-- A poll starts `Reconcile` from the status in its window and the entry that matches it. -/
theorem PollSteps.starts_reconcile (h : PollSteps a s e reply pt eff) {p : PendingCommand}
    {seen : Seen} (hp : eff.point = .reconciling p seen) : eff.read = none ∧ (eff.point = pt ∨
      (pt.window = some seen.status ∧ a.pending.lookup e.equipmentID = some p ∧
        p.want = seen.status.output)) := by
  cases h with
  | matched seen' now p' hlook hlive hwant =>
    obtain ⟨rfl,rfl⟩ : p' = p ∧ seen' = seen := by simpa using hp
    exact ⟨rfl,.inr ⟨rfl,hlook,hwant.symm⟩⟩
  | waits pt hw hr => exact ⟨rfl,.inl rfl⟩
  | unknown f next s' err =>
    have hnw := next_not_waiting next [err]
    rw [show next.point [err] = .reconciling p seen from hp] at hnw
    exact absurd trivial hnw
  | marked f err next =>
    have hnw := next_not_waiting next err.toList
    rw [show next.point err.toList = .reconciling p seen from hp] at hnw
    exact absurd trivial hnw
  | answered errs next r hr =>
    have hnw := next_not_waiting next (errs++r.err.toList)
    rw [show next.point (errs++r.err.toList) = .reconciling p seen from hp] at hnw
    exact absurd trivial hnw
  | _ => cases hp

end Steps

end Shelly

def Event.readBy (k : ℕ) : Event → Bool
  | .read k' _ => k' = k
  | _ => false

def SetAccepted (id : CommandID) (events : List Event) : Prop := ∃ c, c.id = id ∧ .accepted c ∈ events

/-- It was accepted before the worker's last reading of its switch. Events stand newest
first. -/
def AcceptedBeforeRead (k : ℕ) (id : CommandID) (events : List Event) : Prop :=
  SetAccepted id (events.dropWhile fun ev => !ev.readBy k)

/-- Every success was stored on a status read after the command had been accepted. -/
def ConfirmedAfresh (events : List Event) : Prop :=
  ∀ later k id earlier, events = later++.succeeded k id::earlier → AcceptedBeforeRead k id earlier

variable {id : CommandID} {events : List Event}

theorem SetAccepted.cons (h : SetAccepted id events) (ev : Event) :
    SetAccepted id (ev::events) := by
  obtain ⟨c,hc,hmem⟩ := h
  exact ⟨c,hc,List.mem_cons_of_mem _ hmem⟩

/-- Only a new reading by the worker itself changes what came before its last one. -/
theorem acceptedBeforeRead_cons {k : ℕ} {ev : Event} (hev : ev.readBy k = false)
    (h : AcceptedBeforeRead k id events) : AcceptedBeforeRead k id (ev::events) := by
  unfold AcceptedBeforeRead
  rw [List.dropWhile_cons_of_pos (by simp [hev])]
  exact h

theorem acceptedBeforeRead_read {k : ℕ} (on : Bool)
    (h : SetAccepted id events) : AcceptedBeforeRead k id (.read k on::events) := by
  unfold AcceptedBeforeRead
  rw [List.dropWhile_cons_of_neg (by simp [Event.readBy])]
  exact h.cons _

theorem ConfirmedAfresh.cons (h : ConfirmedAfresh events) {ev : Event}
    (hev : ∀ k id, ev = .succeeded k id → AcceptedBeforeRead k id events) :
    ConfirmedAfresh (ev::events) := by
  intro later k id earlier heq
  cases later with
  | nil =>
    obtain ⟨rfl,rfl⟩ := List.cons.inj heq
    exact hev k id rfl
  | cons x later =>
    obtain ⟨rfl,htail⟩ := List.cons.inj heq
    exact h later k id earlier htail

namespace Installation

/-- The poll of the command's endpoint holds an earlier status that shows what the command
asks for. -/
def holdsMatch (s : Installation) (c : Command) (k : ℕ) : Bool :=
  match s.adapter.endpoints[k]?, (s.poll k).window with
  | some e, some st => e.equipmentID = c.equipmentID && st.output = c.on
  | _, _ => false

/-- No `Switch.Set` is accepted while the poll of its endpoint holds such a status. -/
def AcceptedAfresh (s : Installation) : Move → Prop
  | .serve i _ _ d =>
    ∀ c ∈ s.accepting i d, ∀ k ∈ List.range s.adapter.endpoints.length, s.holdsMatch c k = false
  | _ => True

instance (s : Installation) : (m : Move) → Decidable (s.AcceptedAfresh m)
  | .serve i _ _ d => inferInstanceAs (Decidable (∀ c ∈ s.accepting i d,
      ∀ k ∈ List.range s.adapter.endpoints.length, s.holdsMatch c k = false))
  | .call _ _ | .poll _ _ | .alarm _ => .isTrue trivial

/-- What is pending or about to be has been accepted; what could be confirmed by the status a
poll holds, and what is being confirmed, was accepted before that status was read. -/
structure OrderInv (s : Installation) : Prop where
  threads : WorkerInv s
  pending : ∀ id p, s.adapter.pending.lookup id = some p → SetAccepted p.id s.events
  dispatching : ∀ i c, s.dispatching i = some c → SetAccepted c.id s.events
  pendingWindow : ∀ (k : ℕ) e st p, s.adapter.endpoints[k]? = some e →
    (s.poll k).window = some st → s.adapter.pending.lookup e.equipmentID = some p →
    p.want = st.output → AcceptedBeforeRead k p.id s.events
  dispatchingWindow : ∀ (k : ℕ) e st i c, s.adapter.endpoints[k]? = some e →
    (s.poll k).window = some st → s.dispatching i = some c → c.equipmentID = e.equipmentID →
    c.on = st.output → AcceptedBeforeRead k c.id s.events
  reconciling : ∀ (k : ℕ) e p seen, s.adapter.endpoints[k]? = some e →
    s.poll k = .reconciling p seen → AcceptedBeforeRead k p.id s.events
  confirmed : ConfirmedAfresh s.events

variable {s : Installation}

/-- A move that changes neither the maps nor the polls, and at most notes a success. -/
theorem OrderInv.quiet {s' : Installation} (h : OrderInv s) (hw : WorkerInv s')
    (ha : s'.adapter = s.adapter) (hd : s'.dispatching = s.dispatching) (hp : s'.poll = s.poll)
    (hev : s'.events = s.events ∨ ∃ i id, s'.events = .succeeded i id::s.events ∧
      AcceptedBeforeRead i id s.events) : OrderInv s' := by
  have hacc : ∀ id, SetAccepted id s.events → SetAccepted id s'.events := by
    intro id hid
    rcases hev with hev | ⟨i,id',hev,_⟩
    · rwa [hev]
    · rw [hev]
      exact hid.cons _
  have hbefore : ∀ k id, AcceptedBeforeRead k id s.events → AcceptedBeforeRead k id s'.events := by
    intro k id hid
    rcases hev with hev | ⟨i,id',hev,_⟩
    · rwa [hev]
    · rw [hev]
      exact acceptedBeforeRead_cons rfl hid
  refine ⟨hw,?_,?_,?_,?_,?_,?_⟩
  · rw [ha]
    exact fun id p hl => hacc _ (h.pending id p hl)
  · rw [hd]
    exact fun i c hc => hacc _ (h.dispatching i c hc)
  · rw [ha,hp]
    exact fun k e st p he hst hl hwant => hbefore _ _ (h.pendingWindow k e st p he hst hl hwant)
  · rw [ha,hp,hd]
    exact fun k e st i c he hst hc heq hon =>
      hbefore _ _ (h.dispatchingWindow k e st i c he hst hc heq hon)
  · rw [ha,hp]
    exact fun k e p seen he hpt => hbefore _ _ (h.reconciling k e p seen he hpt)
  · rcases hev with hev | ⟨i,id,hev,hid⟩
    · rw [hev]
      exact h.confirmed
    · rw [hev]
      refine h.confirmed.cons fun k id' heq => ?_
      obtain ⟨rfl,rfl⟩ : i = k ∧ id = id' := by simpa using heq
      exact hid

theorem orderInv_served (h : OrderInv s) (i : ℕ) (a : Answer) (q : PolicyAnswer)
    (d : DispatchAnswer) (hp : ∀ c, s.point i ≠ some (.awaiting c)) : OrderInv { s with
      controller := s.controller.step (.step i a q)
      events := ((s.succeeding i).map (.succeeded i)).toList++s.events } := by
  refine h.quiet (workerInv_moved h.threads (.served i a q d hp)) rfl rfl rfl ?_
  cases hs : s.succeeding i with
  | none => exact .inl rfl
  | some id =>
    refine .inr ⟨i,id,rfl,?_⟩
    unfold succeeding at hs
    split at hs
    · next id' t hpt =>
      split_ifs at hs
      obtain rfl := Option.some.inj hs
      obtain ⟨e,pc,he,hid,⟨seen,hpoll,_⟩ | ⟨now,seen,_,hexp⟩⟩ := h.threads.target hpt rfl
      · exact hid ▸ h.reconciling i e pc seen he hpoll
      · exact hexp.elim
    · cases hs

/-- The lock section of `Dispatch` makes pending what was being dispatched. -/
theorem orderInv_inserted (h : OrderInv s) (i : ℕ) (a : Answer) (q : PolicyAnswer)
    (d : DispatchAnswer) (c c' : Command) (hp : s.point i = some (.awaiting c))
    (hd : s.dispatching i = some c') : OrderInv { s with
      controller := s.controller.feed i
        { a with acknowledgement := .ok ⟨true,"shelly.rpc_accepted",d.now⟩ }
      adapter := s.adapter.accept c'
      dispatching := Function.update s.dispatching i none } := by
  have hlook : ∀ id p, (s.adapter.accept c').pending.lookup id = some p →
      (id = c'.equipmentID ∧ p = ⟨c'.id,c'.on,c'.expiresAt⟩) ∨
      s.adapter.pending.lookup id = some p := by
    intro id p hl
    unfold Adapter.accept at hl
    dsimp only at hl
    rw [Table.lookup_insert_ite] at hl
    split_ifs at hl with hid
    · exact .inl ⟨hid,(Option.some.inj hl).symm⟩
    · exact .inr hl
  have hdisp : ∀ j x, Function.update s.dispatching i none j = some x → s.dispatching j = some x := by
    intro j x hx
    rcases update_cases hx with ⟨_,hn⟩ | hj
    · cases hn
    · exact hj
  refine ⟨workerInv_moved h.threads (.inserted i a q d c c' hp hd),?_,?_,?_,?_,h.reconciling,
    h.confirmed⟩
  · intro id p hl
    rcases hlook id p hl with ⟨_,rfl⟩ | hl
    · exact h.dispatching i c' hd
    · exact h.pending id p hl
  · exact fun j x hx => h.dispatching j x (hdisp j x hx)
  · intro k e st p he hst hl hwant
    rcases hlook _ p hl with ⟨hid,rfl⟩ | hl
    · exact h.dispatchingWindow k e st i c' he hst hd hid.symm hwant
    · exact h.pendingWindow k e st p he hst hl hwant
  · exact fun k e st j x he hst hx => h.dispatchingWindow k e st j x he hst (hdisp j x hx)

/-- An accepted `Switch.Set`, with no poll of its endpoint holding a matching status. -/
theorem orderInv_accepted (h : OrderInv s) (i : ℕ) (a : Answer) (q : PolicyAnswer)
    (d : DispatchAnswer) (c : Command) (e : Endpoint) (hp : s.point i = some (.awaiting c))
    (hd : s.dispatching i = none) (he : s.adapter.endpoint c.equipmentID = some e)
    (hc : s.accepting i d = some c) (hg : s.AcceptedAfresh (.serve i a q d)) : OrderInv { s with
      dispatching := Function.update s.dispatching i (some c), events := .accepted c::s.events } := by
  refine ⟨workerInv_moved h.threads (.accepted i a q d c e hp hd he hc),?_,?_,?_,?_,?_,?_⟩
  · exact fun id p hl => (h.pending id p hl).cons _
  · intro j x hx
    rcases update_cases hx with ⟨_,hsame⟩ | hj
    · obtain rfl := Option.some.inj hsame
      exact ⟨c,rfl,List.mem_cons_self⟩
    · exact (h.dispatching j x hj).cons _
  · exact fun k e' st p he' hst hl hwant =>
      acceptedBeforeRead_cons rfl (h.pendingWindow k e' st p he' hst hl hwant)
  · intro k e' st j x he' hst hx heq hon
    rcases update_cases hx with ⟨_,hsame⟩ | hj
    · obtain rfl := Option.some.inj hsame
      have hfalse := hg c hc k (List.mem_range.mpr (lt_of_endpoint he'))
      have hwin : (s.poll k).window = some st := hst
      simp [holdsMatch,show s.adapter.endpoints[k]? = some e' from he',hwin,heq,hon] at hfalse
    · exact acceptedBeforeRead_cons rfl (h.dispatchingWindow k e' st j x he' hst hj heq hon)
  · exact fun k e' p seen he' hpt => acceptedBeforeRead_cons rfl (h.reconciling k e' p seen he' hpt)
  · exact h.confirmed.cons fun k id heq => nomatch heq

theorem orderInv_polled (h : OrderInv s) (k : ℕ) (x : PollAnswer) (e : Endpoint)
    (eff : PollEffect) (he : s.adapter.endpoints[k]? = some e)
    (heff : PollSteps s.adapter s.site e (s.reply k) (s.poll k) eff) :
    OrderInv (s.apply k e eff) := by
  have hthreads := workerInv_moved h.threads (.polled k x e eff he heff)
  have hev : (s.apply k e eff).events = (eff.read.map (.read k)).toList++s.events := rfl
  have hacc : ∀ id, SetAccepted id s.events → SetAccepted id (s.apply k e eff).events := by
    intro id hid
    rw [hev]
    cases eff.read with
    | none => exact hid
    | some on => exact hid.cons _
  have hother : ∀ j id, j ≠ k → AcceptedBeforeRead j id s.events →
      AcceptedBeforeRead j id (s.apply k e eff).events := by
    intro j id hj hid
    rw [hev]
    cases eff.read with
    | none => exact hid
    | some on => exact acceptedBeforeRead_cons (by simpa [Event.readBy] using Ne.symm hj) hid
  have hself : ∀ id st, eff.point.window = some st → SetAccepted id s.events →
      ((s.poll k).window = some st → AcceptedBeforeRead k id s.events) →
      AcceptedBeforeRead k id (s.apply k e eff).events := by
    intro id st hst hid hold
    rw [hev]
    rcases heff.window with ⟨_,_,_,hread⟩ | ⟨hread,hwin⟩
    · rw [hread]
      exact acceptedBeforeRead_read _ hid
    · rw [hread]
      rcases hwin with hnone | hsame
      · rw [hnone] at hst
        cases hst
      · exact hold (hsame ▸ hst)
  refine ⟨hthreads,?_,?_,?_,?_,?_,?_⟩
  · exact fun id p hl => hacc _ (h.pending id p (apply_pending hl).1)
  · exact fun i c hc => hacc _ (h.dispatching i c hc)
  · intro j e' st p he' hst hl hwant
    rw [apply_endpoints] at he'
    have hl' := (apply_pending hl).1
    by_cases hj : j = k
    · subst hj
      rw [apply_poll_self] at hst
      exact hself _ st hst (h.pending _ p hl') fun hold => h.pendingWindow j e' st p he' hold hl' hwant
    · rw [apply_poll_ne hj] at hst
      exact hother j _ hj (h.pendingWindow j e' st p he' hst hl' hwant)
  · intro j e' st i c he' hst hc heq hon
    rw [apply_endpoints] at he'
    by_cases hj : j = k
    · subst hj
      rw [apply_poll_self] at hst
      exact hself _ st hst (h.dispatching i c hc) fun hold =>
        h.dispatchingWindow j e' st i c he' hold hc heq hon
    · rw [apply_poll_ne hj] at hst
      exact hother j _ hj (h.dispatchingWindow j e' st i c he' hst hc heq hon)
  · intro j e' p seen he' hpt
    rw [apply_endpoints] at he'
    by_cases hj : j = k
    · subst hj
      rw [apply_poll_self] at hpt
      obtain rfl := Option.mem_unique he he'
      obtain ⟨hread,hcase⟩ := heff.starts_reconcile hpt
      rw [hev,hread]
      rcases hcase with hsame | ⟨hwin,hl,hwant⟩
      · exact h.reconciling j e p seen he (hsame ▸ hpt)
      · exact h.pendingWindow j e seen.status p he hwin hl hwant
    · rw [apply_poll_ne hj] at hpt
      exact hother j _ hj (h.reconciling j e' p seen he' hpt)
  · rw [hev]
    cases eff.read with
    | none => exact h.confirmed
    | some on => exact h.confirmed.cons fun j id heq => nomatch heq

theorem orderInv_moved (s : Installation) (m : Move) (s' : Installation) (h : OrderInv s)
    (hg : s.AcceptedAfresh m) (hm : Moved s m s') : OrderInv s' := by
  have hw := workerInv_moved h.threads hm
  cases hm with
  | rests _ => exact h
  | alarmed c | called i c hi => exact h.quiet hw rfl rfl rfl (.inl rfl)
  | served i a q d hp => exact orderInv_served h i a q d hp
  | inserted i a q d c c' hp hd => exact orderInv_inserted h i a q d c c' hp hd
  | accepted i a q d c e hp hd he hc => exact orderInv_accepted h i a q d c e hp hd he hc hg
  | refused i a q d c ack hp hd hack => exact h.quiet hw rfl rfl rfl (.inl rfl)
  | polled k x e eff he heff => exact orderInv_polled h k x e eff he heff

theorem Initial.orderInv (h : Initial s) : OrderInv s := by
  refine ⟨h.workerInv,?_,?_,?_,?_,?_,?_⟩
  · intro id p hl
    rw [h.pending] at hl
    cases hl
  · intro i c hc
    rw [h.dispatching] at hc
    cases hc
  · intro k e st p _ hst
    rw [h.poll] at hst
    cases hst
  · intro k e st i c _ hst
    rw [h.poll] at hst
    cases hst
  · intro k e p seen _ hpt
    rw [h.poll] at hpt
    cases hpt
  · intro later k id earlier heq
    rw [h.events] at heq
    simp at heq

/-- In every run in which no `Switch.Set` is accepted while the poll of its endpoint holds an
unlooked-up status that shows what the command asks for, every command stored as succeeded was
accepted by the switch before the poll that confirmed it read the switch. -/
theorem success_follows_acceptance {s : Installation} (h : Initial s) (ms : List Move)
    (hg : Guarded step AcceptedAfresh s ms) : ConfirmedAfresh (run step s ms).events :=
  (invariant orderInv_moved h.orderInv hg).confirmed

theorem lamp_confirmed_by_later_status :
    Event.succeeded 0 lampOn.id ∈ (run step outletRig lampConfirmed).events ∧
    ConfirmedAfresh (run step outletRig lampConfirmed).events :=
  ⟨by decide +kernel,success_follows_acceptance outletRig_initial lampConfirmed (by decide +kernel)⟩

/-- A poll that has read the switch before the command was submitted, and reconciles it. -/
def lampOvertaken : List Move := polls 0 3++lampSubmission++polls 0 5++serves 0 4

theorem earlier_status_confirms :
    ¬ ∀ (s : Installation) (ms : List Move), Initial s → ConfirmedAfresh (run step s ms).events := by
  intro h
  have hconf := h outletRig lampOvertaken outletRig_initial
  have hev : (run step outletRig lampOvertaken).events =
      [.succeeded 0 lampOn.id,.accepted lampOn,.read 0 true] := by decide +kernel
  rw [hev] at hconf
  obtain ⟨c,_,hmem⟩ := hconf [] 0 lampOn.id _ rfl
  revert hmem
  simp [Event.readBy,List.dropWhile]

end Installation
end AquaOS
