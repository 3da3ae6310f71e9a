import AquaOS.Installation

/-! What the threads of the installation do in any run: a worker waits for exactly the call its
poll has made, no client thread is ever inside `Reconcile` or `ExpireAcknowledged`, and so
every such call belongs to a poll and is about the pending command the poll has read. -/
namespace AquaOS

open Domain SafetyEngine Output Transition Shelly Bench

namespace Output

def Point.target : Point → Option CommandID
  | .reconcile id _ _ | .report id _ _ _ | .expireAcknowledged id _ _ | .close id _ => some id
  | _ => none

def Point.Reconciles (id : CommandID) (on : Bool) : Point → Prop
  | .reconcile id' on' _ | .report id' _ on' _ => id' = id ∧ on' = on
  | .close id' (.reconciled _) | .close id' .mismatch => id' = id
  | .emit _ _ | .returned _ => True
  | _ => False

def Point.Expires (id : CommandID) : Point → Prop
  | .expireAcknowledged id' _ _ | .close id' (.expired _) => id' = id
  | .emit _ _ | .returned _ => True
  | _ => False

variable {p : Point} {id id' : CommandID} {s : Store} {a : Answer} {e : Effect} {w : World} {i : ℕ}
  {on : Bool}

theorem Point.Reconciles.target_eq
    (h : p.Reconciles id on) (ht : p.target = some id') : id' = id := by
  cases p with
  | reconcile _ _ _ => cases ht; exact h.1
  | report _ _ _ _ => cases ht; exact h.1
  | close _ cl => cases ht; cases cl <;> first | exact h | exact h.elim
  | expireAcknowledged _ _ _ => exact h.elim
  | _ => cases ht

theorem Point.Expires.target_eq (h : p.Expires id) (ht : p.target = some id') : id' = id := by
  cases p with
  | expireAcknowledged _ _ _ => cases ht; exact h
  | close _ cl => cases ht; cases cl <;> first | exact h | exact h.elim
  | reconcile _ _ _ => exact h.elim
  | report _ _ _ _ => exact h.elim
  | _ => cases ht

theorem Steps.submitting (h : Steps s a p e) (hp : p.target = none) : e.point.target = none := by
  cases h with
  | reconciling _ _ _ _ _ _ _ => cases hp
  | reported _ _ _ _ => cases hp
  | expiring _ _ _ _ _ _ => cases hp
  | _ => rfl

theorem Steps.reconciles (h : Steps s a p e)
    (hp : p.Reconciles id on) : e.point.Reconciles id on := by
  cases h with
  | reconciling _ _ _ _ _ _ _ => exact hp
  | reported _ c _ _ =>
    dsimp only
    split_ifs <;> exact hp.1
  | expiring _ _ _ _ _ _ => exact hp.elim
  | failed _ _ _ => trivial
  | missing _ _ _ _ _ => trivial
  | unreported _ _ _ _ _ => trivial
  | closed _ _ _ _ => trivial
  | emitted _ _ => trivial
  | returned _ => trivial
  | _ => exact hp.elim

theorem Steps.expires (h : Steps s a p e) (hp : p.Expires id) : e.point.Expires id := by
  cases h with
  | expiring _ _ _ _ _ _ => exact hp
  | failed _ _ _ => trivial
  | missing _ _ _ _ _ => trivial
  | closed _ _ _ _ => trivial
  | emitted _ _ => trivial
  | returned _ => trivial
  | _ => exact hp.elim

/-- A thread outside `Reconcile` and `ExpireAcknowledged`. -/
def Thread.Submitting (t : Thread) : Prop := ∀ p, t.point = some p → p.target = none

/-- The steps of a thread lead into no `Reconcile` and no `ExpireAcknowledged`. -/
theorem step_submitting (h : (w.thread i).Submitting) (a : Answer) :
    ((w.step (.step i a)).thread i).Submitting := by
  rcases thread_step_cases w i a with hs | ⟨t,ht,_,_,hs⟩ | ⟨p,next,hp,hnext,hs⟩
  · rwa [hs]
  · rw [hs,move_thread_self]
    intro q hq
    obtain ⟨c,rfl⟩ := ht q hq
    rfl
  · rw [hs,advance_thread_self]
    intro q hq
    rw [hnext] at hq
    obtain rfl := Option.some.inj hq
    exact (step_steps w.store a p).submitting (h p hp)

theorem step_call (h : w.thread i = .call p) (a : Answer) :
    (w.step (.step i a)).thread i = .call (p.step w.store a).point := by
  rw [step_of_thread h,World.stepThread,advance_thread_self]

theorem start_self (h : (w.thread i).available = true) (op : Operation) :
    (w.step (.start i op)).thread i = op.thread := by
  rw [World.step,if_pos h,move_thread_self]

theorem start_ne (w : World) {j : ℕ} (hj : j ≠ i) (op : Operation) :
    (w.step (.start i op)).thread j = w.thread j :=
  step_thread_ne w (.start i op) hj

end Output

namespace Shelly

/-- What the worker's thread does while its poll stands at a point. -/
def Attends : PollPoint → Thread → Prop
  | .requesting _ _, t => ∃ q, t = .call q ∧ q.target = none
  | .reconciling p seen, t => ∃ q, t = .call q ∧ q.Reconciles p.id seen.status.output
  | .expiring p _ _, t => ∃ q, t = .call q ∧ q.Expires p.id
  | _, t => t.available = true

variable {pt : PollPoint} {t : Thread}

theorem attends_of_available (hpt : ¬ pt.Waiting) (h : t.available = true) : Attends pt t := by
  cases pt with
  | requesting errs next | reconciling p seen | expiring p now seen => exact absurd trivial hpt
  | _ => exact h

theorem next_not_waiting (next : Next) (errs : List Failure) : ¬ (next.point errs).Waiting := by
  cases next <;> exact id

theorem available_of_attends (h : Attends pt t)
    (hfree : ¬ pt.Waiting ∨ ∃ reply, t.point.bind Point.reply = some reply) :
    t.available = true := by
  have hcall : (∃ q, t = .call q) → pt.Waiting → t.available = true := by
    rintro ⟨q,rfl⟩ hw
    obtain ⟨reply,hr⟩ := hfree.resolve_left (not_not_intro hw)
    have hq : q.reply = some reply := hr
    simp [Thread.available,hq]
  cases pt with
  | requesting errs next | reconciling p seen | expiring p now seen =>
    obtain ⟨q,hq,_⟩ := h
    exact hcall ⟨q,hq⟩ trivial
  | _ => exact h

theorem available_target (h : t.available = true) : t.Submitting := by
  intro p hp
  obtain ⟨reply,rfl⟩ := available_point h hp
  rfl

theorem attends_step {w : World} {k : ℕ} (h : Attends pt (w.thread k)) (i : ℕ)
    (a : Answer) : Attends pt ((w.step (.step i a)).thread k) := by
  by_cases hik : k = i
  · subst hik
    cases pt with
    | requesting errs next =>
      obtain ⟨q,hq,ht⟩ := h
      exact ⟨_,step_call hq a,(step_steps w.store a q).submitting ht⟩
    | reconciling p seen =>
      obtain ⟨q,hq,hc⟩ := h
      exact ⟨_,step_call hq a,(step_steps w.store a q).reconciles hc⟩
    | expiring p now seen =>
      obtain ⟨q,hq,hc⟩ := h
      exact ⟨_,step_call hq a,(step_steps w.store a q).expires hc⟩
    | _ => exact (step_available h a k).trans h
  · rw [step_thread_ne w (.step i a) hik]
    exact h

/-- What a step of a poll asks of its thread: to start a call its point waits for, or to be
free where the point does not wait. -/
theorem PollSteps.attends {a : Adapter} {s : Site} {e : Endpoint} {reply : Option Reply}
    {eff : PollEffect} (h : PollSteps a s e reply pt eff) :
    (∃ op, eff.call = some op ∧ ¬ pt.Waiting ∧ Attends eff.point op.thread) ∨
    (eff.call = none ∧ (eff.point = pt ∨
      (¬ eff.point.Waiting ∧ (¬ pt.Waiting ∨ ∃ r, reply = some r)))) := by
  cases h with
  | requested f err next => exact .inl ⟨_,rfl,id,_,rfl,rfl⟩
  | matched seen now p hp hlive hwant => exact .inl ⟨_,rfl,id,_,rfl,rfl,rfl⟩
  | due now force seen p hp => exact .inl ⟨_,rfl,id,_,rfl,rfl⟩
  | waits p hp hr => exact .inr ⟨rfl,.inl rfl⟩
  | answered errs next r hr => exact .inr ⟨rfl,.inr ⟨next_not_waiting _ _,.inr ⟨r,hr⟩⟩⟩
  | reconciled p seen r hr herr
  | unreconciled p seen r hr herr => exact .inr ⟨rfl,.inr ⟨id,.inr ⟨r,hr⟩⟩⟩
  | expired p now seen r hr herr
  | unexpired p now seen r hr herr => exact .inr ⟨rfl,.inr ⟨id,.inr ⟨r,hr⟩⟩⟩
  | unknown f next s' err
  | marked f err next => exact .inr ⟨rfl,.inr ⟨next_not_waiting _ _,.inl id⟩⟩
  | failed p code now hp =>
    refine .inr ⟨rfl,.inr ⟨id,.inl ?_⟩⟩
    rcases hp with rfl | rfl <;> exact id
  | _ => exact .inr ⟨rfl,.inr ⟨id,.inl id⟩⟩

end Shelly

def Move.index : Move → ℕ
  | .call i _ | .serve i _ _ _ | .poll i _ => i
  | .alarm _ => 0

namespace Installation

variable {s s' : Installation} {m : Move} {k i : ℕ} {e : Endpoint} {eff : PollEffect}

@[simp] theorem apply_endpoints : (s.apply k e eff).adapter.endpoints = s.adapter.endpoints := by
  unfold apply
  dsimp only
  split_ifs <;> rfl

@[simp] theorem apply_poll_self : (s.apply k e eff).poll k = eff.point := Function.update_self _ _ _

@[simp] theorem apply_poll_ne {j : ℕ} (hj : j ≠ k) : (s.apply k e eff).poll j = s.poll j :=
  Function.update_of_ne hj _ _

/-- A poll makes no entries; where it deletes its own, none is left for its equipment. -/
theorem apply_pending {id : EquipmentID} {p : PendingCommand}
    (h : (s.apply k e eff).adapter.pending.lookup id = some p) :
    s.adapter.pending.lookup id = some p ∧ (id = e.equipmentID → eff.forgets = false) := by
  unfold apply at h
  dsimp only at h
  split_ifs at h with hf
  · have hid : id ≠ e.equipmentID := by
      rintro rfl
      simp [Adapter.forget] at h
    exact ⟨(AList.lookup_erase_ne hid).symm.trans h,fun heq => absurd heq hid⟩
  · exact ⟨h,fun _ => by simpa using hf⟩

theorem Moved.endpoints (h : Moved s m s') : s'.adapter.endpoints = s.adapter.endpoints := by
  cases h with
  | polled k x e eff he heff => exact apply_endpoints
  | _ => rfl

theorem Moved.thread (h : Moved s m s') {j : ℕ}
    (hj : j ≠ m.index) : s'.controller.world.thread j = s.controller.world.thread j := by
  cases h with
  | called i c hi => exact start_ne _ hj _
  | served i a q d hp => exact (Controller.step_stepped s.controller i a q).thread_ne hj
  | inserted i a q d c c' hp hd
  | refused i a q d c ack hp hd hack => exact step_thread_ne _ (.step i _) hj
  | polled k x e eff he heff =>
    unfold apply
    dsimp only
    cases eff.call with
    | none => rfl
    | some op => exact start_ne _ hj op
  | _ => rfl

/-- The threads of workers and clients keep to what they are for. -/
structure WorkerInv (s : Installation) : Prop where
  clients : ∀ i, s.adapter.endpoints.length ≤ i → (s.controller.world.thread i).Submitting
  workers : ∀ (k : ℕ) e, s.adapter.endpoints[k]? = some e →
    Attends (s.poll k) (s.controller.world.thread k)

theorem workerInv_step (h : WorkerInv s)
    (hn : s'.adapter.endpoints = s.adapter.endpoints) (hpoll : s'.poll = s.poll) (i : ℕ)
    (hw : s'.controller.world = s.controller.world ∨
      ∃ a, s'.controller.world = s.controller.world.step (.step i a)) : WorkerInv s' := by
  constructor
  · intro j hj
    rw [hn] at hj
    rcases hw with hw | ⟨a,hw⟩
    · rw [hw]
      exact h.clients j hj
    · rw [hw]
      by_cases hji : j = i
      · subst hji
        exact step_submitting (h.clients j hj) a
      · rw [step_thread_ne _ (.step i a) hji]
        exact h.clients j hj
  · intro k e he
    rw [hn] at he
    rw [hpoll]
    rcases hw with hw | ⟨a,hw⟩
    · rw [hw]
      exact h.workers k e he
    · rw [hw]
      exact attends_step (h.workers k e he) i a

theorem client_submitting (c : ClientCall) : c.operation.thread.Submitting := by
  cases c <;> rintro p ⟨⟩ <;> rfl

theorem lt_of_endpoint {a : Adapter} (h : a.endpoints[k]? = some e) :
    k < a.endpoints.length := (List.getElem?_eq_some_iff.mp h).1

theorem workerInv_called (h : WorkerInv s) (c : ClientCall) (hi : s.adapter.endpoints.length ≤ i) :
    WorkerInv { s with controller := s.controller.step (.start i c.operation) } := by
  constructor
  · intro j hj
    show ((s.controller.world.step (.start i c.operation)).thread j).Submitting
    by_cases hji : j = i
    · subst hji
      by_cases hav : (s.controller.world.thread j).available = true
      · rw [start_self hav]
        exact client_submitting c
      · rw [World.step,if_neg hav]
        exact h.clients j hj
    · rw [start_ne _ hji]
      exact h.clients j hj
  · intro k e he
    show Attends (s.poll k) ((s.controller.world.step (.start i c.operation)).thread k)
    have hk : k < s.adapter.endpoints.length := lt_of_endpoint he
    rw [start_ne _ (by omega : k ≠ i)]
    exact h.workers k e he

theorem apply_rests (h : eff.call = none) : (s.apply k e eff).controller = s.controller := by
  simp only [apply,h]

theorem apply_starts (h : WorkerInv s) (he : s.adapter.endpoints[k]? = some e)
    (heff : PollSteps s.adapter s.site e (s.reply k) (s.poll k) eff) {op : Operation}
    (hop : eff.call = some op) : (s.controller.world.thread k).available = true ∧
      (s.apply k e eff).controller.world = s.controller.world.move k op.thread := by
  rcases heff.attends with ⟨_,_,hfree,_⟩ | ⟨hnone,_⟩
  · have hav := available_of_attends (h.workers k e he) (.inl hfree)
    refine ⟨hav,?_⟩
    simp only [apply,hop]
    exact if_pos hav
  · rw [hop] at hnone
    cases hnone

theorem point_of_reply {r : Reply} (h : s.reply k = some r) : s.point k = some (.returned r) := by
  obtain ⟨q,hq,hr⟩ := Option.bind_eq_some_iff.mp h
  cases q with
  | returned r' => rw [hq,show r' = r from Option.some.inj hr]
  | _ => cases hr

theorem workerInv_polled (h : WorkerInv s) (he : s.adapter.endpoints[k]? = some e)
    (heff : PollSteps s.adapter s.site e (s.reply k) (s.poll k) eff) :
    WorkerInv (s.apply k e eff) := by
  have hk := lt_of_endpoint he
  have hat := h.workers k e he
  have hthread : (∀ j, j ≠ k →
      (s.apply k e eff).controller.world.thread j = s.controller.world.thread j) ∧
      Attends eff.point ((s.apply k e eff).controller.world.thread k) := by
    rcases heff.attends with ⟨op,hop,_,hnew⟩ | ⟨hnone,hpt⟩
    · rw [(apply_starts h he heff hop).2]
      exact ⟨fun j hj => move_thread_ne _ hj _,by rwa [move_thread_self]⟩
    · rw [apply_rests hnone]
      refine ⟨fun j _ => rfl,?_⟩
      rcases hpt with hpt | ⟨hnw,hfree⟩
      · rw [hpt]
        exact hat
      · exact attends_of_available hnw (available_of_attends hat hfree)
  constructor
  · intro j hj
    rw [apply_endpoints] at hj
    rw [hthread.1 j (by omega)]
    exact h.clients j hj
  · intro j e' he'
    rw [apply_endpoints] at he'
    by_cases hj : j = k
    · subst hj
      rw [apply_poll_self]
      exact hthread.2
    · rw [apply_poll_ne hj,hthread.1 j hj]
      exact h.workers j e' he'

theorem workerInv_moved (h : WorkerInv s) (hm : Moved s m s') : WorkerInv s' := by
  cases hm with
  | rests _ => exact h
  | alarmed c => exact ⟨h.clients,h.workers⟩
  | called i c hi => exact workerInv_called h c hi
  | served i a q d hp => exact workerInv_step h rfl rfl i (Controller.step_stepped _ i a q).world
  | inserted i a q d c c' hp hd => exact workerInv_step h rfl rfl i (.inr ⟨_,rfl⟩)
  | accepted i a q d c e hp hd he hc => exact ⟨h.clients,h.workers⟩
  | refused i a q d c ack hp hd hack => exact workerInv_step h rfl rfl i (.inr ⟨_,rfl⟩)
  | polled k x e eff he heff => exact workerInv_polled h he heff

/-- The installation before anything has happened: no call, no poll, no pending command. -/
structure Initial (s : Installation) : Prop where
  world : s.controller.world = {}
  pending : s.adapter.pending = ∅
  poll : ∀ k, s.poll k = .idle none
  dispatching : ∀ i, s.dispatching i = none
  events : s.events = []

theorem Initial.workerInv (h : Initial s) : WorkerInv s := by
  constructor
  · intro i _ p hp
    rw [h.world] at hp
    cases hp
  · intro k e _
    rw [h.world,h.poll]
    rfl

/-- A `Reconcile` or `ExpireAcknowledged` call belongs to a poll and is about the pending
command it has read. -/
theorem WorkerInv.target (h : WorkerInv s) {p : Point} {id : CommandID} (hp : s.point i = some p)
    (ht : p.target = some id) : ∃ e pc, s.adapter.endpoints[i]? = some e ∧ pc.id = id ∧
      ((∃ seen, s.poll i = .reconciling pc seen ∧ p.Reconciles pc.id seen.status.output) ∨
        ∃ now seen, s.poll i = .expiring pc now seen ∧ p.Expires pc.id) := by
  have hlt : i < s.adapter.endpoints.length := by
    by_contra hge
    have hnone := h.clients i (not_lt.mp hge) p hp
    rw [hnone] at ht
    cases ht
  have he : s.adapter.endpoints[i]? = some s.adapter.endpoints[i] := List.getElem?_eq_getElem hlt
  have hat := h.workers i _ he
  have hsome : ¬ (s.controller.world.thread i).Submitting := by
    intro hsub
    rw [hsub p hp] at ht
    cases ht
  have hcall : ∀ q, s.controller.world.thread i = .call q → q = p := by
    intro q hq
    unfold point at hp
    rw [hq] at hp
    exact Option.some.inj hp
  cases hpt : s.poll i with
  | requesting errs next =>
    rw [hpt] at hat
    obtain ⟨q,hq,hnone⟩ := hat
    obtain rfl := hcall q hq
    rw [hnone] at ht
    cases ht
  | reconciling pc seen =>
    rw [hpt] at hat
    obtain ⟨q,hq,hc⟩ := hat
    obtain rfl := hcall q hq
    exact ⟨_,pc,he,(hc.target_eq ht).symm,.inl ⟨seen,rfl,hc⟩⟩
  | expiring pc now seen =>
    rw [hpt] at hat
    obtain ⟨q,hq,hc⟩ := hat
    obtain rfl := hcall q hq
    exact ⟨_,pc,he,(hc.target_eq ht).symm,.inr ⟨now,seen,rfl,hc⟩⟩
  | _ =>
    rw [hpt] at hat
    exact absurd (available_target hat) hsome

def outletRig : Installation :=
  { controller := { engine := outletEngine }, adapter := ⟨[outletSwitch],by simp,∅,∅⟩
    site := ⟨outletCoordinator,outletAlarms⟩ }

theorem outletRig_initial : Initial outletRig := ⟨rfl,rfl,fun _ => rfl,fun _ => rfl,rfl⟩

def switchedOn : SwitchStatus :=
  { source := "switch", output := true, apower := 5, voltage := 230, current := 1, errors := [] }

def serves (i n : ℕ) : List Move := List.replicate n (.serve i {} {} { now := newYear })

def polls (k n : ℕ) : List Move :=
  List.replicate n (.poll k { status := .ok switchedOn, now := newYear, alarm := outletAnswer })

def lampSubmission : List Move := .call 1 (.submit lampOn)::serves 1 15

def lampConfirmed : List Move := lampSubmission++polls 0 8++serves 0 4++polls 0 2

end Installation
end AquaOS
