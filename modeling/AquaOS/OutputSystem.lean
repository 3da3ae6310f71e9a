import AquaOS.Output
import AquaOS.Transition

/-! Any number of calls on one command service, interleaved step by step. The world keeps
the store, what every thread is doing, and the acts of all threads from the newest on. -/
namespace AquaOS
namespace Output

open Domain SafetyEngine Transition

/-- A thread between or inside calls. `RunWatchdogs` is a loop around `Submit` with the
actions still to be submitted and the results so far. -/
inductive Thread
  | idle
  | call (p : Point)
  | checking (ttl : ℤ)
  | looping (ttl : ℤ) (actions : List WatchdogAction) (results : List (Option Result))
  | acting (ttl : ℤ) (actions : List WatchdogAction) (results : List (Option Result)) (p : Point)
  | finished (results : List (Option Result)) (err : Option Failure)

def Thread.point : Thread → Option Point
  | .call p | .acting _ _ _ p => some p
  | _ => none

def Point.reply : Point → Option Reply
  | .returned reply => some reply
  | _ => none

def Thread.available : Thread → Bool
  | .idle | .finished _ _ => true
  | .call p => p.reply.isSome
  | _ => false

inductive Operation
  | submit (c : Command)
  | reconcile (id : CommandID) (reportedOn : Bool) (observedAt : ℤ)
  | expireAcknowledged (id : CommandID) (reason : String) (observedAt : ℤ)
  | get (id : CommandID)
  | runWatchdogs (ttl : ℤ)

def Operation.thread : Operation → Thread
  | .submit c => .call (.submit c)
  | .reconcile id reportedOn observedAt => .call (.reconcile id reportedOn observedAt)
  | .expireAcknowledged id reason observedAt => .call (.expireAcknowledged id reason observedAt)
  | .get id => .call (.get id)
  | .runWatchdogs ttl => .checking ttl

def watchdogCommand (action : WatchdogAction) (id : CommandID) (correlationID : CorrelationID)
    (ttl : ℤ) : Command :=
  { id := id, idempotencyKey := "watchdog/"++id, correlationID := correlationID
    equipmentID := action.equipmentID, requester := "safety-watchdog"
    issuedAt := action.observedAt, expiresAt := action.observedAt+ttl, on := action.on }

/-- `RunWatchdogs` up to its loop. -/
def checkStep (ttl : ℤ) (a : Answer) : Thread :=
  if ttl ≤ 0 then .finished [] (some (.message "watchdog command TTL must be positive"))
  else
    match a.actions with
    | .error err => .finished [] (some err)
    | .ok actions => .looping ttl actions []

/-- The head of the loop: the next action becomes a command with fresh identifiers. -/
def loopStep (ttl : ℤ) (results : List (Option Result)) (a : Answer) :
    List WatchdogAction → Thread
  | [] => .finished results none
  | action::actions =>
    match a.commandID, a.correlationID with
    | .error err, _ | .ok _, .error err => .finished results (some err)
    | .ok id, .ok correlationID =>
      .acting ttl actions results (.submit (watchdogCommand action id correlationID ttl))

/-- The end of one turn of the loop: the first error ends it. -/
def turnStep (ttl : ℤ) (actions : List WatchdogAction) (results : List (Option Result))
    (reply : Reply) : Thread :=
  match reply.err with
  | some err => .finished (results++[reply.result]) (some err)
  | none => .looping ttl actions (results++[reply.result])

/-- What all threads share, and what each of them does. -/
structure World where
  store : Store := {}
  thread : ℕ → Thread := fun _ => .idle
  log : List Act := []

def World.move (w : World) (i : ℕ) (t : Thread) : World :=
  { w with thread := Function.update w.thread i t }

/-- A step of the thread inside its call; `next` puts the point it reaches back. -/
def World.advance (w : World) (i : ℕ) (e : Effect) (next : Point → Thread) : World :=
  ⟨e.store,Function.update w.thread i (next e.point),e.act.toList++w.log⟩

variable {i j : ℕ} {w : World} {condition : World → ℕ → Point → Prop} {Inv : World → Prop}

@[simp] theorem move_thread_self (w : World) (i : ℕ) (t : Thread) : (w.move i t).thread i = t :=
  Function.update_self _ _ _
theorem move_thread_ne (w : World) (hj : j ≠ i) (t : Thread) :
    (w.move i t).thread j = w.thread j := Function.update_of_ne hj _ _
@[simp] theorem advance_thread_self (w : World) (i : ℕ) (e : Effect) (next : Point → Thread) :
    (w.advance i e next).thread i = next e.point := Function.update_self _ _ _
theorem advance_thread_ne (w : World) {i j : ℕ} (hj : j ≠ i) (e : Effect) (next : Point → Thread) :
    (w.advance i e next).thread j = w.thread j := Function.update_of_ne hj _ _

inductive Label
  | start (i : ℕ) (op : Operation)
  | step (i : ℕ) (a : Answer)

def World.stepThread (w : World) (i : ℕ) (a : Answer) : Thread → World
  | .idle | .finished _ _ => w
  | .call p => w.advance i (p.step w.store a) .call
  | .checking ttl => w.move i (checkStep ttl a)
  | .looping ttl actions results => w.move i (loopStep ttl results a actions)
  | .acting ttl actions results p =>
    match p.reply with
    | some reply => w.move i (turnStep ttl actions results reply)
    | none => w.advance i (p.step w.store a) (.acting ttl actions results)

def World.step (w : World) : Label → World
  | .start i op => if (w.thread i).available then w.move i op.thread else w
  | .step i a => w.stepThread i a (w.thread i)

theorem step_of_thread {t : Thread} (ht : w.thread i = t) (a : Answer) :
    w.step (.step i a) = w.stepThread i a t := by
  rw [World.step,ht]

def Point.Entry : Point → Prop
  | .submit _ | .reconcile _ _ _ | .expireAcknowledged _ _ _ | .get _ => True
  | _ => False

/-- A thread outside its calls, or at the very start of one. -/
def Thread.Outside (t : Thread) : Prop := ∀ p, t.point = some p → p.Entry

theorem operation_outside (op : Operation) : op.thread.Outside := by
  cases op <;> intro p hp <;> cases hp <;> trivial

/-- A thread at the very start of a submission, or outside its calls. -/
def Thread.Submits (t : Thread) : Prop := ∀ p, t.point = some p → ∃ c, p = .submit c

theorem Thread.Submits.outside {t : Thread} (h : t.Submits) : t.Outside := by
  intro p hp
  obtain ⟨c,rfl⟩ := h p hp
  trivial

theorem checkStep_submits (ttl : ℤ) (a : Answer) : (checkStep ttl a).Submits := by
  unfold checkStep
  split_ifs
  · rintro p ⟨⟩
  · cases a.actions <;> rintro p ⟨⟩

theorem loopStep_submits (ttl : ℤ) (results : List (Option Result)) (a : Answer)
    (actions : List WatchdogAction) : (loopStep ttl results a actions).Submits := by
  cases actions with
  | nil => rintro p ⟨⟩
  | cons action actions =>
    unfold loopStep
    cases a.commandID with
    | error err => rintro p ⟨⟩
    | ok id =>
      cases a.correlationID with
      | error err => rintro p ⟨⟩
      | ok correlationID => rintro p ⟨⟩; exact ⟨_,rfl⟩

theorem turnStep_submits (ttl : ℤ) (actions : List WatchdogAction) (results : List (Option Result))
    (reply : Reply) : (turnStep ttl actions results reply).Submits := by
  unfold turnStep
  cases reply.err <;> rintro p ⟨⟩

/-- All a step of a thread can do: nothing, move while no call is under way, or run one step of
its call. -/
theorem thread_step_cases (w : World) (i : ℕ) (a : Answer) : w.step (.step i a) = w ∨
    (∃ t, Thread.Submits t ∧ (w.thread i).available = false ∧
      (∀ q, (w.thread i).point = some q → ∃ reply, q = .returned reply) ∧
      w.step (.step i a) = w.move i t) ∨
    ∃ p next, (w.thread i).point = some p ∧ (∀ q, (next q).point = some q) ∧
      w.step (.step i a) = w.advance i (p.step w.store a) next := by
  cases ht : w.thread i with
  | idle | finished results err => exact .inl (step_of_thread ht a)
  | call p => exact .inr (.inr ⟨p,.call,rfl,fun _ => rfl,step_of_thread ht a⟩)
  | checking ttl =>
    exact .inr (.inl ⟨_,checkStep_submits ttl a,rfl,fun q hq => (nomatch hq),step_of_thread ht a⟩)
  | looping ttl actions results =>
    exact .inr (.inl ⟨_,loopStep_submits ttl results a actions,rfl,fun q hq => (nomatch hq),
      step_of_thread ht a⟩)
  | acting ttl actions results p =>
    cases hp : p.reply with
    | some reply =>
      refine .inr (.inl ⟨_,turnStep_submits ttl actions results reply,rfl,fun q hq => ?_,?_⟩)
      · obtain rfl : p = q := Option.some.inj hq
        cases p with
        | returned reply => exact ⟨reply,rfl⟩
        | _ => cases hp
      · rw [step_of_thread ht,World.stepThread,hp]
    | none =>
      refine .inr (.inr ⟨p,.acting ttl actions results,rfl,fun _ => rfl,?_⟩)
      rw [step_of_thread ht,World.stepThread,hp]

/-- All a step of the world can do: nothing, move a thread outside its calls, or run one
step of one call. -/
theorem step_cases (w : World) (l : Label) : w.step l = w ∨
    (∃ i t, Thread.Outside t ∧ w.step l = w.move i t) ∨
    ∃ i a p next, l = .step i a ∧ (w.thread i).point = some p ∧ (∀ q, (next q).point = some q) ∧
      w.step l = w.advance i (p.step w.store a) next := by
  cases l with
  | start i op =>
    by_cases h : (w.thread i).available
    · exact .inr (.inl ⟨i,_,operation_outside op,if_pos h⟩)
    · exact .inl (if_neg h)
  | step i a =>
    rcases thread_step_cases w i a with hs | ⟨t,ht,_,_,hs⟩ | ⟨p,next,hp,hnext,hs⟩
    · exact .inl hs
    · exact .inr (.inl ⟨i,t,ht.outside,hs⟩)
    · exact .inr (.inr ⟨i,a,p,next,rfl,hp,hnext,hs⟩)

/-- The guards of single steps: a condition on the world, the thread and its point. -/
def AtPoint (condition : World → ℕ → Point → Prop) (w : World) : Label → Prop
  | .start _ _ => True
  | .step i _ => ∀ p ∈ (w.thread i).point, condition w i p

instance {condition : World → ℕ → Point → Prop} [∀ w i p, Decidable (condition w i p)]
    (w : World) : (l : Label) → Decidable (AtPoint condition w l)
  | .start _ _ => .isTrue trivial
  | .step i _ => inferInstanceAs (Decidable (∀ p ∈ (w.thread i).point, condition w i p))

def Point.records : Point → Option Command
  | .record c _ => some c
  | _ => none

/-- A command is recorded under an ID that holds no record. -/
def FreshID (w : World) (_ : ℕ) (p : Point) : Prop :=
  ∀ c ∈ p.records, w.store.results.lookup c.id = none

instance (w : World) (i : ℕ) (p : Point) : Decidable (FreshID w i p) :=
  inferInstanceAs (Decidable (∀ c ∈ p.records, w.store.results.lookup c.id = none))

/-- One step of the system: an invariant needs one lemma for threads outside their calls and
one for the steps of a call. -/
theorem system_step (hmove : ∀ w i t, Inv w → Thread.Outside t → Inv (w.move i t))
    (hcall : ∀ w i a p e next, Inv w → (w.thread i).point = some p → condition w i p →
      Steps w.store a p e → (∀ q, (next q).point = some q) → Inv (w.advance i e next))
    {l : Label} (h : Inv w) (hl : AtPoint condition w l) : Inv (w.step l) := by
  rcases step_cases w l with hs | ⟨i,t,ht,hs⟩ | ⟨i,a,p,next,rfl,hp,hnext,hs⟩
  · rwa [hs]
  · rw [hs]; exact hmove w i t h ht
  · rw [hs]; exact hcall w i a p _ next h hp (hl p hp) (step_steps w.store a p) hnext

theorem system_invariant (hmove : ∀ w i t, Inv w → Thread.Outside t → Inv (w.move i t))
    (hcall : ∀ w i a p e next, Inv w → (w.thread i).point = some p → condition w i p →
      Steps w.store a p e → (∀ q, (next q).point = some q) → Inv (w.advance i e next))
    {ls : List Label} (hw : Inv w) (hg : Guarded World.step (AtPoint condition) w ls) :
    Inv (run World.step w ls) :=
  invariant_run (fun _ _ h hl => system_step hmove hcall h hl) hw hg

/-- What a thread claims at its point, as a key and what it relies on there. -/
def Thread.window {K X : Type} (f : Point → Option (K × X)) (t : Thread) : Option K :=
  (t.point.bind f).map Prod.fst

section Windows

variable {K X : Type} {f : Point → Option (K × X)} {t : Thread}

theorem window_of_point {p : Point} {k : K} {x : X} (hp : t.point = some p)
    (h : f p = some (k,x)) : t.window f = some k := by
  simp [Thread.window,hp,h]

theorem point_of_window {k : K} (h : t.window f = some k) :
    ∃ p x, t.point = some p ∧ f p = some (k,x) := by
  unfold Thread.window at h
  cases hp : t.point with
  | none => simp [hp] at h
  | some p =>
    cases hf : f p with
    | none => simp [hp,hf] at h
    | some kx =>
      obtain ⟨k',x⟩ := kx
      obtain rfl : k' = k := by simpa [hp,hf] using h
      exact ⟨p,x,rfl,hf⟩

theorem outside_window (hf : ∀ p, p.Entry → f p = none) (h : t.Outside) : t.window f = none := by
  unfold Thread.window
  cases hp : t.point with
  | none => rfl
  | some p => simp [hf p (h p hp)]

end Windows

variable {w : World} {i j : ℕ} {p : Point} {ls : List Label} {s : Store} {a : Answer} {e : Effect}

theorem step_point (a : Answer) (hp : (w.thread i).point = some p) (hr : p.reply = none) :
    ∃ next : Point → Thread, (∀ q, (next q).point = some q) ∧
      w.step (.step i a) = w.advance i (p.step w.store a) next := by
  cases ht : w.thread i with
  | call q =>
    obtain rfl : q = p := by simpa [ht,Thread.point] using hp
    exact ⟨.call,fun _ => rfl,step_of_thread ht a⟩
  | acting ttl actions results q =>
    obtain rfl : q = p := by simpa [ht,Thread.point] using hp
    exact ⟨.acting ttl actions results,fun _ => rfl,
      by rw [step_of_thread ht,World.stepThread,hr]⟩
  | _ => simp [ht,Thread.point] at hp

def Sequential (w : World) : Label → Prop
  | .start i _ => ∀ j, j ≠ i → (w.thread j).available = true
  | .step _ _ => True

def Alone (w : World) : Prop := ∃ i, ∀ j, j ≠ i → (w.thread j).available = true

theorem available_point {t : Thread} (h : t.available = true)
    (hp : t.point = some p) : ∃ reply, p = .returned reply := by
  cases t with
  | call q =>
    obtain rfl : q = p := by simpa [Thread.point] using hp
    cases q with
    | returned reply => exact ⟨reply,rfl⟩
    | _ => simp [Thread.available,Point.reply] at h
  | acting ttl actions results q => simp [Thread.available] at h
  | _ => simp [Thread.point] at hp

theorem step_available (h : (w.thread i).available = true) (a : Answer)
    (j : ℕ) : ((w.step (.step i a)).thread j).available = (w.thread j).available := by
  cases ht : w.thread i with
  | call p =>
    obtain ⟨reply,rfl⟩ := available_point h (by rw [ht]; rfl)
    rw [step_of_thread ht]
    by_cases hj : j = i
    · subst hj; simp [World.stepThread,Point.step,ht]
    · rw [World.stepThread,advance_thread_ne w hj]
  | idle | finished results err => rw [step_of_thread ht]; rfl
  | _ => simp [ht,Thread.available] at h

def Label.index : Label → ℕ
  | .start i _ | .step i _ => i

theorem step_thread_ne (w : World) (l : Label) (hj : j ≠ l.index) :
    (w.step l).thread j = w.thread j := by
  cases l with
  | start i op =>
    unfold World.step
    dsimp only
    split_ifs
    · exact move_thread_ne w hj _
    · rfl
  | step i a =>
    rw [step_of_thread rfl]
    cases w.thread i with
    | call p => exact advance_thread_ne w hj _ _
    | checking ttl | looping ttl actions results => exact move_thread_ne w hj _
    | acting ttl actions results p =>
      cases hp : p.reply with
      | some reply => rw [World.stepThread,hp]; exact move_thread_ne w hj _
      | none => rw [World.stepThread,hp]; exact advance_thread_ne w hj _ _
    | _ => rfl

theorem alone_step (w : World) (l : Label) (h : Alone w) (hl : Sequential w l) :
    Alone (w.step l) := by
  have hothers : (∀ j, j ≠ l.index → (w.thread j).available = true) → Alone (w.step l) :=
    fun hall => ⟨l.index,fun j hj => by rw [step_thread_ne w l hj]; exact hall j hj⟩
  cases l with
  | start i op => exact hothers hl
  | step i a =>
    obtain ⟨i₀,hi₀⟩ := h
    by_cases hi : i = i₀
    · subst hi
      exact hothers hi₀
    · exact ⟨i₀,fun j hj => by rw [step_available (hi₀ i hi)]; exact hi₀ j hj⟩

theorem alone_init : Alone {} := ⟨0,fun _ _ => rfl⟩

theorem Alone.others (h : Alone w) (hp : (w.thread i).point = some p) (hr : p.reply = none)
    (hj : j ≠ i) {q : Point} (hq : (w.thread j).point = some q) : ∃ reply, q = .returned reply := by
  obtain ⟨i₀,hi₀⟩ := h
  by_cases hi : i = i₀
  · subst hi
    exact available_point (hi₀ j hj) hq
  · obtain ⟨reply,rfl⟩ := available_point (hi₀ i hi) hp
    cases hr

theorem sequential_single (hw : ∀ j, j ≠ i → (w.thread j).available = true)
    (h : ∀ l ∈ ls, l.index = i) : Guarded World.step Sequential w ls := by
  induction ls generalizing w with
  | nil => trivial
  | cons l ls ih =>
    have hl : l.index = i := h l List.mem_cons_self
    refine ⟨?_,ih ?_ fun l' hl' => h l' (List.mem_cons_of_mem _ hl')⟩
    · cases l with
      | start i' op => exact fun j hj => hw j (hl ▸ hj)
      | step i' a => trivial
    · intro j hj
      rw [step_thread_ne w l (hl ▸ hj)]
      exact hw j hj

/-- In sequential runs a condition on the calling thread gives one on all threads. -/
theorem sequential_guard {c c' : World → ℕ → Point → Prop}
    (hc : ∀ w i p, Alone w → (w.thread i).point = some p → c w i p → c' w i p)
    (hseq : Guarded World.step Sequential {} ls) (h : Guarded World.step (AtPoint c) {} ls) :
    Guarded World.step (AtPoint c') {} ls := by
  have hboth := guarded_and_invariant (fun w l hw hl => alone_step w l hw hl.1) alone_init
    (hseq.and h)
  refine hboth.mono fun w l hl => ?_
  obtain ⟨⟨_,hl⟩,halone⟩ := hl
  cases l with
  | start i op => trivial
  | step i a => exact fun p hp => hc w i p halone hp (hl p hp)

def Act.isStored : Act → Bool
  | .stored _ _ => true
  | _ => false

/-- The writes of a step: none, a first record, or a change of a stored one. -/
inductive Writes (s : Store) (a : Answer) (p : Point) : Effect → Prop
  | nothing (e : Effect) (hs : e.store = s) (ha : ∀ act ∈ e.act, act.isStored = false) :
      Writes s a p e
  | record (c : Command) (adm : Admission) (hp : p = .record c adm) :
      Writes s a p ⟨s.record (c.initial adm a.now),.recorded c adm (c.initial adm a.now),
        some (.stored c.id (c.initial adm a.now))⟩
  | change (id : CommandID) (ch : Change) (r : Result) (next : Point)
      (hp : p.change = some (id,ch)) (hr : s.results.lookup id = some r) :
      Writes s a p ⟨s.put id (r.change ch a.now),next,some (.stored id (r.change ch a.now))⟩

theorem Steps.writes (h : Steps s a p e) : Writes s a p e := by
  cases h with
  | recorded c adm => exact .record c adm rfl
  | marked c r hr => exact .change c.id .dispatched r _ rfl hr
  | settled c st r hr => exact .change c.id (.settled st) r _ rfl hr
  | closed id cl r hr => exact .change id (.closed cl) r _ rfl hr
  | _ => exact .nothing _ rfl (by simp [Act.isStored,Effect.fail])

def Store.Keyed (s : Store) : Prop := ∀ id r, s.results.lookup id = some r → r.command.id = id

theorem Steps.keyed (h : Steps s a p e) (hs : s.Keyed) : e.store.Keyed := by
  intro id r hr
  cases h.writes with
  | nothing _ hsame _ => exact hs id r (hsame ▸ hr)
  | record c adm _ =>
    rw [record_results] at hr
    split_ifs at hr with hid
    · obtain rfl := Option.some.inj hr
      exact hid.symm
    · exact hs id r hr
  | change id' ch r' q hch hr' =>
    simp only [put_results] at hr
    split_ifs at hr with hid
    · obtain rfl := Option.some.inj hr
      exact hid ▸ hs id' r' hr'
    · exact hs id r hr

/-- One call of a thread: its start and one step per answer. -/
def Operation.labels (op : Operation) (i : ℕ) (answers : List Answer) : List Label :=
  .start i op::answers.map (.step i)

def lampOn : Command :=
  { id := "30000000-0000-4000-8000-000000000001", idempotencyKey := "lamp"
    correlationID := "40000000-0000-4000-8000-000000000001", equipmentID := outletID
    requester := "operator", issuedAt := newYear, expiresAt := newYear+hour, on := true }

example : validateCommand lampOn = none := by decide

def lampSubmitted : List Label := (Operation.submit lampOn).labels 0 (List.replicate 13 {})

def lampReconciled : List Label :=
  lampSubmitted++(Operation.reconcile lampOn.id true newYear).labels 0 (List.replicate 4 {})

end Output
end AquaOS
