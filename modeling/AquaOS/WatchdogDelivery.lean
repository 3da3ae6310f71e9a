import AquaOS.Controller

/-! The actions of `RunWatchdogs`. A watchdog check latches every equipment it returns an
action for, so the action is not returned again while the equipment stays on; the loop that
submits the actions ends at the first error and drops those it has not come to. -/
namespace AquaOS

open Domain EquipmentProfile SafetyEngine Output Transition

namespace Output

/-- Nothing the call meets at this point makes it return an error. -/
def Point.unhindered (s : Store) (a : Answer) : Point → Bool
  | .submit c => a.ctx.isNone &&
    match c.withIDs a with
    | .error _ => false
    | .ok c => (validateCommand c).isNone
  | .lookup c =>
    match s.lookup c with
    | some (.error _) => false
    | _ => true
  | .revision c => c.expectedRevision.isNone || a.snapshot.isOk
  | .evaluate _ => a.decision.isOk
  | .recorded _ _ _ | .marked _ _ | .emit _ _ => a.emitted.isNone
  | _ => true

/-- A point of `Submit` whose record, once written, stands in the store. -/
def Point.underway (s : Store) : Point → Prop
  | .submit _ | .lookup _ | .expiry _ | .revision _ | .evaluate _ | .record _ _ | .emit _ _
  | .returned _ => True
  | .recorded c _ _ | .mark c | .marked c _ | .dispatch c | .awaiting c | .settle c _ =>
    c.id ∈ s.results
  | _ => False

variable {s : Store} {p : Point} {a : Answer} {e : Effect} {id : CommandID} {w : World} {i : ℕ}

theorem underway_mono {s' : Store} (hs : ∀ id ∈ s.results, id ∈ s'.results)
    (h : p.underway s) : p.underway s' := by
  cases p <;> first | exact h | exact hs _ h

theorem Writes.kept (h : Writes s a p e) (hid : id ∈ s.results) : id ∈ e.store.results := by
  cases h with
  | nothing _ hs _ => rwa [hs]
  | record c adm _ | change _ _ _ _ _ _ => exact (AList.mem_insert _).mpr (.inr hid)

theorem results_kept (w : World) (l : Output.Label) (hid : id ∈ w.store.results) :
    id ∈ (w.step l).store.results := by
  rcases step_cases w l with hs | ⟨i,t,_,hs⟩ | ⟨i,a,p,next,rfl,_,_,hs⟩
  · rwa [hs]
  · rwa [hs]
  · rw [hs]
    exact (step_steps w.store a p).writes.kept hid

theorem Steps.underway (h : Steps s a p e) (hp : p.underway s) : e.point.underway e.store := by
  cases h with
  | recorded c adm | marked c r hr => exact (AList.mem_insert _).mpr (.inl rfl)
  | admitted c r he => exact hp
  | announced c r he => exact hp
  | dispatching c => exact hp
  | acknowledged c => exact hp
  | live c _ => trivial
  | late c _ => trivial
  | reconciling => exact hp.elim
  | reported => exact hp.elim
  | expiring => exact hp.elim
  | _ => trivial

theorem Steps.ne_submit (h : Steps s a p e) (c : Command) : e.point ≠ .submit c := by
  cases h <;> simp [Effect.fail]

def Point.failed : Point → Bool
  | .returned ⟨_,some _⟩ => true
  | _ => false

theorem transition_failed (hid : id ∈ s.results) (ch : Change)
    (now : ℤ) {next : Result → Point} (hnext : ∀ r, (next r).failed = false) :
    (s.transition id ch now next).point.failed = false := by
  obtain ⟨r,hr⟩ := Option.isSome_iff_exists.mp (AList.lookup_isSome.mpr hid)
  unfold Store.transition
  rw [hr]
  exact hnext _

/-- A point of `Submit` leads to an error exactly if it is hindered. -/
theorem step_failed (a : Answer) (hp : p.underway s) (hr : p.reply = none) :
    (p.step s a).point.failed = !p.unhindered s a := by
  cases p with
  | submit c =>
    unfold Point.step Point.unhindered
    cases a.ctx with
    | some err => rfl
    | none =>
      dsimp only
      cases c.withIDs a with
      | error err => rfl
      | ok c' => cases hv : validateCommand c' <;> simp [hv,Effect.fail,Point.failed]
  | lookup c =>
    unfold Point.step Point.unhindered
    dsimp only
    rcases s.lookup c with _ | _ | r <;> rfl
  | expiry c =>
    unfold Point.step Point.unhindered
    dsimp only
    split_ifs <;> rfl
  | revision c =>
    unfold Point.step Point.unhindered
    dsimp only
    cases c.expectedRevision with
    | none => rfl
    | some expected =>
      cases a.snapshot with
      | error err => rfl
      | ok current => dsimp only; split_ifs <;> rfl
  | evaluate c =>
    unfold Point.step Point.unhindered
    dsimp only
    cases a.decision <;> rfl
  | record c adm => rfl
  | recorded c adm r =>
    unfold Point.step Point.unhindered
    dsimp only
    cases he : a.emitted with
    | none => split_ifs <;> rfl
    | some err => rw [if_neg (by simp)]; rfl
  | mark c => exact transition_failed hp _ _ fun _ => rfl
  | marked c r =>
    unfold Point.step Point.unhindered
    dsimp only
    cases he : a.emitted with
    | none => rfl
    | some err => rw [if_neg (by simp)]; rfl
  | dispatch c => rfl
  | awaiting c => rfl
  | settle c st => exact transition_failed hp _ _ fun _ => rfl
  | emit event r =>
    unfold Point.step Point.unhindered
    dsimp only
    cases a.emitted <;> rfl
  | returned reply => cases hr
  | _ => exact hp.elim

/-- A thread whose loop has ended, or will end with its next step, in an error. -/
def Thread.over : Thread → Bool
  | .finished _ _ => true
  | .acting _ _ _ p => p.failed
  | _ => false

def Thread.ended : Thread → Bool
  | .finished _ _ => true
  | _ => false

def Thread.submitting : Thread → Option Command
  | .acting _ _ _ (.submit c) => some c
  | _ => none

theorem over_submitting {t : Thread} (h : t.over = true) : t.submitting = none := by
  cases t with
  | acting ttl actions results p => cases p <;> first | rfl | cases h
  | _ => rfl

theorem acting_step {ttl : ℤ} {actions : List WatchdogAction} {results : List (Option Result)}
    (ht : w.thread i = .acting ttl actions results p) (hr : p.reply = none) (a : Answer) :
    w.step (.step i a) = w.advance i (p.step w.store a) (.acting ttl actions results) := by
  rw [step_of_thread ht,World.stepThread,hr]

theorem failed_reply (h : p.failed = true) : ∃ r err, p.reply = some ⟨r,some err⟩ := by
  cases p with
  | returned reply =>
    obtain ⟨r,_ | err⟩ := reply
    · cases h
    · exact ⟨r,err,rfl⟩
  | _ => cases h

theorem over_step (h : (w.thread i).over = true) (a : Answer) :
    ((w.step (.step i a)).thread i).over = true := by
  cases ht : w.thread i with
  | finished results err => rwa [step_of_thread ht]
  | acting ttl actions results p =>
    rw [ht] at h
    obtain ⟨r,err,hp⟩ := failed_reply h
    rw [step_of_thread ht,World.stepThread,hp]
    dsimp only
    rw [move_thread_self]
    rfl
  | _ => rw [ht] at h; cases h

def Thread.settled : Thread → Bool
  | .finished _ _ | .looping _ [] _ | .acting _ [] _ _ => true
  | _ => false

theorem settled_step (h : (w.thread i).settled = true) (a : Answer) :
    ((w.step (.step i a)).thread i).settled = true := by
  cases ht : w.thread i with
  | finished results err => rwa [step_of_thread ht]
  | looping ttl actions results =>
    rw [ht] at h
    cases actions with
    | nil =>
      rw [step_of_thread ht,World.stepThread,move_thread_self]
      rfl
    | cons action actions => cases h
  | acting ttl actions results p =>
    rw [ht] at h
    cases actions with
    | nil =>
      rw [step_of_thread ht,World.stepThread]
      cases p.reply with
      | none => dsimp only; rw [advance_thread_self]; rfl
      | some reply =>
        dsimp only
        rw [move_thread_self,turnStep]
        cases reply.err <;> rfl
    | cons action actions => cases h
  | _ => rw [ht] at h; cases h

end Output

/-- The thread that starts a call or takes a step by the input. -/
def Input.caller : Input → Option ℕ
  | .start i _ | .step i _ _ => some i
  | _ => none

def Input.starts (i : ℕ) : Input → Bool
  | .start j _ => j == i
  | _ => false

theorem Input.eq_step {i : ℕ} {l : Input} (hcaller : l.caller = some i) (h : l.starts i = false) :
    ∃ a q, l = .step i a q := by
  cases l with
  | start j op => cases hcaller; simp [Input.starts] at h
  | step j a q => cases hcaller; exact ⟨a,q,rfl⟩
  | _ => cases hcaller

namespace Controller

/-- The thread hands the command of the action to `Submit`. -/
def Submitting (i : ℕ) (ttl : ℤ) (action : WatchdogAction) (k : Controller) : Prop :=
  ∃ c ∈ (k.world.thread i).submitting, c = watchdogCommand action c.id c.correlationID ttl

instance (i : ℕ) (ttl : ℤ) (action : WatchdogAction) : DecidablePred (Submitting i ttl action) :=
  fun k => inferInstanceAs (Decidable (∃ c ∈ (k.world.thread i).submitting, _))

/-- Nothing the call meets at this point, its policy included, makes it return an error. -/
def unhindered (k : Controller) (i : ℕ) (a : Answer) (q : PolicyAnswer) : Point → Bool
  | .evaluate _ =>
    match k.evaluating i with
    | none => q.ctx.isNone
    | some ev => (decisionOf q.get ev).isOk
  | p => p.unhindered k.world.store a

/-- While a loop has actions left, its identifiers are generated and its submissions meet
nothing that makes them return an error. -/
def unfailing (i : ℕ) (k : Controller) : Input → Bool
  | .step j a q => j != i ||
    match k.world.thread i with
    | .looping _ (_::_) _ => a.commandID.isOk && a.correlationID.isOk
    | .acting _ (_::_) _ p => k.unhindered i a q p
    | _ => true
  | _ => true

variable {k : Controller} {i : ℕ} {ttl : ℤ} {actions : List WatchdogAction}
  {results : List (Option Result)} {l : Input}

theorem step_thread_other (h : l.caller ≠ some i) :
    (k.step l).world.thread i = k.world.thread i := by
  cases l with
  | start j op =>
    have hji : i ≠ j := fun h' => h (congrArg some h'.symm)
    exact step_thread_ne k.world (.start j op) hji
  | step j a q =>
    have hji : i ≠ j := fun h' => h (congrArg some h'.symm)
    exact (step_stepped k j a q).thread_ne hji
  | policy call q => rfl
  | setMode j ctx mode =>
    show (k.setMode j ctx mode).world.thread i = k.world.thread i
    rcases setMode_cases k j ctx mode with hs | ⟨_,hs⟩ <;> rw [hs]
  | returnMode j =>
    show (k.returnMode j).world.thread i = k.world.thread i
    rcases returnMode_cases k j with hs | hs <;> rw [hs]

theorem unfailing_other (h : l.caller ≠ some i) : k.unfailing i l = true := by
  cases l with
  | step j a q =>
    have hji : j ≠ i := fun h' => h (congrArg some h')
    simp [unfailing,hji]
  | _ => rfl

theorem results_kept (l : Input) {id : CommandID}
    (hid : id ∈ k.world.store.results) : id ∈ (k.step l).world.store.results := by
  rcases step_world k l with hs | ⟨l',hs⟩
  · rwa [hs]
  · rw [hs]
    exact Output.results_kept k.world l' hid

/-- A step of a submission in the loop: it fails exactly if it is hindered. -/
theorem Stepped.acting {k' : Controller} {a : Answer} {q : PolicyAnswer} (h : Stepped k i a q k')
    {p : Point} (ht : k.world.thread i = .acting ttl actions results p)
    (hp : p.underway k.world.store) (hr : p.reply = none) :
    ∃ p', k'.world.thread i = .acting ttl actions results p' ∧ p'.underway k'.world.store ∧
      p'.failed = !k.unhindered i a q p ∧ ∀ c, p' ≠ .submit c := by
  have hfeed : ∀ a', (k.feed i a').world.thread i =
        .acting ttl actions results (p.step k.world.store a').point ∧
      (p.step k.world.store a').point.underway (k.feed i a').world.store := by
    intro a'
    have hs := acting_step ht hr a'
    refine ⟨?_,?_⟩
    · exact (congrArg (fun w => World.thread w i) hs).trans (advance_thread_self _ _ _ _)
    · rw [feed,hs]
      exact (step_steps k.world.store a' p).underway hp
  have hpoint : (k.world.thread i).point = some p := by rw [ht]; rfl
  have hne : ∀ a' c, (p.step k.world.store a').point ≠ .submit c := fun a' =>
    (step_steps k.world.store a' p).ne_submit
  cases h with
  | fed hreq =>
    refine ⟨_,(hfeed a).1,(hfeed a).2,?_,hne a⟩
    rw [step_failed a hp hr]
    cases p with
    | evaluate c => rw [ht] at hreq; cases hreq
    | _ => rfl
  | checked ttl' ht' _ => rw [ht] at ht'; cases ht'
  | reported id c on observedAt hp' =>
    rw [hpoint] at hp'
    cases hp'
    exact hp.elim
  | locked c hp' he hctx =>
    rw [hpoint] at hp'
    cases hp'
    exact ⟨_,ht,hp,by simp [unhindered,he,hctx,Point.failed],fun c' hc => (nomatch hc)⟩
  | cancelled c err hp' he hctx =>
    rw [hpoint] at hp'
    cases hp'
    refine ⟨_,(hfeed _).1,(hfeed _).2,?_,hne _⟩
    rw [step_failed _ hp hr]
    simp [unhindered,he,hctx,Point.unhindered,Except.isOk,Except.toBool]
  | decided c ev hp' he =>
    rw [hpoint] at hp'
    cases hp'
    refine ⟨_,(hfeed _).1,(hfeed _).2,?_,hne _⟩
    rw [step_failed _ hp hr]
    simp [unhindered,he,Point.unhindered]

/-- A loop with the actions it has not submitted; the one under submission is none of them. -/
inductive InLoop (s : Store) (ttl : ℤ) (rest : List WatchdogAction) : Thread → Prop
  | looping (results : List (Option Result)) : InLoop s ttl rest (.looping ttl rest results)
  | acting (results : List (Option Result)) (p : Point) (hp : p.underway s) (hf : p.failed = false)
      (hc : ∀ c, p = .submit c → c.equipmentID ∉ rest.map WatchdogAction.equipmentID) :
      InLoop s ttl rest (.acting ttl rest results p)

theorem InLoop.not_submitting {rest : List WatchdogAction}
    (h : InLoop k.world.store ttl rest (k.world.thread i)) {action : WatchdogAction}
    (ha : action ∈ rest) : ¬ k.Submitting i ttl action := by
  rintro ⟨c,hc,heq⟩
  generalize k.world.thread i = t at h hc
  cases h with
  | looping results => cases hc
  | acting results p _ _ hnone =>
    cases p with
    | submit c' =>
      cases hc
      refine hnone c rfl (List.mem_map.mpr ⟨action,ha,?_⟩)
      rw [heq]
      rfl
    | _ => cases hc

theorem looping_step (ht : k.world.thread i = .looping ttl actions results)
    (a : Answer) (q : PolicyAnswer) :
    (k.step (.step i a q)).world = k.world.move i (loopStep ttl results a actions) := by
  rw [step_of_no_request (by rw [ht]; rfl),feed]
  exact step_of_thread ht a

theorem replied_step {reply : Reply}
    (ht : k.world.thread i = .acting ttl actions results (.returned reply)) (a : Answer)
    (q : PolicyAnswer) :
    (k.step (.step i a q)).world = k.world.move i (turnStep ttl actions results reply) := by
  rw [step_of_no_request (by rw [ht]; rfl),feed]
  exact step_of_thread ht a

/-- A step of a loop with actions left: it goes on, submits the next action, or is over by
a failure. -/
inductive LoopStep (k k' : Controller) (i : ℕ) (ttl : ℤ) (x : WatchdogAction)
    (rest : List WatchdogAction) (l : Input) : Prop
  | goesOn (hu : k.unfailing i l = true)
      (h : InLoop k'.world.store ttl (x::rest) (k'.world.thread i)) : LoopStep k k' i ttl x rest l
  | submits (hu : k.unfailing i l = true)
      (h : InLoop k'.world.store ttl rest (k'.world.thread i)) (hx : k'.Submitting i ttl x) :
      LoopStep k k' i ttl x rest l
  | fails (hu : k.unfailing i l = false) (h : (k'.world.thread i).over = true) :
      LoopStep k k' i ttl x rest l

section LoopStep

variable {k : Controller} {i : ℕ} {ttl : ℤ} {x : WatchdogAction} {rest : List WatchdogAction}
  {results : List (Option Result)}

theorem looping_loopStep (ht : k.world.thread i = .looping ttl (x::rest) results)
    (hx : x.equipmentID ∉ rest.map WatchdogAction.equipmentID) (a : Answer) (q : PolicyAnswer) :
    LoopStep k (k.step (.step i a q)) i ttl x rest (.step i a q) := by
  have hu : k.unfailing i (.step i a q) = (a.commandID.isOk && a.correlationID.isOk) := by
    unfold unfailing
    dsimp only
    rw [ht]
    simp
  have ht' : (k.step (.step i a q)).world.thread i = loopStep ttl results a (x::rest) := by
    rw [looping_step ht a q,move_thread_self]
  unfold loopStep at ht'
  cases hid : a.commandID with
  | error err =>
    rw [hid] at hu ht'
    exact .fails hu (by rw [ht']; rfl)
  | ok id =>
    cases hcorrelation : a.correlationID with
    | error err =>
      rw [hid,hcorrelation] at hu ht'
      exact .fails hu (by rw [ht']; rfl)
    | ok correlationID =>
      rw [hid,hcorrelation] at hu ht'
      refine .submits hu ?_ ?_
      · rw [ht']
        refine .acting results _ trivial rfl ?_
        rintro c ⟨⟩
        exact hx
      · unfold Submitting
        rw [ht']
        exact ⟨_,rfl,rfl⟩

theorem acting_loopStep {p : Point} (ht : k.world.thread i = .acting ttl (x::rest) results p)
    (hp : p.underway k.world.store) (hf : p.failed = false) (a : Answer) (q : PolicyAnswer) :
    LoopStep k (k.step (.step i a q)) i ttl x rest (.step i a q) := by
  have hu : k.unfailing i (.step i a q) = k.unhindered i a q p := by
    unfold unfailing
    dsimp only
    rw [ht]
    simp
  cases hr : p.reply with
  | some reply =>
    cases p with
    | returned reply' =>
      obtain ⟨r,_ | err⟩ := reply'
      · refine .goesOn (hu.trans rfl) ?_
        rw [replied_step ht a q,move_thread_self]
        exact .looping _
      · cases hf
    | _ => cases hr
  | none =>
    obtain ⟨p',ht',hp',hfailed,hne⟩ := (step_stepped k i a q).acting ht hp hr
    cases hunhindered : k.unhindered i a q p with
    | true =>
      rw [hunhindered] at hu hfailed
      refine .goesOn hu ?_
      rw [ht']
      exact .acting results p' hp' hfailed fun c hc => absurd hc (hne c)
    | false =>
      rw [hunhindered] at hu hfailed
      refine .fails hu ?_
      rw [ht']
      exact hfailed

theorem InLoop.step (h : InLoop k.world.store ttl (x::rest) (k.world.thread i))
    (hnodup : ((x::rest).map WatchdogAction.equipmentID).Nodup) (a : Answer) (q : PolicyAnswer) :
    LoopStep k (k.step (.step i a q)) i ttl x rest (.step i a q) := by
  generalize ht : k.world.thread i = t at h
  cases h with
  | looping results => exact looping_loopStep ht (List.nodup_cons.mp hnodup).1 a q
  | acting results p hp hf _ => exact acting_loopStep ht hp hf a q

end LoopStep

variable {k : Controller} {i : ℕ} {ls : List Input} {ttl : ℤ} {id : EquipmentID} {l : Input}
  {rest : List WatchdogAction}

/-- What every step of the thread keeps is kept by all inputs that start no call of it. -/
theorem own_step (hl : l.starts i = false) {P : Thread → Prop}
    (hP : ∀ (w : World) a, P (w.thread i) → P ((w.step (.step i a)).thread i))
    (h : P (k.world.thread i)) : P ((k.step l).world.thread i) := by
  by_cases hcaller : l.caller = some i
  · obtain ⟨a,q,rfl⟩ := Input.eq_step hcaller hl
    rcases (step_stepped k i a q).world with hs | ⟨a',hs⟩
    · rwa [hs]
    · rw [hs]
      exact hP k.world a' h
  · rwa [step_thread_other hcaller]

theorem not_submits_of_over (h : (k.world.thread i).over = true)
    (hown : ∀ l ∈ ls, l.starts i = false) (ttl : ℤ) (action : WatchdogAction) :
    ¬ Meets step (Submitting i ttl action) k ls := by
  refine not_meets (I := fun k => (k.world.thread i).over = true)
    (fun _ _ hk hl => own_step hl (P := fun t => t.over = true) (fun _ a hw => over_step hw a) hk)
    (fun k hk => ?_) h hown
  rintro ⟨c,hc,_⟩
  rw [over_submitting hk] at hc
  cases hc

theorem unfailing_of_settled (h : (k.world.thread i).settled = true)
    (l : Input) : k.unfailing i l = true := by
  cases l with
  | step j a q =>
    unfold unfailing
    dsimp only
    cases ht : k.world.thread i with
    | looping ttl actions results | acting ttl actions results p =>
      rw [ht] at h
      cases actions with
      | nil => simp
      | cons action actions => cases h
    | _ => simp
  | _ => rfl

theorem guarded_of_settled (h : (k.world.thread i).settled = true)
    (hown : ∀ l ∈ ls, l.starts i = false) : Guarded step (fun k l => k.unfailing i l = true) k ls :=
  guarded_of_invariant (I := fun k => (k.world.thread i).settled = true)
    (fun _ _ hk hl => own_step hl (P := fun t => t.settled = true)
      (fun _ a hw => settled_step hw a) hk) (fun _ l hk => unfailing_of_settled hk l) h hown

theorem InLoop.settled {s : Store} {t : Thread} (h : InLoop s ttl [] t) : t.settled = true := by
  cases h <;> rfl

theorem InLoop.other (h : InLoop k.world.store ttl rest (k.world.thread i))
    (hl : l.caller ≠ some i) :
    InLoop (k.step l).world.store ttl rest ((k.step l).world.thread i) := by
  rw [step_thread_other hl]
  generalize k.world.thread i = t at h
  cases h with
  | looping results => exact .looping results
  | acting results p hp hf hc =>
    exact .acting results p (underway_mono (fun id hid => results_kept l hid) hp) hf hc

/-- A loop that has come to its end has submitted all its actions exactly if nothing made
it fail while it had actions left. -/
theorem loop_submits_iff (h : InLoop k.world.store ttl rest (k.world.thread i))
    (hnodup : (rest.map WatchdogAction.equipmentID).Nodup) (hown : ∀ l ∈ ls, l.starts i = false)
    (hend : ((run step k ls).world.thread i).ended = true) :
    (∀ action ∈ rest, Meets step (Submitting i ttl action) k ls) ↔
      Guarded step (fun k l => k.unfailing i l = true) k ls := by
  induction ls generalizing k rest with
  | nil =>
    rw [run_nil] at hend
    generalize k.world.thread i = t at h hend
    cases h <;> cases hend
  | cons l ls ih =>
    have hown' : ∀ l' ∈ ls, l'.starts i = false := fun l' hl' => hown l' (List.mem_cons_of_mem _ hl')
    have hlater : ∀ action ∈ rest, Meets step (Submitting i ttl action) k (l::ls) ↔
        Meets step (Submitting i ttl action) (k.step l) ls := fun action ha =>
      ⟨fun hm => hm.resolve_left (h.not_submitting ha),.inr⟩
    rw [forall₂_congr hlater]
    by_cases hcaller : l.caller = some i
    · cases rest with
      | nil => exact iff_of_true (by simp) (guarded_of_settled h.settled hown)
      | cons x rest =>
        obtain ⟨a,q,rfl⟩ := Input.eq_step hcaller (hown _ List.mem_cons_self)
        cases h.step hnodup a q with
        | goesOn hu hnext =>
          rw [ih hnext hnodup hown' hend]
          exact ⟨fun hg => ⟨hu,hg⟩,fun hg => hg.2⟩
        | submits hu hnext hx =>
          rw [List.forall_mem_cons,ih hnext (List.nodup_cons.mp hnodup).2 hown' hend]
          exact ⟨fun hg => ⟨hu,hg.2⟩,fun hg => ⟨.of_start hx ls,hg.2⟩⟩
        | fails hu hover =>
          refine iff_of_false (fun hall => ?_) fun hg => ?_
          · exact not_submits_of_over hover hown' ttl x (hall x List.mem_cons_self)
          · exact absurd (hg.1.symm.trans hu) (by simp)
    · rw [ih (h.other hcaller) hnodup hown' hend]
      exact ⟨fun hg => ⟨unfailing_other hcaller,hg⟩,fun hg => hg.2⟩

def ReportedOn (id : EquipmentID) (k : Controller) : Prop := (k.engine.runtimeOf id).on = true

instance (id : EquipmentID) (k : Controller) : Decidable (ReportedOn id k) :=
  inferInstanceAs (Decidable (_ = _))

/-- The equipment is reported on in every state the run reaches. -/
def StaysOn (id : EquipmentID) (k : Controller) (ls : List Input) : Prop :=
  Guarded step (fun k l => (k.step l).ReportedOn id) k ls

theorem latched_step (l : Input) (hon : k.ReportedOn id)
    (h : Latched k.engine id) : Latched (k.step l).engine id := by
  cases l with
  | start i op => exact h
  | step i a q => exact (step_stepped k i a q).keeps.latched id hon h
  | policy call q => exact (PolicyCall.keeps k.engine q call).latched id hon h
  | setMode j ctx mode =>
    show Latched (k.setMode j ctx mode).engine id
    rcases setMode_cases k j ctx mode with hs | ⟨_,hs⟩ <;> rw [hs] <;> exact h
  | returnMode j =>
    show Latched (k.returnMode j).engine id
    rcases returnMode_cases k j with hs | hs <;> rw [hs] <;> exact h

theorem latched_run (hon : k.ReportedOn id)
    (h : Latched k.engine id) (hstays : StaysOn id k ls) : Latched (run step k ls).engine id := by
  have hkeep : ∀ (k : Controller) l, k.ReportedOn id ∧ Latched k.engine id →
      (k.step l).ReportedOn id → (k.step l).ReportedOn id ∧ Latched (k.step l).engine id :=
    fun _ l hk hl => ⟨hl,latched_step l hk.1 hk.2⟩
  exact (invariant_run hkeep ⟨hon,h⟩ hstays).2

/-- Some watchdog check after the run returns an action for the equipment, which has stayed
on until then. -/
def ReturnedAgain (id : EquipmentID) (k : Controller) (ls : List Input) : Prop :=
  ∃ more clock order actions, StaysOn id k (ls++more) ∧
    ((run step k (ls++more)).engine.checkWatchdogs none clock order).1 = .ok actions ∧
    id ∈ actions.map WatchdogAction.equipmentID

theorem not_returnedAgain (hon : k.ReportedOn id)
    (h : Latched k.engine id) (ls : List Input) : ¬ ReturnedAgain id k ls := by
  rintro ⟨more,clock,order,actions,hstays,hactions,hmem⟩
  obtain ⟨action,ha,rfl⟩ := List.mem_map.mp hmem
  have hswept := checkLocked_swept (run step k (ls++more)).engine clock order
  cases hactions
  exact hswept.fresh action ha (latched_run hon h hstays)

theorem checked_step {actions : List WatchdogAction}
    {q : PolicyAnswer} (ht : k.world.thread i = .checking ttl) (httl : 0 < ttl)
    (hactions : (k.engine.checkWatchdogs q.ctx q.clock q.order).1 = .ok actions) (a : Answer) :
    Swept k.engine (actions,(k.step (.step i a q)).engine) ∧
    (k.step (.step i a q)).world.thread i = .looping ttl actions [] := by
  have hs : k.step (.step i a q) = k.ask i a q .check := by
    have hr : (k.world.thread i).request = some .check := by
      rw [ht]
      exact if_pos httl
    rw [step,hr]
  rw [hs]
  refine ⟨?_,?_⟩
  · unfold Engine.checkWatchdogs at hactions
    cases hctx : q.ctx with
    | some err => rw [hctx] at hactions; cases hactions
    | none =>
      rw [hctx] at hactions
      cases hactions
      unfold ask
      rw [hctx]
      exact checkLocked_swept k.engine q.clock q.order
  · show (k.world.step (.step i _)).thread i = _
    rw [step_of_thread ht,World.stepThread,move_thread_self,checkStep,if_neg (not_le.mpr httl)]
    dsimp only
    rw [hactions]

theorem actions_delivered_iff (k : Controller) (i : ℕ) (ttl : ℤ) (a : Answer) (q : PolicyAnswer)
    (actions : List WatchdogAction) (ls : List Input) (ht : k.world.thread i = .checking ttl)
    (httl : 0 < ttl) (hactions : (k.engine.checkWatchdogs q.ctx q.clock q.order).1 = .ok actions)
    (hown : ∀ l ∈ ls, l.starts i = false)
    (hend : ((run step (k.step (.step i a q)) ls).world.thread i).ended = true) :
    (∀ action ∈ actions, Meets step (Submitting i ttl action) (k.step (.step i a q)) ls ∨
      ReturnedAgain action.equipmentID (k.step (.step i a q)) ls) ↔
    Guarded step (fun k l => k.unfailing i l = true) (k.step (.step i a q)) ls := by
  obtain ⟨hswept,hthread⟩ := checked_step ht httl hactions a
  have hloop : InLoop (k.step (.step i a q)).world.store ttl actions
      ((k.step (.step i a q)).world.thread i) := hthread ▸ .looping []
  rw [← loop_submits_iff hloop hswept.nodup hown hend]
  refine forall₂_congr fun action ha => or_iff_left ?_
  have hon : (k.engine.runtimeOf action.equipmentID).on = true := by
    by_contra hoff
    exact hswept.fresh action ha fun hon => absurd hon hoff
  exact not_returnedAgain ((hswept.on _).trans hon) (hswept.latches action ha) ls

def pumpID : EquipmentID := "10000000-0000-4000-8000-000000000002"

def pump : Profile := { outlet with equipmentID := pumpID }

def bothOn : Engine :=
  let e : Engine := { outletEngine with profiles := outletEngine.profiles.insert pumpID pump }
  ((e.recordReported none outletID true (newYear+hour)).2.recordReported none pumpID true
    (newYear+hour)).2

def overdue : Controller := run step { engine := bothOn } [.start 0 (.runWatchdogs hour)]

def overdueCheck : PolicyAnswer := { clock := newYear+4*hour, order := ⟨[],[outletID,pumpID]⟩ }

def overdueActions : List WatchdogAction :=
  [⟨outletID,false,reasonMaximumOn,newYear+4*hour⟩,⟨pumpID,false,reasonMaximumOn,newYear+4*hour⟩]

def identified (id : CommandID) : Input :=
  .step 0 { commandID := .ok id, correlationID := .ok "40000000-0000-4000-8000-000000000001" } {}

def bothSubmitted : List Input :=
  identified "30000000-0000-4000-8000-000000000001"::List.replicate 15 (.step 0 {} {})++
    identified "30000000-0000-4000-8000-000000000002"::List.replicate 16 (.step 0 {} {})

theorem actions_delivered_overdue :
    Guarded step (fun k l => k.unfailing 0 l = true) (overdue.step (.step 0 {} overdueCheck))
      bothSubmitted ∧
    ∀ action ∈ overdueActions,
      Meets step (Submitting 0 hour action) (overdue.step (.step 0 {} overdueCheck)) bothSubmitted ∨
      ReturnedAgain action.equipmentID (overdue.step (.step 0 {} overdueCheck)) bothSubmitted := by
  have hg : Guarded step (fun k l => k.unfailing 0 l = true)
      (overdue.step (.step 0 {} overdueCheck)) bothSubmitted := by decide
  exact ⟨hg,(actions_delivered_iff overdue 0 hour {} overdueCheck overdueActions bothSubmitted rfl
    (by decide) (by decide) (by decide) (by decide)).mpr hg⟩

def firstRefused : List Input :=
  identified "30000000-0000-4000-8000-000000000001"::List.replicate 7 (.step 0 {} {})++
    [.step 0 { emitted := some (.message "event bus closed") } {},.step 0 {} {}]

/-- The second outlet's action is then neither submitted nor returned by a later check. -/
theorem refused_event_loses_action :
    let k := overdue.step (.step 0 {} overdueCheck)
    (overdue.engine.checkWatchdogs none overdueCheck.clock overdueCheck.order).1 =
      .ok overdueActions ∧
    ((run step k firstRefused).world.thread 0).ended = true ∧
    ∃ action ∈ overdueActions, ¬ Meets step (Submitting 0 hour action) k firstRefused ∧
      ¬ ReturnedAgain action.equipmentID k firstRefused := by
  refine ⟨by decide,by decide,overdueActions[1],by decide,by decide,?_⟩
  exact not_returnedAgain (by decide) (by decide) firstRefused

end Controller
end AquaOS
