import AquaOS.Controller

/-! Emergency stop and the commands under way. A command is authorised by the mode its
evaluation has read under the engine lock and is dispatched some steps later; a stop that
takes the lock in between does not reach it. -/
namespace AquaOS

open Domain SafetyEngine Output Transition

/-- The command a call will dispatch if nothing fails any more. -/
def Output.Point.authorised : Point → Option Command
  | .record c .validated | .recorded c .validated _ | .mark c | .marked c _ | .dispatch c => some c
  | _ => none

namespace Output

variable {p : Point} {c : Command}

/-- An authorised command was authorised before the step, or is by an allowed decision. -/
theorem Steps.authorised {s : Store} {a : Answer} {e : Effect} (h : Steps s a p e)
    (hc : e.point.authorised = some c) :
    p.authorised = some c ∨ (p = .evaluate c ∧ ∃ d, a.decision = .ok d ∧ d.allowed = true) := by
  cases h with
  | decided c' d hd =>
    dsimp only at hc
    split_ifs at hc with hallowed
    · obtain rfl : c' = c := by simpa [Point.authorised] using hc
      exact .inr ⟨rfl,d,hd,hallowed⟩
    · cases hc
  | recorded c' adm =>
    cases adm with
    | validated => exact .inl hc
    | _ => cases hc
  | admitted c' r he => exact .inl hc
  | marked c' r hr => exact .inl hc
  | announced c' r he => exact .inl hc
  | _ => cases hc

theorem entry_authorised (h : p.Entry) : p.authorised = none := by
  cases p <;> first | rfl | exact absurd h id

theorem authorised_step (w : World) (l : Output.Label) {j : ℕ}
    (hp : ((w.step l).thread j).point = some p) (hc : p.authorised = some c) :
    (∃ p', (w.thread j).point = some p' ∧ p'.authorised = some c) ∨
    ∃ a d, l = .step j a ∧ (w.thread j).point = some (.evaluate c) ∧ a.decision = .ok d ∧
      d.allowed = true := by
  rcases step_cases w l with hs | ⟨i,t,ht,hs⟩ | ⟨i,a,p',next,rfl,hp',hnext,hs⟩
  · rw [hs] at hp
    exact .inl ⟨p,hp,hc⟩
  · rw [hs] at hp
    by_cases hj : j = i
    · subst hj
      rw [move_thread_self] at hp
      rw [entry_authorised (ht p hp)] at hc
      cases hc
    · rw [move_thread_ne w hj] at hp
      exact .inl ⟨p,hp,hc⟩
  · rw [hs] at hp
    by_cases hj : j = i
    · subst hj
      rw [advance_thread_self,hnext] at hp
      cases hp
      rcases (step_steps w.store a p').authorised hc with h | ⟨rfl,d,hd,hallowed⟩
      · exact .inl ⟨p',hp',h⟩
      · exact .inr ⟨a,d,rfl,hp',hd,hallowed⟩
    · rw [advance_thread_ne w hj] at hp
      exact .inl ⟨p,hp,hc⟩

theorem dispatching_step {w : World} {l : Output.Label}
    (h : (w.step l).log = .dispatching c::w.log) :
    ∃ i, (w.thread i).point = some (.dispatch c) := by
  rcases step_cases w l with hs | ⟨i,t,ht,hs⟩ | ⟨i,a,p,next,rfl,hp,hnext,hs⟩
  · rw [hs] at h
    simp at h
  · rw [hs,World.move] at h
    simp at h
  · rw [hs,World.advance] at h
    have hact : (p.step w.store a).act = some (.dispatching c) := by
      cases hact : (p.step w.store a).act with
      | none => simp [hact] at h
      | some act => simpa [hact] using h
    refine ⟨i,?_⟩
    have hsteps := step_steps w.store a p
    generalize p.step w.store a = e at hact hsteps
    cases hsteps with
    | dispatching c' => cases hact; exact hp
    | _ => cases hact

end Output

/-- An activation refused by its mode is not allowed, whatever its inputs are. -/
theorem decide_emergencyStop {ev : Evaluation} {get : Reader} {d : Decision}
    (h : ev.decide get = .ok d) (hallowed : d.allowed = true) (hon : ev.on = true) :
    ev.mode ≠ .emergencyStop := by
  intro hmode
  unfold Evaluation.decide at h
  rw [if_neg (by simp [hon]),if_pos hmode] at h
  cases h
  cases hallowed

theorem evaluateLocked_reads {e : Engine} {intent : Intent} {now : ℤ} {ev : Evaluation}
    (h : (e.evaluateLocked intent now).1 = some ev) : ev.on = intent.on ∧ ev.mode = e.mode := by
  cases hp : e.profiles.lookup intent.equipmentID with
  | none =>
    rw [evaluateLocked_unknown now hp] at h
    cases h
  | some p =>
    obtain ⟨_,_,hs,_⟩ := evaluateLocked_known now hp
    rw [hs] at h
    obtain rfl := Option.some.inj h
    exact ⟨rfl,rfl⟩

/-- A completed stop that no later locked section has lifted. -/
def InForce (modes : List ModeEvent) : Prop :=
  ∃ j newer older, modes = newer++.set j .emergencyStop::older ∧ .returned j ∈ newer ∧
    ∀ i mode, .set i mode ∈ newer → mode = .emergencyStop

def lastMode : List ModeEvent → Option Mode
  | [] => none
  | .set _ mode::_ => some mode
  | .returned _::modes => lastMode modes

theorem InForce.lastMode {modes : List ModeEvent} (h : InForce modes) :
    lastMode modes = some .emergencyStop := by
  obtain ⟨j,newer,older,rfl,hreturned,hnewer⟩ := h
  clear hreturned
  induction newer with
  | nil => rfl
  | cons ev newer ih =>
    cases ev with
    | set i mode => rw [hnewer i mode List.mem_cons_self]; rfl
    | returned i => exact ih fun i mode hmem => hnewer i mode (List.mem_cons_of_mem _ hmem)

namespace Controller

/-- The call evaluates, or carries an authorisation for, an activation read in another mode
than emergency stop, and has not begun its dispatch. -/
def Activating (k : Controller) (i : ℕ) : Prop :=
  (∃ ev, k.evaluating i = some (some ev) ∧ ev.on = true ∧ ev.mode ≠ .emergencyStop) ∨
  ∃ p c, (k.world.thread i).point = some p ∧ p.authorised = some c ∧ c.on = true

/-- A stop takes the engine lock only while no activation is under way. -/
def StopsClear (k : Controller) : Input → Prop
  | .setMode _ ctx mode => ctx = none → mode = .emergencyStop → ∀ i, ¬ k.Activating i
  | _ => True

/-- What holds of a controller whose stops are all clear. -/
structure StopInv (k : Controller) : Prop where
  evaluates : ∀ i ev, k.evaluating i = some (some ev) →
    ∃ c, (k.world.thread i).point = some (.evaluate c) ∧ ev.on = c.on
  activating : ∀ i, k.Activating i → k.engine.mode ≠ .emergencyStop
  modes : ∀ mode, lastMode k.modes = some mode → k.engine.mode = mode

theorem stopInv_init (engine : Engine) : StopInv { engine := engine } := by
  refine ⟨fun i ev h => (nomatch h),?_,fun mode h => (nomatch h)⟩
  rintro i (⟨ev,h,_⟩ | ⟨p,c,h,_⟩)
  · cases h
  · cases h

variable {k : Controller} {i : ℕ}

/-- A step of the service by thread `i` that brings no authorisation keeps the invariant,
if thread `i` is not evaluating after it. -/
theorem StopInv.world (h : StopInv k) (i : ℕ) (l : Output.Label)
    (hl : l.index = i) (e : Engine) (hmode : e.mode = k.engine.mode)
    (evaluating : ℕ → Option (Option Evaluation)) (hi : ∀ ev, evaluating i ≠ some (some ev))
    (hothers : ∀ j, j ≠ i → evaluating j = k.evaluating j)
    (hauthorised : ∀ a c d, l = .step i a → (k.world.thread i).point = some (.evaluate c) →
      a.decision = .ok d → d.allowed = true → c.on = true → k.Activating i) :
    StopInv { k with engine := e, world := k.world.step l, evaluating := evaluating } := by
  subst hl
  have hne : ∀ j ev, evaluating j = some (some ev) → j ≠ l.index := by
    rintro j ev hj rfl
    exact hi ev hj
  refine ⟨?_,?_,fun mode hm => hmode.trans (h.modes mode hm)⟩
  · intro j ev hj
    have hji := hne j ev hj
    dsimp only
    rw [step_thread_ne k.world l hji]
    exact h.evaluates j ev ((hothers j hji).symm.trans hj)
  · rintro j (⟨ev,hj,hon⟩ | ⟨p,c,hp,hc,hon⟩)
    · exact hmode ▸ h.activating j (.inl ⟨ev,(hothers j (hne j ev hj)).symm.trans hj,hon⟩)
    · rcases authorised_step k.world l hp hc with ⟨p',hp',hc'⟩ | ⟨a,d,hla,hpe,hd,hallowed⟩
      · exact hmode ▸ h.activating j (.inr ⟨p',c,hp',hc',hon⟩)
      · obtain rfl : l.index = j := by rw [hla]; rfl
        exact hmode ▸ h.activating _ (hauthorised a c d hla hpe hd hallowed hon)

theorem StopInv.not_evaluating (h : StopInv k)
    (hp : ∀ c, (k.world.thread i).point ≠ some (.evaluate c)) (ev : Evaluation) :
    k.evaluating i ≠ some (some ev) := by
  intro he
  obtain ⟨c,hc,_⟩ := h.evaluates i ev he
  exact hp c hc

theorem StopInv.elsewhere (h : StopInv k) (l : Output.Label)
    (hp : ∀ c, (k.world.thread l.index).point ≠ some (.evaluate c)) (e : Engine)
    (hmode : e.mode = k.engine.mode) : StopInv { k with engine := e, world := k.world.step l } :=
  h.world l.index l rfl e hmode k.evaluating (h.not_evaluating hp) (fun _ _ => rfl)
    fun _ c _ _ hc => absurd hc (hp c)

/-- An evaluation in its locked section reads the mode of the engine. -/
theorem StopInv.locked (h : StopInv k) {c : Command}
    (hp : (k.world.thread i).point = some (.evaluate c)) (clock : ℤ) : StopInv { k with
      engine := (k.engine.evaluateLocked c.intent (c.intent.time clock)).2
      evaluating := Function.update k.evaluating i
        (some (k.engine.evaluateLocked c.intent (c.intent.time clock)).1) } := by
  have hmode := (evaluateLocked_keeps k.engine c.intent (c.intent.time clock)).mode
  refine ⟨?_,?_,fun mode hm => hmode.trans (h.modes mode hm)⟩
  · intro j ev hj
    rcases update_cases hj with ⟨rfl,hread⟩ | hbefore
    · exact ⟨c,hp,(evaluateLocked_reads (Option.some_inj.mp hread)).1⟩
    · exact h.evaluates j ev hbefore
  · rintro j (⟨ev,hj,hon,hev⟩ | hauthorised)
    · rcases update_cases hj with ⟨rfl,hread⟩ | hbefore
      · rw [(evaluateLocked_reads (Option.some_inj.mp hread)).2] at hev
        exact hmode ▸ hev
      · exact hmode ▸ h.activating j (.inl ⟨ev,hbefore,hon,hev⟩)
    · exact hmode ▸ h.activating j (.inr hauthorised)

theorem StopInv.stepped {k' : Controller} {a : Answer} {q : PolicyAnswer} (h : StopInv k)
    (hs : Stepped k i a q k') : StopInv k' := by
  have hmode := hs.keeps.mode
  cases hs with
  | fed hr =>
    have hp : ∀ c, (k.world.thread i).point ≠ some (.evaluate c) := by
      intro c hc
      cases ht : k.world.thread i <;> rw [ht] at hc hr <;> cases hc <;> cases hr
    exact h.elsewhere (.step i a) hp k.engine rfl
  | checked ttl ht httl =>
    have hp : ∀ c, (k.world.thread i).point ≠ some (.evaluate c) := by
      intro c hc
      rw [ht] at hc
      cases hc
    exact h.elsewhere (.step i _) hp _ hmode
  | reported id c on observedAt hpoint =>
    have hp : ∀ c, (k.world.thread i).point ≠ some (.evaluate c) := by
      intro c' hc
      rw [hpoint] at hc
      cases hc
    exact h.elsewhere (.step i _) hp _ hmode
  | locked c hp he hctx => exact h.locked hp q.clock
  | cancelled c err hp he hctx =>
    refine h.world i (.step i _) rfl k.engine rfl k.evaluating (by simp [he]) (fun _ _ => rfl) ?_
    rintro a' c' d hl - hd
    cases hl
    cases hd
  | decided c ev hp he =>
    refine h.world i (.step i _) rfl k.engine rfl _ (by simp)
      (fun j hj => Function.update_of_ne hj _ _) ?_
    rintro a' c' d hl hp' hd hallowed hon
    cases hl
    obtain rfl : c = c' := by simpa [hp] using hp'
    cases ev with
    | none => cases hd; cases hallowed
    | some ev =>
      obtain ⟨c',hc',hev⟩ := h.evaluates i ev he
      obtain rfl : c = c' := by simpa [hp] using hc'
      exact .inl ⟨ev,he,hev.trans hon,decide_emergencyStop hd hallowed (hev.trans hon)⟩

theorem StopInv.started (h : StopInv k) (i : ℕ) (op : Operation) :
    StopInv (k.step (.start i op)) := by
  by_cases hav : (k.world.thread i).available = true
  · have hp : ∀ c, (k.world.thread i).point ≠ some (.evaluate c) := by
      intro c hc
      obtain ⟨reply,hreply⟩ := available_point hav hc
      cases hreply
    exact h.elsewhere (.start i op) hp k.engine rfl
  · have hs : k.step (.start i op) = k := by
      unfold step World.step
      dsimp only
      rw [if_neg hav]
    rwa [hs]

theorem StopInv.setMode (h : StopInv k) (j : ℕ) {ctx : Option Failure} {mode : Mode}
    (hclear : StopsClear k (.setMode j ctx mode)) : StopInv (k.setMode j ctx mode) := by
  rcases setMode_cases k j ctx mode with hs | ⟨hctx,hs⟩
  · rwa [hs]
  · rw [hs]
    refine ⟨h.evaluates,fun i hi hmode => hclear hctx hmode i hi,fun mode' hm => ?_⟩
    exact Option.some_inj.mp hm

theorem stopInv_step (k : Controller) (l : Input) (h : StopInv k) (hl : StopsClear k l) :
    StopInv (k.step l) := by
  cases l with
  | start i op => exact h.started i op
  | step i a q => exact h.stepped (step_stepped k i a q)
  | policy call q =>
    have hmode := (PolicyCall.keeps k.engine q call).mode
    exact ⟨h.evaluates,fun i hi => hmode ▸ h.activating i hi,
      fun mode hm => hmode.trans (h.modes mode hm)⟩
  | setMode j ctx mode => exact h.setMode j hl
  | returnMode j =>
    show StopInv (k.returnMode j)
    rcases returnMode_cases k j with hs | hs
    · rwa [hs]
    · rw [hs]
      exact ⟨h.evaluates,h.activating,h.modes⟩

def Dispatches (k : Controller) (l : Input) (c : Command) : Prop :=
  (k.step l).world.log = .dispatching c::k.world.log

theorem Dispatches.activating {l : Input} {c : Command} (h : k.Dispatches l c)
    (hon : c.on = true) : ∃ i, k.Activating i := by
  unfold Dispatches at h
  rcases step_world k l with hs | ⟨l',hs⟩
  · rw [hs] at h
    simp at h
  · rw [hs] at h
    obtain ⟨i,hi⟩ := dispatching_step h
    exact ⟨i,.inr ⟨_,c,hi,rfl,hon⟩⟩

/-- If every emergency stop takes the engine lock while no activation is under way, no
activation is dispatched while a stop is in force. -/
theorem no_activation_under_stop (engine : Engine) (ls : List Input)
    (hg : Guarded step StopsClear { engine := engine } ls) (l : Input) (c : Command)
    (hd : (run step { engine := engine } ls).Dispatches l c) (hon : c.on = true) :
    ¬ InForce (run step { engine := engine } ls).modes := by
  intro hforce
  have hinv : StopInv (run step { engine := engine } ls) :=
    invariant_run stopInv_step (stopInv_init engine) hg
  obtain ⟨i,hi⟩ := hd.activating hon
  exact hinv.activating i hi (hinv.modes _ hforce.lastMode)

def lampAuthorised : List Input := .start 0 (.submit lampOn)::List.replicate 10 (.step 0 {} {})

def stopLifted : List Input :=
  [.setMode 0 none .emergencyStop,.returnMode 0,.setMode 0 none .normal,.returnMode 0]++
    lampAuthorised

theorem no_activation_under_lifted_stop :
    (run step { engine := outletEngine } stopLifted).Dispatches (.step 0 {} {}) lampOn ∧
    ¬ InForce (run step { engine := outletEngine } stopLifted).modes := by
  have hg : Guarded step StopsClear { engine := outletEngine } stopLifted := by
    refine ⟨?_,trivial,fun _ h => (nomatch h),by simp [lampAuthorised,Guarded,StopsClear]⟩
    rintro - - i (⟨ev,h,_⟩ | ⟨p,c,h,_⟩)
    · cases h
    · cases h
  have hd : (run step { engine := outletEngine } stopLifted).Dispatches (.step 0 {} {}) lampOn := by
    unfold Dispatches
    decide
  exact ⟨hd,no_activation_under_stop outletEngine stopLifted hg _ lampOn hd (by decide)⟩

/-- A stop completed between the evaluation and the dispatch of an activation is in force
when the activation is dispatched. -/
theorem stop_misses_activation :
    let k := run step { engine := outletEngine }
      (lampAuthorised++[.setMode 0 none .emergencyStop,.returnMode 0])
    InForce k.modes ∧ k.engine.mode = .emergencyStop ∧ k.Dispatches (.step 0 {} {}) lampOn ∧
      lampOn.on = true := by
  refine ⟨⟨0,[.returned 0],[],by decide,by decide,by simp⟩,by decide,?_,by decide⟩
  unfold Dispatches
  decide

end Controller
end AquaOS
