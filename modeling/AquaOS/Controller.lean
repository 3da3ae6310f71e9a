import AquaOS.OutputSystem
import AquaOS.WatchdogSweep

/-! The command service with the safety engine as its policy. A thread that calls its policy
is answered by the engine; `Evaluate` takes two steps, its locked section and the checks
after it, and so does `SetMode`, its locked section and its return. -/
namespace AquaOS

open Domain SafetyEngine Output Transition

/-- What a call on the engine meets: the context, the clock, the state reader and the orders
in which it visits its maps. -/
structure PolicyAnswer where
  ctx : Option Failure := none
  clock : ℤ := 0
  get : Reader := fun _ _ => .error .stateNotFound
  order : VisitOrder := ⟨[],[]⟩

/-- Calls on the engine from outside the command service. -/
inductive PolicyCall
  | evaluate (intent : Intent)
  | recordReported (id : EquipmentID) (on : Bool) (observedAt : ℤ)
  | checkWatchdogs
  | grantOverride (o : Override)
  | revokeOverride (id : EquipmentID)

def PolicyCall.apply (e : Engine) (q : PolicyAnswer) : PolicyCall → Engine
  | .evaluate intent => (e.evaluate q.ctx q.clock q.get intent).2
  | .recordReported id on observedAt => (e.recordReported q.ctx id on observedAt).2
  | .checkWatchdogs => (e.checkWatchdogs q.ctx q.clock q.order).2
  | .grantOverride o => (e.grantOverride q.ctx q.clock o).2
  | .revokeOverride id => (e.revokeOverride q.ctx id).2

theorem PolicyCall.keeps (e : Engine) (q : PolicyAnswer) (call : PolicyCall) :
    Keeps e (call.apply e q) := by
  cases call with
  | evaluate intent =>
    unfold PolicyCall.apply
    dsimp only
    cases q.ctx with
    | some err => exact Keeps.refl e
    | none => rw [evaluate_snd]; exact evaluateLocked_keeps e intent _
  | recordReported id on observedAt => exact recordReported_keeps e q.ctx id on observedAt
  | checkWatchdogs => exact checkWatchdogs_keeps e q.ctx q.clock q.order
  | grantOverride o => exact grantOverride_keeps e q.ctx q.clock o
  | revokeOverride id => exact revokeOverride_keeps e q.ctx id

/-- What a call of the service asks its policy. -/
inductive Request
  | check
  | evaluate (intent : Intent)
  | report (id : EquipmentID) (on : Bool) (observedAt : ℤ)

def Output.Point.request : Point → Option Request
  | .evaluate c => some (.evaluate c.intent)
  | .report _ c on observedAt => some (.report c.equipmentID on observedAt)
  | _ => none

def Output.Thread.request : Thread → Option Request
  | .checking ttl => if 0 < ttl then some .check else none
  | t => t.point.bind Point.request

/-- The locked section of a `SetMode` call and its return. -/
inductive ModeEvent
  | set (j : ℕ) (mode : Mode)
  | returned (j : ℕ)
  deriving DecidableEq

/-- Engine and service with the `Evaluate` calls that have released the engine lock, the
`SetMode` calls that have not returned, and the mode events from the newest on. -/
structure Controller where
  engine : Engine
  world : World := {}
  evaluating : ℕ → Option (Option Evaluation) := fun _ => none
  setting : ℕ → Option Mode := fun _ => none
  modes : List ModeEvent := []

inductive Input
  | start (i : ℕ) (op : Operation)
  | step (i : ℕ) (a : Answer) (q : PolicyAnswer)
  | policy (call : PolicyCall) (q : PolicyAnswer)
  | setMode (j : ℕ) (ctx : Option Failure) (mode : Mode)
  | returnMode (j : ℕ)

/-- `Evaluate` after its locked section. -/
def decisionOf (get : Reader) : Option Evaluation → Except Failure Decision
  | none => .ok { reason := reasonUnknownEquipment }
  | some ev => ev.decide get

/-- The two steps of an `Evaluate` call are the call. -/
theorem evaluate_two_steps (e : Engine) (clock : ℤ) (get : Reader) (intent : Intent) :
    e.evaluate none clock get intent =
      (decisionOf get (e.evaluateLocked intent (intent.time clock)).1,
        (e.evaluateLocked intent (intent.time clock)).2) := by
  unfold Engine.evaluate
  rcases e.evaluateLocked intent (intent.time clock) with ⟨_ | ev,e'⟩ <;> rfl

namespace Controller

def feed (k : Controller) (i : ℕ) (a : Answer) : Controller :=
  { k with world := k.world.step (.step i a) }

/-- A thread's policy call, answered by the engine. -/
def ask (k : Controller) (i : ℕ) (a : Answer) (q : PolicyAnswer) : Request → Controller
  | .check =>
    let out := k.engine.checkWatchdogs q.ctx q.clock q.order
    { k.feed i { a with actions := out.1 } with engine := out.2 }
  | .report id on observedAt =>
    let out := k.engine.recordReported q.ctx id on observedAt
    { k.feed i { a with reported := out.1 } with engine := out.2 }
  | .evaluate intent =>
    match k.evaluating i, q.ctx with
    | some ev, _ =>
      { k.feed i { a with decision := decisionOf q.get ev } with
        evaluating := Function.update k.evaluating i none }
    | none, some err => k.feed i { a with decision := .error err }
    | none, none =>
      let out := k.engine.evaluateLocked intent (intent.time q.clock)
      { k with engine := out.2, evaluating := Function.update k.evaluating i (some out.1) }

/-- The locked section of `SetMode`; a call that fails its checks has none. -/
def setMode (k : Controller) (j : ℕ) (ctx : Option Failure) (mode : Mode) : Controller :=
  match k.setting j, k.engine.setMode ctx mode with
  | none, .ok e =>
    { k with
      engine := e, setting := Function.update k.setting j (some mode)
      modes := .set j mode::k.modes }
  | _, _ => k

def returnMode (k : Controller) (j : ℕ) : Controller :=
  match k.setting j with
  | none => k
  | some _ =>
    { k with setting := Function.update k.setting j none, modes := .returned j::k.modes }

def step (k : Controller) : Input → Controller
  | .start i op => { k with world := k.world.step (.start i op) }
  | .step i a q =>
    match (k.world.thread i).request with
    | none => k.feed i a
    | some request => k.ask i a q request
  | .policy call q => { k with engine := call.apply k.engine q }
  | .setMode j ctx mode => k.setMode j ctx mode
  | .returnMode j => k.returnMode j

variable {k k' : Controller} {i : ℕ} {a : Answer} {q : PolicyAnswer}

theorem step_of_no_request (h : (k.world.thread i).request = none)
    (a : Answer) (q : PolicyAnswer) : k.step (.step i a q) = k.feed i a := by
  rw [step,h]

/-- All a step of a thread can do: what it does without its policy, or a policy call. -/
inductive Stepped (k : Controller) (i : ℕ) (a : Answer) (q : PolicyAnswer) : Controller → Prop
  | fed (hr : (k.world.thread i).request = none) : Stepped k i a q (k.feed i a)
  | checked (ttl : ℤ) (ht : k.world.thread i = .checking ttl) (httl : 0 < ttl) :
      Stepped k i a q (k.ask i a q .check)
  | reported (id : CommandID) (c : Command) (on : Bool) (observedAt : ℤ)
      (hp : (k.world.thread i).point = some (.report id c on observedAt)) :
      Stepped k i a q (k.ask i a q (.report c.equipmentID on observedAt))
  | locked (c : Command) (hp : (k.world.thread i).point = some (.evaluate c))
      (he : k.evaluating i = none) (hctx : q.ctx = none) :
      Stepped k i a q { k with
        engine := (k.engine.evaluateLocked c.intent (c.intent.time q.clock)).2
        evaluating := Function.update k.evaluating i
          (some (k.engine.evaluateLocked c.intent (c.intent.time q.clock)).1) }
  | cancelled (c : Command) (err : Failure) (hp : (k.world.thread i).point = some (.evaluate c))
      (he : k.evaluating i = none) (hctx : q.ctx = some err) :
      Stepped k i a q (k.feed i { a with decision := .error err })
  | decided (c : Command) (ev : Option Evaluation)
      (hp : (k.world.thread i).point = some (.evaluate c)) (he : k.evaluating i = some ev) :
      Stepped k i a q { k.feed i { a with decision := decisionOf q.get ev } with
        evaluating := Function.update k.evaluating i none }

theorem point_stepped {p : Point} (a : Answer) (q : PolicyAnswer)
    (hp : (k.world.thread i).point = some p) {request : Request} (hr : p.request = some request) :
    Stepped k i a q (k.ask i a q request) := by
  cases p with
  | report id c on observedAt => cases hr; exact .reported id c on observedAt hp
  | evaluate c =>
    cases hr
    unfold ask
    dsimp only
    cases he : k.evaluating i with
    | some ev => exact .decided c ev hp he
    | none =>
      cases hctx : q.ctx with
      | some err => exact .cancelled c err hp he hctx
      | none => exact .locked c hp he hctx
  | _ => cases hr

theorem step_stepped (k : Controller) (i : ℕ) (a : Answer) (q : PolicyAnswer) :
    Stepped k i a q (k.step (.step i a q)) := by
  unfold step
  dsimp only
  cases hr : (k.world.thread i).request with
  | none => exact .fed hr
  | some request =>
    dsimp only
    cases ht : k.world.thread i with
    | checking ttl =>
      rw [ht] at hr
      unfold Thread.request at hr
      dsimp only at hr
      split_ifs at hr with httl
      cases hr
      exact .checked ttl ht httl
    | call p => exact point_stepped a q (by rw [ht]; rfl) (by rw [ht] at hr; exact hr)
    | acting ttl actions results p =>
      exact point_stepped a q (by rw [ht]; rfl) (by rw [ht] at hr; exact hr)
    | _ => rw [ht] at hr; cases hr

/-- A step of a thread is one of the service, on an answer with the same event result, or
none. -/
theorem Stepped.answered (h : Stepped k i a q k') : k'.world = k.world ∨
      ∃ a', k'.world = k.world.step (.step i a') ∧ a'.emitted = a.emitted := by
  cases h with
  | locked _ _ _ _ => exact .inl rfl
  | fed _ => exact .inr ⟨a,rfl,rfl⟩
  | checked _ _ _ | reported _ _ _ _ _ | cancelled _ _ _ _ _
  | decided _ _ _ _ => exact .inr ⟨_,rfl,rfl⟩

theorem Stepped.world (h : Stepped k i a q k') :
    k'.world = k.world ∨ ∃ a', k'.world = k.world.step (.step i a') := by
  rcases h.answered with hw | ⟨a',hw,_⟩
  · exact .inl hw
  · exact .inr ⟨a',hw⟩

theorem Stepped.thread_ne {j : ℕ}
    (h : Stepped k i a q k') (hj : j ≠ i) : k'.world.thread j = k.world.thread j := by
  rcases h.world with hw | ⟨a',hw⟩
  · rw [hw]
  · rw [hw,step_thread_ne _ (.step i a') hj]

theorem Stepped.keeps (h : Stepped k i a q k') : Keeps k.engine k'.engine := by
  cases h with
  | checked _ _ _ => exact checkWatchdogs_keeps k.engine q.ctx q.clock q.order
  | reported _ c on observedAt _ =>
    exact recordReported_keeps k.engine q.ctx c.equipmentID on observedAt
  | locked c _ _ _ => exact evaluateLocked_keeps k.engine c.intent _
  | _ => exact Keeps.refl k.engine

theorem setMode_cases (k : Controller) (j : ℕ) (ctx : Option Failure) (mode : Mode) :
    k.setMode j ctx mode = k ∨ (ctx = none ∧ k.setMode j ctx mode =
      { k with
        engine := { k.engine with mode := mode }
        setting := Function.update k.setting j (some mode), modes := .set j mode::k.modes }) := by
  unfold setMode
  split
  · next e _ he =>
    unfold Engine.setMode at he
    split at he
    · cases he
    · cases he
    · cases he; exact .inr ⟨rfl,rfl⟩
  · exact .inl rfl

theorem returnMode_cases (k : Controller) (j : ℕ) : k.returnMode j = k ∨ k.returnMode j =
      { k with setting := Function.update k.setting j none, modes := .returned j::k.modes } := by
  unfold returnMode
  cases k.setting j with
  | none => exact .inl rfl
  | some mode => exact .inr rfl

/-- To the command service an engine is one of the policies it may meet: every step of the
controller is a step of the service or none. -/
theorem step_world (k : Controller) (l : Input) :
    (k.step l).world = k.world ∨ ∃ l', (k.step l).world = k.world.step l' := by
  cases l with
  | start i op => exact .inr ⟨.start i op,rfl⟩
  | step i a q =>
    rcases (step_stepped k i a q).world with h | ⟨a',h⟩
    · exact .inl h
    · exact .inr ⟨_,h⟩
  | policy call q => exact .inl rfl
  | setMode j ctx mode =>
    rcases setMode_cases k j ctx mode with h | ⟨_,h⟩
    · exact .inl (congrArg Controller.world h)
    · exact .inl ((congrArg Controller.world h).trans rfl)
  | returnMode j =>
    rcases returnMode_cases k j with h | h
    · exact .inl (congrArg Controller.world h)
    · exact .inl ((congrArg Controller.world h).trans rfl)

/-- Every run of the controller is a run of the service. -/
theorem run_world (k : Controller) (ls : List Input) :
    ∃ ls', (run step k ls).world = run World.step k.world ls' := run_project step_world k ls

end Controller
end AquaOS
