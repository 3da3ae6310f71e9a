import AquaOS.ShellyPoll
import AquaOS.Controller

/-! The command service with its safety engine, the Shelly adapter, the coordinator and the
alarm engine, wired together as the application does it. Client threads submit commands; each
endpoint has one worker, which polls and makes its service calls on the thread of its own
number; the threads of clients come after those of the workers. `Dispatch` of a thread is
answered by the adapter in two steps, `Switch.Set` and the lock section after it. -/
namespace AquaOS

open Domain SafetyEngine Output Transition Shelly Bench

/-- What happened, for statements about the order of things: `Switch.Set` was accepted for a
command, a worker read the output of its switch, a thread's `Reconcile` stored a success. -/
inductive Event
  | accepted (c : Command)
  | read (k : ℕ) (on : Bool)
  | succeeded (i : ℕ) (id : CommandID)
  deriving DecidableEq

/-- `dispatching` holds the commands whose `Switch.Set` was accepted and whose `Dispatch` has
not entered them into the pending map yet. -/
structure Installation where
  controller : Controller
  adapter : Adapter
  site : Site
  poll : ℕ → PollPoint := fun _ => .idle none
  dispatching : ℕ → Option Command := fun _ => none
  events : List Event := []

structure DispatchAnswer where
  attempts : ℕ → Attempt := fun _ => {}
  now : ℤ := 0

inductive ClientCall
  | submit (c : Command)
  | get (id : CommandID)
  | runWatchdogs (ttl : ℤ)

def ClientCall.operation : ClientCall → Operation
  | .submit c => .submit c
  | .get id => .get id
  | .runWatchdogs ttl => .runWatchdogs ttl

inductive Move
  | call (i : ℕ) (c : ClientCall)
  | serve (i : ℕ) (a : Answer) (q : PolicyAnswer) (d : DispatchAnswer)
  | poll (k : ℕ) (x : PollAnswer)
  | alarm (c : Alarms.AlarmCall)

/-- The acknowledgement of the router's fallback for equipment without an adapter. -/
def notConfigured : Acknowledgement := ⟨false,"adapter.not_configured",0⟩

namespace Installation

def point (s : Installation) (i : ℕ) : Option Point := (s.controller.world.thread i).point

def reply (s : Installation) (i : ℕ) : Option Reply := (s.point i).bind Point.reply

def results (s : Installation) : Table CommandID Result := s.controller.world.store.results

def accepting (s : Installation) (i : ℕ) (d : DispatchAnswer) : Option Command :=
  match s.point i, s.dispatching i with
  | some (.awaiting c), none =>
    match s.adapter.endpoint c.equipmentID with
    | some e => if e.setWithRetry d.attempts = none then some c else none
    | none => none
  | _, _ => none

/-- A step of a thread inside `Dispatch`: its lock section if `Switch.Set` has been accepted,
else the lookup of the endpoint with the attempts to set the switch. -/
def dispatch (s : Installation) (i : ℕ) (a : Answer) (d : DispatchAnswer) (c : Command) :
    Installation :=
  match s.dispatching i with
  | some c' =>
    { s with
      controller := s.controller.feed i
        { a with acknowledgement := .ok ⟨true,"shelly.rpc_accepted",d.now⟩ }
      adapter := s.adapter.accept c'
      dispatching := Function.update s.dispatching i none }
  | none =>
    match s.adapter.endpoint c.equipmentID with
    | none =>
      { s with controller := s.controller.feed i { a with acknowledgement := .ok notConfigured } }
    | some e =>
      match e.setWithRetry d.attempts with
      | some err =>
        { s with controller := s.controller.feed i { a with acknowledgement := .error err } }
      | none =>
        { s with
          dispatching := Function.update s.dispatching i (some c)
          events := .accepted c::s.events }

def succeeding (s : Installation) (i : ℕ) : Option CommandID :=
  match s.point i with
  | some (.close id (.reconciled _)) => if id ∈ s.results then some id else none
  | _ => none

def serve (s : Installation) (i : ℕ) (a : Answer) (q : PolicyAnswer) (d : DispatchAnswer) :
    Installation :=
  match s.point i with
  | some (.awaiting c) => s.dispatch i a d c
  | _ =>
    { s with
      controller := s.controller.step (.step i a q)
      events := ((s.succeeding i).map (.succeeded i)).toList++s.events }

/-- The effect of a step of worker `k`. -/
def apply (s : Installation) (k : ℕ) (e : Endpoint) (eff : PollEffect) : Installation :=
  { s with
    controller := match eff.call with
      | none => s.controller
      | some op => s.controller.step (.start k op)
    adapter := if eff.forgets then s.adapter.forget e.equipmentID else s.adapter
    site := eff.site
    poll := Function.update s.poll k eff.point
    events := (eff.read.map (.read k)).toList++s.events }

def step (s : Installation) : Move → Installation
  | .call i c =>
    if i < s.adapter.endpoints.length then s
    else { s with controller := s.controller.step (.start i c.operation) }
  | .serve i a q d => s.serve i a q d
  | .poll k x =>
    match s.adapter.endpoints[k]? with
    | none => s
    | some e => s.apply k e ((s.poll k).step s.adapter s.site e (s.reply k) x)
  | .alarm c => { s with site := s.site.step (.alarm c) }

/-- All a step can do, with what it is taken from. -/
inductive Moved (s : Installation) : Move → Installation → Prop
  | rests (m : Move) : Moved s m s
  | alarmed (c : Alarms.AlarmCall) :
      Moved s (.alarm c) { s with site := s.site.step (.alarm c) }
  | called (i : ℕ) (c : ClientCall) (hi : s.adapter.endpoints.length ≤ i) :
      Moved s (.call i c) { s with controller := s.controller.step (.start i c.operation) }
  | served (i : ℕ) (a : Answer) (q : PolicyAnswer) (d : DispatchAnswer)
      (hp : ∀ c, s.point i ≠ some (.awaiting c)) :
      Moved s (.serve i a q d)
        { s with
          controller := s.controller.step (.step i a q)
          events := ((s.succeeding i).map (.succeeded i)).toList++s.events }
  | inserted (i : ℕ) (a : Answer) (q : PolicyAnswer) (d : DispatchAnswer) (c c' : Command)
      (hp : s.point i = some (.awaiting c)) (hd : s.dispatching i = some c') :
      Moved s (.serve i a q d)
        { s with
          controller := s.controller.feed i
            { a with acknowledgement := .ok ⟨true,"shelly.rpc_accepted",d.now⟩ }
          adapter := s.adapter.accept c'
          dispatching := Function.update s.dispatching i none }
  | accepted (i : ℕ) (a : Answer) (q : PolicyAnswer) (d : DispatchAnswer) (c : Command)
      (e : Endpoint) (hp : s.point i = some (.awaiting c)) (hd : s.dispatching i = none)
      (he : s.adapter.endpoint c.equipmentID = some e) (hc : s.accepting i d = some c) :
      Moved s (.serve i a q d)
        { s with
          dispatching := Function.update s.dispatching i (some c)
          events := .accepted c::s.events }
  | refused (i : ℕ) (a : Answer) (q : PolicyAnswer) (d : DispatchAnswer) (c : Command)
      (ack : Except Failure Acknowledgement) (hp : s.point i = some (.awaiting c))
      (hd : s.dispatching i = none) (hack : ∀ ok, ack = .ok ok → ok.accepted = false) :
      Moved s (.serve i a q d)
        { s with controller := s.controller.feed i { a with acknowledgement := ack } }
  | polled (k : ℕ) (x : PollAnswer) (e : Endpoint) (eff : PollEffect)
      (he : s.adapter.endpoints[k]? = some e)
      (heff : PollSteps s.adapter s.site e (s.reply k) (s.poll k) eff) :
      Moved s (.poll k x) (s.apply k e eff)

theorem dispatch_moved (s : Installation) (i : ℕ) (a : Answer) (q : PolicyAnswer)
    (d : DispatchAnswer) (c : Command) (hp : s.point i = some (.awaiting c)) :
    Moved s (.serve i a q d) (s.dispatch i a d c) := by
  unfold dispatch
  cases hd : s.dispatching i with
  | some c' => exact .inserted i a q d c c' hp hd
  | none =>
    dsimp only
    cases he : s.adapter.endpoint c.equipmentID with
    | none => exact .refused i a q d c _ hp hd (by rintro ok ⟨⟩; rfl)
    | some e =>
      dsimp only
      cases hset : e.setWithRetry d.attempts with
      | some err => exact .refused i a q d c _ hp hd (by rintro ok ⟨⟩)
      | none => exact .accepted i a q d c e hp hd he (by simp [accepting,hp,hd,he,hset])

theorem step_moved (s : Installation) (m : Move) : Moved s m (s.step m) := by
  cases m with
  | call i c =>
    unfold step
    dsimp only
    split_ifs with hi
    · exact .rests _
    · exact .called i c (not_lt.mp hi)
  | serve i a q d =>
    unfold step serve
    dsimp only
    split
    · next c hp => exact s.dispatch_moved i a q d c hp
    · next hp => exact .served i a q d hp
  | poll k x =>
    unfold step
    dsimp only
    split
    · exact .rests _
    · next e he => exact .polled k x e _ he (poll_steps s.adapter s.site e _ x _)
  | alarm c => exact .alarmed c

theorem invariant {Inv : Installation → Prop} {guard : Installation → Move → Prop}
    (hstep : ∀ s m s', Inv s → guard s m → Moved s m s' → Inv s') {s : Installation}
    {ms : List Move} (hs : Inv s) (hg : Guarded step guard s ms) : Inv (run step s ms) := by
  have hone : ∀ s m, Inv s → guard s m → Inv (step s m) := fun s m h hm =>
    hstep s m _ h hm (s.step_moved m)
  exact invariant_run hone hs hg

end Installation

section Endpoints

variable {a : Adapter}

theorem worker_unique {k j : ℕ} {e e' : Endpoint} (hk : a.endpoints[k]? = some e)
    (hj : a.endpoints[j]? = some e') (h : e.equipmentID = e'.equipmentID) : k = j := by
  have hk' : (a.endpoints.map Endpoint.equipmentID)[k]? = some e.equipmentID := by simp [hk]
  have hj' : (a.endpoints.map Endpoint.equipmentID)[j]? = some e.equipmentID := by simp [hj,h]
  obtain ⟨hlt,_⟩ := List.getElem?_eq_some_iff.mp hk'
  exact (List.getElem?_inj hlt a.nodup).mp (hk'.trans hj'.symm)

theorem endpoint_worker {id : EquipmentID} {e : Endpoint} (h : a.endpoint id = some e) :
    ∃ k : ℕ, a.endpoints[k]? = some e ∧ e.equipmentID = id := by
  have hmem := List.mem_of_find?_eq_some h
  have hid := List.find?_some h
  obtain ⟨k,hk⟩ := List.mem_iff_getElem?.mp hmem
  exact ⟨k,hk,by simpa using hid⟩

end Endpoints

end AquaOS
