import AquaOS.FailureAlarm
import AquaOS.OutputSystem

/-! The Shelly adapter: its pending and desired maps, and one poll of an endpoint as a machine.
A step of a poll runs from one lock section or call to the next; a call of the command service
is made on the worker's own thread, and the poll waits for its reply. The map of error texts
kept for health reports decides nothing and is left out. -/
namespace AquaOS
namespace Shelly

open Domain Output Bench

structure PendingCommand where
  id : CommandID
  want : Bool
  expiresAt : ℤ
  deriving DecidableEq

/-- The adapter. The map of endpoints by equipment is the list of its values, in the order in
which their workers were started. -/
structure Adapter where
  endpoints : List Endpoint
  nodup : (endpoints.map Endpoint.equipmentID).Nodup
  pending : Table EquipmentID PendingCommand := ∅
  desired : Table EquipmentID Bool := ∅

def Adapter.endpoint (a : Adapter) (id : EquipmentID) : Option Endpoint :=
  a.endpoints.find? fun e => e.equipmentID = id

/-- The lock section of `Dispatch` after `Switch.Set` was accepted. -/
def Adapter.accept (a : Adapter) (c : Command) : Adapter :=
  { a with
    pending := a.pending.insert c.equipmentID ⟨c.id,c.on,c.expiresAt⟩
    desired := a.desired.insert c.equipmentID c.on }

/-- `delete(a.pending, …)` under the lock. -/
def Adapter.forget (a : Adapter) (id : EquipmentID) : Adapter :=
  { a with pending := a.pending.erase id }

/-- The report of a status, with the desired and pending maps as read under the lock. -/
def Adapter.report (a : Adapter) (e : Endpoint) (st : SwitchStatus) (now : ℤ) : Report :=
  { endpointID := e.id, equipmentID := e.equipmentID, on := st.output, apower := st.apower
    voltage := st.voltage, current := st.current, source := st.source, observedAt := now
    desiredOn := a.desired.lookup e.equipmentID, pending := decide (e.equipmentID ∈ a.pending)
    errors := st.errors }

structure Seen where
  status : SwitchStatus
  errs : List Failure
  deriving DecidableEq

/-- Where a poll goes on after a `ShellyFailure` call: to the pending command after a report,
to the forced expiry after a failed request, or to its end. -/
inductive Next
  | look (st : SwitchStatus) (now : ℤ)
  | expire (now : ℤ)
  | finish (seen : Option Seen)
  deriving DecidableEq

/-- Where the worker of an endpoint stands: what it does next, with the values it holds. An
idle worker keeps what its last poll has seen. -/
inductive PollPoint
  | idle (seen : Option Seen)
  | config
  | status
  | snapshot (st : SwitchStatus) (now : ℤ)
  | report (st : SwitchStatus) (now : ℤ) (r : Report)
  | observe (f : ShellyCall) (next : Next)
  | mark (f : ShellyCall) (err : Option Failure) (next : Next)
  | requesting (errs : List Failure) (next : Next)
  | look (seen : Seen) (now : ℤ)
  | reconciling (p : PendingCommand) (seen : Seen)
  | forget (p : PendingCommand) (seen : Seen)
  | expire (now : ℤ) (force : Bool) (seen : Option Seen)
  | expiring (p : PendingCommand) (now : ℤ) (seen : Option Seen)
  | drop (p : PendingCommand) (now : ℤ) (seen : Option Seen)
  deriving DecidableEq

def Next.point (errs : List Failure) : Next → PollPoint
  | .look st now => .look ⟨st,errs⟩ now
  | .expire now => .expire now true none
  | .finish seen => .idle seen

/-- What the environment answers to a step of a poll: the device, the clock, the canonical
state and the alarm engine's surroundings. -/
structure PollAnswer where
  initialState : Except Failure String := .ok "off"
  status : Except Failure SwitchStatus := .error (.message "no status")
  now : ℤ := 0
  set : Write → Option Failure := fun _ => none
  alarm : Alarms.Answer := {}

/-- What a step of a poll does: the point it reaches, the coordinator and alarms after it, a
call of the command service it starts, whether it deletes the pending entry, and the output
it has read from the device. -/
structure PollEffect where
  point : PollPoint
  site : Site
  call : Option Operation := none
  forgets : Bool := false
  read : Option Bool := none

def unreachable (e : Endpoint) (code : String) (now : ℤ) : PollPoint :=
  .observe ⟨e,true,code,now⟩ (.expire now)

def reasonReconciliationExpired : String := "shelly.reconciliation_expired"

def expiryFailure (e : Endpoint) (now : ℤ) (seen : Option Seen) : PollPoint :=
  .observe ⟨e,true,reasonReconciliationExpired,now⟩ (.finish seen)

/-- `poll` after its report: reconcile, expire or leave the pending command. -/
def lookStep (a : Adapter) (s : Site) (e : Endpoint) (seen : Seen) (now : ℤ) : PollEffect :=
  match a.pending.lookup e.equipmentID with
  | none => { point := .idle (some seen), site := s }
  | some p =>
    if p.expiresAt ≤ now then { point := .expire now false (some seen), site := s }
    else if seen.status.output = p.want then
      { point := .reconciling p seen, site := s
        call := some (.reconcile p.id seen.status.output now) }
    else { point := .idle (some seen), site := s }

/-- `expireIfNeeded` up to its call. -/
def expireStep (a : Adapter) (s : Site) (e : Endpoint) (now : ℤ) (force : Bool)
    (seen : Option Seen) : PollEffect :=
  match a.pending.lookup e.equipmentID with
  | none => { point := .idle seen, site := s }
  | some p =>
    if force = false ∧ now < p.expiresAt then { point := .idle seen, site := s }
    else
      { point := .expiring p now seen, site := s
        call := some (.expireAcknowledged p.id reasonReconciliationExpired now) }

/-- One step of a poll; `reply` is what the service call of the worker has returned. -/
def PollPoint.step (a : Adapter) (s : Site) (e : Endpoint) (reply : Option Reply)
    (x : PollAnswer) : PollPoint → PollEffect
  | .idle _ => { point := .config, site := s }
  | .config =>
    match x.initialState with
    | .error _ => { point := unreachable e "shelly.config_unavailable" x.now, site := s }
    | .ok initial =>
      if initial = e.expectedInitialState then { point := .status, site := s }
      else { point := unreachable e "shelly.power_return_mismatch" x.now, site := s }
  | .status =>
    match x.status with
    | .error _ => { point := unreachable e "shelly.unreachable" x.now, site := s }
    | .ok st => { point := .snapshot st x.now, site := s, read := some st.output }
  | .snapshot st now => { point := .report st now (a.report e st now), site := s }
  | .report st now r =>
    match s.coordinator.reportShelly x.set r with
    | .error err => { point := .look ⟨st,[err]⟩ now, site := s }
    | .ok none => { point := .look ⟨st,[]⟩ now, site := s }
    | .ok (some f) => { point := .observe f (.look st now), site := s }
  | .observe f next =>
    match s.coordinator.observeShelly s.alarms x.alarm f with
    | (.error err,m) => { point := next.point [err], site := { s with alarms := m } }
    | (.ok err,m) => { point := .mark f err next, site := { s with alarms := m } }
  | .mark f err next =>
    if s.coordinator.requests f then
      { point := .requesting err.toList next, site := s.step (.mark f)
        call := some (.submit f.command) }
    else { point := next.point err.toList, site := s.step (.mark f) }
  | .requesting errs next =>
    match reply with
    | none => { point := .requesting errs next, site := s }
    | some reply => { point := next.point (errs++reply.err.toList), site := s }
  | .look seen now => lookStep a s e seen now
  | .reconciling p seen =>
    match reply with
    | none => { point := .reconciling p seen, site := s }
    | some reply =>
      { point := if reply.err = none then .forget p seen else .idle (some seen), site := s }
  | .forget _ seen => { point := .idle (some seen), site := s, forgets := true }
  | .expire now force seen => expireStep a s e now force seen
  | .expiring p now seen =>
    match reply with
    | none => { point := .expiring p now seen, site := s }
    | some reply =>
      { point := if reply.err = none then .drop p now seen else expiryFailure e now seen, site := s }
  | .drop _ now seen => { point := expiryFailure e now seen, site := s, forgets := true }

/-- The points of a poll that wait for the service. -/
def PollPoint.Waiting : PollPoint → Prop
  | .requesting _ _ | .reconciling _ _ | .expiring _ _ _ => True
  | _ => False

/-- All a step of a poll can do, one constructor for each way out of a point. -/
inductive PollSteps (a : Adapter) (s : Site) (e : Endpoint) (reply : Option Reply) :
    PollPoint → PollEffect → Prop
  | begun (seen : Option Seen) : PollSteps a s e reply (.idle seen) { point := .config, site := s }
  | verified : PollSteps a s e reply .config { point := .status, site := s }
  | failed (p : PollPoint) (code : String) (now : ℤ) (hp : p = .config ∨ p = .status) :
      PollSteps a s e reply p { point := unreachable e code now, site := s }
  | read (st : SwitchStatus) (now : ℤ) : PollSteps a s e reply .status
      { point := .snapshot st now, site := s, read := some st.output }
  | snapshot (st : SwitchStatus) (now : ℤ) : PollSteps a s e reply (.snapshot st now)
      { point := .report st now (a.report e st now), site := s }
  | reported (st : SwitchStatus) (now : ℤ) (r : Report) (errs : List Failure) :
      PollSteps a s e reply (.report st now r) { point := .look ⟨st,errs⟩ now, site := s }
  | failing (st : SwitchStatus) (now : ℤ) (r : Report) (f : ShellyCall) :
      PollSteps a s e reply (.report st now r) { point := .observe f (.look st now), site := s }
  | unknown (f : ShellyCall) (next : Next) (s' : Site) (err : Failure) :
      PollSteps a s e reply (.observe f next) { point := next.point [err], site := s' }
  | observed (f : ShellyCall) (next : Next) (s' : Site) (err : Option Failure) :
      PollSteps a s e reply (.observe f next) { point := .mark f err next, site := s' }
  | requested (f : ShellyCall) (err : Option Failure) (next : Next) :
      PollSteps a s e reply (.mark f err next)
        { point := .requesting err.toList next, site := s.step (.mark f)
          call := some (.submit f.command) }
  | marked (f : ShellyCall) (err : Option Failure) (next : Next) :
      PollSteps a s e reply (.mark f err next)
        { point := next.point err.toList, site := s.step (.mark f) }
  | waits (p : PollPoint) (hp : p.Waiting) (hr : reply = none) :
      PollSteps a s e reply p { point := p, site := s }
  | answered (errs : List Failure) (next : Next) (r : Reply) (hr : reply = some r) :
      PollSteps a s e reply (.requesting errs next)
        { point := next.point (errs++r.err.toList), site := s }
  | nothing (seen : Seen) (now : ℤ) (hp : a.pending.lookup e.equipmentID = none) :
      PollSteps a s e reply (.look seen now) { point := .idle (some seen), site := s }
  | unmet (seen : Seen) (now : ℤ) (p : PendingCommand)
      (hp : a.pending.lookup e.equipmentID = some p) (hwant : seen.status.output ≠ p.want) :
      PollSteps a s e reply (.look seen now) { point := .idle (some seen), site := s }
  | late (seen : Seen) (now : ℤ) (p : PendingCommand)
      (hp : a.pending.lookup e.equipmentID = some p) (hlate : p.expiresAt ≤ now) :
      PollSteps a s e reply (.look seen now) { point := .expire now false (some seen), site := s }
  | matched (seen : Seen) (now : ℤ) (p : PendingCommand)
      (hp : a.pending.lookup e.equipmentID = some p) (hlive : now < p.expiresAt)
      (hwant : seen.status.output = p.want) :
      PollSteps a s e reply (.look seen now)
        { point := .reconciling p seen, site := s
          call := some (.reconcile p.id seen.status.output now) }
  | reconciled (p : PendingCommand) (seen : Seen) (r : Reply) (hr : reply = some r)
      (herr : r.err = none) :
      PollSteps a s e reply (.reconciling p seen) { point := .forget p seen, site := s }
  | unreconciled (p : PendingCommand) (seen : Seen) (r : Reply) (hr : reply = some r)
      (herr : r.err ≠ none) :
      PollSteps a s e reply (.reconciling p seen) { point := .idle (some seen), site := s }
  | forgotten (p : PendingCommand) (seen : Seen) : PollSteps a s e reply (.forget p seen)
      { point := .idle (some seen), site := s, forgets := true }
  | kept (now : ℤ) (force : Bool) (seen : Option Seen) :
      PollSteps a s e reply (.expire now force seen) { point := .idle seen, site := s }
  | due (now : ℤ) (force : Bool) (seen : Option Seen) (p : PendingCommand)
      (hp : a.pending.lookup e.equipmentID = some p) :
      PollSteps a s e reply (.expire now force seen)
        { point := .expiring p now seen, site := s
          call := some (.expireAcknowledged p.id reasonReconciliationExpired now) }
  | expired (p : PendingCommand) (now : ℤ) (seen : Option Seen) (r : Reply)
      (hr : reply = some r) (herr : r.err = none) :
      PollSteps a s e reply (.expiring p now seen) { point := .drop p now seen, site := s }
  | unexpired (p : PendingCommand) (now : ℤ) (seen : Option Seen) (r : Reply)
      (hr : reply = some r) (herr : r.err ≠ none) :
      PollSteps a s e reply (.expiring p now seen) { point := expiryFailure e now seen, site := s }
  | dropped (p : PendingCommand) (now : ℤ) (seen : Option Seen) :
      PollSteps a s e reply (.drop p now seen)
        { point := expiryFailure e now seen, site := s, forgets := true }

section Branches

variable (a : Adapter) (s : Site) (e : Endpoint) (reply : Option Reply)

theorem lookStep_steps (seen : Seen) (now : ℤ) :
    PollSteps a s e reply (.look seen now) (lookStep a s e seen now) := by
  unfold lookStep
  cases hp : a.pending.lookup e.equipmentID with
  | none => exact .nothing seen now hp
  | some p =>
    dsimp only
    split_ifs with hlate hwant
    · exact .late seen now p hp hlate
    · exact .matched seen now p hp (not_le.mp hlate) hwant
    · exact .unmet seen now p hp hwant

theorem expireStep_steps (now : ℤ) (force : Bool) (seen : Option Seen) :
    PollSteps a s e reply (.expire now force seen) (expireStep a s e now force seen) := by
  unfold expireStep
  cases hp : a.pending.lookup e.equipmentID with
  | none => exact .kept now force seen
  | some p =>
    dsimp only
    split_ifs
    · exact .kept now force seen
    · exact .due now force seen p hp

theorem waiting_steps (x : PollAnswer) (p : PollPoint) (hp : p.Waiting) :
    PollSteps a s e reply p (p.step a s e reply x) := by
  cases p with
  | requesting errs next =>
    unfold PollPoint.step
    cases reply with
    | none => exact .waits _ trivial rfl
    | some r => exact .answered errs next r rfl
  | reconciling p seen =>
    unfold PollPoint.step
    cases reply with
    | none => exact .waits _ trivial rfl
    | some r =>
      dsimp only
      split_ifs with herr
      · exact .reconciled p seen r rfl herr
      · exact .unreconciled p seen r rfl herr
  | expiring p now seen =>
    unfold PollPoint.step
    cases reply with
    | none => exact .waits _ trivial rfl
    | some r =>
      dsimp only
      split_ifs with herr
      · exact .expired p now seen r rfl herr
      · exact .unexpired p now seen r rfl herr
  | _ => exact absurd hp id

theorem poll_steps (x : PollAnswer) (p : PollPoint) :
    PollSteps a s e reply p (p.step a s e reply x) := by
  cases p with
  | idle seen => exact .begun seen
  | config =>
    unfold PollPoint.step
    cases x.initialState with
    | error err => exact .failed _ _ _ (.inl rfl)
    | ok initial =>
      dsimp only
      split_ifs
      · exact .verified
      · exact .failed _ _ _ (.inl rfl)
  | status =>
    unfold PollPoint.step
    cases x.status with
    | error err => exact .failed _ _ _ (.inr rfl)
    | ok st => exact .read st x.now
  | snapshot st now => exact .snapshot st now
  | report st now r =>
    unfold PollPoint.step
    dsimp only
    cases s.coordinator.reportShelly x.set r with
    | error err => exact .reported st now r _
    | ok call =>
      cases call with
      | none => exact .reported st now r _
      | some f => exact .failing st now r f
  | observe f next =>
    unfold PollPoint.step
    dsimp only
    rcases s.coordinator.observeShelly s.alarms x.alarm f with ⟨err | err,m⟩
    · exact .unknown f next _ err
    · exact .observed f next _ err
  | mark f err next =>
    unfold PollPoint.step
    dsimp only
    split_ifs
    · exact .requested f err next
    · exact .marked f err next
  | requesting errs next => exact waiting_steps a s e reply x _ trivial
  | look seen now => exact lookStep_steps a s e reply seen now
  | reconciling p seen => exact waiting_steps a s e reply x _ trivial
  | forget p seen => exact .forgotten p seen
  | expire now force seen => exact expireStep_steps a s e reply now force seen
  | expiring p now seen => exact waiting_steps a s e reply x _ trivial
  | drop p now seen => exact .dropped p now seen

end Branches

end Shelly
end AquaOS
