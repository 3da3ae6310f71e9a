import AquaOS.SafetyEngine

/-! The command service as a machine. A call is a point of its control flow together with
the values it holds there; one step runs from one lock section or collaborator call to
the next, on the answer its environment gives. Copies made on the way in and out of the
store are values here, so the clone functions have no counterpart. -/
namespace AquaOS
namespace Output

open Domain SafetyEngine

inductive Status
  | validated | rejected | dispatched | acknowledged | succeeded | failed | expired
  deriving DecidableEq

def reasonValidated : String := "command.validated"
def reasonDispatched : String := "command.dispatched"
def reasonExpired : String := "command.expired"
def reasonRevisionConflict : String := "command.revision_conflict"
def reasonDispatchFailed : String := "command.dispatch_failed"
def reasonAdapterRejected : String := "command.adapter_rejected"
def reasonAcknowledged : String := "command.acknowledged"
def reasonReconciled : String := "command.reconciled"
def reasonReportedMismatch : String := "command.reported_mismatch"

structure Command where
  id : CommandID
  idempotencyKey : String
  correlationID : CorrelationID
  equipmentID : EquipmentID
  requester : String
  issuedAt : ℤ
  expiresAt : ℤ
  expectedRevision : Option Revision := none
  on : Bool
  deriving DecidableEq

structure Result where
  command : Command
  status : Status
  reason : String
  updatedAt : ℤ
  acknowledgedAt : Option ℤ := none
  reconciledAt : Option ℤ := none
  deriving DecidableEq

structure Acknowledgement where
  accepted : Bool
  reason : String
  acknowledgedAt : ℤ
  deriving DecidableEq

inductive EventType
  | commandValidated | commandRejected | commandDispatched | commandAcknowledged
  | commandReconciled | commandExpired
  deriving DecidableEq

inductive Severity
  | info | warning
  deriving DecidableEq

def Result.severity (r : Result) : Severity :=
  if r.status = .rejected ∨ r.status = .failed ∨ r.status = .expired then .warning else .info

structure Reply where
  result : Option Result
  err : Option Failure
  deriving DecidableEq

def validateCommand (c : Command) : Option Failure :=
  match validateID c.id, validateID c.correlationID, validateID c.equipmentID with
  | some err, _, _ => some (.wrapped "command ID" err)
  | none, some err, _ => some (.wrapped "correlation ID" err)
  | none, none, some err => some (.wrapped "equipment ID" err)
  | none, none, none =>
    if c.idempotencyKey = "" ∨ 128 < (bytes c.idempotencyKey).length then
      some (.message "idempotency key is required and cannot exceed 128 bytes")
    else if c.requester = "" then some (.message "command requester is required")
    else if c.issuedAt = 0 ∨ c.expiresAt = 0 ∨ c.expiresAt ≤ c.issuedAt then
      some (.message "command expiry must follow issue time")
    else none

def Equivalent (left right : Command) : Prop :=
  left.idempotencyKey = right.idempotencyKey ∧ left.equipmentID = right.equipmentID ∧
    left.requester = right.requester ∧ left.on = right.on

instance (left right : Command) : Decidable (Equivalent left right) :=
  inferInstanceAs (Decidable (_ ∧ _))

/-- How `Submit` records a command: the status, reason and event of each of its calls of
`record`. -/
inductive Admission
  | expired | revisionConflict | denied (reason : String) | validated
  deriving DecidableEq

def Admission.status : Admission → Status
  | .expired => .expired
  | .revisionConflict | .denied _ => .rejected
  | .validated => .validated

def Admission.reason : Admission → String
  | .expired => reasonExpired
  | .revisionConflict => reasonRevisionConflict
  | .denied reason => reason
  | .validated => reasonValidated

def Admission.event : Admission → EventType
  | .expired => .commandExpired
  | .revisionConflict | .denied _ => .commandRejected
  | .validated => .commandValidated

/-- How `Submit` settles a dispatched command. -/
inductive Settlement
  | dispatchFailed | adapterRejected | acknowledged (time : ℤ)
  deriving DecidableEq

/-- How `Reconcile` and `ExpireAcknowledged` close an acknowledged command. -/
inductive Closure
  | mismatch | reconciled (time : ℤ) | expired (reason : String)
  deriving DecidableEq

/-- The calls of `transition`. -/
inductive Change
  | dispatched | settled (s : Settlement) | closed (c : Closure)
  deriving DecidableEq

def Change.status : Change → Status
  | .dispatched => .dispatched
  | .settled .dispatchFailed | .settled .adapterRejected => .failed
  | .settled (.acknowledged _) => .acknowledged
  | .closed .mismatch => .failed
  | .closed (.reconciled _) => .succeeded
  | .closed (.expired _) => .expired

def Change.reason : Change → String
  | .dispatched => reasonDispatched
  | .settled .dispatchFailed => reasonDispatchFailed
  | .settled .adapterRejected => reasonAdapterRejected
  | .settled (.acknowledged _) => reasonAcknowledged
  | .closed .mismatch => reasonReportedMismatch
  | .closed (.reconciled _) => reasonReconciled
  | .closed (.expired reason) => reason

def Change.event : Change → EventType
  | .dispatched => .commandDispatched
  | .settled .dispatchFailed | .settled .adapterRejected => .commandRejected
  | .settled (.acknowledged _) => .commandAcknowledged
  | .closed .mismatch | .closed (.reconciled _) => .commandReconciled
  | .closed (.expired _) => .commandExpired

def Change.time : Change → Option ℤ
  | .settled (.acknowledged time) | .closed (.reconciled time) => some time
  | _ => none

/-- The record `transition` writes back. -/
def Result.change (r : Result) (ch : Change) (now : ℤ) : Result :=
  { r with
    status := ch.status, reason := ch.reason, updatedAt := now
    acknowledgedAt := if ch.status = .acknowledged then ch.time else r.acknowledgedAt
    reconciledAt := if ch.status = .succeeded then ch.time else r.reconciledAt }

@[simp] theorem change_status (r : Result) (ch : Change) (now : ℤ) :
    (r.change ch now).status = ch.status := rfl

/-- The two maps behind the service lock. -/
structure Store where
  results : Table CommandID Result := ∅
  idempotency : Table String CommandID := ∅

/-- The first lock section of `Submit`. An absent record reads as the zero command, whose
empty key no validated command carries. -/
def Store.lookup (s : Store) (c : Command) : Option (Except Failure Result) :=
  match s.idempotency.lookup c.idempotencyKey with
  | none => none
  | some id =>
    match s.results.lookup id with
    | none => some (.error .conflict)
    | some existing =>
      if Equivalent existing.command c then some (.ok existing) else some (.error .conflict)

/-- The lock section of `record`. -/
def Store.record (s : Store) (r : Result) : Store :=
  ⟨s.results.insert r.command.id r,s.idempotency.insert r.command.idempotencyKey r.command.id⟩

/-- The lock section of `transition`. -/
def Store.put (s : Store) (id : CommandID) (r : Result) : Store :=
  { s with results := s.results.insert id r }

@[simp] theorem record_results (s : Store) (r : Result) (id : CommandID) :
    (s.record r).results.lookup id = if id = r.command.id then some r else s.results.lookup id :=
  Table.lookup_insert_ite _ _ _ _
@[simp] theorem record_idempotency (s : Store) (r : Result) (k : String) :
    (s.record r).idempotency.lookup k =
      if k = r.command.idempotencyKey then some r.command.id else s.idempotency.lookup k :=
  Table.lookup_insert_ite _ _ _ _
@[simp] theorem put_results (s : Store) (id id' : CommandID) (r : Result) :
    (s.put id r).results.lookup id' = if id' = id then some r else s.results.lookup id' :=
  Table.lookup_insert_ite _ _ _ _

/-- What the environment of a call answers at one point: the context state, fresh
identifiers, the clock, and the collaborators. -/
structure Answer where
  ctx : Option Failure := none
  commandID : Except Failure CommandID := .error (.message "no identifier")
  correlationID : Except Failure CorrelationID := .error (.message "no identifier")
  now : ℤ := 0
  snapshot : Except Failure Revision := .ok 0
  decision : Except Failure Decision := .ok granted
  acknowledgement : Except Failure Acknowledgement := .ok ⟨true,"",0⟩
  reported : Option Failure := none
  emitted : Option Failure := none
  actions : Except Failure (List WatchdogAction) := .ok []

/-- Where a call stands: what it does next, with the values it has computed. -/
inductive Point
  | submit (c : Command)
  | lookup (c : Command)
  | expiry (c : Command)
  | revision (c : Command)
  | evaluate (c : Command)
  | record (c : Command) (a : Admission)
  | recorded (c : Command) (a : Admission) (r : Result)
  | mark (c : Command)
  | marked (c : Command) (r : Result)
  | dispatch (c : Command)
  | awaiting (c : Command)
  | settle (c : Command) (s : Settlement)
  | reconcile (id : CommandID) (reportedOn : Bool) (observedAt : ℤ)
  | report (id : CommandID) (c : Command) (reportedOn : Bool) (observedAt : ℤ)
  | expireAcknowledged (id : CommandID) (reason : String) (observedAt : ℤ)
  | close (id : CommandID) (cl : Closure)
  | emit (event : EventType) (r : Result)
  | get (id : CommandID)
  | returned (reply : Reply)
  deriving DecidableEq

/-- What a step does that is seen outside the call: the answers of policy and executor,
the writes to the store, the events. -/
inductive Act
  | evaluated (c : Command) (decision : Except Failure Decision)
  | stored (id : CommandID) (r : Result)
  | dispatching (c : Command)
  | acknowledged (c : Command) (acknowledgement : Except Failure Acknowledgement)
  | reported (id : CommandID) (on : Bool) (observedAt : ℤ) (err : Option Failure)
  | emitted (event : EventType) (severity : Severity) (r : Result) (err : Option Failure)
  deriving DecidableEq

structure Effect where
  store : Store
  point : Point
  act : Option Act := none

def Effect.fail (s : Store) (err : Failure) : Effect := { store := s, point := .returned ⟨none,some err⟩ }

/-- `transition` up to its event: `next` continues with the record written back. -/
def Store.transition (s : Store) (id : CommandID) (ch : Change) (now : ℤ)
    (next : Result → Point) : Effect :=
  match s.results.lookup id with
  | none => .fail s .commandNotFound
  | some r =>
    { store := s.put id (r.change ch now), point := next (r.change ch now)
      act := some (.stored id (r.change ch now)) }

/-- Identifiers a submitted command does not carry are generated. -/
def Command.withIDs (c : Command) (a : Answer) : Except Failure Command :=
  match if c.id = "" then a.commandID else .ok c.id with
  | .error err => .error err
  | .ok id =>
    match if c.correlationID = "" then a.correlationID else .ok c.correlationID with
    | .error err => .error err
    | .ok correlationID => .ok { c with id := id, correlationID := correlationID }

def Command.intent (c : Command) : Intent := ⟨c.equipmentID,c.on,c.issuedAt⟩

/-- The record a command starts with. -/
def Command.initial (c : Command) (a : Admission) (now : ℤ) : Result :=
  { command := c, status := a.status, reason := a.reason, updatedAt := now }

@[simp] theorem initial_command (c : Command) (a : Admission) (now : ℤ) :
    (c.initial a now).command = c := rfl
@[simp] theorem initial_status (c : Command) (a : Admission) (now : ℤ) :
    (c.initial a now).status = a.status := rfl

def settlement (a : Answer) : Settlement :=
  match a.acknowledgement with
  | .error _ => .dispatchFailed
  | .ok acknowledgement =>
    if acknowledgement.accepted then
      .acknowledged (if acknowledgement.acknowledgedAt = 0 then a.now
        else acknowledgement.acknowledgedAt)
    else .adapterRejected

def Point.step (s : Store) (a : Answer) : Point → Effect
  | .submit c =>
    match a.ctx with
    | some err => .fail s err
    | none =>
      match c.withIDs a with
      | .error err => .fail s err
      | .ok c =>
        match validateCommand c with
        | some err => .fail s err
        | none => { store := s, point := .lookup c }
  | .lookup c =>
    match s.lookup c with
    | some (.ok existing) => { store := s, point := .returned ⟨some existing,none⟩ }
    | some (.error err) => .fail s err
    | none => { store := s, point := .expiry c }
  | .expiry c =>
    { store := s, point := if a.now < c.expiresAt then .revision c else .record c .expired }
  | .revision c =>
    match c.expectedRevision with
    | none => { store := s, point := .evaluate c }
    | some expected =>
      match a.snapshot with
      | .error err => .fail s err
      | .ok current =>
        { store := s
          point := if current = expected then .evaluate c else .record c .revisionConflict }
  | .evaluate c =>
    { store := s, act := some (.evaluated c a.decision)
      point := match a.decision with
        | .error err => .returned ⟨none,some err⟩
        | .ok d => .record c (if d.allowed then .validated else .denied d.reason) }
  | .record c adm =>
    { store := s.record (c.initial adm a.now), point := .recorded c adm (c.initial adm a.now)
      act := some (.stored c.id (c.initial adm a.now)) }
  | .recorded c adm r =>
    { store := s, act := some (.emitted adm.event r.severity r a.emitted)
      point := if adm = .validated ∧ a.emitted = none then .mark c
        else .returned ⟨some r,a.emitted⟩ }
  | .mark c => s.transition c.id .dispatched a.now (.marked c)
  | .marked c r =>
    { store := s, act := some (.emitted .commandDispatched r.severity r a.emitted)
      point := if a.emitted = none then .dispatch c else .returned ⟨some r,a.emitted⟩ }
  | .dispatch c => { store := s, point := .awaiting c, act := some (.dispatching c) }
  | .awaiting c =>
    { store := s, point := .settle c (settlement a)
      act := some (.acknowledged c a.acknowledgement) }
  | .settle c st =>
    s.transition c.id (.settled st) a.now (.emit (Change.settled st).event)
  | .reconcile id reportedOn observedAt =>
    match a.ctx with
    | some err => .fail s err
    | none =>
      if observedAt = 0 then .fail s (.message "reconciliation timestamp is required")
      else
        match s.results.lookup id with
        | none => .fail s .commandNotFound
        | some r =>
          if r.status = .acknowledged then
            { store := s, point := .report id r.command reportedOn observedAt }
          else .fail s .invalidTransition
  | .report id c reportedOn observedAt =>
    { store := s, act := some (.reported id reportedOn observedAt a.reported)
      point := match a.reported with
        | some err => .returned ⟨none,some err⟩
        | none => .close id (if reportedOn = c.on then .reconciled observedAt else .mismatch) }
  | .expireAcknowledged id reason observedAt =>
    match a.ctx with
    | some err => .fail s err
    | none =>
      if reason = "" ∨ observedAt = 0 then
        .fail s (.message "reconciliation expiry reason and timestamp are required")
      else
        match s.results.lookup id with
        | none => .fail s .commandNotFound
        | some r =>
          if r.status = .acknowledged then
            if observedAt < r.command.expiresAt then
              .fail s (.message "cannot expire command before its deadline")
            else { store := s, point := .close id (.expired reason) }
          else .fail s .invalidTransition
  | .close id cl => s.transition id (.closed cl) a.now (.emit (Change.closed cl).event)
  | .emit event r =>
    { store := s, point := .returned ⟨some r,a.emitted⟩
      act := some (.emitted event r.severity r a.emitted) }
  | .get id =>
    match a.ctx with
    | some err => .fail s err
    | none =>
      match s.results.lookup id with
      | none => .fail s .commandNotFound
      | some r => { store := s, point := .returned ⟨some r,none⟩ }
  | .returned reply => { store := s, point := .returned reply }

def Point.change : Point → Option (CommandID × Change)
  | .mark c => some (c.id,.dispatched)
  | .settle c st => some (c.id,.settled st)
  | .close id cl => some (id,.closed cl)
  | _ => none

/-- The points a call may fail at before it has done anything. -/
def Point.Fallible : Point → Prop
  | .submit _ | .lookup _ | .revision _ | .reconcile _ _ _ | .expireAcknowledged _ _ _ | .get _ =>
    True
  | _ => False

/-- All a step of a call can do, one constructor for each way out of a point. -/
inductive Steps (s : Store) (a : Answer) : Point → Effect → Prop
  | failed (p : Point) (err : Failure) (hp : p.Fallible) : Steps s a p (.fail s err)
  | missing (p : Point) (id : CommandID) (ch : Change) (hp : p.change = some (id,ch))
      (hr : s.results.lookup id = none) : Steps s a p (.fail s .commandNotFound)
  | submitted (c c' : Command) (hctx : a.ctx = none) (hc : c.withIDs a = .ok c')
      (hv : validateCommand c' = none) :
      Steps s a (.submit c) { store := s, point := .lookup c' }
  | found (c : Command) (r : Result) (hl : s.lookup c = some (.ok r)) :
      Steps s a (.lookup c) { store := s, point := .returned ⟨some r,none⟩ }
  | missed (c : Command) (hl : s.lookup c = none) :
      Steps s a (.lookup c) { store := s, point := .expiry c }
  | live (c : Command) (hnow : a.now < c.expiresAt) :
      Steps s a (.expiry c) { store := s, point := .revision c }
  | late (c : Command) (hnow : c.expiresAt ≤ a.now) :
      Steps s a (.expiry c) { store := s, point := .record c .expired }
  | current (c : Command)
      (hrev : ∀ expected, c.expectedRevision = some expected → a.snapshot = .ok expected) :
      Steps s a (.revision c) { store := s, point := .evaluate c }
  | outdated (c : Command) :
      Steps s a (.revision c) { store := s, point := .record c .revisionConflict }
  | undecided (c : Command) (err : Failure) (hd : a.decision = .error err) :
      Steps s a (.evaluate c) ⟨s,.returned ⟨none,some err⟩,some (.evaluated c (.error err))⟩
  | decided (c : Command) (d : Decision) (hd : a.decision = .ok d) :
      Steps s a (.evaluate c) ⟨s,.record c (if d.allowed then .validated else .denied d.reason),
        some (.evaluated c (.ok d))⟩
  | recorded (c : Command) (adm : Admission) :
      Steps s a (.record c adm) ⟨s.record (c.initial adm a.now),
        .recorded c adm (c.initial adm a.now),some (.stored c.id (c.initial adm a.now))⟩
  | admitted (c : Command) (r : Result) (he : a.emitted = none) :
      Steps s a (.recorded c .validated r)
        ⟨s,.mark c,some (.emitted .commandValidated r.severity r none)⟩
  | stopped (c : Command) (adm : Admission) (r : Result)
      (he : adm = .validated → a.emitted ≠ none) :
      Steps s a (.recorded c adm r)
        ⟨s,.returned ⟨some r,a.emitted⟩,some (.emitted adm.event r.severity r a.emitted)⟩
  | marked (c : Command) (r : Result) (hr : s.results.lookup c.id = some r) :
      Steps s a (.mark c) ⟨s.put c.id (r.change .dispatched a.now),
        .marked c (r.change .dispatched a.now),some (.stored c.id (r.change .dispatched a.now))⟩
  | announced (c : Command) (r : Result) (he : a.emitted = none) :
      Steps s a (.marked c r)
        ⟨s,.dispatch c,some (.emitted .commandDispatched r.severity r none)⟩
  | unannounced (c : Command) (r : Result) (he : a.emitted ≠ none) :
      Steps s a (.marked c r) ⟨s,.returned ⟨some r,a.emitted⟩,
        some (.emitted .commandDispatched r.severity r a.emitted)⟩
  | dispatching (c : Command) : Steps s a (.dispatch c) ⟨s,.awaiting c,some (.dispatching c)⟩
  | acknowledged (c : Command) : Steps s a (.awaiting c)
      ⟨s,.settle c (settlement a),some (.acknowledged c a.acknowledgement)⟩
  | settled (c : Command) (st : Settlement) (r : Result) (hr : s.results.lookup c.id = some r) :
      Steps s a (.settle c st) ⟨s.put c.id (r.change (.settled st) a.now),
        .emit (Change.settled st).event (r.change (.settled st) a.now),
        some (.stored c.id (r.change (.settled st) a.now))⟩
  | reconciling (id : CommandID) (on : Bool) (t : ℤ) (r : Result)
      (hr : s.results.lookup id = some r) (hst : r.status = .acknowledged) (ht : t ≠ 0) :
      Steps s a (.reconcile id on t) { store := s, point := .report id r.command on t }
  | unreported (id : CommandID) (c : Command) (on : Bool) (t : ℤ) (err : Failure) :
      Steps s a (.report id c on t)
        ⟨s,.returned ⟨none,some err⟩,some (.reported id on t (some err))⟩
  | reported (id : CommandID) (c : Command) (on : Bool) (t : ℤ) :
      Steps s a (.report id c on t)
        ⟨s,.close id (if on = c.on then .reconciled t else .mismatch),
          some (.reported id on t none)⟩
  | expiring (id : CommandID) (reason : String) (t : ℤ) (r : Result)
      (hr : s.results.lookup id = some r) (hst : r.status = .acknowledged) :
      Steps s a (.expireAcknowledged id reason t) { store := s, point := .close id (.expired reason) }
  | closed (id : CommandID) (cl : Closure) (r : Result) (hr : s.results.lookup id = some r) :
      Steps s a (.close id cl) ⟨s.put id (r.change (.closed cl) a.now),
        .emit (Change.closed cl).event (r.change (.closed cl) a.now),
        some (.stored id (r.change (.closed cl) a.now))⟩
  | emitted (event : EventType) (r : Result) : Steps s a (.emit event r)
      ⟨s,.returned ⟨some r,a.emitted⟩,some (.emitted event r.severity r a.emitted)⟩
  | got (id : CommandID) (r : Result) (hr : s.results.lookup id = some r) :
      Steps s a (.get id) { store := s, point := .returned ⟨some r,none⟩ }
  | returned (reply : Reply) : Steps s a (.returned reply) { store := s, point := .returned reply }

section Branches

variable (s : Store) (a : Answer)

theorem submit_steps (c : Command) : Steps s a (.submit c) ((Point.submit c).step s a) := by
  unfold Point.step
  cases hctx : a.ctx with
  | some err => exact .failed _ err trivial
  | none =>
    dsimp only
    cases hc : c.withIDs a with
    | error err => exact .failed _ err trivial
    | ok c' =>
      dsimp only
      cases hv : validateCommand c' with
      | some err => exact .failed _ err trivial
      | none => exact .submitted c c' hctx hc hv

theorem lookup_steps (c : Command) : Steps s a (.lookup c) ((Point.lookup c).step s a) := by
  unfold Point.step
  dsimp only
  cases hl : s.lookup c with
  | none => exact .missed c hl
  | some found =>
    cases found with
    | error err => exact .failed _ err trivial
    | ok r => exact .found c r hl

theorem revision_steps (c : Command) :
    Steps s a (.revision c) ((Point.revision c).step s a) := by
  unfold Point.step
  dsimp only
  cases hexp : c.expectedRevision with
  | none => exact .current c (by simp [hexp])
  | some expected =>
    dsimp only
    cases hsnap : a.snapshot with
    | error err => exact .failed _ err trivial
    | ok current =>
      dsimp only
      split_ifs with hrev
      · exact .current c (by simp [hexp,hsnap,hrev])
      · exact .outdated c

/-- `transition` finds no record, or writes the changed one back. -/
theorem transition_steps {p : Point} (id : CommandID) (ch : Change) (next : Result → Point)
    (hp : p.change = some (id,ch))
    (h : ∀ r, s.results.lookup id = some r → Steps s a p
      ⟨s.put id (r.change ch a.now),next (r.change ch a.now),
        some (.stored id (r.change ch a.now))⟩) :
    Steps s a p (s.transition id ch a.now next) := by
  unfold Store.transition
  cases hr : s.results.lookup id with
  | none => exact .missing p id ch hp hr
  | some r => exact h r hr

/-- `Reconcile` goes on only from an acknowledged record and with a time. -/
theorem reconcile_steps (id : CommandID) (on : Bool) (t : ℤ) :
    Steps s a (.reconcile id on t) ((Point.reconcile id on t).step s a) := by
  unfold Point.step
  cases a.ctx with
  | some err => exact .failed _ err trivial
  | none =>
    dsimp only
    split_ifs with ht
    · exact .failed _ _ trivial
    · cases hr : s.results.lookup id with
      | none => exact .failed _ _ trivial
      | some r =>
        dsimp only
        split_ifs with hst
        · exact .reconciling id on t r hr hst ht
        · exact .failed _ _ trivial

theorem expireAcknowledged_steps (id : CommandID) (reason : String) (t : ℤ) :
    Steps s a (.expireAcknowledged id reason t)
      ((Point.expireAcknowledged id reason t).step s a) := by
  unfold Point.step
  cases a.ctx with
  | some err => exact .failed _ err trivial
  | none =>
    dsimp only
    split_ifs
    · exact .failed _ _ trivial
    · cases hr : s.results.lookup id with
      | none => exact .failed _ _ trivial
      | some r =>
        dsimp only
        split_ifs with hst
        · exact .failed _ _ trivial
        · exact .expiring id reason t r hr hst
        · exact .failed _ _ trivial

theorem get_steps (id : CommandID) : Steps s a (.get id) ((Point.get id).step s a) := by
  unfold Point.step
  cases a.ctx with
  | some err => exact .failed _ err trivial
  | none =>
    dsimp only
    cases hr : s.results.lookup id with
    | none => exact .failed _ _ trivial
    | some r => exact .got id r hr

theorem step_steps (p : Point) : Steps s a p (p.step s a) := by
  cases p with
  | submit c => exact submit_steps s a c
  | lookup c => exact lookup_steps s a c
  | expiry c =>
    unfold Point.step
    dsimp only
    split_ifs with hnow
    · exact .live c hnow
    · exact .late c (not_lt.mp hnow)
  | revision c => exact revision_steps s a c
  | evaluate c =>
    unfold Point.step
    dsimp only
    cases hd : a.decision with
    | error err => exact .undecided c err hd
    | ok d => exact .decided c d hd
  | record c adm => exact .recorded c adm
  | recorded c adm r =>
    unfold Point.step
    dsimp only
    split_ifs with h
    · obtain ⟨rfl,he⟩ := h
      rw [he]
      exact .admitted c r he
    · exact .stopped c adm r fun hv he => h ⟨hv,he⟩
  | mark c => exact transition_steps s a _ _ _ rfl (.marked c)
  | marked c r =>
    unfold Point.step
    dsimp only
    split_ifs with he
    · rw [he]
      exact .announced c r he
    · exact .unannounced c r he
  | dispatch c => exact .dispatching c
  | awaiting c => exact .acknowledged c
  | settle c st => exact transition_steps s a _ _ _ rfl (.settled c st)
  | reconcile id on t => exact reconcile_steps s a id on t
  | report id c on t =>
    unfold Point.step
    dsimp only
    cases a.reported with
    | some err => exact .unreported id c on t err
    | none => exact .reported id c on t
  | expireAcknowledged id reason t => exact expireAcknowledged_steps s a id reason t
  | close id cl => exact transition_steps s a _ _ _ rfl (.closed id cl)
  | emit event r => exact .emitted event r
  | get id => exact get_steps s a id
  | returned reply => exact .returned reply

end Branches

end Output
end AquaOS
