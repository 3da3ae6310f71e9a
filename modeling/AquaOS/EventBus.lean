import AquaOS.Alarms
import AquaOS.Channel

/-! The event contract and the bus. A publication takes a slot, calls the handlers of its topic one
after the other and gives the slot back; a handler is any step of the state that holds the bus,
one that publishes again included. -/
namespace AquaOS
namespace Events

open Domain Alarms

inductive EventType
  | stateChanged | alarmRaised | alarmAcknowledged | alarmCleared | alarmEscalated
  | other (text : String)
  deriving DecidableEq

def EventType.text : EventType → String
  | .stateChanged => "state.changed"
  | .alarmRaised => "alarm.raised"
  | .alarmAcknowledged => "alarm.acknowledged"
  | .alarmCleared => "alarm.cleared"
  | .alarmEscalated => "alarm.escalated"
  | .other text => text

/-- An event with its payload as the value that was encoded. -/
structure Event (P : Type) where
  timestamp : ℤ
  source : String
  eventType : EventType
  severity : Severity
  payload : P
  correlationID : CorrelationID

variable {P H S : Type}

/-- An encoded payload is valid, so the last check of the source never fails. -/
def Event.validate (e : Event P) : Option Failure :=
  if e.timestamp = 0 ∨ e.source = "" ∨ e.eventType = .other "" then
    some (.message "event timestamp, source, and type are required")
  else if e.severity.rank = 0 then some (.message "event severity is invalid")
  else
    match validateID e.correlationID with
    | some err => some (.wrapped "invalid correlation ID" err)
    | none => none

/-- What a factory reads: its clock and its source of correlation IDs. -/
structure Factory where
  now : ℤ
  newCorrelationID : Except Failure CorrelationID := .error (.message "no identifier")

/-- A missing correlation ID is generated. -/
def Factory.correlation (f : Factory) (given : CorrelationID) : Except Failure CorrelationID :=
  if given = "" then f.newCorrelationID else .ok given

/-- `Factory.New`, for a payload the encoder answers for. -/
def Factory.new (f : Factory) (encoded : Option Failure) (source : String) (eventType : EventType)
    (severity : Severity) (payload : P) (correlationID : CorrelationID) :
    Except Failure (Event P) :=
  match encoded, f.correlation correlationID with
  | some err, _ => .error (.wrapped "encode event payload" err)
  | none, .error err => .error (.wrapped "create correlation ID" err)
  | none, .ok id =>
    match Event.validate ⟨f.now,source,eventType,severity,payload,id⟩ with
    | some err => .error err
    | none => .ok ⟨f.now,source,eventType,severity,payload,id⟩

theorem validate_correlation {e : Event P} (h : e.validate = none) :
    validateID e.correlationID = none := by
  unfold Event.validate at h
  cases hid : validateID e.correlationID with
  | none => rfl
  | some err =>
    simp only [hid] at h
    split_ifs at h

variable {source : String} {eventType : EventType} {severity : Severity}
  {correlationID id : CorrelationID} {f : Factory} {encoded : Option Failure} {payload : P}
  {event : Event P}

theorem new_valid (h : f.new encoded source eventType severity payload correlationID = .ok event) :
    event.validate = none ∧ event.payload = payload := by
  unfold Factory.new at h
  split at h
  · cases h
  · cases h
  · split at h
    · cases h
    · next hvalid =>
      rw [← Except.ok.inj h]
      exact ⟨hvalid,rfl⟩

theorem new_correlation
    (h : f.new encoded source eventType severity payload correlationID = .ok event) :
    f.correlation correlationID = .ok event.correlationID := by
  unfold Factory.new at h
  split at h
  · cases h
  · cases h
  · next hid =>
    split at h
    · cases h
    · rw [← Except.ok.inj h]
      exact hid

/-- A clock that reads, a source, a type, a known severity and a valid correlation make an event. -/
theorem new_ok (f : Factory) (payload : P) (hnow : f.now ≠ 0)
    (hsource : source ≠ "") (htype : eventType ≠ .other "") (hseverity : severity.rank ≠ 0)
    (hgiven : f.correlation correlationID = .ok id) (hid : validateID id = none) :
    ∃ event, f.new none source eventType severity payload correlationID = .ok event ∧
      event.validate = none ∧ event.eventType = eventType := by
  have hvalid : Event.validate ⟨f.now,source,eventType,severity,payload,id⟩ = none := by
    simp [Event.validate,hnow,hsource,htype,hseverity,hid]
  exact ⟨_,by simp [Factory.new,hgiven,hvalid],hvalid,rfl⟩

theorem valid_nonempty {id : String} (h : validateID id = none) : id ≠ "" := by
  rintro rfl
  exact absurd h (by decide +kernel)

theorem correlation_given (f : Factory) (h : validateID id = none) : f.correlation id = .ok id := by
  simp [Factory.correlation,valid_nonempty h]

structure Subscription (H : Type) where
  topic : EventType
  handler : H
  active : Bool := true

/-- The bus, with its registrations in the order they were made. -/
structure Bus (H : Type) where
  slots : Channel Unit
  closed : Bool := false
  handlers : List (Subscription H) := []

def errClosed : Failure := .message "event bus is closed"
def errBackpressure : Failure := .message "event bus delivery capacity exhausted"

def newBus (H : Type) (capacity : ℤ) : Bus H := { slots := .make Unit (max 1 capacity).toNat }

def Bus.subscribe (b : Bus H) (topic : EventType) (handler : H) : Except Failure (Bus H) :=
  if topic = .other "" then .error (.message "event type and handler are required")
  else if b.closed then .error errClosed
  else .ok { b with handlers := b.handlers++[{ topic, handler }] }

/-- `Unsubscribe` of the registration with the number `n`. -/
def Bus.unsubscribe (b : Bus H) (n : ℕ) : Bus H :=
  { b with handlers := b.handlers.modify n fun s => { s with active := false } }

def Bus.stop (b : Bus H) : Bus H := { b with closed := true, handlers := [] }

def Bus.subscribers (b : Bus H) (topic : EventType) : List H :=
  (b.handlers.filter fun s => s.topic = topic ∧ s.active).map Subscription.handler

/-- How a publication went: not at all, or to whom and with which failures. -/
structure Publication (H : Type) where
  refused : Option Failure := none
  reached : List H := []
  failures : List Failure := []

/-- The error of a publication; the first of several joined ones stands for all. -/
def Publication.error (p : Publication H) : Option Failure := p.refused <|> p.failures.head?

section Publish

variable (bus : S → Bus H) (hold : Channel Unit → S → S) (handle : H → S → Option Failure × S)
  (ctx : Option Failure)

def deliver : List (Subscription H) → S → Publication H × S
  | [], s => ({},s)
  | sub::rest, s =>
    match ctx with
    | some err => ({ failures := [err] },s)
    | none =>
      if sub.active then
        let (err,s) := handle sub.handler s
        let (p,s) := deliver rest s
        let own := (err.map (.wrapped ("handler for "++sub.topic.text))).toList
        ({ p with reached := sub.handler::p.reached, failures := own++p.failures },s)
      else deliver rest s

def release (s : S) : S :=
  match (bus s).slots.receive with
  | some (_,slots) => hold slots s
  | none => s

/-- `Publish`; nothing runs between the two times it reads `closed`. -/
def publish (event : Event P) (s : S) : Publication H × S :=
  if (bus s).closed then ({ refused := some errClosed },s)
  else
    match event.validate, (bus s).slots.send () with
    | some err, _ => ({ refused := some err },s)
    | none, none => ({ refused := some errBackpressure },s)
    | none, some slots =>
      let (p,s) := deliver handle ctx ((bus s).handlers.filter (·.topic = event.eventType))
        (hold slots s)
      (p,release bus hold s)

end Publish

/-- A slot that is given back leaves the slots as they were. -/
theorem slot_returned {c c' : Channel Unit} (h : c.send () = some c') :
    c'.receive = some ((),c) := by
  obtain ⟨_,hcapacity,hitems⟩ := Channel.send_some h
  cases hr : c'.receive with
  | none =>
    rw [Channel.receive_none_iff,hitems] at hr
    simp at hr
  | some got =>
    obtain ⟨⟨⟩,c''⟩ := got
    obtain ⟨hcapacity',hitems'⟩ := Channel.receive_some hr
    have hlength : c''.items.length = c.items.length := by
      have heq := congrArg List.length (hitems.symm.trans hitems')
      simp only [List.length_append,List.length_cons,List.length_nil] at heq
      omega
    have hsame : c''.items = c.items := List.ext_getElem hlength fun _ _ _ => rfl
    obtain ⟨n,items,hfits⟩ := c
    obtain ⟨n'',items'',hfits''⟩ := c''
    simp only at hcapacity hcapacity' hsame
    subst hsame
    obtain rfl : n'' = n := hcapacity'.trans hcapacity
    rfl

section Delivery

variable {handle : H → S → Option Failure × S} {subs : List (Subscription H)} {s : S}

theorem deliver_invariant {I : S → Prop} (hhandle : ∀ h s, I s → I (handle h s).2)
    (ctx : Option Failure) (subs : List (Subscription H)) (hs : I s) :
    I (deliver handle ctx subs s).2 := by
  induction subs generalizing s with
  | nil => exact hs
  | cons sub rest ih =>
    unfold deliver
    cases ctx with
    | some err => exact hs
    | none =>
      dsimp only
      split_ifs
      · exact ih (hhandle sub.handler s hs)
      · exact ih hs

/-- Without a cancelled context every active handler is reached and nothing is refused. -/
theorem deliver_reaches :
    (deliver handle none subs s).1.refused = none ∧
    (deliver handle none subs s).1.reached = (subs.filter (·.active)).map Subscription.handler := by
  induction subs generalizing s with
  | nil => exact ⟨rfl,rfl⟩
  | cons sub rest ih =>
    unfold deliver
    dsimp only
    split_ifs with hactive
    · obtain ⟨hrefused,hreached⟩ := ih (s := (handle sub.handler s).2)
      exact ⟨hrefused,by simp [hactive,hreached]⟩
    · obtain ⟨hrefused,hreached⟩ := ih (s := s)
      exact ⟨hrefused,by simp [hactive,hreached]⟩

end Delivery

section Slots

variable {bus : S → Bus H} (hold : Channel Unit → S → S) (handle : H → S → Option Failure × S)
  {event : Event P} {s : S}

/-- A publication is refused and changes nothing, or delivers a valid event with a slot taken. -/
theorem publish_cases (ctx : Option Failure) (event : Event P) (s : S) :
    (∃ err, publish bus hold handle ctx event s = ({ refused := some err },s)) ∨
    ∃ slots subs, event.validate = none ∧ (bus s).closed = false ∧
      (bus s).slots.send () = some slots ∧
      (publish bus hold handle ctx event s).2 =
        release bus hold (deliver handle ctx subs (hold slots s)).2 := by
  unfold publish
  split_ifs with hclosed
  · exact .inl ⟨_,rfl⟩
  · split
    · exact .inl ⟨_,rfl⟩
    · exact .inl ⟨_,rfl⟩
    · next slots hvalid hslot => exact .inr ⟨slots,_,hvalid,by simpa using hclosed,hslot,rfl⟩

/-- A publication that is not refused reaches the active handlers of its topic. -/
theorem publish_open (hopen : (bus s).closed = false) (hvalid : event.validate = none)
    {slots : Channel Unit} (hslot : (bus s).slots.send () = some slots) :
    ∃ subs, (bus s).subscribers event.eventType = (subs.filter (·.active)).map Subscription.handler ∧
      publish bus hold handle none event s =
        ((deliver handle none subs (hold slots s)).1,
          release bus hold (deliver handle none subs (hold slots s)).2) := by
  refine ⟨(bus s).handlers.filter (·.topic = event.eventType),?_,?_⟩
  · simp [Bus.subscribers,List.filter_filter,Bool.and_comm]
  · simp [publish,hopen,hvalid,hslot]

theorem publish_reaches (hopen : (bus s).closed = false) (hvalid : event.validate = none)
    (hroom : (bus s).slots.items.length < (bus s).slots.capacity) :
    (publish bus hold handle none event s).1.refused = none ∧
    (publish bus hold handle none event s).1.reached = (bus s).subscribers event.eventType := by
  cases hslot : (bus s).slots.send () with
  | none => exact absurd (Channel.send_none_iff.mp hslot) hroom.ne
  | some slots =>
    obtain ⟨subs,hsubs,heq⟩ := publish_open hold handle hopen hvalid hslot
    rw [heq,hsubs]
    exact deliver_reaches

theorem publish_full (hopen : (bus s).closed = false) (hvalid : event.validate = none)
    (hfull : (bus s).slots.items.length = (bus s).slots.capacity) :
    publish bus hold handle none event s = ({ refused := some errBackpressure },s) := by
  simp [publish,hopen,hvalid,Channel.send_none_iff.mpr hfull]

end Slots

end Events
end AquaOS
