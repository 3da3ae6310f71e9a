import AquaOS.EventExport
import AquaOS.Window

/-! Deliveries to a consumer that reserves message IDs before it calls a handler. The handler runs
outside the lock, so its reservation may have left the window, and another delivery may have taken
its place, by the time it fails and removes the reservation of its message ID. -/
namespace AquaOS
namespace Mqtt

open Domain Transition

def errUnknownVersion : Failure := .message "unknown MQTT schema major version"
def errDuplicate : Failure := .message "duplicate MQTT message"

/-- What follows a decoded JSON value. -/
inductive Trailing
  | eof | value | malformed (err : Failure)

def ensureEOF : Trailing → Option Failure
  | .eof => none
  | .value => some (.message "MQTT envelope contains trailing JSON")
  | .malformed err => some (.wrapped "decode trailing MQTT data" err)

/-- The decoders of `encoding/json` that refuse unknown fields. -/
structure Reader where
  envelope : List UInt8 → Except Failure Envelope
  trailing : List UInt8 → Trailing

def major (version : String) : String := String.ofList (version.toList.takeWhile (· ≠ '.'))

variable {P : Type}

def Codec.at (c : Codec) (now : ℤ) : Codec := { c with now := now }

def Codec.decode (c : Codec) (json : Json P) (reader : Reader) (payload : List UInt8) :
    Except Failure Envelope :=
  if c.maximumPayload < payload.length then .error errOversized
  else
    match reader.envelope payload with
    | .error err => .error (.wrapped "decode MQTT envelope" err)
    | .ok e =>
      match ensureEOF (reader.trailing payload) with
      | some err => .error err
      | none =>
        if major e.schemaVersion ≠ major schemaVersion then .error errUnknownVersion
        else
          match c.validate json e with
          | some err => .error err
          | none => .ok e

structure Consumer where
  codec : Codec
  window : Window String

def newConsumer (codec : Codec) (capacity : ℤ) : Except Failure Consumer :=
  if h : 1 ≤ capacity ∧ capacity ≤ 1000000 then
    .ok ⟨codec,.make String capacity.toNat (by omega)⟩
  else .error (.message "MQTT idempotency capacity must be between 1 and 1000000")

namespace Consumer

def reserve (c : Consumer) (json : Json P) (reader : Reader) (now : ℤ) (payload : List UInt8) :
    Except Failure (Envelope × Consumer) :=
  match (c.codec.at now).decode json reader payload with
  | .error err => .error err
  | .ok e =>
    match c.window.reserve e.messageID with
    | none => .error errDuplicate
    | some window => .ok (e,{ c with window := window })

def release (c : Consumer) (messageID : String) : Consumer :=
  { c with window := c.window.release messageID }

theorem reserve_ok {c c' : Consumer} {json : Json P} {reader : Reader} {now : ℤ}
    {payload : List UInt8} {e : Envelope} (h : c.reserve json reader now payload = .ok (e,c')) :
    ∃ window, (c.codec.at now).decode json reader payload = .ok e ∧
      c.window.reserve e.messageID = some window ∧ c' = { c with window := window } := by
  unfold reserve at h
  cases hdecode : (c.codec.at now).decode json reader payload with
  | error err => simp [hdecode] at h
  | ok e' =>
    simp only [hdecode] at h
    cases hwindow : c.window.reserve e'.messageID with
    | none => simp [hwindow] at h
    | some window =>
      simp only [hwindow,Except.ok.injEq,Prod.mk.injEq] at h
      obtain ⟨rfl,rfl⟩ := h
      exact ⟨window,rfl,hwindow,rfl⟩

end Consumer

/-- A consumer with the message IDs it has reserved, the newest first, and how the handler of each
stands. -/
structure Deliveries where
  consumer : Consumer
  log : List String := []
  outcome : ℕ → Outcome := fun _ => .running

/-- The two lock sections of a `Consume`: a delivery arrives, or the handler of an earlier one
returns. -/
inductive DeliveryStep
  | deliver (now : ℤ) (payload : List UInt8)
  | handled (n : ℕ) (err : Option Failure)

namespace Deliveries

def step (json : Json P) (reader : Reader) (s : Deliveries) : DeliveryStep → Deliveries
  | .deliver now payload =>
    match s.consumer.reserve json reader now payload with
    | .error _ => s
    | .ok (e,c) => { s with consumer := c, log := e.messageID::s.log }
  | .handled n err =>
    match Reservations.keyAt s.log n, s.outcome n, err with
    | some _, .running, none => { s with outcome := Function.update s.outcome n .succeeded }
    | some messageID, .running, some _ =>
      { s with
        consumer := s.consumer.release messageID
        outcome := Function.update s.outcome n .failed }
    | _, _, _ => s

def reservations (s : Deliveries) : Reservations String := ⟨s.consumer.window,s.log,s.outcome⟩

/-- The handler of some delivery of the message ID has succeeded, and after the latest such delivery
fewer reservations of other message IDs were made than the window holds. -/
def Recent (s : Deliveries) (messageID : String) : Prop :=
  ∃ n, Reservations.latestSucceeded s.outcome messageID s.log = some n ∧
    Reservations.othersSince messageID n s.log < s.consumer.window.capacity

/-- A handler that fails finds in the window the reservation of its own delivery, or none of its
message ID. -/
def OwnReservation (s : Deliveries) : DeliveryStep → Prop
  | .deliver _ _ => True
  | .handled n err => err ≠ none → ∀ messageID, Reservations.keyAt s.log n = some messageID →
    messageID ∈ s.consumer.window.order → Reservations.latest messageID s.log = some n

variable {json : Json P} {reader : Reader} {s : Deliveries}

theorem step_codec (json : Json P) (reader : Reader) (s : Deliveries) (l : DeliveryStep) :
    (s.step json reader l).consumer.codec = s.consumer.codec := by
  cases l with
  | deliver now payload =>
    cases hreserve : s.consumer.reserve json reader now payload with
    | error err => simp [step,hreserve]
    | ok accepted =>
      obtain ⟨e,c⟩ := accepted
      obtain ⟨window,_,_,rfl⟩ := Consumer.reserve_ok hreserve
      simp [step,hreserve]
  | handled n err =>
    unfold step
    dsimp only
    split <;> rfl

theorem deliver_reservations (json : Json P) (reader : Reader) (s : Deliveries) (now : ℤ)
    (payload : List UInt8) :
    s.step json reader (.deliver now payload) = s ∨
      ∃ e : Envelope, s.reservations.reserve e.messageID =
        some (s.step json reader (.deliver now payload)).reservations := by
  cases hreserve : s.consumer.reserve json reader now payload with
  | error err => exact .inl (by simp [step,hreserve])
  | ok accepted =>
    obtain ⟨e,c⟩ := accepted
    obtain ⟨window,_,hwindow,rfl⟩ := Consumer.reserve_ok hreserve
    exact .inr ⟨e,by simp [step,hreserve,Reservations.reserve,reservations,hwindow]⟩

theorem handled_reservations (json : Json P) (reader : Reader) (s : Deliveries) (n : ℕ)
    (err : Option Failure) :
    (s.step json reader (.handled n err)).reservations =
      s.reservations.finish n err.isNone := by
  unfold step Reservations.finish
  cases hkey : Reservations.keyAt s.log n with
  | none => simp [reservations,hkey]
  | some messageID =>
    cases houtcome : s.outcome n with
    | running =>
      cases err with
      | none => simp [reservations,hkey,houtcome]
      | some err => simp [reservations,hkey,houtcome,Consumer.release]
    | succeeded | failed => simp [reservations,hkey,houtcome]

structure Sound (codec : Codec) (capacity : ℕ) (s : Deliveries) : Prop where
  ordered : s.reservations.Ordered
  held : s.reservations.Held
  capacity : s.consumer.window.capacity = capacity
  codec : s.consumer.codec = codec

theorem step_sound {codec : Codec} {capacity : ℕ} (h : s.Sound codec capacity) {l : DeliveryStep}
    (hown : s.OwnReservation l) : (s.step json reader l).Sound codec capacity := by
  have hcodec := (step_codec json reader s l).trans h.codec
  cases l with
  | deliver now payload =>
    rcases deliver_reservations json reader s now payload with hsame | ⟨e,hreserve⟩
    · rwa [hsame]
    · obtain ⟨w,hw,heq⟩ := Reservations.reserve_eq hreserve
      obtain ⟨_,hcapacity,_⟩ := Window.reserve_some hw
      refine ⟨Reservations.reserve_ordered h.ordered hreserve,
        Reservations.reserve_held h.ordered h.held hreserve,?_,hcodec⟩
      have hwindow := congrArg (fun r => r.window.capacity) heq
      exact hwindow.trans (hcapacity.trans h.capacity)
  | handled n err =>
    have hfinish := handled_reservations json reader s n err
    have hfails : s.reservations.Own n err.isNone := by
      intro hfailed messageID hkey hmem
      refine hown ?_ messageID hkey hmem
      rintro rfl
      cases hfailed
    refine ⟨?_,?_,?_,hcodec⟩
    · rw [hfinish]
      exact Reservations.finish_ordered h.ordered n _
    · rw [hfinish]
      exact Reservations.finish_held h.held hfails
    · have hwindow := congrArg (fun r => r.window.capacity) hfinish
      refine hwindow.trans (Eq.trans ?_ h.capacity)
      exact Reservations.finish_capacity s.reservations n _

theorem start_sound {codec : Codec} {capacity : ℤ} {c : Consumer}
    (h : newConsumer codec capacity = .ok c) :
    Sound codec capacity.toNat { consumer := c } := by
  unfold newConsumer at h
  split_ifs at h with hbounds
  cases h
  refine ⟨?_,?_,rfl,rfl⟩
  · intro messageID behind hsub
    cases hsub
  · intro messageID n hkey
    cases hkey

/-- In every run in which no handler that fails removes the reservation of another delivery, a
message ID handled with success is rejected as a duplicate until as many reservations of others as
the window holds have followed. -/
theorem handled_message_rejected (json : Json P) (reader : Reader) (codec : Codec) (capacity : ℤ)
    (c : Consumer) (hc : newConsumer codec capacity = .ok c) (steps : List DeliveryStep)
    (hown : Guarded (step json reader) OwnReservation { consumer := c } steps) :
    let s := run (step json reader) { consumer := c } steps
    s.consumer.window.capacity = capacity.toNat ∧
    ∀ now payload e, (codec.at now).decode json reader payload = .ok e →
      s.Recent e.messageID →
        s.consumer.reserve json reader now payload = .error errDuplicate := by
  intro s
  have hstep : ∀ s l, Sound codec capacity.toNat s → OwnReservation s l →
      Sound codec capacity.toNat (s.step json reader l) := fun _ _ h hl => step_sound h hl
  have hsound : s.Sound codec capacity.toNat := invariant_run hstep (start_sound hc) hown
  refine ⟨hsound.capacity,?_⟩
  rintro now payload e hdecode ⟨n,hn,hfew⟩
  have hrefused := Reservations.reserve_refused hsound.held hn hfew
  unfold Consumer.reserve
  rw [hsound.codec,hdecode]
  cases hreserve : s.consumer.window.reserve e.messageID with
  | none => simp [hreserve]
  | some window => simp [Reservations.reserve,reservations,hreserve] at hrefused

section Samples

open EventExporter (booleanJson homeExporter)

def sampleEnvelope (messageID : String) : Envelope where
  schemaVersion := schemaVersion
  messageID := messageID
  correlationID := "00000000-0000-4000-8000-000000000009"
  source := "test"
  siteID := "home-reef"
  occurredAt := 1
  expiresAt := none
  revision := none
  data := bytes "\x7b\x7d"

def envelopeText (e : Envelope) : List UInt8 := (booleanJson.marshalEnvelope e).toOption.getD []

def readerOf (es : List Envelope) : Reader where
  envelope payload :=
    match es.find? fun e => envelopeText e = payload with
    | some e => .ok e
    | none => .error (.external "unexpected input")
  trailing _ := .eof

def sampleReader : Reader := readerOf [sampleEnvelope "one",sampleEnvelope "two"]

def sampleConsumer : Consumer := ⟨homeExporter.codec,.make String 1 Nat.one_pos⟩

theorem sampleConsumer_new : newConsumer homeExporter.codec 1 = .ok sampleConsumer :=
  dif_pos ⟨le_rfl,by norm_num⟩

def deliverSample (messageID : String) : DeliveryStep :=
  .deliver 1 (envelopeText (sampleEnvelope messageID))

theorem sample_decodes : (homeExporter.codec.at 1).decode booleanJson sampleReader
    (envelopeText (sampleEnvelope "one")) = .ok (sampleEnvelope "one") := by decide +kernel

theorem redelivery_rejected :
    let s := run (step booleanJson sampleReader) { consumer := sampleConsumer }
      [deliverSample "one",.handled 0 none]
    s.consumer.reserve booleanJson sampleReader 1 (envelopeText (sampleEnvelope "one")) =
      .error errDuplicate := by
  intro s
  have hown : Guarded (step booleanJson sampleReader) OwnReservation { consumer := sampleConsumer }
      [deliverSample "one",.handled 0 none] := by
    simp [Guarded,OwnReservation,deliverSample]
  exact (handled_message_rejected booleanJson sampleReader homeExporter.codec 1 sampleConsumer
    sampleConsumer_new _ hown).2 1 _ (sampleEnvelope "one") sample_decodes
      ⟨0,by decide +kernel,by decide +kernel⟩

/-- The window holds one message ID. The first delivery of "one" is driven out by "two" while its
handler runs, "one" is delivered again, and the failure of the first handler removes the second
reservation: "one" has been handled with success and is accepted a third time. -/
theorem late_failure_frees_message :
    let s := run (step booleanJson sampleReader) { consumer := sampleConsumer }
      [deliverSample "one",deliverSample "two",deliverSample "one",
        .handled 0 (some (.external "handler failed")),.handled 2 none]
    s.log = ["one","two","one"] ∧ s.outcome 2 = .succeeded ∧ s.Recent "one" ∧
      (homeExporter.codec.at 1).decode booleanJson sampleReader
        (envelopeText (sampleEnvelope "one")) = .ok (sampleEnvelope "one") ∧
      (s.consumer.reserve booleanJson sampleReader 1
        (envelopeText (sampleEnvelope "one"))).isOk = true := by
  refine ⟨by decide +kernel,by decide +kernel,⟨2,by decide +kernel,by decide +kernel⟩,
    sample_decodes,by decide +kernel⟩

end Samples

end Deliveries

end Mqtt
end AquaOS
