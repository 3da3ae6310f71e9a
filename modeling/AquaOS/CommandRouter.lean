import AquaOS.MessageConsumer
import AquaOS.OfflineQueue
import AquaOS.OutputSystem

/-! The router of commands that arrive over MQTT. A call of `Handle` reserves its message, submits the
command it carries and publishes the result in an envelope of its own, which is named after the
request. Calls are interleaved with each other and with every other use of the command service. -/
namespace AquaOS
namespace Mqtt

open Domain Transition

variable {P : Type}

structure Wiring (P : Type) where
  codec : Codec
  topics : Registry
  json : Json P
  reader : Reader
  command : List UInt8 → Except Failure Output.Command
  trailing : List UInt8 → Trailing

/-- A published result: the message ID, the record it reports and the publication. -/
structure Sent where
  messageID : String
  record : Output.Result
  publication : ExpiringPublication

inductive Handling
  | idle
  | handling (target : String) (e : Envelope)
  | submitting (target : String) (e : Envelope) (c : Output.Command) (p : Output.Point)
  | responding (target : String) (e : Envelope) (c : Output.Command) (r : Output.Result)
  | publishing (e : Envelope) (x : Sent)
  | failing (e : Envelope) (err : Failure)
  | returned (err : Option Failure)

structure Router where
  consumer : Consumer
  service : Output.World := {}
  calls : ℕ → Handling := fun _ => .idle
  published : List Sent := []

inductive RouterStep
  | handle (i : ℕ) (now : ℤ) (target : String) (payload : List UInt8)
  | proceed (i : ℕ) (a : Output.Answer) (now clock : ℤ) (publish : Option Failure)
  | service (l : Output.Label)

/-- The command of a request, as far as the router checks it. -/
def request (w : Wiring P) (e : Envelope) : Except Failure Output.Command :=
  match w.command e.data with
  | .error err => .error (.wrapped "decode MQTT command request" err)
  | .ok c =>
    match ensureEOF (w.trailing e.data) with
    | some err => .error (.wrapped "decode trailing MQTT command data" err)
    | none =>
      if c.correlationID ≠ e.correlationID then
        .error (.message "command and envelope correlation IDs differ")
      else
        match e.expiresAt with
        | none => .error (.message "command expiry exceeds envelope expiry")
        | some deadline =>
          if deadline < c.expiresAt then .error (.message "command expiry exceeds envelope expiry")
          else .ok c

def resultID (c : Output.Command) : String := "result-"++c.id

def response (w : Wiring P) (now clock : ℤ) (target : String) (e : Envelope) (c : Output.Command)
    (r : Output.Result) : Except Failure ExpiringPublication :=
  match w.topics.topic .commandResult target with
  | .error err => .error err
  | .ok (topic,policy) =>
    match (w.codec.at clock).encode w.json (resultID c) "aquaos-core" e.correlationID now
        e.expiresAt c.expectedRevision (.result r) with
    | .error err => .error err
    | .ok payload =>
      if policy.retained then .error (.message "command result policy must not retain")
      else
        .ok { topic := topic, qos := policy.qos, retained := false, payload := payload
              expiresAt := e.expiresAt }

namespace Router

def setCall (s : Router) (i : ℕ) (h : Handling) : Router :=
  { s with calls := Function.update s.calls i h }

def advance (w : Wiring P) (s : Router) (i : ℕ) (a : Output.Answer) (now clock : ℤ)
    (publish : Option Failure) : Router :=
  match s.calls i with
  | .idle | .returned _ => s
  | .handling target e =>
    match request w e with
    | .error err => s.setCall i (.failing e err)
    | .ok c => s.setCall i (.submitting target e c (.submit c))
  | .submitting target e c p =>
    match p.reply with
    | some ⟨_,some err⟩ => s.setCall i (.failing e err)
    | some ⟨some r,none⟩ => s.setCall i (.responding target e c r)
    | some ⟨none,none⟩ => s
    | none =>
      let effect := p.step s.service.store a
      { s.setCall i (.submitting target e c effect.point) with
        service := { s.service with
          store := effect.store, log := effect.act.toList++s.service.log } }
  | .responding target e c r =>
    match response w now clock target e c r with
    | .error err => s.setCall i (.failing e err)
    | .ok publication => s.setCall i (.publishing e ⟨resultID c,r,publication⟩)
  | .publishing e x =>
    match publish with
    | some err => s.setCall i (.failing e err)
    | none => { s.setCall i (.returned none) with published := x::s.published }
  | .failing e err =>
    { s.setCall i (.returned (some err)) with consumer := s.consumer.release e.messageID }

def step (w : Wiring P) (s : Router) : RouterStep → Router
  | .handle i now target payload =>
    match s.calls i with
    | .idle | .returned _ =>
      match s.consumer.reserve w.json w.reader now payload with
      | .error err => s.setCall i (.returned (some err))
      | .ok (e,consumer) => { s.setCall i (.handling target e) with consumer := consumer }
    | _ => s
  | .proceed i a now clock publish => s.advance w i a now clock publish
  | .service l => { s with service := s.service.step l }

/-- The command carries an ID when it is submitted, and when it is looked up its key is free or bound
to that ID. -/
def identified (store : Output.Store) : Output.Point → Bool
  | .submit c => c.id ≠ ""
  | .lookup c => store.idempotency.lookup c.idempotencyKey ∈ [none,some c.id]
  | _ => true

def identifies (s : Router) : RouterStep → Bool
  | .proceed i _ _ _ _ =>
    match s.calls i with
    | .submitting _ _ _ p => identified s.service.store p
    | _ => true
  | _ => true

end Router

theorem encode_ok {codec : Codec} {json : Json P} {messageID source : String}
    {correlationID : CorrelationID} {occurredAt : ℤ} {expiresAt : Option ℤ}
    {revision : Option Revision} {data : Data} {payload : List UInt8}
    (h : codec.encode json messageID source correlationID occurredAt expiresAt revision data =
      .ok payload) :
    ∃ envelope : Envelope, envelope.messageID = messageID ∧
      json.marshalEnvelope envelope = .ok payload := by
  unfold Codec.encode at h
  cases hdata : json.marshal data with
  | error err => simp [hdata] at h
  | ok encoded =>
    simp only [hdata] at h
    split at h
    · cases h
    · split at h
      · cases h
      · rename_i marshalled hmarshal
        split_ifs at h
        obtain rfl := Except.ok.inj h
        exact ⟨_,rfl,hmarshal⟩

section Submission

variable {s : Output.Store} {a : Output.Answer} {p : Output.Point} {e : Output.Effect}
  {id : CommandID}

def Concerns (id : CommandID) : Output.Point → Prop
  | .submit c | .lookup c | .expiry c | .revision c | .evaluate c | .record c _ | .mark c
  | .dispatch c | .awaiting c | .settle c _ => c.id = id
  | .recorded c _ r | .marked c r => c.id = id ∧ r.command.id = id
  | .emit _ r => r.command.id = id
  | .returned reply => ∀ r, reply.result = some r → r.command.id = id
  | _ => False

theorem withIDs_id {c c' : Output.Command} (h : c.withIDs a = .ok c') (hid : c.id ≠ "") :
    c'.id = c.id := by
  unfold Output.Command.withIDs at h
  rw [if_neg hid] at h
  dsimp only at h
  split at h
  · cases h
  · obtain rfl := Except.ok.inj h
    rfl

theorem lookup_id {c : Output.Command} {r : Output.Result} (hs : s.Keyed)
    (hbound : Router.identified s (.lookup c) = true) (hl : s.lookup c = some (.ok r)) :
    r.command.id = c.id := by
  unfold Output.Store.lookup at hl
  simp only [Router.identified,List.mem_cons,List.not_mem_nil,or_false,decide_eq_true_eq] at hbound
  rcases hbound with hbound | hbound
  · simp [hbound] at hl
  · rw [hbound] at hl
    dsimp only at hl
    cases hr : s.results.lookup c.id with
    | none => simp [hr] at hl
    | some existing =>
      simp only [hr] at hl
      split_ifs at hl
      · obtain rfl : existing = r := by simpa using hl
        exact hs c.id existing hr
      · cases hl

theorem concerns_error (err : Failure) : Concerns id (.returned ⟨none,some err⟩) :=
  fun _ h => absurd h (Option.some_ne_none _).symm

theorem step_concerns (h : Output.Steps s a p e) (hs : s.Keyed) (hp : Concerns id p)
    (hid : Router.identified s p = true) : Concerns id e.point := by
  cases h with
  | failed _ err _ => exact concerns_error err
  | missing _ _ _ _ _ => exact concerns_error _
  | submitted c c' _ hc _ =>
    have hne : c.id ≠ "" := by simpa [Router.identified] using hid
    exact (withIDs_id hc hne).trans hp
  | found c r hl =>
    intro r' hr'
    obtain rfl := Option.some.inj hr'
    exact (lookup_id hs hid hl).trans hp
  | missed _ _ => exact hp
  | live _ _ => exact hp
  | late _ _ => exact hp
  | current _ _ => exact hp
  | outdated _ => exact hp
  | undecided _ _ _ => exact concerns_error _
  | decided _ _ _ => exact hp
  | recorded _ _ => exact ⟨hp,hp⟩
  | admitted _ _ _ => exact hp.1
  | stopped _ _ r _ =>
    intro r' hr'
    obtain rfl := Option.some.inj hr'
    exact hp.2
  | marked c r hr => exact ⟨hp,(hs c.id r hr).trans hp⟩
  | announced _ _ _ => exact hp.1
  | unannounced _ r _ =>
    intro r' hr'
    obtain rfl := Option.some.inj hr'
    exact hp.2
  | dispatching _ => exact hp
  | acknowledged _ => exact hp
  | settled c _ r hr => exact (hs c.id r hr).trans hp
  | emitted _ r =>
    intro r' hr'
    obtain rfl := Option.some.inj hr'
    exact hp
  | returned _ => exact hp
  | _ => exact hp.elim

end Submission

namespace Router

def Named (w : Wiring P) (x : Sent) : Prop :=
  x.messageID = resultID x.record.command ∧
    ∃ envelope : Envelope, envelope.messageID = x.messageID ∧
      w.json.marshalEnvelope envelope = .ok x.publication.payload

/-- What a call holds is of the command it handles. -/
def Consistent (w : Wiring P) : Handling → Prop
  | .submitting _ _ c p => Concerns c.id p
  | .responding _ _ c r => r.command.id = c.id
  | .publishing _ x => Named w x
  | _ => True

structure Sound (w : Wiring P) (s : Router) : Prop where
  keyed : s.service.store.Keyed
  calls : ∀ i, Consistent w (s.calls i)
  published : ∀ x ∈ s.published, Named w x

variable {w : Wiring P} {s : Router} {i : ℕ}

theorem Sound.setCall (h : s.Sound w) (call : Handling) (hcall : Consistent w call) :
    (s.setCall i call).Sound w :=
  ⟨h.keyed,forall_update (P := fun _ call => Consistent w call) i hcall fun j _ => h.calls j,
    h.published⟩

theorem service_keyed (h : s.service.store.Keyed) (l : Output.Label) :
    (s.service.step l).store.Keyed := by
  cases l with
  | start j op =>
    unfold Output.World.step
    dsimp only
    split_ifs
    · exact h
    · exact h
  | step j a =>
    rcases Output.thread_step_cases s.service j a with hsame | ⟨t,_,_,_,hmove⟩ | ⟨p,next,_,_,hstep⟩
    · rwa [hsame]
    · rw [hmove]
      exact h
    · rw [hstep]
      exact (Output.step_steps s.service.store a p).keyed h

theorem response_named {now clock : ℤ} {target : String} {e : Envelope} {c : Output.Command}
    {r : Output.Result} {publication : ExpiringPublication}
    (h : response w now clock target e c r = .ok publication) (hr : r.command.id = c.id) :
    Named w ⟨resultID c,r,publication⟩ := by
  refine ⟨by simp [resultID,hr],?_⟩
  unfold response at h
  cases htopic : w.topics.topic .commandResult target with
  | error err => simp [htopic] at h
  | ok found =>
    obtain ⟨topic,policy⟩ := found
    simp only [htopic] at h
    cases hencode : (w.codec.at clock).encode w.json (resultID c) "aquaos-core" e.correlationID now
        e.expiresAt c.expectedRevision (.result r) with
    | error err => simp [hencode] at h
    | ok payload =>
      simp only [hencode] at h
      split_ifs at h
      obtain rfl := Except.ok.inj h
      exact encode_ok hencode

theorem advance_sound (h : s.Sound w) {a : Output.Answer} {now clock : ℤ}
    {publish : Option Failure} (hid : s.identifies (.proceed i a now clock publish) = true) :
    (s.advance w i a now clock publish).Sound w := by
  have hcall := h.calls i
  dsimp only [identifies] at hid
  unfold advance
  cases hi : s.calls i with
  | idle => exact h
  | returned err => exact h
  | handling target e =>
    dsimp only
    cases request w e with
    | error err => exact h.setCall _ trivial
    | ok c => exact h.setCall (.submitting target e c (.submit c)) rfl
  | submitting target e c p =>
    rw [hi] at hcall hid
    dsimp only
    cases hreply : p.reply with
    | none =>
      have hsteps := Output.step_steps s.service.store a p
      have hnext := h.setCall (i := i)
        (.submitting target e c (p.step s.service.store a).point)
        (step_concerns hsteps h.keyed hcall hid)
      exact ⟨hsteps.keyed h.keyed,hnext.calls,hnext.published⟩
    | some reply =>
      obtain ⟨result,err⟩ := reply
      cases err with
      | some err => exact h.setCall _ trivial
      | none =>
        cases result with
        | none => exact h
        | some r =>
          refine h.setCall (.responding target e c r) ?_
          cases p with
          | returned reply =>
            obtain rfl : reply = ⟨some r,none⟩ := Option.some.inj hreply
            exact hcall r rfl
          | _ => cases hreply
  | responding target e c r =>
    rw [hi] at hcall
    dsimp only
    cases hresponse : response w now clock target e c r with
    | error err => exact h.setCall _ trivial
    | ok publication => exact h.setCall _ (response_named hresponse hcall)
  | publishing e x =>
    rw [hi] at hcall
    dsimp only
    cases publish with
    | some err => exact h.setCall _ trivial
    | none =>
      have hnext := h.setCall (i := i) (.returned none) trivial
      refine ⟨hnext.keyed,hnext.calls,fun y hy => ?_⟩
      rcases List.mem_cons.mp hy with rfl | hy
      · exact hcall
      · exact h.published y hy
  | failing e err =>
    have hnext := h.setCall (i := i) (.returned (some err)) trivial
    exact ⟨hnext.keyed,hnext.calls,hnext.published⟩

theorem step_sound (h : s.Sound w) {l : RouterStep} (hid : s.identifies l = true) :
    (s.step w l).Sound w := by
  cases l with
  | handle i now target payload =>
    have hreserve : Sound w (match s.consumer.reserve w.json w.reader now payload with
        | .error err => s.setCall i (.returned (some err))
        | .ok (e,consumer) => { s.setCall i (.handling target e) with consumer := consumer }) := by
      cases s.consumer.reserve w.json w.reader now payload with
      | error err => exact h.setCall _ trivial
      | ok accepted =>
        have hnext := h.setCall (i := i) (.handling target accepted.1) trivial
        exact ⟨hnext.keyed,hnext.calls,hnext.published⟩
    unfold step
    dsimp only
    cases s.calls i with
    | idle => exact hreserve
    | returned err => exact hreserve
    | _ => exact h
  | proceed i a now clock publish => exact advance_sound h hid
  | service l => exact ⟨service_keyed h.keyed l,h.calls,h.published⟩

/-- In every run in which each request carries an ID, and no key is bound to another one when it is
looked up, results for records with different IDs have different message IDs, and no consumer that
has seen only results for other records takes one for a duplicate. -/
theorem results_named_apart (w : Wiring P) (consumer : Consumer) (steps : List RouterStep)
    (h : Guarded (step w) (fun s l => s.identifies l = true) { consumer := consumer } steps) :
    let s := run (step w) { consumer := consumer } steps
    (∀ x ∈ s.published, ∃ envelope : Envelope, envelope.messageID = x.messageID ∧
      w.json.marshalEnvelope envelope = .ok x.publication.payload) ∧
    (∀ x ∈ s.published, ∀ y ∈ s.published,
      x.record.command.id ≠ y.record.command.id → x.messageID ≠ y.messageID) ∧
    (∀ y ∈ s.published, ∀ window : Window String,
      (∀ messageID ∈ window.order, ∃ x ∈ s.published,
        x.messageID = messageID ∧ x.record.command.id ≠ y.record.command.id) →
      window.reserve y.messageID ≠ none) := by
  intro s
  have hstart : Sound w { consumer := consumer } :=
    ⟨fun _ _ hr => (nomatch hr),fun _ => trivial,fun _ hx => absurd hx List.not_mem_nil⟩
  have hstep : ∀ s l, Sound w s → s.identifies l = true → Sound w (s.step w l) :=
    fun _ _ hs hl => step_sound hs hl
  have hs : s.Sound w := invariant_run hstep hstart h
  have happart : ∀ x ∈ s.published, ∀ y ∈ s.published,
      x.record.command.id ≠ y.record.command.id → x.messageID ≠ y.messageID := by
    intro x hx y hy hne heq
    rw [(hs.published x hx).1,(hs.published y hy).1] at heq
    exact hne ((String.append_right_inj _).mp heq)
  refine ⟨fun x hx => (hs.published x hx).2,happart,fun y hy window hothers hrefused => ?_⟩
  obtain ⟨x,hx,hid,hne⟩ := hothers _ (Window.reserve_none_iff.mp hrefused)
  exact happart x hx y hy hne hid

section Samples

open EventExporter (booleanJson homeExporter quoted member object)
open Deliveries (envelopeText readerOf)

def instant (time : ℤ) : String := quoted ("0001-01-01T00:00:00.00000000"++toString time++"Z")

def resultText (r : Output.Result) : String :=
  object [member "command" (object [member "id" (quoted r.command.id),
      member "idempotencyKey" (quoted r.command.idempotencyKey),
      member "correlationId" (quoted r.command.correlationID),
      member "equipmentId" (quoted r.command.equipmentID),
      member "requester" (quoted r.command.requester),
      member "issuedAt" (instant r.command.issuedAt),
      member "expiresAt" (instant r.command.expiresAt),
      member "on" (if r.command.on then "true" else "false")]),
    member "status" (quoted "acknowledged"),member "reason" (quoted r.reason),
    member "updatedAt" (instant r.updatedAt),member "acknowledgedAt" (instant r.updatedAt)]

def resultJson : Json Data :=
  { booleanJson with
    marshal
      | .result r => .ok (bytes (resultText r))
      | data => booleanJson.marshal data }

def switchOn (id : CommandID) (key : String) : Output.Command :=
  { Output.lampOn with id := id, idempotencyKey := key, issuedAt := 1, expiresAt := 2 }

def requestEnvelope (messageID : String) : Envelope where
  schemaVersion := schemaVersion
  messageID := messageID
  correlationID := Output.lampOn.correlationID
  source := "test"
  siteID := "home-reef"
  occurredAt := 1
  expiresAt := some 2
  revision := none
  data := bytes messageID

def twoRequests (first second : Output.Command) : Wiring Data where
  codec := homeExporter.codec
  topics := homeReef
  json := resultJson
  reader := readerOf [requestEnvelope "one",requestEnvelope "two"]
  command data := .ok (if data = bytes "one" then first else second)
  trailing _ := .eof

def routerConsumer : Consumer := ⟨homeExporter.codec,.make String 8 (by decide)⟩

def bothHandled : List RouterStep :=
  [RouterStep.handle 0 1 "lamp" (envelopeText (requestEnvelope "one"))]++
  List.replicate 17 (.proceed 0 { now := 1, commandID := .ok "30000000-0000-4000-8000-000000000001" }
    1 1 none)++
  [.handle 1 1 "lamp" (envelopeText (requestEnvelope "two"))]++
  List.replicate 17 (.proceed 1 { now := 1, commandID := .ok "30000000-0000-4000-8000-000000000002" }
    1 1 none)

theorem identified_results_apart :
    let w := twoRequests (switchOn "30000000-0000-4000-8000-000000000001" "one")
      (switchOn "30000000-0000-4000-8000-000000000002" "two")
    let s := run (step w) { consumer := routerConsumer } bothHandled
    s.published.length = 2 ∧ ∀ x ∈ s.published, ∀ y ∈ s.published,
      x.record.command.id ≠ y.record.command.id → x.messageID ≠ y.messageID := by
  intro w s
  exact ⟨by decide +kernel,
    (results_named_apart w routerConsumer bothHandled (by decide +kernel)).2.1⟩

/-- Two requests without an ID: the service gives them two, and both results are published under one
message ID, so that a consumer of results takes the second for a duplicate of the first. -/
theorem unidentified_results_collide :
    let w := twoRequests (switchOn "" "one") (switchOn "" "two")
    let s := run (step w) { consumer := routerConsumer } bothHandled
    s.published.map (fun x => (x.messageID,x.record.command.id)) =
      [("result-","30000000-0000-4000-8000-000000000002"),
        ("result-","30000000-0000-4000-8000-000000000001")] ∧
      ((Window.make String 8 (by decide)).reserve "result-").map
        (fun window => (window.reserve "result-").isNone) = some true := by
  decide +kernel

end Samples

end Router

end Mqtt
end AquaOS
