import AquaOS.MessageConsumer

/-! The fields a consumer of MQTT messages guards with its lock. Nothing in their types ties the set
to the list or bounds either; the two lock sections of a `Consume` keep them those of a window. -/
namespace AquaOS
namespace Mqtt

open Domain Transition

variable {P : Type}

structure ConsumerFields where
  codec : Codec
  capacity : ℕ
  seen : Table String Unit := ∅
  order : List String := []

namespace ConsumerFields

/-- `NewConsumer`. -/
def make (codec : Codec) (capacity : ℤ) : Except Failure ConsumerFields :=
  if capacity < 1 ∨ 1000000 < capacity then
    .error (.message "MQTT idempotency capacity must be between 1 and 1000000")
  else .ok { codec, capacity := capacity.toNat }

/-- The lock section of `Consume` before the handler. -/
def reserve (c : ConsumerFields) (messageID : String) : Except Failure ConsumerFields :=
  if messageID ∈ c.seen then .error errDuplicate
  else
    let seen := c.seen.insert messageID ()
    let order := c.order++[messageID]
    if c.capacity < order.length then
      match order with
      | [] => .ok { c with seen, order }
      | oldest::rest => .ok { c with seen := seen.erase oldest, order := rest }
    else .ok { c with seen, order }

/-- The lock section after a handler that failed; the loop removes the first occurrence. -/
def release (c : ConsumerFields) (messageID : String) : ConsumerFields :=
  { c with seen := c.seen.erase messageID, order := c.order.erase messageID }

end ConsumerFields

/-- Where a call of `Consume` stands when it does not hold the lock. -/
inductive ConsumeCall
  | idle
  | handling (messageID : String)
  | returned (err : Option Failure)

structure Consuming where
  consumer : ConsumerFields
  calls : ℕ → ConsumeCall := fun _ => .idle

inductive ConsumeStep
  | consume (i : ℕ) (now : ℤ) (payload : List UInt8)
  | handled (i : ℕ) (err : Option Failure)

namespace Consuming

/-- `Consume` up to the call of its handler. -/
def consume (json : Json P) (reader : Reader) (s : Consuming) (i : ℕ) (now : ℤ)
    (payload : List UInt8) : Consuming :=
  match (s.consumer.codec.at now).decode json reader payload with
  | .error err => { s with calls := Function.update s.calls i (.returned (some err)) }
  | .ok e =>
    match s.consumer.reserve e.messageID with
    | .error err => { s with calls := Function.update s.calls i (.returned (some err)) }
    | .ok consumer => { consumer, calls := Function.update s.calls i (.handling e.messageID) }

def step (json : Json P) (reader : Reader) (s : Consuming) : ConsumeStep → Consuming
  | .consume i now payload =>
    match s.calls i with
    | .handling _ => s
    | .idle | .returned _ => s.consume json reader i now payload
  | .handled i err =>
    match s.calls i with
    | .idle | .returned _ => s
    | .handling messageID =>
      { consumer := if err = none then s.consumer else s.consumer.release messageID
        calls := Function.update s.calls i (.returned err) }

end Consuming

namespace ConsumerFields

def Windowed (capacity : ℕ) (c : ConsumerFields) : Prop :=
  ∃ w : Window String, w.capacity = capacity ∧ c.capacity = capacity ∧ c.seen = w.seen ∧
    c.order = w.order

variable {c c' : ConsumerFields} {capacity : ℕ} {messageID : String}

theorem make_windowed {codec : Codec} {n : ℤ} (h : make codec n = .ok c) :
    c.Windowed n.toNat := by
  unfold make at h
  split_ifs at h with hbounds
  cases h
  exact ⟨.make String n.toNat (by omega),rfl,rfl,rfl,rfl⟩

/-- The section before the handler is the reservation of the window. -/
theorem reserve_window {w : Window String} (hcapacity : c.capacity = w.capacity)
    (hseen : c.seen = w.seen) (horder : c.order = w.order) (h : c.reserve messageID = .ok c') :
    ∃ w', w.reserve messageID = some w' ∧ c'.capacity = w'.capacity ∧ c'.seen = w'.seen ∧
      c'.order = w'.order := by
  unfold reserve at h
  dsimp only at h
  split_ifs at h with hmem hfull
  · have hnew : messageID ∉ w.seen := hseen ▸ hmem
    rw [hcapacity,horder] at hfull
    refine ⟨_,dif_neg hnew,?_⟩
    unfold Window.forget Window.trim
    dsimp only
    rw [if_pos hfull,if_pos hfull]
    cases hkeys : w.order++[messageID] with
    | nil => simp at hkeys
    | cons oldest rest =>
      rw [horder,hkeys] at h
      cases h
      exact ⟨hcapacity,by rw [hseen],rfl⟩
  · have hnew : messageID ∉ w.seen := hseen ▸ hmem
    rw [hcapacity,horder] at hfull
    cases h
    refine ⟨_,dif_neg hnew,hcapacity,?_,?_⟩
    · exact (congrArg (AList.insert messageID ()) hseen).trans (if_neg hfull).symm
    · exact (congrArg (·++[messageID]) horder).trans (if_neg hfull).symm

theorem reserve_windowed (hc : c.Windowed capacity) (h : c.reserve messageID = .ok c') :
    c'.Windowed capacity := by
  obtain ⟨w,rfl,hcapacity,hseen,horder⟩ := hc
  obtain ⟨w',hreserve,hcapacity',hseen',horder'⟩ := reserve_window hcapacity hseen horder h
  obtain ⟨_,hkept,_⟩ := Window.reserve_some hreserve
  exact ⟨w',hkept,hcapacity'.trans hkept,hseen',horder'⟩

theorem release_windowed (hc : c.Windowed capacity) (messageID : String) :
    (c.release messageID).Windowed capacity := by
  obtain ⟨w,rfl,hcapacity,hseen,horder⟩ := hc
  exact ⟨w.release messageID,rfl,hcapacity,congrArg (AList.erase messageID) hseen,
    congrArg (List.erase · messageID) horder⟩

end ConsumerFields

namespace Consuming

variable {json : Json P} {reader : Reader} {s : Consuming} {capacity : ℕ}

theorem consume_windowed (h : s.consumer.Windowed capacity) (i : ℕ) (now : ℤ)
    (payload : List UInt8) :
    (s.consume json reader i now payload).consumer.Windowed capacity := by
  unfold consume
  cases (s.consumer.codec.at now).decode json reader payload with
  | error err => exact h
  | ok e =>
    dsimp only
    cases hreserve : s.consumer.reserve e.messageID with
    | error err => exact h
    | ok consumer => exact ConsumerFields.reserve_windowed h hreserve

theorem step_windowed (h : s.consumer.Windowed capacity) (l : ConsumeStep) :
    (s.step json reader l).consumer.Windowed capacity := by
  cases l with
  | consume i now payload =>
    unfold step
    dsimp only
    cases s.calls i with
    | idle | returned err => exact consume_windowed h i now payload
    | handling messageID => exact h
  | handled i err =>
    unfold step
    dsimp only
    cases s.calls i with
    | idle => exact h
    | returned err => exact h
    | handling messageID =>
      dsimp only
      split_ifs
      · exact h
      · exact ConsumerFields.release_windowed h messageID

/-- In every interleaving of calls, whatever their handlers return and however late, the list and
the set hold the same message IDs, each once and no more than the capacity. -/
theorem consumer_bounded (json : Json P) (reader : Reader) (codec : Codec) (capacity : ℤ)
    (c : ConsumerFields) (hc : ConsumerFields.make codec capacity = .ok c)
    (steps : List ConsumeStep) :
    let s := run (step json reader) { consumer := c } steps
    s.consumer.order.Nodup ∧
      (∀ messageID, messageID ∈ s.consumer.order ↔ messageID ∈ s.consumer.seen) ∧
      s.consumer.order.length ≤ capacity := by
  intro s
  have hs : s.consumer.Windowed capacity.toNat :=
    invariant_always (I := fun s : Consuming => s.consumer.Windowed capacity.toNat)
      (fun _ l h => step_windowed h l) (ConsumerFields.make_windowed hc) steps
  obtain ⟨w,hcapacity,_,hseen,horder⟩ := hs
  rw [hseen,horder]
  refine ⟨w.nodup,fun messageID => (w.mem messageID).symm,?_⟩
  have hfits := w.fits
  have hpositive := w.positive
  omega

section Samples

open EventExporter (booleanJson homeExporter)
open Deliveries (envelopeText sampleEnvelope sampleReader)

/-- A window of one: the message of the first call is evicted and reserved again before the handler
of that call fails. -/
def failedLate : List ConsumeStep :=
  [.consume 0 1 (envelopeText (sampleEnvelope "one")),
    .consume 1 1 (envelopeText (sampleEnvelope "two")),
    .consume 2 1 (envelopeText (sampleEnvelope "one")),.handled 0 (some errExpired)]

def soleFields : ConsumerFields := { codec := homeExporter.codec, capacity := 1 }

theorem soleFields_make : ConsumerFields.make homeExporter.codec 1 = .ok soleFields :=
  if_neg (by decide)

theorem failedLate_bounded :
    (run (step booleanJson sampleReader) { consumer := soleFields } failedLate).consumer.order.Nodup ∧
      (run (step booleanJson sampleReader) { consumer := soleFields }
        failedLate).consumer.order.length ≤ (1 : ℤ) :=
  have hbounded := consumer_bounded booleanJson sampleReader homeExporter.codec 1 soleFields
    soleFields_make failedLate
  ⟨hbounded.1,hbounded.2.2⟩

end Samples

end Consuming

end Mqtt
end AquaOS
