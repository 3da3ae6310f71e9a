import AquaOS.Measurement
import AquaOS.Scan

/-! The observation contract of the vision service: the Python side validates and encodes an
observation, and the Go side decodes and validates it again. -/
namespace AquaOS
namespace Vision

open Domain

abbrev Bytes := List UInt8

/-- The literal `0.8`, which is the same float in both languages. -/
def leastConfidence : Float64 := .finite (3602879701896397/4503599627370496)

namespace Contracts

inductive Exception
  | valueError (text : String)
  | typeError (text : String)
  deriving DecidableEq

structure Observation where
  sourceAssetId : String
  serviceVersion : String
  modelVersion : String
  confidence : Float64
  occurredAt : String
  expiresAt : String
  correlationId : String
  kind : String
  recommendation : String

/-- A `datetime`; without an offset it is naive. -/
structure Stamp where
  instant : ℤ
  aware : Bool
  deriving DecidableEq

/-- What the service calls of Python: whether `int(text, 16)` returns, `datetime.fromisoformat` and
`json.dumps` of the fields, as bytes. -/
structure Python where
  parsesHex : List Char → Bool
  fromisoformat : List Char → Option Stamp
  dumps : Observation → Bytes

/-- `text.replace(pattern, "")`; `skip` characters are left of the last match. -/
def remove (pattern : List Char) : ℕ → List Char → List Char
  | _, [] => []
  | skip+1, _::cs => remove pattern skip cs
  | 0, c::cs =>
    if pattern.isPrefixOf (c::cs) then remove pattern (pattern.length-1) cs
    else c::remove pattern 0 cs

def isBrace (c : Char) : Bool := c.toNat = 0x7b || c.toNat = 0x7d

/-- `text.strip("\x7b\x7d")`. -/
def stripBraces (text : List Char) : List Char :=
  ((text.dropWhile isBrace).reverse.dropWhile isBrace).reverse

/-- What the constructor of `UUID` leaves of a text. -/
def uuidDigits (text : String) : List Char :=
  (stripBraces (remove "uuid:".toList 0 (remove "urn:".toList 0 text.toList))).filter (· ≠ '-')

section Validate

variable (py : Python)

def raiseIf (bad : Prop) [Decidable bad] (text : String) : Except Exception Unit :=
  if bad then .error (.valueError text) else .ok ()

@[simp] theorem raiseIf_ok {bad : Prop} [Decidable bad] {text : String} {u : Unit} :
    raiseIf bad text = .ok u ↔ ¬ bad := by
  unfold raiseIf
  split_ifs with h <;> simp [h]

def uuid (text : String) : Except Exception Unit := do
  raiseIf ((uuidDigits text).length ≠ 32) "badly formed hexadecimal UUID string"
  raiseIf (py.parsesHex (uuidDigits text) = false) "invalid literal for int() with base 16"

/-- `text.replace("Z", "+00:00")`. -/
def offsetText (text : String) : List Char :=
  text.toList.flatMap fun c => if c = 'Z' then "+00:00".toList else [c]

def stamp (text : String) : Except Exception Stamp :=
  match py.fromisoformat (offsetText text) with
  | none => .error (.valueError "Invalid isoformat string")
  | some value => .ok value

/-- A comparison of times, which raises where only one of them is naive. -/
def Stamp.compare (a b : Stamp) (holds : ℤ → ℤ → Bool) : Except Exception Bool :=
  if a.aware = b.aware then .ok (holds a.instant b.instant)
  else .error (.typeError "can't compare offset-naive and offset-aware datetimes")

namespace Observation

variable (o : Observation)

def validate (now : ℤ) : Except Exception Unit := do
  uuid py o.sourceAssetId
  uuid py o.correlationId
  let occurred ← stamp py o.occurredAt
  let expires ← stamp py o.expiresAt
  let current : Stamp := ⟨now,true⟩
  raiseIf (o.serviceVersion = "" ∨ o.modelVersion = "" ∨ o.kind = "")
    "versions and kind are required"
  raiseIf (o.confidence.lt leastConfidence ∨ Float64.lt 1 o.confidence)
    "confidence is outside the accepted range"
  -- the three comparisons are joined by `or`
  let early ← occurred.compare current fun a b => b < a
  raiseIf early "observation time window is invalid"
  let expired ← expires.compare current fun a b => a ≤ b
  raiseIf expired "observation time window is invalid"
  let reversed ← expires.compare occurred fun a b => a ≤ b
  raiseIf reversed "observation time window is invalid"

def encode (now : ℤ) : Except Exception Bytes := do
  o.validate py now
  raiseIf (16384 < (py.dumps o).length) "observation exceeds 16 KiB"
  return py.dumps o

end Observation

end Validate

end Contracts

section Decode

structure Observation where
  sourceAssetID : DeviceID
  serviceVersion : String
  modelVersion : String
  confidence : Float64
  occurredAt : ℤ
  expiresAt : ℤ
  correlationID : CorrelationID
  kind : String
  recommendation : String

/-- The decoder of `encoding/json` that refuses unknown fields: its first value as an observation,
and whether it then decodes another value. -/
structure Decoder where
  first : Bytes → Option Observation
  again : Bytes → Bool

def maximumObservationBytes : ℕ := 16*1024

def decode (decoder : Decoder) (payload : Bytes) (now : ℤ) : Except Failure Observation :=
  if payload.length = 0 ∨ maximumObservationBytes < payload.length then
    .error (.message "vision observation has invalid size")
  else
    match decoder.first payload with
    | none => .error (.message "vision observation is malformed")
    | some result =>
      if validateID result.sourceAssetID ≠ none ∨ validateID result.correlationID ≠ none ∨
          result.serviceVersion = "" ∨ result.modelVersion = "" ∨ result.kind = "" then
        .error (.message "vision observation identity is invalid")
      else if result.confidence.lt leastConfidence ∨ Float64.lt 1 result.confidence ∨
          now < result.occurredAt ∨ ¬ now < result.expiresAt ∨
          ¬ result.occurredAt < result.expiresAt then
        .error (.message "vision observation is stale or below confidence policy")
      else if decoder.again payload then
        .error (.message "vision observation contains multiple values")
      else .ok result

end Decode

section Agreement

open Contracts (Python)

variable {py : Python} {decoder : Decoder} {o : Contracts.Observation} {now : ℤ}

def received (o : Contracts.Observation) (occurred expires : ℤ) : Observation where
  sourceAssetID := o.sourceAssetId
  serviceVersion := o.serviceVersion
  modelVersion := o.modelVersion
  confidence := o.confidence
  occurredAt := occurred
  expiresAt := expires
  correlationID := o.correlationId
  kind := o.kind
  recommendation := o.recommendation

/-- Both sides parse the times of an observation as the same instants, and read the same texts and
numbers in its encoding, which is one value; a NaN is no number of JSON. -/
structure Agree (py : Python) (decoder : Decoder) (o : Contracts.Observation)
    (occurred expires : ℤ) : Prop where
  occurredAt : py.fromisoformat (Contracts.offsetText o.occurredAt) = some ⟨occurred,true⟩
  expiresAt : py.fromisoformat (Contracts.offsetText o.expiresAt) = some ⟨expires,true⟩
  number : ∀ value, o.confidence = .finite value →
    decoder.first (py.dumps o) = some (received o occurred expires)
  nan : o.confidence = .nan → decoder.first (py.dumps o) = none
  nonempty : py.dumps o ≠ []
  single : decoder.again (py.dumps o) = false

/-- What an observation meets that the Python side validates. -/
structure Admitted (o : Contracts.Observation) (now occurred expires : ℤ) : Prop where
  named : ¬ (o.serviceVersion = "" ∨ o.modelVersion = "" ∨ o.kind = "")
  confident : ¬ (o.confidence.lt leastConfidence = true ∨ Float64.lt 1 o.confidence = true)
  window : occurred ≤ now ∧ now < expires ∧ occurred < expires

theorem validate_ok {occurred expires : ℤ} (hagree : Agree py decoder o occurred expires)
    (h : o.validate py now = .ok ()) : Admitted o now occurred expires := by
  unfold Contracts.Observation.validate at h
  simp only [Scan.bind_ok,Contracts.stamp,hagree.occurredAt,hagree.expiresAt,
    Contracts.Stamp.compare,Contracts.raiseIf_ok,if_true,Except.ok.injEq,exists_eq_left',
    exists_const,decide_eq_true_eq,not_lt,not_le] at h
  obtain ⟨-,-,-,-,hnamed,hconfident,hearly,hexpired,hreversed⟩ := h
  exact ⟨hnamed,hconfident,hearly,hexpired,hreversed⟩

theorem encode_ok {payload : Bytes} (h : o.encode py now = .ok payload) :
    o.validate py now = .ok () ∧ payload = py.dumps o ∧ payload.length ≤ 16384 := by
  simp only [Contracts.Observation.encode,Scan.bind_ok,Contracts.raiseIf_ok,exists_const,
    not_lt] at h
  obtain ⟨_,hvalid,hlength,hpayload⟩ := h
  obtain rfl : py.dumps o = payload := Except.ok.inj hpayload
  exact ⟨hvalid,rfl,hlength⟩

theorem Admitted.finite {occurred expires : ℤ} (h : Admitted o now occurred expires)
    (hnan : o.confidence ≠ .nan) : ∃ value, o.confidence = .finite value := by
  have hconfident := h.confident
  cases hvalue : o.confidence with
  | nan => exact absurd hvalue hnan
  | infinite negative =>
    rw [hvalue] at hconfident
    cases negative <;> exact absurd hconfident (by decide)
  | finite value => exact ⟨value,rfl⟩

/-- The Go side takes what the Python side encodes just where it finds both identifiers canonical
and the confidence is a number. -/
theorem decode_encode_iff {payload : Bytes} {occurred expires : ℤ}
    (hagree : Agree py decoder o occurred expires) (h : o.encode py now = .ok payload) :
    decode decoder payload now = .ok (received o occurred expires) ↔
      validateID o.sourceAssetId = none ∧ validateID o.correlationId = none ∧
        o.confidence ≠ .nan := by
  obtain ⟨hvalid,rfl,hlength⟩ := encode_ok h
  have hadmitted := validate_ok hagree hvalid
  have hsize : ¬ ((py.dumps o).length = 0 ∨ maximumObservationBytes < (py.dumps o).length) := by
    have hnonempty := List.length_pos_of_ne_nil hagree.nonempty
    unfold maximumObservationBytes
    omega
  unfold decode
  rw [if_neg hsize]
  by_cases hnan : o.confidence = .nan
  · rw [hagree.nan hnan]
    simp [hnan]
  · obtain ⟨value,hvalue⟩ := hadmitted.finite hnan
    obtain ⟨hnamed,hconfident,hearly,hexpired,hreversed⟩ := hadmitted
    have hpolicy : ¬ (o.confidence.lt leastConfidence = true ∨ Float64.lt 1 o.confidence = true ∨
        now < occurred ∨ ¬ now < expires ∨ ¬ occurred < expires) := by
      rintro (h | h | h | h | h)
      · exact hconfident (.inl h)
      · exact hconfident (.inr h)
      · omega
      · exact h hexpired
      · exact h hreversed
    rw [hagree.number value hvalue]
    dsimp only [received]
    by_cases hids : validateID o.sourceAssetId = none ∧ validateID o.correlationId = none
    · have hidentity : ¬ (validateID o.sourceAssetId ≠ none ∨ validateID o.correlationId ≠ none ∨
          o.serviceVersion = "" ∨ o.modelVersion = "" ∨ o.kind = "") := by
        rintro (h | h | h)
        · exact h hids.1
        · exact h hids.2
        · exact hnamed h
      rw [if_neg hidentity,if_neg hpolicy,hagree.single]
      simp [hids,hnan]
    · have hidentity : validateID o.sourceAssetId ≠ none ∨ validateID o.correlationId ≠ none ∨
          o.serviceVersion = "" ∨ o.modelVersion = "" ∨ o.kind = "" :=
        (not_and_or.mp hids).imp_right .inl
      rw [if_pos hidentity]
      simpa [hnan] using hids

def benchPython : Python where
  parsesHex text := text.all fun c => isHexDigit (UInt8.ofNat c.toNat)
  fromisoformat text :=
    if text = "2026-08-07T11:59:00+00:00".toList then some ⟨-60,true⟩
    else if text = "2026-08-07T12:01:00+00:00".toList then some ⟨60,true⟩
    else none
  dumps o := 0x7b::bytes ("\"sourceAssetId\":\""++o.sourceAssetId++"\",\"serviceVersion\":\""++
    o.serviceVersion++"\",\"modelVersion\":\""++o.modelVersion++
    "\",\"confidence\":0.9,\"occurredAt\":\""++o.occurredAt++"\",\"expiresAt\":\""++o.expiresAt++
    "\",\"correlationId\":\""++o.correlationId++"\",\"kind\":\""++o.kind++
    "\",\"recommendation\":\""++o.recommendation++"\"\x7d")

def benchObservation (sourceAssetId : String) : Contracts.Observation where
  sourceAssetId := sourceAssetId
  serviceVersion := "0.1.0"
  modelVersion := "test"
  confidence := .finite (9/10)
  occurredAt := "2026-08-07T11:59:00Z"
  expiresAt := "2026-08-07T12:01:00Z"
  correlationId := "22222222-2222-4222-8222-222222222222"
  kind := "advisory"
  recommendation := "review"

def benchDecoder (o : Contracts.Observation) : Decoder where
  first payload := if payload = benchPython.dumps o then some (received o (-60) 60) else none
  again _ := false

theorem benchDecoder_agree (sourceAssetId : String) :
    Agree benchPython (benchDecoder (benchObservation sourceAssetId))
      (benchObservation sourceAssetId) (-60) 60 where
  occurredAt := by
    change benchPython.fromisoformat (Contracts.offsetText "2026-08-07T11:59:00Z") = _
    decide
  expiresAt := by
    change benchPython.fromisoformat (Contracts.offsetText "2026-08-07T12:01:00Z") = _
    decide +kernel
  number _ _ := by simp [benchDecoder]
  nan h := nomatch h
  nonempty := List.cons_ne_nil _ _
  single := rfl

def canonicalObservation : Contracts.Observation :=
  benchObservation "11111111-1111-4111-8111-111111111111"

theorem canonicalObservation_received :
    ∃ payload, canonicalObservation.encode benchPython 0 = .ok payload ∧
      decode (benchDecoder canonicalObservation) payload 0 =
        .ok (received canonicalObservation (-60) 60) := by
  have hok : (canonicalObservation.encode benchPython 0).isOk = true := by decide +kernel
  cases h : canonicalObservation.encode benchPython 0 with
  | error err => rw [h] at hok; cases hok
  | ok payload =>
    exact ⟨payload,rfl,(decode_encode_iff (benchDecoder_agree _) h).mpr
      ⟨by decide +kernel,by decide +kernel,nofun⟩⟩

def compactObservation : Contracts.Observation :=
  benchObservation "11111111111141118111111111111111"

/-- An identifier without hyphens passes the Python side and not the Go side. -/
theorem compactObservation_refused :
    Agree benchPython (benchDecoder compactObservation) compactObservation (-60) 60 ∧
      (compactObservation.encode benchPython 0).isOk = true ∧
      (decode (benchDecoder compactObservation) (benchPython.dumps compactObservation) 0).isOk =
        false :=
  ⟨benchDecoder_agree _,by decide +kernel,by decide +kernel⟩

end Agreement

end Vision
end AquaOS
