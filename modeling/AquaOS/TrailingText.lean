import AquaOS.JsonText
import AquaOS.MessageConsumer
import AquaOS.VisionContract

/-! What follows the first value of a payload. The decoder of observations asks for a second value of
a record without fields and takes every error of that for the end of the payload; the decoder of
envelopes asks for the end itself. -/
namespace AquaOS
namespace Vision

open Domain
open AquaOS.JsonText (Value next Blank Single record)

/-- What `encoding/json` and the types of the fields make of texts. -/
structure Texts where
  unquote : Bytes → String
  equalFold : String → String → Bool
  parseFloat : Bytes → Option Float64
  parseTime : Bytes → Option ℤ

inductive Field
  | sourceAssetID | serviceVersion | modelVersion | confidence | occurredAt | expiresAt
  | correlationID | kind | recommendation
  deriving DecidableEq

def Field.key : Field → String
  | .sourceAssetID => "sourceAssetId"
  | .serviceVersion => "serviceVersion"
  | .modelVersion => "modelVersion"
  | .confidence => "confidence"
  | .occurredAt => "occurredAt"
  | .expiresAt => "expiresAt"
  | .correlationID => "correlationId"
  | .kind => "kind"
  | .recommendation => "recommendation"

def Field.all : List Field :=
  [.sourceAssetID,.serviceVersion,.modelVersion,.confidence,.occurredAt,.expiresAt,.correlationID,
    .kind,.recommendation]

section Decoding

variable (texts : Texts)

/-- The field of a member: of that name, or else of one that differs in case only. -/
def fieldOf (name : String) : Option Field :=
  match Field.all.find? fun f => f.key = name with
  | some f => some f
  | none => Field.all.find? fun f => texts.equalFold f.key name

def setField (o : Observation) : Field → Value → Option Observation
  | _, .null => some o
  | .sourceAssetID, .string text => some { o with sourceAssetID := texts.unquote text }
  | .serviceVersion, .string text => some { o with serviceVersion := texts.unquote text }
  | .modelVersion, .string text => some { o with modelVersion := texts.unquote text }
  | .correlationID, .string text => some { o with correlationID := texts.unquote text }
  | .kind, .string text => some { o with kind := texts.unquote text }
  | .recommendation, .string text => some { o with recommendation := texts.unquote text }
  | .confidence, .number text => (texts.parseFloat text).map fun x => { o with confidence := x }
  | .occurredAt, .string text => (texts.parseTime text).map fun t => { o with occurredAt := t }
  | .expiresAt, .string text => (texts.parseTime text).map fun t => { o with expiresAt := t }
  | _, _ => none

/-- A value as an observation; an unknown field is an error. -/
def observation : Value → Option Observation :=
  record (fun o name v => (fieldOf texts (texts.unquote name)).bind fun f => setField texts o f v)
    ⟨"","","",0,0,0,"","",""⟩

/-- A decoder that refuses unknown fields, over the texts of JSON. -/
def jsonDecoder : Decoder where
  first payload :=
    match next payload with
    | .value v _ => observation texts v
    | _ => none
  again payload :=
    match next payload with
    | .value _ rest =>
      match next rest with
      | .value v _ => (record (fun _ _ _ => none) () v).isSome
      | _ => false
    | _ => false

end Decoding

/-- What is asked of an observation itself. -/
structure Valid (o : Observation) (now : ℤ) : Prop where
  identity : ¬ (validateID o.sourceAssetID ≠ none ∨ validateID o.correlationID ≠ none ∨
    o.serviceVersion = "" ∨ o.modelVersion = "" ∨ o.kind = "")
  policy : ¬ (o.confidence.lt leastConfidence ∨ Float64.lt 1 o.confidence ∨ now < o.occurredAt ∨
    ¬ now < o.expiresAt ∨ ¬ o.occurredAt < o.expiresAt)

/-- The texts that are taken for a second value: those that begin with a null or with an object
without members. -/
def Second (rest : Bytes) : Prop :=
  ∃ v more, next rest = .value v more ∧ (v = .null ∨ v = .group .object [])

section Accepted

variable {texts : Texts} {payload rest : Bytes} {v : Value} {now : ℤ} {o : Observation}

theorem again_iff (h : next payload = .value v rest) :
    (jsonDecoder texts).again payload = true ↔ Second rest := by
  simp only [jsonDecoder,h,Second]
  cases hrest : next rest with
  | eof => simp
  | malformed => simp
  | value v' more => simp [JsonText.record_fieldless]

theorem decode_ok_iff : decode (jsonDecoder texts) payload now = .ok o ↔
    payload.length ≤ maximumObservationBytes ∧ ∃ v rest, next payload = .value v rest ∧
      observation texts v = some o ∧ Valid o now ∧ ¬ Second rest := by
  have hempty : ∀ v rest, next payload = .value v rest → payload.length ≠ 0 := by
    intro v rest h hlen
    rw [List.length_eq_zero_iff.mp hlen] at h
    cases h
  constructor
  · intro h
    have hsize : ¬ (payload.length = 0 ∨ maximumObservationBytes < payload.length) := by
      intro hsize
      rw [decode,if_pos hsize] at h
      cases h
    rw [decode,if_neg hsize] at h
    cases hfirst : (jsonDecoder texts).first payload with
    | none =>
      rw [hfirst] at h
      cases h
    | some o' =>
      rw [hfirst] at h
      dsimp only at h
      split_ifs at h with hidentity hpolicy hagain
      cases h
      cases hnext : next payload with
      | value v rest =>
        simp only [jsonDecoder,hnext] at hfirst
        rw [again_iff hnext] at hagain
        exact ⟨by omega,v,rest,rfl,hfirst,⟨hidentity,hpolicy⟩,hagain⟩
      | _ => simp [jsonDecoder,hnext] at hfirst
  · rintro ⟨hsize,v,rest,hnext,hobservation,hvalid,hsecond⟩
    have hfirst : (jsonDecoder texts).first payload = some o := by
      simp only [jsonDecoder,hnext,hobservation]
    have hlen := hempty v rest hnext
    rw [decode,if_neg (by omega),hfirst]
    dsimp only
    rw [if_neg hvalid.identity,if_neg hvalid.policy,if_neg ((again_iff hnext).not.mpr hsecond)]

/-- Every accepted payload is one value just where, after an observation that is valid at some
instant, there is white space only or what is taken for a second value. -/
theorem accepted_single_iff (texts : Texts) (payload : Bytes) :
    (∀ now o, decode (jsonDecoder texts) payload now = .ok o → Single payload) ↔
      ∀ v rest, payload.length ≤ maximumObservationBytes → next payload = .value v rest →
        (∃ now o, observation texts v = some o ∧ Valid o now) → Blank rest ∨ Second rest := by
  constructor
  · rintro h v rest hsize hnext ⟨now,o,hobservation,hvalid⟩
    by_cases hsecond : Second rest
    · exact .inr hsecond
    · have haccepted := decode_ok_iff.mpr ⟨hsize,v,rest,hnext,hobservation,hvalid,hsecond⟩
      exact .inl ((JsonText.single_iff hnext).mp (h now o haccepted))
  · intro h now o haccepted
    obtain ⟨hsize,v,rest,hnext,hobservation,hvalid,hsecond⟩ := decode_ok_iff.mp haccepted
    have hblank := (h v rest hsize hnext ⟨now,o,hobservation,hvalid⟩).resolve_right hsecond
    exact (JsonText.single_iff hnext).mpr hblank

def remainder (payload : Bytes) : Option Bytes :=
  match next payload with
  | .value _ rest => some rest
  | _ => none

theorem not_single (h : remainder payload = some rest) (hrest : ¬ Blank rest) : ¬ Single payload := by
  unfold remainder at h
  cases hnext : next payload with
  | value v rest' =>
    rw [hnext] at h
    cases h
    rwa [JsonText.single_iff hnext]
  | _ =>
    rw [hnext] at h
    cases h

/-- The texts of the bench: ASCII without escapes, one number and two times. -/
def benchTexts : Texts where
  unquote text := String.ofList (text.map fun b => Char.ofNat b.toNat)
  equalFold _ _ := false
  parseFloat text := if text = bytes "0.9" then some (.finite (9/10)) else none
  parseTime text :=
    if text = bytes "2026-08-07T11:59:00Z" then some (-60)
    else if text = bytes "2026-08-07T12:01:00Z" then some 60
    else none

def advisory : Bytes :=
  0x7b::bytes ("\"sourceAssetId\":\"11111111-1111-4111-8111-111111111111\","++
    "\"serviceVersion\":\"0.1.0\",\"modelVersion\":\"test\",\"confidence\":0.9,"++
    "\"occurredAt\":\"2026-08-07T11:59:00Z\",\"expiresAt\":\"2026-08-07T12:01:00Z\","++
    "\"correlationId\":\"22222222-2222-4222-8222-222222222222\",\"kind\":\"advisory\"\x7d")

/-- A number and malformed text after the observation are both accepted. -/
theorem advisory_trailing_accepted :
    ((decode (jsonDecoder benchTexts) (advisory++bytes "1") 0).isOk = true ∧
      ¬ Single (advisory++bytes "1")) ∧
    (decode (jsonDecoder benchTexts) (advisory++bytes " x") 0).isOk = true ∧
      ¬ Single (advisory++bytes " x") := by
  have hone : remainder (advisory++bytes "1") = some (bytes "1") := by decide +kernel
  have hword : remainder (advisory++bytes " x") = some (bytes " x") := by decide +kernel
  refine ⟨⟨by decide +kernel,not_single hone ?_⟩,by decide +kernel,not_single hword ?_⟩
  · unfold Blank
    decide +kernel
  · unfold Blank
    decide +kernel

end Accepted

end Vision

namespace Mqtt

open Domain
open AquaOS.JsonText (Value next Blank Single)

/-- The decoders of envelopes over the texts of JSON: `envelope` makes an envelope of a value, and
`ended` and `malformed` are the errors where there is none. -/
def jsonReader (envelope : Value → Except Failure Envelope) (ended malformed : Failure) : Reader where
  envelope payload :=
    match next payload with
    | .eof => .error ended
    | .malformed => .error malformed
    | .value v _ => envelope v
  trailing payload :=
    match next payload with
    | .value _ rest =>
      match next rest with
      | .eof => .eof
      | .malformed => .malformed malformed
      | .value _ _ => .value
    | _ => .malformed malformed

section Accepted

variable {envelope : Value → Except Failure Envelope} {ended malformed : Failure}
  {payload rest : List UInt8} {v : Value}

theorem ensureEOF_trailing (envelope : Value → Except Failure Envelope) (ended malformed : Failure)
    (h : next payload = .value v rest) :
    ensureEOF ((jsonReader envelope ended malformed).trailing payload) = none ↔ Blank rest := by
  rw [← JsonText.next_eof]
  simp only [jsonReader,h]
  cases next rest <;> simp [ensureEOF]

/-- An accepted envelope is one value and white space, whatever becomes of the value. -/
theorem envelope_single {P : Type} {c : Codec} {json : Json P} {e : Envelope}
    (h : c.decode json (jsonReader envelope ended malformed) payload = .ok e) : Single payload := by
  unfold Codec.decode at h
  split_ifs at h
  cases hnext : next payload with
  | value v rest =>
    rw [JsonText.single_iff hnext,← ensureEOF_trailing envelope ended malformed hnext]
    cases hend : ensureEOF ((jsonReader envelope ended malformed).trailing payload) with
    | none => rfl
    | some err =>
      rw [hend] at h
      split at h <;> cases h
  | _ => simp [jsonReader,hnext] at h

/-- A member of an envelope by the texts of the bench, whose data are an empty object. -/
def benchMember (e : Envelope) (name : List UInt8) : Value → Option Envelope
  | .string text =>
    let content := Vision.benchTexts.unquote text
    if name = bytes "schemaVersion" then some { e with schemaVersion := content }
    else if name = bytes "messageId" then some { e with messageID := content }
    else if name = bytes "correlationId" then some { e with correlationID := content }
    else if name = bytes "source" then some { e with source := content }
    else if name = bytes "siteId" then some { e with siteID := content }
    else if name = bytes "occurredAt" then
      (Vision.benchTexts.parseTime text).map fun t => { e with occurredAt := t }
    else none
  | .group .object [] =>
    if name = bytes "data" then some { e with data := bytes "\x7b\x7d" } else none
  | _ => none

def benchReader : Reader :=
  jsonReader (fun v => match JsonText.record benchMember ⟨"","","","","",0,none,none,[]⟩ v with
    | some e => .ok e
    | none => .error (.external "json: unknown field")) (.external "EOF") (.external "invalid character")

def benchMessage : List UInt8 :=
  0x7b::bytes ("\"schemaVersion\":\"1.0\",\"messageId\":\"one\",\"source\":\"test\","++
    "\"correlationId\":\"00000000-0000-4000-8000-000000000009\",\"siteId\":\"home-reef\","++
    "\"occurredAt\":\"2026-08-07T12:01:00Z\",\"data\":\x7b\x7d\x7d ")

theorem benchMessage_single :
    EventExporter.homeExporter.codec.decode EventExporter.booleanJson benchReader benchMessage =
        .ok { Deliveries.sampleEnvelope "one" with occurredAt := 60 } ∧ Single benchMessage ∧
      (EventExporter.homeExporter.codec.decode EventExporter.booleanJson benchReader
        (benchMessage++bytes "1")).isOk = false := by
  have h : EventExporter.homeExporter.codec.decode EventExporter.booleanJson benchReader
      benchMessage = .ok { Deliveries.sampleEnvelope "one" with occurredAt := 60 } := by
    decide +kernel
  exact ⟨h,envelope_single h,by decide +kernel⟩

end Accepted

end Mqtt
end AquaOS
