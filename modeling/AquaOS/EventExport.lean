import AquaOS.AlarmBus
import AquaOS.AlarmNotifications
import AquaOS.MqttClient
import AquaOS.Output

/-! The exporter of state and alarm events. Identifiers become segments of topics by their spelling
alone, a refused topic is left empty, and of the key of a value only the kind and the entity reach
the topic. -/
namespace AquaOS

namespace Domain

/-- `newUUID`, from the random bytes it reads: those at the first sixteen places. -/
def newUUID (random : ℕ → UInt8) : String :=
  let value (i : ℕ) : UInt8 :=
    if i = 6 then (random i &&& 0x0f) ||| 0x40
    else if i = 8 then (random i &&& 0x3f) ||| 0x80
    else random i
  let hex (places : List ℕ) : List Char := places.flatMap fun i =>
    [Alarms.hexDigit ((value i).toNat/16),Alarms.hexDigit ((value i).toNat%16)]
  String.ofList (hex [0,1,2,3]++ '-'::hex [4,5]++ '-'::hex [6,7]++ '-'::hex [8,9]++
    '-'::hex [10,11,12,13,14,15])

end Domain

namespace Mqtt

open Domain CanonicalState Events

def schemaVersion : String := "1.0"

structure Envelope where
  schemaVersion : String
  messageID : String
  correlationID : CorrelationID
  source : String
  siteID : String
  occurredAt : ℤ
  expiresAt : Option ℤ
  revision : Option Revision
  data : List UInt8
  deriving DecidableEq

/-- What is put into envelopes: by the exporter, the status for Home Assistant, and the results of
commands. -/
inductive Data
  | state (value : StateValue)
  | alarm (alarm : Alarms.Alarm)
  | status (message : App.StatusMessage)
  | result (result : Output.Result)
  deriving DecidableEq

/-- `encoding/json`, as far as envelopes need it. -/
structure Json (P : Type) where
  state : P → Option StateValue
  alarm : P → Option Alarms.Alarm
  marshal : Data → Except Failure (List UInt8)
  marshalEnvelope : Envelope → Except Failure (List UInt8)
  valid : List UInt8 → Bool

/-- A codec; only `NewCodec` makes one. -/
structure Codec where
  siteID : String
  maximumPayload : ℕ
  now : ℤ
  site : topicSegmentPattern siteID = true
  bounded : 256 ≤ maximumPayload ∧ maximumPayload ≤ 16*1024*1024

def newCodec (siteID : String) (maximumPayload : ℤ) (now : ℤ) : Except Failure Codec :=
  if hsite : topicSegmentPattern siteID = true then
    if h : 256 ≤ maximumPayload ∧ maximumPayload ≤ 16*1024*1024 then
      .ok ⟨siteID,maximumPayload.toNat,now,hsite,by omega⟩
    else .error (.message "MQTT maximum payload must be between 256 bytes and 16 MiB")
  else .error (.message "codec site ID must be lowercase kebab-case")

def errExpired : Failure := .message "MQTT message expired"
def errOversized : Failure := .message "MQTT payload exceeds configured maximum"

variable {P : Type}

namespace Codec

def validate (c : Codec) (json : Json P) (e : Envelope) : Option Failure :=
  if e.schemaVersion = "" ∨ e.messageID = "" ∨ 64 < (bytes e.messageID).length ∨ e.source = "" ∨
      e.siteID ≠ c.siteID ∨ e.occurredAt = 0 then
    some (.message "MQTT envelope has invalid required fields")
  else
    match validateID e.correlationID with
    | some err => some (.wrapped "MQTT correlation ID" err)
    | none =>
      if ¬ json.valid e.data then some (.message "MQTT envelope data must be valid JSON")
      else if ∃ deadline ∈ e.expiresAt, deadline ≤ c.now then some errExpired
      else none

def encode (c : Codec) (json : Json P) (messageID source : String) (correlationID : CorrelationID)
    (occurredAt : ℤ) (expiresAt : Option ℤ) (revision : Option Revision) (data : Data) :
    Except Failure (List UInt8) :=
  match json.marshal data with
  | .error err => .error (.wrapped "encode MQTT data" err)
  | .ok encoded =>
    let envelope : Envelope :=
      { schemaVersion, messageID, correlationID, source, siteID := c.siteID, occurredAt, expiresAt
        revision, data := encoded }
    match c.validate json envelope with
    | some err => .error err
    | none =>
      match json.marshalEnvelope envelope with
      | .error err => .error err
      | .ok payload => if c.maximumPayload < payload.length then .error errOversized else .ok payload

end Codec

structure Publication where
  topic : String
  qos : UInt8
  retained : Bool
  payload : List UInt8
  deriving DecidableEq

structure EventExporter where
  registry : Registry
  codec : Codec

namespace EventExporter

/-- The purpose and resource of the topic, the data and its revision; other events and unknown
payloads are passed over. -/
def address (json : Json P) (event : Event P) :
    Option (Purpose × String × Data × Option Revision) :=
  match event.eventType with
  | .stateChanged =>
    match json.state event.payload with
    | none => none
    | some value =>
      match value.key.entityKind with
      | .equipment => some (.equipmentReported,"equipment-"++value.key.entityID,.state value,
          some value.revision)
      | .sensor => some (.sensorState,"sensor-"++value.key.entityID,.state value,
          some value.revision)
      | .other _ => none
  | .alarmRaised | .alarmAcknowledged | .alarmCleared | .alarmEscalated =>
    match json.alarm event.payload with
    | none => none
    | some alarm => some (.alarmState,alarm.id,.alarm alarm,none)
  | .other _ => none

/-- The topic and policy, whose error is dropped. -/
def target (e : EventExporter) (purpose : Purpose) (resource : String) : String × Policy :=
  (e.registry.topic purpose resource).toOption.getD ("",{})

def encoded (e : EventExporter) (json : Json P) (event : Event P) (data : Data)
    (revision : Option Revision) : Except Failure (List UInt8) :=
  e.codec.encode json event.correlationID event.source event.correlationID event.timestamp none
    revision data

/-- What `Handle` gives to the transport; it returns no error in any case. -/
def handle (e : EventExporter) (json : Json P) (event : Event P) : Option Publication :=
  match address json event with
  | none => none
  | some (purpose,resource,data,revision) =>
    match e.encoded json event data revision with
    | .error _ => none
    | .ok payload =>
      let (topic,policy) := e.target purpose resource
      some ⟨topic,policy.qos,policy.retained,payload⟩

end EventExporter

section Identifiers

open AquaOS.Configuration (isLower isDigit matchesIdentifier)

theorem hexDigit_byte {n : ℕ} (hn : n < 16) : ∃ b, String.utf8EncodeChar (Alarms.hexDigit n) = [b] ∧
      (isLower b = true ∨ isDigit b = true ∨ b = hyphen) ∧ (isLower b = true ↔ 10 ≤ n) := by
  have hall : ∀ m : Fin 16, (Alarms.hexDigit m).toNat < 128 ∧
      (isLower (UInt8.ofNat (Alarms.hexDigit m).toNat) = true ∨
        isDigit (UInt8.ofNat (Alarms.hexDigit m).toNat) = true ∨
        UInt8.ofNat (Alarms.hexDigit m).toNat = hyphen) ∧
      (isLower (UInt8.ofNat (Alarms.hexDigit m).toNat) = true ↔ 10 ≤ m.val) := by decide
  obtain ⟨hascii,hspelled,hletter⟩ := hall ⟨n,hn⟩
  exact ⟨_,utf8EncodeChar_ascii hascii,hspelled,hletter⟩

/-- The characters of segments, each one byte. -/
def Spelled (c : Char) : Prop :=
  ∃ b, String.utf8EncodeChar c = [b] ∧ (isLower b = true ∨ isDigit b = true ∨ b = hyphen)

theorem spelled_bytes {l : List Char} (h : ∀ c ∈ l, Spelled c) :
    (l.flatMap String.utf8EncodeChar).length = l.length ∧
      ∀ b ∈ l.flatMap String.utf8EncodeChar, isLower b = true ∨ isDigit b = true ∨ b = hyphen := by
  induction l with
  | nil => simp
  | cons c l ih =>
    obtain ⟨b,hb,hspelled⟩ := h c List.mem_cons_self
    obtain ⟨hlen,hall⟩ := ih fun c hc => h c (List.mem_cons_of_mem _ hc)
    rw [List.flatMap_cons,hb]
    refine ⟨by simp [hlen],?_⟩
    intro b' hb'
    rcases List.mem_cons.mp hb' with rfl | hmem
    · exact hspelled
    · exact hall b' hmem

theorem newUUID_eq (random : ℕ → UInt8) :
    ∃ rest, newUUID random = String.ofList (Alarms.hexDigit ((random 0).toNat/16)::rest) ∧
      rest.length = 35 ∧ ∀ c ∈ rest, Spelled c := by
  have hdigit : ∀ n < 16, Spelled (Alarms.hexDigit n) := fun n hn => by
    obtain ⟨b,hb,hspelled,_⟩ := hexDigit_byte hn
    exact ⟨b,hb,hspelled⟩
  have hhigh : ∀ b : UInt8, Spelled (Alarms.hexDigit (b.toNat/16)) :=
    fun b => hdigit _ (by have := b.toNat_lt; omega)
  have hlow : ∀ b : UInt8, Spelled (Alarms.hexDigit (b.toNat%16)) :=
    fun b => hdigit _ (Nat.mod_lt _ (by decide))
  have hdash : Spelled '-' := ⟨hyphen,by decide,.inr (.inr rfl)⟩
  have hall : ∀ c ∈ (newUUID random).toList, Spelled c := by
    simp only [newUUID,String.toList_ofList,List.flatMap_cons,List.flatMap_nil,List.append_nil,
      List.cons_append,List.nil_append,List.forall_mem_cons,hhigh,hlow,hdash,true_and,
      List.not_mem_nil,false_implies,forall_const]
  refine ⟨(newUUID random).toList.tail,?_,?_,fun c hc => hall c (List.mem_of_mem_tail hc)⟩
  · simp [newUUID]
  · simp [newUUID]

theorem newUUID_segment_iff (random : ℕ → UInt8) :
    topicSegmentPattern (newUUID random) = true ↔ 0xa0 ≤ random 0 := by
  obtain ⟨rest,heq,hlen,hspelled⟩ := newUUID_eq random
  have hbound : (random 0).toNat/16 < 16 := by have := (random 0).toNat_lt; omega
  obtain ⟨b,hb,_,hletter⟩ := hexDigit_byte hbound
  obtain ⟨hlength,hall⟩ := spelled_bytes hspelled
  have hfirst : 10 ≤ (random 0).toNat/16 ↔ 0xa0 ≤ random 0 := by
    rw [UInt8.le_iff_toNat_le]
    simp only [UInt8.reduceToNat]
    omega
  rw [topicSegmentPattern,matchesIdentifier,heq,bytes_ofList,List.flatMap_cons,hb]
  simp only [List.cons_append,List.nil_append,hlength,hlen,Bool.and_eq_true,decide_eq_true_eq,
    List.all_eq_true,Bool.or_eq_true,beq_iff_eq,hletter,hfirst,or_assoc]
  exact ⟨fun h => h.1.1,fun h => ⟨⟨h,by decide⟩,hall⟩⟩

end Identifiers

namespace EventExporter

variable {e : EventExporter} {json : Json P} {event : Event P} {purpose : Purpose}
  {resource : String} {data : Data} {revision : Option Revision}

/-- `Registry.Topic` accepts what `Handle` asks it for. -/
def Accepts (e : EventExporter) (json : Json P) (event : Event P) : Prop :=
  ∃ purpose resource data revision topic policy,
    address json event = some (purpose,resource,data,revision) ∧
      e.registry.topic purpose resource = .ok (topic,policy)

/-- The envelope of the event encodes within the payload limit. -/
def Encodes (e : EventExporter) (json : Json P) (event : Event P) : Prop :=
  ∃ purpose resource data revision payload,
    address json event = some (purpose,resource,data,revision) ∧
      e.encoded json event data revision = .ok payload

/-- The transport is given a publication on a topic of the registry. -/
def Delivers (e : EventExporter) (json : Json P) (event : Event P) : Prop :=
  ∃ publication purpose resource policy, e.handle json event = some publication ∧
    publication.topic ≠ "" ∧
      e.registry.topic purpose resource = .ok (publication.topic,policy)

theorem target_of_ok {topic : String} {policy : Policy}
    (h : e.registry.topic purpose resource = .ok (topic,policy)) :
    e.target purpose resource = (topic,policy) := by
  simp [target,h,Except.toOption]

theorem target_of_rejected (h : topicSegmentPattern resource = false) :
    e.target purpose resource = ("",{}) := by
  simp [target,topic_rejects e.registry purpose h,Except.toOption]

section Addressed

variable (haddress : address json event = some (purpose,resource,data,revision))
  (hp : purpose = .sensorState ∨ purpose = .equipmentReported ∨ purpose = .alarmState)

include haddress

theorem handle_eq_some {publication : Publication} : e.handle json event = some publication ↔
      ∃ payload, e.encoded json event data revision = .ok payload ∧
        publication = ⟨(e.target purpose resource).1,(e.target purpose resource).2.qos,
          (e.target purpose resource).2.retained,payload⟩ := by
  unfold handle
  simp only [haddress]
  cases e.encoded json event data revision with
  | error err => simp
  | ok payload => simp [eq_comm]

theorem encodes_iff :
    e.Encodes json event ↔ ∃ payload, e.encoded json event data revision = .ok payload := by
  constructor
  · rintro ⟨_,_,_,_,payload,haddress',hencoded⟩
    rw [haddress] at haddress'
    cases haddress'
    exact ⟨payload,hencoded⟩
  · rintro ⟨payload,hencoded⟩
    exact ⟨purpose,resource,data,revision,payload,haddress,hencoded⟩

include hp

theorem accepts_iff : e.Accepts json event ↔ topicSegmentPattern resource = true := by
  constructor
  · rintro ⟨_,_,_,_,topic,policy,haddress',htopic⟩
    rw [haddress] at haddress'
    cases haddress'
    by_contra hbad
    rw [topic_rejects _ _ (by simpa using hbad)] at htopic
    cases htopic
  · intro h
    obtain ⟨topic,htopic⟩ := topic_accepts e.registry (.inr hp) h
    exact ⟨purpose,resource,data,revision,topic,_,haddress,htopic⟩

theorem delivers_iff :
    e.Delivers json event ↔ topicSegmentPattern resource = true ∧ e.Encodes json event := by
  rw [encodes_iff haddress]
  constructor
  · rintro ⟨publication,_,_,_,hhandle,hnonempty,_⟩
    obtain ⟨payload,hencoded,rfl⟩ := (handle_eq_some haddress).mp hhandle
    refine ⟨?_,payload,hencoded⟩
    by_contra hbad
    rw [target_of_rejected (by simpa using hbad)] at hnonempty
    exact hnonempty rfl
  · rintro ⟨hsegment,payload,hencoded⟩
    obtain ⟨topic,htopic⟩ := topic_accepts e.registry (.inr hp) hsegment
    refine ⟨_,purpose,resource,⟨purpose,1,true⟩,
      (handle_eq_some haddress).mpr ⟨payload,hencoded,rfl⟩,?_⟩
    rw [target_of_ok htopic]
    exact ⟨built_nonempty (Constructor.topic_built htopic),htopic⟩

end Addressed

section State

variable {value value' : StateValue} (htype : event.eventType = .stateChanged)
  (hdecoded : json.state event.payload = some value) (hvalid : value.validate = none)

include htype hdecoded hvalid

theorem state_address :
    ∃ purpose text, address json event =
        some (purpose,text++value.key.entityID,.state value,some value.revision) ∧
      (value.key.entityKind = .sensor ∧ purpose = .sensorState ∧ text = "sensor-" ∨
        value.key.entityKind = .equipment ∧ purpose = .equipmentReported ∧ text = "equipment-") := by
  rcases (validate_admitted hvalid).kindKnown with hkind | hkind
  · exact ⟨.sensorState,"sensor-",by simp [address,htype,hdecoded,hkind],.inl ⟨hkind,rfl,rfl⟩⟩
  · exact ⟨.equipmentReported,"equipment-",by simp [address,htype,hdecoded,hkind],
      .inr ⟨hkind,rfl,rfl⟩⟩

theorem state_resource :
    ∃ purpose resource, address json event =
        some (purpose,resource,.state value,some value.revision) ∧
      (purpose = .sensorState ∨ purpose = .equipmentReported ∨ purpose = .alarmState) ∧
      (topicSegmentPattern resource = true ↔ lowercase value.key.entityID = true) := by
  have hid := key_entityID (validate_key hvalid)
  obtain ⟨purpose,text,haddress,⟨_,rfl,rfl⟩ | ⟨_,rfl,rfl⟩⟩ := state_address htype hdecoded hvalid
  · exact ⟨_,_,haddress,.inl rfl,id_segment_iff (by decide) (by decide) hid⟩
  · exact ⟨_,_,haddress,.inr (.inl rfl),id_segment_iff (by decide) (by decide) hid⟩

end State

def alarmTypes : List EventType := [.alarmRaised,.alarmAcknowledged,.alarmCleared,.alarmEscalated]

theorem alarm_address {alarm : Alarms.Alarm} (htype : event.eventType ∈ alarmTypes)
    (hdecoded : json.alarm event.payload = some alarm) :
    address json event = some (.alarmState,alarm.id,.alarm alarm,none) := by
  simp only [alarmTypes,List.mem_cons,List.not_mem_nil,or_false] at htype
  rcases htype with h | h | h | h <;> simp [address,h,hdecoded]

/-- The exporter has a topic for an accepted value whose entity is spelled in lower case and for an
alarm whose generated ID starts with a letter, and for no other. -/
theorem exported_topic_accepted_iff (e : EventExporter) (json : Json P) (event : Event P) :
    (∀ value, event.eventType = .stateChanged → json.state event.payload = some value →
      value.validate = none →
        (e.Accepts json event ↔ lowercase value.key.entityID = true) ∧
        (e.Delivers json event ↔ lowercase value.key.entityID = true ∧ e.Encodes json event)) ∧
    (∀ alarm random, event.eventType ∈ alarmTypes → json.alarm event.payload = some alarm →
      alarm.id = newUUID random →
        (e.Accepts json event ↔ 0xa0 ≤ random 0) ∧
        (e.Delivers json event ↔ 0xa0 ≤ random 0 ∧ e.Encodes json event)) := by
  constructor
  · intro value htype hdecoded hvalid
    obtain ⟨purpose,resource,haddress,hp,hsegment⟩ := state_resource htype hdecoded hvalid
    rw [accepts_iff haddress hp,delivers_iff haddress hp,hsegment]
    exact ⟨Iff.rfl,Iff.rfl⟩
  · intro alarm random htype hdecoded hid
    have haddress := alarm_address htype hdecoded
    have hp : Purpose.alarmState = .sensorState ∨ Purpose.alarmState = .equipmentReported ∨
        Purpose.alarmState = .alarmState := .inr (.inr rfl)
    rw [accepts_iff haddress hp,delivers_iff haddress hp,hid,newUUID_segment_iff]
    exact ⟨Iff.rfl,Iff.rfl⟩

section Samples

def quoted (text : String) : String := "\""++text++"\""
def member (name value : String) : String := quoted name++":"++value
def object (members : List String) : String := "\x7b"++String.intercalate "," members++"\x7d"
def instantText : String := quoted "0001-01-01T00:00:00.000000001Z"

def stateText (v : StateValue) : String :=
  object [member "key" (object [member "entityKind" (quoted v.key.entityKind.text),
      member "entityId" (quoted v.key.entityID),member "plane" (quoted v.key.plane.text),
      member "attribute" (quoted v.key.attributeName)]),
    member "value" (object [member "kind" (quoted "boolean"),
      member "boolean" (if v.value.boolean = some true then "true" else "false")]),
    member "quality" (quoted "good"),member "observedAt" instantText,
    member "receivedAt" instantText,member "freshFor" (toString v.freshFor),
    member "source" (quoted v.source),member "revision" (toString v.revision)]

def booleanJson : Json Data where
  state
    | .state value => some value
    | _ => none
  alarm
    | .alarm alarm => some alarm
    | _ => none
  marshal
    | .state value => .ok (bytes (stateText value))
    | .alarm _ | .result _ => .error (.external "no text")
    | .status message => .ok (bytes (object [
        member "activeAlarmCount" (toString message.activeAlarmCount),
        member "notificationAlarmCount" (toString message.notificationAlarmCount),
        member "status" (quoted message.status)]))
  marshalEnvelope envelope := .ok (bytes (
    "\x7b"++member "schemaVersion" (quoted envelope.schemaVersion)++","++
    member "messageId" (quoted envelope.messageID)++","++
    member "correlationId" (quoted envelope.correlationID)++","++
    member "source" (quoted envelope.source)++","++member "siteId" (quoted envelope.siteID)++","++
    member "occurredAt" instantText++","++
    (match envelope.revision with
      | some revision => member "revision" (toString revision)++","
      | none => "")++quoted "data"++":")++envelope.data++bytes "\x7d")
  valid _ := true

theorem sampleLimit_bounded : 256 ≤ 65536 ∧ 65536 ≤ 16*1024*1024 := by decide

def homeExporter : EventExporter where
  registry := homeReef
  codec := ⟨"home-reef",65536,1,homeReef.valid,sampleLimit_bounded⟩

def stateEvent (value : StateValue) : Event Data :=
  ⟨1,"state",.stateChanged,.info,.state value,"00000000-0000-4000-8000-000000000009"⟩

theorem samples_encode (value : StateValue)
    (h : (homeExporter.encoded booleanJson (stateEvent value) (.state value)
      (some value.revision)).isOk = true) :
    ∃ payload, homeExporter.encoded booleanJson (stateEvent value) (.state value)
      (some value.revision) = .ok payload := by
  cases hencoded : homeExporter.encoded booleanJson (stateEvent value) (.state value)
      (some value.revision) with
  | ok payload => exact ⟨payload,rfl⟩
  | error err =>
    rw [hencoded] at h
    cases h

theorem home_switch_delivered :
    homeExporter.Delivers booleanJson (stateEvent (reportedSwitch true)) := by
  obtain ⟨payload,hencoded⟩ := samples_encode (reportedSwitch true) (by decide +kernel)
  exact ((exported_topic_accepted_iff homeExporter booleanJson
    (stateEvent (reportedSwitch true))).1 (reportedSwitch true) rfl rfl
    (by decide)).2.mpr ⟨by decide,_,_,_,_,payload,rfl,hencoded⟩

def alarmEvent (id : AlarmID) : Event Data :=
  ⟨1,"alarms",.alarmRaised,.warning,
    .alarm { Alarms.Alarm.zero with id, severity := .warning, status := .active },
    "00000000-0000-4000-8000-000000000009"⟩

def capitalSwitch : StateValue :=
  { reportedSwitch true with
    key := ⟨.equipment,"A0000000-0000-4000-8000-000000000001",.reported,"power"⟩ }

/-- A generated alarm ID that starts with a digit has no topic, and an accepted value whose entity is
spelled with a capital is published on the empty one. -/
theorem digit_and_capital_unaddressed :
    ¬ homeExporter.Accepts booleanJson (alarmEvent (newUUID fun _ => 0)) ∧
      capitalSwitch.validate = none ∧
      ¬ homeExporter.Accepts booleanJson (stateEvent capitalSwitch) ∧
      (homeExporter.handle booleanJson (stateEvent capitalSwitch)).map Publication.topic =
        some "" := by
  refine ⟨?_,by decide,?_,by decide +kernel⟩
  · rw [accepts_iff (alarm_address (by decide) rfl) (.inr (.inr rfl))]
    decide
  · have haddress : address booleanJson (stateEvent capitalSwitch) = some (.equipmentReported,
        "equipment-"++capitalSwitch.key.entityID,.state capitalSwitch,some 0) := rfl
    rw [accepts_iff haddress (.inr (.inl rfl))]
    decide

end Samples

/-- A desired value on the topic of reported state. -/
def ReportsDesired (e : EventExporter) (value : StateValue) (publication : Publication) : Prop :=
  value.key.plane = .desired ∧ ∃ resource policy,
    e.registry.topic .equipmentReported resource = .ok (publication.topic,policy)

/-- The event of an accepted value and what the exporter publishes for it. -/
structure Exports (e : EventExporter) (json : Json P) (event : Event P) (value : StateValue)
    (publication : Publication) : Prop where
  type : event.eventType = .stateChanged
  decoded : json.state event.payload = some value
  valid : value.validate = none
  handled : e.handle json event = some publication

variable {value : StateValue} {publication : Publication}

theorem state_published (h : Exports e json event value publication) :
    (lowercase value.key.entityID = false ∧ publication.topic = "" ∧ publication.retained = false) ∨
    (lowercase value.key.entityID = true ∧ publication.retained = true ∧
      ((value.key.entityKind = .sensor ∧ e.registry.topic .sensorState
          ("sensor-"++value.key.entityID) = .ok (publication.topic,⟨.sensorState,1,true⟩)) ∨
        (value.key.entityKind = .equipment ∧ e.registry.topic .equipmentReported
          ("equipment-"++value.key.entityID) =
            .ok (publication.topic,⟨.equipmentReported,1,true⟩)))) := by
  have hid := key_entityID (validate_key h.valid)
  obtain ⟨purpose,text,haddress,hcases⟩ := state_address h.type h.decoded h.valid
  obtain ⟨payload,_,rfl⟩ := (handle_eq_some haddress).mp h.handled
  have hsegment : topicSegmentPattern (text++value.key.entityID) = true ↔
      lowercase value.key.entityID = true := by
    rcases hcases with ⟨_,_,rfl⟩ | ⟨_,_,rfl⟩
    · exact id_segment_iff (by decide) (by decide) hid
    · exact id_segment_iff (by decide) (by decide) hid
  cases hlower : lowercase value.key.entityID with
  | false =>
    have hbad : topicSegmentPattern (text++value.key.entityID) = false := by
      rw [← Bool.not_eq_true,hsegment,hlower]
      decide
    rw [target_of_rejected hbad]
    exact .inl ⟨rfl,rfl,rfl⟩
  | true =>
    have hgood := hsegment.mpr hlower
    refine .inr ⟨rfl,?_⟩
    rcases hcases with ⟨hkind,rfl,rfl⟩ | ⟨hkind,rfl,rfl⟩
    · obtain ⟨topic,htopic⟩ := topic_accepts e.registry (.inr (.inl rfl)) hgood
      rw [target_of_ok htopic]
      exact ⟨rfl,.inl ⟨hkind,htopic⟩⟩
    · obtain ⟨topic,htopic⟩ := topic_accepts e.registry (.inr (.inr (.inl rfl))) hgood
      rw [target_of_ok htopic]
      exact ⟨rfl,.inr ⟨hkind,htopic⟩⟩

theorem topic_inj {r : Registry} {purpose purpose' : Purpose} {resource resource' t t' : String}
    {p p' : Policy} (hp : purpose = .sensorState ∨ purpose = .equipmentReported)
    (hp' : purpose' = .sensorState ∨ purpose' = .equipmentReported)
    (h : r.topic purpose resource = .ok (t,p)) (h' : r.topic purpose' resource' = .ok (t',p')) :
    t = t' ↔ purpose = purpose' ∧ resource = resource' := by
  constructor
  · rintro rfl
    have hid := (Constructor.topic_built h).identity_eq (Constructor.topic_built h')
    rcases hp with rfl | rfl <;> rcases hp' with rfl | rfl
    · exact ⟨rfl,by simpa [Constructor.identity] using hid⟩
    · simp [Constructor.identity] at hid
    · simp [Constructor.identity] at hid
    · exact ⟨rfl,by simpa [Constructor.identity] using hid⟩
  · rintro ⟨rfl,rfl⟩
    rw [h] at h'
    exact congrArg Prod.fst (Except.ok.inj h')

theorem reportsDesired_iff (h : Exports e json event value publication) :
    e.ReportsDesired value publication ↔
      lowercase value.key.entityID = true ∧ value.key.plane = .desired := by
  rcases state_published h with ⟨hlower,hempty,_⟩ | ⟨hlower,_,⟨hkind,_⟩ | ⟨_,htopic⟩⟩
  · constructor
    · rintro ⟨_,resource,policy,htopic⟩
      exact absurd hempty (built_nonempty (Constructor.topic_built htopic))
    · rintro ⟨hcontra,_⟩
      simp [hlower] at hcontra
  · have hplane : value.key.plane ≠ .desired := by
      intro hdesired
      rw [key_desired (validate_key h.valid) hdesired] at hkind
      cases hkind
    exact ⟨fun h => absurd h.1 hplane,fun h => absurd h.2 hplane⟩
  · exact ⟨fun h => ⟨hlower,h.1⟩,fun h => ⟨h.2,_,_,htopic⟩⟩

/-- Topics of values in lower case tell the entities apart and nothing else. -/
theorem state_topics_iff {value' : StateValue} {publication' : Publication} {event' : Event P}
    (h : Exports e json event value publication) (h' : Exports e json event' value' publication')
    (hlower : lowercase value.key.entityID = true)
    (hlower' : lowercase value'.key.entityID = true) : publication.topic = publication'.topic ↔
      value.key.entityKind = value'.key.entityKind ∧
        value.key.entityID = value'.key.entityID := by
  have hpublished := state_published h
  have hpublished' := state_published h'
  simp only [hlower,hlower',Bool.true_eq_false,false_and,true_and,false_or] at hpublished hpublished'
  obtain ⟨_,⟨hkind,htopic⟩ | ⟨hkind,htopic⟩⟩ := hpublished <;>
    obtain ⟨_,⟨hkind',htopic'⟩ | ⟨hkind',htopic'⟩⟩ := hpublished'
  · rw [topic_inj (.inl rfl) (.inl rfl) htopic htopic',hkind,hkind']
    exact ⟨fun h => ⟨rfl,(String.append_right_inj _).mp h.2⟩,fun h => ⟨rfl,by rw [h.2]⟩⟩
  · rw [topic_inj (.inl rfl) (.inr rfl) htopic htopic',hkind,hkind']
    simp
  · rw [topic_inj (.inr rfl) (.inl rfl) htopic htopic',hkind,hkind']
    simp
  · rw [topic_inj (.inr rfl) (.inr rfl) htopic htopic',hkind,hkind']
    exact ⟨fun h => ⟨rfl,(String.append_right_inj _).mp h.2⟩,fun h => ⟨rfl,by rw [h.2]⟩⟩

theorem retained_iff_lowercase (h : Exports e json event value publication) :
    publication.retained = true ↔ lowercase value.key.entityID = true := by
  rcases state_published h with ⟨hlower,_,hr⟩ | ⟨hlower,hr,_⟩
  · simp [hlower,hr]
  · simp [hlower,hr]

def secondSwitch : StateValue :=
  { reportedSwitch true with
    key := ⟨.equipment,"00000000-0000-4000-8000-000000000003",.reported,"power"⟩ }

def desiredSwitch : StateValue :=
  { reportedSwitch false with
    key := ⟨.equipment,"00000000-0000-4000-8000-000000000001",.desired,"switch"⟩ }

end EventExporter

end Mqtt
end AquaOS
