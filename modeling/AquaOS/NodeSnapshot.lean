import AquaOS.ConfigValidation
import AquaOS.Coordinator
import AquaOS.StateStore
import AquaOS.Transition

/-! Snapshots of an ESP32 node: what the adapter accepts, the measurements it makes of them, and the
values the coordinator stores. The adapter remembers the last boot ID and sequence number of an
endpoint and no earlier ones. -/
namespace AquaOS

namespace Domain

def exponent (x : ℚ) : ℤ :=
  let e : ℤ := Nat.log2 x.num.natAbs-Nat.log2 x.den
  if (2 : ℚ)^e ≤ |x| then e else e-1

def roundEven (x : ℚ) : ℤ :=
  let rest := x-⌊x⌋
  if rest < 1/2 ∨ rest = 1/2 ∧ ⌊x⌋ % 2 = 0 then ⌊x⌋ else ⌊x⌋+1

/-- The float nearest to a number: 53 significant bits, fewer below `2^(-1022)`, and an infinity
beyond the largest. -/
def Float64.nearest (x : ℚ) : Float64 :=
  if x = 0 then .finite 0
  else
    let quantum : ℚ := 2^(max (exponent x-52) (-1074))
    let y := roundEven (x/quantum)*quantum
    if 2^1024 ≤ |y| then .infinite (x < 0) else .finite y

def Float64.sub : Float64 → Float64 → Float64
  | .nan, _ | _, .nan => .nan
  | .infinite negative, .infinite negative' =>
    if negative = negative' then .nan else .infinite negative
  | .infinite negative, .finite _ => .infinite negative
  | .finite _, .infinite negative => .infinite !negative
  | .finite x, .finite y => .nearest (x-y)

def Float64.abs : Float64 → Float64
  | .nan => .nan
  | .infinite _ => .infinite false
  | .finite x => .finite |x|

open CanonicalState (StateQuality)

structure Measurement where
  sensorID : SensorID
  value : Quantity
  quality : StateQuality
  observedAt : ℤ
  receivedAt : ℤ
  freshFor : ℤ
  deriving DecidableEq

def Measurement.validate (m : Measurement) : Option Failure :=
  match validateID m.sensorID, m.value.validate, m.quality with
  | some err, _, _ => some (.wrapped "sensor ID" err)
  | none, some err, _ => some (.wrapped "value" err)
  | none, none, .other text => some (.quoted "unsupported quality" text)
  | none, none, .known _ =>
    if m.observedAt = 0 ∨ m.receivedAt = 0 then
      some (.message "observedAt and receivedAt are required")
    else if m.receivedAt < m.observedAt then
      some (.message "observedAt must not be after receivedAt")
    else if m.freshFor ≤ 0 then some (.message "freshFor must be positive")
    else none

end Domain

namespace ESP32

open Domain Transition

structure ProbeDTO where
  sensorID : String
  celsius : Option Float64
  valid : Bool
  deriving DecidableEq

structure SnapshotDTO where
  schemaVersion : String := "1.0"
  nodeID : String
  bootID : String
  sequence : ℕ
  observedAt : ℤ
  probes : List ProbeDTO
  deriving DecidableEq

/-- `snapshotURL` up to the address it builds; `parse` is `url.Parse`. -/
def validateBaseURL (parse : String → Option Shelly.URL) (baseURL : String) : Option Failure :=
  let malformed := Failure.message
    "esp32 base URL must be an http or https URL with a host and no credentials"
  match parse baseURL with
  | none => some malformed
  | some u =>
    if (u.scheme ≠ "http" ∧ u.scheme ≠ "https") ∨ u.host = "" ∨ u.user then some malformed
    else if u.rawQuery ≠ "" ∨ u.fragment ≠ "" then
      some (.message "esp32 base URL must not contain a query or fragment")
    else none

/-- The checks `validateEndpoint` makes of numbers, which come last. -/
def Endpoint.validateBounds (e : Endpoint) : Option Failure :=
  if e.pollInterval ≤ 0 ∨ e.requestTimeout ≤ 0 ∨ e.pollInterval < e.requestTimeout then
    some (.message "esp32 request timeout must be positive and no greater than poll interval")
  else if e.freshFor < e.pollInterval ∨ e.maximumClockSkew < 0 ∨
      Configuration.minute < e.maximumClockSkew then
    some (.message "esp32 freshness or clock-skew configuration is invalid")
  else if Float64.ge 0 e.maximumDifference ∨ Float64.lt 10 e.maximumDifference then
    some (.message
      "esp32 maximum probe difference must be greater than zero and at most 10 celsius")
  else none

def validateEndpoint (parse : String → Option Shelly.URL) (e : Endpoint) : Option Failure :=
  match validateID e.id, validateID e.deviceID with
  | some err, _ => some (.wrapped "esp32 endpoint ID" err)
  | none, some err => some (.wrapped "esp32 device ID" err)
  | none, none =>
    if e.probeIDs.1 = e.probeIDs.2 then
      some (.message "esp32 probes must have independent sensor IDs")
    else
      match validateID e.probeIDs.1, validateID e.probeIDs.2 with
      | some err, _ | none, some err => some (.wrapped "esp32 probe ID" err)
      | none, none =>
        match validateBaseURL parse e.baseURL with
        | some err => some err
        | none => e.validateBounds

structure SequenceState where
  bootID : String := ""
  sequence : ℕ := 0
  deriving DecidableEq

structure Adapter where
  sequences : Table EndpointID SequenceState := ∅

abbrev Refusal := String × Failure

/-- The checks made before the probes are looked at. -/
def validateHeader (e : Endpoint) (x : SnapshotDTO) (now : ℤ) : Option Refusal :=
  if x.schemaVersion ≠ "1.0" then
    some ("esp32.schema_unsupported",.message "unsupported ESP32 snapshot schema")
  else if x.nodeID ≠ e.deviceID ∨ x.bootID = "" ∨ 128 < (bytes x.bootID).length ∨
      x.sequence = 0 then
    some ("esp32.identity_invalid",
      .message "invalid ESP32 node identity, boot ID, or sequence")
  else if x.observedAt = 0 ∨ now+e.maximumClockSkew < x.observedAt then
    some ("esp32.timestamp_invalid",.message "invalid ESP32 observation timestamp")
  else if x.probes.length ≠ 2 then
    some ("esp32.probe_count_invalid",
      .message "esp32 snapshot must contain exactly two probes")
  else none

/-- The loop that fills the map of probes. -/
def probesByID (t : Table SensorID ProbeDTO) :
    List ProbeDTO → Except Refusal (Table SensorID ProbeDTO)
  | [] => .ok t
  | p::ps =>
    if validateID p.sensorID ≠ none then
      .error ("esp32.probe_identity_invalid",.message "esp32 probe identity is invalid")
    else if p.sensorID ∈ t then
      .error ("esp32.probe_identity_invalid",.message "esp32 probe identity is duplicated")
    else probesByID (t.insert p.sensorID p) ps

/-- The temperature of a probe that is there, valid and finite. -/
def temperature (t : Table SensorID ProbeDTO) (id : SensorID) : Option Float64 :=
  match t.lookup id with
  | none => none
  | some p =>
    match p.celsius with
    | none => none
    | some value => if p.valid ∧ value.isFinite then some value else none

structure Verdict where
  quality : Quality := .good
  condition : String := ""

/-- A turn of the loop that reads the probes. -/
def Verdict.read (v : Verdict) (value : Option Float64) : Verdict :=
  if value = none then { v with condition := "esp32.probe_invalid" } else v

def Verdict.compare (v : Verdict) (differ : Float64 → Float64 → Bool) :
    Option Float64 → Option Float64 → Verdict
  | some x, some y => if differ x y then ⟨.suspect,"esp32.probe_disagreement"⟩ else v
  | _, _ => v

def Verdict.age (v : Verdict) (expired : Prop) [Decidable expired] : Verdict :=
  if expired then ⟨.stale,"esp32.snapshot_stale"⟩ else v

/-- The checks of `validateSnapshot` between the map of probes and the measurements. -/
def Endpoint.verdict (differ : Float64 → Float64 → Bool) (e : Endpoint) (x : SnapshotDTO) (now : ℤ)
    (first second : Option Float64) : Verdict :=
  ((({} : Verdict).read first |>.read second).compare differ first second).age
    (¬ now < x.observedAt+e.freshFor)

/-- One turn of the loop that makes the measurements. -/
def Endpoint.measurement (e : Endpoint) (x : SnapshotDTO) (now : ℤ) (quality : Quality)
    (id : SensorID) (value : Option Float64) : Except Refusal Measurement :=
  match newQuantity .temperature (value.getD 0) .celsius with
  | .error err => .error ("esp32.temperature_invalid",err)
  | .ok quantity =>
    .ok { sensorID := id, value := quantity
          quality := .known (if value = none then .invalid else quality)
          observedAt := x.observedAt, receivedAt := now, freshFor := e.freshFor }

/-- `validateSnapshot` up to its lock section, for any comparison of temperatures. -/
def Endpoint.measured (differ : Float64 → Float64 → Bool) (e : Endpoint) (x : SnapshotDTO)
    (now : ℤ) : Except Refusal (List Measurement × String) :=
  match validateHeader e x now with
  | some refusal => .error refusal
  | none =>
    match probesByID ∅ x.probes with
    | .error refusal => .error refusal
    | .ok t =>
      let first := temperature t e.probeIDs.1
      let second := temperature t e.probeIDs.2
      let v := e.verdict differ x now first second
      match e.measurement x now v.quality e.probeIDs.1 first,
        e.measurement x now v.quality e.probeIDs.2 second with
      | .error refusal, _ | .ok _, .error refusal => .error refusal
      | .ok m, .ok m' => .ok ([m,m'],v.condition)

/-- The comparison of temperatures the code makes. -/
def Endpoint.differ (e : Endpoint) (x y : Float64) : Bool := e.maximumDifference.lt (x.sub y).abs

def Endpoint.measurements (e : Endpoint) (x : SnapshotDTO) (now : ℤ) :
    Except Refusal (List Measurement × String) :=
  e.measured e.differ x now

namespace Adapter

def previous (a : Adapter) (id : EndpointID) : SequenceState := (a.sequences.lookup id).getD {}

/-- The lock section of `validateSnapshot`. -/
def accept (a : Adapter) (e : Endpoint) (x : SnapshotDTO) :
    Except Refusal (List Measurement × String) →
      Except Refusal (List Measurement × String) × Adapter
  | .error refusal => (.error refusal,a)
  | .ok result =>
    if (a.previous e.id).bootID = x.bootID ∧ x.sequence ≤ (a.previous e.id).sequence then
      (.error ("esp32.sequence_stale",.message "duplicate or out-of-order ESP32 snapshot"),a)
    else (.ok result,{ a with sequences := a.sequences.insert e.id ⟨x.bootID,x.sequence⟩ })

def validateSnapshot (a : Adapter) (e : Endpoint) (x : SnapshotDTO) (now : ℤ) :
    Except Refusal (List Measurement × String) × Adapter :=
  a.accept e x (e.measurements x now)

end Adapter

end ESP32

namespace Bench

open Domain CanonicalState

/-- The value `ReportESP32` stores. -/
def reportValue (endpointID : EndpointID) (m : Measurement) : StateValue :=
  { key := ⟨.sensor,m.sensorID,.observation,"measurement"⟩
    value := { kind := .quantity, quantity := some m.value }, quality := m.quality
    observedAt := m.observedAt, receivedAt := m.receivedAt, freshFor := m.freshFor
    source := endpointID }

/-- `ReportESP32`, with the caller's context and what the publisher of the store answers. -/
def Coordinator.reportESP32 (c : Coordinator) (s : StateManager) (ctx published : Option Failure)
    (endpointID : EndpointID) (m : Measurement) : Option Failure × StateManager :=
  if endpointID ∉ c.esp32 then (some (.message "unknown ESP32 report endpoint"),s)
  else
    match s.set ctx published (reportValue endpointID m) with
    | (.error err,s) => (some err,s)
    | (.ok _,s) => (none,s)

end Bench

namespace ESP32

open Domain CanonicalState Transition

section Boundary

variable {e : Endpoint} {x : SnapshotDTO} {now : ℤ} {quality : Quality} {id : SensorID}
  {value : Option Float64} {m : Measurement}

/-- What the measurements of an accepted endpoint rest on. -/
theorem validateEndpoint_ok {parse : String → Option Shelly.URL}
    (h : validateEndpoint parse e = none) :
    validateID e.id = none ∧ validateID e.probeIDs.1 = none ∧ validateID e.probeIDs.2 = none ∧
      0 < e.freshFor := by
  unfold validateEndpoint at h
  cases hid : validateID e.id with
  | some err => simp [hid] at h
  | none =>
    cases hdevice : validateID e.deviceID with
    | some err => simp [hid,hdevice] at h
    | none =>
      simp only [hid,hdevice] at h
      split_ifs at h with hsame
      cases hfirst : validateID e.probeIDs.1 with
      | some err => simp [hfirst] at h
      | none =>
        cases hsecond : validateID e.probeIDs.2 with
        | some err => simp [hfirst,hsecond] at h
        | none =>
          simp only [hfirst,hsecond] at h
          cases hurl : validateBaseURL parse e.baseURL with
          | some err => simp [hurl] at h
          | none =>
            simp only [hurl,Endpoint.validateBounds] at h
            split_ifs at h with htimeout hfresh hdifference
            exact ⟨rfl,rfl,rfl,by omega⟩

theorem newQuantity_ok {kind : QuantityKind} {v : Float64} {unit : QuantityUnit} {q : Quantity}
    (h : newQuantity kind v unit = .ok q) : q.validate = none := by
  unfold newQuantity at h
  cases hv : Quantity.validate ⟨kind,v,unit⟩ with
  | some err => simp [hv] at h
  | none =>
    simp only [hv,Except.ok.injEq] at h
    exact h ▸ hv

/-- A measurement made of a snapshot has the times of the snapshot and of the clock. -/
theorem measurement_ok (h : e.measurement x now quality id value = .ok m) :
    m.sensorID = id ∧ m.value.validate = none ∧
      m.quality = .known (if value = none then .invalid else quality) ∧
      m.observedAt = x.observedAt ∧ m.receivedAt = now ∧ m.freshFor = e.freshFor := by
  unfold Endpoint.measurement at h
  cases hq : newQuantity .temperature (value.getD 0) .celsius with
  | error err => simp [hq] at h
  | ok quantity =>
    simp only [hq,Except.ok.injEq] at h
    subst h
    exact ⟨rfl,newQuantity_ok hq,rfl,rfl,rfl,rfl⟩

theorem header_ok (h : validateHeader e x now = none) :
    x.schemaVersion = "1.0" ∧ x.nodeID = e.deviceID ∧ x.bootID ≠ "" ∧ 0 < x.sequence ∧
      x.observedAt ≠ 0 ∧ x.observedAt ≤ now+e.maximumClockSkew := by
  unfold validateHeader at h
  split_ifs at h with hschema hidentity htime hcount
  push Not at hschema hidentity htime
  exact ⟨hschema,hidentity.1,hidentity.2.1,Nat.pos_of_ne_zero hidentity.2.2.2,htime⟩

theorem measured_ok {differ : Float64 → Float64 → Bool} {ms : List Measurement} {condition : String}
    (h : e.measured differ x now = .ok (ms,condition)) :
    validateHeader e x now = none ∧ ∃ t m m', probesByID ∅ x.probes = .ok t ∧ ms = [m,m'] ∧
      condition = (e.verdict differ x now (temperature t e.probeIDs.1)
        (temperature t e.probeIDs.2)).condition ∧
      e.measurement x now (e.verdict differ x now (temperature t e.probeIDs.1)
        (temperature t e.probeIDs.2)).quality e.probeIDs.1 (temperature t e.probeIDs.1) = .ok m ∧
      e.measurement x now (e.verdict differ x now (temperature t e.probeIDs.1)
        (temperature t e.probeIDs.2)).quality e.probeIDs.2 (temperature t e.probeIDs.2) =
          .ok m' := by
  unfold Endpoint.measured at h
  cases hheader : validateHeader e x now with
  | some refusal => simp [hheader] at h
  | none =>
    cases hprobes : probesByID ∅ x.probes with
    | error refusal => simp [hheader,hprobes] at h
    | ok t =>
      simp only [hheader,hprobes] at h
      split at h
      · cases h
      · cases h
      · next m m' hm hm' =>
        cases h
        exact ⟨rfl,t,m,m',rfl,rfl,rfl,hm,hm'⟩

theorem accept_ok {a : Adapter} {result : Except Refusal (List Measurement × String)}
    {accepted : List Measurement × String} (h : (a.accept e x result).1 = .ok accepted) :
    result = .ok accepted := by
  cases result with
  | error refusal => cases h
  | ok result =>
    unfold Adapter.accept at h
    split_ifs at h
    exact h

/-- The two boundaries an observation has to pass on its way into the canonical state. -/
structure Admitted (endpointID : EndpointID) (m : Measurement) : Prop where
  measurement : m.validate = none
  value : (Bench.reportValue endpointID m).validate = none
  reported : ∀ (c : Bench.Coordinator) (s : StateManager), endpointID ∈ c.esp32 →
    (c.reportESP32 s none none endpointID m).1 = none

theorem reportValue_validate (hsource : validateID e.id = none) (hid : validateID m.sensorID = none)
    (hvalue : m.value.validate = none) {q : Quality} (hq : m.quality = .known q) :
    (Bench.reportValue e.id m).validate = none ↔
      m.observedAt ≠ 0 ∧ m.receivedAt ≠ 0 ∧ m.observedAt ≤ m.receivedAt ∧ 0 < m.freshFor := by
  have hkey : (Bench.reportValue e.id m).key.validate = none := by
    simp [Bench.reportValue,Key.validate,hid]
  have hcanonical : (Bench.reportValue e.id m).value.validate = none := by
    simpa [Bench.reportValue,CanonicalValue.validate] using hvalue
  unfold StateValue.validate
  simp only [hkey,hcanonical]
  simp only [Bench.reportValue,hq,hsource]
  split_ifs with htimes hfresh
  · simp only [false_iff]
    omega
  · simp only [false_iff]
    omega
  · simp only [true_iff]
    omega

theorem measurement_validate (hid : validateID m.sensorID = none) (hvalue : m.value.validate = none)
    {q : Quality} (hq : m.quality = .known q) :
    m.validate = none ↔
      m.observedAt ≠ 0 ∧ m.receivedAt ≠ 0 ∧ m.observedAt ≤ m.receivedAt ∧ 0 < m.freshFor := by
  unfold Measurement.validate
  simp only [hid,hvalue,hq]
  split_ifs with htimes horder hfresh
  · simp only [false_iff]
    omega
  · simp only [false_iff]
    omega
  · simp only [false_iff]
    omega
  · simp only [true_iff]
    omega

theorem reportESP32_ok {c : Bench.Coordinator} {s : StateManager} {endpointID : EndpointID}
    (hc : endpointID ∈ c.esp32) (h : (Bench.reportValue endpointID m).validate = none) :
    (c.reportESP32 s none none endpointID m).1 = none := by
  simp [Bench.Coordinator.reportESP32,hc,StateManager.set,h]

/-- A measurement passes both boundaries exactly if it was observed no later than it was
received. -/
theorem admitted_iff (hsource : validateID e.id = none) (hid : validateID id = none)
    (hfresh : 0 < e.freshFor) (hx : x.observedAt ≠ 0)
    (h : e.measurement x now quality id value = .ok m) :
    Admitted e.id m ↔ x.observedAt ≤ now ∧ now ≠ 0 := by
  obtain ⟨rfl,hvalue,hquality,hobserved,hreceived,hfor⟩ := measurement_ok h
  constructor
  · intro hm
    obtain ⟨_,hnow,hle,_⟩ := (measurement_validate hid hvalue hquality).mp hm.measurement
    rw [hobserved,hreceived] at hle
    exact ⟨hle,hreceived ▸ hnow⟩
  · rintro ⟨hle,hnow⟩
    have htimes : m.observedAt ≠ 0 ∧ m.receivedAt ≠ 0 ∧ m.observedAt ≤ m.receivedAt ∧
        0 < m.freshFor := by
      rw [hobserved,hreceived,hfor]
      exact ⟨hx,hnow,hle,hfresh⟩
    have hreport := (reportValue_validate hsource hid hvalue hquality).mpr htimes
    exact ⟨(measurement_validate hid hvalue hquality).mpr htimes,hreport,
      fun c s hc => reportESP32_ok hc hreport⟩

/-- The measurements of an accepted snapshot reach the canonical state exactly if the snapshot was
observed no later than the clock reads, whatever skew the endpoint allows. -/
theorem accepted_snapshot_admitted_iff (parse : String → Option Shelly.URL) (a : Adapter)
    (e : Endpoint) (x : SnapshotDTO) (now : ℤ) (ms : List Measurement) (condition : String)
    (he : validateEndpoint parse e = none)
    (h : (a.validateSnapshot e x now).1 = .ok (ms,condition)) :
    (∀ m ∈ ms, Admitted e.id m) ↔ x.observedAt ≤ now ∧ now ≠ 0 := by
  obtain ⟨hsource,hfirst,hsecond,hfresh⟩ := validateEndpoint_ok he
  obtain ⟨hheader,t,m,m',-,rfl,-,hm,hm'⟩ := measured_ok (accept_ok h)
  obtain ⟨_,_,_,_,hx,_⟩ := header_ok hheader
  rw [List.forall_mem_cons,List.forall_mem_singleton,
    admitted_iff hsource hfirst hfresh hx hm,admitted_iff hsource hsecond hfresh hx hm',and_self]

end Boundary

section Sequences

/-- A snapshot as it is presented: to which endpoint, and when. -/
structure Presented where
  endpoint : Endpoint
  snapshot : SnapshotDTO
  now : ℤ

structure Acceptance where
  id : EndpointID
  bootID : String
  sequence : ℕ
  deriving DecidableEq

structure Session where
  adapter : Adapter := {}
  accepted : List Acceptance := []

def Session.step (s : Session) (p : Presented) : Session :=
  match s.adapter.validateSnapshot p.endpoint p.snapshot p.now with
  | (.error _,a) => ⟨a,s.accepted⟩
  | (.ok _,a) => ⟨a,⟨p.endpoint.id,p.snapshot.bootID,p.snapshot.sequence⟩::s.accepted⟩

/-- Within one boot ID of the endpoint the sequence numbers increase. -/
def Increasing (id : EndpointID) (accepted : List Acceptance) : Prop :=
  accepted.Pairwise fun later earlier => later.id = id → earlier.id = id →
    later.bootID = earlier.bootID → earlier.sequence < later.sequence

/-- No pair of boot ID and sequence number is accepted twice. -/
def Once (id : EndpointID) (accepted : List Acceptance) : Prop :=
  (accepted.filter fun x => x.id = id).Nodup

/-- A snapshot that passes every other check and is not of the boot ID accepted last has a higher
sequence number than all accepted ones of its boot ID. -/
def Session.Renewed (id : EndpointID) (s : Session) (p : Presented) : Prop :=
  p.endpoint.id = id → (∃ result, p.endpoint.measurements p.snapshot p.now = .ok result) →
    (s.adapter.previous id).bootID ≠ p.snapshot.bootID →
      ∀ x ∈ s.accepted, x.id = id → x.bootID = p.snapshot.bootID →
        x.sequence < p.snapshot.sequence

/-- What is remembered of an endpoint is its last accepted snapshot. -/
def Session.Linked (s : Session) : Prop :=
  ∀ id, s.adapter.previous id =
    match s.accepted.find? fun x => x.id = id with
    | none => {}
    | some x => ⟨x.bootID,x.sequence⟩

variable {s : Session} {p : Presented} {id : EndpointID}

theorem step_cases (s : Session) (p : Presented) :
    (s.step p = s ∧ ((∀ result, p.endpoint.measurements p.snapshot p.now ≠ .ok result) ∨
      (s.adapter.previous p.endpoint.id).bootID = p.snapshot.bootID ∧
        p.snapshot.sequence ≤ (s.adapter.previous p.endpoint.id).sequence)) ∨
    ((∃ result, p.endpoint.measurements p.snapshot p.now = .ok result) ∧
      ((s.adapter.previous p.endpoint.id).bootID = p.snapshot.bootID →
        (s.adapter.previous p.endpoint.id).sequence < p.snapshot.sequence) ∧
      s.step p = ⟨⟨s.adapter.sequences.insert p.endpoint.id
          ⟨p.snapshot.bootID,p.snapshot.sequence⟩⟩,
        ⟨p.endpoint.id,p.snapshot.bootID,p.snapshot.sequence⟩::s.accepted⟩) := by
  unfold Session.step Adapter.validateSnapshot Adapter.accept
  cases hm : p.endpoint.measurements p.snapshot p.now with
  | error refusal => exact .inl ⟨rfl,.inl fun _ h => by cases h⟩
  | ok result =>
    dsimp only
    split_ifs with hstale
    · exact .inl ⟨rfl,.inr hstale⟩
    · refine .inr ⟨⟨result,rfl⟩,fun hboot => ?_,rfl⟩
      exact lt_of_not_ge fun hle => hstale ⟨hboot,hle⟩

theorem previous_insert (a : Adapter) (id id' : EndpointID) (x : SequenceState) :
    Adapter.previous ⟨a.sequences.insert id' x⟩ id = if id = id' then x else a.previous id := by
  unfold Adapter.previous
  rw [Table.lookup_insert_ite]
  split_ifs <;> rfl

theorem step_linked (h : s.Linked) (p : Presented) : (s.step p).Linked := by
  rcases step_cases s p with ⟨hs,_⟩ | ⟨_,_,hs⟩
  · rwa [hs]
  · rw [hs]
    intro id
    rw [previous_insert,List.find?_cons]
    by_cases hid : p.endpoint.id = id
    · simp [hid]
    · simp only [hid,decide_false,Ne.symm hid,if_false]
      exact h id

/-- What is remembered is the highest sequence number of its boot ID, as long as they increase. -/
theorem le_previous (h : s.Linked) (hinc : Increasing id s.accepted) {x : Acceptance}
    (hx : x ∈ s.accepted) (hid : x.id = id)
    (hboot : x.bootID = (s.adapter.previous id).bootID) :
    x.sequence ≤ (s.adapter.previous id).sequence := by
  rw [h id] at hboot ⊢
  cases hfind : s.accepted.find? fun x => x.id = id with
  | none => exact absurd hid (by simpa using List.find?_eq_none.mp hfind x hx)
  | some y =>
    rw [hfind] at hboot
    obtain ⟨hy,earlier,later,haccepted,hnone⟩ := List.find?_eq_some_iff_append.mp hfind
    have hyid : y.id = id := by simpa using hy
    rw [haccepted] at hx
    rcases List.mem_append.mp hx with hmem | hmem
    · exact absurd hid (by simpa using hnone x hmem)
    · rcases List.mem_cons.mp hmem with rfl | hmem
      · exact le_rfl
      · rw [haccepted] at hinc
        have hpair := (List.pairwise_append.mp hinc).2.1
        exact (List.rel_of_pairwise_cons hpair hmem hyid hid hboot.symm).le

/-- One presentation keeps the order exactly if it meets the condition. -/
theorem step_increasing_iff (id : EndpointID) (h : s.Linked) (p : Presented) :
    Increasing id (s.step p).accepted ↔ Increasing id s.accepted ∧ s.Renewed id p := by
  rcases step_cases s p with ⟨hs,hrefused⟩ | ⟨hpasses,horder,hs⟩
  · rw [hs]
    refine ⟨fun hinc => ⟨hinc,?_⟩,fun hinc => hinc.1⟩
    rintro rfl ⟨result,hresult⟩ hboot
    rcases hrefused with hnone | ⟨hsame,_⟩
    · exact absurd hresult (hnone result)
    · exact absurd hsame hboot
  · rw [hs]
    unfold Increasing
    rw [List.pairwise_cons,and_comm]
    refine and_congr_right fun hinc => ⟨fun hnew hid _ _ x hx hxid hboot => ?_,?_⟩
    · exact hnew x hx hid hxid hboot.symm
    · intro hrenewed x hx hid hxid hboot
      by_cases hsame : (s.adapter.previous id).bootID = p.snapshot.bootID
      · subst hid
        have hle := le_previous h hinc hx hxid (hboot.symm.trans hsame.symm)
        exact lt_of_le_of_lt hle (horder hsame)
      · exact hrenewed hid hpasses hsame x hx hxid hboot.symm

theorem once_of_increasing {accepted : List Acceptance} (h : Increasing id accepted) :
    Once id accepted := by
  refine List.Pairwise.imp_of_mem ?_ (h.filter _)
  rintro later earlier hlater hearlier hlt rfl
  have hid : later.id = id := by simpa using (List.mem_filter.mp hlater).2
  exact lt_irrefl _ (hlt hid hid rfl)

theorem refused_unchanged {a a' : Adapter} {e : Endpoint} {x : SnapshotDTO} {now : ℤ}
    {refusal : Refusal} (h : a.validateSnapshot e x now = (.error refusal,a')) : a' = a := by
  unfold Adapter.validateSnapshot Adapter.accept at h
  cases hm : e.measurements x now with
  | error refusal' =>
    simp only [hm,Prod.mk.injEq] at h
    exact h.2.symm
  | ok result =>
    simp only [hm] at h
    split_ifs at h with hstale
    · exact (Prod.mk.inj h).2.symm
    · cases (Prod.mk.inj h).1

/-- The adapter accepts increasing sequence numbers within a boot ID, and none twice, in exactly the
histories in which a boot ID left for another comes back only with higher ones; and a refused
snapshot changes nothing in any history. -/
theorem sequences_increase_iff (id : EndpointID) (history : List Presented) :
    let s := run Session.step {} history
    (Increasing id s.accepted ∧ Once id s.accepted ↔
      Guarded Session.step (Session.Renewed id) {} history) ∧
    ∀ e x now refusal a, s.adapter.validateSnapshot e x now = (.error refusal,a) →
      a = s.adapter := by
  intro s
  refine ⟨?_,fun e x now refusal a h => refused_unchanged h⟩
  have hlinked : Session.Linked {} := fun _ => rfl
  have hiff := run_iff_guarded (P := fun s : Session => Increasing id s.accepted)
    (fun s p h => step_linked h p) (fun s p h => step_increasing_iff id h p) hlinked history
  constructor
  · rintro ⟨hinc,_⟩
    exact (hiff.mp hinc).2
  · intro hguarded
    have hinc := hiff.mpr ⟨List.Pairwise.nil,hguarded⟩
    exact ⟨hinc,once_of_increasing hinc⟩

end Sequences

section Samples

def tankNode : Endpoint where
  id := "11111111-1111-4111-8111-111111111111"
  deviceID := "22222222-2222-4222-8222-222222222222"
  baseURL := "http://node"
  bearerToken := ""
  probeIDs := ("33333333-3333-4333-8333-333333333333","44444444-4444-4444-8444-444444444444")
  pollInterval := 2*Configuration.second
  requestTimeout := Configuration.second
  freshFor := 10*Configuration.second
  maximumClockSkew := 5*Configuration.second
  maximumDifference := 1

def nodeURL (text : String) : Option Shelly.URL :=
  if text = "http://node" then some ⟨"http","node",false,"",""⟩ else none

def tankProbe (id : SensorID) : ProbeDTO := ⟨id,some 25,true⟩

def tankSnapshot (bootID : String) (sequence : ℕ) (observedAt : ℤ) : SnapshotDTO where
  nodeID := tankNode.deviceID
  bootID := bootID
  sequence := sequence
  observedAt := observedAt
  probes := [tankProbe tankNode.probeIDs.1,tankProbe tankNode.probeIDs.2]

def tankMeasurement (id : SensorID) (observedAt now : ℤ) : Measurement where
  sensorID := id
  value := ⟨.temperature,25,.celsius⟩
  quality := .known .good
  observedAt := observedAt
  receivedAt := now
  freshFor := tankNode.freshFor

theorem recent_snapshot_admitted :
    Admitted tankNode.id (tankMeasurement tankNode.probeIDs.1 (99*Configuration.second)
        (100*Configuration.second)) ∧
      Admitted tankNode.id (tankMeasurement tankNode.probeIDs.2 (99*Configuration.second)
        (100*Configuration.second)) := by
  have hadmitted := (accepted_snapshot_admitted_iff nodeURL {} tankNode
    (tankSnapshot "boot-a" 1 (99*Configuration.second)) (100*Configuration.second)
    [tankMeasurement tankNode.probeIDs.1 (99*Configuration.second) (100*Configuration.second),
      tankMeasurement tankNode.probeIDs.2 (99*Configuration.second) (100*Configuration.second)] ""
    (by decide) (by decide +kernel)).mpr (by decide)
  exact ⟨hadmitted _ (by simp),hadmitted _ (by simp)⟩

/-- The clock of the node is a second ahead, which the endpoint allows: the snapshot is accepted and
both measurements are refused. -/
theorem skewed_snapshot_dropped :
    let now := 100*Configuration.second
    let m := tankMeasurement tankNode.probeIDs.1 (101*Configuration.second) now
    validateEndpoint nodeURL tankNode = none ∧
      (Adapter.validateSnapshot {} tankNode (tankSnapshot "boot-a" 1 (101*Configuration.second))
        now).1 = .ok ([m,tankMeasurement tankNode.probeIDs.2 (101*Configuration.second) now],"") ∧
      m.validate = some (.message "observedAt must not be after receivedAt") ∧
      (Bench.reportValue tankNode.id m).validate = some (.message "invalid state timestamps") ∧
      ¬ Admitted tankNode.id m := by
  intro now m
  have hmeasurement : m.validate = some (.message "observedAt must not be after receivedAt") := by
    decide
  refine ⟨by decide +kernel,by decide +kernel,hmeasurement,by decide +kernel,fun h => ?_⟩
  rw [h.measurement] at hmeasurement
  cases hmeasurement

def tankPresented (bootID : String) (sequence : ℕ) : Presented :=
  ⟨tankNode,tankSnapshot bootID sequence (99*Configuration.second),100*Configuration.second⟩

/-- After a snapshot of a second boot the first one is accepted again. -/
theorem replayed_boot_accepted :
    let s := run Session.step {} [tankPresented "boot-a" 1,tankPresented "boot-b" 1,
      tankPresented "boot-a" 1]
    s.accepted = [⟨tankNode.id,"boot-a",1⟩,⟨tankNode.id,"boot-b",1⟩,⟨tankNode.id,"boot-a",1⟩] ∧
      ¬ Once tankNode.id s.accepted ∧ ¬ Increasing tankNode.id s.accepted := by
  intro s
  have hs : s.accepted = [⟨tankNode.id,"boot-a",1⟩,⟨tankNode.id,"boot-b",1⟩,
    ⟨tankNode.id,"boot-a",1⟩] := by decide +kernel
  have honce : ¬ Once tankNode.id s.accepted := by
    rw [hs]
    simp [Once]
  exact ⟨hs,honce,fun h => honce (once_of_increasing h)⟩

end Samples

end ESP32
end AquaOS
