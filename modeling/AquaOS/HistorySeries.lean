import AquaOS.HistoryPoint
import AquaOS.EventBus
import AquaOS.Output
import AquaOS.StateStore

/-! The points that events leave in the history. The series of a point is its measurement and its
tags; those of a changed state come from its key, all but the plane. -/
namespace AquaOS
namespace Storage

open Domain CanonicalState Events

variable {P : Type}

structure Readers (P : Type) where
  state : P → Option StateValue
  result : P → Option Output.Result
  alarm : P → Option Alarms.Alarm

section Texts

def severityText : Alarms.Severity → String
  | .debug => "debug"
  | .info => "info"
  | .warning => "warning"
  | .critical => "critical"
  | .other text => text

def qualityText : StateQuality → String
  | .known .good => "good"
  | .known .suspect => "suspect"
  | .known .stale => "stale"
  | .known .invalid => "invalid"
  | .known .unavailable => "unavailable"
  | .other text => text

def outcomeText : Output.Status → String
  | .validated => "validated"
  | .rejected => "rejected"
  | .dispatched => "dispatched"
  | .acknowledged => "acknowledged"
  | .succeeded => "succeeded"
  | .failed => "failed"
  | .expired => "expired"

end Texts

/-- The table of entries whose keys are literals. -/
def textTable {V : Type} (entries : List (String × V)) : Table Text V :=
  entries.foldr (fun e t => t.insert (bytes e.1) e.2) ∅

theorem textTable_lookup {V : Type} (entries : List (String × V)) (key : String) :
    (textTable entries).lookup (bytes key) = entries.lookup key := by
  induction entries with
  | nil => rfl
  | cons e entries ih =>
    obtain ⟨name,value⟩ := e
    have hkey : bytes key = bytes name ↔ key = name := ⟨bytes_inj,congrArg bytes⟩
    change ((textTable entries).insert (bytes name) value).lookup (bytes key) = _
    rw [Table.lookup_insert_ite,List.lookup_cons,ih]
    by_cases h : key = name
    · rw [if_pos (hkey.mpr h),beq_iff_eq.mpr h]
    · rw [if_neg (mt hkey.mp h),beq_eq_false_iff_ne.mpr h]

theorem textTable_congr_iff {V : Type} {entries entries' : List (String × V)}
    (hkeys : entries.map Prod.fst = entries'.map Prod.fst)
    (hnodup : (entries.map Prod.fst).Nodup) :
    (∀ key, (textTable entries).lookup key = (textTable entries').lookup key) ↔
      entries = entries' := by
  constructor
  · intro h
    have hlookup : ∀ key, entries.lookup key = entries'.lookup key := fun key => by
      rw [← textTable_lookup,← textTable_lookup,h]
    clear h
    induction entries generalizing entries' with
    | nil =>
      rw [List.map_nil,eq_comm,List.map_eq_nil_iff] at hkeys
      rw [hkeys]
    | cons e entries ih =>
      cases entries' with
      | nil => cases hkeys
      | cons e' entries' =>
        obtain ⟨name,value⟩ := e
        obtain ⟨name',value'⟩ := e'
        simp only [List.map_cons,List.cons.injEq] at hkeys hnodup
        obtain ⟨rfl,hkeys⟩ := hkeys
        obtain ⟨hnew,hnodup⟩ := List.nodup_cons.mp hnodup
        have habsent : ∀ l : List (String × V), name ∉ l.map Prod.fst → l.lookup name = none := by
          intro l hl
          refine List.lookup_eq_none_iff.mpr fun e he => bne_iff_ne.mpr fun heq => hl ?_
          rw [heq]
          exact List.mem_map_of_mem he
        obtain rfl : value = value' := by simpa using hlookup name
        refine congrArg _ (ih hkeys hnodup fun key => ?_)
        by_cases hkey : key = name
        · subst hkey
          rw [habsent _ hnew,habsent _ (hkeys ▸ hnew)]
        · simpa [List.lookup_cons,beq_eq_false_iff_ne.mpr hkey] using hlookup key
  · rintro rfl key
    rfl

/-- The tags that every event gives its point. -/
def eventTags (event : Event P) : List (String × String) :=
  [("event_type",event.eventType.text),("severity",severityText event.severity),
    ("source",event.source)]

def eventPoint (event : Event P) (measurement : String) (tags : List (String × String))
    (fields : List (String × Field)) : Point where
  measurement := bytes measurement
  tags := textTable ((tags++eventTags event).map fun e => (e.1,bytes e.2))
  fields := textTable (fields++[("correlation_id",stringField (bytes event.correlationID))])
  timestamp := event.timestamp

def textField (value : String) : Field := stringField (bytes value)

def keyTags (key : Key) : List (String × String) :=
  [("entity_kind",key.entityKind.text),("entity_id",key.entityID),("attribute",key.attributeName)]

def quantityTags (q : Quantity) : List (String × String) :=
  [("quantity",q.kind.text),("unit",q.unit.text)]

/-- The value of a state without a quantity. -/
def plainFields (value : CanonicalValue) : List (String × Field) :=
  match value.boolean, value.text with
  | some on, _ => [("value",booleanField on)]
  | none, some text => [("value",textField text)]
  | none, none => []

def statePoint (event : Event P) (value : StateValue) : Point :=
  let fields := [("quality",textField (qualityText value.quality)),
    ("revision",textField (toString value.revision))]
  match value.value.quantity with
  | some q =>
    eventPoint event "aquaos_measurements_v1" (keyTags value.key++quantityTags q)
      (("value",floatField q.value)::fields)
  | none =>
    eventPoint event "aquaos_equipment_state_v1" (keyTags value.key)
      (plainFields value.value++fields)

def outcomePoint (event : Event P) (result : Output.Result) : Point :=
  eventPoint event "aquaos_command_outcomes_v1"
    [("equipment_id",result.command.equipmentID),("status",outcomeText result.status),
      ("reason",result.reason)]
    [("command_id",textField result.command.id),("on",booleanField result.command.on)]

def alarmPoint (event : Event P) (alarm : Alarms.Alarm) : Point :=
  eventPoint event "aquaos_alarms_v1"
    [("alarm_code",alarm.code),("status",alarm.status.text),
      ("subject_kind",alarm.subject.kind)]
    [("alarm_id",textField alarm.id),("subject_id",textField alarm.subject.id),
      ("condition_active",booleanField alarm.conditionActive)]

def commandTypes : List EventType :=
  [.other "command.validated",.other "command.rejected",.other "command.dispatched",
    .other "command.acknowledged",.other "command.reconciled",.other "command.expired"]

def pointFromEvent (json : Readers P) (event : Event P) : Option Point :=
  match event.eventType with
  | .stateChanged => (json.state event.payload).map (statePoint event)
  | .alarmRaised | .alarmAcknowledged | .alarmCleared | .alarmEscalated =>
    (json.alarm event.payload).map (alarmPoint event)
  | .other text =>
    if .other text ∈ commandTypes then (json.result event.payload).map (outcomePoint event)
    else none

/-- Points of one series: a later one replaces an earlier one with its timestamp. -/
def Point.SameSeries (p q : Point) : Prop :=
  p.measurement = q.measurement ∧ ∀ key, p.tags.lookup key = q.tags.lookup key

section Series

variable {json : Readers P} {event event' : Event P} {value value' : StateValue}
  {tags tags' : List (String × String)} {fields fields' : List (String × Field)}

theorem eventPoint_series_iff (measurement measurement' : String)
    (hkeys : tags.map Prod.fst = tags'.map Prod.fst)
    (hnodup : (tags.map Prod.fst++["event_type","severity","source"]).Nodup) :
    (eventPoint event measurement tags fields).SameSeries
        (eventPoint event' measurement' tags' fields') ↔
      measurement = measurement' ∧ tags++eventTags event = tags'++eventTags event' := by
  have hinj : Function.Injective fun e : String × String => (e.1,bytes e.2) := by
    rintro ⟨name,text⟩ ⟨name',text'⟩ h
    obtain ⟨hname,htext⟩ := Prod.mk.inj h
    exact Prod.ext hname (bytes_inj htext)
  refine and_congr ⟨bytes_inj,congrArg bytes⟩ ?_
  unfold eventPoint
  rw [textTable_congr_iff,(List.map_injective_iff.mpr hinj).eq_iff]
  · simpa [eventTags,Function.comp_def] using hkeys
  · simpa [eventTags,Function.comp_def] using hnodup

theorem keyTags_inj {key key' : Key} (h : key.Admitted) (h' : key'.Admitted) :
    keyTags key = keyTags key' ↔ key.entityKind = key'.entityKind ∧
      key.entityID = key'.entityID ∧ key.attributeName = key'.attributeName := by
  have hkind : key.entityKind.text = key'.entityKind.text ↔ key.entityKind = key'.entityKind := by
    refine ⟨fun heq => ?_,congrArg _⟩
    rcases h.kindKnown with hk | hk <;> rcases h'.kindKnown with hk' | hk' <;>
      simp_all [EntityKind.text]
  simp [keyTags,hkind]

theorem quantityTags_inj {q q' : Quantity} (h : q.validate = none) (h' : q'.validate = none) :
    quantityTags q = quantityTags q' ↔ q.kind = q'.kind := by
  have hunit : ∀ {q : Quantity}, q.validate = none → q.kind.unit = some q.unit := by
    intro q hq
    unfold Quantity.validate at hq
    cases hkind : q.kind.unit with
    | none =>
      simp only [hkind] at hq
      split_ifs at hq
    | some unit =>
      by_cases hne : q.unit = unit
      · rw [hne]
      · simp only [hkind,ne_eq,hne,not_false_eq_true,if_true] at hq
        split_ifs at hq
  have hkinds : ∀ {k k' : QuantityKind}, k.unit ≠ none → k'.unit ≠ none → k.text = k'.text →
      k = k' := by
    intro k k' hk hk' heq
    cases k <;> cases k' <;> simp_all [QuantityKind.unit,QuantityKind.text]
  constructor
  · intro heq
    have hne : ∀ {q : Quantity}, q.validate = none → q.kind.unit ≠ none := fun hq => by
      rw [hunit hq]
      exact Option.some_ne_none _
    simp only [quantityTags,List.cons.injEq,Prod.mk.injEq,true_and] at heq
    exact hkinds (hne h) (hne h') heq.1
  · intro heq
    have hunits := hunit h
    rw [heq,hunit h'] at hunits
    rw [quantityTags,quantityTags,heq,Option.some.inj hunits]

theorem validate_quantity {q : Quantity} (h : value.validate = none)
    (hq : value.value.quantity = some q) : q.validate = none := by
  have hvalue := validate_value h
  unfold CanonicalValue.validate at hvalue
  split_ifs at hvalue with hcount
  rw [hq] at hcount hvalue
  cases hkind : value.value.kind <;> cases hboolean : value.value.boolean <;>
    cases htext : value.value.text <;> simp_all

def quantityKind (value : StateValue) : Option QuantityKind :=
  value.value.quantity.map Quantity.kind

theorem append_eq_append_iff_of_length {α : Type} {l l' m m' : List α} (h : l.length = l'.length) :
    l++m = l'++m' ↔ l = l' ∧ m = m' :=
  ⟨fun heq => List.append_inj heq h,fun heq => by rw [heq.1,heq.2]⟩

theorem statePoint_series_iff (h : value.validate = none) (h' : value'.validate = none) :
    (statePoint event value).SameSeries (statePoint event' value') ↔
      quantityKind value = quantityKind value' ∧ keyTags value.key = keyTags value'.key ∧
        eventTags event = eventTags event' := by
  have hlength : (keyTags value.key).length = (keyTags value'.key).length := rfl
  unfold statePoint quantityKind
  cases hq : value.value.quantity with
  | none =>
    cases hq' : value'.value.quantity with
    | none =>
      have hnodup : ((keyTags value.key).map Prod.fst++["event_type","severity","source"]).Nodup := by
        simp [keyTags]
      have hkeys : (keyTags value.key).map Prod.fst = (keyTags value'.key).map Prod.fst := rfl
      dsimp only
      rw [eventPoint_series_iff _ _ hkeys hnodup,append_eq_append_iff_of_length hlength]
      simp
    | some q' =>
      refine iff_of_false (fun hsame => ?_) (by simp)
      exact absurd (bytes_inj hsame.1) (by decide)
  | some q =>
    cases hq' : value'.value.quantity with
    | none =>
      refine iff_of_false (fun hsame => ?_) (by simp)
      exact absurd (bytes_inj hsame.1) (by decide)
    | some q' =>
      have hnodup : ((keyTags value.key++quantityTags q).map Prod.fst++
          ["event_type","severity","source"]).Nodup := by
        simp [keyTags,quantityTags]
      have hkeys : (keyTags value.key++quantityTags q).map Prod.fst =
          (keyTags value'.key++quantityTags q').map Prod.fst := rfl
      have hlength' : (keyTags value.key++quantityTags q).length =
          (keyTags value'.key++quantityTags q').length := rfl
      dsimp only
      rw [eventPoint_series_iff _ _ hkeys hnodup,append_eq_append_iff_of_length hlength',
        append_eq_append_iff_of_length hlength,
        quantityTags_inj (validate_quantity h hq) (validate_quantity h' hq')]
      simp only [Option.map_some,Option.some.injEq,true_and]
      tauto

/-- The points of two accepted values are in different series exactly if their keys differ in more
than the plane, or they differ in the kind of quantity, or their events in severity or source. -/
theorem changed_states_apart_iff (json : Readers P) (event event' : Event P)
    (value value' : StateValue) (p p' : Point) (htype : event.eventType = .stateChanged)
    (htype' : event'.eventType = .stateChanged) (hdecoded : json.state event.payload = some value)
    (hdecoded' : json.state event'.payload = some value') (hvalid : value.validate = none)
    (hvalid' : value'.validate = none) (hp : pointFromEvent json event = some p)
    (hp' : pointFromEvent json event' = some p') :
    ¬ p.SameSeries p' ↔
      value.key.entityKind ≠ value'.key.entityKind ∨ value.key.entityID ≠ value'.key.entityID ∨
      value.key.attributeName ≠ value'.key.attributeName ∨
      quantityKind value ≠ quantityKind value' ∨
      severityText event.severity ≠ severityText event'.severity ∨ event.source ≠ event'.source := by
  obtain rfl : statePoint event value = p := by
    simpa [pointFromEvent,htype,hdecoded] using hp
  obtain rfl : statePoint event' value' = p' := by
    simpa [pointFromEvent,htype',hdecoded'] using hp'
  have htags : eventTags event = eventTags event' ↔
      severityText event.severity = severityText event'.severity ∧ event.source = event'.source := by
    simp [eventTags,htype,htype']
  rw [statePoint_series_iff hvalid hvalid',
    keyTags_inj (validate_admitted hvalid) (validate_admitted hvalid'),htags]
  tauto

end Series

section Samples

def valueReaders : Readers StateValue where
  state := some
  result _ := none
  alarm _ := none

def changeOf (value : StateValue) : Event StateValue :=
  ⟨5,"state",.stateChanged,.info,value,"00000000-0000-4000-8000-000000000009"⟩

def switchValue (plane : Plane) (attributeName : String) (on : Bool) : StateValue :=
  { reportedSwitch on with
    key := ⟨.equipment,"00000000-0000-4000-8000-000000000001",plane,attributeName⟩ }

theorem attributes_apart :
    ¬ (statePoint (changeOf (switchValue .reported "power" true))
        (switchValue .reported "power" true)).SameSeries
      (statePoint (changeOf (switchValue .reported "brightness" true))
        (switchValue .reported "brightness" true)) :=
  (changed_states_apart_iff valueReaders (changeOf (switchValue .reported "power" true))
    (changeOf (switchValue .reported "brightness" true)) (switchValue .reported "power" true)
    (switchValue .reported "brightness" true) _ _ rfl rfl rfl rfl (by decide +kernel)
    (by decide +kernel) rfl rfl).mpr (.inr (.inr (.inl (by decide +kernel))))

/-- A desired and a reported state of one attribute are in one series, where the later point takes the
place of the earlier one. -/
theorem desired_overwrites_reported :
    let desired := switchValue .desired "power" true
    let reported := switchValue .reported "power" false
    desired.key ≠ reported.key ∧ desired.validate = none ∧ reported.validate = none ∧
      ∃ p p', pointFromEvent valueReaders (changeOf desired) = some p ∧
        pointFromEvent valueReaders (changeOf reported) = some p' ∧ p.SameSeries p' ∧
        p.timestamp = p'.timestamp ∧
        p.fields.lookup (bytes "value") = some (booleanField true) ∧
        p'.fields.lookup (bytes "value") = some (booleanField false) := by
  intro desired reported
  exact ⟨by decide +kernel,by decide +kernel,by decide +kernel,_,_,rfl,rfl,⟨rfl,fun _ => rfl⟩,rfl,
    by decide +kernel,by decide +kernel⟩

end Samples

end Storage
end AquaOS
