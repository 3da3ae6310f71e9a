import AquaOS.ConfigValidation
import AquaOS.Levels

/-! The topic contract of the MQTT integration: the constructors of the registry, their delivery
policies and the subscription filters. A topic tells what it was built for. -/
namespace AquaOS
namespace Mqtt

open Domain Levels

def contractMajorVersion : String := "v1"

def topicSegmentPattern (text : String) : Bool := Configuration.matchesIdentifier hyphen text
def haComponentPattern (text : String) : Bool :=
  Configuration.matchesIdentifier Configuration.underscore text

inductive Purpose
  | coreStatus | availability | sensorState | equipmentReported | equipmentDesired
  | commandRequest | commandResult | alarmState | eventStream
  | aiObservation | haDiscovery | haCommand
  | other (text : String)
  deriving DecidableEq

structure Policy where
  purpose : Purpose := .other ""
  qos : UInt8 := 0
  retained : Bool := false
  deriving DecidableEq

structure Registry where
  siteID : String
  valid : topicSegmentPattern siteID = true

def newRegistry (siteID : String) : Except Failure Registry :=
  if h : topicSegmentPattern siteID then .ok ⟨siteID,h⟩
  else .error (.message "MQTT site ID must be lowercase kebab-case")

namespace Registry

variable (r : Registry)

def root : String := "aquaos/"++r.siteID++"/"++contractMajorVersion

def haCommand (equipmentID : String) : Except Failure (String × Policy) :=
  if ¬ topicSegmentPattern equipmentID then
    .error (.message "equipment ID for Home Assistant must be one lowercase kebab-case segment")
  else .ok (r.root++"/home-assistant/"++equipmentID++"/set",{ purpose := .haCommand, qos := 1 })

def haStatus : String × Policy :=
  (r.root++"/home-assistant/status",{ purpose := .coreStatus, qos := 1, retained := true })

def topic (purpose : Purpose) (resource : String) : Except Failure (String × Policy) :=
  if resource.toList.any (· ∈ ['+','#','/']) ∨ ¬ topicSegmentPattern resource then
    .error (.message "MQTT resource ID must be one lowercase kebab-case segment")
  else
    let kept : Policy := { purpose, qos := 1, retained := true }
    let passing : Policy := { purpose, qos := 1 }
    match purpose with
    | .coreStatus => .ok (r.root++"/system/core/status",kept)
    | .availability => .ok (r.root++"/system/core/availability",kept)
    | .sensorState => .ok (r.root++"/sensors/"++resource++"/state",kept)
    | .equipmentReported => .ok (r.root++"/equipment/"++resource++"/reported",kept)
    | .equipmentDesired => .ok (r.root++"/equipment/"++resource++"/desired",kept)
    | .commandRequest => .ok (r.root++"/commands/"++resource++"/request",passing)
    | .commandResult => .ok (r.root++"/commands/"++resource++"/result",passing)
    | .alarmState => .ok (r.root++"/alarms/"++resource++"/state",kept)
    | .eventStream => .ok (r.root++"/events/"++resource,passing)
    | .aiObservation | .haDiscovery =>
      .error (.message "purpose requires its dedicated multi-segment constructor")
    | .haCommand | .other _ => .error (.message "unknown MQTT topic purpose")

def aiObservation (service kind : String) : Except Failure (String × Policy) :=
  if ¬ topicSegmentPattern service ∨ ¬ topicSegmentPattern kind then
    .error (.message "AI service and kind must be lowercase kebab-case")
  else .ok (r.root++"/ai/"++service++"/observations/"++kind,{ purpose := .aiObservation, qos := 1 })

/-- The discovery topics are shared by all sites of a broker. -/
def haDiscovery (_ : Registry) (component objectID : String) : Except Failure (String × Policy) :=
  if ¬ haComponentPattern component ∨ ¬ topicSegmentPattern objectID then
    .error (.message "component and object ID for Home Assistant must be lowercase kebab-case")
  else .ok ("homeassistant/"++component++"/"++objectID++"/config",
    { purpose := .haDiscovery, qos := 1, retained := true })

def subscriptionFilter : Purpose → Except Failure (String × UInt8)
  | .commandRequest => .ok (r.root++"/commands/+/request",1)
  | .aiObservation => .ok (r.root++"/ai/+/observations/+",1)
  | .haCommand => .ok (r.root++"/home-assistant/+/set",1)
  | _ => .error (.message "purpose has no wildcard subscription contract")

end Registry

/-- A call of one of the topic constructors. -/
inductive Constructor
  | topic (purpose : Purpose) (resource : String)
  | aiObservation (service kind : String)
  | haCommand (equipmentID : String)
  | haDiscovery (component objectID : String)
  | haStatus
  deriving DecidableEq

namespace Constructor

def build (r : Registry) : Constructor → Except Failure (String × Policy)
  | topic purpose resource => r.topic purpose resource
  | aiObservation service kind => r.aiObservation service kind
  | haCommand equipmentID => r.haCommand equipmentID
  | haDiscovery component objectID => r.haDiscovery component objectID
  | haStatus => .ok r.haStatus

/-- What a topic stands for: its site, unless it is a discovery topic, and the call without the
resource that core status and availability ignore. -/
def identity (r : Registry) : Constructor → Option String × Constructor
  | topic .coreStatus _ => (some r.siteID,topic .coreStatus "")
  | topic .availability _ => (some r.siteID,topic .availability "")
  | haDiscovery component objectID => (none,haDiscovery component objectID)
  | c => (some r.siteID,c)

def levels (r : Registry) : Constructor → List String
  | topic purpose resource =>
    ["aquaos",r.siteID,"v1"]++match purpose with
      | .coreStatus => ["system","core","status"]
      | .availability => ["system","core","availability"]
      | .sensorState => ["sensors",resource,"state"]
      | .equipmentReported => ["equipment",resource,"reported"]
      | .equipmentDesired => ["equipment",resource,"desired"]
      | .commandRequest => ["commands",resource,"request"]
      | .commandResult => ["commands",resource,"result"]
      | .alarmState => ["alarms",resource,"state"]
      | .eventStream => ["events",resource]
      | .aiObservation | .haDiscovery | .haCommand | .other _ => []
  | aiObservation service kind => ["aquaos",r.siteID,"v1","ai",service,"observations",kind]
  | haCommand equipmentID => ["aquaos",r.siteID,"v1","home-assistant",equipmentID,"set"]
  | haDiscovery component objectID => ["homeassistant",component,objectID,"config"]
  | haStatus => ["aquaos",r.siteID,"v1","home-assistant","status"]

/-- The levels that come from the site and the arguments. -/
def supplied (r : Registry) : Constructor → List String
  | topic .coreStatus _ | topic .availability _ => [r.siteID]
  | topic _ resource => [r.siteID,resource]
  | aiObservation service kind => [r.siteID,service,kind]
  | haCommand equipmentID => [r.siteID,equipmentID]
  | haDiscovery component objectID => [component,objectID]
  | haStatus => [r.siteID]

/-- The purpose that the policy of a topic names; the status topic of Home Assistant has none of its
own. -/
def purpose : Constructor → Purpose
  | topic purpose _ => purpose
  | aiObservation _ _ => .aiObservation
  | haCommand _ => .haCommand
  | haDiscovery _ _ => .haDiscovery
  | haStatus => .coreStatus

/-- Commands, their results, events and observations are not retained. -/
def retained : Constructor → Bool
  | topic .commandRequest _ | topic .commandResult _ | topic .eventStream _ => false
  | aiObservation _ _ | haCommand _ => false
  | _ => true

/-- Reads levels back. -/
def parse : List String → Option (Option String × Constructor)
  | ["aquaos",site,"v1","system","core","status"] => some (some site,topic .coreStatus "")
  | ["aquaos",site,"v1","system","core","availability"] => some (some site,topic .availability "")
  | ["aquaos",site,"v1","sensors",resource,"state"] => some (some site,topic .sensorState resource)
  | ["aquaos",site,"v1","equipment",resource,"reported"] =>
    some (some site,topic .equipmentReported resource)
  | ["aquaos",site,"v1","equipment",resource,"desired"] =>
    some (some site,topic .equipmentDesired resource)
  | ["aquaos",site,"v1","commands",resource,"request"] =>
    some (some site,topic .commandRequest resource)
  | ["aquaos",site,"v1","commands",resource,"result"] =>
    some (some site,topic .commandResult resource)
  | ["aquaos",site,"v1","alarms",resource,"state"] => some (some site,topic .alarmState resource)
  | ["aquaos",site,"v1","events",resource] => some (some site,topic .eventStream resource)
  | ["aquaos",site,"v1","ai",service,"observations",kind] =>
    some (some site,aiObservation service kind)
  | ["aquaos",site,"v1","home-assistant",equipmentID,"set"] => some (some site,haCommand equipmentID)
  | ["aquaos",site,"v1","home-assistant","status"] => some (some site,haStatus)
  | ["homeassistant",component,objectID,"config"] => some (none,haDiscovery component objectID)
  | _ => none

end Constructor

section Identifiers

open AquaOS.Configuration

variable {separator b : UInt8} {text : String}

theorem identifier_bytes (h : matchesIdentifier separator text = true) (hb : b ∈ bytes text) :
    isLower b = true ∨ isDigit b = true ∨ b = separator := by
  unfold matchesIdentifier at h
  split at h
  · cases h
  · next b' bs hbytes =>
    rw [hbytes] at hb
    simp only [Bool.and_eq_true,List.all_eq_true,Bool.or_eq_true,beq_iff_eq] at h
    obtain ⟨⟨hfirst,_⟩,hrest⟩ := h
    rcases List.mem_cons.mp hb with rfl | hmem
    · exact .inl hfirst
    · rcases hrest b hmem with (hl | hd) | hs
      · exact .inl hl
      · exact .inr (.inl hd)
      · exact .inr (.inr hs)

/-- Neither kind of identifier has a separator of topics or a wildcard. -/
theorem identifier_free {c : Char} (hsep : separator = hyphen ∨ separator = underscore)
    (h : matchesIdentifier separator text = true) (hc : c ∈ ['/','+','#']) : c ∉ text.toList := by
  intro hmem
  have hascii : c.toNat < 128 := by
    fin_cases hc <;> decide
  have hb := identifier_bytes h (mem_bytes hascii hmem)
  rcases hsep with rfl | rfl <;> fin_cases hc <;> revert hb <;> decide

/-- An identifier goes on as one while it is not too long. -/
theorem identifier_append {more : String} (h : matchesIdentifier separator text = true) :
    matchesIdentifier separator (text++more) = true ↔
      (bytes text).length+(bytes more).length ≤ 63 ∧
        ∀ b ∈ bytes more, isLower b = true ∨ isDigit b = true ∨ b = separator := by
  unfold matchesIdentifier at h ⊢
  rw [bytes_append]
  split at h
  · cases h
  · next b bs hbytes =>
    simp only [Bool.and_eq_true,decide_eq_true_eq] at h
    obtain ⟨⟨hfirst,_⟩,hrest⟩ := h
    rw [hbytes]
    simp only [List.cons_append,List.length_cons,List.length_append,List.all_append,hfirst,hrest,
      Bool.true_and,Bool.and_eq_true,decide_eq_true_eq,List.all_eq_true,Bool.or_eq_true,beq_iff_eq,
      or_assoc]
    exact and_congr_left' (by omega)

/-- No hexadecimal digit is a capital. -/
def lowercase (id : String) : Bool := (bytes id).all fun b => !(0x41 ≤ b && b ≤ 0x46)

theorem uuid_bytes {value : List UInt8} (h : Domain.validateUUID value = none) :
    value.length = 36 ∧ ∀ b ∈ value, isHexDigit b = true ∨ b = hyphen := by
  unfold Domain.validateUUID at h
  split_ifs at h with hshape hhex
  refine ⟨?_,fun b hb => ?_⟩
  · by_contra hlen
    exact hshape (.inl hlen)
  · by_cases hdash : b = hyphen
    · exact .inr hdash
    · have hall := (Bool.and_eq_true _ _).mp hhex |>.2
      exact .inl (List.all_eq_true.mp hall b (List.mem_filter.mpr ⟨hb,by simpa using hdash⟩))

theorem hex_spelling (h : isHexDigit b = true ∨ b = hyphen) :
    (isLower b = true ∨ isDigit b = true ∨ b = hyphen) ↔
      (!(0x41 ≤ b && b ≤ 0x46)) = true := by
  simp only [isHexDigit,isLower,isDigit,hyphen,Bool.or_eq_true,Bool.and_eq_true,decide_eq_true_eq,
    Bool.not_eq_true',Bool.and_eq_false_iff,decide_eq_false_iff_not,UInt8.le_iff_toNat_le,
    ← UInt8.toNat_inj] at h ⊢
  simp only [UInt8.reduceToNat] at h ⊢
  omega

/-- A valid ID after a short identifier makes a segment if it is spelled in lower case. -/
theorem id_segment_iff {id : String} (h : topicSegmentPattern text = true)
    (hlen : (bytes text).length ≤ 27) (hid : Domain.validateID id = none) :
    topicSegmentPattern (text++id) = true ↔ lowercase id = true := by
  obtain ⟨hlength,hdigits⟩ := uuid_bytes hid
  rw [topicSegmentPattern,identifier_append h,lowercase,List.all_eq_true]
  constructor
  · rintro ⟨_,hall⟩ b hb
    exact (hex_spelling (hdigits b hb)).mp (hall b hb)
  · intro hall
    exact ⟨by omega,fun b hb => (hex_spelling (hdigits b hb)).mpr (hall b hb)⟩

end Identifiers

def Literal (level : String) : Prop := ∀ c ∈ ['/','+','#'], c ∉ level.toList

variable {text resource : String}

theorem segment_literal (h : topicSegmentPattern text = true) : Literal text :=
  fun _ hc => identifier_free (.inl rfl) h hc

theorem component_literal (h : haComponentPattern text = true) : Literal text :=
  fun _ hc => identifier_free (.inr rfl) h hc

theorem plain_of_literal {levels : List String} (hne : levels ≠ [])
    (h : ∀ level ∈ levels, Literal level) : Plain '/' levels :=
  ⟨hne,fun level hlevel => h level hlevel '/' (by simp)⟩

theorem segment_no_special (h : topicSegmentPattern text = true) :
    text.toList.any (· ∈ ['+','#','/']) = false := by
  rw [List.any_eq_false]
  intro c hc hspecial
  refine segment_literal h c ?_ hc
  simp only [decide_eq_true_eq,List.mem_cons,List.not_mem_nil,or_false] at hspecial ⊢
  tauto

theorem topic_rejects (r : Registry) (purpose : Purpose)
    (h : topicSegmentPattern resource = false) : r.topic purpose resource =
      .error (.message "MQTT resource ID must be one lowercase kebab-case segment") := by
  simp [Registry.topic,h]

/-- The purposes of one retained resource take every segment. -/
theorem topic_accepts (r : Registry) {purpose : Purpose}
    (hp : purpose = .availability ∨ purpose = .sensorState ∨ purpose = .equipmentReported ∨
      purpose = .alarmState) (h : topicSegmentPattern resource = true) :
    ∃ t, r.topic purpose resource = .ok (t,⟨purpose,1,true⟩) := by
  have hgood : ¬ (resource.toList.any (· ∈ ['+','#','/']) = true ∨
      ¬ topicSegmentPattern resource = true) := by
    rw [segment_no_special h,h]
    decide
  unfold Registry.topic
  rw [if_neg hgood]
  rcases hp with rfl | rfl | rfl | rfl
  · exact ⟨_,rfl⟩
  · exact ⟨_,rfl⟩
  · exact ⟨_,rfl⟩
  · exact ⟨_,rfl⟩

def keywords : List String := ["aquaos",contractMajorVersion,"system","core","status","availability",
  "sensors","state","equipment","reported","desired","commands","request","result","alarms","events",
  "ai","observations","home-assistant","set","homeassistant","config"]

theorem keyword_literal : ∀ level ∈ keywords, Literal level := by
  have hall : (keywords.all fun level => level.toList.all fun c =>
      decide (c ∉ ['/','+','#'])) = true := by decide +kernel
  intro level hlevel c hc hmem
  have hnot := List.all_eq_true.mp (List.all_eq_true.mp hall level hlevel) c hmem
  exact of_decide_eq_true hnot hc

@[simp] theorem toList_root (r : Registry) :
    r.root.toList = (join '/' ["aquaos",r.siteID,"v1"]).toList := by
  simp [Registry.root,contractMajorVersion,List.intercalate]

namespace Constructor

variable {r r' : Registry} {c c' : Constructor} {t : String} {p p' : Policy}

structure Built (r : Registry) (c : Constructor) (t : String) (p : Policy) : Prop where
  text : t = join '/' (c.levels r)
  literal : ∀ level ∈ c.levels r, Literal level
  read : parse (c.levels r) = some (c.identity r)
  policy : p = ⟨c.purpose,1,c.retained⟩

theorem literal_levels (h : ∀ level ∈ c.supplied r, Literal level) :
    ∀ level ∈ c.levels r, Literal level := by
  have hk := keyword_literal
  simp only [keywords,contractMajorVersion,List.forall_mem_cons,List.not_mem_nil,false_implies,
    forall_const,and_true] at hk
  cases c with
  | topic purpose resource =>
    cases purpose <;> simp only [supplied,List.forall_mem_cons] at h <;> simp [levels,hk,h]
  | _ =>
    simp only [supplied,List.forall_mem_cons] at h
    simp [levels,hk,h]

theorem topic_built {purpose : Purpose} {resource : String}
    (h : r.topic purpose resource = .ok (t,p)) : Built r (topic purpose resource) t p := by
  unfold Registry.topic at h
  split_ifs at h with hbad
  have hresource : Literal resource := by
    rw [not_or,not_not] at hbad
    exact segment_literal hbad.2
  have hsupplied : ∀ level ∈ (topic purpose resource).supplied r, Literal level := by
    have hsite := segment_literal r.valid
    cases purpose <;> simp [supplied,hsite,hresource]
  dsimp only at h
  cases purpose with
  | aiObservation => cases h
  | haDiscovery => cases h
  | haCommand => cases h
  | other text => cases h
  | _ =>
    obtain ⟨rfl,rfl⟩ := Prod.mk.inj (Except.ok.inj h)
    refine ⟨?_,literal_levels hsupplied,rfl,rfl⟩
    simp [← String.toList_inj,levels,List.intercalate]

theorem aiObservation_built {service kind : String}
    (h : r.aiObservation service kind = .ok (t,p)) : Built r (aiObservation service kind) t p := by
  unfold Registry.aiObservation at h
  split_ifs at h with hbad
  rw [not_or,not_not,not_not] at hbad
  obtain ⟨rfl,rfl⟩ := Prod.mk.inj (Except.ok.inj h)
  refine ⟨?_,literal_levels ?_,rfl,rfl⟩
  · simp [← String.toList_inj,levels,List.intercalate]
  · simp [supplied,segment_literal r.valid,segment_literal hbad.1,segment_literal hbad.2]

theorem haCommand_built {equipmentID : String}
    (h : r.haCommand equipmentID = .ok (t,p)) : Built r (haCommand equipmentID) t p := by
  unfold Registry.haCommand at h
  split_ifs at h with hid
  obtain ⟨rfl,rfl⟩ := Prod.mk.inj (Except.ok.inj h)
  refine ⟨?_,literal_levels ?_,rfl,rfl⟩
  · simp [← String.toList_inj,levels,List.intercalate]
  · simp [supplied,segment_literal r.valid,segment_literal hid]

theorem haDiscovery_built {component objectID : String}
    (h : r.haDiscovery component objectID = .ok (t,p)) :
    Built r (haDiscovery component objectID) t p := by
  unfold Registry.haDiscovery at h
  split_ifs at h with hbad
  rw [not_or,not_not,not_not] at hbad
  obtain ⟨rfl,rfl⟩ := Prod.mk.inj (Except.ok.inj h)
  refine ⟨?_,literal_levels ?_,rfl,rfl⟩
  · simp [← String.toList_inj,levels,List.intercalate]
  · simp [supplied,component_literal hbad.1,segment_literal hbad.2]

theorem haStatus_built : Built r haStatus r.haStatus.1 r.haStatus.2 := by
  refine ⟨?_,literal_levels ?_,rfl,rfl⟩
  · simp [← String.toList_inj,levels,List.intercalate,Registry.haStatus]
  · simp [supplied,segment_literal r.valid]

theorem built (h : c.build r = .ok (t,p)) : Built r c t p := by
  cases c with
  | topic purpose resource => exact topic_built h
  | aiObservation service kind => exact aiObservation_built h
  | haCommand equipmentID => exact haCommand_built h
  | haDiscovery component objectID => exact haDiscovery_built h
  | haStatus =>
    obtain ⟨rfl,rfl⟩ := Prod.mk.inj (Except.ok.inj h)
    exact haStatus_built

theorem levels_nonempty (r : Registry) (c : Constructor) : c.levels r ≠ [] := by
  cases c <;> simp [levels]

theorem Built.plain (h : Built r c t p) : Plain '/' (c.levels r) :=
  plain_of_literal (levels_nonempty r c) h.literal

theorem Built.identity_eq (h : Built r c t p) (h' : Built r' c' t p') :
    c.identity r = c'.identity r' := by
  have hlevels : c.levels r = c'.levels r' := join_inj h.plain h'.plain (h.text ▸ h'.text)
  have hread := h.read
  rw [hlevels,h'.read] at hread
  exact (Option.some.inj hread).symm

end Constructor

def filterLevels (r : Registry) : Purpose → List String
  | .commandRequest => ["aquaos",r.siteID,"v1","commands","+","request"]
  | .aiObservation => ["aquaos",r.siteID,"v1","ai","+","observations","+"]
  | _ => ["aquaos",r.siteID,"v1","home-assistant","+","set"]

section Filters

variable {r r' : Registry} {purpose : Purpose} {filter : String} {qos : UInt8}

theorem subscriptionFilter_eq
    (h : purpose = .commandRequest ∨ purpose = .aiObservation ∨ purpose = .haCommand) :
    r.subscriptionFilter purpose = .ok (join '/' (filterLevels r purpose),1) := by
  have htext : ∀ text : String, text.toList = (join '/' (filterLevels r purpose)).toList →
      Except.ok (text,(1 : UInt8)) =
        (.ok (join '/' (filterLevels r purpose),1) : Except Failure (String × UInt8)) :=
    fun text heq => by rw [String.toList_inj.mp heq]
  rcases h with rfl | rfl | rfl
  · exact htext _ (by simp [filterLevels,List.intercalate])
  · exact htext _ (by simp [filterLevels,List.intercalate])
  · exact htext _ (by simp [filterLevels,List.intercalate])

theorem filter_cases (h : r.subscriptionFilter purpose = .ok (filter,qos)) :
    (purpose = .commandRequest ∨ purpose = .aiObservation ∨ purpose = .haCommand) ∧
      filter = join '/' (filterLevels r purpose) := by
  have hp : purpose = .commandRequest ∨ purpose = .aiObservation ∨ purpose = .haCommand := by
    unfold Registry.subscriptionFilter at h
    split at h
    · exact .inl rfl
    · exact .inr (.inl rfl)
    · exact .inr (.inr rfl)
    · cases h
  rw [subscriptionFilter_eq hp] at h
  cases h
  exact ⟨hp,rfl⟩

theorem filterLevels_plain (r : Registry) (purpose : Purpose) :
    Plain '/' (filterLevels r purpose) := by
  have hsite : '/' ∉ r.siteID.toList := segment_literal r.valid '/' (by simp)
  cases purpose <;> simp [Plain,filterLevels,hsite]

theorem site_not_wildcard (r : Registry) : r.siteID ≠ "+" := by
  intro h
  have hplus := segment_literal r.valid '+' (by simp)
  rw [h] at hplus
  exact hplus (by decide)

/-- Level by level, a filter covers the calls for its purpose and site. -/
theorem filterLevels_matches {c : Constructor}
    (hp : purpose = .commandRequest ∨ purpose = .aiObservation ∨ purpose = .haCommand)
    (hread : Constructor.parse (c.levels r') = some (c.identity r')) :
    List.Forall₂ (fun f level => f = "+" ∨ f = level) (filterLevels r purpose) (c.levels r') ↔
      c.purpose = purpose ∧ r'.siteID = r.siteID := by
  have hsite := site_not_wildcard r
  have hcomm : r.siteID = r'.siteID ↔ r'.siteID = r.siteID := eq_comm
  cases c with
  | topic purpose' resource =>
    cases purpose' with
    | aiObservation => cases hread
    | haDiscovery => cases hread
    | haCommand => cases hread
    | other text => cases hread
    | _ =>
      rcases hp with rfl | rfl | rfl <;>
        simp [filterLevels,Constructor.levels,Constructor.purpose,hsite,hcomm]
  | _ =>
    rcases hp with rfl | rfl | rfl <;>
      simp [filterLevels,Constructor.levels,Constructor.purpose,hsite,hcomm]

end Filters

/-- Equal topics come from the same call for the same site, and a subscription filter covers
exactly the topics of its purpose and site. -/
theorem topics_injective_and_filters_exact :
    (∀ (r r' : Registry) (c c' : Constructor) (t : String) (p p' : Policy),
      c.build r = .ok (t,p) → c'.build r' = .ok (t,p') → c.identity r = c'.identity r') ∧
    ∀ (r r' : Registry) (purpose : Purpose) (filter : String) (qos : UInt8) (c : Constructor)
      (t : String) (p : Policy),
      r.subscriptionFilter purpose = .ok (filter,qos) → c.build r' = .ok (t,p) →
        (matchesFilter '/' "+" filter t = true ↔ p.purpose = purpose ∧ r'.siteID = r.siteID) := by
  constructor
  · intro r r' c c' t p p' h h'
    exact (Constructor.built h).identity_eq (Constructor.built h')
  · intro r r' purpose filter qos c t p hfilter h
    obtain ⟨hp,rfl⟩ := filter_cases hfilter
    have hb := Constructor.built h
    rw [hb.text,matchesFilter_join (filterLevels_plain r purpose) hb.plain,
      filterLevels_matches hp hb.read,hb.policy]

def homeReef : Registry := ⟨"home-reef",by decide⟩

theorem home_command_covered :
    matchesFilter '/' "+" "aquaos/home-reef/v1/commands/+/request"
      "aquaos/home-reef/v1/commands/heater-a/request" = true := by
  refine (topics_injective_and_filters_exact.2 homeReef homeReef .commandRequest _ 1
    (.topic .commandRequest "heater-a") _ ⟨.commandRequest,1,false⟩ ?_ ?_).mpr ⟨rfl,rfl⟩
  · decide +kernel
  · decide +kernel

end Mqtt
end AquaOS
