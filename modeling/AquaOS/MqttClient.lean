import AquaOS.MqttTopics
import AquaOS.Table

/-! What the client lets through. A publication is refused when it would retain a command or an
event, which the client reads off the levels of the topic, wherever they come from; a subscription
with a wildcard is refused unless it is one of the filters the client knows. -/
namespace AquaOS
namespace Mqtt

open Domain Levels

/-- The loop of `splitTopic`, with the characters of the current part, last first. -/
def splitParts (part : List Char) : List Char → List String
  | [] => [String.ofList part.reverse]
  | c::cs =>
    if c = '/' then String.ofList part.reverse::splitParts [] cs else splitParts (c::part) cs

def splitTopic (topic : String) : List String := splitParts [] topic.toList

def containsSegment (topic segment : String) : Bool := (splitTopic topic).any (· == segment)

def containsWildcard (value : String) : Bool := value.toList.any fun c => c = '#' || c = '+'

def validatePublication (topic : String) (qos : UInt8) (retained : Bool) : Option Failure :=
  if topic = "" ∨ containsWildcard topic then some (.message "invalid MQTT publication topic")
  else if 1 < qos then some (.message "unsupported MQTT QoS")
  else if retained ∧ (containsSegment topic "commands" ∨ containsSegment topic "events") then
    some (.message "commands and events must never be retained")
  else none

def Registry.validSubscription (r : Registry) (topic : String) : Bool :=
  if topic = "" ∨ containsSegment topic "#" ∨ topic = "#" then false
  else if ¬ containsWildcard topic then true
  else
    (match r.subscriptionFilter .commandRequest with
      | .ok (filter,_) => topic == filter
      | .error _ => false) ||
    (match r.subscriptionFilter .aiObservation with
      | .ok (filter,_) => topic == filter
      | .error _ => false)

section Segments

variable {r : Registry} {c : Constructor} {levels : List String} {t topic segment : String}
  {p : Policy}

theorem splitParts_eq (part cs : List Char) :
    splitParts part cs = (List.splitOnPPrepend (· == '/') cs part).map String.ofList := by
  induction cs generalizing part with
  | nil => rfl
  | cons c cs ih =>
    unfold splitParts
    rw [List.splitOnPPrepend_cons_eq_if]
    split_ifs with hc hbeq hbeq
    · rw [List.map_cons,ih [],List.splitOnPPrepend_nil_right]
    · exact absurd (beq_iff_eq.mpr hc) hbeq
    · exact absurd (beq_iff_eq.mp hbeq) hc
    · exact ih (c::part)

theorem splitTopic_eq (topic : String) : splitTopic topic = split '/' topic :=
  splitParts_eq [] topic.toList

theorem containsSegment_iff :
    containsSegment topic segment = true ↔ segment ∈ split '/' topic := by
  rw [containsSegment,splitTopic_eq,List.any_eq_true]
  constructor
  · rintro ⟨level,hlevel,heq⟩
    exact beq_iff_eq.mp heq ▸ hlevel
  · intro h
    exact ⟨segment,h,beq_self_eq_true segment⟩

theorem containsSegment_join (h : Plain '/' levels) :
    containsSegment (join '/' levels) segment = true ↔ segment ∈ levels := by
  rw [containsSegment_iff,split_join h]

theorem containsWildcard_iff {text : String} :
    containsWildcard text = true ↔ '#' ∈ text.toList ∨ '+' ∈ text.toList := by
  simp only [containsWildcard,List.any_eq_true,Bool.or_eq_true,decide_eq_true_eq]
  constructor
  · rintro ⟨c,hc,rfl | rfl⟩
    · exact .inl hc
    · exact .inr hc
  · rintro (h | h)
    · exact ⟨'#',h,.inl rfl⟩
    · exact ⟨'+',h,.inr rfl⟩

theorem wildcard_of_segment (h : containsSegment topic "#" = true) :
    containsWildcard topic = true := by
  have hmem : '#' ∈ (join '/' (split '/' topic)).toList :=
    (mem_join (by decide)).mpr ⟨"#",containsSegment_iff.mp h,by decide⟩
  rw [join_split] at hmem
  exact containsWildcard_iff.mpr (.inl hmem)

theorem literal_no_wildcard (h : ∀ level ∈ levels, Literal level) :
    containsWildcard (join '/' levels) = false := by
  rw [← Bool.not_eq_true,containsWildcard_iff,mem_join (by decide),mem_join (by decide)]
  rintro (⟨level,hlevel,hc⟩ | ⟨level,hlevel,hc⟩)
  · exact h level hlevel '#' (by simp) hc
  · exact h level hlevel '+' (by simp) hc

theorem join_nonempty (h : Plain '/' levels) (hfirst : levels ≠ [""]) : join '/' levels ≠ "" := by
  intro hempty
  have hsplit := split_join h
  rw [hempty] at hsplit
  exact hfirst (hsplit.symm.trans (by decide +kernel))

end Segments

section Publications

variable {r : Registry} {c : Constructor} {t : String} {p : Policy}

theorem built_nonempty (h : c.Built r t p) : t ≠ "" := by
  rw [h.text]
  refine join_nonempty h.plain fun hone => ?_
  have hread := h.read
  rw [hone] at hread
  cases hread

/-- What the client asks of a topic of the contract. -/
theorem validatePublication_built (h : c.Built r t p) (qos : UInt8) (retained : Bool) :
    validatePublication t qos retained = none ↔
      ¬ 1 < qos ∧ (retained = true → "commands" ∉ c.levels r ∧ "events" ∉ c.levels r) := by
  have hplain := h.plain
  have hnonempty := built_nonempty h
  have hwild : containsWildcard t = false := h.text ▸ literal_no_wildcard h.literal
  have hsegment : ∀ name, containsSegment t name = true ↔ name ∈ c.levels r := by
    intro name
    rw [h.text,containsSegment_join hplain]
  unfold validatePublication
  rw [if_neg (by simp [hnonempty,hwild])]
  by_cases hqos : 1 < qos
  · simp [hqos]
  · by_cases hr : retained = true
    · simp [hqos,hr,hsegment]
    · simp [hqos,hr]

/-- A retained topic has the name of commands or events only where its site or an argument puts
it. -/
theorem retained_levels (hread : Constructor.parse (c.levels r) = some (c.identity r))
    (hr : c.retained = true) {name : String} (hname : name = "commands" ∨ name = "events") :
    name ∈ c.levels r ↔ name ∈ c.supplied r := by
  cases c with
  | topic purpose resource =>
    cases purpose with
    | aiObservation => cases hread
    | haDiscovery => cases hread
    | haCommand => cases hread
    | other text => cases hread
    | commandRequest => cases hr
    | commandResult => cases hr
    | eventStream => cases hr
    | _ => rcases hname with rfl | rfl <;> simp [Constructor.levels,Constructor.supplied]
  | aiObservation service kind => cases hr
  | haCommand equipmentID => cases hr
  | _ => rcases hname with rfl | rfl <;> simp [Constructor.levels,Constructor.supplied]

theorem command_levels (hread : Constructor.parse (c.levels r) = some (c.identity r))
    (hp : c.purpose = .commandRequest ∨ c.purpose = .commandResult ∨ c.purpose = .eventStream) :
    "commands" ∈ c.levels r ∨ "events" ∈ c.levels r := by
  cases c with
  | topic purpose resource =>
    rcases hp with rfl | rfl | rfl
    · exact .inl (by simp [Constructor.levels])
    · exact .inl (by simp [Constructor.levels])
    · exact .inr (by simp [Constructor.levels])
  | _ => simp [Constructor.purpose] at hp

/-- The client takes a publication of the contract unless the topic is retained and its site or an
argument is called like the commands or the events, and it takes no command, result or event
retained. -/
theorem publication_accepted_iff (r : Registry) (c : Constructor) (t : String) (p : Policy)
    (h : c.build r = .ok (t,p)) : (validatePublication t p.qos p.retained = none ↔
      (c.retained = true → ∀ level ∈ c.supplied r, level ≠ "commands" ∧ level ≠ "events")) ∧
    ((p.purpose = .commandRequest ∨ p.purpose = .commandResult ∨ p.purpose = .eventStream) →
      ∀ qos, validatePublication t qos true ≠ none) := by
  have hb := Constructor.built h
  rw [hb.policy]
  constructor
  · rw [validatePublication_built hb]
    simp only [show ¬ (1 : UInt8) < 1 by decide,not_false_eq_true,true_and]
    refine forall_congr' fun hr => ?_
    rw [retained_levels hb.read hr (.inl rfl),retained_levels hb.read hr (.inr rfl)]
    constructor
    · rintro ⟨hcommands,hevents⟩ level hlevel
      exact ⟨fun heq => hcommands (heq ▸ hlevel),fun heq => hevents (heq ▸ hlevel)⟩
    · intro hall
      exact ⟨fun hmem => (hall _ hmem).1 rfl,fun hmem => (hall _ hmem).2 rfl⟩
  · intro hp qos hnone
    rw [validatePublication_built hb] at hnone
    obtain ⟨hcommands,hevents⟩ := hnone.2 rfl
    rcases command_levels hb.read hp with hmem | hmem
    · exact hcommands hmem
    · exact hevents hmem

theorem home_sensor_accepted :
    validatePublication "aquaos/home-reef/v1/sensors/temp-main/state" 1 true = none := by
  refine (publication_accepted_iff homeReef (.topic .sensorState "temp-main") _
    ⟨.sensorState,1,true⟩ ?_).1.mpr ?_
  · decide
  · decide

/-- A site called like the commands cannot announce that it is there. -/
theorem commands_site_refused :
    ∃ r : Registry, newRegistry "commands" = .ok r ∧
      r.topic .availability "core" =
        .ok ("aquaos/commands/v1/system/core/availability",⟨.availability,1,true⟩) ∧
      validatePublication "aquaos/commands/v1/system/core/availability" 1 true =
        some (.message "commands and events must never be retained") := by
  refine ⟨⟨"commands",by decide +kernel⟩,?_,?_,?_⟩
  · rfl
  · decide +kernel
  · decide +kernel

end Publications

section Subscriptions

variable {r : Registry} {filter : String}

/-- A wildcard filter is accepted exactly when the registry returns it for some purpose, and a filter
without wildcards unless it is empty. -/
def Registry.SubscriptionAgrees (r : Registry) (filter : String) : Prop :=
  (containsWildcard filter = true → (r.validSubscription filter = true ↔
    ∃ purpose qos, r.subscriptionFilter purpose = .ok (filter,qos))) ∧
  (containsWildcard filter = false → filter ≠ "" → r.validSubscription filter = true)

theorem filterLevels_wildcard (r : Registry) (purpose : Purpose) :
    containsWildcard (join '/' (filterLevels r purpose)) = true := by
  rw [containsWildcard_iff]
  refine .inr ((mem_join (by decide)).mpr ⟨"+",?_,by decide⟩)
  cases purpose <;> simp [filterLevels]

theorem filterLevels_not_broad {purpose : Purpose}
    (h : filter = join '/' (filterLevels r purpose)) : containsSegment filter "#" = false := by
  rw [← Bool.not_eq_true,h,containsSegment_join (filterLevels_plain r purpose)]
  have hsite : "#" ≠ r.siteID := by
    intro heq
    have hbroad := segment_literal r.valid '#' (by simp)
    rw [← heq] at hbroad
    exact hbroad (by decide +kernel)
  cases purpose <;> simp [filterLevels,hsite]

theorem validSubscription_wildcard (hwild : containsWildcard filter = true) :
    r.validSubscription filter = true ↔
      filter = join '/' (filterLevels r .commandRequest) ∨
        filter = join '/' (filterLevels r .aiObservation) := by
  unfold Registry.validSubscription
  rw [subscriptionFilter_eq (.inl rfl),subscriptionFilter_eq (.inr (.inl rfl))]
  constructor
  · intro h
    split_ifs at h
    simpa using h
  · intro h
    have hbroad : containsSegment filter "#" = false := by
      rcases h with h | h
      · exact filterLevels_not_broad h
      · exact filterLevels_not_broad h
    have hempty : filter ≠ "" := by
      rintro rfl
      exact absurd hwild (by decide)
    have hhash : filter ≠ "#" := by
      rintro rfl
      exact absurd hbroad (by decide)
    rw [if_neg (by simp [hempty,hbroad,hhash]),if_neg (by simp [hwild])]
    simpa using h

/-- The client takes the subscriptions of the registry except the one for Home Assistant
commands. -/
theorem subscription_agrees_iff (r : Registry) (filter : String) :
    r.SubscriptionAgrees filter ↔ ∀ qos, r.subscriptionFilter .haCommand ≠ .ok (filter,qos) := by
  constructor
  · intro hagrees qos h
    obtain ⟨_,rfl⟩ := filter_cases h
    have hwild := filterLevels_wildcard r .haCommand
    have hvalid := (hagrees.1 hwild).mpr ⟨.haCommand,qos,h⟩
    rcases (validSubscription_wildcard hwild).mp hvalid with heq | heq
    · have hlevels := join_inj (filterLevels_plain r _) (filterLevels_plain r _) heq
      simp [filterLevels] at hlevels
    · have hlevels := join_inj (filterLevels_plain r _) (filterLevels_plain r _) heq
      simp [filterLevels] at hlevels
  · intro hother
    constructor
    · intro hwild
      rw [validSubscription_wildcard hwild]
      constructor
      · rintro (rfl | rfl)
        · exact ⟨.commandRequest,1,subscriptionFilter_eq (.inl rfl)⟩
        · exact ⟨.aiObservation,1,subscriptionFilter_eq (.inr (.inl rfl))⟩
      · rintro ⟨purpose,qos,h⟩
        obtain ⟨rfl | rfl | rfl,hfilter⟩ := filter_cases h
        · exact .inl hfilter
        · exact .inr hfilter
        · exact absurd h (hother qos)
    · intro hwild hempty
      have hbroad : containsSegment filter "#" = false := by
        rw [← Bool.not_eq_true]
        intro h
        exact absurd (wildcard_of_segment h) (by simp [hwild])
      have hhash : filter ≠ "#" := by
        rintro rfl
        exact absurd hwild (by decide)
      simp [Registry.validSubscription,hempty,hbroad,hhash,hwild]

/-- The registry returns a filter for the bridge that the client refuses. -/
theorem bridge_subscription_refused :
    ¬ homeReef.SubscriptionAgrees "aquaos/home-reef/v1/home-assistant/+/set" := by
  intro hagrees
  have hreturned : homeReef.subscriptionFilter .haCommand =
      .ok ("aquaos/home-reef/v1/home-assistant/+/set",1) := by decide
  have hvalid := (hagrees.1 (by decide)).mpr ⟨.haCommand,1,hreturned⟩
  exact absurd hvalid (by decide)

end Subscriptions

end Mqtt
end AquaOS
