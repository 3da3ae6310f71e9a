import AquaOS.Discovery
import AquaOS.Transition

/-! What a run of `Refresh` calls leaves at the broker, with publications that fail anywhere: which
discovery documents survive the entities they describe, and for which inventories a `Refresh` can
succeed at all. -/
namespace AquaOS
namespace HomeAssistant

open Domain Mqtt Transition

variable {P : Type}

section Steps

variable {encoder : Encoder} {json : Json P} {s : Session} {e : Round} {es : List Entity}

theorem refresh_cases (encoder : Encoder) (json : Json P) (s : Session) (e : Round) :
    (∃ err, s.manager.entities encoder e.inventory = .error err ∧
      s.refresh encoder json e = (some err,s)) ∨
    ∃ es allowed, s.manager.entities encoder e.inventory = .ok (es,allowed) ∧
      ((∃ err l, publishEntities s.manager.registry s.link es [] = (.error err,l) ∧
        s.refresh encoder json e = (some err,⟨s.manager,l⟩)) ∨
      ∃ next l, publishEntities s.manager.registry s.link es [] = (.ok next,l) ∧
        s.refresh encoder json e =
          (((s.manager.replaced next allowed).settle json e s.manager.published l).1,
            ⟨s.manager.replaced next allowed,
              ((s.manager.replaced next allowed).settle json e s.manager.published l).2⟩)) := by
  unfold Session.refresh
  cases hes : s.manager.entities encoder e.inventory with
  | error err => exact .inl ⟨err,rfl,rfl⟩
  | ok result =>
    obtain ⟨es,allowed⟩ := result
    refine .inr ⟨es,allowed,rfl,?_⟩
    dsimp only
    rcases publishEntities s.manager.registry s.link es [] with ⟨err | next,l⟩
    · exact .inl ⟨err,l,rfl,rfl⟩
    · exact .inr ⟨next,l,rfl,rfl⟩

def Session.Tracked (s : Session) : Prop := ∀ key ∈ s.manager.published, Known key

def Session.Covered (s : Session) : Prop := ∀ key, s.link.Holds key → key ∈ s.manager.published

/-- No `Refresh` that ends early strands a payload: one that stops publishing has so far published
nothing new, and one that has published everything can remove what is obsolete. -/
def Session.Kept (encoder : Encoder) (s : Session) (e : Round) : Prop :=
  ∀ result ∈ (s.manager.entities encoder e.inventory).toOption,
    let es := result.1
    if delivered s.link.answers es = es then
      ∀ n < (s.manager.published.filter (· ∉ es.map Entity.key)).length,
        s.link.answers (es.length+n) = none
    else ∀ x ∈ delivered s.link.answers es, x.key ∈ s.manager.published

theorem known_of_delivered {answers : ℕ → Option Failure}
    (h : delivered answers es = es) : ∀ key ∈ es.map Entity.key, Known key := by
  intro key hkey
  obtain ⟨x,hx,rfl⟩ := List.mem_map.mp hkey
  rw [← h] at hx
  exact ⟨x.component,x.objectID,rfl,delivered_addressable x hx⟩

theorem step_tracked (s : Session) (e : Round) (h : s.Tracked) :
    (s.step encoder json e).Tracked := by
  rcases refresh_cases encoder json s e with
    ⟨err,_,heq⟩ | ⟨es,allowed,_,⟨err,l,_,heq⟩ | ⟨next,l,hpublish,heq⟩⟩
  · rwa [Session.step,heq]
  · rwa [Session.step,heq]
  · rw [Session.step,heq]
    intro key hkey
    have hmem := ((publishEntities_inv hpublish).1 key).mp hkey
    exact known_of_delivered (publishEntities_ok_iff.mp ⟨next,l,hpublish⟩) key
      (by simpa using hmem)

theorem published_holds {m : Manager} {inventory : Inventory}
    {allowed : Table String EquipmentID} (hes : m.entities encoder inventory = .ok (es,allowed))
    {l l' : Link} {next : List String} {result : Except Failure (List String)}
    (h : publishEntities m.registry l es next = (result,l')) (key : String) :
    l'.Holds key ↔ key ∈ (delivered l.answers es).map Entity.key ∨ l.Holds key := by
  have hholds : (publishEntities m.registry l es next).2.Holds key ↔ _ :=
    publishEntities_holds (fun x hx => entities_payload hes hx) key
  rwa [h] at hholds

theorem step_covered (htracked : s.Tracked) (hkept : s.Kept encoder e) (h : s.Covered) :
    (s.step encoder json e).Covered := by
  rcases refresh_cases encoder json s e with
    ⟨err,_,heq⟩ | ⟨es,allowed,hes,⟨err,l,hpublish,heq⟩ | ⟨next,l,hpublish,heq⟩⟩
  · rwa [Session.step,heq]
  · rw [Session.step,heq]
    intro key hholds
    have hdelivered : delivered s.link.answers es ≠ es := by
      intro hall
      obtain ⟨_,_,hok⟩ := publishEntities_ok_iff.mpr hall
      rw [hok] at hpublish
      cases hpublish
    have hkept := hkept (es,allowed) (by rw [hes]; rfl)
    simp only [if_neg hdelivered] at hkept
    rcases (published_holds hes hpublish key).mp hholds with hmem | hheld
    · obtain ⟨x,hx,rfl⟩ := List.mem_map.mp hmem
      exact hkept x hx
    · exact h key hheld
  · rw [Session.step,heq]
    intro key hholds
    have hdelivered := publishEntities_ok_iff.mp ⟨next,l,hpublish⟩
    obtain ⟨hnext,hanswers⟩ := publishEntities_inv hpublish
    simp only [List.not_mem_nil,or_false] at hnext
    have hsame : s.manager.published.filter (· ∉ next) =
        s.manager.published.filter (· ∉ es.map Entity.key) := by
      simp only [hnext]
    have hkept := hkept (es,allowed) (by rw [hes]; rfl)
    simp only [if_pos hdelivered,← hsame,← hanswers] at hkept
    have hback : key ∈ s.manager.published → key ∈ next :=
      settle_obsolete (m := s.manager.replaced next allowed) htracked hkept hholds
    rcases (published_holds hes hpublish key).mp (settle_holds hholds) with hmem | hheld
    · rw [hdelivered] at hmem
      exact (hnext key).mpr hmem
    · exact hback (h key hheld)

theorem refresh_none (htracked : s.Tracked) (h : (s.refresh encoder json e).1 = none) :
    ∃ es allowed, s.manager.entities encoder e.inventory = .ok (es,allowed) ∧
      (∀ x ∈ es, x.Addressable) ∧
      (∀ x ∈ s.manager.cfg.tombstones.map Tombstone.pair,
        Addressable x.1 x.2) ∧
      (∀ t ∈ s.manager.cfg.tombstones, t.key ∉ es.map Entity.key) ∧
      (∃ payload, s.manager.statusPayload json e = .ok payload) ∧
      ∀ key, (s.refresh encoder json e).2.link.Holds key ↔
        (key ∈ es.map Entity.key ∨ s.link.Holds key) ∧
          (key ∈ s.manager.published → key ∈ es.map Entity.key) ∧
          key ∉ s.manager.cfg.tombstones.map Tombstone.key := by
  rcases refresh_cases encoder json s e with
    ⟨err,_,heq⟩ | ⟨es,allowed,hes,⟨err,l,_,heq⟩ | ⟨next,l,hpublish,heq⟩⟩
  · simp [heq] at h
  · simp [heq] at h
  · rw [heq] at h ⊢
    have hdelivered := publishEntities_ok_iff.mp ⟨next,l,hpublish⟩
    have hnext := (publishEntities_inv hpublish).1
    simp only [List.not_mem_nil,or_false] at hnext
    obtain ⟨htombstones,hapart,hstatus,hholds⟩ := settle_none htracked h
    refine ⟨es,allowed,hes,?_,htombstones,?_,hstatus,fun key => ?_⟩
    · rw [← hdelivered]
      exact delivered_addressable
    · exact fun t ht => (hnext t.key).not.mp (hapart t ht)
    · rw [hholds key,published_holds hes hpublish,hdelivered]
      exact and_congr_right' (and_congr_left' (imp_congr_right fun _ => hnext key))

end Steps

section Topics

/-- The discovery topics of some components and object IDs. -/
def topics (r : Registry) (pairs : List (String × String)) : Set String :=
  {t | ∃ x ∈ pairs, ∃ p, r.haDiscovery x.1 x.2 = .ok (t,p)}

/-- The discovery topics that were given a payload and still have one. -/
def survivors (r : Registry) (l : Link) : Set String :=
  {t | (∃ component objectID p, r.haDiscovery component objectID = .ok (t,p)) ∧
    t ∈ l.offered ∧ l.retained t ≠ []}

def Entity.pair (e : Entity) : String × String := (e.component,e.objectID)

/-- The filled discovery topics are those of the entities. -/
def Exact (r : Registry) (l : Link) (es : List Entity) : Prop :=
  survivors r l = topics r (es.map Entity.pair)

/-- Each filled topic is that of a published entity, of a tombstone or of one of the entities. -/
def Session.Remembers (s : Session) (es : List Entity) : Prop :=
  survivors s.manager.registry s.link ⊆
    topics s.manager.registry (s.manager.published.map splitKey) ∪
      topics s.manager.registry (s.manager.cfg.tombstones.map Tombstone.pair) ∪
        topics s.manager.registry (es.map Entity.pair)

theorem survivors_eq (r : Registry) (l : Link) :
    survivors r l = discoveryTopic '' {key | Known key ∧ l.Holds key} := by
  ext t
  constructor
  · rintro ⟨⟨component,objectID,p,hd⟩,hoffered,hretained⟩
    obtain ⟨hpatterns,rfl⟩ := haDiscovery_inv hd
    exact ⟨_,⟨⟨component,objectID,rfl,hpatterns⟩,hoffered,hretained⟩,rfl⟩
  · rintro ⟨key,⟨⟨component,objectID,rfl,hpatterns⟩,hholds⟩,rfl⟩
    exact ⟨⟨component,objectID,_,haDiscovery_eq r hpatterns⟩,hholds⟩

theorem topics_eq (r : Registry) {pairs : List (String × String)}
    (h : ∀ x ∈ pairs, Addressable x.1 x.2) :
    topics r pairs = discoveryTopic '' {key | key ∈ pairs.map fun x => entityKey x.1 x.2} := by
  ext t
  constructor
  · rintro ⟨x,hx,p,hd⟩
    exact ⟨_,List.mem_map.mpr ⟨x,hx,rfl⟩,(haDiscovery_inv hd).2.symm⟩
  · rintro ⟨key,hkey,rfl⟩
    obtain ⟨x,hx,rfl⟩ := List.mem_map.mp hkey
    exact ⟨x,hx,_,haDiscovery_eq r (h x hx)⟩

theorem topics_entities (r : Registry) {es : List Entity} (h : ∀ x ∈ es, x.Addressable) :
    topics r (es.map Entity.pair) = discoveryTopic '' {key | key ∈ es.map Entity.key} := by
  rw [topics_eq r (List.forall_mem_map.mpr h),List.map_map]
  rfl

theorem topics_tombstones (r : Registry) {ts : List Tombstone}
    (h : ∀ x ∈ ts.map Tombstone.pair, Addressable x.1 x.2) :
    topics r (ts.map Tombstone.pair) = discoveryTopic '' {key | key ∈ ts.map Tombstone.key} := by
  rw [topics_eq r h,List.map_map]
  rfl

theorem topics_published (r : Registry) {keys : List String} (h : ∀ key ∈ keys, Known key) :
    topics r (keys.map splitKey) = discoveryTopic '' {key | key ∈ keys} := by
  ext t
  simp only [topics,Set.mem_ofPred_eq,List.mem_map,exists_exists_and_eq_and,Set.mem_image]
  constructor
  · rintro ⟨key,hkey,p,hd⟩
    rw [haDiscovery_splitKey r (h key hkey)] at hd
    cases hd
    exact ⟨key,hkey,rfl⟩
  · rintro ⟨key,hkey,rfl⟩
    exact ⟨key,hkey,_,haDiscovery_splitKey r (h key hkey)⟩

end Topics

section Runs

variable {encoder : Encoder} {json : Json P} {s : Session} {e : Round} {es : List Entity}
  {m : Manager}

/-- A removed entity survives a `Refresh` without error only if nobody remembers it. -/
theorem refresh_exact_iff (htracked : s.Tracked) (h : (s.refresh encoder json e).1 = none)
    {allowed : Table String EquipmentID}
    (hes : s.manager.entities encoder e.inventory = .ok (es,allowed)) :
    Exact s.manager.registry (s.refresh encoder json e).2.link es ↔ s.Remembers es := by
  obtain ⟨es',allowed',hes',haddressable,htombstones,hapart,-,hholds⟩ := refresh_none htracked h
  rw [hes] at hes'
  cases hes'
  have hknown : ∀ key ∈ es.map Entity.key, Known key := by
    intro key hkey
    obtain ⟨x,hx,rfl⟩ := List.mem_map.mp hkey
    exact ⟨x.component,x.objectID,rfl,haddressable x hx⟩
  have hdisjoint : ∀ key ∈ s.manager.cfg.tombstones.map Tombstone.key,
      key ∉ es.map Entity.key := List.forall_mem_map.mpr hapart
  rw [Exact,Session.Remembers,survivors_eq,survivors_eq,topics_entities _ haddressable,topics_tombstones _ htombstones,
    topics_published _ htracked,← Set.image_union,← Set.image_union,
    (Set.image_injective.mpr discoveryTopic_injective).eq_iff,
    Set.image_subset_image_iff discoveryTopic_injective,Set.ext_iff,Set.subset_def]
  refine forall_congr' fun key => ?_
  simp only [Set.mem_ofPred_eq,Set.mem_union,hholds key]
  have h₁ := hknown key
  have h₂ := hdisjoint key
  grind

theorem newManager_fresh {cfg : Config} {now : ℤ}
    (h : newManager cfg now = .ok m) : m.published = [] ∧ m.allowed = ∅ ∧ m.cfg = cfg := by
  unfold newManager at h
  split_ifs at h
  split at h
  · cases h
  · split at h
    · cases h
    · cases h
      exact ⟨rfl,rfl,rfl⟩

theorem run_tracked (h : m.published = []) (l : Link) (rounds : List Round) :
    (run (Session.step encoder json) ⟨m,l⟩ rounds).Tracked := by
  refine invariant_always (I := Session.Tracked) step_tracked ?_ rounds
  intro key hkey
  simp [h] at hkey

/-- A run in which no early end strands a payload. -/
theorem run_covered (h : m.published = []) {l : Link} (hl : l.offered = []) {rounds : List Round}
    (hkept : Guarded (Session.step encoder json) (Session.Kept encoder) ⟨m,l⟩ rounds) :
    (run (Session.step encoder json) ⟨m,l⟩ rounds).Covered := by
  have htracked : (⟨m,l⟩ : Session).Tracked := fun key hkey => by simp [h] at hkey
  have hcovered : (⟨m,l⟩ : Session).Covered := fun key hholds => by simp [Link.Holds,hl] at hholds
  have hboth := guarded_and_invariant (fun s e ht _ => step_tracked s e ht) htracked hkept
  exact invariant_run (fun s e hc hk => step_covered hk.2 hk.1 hc) hcovered hboth

theorem delivered_all {answers : ℕ → Option Failure} (h : ∀ x ∈ es, x.Addressable)
    (hanswers : ∀ n, answers n = none) : delivered answers es = es := by
  induction es generalizing answers with
  | nil => rfl
  | cons x es ih =>
    obtain ⟨hx,hes⟩ := List.forall_mem_cons.mp h
    rw [delivered,if_pos ⟨hx,hanswers 0⟩,ih hes fun n => hanswers (n+1)]

/-- A transport that works strands nothing, if every entity has a topic. -/
theorem kept_of_working (hanswers : ∀ n, s.link.answers n = none)
    (h : ∀ result ∈ (s.manager.entities encoder e.inventory).toOption,
      ∀ x ∈ result.1, x.Addressable) : s.Kept encoder e := by
  intro result hresult
  rw [if_pos (delivered_all (h result hresult) hanswers)]
  exact fun n _ => hanswers _

/-- In every run, after a `Refresh` without error the discovery topics this manager has filled are
those of the current entities if and only if before it each was the topic of a published entity, of
a tombstone or of a current entity; and they are if no earlier `Refresh` stranded a payload. -/
theorem survivors_exact_iff (encoder : Encoder) (json : Json P) {cfg : Config} {now : ℤ}
    {m : Manager} (hm : newManager cfg now = .ok m) (answers : ℕ → Option Failure)
    (retained : String → List UInt8) (rounds : List Round) (e : Round)
    {es : List Entity} {allowed : Table String EquipmentID} :
    let s := run (Session.step encoder json) ⟨m,{ answers, retained }⟩ rounds
    (s.refresh encoder json e).1 = none →
    s.manager.entities encoder e.inventory = .ok (es,allowed) →
    (Exact s.manager.registry (s.refresh encoder json e).2.link es ↔ s.Remembers es) ∧
      (Guarded (Session.step encoder json) (Session.Kept encoder) ⟨m,{ answers, retained }⟩ rounds →
        Exact s.manager.registry (s.refresh encoder json e).2.link es) := by
  intro s h hes
  have hfresh := (newManager_fresh hm).1
  have htracked : s.Tracked := run_tracked hfresh _ rounds
  have hiff := refresh_exact_iff htracked h hes
  refine ⟨hiff,fun hkept => hiff.mpr ?_⟩
  have hcovered : s.Covered := run_covered hfresh rfl hkept
  rw [Session.Remembers,survivors_eq,topics_published _ htracked]
  rintro t ⟨key,⟨_,hholds⟩,rfl⟩
  exact .inl (.inl ⟨key,hcovered key hholds,rfl⟩)

section Samples

open Mqtt.EventExporter (quoted member object booleanJson)

/-- The only escape that the documents need. -/
def escaped (text : String) : String :=
  String.ofList (text.toList.flatMap fun c => if c = '>' then "\\u003e".toList else [c])

def optional (name value : String) : List String :=
  if value = "" then [] else [member name (quoted (escaped value))]

def deviceText (d : HaDevice) : String :=
  object [member "identifiers" ("["++String.intercalate "," (d.identifiers.map quoted)++"]"),
    member "name" (quoted d.name),member "manufacturer" (quoted d.manufacturer),
    member "model" (quoted d.model)]

def documentText (p : DiscoveryPayload) : String :=
  object ([member "name" (quoted p.name),member "unique_id" (quoted p.uniqueID),
      member "object_id" (quoted p.suggestedObjectID),member "state_topic" (quoted p.stateTopic)]++
    optional "command_topic" p.commandTopic++
    [member "availability_topic" (quoted p.availabilityTopic)]++
    optional "value_template" p.valueTemplate++optional "payload_on" p.payloadOn++
    optional "payload_off" p.payloadOff++optional "unit_of_measurement" p.unitOfMeasurement++
    optional "device_class" p.deviceClass++optional "state_class" p.stateClass++
    [member "device" (deviceText p.device)])

theorem object_nonempty (members : List String) : bytes (object members) ≠ [] := by
  have hbrace : bytes "\x7b" ≠ [] := by decide
  simp [object,bytes_append,hbrace]

/-- JSON for documents whose texts need no other escape. -/
def documentEncoder : Encoder where
  marshal p := bytes (documentText p)
  nonempty _ := object_nonempty _

def testReef : Config :=
  { siteID := "test-reef", commandTTL := 10*Configuration.second, maximumPayload := 65536 }

def fishRoomNode : Registries.Device :=
  { id := "11111111-1111-4111-8111-111111111111", name := "Fish room node"
    capabilities := [.observe,.switch] }

def waterTemperature (id : SensorID) : Registries.Sensor :=
  { id, deviceID := fishRoomNode.id, endpointID := "44444444-4444-4444-8444-444444444444"
    name := "Water temperature", quantity := .temperature, unit := .celsius
    capabilities := [.observe] }

def lamp : Registries.Equipment :=
  { id := "33333333-3333-4333-8333-333333333333", deviceID := fishRoomNode.id
    endpointID := "44444444-4444-4444-8444-444444444444", name := "Lamp", capabilities := [.switch] }

def testRound (sensors : List Registries.Sensor) (equipment : List Registries.Equipment) : Round :=
  { inventory := ⟨.ok [fishRoomNode],.ok sensors,.ok equipment⟩
    order := id, perm := fun keys => .refl keys, alarms := none, ctx := none
    correlationID := .ok "00000000-0000-4000-8000-000000000009", now := 1 }

def emptyLink (answers : ℕ → Option Failure) : Link := { answers, retained := fun _ => [] }

theorem testReef_ttl : 0 < testReef.commandTTL ∧ testReef.commandTTL ≤ Configuration.minute := by
  decide

theorem testReef_segment : topicSegmentPattern "test-reef" = true := by decide

theorem testReef_site : "test-reef" = testReef.siteID := rfl

def testManager : Manager where
  cfg := testReef
  registry := ⟨"test-reef",testReef_segment⟩
  codec := ⟨"test-reef",65536,1,testReef_segment,Mqtt.EventExporter.sampleLimit_bounded⟩
  site := testReef_site
  ttl := testReef_ttl

theorem newManager_testReef : newManager testReef 1 = .ok testManager := by
  rfl

def waterProbe : Registries.Sensor := waterTemperature "22222222-2222-4222-8222-222222222222"

def testRun (answers : ℕ → Option Failure) (e : Round) : Session :=
  run (Session.step documentEncoder booleanJson) ⟨testManager,emptyLink answers⟩ [e]

theorem testRun_entities {answers : ℕ → Option Failure} {e e' : Round}
    (h : ((testRun answers e).manager.entities documentEncoder e'.inventory).isOk = true) :
    ∃ es allowed, (testRun answers e).manager.entities documentEncoder e'.inventory =
      .ok (es,allowed) := by
  cases hes : (testRun answers e).manager.entities documentEncoder e'.inventory with
  | error err =>
    rw [hes] at h
    cases h
  | ok result => exact ⟨result.1,result.2,rfl⟩

theorem removed_lamp_cleared :
    let s := testRun (fun _ => none) (testRound [waterProbe] [lamp])
    let result := s.refresh documentEncoder booleanJson (testRound [waterProbe] [])
    result.1 = none ∧ ∃ es allowed,
      s.manager.entities documentEncoder (testRound [waterProbe] []).inventory = .ok (es,allowed) ∧
        Exact s.manager.registry result.2.link es := by
  have hnone : ((testRun (fun _ => none) (testRound [waterProbe] [lamp])).refresh documentEncoder
      booleanJson (testRound [waterProbe] [])).1 = none := by decide +kernel
  obtain ⟨es,allowed,hes⟩ : ∃ es allowed, (testRun (fun _ => none)
      (testRound [waterProbe] [lamp])).manager.entities documentEncoder
      (testRound [waterProbe] []).inventory = .ok (es,allowed) :=
    testRun_entities (by decide)
  have hkept : Guarded (Session.step documentEncoder booleanJson) (Session.Kept documentEncoder)
      ⟨testManager,emptyLink fun _ => none⟩ [testRound [waterProbe] [lamp]] :=
    ⟨kept_of_working (fun _ => rfl) (by decide),trivial⟩
  refine ⟨hnone,es,allowed,hes,?_⟩
  unfold testRun emptyLink at *
  exact (survivors_exact_iff documentEncoder booleanJson newManager_testReef
    (fun _ => none) (fun _ => []) [testRound [waterProbe] [lamp]] (testRound [waterProbe] [])
    hnone hes).2 hkept

def failsAt (k : ℕ) (n : ℕ) : Option Failure := if n = k then some (.external "broker") else none

/-- The transport fails at the second publication of a first `Refresh`; the probe published by the
first is then removed, and the next `Refresh` neither fails nor clears it. -/
theorem forgotten_probe_survives :
    let s := testRun (failsAt 1) (testRound [waterProbe] [])
    let result := s.refresh documentEncoder booleanJson (testRound [] [])
    let t := "homeassistant/sensor/sensor-22222222-2222-4222-8222-222222222222/config"
    result.1 = none ∧ t ∈ survivors s.manager.registry result.2.link ∧
      ∀ es allowed, s.manager.entities documentEncoder (testRound [] []).inventory =
        .ok (es,allowed) → t ∉ topics s.manager.registry (es.map Entity.pair) := by
  have hcurrent : (((testRun (failsAt 1) (testRound [waterProbe] [])).manager.entities
      documentEncoder (testRound [] []).inventory).toOption.map fun x => x.1.map Entity.pair) =
      some [("sensor","aquaos-test-reef-core"),("binary_sensor","aquaos-test-reef-alarm"),
        ("binary_sensor","aquaos-test-reef-notification")] := by decide
  refine ⟨by decide +kernel,⟨⟨"sensor","sensor-22222222-2222-4222-8222-222222222222",
    discoveryPolicy,by decide +kernel⟩,by decide +kernel,by decide +kernel⟩,?_⟩
  intro es allowed hes
  rw [hes] at hcurrent
  simp only [Except.toOption,Option.map_some,Option.some.injEq] at hcurrent
  rw [hcurrent]
  rintro ⟨x,hx,p,hd⟩
  have hdiffer : ∀ x ∈ [("sensor","aquaos-test-reef-core"),("binary_sensor","aquaos-test-reef-alarm"),
      ("binary_sensor","aquaos-test-reef-notification")],
      "homeassistant/sensor/sensor-22222222-2222-4222-8222-222222222222/config" ≠
        discoveryTopic (entityKey x.1 x.2) := by decide
  exact hdiffer x hx (haDiscovery_inv hd).2

end Samples

/-- With a transport that works a `Refresh` succeeds exactly if the inventory has entities with
discovery topics, the tombstones have topics of their own and there is a status to tell. -/
theorem refresh_succeeds_iff (htracked : s.Tracked) (hanswers : ∀ n, s.link.answers n = none)
    {devices : List Registries.Device} {sensors : List Registries.Sensor}
    {equipment : List Registries.Equipment}
    (hinventory : e.inventory = ⟨.ok devices,.ok sensors,.ok equipment⟩) :
    (s.refresh encoder json e).1 = none ↔ s.manager.Discoverable encoder e.inventory ∧
      (∀ t ∈ s.manager.cfg.tombstones, Addressable t.component t.objectID ∧
        t.key ∉ entityKeys s.manager.cfg.siteID sensors equipment) ∧
      ∃ payload, s.manager.statusPayload json e = .ok payload := by
  unfold Manager.Discoverable
  simp only [haDiscovery_isOk_iff]
  constructor
  · intro h
    obtain ⟨es,allowed,hes,haddressable,htombstones,hapart,hstatus,_⟩ := refresh_none htracked h
    refine ⟨⟨es,allowed,hes,haddressable⟩,fun t ht => ⟨?_,?_⟩,hstatus⟩
    · exact htombstones t.pair (List.mem_map_of_mem ht)
    · rw [hinventory] at hes
      rw [← entities_keys hes]
      exact hapart t ht
  · rintro ⟨⟨es,allowed,hes,haddressable⟩,htombstones,hstatus⟩
    obtain ⟨next,l,hpublish⟩ : ∃ next l,
        publishEntities s.manager.registry s.link es [] = (.ok next,l) :=
      publishEntities_ok_iff.mpr (delivered_all haddressable hanswers)
    obtain ⟨hnext,hlater⟩ := publishEntities_inv hpublish
    simp only [List.not_mem_nil,or_false] at hnext
    simp only [Session.refresh,hes,hpublish]
    rw [hinventory] at hes
    refine settle_succeeds (m := s.manager.replaced next allowed) htracked
      (fun n => by rw [hlater n,hanswers]) ?_ ?_ hstatus
    · intro x hx
      obtain ⟨t,ht,rfl⟩ := List.mem_map.mp hx
      exact (htombstones t ht).1
    · intro t ht
      rw [Manager.replaced,hnext t.key,entities_keys hes]
      exact (htombstones t ht).2

theorem run_settings (m : Manager) (l : Link) (rounds : List Round) : ∃ published allowed lastErr,
      (run (Session.step encoder json) ⟨m,l⟩ rounds).manager = { m with published, allowed, lastErr } := by
  refine invariant_always
    (I := fun s : Session => ∃ published allowed lastErr,
      s.manager = { m with published, allowed, lastErr })
    (fun s e hs => ?_) ⟨_,_,_,rfl⟩ rounds
  obtain ⟨published,allowed,lastErr,hs⟩ := hs
  rcases refresh_cases encoder json s e with
    ⟨err,_,heq⟩ | ⟨es,allowed,_,⟨err,l,_,heq⟩ | ⟨next,l,_,heq⟩⟩
  · exact ⟨_,_,_,by rw [Session.step,heq,hs]⟩
  · exact ⟨_,_,_,by rw [Session.step,heq,hs]⟩
  · refine ⟨next,allowed,none,?_⟩
    rw [Session.step,heq,Manager.replaced,hs]

/-- For every inventory the registries accept there are entities, each with a discovery topic, if
and only if the site is short enough and all identifiers are spelled in lower case. A `Refresh` with
a transport that works succeeds if and only if besides every tombstone has a topic, which is that of
no entity, and the status message encodes. -/
theorem discovery_served_iff (encoder : Encoder) (json : Json P) {cfg : Config} {now : ℤ}
    {m : Manager} (hm : newManager cfg now = .ok m) (devices : List Registries.Device)
    {sensors : List Registries.Sensor} {equipment : List Registries.Equipment}
    (hs : ∀ x ∈ sensors, ∃ owners, Registries.validateSensor owners none x = none)
    (hq : ∀ x ∈ equipment, ∃ owners, Registries.validateEquipment owners none x = none) :
    (m.Discoverable encoder ⟨.ok devices,.ok sensors,.ok equipment⟩ ↔
      Nameable cfg.siteID sensors equipment) ∧
    ∀ (l : Link) (rounds : List Round) (e : Round),
      let s := run (Session.step encoder json) ⟨m,l⟩ rounds
      e.inventory = ⟨.ok devices,.ok sensors,.ok equipment⟩ → (∀ n, s.link.answers n = none) →
      ((s.refresh encoder json e).1 = none ↔ Nameable cfg.siteID sensors equipment ∧
        (∀ t ∈ cfg.tombstones, Addressable t.component t.objectID ∧
          t.key ∉ entityKeys cfg.siteID sensors equipment) ∧
        ∃ payload, m.statusPayload json e = .ok payload) := by
  obtain ⟨hfresh,_,hcfg⟩ := newManager_fresh hm
  have hs' : ∀ x ∈ sensors, validateID x.id = none := fun x hx =>
    (hs x hx).elim fun _ h => validateSensor_id h
  have hq' : ∀ x ∈ equipment, validateID x.id = none := fun x hx =>
    (hq x hx).elim fun _ h => validateEquipment_id h
  rw [← hcfg]
  refine ⟨discoverable_iff m encoder devices hs' hq',?_⟩
  intro l rounds e s hinventory hanswers
  obtain ⟨published,allowed,lastErr,hmanager⟩ : ∃ published allowed lastErr,
    s.manager = { m with published, allowed, lastErr } := run_settings m l rounds
  rw [refresh_succeeds_iff (run_tracked hfresh l rounds) hanswers hinventory,hinventory,
    discoverable_iff s.manager encoder devices hs' hq',hmanager]
  rfl

section Samples

open Mqtt.EventExporter (booleanJson)
open Registries (Devices validateSensor validateEquipment)

def fishRoom : Devices :=
  let node := (Devices.register {} {} fishRoomNode).registry
  (node.registerEndpoint {} { id := waterProbe.endpointID, deviceID := fishRoomNode.id
                              name := "Node", capabilities := [.observe,.switch] }).registry

/-- The site has a tombstone for a lamp of another name. -/
def buriedReef : Config := { testReef with tombstones := [⟨"switch","equipment-old-lamp"⟩] }

theorem buriedReef_site : "test-reef" = buriedReef.siteID := rfl

def buriedManager : Manager where
  cfg := buriedReef
  registry := testManager.registry
  codec := testManager.codec
  site := buriedReef_site
  ttl := testReef_ttl

theorem test_reef_served :
    buriedManager.Discoverable documentEncoder ⟨.ok [fishRoomNode],.ok [waterProbe],.ok [lamp]⟩ ∧
      (Session.refresh documentEncoder booleanJson ⟨buriedManager,emptyLink fun _ => none⟩
        (testRound [waterProbe] [lamp])).1 = none := by
  have hsensor : validateSensor fishRoom none waterProbe = none := by decide
  have hequipment : validateEquipment fishRoom none lamp = none := by decide
  have hm : newManager buriedReef 1 = .ok buriedManager := rfl
  obtain ⟨hentities,hrefresh⟩ := discovery_served_iff documentEncoder booleanJson hm
    [fishRoomNode] (List.forall_mem_singleton.mpr ⟨fishRoom,hsensor⟩)
    (List.forall_mem_singleton.mpr ⟨fishRoom,hequipment⟩)
  have hnameable : Nameable buriedReef.siteID [waterProbe] [lamp] := by decide
  have hstatus : (buriedManager.statusPayload booleanJson
      (testRound [waterProbe] [lamp])).isOk = true := by decide +kernel
  refine ⟨hentities.mpr hnameable,(hrefresh (emptyLink fun _ => none) []
    (testRound [waterProbe] [lamp]) rfl fun _ => rfl).mpr ⟨hnameable,?_,?_⟩⟩
  · exact List.forall_mem_singleton.mpr ⟨⟨by decide,by decide⟩,by decide⟩
  · cases hpayload : buriedManager.statusPayload booleanJson (testRound [waterProbe] [lamp]) with
    | error err =>
      rw [hpayload] at hstatus
      cases hstatus
    | ok payload => exact ⟨payload,rfl⟩

def longSite : String := "aquarium-number-twelve-in-the-northern-annex"

def longReef : Config := { testReef with siteID := longSite }

theorem longReef_segment : topicSegmentPattern longSite = true := by decide

theorem longReef_site : longSite = longReef.siteID := rfl

def longManager : Manager where
  cfg := longReef
  registry := ⟨longSite,longReef_segment⟩
  codec := ⟨longSite,65536,1,longReef_segment,Mqtt.EventExporter.sampleLimit_bounded⟩
  site := longReef_site
  ttl := testReef_ttl

def longConfig : Configuration.Config :=
  { App.hotTankConfig [] with mqtt := { (App.hotTankConfig []).mqtt with siteID := longSite } }

/-- The registry takes an ID in capitals and there are no entities; the configuration takes a long
site and an entity of the core has no topic, where a `Refresh` stops although the transport works. -/
theorem capital_probe_and_long_site_unserved :
    validateSensor fishRoom none (waterTemperature "AAAAAAAA-AAAA-4AAA-8AAA-AAAAAAAAAAAA") = none ∧
      (testManager.entities documentEncoder ⟨.ok [fishRoomNode],
          .ok [waterTemperature "AAAAAAAA-AAAA-4AAA-8AAA-AAAAAAAAAAAA"],.ok []⟩).isOk = false ∧
      longConfig.validate App.hotTankLibrary = none ∧
      newManager longReef 1 = .ok longManager ∧
      ((longManager.entities documentEncoder ⟨.ok [],.ok [],.ok []⟩).toOption.map fun x =>
        x.1.map fun e => (longManager.registry.haDiscovery e.component e.objectID).isOk) =
          some [true,true,false] ∧
      (Session.refresh documentEncoder booleanJson ⟨longManager,emptyLink fun _ => none⟩
          (testRound [] [])).1 =
        some (.message "component and object ID for Home Assistant must be lowercase kebab-case") := by
  exact ⟨by decide,by decide,by decide +kernel,rfl,by decide,
    by decide⟩

end Samples

end Runs

end HomeAssistant
end AquaOS
