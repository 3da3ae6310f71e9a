import AquaOS.HomeAssistant

/-! Refreshing the retained discovery documents. The set of published entities is replaced between
the publications and the removal of what is gone, and each publication can fail. -/
namespace AquaOS
namespace HomeAssistant

open Domain Mqtt

/-- The connection to the broker: what the transport will answer, the retained payloads, the empty
one where nothing is held, and the topics this side ever gave a payload to. -/
structure Link where
  answers : ℕ → Option Failure
  retained : String → List UInt8
  offered : List String := []

def Link.publish (l : Link) (topic : String) (policy : Policy) (payload : List UInt8) :
    Option Failure × Link :=
  let rest : Link := { l with answers := fun n => l.answers (n+1) }
  match l.answers 0 with
  | some err => (some err,rest)
  | none => (none,{ rest with
      retained := if policy.retained then Function.update l.retained topic payload else l.retained
      offered := if payload = [] then l.offered else topic::l.offered })

/-- Going on with the connection unless there was an error. -/
def andThen (x : Option Failure × Link) (f : Link → Option Failure × Link) :
    Option Failure × Link :=
  match x with
  | (some err,l) => (some err,l)
  | (none,l) => f l

def entityKey (component objectID : String) : String := component++"/"++objectID

def Entity.key (e : Entity) : String := entityKey e.component e.objectID

def Tombstone.key (t : Tombstone) : String := entityKey t.component t.objectID

/-- The two parts of `SplitN` at the first slash; every key has one. -/
def splitKey (key : String) : String × String :=
  (String.ofList (key.toList.takeWhile (· ≠ '/')),
    String.ofList ((key.toList.dropWhile (· ≠ '/')).drop 1))

/-- What a `Refresh` meets: the inventory, the order in which the map of published entities is
walked, the alarms, if there is an engine, a new correlation ID and the time. -/
structure Round where
  inventory : Inventory
  order : List String → List String
  perm : ∀ keys, (order keys).Perm keys
  alarms : Option Alarms.Manager
  ctx : Option Failure
  correlationID : Except Failure CorrelationID
  now : ℤ

section Loops

variable (r : Registry)

def publishEntities : Link → List Entity → List String → Except Failure (List String) × Link
  | l, [], next => (.ok next,l)
  | l, e::es, next =>
    match r.haDiscovery e.component e.objectID with
    | .error err => (.error err,l)
    | .ok (topic,policy) =>
      match l.publish topic policy e.payload with
      | (some err,l) => (.error (.wrapped "publish Home Assistant discovery" err),l)
      | (none,l) => publishEntities l es (next.insert e.key)

def clear (l : Link) (component objectID : String) : Option Failure × Link :=
  match r.haDiscovery component objectID with
  | .error err => (some err,l)
  | .ok (topic,policy) => l.publish topic policy []

def clearObsolete (next : List String) : Link → List String → Option Failure × Link
  | l, [] => (none,l)
  | l, key::keys =>
    if key ∈ next then clearObsolete next l keys
    else andThen (clear r l (splitKey key).1 (splitKey key).2) fun l => clearObsolete next l keys

def clearTombstones (next : List String) : Link → List Tombstone → Option Failure × Link
  | l, [] => (none,l)
  | l, t::ts =>
    if t.key ∈ next then
      (some (.message "home assistant tombstone conflicts with active entity"),l)
    else andThen (clear r l t.component t.objectID) fun l => clearTombstones next l ts

end Loops

variable {P : Type}

namespace Manager

/-- The payload of the status topic; without an engine no alarms are counted. -/
def statusPayload (m : Manager) (json : Json P) (e : Round) : Except Failure (List UInt8) := do
  let message ← match e.alarms with
    | none => .ok ⟨"online",0,0⟩
    | some engine => App.publishStatus m.cfg.notificationRuleIDs e.ctx engine
  let correlationID ← e.correlationID
  m.codec.encode json "ha-status" "home-assistant" correlationID e.now none none (.status message)

def publishStatus (m : Manager) (json : Json P) (e : Round) (l : Link) : Option Failure × Link :=
  match m.statusPayload json e with
  | .error err => (some err,l)
  | .ok payload => l.publish m.registry.haStatus.1 m.registry.haStatus.2 payload

/-- `Refresh` after it has replaced the published entities. -/
def settle (m : Manager) (json : Json P) (e : Round) (previous : List String) (l : Link) :
    Option Failure × Link :=
  andThen (clearObsolete m.registry m.published l (e.order previous)) fun l =>
    andThen (clearTombstones m.registry m.published l m.cfg.tombstones) fun l =>
      m.publishStatus json e l

end Manager

/-- The manager after it has published everything. -/
def Manager.replaced (m : Manager) (next : List String) (allowed : Table String EquipmentID) :
    Manager :=
  { m with published := next, allowed, lastErr := none }

structure Session where
  manager : Manager
  link : Link

def Session.refresh (encoder : Encoder) (json : Json P) (s : Session) (e : Round) :
    Option Failure × Session :=
  match s.manager.entities encoder e.inventory with
  | .error err => (some err,s)
  | .ok (es,allowed) =>
    match publishEntities s.manager.registry s.link es [] with
    | (.error err,l) => (some err,⟨s.manager,l⟩)
    | (.ok next,l) =>
      let m := s.manager.replaced next allowed
      let result := m.settle json e s.manager.published l
      (result.1,⟨m,result.2⟩)

def Session.step (encoder : Encoder) (json : Json P) (s : Session) (e : Round) : Session :=
  (s.refresh encoder json e).2

section Keys

def discoveryTopic (key : String) : String := "homeassistant/"++key++"/config"

def discoveryPolicy : Policy := { purpose := .haDiscovery, qos := 1, retained := true }

theorem discoveryTopic_eq (key : String) :
    discoveryTopic key = "homeassistant/"++key++"/config" := rfl

theorem discoveryTopic_injective : Function.Injective discoveryTopic := by
  intro key key' h
  have h := congrArg String.toList h
  simp only [discoveryTopic_eq,String.toList_append] at h
  exact String.toList_injective (List.append_cancel_left (List.append_cancel_right h))

def Known (key : String) : Prop :=
  ∃ component objectID, key = entityKey component objectID ∧
    Addressable component objectID

variable {component objectID : String}

theorem haDiscovery_eq (r : Registry) (h : Addressable component objectID) :
    r.haDiscovery component objectID =
      .ok (discoveryTopic (entityKey component objectID),discoveryPolicy) := by
  simp [Registry.haDiscovery,h.1,h.2,discoveryTopic_eq,discoveryPolicy,entityKey,
    String.append_assoc]

theorem haDiscovery_inv {r : Registry} {t : String} {p : Policy}
    (h : r.haDiscovery component objectID = .ok (t,p)) : Addressable component objectID ∧
      t = discoveryTopic (entityKey component objectID) := by
  have hpatterns := haDiscovery_isOk_iff.mp ⟨t,p,h⟩
  rw [haDiscovery_eq r hpatterns] at h
  cases h
  exact ⟨hpatterns,rfl⟩

theorem splitKey_entityKey (h : haComponentPattern component = true) :
    splitKey (entityKey component objectID) = (component,objectID) := by
  have hfree : ∀ c ∈ component.toList, (decide (c ≠ '/')) = true := by
    intro c hc
    simp only [decide_eq_true_eq]
    rintro rfl
    exact component_literal h '/' (by simp) hc
  have hslash : "/".toList = ['/'] := by decide
  simp only [splitKey,entityKey,String.toList_append,hslash,List.append_assoc]
  rw [List.takeWhile_append_of_pos hfree,List.dropWhile_append_of_pos hfree]
  simp

theorem haDiscovery_splitKey (r : Registry) {key : String} (h : Known key) :
    r.haDiscovery (splitKey key).1 (splitKey key).2 =
      .ok (discoveryTopic key,discoveryPolicy) := by
  obtain ⟨component,objectID,rfl,hpatterns⟩ := h
  rw [splitKey_entityKey hpatterns.1]
  exact haDiscovery_eq r hpatterns

/-- The keys of the entities of an inventory. -/
def entityKeys (siteID : String) (sensors : List Registries.Sensor)
    (equipment : List Registries.Equipment) : List String :=
  (sensors.map fun s => entityKey "sensor" ("sensor-"++s.id))++
    (equipment.map fun q => entityKey "switch" ("equipment-"++q.id))++
    [entityKey "sensor" ("aquaos-"++siteID++"-"++"core"),
      entityKey "binary_sensor" ("aquaos-"++siteID++"-"++"alarm"),
      entityKey "binary_sensor" ("aquaos-"++siteID++"-"++"notification")]

theorem entities_keys {m : Manager} {encoder : Encoder} {devices : List Registries.Device}
    {sensors : List Registries.Sensor} {equipment : List Registries.Equipment} {es : List Entity}
    {allowed : Table String EquipmentID}
    (h : m.entities encoder ⟨.ok devices,.ok sensors,.ok equipment⟩ = .ok (es,allowed)) :
    es.map Entity.key = entityKeys m.cfg.siteID sensors equipment := by
  obtain ⟨_,_,_,availability,_,_,hinv,hs,hq,rfl,_⟩ := entities_inv h
  cases hinv
  have hsensors := map_mapM (g := Entity.key) (k := fun s => entityKey "sensor" ("sensor-"++s.id))
    (fun s e he => by simp only [Entity.key,sensorEntity_ok he]) hs
  have hequipment := map_mapM (g := Entity.key)
    (k := fun q => entityKey "switch" ("equipment-"++q.id))
    (fun q e he => by simp only [Entity.key,equipmentEntity_ok he]) hq
  rw [List.map_append,List.map_append,hsensors,hequipment]
  rfl

end Keys

section Effects

/-- The topic of the key was given a payload and still has one. -/
def Link.Holds (l : Link) (key : String) : Prop :=
  discoveryTopic key ∈ l.offered ∧ l.retained (discoveryTopic key) ≠ []

def Link.sent (l : Link) (key : String) (payload : List UInt8) : Link :=
  (l.publish (discoveryTopic key) discoveryPolicy payload).2

variable {r : Registry} {l : Link} {key : String}

theorem publish_fst (l : Link) (topic : String) (policy : Policy) (payload : List UInt8) :
    (l.publish topic policy payload).1 = l.answers 0 := by
  unfold Link.publish
  dsimp only
  cases l.answers 0 with
  | none => rfl
  | some err => rfl

theorem publish_discovery (l : Link) (key : String) (payload : List UInt8) :
    l.publish (discoveryTopic key) discoveryPolicy payload = (l.answers 0,l.sent key payload) :=
  Prod.ext (publish_fst _ _ _ _) rfl

theorem publish_answers (l : Link) (topic : String) (policy : Policy) (payload : List UInt8) :
    (l.publish topic policy payload).2.answers = fun n => l.answers (n+1) := by
  unfold Link.publish
  dsimp only
  cases l.answers 0 with
  | none => rfl
  | some err => rfl

theorem sent_answers (l : Link) (key : String) (payload : List UInt8) :
    (l.sent key payload).answers = fun n => l.answers (n+1) :=
  publish_answers _ _ _ _

variable {payload : List UInt8} {topic key' : String} {policy : Policy}

theorem publish_failed (h : l.answers 0 ≠ none) :
    (l.publish topic policy payload).2.Holds key ↔ l.Holds key := by
  unfold Link.publish
  dsimp only
  cases hanswer : l.answers 0 with
  | none => exact absurd hanswer h
  | some err => rfl

theorem publish_elsewhere (h : discoveryTopic key ≠ topic) :
    (l.publish topic policy payload).2.Holds key ↔ l.Holds key := by
  unfold Link.publish Link.Holds
  dsimp only
  cases l.answers 0 with
  | some err => rfl
  | none =>
    dsimp only
    split_ifs <;> simp [h]

theorem sent_failed (h : l.answers 0 ≠ none) : (l.sent key' payload).Holds key ↔ l.Holds key :=
  publish_failed h

theorem sent_other (h : key ≠ key') : (l.sent key' payload).Holds key ↔ l.Holds key :=
  publish_elsewhere (discoveryTopic_injective.ne h)

theorem sent_self (h : l.answers 0 = none) : (l.sent key payload).Holds key ↔ payload ≠ [] := by
  unfold Link.sent Link.publish Link.Holds
  simp only [h,discoveryPolicy,if_true,Function.update_self]
  by_cases hp : payload = []
  · simp [hp]
  · simp [hp]

theorem status_ne_discoveryTopic (r : Registry) (key : String) :
    discoveryTopic key ≠ r.haStatus.1 := by
  intro h
  have h := congrArg (fun t => t.toList.head?) h
  simp [discoveryTopic_eq,Registry.haStatus,Registry.root] at h

theorem publishStatus_none_iff {m : Manager} {json : Json P} {e : Round} :
    (m.publishStatus json e l).1 = none ↔
      (∃ payload, m.statusPayload json e = .ok payload) ∧ l.answers 0 = none := by
  unfold Manager.publishStatus
  cases m.statusPayload json e with
  | error err => simp
  | ok payload => simp [publish_fst]

theorem publishStatus_holds (m : Manager) (json : Json P) (e : Round) :
    (m.publishStatus json e l).2.Holds key ↔ l.Holds key := by
  unfold Manager.publishStatus
  cases m.statusPayload json e with
  | error err => rfl
  | ok payload => exact publish_elsewhere (status_ne_discoveryTopic m.registry key)

end Effects

section Publishing

variable {r : Registry} {l : Link} {e : Entity} {es : List Entity} {next : List String}

/-- An entity that has a discovery topic. -/
abbrev Entity.Addressable (e : Entity) : Prop := HomeAssistant.Addressable e.component e.objectID

/-- The entities that reach the broker, by the answers of the transport. -/
def delivered : (ℕ → Option Failure) → List Entity → List Entity
  | _, [] => []
  | answers, e::es =>
    if e.Addressable ∧ answers 0 = none then e::delivered (fun n => answers (n+1)) es else []

theorem delivered_addressable {answers : ℕ → Option Failure} :
    ∀ e ∈ delivered answers es, e.Addressable := by
  induction es generalizing answers with
  | nil => simp [delivered]
  | cons e es ih =>
    unfold delivered
    split_ifs with h
    · exact List.forall_mem_cons.mpr ⟨h.1,ih⟩
    · simp

theorem publishEntities_unaddressed (r : Registry) (l : Link) (es : List Entity)
    (next : List String) (h : ¬ e.Addressable) :
    ∃ err, publishEntities r l (e::es) next = (.error err,l) := by
  unfold publishEntities
  cases hd : r.haDiscovery e.component e.objectID with
  | error err => exact ⟨err,rfl⟩
  | ok result => exact absurd (haDiscovery_isOk_iff.mp ⟨result.1,result.2,hd⟩) h

theorem publishEntities_failed {err : Failure} (h : e.Addressable) (hanswer : l.answers 0 = some err) :
    publishEntities r l (e::es) next =
      (.error (.wrapped "publish Home Assistant discovery" err),l.sent e.key e.payload) := by
  simp only [publishEntities,haDiscovery_eq r h]
  rw [← Entity.key,publish_discovery,hanswer]

theorem publishEntities_delivered (h : e.Addressable) (hanswer : l.answers 0 = none) :
    publishEntities r l (e::es) next =
      publishEntities r (l.sent e.key e.payload) es (next.insert e.key) := by
  simp only [publishEntities,haDiscovery_eq r h]
  rw [← Entity.key,publish_discovery,hanswer]

theorem publishEntities_holds (hp : ∀ e ∈ es, e.payload ≠ []) (key : String) :
    (publishEntities r l es next).2.Holds key ↔
      key ∈ (delivered l.answers es).map Entity.key ∨ l.Holds key := by
  induction es generalizing l next with
  | nil => simp [publishEntities,delivered]
  | cons e es ih =>
    obtain ⟨hpe,hpes⟩ := List.forall_mem_cons.mp hp
    by_cases ha : e.Addressable
    · cases hanswer : l.answers 0 with
      | some err =>
        rw [publishEntities_failed ha hanswer,sent_failed (by simp [hanswer])]
        simp [delivered,hanswer]
      | none =>
        rw [publishEntities_delivered ha hanswer,ih hpes,sent_answers]
        by_cases hkey : key = e.key
        · subst hkey
          simp [delivered,ha,hanswer,sent_self hanswer,hpe]
        · simp [delivered,ha,hanswer,sent_other hkey,hkey]
    · obtain ⟨err,herr⟩ := publishEntities_unaddressed r l es next ha
      rw [herr]
      simp [delivered,ha]

/-- The loop ends well if and only if everything is delivered, and then its set has all the keys. -/
theorem publishEntities_ok_iff :
    (∃ next' l', publishEntities r l es next = (.ok next',l')) ↔ delivered l.answers es = es := by
  induction es generalizing l next with
  | nil => simp [publishEntities,delivered]
  | cons e es ih =>
    by_cases ha : e.Addressable
    · cases hanswer : l.answers 0 with
      | some err => simp [publishEntities_failed ha hanswer,delivered,hanswer]
      | none =>
        rw [publishEntities_delivered ha hanswer,ih,sent_answers]
        simp [delivered,ha,hanswer]
    · obtain ⟨err,herr⟩ := publishEntities_unaddressed r l es next ha
      simp [herr,delivered,ha]

theorem publishEntities_inv {next' : List String} {l' : Link}
    (h : publishEntities r l es next = (.ok next',l')) :
    (∀ key, key ∈ next' ↔ key ∈ es.map Entity.key ∨ key ∈ next) ∧
      ∀ n, l'.answers n = l.answers (es.length+n) := by
  induction es generalizing l next with
  | nil =>
    cases h
    simp
  | cons e es ih =>
    by_cases ha : e.Addressable
    · cases hanswer : l.answers 0 with
      | some err => simp [publishEntities_failed ha hanswer] at h
      | none =>
        rw [publishEntities_delivered ha hanswer] at h
        obtain ⟨hmem,hanswers⟩ := ih h
        refine ⟨fun key => ?_,fun n => ?_⟩
        · rw [hmem key,List.mem_insert_iff,List.map_cons,List.mem_cons]
          tauto
        · rw [hanswers n,sent_answers,List.length_cons,Nat.add_right_comm]
    · obtain ⟨err,herr⟩ := publishEntities_unaddressed r l es next ha
      simp [herr] at h

end Publishing

section Clearing

variable {r : Registry} {l : Link} {key component objectID : String} {next : List String}

variable {x : Option Failure × Link} {f : Link → Option Failure × Link} {ts : List Tombstone}

theorem andThen_none :
    (andThen x f).1 = none ↔ x.1 = none ∧ (f x.2).1 = none := by
  rcases x with ⟨_ | err,l⟩
  · simp [andThen]
  · simp [andThen]

theorem andThen_of_none (h : x.1 = none) : andThen x f = f x.2 := by
  rcases x with ⟨_ | err,l⟩
  · rfl
  · cases h

theorem andThen_holds (hx : x.2.Holds key → l.Holds key) (hf : (f x.2).2.Holds key → x.2.Holds key)
    (h : (andThen x f).2.Holds key) : l.Holds key := by
  rcases x with ⟨_ | err,l'⟩
  · exact hx (hf h)
  · exact hx h

theorem clear_eq (r : Registry) (l : Link) (h : Addressable component objectID) :
    clear r l component objectID = (l.answers 0,l.sent (entityKey component objectID) []) := by
  simp only [clear,haDiscovery_eq r h]
  exact publish_discovery _ _ _

theorem clear_refused (r : Registry) (l : Link) (h : ¬ Addressable component objectID) :
    ∃ err, clear r l component objectID = (some err,l) := by
  unfold clear
  cases hd : r.haDiscovery component objectID with
  | error err => exact ⟨err,rfl⟩
  | ok result => exact absurd (haDiscovery_isOk_iff.mp ⟨result.1,result.2,hd⟩) h

theorem clear_other (h : key ≠ entityKey component objectID) :
    (clear r l component objectID).2.Holds key ↔ l.Holds key := by
  by_cases hp : Addressable component objectID
  · rw [clear_eq r l hp,sent_other h]
  · obtain ⟨err,herr⟩ := clear_refused r l hp
    rw [herr]

theorem clear_none (h : (clear r l component objectID).1 = none) :
    ¬ (clear r l component objectID).2.Holds (entityKey component objectID) := by
  by_cases hp : Addressable component objectID
  · rw [clear_eq r l hp] at h ⊢
    simp [sent_self h]
  · obtain ⟨err,herr⟩ := clear_refused r l hp
    simp [herr] at h

theorem clear_holds (h : (clear r l component objectID).2.Holds key) : l.Holds key := by
  by_cases hkey : key = entityKey component objectID
  · subst hkey
    cases hfirst : (clear r l component objectID).1 with
    | none => exact absurd h (clear_none hfirst)
    | some err =>
      by_cases hp : Addressable component objectID
      · rw [clear_eq r l hp] at h hfirst
        exact (sent_failed (by simp [show l.answers 0 = some err from hfirst])).mp h
      · obtain ⟨err,herr⟩ := clear_refused r l hp
        rwa [herr] at h
  · exact (clear_other hkey).mp h

def clearEach (r : Registry) : Link → List (String × String) → Option Failure × Link
  | l, [] => (none,l)
  | l, x::xs => andThen (clear r l x.1 x.2) fun l => clearEach r l xs

theorem clearObsolete_eq (keys : List String) :
    clearObsolete r next l keys = clearEach r l ((keys.filter (· ∉ next)).map splitKey) := by
  induction keys generalizing l with
  | nil => rfl
  | cons key keys ih =>
    by_cases h : key ∈ next
    · simp [clearObsolete,h,ih]
    · simp only [clearObsolete,h,if_false,List.filter_cons,not_false_eq_true,decide_true,if_true,
        List.map_cons,clearEach,ih]

def Tombstone.pair (t : Tombstone) : String × String := (t.component,t.objectID)

theorem clearTombstones_eq (h : ∀ t ∈ ts, t.key ∉ next) :
    clearTombstones r next l ts = clearEach r l (ts.map Tombstone.pair) := by
  induction ts generalizing l with
  | nil => rfl
  | cons t ts ih =>
    obtain ⟨ht,hts⟩ := List.forall_mem_cons.mp h
    simp only [clearTombstones,ht,if_false,List.map_cons,clearEach,Tombstone.pair,ih hts]

theorem clearTombstones_none (h : (clearTombstones r next l ts).1 = none) :
    ∀ t ∈ ts, t.key ∉ next := by
  induction ts generalizing l with
  | nil => simp
  | cons t ts ih =>
    unfold clearTombstones at h
    split_ifs at h with ht
    exact List.forall_mem_cons.mpr ⟨ht,ih (andThen_none.mp h).2⟩

theorem clearTombstones_holds (h : (clearTombstones r next l ts).2.Holds key) : l.Holds key := by
  induction ts generalizing l with
  | nil => exact h
  | cons t ts ih =>
    unfold clearTombstones at h
    split_ifs at h with ht
    · exact h
    · exact andThen_holds clear_holds ih h

variable {xs : List (String × String)}

theorem clearEach_holds (h : (clearEach r l xs).2.Holds key) : l.Holds key := by
  induction xs generalizing l with
  | nil => exact h
  | cons x xs ih => exact andThen_holds clear_holds ih h

theorem clearEach_none (h : (clearEach r l xs).1 = none) : (clearEach r l xs).2.Holds key ↔
      l.Holds key ∧ key ∉ xs.map fun x => entityKey x.1 x.2 := by
  induction xs generalizing l with
  | nil => simp [clearEach]
  | cons x xs ih =>
    obtain ⟨hfirst,hrest⟩ := andThen_none.mp h
    rw [clearEach,andThen_of_none hfirst,ih hrest,List.map_cons,List.mem_cons]
    by_cases hkey : key = entityKey x.1 x.2
    · subst hkey
      simp [clear_none hfirst]
    · simp [clear_other hkey,hkey]

theorem clearEach_addressable (h : (clearEach r l xs).1 = none) :
    ∀ x ∈ xs, Addressable x.1 x.2 := by
  induction xs generalizing l with
  | nil => simp
  | cons x xs ih =>
    obtain ⟨hfirst,hrest⟩ := andThen_none.mp h
    refine List.forall_mem_cons.mpr ⟨?_,ih hrest⟩
    by_contra hp
    obtain ⟨err,herr⟩ := clear_refused r l hp
    simp [herr] at hfirst

theorem clearEach_succeeds (hx : ∀ x ∈ xs, Addressable x.1 x.2)
    (h : ∀ n < xs.length, l.answers n = none) : (clearEach r l xs).1 = none ∧
      ∀ n, (clearEach r l xs).2.answers n = l.answers (xs.length+n) := by
  induction xs generalizing l with
  | nil => simp [clearEach]
  | cons x xs ih =>
    obtain ⟨hfirst,hrest⟩ := List.forall_mem_cons.mp hx
    have hzero : l.answers 0 = none := h 0 (by simp)
    have hlater : ∀ n < xs.length, (l.sent (entityKey x.1 x.2) []).answers n = none := by
      intro n hn
      rw [sent_answers]
      exact h (n+1) (by simpa using hn)
    obtain ⟨hnone,hanswers⟩ := ih hrest hlater
    rw [clearEach,clear_eq r l hfirst,andThen_of_none hzero]
    refine ⟨hnone,fun n => ?_⟩
    rw [hanswers n,sent_answers,List.length_cons,Nat.add_right_comm]

end Clearing

section Settling

variable {m : Manager} {json : Json P} {e : Round} {previous : List String} {l : Link}

/-- The published entities that the new set leaves out, in the order of the walk. -/
def obsolete (next : List String) (e : Round) (previous : List String) : List (String × String) :=
  ((e.order previous).filter (· ∉ next)).map splitKey

variable {key : String}

theorem mem_obsolete (hk : ∀ key ∈ previous, Known key) {next : List String} :
    key ∈ (obsolete next e previous).map (fun x => entityKey x.1 x.2) ↔
      key ∈ previous ∧ key ∉ next := by
  have hback : ∀ key ∈ previous, entityKey (splitKey key).1 (splitKey key).2 = key := by
    intro key hkey
    obtain ⟨component,objectID,rfl,hpatterns⟩ := hk key hkey
    rw [splitKey_entityKey hpatterns.1]
  simp only [obsolete,List.map_map,List.mem_map,List.mem_filter,(e.perm previous).mem_iff,
    Function.comp_apply,decide_eq_true_eq]
  constructor
  · rintro ⟨key',⟨hmem,hnext⟩,rfl⟩
    rw [hback key' hmem]
    exact ⟨hmem,hnext⟩
  · rintro ⟨hmem,hnext⟩
    exact ⟨key,⟨hmem,hnext⟩,hback key hmem⟩

theorem obsolete_addressable (hk : ∀ key ∈ previous, Known key) (next : List String) (e : Round) :
    ∀ x ∈ obsolete next e previous,
      Addressable x.1 x.2 := by
  intro x hx
  obtain ⟨key,hkey,rfl⟩ := List.mem_map.mp hx
  obtain ⟨component,objectID,rfl,hpatterns⟩ :=
    hk key ((e.perm previous).mem_iff.mp (List.mem_filter.mp hkey).1)
  rw [splitKey_entityKey hpatterns.1]
  exact hpatterns

theorem length_obsolete (next : List String) (e : Round) (previous : List String) :
    (obsolete next e previous).length = (previous.filter (· ∉ next)).length := by
  rw [obsolete,List.length_map]
  exact ((e.perm previous).filter _).length_eq

theorem settle_eq (m : Manager) (json : Json P) (e : Round) (previous : List String) (l : Link) :
    m.settle json e previous l =
      andThen (clearEach m.registry l (obsolete m.published e previous)) fun l =>
        andThen (clearTombstones m.registry m.published l m.cfg.tombstones) fun l =>
          m.publishStatus json e l := by
  rw [Manager.settle,clearObsolete_eq]
  rfl

theorem settle_holds (h : (m.settle json e previous l).2.Holds key) : l.Holds key := by
  rw [settle_eq] at h
  refine andThen_holds clearEach_holds (fun h => ?_) h
  exact andThen_holds clearTombstones_holds (publishStatus_holds m json e).mp h

theorem settle_obsolete (hk : ∀ key ∈ previous, Known key)
    (hanswers : ∀ n < (previous.filter (· ∉ m.published)).length, l.answers n = none)
    (h : (m.settle json e previous l).2.Holds key) : key ∈ previous → key ∈ m.published := by
  rw [settle_eq] at h
  rw [← length_obsolete m.published e previous] at hanswers
  have hnone := (clearEach_succeeds (r := m.registry)
    (obsolete_addressable hk m.published e) hanswers).1
  rw [andThen_of_none hnone] at h
  have hleft := andThen_holds clearTombstones_holds (publishStatus_holds m json e).mp h
  have hgone := ((clearEach_none hnone).mp hleft).2
  rw [mem_obsolete hk] at hgone
  tauto

theorem settle_none (hk : ∀ key ∈ previous, Known key) (h : (m.settle json e previous l).1 = none) :
    (∀ x ∈ m.cfg.tombstones.map Tombstone.pair,
        Addressable x.1 x.2) ∧
      (∀ t ∈ m.cfg.tombstones, t.key ∉ m.published) ∧
      (∃ payload, m.statusPayload json e = .ok payload) ∧
      ∀ key, (m.settle json e previous l).2.Holds key ↔
        l.Holds key ∧ (key ∈ previous → key ∈ m.published) ∧
          key ∉ m.cfg.tombstones.map Tombstone.key := by
  rw [settle_eq] at h ⊢
  obtain ⟨hobsolete,hrest⟩ := andThen_none.mp h
  obtain ⟨htombstones,hstatus⟩ := andThen_none.mp hrest
  have hapart := clearTombstones_none htombstones
  rw [andThen_of_none hobsolete,andThen_of_none htombstones,clearTombstones_eq hapart]
  rw [clearTombstones_eq hapart] at htombstones
  refine ⟨clearEach_addressable htombstones,hapart,(publishStatus_none_iff.mp hstatus).1,
    fun key => ?_⟩
  rw [publishStatus_holds,clearEach_none htombstones,clearEach_none hobsolete,mem_obsolete hk,List.map_map]
  have hpair : (fun x : String × String => entityKey x.1 x.2) ∘ Tombstone.pair = Tombstone.key := rfl
  rw [hpair]
  tauto

/-- With a transport that works, tombstones apart from the published entities and a status to tell,
there is no error. -/
theorem settle_succeeds (hk : ∀ key ∈ previous, Known key) (hanswers : ∀ n, l.answers n = none)
    (htombstones : ∀ x ∈ m.cfg.tombstones.map Tombstone.pair, Addressable x.1 x.2)
    (hapart : ∀ t ∈ m.cfg.tombstones, t.key ∉ m.published)
    (hstatus : ∃ payload, m.statusPayload json e = .ok payload) :
    (m.settle json e previous l).1 = none := by
  obtain ⟨hobsolete,hlater⟩ := clearEach_succeeds (r := m.registry)
    (obsolete_addressable hk m.published e) fun n _ => hanswers n
  obtain ⟨hburied,hlast⟩ := clearEach_succeeds (r := m.registry) htombstones
    fun n _ => (hlater n).trans (hanswers _)
  rw [settle_eq,andThen_of_none hobsolete,clearTombstones_eq hapart,andThen_of_none hburied,
    publishStatus_none_iff]
  exact ⟨hstatus,by rw [hlast,hlater,hanswers]⟩

end Settling

end HomeAssistant
end AquaOS
