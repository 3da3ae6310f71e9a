import AquaOS.CommandBridge

/-! Which messages from Home Assistant become commands. `HandleCommand` takes topics apart that
another package puts together, and the equipment it lets through is replaced by every `Refresh`
that gets as far as that, while messages come in and other calls publish. -/
namespace AquaOS
namespace HomeAssistant

open Domain Mqtt Levels Transition
open Output (Command)
open Registries (Equipment)

def slash : UInt8 := 0x2f

/-- A message as it is handled: its topic and payload are any bytes; the clock and a new correlation
ID are read on the way. -/
structure Request where
  topic : List UInt8
  payload : List UInt8
  messageID : UInt16
  now : ℤ
  correlationID : Except Failure CorrelationID

/-- The entry of the map whose key has these bytes. -/
def Manager.permitted (m : Manager) (resource : List UInt8) : Option (String × EquipmentID) :=
  (m.allowed.entries.find? fun entry => bytes entry.1 = resource).map fun entry =>
    (entry.1,entry.2)

/-- `HandleCommand` up to its call of `Submit`. -/
def Manager.handleCommand (trimSpace : Trim) (m : Manager) (x : Request) : Except Failure Command :=
  match x.topic.splitOn slash with
  | [root,siteID,version,integration,level,verb] =>
    if root ≠ bytes "aquaos" ∨ siteID ≠ bytes m.cfg.siteID ∨ version ≠ bytes "v1" ∨
        integration ≠ bytes "home-assistant" ∨ verb ≠ bytes "set" then
      .error (.message "home assistant command topic is outside the configured namespace")
    else
      match m.permitted level with
      | none => .error (.message "home assistant command targets unknown equipment")
      | some (resource,equipmentID) =>
        m.commandFor trimSpace resource equipmentID x.payload x.messageID x.now x.correlationID
  | _ => .error (.message "home assistant command topic is outside the configured namespace")

/-- Where a call of `Refresh` is after it began: it has published its entities, it has replaced
those of the manager, or it has returned. -/
inductive Refreshing
  | published (e : Round) (next : List String) (allowed : Table String EquipmentID)
  | replaced (e : Round) (m : Manager) (previous : List String)
  | returned (err : Option Failure)

/-- The manager with the calls of `Refresh` that have begun, the inventories of those that published
all their entities, the latest to take the lock first, and the commands it has submitted. -/
structure Desk where
  session : Session
  calls : ℕ → Option Refreshing := fun _ => none
  served : List Inventory := []
  submitted : List Command := []

/-- A call of `Refresh` begins and publishes, which only the connection sees; it holds the lock;
it clears what is gone; and a message is handled, which reads the map once. -/
inductive DeskStep
  | publish (i : ℕ) (e : Round)
  | replace (i : ℕ)
  | settle (i : ℕ)
  | command (x : Request)

namespace Desk

def moved (d : Desk) (i : ℕ) (c : Refreshing) : Desk :=
  { d with calls := Function.update d.calls i (some c) }

variable {P : Type}

def apply (trimSpace : Trim) (encoder : Encoder) (json : Json P) (d : Desk) : DeskStep → Desk
  | .publish i e =>
    match d.calls i, d.session.manager.entities encoder e.inventory with
    | some _, _ => d
    | none, .error err => d.moved i (.returned (some err))
    | none, .ok (es,allowed) =>
      match publishEntities d.session.manager.registry d.session.link es [] with
      | (.error err,l) =>
        { d with session := ⟨d.session.manager,l⟩ }.moved i (.returned (some err))
      | (.ok next,l) =>
        { d with session := ⟨d.session.manager,l⟩ }.moved i (.published e next allowed)
  | .replace i =>
    match d.calls i with
    | some (.published e next allowed) =>
      let m := d.session.manager.replaced next allowed
      { d with session := ⟨m,d.session.link⟩, served := e.inventory::d.served }.moved i
        (.replaced e m d.session.manager.published)
    | _ => d
  | .settle i =>
    match d.calls i with
    | some (.replaced e m previous) =>
      let result := m.settle json e previous d.session.link
      { d with session := ⟨d.session.manager,result.2⟩ }.moved i (.returned result.1)
    | _ => d
  | .command x =>
    match d.session.manager.handleCommand trimSpace x with
    | .error _ => d
    | .ok c => { d with submitted := d.submitted++[c] }

end Desk

section Topics

theorem utf8EncodeChar_high {c : Char} {b : UInt8} (h : 128 ≤ c.toNat)
    (hb : b ∈ String.utf8EncodeChar c) : 128 ≤ b.toNat := by
  unfold String.utf8EncodeChar at hb
  dsimp only at hb
  have hv : ¬ c.val.toNat ≤ 127 := Nat.not_le.mpr h
  rw [if_neg hv] at hb
  split_ifs at hb <;> simp only [List.mem_cons,List.not_mem_nil,or_false] at hb
  · rcases hb with rfl | rfl <;> rw [UInt8.toNat_ofNat'] <;> omega
  · rcases hb with rfl | rfl | rfl <;> rw [UInt8.toNat_ofNat'] <;> omega
  · rcases hb with rfl | rfl | rfl | rfl <;> rw [UInt8.toNat_ofNat'] <;> omega

theorem bytes_eq_flatMap (text : String) :
    bytes text = text.toList.flatMap String.utf8EncodeChar := by
  rw [← bytes_ofList,String.ofList_toList]

theorem slash_free {text : String} (h : '/' ∉ text.toList) : slash ∉ bytes text := by
  rw [bytes_eq_flatMap,List.mem_flatMap]
  rintro ⟨c,hc,hb⟩
  by_cases hascii : c.toNat < 128
  · rw [utf8EncodeChar_ascii hascii,List.mem_singleton,← UInt8.toNat_inj,UInt8.toNat_ofNat'] at hb
    have hcode : c.toNat = '/'.toNat := by
      change 47 = c.toNat%256 at hb
      change c.toNat = 47
      omega
    exact h (Char.toNat_inj.mp hcode ▸ hc)
  · exact absurd (utf8EncodeChar_high (Nat.not_lt.mp hascii) hb) (by decide)

theorem bytes_join (levels : List String) :
    bytes (join '/' levels) = [slash].intercalate (levels.map bytes) := by
  have hslash : String.utf8EncodeChar '/' = [slash] := by decide
  rw [bytes_eq_flatMap,toList_join]
  induction levels with
  | nil => rfl
  | cons level rest ih =>
    cases rest with
    | nil => simp [bytes_eq_flatMap]
    | cons next rest =>
      simp only [List.map_cons,List.intercalate_cons_cons,List.flatMap_append] at ih ⊢
      rw [ih,← bytes_eq_flatMap]
      simp [hslash]

theorem splitOn_bytes (text : String) :
    (bytes text).splitOn slash = (split '/' text).map bytes := by
  have hne : (split '/' text).map bytes ≠ [] := by
    simp [split,List.splitOn_ne_nil]
  rw [splitOn_eq_iff hne,← bytes_join,join_split]
  refine ⟨fun part hpart => ?_,rfl⟩
  obtain ⟨level,hlevel,rfl⟩ := List.mem_map.mp hpart
  exact slash_free (split_free '/' text level hlevel)

end Topics

section Handling

variable {trimSpace : Trim} {m : Manager} {x : Request} {c : Command}

theorem permitted_eq_some {level : List UInt8} {resource : String} {id : EquipmentID} :
    m.permitted level = some (resource,id) ↔
      level = bytes resource ∧ m.allowed.lookup resource = some id := by
  unfold Manager.permitted
  rw [Option.map_eq_some_iff]
  constructor
  · rintro ⟨entry,hfind,heq⟩
    cases heq
    have hkey := List.find?_some hfind
    refine ⟨(of_decide_eq_true hkey).symm,?_⟩
    rw [← Option.mem_def,AList.mem_lookup_iff]
    exact List.mem_of_find?_eq_some hfind
  · rintro ⟨rfl,hlookup⟩
    rw [← Option.mem_def,AList.mem_lookup_iff] at hlookup
    refine ⟨⟨resource,id⟩,?_,rfl⟩
    cases hfind : m.allowed.entries.find? fun entry => bytes entry.1 = bytes resource with
    | none =>
      have hnone := List.find?_eq_none.mp hfind ⟨resource,id⟩ hlookup
      simp at hnone
    | some entry =>
      obtain ⟨key,id'⟩ := entry
      have hkey := List.find?_some hfind
      obtain rfl : key = resource := bytes_inj (of_decide_eq_true hkey)
      have hmem := List.mem_of_find?_eq_some hfind
      rw [← AList.mem_lookup_iff] at hlookup hmem
      rw [Option.mem_def] at hlookup hmem
      rw [hlookup] at hmem
      cases hmem
      rfl

theorem permitted_bytes (m : Manager) (resource : String) :
    m.permitted (bytes resource) = (m.allowed.lookup resource).map fun id => (resource,id) := by
  cases hlookup : m.allowed.lookup resource with
  | some id => exact permitted_eq_some.mpr ⟨rfl,hlookup⟩
  | none =>
    rw [Option.map_none,Option.eq_none_iff_forall_ne_some]
    rintro ⟨key,id⟩ hsome
    obtain ⟨hkey,hlookup'⟩ := permitted_eq_some.mp hsome
    rw [← bytes_inj hkey,hlookup] at hlookup'
    cases hlookup'

theorem bytes_eq_iff {s t : String} : bytes s = bytes t ↔ s = t := ⟨bytes_inj,fun h => by rw [h]⟩

/-- On the bytes of texts this is the command of the text. -/
theorem handleCommand_bytes (trimSpace : Trim) (m : Manager) (y : Message) (now : ℤ)
    (correlationID : Except Failure CorrelationID) :
    m.handleCommand trimSpace ⟨bytes y.topic,y.payload,y.messageID,now,correlationID⟩ =
      m.command trimSpace y now correlationID := by
  unfold Manager.handleCommand Manager.command
  dsimp only
  rw [splitOn_bytes]
  rcases split '/' y.topic with
    _ | ⟨a,_ | ⟨b,_ | ⟨c,_ | ⟨d,_ | ⟨e,_ | ⟨f,_ | ⟨g,rest⟩⟩⟩⟩⟩⟩⟩
  case cons.cons.cons.cons.cons.cons.nil =>
    simp only [List.map_cons,List.map_nil,ne_eq,bytes_eq_iff,permitted_bytes]
    cases m.allowed.lookup e <;> rfl
  all_goals rfl

def commandTopic (siteID resource : String) : String :=
  join '/' ["aquaos",siteID,"v1","home-assistant",resource,"set"]

theorem haCommand_eq (r : Registry) {resource : String}
    (h : topicSegmentPattern resource = true) :
    ∃ p, r.haCommand resource = .ok (commandTopic r.siteID resource,p) := by
  refine ⟨{ purpose := .haCommand, qos := 1 },?_⟩
  have htopic : r.root++"/home-assistant/"++resource++"/set" = commandTopic r.siteID resource := by
    rw [← String.toList_inj,commandTopic,toList_join]
    simp [Registry.root,contractMajorVersion,List.intercalate]
  simp [Registry.haCommand,h,htopic]

theorem splitOn_commandTopic (m : Manager) {resource : String} (h : '/' ∉ resource.toList) :
    (bytes (commandTopic m.cfg.siteID resource)).splitOn slash =
      [bytes "aquaos",bytes m.cfg.siteID,bytes "v1",bytes "home-assistant",bytes resource,
        bytes "set"] := by
  have hsite : '/' ∉ m.cfg.siteID.toList := by
    rw [← m.site]
    exact segment_literal m.registry.valid '/' (by simp)
  have hplain : Plain '/' ["aquaos",m.cfg.siteID,"v1","home-assistant",resource,"set"] := by
    refine ⟨by simp,?_⟩
    simp only [List.forall_mem_cons]
    exact ⟨by decide,hsite,by decide,by decide,h,by decide,by simp⟩
  rw [splitOn_bytes,commandTopic,split_join hplain]
  rfl

/-- A message is submitted if its topic is that of a permitted resource. -/
theorem handleCommand_ok_iff (hallowed : ∀ resource id, m.allowed.lookup resource = some id →
      '/' ∉ resource.toList) :
    m.handleCommand trimSpace x = .ok c ↔
      ∃ resource id on correlationID, x.topic = bytes (commandTopic m.cfg.siteID resource) ∧
        m.allowed.lookup resource = some id ∧ direction (trimSpace x.payload) = some on ∧
        x.correlationID = .ok correlationID ∧
        c = { id := "", idempotencyKey := commandKey resource x.messageID on, correlationID
              equipmentID := id, requester := "home-assistant", issuedAt := x.now
              expiresAt := x.now+m.cfg.commandTTL, on } := by
  constructor
  · intro h
    unfold Manager.handleCommand at h
    split at h
    · next root siteID version integration level verb hparts =>
      split_ifs at h with hnamespace
      push Not at hnamespace
      obtain ⟨rfl,rfl,rfl,rfl,rfl⟩ := hnamespace
      cases hpermitted : m.permitted level with
      | none => simp [hpermitted] at h
      | some entry =>
        obtain ⟨resource,id⟩ := entry
        obtain ⟨rfl,hlookup⟩ := permitted_eq_some.mp hpermitted
        simp only [hpermitted,commandFor_ok_iff] at h
        obtain ⟨on,correlationID,hasked,hid,rfl⟩ := h
        refine ⟨resource,id,on,correlationID,?_,hlookup,hasked,hid,rfl⟩
        have hjoin : [slash].intercalate (x.topic.splitOn slash) = x.topic :=
          List.intercalate_splitOn slash
        rw [← hjoin,hparts,commandTopic,bytes_join]
        rfl
    · cases h
  · rintro ⟨resource,id,on,correlationID,htopic,hlookup,hasked,hid,rfl⟩
    unfold Manager.handleCommand
    rw [htopic,splitOn_commandTopic m (hallowed resource id hlookup)]
    simp [permitted_eq_some.mpr ⟨rfl,hlookup⟩,commandFor_ok_iff,hasked,hid]

end Handling

section Inventories

variable {equipment : List Equipment} {resource : String} {id : EquipmentID}

theorem allowedEquipment_lookup :
    (allowedEquipment equipment).lookup resource = some id ↔
      ∃ q ∈ equipment, resource = "equipment-"++q.id ∧ id = q.id := by
  have hfold : ∀ t : Table String EquipmentID,
      (equipment.foldl (fun t q => t.insert ("equipment-"++q.id) q.id) t).lookup resource = some id ↔
        (∃ q ∈ equipment, resource = "equipment-"++q.id ∧ id = q.id) ∨
          (∀ q ∈ equipment, resource ≠ "equipment-"++q.id) ∧ t.lookup resource = some id := by
    induction equipment with
    | nil => simp
    | cons q equipment ih =>
      intro t
      rw [List.foldl_cons,ih,Table.lookup_insert_ite]
      have hsame : ∀ q' : Equipment, resource = "equipment-"++q.id →
          resource = "equipment-"++q'.id → q'.id = q.id := by
        intro q' hq hq'
        exact (String.append_right_inj _).mp (hq'.symm.trans hq)
      grind
  rw [allowedEquipment,hfold]
  simp

/-- The equipment of an inventory that was published, with the map made from it. -/
def Published (inventory : Inventory) (allowed : Table String EquipmentID) : Prop :=
  ∃ equipment, inventory.equipment = .ok equipment ∧ allowed = allowedEquipment equipment ∧
    ∀ q ∈ equipment, topicSegmentPattern ("equipment-"++q.id) = true

theorem entities_published {m : Manager} {encoder : Encoder} {inventory : Inventory}
    {es : List Entity} {allowed : Table String EquipmentID}
    (h : m.entities encoder inventory = .ok (es,allowed)) : Published inventory allowed := by
  obtain ⟨_,_,equipment,_,_,_,rfl,_,hq,_,rfl⟩ := entities_inv h
  refine ⟨equipment,rfl,rfl,fun q hmem => ?_⟩
  obtain ⟨e,he⟩ := mapM_isOk_iff.mp ⟨_,hq⟩ q hmem
  exact (equipmentEntity_ok he).1

end Inventories

section Runs

variable {P : Type} {trimSpace : Trim} {encoder : Encoder} {json : Json P}

/-- The map belongs to the latest inventory that was published, and so will those of the calls that
wait for the lock. -/
structure Desk.Current (d : Desk) (m : Manager) : Prop where
  settings : d.session.manager.cfg = m.cfg ∧ d.session.manager.registry = m.registry
  none_yet : d.served = [] → d.session.manager.allowed = ∅
  latest : ∀ inventory ∈ d.served.head?, Published inventory d.session.manager.allowed
  waiting : ∀ i e next allowed, d.calls i = some (.published e next allowed) →
    Published e.inventory allowed

theorem step_current {m : Manager} (d : Desk) (l : DeskStep) (h : d.Current m) :
    (d.apply trimSpace encoder json l).Current m := by
  obtain ⟨hsettings,hnone,hlatest,hwaiting⟩ := h
  -- no other call of `Refresh` notices that one has moved
  have hmoved : ∀ {i : ℕ} {c : Refreshing}, (∀ e next allowed, c = .published e next allowed →
      Published e.inventory allowed) → ∀ j e next allowed,
      Function.update d.calls i (some c) j = some (.published e next allowed) →
      Published e.inventory allowed := by
    intro i c hc j e next allowed hj
    rcases update_cases hj with ⟨_,heq⟩ | hj
    · exact hc e next allowed (Option.some.inj heq)
    · exact hwaiting j e next allowed hj
  unfold Desk.apply
  cases l with
  | publish i e =>
    dsimp only
    split
    · exact ⟨hsettings,hnone,hlatest,hwaiting⟩
    · exact ⟨hsettings,hnone,hlatest,hmoved (by simp)⟩
    · next es allowed _ hes =>
      have hpublished := entities_published hes
      split
      · exact ⟨hsettings,hnone,hlatest,hmoved (by simp)⟩
      · refine ⟨hsettings,hnone,hlatest,hmoved ?_⟩
        rintro _ _ _ ⟨⟩
        exact hpublished
  | replace i =>
    dsimp only
    split
    · next e next allowed hcall =>
      refine ⟨hsettings,by simp [Desk.moved],?_,hmoved (by simp)⟩
      rintro inventory ⟨⟩
      exact hwaiting i e next allowed hcall
    · exact ⟨hsettings,hnone,hlatest,hwaiting⟩
  | settle i =>
    dsimp only
    split
    · exact ⟨hsettings,hnone,hlatest,hmoved (by simp)⟩
    · exact ⟨hsettings,hnone,hlatest,hwaiting⟩
  | command x =>
    dsimp only
    split
    · exact ⟨hsettings,hnone,hlatest,hwaiting⟩
    · exact ⟨hsettings,hnone,hlatest,hwaiting⟩

/-- A call of `Refresh` that nothing comes between does what `Refresh` does. -/
theorem refresh_alone (d : Desk) {i : ℕ} (e : Round) (h : d.calls i = none) :
    let d' := run (Desk.apply trimSpace encoder json) d [.publish i e,.replace i,.settle i]
    d'.session = d.session.step encoder json e ∧
      d'.calls i = some (.returned (d.session.refresh encoder json e).1) := by
  rw [Session.step]
  rcases refresh_cases encoder json d.session e with
    ⟨err,hes,heq⟩ | ⟨es,allowed,hes,⟨err,l,hpublish,heq⟩ | ⟨next,l,hpublish,heq⟩⟩
  · simp [Desk.apply,Desk.moved,h,hes,heq]
  · simp [Desk.apply,Desk.moved,h,hes,hpublish,heq]
  · simp [Desk.apply,Desk.moved,h,hes,hpublish,heq]

/-- The message comes in the command topic of a piece of equipment and asks to switch it. -/
structure Request.Asks (trimSpace : Trim) (r : Registry) (inventory : Inventory) (x : Request)
    (q : Equipment) (on : Bool) : Prop where
  listed : ∃ equipment, inventory.equipment = .ok equipment ∧ q ∈ equipment
  topic : ∃ t p, r.haCommand ("equipment-"++q.id) = .ok (t,p) ∧ x.topic = bytes t
  payload : trimSpace x.payload = bytes (if on then "ON" else "OFF")

theorem direction_eq_some {raw : List UInt8} {on : Bool} :
    direction raw = some on ↔ raw = bytes (if on then "ON" else "OFF") := by
  have hne : bytes "ON" ≠ bytes "OFF" := by decide
  unfold direction
  cases on <;> split_ifs <;> simp_all [eq_comm]

/-- The message asks something of equipment of the latest inventory that was published. -/
def Desk.Asked (d : Desk) (trimSpace : Trim) (r : Registry) (x : Request) (q : Equipment)
    (on : Bool) : Prop :=
  ∃ inventory ∈ d.served.head?, x.Asks trimSpace r inventory q on

section Current

variable {d : Desk} {m : Manager} {x : Request} {c : Command}

/-- The entries of the map are the equipment of the latest inventory. -/
theorem Desk.Current.lookup_iff (h : d.Current m) {resource : String} {id : EquipmentID} :
    d.session.manager.allowed.lookup resource = some id ↔
      ∃ inventory ∈ d.served.head?, ∃ equipment, inventory.equipment = .ok equipment ∧
        ∃ q ∈ equipment, resource = "equipment-"++q.id ∧ id = q.id := by
  cases hserved : d.served with
  | nil => simp [h.none_yet hserved]
  | cons inventory earlier =>
    obtain ⟨equipment,hequipment,hallowed,_⟩ := h.latest inventory (by simp [hserved])
    simp [hallowed,allowedEquipment_lookup,hequipment]

/-- All equipment of the latest inventory has a command topic. -/
theorem Desk.Current.segment (h : d.Current m) {inventory : Inventory}
    (hlatest : inventory ∈ d.served.head?) {equipment : List Equipment}
    (hequipment : inventory.equipment = .ok equipment) {q : Equipment} (hq : q ∈ equipment) :
    topicSegmentPattern ("equipment-"++q.id) = true := by
  obtain ⟨equipment',hequipment',_,hsegments⟩ := h.latest inventory hlatest
  rw [hequipment] at hequipment'
  cases hequipment'
  exact hsegments q hq

theorem Desk.Current.handle_iff (h : d.Current m) :
    d.session.manager.handleCommand trimSpace x = .ok c ↔
      ∃ q on correlationID, d.Asked trimSpace m.registry x q on ∧
        x.correlationID = .ok correlationID ∧
        c = { id := "", idempotencyKey := commandKey ("equipment-"++q.id) x.messageID on
              correlationID, equipmentID := q.id, requester := "home-assistant", issuedAt := x.now
              expiresAt := x.now+m.cfg.commandTTL, on } := by
  have hfree : ∀ resource id, d.session.manager.allowed.lookup resource = some id →
      '/' ∉ resource.toList := by
    intro resource id hlookup
    obtain ⟨inventory,hlatest,equipment,hequipment,q,hq,rfl,_⟩ := h.lookup_iff.mp hlookup
    exact segment_literal (h.segment hlatest hequipment hq) '/' (by simp)
  have htopic : ∀ {resource}, topicSegmentPattern resource = true →
      ∃ p, m.registry.haCommand resource =
        .ok (commandTopic d.session.manager.cfg.siteID resource,p) := by
    intro resource hsegment
    rw [h.settings.1,← m.site]
    exact haCommand_eq m.registry hsegment
  rw [handleCommand_ok_iff hfree]
  constructor
  · rintro ⟨resource,id,on,correlationID,hx,hlookup,hasked,hid,rfl⟩
    obtain ⟨inventory,hlatest,equipment,hequipment,q,hq,rfl,rfl⟩ := h.lookup_iff.mp hlookup
    obtain ⟨p,hp⟩ := htopic (h.segment hlatest hequipment hq)
    exact ⟨q,on,correlationID,⟨inventory,hlatest,⟨equipment,hequipment,hq⟩,⟨_,p,hp,hx⟩,
      direction_eq_some.mp hasked⟩,hid,by rw [h.settings.1]⟩
  · rintro ⟨q,on,correlationID,⟨inventory,hlatest,hasks⟩,hid,rfl⟩
    obtain ⟨⟨equipment,hequipment,hq⟩,⟨t,p,ht,hx⟩,hpayload⟩ := hasks
    obtain ⟨p',hp'⟩ := htopic (h.segment hlatest hequipment hq)
    rw [ht] at hp'
    cases hp'
    exact ⟨_,q.id,on,correlationID,hx,
      h.lookup_iff.mpr ⟨inventory,hlatest,equipment,hequipment,q,hq,rfl,rfl⟩,
      direction_eq_some.mpr hpayload,hid,by rw [h.settings.1]⟩

end Current

theorem submitted_cases (trimSpace : Trim) (encoder : Encoder) (json : Json P) (d : Desk)
    (x : Request) :
    (∃ err, d.session.manager.handleCommand trimSpace x = .error err ∧
      (d.apply trimSpace encoder json (.command x)).submitted = d.submitted) ∨
    ∃ c, d.session.manager.handleCommand trimSpace x = .ok c ∧
      (d.apply trimSpace encoder json (.command x)).submitted = d.submitted++[c] := by
  unfold Desk.apply
  cases hx : d.session.manager.handleCommand trimSpace x with
  | error err => exact .inl ⟨err,rfl,by simp [hx]⟩
  | ok c => exact .inr ⟨c,rfl,by simp [hx]⟩

/-- In every run of `Refresh` calls and messages, a message is submitted if and only if it comes in
the command topic of equipment of the latest inventory that was published and asks for one of the
two directions; it is submitted once, for that equipment and direction, and expires after the
configured time. -/
theorem command_submitted_iff (trimSpace : Trim) (encoder : Encoder) (json : Json P) {cfg : Config}
    {start : ℤ} {m : Manager} (hm : newManager cfg start = .ok m) (l : Link)
    (steps : List DeskStep) (x : Request) :
    let d := run (Desk.apply trimSpace encoder json) { session := ⟨m,l⟩ } steps
    let d' := d.apply trimSpace encoder json (.command x)
    (d'.submitted ≠ d.submitted ↔
      (∃ q on, d.Asked trimSpace m.registry x q on) ∧ ∃ id, x.correlationID = .ok id) ∧
    ∀ q on, d.Asked trimSpace m.registry x q on → d'.submitted ≠ d.submitted →
      ∃ c, d'.submitted = d.submitted++[c] ∧ c.equipmentID = q.id ∧ c.on = on ∧
        c.issuedAt = x.now ∧ c.expiresAt = c.issuedAt+cfg.commandTTL := by
  intro d d'
  obtain ⟨_,hallowed,hcfg⟩ := newManager_fresh hm
  have hcurrent : d.Current m := by
    refine invariant_always (I := fun d : Desk => d.Current m) step_current ?_ steps
    exact ⟨⟨rfl,rfl⟩,fun _ => hallowed,by simp,by simp⟩
  rcases submitted_cases trimSpace encoder json d x with
    ⟨err,hhandle,hsame⟩ | ⟨c,hhandle,hmore⟩
  · refine ⟨⟨fun h => absurd hsame h,?_⟩,fun _ _ _ h => absurd hsame h⟩
    rintro ⟨⟨q,on,hasked⟩,id,hid⟩
    have hok := hcurrent.handle_iff.mpr ⟨q,on,id,hasked,hid,rfl⟩
    rw [hhandle] at hok
    cases hok
  · obtain ⟨q,on,id,hasked,hid,_⟩ := hcurrent.handle_iff.mp hhandle
    refine ⟨⟨fun _ => ⟨⟨q,on,hasked⟩,id,hid⟩,fun _ => by simp [d',hmore]⟩,?_⟩
    intro q' on' hasked' _
    have hok := hcurrent.handle_iff.mpr ⟨q',on',id,hasked',hid,rfl⟩
    rw [hhandle] at hok
    cases hok
    exact ⟨_,hmore,rfl,rfl,rfl,by rw [← hcfg]⟩

section Samples

open Mqtt.EventExporter (booleanJson)

/-- What `strings.TrimSpace` does to ASCII. -/
def asciiTrim : Trim := fun raw =>
  let blank := fun b : UInt8 => b = 0x20 ∨ 9 ≤ b ∧ b ≤ 13
  ((raw.dropWhile blank).reverse.dropWhile blank).reverse

/-- The lamp is published; a `Refresh` after it is removed fails at its first publication. -/
def lampDesk : Desk :=
  run (Desk.apply asciiTrim documentEncoder booleanJson)
    { session := ⟨testManager,emptyLink (failsAt 5)⟩ }
    [.publish 0 (testRound [waterProbe] [lamp]),.replace 0,.publish 1 (testRound [] []),.replace 1]

def lampOn : Request where
  topic := bytes lampTopic
  payload := bytes " ON\n"
  messageID := 7
  now := 3
  correlationID := .ok "00000000-0000-4000-8000-000000000009"

theorem lampDesk_submits :
    let d' := lampDesk.apply asciiTrim documentEncoder booleanJson (.command lampOn)
    ∃ c, d'.submitted = [c] ∧ c.equipmentID = lamp.id ∧ c.on = true ∧
      c.expiresAt = 3+10*Configuration.second := by
  have hserved : (lampDesk.served.head?.map fun inventory =>
      inventory.equipment.toOption.map fun l => l.map fun q => q.id) = some (some [lamp.id]) := by
    decide +kernel
  have hnothing : lampDesk.submitted = [] := by decide +kernel
  obtain ⟨inventory,hlatest,hids⟩ := Option.map_eq_some_iff.mp hserved
  obtain ⟨equipment,hequipment,hids⟩ := Option.map_eq_some_iff.mp hids
  obtain ⟨q,hq,hid⟩ : ∃ q ∈ equipment, q.id = lamp.id := by
    simpa using List.mem_map.mp (hids ▸ List.mem_singleton_self lamp.id)
  have hasked : lampDesk.Asked asciiTrim testManager.registry lampOn q true := by
    obtain ⟨p,hp⟩ := haCommand_eq testManager.registry
      (show topicSegmentPattern ("equipment-"++lamp.id) = true by decide +kernel)
    rw [← hid] at hp
    refine ⟨inventory,hlatest,⟨equipment,?_,hq⟩,⟨_,p,hp,?_⟩,by decide⟩
    · cases hok : inventory.equipment with
      | error err => simp [hok,Except.toOption] at hequipment
      | ok l => simpa [hok,Except.toOption] using hequipment
    · rw [hid]
      exact congrArg bytes (show lampTopic = _ by decide +kernel)
  obtain ⟨hiff,hcommand⟩ := command_submitted_iff asciiTrim documentEncoder booleanJson
    newManager_testReef (emptyLink (failsAt 5))
    [.publish 0 (testRound [waterProbe] [lamp]),.replace 0,.publish 1 (testRound [] []),.replace 1]
    lampOn
  obtain ⟨c,hc,hequipmentID,hon,hissued,hexpires⟩ :=
    hcommand q true hasked (hiff.mpr ⟨⟨q,true,hasked⟩,_,rfl⟩)
  refine ⟨c,?_,hequipmentID.trans hid,hon,by rw [hexpires,hissued]; rfl⟩
  exact hc.trans (congrArg (· ++ [c]) hnothing)

end Samples

end Runs

end HomeAssistant
end AquaOS
