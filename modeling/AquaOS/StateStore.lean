import AquaOS.CanonicalState
import AquaOS.Measurement
import AquaOS.Transition

/-! The canonical store in full: validation, the global revision, commits and ordered snapshots.
A store is what replaying its commits gives, and a snapshot lists it in the order of its key
strings, which tell the keys it admits apart. -/
namespace AquaOS
namespace CanonicalState

open Domain Transition

inductive ValueKind
  | quantity | boolean | text | other (name : String)
  deriving DecidableEq

/-- `domain.Value`: a kind and optional members, of which a valid value has one. -/
structure CanonicalValue where
  kind : ValueKind
  quantity : Option Quantity := none
  boolean : Option Bool := none
  text : Option String := none
  deriving DecidableEq

def CanonicalValue.validate (v : CanonicalValue) : Option Failure :=
  if v.quantity.toList.length+v.boolean.toList.length+v.text.toList.length ≠ 1 then
    some (.message "canonical value must contain exactly one member")
  else
    match v.kind, v.quantity, v.boolean, v.text with
    | .quantity, none, _, _ => some (.message "quantity value is required")
    | .quantity, some q, _, _ => q.validate
    | .boolean, _, none, _ => some (.message "boolean value is required")
    | .text, _, _, none => some (.message "text value is required")
    | .boolean, _, some _, _ | .text, _, _, some _ => none
    | .other _, _, _, _ => some (.message "unsupported canonical value kind")

/-- A quality as a caller gives it; only the known ones are stored. -/
inductive StateQuality
  | known (q : Quality) | other (text : String)
  deriving DecidableEq

/-- `state.Value`; its revision is set by the store. -/
structure StateValue where
  key : Key
  value : CanonicalValue
  quality : StateQuality
  observedAt : ℤ
  receivedAt : ℤ
  freshFor : ℤ
  source : EndpointID
  revision : Revision := 0
  deriving DecidableEq

def Key.validate (key : Key) : Option Failure :=
  if key.entityKind ≠ .sensor ∧ key.entityKind ≠ .equipment then
    some (.message "unsupported entity kind")
  else if key.plane ≠ .observation ∧ key.plane ≠ .desired ∧ key.plane ≠ .reported then
    some (.message "unsupported state plane")
  else if key.entityKind = .sensor ∧ key.plane ≠ .observation then
    some (.message "sensor state must use observation plane")
  else if key.entityKind = .equipment ∧ key.plane = .observation then
    some (.message "equipment state must use desired or reported plane")
  else
    match validateID key.entityID with
    | some err => some (.wrapped "entity ID" err)
    | none =>
      if key.attributeName = "" then some (.message "state attribute is required") else none

def StateValue.validate (v : StateValue) : Option Failure :=
  match v.key.validate, v.value.validate, v.quality with
  | some err, _, _ | none, some err, _ => some err
  | none, none, .other _ => some (.message "unsupported state quality")
  | none, none, .known _ =>
    if v.observedAt = 0 ∨ v.receivedAt = 0 ∨ v.receivedAt < v.observedAt then
      some (.message "invalid state timestamps")
    else if v.freshFor ≤ 0 then some (.message "freshness duration must be positive")
    else
      match validateID v.source with
      | some err => some (.wrapped "source endpoint" err)
      | none => none

def StateValue.readAt (v : StateValue) (now : ℤ) : StateValue :=
  if now < v.observedAt+v.freshFor then v else { v with quality := .known .stale }

def EntityKind.text : EntityKind → String
  | .sensor => "sensor"
  | .equipment => "equipment"
  | .other text => text

def Plane.text : Plane → String
  | .observation => "observation"
  | .desired => "desired"
  | .reported => "reported"
  | .other text => text

def keyString (key : Key) : String :=
  key.entityKind.text++"/"++key.entityID++"/"++key.plane.text++"/"++key.attributeName

/-- Strings compare by their bytes. -/
def keyOrder (key : Key) : List ℕ := (bytes (keyString key)).map UInt8.toNat

structure Snapshot where
  revision : Revision
  values : List StateValue
  deriving DecidableEq

structure StateManager where
  values : Table Key StateValue := ∅
  revision : Revision := 0

/-- What a call does inside the lock section if it gets there. -/
inductive Commit
  | set (value : StateValue)
  | delete (key : Key)
  deriving DecidableEq

def StateManager.commit (m : StateManager) : Commit → StateManager
  | .set value =>
    ⟨m.values.insert value.key { value with revision := (m.revision+1) % 2^64 },
      (m.revision+1) % 2^64⟩
  | .delete key => ⟨m.values.erase key,(m.revision+1) % 2^64⟩

/-- `Set`; a publisher may fail after the commit. -/
def StateManager.set (m : StateManager) (ctx published : Option Failure) (value : StateValue) :
    Except Failure StateValue × StateManager :=
  match ctx, value.validate, published with
  | some err, _, _ | none, some err, _ => (.error err,m)
  | none, none, some err => (.error err,m.commit (.set value))
  | none, none, none =>
    (.ok { value with revision := (m.revision+1) % 2^64 },m.commit (.set value))

def StateManager.get (m : StateManager) (ctx : Option Failure) (now : ℤ) (key : Key) :
    Except Failure StateValue :=
  match ctx, m.values.lookup key with
  | some err, _ => .error err
  | none, none => .error .stateNotFound
  | none, some value => .ok (value.readAt now)

def StateManager.delete (m : StateManager) (ctx : Option Failure) (key : Key) :
    Option Failure × StateManager :=
  match ctx with
  | some err => (some err,m)
  | none => if key ∈ m.values then (none,m.commit (.delete key)) else (some .stateNotFound,m)

def StateManager.snapshotLocked (m : StateManager) (now : ℤ) : Snapshot :=
  ⟨m.revision,(m.values.values.map (·.readAt now)).insertionSort
    fun a b => keyOrder a.key ≤ keyOrder b.key⟩

inductive StateCall
  | set (ctx published : Option Failure) (value : StateValue)
  | delete (ctx : Option Failure) (key : Key)
  | get (ctx : Option Failure) (now : ℤ) (key : Key)
  | snapshot (ctx : Option Failure) (now : ℤ)

def StateManager.call (m : StateManager) : StateCall → StateManager
  | .set ctx published value => (m.set ctx published value).2
  | .delete ctx key => (m.delete ctx key).2
  | .get _ _ _ | .snapshot _ _ => m

def StateManager.commits (m : StateManager) : StateCall → Option Commit
  | .set ctx _ value => if ctx = none ∧ value.validate = none then some (.set value) else none
  | .delete ctx key => if ctx = none ∧ key ∈ m.values then some (.delete key) else none
  | .get _ _ _ | .snapshot _ _ => none

/-- The value last set under a key and not deleted since, with the number of its commit; commits
are listed from the newest. -/
def lastSet : List Commit → Key → Option StateValue
  | [], _ => none
  | .set value::earlier, key =>
    if key = value.key then some { value with revision := earlier.length+1 } else lastSet earlier key
  | .delete key'::earlier, key => if key = key' then none else lastSet earlier key

structure Ledger where
  store : StateManager := {}
  log : List Commit := []

def Ledger.call (l : Ledger) (c : StateCall) : Ledger :=
  ⟨l.store.call c,(l.store.commits c).toList++l.log⟩

def StateValue.view (v : StateValue) : Option Value :=
  match v.quality with
  | .known q => some ⟨v.value.boolean,q,v.observedAt,v.freshFor⟩
  | .other _ => none

/-- The readers' store holds the views of the values stored. -/
def StateManager.SeenAs (m : StateManager) (r : Manager) : Prop :=
  ∀ key, r.values.lookup key = (m.values.lookup key).bind StateValue.view

theorem call_eq_commit (m : StateManager) (c : StateCall) :
    m.call c = ((m.commits c).map m.commit).getD m := by
  cases c with
  | set ctx published value =>
    unfold StateManager.call StateManager.set StateManager.commits
    cases ctx with
    | some err => simp
    | none =>
      cases hv : value.validate with
      | some err => simp [hv]
      | none => cases published <;> simp [hv]
  | delete ctx key =>
    unfold StateManager.call StateManager.delete StateManager.commits
    cases ctx with
    | some err => simp
    | none =>
      by_cases hk : key ∈ m.values
      · simp [hk]
      · simp [hk]
  | get ctx now key => rfl
  | snapshot ctx now => rfl

section Keys

def slash : UInt8 := 0x2f

/-- What stands before the first separator is determined. -/
theorem append_cons_inj {A : Type} {a : A} {x x' y y' : List A} (hx : a ∉ x) (hx' : a ∉ x')
    (h : x++a::y = x'++a::y') : x = x' ∧ y = y' := by
  induction x generalizing x' with
  | nil =>
    cases x' with
    | nil => exact ⟨rfl,(List.cons.inj h).2⟩
    | cons b x' => exact absurd ((List.cons.inj h).1 ▸ List.mem_cons_self) hx'
  | cons b x ih =>
    cases x' with
    | nil => exact absurd ((List.cons.inj h).1 ▸ List.mem_cons_self) hx
    | cons b' x' =>
      obtain ⟨rfl,htail⟩ := List.cons.inj h
      obtain ⟨rfl,hy⟩ := ih (fun hm => hx (List.mem_cons_of_mem _ hm))
        (fun hm => hx' (List.mem_cons_of_mem _ hm)) htail
      exact ⟨rfl,hy⟩

theorem uuid_no_slash {value : List UInt8} (h : validateUUID value = none) : slash ∉ value := by
  unfold validateUUID at h
  split_ifs at h with _ hhex
  intro hmem
  have hdigit : isHexDigit slash = true := by
    have hall := (Bool.and_eq_true _ _).mp hhex |>.2
    refine List.all_eq_true.mp hall slash (List.mem_filter.mpr ⟨hmem,?_⟩)
    decide
  exact absurd hdigit (by decide)

structure Key.Admitted (key : Key) : Prop where
  kind : slash ∉ bytes key.entityKind.text
  id : slash ∉ bytes key.entityID
  plane : slash ∉ bytes key.plane.text
  kindKnown : key.entityKind = .sensor ∨ key.entityKind = .equipment
  planeKnown : key.plane = .observation ∨ key.plane = .desired ∨ key.plane = .reported

variable {key key' : Key} {v : StateValue}

theorem key_admitted (h : key.validate = none) : key.Admitted := by
  unfold Key.validate at h
  cases hid : validateID key.entityID with
  | some err =>
    rw [hid] at h
    split_ifs at h
  | none =>
    rw [hid] at h
    split_ifs at h with hkind hplane _ _ _
    have hkinds : key.entityKind = .sensor ∨ key.entityKind = .equipment := by tauto
    have hplanes : key.plane = .observation ∨ key.plane = .desired ∨ key.plane = .reported := by
      tauto
    refine ⟨?_,uuid_no_slash hid,?_,hkinds,hplanes⟩
    · rcases hkinds with hk | hk <;> rw [hk] <;> decide
    · rcases hplanes with hp | hp | hp <;> rw [hp] <;> decide

theorem key_entityID (h : key.validate = none) : validateID key.entityID = none := by
  unfold Key.validate at h
  cases hid : validateID key.entityID with
  | none => rfl
  | some err =>
    rw [hid] at h
    split_ifs at h

theorem key_desired (h : key.validate = none) (hplane : key.plane = .desired) :
    key.entityKind = .equipment := by
  rcases (key_admitted h).kindKnown with hkind | hkind
  · simp [Key.validate,hkind,hplane] at h
  · exact hkind

theorem validate_key (h : v.validate = none) : v.key.validate = none := by
  cases hkey : v.key.validate with
  | some err => simp [StateValue.validate,hkey] at h
  | none => rfl

theorem validate_value (h : v.validate = none) : v.value.validate = none := by
  cases hvalue : v.value.validate with
  | none => rfl
  | some err => simp [StateValue.validate,validate_key h,hvalue] at h

theorem validate_admitted (h : v.validate = none) : v.key.Admitted :=
  key_admitted (validate_key h)

theorem bytes_keyString (key : Key) :
    bytes (keyString key) = bytes key.entityKind.text++slash::(bytes key.entityID++slash::
      (bytes key.plane.text++slash::bytes key.attributeName)) := by
  have hslash : bytes "/" = [slash] := by decide
  simp [keyString,bytes_append,hslash]

theorem keyString_inj (h : key.Admitted) (h' : key'.Admitted)
    (hs : bytes (keyString key) = bytes (keyString key')) : key = key' := by
  rw [bytes_keyString,bytes_keyString] at hs
  obtain ⟨hkind,hs⟩ := append_cons_inj h.kind h'.kind hs
  obtain ⟨hid,hs⟩ := append_cons_inj h.id h'.id hs
  obtain ⟨hplane,hattr⟩ := append_cons_inj h.plane h'.plane hs
  have hkind' : key.entityKind = key'.entityKind := by
    have htext := bytes_inj hkind
    rcases h.kindKnown with hk | hk <;> rcases h'.kindKnown with hk' | hk' <;>
      simp_all [EntityKind.text]
  have hplane' : key.plane = key'.plane := by
    have htext := bytes_inj hplane
    rcases h.planeKnown with hk | hk | hk <;> rcases h'.planeKnown with hk' | hk' | hk' <;>
      simp_all [Plane.text]
  obtain ⟨kind,id,plane,attr⟩ := key
  obtain ⟨kind',id',plane',attr'⟩ := key'
  simp only at hkind' hplane' hid hattr
  rw [hkind',hplane',bytes_inj hid,bytes_inj hattr]

theorem keyOrder_inj (h : key.Admitted) (h' : key'.Admitted)
    (hs : keyOrder key = keyOrder key') : key = key' :=
  keyString_inj h h' (List.map_injective_iff.mpr (fun _ _ hn => UInt8.toNat_inj.mp hn) hs)

end Keys

section Values

theorem readAt_key (v : StateValue) (now : ℤ) : (v.readAt now).key = v.key := by
  unfold StateValue.readAt
  split_ifs <;> rfl

theorem readAt_stale_iff (v : StateValue) (now : ℤ) : (v.readAt now).quality = .known .stale ↔
      v.observedAt+v.freshFor ≤ now ∨ v.quality = .known .stale := by
  unfold StateValue.readAt
  split_ifs with hfresh
  · simp [not_le.mpr hfresh]
  · simp [not_lt.mp hfresh]

theorem view_readAt (v : StateValue) (now : ℤ) (h : v.view ≠ none) :
    (v.readAt now).view = v.view.map (·.readAt now) := by
  unfold StateValue.readAt StateValue.view at *
  cases hq : v.quality with
  | known q => split_ifs with hfresh <;> simp [hq,Value.readAt,hfresh]
  | other text => simp [hq] at h

theorem validate_view {v : StateValue} (h : v.validate = none) : v.view ≠ none := by
  unfold StateValue.validate at h
  unfold StateValue.view
  cases hq : v.quality with
  | known q => simp
  | other text =>
    rw [hq] at h
    split at h <;> simp_all

end Values

section Log

variable {log : List Commit} {key : Key} {v : StateValue}

theorem lastSet_revision
    (h : lastSet log key = some v) : 1 ≤ v.revision ∧ v.revision ≤ log.length := by
  induction log with
  | nil => cases h
  | cons c earlier ih =>
    cases c with
    | set value =>
      unfold lastSet at h
      split_ifs at h
      · obtain rfl := Option.some.inj h
        simp
      · obtain ⟨hpos,hle⟩ := ih h
        exact ⟨hpos,hle.trans (Nat.le_succ _)⟩
    | delete key' =>
      unfold lastSet at h
      split_ifs at h
      obtain ⟨hpos,hle⟩ := ih h
      exact ⟨hpos,hle.trans (Nat.le_succ _)⟩

/-- Every commit sets one key, so values set by different commits have different revisions. -/
theorem lastSet_distinct {key' : Key} {v' : StateValue} (h : lastSet log key = some v)
    (h' : lastSet log key' = some v') (hr : v.revision = v'.revision) : key = key' := by
  induction log with
  | nil => cases h
  | cons c earlier ih =>
    cases c with
    | set value =>
      unfold lastSet at h h'
      split_ifs at h h' with hk hk' hk'
      · exact hk.trans hk'.symm
      · obtain rfl := Option.some.inj h
        exact absurd hr (Nat.lt_succ_of_le (lastSet_revision h').2).ne'
      · obtain rfl := Option.some.inj h'
        exact absurd hr (Nat.lt_succ_of_le (lastSet_revision h).2).ne
      · exact ih h h'
    | delete gone =>
      unfold lastSet at h h'
      split_ifs at h h'
      exact ih h h'

end Log

/-- A store is the replay of its commits, as long as the revision does not wrap. -/
structure Ledger.Faithful (l : Ledger) : Prop where
  revision : l.log.length < 2^64 → l.store.revision = l.log.length
  values : l.log.length < 2^64 → ∀ key, l.store.values.lookup key = lastSet l.log key
  stored : ∀ key v, l.store.values.lookup key = some v →
    v.key = key ∧ v.key.Admitted ∧ v.view ≠ none

variable {l : Ledger}

theorem Ledger.Faithful.revision_next (h : l.Faithful) (hfew : l.log.length+1 < 2^64) :
    (l.store.revision+1)%2^64 = l.log.length+1 := by
  rw [h.revision (by omega),Nat.mod_eq_of_lt hfew]

theorem set_faithful (h : l.Faithful) {value : StateValue} (hv : value.validate = none) :
    Ledger.Faithful ⟨l.store.commit (.set value),.set value::l.log⟩ where
  revision := h.revision_next
  values hfew key := by
    have hfew' : l.log.length+1 < 2^64 := hfew
    simp only [StateManager.commit,Table.lookup_insert_ite,lastSet,h.values (by omega) key,
      h.revision_next hfew']
  stored := Table.forall_insert ⟨rfl,validate_admitted hv,validate_view hv⟩ h.stored

theorem delete_faithful (h : l.Faithful) (key : Key) :
    Ledger.Faithful ⟨l.store.commit (.delete key),.delete key::l.log⟩ where
  revision := h.revision_next
  values hfew key' := by
    have hfew' : l.log.length+1 < 2^64 := hfew
    simp only [StateManager.commit,lastSet]
    split_ifs with hk
    · rw [hk,AList.lookup_erase]
    · rw [AList.lookup_erase_ne hk,h.values (by omega) key']
  stored key' v hl := by
    simp only [StateManager.commit] at hl
    by_cases hk : key' = key
    · rw [hk,AList.lookup_erase] at hl
      cases hl
    · rw [AList.lookup_erase_ne hk] at hl
      exact h.stored key' v hl

theorem call_faithful (h : l.Faithful) (c : StateCall) : (l.call c).Faithful := by
  unfold Ledger.call
  rw [call_eq_commit]
  cases c with
  | set ctx published value =>
    unfold StateManager.commits
    dsimp only
    split_ifs with hc
    · exact set_faithful h hc.2
    · exact h
  | delete ctx key =>
    unfold StateManager.commits
    dsimp only
    split_ifs with hc
    · exact delete_faithful h key
    · exact h
  | get ctx now key => exact h
  | snapshot ctx now => exact h

theorem empty_faithful : Ledger.Faithful {} :=
  ⟨fun _ => rfl,fun _ _ => rfl,fun _ _ h => by simp at h⟩

theorem run_faithful (h : l.Faithful) (calls : List StateCall) :
    (run Ledger.call l calls).Faithful :=
  invariant_always (I := Ledger.Faithful) (fun _ c hl => call_faithful hl c) h calls

theorem ledger_store (l : Ledger) (calls : List StateCall) :
    (run Ledger.call l calls).store = run StateManager.call l.store calls :=
  (List.foldl_hom Ledger.store fun _ _ => rfl).symm

section Snapshots

variable {m : StateManager}
  (hm : ∀ key v, m.values.lookup key = some v → v.key = key ∧ v.key.Admitted ∧ v.view ≠ none)

include hm

theorem snapshot_mem (now : ℤ) (x : StateValue) : x ∈ (m.snapshotLocked now).values ↔
      ∃ v, m.values.lookup x.key = some v ∧ x = v.readAt now := by
  unfold StateManager.snapshotLocked
  dsimp only
  rw [(List.perm_insertionSort _ _).mem_iff]
  simp only [List.mem_map,Table.mem_values]
  constructor
  · rintro ⟨v,⟨key,hv⟩,rfl⟩
    refine ⟨v,?_,rfl⟩
    rw [readAt_key,(hm key v hv).1]
    exact hv
  · rintro ⟨v,hv,rfl⟩
    exact ⟨v,⟨_,hv⟩,rfl⟩

theorem snapshot_keys (now : ℤ) :
    ((m.snapshotLocked now).values.map StateValue.key).Perm m.values.keys := by
  unfold StateManager.snapshotLocked
  dsimp only
  refine ((List.perm_insertionSort _ _).map _).trans ?_
  rw [List.map_map]
  have hkeys : m.values.values.map (StateValue.key ∘ (·.readAt now)) = m.values.keys := by
    rw [Table.values,List.map_map,AList.keys,List.keys]
    apply List.map_congr_left
    rintro ⟨key,v⟩ hmem
    simp only [Function.comp_apply,readAt_key]
    exact (hm key v (AList.mem_lookup_iff.mpr hmem)).1
  rw [hkeys]

theorem snapshot_sorted (now : ℤ) :
    (m.snapshotLocked now).values.Pairwise fun a b => keyOrder a.key < keyOrder b.key := by
  unfold StateManager.snapshotLocked
  dsimp only
  refine insertionSort_strict (fun v : StateValue => keyOrder v.key) ?_
  rw [List.map_map]
  have hkeys : (m.values.values.map StateValue.key).Nodup :=
    Table.values_nodup fun key v hv => (hm key v hv).1
  have horder : m.values.values.map ((fun v => keyOrder v.key) ∘ (·.readAt now)) =
      (m.values.values.map StateValue.key).map keyOrder := by
    rw [List.map_map]
    apply List.map_congr_left
    intro v _
    simp only [Function.comp_apply,readAt_key]
  rw [horder]
  refine hkeys.map_on fun key hkey key' hkey' hsame => ?_
  obtain ⟨v,hv,rfl⟩ := List.mem_map.mp hkey
  obtain ⟨v',hv',rfl⟩ := List.mem_map.mp hkey'
  obtain ⟨_,hl⟩ := Table.mem_values.mp hv
  obtain ⟨_,hl'⟩ := Table.mem_values.mp hv'
  exact keyOrder_inj (hm _ v hl).2.1 (hm _ v' hl').2.1 hsame

theorem get_seen {r : Manager} (hr : m.SeenAs r) (ctx : Option Failure) (now : ℤ) (key : Key) :
    (∀ err, m.get ctx now key = .error err → r.get ctx now key = .error err) ∧
    ∀ v, m.get ctx now key = .ok v → ∃ x, v.view = some x ∧ r.get ctx now key = .ok x := by
  unfold StateManager.get Manager.get
  rw [hr key]
  cases ctx with
  | some err => simp
  | none =>
    cases hl : m.values.lookup key with
    | none => simp
    | some v =>
      obtain ⟨x,hx⟩ := Option.ne_none_iff_exists'.mp (hm key v hl).2.2
      refine ⟨fun err herr => by simp at herr,fun v' hv' => ?_⟩
      obtain rfl : v.readAt now = v' := Except.ok.inj hv'
      refine ⟨x.readAt now,?_,by simp [hx]⟩
      rw [view_readAt v now (hm key v hl).2.2,hx]
      rfl

end Snapshots

/-- After any calls `Get` answers its readers with the view of what is stored. -/
theorem get_seen_always (calls : List StateCall) {r : Manager}
    (hr : (run StateManager.call {} calls).SeenAs r) (ctx : Option Failure) (now : ℤ) (key : Key) :
    (∀ err, (run StateManager.call {} calls).get ctx now key = .error err →
      r.get ctx now key = .error err) ∧
    ∀ v, (run StateManager.call {} calls).get ctx now key = .ok v →
      ∃ x, v.view = some x ∧ r.get ctx now key = .ok x := by
  have hstored := (run_faithful empty_faithful calls).stored
  rw [ledger_store] at hstored
  exact get_seen hstored hr ctx now key

/-- After any calls the revision counts the commits, every key holds the value last set for it
with the number of its commit, and a snapshot lists each stored key once, in strictly increasing
order of the key strings, stale exactly where its freshness has elapsed or stale was stored. -/
theorem store_replays_commits (calls : List StateCall)
    (hfew : (run Ledger.call {} calls).log.length < 2^64) : let l := run Ledger.call {} calls
    let m := run StateManager.call {} calls
    m.revision = l.log.length ∧ (∀ key, m.values.lookup key = lastSet l.log key) ∧
    (∀ key key' v v', m.values.lookup key = some v → m.values.lookup key' = some v' →
      v.revision ≤ m.revision ∧ (v.revision = v'.revision → key = key')) ∧
    ∀ now, (m.snapshotLocked now).revision = m.revision ∧
      ((m.snapshotLocked now).values.map StateValue.key).Perm m.values.keys ∧
      (m.snapshotLocked now).values.Pairwise (fun a b => keyOrder a.key < keyOrder b.key) ∧
      ∀ x ∈ (m.snapshotLocked now).values, ∃ v, m.values.lookup x.key = some v ∧
        x = v.readAt now ∧ x.revision = v.revision ∧ x.value = v.value ∧
        (x.quality = .known .stale ↔ v.observedAt+v.freshFor ≤ now ∨ v.quality = .known .stale) := by
  intro l m
  have hl : l.Faithful := run_faithful empty_faithful calls
  have hstore : l.store = m := ledger_store {} calls
  obtain ⟨hrevision,hvalues,hstored⟩ := hl
  rw [hstore] at hrevision hvalues hstored
  refine ⟨hrevision hfew,hvalues hfew,fun key key' v v' hv hv' => ⟨?_,fun hsame => ?_⟩,
    fun now => ⟨rfl,snapshot_keys hstored now,snapshot_sorted hstored now,fun x hx => ?_⟩⟩
  · rw [hvalues hfew] at hv
    rw [hrevision hfew]
    exact (lastSet_revision hv).2
  · rw [hvalues hfew] at hv hv'
    exact lastSet_distinct hv hv' hsame
  · obtain ⟨v,hv,rfl⟩ := (snapshot_mem hstored now x).mp hx
    refine ⟨v,hv,rfl,?_,?_,readAt_stale_iff v now⟩
    · unfold StateValue.readAt
      split_ifs <;> rfl
    · unfold StateValue.readAt
      split_ifs <;> rfl

def reportedSwitch (on : Bool) : StateValue :=
  { key := ⟨.equipment,"00000000-0000-4000-8000-000000000001",.reported,"power"⟩
    value := { kind := .boolean, boolean := some on }, quality := .known .good
    observedAt := 1, receivedAt := 1, freshFor := 10
    source := "00000000-0000-4000-8000-000000000002" }

theorem reported_switch_replayed :
    let m := run StateManager.call {} [.set none none (reportedSwitch true),
      .set none none (reportedSwitch false)]
    m.revision = 2 ∧ (m.values.lookup (reportedSwitch true).key).map StateValue.revision = some 2 ∧
      ((m.snapshotLocked 11).values.map StateValue.key).Perm m.values.keys := by
  obtain ⟨hrevision,hvalues,_,hsnapshot⟩ := store_replays_commits
    [.set none none (reportedSwitch true),.set none none (reportedSwitch false)] (by decide +kernel)
  refine ⟨?_,?_,(hsnapshot 11).2.1⟩
  · rw [hrevision]
    decide +kernel
  · rw [hvalues]
    decide +kernel

theorem reported_switch_seen : let m := run StateManager.call {} [.set none none (reportedSwitch true)]
    ∀ v, m.get none 2 (reportedSwitch true).key = .ok v → ∃ x, v.view = some x ∧
      Manager.get ⟨(∅ : Table Key Value).insert (reportedSwitch true).key ⟨some true,.good,1,10⟩⟩ none 2
        (reportedSwitch true).key = .ok x := by
  refine (get_seen_always [.set none none (reportedSwitch true)] (fun key => ?_) none 2 _).2
  change _ = (((∅ : Table Key StateValue).insert (reportedSwitch true).key
    { reportedSwitch true with revision := 1 }).lookup key).bind _
  rw [Table.lookup_insert_ite,Table.lookup_insert_ite]
  split_ifs <;> rfl

end CanonicalState
end AquaOS
