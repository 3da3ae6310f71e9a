import Mathlib.Data.String.Basic
import AquaOS.AlarmState
import AquaOS.Ownership
import AquaOS.Paging

/-! The lists of devices and alarms that the interface hands out page by page. A cursor is the
position at which the next page begins, and every request lists anew: a map in any order, sorted by
one field. Where that field orders the entries completely the pages fit together; alarms that were
first observed at the same moment may change places between two pages. -/
namespace AquaOS
namespace Api

open Domain Paging Registries

abbrev Bytes := List UInt8

/-- `strconv` and `base64.RawURLEncoding`, which read what they have written. -/
structure Texts where
  atoi : Bytes → Option ℤ
  itoa : ℤ → Bytes
  encode : Bytes → Bytes
  decode : Bytes → Option Bytes
  atoi_itoa : ∀ n, 0 ≤ n → n < 2^63 → atoi (itoa n) = some n
  atoi_range : ∀ text n, atoi text = some n → -2^63 ≤ n ∧ n < 2^63
  atoi_empty : atoi [] = none
  decode_encode : ∀ data, decode (encode data) = some data
  decode_empty : decode [] = some []

structure Problem where
  status : ℕ
  code : String
  title : String
  detail : String
  deriving DecidableEq

structure Query where
  limit : Bytes := []
  cursor : Bytes := []
  status : Bytes := []

inductive Reply (V : Type)
  | page (items : List V) (nextCursor : Bytes)
  | problem (p : Problem)
  | panicked

section Handlers

variable {V : Type} (c : Texts)

def invalidPagination : Problem :=
  ⟨400,"invalid_pagination","Invalid pagination","limit must be between 1 and 200."⟩

def invalidCursor : Problem := ⟨400,"invalid_cursor","Invalid cursor","cursor is malformed."⟩

def serviceUnavailable : Problem :=
  ⟨503,"service_unavailable","Service unavailable",
    "The requested application service is not configured."⟩

def internalError : Problem :=
  ⟨500,"internal_error","Internal error","The request could not be completed."⟩

def limitOf (raw : Bytes) : Option ℤ :=
  if raw = [] then some 100
  else
    match c.atoi raw with
    | none => none
    | some value => if value < 1 ∨ 200 < value then none else some value

def startOf (raw : Bytes) : Option ℤ :=
  if raw = [] then some 0
  else
    match c.decode raw with
    | none => none
    | some decoded =>
      match c.atoi decoded with
      | none => none
      | some start => if start < 0 then none else some start

def pagination (q : Query) : Except Problem (ℤ × ℤ) :=
  match limitOf c q.limit with
  | none => .error invalidPagination
  | some limit =>
    match startOf c q.cursor with
    | none => .error invalidCursor
    | some start => .ok (start,limit)

def add64 (a b : ℤ) : ℤ := (a+b).bmod (2^64)

/-- The bounds of the slice that a handler takes. -/
def bounds (length start limit : ℤ) : ℤ × ℤ :=
  let start := if length < start then length else start
  let stop := add64 start limit
  (start,if length < stop then length else stop)

def slice (values : List V) (start stop : ℤ) : Option (List V) :=
  if 0 ≤ start ∧ start ≤ stop ∧ stop ≤ values.length then
    some (Paging.page values start.toNat stop.toNat)
  else none

/-- The handlers from `pagination` on. -/
def respond (values : List V) (q : Query) : Reply V :=
  match pagination c q with
  | .error p => .problem p
  | .ok (start,limit) =>
    let (start,stop) := bounds values.length start limit
    let next := if stop < values.length then c.encode (c.itoa stop) else []
    match slice values start stop with
    | some items => .page items next
    | none => .panicked

/-- A handler whose service may not be configured, and may fail to list. -/
def listPage (service : Option (Except Failure (List V))) (q : Query) : Reply V :=
  match service with
  | none => .problem serviceUnavailable
  | some (.error _) => .problem internalError
  | some (.ok values) => respond c values q

/-- What a registry lists: the values of its map, arranged by the iteration and the sort. -/
def listing (ctx : Option Failure) (arrange : List V → List V) (values : List V) :
    Except Failure (List V) :=
  match ctx with
  | some err => .error err
  | none => .ok (arrange values)

def listDevices (devices : Option Devices) (ctx : Option Failure)
    (arrange : List Device → List Device) (q : Query) : Reply Device :=
  listPage c (devices.map fun r => listing ctx arrange r.devices.values) q

/-- The alarms that `List` takes out of the map. -/
def matching (m : Alarms.Manager) (status : Bytes) : List Alarms.Alarm :=
  m.alarms.values.filter fun a => status = [] ∨ bytes (a.status.text) = status

def listAlarms (alarms : Option Alarms.Manager) (ctx : Option Failure)
    (arrange : List Alarms.Alarm → List Alarms.Alarm) (q : Query) : Reply Alarms.Alarm :=
  listPage c (alarms.map fun m => listing ctx arrange (matching m q.status)) q

/-- Any order of a map, followed by any sort that is consistent with its comparison. -/
def Arranges {T : Type} [LinearOrder T] (key : V → T) (arrange : List V → List V) : Prop :=
  ∀ values, ListedBy key values (arrange values)

end Handlers

section Client

variable {V : Type}

structure Client (V : Type) where
  cursor : Bytes := []
  received : List V := []
  finished : Bool := false

def Client.receive (client : Client V) : Reply V → Client V
  | .page items next => ⟨next,client.received++items,next = []⟩
  | .problem _ | .panicked => client

/-- The client after some requests, by what is answered to each of them. -/
def walk (answer : ℕ → Bytes → Reply V) : ℕ → Client V
  | 0 => {}
  | n+1 =>
    if (walk answer n).finished then walk answer n
    else (walk answer n).receive (answer n (walk answer n).cursor)

end Client

section Bounds

variable {V : Type} (c : Texts) {raw : Bytes} {limit start n : ℤ} {length : ℕ}

theorem limitOf_range (h : limitOf c raw = some limit) : 1 ≤ limit ∧ limit ≤ 200 := by
  unfold limitOf at h
  split_ifs at h
  · cases h
    decide
  · cases hvalue : c.atoi raw with
    | none => simp [hvalue] at h
    | some value =>
      simp only [hvalue] at h
      split_ifs at h
      cases h
      omega

theorem startOf_range (h : startOf c raw = some start) : 0 ≤ start := by
  unfold startOf at h
  split_ifs at h
  · cases h
    exact le_rfl
  · cases hdecoded : c.decode raw with
    | none => simp [hdecoded] at h
    | some decoded =>
      cases hvalue : c.atoi decoded with
      | none => simp [hdecoded,hvalue] at h
      | some value =>
        simp only [hdecoded,hvalue] at h
        split_ifs at h
        cases h
        omega

theorem pagination_ok {q : Query} (h : pagination c q = .ok (start,limit)) :
    startOf c q.cursor = some start ∧ limitOf c q.limit = some limit := by
  unfold pagination at h
  cases hlimit : limitOf c q.limit with
  | none => simp [hlimit] at h
  | some limit' =>
    cases hstart : startOf c q.cursor with
    | none => simp [hlimit,hstart] at h
    | some start' =>
      simp only [hlimit,hstart,Except.ok.injEq,Prod.mk.injEq] at h
      exact ⟨h.1 ▸ rfl,h.2 ▸ rfl⟩

theorem add64_eq {a b : ℤ} (ha : 0 ≤ a) (hb : 0 ≤ b) (h : a+b < 2^63) : add64 a b = a+b :=
  Int.bmod_eq_of_le (by norm_num; omega) (by norm_num; omega)

/-- Values of eight bytes and more leave room for another page. -/
theorem bounds_eq (hfits : 8*length < 2^63) (hstart : 0 ≤ start)
    (hlimit : 1 ≤ limit ∧ limit ≤ 200) : bounds length start limit =
      (min start length,min (min start length+limit) length) := by
  have hmin : (if (length : ℤ) < start then (length : ℤ) else start) = min start length := by
    split_ifs <;> omega
  unfold bounds
  dsimp only
  rw [hmin,add64_eq (by omega) (by omega) (by omega)]
  congr 1
  split_ifs <;> omega

theorem bounds_in_range (hfits : 8*length < 2^63) (hstart : 0 ≤ start)
    (hlimit : 1 ≤ limit ∧ limit ≤ 200) : 0 ≤ (bounds length start limit).1 ∧
      (bounds length start limit).1 ≤ (bounds length start limit).2 ∧
      (bounds length start limit).2 ≤ length := by
  rw [bounds_eq hfits hstart hlimit]
  dsimp only
  omega

theorem encode_ne_nil (hn : 0 ≤ n) (hlt : n < 2^63) : c.encode (c.itoa n) ≠ [] := by
  intro hempty
  have hread := c.decode_encode (c.itoa n)
  rw [hempty,c.decode_empty] at hread
  have hitoa := c.atoi_itoa n hn hlt
  rw [← Option.some.inj hread,c.atoi_empty] at hitoa
  cases hitoa

theorem startOf_encode (hn : 0 ≤ n) (hlt : n < 2^63) :
    startOf c (c.encode (c.itoa n)) = some n := by
  unfold startOf
  rw [if_neg (encode_ne_nil c hn hlt),c.decode_encode]
  simp only [c.atoi_itoa n hn hlt]
  rw [if_neg (by omega)]

end Bounds

section Walk

variable {V : Type} (c : Texts) {values : List V} {q : Query}

theorem respond_page (hfits : 8*values.length < 2^63) {start size : ℕ}
    (hcursor : startOf c q.cursor = some (start : ℤ)) (hlimit : limitOf c q.limit = some (size : ℤ))
    (hstart : start ≤ values.length) :
    respond c values q = .page (Paging.page values start (start+size))
      (if start+size < values.length then c.encode (c.itoa ((start+size : ℕ) : ℤ)) else []) := by
  have hrange := limitOf_range c hlimit
  have hpagination : pagination c q = .ok ((start : ℤ),(size : ℤ)) := by
    simp only [pagination,hlimit,hcursor]
  have hbounds : bounds values.length start size =
      ((start : ℤ),((min (start+size) values.length : ℕ) : ℤ)) := by
    rw [bounds_eq hfits (by omega) hrange]
    ext <;> dsimp only <;> omega
  have hslice : slice values start ((min (start+size) values.length : ℕ) : ℤ) =
      some (Paging.page values start (start+size)) := by
    rw [slice,if_pos (by omega),Int.toNat_natCast,Int.toNat_natCast,Paging.page,Paging.page,
      List.take_eq_take_min,min_assoc,min_self,← List.take_eq_take_min]
  unfold respond
  simp only [hpagination,hbounds,hslice]
  congr 1
  by_cases hlast : start+size < values.length
  · rw [if_pos hlast,if_pos (by omega),min_eq_left hlast.le]
  · rw [if_neg hlast,if_neg (by omega)]

variable {listings : ℕ → List V} {limits : ℕ → Bytes} {size : ℕ → ℕ} {length : ℕ}

/-- What is answered by handlers that list each time anew. -/
def answers (listings : ℕ → List V) (limits : ℕ → Bytes) (k : ℕ) (cursor : Bytes) : Reply V :=
  respond c (listings k) { limit := limits k, cursor := cursor }

/-- A client has received the pages up to its position and stands at that, or at the end. -/
structure Reaches (listings : ℕ → List V) (size : ℕ → ℕ) (length n : ℕ) (client : Client V) :
    Prop where
  received : client.received = gathered listings size n
  finished : client.finished = true ↔ 0 < n ∧ length ≤ offset size n
  cursor : client.finished = false → startOf c client.cursor = some (offset size n : ℤ)

theorem walk_reaches (hfits : 8*length < 2^63) (hlength : ∀ k, (listings k).length = length)
    (hlimits : ∀ k, limitOf c (limits k) = some (size k : ℤ)) (n : ℕ) :
    Reaches c listings size length n (walk (answers c listings limits) n) := by
  induction n with
  | zero => exact ⟨rfl,by simp [walk],fun _ => rfl⟩
  | succ n ih =>
    unfold walk
    by_cases hfinished : (walk (answers c listings limits) n).finished = true
    · rw [if_pos hfinished]
      have hend := (ih.finished.mp hfinished).2
      refine ⟨?_,iff_of_true hfinished ⟨Nat.succ_pos n,hend.trans (offset_le_succ size n)⟩,
        by simp [hfinished]⟩
      rw [ih.received,gathered,Paging.page,List.drop_of_length_le,List.append_nil]
      rw [List.length_take,hlength]
      omega
    · rw [if_neg hfinished]
      have hcursor := ih.cursor (Bool.eq_false_of_not_eq_true hfinished)
      have hwithin : offset size n ≤ (listings n).length := by
        rw [hlength]
        by_contra hlt
        rcases Nat.eq_zero_or_pos n with rfl | hpos
        · simp [offset] at hlt
        · exact hfinished (ih.finished.mpr ⟨hpos,by omega⟩)
      have hpage : answers c listings limits n (walk (answers c listings limits) n).cursor = _ :=
        respond_page c (by rw [hlength]; exact hfits) hcursor (hlimits n) hwithin
      rw [hpage,hlength]
      have hrange := limitOf_range c (hlimits n)
      rw [hlength] at hwithin
      have hcursor' := encode_ne_nil c (n := ((offset size n+size n : ℕ) : ℤ)) (by omega) (by omega)
      by_cases hlast : offset size n+size n < length
      · rw [if_pos hlast]
        refine ⟨by rw [Client.receive,ih.received]; rfl,?_,fun _ => ?_⟩
        · rw [Client.receive,decide_eq_true_iff,offset]
          exact iff_of_false hcursor' (by omega)
        · exact startOf_encode c (by omega) (by omega)
      · rw [if_neg hlast]
        refine ⟨by rw [Client.receive,ih.received]; rfl,?_,fun hopen => by cases hopen⟩
        rw [Client.receive,decide_eq_true_iff,offset]
        exact iff_of_true rfl (by omega)

/-- A client has come to the end after as many requests as there are values, and one more, with all
pages up to there. -/
theorem walk_finishes (hfits : 8*length < 2^63) (hlength : ∀ k, (listings k).length = length)
    (hlimits : ∀ k, limitOf c (limits k) = some (size k : ℤ)) : length ≤ offset size (length+1) ∧
      (walk (answers c listings limits) (length+1)).finished = true ∧
      (walk (answers c listings limits) (length+1)).received =
        gathered listings size (length+1) := by
  have hsize : ∀ k, 1 ≤ size k := fun k => by have := limitOf_range c (hlimits k); omega
  have hend : length ≤ offset size (length+1) := (Nat.le_succ length).trans (le_offset hsize _)
  have hreaches := walk_reaches c hfits hlength hlimits (length+1)
  exact ⟨hend,hreaches.finished.mpr ⟨Nat.succ_pos _,hend⟩,hreaches.received⟩

theorem exists_sizes {limits : ℕ → Bytes} (h : ∀ k, (limitOf c (limits k)).isSome) :
    ∃ size : ℕ → ℕ, ∀ k, limitOf c (limits k) = some (size k : ℤ) := by
  refine ⟨fun k => ((limitOf c (limits k)).getD 0).toNat,fun k => ?_⟩
  obtain ⟨limit,hlimit⟩ := Option.isSome_iff_exists.mp (h k)
  have hrange := limitOf_range c hlimit
  dsimp only
  rw [hlimit,Option.getD_some,Int.toNat_of_nonneg (by omega)]

end Walk

section Decimal

def digitText (n : ℕ) : Bytes :=
  if n = 0 then [48] else ((Nat.digits 10 n).map fun d => UInt8.ofNat (48+d)).reverse

def digitValue (text : Bytes) : ℕ := Nat.ofDigits 10 (text.reverse.map fun b => b.toNat-48)

theorem digit_spec : ∀ d < 10, (48 ≤ UInt8.ofNat (48+d) ∧ UInt8.ofNat (48+d) ≤ 57) ∧
    (UInt8.ofNat (48+d)).toNat-48 = d := by
  decide

theorem digitText_spec (n : ℕ) : digitText n ≠ [] ∧ (∀ b ∈ digitText n, 48 ≤ b ∧ b ≤ 57) ∧
    digitValue (digitText n) = n := by
  unfold digitText
  split_ifs with hzero
  · exact ⟨by simp,by simp,by simp [digitValue,hzero]⟩
  · have hdigit : ∀ d ∈ Nat.digits 10 n, d < 10 := fun d hd => Nat.digits_lt_base (by decide) hd
    refine ⟨by simpa using Nat.digits_ne_nil_iff_ne_zero.mpr hzero,?_,?_⟩
    · intro b hb
      obtain ⟨d,hd,rfl⟩ := List.mem_map.mp (List.mem_reverse.mp hb)
      exact (digit_spec d (hdigit d hd)).1
    · have hmap : ((Nat.digits 10 n).map fun d => UInt8.ofNat (48+d)).map (fun b => b.toNat-48) =
          Nat.digits 10 n := by
        rw [List.map_map]
        exact (List.map_congr_left fun d hd => (digit_spec d (hdigit d hd)).2).trans (List.map_id _)
      rw [digitValue,List.reverse_reverse,hmap,Nat.ofDigits_digits]

def decimalAtoi (text : Bytes) : Option ℤ :=
  if text ≠ [] ∧ (text.all fun b => 48 ≤ b && b ≤ 57) ∧ digitValue text < 2^63 then
    some (digitValue text)
  else none

theorem decimalAtoi_itoa (n : ℤ) (hn : 0 ≤ n) (hlt : n < 2^63) :
    decimalAtoi (digitText n.toNat) = some n := by
  obtain ⟨hne,hall,hvalue⟩ := digitText_spec n.toNat
  rw [decimalAtoi,hvalue,if_pos ⟨hne,by simpa using hall,by omega⟩,Int.toNat_of_nonneg hn]

theorem decimalAtoi_range (text : Bytes) (n : ℤ) (h : decimalAtoi text = some n) :
    -2^63 ≤ n ∧ n < 2^63 := by
  unfold decimalAtoi at h
  split_ifs at h with hvalid
  cases h
  omega

/-- Decimal texts without a sign, and cursors that are not encoded. -/
def decimalTexts : Texts where
  atoi := decimalAtoi
  itoa n := digitText n.toNat
  encode := id
  decode := some
  atoi_itoa := decimalAtoi_itoa
  atoi_range := decimalAtoi_range
  atoi_empty := rfl
  decode_encode _ := rfl
  decode_empty := rfl

end Decimal

section Devices

variable (c : Texts) {r r' : Devices}

/-- Devices stand under their own IDs. -/
def DevicesKeyed (r : Devices) : Prop := ∀ id d, r.devices.lookup id = some d → d.id = id

theorem replaceDevice_keyed (h : DevicesKeyed r) {d : Device}
    (hr : r.replaceDevice d = .ok r') : DevicesKeyed r' := by
  unfold Devices.replaceDevice at hr
  split_ifs at hr
  cases hr
  exact Table.forall_insert rfl h

theorem deleteDevice_keyed (h : DevicesKeyed r) {id : DeviceID}
    (hr : r.deleteDevice id = .ok r') : DevicesKeyed r' := by
  unfold Devices.deleteDevice at hr
  split_ifs at hr
  cases hr
  intro key d hd
  by_cases hkey : key = id
  · rw [hkey,AList.lookup_erase] at hd
    cases hd
  · rw [AList.lookup_erase_ne hkey] at hd
    exact h key d hd

theorem lock_devicesKeyed {s : Registers} (h : DevicesKeyed s.devices) (call : Call) :
    DevicesKeyed (s.lock call).devices := by
  cases call with
  | registerDevice d =>
    simp only [Registers.lock,store]
    split_ifs
    · exact h
    · exact Table.forall_insert rfl h
  | updateDevice d =>
    simp only [Registers.lock]
    cases hr : s.devices.replaceDevice d with
    | error err => exact h
    | ok r' => exact replaceDevice_keyed h hr
  | removeDevice id =>
    simp only [Registers.lock]
    cases hr : s.devices.deleteDevice id with
    | error err => exact h
    | ok r' => exact deleteDevice_keyed h hr
  | registerEndpoint e =>
    simp only [Registers.lock,Devices.storeEndpoint]
    split
    · exact h
    · split_ifs <;> exact h
  | _ => exact h

/-- Whatever calls interleave, the devices of the registry stand under their own IDs. -/
theorem devicesKeyed_always (steps : List Step) :
    DevicesKeyed (Transition.run System.step {} steps).registers.devices := by
  refine Transition.invariant_always
    (I := fun s : System => DevicesKeyed s.registers.devices) ?_ (by intro id d hd; simp at hd) steps
  intro s step h
  cases step with
  | enter i a lookup call =>
    unfold System.step
    dsimp only
    split <;> exact h
  | lock i =>
    unfold System.step
    dsimp only
    split
    · exact h
    · exact lock_devicesKeyed h _

def walkDevices (r : Devices) (limits : ℕ → Bytes) (arrange : ℕ → List Device → List Device) :
    ℕ → Client Device :=
  walk fun k cursor =>
    listDevices c (some r) none (arrange k) { limit := limits k, cursor := cursor }

/-- Whatever calls a registry has seen, a walk through its devices ends, and has them all, each once
and by increasing IDs; and no accepted cursor takes a slice out of range. -/
theorem devices_paged (steps : List Step) :
    let r := (Transition.run System.step {} steps).registers.devices
    8*r.devices.values.length < 2^63 →
    (∀ (limits : ℕ → Bytes) (arrange : ℕ → List Device → List Device),
      (∀ k, (limitOf c (limits k)).isSome) → (∀ k, Arranges Device.id (arrange k)) →
      ∃ n ≤ r.devices.values.length+1, (walkDevices c r limits arrange n).finished = true ∧
        (walkDevices c r limits arrange n).received.Perm r.devices.values ∧
        (walkDevices c r limits arrange n).received.Pairwise fun a b => a.id < b.id) ∧
    ∀ (q : Query) (start limit : ℤ), pagination c q = .ok (start,limit) →
      0 ≤ (bounds r.devices.values.length start limit).1 ∧
      (bounds r.devices.values.length start limit).1 ≤
        (bounds r.devices.values.length start limit).2 ∧
      (bounds r.devices.values.length start limit).2 ≤ r.devices.values.length := by
  intro r
  have hkeyed : DevicesKeyed r := devicesKeyed_always steps
  clear_value r
  intro hfits
  have hnodup : (r.devices.values.map Device.id).Nodup := Table.values_nodup hkeyed
  constructor
  · intro limits arrange haccepted harrange
    obtain ⟨size,hsize⟩ := exists_sizes c haccepted
    have hlength : ∀ k, (arrange k r.devices.values).length = r.devices.values.length :=
      fun k => (harrange k _).perm.length_eq
    obtain ⟨hend,hfinished,hreceived⟩ := walk_finishes c hfits hlength hsize
    have hlisted := harrange 0 r.devices.values
    rw [gathered_of_eq fun j _ => (harrange j r.devices.values).unique hlisted hnodup,
      List.take_of_length_le (by rw [hlength]; exact hend)] at hreceived
    refine ⟨_,le_rfl,hfinished,?_,?_⟩
    · exact (List.Perm.of_eq hreceived).trans hlisted.perm
    · change (walk (answers c (fun k => arrange k r.devices.values) limits) _).received.Pairwise _
      rw [hreceived]
      exact hlisted.strict hnodup
  · intro q start limit hq
    obtain ⟨hstart,hlimit⟩ := pagination_ok c hq
    exact bounds_in_range hfits (startOf_range c hstart) (limitOf_range c hlimit)

/-- Two devices are registered, the calls in one another. -/
def shelving : List Step :=
  [.enter 0 {} none (.registerDevice (shelfDevice "22222222-2222-4222-8222-222222222222")),
    .enter 1 {} none (.registerDevice (shelfDevice "11111111-1111-4111-8111-111111111111")),
    .lock 0,.lock 1]

def shelf : Devices := (Transition.run System.step {} shelving).registers.devices

theorem shelf_paged : shelf.devices.values.length = 2 ∧
    (∀ arrange : ℕ → List Device → List Device, (∀ k, Arranges Device.id (arrange k)) →
      ∃ n ≤ 3, (walkDevices decimalTexts shelf (fun _ => bytes "1") arrange n).finished = true ∧
        (walkDevices decimalTexts shelf (fun _ => bytes "1") arrange n).received.Perm
          shelf.devices.values) ∧
    0 ≤ (bounds 2 (2^63-1) 200).1 ∧ (bounds 2 (2^63-1) 200).2 ≤ 2 := by
  have hlength : shelf.devices.values.length = 2 := by decide +kernel
  obtain ⟨hwalk,hbounds⟩ := devices_paged decimalTexts shelving (by decide +kernel)
  rw [← shelf,hlength] at hbounds hwalk
  refine ⟨hlength,fun arrange harrange => ?_,?_⟩
  · obtain ⟨n,hn,hfinished,hperm,-⟩ := hwalk (fun _ => bytes "1") arrange (fun _ => by decide) harrange
    exact ⟨n,hn,hfinished,hperm⟩
  · have h := hbounds { limit := bytes "200", cursor := bytes "9223372036854775807" } (2^63-1) 200
      (by decide +kernel)
    exact ⟨h.1,h.2.2⟩

end Devices

section Alarms

variable (c : Texts)

def walkAlarms (m : Alarms.Manager) (status : Bytes) (limits : ℕ → Bytes)
    (arrange : ℕ → List Alarms.Alarm → List Alarms.Alarm) : ℕ → Client Alarms.Alarm :=
  walk fun k cursor => listAlarms c (some m) none (arrange k)
    { limit := limits k, cursor := cursor, status := status }

/-- However the alarms are arranged for each request, the client receives each of them once. -/
def AlarmsComplete (m : Alarms.Manager) (status : Bytes) (limits : ℕ → Bytes) : Prop :=
  ∀ arrange : ℕ → List Alarms.Alarm → List Alarms.Alarm,
    (∀ k, Arranges Alarms.Alarm.firstObserved (arrange k)) →
    ∃ n, (walkAlarms c m status limits arrange n).finished = true ∧
      (walkAlarms c m status limits arrange n).received.Perm (matching m status)

theorem matching_nodup {m : Alarms.Manager} (h : m.Keyed) (status : Bytes) :
    (matching m status).Nodup :=
  ((Table.values_nodup fun id a ha => (h.alarms id a ha).1).of_map _).filter _

open Classical in
/-- Listings of a list of values as arrangements of every list. -/
theorem exists_arrange {V T : Type} [LinearOrder T] {key : V → T} {values l : List V}
    (h : ListedBy key values l) : ∃ arrange, Arranges key arrange ∧ arrange values = l := by
  refine ⟨fun vs => if vs = values then l else (exists_listed key vs).choose,fun vs => ?_,if_pos rfl⟩
  dsimp only
  split_ifs with hvs
  · exact hvs ▸ h
  · exact (exists_listed key vs).choose_spec

section Complete

variable {c} {m : Alarms.Manager} {status : Bytes} {limits : ℕ → Bytes} {size : ℕ → ℕ}

theorem incomplete_of_cuts (hkeyed : m.Keyed) (hfits : 8*(matching m status).length < 2^63)
    (hlimits : ∀ k, limitOf c (limits k) = some (size k : ℤ)) {k : ℕ}
    (hcuts : Cuts Alarms.Alarm.firstObserved (matching m status) (offset size k)) :
    ¬ AlarmsComplete c m status limits := by
  intro hcomplete
  obtain ⟨listings,hlisted,hmissed⟩ := exists_incomplete (matching_nodup hkeyed status) hcuts
  choose arrange harrange heq using fun j => exists_arrange (hlisted j)
  obtain rfl : listings = fun j => arrange j (matching m status) := (funext heq).symm
  obtain ⟨n,hfinished,hperm⟩ := hcomplete arrange harrange
  have hreaches := walk_reaches c hfits (fun j => (hlisted j).perm.length_eq) hlimits n
  exact hmissed n (hreaches.finished.mp hfinished).2
    ((List.Perm.of_eq hreaches.received.symm).trans hperm)

theorem complete_of_not_cuts (hfits : 8*(matching m status).length < 2^63)
    (hlimits : ∀ k, limitOf c (limits k) = some (size k : ℤ))
    (hcuts : ∀ k, ¬ Cuts Alarms.Alarm.firstObserved (matching m status) (offset size k)) :
    AlarmsComplete c m status limits := by
  intro arrange harrange
  have hlength : ∀ j, (arrange j (matching m status)).length = (matching m status).length :=
    fun j => (harrange j _).perm.length_eq
  obtain ⟨hend,hfinished,hreceived⟩ := walk_finishes c hfits hlength hlimits
  refine ⟨_,hfinished,?_⟩
  exact (List.Perm.of_eq hreceived).trans
    (gathered_complete (fun k => harrange k (matching m status)) hcuts hend)

end Complete

/-- Every alarm is received once exactly if no page ends between two that were first observed at the
same moment. -/
theorem alarmsComplete_iff (m : Alarms.Manager) (hkeyed : m.Keyed) (status : Bytes)
    (hfits : 8*(matching m status).length < 2^63) (limits : ℕ → Bytes) (size : ℕ → ℕ)
    (hlimits : ∀ k, limitOf c (limits k) = some (size k : ℤ)) : AlarmsComplete c m status limits ↔
      ∀ k, ¬ Cuts Alarms.Alarm.firstObserved (matching m status) (offset size k) :=
  ⟨fun hcomplete _ hcuts => incomplete_of_cuts hkeyed hfits hlimits hcuts hcomplete,
    complete_of_not_cuts hfits hlimits⟩

def twinAlarm (id : AlarmID) : Alarms.Alarm :=
  { Alarms.Alarm.zero with id := id, status := .active, firstObserved := 7 }

def twins : Alarms.Manager :=
  { Alarms.newManager 16 with
    alarms := ((∅ : Table AlarmID Alarms.Alarm).insert "b" (twinAlarm "b")).insert "a"
      (twinAlarm "a") }

theorem twins_keyed : twins.Keyed where
  rules r st h := by simp [twins,Alarms.newManager] at h
  alarms := Table.forall_insert ⟨rfl,by decide⟩ (Table.forall_insert ⟨rfl,by decide⟩
    fun id a h => by simp at h)

theorem twins_complete_iff : twins.Keyed ∧
    (AlarmsComplete decimalTexts twins [] (fun _ => bytes "2") ↔
      ∀ k, ¬ Cuts Alarms.Alarm.firstObserved (matching twins []) (offset (fun _ => 2) k)) :=
  ⟨twins_keyed,alarmsComplete_iff decimalTexts twins twins_keyed [] (by decide) (fun _ => bytes "2")
    (fun _ => 2) fun _ => by decide⟩

/-- The map is iterated in one order for the first request and in the other for the next ones. -/
def twinArrange (k : ℕ) (values : List Alarms.Alarm) : List Alarms.Alarm :=
  (if k = 0 then values else values.reverse).insertionSort fun a b =>
    a.firstObserved ≤ b.firstObserved

theorem twinArrange_arranges (k : ℕ) : Arranges Alarms.Alarm.firstObserved (twinArrange k) := by
  intro values
  have hlisted := listed_insertionSort Alarms.Alarm.firstObserved
    (if k = 0 then values else values.reverse)
  refine ⟨hlisted.perm.trans ?_,hlisted.ordered⟩
  split_ifs
  · rfl
  · exact values.reverse_perm

/-- One on a page: the client receives the first alarm twice and the other one never. -/
theorem twins_repeated : (∀ k, Arranges Alarms.Alarm.firstObserved (twinArrange k)) ∧
    (walkAlarms decimalTexts twins [] (fun _ => bytes "1") twinArrange 2).finished = true ∧
    (walkAlarms decimalTexts twins [] (fun _ => bytes "1") twinArrange 2).received.map
      Alarms.Alarm.id = ["a","a"] ∧
    ¬ AlarmsComplete decimalTexts twins [] (fun _ => bytes "1") := by
  have hcuts : Cuts Alarms.Alarm.firstObserved (matching twins []) (offset (fun _ => 1) 1) :=
    ⟨7,by decide,by decide⟩
  refine ⟨twinArrange_arranges,by decide +kernel,by decide +kernel,
    incomplete_of_cuts twins_keyed (by decide) (fun _ => by decide) hcuts⟩

end Alarms

end Api
end AquaOS
