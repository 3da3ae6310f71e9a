import AquaOS.EventExport

/-! The texts that pass for identifiers. Both validators look for hyphens at four places and then
drop every hyphen before they decode the rest, so that an even number of further hyphens goes
unnoticed. The identifiers made here are canonical, and tell the random bytes apart but for the six
bits that are fixed. -/
namespace AquaOS

namespace Core

open Domain

def idFailure : Failure := .message "ID must be an RFC 4122 UUID"

/-- `ID.Validate`. -/
def validate (value : List UInt8) : Option Failure :=
  if value.length ≠ 36 ∨ value[8]? ≠ some hyphen ∨ value[13]? ≠ some hyphen ∨
      value[18]? ≠ some hyphen ∨ value[23]? ≠ some hyphen then some idFailure
  else if hexDecodes (value.filter (· ≠ hyphen)) then none
  else some idFailure

/-- `NewID`, which does with its random bytes what `newUUID` does. -/
def newID (random : ℕ → UInt8) : String := newUUID random

theorem validate_none_iff {value : List UInt8} : validate value = none ↔ validateUUID value = none := by
  unfold validate validateUUID
  split_ifs <;> simp

end Core

namespace Domain

/-- Five groups of hexadecimal digits with single hyphens between them. -/
def Canonical (value : List UInt8) : Prop :=
  ∃ groups : List (List UInt8), groups.map List.length = [8,4,4,4,12] ∧
    (∀ group ∈ groups, ∀ b ∈ group, isHexDigit b = true) ∧ value = [hyphen].intercalate groups

structure Hyphenated (value : List UInt8) : Prop where
  length : value.length = 36
  separators : ∀ i ∈ [8,13,18,23], value[i]? = some hyphen
  digits : ∀ b ∈ value, isHexDigit b = true ∨ b = hyphen
  even : Even (value.count hyphen)

/-- Hyphens stand in the place of digits. -/
def Padded (value : List UInt8) : Prop := Hyphenated value ∧ 4 < value.count hyphen

section Language

variable {value group : List UInt8}

theorem hyphen_not_hex : isHexDigit hyphen = false := by decide

theorem length_filter_hyphen (value : List UInt8) :
    (value.filter (· ≠ hyphen)).length+value.count hyphen = value.length := by
  induction value with
  | nil => rfl
  | cons b value ih =>
    by_cases hb : b = hyphen
    · subst hb
      rw [List.count_cons_self]
      simp at ih ⊢
      omega
    · rw [List.count_cons_of_ne hb]
      simp [hb] at ih ⊢
      omega

theorem validateUUID_iff : validateUUID value = none ↔ Hyphenated value := by
  have hlength := length_filter_hyphen value
  constructor
  · intro h
    obtain ⟨hlen,hdigits⟩ := Mqtt.uuid_bytes h
    unfold validateUUID at h
    split_ifs at h with hshape hhex
    push Not at hshape
    refine ⟨hlen,by simpa using hshape.2,hdigits,?_⟩
    have heven : (value.filter (· ≠ hyphen)).length % 2 = 0 := by
      simpa using ((Bool.and_eq_true _ _).mp hhex).1
    rw [Nat.even_iff]
    omega
  · intro h
    have hseparators := h.separators
    have heven := Nat.even_iff.mp h.even
    have hlen := h.length
    simp only [List.forall_mem_cons,List.not_mem_nil,false_implies,implies_true,and_true]
      at hseparators
    obtain ⟨h8,h13,h18,h23⟩ := hseparators
    have hhex : hexDecodes (value.filter (· ≠ hyphen)) = true := by
      rw [hexDecodes,Bool.and_eq_true,beq_iff_eq,List.all_eq_true]
      refine ⟨by omega,fun b hb => ?_⟩
      obtain ⟨hmem,hne⟩ := List.mem_filter.mp hb
      exact (h.digits b hmem).resolve_right (by simpa using hne)
    have hshape : ¬ (value.length ≠ 36 ∨ value[8]? ≠ some hyphen ∨ value[13]? ≠ some hyphen ∨
        value[18]? ≠ some hyphen ∨ value[23]? ≠ some hyphen) := by
      push Not
      exact ⟨hlen,h8,h13,h18,h23⟩
    rw [validateUUID,if_neg hshape,if_pos hhex]

theorem cut_at {A : Type} {l : List A} {n : ℕ} {x : A} (h : l[n]? = some x) :
    ∃ a r, l = a++x::r ∧ a.length = n := by
  obtain ⟨hn,hx⟩ := List.getElem?_eq_some_iff.mp h
  refine ⟨l.take n,l.drop (n+1),?_,List.length_take_of_le hn.le⟩
  rw [← hx,List.getElem_cons_drop,List.take_append_drop]

theorem group_digits (h : ∀ b ∈ group, isHexDigit b = true ∨ b = hyphen)
    (hcount : group.count hyphen = 0) : ∀ b ∈ group, isHexDigit b = true := by
  intro b hb
  refine (h b hb).resolve_right ?_
  rintro rfl
  exact List.count_eq_zero.mp hcount hb

theorem count_digits (h : ∀ b ∈ group, isHexDigit b = true) : group.count hyphen = 0 := by
  rw [List.count_eq_zero]
  intro hmem
  have := h hyphen hmem
  rw [hyphen_not_hex] at this
  cases this

def joined (a b c d e : List UInt8) : List UInt8 :=
  a++hyphen::(b++hyphen::(c++hyphen::(d++hyphen::e)))

theorem intercalate_joined (a b c d e : List UInt8) :
    [hyphen].intercalate [a,b,c,d,e] = joined a b c d e := by
  simp [List.intercalate,joined]

theorem joined_separators {a b c d e : List UInt8} (ha : a.length = 8) (hb : b.length = 4)
    (hc : c.length = 4) (hd : d.length = 4) :
    ∀ i ∈ [8,13,18,23], (joined a b c d e)[i]? = some hyphen := by
  simp [joined,List.getElem?_append,ha,hb,hc,hd]

theorem joined_count (a b c d e : List UInt8) : (joined a b c d e).count hyphen =
      a.count hyphen+b.count hyphen+c.count hyphen+d.count hyphen+e.count hyphen+4 := by
  simp only [joined,List.count_append,List.count_cons_self]
  omega

theorem exists_joined (h : Hyphenated value) :
    ∃ a b c d e, value = joined a b c d e ∧ a.length = 8 ∧ b.length = 4 ∧ c.length = 4 ∧
      d.length = 4 ∧ e.length = 12 := by
  have hlen := h.length
  have hseparators := h.separators
  simp only [List.forall_mem_cons,List.not_mem_nil,false_implies,implies_true,and_true]
    at hseparators
  obtain ⟨h8,h13,h18,h23⟩ := hseparators
  obtain ⟨a,r,rfl,ha⟩ := cut_at h8
  simp only [List.getElem?_append,ha,List.length_cons,List.length_append] at h13 h18 h23 hlen
  obtain ⟨b,r,rfl,hb⟩ := cut_at (n := 4) (l := r) (by simpa using h13)
  simp only [List.length_append,List.length_cons,hb] at hlen
  obtain ⟨c,r,rfl,hc⟩ := cut_at (n := 4) (l := r) (by simpa [List.getElem?_append,hb] using h18)
  simp only [List.length_append,List.length_cons,hc] at hlen
  obtain ⟨d,e,rfl,hd⟩ := cut_at (n := 4) (l := r)
    (by simpa [List.getElem?_append,hb,hc] using h23)
  simp only [List.length_append,List.length_cons,hd] at hlen
  exact ⟨a,b,c,d,e,rfl,ha,hb,hc,hd,by omega⟩

theorem canonical_iff : Canonical value ↔ Hyphenated value ∧ value.count hyphen = 4 := by
  constructor
  · rintro ⟨groups,hlengths,hdigits,rfl⟩
    obtain ⟨a,_,rfl,ha,hlengths⟩ := List.map_eq_cons_iff.mp hlengths
    obtain ⟨b,_,rfl,hb,hlengths⟩ := List.map_eq_cons_iff.mp hlengths
    obtain ⟨c,_,rfl,hc,hlengths⟩ := List.map_eq_cons_iff.mp hlengths
    obtain ⟨d,_,rfl,hd,hlengths⟩ := List.map_eq_cons_iff.mp hlengths
    obtain ⟨e,_,rfl,he,hlengths⟩ := List.map_eq_cons_iff.mp hlengths
    obtain rfl := List.map_eq_nil_iff.mp hlengths
    simp only [List.forall_mem_cons,List.not_mem_nil,false_implies,implies_true,and_true] at hdigits
    obtain ⟨hda,hdb,hdc,hdd,hde⟩ := hdigits
    rw [intercalate_joined]
    have hcount : (joined a b c d e).count hyphen = 4 := by
      rw [joined_count,count_digits hda,count_digits hdb,count_digits hdc,count_digits hdd,
        count_digits hde]
    refine ⟨⟨?_,joined_separators ha hb hc hd,fun x hx => ?_,hcount ▸ by decide⟩,hcount⟩
    · simp [joined,ha,hb,hc,hd,he]
    · simp only [joined,List.mem_append,List.mem_cons] at hx
      rcases hx with hx | hx | hx | hx | hx | hx | hx | hx | hx
      · exact .inl (hda x hx)
      · exact .inr hx
      · exact .inl (hdb x hx)
      · exact .inr hx
      · exact .inl (hdc x hx)
      · exact .inr hx
      · exact .inl (hdd x hx)
      · exact .inr hx
      · exact .inl (hde x hx)
  · rintro ⟨h,hcount⟩
    obtain ⟨a,b,c,d,e,rfl,ha,hb,hc,hd,he⟩ := exists_joined h
    rw [joined_count] at hcount
    have hdigits := h.digits
    simp only [joined,List.forall_mem_append,List.forall_mem_cons] at hdigits
    obtain ⟨hda,-,hdb,-,hdc,-,hdd,-,hde⟩ := hdigits
    refine ⟨[a,b,c,d,e],by simp [ha,hb,hc,hd,he],?_,(intercalate_joined a b c d e).symm⟩
    simp only [List.forall_mem_cons,List.not_mem_nil,false_implies,implies_true,and_true]
    exact ⟨group_digits hda (by omega),group_digits hdb (by omega),group_digits hdc (by omega),
      group_digits hdd (by omega),group_digits hde (by omega)⟩

/-- A validator keeps to the canonical texts unless hyphens stand in the place of digits. -/
theorem validated_canonical_iff :
    (validateUUID value = none ↔ Canonical value) ↔ ¬ Padded value := by
  rw [validateUUID_iff,canonical_iff,Padded]
  constructor
  · rintro hiff ⟨h,hmore⟩
    have hcount := (hiff.mp h).2
    omega
  · intro hnot
    refine ⟨fun h => ⟨h,?_⟩,fun h => h.1⟩
    obtain ⟨a,b,c,d,e,rfl,_⟩ := exists_joined h
    have hfew : ¬ 4 < (joined a b c d e).count hyphen := fun hmore => hnot ⟨h,hmore⟩
    rw [joined_count] at hfew ⊢
    omega

end Language

section Made

open Alarms (hexDigit)

/-- The random bytes with the bits of the version and the variant set. -/
def stamped (random : ℕ → UInt8) (i : ℕ) : UInt8 :=
  if i = 6 then (random i &&& 0x0f) ||| 0x40
  else if i = 8 then (random i &&& 0x3f) ||| 0x80
  else random i

def freeBits (i : ℕ) : UInt8 := if i = 6 then 0x0f else if i = 8 then 0x3f else 0xff

def hexPlaces (value : ℕ → UInt8) (places : List ℕ) : List Char :=
  places.flatMap fun i => [hexDigit ((value i).toNat/16),hexDigit ((value i).toNat%16)]

theorem newUUID_places (random : ℕ → UInt8) :
    newUUID random = String.ofList (hexPlaces (stamped random) [0,1,2,3]++
      '-'::hexPlaces (stamped random) [4,5]++ '-'::hexPlaces (stamped random) [6,7]++
      '-'::hexPlaces (stamped random) [8,9]++
      '-'::hexPlaces (stamped random) [10,11,12,13,14,15]) := rfl

/-- A digit is one byte, and the value can be read off it. -/
theorem hexDigit_spec {n : ℕ} (hn : n < 16) :
    (∃ b, String.utf8EncodeChar (hexDigit n) = [b] ∧ isHexDigit b = true) ∧
      ∀ m < 16, hexDigit n = hexDigit m → n = m := by
  have hall : ∀ k : Fin 16, (hexDigit k).toNat < 128 ∧
      isHexDigit (UInt8.ofNat (hexDigit k).toNat) = true ∧
      ∀ l : Fin 16, hexDigit k = hexDigit l → k = l := by decide
  obtain ⟨hascii,hhex,hinj⟩ := hall ⟨n,hn⟩
  refine ⟨⟨_,utf8EncodeChar_ascii hascii,hhex⟩,fun m hm h => ?_⟩
  exact congrArg Fin.val (hinj ⟨m,hm⟩ h)

theorem hexPlaces_bytes (value : ℕ → UInt8) (places : List ℕ) :
    ((hexPlaces value places).flatMap String.utf8EncodeChar).length = 2*places.length ∧
      ∀ b ∈ (hexPlaces value places).flatMap String.utf8EncodeChar, isHexDigit b = true := by
  induction places with
  | nil => exact ⟨rfl,nofun⟩
  | cons i places ih =>
    obtain ⟨hlen,hdigits⟩ := ih
    have hbound := (value i).toNat_lt
    obtain ⟨b,hb,hhigh⟩ := (hexDigit_spec (n := (value i).toNat/16) (by omega)).1
    obtain ⟨c,hc,hlow⟩ := (hexDigit_spec (n := (value i).toNat%16) (by omega)).1
    have hcons : (hexPlaces value (i::places)).flatMap String.utf8EncodeChar =
        b::c::(hexPlaces value places).flatMap String.utf8EncodeChar := by
      simp [hexPlaces,hb,hc]
    rw [hcons]
    refine ⟨by simp only [List.length_cons,hlen]; omega,?_⟩
    exact List.forall_mem_cons.mpr ⟨hhigh,List.forall_mem_cons.mpr ⟨hlow,hdigits⟩⟩

theorem newUUID_canonical (random : ℕ → UInt8) : Canonical (bytes (newUUID random)) := by
  have hdash : String.utf8EncodeChar '-' = [hyphen] := by decide
  let group places := (hexPlaces (stamped random) places).flatMap String.utf8EncodeChar
  refine ⟨[group [0,1,2,3],group [4,5],group [6,7],group [8,9],group [10,11,12,13,14,15]],?_,?_,?_⟩
  · simp only [List.map_cons,List.map_nil,group,hexPlaces_bytes]
    rfl
  · simp only [List.forall_mem_cons,group]
    exact ⟨(hexPlaces_bytes _ _).2,(hexPlaces_bytes _ _).2,(hexPlaces_bytes _ _).2,
      (hexPlaces_bytes _ _).2,(hexPlaces_bytes _ _).2,nofun⟩
  · rw [newUUID_places,bytes_ofList,intercalate_joined]
    simp only [joined,group,List.flatMap_append,List.flatMap_cons,hdash,List.append_assoc,
      List.cons_append,List.nil_append]

theorem length_hexPlaces (value : ℕ → UInt8) (places : List ℕ) :
    (hexPlaces value places).length = 2*places.length := by
  induction places with
  | nil => rfl
  | cons i places ih =>
    rw [hexPlaces,List.flatMap_cons,List.length_append,← hexPlaces,ih]
    simp only [List.length_cons,List.length_nil]
    omega

theorem hexPlaces_inj {value value' : ℕ → UInt8} {places : List ℕ}
    (h : hexPlaces value places = hexPlaces value' places) : ∀ i ∈ places, value i = value' i := by
  induction places with
  | nil => exact nofun
  | cons i places ih =>
    have hcons : ∀ v : ℕ → UInt8, hexPlaces v (i::places) =
        hexDigit ((v i).toNat/16)::hexDigit ((v i).toNat%16)::hexPlaces v places := fun _ => rfl
    rw [hcons,hcons,List.cons.injEq,List.cons.injEq] at h
    obtain ⟨hhigh,hlow,hrest⟩ := h
    have hbound := (value i).toNat_lt
    have hbound' := (value' i).toNat_lt
    have hdiv := (hexDigit_spec (by omega)).2 _ (by omega) hhigh
    have hmod := (hexDigit_spec (by omega)).2 _ (by omega) hlow
    refine List.forall_mem_cons.mpr ⟨?_,ih hrest⟩
    exact UInt8.toNat_inj.mp (by omega)

theorem masked_or {a b mask fixed : UInt8} (hfixed : fixed &&& mask = 0)
    (h : (a &&& mask) ||| fixed = (b &&& mask) ||| fixed) : a &&& mask = b &&& mask := by
  have hback : ∀ x : UInt8, ((x &&& mask) ||| fixed) &&& mask = x &&& mask := by
    intro x
    have hclear := congrArg UInt8.toBitVec hfixed
    refine UInt8.toBitVec_inj.mp ?_
    simp only [UInt8.toBitVec_and,UInt8.toBitVec_or] at hclear ⊢
    ext i hi
    have hbit : (fixed.toBitVec[i] && mask.toBitVec[i]) = false := by
      rw [← BitVec.getElem_and,hclear]
      simp
    simp only [BitVec.getElem_and,BitVec.getElem_or]
    grind
  rw [← hback a,h,hback b]

variable {x y : ℕ → UInt8} {i : ℕ}

theorem stamped_free (h : stamped x i = stamped y i) : x i &&& freeBits i = y i &&& freeBits i := by
  unfold stamped at h
  unfold freeBits
  split_ifs at h ⊢ with h6 h8
  · exact masked_or (by decide) h
  · exact masked_or (by decide) h
  · rw [h]

theorem newUUID_free (h : newUUID x = newUUID y) (hi : i < 16) :
    x i &&& freeBits i = y i &&& freeBits i := by
  rw [newUUID_places,newUUID_places,String.ofList_inj] at h
  simp only [List.append_assoc,List.cons_append] at h
  obtain ⟨h0,h⟩ := List.append_inj h (by simp only [length_hexPlaces])
  obtain ⟨h4,h⟩ := List.append_inj (List.cons.inj h).2 (by simp only [length_hexPlaces])
  obtain ⟨h6,h⟩ := List.append_inj (List.cons.inj h).2 (by simp only [length_hexPlaces])
  obtain ⟨h8,h⟩ := List.append_inj (List.cons.inj h).2 (by simp only [length_hexPlaces])
  have h10 := (List.cons.inj h).2
  have hall : ∀ i ∈ [0,1,2,3]++[4,5]++[6,7]++[8,9]++[10,11,12,13,14,15],
      stamped x i = stamped y i := by
    simp only [List.forall_mem_append]
    exact ⟨⟨⟨⟨hexPlaces_inj h0,hexPlaces_inj h4⟩,hexPlaces_inj h6⟩,hexPlaces_inj h8⟩,
      hexPlaces_inj h10⟩
  exact stamped_free (hall i (by simp; omega))

end Made

/-- Both validators accept exactly the canonical texts just where no hyphens stand in the place of
digits; the identifiers made here are canonical, and equal ones come from bytes that agree outside
the fixed bits. -/
theorem identifiers_canonical_iff (value : List UInt8) (random x y : ℕ → UInt8) :
    (((validateUUID value = none ↔ Canonical value) ∧
      (Core.validate value = none ↔ Canonical value)) ↔ ¬ Padded value) ∧
    (validateUUID (bytes (newUUID random)) = none ∧
      Core.validate (bytes (Core.newID random)) = none) ∧
    (newUUID x = newUUID y ∨ Core.newID x = Core.newID y →
      ∀ i < 16, x i &&& freeBits i = y i &&& freeBits i) := by
  have hmade : validateUUID (bytes (newUUID random)) = none :=
    validateUUID_iff.mpr (canonical_iff.mp (newUUID_canonical random)).1
  refine ⟨?_,⟨hmade,Core.validate_none_iff.mpr hmade⟩,?_⟩
  · rw [Core.validate_none_iff,and_self,validated_canonical_iff]
  · rintro (h | h) i hi
    · exact newUUID_free h hi
    · exact newUUID_free h hi

/-- Thirty-six hyphens: nothing is left to decode. -/
def hyphens : List UInt8 := List.replicate 36 hyphen

theorem hyphens_accepted :
    validateUUID hyphens = none ∧ Core.validate hyphens = none ∧ Padded hyphens ∧
      ¬ Canonical hyphens := by
  have haccepted : validateUUID hyphens = none := by decide
  have hcount : hyphens.count hyphen = 36 := List.count_replicate_self
  refine ⟨haccepted,Core.validate_none_iff.mpr haccepted,
    ⟨validateUUID_iff.mp haccepted,by omega⟩,fun h => ?_⟩
  have hfour := (canonical_iff.mp h).2
  omega

end Domain
end AquaOS
