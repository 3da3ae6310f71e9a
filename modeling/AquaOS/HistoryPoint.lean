import AquaOS.Measurement
import AquaOS.Table

/-! Points of the history. Their texts are byte strings, since nothing checks that they are UTF-8;
tags and fields are tables, and a point is valid within the bounds of its counts and lengths. -/
namespace AquaOS
namespace Storage

open Domain

abbrev Text := List UInt8

/-- A field value; a valid one has exactly one member. -/
structure Field where
  float : Option Float64 := none
  boolean : Option Bool := none
  string : Option Text := none
  deriving DecidableEq

def floatField (value : Float64) : Field := { float := some value }
def booleanField (value : Bool) : Field := { boolean := some value }
def stringField (value : Text) : Field := { string := some value }

def Field.count (f : Field) : ℕ :=
  f.float.toList.length+f.boolean.toList.length+f.string.toList.length

structure Point where
  measurement : Text
  tags : Table Text Text
  fields : Table Text Field
  timestamp : ℤ
  deriving DecidableEq

/-- An error of `validatePoint`; the texts quote the key. -/
inductive PointError
  | message (text : String)
  | invalidTag (key : Text)
  | invalidField (key : Text)
  deriving DecidableEq

def tagError (key value : Text) : Option PointError :=
  if key = [] ∨ value = [] ∨ 64 < key.length ∨ 128 < value.length then some (.invalidTag key)
  else none

def fieldError (key : Text) (value : Field) : Option PointError :=
  if key = [] ∨ 64 < key.length ∨ value.count ≠ 1 then some (.invalidField key) else none

/-- `validatePoint`, for one order of the entries of its maps. -/
def validatePoint (p : Point) : Option PointError :=
  if p.measurement = [] ∨ p.timestamp = 0 ∨ p.fields.entries.length = 0 then
    some (.message "measurement, timestamp, and fields are required")
  else if 16 < p.tags.entries.length ∨ 32 < p.fields.entries.length then
    some (.message "point exceeds tag or field count limit")
  else
    (p.tags.entries.findSome? fun e => tagError e.1 e.2).or
      (p.fields.entries.findSome? fun e => fieldError e.1 e.2)

structure Point.Valid (p : Point) : Prop where
  measurement : p.measurement ≠ []
  timestamp : p.timestamp ≠ 0
  nonempty : p.fields.entries ≠ []
  tagCount : p.tags.entries.length ≤ 16
  fieldCount : p.fields.entries.length ≤ 32
  tags : ∀ e ∈ p.tags.entries,
    e.1 ≠ [] ∧ e.2 ≠ [] ∧ e.1.length ≤ 64 ∧ e.2.length ≤ 128
  fields : ∀ e ∈ p.fields.entries, e.1 ≠ [] ∧ e.1.length ≤ 64 ∧ e.2.count = 1

theorem validatePoint_eq_none_iff (p : Point) : validatePoint p = none ↔ p.Valid := by
  have htags : (p.tags.entries.findSome? fun e => tagError e.1 e.2) = none ↔
      ∀ e ∈ p.tags.entries, e.1 ≠ [] ∧ e.2 ≠ [] ∧ e.1.length ≤ 64 ∧ e.2.length ≤ 128 := by
    simp [List.findSome?_eq_none_iff,tagError]
  have hfields : (p.fields.entries.findSome? fun e => fieldError e.1 e.2) = none ↔
      ∀ e ∈ p.fields.entries, e.1 ≠ [] ∧ e.1.length ≤ 64 ∧ e.2.count = 1 := by
    simp [List.findSome?_eq_none_iff,fieldError]
  constructor
  · intro h
    unfold validatePoint at h
    split_ifs at h with hrequired hcounts
    push Not at hrequired hcounts
    obtain ⟨ht,hf⟩ := Option.or_eq_none_iff.mp h
    exact ⟨hrequired.1,hrequired.2.1,fun hnil => hrequired.2.2 (by rw [hnil]; rfl),hcounts.1,
      hcounts.2,htags.mp ht,hfields.mp hf⟩
  · intro h
    have hrequired : ¬ (p.measurement = [] ∨ p.timestamp = 0 ∨ p.fields.entries.length = 0) := by
      rintro (hm | ht | hf)
      · exact h.measurement hm
      · exact h.timestamp ht
      · exact h.nonempty (List.length_eq_zero_iff.mp hf)
    have hcounts : ¬ (16 < p.tags.entries.length ∨ 32 < p.fields.entries.length) := by
      rintro (ht | hf)
      · exact absurd h.tagCount (Nat.not_le.mpr ht)
      · exact absurd h.fieldCount (Nat.not_le.mpr hf)
    rw [validatePoint,if_neg hrequired,if_neg hcounts,htags.mpr h.tags,hfields.mpr h.fields]
    rfl

theorem Field.count_eq_one_iff (f : Field) : f.count = 1 ↔
    (∃ x, f = floatField x) ∨ (∃ b, f = booleanField b) ∨ ∃ s, f = stringField s := by
  obtain ⟨float,boolean,string⟩ := f
  cases float <;> cases boolean <;> cases string <;>
    simp [Field.count,floatField,booleanField,stringField]

end Storage
end AquaOS
