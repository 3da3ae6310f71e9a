import Mathlib.Algebra.Order.Field.Basic
import Mathlib.Tactic

/-! Token buckets that are refilled when they are looked at. What was taken and what is left together
stay below what the bucket can hold and what time has brought. -/
namespace AquaOS

structure Bucket (T F : Type) where
  tokens : F
  updated : T

namespace Bucket

variable {T F : Type} [Field F] [LinearOrder F]

/-- The tokens with what has come since, as far as the bucket can hold them. -/
def refilled (burst : F) (gain : T → T → F) (b : Bucket T F) (now : T) : F :=
  if burst < b.tokens+gain b.updated now then burst else b.tokens+gain b.updated now

def take (burst : F) (gain : T → T → F) (b : Bucket T F) (now : T) : Bool × Bucket T F :=
  if b.refilled burst gain now < 1 then (false,⟨b.refilled burst gain now,now⟩)
  else (true,⟨b.refilled burst gain now-1,now⟩)

/-- What a bucket may hold. -/
def Within (burst : F) (b : Bucket T F) : Prop := 0 ≤ b.tokens ∧ b.tokens ≤ burst

/-- What was taken since an instant and what is left come from a full bucket and from the time up to
the last look; `level` counts what time brings. -/
def Covers (burst : F) (level : T → F) (since : T) (taken : F) (b : Bucket T F) : Prop :=
  taken+b.tokens ≤ burst+(level b.updated-level since)

section Rules

variable {burst : F} {gain : T → T → F} {level : T → F} {b : Bucket T F} {now since : T} {taken : F}

theorem refilled_le_burst : b.refilled burst gain now ≤ burst := by
  unfold refilled
  split_ifs with h
  · exact le_rfl
  · exact not_lt.mp h

theorem refilled_le : b.refilled burst gain now ≤ b.tokens+gain b.updated now := by
  unfold refilled
  split_ifs with h
  · exact h.le
  · exact le_rfl

theorem take_updated : (b.take burst gain now).2.updated = now := by
  unfold take
  split_ifs <;> rfl

theorem take_tokens :
    (if (b.take burst gain now).1 then 1 else 0 : F)+(b.take burst gain now).2.tokens =
      b.refilled burst gain now := by
  unfold take
  by_cases hone : b.refilled burst gain now < 1
  · simp [hone]
  · simp [hone]

variable [IsStrictOrderedRing F]

theorem take_within (h : b.Within burst) (hgain : 0 ≤ gain b.updated now) (hburst : 0 ≤ burst) :
    (b.take burst gain now).2.Within burst := by
  have hle : b.refilled burst gain now ≤ burst := refilled_le_burst
  have hnonneg : 0 ≤ b.refilled burst gain now := by
    unfold refilled
    split_ifs
    · exact hburst
    · exact add_nonneg h.1 hgain
  unfold take
  split_ifs with hone
  · exact ⟨hnonneg,hle⟩
  · exact ⟨sub_nonneg.mpr (not_lt.mp hone),by linarith⟩

theorem covers_first (hlevel : level since ≤ level now) :
    Covers burst level since (if (b.take burst gain now).1 then 1 else 0)
      (b.take burst gain now).2 := by
  unfold Covers
  rw [take_tokens,take_updated]
  have hle : b.refilled burst gain now ≤ burst := refilled_le_burst
  linarith

theorem Covers.take (h : b.Covers burst level since taken)
    (hgain : gain b.updated now ≤ level now-level b.updated) :
    Covers burst level since (taken+if (b.take burst gain now).1 then 1 else 0)
      (b.take burst gain now).2 := by
  unfold Covers at h ⊢
  rw [add_assoc,take_tokens,take_updated]
  have hle : b.refilled burst gain now ≤ b.tokens+gain b.updated now := refilled_le
  linarith

end Rules

end Bucket
end AquaOS
