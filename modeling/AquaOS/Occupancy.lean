import Mathlib.Algebra.Order.BigOperators.Group.Finset
import Mathlib.Tactic

/-! How many of a number of indexed workers are in a class, as a counter that they share keeps
it. -/
namespace AquaOS
namespace Occupancy

variable {T : Type} (p : T → Bool) (workers : ℕ → T) {n : ℕ}

/-- The number of the first `n` workers in the class. -/
def occupied (n : ℕ) : ℕ := ∑ i ∈ Finset.range n, (p (workers i)).toNat

theorem occupied_update {i : ℕ} (h : i < n) (t : T) :
    occupied p (Function.update workers i t) n+(p (workers i)).toNat =
      occupied p workers n+(p t).toNat := by
  have hcomp : (fun j => (p (Function.update workers i t j)).toNat) =
      Function.update (fun j => (p (workers j)).toNat) i (p t).toNat := by
    funext j
    by_cases hj : j = i
    · subst hj
      simp
    · simp [Function.update_of_ne hj]
  have hmem : i ∈ Finset.range n := Finset.mem_range.mpr h
  have hsum := Finset.add_sum_erase (Finset.range n) (fun j => (p (workers j)).toNat) hmem
  rw [occupied,hcomp,Finset.sum_update_of_mem hmem,Finset.sdiff_singleton_eq_erase,occupied]
  omega

variable {p workers}

theorem occupied_eq_zero_iff :
    occupied p workers n = 0 ↔ ∀ i, i < n → p (workers i) = false := by
  simp [occupied]

theorem occupied_eq_zero_of_forall (h : ∀ i, p (workers i) = false) : occupied p workers n = 0 :=
  occupied_eq_zero_iff.mpr fun i _ => h i

/-- Positions whose workers are in the class are no more than there are. -/
theorem card_le_occupied {positions : Finset ℕ}
    (h : ∀ i ∈ positions, i < n ∧ p (workers i) = true) : positions.card ≤ occupied p workers n := by
  have hsub : positions ⊆ Finset.range n := fun i hi => Finset.mem_range.mpr (h i hi).1
  calc positions.card = ∑ i ∈ positions, (p (workers i)).toNat := by
        rw [Finset.card_eq_sum_ones]
        exact Finset.sum_congr rfl fun i hi => by rw [(h i hi).2]; rfl
    _ ≤ occupied p workers n := Finset.sum_le_sum_of_subset hsub

end Occupancy
end AquaOS
