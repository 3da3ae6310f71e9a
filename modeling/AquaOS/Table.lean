import Mathlib.Data.List.AList
import Mathlib.Data.List.Sort
import Mathlib.Tactic

/-! Finite tables with one value a key: the shared maps of a program. -/
namespace AquaOS

/-- A finite map; `lookup`, `insert` and `erase` are those of association lists. -/
abbrev Table (K V : Type) := AList fun _ : K => V

namespace Table

variable {K V : Type} [DecidableEq K]

theorem lookup_insert_ite (t : Table K V) (k k' : K) (v : V) :
    (t.insert k' v).lookup k = if k = k' then some v else t.lookup k := by
  split_ifs with h
  · subst h; exact AList.lookup_insert t
  · exact AList.lookup_insert_ne h

variable {t : Table K V} {k : K} {v : V}

theorem mem_of_lookup (h : t.lookup k = some v) : k ∈ t :=
  AList.lookup_isSome.mp (by rw [h]; rfl)

theorem lookup_insert_new {k' : K} {v' : V} (hk : k ∉ t)
    (h : t.lookup k' = some v') : (t.insert k v).lookup k' = some v' := by
  have hne : k' ≠ k := by
    rintro rfl
    exact hk (mem_of_lookup h)
  rw [AList.lookup_insert_ne hne]
  exact h

/-- What holds of every entry and of the one inserted holds of every entry after the insertion. -/
theorem forall_insert {P : K → V → Prop} (hnew : P k v)
    (hold : ∀ k v, t.lookup k = some v → P k v) :
    ∀ k' v', (t.insert k v).lookup k' = some v' → P k' v' := by
  intro k' v' h
  rw [lookup_insert_ite] at h
  split_ifs at h with hk
  · obtain rfl := Option.some.inj h
    exact hk ▸ hnew
  · exact hold k' v' h

def tabulate (key : V → K) (vs : List V) : Table K V :=
  vs.foldl (fun t v => t.insert (key v) v) ∅

theorem tabulate_lookup (key : V → K) (vs : List V) (k : K) :
    (tabulate key vs).lookup k = vs.reverse.find? fun v => key v = k := by
  have hfold : ∀ t : Table K V, (vs.foldl (fun t v => t.insert (key v) v) t).lookup k =
      (vs.reverse.find? fun v => key v = k).or (t.lookup k) := by
    induction vs with
    | nil => intro t; rfl
    | cons v vs ih =>
      intro t
      rw [List.foldl_cons,ih,lookup_insert_ite,List.reverse_cons,List.find?_append]
      by_cases h : k = key v
      · subst h
        cases vs.reverse.find? fun v' => key v' = key v <;> simp
      · have hne : ¬ key v = k := fun heq => h heq.symm
        cases vs.reverse.find? fun v' => key v' = k <;> simp [h,hne]
  rw [tabulate,hfold]
  cases vs.reverse.find? fun v => key v = k <;> rfl

theorem tabulate_mem {key : V → K} {vs : List V}
    (h : (tabulate key vs).lookup k = some v) : v ∈ vs ∧ key v = k := by
  rw [tabulate_lookup] at h
  exact ⟨by simpa using List.mem_of_find?_eq_some h,by simpa using List.find?_some h⟩

def values (t : Table K V) : List V := t.entries.map Sigma.snd

theorem mem_values : v ∈ t.values ↔ ∃ k, t.lookup k = some v := by
  simp only [values,List.mem_map,← Option.mem_def,AList.mem_lookup_iff]
  constructor
  · rintro ⟨⟨k,v⟩,hmem,rfl⟩
    exact ⟨k,hmem⟩
  · rintro ⟨k,hmem⟩
    exact ⟨⟨k,v⟩,hmem,rfl⟩

/-- Values that know their keys have different ones. -/
theorem values_nodup {key : V → K}
    (h : ∀ k v, t.lookup k = some v → key v = k) : (t.values.map key).Nodup := by
  have hkeys : t.values.map key = t.keys := by
    rw [values,List.map_map,AList.keys,List.keys]
    apply List.map_congr_left
    rintro ⟨k,v⟩ hmem
    exact h k v (AList.mem_lookup_iff.mpr hmem)
  rw [hkeys]
  exact t.keys_nodup

end Table

/-- Sorting by a key that no two elements share leaves the keys strictly increasing. -/
theorem insertionSort_strict {A B : Type} [LinearOrder B] (f : A → B) {l : List A}
    (h : (l.map f).Nodup) :
    (l.insertionSort fun a b => f a ≤ f b).Pairwise fun a b => f a < f b := by
  have : Std.Total fun a b : A => f a ≤ f b := ⟨fun a b => le_total (f a) (f b)⟩
  have : IsTrans A fun a b => f a ≤ f b := ⟨fun _ _ _ => le_trans⟩
  have hle := List.pairwise_insertionSort (fun a b : A => f a ≤ f b) l
  have hperm := (List.perm_insertionSort (fun a b : A => f a ≤ f b) l).map f
  have hne := List.pairwise_map.mp (hperm.nodup_iff.mpr h)
  exact (hle.and hne).imp fun hab => lt_of_le_of_ne hab.1 hab.2

end AquaOS
