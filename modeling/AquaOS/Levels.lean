import Mathlib.Data.List.Forall2

/-! Texts cut into levels by a separator, and filters in which a wildcard level stands for any one
level. -/
namespace AquaOS
namespace Levels

def split (separator : Char) (text : String) : List String :=
  (text.toList.splitOn separator).map String.ofList

def join (separator : Char) (levels : List String) : String :=
  (String.singleton separator).intercalate levels

/-- Levels that a separator can tell apart again. -/
def Plain (separator : Char) (levels : List String) : Prop :=
  levels ≠ [] ∧ ∀ level ∈ levels, separator ∉ level.toList

/-- Every level of the filter is the wildcard or the level of the text at its place. -/
def matchesFilter (separator : Char) (wildcard filter text : String) : Bool :=
  decide (List.Forall₂ (fun f level => f = wildcard ∨ f = level) (split separator filter)
    (split separator text))

variable {separator : Char} {levels levels' : List String}

@[simp] theorem toList_join (separator : Char) (levels : List String) :
    (join separator levels).toList = [separator].intercalate (levels.map String.toList) := by
  simp [join,String.toList_intercalate]

theorem split_join (h : Plain separator levels) : split separator (join separator levels) = levels := by
  obtain ⟨hne,hfree⟩ := h
  have hparts : ∀ part ∈ levels.map String.toList, separator ∉ part := by
    intro part hpart
    obtain ⟨level,hlevel,rfl⟩ := List.mem_map.mp hpart
    exact hfree level hlevel
  have hsplit := List.splitOn_intercalate separator hparts (by simpa using hne)
  rw [split,toList_join,hsplit]
  simp

theorem join_inj (h : Plain separator levels) (h' : Plain separator levels')
    (heq : join separator levels = join separator levels') : levels = levels' := by
  rw [← split_join h,← split_join h',heq]

/-- A filter and a text given by their levels match level by level. -/
theorem matchesFilter_join {wildcard : String} (h : Plain separator levels)
    (h' : Plain separator levels') :
    matchesFilter separator wildcard (join separator levels) (join separator levels') = true ↔
      List.Forall₂ (fun f level => f = wildcard ∨ f = level) levels levels' := by
  rw [matchesFilter,decide_eq_true_iff,split_join h,split_join h']

theorem join_split (separator : Char) (text : String) :
    join separator (split separator text) = text := by
  rw [← String.toList_inj,toList_join,split,List.map_map]
  have hid : String.toList ∘ String.ofList = id := by
    funext l
    exact String.toList_ofList
  rw [hid,List.map_id,List.intercalate_splitOn]

theorem splitOn_free {A : Type} [DecidableEq A] {separator : A} (text : List A) :
    ∀ part ∈ text.splitOn separator, separator ∉ part := by
  induction text with
  | nil => simp
  | cons c text ih =>
    rw [List.splitOn_cons_eq_if_modifyHead]
    split_ifs with hc
    · exact List.forall_mem_cons.mpr ⟨by simp,ih⟩
    · cases hparts : text.splitOn separator with
      | nil => exact absurd hparts (List.splitOn_ne_nil _ _)
      | cons part parts =>
        rw [hparts] at ih
        obtain ⟨hfirst,hrest⟩ := List.forall_mem_cons.mp ih
        refine List.forall_mem_cons.mpr ⟨?_,hrest⟩
        rw [List.mem_cons]
        rintro (rfl | hmem)
        · simp at hc
        · exact hfirst hmem

/-- The parts of a text are the only ones without separators that give it. -/
theorem splitOn_eq_iff {A : Type} [DecidableEq A] {separator : A} {text : List A}
    {parts : List (List A)} (hne : parts ≠ []) :
    text.splitOn separator = parts ↔
      (∀ part ∈ parts, separator ∉ part) ∧ text = [separator].intercalate parts := by
  constructor
  · rintro rfl
    exact ⟨splitOn_free text,(List.intercalate_splitOn separator).symm⟩
  · rintro ⟨hfree,rfl⟩
    exact List.splitOn_intercalate separator hfree hne

theorem split_free (separator : Char) (text : String) :
    ∀ level ∈ split separator text, separator ∉ level.toList := by
  intro level hlevel
  obtain ⟨part,hpart,rfl⟩ := List.mem_map.mp hlevel
  rw [String.toList_ofList]
  exact splitOn_free text.toList part hpart

/-- Apart from the separators, a joined text has the characters of its levels. -/
theorem mem_join {c : Char} (hc : c ≠ separator) :
    c ∈ (join separator levels).toList ↔ ∃ level ∈ levels, c ∈ level.toList := by
  rw [toList_join]
  induction levels with
  | nil => simp
  | cons level rest ih =>
    cases rest with
    | nil => simp
    | cons next rest =>
      rw [List.map_cons,List.map_cons,List.intercalate_cons_cons,← List.map_cons,List.mem_append,
        List.mem_append,ih,List.mem_singleton]
      simp [hc]

end Levels
end AquaOS
