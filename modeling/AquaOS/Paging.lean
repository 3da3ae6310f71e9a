import Mathlib.Data.List.Sort
import Mathlib.Tactic

/-! Listings that are read page by page. Every page is cut by its position out of a listing of its
own, and the listings agree in nothing but the order of the elements that can be compared. -/
namespace AquaOS
namespace Paging

variable {V T : Type}

/-- The values in some order in which none comes after one that it is less than. -/
structure Listed (less : V → V → Prop) (values l : List V) : Prop where
  perm : l.Perm values
  ordered : l.Pairwise fun a b => ¬ less b a

def offset (size : ℕ → ℕ) : ℕ → ℕ
  | 0 => 0
  | k+1 => offset size k+size k

def page (l : List V) (start stop : ℕ) : List V := (l.take stop).drop start

/-- The first pages, each out of the listing made for it. -/
def gathered (listing : ℕ → List V) (size : ℕ → ℕ) : ℕ → List V
  | 0 => []
  | n+1 => gathered listing size n++page (listing n) (offset size n) (offset size (n+1))

section Pages

variable {listing : ℕ → List V} {size : ℕ → ℕ} {l l' : List V}

theorem offset_le_succ (size : ℕ → ℕ) (k : ℕ) : offset size k ≤ offset size (k+1) :=
  Nat.le_add_right _ _

theorem offset_mono (size : ℕ → ℕ) : Monotone (offset size) :=
  monotone_nat_of_le_succ (offset_le_succ size)

theorem le_offset (h : ∀ k, 1 ≤ size k) (n : ℕ) : n ≤ offset size n := by
  induction n with
  | zero => exact Nat.zero_le _
  | succ n ih =>
    have hn := h n
    rw [offset]
    omega

theorem take_append_page (l : List V) {start stop : ℕ} (h : start ≤ stop) :
    l.take start++page l start stop = l.take stop := by
  have htake := List.take_append_drop start (l.take stop)
  rwa [List.take_take,min_eq_left h] at htake

theorem page_append_page (l : List V) {a b c : ℕ} (hab : a ≤ b) (hbc : b ≤ c) :
    page l a b++page l b c = page l a c := by
  apply (List.append_right_inj (l.take a)).mp
  rw [← List.append_assoc,take_append_page l hab,take_append_page l hbc,
    take_append_page l (hab.trans hbc)]

/-- Listings whose beginnings agree up to each page give their beginnings. -/
theorem gathered_perm (first : ℕ → List V)
    (hbefore : ∀ k, ((listing k).take (offset size k)).Perm (first k))
    (hafter : ∀ k, ((listing k).take (offset size (k+1))).Perm (first (k+1))) (n : ℕ) :
    (gathered listing size n).Perm (first n) := by
  induction n with
  | zero => exact hbefore 0
  | succ n ih =>
    refine ((ih.trans (hbefore n).symm).append_right _).trans ?_
    rw [take_append_page _ (offset_le_succ size n)]
    exact hafter n

theorem gathered_of_eq {n : ℕ} (h : ∀ j < n, listing j = l) :
    gathered listing size n = l.take (offset size n) := by
  induction n with
  | zero => rfl
  | succ n ih =>
    rw [gathered,ih fun j hj => h j (Nat.lt_succ_of_lt hj),h n (Nat.lt_succ_self n),
      take_append_page _ (offset_le_succ size n)]

/-- One listing for the first pages and another for the others. -/
def switched (k : ℕ) (l l' : List V) (j : ℕ) : List V := if j < k then l else l'

theorem gathered_switched {k n : ℕ} (hn : k ≤ n) : gathered (switched k l l') size n =
    l.take (offset size k)++page l' (offset size k) (offset size n) := by
  induction n, hn using Nat.le_induction with
  | base =>
    rw [gathered_of_eq (show ∀ j < k, switched k l l' j = l from fun j hj => if_pos hj)]
    simp [page]
  | succ n hn ih =>
    rw [gathered,ih,show switched k l l' n = l' from if_neg (Nat.not_lt.mpr hn),List.append_assoc,
      page_append_page l' (offset_mono size hn) (offset_le_succ size n)]

end Pages

section Sorted

variable {l : List V} {p : V → Bool}

/-- Where the predicate holds of whatever comes before, it holds of a beginning of the list. -/
theorem filter_eq_take (h : l.Pairwise fun a b => p b → p a) :
    l.filter p = l.take (l.countP p) := by
  induction l with
  | nil => rfl
  | cons a l ih =>
    obtain ⟨ha,hl⟩ := List.pairwise_cons.mp h
    by_cases hp : p a
    · rw [List.filter_cons_of_pos hp,List.countP_cons_of_pos hp,List.take_succ_cons,ih hl]
    · have hnone : ∀ b ∈ l, ¬ p b := fun b hb hpb => hp (ha b hb hpb)
      rw [List.filter_eq_nil_iff.mpr (List.forall_mem_cons.mpr ⟨hp,hnone⟩),
        List.countP_eq_zero.mpr (List.forall_mem_cons.mpr ⟨hp,hnone⟩),List.take_zero]

theorem holds_iff_lt_countP (h : l.Pairwise fun a b => p b → p a) {i : ℕ} (hi : i < l.length) :
    p l[i] ↔ i < l.countP p := by
  constructor
  · intro hp
    have hall : ∀ a ∈ l.take (i+1), p a := by
      intro a ha
      obtain ⟨j,hj,rfl⟩ := List.mem_take_iff_getElem.mp ha
      rcases Nat.lt_or_ge j i with hlt | hge
      · exact List.pairwise_iff_getElem.mp h j i (by omega) hi hlt hp
      · obtain rfl : j = i := by omega
        exact hp
    have hcount := (List.take_sublist (i+1) l).countP_le (p := p)
    rw [List.countP_eq_length.mpr hall,List.length_take] at hcount
    omega
  · intro hlt
    have hmem : l[i] ∈ l.take (l.countP p) := List.mem_take_iff_getElem.mpr ⟨i,by omega,rfl⟩
    rw [← filter_eq_take h] at hmem
    exact (List.mem_filter.mp hmem).2

end Sorted

section Keys

variable [LinearOrder T] {key : V → T} {values l l' : List V} {size : ℕ → ℕ}

abbrev ListedBy (key : V → T) (values l : List V) : Prop :=
  Listed (fun a b => key a < key b) values l

/-- A page that ends between two elements of the same key. -/
def Cuts (key : V → T) (values : List V) (stop : ℕ) : Prop :=
  ∃ k, values.countP (fun a => key a < k) < stop ∧ stop < values.countP (fun a => key a ≤ k)

theorem Listed.closed_lt (h : ListedBy key values l) (k : T) :
    l.Pairwise fun a b => decide (key b < k) → decide (key a < k) :=
  h.ordered.imp fun hab hb => by
    simp only [decide_eq_true_eq] at hb ⊢
    exact (not_lt.mp hab).trans_lt hb

theorem Listed.closed_le (h : ListedBy key values l) (k : T) :
    l.Pairwise fun a b => decide (key b ≤ k) → decide (key a ≤ k) :=
  h.ordered.imp fun hab hb => by
    simp only [decide_eq_true_eq] at hb ⊢
    exact (not_lt.mp hab).trans hb

theorem Listed.strict (h : ListedBy key values l) (hnodup : (values.map key).Nodup) :
    l.Pairwise fun a b => key a < key b := by
  have hne := List.pairwise_map.mp ((h.perm.map key).nodup_iff.mpr hnodup)
  exact (h.ordered.and hne).imp fun hab => lt_of_le_of_ne (not_lt.mp hab.1) hab.2

theorem Listed.unique (h : ListedBy key values l) (h' : ListedBy key values l')
    (hnodup : (values.map key).Nodup) : l = l' :=
  (h.perm.trans h'.perm.symm).eq_of_pairwise
    (fun _ _ _ _ hab hba => absurd hab hba.asymm) (h.strict hnodup) (h'.strict hnodup)

theorem listed_insertionSort (key : V → T) (values : List V) :
    ListedBy key values (values.insertionSort fun a b => key a ≤ key b) := by
  have : Std.Total fun a b : V => key a ≤ key b := ⟨fun a b => le_total (key a) (key b)⟩
  have : IsTrans V fun a b => key a ≤ key b := ⟨fun _ _ _ => le_trans⟩
  exact ⟨List.perm_insertionSort (fun a b : V => key a ≤ key b) values,
    (List.pairwise_insertionSort (fun a b : V => key a ≤ key b) values).imp not_lt.mpr⟩

theorem exists_listed (key : V → T) (values : List V) : ∃ l, ListedBy key values l :=
  ⟨_,listed_insertionSort key values⟩

/-- A page that does not end between equal keys ends where all listings have shown the same. -/
theorem exists_level {stop : ℕ} (h : ¬ Cuts key values stop) (hstop : 0 < stop) (hlt : stop ≤ values.length) :
    ∃ k, values.countP (fun a => key a ≤ k) = stop := by
  obtain ⟨l,hl⟩ := exists_listed key values
  have hlength := hl.perm.length_eq
  have hi : stop-1 < l.length := by omega
  have hbelow := holds_iff_lt_countP (hl.closed_lt (key l[stop-1])) hi
  have hupto := holds_iff_lt_countP (hl.closed_le (key l[stop-1])) hi
  simp only [lt_irrefl,decide_false,le_refl,decide_true,Bool.false_eq_true,false_iff,true_iff,
    hl.perm.countP_eq] at hbelow hupto
  refine ⟨key l[stop-1],?_⟩
  by_contra hne
  exact h ⟨key l[stop-1],by omega,by omega⟩

theorem Listed.take_perm (h : ListedBy key values l) (k : T) :
    (l.take (values.countP fun a => key a ≤ k)).Perm (values.filter fun a => key a ≤ k) := by
  rw [← h.perm.countP_eq,← filter_eq_take (h.closed_le k)]
  exact h.perm.filter _

/-- Two listings begin with the same elements up to a page that does not end between equal keys. -/
theorem take_perm_take {stop : ℕ} (hl : ListedBy key values l) (hl' : ListedBy key values l')
    (h : ¬ Cuts key values stop) : (l.take stop).Perm (l'.take stop) := by
  rcases Nat.eq_zero_or_pos stop with rfl | hpos
  · simp
  · rcases Nat.lt_or_ge values.length stop with hlong | hle
    · rw [List.take_of_length_le (by rw [hl.perm.length_eq]; omega),
        List.take_of_length_le (by rw [hl'.perm.length_eq]; omega)]
      exact hl.perm.trans hl'.perm.symm
    · obtain ⟨k,rfl⟩ := exists_level h hpos hle
      exact (hl.take_perm k).trans (hl'.take_perm k).symm

/-- Where no page ends between equal keys, the pages give every element once. -/
theorem gathered_complete {listing : ℕ → List V} (hlisted : ∀ k, ListedBy key values (listing k))
    (hcuts : ∀ k, ¬ Cuts key values (offset size k)) {n : ℕ} (hn : values.length ≤ offset size n) :
    (gathered listing size n).Perm values := by
  obtain ⟨l,hl⟩ := exists_listed key values
  have hperm : (gathered listing size n).Perm (l.take (offset size n)) :=
    gathered_perm (fun k => l.take (offset size k))
      (fun k => take_perm_take (hlisted k) hl (hcuts k))
      (fun k => take_perm_take (hlisted k) hl (hcuts (k+1))) n
  rw [List.take_of_length_le (by rw [hl.perm.length_eq]; exact hn)] at hperm
  exact hperm.trans hl.perm

/-- Neighbours of the same key may change places. -/
theorem Listed.swap {before after : List V} {x y : V}
    (h : ListedBy key values (before++x::y::after)) (hxy : key x = key y) :
    ListedBy key values (before++y::x::after) := by
  refine ⟨((List.Perm.swap x y after).append_left before).trans h.perm,?_⟩
  have hordered := h.ordered
  simp only [List.pairwise_append,List.pairwise_cons,List.mem_cons,not_lt] at hordered ⊢
  obtain ⟨hbefore,⟨hx,hy,hafter⟩,hall⟩ := hordered
  refine ⟨hbefore,⟨?_,?_,hafter⟩,?_⟩
  · rintro a (rfl | ha)
    · exact hxy.ge
    · exact hy a ha
  · exact fun a ha => hx a (.inr ha)
  · rintro a ha b (rfl | rfl | hb)
    · exact hall a ha _ (.inr (.inl rfl))
    · exact hall a ha _ (.inl rfl)
    · exact hall a ha b (.inr (.inr hb))

/-- Where a page ends between equal keys, a listing has two of them next to each other there. -/
theorem exists_neighbours {stop : ℕ} (h : Cuts key values stop) :
    ∃ before x y after, ListedBy key values (before++x::y::after) ∧ key x = key y ∧
      before.length+1 = stop := by
  obtain ⟨k,hbelow,hupto⟩ := h
  obtain ⟨l,hl⟩ := exists_listed key values
  have hlength := hl.perm.length_eq
  have hcount := values.countP_le_length (p := fun a => decide (key a ≤ k))
  have hi : stop-1 < l.length := by omega
  have hj : stop < l.length := by omega
  have hnot := (holds_iff_lt_countP (hl.closed_lt k) hi).not
  have hfirst := holds_iff_lt_countP (hl.closed_le k) hi
  have hsecond := holds_iff_lt_countP (hl.closed_le k) hj
  have hnot' := (holds_iff_lt_countP (hl.closed_lt k) hj).not
  simp only [decide_eq_true_eq,hl.perm.countP_eq,not_lt] at hnot hfirst hsecond hnot'
  have hx : key l[stop-1] = k := le_antisymm (hfirst.mpr (by omega)) (hnot.mpr (by omega))
  have hy : key l[stop] = k := le_antisymm (hsecond.mpr (by omega)) (hnot'.mpr (by omega))
  have hsplit : l = l.take (stop-1)++l[stop-1]::l[stop]::l.drop (stop+1) := by
    conv_lhs => rw [← List.take_append_drop (stop-1) l]
    rw [List.drop_eq_getElem_cons hi]
    congr 2
    rw [show stop-1+1 = stop by omega,List.drop_eq_getElem_cons hj]
  refine ⟨l.take (stop-1),l[stop-1],l[stop],l.drop (stop+1),hsplit ▸ hl,hx.trans hy.symm,?_⟩
  rw [List.length_take]
  omega

/-- Where a page ends between equal keys, there are listings whose pages miss an element. -/
theorem exists_incomplete (hnodup : values.Nodup) {k : ℕ} (hcuts : Cuts key values (offset size k)) :
    ∃ listing : ℕ → List V, (∀ j, ListedBy key values (listing j)) ∧
      ∀ n, values.length ≤ offset size n → ¬ (gathered listing size n).Perm values := by
  obtain ⟨before,x,y,after,hl,hxy,hlength⟩ := exists_neighbours hcuts
  have hl' := hl.swap hxy
  refine ⟨switched k (before++x::y::after) (before++y::x::after),fun j => ?_,fun n hn hperm => ?_⟩
  · unfold switched
    split_ifs
    · exact hl
    · exact hl'
  · have htotal := hl.perm.length_eq
    simp only [List.length_append,List.length_cons] at htotal
    have hkn : k ≤ n := by
      by_contra hlt
      have hmono := offset_mono size (Nat.le_of_not_le hlt)
      omega
    have hmem : y ∈ gathered (switched k (before++x::y::after) (before++y::x::after)) size n :=
      hperm.mem_iff.mpr (hl.perm.mem_iff.mp (by simp))
    have hfirst : (before++x::y::after).take (before.length+1) = before++[x] := by
      simp [List.take_append]
    have hrest : page (before++y::x::after) (before.length+1) (offset size n) = x::after := by
      have hshort : (before++y::x::after).length ≤ offset size n := by simp; omega
      simp [page,List.take_of_length_le hshort,List.drop_append]
    rw [gathered_switched hkn,← hlength,hfirst,hrest] at hmem
    have hdistinct := hl.perm.nodup_iff.mpr hnodup
    simp only [List.nodup_append,List.nodup_cons,List.mem_cons,List.mem_append] at hdistinct hmem
    obtain ⟨-,⟨hx,hy,-⟩,hbefore⟩ := hdistinct
    rcases hmem with (hmem | rfl | hnil) | rfl | hmem
    · exact hbefore y hmem y (.inr (.inl rfl)) rfl
    · exact hx (.inl rfl)
    · cases hnil
    · exact hx (.inl rfl)
    · exact hy hmem

end Keys

end Paging
end AquaOS
