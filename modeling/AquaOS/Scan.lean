import AquaOS.Table
import Mathlib.Data.List.Nodup
import Mathlib.Tactic

/-! Loops over a list that carry a state and stop at the first error. -/
namespace AquaOS
namespace Scan

variable {S A E K : Type}

/-- The loop body gets the index of the element, the state before it and the element. -/
def scan (f : ℕ → S → A → Except E S) : ℕ → S → List A → Except E S
  | _, s, [] => .ok s
  | i, s, x::l =>
    match f i s x with
    | .error err => .error err
    | .ok t => scan f (i+1) t l

theorem bind_ok {T : Type} {x : Except E S} {g : S → Except E T} {t : T} :
    (x >>= g) = .ok t ↔ ∃ s, x = .ok s ∧ g s = .ok t := by
  cases x <;> simp [bind,Except.bind]

variable {f : ℕ → S → A → Except E S} {i : ℕ} {s s' : S} {x : A} {l : List A} {I : S → Prop}
  {P : A → Prop} {q : S → List K} {u : ℕ → S → A → S}

@[simp] theorem scan_nil : scan f i s [] = .ok s := rfl

theorem scan_cons_ok :
    scan f i s (x::l) = .ok s' ↔ ∃ t, f i s x = .ok t ∧ scan f (i+1) t l = .ok s' := by
  rw [scan]
  cases f i s x with
  | error err => simp
  | ok t => simp

/-- A recursion over a list that goes on from the result of its first element is a loop. -/
theorem eq_scan {loop : S → List A → Except E S} (hnil : ∀ s, loop s [] = .ok s)
    (hcons : ∀ s x l, loop s (x::l) = match loop s [x] with
      | .error err => .error err
      | .ok t => loop t l) :
    loop s l = scan (fun _ s x => loop s [x]) i s l := by
  induction l generalizing i s with
  | nil => exact hnil s
  | cons x l ih =>
    rw [hcons,scan]
    cases loop s [x] with
    | error err => rfl
    | ok t => exact ih

/-- What the turns of a finished loop keep of the state and establish of their elements. -/
theorem scan_invariant_forall (h : scan f i s l = .ok s') (hs : I s)
    (hf : ∀ i s x t, I s → f i s x = .ok t → I t ∧ P x) : I s' ∧ ∀ x ∈ l, P x := by
  induction l generalizing i s with
  | nil => cases h; exact ⟨hs,by simp⟩
  | cons y ys ih =>
    obtain ⟨t,hy,hys⟩ := scan_cons_ok.mp h
    obtain ⟨ht,hPy⟩ := hf i s y t hs hy
    obtain ⟨hs',hP⟩ := ih hys ht
    exact ⟨hs',List.forall_mem_cons.mpr ⟨hPy,hP⟩⟩

theorem scan_forall (h : scan f i s l = .ok s')
    (hf : ∀ i s x t, f i s x = .ok t → P x) : ∀ x ∈ l, P x :=
  (scan_invariant_forall (I := fun _ => True) h trivial
    fun i s x t _ hx => ⟨trivial,hf i s x t hx⟩).2

theorem scan_invariant (h : scan f i s l = .ok s') (hs : I s)
    (hf : ∀ i s x t, I s → f i s x = .ok t → I t) : I s' :=
  (scan_invariant_forall (P := fun _ => True) h hs
    fun i s x t hs hx => ⟨hf i s x t hs hx,trivial⟩).1

variable {g : A → List K} {k : A → K} {H : S → K → Prop} {V : A → Prop}

/-- A loop that puts the keys of each element before what it has seen. -/
theorem scan_collects (h : scan f i s l = .ok s')
    (hf : ∀ i s x t, f i s x = .ok t → q t = (g x).reverse++q s) :
    q s' = (l.flatMap g).reverse++q s := by
  induction l generalizing i s with
  | nil => cases h; rfl
  | cons y ys ih =>
    obtain ⟨t,hy,hys⟩ := scan_cons_ok.mp h
    rw [ih hys,hf i s y t hy]
    simp

theorem scan_collects_map (h : scan f i s l = .ok s')
    (hf : ∀ i s x t, f i s x = .ok t → q t = k x::q s) : q s' = (l.map k).reverse++q s := by
  have hcol := scan_collects (g := fun x => [k x]) h hf
  rwa [← List.map_eq_flatMap] at hcol

theorem scan_keeps {p : S → K} (h : scan f i s l = .ok s')
    (hf : ∀ i s x t, f i s x = .ok t → p t = p s) : p s' = p s :=
  scan_invariant (I := fun t => p t = p s) h rfl
    fun i _ x t hs hx => (hf i _ x t hx).trans hs

/-- What is held after a loop whose turns take the keys of their elements. -/
theorem scan_holds (h : scan f i s l = .ok s')
    (hk : ∀ i s, ∀ x ∈ l, ∀ t, f i s x = .ok t → ∀ k, H t k ↔ k ∈ g x ∨ H s k) (k : K) :
    H s' k ↔ k ∈ l.flatMap g ∨ H s k := by
  induction l generalizing i s with
  | nil => cases h; simp
  | cons y ys ih =>
    obtain ⟨t,hy,hys⟩ := scan_cons_ok.mp h
    have hrest := ih hys fun i s x hx => hk i s x (List.mem_cons_of_mem _ hx)
    rw [hrest,hk i s y List.mem_cons_self t hy k,List.flatMap_cons,List.mem_append]
    tauto

/-- A loop that takes the keys of its elements finishes exactly if every element is valid, no
key occurs twice and none is held before. -/
theorem scan_takes_iff (hf : ∀ i s, ∀ x ∈ l, (∃ t, f i s x = .ok t) ↔
      V x ∧ (g x).Nodup ∧ ∀ k ∈ g x, ¬ H s k)
    (hk : ∀ i s, ∀ x ∈ l, ∀ t, f i s x = .ok t → ∀ k, H t k ↔ k ∈ g x ∨ H s k) :
    (∃ s', scan f i s l = .ok s') ↔
      (∀ x ∈ l, V x) ∧ (l.flatMap g).Nodup ∧ ∀ k ∈ l.flatMap g, ¬ H s k := by
  induction l generalizing i s with
  | nil => simp
  | cons y ys ih =>
    have hfirst := hf i s y List.mem_cons_self
    have hrest := fun t => ih (i := i+1) (s := t)
      (fun i s x hx => hf i s x (List.mem_cons_of_mem _ hx))
      (fun i s x hx => hk i s x (List.mem_cons_of_mem _ hx))
    simp only [scan_cons_ok,List.flatMap_cons,List.forall_mem_cons,List.nodup_append,
      List.mem_append]
    constructor
    · rintro ⟨s',t,hy,hys⟩
      obtain ⟨hv,hnd,hfresh⟩ := hfirst.mp ⟨t,hy⟩
      obtain ⟨hvs,hnds,hfreshs⟩ := (hrest t).mp ⟨s',hys⟩
      have hheld := hk i s y List.mem_cons_self t hy
      refine ⟨⟨hv,hvs⟩,⟨hnd,hnds,?_⟩,?_⟩
      · rintro k hky k' hks rfl
        exact hfreshs k hks ((hheld k).mpr (.inl hky))
      · rintro k (hky | hks)
        · exact hfresh k hky
        · exact fun hs => hfreshs k hks ((hheld k).mpr (.inr hs))
    · rintro ⟨⟨hv,hvs⟩,⟨hnd,hnds,hdisj⟩,hfresh⟩
      obtain ⟨t,hy⟩ := hfirst.mpr ⟨hv,hnd,fun k hky => hfresh k (.inl hky)⟩
      have hheld := hk i s y List.mem_cons_self t hy
      have hfreshs : ∀ k ∈ ys.flatMap g, ¬ H t k := by
        intro k hks ht
        rcases (hheld k).mp ht with hky | hs
        · exact hdisj k hky k hks rfl
        · exact hfresh k (.inr hks) hs
      obtain ⟨s',hys⟩ := (hrest t).mpr ⟨hvs,hnds,hfreshs⟩
      exact ⟨s',t,hy,hys⟩

/-- The same for turns that put one element `x` under its key `k x`. -/
theorem scan_inserts_iff
    (hf : ∀ i s, ∀ x ∈ l, ∀ t, f i s x = .ok t ↔ V x ∧ ¬ H s (k x) ∧ t = u i s x)
    (hu : ∀ i s x j, H (u i s x) j ↔ j = k x ∨ H s j) : (∃ s', scan f i s l = .ok s') ↔
      (∀ x ∈ l, V x) ∧ (l.map k).Nodup ∧ ∀ x ∈ l, ¬ H s (k x) := by
  have htake := scan_takes_iff (f := f) (i := i) (s := s) (l := l) (H := H)
    (g := fun x => [k x]) (V := V)
    (fun i s x hx => by simp [hf i s x hx])
    (fun i s x hx t ht j => by
      obtain ⟨_,_,rfl⟩ := (hf i s x hx t).mp ht
      simp [hu])
  rw [← List.map_eq_flatMap] at htake
  simpa using htake

theorem scan_inserts_holds (h : scan f i s l = .ok s')
    (hf : ∀ i s, ∀ x ∈ l, ∀ t, f i s x = .ok t ↔ V x ∧ ¬ H s (k x) ∧ t = u i s x)
    (hu : ∀ i s x j, H (u i s x) j ↔ j = k x ∨ H s j) (j : K) : H s' j ↔ j ∈ l.map k ∨ H s j := by
  have hhold := scan_holds (H := H) (g := fun x => [k x]) h
    (fun i s x hx t ht j => by
      obtain ⟨_,_,rfl⟩ := (hf i s x hx t).mp ht
      simp [hu]) j
  rwa [← List.map_eq_flatMap] at hhold

/-- A loop that puts valid elements with distinct keys into an empty table finishes with exactly
those elements in it. -/
theorem scan_fills [DecidableEq K] {p : S → Table K A}
    {u : S → A → S} (hf : ∀ i s x t, f i s x = .ok t ↔ V x ∧ k x ∉ p s ∧ t = u s x)
    (hput : ∀ s x, p (u s x) = (p s).insert (k x) x) (hempty : p s = ∅)
    (hv : ∀ x ∈ l, V x) (hnd : (l.map k).Nodup) :
    ∃ s', scan f i s l = .ok s' ∧ (p s').entries.map Sigma.snd = l.reverse := by
  have hinsert := scan_inserts_iff (f := f) (i := i) (s := s) (l := l) (H := fun s j => j ∈ p s)
    (fun i s x _ => hf i s x) (fun i s x j => by simp [hput])
  obtain ⟨s',hs'⟩ := hinsert.mpr ⟨hv,hnd,by simp [hempty]⟩
  have hcol := scan_collects_map (q := fun s => (p s).entries.map Sigma.snd) (k := id) hs'
    fun i s x t ht => by
      obtain ⟨_,hfree,rfl⟩ := (hf i s x t).mp ht
      rw [hput,AList.entries_insert_of_notMem hfree]
      rfl
  exact ⟨s',hs',by simpa [hempty] using hcol⟩

end Scan
end AquaOS
