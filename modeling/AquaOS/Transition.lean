import Mathlib.Logic.Function.Basic
import Mathlib.Data.List.Infix
import Mathlib.Tactic

/-! Executable transition systems, runs whose steps all meet a guard, and
interleavings of indexed threads. A disabled label leaves the state as it is,
so every list of labels is a schedule and a run is a fold. -/
namespace AquaOS
namespace Transition

variable {S S' L L' : Type}

/-- The state after a whole schedule. -/
def run (step : S → L → S) (s : S) (ls : List L) : S := ls.foldl step s

@[simp] theorem run_nil (step : S → L → S) (s : S) : run step s [] = s := rfl

@[simp] theorem run_cons (step : S → L → S) (s : S) (l : L) (ls : List L) :
    run step s (l::ls) = run step (step s l) ls := rfl

theorem run_append (step : S → L → S) (s : S) (ls ms : List L) :
    run step s (ls++ms) = run step (run step s ls) ms := by
  simp [run]

/-- Every step of the schedule meets the guard in the state it is taken from. -/
def Guarded (step : S → L → S) (guard : S → L → Prop) : S → List L → Prop
  | _, [] => True
  | s, l::ls => guard s l ∧ Guarded step guard (step s l) ls

instance Guarded.decidable {step : S → L → S} {guard : S → L → Prop}
    [∀ s l, Decidable (guard s l)] : (s : S) → (ls : List L) → Decidable (Guarded step guard s ls)
  | _, [] => .isTrue trivial
  | s, l::ls =>
    have : Decidable (Guarded step guard (step s l) ls) := Guarded.decidable (step s l) ls
    inferInstanceAs (Decidable (guard s l ∧ Guarded step guard (step s l) ls))

variable {step : S → L → S} {s : S} {ls ms : List L} {guard g g' : S → L → Prop}
  {P I Inv : S → Prop} {ok : L → Prop}

theorem Guarded.mono (hg : ∀ s l, g s l → g' s l)
    (h : Guarded step g s ls) : Guarded step g' s ls := by
  induction ls generalizing s with
  | nil => trivial
  | cons l ls ih => exact ⟨hg s l h.1,ih h.2⟩

theorem Guarded.of_forall (h : ∀ s l, guard s l)
    (s : S) (ls : List L) : Guarded step guard s ls := by
  induction ls generalizing s with
  | nil => trivial
  | cons l ls ih => exact ⟨h s l,ih (step s l)⟩

theorem Guarded.and (h : Guarded step g s ls) (h' : Guarded step g' s ls) :
    Guarded step (fun s l => g s l ∧ g' s l) s ls := by
  induction ls generalizing s with
  | nil => trivial
  | cons l ls ih => exact ⟨⟨h.1,h'.1⟩,ih h.2 h'.2⟩

theorem Guarded.append_left (h : Guarded step guard s (ls++ms)) : Guarded step guard s ls := by
  induction ls generalizing s with
  | nil => trivial
  | cons l ls ih => exact ⟨h.1,ih h.2⟩

theorem Guarded.append_right
    (h : Guarded step guard s (ls++ms)) : Guarded step guard (run step s ls) ms := by
  induction ls generalizing s with
  | nil => exact h
  | cons l ls ih => exact ih h.2

theorem Guarded.append (h : Guarded step guard s ls) (h' : Guarded step guard (run step s ls) ms) :
    Guarded step guard s (ls++ms) := by
  induction ls generalizing s with
  | nil => exact h'
  | cons l ls ih => exact ⟨h.1,ih h.2 h'⟩

/-- Some state of the run, its ends included, satisfies the predicate. -/
def Meets (step : S → L → S) (P : S → Prop) : S → List L → Prop
  | s, [] => P s
  | s, l::ls => P s ∨ Meets step P (step s l) ls

instance Meets.decidable {step : S → L → S} {P : S → Prop} [DecidablePred P] :
    (s : S) → (ls : List L) → Decidable (Meets step P s ls)
  | s, [] => inferInstanceAs (Decidable (P s))
  | s, l::ls =>
    have : Decidable (Meets step P (step s l) ls) := Meets.decidable (step s l) ls
    inferInstanceAs (Decidable (P s ∨ Meets step P (step s l) ls))

theorem Meets.of_start (h : P s) (ls : List L) : Meets step P s ls := by
  cases ls with
  | nil => exact h
  | cons l ls => exact .inl h

/-- A predicate that an invariant of all remaining labels excludes is not met. -/
theorem not_meets (hstep : ∀ s l, I s → ok l → I (step s l)) (hP : ∀ s, I s → ¬ P s)
    (hs : I s) (hls : ∀ l ∈ ls, ok l) : ¬ Meets step P s ls := by
  induction ls generalizing s with
  | nil => exact hP s hs
  | cons l ls ih =>
    rintro (h | h)
    · exact hP s hs h
    · exact ih (hstep s l hs (hls l List.mem_cons_self))
        (fun l' hl' => hls l' (List.mem_cons_of_mem _ hl')) h

/-- A guard that an invariant of all labels gives is met by every step. -/
theorem guarded_of_invariant (hstep : ∀ s l, I s → ok l → I (step s l))
    (hguard : ∀ s l, I s → guard s l) (hs : I s) (hls : ∀ l ∈ ls, ok l) :
    Guarded step guard s ls := by
  induction ls generalizing s with
  | nil => trivial
  | cons l ls ih =>
    exact ⟨hguard s l hs,ih (hstep s l hs (hls l List.mem_cons_self))
      fun l' hl' => hls l' (List.mem_cons_of_mem _ hl')⟩

/-- What holds at the start and is kept by every guarded step holds after every
guarded schedule. -/
theorem invariant_run (hstep : ∀ s l, Inv s → guard s l → Inv (step s l))
    (hs : Inv s) (hg : Guarded step guard s ls) : Inv (run step s ls) := by
  induction ls generalizing s with
  | nil => exact hs
  | cons l ls ih => exact ih (hstep s l hs hg.1) hg.2

/-- What every step keeps holds after every schedule. -/
theorem invariant_always (hstep : ∀ s l, I s → I (step s l))
    (hs : I s) (ls : List L) : I (run step s ls) :=
  invariant_run (fun s l h _ => hstep s l h) hs (.of_forall (fun _ _ => trivial) s ls)

/-- An invariant that needs a second one, already known to be kept. -/
theorem guarded_and_invariant (hstep : ∀ s l, Inv s → guard s l → Inv (step s l)) (hs : Inv s)
    (hg : Guarded step guard s ls) : Guarded step (fun s l => guard s l ∧ Inv s) s ls := by
  induction ls generalizing s with
  | nil => trivial
  | cons l ls ih => exact ⟨⟨hg.1,hs⟩,ih (hstep s l hs hg.1) hg.2⟩

/-- A property that a step leads to exactly if it held before and the step meets the guard is
reached by exactly the guarded schedules. -/
theorem run_iff_guarded (hinv : ∀ s l, Inv s → Inv (step s l))
    (hstep : ∀ s l, Inv s → (P (step s l) ↔ P s ∧ guard s l)) (hs : Inv s) (ls : List L) :
    P (run step s ls) ↔ P s ∧ Guarded step guard s ls := by
  induction ls generalizing s with
  | nil => exact ⟨fun h => ⟨h,trivial⟩,fun h => h.1⟩
  | cons l ls ih =>
    rw [run_cons,ih (hinv s l hs),hstep s l hs,and_assoc]
    rfl

/-- A run that ends in `P` and did not start there has entered it and stayed since. -/
theorem exists_entry (hs : ¬ P s) (h : P (run step s ls)) :
    ∃ before after, ls = before++after ∧ ¬ P (run step s before) ∧
      Guarded step (fun s l => P (step s l)) (run step s before) after := by
  induction ls using List.reverseRecOn with
  | nil => exact absurd h hs
  | append_singleton ls l ih =>
    rw [run_append] at h
    by_cases hls : P (run step s ls)
    · obtain ⟨before,after,rfl,hout,hin⟩ := ih hls
      refine ⟨before,after++[l],List.append_assoc _ _ _,hout,hin.append ?_⟩
      rw [← run_append]
      exact ⟨h,trivial⟩
    · exact ⟨ls,[l],rfl,hls,h,trivial⟩

/-- What the steps of a run give, in order. -/
def outputs {O : Type} (step : S → L → S) (out : S → L → Option O) : S → List L → List O
  | _, [] => []
  | s, l::ls => (out s l).toList++outputs step out (step s l) ls

/-- A log that every step extends by what it gives is extended by a run likewise. -/
theorem log_run {O : Type} {out : S → L → Option O} {log : S → List O}
    (h : ∀ s l, log (step s l) = log s++(out s l).toList) (s : S) (ls : List L) :
    log (run step s ls) = log s++outputs step out s ls := by
  induction ls generalizing s with
  | nil => exact (List.append_nil _).symm
  | cons l ls ih => rw [run_cons,ih,h,List.append_assoc,outputs]

/-- If every step is seen through `f` as a step of a second system or as none, every run is
seen as a run of it. -/
theorem run_project {step' : S' → L' → S'} {f : S → S'}
    (h : ∀ s l, f (step s l) = f s ∨ ∃ l', f (step s l) = step' (f s) l') (s : S) (ls : List L) :
    ∃ ls', f (run step s ls) = run step' (f s) ls' := by
  induction ls generalizing s with
  | nil => exact ⟨[],rfl⟩
  | cons l ls ih =>
    obtain ⟨ls',hls⟩ := ih (step s l)
    rcases h s l with hl | ⟨l',hl⟩
    · exact ⟨ls',by rw [run_cons,hls,hl]⟩
    · exact ⟨l'::ls',by rw [run_cons,hls,hl,run_cons]⟩

section Threads

variable {T K : Type}

/-- No two threads occupy the window of one key. -/
def Exclusive (window : T → Option K) (threads : ℕ → T) : Prop :=
  ∀ i j k, window (threads i) = some k → window (threads j) = some k → i = j

variable {window : T → Option K} {threads : ℕ → T} {t : T}

theorem Exclusive.leave (h : Exclusive window threads) (i : ℕ) (ht : window t = none) :
    Exclusive window (Function.update threads i t) := by
  intro a b k ha hb
  have hai : a ≠ i := by rintro rfl; simp [ht] at ha
  have hbi : b ≠ i := by rintro rfl; simp [ht] at hb
  rw [Function.update_of_ne hai] at ha
  rw [Function.update_of_ne hbi] at hb
  exact h a b k ha hb

theorem Exclusive.stay (h : Exclusive window threads) (i : ℕ) (ht : window t = window (threads i)) :
    Exclusive window (Function.update threads i t) := by
  have hw : ∀ j, window (Function.update threads i t j) = window (threads j) := by
    intro j
    by_cases hj : j = i
    · subst j; simpa using ht
    · rw [Function.update_of_ne hj]
  intro a b k ha hb
  rw [hw] at ha hb
  exact h a b k ha hb

/-- A thread may enter a window that no other thread occupies. -/
theorem Exclusive.enter (h : Exclusive window threads) (i : ℕ)
    (hfree : ∀ k, window t = some k → ∀ j, j ≠ i → window (threads j) ≠ some k) :
    Exclusive window (Function.update threads i t) := by
  intro a b k ha hb
  by_cases hai : a = i <;> by_cases hbi : b = i
  · exact hai.trans hbi.symm
  · subst a
    rw [Function.update_self] at ha
    rw [Function.update_of_ne hbi] at hb
    exact absurd hb (hfree k ha b hbi)
  · subst b
    rw [Function.update_self] at hb
    rw [Function.update_of_ne hai] at ha
    exact absurd ha (hfree k hb a hai)
  · rw [Function.update_of_ne hai] at ha
    rw [Function.update_of_ne hbi] at hb
    exact h a b k ha hb

theorem update_cases {i j : ℕ} {u : T}
    (h : Function.update threads i t j = u) : (j = i ∧ t = u) ∨ threads j = u := by
  by_cases hj : j = i
  · subst hj
    rw [Function.update_self] at h
    exact .inl ⟨rfl,h⟩
  · rw [Function.update_of_ne hj] at h
    exact .inr h

/-- Per-thread facts after one thread moved: the moved thread's own, and every
other thread's, which the move must not disturb. -/
theorem forall_update {P : ℕ → T → Prop} (i : ℕ) (hi : P i t) (ho : ∀ j, j ≠ i → P j (threads j)) :
    ∀ j, P j (Function.update threads i t j) := by
  intro j
  by_cases hj : j = i
  · subst j; simpa using hi
  · rw [Function.update_of_ne hj]; exact ho j hj

end Threads

section Completion

variable {C : Type} {step : C → C} {rank : C → ℕ}

/-- A deterministic machine run until its rank is used up. -/
def finish (step : C → C) (rank : C → ℕ) (c : C) : C := step^[rank c] c

theorem iterate_done (hfix : ∀ c, rank c = 0 → step c = c) {c : C} (h : rank c = 0) (n : ℕ) :
    step^[n] c = c := by
  induction n with
  | zero => rfl
  | succ n ih => rw [Function.iterate_succ_apply,hfix c h,ih]

variable (hfix : ∀ c, rank c = 0 → step c = c)
  (hdec : ∀ c, rank c ≠ 0 → rank (step c) < rank c)

include hfix hdec

/-- Any number of steps from the rank on leads to the same state. -/
theorem iterate_eq_finish {c : C} {n : ℕ} (h : rank c ≤ n) : step^[n] c = finish step rank c := by
  induction n using Nat.strong_induction_on generalizing c with
  | _ n ih =>
    by_cases h0 : rank c = 0
    · rw [finish,h0,iterate_done hfix h0]; rfl
    · have hlt := hdec c h0
      obtain ⟨m,rfl⟩ : ∃ m, n = m+1 := ⟨n-1,by omega⟩
      obtain ⟨k,hk⟩ : ∃ k, rank c = k+1 := ⟨rank c-1,by omega⟩
      rw [finish,hk,Function.iterate_succ_apply,Function.iterate_succ_apply,
        ih m (by omega) (by omega),ih k (by omega) (by omega)]

theorem finish_step (c : C) : finish step rank (step c) = finish step rank c := by
  by_cases h0 : rank c = 0
  · rw [hfix c h0]
  · have hlt := hdec c h0
    obtain ⟨k,hk⟩ : ∃ k, rank c = k+1 := ⟨rank c-1,by omega⟩
    rw [← iterate_eq_finish hfix hdec (show rank (step c) ≤ k by omega)]
    rw [finish,hk,Function.iterate_succ_apply]

theorem rank_finish (c : C) : rank (finish step rank c) = 0 := by
  induction h : rank c using Nat.strong_induction_on generalizing c with
  | _ n ih =>
    by_cases h0 : rank c = 0
    · rw [finish,h0]; exact h0
    · rw [← finish_step hfix hdec]
      exact ih (rank (step c)) (h ▸ hdec c h0) (step c) rfl

end Completion

section Histories

variable {A : Type}

/-- A history, newest entry first, in which every entry may follow the one before it. -/
def Walks (follows : Option A → A → Prop) : List A → Prop
  | [] => True
  | x::earlier => follows earlier.head? x ∧ Walks follows earlier

/-- An entry that nothing may follow can only be the newest. -/
theorem Walks.newest {follows : Option A → A → Prop} {history : List A} (h : Walks follows history)
    {x : A} (hx : x ∈ history) (hlast : ∀ y, ¬ follows (some x) y) : history.head? = some x := by
  induction history with
  | nil => cases hx
  | cons y earlier ih =>
    rcases List.mem_cons.mp hx with rfl | hmem
    · rfl
    · exact absurd (ih h.2 hmem ▸ h.1) (hlast y)

end Histories

end Transition
end AquaOS
