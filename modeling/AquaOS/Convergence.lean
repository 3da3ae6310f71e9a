import Mathlib.Tactic

/-! Stores that are brought to a wanted state place by place. What is wanted of a place may depend on
what it holds; a store some of whose places are as wanted and the others as before is led to the
same end. -/
namespace AquaOS

structure Wish (P V : Type) where
  want : P → V → V
  want_want : ∀ p v, want p (want p v) = want p v

namespace Wish

variable {P V : Type} (w : Wish P V) {s s' s'' : P → V}

def goal (s : P → V) : P → V := fun p => w.want p (s p)

def Between (s s' : P → V) : Prop := ∀ p, s' p = s p ∨ s' p = w.goal s p

theorem Between.refl (s : P → V) : w.Between s s := fun _ => .inl rfl

variable {w}

theorem Between.goal_eq (h : w.Between s s') : w.goal s' = w.goal s := by
  funext p
  rcases h p with hp | hp
  · rw [goal,hp,goal]
  · rw [goal,hp,goal,w.want_want]

theorem Between.trans (h : w.Between s s') (h' : w.Between s' s'') : w.Between s s'' := by
  intro p
  rcases h' p with hp | hp
  · rw [hp]
    exact h p
  · exact .inr (by rw [hp,h.goal_eq])

theorem Between.update [DecidableEq P] (h : w.Between s s') (p : P) :
    w.Between s (Function.update s' p (w.goal s p)) := by
  intro q
  by_cases hq : q = p
  · subst hq
    exact .inr (Function.update_self ..)
  · rw [Function.update_of_ne hq]
    exact h q

/-- A store on the way keeps a place of which nothing is wanted. -/
theorem Between.eq_of_want (h : w.Between s s') {p : P} (hp : w.want p (s p) = s p) :
    s' p = s p := by
  rcases h p with hsame | hdone
  · exact hsame
  · rw [hdone,goal,hp]

theorem goal_goal (s : P → V) : w.goal (w.goal s) = w.goal s := by
  funext p
  exact w.want_want p (s p)

end Wish
end AquaOS
