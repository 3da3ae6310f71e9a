import Mathlib.Tactic

/-! Programs that act through calls to a boundary and end in a value. A boundary answers each call
from a state of its own; what holds of a program under every answer holds of every run of it. -/
namespace AquaOS

inductive Program (C : Type) (R : C → Type) (A : Type) : Type
  | done (a : A)
  | call (c : C) (next : R c → Program C R A)

namespace Program

variable {C : Type} {R : C → Type} {A B S : Type}

def bind : Program C R A → (A → Program C R B) → Program C R B
  | .done a, f => f a
  | .call c next, f => .call c fun r => bind (next r) f

instance : Monad (Program C R) where
  pure := .done
  bind := bind

/-- The program that makes one call and returns the answer. -/
def ask (c : C) : Program C R (R c) := .call c .done

def exec (answer : S → (c : C) → R c × S) : Program C R A → S → A × S
  | .done a, s => (a,s)
  | .call c next, s => exec answer (next (answer s c).1) (answer s c).2

def calls (answer : S → (c : C) → R c × S) : Program C R A → S → List C
  | .done _, _ => []
  | .call c next, s => c::calls answer (next (answer s c).1) (answer s c).2

/-- Whatever is answered, every call meets the predicate. -/
def Every (P : C → Prop) : Program C R A → Prop
  | .done _ => True
  | .call c next => P c ∧ ∀ r, (next r).Every P

/-- Whatever is answered, the value meets the predicate. -/
def Returns (Q : A → Prop) : Program C R A → Prop
  | .done a => Q a
  | .call _ next => ∀ r, (next r).Returns Q

/-- The value and the state a run ends in meet the predicate. -/
def Ensures (answer : S → (c : C) → R c × S) (m : Program C R A) (Q : A → S → Prop) (s : S) : Prop :=
  Q (exec answer m s).1 (exec answer m s).2

section Rules

variable {P : C → Prop} {answer : S → (c : C) → R c × S}

@[simp] theorem exec_pure (a : A) (s : S) :
    exec answer (pure a : Program C R A) s = (a,s) := rfl

theorem exec_bind (m : Program C R A) (f : A → Program C R B) (s : S) :
    exec answer (m >>= f) s = exec answer (f (exec answer m s).1) (exec answer m s).2 := by
  induction m generalizing s with
  | done a => rfl
  | call c next ih => exact ih (answer s c).1 (answer s c).2

@[simp] theorem every_pure (a : A) : Every P (pure a : Program C R A) := trivial

theorem every_ask {c : C} (h : P c) : Every P (ask c : Program C R (R c)) :=
  ⟨h,fun _ => trivial⟩

theorem every_bind {m : Program C R A} {f : A → Program C R B} (hm : m.Every P)
    (hf : ∀ a, (f a).Every P) : (m >>= f).Every P := by
  induction m with
  | done a => exact hf a
  | call c next ih => exact ⟨hm.1,fun r => ih r (hm.2 r)⟩

/-- What holds under every answer holds of the calls that are made. -/
theorem Every.calls {m : Program C R A} (hm : m.Every P) (s : S) :
    ∀ c ∈ m.calls answer s, P c := by
  induction m generalizing s with
  | done a => exact fun _ h => absurd h List.not_mem_nil
  | call c next ih =>
    intro c' hc'
    rcases List.mem_cons.mp hc' with rfl | hc'
    · exact hm.1
    · exact ih (answer s c).1 (hm.2 _) (answer s c).2 c' hc'

section Ensures

variable {Q : A → S → Prop} {s : S}

theorem ensures_pure {a : A} (h : Q a s) : Ensures answer (pure a : Program C R A) Q s := h

theorem ensures_ask {c : C} {f : R c → Program C R A}
    (h : Ensures answer (f (answer s c).1) Q (answer s c).2) : Ensures answer (ask c >>= f) Q s := h

end Ensures

end Rules

end Program
end AquaOS
