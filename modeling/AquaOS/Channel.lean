import Mathlib.Data.List.Basic
import Mathlib.Tactic

/-! Bounded first-in first-out channels with the operations of a `select` that has a default:
a send that gives up on a full channel and a receive that gives up on an empty one. -/
namespace AquaOS

/-- A buffered channel, its oldest item first. -/
structure Channel (A : Type) where
  capacity : ℕ
  items : List A
  fits : items.length ≤ capacity

namespace Channel

variable {A : Type} {c c' : Channel A} {x : A}

def make (A : Type) (capacity : ℕ) : Channel A := ⟨capacity,[],Nat.zero_le _⟩

def send (c : Channel A) (x : A) : Option (Channel A) :=
  if h : c.items.length < c.capacity then
    some ⟨c.capacity,c.items++[x],by rw [List.length_append]; exact h⟩
  else none

def receive : Channel A → Option (A × Channel A)
  | ⟨_,[],_⟩ => none
  | ⟨capacity,x::items,h⟩ => some (x,⟨capacity,items,(Nat.le_succ _).trans h⟩)

theorem send_none_iff : c.send x = none ↔ c.items.length = c.capacity := by
  unfold send
  have hfits := c.fits
  split_ifs with h
  · simp [h.ne]
  · simp only [true_iff]
    omega

theorem send_some (h : c.send x = some c') :
    c.items.length < c.capacity ∧ c'.capacity = c.capacity ∧ c'.items = c.items++[x] := by
  unfold send at h
  split_ifs at h with hroom
  obtain rfl := Option.some.inj h
  exact ⟨hroom,rfl,rfl⟩

theorem receive_none_iff : c.receive = none ↔ c.items = [] := by
  obtain ⟨capacity,items,hfits⟩ := c
  cases items with
  | nil => simp [receive]
  | cons x items => simp [receive]

theorem receive_some (h : c.receive = some (x,c')) :
    c'.capacity = c.capacity ∧ c.items = x::c'.items := by
  obtain ⟨capacity,items,hfits⟩ := c
  cases items with
  | nil => cases h
  | cons y items =>
    obtain ⟨rfl,rfl⟩ := Prod.mk.inj (Option.some.inj h)
    exact ⟨rfl,rfl⟩

theorem receive_room (h : c.receive = some (x,c')) : c'.items.length < c'.capacity := by
  obtain ⟨hcapacity,hitems⟩ := receive_some h
  have hfits := c.fits
  rw [hitems,List.length_cons] at hfits
  omega

end Channel
end AquaOS
