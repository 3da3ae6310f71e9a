import AquaOS.Table
import AquaOS.Transition

/-! A bounded window of keys that reserve themselves once, the oldest giving way to the newest, and
the reservations made through it. A reservation is the work of one party, which ends well or takes
the reservation of its key back; the window does not know which party made it. -/
namespace AquaOS

structure Window (K : Type) [DecidableEq K] where
  capacity : ℕ
  seen : Table K Unit
  order : List K
  positive : 0 < capacity
  fits : order.length ≤ capacity
  nodup : order.Nodup
  mem : ∀ k, k ∈ seen ↔ k ∈ order

namespace Window

variable {K : Type} [DecidableEq K] {w w' : Window K} {k : K}

def make (K : Type) [DecidableEq K] (capacity : ℕ) (h : 0 < capacity) : Window K :=
  ⟨capacity,∅,[],h,Nat.zero_le _,.nil,fun k => by simp⟩

/-- The keys that are left when one more is appended: the first goes if there are too many. -/
def trim (capacity : ℕ) (order : List K) : List K :=
  if capacity < order.length then order.tail else order

omit [DecidableEq K] in
theorem trim_sublist (capacity : ℕ) (order : List K) : (trim capacity order).Sublist order := by
  unfold trim
  split_ifs
  · exact List.tail_sublist order
  · exact List.Sublist.refl order

/-- The set without the key that `trim` drops. -/
def forget (capacity : ℕ) (order : List K) (seen : Table K Unit) : Table K Unit :=
  if capacity < order.length then
    match order with
    | [] => seen
    | oldest::_ => seen.erase oldest
  else seen

theorem mem_forget {capacity : ℕ} {order : List K} {seen : Table K Unit} (hnodup : order.Nodup)
    (hmem : ∀ k, k ∈ seen ↔ k ∈ order) (k : K) :
    k ∈ forget capacity order seen ↔ k ∈ trim capacity order := by
  unfold forget trim
  split_ifs with h
  · cases order with
    | nil => simpa using hmem k
    | cons oldest rest =>
      rw [AList.mem_erase,hmem,List.mem_cons,List.tail_cons]
      constructor
      · rintro ⟨hne,rfl | hk⟩
        · exact absurd rfl hne
        · exact hk
      · intro hk
        refine ⟨?_,.inr hk⟩
        rintro rfl
        exact (List.nodup_cons.mp hnodup).1 hk
  · exact hmem k

/-- A new key is reserved, at the cost of the oldest if the window is full. -/
def reserve (w : Window K) (k : K) : Option (Window K) :=
  if h : k ∈ w.seen then none
  else
    have hnew : k ∉ w.order := fun hk => h ((w.mem k).mpr hk)
    have hnodup : (w.order++[k]).Nodup := by
      rw [List.nodup_append_comm]
      exact List.nodup_cons.mpr ⟨hnew,w.nodup⟩
    have hmem : ∀ k', k' ∈ w.seen.insert k () ↔ k' ∈ w.order++[k] := fun k' => by
      rw [AList.mem_insert,w.mem,List.mem_append,List.mem_singleton,or_comm]
    some
      { capacity := w.capacity
        seen := forget w.capacity (w.order++[k]) (w.seen.insert k ())
        order := trim w.capacity (w.order++[k])
        positive := w.positive
        fits := by
          have hfits := w.fits
          unfold trim
          split_ifs with hfull
          · simp only [List.length_tail,List.length_append,List.length_singleton] at hfull ⊢
            omega
          · omega
        nodup := hnodup.sublist (trim_sublist _ _)
        mem := mem_forget hnodup hmem }

def release (w : Window K) (k : K) : Window K where
  capacity := w.capacity
  seen := w.seen.erase k
  order := w.order.erase k
  positive := w.positive
  fits := (w.order.length_erase_le).trans w.fits
  nodup := w.nodup.erase k
  mem k' := by rw [AList.mem_erase,w.mem,w.nodup.mem_erase_iff]

theorem reserve_none_iff : w.reserve k = none ↔ k ∈ w.order := by
  unfold reserve
  split_ifs with h
  · simpa using (w.mem k).mp h
  · simpa using fun hk => h ((w.mem k).mpr hk)

theorem reserve_some (h : w.reserve k = some w') :
    k ∉ w.order ∧ w'.capacity = w.capacity ∧ w'.order = trim w.capacity (w.order++[k]) := by
  unfold reserve at h
  split_ifs at h with hk
  obtain rfl := Option.some.inj h
  exact ⟨fun hmem => hk ((w.mem k).mpr hmem),rfl,rfl⟩

theorem mem_trim_append (w : Window K) (k : K) : k ∈ trim w.capacity (w.order++[k]) := by
  unfold trim
  split_ifs with h
  · cases horder : w.order with
    | nil =>
      have hpositive := w.positive
      simp only [horder,List.nil_append,List.length_singleton] at h
      omega
    | cons oldest rest => simp
  · simp

end Window

inductive Outcome
  | running | succeeded | failed
  deriving DecidableEq

/-- A window with the keys reserved so far, the newest first: the number of a reservation is how
many were made before it. -/
structure Reservations (K : Type) [DecidableEq K] where
  window : Window K
  log : List K := []
  outcome : ℕ → Outcome := fun _ => .running

namespace Reservations

open Transition

variable {K : Type} [DecidableEq K]

def keyAt : List K → ℕ → Option K
  | [], _ => none
  | k::log, n => if n = log.length then some k else keyAt log n

def latest (k : K) : List K → Option ℕ
  | [] => none
  | k'::log => if k' = k then some log.length else latest k log

/-- The latest reservation of a key whose work succeeded. -/
def latestSucceeded (outcome : ℕ → Outcome) (k : K) : List K → Option ℕ
  | [] => none
  | k'::log =>
    if k' = k ∧ outcome log.length = .succeeded then some log.length
    else latestSucceeded outcome k log

/-- How many reservations of other keys were made after a reservation. -/
def othersSince (k : K) (n : ℕ) : List K → ℕ
  | [] => 0
  | k'::log => othersSince k n log+if n < log.length ∧ k' ≠ k then 1 else 0

def reserve (r : Reservations K) (k : K) : Option (Reservations K) :=
  match r.window.reserve k with
  | none => none
  | some window => some { r with window := window, log := k::r.log }

/-- The work of a running reservation ends; a failure releases its key. -/
def finish (r : Reservations K) (n : ℕ) (succeeded : Bool) : Reservations K :=
  match keyAt r.log n, r.outcome n with
  | some k, .running =>
    if succeeded then { r with outcome := Function.update r.outcome n .succeeded }
    else { r with window := r.window.release k, outcome := Function.update r.outcome n .failed }
  | _, _ => r

variable {r r' : Reservations K} {k k' : K} {n : ℕ} {log : List K}

omit [DecidableEq K] in
theorem keyAt_lt (h : keyAt log n = some k) : n < log.length := by
  induction log with
  | nil => cases h
  | cons k' log ih =>
    unfold keyAt at h
    split_ifs at h with hn
    · simp [hn]
    · exact (ih h).trans (Nat.lt_succ_self _)

theorem keyAt_of_latest (h : latest k log = some n) : keyAt log n = some k := by
  induction log with
  | nil => cases h
  | cons k' log ih =>
    unfold latest at h
    split_ifs at h with hk
    · cases h
      simp [keyAt,hk]
    · have hlog := ih h
      simp [keyAt,(keyAt_lt hlog).ne,hlog]

theorem keyAt_of_latestSucceeded {outcome : ℕ → Outcome}
    (h : latestSucceeded outcome k log = some n) :
    keyAt log n = some k ∧ outcome n = .succeeded := by
  induction log with
  | nil => cases h
  | cons k' log ih =>
    unfold latestSucceeded at h
    split_ifs at h with hk
    · cases h
      simpa [keyAt] using hk
    · have hlog := ih h
      simpa [keyAt,(keyAt_lt hlog.1).ne] using hlog

theorem othersSince_le_cons (k : K) (n : ℕ) (k' : K) (log : List K) :
    othersSince k n log ≤ othersSince k n (k'::log) :=
  Nat.le_add_right _ _

theorem othersSince_cons_of_ne (h : n < log.length) (hk : k' ≠ k) :
    othersSince k n (k'::log) = othersSince k n log+1 := by
  simp [othersSince,h,hk]

/-- The keys behind a key in the window were reserved after it. -/
def Ordered (r : Reservations K) : Prop :=
  ∀ k behind, (k::behind).Sublist r.window.order →
    ∃ n, latest k r.log = some n ∧ behind.length ≤ othersSince k n r.log

/-- A reservation that has not failed is in the window as the latest of its key, or as many
reservations of other keys as the window holds were made after it. -/
def Held (r : Reservations K) : Prop :=
  ∀ k n, keyAt r.log n = some k → r.outcome n ≠ .failed →
    (latest k r.log = some n ∧ k ∈ r.window.order) ∨ r.window.capacity ≤ othersSince k n r.log

/-- A reservation that fails is the latest of its key, if the key is in the window. -/
def Own (r : Reservations K) (n : ℕ) (succeeded : Bool) : Prop :=
  succeeded = false → ∀ k, keyAt r.log n = some k → k ∈ r.window.order → latest k r.log = some n

theorem reserve_eq (h : r.reserve k = some r') :
    ∃ w, r.window.reserve k = some w ∧ r' = { r with window := w, log := k::r.log } := by
  unfold reserve at h
  cases hw : r.window.reserve k with
  | none => simp [hw] at h
  | some w =>
    simp only [hw,Option.some.injEq] at h
    exact ⟨w,rfl,h.symm⟩

theorem finish_cases (r : Reservations K) (n : ℕ) (succeeded : Bool) :
    r.finish n succeeded = r ∨
    (r.outcome n = .running ∧ succeeded = true ∧
      r.finish n succeeded = { r with outcome := Function.update r.outcome n .succeeded }) ∨
    ∃ k, keyAt r.log n = some k ∧ r.outcome n = .running ∧ succeeded = false ∧
      r.finish n succeeded =
        { r with window := r.window.release k, outcome := Function.update r.outcome n .failed } := by
  unfold finish
  split
  · next k hk hrunning =>
    cases succeeded with
    | true => exact .inr (.inl ⟨hrunning,rfl,rfl⟩)
    | false => exact .inr (.inr ⟨k,hk,hrunning,rfl,rfl⟩)
  · exact .inl rfl

theorem reserve_ordered (h : r.Ordered) (hr : r.reserve k = some r') : r'.Ordered := by
  obtain ⟨w,hw,rfl⟩ := reserve_eq hr
  obtain ⟨hnew,_,horder⟩ := Window.reserve_some hw
  intro k' behind hsub
  rw [horder] at hsub
  have happend := hsub.trans (Window.trim_sublist _ _)
  obtain ⟨front,back,hsplit,hfront,hback⟩ := List.sublist_append_iff.mp happend
  cases front with
  | nil =>
    rw [List.nil_append] at hsplit
    rw [← hsplit] at hback
    have hlen := hback.length_le
    have hmem : k' = k := by simpa using hback.subset List.mem_cons_self
    refine ⟨r.log.length,by simp [latest,hmem],?_⟩
    simp only [List.length_cons,List.length_nil] at hlen
    omega
  | cons x front =>
    obtain ⟨rfl,rfl⟩ : k' = x ∧ behind = front++back := by simpa using hsplit
    obtain ⟨n,hlatest,hcount⟩ := h k' front hfront
    have hne : k ≠ k' := by
      rintro rfl
      exact hnew (hfront.subset List.mem_cons_self)
    have hlen := hback.length_le
    refine ⟨n,by simp [latest,hne,hlatest],?_⟩
    rw [othersSince_cons_of_ne (keyAt_lt (keyAt_of_latest hlatest)) hne,List.length_append]
    simp only [List.length_cons,List.length_nil] at hlen
    omega

theorem finish_ordered (h : r.Ordered) (n : ℕ) (succeeded : Bool) :
    (r.finish n succeeded).Ordered := by
  rcases finish_cases r n succeeded with hr | ⟨_,_,hr⟩ | ⟨k,_,_,_,hr⟩
  · rwa [hr]
  · rw [hr]
    exact h
  · rw [hr]
    exact fun k' behind hsub => h k' behind (hsub.trans List.erase_sublist)

/-- A key that a reservation drives out of the window has been followed by as many others as the
window holds. -/
theorem dropped_followed (h : r.Ordered) {w : Window K} (hw : r.window.reserve k = some w)
    (hk' : k' ∈ r.window.order) (hdropped : k' ∉ w.order) (hlatest : latest k' r.log = some n) :
    r.window.capacity ≤ othersSince k' n (k::r.log) := by
  obtain ⟨hnew,_,horder⟩ := Window.reserve_some hw
  have hne : k ≠ k' := by
    rintro rfl
    exact hnew hk'
  rw [horder] at hdropped
  unfold Window.trim at hdropped
  split_ifs at hdropped with hfull
  · cases hwindow : r.window.order with
    | nil => simp [hwindow] at hk'
    | cons oldest rest =>
      rw [hwindow] at hk' hdropped hfull
      simp only [List.cons_append,List.tail_cons,List.mem_append,not_or] at hdropped
      obtain rfl : k' = oldest := by
        rcases List.mem_cons.mp hk' with rfl | hmem
        · rfl
        · exact absurd hmem hdropped.1
      obtain ⟨n',hn',hcount⟩ := h k' rest (by rw [hwindow])
      rw [hlatest] at hn'
      cases hn'
      rw [othersSince_cons_of_ne (keyAt_lt (keyAt_of_latest hlatest)) hne]
      simp only [List.length_append,List.length_cons,List.length_nil] at hfull
      omega
  · exact absurd (List.mem_append_left _ hk') hdropped

theorem reserve_held (ho : r.Ordered) (h : r.Held) (hr : r.reserve k = some r') : r'.Held := by
  obtain ⟨w,hw,rfl⟩ := reserve_eq hr
  obtain ⟨hnew,hcapacity,horder⟩ := Window.reserve_some hw
  intro k' n hkey hlive
  dsimp only at hkey hlive ⊢
  rw [hcapacity]
  unfold keyAt at hkey
  split_ifs at hkey with hn
  · obtain rfl := Option.some.inj hkey
    refine .inl ⟨by simp [latest,hn],?_⟩
    rw [horder]
    exact Window.mem_trim_append r.window k
  · rcases h k' n hkey hlive with ⟨hlatest,hmem⟩ | hcount
    · have hne : k ≠ k' := by
        rintro rfl
        exact hnew hmem
      by_cases hkept : k' ∈ w.order
      · exact .inl ⟨by simp [latest,hne,hlatest],hkept⟩
      · exact .inr (dropped_followed ho hw hmem hkept hlatest)
    · exact .inr (hcount.trans (othersSince_le_cons _ _ _ _))

theorem finish_held (h : r.Held) {succeeded : Bool} (hown : r.Own n succeeded) :
    (r.finish n succeeded).Held := by
  rcases finish_cases r n succeeded with hr | ⟨hrunning,_,hr⟩ | ⟨k,hk,hrunning,hfailed,hr⟩
  · rwa [hr]
  · rw [hr]
    intro k' n' hkey hlive
    dsimp only at hkey hlive ⊢
    refine h k' n' hkey fun hfailed => hlive ?_
    have hne : n' ≠ n := by
      rintro rfl
      rw [hrunning] at hfailed
      cases hfailed
    rw [Function.update_of_ne hne]
    exact hfailed
  · rw [hr]
    intro k' n' hkey hlive
    dsimp only at hkey hlive ⊢
    have hne : n' ≠ n := by
      rintro rfl
      exact hlive (Function.update_self _ _ _)
    rw [Function.update_of_ne hne] at hlive
    rcases h k' n' hkey hlive with ⟨hlatest,hmem⟩ | hcount
    · have hkk : k' ≠ k := by
        rintro rfl
        have hself := hown hfailed k' hk hmem
        rw [hlatest] at hself
        exact hne (Option.some.inj hself)
      exact .inl ⟨hlatest,(List.mem_erase_of_ne hkk).mpr hmem⟩
    · exact .inr hcount

theorem finish_capacity (r : Reservations K) (n : ℕ) (succeeded : Bool) :
    (r.finish n succeeded).window.capacity = r.window.capacity := by
  rcases finish_cases r n succeeded with hr | ⟨_,_,hr⟩ | ⟨k,_,_,_,hr⟩
  · rw [hr]
  · rw [hr]
  · rw [hr]
    rfl

/-- A key whose work has succeeded cannot be reserved again before as many other reservations as
the window holds. -/
theorem reserve_refused (h : r.Held) (hn : latestSucceeded r.outcome k r.log = some n)
    (hfew : othersSince k n r.log < r.window.capacity) : r.reserve k = none := by
  obtain ⟨hkey,hsucceeded⟩ := keyAt_of_latestSucceeded hn
  rcases h k n hkey (by simp [hsucceeded]) with ⟨_,hmem⟩ | hcount
  · unfold reserve
    rw [Window.reserve_none_iff.mpr hmem]
  · omega

end Reservations
end AquaOS
