import Mathlib.Order.Interval.Finset.Basic
import Mathlib.Data.Int.Interval
import Mathlib.Tactic

/-! Instants, durations, calendar days, and the time an on/off signal known from
dated reports spends on. An instant is the integer number of nanoseconds since the
first instant of year 1 in UTC, which is the zero instant; a duration is a signed
number of nanoseconds, and the bounds of the 64-bit type enter where an operation
uses them. -/
namespace AquaOS
namespace Timeline

def minDuration : ℤ := -9223372036854775808
def maxDuration : ℤ := 9223372036854775807

/-- The difference of two instants saturates at the bounds of a 64-bit duration. -/
def sub (t u : ℤ) : ℤ := max minDuration (min maxDuration (t-u))

variable {t u a b : ℤ} {r : Report} {history : List Report}

theorem sub_le_sub {t' : ℤ} (h : t ≤ t') : sub t u ≤ sub t' u := by
  unfold sub
  omega

theorem sub_pos (h : u < t) : 0 < sub t u := by
  unfold sub minDuration maxDuration
  omega

/-- Below a duration of the 64-bit type the saturation does not show. -/
theorem sub_lt_iff {d : ℤ} (hle : u ≤ t) (hd : d ≤ maxDuration) : sub t u < d ↔ t-u < d := by
  unfold sub minDuration maxDuration
  unfold maxDuration at hd
  omega

def dayLength : ℤ := 86400000000000

/-- The UTC calendar day, counted from the day of the zero instant. -/
def day (t : ℤ) : ℤ := t / dayLength

def dayStart (t : ℤ) : ℤ := day t * dayLength

theorem dayStart_le (t : ℤ) : dayStart t ≤ t := by
  unfold dayStart day dayLength
  omega

theorem dayStart_eq_of_day_eq (h : day t = day u) : dayStart t = dayStart u := by
  rw [dayStart,dayStart,h]

theorem sub_eq_of_day_eq (hle : u ≤ t) (hd : day u = day t) : sub t u = t-u := by
  unfold sub minDuration maxDuration
  unfold day dayLength at hd
  omega

theorem le_dayStart_of_day_ne (hle : t ≤ u) (hne : day t ≠ day u) : t < dayStart u := by
  unfold dayStart day dayLength at *
  omega

/-- A dated report of a two-valued signal. -/
structure Report where
  time : ℤ
  on : Bool
  deriving DecidableEq

/-- The signal at an instant: what the latest report not after it says, reports
being listed from the newest; off before the first. -/
def onAt (history : List Report) (s : ℤ) : Bool :=
  ((history.find? fun r => r.time ≤ s).map Report.on).getD false

/-- The number of nanoseconds from `a` up to `b` during which the signal is on. -/
noncomputable def onTime (history : List Report) (a b : ℤ) : ℤ :=
  ((Finset.Ico a b).filter fun s => onAt history s = true).card

theorem onAt_cons_of_lt {s : ℤ} (h : s < r.time) : onAt (r::history) s = onAt history s := by
  have hr : ¬ r.time ≤ s := by omega
  simp [onAt,hr]

theorem onAt_cons_of_le {s : ℤ} (h : r.time ≤ s) : onAt (r::history) s = r.on := by
  simp [onAt,h]

theorem onTime_self (history : List Report) (a : ℤ) : onTime history a a = 0 := by
  simp [onTime]

theorem onTime_add (history : List Report) {c : ℤ} (hab : a ≤ b) (hbc : b ≤ c) :
    onTime history a c = onTime history a b + onTime history b c := by
  have hu : Finset.Ico a c = Finset.Ico a b ∪ Finset.Ico b c :=
    (Finset.Ico_union_Ico_eq_Ico hab hbc).symm
  have hd : Disjoint ((Finset.Ico a b).filter fun s => onAt history s = true)
      ((Finset.Ico b c).filter fun s => onAt history s = true) :=
    Finset.disjoint_filter_filter (Finset.Ico_disjoint_Ico_consecutive a b c)
  rw [onTime,hu,Finset.filter_union,Finset.card_union_of_disjoint hd]
  push_cast
  rfl

theorem onTime_cons (h : b ≤ r.time) : onTime (r::history) a b = onTime history a b := by
  have hf : ((Finset.Ico a b).filter fun s => onAt (r::history) s = true) =
      (Finset.Ico a b).filter fun s => onAt history s = true := by
    apply Finset.filter_congr
    intro s hs
    rw [onAt_cons_of_lt (lt_of_lt_of_le (Finset.mem_Ico.mp hs).2 h)]
  rw [onTime,onTime,hf]

theorem onTime_of_on (hab : a ≤ b)
    (h : ∀ s, a ≤ s → s < b → onAt history s = true) : onTime history a b = b-a := by
  have hf : ((Finset.Ico a b).filter fun s => onAt history s = true) = Finset.Ico a b := by
    apply Finset.filter_true_of_mem
    intro s hs
    exact h s (Finset.mem_Ico.mp hs).1 (Finset.mem_Ico.mp hs).2
  rw [onTime,hf,Int.card_Ico]
  omega

theorem onTime_of_off
    (h : ∀ s, a ≤ s → s < b → onAt history s = false) : onTime history a b = 0 := by
  have hf : ((Finset.Ico a b).filter fun s => onAt history s = true) = ∅ := by
    apply Finset.filter_false_of_mem
    intro s hs
    simp [h s (Finset.mem_Ico.mp hs).1 (Finset.mem_Ico.mp hs).2]
  rw [onTime,hf]
  rfl

section Arrivals

/-- Of reports in the order they arrived, newest first, those later than every one before them. -/
def records : List Report → List Report
  | [] => []
  | x::earlier =>
    if ∀ y ∈ earlier, y.time < x.time then x::records earlier else records earlier

theorem records_subset (history : List Report) : records history ⊆ history := by
  induction history with
  | nil => exact List.Subset.refl _
  | cons x earlier ih =>
    unfold records
    split_ifs
    · exact List.cons_subset_cons x ih
    · exact List.subset_cons_of_subset x ih

variable {history : List Report}

theorem le_newest_record {y : Report} (hy : y ∈ history) :
    ∃ x, (records history).head? = some x ∧ y.time ≤ x.time := by
  induction history generalizing y with
  | nil => cases hy
  | cons x earlier ih =>
    unfold records
    split_ifs with hlater
    · refine ⟨x,rfl,?_⟩
      rcases List.mem_cons.mp hy with rfl | hmem
      · exact le_refl _
      · exact (hlater y hmem).le
    · push Not at hlater
      obtain ⟨z,hz,hle⟩ := hlater
      rcases List.mem_cons.mp hy with rfl | hmem
      · obtain ⟨w,hw,hzw⟩ := ih hz
        exact ⟨w,hw,hle.trans hzw⟩
      · exact ih hmem

theorem later_iff_newest {t : ℤ} :
    (∀ y ∈ history, y.time < t) ↔ ∀ x, (records history).head? = some x → x.time < t := by
  constructor
  · intro h x hx
    exact h x (records_subset history (List.mem_of_mem_head? hx))
  · intro h y hy
    obtain ⟨x,hx,hle⟩ := le_newest_record hy
    exact hle.trans_lt (h x hx)

/-- The time of the first report of the unbroken run of reports of one kind that the history,
newest first, ends in. -/
def runStart (on : Bool) (history : List Report) : Option ℤ :=
  (history.takeWhile fun x => x.on = on).getLast?.map Report.time

theorem runStart_cons (on : Bool) (x : Report) (history : List Report) : runStart on (x::history) =
      if x.on = on then some ((runStart on history).getD x.time) else none := by
  unfold runStart
  split_ifs with h
  · rw [List.takeWhile_cons_of_pos (by simpa using h),List.getLast?_cons]
    cases (history.takeWhile fun x => x.on = on).getLast? <;> rfl
  · rw [List.takeWhile_cons_of_neg (by simpa using h)]
    rfl

theorem runStart_mem {on : Bool} {t : ℤ}
    (h : runStart on history = some t) : ∃ x ∈ history, x.time = t := by
  obtain ⟨x,hx,ht⟩ := Option.map_eq_some_iff.mp h
  exact ⟨x,(List.takeWhile_sublist _).subset (List.mem_of_getLast? hx),ht⟩

end Arrivals

end Timeline
end AquaOS
