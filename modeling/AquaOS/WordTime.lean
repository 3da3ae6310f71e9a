import AquaOS.Timeline

/-! Instants of a clock whose seconds are words of 64 bits, and durations in such words. Sums of
durations wrap around; a sum of an instant and a duration stays at the last second that there is. -/
namespace AquaOS
namespace WordTime

def second : ℤ := 1000000000

section Words

theorem toInt_add_of_fits {a b : Int64} (hlow : -2^63 ≤ a.toInt+b.toInt)
    (hhigh : a.toInt+b.toInt < 2^63) : (a+b).toInt = a.toInt+b.toInt := by
  rw [Int64.toInt_add]
  exact Int.bmod_eq_of_le (by norm_num; omega) (by norm_num; omega)

theorem toInt_add_of_over {a b : Int64} (hover : 2^63 ≤ a.toInt+b.toInt) : (a+b).toInt < 0 := by
  have ha := a.toInt_lt
  have hb := b.toInt_lt
  have hwrap : (a.toInt+b.toInt-2^64).bmod (2^64) = a.toInt+b.toInt-2^64 :=
    Int.bmod_eq_of_le (by norm_num; omega) (by norm_num; omega)
  have hshift : (a.toInt+b.toInt-2^64).bmod (2^64) = (a.toInt+b.toInt).bmod (2^64) := by
    have := Int.sub_bmod_right (a.toInt+b.toInt) (2^64)
    exact_mod_cast this
  rw [Int64.toInt_add,← hshift,hwrap]
  omega

theorem toInt_mul_of_fits {a b : Int64} (hlow : -2^63 ≤ a.toInt*b.toInt)
    (hhigh : a.toInt*b.toInt < 2^63) : (a*b).toInt = a.toInt*b.toInt := by
  rw [Int64.toInt_mul]
  exact Int.bmod_eq_of_le (by norm_num; omega) (by norm_num; omega)

end Words

/-- The seconds of an instant in nanoseconds are a word. -/
def Fits (instant : ℤ) : Prop := -2^63*second ≤ instant ∧ instant < 2^63*second

structure Time where
  instant : ℤ
  fits : Fits instant
  deriving DecidableEq

namespace Time

theorem fits_word (w : Int64) : Fits w.toInt := by
  have hlow := w.le_toInt
  have hhigh := w.toInt_lt
  unfold Fits second
  omega

theorem fits_last (sum : ℤ) : Fits ((2^63-1)*second+sum%second) := by
  unfold Fits second
  omega

theorem fits_first (sum : ℤ) : Fits (-(2^63-1)*second+sum%second) := by
  unfold Fits second
  omega

theorem fits_between {sum : ℤ} (hhigh : ¬ 2^63*second ≤ sum) (hlow : ¬ sum < -2^63*second) :
    Fits sum :=
  ⟨not_lt.mp hlow,not_le.mp hhigh⟩

/-- So many nanoseconds after the zero instant. -/
def ofWord (w : Int64) : Time := ⟨w.toInt,fits_word w⟩

def zero : Time := ofWord 0

def isZero (t : Time) : Bool := t.instant = 0

def before (t u : Time) : Bool := t.instant < u.instant

/-- The nanoseconds of the sum are kept where its seconds are not. -/
def add (t : Time) (d : Int64) : Time :=
  let sum := t.instant+d.toInt
  if hhigh : 2^63*second ≤ sum then ⟨(2^63-1)*second+sum%second,fits_last sum⟩
  else if hlow : sum < -2^63*second then ⟨-(2^63-1)*second+sum%second,fits_first sum⟩
  else ⟨sum,fits_between hhigh hlow⟩

/-- The difference, which stays at the longest duration. -/
def sub (t u : Time) : Int64 := Int64.ofInt (Timeline.sub t.instant u.instant)

variable {t : Time} {d : Int64}

/-- A sum with a nonnegative duration is exact just where its seconds are a word. -/
theorem add_exact_iff (hd : 0 ≤ d.toInt) :
    (t.add d).instant = t.instant+d.toInt ↔ t.instant+d.toInt < 2^63*second := by
  have hlow := t.fits.1
  unfold add
  dsimp only
  split_ifs with hhigh hbelow
  · unfold second at hhigh ⊢
    dsimp only
    omega
  · omega
  · exact ⟨fun _ => by omega,fun _ => rfl⟩

end Time

end WordTime
end AquaOS
