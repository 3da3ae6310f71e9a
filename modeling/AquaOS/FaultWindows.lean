import AquaOS.SimulatorRun

/-! When the faults of a scenario are active, and when its steps take place. Validation bounds where a
fault begins and not how long it lasts, so that the end of its window can wrap around; it bounds the
steps and their length, but not the start, at which a clock of 64 bits may be near its end. -/
namespace AquaOS
namespace Simulator

open Domain WordTime

variable {F R : Type}

/-- The window of a fault in unbounded integers. -/
def Fault.Within (fault : Fault F) (step : ℤ) : Prop :=
  fault.begins.toInt ≤ step ∧
    (fault.duration.toInt = 0 ∨ step-fault.begins.toInt < fault.duration.toInt)

section Window

variable {fault : Fault F} {step : Int64} {s : Scenario F}

theorem activeAt_iff : fault.activeAt step = true ↔ fault.begins.toInt ≤ step.toInt ∧
    (fault.duration.toInt = 0 ∨ step.toInt < (fault.begins+fault.duration).toInt) := by
  have hzero : fault.duration = 0 ↔ fault.duration.toInt = 0 := by
    rw [← Int64.toInt_inj]
    rfl
  simp only [Fault.activeAt,Bool.and_eq_true,Bool.or_eq_true,decide_eq_true_eq,beq_iff_eq,
    ge_iff_le,Int64.le_iff_toInt_le,Int64.lt_iff_toInt_lt,hzero]

theorem activeAt_of_fits (hbegins : 0 ≤ fault.begins.toInt) (hduration : 0 ≤ fault.duration.toInt)
    (hfits : fault.begins.toInt+fault.duration.toInt < 2^63) :
    fault.activeAt step = true ↔ fault.Within step.toInt := by
  rw [activeAt_iff,Fault.Within,toInt_add_of_fits (by omega) hfits]
  omega

theorem activeAt_of_over (hbegins : 0 ≤ fault.begins.toInt)
    (hover : 2^63 ≤ fault.begins.toInt+fault.duration.toInt) : fault.activeAt step = false := by
  have hend := toInt_add_of_over hover
  have hlast := fault.begins.toInt_lt
  rw [← Bool.not_eq_true,activeAt_iff]
  omega

theorem mem_activeFaults (hfault : fault ∈ s.faults) :
    fault ∈ s.activeFaults step ↔ fault.activeAt step = true := by
  simp [Scenario.activeFaults,hfault]

/-- The window holds at every step of the scenario just where its end fits. -/
theorem window_iff (hs : s.Bounded) (hfault : fault ∈ s.faults) :
    (∀ step : Int64, 0 ≤ step.toInt → step.toInt < s.steps.toInt →
      (fault ∈ s.activeFaults step ↔ fault.Within step.toInt)) ↔
      fault.begins.toInt+fault.duration.toInt < 2^63 := by
  obtain ⟨hbegins,hinside,hduration⟩ := hs.faults fault hfault
  constructor
  · intro h
    by_contra hover
    rw [not_lt] at hover
    have hfirst := h fault.begins hbegins hinside
    rw [mem_activeFaults hfault,activeAt_of_over hbegins hover] at hfirst
    have hlast := fault.begins.toInt_lt
    have hwithin : fault.Within fault.begins.toInt := ⟨le_rfl,by omega⟩
    exact Bool.false_ne_true (hfirst.mpr hwithin)
  · intro hfits step _ _
    rw [mem_activeFaults hfault,activeAt_of_fits hbegins hduration hfits]

end Window

section Timestamps

variable {s : Scenario F} {step : Int64}

theorem offset_fits (hs : s.Bounded) (hpos : 0 ≤ step.toInt) (hlt : step.toInt < s.steps.toInt) :
    (step*s.step).toInt = step.toInt*s.step.toInt ∧ 0 ≤ step.toInt*s.step.toInt := by
  have hstep := hs.step_pos
  have hsteps := hs.steps_le
  have hnonneg : 0 ≤ step.toInt*s.step.toInt := mul_nonneg hpos hstep.le
  have hbound : step.toInt*s.step.toInt ≤ 100000*3600000000000 :=
    mul_le_mul (by omega) hs.step_le hstep.le (by norm_num)
  exact ⟨toInt_mul_of_fits (by omega) (by omega),hnonneg⟩

theorem timestamp_iff (hs : s.Bounded) (hpos : 0 ≤ step.toInt) (hlt : step.toInt < s.steps.toInt) :
    (s.start.add (step*s.step)).instant = s.start.instant+step.toInt*s.step.toInt ↔
      s.start.instant+step.toInt*s.step.toInt < 2^63*second := by
  obtain ⟨hoffset,hnonneg⟩ := offset_fits hs hpos hlt
  rw [← hoffset]
  exact Time.add_exact_iff (by omega)

/-- All timestamps are exact just where the last one is. -/
theorem timestamps_iff [Amount F] {gen : Generator F R} (h : s.validate = none) {result : Result F}
    (hrun : run gen s = .ok result) : (∀ (i : ℕ) (t : Trace F), result.traces[i]? = some t →
      t.timestamp.instant = s.start.instant+i*s.step.toInt) ↔
      s.start.instant+(s.steps.toInt-1)*s.step.toInt < 2^63*second := by
  have hs := validate_bounded h
  have hone := hs.steps_pos
  have hmany := hs.steps_le
  constructor
  · intro hexact
    have hlength : result.traces.length = s.steps.toInt.toNat := by
      obtain rfl := Except.ok.inj ((run_ok h).symm.trans hrun)
      exact length_loop _ _ _
    obtain ⟨t,ht⟩ : ∃ t, result.traces[s.steps.toInt.toNat-1]? = some t :=
      ⟨_,List.getElem?_eq_getElem (by omega)⟩
    obtain ⟨hlt,hindex,r,rfl,_⟩ := run_trace h hrun ht
    have hlast : ((s.steps.toInt.toNat-1 : ℕ) : ℤ) = s.steps.toInt-1 := by omega
    have hinstant := hexact _ _ ht
    rw [← hindex] at hinstant
    have hfits := (timestamp_iff hs (by omega) (by omega)).mp hinstant
    rwa [hindex,hlast] at hfits
  · intro hfits i t ht
    obtain ⟨hlt,hindex,r,rfl,_⟩ := run_trace h hrun ht
    have hmono : (i : ℤ)*s.step.toInt ≤ (s.steps.toInt-1)*s.step.toInt :=
      mul_le_mul_of_nonneg_right (by omega) hs.step_pos.le
    have hpos : 0 ≤ (Int64.ofNat i).toInt := by omega
    have hexact := (timestamp_iff hs hpos (by omega)).mpr (by rw [hindex]; omega)
    rw [hindex] at hexact
    exact hexact

end Timestamps

/-- At every step of an accepted scenario the offset from the start is exact. The faults are active
in their windows and the timestamps are exact just where the end of every window and the last
timestamp fit. -/
theorem schedule_exact_iff [Amount F] (gen : Generator F R) (s : Scenario F) (h : s.validate = none) :
    ∃ result : Result F, run gen s = .ok result ∧
      (∀ step : Int64, 0 ≤ step.toInt → step.toInt < s.steps.toInt →
        (step*s.step).toInt = step.toInt*s.step.toInt) ∧
      (((∀ fault ∈ s.faults, ∀ step : Int64, 0 ≤ step.toInt → step.toInt < s.steps.toInt →
          (fault ∈ s.activeFaults step ↔ fault.Within step.toInt)) ∧
        (∀ (i : ℕ) (t : Trace F), result.traces[i]? = some t →
          t.timestamp.instant = s.start.instant+i*s.step.toInt)) ↔
        (∀ fault ∈ s.faults, fault.begins.toInt+fault.duration.toInt < 2^63) ∧
          s.start.instant+(s.steps.toInt-1)*s.step.toInt < 2^63*second) := by
  have hs := validate_bounded h
  refine ⟨_,run_ok h,fun step hpos hlt => (offset_fits hs hpos hlt).1,?_⟩
  rw [timestamps_iff h (run_ok h)]
  refine and_congr_left' ?_
  exact forall₂_congr fun fault hfault => window_iff hs hfault

theorem leakScenario_timestamps :
    leakScenario.validate = none ∧
      ∃ result : Result Whole, run stillGenerator leakScenario = .ok result ∧
        ∀ (i : ℕ) (t : Trace Whole), result.traces[i]? = some t →
          t.timestamp.instant = 1+i*3600000000000 := by
  have hvalid : leakScenario.validate = none := by decide
  obtain ⟨result,hrun,_,hiff⟩ := schedule_exact_iff stillGenerator leakScenario hvalid
  exact ⟨hvalid,result,hrun,(hiff.mpr (by decide)).2⟩

def longLeak : Fault Whole := ⟨1,Int64.maxValue,.leak,⟨0⟩⟩

def longScenario : Scenario Whole := { leakScenario with faults := [longLeak] }

/-- The leak is never active, and the pumps run on. -/
theorem longScenario_never_leaks :
    longScenario.validate = none ∧ longLeak ∈ longScenario.faults ∧ longLeak.Within 1 ∧
      longLeak ∉ longScenario.activeFaults 1 ∧
      ∃ result : Result Whole, run stillGenerator longScenario = .ok result ∧
        result.traces.map Trace.leak = [false,false,false] := by
  have hvalid : longScenario.validate = none := by decide
  have hmem : longLeak ∈ longScenario.faults := List.mem_singleton_self _
  have hwithin : longLeak.Within 1 := ⟨by decide,by decide⟩
  refine ⟨hvalid,hmem,hwithin,?_,_,run_ok hvalid,by decide⟩
  rw [mem_activeFaults hmem]
  decide

end Simulator
end AquaOS
