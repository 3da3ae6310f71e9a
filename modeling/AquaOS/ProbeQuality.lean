import AquaOS.NodeSnapshot

/-! The one condition of a snapshot and the qualities of its two measurements. Condition and quality
are overwritten check by check, and an invalid probe takes its own quality in the end; the
comparison of two temperatures may be any. -/
namespace AquaOS
namespace ESP32

open Domain

def Adapter.judgeSnapshot (differ : Float64 → Float64 → Bool) (a : Adapter) (e : Endpoint)
    (x : SnapshotDTO) (now : ℤ) : Except Refusal (List Measurement × String) × Adapter :=
  a.accept e x (e.measured differ x now)

section Verdicts

variable {differ : Float64 → Float64 → Bool} {e : Endpoint} {x : SnapshotDTO} {now : ℤ}
  {first second value : Option Float64} {t : Table SensorID ProbeDTO} {ps : List ProbeDTO}
  {id : SensorID} {quality : Quality}

/-- No condition is left exactly where both probes were read and nothing lowered the quality. -/
theorem condition_empty_iff :
    (e.verdict differ x now first second).condition = "" ↔
      (e.verdict differ x now first second).quality = .good ∧ first ≠ none ∧ second ≠ none := by
  unfold Endpoint.verdict Verdict.age
  by_cases hstale : now < x.observedAt+e.freshFor
  · rw [if_neg (not_not.mpr hstale)]
    cases first <;> cases second <;> simp [Verdict.read,Verdict.compare]
    split_ifs <;> simp
  · rw [if_pos hstale]
    simp

theorem lookup_probesByID {t t' : Table SensorID ProbeDTO}
    (h : probesByID t ps = .ok t') {p : ProbeDTO} (hp : t'.lookup id = some p) :
    t.lookup id = some p ∨ p ∈ ps ∧ p.sensorID = id := by
  induction ps generalizing t with
  | nil =>
    cases h
    exact .inl hp
  | cons q ps ih =>
    unfold probesByID at h
    split_ifs at h
    rcases ih h with hold | ⟨hmem,hid⟩
    · rw [Table.lookup_insert_ite] at hold
      split_ifs at hold with hq
      · obtain rfl := Option.some.inj hold
        exact .inr ⟨List.mem_cons_self,hq.symm⟩
      · exact .inl hold
    · exact .inr ⟨List.mem_cons_of_mem _ hmem,hid⟩

theorem temperature_none (h : probesByID ∅ ps = .ok t)
    (hinvalid : ∀ p ∈ ps, p.sensorID = id → p.valid = false) : temperature t id = none := by
  unfold temperature
  cases hp : t.lookup id with
  | none => rfl
  | some p =>
    rcases lookup_probesByID h hp with hold | ⟨hmem,hid⟩
    · simp at hold
    · cases hcelsius : p.celsius <;> simp [hcelsius,hinvalid p hmem hid]

theorem quality_good_iff :
    (if value = none then Quality.invalid else quality) = .good ↔
      quality = .good ∧ value ≠ none := by
  cases value <;> simp

/-- An accepted snapshot gives a measurement of each configured probe, a condition exactly where
one of the two is not good, and nothing but an invalid measurement of a probe that it does not
have or does not call valid. -/
theorem snapshot_condition_quality (differ : Float64 → Float64 → Bool) (a : Adapter) (e : Endpoint)
    (x : SnapshotDTO) (now : ℤ) (ms : List Measurement) (condition : String)
    (h : (a.judgeSnapshot differ e x now).1 = .ok (ms,condition)) :
    ms.map Measurement.sensorID = [e.probeIDs.1,e.probeIDs.2] ∧
      (condition = "" ↔ ∀ m ∈ ms, m.quality = .known .good) ∧
      ∀ m ∈ ms, (∀ p ∈ x.probes, p.sensorID = m.sensorID → p.valid = false) →
        m.quality = .known .invalid := by
  obtain ⟨-,t,m,m',hprobes,rfl,rfl,hm,hm'⟩ := measured_ok (accept_ok h)
  obtain ⟨hid,-,hquality,-⟩ := measurement_ok hm
  obtain ⟨hid',-,hquality',-⟩ := measurement_ok hm'
  refine ⟨by simp [hid,hid'],?_,?_⟩
  · rw [condition_empty_iff]
    simp only [List.forall_mem_cons,List.not_mem_nil,hquality,hquality',
      CanonicalState.StateQuality.known.injEq,quality_good_iff]
    tauto
  · simp only [List.forall_mem_cons,hid,hid',hquality,hquality']
    refine ⟨fun hinvalid => ?_,fun hinvalid => ?_,by simp⟩
    · rw [temperature_none hprobes hinvalid,if_pos rfl]
    · rw [temperature_none hprobes hinvalid,if_pos rfl]

end Verdicts

def faultySnapshot : SnapshotDTO :=
  { tankSnapshot "boot-a" 1 (80*Configuration.second) with
    probes := [⟨tankNode.probeIDs.1,some 25,false⟩,tankProbe tankNode.probeIDs.2] }

def faultyMeasurements : List Measurement :=
  [{ tankMeasurement tankNode.probeIDs.1 (80*Configuration.second) (100*Configuration.second) with
      value := ⟨.temperature,0,.celsius⟩, quality := .known .invalid },
    { tankMeasurement tankNode.probeIDs.2 (80*Configuration.second) (100*Configuration.second) with
      quality := .known .stale }]

theorem faultySnapshot_qualities :
    validateEndpoint nodeURL tankNode = none ∧
      (Adapter.validateSnapshot {} tankNode faultySnapshot (100*Configuration.second)).1 =
        .ok (faultyMeasurements,"esp32.snapshot_stale") ∧
      faultyMeasurements.map Measurement.sensorID = [tankNode.probeIDs.1,tankNode.probeIDs.2] ∧
      ("esp32.snapshot_stale" = "" ↔ ∀ m ∈ faultyMeasurements, m.quality = .known .good) ∧
      ∀ m ∈ faultyMeasurements,
        (∀ p ∈ faultySnapshot.probes, p.sensorID = m.sensorID → p.valid = false) →
          m.quality = .known .invalid := by
  have hok : (Adapter.validateSnapshot {} tankNode faultySnapshot (100*Configuration.second)).1 =
      .ok (faultyMeasurements,"esp32.snapshot_stale") := by decide +kernel
  refine ⟨by decide +kernel,hok,?_⟩
  exact snapshot_condition_quality tankNode.differ {} tankNode faultySnapshot
    (100*Configuration.second) faultyMeasurements "esp32.snapshot_stale" hok

end ESP32
end AquaOS
