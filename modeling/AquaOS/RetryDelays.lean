import AquaOS.AcceptedConfig
import AquaOS.StorageWriter

/-! The delays between the attempts of the history writer to store a full batch. The backoff is a
local of the loop that is doubled after every delay and reset by every write that succeeds, be it of
a full batch or for the ticker; that the doubling does not overflow is owed to the bounds which the
configuration puts on it. -/
namespace AquaOS
namespace Storage

open Domain Transition

/-- What the container hands to `New`. -/
def writerConfig (s : Configuration.InfluxDB) : WriterConfig :=
  ⟨s.queueCapacity,s.batchSize,s.flushInterval,s.retryMinimum,s.retryMaximum,s.writeTimeout⟩

/-- The backoff after so many delays. -/
def delay (cfg : WriterConfig) (k : ℕ) : ℤ := min (cfg.retryMinimum*2^k) cfg.retryMaximum

/-- The bounds of a retry in an accepted configuration. -/
structure RetryBounds (cfg : WriterConfig) : Prop where
  minimum_pos : 0 < cfg.retryMinimum
  minimum_le : cfg.retryMinimum ≤ cfg.retryMaximum
  maximum_le : cfg.retryMaximum ≤ 10*Configuration.minute

section Bounds

variable {cfg : WriterConfig}

theorem delay_zero (h : RetryBounds cfg) : delay cfg 0 = cfg.retryMinimum := by
  rw [delay,pow_zero,mul_one,min_eq_left h.minimum_le]

theorem delay_bounds (h : RetryBounds cfg) (k : ℕ) :
    cfg.retryMinimum ≤ delay cfg k ∧ delay cfg k ≤ cfg.retryMaximum := by
  have hgrows : cfg.retryMinimum ≤ cfg.retryMinimum*2^k :=
    le_mul_of_one_le_right h.minimum_pos.le (one_le_pow₀ (by norm_num))
  exact ⟨le_min hgrows h.minimum_le,min_le_right _ _⟩

theorem delay_succ (h : RetryBounds cfg) (k : ℕ) :
    delay cfg (k+1) = min (2*delay cfg k) cfg.retryMaximum := by
  have hmax := h.minimum_pos.trans_le h.minimum_le
  rw [delay,delay,pow_succ,← mul_assoc]
  omega

theorem double_fits (h : RetryBounds cfg) (k : ℕ) :
    (2*delay cfg k).bmod (2^64) = 2*delay cfg k := by
  obtain ⟨hlow,hhigh⟩ := delay_bounds h k
  have hmin := h.minimum_pos
  have hmax := h.maximum_le
  unfold Configuration.minute Configuration.second at hmax
  exact Int.bmod_eq_of_le (by norm_num; omega) (by norm_num; omega)

theorem nextBackoff_delay (h : RetryBounds cfg) (k : ℕ) :
    Writer.nextBackoff cfg (delay cfg k) = delay cfg (k+1) := by
  rw [Writer.nextBackoff,double_fits h,delay_succ h]
  split_ifs with hover
  · rw [min_eq_right hover.le]
  · rw [min_eq_left (not_lt.mp hover)]

end Bounds

/-- The writer with the delays for which its loop has called `wait` since the last write that
succeeded, or since the start. -/
structure Retrying where
  writer : Writer
  delays : List ℤ := []

namespace Retrying

def step (cfg : WriterConfig) (r : Retrying) (l : WriterStep) : Retrying where
  writer := r.writer.step cfg l
  delays :=
    match r.writer.phase, l with
    | .writing _, .answer none => []
    | .writing .full, .answer (some _) => r.delays++[r.writer.backoff]
    | _, _ => r.delays

theorem run_writer (cfg : WriterConfig) (r : Retrying) (steps : List WriterStep) :
    (run (step cfg) r steps).writer = run (Writer.step cfg) r.writer steps := by
  induction steps generalizing r with
  | nil => rfl
  | cons l steps ih => exact ih (r.step cfg l)

/-- Where the loop can still wait, its backoff is the delay to come, or the one that runs. -/
def Level (cfg : WriterConfig) (w : Writer) (count : ℕ) : Prop :=
  match w.phase with
  | .head | .writing .full | .writing .timed => w.backoff = delay cfg count
  | .waiting => ∃ k, count = k+1 ∧ w.backoff = delay cfg k
  | _ => True

structure Paced (cfg : WriterConfig) (r : Retrying) : Prop where
  delays : r.delays = (List.range r.delays.length).map (delay cfg)
  level : Level cfg r.writer r.delays.length

variable {cfg : WriterConfig} {w w' : Writer} {r : Retrying} {n : ℕ}

theorem level_congr (h : Level cfg w n) (hphase : w'.phase = w.phase)
    (hbackoff : w'.backoff = w.backoff) : Level cfg w' n := by
  rw [Level,hphase,hbackoff]
  exact h

theorem level_final (w : Writer) : Level cfg w.final n := by
  unfold Writer.final
  split_ifs <;> trivial

theorem level_call (h : Level cfg w n) (i : ℕ) (p : Point) : Level cfg (w.call i p) n := by
  unfold Writer.call
  split
  · exact level_congr h rfl rfl
  · split_ifs <;> exact level_congr h rfl rfl

theorem level_send (h : Level cfg w n) (i : ℕ) (p : Point) : Level cfg (w.send i p) n := by
  unfold Writer.send
  split <;> exact level_congr h rfl rfl

theorem level_proceed (h : Level cfg w n) : Level cfg (w.proceed cfg) n := by
  unfold Writer.proceed
  cases hphase : w.phase with
  | head =>
    rw [Level,hphase] at h
    dsimp only
    split_ifs
    · exact h
    · rw [Level,hphase]
      exact h
  | draining =>
    dsimp only
    split_ifs
    · cases w.queue.receive with
      | some x => exact level_congr h rfl rfl
      | none => exact level_final w
    · exact level_final w
  | writing occasion => exact h
  | waiting => exact h
  | exited => exact h

/-- A step that neither ends a write nor a delay keeps the level. -/
theorem level_step (h : Level cfg w n) {l : WriterStep} (hanswer : ∀ err, l ≠ .answer err)
    (helapsed : l ≠ .elapsed) : Level cfg (w.step cfg l) n := by
  cases l with
  | call i p =>
    dsimp only [Writer.step]
    split
    · exact level_call h i p
    · exact level_call h i p
    · exact h
  | send i =>
    dsimp only [Writer.step]
    split
    · exact level_send h i _
    · exact h
  | stop | cancel => exact level_congr h rfl rfl
  | proceed => exact level_proceed h
  | done =>
    dsimp only [Writer.step]
    split_ifs
    · trivial
    · exact level_final w
    · exact h
  | receive =>
    dsimp only [Writer.step]
    split
    · exact level_congr h rfl rfl
    · exact h
  | tick =>
    dsimp only [Writer.step]
    split_ifs with hselecting
    · have hphase : w.phase = .head := by
        have hhead := hselecting.1
        simp only [Writer.selecting,decide_eq_true_eq] at hhead
        exact hhead.1
      rw [Level,hphase] at h
      exact h
    · exact h
  | answer err => exact absurd rfl (hanswer err)
  | elapsed => exact absurd rfl helapsed

theorem paced_unanswered (h : r.Paced cfg) {l : WriterStep} (hanswer : ∀ err, l ≠ .answer err)
    (hlevel : Level cfg (r.writer.step cfg l) r.delays.length) : (r.step cfg l).Paced cfg := by
  have hdelays : (r.step cfg l).delays = r.delays := by
    cases l with
    | answer err => exact absurd rfl (hanswer err)
    | _ => cases hphase : r.writer.phase <;> simp [step,hphase]
  exact ⟨by rw [hdelays]; exact h.delays,by rw [hdelays]; exact hlevel⟩

theorem paced_answer (hb : RetryBounds cfg) (h : r.Paced cfg) (err : Option Failure) :
    (r.step cfg (.answer err)).Paced cfg := by
  have hlevel := h.level
  cases hphase : r.writer.phase with
  | writing occasion =>
    have hwriter : (r.step cfg (.answer err)).writer = r.writer.answer cfg occasion err := by
      simp [step,Writer.step,hphase]
    cases err with
    | none =>
      have hdelays : (r.step cfg (.answer none)).delays = [] := by simp [step,hphase]
      refine ⟨by rw [hdelays]; rfl,?_⟩
      rw [hwriter,hdelays]
      cases occasion with
      | full | timed => exact (delay_zero hb).symm
      | final => trivial
    | some failure =>
      rw [Level,hphase] at hlevel
      cases occasion with
      | full =>
        have hdelays : (r.step cfg (.answer (some failure))).delays =
            r.delays++[r.writer.backoff] := by simp [step,hphase]
        refine ⟨?_,?_⟩
        · rw [hdelays,List.length_append,List.length_singleton,List.range_succ,List.map_append,
            ← h.delays,List.map_singleton,hlevel]
        · rw [hwriter,hdelays]
          exact ⟨r.delays.length,by simp,hlevel⟩
      | timed =>
        have hdelays : (r.step cfg (.answer (some failure))).delays = r.delays := by
          simp [step,hphase]
        refine ⟨by rw [hdelays]; exact h.delays,?_⟩
        rw [hwriter,hdelays]
        exact hlevel
      | final =>
        have hdelays : (r.step cfg (.answer (some failure))).delays = r.delays := by
          simp [step,hphase]
        refine ⟨by rw [hdelays]; exact h.delays,?_⟩
        rw [hwriter]
        trivial
  | _ =>
    have hsame : r.step cfg (.answer err) = r := by simp [step,Writer.step,hphase]
    rw [hsame]
    exact h

theorem paced_elapsed (hb : RetryBounds cfg) (h : r.Paced cfg) :
    (r.step cfg .elapsed).Paced cfg := by
  refine paced_unanswered h nofun ?_
  have hlevel := h.level
  dsimp only [Writer.step]
  split_ifs with hphase
  · rw [Level,hphase] at hlevel
    obtain ⟨k,hcount,hbackoff⟩ := hlevel
    change Writer.nextBackoff cfg r.writer.backoff = delay cfg r.delays.length
    rw [hcount,hbackoff,nextBackoff_delay hb]
  · exact hlevel

theorem step_paced (hb : RetryBounds cfg) (r : Retrying) (l : WriterStep) (h : r.Paced cfg) :
    (r.step cfg l).Paced cfg := by
  by_cases hanswer : ∃ err, l = .answer err
  · obtain ⟨err,rfl⟩ := hanswer
    exact paced_answer hb h err
  · by_cases helapsed : l = .elapsed
    · rw [helapsed]
      exact paced_elapsed hb h
    · have hother : ∀ err, l ≠ .answer err := fun err herr => hanswer ⟨err,herr⟩
      exact paced_unanswered h hother (level_step h.level hother helapsed)

theorem start_paced (hb : RetryBounds cfg) (w : Writer) : Paced cfg ⟨w.start cfg,[]⟩ :=
  ⟨rfl,(delay_zero hb).symm⟩

theorem paced_delay (h : r.Paced cfg) {k : ℕ} {d : ℤ} (hd : r.delays[k]? = some d) :
    d = delay cfg k := by
  obtain ⟨hk,_⟩ := List.getElem?_eq_some_iff.mp hd
  rw [h.delays,List.getElem?_map,List.getElem?_range hk] at hd
  exact (Option.some.inj hd).symm

end Retrying

section Accepted

open AquaOS.Configuration (Config Library validateStorage refuse_eq_none benchLibrary)

theorem newWriter_ok (cfg : WriterConfig)
    (hsize : ¬ (cfg.queueCapacity < 1 ∨ 1000000 < cfg.queueCapacity ∨ cfg.batchSize < 1 ∨
      cfg.queueCapacity < cfg.batchSize))
    (htiming : ¬ (cfg.flushInterval ≤ 0 ∨ cfg.retryMinimum ≤ 0 ∨
      cfg.retryMaximum < cfg.retryMinimum ∨ cfg.writeTimeout ≤ 0)) :
    ∃ w, newWriter cfg = .ok w :=
  ⟨_,by rw [newWriter,if_neg hsize,if_neg htiming]⟩

theorem storage_accepted {lib : Library} {c : Config} (h : c.validate lib = none) :
    ∃ w, newWriter (writerConfig c.storage.influxDB) = .ok w ∧
      RetryBounds (writerConfig c.storage.influxDB) := by
  simp only [Config.validate,Option.orElse_eq_none] at h
  obtain ⟨_,_,_,_,_,_,hstorage,_⟩ := h
  simp only [validateStorage,Option.orElse_eq_none,refuse_eq_none] at hstorage
  obtain ⟨hqueue,htiming,_⟩ := hstorage
  push Not at htiming
  obtain ⟨hflush,hpos,hle,hmax,htimeout,_⟩ := htiming
  have hbounds : RetryBounds (writerConfig c.storage.influxDB) := ⟨hpos,hle,hmax⟩
  obtain ⟨w,hw⟩ := newWriter_ok (writerConfig c.storage.influxDB) hqueue (by
    simp only [writerConfig]
    omega)
  exact ⟨w,hw,hbounds⟩

/-- The delays since the last success, counted from 0: each is the minimum doubled so many times, but
at most the maximum; its double is a duration of 64 bits, and the first one is the minimum. -/
theorem delays_doubled (lib : Library) (c : Config) (h : c.validate lib = none) :
    let s := c.storage.influxDB
    let cfg := writerConfig s
    ∃ w, newWriter cfg = .ok w ∧ ∀ steps : List WriterStep,
      let r := run (Retrying.step cfg) ⟨w.start cfg,[]⟩ steps
      r.writer = run (Writer.step cfg) (w.start cfg) steps ∧
      (∀ k d, r.delays[k]? = some d →
        d = min (s.retryMinimum*2^k) s.retryMaximum ∧ s.retryMinimum ≤ d ∧ d ≤ s.retryMaximum ∧
          (2*d).bmod (2^64) = 2*d) ∧
      ∀ d, r.delays.head? = some d → d = s.retryMinimum := by
  intro s cfg
  obtain ⟨w,hw,hb⟩ := storage_accepted h
  refine ⟨w,hw,fun steps => ?_⟩
  intro r
  have hr : r.Paced cfg := invariant_always (I := Retrying.Paced cfg) (Retrying.step_paced hb)
    (Retrying.start_paced hb w) steps
  refine ⟨Retrying.run_writer cfg _ steps,fun k d hd => ?_,fun d hd => ?_⟩
  · obtain rfl := Retrying.paced_delay hr hd
    obtain ⟨hlow,hhigh⟩ := delay_bounds hb k
    exact ⟨rfl,hlow,hhigh,double_fits hb k⟩
  · rw [List.head?_eq_getElem?] at hd
    rw [Retrying.paced_delay hr hd,delay_zero hb]
    rfl

def retryConfig : Config :=
  { simulator := ⟨true⟩
    storage := ⟨{ batchSize := 1, retryMinimum := 1000000000, retryMaximum := 3000000000 }⟩ }

def retryRun : List WriterStep :=
  let failed : List WriterStep := [.proceed,.answer (some (.external "refused")),.elapsed]
  [.call 0 Writer.samplePoint,.call 1 Writer.samplePoint,.send 0,.send 1,.receive]++failed++failed++
    failed++[.proceed,.answer none,.receive]++failed

theorem retryRun_delays :
    let cfg := writerConfig retryConfig.storage.influxDB
    retryConfig.validate benchLibrary = none ∧
      ∃ w, newWriter cfg = .ok w ∧
        let run steps := run (Retrying.step cfg) ⟨w.start cfg,[]⟩ steps
        (run (retryRun.take 14)).delays = [1000000000,2000000000,3000000000] ∧
        (∀ k (d : ℤ), (run (retryRun.take 14)).delays[k]? = some d →
          d = min (1000000000*2^k) 3000000000) ∧
        (run retryRun).delays = [1000000000] := by
  intro cfg
  have hvalid : retryConfig.validate benchLibrary = none := by decide
  obtain ⟨w,hw,hdelays⟩ := delays_doubled benchLibrary retryConfig hvalid
  refine ⟨hvalid,w,hw,?_,fun k d hd => ((hdelays _).2.1 k d hd).1,?_⟩
  · obtain rfl : _ = w := Except.ok.inj hw
    decide
  · obtain rfl : _ = w := Except.ok.inj hw
    decide

end Accepted
end Storage
end AquaOS
