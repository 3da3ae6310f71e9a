import AquaOS.Channel
import AquaOS.HistoryPoint
import AquaOS.Transition

/-! The history writer. Callers put points into a bounded queue without waiting, and one loop moves
them into a batch that it writes when it is full, when the ticker fires and once more at the end. A
batch that could not be written is kept and tried again. -/
namespace AquaOS
namespace Storage

open Domain Transition

structure WriterConfig where
  queueCapacity : ℤ
  batchSize : ℤ
  flushInterval : ℤ
  retryMinimum : ℤ
  retryMaximum : ℤ
  writeTimeout : ℤ

def errWriterStopped : Failure := .message "storage writer is stopped"
def errStorageFull : Failure := .message "storage queue is full; newest point dropped"

/-- What keeps a point out of the queue. -/
inductive EnqueueError
  | invalid (err : PointError)
  | refused (err : Failure)
  deriving DecidableEq

/-- A thread that calls `Enqueue`: a valid point is sent after the writer was found running. -/
inductive EnqueueCall
  | idle
  | sending (p : Point)
  | returned (err : Option EnqueueError)

/-- Why a batch is written. -/
inductive Occasion
  | full | timed | final
  deriving DecidableEq

/-- Where the loop is: at its head, inside `Write` of the client, waiting to try again, taking what is
queued after the cancellation, or gone. -/
inductive Phase
  | head
  | writing (occasion : Occasion)
  | waiting
  | draining
  | exited
  deriving DecidableEq

/-- The writer with its loop. The batch is that of the points taken and not yet written. The points
accepted and the writes with their errors are those since the loop was started. -/
structure Writer where
  queue : Channel Point
  running : Bool := false
  cancelled : Bool := false
  phase : Phase := .head
  batch : List Point := []
  backoff : ℤ := 0
  lastErr : Option Failure := none
  enqueued : ℕ := 0
  written : ℕ := 0
  dropped : ℕ := 0
  retries : ℕ := 0
  failures : ℕ := 0
  callers : ℕ → EnqueueCall := fun _ => .idle
  accepted : List Point := []
  writes : List (List Point × Option Failure) := []

def newWriter (cfg : WriterConfig) : Except Failure Writer :=
  if cfg.queueCapacity < 1 ∨ 1000000 < cfg.queueCapacity ∨ cfg.batchSize < 1 ∨
      cfg.queueCapacity < cfg.batchSize then
    .error (.message "storage queue and batch bounds are invalid")
  else if cfg.flushInterval ≤ 0 ∨ cfg.retryMinimum ≤ 0 ∨ cfg.retryMaximum < cfg.retryMinimum ∨
      cfg.writeTimeout ≤ 0 then
    .error (.message "storage timing bounds are invalid")
  else .ok { queue := .make Point cfg.queueCapacity.toNat }

/-- What happens at a writer that was started: calls of `Enqueue` in their two steps, the end of the
context by `Stop` or from outside, and the steps of the loop. A `select` takes any of its cases that
is ready; the answer of a write is that of the client. -/
inductive WriterStep
  | call (i : ℕ) (p : Point)
  | send (i : ℕ)
  | stop
  | cancel
  | proceed
  | done
  | receive
  | tick
  | answer (err : Option Failure)
  | elapsed

namespace Writer

/-- `Start` of a writer that is not running. -/
def start (cfg : WriterConfig) (w : Writer) : Writer :=
  { w with running := true, phase := .head, batch := [], backoff := cfg.retryMinimum }

def setCaller (w : Writer) (i : ℕ) (c : EnqueueCall) : Writer :=
  { w with callers := Function.update w.callers i c }

/-- `Enqueue` up to the question whether the writer is running. -/
def call (w : Writer) (i : ℕ) (p : Point) : Writer :=
  match validatePoint p with
  | some err => w.setCaller i (.returned (some (.invalid err)))
  | none =>
    if w.running then w.setCaller i (.sending p)
    else w.setCaller i (.returned (some (.refused errWriterStopped)))

/-- The `select` of `Enqueue`. -/
def send (w : Writer) (i : ℕ) (p : Point) : Writer :=
  match w.queue.send p with
  | some queue =>
    { w.setCaller i (.returned none) with
      queue := queue, enqueued := (w.enqueued+1) % 2^64, accepted := w.accepted++[p] }
  | none =>
    { w.setCaller i (.returned (some (.refused errStorageFull))) with
      dropped := (w.dropped+1) % 2^64 }

def final (w : Writer) : Writer :=
  if w.batch = [] then { w with phase := .exited } else { w with phase := .writing .final }

def take (w : Writer) (p : Point) (queue : Channel Point) : Writer :=
  { w with queue := queue, batch := w.batch++[p] }

/-- The head of the loop with a full batch, and the loop that drains the queue. -/
def proceed (cfg : WriterConfig) (w : Writer) : Writer :=
  match w.phase with
  | .head => if w.batch.length = cfg.batchSize then { w with phase := .writing .full } else w
  | .draining =>
    if w.batch.length < cfg.batchSize then
      match w.queue.receive with
      | some (p,queue) => w.take p queue
      | none => w.final
    else w.final
  | _ => w

def record (w : Writer) (err : Option Failure) : Writer :=
  match err with
  | some _ =>
    { w with
      lastErr := err, failures := (w.failures+1) % 2^64, writes := w.writes++[(w.batch,err)] }
  | none =>
    { w with
      lastErr := none, written := (w.written+w.batch.length) % 2^64
      writes := w.writes++[(w.batch,none)], batch := [] }

def answer (cfg : WriterConfig) (w : Writer) (occasion : Occasion) (err : Option Failure) : Writer :=
  match occasion, err with
  | .full, none | .timed, none =>
    { w.record err with phase := .head, backoff := cfg.retryMinimum }
  | .full, some _ => { w.record err with phase := .waiting }
  | .timed, some _ => { w.record err with phase := .head, retries := (w.retries+1) % 2^64 }
  | .final, _ => { w.record err with phase := .exited }

/-- The next backoff, a duration of 64 bits. -/
def nextBackoff (cfg : WriterConfig) (backoff : ℤ) : ℤ :=
  if cfg.retryMaximum < (2*backoff).bmod (2^64) then cfg.retryMaximum else (2*backoff).bmod (2^64)

def selecting (cfg : WriterConfig) (w : Writer) : Bool :=
  w.phase = .head ∧ (w.batch.length : ℤ) ≠ cfg.batchSize

def step (cfg : WriterConfig) (w : Writer) : WriterStep → Writer
  | .call i p =>
    match w.callers i with
    | .idle | .returned _ => w.call i p
    | .sending _ => w
  | .send i =>
    match w.callers i with
    | .sending p => w.send i p
    | _ => w
  | .stop => { w with running := false, cancelled := true }
  | .cancel => { w with cancelled := true }
  | .proceed => w.proceed cfg
  | .done =>
    if w.cancelled ∧ w.selecting cfg then { w with phase := .draining }
    else if w.cancelled ∧ w.phase = .waiting then w.final
    else w
  | .receive =>
    match w.selecting cfg, w.queue.receive with
    | true, some (p,queue) => w.take p queue
    | _, _ => w
  | .tick =>
    if w.selecting cfg ∧ w.batch ≠ [] then { w with phase := .writing .timed } else w
  | .answer err =>
    match w.phase with
    | .writing occasion => w.answer cfg occasion err
    | _ => w
  | .elapsed =>
    if w.phase = .waiting then
      { w with
        phase := .head, retries := (w.retries+1) % 2^64, backoff := nextBackoff cfg w.backoff }
    else w

def stored (w : Writer) : List Point :=
  (w.writes.filter fun x => x.2.isNone).flatMap Prod.fst

/-- Points are sent that were sent before or have just been found valid. -/
def Validates (w w' : Writer) : Prop :=
  ∀ i p, w'.callers i = .sending p → w.callers i = .sending p ∨ validatePoint p = none

inductive Moves (cfg : WriterConfig) (w : Writer) : Writer → Prop
  | quiet (w' : Writer) (hqueue : w'.queue = w.queue) (hbatch : w'.batch = w.batch)
      (haccepted : w'.accepted = w.accepted) (hwrites : w'.writes = w.writes)
      (hwritten : w'.written = w.written)
      (hexit : w'.phase = .exited → w.phase = .exited ∨ w.batch = []) (hcallers : w.Validates w') :
      Moves cfg w w'
  | sent (w' : Writer) (i : ℕ) (p : Point) (hsending : w.callers i = .sending p)
      (hcallers : w.Validates w') (hqueue : w.queue.send p = some w'.queue)
      (hbatch : w'.batch = w.batch) (haccepted : w'.accepted = w.accepted++[p])
      (hwrites : w'.writes = w.writes) (hwritten : w'.written = w.written)
      (hphase : w'.phase = w.phase) : Moves cfg w w'
  | taken (p : Point) (queue : Channel Point) (hqueue : w.queue.receive = some (p,queue))
      (hphase : w.phase ≠ .exited) (hroom : (w.batch.length : ℤ) ≠ cfg.batchSize) :
      Moves cfg w (w.take p queue)
  | answered (w' : Writer) (err : Option Failure) (hqueue : w'.queue = w.queue)
      (hbatch : w'.batch = (w.record err).batch) (haccepted : w'.accepted = w.accepted)
      (hwrites : w'.writes = (w.record err).writes)
      (hwritten : w'.written = (w.record err).written) (hcallers : w'.callers = w.callers) :
      Moves cfg w w'

section Steps

variable {cfg : WriterConfig} {w w' : Writer}

theorem validates_refl (w : Writer) : w.Validates w := fun _ _ => Or.inl

theorem validates_caller (w : Writer) (i : ℕ) {c : EnqueueCall}
    (hc : ∀ p, c = .sending p → validatePoint p = none) : w.Validates (w.setCaller i c) := by
  intro j p hj
  simp only [setCaller,Function.update_apply] at hj
  split_ifs at hj
  · exact .inr (hc p hj)
  · exact .inl hj

theorem moves_same (w : Writer) : Moves cfg w w :=
  .quiet w rfl rfl rfl rfl rfl Or.inl (validates_refl w)

theorem moves_caller (w : Writer) (i : ℕ) {c : EnqueueCall}
    (hc : ∀ p, c = .sending p → validatePoint p = none) : Moves cfg w (w.setCaller i c) :=
  .quiet _ rfl rfl rfl rfl rfl Or.inl (validates_caller w i hc)

theorem moves_final (w : Writer) : Moves cfg w w.final := by
  unfold final
  split_ifs with h
  · exact .quiet _ rfl rfl rfl rfl rfl (fun _ => .inr h) (validates_refl w)
  · exact .quiet _ rfl rfl rfl rfl rfl nofun (validates_refl w)

theorem moves_send {i : ℕ} {p : Point} (hsending : w.callers i = .sending p) :
    Moves cfg w (w.send i p) := by
  unfold send
  cases hsend : w.queue.send p with
  | some queue =>
    exact .sent _ i p hsending (validates_caller w i nofun) hsend rfl rfl rfl rfl rfl
  | none => exact .quiet _ rfl rfl rfl rfl rfl Or.inl (validates_caller w i nofun)

theorem moves_proceed (cfg : WriterConfig) (w : Writer) : Moves cfg w (w.proceed cfg) := by
  unfold proceed
  cases hphase : w.phase with
  | head =>
    dsimp only
    split_ifs
    · exact .quiet _ rfl rfl rfl rfl rfl nofun (validates_refl w)
    · exact moves_same w
  | draining =>
    dsimp only
    split_ifs with hroom
    · cases hreceive : w.queue.receive with
      | some x => exact .taken x.1 x.2 hreceive (by simp [hphase]) hroom.ne
      | none => exact moves_final w
    · exact moves_final w
  | writing occasion => exact moves_same w
  | waiting => exact moves_same w
  | exited => exact moves_same w

theorem moves_answer (cfg : WriterConfig) (w : Writer) (occasion : Occasion)
    (err : Option Failure) : Moves cfg w (w.answer cfg occasion err) := by
  obtain ⟨hqueue,haccepted,hcallers⟩ : (w.record err).queue = w.queue ∧
      (w.record err).accepted = w.accepted ∧ (w.record err).callers = w.callers := by
    cases err <;> exact ⟨rfl,rfl,rfl⟩
  cases occasion <;> cases err <;> exact .answered _ _ hqueue rfl haccepted rfl rfl hcallers

theorem step_moves (cfg : WriterConfig) (w : Writer) (l : WriterStep) : Moves cfg w (w.step cfg l) := by
  cases l with
  | call i p =>
    have hcall : Moves cfg w (w.call i p) := by
      unfold call
      cases hp : validatePoint p with
      | some err => exact moves_caller w i nofun
      | none =>
        dsimp only
        split_ifs
        · exact moves_caller w i fun p' hp' => EnqueueCall.sending.inj hp' ▸ hp
        · exact moves_caller w i nofun
    dsimp only [step]
    cases w.callers i with
    | idle => exact hcall
    | sending p' => exact moves_same w
    | returned err => exact hcall
  | send i =>
    dsimp only [step]
    cases hcaller : w.callers i with
    | idle => exact moves_same w
    | sending p => exact moves_send hcaller
    | returned err => exact moves_same w
  | stop | cancel => exact .quiet _ rfl rfl rfl rfl rfl Or.inl (validates_refl w)
  | proceed => exact moves_proceed cfg w
  | done =>
    dsimp only [step]
    split_ifs
    · exact .quiet _ rfl rfl rfl rfl rfl nofun (validates_refl w)
    · exact moves_final w
    · exact moves_same w
  | receive =>
    dsimp only [step]
    cases hselecting : w.selecting cfg with
    | false => exact moves_same w
    | true =>
      cases hreceive : w.queue.receive with
      | none => exact moves_same w
      | some x =>
        obtain ⟨hphase,hroom⟩ : w.phase = .head ∧ (w.batch.length : ℤ) ≠ cfg.batchSize := by
          simpa [selecting] using hselecting
        exact .taken x.1 x.2 hreceive (by simp [hphase]) hroom
  | tick =>
    dsimp only [step]
    split_ifs
    · exact .quiet _ rfl rfl rfl rfl rfl nofun (validates_refl w)
    · exact moves_same w
  | answer err =>
    dsimp only [step]
    cases w.phase with
    | writing occasion => exact moves_answer cfg w occasion err
    | head => exact moves_same w
    | waiting => exact moves_same w
    | draining => exact moves_same w
    | exited => exact moves_same w
  | elapsed =>
    dsimp only [step]
    split_ifs
    · exact .quiet _ rfl rfl rfl rfl rfl nofun (validates_refl w)
    · exact moves_same w

/-- Every accepted point is stored, in the batch or queued, in the order of acceptance. -/
structure Conserved (w : Writer) : Prop where
  accepted : w.accepted = w.stored++w.batch++w.queue.items
  counted : w.written = w.stored.length % 2^64
  exited : w.phase = .exited → w.batch = [] ∨ ∃ err, w.writes.getLast? = some (w.batch,some err)

theorem stored_congr (h : w'.writes = w.writes) : w'.stored = w.stored := by
  rw [stored,stored,h]

theorem record_stored (w : Writer) (err : Option Failure) :
    (w.record err).stored++(w.record err).batch = w.stored++w.batch := by
  cases err <;> simp [record,stored]

theorem record_counted (h : w.written = w.stored.length % 2^64) (err : Option Failure) :
    (w.record err).written = (w.record err).stored.length % 2^64 := by
  cases err with
  | some err => simpa [record,stored] using h
  | none =>
    rw [stored] at h
    simp [record,stored,h]

theorem record_last (w : Writer) (err : Option Failure) :
    (w.record err).batch = [] ∨
      ∃ err', (w.record err).writes.getLast? = some ((w.record err).batch,some err') := by
  cases err with
  | some err => exact .inr ⟨err,by simp [record]⟩
  | none => exact .inl rfl

theorem moves_conserved (hm : Moves cfg w w') (h : w.Conserved) : w'.Conserved := by
  cases hm with
  | quiet _ hqueue hbatch haccepted hwrites hwritten hexit hcallers =>
    refine ⟨?_,?_,fun hphase => ?_⟩
    · rw [haccepted,stored_congr hwrites,hbatch,hqueue,h.accepted]
    · rw [hwritten,stored_congr hwrites,h.counted]
    · rw [hbatch,hwrites]
      rcases hexit hphase with hexited | hempty
      · exact h.exited hexited
      · exact .inl hempty
  | sent _ i p hsending hcallers hqueue hbatch haccepted hwrites hwritten hphase =>
    refine ⟨?_,?_,fun hexited => ?_⟩
    · rw [haccepted,stored_congr hwrites,hbatch,(Channel.send_some hqueue).2.2,h.accepted,
        List.append_assoc]
    · rw [hwritten,stored_congr hwrites,h.counted]
    · rw [hbatch,hwrites]
      exact h.exited (hphase ▸ hexited)
  | taken p queue hqueue hphase hroom =>
    refine ⟨?_,h.counted,fun hexited => absurd hexited hphase⟩
    have hitems := (Channel.receive_some hqueue).2
    change w.accepted = w.stored++(w.batch++[p])++queue.items
    rw [h.accepted,hitems]
    simp
  | answered _ err hqueue hbatch haccepted hwrites hwritten hcallers =>
    have hstored : w'.stored = (w.record err).stored := stored_congr hwrites
    refine ⟨?_,?_,fun _ => ?_⟩
    · rw [haccepted,hstored,hbatch,hqueue,record_stored,h.accepted]
    · rw [hwritten,hstored,record_counted h.counted]
    · rw [hbatch,hwrites]
      exact record_last w err

theorem start_conserved (h : newWriter cfg = .ok w) : (w.start cfg).Conserved := by
  unfold newWriter at h
  split_ifs at h
  obtain rfl := Except.ok.inj h
  exact ⟨rfl,rfl,nofun⟩

/-- What the writer holds is bounded, and so is every batch it gives to the client. -/
structure Bounded (cfg : WriterConfig) (w : Writer) : Prop where
  batch : (w.batch.length : ℤ) ≤ cfg.batchSize
  queue : w.queue.capacity = cfg.queueCapacity.toNat
  writes : ∀ x ∈ w.writes, (x.1.length : ℤ) ≤ cfg.batchSize

theorem record_bounded (h : w.Bounded cfg) (err : Option Failure) : (w.record err).Bounded cfg := by
  have hwrites : ∀ x ∈ w.writes++[(w.batch,err)], (x.1.length : ℤ) ≤ cfg.batchSize := by
    intro x hx
    rcases List.mem_append.mp hx with hx | hx
    · exact h.writes x hx
    · rw [List.mem_singleton.mp hx]
      exact h.batch
  cases err with
  | some err => exact ⟨h.batch,h.queue,hwrites⟩
  | none => exact ⟨(Int.natCast_nonneg _).trans h.batch,h.queue,hwrites⟩

theorem moves_bounded (hm : Moves cfg w w') (h : w.Bounded cfg) : w'.Bounded cfg := by
  cases hm with
  | quiet _ hqueue hbatch haccepted hwrites hwritten hexit hcallers =>
    exact ⟨hbatch ▸ h.batch,hqueue ▸ h.queue,hwrites ▸ h.writes⟩
  | sent _ i p hsending hcallers hqueue hbatch haccepted hwrites hwritten hphase =>
    exact ⟨hbatch ▸ h.batch,(Channel.send_some hqueue).2.1.trans h.queue,hwrites ▸ h.writes⟩
  | taken p queue hqueue hphase hroom =>
    refine ⟨?_,(Channel.receive_some hqueue).1.trans h.queue,h.writes⟩
    have hbatch := h.batch
    change ((w.batch++[p]).length : ℤ) ≤ cfg.batchSize
    rw [List.length_append,List.length_singleton]
    omega
  | answered _ err hqueue hbatch haccepted hwrites hwritten hcallers =>
    have hrecord := record_bounded h err
    exact ⟨hbatch ▸ hrecord.batch,hqueue ▸ h.queue,hwrites ▸ hrecord.writes⟩

/-- No run holds more points than the batch and the queue have room for. -/
theorem points_bounded (h : newWriter cfg = .ok w) (steps : List WriterStep) :
    let s := run (step cfg) (w.start cfg) steps
    (s.batch.length+s.queue.items.length : ℤ) ≤ cfg.batchSize+cfg.queueCapacity := by
  intro s
  have hstart : (w.start cfg).Bounded cfg ∧ 0 ≤ cfg.queueCapacity := by
    unfold newWriter at h
    split_ifs at h with hbounds
    obtain rfl := Except.ok.inj h
    push Not at hbounds
    exact ⟨⟨by simp only [start,List.length_nil]; omega,rfl,nofun⟩,by omega⟩
  have hs : s.Bounded cfg := invariant_always (I := Bounded cfg)
    (fun s l hs => moves_bounded (step_moves cfg s l) hs) hstart.1 steps
  have hbatch := hs.batch
  have hfits := s.queue.fits
  rw [hs.queue] at hfits
  omega

/-- Only valid points are accepted. -/
structure Checked (w : Writer) : Prop where
  sending : ∀ i p, w.callers i = .sending p → validatePoint p = none
  accepted : ∀ p ∈ w.accepted, validatePoint p = none

theorem moves_checked (hm : Moves cfg w w') (h : w.Checked) : w'.Checked := by
  have hnext : w.Validates w' → ∀ i p, w'.callers i = .sending p → validatePoint p = none :=
    fun hcallers i p hp => (hcallers i p hp).elim (h.sending i p) id
  cases hm with
  | quiet _ hqueue hbatch haccepted hwrites hwritten hexit hcallers =>
    exact ⟨hnext hcallers,haccepted ▸ h.accepted⟩
  | sent _ i p hsending hcallers hqueue hbatch haccepted hwrites hwritten hphase =>
    refine ⟨hnext hcallers,fun x hx => ?_⟩
    rw [haccepted,List.mem_append,List.mem_singleton] at hx
    rcases hx with hx | rfl
    · exact h.accepted x hx
    · exact h.sending i x hsending
  | taken p queue hqueue hphase hroom => exact ⟨h.sending,h.accepted⟩
  | answered _ err hqueue hbatch haccepted hwrites hwritten hcallers =>
    exact ⟨hcallers ▸ h.sending,haccepted ▸ h.accepted⟩

/-- Every point stored by a run passes `validatePoint`, so that no client refuses it for that. -/
theorem stored_valid (h : newWriter cfg = .ok w) (steps : List WriterStep) :
    ∀ p ∈ (run (step cfg) (w.start cfg) steps).stored, validatePoint p = none := by
  have hstart : (w.start cfg).Checked := by
    unfold newWriter at h
    split_ifs at h
    obtain rfl := Except.ok.inj h
    exact ⟨nofun,nofun⟩
  have hs := invariant_always (I := fun s : Writer => s.Conserved ∧ s.Checked)
    (fun s l hs => ⟨moves_conserved (step_moves cfg s l) hs.1,
      moves_checked (step_moves cfg s l) hs.2⟩) ⟨start_conserved h,hstart⟩ steps
  intro p hp
  refine hs.2.accepted p ?_
  rw [hs.1.accepted]
  exact List.mem_append_left _ (List.mem_append_left _ hp)

end Steps

section Samples

def sampleConfig : WriterConfig :=
  { queueCapacity := 2, batchSize := 1, flushInterval := 1, retryMinimum := 1, retryMaximum := 4
    writeTimeout := 1 }

def samplePoint : Point where
  measurement := bytes "aquaos_alarms_v1"
  tags := ∅
  fields := (∅ : Table Text Field).insert (bytes "on") (booleanField true)
  timestamp := 1

def outage : List WriterStep :=
  [.call 0 samplePoint,.call 1 samplePoint,.send 0,.send 1,.receive,.proceed,
    .answer (some (.external "refused")),.elapsed,.proceed,.answer none,.stop,.done,.proceed,.proceed,
    .answer (some (.external "refused"))]

theorem outage_bounded : ∃ w, newWriter sampleConfig = .ok w ∧
    let s := run (step sampleConfig) (w.start sampleConfig) outage
    (s.batch.length+s.queue.items.length : ℤ) ≤ 1+2 := ⟨_,rfl,points_bounded rfl outage⟩

theorem outage_stored_valid : ∃ w, newWriter sampleConfig = .ok w ∧
    ∀ p ∈ (run (step sampleConfig) (w.start sampleConfig) outage).stored, validatePoint p = none :=
  ⟨_,rfl,stored_valid rfl outage⟩

end Samples

end Writer

end Storage
end AquaOS
