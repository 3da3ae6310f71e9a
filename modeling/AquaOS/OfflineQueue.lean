import AquaOS.EventExport
import AquaOS.Transition

/-! The offline queue of the client. A publication made while the broker is away is queued if there
is room; `flush` takes one from the front, publishes it without holding the lock and puts it back in
front when that fails. Every accepted publication has a number, which the client does not see. -/
namespace AquaOS
namespace Mqtt

open Domain Transition

/-- `Publication` in the source, with its expiry. -/
structure ExpiringPublication extends Publication where
  expiresAt : Option ℤ := none
  deriving DecidableEq

def ExpiringPublication.expired (p : ExpiringPublication) (now : ℤ) : Bool :=
  match p.expiresAt with
  | none => false
  | some deadline => deadline ≤ now

/-- The members of `config.MQTT` that bound publications. -/
structure QueueLimits where
  maximumPayload : ℕ
  queueCapacity : ℕ

def errDisconnected : Failure := .message "MQTT broker is disconnected"
def errQueueFull : Failure := .message "MQTT offline queue is full"

structure Item where
  number : ℕ
  publication : ExpiringPublication
  deriving DecidableEq

/-- A thread that calls `PublishPublication`: it has found the broker connected or not and goes on
without the lock. -/
inductive Caller
  | idle
  | sending (p : ExpiringPublication)
  | enqueueing (p : ExpiringPublication)
  | returned (err : Option Failure)
  deriving DecidableEq

/-- The points of `flush`; from `checking` to `restoring` it holds a publication. -/
inductive Flush
  | idle
  | taking
  | checking (x : Item)
  | publishing (x : Item)
  | awaiting (x : Item)
  | restoring (x : Item) (err : Failure)
  | returned (err : Option Failure)
  deriving DecidableEq

def Flush.held : Flush → Option Item
  | .checking x | .publishing x | .awaiting x | .restoring x _ => some x
  | _ => none

@[simp] theorem held_taking : Flush.taking.held = none := rfl
@[simp] theorem held_checking (x : Item) : (Flush.checking x).held = some x := rfl
@[simp] theorem held_restoring (x : Item) (err : Failure) :
    (Flush.restoring x err).held = some x := rfl
@[simp] theorem held_returned (err : Option Failure) : (Flush.returned err).held = none := rfl

/-- The client with what has become of the publications it accepted: those that `flush` has published
and those it has dropped, in the order in which it did. -/
structure Client where
  connected : Bool := false
  queue : List Item := []
  flush : Flush := .idle
  callers : ℕ → Caller := fun _ => .idle
  droppedExpired : ℕ := 0
  queueRejected : ℕ := 0
  accepted : List ExpiringPublication := []
  published : List Item := []
  dropped : List Item := []
  refusedExpired : ℕ := 0

/-- What happens at a client: the connection comes or goes, a thread calls `PublishPublication` or
takes its next step, and the one thread that connects calls `flush` or takes its next step. The
answers are those of the broker. -/
inductive ClientStep
  | connection (up : Bool)
  | call (i : ℕ) (ctx : Option Failure) (now : ℤ) (p : ExpiringPublication)
  | proceed (i : ℕ) (answer : Option Failure)
  | flush
  | drain (now : ℤ) (answer : Option Failure)

namespace Client

def setCaller (s : Client) (i : ℕ) (c : Caller) : Client :=
  { s with callers := Function.update s.callers i c }

/-- `PublishPublication` up to the question whether the broker is connected. -/
def call (limits : QueueLimits) (s : Client) (i : ℕ) (ctx : Option Failure) (now : ℤ)
    (p : ExpiringPublication) : Client :=
  match ctx, validatePublication p.topic p.qos p.retained with
  | some err, _ | none, some err => s.setCaller i (.returned (some err))
  | none, none =>
    if limits.maximumPayload < p.payload.length then s.setCaller i (.returned (some errOversized))
    else if p.expired now then
      { s.setCaller i (.returned (some errExpired)) with
        droppedExpired := (s.droppedExpired+1) % 2^64, refusedExpired := s.refusedExpired+1 }
    else if s.connected then s.setCaller i (.sending p)
    else s.setCaller i (.enqueueing p)

/-- The lock section of `PublishPublication`. -/
def enqueue (limits : QueueLimits) (s : Client) (i : ℕ) (p : ExpiringPublication) : Client :=
  if limits.queueCapacity ≤ s.queue.length then
    { s.setCaller i (.returned (some errQueueFull)) with
      queueRejected := (s.queueRejected+1) % 2^64 }
  else
    { s.setCaller i (.returned none) with
      queue := s.queue++[⟨s.accepted.length,p⟩], accepted := s.accepted++[p] }

/-- One step of `flush`. -/
def drain (s : Client) (now : ℤ) (answer : Option Failure) : Client :=
  match s.flush with
  | .idle | .returned _ => s
  | .taking =>
    match s.queue with
    | [] => { s with flush := .returned none }
    | x::rest => { s with queue := rest, flush := .checking x }
  | .checking x =>
    if x.publication.expired now then
      { s with
        flush := .taking, droppedExpired := (s.droppedExpired+1) % 2^64, dropped := s.dropped++[x] }
    else { s with flush := .publishing x }
  | .publishing x =>
    match validatePublication x.publication.topic x.publication.qos x.publication.retained with
    | some err => { s with flush := .restoring x err }
    | none =>
      if s.connected then { s with flush := .awaiting x }
      else { s with flush := .restoring x errDisconnected }
  | .awaiting x =>
    match answer with
    | none => { s with flush := .taking, published := s.published++[x] }
    | some err => { s with flush := .restoring x err }
  | .restoring x err => { s with queue := x::s.queue, flush := .returned (some err) }

def step (limits : QueueLimits) (s : Client) : ClientStep → Client
  | .connection up => { s with connected := up }
  | .call i ctx now p =>
    match s.callers i with
    | .idle | .returned _ => s.call limits i ctx now p
    | _ => s
  | .proceed i answer =>
    match s.callers i with
    | .sending _ =>
      s.setCaller i (.returned (if s.connected then answer else some errDisconnected))
    | .enqueueing p => s.enqueue limits i p
    | _ => s
  | .flush =>
    match s.flush with
    | .idle | .returned _ => { s with flush := .taking }
    | _ => s
  | .drain now answer => s.drain now answer

def Restores (s : Client) : ClientStep → Prop
  | .drain _ _ => ∃ x err, s.flush = .restoring x err
  | _ => False

theorem restores_iff {s : Client} {l : ClientStep} : s.Restores l ↔
    ∃ now answer, l = .drain now answer ∧ ∃ x err, s.flush = .restoring x err := by
  cases l <;> simp [Restores]

inductive Moves (limits : QueueLimits) (s : Client) (l : ClientStep) : Client → Prop
  | quiet (connected : Bool) (callers : ℕ → Caller) (flush : Flush) (queueRejected : ℕ)
      (hl : ¬ s.Restores l) (hheld : flush.held = s.flush.held) :
      Moves limits s l { s with
        connected := connected, callers := callers, flush := flush, queueRejected := queueRejected }
  | refused (callers : ℕ → Caller) (hl : ¬ s.Restores l) :
      Moves limits s l { s with
        callers := callers, droppedExpired := (s.droppedExpired+1) % 2^64
        refusedExpired := s.refusedExpired+1 }
  | enqueued (callers : ℕ → Caller) (p : ExpiringPublication) (hl : ¬ s.Restores l)
      (hroom : s.queue.length < limits.queueCapacity) :
      Moves limits s l { s with
        callers := callers, queue := s.queue++[⟨s.accepted.length,p⟩]
        accepted := s.accepted++[p] }
  | taken (x : Item) (rest : List Item) (hl : ¬ s.Restores l) (hheld : s.flush.held = none)
      (hqueue : s.queue = x::rest) :
      Moves limits s l { s with queue := rest, flush := .checking x }
  | dropped (x : Item) (hl : ¬ s.Restores l) (hheld : s.flush.held = some x) :
      Moves limits s l { s with
        flush := .taking, droppedExpired := (s.droppedExpired+1) % 2^64
        dropped := s.dropped++[x] }
  | published (x : Item) (hl : ¬ s.Restores l) (hheld : s.flush.held = some x) :
      Moves limits s l { s with flush := .taking, published := s.published++[x] }
  | restored (x : Item) (err : Failure) (hl : s.Restores l) (hheld : s.flush.held = some x) :
      Moves limits s l { s with queue := x::s.queue, flush := .returned (some err) }

variable {limits : QueueLimits} {s : Client} {l : ClientStep}

theorem Moves.caller (hl : ¬ s.Restores l)
    (i : ℕ) (c : Caller) : Moves limits s l (s.setCaller i c) :=
  .quiet s.connected _ s.flush s.queueRejected hl rfl

theorem Moves.same (hl : ¬ s.Restores l) : Moves limits s l s :=
  .quiet s.connected s.callers s.flush s.queueRejected hl rfl

theorem drain_moves (limits : QueueLimits) (s : Client) (now : ℤ) (answer : Option Failure) :
    Moves limits s (.drain now answer) (s.drain now answer) := by
  by_cases hl : s.Restores (.drain now answer)
  · obtain ⟨x,err,hflush⟩ := id hl
    simp only [drain,hflush]
    exact .restored x err hl (by rw [hflush]; rfl)
  have hphase : ∀ flush, flush.held = s.flush.held →
      Moves limits s (.drain now answer) { s with flush := flush } :=
    fun flush hheld => .quiet s.connected s.callers flush s.queueRejected hl hheld
  unfold drain
  split
  · exact .same hl
  · exact .same hl
  · next hflush =>
    split
    · exact hphase _ (by rw [hflush]; rfl)
    · next x rest hqueue => exact .taken x rest hl (by rw [hflush]; rfl) hqueue
  · next x hflush =>
    split_ifs
    · exact .dropped x hl (by rw [hflush]; rfl)
    · exact hphase _ (by rw [hflush]; rfl)
  · next x hflush =>
    split
    · exact hphase _ (by rw [hflush]; rfl)
    · split_ifs
      · exact hphase _ (by rw [hflush]; rfl)
      · exact hphase _ (by rw [hflush]; rfl)
  · next x hflush =>
    split
    · exact .published x hl (by rw [hflush]; rfl)
    · exact hphase _ (by rw [hflush]; rfl)
  · next x err hflush => exact absurd ⟨x,err,hflush⟩ hl

theorem call_moves (limits : QueueLimits) (s : Client) (hl : ¬ s.Restores l)
    (i : ℕ) (ctx : Option Failure) (now : ℤ) (p : ExpiringPublication) :
    Moves limits s l (s.call limits i ctx now p) := by
  unfold call
  split
  · exact .caller hl _ _
  · exact .caller hl _ _
  · split_ifs
    · exact .caller hl _ _
    · exact .refused _ hl
    · exact .caller hl _ _
    · exact .caller hl _ _

theorem enqueue_moves (limits : QueueLimits) (s : Client) (hl : ¬ s.Restores l)
    (i : ℕ) (p : ExpiringPublication) : Moves limits s l (s.enqueue limits i p) := by
  unfold enqueue
  split_ifs with hfull
  · exact .quiet s.connected _ s.flush _ hl rfl
  · exact .enqueued _ p hl (Nat.lt_of_not_le hfull)

theorem step_moves (limits : QueueLimits) (s : Client) (l : ClientStep) :
    Moves limits s l (s.step limits l) := by
  cases l with
  | connection up => exact .quiet up s.callers s.flush s.queueRejected (fun h => h) rfl
  | call i ctx now p =>
    have hl : ¬ s.Restores (.call i ctx now p) := fun h => h
    unfold step
    dsimp only
    split
    · exact call_moves limits s hl i ctx now p
    · exact call_moves limits s hl i ctx now p
    · exact .same hl
  | proceed i answer =>
    have hl : ¬ s.Restores (.proceed i answer) := fun h => h
    unfold step
    dsimp only
    split
    · exact .caller hl _ _
    · exact enqueue_moves limits s hl i _
    · exact .same hl
  | flush =>
    have hl : ¬ s.Restores .flush := fun h => h
    have htaking : s.flush.held = none → Moves limits s .flush { s with flush := .taking } :=
      fun hnone => .quiet s.connected s.callers .taking s.queueRejected hl hnone.symm
    unfold step
    dsimp only
    split
    · next hflush => exact htaking (by rw [hflush]; rfl)
    · next hflush => exact htaking (by rw [hflush]; rfl)
    · exact .same hl
  | drain now answer => exact drain_moves limits s now answer

section Acceptance

variable {i : ℕ} {p : ExpiringPublication}

/-- The publication whose call found the broker away and returns nil in the step. -/
def accepting (limits : QueueLimits) (s : Client) : ClientStep → Option ExpiringPublication
  | .proceed i answer =>
    match s.callers i, (s.step limits (.proceed i answer)).callers i with
    | .enqueueing p, .returned none => some p
    | _, _ => none
  | _ => none

def acceptances (limits : QueueLimits) : Client → List ClientStep → List ExpiringPublication :=
  outputs (step limits) (accepting limits)

theorem call_accepted (limits : QueueLimits) (s : Client) (i : ℕ) (ctx : Option Failure) (now : ℤ)
    (p : ExpiringPublication) : (s.call limits i ctx now p).accepted = s.accepted := by
  unfold call
  repeat' split
  all_goals rfl

theorem drain_frame (s : Client) (now : ℤ) (answer : Option Failure) :
    (s.drain now answer).accepted = s.accepted ∧ (s.drain now answer).callers = s.callers := by
  unfold drain
  repeat' split
  all_goals exact ⟨rfl,rfl⟩

theorem accepted_step (limits : QueueLimits) (s : Client) (l : ClientStep) :
    (s.step limits l).accepted = s.accepted++(s.accepting limits l).toList := by
  cases l with
  | connection up => simp [step,accepting]
  | call i ctx now p =>
    simp only [step,accepting,Option.toList_none,List.append_nil]
    split
    · exact call_accepted limits s i ctx now p
    · exact call_accepted limits s i ctx now p
    · rfl
  | proceed i answer =>
    cases hcaller : s.callers i with
    | enqueueing p =>
      by_cases hfull : limits.queueCapacity ≤ s.queue.length
      · simp [step,accepting,enqueue,setCaller,hcaller,hfull]
      · simp [step,accepting,enqueue,setCaller,hcaller,hfull]
    | _ => simp [step,accepting,setCaller,hcaller]
  | flush =>
    simp only [step,accepting,Option.toList_none,List.append_nil]
    split <;> rfl
  | drain now answer =>
    simpa [step,accepting] using (drain_frame s now answer).1

theorem accepted_run (limits : QueueLimits) (s : Client) (ls : List ClientStep) :
    (run (step limits) s ls).accepted = s.accepted++acceptances limits s ls :=
  log_run (accepted_step limits) s ls

theorem update_other {callers : ℕ → Caller} {j : ℕ} {c : Caller}
    (h : Function.update callers j c i = .enqueueing p) (hc : c ≠ .enqueueing p) :
    callers i = .enqueueing p :=
  (update_cases h).resolve_left fun hj => hc hj.2

theorem call_enqueueing {j : ℕ} {ctx : Option Failure} {now : ℤ} {q : ExpiringPublication}
    (h : (s.call limits j ctx now q).callers i = .enqueueing p) :
    s.callers i = .enqueueing p ∨
      ClientStep.call j ctx now q = .call i ctx now p ∧ s.connected = false := by
  unfold call at h
  split at h
  · exact .inl (update_other h nofun)
  · exact .inl (update_other h nofun)
  · split_ifs at h with _ _ hconnected
    · exact .inl (update_other h nofun)
    · exact .inl (update_other h nofun)
    · exact .inl (update_other h nofun)
    · rcases update_cases h with ⟨rfl,hq⟩ | hold
      · cases hq
        exact .inr ⟨rfl,by simpa using hconnected⟩
      · exact .inl hold

theorem step_enqueueing (h : (s.step limits l).callers i = .enqueueing p) :
    s.callers i = .enqueueing p ∨ ∃ ctx now, l = .call i ctx now p ∧ s.connected = false := by
  cases l with
  | connection up => exact .inl h
  | call j ctx now q =>
    unfold step at h
    dsimp only at h
    split at h
    · exact (call_enqueueing h).imp_right fun hcall => ⟨ctx,now,hcall⟩
    · exact (call_enqueueing h).imp_right fun hcall => ⟨ctx,now,hcall⟩
    · exact .inl h
  | proceed j answer =>
    unfold step enqueue at h
    dsimp only at h
    split at h
    · exact .inl (update_other h nofun)
    · split_ifs at h <;> exact .inl (update_other h nofun)
    · exact .inl h
  | flush =>
    unfold step at h
    dsimp only at h
    split at h <;> exact .inl h
  | drain now answer => exact .inl ((drain_frame s now answer).2 ▸ h)

/-- A thread about to queue a publication called with it while the broker was away. -/
theorem enqueueing_called {steps : List ClientStep}
    (h : (run (step limits) {} steps).callers i = .enqueueing p) :
    ∃ before after ctx now, steps = before++.call i ctx now p::after ∧
      (run (step limits) {} before).connected = false := by
  induction steps using List.reverseRecOn with
  | nil => cases h
  | append_singleton steps l ih =>
    rw [run_append] at h
    rcases step_enqueueing h with hold | ⟨ctx,now,rfl,hconnected⟩
    · obtain ⟨before,after,ctx,now,rfl,hconnected⟩ := ih hold
      exact ⟨before,after++[l],ctx,now,by simp,hconnected⟩
    · exact ⟨steps,[],ctx,now,rfl,hconnected⟩

end Acceptance

/-- The publications still to be dealt with, in order. -/
def pending (s : Client) : List Item := s.flush.held.toList++s.queue

def everywhere (s : Client) : List Item := s.published++s.dropped++s.pending

/-- The accepted publications are accounted for: the pending ones are the last accepted, in order,
the others were published or dropped, and the published ones are in order. -/
structure Accounted (s : Client) : Prop where
  pending : s.pending.map Item.number =
    List.range' (s.published.length+s.dropped.length) s.pending.length
  total : s.published.length+s.dropped.length+s.pending.length = s.accepted.length
  settled : ((s.published++s.dropped).map Item.number).Perm
    (List.range (s.published.length+s.dropped.length))
  ordered : (s.published.map Item.number).Pairwise (· < ·)
  content : ∀ x ∈ s.everywhere, s.accepted[x.number]? = some x.publication
  expired : s.droppedExpired = (s.refusedExpired+s.dropped.length) % 2^64

section Accounts

variable {limits : QueueLimits} {s s' : Client} {l : ClientStep} {x : Item} {rest : List Item}

/-- The accounts are about the pending publications and the histories. -/
theorem Accounted.congr (h : s.Accounted) (hpending : s'.pending = s.pending)
    (haccepted : s'.accepted = s.accepted) (hpublished : s'.published = s.published)
    (hdropped : s'.dropped = s.dropped)
    (hexpired : s'.droppedExpired = (s'.refusedExpired+s'.dropped.length) % 2^64) :
    s'.Accounted where
  pending := by rw [hpending,hpublished,hdropped]; exact h.pending
  total := by rw [hpending,hpublished,hdropped,haccepted]; exact h.total
  settled := by rw [hpublished,hdropped]; exact h.settled
  ordered := by rw [hpublished]; exact h.ordered
  content := by
    unfold everywhere
    rw [hpending,hpublished,hdropped,haccepted]
    exact h.content
  expired := hexpired

/-- The first pending publication is the next one to be settled. -/
theorem Accounted.next (h : s.Accounted) (hp : s.pending = x::rest) :
    x.number = s.published.length+s.dropped.length ∧
      rest.map Item.number =
        List.range' (s.published.length+s.dropped.length+1) rest.length := by
  have hnumbers := h.pending
  rw [hp,List.map_cons,List.length_cons,List.range'_succ] at hnumbers
  exact List.cons.inj hnumbers

theorem Accounted.published_lt (h : s.Accounted) {y : Item} (hy : y ∈ s.published) :
    y.number < s.published.length+s.dropped.length := by
  have hmem : y.number ∈ (s.published++s.dropped).map Item.number :=
    List.mem_map_of_mem (List.mem_append_left _ hy)
  simpa using h.settled.mem_iff.mp hmem

/-- The first pending publication is settled, one way or the other. -/
theorem Accounted.settle (h : s.Accounted) (hp : s.pending = x::rest)
    (hpending : s'.pending = rest) (haccepted : s'.accepted = s.accepted)
    (hsettled : (s'.published++s'.dropped).Perm (s.published++s.dropped++[x]))
    (hordered : (s'.published.map Item.number).Pairwise (· < ·))
    (hexpired : s'.droppedExpired = (s'.refusedExpired+s'.dropped.length) % 2^64) :
    s'.Accounted := by
  obtain ⟨hx,hrest⟩ := h.next hp
  have htotal := h.total
  have hlength : s'.published.length+s'.dropped.length =
      s.published.length+s.dropped.length+1 := by
    have hlengths := hsettled.length_eq
    simp only [List.length_append,List.length_singleton] at hlengths
    omega
  constructor
  · rw [hlength,hpending]
    exact hrest
  · rw [hp,List.length_cons] at htotal
    rw [hlength,hpending,haccepted]
    omega
  · rw [hlength,List.range_succ]
    refine (hsettled.map Item.number).trans ?_
    rw [List.map_append,List.map_singleton,hx]
    exact h.settled.append_right _
  · exact hordered
  · intro y hy
    rw [haccepted]
    refine h.content y ?_
    unfold everywhere at hy ⊢
    rw [hpending,List.mem_append,hsettled.mem_iff] at hy
    rw [hp]
    simp only [List.mem_append,List.mem_cons,List.not_mem_nil,or_false] at hy ⊢
    tauto
  · exact hexpired

theorem Accounted.accept (h : s.Accounted) (p : ExpiringPublication) (callers : ℕ → Caller) :
    Accounted { s with
      callers := callers, queue := s.queue++[⟨s.accepted.length,p⟩]
      accepted := s.accepted++[p] } := by
  have htotal := h.total
  have hpending : Client.pending { s with
      callers := callers, queue := s.queue++[⟨s.accepted.length,p⟩]
      accepted := s.accepted++[p] } = s.pending++[⟨s.accepted.length,p⟩] := by
    simp [Client.pending]
  constructor
  · rw [hpending,List.map_append,h.pending,List.length_append,List.length_singleton,
      List.range'_concat]
    simp [htotal]
  · rw [hpending]
    simp only [List.length_append,List.length_singleton]
    omega
  · exact h.settled
  · exact h.ordered
  · intro y hy
    unfold everywhere at hy
    rw [hpending,← List.append_assoc,List.mem_append] at hy
    rcases hy with hold | hnew
    · have hcontent := h.content y hold
      have hlt := (List.getElem?_eq_some_iff.mp hcontent).1
      rw [List.getElem?_append_left hlt]
      exact hcontent
    · rw [List.mem_singleton.mp hnew]
      simp
  · exact h.expired

theorem moves_accounted (h : s.Accounted) (hm : Moves limits s l s') : s'.Accounted := by
  have hexpired := h.expired
  cases hm with
  | quiet connected callers flush queueRejected _ hheld =>
    exact h.congr (by simp [Client.pending,hheld]) rfl rfl rfl hexpired
  | refused callers _ =>
    refine h.congr rfl rfl rfl rfl ?_
    dsimp only
    rw [hexpired,Nat.mod_add_mod]
    congr 1
    omega
  | enqueued callers p _ _ => exact h.accept p callers
  | taken x rest _ hheld hqueue =>
    exact h.congr (by simp [Client.pending,hheld,hqueue]) rfl rfl rfl hexpired
  | dropped x _ hheld =>
    have hp : s.pending = x::s.queue := by simp [Client.pending,hheld]
    refine h.settle hp rfl rfl (by simp) h.ordered ?_
    dsimp only
    rw [hexpired,Nat.mod_add_mod,List.length_append,List.length_singleton,Nat.add_assoc]
  | published x _ hheld =>
    have hp : s.pending = x::s.queue := by simp [Client.pending,hheld]
    refine h.settle hp rfl rfl ?_ ?_ hexpired
    · dsimp only
      rw [List.append_assoc,List.append_assoc]
      exact List.perm_append_comm.append_left _
    · dsimp only
      rw [List.map_append,List.map_singleton,List.pairwise_append]
      refine ⟨h.ordered,List.pairwise_singleton _ _,?_⟩
      intro n hn m hm
      obtain ⟨y,hy,rfl⟩ := List.mem_map.mp hn
      rw [List.mem_singleton.mp hm,(h.next hp).1]
      exact h.published_lt hy
  | restored x err _ hheld =>
    exact h.congr (by simp [Client.pending,hheld]) rfl rfl rfl hexpired

theorem run_accounted (limits : QueueLimits) (steps : List ClientStep) :
    (run (step limits) {} steps).Accounted := by
  have hstart : Accounted {} := ⟨rfl,rfl,.nil,.nil,fun x hx => (nomatch hx),rfl⟩
  exact invariant_always (fun s l h => moves_accounted h (step_moves limits s l)) hstart steps

end Accounts

section Places

/-- Where a publication can be. -/
inductive Place
  | queued | held | published | dropped
  deriving DecidableEq

def located (s : Client) : Place → List Item
  | .queued => s.queue
  | .held => s.flush.held.toList
  | .published => s.published
  | .dropped => s.dropped

variable {s : Client} {x : Item}

theorem everywhere_numbers (h : s.Accounted) :
    (s.everywhere.map Item.number).Perm (List.range s.accepted.length) := by
  rw [← h.total,List.range_add,← List.range'_eq_map_range,← h.pending,everywhere,List.map_append]
  exact h.settled.append_right _

def Place.all : List Place := [.published,.dropped,.held,.queued]

theorem Place.mem_all (place : Place) : place ∈ Place.all := by
  cases place <;> decide

theorem everywhere_eq (s : Client) : s.everywhere = Place.all.flatMap s.located := by
  simp [everywhere,pending,Place.all,located]

theorem mem_everywhere_iff : x ∈ s.everywhere ↔ ∃ place, x ∈ s.located place := by
  rw [everywhere_eq,List.mem_flatMap]
  constructor
  · rintro ⟨place,_,hx⟩
    exact ⟨place,hx⟩
  · rintro ⟨place,hx⟩
    exact ⟨place,place.mem_all,hx⟩

theorem place_unique (h : s.everywhere.Nodup) {place place' : Place}
    (hx : x ∈ s.located place) (hx' : x ∈ s.located place') : place = place' := by
  rw [everywhere_eq,List.nodup_flatMap] at h
  by_contra hne
  have hsymm : Std.Symm (Function.onFun List.Disjoint s.located) := ⟨fun _ _ hd => hd.symm⟩
  exact h.2.forall place.mem_all place'.mem_all hne hx hx'

/-- In every run each accepted publication is in exactly one place: queued, held by `flush`,
published by it or counted as expired; and those published are in the order of their acceptance.
The accepted ones are those of the calls that found the broker away and returned nil. -/
theorem accepted_in_one_place (limits : QueueLimits) (steps : List ClientStep) :
    let s := run (step limits) {} steps
    s.accepted = acceptances limits {} steps ∧
    (∀ i p, s.callers i = .enqueueing p → ∃ before after ctx now,
      steps = before++.call i ctx now p::after ∧
        (run (step limits) {} before).connected = false) ∧
    (∀ n p, s.accepted[n]? = some p → ∃! place, ⟨n,p⟩ ∈ s.located place) ∧
    (∀ place, ∀ x ∈ s.located place, s.accepted[x.number]? = some x.publication) ∧
    (∀ place, (s.located place).Nodup) ∧
    (s.published.map Item.number).Pairwise (· < ·) ∧
    s.droppedExpired = (s.refusedExpired+s.dropped.length) % 2^64 := by
  intro s
  have h : s.Accounted := run_accounted limits steps
  have hnodup : s.everywhere.Nodup :=
    ((everywhere_numbers h).nodup_iff.mpr List.nodup_range).of_map
  refine ⟨accepted_run limits {} steps,fun i p hp => enqueueing_called hp,fun n p hp => ?_,
    fun place x hx => ?_,fun place => ?_,h.ordered,h.expired⟩
  · have hn : n ∈ s.everywhere.map Item.number := by
      rw [(everywhere_numbers h).mem_iff,List.mem_range]
      exact (List.getElem?_eq_some_iff.mp hp).1
    obtain ⟨x,hx,rfl⟩ := List.mem_map.mp hn
    obtain rfl : x.publication = p := Option.some.inj ((h.content x hx).symm.trans hp)
    obtain ⟨place,hplace⟩ := mem_everywhere_iff.mp hx
    exact ⟨place,hplace,fun place' hplace' => place_unique hnodup hplace' hplace⟩
  · exact h.content x (mem_everywhere_iff.mpr ⟨place,hx⟩)
  · rw [everywhere_eq,List.nodup_flatMap] at hnodup
    exact hnodup.1 place place.mem_all

def samplePublication : ExpiringPublication :=
  { topic := "aquaos/home-reef/v1/events/test", qos := 1, retained := false
    payload := bytes "\x7b\x7d" }

/-- A publication is accepted and held by `flush` when the connection is lost. It is put back in
front of one that is accepted meanwhile, and after a second connection both are published. -/
def sampleRun : List ClientStep :=
  [.call 0 none 1 samplePublication,.proceed 0 none,.connection true,.flush,.drain 1 none,
    .connection false,.call 1 none 1 samplePublication,.proceed 1 none,.drain 1 none,.drain 1 none,
    .drain 1 none,.connection true,.flush,.drain 1 none,.drain 1 none,.drain 1 none,.drain 1 none,
    .drain 1 none,.drain 1 none,.drain 1 none,.drain 1 none,.drain 1 none]

/-- Its limits have room for two. -/
def sampleLimits : QueueLimits := ⟨1024,2⟩

theorem sampleRun_published :
    let s := run (step sampleLimits) {} sampleRun
    acceptances sampleLimits {} sampleRun = [samplePublication,samplePublication] ∧
      (run (step sampleLimits) {} (sampleRun.take 5)).flush.held = some ⟨0,samplePublication⟩ ∧
      (run (step sampleLimits) {} (sampleRun.take 11)).queue =
        [⟨0,samplePublication⟩,⟨1,samplePublication⟩] ∧
      s.published = [⟨0,samplePublication⟩,⟨1,samplePublication⟩] ∧
      ∃! place, ⟨0,samplePublication⟩ ∈ s.located place :=
  ⟨by decide +kernel,by decide +kernel,by decide +kernel,by decide +kernel,
    (accepted_in_one_place sampleLimits sampleRun).2.2.1 0 _ (by decide +kernel)⟩

end Places

section Capacity

variable {limits : QueueLimits} {s s' : Client} {l : ClientStep}

/-- A publication that is put back finds room. -/
def FindsRoom (limits : QueueLimits) (s : Client) (l : ClientStep) : Prop :=
  s.Restores l → s.queue.length < limits.queueCapacity

/-- Only a publication put back can take the queue beyond its capacity. -/
theorem moves_bounded_iff (hm : Moves limits s l s') (h : s.queue.length ≤ limits.queueCapacity) :
    s'.queue.length ≤ limits.queueCapacity ↔ FindsRoom limits s l := by
  cases hm with
  | quiet connected callers flush queueRejected hl _ => exact iff_of_true h fun hr => absurd hr hl
  | refused callers hl => exact iff_of_true h fun hr => absurd hr hl
  | enqueued callers p hl hroom =>
    refine iff_of_true ?_ fun hr => absurd hr hl
    simpa using hroom
  | taken x rest hl _ hqueue =>
    refine iff_of_true ?_ fun hr => absurd hr hl
    rw [hqueue,List.length_cons] at h
    exact (Nat.le_succ _).trans h
  | dropped x hl _ | published x hl _ => exact iff_of_true h fun hr => absurd hr hl
  | restored x err hl _ =>
    simp only [FindsRoom,hl,forall_const,List.length_cons]
    exact Nat.succ_le_iff

/-- Steps in which `flush` takes a publication from the queue, holds it and fails to publish it. -/
structure Fails (limits : QueueLimits) (s : Client) (ls : List ClientStep) : Prop where
  idle : s.flush.held = none
  holds : Guarded (step limits) (fun s l => (s.step limits l).flush.held ≠ none) s ls
  fails : ∃ x err, (run (step limits) s ls).flush = .restoring x err

/-- A step after which `flush` holds a publication settles none. -/
theorem moves_holding (hm : Moves limits s l s') (h : s'.flush.held ≠ none) :
    s'.pending.length+s.accepted.length = s.pending.length+s'.accepted.length := by
  cases hm with
  | quiet connected callers flush queueRejected _ hheld => simp [pending,hheld]
  | refused callers _ => rfl
  | enqueued callers p _ _ =>
    simp only [pending,List.length_append,List.length_singleton]
    omega
  | taken x rest _ hheld hqueue => simp [pending,hheld,hqueue]
  | dropped x _ _ => exact absurd rfl h
  | published x _ _ => exact absurd rfl h
  | restored x err _ _ => exact absurd rfl h

theorem run_holding {ls : List ClientStep}
    (h : Guarded (step limits) (fun s l => (s.step limits l).flush.held ≠ none) s ls) :
    (run (step limits) s ls).pending.length+s.accepted.length =
      s.pending.length+(run (step limits) s ls).accepted.length := by
  induction ls generalizing s with
  | nil => rfl
  | cons l ls ih =>
    have hstep := moves_holding (step_moves limits s l) h.1
    have hrest := ih h.2
    rw [run_cons]
    omega

/-- What `flush` failed to publish left one place, and each publication accepted meanwhile took
one. -/
theorem Fails.queue_length {ls : List ClientStep} (h : Fails limits s ls) :
    (run (step limits) s ls).queue.length+1 =
      s.queue.length+(acceptances limits s ls).length := by
  obtain ⟨x,err,hflush⟩ := h.fails
  have hrun := run_holding h.holds
  simp only [pending,h.idle,hflush,held_restoring,accepted_run,List.length_append,Option.toList_none,
    Option.toList_some,List.length_nil,List.length_singleton] at hrun
  omega

/-- The queue stays within its capacity throughout exactly the runs in which, between a publication
that `flush` takes and its failure to publish it, no more are accepted than there were places free
before it was taken. -/
theorem queue_bounded_iff (limits : QueueLimits) (steps : List ClientStep) :
    (∀ ms, ms <+: steps → (run (step limits) {} ms).queue.length ≤ limits.queueCapacity) ↔
      ∀ before between now answer, before++between++[.drain now answer] <+: steps →
        Fails limits (run (step limits) {} before) between →
          (run (step limits) {} before).queue.length+
            (acceptances limits (run (step limits) {} before) between).length ≤
              limits.queueCapacity := by
  constructor
  · intro h before between now answer hprefix hfails
    obtain ⟨x,err,hflush⟩ := hfails.fails
    have hbound := h _ hprefix
    rw [run_append,run_append,run_cons,run_nil,step,drain,hflush,List.length_cons] at hbound
    rwa [← hfails.queue_length]
  · intro h ms hms
    -- A state beyond the capacity is entered by putting back what an earlier step took.
    induction ms using List.reverseRecOn with
    | nil => exact Nat.zero_le _
    | append_singleton ms l ih =>
      have hbound := ih ((List.prefix_append ms [l]).trans hms)
      rw [run_append,run_cons,run_nil,moves_bounded_iff (step_moves limits _ l) hbound]
      intro hrestores
      obtain ⟨now,answer,rfl,x,err,hflush⟩ := restores_iff.mp hrestores
      have hheld : (run (step limits) {} ms).flush.held ≠ none := by simp [hflush]
      obtain ⟨before,between,rfl,hidle,hholds⟩ := exists_entry
        (P := fun s : Client => s.flush.held ≠ none) (fun h => h rfl) hheld
      have hfails : Fails limits (run (step limits) {} before) between :=
        ⟨not_not.mp hidle,hholds,x,err,by rw [← run_append,hflush]⟩
      have hroom := h before between now answer hms hfails
      rwa [← hfails.queue_length,← run_append] at hroom

/-- The second publication is accepted between the take and the failure, into a free place. -/
theorem sampleRun_bounded :
    let s := run (step sampleLimits) {} (sampleRun.take 4)
    let between := (sampleRun.drop 4).take 6
    Fails sampleLimits s between ∧ (acceptances sampleLimits s between).length = 1 ∧
      s.queue.length+(acceptances sampleLimits s between).length ≤ 2 := by
  have hfails : Fails sampleLimits (run (step sampleLimits) {} (sampleRun.take 4))
      ((sampleRun.drop 4).take 6) :=
    ⟨by decide +kernel,by decide +kernel,⟨0,samplePublication⟩,errDisconnected,by decide +kernel⟩
  have hbounded : ∀ ms, ms <+: sampleRun → (run (step sampleLimits) {} ms).queue.length ≤ 2 := by
    simp only [← List.mem_inits]
    decide +kernel
  exact ⟨hfails,by decide +kernel,
    (queue_bounded_iff sampleLimits sampleRun).mp hbounded _ _ 1 none ⟨sampleRun.drop 11,rfl⟩ hfails⟩

/-- The queue has room for one publication. `flush` takes it, the connection is lost, another one is
queued, and the first is put back. -/
theorem restored_publication_overruns :
    let limits : QueueLimits := ⟨1024,1⟩
    let s := run (step limits) {} [.call 0 none 1 samplePublication,.proceed 0 none,
      .connection true,.flush,.drain 1 none,.connection false,.call 1 none 1 samplePublication,
      .proceed 1 none,.drain 1 none,.drain 1 none,.drain 1 none]
    s.callers 0 = .returned none ∧ s.callers 1 = .returned none ∧
      s.flush = .returned (some errDisconnected) ∧ s.queue.length = 2 := by
  decide +kernel

/-- With what `flush` holds there is at most one publication too many. -/
theorem moves_pending_le (hm : Moves limits s l s')
    (h : s.pending.length ≤ limits.queueCapacity+1) :
    s'.pending.length ≤ limits.queueCapacity+1 := by
  cases hm with
  | quiet connected callers flush queueRejected _ hheld => simpa [pending,hheld] using h
  | refused callers _ => exact h
  | enqueued callers p _ hroom =>
    have hheld : s.flush.held.toList.length ≤ 1 := by
      cases s.flush.held <;> simp
    simp only [pending,List.length_append,List.length_singleton] at h ⊢
    omega
  | taken x rest _ hheld hqueue => simpa [pending,hheld,hqueue] using h
  | dropped x _ hheld | published x _ hheld =>
    simp only [pending,hheld,List.length_append,Option.toList_some,List.length_singleton] at h
    simp only [pending,held_taking,Option.toList_none,List.nil_append]
    omega
  | restored x err _ hheld => simpa [pending,hheld,Nat.add_comm] using h

theorem queue_overrun_le (limits : QueueLimits) (steps : List ClientStep) :
    (run (step limits) {} steps).queue.length ≤ limits.queueCapacity+1 := by
  have hpending : (run (step limits) {} steps).pending.length ≤ limits.queueCapacity+1 :=
    invariant_always (I := fun s : Client => s.pending.length ≤ limits.queueCapacity+1)
      (fun s l h => moves_pending_le (step_moves limits s l) h) (Nat.zero_le _) steps
  rw [pending,List.length_append] at hpending
  omega

/-- With room for one the run puts a publication back into a full queue. -/
theorem sampleRun_overrun :
    let s := run (step ⟨1024,1⟩) {} (sampleRun.take 11)
    s.queue.length = 2 ∧ s.queue.length ≤ 1+1 :=
  ⟨by decide +kernel,queue_overrun_le ⟨1024,1⟩ _⟩

end Capacity

end Client

end Mqtt
end AquaOS
