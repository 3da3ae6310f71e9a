import AquaOS.OpenCommands
import AquaOS.WorkerThreads

/-! The adapter's pending map against the records of the service. A command is entered into the
map before its acknowledgement is stored and deleted after it has been closed, in separate
steps and by different threads. What the entries say at any moment, and that the steps of the
service's threads keep to it. -/
namespace AquaOS

open Domain SafetyEngine Output Transition Shelly Bench

namespace Output

def Point.committed : Point → Bool
  | .emit _ _ => true
  | .returned reply => reply.err.isNone
  | _ => false

variable {a : Answer} {s : Store} {p : Point} {e : Effect}

/-- A closing call comes to have written its record only by writing it. -/
theorem Steps.committed (h : Steps s a p e) {id : CommandID}
    (hp : (∃ on, p.Reconciles id on) ∨ p.Expires id) (hclose : ∀ cl, p ≠ .close id cl)
    (hemit : ∀ ev r, p = .emit ev r → a.emitted = none) : e.point.committed = p.committed := by
  have hcl : ∀ id' cl, p = .close id' cl → False := by
    rintro id' cl rfl
    have hid : id' = id := by
      rcases hp with ⟨on,hp⟩ | hp
      · exact hp.target_eq rfl
      · exact hp.target_eq rfl
    exact hclose cl (hid ▸ rfl)
  cases h with
  | emitted ev r => simp [Point.committed,hemit ev r rfl]
  | closed id' cl r hr => exact (hcl id' cl rfl).elim
  | missing _ id' ch hch hr =>
    cases p with
    | close id' cl => exact (hcl id' cl rfl).elim
    | mark c | settle c st => rcases hp with ⟨_,hp⟩ | hp <;> exact hp.elim
    | _ => cases hch
  | failed _ err hfall => cases p <;> first | rfl | exact hfall.elim
  | reconciling _ _ _ _ _ _ _ => rfl
  | unreported _ _ _ _ _ => rfl
  | reported _ _ _ _ => rfl
  | expiring _ _ _ _ _ _ => rfl
  | returned _ => rfl
  | _ => rcases hp with ⟨_,hp⟩ | hp <;> exact hp.elim

theorem Steps.settles (h : Steps s a p e)
    {c : Command} {st : Settlement} (hc : e.point = .settle c st) : p = .awaiting c := by
  cases h with
  | acknowledged c' => rw [(Point.settle.inj hc).1]
  | _ => cases hc

theorem refused_settlement {t : ℤ} (h : ∀ ok, a.acknowledgement = .ok ok → ok.accepted = false) :
    settlement a ≠ .acknowledged t := by
  unfold settlement
  cases hack : a.acknowledgement with
  | error err => exact fun h => by cases h
  | ok ok => simp [h ok hack]

end Output

namespace Shelly

def PollPoint.closing : PollPoint → Option PendingCommand
  | .reconciling p _ | .forget p _ | .expiring p _ _ | .drop p _ _ => some p
  | _ => none

/-- The poll has closed its command and not deleted the entry yet; `q` is where its thread
stands. -/
def PollPoint.Finished (q : Option Point) : PollPoint → Prop
  | .forget _ _ | .drop _ _ _ => True
  | .reconciling _ _ | .expiring _ _ _ => ∃ p, q = some p ∧ p.committed = true
  | _ => False

variable {pt : PollPoint}

theorem not_finished (h : pt.closing = none) (q : Option Point) : ¬ pt.Finished q := by
  cases pt <;> first | exact id | cases h

def PollPoint.resting : PollPoint → Bool
  | .idle _ => true
  | _ => false

theorem resting_not_finished (h : pt.resting = true) (q : Option Point) : ¬ pt.Finished q := by
  cases pt <;> first | exact id | cases h

/-- What a step of a poll does with pending commands: wait, nothing, take one up, go on after
it was closed, leave it after a failure, or delete its entry. -/
inductive Handles (a : Adapter) (e : Endpoint) (reply : Option Reply) (pt : PollPoint)
    (eff : PollEffect) : Prop
  | waits (hpt : eff.point = pt) (hcall : eff.call = none) (hf : eff.forgets = false)
  | aside (hpt : pt.closing = none) (hnext : eff.point.closing = none) (hf : eff.forgets = false)
  | takes (p : PendingCommand) (hpt : pt.closing = none)
      (hl : a.pending.lookup e.equipmentID = some p) (hnext : eff.point.closing = some p)
      (hcall : ∃ op q, eff.call = some op ∧ op.thread = .call q ∧ q.committed = false)
      (hwait : eff.point.Waiting) (hf : eff.forgets = false)
  | commits (p : PendingCommand) (r : Reply) (hr : reply = some r) (herr : r.err = none)
      (hpt : pt.closing = some p) (hwait : pt.Waiting) (hnext : eff.point.closing = some p)
      (hdone : ∀ q, eff.point.Finished q) (hcall : eff.call = none) (hf : eff.forgets = false)
  | leaves (p : PendingCommand) (r : Reply) (hr : reply = some r) (herr : r.err ≠ none)
      (hpt : pt.closing = some p) (hwait : pt.Waiting) (hnext : eff.point.closing = none)
      (hcall : eff.call = none) (hf : eff.forgets = false)
  | deletes (p : PendingCommand) (hpt : pt.closing = some p) (hdone : ∀ q, pt.Finished q)
      (hnext : eff.point.closing = none) (hcall : eff.call = none) (hf : eff.forgets = true)

@[simp] theorem next_closing (next : Next) (errs : List Failure) :
    (next.point errs).closing = none := by
  cases next <;> rfl

theorem PollSteps.handles {a : Adapter} {s : Site} {e : Endpoint} {reply : Option Reply}
    {eff : PollEffect} (h : PollSteps a s e reply pt eff) : Handles a e reply pt eff := by
  cases h with
  | waits p hp hr => exact .waits rfl rfl rfl
  | matched seen now p hp hlive hwant =>
    exact .takes p rfl hp rfl ⟨_,_,rfl,rfl,rfl⟩ trivial rfl
  | due now force seen p hp => exact .takes p rfl hp rfl ⟨_,_,rfl,rfl,rfl⟩ trivial rfl
  | reconciled p seen r hr herr =>
    exact .commits p r hr herr rfl trivial rfl (fun _ => trivial) rfl rfl
  | expired p now seen r hr herr =>
    exact .commits p r hr herr rfl trivial rfl (fun _ => trivial) rfl rfl
  | unreconciled p seen r hr herr => exact .leaves p r hr herr rfl trivial rfl rfl rfl
  | unexpired p now seen r hr herr => exact .leaves p r hr herr rfl trivial rfl rfl rfl
  | forgotten p seen | dropped p now seen => exact .deletes p rfl (fun _ => trivial) rfl rfl rfl
  | unknown f next s' err | marked f err next
  | answered errs next r hr => exact .aside rfl (next_closing _ _) rfl
  | failed p code now hp => exact .aside (by rcases hp with rfl | rfl <;> rfl) rfl rfl
  | _ => exact .aside rfl rfl rfl

end Shelly

namespace Installation

/-- The thread is about to announce a closing transition of a poll. -/
def announces (s : Installation) (i : ℕ) : Bool :=
  (s.poll i).closing.isSome && match s.point i with
    | some (.emit _ _) => true
    | _ => false

/-- A command is recorded under an unused ID, entered where no entry is, and the events of the
closing transitions of polls are accepted. -/
def Orderly (s : Installation) : Move → Prop
  | .serve i a _ _ =>
    (∀ p ∈ s.point i, FreshID s.controller.world i p) ∧
    (∀ c ∈ s.dispatching i, s.adapter.pending.lookup c.equipmentID = none) ∧
    (s.announces i = true → a.emitted = none)
  | _ => True

instance (s : Installation) : (m : Move) → Decidable (s.Orderly m)
  | .serve i a _ _ => inferInstanceAs (Decidable ((∀ p ∈ s.point i,
      FreshID s.controller.world i p) ∧
      (∀ c ∈ s.dispatching i, s.adapter.pending.lookup c.equipmentID = none) ∧
      (s.announces i = true → a.emitted = none)))
  | .call _ _ | .poll _ _ | .alarm _ => .isTrue trivial

/-- What the pending map and the records say about each other at any moment. -/
structure PendingInv (s : Installation) : Prop where
  threads : WorkerInv s
  lifecycle : LifecycleInv s.controller.world
  records : RecordInv s.controller.world
  dispatching : ∀ i c, s.dispatching i = some c → s.point i = some (.awaiting c) ∧
    ∃ e, s.adapter.endpoint c.equipmentID = some e
  located : ∀ id p, s.adapter.pending.lookup id = some p →
    ∃ (k : ℕ) (e : Endpoint), s.adapter.endpoints[k]? = some e ∧ e.equipmentID = id
  owned : ∀ id p, s.adapter.pending.lookup id = some p →
    ∃ r, s.results.lookup p.id = some r ∧ r.command.equipmentID = id
  held : ∀ (k : ℕ) e p, s.adapter.endpoints[k]? = some e → (s.poll k).closing = some p →
    s.adapter.pending.lookup e.equipmentID = some p
  finished : ∀ (k : ℕ) e p, s.adapter.endpoints[k]? = some e →
    s.adapter.pending.lookup e.equipmentID = some p → (s.poll k).Finished (s.point k) →
    ClosedCommand s.controller.world p.id
  unfinished : ∀ (k : ℕ) e p, s.adapter.endpoints[k]? = some e →
    s.adapter.pending.lookup e.equipmentID = some p → ¬ (s.poll k).Finished (s.point k) →
    OpenCommand s.controller.world p.id
  settling : ∀ i c t, s.point i = some (.settle c (.acknowledged t)) →
    ∃ p, s.adapter.pending.lookup c.equipmentID = some p ∧ p.id = c.id
  acknowledged : ∀ id r, s.results.lookup id = some r → r.status = .acknowledged →
    ∃ p, s.adapter.pending.lookup r.command.equipmentID = some p ∧ p.id = id

section Invariant

variable {s : Installation}

variable {k i : ℕ} {e : Effect} {p q : Point} {s' : Installation} {a : Answer}
  {next : Point → Thread} {id : CommandID} {pt : PollPoint} {ep : Endpoint} {pc : PendingCommand}

/-- The entries of two workers are about different commands. -/
theorem PendingInv.worker_of_id (h : PendingInv s) {j : ℕ} {e e' : Endpoint}
    {p p' : PendingCommand} (hk : s.adapter.endpoints[k]? = some e)
    (hj : s.adapter.endpoints[j]? = some e') (hp : s.adapter.pending.lookup e.equipmentID = some p)
    (hp' : s.adapter.pending.lookup e'.equipmentID = some p') (hid : p.id = p'.id) : k = j := by
  obtain ⟨r,hr,heq⟩ := h.owned _ p hp
  obtain ⟨r',hr',heq'⟩ := h.owned _ p' hp'
  rw [← hid,hr] at hr'
  obtain rfl := Option.some.inj hr'
  exact worker_unique hk hj (heq.symm.trans heq')

theorem PendingInv.target (h : PendingInv s) (hq : s.point i = some q) (ht : q.target = some id) :
    ∃ e p, s.adapter.endpoints[i]? = some e ∧ p.id = id ∧ (s.poll i).closing = some p ∧
      s.adapter.pending.lookup e.equipmentID = some p := by
  obtain ⟨e,p,he,hid,⟨seen,hpt,_⟩ | ⟨now,seen,hpt,_⟩⟩ := h.threads.target hq ht
  · have hc : (s.poll i).closing = some p := by rw [hpt]; rfl
    exact ⟨e,p,he,hid,hc,h.held i e p he hc⟩
  · have hc : (s.poll i).closing = some p := by rw [hpt]; rfl
    exact ⟨e,p,he,hid,hc,h.held i e p he hc⟩

theorem PendingInv.soleReader (h : PendingInv s) (hp : s.point i = some p) :
    SoleReader s.controller.world i p := by
  intro id hid j q hj hq hclosing
  have htp : p.target = some id := by cases p <;> first | exact hid | cases hid
  have htq : q.target = some id := by cases q <;> first | exact hclosing | cases hclosing
  obtain ⟨e,x,he,hx,_,hl⟩ := h.target hp htp
  obtain ⟨e',y,he',hy,_,hl'⟩ := h.target (i := j) hq htq
  exact hj (h.worker_of_id he he' hl hl' (hx.trans hy.symm)).symm

theorem closing_family (h : WorkerInv s) {e : Endpoint} {p : PendingCommand}
    (he : s.adapter.endpoints[k]? = some e) (hc : (s.poll k).closing = some p)
    (hw : (s.poll k).Waiting) (hq : s.point k = some q) :
    (∃ on, q.Reconciles p.id on) ∨ q.Expires p.id := by
  have hat := h.workers k e he
  cases hpt : s.poll k with
  | reconciling p' _ | expiring p' _ _ =>
    rw [hpt] at hat hc
    obtain rfl := Option.some.inj hc
    obtain ⟨q',hq',hfam⟩ := hat
    obtain rfl : q' = q := by simpa [point,hq',Thread.point] using hq
    first | exact .inl ⟨_,hfam⟩ | exact .inr hfam
  | _ => rw [hpt] at hw hc; first | exact hw.elim | cases hc

theorem waiting_finished (hw : pt.Waiting) (hc : pt.closing ≠ none)
    (q : Option Point) : pt.Finished q ↔ ∃ p, q = some p ∧ p.committed = true := by
  cases pt <;> first | exact Iff.rfl | exact hw.elim | exact absurd rfl hc

theorem finished_of_not_waiting (hw : ¬ pt.Waiting) (q q' : Option Point) :
    pt.Finished q ↔ pt.Finished q' := by
  cases pt <;> first | exact Iff.rfl | exact absurd trivial hw

theorem PendingInv.of_world (h : PendingInv s) (ht : WorkerInv s')
    (hw : s'.controller.world = s.controller.world) (ha : s'.adapter = s.adapter)
    (hpoll : s'.poll = s.poll)
    (hdis : ∀ i c, s'.dispatching i = some c → s.point i = some (.awaiting c) ∧
      ∃ e, s.adapter.endpoint c.equipmentID = some e) : PendingInv s' := by
  have hpoint : s'.point = s.point := by
    funext i
    unfold point
    rw [hw]
  have hresults : s'.results = s.results := by
    unfold results
    rw [hw]
  obtain ⟨_,hl,hr,_,hlo,how,hhe,hfi,hun,hse,hac⟩ := h
  refine ⟨ht,?_,?_,?_,?_,?_,?_,?_,?_,?_,?_⟩
  all_goals simp only [hw,ha,hpoll,hpoint,hresults]
  all_goals assumption

theorem available_of_returned (h : WorkerInv s) {e : Endpoint}
    (he : s.adapter.endpoints[k]? = some e) (hw : (s.poll k).Waiting)
    (hret : ∀ q, s.point k = some q → ∃ reply, q = .returned reply) :
    (s.controller.world.thread k).available = true := by
  have hat := h.workers k e he
  obtain ⟨q,hq⟩ : ∃ q, s.controller.world.thread k = .call q := by
    cases hpt : s.poll k with
    | requesting _ _ | reconciling _ _ | expiring _ _ _ =>
      rw [hpt] at hat
      obtain ⟨q,hq,_⟩ := hat
      exact ⟨q,hq⟩
    | _ => rw [hpt] at hw; exact hw.elim
  obtain ⟨reply,rfl⟩ := hret q (by unfold point; rw [hq]; rfl)
  rw [hq]
  rfl

/-- A step of a call that closes no command does not change what the poll of worker `k` has
finished. -/
theorem PendingInv.finished_advance (h : PendingInv s) (hp : s.point i = some p)
    (hs : Steps s.controller.world.store a p e) (hnext : ∀ q, (next q).point = some q)
    (hemit : s.announces i = true → a.emitted = none) (he : s.adapter.endpoints[k]? = some ep)
    (hpc : s.adapter.pending.lookup ep.equipmentID = some pc) (hclose : ∀ cl, p ≠ .close pc.id cl) :
    (s.poll k).Finished ((s.controller.world.advance i e next).thread k).point ↔
      (s.poll k).Finished (s.point k) := by
  by_cases hki : k = i
  · subst hki
    by_cases hw : (s.poll k).Waiting
    · cases hc : (s.poll k).closing with
      | none => exact iff_of_false (not_finished hc _) (not_finished hc _)
      | some pc' =>
        obtain rfl := Option.mem_unique (h.held k ep pc' he hc) hpc
        have hcom : e.point.committed = p.committed := by
          refine hs.committed (closing_family h.threads he hc hw hp) hclose ?_
          rintro ev r rfl
          exact hemit (by simp [announces,hc,hp])
        have hne : (s.poll k).closing ≠ none := by simp [hc]
        rw [waiting_finished hw hne,waiting_finished hw hne,advance_thread_self,hnext,hp]
        simp [hcom]
    · exact finished_of_not_waiting hw _ _
  · rw [advance_thread_ne _ hki]
    exact Iff.rfl

theorem PendingInv.entry_advance (h : PendingInv s) (hp : s.point i = some p)
    (hs : Steps s.controller.world.store a p e) (hfresh : FreshID s.controller.world i p)
    (hnext : ∀ q, (next q).point = some q) (hemit : s.announces i = true → a.emitted = none)
    (he : s.adapter.endpoints[k]? = some ep)
    (hpc : s.adapter.pending.lookup ep.equipmentID = some pc) :
    ((s.poll k).Finished ((s.controller.world.advance i e next).thread k).point →
      ClosedCommand (s.controller.world.advance i e next) pc.id) ∧
    (¬ (s.poll k).Finished ((s.controller.world.advance i e next).thread k).point →
      OpenCommand (s.controller.world.advance i e next) pc.id) := by
  by_cases hclose : ∃ cl, p = .close pc.id cl
  · obtain ⟨cl,rfl⟩ := hclose
    obtain ⟨hclosed,ev,r,hpoint⟩ :
        ClosedCommand (s.controller.world.advance i e next) pc.id ∧ ∃ ev r, e.point = .emit ev r :=
      close_advance h.lifecycle hp hs
    refine ⟨fun _ => hclosed,fun hnot => absurd ?_ hnot⟩
    obtain ⟨ep',pc',he',hid,hc,hpc'⟩ := h.target hp rfl
    obtain rfl := h.worker_of_id he he' hpc hpc' hid.symm
    have hw : (s.poll k).Waiting := by
      obtain ⟨_,_,_,_,⟨_,hpt,_⟩ | ⟨_,_,hpt,_⟩⟩ := h.threads.target hp rfl
      · rw [hpt]; trivial
      · rw [hpt]; trivial
    rw [waiting_finished hw (by simp [hc]),advance_thread_self,hnext]
    exact ⟨_,rfl,by rw [hpoint]; rfl⟩
  · have hne : ∀ cl, p ≠ .close pc.id cl := fun cl hcl => hclose ⟨cl,hcl⟩
    rw [h.finished_advance hp hs hnext hemit he hpc hne]
    exact ⟨fun hfin => closed_advance h.lifecycle hp hs hfresh (h.finished k ep pc he hpc hfin),
      fun hnot => open_advance h.lifecycle hp hs hfresh (h.unfinished k ep pc he hpc hnot) hne⟩

/-- An acknowledged record after a step was one before, or is the one the step stores. -/
theorem acknowledged_advance {w : World} (h : RecordInv w) (hp : (w.thread i).point = some p)
    (hs : Steps w.store a p e) {r : Result} (hr : e.store.results.lookup id = some r)
    (hst : r.status = .acknowledged) : w.store.results.lookup id = some r ∨
      ∃ c t, p = .settle c (.acknowledged t) ∧ c.id = id ∧ r.command = c := by
  cases hs.writes with
  | nothing _ hsame _ => exact .inl (hsame ▸ hr)
  | record c adm hrec =>
    by_cases hid : id = c.id
    · subst hid
      obtain rfl := Option.mem_unique (recorded_lookup _ _ _ _) hr
      cases adm <;> cases hst
    · exact .inl ((recorded_lookup_ne _ _ _ hid).symm.trans hr)
  | change id' ch r' q hch hr' =>
    simp only [put_results] at hr
    split_ifs at hr with hid
    · subst hid
      obtain rfl := Option.some.inj hr
      rw [change_status] at hst
      cases p with
      | mark c =>
        obtain ⟨_,rfl⟩ : _ ∧ Change.dispatched = ch := by simpa [Point.change] using hch
        cases hst
      | settle c st =>
        obtain ⟨rfl,rfl⟩ : c.id = id ∧ Change.settled st = ch := by
          simpa [Point.change] using hch
        cases st with
        | acknowledged t =>
          obtain ⟨r'',hr'',hcmd⟩ := h.owned i _ c hp rfl
          obtain rfl := Option.mem_unique hr' hr''
          exact .inr ⟨c,t,rfl,rfl,hcmd⟩
        | dispatchFailed => cases hst
        | adapterRejected => cases hst
      | close id' cl =>
        obtain ⟨_,rfl⟩ : _ ∧ Change.closed cl = ch := by simpa [Point.change] using hch
        cases cl <;> cases hst
      | _ => cases hch
    · exact .inl hr

/-- What a step of a call leaves: the points of the other threads, and every entry open or
finished. -/
structure Advanced (s : Installation) (i : ℕ) (e : Effect) (s' : Installation) : Prop where
  threads : WorkerInv s'
  lifecycle : LifecycleInv s'.controller.world
  records : RecordInv s'.controller.world
  others : ∀ j, j ≠ i → s'.point j = s.point j
  own : s'.point i = some e.point
  results : s'.results = e.store.results
  entry : ∀ (k : ℕ) ep pc, s.adapter.endpoints[k]? = some ep →
    s.adapter.pending.lookup ep.equipmentID = some pc →
    ((s.poll k).Finished (s'.point k) → ClosedCommand s'.controller.world pc.id) ∧
    (¬ (s.poll k).Finished (s'.point k) → OpenCommand s'.controller.world pc.id)

theorem PendingInv.advanced (h : PendingInv s) (ht : WorkerInv s')
    (hw : s'.controller.world = s.controller.world.advance i e next) (hp : s.point i = some p)
    (hs : Steps s.controller.world.store a p e) (hfresh : FreshID s.controller.world i p)
    (hnext : ∀ q, (next q).point = some q) (hemit : s.announces i = true → a.emitted = none) :
    Advanced s i e s' where
  threads := ht
  lifecycle := by
    rw [hw]
    exact lifecycle_call _ i a p e next h.lifecycle hp ⟨hfresh,h.soleReader hp⟩ hs hnext
  records := by
    rw [hw]
    exact record_call _ i a p e next h.records hp hfresh hs hnext
  others j hj := by
    unfold point
    rw [hw,advance_thread_ne _ hj]
  own := by
    unfold point
    rw [hw,advance_thread_self,hnext]
  results := by
    unfold results
    rw [hw]
    rfl
  entry k ep pc he hpc := by
    unfold point
    rw [hw]
    exact h.entry_advance hp hs hfresh hnext hemit he hpc

theorem PendingInv.advance (h : PendingInv s) (hadv : Advanced s i e s')
    (ha : s'.adapter = s.adapter) (hpoll : s'.poll = s.poll) (hdis : s'.dispatching = s.dispatching)
    (hp : s.point i = some p) (hs : Steps s.controller.world.store a p e)
    (hfresh : FreshID s.controller.world i p) (hnone : s.dispatching i = none)
    (hset : ∀ c t, e.point ≠ .settle c (.acknowledged t)) : PendingInv s' := by
  refine ⟨hadv.threads,hadv.lifecycle,hadv.records,?_,?_,?_,?_,?_,?_,?_,?_⟩
  · intro j c hj
    rw [hdis] at hj
    have hji : j ≠ i := by
      rintro rfl
      rw [hnone] at hj
      cases hj
    rw [hadv.others j hji,ha]
    exact h.dispatching j c hj
  · rw [ha]
    exact h.located
  · rw [ha,hadv.results]
    intro id pc hpc
    obtain ⟨r,hr,heq⟩ := h.owned id pc hpc
    obtain ⟨r',hr',hcmd⟩ := hs.keeps_record hfresh hr
    exact ⟨r',hr',hcmd ▸ heq⟩
  · rw [ha,hpoll]
    exact h.held
  · rw [ha,hpoll]
    exact fun k ep pc he hpc => (hadv.entry k ep pc he hpc).1
  · rw [ha,hpoll]
    exact fun k ep pc he hpc => (hadv.entry k ep pc he hpc).2
  · rw [ha]
    intro j c t hj
    by_cases hji : j = i
    · subst hji
      rw [hadv.own] at hj
      exact absurd (Option.some.inj hj) (hset c t)
    · rw [hadv.others j hji] at hj
      exact h.settling j c t hj
  · rw [ha,hadv.results]
    intro id r hr hst
    rcases acknowledged_advance h.records hp hs hr hst with hbefore | ⟨c,t,rfl,hid,rfl⟩
    · exact h.acknowledged id r hbefore hst
    · obtain ⟨pc,hpc,hpid⟩ := h.settling i r.command t hp
      exact ⟨pc,hpc,hpid.trans hid⟩

/-- The step of a `Dispatch` that enters its command and goes on to store the acknowledgement. -/
theorem PendingInv.insert (h : PendingInv s) (hadv : Advanced s i e s') {c : Command} {t : ℤ}
    (hstore : e.store = s.controller.world.store) (hpoint : e.point = .settle c (.acknowledged t))
    (ha : s'.adapter = s.adapter.accept c) (hpoll : s'.poll = s.poll)
    (hdis : s'.dispatching = Function.update s.dispatching i none)
    (hep : s.adapter.endpoint c.equipmentID = some ep) (hholds : s.controller.world.store.Holds c)
    (hfree : s.adapter.pending.lookup c.equipmentID = none) : PendingInv s' := by
  have hends : s'.adapter.endpoints = s.adapter.endpoints := by
    rw [ha]
    rfl
  have hresults : s'.results = s.results := by
    rw [hadv.results,hstore]
    rfl
  have hother : ∀ id, id ≠ c.equipmentID →
      s'.adapter.pending.lookup id = s.adapter.pending.lookup id := by
    intro id hid
    rw [ha]
    exact AList.lookup_insert_ne hid
  have hnew : s'.adapter.pending.lookup c.equipmentID = some ⟨c.id,c.on,c.expiresAt⟩ := by
    rw [ha]
    exact AList.lookup_insert _
  have hkept : ∀ id pc, s.adapter.pending.lookup id = some pc →
      s'.adapter.pending.lookup id = some pc := by
    intro id pc hpc
    have hne : id ≠ c.equipmentID := by
      rintro rfl
      rw [hfree] at hpc
      cases hpc
    exact (hother id hne).trans hpc
  obtain ⟨r,hr,rfl⟩ := hholds
  refine ⟨hadv.threads,hadv.lifecycle,hadv.records,?_,?_,?_,?_,?_,?_,?_,?_⟩
  · intro j c' hj
    have hji : j ≠ i := by
      rintro rfl
      simp [hdis] at hj
    rw [hdis,Function.update_of_ne hji] at hj
    rw [hadv.others j hji,ha]
    exact h.dispatching j c' hj
  · rw [hends]
    intro id pc hpc
    by_cases hid : id = r.command.equipmentID
    · obtain ⟨k,hk,heq⟩ := endpoint_worker hep
      exact ⟨k,ep,hk,heq.trans hid.symm⟩
    · exact h.located id pc ((hother id hid).symm.trans hpc)
  · rw [hresults]
    intro id pc hpc
    by_cases hid : id = r.command.equipmentID
    · subst hid
      obtain rfl := Option.mem_unique hnew hpc
      exact ⟨r,hr,rfl⟩
    · exact h.owned id pc ((hother id hid).symm.trans hpc)
  · rw [hends,hpoll]
    exact fun k e' pc he' hc => hkept _ pc (h.held k e' pc he' hc)
  · rw [hends,hpoll]
    intro k e' pc he' hpc hfin
    by_cases hid : e'.equipmentID = r.command.equipmentID
    · -- no poll is closing a command for which there was no entry
      refine absurd hfin (not_finished (Option.eq_none_iff_forall_ne_some.mpr fun pc' hc => ?_) _)
      have hl := h.held k e' pc' he' hc
      rw [hid,hfree] at hl
      cases hl
    · exact (hadv.entry k e' pc he' ((hother _ hid).symm.trans hpc)).1 hfin
  · rw [hends,hpoll]
    intro k e' pc he' hpc hnot
    by_cases hid : e'.equipmentID = r.command.equipmentID
    · rw [hid] at hpc
      obtain rfl := Option.mem_unique hnew hpc
      exact ⟨r,congrArg (·.lookup r.command.id) hresults ▸ hr,
        .inr ⟨i,r.command,t,hpoint ▸ hadv.own,rfl⟩⟩
    · exact (hadv.entry k e' pc he' ((hother _ hid).symm.trans hpc)).2 hnot
  · intro j c' t' hj
    by_cases hji : j = i
    · subst hji
      rw [hadv.own,hpoint] at hj
      obtain ⟨rfl,_⟩ := Point.settle.inj (Option.some.inj hj)
      exact ⟨_,hnew,rfl⟩
    · rw [hadv.others j hji] at hj
      obtain ⟨pc,hpc,hid⟩ := h.settling j c' t' hj
      exact ⟨pc,hkept _ pc hpc,hid⟩
  · rw [hresults]
    intro id r hr hst
    obtain ⟨pc,hpc,hid⟩ := h.acknowledged id r hr hst
    exact ⟨pc,hkept _ pc hpc,hid⟩

theorem PendingInv.move (h : PendingInv s) (ht : WorkerInv s') {t : Thread}
    (hw : s'.controller.world = s.controller.world.move i t) (ha : s'.adapter = s.adapter)
    (hpoll : s'.poll = s.poll) (hdis : s'.dispatching = s.dispatching) (hout : t.Outside)
    (hret : ∀ q, s.point i = some q → ∃ reply, q = .returned reply)
    (hfree : ∀ e, s.adapter.endpoints[i]? = some e → ¬ (s.poll i).Waiting) : PendingInv s' := by
  have hpoint : ∀ j, j ≠ i → s'.point j = s.point j := by
    intro j hj
    unfold point
    rw [hw,move_thread_ne _ hj]
  have hresults : s'.results = s.results := by
    unfold results
    rw [hw]
    rfl
  have hfin : ∀ (k : ℕ) e, s.adapter.endpoints[k]? = some e →
      ((s.poll k).Finished (s'.point k) ↔ (s.poll k).Finished (s.point k)) := by
    intro k e he
    by_cases hki : k = i
    · subst hki
      exact finished_of_not_waiting (hfree e he) _ _
    · rw [hpoint k hki]
  refine ⟨ht,?_,?_,?_,?_,?_,?_,?_,?_,?_,?_⟩
  · rw [hw]
    exact lifecycle_move _ i t h.lifecycle hout
  · rw [hw]
    exact record_move _ i t h.records hout
  · intro j c hj
    rw [hdis] at hj
    obtain ⟨hp,he⟩ := h.dispatching j c hj
    have hji : j ≠ i := by
      rintro rfl
      obtain ⟨reply,hq⟩ := hret _ hp
      cases hq
    rw [hpoint j hji,ha]
    exact ⟨hp,he⟩
  · rw [ha]
    exact h.located
  · rw [ha,hresults]
    exact h.owned
  · rw [ha,hpoll]
    exact h.held
  · rw [ha,hpoll,hw]
    intro k e pc he hpc hdone
    exact h.finished k e pc he hpc ((hfin k e he).mp hdone)
  · rw [ha,hpoll,hw]
    intro k e pc he hpc hnot
    exact open_move hret (h.unfinished k e pc he hpc fun hdone => hnot ((hfin k e he).mpr hdone))
  · rw [ha]
    intro j c t' hj
    by_cases hji : j = i
    · subst hji
      have hentry : (Point.settle c (.acknowledged t')).Entry := by
        refine hout _ ?_
        unfold point at hj
        rwa [hw,move_thread_self] at hj
      exact hentry.elim
    · rw [hpoint j hji] at hj
      exact h.settling j c t' hj
  · rw [ha,hresults]
    exact h.acknowledged

theorem pendingInv_served (h : PendingInv s) (i : ℕ) (a : Answer) (q : PolicyAnswer)
    (d : DispatchAnswer) (hg : s.Orderly (.serve i a q d))
    (hp : ∀ c, s.point i ≠ some (.awaiting c)) (events : List Event) :
    PendingInv { s with controller := s.controller.step (.step i a q), events := events } := by
  have hstep := Controller.step_stepped s.controller i a q
  have ht : WorkerInv { s with controller := s.controller.step (.step i a q), events := events } :=
    workerInv_step h.threads rfl rfl i hstep.world
  have hnone : s.dispatching i = none := by
    cases hd : s.dispatching i with
    | none => rfl
    | some c => exact absurd (h.dispatching i c hd).1 (hp c)
  rcases hstep.answered with hw | ⟨a',hw,hem⟩
  · exact h.of_world ht hw rfl rfl h.dispatching
  · rcases thread_step_cases s.controller.world i a' with hs | ⟨t,hout,hav,hret,hs⟩ |
      ⟨p,next,hpt,hnext,hs⟩
    · exact h.of_world ht (hw.trans hs) rfl rfl h.dispatching
    · refine h.move ht (hw.trans hs) rfl rfl rfl hout.outside hret fun e he hwait => ?_
      have hfree := available_of_returned h.threads he hwait hret
      rw [hav] at hfree
      cases hfree
    · have hadv := h.advanced ht (hw.trans hs) hpt (step_steps _ a' p) (hg.1 p hpt) hnext
        fun hann => hem.trans (hg.2.2 hann)
      refine h.advance hadv rfl rfl rfl hpt (step_steps _ a' p) (hg.1 p hpt) hnone ?_
      intro c t hset
      obtain rfl := (step_steps s.controller.world.store a' p).settles hset
      exact hp c hpt

theorem pendingInv_refused (h : PendingInv s) (i : ℕ) (a : Answer) (q : PolicyAnswer)
    (d : DispatchAnswer) (c : Command) (ack : Except Failure Acknowledgement)
    (hg : s.Orderly (.serve i a q d)) (hp : s.point i = some (.awaiting c))
    (hd : s.dispatching i = none) (hack : ∀ ok, ack = .ok ok → ok.accepted = false) :
    PendingInv { s with controller := s.controller.feed i { a with acknowledgement := ack } } := by
  obtain ⟨next,hnext,hs⟩ := step_point (w := s.controller.world) { a with acknowledgement := ack }
    hp rfl
  have hadv := h.advanced (workerInv_moved h.threads (.refused i a q d c ack hp hd hack)) hs hp
    (step_steps _ _ _) (hg.1 _ hp) hnext hg.2.2
  refine h.advance hadv rfl rfl rfl hp (step_steps _ _ _) (hg.1 _ hp) hd ?_
  intro c' t hset
  exact refused_settlement hack (Point.settle.inj hset).2

theorem pendingInv_inserted (h : PendingInv s) (i : ℕ) (a : Answer) (q : PolicyAnswer)
    (d : DispatchAnswer) (c c' : Command) (hg : s.Orderly (.serve i a q d))
    (hp : s.point i = some (.awaiting c)) (hd : s.dispatching i = some c') : PendingInv
      { s with
        controller := s.controller.feed i
          { a with acknowledgement := .ok ⟨true,"shelly.rpc_accepted",d.now⟩ }
        adapter := s.adapter.accept c'
        dispatching := Function.update s.dispatching i none } := by
  obtain ⟨hp',ep,hep⟩ := h.dispatching i c' hd
  obtain rfl : c = c' := Point.awaiting.inj (Option.mem_unique hp hp')
  obtain ⟨next,hnext,hw⟩ := step_point (w := s.controller.world)
    { a with acknowledgement := .ok ⟨true,"shelly.rpc_accepted",d.now⟩ } hp rfl
  have hadv := h.advanced (workerInv_moved h.threads (.inserted i a q d c c hp hd)) hw hp
    (step_steps _ _ _) (hg.1 _ hp) hnext hg.2.2
  exact h.insert hadv rfl rfl rfl rfl rfl hep (h.records.owned i _ c hp rfl) (hg.2.1 c hd)

end Invariant

end Installation
end AquaOS
