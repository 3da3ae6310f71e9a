import AquaOS.EngineCalls
import AquaOS.RuntimeAccounting
import AquaOS.WorkerThreads

/-! The state a poll reads from its switch against the state the safety engine accounts for. The
engine hears of a reported state only through `Reconcile`, so a status that no live pending
command asks for does not reach it. It agrees with every accepted report as long as each status
is one the engine already has or one a live command asks for. -/
namespace AquaOS

open Domain SafetyEngine Output Transition Shelly Bench

namespace SafetyEngine

@[simp] theorem report_on (r : RuntimeState) (on : Bool) (observedAt : ℤ) :
    (r.report on observedAt).on = on := by
  unfold RuntimeState.report
  split_ifs with hsame hon
  · exact hsame
  · exact hon.symm
  · simpa using hon

theorem recordReported_on (e : Engine) (ctx : Option Failure) (id : EquipmentID) (on : Bool)
    (observedAt : ℤ) (i : EquipmentID) :
    ((e.recordReported ctx id on observedAt).2.runtimeOf i).on = (e.runtimeOf i).on ∨
    i = id ∧ ((e.recordReported ctx id on observedAt).2.runtimeOf i).on = on := by
  by_cases h : ctx = none ∧ observedAt ≠ 0 ∧ id ∈ e.profiles
  · obtain ⟨rfl,hz,hid⟩ := h
    rw [recordReported_accepted hid hz]
    by_cases hi : i = id
    · exact .inr ⟨hi,by simp [runtimeOf_setRuntime,hi]⟩
    · exact .inl (by simp [Engine.accountLocked,runtimeOf_setRuntime,hi])
  · obtain ⟨err,herr⟩ := recordReported_refused h on
    rw [herr]
    exact .inl rfl

theorem recordReported_recorded {e : Engine} {id : EquipmentID} {observedAt : ℤ}
    (hid : id ∈ e.profiles) (hz : observedAt ≠ 0) (on : Bool) :
    ((e.recordReported none id on observedAt).2.runtimeOf id).on = on := by
  rw [recordReported_accepted hid hz]
  simp [runtimeOf_setRuntime]

theorem recordReported_profiles (e : Engine) (ctx : Option Failure) (id : EquipmentID) (on : Bool)
    (observedAt : ℤ) : (e.recordReported ctx id on observedAt).2.profiles = e.profiles := by
  by_cases h : ctx = none ∧ observedAt ≠ 0 ∧ id ∈ e.profiles
  · obtain ⟨rfl,hz,hid⟩ := h
    rw [recordReported_accepted hid hz]
    rfl
  · obtain ⟨err,herr⟩ := recordReported_refused h on
    rw [herr]

end SafetyEngine

namespace Controller

variable {k k' : Controller} {i : ℕ} {a : Answer} {q : PolicyAnswer}

theorem Stepped.profiles (h : Stepped k i a q k') : k'.engine.profiles = k.engine.profiles := by
  cases h with
  | checked ttl ht httl =>
    show (k.engine.checkWatchdogs q.ctx q.clock q.order).2.profiles = _
    unfold Engine.checkWatchdogs
    cases q.ctx with
    | some err => rfl
    | none => exact (checkLocked_sameAccounts k.engine q.clock q.order).profiles
  | reported id c on t hp => exact recordReported_profiles k.engine q.ctx c.equipmentID on t
  | locked c hp he hctx => exact evaluateLocked_profiles k.engine c.intent _
  | _ => rfl

/-- A step of a thread changes a recorded state only by reporting it. -/
theorem Stepped.on (h : Stepped k i a q k') (id : EquipmentID) :
    (k'.engine.runtimeOf id).on = (k.engine.runtimeOf id).on ∨
    ∃ cid c on t, (k.world.thread i).point = some (.report cid c on t) ∧ c.equipmentID = id ∧
      (k'.engine.runtimeOf id).on = on := by
  cases h with
  | checked ttl ht httl =>
    left
    show ((k.engine.checkWatchdogs q.ctx q.clock q.order).2.runtimeOf id).on = _
    unfold Engine.checkWatchdogs
    cases q.ctx with
    | some err => rfl
    | none => exact (checkLocked_swept k.engine q.clock q.order).on id
  | reported cid c on t hp =>
    rcases recordReported_on k.engine q.ctx c.equipmentID on t id with hsame | ⟨hid,hon⟩
    · exact .inl hsame
    · exact .inr ⟨cid,c,on,t,hp,hid.symm,hon⟩
  | locked c hp he hctx =>
    left
    show ((k.engine.evaluateLocked c.intent _).2.runtimeOf id).on = _
    rw [evaluateLocked_runtimeOf]
    split_ifs
    · exact RuntimeState.account_on _ _
    · rfl
  | _ => exact .inl rfl

theorem request_of_point {t : Thread} {p : Point} (h : t.point = some p) :
    t.request = p.request := by
  cases t with
  | call p' | acting ttl actions results p' => exact congrArg (·.bind Point.request) h
  | _ => cases h

theorem Stepped.records (h : Stepped k i a q k') {cid : CommandID} {c : Command} {on : Bool} {t : ℤ}
    (hp : (k.world.thread i).point = some (.report cid c on t)) (hctx : q.ctx = none) (ht : t ≠ 0)
    (hid : c.equipmentID ∈ k.engine.profiles) : (k'.engine.runtimeOf c.equipmentID).on = on := by
  cases h with
  | fed hr =>
    rw [request_of_point hp] at hr
    cases hr
  | checked ttl hth httl =>
    rw [hth] at hp
    cases hp
  | reported cid' c' on' t' hp' =>
    obtain ⟨_,rfl,rfl,rfl⟩ := Point.report.inj (Option.mem_unique hp' hp)
    show ((k.engine.recordReported q.ctx c'.equipmentID on' t').2.runtimeOf _).on = _
    rw [hctx]
    exact recordReported_recorded hid ht on'
  | locked c' hp' he hctx' => rw [hp] at hp'; cases hp'
  | cancelled c' err hp' he hctx' | decided c' ev hp' he => rw [hp] at hp'; cases hp'

end Controller

namespace Output

variable {s : Store} {a : Answer} {id : CommandID} {on : Bool} {t : ℤ}

/-- A `Reconcile` call comes to its report from the record it has read. -/
theorem Steps.reads_report {p : Point} {e : Effect} (h : Steps s a p e)
    {c : Command} (he : e.point = .report id c on t) :
    ∃ r, p = .reconcile id on t ∧ s.results.lookup id = some r ∧ r.command = c ∧ t ≠ 0 := by
  cases h with
  | reconciling id' on' t' r hr hst ht =>
    obtain ⟨rfl,rfl,rfl,rfl⟩ := Point.report.inj he
    exact ⟨r,rfl,hr,rfl,ht⟩
  | reported id' c' on' t' => cases he
  | decided c' d hd => cases he
  | _ => cases he

theorem reconcile_reads {r : Result} (hctx : a.ctx = none) (ht : t ≠ 0)
    (hr : s.results.lookup id = some r) (hst : r.status = .acknowledged) :
    ((Point.reconcile id on t).step s a).point = .report id r.command on t := by
  simp [Point.step,hctx,ht,hr,hst]

/-- A `Reconcile` call that has not recorded the reported state yet. -/
def Point.unrecorded : Point → Bool
  | .reconcile _ _ _ | .report _ _ _ _ => true
  | _ => false

end Output

namespace Shelly

def Next.compared : Next → Option Seen
  | .finish seen => seen
  | _ => none

/-- The status a poll has read, reported and compared with the pending command. -/
def PollPoint.compared : PollPoint → Option Seen
  | .idle seen | .expire _ _ seen | .expiring _ _ seen | .drop _ _ seen => seen
  | .observe _ next | .mark _ _ next | .requesting _ next => next.compared
  | .forget _ seen => some seen
  | _ => none

theorem next_compared (next : Next) (errs : List Failure) :
    (next.point errs).compared = next.compared := by
  cases next <;> rfl

section Steps

variable {a : Adapter} {s : Site} {e : Endpoint} {reply : Option Reply} {pt : PollPoint}
  {eff : PollEffect} {seen : Seen}

/-- A status counts as compared after the lookup found no live command asking for it, or after
the `Reconcile` of the one that does. -/
theorem PollSteps.compared (h : PollSteps a s e reply pt eff)
    (hs : eff.point.compared = some seen) : pt.compared = some seen ∨
    (∃ now, pt = .look seen now ∧ ∀ p, a.pending.lookup e.equipmentID = some p →
      ¬ (now < p.expiresAt ∧ seen.status.output = p.want)) ∨
    ∃ p r, pt = .reconciling p seen ∧ reply = some r := by
  cases h with
  | unknown f next s' err => exact .inl ((next_compared next [err]).symm.trans hs)
  | marked f err next => exact .inl ((next_compared next err.toList).symm.trans hs)
  | answered errs next r hr =>
    exact .inl ((next_compared next (errs++r.err.toList)).symm.trans hs)
  | observed f next s' err => exact .inl hs
  | requested f err next => exact .inl hs
  | waits p hp hr => exact .inl hs
  | nothing seen' now hp =>
    obtain rfl := Option.some.inj hs
    exact .inr (.inl ⟨now,rfl,fun p hp' => by rw [hp] at hp'; cases hp'⟩)
  | unmet seen' now p hp hwant =>
    obtain rfl := Option.some.inj hs
    refine .inr (.inl ⟨now,rfl,fun p' hp' hmet => hwant ?_⟩)
    obtain rfl := Option.mem_unique hp hp'
    exact hmet.2
  | late seen' now p hp hlate =>
    obtain rfl := Option.some.inj hs
    refine .inr (.inl ⟨now,rfl,fun p' hp' hmet => ?_⟩)
    obtain rfl := Option.mem_unique hp hp'
    exact absurd hmet.1 (not_lt.mpr hlate)
  | reconciled p seen' r hr herr | unreconciled p seen' r hr herr =>
    obtain rfl := Option.some.inj hs
    exact .inr (.inr ⟨p,r,rfl,hr⟩)
  | forgotten p seen' => exact .inl hs
  | kept now force seen' => exact .inl hs
  | due now force seen' p hp => exact .inl hs
  | expired p now seen' r hr herr => exact .inl hs
  | unexpired p now seen' r hr herr => exact .inl hs
  | dropped p now seen' => exact .inl hs
  | _ => cases hs

/-- A poll that stands at its `Reconcile` waits there or has just called it. -/
theorem PollSteps.calls_reconcile (h : PollSteps a s e reply pt eff) {p : PendingCommand}
    (hp : eff.point = .reconciling p seen) : (pt = .reconciling p seen ∧ eff.call = none) ∨
    ∃ now, eff.call = some (.reconcile p.id seen.status.output now) := by
  cases h with
  | matched seen' now p' hlook hlive hwant =>
    obtain ⟨rfl,rfl⟩ : p' = p ∧ seen' = seen := by simpa using hp
    exact .inr ⟨now,rfl⟩
  | waits pt hw hr => exact .inl ⟨hp,rfl⟩
  | unknown f next s' err => cases next <;> cases hp
  | marked f err next => cases next <;> cases hp
  | answered errs next r hr => cases next <;> cases hp
  | _ => cases hp

end Steps

end Shelly

namespace Installation

def recordedOn (s : Installation) (id : EquipmentID) : Bool := (s.controller.engine.runtimeOf id).on

/-- What a `Reconcile` of the worker of `e` meets: a record of its equipment and, unless the
engine has the state already, no reason to turn the call or its report away. -/
def Admits (s : Installation) (e : Endpoint) (a : Answer) (q : PolicyAnswer) : Point → Prop
  | .reconcile id on t =>
    (∀ r ∈ s.results.lookup id, r.command.equipmentID = e.equipmentID) ∧
    (s.recordedOn e.equipmentID = on ∨
      a.ctx = none ∧ t ≠ 0 ∧ ∃ r ∈ s.results.lookup id, r.status = .acknowledged)
  | .report _ _ on _ => s.recordedOn e.equipmentID = on ∨ q.ctx = none
  | _ => True

/-- The status of an accepted report is one the engine has, or one a live pending command asks
for. -/
def Foreseen (s : Installation) (e : Endpoint) : PollPoint → Prop
  | .look seen now =>
    seen.errs = [] → s.recordedOn e.equipmentID = seen.status.output ∨
      ∃ p ∈ s.adapter.pending.lookup e.equipmentID, now < p.expiresAt ∧ seen.status.output = p.want
  | _ => True

def Followed (s : Installation) : Move → Prop
  | .serve i a q _ => ∀ e ∈ s.adapter.endpoints[i]?, ∀ p ∈ s.point i, s.Admits e a q p
  | .poll k _ => ∀ e ∈ s.adapter.endpoints[k]?, s.Foreseen e (s.poll k)
  | _ => True

instance (s : Installation) (e : Endpoint) (a : Answer) (q : PolicyAnswer) :
    DecidablePred (s.Admits e a q)
  | .reconcile _ _ _ => inferInstanceAs (Decidable (_ ∧ _))
  | .report _ _ on _ => inferInstanceAs (Decidable (s.recordedOn e.equipmentID = on ∨ q.ctx = none))
  | .submit _ | .lookup _ | .expiry _ | .revision _ | .evaluate _ | .record _ _ | .recorded _ _ _
  | .mark _ | .marked _ _ | .dispatch _ | .awaiting _ | .settle _ _ | .expireAcknowledged _ _ _
  | .close _ _ | .emit _ _ | .get _ | .returned _ => .isTrue trivial

instance (s : Installation) (e : Endpoint) : DecidablePred (s.Foreseen e)
  | .look _ _ => inferInstanceAs (Decidable (_ → _))
  | .idle _ | .config | .status | .snapshot _ _ | .report _ _ _ | .observe _ _ | .mark _ _ _
  | .requesting _ _ | .reconciling _ _ | .forget _ _ | .expire _ _ _ | .expiring _ _ _
  | .drop _ _ _ => .isTrue trivial

instance (s : Installation) : DecidablePred s.Followed
  | .serve i a q _ =>
    inferInstanceAs (Decidable (∀ e ∈ s.adapter.endpoints[i]?, ∀ p ∈ s.point i, s.Admits e a q p))
  | .poll k _ => inferInstanceAs (Decidable (∀ e ∈ s.adapter.endpoints[k]?, s.Foreseen e (s.poll k)))
  | .call _ _ | .alarm _ => .isTrue trivial

def Profiled (s : Installation) : Prop :=
  ∀ e ∈ s.adapter.endpoints, e.equipmentID ∈ s.controller.engine.profiles

/-- The recorded states against what the polls have seen. -/
structure ReportInv (s : Installation) : Prop where
  threads : WorkerInv s
  profiled : s.Profiled
  reports : ∀ (k : ℕ) e id c on t, s.adapter.endpoints[k]? = some e →
    s.point k = some (.report id c on t) → c.equipmentID = e.equipmentID ∧ t ≠ 0
  compared : ∀ (k : ℕ) e seen, s.adapter.endpoints[k]? = some e →
    (s.poll k).compared = some seen → seen.errs = [] →
    s.recordedOn e.equipmentID = seen.status.output
  reconciling : ∀ (k : ℕ) e p seen, s.adapter.endpoints[k]? = some e →
    s.poll k = .reconciling p seen → seen.errs = [] →
    s.recordedOn e.equipmentID = seen.status.output ∨
      ∃ q, s.point k = some q ∧ q.unrecorded = true

section Invariant

variable {s : Installation}

variable {i k : ℕ} {c : Command} {s' : Installation} {id : CommandID} {on : Bool} {t : ℤ}
  {e : Endpoint} {a : Answer}

/-- A thread at its report is a worker's, and reports what its poll has seen. -/
theorem ReportInv.reporting (h : ReportInv s) (hp : s.point i = some (.report id c on t)) :
    ∃ e p seen, s.adapter.endpoints[i]? = some e ∧ c.equipmentID = e.equipmentID ∧ t ≠ 0 ∧
      s.poll i = .reconciling p seen ∧ seen.status.output = on := by
  obtain ⟨e,p,he,_,⟨seen,hpt,hfam⟩ | ⟨now,seen,hpt,hfam⟩⟩ := h.threads.target hp rfl
  · exact ⟨e,p,seen,he,(h.reports i e id c on t he hp).1,(h.reports i e id c on t he hp).2,hpt,
      hfam.2.symm⟩
  · exact hfam.elim

theorem reconciling_point (h : WorkerInv s) {p : PendingCommand}
    {seen : Seen} (he : s.adapter.endpoints[k]? = some e) (hpt : s.poll k = .reconciling p seen) :
    ∃ q, s.controller.world.thread k = .call q ∧ s.point k = some q ∧
      q.Reconciles p.id seen.status.output := by
  have hat := h.workers k e he
  rw [hpt] at hat
  obtain ⟨q,hq,hfam⟩ := hat
  exact ⟨q,hq,by unfold point; rw [hq]; rfl,hfam⟩

/-- What a thread's step that reports nothing leaves. -/
theorem ReportInv.quiet (h : ReportInv s) (ht : WorkerInv s')
    (ha : s'.adapter.endpoints = s.adapter.endpoints) (hpoll : s'.poll = s.poll)
    (hprof : s'.controller.engine.profiles = s.controller.engine.profiles)
    (hon : ∀ id, s'.recordedOn id = s.recordedOn id)
    (hreports : ∀ (k : ℕ) e id c on t, s.adapter.endpoints[k]? = some e →
      s'.point k = some (.report id c on t) → c.equipmentID = e.equipmentID ∧ t ≠ 0)
    (hwaits : ∀ (k : ℕ) e p seen q, s.adapter.endpoints[k]? = some e →
      s.poll k = .reconciling p seen → s.point k = some q → q.unrecorded = true →
      s.recordedOn e.equipmentID = seen.status.output ∨
        ∃ q', s'.point k = some q' ∧ q'.unrecorded = true) : ReportInv s' := by
  refine ⟨ht,?_,?_,?_,?_⟩
  · unfold Profiled
    rw [ha,hprof]
    exact h.profiled
  · rw [ha]
    exact hreports
  · rw [ha,hpoll]
    intro k e seen he hs herr
    rw [hon]
    exact h.compared k e seen he hs herr
  · rw [ha,hpoll]
    intro k e p seen he hpt herr
    rw [hon]
    rcases h.reconciling k e p seen he hpt herr with hrec | ⟨q,hq,hun⟩
    · exact .inl hrec
    · exact hwaits k e p seen q he hpt hq hun

theorem ReportInv.same (h : ReportInv s) (ht : WorkerInv s')
    (ha : s'.adapter.endpoints = s.adapter.endpoints) (hpoll : s'.poll = s.poll)
    (hk : s'.controller = s.controller) : ReportInv s' := by
  have hpoint : s'.point = s.point := by
    funext i
    unfold point
    rw [hk]
  refine h.quiet ht ha hpoll (by rw [hk]) (fun id => by unfold recordedOn; rw [hk]) ?_ ?_
  · rw [hpoint]
    exact h.reports
  · rw [hpoint]
    exact fun k e p seen q _ _ hq hun => .inr ⟨q,hq,hun⟩

/-- A step of a thread, from what it reads: the guard keeps reports to the worker's own
equipment. -/
theorem ReportInv.reports_step (h : ReportInv s) {b : Answer} {q : PolicyAnswer}
    (hg : ∀ e ∈ s.adapter.endpoints[i]?, ∀ p ∈ s.point i, s.Admits e a q p) {w : World}
    (hw : w = s.controller.world ∨ w = s.controller.world.step (.step i b)) (k : ℕ)
    (e : Endpoint) (id : CommandID) (c : Command) (on : Bool) (t : ℤ)
    (he : s.adapter.endpoints[k]? = some e)
    (hp : (w.thread k).point = some (.report id c on t)) : c.equipmentID = e.equipmentID ∧ t ≠ 0 := by
  by_cases hki : k = i
  · subst hki
    rcases hw with rfl | rfl
    · exact h.reports k e id c on t he hp
    · rcases thread_step_cases s.controller.world k b with hs | ⟨t',hout,_,_,hs⟩ |
        ⟨p,next,hpt,hnext,hs⟩
      · rw [hs] at hp
        exact h.reports k e id c on t he hp
      · rw [hs,move_thread_self] at hp
        exact (hout.outside _ hp).elim
      · rw [hs,advance_thread_self,hnext] at hp
        obtain ⟨r,rfl,hr,rfl,ht⟩ :=
          (step_steps s.controller.world.store b p).reads_report (Option.some.inj hp)
        exact ⟨(hg e he _ hpt).1 r hr,ht⟩
  · rcases hw with rfl | rfl
    · exact h.reports k e id c on t he hp
    · rw [step_thread_ne _ (.step i b) hki] at hp
      exact h.reports k e id c on t he hp

/-- A thread that answers no `Reconcile` records nothing. -/
theorem reportInv_fed (h : ReportInv s) (ht : WorkerInv s')
    (ha : s'.adapter.endpoints = s.adapter.endpoints) (hpoll : s'.poll = s.poll)
    (hk : s'.controller = s.controller.feed i a)
    (hp : s.point i = some (.awaiting c)) : ReportInv s' := by
  have hpoint : ∀ j, j ≠ i → s'.point j = s.point j := by
    intro j hj
    unfold point
    rw [hk]
    exact congrArg Thread.point (step_thread_ne s.controller.world (.step i a) hj)
  refine h.quiet ht ha hpoll (by rw [hk]; rfl) (fun id => by unfold recordedOn; rw [hk]; rfl) ?_ ?_
  · intro k e id c' on t he hr
    by_cases hki : k = i
    · subst hki
      obtain ⟨next,hnext,hs⟩ := step_point (w := s.controller.world) a hp rfl
      unfold point at hr
      rw [hk,show (s.controller.feed k a).world = s.controller.world.step (.step k a) from rfl,hs,
        advance_thread_self,hnext] at hr
      obtain ⟨r,hrec,_⟩ :=
        (step_steps s.controller.world.store a (.awaiting c)).reads_report (Option.some.inj hr)
      cases hrec
    · rw [hpoint k hki] at hr
      exact h.reports k e id c' on t he hr
  · intro k e p seen q he hpt hq hun
    have hki : k ≠ i := by
      rintro rfl
      obtain rfl := Option.mem_unique hp hq
      cases hun
    exact .inr ⟨q,(hpoint k hki).trans hq,hun⟩

/-- The step in which a worker's `Reconcile` reports to the engine. -/
theorem reportInv_reported (h : ReportInv s) (i : ℕ) (a : Answer) (q : PolicyAnswer)
    (d : DispatchAnswer) (hg : s.Followed (.serve i a q d)) (events : List Event)
    (hp : s.point i = some (.report id c on t)) :
    ReportInv { s with controller := s.controller.step (.step i a q), events := events } := by
  have hstep := Controller.step_stepped s.controller i a q
  have ht : WorkerInv { s with controller := s.controller.step (.step i a q), events := events } :=
    workerInv_step h.threads rfl rfl i hstep.world
  obtain ⟨e,pc,seen,he,heq,hz,hpt,hout⟩ := h.reporting hp
  have hother : ∀ id', id' ≠ e.equipmentID →
      ((s.controller.step (.step i a q)).engine.runtimeOf id').on = s.recordedOn id' := by
    intro id' hne
    rcases hstep.on id' with hsame | ⟨cid,c',on',t',hp',hid,_⟩
    · exact hsame
    · obtain ⟨_,rfl,_⟩ := Point.report.inj (Option.mem_unique hp' hp)
      exact absurd (hid.symm.trans heq) hne
  have hown : ((s.controller.step (.step i a q)).engine.runtimeOf e.equipmentID).on = on := by
    rcases hg e he _ hp with hrec | hctx
    · rcases hstep.on e.equipmentID with hsame | ⟨cid,c',on',t',hp',_,hon⟩
      · exact hsame.trans hrec
      · obtain ⟨_,_,rfl,_⟩ := Point.report.inj (Option.mem_unique hp' hp)
        exact hon
    · have hprof : c.equipmentID ∈ s.controller.engine.profiles := by
        rw [heq]
        exact h.profiled e (List.mem_of_getElem? he)
      rw [← heq]
      exact hstep.records hp hctx hz hprof
  refine ⟨ht,?_,?_,?_,?_⟩
  · intro e' he'
    rw [show (s.controller.step (.step i a q)).engine.profiles = _ from hstep.profiles]
    exact h.profiled e' he'
  · obtain hw | ⟨a',hw⟩ := hstep.world
    · exact h.reports_step (b := a) hg (.inl hw)
    · exact h.reports_step hg (.inr hw)
  · intro k e' seen' he' hs herr
    have hki : k ≠ i := by
      rintro rfl
      rw [show (s.poll k) = _ from hpt] at hs
      cases hs
    have hne : e'.equipmentID ≠ e.equipmentID := fun heq' => hki (worker_unique he' he heq')
    exact (hother _ hne).trans (h.compared k e' seen' he' hs herr)
  · intro k e' p' seen' he' hpt' herr
    by_cases hki : k = i
    · subst hki
      obtain rfl := Option.mem_unique he he'
      obtain ⟨_,rfl⟩ : pc = p' ∧ seen = seen' := PollPoint.reconciling.inj (hpt.symm.trans hpt')
      exact .inl (hown.trans hout.symm)
    · have hne : e'.equipmentID ≠ e.equipmentID := fun heq' => hki (worker_unique he' he heq')
      rcases h.reconciling k e' p' seen' he' hpt' herr with hrec | ⟨q',hq',hun⟩
      · exact .inl ((hother _ hne).trans hrec)
      · exact .inr ⟨q',(congrArg Thread.point (hstep.thread_ne hki)).trans hq',hun⟩

theorem reportInv_served (h : ReportInv s) (i : ℕ) (a : Answer) (q : PolicyAnswer)
    (d : DispatchAnswer) (hg : s.Followed (.serve i a q d)) (events : List Event) :
    ReportInv { s with controller := s.controller.step (.step i a q), events := events } := by
  by_cases hrep : ∃ id c on t, s.point i = some (.report id c on t)
  · obtain ⟨id,c,on,t,hp⟩ := hrep
    exact reportInv_reported h i a q d hg events hp
  have hstep := Controller.step_stepped s.controller i a q
  refine h.quiet (workerInv_step h.threads rfl rfl i hstep.world) rfl rfl hstep.profiles ?_ ?_ ?_
  · intro id
    rcases hstep.on id with hsame | ⟨cid,c,on,t,hp,_⟩
    · exact hsame
    · exact absurd ⟨cid,c,on,t,hp⟩ hrep
  · obtain hw | ⟨a',hw⟩ := hstep.world
    · exact h.reports_step (b := a) hg (.inl hw)
    · exact h.reports_step hg (.inr hw)
  · intro k e p seen q' he hpt hq' hun
    by_cases hki : k = i
    · subst hki
      obtain ⟨q'',hth,hq'',hfam⟩ := reconciling_point h.threads he hpt
      obtain rfl := Option.mem_unique hq' hq''
      cases q' with
      | report id c on t => exact absurd ⟨id,c,on,t,hq'⟩ hrep
      | reconcile id on t =>
        obtain ⟨_,rfl⟩ := hfam
        rcases (hg e he _ hq').2 with hrec | ⟨hctx,hz,r,hr,hst⟩
        · exact .inl hrec
        · refine .inr ⟨.report id r.command seen.status.output t,?_,rfl⟩
          show ((s.controller.step (.step k a q)).world.thread k).point = _
          rw [Controller.step_of_no_request (Controller.request_of_point hq'),Controller.feed,
            step_call hth a]
          exact congrArg some (reconcile_reads hctx hz hr hst)
      | _ => cases hun
    · exact .inr ⟨q',(congrArg Thread.point (hstep.thread_ne hki)).trans hq',hun⟩

theorem reportInv_called (h : ReportInv s) (c : ClientCall) (hi : s.adapter.endpoints.length ≤ i) :
    ReportInv { s with controller := s.controller.step (.start i c.operation) } := by
  have hpoint : ∀ k, k < s.adapter.endpoints.length →
      ((s.controller.step (.start i c.operation)).world.thread k).point = s.point k :=
    fun k hk => congrArg Thread.point (start_ne s.controller.world (by omega) c.operation)
  refine h.quiet (workerInv_called h.threads c hi) rfl rfl rfl (fun _ => rfl) ?_ ?_
  · intro k e id c' on t he hp
    exact h.reports k e id c' on t he ((hpoint k (lt_of_endpoint he)).symm.trans hp)
  · exact fun k e p seen q he _ hq hun => .inr ⟨q,(hpoint k (lt_of_endpoint he)).trans hq,hun⟩

theorem reportInv_polled (h : ReportInv s) {x : PollAnswer}
    {eff : PollEffect} (hg : s.Followed (.poll k x)) (he : s.adapter.endpoints[k]? = some e)
    (heff : PollSteps s.adapter s.site e (s.reply k) (s.poll k) eff) :
    ReportInv (s.apply k e eff) := by
  have hengine : (s.apply k e eff).controller.engine = s.controller.engine := by
    unfold apply
    dsimp only
    cases eff.call <;> rfl
  have hon : ∀ id, (s.apply k e eff).recordedOn id = s.recordedOn id := by
    intro id
    unfold recordedOn
    rw [hengine]
  have hpoint : ∀ j, j ≠ k → (s.apply k e eff).point j = s.point j := fun j hj =>
    congrArg Thread.point (Moved.thread (.polled k x e eff he heff) hj)
  refine ⟨workerInv_polled h.threads he heff,?_,?_,?_,?_⟩
  · unfold Profiled
    rw [apply_endpoints,hengine]
    exact h.profiled
  · rw [apply_endpoints]
    intro j e' id c on t he' hp
    by_cases hjk : j = k
    · subst hjk
      unfold point at hp
      cases hcall : eff.call with
      | some op =>
        rw [(apply_starts h.threads he heff hcall).2,move_thread_self] at hp
        exact (operation_outside op _ hp).elim
      | none =>
        rw [apply_rests hcall] at hp
        exact h.reports j e' id c on t he' hp
    · rw [hpoint j hjk] at hp
      exact h.reports j e' id c on t he' hp
  · rw [apply_endpoints]
    intro j e' seen he' hs herr
    rw [hon]
    by_cases hjk : j = k
    · subst hjk
      obtain rfl := Option.mem_unique he he'
      rw [apply_poll_self] at hs
      rcases heff.compared hs with hbefore | ⟨now,hpt,hnone⟩ | ⟨p,r,hpt,hr⟩
      · exact h.compared j e seen he hbefore herr
      · have hfor := hg e he
        rw [hpt] at hfor
        rcases hfor herr with hrec | ⟨p,hp,hmet⟩
        · exact hrec
        · exact absurd hmet (hnone p hp)
      · rcases h.reconciling j e p seen he hpt herr with hrec | ⟨q,hq,hun⟩
        · exact hrec
        · obtain rfl := Option.mem_unique hq (point_of_reply hr)
          cases hun
    · rw [apply_poll_ne hjk] at hs
      exact h.compared j e' seen he' hs herr
  · rw [apply_endpoints]
    intro j e' p seen he' hpt herr
    rw [hon]
    by_cases hjk : j = k
    · subst hjk
      obtain rfl := Option.mem_unique he he'
      rw [apply_poll_self] at hpt
      rcases heff.calls_reconcile hpt with ⟨hbefore,hnone⟩ | ⟨now,hcall⟩
      · rcases h.reconciling j e p seen he hbefore herr with hrec | ⟨q,hq,hun⟩
        · exact .inl hrec
        · refine .inr ⟨q,?_,hun⟩
          unfold point
          rw [apply_rests hnone]
          exact hq
      · refine .inr ⟨.reconcile p.id seen.status.output now,?_,rfl⟩
        unfold point
        rw [(apply_starts h.threads he heff hcall).2,move_thread_self]
        rfl
    · rw [apply_poll_ne hjk] at hpt
      rcases h.reconciling j e' p seen he' hpt herr with hrec | ⟨q,hq,hun⟩
      · exact .inl hrec
      · exact .inr ⟨q,(hpoint j hjk).trans hq,hun⟩

theorem reportInv_moved (s : Installation) (m : Move) (s' : Installation) (h : ReportInv s)
    (hg : s.Followed m) (hm : Moved s m s') : ReportInv s' := by
  have ht := workerInv_moved h.threads hm
  cases hm with
  | rests _ => exact h
  | alarmed c => exact h.same ht rfl rfl rfl
  | called i c hi => exact reportInv_called h c hi
  | served i a q d hp => exact reportInv_served h i a q d hg _
  | inserted i a q d c c' hp hd => exact reportInv_fed h ht rfl rfl rfl hp
  | accepted i a q d c e hp hd he hc => exact h.same ht rfl rfl rfl
  | refused i a q d c ack hp hd hack => exact reportInv_fed h ht rfl rfl rfl hp
  | polled k x e eff he heff => exact reportInv_polled h hg he heff

theorem Initial.reportInv (h : Initial s) (hprof : s.Profiled) : ReportInv s := by
  refine ⟨h.workerInv,hprof,?_,?_,?_⟩
  · intro k e id c on t _ hp
    unfold point at hp
    rw [h.world] at hp
    cases hp
  · intro k e seen _ hs
    rw [h.poll] at hs
    cases hs
  · intro k e p seen _ hpt
    rw [h.poll] at hpt
    cases hpt

end Invariant

/-- After every poll that obtained a status and whose report was accepted, the engine has
recorded the state the switch reported, in every run in which each such status is one the
engine has already or one a live pending command asks for, and no `Reconcile` of such a
command is turned away. -/
theorem recorded_follows_reported {s : Installation} (h : Initial s) (hprof : s.Profiled)
    (ms : List Move) (hg : Guarded step Followed s ms) (k : ℕ) (e : Endpoint) (st : SwitchStatus)
    (he : (run step s ms).adapter.endpoints[k]? = some e)
    (hk : (run step s ms).poll k = .idle (some ⟨st,[]⟩)) :
    (run step s ms).recordedOn e.equipmentID = st.output := by
  have hinv := invariant reportInv_moved (h.reportInv hprof) hg
  exact hinv.compared k e ⟨st,[]⟩ he (by rw [hk]; rfl) rfl

theorem outletRig_profiled : outletRig.Profiled := by
  unfold Profiled
  decide

theorem lamp_recorded :
    (run step outletRig lampConfirmed).poll 0 = .idle (some ⟨switchedOn,[]⟩) ∧
    (run step outletRig lampConfirmed).recordedOn outletSwitch.equipmentID = true := by
  have hidle : (run step outletRig lampConfirmed).poll 0 = .idle (some ⟨switchedOn,[]⟩) := by
    decide +kernel
  exact ⟨hidle,recorded_follows_reported outletRig_initial outletRig_profiled lampConfirmed
    (by decide +kernel) 0 outletSwitch switchedOn (by decide +kernel) hidle⟩

/-- Someone switches the outlet on by hand. The poll reports it and has the safe command
submitted; nothing tells the engine that the outlet is on. -/
def manualOn : List Move :=
  polls 0 7++List.replicate 15 (.serve 0
    { commandID := .ok lampOn.id, correlationID := .ok lampOn.correlationID } {}
    { now := newYear })++polls 0 2

theorem manual_on_unrecorded :
    ¬ ∀ (s : Installation) (ms : List Move), Initial s → s.Profiled →
      ∀ (k : ℕ) (e : Endpoint) (st : SwitchStatus),
        (run step s ms).adapter.endpoints[k]? = some e →
        (run step s ms).poll k = .idle (some ⟨st,[]⟩) →
        (run step s ms).recordedOn e.equipmentID = st.output := by
  intro h
  have hon := h outletRig manualOn outletRig_initial outletRig_profiled 0 outletSwitch switchedOn
    (by decide +kernel) (by decide +kernel)
  have hoff : (run step outletRig manualOn).recordedOn outletSwitch.equipmentID = false := by
    decide +kernel
  rw [hoff] at hon
  cases hon

end Installation
end AquaOS
