import AquaOS.OutputSystem

/-! The command lifecycle under every interleaving. A call inside its write window relies
on the status it left or read; the record keeps to the lifecycle as long as no two calls
rely on one record and no call records over another command's ID. -/
namespace AquaOS
namespace Output

open Domain SafetyEngine Transition

/-- What may be stored first under an ID, and what may replace a stored status. -/
def Follows : Option Status → Status → Prop
  | none, s => s = .validated ∨ s = .rejected ∨ s = .expired
  | some .validated, s => s = .dispatched
  | some .dispatched, s => s = .acknowledged ∨ s = .failed
  | some .acknowledged, s => s = .succeeded ∨ s = .failed ∨ s = .expired
  | some _, _ => False

def Status.Terminal (s : Status) : Prop :=
  s = .succeeded ∨ s = .failed ∨ s = .expired ∨ s = .rejected

theorem Status.Terminal.last {s : Status} (h : s.Terminal) (t : Status) : ¬ Follows (some s) t := by
  rcases h with rfl | rfl | rfl | rfl <;> exact id

def Act.statusOf (id : CommandID) : Act → Option Status
  | .stored id' r => if id' = id then some r.status else none
  | _ => none

def statuses (log : List Act) (id : CommandID) : List Status := log.filterMap (Act.statusOf id)

theorem statuses_quiet {acts log : List Act} (h : ∀ act ∈ acts, act.isStored = false)
    (id : CommandID) : statuses (acts++log) id = statuses log id := by
  have hnone : acts.filterMap (Act.statusOf id) = [] := by
    rw [List.filterMap_eq_nil_iff]
    intro act hact
    have := h act hact
    cases act <;> first | rfl | simp [Act.isStored] at this
  simp [statuses,hnone]

theorem statuses_stored (log : List Act) (id id' : CommandID) (r : Result) :
    statuses (.stored id r::log) id' =
      if id = id' then r.status::statuses log id' else statuses log id' := by
  unfold statuses
  rw [List.filterMap_cons]
  by_cases h : id = id' <;> simp [Act.statusOf,h]

def Point.expects : Point → Option (CommandID × Status)
  | .recorded c .validated _ | .mark c => some (c.id,.validated)
  | .marked c _ | .dispatch c | .awaiting c | .settle c _ => some (c.id,.dispatched)
  | .report id _ _ _ | .close id _ => some (id,.acknowledged)
  | _ => none

/-- `Reconcile` or `ExpireAcknowledged` between its read and its write. -/
def Point.closing : Point → Option CommandID
  | .report id _ _ _ | .close id _ => some id
  | _ => none

/-- `Reconcile` or `ExpireAcknowledged` about to read. -/
def Point.reads : Point → Option CommandID
  | .reconcile id _ _ | .expireAcknowledged id _ _ => some id
  | _ => none

variable {p : Point} {id : CommandID}

theorem closing_of_expects (h : p.expects = some (id,.acknowledged)) : p.closing = some id := by
  cases p with
  | recorded c a r => cases a <;> simp [Point.expects] at h
  | report i c on t | close i cl => simpa [Point.expects,Point.closing] using h
  | _ => simp [Point.expects] at h

theorem entry_expects (h : p.Entry) : p.expects = none := by
  cases p <;> first | rfl | exact absurd h id

/-- The change a point makes follows the status it relies on. -/
theorem change_follows {ch : Change} (h : p.change = some (id,ch)) :
    ∃ st, p.expects = some (id,st) ∧ Follows (some st) ch.status := by
  cases p with
  | mark c =>
    obtain ⟨rfl,rfl⟩ : c.id = id ∧ Change.dispatched = ch := by simpa [Point.change] using h
    exact ⟨.validated,rfl,rfl⟩
  | settle c st =>
    obtain ⟨rfl,rfl⟩ : c.id = id ∧ Change.settled st = ch := by simpa [Point.change] using h
    refine ⟨.dispatched,rfl,?_⟩
    cases st <;> simp [Change.status,Follows]
  | close i cl =>
    obtain ⟨rfl,rfl⟩ : i = id ∧ Change.closed cl = ch := by simpa [Point.change] using h
    refine ⟨.acknowledged,rfl,?_⟩
    cases cl <;> simp [Change.status,Follows]
  | _ => simp [Point.change] at h

theorem admission_follows (a : Admission) : Follows none a.status := by
  cases a <;> simp [Admission.status,Follows]

/-- Where the reliance of the point a step ends in comes from: there is none, it is the
one before, the step has written it, or the step has read an acknowledged record. -/
inductive Relies (s : Store) (p : Point) (e : Effect) : Prop
  | nothing (h : e.point.expects = none)
  | same (h : e.point.expects = p.expects) (hs : e.store = s)
  | wrote (id : CommandID) (r : Result) (h : e.point.expects = some (id,r.status))
      (hs : e.store.results.lookup id = some r)
      (hp : (∃ st, p.expects = some (id,st)) ∨ ∃ c a, p = .record c a ∧ c.id = id)
  | read (id : CommandID) (r : Result) (hp : p.reads = some id)
      (hr : s.results.lookup id = some r) (hst : r.status = .acknowledged)
      (h : e.point.expects = some (id,.acknowledged)) (hs : e.store = s)

theorem Steps.relies {s : Store} {a : Answer} {e : Effect} (h : Steps s a p e) : Relies s p e := by
  cases h with
  | recorded c adm =>
    cases adm with
    | validated =>
      exact .wrote c.id (c.initial .validated a.now) rfl (by simp) (.inr ⟨c,_,rfl,rfl⟩)
    | _ => exact .nothing rfl
  | admitted c r _ => exact .same rfl rfl
  | marked c r _ => exact .wrote c.id (r.change .dispatched a.now) rfl (by simp) (.inl ⟨_,rfl⟩)
  | announced c r _ => exact .same rfl rfl
  | dispatching c => exact .same rfl rfl
  | acknowledged c => exact .same rfl rfl
  | reconciling id on t r hr hst _ => exact .read id r rfl hr hst rfl rfl
  | reported id c on t => exact .same rfl rfl
  | expiring id reason t r hr hst => exact .read id r rfl hr hst rfl rfl
  | _ => exact .nothing rfl

/-- `Reconcile` and `ExpireAcknowledged` read a record that no other such call is about
to write. -/
def SoleReader (w : World) (i : ℕ) (p : Point) : Prop :=
  ∀ id, p.reads = some id → ∀ j q, j ≠ i → (w.thread j).point = some q → q.closing ≠ some id

structure LifecycleInv (w : World) : Prop where
  met : ∀ i p id st, (w.thread i).point = some p → p.expects = some (id,st) →
    ∃ r, w.store.results.lookup id = some r ∧ r.status = st
  sole : Exclusive (Thread.window Point.expects) w.thread
  walks : ∀ id, Walks Follows (statuses w.log id)
  newest : ∀ id, (statuses w.log id).head? = (w.store.results.lookup id).map Result.status

theorem lifecycle_move (w : World) (i : ℕ) (t : Thread) (h : LifecycleInv w)
    (ht : t.Outside) : LifecycleInv (w.move i t) := by
  refine ⟨?_,h.sole.leave i (outside_window (fun _ => entry_expects) ht),h.walks,h.newest⟩
  refine forall_update (P := fun _ (t : Thread) => ∀ p id st, t.point = some p →
    p.expects = some (id,st) → ∃ r, w.store.results.lookup id = some r ∧ r.status = st)
    i ?_ fun j _ => h.met j
  intro p id st hp he
  rw [entry_expects (ht p hp)] at he
  cases he

section Call

variable {w : World} {i : ℕ} {a : Answer} {p : Point} {e : Effect} {next : Point → Thread}

/-- A write never touches a record that another thread relies on. -/
theorem other_record_kept (h : LifecycleInv w) (hp : (w.thread i).point = some p)
    (hs : Steps w.store a p e) (hfresh : FreshID w i p) {j : ℕ} (hj : j ≠ i) {id : CommandID}
    (hown : (w.thread j).window Point.expects = some id) (hsome : ∃ r, w.store.results.lookup id = some r) :
    e.store.results.lookup id = w.store.results.lookup id := by
  cases hs.writes with
  | nothing _ hs _ => rw [hs]
  | record c adm hrec =>
    have hnone := hfresh c (hrec ▸ rfl)
    obtain ⟨r,hr⟩ := hsome
    have hne : id ≠ c.id := by
      rintro rfl
      rw [hnone] at hr
      cases hr
    simp [hne]
  | change id' ch r q hch hr =>
    obtain ⟨st,hexp,_⟩ := change_follows hch
    have hne : id ≠ id' := by
      rintro rfl
      exact hj (h.sole j i id hown (window_of_point hp hexp))
    simp [hne]

theorem lifecycle_met (h : LifecycleInv w) (hp : (w.thread i).point = some p)
    (hs : Steps w.store a p e) (hfresh : FreshID w i p) (hnext : ∀ q, (next q).point = some q) :
    ∀ j q id st, ((w.advance i e next).thread j).point = some q →
      q.expects = some (id,st) → ∃ r, e.store.results.lookup id = some r ∧ r.status = st := by
  refine forall_update (P := fun _ (t : Thread) => ∀ q id st, t.point = some q →
    q.expects = some (id,st) → ∃ r, e.store.results.lookup id = some r ∧ r.status = st) i ?_ ?_
  · intro q id st hq he
    obtain rfl : e.point = q := by simpa [hnext] using hq
    cases hs.relies with
    | nothing hn => rw [hn] at he; cases he
    | same hsame hs =>
      rw [hs]
      exact h.met i p id st hp (hsame ▸ he)
    | wrote id' r hw hs _ =>
      obtain ⟨rfl,rfl⟩ : id' = id ∧ r.status = st := by simpa [hw] using he
      exact ⟨r,hs,rfl⟩
    | read id' r _ hr hst hread hs =>
      obtain ⟨rfl,rfl⟩ : id' = id ∧ Status.acknowledged = st := by simpa [hread] using he
      rw [hs]
      exact ⟨r,hr,hst⟩
  · intro j hj q id st hq he
    obtain ⟨r,hr,hst⟩ := h.met j q id st hq he
    rw [other_record_kept h hp hs hfresh hj (window_of_point hq he) ⟨r,hr⟩]
    exact ⟨r,hr,hst⟩

theorem lifecycle_sole (h : LifecycleInv w) (hp : (w.thread i).point = some p)
    (hs : Steps w.store a p e) (hfresh : FreshID w i p) (hreader : SoleReader w i p)
    (hnext : ∀ q, (next q).point = some q) :
    Exclusive (Thread.window Point.expects) (w.advance i e next).thread := by
  have hwindow : (next e.point).window Point.expects = e.point.expects.map Prod.fst := by simp [Thread.window,hnext]
  cases hs.relies with
  | nothing hn => exact h.sole.leave i (by rw [hwindow,hn]; rfl)
  | same hsame _ =>
    exact h.sole.stay i (by rw [hwindow,hsame]; simp [Thread.window,hp])
  | wrote id r hw _ hbefore =>
    have hid : (next e.point).window Point.expects = some id := by rw [hwindow,hw]; rfl
    rcases hbefore with ⟨st,hst⟩ | ⟨c,adm,hrec,hc⟩
    · exact h.sole.stay i (hid.trans (window_of_point hp hst).symm)
    · apply h.sole.enter i
      intro k hk j _ howner
      obtain rfl : id = k := by simpa [hid] using hk
      obtain ⟨q,st,hq,he⟩ := point_of_window howner
      obtain ⟨r',hr',_⟩ := h.met j q id st hq he
      rw [← hc,hfresh c (hrec ▸ rfl)] at hr'
      cases hr'
  | read id r hreads hr hst hread _ =>
    have hid : (next e.point).window Point.expects = some id := by rw [hwindow,hread]; rfl
    apply h.sole.enter i
    intro k hk j hj howner
    obtain rfl : id = k := by simpa [hid] using hk
    obtain ⟨q,st,hq,he⟩ := point_of_window howner
    obtain ⟨r',hr',hst'⟩ := h.met j q id st hq he
    obtain rfl : r = r' := by simpa [hr] using hr'
    rw [← hst',hst] at he
    exact hreader id hreads j q hj hq (closing_of_expects he)

theorem lifecycle_walks (h : LifecycleInv w) (hp : (w.thread i).point = some p)
    (hs : Steps w.store a p e) (hfresh : FreshID w i p) (id : CommandID) :
    Walks Follows (statuses (e.act.toList++w.log) id) ∧
    (statuses (e.act.toList++w.log) id).head? =
      (e.store.results.lookup id).map Result.status := by
  cases hs.writes with
  | nothing _ hs hact =>
    rw [statuses_quiet (by simpa using hact),hs]
    exact ⟨h.walks id,h.newest id⟩
  | record c adm hrec =>
    simp only [Option.toList_some,List.singleton_append]
    rw [statuses_stored,record_results]
    by_cases hid : c.id = id
    · subst hid
      have hempty : (statuses w.log c.id).head? = none := by
        rw [h.newest,hfresh c (hrec ▸ rfl)]; rfl
      simp only [if_true,initial_command,initial_status,List.head?_cons,Option.map_some,and_true]
      exact ⟨hempty ▸ admission_follows adm,h.walks c.id⟩
    · rw [if_neg hid,if_neg (by simpa using Ne.symm hid)]
      exact ⟨h.walks id,h.newest id⟩
  | change id' ch r q hch hr =>
    simp only [Option.toList_some,List.singleton_append]
    rw [statuses_stored,put_results]
    by_cases hid : id' = id
    · subst hid
      obtain ⟨st,hexp,hfol⟩ := change_follows hch
      obtain ⟨r',hr',rfl⟩ := h.met i p id' st hp hexp
      obtain rfl : r = r' := by simpa [hr] using hr'
      have hnew : (statuses w.log id').head? = some r.status := by rw [h.newest,hr]; rfl
      simp only [if_true,change_status,List.head?_cons,Option.map_some,and_true]
      exact ⟨hnew ▸ hfol,h.walks id'⟩
    · rw [if_neg hid,if_neg (Ne.symm hid)]
      exact ⟨h.walks id,h.newest id⟩

end Call

theorem lifecycle_call (w : World) (i : ℕ) (a : Answer) (p : Point) (e : Effect)
    (next : Point → Thread) (h : LifecycleInv w) (hp : (w.thread i).point = some p)
    (hg : FreshID w i p ∧ SoleReader w i p) (hs : Steps w.store a p e)
    (hnext : ∀ q, (next q).point = some q) : LifecycleInv (w.advance i e next) :=
  ⟨lifecycle_met h hp hs hg.1 hnext,lifecycle_sole h hp hs hg.1 hg.2 hnext,
    fun id => (lifecycle_walks h hp hs hg.1 id).1,fun id => (lifecycle_walks h hp hs hg.1 id).2⟩

theorem lifecycle_init : LifecycleInv {} :=
  ⟨fun _ _ _ _ h => (nomatch h),fun _ _ _ h => (nomatch h),fun _ => trivial,fun _ => rfl⟩

/-- In every interleaving whose recordings find their ID unused, and whose `Reconcile` and
`ExpireAcknowledged` calls read a record no other such call is about to write, the
statuses stored under each ID walk the lifecycle, the stored one is the newest of them,
and a terminal one is never replaced. -/
theorem lifecycle_walked (ls : List Label)
    (hg : Guarded World.step (AtPoint fun w i p => FreshID w i p ∧ SoleReader w i p) {} ls)
    (id : CommandID) : Walks Follows (statuses (run World.step {} ls).log id) ∧
    (statuses (run World.step {} ls).log id).head? =
      ((run World.step {} ls).store.results.lookup id).map Result.status ∧
    ∀ st, st.Terminal → st ∈ statuses (run World.step {} ls).log id →
      (statuses (run World.step {} ls).log id).head? = some st := by
  have h := system_invariant lifecycle_move lifecycle_call lifecycle_init hg
  exact ⟨h.walks id,h.newest id,fun st hst hmem => (h.walks id).newest hmem hst.last⟩

theorem soleReader_of_alone (w : World) (i : ℕ) (p : Point) (h : Alone w)
    (hp : (w.thread i).point = some p) : SoleReader w i p := by
  intro id hid j q hj hq
  have hr : p.reply = none := by cases p <;> first | rfl | cases hid
  obtain ⟨reply,rfl⟩ := h.others hp hr hj hq
  exact fun hc => by cases hc

theorem lifecycle_walked_reconciled :
    statuses (run World.step {} lampReconciled).log lampOn.id =
      [.succeeded,.acknowledged,.dispatched,.validated] ∧
    Walks Follows (statuses (run World.step {} lampReconciled).log lampOn.id) := by
  have hseq : Guarded World.step Sequential {} lampReconciled :=
    sequential_single (fun _ _ => rfl) (by decide : ∀ l ∈ lampReconciled, l.index = 0)
  have hfresh : Guarded World.step (AtPoint FreshID) {} lampReconciled := by decide
  have hg : Guarded World.step (AtPoint fun w i p => FreshID w i p ∧ SoleReader w i p) {}
      lampReconciled := sequential_guard
    (fun w i p halone hp hid => ⟨hid,soleReader_of_alone w i p halone hp⟩) hseq hfresh
  exact ⟨by decide,(lifecycle_walked lampReconciled hg lampOn.id).1⟩

def reusedID : List Label :=
  (Operation.submit lampOn).labels 0 [{},{},{ now := newYear+hour },{},{}]++
  (Operation.submit { lampOn with idempotencyKey := "lamp, again" }).labels 0
    (List.replicate 6 {})

def racedReconcile : List Label :=
  lampSubmitted++(Operation.reconcile lampOn.id true newYear).labels 0 [{}]++
  (Operation.reconcile lampOn.id false newYear).labels 1 [{}]++
  [.step 0 {},.step 0 {},.step 1 {},.step 1 {}]

theorem lifecycle_overwritten :
    ¬ Walks Follows (statuses (run World.step {} reusedID).log lampOn.id) ∧
    ¬ Walks Follows (statuses (run World.step {} racedReconcile).log lampOn.id) := by
  have hreused : statuses (run World.step {} reusedID).log lampOn.id = [.validated,.expired] := by
    decide
  have hraced : statuses (run World.step {} racedReconcile).log lampOn.id =
      [.failed,.succeeded,.acknowledged,.dispatched,.validated] := by decide
  rw [hreused,hraced]
  exact ⟨fun h => h.1,fun h => h.1⟩

end Output
end AquaOS
