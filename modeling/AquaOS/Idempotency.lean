import AquaOS.OutputSystem

/-! Idempotency keys under every interleaving. Between the lookup that finds a key free
and the dispatch, a call holds the key: first undecided, with the key unbound, then
committed, with the key bound and nothing dispatched for it. One holder a key makes the
dispatch unique. -/
namespace AquaOS
namespace Output

open Domain SafetyEngine Transition

inductive Hold
  | undecided | committed
  deriving DecidableEq

/-- The idempotency key a call holds at a point. -/
def Point.holds : Point → Option (String × Hold)
  | .expiry c | .revision c | .evaluate c | .record c _ => some (c.idempotencyKey,.undecided)
  | .recorded c .validated _ | .mark c | .marked c _ | .dispatch c =>
    some (c.idempotencyKey,.committed)
  | _ => none

def Act.command : Act → Option Command
  | .dispatching c => some c
  | _ => none

def dispatched (log : List Act) : List Command := log.filterMap Act.command

def dispatches (log : List Act) (k : String) : ℕ :=
  (dispatched log).countP fun c => c.idempotencyKey = k

inductive Holds (s : Store) (p : Point) (e : Effect) : Prop
  | free (h : e.point.holds = none)
  | same (h : e.point.holds = p.holds) (hrec : ∀ c a, p ≠ .record c a) (hd : ∀ c, p ≠ .dispatch c)
  | entered (c : Command) (hp : p = .lookup c) (hl : s.lookup c = none)
      (h : e.point.holds = some (c.idempotencyKey,.undecided))
  | recorded (c : Command) (hp : p = .record c .validated)
      (h : e.point.holds = some (c.idempotencyKey,.committed))

variable {s : Store} {a : Answer} {p : Point} {e : Effect} {r : Result}

theorem Steps.holds (h : Steps s a p e) : Holds s p e := by
  cases h with
  | missed c hl => exact .entered c rfl hl rfl
  | recorded c adm =>
    cases adm with
    | validated => exact .recorded c rfl rfl
    | _ => exact .free rfl
  | live c _ | late c _ | current c _ | outdated c
  | decided c d _ | admitted c r _ | marked c r _
  | announced c r _ => exact .same rfl (by simp) (by simp)
  | _ => exact .free rfl

theorem Steps.idempotency (h : Steps s a p e)
    (hp : ∀ c adm, p ≠ .record c adm) : e.store.idempotency = s.idempotency := by
  cases h.writes with
  | nothing _ hs _ => rw [hs]
  | record c adm hrec => exact absurd hrec (hp c adm)
  | change id ch r q _ _ => rfl

theorem Steps.dispatches (h : Steps s a p e) (log : List Act) :
    (∃ c, p = .dispatch c ∧ e = ⟨s,.awaiting c,some (.dispatching c)⟩) ∨
    ∀ k, Output.dispatches (e.act.toList++log) k = Output.dispatches log k := by
  cases h with
  | dispatching c => exact .inl ⟨c,rfl,rfl⟩
  | _ =>
    refine .inr fun k => ?_
    simp [Output.dispatches,dispatched,List.filterMap_cons,Act.command,Effect.fail]

theorem dispatches_cons (c : Command) (log : List Act) (k : String) :
    dispatches (.dispatching c::log) k =
      if c.idempotencyKey = k then dispatches log k+1 else dispatches log k := by
  simp only [dispatches,dispatched,List.filterMap_cons,Act.command,List.countP_cons]
  by_cases h : c.idempotencyKey = k <;> simp [h]

structure Coherent (s : Store) : Prop where
  bound : ∀ k id, s.idempotency.lookup k = some id →
    ∃ r, s.results.lookup id = some r ∧ r.command.idempotencyKey = k ∧ r.command.id = id
  reached : ∀ id r, s.results.lookup id = some r →
    s.idempotency.lookup r.command.idempotencyKey = some id

/-- Recording a command under a free key and an unused ID keeps the indexes in agreement. -/
theorem Coherent.record (h : Coherent s)
    (hkey : s.idempotency.lookup r.command.idempotencyKey = none)
    (hid : s.results.lookup r.command.id = none) : Coherent (s.record r) := by
  constructor
  · intro k id hk
    rw [record_idempotency] at hk
    split_ifs at hk with heq
    · obtain rfl : r.command.id = id := by simpa using hk
      exact ⟨r,by simp,heq.symm,rfl⟩
    · obtain ⟨r',hr',hkey',hid'⟩ := h.bound k id hk
      have hne : id ≠ r.command.id := by
        rintro rfl
        rw [hid] at hr'
        cases hr'
      exact ⟨r',by simp [hne,hr'],hkey',hid'⟩
  · intro id r' hr'
    rw [record_results] at hr'
    split_ifs at hr' with heq
    · obtain rfl : r = r' := by simpa using hr'
      simp [heq]
    · have hbound := h.reached id r' hr'
      have hne : r'.command.idempotencyKey ≠ r.command.idempotencyKey := by
        intro heq
        rw [heq,hkey] at hbound
        cases hbound
      simp [hne,hbound]

theorem Coherent.put (h : Coherent s) {id : CommandID} (hr : s.results.lookup id = some r)
    (ch : Change) (now : ℤ) : Coherent (s.put id (r.change ch now)) := by
  constructor
  · intro k id' hk
    obtain ⟨r',hr',hkey,hid⟩ := h.bound k id' hk
    by_cases heq : id' = id
    · subst heq
      obtain rfl : r = r' := by simpa [hr] using hr'
      exact ⟨r.change ch now,by simp,hkey,hid⟩
    · exact ⟨r',by simp [heq,hr'],hkey,hid⟩
  · intro id' r' hr'
    rw [put_results] at hr'
    split_ifs at hr' with heq
    · subst heq
      obtain rfl : r.change ch now = r' := by simpa using hr'
      exact h.reached id' r hr
    · exact h.reached id' r' hr'

/-- A bound key whose record is equivalent to the command answers with that record. -/
theorem Coherent.lookup (h : Coherent s) {id : CommandID} {c : Command}
    (hr : s.results.lookup id = some r) (heq : Equivalent r.command c) :
    s.lookup c = some (.ok r) := by
  have hbound := h.reached id r hr
  rw [heq.1] at hbound
  simp [Store.lookup,hbound,hr,heq]

theorem lookup_eq_none {c : Command} (h : s.lookup c = none) :
    s.idempotency.lookup c.idempotencyKey = none := by
  unfold Store.lookup at h
  cases hk : s.idempotency.lookup c.idempotencyKey with
  | none => rfl
  | some id =>
    rw [hk] at h
    dsimp only at h
    split at h
    · cases h
    · split_ifs at h

def Hold.Met (w : World) (k : String) : Hold → Prop
  | .undecided => w.store.idempotency.lookup k = none
  | .committed => (∃ id, w.store.idempotency.lookup k = some id) ∧ dispatches w.log k = 0

theorem entry_holds (h : p.Entry) : p.holds = none := by
  cases p <;> first | rfl | exact absurd h id

/-- A lookup that finds a key free does so while no other call has found it free and not
recorded yet. -/
def SoleClaimant (w : World) (i : ℕ) (p : Point) : Prop :=
  ∀ c, p = .lookup c → w.store.lookup c = none → ∀ j q, j ≠ i → (w.thread j).point = some q →
    q.holds ≠ some (c.idempotencyKey,.undecided)

structure IdempotencyInv (w : World) : Prop where
  met : ∀ i p k hold, (w.thread i).point = some p → p.holds = some (k,hold) → hold.Met w k
  sole : Exclusive (Thread.window Point.holds) w.thread
  coherent : Coherent w.store
  silent : ∀ k, w.store.idempotency.lookup k = none → dispatches w.log k = 0
  once : ∀ k, dispatches w.log k ≤ 1
  kept : ∀ id r, .stored id r ∈ w.log →
    ∃ r', w.store.results.lookup id = some r' ∧ r'.command = r.command

theorem idempotency_init : IdempotencyInv {} :=
  ⟨fun _ _ _ _ h => (nomatch h),fun _ _ _ h => (nomatch h),
    ⟨fun _ _ h => (nomatch h),fun _ _ h => (nomatch h)⟩,fun _ _ => rfl,
    fun _ => Nat.zero_le 1,fun _ _ h => (nomatch h)⟩

theorem idempotency_move (w : World) (i : ℕ) (t : Thread) (h : IdempotencyInv w)
    (ht : t.Outside) : IdempotencyInv (w.move i t) := by
  refine ⟨?_,h.sole.leave i (outside_window (fun _ => entry_holds) ht),h.coherent,h.silent,h.once,h.kept⟩
  refine forall_update (P := fun _ (t : Thread) => ∀ p k hold, t.point = some p →
    p.holds = some (k,hold) → hold.Met w k) i ?_ fun j _ => h.met j
  intro p k hold hp hk
  rw [entry_holds (ht p hp)] at hk
  cases hk

section Call

variable {w : World} {i : ℕ} {a : Answer} {p : Point} {e : Effect} {next : Point → Thread}

/-- A step leaves the binding and the dispatches of a key it does not hold alone. -/
theorem other_key_kept (hp : (w.thread i).point = some p) (hs : Steps w.store a p e)
    {k : String} (hk : (w.thread i).window Point.holds ≠ some k) :
    e.store.idempotency.lookup k = w.store.idempotency.lookup k ∧
    dispatches (e.act.toList++w.log) k = dispatches w.log k := by
  constructor
  · by_cases hrec : ∃ c adm, p = .record c adm
    · obtain ⟨c,adm,rfl⟩ := hrec
      have hne : k ≠ c.idempotencyKey := by
        rintro rfl
        exact hk (window_of_point hp rfl)
      cases hs with
      | failed _ err _ => rfl
      | missing _ id ch hp _ => cases hp
      | recorded _ _ => simp [hne]
    · rw [hs.idempotency fun c adm hc => hrec ⟨c,adm,hc⟩]
  · rcases hs.dispatches w.log with ⟨c,rfl,rfl⟩ | hsame
    · have hne : c.idempotencyKey ≠ k := by
        rintro rfl
        exact hk (window_of_point hp rfl)
      simp [dispatches_cons,hne]
    · exact hsame k

theorem idempotency_met (h : IdempotencyInv w) (hp : (w.thread i).point = some p)
    (hs : Steps w.store a p e) (hnext : ∀ q, (next q).point = some q) :
    ∀ j q k hold, ((w.advance i e next).thread j).point = some q →
      q.holds = some (k,hold) → hold.Met (w.advance i e next) k := by
  refine forall_update (P := fun _ (t : Thread) => ∀ q k hold, t.point = some q →
    q.holds = some (k,hold) → hold.Met (w.advance i e next) k) i ?_ ?_
  · intro q k hold hq hk
    obtain rfl : e.point = q := by simpa [hnext] using hq
    cases hs.holds with
    | free hn => rw [hn] at hk; cases hk
    | same hsame hrec hd =>
      have hbefore := h.met i p k hold hp (hsame ▸ hk)
      have hidem := hs.idempotency hrec
      have hdisp : dispatches (e.act.toList++w.log) k = dispatches w.log k := by
        rcases hs.dispatches w.log with ⟨c,hc,_⟩ | hall
        · exact absurd hc (hd c)
        · exact hall k
      cases hold with
      | undecided => exact (congrArg (AList.lookup k) hidem).trans hbefore
      | committed =>
        obtain ⟨⟨id,hid⟩,hzero⟩ := hbefore
        exact ⟨⟨id,(congrArg (AList.lookup k) hidem).trans hid⟩,hdisp.trans hzero⟩
    | entered c hpc hl hc =>
      obtain ⟨rfl,rfl⟩ : c.idempotencyKey = k ∧ Hold.undecided = hold := by
        simpa [hc] using hk
      have hidem := hs.idempotency (by simp [hpc])
      exact (congrArg (AList.lookup _) hidem).trans (lookup_eq_none hl)
    | recorded c hpc hc =>
      obtain ⟨rfl,rfl⟩ : c.idempotencyKey = k ∧ Hold.committed = hold := by
        simpa [hc] using hk
      subst hpc
      have hfree : w.store.idempotency.lookup c.idempotencyKey = none :=
        h.met i _ _ .undecided hp rfl
      cases hs with
      | failed _ err hf => exact absurd hf id
      | missing _ id ch hp _ => cases hp
      | recorded _ _ =>
        refine ⟨⟨c.id,by simp [World.advance]⟩,?_⟩
        exact h.silent _ hfree
  · intro j hj q k hold hq hk
    have hne : (w.thread i).window Point.holds ≠ some k := fun hi =>
      hj (h.sole j i k (window_of_point hq hk) hi)
    obtain ⟨hidem,hdisp⟩ := other_key_kept hp hs hne
    have hbefore := h.met j q k hold hq hk
    cases hold with
    | undecided => exact hidem.trans hbefore
    | committed =>
      obtain ⟨⟨id,hid⟩,hzero⟩ := hbefore
      exact ⟨⟨id,hidem.trans hid⟩,hdisp.trans hzero⟩

theorem idempotency_sole (h : IdempotencyInv w) (hp : (w.thread i).point = some p)
    (hs : Steps w.store a p e) (hclaim : SoleClaimant w i p)
    (hnext : ∀ q, (next q).point = some q) :
    Exclusive (Thread.window Point.holds) (w.advance i e next).thread := by
  have hwindow : (next e.point).window Point.holds = e.point.holds.map Prod.fst := by
    simp [Thread.window,hnext]
  cases hs.holds with
  | free hn => exact h.sole.leave i (by rw [hwindow,hn]; rfl)
  | same hsame _ _ => exact h.sole.stay i (by rw [hwindow,hsame]; simp [Thread.window,hp])
  | recorded c hpc hc =>
    subst hpc
    exact h.sole.stay i (by rw [hwindow,hc]; simp [Thread.window,hp,Point.holds])
  | entered c hpc hl hc =>
    apply h.sole.enter i
    intro k hk j hj howner
    obtain rfl : c.idempotencyKey = k := by simpa [hwindow,hc] using hk
    obtain ⟨q,hold,hq,hhold⟩ := point_of_window howner
    cases hold with
    | undecided => exact hclaim c hpc hl j q hj hq hhold
    | committed =>
      obtain ⟨⟨id,hid⟩,_⟩ := h.met j q _ .committed hq hhold
      rw [lookup_eq_none hl] at hid
      cases hid

theorem idempotency_coherent (h : IdempotencyInv w) (hp : (w.thread i).point = some p)
    (hs : Steps w.store a p e) (hfresh : FreshID w i p) : Coherent e.store := by
  cases hs.writes with
  | nothing _ hs _ => rw [hs]; exact h.coherent
  | record c adm hrec =>
    subst hrec
    exact h.coherent.record (h.met i _ _ .undecided hp rfl) (hfresh c rfl)
  | change id ch r q _ hr => exact h.coherent.put hr ch a.now

theorem idempotency_dispatches (h : IdempotencyInv w) (hp : (w.thread i).point = some p)
    (hs : Steps w.store a p e) (k : String) : dispatches (e.act.toList++w.log) k ≤ 1 ∧
    (e.store.idempotency.lookup k = none → dispatches (e.act.toList++w.log) k = 0) := by
  by_cases hk : (w.thread i).window Point.holds = some k
  · obtain ⟨q,hold,hq,hhold⟩ := point_of_window hk
    obtain rfl : p = q := by simpa [hp] using hq
    have hmet := h.met i p k hold hp hhold
    rcases hs.dispatches w.log with ⟨c,rfl,rfl⟩ | hsame
    · obtain ⟨rfl,rfl⟩ : c.idempotencyKey = k ∧ Hold.committed = hold := by
        simpa [Point.holds] using hhold
      obtain ⟨⟨id,hid⟩,hzero⟩ := hmet
      simp only [Option.toList_some,List.singleton_append,dispatches_cons,if_true,hzero,hid]
      exact ⟨le_rfl,fun h => by cases h⟩
    · rw [hsame k]
      cases hold with
      | undecided => rw [h.silent k hmet]; exact ⟨Nat.zero_le 1,fun _ => rfl⟩
      | committed => rw [hmet.2]; exact ⟨Nat.zero_le 1,fun _ => rfl⟩
  · obtain ⟨hidem,hdisp⟩ := other_key_kept hp hs hk
    rw [hidem,hdisp]
    exact ⟨h.once k,h.silent k⟩

theorem idempotency_kept (h : IdempotencyInv w) (hs : Steps w.store a p e) (hfresh : FreshID w i p)
    (id : CommandID) (r : Result) (hmem : .stored id r ∈ e.act.toList++w.log) :
    ∃ r', e.store.results.lookup id = some r' ∧ r'.command = r.command := by
  cases hs.writes with
  | nothing _ hs hact =>
    rcases List.mem_append.mp hmem with hnew | hold
    · have := hact _ (by simpa using hnew)
      simp [Act.isStored] at this
    · rw [hs]; exact h.kept id r hold
  | record c adm hrec =>
    rcases List.mem_cons.mp hmem with hnew | hold
    · obtain ⟨rfl,rfl⟩ : id = c.id ∧ r = c.initial adm a.now := by simpa using hnew
      exact ⟨_,by simp,rfl⟩
    · obtain ⟨r',hr',hc⟩ := h.kept id r hold
      have hne : id ≠ c.id := by
        rintro rfl
        rw [hfresh c (hrec ▸ rfl)] at hr'
        cases hr'
      exact ⟨r',by simp [hne,hr'],hc⟩
  | change id' ch r' q _ hr' =>
    rcases List.mem_cons.mp hmem with hnew | hold
    · obtain ⟨rfl,rfl⟩ : id = id' ∧ r = r'.change ch a.now := by simpa using hnew
      exact ⟨_,by simp,rfl⟩
    · obtain ⟨r'',hr'',hc⟩ := h.kept id r hold
      by_cases heq : id = id'
      · subst heq
        obtain rfl : r' = r'' := by simpa [hr'] using hr''
        exact ⟨r'.change ch a.now,by simp,hc⟩
      · exact ⟨r'',by simp [heq,hr''],hc⟩

end Call

/-- The condition under which a key has one holder: commands are recorded under unused
IDs, and no two calls find a key free before one of them has recorded. -/
def OneHolder (w : World) (i : ℕ) (p : Point) : Prop := FreshID w i p ∧ SoleClaimant w i p

theorem idempotency_call (w : World) (i : ℕ) (a : Answer) (p : Point) (e : Effect)
    (next : Point → Thread) (h : IdempotencyInv w) (hp : (w.thread i).point = some p)
    (hg : OneHolder w i p) (hs : Steps w.store a p e)
    (hnext : ∀ q, (next q).point = some q) : IdempotencyInv (w.advance i e next) :=
  ⟨idempotency_met h hp hs hnext,idempotency_sole h hp hs hg.2 hnext,
    idempotency_coherent h hp hs hg.1,fun k => (idempotency_dispatches h hp hs k).2,
    fun k => (idempotency_dispatches h hp hs k).1,idempotency_kept h hs hg.1⟩

theorem idempotency_run {ls : List Label} (hg : Guarded World.step (AtPoint OneHolder) {} ls) :
    IdempotencyInv (run World.step {} ls) :=
  system_invariant idempotency_move idempotency_call idempotency_init hg

/-- A command equivalent to a recorded one is answered with that record. -/
theorem IdempotencyInv.lookup {w : World} (h : IdempotencyInv w) {id : CommandID} {r : Result}
    (hmem : .stored id r ∈ w.log) {c : Command} (heq : Equivalent r.command c) :
    ∃ r', w.store.results.lookup id = some r' ∧ r'.command = r.command ∧
      w.store.lookup c = some (.ok r') := by
  obtain ⟨r',hr',hc⟩ := h.kept id r hmem
  exact ⟨r',hr',hc,h.coherent.lookup hr' (hc ▸ heq)⟩

/-- Equivalent commands are dispatched at most once between them, and one that comes to
its lookup after another was recorded returns that record. -/
theorem equivalent_commands_dispatch_once (ls : List Label)
    (hg : Guarded World.step (AtPoint OneHolder) {} ls) (c : Command) :
    (dispatched (run World.step {} ls).log).countP (fun c' => Equivalent c' c) ≤ 1 ∧
    ∀ i a id r, ((run World.step {} ls).thread i).point = some (.lookup c) →
      .stored id r ∈ (run World.step {} ls).log → Equivalent r.command c →
      ∃ r', (run World.step {} ls).store.results.lookup id = some r' ∧ r'.command = r.command ∧
        (((run World.step {} ls).step (.step i a)).thread i).point =
          some (.returned ⟨some r',none⟩) := by
  have h := idempotency_run hg
  constructor
  · refine le_trans (List.countP_mono_left fun c' _ hc' => ?_) (h.once c.idempotencyKey)
    simpa using (of_decide_eq_true hc').1
  · intro i a id r hp hmem heq
    obtain ⟨r',hr',hc,hl⟩ := h.lookup hmem heq
    obtain ⟨next,hnext,hstep⟩ := step_point a hp rfl
    refine ⟨r',hr',hc,?_⟩
    simp [hstep,World.advance,hnext,Point.step,hl]

theorem oneHolder_of_alone (w : World) (i : ℕ) (p : Point) (h : Alone w)
    (hp : (w.thread i).point = some p) (hfresh : FreshID w i p) : OneHolder w i p := by
  refine ⟨hfresh,?_⟩
  rintro c rfl _ j q hj hq
  obtain ⟨reply,rfl⟩ := h.others hp rfl hj hq
  exact fun hc => by cases hc

def resubmitted : List Label :=
  lampSubmitted++(Operation.submit lampOn).labels 0 [{}]

theorem resubmitted_oneHolder : Guarded World.step (AtPoint OneHolder) {} resubmitted :=
  sequential_guard oneHolder_of_alone
    (sequential_single (fun _ _ => rfl) (by decide : ∀ l ∈ resubmitted, l.index = 0)) (by decide)

theorem resubmission_dispatches_once :
    (dispatched (run World.step {} resubmitted).log).countP (fun c => Equivalent c lampOn) ≤ 1 ∧
    dispatched (run World.step {} resubmitted).log = [lampOn] :=
  ⟨(equivalent_commands_dispatch_once resubmitted resubmitted_oneHolder lampOn).1,by decide⟩

def lampTwin : Command := { lampOn with id := "30000000-0000-4000-8000-000000000002" }

def racedSubmissions : List Label :=
  (Operation.submit lampOn).labels 0 [{},{}]++(Operation.submit lampTwin).labels 1 [{},{}]++
  List.replicate 8 (.step 0 {})++List.replicate 8 (.step 1 {})

theorem raced_submissions_dispatch_twice :
    ¬ ∀ (ls : List Label) (c : Command),
      (dispatched (run World.step {} ls).log).countP (fun c' => Equivalent c' c) ≤ 1 := by
  intro h
  have htwice : dispatched (run World.step {} racedSubmissions).log = [lampTwin,lampOn] := by
    decide
  have hle := h racedSubmissions lampOn
  rw [htwice] at hle
  revert hle
  decide

/-- In every sequential run that records commands under unused IDs only, the two indexes
agree, and a recorded command submitted again unchanged is answered with its own record. -/
theorem indexes_agree (ls : List Label) (hseq : Guarded World.step Sequential {} ls)
    (hfresh : Guarded World.step (AtPoint FreshID) {} ls) : Coherent (run World.step {} ls).store ∧
    ∀ id r, .stored id r ∈ (run World.step {} ls).log →
      ∃ r', (run World.step {} ls).store.lookup r.command = some (.ok r') ∧
        r'.command = r.command ∧ (run World.step {} ls).store.results.lookup id = some r' := by
  have h := idempotency_run (sequential_guard oneHolder_of_alone hseq hfresh)
  refine ⟨h.coherent,fun id r hmem => ?_⟩
  obtain ⟨r',hr',hc,hl⟩ := h.lookup hmem (c := r.command) ⟨rfl,rfl,rfl,rfl⟩
  exact ⟨r',hl,hc,hr'⟩

theorem indexes_agree_resubmitted :
    ∃ r, (run World.step {} resubmitted).store.lookup lampOn = some (.ok r) ∧
      r.command = lampOn := by
  have hseq : Guarded World.step Sequential {} resubmitted :=
    sequential_single (fun _ _ => rfl) (by decide : ∀ l ∈ resubmitted, l.index = 0)
  obtain ⟨r,hl,hc,_⟩ := (indexes_agree resubmitted hseq (by decide)).2 lampOn.id
    (lampOn.initial .validated 0) (by decide)
  exact ⟨r,hl,hc⟩

def reboundID : List Label :=
  lampSubmitted++
  (Operation.submit { lampOn with idempotencyKey := "lamp, again" }).labels 0
    (List.replicate 13 {})++
  (Operation.submit lampOn).labels 0 [{},{}]

theorem reused_id_conflicts :
    ¬ (∀ ls, Guarded World.step Sequential {} ls → Coherent (run World.step {} ls).store) ∧
    ((run World.step {} reboundID).thread 0).point = some (.returned ⟨none,some .conflict⟩) := by
  refine ⟨fun h => ?_,by decide⟩
  have hc := h reboundID
    (sequential_single (fun _ _ => rfl) (by decide : ∀ l ∈ reboundID, l.index = 0))
  obtain ⟨r,hr,hkey,_⟩ := hc.bound "lamp" lampOn.id (by decide)
  have hbad : ((run World.step {} reboundID).store.results.lookup lampOn.id).map
      (fun r => r.command.idempotencyKey) = some "lamp, again" := by decide
  rw [hr] at hbad
  simp [hkey] at hbad

end Output
end AquaOS
