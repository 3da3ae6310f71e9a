import AquaOS.OutputSystem

/-! One call run to completion with no other call in between. Every point of a call is
passed at most once, so its environment is an answer for every stage; a rank bounds the
steps that are left. -/
namespace AquaOS
namespace Output

open Domain SafetyEngine Transition

/-- The points of a call without their values. -/
inductive Stage
  | submit | lookup | expiry | revision | evaluate | record | recorded | mark | marked | dispatch
  | awaiting | settle | reconcile | report | expireAcknowledged | close | emit | get | returned

def Point.stage : Point → Stage
  | .submit _ => .submit
  | .lookup _ => .lookup
  | .expiry _ => .expiry
  | .revision _ => .revision
  | .evaluate _ => .evaluate
  | .record _ _ => .record
  | .recorded _ _ _ => .recorded
  | .mark _ => .mark
  | .marked _ _ => .marked
  | .dispatch _ => .dispatch
  | .awaiting _ => .awaiting
  | .settle _ _ => .settle
  | .reconcile _ _ _ => .reconcile
  | .report _ _ _ _ => .report
  | .expireAcknowledged _ _ _ => .expireAcknowledged
  | .close _ _ => .close
  | .emit _ _ => .emit
  | .get _ => .get
  | .returned _ => .returned

def Stage.rank : Stage → ℕ
  | .submit => 13
  | .lookup => 12
  | .expiry => 11
  | .revision => 10
  | .evaluate => 9
  | .record => 8
  | .recorded => 7
  | .mark => 6
  | .marked => 5
  | .dispatch => 4
  | .awaiting => 3
  | .settle => 2
  | .reconcile => 4
  | .report => 3
  | .expireAcknowledged => 3
  | .close => 2
  | .emit => 1
  | .get => 1
  | .returned => 0

abbrev Environment := Stage → Answer

/-- A call at work on the store, with its acts from the newest on. -/
structure Solo where
  store : Store
  point : Point
  acts : List Act := []

def Solo.step (env : Environment) (o : Solo) : Solo :=
  let e := o.point.step o.store (env o.point.stage)
  ⟨e.store,e.point,e.act.toList++o.acts⟩

def Solo.rank (o : Solo) : ℕ := o.point.stage.rank

def Solo.finish (env : Environment) (o : Solo) : Solo := Transition.finish (Solo.step env) Solo.rank o

theorem Steps.rank_lt {s : Store} {a : Answer} {p : Point} {e : Effect} (h : Steps s a p e)
    (hp : p.stage.rank ≠ 0) : e.point.stage.rank < p.stage.rank := by
  cases h with
  | failed _ _ _ | missing _ _ _ _ _ => exact Nat.pos_of_ne_zero hp
  | returned => exact absurd rfl hp
  | _ => simp only [Point.stage,Stage.rank]; omega

theorem stage_rank_eq_zero {p : Point} (h : p.stage.rank = 0) : ∃ reply, p = .returned reply := by
  cases p with
  | returned reply => exact ⟨reply,rfl⟩
  | _ => simp [Point.stage,Stage.rank] at h

section Completion

variable (env : Environment)

theorem solo_fixed (o : Solo) (h : o.rank = 0) : o.step env = o := by
  obtain ⟨s,p,acts⟩ := o
  obtain ⟨reply,rfl⟩ := stage_rank_eq_zero h
  rfl

theorem solo_decreases (o : Solo) (h : o.rank ≠ 0) : (o.step env).rank < o.rank :=
  (step_steps o.store (env o.point.stage) o.point).rank_lt h

theorem solo_finish_step (o : Solo) : (o.step env).finish env = o.finish env :=
  finish_step (solo_fixed env) (solo_decreases env) o

theorem solo_finish_returned (o : Solo) : ∃ reply, (o.finish env).point = .returned reply :=
  stage_rank_eq_zero (rank_finish (solo_fixed env) (solo_decreases env) o)

end Completion

/-- The labels by which a thread takes the next `n` steps of its call. -/
def Solo.labels (env : Environment) (i : ℕ) : ℕ → Solo → List Label
  | 0, _ => []
  | n+1, o => .step i (env o.point.stage)::Solo.labels env i n (o.step env)

/-- A call of a thread that takes all the steps is the call run on its own. -/
theorem solo_run (env : Environment) (i n : ℕ) (o : Solo) (w : World) (base : List Act)
    (ht : w.thread i = .call o.point) (hstore : w.store = o.store) (hlog : w.log = o.acts++base) :
    (run World.step w (o.labels env i n)).thread i = .call ((Solo.step env)^[n] o).point ∧
    (run World.step w (o.labels env i n)).store = ((Solo.step env)^[n] o).store ∧
    (run World.step w (o.labels env i n)).log = ((Solo.step env)^[n] o).acts++base := by
  induction n generalizing o w with
  | zero => exact ⟨ht,hstore,hlog⟩
  | succ n ih =>
    have hs : w.step (.step i (env o.point.stage)) =
        w.advance i (o.point.step o.store (env o.point.stage)) .call := by
      rw [step_of_thread ht,World.stepThread,hstore]
    rw [Function.iterate_succ_apply]
    refine ih (o.step env) (w.step (.step i (env o.point.stage))) ?_ ?_ ?_
    · rw [hs]; exact advance_thread_self w i _ _
    · rw [hs]; rfl
    · rw [hs]; simp [World.advance,Solo.step,hlog]

theorem solo_invariant {env : Environment} {P : Solo → Prop}
    (hstep : ∀ s p acts e, P ⟨s,p,acts⟩ → Steps s (env p.stage) p e →
      P ⟨e.store,e.point,e.act.toList++acts⟩) {o : Solo} (h : P o) : P (o.finish env) := by
  have hiter : ∀ n, P ((Solo.step env)^[n] o) := by
    intro n
    induction n with
    | zero => exact h
    | succ n ih =>
      rw [Function.iterate_succ_apply']
      exact hstep _ _ _ _ ih (step_steps _ _ _)
  exact hiter o.rank

/-- `Submit` on its own. -/
def submit (env : Environment) (s : Store) (c : Command) : Solo := Solo.finish env ⟨s,.submit c,[]⟩

def noWrites (acts : List Act) : Prop := ∀ act ∈ acts, act.isStored = false

/-- The environment in which the call records its command as validated: the context is
live, the identifiers and the command are valid, its key is free, it has not expired, its
expected revision is the current one, and the policy allows it. -/
structure Validates (env : Environment) (s : Store) (c c' : Command) : Prop where
  ctx : (env .submit).ctx = none
  ids : c.withIDs (env .submit) = .ok c'
  valid : validateCommand c' = none
  free : s.lookup c' = none
  live : (env .expiry).now < c'.expiresAt
  current : ∀ expected, c'.expectedRevision = some expected →
    (env .revision).snapshot = .ok expected
  allowed : ∃ d, (env .evaluate).decision = .ok d ∧ d.allowed = true

def Environment.settledStatus (env : Environment) : Status :=
  (Change.settled (settlement (env .awaiting))).status

def Environment.markedStatus (env : Environment) : Status :=
  if (env .marked).emitted = none then env.settledStatus else .dispatched

def Environment.finalStatus (env : Environment) (a : Admission) : Status :=
  if a = .validated ∧ (env .recorded).emitted = none then env.markedStatus else a.status

/-- The command stands recorded under its ID and key, and nothing else was written. -/
structure Recorded (c : Command) (o : Solo) (r : Result) : Prop where
  result : o.store.results.lookup c.id = some r
  command : r.command = c
  key : o.store.idempotency.lookup c.idempotencyKey = some c.id
  written : ∃ r', .stored c.id r' ∈ o.acts
  only : ∀ id r', .stored id r' ∈ o.acts → id = c.id ∧ r'.command = c

/-- The call will leave the command with status `st`. -/
def Leaves (env : Environment) (c : Command) (st : Status) (o : Solo) : Prop :=
  match o.point with
  | .record c' a => c' = c ∧ env.finalStatus a = st ∧ noWrites o.acts
  | .recorded c' a _ => c' = c ∧ env.finalStatus a = st ∧ ∃ r, Recorded c o r ∧ r.status = a.status
  | .mark c' => c' = c ∧ env.markedStatus = st ∧ ∃ r, Recorded c o r
  | .marked c' _ => c' = c ∧ env.markedStatus = st ∧ ∃ r, Recorded c o r ∧ r.status = .dispatched
  | .dispatch c' | .awaiting c' => c' = c ∧ env.settledStatus = st ∧ ∃ r, Recorded c o r
  | .settle c' s => c' = c ∧ (Change.settled s).status = st ∧ ∃ r, Recorded c o r
  | .emit _ _ | .returned _ => ∃ r, Recorded c o r ∧ r.status = st
  | _ => False

section Outcome

variable {env : Environment} {c : Command} {s : Store} {acts : List Act} {p q : Point} {r : Result}

theorem Recorded.grow (h : Recorded c ⟨s,p,acts⟩ r) {act : Act}
    (ha : act.isStored = false) : Recorded c ⟨s,q,act::acts⟩ r := by
  obtain ⟨r',hr'⟩ := h.written
  refine ⟨h.result,h.command,h.key,⟨r',List.mem_cons_of_mem _ hr'⟩,fun id r'' hmem => ?_⟩
  rcases List.mem_cons.mp hmem with rfl | hmem
  · cases ha
  · exact h.only id r'' hmem

theorem Recorded.put (h : Recorded c ⟨s,p,acts⟩ r) (ch : Change)
    (now : ℤ) : Recorded c ⟨s.put c.id (r.change ch now),q,
      .stored c.id (r.change ch now)::acts⟩ (r.change ch now) := by
  refine ⟨by simp,h.command,h.key,⟨_,List.mem_cons_self⟩,fun id r' hmem => ?_⟩
  rcases List.mem_cons.mp hmem with heq | hmem
  · obtain ⟨rfl,rfl⟩ : id = c.id ∧ r' = r.change ch now := by simpa using heq
    exact ⟨rfl,h.command⟩
  · exact h.only id r' hmem

theorem Recorded.start (hacts : noWrites acts) (adm : Admission) (now : ℤ) (q : Point) :
    Recorded c ⟨s.record (c.initial adm now),q,.stored c.id (c.initial adm now)::acts⟩
      (c.initial adm now) := by
  refine ⟨by simp,rfl,by simp,⟨_,List.mem_cons_self⟩,fun id r' hmem => ?_⟩
  rcases List.mem_cons.mp hmem with heq | hmem
  · obtain ⟨rfl,rfl⟩ : id = c.id ∧ r' = c.initial adm now := by simpa using heq
    exact ⟨rfl,rfl⟩
  · have := hacts _ hmem
    simp [Act.isStored] at this

theorem leaves_step {st : Status} (s : Store) (p : Point) (acts : List Act) (e : Effect)
    (h : Leaves env c st ⟨s,p,acts⟩) (hs : Steps s (env p.stage) p e) :
    Leaves env c st ⟨e.store,e.point,e.act.toList++acts⟩ := by
  cases hs with
  | failed _ err hp => cases p <;> first | exact h.elim | exact hp.elim
  | missing _ id ch hp hr =>
    cases p with
    | mark c' =>
      obtain ⟨rfl,_,r,hrec⟩ := h
      obtain ⟨rfl,_⟩ : c'.id = id ∧ Change.dispatched = ch := by simpa [Point.change] using hp
      have := hrec.result.symm.trans hr
      cases this
    | settle c' st' =>
      obtain ⟨rfl,_,r,hrec⟩ := h
      obtain ⟨rfl,_⟩ : c'.id = id ∧ Change.settled st' = ch := by simpa [Point.change] using hp
      have := hrec.result.symm.trans hr
      cases this
    | _ => first | exact h.elim | cases hp
  | recorded c' adm =>
    obtain ⟨rfl,hst,hacts⟩ := h
    exact ⟨rfl,hst,_,.start hacts adm _ _,rfl⟩
  | admitted c' r he =>
    obtain ⟨rfl,hst,r',hrec,_⟩ := h
    exact ⟨rfl,(if_pos ⟨rfl,he⟩).symm.trans hst,r',hrec.grow rfl⟩
  | stopped c' adm r he =>
    obtain ⟨rfl,hst,r',hrec,hr'⟩ := h
    have hfinal : env.finalStatus adm = adm.status := if_neg fun h => he h.1 h.2
    exact ⟨r',hrec.grow rfl,by rw [hr',← hst,hfinal]⟩
  | marked c' r hr =>
    obtain ⟨rfl,hst,r',hrec⟩ := h
    obtain rfl : r' = r := by simpa [hrec.result] using hr
    exact ⟨rfl,hst,_,hrec.put .dispatched _,rfl⟩
  | announced c' r he =>
    obtain ⟨rfl,hst,r',hrec,_⟩ := h
    exact ⟨rfl,(if_pos he).symm.trans hst,r',hrec.grow rfl⟩
  | unannounced c' r he =>
    obtain ⟨rfl,hst,r',hrec,hr'⟩ := h
    exact ⟨r',hrec.grow rfl,by rw [hr',← hst]; exact (if_neg he).symm⟩
  | dispatching c' | acknowledged c' =>
    obtain ⟨rfl,hst,r',hrec⟩ := h
    exact ⟨rfl,hst,r',hrec.grow rfl⟩
  | settled c' st' r hr =>
    obtain ⟨rfl,hst,r',hrec⟩ := h
    obtain rfl : r' = r := by simpa [hrec.result] using hr
    exact ⟨_,hrec.put (.settled st') _,hst⟩
  | emitted event r =>
    obtain ⟨r',hrec,hr'⟩ := h
    exact ⟨r',hrec.grow rfl,hr'⟩
  | returned reply =>
    obtain ⟨r',hrec,hr'⟩ := h
    exact ⟨r',hrec,hr'⟩
  | _ => exact h.elim

/-- A call that records its command leaves it with the status its environment decides. -/
theorem finish_record (adm : Admission) (hacts : noWrites acts) :
    ∃ r, Recorded c (Solo.finish env ⟨s,.record c adm,acts⟩) r ∧
      r.status = env.finalStatus adm := by
  have h : Leaves env c (env.finalStatus adm) (Solo.finish env ⟨s,.record c adm,acts⟩) :=
    solo_invariant (fun s p acts e => leaves_step s p acts e) ⟨rfl,rfl,hacts⟩
  obtain ⟨reply,hreply⟩ := solo_finish_returned env ⟨s,.record c adm,acts⟩
  rw [Leaves,hreply] at h
  exact h

end Outcome

/-- How `Submit` ends: without a record and with the store as it was, with a record it does
not mean to dispatch, or with a validated one. -/
inductive Ends (env : Environment) (s : Store) (c : Command) (o : Solo) : Prop
  | early (hs : o.store = s) (ha : noWrites o.acts)
  | refused (c' : Command) (adm : Admission) (r : Result) (hadm : adm ≠ .validated)
      (hr : Recorded c' o r) (hst : r.status = adm.status)
  | validated (c' : Command) (r : Result) (hv : Validates env s c c') (hr : Recorded c' o r)
      (hst : r.status = env.finalStatus .validated)

section Submit

variable {env : Environment} {s : Store} {c c' : Command} {acts : List Act} {a : Answer}

theorem finish_of_step {P : Solo → Prop} {p : Point}
    (h : ∀ e, Steps s (env p.stage) p e → P (Solo.finish env ⟨e.store,e.point,e.act.toList++acts⟩)) :
    P (Solo.finish env ⟨s,p,acts⟩) := by
  rw [← solo_finish_step]
  exact h _ (step_steps s _ p)

theorem ends_early (reply : Reply) (ha : noWrites acts) :
    Ends env s c (Solo.finish env ⟨s,.returned reply,acts⟩) := .early rfl ha

theorem noWrites_cons {act : Act} (ha : act.isStored = false) (h : noWrites acts) :
    noWrites (act::acts) := List.forall_mem_cons.mpr ⟨ha,h⟩

theorem ends_refused {adm : Admission} (hadm : adm ≠ .validated) (ha : noWrites acts) :
    Ends env s c (Solo.finish env ⟨s,.record c' adm,acts⟩) := by
  obtain ⟨r,hr,hst⟩ : ∃ r, Recorded c' (Solo.finish env ⟨s,.record c' adm,acts⟩) r ∧
      r.status = env.finalStatus adm := finish_record adm ha
  exact .refused c' adm r hadm hr (hst.trans (if_neg fun h => hadm h.1))

theorem ends_evaluate (ha : noWrites acts)
    (hv : (∃ d, (env .evaluate).decision = .ok d ∧ d.allowed = true) → Validates env s c c') :
    Ends env s c (Solo.finish env ⟨s,.evaluate c',acts⟩) := by
  apply finish_of_step
  intro e hs
  cases hs with
  | undecided _ err _ => exact ends_early _ (noWrites_cons rfl ha)
  | decided _ d hd =>
    dsimp only
    split_ifs with hallowed
    · have hacts : noWrites (.evaluated c' (.ok d)::acts) := noWrites_cons rfl ha
      obtain ⟨r,hr,hst⟩ : ∃ r, Recorded c' (Solo.finish env ⟨s,.record c' .validated,_⟩) r ∧
        r.status = env.finalStatus .validated := finish_record .validated hacts
      exact .validated c' r (hv ⟨d,hd,hallowed⟩) hr hst
    · exact ends_refused (by simp) (noWrites_cons rfl ha)
  | failed _ _ hp => exact hp.elim
  | missing _ _ _ hp _ => cases hp

theorem ends_revision (ha : noWrites acts)
    (hv : (∀ expected, c'.expectedRevision = some expected →
      (env .revision).snapshot = .ok expected) →
      (∃ d, (env .evaluate).decision = .ok d ∧ d.allowed = true) → Validates env s c c') :
    Ends env s c (Solo.finish env ⟨s,.revision c',acts⟩) := by
  apply finish_of_step
  intro e hs
  cases hs with
  | current _ hrev => exact ends_evaluate ha (hv hrev)
  | outdated _ => exact ends_refused (by simp) ha
  | failed _ err _ => exact ends_early _ ha
  | missing _ _ _ hp _ => cases hp

/-- A submission fails at once, finds the record of its key, or goes on to the expiry check. -/
theorem submit_cases {P : Solo → Prop}
    (hfail : ∀ err, P (Solo.finish env ⟨s,.returned ⟨none,some err⟩,[]⟩))
    (hfound : ∀ c' r, c.withIDs (env .submit) = .ok c' → s.lookup c' = some (.ok r) →
      P (Solo.finish env ⟨s,.returned ⟨some r,none⟩,[]⟩))
    (hmissed : ∀ c', (env .submit).ctx = none → c.withIDs (env .submit) = .ok c' →
      validateCommand c' = none → s.lookup c' = none → P (Solo.finish env ⟨s,.expiry c',[]⟩)) :
    P (submit env s c) := by
  refine finish_of_step fun e hs => ?_
  cases hs with
  | failed _ err _ => exact hfail err
  | missing _ _ _ hp _ => cases hp
  | submitted _ c' hctx hc hvalid =>
    refine finish_of_step fun e hs => ?_
    cases hs with
    | failed _ err _ => exact hfail err
    | missing _ _ _ hp _ => cases hp
    | found _ r hl => exact hfound c' r hc hl
    | missed _ hl => exact hmissed c' hctx hc hvalid hl

theorem submit_ends (env : Environment) (s : Store) (c : Command) :
    Ends env s c (submit env s c) := by
  have hnil : noWrites [] := fun _ h => (nomatch h)
  refine submit_cases (fun _ => ends_early _ hnil) (fun _ _ _ _ => ends_early _ hnil)
    fun c' hctx hc hvalid hfree => finish_of_step fun e hs => ?_
  cases hs with
  | failed _ _ hp => exact hp.elim
  | missing _ _ _ hp _ => cases hp
  | late _ _ => exact ends_refused (by simp) hnil
  | live _ hnow =>
    exact ends_revision hnil fun hrev hallowed => ⟨hctx,hc,hvalid,hfree,hnow,hrev,hallowed⟩

theorem finish_eq_of_step {o o' : Solo} (h : o.step env = o') : o.finish env = o'.finish env := by
  rw [← solo_finish_step,h]

theorem submit_eq_record (hv : Validates env s c c') :
    ∃ acts, noWrites acts ∧ submit env s c = Solo.finish env ⟨s,.record c' .validated,acts⟩ := by
  obtain ⟨d,hd,hallowed⟩ := hv.allowed
  have hrevision : Solo.step env ⟨s,.revision c',[]⟩ = ⟨s,.evaluate c',[]⟩ := by
    cases hexp : c'.expectedRevision with
    | none => simp [Solo.step,Point.step,hexp]
    | some expected => simp [Solo.step,Point.step,Point.stage,hexp,hv.current expected hexp]
  refine ⟨[.evaluated c' (.ok d)],by simp [noWrites,Act.isStored],?_⟩
  calc submit env s c
      = Solo.finish env ⟨s,.lookup c',[]⟩ := finish_eq_of_step (by
        simp [Solo.step,Point.step,Point.stage,hv.ctx,hv.ids,hv.valid])
    _ = Solo.finish env ⟨s,.expiry c',[]⟩ := finish_eq_of_step (by
        simp [Solo.step,Point.step,hv.free])
    _ = Solo.finish env ⟨s,.revision c',[]⟩ := finish_eq_of_step (by
        simp [Solo.step,Point.step,Point.stage,hv.live])
    _ = Solo.finish env ⟨s,.evaluate c',[]⟩ := finish_eq_of_step hrevision
    _ = Solo.finish env ⟨s,.record c' .validated,[.evaluated c' (.ok d)]⟩ := finish_eq_of_step (by
        simp [Solo.step,Point.step,Point.stage,hd,hallowed])

theorem withIDs_eq (h : c.withIDs a = .ok c') :
    ∃ id correlationID, c' = { c with id, correlationID } := by
  unfold Command.withIDs at h
  split at h
  · cases h
  · split at h
    · cases h
    · cases h
      exact ⟨_,_,rfl⟩

theorem withIDs_key (h : c.withIDs a = .ok c') : c'.idempotencyKey = c.idempotencyKey := by
  obtain ⟨_,_,rfl⟩ := withIDs_eq h
  rfl

/-- A submission whose key is bound returns the record it is bound to, if it returns one. -/
theorem submit_of_bound {id : CommandID} {r r' : Result}
    (hkey : s.idempotency.lookup c.idempotencyKey = some id) (hr : s.results.lookup id = some r)
    (h : (submit env s c).point = .returned ⟨some r',none⟩) : r' = r := by
  have hlookup {c' : Command} (hc : c.withIDs (env .submit) = .ok c') : s.lookup c' =
      if Equivalent r.command c' then some (.ok r) else some (.error .conflict) := by
    rw [Store.lookup,withIDs_key hc,hkey]
    simp only [hr]
  revert h
  refine submit_cases (P := fun o => o.point = .returned ⟨some r',none⟩ → r' = r)
    (fun _ h => (nomatch h)) (fun c' r₁ hc hl h => ?_) fun c' _ hc _ hl => ?_
  · rw [hlookup hc] at hl
    split_ifs at hl
    · cases h
      cases hl
      rfl
    · cases hl
  · rw [hlookup hc] at hl
    split_ifs at hl

end Submit

section Keys

def Point.binds : Point → Option String
  | .submit c | .lookup c | .expiry c | .revision c | .evaluate c | .record c _ =>
    some c.idempotencyKey
  | _ => none

variable {s : Store} {a : Answer} {p : Point} {e : Effect} {k : String} {env : Environment}

theorem Steps.binds (h : Steps s a p e) (hk : e.point.binds = some k) : p.binds = some k := by
  cases h with
  | submitted c c' _ hc _ =>
    rw [← hk]
    exact congrArg some (withIDs_key hc).symm
  | missed | live | late | current | outdated | decided => exact hk
  | _ => cases hk

theorem Steps.keys (h : Steps s a p e)
    (k : String) : e.store.idempotency.lookup k = s.idempotency.lookup k ∨
      p.binds = some k ∧ e.store.idempotency.lookup k ≠ none := by
  cases h.writes with
  | nothing _ hs _ => exact .inl (by rw [hs])
  | record c adm hrec =>
    subst hrec
    by_cases hk : k = c.idempotencyKey
    · exact .inr ⟨congrArg some hk.symm,by simp [hk]⟩
    · exact .inl (by simp [hk])
  | change id ch r q _ _ => exact .inl rfl

/-- What a call begun at `p` on `s` has done to a key, and may still bind. -/
structure KeyFrame (s : Store) (p : Point) (k : String) (o : Solo) : Prop where
  binds : ∀ k', o.point.binds = some k' → p.binds = some k'
  bound : o.store.idempotency.lookup k = s.idempotency.lookup k ∨
    p.binds = some k ∧ o.store.idempotency.lookup k ≠ none

theorem keyFrame_step (s' : Store)
    (q : Point) (acts : List Act) (e : Effect) (h : KeyFrame s p k ⟨s',q,acts⟩)
    (hs : Steps s' (env q.stage) q e) : KeyFrame s p k ⟨e.store,e.point,e.act.toList++acts⟩ := by
  refine ⟨fun k' hk' => h.binds k' (hs.binds hk'),?_⟩
  rcases hs.keys k with hsame | ⟨hbinds,hbound⟩
  · rw [hsame]
    exact h.bound
  · exact .inr ⟨h.binds k hbinds,hbound⟩

/-- A call that has run to its end has bound at most the key it came with, and none is unbound. -/
theorem finish_keys (env : Environment) (s : Store) (p : Point) (k : String) :
    KeyFrame s p k (Solo.finish env ⟨s,p,[]⟩) :=
  solo_invariant keyFrame_step ⟨fun _ h => h,.inl rfl⟩

theorem finish_acts (env : Environment) {o : Solo} {act : Act} (h : act ∈ o.acts) :
    act ∈ (o.finish env).acts :=
  solo_invariant (P := fun o => act ∈ o.acts)
    (fun _ _ _ _ hmem _ => List.mem_append_right _ hmem) h

/-- A command whose events are delivered is handed to the executor. -/
theorem finish_dispatches {c : Command} {acts : List Act}
    (hrecorded : (env .recorded).emitted = none) (hmarked : (env .marked).emitted = none) :
    .dispatching c ∈ (Solo.finish env ⟨s,.record c .validated,acts⟩).acts := by
  let r := c.initial .validated (env .record).now
  let r' := r.change .dispatched (env .mark).now
  let validated : List Act := .emitted .commandValidated r.severity r none::.stored c.id r::acts
  let dispatched : List Act :=
    .emitted .commandDispatched r'.severity r' none::.stored c.id r'::validated
  have hstep : ∃ s' acts', Solo.finish env ⟨s,.record c .validated,acts⟩ =
      Solo.finish env ⟨s',.awaiting c,.dispatching c::acts'⟩ := by
    refine ⟨(s.record r).put c.id r',dispatched,?_⟩
    calc Solo.finish env ⟨s,.record c .validated,acts⟩
        = Solo.finish env ⟨s.record r,.recorded c .validated r,.stored c.id r::acts⟩ :=
          finish_eq_of_step rfl
      _ = Solo.finish env ⟨s.record r,.mark c,validated⟩ :=
          finish_eq_of_step (by
            simp [Solo.step,Point.step,Point.stage,hrecorded,Admission.event,validated])
      _ = Solo.finish env ⟨(s.record r).put c.id r',.marked c r',.stored c.id r'::validated⟩ :=
          finish_eq_of_step (by simp [Solo.step,Point.step,Point.stage,Store.transition,r,r'])
      _ = Solo.finish env ⟨(s.record r).put c.id r',.dispatch c,dispatched⟩ :=
          finish_eq_of_step (by simp [Solo.step,Point.step,Point.stage,hmarked,dispatched])
      _ = Solo.finish env ⟨(s.record r).put c.id r',.awaiting c,.dispatching c::dispatched⟩ :=
          finish_eq_of_step rfl
  obtain ⟨s',acts',heq⟩ := hstep
  rw [heq]
  exact finish_acts env List.mem_cons_self

end Keys

/-- The statuses a submitted command may be left with. -/
def Status.Conclusive (st : Status) : Prop :=
  st = .rejected ∨ st = .expired ∨ st = .acknowledged ∨ st = .failed

theorem conclusive_of_refused {adm : Admission} (h : adm ≠ .validated) : adm.status.Conclusive := by
  cases adm with
  | validated => exact absurd rfl h
  | _ => simp [Admission.status,Status.Conclusive]

theorem conclusive_settled (st : Settlement) : (Change.settled st).status.Conclusive := by
  cases st <;> simp [Change.status,Status.Conclusive]

/-- A validated command is left in a conclusive status exactly if both its events before
the dispatch are delivered. -/
theorem conclusive_final (env : Environment) : (env.finalStatus .validated).Conclusive ↔
      (env .recorded).emitted = none ∧ (env .marked).emitted = none := by
  by_cases hrecorded : (env .recorded).emitted = none
  · by_cases hmarked : (env .marked).emitted = none
    · simp only [Environment.finalStatus,Environment.markedStatus,hrecorded,hmarked,and_self,if_true]
      exact iff_of_true (conclusive_settled _) trivial
    · simp [Environment.finalStatus,Environment.markedStatus,hrecorded,hmarked,Status.Conclusive]
  · simp [Environment.finalStatus,hrecorded,Admission.status,Status.Conclusive]

/-- A call that has written a record leaves the command in a conclusive status, and no retry
under its key is answered with any other. -/
def LeavesConclusive (env : Environment) (s : Store) (c : Command) : Prop :=
  ∀ id r, .stored id r ∈ (submit env s c).acts →
    (∃ r', (submit env s c).store.results.lookup id = some r' ∧ r'.status.Conclusive) ∧
    ∀ env' retry r', retry.idempotencyKey = r.command.idempotencyKey →
      (submit env' (submit env s c).store retry).point = .returned ⟨some r',none⟩ →
      r'.status.Conclusive

theorem leavesConclusive_of_recorded {env : Environment} {s : Store} {c c' : Command} {r : Result}
    (h : Recorded c' (submit env s c) r) (hst : r.status.Conclusive) : LeavesConclusive env s c := by
  intro id r₁ hmem
  obtain ⟨rfl,hcommand⟩ := h.only id r₁ hmem
  refine ⟨⟨r,h.result,hst⟩,fun env' retry r' hkey hreply => ?_⟩
  rw [hcommand] at hkey
  rw [submit_of_bound (hkey ▸ h.key) h.result hreply]
  exact hst

theorem conclusive_iff_events_delivered (env : Environment) (s : Store) (c : Command) :
    LeavesConclusive env s c ↔
      ∀ c', Validates env s c c' → (env .recorded).emitted = none ∧ (env .marked).emitted = none := by
  constructor
  · intro h c' hv
    obtain ⟨acts,hacts,hsubmit⟩ := submit_eq_record hv
    obtain ⟨r,hr,hst⟩ : ∃ r, Recorded c' (Solo.finish env ⟨s,.record c' .validated,acts⟩) r ∧
      r.status = env.finalStatus .validated := finish_record .validated hacts
    rw [← hsubmit] at hr
    obtain ⟨r₁,hmem⟩ := hr.written
    obtain ⟨⟨r',hlookup,hr'⟩,_⟩ := h c'.id r₁ hmem
    obtain rfl : r' = r := by simpa [hr.result] using hlookup.symm
    rw [← conclusive_final,← hst]
    exact hr'
  · intro h
    cases submit_ends env s c with
    | early _ ha =>
      intro id r hmem
      have := ha _ hmem
      simp [Act.isStored] at this
    | refused c' adm r hadm hr hst =>
      exact leavesConclusive_of_recorded hr (hst ▸ conclusive_of_refused hadm)
    | validated c' r hv hr hst =>
      exact leavesConclusive_of_recorded hr (hst ▸ (conclusive_final env).mpr (h c' hv))

def refusingBus : Environment := fun
  | .recorded => { emitted := some (.message "event bus closed") }
  | _ => {}

/-- The refused event leaves the command validated; a retry returns it without an error and
without a dispatch. -/
theorem refused_event_strands_command :
    let o := submit refusingBus {} lampOn
    let retry := submit (fun _ => {}) o.store lampOn
    o.store.results.lookup lampOn.id = some (lampOn.initial .validated 0) ∧
    retry.point = .returned ⟨some (lampOn.initial .validated 0),none⟩ ∧
    .dispatching lampOn ∉ retry.acts++o.acts ∧ ¬ LeavesConclusive refusingBus {} lampOn := by
  refine ⟨by decide,by decide,by decide,fun h => ?_⟩
  obtain ⟨⟨r,hr,hst⟩,_⟩ := h lampOn.id (lampOn.initial .validated 0) (by decide)
  have hlookup : (submit refusingBus {} lampOn).store.results.lookup lampOn.id =
      some (lampOn.initial .validated 0) := by decide
  cases hlookup.symm.trans hr
  simp [Status.Conclusive,Admission.status] at hst

end Output
end AquaOS
