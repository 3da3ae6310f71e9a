import AquaOS.OutputSystem

/-! Where success comes from. Calls that run one after the other leave a trail in the log;
what a record's status and a call's point say about the command is read back from it. -/
namespace AquaOS
namespace Output

open Domain SafetyEngine Transition

def Authorised (log : List Act) (c : Command) : Prop :=
  ∃ d : Decision, d.allowed = true ∧ [.evaluated c (.ok d)].Sublist log

def Accepted (log : List Act) (c : Command) : Prop :=
  ∃ (d : Decision) (ack : Acknowledgement), d.allowed = true ∧ ack.accepted = true ∧
    [.acknowledged c (.ok ack),.evaluated c (.ok d)].Sublist log

def Confirmed (log : List Act) (id : CommandID) (c : Command) (t : ℤ) : Prop :=
  t ≠ 0 ∧ ∃ (d : Decision) (ack : Acknowledgement), d.allowed = true ∧ ack.accepted = true ∧
    [.reported id c.on t none,.acknowledged c (.ok ack),.evaluated c (.ok d)].Sublist log

section Growth

variable {log : List Act} {c : Command} (acts : List Act)

theorem Authorised.grow (h : Authorised log c) : Authorised (acts++log) c := by
  obtain ⟨d,hd,hsub⟩ := h
  exact ⟨d,hd,hsub.trans (List.sublist_append_right acts log)⟩

theorem Accepted.grow (h : Accepted log c) : Accepted (acts++log) c := by
  obtain ⟨d,ack,hd,hack,hsub⟩ := h
  exact ⟨d,ack,hd,hack,hsub.trans (List.sublist_append_right acts log)⟩

theorem Confirmed.grow {id : CommandID} {t : ℤ} (h : Confirmed log id c t) :
    Confirmed (acts++log) id c t := by
  obtain ⟨ht,d,ack,hd,hack,hsub⟩ := h
  exact ⟨ht,d,ack,hd,hack,hsub.trans (List.sublist_append_right acts log)⟩

end Growth

def Store.Holds (s : Store) (c : Command) : Prop :=
  ∃ r, s.results.lookup c.id = some r ∧ r.command = c

/-- What the log must show for a call to stand at a point. -/
def Point.Justified (s : Store) (log : List Act) : Point → Prop
  | .record c .validated => Authorised log c
  | .recorded c .validated _ | .mark c | .marked c _ | .dispatch c | .awaiting c =>
    s.Holds c ∧ Authorised log c
  | .settle c (.acknowledged _) => s.Holds c ∧ Accepted log c
  | .report id c _ t => t ≠ 0 ∧ Accepted log c ∧
    ∃ r, s.results.lookup id = some r ∧ r.command = c
  | .close id (.reconciled t) => ∃ r, s.results.lookup id = some r ∧ Confirmed log id r.command t
  | _ => True

/-- What the log must show for the stored statuses. -/
structure Justified (s : Store) (log : List Act) : Prop where
  accepted : ∀ id r, s.results.lookup id = some r → r.status = .acknowledged →
    Accepted log r.command
  confirmed : ∀ id r, s.results.lookup id = some r → r.status = .succeeded →
    ∃ t, r.reconciledAt = some t ∧ Confirmed log id r.command t

theorem settlement_acknowledged {a : Answer} {t : ℤ} (h : settlement a = .acknowledged t) :
    ∃ ack, a.acknowledgement = .ok ack ∧ ack.accepted = true := by
  unfold settlement at h
  cases hack : a.acknowledgement with
  | error err => rw [hack] at h; cases h
  | ok ack =>
    rw [hack] at h
    dsimp only at h
    by_cases hacc : ack.accepted = true
    · exact ⟨ack,rfl,hacc⟩
    · rw [if_neg hacc] at h
      cases h

section Step

variable {s : Store} {a : Answer} {p : Point} {e : Effect} {log : List Act}

theorem Steps.point_justified (hs : Steps s a p e) (hj : Justified s log)
    (hp : p.Justified s log) : e.point.Justified e.store (e.act.toList++log) := by
  cases hs with
  | decided c d hd =>
    dsimp only
    split_ifs with hallowed
    · exact ⟨d,hallowed,List.Sublist.cons_cons _ (List.nil_sublist _)⟩
    · trivial
  | recorded c adm =>
    cases adm with
    | validated => exact ⟨⟨c.initial .validated a.now,by simp,rfl⟩,hp.grow _⟩
    | _ => trivial
  | admitted c r _ => exact ⟨hp.1,hp.2.grow _⟩
  | marked c r hr =>
    obtain ⟨r',hr',hc⟩ := hp.1
    obtain rfl : r = r' := by simpa [hr] using hr'
    exact ⟨⟨r.change .dispatched a.now,by simp,hc⟩,hp.2.grow _⟩
  | announced c r _ | dispatching c => exact ⟨hp.1,hp.2.grow _⟩
  | acknowledged c =>
    cases hst : settlement a with
    | acknowledged t =>
      obtain ⟨ack,hack,hacc⟩ := settlement_acknowledged hst
      obtain ⟨d,hd,hsub⟩ := hp.2
      rw [hack]
      exact ⟨hp.1,d,ack,hd,hacc,hsub.cons_cons _⟩
    | _ => trivial
  | reconciling id on t r hr hst ht => exact ⟨ht,hj.accepted id r hr hst,r,hr,rfl⟩
  | reported id c on t =>
    obtain ⟨ht,⟨d,ack,hd,hack,hsub⟩,r,hr,hc⟩ := hp
    dsimp only
    split_ifs with hon
    · subst hc hon
      exact ⟨r,hr,ht,d,ack,hd,hack,hsub.cons_cons _⟩
    · trivial
  | _ => trivial

theorem Justified.grow (h : Justified s log) (acts : List Act) : Justified s (acts++log) := by
  refine ⟨fun id r hr hst => (h.accepted id r hr hst).grow acts,fun id r hr hst => ?_⟩
  obtain ⟨t,ht,hc⟩ := h.confirmed id r hr hst
  exact ⟨t,ht,hc.grow acts⟩

theorem admission_unjustified (adm : Admission) :
    adm.status ≠ .acknowledged ∧ adm.status ≠ .succeeded := by
  cases adm <;> simp [Admission.status]

theorem change_justified {id : CommandID} {ch : Change} {r : Result}
    (hp : p.Justified s log) (hch : p.change = some (id,ch)) (hr : s.results.lookup id = some r) :
    (ch.status = .acknowledged → Accepted log r.command) ∧
    (ch.status = .succeeded → ∃ t, ch.time = some t ∧ Confirmed log id r.command t) := by
  cases p with
  | mark c =>
    obtain ⟨_,rfl⟩ : c.id = id ∧ Change.dispatched = ch := by simpa [Point.change] using hch
    simp [Change.status]
  | settle c st =>
    obtain ⟨rfl,rfl⟩ : c.id = id ∧ Change.settled st = ch := by simpa [Point.change] using hch
    cases st with
    | acknowledged t =>
      obtain ⟨⟨r',hr',hc⟩,hacc⟩ := hp
      obtain rfl : r = r' := by simpa [hr] using hr'
      exact ⟨fun _ => hc ▸ hacc,by simp [Change.status]⟩
    | _ => simp [Change.status]
  | close i cl =>
    obtain ⟨rfl,rfl⟩ : i = id ∧ Change.closed cl = ch := by simpa [Point.change] using hch
    cases cl with
    | reconciled t =>
      obtain ⟨r',hr',hc⟩ := hp
      obtain rfl : r = r' := by simpa [hr] using hr'
      exact ⟨by simp [Change.status],fun _ => ⟨t,rfl,hc⟩⟩
    | _ => simp [Change.status]
  | _ => simp [Point.change] at hch

theorem Steps.store_justified (hs : Steps s a p e) (hj : Justified s log)
    (hp : p.Justified s log) : Justified e.store (e.act.toList++log) := by
  cases hs.writes with
  | nothing _ hstore _ => rw [hstore]; exact hj.grow _
  | record c adm _ =>
    have hnew := hj.grow [.stored c.id (c.initial adm a.now)]
    constructor
    · intro id r hr hst
      rw [record_results] at hr
      split_ifs at hr with hid
      · obtain rfl : c.initial adm a.now = r := by simpa using hr
        exact absurd hst (admission_unjustified adm).1
      · exact hnew.accepted id r hr hst
    · intro id r hr hst
      rw [record_results] at hr
      split_ifs at hr with hid
      · obtain rfl : c.initial adm a.now = r := by simpa using hr
        exact absurd hst (admission_unjustified adm).2
      · exact hnew.confirmed id r hr hst
  | change id ch r q hch hr =>
    have hnew := hj.grow [.stored id (r.change ch a.now)]
    obtain ⟨hacc,hconf⟩ := change_justified hp hch hr
    constructor
    · intro id' r' hr' hst
      rw [put_results] at hr'
      split_ifs at hr' with hid
      · obtain rfl : r.change ch a.now = r' := by simpa using hr'
        exact (hacc hst).grow _
      · exact hnew.accepted id' r' hr' hst
    · intro id' r' hr' hst
      rw [put_results] at hr'
      split_ifs at hr' with hid
      · subst hid
        obtain rfl : r.change ch a.now = r' := by simpa using hr'
        obtain ⟨t,ht,hc⟩ := hconf hst
        refine ⟨t,?_,hc.grow _⟩
        rw [change_status] at hst
        simp [Result.change,hst,ht]
      · exact hnew.confirmed id' r' hr' hst

end Step

structure ProvenanceInv (w : World) : Prop where
  points : ∀ i p, (w.thread i).point = some p → p.Justified w.store w.log
  records : Justified w.store w.log

/-- Every other thread has nothing but a returned call. -/
def Solitary (w : World) (i : ℕ) (p : Point) : Prop :=
  p.reply = none → ∀ j q, j ≠ i → (w.thread j).point = some q → ∃ reply, q = .returned reply

theorem provenance_init : ProvenanceInv {} :=
  ⟨fun _ _ h => (nomatch h),fun _ _ h => (nomatch h),fun _ _ h => (nomatch h)⟩

theorem entry_justified {p : Point} (h : p.Entry) (s : Store) (log : List Act) :
    p.Justified s log := by
  cases p <;> trivial

theorem provenance_move (w : World) (i : ℕ) (t : Thread) (h : ProvenanceInv w)
    (ht : t.Outside) : ProvenanceInv (w.move i t) := by
  refine ⟨?_,h.records⟩
  exact forall_update (P := fun _ (t : Thread) => ∀ p, t.point = some p →
    p.Justified w.store w.log) i (fun p hp => entry_justified (ht p hp) _ _)
    fun j _ => h.points j

theorem provenance_call (w : World) (i : ℕ) (a : Answer) (p : Point) (e : Effect)
    (next : Point → Thread) (h : ProvenanceInv w) (hp : (w.thread i).point = some p)
    (hsolo : Solitary w i p) (hs : Steps w.store a p e)
    (hnext : ∀ q, (next q).point = some q) : ProvenanceInv (w.advance i e next) := by
  have hpoint := h.points i p hp
  refine ⟨?_,hs.store_justified h.records hpoint⟩
  refine forall_update (P := fun _ (t : Thread) => ∀ q, t.point = some q →
    q.Justified e.store (e.act.toList++w.log)) i ?_ ?_
  · intro q hq
    obtain rfl : e.point = q := by simpa [hnext] using hq
    exact hs.point_justified h.records hpoint
  · intro j hj q hq
    cases hr : p.reply with
    | none =>
      obtain ⟨reply,rfl⟩ := hsolo hr j q hj hq
      trivial
    | some reply =>
      have hquiet : e.store = w.store ∧ e.act = none := by
        cases p <;> cases hr
        cases hs <;> exact ⟨rfl,rfl⟩
      rw [hquiet.1,hquiet.2]
      exact h.points j q hq

/-- In every run of calls one after the other, a record that has succeeded holds a command
that the policy allowed, that the executor then accepted, and that a later `Reconcile`
call for its ID reported in the commanded state at the recorded non-zero time. -/
theorem success_is_confirmed (ls : List Label) (hseq : Guarded World.step Sequential {} ls)
    (id : CommandID) (r : Result)
    (hr : (run World.step {} ls).store.results.lookup id = some r) (hst : r.status = .succeeded) :
    ∃ (d : Decision) (ack : Acknowledgement) (t : ℤ), d.allowed = true ∧ ack.accepted = true ∧
      t ≠ 0 ∧ r.reconciledAt = some t ∧
      [.reported id r.command.on t none,.acknowledged r.command (.ok ack),
        .evaluated r.command (.ok d)].Sublist (run World.step {} ls).log := by
  have hany : Guarded World.step (AtPoint fun _ _ _ => True) {} ls := by
    refine Guarded.of_forall (fun w l => ?_) _ ls
    cases l with
    | start i op => trivial
    | step i a => exact fun _ _ => trivial
  have hg : Guarded World.step (AtPoint Solitary) {} ls :=
    sequential_guard (fun w i p halone hp _ hr j q hj hq => halone.others hp hr hj hq) hseq
      hany
  have h := system_invariant provenance_move provenance_call provenance_init hg
  obtain ⟨t,ht,hz,d,ack,hd,hack,hsub⟩ := h.records.confirmed id r hr hst
  exact ⟨d,ack,t,hd,hack,hz,ht,hsub⟩

theorem success_is_confirmed_lamp :
    ∃ (d : Decision) (ack : Acknowledgement) (t : ℤ), d.allowed = true ∧ ack.accepted = true ∧
      t ≠ 0 ∧ some newYear = some t ∧
      [.reported lampOn.id true t none,.acknowledged lampOn (.ok ack),
        .evaluated lampOn (.ok d)].Sublist (run World.step {} lampReconciled).log :=
  success_is_confirmed lampReconciled
    (sequential_single (fun _ _ => rfl) (by decide : ∀ l ∈ lampReconciled, l.index = 0))
    lampOn.id ⟨lampOn,.succeeded,reasonReconciled,0,some 0,some newYear⟩ (by decide) rfl

end Output
end AquaOS
