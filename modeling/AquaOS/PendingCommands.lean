import AquaOS.PendingEntries

/-! The polls against the pending map: a worker deletes an entry only after its command has been
closed. Between calls the entries are exactly the acknowledged commands, as long as no entry is
overwritten, no record is, and the events of closing transitions are accepted. -/
namespace AquaOS

open Domain SafetyEngine Output Transition Shelly Bench

namespace Installation

section Invariant

variable {s : Installation}

theorem pendingInv_called (h : PendingInv s) {i : ℕ} (c : ClientCall)
    (hi : s.adapter.endpoints.length ≤ i) :
    PendingInv { s with controller := s.controller.step (.start i c.operation) } := by
  have ht := workerInv_called h.threads c hi
  by_cases hav : (s.controller.world.thread i).available = true
  · refine h.move ht (if_pos hav) rfl rfl rfl (operation_outside _)
      (fun q hq => available_point hav hq) fun e he => ?_
    have hlt := lt_of_endpoint he
    omega
  · exact h.of_world ht (if_neg hav) rfl rfl h.dispatching

/-- What a step of worker `k` leaves of the service. -/
structure Untouched (s : Installation) (k : ℕ) (w : World) : Prop where
  store : w.store = s.controller.world.store
  thread : ∀ j, j ≠ k → w.thread j = s.controller.world.thread j
  lifecycle : LifecycleInv w
  records : RecordInv w
  opened : ∀ id, OpenCommand s.controller.world id → OpenCommand w id
  settling : ∀ j c t, (w.thread j).point = some (.settle c (.acknowledged t)) →
    s.point j = some (.settle c (.acknowledged t))
  awaiting : ∀ j c, s.point j = some (.awaiting c) → (w.thread j).point = some (.awaiting c)

variable {k : ℕ} {e : Endpoint} {eff : PollEffect}

theorem PendingInv.untouched (h : PendingInv s) (he : s.adapter.endpoints[k]? = some e)
    (heff : PollSteps s.adapter s.site e (s.reply k) (s.poll k) eff) :
    Untouched s k (s.apply k e eff).controller.world := by
  cases hcall : eff.call with
  | some op =>
    obtain ⟨hav,hw⟩ := apply_starts h.threads he heff hcall
    have hret : ∀ q, (s.controller.world.thread k).point = some q → ∃ reply, q = .returned reply :=
      fun q hq => available_point hav hq
    rw [hw]
    refine ⟨rfl,fun j hj => move_thread_ne _ hj _,
      lifecycle_move _ k _ h.lifecycle (operation_outside op),
      record_move _ k _ h.records (operation_outside op),fun id ho => open_move hret ho,?_,?_⟩
    · intro j c t hj
      by_cases hjk : j = k
      · subst hjk
        rw [move_thread_self] at hj
        exact (operation_outside op _ hj).elim
      · rwa [move_thread_ne _ hjk] at hj
    · intro j c hj
      have hjk : j ≠ k := by
        rintro rfl
        obtain ⟨reply,hq⟩ := hret _ hj
        cases hq
      rw [move_thread_ne _ hjk]
      exact hj
  | none =>
    rw [apply_rests hcall]
    exact ⟨rfl,fun _ _ => rfl,h.lifecycle,h.records,fun _ ho => ho,fun _ _ _ hj => hj,
      fun _ _ hj => hj⟩

/-- After a step of worker `k` its own entry, if it has one, was its entry before, and the step
has changed its being finished only together with the command. -/
theorem PendingInv.own_entry (h : PendingInv s) (he : s.adapter.endpoints[k]? = some e)
    (heff : PollSteps s.adapter s.site e (s.reply k) (s.poll k) eff) (hkeep : eff.forgets = false) :
    eff.point.Finished ((s.apply k e eff).controller.world.thread k).point ↔
      (s.poll k).Finished (s.point k) := by
  cases heff.handles with
  | waits hpt hcall _ =>
    rw [hpt,apply_rests hcall]
    exact Iff.rfl
  | aside hpt hnext _ => exact iff_of_false (not_finished hnext _) (not_finished hpt _)
  | takes p hpt _ hnext hcall hwait _ =>
    refine iff_of_false ?_ (not_finished hpt _)
    obtain ⟨op,q,hop,hth,hcom⟩ := hcall
    obtain ⟨_,hw⟩ := apply_starts h.threads he heff hop
    rw [waiting_finished hwait (by simp [hnext]),hw,move_thread_self,hth]
    rintro ⟨q',hq,hcom'⟩
    obtain rfl : q = q' := Option.some.inj hq
    rw [hcom] at hcom'
    cases hcom'
  | commits p r hr herr hpt hwait _ hdone _ _ =>
    refine iff_of_true (hdone _) ?_
    rw [waiting_finished hwait (by simp [hpt]),point_of_reply hr]
    exact ⟨_,rfl,by simp [Point.committed,herr]⟩
  | leaves p r hr herr hpt hwait hnext _ _ =>
    refine iff_of_false (not_finished hnext _) ?_
    rw [waiting_finished hwait (by simp [hpt]),point_of_reply hr]
    rintro ⟨q,hq,hcom⟩
    obtain rfl := Option.some.inj hq
    exact herr (by simpa [Point.committed] using hcom)
  | deletes p _ _ _ _ hf =>
    rw [hkeep] at hf
    cases hf

/-- The entries after a step of worker `k`: all of them, or all but the one it has closed. -/
theorem PendingInv.entries (h : PendingInv s) (he : s.adapter.endpoints[k]? = some e)
    (heff : PollSteps s.adapter s.site e (s.reply k) (s.poll k) eff) :
    (eff.forgets = false ∧ (s.apply k e eff).adapter = s.adapter) ∨
    ∃ p, (s.apply k e eff).adapter = s.adapter.forget e.equipmentID ∧
      s.adapter.pending.lookup e.equipmentID = some p ∧
      ClosedCommand s.controller.world p.id ∧ eff.point.closing = none := by
  cases hf : eff.forgets with
  | false => exact .inl ⟨rfl,by simp [apply,hf]⟩
  | true =>
    right
    cases heff.handles with
    | deletes p hpt hdone hnext _ _ =>
      have hl := h.held k e p he hpt
      exact ⟨p,by simp [apply,hf],hl,h.finished k e p he hl (hdone _),hnext⟩
    | waits _ _ hff | aside _ _ hff => rw [hf] at hff; cases hff
    | takes _ _ _ _ _ _ hff => rw [hf] at hff; cases hff
    | commits _ _ _ _ _ _ _ _ _ hff => rw [hf] at hff; cases hff
    | leaves _ _ _ _ _ _ _ _ hff => rw [hf] at hff; cases hff

/-- A closed command has no acknowledged record, and no `Submit` call is about to store its
acknowledgement. -/
theorem PendingInv.not_closed (h : PendingInv s) {id : CommandID}
    (hc : ClosedCommand s.controller.world id) :
    (∀ r, s.results.lookup id = some r → r.status ≠ .acknowledged) ∧
    ∀ i c t, s.point i = some (.settle c (.acknowledged t)) → c.id ≠ id := by
  constructor
  · intro r hr hst
    exact open_not_closed h.lifecycle ⟨r,hr,.inl hst⟩ hc
  · rintro i c t hp rfl
    obtain ⟨r,hr,_⟩ := h.records.owned i _ c hp rfl
    exact open_not_closed h.lifecycle ⟨r,hr,.inr ⟨i,c,t,hp,rfl⟩⟩ hc

theorem pendingInv_polled (h : PendingInv s) (he : s.adapter.endpoints[k]? = some e)
    (heff : PollSteps s.adapter s.site e (s.reply k) (s.poll k) eff) :
    PendingInv (s.apply k e eff) := by
  have ht := workerInv_polled h.threads he heff
  have hun := h.untouched he heff
  have hresults : (s.apply k e eff).results = s.results :=
    congrArg Store.results hun.store
  have hclosed : ∀ id, ClosedCommand s.controller.world id →
      ClosedCommand (s.apply k e eff).controller.world id := by
    rintro id ⟨r,hr,hterm⟩
    exact ⟨r,by rw [hun.store,hr],hterm⟩
  have hendpoint : ∀ id, (s.apply k e eff).adapter.endpoint id = s.adapter.endpoint id := by
    intro id
    unfold Adapter.endpoint
    rw [apply_endpoints]
  have hkept : ∀ id pc, s.adapter.pending.lookup id = some pc →
      ¬ ClosedCommand s.controller.world pc.id →
      (s.apply k e eff).adapter.pending.lookup id = some pc := by
    intro id pc hpc hopen
    rcases h.entries he heff with ⟨_,ha⟩ | ⟨p,ha,hp,hc,_⟩
    · rwa [ha]
    · rw [ha]
      by_cases hid : id = e.equipmentID
      · subst hid
        obtain rfl := Option.mem_unique hp hpc
        exact absurd hc hopen
      · exact (AList.lookup_erase_ne hid).trans hpc
  have hphase : ∀ (j : ℕ) ej pc, s.adapter.endpoints[j]? = some ej →
      (s.apply k e eff).adapter.pending.lookup ej.equipmentID = some pc →
      (((s.apply k e eff).poll j).Finished ((s.apply k e eff).point j) ↔
        (s.poll j).Finished (s.point j)) := by
    intro j ej pc hej hpc
    by_cases hjk : j = k
    · subst hjk
      obtain rfl := Option.mem_unique he hej
      rw [apply_poll_self]
      exact h.own_entry he heff ((apply_pending hpc).2 rfl)
    · rw [apply_poll_ne hjk]
      unfold point
      rw [hun.thread j hjk]
  refine ⟨ht,hun.lifecycle,hun.records,?_,?_,?_,?_,?_,?_,?_,?_⟩
  · intro j c hj
    obtain ⟨hp,hep⟩ := h.dispatching j c hj
    rw [hendpoint]
    exact ⟨hun.awaiting j c hp,hep⟩
  · rw [apply_endpoints]
    intro id pc hpc
    exact h.located id pc (apply_pending hpc).1
  · rw [hresults]
    intro id pc hpc
    exact h.owned id pc (apply_pending hpc).1
  · rw [apply_endpoints]
    intro j ej pc hej hc
    by_cases hjk : j = k
    · subst hjk
      obtain rfl := Option.mem_unique he hej
      rw [apply_poll_self] at hc
      rcases h.entries he heff with ⟨_,ha⟩ | ⟨p,_,_,_,hnext⟩
      · rw [ha]
        cases heff.handles with
        | waits hpt _ _ => exact h.held _ _ _ he (hpt ▸ hc)
        | aside _ hnext _ => rw [hnext] at hc; cases hc
        | takes p _ hl hnext _ _ _ => rw [← hc,hnext]; exact hl
        | commits p _ _ _ hpt _ hnext _ _ _ =>
          rw [hnext] at hc
          exact h.held _ _ _ he (hpt.trans hc)
        | leaves _ _ _ _ _ _ hnext _ _ => rw [hnext] at hc; cases hc
        | deletes _ _ _ hnext _ _ => rw [hnext] at hc; cases hc
      · rw [hnext] at hc
        cases hc
    · rw [apply_poll_ne hjk] at hc
      have hl := h.held j ej pc hej hc
      have hne : ej.equipmentID ≠ e.equipmentID := fun heq => hjk (worker_unique hej he heq)
      rcases h.entries he heff with ⟨_,ha⟩ | ⟨p,ha,_⟩
      · rwa [ha]
      · rw [ha]
        exact (AList.lookup_erase_ne hne).trans hl
  · rw [apply_endpoints]
    intro j ej pc hej hpc hfin
    rw [hphase j ej pc hej hpc] at hfin
    exact hclosed _ (h.finished j ej pc hej (apply_pending hpc).1 hfin)
  · rw [apply_endpoints]
    intro j ej pc hej hpc hfin
    rw [hphase j ej pc hej hpc] at hfin
    exact hun.opened _ (h.unfinished j ej pc hej (apply_pending hpc).1 hfin)
  · intro j c t hj
    have hj' := hun.settling j c t hj
    obtain ⟨pc,hpc,hid⟩ := h.settling j c t hj'
    refine ⟨pc,hkept _ pc hpc ?_,hid⟩
    intro hc
    exact (h.not_closed hc).2 j c t hj' hid.symm
  · rw [hresults]
    intro id r hr hst
    obtain ⟨pc,hpc,hid⟩ := h.acknowledged id r hr hst
    refine ⟨pc,hkept _ pc hpc ?_,hid⟩
    intro hc
    exact (h.not_closed hc).1 r (hid ▸ hr) hst

theorem pendingInv_moved (s : Installation) (m : Move) (s' : Installation) (h : PendingInv s)
    (hg : s.Orderly m) (hm : Moved s m s') : PendingInv s' := by
  have ht := workerInv_moved h.threads hm
  cases hm with
  | rests _ => exact h
  | alarmed c => exact h.of_world ht rfl rfl rfl h.dispatching
  | called i c hi => exact pendingInv_called h c hi
  | served i a q d hp => exact pendingInv_served h i a q d hg hp _
  | inserted i a q d c c' hp hd => exact pendingInv_inserted h i a q d c c' hg hp hd
  | accepted i a q d c e hp hd he hc =>
    refine h.of_world ht rfl rfl rfl ?_
    refine forall_update (P := fun j x => ∀ c, x = some c → s.point j = some (.awaiting c) ∧
      ∃ e, s.adapter.endpoint c.equipmentID = some e) i ?_ fun j _ => h.dispatching j
    rintro c' ⟨⟩
    exact ⟨hp,e,he⟩
  | refused i a q d c ack hp hd hack => exact pendingInv_refused h i a q d c ack hg hp hd hack
  | polled k x e eff he heff => exact pendingInv_polled h he heff

theorem Initial.pendingInv (h : Initial s) : PendingInv s := by
  have hempty : ∀ (id : EquipmentID) p, s.adapter.pending.lookup id ≠ some p := by
    intro id p hp
    rw [h.pending] at hp
    cases hp
  have hidle : ∀ i, s.point i = none := by
    intro i
    unfold point
    rw [h.world]
    rfl
  refine ⟨h.workerInv,by rw [h.world]; exact lifecycle_init,by rw [h.world]; exact record_init,
    ?_,fun id p hp => absurd hp (hempty id p),fun id p hp => absurd hp (hempty id p),?_,
    fun k e p _ hp => absurd hp (hempty _ p),fun k e p _ hp => absurd hp (hempty _ p),?_,?_⟩
  · intro i c hc
    rw [h.dispatching] at hc
    cases hc
  · intro k e p _ hc
    rw [h.poll] at hc
    cases hc
  · intro i c t hp
    rw [hidle] at hp
    cases hp
  · intro id r hr
    unfold results at hr
    rw [h.world] at hr
    cases hr

end Invariant

/-- No call is in progress and no worker is inside a poll. -/
structure Quiescent (s : Installation) : Prop where
  threads : ∀ i, (s.controller.world.thread i).available = true
  polls : ∀ k, k < s.adapter.endpoints.length → (s.poll k).resting = true

/-- Whenever no call is in progress, a dispatched command has stored status acknowledged if
and only if it is the adapter's pending entry for its equipment, in every run in which
`Dispatch` finds no entry to overwrite, commands are recorded under unused IDs, and the events
of closing transitions are accepted. -/
theorem acknowledged_iff_pending {s : Installation} (h : Initial s) (ms : List Move)
    (hg : Guarded step Orderly s ms) (hq : Quiescent (run step s ms)) (c : Command)
    (hc : .dispatching c ∈ (run step s ms).controller.world.log) :
    (∃ r, (run step s ms).results.lookup c.id = some r ∧ r.status = .acknowledged) ↔
      ∃ p, (run step s ms).adapter.pending.lookup c.equipmentID = some p ∧ p.id = c.id := by
  have hinv := invariant pendingInv_moved h.pendingInv hg
  constructor
  · rintro ⟨r,hr,hst⟩
    obtain ⟨r',hr',rfl⟩ := hinv.records.logged c hc
    obtain rfl := Option.mem_unique hr hr'
    exact hinv.acknowledged _ r hr hst
  · rintro ⟨p,hp,hid⟩
    obtain ⟨k,e,he,heq⟩ := hinv.located _ p hp
    have hrest := hq.polls k (lt_of_endpoint he)
    obtain ⟨r,hr,hst | ⟨j,c',t,hj,_⟩⟩ :=
      hinv.unfinished k e p he (heq.symm ▸ hp) (resting_not_finished hrest _)
    · exact ⟨r,hid ▸ hr,hst⟩
    · obtain ⟨reply,hret⟩ := available_point (hq.threads j) hj
      cases hret

theorem run_thread {s : Installation} {ms : List Move} {j : ℕ} (h : ∀ m ∈ ms, m.index ≠ j) :
    (run step s ms).controller.world.thread j = s.controller.world.thread j := by
  induction ms generalizing s with
  | nil => rfl
  | cons m ms ih =>
    rw [run_cons,ih fun m' hm' => h m' (List.mem_cons_of_mem _ hm')]
    exact (s.step_moved m).thread (h m List.mem_cons_self).symm

theorem Initial.quiescent {s : Installation} (h : Initial s) {ms : List Move} {n : ℕ}
    (hms : ∀ m ∈ ms, m.index < n)
    (hth : ∀ i ∈ List.range n, ((run step s ms).controller.world.thread i).available = true)
    (hpoll : ∀ k ∈ List.range (run step s ms).adapter.endpoints.length,
      ((run step s ms).poll k).resting = true) : Quiescent (run step s ms) := by
  refine ⟨fun i => ?_,fun k hk => hpoll k (List.mem_range.mpr hk)⟩
  by_cases hi : i < n
  · exact hth i (List.mem_range.mpr hi)
  · have hidle : ∀ m ∈ ms, m.index ≠ i := fun m hm => by
      have := hms m hm
      omega
    rw [run_thread hidle,h.world]
    rfl

theorem lamp_acknowledged_and_pending :
    (∃ r, (run step outletRig lampSubmission).results.lookup lampOn.id = some r ∧
      r.status = .acknowledged) ∧
    ((∃ r, (run step outletRig lampSubmission).results.lookup lampOn.id = some r ∧
      r.status = .acknowledged) ↔
      ∃ p, (run step outletRig lampSubmission).adapter.pending.lookup lampOn.equipmentID = some p ∧
        p.id = lampOn.id) := by
  refine ⟨Option.map_eq_some_iff.mp (by decide +kernel),acknowledged_iff_pending
    outletRig_initial lampSubmission (by decide +kernel) ?_ lampOn (by decide)⟩
  exact outletRig_initial.quiescent (n := 2) (by decide +kernel) (by decide +kernel)
    (by decide +kernel)

def lampOff : Command :=
  { lampOn with id := "30000000-0000-4000-8000-000000000002", idempotencyKey := "lamp-off", on := false }

def lampReplaced : List Move := lampSubmission++.call 1 (.submit lampOff)::serves 1 15

theorem overwritten_entry_lost :
    ¬ ∀ (s : Installation) (ms : List Move), Initial s → Quiescent (run step s ms) →
      ∀ c, .dispatching c ∈ (run step s ms).controller.world.log →
      ((∃ r, (run step s ms).results.lookup c.id = some r ∧ r.status = .acknowledged) ↔
        ∃ p, (run step s ms).adapter.pending.lookup c.equipmentID = some p ∧ p.id = c.id) := by
  intro h
  have hquiet : Quiescent (run step outletRig lampReplaced) :=
    outletRig_initial.quiescent (n := 2) (by decide +kernel) (by decide +kernel)
      (by decide +kernel)
  have hiff := h outletRig lampReplaced outletRig_initial hquiet lampOn (by decide +kernel)
  obtain ⟨p,hp,hid⟩ := hiff.mp (Option.map_eq_some_iff.mp (by decide +kernel))
  have hentry : (run step outletRig lampReplaced).adapter.pending.lookup lampOn.equipmentID =
      some ⟨lampOff.id,false,lampOff.expiresAt⟩ := by decide +kernel
  rw [hentry] at hp
  obtain rfl := Option.some.inj hp
  revert hid
  decide

end Installation
end AquaOS
