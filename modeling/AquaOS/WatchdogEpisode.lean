import AquaOS.EngineCalls

/-! One action an episode. The latch of equipment that is on says whether an action was
emitted since it was reported on, whatever calls come in between. -/
namespace AquaOS
namespace SafetyEngine

open Domain EquipmentProfile Timeline Transition

structure Monitor where
  engine : Engine
  emitted : EquipmentID → ℕ := fun _ => 0

def EngineCall.actions (e : Engine) : EngineCall → List WatchdogAction
  | .policy .checkWatchdogs q =>
    match (e.checkWatchdogs q.ctx q.clock q.order).1 with
    | .error _ => []
    | .ok actions => actions
  | _ => []

def Monitor.step (m : Monitor) (c : EngineCall) : Monitor :=
  ⟨m.engine.call c,fun id =>
    if ((m.engine.call c).runtimeOf id).on = (m.engine.runtimeOf id).on then
      m.emitted id+((c.actions m.engine).map WatchdogAction.equipmentID).count id
    else 0⟩

def RuntimeState.latchCount (r : RuntimeState) : ℕ :=
  if r.on = true ∧ r.watchdogReason ≠ "" then 1 else 0

def Monitor.Counted (m : Monitor) : Prop :=
  ∀ id, m.emitted id = (m.engine.runtimeOf id).latchCount

/-- What any call but a watchdog check does to a runtime: a change of state clears the
latch, and nothing else touches it. -/
structure RuntimeState.Reported (r r' : RuntimeState) : Prop where
  same : r'.on = r.on → r'.watchdogReason = r.watchdogReason
  changed : r'.on ≠ r.on → r'.watchdogReason = ""

theorem RuntimeState.Reported.refl (r : RuntimeState) : RuntimeState.Reported r r :=
  ⟨fun _ => rfl,fun h => absurd rfl h⟩

theorem account_reported (r : RuntimeState) (now : ℤ) : RuntimeState.Reported r (r.account now) :=
  ⟨fun _ => RuntimeState.account_watchdogReason r now,
    fun h => absurd (RuntimeState.account_on r now) h⟩

theorem report_reported (r : RuntimeState) (on : Bool) (now : ℤ) :
    RuntimeState.Reported r ((r.account now).report on now) := by
  unfold RuntimeState.report
  split_ifs with h1 h2
  · exact account_reported r now
  · exact ⟨fun h => absurd (by simpa [h2] using h) h1,fun _ => rfl⟩
  · exact ⟨fun h => absurd (by simpa [h2] using h) h1,fun _ => rfl⟩

theorem evaluate_reported (e : Engine) (intent : Intent) (now : ℤ) (id : EquipmentID) :
    RuntimeState.Reported (e.runtimeOf id) ((e.evaluateLocked intent now).2.runtimeOf id) := by
  rw [evaluateLocked_runtimeOf]
  split_ifs
  · exact account_reported _ now
  · exact .refl _

theorem recordReported_reported (e : Engine) (ctx : Option Failure) (i : EquipmentID) (on : Bool)
    (t : ℤ) (id : EquipmentID) :
    RuntimeState.Reported (e.runtimeOf id) ((e.recordReported ctx i on t).2.runtimeOf id) := by
  unfold Engine.recordReported
  cases ctx with
  | some err => exact .refl _
  | none =>
    dsimp only
    split_ifs
    · exact .refl _
    · by_cases hi : id = i
      · subst hi
        rw [runtimeOf_setRuntime,if_pos rfl]
        exact report_reported _ on t
      · rw [runtimeOf_setRuntime,if_neg hi,Engine.accountLocked,runtimeOf_setRuntime,if_neg hi]
        exact .refl _
    · exact .refl _

/-- No equipment is latched without an action for it. -/
def Announced (e : Engine) (out : List WatchdogAction × Engine) : Prop :=
  ∀ i, Latched out.2 i → Latched e i ∨ i ∈ out.1.map WatchdogAction.equipmentID

variable {id : EquipmentID} {e : Engine} {now : ℤ} {out : List WatchdogAction × Engine}
  {profiles : List Profile}

theorem Turn.announced (h : Turn now id e out) : Announced e out := by
  intro i hl
  unfold Latched at *
  by_cases hi : i = id
  · subst hi
    rcases h.own with ⟨_,hs | hs⟩ | ⟨reason,_,_,_,ha,_⟩
    · rw [hs] at hl; exact .inl hl
    · rw [hs] at hl; exact .inl (by simpa using hl)
    · exact .inr (by simp [ha])
  · rw [h.others i hi] at hl
    exact .inl hl

theorem Announced.append {rest : List WatchdogAction × Engine}
    (h : Announced e out) (h' : Announced out.2 rest) : Announced e (out.1++rest.1,rest.2) := by
  intro i hl
  rw [List.map_append,List.mem_append]
  rcases h' i hl with hl | hi
  · exact (h i hl).imp_right .inl
  · exact .inr (.inr hi)

theorem sweep_announced {turn : Engine → EquipmentID → List WatchdogAction × Engine}
    (hturn : ∀ e id, Announced e (turn e id)) (e : Engine) (ids : List EquipmentID) :
    Announced e (e.sweep turn ids) := by
  induction ids generalizing e with
  | nil => exact fun i hl => .inl hl
  | cons id ids ih => exact (hturn e id).append (ih (turn e id).2)

theorem checkLocked_announced (e : Engine) (now : ℤ) (order : VisitOrder) :
    Announced e (e.checkLocked now order) :=
  (sweep_announced (fun e id => (expireOverride_turn e now id).announced) e order.overrides).append
    (sweep_announced (fun e id => (checkProfile_turn e now id).announced) _ order.profiles)

theorem latchCount_of_on (hon : (e.runtimeOf id).on = true) :
    (e.runtimeOf id).latchCount = if Latched e id then 1 else 0 := by
  simp [RuntimeState.latchCount,Latched,hon]

theorem latchCount_of_off {r : RuntimeState} (h : r.on = false) : r.latchCount = 0 := by
  simp [RuntimeState.latchCount,h]

/-- A check adds to the count of an equipment what it adds to the latch. -/
theorem checkLocked_count (e : Engine) (now : ℤ) (order : VisitOrder) (id : EquipmentID) :
    ((e.checkLocked now order).2.runtimeOf id).latchCount = (e.runtimeOf id).latchCount+
      ((e.checkLocked now order).1.map WatchdogAction.equipmentID).count id := by
  have hs := checkLocked_swept e now order
  have hon := hs.on id
  by_cases hmem : id ∈ (e.checkLocked now order).1.map WatchdogAction.equipmentID
  · obtain ⟨a,ha,rfl⟩ := List.mem_map.mp hmem
    have hfresh := hs.fresh a ha
    have hwas : (e.runtimeOf a.equipmentID).on = true := by
      unfold Latched at hfresh
      exact (Classical.not_imp.mp hfresh).1
    rw [List.count_eq_one_of_mem hs.nodup hmem,latchCount_of_on (hon.trans hwas),
      latchCount_of_on hwas,if_pos (hs.latches a ha),if_neg hfresh]
  · rw [List.count_eq_zero_of_not_mem hmem,Nat.add_zero]
    cases hwas : (e.runtimeOf id).on with
    | false => rw [latchCount_of_off hwas,latchCount_of_off (hon.trans hwas)]
    | true =>
      have hiff : Latched (e.checkLocked now order).2 id ↔ Latched e id :=
        ⟨fun hl => (checkLocked_announced e now order id hl).resolve_right hmem,hs.keeps id⟩
      rw [latchCount_of_on hwas,latchCount_of_on (hon.trans hwas)]
      simp only [hiff]

theorem counted_of_reported {m : Monitor} {c : EngineCall} (h : m.Counted)
    (hnone : c.actions m.engine = [])
    (hr : ∀ id, RuntimeState.Reported (m.engine.runtimeOf id) ((m.engine.call c).runtimeOf id)) :
    (m.step c).Counted := by
  intro id
  unfold Monitor.step
  dsimp only
  have hid := h id
  split_ifs with hon
  · rw [hnone,hid]
    simp [RuntimeState.latchCount,hon,(hr id).same hon]
  · simp [RuntimeState.latchCount,(hr id).changed hon]

theorem counted_step (m : Monitor) (c : EngineCall) (h : m.Counted) : (m.step c).Counted := by
  have hkept : (∀ id, (m.engine.call c).runtimeOf id = m.engine.runtimeOf id) →
      c.actions m.engine = [] → (m.step c).Counted := fun hr hnone =>
    counted_of_reported h hnone fun id => by rw [hr id]; exact .refl _
  cases c with
  | setMode ctx mode =>
    refine hkept (fun id => ?_) rfl
    unfold Engine.call Engine.setMode
    cases ctx <;> cases mode <;> rfl
  | policy call q =>
    cases call with
    | evaluate intent =>
      refine counted_of_reported h rfl fun id => ?_
      unfold Engine.call PolicyCall.apply
      dsimp only
      cases q.ctx with
      | some err => exact .refl _
      | none => rw [evaluate_snd]; exact evaluate_reported _ intent _ id
    | recordReported i on t =>
      exact counted_of_reported h rfl fun id => recordReported_reported _ q.ctx i on t id
    | grantOverride o =>
      refine hkept (fun id => ?_) rfl
      unfold Engine.call PolicyCall.apply
      dsimp only
      rcases grantOverride_cases m.engine q.ctx q.clock o with ⟨_,hs⟩ | ⟨_,_,_,hs⟩
      · rw [hs]
      · rw [hs]; rfl
    | revokeOverride i =>
      refine hkept (fun id => ?_) rfl
      unfold Engine.call PolicyCall.apply Engine.revokeOverride
      dsimp only
      cases q.ctx <;> rfl
    | checkWatchdogs =>
      cases hctx : q.ctx with
      | some err =>
        refine hkept (fun id => ?_) ?_
        · simp [Engine.call,PolicyCall.apply,Engine.checkWatchdogs,hctx]
        · simp [EngineCall.actions,Engine.checkWatchdogs,hctx]
      | none =>
        intro id
        have hon := (checkLocked_swept m.engine q.clock q.order).on id
        have hcount := checkLocked_count m.engine q.clock q.order id
        simp only [Monitor.step,Engine.call,PolicyCall.apply,EngineCall.actions,
          Engine.checkWatchdogs,hctx,if_pos hon]
        rw [h id,hcount]

theorem newEngine_counted (h : newEngine profiles = .ok e) : Monitor.Counted { engine := e } := by
  have hrt : ∀ {e e' : Engine} {ps : List Profile}, e.addProfiles ps = .ok e' →
      e'.runtime = e.runtime := by
    intro e e' ps hadd
    induction ps generalizing e with
    | nil => cases hadd; rfl
    | cons p ps ih =>
      unfold Engine.addProfiles at hadd
      cases hv : p.validate with
      | some err => simp [hv] at hadd
      | none =>
        simp only [hv] at hadd
        split_ifs at hadd
        exact (ih hadd).trans rfl
  intro id
  unfold Engine.runtimeOf
  dsimp only
  rw [hrt h]
  rfl

theorem run_counted (h : newEngine profiles = .ok e)
    (calls : List EngineCall) : (run Monitor.step { engine := e } calls).Counted :=
  invariant_always (I := Monitor.Counted) counted_step (newEngine_counted h) calls

/-- A check at least the maximum-on time after the equipment was reported on latches it. -/
theorem checkLocked_maximumOn_complete {order : VisitOrder} {p : Profile}
    (hp : e.profiles.lookup id = some p) (hmem : id ∈ order.profiles)
    (h : maximumOnReached p (e.runtimeOf id) now) : Latched (e.checkLocked now order).2 id := by
  refine sweep_establishes (P := SameAccounts now e) (Q := fun e => Latched e id)
    (fun e i _ h => h.checkProfile i)
    (fun e i _ _ hl => (checkProfile_turn e now i).latched hl) ?_
    (expireOverrides_sameAccounts e now order.overrides) hmem
  intro e' h'
  exact checkProfile_latches (h'.profiles.symm ▸ hp) (.inl ((h'.maximumOn p id).mpr h))

/-- In any run of calls on an accepted set of profiles, at most one action has been emitted
for an equipment since it was last reported on, and exactly one after a check that comes at
least its maximum-on time after that report. -/
theorem one_action_per_episode {profiles : List Profile} {e : Engine}
    (hnew : newEngine profiles = .ok e) (calls : List EngineCall) (id : EquipmentID)
    (hon : ((run Monitor.step { engine := e } calls).engine.runtimeOf id).on = true) :
    (run Monitor.step { engine := e } calls).emitted id ≤ 1 ∧
    ∀ (p : Profile) (q : PolicyAnswer),
      (run Monitor.step { engine := e } calls).engine.profiles.lookup id = some p →
      q.ctx = none → id ∈ q.order.profiles → 0 < p.limits.maximumOn →
      p.limits.maximumOn ≤ maxDuration →
      ((run Monitor.step { engine := e } calls).engine.runtimeOf id).onSince+
        p.limits.maximumOn ≤ q.clock →
      (run Monitor.step { engine := e } (calls++[.policy .checkWatchdogs q])).emitted id = 1 := by
  have hcounted := run_counted hnew calls
  refine ⟨?_,?_⟩
  · rw [hcounted id,RuntimeState.latchCount]
    split_ifs <;> omega
  · intro p q hp hctx hmem hpos hfits hclock
    have hafter := run_counted hnew (calls++[.policy .checkWatchdogs q])
    rw [hafter id,run_append,run_cons,run_nil]
    set m := run Monitor.step { engine := e } calls
    have hreached : maximumOnReached p (m.engine.runtimeOf id) q.clock := by
      refine ⟨hon,hpos,?_⟩
      unfold sub
      unfold maxDuration at hfits
      unfold minDuration maxDuration
      omega
    have hs := checkLocked_swept m.engine q.clock q.order
    have hl := checkLocked_maximumOn_complete hp hmem hreached
    have hstep : (m.step (.policy .checkWatchdogs q)).engine =
        (m.engine.checkLocked q.clock q.order).2 := by
      simp [Monitor.step,Engine.call,PolicyCall.apply,Engine.checkWatchdogs,hctx]
    rw [hstep,latchCount_of_on ((hs.on id).trans hon),if_pos hl]

/-- The outlet's first episode: on at one, checked in time at two, over its limit at four. -/
theorem one_action_outlet :
    (run Monitor.step { engine := outletEngine } ([.policy (.recordReported outletID true
      (newYear+hour)) {},.policy .checkWatchdogs
        { clock := newYear+2*hour, order := ⟨[],[outletID]⟩ }]++[.policy .checkWatchdogs
        { clock := newYear+4*hour, order := ⟨[],[outletID]⟩ }])).emitted outletID = 1 :=
  (one_action_per_episode (e := outletEngine) (show newEngine [outlet] = .ok outletEngine by rfl)
    _ outletID (by decide)).2 outlet _ (by rfl) rfl (by decide) (by decide) (by decide) (by decide)

end SafetyEngine
end AquaOS
