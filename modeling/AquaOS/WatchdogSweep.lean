import AquaOS.SafetyEngine

/-! The two loops of `CheckWatchdogs`. One statement says what a turn of either loop
can do; the facts about whole sweeps follow from it by induction over the visits. -/
namespace AquaOS
namespace SafetyEngine

open Domain EquipmentProfile

/-- A turn touches one equipment only: it leaves it, accounts it, or accounts it, latches
a reason and emits the one action that goes with the latch. -/
structure Turn (now : ℤ) (id : EquipmentID) (e : Engine) (out : List WatchdogAction × Engine) :
    Prop where
  profiles : out.2.profiles = e.profiles
  mode : out.2.mode = e.mode
  others : ∀ id', id' ≠ id → out.2.runtimeOf id' = e.runtimeOf id'
  own : (out.1 = [] ∧ (out.2.runtimeOf id = e.runtimeOf id ∨
      out.2.runtimeOf id = (e.runtimeOf id).account now)) ∨
    ∃ reason, reason ≠ "" ∧ (e.runtimeOf id).on = true ∧ (e.runtimeOf id).watchdogReason = "" ∧
      out.1 = [⟨id,e.failSafeOn id,reason,now⟩] ∧
      out.2.runtimeOf id = { (e.runtimeOf id).account now with watchdogReason := reason }

theorem Turn.idle (now : ℤ) (id : EquipmentID) (e : Engine) : Turn now id e ([],e) :=
  ⟨rfl,rfl,fun _ _ => rfl,.inl ⟨rfl,.inl rfl⟩⟩

theorem Turn.accounted (now : ℤ) (id : EquipmentID) (e : Engine)
    (overrides : Table EquipmentID Override) :
    Turn now id e ([],(Engine.accountLocked { e with overrides := overrides } id now).2) := by
  have hr := runtimeOf_setRuntime { e with overrides := overrides } id
  refine ⟨rfl,rfl,?_,.inl ⟨rfl,.inr ?_⟩⟩
  · intro id' hne
    exact (hr id' _).trans (if_neg hne)
  · exact (hr id _).trans (if_pos rfl)

variable {id : EquipmentID} {e : Engine}

theorem Turn.tripped {now : ℤ}
    (overrides : Table EquipmentID Override) {reason : String} (hreason : reason ≠ "")
    (hon : (e.runtimeOf id).on = true) (hlatch : (e.runtimeOf id).watchdogReason = "") :
    Turn now id e ((Engine.accountLocked { e with overrides := overrides } id now).2.trip id
      ((e.runtimeOf id).account now) reason now) := by
  have hr := runtimeOf_setRuntime
    (Engine.accountLocked { e with overrides := overrides } id now).2 id
  refine ⟨rfl,rfl,?_,.inr ⟨reason,hreason,hon,hlatch,rfl,?_⟩⟩
  · intro id' hne
    refine ((hr id' _).trans (if_neg hne)).trans ?_
    exact (Turn.accounted now id e overrides).others id' hne
  · exact (hr id _).trans (if_pos rfl)

theorem expireOverride_turn (e : Engine) (now : ℤ) (id : EquipmentID) :
    Turn now id e (e.expireOverride now id) := by
  unfold Engine.expireOverride
  cases e.overrides.lookup id with
  | none => exact Turn.idle now id e
  | some o =>
    dsimp only
    split_ifs with hlive htrip
    · exact Turn.idle now id e
    · have hon : (e.runtimeOf id).on = true := by simpa using htrip.1
      have hlatch : (e.runtimeOf id).watchdogReason = "" := by simpa using htrip.2
      exact Turn.tripped _ (by decide) hon hlatch
    · exact Turn.accounted now id e _

/-- The loop over the profiles accounts every equipment it visits, and trips it when it
is on past a limit and not latched. -/
theorem checkProfile_known (h : id ∈ e.profiles) (now : ℤ) :
    e.checkProfile now id = ([],(e.accountLocked id now).2) ∨
    ∃ reason, reason ≠ "" ∧ (e.runtimeOf id).on = true ∧ (e.runtimeOf id).watchdogReason = "" ∧
      e.checkProfile now id = (e.accountLocked id now).2.trip id ((e.runtimeOf id).account now)
        reason now := by
  obtain ⟨p,hp⟩ := Option.isSome_iff_exists.mp (AList.lookup_isSome.mpr h)
  unfold Engine.checkProfile
  rw [hp]
  dsimp only
  split_ifs with hlatched hmax hdaily
  · exact .inl rfl
  · have hon : (e.runtimeOf id).on = true := by simpa using hmax.1
    exact .inr ⟨_,by decide,hon,by simpa using hlatched,rfl⟩
  · have hon : (e.runtimeOf id).on = true := by simpa using hdaily.1
    exact .inr ⟨_,by decide,hon,by simpa using hlatched,rfl⟩
  · exact .inl rfl

theorem checkProfile_turn (e : Engine) (now : ℤ) (id : EquipmentID) :
    Turn now id e (e.checkProfile now id) := by
  by_cases h : id ∈ e.profiles
  · rcases checkProfile_known h now with hs | ⟨reason,hreason,hon,hlatch,hs⟩
    · rw [hs]; exact Turn.accounted now id e e.overrides
    · rw [hs]; exact Turn.tripped e.overrides hreason hon hlatch
  · have hs : e.checkProfile now id = ([],e) := by
      unfold Engine.checkProfile
      rw [AList.lookup_eq_none.mpr h]
    rw [hs]
    exact Turn.idle now id e

theorem checkProfile_accounts (h : id ∈ e.profiles) (now : ℤ) :
    ∃ reason, (e.checkProfile now id).2.runtimeOf id =
      { (e.runtimeOf id).account now with watchdogReason := reason } := by
  rcases checkProfile_known h now with hs | ⟨reason,_,_,_,hs⟩
  · rw [hs]; exact ⟨_,(runtimeOf_setRuntime _ _ _ _).trans (if_pos rfl)⟩
  · rw [hs]; exact ⟨_,(runtimeOf_setRuntime _ _ _ _).trans (if_pos rfl)⟩

section Sweep

variable {turn : Engine → EquipmentID → List WatchdogAction × Engine} {P Q : Engine → Prop}
  {ids : List EquipmentID}

variable {e : Engine}

theorem sweep_invariant (hkeep : ∀ e, ∀ id ∈ ids, P e → P (turn e id).2)
    (he : P e) : P (e.sweep turn ids).2 := by
  induction ids generalizing e with
  | nil => exact he
  | cons id ids ih =>
    exact ih (fun e i hi => hkeep e i (List.mem_cons_of_mem _ hi))
      (hkeep e id List.mem_cons_self he)

/-- What the turn of one equipment establishes and every turn keeps holds after a sweep
that visits the equipment. -/
theorem sweep_establishes {id : EquipmentID} (hP : ∀ e, ∀ i ∈ ids, P e → P (turn e i).2)
    (hQ : ∀ e, ∀ i ∈ ids, P e → Q e → Q (turn e i).2) (hid : ∀ e, P e → Q (turn e id).2)
    (he : P e) (hmem : id ∈ ids) : Q (e.sweep turn ids).2 := by
  induction ids generalizing e with
  | nil => cases hmem
  | cons i ids ih =>
    have hP' : ∀ e, ∀ j ∈ ids, P e → P (turn e j).2 := fun e j hj =>
      hP e j (List.mem_cons_of_mem _ hj)
    have hQ' : ∀ e, ∀ j ∈ ids, P e → Q e → Q (turn e j).2 := fun e j hj =>
      hQ e j (List.mem_cons_of_mem _ hj)
    have hnext := hP e i List.mem_cons_self he
    rcases List.mem_cons.mp hmem with rfl | hmem
    · exact (sweep_invariant (P := fun e => P e ∧ Q e)
        (fun e j hj h => ⟨hP' e j hj h.1,hQ' e j hj h.1 h.2⟩) ⟨hnext,hid e he⟩).2
    · exact ih hP' hQ' hnext hmem

/-- Every action of a sweep was emitted by some turn. -/
theorem sweep_emits {R : WatchdogAction → Prop} (hP : ∀ e, ∀ i ∈ ids, P e → P (turn e i).2)
    (hR : ∀ e, ∀ i ∈ ids, ∀ a, P e → a ∈ (turn e i).1 → R a) (he : P e)
    {a : WatchdogAction} (ha : a ∈ (e.sweep turn ids).1) : R a := by
  induction ids generalizing e with
  | nil => cases ha
  | cons i ids ih =>
    rcases List.mem_append.mp ha with ha | ha
    · exact hR e i List.mem_cons_self a he ha
    · exact ih (fun e j hj => hP e j (List.mem_cons_of_mem _ hj))
        (fun e j hj => hR e j (List.mem_cons_of_mem _ hj)) (hP e i List.mem_cons_self he) ha

end Sweep

section Actions

def Latched (e : Engine) (id : EquipmentID) : Prop :=
  (e.runtimeOf id).on = true → (e.runtimeOf id).watchdogReason ≠ ""

instance (e : Engine) (id : EquipmentID) : Decidable (Latched e id) :=
  inferInstanceAs (Decidable (_ → _))

variable {e : Engine} {now : ℤ} {id : EquipmentID} {out : List WatchdogAction × Engine}

theorem checkProfile_latches {p : Profile} (hp : e.profiles.lookup id = some p)
    (h : maximumOnReached p ((e.runtimeOf id).account now) now ∨
      maximumDailyOnReached p ((e.runtimeOf id).account now)) :
    Latched (e.checkProfile now id).2 id := by
  have hacc := runtimeOf_setRuntime e id id ((e.runtimeOf id).account now)
  rw [if_pos rfl] at hacc
  have htrip : ∀ reason, reason ≠ "" → Latched ((e.accountLocked id now).2.trip id
      ((e.runtimeOf id).account now) reason now).2 id := by
    intro reason hreason
    unfold Latched Engine.trip
    rw [runtimeOf_setRuntime,if_pos rfl]
    exact fun _ => hreason
  unfold Engine.checkProfile
  rw [hp]
  dsimp only
  split_ifs with hlatched hmax hdaily
  · unfold Latched Engine.accountLocked
    rw [hacc]
    exact fun _ => hlatched
  · exact htrip _ (by decide)
  · exact htrip _ (by decide)
  · unfold Latched Engine.accountLocked
    rw [hacc]
    exact fun hon => absurd ⟨hon,h.resolve_left hmax⟩ hdaily

theorem Turn.latched {i : EquipmentID} (h : Turn now id e out) (hl : Latched e i) :
    Latched out.2 i := by
  unfold Latched at *
  by_cases hi : i = id
  · subst hi
    rcases h.own with ⟨_,hs | hs⟩ | ⟨reason,hreason,_,_,_,hs⟩
    · rwa [hs]
    · simpa [hs] using hl
    · rw [hs]
      exact fun _ => hreason
  · rwa [h.others i hi]

theorem Turn.on
    (h : Turn now id e out) (i : EquipmentID) : (out.2.runtimeOf i).on = (e.runtimeOf i).on := by
  by_cases hi : i = id
  · subst hi
    rcases h.own with ⟨_,hs | hs⟩ | ⟨reason,_,_,_,_,hs⟩
    · rw [hs]
    · simp [hs]
    · simp [hs]
  · rw [h.others i hi]

/-- What any number of turns do: no state is reported, no latch is lost, and every action
is for equipment that was on and unlatched before and is latched after, one action each. -/
structure Swept (e : Engine) (out : List WatchdogAction × Engine) : Prop where
  mode : out.2.mode = e.mode
  on : ∀ i, (out.2.runtimeOf i).on = (e.runtimeOf i).on
  keeps : ∀ i, Latched e i → Latched out.2 i
  fresh : ∀ a ∈ out.1, ¬ Latched e a.equipmentID
  latches : ∀ a ∈ out.1, Latched out.2 a.equipmentID
  nodup : (out.1.map WatchdogAction.equipmentID).Nodup

theorem Swept.nil (e : Engine) : Swept e ([],e) :=
  ⟨rfl,fun _ => rfl,fun _ h => h,by simp,by simp,List.nodup_nil⟩

theorem Turn.swept (h : Turn now id e out) : Swept e out := by
  refine ⟨h.mode,h.on,fun i => h.latched,?_,?_,?_⟩
  all_goals rcases h.own with ⟨ha,_⟩ | ⟨reason,hreason,hon,hlatch,ha,hs⟩
  · simp [ha]
  · simp [ha,Latched,hon,hlatch]
  · simp [ha]
  · simp [ha,Latched,hs,hreason]
  · simp [ha]
  · simp [ha]

theorem Swept.append {rest : List WatchdogAction × Engine} (h : Swept e out)
    (h' : Swept out.2 rest) : Swept e (out.1++rest.1,rest.2) := by
  refine ⟨h'.mode.trans h.mode,fun i => (h'.on i).trans (h.on i),
    fun i hl => h'.keeps i (h.keeps i hl),?_,?_,?_⟩
  · intro a ha
    rcases List.mem_append.mp ha with ha | ha
    · exact h.fresh a ha
    · exact fun hl => h'.fresh a ha (h.keeps _ hl)
  · intro a ha
    rcases List.mem_append.mp ha with ha | ha
    · exact h'.keeps _ (h.latches a ha)
    · exact h'.latches a ha
  · rw [List.map_append]
    refine h.nodup.append h'.nodup fun i hi hi' => ?_
    obtain ⟨a,ha,rfl⟩ := List.mem_map.mp hi
    obtain ⟨a',ha',heq⟩ := List.mem_map.mp hi'
    exact h'.fresh a' ha' (heq ▸ h.latches a ha)

theorem sweep_swept {turn : Engine → EquipmentID → List WatchdogAction × Engine}
    (hturn : ∀ e id, Swept e (turn e id)) (e : Engine) (ids : List EquipmentID) :
    Swept e (e.sweep turn ids) := by
  induction ids generalizing e with
  | nil => exact Swept.nil e
  | cons id ids ih => exact (hturn e id).append (ih (turn e id).2)

theorem checkLocked_swept (e : Engine) (now : ℤ) (order : VisitOrder) :
    Swept e (e.checkLocked now order) :=
  (sweep_swept (fun e id => (expireOverride_turn e now id).swept) e order.overrides).append
    (sweep_swept (fun e id => (checkProfile_turn e now id).swept) _ order.profiles)

end Actions

/-- What no call on the engine but `SetMode` and a report of the opposite state changes: the
mode, and the latch of equipment that is on. -/
structure Keeps (e e' : Engine) : Prop where
  mode : e'.mode = e.mode
  latched : ∀ id, (e.runtimeOf id).on = true → Latched e id → Latched e' id

theorem Keeps.refl (e : Engine) : Keeps e e := ⟨rfl,fun _ _ h => h⟩

theorem checkWatchdogs_keeps (e : Engine) (ctx : Option Failure) (now : ℤ) (order : VisitOrder) :
    Keeps e (e.checkWatchdogs ctx now order).2 := by
  cases ctx with
  | some err => exact Keeps.refl e
  | none =>
    have h := checkLocked_swept e now order
    exact ⟨h.mode,fun id _ hl => h.keeps id hl⟩

theorem evaluateLocked_keeps (e : Engine) (intent : Intent) (now : ℤ) :
    Keeps e (e.evaluateLocked intent now).2 := by
  refine ⟨evaluateLocked_mode e intent now,fun id _ hl => ?_⟩
  unfold Latched at *
  rw [evaluateLocked_runtimeOf]
  split_ifs
  · simpa using hl
  · exact hl

theorem report_latched {r : RuntimeState} (hr : r.watchdogReason ≠ "") (hon : r.on = true)
    (on : Bool) (observedAt : ℤ) :
    (r.report on observedAt).on = true → (r.report on observedAt).watchdogReason ≠ "" := by
  unfold RuntimeState.report
  cases on <;> simp [hon,hr]

theorem recordReported_keeps (e : Engine) (ctx : Option Failure) (id : EquipmentID) (on : Bool)
    (observedAt : ℤ) : Keeps e (e.recordReported ctx id on observedAt).2 := by
  unfold Engine.recordReported
  cases ctx with
  | some err => exact Keeps.refl e
  | none =>
    split_ifs
    · exact Keeps.refl e
    · refine ⟨rfl,fun i hon hl => ?_⟩
      unfold Latched at *
      by_cases hi : i = id
      · subst hi
        rw [runtimeOf_setRuntime,if_pos rfl]
        exact report_latched (by simpa using hl hon) (by simpa using hon) on observedAt
      · rw [runtimeOf_setRuntime,if_neg hi,Engine.accountLocked,runtimeOf_setRuntime,if_neg hi]
        exact hl
    · exact Keeps.refl e

theorem grantOverride_keeps (e : Engine) (ctx : Option Failure) (clock : ℤ) (o : Override) :
    Keeps e (e.grantOverride ctx clock o).2 := by
  unfold Engine.grantOverride
  cases ctx with
  | some err => exact Keeps.refl e
  | none =>
    cases validateID o.id with
    | some err => exact Keeps.refl e
    | none =>
      dsimp only
      split_ifs <;> exact ⟨rfl,fun _ _ h => h⟩

theorem revokeOverride_keeps (e : Engine) (ctx : Option Failure) (id : EquipmentID) :
    Keeps e (e.revokeOverride ctx id).2 := by
  cases ctx with
  | some err => exact Keeps.refl e
  | none => exact ⟨rfl,fun _ _ h => h⟩

end SafetyEngine
end AquaOS
