import AquaOS.Transition
import AquaOS.WatchdogSweep

/-! Runs of engine calls and the daily total they account. What the total is for is
stated from the accepted reports alone: the time the equipment was on since midnight. -/
namespace AquaOS
namespace SafetyEngine

open Domain Timeline Transition

/-- The daily total is exact at `last`, the instant of the latest accounting, and the
report in force since then agrees with the stored state. -/
structure Accounted (r : RuntimeState) (history : List Report) (last : ℤ) : Prop where
  date : r.dailyDate = some (day last)
  since : ∀ s, last ≤ s → onAt history s = r.on
  mark : r.on = true → r.lastAccounted = last ∧ last ≠ 0
  total : r.dailyOn = onTime history (dayStart last) last

structure Unused (r : RuntimeState) (history : List Report) : Prop where
  date : r.dailyDate = none
  off : r.on = false
  silent : history = []

/-- Equipment that is on is accounted on the date its total carries or at midnight,
and never at the zero instant. -/
def Prompt (r : RuntimeState) (now : ℤ) : Prop :=
  r.on = true → now ≠ 0 ∧ (r.dailyDate = some (day now) ∨ now = dayStart now)

instance (r : RuntimeState) (now : ℤ) : Decidable (Prompt r now) :=
  inferInstanceAs (Decidable (_ → _))

variable {r : RuntimeState} {now last : ℤ} {history : List Report}

theorem account_lastAccounted_on (hon : r.on = true) (hz : r.lastAccounted ≠ 0)
    (hle : r.lastAccounted ≤ now) : (r.account now).lastAccounted = now := by
  have hlt : ¬ r.lastAccounted < now → r.lastAccounted = now := by omega
  unfold RuntimeState.account RuntimeState.rollOver RuntimeState.accrue
  split_ifs <;> simp_all

theorem dailyOn_same_day (h : Accounted r history last) (hle : last ≤ now)
    (hday : day last = day now) : (r.account now).dailyOn = onTime history (dayStart now) now := by
  have hdate : r.dailyDate = some (day now) := by rw [h.date,hday]
  rw [RuntimeState.account_dailyOn_same hdate,← dayStart_eq_of_day_eq hday,
    onTime_add history (dayStart_le last) hle,← h.total]
  cases hon : r.on with
  | false =>
    have hoff : onTime history last now = 0 :=
      onTime_of_off fun s hs _ => (h.since s hs).trans hon
    simp [hoff]
  | true =>
    obtain ⟨hmark,hz⟩ := h.mark hon
    have hall : onTime history last now = now-last :=
      onTime_of_on hle fun s hs _ => (h.since s hs).trans hon
    rw [hall,hmark,sub_eq_of_day_eq hle hday]
    split_ifs with hif
    · rfl
    · have : ¬ last < now := fun hlt => hif ⟨rfl,hz,hlt⟩
      omega

/-- On a new date the total restarts, which is exact when nothing was on since midnight. -/
theorem dailyOn_new_day
    (h : Accounted r history last) (hle : last ≤ now) (hday : day last ≠ day now)
    (hp : Prompt r now) : (r.account now).dailyOn = onTime history (dayStart now) now := by
  have hdate : r.dailyDate ≠ some (day now) := by rw [h.date]; simpa using hday
  rw [RuntimeState.account_dailyOn_new hdate]
  cases hon : r.on with
  | false =>
    have hbefore := le_dayStart_of_day_ne hle hday
    exact (onTime_of_off fun s hs _ => (h.since s (by omega)).trans hon).symm
  | true =>
    rw [← (hp hon).2.resolve_left hdate,onTime_self]

theorem account_unused (h : Unused r history)
    (now : ℤ) : Accounted (r.account now) history now := by
  have hdate : r.dailyDate ≠ some (day now) := by simp [h.date]
  refine ⟨RuntimeState.account_dailyDate r now,?_,?_,?_⟩
  · simp [h.silent,h.off,onAt]
  · simp [h.off]
  · rw [RuntimeState.account_dailyOn_new hdate]
    exact (onTime_of_off fun s _ _ => by simp [h.silent,onAt]).symm

theorem account_exact (h : Accounted r history last) (hle : last ≤ now) (hp : Prompt r now) :
    Accounted (r.account now) history now := by
  refine ⟨RuntimeState.account_dailyDate r now,?_,?_,?_⟩
  · intro s hs
    rw [RuntimeState.account_on]
    exact h.since s (by omega)
  · intro hon
    rw [RuntimeState.account_on] at hon
    obtain ⟨hmark,hz⟩ := h.mark hon
    exact ⟨account_lastAccounted_on hon (hmark ▸ hz) (hmark ▸ hle),(hp hon).1⟩
  · by_cases hday : day last = day now
    · exact dailyOn_same_day h hle hday
    · exact dailyOn_new_day h hle hday hp

/-- A report taken at the instant of an accounting extends the history. -/
theorem report_exact (h : Accounted r history now) (hz : now ≠ 0) (on : Bool) :
    Accounted (r.report on now) (⟨now,on⟩::history) now := by
  have hon : (r.report on now).on = on := by
    unfold RuntimeState.report
    split_ifs with h1 h2
    · exact h1
    · exact h2.symm
    · simpa using h2
  have htotal : (r.report on now).dailyOn = r.dailyOn := by
    unfold RuntimeState.report; split_ifs <;> rfl
  have hdate : (r.report on now).dailyDate = r.dailyDate := by
    unfold RuntimeState.report; split_ifs <;> rfl
  refine ⟨hdate.trans h.date,?_,?_,?_⟩
  · intro s hs
    rw [onAt_cons_of_le hs,hon]
  · intro hon'
    refine ⟨?_,hz⟩
    unfold RuntimeState.report at hon' ⊢
    split_ifs at hon' ⊢ with h1 h2
    · exact (h.mark hon').1
    · rfl
  · rw [htotal,h.total,onTime_cons (le_refl now)]

theorem Accounted.latch (h : Accounted r history last) (reason : String) :
    Accounted { r with watchdogReason := reason } history last :=
  ⟨h.date,h.since,h.mark,h.total⟩

def Tracked (r : RuntimeState) (history : List Report) (now : ℤ) : Prop :=
  Unused r history ∨ ∃ last, last ≤ now ∧ Accounted r history last

theorem Tracked.mono {t u : ℤ} (h : Tracked r history t) (htu : t ≤ u) : Tracked r history u := by
  rcases h with h | ⟨last,hle,h⟩
  · exact .inl h
  · exact .inr ⟨last,by omega,h⟩

theorem Tracked.account (h : Tracked r history now) (hp : Prompt r now) :
    Accounted (r.account now) history now := by
  rcases h with h | ⟨last,hle,h⟩
  · exact account_unused h now
  · exact account_exact h hle hp

theorem Accounted.tracked
    (h : Accounted r history now) : Tracked r history now := .inr ⟨now,le_refl now,h⟩

theorem Accounted.prompt (h : Accounted r history now) : Prompt r now := fun hon =>
  ⟨(h.mark hon).2,.inl h.date⟩

/-- A turn of a watchdog loop keeps every equipment tracked, and keeps or makes the
visited one exact. -/
theorem Turn.accounts {id : EquipmentID} {e : Engine}
    {out : List WatchdogAction × Engine} (h : Turn now id e out) {id' : EquipmentID}
    (ht : Tracked (e.runtimeOf id') history now) (hp : id' = id → Prompt (e.runtimeOf id') now) :
    out.2.runtimeOf id' = e.runtimeOf id' ∨ Accounted (out.2.runtimeOf id') history now := by
  by_cases hid : id' = id
  · have hacc := ht.account (hp hid)
    subst hid
    rcases h.own with ⟨_,hs | hs⟩ | ⟨reason,_,_,_,_,hs⟩
    · exact .inl hs
    · exact .inr (hs ▸ hacc)
    · exact .inr (hs ▸ hacc.latch reason)
  · exact .inl (h.others id' hid)

/-- What a sweep over the equipment in `ids` needs of the engine it starts from. -/
structure Ready (profiles : Table EquipmentID EquipmentProfile.Profile)
    (history : EquipmentID → List Report) (ids : List EquipmentID) (now : ℤ) (e : Engine) :
    Prop where
  profiles : e.profiles = profiles
  tracked : ∀ id, Tracked (e.runtimeOf id) (history id) now
  prompt : ∀ id ∈ ids, Prompt (e.runtimeOf id) now

section Sweeps

variable {profiles : Table EquipmentID EquipmentProfile.Profile}
  {history : EquipmentID → List Report} {ids : List EquipmentID} {now : ℤ} {e : Engine}

variable {id : EquipmentID} {out : List WatchdogAction × Engine}

theorem Ready.turn (h : Ready profiles history ids now e) (hid : id ∈ ids)
    (ht : Turn now id e out) : Ready profiles history ids now out.2 := by
  have hacc : ∀ i, out.2.runtimeOf i = e.runtimeOf i ∨
      Accounted (out.2.runtimeOf i) (history i) now := fun i =>
    ht.accounts (h.tracked i) fun hi => h.prompt i (hi ▸ hid)
  refine ⟨ht.profiles.trans h.profiles,?_,?_⟩
  · intro i
    rcases hacc i with hs | hs
    · rw [hs]; exact h.tracked i
    · exact hs.tracked
  · intro i hi
    rcases hacc i with hs | hs
    · rw [hs]; exact h.prompt i hi
    · exact hs.prompt

theorem Ready.turn_accounted (h : Ready profiles history ids now e) (hid : id ∈ ids)
    (ht : Turn now id e out) {i : EquipmentID} (ha : Accounted (e.runtimeOf i) (history i) now) :
    Accounted (out.2.runtimeOf i) (history i) now := by
  rcases ht.accounts (h.tracked i) fun hi => h.prompt i (hi ▸ hid) with hs | hs
  · rwa [hs]
  · exact hs

variable {order : VisitOrder}

theorem expireOverrides_ready (h : Ready profiles history (order.overrides++order.profiles) now e) :
    Ready profiles history (order.overrides++order.profiles) now
      (e.sweep (fun e id => e.expireOverride now id) order.overrides).2 :=
  sweep_invariant (P := Ready profiles history (order.overrides++order.profiles) now)
    (fun e i hi h => h.turn (List.mem_append_left _ hi) (expireOverride_turn e now i)) h

theorem checkLocked_ready (h : Ready profiles history (order.overrides++order.profiles) now e) :
    Ready profiles history (order.overrides++order.profiles) now (e.checkLocked now order).2 :=
  sweep_invariant (P := Ready profiles history (order.overrides++order.profiles) now)
    (fun e i hi h => h.turn (List.mem_append_right _ hi) (checkProfile_turn e now i))
    (expireOverrides_ready h)

theorem checkLocked_accounted (h : Ready profiles history (order.overrides++order.profiles) now e)
    (hid : id ∈ profiles) (hmem : id ∈ order.profiles) :
    Accounted ((e.checkLocked now order).2.runtimeOf id) (history id) now := by
  refine sweep_establishes
    (P := Ready profiles history (order.overrides++order.profiles) now)
    (Q := fun e => Accounted (e.runtimeOf id) (history id) now)
    (fun e i hi h => h.turn (List.mem_append_right _ hi) (checkProfile_turn e now i))
    (fun e i hi h ha => h.turn_accounted (List.mem_append_right _ hi)
      (checkProfile_turn e now i) ha) ?_ (expireOverrides_ready h) hmem
  intro e h
  obtain ⟨reason,hr⟩ := checkProfile_accounts (h.profiles ▸ hid) now
  rw [hr]
  exact ((h.tracked id).account (h.prompt id (List.mem_append_right _ hmem))).latch reason

end Sweeps

/-- A call on the engine, with the clock and the answers of its collaborators. -/
inductive Call
  | report (ctx : Option Failure) (id : EquipmentID) (on : Bool) (observedAt : ℤ)
  | evaluate (ctx : Option Failure) (clock : ℤ) (get : Reader) (intent : Intent)
  | check (ctx : Option Failure) (now : ℤ) (order : VisitOrder)

def Call.time : Call → ℤ
  | .report _ _ _ observedAt => observedAt
  | .evaluate _ clock _ intent => intent.time clock
  | .check _ now _ => now

/-- The equipment whose runtime the call may account: a watchdog check visits all that
have a profile or an override. -/
def Call.Concerns : Call → EquipmentID → Prop
  | .report ctx id _ _, i => ctx = none ∧ i = id
  | .evaluate ctx _ _ intent, i => ctx = none ∧ i = intent.equipmentID
  | .check ctx _ order, i => ctx = none ∧ i ∈ order.overrides++order.profiles

/-- The equipment whose runtime the call accounts for certain. -/
def Call.Accounts (e : Engine) : Call → EquipmentID → Prop
  | .report ctx id _ observedAt, i => ctx = none ∧ observedAt ≠ 0 ∧ i = id ∧ i ∈ e.profiles
  | .evaluate ctx _ _ intent, i => ctx = none ∧ i = intent.equipmentID ∧ i ∈ e.profiles
  | .check ctx _ order, i => ctx = none ∧ i ∈ order.profiles ∧ i ∈ e.profiles

/-- The engine and, per equipment, the reports it has accepted from the newest on. -/
structure Ledger where
  engine : Engine
  history : EquipmentID → List Report

def Ledger.step (l : Ledger) : Call → Ledger
  | .report ctx id on observedAt =>
    match l.engine.recordReported ctx id on observedAt with
    | (none,e) => ⟨e,Function.update l.history id (⟨observedAt,on⟩::l.history id)⟩
    | (some _,e) => ⟨e,l.history⟩
  | .evaluate ctx clock get intent =>
    { l with engine := (l.engine.evaluate ctx clock get intent).2 }
  | .check ctx now order => { l with engine := (l.engine.checkWatchdogs ctx now order).2 }

/-- Every call finds the equipment it concerns off or dated to the call's own day, or is
made at midnight. -/
def Ledger.Prompt (l : Ledger) (c : Call) : Prop :=
  ∀ id, c.Concerns id → SafetyEngine.Prompt (l.engine.runtimeOf id) c.time

def Ledger.Tracks (l : Ledger) (now : ℤ) : Prop :=
  ∀ id, Tracked (l.engine.runtimeOf id) (l.history id) now

/-- What one call does to the books. -/
structure Ledger.Booked (l : Ledger) (c : Call) : Prop where
  profiles : (l.step c).engine.profiles = l.engine.profiles
  tracks : (l.step c).Tracks c.time
  books : ∀ id, c.Accounts l.engine id →
    Accounted ((l.step c).engine.runtimeOf id) ((l.step c).history id) c.time

variable {l : Ledger} {c : Call} {now observedAt : ℤ} {e : Engine} {id : EquipmentID}
  {ctx : Option Failure} {calls : List Call}

theorem Ledger.Booked.unchanged (h : l.Tracks now) (hle : now ≤ c.time) (hs : l.step c = l)
    (hnone : ∀ id, ¬ c.Accounts l.engine id) : l.Booked c :=
  ⟨by rw [hs],by rw [hs]; exact fun id => (h id).mono hle,fun id hid => absurd hid (hnone id)⟩

theorem recordReported_accepted (hid : id ∈ e.profiles) (hz : observedAt ≠ 0) (on : Bool) :
    e.recordReported none id on observedAt = (none,(e.accountLocked id observedAt).2.setRuntime id
      (((e.runtimeOf id).account observedAt).report on observedAt)) := by
  simp [Engine.recordReported,hid,hz]

theorem recordReported_refused (h : ¬ (ctx = none ∧ observedAt ≠ 0 ∧ id ∈ e.profiles)) (on : Bool) :
    ∃ err, e.recordReported ctx id on observedAt = (some err,e) := by
  unfold Engine.recordReported
  cases ctx with
  | some err => exact ⟨err,rfl⟩
  | none =>
    dsimp only
    split_ifs with hz hid
    · exact ⟨_,rfl⟩
    · exact absurd ⟨rfl,hz,hid⟩ h
    · exact ⟨_,rfl⟩

theorem report_booked {on : Bool} (h : l.Tracks now) (hle : now ≤ observedAt)
    (hp : l.Prompt (.report ctx id on observedAt)) : l.Booked (.report ctx id on observedAt) := by
  by_cases hok : ctx = none ∧ observedAt ≠ 0 ∧ id ∈ l.engine.profiles
  · obtain ⟨rfl,hz,hid⟩ := hok
    have hexact := report_exact (((h id).mono hle).account (hp id ⟨rfl,rfl⟩)) hz on
    have hstep : l.step (.report none id on observedAt) =
        ⟨(l.engine.accountLocked id observedAt).2.setRuntime id
          (((l.engine.runtimeOf id).account observedAt).report on observedAt),
          Function.update l.history id (⟨observedAt,on⟩::l.history id)⟩ := by
      simp only [Ledger.step,recordReported_accepted hid hz]
    have hown : Accounted ((l.step (.report none id on observedAt)).engine.runtimeOf id)
        ((l.step (.report none id on observedAt)).history id) observedAt := by
      rw [hstep]
      dsimp only
      rwa [runtimeOf_setRuntime,if_pos rfl,Function.update_self]
    refine ⟨by rw [hstep]; rfl,?_,?_⟩
    · intro i
      by_cases hi : i = id
      · subst hi; exact hown.tracked
      · rw [hstep]
        dsimp only
        rw [runtimeOf_setRuntime,if_neg hi,Function.update_of_ne hi]
        have hother : (l.engine.accountLocked id observedAt).2.runtimeOf i =
            l.engine.runtimeOf i := (runtimeOf_setRuntime _ _ _ _).trans (if_neg hi)
        rw [hother]
        exact (h i).mono hle
    · rintro i ⟨_,_,rfl,_⟩
      exact hown
  · obtain ⟨err,hr⟩ := recordReported_refused hok on
    refine Ledger.Booked.unchanged h hle (by simp only [Ledger.step,hr]) ?_
    rintro i ⟨hctx,hz,rfl,hid⟩
    exact hok ⟨hctx,hz,hid⟩

theorem evaluate_booked {clock : ℤ} {get : Reader} {intent : Intent} (h : l.Tracks now)
    (hle : now ≤ intent.time clock) (hp : l.Prompt (.evaluate ctx clock get intent)) :
    l.Booked (.evaluate ctx clock get intent) := by
  cases ctx with
  | some err => exact Ledger.Booked.unchanged h hle rfl (by rintro i ⟨hctx,_⟩; cases hctx)
  | none =>
    have hr : ∀ i, (l.step (.evaluate none clock get intent)).engine.runtimeOf i =
        if i = intent.equipmentID ∧ i ∈ l.engine.profiles then
          (l.engine.runtimeOf i).account (intent.time clock)
        else l.engine.runtimeOf i := by
      intro i
      simp only [Ledger.step,evaluate_snd]
      exact evaluateLocked_runtimeOf l.engine intent _ i
    have hown : ∀ i, i = intent.equipmentID → i ∈ l.engine.profiles →
        Accounted ((l.step (.evaluate none clock get intent)).engine.runtimeOf i)
          (l.history i) (intent.time clock) := by
      intro i hi hmem
      rw [hr,if_pos ⟨hi,hmem⟩]
      exact ((h i).mono hle).account (hp i ⟨rfl,hi⟩)
    refine ⟨?_,?_,?_⟩
    · simp only [Ledger.step,evaluate_snd,evaluateLocked_profiles]
    · intro i
      by_cases hi : i = intent.equipmentID ∧ i ∈ l.engine.profiles
      · exact (hown i hi.1 hi.2).tracked
      · rw [hr,if_neg hi]
        exact (h i).mono hle
    · rintro i ⟨_,hi,hmem⟩
      exact hown i hi hmem

theorem check_booked {t : ℤ} {order : VisitOrder} (h : l.Tracks t) (hle : t ≤ now)
    (hp : l.Prompt (.check ctx now order)) : l.Booked (.check ctx now order) := by
  cases ctx with
  | some err => exact Ledger.Booked.unchanged h hle rfl (by rintro i ⟨hctx,_⟩; cases hctx)
  | none =>
    have hready : Ready l.engine.profiles l.history (order.overrides++order.profiles) now
        l.engine := ⟨rfl,fun i => (h i).mono hle,fun i hi => hp i ⟨rfl,hi⟩⟩
    have hdone := checkLocked_ready hready
    refine ⟨hdone.profiles,hdone.tracked,?_⟩
    rintro i ⟨_,hmem,hid⟩
    exact checkLocked_accounted hready hid hmem

/-- One call: the books stay tracked, and are exact for what the call accounts. -/
theorem step_booked (h : l.Tracks now) (hle : now ≤ c.time) (hp : l.Prompt c) : l.Booked c := by
  cases c with
  | report ctx id on observedAt => exact report_booked h hle hp
  | evaluate ctx clock get intent => exact evaluate_booked h hle hp
  | check ctx t order => exact check_booked h hle hp

/-- A whole run of calls in time order. -/
theorem run_tracks {later : ℤ} (h : l.Tracks now)
    (hsorted : (now::calls.map Call.time).Pairwise (· ≤ ·))
    (hlater : ∀ t ∈ now::calls.map Call.time, t ≤ later)
    (hp : Guarded Ledger.step Ledger.Prompt l calls) : (run Ledger.step l calls).Tracks later := by
  induction calls generalizing l now with
  | nil => exact fun id => (h id).mono (hlater now (by simp))
  | cons c calls ih =>
    rw [List.map_cons,List.pairwise_cons] at hsorted
    have hbooked := step_booked h (hsorted.1 c.time (by simp)) hp.1
    refine ih hbooked.tracks hsorted.2 ?_ hp.2
    intro t ht
    exact hlater t (List.mem_cons_of_mem _ (by simpa using ht))

/-- An engine with any profiles, mode and overrides and no runtime accounted yet. -/
def Ledger.fresh (e : Engine) : Ledger := ⟨{ e with runtime := ∅ },fun _ => []⟩

theorem fresh_tracks (e : Engine) (now : ℤ) : (Ledger.fresh e).Tracks now :=
  fun _ => .inl ⟨rfl,rfl,rfl⟩

/-- The last call of a run in time order finds books that are tracked up to it. -/
theorem fresh_run_tracks (hsorted : ((calls++[c]).map Call.time).Pairwise (· ≤ ·))
    (hp : Guarded Ledger.step Ledger.Prompt (Ledger.fresh e) calls) :
    (run Ledger.step (Ledger.fresh e) calls).Tracks c.time := by
  rw [List.map_append,List.pairwise_append] at hsorted
  have hle : ∀ t ∈ calls.map Call.time, t ≤ c.time := fun t ht =>
    hsorted.2.2 t ht c.time (by simp)
  cases calls with
  | nil => exact fresh_tracks e c.time
  | cons c₀ calls =>
    refine run_tracks (fresh_tracks e c₀.time) ?_ ?_ hp
    · rw [List.map_cons] at hsorted ⊢
      exact List.pairwise_cons.mpr ⟨by simpa using (List.pairwise_cons.mp hsorted.1).1,hsorted.1⟩
    · intro t ht
      exact hle t (by simpa using ht)

end SafetyEngine
end AquaOS
