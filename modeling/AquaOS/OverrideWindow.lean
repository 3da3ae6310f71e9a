import AquaOS.EngineCalls
import AquaOS.PolicyDecision

/-! The window of an override: runs of calls on the safety engine beside the override each equipment
was granted last, and the times at which evaluations use it. -/
namespace AquaOS
namespace SafetyEngine

open Domain EquipmentProfile Transition

/-- The override as a grant stores it, with the clock for a time it does not carry. -/
def Override.stamped (o : Override) (clock : ℤ) : Override :=
  { o with createdAt := if o.createdAt = 0 then clock else o.createdAt }

/-- An engine, and by equipment the override that was granted last and has not been revoked. -/
structure Granted where
  engine : Engine
  standing : EquipmentID → Option Override

namespace Granted

def call (s : Granted) (c : EngineCall) : Granted where
  engine := s.engine.call c
  standing :=
    match c with
    | .policy (.grantOverride o) q =>
      if (s.engine.grantOverride q.ctx q.clock o).1 = none then
        Function.update s.standing o.equipmentID (some (o.stamped q.clock))
      else s.standing
    | .policy (.revokeOverride id) q =>
      if (s.engine.revokeOverride q.ctx id).1 = none then Function.update s.standing id none
      else s.standing
    | _ => s.standing

/-- What the engine stores is what stands; expired overrides may be gone. -/
structure Coherent (s : Granted) : Prop where
  stored : ∀ id o, s.engine.overrides.lookup id = some o → s.standing id = some o
  valid : ∀ id o, s.engine.overrides.lookup id = some o → validateID o.id = none

theorem Coherent.shrink {s : Granted} (h : s.Coherent) {e : Engine}
    (hsub : ∀ id o, e.overrides.lookup id = some o → s.engine.overrides.lookup id = some o) :
    Coherent ⟨e,s.standing⟩ :=
  ⟨fun id o ho => h.stored id o (hsub id o ho),fun id o ho => h.valid id o (hsub id o ho)⟩

theorem Coherent.insert {s : Granted} (h : s.Coherent) {id : EquipmentID} {o : Override}
    (hid : validateID o.id = none) :
    Coherent ⟨{ s.engine with overrides := s.engine.overrides.insert id o },
      Function.update s.standing id (some o)⟩ := by
  refine ⟨fun id' o' ho => ?_,Table.forall_insert hid h.valid⟩
  rw [Table.lookup_insert_ite] at ho
  dsimp only
  rw [Function.update_apply]
  split_ifs at ho ⊢
  · exact ho
  · exact h.stored id' o' ho

theorem Coherent.erase {s : Granted} (h : s.Coherent) (id : EquipmentID) :
    Coherent ⟨{ s.engine with overrides := s.engine.overrides.erase id },
      Function.update s.standing id none⟩ := by
  refine ⟨fun id' o ho => ?_,fun id' o ho => h.valid id' o (erase_lookup ho)⟩
  have hne : id' ≠ id := by
    rintro rfl
    simp at ho
  dsimp only
  rw [Function.update_of_ne hne]
  exact h.stored id' o (erase_lookup ho)

end Granted

theorem recordReported_overrides (e : Engine) (ctx : Option Failure) (id : EquipmentID) (on : Bool)
    (observedAt : ℤ) : (e.recordReported ctx id on observedAt).2.overrides = e.overrides := by
  unfold Engine.recordReported
  cases ctx with
  | some err => rfl
  | none => dsimp only; split_ifs <;> rfl

theorem call_coherent {s : Granted} (h : s.Coherent) (c : EngineCall) : (s.call c).Coherent := by
  cases c with
  | setMode ctx mode =>
    refine h.shrink (e := s.engine.call (.setMode ctx mode)) fun id o ho => ?_
    unfold Engine.call Engine.setMode at ho
    cases ctx with
    | some err => exact ho
    | none => cases mode <;> exact ho
  | policy call q =>
    cases call with
    | evaluate intent =>
      refine h.shrink (e := (s.engine.evaluate q.ctx q.clock q.get intent).2) fun id o ho => ?_
      cases hctx : q.ctx with
      | some err => simpa only [hctx,Engine.evaluate] using ho
      | none =>
        rw [hctx,evaluate_snd] at ho
        exact evaluateLocked_lookup ho
    | recordReported id on observedAt =>
      refine h.shrink (e := (s.engine.recordReported q.ctx id on observedAt).2) fun i o ho => ?_
      rwa [recordReported_overrides] at ho
    | checkWatchdogs =>
      refine h.shrink (e := (s.engine.checkWatchdogs q.ctx q.clock q.order).2) fun id o ho => ?_
      unfold Engine.checkWatchdogs at ho
      cases hctx : q.ctx with
      | some err => simpa only [hctx] using ho
      | none =>
        simp only [hctx] at ho
        exact (checkLocked_sameAccounts s.engine q.clock q.order).overrides id o ho
    | grantOverride o =>
      rcases grantOverride_cases s.engine q.ctx q.clock o with ⟨herr,hsame⟩ | ⟨hok,hid,_,hstored⟩
      · have hcall : s.call (.policy (.grantOverride o) q) = s :=
          congrArg₂ Granted.mk hsame (if_neg herr)
        rw [hcall]
        exact h
      · have hcall : s.call (.policy (.grantOverride o) q) = ⟨_,_⟩ :=
          congrArg₂ Granted.mk hstored (if_pos hok)
        rw [hcall]
        exact h.insert hid
    | revokeOverride id =>
      cases hctx : q.ctx with
      | some err =>
        have hcall : s.call (.policy (.revokeOverride id) q) = s := by
          simp [Granted.call,Engine.call,PolicyCall.apply,Engine.revokeOverride,hctx]
        rw [hcall]
        exact h
      | none =>
        have hcall : s.call (.policy (.revokeOverride id) q) =
            ⟨{ s.engine with overrides := s.engine.overrides.erase id },
              Function.update s.standing id none⟩ := by
          simp [Granted.call,Engine.call,PolicyCall.apply,Engine.revokeOverride,hctx]
        rw [hcall]
        exact h.erase id

theorem addProfiles_overrides {e e' : Engine} {ps : List Profile} (h : e.addProfiles ps = .ok e') :
    e'.overrides = e.overrides := by
  rw [addProfiles_scan] at h
  refine Scan.scan_keeps (p := Engine.overrides) h fun _ e p t ht => ?_
  obtain ⟨_,_,rfl⟩ := addProfiles_single.mp ht
  rfl

theorem run_coherent {ps : List Profile} {e : Engine} (h : newEngine ps = .ok e)
    (calls : List EngineCall) : (run Granted.call ⟨e,fun _ => none⟩ calls).Coherent := by
  refine invariant_always (I := Granted.Coherent) (fun _ c hs => call_coherent hs c) ?_ calls
  have hempty : e.overrides = ∅ := addProfiles_overrides h
  constructor <;> simp [hempty]

theorem hardOutcome_unattached {ev : Evaluation} {get : Reader} {d : Decision}
    (h : ev.hardOutcome get = some (.ok d)) : d.overrideID = "" := by
  unfold Evaluation.hardOutcome at h
  split_ifs at h <;> try (obtain rfl := Except.ok.inj (Option.some.inj h); rfl)
  cases hv : validateInputs get 0 ev.profile.requiredInputs with
  | error err => simp [hv] at h
  | ok d' =>
    simp only [hv] at h
    split_ifs at h
    obtain rfl := Except.ok.inj (Option.some.inj h)
    rcases validateInputs_cases hv with rfl | rfl | ⟨r,value,rfl⟩
    · rfl
    · rfl
    · unfold requirementDecision
      cases value.quality <;> try rfl
      dsimp only
      split_ifs <;> rfl

section Window

variable (s : Granted) (ctx : Option Failure) (clock : ℤ) (get : Reader) (intent : Intent)

/-- A decision uses an override: it names one, or lets an intent pass in a mode that needs one. -/
def Decision.UsesOverride (d : Decision) (mode : Mode) (on : Bool) : Prop :=
  d.overrideID ≠ "" ∨ on = true ∧ (mode = .maintenance ∨ mode = .manual) ∧ d.allowed = true

/-- A decision that uses an override is made within the window of the one that stands. -/
def WithinWindow : Prop :=
  ∀ d, (s.engine.evaluate ctx clock get intent).1 = .ok d →
    d.UsesOverride s.engine.mode intent.on →
      ∃ o, s.standing intent.equipmentID = some o ∧ o.createdAt ≤ intent.time clock ∧
        intent.time clock < o.expiresAt

/-- Where the hard constraints let an intent pass, no stored override is still to begin. -/
def Begun : Prop :=
  ctx = none → intent.on = true → ∀ p o, s.engine.profiles.lookup intent.equipmentID = some p →
    (s.engine.evaluationAt intent (intent.time clock) p).hardOutcome get = none →
      s.engine.overrides.lookup intent.equipmentID = some o → intent.time clock < o.expiresAt →
        o.createdAt ≤ intent.time clock

/-- A live override is attached to what the hard constraints let pass. -/
theorem evaluate_live {p : Profile} {o : Override} (hctx : ctx = none) (hon : intent.on = true)
    (hp : s.engine.profiles.lookup intent.equipmentID = some p)
    (hhard : (s.engine.evaluationAt intent (intent.time clock) p).hardOutcome get = none)
    (ho : s.engine.overrides.lookup intent.equipmentID = some o)
    (hlive : intent.time clock < o.expiresAt) :
    (s.engine.evaluate ctx clock get intent).1 = .ok { granted with overrideID := o.id } := by
  subst hctx
  rw [evaluate_eq,hp]
  dsimp only
  rw [decide_eq _ _ hon,hhard]
  simp [Evaluation.modeDecision,Engine.evaluationAt,Engine.liveOverride,ho,hlive,Option.filter]

theorem usesOverride_live {d : Decision} (h : (s.engine.evaluate ctx clock get intent).1 = .ok d)
    (huses : d.UsesOverride s.engine.mode intent.on) :
    ctx = none ∧ intent.on = true ∧ ∃ p o,
      s.engine.profiles.lookup intent.equipmentID = some p ∧
      (s.engine.evaluationAt intent (intent.time clock) p).hardOutcome get = none ∧
      s.engine.overrides.lookup intent.equipmentID = some o ∧ intent.time clock < o.expiresAt := by
  cases ctx with
  | some err => simp [Engine.evaluate] at h
  | none =>
    rw [evaluate_eq] at h
    cases hp : s.engine.profiles.lookup intent.equipmentID with
    | none =>
      simp only [hp] at h
      obtain rfl := Except.ok.inj h
      simp [Decision.UsesOverride] at huses
    | some p =>
      simp only [hp] at h
      cases hon : intent.on with
      | false =>
        have hgranted : granted = d := by
          simpa [Evaluation.decide,Engine.evaluationAt,hon] using h
        simp [← hgranted,Decision.UsesOverride,hon,granted] at huses
      | true =>
        rw [decide_eq _ _ hon] at h
        cases hhard : (s.engine.evaluationAt intent (intent.time clock) p).hardOutcome get with
        | some out =>
          rw [hhard] at h
          obtain rfl : out = .ok d := h
          simp [Decision.UsesOverride,hardOutcome_unattached hhard,
            (hardOutcome_hard _ get d hhard).1] at huses
        | none =>
          rw [hhard] at h
          obtain rfl := Except.ok.inj h
          cases hlive : s.engine.liveOverride intent.equipmentID (intent.time clock) with
          | none =>
            by_cases hmode : s.engine.mode = .maintenance ∨ s.engine.mode = .manual <;>
              simp [Decision.UsesOverride,Evaluation.modeDecision,Engine.evaluationAt,hlive,hmode,
                granted] at huses
          | some o =>
            obtain ⟨ho,hexpires⟩ := Option.filter_eq_some_iff.mp hlive
            exact ⟨rfl,rfl,p,o,rfl,hhard,ho,by simpa using hexpires⟩

theorem withinWindow_iff {ps : List Profile} {e : Engine} (h : newEngine ps = .ok e)
    (calls : List EngineCall) :
    WithinWindow (run Granted.call ⟨e,fun _ => none⟩ calls) ctx clock get intent ↔
      Begun (run Granted.call ⟨e,fun _ => none⟩ calls) ctx clock get intent := by
  have hcoherent := run_coherent h calls
  generalize run Granted.call ⟨e,fun _ => none⟩ calls = s at hcoherent
  constructor
  · intro hwindow hctx hon p o hp hhard ho hlive
    have hid : o.id ≠ "" := by
      intro heq
      have hvalid := hcoherent.valid _ _ ho
      rw [heq] at hvalid
      exact absurd hvalid (by decide)
    obtain ⟨o',hstanding,hcreated,-⟩ :=
      hwindow _ (evaluate_live s ctx clock get intent hctx hon hp hhard ho hlive) (.inl hid)
    obtain rfl : o = o' :=
      Option.some.inj ((hcoherent.stored _ _ ho).symm.trans hstanding)
    exact hcreated
  · intro hbegun d hd huses
    obtain ⟨hctx,hon,p,o,hp,hhard,ho,hlive⟩ := usesOverride_live s ctx clock get intent hd huses
    exact ⟨o,hcoherent.stored _ _ ho,hbegun hctx hon p o hp hhard ho hlive,hlive⟩

def laterOverride : Override :=
  ⟨"20000000-0000-4000-8000-000000000001",outletID,"operator","service",newYear+2*hour,
    newYear+3*hour⟩

def serviced : Granted :=
  run Granted.call ⟨outletEngine,fun _ => none⟩
    [.setMode none .maintenance,.policy (.grantOverride laterOverride) { clock := newYear }]

theorem serviced_withinWindow_iff :
    WithinWindow serviced none 0 (fun _ _ => .error .stateNotFound)
        ⟨outletID,true,newYear+2*hour⟩ ↔
      Begun serviced none 0 (fun _ _ => .error .stateNotFound) ⟨outletID,true,newYear+2*hour⟩ :=
  withinWindow_iff _ _ _ _ (show newEngine [outlet] = .ok outletEngine from rfl) _

/-- An hour before it begins, the override lets an intent pass. -/
theorem serviced_before_window :
    (serviced.engine.evaluate none 0 (fun _ _ => .error .stateNotFound)
        ⟨outletID,true,newYear+hour⟩).1 = .ok { granted with overrideID := laterOverride.id } ∧
      serviced.standing outletID = some laterOverride ∧
      newYear+hour < laterOverride.createdAt := by
  refine ⟨rfl,?_,?_⟩ <;> decide

end Window

end SafetyEngine
end AquaOS
