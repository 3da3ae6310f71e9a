import AquaOS.Reload
import AquaOS.Transition

/-! `Manager.Reload` as a whole: it loads, plans, activates the log level, the snapshot and the
digest, and publishes an audit event whose failure undoes the activation. Calls are serialized,
so a sequence of them is a run. -/
namespace AquaOS
namespace Configuration

open Domain Transition

structure Manager where
  current : Config
  digest : String
  liveLevel : String
  loader : Bool
  publisher : Bool
  levels : Bool

structure ReloadAnswer where
  loaded : Except Failure Config
  eventCreated : Option Failure := none
  published : Option Failure := none

inductive ReloadError
  | failed (err : Failure)
  | planned (err : PlanError)
  deriving DecidableEq

section Reload

variable (lib : Library) (digest : Config → Except Failure String)

/-- The text `Digest` returns, which is empty beside an error. -/
def digestText (c : Config) : String :=
  match digest c with
  | .ok text => text
  | .error _ => ""

def newManager (initial : Config) (loader publisher levels : Bool) : Manager :=
  ⟨initial,digestText digest initial,initial.application.logLevel,loader,publisher,levels⟩

/-- `SetLogLevel` for a plan that changes something. -/
def Manager.setLogLevel (m : Manager) (p : ReloadPlan) (level : String) : Manager :=
  if p.changes ≠ [] then { m with liveLevel := level } else m

def Manager.activate (m : Manager) (p : ReloadPlan) (next : Config) : Manager :=
  { m.setLogLevel p next.application.logLevel with current := next, digest := p.digest }

def Manager.rollBack (m : Manager) (p : ReloadPlan) (previous : Config) (previousDigest : String) :
    Manager :=
  { m.setLogLevel p previous.application.logLevel with
    current := previous, digest := previousDigest }

/-- The audit event fails only where a publisher is attached. -/
def Manager.audit (m : Manager) (a : ReloadAnswer) : Option Failure :=
  if m.publisher then a.published else none

/-- `Reload` once the plan is accepted. -/
def Manager.commit (m : Manager) (a : ReloadAnswer) (p : ReloadPlan) (next : Config) :
    Option ReloadError × Manager :=
  if p.changes ≠ [] ∧ ¬ m.levels then
    (some (.failed (.message
      "configuration reload rejected: live log-level setter is unavailable")),m)
  else
    match a.eventCreated with
    | some err => (some (.failed (.wrapped "create configuration reload event" err)),m)
    | none =>
      match m.audit a with
      | some err =>
        (some (.failed (.wrapped "publish configuration reload event" err)),
          (m.activate p next).rollBack p m.current m.digest)
      | none => (none,m.activate p next)

def Manager.reload (m : Manager) (a : ReloadAnswer) : Option ReloadError × Manager :=
  if ¬ m.loader then (some (.failed (.message "configuration reload is not available")),m)
  else
    match a.loaded with
    | .error err => (some (.failed err),m)
    | .ok next =>
      match plan lib digest m.current next with
      | (_,some err) => (some (.planned err),m)
      | (p,none) => m.commit a p next

def Manager.afterReload (m : Manager) (a : ReloadAnswer) : Manager := (m.reload lib digest a).2

structure Manager.Coherent (m : Manager) : Prop where
  digest : m.digest = digestText digest m.current
  level : m.liveLevel = m.current.application.logLevel

end Reload

variable {lib : Library} {digest : Config → Except Failure String} {m : Manager}

theorem newManager_coherent (initial : Config) (loader publisher levels : Bool) :
    (newManager digest initial loader publisher levels).Coherent digest := ⟨rfl,rfl⟩

/-- An accepted plan carries the digest of the candidate and reports a change of the level. -/
theorem plan_accepted {current next : Config} {p : ReloadPlan}
    (h : plan lib digest current next = (p,none)) :
    p.digest = digestText digest next ∧
      (p.changes = [] → current.application.logLevel = next.application.logLevel) := by
  unfold plan at h
  cases hv : next.validate lib with
  | some err => simp [hv] at h
  | none =>
    cases hd : digest next with
    | error err => simp [hv,hd] at h
    | ok text =>
      simp only [hv,hd] at h
      split_ifs at h
      · cases h
      · obtain rfl : (⟨text,changesBetween current next⟩ : ReloadPlan) = p := (Prod.mk.inj h).1
        refine ⟨by simp [digestText,hd],fun hnone => ?_⟩
        by_contra hlevel
        exact logLevel_reported hlevel hnone

theorem setLogLevel_eq (p : ReloadPlan) (level : String) :
    m.setLogLevel p level = { m with liveLevel := if p.changes ≠ [] then level else m.liveLevel } := by
  unfold Manager.setLogLevel
  split_ifs <;> rfl

theorem activate_coherent (hm : m.Coherent digest) {p : ReloadPlan} {next : Config}
    (hp : plan lib digest m.current next = (p,none)) : (m.activate p next).Coherent digest := by
  obtain ⟨hdigest,hlevel⟩ := plan_accepted hp
  refine ⟨hdigest,?_⟩
  simp only [Manager.activate,setLogLevel_eq]
  split_ifs with hchanges
  · rfl
  · rw [hm.level]
    exact hlevel (by simpa using hchanges)

/-- Undoing an activation restores the manager of before. -/
theorem rollBack_activate (hm : m.Coherent digest) (p : ReloadPlan) (next : Config) :
    (m.activate p next).rollBack p m.current m.digest = m := by
  simp only [Manager.rollBack,Manager.activate,setLogLevel_eq]
  split_ifs with hchanges
  · rw [← hm.level]
  · rfl

/-- A reload fails and changes nothing, or activates a candidate whose plan was accepted. -/
theorem reload_cases (hm : m.Coherent digest) (a : ReloadAnswer) :
    (∃ err, m.reload lib digest a = (some err,m)) ∨
    ∃ next p, plan lib digest m.current next = (p,none) ∧
      m.reload lib digest a = (none,m.activate p next) := by
  unfold Manager.reload
  split_ifs
  · cases a.loaded with
    | error err => exact .inl ⟨_,rfl⟩
    | ok next =>
      dsimp only
      rcases hplan : plan lib digest m.current next with ⟨p,_ | err⟩
      · dsimp only
        unfold Manager.commit
        split_ifs
        · exact .inl ⟨_,rfl⟩
        · cases a.eventCreated with
          | some err => exact .inl ⟨_,rfl⟩
          | none =>
            cases m.audit a with
            | some err =>
              dsimp only
              rw [rollBack_activate hm]
              exact .inl ⟨_,rfl⟩
            | none => exact .inr ⟨next,p,hplan,rfl⟩
      · exact .inl ⟨_,rfl⟩
  · exact .inl ⟨_,rfl⟩

theorem afterReload_coherent (hm : m.Coherent digest) (a : ReloadAnswer) :
    (m.afterReload lib digest a).Coherent digest := by
  unfold Manager.afterReload
  rcases reload_cases hm a with ⟨err,h⟩ | ⟨next,p,hp,h⟩
  · rwa [h]
  · rw [h]
    exact activate_coherent hm hp

theorem reloads_coherent (hm : m.Coherent digest) (answers : List ReloadAnswer) :
    (run (Manager.afterReload lib digest) m answers).Coherent digest :=
  invariant_always (I := Manager.Coherent digest) (fun _ a hm => afterReload_coherent hm a) hm answers

/-- After any reloads, one more that fails leaves snapshot, digest and live level as they were,
and after each the digest and the live level are those of the snapshot. -/
theorem reload_atomic (lib : Library) (digest : Config → Except Failure String) (initial : Config)
    (loader publisher levels : Bool) (answers : List ReloadAnswer) (a : ReloadAnswer) :
    let before := run (Manager.afterReload lib digest)
      (newManager digest initial loader publisher levels) answers
    let after := before.afterReload lib digest a
    (∀ err, (before.reload lib digest a).1 = some err → after.current = before.current ∧
      after.digest = before.digest ∧ after.liveLevel = before.liveLevel) ∧
    after.digest = digestText digest after.current ∧
    after.liveLevel = after.current.application.logLevel := by
  intro before after
  have hbefore : before.Coherent digest :=
    reloads_coherent (newManager_coherent initial loader publisher levels) answers
  have hafter : after.Coherent digest := afterReload_coherent hbefore a
  refine ⟨fun err herr => ?_,hafter.digest,hafter.level⟩
  have hsame : after = before := by
    rcases reload_cases hbefore a with ⟨err',h⟩ | ⟨next,p,_,h⟩
    · exact congrArg Prod.snd h
    · rw [h] at herr
      cases herr
  rw [hsame]
  exact ⟨rfl,rfl,rfl⟩

end Configuration
end AquaOS
