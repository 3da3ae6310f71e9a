import AquaOS.HostMachine

/-! What the operations may change on the host: files at managed paths, and nothing at all for an
actor who is no administrator, in a dry run or after a verification that fails. -/
namespace AquaOS
namespace Operations

open Domain AquaOS.Configuration Program

/-- The path a call writes or removes. -/
def HostCall.modified : HostCall → Option String
  | .writeFileAtomic path _ _ | .remove path => some path
  | _ => none

/-- A call that writes or removes only where it is permitted, and then at managed paths. -/
def HostCall.Within (permitted : Prop) (c : HostCall) : Prop :=
  ∀ path ∈ c.modified, permitted ∧ path ∈ managedPaths

/-- The operations with their inputs. -/
inductive Request
  | install (request : InstallRequest)
  | verify (ctx : Option Failure) (actor : Actor)
  | repair (actor : Actor) (dryRun : Bool)
  | validateConfiguration (actor : Actor) (payload : Bytes)
  | applyConfiguration (actor : Actor) (payload : Bytes) (dryRun : Bool)
  | upgrade (request : UpgradeRequest)
  | rollback (actor : Actor) (dryRun : Bool)
  | backup (ctx : Option Failure) (actor : Actor)
  | restore (actor : Actor) (payload : Bytes) (dryRun : Bool)
  | uninstall (actor : Actor) (preserveData dryRun : Bool)
  | getStatus (ctx : Option Failure) (actor : Actor)
  | getConfiguration (ctx : Option Failure) (actor : Actor)

namespace Request

variable (t : Tools)

def program : Request → HostProgram (Option OperationError)
  | .install request => Prod.snd <$> Operations.install t request
  | .verify ctx actor => Prod.snd <$> Operations.verify t ctx actor
  | .repair actor dryRun => Prod.snd <$> Operations.repair t actor dryRun
  | .validateConfiguration actor payload =>
    pure (Operations.validateConfiguration t actor payload).2
  | .applyConfiguration actor payload dryRun =>
    Prod.snd <$> Operations.applyConfiguration t actor payload dryRun
  | .upgrade request => Prod.snd <$> Operations.upgrade t request
  | .rollback actor dryRun => Prod.snd <$> Operations.rollback t actor dryRun
  | .backup ctx actor => Prod.snd <$> Operations.backup t ctx actor
  | .restore actor payload dryRun => Prod.snd <$> Operations.restore t actor payload dryRun
  | .uninstall actor preserveData dryRun =>
    Prod.snd <$> Operations.uninstall t actor preserveData dryRun
  | .getStatus ctx actor => Prod.snd <$> Operations.getStatus t ctx actor
  | .getConfiguration ctx actor => do
    match ← Operations.getConfiguration t ctx actor with
    | .error err => return some err
    | .ok _ => return none

def actor : Request → Actor
  | .install request => request.actor
  | .upgrade request => request.actor
  | .verify _ actor | .repair actor _ | .validateConfiguration actor _
  | .applyConfiguration actor _ _ | .rollback actor _ | .backup _ actor | .restore actor _ _
  | .uninstall actor _ _ | .getStatus _ actor | .getConfiguration _ actor => actor

/-- Operations without the flag are never dry runs. -/
def dryRun : Request → Bool
  | .install request => request.dryRun
  | .upgrade request => request.dryRun
  | .repair _ dryRun | .applyConfiguration _ _ dryRun | .rollback _ dryRun | .restore _ _ dryRun
  | .uninstall _ _ dryRun => dryRun
  | _ => false

def verified : Request → Bool
  | .install request =>
    (verifyArtifact t request.toArtifact).isNone && (decodeCandidate t request.configuration).isOk
  | .upgrade request => (verifyArtifact t request.toArtifact).isNone
  | .validateConfiguration _ payload | .applyConfiguration _ payload _ =>
    (decodeCandidate t payload).isOk
  | .restore _ payload _ =>
    match t.unzip payload with
    | none => false
    | some entries => (verifyEntries t entries).isOk
  | _ => true

/-- An administrator asks for it, it is no dry run, and what is to be verified is. -/
def Permitted (r : Request) : Prop :=
  authorize t r.actor = none ∧ r.dryRun = false ∧ r.verified t = true

end Request

section Rules

variable {P : HostCall → Prop} {A : Type}

variable {path : String} {f : Option Failure → HostProgram A}

@[simp] theorem every_readFile {f : Bytes × Option Failure → HostProgram A} :
    (readFile path >>= f).Every P ↔ P (.readFile path) ∧ ∀ payload err, (f (payload,err)).Every P :=
  and_congr_right' Prod.forall

@[simp] theorem every_pathExists {f : Bool × Option Failure → HostProgram A} :
    (pathExists path >>= f).Every P ↔
      P (.pathExists path) ∧ ∀ found err, (f (found,err)).Every P :=
  and_congr_right' Prod.forall

@[simp] theorem every_writeFileAtomic {payload : Bytes} {mode : ℕ} :
    (writeFileAtomic path payload mode >>= f).Every P ↔
      P (.writeFileAtomic path payload mode) ∧ (f none).Every P ∧ ∀ err, (f (some err)).Every P :=
  and_congr_right' Option.forall

@[simp] theorem every_mkdirAll {mode : ℕ} : (mkdirAll path mode >>= f).Every P ↔
      P (.mkdirAll path mode) ∧ (f none).Every P ∧ ∀ err, (f (some err)).Every P :=
  and_congr_right' Option.forall

@[simp] theorem every_remove :
    (remove path >>= f).Every P ↔
      P (.remove path) ∧ (f none).Every P ∧ ∀ err, (f (some err)).Every P :=
  and_congr_right' Option.forall

@[simp] theorem every_runCommand {name : String} {args : List String} :
    (runCommand name args >>= f).Every P ↔
      P (.run name args) ∧ (f none).Every P ∧ ∀ err, (f (some err)).Every P :=
  and_congr_right' Option.forall

@[simp] theorem every_restart :
    (restart >>= f).Every P ↔ P (.run "systemctl" ["restart","aquaos.service"]) ∧
      (f none).Every P ∧ ∀ err, (f (some err)).Every P :=
  every_runCommand

@[simp] theorem every_ite {p : Prop} [Decidable p] {m m' : HostProgram A} :
    (if p then m else m').Every P ↔ (p → m.Every P) ∧ (¬ p → m'.Every P) := by
  split_ifs with h <;> simp [h]

theorem every_map {B : Type} {f : A → B} {m : HostProgram A} (h : m.Every P) : (f <$> m).Every P :=
  every_bind h fun _ => trivial

end Rules

section Within

variable (t : Tools) {permitted : Prop}

@[simp] theorem mem_managedPaths (path : String) : path ∈ managedPaths ↔
    path ∈ [binaryPath,configPath,versionPath,unitPath,sysusersPath,tmpfilesPath,rollbackPath,
      rollbackVersionPath,rollbackConfigPath] :=
  List.mem_insertionSort _

@[simp] theorem within_readFile (path : String) : (HostCall.readFile path).Within permitted := nofun

@[simp] theorem within_pathExists (path : String) : (HostCall.pathExists path).Within permitted :=
  nofun

@[simp] theorem within_mkdirAll (path : String) (mode : ℕ) :
    (HostCall.mkdirAll path mode).Within permitted := nofun

@[simp] theorem within_run (name : String) (args : List String) :
    (HostCall.run name args).Within permitted := nofun

@[simp] theorem within_writeFileAtomic (path : String) (payload : Bytes) (mode : ℕ) :
    (HostCall.writeFileAtomic path payload mode).Within permitted ↔
      permitted ∧ path ∈ managedPaths := by
  simp [HostCall.Within,HostCall.modified]

@[simp] theorem within_remove (path : String) :
    (HostCall.remove path).Within permitted ↔ permitted ∧ path ∈ managedPaths := by
  simp [HostCall.Within,HostCall.modified]

theorem preflight_within (ack : Bool) : (preflight t ack).Every (HostCall.Within permitted) := by
  simp [preflight]

theorem install_within (request : InstallRequest)
    (h : authorize t request.actor = none → request.dryRun = false →
      verifyArtifact t request.toArtifact = none →
      (decodeCandidate t request.configuration).isOk = true → permitted) :
    (install t request).Every (HostCall.Within permitted) := by
  unfold install
  cases hactor : authorize t request.actor with
  | some err => trivial
  | none =>
    refine every_bind (preflight_within t _) fun refusal => ?_
    cases refusal with
    | some err => trivial
    | none =>
      cases hartifact : verifyArtifact t request.toArtifact with
      | some err => simp
      | none =>
        cases hcandidate : decodeCandidate t request.configuration with
        | error err => simp
        | ok cfg =>
          cases hdry : request.dryRun with
          | true => simp
          | false =>
            have hpermitted := h hactor hdry hartifact (by rw [hcandidate]; rfl)
            simp [placeFiles,placeBinary,activateUnit,Option.forall,hpermitted]

theorem getStatus_within (ctx : Option Failure) (actor : Actor) :
    (getStatus t ctx actor).Every (HostCall.Within permitted) := by
  unfold getStatus
  cases authorize t actor <;> cases ctx <;> simp

theorem getConfiguration_within (ctx : Option Failure) (actor : Actor) :
    (getConfiguration t ctx actor).Every (HostCall.Within permitted) := by
  unfold getConfiguration
  cases authorize t actor with
  | some err => trivial
  | none =>
    cases ctx with
    | some err => trivial
    | none =>
      refine every_readFile.mpr ⟨within_readFile _,fun payload err => ?_⟩
      cases err with
      | some err => trivial
      | none =>
        dsimp only
        cases decodeCandidate t payload <;> trivial

theorem verify_within (ctx : Option Failure) (actor : Actor) :
    (verify t ctx actor).Every (HostCall.Within permitted) := by
  refine every_bind (getStatus_within t ctx actor) fun out => ?_
  obtain ⟨status,err⟩ := out
  cases err <;> simp

theorem repair_within (actor : Actor) (dryRun : Bool)
    (h : authorize t actor = none → dryRun = false → permitted) :
    (repair t actor dryRun).Every (HostCall.Within permitted) := by
  unfold repair
  cases hactor : authorize t actor with
  | some err => trivial
  | none =>
    cases dryRun with
    | true => trivial
    | false =>
      simp [h hactor rfl]

theorem applyConfiguration_within (actor : Actor) (payload : Bytes) (dryRun : Bool)
    (h : authorize t actor = none → dryRun = false → (decodeCandidate t payload).isOk = true →
      permitted) :
    (applyConfiguration t actor payload dryRun).Every (HostCall.Within permitted) := by
  unfold applyConfiguration
  cases hvalid : validateConfiguration t actor payload with
  | mk result err =>
    cases err with
    | some err => trivial
    | none =>
      obtain ⟨hactor,_,candidate,hcandidate⟩ := validateConfiguration_ok t hvalid
      refine every_readFile.mpr ⟨within_readFile _,fun current err => ?_⟩
      refine every_ite.mpr ⟨fun _ => trivial,fun _ => every_ite.mpr ⟨fun _ => trivial,fun _ => ?_⟩⟩
      cases decodeCandidate t current with
      | error err => trivial
      | ok cfg =>
        cases dryRun with
        | true => trivial
        | false =>
          simp [every_writeFileAtomic,every_restart,every_pure,mem_managedPaths,
            h hactor rfl (by rw [hcandidate]; rfl)]

theorem upgrade_within (request : UpgradeRequest)
    (h : authorize t request.actor = none → request.dryRun = false →
      verifyArtifact t request.toArtifact = none → permitted) :
    (upgrade t request).Every (HostCall.Within permitted) := by
  unfold upgrade
  cases hactor : authorize t request.actor with
  | some err => trivial
  | none =>
    cases hartifact : verifyArtifact t request.toArtifact with
    | some err => trivial
    | none =>
      cases hdry : request.dryRun with
      | true => trivial
      | false =>
        simp [h hactor hdry hartifact]

theorem rollback_within (actor : Actor) (dryRun : Bool)
    (h : authorize t actor = none → dryRun = false → permitted) :
    (rollback t actor dryRun).Every (HostCall.Within permitted) := by
  unfold rollback
  cases hactor : authorize t actor with
  | some err => trivial
  | none =>
    cases dryRun with
    | true => trivial
    | false =>
      simp [h hactor rfl]

theorem backup_within (ctx : Option Failure) (actor : Actor) :
    (backup t ctx actor).Every (HostCall.Within permitted) := by
  unfold backup
  cases authorize t actor with
  | some err => trivial
  | none =>
    cases ctx with
    | some err => trivial
    | none =>
      refine every_readFile.mpr ⟨within_readFile _,fun configuration err => ?_⟩
      cases err with
      | some err => trivial
      | none =>
        refine every_readFile.mpr ⟨within_readFile _,fun version err => ?_⟩
        cases err with
        | some err => trivial
        | none =>
          dsimp only
          split <;> trivial

theorem restore_within (actor : Actor) (payload : Bytes) (dryRun : Bool)
    (h : authorize t actor = none → dryRun = false →
      (Request.restore actor payload dryRun).verified t = true → permitted) :
    (restore t actor payload dryRun).Every (HostCall.Within permitted) := by
  unfold restore
  cases hactor : authorize t actor with
  | some err => trivial
  | none =>
    cases hentries : t.unzip payload with
    | none => trivial
    | some entries =>
      dsimp only
      cases hfiles : verifyEntries t entries with
      | error err => trivial
      | ok files =>
        have hverified : (Request.restore actor payload dryRun).verified t = true := by
          simp [Request.verified,hentries,hfiles,Except.isOk,Except.toBool]
        cases dryRun with
        | true => trivial
        | false =>
          simp [h hactor rfl hverified]

theorem removeEach_within {paths : List String} (h : permitted)
    (hpaths : ∀ path ∈ paths, path ∈ managedPaths) :
    (removeEach paths).Every (HostCall.Within permitted) := by
  induction paths with
  | nil => trivial
  | cons path paths ih =>
    rw [List.forall_mem_cons] at hpaths
    exact every_remove.mpr ⟨(within_remove path).mpr ⟨h,hpaths.1⟩,ih hpaths.2,fun _ => trivial⟩

theorem uninstall_within (actor : Actor) (preserveData dryRun : Bool)
    (h : authorize t actor = none → dryRun = false → permitted) :
    (uninstall t actor preserveData dryRun).Every (HostCall.Within permitted) := by
  unfold uninstall
  cases hactor : authorize t actor with
  | some err => trivial
  | none =>
    cases dryRun with
    | true => trivial
    | false =>
      have hpermitted := h hactor rfl
      have hcommand {name args} : (runCommand name args).Every (HostCall.Within permitted) :=
        every_ask (within_run name args)
      have hfiles : (removeEach [binaryPath,unitPath,sysusersPath,tmpfilesPath]).Every
          (HostCall.Within permitted) :=
        removeEach_within hpermitted (by simp)
      have hdata : (removeEach [configPath,versionPath]).Every (HostCall.Within permitted) :=
        removeEach_within hpermitted (by simp)
      refine every_bind hcommand fun _ => every_bind hfiles fun err => ?_
      cases err with
      | some err => trivial
      | none =>
        refine every_ite.mpr ⟨fun _ => every_bind hdata fun err => ?_,
          fun _ => every_bind hcommand fun _ => trivial⟩
        cases err with
        | some err => trivial
        | none => exact every_bind hcommand fun _ => trivial

theorem program_within (r : Request) : (r.program t).Every (HostCall.Within (r.Permitted t)) := by
  cases r with
  | install request =>
    exact every_map (install_within t request fun hactor hdry hartifact hcandidate =>
      ⟨hactor,hdry,by simp [Request.verified,hartifact,hcandidate]⟩)
  | verify ctx actor => exact every_map (verify_within t ctx actor)
  | repair actor dryRun =>
    exact every_map (repair_within t actor dryRun fun hactor hdry => ⟨hactor,hdry,rfl⟩)
  | validateConfiguration actor payload => exact every_pure _
  | applyConfiguration actor payload dryRun =>
    exact every_map (applyConfiguration_within t actor payload dryRun
      fun hactor hdry hcandidate => ⟨hactor,hdry,hcandidate⟩)
  | upgrade request =>
    exact every_map (upgrade_within t request fun hactor hdry hartifact =>
      ⟨hactor,hdry,by simp [Request.verified,hartifact]⟩)
  | rollback actor dryRun =>
    exact every_map (rollback_within t actor dryRun fun hactor hdry => ⟨hactor,hdry,rfl⟩)
  | backup ctx actor => exact every_map (backup_within t ctx actor)
  | restore actor payload dryRun =>
    exact every_map (restore_within t actor payload dryRun
      fun hactor hdry hverified => ⟨hactor,hdry,hverified⟩)
  | uninstall actor preserveData dryRun =>
    exact every_map (uninstall_within t actor preserveData dryRun
      fun hactor hdry => ⟨hactor,hdry,rfl⟩)
  | getStatus ctx actor => exact every_map (getStatus_within t ctx actor)
  | getConfiguration ctx actor =>
    refine every_bind (getConfiguration_within t ctx actor) fun out => ?_
    cases out <;> trivial

/-- On every host, whatever it answers, an operation writes and removes at managed paths only, and
nowhere where it is not permitted. -/
theorem operation_confined {S : Type} (host : S → (c : HostCall) → c.Reply × S) (s : S)
    (r : Request) : ∀ c ∈ (r.program t).calls host s, ∀ path ∈ c.modified,
      path ∈ managedPaths ∧ authorize t r.actor = none ∧ r.dryRun = false ∧
        r.verified t = true := by
  intro c hc path hpath
  obtain ⟨hpermitted,hmanaged⟩ := (program_within t r).calls s c hc path hpath
  exact ⟨hmanaged,hpermitted⟩

def benchUninstall : Request := .uninstall benchActor true false

theorem benchUninstall_confined :
    HostCall.remove binaryPath ∈
        (benchUninstall.program benchTools).calls Machine.answer bareMachine ∧
      binaryPath ∈ managedPaths ∧ authorize benchTools benchActor = none := by
  have hcall : HostCall.remove binaryPath ∈
      (benchUninstall.program benchTools).calls Machine.answer bareMachine :=
    .tail _ (.head _)
  obtain ⟨hmanaged,hactor,-,-⟩ :=
    operation_confined benchTools Machine.answer bareMachine benchUninstall _ hcall _ rfl
  exact ⟨hcall,hmanaged,hactor⟩

end Within

end Operations
end AquaOS
