import AquaOS.HostMachine

/-! The activation of a configuration on a host with faults: the file holds the old content or the
new one, and says which by its error. -/
namespace AquaOS
namespace Operations

open Domain Program Machine

variable (t : Tools) {actor : Actor} {payload : Bytes} {dryRun : Bool} {m : Machine}

def Machine.applyConfiguration (m : Machine) (actor : Actor) (payload : Bytes) (dryRun : Bool) :
    Outcome ConfigurationResult × Machine :=
  exec Machine.answer (Operations.applyConfiguration t actor payload dryRun) m

/-- What an activation on the host `m` returns, and the host it leaves. -/
structure Activated (payload : Bytes) (dryRun : Bool) (m : Machine)
    (outcome : Outcome ConfigurationResult) (m' : Machine) : Prop where
  failed : outcome.2 ≠ none → m'.files configPath = m.files configPath
  active : outcome.2 = none → dryRun = false → m'.files configPath = some payload ∧
    ∃ cfg, decodeCandidate t payload = .ok cfg ∧ cfg.validate t.validation = none
  rolledBack : outcome.1.rolledBack → m'.files configPath = m.files configPath ∧
    m'.files rollbackConfigPath = m.files configPath

theorem activated_refused {m' : Machine} (err : OperationError)
    (h : m'.files configPath = m.files configPath) :
    Activated t payload dryRun m (refused err) m' :=
  ⟨fun _ => h,nofun,nofun⟩

/-- The fifth call is the write that is to undo the activation. -/
theorem applyConfiguration_activated (actor : Actor) (payload : Bytes) (dryRun : Bool) (m : Machine)
    (hundo : m.faults (m.made+4) = none) :
    Activated t payload dryRun m (m.applyConfiguration t actor payload dryRun).1
      (m.applyConfiguration t actor payload dryRun).2 := by
  change Ensures answer (Operations.applyConfiguration t actor payload dryRun)
    (Activated t payload dryRun m) m
  unfold Operations.applyConfiguration
  cases hresult : validateConfiguration t actor payload with
  | mk result err =>
  cases err with
  | some err => exact activated_refused t err rfl
  | none =>
  obtain ⟨_,hrolled,cfg,hcfg⟩ := validateConfiguration_ok t hresult
  have hvalid : ∃ cfg, decodeCandidate t payload = .ok cfg ∧ cfg.validate t.validation = none :=
    ⟨cfg,hcfg,(decodeCandidate_ok t hcfg).2.2⟩
  dsimp only
  refine ensures_readFile (fun fragment err _ => activated_refused t _ rfl) fun current hcurrent => ?_
  dsimp only
  rw [if_neg (by simp)]
  by_cases hsame : current = payload
  · rw [if_pos hsame]
    exact ensures_pure ⟨nofun,fun _ _ => ⟨hsame ▸ hcurrent,hvalid⟩,by simp [hrolled]⟩
  rw [if_neg hsame]
  cases hdecoded : decodeCandidate t current with
  | error err => exact activated_refused t _ rfl
  | ok installed =>
  dsimp only
  by_cases hdry : dryRun = true
  · rw [if_pos hdry]
    exact ensures_pure ⟨nofun,by simp [hdry],by simp [hrolled]⟩
  rw [if_neg hdry]
  refine ensures_writeFileAtomic (fun f _ => activated_refused t _ rfl) fun _ => ?_
  refine ensures_writeFileAtomic (fun f _ => activated_refused t _ rfl) fun _ => ?_
  refine ensures_runCommand (fun f _ => ?_) fun _ => ?_
  · refine ensures_writeFileAtomic (fun f hf => absurd hf (by simp [hundo])) fun _ => ?_
    have hfiles : ∀ m', m'.files = ((((m.tick.set rollbackConfigPath (some current)).set configPath
        (some payload)).tick).set configPath (some current)).files →
          Activated t payload dryRun m ({ result with changed := true, rolledBack := true },
            some (.failed (.wrapped "configuration activation failed and rollback attempted"
              f.error))) m' := by
      intro m' hm'
      have hconfig : m'.files configPath = m.files configPath := by simp [hm',hcurrent]
      have hrollback : m'.files rollbackConfigPath = m.files configPath := by
        simp (disch := decide) [hm',hcurrent,Function.update_of_ne]
      exact ⟨fun _ => hconfig,nofun,fun _ => ⟨hconfig,hrollback⟩⟩
    exact ensures_runCommand (fun _ _ => hfiles _ rfl) fun _ => hfiles _ rfl
  · exact ensures_pure ⟨nofun,fun _ _ => ⟨by simp,hvalid⟩,by simp [hrolled]⟩

def benchHost (call : ℕ) : Machine where
  files path := if path = configPath then some (bytes "bench") else none
  faults n := if n = call then some ⟨.external "exit status 1",[]⟩ else none

def commentTools : Tools :=
  { benchTools with
    decodeConfig := fun data =>
      if data = bytes "bench" ∨ data = bytes "bench # edited" then .ok Configuration.benchConfig
      else .error (.external "yaml: unmarshal errors") }

/-- Where the restart fails, the activation is undone and says so. -/
theorem benchHost_activation_undone :
    (benchHost 3).faults 4 = none ∧
      ((benchHost 3).applyConfiguration commentTools benchActor (bytes "bench # edited")
        false).1.1.rolledBack = true ∧
      Activated commentTools (bytes "bench # edited") false (benchHost 3)
        ((benchHost 3).applyConfiguration commentTools benchActor (bytes "bench # edited") false).1
        ((benchHost 3).applyConfiguration commentTools benchActor (bytes "bench # edited")
          false).2 :=
  ⟨rfl,by decide +kernel,applyConfiguration_activated commentTools benchActor
    (bytes "bench # edited") false (benchHost 3) rfl⟩

end Operations
end AquaOS
