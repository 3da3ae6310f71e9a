import AquaOS.Convergence
import AquaOS.HostMachine
import AquaOS.Transition

/-! Installations on a host with faults. Every write of an installation leaves a file as the request
wants it, so an installation that stops anywhere can be repeated. The test for a hypervisor passes
where it fails. -/
namespace AquaOS
namespace Operations

open Domain Program Machine Transition

variable (t : Tools) (r : InstallRequest) {m : Machine}

def Machine.install (m : Machine) (r : InstallRequest) : Outcome Result × Machine :=
  exec Machine.answer (Operations.install t r) m

section Stages

structure Accepted : Prop where
  authorized : authorize t r.actor = none
  acknowledged : r.controlVMAcknowledged = true
  platform : t.goos = "linux" ∧ t.goarch = "amd64"
  versioned : r.version ≠ []
  verified : verifyArtifact t r.toArtifact = none
  configured : ∃ cfg, decodeCandidate t r.configuration = .ok cfg

def hypervisorPath : String := "/etc/pve"

theorem preflight_passes {ack : Bool} (hack : ack = true)
    (hplatform : t.goos = "linux" ∧ t.goarch = "amd64")
    (hhost : (m.lookFor hypervisorPath).1 = false) :
    exec Machine.answer (preflight t ack) m = (none,m.tick) := by
  have hhost' : (m.lookFor "/etc/pve").1 = false := hhost
  simp [preflight,hack,hplatform,hhost']

theorem preflight_stops {ack : Bool} (h : ¬ (ack = true ∧ (t.goos = "linux" ∧ t.goarch = "amd64") ∧
      (m.lookFor hypervisorPath).1 = false)) :
    ∃ err m', exec Machine.answer (preflight t ack) m = (some err,m') ∧ m'.files = m.files := by
  unfold preflight
  by_cases hack : ack = true
  · rw [if_neg (not_not.mpr hack)]
    by_cases hplatform : t.goos = "linux" ∧ t.goarch = "amd64"
    · rw [if_neg (by tauto),exec_pathExists]
      have hhost : (m.lookFor "/etc/pve").1 = true := by
        by_contra hfalse
        exact h ⟨hack,hplatform,Bool.eq_false_of_not_eq_true hfalse⟩
      dsimp only
      rw [if_pos hhost]
      exact ⟨_,_,rfl,rfl⟩
    · rw [if_pos (by tauto)]
      exact ⟨_,_,rfl,rfl⟩
  · rw [if_pos hack]
    exact ⟨_,_,rfl,rfl⟩

theorem install_of_accepted (h : Accepted t r) (hhost : (m.lookFor hypervisorPath).1 = false) :
    m.install t r = if r.dryRun then ((installResult r,none),m.tick)
      else exec Machine.answer (placeFiles r) m.tick := by
  obtain ⟨hactor,hack,hplatform,hversion,hartifact,cfg,hcfg⟩ := h
  rw [Machine.install,Operations.install]
  simp only [hactor,exec_bind,preflight_passes t hack hplatform hhost,if_neg hversion,hartifact,hcfg]
  cases r.dryRun <;> rfl

theorem install_refused (h : ¬ (Accepted t r ∧ (m.lookFor hypervisorPath).1 = false)) :
    (m.install t r).1.2 ≠ none ∧ (m.install t r).2.files = m.files := by
  rw [Machine.install,Operations.install]
  cases hactor : authorize t r.actor with
  | some err => exact ⟨nofun,rfl⟩
  | none =>
    dsimp only
    rw [exec_bind]
    by_cases hpass : r.controlVMAcknowledged = true ∧ (t.goos = "linux" ∧ t.goarch = "amd64") ∧
      (m.lookFor hypervisorPath).1 = false
    · obtain ⟨hack,hplatform,hhost⟩ := hpass
      rw [preflight_passes t hack hplatform hhost]
      dsimp only
      by_cases hversion : r.version = []
      · rw [if_pos hversion]
        exact ⟨nofun,rfl⟩
      rw [if_neg hversion]
      cases hartifact : verifyArtifact t r.toArtifact with
      | some err => exact ⟨nofun,rfl⟩
      | none =>
      cases hcfg : decodeCandidate t r.configuration with
      | error err => exact ⟨nofun,rfl⟩
      | ok cfg => exact absurd ⟨⟨hactor,hack,hplatform,hversion,hartifact,cfg,hcfg⟩,hhost⟩ h
    · obtain ⟨err,m',hexec,hfiles⟩ := preflight_stops t hpass
      rw [hexec]
      exact ⟨nofun,hfiles⟩

end Stages

section Wanted

def wanted : Wish String (Option Bytes) where
  want path content :=
    if path = sysusersPath then some (bytes sysusersText)
    else if path = tmpfilesPath then some (bytes tmpfilesText)
    else if path = configPath then some (content.getD r.configuration)
    else if path = binaryPath then some r.binary
    else if path = unitPath then some (bytes systemdUnit)
    else if path = versionPath then some (r.version++bytes "\n")
    else content
  want_want path content := by
    split_ifs <;> rfl

def installedPaths : List String :=
  [versionPath,unitPath,binaryPath,configPath,tmpfilesPath,sysusersPath]

section Goals

variable (files : String → Option Bytes)

theorem goal_sysusers : (wanted r).goal files sysusersPath = some (bytes sysusersText) := rfl

theorem goal_tmpfiles : (wanted r).goal files tmpfilesPath = some (bytes tmpfilesText) := rfl

theorem goal_config :
    (wanted r).goal files configPath = some ((files configPath).getD r.configuration) := rfl

theorem goal_binary : (wanted r).goal files binaryPath = some r.binary := rfl

theorem goal_unit : (wanted r).goal files unitPath = some (bytes systemdUnit) := rfl

theorem goal_version : (wanted r).goal files versionPath = some (r.version++bytes "\n") := rfl

end Goals

variable {path : String} {content : Bytes}

theorem goal_other (h : path ∉ installedPaths) (files : String → Option Bytes) :
    (wanted r).goal files path = files path := by
  simp only [installedPaths,List.mem_cons,List.not_mem_nil,or_false,not_or] at h
  obtain ⟨h1,h2,h3,h4,h5,h6⟩ := h
  rw [Wish.goal,wanted]
  simp only [h1,h2,h3,h4,h5,h6,if_false]

/-- A host on the way from the given files, with some paths as wanted. -/
structure Reached (files : String → Option Bytes) (paths : List String) (m : Machine) : Prop where
  between : (wanted r).Between files m.files
  done : ∀ path ∈ paths, m.files path = (wanted r).goal files path

variable {r} {files : String → Option Bytes} {paths : List String}

theorem Reached.tick (h : Reached r files paths m) : Reached r files paths m.tick :=
  ⟨h.between,h.done⟩

theorem Reached.set (h : Reached r files paths m)
    (hpath : (wanted r).goal files path = some content) :
    Reached r files (path::paths) (m.set path (some content)) := by
  rw [← hpath]
  refine ⟨h.between.update path,fun p hp => ?_⟩
  rw [files_set]
  by_cases heq : p = path
  · rw [heq,Function.update_self]
  · rw [Function.update_of_ne heq]
    exact h.done p ((List.mem_cons.mp hp).resolve_left heq)

theorem Reached.keep (h : Reached r files paths m)
    (hpath : m.files path = (wanted r).goal files path) : Reached r files (path::paths) m :=
  ⟨h.between,List.forall_mem_cons.mpr ⟨hpath,h.done⟩⟩

theorem Reached.config_of_present (h : Reached r files paths m)
    (hpresent : m.files configPath = some content) :
    m.files configPath = (wanted r).goal files configPath := by
  rcases h.between configPath with hsame | hdone
  · rw [goal_config,← hsame,hpresent,Option.getD_some]
  · exact hdone

theorem Reached.config_of_absent (h : Reached r files paths m) (habsent : m.files configPath = none) :
    (wanted r).goal files configPath = some r.configuration := by
  rcases h.between configPath with hsame | hdone
  · rw [goal_config,← hsame,habsent,Option.getD_none]
  · rw [habsent,goal_config] at hdone
    cases hdone

theorem Reached.files_eq (h : Reached r files installedPaths m) :
    m.files = (wanted r).goal files := by
  funext path
  by_cases hpath : path ∈ installedPaths
  · exact h.done path hpath
  · rw [goal_other r hpath]
    exact h.between.eq_of_want (goal_other r hpath files)

/-- What is left of an installation that has passed its checks. -/
structure Placed (r : InstallRequest) (files : String → Option Bytes) (outcome : Outcome Result)
    (m : Machine) : Prop where
  between : (wanted r).Between files m.files
  done : outcome.2 = none → m.files = (wanted r).goal files

theorem placed_refused {err : OperationError} (h : Reached r files paths m) :
    Placed r files (refused err) m :=
  ⟨h.between,nofun⟩

theorem activateUnit_placed {changed : Bool}
    (h : Reached r files [binaryPath,configPath,tmpfilesPath,sysusersPath] m) :
    Ensures Machine.answer (activateUnit r changed) (Placed r files) m := by
  unfold activateUnit
  refine ensures_writeFileAtomic (fun f _ => placed_refused h.tick) fun _ => ?_
  have hunit := h.set (goal_unit r files)
  refine ensures_writeFileAtomic (fun f _ => placed_refused hunit.tick) fun _ => ?_
  have hversion := hunit.set (goal_version r files)
  refine ensures_runCommand (fun f _ => placed_refused hversion.tick) fun _ => ?_
  refine ensures_runCommand (fun f _ => placed_refused hversion.tick.tick) fun _ => ?_
  exact ensures_pure ⟨hversion.between,fun _ => hversion.files_eq⟩

theorem placeBinary_placed {existing : Bool}
    (h : Reached r files [configPath,tmpfilesPath,sysusersPath] m) :
    Ensures Machine.answer (placeBinary r existing) (Placed r files) m := by
  unfold placeBinary
  refine ensures_readFile (fun fragment err _ => ?_) fun content hcontent => ?_
  · refine ensures_writeFileAtomic (fun f _ => placed_refused h.tick.tick) fun _ => ?_
    exact activateUnit_placed (h.tick.set (goal_binary r files))
  · by_cases hsame : content = r.binary
    · dsimp only
      rw [if_neg (by simp [hsame])]
      refine activateUnit_placed (h.tick.keep ?_)
      rw [files_tick,hcontent,goal_binary,hsame]
    · dsimp only
      rw [if_pos (by simp [hsame])]
      refine ensures_writeFileAtomic (fun f _ => placed_refused h.tick.tick) fun _ => ?_
      exact activateUnit_placed (h.tick.set (goal_binary r files))

theorem placeFiles_placed (h : Reached r files [] m) :
    Ensures Machine.answer (placeFiles r) (Placed r files) m := by
  unfold placeFiles
  refine ensures_mkdirAll (fun f _ => placed_refused h.tick) fun _ => ?_
  refine ensures_mkdirAll (fun f _ => placed_refused h.tick.tick) fun _ => ?_
  refine ensures_writeFileAtomic (fun f _ => placed_refused h.tick.tick.tick) fun _ => ?_
  have husers := h.tick.tick.set (goal_sysusers r files)
  refine ensures_writeFileAtomic (fun f _ => placed_refused husers.tick) fun _ => ?_
  have htmp := husers.set (goal_tmpfiles r files)
  refine ensures_runCommand (fun f _ => placed_refused htmp.tick) fun _ => ?_
  refine ensures_runCommand (fun f _ => placed_refused htmp.tick.tick) fun _ => ?_
  refine ensures_pathExists (fun f _ => placed_refused htmp.tick.tick.tick) fun _ => ?_
  have hpaths := htmp.tick.tick.tick
  generalize ((((m.tick.tick.set sysusersPath (some (bytes sysusersText))).set tmpfilesPath
    (some (bytes tmpfilesText))).tick).tick) = m' at hpaths ⊢
  cases hconfig : m'.files configPath with
  | some content => exact placeBinary_placed (hpaths.keep (hpaths.config_of_present hconfig))
  | none =>
    refine ensures_writeFileAtomic (fun f _ => placed_refused hpaths.tick) fun _ => ?_
    exact placeBinary_placed (hpaths.set (hpaths.config_of_absent hconfig))

structure Attempted (r : InstallRequest) (m : Machine) (outcome : Outcome Result) (m' : Machine) :
    Prop where
  between : (wanted r).Between m.files m'.files
  accepted : outcome.2 = none → Accepted t r
  dry : r.dryRun = true → m'.files = m.files
  done : outcome.2 = none → r.dryRun = false → m'.files = (wanted r).goal m.files

theorem install_attempted (r : InstallRequest) (m : Machine) :
    Attempted t r m (m.install t r).1 (m.install t r).2 := by
  by_cases h : Accepted t r ∧ (m.lookFor hypervisorPath).1 = false
  · rw [install_of_accepted t r h.1 h.2]
    cases hdry : r.dryRun with
    | true => exact ⟨Wish.Between.refl _ _,fun _ => h.1,fun _ => rfl,fun _ => by simp [hdry]⟩
    | false =>
      have hplaced : Placed r m.files (exec Machine.answer (placeFiles r) m.tick).1
          (exec Machine.answer (placeFiles r) m.tick).2 :=
        placeFiles_placed ⟨Wish.Between.refl _ _,nofun⟩
      exact ⟨hplaced.between,fun _ => h.1,by simp [hdry],fun hnone _ => hplaced.done hnone⟩
  · obtain ⟨herr,hfiles⟩ := install_refused t r h
    exact ⟨hfiles ▸ Wish.Between.refl _ _,fun hnone => absurd hnone herr,fun _ => hfiles,
      fun hnone => absurd hnone herr⟩

end Wanted

section Calm

/-- No call fails from now on. -/
def Machine.Calm (m : Machine) : Prop := ∀ n, m.made ≤ n → m.faults n = none

theorem Machine.Calm.tick (h : m.Calm) : m.tick.Calm := fun n hn => h n (Nat.le_of_succ_le hn)

theorem Machine.Calm.set (h : m.Calm) (path : String) (content : Option Bytes) :
    (m.set path content).Calm :=
  fun n hn => h n (Nat.le_of_succ_le hn)

theorem Machine.Calm.no_fault (h : m.Calm) {P : Fault → Prop} : ∀ f, m.fault = some f → P f := by
  intro f hf
  rw [fault,h _ le_rfl] at hf
  cases hf

/-- An installation without an error, and whether it says that something is new. -/
def Completed (changed : Bool) (outcome : Outcome Result) (_ : Machine) : Prop :=
  outcome.2 = none ∧ outcome.1.changed = changed

theorem activateUnit_completed (changed : Bool) (h : m.Calm) :
    Ensures Machine.answer (activateUnit r changed) (Completed changed) m := by
  unfold activateUnit
  refine ensures_writeFileAtomic h.no_fault fun _ => ?_
  have hunit := h.set unitPath (some (bytes systemdUnit))
  refine ensures_writeFileAtomic hunit.no_fault fun _ => ?_
  have hversion := hunit.set versionPath (some (r.version++bytes "\n"))
  refine ensures_runCommand hversion.no_fault fun _ => ?_
  exact ensures_runCommand hversion.tick.no_fault fun _ => ⟨rfl,rfl⟩

theorem placeBinary_completed (existing : Bool) (h : m.Calm) :
    Ensures Machine.answer (placeBinary r existing)
      (Completed (¬ existing ∨ m.files binaryPath ≠ some r.binary)) m := by
  unfold placeBinary
  refine ensures_readFile (fun fragment err habsent => ?_) fun content hcontent => ?_
  · rw [habsent (h _ le_rfl)]
    refine ensures_writeFileAtomic h.tick.no_fault fun _ => ?_
    simpa using activateUnit_completed r true (h.tick.set binaryPath (some r.binary))
  · rw [hcontent]
    by_cases hsame : content = r.binary
    · dsimp only
      rw [if_neg (by simp [hsame])]
      simpa [hsame] using activateUnit_completed r (!existing) h.tick
    · dsimp only
      rw [if_pos (by simp [hsame])]
      refine ensures_writeFileAtomic h.tick.no_fault fun _ => ?_
      simpa [hsame] using activateUnit_completed r true (h.tick.set binaryPath (some r.binary))

theorem placeFiles_completed (h : m.Calm) : Ensures Machine.answer (placeFiles r)
      (Completed (m.files configPath = none ∨ m.files binaryPath ≠ some r.binary)) m := by
  unfold placeFiles
  refine ensures_mkdirAll h.no_fault fun _ => ?_
  refine ensures_mkdirAll h.tick.no_fault fun _ => ?_
  refine ensures_writeFileAtomic h.tick.tick.no_fault fun _ => ?_
  have husers := h.tick.tick.set sysusersPath (some (bytes sysusersText))
  refine ensures_writeFileAtomic husers.no_fault fun _ => ?_
  have htmp := husers.set tmpfilesPath (some (bytes tmpfilesText))
  refine ensures_runCommand htmp.no_fault fun _ => ?_
  refine ensures_runCommand htmp.tick.no_fault fun _ => ?_
  refine ensures_pathExists htmp.tick.tick.no_fault fun _ => ?_
  have hfiles : ∀ path ∈ [configPath,binaryPath],
      ((m.tick.tick.set sysusersPath (some (bytes sysusersText))).set tmpfilesPath
        (some (bytes tmpfilesText))).tick.tick.files path = m.files path := by
    simp (disch := decide) [Function.update_of_ne]
  have hcalm := htmp.tick.tick
  generalize ((m.tick.tick.set sysusersPath (some (bytes sysusersText))).set tmpfilesPath
    (some (bytes tmpfilesText))).tick.tick = m' at hfiles hcalm ⊢
  rw [← hfiles configPath (by simp),← hfiles binaryPath (by simp)]
  cases hconfig : m'.files configPath with
  | some content => simpa using placeBinary_completed r true hcalm.tick
  | none =>
    refine ensures_writeFileAtomic hcalm.tick.no_fault fun _ => ?_
    simpa using placeBinary_completed r false
      (hcalm.tick.set configPath (some r.configuration))

/-- Without faults after the test for a hypervisor an accepted installation completes. -/
theorem install_completed (h : Accepted t r) (hhost : (m.lookFor hypervisorPath).1 = false)
    (hcalm : m.tick.Calm) :
    (m.install t r).1.2 = none ∧ ((m.install t r).1.1.changed = true ↔ r.dryRun = false ∧
      (m.files configPath = none ∨ m.files binaryPath ≠ some r.binary)) := by
  rw [install_of_accepted t r h hhost]
  cases hdry : r.dryRun with
  | true => simp [installResult]
  | false =>
    obtain ⟨hnone,hchanged⟩ : Completed _ (exec Machine.answer (placeFiles r) m.tick).1 _ :=
      placeFiles_completed r hcalm
    exact ⟨hnone,by rw [if_neg (by simp),hchanged,decide_eq_true_iff]; simp⟩

end Calm

section Retry

def calmMachine (files : String → Option Bytes) : Machine := { files := files }

def attempt (files : String → Option Bytes) (faults : ℕ → Option Fault) : String → Option Bytes :=
  (Machine.install t { files := files, faults := faults } r).2.files

def attemptError (files : String → Option Bytes) (faults : ℕ → Option Fault) :
    Option OperationError :=
  (Machine.install t { files := files, faults := faults } r).1.2

/-- An installation never changes a configuration; one that returns no error can be repeated without
effect; and one that is repeated until it returns none leaves the managed files that it would have
left at once. -/
structure InstallSafe (files : String → Option Bytes) : Prop where
  preserves : ∀ faults, files configPath ≠ none →
    attempt t r files faults configPath = files configPath
  repeatable : ∀ faults, attemptError t r files faults = none →
    ((calmMachine (attempt t r files faults)).install t r).1.2 = none ∧
    ((calmMachine (attempt t r files faults)).install t r).1.1.changed = false ∧
    ∀ path ∈ managedPaths, ((calmMachine (attempt t r files faults)).install t r).2.files path =
      attempt t r files faults path
  converges : ∀ interrupted faults,
    Guarded (attempt t r) (fun files faults => attemptError t r files faults ≠ none) files
      interrupted →
    attemptError t r (run (attempt t r) files interrupted) faults = none →
    ∀ path ∈ managedPaths, attempt t r (run (attempt t r) files interrupted) faults path =
      ((calmMachine files).install t r).2.files path

variable {r} {files : String → Option Bytes}

theorem attempt_attempted (files : String → Option Bytes) (faults : ℕ → Option Fault) :
    Attempted t r { files := files, faults := faults }
      (Machine.install t { files := files, faults := faults } r).1
      (Machine.install t { files := files, faults := faults } r).2 :=
  install_attempted t r _

/-- Attempts leave a host on the way, and dry runs leave it as it is. -/
theorem attempts_between (files : String → Option Bytes) (interrupted : List (ℕ → Option Fault)) :
    (wanted r).Between files (run (attempt t r) files interrupted) ∧
      (r.dryRun = true → run (attempt t r) files interrupted = files) := by
  refine invariant_always (I := fun files' : String → Option Bytes =>
    (wanted r).Between files files' ∧ (r.dryRun = true → files' = files)) ?_
    ⟨Wish.Between.refl _ _,fun _ => rfl⟩ interrupted
  rintro files' faults ⟨hbetween,hdry⟩
  have hattempt := attempt_attempted t (r := r) files' faults
  exact ⟨hbetween.trans hattempt.between,fun h => (hattempt.dry h).trans (hdry h)⟩

theorem calm_completed (h : Accepted t r) (hhost : files hypervisorPath = none) :
    ((calmMachine files).install t r).1.2 = none ∧
      (((calmMachine files).install t r).1.1.changed = true ↔ r.dryRun = false ∧
        (files configPath = none ∨ files binaryPath ≠ some r.binary)) :=
  install_completed t r h (by simp [lookFor,calmMachine,fault,hhost]) fun _ _ => rfl

theorem goal_hypervisor (files : String → Option Bytes) :
    (wanted r).goal files hypervisorPath = files hypervisorPath :=
  goal_other r (by decide) files

def untested (n : ℕ) : Option Fault :=
  if n = 0 then some ⟨.external "stat /etc/pve: transport endpoint is not connected",[]⟩ else none

/-- Where the test for a hypervisor fails, an accepted installation completes on any host. -/
theorem untested_completes (h : Accepted t r) (files : String → Option Bytes) :
    ∃ faults, attemptError t r files faults = none ∧
      attempt t r files faults hypervisorPath = files hypervisorPath := by
  have hcalm : (Machine.tick { files := files, faults := untested }).Calm :=
    fun n hn => if_neg (Nat.pos_iff_ne_zero.mp hn)
  refine ⟨untested,(install_completed t r h rfl hcalm).1,?_⟩
  exact (attempt_attempted t files untested).between.eq_of_want (goal_hypervisor files)

theorem hypervisor_refused (hhost : files hypervisorPath ≠ none) :
    ((calmMachine files).install t r).1.2 ≠ none := by
  obtain ⟨content,hcontent⟩ := Option.ne_none_iff_exists'.mp hhost
  refine (install_refused t r fun h => absurd h.2 ?_).1
  simp [lookFor,calmMachine,fault,hcontent]

/-- An installation that returns no error was accepted and leaves what it wants. -/
theorem attempt_ok (faults : ℕ → Option Fault) (h : attemptError t r files faults = none) :
    Accepted t r ∧ attempt t r files faults =
      if r.dryRun then files else (wanted r).goal files := by
  have hattempt := attempt_attempted t (r := r) files faults
  refine ⟨hattempt.accepted h,?_⟩
  cases hdry : r.dryRun with
  | true => exact hattempt.dry hdry
  | false => exact hattempt.done h hdry

theorem calm_ok (h : Accepted t r) (hhost : files hypervisorPath = none) :
    ((calmMachine files).install t r).2.files =
      if r.dryRun then files else (wanted r).goal files :=
  (attempt_ok t (fun _ => none) (calm_completed t h hhost).1).2

theorem calm_again (h : Accepted t r) (hhost : files hypervisorPath = none)
    (hdone : r.dryRun = false → (wanted r).goal files = files) :
    ((calmMachine files).install t r).1.2 = none ∧
      ((calmMachine files).install t r).1.1.changed = false ∧
      ((calmMachine files).install t r).2.files = files := by
  obtain ⟨hnone,hchanged⟩ := calm_completed t h hhost
  refine ⟨hnone,Bool.eq_false_of_not_eq_true fun hnew => ?_,?_⟩
  · obtain ⟨hdry,habsent | hstale⟩ := hchanged.mp hnew
    · rw [← hdone hdry,goal_config] at habsent
      cases habsent
    · rw [← hdone hdry,goal_binary] at hstale
      exact hstale rfl
  · rw [calm_ok t h hhost]
    cases hdry : r.dryRun with
    | true => rfl
    | false => exact hdone hdry

theorem installSafe_iff (r : InstallRequest) (files : String → Option Bytes) :
    InstallSafe t r files ↔ files hypervisorPath = none ∨ ¬ Accepted t r := by
  constructor
  · intro hsafe
    by_contra h
    push Not at h
    obtain ⟨faults,hnone,hsame⟩ := untested_completes t h.2 files
    exact hypervisor_refused t (hsame ▸ h.1) (hsafe.repeatable faults hnone).1
  · intro h
    refine ⟨fun faults hconfig => ?_,fun faults hnone => ?_,fun interrupted faults _ hnone => ?_⟩
    · obtain ⟨content,hcontent⟩ := Option.ne_none_iff_exists'.mp hconfig
      refine (attempt_attempted t files faults).between.eq_of_want ?_
      change (wanted r).goal files configPath = files configPath
      rw [goal_config,hcontent,Option.getD_some]
    · obtain ⟨haccepted,hfiles⟩ := attempt_ok t faults hnone
      have hhost : files hypervisorPath = none := h.resolve_right (not_not.mpr haccepted)
      have hhost' : attempt t r files faults hypervisorPath = none := by
        rw [← hhost]
        exact (attempt_attempted t files faults).between.eq_of_want (goal_hypervisor files)
      obtain ⟨hagain,hchanged,hsame⟩ := calm_again t haccepted hhost' fun hdry => by
        rw [hfiles,hdry]
        exact Wish.goal_goal files
      exact ⟨hagain,hchanged,fun path _ => by rw [hsame]⟩
    · obtain ⟨haccepted,hfiles⟩ := attempt_ok t faults hnone
      have hhost : files hypervisorPath = none := h.resolve_right (not_not.mpr haccepted)
      obtain ⟨hbetween,hdry⟩ := attempts_between t (r := r) files interrupted
      intro path _
      rw [hfiles,calm_ok t haccepted hhost,hbetween.goal_eq]
      split_ifs with hdry'
      · rw [hdry hdry']
      · rfl

def benchInstall : InstallRequest where
  binary := bytes "v1"
  sha256 := hexText (bytes "v1")
  signature := benchSignature (List.replicate 32 7) (hexText (bytes "v1"))
  publicKey := List.replicate 32 7
  actor := benchActor
  version := bytes "v1"
  configuration := bytes "bench"
  controlVMAcknowledged := true
  dryRun := false

def hypervisorFiles (path : String) : Option Bytes :=
  if path = hypervisorPath then some [] else none

/-- Where the test for the hypervisor fails, everything is installed; repeated without a fault, the
installation is refused. -/
theorem hypervisor_install_not_repeatable :
    attemptError benchTools benchInstall hypervisorFiles untested = none ∧
      attempt benchTools benchInstall hypervisorFiles untested binaryPath = some (bytes "v1") ∧
      ((calmMachine (attempt benchTools benchInstall hypervisorFiles untested)).install benchTools
        benchInstall).1.2 = some (.message "refusing to install on a hypervisor host") ∧
      ¬ InstallSafe benchTools benchInstall hypervisorFiles := by
  have hnone : attemptError benchTools benchInstall hypervisorFiles untested = none := by
    decide +kernel
  have hagain : ((calmMachine (attempt benchTools benchInstall hypervisorFiles untested)).install
      benchTools benchInstall).1.2 = some (.message "refusing to install on a hypervisor host") := by
    decide +kernel
  refine ⟨hnone,by decide +kernel,hagain,fun hsafe => ?_⟩
  rw [(hsafe.repeatable untested hnone).1] at hagain
  cases hagain

end Retry

end Operations
end AquaOS
