import AquaOS.HostMachine

/-! What upgrades and rollbacks leave on a host with faults: the active binary and version, and the
slot that holds the release before. -/
namespace AquaOS
namespace Operations

open Domain Program

variable (t : Tools) {r : UpgradeRequest} {m : Machine}

section Upgrade

def Machine.upgrade (m : Machine) (r : UpgradeRequest) : Outcome Result × Machine :=
  exec Machine.answer (Operations.upgrade t r) m

/-- The upgrade stages the active binary. -/
structure Stages (r : UpgradeRequest) (m : Machine) : Prop where
  authorized : authorize t r.actor = none
  verified : verifyArtifact t r.toArtifact = none
  requested : r.dryRun = false
  installed : (m.files binaryPath).isSome
  opened : m.faults m.made = none
  staged : m.faults (m.made+2) = none

structure Activates (r : UpgradeRequest) (m : Machine) : Prop extends Stages t r m where
  stagedVersion : m.faults (m.made+3) = none
  activated : m.faults (m.made+4) = none

theorem Stages.read_binary (h : Stages t r m) :
    ∃ previous, m.files binaryPath = some previous ∧ m.read binaryPath = (previous,none) := by
  obtain ⟨previous,hprevious⟩ := Option.isSome_iff_exists.mp h.installed
  exact ⟨previous,hprevious,Machine.read_of_file h.opened hprevious⟩

theorem upgrade_of_not_stages (h : ¬ Stages t r m) :
    (m.upgrade t r).2.files = m.files ∧ (r.dryRun = false → (m.upgrade t r).1.2 ≠ none) := by
  unfold Machine.upgrade Operations.upgrade
  cases hactor : authorize t r.actor with
  | some err => exact ⟨rfl,nofun⟩
  | none =>
    cases hartifact : verifyArtifact t r.toArtifact with
    | some err => exact ⟨rfl,nofun⟩
    | none =>
      cases hdry : r.dryRun with
      | true => exact ⟨rfl,nofun⟩
      | false =>
        by_cases hread : (m.read binaryPath).2 = none
        · obtain ⟨hopened,hfile⟩ := Machine.files_of_read hread
          cases hstaged : m.faults (m.made+2) with
          | none =>
            exact absurd ⟨hactor,hartifact,hdry,by rw [hfile]; rfl,hopened,hstaged⟩ h
          | some f => simp [hread,Machine.act,hstaged,refused]
        · simp [hread,refused]

theorem upgrade_of_not_activates (hdry : r.dryRun = false) (h : ¬ Activates t r m) :
    (m.upgrade t r).1.2 ≠ none ∧ (m.upgrade t r).2.files binaryPath = m.files binaryPath ∧
      (m.upgrade t r).2.files versionPath = m.files versionPath := by
  by_cases hstages : Stages t r m
  · obtain ⟨previous,hprevious,hread⟩ := hstages.read_binary
    obtain ⟨hactor,hartifact,-,-,-,hstaged⟩ := id hstages
    cases hversion : m.faults (m.made+3) with
    | some f =>
      simp (disch := decide) [Machine.upgrade,Operations.upgrade,hactor,hartifact,hdry,hread,
        Machine.act,hstaged,hversion,refused,Function.update_of_ne]
    | none =>
      cases hactive : m.faults (m.made+4) with
      | some f =>
        simp (disch := decide) [Machine.upgrade,Operations.upgrade,hactor,hartifact,hdry,hread,
          Machine.act,hstaged,hversion,hactive,refused,Function.update_of_ne]
      | none => exact absurd ⟨hstages,hversion,hactive⟩ h
  · obtain ⟨hfiles,herr⟩ := upgrade_of_not_stages t hstages
    exact ⟨herr hdry,by rw [hfiles],by rw [hfiles]⟩

theorem upgrade_of_restart (h : Activates t r m) (hrestart : m.faults (m.made+6) = none) :
    (m.upgrade t r).1.2 = none ∧ (m.upgrade t r).2.files binaryPath = some r.binary ∧
      (m.upgrade t r).2.files versionPath =
        (if m.faults (m.made+5) = none then some (r.version++bytes "\n") else m.files versionPath) ∧
      (m.upgrade t r).2.files rollbackPath = m.files binaryPath ∧
      (m.upgrade t r).2.files rollbackVersionPath = some (m.tick.read versionPath).1 := by
  obtain ⟨previous,hprevious,hread⟩ := h.read_binary
  obtain ⟨⟨hactor,hartifact,hdry,-,-,hstaged⟩,hversion,hactive⟩ := h
  cases hrecorded : m.faults (m.made+5) <;>
    simp (disch := decide) [Machine.upgrade,Operations.upgrade,hactor,hartifact,hdry,hread,
      Machine.act,hstaged,hversion,hactive,hrecorded,hrestart,hprevious,Function.update_of_ne]

theorem upgrade_error_of_restart_fails (h : Activates t r m)
    (hrestart : m.faults (m.made+6) ≠ none) : (m.upgrade t r).1.2 ≠ none := by
  obtain ⟨previous,hprevious,hread⟩ := h.read_binary
  obtain ⟨⟨hactor,hartifact,hdry,-,-,hstaged⟩,hversion,hactive⟩ := h
  obtain ⟨f,hrestart⟩ := Option.ne_none_iff_exists'.mp hrestart
  cases hrecorded : m.faults (m.made+5) <;>
    simp [Machine.upgrade,Operations.upgrade,hactor,hartifact,hdry,hread,Machine.act,hstaged,
      hversion,hactive,hrecorded,hrestart]

/-- The host after an upgrade whose restart fails, where the writes that are to undo it succeed. -/
theorem upgrade_of_restart_fails (h : Activates t r m) (hrestart : m.faults (m.made+6) ≠ none)
    (hbinary : m.faults (m.made+7) = none) (hrecord : m.faults (m.made+8) = none) :
    (m.upgrade t r).2.files binaryPath = m.files binaryPath ∧
      (m.upgrade t r).2.files versionPath = some (m.tick.read versionPath).1 := by
  obtain ⟨previous,hprevious,hread⟩ := h.read_binary
  obtain ⟨⟨hactor,hartifact,hdry,-,-,hstaged⟩,hversion,hactive⟩ := h
  obtain ⟨f,hrestart⟩ := Option.ne_none_iff_exists'.mp hrestart
  cases hrecorded : m.faults (m.made+5) <;> cases hagain : m.faults (m.made+9) <;>
    simp (disch := decide) [Machine.upgrade,Operations.upgrade,hactor,hartifact,hdry,hread,
      Machine.act,hstaged,hversion,hactive,hrecorded,hrestart,hbinary,hrecord,hagain,hprevious,
      Function.update_of_ne]

def UpgradeAtomic (r : UpgradeRequest) (m : Machine) : Prop :=
  ((m.upgrade t r).1.2 = none → (m.upgrade t r).2.files binaryPath = some r.binary ∧
    (m.upgrade t r).2.files versionPath = some (r.version++bytes "\n")) ∧
  ((m.upgrade t r).1.2 ≠ none → (m.upgrade t r).2.files binaryPath = m.files binaryPath ∧
    (m.upgrade t r).2.files versionPath = m.files versionPath)

/-- Once the new binary is active: where the restart succeeds, the version is written or was there
before; where it fails, there was a version, and it was read as it is. -/
def VersionFollows (r : UpgradeRequest) (m : Machine) : Prop :=
  Activates t r m →
    (m.faults (m.made+6) = none →
      m.faults (m.made+5) = none ∨ m.files versionPath = some (r.version++bytes "\n")) ∧
    (m.faults (m.made+6) ≠ none → m.files versionPath = some (m.tick.read versionPath).1)

theorem upgradeAtomic_iff (hdry : r.dryRun = false)
    (hundo : m.faults (m.made+6) ≠ none →
      m.faults (m.made+7) = none ∧ m.faults (m.made+8) = none) :
    UpgradeAtomic t r m ↔ VersionFollows t r m := by
  unfold UpgradeAtomic VersionFollows
  by_cases hactive : Activates t r m
  · by_cases hrestart : m.faults (m.made+6) = none
    · obtain ⟨herr,hbinary,hversion,-⟩ := upgrade_of_restart t hactive hrestart
      rw [herr,hbinary,hversion]
      by_cases hrecorded : m.faults (m.made+5) = none <;>
        simp [hactive,hrestart,hrecorded]
    · have herr := upgrade_error_of_restart_fails t hactive hrestart
      obtain ⟨hbinary,hversion⟩ :=
        upgrade_of_restart_fails t hactive hrestart (hundo hrestart).1 (hundo hrestart).2
      simp [hactive,hrestart,herr,hbinary,hversion,eq_comm]
  · obtain ⟨herr,hfiles⟩ := upgrade_of_not_activates t hdry hactive
    simp [hactive,herr,hfiles]

def benchRelease (text : String) : UpgradeRequest where
  binary := bytes text
  sha256 := hexText (bytes text)
  signature := benchSignature (List.replicate 32 7) (hexText (bytes text))
  publicKey := List.replicate 32 7
  actor := benchActor
  version := bytes text
  dryRun := false

def releasedMachine (version : Option Bytes) (faults : ℕ → Option Fault) : Machine where
  files path := if path = binaryPath then some (bytes "v1") else
    if path = versionPath then version else none
  faults := faults

def exitStatus : Fault := ⟨.external "exit status 1",[]⟩

def faultyMachine (version : Option Bytes) (call : ℕ) : Machine :=
  releasedMachine version fun n => if n = call then some exitStatus else none

theorem upgradeAtomic_iff_v2 :
    (benchRelease "v2").dryRun = false ∧ (faultyMachine (some (bytes "v1\n")) 6).faults 7 = none ∧
      (UpgradeAtomic benchTools (benchRelease "v2") (faultyMachine (some (bytes "v1\n")) 6) ↔
        VersionFollows benchTools (benchRelease "v2") (faultyMachine (some (bytes "v1\n")) 6)) :=
  ⟨rfl,rfl,upgradeAtomic_iff benchTools rfl fun _ => ⟨rfl,rfl⟩⟩

/-- Without a version file a failed upgrade leaves an empty one, and an upgrade whose version is not
written returns no error and leaves the old version. -/
theorem upgrade_v2_mixed :
    ((faultyMachine none 6).files versionPath = none ∧
      ((faultyMachine none 6).upgrade benchTools (benchRelease "v2")).1.2 ≠ none ∧
      ((faultyMachine none 6).upgrade benchTools (benchRelease "v2")).2.files versionPath =
        some []) ∧
    ((faultyMachine (some (bytes "v1\n")) 5).upgrade benchTools (benchRelease "v2")).1.2 = none ∧
    ((faultyMachine (some (bytes "v1\n")) 5).upgrade benchTools (benchRelease "v2")).2.files
      versionPath = some (bytes "v1\n") := by
  decide

end Upgrade

section Rollback

variable {actor : Actor} {dryRun : Bool}

def Machine.rollback (m : Machine) (actor : Actor) (dryRun : Bool) : Outcome Result × Machine :=
  exec Machine.answer (Operations.rollback t actor dryRun) m

theorem rollback_ok (hdry : dryRun = false) (h : (m.rollback t actor dryRun).1.2 = none)
    (hrecord : m.faults (m.made+3) = none) :
    (m.rollback t actor dryRun).2.files binaryPath = m.files rollbackPath ∧
      (m.rollback t actor dryRun).2.files versionPath =
        some (m.tick.read rollbackVersionPath).1 := by
  unfold Machine.rollback Operations.rollback at h ⊢
  cases hactor : authorize t actor with
  | some err => simp [hactor,refused] at h
  | none =>
    by_cases hread : (m.read rollbackPath).2 = none
    · have hslot := (Machine.files_of_read hread).2
      cases hactive : m.faults (m.made+2) with
      | some f => simp [hactor,hdry,hread,Machine.act,hactive,refused] at h
      | none =>
        cases hrestart : m.faults (m.made+4) with
        | some f => simp [hactor,hdry,hread,Machine.act,hactive,hrecord,hrestart,refused] at h
        | none =>
          simp (disch := decide) [hdry,hread,Machine.act,hactive,hrecord,hrestart,hslot,
            Function.update_of_ne]
    · simp [hactor,hdry,hread,refused] at h

def Machine.upgrades (m : Machine) (rs : List UpgradeRequest) : Machine :=
  rs.foldl (fun m r => (m.upgrade t r).2) m

/-- Every upgrade of the list meets the predicate on the host it finds. -/
def Along (P : UpgradeRequest → Machine → Prop) : Machine → List UpgradeRequest → Prop
  | _, [] => True
  | m, r::rs => P r m ∧ Along P (m.upgrade t r).2 rs

theorem upgrades_of_not_stages {rs : List UpgradeRequest}
    (h : Along t (fun r m => ¬ Stages t r m) m rs) : (m.upgrades t rs).files = m.files := by
  induction rs generalizing m with
  | nil => rfl
  | cons r rs ih => exact (ih h.2).trans (upgrade_of_not_stages t h.1).1

theorem upgrade_staged (hdry : r.dryRun = false) (h : (m.upgrade t r).1.2 = none) :
    (m.upgrade t r).2.files rollbackPath = m.files binaryPath ∧
      (m.upgrade t r).2.files rollbackVersionPath = some (m.tick.read versionPath).1 := by
  by_cases hactive : Activates t r m
  · by_cases hrestart : m.faults (m.made+6) = none
    · exact (upgrade_of_restart t hactive hrestart).2.2.2
    · exact absurd h (upgrade_error_of_restart_fails t hactive hrestart)
  · exact absurd h (upgrade_of_not_activates t hdry hactive).1

/-- Upgrades of which `last` is the last to return no error, and then a rollback that returns none
and whose writes succeed. -/
structure ReleaseHistory where
  start : Machine
  before : List UpgradeRequest
  last : UpgradeRequest
  after : List UpgradeRequest
  actor : Actor
  dryRun : Bool
  succeeds : ((start.upgrades t before).upgrade t last).1.2 = none
  fails : Along t (fun r m => (m.upgrade t r).1.2 ≠ none)
    ((start.upgrades t before).upgrade t last).2 after
  rollbackSucceeds : (((start.upgrades t before).upgrade t last).2.upgrades t after
    |>.rollback t actor dryRun).1.2 = none
  rollbackWrites : ∀ k ∈ [2,3],
    (((start.upgrades t before).upgrade t last).2.upgrades t after).faults
      ((((start.upgrades t before).upgrade t last).2.upgrades t after).made+k) = none

namespace ReleaseHistory

variable {t} (h : ReleaseHistory t)

def earlier : Machine := h.start.upgrades t h.before

def active : Machine := (h.earlier.upgrade t h.last).2.upgrades t h.after

def rolled : Machine := (h.active.rollback t h.actor h.dryRun).2

/-- Upgrade and rollback are no dry runs, there was a version that was read as it is, no later
upgrade stages the binary, and the rollback reads the staged version as it is. -/
structure KeepsSlot : Prop where
  requested : h.last.dryRun = false ∧ h.dryRun = false
  versioned : h.earlier.files versionPath = some (h.earlier.tick.read versionPath).1
  unstaged : Along t (fun r m => ¬ Stages t r m) (h.earlier.upgrade t h.last).2 h.after
  slot : h.active.files rollbackVersionPath = some (h.active.tick.read rollbackVersionPath).1

theorem rollback_undoes_upgrade (hkeeps : h.KeepsSlot) :
    h.rolled.files binaryPath = h.earlier.files binaryPath ∧
      h.rolled.files versionPath = h.earlier.files versionPath := by
  obtain ⟨⟨hdry,hdry'⟩,hversion,hunstaged,hslot⟩ := hkeeps
  obtain ⟨hstaged,hstagedVersion⟩ := upgrade_staged t hdry h.succeeds
  have hfiles : h.active.files = (h.earlier.upgrade t h.last).2.files :=
    upgrades_of_not_stages t hunstaged
  obtain ⟨hbinary,hrecord⟩ :=
    rollback_ok t hdry' h.rollbackSucceeds (h.rollbackWrites 3 (by decide))
  constructor
  · exact hbinary.trans ((congrFun hfiles _).trans hstaged)
  · exact hrecord.trans (hslot.symm.trans
      ((congrFun hfiles _).trans (hstagedVersion.trans hversion.symm)))

end ReleaseHistory

/-- Not the artifact its checksum is of. -/
def tamperedRelease : UpgradeRequest :=
  { benchRelease "v4" with sha256 := hexText (bytes "v3") }

def undoneHistory : ReleaseHistory benchTools where
  start := releasedMachine (some (bytes "v1\n")) fun _ => none
  before := [benchRelease "v2"]
  last := benchRelease "v3"
  after := [tamperedRelease]
  actor := benchActor
  dryRun := false
  succeeds := by decide
  fails := ⟨by decide,trivial⟩
  rollbackSucceeds := by decide
  rollbackWrites := by decide

theorem undoneHistory_undone : undoneHistory.KeepsSlot ∧
    undoneHistory.rolled.files binaryPath = undoneHistory.earlier.files binaryPath ∧
      undoneHistory.rolled.files versionPath = undoneHistory.earlier.files versionPath := by
  have hkeeps : undoneHistory.KeepsSlot :=
    ⟨⟨rfl,rfl⟩,by decide,⟨fun h => absurd h.verified (by decide),trivial⟩,by decide⟩
  exact ⟨hkeeps,undoneHistory.rollback_undoes_upgrade hkeeps⟩

def overwrittenHistory : ReleaseHistory benchTools where
  start := faultyMachine (some (bytes "v1\n")) 13
  before := []
  last := benchRelease "v2"
  after := [benchRelease "v3"]
  actor := benchActor
  dryRun := false
  succeeds := by decide
  fails := ⟨by decide,trivial⟩
  rollbackSucceeds := by decide
  rollbackWrites := by decide

/-- The failed upgrade overwrote the slot, and the rollback leaves the second release. -/
theorem overwrittenHistory_not_undone :
    overwrittenHistory.earlier.files binaryPath = some (bytes "v1") ∧
      overwrittenHistory.earlier.files versionPath = some (bytes "v1\n") ∧
      overwrittenHistory.rolled.files binaryPath = some (bytes "v2") ∧
      overwrittenHistory.rolled.files versionPath = some (bytes "v2\n") := by
  decide

end Rollback

end Operations
end AquaOS
