import AquaOS.ConfigValidation
import AquaOS.Program
import AquaOS.Reload

/-! The operations service: installation, repair, configuration, upgrade, rollback, backup, restore
and removal of a dedicated host. Every operation is a program of calls to the host, and decides what
to do next on the answers. -/
namespace AquaOS
namespace Operations

open Domain AquaOS.Configuration

abbrev Bytes := List UInt8

section Host

/-- The calls of the interface `Host` that may fail. -/
inductive HostCall
  | readFile (path : String)
  | writeFileAtomic (path : String) (payload : Bytes) (mode : ℕ)
  | pathExists (path : String)
  | mkdirAll (path : String) (mode : ℕ)
  | remove (path : String)
  | run (name : String) (args : List String)

/-- A read gives what it got beside its error, and so does the test for a path. -/
def HostCall.Reply : HostCall → Type
  | .readFile _ => Bytes × Option Failure
  | .pathExists _ => Bool × Option Failure
  | .writeFileAtomic _ _ _ | .mkdirAll _ _ | .remove _ | .run _ _ => Option Failure

abbrev HostProgram := Program HostCall HostCall.Reply

def readFile (path : String) : HostProgram (Bytes × Option Failure) := .ask (HostCall.readFile path)

def writeFileAtomic (path : String) (payload : Bytes) (mode : ℕ) : HostProgram (Option Failure) :=
  .ask (HostCall.writeFileAtomic path payload mode)

def pathExists (path : String) : HostProgram (Bool × Option Failure) :=
  .ask (HostCall.pathExists path)

def mkdirAll (path : String) (mode : ℕ) : HostProgram (Option Failure) :=
  .ask (HostCall.mkdirAll path mode)

def remove (path : String) : HostProgram (Option Failure) := .ask (HostCall.remove path)

def runCommand (name : String) (args : List String) : HostProgram (Option Failure) :=
  .ask (HostCall.run name args)

def restart : HostProgram (Option Failure) := runCommand "systemctl" ["restart","aquaos.service"]

end Host

section Paths

def binaryPath : String := "/opt/aquaos/bin/aquaos"
def configPath : String := "/etc/aquaos/aquaos.yaml"
def versionPath : String := "/var/lib/aquaos/current-version"
def unitPath : String := "/etc/systemd/system/aquaos.service"
def sysusersPath : String := "/usr/lib/sysusers.d/aquaos.conf"
def tmpfilesPath : String := "/usr/lib/tmpfiles.d/aquaos.conf"
def rollbackPath : String := "/var/lib/aquaos/rollback/aquaos"
def rollbackVersionPath : String := "/var/lib/aquaos/rollback/version"
def rollbackConfigPath : String := "/var/lib/aquaos/rollback/aquaos.yaml"

def managedPaths : List String :=
  [binaryPath,configPath,versionPath,unitPath,sysusersPath,tmpfilesPath,rollbackPath,
    rollbackVersionPath,rollbackConfigPath].insertionSort (· ≤ ·)

def systemdUnit : String :=
  "[Unit]\n"++
  "Description=AquaOS Core\n"++
  "After=network-online.target\n"++
  "Wants=network-online.target\n"++
  "\n"++
  "[Service]\n"++
  "Type=simple\n"++
  "User=aquaos\n"++
  "Group=aquaos\n"++
  "EnvironmentFile=-/etc/aquaos/aquaos.env\n"++
  "ExecStart=/opt/aquaos/bin/aquaos -config /etc/aquaos/aquaos.yaml\n"++
  "Restart=on-failure\n"++
  "RestartSec=5s\n"++
  "CPUWeight=1000\n"++
  "OOMScoreAdjust=-500\n"++
  "NoNewPrivileges=true\n"++
  "PrivateTmp=true\n"++
  "ProtectSystem=strict\n"++
  "ProtectHome=true\n"++
  "ReadWritePaths=/var/lib/aquaos /var/log/aquaos\n"++
  "CapabilityBoundingSet=\n"++
  "AmbientCapabilities=\n"++
  "\n"++
  "[Install]\n"++
  "WantedBy=multi-user.target\n"

end Paths

section Data

structure Actor where
  id : Bytes
  administrator : Bool

structure Artifact where
  binary : Bytes
  sha256 : Bytes
  signature : Bytes
  publicKey : Bytes

structure InstallRequest extends Artifact where
  actor : Actor
  version : Bytes
  configuration : Bytes
  controlVMAcknowledged : Bool
  dryRun : Bool

structure UpgradeRequest extends Artifact where
  actor : Actor
  version : Bytes
  dryRun : Bool

structure Result where
  operation : String := ""
  changed : Bool := false
  version : Bytes := []
  actions : List String := []
  rolledBack : Bool := false
  deriving Inhabited

structure Status where
  installed : Bool := false
  version : Bytes := []
  configured : Bool := false
  serviceUnit : Bool := false
  platform : String := ""
  deriving Inhabited

structure Diagnostics where
  status : Status := {}
  configDigest : String := ""
  checks : List (String × String) := []
  deriving Inhabited

structure ConfigurationResult where
  digest : String := ""
  valid : Bool := false
  changed : Bool := false
  restartRequired : Bool := false
  rolledBack : Bool := false
  deriving Inhabited

/-- The errors of operations; those of candidate configurations may be of the validator. -/
inductive OperationError
  | failed (err : Failure)
  | invalid (err : ValidationError)
  | wrapped (context : String) (cause : OperationError)
  deriving DecidableEq

def OperationError.message (text : String) : OperationError := .failed (.message text)

/-- An entry of an archive, with what opening and reading it gives. -/
structure Entry where
  name : String
  content : Except Failure Bytes

/-- The platform, and what the service calls outside the program: `strings`, `crypto`, `yaml`, `json`
and `zip`. A manifest is a map from names to digests. -/
structure Tools where
  goos : String
  goarch : String
  trimSpace : Bytes → Bytes
  equalFold : Bytes → Bytes → Bool
  sha256 : Bytes → Bytes
  verify : Bytes → Bytes → Bytes → Bool
  schemaVersion : Bytes → Except Failure (Option ℤ)
  decodeConfig : Bytes → Except Failure Config
  validation : Library
  digest : Config → Except Failure String
  unzip : Bytes → Option (List Entry)
  zip : List (String × Bytes) → Except Failure Bytes
  manifest : Bytes → Option (Table String Bytes)
  manifestText : Table String Bytes → Bytes

abbrev Outcome (A : Type) := A × Option OperationError

end Data

section Checks

variable (t : Tools)

def hexDigit (n : ℕ) : UInt8 := if n < 10 then UInt8.ofNat (48+n) else UInt8.ofNat (87+n)

/-- `hex.EncodeToString`. -/
def hexText (value : Bytes) : Bytes :=
  value.flatMap fun b => [hexDigit (b.toNat/16),hexDigit (b.toNat%16)]

def authorize (actor : Actor) : Option OperationError :=
  if t.trimSpace actor.id = [] ∨ ¬ actor.administrator then
    some (.message "administrator authorization is required")
  else none

def verifyArtifact (a : Artifact) : Option OperationError :=
  if a.binary.length = 0 ∨ a.publicKey.length ≠ 32 ∨ a.signature.length ≠ 64 then
    some (.message "signed artifact, signature, and trusted Ed25519 key are required")
  else if ¬ t.equalFold (hexText (t.sha256 a.binary)) (t.trimSpace a.sha256) then
    some (.message "artifact checksum mismatch")
  else if ¬ t.verify a.publicKey (hexText (t.sha256 a.binary)) a.signature then
    some (.message "artifact signature verification failed")
  else none

/-- `config.DecodeCandidate`. -/
def decodeCandidate (data : Bytes) : Except OperationError Config := do
  if data.length = 0 then throw (.message "candidate configuration is empty")
  if 1024*1024 < data.length then
    throw (.message "candidate configuration exceeds 1048576 bytes")
  match t.schemaVersion data with
  | .error err => throw (.failed (.wrapped "decode candidate config" err))
  | .ok none => throw (.invalid ⟨"schema_version","required","is required"⟩)
  | .ok (some _) =>
    match t.decodeConfig data with
    | .error err => throw (.failed (.wrapped "decode candidate config" err))
    | .ok cfg =>
      if cfg.mqtt.password ≠ "" then
        throw (.invalid ⟨"mqtt.password","secret_inline",
          "must not be supplied in candidate configuration"⟩)
      match cfg.validate t.validation with
      | some err => throw (.invalid err)
      | none => return cfg

/-- A candidate that decodes has a size within the bounds and is valid. -/
theorem decodeCandidate_ok {data : Bytes} {cfg : Config} (h : decodeCandidate t data = .ok cfg) :
    data ≠ [] ∧ data.length ≤ 1024*1024 ∧ cfg.validate t.validation = none := by
  unfold decodeCandidate at h
  by_cases hempty : data.length = 0
  · rw [if_pos hempty] at h
    nomatch h
  · by_cases hlong : 1024*1024 < data.length
    · rw [if_neg hempty,if_pos hlong] at h
      nomatch h
    · rw [if_neg hempty,if_neg hlong] at h
      refine ⟨fun heq => hempty (by rw [heq]; rfl),by omega,?_⟩
      dsimp only at h
      split at h
      · nomatch h
      · nomatch h
      · split at h
        · nomatch h
        · split at h
          · nomatch h
          · split at h
            · nomatch h
            · next hvalid => exact Except.ok.inj h ▸ hvalid

def refused {A : Type} [Inhabited A] (err : OperationError) : Outcome A :=
  (default,some err)

end Checks

section Service

variable (t : Tools)

def preflight (ack : Bool) : HostProgram (Option OperationError) := do
  if ¬ ack then
    return some (.message "dedicated AquaOS control host acknowledgement is required")
  if t.goos ≠ "linux" ∨ t.goarch ≠ "amd64" then
    return some (.message ("unsupported production platform "++t.goos++"/"++t.goarch++
      "; require linux/amd64"))
  let (hypervisor,_) ← pathExists "/etc/pve"
  if hypervisor then return some (.message "refusing to install on a hypervisor host")
  return none

section Stages

variable (r : InstallRequest)

def sysusersText : String := "u aquaos - \"AquaOS service\" /var/lib/aquaos /usr/sbin/nologin\n"

def tmpfilesText : String :=
  "d /var/lib/aquaos 0750 aquaos aquaos -\n"++"d /var/log/aquaos 0750 aquaos aquaos -\n"

def installResult : Result where
  operation := "install"
  version := r.version
  actions := ["create least-privilege aquaos account","install binary atomically",
    "preserve or create validated configuration","install native systemd unit",
    "enable and start aquaos.service"]

/-- The part of `Install` after the binary. -/
def activateUnit (changed : Bool) : HostProgram (Outcome Result) := do
  if let some err ← writeFileAtomic unitPath (bytes systemdUnit) 0o644 then
    return refused (.failed err)
  if let some err ← writeFileAtomic versionPath (r.version++bytes "\n") 0o640 then
    return refused (.failed err)
  if let some err ← runCommand "systemctl" ["daemon-reload"] then return refused (.failed err)
  if let some err ← runCommand "systemctl" ["enable","--now","aquaos.service"] then
    return refused (.failed err)
  return ({ installResult r with changed := changed },none)

/-- The part of `Install` after the configuration. -/
def placeBinary (existing : Bool) : HostProgram (Outcome Result) := do
  let (current,readErr) ← readFile binaryPath
  let stale : Bool := readErr ≠ none ∨ current ≠ r.binary
  if stale then
    if let some err ← writeFileAtomic binaryPath r.binary 0o755 then
      return refused (.failed err)
  activateUnit r (¬ existing ∨ stale)

/-- The part of `Install` after its checks. -/
def placeFiles : HostProgram (Outcome Result) := do
  if let some err ← mkdirAll "/var/lib/aquaos" 0o750 then return refused (.failed err)
  if let some err ← mkdirAll "/var/log/aquaos" 0o750 then return refused (.failed err)
  if let some err ← writeFileAtomic sysusersPath (bytes sysusersText) 0o644 then
    return refused (.failed err)
  if let some err ← writeFileAtomic tmpfilesPath (bytes tmpfilesText) 0o644 then
    return refused (.failed err)
  if let some err ← runCommand "systemd-sysusers" [sysusersPath] then return refused (.failed err)
  if let some err ← runCommand "systemd-tmpfiles" ["--create",tmpfilesPath] then
    return refused (.failed err)
  let (existing,err) ← pathExists configPath
  if let some err := err then return refused (.failed err)
  if ¬ existing then
    if let some err ← writeFileAtomic configPath r.configuration 0o640 then
      return refused (.failed err)
  placeBinary r existing

end Stages

def install (request : InstallRequest) : HostProgram (Outcome Result) := do
  if let some err := authorize t request.actor then return refused err
  if let some err ← preflight t request.controlVMAcknowledged then return refused err
  if request.version = [] then return refused (.message "version is required")
  if let some err := verifyArtifact t request.toArtifact then return refused err
  if let .error err := decodeCandidate t request.configuration then
    return refused (.wrapped "validate install configuration" err)
  if request.dryRun then return (installResult request,none)
  placeFiles request

/-- The context's error is that of the moment it is asked for. -/
def getStatus (ctx : Option Failure) (actor : Actor) : HostProgram (Outcome Status) := do
  if let some err := authorize t actor then return refused err
  if let some err := ctx then return refused (.failed err)
  let (binary,_) ← pathExists binaryPath
  let (configured,_) ← pathExists configPath
  let (unit,_) ← pathExists unitPath
  let (version,_) ← readFile versionPath
  return ({ installed := binary, version := t.trimSpace version, configured := configured
            serviceUnit := unit, platform := t.goos++"/"++t.goarch },none)

def getConfiguration (ctx : Option Failure) (actor : Actor) :
    HostProgram (Except OperationError Config) := do
  if let some err := authorize t actor then return .error err
  if let some err := ctx then return .error (.failed err)
  let (payload,err) ← readFile configPath
  if let some err := err then return .error (.failed (.wrapped "read active configuration" err))
  match decodeCandidate t payload with
  | .error err => return .error (.wrapped "decode active configuration" err)
  | .ok value => return .ok { value with mqtt := value.mqtt.redacted }

def verdict (passed : Bool) : String := if passed then "pass" else "fail"

def verify (ctx : Option Failure) (actor : Actor) : HostProgram (Outcome Diagnostics) := do
  let (status,err) ← getStatus t ctx actor
  if let some err := err then return refused err
  let inactive ← runCommand "systemctl" ["is-active","--quiet","aquaos.service"]
  let (payload,readErr) ← readFile configPath
  let decoded := if readErr = none then (decodeCandidate t payload).toOption else none
  let checks := [("platform",verdict (status.platform = "linux/amd64")),
    ("binary",verdict status.installed),("configuration",verdict decoded.isSome),
    ("systemd",verdict status.serviceUnit),("service",verdict inactive.isNone)]
  let result : Diagnostics :=
    { status := status, checks := checks
      configDigest := (decoded.bind fun cfg => (t.digest cfg).toOption).getD "" }
  if checks.any (fun check => check.2 ≠ "pass") then
    return (result,some (.message "deployment verification failed"))
  return (result,none)

def repair (actor : Actor) (dryRun : Bool) : HostProgram (Outcome Result) := do
  if let some err := authorize t actor then return refused err
  let result : Result :=
    { operation := "repair"
      actions := ["restore managed systemd definitions","reload systemd","restart AquaOS"] }
  if dryRun then return (result,none)
  let (configured,_) ← pathExists configPath
  if ¬ configured then return refused (.message "repair requires an existing configuration")
  let (installed,_) ← pathExists binaryPath
  if ¬ installed then return refused (.message "repair requires an installed binary")
  if let some err ← writeFileAtomic unitPath (bytes systemdUnit) 0o644 then
    return refused (.failed err)
  if let some err ← runCommand "systemctl" ["daemon-reload"] then return refused (.failed err)
  if let some err ← restart then return refused (.failed err)
  return ({ result with changed := true },none)

def validateConfiguration (actor : Actor) (payload : Bytes) :
    Outcome ConfigurationResult :=
  match authorize t actor with
  | some err => refused err
  | none =>
    match decodeCandidate t payload with
    | .error err => refused err
    | .ok candidate =>
      match t.digest candidate with
      | .error err => refused (.failed err)
      | .ok digest => ({ digest := digest, valid := true, restartRequired := true },none)

theorem validateConfiguration_ok {actor : Actor} {payload : Bytes} {result : ConfigurationResult}
    (h : validateConfiguration t actor payload = (result,none)) :
    authorize t actor = none ∧ result.rolledBack = false ∧
      ∃ cfg, decodeCandidate t payload = .ok cfg := by
  unfold validateConfiguration at h
  cases hactor : authorize t actor with
  | some err => simp [hactor,refused] at h
  | none =>
    cases hcfg : decodeCandidate t payload with
    | error err => simp [hactor,hcfg,refused] at h
    | ok cfg =>
      cases hdigest : t.digest cfg with
      | error err => simp [hactor,hcfg,hdigest,refused] at h
      | ok digest =>
        simp only [hactor,hcfg,hdigest,Prod.mk.injEq,and_true] at h
        exact ⟨rfl,h ▸ rfl,cfg,rfl⟩

def applyConfiguration (actor : Actor) (payload : Bytes) (dryRun : Bool) :
    HostProgram (Outcome ConfigurationResult) := do
  let (result,err) := validateConfiguration t actor payload
  if let some err := err then return refused err
  let (current,err) ← readFile configPath
  if err ≠ none then
    return refused (.message "configuration activation requires an existing configuration")
  if current = payload then return (result,none)
  if let .error err := decodeCandidate t current then
    return refused (.wrapped "installed configuration is invalid" err)
  let result := { result with changed := true }
  if dryRun then return (result,none)
  if let some err ← writeFileAtomic rollbackConfigPath current 0o640 then
    return refused (.failed err)
  if let some err ← writeFileAtomic configPath payload 0o640 then return refused (.failed err)
  if let some err ← restart then
    let _ ← writeFileAtomic configPath current 0o640
    let _ ← restart
    return ({ result with rolledBack := true },
      some (.failed (.wrapped "configuration activation failed and rollback attempted" err)))
  return (result,none)

def upgrade (request : UpgradeRequest) : HostProgram (Outcome Result) := do
  if let some err := authorize t request.actor then return refused err
  if let some err := verifyArtifact t request.toArtifact then return refused err
  let result : Result :=
    { operation := "upgrade", version := request.version
      actions := ["verify checksum and Ed25519 signature","stage rollback binary",
        "activate release atomically","restart and verify"] }
  if request.dryRun then return (result,none)
  let (previous,err) ← readFile binaryPath
  if err ≠ none then return refused (.message "upgrade requires an installed binary")
  let (previousVersion,_) ← readFile versionPath
  if let some err ← writeFileAtomic rollbackPath previous 0o750 then return refused (.failed err)
  if let some err ← writeFileAtomic rollbackVersionPath previousVersion 0o640 then
    return refused (.failed err)
  if let some err ← writeFileAtomic binaryPath request.binary 0o755 then
    return refused (.failed err)
  let _ ← writeFileAtomic versionPath (request.version++bytes "\n") 0o640
  if let some err ← restart then
    let _ ← writeFileAtomic binaryPath previous 0o755
    let _ ← writeFileAtomic versionPath previousVersion 0o640
    let _ ← restart
    return ({ result with rolledBack := true },
      some (.failed (.wrapped "upgrade failed and rollback attempted" err)))
  return ({ result with changed := true },none)

def rollback (actor : Actor) (dryRun : Bool) : HostProgram (Outcome Result) := do
  if let some err := authorize t actor then return refused err
  let result : Result :=
    { operation := "rollback", actions := ["activate staged rollback","restart AquaOS"] }
  if dryRun then return (result,none)
  let (binary,err) ← readFile rollbackPath
  if err ≠ none then return refused (.message "no rollback artifact is available")
  let (version,_) ← readFile rollbackVersionPath
  if let some err ← writeFileAtomic binaryPath binary 0o755 then return refused (.failed err)
  let _ ← writeFileAtomic versionPath version 0o640
  if let some err ← restart then return refused (.failed err)
  return ({ result with changed := true, version := t.trimSpace version },none)

def configEntry : String := "etc/aquaos/aquaos.yaml"
def versionEntry : String := "var/lib/aquaos/current-version"
def manifestEntry : String := "manifest.json"

def backup (ctx : Option Failure) (actor : Actor) : HostProgram (Outcome Bytes) := do
  if let some err := authorize t actor then return refused err
  if let some err := ctx then return refused (.failed err)
  let (configuration,err) ← readFile configPath
  if let some err := err then return refused (.failed err)
  let (version,err) ← readFile versionPath
  if let some err := err then return refused (.failed err)
  let manifest := ((∅ : Table String Bytes).insert configEntry
    (hexText (t.sha256 configuration))).insert versionEntry (hexText (t.sha256 version))
  match t.zip [(configEntry,configuration),(versionEntry,version),
      (manifestEntry,t.manifestText manifest)] with
  | .error err => return refused (.failed err)
  | .ok archive => return (archive,none)

/-- The loop of `Restore` over the entries, each of which is read up to two megabytes. -/
def collectEntries : Table String Bytes → List Entry → Except OperationError (Table String Bytes)
  | files, [] => .ok files
  | files, entry::entries =>
    if entry.name ≠ configEntry ∧ entry.name ≠ versionEntry ∧ entry.name ≠ manifestEntry then
      .error (.message "backup contains an unsupported path")
    else
      match entry.content with
      | .error err => .error (.failed err)
      | .ok content =>
        collectEntries (files.insert entry.name (content.take (2*1024*1024))) entries

def contentOf (files : Table String Bytes) (name : String) : Bytes := (files.lookup name).getD []

def verifyEntries (entries : List Entry) : Except OperationError (Table String Bytes) := do
  let files ← collectEntries ∅ entries
  let some manifest := t.manifest (contentOf files manifestEntry)
    | throw (.message "backup manifest is invalid")
  if manifest.entries.any fun e => hexText (t.sha256 (contentOf files e.1)) ≠ e.2 then
    throw (.message "backup checksum mismatch")
  if let .error err := decodeCandidate t (contentOf files configEntry) then
    throw (.wrapped "backup configuration" err)
  return files

def restore (actor : Actor) (payload : Bytes) (dryRun : Bool) : HostProgram (Outcome Result) := do
  if let some err := authorize t actor then return refused err
  let some entries := t.unzip payload | return refused (.message "backup archive is invalid")
  match verifyEntries t entries with
  | .error err => return refused err
  | .ok files =>
    let result : Result :=
      { operation := "restore", version := t.trimSpace (contentOf files versionEntry)
        actions := ["verify archive manifest","validate candidate configuration",
          "activate configuration atomically","restart AquaOS"] }
    if dryRun then return (result,none)
    if let some err ← writeFileAtomic configPath (contentOf files configEntry) 0o640 then
      return refused (.failed err)
    if let some err ← writeFileAtomic versionPath (contentOf files versionEntry) 0o640 then
      return refused (.failed err)
    if let some err ← restart then return refused (.failed err)
    return ({ result with changed := true },none)

/-- The loop of `Uninstall` over the paths it removes. -/
def removeEach : List String → HostProgram (Option Failure)
  | [] => pure none
  | path::paths => do
    if let some err ← remove path then return some err
    removeEach paths

def uninstall (actor : Actor) (preserveData dryRun : Bool) : HostProgram (Outcome Result) := do
  if let some err := authorize t actor then return refused err
  let result : Result :=
    { operation := "uninstall"
      actions := ["disable AquaOS service","remove AquaOS binary and unit"]++
        if preserveData then ["preserve configuration and state"] else [] }
  if dryRun then return (result,none)
  let _ ← runCommand "systemctl" ["disable","--now","aquaos.service"]
  if let some err ← removeEach [binaryPath,unitPath,sysusersPath,tmpfilesPath] then
    return refused (.failed err)
  if ¬ preserveData then
    if let some err ← removeEach [configPath,versionPath] then return refused (.failed err)
  let _ ← runCommand "systemctl" ["daemon-reload"]
  return ({ result with changed := true },none)

end Service

end Operations
end AquaOS
