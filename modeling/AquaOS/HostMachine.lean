import AquaOS.Operations

/-! A host with files whose calls may fail, each by its number in the run. A write or a removal that
fails leaves its path as it was. -/
namespace AquaOS
namespace Operations

open Domain Program

structure Fault where
  error : Failure
  fragment : Bytes := []

structure Machine where
  files : String → Option Bytes
  faults : ℕ → Option Fault := fun _ => none
  made : ℕ := 0

namespace Machine

variable {A : Type} (m : Machine)

def fault : Option Fault := m.faults m.made

def tick : Machine := { m with made := m.made+1 }

/-- A call is made that leaves a path with a content or absent. -/
def set (path : String) (content : Option Bytes) : Machine :=
  { m.tick with files := Function.update m.files path content }

def read (path : String) : Bytes × Option Failure :=
  match m.fault, m.files path with
  | some f, _ => (f.fragment,some f.error)
  | none, some content => (content,none)
  | none, none => ([],some (.external ("open "++path++": no such file or directory")))

def lookFor (path : String) : Bool × Option Failure :=
  match m.fault with
  | some f => (false,some f.error)
  | none => ((m.files path).isSome,none)

def act (done : Machine) : Option Failure × Machine :=
  match m.fault with
  | some f => (some f.error,m.tick)
  | none => (none,done)

def answer (m : Machine) : (c : HostCall) → c.Reply × Machine
  | .readFile path => (m.read path,m.tick)
  | .writeFileAtomic path payload _ => m.act (m.set path (some payload))
  | .pathExists path => (m.lookFor path,m.tick)
  | .mkdirAll _ _ | .run _ _ => m.act m.tick
  | .remove path => m.act (m.set path none)

@[simp] theorem files_tick : m.tick.files = m.files := rfl

@[simp] theorem fault_tick : m.tick.fault = m.faults (m.made+1) := rfl

@[simp] theorem faults_tick : m.tick.faults = m.faults := rfl

@[simp] theorem made_tick : m.tick.made = m.made+1 := rfl

@[simp] theorem faults_set (path : String) (content : Option Bytes) :
    (m.set path content).faults = m.faults := rfl

@[simp] theorem made_set (path : String) (content : Option Bytes) :
    (m.set path content).made = m.made+1 := rfl

@[simp] theorem fault_set (path : String) (content : Option Bytes) :
    (m.set path content).fault = m.faults (m.made+1) := rfl

@[simp] theorem files_set (path : String) (content : Option Bytes) :
    (m.set path content).files = Function.update m.files path content := rfl

variable {m} {f : Fault}

theorem read_of_file {path : String} {content : Bytes} (h : m.fault = none)
    (hfile : m.files path = some content) : m.read path = (content,none) := by
  simp only [read,h,hfile]

theorem files_of_read {path : String} (h : (m.read path).2 = none) :
    m.fault = none ∧ m.files path = some (m.read path).1 := by
  unfold read at h ⊢
  split at h
  · cases h
  · simp_all
  · cases h

section Exec

variable (m)

@[simp] theorem exec_readFile (path : String) (k : Bytes × Option Failure → HostProgram A) :
    exec answer (readFile path >>= k) m = exec answer (k (m.read path)) m.tick := rfl

@[simp] theorem exec_writeFileAtomic (path : String) (payload : Bytes) (mode : ℕ)
    (k : Option Failure → HostProgram A) :
    exec answer (writeFileAtomic path payload mode >>= k) m =
      exec answer (k (m.act (m.set path (some payload))).1)
        (m.act (m.set path (some payload))).2 := rfl

@[simp] theorem exec_pathExists (path : String) (k : Bool × Option Failure → HostProgram A) :
    exec answer (pathExists path >>= k) m = exec answer (k (m.lookFor path)) m.tick := rfl

@[simp] theorem exec_restart (k : Option Failure → HostProgram A) :
    exec answer (restart >>= k) m = exec answer (k (m.act m.tick).1) (m.act m.tick).2 := rfl

end Exec

section Ensures

variable {Q : A → Machine → Prop} {path : String} {k : Option Failure → HostProgram A}

section Acting

variable {done : Machine} {payload : Bytes} {mode : ℕ} {name : String} {args : List String}
  (hfault : ∀ f, m.fault = some f → Ensures answer (k (some f.error)) Q m.tick)

include hfault

theorem ensures_act (hdone : m.fault = none → Ensures answer (k none) Q done) :
    Ensures answer (k (m.act done).1) Q (m.act done).2 := by
  unfold act
  cases h : m.fault with
  | some f => exact hfault f h
  | none => exact hdone h

theorem ensures_writeFileAtomic
    (hdone : m.fault = none → Ensures answer (k none) Q (m.set path (some payload))) :
    Ensures answer (writeFileAtomic path payload mode >>= k) Q m :=
  ensures_ask (ensures_act hfault hdone)

theorem ensures_mkdirAll (hdone : m.fault = none → Ensures answer (k none) Q m.tick) :
    Ensures answer (mkdirAll path mode >>= k) Q m :=
  ensures_ask (ensures_act hfault hdone)

theorem ensures_runCommand (hdone : m.fault = none → Ensures answer (k none) Q m.tick) :
    Ensures answer (runCommand name args >>= k) Q m :=
  ensures_ask (ensures_act hfault hdone)

end Acting

theorem ensures_readFile {k : Bytes × Option Failure → HostProgram A}
    (hfault : ∀ fragment err, (m.fault = none → m.files path = none) →
      Ensures answer (k (fragment,some err)) Q m.tick)
    (hdone : ∀ content, m.files path = some content → Ensures answer (k (content,none)) Q m.tick) :
    Ensures answer (readFile path >>= k) Q m := by
  refine ensures_ask (show Ensures answer (k (m.read path)) Q m.tick from ?_)
  unfold read
  split
  · next f hf => exact hfault _ _ fun hnone => absurd hf (by simp [hnone])
  · next content _ hfile => exact hdone content hfile
  · next _ hfile => exact hfault _ _ fun _ => hfile

theorem ensures_pathExists {k : Bool × Option Failure → HostProgram A}
    (hfault : ∀ f, m.fault = some f → Ensures answer (k (false,some f.error)) Q m.tick)
    (hdone : m.fault = none → Ensures answer (k ((m.files path).isSome,none)) Q m.tick) :
    Ensures answer (pathExists path >>= k) Q m := by
  refine ensures_ask (show Ensures answer (k (m.lookFor path)) Q m.tick from ?_)
  unfold lookFor
  cases h : m.fault with
  | some f => exact hfault f h
  | none => exact hdone h

end Ensures

end Machine

section Bench

def asciiSpace (b : UInt8) : Bool := b = 32 || (9 ≤ b && b ≤ 13)

def asciiLower (b : UInt8) : UInt8 := if 65 ≤ b && b ≤ 90 then b+32 else b

def benchSignature (key message : Bytes) : Bytes := (key++message++List.replicate 64 0).take 64

/-- Library calls of a bench: texts in ASCII, contents as their own digests, and one document that
decodes, to the configuration of the bench. -/
def benchTools : Tools where
  goos := "linux"
  goarch := "amd64"
  trimSpace text := ((text.dropWhile asciiSpace).reverse.dropWhile asciiSpace).reverse
  equalFold a b := a.map asciiLower = b.map asciiLower
  sha256 := id
  verify key message signature := signature = benchSignature key message
  schemaVersion _ := .ok (some 1)
  decodeConfig data :=
    if data = bytes "bench" then .ok Configuration.benchConfig
    else .error (.external "yaml: unmarshal errors")
  validation := Configuration.benchLibrary
  digest _ := .ok ""
  unzip _ := none
  zip _ := .error (.external "zip: unsupported")
  manifest _ := none
  manifestText _ := []

def benchActor : Actor := ⟨bytes "operator",true⟩

def bareMachine : Machine := { files := fun _ => none }

end Bench

end Operations
end AquaOS
