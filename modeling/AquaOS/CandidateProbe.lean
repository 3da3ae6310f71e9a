import AquaOS.Adapters
import AquaOS.Configuration
import AquaOS.Occupancy
import AquaOS.Program
import AquaOS.Transition

/-! Probing addresses that the operator approved. The loop of `Probe` checks one candidate after the
other and starts a worker for each; the workers share a semaphore, can be cancelled, and leave their
results at their own positions. A step runs from one call or synchronisation to the next. -/
namespace AquaOS
namespace Discovery

open Domain Transition Occupancy

def maximumCandidates : ℕ := 64

inductive Kind
  | shelly | esp32
  | other (text : String)
  deriving DecidableEq

def Kind.text : Kind → String
  | .shelly => "shelly"
  | .esp32 => "esp32"
  | .other text => text

structure Candidate where
  kind : Kind
  baseURL : String
  channel : ℤ := 0
  bearerTokenFile : String := ""
  deriving DecidableEq

structure Result where
  kind : Kind := .other ""
  baseURL : String := ""
  channel : ℤ := 0
  reachable : Bool := false
  identity : String := ""
  firmware : String := ""
  capabilities : List String := []
  probeIDs : List String := []
  bearerTokenFile : String := ""
  message : String := ""
  deriving DecidableEq

def Candidate.target (c : Candidate) : Kind × String × ℤ := (c.kind,c.baseURL,c.channel)

def Result.target (r : Result) : Kind × String × ℤ := (r.kind,r.baseURL,r.channel)

structure Address where
  isPrivate : Bool
  isLoopback : Bool
  isLinkLocalUnicast : Bool

structure Library where
  trimSpace : String → String
  parseURL : String → Option Shelly.URL
  hostname : Shelly.URL → String
  toLower : String → String
  parseIP : String → Option Address
  clean : String → String

/-- The check of the host after the URL has been taken. -/
def validateHost (lib : Library) (host : String) : Option Failure :=
  match lib.parseIP host with
  | some ip =>
    if !ip.isPrivate ∧ !ip.isLoopback ∧ !ip.isLinkLocalUnicast then
      some (.message "candidate IP must be local")
    else none
  | none =>
    if host ≠ "localhost" ∧ ¬ ".local".toList <:+ host.toList then
      some (.message "candidate hostname must use local discovery")
    else none

def validateCandidate (lib : Library) (c : Candidate) : Option Failure :=
  if c.kind ≠ .shelly ∧ c.kind ≠ .esp32 then some (.message "unsupported candidate kind")
  else
    let malformed :=
      Failure.message "candidate URL must be an HTTP or HTTPS origin without credentials"
    match lib.parseURL (lib.trimSpace c.baseURL) with
    | none => some malformed
    | some parsed =>
      if (parsed.scheme ≠ "http" ∧ parsed.scheme ≠ "https") ∨ lib.hostname parsed = "" ∨
          parsed.user ∨ parsed.rawQuery ≠ "" ∨ parsed.fragment ≠ "" then some malformed
      else
        match validateHost lib (lib.toLower (lib.hostname parsed)) with
        | some err => some err
        | none =>
          if c.kind = .shelly ∧ (c.channel < 0 ∨ 31 < c.channel) then
            some (.message "shelly channel is outside supported bounds")
          else if c.bearerTokenFile ≠ "" then
            if c.kind ≠ .esp32 then
              some (.message "credential files are supported only for ESP32 nodes")
            else if ¬ "/etc/aquaos/secrets/".toList <+: (lib.clean c.bearerTokenFile).toList then
              some (.message "credential file must be under /etc/aquaos/secrets")
            else none
          else none

structure SwitchStatus where
  id : ℤ

structure SwitchConfig where
  initialState : String

structure SnapshotDTO where
  nodeID : String
  firmware : String
  sensorIDs : List String

inductive Request
  | getSwitchStatus (baseURL : String) (channel : ℤ)
  | getSwitchConfig (baseURL : String) (channel : ℤ)
  | readSecret (path : String)
  | snapshot (baseURL token : String)

def Request.Answer : Request → Type
  | getSwitchStatus _ _ => Except Failure SwitchStatus
  | getSwitchConfig _ _ => Except Failure SwitchConfig
  | readSecret _ => Except Failure String
  | snapshot _ _ => Except Failure SnapshotDTO

/-- Everything but a secret is read from the candidate. -/
def Request.contacts : Request → Bool
  | readSecret _ => false
  | _ => true

structure Service where
  concurrency : ℕ
  bounded : 1 ≤ concurrency ∧ concurrency ≤ 16
  hasReader : Bool

/-- A probe with its calls, each answered in turn. -/
abbrev Probe := Program Request Request.Answer Result

def Service.probe (service : Service) (c : Candidate) : Probe :=
  let result : Result := { kind := c.kind, baseURL := c.baseURL, channel := c.channel
                           bearerTokenFile := c.bearerTokenFile }
  match c.kind with
  | .shelly =>
    .call (.getSwitchStatus c.baseURL c.channel) fun
      | .error _ => .done
        { result with message := "Shelly did not respond to a read-only status request." }
      | .ok status =>
        .call (.getSwitchConfig c.baseURL c.channel) fun
          | .error _ => .done
            { result with
              message := "Shelly status responded but configuration could not be verified." }
          | .ok configuration => .done
            { result with
              reachable := true, identity := "switch:"++toString status.id
              capabilities := ["switch","reported-state","power-telemetry"]
              message := "Power-return policy: "++configuration.initialState }
  | .esp32 =>
    let read (token : String) : Probe :=
      .call (.snapshot c.baseURL token) fun
        | .error _ => .done
          { result with message := "ESP32 node did not return a valid AquaOS snapshot." }
        | .ok snapshot => .done
          { result with
            reachable := true, identity := snapshot.nodeID, firmware := snapshot.firmware
            capabilities := ["observe"], probeIDs := snapshot.sensorIDs }
    if c.bearerTokenFile = "" then read ""
    else if !service.hasReader then .done
      { result with message := "ESP32 credential file cannot be read by this service." }
    else
      .call (.readSecret c.bearerTokenFile) fun
        | .error _ => .done { result with message := "ESP32 credential file could not be read." }
        | .ok token => read token
  | .other _ => .done { result with message := "Unsupported discovery kind." }

def Result.less (a b : Result) : Bool :=
  if a.kind = b.kind then a.baseURL < b.baseURL else a.kind.text < b.kind.text

/-- `sort.SliceStable`. -/
def sortResults (results : List Result) : List Result :=
  results.mergeSort fun a b => !b.less a

/-- Where a worker is: at its `select`, inside `probe`, waiting for an answer there, with its result
written and the semaphore still held, before `Done`, or gone. -/
inductive Worker
  | absent
  | started (value : Candidate)
  | probing (p : Probe)
  | calling (c : Request) (next : c.Answer → Probe)
  | releasing
  | leaving
  | ended

namespace Worker

def probes : Worker → Bool
  | probing _ | calling _ _ => true
  | _ => false

def holds : Worker → Bool
  | probing _ | calling _ _ | releasing => true
  | _ => false

def running : Worker → Bool
  | absent | ended => false
  | _ => true

end Worker

inductive Main
  | looping (index : ℕ)
  | joining
  | returned (outcome : Except Failure (List Result))

structure Probing where
  main : Main
  ctx : Option Failure := none
  workers : ℕ → Worker := fun _ => .absent
  semaphore : ℕ := 0
  group : ℤ := 0
  results : ℕ → Result := fun _ => {}
  contacts : List ℕ := []

/-- The call goes on; the worker at a position takes the semaphore, or its context is done; it makes
its next call or writes its result; it is answered; it gives the semaphore back; it calls `Done`; and
the context ends. -/
inductive Step
  | main
  | acquire (i : ℕ)
  | giveUp (i : ℕ)
  | advance (i : ℕ)
  | answer (i : ℕ) (reply : (c : Request) → c.Answer)
  | release (i : ℕ)
  | done (i : ℕ)
  | cancel (err : Failure)

def probeStart (candidates : List Candidate) : Probing where
  main :=
    if candidates.length = 0 ∨ maximumCandidates < candidates.length then
      .returned (.error (.message
        ("candidate count must be between 1 and "++toString maximumCandidates)))
    else .looping 0

namespace Probing

def moved (s : Probing) (i : ℕ) (w : Worker) : Probing :=
  { s with workers := Function.update s.workers i w }

@[simp] theorem moved_workers (s : Probing) (i : ℕ) (w : Worker) :
    (s.moved i w).workers = Function.update s.workers i w := rfl

def wrote (s : Probing) (i : ℕ) (r : Result) : Probing :=
  { s with results := Function.update s.results i r }

def ended (s : Probing) (outcome : Except Failure (List Result)) : Probing :=
  { s with main := .returned outcome }

@[simp] theorem ended_workers (s : Probing) (outcome : Except Failure (List Result)) :
    (s.ended outcome).workers = s.workers := rfl

def mainStep (lib : Library) (candidates : List Candidate) (s : Probing) : Probing :=
  match s.main with
  | .looping index =>
    match candidates[index]? with
    | none => { s with main := .joining }
    | some c =>
      match validateCandidate lib c with
      | some _ => s.ended (.error (.message ("candidate "++toString index++" is invalid")))
      | none => { s with main := .looping (index+1), group := s.group+1 }.moved index (.started c)
  | .joining =>
    if s.group ≠ 0 then s
    else
      match s.ctx with
      | some err => s.ended (.error err)
      | none => s.ended (.ok (sortResults ((List.range candidates.length).map s.results)))
  | .returned _ => s

def step (lib : Library) (service : Service) (candidates : List Candidate) (s : Probing) :
    Step → Probing
  | .main => s.mainStep lib candidates
  | .acquire i =>
    match s.workers i with
    | .started value =>
      if s.semaphore < service.concurrency then
        { s with semaphore := s.semaphore+1 }.moved i (.probing (service.probe value))
      else s
    | _ => s
  | .giveUp i =>
    match s.workers i, s.ctx with
    | .started value, some _ =>
      (s.wrote i { kind := value.kind, baseURL := value.baseURL, channel := value.channel
                   message := "cancelled" }).moved i .leaving
    | _, _ => s
  | .advance i =>
    match s.workers i with
    | .probing (.done r) => (s.wrote i r).moved i .releasing
    | .probing (.call c next) =>
      { s with contacts := if c.contacts then i::s.contacts else s.contacts }.moved i
        (.calling c next)
    | _ => s
  | .answer i reply =>
    match s.workers i with
    | .calling c next => s.moved i (.probing (next (reply c)))
    | _ => s
  | .release i =>
    match s.workers i with
    | .releasing =>
      if s.semaphore = 0 then s else { s with semaphore := s.semaphore-1 }.moved i .leaving
    | _ => s
  | .done i =>
    match s.workers i with
    | .leaving => { s with group := s.group-1 }.moved i .ended
    | _ => s
  | .cancel err => { s with ctx := s.ctx.or (some err) }

end Probing

section Workers

variable {service : Service} {candidates : List Candidate}

theorem probe_returns (service : Service) (c : Candidate) :
    (service.probe c).Returns fun r => r.target = c.target := by
  unfold Service.probe
  dsimp only
  split
  · rintro (_ | status)
    · exact rfl
    · rintro (_ | configuration)
      · exact rfl
      · exact rfl
  · split_ifs
    · rintro (_ | snapshot)
      · exact rfl
      · exact rfl
    · exact rfl
    · rintro (_ | token)
      · exact rfl
      · rintro (_ | snapshot)
        · exact rfl
        · exact rfl
  · exact rfl

/-- A worker for the candidate, with the result at its position. -/
def Worker.Fits (c : Candidate) (r : Result) : Worker → Prop
  | absent => True
  | started value => value = c
  | probing p => p.Returns fun r => r.target = c.target
  | calling _ next => ∀ a, (next a).Returns fun r => r.target = c.target
  | releasing | leaving | ended => r.target = c.target

/-- A step of the worker at a position, from `w` to `w'`. -/
structure Moved (service : Service) (s s' : Probing) (i : ℕ) (w w' : Worker) : Prop where
  before : s.workers i = w
  after : s'.workers = Function.update s.workers i w'
  runs : w.running = true
  present : w' ≠ .absent
  main : s'.main = s.main
  semaphore : s'.semaphore+w.holds.toNat = s.semaphore+w'.holds.toNat
  bounded : s.semaphore ≤ service.concurrency → s'.semaphore ≤ service.concurrency
  group : s'.group+w.running.toNat = s.group+w'.running.toNat
  results : ∀ j, j ≠ i → s'.results j = s.results j
  fits : ∀ c, w.Fits c (s.results i) → w'.Fits c (s'.results i)
  contacts : ∀ j ∈ s'.contacts, j = i ∨ j ∈ s.contacts

/-- Apart from the call itself and the context, one worker moves or none. -/
theorem step_cases (lib : Library) (service : Service) (candidates : List Candidate) (s : Probing)
    (l : Step) : l = .main ∨ (∃ err, l = .cancel err) ∨ s.step lib service candidates l = s ∨
      ∃ i w w', Moved service s (s.step lib service candidates l) i w w' := by
  cases l with
  | main => exact .inl rfl
  | cancel err => exact .inr (.inl ⟨err,rfl⟩)
  | acquire i =>
    refine .inr (.inr ?_)
    dsimp only [Probing.step]
    split
    · next value hw =>
      split_ifs with hfree
      · refine .inr ⟨i,_,_,hw,rfl,rfl,by simp,rfl,rfl,fun _ => hfree,rfl,fun _ _ => rfl,?_,
          fun _ => .inr⟩
        rintro c ⟨⟩
        exact probe_returns service value
      · exact .inl rfl
    · exact .inl rfl
  | giveUp i =>
    refine .inr (.inr ?_)
    dsimp only [Probing.step]
    split
    · next value err hw hctx =>
      refine .inr ⟨i,_,_,hw,rfl,rfl,by simp,rfl,rfl,id,rfl,
        fun j hj => Function.update_of_ne hj _ _,?_,fun _ => .inr⟩
      rintro c ⟨⟩
      simp [Worker.Fits,Probing.moved,Probing.wrote,Result.target,Candidate.target]
    · exact .inl rfl
  | advance i =>
    refine .inr (.inr ?_)
    dsimp only [Probing.step]
    split
    · next r hw =>
      refine .inr ⟨i,_,_,hw,rfl,rfl,by simp,rfl,rfl,id,rfl,
        fun j hj => Function.update_of_ne hj _ _,?_,fun _ => .inr⟩
      intro c hc
      simpa [Worker.Fits,Probing.moved,Probing.wrote] using show r.target = c.target from hc
    · next c next hw =>
      refine .inr ⟨i,_,_,hw,rfl,rfl,by simp,rfl,rfl,id,rfl,fun _ _ => rfl,fun _ hc => hc,?_⟩
      intro j hj
      dsimp only [Probing.moved] at hj
      split_ifs at hj
      · exact List.mem_cons.mp hj
      · exact .inr hj
    · exact .inl rfl
  | answer i reply =>
    refine .inr (.inr ?_)
    dsimp only [Probing.step]
    split
    · next c next hw =>
      exact .inr ⟨i,_,_,hw,rfl,rfl,by simp,rfl,rfl,id,rfl,fun _ _ => rfl,fun _ hc => hc _,
        fun _ => .inr⟩
    · exact .inl rfl
  | release i =>
    refine .inr (.inr ?_)
    dsimp only [Probing.step]
    split
    · next hw =>
      split_ifs with hempty
      · exact .inl rfl
      · exact .inr ⟨i,_,_,hw,rfl,rfl,by simp,rfl,Nat.succ_pred_eq_of_ne_zero hempty,
          (Nat.sub_le _ _).trans,rfl,fun _ _ => rfl,fun _ hc => hc,fun _ => .inr⟩
    · exact .inl rfl
  | done i =>
    refine .inr (.inr ?_)
    dsimp only [Probing.step]
    split
    · next hw =>
      refine .inr ⟨i,_,_,hw,rfl,rfl,by simp,rfl,rfl,id,?_,fun _ _ => rfl,fun _ hc => hc,
        fun _ => .inr⟩
      simp [Probing.moved,Worker.running]
    · exact .inl rfl

end Workers

section Runs

variable {lib : Library} {service : Service} {candidates : List Candidate}

def Main.Reached (candidates : List Candidate) (workers : ℕ → Worker) : Main → Prop
  | .looping index =>
    candidates.length ≤ maximumCandidates ∧ ∀ i, workers i = .absent ↔ index ≤ i
  | .joining => ∀ i, i < candidates.length → workers i ≠ .absent
  | .returned (.ok rs) => (rs.map Result.target).Perm (candidates.map Candidate.target)
  | .returned (.error _) => True

/-- What holds in every run. The counters are those of the workers, and a worker was started for the
candidate at its position after all candidates up to there were accepted. -/
structure Probing.Inv (lib : Library) (service : Service) (candidates : List Candidate)
    (s : Probing) : Prop where
  semaphore : s.semaphore = occupied Worker.holds s.workers candidates.length
  bounded : s.semaphore ≤ service.concurrency
  group : s.group = occupied Worker.running s.workers candidates.length
  placed : ∀ i, s.workers i ≠ .absent →
    ∃ c, candidates[i]? = some c ∧ (s.workers i).Fits c (s.results i)
  accepted : ∀ i, s.workers i ≠ .absent → candidates.length ≤ maximumCandidates ∧
    ∀ j, j ≤ i → ∀ c, candidates[j]? = some c → validateCandidate lib c = none
  contacted : ∀ i ∈ s.contacts, s.workers i ≠ .absent
  reached : s.main.Reached candidates s.workers

theorem start_inv (candidates : List Candidate) :
    (probeStart candidates).Inv lib service candidates where
  semaphore := (occupied_eq_zero_of_forall fun _ => rfl).symm
  bounded := Nat.zero_le _
  group := by rw [occupied_eq_zero_of_forall fun _ => rfl]; rfl
  placed i h := absurd rfl h
  accepted i h := absurd rfl h
  contacted i h := absurd h List.not_mem_nil
  reached := by
    unfold probeStart
    split_ifs with hcount
    · trivial
    · exact ⟨by omega,fun i => by simp⟩

variable {s : Probing} {i : ℕ} {w : Worker}

theorem present_update {j : ℕ} (hi : s.workers i ≠ .absent)
    (hw : w ≠ .absent) : Function.update s.workers i w j = .absent ↔ s.workers j = .absent := by
  by_cases hj : j = i
  · subst hj
    simp [hi,hw]
  · rw [Function.update_of_ne hj]

theorem present_of_running (h : w.running = true) : w ≠ .absent := by
  rintro rfl
  cases h

theorem Moved.inv {s' : Probing} {w' : Worker} (h : Moved service s s' i w w')
    (hs : s.Inv lib service candidates) : s'.Inv lib service candidates := by
  have hpresent : s.workers i ≠ .absent := present_of_running (h.before ▸ h.runs)
  obtain ⟨c,hc,hfits⟩ := hs.placed i hpresent
  have hi : i < candidates.length := (List.getElem?_eq_some_iff.mp hc).1
  have hholds := occupied_update Worker.holds s.workers hi w'
  have hruns := occupied_update Worker.running s.workers hi w'
  have hsame : ∀ j, s'.workers j = .absent ↔ s.workers j = .absent := by
    rw [h.after]
    exact fun j => present_update hpresent h.present
  rw [← h.after,h.before] at hholds hruns
  refine ⟨?_,h.bounded hs.bounded,?_,fun j hj => ?_,fun j hj => ?_,fun j hj => ?_,?_⟩
  · have hsemaphore := h.semaphore
    rw [hs.semaphore] at hsemaphore
    omega
  · have hgroup := h.group
    rw [hs.group] at hgroup
    omega
  · by_cases hji : j = i
    · subst hji
      refine ⟨c,hc,?_⟩
      rw [h.after,Function.update_self]
      exact h.fits c (h.before ▸ hfits)
    · obtain ⟨c',hc',hfits'⟩ := hs.placed j ((hsame j).not.mp hj)
      refine ⟨c',hc',?_⟩
      rw [h.after,Function.update_of_ne hji,h.results j hji]
      exact hfits'
  · exact hs.accepted j ((hsame j).not.mp hj)
  · rw [ne_eq,hsame]
    rcases h.contacts j hj with rfl | hmem
    · exact hpresent
    · exact hs.contacted j hmem
  · have hreached := hs.reached
    rw [h.main]
    unfold Main.Reached at hreached ⊢
    simpa only [hsame,ne_eq] using hreached

/-- All workers are gone when the counter of the group is zero. -/
theorem Probing.Inv.joined (hs : s.Inv lib service candidates) (h : s.group = 0)
    (hi : i < candidates.length) : (s.workers i).running = false := by
  have hzero := hs.group
  rw [h] at hzero
  exact occupied_eq_zero_iff.mp (Int.ofNat_eq_zero.mp hzero.symm) i hi

theorem sortResults_perm (results : List Result) : (sortResults results).Perm results :=
  List.mergeSort_perm _ _

theorem Probing.Inv.complete (hs : s.Inv lib service candidates)
    (hmain : s.main = .joining) (hgroup : s.group = 0) :
    ((sortResults ((List.range candidates.length).map s.results)).map Result.target).Perm
      (candidates.map Candidate.target) := by
  refine ((sortResults_perm _).map _).trans (.of_eq ?_)
  rw [List.map_map]
  refine List.ext_getElem (by simp) fun i hi _ => ?_
  have hi : i < candidates.length := by simpa using hi
  have hstarted : s.workers i ≠ .absent := by
    have hreached := hs.reached
    rw [hmain] at hreached
    exact hreached i hi
  obtain ⟨c,hc,hfits⟩ := hs.placed i hstarted
  have hgone := hs.joined hgroup hi
  obtain ⟨_,rfl⟩ := List.getElem?_eq_some_iff.mp hc
  cases hw : s.workers i with
  | absent => exact absurd hw hstarted
  | ended =>
    rw [hw] at hfits
    simpa using show (s.results i).target = _ from hfits
  | _ => simp [hw,Worker.running] at hgone

theorem started_inv (hs : s.Inv lib service candidates) {index : ℕ} {c : Candidate}
    (hmain : s.main = .looping index) (hc : candidates[index]? = some c)
    (hvalid : validateCandidate lib c = none) :
    ({ s with main := .looping (index+1), group := s.group+1 }.moved index (.started c)).Inv
      lib service candidates := by
  have hreached := hs.reached
  rw [hmain] at hreached
  obtain ⟨hcount,habsent⟩ := hreached
  have hnew : s.workers index = .absent := (habsent index).mpr le_rfl
  have hi : index < candidates.length := (List.getElem?_eq_some_iff.mp hc).1
  have hholds := occupied_update Worker.holds s.workers hi (.started c)
  have hruns := occupied_update Worker.running s.workers hi (.started c)
  rw [hnew] at hholds hruns
  refine ⟨hs.semaphore.trans hholds.symm,hs.bounded,?_,?_,?_,?_,hcount,?_⟩
  · show s.group+1 = _
    rw [hs.group]
    exact_mod_cast hruns.symm
  · refine forall_update (P := fun j (w : Worker) => w ≠ .absent →
      ∃ c, candidates[j]? = some c ∧ w.Fits c (s.results j)) index ?_ fun j _ => hs.placed j
    exact fun _ => ⟨c,hc,rfl⟩
  · refine forall_update (P := fun j (w : Worker) => w ≠ .absent →
      candidates.length ≤ maximumCandidates ∧
        ∀ k, k ≤ j → ∀ c, candidates[k]? = some c → validateCandidate lib c = none)
      index ?_ fun j _ => hs.accepted j
    intro _
    refine ⟨hcount,fun k hk c' hc' => ?_⟩
    rcases hk.lt_or_eq with hlt | rfl
    · have hstarted : s.workers k ≠ .absent := by
        rw [ne_eq,habsent]
        omega
      exact (hs.accepted k hstarted).2 k le_rfl c' hc'
    · rw [hc] at hc'
      cases hc'
      exact hvalid
  · intro j hj
    rw [Probing.moved_workers]
    by_cases hji : j = index
    · subst hji
      simp
    · rw [Function.update_of_ne hji]
      exact hs.contacted j hj
  · intro j
    rw [Probing.moved_workers]
    by_cases hji : j = index
    · subst hji
      simp
    · rw [Function.update_of_ne hji,habsent]
      omega

theorem mainStep_inv (hs : s.Inv lib service candidates) :
    (s.mainStep lib candidates).Inv lib service candidates := by
  have hreached := hs.reached
  unfold Probing.mainStep
  cases hmain : s.main with
  | looping index =>
    rw [hmain] at hreached
    obtain ⟨hcount,habsent⟩ := hreached
    dsimp only
    cases hc : candidates[index]? with
    | none =>
      refine { hs with reached := fun i hi => ?_ }
      rw [List.getElem?_eq_none_iff] at hc
      rw [ne_eq,habsent]
      omega
    | some c =>
      dsimp only
      cases hvalid : validateCandidate lib c with
      | some err => exact { hs with reached := trivial }
      | none => exact started_inv hs hmain hc hvalid
  | joining =>
    dsimp only
    split_ifs with hgroup
    · exact hs
    · push Not at hgroup
      cases s.ctx with
      | some err => exact { hs with reached := trivial }
      | none => exact { hs with reached := hs.complete hmain hgroup }
  | returned outcome => exact hs

theorem step_inv (s : Probing) (l : Step) (hs : s.Inv lib service candidates) :
    (s.step lib service candidates l).Inv lib service candidates := by
  rcases step_cases lib service candidates s l with rfl | ⟨err,rfl⟩ | hsame | ⟨i,w,w',hmoved⟩
  · exact mainStep_inv hs
  · exact { hs with }
  · rwa [hsame]
  · exact hmoved.inv hs

theorem run_inv (lib : Library) (service : Service) (candidates : List Candidate)
    (steps : List Step) :
    (run (Probing.step lib service candidates) (probeStart candidates) steps).Inv lib service
      candidates :=
  invariant_always step_inv (start_inv candidates) steps

def FirstDecides (lib : Library) (candidates : List Candidate) : Prop :=
  candidates.length ≤ maximumCandidates →
    (∀ c ∈ candidates.head?, validateCandidate lib c = none) →
    ∀ c ∈ candidates, validateCandidate lib c = none

def Probing.Quiet (s : Probing) : Prop :=
  ∀ outcome, s.main = .returned outcome → ∀ i, (s.workers i).running = false

/-- Where the first candidate decides, a worker is started only if all candidates are accepted. -/
theorem Probing.Inv.all_accepted (hs : s.Inv lib service candidates)
    (hfirst : FirstDecides lib candidates) (hi : s.workers i ≠ .absent) :
    ∀ c ∈ candidates, validateCandidate lib c = none := by
  obtain ⟨hcount,haccepted⟩ := hs.accepted i hi
  refine hfirst hcount fun c hc => ?_
  rw [List.head?_eq_getElem?] at hc
  exact haccepted 0 (Nat.zero_le i) c hc

theorem Probing.Inv.joined_all (hs : s.Inv lib service candidates)
    (h : s.group = 0) (i : ℕ) : (s.workers i).running = false := by
  refine Bool.eq_false_of_not_eq_true fun hruns => ?_
  obtain ⟨c,hc,_⟩ := hs.placed i (present_of_running hruns)
  rw [hs.joined h (List.getElem?_eq_some_iff.mp hc).1] at hruns
  cases hruns

theorem mainStep_quiet (hfirst : FirstDecides lib candidates) (hs : s.Inv lib service candidates)
    (hquiet : s.Quiet) : (s.mainStep lib candidates).Quiet := by
  unfold Probing.mainStep
  cases hmain : s.main with
  | looping index =>
    dsimp only
    cases hc : candidates[index]? with
    | none => rintro _ ⟨⟩
    | some c =>
      dsimp only
      cases hvalid : validateCandidate lib c with
      | none => rintro _ ⟨⟩
      | some err =>
        intro _ _ i
        refine Bool.eq_false_of_not_eq_true fun hruns => ?_
        have hall := hs.all_accepted hfirst (present_of_running hruns) c (List.mem_of_getElem? hc)
        rw [hall] at hvalid
        cases hvalid
  | joining =>
    dsimp only
    split_ifs with hgroup
    · exact hquiet
    · have hgone := hs.joined_all (not_not.mp hgroup)
      cases s.ctx <;> exact fun _ _ => hgone
  | returned outcome => exact hquiet

theorem step_quiet (hfirst : FirstDecides lib candidates) {l : Step}
    (hs : s.Inv lib service candidates) (hquiet : s.Quiet) :
    (s.step lib service candidates l).Quiet := by
  rcases step_cases lib service candidates s l with rfl | ⟨err,rfl⟩ | hsame | ⟨i,w,w',hmoved⟩
  · exact mainStep_quiet hfirst hs hquiet
  · exact hquiet
  · rwa [hsame]
  · intro outcome houtcome
    rw [hmoved.main] at houtcome
    have hgone := hquiet outcome houtcome i
    rw [hmoved.before,hmoved.runs] at hgone
    cases hgone

theorem run_quiet (hfirst : FirstDecides lib candidates) (steps : List Step) :
    (run (Probing.step lib service candidates) (probeStart candidates) steps).Quiet := by
  refine (invariant_always (I := fun s : Probing => s.Inv lib service candidates ∧ s.Quiet)
    (fun s l hs => ?_) ⟨start_inv candidates,fun _ _ _ => rfl⟩ steps).2
  exact ⟨step_inv s l hs.1,step_quiet hfirst hs.1 hs.2⟩

/-- What is expected of a state of a call: after it has returned no worker runs; nothing is
contacted if a candidate is refused; its results are one for each candidate; and never are more
candidates probed at once than the service allows. -/
structure Probing.Sound (lib : Library) (service : Service) (candidates : List Candidate)
    (s : Probing) : Prop where
  quiet : ∀ outcome, s.main = .returned outcome → ∀ i, (s.workers i).running = false
  untouched : (∃ c ∈ candidates, validateCandidate lib c ≠ none) → s.contacts = []
  complete : ∀ rs, s.main = .returned (.ok rs) →
    (rs.map Result.target).Perm (candidates.map Candidate.target)
  bounded : ∀ positions : Finset ℕ, (∀ i ∈ positions, (s.workers i).probes = true) →
    positions.card ≤ service.concurrency

theorem holds_of_probes (h : w.probes = true) : w.holds = true := by
  cases w with
  | probing p => rfl
  | calling c next => rfl
  | _ => cases h

theorem Probing.Inv.probing_le (hs : s.Inv lib service candidates) {positions : Finset ℕ}
    (h : ∀ i ∈ positions, (s.workers i).probes = true) : positions.card ≤ service.concurrency := by
  refine (card_le_occupied fun i hi => ?_).trans (hs.semaphore ▸ hs.bounded)
  have hstarted : s.workers i ≠ .absent := by
    intro habsent
    have hprobes := h i hi
    rw [habsent] at hprobes
    cases hprobes
  obtain ⟨c,hc,_⟩ := hs.placed i hstarted
  exact ⟨(List.getElem?_eq_some_iff.mp hc).1,holds_of_probes (h i hi)⟩

theorem run_sound (hfirst : FirstDecides lib candidates) (steps : List Step) :
    (run (Probing.step lib service candidates) (probeStart candidates) steps).Sound lib service
      candidates := by
  have hs := run_inv lib service candidates steps
  refine ⟨run_quiet hfirst steps,?_,?_,fun positions => hs.probing_le⟩
  · rintro ⟨c,hc,hrefused⟩
    rw [List.eq_nil_iff_forall_not_mem]
    exact fun i hi => hrefused (hs.all_accepted hfirst (hs.contacted i hi) c hc)
  · intro rs hrs
    have hreached := hs.reached
    rw [hrs] at hreached
    exact hreached

/-- The call alone starts a worker for every candidate up to the first that it refuses. -/
theorem main_steps (service : Service) (hcount : candidates.length ≤ maximumCandidates) {k : ℕ}
    (hk : k < candidates.length)
    (haccepted : ∀ j, j < k → ∀ c, candidates[j]? = some c → validateCandidate lib c = none) :
    let s := run (Probing.step lib service candidates) (probeStart candidates)
      (List.replicate k .main)
    s.main = .looping k ∧ ∀ i, i < k → (s.workers i).running = true := by
  induction k with
  | zero =>
    have hrange : ¬ (candidates.length = 0 ∨ maximumCandidates < candidates.length) := by omega
    exact ⟨if_neg hrange,by simp⟩
  | succ k ih =>
    obtain ⟨hmain,hruns⟩ := ih (by omega) fun j hj => haccepted j (by omega)
    have hc : candidates[k]? = some candidates[k] := List.getElem?_eq_getElem (by omega)
    have hvalid := haccepted k (by omega) _ hc
    rw [List.replicate_succ',run_append,run_cons,run_nil]
    simp only [Probing.step,Probing.mainStep,hmain,hc,hvalid]
    refine ⟨rfl,fun i hi => ?_⟩
    rw [Probing.moved_workers]
    by_cases hik : i = k
    · subst hik
      rw [Function.update_self]
      rfl
    · rw [Function.update_of_ne hik]
      exact hruns i (by omega)

/-- Every run of a call is as expected if and only if no candidate is refused after one was
accepted. -/
theorem probe_sound_iff (lib : Library) (service : Service) (candidates : List Candidate) :
    (∀ steps, (run (Probing.step lib service candidates) (probeStart candidates) steps).Sound lib
      service candidates) ↔ FirstDecides lib candidates := by
  refine ⟨fun hsound hcount hhead => ?_,run_sound⟩
  by_contra hrefused
  push Not at hrefused
  have hsome : ∃ j : ℕ, ∃ c, candidates[j]? = some c ∧ validateCandidate lib c ≠ none := by
    obtain ⟨c,hc,hinvalid⟩ := hrefused
    obtain ⟨j,hj⟩ := List.mem_iff_getElem?.mp hc
    exact ⟨j,c,hj,hinvalid⟩
  classical
  obtain ⟨c,hc,hinvalid⟩ := Nat.find_spec hsome
  have hbefore : ∀ j, j < Nat.find hsome → ∀ c, candidates[j]? = some c →
      validateCandidate lib c = none := by
    intro j hj c hc
    by_contra hinvalid
    exact Nat.find_min hsome hj ⟨c,hc,hinvalid⟩
  have hpos : 0 < Nat.find hsome := by
    rw [Nat.pos_iff_ne_zero]
    intro hzero
    rw [hzero,← List.head?_eq_getElem?] at hc
    exact hinvalid (hhead c hc)
  obtain ⟨hmain,hruns⟩ := main_steps service hcount
    (List.getElem?_eq_some_iff.mp hc).1 hbefore
  obtain ⟨err,herr⟩ := Option.ne_none_iff_exists'.mp hinvalid
  have hquiet := (hsound (List.replicate (Nat.find hsome) .main++[.main])).quiet
  rw [run_append,run_cons,run_nil] at hquiet
  simp only [Probing.step,Probing.mainStep,hmain,hc,herr] at hquiet
  have hgone := hquiet _ rfl 0
  rw [Probing.ended_workers,hruns 0 hpos] at hgone
  cases hgone

section Samples

def sampleLibrary : Library where
  trimSpace := id
  parseURL text :=
    if text = "http://plug.local" then some ⟨"http","plug.local",false,"",""⟩
    else if text = "http://example.com" then some ⟨"http","example.com",false,"",""⟩
    else none
  hostname := Shelly.URL.host
  toLower := id
  parseIP _ := none
  clean := id

def sampleService : Service := ⟨4,by decide,false⟩

def mixedCandidates : List Candidate :=
  [⟨.shelly,"http://plug.local",0,""⟩,⟨.shelly,"http://example.com",0,""⟩]

/-- The plug is asked for its status, and then the call returns, while its worker waits for the
answer. -/
theorem mixedCandidates_contacted :
    let s := run (Probing.step sampleLibrary sampleService mixedCandidates)
      (probeStart mixedCandidates) [.main,.acquire 0,.advance 0,.main]
    s.main = .returned (.error (.message "candidate 1 is invalid")) ∧
      (s.workers 0).running = true ∧ s.contacts = [0] ∧
      ¬ s.Sound sampleLibrary sampleService mixedCandidates := by
  refine ⟨rfl,rfl,rfl,fun hsound => ?_⟩
  have hgone := hsound.quiet _ rfl 0
  cases hgone

end Samples

end Runs

end Discovery
end AquaOS
