import AquaOS.Pagination
import AquaOS.RequestLimits

/-! How the interface admits requests: an address pays for each attempt to authenticate, and the one
principal behind the bearer token for each mutation. Requests are handled at the same time, and meet
at the locks of the two limiters. -/
namespace AquaOS
namespace Api

open Domain Limits Transition

inductive Role
  | reader
  | operator
  | administrator
  | other (text : String)
  deriving DecidableEq

structure Principal where
  id : String
  roles : List Role

/-- `roleAuthorizer`. -/
def authorize (p : Principal) (required : Role) : Bool :=
  p.roles.any fun role =>
    role = .administrator || role = required || (role = .operator && required = .reader)

/-- `NewBearerAuthenticator` makes one; `trimSpace` is that of `strings`. -/
structure BearerAuthenticator where
  trimSpace : Bytes → Bytes
  token : Bytes
  principal : Principal
  long : 32 ≤ token.length
  named : trimSpace (bytes principal.id) ≠ []

def BearerAuthenticator.authenticate (a : BearerAuthenticator) (header : Bytes) : Option Principal :=
  match (bytes "Bearer ").isPrefixOf? header with
  | none => none
  | some provided => if a.trimSpace provided = a.token then some a.principal else none

/-- The routes of `registerV1`, by their handlers. -/
inductive Route
  | details | system | listDevices | getDevice | getState | getSensorState | getEquipmentState
  | submitCommand | getCommand | listAlarms | ackAlarm | validateConfig | reloadConfig | diagnostics
  deriving DecidableEq

def Route.role : Route → Role
  | .submitCommand | .ackAlarm => .operator
  | .validateConfig | .reloadConfig | .diagnostics => .administrator
  | _ => .reader

def Route.mutation : Route → Bool
  | .submitCommand | .ackAlarm | .validateConfig | .reloadConfig => true
  | _ => false

structure Request where
  route : Route
  authorization : Bytes
  remoteAddress : String

def rateLimited (detail : String) : Problem := ⟨429,"rate_limited","Too many requests",detail⟩

def authenticationRequired : Problem :=
  ⟨401,"authentication_required","Authentication required","Valid bearer credentials are required."⟩

def forbidden : Problem :=
  ⟨403,"forbidden","Forbidden","The authenticated identity lacks the required role."⟩

/-- Where `authorized` is with a request: before its mutation limit, or at its end. -/
inductive Handling
  | idle
  | admitted (x : Request) (p : Principal)
  | refused (p : Problem)
  | served

/-- What a handler was called for, and when. -/
structure Served where
  request : Request
  principal : Principal
  now : ℤ

structure Server where
  authenticator : BearerAuthenticator
  authentication : Limiter
  mutations : Traffic
  requests : ℕ → Handling := fun _ => .idle
  served : List Served := []

/-- A request arrives, or goes on to its handler. -/
inductive ServerStep
  | arrive (i : ℕ) (x : Request) (now : ℤ) (iteration : Iteration)
  | serve (i : ℕ) (now : ℤ) (iteration : Iteration)

namespace Server

def set (s : Server) (i : ℕ) (h : Handling) : Server :=
  { s with requests := Function.update s.requests i h }

/-- What `authorized` decides before the mutation limit. -/
def judge (s : Server) (x : Request) (allowed : Bool) : Handling :=
  if allowed then
    match s.authenticator.authenticate x.authorization with
    | none => .refused authenticationRequired
    | some p => if authorize p x.route.role then .admitted x p else .refused forbidden
  else .refused (rateLimited "The authentication rate limit was exceeded.")

def step (s : Server) : ServerStep → Server
  | .arrive i x now iteration =>
    match s.requests i with
    | .idle =>
      let answer := s.authentication.allow ⟨x.remoteAddress,now,iteration⟩
      { s.set i (s.judge x answer.1) with authentication := answer.2 }
    | _ => s
  | .serve i now iteration =>
    match s.requests i with
    | .admitted x p =>
      if x.route.mutation = false then { s.set i .served with served := ⟨x,p,now⟩::s.served }
      else if (s.mutations.limiter.allow ⟨p.id,now,iteration⟩).1 then
        { s.set i .served with
          mutations := s.mutations.step ⟨p.id,now,iteration⟩, served := ⟨x,p,now⟩::s.served }
      else
        { s.set i (.refused (rateLimited "The mutation rate limit was exceeded.")) with
          mutations := s.mutations.step ⟨p.id,now,iteration⟩ }
    | _ => s

/-- The calls of handlers that change something, in a window of time. -/
def mutated (s : Server) (a b : ℤ) : ℕ :=
  s.served.countP fun e => e.request.route.mutation && decide (a ≤ e.now) && decide (e.now ≤ b)

end Server

/-- The request bears the token, and the principal behind that has the role. -/
structure Admitted (a : BearerAuthenticator) (x : Request) (p : Principal) : Prop where
  authenticated : a.authenticate x.authorization = some p
  principal : p = a.principal
  authorized : authorize p x.route.role = true

theorem admitted_of_judge {s : Server} {x y : Request} {allowed : Bool} {p : Principal}
    (h : s.judge x allowed = .admitted y p) : Admitted s.authenticator y p := by
  unfold Server.judge at h
  split_ifs at h
  cases hp : s.authenticator.authenticate x.authorization with
  | none => simp [hp] at h
  | some q =>
    rw [hp] at h
    dsimp only at h
    split_ifs at h with hrole
    obtain ⟨rfl,rfl⟩ := Handling.admitted.inj h
    refine ⟨hp,?_,hrole⟩
    unfold BearerAuthenticator.authenticate at hp
    split at hp
    · cases hp
    · split_ifs at hp
      exact (Option.some.inj hp).symm

section OneClient

variable {l : Limiter} {key : String} {calls : List Call}

theorem allow_clients (l : Limiter) (c : Call) :
    ∀ k ∈ (l.allow c).2.clients, k = c.key ∨ k ∈ l.clients := by
  intro k hk
  cases hkey : l.clients.lookup c.key with
  | none =>
    rw [allow_new hkey] at hk
    refine (AList.mem_insert _).mp hk |>.imp_right fun hroom => ?_
    obtain ⟨b,hb⟩ := Option.isSome_iff_exists.mp (AList.lookup_isSome.mpr hroom)
    exact Table.mem_of_lookup (makeRoom_lookup hb)
  | some b =>
    rw [allow_known hkey] at hk
    exact (AList.mem_insert _).mp hk

/-- A limiter that is asked for one client only evicts nobody. -/
theorem one_client_keeps (hmaximum : 1 ≤ l.maximum) (hempty : l.clients = ∅)
    (hkeys : ∀ c ∈ calls, c.key = key) (a b : ℤ) :
    (run Traffic.step ⟨l,[]⟩ calls).Keeps key a b := by
  have hrun : (∀ k ∈ (run Traffic.step ⟨l,[]⟩ calls).limiter.clients, k = key) ∧
      ∀ e ∈ (run Traffic.step ⟨l,[]⟩ calls).log, e.evicted = none := by
    induction calls using List.reverseRecOn with
    | nil => simp [hempty]
    | append_singleton calls c ih =>
      obtain ⟨hclients,hlog⟩ := ih fun c' hc' => hkeys c' (List.mem_append_left _ hc')
      have hc : c.key = key := hkeys c (by simp)
      have hmax : _ = l.maximum := (settings_run ⟨l,[]⟩ calls).2.2
      rw [run_snoc]
      generalize run Traffic.step ⟨l,[]⟩ calls = s at hclients hlog hmax
      have hevicted : s.limiter.evicted c = none := by
        refine if_neg fun ⟨hnone,hfull⟩ => ?_
        have hnil : s.limiter.clients.keys = [] := by
          refine List.eq_nil_iff_forall_not_mem.mpr fun k hk => ?_
          rw [← AList.mem_keys] at hk
          rw [hc,← hclients k hk,AList.lookup_eq_none] at hnone
          exact hnone hk
        rw [hnil,hmax,List.length_nil] at hfull
        omega
      constructor
      · intro k hk
        exact (allow_clients _ _ k hk).elim (·.trans hc) (hclients k)
      · intro e he
        rcases List.mem_append.mp he with he | he
        · exact hlog e he
        · rw [List.mem_singleton.mp he]
          exact hevicted
  intro e he _ _
  simp [hrun.2 e he]

theorem log_times (calls : List Call) :
    (run Traffic.step ⟨l,[]⟩ calls).log.map Entry.now = calls.map Call.now := by
  induction calls using List.reverseRecOn with
  | nil => rfl
  | append_singleton calls c ih => simp [run_snoc,Traffic.step,ih]

end OneClient

/-- What holds in every run, with the calls of the mutation limiter. -/
structure Server.Sound (a : BearerAuthenticator) (l : Limiter) (s : Server) : Prop where
  authenticator : s.authenticator = a
  admitted : ∀ i x p, s.requests i = .admitted x p → Admitted a x p
  served : ∀ e ∈ s.served, Admitted a e.request e.principal
  traffic : ∃ calls : List Call, s.mutations = run Traffic.step ⟨l,[]⟩ calls ∧
    ∀ c ∈ calls, c.key = a.principal.id
  counted : ∀ t u, s.mutated t u = s.mutations.allowed a.principal.id t u

section Runs

variable {a : BearerAuthenticator} {l : Limiter} {s : Server} {i : ℕ} {h : Handling}

theorem requests_set (hs : s.Sound a l) (hh : ∀ x p, h = .admitted x p → Admitted a x p) :
    ∀ j x p, (s.set i h).requests j = .admitted x p → Admitted a x p := fun j x p hj =>
  (update_cases hj).elim (fun heq => hh x p heq.2) (hs.admitted j x p)

theorem limited_traffic (hs : s.Sound a l) {c : Call} (hc : c.key = a.principal.id) :
    ∃ calls : List Call, s.mutations.step c = run Traffic.step ⟨l,[]⟩ calls ∧
      ∀ c ∈ calls, c.key = a.principal.id := by
  obtain ⟨calls,hrun,hkeys⟩ := hs.traffic
  refine ⟨calls++[c],by rw [run_snoc,hrun],fun c' hc' => ?_⟩
  rcases List.mem_append.mp hc' with hc' | hc'
  · exact hkeys c' hc'
  · rw [List.mem_singleton.mp hc',hc]

theorem step_sound (s : Server) (st : ServerStep) (hs : s.Sound a l) : (s.step st).Sound a l := by
  cases st with
  | arrive i x now iteration =>
    simp only [Server.step]
    split
    · refine ⟨hs.authenticator,requests_set hs fun y p hy => ?_,hs.served,hs.traffic,hs.counted⟩
      rw [← hs.authenticator]
      exact admitted_of_judge hy
    · exact hs
  | serve i now iteration =>
    simp only [Server.step]
    split
    case h_2 => exact hs
    case h_1 x p hx =>
    have hadmitted := hs.admitted i x p hx
    obtain rfl := hadmitted.principal
    have hserved : ∀ e ∈ (⟨x,a.principal,now⟩ : Served)::s.served, Admitted a e.request e.principal :=
      List.forall_mem_cons.mpr ⟨hadmitted,hs.served⟩
    split_ifs with hread hallow
    · refine ⟨hs.authenticator,requests_set hs nofun,hserved,hs.traffic,fun t u => ?_⟩
      refine Eq.trans ?_ (hs.counted t u)
      simp [Server.mutated,hread]
    · refine ⟨hs.authenticator,requests_set hs nofun,hserved,limited_traffic hs rfl,fun t u => ?_⟩
      rw [allowed_step,← hs.counted t u]
      simp [Server.mutated,hread,hallow,List.countP_cons]
    · refine ⟨hs.authenticator,requests_set hs nofun,hs.served,limited_traffic hs rfl,fun t u => ?_⟩
      rw [allowed_step,← hs.counted t u]
      simp [Server.mutated,hallow,Server.set]

theorem run_sound (a : BearerAuthenticator) (authentication l : Limiter) (steps : List ServerStep) :
    (run Server.step ⟨a,authentication,⟨l,[]⟩,fun _ => .idle,[]⟩ steps).Sound a l :=
  invariant_always (I := Server.Sound a l) step_sound
    ⟨rfl,fun _ _ _ h => (by cases h),fun _ h => (by cases h),⟨[],rfl,fun _ h => (by cases h)⟩,
      fun _ _ => rfl⟩ steps

/-- Whatever requests come and however they interleave, a handler is called only for a request that
bears the token, for the principal behind it and with the role of the route; and of those that
change something a window of time sees no more than the burst and what the rate gives in it. -/
theorem mutations_bounded (a : BearerAuthenticator) (authentication : Limiter) (rate burst : ℤ)
    (steps : List ServerStep) {s : Server}
    (hs : s = run Server.step
      ⟨a,authentication,⟨newRateLimiter rate burst,[]⟩,fun _ => .idle,[]⟩ steps)
    (hordered : (s.mutations.log.map Entry.now).Pairwise (· ≤ ·)) :
    (∀ e ∈ s.served, Admitted a e.request e.principal) ∧
      ∀ t u, t ≤ u → (s.mutated t u : ℚ) ≤
        (newRateLimiter rate burst).burst+(newRateLimiter rate burst).rate*seconds (u-t) := by
  have hsound : s.Sound a (newRateLimiter rate burst) := hs ▸ run_sound ..
  refine ⟨hsound.served,fun t u htu => ?_⟩
  obtain ⟨calls,hrun,hkeys⟩ := hsound.traffic
  have hset := newRateLimiter_set rate burst
  rw [hrun,log_times,List.pairwise_map] at hordered
  rw [hsound.counted,hrun]
  exact allowed_le hset rfl hordered htu (one_client_keeps hset.maximum rfl hkeys t u)

def operatorToken : BearerAuthenticator where
  trimSpace := id
  token := List.replicate 32 0x61
  principal := ⟨"operator",[.operator]⟩
  long := by decide
  named := by decide

def operatorRequest : List ServerStep :=
  [.arrive 0 ⟨.submitCommand,bytes "Bearer "++operatorToken.token,"client"⟩ 0 entryOrder,
    .serve 0 0 entryOrder]

def operatorServer : Server := run Server.step
  ⟨operatorToken,newRateLimiter 1 1,⟨newRateLimiter 1 1,[]⟩,fun _ => .idle,[]⟩ operatorRequest

theorem operatorServer_bounded : operatorServer.mutated 0 1000000000 = 1 ∧
    (operatorServer.mutated 0 1000000000 : ℚ) ≤ 1+1*seconds 1000000000 := by
  refine ⟨by decide +kernel,?_⟩
  have hbound := mutations_bounded operatorToken (newRateLimiter 1 1) 1 1 operatorRequest
    (s := operatorServer) rfl (by decide +kernel)
  simpa [newRateLimiter] using hbound.2 0 1000000000 (by decide)

end Runs

end Api
end AquaOS
