import AquaOS.Table
import AquaOS.Timeline
import AquaOS.TokenBucket
import AquaOS.Transition

/-! The limiters of requests of the administration and of the interface: a token bucket a client,
and a table of clients from which the oldest is deleted when it is full. Tokens are exact here; the
order in which a map is iterated is an answer of the environment. -/
namespace AquaOS
namespace Limits

open Timeline Transition

abbrev Clients := Table String (Bucket ℤ ℚ)

/-- `requestLimiter` of the administration and `rateLimiter` of the interface. -/
structure Limiter where
  rate : ℚ
  burst : ℚ
  maximum : ℤ
  clients : Clients := ∅

/-- The constructor of the administration. -/
def newRequestLimiter (rate burst maximum : ℤ) : Limiter :=
  { rate := rate, burst := burst, maximum := maximum }

/-- The constructor of the interface. -/
def newRateLimiter (rate burst : ℤ) : Limiter :=
  { rate := if rate < 1 then 1 else rate, burst := if burst < 1 then 1 else burst, maximum := 1024 }

/-- An order in which a map is iterated. -/
structure Iteration where
  order : Clients → List (Σ _ : String, Bucket ℤ ℚ)
  perm : ∀ clients, (order clients).Perm clients.entries

structure Call where
  key : String
  now : ℤ
  iteration : Iteration

def seconds (d : ℤ) : ℚ := d/1000000000

/-- What comes into a bucket between two instants. -/
def gain (rate : ℚ) (updated now : ℤ) : ℚ := seconds (sub now updated)*rate

/-- The loop that looks for the oldest client; no key stands for none found yet. -/
def older (found : String × ℤ) (e : Σ _ : String, Bucket ℤ ℚ) : String × ℤ :=
  if found.1 = "" ∨ e.2.updated < found.2 then (e.1,e.2.updated) else found

def oldestKey (order : List (Σ _ : String, Bucket ℤ ℚ)) : String := (order.foldl older ("",0)).1

/-- The clients when there is room for another one. -/
def Limiter.makeRoom (l : Limiter) (iteration : Iteration) : Clients :=
  if l.maximum ≤ l.clients.keys.length then l.clients.erase (oldestKey (iteration.order l.clients))
  else l.clients

def Limiter.allow (l : Limiter) (c : Call) : Bool × Limiter :=
  match l.clients.lookup c.key with
  | none =>
    (true,{ l with clients := (l.makeRoom c.iteration).insert c.key ⟨l.burst-1,c.now⟩ })
  | some b =>
    ((b.take l.burst (gain l.rate) c.now).1,
      { l with clients := l.clients.insert c.key (b.take l.burst (gain l.rate) c.now).2 })

/-- The key that a call deletes. -/
def Limiter.evicted (l : Limiter) (c : Call) : Option String :=
  if l.clients.lookup c.key = none ∧ l.maximum ≤ l.clients.keys.length then
    some (oldestKey (c.iteration.order l.clients))
  else none

structure Entry where
  key : String
  now : ℤ
  allowed : Bool
  evicted : Option String

structure Traffic where
  limiter : Limiter
  log : List Entry := []

def Traffic.step (s : Traffic) (c : Call) : Traffic :=
  ⟨(s.limiter.allow c).2,s.log++[⟨c.key,c.now,(s.limiter.allow c).1,s.limiter.evicted c⟩]⟩

section Oldest

theorem older_mem (found : String × ℤ) (order : List (Σ _ : String, Bucket ℤ ℚ)) :
    (order.foldl older found).1 ∈ found.1::order.map Sigma.fst := by
  induction order generalizing found with
  | nil => exact List.mem_cons_self
  | cons e order ih =>
    have hrest := ih (older found e)
    rw [List.foldl_cons,List.map_cons]
    rcases List.mem_cons.mp hrest with heq | hmem
    · rw [heq,older]
      split_ifs <;> simp
    · exact List.mem_cons_of_mem _ (List.mem_cons_of_mem _ hmem)

/-- A full table has an oldest client, which is in it. -/
theorem oldestKey_mem {clients : Clients} (iteration : Iteration) (h : clients.keys ≠ []) :
    oldestKey (iteration.order clients) ∈ clients := by
  have hperm := iteration.perm clients
  cases horder : iteration.order clients with
  | nil =>
    rw [horder] at hperm
    exact absurd (by rw [AList.keys,List.keys,List.nil_perm.mp hperm]; rfl) h
  | cons e order =>
    have hmem := older_mem (older ("",0) e) order
    rw [AList.mem_keys,AList.keys,List.keys,← (hperm.map Sigma.fst).mem_iff,horder]
    exact hmem

end Oldest

section Table

variable {l : Limiter} {c : Call} {key : String} {b : Bucket ℤ ℚ} {rate : ℚ} {updated now : ℤ}

theorem insert_keys_length (clients : Clients) (key : String) (b : Bucket ℤ ℚ) :
    (clients.insert key b).keys.length =
      if key ∈ clients then clients.keys.length else clients.keys.length+1 := by
  rw [AList.keys_insert,List.length_cons]
  split_ifs with h
  · rw [List.length_erase_of_mem (AList.mem_keys.mp h)]
    have hpos := List.length_pos_of_mem (AList.mem_keys.mp h)
    omega
  · rw [List.erase_of_not_mem fun hmem => h (AList.mem_keys.mpr hmem)]

structure Limiter.Set (l : Limiter) : Prop where
  rate : 0 ≤ l.rate
  burst : 1 ≤ l.burst
  maximum : 1 ≤ l.maximum

/-- What holds of a limiter by an instant. -/
structure Limiter.Sound (l : Limiter) (clock : ℤ) : Prop extends l.Set where
  bounded : l.clients.keys.length ≤ l.maximum
  buckets : ∀ key b, l.clients.lookup key = some b → b.Within l.burst ∧ b.updated ≤ clock

theorem makeRoom_length (h : l.Set) (hbounded : l.clients.keys.length ≤ l.maximum)
    (iteration : Iteration) : (l.makeRoom iteration).keys.length+1 ≤ l.maximum := by
  unfold Limiter.makeRoom
  split_ifs with hfull
  · have hmax := h.maximum
    have hne : l.clients.keys ≠ [] := by
      rintro hnil
      rw [hnil] at hfull
      simp at hfull
      omega
    have hmem := AList.mem_keys.mp (oldestKey_mem iteration hne)
    rw [AList.keys_erase,List.length_erase_of_mem hmem]
    have hpos := List.length_pos_of_mem hmem
    omega
  · omega

theorem makeRoom_lookup {iteration : Iteration}
    (h : (l.makeRoom iteration).lookup key = some b) : l.clients.lookup key = some b := by
  unfold Limiter.makeRoom at h
  split_ifs at h
  · by_cases heq : key = oldestKey (iteration.order l.clients)
    · rw [heq,AList.lookup_erase] at h
      cases h
    · rwa [AList.lookup_erase_ne heq] at h
  · exact h

theorem gain_nonneg (hrate : 0 ≤ rate) (h : updated ≤ now) : 0 ≤ gain rate updated now := by
  have hsub : 0 ≤ sub now updated := by
    unfold sub minDuration maxDuration
    omega
  unfold gain seconds
  positivity

theorem gain_le (hrate : 0 ≤ rate) (h : updated ≤ now) :
    gain rate updated now ≤ seconds now*rate-seconds updated*rate := by
  have hsub : sub now updated ≤ now-updated := by
    unfold sub minDuration maxDuration
    omega
  have hcast : ((sub now updated : ℤ) : ℚ) ≤ now-updated := by exact_mod_cast hsub
  unfold gain seconds
  rw [← sub_mul,← sub_div]
  gcongr

theorem allow_new (h : l.clients.lookup c.key = none) : l.allow c =
    (true,{ l with clients := (l.makeRoom c.iteration).insert c.key ⟨l.burst-1,c.now⟩ }) := by
  rw [Limiter.allow,h]

theorem allow_known (h : l.clients.lookup c.key = some b) : l.allow c =
    ((b.take l.burst (gain l.rate) c.now).1,
      { l with clients := l.clients.insert c.key (b.take l.burst (gain l.rate) c.now).2 }) := by
  rw [Limiter.allow,h]

theorem allow_lookup (hne : key ≠ c.key) (hkept : l.evicted c ≠ some key) :
    (l.allow c).2.clients.lookup key = l.clients.lookup key := by
  cases hkey : l.clients.lookup c.key with
  | none =>
    rw [allow_new hkey,AList.lookup_insert_ne hne,Limiter.makeRoom]
    split_ifs with hfull
    · rw [Limiter.evicted,if_pos ⟨hkey,hfull⟩] at hkept
      exact AList.lookup_erase_ne fun heq => hkept (congrArg some heq.symm)
    · rfl
  | some b => rw [allow_known hkey,AList.lookup_insert_ne hne]

theorem allow_set (l : Limiter) (c : Call) : (l.allow c).2.rate = l.rate ∧
    (l.allow c).2.burst = l.burst ∧ (l.allow c).2.maximum = l.maximum := by
  cases hkey : l.clients.lookup c.key with
  | none => simp [allow_new hkey]
  | some b => simp [allow_known hkey]

theorem allow_sound {clock : ℤ} (h : l.Sound clock) (hclock : clock ≤ c.now) :
    (l.allow c).2.Sound c.now := by
  have hburst := h.burst
  cases hkey : l.clients.lookup c.key with
  | none =>
    rw [allow_new hkey]
    refine ⟨⟨h.rate,hburst,h.maximum⟩,?_,?_⟩
    · have hroom := makeRoom_length h.toSet h.bounded c.iteration
      rw [insert_keys_length]
      split_ifs <;> push_cast <;> omega
    · refine Table.forall_insert ⟨⟨?_,?_⟩,le_rfl⟩ fun key b hb => ?_
      · exact sub_nonneg.mpr hburst
      · exact sub_le_self _ zero_le_one
      · obtain ⟨hwithin,hupdated⟩ := h.buckets key b (makeRoom_lookup hb)
        exact ⟨hwithin,hupdated.trans hclock⟩
  | some b =>
    obtain ⟨hwithin,hupdated⟩ := h.buckets c.key b hkey
    rw [allow_known hkey]
    refine ⟨⟨h.rate,hburst,h.maximum⟩,?_,?_⟩
    · rw [insert_keys_length,if_pos (Table.mem_of_lookup hkey)]
      exact h.bounded
    · refine Table.forall_insert ⟨?_,Bucket.take_updated.le⟩ fun key b' hb' => ?_
      · exact Bucket.take_within hwithin (gain_nonneg h.rate (hupdated.trans hclock))
          (zero_le_one.trans hburst)
      · obtain ⟨hwithin',hupdated'⟩ := h.buckets key b' hb'
        exact ⟨hwithin',hupdated'.trans hclock⟩

end Table

section Windows

variable {l : Limiter} {calls : List Call}

/-- The calls of a window in which a key was let through. -/
def Entry.Counted (key : String) (a b : ℤ) (e : Entry) : Prop :=
  e.key = key ∧ e.allowed = true ∧ a ≤ e.now ∧ e.now ≤ b

instance (key : String) (a b : ℤ) : DecidablePred (Entry.Counted key a b) :=
  fun e => inferInstanceAs (Decidable (e.key = key ∧ e.allowed = true ∧ a ≤ e.now ∧ e.now ≤ b))

/-- How many calls of a key were allowed in a window. -/
def Traffic.allowed (s : Traffic) (key : String) (a b : ℤ) : ℕ :=
  s.log.countP (Entry.Counted key a b)

theorem run_snoc (s : Traffic) (calls : List Call) (c : Call) :
    run Traffic.step s (calls++[c]) = (run Traffic.step s calls).step c := by
  rw [run_append,run_cons,run_nil]

theorem settings_run (s : Traffic) (calls : List Call) :
    (run Traffic.step s calls).limiter.rate = s.limiter.rate ∧
      (run Traffic.step s calls).limiter.burst = s.limiter.burst ∧
      (run Traffic.step s calls).limiter.maximum = s.limiter.maximum := by
  refine invariant_always (I := fun s' : Traffic => s'.limiter.rate = s.limiter.rate ∧
    s'.limiter.burst = s.limiter.burst ∧ s'.limiter.maximum = s.limiter.maximum) ?_
    ⟨rfl,rfl,rfl⟩ calls
  rintro s' c ⟨hrate,hburst,hmaximum⟩
  obtain ⟨hrate',hburst',hmaximum'⟩ := allow_set s'.limiter c
  exact ⟨hrate'.trans hrate,hburst'.trans hburst,hmaximum'.trans hmaximum⟩

variable {clock a b : ℤ} {s : Traffic} {c : Call} {key : String}

/-- Calls in the order of time keep a limiter sound. -/
theorem sound_run (hset : l.Set) (hempty : l.clients = ∅)
    (hordered : calls.Pairwise fun c c' => c.now ≤ c'.now)
    (hclock : ∀ c ∈ calls, c.now ≤ clock) : (run Traffic.step ⟨l,[]⟩ calls).limiter.Sound clock := by
  induction calls using List.reverseRecOn generalizing clock with
  | nil =>
    refine ⟨hset,?_,?_⟩
    · have hmax := hset.maximum
      rw [run_nil,hempty]
      simp
      omega
    · intro key b hb
      rw [run_nil,hempty] at hb
      simp at hb
  | append_singleton calls c ih =>
    obtain ⟨hbefore,-,hlast⟩ := List.pairwise_append.mp hordered
    have hsound := ih hbefore fun c' hc' => hlast c' hc' c (by simp)
    rw [run_snoc]
    have hstep := allow_sound hsound (le_refl c.now)
    exact ⟨hstep.toSet,hstep.bounded,fun key b hb =>
      ⟨(hstep.buckets key b hb).1,(hstep.buckets key b hb).2.trans (hclock c (by simp))⟩⟩

theorem allowed_step (s : Traffic) (c : Call) (key : String) (a b : ℤ) :
    (s.step c).allowed key a b = s.allowed key a b+
      if c.key = key ∧ (s.limiter.allow c).1 = true ∧ a ≤ c.now ∧ c.now ≤ b then 1 else 0 := by
  rw [Traffic.allowed,Traffic.step,List.countP_append,List.countP_singleton,Traffic.allowed]
  congr 1
  exact if_congr decide_eq_true_iff rfl rfl

/-- No call of a window evicts the key. -/
def Traffic.Keeps (s : Traffic) (key : String) (a b : ℤ) : Prop :=
  ∀ e ∈ s.log, a ≤ e.now → e.now ≤ b → e.evicted ≠ some key

instance (s : Traffic) (key : String) (a b : ℤ) : Decidable (s.Keeps key a b) :=
  inferInstanceAs (Decidable (∀ e ∈ s.log, a ≤ e.now → e.now ≤ b → e.evicted ≠ some key))

theorem Traffic.Keeps.before (h : (s.step c).Keeps key a b) : s.Keeps key a b :=
  fun e he => h e (List.mem_append_left _ he)

theorem Traffic.Keeps.last (h : (s.step c).Keeps key a b) (ha : a ≤ c.now) (hb : c.now ≤ b) :
    s.limiter.evicted c ≠ some key :=
  h _ (List.mem_append_right _ (List.mem_singleton.mpr rfl)) ha hb

/-- What was allowed since the beginning of a window is covered by the bucket of the key. -/
def Traffic.Covered (s : Traffic) (key : String) (a b : ℤ) : Prop :=
  s.allowed key a b = 0 ∨ ∃ bucket, s.limiter.clients.lookup key = some bucket ∧
    a ≤ bucket.updated ∧ bucket.Covers s.limiter.burst (fun t => seconds t*s.limiter.rate) a
      (s.allowed key a b)

theorem covered_call (hsound : s.limiter.Sound clock) (hclock : clock ≤ c.now)
    (hcovered : s.Covered c.key a b) (ha : a ≤ c.now) (hb : c.now ≤ b) :
    ∃ bucket, (s.limiter.allow c).2.clients.lookup c.key = some bucket ∧ a ≤ bucket.updated ∧
      bucket.Covers s.limiter.burst (fun t => seconds t*s.limiter.rate) a
        ((s.allowed c.key a b+if c.key = c.key ∧ (s.limiter.allow c).1 = true ∧ a ≤ c.now ∧
          c.now ≤ b then 1 else 0 : ℕ) : ℚ) := by
  have hlevel : seconds a*s.limiter.rate ≤ seconds c.now*s.limiter.rate := by
    have hcast : (a : ℚ) ≤ c.now := by exact_mod_cast ha
    have hrate := hsound.rate
    unfold seconds
    gcongr
  have hcount : ((s.allowed c.key a b+if c.key = c.key ∧ (s.limiter.allow c).1 = true ∧ a ≤ c.now ∧
      c.now ≤ b then 1 else 0 : ℕ) : ℚ) =
        (s.allowed c.key a b : ℚ)+if (s.limiter.allow c).1 then 1 else 0 := by
    simp [ha,hb]
  rw [hcount]
  cases hlookup : s.limiter.clients.lookup c.key with
  | none =>
    have hzero : s.allowed c.key a b = 0 := by
      rcases hcovered with hzero | ⟨bucket,hbucket,-⟩
      · exact hzero
      · rw [hlookup] at hbucket
        cases hbucket
    rw [allow_new hlookup,hzero]
    refine ⟨_,AList.lookup_insert _,ha,?_⟩
    unfold Bucket.Covers
    simp only [if_true,Nat.cast_zero]
    linarith
  | some bucket =>
    have hupdated := (hsound.buckets c.key bucket hlookup).2.trans hclock
    rw [allow_known hlookup]
    refine ⟨_,AList.lookup_insert _,by rw [Bucket.take_updated]; exact ha,?_⟩
    rcases hcovered with hzero | ⟨bucket',hbucket,-,hcovers⟩
    · rw [hzero,Nat.cast_zero,zero_add]
      exact Bucket.covers_first hlevel
    · obtain rfl := Option.mem_unique hlookup hbucket
      exact hcovers.take (gain_le hsound.rate hupdated)

theorem covered_step
    (hsound : s.limiter.Sound clock) (hclock : clock ≤ c.now) (hcovered : s.Covered key a b)
    (hkeeps : (s.step c).Keeps key a b) (hb : c.now ≤ b) : (s.step c).Covered key a b := by
  obtain ⟨hrate,hburst,-⟩ := allow_set s.limiter c
  unfold Traffic.Covered
  rw [allowed_step,show (s.step c).limiter = (s.limiter.allow c).2 from rfl,hrate,hburst]
  rcases Int.lt_or_le c.now a with hbefore | ha
  · rw [if_neg fun h => absurd h.2.2.1 (by omega),Nat.add_zero]
    rcases hcovered with hzero | ⟨bucket,hlookup,hupdated,-⟩
    · exact .inl hzero
    · have hpast := (hsound.buckets key bucket hlookup).2
      omega
  · by_cases hkey : c.key = key
    · subst hkey
      exact .inr (covered_call hsound hclock hcovered ha hb)
    · rw [if_neg fun h => hkey h.1,Nat.add_zero,
        allow_lookup (Ne.symm hkey) (hkeeps.last ha hb)]
      exact hcovered

theorem covered_run (hset : l.Set) (hempty : l.clients = ∅)
    (hordered : calls.Pairwise fun c c' => c.now ≤ c'.now)
    (hkeeps : (run Traffic.step ⟨l,[]⟩ calls).Keeps key a b) (hb : ∀ c ∈ calls, c.now ≤ b) :
    (run Traffic.step ⟨l,[]⟩ calls).Covered key a b := by
  induction calls using List.reverseRecOn with
  | nil => exact .inl rfl
  | append_singleton calls c ih =>
    obtain ⟨hbefore,-,hlast⟩ := List.pairwise_append.mp hordered
    rw [run_snoc] at hkeeps ⊢
    have hsound := sound_run hset hempty hbefore fun c' hc' => hlast c' hc' c (by simp)
    exact covered_step hsound le_rfl (ih hbefore hkeeps.before fun c' hc' => hb c' (by simp [hc']))
      hkeeps (hb c (by simp))

theorem allowed_le (hset : l.Set) (hempty : l.clients = ∅)
    (hordered : calls.Pairwise fun c c' => c.now ≤ c'.now) (hab : a ≤ b)
    (hkeeps : (run Traffic.step ⟨l,[]⟩ calls).Keeps key a b) :
    ((run Traffic.step ⟨l,[]⟩ calls).allowed key a b : ℚ) ≤ l.burst+l.rate*seconds (b-a) := by
  have hrate := hset.rate
  have hburst := hset.burst
  have hroom : 0 ≤ l.rate*seconds (b-a) := by
    have hcast : 0 ≤ ((b-a : ℤ) : ℚ) := by exact_mod_cast Int.sub_nonneg.mpr hab
    unfold seconds
    positivity
  induction calls using List.reverseRecOn with
  | nil =>
    simp [Traffic.allowed]
    linarith
  | append_singleton calls c ih =>
    obtain ⟨hbefore,-,hlast⟩ := List.pairwise_append.mp hordered
    rcases Int.lt_or_le b c.now with hafter | hb
    · rw [run_snoc] at hkeeps ⊢
      rw [allowed_step,if_neg fun h => absurd h.2.2.2 (by omega),Nat.add_zero]
      exact ih hbefore hkeeps.before
    · have hall : ∀ c' ∈ calls++[c], c'.now ≤ b := by
        intro c' hc'
        rcases List.mem_append.mp hc' with hmem | hmem
        · exact (hlast c' hmem c (by simp)).trans hb
        · exact List.mem_singleton.mp hmem ▸ hb
      obtain ⟨hrate',hburst',-⟩ := settings_run ⟨l,[]⟩ (calls++[c])
      have hsound := sound_run hset hempty hordered hall
      rcases covered_run hset hempty hordered hkeeps hall with hzero | ⟨bucket,hlookup,-,hcovers⟩
      · rw [hzero,Nat.cast_zero]
        linarith
      · obtain ⟨⟨hnonneg,-⟩,hupdated⟩ := hsound.buckets key bucket hlookup
        unfold Bucket.Covers at hcovers
        rw [hrate',hburst'] at hcovers
        have hcast : (bucket.updated : ℚ) ≤ b := by exact_mod_cast hupdated
        have hlevel : seconds bucket.updated*l.rate-seconds a*l.rate ≤ l.rate*seconds (b-a) :=
          calc seconds bucket.updated*l.rate-seconds a*l.rate
              = l.rate*((bucket.updated-a)/1000000000) := by
                unfold seconds
                ring
            _ ≤ l.rate*seconds (b-a) := by
                unfold seconds
                push_cast
                gcongr
        dsimp only at hcovers
        linarith

/-- A limiter answers calls in the order of time: its table stays within its maximum and every
bucket within the burst, and in a window in which a key is not evicted no more of its calls are
allowed than the burst and the rate give. -/
theorem limiter_bounded (l : Limiter) (hset : l.Set) (hempty : l.clients = ∅) (calls : List Call)
    (hordered : calls.Pairwise fun c c' => c.now ≤ c'.now) :
    (run Traffic.step ⟨l,[]⟩ calls).limiter.clients.keys.length ≤ l.maximum ∧
    (∀ key bucket, (run Traffic.step ⟨l,[]⟩ calls).limiter.clients.lookup key = some bucket →
      0 ≤ bucket.tokens ∧ bucket.tokens ≤ l.burst) ∧
    ∀ key a b, a ≤ b → (run Traffic.step ⟨l,[]⟩ calls).Keeps key a b →
      ((run Traffic.step ⟨l,[]⟩ calls).allowed key a b : ℚ) ≤ l.burst+l.rate*seconds (b-a) := by
  obtain ⟨-,hburst,hmaximum⟩ := settings_run ⟨l,[]⟩ calls
  obtain ⟨clock,hclock⟩ := Finset.exists_le (calls.map Call.now).toFinset
  have hsound := sound_run hset hempty hordered fun c hc =>
    hclock c.now (List.mem_toFinset.mpr (List.mem_map_of_mem hc))
  refine ⟨hmaximum ▸ hsound.bounded,fun key bucket hlookup => ?_,
    fun key a b hab hkeeps => allowed_le hset hempty hordered hab hkeeps⟩
  have hwithin := (hsound.buckets key bucket hlookup).1
  rwa [hburst] at hwithin

theorem newRequestLimiter_set {rate burst maximum : ℤ} (hrate : 0 ≤ rate) (hburst : 1 ≤ burst)
    (hmaximum : 1 ≤ maximum) : (newRequestLimiter rate burst maximum).Set :=
  ⟨show (0 : ℚ) ≤ rate by exact_mod_cast hrate,show (1 : ℚ) ≤ burst by exact_mod_cast hburst,
    hmaximum⟩

/-- The constructor of the interface raises what is too small. -/
theorem newRateLimiter_set (rate burst : ℤ) : (newRateLimiter rate burst).Set := by
  refine ⟨?_,?_,show (1 : ℤ) ≤ 1024 by decide⟩
  · unfold newRateLimiter
    dsimp only
    split_ifs with h
    · exact zero_le_one
    · exact_mod_cast (by omega : 0 ≤ rate)
  · unfold newRateLimiter
    dsimp only
    split_ifs with h
    · exact le_rfl
    · exact_mod_cast (by omega : 1 ≤ burst)

def entryOrder : Iteration := ⟨AList.entries,fun _ => List.Perm.refl _⟩

def twoCalls : List Call := [⟨"client",0,entryOrder⟩,⟨"client",500000000,entryOrder⟩]

/-- The limiter of the interface lets one of them through, and the table of the administration with
room for one client holds one. -/
theorem twoCalls_bounded :
    (run Traffic.step ⟨newRateLimiter 1 1,[]⟩ twoCalls).Keeps "client" 0 500000000 ∧
      (run Traffic.step ⟨newRateLimiter 1 1,[]⟩ twoCalls).allowed "client" 0 500000000 = 1 ∧
      ((run Traffic.step ⟨newRateLimiter 1 1,[]⟩ twoCalls).allowed "client" 0 500000000 : ℚ) ≤
        1+1*seconds 500000000 ∧
      (run Traffic.step ⟨newRequestLimiter 1 1 1,[]⟩ twoCalls).limiter.clients.keys.length ≤
        (1 : ℤ) := by
  have hordered : twoCalls.Pairwise fun c c' => c.now ≤ c'.now := by simp [twoCalls]
  have hkeeps : (run Traffic.step ⟨newRateLimiter 1 1,[]⟩ twoCalls).Keeps "client" 0 500000000 := by
    decide +kernel
  have hallowed := (limiter_bounded (newRateLimiter 1 1) (newRateLimiter_set 1 1) rfl twoCalls
    hordered).2.2 "client" 0 500000000 (by decide) hkeeps
  have hset : (newRequestLimiter 1 1 1).Set :=
    newRequestLimiter_set (by decide) (by decide) (by decide)
  exact ⟨hkeeps,by decide +kernel,by simpa [newRateLimiter] using hallowed,
    (limiter_bounded (newRequestLimiter 1 1 1) hset rfl twoCalls hordered).1⟩

end Windows

end Limits
end AquaOS
