import AquaOS.StateFeed
import AquaOS.StateEvents

/-! A whole `Set`: the commit, the round over the subscribers, and the event after the lock has
been released. An error of the event comes too late to take the rest back. -/
namespace AquaOS
namespace CanonicalState

open Domain Events Transition

def Feed.put (f : Feed) (snapshot : Snapshot) : Feed := (f.deliver snapshot).advance.advance

/-- `deliverLocked`, over the subscribers in the order of the map. -/
def deliverLocked (snapshot : Snapshot) (feeds : ℕ → Option Feed) (order : List ℕ) :
    ℕ → Option Feed :=
  order.foldl (fun feeds id => Function.update feeds id ((feeds id).map (·.put snapshot))) feeds

/-- The lock section of `Set`. -/
def Hub.commitSet (h : Hub) (now : ℤ) (order : List ℕ) (value : StateValue) : Hub :=
  { h with
    store := h.store.commit (.set value)
    feeds := deliverLocked ((h.store.commit (.set value)).snapshotLocked now) h.feeds order
    mutations := h.mutations+1 }

/-- The error of creating and publishing the event of a stored value. -/
def Outlet.failure (outlet : Outlet) (value : StateValue) : Option Failure :=
  match outlet.factory.new outlet.encoded "state" .stateChanged .info value outlet.correlationID with
  | .error err => some err
  | .ok _ => outlet.refused

def Hub.stored (h : Hub) (value : StateValue) : StateValue :=
  { value with revision := (h.store.revision+1) % 2^64 }

/-- `Set`; without a publisher there is no outlet. -/
def Hub.set (h : Hub) (ctx : Option Failure) (outlet : Option Outlet) (now : ℤ) (order : List ℕ)
    (value : StateValue) : Except Failure StateValue × Hub :=
  match ctx, value.validate with
  | some err, _ | none, some err => (.error err,h)
  | none, none =>
    match outlet.bind (·.failure (h.stored value)) with
    | some err => (.error err,h.commitSet now order value)
    | none => (.ok (h.stored value),h.commitSet now order value)

/-- The values, the revision and what every subscriber has pending. -/
def Hub.Unchanged (h h' : Hub) : Prop :=
  h'.store.values = h.store.values ∧ h'.store.revision = h.store.revision ∧
    ∀ id, (h'.feeds id).map Feed.pending = (h.feeds id).map Feed.pending

section Rounds

variable {h : Hub} {f : Feed} {snapshot : Snapshot} {feeds : ℕ → Option Feed}

/-- Feeds as a free lock leaves them: nothing is half delivered, and an update has room. -/
def Quiet (feeds : ℕ → Option Feed) : Prop :=
  ∀ id f, feeds id = some f → f.delivery = .idle ∧ 0 < f.updates.capacity

theorem quiet_of_sound (hs : h.Sound) (hround : h.round = none) : Quiet h.feeds := by
  intro id f hf
  have hk := hs.kept id f hf
  exact ⟨idle_unserved hk (by simp [hround]),hk.sound.positive⟩

theorem advance_idle (hidle : f.delivery = .idle) : f.advance = f := by
  simp [Feed.advance,hidle]

/-- The second select leaves room for the final send. -/
theorem advance_full {u : Update} (hfull : f.delivery = .full u) (hroom : 0 < f.updates.capacity) :
    ∃ u', f.advance.delivery = .taken u' ∧
      f.advance.updates.items.length < f.advance.updates.capacity ∧
      f.advance.updates.capacity = f.updates.capacity := by
  cases hr : f.updates.receive with
  | none =>
    have hempty := Channel.receive_none_iff.mp hr
    exact ⟨u,by simp [Feed.advance,hfull,hr],by simp [Feed.advance,hfull,hr,hempty,hroom],
      by simp [Feed.advance,hfull,hr]⟩
  | some got =>
    exact ⟨{ u with dropped := (got.1.dropped+1) % 2^64 },by simp [Feed.advance,hfull,hr],
      by simpa [Feed.advance,hfull,hr] using Channel.receive_room hr,
      by simpa [Feed.advance,hfull,hr] using (Channel.receive_some hr).1⟩

theorem advance_taken {u : Update} (htaken : f.delivery = .taken u)
    (hroom : f.updates.items.length < f.updates.capacity) :
    f.advance.delivery = .idle ∧ f.advance.updates.capacity = f.updates.capacity := by
  cases hs : f.updates.send u with
  | none => exact absurd (Channel.send_none_iff.mp hs) hroom.ne
  | some updates =>
    simp [Feed.advance,htaken,hs,(Channel.send_some hs).2.1]

/-- The first select either delivers, or two more operations do. -/
theorem put_cases (hidle : f.delivery = .idle) (hroom : 0 < f.updates.capacity)
    (snapshot : Snapshot) :
    ((f.deliver snapshot).delivery = .idle ∨ (f.deliver snapshot).advance.delivery ≠ .idle) ∧
      (f.put snapshot).delivery = .idle ∧ (f.put snapshot).updates.capacity = f.updates.capacity := by
  unfold Feed.put
  rcases deliver_cases f snapshot with ⟨updates,hsend,heq⟩ | heq
  · have hdelivered : (f.deliver snapshot).delivery = .idle := by rw [heq]; exact hidle
    rw [advance_idle hdelivered,advance_idle hdelivered]
    refine ⟨.inl hdelivered,hdelivered,?_⟩
    rw [heq]
    exact (Channel.send_some hsend).2.1
  · have hfull : (f.deliver snapshot).delivery = .full ⟨snapshot,0⟩ := by rw [heq]
    have hcapacity : (f.deliver snapshot).updates.capacity = f.updates.capacity := by rw [heq]
    obtain ⟨u,htaken,hfits,hsame⟩ := advance_full hfull (hcapacity ▸ hroom)
    obtain ⟨hdone,hlast⟩ := advance_taken htaken hfits
    exact ⟨.inr (by simp [htaken]),hdone,hlast.trans (hsame.trans hcapacity)⟩

theorem Quiet.put (hq : Quiet feeds) (snapshot : Snapshot) (id : ℕ) :
    Quiet (Function.update feeds id ((feeds id).map (·.put snapshot))) := by
  intro j f hf
  rcases update_cases hf with ⟨_,hput⟩ | hf
  · obtain ⟨g,hg,rfl⟩ := Option.map_eq_some_iff.mp hput
    obtain ⟨hidle,hroom⟩ := hq id g hg
    obtain ⟨_,hdone,hcapacity⟩ := put_cases hidle hroom snapshot
    exact ⟨hdone,hcapacity ▸ hroom⟩
  · exact hq j f hf

/-- The operations of the round that serve one subscriber. -/
theorem produce_serves (hq : Quiet h.feeds) (snapshot : Snapshot) (id : ℕ) (waiting : List ℕ) :
    ∃ n, Hub.produce^[n] { h with round := some ⟨snapshot,none,id::waiting⟩ } =
      { h with
        feeds := Function.update h.feeds id ((h.feeds id).map (·.put snapshot))
        round := some ⟨snapshot,none,waiting⟩ } := by
  cases hf : h.feeds id with
  | none =>
    refine ⟨2,?_⟩
    simp [Hub.produce,Hub.serve,hf]
  | some f =>
    obtain ⟨hidle,hroom⟩ := hq id f hf
    obtain ⟨hdelivered | hbusy,hdone,_⟩ := put_cases hidle hroom snapshot
    · refine ⟨2,?_⟩
      have hput : f.put snapshot = f.deliver snapshot := by
        rw [Feed.put,advance_idle hdelivered,advance_idle hdelivered]
      simp [Hub.produce,Hub.serve,hf,advance_idle hdelivered,hdelivered,hput]
    · refine ⟨3,?_⟩
      have hadvanced : ((f.deliver snapshot).advance.advance).delivery = .idle := hdone
      simp [Hub.produce,Hub.serve,hf,hbusy,hadvanced,Feed.put]

/-- A round without receivers in between is `deliverLocked`. -/
theorem produce_delivers (hq : Quiet h.feeds) (snapshot : Snapshot) (order : List ℕ) :
    ∃ n, Hub.produce^[n] { h with round := some ⟨snapshot,none,order⟩ } =
      { h with feeds := deliverLocked snapshot h.feeds order, round := none } := by
  induction order generalizing h with
  | nil => exact ⟨1,rfl⟩
  | cons id order ih =>
    obtain ⟨n,hn⟩ := produce_serves hq snapshot id order
    obtain ⟨m,hm⟩ := ih (h := { h with
      feeds := Function.update h.feeds id ((h.feeds id).map (·.put snapshot)) }) (hq.put snapshot id)
    refine ⟨m+n,?_⟩
    rw [Function.iterate_add_apply,hn]
    exact hm

theorem run_produce (h : Hub) (n : ℕ) :
    run Hub.step h (List.replicate n .produce) = Hub.produce^[n] h := by
  induction n generalizing h with
  | zero => rfl
  | succ n ih =>
    rw [List.replicate_succ,run_cons,ih]
    rfl

end Rounds

theorem set_eq_run {h : Hub} (hs : h.Sound) (hround : h.round = none) {order : List ℕ}
    (hperm : order.Perm h.subscribers) (ctx : Option Failure) (outlet : Option Outlet) (now : ℤ)
    (value : StateValue) :
    ∃ n, run Hub.step h (.mutate (.set ctx none value) now order::List.replicate n .produce) =
      (h.set ctx outlet now order value).2 := by
  by_cases hadmitted : ctx = none ∧ value.validate = none
  · obtain ⟨rfl,hvalid⟩ := hadmitted
    have hquiet := quiet_of_sound hs hround
    obtain ⟨n,hn⟩ := produce_delivers (h := { h with
      store := h.store.commit (.set value), mutations := h.mutations+1 }) hquiet
      ((h.store.commit (.set value)).snapshotLocked now) order
    have hset : (h.set none outlet now order value).2 = h.commitSet now order value := by
      simp only [Hub.set,hvalid]
      cases outlet.bind (·.failure (h.stored value)) <;> rfl
    refine ⟨n,?_⟩
    rw [run_cons,run_produce,hset]
    have hmutate : h.step (.mutate (.set none none value) now order) = { h with
        store := h.store.commit (.set value), mutations := h.mutations+1
        round := some ⟨(h.store.commit (.set value)).snapshotLocked now,none,order⟩ } := by
      simp [Hub.step,Hub.mutate,hround,StateManager.commits,hvalid,hperm]
    rw [hmutate]
    refine hn.trans ?_
    simp [Hub.commitSet,hround]
  · refine ⟨0,?_⟩
    have hmutate : h.step (.mutate (.set ctx none value) now order) = h := by
      simp [Hub.step,Hub.mutate,hround,StateManager.commits,hadmitted]
    rw [run_cons,hmutate]
    cases ctx with
    | some err => rfl
    | none =>
      cases hvalid : value.validate with
      | some err => simp [Hub.set,hvalid]
      | none => exact absurd ⟨rfl,hvalid⟩ hadmitted

/-- After every run in which the lock is free, a whole `Set` is one more run: its mutation and the
operations of its round. -/
theorem set_is_run (steps : List FeedStep) (hround : (run Hub.step {} steps).round = none)
    {order : List ℕ} (hperm : order.Perm (run Hub.step {} steps).subscribers) (ctx : Option Failure)
    (outlet : Option Outlet) (now : ℤ) (value : StateValue) :
    ∃ ms, run Hub.step {} (steps++ms) =
      ((run Hub.step {} steps).set ctx outlet now order value).2 := by
  obtain ⟨n,hn⟩ := set_eq_run (run_hub_sound steps) hround hperm ctx outlet now value
  exact ⟨_,(run_append ..).trans hn⟩

theorem subscribed_set_is_run : ∃ ms, run Hub.step {} (.subscribe none 1 0::ms) =
    ((run Hub.step {} [.subscribe none 1 0]).set none none 2 [1] (reportedSwitch true)).2 :=
  set_is_run [.subscribe none 1 0] rfl (.refl _) none none 2 (reportedSwitch true)

/-- The store of a hub answers and changes like the store by itself. -/
theorem set_store (h : Hub) (ctx : Option Failure) (outlet : Option Outlet) (now : ℤ)
    (order : List ℕ) (value : StateValue) :
    ((h.set ctx outlet now order value).1,(h.set ctx outlet now order value).2.store) =
      h.store.set ctx (outlet.bind (·.failure (h.stored value))) value := by
  unfold Hub.set StateManager.set
  cases ctx with
  | some err => rfl
  | none =>
    cases value.validate with
    | some err => rfl
    | none => cases outlet.bind (·.failure (h.stored value)) <;> rfl

/-- A commit always moves the revision, the wrap included. -/
theorem commitSet_revision (h : Hub) (now : ℤ) (order : List ℕ) (value : StateValue) :
    (h.commitSet now order value).store.revision ≠ h.store.revision := by
  have hmoves : ∀ r : ℕ, (r+1) % 2^64 ≠ r := by omega
  exact hmoves h.store.revision

/-- A `Set` that fails leaves everything as it was exactly when it does not fail by its event: it is
refused before the lock, or there is no publisher, or the event is created and published. -/
theorem failed_set_unchanged_iff (h : Hub) (ctx : Option Failure) (outlet : Option Outlet) (now : ℤ)
    (order : List ℕ) (value : StateValue) :
    (∀ err, (h.set ctx outlet now order value).1 = .error err →
      h.Unchanged (h.set ctx outlet now order value).2) ↔
    (ctx = none → value.validate = none →
      ∀ o, outlet = some o → o.failure (h.stored value) = none) := by
  cases ctx with
  | some err => simp [Hub.set,Hub.Unchanged]
  | none =>
    cases hvalid : value.validate with
    | some err => simp [Hub.set,hvalid,Hub.Unchanged]
    | none =>
      cases outlet with
      | none => simp [Hub.set,hvalid]
      | some o =>
        cases hfailure : o.failure (h.stored value) with
        | none => simp [Hub.set,hvalid,hfailure]
        | some err =>
          have hmoved := commitSet_revision h now order value
          simp [Hub.set,hvalid,hfailure,Hub.Unchanged,hmoved]

def watchedHub : Hub := (Hub.subscribe {} none 1 0).2

def fullBus : Outlet := { busyOutlet with refused := some errBackpressure }

/-- The caller is told that nothing was set, the store holds the value under a new revision, and the
subscriber has it pending in place of the update it had not read yet. -/
theorem refused_event_after_commit :
    let result := watchedHub.set none (some fullBus) 2 [1] (reportedSwitch true)
    result.1 = .error errBackpressure ∧ result.2.store.revision = 1 ∧
      result.2.store.values.lookup (reportedSwitch true).key =
        some { reportedSwitch true with revision := 1 } ∧
      (result.2.feeds 1).map (fun f => f.pending.map fun u => (u.snapshot.revision,u.dropped)) =
        some [(1,1)] ∧
      (watchedHub.feeds 1).map (fun f => f.pending.map fun u => (u.snapshot.revision,u.dropped)) =
        some [(0,0)] := by
  decide +kernel

end CanonicalState
end AquaOS
