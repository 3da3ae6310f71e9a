import AquaOS.StateStore
import AquaOS.Channel

/-! Subscriptions of the canonical store. A delivery is a chain of channel operations taken under
the manager's lock; receivers need no lock, so they run between any two of them. -/
namespace AquaOS
namespace CanonicalState

open Domain Transition

/-- `Update`; `dropped` counts the updates it supersedes, modulo `2^64`. -/
structure Update where
  snapshot : Snapshot
  dropped : ℕ := 0
  deriving DecidableEq

/-- How far the body of the loop in `deliverLocked` has come: the first select found the channel
full, or the second one has been passed and the final send is next. -/
inductive Delivery
  | idle
  | full (update : Update)
  | taken (update : Update)
  deriving DecidableEq

/-- The update the producer holds in its hand. -/
@[simp] def Delivery.inHand : Delivery → List Update
  | .idle => []
  | .full update | .taken update => [update]

structure Feed where
  updates : Channel Update
  delivery : Delivery := .idle
  received : List Update := []
  offered : List Snapshot
  since : ℕ
  closed : Option ℕ := none

namespace Feed

/-- The first select of a delivery. -/
def deliver (f : Feed) (snapshot : Snapshot) : Feed :=
  match f.updates.send ⟨snapshot,0⟩ with
  | some updates => { f with updates, offered := f.offered++[snapshot] }
  | none => { f with delivery := .full ⟨snapshot,0⟩, offered := f.offered++[snapshot] }

/-- The second select and the final send, which waits as long as the channel is full. -/
def advance (f : Feed) : Feed :=
  match f.delivery with
  | .idle => f
  | .full update =>
    match f.updates.receive with
    | some (previous,updates) =>
      { f with
        updates, delivery := .taken { update with dropped := (previous.dropped+1) % 2^64 } }
    | none => { f with delivery := .taken update }
  | .taken update =>
    match f.updates.send update with
    | some updates => { f with updates, delivery := .idle }
    | none => f

def receive (f : Feed) : Feed :=
  match f.updates.receive with
  | some (update,updates) => { f with updates, received := f.received++[update] }
  | none => f

def pending (f : Feed) : List Update := f.updates.items++f.delivery.inHand

def entries (f : Feed) : List Update := f.received++f.pending

end Feed

/-- A call of `deliverLocked`: the subscriber being served and those still waiting. -/
structure Round where
  snapshot : Snapshot
  serving : Option ℕ := none
  waiting : List ℕ

/-- The manager with its subscriptions; a round lasts as long as the lock is held. The channel of
a closed subscription can still be drained. -/
structure Hub where
  store : StateManager := {}
  feeds : ℕ → Option Feed := fun _ => none
  subscribers : List ℕ := []
  nextSubscriber : ℕ := 0
  round : Option Round := none
  mutations : ℕ := 0

namespace Hub

/-- A mutation takes the lock, commits and starts a round over the subscribers, which a map
lists in any order. -/
def mutate (h : Hub) (c : StateCall) (now : ℤ) (order : List ℕ) : Hub :=
  match h.round, h.store.commits c with
  | none, some commit =>
    if order.Perm h.subscribers then
      { h with
        store := h.store.commit commit
        round := some { snapshot := (h.store.commit commit).snapshotLocked now, waiting := order }
        mutations := h.mutations+1 }
    else h
  | _, _ => h

/-- One channel operation on the subscription `id`. -/
def serve (h : Hub) (id : ℕ) (operation : Feed → Feed) (round : Option Round) : Hub :=
  { h with feeds := Function.update h.feeds id ((h.feeds id).map operation), round }

/-- The next channel operation of the round, or its end. -/
def produce (h : Hub) : Hub :=
  match h.round with
  | none => h
  | some ⟨snapshot,some id,waiting⟩ =>
    let busy := (h.feeds id).any fun f => f.advance.delivery ≠ .idle
    h.serve id Feed.advance (some ⟨snapshot,if busy then some id else none,waiting⟩)
  | some ⟨snapshot,none,id::waiting⟩ =>
    h.serve id (·.deliver snapshot) (some ⟨snapshot,some id,waiting⟩)
  | some ⟨_,none,[]⟩ => { h with round := none }

def receive (h : Hub) (id : ℕ) : Hub := h.serve id Feed.receive h.round

/-- The initial snapshot is sent to an empty channel, so it fits. -/
def initial (snapshot : Snapshot) (capacity : ℤ) (h : ¬ (capacity < 1 ∨ 1024 < capacity)) :
    Channel Update :=
  ⟨capacity.toNat,[⟨snapshot,0⟩],by rw [List.length_singleton]; omega⟩

/-- A number that comes round again takes the place of the subscription that had it. -/
def subscribe (h : Hub) (ctx : Option Failure) (capacity now : ℤ) : Except Failure ℕ × Hub :=
  match ctx with
  | some err => (.error err,h)
  | none =>
    if hbad : capacity < 1 ∨ 1024 < capacity then
      (.error (.message "subscription capacity must be between 1 and 1024"),h)
    else
      let id := (h.nextSubscriber+1) % 2^64
      (.ok id,
        { h with
          feeds := Function.update h.feeds id (some
            { updates := initial (h.store.snapshotLocked now) capacity hbad
              offered := [h.store.snapshotLocked now], since := h.mutations })
          subscribers := id::h.subscribers.erase id
          nextSubscriber := id })

/-- `Close` of one subscription and `Stop` of all. -/
def shut (h : Hub) (ids : List ℕ) : Hub :=
  { h with
    feeds := fun id =>
      if id ∈ ids ∧ id ∈ h.subscribers then
        (h.feeds id).map fun f => { f with closed := some h.mutations }
      else h.feeds id
    subscribers := h.subscribers.filter (· ∉ ids) }

end Hub

inductive FeedStep
  | mutate (c : StateCall) (now : ℤ) (order : List ℕ)
  | produce
  | receive (id : ℕ)
  | subscribe (ctx : Option Failure) (capacity now : ℤ)
  | close (id : ℕ)
  | stop

def Hub.step (h : Hub) : FeedStep → Hub
  | .mutate c now order => h.mutate c now order
  | .produce => h.produce
  | .receive id => h.receive id
  | .subscribe ctx capacity now =>
    if h.round.isNone then (h.subscribe ctx capacity now).2 else h
  | .close id => if h.round.isNone then h.shut [id] else h
  | .stop => if h.round.isNone then h.shut h.subscribers else h

/-- The entries of a feed account for every snapshot it was offered: in order, the newest last, and
each standing for itself and for those it superseded, whose count goes round at `2^64`. -/
structure Feed.Sound (f : Feed) : Prop where
  positive : 0 < f.updates.capacity
  fresh : ∀ u, f.delivery = .full u → u.dropped = 0
  room : ∀ u, f.delivery = .taken u → f.updates.items.length < f.updates.capacity
  order : (f.entries.map Update.snapshot).Sublist f.offered
  newest : (f.entries.map Update.snapshot).getLast? = f.offered.getLast?
  account : ∃ turns, f.offered.length = (f.entries.map fun u => u.dropped+1).sum+2^64*turns
  started : f.offered ≠ []

section Feeds

variable {f : Feed}

theorem deliver_cases (f : Feed) (snapshot : Snapshot) :
    (∃ updates, f.updates.send ⟨snapshot,0⟩ = some updates ∧
      f.deliver snapshot = { f with updates, offered := f.offered++[snapshot] }) ∨
    f.deliver snapshot = { f with
      delivery := .full ⟨snapshot,0⟩, offered := f.offered++[snapshot] } := by
  unfold Feed.deliver
  cases hsend : f.updates.send ⟨snapshot,0⟩ with
  | some updates => exact .inl ⟨updates,rfl,rfl⟩
  | none => exact .inr rfl

theorem deliver_offered (f : Feed) (snapshot : Snapshot) :
    (f.deliver snapshot).offered = f.offered++[snapshot] ∧
    (f.deliver snapshot).since = f.since ∧ (f.deliver snapshot).closed = f.closed := by
  rcases deliver_cases f snapshot with ⟨updates,_,h⟩ | h <;> rw [h] <;> exact ⟨rfl,rfl,rfl⟩

theorem deliver_entries (hidle : f.delivery = .idle) (snapshot : Snapshot) :
    (f.deliver snapshot).entries = f.entries++[⟨snapshot,0⟩] := by
  rcases deliver_cases f snapshot with ⟨updates,hsend,h⟩ | h
  · obtain ⟨_,_,hitems⟩ := Channel.send_some hsend
    simp [h,Feed.entries,Feed.pending,hidle,hitems]
  · simp [h,Feed.entries,Feed.pending,hidle]

theorem deliver_sound (h : f.Sound) (hidle : f.delivery = .idle) (snapshot : Snapshot) :
    (f.deliver snapshot).Sound := by
  have hentries := deliver_entries hidle snapshot
  have hoffered := (deliver_offered f snapshot).1
  refine ⟨?_,?_,?_,?_,?_,?_,by simp [hoffered]⟩
  · rcases deliver_cases f snapshot with ⟨updates,hsend,hd⟩ | hd
    · simp only [hd,(Channel.send_some hsend).2.1,h.positive]
    · simp only [hd,h.positive]
  · intro u hu
    rcases deliver_cases f snapshot with ⟨updates,_,hd⟩ | hd
    · simp [hd,hidle] at hu
    · rw [hd] at hu
      rw [← Delivery.full.inj hu]
  · intro u hu
    rcases deliver_cases f snapshot with ⟨updates,_,hd⟩ | hd
    · simp [hd,hidle] at hu
    · simp [hd] at hu
  · rw [hentries,hoffered,List.map_append]
    exact h.order.append (List.Sublist.refl _)
  · simp [hentries,hoffered]
  · obtain ⟨turns,haccount⟩ := h.account
    refine ⟨turns,?_⟩
    rw [hentries,hoffered,List.map_append,List.sum_append,List.length_append,haccount]
    simp only [List.length_singleton,List.map_singleton,List.sum_singleton]
    omega

theorem Feed.Sound.move {f' : Feed} (h : f.Sound) (hpositive : 0 < f'.updates.capacity)
    (hfresh : ∀ u, f'.delivery = .full u → f.delivery = .full u)
    (hroom : ∀ u, f'.delivery = .taken u → f'.updates.items.length < f'.updates.capacity)
    (hentries : f'.entries = f.entries) (hoffered : f'.offered = f.offered) : f'.Sound := by
  refine ⟨hpositive,fun u hu => h.fresh u (hfresh u hu),hroom,?_,?_,?_,?_⟩
  · rw [hentries,hoffered]
    exact h.order
  · rw [hentries,hoffered]
    exact h.newest
  · rw [hentries,hoffered]
    exact h.account
  · rw [hoffered]
    exact h.started

theorem receive_sound (h : f.Sound) : f.receive.Sound := by
  unfold Feed.receive
  cases hr : f.updates.receive with
  | none => exact h
  | some got =>
    obtain ⟨u,updates⟩ := got
    obtain ⟨hcapacity,hitems⟩ := Channel.receive_some hr
    refine h.move (by rw [hcapacity]; exact h.positive) (fun _ hu => hu)
      (fun _ _ => Channel.receive_room hr) ?_ rfl
    simp [Feed.entries,Feed.pending,hitems]

/-- The second select drops the oldest pending update and takes over its count. -/
theorem take_sound {u previous : Update} {updates : Channel Update} (h : f.Sound)
    (hfull : f.delivery = .full u) (hr : f.updates.receive = some (previous,updates)) :
    Feed.Sound { f with
      updates, delivery := .taken { u with dropped := (previous.dropped+1) % 2^64 } } := by
  obtain ⟨hcapacity,hitems⟩ := Channel.receive_some hr
  have hentries : f.entries = f.received++previous::(updates.items++[u]) := by
    simp [Feed.entries,Feed.pending,hfull,hitems]
  obtain ⟨hpositive,hfresh,_,horder,hnewest,⟨turns,haccount⟩,hstarted⟩ := h
  rw [hentries] at horder hnewest haccount
  refine ⟨?_,by simp,fun _ _ => Channel.receive_room hr,?_,?_,?_,hstarted⟩
  · rw [hcapacity]
    exact hpositive
  · refine List.Sublist.trans ?_ horder
    simp [Feed.entries,Feed.pending]
  · rw [← hnewest]
    simp [Feed.entries,Feed.pending,List.getLast?_cons]
  · have hu := hfresh u hfull
    refine ⟨turns+(previous.dropped+1)/2^64,?_⟩
    simp only [Feed.entries,Feed.pending,Delivery.inHand,List.map_append,List.map_cons,List.map_nil,
      List.sum_append,List.sum_cons,List.sum_nil,hu] at haccount ⊢
    omega

theorem advance_cases (f : Feed) : f.advance = f ∨
    (∃ u previous updates, f.delivery = .full u ∧ f.updates.receive = some (previous,updates) ∧
      f.advance = { f with
        updates, delivery := .taken { u with dropped := (previous.dropped+1) % 2^64 } }) ∨
    (∃ u, f.delivery = .full u ∧ f.updates.items = [] ∧
      f.advance = { f with
        delivery := .taken u }) ∨
    ∃ u updates, f.delivery = .taken u ∧ f.updates.send u = some updates ∧
      f.advance = { f with
        updates, delivery := .idle } := by
  unfold Feed.advance
  cases hd : f.delivery with
  | idle => exact .inl rfl
  | full u =>
    cases hr : f.updates.receive with
    | some got => exact .inr (.inl ⟨u,got.1,got.2,rfl,rfl,rfl⟩)
    | none => exact .inr (.inr (.inl ⟨u,rfl,Channel.receive_none_iff.mp hr,rfl⟩))
  | taken u =>
    dsimp only
    cases hs : f.updates.send u with
    | none => exact .inl rfl
    | some updates => exact .inr (.inr (.inr ⟨u,updates,rfl,hs,rfl⟩))

theorem advance_sound (h : f.Sound) : f.advance.Sound := by
  rcases advance_cases f with ha | ⟨u,previous,updates,hd,hr,ha⟩ | ⟨u,hd,hempty,ha⟩ |
    ⟨u,updates,hd,hs,ha⟩
  · rw [ha]
    exact h
  · rw [ha]
    exact take_sound h hd hr
  · rw [ha]
    refine h.move h.positive (by simp) (fun _ _ => ?_) ?_ rfl
    · rw [hempty]
      exact h.positive
    · simp [Feed.entries,Feed.pending,hd]
  · obtain ⟨_,hcapacity,hitems⟩ := Channel.send_some hs
    rw [ha]
    refine h.move ?_ (by simp) (by simp) ?_ rfl
    · rw [hcapacity]
      exact h.positive
    · simp [Feed.entries,Feed.pending,hd,hitems]

theorem advance_frame (f : Feed) :
    f.advance.offered = f.offered ∧ f.advance.since = f.since ∧ f.advance.closed = f.closed ∧
    ∀ u ∈ f.advance.delivery.inHand, ∃ u' ∈ f.delivery.inHand, u.snapshot = u'.snapshot := by
  rcases advance_cases f with ha | ⟨u,previous,updates,hd,hr,ha⟩ | ⟨u,hd,hempty,ha⟩ |
    ⟨u,updates,hd,hs,ha⟩
  · rw [ha]
    exact ⟨rfl,rfl,rfl,fun u hu => ⟨u,hu,rfl⟩⟩
  · simp [ha,hd]
  · simp [ha,hd]
  · simp [ha]

theorem receive_frame (f : Feed) :
    f.receive.offered = f.offered ∧ f.receive.since = f.since ∧ f.receive.closed = f.closed ∧
    f.receive.delivery = f.delivery := by
  unfold Feed.receive
  cases f.updates.receive <;> simp

end Feeds

/-- How often the round still has to serve a subscriber. -/
def Hub.awaited (h : Hub) (id : ℕ) : ℕ := (h.round.elim [] Round.waiting).count id

/-- The mutations a subscription saw. -/
def Hub.seen (h : Hub) (f : Feed) : ℕ := f.closed.getD h.mutations-f.since

/-- What holds of every feed of a hub. -/
structure Feed.Kept (h : Hub) (id : ℕ) (f : Feed) : Prop where
  sound : f.Sound
  holding : ∀ u ∈ f.delivery.inHand,
    ∃ r, h.round = some r ∧ r.serving = some id ∧ u.snapshot = r.snapshot
  open_iff : f.closed = none ↔ id ∈ h.subscribers
  since : f.since ≤ h.mutations
  due : f.offered.length+h.awaited id = 1+h.seen f
  increasing : h.mutations < 2^64 → (f.offered.map Snapshot.revision).Pairwise (· < ·)
  bounded : h.mutations < 2^64 → ∀ s ∈ f.offered, s.revision+h.awaited id ≤ h.mutations

structure Hub.Sound (h : Hub) : Prop where
  kept : ∀ id f, h.feeds id = some f → f.Kept h id
  nodup : h.subscribers.Nodup
  waiting : ∀ r, h.round = some r → r.waiting.Nodup ∧ r.waiting ⊆ h.subscribers
  current : ∀ r, h.round = some r → ∃ now, r.snapshot = h.store.snapshotLocked now
  revision : h.mutations < 2^64 → h.store.revision = h.mutations

theorem commit_revision (m : StateManager) (c : Commit) :
    (m.commit c).revision = (m.revision+1) % 2^64 := by
  cases c <;> rfl

theorem idle_of_unheld {f : Feed} (h : ∀ u, u ∉ f.delivery.inHand) : f.delivery = .idle := by
  cases hd : f.delivery with
  | idle => rfl
  | full u | taken u => exact absurd (by simp [hd]) (h u)

section Hubs

variable {h h' : Hub} {id : ℕ} {f : Feed}

/-- Steps that leave the mutations and the place of a feed in the round alone. -/
theorem Feed.Kept.move {f' : Feed} (hk : f.Kept h id) (hsound : f'.Sound)
    (hframe : f'.offered = f.offered ∧ f'.since = f.since ∧ f'.closed = f.closed)
    (hholding : ∀ u ∈ f'.delivery.inHand,
      ∃ r, h'.round = some r ∧ r.serving = some id ∧ u.snapshot = r.snapshot)
    (hsubscribed : id ∈ h'.subscribers ↔ id ∈ h.subscribers)
    (hmutations : h'.mutations = h.mutations) (hawaited : h'.awaited id = h.awaited id) :
    f'.Kept h' id := by
  obtain ⟨hoffered,hsince,hclosed⟩ := hframe
  obtain ⟨_,_,hopen,hle,hdue,hincreasing,hbounded⟩ := hk
  have hseen : h'.seen f' = h.seen f := by
    simp only [Hub.seen,hsince,hclosed,hmutations]
  refine ⟨hsound,hholding,?_,?_,?_,?_,?_⟩
  · rw [hclosed,hsubscribed]
    exact hopen
  · rw [hsince,hmutations]
    exact hle
  · rw [hoffered,hawaited,hseen]
    exact hdue
  · rw [hoffered,hmutations]
    exact hincreasing
  · rw [hoffered,hmutations,hawaited]
    exact hbounded

/-- A feed that holds nothing back is idle while another one is served. -/
theorem idle_unserved (hk : f.Kept h id)
    (hserving : ∀ r, h.round = some r → r.serving ≠ some id) : f.delivery = .idle := by
  refine idle_of_unheld fun u hu => ?_
  obtain ⟨r,hr,hid,_⟩ := hk.holding u hu
  exact hserving r hr hid

theorem Feed.Kept.bystander (hk : f.Kept h id)
    (hserving : ∀ r, h.round = some r → r.serving ≠ some id)
    (hsubscribed : id ∈ h'.subscribers ↔ id ∈ h.subscribers)
    (hmutations : h'.mutations = h.mutations) (hawaited : h'.awaited id = h.awaited id) :
    f.Kept h' id := by
  have hidle := idle_unserved hk hserving
  exact hk.move hk.sound ⟨rfl,rfl,rfl⟩ (by simp [hidle]) hsubscribed hmutations
    hawaited

theorem mutate_kept (hk : f.Kept h id) (hround : h.round = none) (hnodup : h.subscribers.Nodup)
    {order : List ℕ} (hperm : order.Perm h.subscribers) (store : StateManager)
    (snapshot : Snapshot) : f.Kept { h with
      store, round := some { snapshot, waiting := order }, mutations := h.mutations+1 } id := by
  have hidle := idle_unserved hk (by simp [hround])
  have hbefore : h.awaited id = 0 := by simp [Hub.awaited,hround]
  have hcount : order.count id = if id ∈ h.subscribers then 1 else 0 := by
    rw [hperm.count_eq,hnodup.count]
  obtain ⟨hsound,_,hopen,hsince,hdue,hincreasing,hbounded⟩ := hk
  rw [hbefore] at hdue hbounded
  refine ⟨hsound,by simp [hidle],hopen,hsince.trans (Nat.le_succ _),?_,?_,?_⟩
  · simp only [Hub.awaited,Hub.seen,Option.elim_some,hcount] at hdue ⊢
    cases hc : f.closed with
    | none =>
      simp only [hc,Option.getD_none,if_pos (hopen.mp hc)] at hdue ⊢
      omega
    | some n =>
      rw [if_neg fun hmem => by simp [hopen.mpr hmem] at hc]
      rw [hc] at hdue
      exact hdue
  · intro hfew
    have hfew' : h.mutations+1 < 2^64 := hfew
    exact hincreasing (by omega)
  · intro hfew s hs
    have hfew' : h.mutations+1 < 2^64 := hfew
    have hle := hbounded (by omega) s hs
    refine Nat.add_le_add hle (hcount.le.trans ?_)
    split_ifs <;> simp

theorem mutate_sound (hs : h.Sound) (c : StateCall) (now : ℤ) (order : List ℕ) :
    (h.mutate c now order).Sound := by
  unfold Hub.mutate
  cases hr : h.round with
  | some r => exact hs
  | none =>
    cases hc : h.store.commits c with
    | none => exact hs
    | some commit =>
      dsimp only
      split_ifs with hperm
      · refine ⟨fun id f hf => mutate_kept (hs.kept id f hf) hr hs.nodup hperm _ _,hs.nodup,
          ?_,?_,?_⟩
        · rintro r ⟨⟩
          exact ⟨hperm.nodup_iff.mpr hs.nodup,hperm.subset⟩
        · rintro r ⟨⟩
          exact ⟨now,rfl⟩
        · intro hfew
          have hfew' : h.mutations+1 < 2^64 := hfew
          simp only [commit_revision,hs.revision (by omega)]
          exact Nat.mod_eq_of_lt hfew'
      · exact hs

theorem serve_sound (hs : h.Sound) {operation : Feed → Feed} {round : Option Round}
    (hserved : ∀ f, h.feeds id = some f → f.Kept h id →
      (operation f).Kept (h.serve id operation round) id)
    (hothers : ∀ id' (f : Feed), id' ≠ id → f.Kept h id' → f.Kept (h.serve id operation round) id')
    (hwaiting : ∀ r, round = some r → r.waiting.Nodup ∧ r.waiting ⊆ h.subscribers)
    (hcurrent : ∀ r, round = some r → ∃ now, r.snapshot = h.store.snapshotLocked now) :
    (h.serve id operation round).Sound := by
  refine ⟨fun id' f hf => ?_,hs.nodup,hwaiting,hcurrent,hs.revision⟩
  simp only [Hub.serve] at hf
  by_cases hid : id' = id
  · subst hid
    rw [Function.update_self] at hf
    obtain ⟨f,hlook,rfl⟩ := Option.map_eq_some_iff.mp hf
    exact hserved f hlook (hs.kept id' f hlook)
  · rw [Function.update_of_ne hid] at hf
    exact hothers id' f hid (hs.kept id' f hf)

theorem receive_hub_sound (hs : h.Sound) (id : ℕ) : (h.receive id).Sound := by
  refine serve_sound hs (fun f _ hk => ?_) (fun id' f _ hk => ?_) hs.waiting hs.current
  · obtain ⟨hoffered,hsince,hclosed,hdelivery⟩ := receive_frame f
    refine hk.move (receive_sound hk.sound) ⟨hoffered,hsince,hclosed⟩ ?_ Iff.rfl rfl rfl
    rw [hdelivery]
    exact hk.holding
  · exact hk.move hk.sound ⟨rfl,rfl,rfl⟩ hk.holding Iff.rfl rfl rfl

section Rounds

variable {snapshot : Snapshot} {waiting : List ℕ} {f : Feed}

theorem advance_kept {serving : Option ℕ} (hk : f.Kept h id)
    (hround : h.round = some ⟨snapshot,some id,waiting⟩)
    (hserving : f.advance.delivery ≠ .idle → serving = some id) :
    f.advance.Kept (h.serve id Feed.advance (some ⟨snapshot,serving,waiting⟩)) id := by
  obtain ⟨hoffered,hsince,hclosed,hhand⟩ := advance_frame f
  refine hk.move (advance_sound hk.sound) ⟨hoffered,hsince,hclosed⟩ (fun u hu => ?_) Iff.rfl rfl ?_
  · obtain ⟨u',hu',hsame⟩ := hhand u hu
    obtain ⟨r,hr,_,hsnapshot⟩ := hk.holding u' hu'
    rw [hround] at hr
    obtain rfl := Option.some.inj hr
    have hbusy : f.advance.delivery ≠ .idle := by
      intro hidle
      simp [hidle] at hu
    exact ⟨_,rfl,hserving hbusy,hsame.trans hsnapshot⟩
  · simp [Hub.awaited,Hub.serve,hround]

theorem deliver_kept (hk : f.Kept h id) (hround : h.round = some ⟨snapshot,none,id::waiting⟩)
    (hnodup : (id::waiting).Nodup)
    (hrevision : h.mutations < 2^64 → snapshot.revision = h.mutations) : (f.deliver snapshot).Kept
      (h.serve id (·.deliver snapshot) (some ⟨snapshot,some id,waiting⟩)) id := by
  have hidle := idle_unserved hk (by simp [hround])
  obtain ⟨hoffered,hsince,hclosed⟩ := deliver_offered f snapshot
  have hafter : waiting.count id = 0 :=
    List.count_eq_zero_of_not_mem (List.nodup_cons.mp hnodup).1
  have hbefore : h.awaited id = 1 := by simp [Hub.awaited,hround,hafter]
  refine ⟨deliver_sound hk.sound hidle snapshot,fun u hu => ⟨_,rfl,rfl,?_⟩,?_,?_,?_,?_,?_⟩
  · rcases deliver_cases f snapshot with ⟨updates,_,hd⟩ | hd
    · simp [hd,hidle] at hu
    · simp only [hd,Delivery.inHand,List.mem_singleton] at hu
      rw [hu]
  · rw [hclosed]
    exact hk.open_iff
  · rw [hsince]
    exact hk.since
  · have hdue := hk.due
    simp only [Hub.awaited,Hub.serve,Hub.seen,Option.elim_some,hafter,hoffered,hsince,hclosed,
      List.length_append,List.length_singleton]
    rw [hbefore] at hdue
    exact hdue
  · intro hfew
    rw [hoffered,List.map_append,List.pairwise_append]
    refine ⟨hk.increasing hfew,List.pairwise_singleton _ _,?_⟩
    intro a ha b hb
    obtain ⟨s,hs,rfl⟩ := List.mem_map.mp ha
    have hlt := hk.bounded hfew s hs
    rw [hbefore] at hlt
    obtain rfl := List.mem_singleton.mp hb
    rw [hrevision hfew]
    exact hlt
  · intro hfew s hs
    simp only [Hub.awaited,Hub.serve,Option.elim_some,hafter]
    rw [hoffered] at hs
    rcases List.mem_append.mp hs with hs | hs
    · have hlt := hk.bounded hfew s hs
      exact (Nat.le_add_right _ _).trans hlt
    · obtain rfl := List.mem_singleton.mp hs
      exact (hrevision hfew).le

theorem serving_sound (hs : h.Sound) (hround : h.round = some ⟨snapshot,some id,waiting⟩) :
    h.produce.Sound := by
  have hwaiting := hs.waiting _ hround
  have hcurrent := hs.current _ hround
  simp only [Hub.produce,hround]
  refine serve_sound hs (fun f hlook hk => ?_) (fun id' f hid hk => ?_) ?_ ?_
  · exact advance_kept hk hround fun hbusy => by simp [hlook,hbusy]
  · refine hk.bystander ?_ Iff.rfl rfl ?_
    · simpa [hround] using fun heq => hid heq.symm
    · simp [Hub.awaited,Hub.serve,hround]
  · rintro r ⟨⟩
    exact hwaiting
  · rintro r ⟨⟩
    exact hcurrent

theorem offering_sound (hs : h.Sound) (hround : h.round = some ⟨snapshot,none,id::waiting⟩) :
    h.produce.Sound := by
  obtain ⟨hnodup,hsubset⟩ := hs.waiting _ hround
  obtain ⟨now,hcurrent⟩ := hs.current _ hround
  have hrevision : h.mutations < 2^64 → snapshot.revision = h.mutations := by
    intro hfew
    rw [show snapshot = h.store.snapshotLocked now from hcurrent]
    exact hs.revision hfew
  simp only [Hub.produce,hround]
  refine serve_sound hs (fun f hlook hk => ?_) (fun id' f hid hk => ?_) ?_ ?_
  · exact deliver_kept hk hround hnodup hrevision
  · refine hk.bystander (by simp [hround]) Iff.rfl rfl ?_
    simp [Hub.awaited,Hub.serve,hround,List.count_cons_of_ne fun heq => hid heq.symm]
  · rintro r ⟨⟩
    exact ⟨(List.nodup_cons.mp hnodup).2,fun _ hmem => hsubset (List.mem_cons_of_mem _ hmem)⟩
  · rintro r ⟨⟩
    exact ⟨now,hcurrent⟩

end Rounds

theorem produce_sound (hs : h.Sound) : h.produce.Sound := by
  rcases hround : h.round with _ | ⟨snapshot,_ | id,_ | ⟨id,waiting⟩⟩
  · simp only [Hub.produce,hround]
    exact hs
  · simp only [Hub.produce,hround]
    refine ⟨fun id f hf => ?_,hs.nodup,by simp,by simp,hs.revision⟩
    refine (hs.kept id f hf).bystander (by simp [hround]) Iff.rfl rfl ?_
    simp [Hub.awaited,hround]
  · exact offering_sound hs hround
  · exact serving_sound hs hround
  · exact serving_sound hs hround

theorem initial_kept (hrevision : h.mutations < 2^64 → h.store.revision = h.mutations)
    (hround : h.round = none) (now : ℤ) {capacity : ℤ} (hbad : ¬ (capacity < 1 ∨ 1024 < capacity))
    (feeds : ℕ → Option Feed) (others : List ℕ) (next : ℕ) : Feed.Kept { h with
      feeds, subscribers := id::others, nextSubscriber := next } id
      { updates := Hub.initial (h.store.snapshotLocked now) capacity hbad
        offered := [h.store.snapshotLocked now], since := h.mutations } := by
  refine ⟨⟨?_,by simp,by simp,?_,?_,⟨0,?_⟩,by simp⟩,by simp,by simp,le_rfl,?_,by simp,?_⟩
  · simp only [Hub.initial]
    omega
  · simp [Feed.entries,Feed.pending,Hub.initial]
  · simp [Feed.entries,Feed.pending,Hub.initial]
  · simp [Feed.entries,Feed.pending,Hub.initial]
  · simp [Hub.awaited,Hub.seen,hround]
  · intro hfew s hs
    obtain rfl := List.mem_singleton.mp hs
    simp only [Hub.awaited,hround,Option.elim_none,List.count_nil]
    exact (hrevision hfew).le

theorem subscribe_sound (hs : h.Sound) (hround : h.round = none) (ctx : Option Failure)
    (capacity now : ℤ) : (h.subscribe ctx capacity now).2.Sound := by
  unfold Hub.subscribe
  cases ctx with
  | some err => exact hs
  | none =>
    dsimp only
    split_ifs with hbad
    · exact hs
    · refine ⟨fun id f hf => ?_,List.nodup_cons.mpr ⟨hs.nodup.not_mem_erase,hs.nodup.erase _⟩,
        by simp [hround],by simp [hround],hs.revision⟩
      simp only at hf
      by_cases hid : id = (h.nextSubscriber+1) % 2^64
      · subst hid
        rw [Function.update_self] at hf
        obtain rfl := Option.some.inj hf
        exact initial_kept hs.revision hround _ hbad _ _ _
      · rw [Function.update_of_ne hid] at hf
        refine (hs.kept id f hf).bystander (by simp [hround]) ?_ rfl rfl
        rw [List.mem_cons,List.mem_erase_of_ne hid,or_iff_right hid]

theorem shut_sound (hs : h.Sound) (hround : h.round = none) (ids : List ℕ) :
    (h.shut ids).Sound := by
  refine ⟨fun id f hf => ?_,hs.nodup.filter _,by simp [Hub.shut,hround],
    by simp [Hub.shut,hround],hs.revision⟩
  simp only [Hub.shut] at hf
  split_ifs at hf with hshut
  · obtain ⟨f,hlook,rfl⟩ := Option.map_eq_some_iff.mp hf
    obtain ⟨hsound,hholding,hopen,hsince,hdue,hincreasing,hbounded⟩ := hs.kept id f hlook
    refine ⟨⟨hsound.positive,hsound.fresh,hsound.room,hsound.order,hsound.newest,hsound.account,
      hsound.started⟩,hholding,?_,hsince,?_,hincreasing,hbounded⟩
    · simp [Hub.shut,hshut.1]
    · simp only [Hub.seen,hopen.mpr hshut.2,Option.getD_none] at hdue
      exact hdue
  · refine (hs.kept id f hf).bystander (by simp [hround]) ?_ rfl rfl
    simp only [Hub.shut,List.mem_filter]
    constructor
    · exact fun hmem => hmem.1
    · exact fun hmem => ⟨hmem,by simpa using fun hid => hshut ⟨hid,hmem⟩⟩

theorem hub_step_sound (hs : h.Sound) (s : FeedStep) : (h.step s).Sound := by
  cases s with
  | mutate c now order => exact mutate_sound hs c now order
  | produce => exact produce_sound hs
  | receive id => exact receive_hub_sound hs id
  | subscribe ctx capacity now =>
    unfold Hub.step
    dsimp only
    split_ifs with hround
    · exact subscribe_sound hs (Option.isNone_iff_eq_none.mp hround) ctx capacity now
    · exact hs
  | _ =>
    unfold Hub.step
    dsimp only
    split_ifs with hround
    · exact shut_sound hs (Option.isNone_iff_eq_none.mp hround) _
    · exact hs

theorem run_hub_sound (steps : List FeedStep) : (run Hub.step {} steps).Sound := by
  have hempty : Hub.Sound {} :=
    ⟨fun _ _ hf => by simp at hf,List.nodup_nil,by simp,by simp,fun _ => rfl⟩
  exact invariant_always (I := Hub.Sound) (fun _ s hs => hub_step_sound hs s) hempty steps

theorem serve_changed {f f' : Feed} {served : ℕ} {operation : Feed → Feed} {round : Option Round}
    (hf : h.feeds id = some f) (hf' : (h.serve served operation round).feeds id = some f')
    (hne : f' ≠ f) : f' = operation f := by
  simp only [Hub.serve] at hf'
  by_cases hid : id = served
  · subst hid
    rw [Function.update_self,hf,Option.map_some,Option.some.injEq] at hf'
    exact hf'.symm
  · rw [Function.update_of_ne hid,hf,Option.some.injEq] at hf'
    exact absurd hf'.symm hne

theorem produce_newest {f f' : Feed} (hs : h.Sound) (hf : h.feeds id = some f)
    (hf' : h.produce.feeds id = some f') (hne : f' ≠ f) (hidle : f'.delivery = .idle) :
    ∃ u now, f'.updates.items.getLast? = some u ∧ u.snapshot = h.store.snapshotLocked now := by
  have hk := hs.kept id f hf
  rcases hround : h.round with _ | ⟨snapshot,_ | served,waiting⟩
  · simp only [Hub.produce,hround,hf,Option.some.injEq] at hf'
    exact absurd hf'.symm hne
  · obtain ⟨now,hcurrent⟩ := hs.current _ hround
    cases waiting with
    | nil =>
      simp only [Hub.produce,hround,hf,Option.some.injEq] at hf'
      exact absurd hf'.symm hne
    | cons served waiting =>
      simp only [Hub.produce,hround] at hf'
      obtain rfl := serve_changed hf hf' hne
      rcases deliver_cases f snapshot with ⟨updates,hsend,hd⟩ | hd
      · obtain ⟨_,_,hitems⟩ := Channel.send_some hsend
        exact ⟨⟨snapshot,0⟩,now,by simp [hd,hitems],hcurrent⟩
      · simp [hd] at hidle
  · obtain ⟨now,hcurrent⟩ := hs.current _ hround
    simp only [Hub.produce,hround] at hf'
    obtain rfl := serve_changed hf hf' hne
    rcases advance_cases f with ha | ⟨u,previous,updates,_,_,ha⟩ | ⟨u,_,_,ha⟩ |
      ⟨u,updates,hd,hsend,ha⟩
    · exact absurd ha hne
    · simp [ha] at hidle
    · simp [ha] at hidle
    · obtain ⟨_,_,hitems⟩ := Channel.send_some hsend
      obtain ⟨r,hr,_,hsnapshot⟩ := hk.holding u (by simp [hd])
      rw [hround] at hr
      obtain rfl := Option.some.inj hr
      exact ⟨u,now,by simp [ha,hitems],hsnapshot.trans hcurrent⟩

end Hubs

/-- There are no more offers than revisions, as long as these do not go round. -/
theorem offered_le {h : Hub} {id : ℕ} {f : Feed} (hk : f.Kept h id) (hfew : h.mutations < 2^64) :
    f.offered.length ≤ h.mutations+1 := by
  have hnodup : (f.offered.map Snapshot.revision).Nodup := (hk.increasing hfew).imp ne_of_lt
  have hsubset : f.offered.map Snapshot.revision ⊆ List.range (h.mutations+1) := by
    intro n hn
    obtain ⟨s,hs,rfl⟩ := List.mem_map.mp hn
    have hle := (Nat.le_add_right _ _).trans (hk.bounded hfew s hs)
    exact List.mem_range.mpr (Nat.lt_succ_of_le hle)
  simpa using (hnodup.subperm hsubset).length_le

/-- The updates received and pending, with those they superseded. -/
def Feed.accounted (f : Feed) : ℕ :=
  f.received.length+f.pending.length+((f.received++f.pending).map Update.dropped).sum

theorem Feed.Sound.accounted {f : Feed} (h : f.Sound) :
    0 < f.accounted ∧ ∃ turns, f.offered.length = f.accounted+2^64*turns := by
  obtain ⟨turns,haccount⟩ := h.account
  have hsome : f.received++f.pending ≠ [] := by
    intro hnone
    have hnewest := h.newest
    rw [Feed.entries,hnone] at hnewest
    exact h.started (List.getLast?_eq_none_iff.mp hnewest.symm)
  have hpositive := List.length_pos_of_ne_nil hsome
  rw [List.length_append] at hpositive
  rw [List.sum_map_add,List.map_const',List.sum_replicate] at haccount
  simp only [Feed.entries,List.length_append,smul_eq_mul,mul_one] at haccount
  refine ⟨?_,turns,?_⟩
  · unfold Feed.accounted
    omega
  · unfold Feed.accounted
    omega

/-- Whatever the interleaving, the final send of a delivery finds room, the delivery ends with the
newest snapshot as the last pending update, revisions are received in increasing order, and the
updates offered, the initial one and one for each mutation seen, are those received and pending
and those they superseded. The counters are of 64 bits, so the last two are exact below `2^64`
mutations; beyond them the account holds modulo `2^64`. -/
theorem subscription_accounts_for_updates (steps : List FeedStep) (id : ℕ) (f : Feed)
    (hf : (run Hub.step {} steps).feeds id = some f) : let h := run Hub.step {} steps
    (∀ u, f.delivery = .taken u → f.updates.send u ≠ none) ∧
    (∀ f', h.produce.feeds id = some f' → f' ≠ f → f'.delivery = .idle →
      ∃ u now, f'.updates.items.getLast? = some u ∧ u.snapshot = h.store.snapshotLocked now) ∧
    (h.mutations < 2^64 → (f.received.map fun u => u.snapshot.revision).Pairwise (· < ·)) ∧
    (h.mutations < 2^64 → f.offered.length = f.received.length+f.pending.length+
      ((f.received++f.pending).map Update.dropped).sum) ∧
    f.offered.length % 2^64 = (f.received.length+f.pending.length+
      ((f.received++f.pending).map Update.dropped).sum) % 2^64 ∧
    (h.awaited id = 0 → f.offered.length = 1+h.seen f) := by
  intro h
  have hs : h.Sound := run_hub_sound steps
  have hk := hs.kept id f hf
  obtain ⟨hpositive,turns,haccount⟩ := hk.sound.accounted
  refine ⟨fun u hu hsend => ?_,fun f' => produce_newest hs hf,fun hfew => ?_,fun hfew => ?_,?_,
    fun hserved => ?_⟩
  · exact absurd (Channel.send_none_iff.mp hsend) (hk.sound.room u hu).ne
  · have hreceived : (f.received.map Update.snapshot).Sublist f.offered :=
      ((List.sublist_append_left _ _).map _).trans hk.sound.order
    have hrevisions := (hk.increasing hfew).sublist (hreceived.map Snapshot.revision)
    rwa [List.map_map] at hrevisions
  · have hoffered := offered_le hk hfew
    change f.offered.length = f.accounted
    omega
  · change f.offered.length % 2^64 = f.accounted % 2^64
    omega
  · have hdue := hk.due
    rw [hserved] at hdue
    exact hdue

def slowSubscriber : List FeedStep :=
  let change := FeedStep.mutate (.set none none (reportedSwitch true)) 2 [1]
  [.subscribe none 1 2,change,.produce,.produce,.produce,.produce,change,.produce,.produce,.produce,
    .produce,change,.produce,.receive 1,.produce,.produce]

theorem slow_subscriber_accounted :
    ∃ f, (run Hub.step {} slowSubscriber).feeds 1 = some f ∧
      f.received.map Update.dropped = [2] ∧ f.pending.map (·.snapshot.revision) = [3] ∧
      f.offered.length = f.received.length+f.pending.length+
        ((f.received++f.pending).map Update.dropped).sum := by
  obtain ⟨f,hf⟩ : ∃ f, (run Hub.step {} slowSubscriber).feeds 1 = some f :=
    Option.isSome_iff_exists.mp (by decide +kernel)
  have hreceived : ((run Hub.step {} slowSubscriber).feeds 1).map
      (fun f => (f.received.map Update.dropped,f.pending.map (·.snapshot.revision))) =
      some ([2],[3]) := by decide +kernel
  rw [hf] at hreceived
  obtain ⟨hdropped,hpending⟩ := Prod.mk.inj (Option.some.inj hreceived)
  exact ⟨f,hf,hdropped,hpending,(subscription_accounts_for_updates slowSubscriber 1 f hf).2.2.2.1 (by decide +kernel)⟩

end CanonicalState
end AquaOS
