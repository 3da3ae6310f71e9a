import AquaOS.MqttClient
import AquaOS.Transition

/-! The connection of the client. One goroutine connects, first in `Start` and then in
`reconnectLoop`, and restores the recorded subscriptions; calls of `Subscribe` and losses of the
connection come at any moment, and a loss tells the loop through a channel of capacity one. -/
namespace AquaOS
namespace Mqtt

open Domain Transition

/-- What `Subscribe` records; it checks the topic and the quality of service first. -/
structure Subscription (r : Registry) where
  topic : String
  qos : UInt8
  narrow : r.validSubscription topic = true
  supported : qos ≤ 1
  deriving DecidableEq

/-- Where a call of `Subscribe` is after it began. -/
inductive SubscribeCall (r : Registry)
  | idle
  | recorded (x : Subscription r)
  | awaiting (x : Subscription r)
  | returned (err : Option Failure)

/-- The call is about to give the subscription to the broker. -/
def SubscribeCall.About {r : Registry} (x : Subscription r) : SubscribeCall r → Prop
  | .recorded y | .awaiting y => x = y
  | _ => False

/-- Where the goroutine that connects is: outside `Start` and the loop, at the first `select` of the
loop or at the second, or inside `connect`. -/
inductive Connector (r : Registry)
  | idle
  | waiting
  | pausing
  | connecting
  | reading
  | restoring (rest : List (Subscription r))
  | reconciling
  | announcing
  | flushing

/-- The client; `handlers` counts the connection-lost handlers that have yet to signal. The broker
has accepted some subscriptions over the present connection, and since they were last read for
restoring some calls of `Subscribe` were refused theirs. -/
structure Session (r : Registry) where
  connected : Bool := false
  handlers : ℕ := 0
  reconnect : Bool := false
  connector : Connector r := .idle
  looping : Bool := false
  subscriptions : Table String (Subscription r) := ∅
  callers : ℕ → SubscribeCall r := fun _ => .idle
  accepted : List (Subscription r) := []
  refused : List (Subscription r) := []

/-- The connection is lost, or a `Connect` that was given up comes through late; a handler signals;
`Start` and `Stop` are called, `Stop` perhaps in a context that ends before the loop; the goroutine
goes on with what it is answered; and so do the calls of `Subscribe`. -/
inductive SessionStep (r : Registry)
  | lost
  | late
  | signalReconnect
  | start
  | stop (ended : Bool)
  | advance (answer : Option Failure) (item : Subscription r)
  | subscribe (i : ℕ) (ctx : Option Failure) (topic : String) (qos : UInt8)
  | proceed (i : ℕ) (answer : Option Failure)

namespace Session

variable {r : Registry}

/-- What the broker answers over the connection, if there is one. -/
def heard (s : Session r) (answer : Option Failure) : Option Failure :=
  if s.connected then answer else some (answer.getD (.message "MQTT broker is disconnected"))

/-- How `connect` ends with an error: `Start` returns it, and the loop tries again. -/
def giveUp (s : Session r) : Session r :=
  { s with connector := if s.looping then .pausing else .idle }

/-- A step of the goroutine that connects; `item` is where it is in the map of subscriptions. -/
def advance (s : Session r) (answer : Option Failure) (item : Subscription r) : Session r :=
  match s.connector with
  | .idle => s
  | .waiting => if s.reconnect then { s with reconnect := false, connector := .pausing } else s
  | .pausing => { s with connector := .connecting }
  | .connecting =>
    if answer = none then { s with connected := true, connector := .reading, accepted := [] }
    else s.giveUp
  | .reading => { s with connector := .restoring s.subscriptions.values, refused := [] }
  | .restoring [] => { s with connector := .reconciling }
  | .restoring rest =>
    if item ∈ rest then
      if s.heard answer = none then
        { s with connector := .restoring (rest.erase item), accepted := item::s.accepted }
      else s.giveUp
    else s
  | .reconciling => if answer = none then { s with connector := .announcing } else s.giveUp
  | .announcing => if s.heard answer = none then { s with connector := .flushing } else s.giveUp
  | .flushing =>
    if answer = none then { s with connector := .waiting, looping := true } else s.giveUp

def setCaller (s : Session r) (i : ℕ) (c : SubscribeCall r) : Session r :=
  { s with callers := Function.update s.callers i c }

def subscribe (s : Session r) (i : ℕ) (ctx : Option Failure) (topic : String) (qos : UInt8) :
    Session r :=
  match ctx with
  | some err => s.setCaller i (.returned (some err))
  | none =>
    if h : r.validSubscription topic = true ∧ qos ≤ 1 then
      { s.setCaller i (.recorded ⟨topic,qos,h.1,h.2⟩) with
        subscriptions := s.subscriptions.insert topic ⟨topic,qos,h.1,h.2⟩ }
    else s.setCaller i (.returned (some (.message "invalid MQTT subscription")))

def step (s : Session r) : SessionStep r → Session r
  | .lost =>
    if s.connected then { s with connected := false, handlers := s.handlers+1, accepted := [] } else s
  | .late => { s with connected := true }
  | .signalReconnect =>
    if s.handlers = 0 then s else { s with handlers := s.handlers-1, reconnect := true }
  | .start =>
    match s.connector with
    | .idle => { s with connector := .connecting, looping := false }
    | _ => s
  | .stop ended =>
    -- the loop ends in one of its selects, and the handler is not called for `Disconnect`
    match s.connector with
    | .idle | .waiting | .pausing =>
      if ended then { s with connector := .idle }
      else { s with connected := false, connector := .idle, accepted := [] }
    | _ => s
  | .advance answer item => s.advance answer item
  | .subscribe i ctx topic qos =>
    match s.callers i with
    | .idle | .returned _ => s.subscribe i ctx topic qos
    | _ => s
  | .proceed i answer =>
    match s.callers i with
    | .recorded x => s.setCaller i (if s.connected then .awaiting x else .returned none)
    | .awaiting x =>
      match s.heard answer with
      | none => { s.setCaller i (.returned none) with accepted := x::s.accepted }
      | some err => { s.setCaller i (.returned (some err)) with refused := x::s.refused }
    | _ => s

/-- The loop is told of a loss, or will be. -/
def Told (s : Session r) : Prop := s.reconnect = true ∨ 0 < s.handlers

def Underway (s : Session r) (x : Subscription r) : Prop := ∃ i, (s.callers i).About x

end Session

/-- `connect` has not been called, or has not connected yet. -/
def Connector.Outside {r : Registry} : Connector r → Prop
  | .idle | .pausing | .connecting => True
  | _ => False

/-- `connect` has yet to restore the subscription. -/
def Connector.Restores {r : Registry} (x : Subscription r) : Connector r → Prop
  | .reading => True
  | .restoring rest => x ∈ rest
  | c => c.Outside

namespace Session

variable {r : Registry} {s : Session r}

/-- Without a connection the loop is told of that or has yet to connect, and a recorded subscription
is yet to be restored or accounted for otherwise. -/
structure Kept (s : Session r) : Prop where
  link : s.connected = false → s.Told ∨ s.connector.Outside
  held : ∀ t x, s.subscriptions.lookup t = some x →
    s.Told ∨ s.connector.Restores x ∨ x ∈ s.accepted ∨ x ∈ s.refused ∨ s.Underway x

theorem Kept.of_told (h : s.Told) : s.Kept := ⟨fun _ => .inl h,fun _ _ _ => .inl h⟩

theorem restores_of_outside {c : Connector r} (h : c.Outside) (x : Subscription r) :
    c.Restores x := by
  cases c <;> trivial

theorem Kept.of_outside (h : s.connector.Outside) : s.Kept :=
  ⟨fun _ => .inr h,fun _ x _ => .inr (.inl (restores_of_outside h x))⟩

theorem giveUp_kept (s : Session r) : s.giveUp.Kept := by
  apply Kept.of_outside
  unfold giveUp
  cases s.looping <;> trivial

/-- `connect` goes on: what it no longer has to restore is accepted. -/
theorem Kept.moved (h : s.Kept) {c : Connector r} {accepted : List (Subscription r)}
    (looping : Bool) (hinside : ¬ s.connector.Outside) (ha : s.accepted ⊆ accepted)
    (hrest : ∀ x, s.connector.Restores x → c.Restores x ∨ x ∈ accepted) :
    Kept { s with connector := c, looping := looping, accepted := accepted } where
  link hdown := .inl ((h.link hdown).resolve_right hinside)
  held t x hx := by
    rcases h.held t x hx with ht | hc | hmem | hother
    · exact .inl ht
    · exact .inr ((hrest x hc).imp_right .inl)
    · exact .inr (.inr (.inl (ha hmem)))
    · exact .inr (.inr (.inr hother))

theorem advance_kept (h : s.Kept) (answer : Option Failure) (item : Subscription r) :
    (s.advance answer item).Kept := by
  have hpass : ∀ {c c'} looping, s.connector = c → ¬ c.Outside → (∀ x, ¬ c.Restores x) →
      Kept { s with connector := c', looping := looping } := by
    rintro _ c' looping rfl hinside hnone
    exact h.moved looping hinside (fun _ => id) fun x hx => absurd hx (hnone x)
  unfold advance
  split
  case h_1 => exact h
  case h_2 =>
    split_ifs
    · exact .of_outside trivial
    · exact h
  case h_3 => exact .of_outside trivial
  case h_4 =>
    split_ifs
    · exact ⟨nofun,fun _ _ _ => .inr (.inl trivial)⟩
    · exact giveUp_kept s
  case h_5 hc =>
    refine ⟨fun hdown => .inl ((h.link hdown).resolve_right ?_),fun t x hx => ?_⟩
    · rw [hc]
      exact id
    · exact .inr (.inl (Table.mem_values.mpr ⟨t,hx⟩))
  case h_6 hc => exact hpass s.looping hc id fun x => List.not_mem_nil
  case h_7 rest _ hc =>
    split_ifs with hitem
    · refine h.moved s.looping (hc ▸ id) (List.subset_cons_self ..) fun x hx => ?_
      rw [hc] at hx
      by_cases hxi : x = item
      · exact .inr (hxi ▸ List.mem_cons_self)
      · exact .inl ((List.mem_erase_of_ne hxi).mpr hx)
    · exact giveUp_kept s
    · exact h
  case h_8 hc =>
    split_ifs
    · exact hpass s.looping hc id fun _ => id
    · exact giveUp_kept s
  case h_9 hc =>
    split_ifs
    · exact hpass s.looping hc id fun _ => id
    · exact giveUp_kept s
  case h_10 hc =>
    split_ifs
    · exact hpass true hc id fun _ => id
    · exact giveUp_kept s

theorem underway_self {i : ℕ} {c : SubscribeCall r} {x : Subscription r} (h : c.About x) :
    (s.setCaller i c).Underway x := ⟨i,by simpa [setCaller] using h⟩

/-- A call of `Subscribe` goes on, and what it was about is accounted for. -/
theorem Kept.call (h : s.Kept) {i : ℕ} {c : SubscribeCall r}
    {accepted refused : List (Subscription r)} (ha : s.accepted ⊆ accepted)
    (hr : s.refused ⊆ refused) (hi : ∀ x, (s.callers i).About x →
      s.Told ∨ s.connector.Restores x ∨ x ∈ accepted ∨ x ∈ refused ∨ c.About x) :
    Kept { s.setCaller i c with accepted := accepted, refused := refused } where
  link := h.link
  held t x hx := by
    rcases h.held t x hx with ht | hc | hmem | hmem | ⟨j,hj⟩
    · exact .inl ht
    · exact .inr (.inl hc)
    · exact .inr (.inr (.inl (ha hmem)))
    · exact .inr (.inr (.inr (.inl (hr hmem))))
    by_cases hji : j = i
    · subst hji
      exact (hi x hj).imp_right (.imp_right (.imp_right (.imp_right underway_self)))
    · exact .inr (.inr (.inr (.inr ⟨j,by simpa [setCaller,hji] using hj⟩)))

theorem subscribe_kept (h : s.Kept) {i : ℕ} (hi : ∀ x, ¬ (s.callers i).About x)
    (ctx : Option Failure) (topic : String) (qos : UInt8) : (s.subscribe i ctx topic qos).Kept := by
  have hcall : ∀ c, (s.setCaller i c).Kept := fun c =>
    h.call (fun _ => id) (fun _ => id) fun x hx => absurd hx (hi x)
  unfold subscribe
  split
  · exact hcall _
  split_ifs with hvalid
  · refine ⟨h.link,Table.forall_insert ?_ (hcall _).held⟩
    exact .inr (.inr (.inr (.inr (underway_self (c := .recorded _) rfl))))
  · exact hcall _

theorem step_kept (s : Session r) (l : SessionStep r) (h : s.Kept) : (s.step l).Kept := by
  cases l with
  | lost =>
    simp only [step]
    split_ifs
    · exact .of_told (.inr (Nat.succ_pos _))
    · exact h
  | late => exact ⟨nofun,h.held⟩
  | signalReconnect =>
    simp only [step]
    split_ifs
    · exact h
    · exact .of_told (.inl rfl)
  | start =>
    simp only [step]
    split
    · exact .of_outside trivial
    · exact h
  | stop ended =>
    simp only [step]
    split
    case h_4 => exact h
    all_goals split_ifs <;> exact .of_outside trivial
  | advance answer item => exact advance_kept h answer item
  | subscribe i ctx topic qos =>
    simp only [step]
    split
    case h_1 hi => exact subscribe_kept h (hi ▸ fun _ => id) ctx topic qos
    case h_2 hi => exact subscribe_kept h (hi ▸ fun _ => id) ctx topic qos
    case h_3 => exact h
  | proceed i answer =>
    simp only [step]
    split
    case h_1 x hx =>
      refine h.call (fun _ => id) (fun _ => id) fun y hy => ?_
      rw [hx] at hy
      cases hup : s.connected with
      | true => exact .inr (.inr (.inr (.inr hy)))
      | false => exact (h.link hup).imp_right fun ho => .inl (restores_of_outside ho y)
    case h_2 x hx =>
      split
      · refine h.call (List.subset_cons_self ..) (fun _ => id) fun y hy => ?_
        rw [hx] at hy
        exact .inr (.inr (.inl (hy ▸ List.mem_cons_self)))
      · refine h.call (fun _ => id) (List.subset_cons_self ..) fun y hy => ?_
        rw [hx] at hy
        exact .inr (.inr (.inr (.inl (hy ▸ List.mem_cons_self))))
    case h_3 => exact h

theorem run_kept (ls : List (SessionStep r)) : (run step ({} : Session r) ls).Kept :=
  invariant_always step_kept (.of_outside (s := {}) trivial) ls

/-- In every run, while the loop waits and is not to be told of a loss, the broker is connected, and
every recorded subscription was accepted over this connection, was refused to its call, or is with a
call. -/
theorem waiting_restored (ls : List (SessionStep r)) {s : Session r} (hs : s = run step {} ls)
    (hwait : s.connector = .waiting) (htold : ¬ s.Told) :
    s.connected = true ∧ ∀ t x, s.subscriptions.lookup t = some x →
      x ∈ s.accepted ∨ x ∈ s.refused ∨ s.Underway x := by
  have hkept : s.Kept := hs ▸ run_kept ls
  constructor
  · by_contra hup
    rcases hkept.link (Bool.eq_false_of_not_eq_true hup) with ht | ho
    · exact htold ht
    · exact (hwait ▸ ho).elim
  · intro t x hx
    rcases hkept.held t x hx with ht | hc | hother
    · exact absurd ht htold
    · exact (hwait ▸ hc).elim
    · exact hother

def commandSubscription : Subscription homeReef :=
  ⟨"aquaos/home-reef/v1/commands/+/request",1,by decide,by decide⟩

/-- A subscription is made, and its connection is lost and made again. -/
def reconnection : List (SessionStep homeReef) :=
  .start::List.replicate 6 (.advance none commandSubscription)++
    [.subscribe 0 none commandSubscription.topic 1,.proceed 0 none,.proceed 0 none,.lost,
      .signalReconnect]++List.replicate 9 (.advance none commandSubscription)

theorem reconnection_restored : (run step {} reconnection).connected = true ∧
    (run step {} reconnection).subscriptions.lookup commandSubscription.topic =
      some commandSubscription ∧
    (commandSubscription ∈ (run step {} reconnection).accepted ∨
      commandSubscription ∈ (run step {} reconnection).refused ∨
      (run step {} reconnection).Underway commandSubscription) := by
  have hlookup : (run step {} reconnection).subscriptions.lookup commandSubscription.topic =
      some commandSubscription := by decide
  have hwaits := waiting_restored reconnection rfl (by rfl) (by unfold Told; decide)
  exact ⟨hwaits.1,hlookup,hwaits.2 _ _ hlookup⟩

end Session
end Mqtt
end AquaOS
