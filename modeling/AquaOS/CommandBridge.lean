import AquaOS.Idempotency
import AquaOS.RetainedDiscovery
import AquaOS.Submission

/-! Switch requests from Home Assistant as commands. The key of a command is made from the 16 bits
of an MQTT message ID, which are used again, and the command service keeps every key. -/
namespace AquaOS

namespace Output

theorem submit_of_taken {env : Environment} {s : Store} {c : Command}
    (h : s.idempotency.lookup c.idempotencyKey ≠ none) : (submit env s c).acts = [] := by
  refine submit_cases (P := fun o => o.acts = []) (fun _ => rfl) (fun _ _ _ _ => rfl)
    fun c' _ hc _ hl => ?_
  rw [← withIDs_key hc] at h
  exact absurd (lookup_eq_none hl) h

end Output

namespace HomeAssistant

open Domain Levels Transition
open Output (Command Environment Recorded Solo Store)

structure Message where
  topic : String
  payload : List UInt8
  messageID : UInt16

abbrev Trim := List UInt8 → List UInt8

/-- The direction a trimmed payload asks for. -/
def direction (raw : List UInt8) : Option Bool :=
  if raw = bytes "ON" then some true else if raw = bytes "OFF" then some false else none

def commandKey (resource : String) (messageID : UInt16) (on : Bool) : String :=
  "ha/"++resource++"/"++toString messageID.toNat++"/"++(if on then "on" else "off")

/-- `HandleCommand` once the topic has named a resource and its equipment. -/
def Manager.commandFor (trimSpace : Trim) (m : Manager) (resource : String)
    (equipmentID : EquipmentID) (payload : List UInt8) (messageID : UInt16) (now : ℤ)
    (correlationID : Except Failure CorrelationID) : Except Failure Command :=
  match direction (trimSpace payload), correlationID with
  | none, _ => .error (.message "home assistant command payload must be ON or OFF")
  | some _, .error err => .error err
  | some on, .ok correlationID =>
    .ok { id := "", idempotencyKey := commandKey resource messageID on, correlationID
          equipmentID, requester := "home-assistant", issuedAt := now
          expiresAt := now+m.cfg.commandTTL, on }

def Manager.command (trimSpace : Trim) (m : Manager) (x : Message) (now : ℤ)
    (correlationID : Except Failure CorrelationID) : Except Failure Command :=
  match split '/' x.topic with
  | [root,siteID,version,integration,resource,verb] =>
    if root ≠ "aquaos" ∨ siteID ≠ m.cfg.siteID ∨ version ≠ "v1" ∨ integration ≠ "home-assistant" ∨
        verb ≠ "set" then
      .error (.message "home assistant command topic is outside the configured namespace")
    else
      match m.allowed.lookup resource with
      | none => .error (.message "home assistant command targets unknown equipment")
      | some equipmentID =>
        m.commandFor trimSpace resource equipmentID x.payload x.messageID now correlationID
  | _ => .error (.message "home assistant command topic is outside the configured namespace")

/-- A message with everything its handling meets: the manager as it is then, the clock, a new
correlation ID, and the environment of the submission. -/
structure Delivery where
  manager : Manager
  message : Message
  now : ℤ
  correlationID : Except Failure CorrelationID
  env : Environment

namespace Delivery

def command (trimSpace : Trim) (x : Delivery) : Except Failure Command :=
  x.manager.command trimSpace x.message x.now x.correlationID

def handle (trimSpace : Trim) (x : Delivery) (s : Store) : Solo :=
  match x.command trimSpace with
  | .error err => ⟨s,.returned ⟨none,some err⟩,[]⟩
  | .ok c => Output.submit x.env s c

/-- The level of the topic that names the equipment. -/
def resource (x : Delivery) : Option String := (split '/' x.message.topic)[4]?

def asked (trimSpace : Trim) (x : Delivery) : Option Bool := direction (trimSpace x.message.payload)

end Delivery

/-- What happens at the command service: a message is handled, or a command is reconciled with the
reported state or expires. -/
inductive BridgeStep
  | command (x : Delivery)
  | reconcile (env : Environment) (id : CommandID) (reportedOn : Bool) (observedAt : ℤ)
  | expireAcknowledged (env : Environment) (id : CommandID) (reason : String) (observedAt : ℤ)

def BridgeStep.apply (trimSpace : Trim) (s : Store) : BridgeStep → Store
  | .command x => (x.handle trimSpace s).store
  | .reconcile env id on t => (Solo.finish env ⟨s,.reconcile id on t,[]⟩).store
  | .expireAcknowledged env id reason t =>
    (Solo.finish env ⟨s,.expireAcknowledged id reason t,[]⟩).store

def BridgeStep.delivery : BridgeStep → Option Delivery
  | .command x => some x
  | _ => none

def deliveries (steps : List BridgeStep) : List Delivery := steps.filterMap BridgeStep.delivery

section Keys

theorem toString_injective {n n' : ℕ} (h : toString n = toString n') : n = n' := by
  have hdigits := congrArg (fun t : String => Nat.ofDigitChars 10 t.toList 0) h
  simpa [Nat.toString_eq_ofList_toDigits,Nat.ofDigitChars_ten_toDigits] using hdigits

theorem toString_free (n : ℕ) : '/' ∉ (toString n).toList := by
  rw [Nat.toString_eq_ofList_toDigits,String.toList_ofList]
  intro hmem
  have hdigit := Nat.isDigit_of_mem_toDigits (by decide) (by decide) hmem
  revert hdigit
  decide

theorem commandKey_inj {resource resource' : String} {id id' : UInt16} {on on' : Bool}
    (hr : '/' ∉ resource.toList) (hr' : '/' ∉ resource'.toList)
    (h : commandKey resource id on = commandKey resource' id' on') :
    resource = resource' ∧ id = id' ∧ on = on' := by
  have hjoin : ∀ (resource : String) (id : UInt16) (on : Bool), commandKey resource id on =
      join '/' ["ha",resource,toString id.toNat,if on then "on" else "off"] := by
    intro resource id on
    rw [← String.toList_inj,toList_join]
    simp [commandKey,List.intercalate]
  have hplain : ∀ {resource : String} (id : UInt16) (on : Bool), '/' ∉ resource.toList →
      Plain '/' ["ha",resource,toString id.toNat,if on then "on" else "off"] := by
    intro resource id on hr
    refine ⟨by simp,?_⟩
    simp only [List.forall_mem_cons]
    refine ⟨by decide,hr,toString_free _,?_,by simp⟩
    cases on <;> decide
  rw [hjoin,hjoin] at h
  have hlevels := join_inj (hplain id on hr) (hplain id' on' hr') h
  simp only [List.cons.injEq,true_and,and_true] at hlevels
  obtain ⟨hresource,hid,hon⟩ := hlevels
  refine ⟨hresource,UInt16.toNat_inj.mp (toString_injective hid),?_⟩
  revert hon
  cases on <;> cases on' <;> simp

end Keys

section Handling

variable {trimSpace : Trim} {x y : Delivery} {s : Store} {c c' : Command}

theorem commandFor_ok_iff {m : Manager} {resource : String} {equipmentID : EquipmentID}
    {payload : List UInt8} {messageID : UInt16} {now : ℤ} {found : Except Failure CorrelationID} :
    m.commandFor trimSpace resource equipmentID payload messageID now found = .ok c ↔
      ∃ on correlationID, direction (trimSpace payload) = some on ∧ found = .ok correlationID ∧
        c = { id := "", idempotencyKey := commandKey resource messageID on, correlationID
              equipmentID, requester := "home-assistant", issuedAt := now
              expiresAt := now+m.cfg.commandTTL, on } := by
  unfold Manager.commandFor
  cases direction (trimSpace payload) <;> cases found <;> simp [eq_comm]

theorem command_inv (h : x.command trimSpace = .ok c) :
    ∃ resource, x.resource = some resource ∧ '/' ∉ resource.toList ∧
      x.asked trimSpace = some c.on ∧ x.manager.allowed.lookup resource = some c.equipmentID ∧
      c.idempotencyKey = commandKey resource x.message.messageID c.on ∧
      c.expectedRevision = none := by
  unfold Delivery.command Manager.command at h
  split at h
  · next root siteID version integration resource verb hsplit =>
    split_ifs at h with hnamespace
    cases hallowed : x.manager.allowed.lookup resource with
    | none => simp [hallowed] at h
    | some equipmentID =>
      simp only [hallowed,commandFor_ok_iff] at h
      obtain ⟨on,_,hasked,_,rfl⟩ := h
      refine ⟨resource,by simp [Delivery.resource,hsplit],?_,hasked,hallowed,rfl,rfl⟩
      exact split_free '/' x.message.topic resource (by simp [hsplit])
  · cases h

/-- Two messages that ask for the same, up to the message ID. -/
def Delivery.Alike (trimSpace : Trim) (x y : Delivery) : Prop :=
  x.resource = y.resource ∧ x.asked trimSpace = y.asked trimSpace

theorem key_eq_iff (hx : x.command trimSpace = .ok c) (hy : y.command trimSpace = .ok c') :
    c.idempotencyKey = c'.idempotencyKey ↔
      x.Alike trimSpace y ∧ x.message.messageID = y.message.messageID := by
  obtain ⟨resource,hresource,hfree,hasked,_,hkey,_⟩ := command_inv hx
  obtain ⟨resource',hresource',hfree',hasked',_,hkey',_⟩ := command_inv hy
  unfold Delivery.Alike
  rw [hresource,hresource',hasked,hasked',hkey,hkey']
  constructor
  · intro h
    obtain ⟨rfl,hid,hon⟩ := commandKey_inj hfree hfree' h
    exact ⟨⟨rfl,congrArg some hon⟩,hid⟩
  · rintro ⟨⟨hr,hon⟩,hid⟩
    rw [Option.some.inj hr,Option.some.inj hon,hid]

/-- Everything the handling of a message meets lets the command through, except perhaps its key:
there is a command, the context is live, the command is valid and in time, the policy allows it and
its events are delivered. -/
structure Delivery.Served (trimSpace : Trim) (x : Delivery) (c : Command) : Prop where
  request : ∃ c₀, x.command trimSpace = .ok c₀ ∧ c₀.withIDs (x.env .submit) = .ok c
  ctx : (x.env .submit).ctx = none
  valid : Output.validateCommand c = none
  live : (x.env .expiry).now < c.expiresAt
  allowed : ∃ d, (x.env .evaluate).decision = .ok d ∧ d.allowed = true
  recorded : (x.env .recorded).emitted = none
  marked : (x.env .marked).emitted = none

def Delivery.DispatchedAnew (trimSpace : Trim) (x : Delivery) (s : Store) : Prop :=
  ∃ c₀ c r, x.command trimSpace = .ok c₀ ∧ c₀.withIDs (x.env .submit) = .ok c ∧
    Recorded c (x.handle trimSpace s) r ∧ .dispatching c ∈ (x.handle trimSpace s).acts

/-- A message that is served gets through exactly if its key is free. -/
theorem dispatchedAnew_iff (hx : x.Served trimSpace c) :
    x.DispatchedAnew trimSpace s ↔ s.idempotency.lookup c.idempotencyKey = none := by
  obtain ⟨c₀,hc₀,hids⟩ := hx.request
  have hhandle : x.handle trimSpace s = Output.submit x.env s c₀ := by
    simp [Delivery.handle,hc₀]
  have hkey := Output.withIDs_key hids
  constructor
  · rintro ⟨_,_,_,_,_,_,hdispatching⟩
    by_contra hbound
    rw [hkey] at hbound
    rw [hhandle,Output.submit_of_taken hbound] at hdispatching
    cases hdispatching
  · intro hfree
    obtain ⟨_,_,_,_,_,_,hrevision⟩ := command_inv hc₀
    have hvalidates : Output.Validates x.env s c₀ c :=
      { ctx := hx.ctx, ids := hids, valid := hx.valid, free := by simp [Store.lookup,hfree]
        live := hx.live, allowed := hx.allowed
        current := fun expected hexpected => by
          obtain ⟨_,_,rfl⟩ := Output.withIDs_eq hids
          simp [hrevision] at hexpected }
    obtain ⟨acts,hacts,hsubmit⟩ := Output.submit_eq_record hvalidates
    obtain ⟨r,hr,_⟩ : ∃ r, Recorded c (Solo.finish x.env ⟨s,.record c .validated,acts⟩) r ∧ _ :=
      Output.finish_record .validated hacts
    refine ⟨c₀,c,r,hc₀,hids,?_,?_⟩
    · rw [hhandle,hsubmit]
      exact hr
    · rw [hhandle,hsubmit]
      exact Output.finish_dispatches hx.recorded hx.marked

end Handling

section Runs

variable {trimSpace : Trim} {x : Delivery} {s : Store} {c : Command} {k : String}
  {steps : List BridgeStep}

theorem handle_keys (trimSpace : Trim) (x : Delivery) (s : Store) (k : String) :
    let s' := (x.handle trimSpace s).store
    s'.idempotency.lookup k = s.idempotency.lookup k ∨
      (∃ c, x.command trimSpace = .ok c ∧ c.idempotencyKey = k) ∧
        s'.idempotency.lookup k ≠ none := by
  unfold Delivery.handle
  cases hc : x.command trimSpace with
  | error err => exact .inl rfl
  | ok c =>
    rcases (Output.finish_keys x.env s (.submit c) k).bound with hsame | ⟨hbinds,hbound⟩
    · exact .inl hsame
    · exact .inr ⟨⟨c,rfl,Option.some.inj hbinds⟩,hbound⟩

theorem step_keys (trimSpace : Trim) (l : BridgeStep) (s : Store) (k : String) :
    let s' := l.apply trimSpace s
    s'.idempotency.lookup k = s.idempotency.lookup k ∨
      (∃ x ∈ l.delivery, ∃ c, x.command trimSpace = .ok c ∧ c.idempotencyKey = k) ∧
        s'.idempotency.lookup k ≠ none := by
  cases l with
  | command x =>
    rcases handle_keys trimSpace x s k with hsame | ⟨hkey,hbound⟩
    · exact .inl hsame
    · exact .inr ⟨⟨x,rfl,hkey⟩,hbound⟩
  | reconcile env id on t =>
    rcases (Output.finish_keys env s (.reconcile id on t) k).bound with hsame | ⟨hbinds,_⟩
    · exact .inl hsame
    · cases hbinds
  | expireAcknowledged env id reason t =>
    rcases (Output.finish_keys env s (.expireAcknowledged id reason t) k).bound with
      hsame | ⟨hbinds,_⟩
    · exact .inl hsame
    · cases hbinds

theorem deliveries_cons (l : BridgeStep) (steps : List BridgeStep) :
    deliveries (l::steps) = l.delivery.toList++deliveries steps := by
  cases l <;> rfl

theorem step_bound (trimSpace : Trim) (l : BridgeStep) (h : s.idempotency.lookup k ≠ none) :
    (l.apply trimSpace s).idempotency.lookup k ≠ none := by
  rcases step_keys trimSpace l s k with hsame | ⟨_,hbound⟩
  · rwa [hsame]
  · exact hbound

theorem run_bound (trimSpace : Trim) (h : s.idempotency.lookup k ≠ none) (steps : List BridgeStep) :
    (run (BridgeStep.apply trimSpace) s steps).idempotency.lookup k ≠ none := by
  refine invariant_always (I := fun s : Store => s.idempotency.lookup k ≠ none) ?_ h steps
  exact fun s l hs => step_bound trimSpace l hs

/-- A key that was not bound before belongs to a message of the run. -/
theorem bound_of_run (h : (run (BridgeStep.apply trimSpace) s steps).idempotency.lookup k ≠ none) :
    s.idempotency.lookup k ≠ none ∨
      ∃ y ∈ deliveries steps, ∃ c, y.command trimSpace = .ok c ∧ c.idempotencyKey = k := by
  induction steps generalizing s with
  | nil => exact .inl h
  | cons l steps ih =>
    rw [deliveries_cons]
    rcases ih h with hbound | ⟨y,hy,hkey⟩
    · rcases step_keys trimSpace l s k with hsame | ⟨⟨y,hy,hkey⟩,_⟩
      · exact .inl (by rwa [hsame] at hbound)
      · exact .inr ⟨y,List.mem_append_left _ (Option.mem_toList.mpr hy),hkey⟩
    · exact .inr ⟨y,List.mem_append_right _ hy,hkey⟩

theorem handle_bound (hx : x.Served trimSpace c) :
    (x.handle trimSpace s).store.idempotency.lookup c.idempotencyKey ≠ none := by
  by_cases hfree : s.idempotency.lookup c.idempotencyKey = none
  · obtain ⟨c₀,c',r,hc₀,hids,hrecorded,_⟩ := (dispatchedAnew_iff hx).mpr hfree
    obtain ⟨c₁,hc₁,hids₁⟩ := hx.request
    rw [hc₀] at hc₁
    cases hc₁
    rw [hids] at hids₁
    cases hids₁
    simp [hrecorded.key]
  · exact step_bound trimSpace (.command x) hfree

theorem run_served {y : Delivery} (hy : y ∈ deliveries steps) (hserved : y.Served trimSpace c) :
    (run (BridgeStep.apply trimSpace) s steps).idempotency.lookup c.idempotencyKey ≠ none := by
  induction steps generalizing s with
  | nil => cases hy
  | cons l steps ih =>
    rw [deliveries_cons] at hy
    rcases List.mem_append.mp hy with hy | hy
    · cases l with
      | command x =>
        obtain rfl : y = x := by simpa [BridgeStep.delivery] using hy
        exact run_bound trimSpace (handle_bound hserved) steps
      | reconcile env id on t => cases hy
      | expireAcknowledged env id reason t => cases hy
    · exact ih hy

/-- In every run, a served message gets through as a new command if no earlier message that asks
the same of the same equipment has its message ID; and if all earlier messages were served, only
then. -/
theorem last_command_dispatched_iff (trimSpace : Trim) (steps : List BridgeStep) {x : Delivery}
    {c : Command} (hx : x.Served trimSpace c) : let s := run (BridgeStep.apply trimSpace) {} steps
    let fresh := ∀ y ∈ deliveries steps, y.Alike trimSpace x →
      y.message.messageID ≠ x.message.messageID
    (fresh → x.DispatchedAnew trimSpace s) ∧
      ((∀ y ∈ deliveries steps, ∃ c', y.Served trimSpace c') →
        (x.DispatchedAnew trimSpace s ↔ fresh)) := by
  intro s fresh
  obtain ⟨c₀,hc₀,hids⟩ := hx.request
  have hkey := Output.withIDs_key hids
  have hsufficient : fresh → x.DispatchedAnew trimSpace s := by
    intro hfresh
    rw [dispatchedAnew_iff hx]
    by_contra hbound
    rcases bound_of_run hbound with hempty | ⟨y,hy,c',hc',hk⟩
    · exact hempty rfl
    · obtain ⟨halike,hid⟩ := (key_eq_iff hc' hc₀).mp (hk.trans hkey)
      exact hfresh y hy halike hid
  refine ⟨hsufficient,fun hall => ⟨fun hanew y hy halike hid => ?_,hsufficient⟩⟩
  obtain ⟨c',hserved⟩ := hall y hy
  obtain ⟨c₁,hc₁,hids₁⟩ := hserved.request
  have hsame : c'.idempotencyKey = c.idempotencyKey := by
    rw [Output.withIDs_key hids₁,hkey]
    exact (key_eq_iff hc₁ hc₀).mpr ⟨halike,hid⟩
  have hbound := run_served (s := {}) hy hserved
  rw [hsame] at hbound
  exact hbound ((dispatchedAnew_iff hx).mp hanew)

section Samples

def lampManager : Manager := { testManager with allowed := allowedEquipment [lamp] }

def lampTopic : String :=
  "aquaos/test-reef/v1/home-assistant/equipment-33333333-3333-4333-8333-333333333333/set"

def lampRequest (on : Bool) (messageID : UInt16) (id : CommandID) : Delivery where
  manager := lampManager
  message := ⟨lampTopic,bytes (if on then "ON" else "OFF"),messageID⟩
  now := 1
  correlationID := .ok "00000000-0000-4000-8000-000000000009"
  env _ := { commandID := .ok id, now := 1 }

def lampCommand (on : Bool) (messageID : UInt16) (id : CommandID) : Command :=
  { id, idempotencyKey := commandKey ("equipment-"++lamp.id) messageID on
    correlationID := "00000000-0000-4000-8000-000000000009", equipmentID := lamp.id
    requester := "home-assistant", issuedAt := 1, expiresAt := 1+10*Configuration.second, on }

/-- The payloads of the samples have no space around them. -/
theorem lampRequest_served {on : Bool} {messageID : UInt16} {id : CommandID}
    (h : Output.validateCommand (lampCommand on messageID id) = none) :
    (lampRequest on messageID id).Served (fun raw => raw) (lampCommand on messageID id) where
  request := by
    have hsplit : split '/' lampTopic =
        ["aquaos","test-reef","v1","home-assistant","equipment-"++lamp.id,"set"] := by
      decide +kernel
    have hallowed : (allowedEquipment [lamp]).lookup ("equipment-"++lamp.id) = some lamp.id := by
      decide +kernel
    have hasked : direction (bytes (if on then "ON" else "OFF")) = some on := by
      cases on <;> decide
    refine ⟨lampCommand on messageID "",?_,rfl⟩
    simp [Delivery.command,Manager.command,Manager.commandFor,lampRequest,hsplit,hallowed,hasked,
      lampCommand,lampManager,testManager,testReef]
  ctx := rfl
  valid := h
  live := by
    show (1 : ℤ) < 1+10*Configuration.second
    decide
  allowed := ⟨_,rfl,rfl⟩
  recorded := rfl
  marked := rfl

def firstLampID : CommandID := "50000000-0000-4000-8000-000000000001"
def secondLampID : CommandID := "50000000-0000-4000-8000-000000000002"
def thirdLampID : CommandID := "50000000-0000-4000-8000-000000000003"

def lampBlink (first second : UInt16) : List BridgeStep :=
  [.command (lampRequest true first firstLampID),
    .reconcile (fun _ => { now := 2 }) firstLampID true 2,
    .command (lampRequest false second secondLampID),
    .reconcile (fun _ => { now := 3 }) secondLampID false 3]

theorem lamp_on_again :
    (lampRequest true 3 thirdLampID).DispatchedAnew (fun raw => raw)
      (run (BridgeStep.apply fun raw => raw) {} (lampBlink 1 2)) := by
  have hfresh : ∀ y ∈ deliveries (lampBlink 1 2), y.message.messageID ≠ 3 := by
    simp [deliveries,lampBlink,BridgeStep.delivery,lampRequest]
  exact (last_command_dispatched_iff (fun raw => raw) (lampBlink 1 2)
    (lampRequest_served (by decide +kernel))).1 fun y hy _ => hfresh y hy

/-- At QoS 0 all message IDs are zero: the lamp is on, then off, and the second request to switch
it on is answered with the record of the first. -/
theorem lamp_stays_off :
    let s := run (BridgeStep.apply fun raw => raw) {} (lampBlink 0 0)
    let o := (lampRequest true 0 thirdLampID).handle (fun raw => raw) s
    (lampRequest true 0 thirdLampID).Served (fun raw => raw) (lampCommand true 0 thirdLampID) ∧
      (s.results.lookup firstLampID).map Output.Result.status = some .succeeded ∧
      (s.results.lookup secondLampID).map Output.Result.status = some .succeeded ∧
      o.point = .returned ⟨s.results.lookup firstLampID,none⟩ ∧ o.acts = [] ∧
      ¬ (lampRequest true 0 thirdLampID).DispatchedAnew (fun raw => raw) s := by
  intro s o
  have hrun : (s.results.lookup firstLampID).map Output.Result.status = some .succeeded ∧
      (s.results.lookup secondLampID).map Output.Result.status = some .succeeded ∧
      o.point = .returned ⟨s.results.lookup firstLampID,none⟩ ∧ o.acts = [] := by decide +kernel
  obtain ⟨hfirst,hsecond,hpoint,hacts⟩ := hrun
  refine ⟨lampRequest_served (by decide +kernel),hfirst,hsecond,hpoint,hacts,?_⟩
  rintro ⟨c₀,c,r,_,_,_,hdispatching⟩
  change _ ∈ o.acts at hdispatching
  rw [hacts] at hdispatching
  cases hdispatching

end Samples

end Runs

end HomeAssistant
end AquaOS
