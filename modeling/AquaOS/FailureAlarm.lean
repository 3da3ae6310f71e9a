import AquaOS.Coordinator
import AquaOS.Scan
import AquaOS.Transition

/-! The two views of a Shelly failure: the coordinator's flag and the alarm engine's alarm.
`Observe` ignores an observation that is not newer than the last one of its rule, while the
flag is always written, so the views part when one instant is observed twice with different
conditions and nothing else brings them together. -/
namespace AquaOS

open Domain Transition

namespace Alarms

variable {m : Manager} {st : RuleState} {o : Observation}

theorem applies_rule {newID : Except Failure AlarmID} {out : Outcome}
    (h : Applies m newID st o out) : out.state.rule = st.rule := by
  cases h <;> rfl

theorem call_rule {r : RuleID} (hst : m.rules.lookup r = some st)
    (c : AlarmCall) : ∃ st', (m.call c).rules.lookup r = some st' ∧ st'.rule = st.rule := by
  rcases call_cases m c with ⟨a,o,rfl⟩ | ⟨_,hm | ⟨_,rule,hnew,_,hm⟩ | ⟨_,_,_,_,_,_,hm,_⟩⟩
  · unfold Manager.call
    dsimp only
    rcases observe_cases m a o with ⟨_,_,hm⟩ | ⟨st',hst',⟨_,hm⟩ | ⟨_,o',out,_,_,happ,hm⟩⟩
    · exact ⟨st,by rwa [hm],rfl⟩
    · exact ⟨st,by rwa [hm],rfl⟩
    · rw [hm]
      dsimp only
      rw [store_rules]
      by_cases hr : r = o.ruleID
      · rw [← hr,hst] at hst'
        obtain rfl := Option.some.inj hst'
        exact ⟨out.state,if_pos hr,(applies_rule happ).trans rfl⟩
      · exact ⟨st,by rwa [if_neg hr],rfl⟩
  · exact ⟨st,by rwa [hm],rfl⟩
  · have hne : r ≠ rule.id := by
      rintro rfl
      exact hnew (Table.mem_of_lookup hst)
    exact ⟨st,by rw [hm]; exact (AList.lookup_insert_ne hne).trans hst,rfl⟩
  · exact ⟨st,by rwa [hm],rfl⟩

/-- An observation of a rule without debounce that returns no error leaves the alarm live
exactly when the condition is active, unless it is a stale one, which changes nothing. -/
theorem observe_live (h : m.Consistent) {a : Answer}
    (hs : Supplied m (.observe a o)) (hst : m.rules.lookup o.ruleID = some st)
    (hdeb : st.rule.debounce = 0) (herr : (m.observe a o).1.2.2 = none) :
    if st.Fresh (o.instant a) then ((m.observe a o).2.Live o.ruleID ↔ o.active = true)
    else (m.observe a o).2 = m := by
  rcases observe_cases m a o with ⟨err,hsome,_⟩ | ⟨st',hst',hcase⟩
  · rw [hsome] at herr
    cases herr
  · obtain rfl := Option.mem_unique hst hst'
    rcases hcase with ⟨hstale,hm⟩ | ⟨hfresh,o',out,hactive,htime,happ,hm⟩
    · rw [if_neg hstale,hm]
    · rw [if_pos hfresh,hm]
      rw [hm] at herr
      have hnone : out.err = none := by
        unfold Outcome.failure at herr
        dsimp only at herr
        split_ifs at herr with hfail
        · exact herr
        · simpa using fun hc => hfail (.inl hc)
      rw [← hactive]
      exact applied_live h hst hdeb hs.2 (htime ▸ instant_ne_zero hs.1 o) (htime ▸ hfresh) happ
        hnone

end Alarms

namespace Bench

open Alarms SafetyEngine Scan

section Registration

variable {context : String} {ctx : Option Failure}

variable {m m' : Manager} {rules : List Rule} {rule : Rule} {c : Coordinator}
  {order : PolicyOrder c}

theorem registerAll_cons (h : registerAll context ctx m (rule::rules) = .ok m') :
    ∃ m₁, m.registerRule ctx rule = .ok m₁ ∧ m.call (.registerRule ctx rule) = m₁ ∧
      registerAll context ctx m₁ rules = .ok m' := by
  unfold registerAll at h
  cases hone : m.registerRule ctx rule with
  | error err =>
    rw [hone] at h
    cases h
  | ok m₁ =>
    rw [hone] at h
    exact ⟨m₁,rfl,by simp [Manager.call,hone],h⟩

theorem registerAll_consistent (h : m.Consistent)
    (hreg : registerAll context ctx m rules = .ok m') : m'.Consistent := by
  induction rules generalizing m with
  | nil => cases hreg; exact h
  | cons rule rules ih =>
    obtain ⟨m₁,_,hcall,hrest⟩ := registerAll_cons hreg
    have hfirst := call_consistent h (.registerRule ctx rule) trivial
    rw [hcall] at hfirst
    exact ih hfirst hrest

/-- Registration keeps what is registered and adds every rule of the list. -/
theorem registerAll_registers (hreg : registerAll context ctx m rules = .ok m') :
    (∀ r st, m.rules.lookup r = some st → ∃ st', m'.rules.lookup r = some st' ∧
      st'.rule = st.rule) ∧
    ∀ rule ∈ rules, ∃ st, m'.rules.lookup rule.id = some st ∧ st.rule = rule := by
  induction rules generalizing m with
  | nil =>
    cases hreg
    exact ⟨fun r st hst => ⟨st,hst,rfl⟩,fun _ hmem => nomatch hmem⟩
  | cons rule rules ih =>
    obtain ⟨m₁,hone,hcall,hrest⟩ := registerAll_cons hreg
    obtain ⟨hkept,hadded⟩ := ih hrest
    refine ⟨fun r st hst => ?_,fun rule' hmem => ?_⟩
    · obtain ⟨st₁,hst₁,hrule₁⟩ := call_rule hst (.registerRule ctx rule)
      obtain ⟨st₂,hst₂,hrule₂⟩ := hkept r st₁ (hcall ▸ hst₁)
      exact ⟨st₂,hst₂,hrule₂.trans hrule₁⟩
    · rcases List.mem_cons.mp hmem with rfl | hlater
      · have hfirst : m₁.rules.lookup rule'.id = some { rule := rule' } := by
          rw [(registerRule_ok hone).2]
          exact AList.lookup_insert _
        obtain ⟨st',hst',hrule'⟩ := hkept _ _ hfirst
        exact ⟨st',hst',hrule'⟩
      · exact hadded rule' hlater

theorem registerRules_spec (h : m.Consistent) (hreg : c.registerRules ctx order m = .ok m') :
    m'.Consistent ∧ ∀ id p, c.shelly.lookup id = some p →
      ∃ st, m'.rules.lookup p.ruleID = some st ∧ st.rule = p.rule := by
  unfold Coordinator.registerRules at hreg
  cases hone : registerAll "register Shelly alarm" ctx m (order.shelly.map ShellyPolicy.rule) with
  | error err => rw [hone] at hreg; cases hreg
  | ok m₁ =>
    rw [hone] at hreg
    refine ⟨registerAll_consistent (registerAll_consistent h hone) hreg,fun id p hp => ?_⟩
    have hmem : p ∈ order.shelly := by
      rw [order.shelly_perm.mem_iff,List.mem_map]
      exact ⟨⟨id,p⟩,AList.mem_lookup_iff.mp hp,rfl⟩
    obtain ⟨st,hst,hrule⟩ := (registerAll_registers hone).2 p.rule (List.mem_map_of_mem hmem)
    obtain ⟨st',hst',hrule'⟩ := (registerAll_registers hreg).1 p.ruleID st hst
    exact ⟨st',hst',hrule'.trans hrule⟩

theorem registerAll_single :
    registerAll context none m [rule] = .ok m' ↔ validateRule rule = none ∧
      rule.id ∉ m.rules ∧ m' = { m with rules := m.rules.insert rule.id { rule := rule } } := by
  simp only [registerAll,Manager.registerRule]
  cases validateRule rule with
  | some err => simp
  | none => by_cases hm : rule.id ∈ m.rules <;> simp [hm,eq_comm]

theorem registerAll_scan (rules : List Rule) : registerAll context none m rules =
      scan (fun _ m rule => registerAll context none m [rule]) 0 m rules := by
  refine eq_scan (fun _ => rfl) fun m rule rules => ?_
  simp only [registerAll]
  cases m.registerRule none rule <;> rfl

/-- A loop of valid rules registers exactly if no rule ID is taken twice. -/
theorem registerAll_ok_iff (context : String) (m : Manager)
    (hv : ∀ rule ∈ rules, validateRule rule = none) :
    (∃ m', registerAll context none m rules = .ok m') ↔
      (rules.map Rule.id).Nodup ∧ ∀ rule ∈ rules, rule.id ∉ m.rules := by
  rw [registerAll_scan,scan_inserts_iff (H := fun m id => id ∈ m.rules)
    (fun _ _ _ _ _ => registerAll_single) (fun _ _ _ _ => by simp)]
  exact ⟨fun h => h.2,fun h => ⟨hv,h⟩⟩

theorem registerAll_rules (h : registerAll context none m rules = .ok m') (id : RuleID) :
    id ∈ m'.rules ↔ id ∈ rules.map Rule.id ∨ id ∈ m.rules := by
  rw [registerAll_scan] at h
  exact scan_inserts_holds (H := fun m id => id ∈ m.rules) h
    (fun _ _ _ _ _ => registerAll_single) (fun _ _ _ _ => by simp) id

/-- A coordinator whose rules are all valid registers them in an alarm engine without rules
exactly if their IDs are distinct. -/
theorem registerRules_ok_iff (hempty : m.rules = ∅)
    (hs : ∀ p ∈ order.shelly, validateRule p.rule = none)
    (he : ∀ p ∈ order.esp32, validateRule p.rule = none) :
    (∃ m', c.registerRules none order m = .ok m') ↔
      (order.shelly.map ShellyPolicy.ruleID++order.esp32.map ESP32Policy.ruleID).Nodup := by
  have hshelly := registerAll_ok_iff "register Shelly alarm" m (List.forall_mem_map.mpr hs)
  have hesp32 := fun m₁ => registerAll_ok_iff "register ESP32 alarm" m₁ (List.forall_mem_map.mpr he)
  simp only [List.map_map,List.forall_mem_map] at hshelly hesp32
  rw [List.nodup_append]
  unfold Coordinator.registerRules
  constructor
  · rintro ⟨m',hm'⟩
    cases hm : registerAll "register Shelly alarm" none m (order.shelly.map ShellyPolicy.rule) with
    | error err => rw [hm] at hm'; cases hm'
    | ok m₁ =>
      rw [hm] at hm'
      have hheld := registerAll_rules hm
      obtain ⟨hnd,hfree⟩ := (hesp32 m₁).mp ⟨m',hm'⟩
      refine ⟨(hshelly.mp ⟨m₁,hm⟩).1,hnd,?_⟩
      rintro id hid id' hid' rfl
      obtain ⟨p,hp,hrule⟩ := List.mem_map.mp hid'
      refine hfree p hp ((hheld p.ruleID).mpr (.inl ?_))
      rw [List.map_map,hrule]
      exact hid
  · rintro ⟨hnd,hnd',hdisj⟩
    obtain ⟨m₁,hm⟩ := hshelly.mpr ⟨hnd,by simp [hempty]⟩
    have hheld := registerAll_rules hm
    rw [hm]
    refine (hesp32 m₁).mpr ⟨hnd',fun p hp hin => ?_⟩
    rcases (hheld p.ruleID).mp hin with hs' | hno
    · rw [List.map_map] at hs'
      exact hdisj p.ruleID hs' p.ruleID (List.mem_map_of_mem hp) rfl
    · simp [hempty] at hno

end Registration

structure Site where
  coordinator : Coordinator
  alarms : Manager

/-- The atomic sections of all calls on the two: those of the alarm engine, whoever calls it,
and the lock section of `ShellyFailure`. -/
inductive Section
  | alarm (c : AlarmCall)
  | mark (f : ShellyCall)

def Site.step (s : Site) : Section → Site
  | .alarm c => { s with alarms := s.alarms.call c }
  | .mark f => { s with coordinator := s.coordinator.mark f }

def Site.Supplied (s : Site) : Section → Prop
  | .alarm c => Alarms.Supplied s.alarms c
  | .mark _ => True

instance (s : Site) : (x : Section) → Decidable (s.Supplied x)
  | .alarm c => inferInstanceAs (Decidable (Alarms.Supplied s.alarms c))
  | .mark _ => .isTrue trivial

structure CallRun where
  call : ShellyCall
  answer : Alarms.Answer
  between : List Section := []
  submitted : Option Failure := none
  rest : List Section := []

def CallRun.mark (x : CallRun) (s : Site) : Site :=
  let s := run Site.step s x.between
  { s with coordinator := s.coordinator.mark x.call }

def CallRun.finish (x : CallRun) (s : Site) : List Failure × Site :=
  match s.coordinator.observeShelly s.alarms x.answer x.call with
  | (.error err,m) => ([err],{ s with alarms := m })
  | (.ok alarmErr,m) =>
    let observed : Site := { s with alarms := m }
    let requested := (run Site.step observed x.between).coordinator.requests x.call
    (alarmErr.toList++(if requested then x.submitted.toList else []),
      run Site.step (x.mark observed) x.rest)

/-- The section belongs to a call on another endpoint, or to an operator. -/
def Section.Foreign (id : EndpointID) (r : RuleID) : Section → Prop
  | .alarm c => c.observes ≠ some r
  | .mark f => f.endpoint.id ≠ id

instance (id : EndpointID) (r : RuleID) : (x : Section) → Decidable (x.Foreign id r)
  | .alarm c => inferInstanceAs (Decidable (c.observes ≠ some r))
  | .mark f => inferInstanceAs (Decidable (f.endpoint.id ≠ id))

/-- What is assumed of a call's surroundings: clock and alarm IDs, and that no other call on
the same endpoint runs at the same time, as each endpoint has one worker. -/
structure CallRun.Surrounded (x : CallRun) (s : Site) (r : RuleID) : Prop where
  answer : x.answer.now ≠ 0 ∧ NewAlarmID s.alarms x.answer.alarmID
  between : Guarded Site.step Site.Supplied
    { s with alarms := (s.coordinator.observeShelly s.alarms x.answer x.call).2 } x.between
  rest : Guarded Site.step Site.Supplied
    (x.mark { s with alarms := (s.coordinator.observeShelly s.alarms x.answer x.call).2 }) x.rest
  foreign : ∀ y ∈ x.between++x.rest, y.Foreign x.call.endpoint.id r

section Sections

variable {s : Site} {ys : List Section} {r : RuleID}

theorem step_consistent (y : Section) (h : s.alarms.Consistent) (hs : s.Supplied y) :
    (s.step y).alarms.Consistent := by
  cases y with
  | alarm c => exact call_consistent h c hs
  | mark f => exact h

theorem sections_consistent (h : s.alarms.Consistent)
    (hs : Guarded Site.step Site.Supplied s ys) : (run Site.step s ys).alarms.Consistent := by
  have hstep : ∀ (s : Site) y, s.alarms.Consistent → s.Supplied y →
      (s.step y).alarms.Consistent := fun s y => step_consistent y
  exact invariant_run hstep h hs

theorem sections_policies (s : Site) (ys : List Section) :
    (run Site.step s ys).coordinator.shelly = s.coordinator.shelly := by
  induction ys generalizing s with
  | nil => rfl
  | cons y ys ih =>
    rw [run_cons,ih]
    cases y <;> rfl

theorem sections_rule {st : RuleState} (hst : s.alarms.rules.lookup r = some st)
    (ys : List Section) :
    ∃ st', (run Site.step s ys).alarms.rules.lookup r = some st' ∧ st'.rule = st.rule := by
  induction ys generalizing s st with
  | nil => exact ⟨st,hst,rfl⟩
  | cons y ys ih =>
    have hone : ∃ st', (s.step y).alarms.rules.lookup r = some st' ∧ st'.rule = st.rule := by
      cases y with
      | alarm c => exact call_rule hst c
      | mark f => exact ⟨st,hst,rfl⟩
    obtain ⟨st₁,hst₁,hrule₁⟩ := hone
    obtain ⟨st₂,hst₂,hrule₂⟩ := ih hst₁
    exact ⟨st₂,hst₂,hrule₂.trans hrule₁⟩

/-- Foreign sections change neither view of the endpoint's failure. -/
theorem sections_foreign {e : EndpointID} (h : s.alarms.Consistent)
    (hs : Guarded Site.step Site.Supplied s ys) (hf : ∀ y ∈ ys, y.Foreign e r) :
    (run Site.step s ys).coordinator.wasActive e = s.coordinator.wasActive e ∧
    ((run Site.step s ys).alarms.Live r ↔ s.alarms.Live r) := by
  induction ys generalizing s with
  | nil => exact ⟨rfl,Iff.rfl⟩
  | cons y ys ih =>
    have hrest := ih (step_consistent y h hs.1) hs.2 fun z hz => hf z (List.mem_cons_of_mem _ hz)
    have hone : (s.step y).coordinator.wasActive e = s.coordinator.wasActive e ∧
        ((s.step y).alarms.Live r ↔ s.alarms.Live r) := by
      have hy := hf y List.mem_cons_self
      cases y with
      | alarm c => exact ⟨rfl,call_live h c hs.1 hy⟩
      | mark f =>
        refine ⟨?_,Iff.rfl⟩
        have hne : e ≠ f.endpoint.id := fun he => hy he.symm
        show ((s.coordinator.shellyActive.insert f.endpoint.id f.active).lookup e).getD false = _
        rw [AList.lookup_insert_ne hne]
        rfl
    exact ⟨hrest.1.trans hone.1,hrest.2.trans hone.2⟩

end Sections

@[simp] theorem mark_wasActive (c : Coordinator) (f : ShellyCall) :
    (c.mark f).wasActive f.endpoint.id = f.active := by
  simp [Coordinator.mark,Coordinator.wasActive]

/-- The observation of the call is the first one of its rule or newer than the last. -/
def CallRun.Fresh (x : CallRun) (s : Site) (r : RuleID) : Prop :=
  ∃ st, s.alarms.rules.lookup r = some st ∧
    st.Fresh ((x.call.observation r).instant x.answer)

/-- The two views of the failure agree with what the call reported. -/
def Agree (s : Site) (f : ShellyCall) (r : RuleID) : Prop :=
  s.coordinator.wasActive f.endpoint.id = f.active ∧ (s.alarms.Live r ↔ f.active = true)

/-- After the rules have been registered and any calls have run, a `ShellyFailure` call that
returns no error leaves the flag as reported, and the two views agree exactly when its
observation was newer than the last one or the alarm already was as reported. -/
theorem failure_views_agree_iff {c : Coordinator} {order : PolicyOrder c} {m : Manager}
    (hreg : c.registerRules none order {} = .ok m) (before : List Section)
    (hbefore : Guarded Site.step Site.Supplied ⟨c,m⟩ before) (x : CallRun) {p : ShellyPolicy}
    (hp : c.shelly.lookup x.call.endpoint.id = some p)
    (hx : x.Surrounded (run Site.step ⟨c,m⟩ before) p.ruleID)
    (hnil : (x.finish (run Site.step ⟨c,m⟩ before)).1 = []) :
    (x.finish (run Site.step ⟨c,m⟩ before)).2.coordinator.wasActive x.call.endpoint.id =
      x.call.active ∧
    (Agree (x.finish (run Site.step ⟨c,m⟩ before)).2 x.call p.ruleID ↔
      x.Fresh (run Site.step ⟨c,m⟩ before) p.ruleID ∨
      ((run Site.step ⟨c,m⟩ before).alarms.Live p.ruleID ↔ x.call.active = true)) := by
  obtain ⟨hcons,hrules⟩ := registerRules_spec empty_consistent hreg
  obtain ⟨st₀,hst₀,hrule₀⟩ := hrules _ p hp
  have hs := sections_consistent hcons hbefore
  obtain ⟨st,hst,hrule⟩ := sections_rule (s := ⟨c,m⟩) hst₀ before
  have hdeb : st.rule.debounce = 0 := by rw [hrule,hrule₀]; rfl
  have hlook := congrArg (AList.lookup x.call.endpoint.id) (sections_policies ⟨c,m⟩ before)
  rw [hp] at hlook
  generalize run Site.step ⟨c,m⟩ before = s at *
  have hobs : s.coordinator.observeShelly s.alarms x.answer x.call =
      (.ok (s.alarms.observe x.answer (x.call.observation p.ruleID)).1.2.2,
        (s.alarms.observe x.answer (x.call.observation p.ruleID)).2) := by
    simp [Coordinator.observeShelly,hlook]
  have hbetween := hx.between
  have hrest := hx.rest
  unfold CallRun.finish at hnil ⊢
  rw [hobs] at hnil hbetween hrest ⊢
  dsimp only at hnil hbetween hrest ⊢
  have herr : (s.alarms.observe x.answer (x.call.observation p.ruleID)).1.2.2 = none := by
    simpa using (List.append_eq_nil_iff.mp hnil).1
  have hlive := observe_live hs (a := x.answer) (o := x.call.observation p.ruleID) hx.answer hst
    hdeb herr
  have hobserved := observe_consistent hs x.answer (x.call.observation p.ruleID) hx.answer
  generalize (s.alarms.observe x.answer (x.call.observation p.ruleID)).2 = m₁ at *
  have hfirst := sections_foreign (e := x.call.endpoint.id) hobserved hbetween fun y hy =>
    hx.foreign y (List.mem_append_left _ hy)
  have hmid : (x.mark { s with alarms := m₁ }).alarms.Consistent :=
    sections_consistent hobserved hbetween
  have hsecond := sections_foreign hmid hrest fun y hy =>
    hx.foreign y (List.mem_append_right _ hy)
  have hflag : (run Site.step (x.mark { s with alarms := m₁ }) x.rest).coordinator.wasActive
      x.call.endpoint.id = x.call.active := hsecond.1.trans (mark_wasActive _ _)
  have hview : (run Site.step (x.mark { s with alarms := m₁ }) x.rest).alarms.Live p.ruleID ↔
      m₁.Live p.ruleID := hsecond.2.trans hfirst.2
  refine ⟨hflag,?_⟩
  unfold Agree CallRun.Fresh
  rw [hview,and_iff_right hflag]
  have hst' : (∃ st', s.alarms.rules.lookup p.ruleID = some st' ∧
      st'.Fresh ((x.call.observation p.ruleID).instant x.answer)) ↔
      st.Fresh ((x.call.observation p.ruleID).instant x.answer) := by
    constructor
    · rintro ⟨st',hst',hfresh⟩
      obtain rfl := Option.mem_unique hst hst'
      exact hfresh
    · exact fun hfresh => ⟨st,hst,hfresh⟩
  rw [hst']
  split_ifs at hlive with hfresh
  · exact iff_of_true hlive (.inl hfresh)
  · rw [hlive]
    exact ⟨.inr,fun h => h.resolve_left hfresh⟩

def outletSwitch : Shelly.Endpoint :=
  { id := "60000000-0000-4000-8000-000000000001", equipmentID := outletID
    baseURL := "http://outlet", channel := 0, pollInterval := 10000000000
    requestTimeout := 2000000000, retries := 1, safeOn := false, powerReturnPolicy := .off }

def outletPolicy : ShellyPolicy := ⟨outletSwitch,"70000000-0000-4000-8000-000000000001"⟩

def outletCoordinator : Coordinator :=
  { shelly := (∅ : Table EndpointID ShellyPolicy).insert outletSwitch.id outletPolicy }

def outletOrder : PolicyOrder outletCoordinator :=
  ⟨[outletPolicy],[],.refl _,.refl _⟩

def outletAlarms : Manager :=
  { rules := (∅ : Table RuleID RuleState).insert outletPolicy.ruleID { rule := outletPolicy.rule } }

def outletAnswer : Alarms.Answer :=
  { now := newYear, correlationID := .ok "80000000-0000-4000-8000-000000000001"
    alarmID := .ok "90000000-0000-4000-8000-000000000001" }

def convergedAt (t : ℤ) : List Section :=
  [.alarm (.observe outletAnswer
    (ShellyCall.observation ⟨outletSwitch,false,"shelly.reported_converged",t⟩ outletPolicy.ruleID)),
    .mark ⟨outletSwitch,false,"shelly.reported_converged",t⟩]

def expiredAt (t : ℤ) : CallRun :=
  { call := ⟨outletSwitch,true,"shelly.reconciliation_expired",t⟩, answer := outletAnswer }

theorem failure_raises_alarm :
    Agree ((expiredAt (newYear+1000000000)).finish
      (run Site.step ⟨outletCoordinator,outletAlarms⟩ (convergedAt newYear))).2
      (expiredAt (newYear+1000000000)).call outletPolicy.ruleID := by
  have hreg : outletCoordinator.registerRules none outletOrder {} = .ok outletAlarms := by rfl
  have hx : (expiredAt (newYear+1000000000)).Surrounded
      (run Site.step ⟨outletCoordinator,outletAlarms⟩ (convergedAt newYear))
      outletPolicy.ruleID :=
    ⟨by decide,trivial,trivial,fun y hy => nomatch hy⟩
  refine (failure_views_agree_iff hreg (convergedAt newYear) (by decide)
    (expiredAt (newYear+1000000000)) (p := outletPolicy) (by rfl) hx (by rfl)).2.mpr (.inl ?_)
  exact ⟨_,by rfl,by decide⟩

/-- A poll that reports the endpoint converged and then finds its command expired makes two
calls with one instant: the flag says failing, and there is no alarm. -/
theorem expiry_alarm_lost :
    ¬ ∀ (c : Coordinator) (order : PolicyOrder c) (m : Manager) (before : List Section)
      (x : CallRun) (p : ShellyPolicy), c.registerRules none order {} = .ok m →
      Guarded Site.step Site.Supplied ⟨c,m⟩ before →
      c.shelly.lookup x.call.endpoint.id = some p →
      x.Surrounded (run Site.step ⟨c,m⟩ before) p.ruleID →
      (x.finish (run Site.step ⟨c,m⟩ before)).1 = [] →
      Agree (x.finish (run Site.step ⟨c,m⟩ before)).2 x.call p.ruleID := by
  intro h
  have hagree := h outletCoordinator outletOrder outletAlarms (convergedAt newYear)
    (expiredAt newYear) outletPolicy (by rfl) (by decide) (by rfl)
    ⟨by decide,trivial,trivial,fun y hy => nomatch hy⟩ (by rfl)
  obtain ⟨id,a,ha,_⟩ := hagree.2.mpr rfl
  have hnone : ((expiredAt newYear).finish
      (run Site.step ⟨outletCoordinator,outletAlarms⟩ (convergedAt newYear))).2.alarms.alarms = ∅ := by
    rfl
  rw [hnone] at ha
  cases ha

end Bench
end AquaOS
