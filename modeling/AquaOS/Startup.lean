import AquaOS.Domain

/-! The lifecycle manager. `Start` starts the components in order, each in a goroutine of its own
that is waited for under the parent context and two deadlines, and a failure stops those started in
reverse order. A wait that is given up still receives the result of the component, which may be a
late success. -/
namespace AquaOS
namespace Lifecycle

open Domain

/-- `health.Component`; how it conducts itself is given beside it. -/
structure Component where
  name : String
  deriving DecidableEq

/-- The case `select` takes while the result of `Start` is waited for. -/
inductive Wake
  | result | parentDone | startupDeadline | componentDeadline
  deriving DecidableEq

/-- How the start and the stop of one component go. The result of its `Start` is received whichever
case is taken, before or after the context of the component is cancelled. -/
structure Conduct where
  wake : Wake := .result
  returned : Option Failure := none
  stopError : Option Failure := none

def deadlineExceeded : Failure := .message "context deadline exceeded"

/-- The errors joined for one component, with that of the parent context. -/
def Conduct.causes (ctxErr : Failure) (a : Conduct) : List Failure :=
  match a.wake with
  | .result => a.returned.toList
  | .parentDone => ctxErr::a.returned.toList
  | .startupDeadline | .componentDeadline => deadlineExceeded::a.returned.toList

inductive Call
  | start (c : Component)
  | cancel (c : Component)
  | returned (c : Component) (err : Option Failure)
  | stop (c : Component)
  deriving DecidableEq

/-- The calls made for one component up to the result of its `Start`. -/
def Conduct.calls (a : Conduct) (c : Component) : List Call :=
  [.start c]++(if a.wake = .result then [] else [.cancel c])++[.returned c a.returned]

/-- The error of `Start`: that of a component under its name, joined with those of the rollback. -/
inductive StartError
  | refused (err : Failure)
  | failed (c : Component) (causes rollback : List Failure)
  deriving DecidableEq

/-- The manager, with the calls made since the call it is in began. -/
structure Manager where
  components : List Component
  started : List Component := []
  calls : List Call := []
  deriving DecidableEq

def newConfigured (components : List Component) : Manager := { components := components }

/-- The loop of `stopLocked`, from the last of the started components to the first. -/
def stopEach (conduct : ℕ → Conduct) : List Component → List Failure × List Call
  | [] => ([],[])
  | c::rest =>
    let out := stopEach conduct rest
    ((conduct rest.length).stopError.toList.map (.wrapped ("stop "++c.name))++out.1,
      [.cancel c,.stop c]++out.2)

def Manager.stopLocked (m : Manager) (conduct : ℕ → Conduct) : List Failure × Manager :=
  let out := stopEach conduct m.started.reverse
  (out.1,{ m with started := [], calls := m.calls++out.2 })

/-- The loop of `Start` over the components that are left. All before them are started, so their
number is the position of the next one. -/
def Manager.startEach (conduct : ℕ → Conduct) (ctxErr : Failure) (m : Manager) :
    List Component → Option StartError × Manager
  | [] => (none,m)
  | c::rest =>
    let a := conduct m.started.length
    match a.causes ctxErr with
    | [] =>
      startEach conduct ctxErr { m with started := m.started++[c], calls := m.calls++a.calls c } rest
    | cause::causes =>
      let m := { m with calls := m.calls++a.calls c++[Call.cancel c] }
      let out := m.stopLocked conduct
      (some (.failed c (cause::causes) out.1),out.2)

def Manager.start (conduct : ℕ → Conduct) (ctxErr : Failure) (m : Manager) :
    Option StartError × Manager :=
  let m := { m with calls := [] }
  if m.started ≠ [] then (some (.refused (.message "lifecycle already started")),m)
  else m.startEach conduct ctxErr m.components

def Manager.stop (conduct : ℕ → Conduct) (m : Manager) : List Failure × Manager :=
  { m with calls := [] }.stopLocked conduct

section Calls

def launched (calls : List Call) : List Component :=
  calls.filterMap fun
    | .start c => some c
    | _ => none

def ready (calls : List Call) : List Component :=
  calls.filterMap fun
    | .returned c none => some c
    | _ => none

def stopped (calls : List Call) : List Component :=
  calls.filterMap fun
    | .stop c => some c
    | _ => none

@[simp] theorem launched_cancel (c : Component) (calls : List Call) :
    launched (.cancel c::calls) = launched calls := rfl

@[simp] theorem ready_cancel (c : Component) (calls : List Call) :
    ready (.cancel c::calls) = ready calls := rfl

@[simp] theorem stopped_cancel (c : Component) (calls : List Call) :
    stopped (.cancel c::calls) = stopped calls := rfl

@[simp] theorem launched_append (calls calls' : List Call) :
    launched (calls++calls') = launched calls++launched calls' := List.filterMap_append

@[simp] theorem ready_append (calls calls' : List Call) :
    ready (calls++calls') = ready calls++ready calls' := List.filterMap_append

@[simp] theorem stopped_append (calls calls' : List Call) :
    stopped (calls++calls') = stopped calls++stopped calls' := List.filterMap_append

@[simp] theorem launched_calls (a : Conduct) (c : Component) : launched (a.calls c) = [c] := by
  unfold Conduct.calls
  split_ifs <;> rfl

@[simp] theorem stopped_calls (a : Conduct) (c : Component) : stopped (a.calls c) = [] := by
  unfold Conduct.calls
  split_ifs <;> rfl

@[simp] theorem ready_calls (a : Conduct) (c : Component) :
    ready (a.calls c) = if a.returned = none then [c] else [] := by
  unfold Conduct.calls
  cases a.returned <;> split_ifs <;> simp_all [ready]

@[simp] theorem launched_stopEach (conduct : ℕ → Conduct) (cs : List Component) :
    launched (stopEach conduct cs).2 = [] := by
  induction cs with
  | nil => rfl
  | cons c rest ih => simpa [stopEach,launched] using ih

@[simp] theorem ready_stopEach (conduct : ℕ → Conduct) (cs : List Component) :
    ready (stopEach conduct cs).2 = [] := by
  induction cs with
  | nil => rfl
  | cons c rest ih => simpa [stopEach,ready] using ih

@[simp] theorem stopped_stopEach (conduct : ℕ → Conduct) (cs : List Component) :
    stopped (stopEach conduct cs).2 = cs := by
  induction cs with
  | nil => rfl
  | cons c rest ih => simpa [stopEach,stopped] using ih

end Calls

section Start

variable {conduct : ℕ → Conduct} {ctxErr : Failure} {m : Manager}

def Conduct.Starts (a : Conduct) : Prop := a.wake = .result ∧ a.returned = none

instance (a : Conduct) : Decidable a.Starts := inferInstanceAs (Decidable (_ ∧ _))

theorem causes_eq_nil_iff (ctxErr : Failure) (a : Conduct) : a.causes ctxErr = [] ↔ a.Starts := by
  unfold Conduct.causes Conduct.Starts
  cases a.wake <;> cases a.returned <;> simp

structure Going (m : Manager) : Prop where
  launched : launched m.calls = m.started
  ready : ready m.calls = m.started
  stopped : stopped m.calls = []

theorem Going.next (h : Going m) {a : Conduct} (ha : a.Starts) (c : Component) :
    Going { m with started := m.started++[c], calls := m.calls++a.calls c } where
  launched := by simp [h.launched]
  ready := by simp [h.ready,ha.2]
  stopped := by simp [h.stopped]

/-- How `Start` ends: with all components started, or at one that does not start after those before
it did. -/
inductive Ended (conduct : ℕ → Conduct) (components : List Component) :
    Option StartError × Manager → Prop
  | complete (m : Manager) (hall : ∀ i < components.length, (conduct i).Starts)
      (hstarted : m.started = components) : Ended conduct components (none,m)
  | failed (n : ℕ) (c : Component) (causes rollback : List Failure) (m : Manager)
      (hc : components[n]? = some c) (hbefore : ∀ i < n, (conduct i).Starts)
      (hfails : ¬ (conduct n).Starts) (hlaunched : launched m.calls = components.take (n+1))
      (hready : ready m.calls = components.take n++if (conduct n).returned = none then [c] else [])
      (hstopped : stopped m.calls = (components.take n).reverse) (hstarted : m.started = []) :
      Ended conduct components (some (.failed c causes rollback),m)

theorem startEach_ended (rest : List Component) (h : Going m)
    (hbefore : ∀ i < m.started.length, (conduct i).Starts) :
    Ended conduct (m.started++rest) (m.startEach conduct ctxErr rest) := by
  induction rest generalizing m with
  | nil =>
    refine .complete m ?_ (by simp)
    simpa using hbefore
  | cons c rest ih =>
    unfold Manager.startEach
    dsimp only
    cases hcauses : (conduct m.started.length).causes ctxErr with
    | nil =>
      have hstarts := (causes_eq_nil_iff ctxErr _).mp hcauses
      have hrest := ih (h.next hstarts c) fun i hi => by
        rcases Nat.lt_succ_iff_lt_or_eq.mp (by simpa using hi) with hlt | rfl
        · exact hbefore i hlt
        · exact hstarts
      simpa using hrest
    | cons cause causes =>
      have hfails : ¬ (conduct m.started.length).Starts := by
        rw [← causes_eq_nil_iff ctxErr,hcauses]
        exact List.cons_ne_nil _ _
      refine .failed m.started.length c _ _ _ ?_ hbefore hfails ?_ ?_ ?_ rfl
      · simp
      · simp [Manager.stopLocked,h.launched,List.take_append]
      · simp [Manager.stopLocked,h.ready]
      · simp [Manager.stopLocked,h.stopped]

theorem start_ended (components : List Component) :
    Ended conduct components ((newConfigured components).start conduct ctxErr) :=
  startEach_ended (m := newConfigured components) components ⟨rfl,rfl,rfl⟩
    fun i hi => absurd hi (Nat.not_lt_zero i)

/-- The loop of `Start` reaches the component at the position. -/
def Reached (conduct : ℕ → Conduct) (components : List Component) (n : ℕ) : Prop :=
  n < components.length ∧ ∀ i < n, (conduct i).Starts

/-- What a failed `Start` leaves: all whose `Start` returned nil are stopped in reverse order, none is
recorded as started, and none after the failing one was started. -/
structure RolledBack (conduct : ℕ → Conduct) (components : List Component) (m : Manager) :
    Prop where
  stopped : stopped m.calls = (ready m.calls).reverse
  started : m.started = []
  launched : ∃ n, Reached conduct components n ∧ ¬ (conduct n).Starts ∧
    launched m.calls = components.take (n+1)

/-- A component that starts after its wait was given up is not stopped. -/
theorem Ended.late_success {components : List Component} {n : ℕ}
    {out : Option StartError × Manager} (h : Ended conduct components out)
    (hn : Reached conduct components n) (hwake : (conduct n).wake ≠ .result)
    (hnil : (conduct n).returned = none) :
    (∃ err, out.1 = some err) ∧ ¬ RolledBack conduct components out.2 := by
  have hfails : ¬ (conduct n).Starts := fun hs => hwake hs.1
  cases h with
  | complete m hall hstarted => exact absurd (hall n hn.1) hfails
  | failed n' c causes rollback m hc hbefore hfails' hlaunched hready hstopped hstarted =>
    obtain rfl : n' = n := by
      rcases Nat.lt_trichotomy n' n with hlt | heq | hgt
      · exact absurd (hn.2 n' hlt) hfails'
      · exact heq
      · exact absurd (hbefore n hgt) hfails
    refine ⟨⟨_,rfl⟩,fun hback => ?_⟩
    have hreverse := hback.stopped
    rw [hready,hstopped,if_pos hnil,List.reverse_append] at hreverse
    simpa using congrArg List.length hreverse

/-- Every failed start is rolled back exactly if no component whose wait is given up starts all the
same. -/
theorem failed_start_rolled_back_iff (conduct : ℕ → Conduct) (ctxErr : Failure)
    (components : List Component) :
    let out := (newConfigured components).start conduct ctxErr
    (∀ err, out.1 = some err → RolledBack conduct components out.2) ↔
      ∀ n, Reached conduct components n → (conduct n).wake ≠ .result →
        (conduct n).returned ≠ none := by
  intro out
  have hended : Ended conduct components out := start_ended components
  constructor
  · intro h n hn hwake hnil
    obtain ⟨⟨err,herr⟩,hback⟩ := hended.late_success hn hwake hnil
    exact hback (h err herr)
  · intro h err herr
    generalize out = out' at hended herr ⊢
    cases hended with
    | complete m hall hstarted => cases herr
    | failed n c causes rollback m hc hbefore hfails hlaunched hready hstopped hstarted =>
      have hn : Reached conduct components n := ⟨(List.getElem?_eq_some_iff.mp hc).1,hbefore⟩
      have hreturned : (conduct n).returned ≠ none := by
        intro hnil
        by_cases hwake : (conduct n).wake = .result
        · exact hfails ⟨hwake,hnil⟩
        · exact h n hn hwake hnil
      refine ⟨?_,hstarted,n,hn,hfails,hlaunched⟩
      rw [hready,hstopped,if_neg hreturned,List.append_nil]

/-- The second component is given up at its deadline and then returns nil. It is running when `Start`
has returned its error, and nothing stops it. -/
theorem late_success_not_stopped :
    let components : List Component := [⟨"state"⟩,⟨"api"⟩]
    let conduct : ℕ → Conduct := fun i => if i = 1 then { wake := .componentDeadline } else {}
    let out := (newConfigured components).start conduct (.message "context canceled")
    out.1 = some (.failed ⟨"api"⟩ [deadlineExceeded] []) ∧
      ready out.2.calls = [⟨"state"⟩,⟨"api"⟩] ∧ stopped out.2.calls = [⟨"state"⟩] ∧
      out.2.started = [] := by
  decide +kernel

end Start

section Manager

variable {conduct : ℕ → Conduct} {ctxErr : Failure} {m : Manager}

/-- `Stop` stops what is recorded as started in reverse order, whatever fails on the way. -/
theorem stop_reverses (conduct : ℕ → Conduct) (m : Manager) :
    stopped (m.stop conduct).2.calls = m.started.reverse ∧ (m.stop conduct).2.started = [] := by
  simp [Manager.stop,Manager.stopLocked]

/-- A start without error records every component, so that `Stop` stops them all. -/
theorem stop_after_start (components : List Component)
    (h : ((newConfigured components).start conduct ctxErr).1 = none) (conduct' : ℕ → Conduct) :
    stopped (((newConfigured components).start conduct ctxErr).2.stop conduct').2.calls =
      components.reverse := by
  have hended : Ended conduct components ((newConfigured components).start conduct ctxErr) :=
    start_ended components
  rw [(stop_reverses _ _).1]
  generalize (newConfigured components).start conduct ctxErr = out at h hended ⊢
  cases hended with
  | complete m hall hstarted => rw [hstarted]
  | failed => cases h

theorem both_stopped :
    stopped (((newConfigured [⟨"state"⟩,⟨"api"⟩]).start (fun _ => {}) deadlineExceeded).2.stop
      fun _ => {}).2.calls = [⟨"api"⟩,⟨"state"⟩] := stop_after_start _ rfl _

end Manager

end Lifecycle
end AquaOS
