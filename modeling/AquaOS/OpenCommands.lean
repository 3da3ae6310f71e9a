import AquaOS.Lifecycle
import AquaOS.Provenance

/-! Commands that an adapter has acknowledged and nobody has closed yet. A record keeps its
command, the calls that work on a command find it under its ID, and a command is open from the
acknowledgement its `Submit` is about to store up to the step that closes it. -/
namespace AquaOS
namespace Output

open Domain SafetyEngine Transition

def Point.owned : Point → Option Command
  | .recorded c _ _ | .mark c | .marked c _ | .dispatch c | .awaiting c | .settle c _ => some c
  | _ => none

theorem recorded_lookup_ne (s : Store) {c : Command} (adm : Admission) (now : ℤ) {id : CommandID}
    (h : id ≠ c.id) : (s.record (c.initial adm now)).results.lookup id = s.results.lookup id := by
  simp [h]

theorem recorded_lookup (s : Store) (c : Command) (adm : Admission) (now : ℤ) :
    (s.record (c.initial adm now)).results.lookup c.id = some (c.initial adm now) := by
  simp

section Records

variable {w : World} {i : ℕ} {a : Answer} {p : Point} {e : Effect} {c : Command} {s : Store}

theorem Steps.keeps_record (hs : Steps w.store a p e) (hfresh : FreshID w i p) {id : CommandID}
    {r : Result} (hr : w.store.results.lookup id = some r) :
    ∃ r', e.store.results.lookup id = some r' ∧ r'.command = r.command := by
  cases hs.writes with
  | nothing _ hsame _ => exact ⟨r,by rw [hsame,hr],rfl⟩
  | record c adm hrec =>
    have hne : id ≠ c.id := by
      rintro rfl
      rw [hfresh c (hrec ▸ rfl)] at hr
      cases hr
    exact ⟨r,by simp [hne,hr],rfl⟩
  | change id' ch r' next hch hr' =>
    dsimp only
    by_cases hid : id = id'
    · subst hid
      obtain rfl := Option.mem_unique hr hr'
      exact ⟨r.change ch a.now,by simp,rfl⟩
    · exact ⟨r,by simp [hid,hr],rfl⟩

theorem Store.Holds.kept (h : w.store.Holds c) (hs : Steps w.store a p e)
    (hfresh : FreshID w i p) : e.store.Holds c := by
  obtain ⟨r,hr,hc⟩ := h
  obtain ⟨r',hr',hc'⟩ := hs.keeps_record hfresh hr
  exact ⟨r',hr',hc'.trans hc⟩

theorem Steps.owned (h : Steps s a p e)
    (hc : e.point.owned = some c) : p.owned = some c ∨ e.store.Holds c := by
  cases h with
  | recorded c' adm =>
    obtain rfl := Option.some.inj hc
    exact .inr ⟨_,recorded_lookup _ _ _ _,rfl⟩
  | admitted c' r _ => exact .inl hc
  | marked c' r _ => exact .inl hc
  | announced c' r _ => exact .inl hc
  | dispatching c' => exact .inl hc
  | acknowledged c' => exact .inl hc
  | _ => cases hc

theorem Steps.dispatches_owned (h : Steps s a p e)
    (hc : e.act = some (.dispatching c)) : p.owned = some c := by
  cases h with
  | dispatching c' =>
    obtain rfl : c' = c := by simpa using hc
    rfl
  | _ => simp [Effect.fail] at hc

end Records

theorem entry_owned {p : Point} (h : p.Entry) : p.owned = none := by
  cases p <;> first | rfl | exact absurd h id

/-- Records stand under the IDs of their commands, and every command that a call has recorded
or begun to dispatch is the one its record holds. -/
structure RecordInv (w : World) : Prop where
  keyed : ∀ id r, w.store.results.lookup id = some r → r.command.id = id
  owned : ∀ i p c, (w.thread i).point = some p → p.owned = some c → w.store.Holds c
  logged : ∀ c, .dispatching c ∈ w.log → w.store.Holds c

theorem record_move (w : World) (i : ℕ) (t : Thread) (h : RecordInv w) (ht : t.Outside) :
    RecordInv (w.move i t) := by
  refine ⟨h.keyed,?_,h.logged⟩
  refine forall_update (P := fun _ (t : Thread) => ∀ p c, t.point = some p →
    p.owned = some c → w.store.Holds c) i ?_ fun j _ => h.owned j
  intro p c hp hc
  rw [entry_owned (ht p hp)] at hc
  cases hc

theorem record_call (w : World) (i : ℕ) (a : Answer) (p : Point) (e : Effect)
    (next : Point → Thread) (h : RecordInv w) (hp : (w.thread i).point = some p)
    (hfresh : FreshID w i p) (hs : Steps w.store a p e)
    (hnext : ∀ q, (next q).point = some q) : RecordInv (w.advance i e next) := by
  refine ⟨hs.keyed h.keyed,?_,?_⟩
  · refine forall_update (P := fun _ (t : Thread) => ∀ q c, t.point = some q →
      q.owned = some c → e.store.Holds c) i ?_ ?_
    · intro q c hq hc
      obtain rfl : e.point = q := by simpa [hnext] using hq
      rcases hs.owned hc with hbefore | hnow
      · exact (h.owned i p c hp hbefore).kept hs hfresh
      · exact hnow
    · intro j _ q c hq hc
      exact (h.owned j q c hq hc).kept hs hfresh
  · intro c hc
    rcases List.mem_append.mp hc with hnew | hold
    · exact (h.owned i p c hp (hs.dispatches_owned (by simpa using hnew))).kept hs hfresh
    · exact (h.logged c hold).kept hs hfresh

theorem record_init : RecordInv {} :=
  ⟨fun _ _ h => (nomatch h),fun _ _ _ h => (nomatch h),fun _ h => (nomatch h)⟩

/-- A `Submit` call is about to store the acknowledgement of the command. -/
def Settling (w : World) (id : CommandID) : Prop :=
  ∃ j c t, (w.thread j).point = some (.settle c (.acknowledged t)) ∧ c.id = id

def OpenCommand (w : World) (id : CommandID) : Prop :=
  ∃ r, w.store.results.lookup id = some r ∧ (r.status = .acknowledged ∨ Settling w id)

def ClosedCommand (w : World) (id : CommandID) : Prop :=
  ∃ r, w.store.results.lookup id = some r ∧ r.status.Terminal

theorem open_not_closed {w : World} (h : LifecycleInv w) {id : CommandID} (ho : OpenCommand w id) :
    ¬ ClosedCommand w id := by
  rintro ⟨r,hr,hterm⟩
  obtain ⟨r',hr',hst⟩ := ho
  obtain rfl := Option.mem_unique hr hr'
  rcases hst with hst | ⟨j,c,t,hp,hid⟩
  · rw [hst] at hterm
    exact hterm.last .succeeded (.inl rfl)
  · obtain ⟨r'',hr'',hst⟩ := h.met j _ c.id .dispatched hp rfl
    rw [hid,hr] at hr''
    obtain rfl := Option.some.inj hr''
    rw [hst] at hterm
    exact hterm.last .failed (.inr rfl)

section Steps

variable {w : World} {i : ℕ} {a : Answer} {p : Point} {e : Effect} {next : Point → Thread}
  {id : CommandID}

theorem closed_advance (h : LifecycleInv w) (hp : (w.thread i).point = some p)
    (hs : Steps w.store a p e) (hfresh : FreshID w i p) (hc : ClosedCommand w id) :
    ClosedCommand (w.advance i e next) id := by
  obtain ⟨r,hr,hterm⟩ := hc
  cases hs.writes with
  | nothing _ hsame _ => exact ⟨r,by rw [show (w.advance i e next).store = e.store from rfl,hsame,hr],hterm⟩
  | record c adm hrec =>
    have hne : id ≠ c.id := by
      rintro rfl
      rw [hfresh c (hrec ▸ rfl)] at hr
      cases hr
    exact ⟨r,by simp [World.advance,hne,hr],hterm⟩
  | change id' ch r' q hch hr' =>
    by_cases hid : id = id'
    · subst hid
      obtain ⟨st,hexp,hfol⟩ := change_follows hch
      obtain ⟨r'',hr'',rfl⟩ := h.met i p id st hp hexp
      obtain rfl := Option.mem_unique hr hr''
      exact absurd hfol (hterm.last _)
    · exact ⟨r,by simp [World.advance,hid,hr],hterm⟩

theorem open_advance (h : LifecycleInv w) (hp : (w.thread i).point = some p)
    (hs : Steps w.store a p e) (hfresh : FreshID w i p) (ho : OpenCommand w id)
    (hclose : ∀ cl, p ≠ .close id cl) : OpenCommand (w.advance i e next) id := by
  obtain ⟨r,hr,hst⟩ := ho
  obtain ⟨r',hr',_⟩ := hs.keeps_record hfresh hr
  rcases hst with hst | ⟨j,c,t,hj,rfl⟩
  · refine ⟨r',hr',.inl ?_⟩
    cases hs.writes with
    | nothing _ hsame _ =>
      rw [hsame,hr] at hr'
      obtain rfl := Option.some.inj hr'
      exact hst
    | record c adm hrec =>
      have hne : id ≠ c.id := by
        rintro rfl
        rw [hfresh c (hrec ▸ rfl)] at hr
        cases hr
      rw [recorded_lookup_ne _ _ _ hne,hr] at hr'
      obtain rfl := Option.some.inj hr'
      exact hst
    | change id' ch r'' q hch hr'' =>
      have hne : id ≠ id' := by
        rintro rfl
        obtain ⟨st,hexp,_⟩ := change_follows hch
        obtain ⟨r₁,hr₁,rfl⟩ := h.met i p id st hp hexp
        obtain rfl := Option.mem_unique hr hr₁
        rw [hst] at hexp
        cases p with
        | mark c => cases hexp
        | settle c st => cases hexp
        | close id' cl =>
          obtain rfl : id' = id := by simpa [Point.expects] using hexp
          exact hclose cl rfl
        | _ => cases hch
      simp only [put_results,if_neg hne] at hr'
      rw [hr] at hr'
      obtain rfl := Option.some.inj hr'
      exact hst
  · by_cases hji : j = i
    · subst hji
      obtain rfl : p = .settle c (.acknowledged t) := Option.mem_unique hp hj
      cases hs with
      | missing _ id' ch hch hnone =>
        obtain ⟨rfl,_⟩ : c.id = id' ∧ _ := by simpa [Point.change] using hch
        rw [hr] at hnone
        cases hnone
      | settled _ _ r₁ hr₁ =>
        exact ⟨r₁.change (.settled (.acknowledged t)) a.now,by simp [World.advance],.inl rfl⟩
      | failed _ _ hfall => exact hfall.elim
    · exact ⟨r',hr',.inr ⟨j,c,t,by rwa [advance_thread_ne w hji],rfl⟩⟩

theorem close_advance (h : LifecycleInv w) {cl : Closure}
    (hp : (w.thread i).point = some (.close id cl)) (hs : Steps w.store a (.close id cl) e) :
    ClosedCommand (w.advance i e next) id ∧ ∃ ev r, e.point = .emit ev r := by
  cases hs with
  | closed _ _ r hr =>
    refine ⟨⟨r.change (.closed cl) a.now,by simp [World.advance],?_⟩,_,_,rfl⟩
    rw [change_status]
    cases cl <;> simp [Change.status,Status.Terminal]
  | missing _ id' ch hch hnone =>
    obtain ⟨rfl,_⟩ : id = id' ∧ _ := by simpa [Point.change] using hch
    obtain ⟨r,hr,_⟩ := h.met i _ id .acknowledged hp rfl
    rw [hr] at hnone
    cases hnone
  | failed _ _ hfall => exact hfall.elim

theorem open_move {t : Thread} (hq : ∀ q, (w.thread i).point = some q → ∃ reply, q = .returned reply)
    (ho : OpenCommand w id) : OpenCommand (w.move i t) id := by
  obtain ⟨r,hr,hst⟩ := ho
  refine ⟨r,hr,hst.imp_right ?_⟩
  rintro ⟨j,c,t',hj,hid⟩
  have hji : j ≠ i := by
    rintro rfl
    obtain ⟨reply,hret⟩ := hq _ hj
    cases hret
  exact ⟨j,c,t',by rwa [move_thread_ne w hji],hid⟩

end Steps

end Output
end AquaOS
