import Mathlib.Data.List.Infix
import Mathlib.Tactic

/-! Texts in which an escape takes a character its meaning. A reader takes a token up to the first
stop that is not escaped, and the escape counts only before some characters. What it reads of a
written token is the token, or the two first differ where the token has an escape. -/
namespace AquaOS
namespace Escaped

variable {A : Type}

structure Alphabet (A : Type) where
  esc : A
  special : A → Bool

namespace Alphabet

variable (α : Alphabet A)

/-- The escape is put before some characters of a text. -/
def write (escaped : A → Bool) (t : List A) : List A :=
  t.flatMap fun a => if escaped a then [α.esc,a] else [a]

variable {α} {escaped stop : A → Bool} {a b s : A} {t text : List A}

@[simp] theorem write_nil : α.write escaped [] = [] := rfl

theorem write_escaped (h : escaped a = true) (t : List A) :
    α.write escaped (a::t) = α.esc::a::α.write escaped t := by
  simp [write,h]

theorem write_plain (h : escaped a = false) (t : List A) :
    α.write escaped (a::t) = a::α.write escaped t := by
  simp [write,h]

/-- What a reader and a writer agree on: the writer escapes what the reader stops at, but for the end
of the line, and only characters before which the escape counts. -/
structure Agree (α : Alphabet A) (escaped stop : A → Bool) (newline : A) : Prop where
  esc : α.special α.esc = false
  line : α.special newline = false
  lineEsc : newline ≠ α.esc
  counts : ∀ a, escaped a = true → α.special a = true
  stops : ∀ a, stop a = true → escaped a = true ∨ a = newline
  ends : stop newline = true

namespace Agree

variable {newline : A} (h : Agree α escaped stop newline)

include h

theorem escaped_esc : escaped α.esc = false := by
  cases hesc : escaped α.esc with
  | false => rfl
  | true => exact absurd (h.counts _ hesc) (by simp [h.esc])

theorem escaped_ne (ha : escaped a = true) : a ≠ α.esc := by
  rintro rfl
  rw [h.escaped_esc] at ha
  cases ha

theorem special_ne (ha : α.special a = true) : a ≠ α.esc := by
  rintro rfl
  rw [h.esc] at ha
  cases ha

theorem special_line (ha : α.special a = true) : a ≠ newline := by
  rintro rfl
  rw [h.line] at ha
  cases ha

theorem stop_false (ha : escaped a = false) (hne : a ≠ newline) : stop a = false := by
  cases hstop : stop a with
  | false => rfl
  | true =>
    rcases h.stops a hstop with hesc | heq
    · rw [ha] at hesc
      cases hesc
    · exact absurd heq hne

end Agree

section Read

variable [DecidableEq A]

/-- The token at the front of a text, and the text from the stop on. -/
def read (α : Alphabet A) (stop : A → Bool) : List A → List A × List A
  | [] => ([],[])
  | [a] => if a ≠ α.esc ∧ stop a then ([],[a]) else ([a],[])
  | a::b::text =>
    if a = α.esc then
      if α.special b then (b::(read α stop text).1,(read α stop text).2)
      else (a::(read α stop (b::text)).1,(read α stop (b::text)).2)
    else if stop a then ([],a::b::text)
    else (a::(read α stop (b::text)).1,(read α stop (b::text)).2)

theorem read_stop (ha : a ≠ α.esc) (h : stop a = true) (text : List A) :
    α.read stop (a::text) = ([],a::text) := by
  cases text with
  | nil => simp [read,ha,h]
  | cons b text => simp [read,ha,h]

theorem read_plain (ha : a ≠ α.esc) (h : stop a = false) (text : List A) :
    α.read stop (a::text) = (a::(α.read stop text).1,(α.read stop text).2) := by
  cases text with
  | nil => simp [read,h]
  | cons b text => simp [read,ha,h]

theorem read_special (h : α.special b = true) (text : List A) :
    α.read stop (α.esc::b::text) = (b::(α.read stop text).1,(α.read stop text).2) := by
  simp [read,h]

theorem read_literal (h : α.special b = false) (text : List A) :
    α.read stop (α.esc::b::text) =
      (α.esc::(α.read stop (b::text)).1,(α.read stop (b::text)).2) := by
  simp [read,h]

/-- No escape of the token stands before a character that it counts for and that is not escaped
itself, or at the end. -/
def kept (α : Alphabet A) (escaped : A → Bool) : List A → Bool
  | [] => true
  | [a] => a ≠ α.esc
  | a::b::t => (a = α.esc → α.special b → escaped b) ∧ kept α escaped (b::t)

theorem kept_cons (ha : a ≠ α.esc) (t : List A) :
    kept α escaped (a::t) = kept α escaped t := by
  cases t with
  | nil => simp [kept,ha]
  | cons b t => simp [kept,ha]

theorem kept_iff (t : List A) : kept α escaped t = true ↔ t.getLast? ≠ some α.esc ∧
    ∀ c, α.special c = true → escaped c = false → ¬ [α.esc,c] <:+: t := by
  induction t with
  | nil => simp [kept]
  | cons a t ih =>
    cases t with
    | nil => simp [kept,List.infix_cons_iff]
    | cons b t =>
      have hhead : (∀ c, α.special c = true → escaped c = false → ¬ [α.esc,c] <+: a::b::t) ↔
          (a = α.esc → α.special b = true → escaped b = true) := by
        constructor
        · intro h ha hb
          by_contra hesc
          exact h b hb (Bool.eq_false_iff.mpr hesc) ⟨t,by rw [ha]; rfl⟩
        · rintro h c hc hesc ⟨v,hv⟩
          obtain ⟨rfl,rfl,_⟩ : α.esc = a ∧ c = b ∧ v = t := by simpa using hv
          rw [h rfl hc] at hesc
          cases hesc
      have hcontained : ∀ c, [α.esc,c] <:+: a::b::t ↔ [α.esc,c] <+: a::b::t ∨ [α.esc,c] <:+: b::t :=
        fun c => List.infix_cons_iff
      simp only [kept,decide_eq_true_eq,ih,hcontained,not_or,List.getLast?_cons_cons,← hhead]
      constructor
      · rintro ⟨h,hlast,hcontained⟩
        exact ⟨hlast,fun c hc hesc => ⟨h c hc hesc,hcontained c hc hesc⟩⟩
      · rintro ⟨hlast,h⟩
        exact ⟨fun c hc hesc => (h c hc hesc).1,hlast,fun c hc hesc => (h c hc hesc).2⟩

namespace Agree

variable {newline : A} (h : Agree α escaped stop newline)

include h

/-- The first character of a written token is read as it is, unless it is an escape that counts
before the next one, which is then read in its place, or that ends the token. -/
theorem read_cons (hne : a ≠ newline) (t text : List A) :
    (kept α escaped (a::t) = kept α escaped t ∧
      α.read stop (α.write escaped (a::t)++text) =
        (a::(α.read stop (α.write escaped t++text)).1,
          (α.read stop (α.write escaped t++text)).2)) ∨
    (∃ b t', a = α.esc ∧ t = b::t' ∧ α.special b = true ∧ kept α escaped (a::t) = false ∧
      α.read stop (α.write escaped (a::t)++text) =
        (b::(α.read stop (α.write escaped t'++text)).1,
          (α.read stop (α.write escaped t'++text)).2)) ∨
    (a = α.esc ∧ t = []) := by
  cases hesc : escaped a with
  | true =>
    refine .inl ⟨kept_cons (h.escaped_ne hesc) t,?_⟩
    rw [write_escaped hesc,List.cons_append,List.cons_append,read_special (h.counts a hesc)]
  | false =>
    rw [write_plain hesc,List.cons_append]
    by_cases ha : a = α.esc
    · subst ha
      cases t with
      | nil => exact .inr (.inr ⟨rfl,rfl⟩)
      | cons b t =>
        cases hb : escaped b with
        | true =>
          refine .inl ⟨by simp [kept,hb],?_⟩
          rw [write_escaped hb,List.cons_append,read_literal h.esc]
        | false =>
          rw [write_plain hb,List.cons_append]
          cases hspecial : α.special b with
          | false => exact .inl ⟨by simp [kept,hspecial],read_literal hspecial _⟩
          | true =>
            exact .inr (.inl ⟨b,t,rfl,rfl,hspecial,by simp [kept,hb,hspecial],
              read_special hspecial _⟩)
    · exact .inl ⟨kept_cons ha t,read_plain ha (h.stop_false hesc hne) _⟩

/-- A token that holds the end of a line is read up to it at most. -/
theorem read_broken (hline : newline ∈ t) (text : List A) :
    ∃ token rest, α.read stop (α.write escaped t++text) = (token,newline::rest) := by
  induction hn : t.length using Nat.strong_induction_on generalizing t with
  | _ n ih =>
    have hread : ∀ t', t'.length < n → newline ∈ t' →
        ∃ token rest, α.read stop (α.write escaped t'++text) = (token,newline::rest) :=
      fun t' hlt hmem => ih t'.length hlt hmem rfl
    cases t with
    | nil => cases hline
    | cons a t =>
      by_cases heq : a = newline
      · subst heq
        have hplain : escaped a = false :=
          Bool.eq_false_iff.mpr fun hesc => h.special_line (h.counts a hesc) rfl
        rw [write_plain hplain]
        exact ⟨[],_,read_stop h.lineEsc h.ends _⟩
      · have hmem : newline ∈ t := (List.mem_cons.mp hline).resolve_left (Ne.symm heq)
        rcases h.read_cons heq t text with ⟨_,hfront⟩ | ⟨b,t',_,rfl,hb,_,hfront⟩ | ⟨_,rfl⟩
        · obtain ⟨token,rest,hrest⟩ := hread t (by simp at hn; omega) hmem
          rw [hfront,hrest]
          exact ⟨_,_,rfl⟩
        · have hmem' : newline ∈ t' :=
            (List.mem_cons.mp hmem).resolve_left (h.special_line hb).symm
          obtain ⟨token,rest,hrest⟩ := hread t' (by simp at hn; omega) hmem'
          rw [hfront,hrest]
          exact ⟨_,_,rfl⟩
        · cases hmem

/-- A token that keeps its escapes is read as it is; any other one is read with another character in
the place of one of its escapes. -/
theorem read_write (hline : newline ∉ t) (hs : α.special s = true) (hstop : stop s = true)
    (text : List A) :
    (kept α escaped t = true ∧ α.read stop (α.write escaped t++s::text) = (t,s::text)) ∨
    (kept α escaped t = false ∧ ∃ u c v token, t = u++α.esc::v ∧ α.special c = true ∧
      (α.read stop (α.write escaped t++s::text)).1 = u++c::token) := by
  induction t with
  | nil => exact .inl ⟨rfl,read_stop (h.special_ne hs) hstop _⟩
  | cons a t ih =>
    obtain ⟨hne,hline'⟩ := List.ne_and_not_mem_of_not_mem_cons hline
    rcases h.read_cons hne.symm t (s::text) with
      ⟨hkept,hfront⟩ | ⟨b,t',rfl,rfl,hb,hkept,hfront⟩ | ⟨rfl,rfl⟩
    · rw [hkept,hfront]
      rcases ih hline' with ⟨hk,heq⟩ | ⟨hk,u,c,v,token,rfl,hc,heq⟩
      · exact .inl ⟨hk,by rw [heq]⟩
      · exact .inr ⟨hk,a::u,c,v,token,rfl,hc,by rw [heq]; rfl⟩
    · exact .inr ⟨hkept,[],b,b::t',_,rfl,hb,by rw [hfront]; rfl⟩
    · refine .inr ⟨by simp [kept],[],s,[],(α.read stop text).1,rfl,hs,?_⟩
      rw [write_plain h.escaped_esc,write_nil,List.cons_append,List.nil_append,read_special hs]
      rfl

end Agree

end Read

end Alphabet
end Escaped
end AquaOS
