import Mathlib.Data.List.TakeWhile
import Mathlib.Tactic

/-! Texts of JSON: their grammar over bytes, a reader that takes the first value off a text, and that
the two agree. The names and strings of a value are kept as they are written. -/
namespace AquaOS
namespace JsonText

abbrev Bytes := List UInt8

section Tokens

/-- A token is the longest run of an automaton. -/
structure Automaton (S : Type) where
  next : S → UInt8 → Option S
  accepting : S → Bool

namespace Automaton

variable {S : Type} (a : Automaton S)

def Accepts : S → Bytes → Prop
  | q, [] => a.accepting q = true
  | q, b::t => ∃ q', a.next q b = some q' ∧ Accepts q' t

/-- The token at the front of a text, and what is left. -/
def munch : S → Bytes → Option (Bytes × Bytes)
  | q, [] => if a.accepting q then some ([],[]) else none
  | q, b::s =>
    match a.next q b with
    | some q' => (munch q' s).map fun x => (b::x.1,x.2)
    | none => if a.accepting q then some ([],b::s) else none

/-- The automaton does not go on with the first byte of the text. -/
def Stops (s : Bytes) : Prop := ∀ b r, s = b::r → ∀ q, a.accepting q = true → a.next q b = none

variable {a} {q : S} {s t r : Bytes}

theorem munch_sound (h : a.munch q s = some (t,r)) : s = t++r ∧ a.Accepts q t := by
  induction s generalizing q t with
  | nil =>
    rw [munch] at h
    split_ifs at h with hq
    cases h
    exact ⟨rfl,hq⟩
  | cons b s ih =>
    rw [munch] at h
    cases hnext : a.next q b with
    | some q' =>
      rw [hnext] at h
      obtain ⟨⟨t',r'⟩,hx,heq⟩ := Option.map_eq_some_iff.mp h
      cases heq
      obtain ⟨rfl,haccepts⟩ := ih hx
      exact ⟨rfl,q',hnext,haccepts⟩
    | none =>
      rw [hnext] at h
      dsimp only at h
      split_ifs at h with hq
      cases h
      exact ⟨rfl,hq⟩

theorem munch_complete (h : a.Accepts q t) (hstop : a.Stops r) : a.munch q (t++r) = some (t,r) := by
  induction t generalizing q with
  | nil =>
    have hq : a.accepting q = true := h
    cases r with
    | nil => simp [munch,hq]
    | cons b r => simp [munch,hq,hstop b r rfl q hq]
  | cons b t ih =>
    obtain ⟨q',hnext,haccepts⟩ := h
    simp [munch,hnext,ih haccepts]

end Automaton

def quote : UInt8 := 0x22
def comma : UInt8 := 0x2c
def colon : UInt8 := 0x3a

def isSpace (b : UInt8) : Bool := b = 0x20 || b = 0x09 || b = 0x0a || b = 0x0d

def isDigit (b : UInt8) : Bool := 0x30 ≤ b && b ≤ 0x39

def isHex (b : UInt8) : Bool :=
  isDigit b || (0x61 ≤ b && b ≤ 0x66) || (0x41 ≤ b && b ≤ 0x46)

/-- A numeral after its sign, its integer part, its point, its fraction, its exponent mark, the sign
of that and its exponent. -/
inductive NumeralState
  | start | minus | zero | integer | point | fraction | mark | sign | exponent
  deriving DecidableEq

namespace NumeralState

def first (b : UInt8) : Option NumeralState :=
  if b = 0x30 then some .zero else if isDigit b then some .integer else none

def marked (b : UInt8) : Option NumeralState :=
  if b = 0x65 || b = 0x45 then some .mark else none

def pointed (b : UInt8) : Option NumeralState := if b = 0x2e then some .point else marked b

def digit (b : UInt8) (q : NumeralState) (otherwise : Option NumeralState) : Option NumeralState :=
  if isDigit b then some q else otherwise

end NumeralState

def numeral : Automaton NumeralState where
  next
    | .start, b => if b = 0x2d then some .minus else NumeralState.first b
    | .minus, b => NumeralState.first b
    | .zero, b => NumeralState.pointed b
    | .integer, b => NumeralState.digit b .integer (NumeralState.pointed b)
    | .point, b => NumeralState.digit b .fraction none
    | .fraction, b => NumeralState.digit b .fraction (NumeralState.marked b)
    | .mark, b => if b = 0x2b || b = 0x2d then some .sign else NumeralState.digit b .exponent none
    | .sign, b => NumeralState.digit b .exponent none
    | .exponent, b => NumeralState.digit b .exponent none
  accepting q := q = .zero || q = .integer || q = .fraction || q = .exponent

/-- Inside a string, after a backslash, and before so many more digits of an escape. -/
inductive StringState
  | inside | escape
  | digits (more : ℕ)
  deriving DecidableEq

/-- What stands between the quotes of a string. -/
def content : Automaton StringState where
  next
    | .inside, b =>
      if b = 0x5c then some .escape else if b < 0x20 || b = quote then none else some .inside
    | .escape, b =>
      if b = 0x75 then some (.digits 3)
      else if b ∈ [quote,0x5c,0x2f,0x62,0x66,0x6e,0x72,0x74] then some .inside
      else none
    | .digits more, b =>
      if isHex b then (match more with | 0 => some .inside | n+1 => some (.digits n)) else none
  accepting q := q = .inside

end Tokens

section Grammar

inductive Kind
  | array | object
  deriving DecidableEq

def Kind.opening : Kind → UInt8
  | .array => 0x5b
  | .object => 0x7b

def Kind.closing : Kind → UInt8
  | .array => 0x5d
  | .object => 0x7d

/-- A value; the elements of an array have empty names. -/
inductive Value
  | null
  | bool (b : Bool)
  | number (text : Bytes)
  | string (content : Bytes)
  | group (kind : Kind) (elements : List (Bytes × Value))

def nullText : Bytes := [0x6e,0x75,0x6c,0x6c]

def boolText : Bool → Bytes
  | true => [0x74,0x72,0x75,0x65]
  | false => [0x66,0x61,0x6c,0x73,0x65]

def Blank (s : Bytes) : Prop := ∀ b ∈ s, isSpace b = true

/-- The texts of the values that have no elements. -/
inductive Leaf : Value → Bytes → Prop
  | null : Leaf .null nullText
  | bool (b : Bool) : Leaf (.bool b) (boolText b)
  | number {text : Bytes} (h : numeral.Accepts .start text) : Leaf (.number text) text
  | string {text : Bytes} (h : content.Accepts .inside text) :
      Leaf (.string text) (quote::text++[quote])

/-- What stands before the value of an element. -/
inductive Label : Kind → Bytes → Bytes → Prop
  | item : Label .array [] []
  | member {name before after : Bytes} (hname : content.Accepts .inside name)
      (hbefore : Blank before) (hafter : Blank after) :
      Label .object name (quote::name++quote::before++colon::after)

mutual
/-- The texts of a value. -/
inductive Spells : Value → Bytes → Prop
  | leaf {v : Value} {text : Bytes} (h : Leaf v text) : Spells v text
  | empty {kind : Kind} {between : Bytes} (h : Blank between) :
      Spells (.group kind []) (kind.opening::between++[kind.closing])
  | group {kind : Kind} {elements : List (Bytes × Value)} {text : Bytes}
      (h : Lists kind elements text) :
      Spells (.group kind elements) (kind.opening::text++[kind.closing])

/-- The texts of one or more elements. -/
inductive Lists : Kind → List (Bytes × Value) → Bytes → Prop
  | last {kind : Kind} {name label text before after : Bytes} {v : Value} (hbefore : Blank before)
      (hlabel : Label kind name label) (hv : Spells v text) (hafter : Blank after) :
      Lists kind [(name,v)] (before++(label++(text++after)))
  | more {kind : Kind} {name label text before after rest : Bytes} {v : Value}
      {elements : List (Bytes × Value)} (hbefore : Blank before) (hlabel : Label kind name label)
      (hv : Spells v text) (hafter : Blank after) (hrest : Lists kind elements rest) :
      Lists kind ((name,v)::elements) (before++(label++(text++(after++comma::rest))))
end

def Single (s : Bytes) : Prop :=
  ∃ before text after v, Blank before ∧ Spells v text ∧ Blank after ∧ s = before++(text++after)

end Grammar

section Reader

def skip (s : Bytes) : Bytes := s.dropWhile isSpace

def expect (b : UInt8) : Bytes → Option Bytes
  | [] => none
  | c::s => if c = b then some s else none

def word : Bytes → Bytes → Option Bytes
  | [], s => some s
  | b::w, s => (expect b s).bind (word w)

def quoted (s : Bytes) : Option (Bytes × Bytes) := do
  let s ← expect quote s
  let (text,s) ← content.munch .inside s
  let s ← expect quote s
  return (text,s)

def leaf (s : Bytes) : Option (Value × Bytes) :=
  ((word nullText s).map fun r => (.null,r))
  <|> ((word (boolText true) s).map fun r => (.bool true,r))
  <|> ((word (boolText false) s).map fun r => (.bool false,r))
  <|> ((quoted s).map fun x => (.string x.1,x.2))
  <|> ((numeral.munch .start s).map fun x => (.number x.1,x.2))

def label : Kind → Bytes → Option (Bytes × Bytes)
  | .array, s => some ([],s)
  | .object, s => do
    let (name,s) ← quoted s
    let s ← expect colon (skip s)
    return (name,skip s)

/-- An array or an object, given how its elements are read. -/
def group (elements : Bytes → Option (List (Bytes × Value) × Bytes)) (kind : Kind) (s : Bytes) :
    Option (Value × Bytes) := do
  let s ← expect kind.opening s
  match expect kind.closing (skip s) with
  | some r => return (.group kind [],r)
  | none =>
    let (es,r) ← elements s
    return (.group kind es,r)

mutual
/-- The value at the front of a text, and what is left; the number bounds the depth of the calls. -/
def value : ℕ → Bytes → Option (Value × Bytes)
  | 0, _ => none
  | n+1, s => group (elements n .array) .array s <|> group (elements n .object) .object s <|> leaf s

def elements : ℕ → Kind → Bytes → Option (List (Bytes × Value) × Bytes)
  | 0, _, _ => none
  | n+1, kind, s => do
    let (name,s) ← label kind (skip s)
    let (v,s) ← value n s
    match expect kind.closing (skip s) with
    | some r => return ([(name,v)],r)
    | none =>
      let s ← expect comma (skip s)
      let (es,r) ← elements n kind s
      return ((name,v)::es,r)
end

end Reader

section Parts

variable {s r text w : Bytes} {b c : UInt8}

theorem skip_append (h : Blank text) (s : Bytes) : skip (text++s) = skip s :=
  List.dropWhile_append_of_pos h

theorem skip_cons (h : isSpace b = false) (s : Bytes) : skip (b::s) = b::s :=
  List.dropWhile_cons_of_neg (by simp [h])

theorem exists_blank (s : Bytes) : ∃ before, Blank before ∧ s = before++skip s :=
  ⟨s.takeWhile isSpace,fun _ hb => List.mem_takeWhile_imp hb,(List.takeWhile_append_dropWhile).symm⟩

theorem expect_some : expect b s = some r ↔ s = b::r := by
  cases s with
  | nil => simp [expect]
  | cons c s =>
    rw [expect]
    split_ifs with hc
    · simp [hc]
    · simp [hc]

theorem expect_ne (h : c ≠ b) (s : Bytes) : expect b (c::s) = none := by
  rw [expect,if_neg h]

theorem word_some : word w s = some r ↔ s = w++r := by
  induction w generalizing s with
  | nil => simp [word]
  | cons b w ih =>
    simp only [word,Option.bind_eq_some_iff,expect_some,ih]
    constructor
    · rintro ⟨_,rfl,rfl⟩
      rfl
    · rintro rfl
      exact ⟨_,rfl,rfl⟩

theorem word_ne (h : c ≠ b) (s : Bytes) : word (b::w) (c::s) = none := by
  rw [word,expect_ne h]
  rfl

theorem content_stops (s : Bytes) : content.Stops (quote::s) := by
  rintro b r heq q hq
  cases heq
  obtain rfl : q = .inside := by simpa [content] using hq
  rfl

theorem quoted_some : quoted s = some (text,r) ↔
    content.Accepts .inside text ∧ s = quote::text++quote::r := by
  simp only [quoted,Option.bind_eq_bind,Option.bind_eq_some_iff,expect_some,Prod.exists,
    Option.pure_def,Option.some.injEq,Prod.mk.injEq]
  constructor
  · rintro ⟨_,rfl,_,_,hmunch,_,rfl,rfl,rfl⟩
    obtain ⟨rfl,haccepts⟩ := Automaton.munch_sound hmunch
    exact ⟨haccepts,rfl⟩
  · rintro ⟨haccepts,rfl⟩
    exact ⟨_,rfl,text,_,Automaton.munch_complete haccepts (content_stops r),_,rfl,rfl,rfl⟩

theorem quoted_ne (h : c ≠ quote) (s : Bytes) : quoted (c::s) = none := by
  rw [quoted,expect_ne h]
  rfl

/-- A byte after which a numeral does not go on. -/
def ends (b : UInt8) : Bool := isSpace b || b = comma || b = 0x5d || b = 0x7d

def Delimited (s : Bytes) : Prop := ∀ b r, s = b::r → ends b = true

theorem numeral_stops (h : Delimited s) : numeral.Stops s := by
  intro b r hs q hq
  have hb := h b r hs
  simp only [ends,isSpace,Bool.or_eq_true,decide_eq_true_eq,or_assoc] at hb
  cases q with
  | zero | integer | fraction | exponent =>
    rcases hb with rfl | rfl | rfl | rfl | rfl | rfl | rfl <;> rfl
  | _ => cases hq

theorem delimited_blank (h : Blank s) : Delimited s := by
  rintro b r rfl
  rw [ends,h b List.mem_cons_self]
  rfl

theorem delimited_append (h : Blank text) (hb : ends b = true) (s : Bytes) :
    Delimited (text++b::s) := by
  rintro c r heq
  cases text with
  | nil =>
    cases heq
    exact hb
  | cons d text =>
    cases heq
    exact delimited_blank h _ text rfl

theorem ends_closing (kind : Kind) : ends kind.closing = true := by cases kind <;> rfl

theorem numeral_head (h : numeral.Accepts .start text) :
    ∃ b r, text = b::r ∧ (b = 0x2d ∨ isDigit b = true) := by
  cases text with
  | nil => cases h
  | cons b r =>
    refine ⟨b,r,rfl,?_⟩
    obtain ⟨q,hq,_⟩ := h
    by_cases hminus : b = 0x2d
    · exact .inl hminus
    · refine .inr ?_
      simp only [numeral,if_neg hminus,NumeralState.first] at hq
      split_ifs at hq with hzero hdigit
      · rw [hzero]
        rfl
      · exact hdigit

end Parts

section Leaves

variable {v : Value} {s r text : Bytes} {b c : UInt8}

def leads (b : UInt8) : Bool :=
  b = 0x6e || b = 0x74 || b = 0x66 || b = quote || b = 0x2d || isDigit b

theorem leads_ne (hb : leads b = true) (hc : leads c = false) : b ≠ c := by
  rintro rfl
  rw [hb] at hc
  cases hc

theorem leaf_head (h : Leaf v text) : ∃ b r, text = b::r ∧ leads b = true := by
  cases h with
  | null => exact ⟨_,_,rfl,rfl⟩
  | bool x => cases x <;> exact ⟨_,_,rfl,rfl⟩
  | number h =>
    obtain ⟨b,r,rfl,hb⟩ := numeral_head h
    refine ⟨b,r,rfl,?_⟩
    rcases hb with rfl | hb
    · rfl
    · simp [leads,hb]
  | string h => exact ⟨_,_,rfl,rfl⟩

theorem leaf_sound (h : leaf s = some (v,r)) : ∃ text, Leaf v text ∧ s = text++r := by
  simp only [leaf,Option.orElse_eq_some,Option.map_eq_some_iff,word_some,Prod.exists,
    Prod.mk.injEq] at h
  rcases h with ⟨_,rfl,rfl,rfl⟩ | ⟨-,⟨_,rfl,rfl,rfl⟩ | ⟨-,⟨_,rfl,rfl,rfl⟩ | ⟨-,h⟩⟩⟩
  · exact ⟨_,.null,rfl⟩
  · exact ⟨_,.bool true,rfl⟩
  · exact ⟨_,.bool false,rfl⟩
  · rcases h with ⟨x,y,hquoted,rfl,rfl⟩ | ⟨-,x,y,hmunch,rfl,rfl⟩
    · obtain ⟨haccepts,rfl⟩ := quoted_some.mp hquoted
      exact ⟨_,.string haccepts,by simp⟩
    · obtain ⟨rfl,haccepts⟩ := Automaton.munch_sound hmunch
      exact ⟨_,.number haccepts,rfl⟩

theorem leaf_other (hnull : b ≠ 0x6e) (htrue : b ≠ 0x74) (hfalse : b ≠ 0x66) (s : Bytes) :
    leaf (b::s) = (((quoted (b::s)).map fun x => (.string x.1,x.2))
      <|> ((numeral.munch .start (b::s)).map fun x => (.number x.1,x.2))) := by
  rw [leaf,nullText,boolText,boolText,word_ne hnull,word_ne htrue,word_ne hfalse]
  rfl

theorem leaf_complete (h : Leaf v text) (hr : Delimited r) : leaf (text++r) = some (v,r) := by
  cases h with
  | null => rfl
  | bool x => cases x <;> rfl
  | number h =>
    have hmunch := Automaton.munch_complete h (numeral_stops hr)
    obtain ⟨b,t,rfl,hb⟩ := numeral_head h
    -- the other leaves do not begin with a digit or a minus
    have hne : ∀ c : UInt8, c ≠ 0x2d → isDigit c = false → b ≠ c := by
      rintro c hminus hdigit rfl
      rcases hb with hb | hb
      · exact hminus hb
      · rw [hb] at hdigit
        cases hdigit
    rw [List.cons_append] at hmunch ⊢
    rw [leaf_other (hne _ (by decide) rfl) (hne _ (by decide) rfl) (hne _ (by decide) rfl),
      quoted_ne (hne _ (by decide) rfl),hmunch]
    rfl
  | @string text h =>
    have htext : quote::text++[quote]++r = quote::(text++quote::r) := by simp
    have hquoted : quoted (quote::(text++quote::r)) = some (text,r) := quoted_some.mpr ⟨h,rfl⟩
    rw [htext,leaf_other (by decide) (by decide) (by decide),hquoted]
    rfl

/-- A text that begins neither with white space nor with the end of a group. -/
def Begins (s : Bytes) : Prop :=
  ∃ b r, s = b::r ∧ isSpace b = false ∧ ∀ kind : Kind, b ≠ kind.closing

theorem begins_skip (h : Begins s) : skip s = s := by
  obtain ⟨b,r,rfl,hb,_⟩ := h
  exact skip_cons hb r

theorem begins_open (h : Begins s) (kind : Kind) : expect kind.closing s = none := by
  obtain ⟨b,r,rfl,_,hb⟩ := h
  exact expect_ne (hb kind) r

theorem spells_begins (h : Spells v text) (r : Bytes) : Begins (text++r) := by
  have hopening : ∀ (kind : Kind) (s : Bytes), Begins (kind.opening::s) := by
    intro kind s
    refine ⟨_,s,rfl,?_,fun kind' => ?_⟩
    · cases kind <;> rfl
    · cases kind <;> cases kind' <;> decide
  cases h with
  | leaf h =>
    obtain ⟨b,t,rfl,hb⟩ := leaf_head h
    refine ⟨b,t++r,rfl,?_,fun kind => leads_ne hb (by cases kind <;> rfl)⟩
    by_contra hspace
    simp only [isSpace,Bool.not_eq_false,Bool.or_eq_true,decide_eq_true_eq] at hspace
    rcases hspace with ((rfl | rfl) | rfl) | rfl <;> cases hb
  | empty h => exact hopening _ _
  | group h => exact hopening _ _

end Leaves

section Groups

variable {v : Value} {kind : Kind} {s r name text : Bytes} {es : List (Bytes × Value)} {n : ℕ}
  {read : Bytes → Option (List (Bytes × Value) × Bytes)}

theorem label_sound (h : label kind s = some (name,r)) : ∃ text, Label kind name text ∧ s = text++r := by
  cases kind with
  | array =>
    cases h
    exact ⟨[],.item,rfl⟩
  | object =>
    simp only [label,Option.bind_eq_bind,Option.bind_eq_some_iff,expect_some,Prod.exists,
      Option.pure_def,Option.some.injEq,Prod.mk.injEq] at h
    obtain ⟨_,s,hquoted,t,hcolon,rfl,rfl⟩ := h
    obtain ⟨hname,rfl⟩ := quoted_some.mp hquoted
    obtain ⟨before,hbefore,hs⟩ := exists_blank s
    obtain ⟨after,hafter,ht⟩ := exists_blank t
    refine ⟨_,.member hname hbefore hafter,?_⟩
    conv_lhs => rw [hs,hcolon,ht]
    simp

theorem label_complete (h : Label kind name text) (hs : Begins s) :
    label kind (text++s) = some (name,s) := by
  cases h with
  | item => rfl
  | @member name before after hname hbefore hafter =>
    have htext : quote::name++quote::before++colon::after++s =
        quote::name++quote::(before++colon::(after++s)) := by simp
    have hcolon : expect colon (skip (before++colon::(after++s))) = some (after++s) := by
      rw [skip_append hbefore,skip_cons rfl,expect_some]
    rw [htext,label,quoted_some.mpr ⟨hname,rfl⟩]
    simp only [Option.bind_eq_bind,Option.bind_some,hcolon,Option.pure_def,skip_append hafter,
      begins_skip hs]

theorem label_begins (h : Label kind name text) (hs : Begins s) : Begins (text++s) := by
  cases h with
  | item => exact hs
  | member hname hbefore hafter => exact ⟨_,_,rfl,rfl,fun kind => by cases kind <;> decide⟩

theorem group_sound
    (hread : ∀ s es r, read s = some (es,r) → ∃ text, Lists kind es text ∧ s = text++kind.closing::r)
    (h : group read kind s = some (v,r)) : ∃ text, Spells v text ∧ s = text++r := by
  simp only [group,Option.bind_eq_bind,Option.bind_eq_some_iff,expect_some] at h
  obtain ⟨t,rfl,h⟩ := h
  cases hclosing : expect kind.closing (skip t) with
  | some r' =>
    rw [hclosing] at h
    cases h
    obtain ⟨between,hbetween,ht⟩ := exists_blank t
    rw [expect_some.mp hclosing] at ht
    exact ⟨_,.empty hbetween,by rw [ht]; simp⟩
  | none =>
    simp only [hclosing,Option.bind_eq_some_iff,Prod.exists,Option.pure_def,Option.some.injEq,
      Prod.mk.injEq] at h
    obtain ⟨es,_,hes,rfl,rfl⟩ := h
    obtain ⟨text,hlists,rfl⟩ := hread _ _ _ hes
    exact ⟨_,.group hlists,by simp⟩

theorem reads_sound (n : ℕ) :
    (∀ s v r, value n s = some (v,r) → ∃ text, Spells v text ∧ s = text++r) ∧
      ∀ kind s es r, elements n kind s = some (es,r) →
        ∃ text, Lists kind es text ∧ s = text++kind.closing::r := by
  induction n with
  | zero => exact ⟨nofun,nofun⟩
  | succ n ih =>
    obtain ⟨ihv,ihes⟩ := ih
    refine ⟨fun s v r h => ?_,fun kind s es r h => ?_⟩
    · simp only [value,Option.orElse_eq_some] at h
      rcases h with h | ⟨-,h | ⟨-,h⟩⟩
      · exact group_sound (ihes .array) h
      · exact group_sound (ihes .object) h
      · obtain ⟨text,hleaf,rfl⟩ := leaf_sound h
        exact ⟨text,.leaf hleaf,rfl⟩
    · simp only [elements,Option.bind_eq_bind,Option.bind_eq_some_iff,Prod.exists] at h
      obtain ⟨name,s₁,hlabel,v,s₂,hv,h⟩ := h
      obtain ⟨before,hbefore,hs⟩ := exists_blank s
      obtain ⟨text,htext,hs₁⟩ := label_sound hlabel
      obtain ⟨spelled,hspelled,rfl⟩ := ihv _ _ _ hv
      obtain ⟨after,hafter,hs₂⟩ := exists_blank s₂
      cases hclosing : expect kind.closing (skip s₂) with
      | some r' =>
        rw [hclosing] at h
        cases h
        refine ⟨_,.last hbefore htext hspelled hafter,?_⟩
        rw [hs,hs₁,hs₂,expect_some.mp hclosing]
        simp
      | none =>
        simp only [hclosing,Option.bind_eq_some_iff,Prod.exists,Option.pure_def,Option.some.injEq,
          Prod.mk.injEq,expect_some] at h
        obtain ⟨s₃,hcomma,es,_,hes,rfl,rfl⟩ := h
        obtain ⟨rest,hrest,rfl⟩ := ihes _ _ _ _ hes
        refine ⟨_,.more hbefore htext hspelled hafter hrest,?_⟩
        rw [hs,hs₁,hs₂,hcomma]
        simp

theorem group_ne {c : UInt8}
    (h : c ≠ kind.opening) (s : Bytes) : group read kind (c::s) = none := by
  rw [group,expect_ne h]
  rfl

theorem closing_solid (kind : Kind) : isSpace kind.closing = false := by cases kind <;> rfl

theorem value_empty (h : Blank text) :
    value (n+1) (kind.opening::(text++kind.closing::r)) = some (.group kind [],r) := by
  have hgroup : ∀ read, group read kind (kind.opening::(text++kind.closing::r)) =
      some (.group kind [],r) := by
    intro read
    simp only [group,expect_some.mpr rfl,Option.bind_eq_bind,Option.bind_some,skip_append h,
      skip_cons (closing_solid kind),Option.pure_def]
  cases kind with
  | array => rw [value,hgroup]; rfl
  | object => rw [value,group_ne (by decide),hgroup]; rfl

theorem value_group (hopen : expect kind.closing (skip s) = none)
    (h : elements n kind s = some (es,r)) :
    value (n+1) (kind.opening::s) = some (.group kind es,r) := by
  have hgroup : group (elements n kind) kind (kind.opening::s) = some (.group kind es,r) := by
    simp only [group,expect_some.mpr rfl,Option.bind_eq_bind,Option.bind_some,hopen,h,
      Option.pure_def]
  cases kind with
  | array => rw [value,hgroup]; rfl
  | object => rw [value,group_ne (by decide),hgroup]; rfl

theorem value_leaf (h : Leaf v text) (hr : Delimited r) : value (n+1) (text++r) = some (v,r) := by
  have hleaf := leaf_complete h hr
  obtain ⟨b,t,rfl,hb⟩ := leaf_head h
  rw [List.cons_append] at hleaf ⊢
  rw [value,group_ne (leads_ne hb rfl),group_ne (leads_ne hb rfl),hleaf]
  rfl

/-- The elements of a group begin, after white space, with the label or the value of the first. -/
theorem lists_skip (h : Lists kind es text) (r : Bytes) : Begins (skip (text++r)) := by
  have hfirst : ∀ {before label spelled name : Bytes} {v : Value} (tail : Bytes), Blank before →
      Label kind name label → Spells v spelled →
      Begins (skip (before++(label++(spelled++tail))++r)) := by
    intro before label spelled name v tail hbefore hlabel hv
    have hbegins : Begins (label++(spelled++(tail++r))) :=
      label_begins hlabel (spells_begins hv (tail++r))
    rw [List.append_assoc,skip_append hbefore,List.append_assoc,List.append_assoc,
      begins_skip hbegins]
    exact hbegins
  cases h with
  | last hbefore hlabel hv hafter
  | more hbefore hlabel hv hafter hrest => exact hfirst _ hbefore hlabel hv

theorem elements_first {before label after tail : Bytes} (hbefore : Blank before)
    (hlabel : Label kind name label) (hv : Spells v text) (hafter : Blank after)
    (hvalue : value n (text++(after++tail)) = some (v,after++tail)) :
    elements (n+1) kind (before++(label++(text++(after++tail)))) =
      match expect kind.closing (skip tail) with
      | some r => some ([(name,v)],r)
      | none => (expect comma (skip tail)).bind fun s =>
        (elements n kind s).bind fun x => some ((name,v)::x.1,x.2) := by
  have hbegins := label_begins hlabel (spells_begins hv (after++tail))
  rw [elements,skip_append hbefore,begins_skip hbegins,
    label_complete hlabel (spells_begins hv (after++tail))]
  simp only [Option.bind_eq_bind,Option.bind_some,hvalue,skip_append hafter,Option.pure_def]

/-- What is spelled is read, where numerals are delimited. -/
theorem reads_complete (n : ℕ) :
    (∀ v text r, Spells v text → text.length ≤ n → Delimited r → value n (text++r) = some (v,r)) ∧
      ∀ kind es text r, Lists kind es text → text.length+1 ≤ n →
        elements n kind (text++kind.closing::r) = some (es,r) := by
  induction n with
  | zero =>
    refine ⟨fun v text r h hlen _ => ?_,fun kind es text r _ hlen => absurd hlen (by omega)⟩
    obtain ⟨b,t,ht,_⟩ := spells_begins h []
    rw [List.append_nil] at ht
    subst ht
    cases hlen
  | succ n ih =>
    obtain ⟨ihv,ihes⟩ := ih
    refine ⟨fun v text r h hlen hr => ?_,fun kind es text r h hlen => ?_⟩
    · cases h with
      | leaf h => exact value_leaf h hr
      | @empty kind between h =>
        have htext : kind.opening::between++[kind.closing]++r =
            kind.opening::(between++kind.closing::r) := by simp
        rw [htext]
        exact value_empty h
      | @group kind es text h =>
        have htext : kind.opening::text++[kind.closing]++r =
            kind.opening::(text++kind.closing::r) := by simp
        simp only [List.length_append,List.length_cons,List.length_nil] at hlen
        rw [htext]
        exact value_group (begins_open (lists_skip h _) kind) (ihes kind es text r h (by omega))
    · cases h with
      | @last _ name label text before after v hbefore hlabel hv hafter =>
        have htext : before++(label++(text++after))++kind.closing::r =
            before++(label++(text++(after++kind.closing::r))) := by simp
        simp only [List.length_append] at hlen
        rw [htext,elements_first hbefore hlabel hv hafter (ihv v text _ hv (by omega)
          (delimited_append hafter (ends_closing kind) r)),skip_cons (closing_solid kind),
          expect_some.mpr rfl]
      | @more _ name label text before after rest v es hbefore hlabel hv hafter hrest =>
        have htext : before++(label++(text++(after++comma::rest)))++kind.closing::r =
            before++(label++(text++(after++comma::(rest++kind.closing::r)))) := by simp
        simp only [List.length_append,List.length_cons] at hlen
        have hcomma : expect kind.closing (comma::(rest++kind.closing::r)) = none :=
          expect_ne (by cases kind <;> decide) _
        rw [htext,elements_first hbefore hlabel hv hafter (ihv v text _ hv (by omega)
          (delimited_append hafter rfl _)),skip_cons rfl,hcomma,expect_some.mpr rfl]
        simp only [Option.bind_some,ihes kind es rest r hrest (by omega)]

end Groups

section Stream

/-- What a decoder finds next in its text. -/
inductive Next
  | eof
  | malformed
  | value (v : Value) (rest : Bytes)

def next (s : Bytes) : Next :=
  match skip s with
  | [] => .eof
  | b::r =>
    match value (r.length+1) (b::r) with
    | some (v,rest) => .value v rest
    | none => .malformed

variable {s rest : Bytes} {v : Value}

theorem next_eof : next s = .eof ↔ Blank s := by
  have hblank : Blank s ↔ skip s = [] := by
    simp [Blank,skip,List.dropWhile_eq_nil_iff]
  rw [hblank,next]
  cases skip s with
  | nil => simp
  | cons b r =>
    dsimp only
    cases value (r.length+1) (b::r) <;> simp

theorem next_sound (h : next s = .value v rest) :
    ∃ before text, Blank before ∧ Spells v text ∧ s = before++(text++rest) := by
  obtain ⟨before,hbefore,hs⟩ := exists_blank s
  unfold next at h
  cases hskip : skip s with
  | nil =>
    rw [hskip] at h
    cases h
  | cons b r =>
    rw [hskip] at h hs
    dsimp only at h
    cases hvalue : value (r.length+1) (b::r) with
    | none =>
      rw [hvalue] at h
      cases h
    | some x =>
      rw [hvalue] at h
      cases h
      obtain ⟨text,htext,heq⟩ := (reads_sound _).1 _ _ _ hvalue
      exact ⟨before,text,hbefore,htext,by rw [hs,heq]⟩

theorem next_complete {before text : Bytes} (hbefore : Blank before) (htext : Spells v text)
    (hrest : Delimited rest) : next (before++(text++rest)) = .value v rest := by
  have hbegins := spells_begins htext rest
  rw [next,skip_append hbefore,begins_skip hbegins]
  obtain ⟨b,r,heq,_⟩ := hbegins
  have hlen := congrArg List.length heq
  simp only [List.length_append,List.length_cons] at hlen
  have hvalue := (reads_complete (r.length+1)).1 v text rest htext (by omega) hrest
  rw [heq] at hvalue ⊢
  dsimp only
  rw [hvalue]

/-- A text is one value just where only white space is left after the first one. -/
theorem single_iff (h : next s = .value v rest) : Single s ↔ Blank rest := by
  constructor
  · rintro ⟨before,text,after,v',hbefore,htext,hafter,rfl⟩
    rw [next_complete hbefore htext (delimited_blank hafter)] at h
    cases h
    exact hafter
  · intro hrest
    obtain ⟨before,text,hbefore,htext,hs⟩ := next_sound h
    exact ⟨before,text,rest,v,hbefore,htext,hrest,hs⟩

end Stream

section Records

variable {T : Type}

/-- Decoding into a record: a null leaves it as it is, an object sets its fields one by one, and no
other value fits. -/
def record (set : T → Bytes → Value → Option T) (start : T) : Value → Option T
  | .null => some start
  | .group .object members => members.foldlM (fun t x => set t x.1 x.2) start
  | _ => none

/-- Into a record without fields only a null and the empty object can be decoded. -/
theorem record_fieldless {start : T} {v : Value} :
    (record (fun _ _ _ => none) start v).isSome = true ↔ v = .null ∨ v = .group .object [] := by
  cases v with
  | group kind elements =>
    cases kind with
    | array => simp [record]
    | object => cases elements <;> simp [record]
  | _ => simp [record]

end Records

end JsonText
end AquaOS
