import AquaOS.EscapedText

/-! Go's `strconv.Quote` over bytes, for any table of printable characters, and a reader of quoted
strings that knows only the escapes of the quotation mark and of the escape itself. It always finds
the end of the string, and reads back the texts that are printable UTF-8. -/
namespace AquaOS
namespace Quoted

open Escaped

def mark : UInt8 := 34
def backslash : UInt8 := 92

section Runes

def second (lead byte : ℕ) : Bool :=
  (if lead = 0xE0 then 0xA0 else if lead = 0xF0 then 0x90 else 0x80) ≤ byte ∧
    byte ≤ if lead = 0xED then 0x9F else if lead = 0xF4 then 0x8F else 0xBF

def continues (byte : ℕ) : Bool := 0x80 ≤ byte ∧ byte ≤ 0xBF

/-- The rune at the front of a text and its width in bytes, if it is well encoded. -/
def decodeRune : List UInt8 → Option (ℕ × ℕ)
  | [] => none
  | b::text =>
    if b.toNat < 0x80 then some (b.toNat,1)
    else
      match text with
      | [] => none
      | x::text =>
        if 0xC2 ≤ b.toNat ∧ b.toNat ≤ 0xDF ∧ continues x.toNat then
          some ((b.toNat-0xC0)*64+(x.toNat-0x80),2)
        else
          match text with
          | [] => none
          | y::text =>
            if 0xE0 ≤ b.toNat ∧ b.toNat ≤ 0xEF ∧ second b.toNat x.toNat ∧ continues y.toNat then
              some ((b.toNat-0xE0)*4096+(x.toNat-0x80)*64+(y.toNat-0x80),3)
            else
              match text with
              | [] => none
              | z::_ =>
                if 0xF0 ≤ b.toNat ∧ b.toNat ≤ 0xF4 ∧ second b.toNat x.toNat ∧
                    continues y.toNat ∧ continues z.toNat then
                  some ((b.toNat-0xF0)*262144+(x.toNat-0x80)*4096+(y.toNat-0x80)*64+
                    (z.toNat-0x80),4)
                else none

def encodeRune (r : ℕ) : List UInt8 :=
  (if r < 0x80 then [r]
    else if r < 0x800 then [0xC0+r/64,0x80+r%64]
    else if r < 0x10000 then [0xE0+r/4096,0x80+r/64%64,0x80+r%64]
    else [0xF0+r/262144,0x80+r/4096%64,0x80+r/64%64,0x80+r%64]).map UInt8.ofNat

/-- What the decoder says of a rune. -/
structure Decoded (text : List UInt8) (r w : ℕ) : Prop where
  pos : 0 < w
  fits : w ≤ text.length
  bytes : encodeRune r = text.take w
  width : w ≤ 4
  narrow : r < 0x10000 → w ≤ 3
  high : 0x80 ≤ r → ∀ b ∈ text.take w, 0x80 ≤ b.toNat

variable {b x y : UInt8} {r : ℕ}

theorem ofNat_toNat {n : ℕ} (h : n = b.toNat) : UInt8.ofNat n = b := by
  rw [h]
  exact UInt8.ofNat_toNat

theorem second_bounds {lead byte : ℕ} (h : second lead byte = true) :
    0x80 ≤ byte ∧ byte ≤ 0xBF ∧ (lead = 0xE0 → 0xA0 ≤ byte) ∧ (lead = 0xF0 → 0x90 ≤ byte) ∧
      (lead = 0xF4 → byte ≤ 0x8F) := by
  simp only [second,decide_eq_true_eq] at h
  split_ifs at h <;> omega

theorem encodeRune_two (hb : 0xC2 ≤ b.toNat ∧ b.toNat ≤ 0xDF) (hx : continues x.toNat = true) :
    encodeRune ((b.toNat-0xC0)*64+(x.toNat-0x80)) = [b,x] := by
  simp only [continues,decide_eq_true_eq] at hx
  obtain ⟨n,hn⟩ : ∃ n, n = (b.toNat-0xC0)*64+(x.toNat-0x80) := ⟨_,rfl⟩
  rw [← hn,encodeRune,if_neg (by omega),if_pos (by omega)]
  simp only [List.map_cons,List.map_nil]
  rw [ofNat_toNat (b := b) (by omega),ofNat_toNat (b := x) (by omega)]

theorem encodeRune_three (hb : 0xE0 ≤ b.toNat ∧ b.toNat ≤ 0xEF)
    (hx : second b.toNat x.toNat = true) (hy : continues y.toNat = true) :
    encodeRune ((b.toNat-0xE0)*4096+(x.toNat-0x80)*64+(y.toNat-0x80)) = [b,x,y] := by
  have hbounds := second_bounds hx
  simp only [continues,decide_eq_true_eq] at hy
  obtain ⟨n,hn⟩ : ∃ n, n = (b.toNat-0xE0)*4096+(x.toNat-0x80)*64+(y.toNat-0x80) := ⟨_,rfl⟩
  rw [← hn,encodeRune,if_neg (by omega),if_neg (by omega),if_pos (by omega)]
  simp only [List.map_cons,List.map_nil]
  rw [ofNat_toNat (b := b) (by omega),ofNat_toNat (b := x) (by omega),
    ofNat_toNat (b := y) (by omega)]

theorem encodeRune_four {z : UInt8} (hb : 0xF0 ≤ b.toNat ∧ b.toNat ≤ 0xF4)
    (hx : second b.toNat x.toNat = true) (hy : continues y.toNat = true)
    (hz : continues z.toNat = true) :
    encodeRune ((b.toNat-0xF0)*262144+(x.toNat-0x80)*4096+(y.toNat-0x80)*64+(z.toNat-0x80)) =
        [b,x,y,z] ∧
      0x10000 ≤ (b.toNat-0xF0)*262144+(x.toNat-0x80)*4096+(y.toNat-0x80)*64+(z.toNat-0x80) := by
  have hbounds := second_bounds hx
  simp only [continues,decide_eq_true_eq] at hy hz
  obtain ⟨n,hn⟩ : ∃ n, n = (b.toNat-0xF0)*262144+(x.toNat-0x80)*4096+(y.toNat-0x80)*64+
    (z.toNat-0x80) := ⟨_,rfl⟩
  rw [← hn]
  refine ⟨?_,by omega⟩
  rw [encodeRune,if_neg (by omega),if_neg (by omega),if_neg (by omega)]
  simp only [List.map_cons,List.map_nil]
  rw [ofNat_toNat (b := b) (by omega),ofNat_toNat (b := x) (by omega),
    ofNat_toNat (b := y) (by omega),ofNat_toNat (b := z) (by omega)]

theorem Decoded.wide (l rest : List UInt8) (hpos : 0 < l.length) (hwidth : l.length ≤ 4)
    (hbytes : encodeRune r = l) (hnarrow : r < 0x10000 → l.length ≤ 3)
    (hhigh : ∀ b ∈ l, 0x80 ≤ b.toNat) : Decoded (l++rest) r l.length where
  pos := hpos
  fits := by simp
  bytes := by rw [List.take_left,hbytes]
  width := hwidth
  narrow := hnarrow
  high _ := by rwa [List.take_left]

theorem decodeRune_some {text : List UInt8} {w : ℕ} (h : decodeRune text = some (r,w)) :
    Decoded text r w := by
  unfold decodeRune at h
  cases text with
  | nil => cases h
  | cons b text =>
    dsimp only at h
    split_ifs at h with hb
    · obtain ⟨rfl,rfl⟩ := Prod.mk.inj (Option.some.inj h)
      refine ⟨by omega,by simp,?_,by omega,by omega,by omega⟩
      rw [encodeRune,if_pos hb]
      simp
    · cases text with
      | nil => cases h
      | cons x text =>
        dsimp only at h
        split_ifs at h with htwo
        · obtain ⟨rfl,rfl⟩ := Prod.mk.inj (Option.some.inj h)
          obtain ⟨hlow,hhigh,hx⟩ := htwo
          have hencode := encodeRune_two ⟨hlow,hhigh⟩ hx
          simp only [continues,decide_eq_true_eq] at hx
          exact .wide [b,x] text (by simp) (by simp) hencode (by simp) (by simp; omega)
        · cases text with
          | nil => cases h
          | cons y text =>
            dsimp only at h
            split_ifs at h with hthree
            · obtain ⟨rfl,rfl⟩ := Prod.mk.inj (Option.some.inj h)
              obtain ⟨hlow,hhigh,hsecond,hy⟩ := hthree
              have hencode := encodeRune_three ⟨hlow,hhigh⟩ hsecond hy
              have hbounds := second_bounds hsecond
              simp only [continues,decide_eq_true_eq] at hy
              exact .wide [b,x,y] text (by simp) (by simp) hencode (by simp) (by simp; omega)
            · cases text with
              | nil => cases h
              | cons z text =>
                dsimp only at h
                split_ifs at h with hfour
                obtain ⟨rfl,rfl⟩ := Prod.mk.inj (Option.some.inj h)
                obtain ⟨hlow,hhigh,hsecond,hy,hz⟩ := hfour
                obtain ⟨hencode,hbig⟩ := encodeRune_four ⟨hlow,hhigh⟩ hsecond hy hz
                have hbounds := second_bounds hsecond
                simp only [continues,decide_eq_true_eq] at hy hz
                exact .wide [b,x,y,z] text (by simp) (by simp) hencode
                  (fun hsmall => absurd hsmall (Nat.not_lt.mpr hbig)) (by simp; omega)

end Runes

section Quote

/-- A rune of a text with its bytes, or a byte that belongs to none. -/
structure Chunk where
  rune : Option ℕ
  raw : List UInt8

/-- The chunks of a text after some bytes that belong to an earlier one. -/
def chunksFrom : ℕ → List UInt8 → List Chunk
  | _, [] => []
  | n+1, _::text => chunksFrom n text
  | 0, b::text =>
    match decodeRune (b::text) with
    | none => ⟨none,[b]⟩::chunksFrom 0 text
    | some (r,w) => ⟨some r,(b::text).take w⟩::chunksFrom (w-1) text

def hexDigit (n : ℕ) : UInt8 := if n < 10 then UInt8.ofNat (48+n) else UInt8.ofNat (87+n)

/-- The last digits of a number in base sixteen. -/
def hexDigits : ℕ → ℕ → List UInt8
  | 0, _ => []
  | k+1, n => hexDigits k (n/16)++[hexDigit (n%16)]

/-- The escape of a rune that is not printable. -/
def controlEscape (r : ℕ) : List UInt8 :=
  if r = 7 then [97]
  else if r = 8 then [98]
  else if r = 12 then [102]
  else if r = 10 then [110]
  else if r = 13 then [114]
  else if r = 9 then [116]
  else if r = 11 then [118]
  else if r < 32 ∨ r = 127 then 120::hexDigits 2 r
  else if r < 0x10000 then 117::hexDigits 4 r
  else 85::hexDigits 8 r

variable (isPrint : ℕ → Bool)

def quoteChunk (c : Chunk) : List UInt8 :=
  match c.rune with
  | none => backslash::120::c.raw.flatMap fun b => hexDigits 2 b.toNat
  | some r =>
    if r = 34 ∨ r = 92 then [backslash,UInt8.ofNat r]
    else if isPrint r then encodeRune r
    else backslash::controlEscape r

/-- `strconv.Quote`. -/
def quote (s : List UInt8) : List UInt8 :=
  mark::(chunksFrom 0 s).flatMap (quoteChunk isPrint)++[mark]

/-- The chunk is a rune that is quoted as itself or by an escape the reader knows. -/
def Chunk.readable (c : Chunk) : Bool :=
  match c.rune with
  | none => false
  | some r => r = 34 ∨ r = 92 ∨ isPrint r

/-- The text is UTF-8 and all its runes are printable. -/
def printable (s : List UInt8) : Bool := (chunksFrom 0 s).all (Chunk.readable isPrint)

/-- Quoted strings: the escape counts before the quotation mark and before itself. -/
def alphabet : Alphabet UInt8 := ⟨backslash,fun b => b = mark ∨ b = backslash⟩

/-- The string after an opening quotation mark and the text after the closing one. -/
def readString (text : List UInt8) : Option (List UInt8 × List UInt8) :=
  match alphabet.read (· = mark) text with
  | (s,_::rest) => some (s,rest)
  | (_,[]) => none

end Quote

section Chunks

theorem chunksFrom_raw (n : ℕ) (s : List UInt8) : (chunksFrom n s).flatMap Chunk.raw = s.drop n := by
  fun_induction chunksFrom n s with
  | case1 n => simp
  | case2 n b text ih => simpa using ih
  | case3 b text hrune ih => simp [ih]
  | case4 b text r w hrune ih =>
    obtain ⟨w,rfl⟩ := Nat.exists_eq_add_one.mpr (decodeRune_some hrune).pos
    rw [Nat.add_sub_cancel] at ih
    simp [ih]

inductive Chunk.Sound : Chunk → Prop
  | byte (b : UInt8) : Sound ⟨none,[b]⟩
  | rune (text : List UInt8) (r w : ℕ) (h : Decoded text r w) : Sound ⟨some r,text.take w⟩

theorem chunksFrom_sound (n : ℕ) (s : List UInt8) : ∀ c ∈ chunksFrom n s, c.Sound := by
  fun_induction chunksFrom n s with
  | case1 n => simp
  | case2 n b text ih => exact ih
  | case3 b text hrune ih => simpa using ⟨.byte b,ih⟩
  | case4 b text r w hrune ih => simpa using ⟨.rune (b::text) r w (decodeRune_some hrune),ih⟩

def Plain (b : UInt8) : Prop := b ≠ mark ∧ b ≠ backslash

variable {l : List UInt8} {r : ℕ} {b : UInt8}

theorem read_plains (h : ∀ b ∈ l, Plain b) (text : List UInt8) :
    alphabet.read (· = mark) (l++text) =
      (l++(alphabet.read (· = mark) text).1,(alphabet.read (· = mark) text).2) := by
  induction l with
  | nil => rfl
  | cons b l ih =>
    have hb := h b (by simp)
    rw [List.cons_append,Alphabet.read_plain hb.2 (by simpa using hb.1),
      ih fun c hc => h c (by simp [hc])]
    rfl

theorem hexDigit_plain {n : ℕ} (h : n < 16) : Plain (hexDigit n) := by
  have hall : ∀ m : Fin 16, hexDigit m ≠ mark ∧ hexDigit m ≠ backslash := by decide
  exact hall ⟨n,h⟩

theorem hexDigits_plain (k n : ℕ) : ∀ b ∈ hexDigits k n, Plain b := by
  induction k generalizing n with
  | zero => simp [hexDigits]
  | succ k ih =>
    intro b hb
    rcases List.mem_append.mp hb with hb | hb
    · exact ih (n/16) b hb
    · rw [List.mem_singleton.mp hb]
      exact hexDigit_plain (Nat.mod_lt n (by decide))

theorem length_hexDigits (k n : ℕ) : (hexDigits k n).length = k := by
  induction k generalizing n with
  | zero => rfl
  | succ k ih => simp [hexDigits,ih]

/-- An escape the reader does not know is read as it stands. -/
theorem read_unknown (hne : l ≠ []) (h : ∀ c ∈ l, Plain c) (text : List UInt8) :
    alphabet.read (· = mark) (backslash::l++text) =
      (backslash::l++(alphabet.read (· = mark) text).1,(alphabet.read (· = mark) text).2) := by
  cases l with
  | nil => exact absurd rfl hne
  | cons b l =>
    have hb : alphabet.special b = false := by
      have hplain := h b (by simp)
      simp [alphabet,hplain.1,hplain.2]
    have hread := read_plains h text
    rw [List.cons_append] at hread ⊢
    rw [List.cons_append,show backslash = alphabet.esc from rfl,Alphabet.read_literal hb,hread]
    rfl

/-- An escape of the rune that the reader does not know and that is longer than its bytes. -/
structure Unknown (r : ℕ) (text : List UInt8) : Prop where
  nonempty : text ≠ []
  plain : ∀ b ∈ text, Plain b
  wide : 0x80 ≤ r → 5 ≤ text.length
  wider : 0x10000 ≤ r → 9 ≤ text.length

theorem unknown_letter (hr : r < 0x80) (hb : Plain b) : Unknown r [b] where
  nonempty := by simp
  plain c hc := List.mem_singleton.mp hc ▸ hb
  wide h := absurd hr (Nat.not_lt.mpr h)
  wider h := absurd hr (Nat.not_lt.mpr ((by decide : 0x80 ≤ 0x10000).trans h))

theorem unknown_hex {k : ℕ} (hb : Plain b) (hwide : 0x80 ≤ r → 4 ≤ k)
    (hwider : 0x10000 ≤ r → 8 ≤ k) : Unknown r (b::hexDigits k r) where
  nonempty := by simp
  plain c hc := by
    rcases List.mem_cons.mp hc with rfl | hc
    · exact hb
    · exact hexDigits_plain k r c hc
  wide h := by simpa [length_hexDigits] using hwide h
  wider h := by simpa [length_hexDigits] using hwider h

theorem controlEscape_unknown (r : ℕ) : Unknown r (controlEscape r) := by
  unfold controlEscape
  split_ifs
  iterate 7
    · exact unknown_letter (by omega) ⟨by decide,by decide⟩
  · exact unknown_hex ⟨by decide,by decide⟩ (by omega) (by omega)
  · exact unknown_hex ⟨by decide,by decide⟩ (fun _ => Nat.le_refl 4) (by omega)
  · exact unknown_hex ⟨by decide,by decide⟩ (fun _ => by decide) (fun _ => Nat.le_refl 8)

end Chunks

section Reading

variable {isPrint : ℕ → Bool} {r : ℕ} {c : Chunk} {cs : List Chunk}

/-- What the reader makes of a quoted chunk. -/
def Chunk.reading (isPrint : ℕ → Bool) (c : Chunk) : List UInt8 :=
  if c.readable isPrint then c.raw else quoteChunk isPrint c

theorem encodeRune_small (h : r < 0x80) : encodeRune r = [UInt8.ofNat r] := by
  rw [encodeRune,if_pos h]
  rfl

theorem raw_plain {text : List UInt8} {w : ℕ} (h : Decoded text r w) (hr : r ≠ 34 ∧ r ≠ 92) :
    ∀ b ∈ text.take w, Plain b := by
  intro b hb
  by_cases hsmall : r < 0x80
  · rw [← h.bytes,encodeRune_small hsmall,List.mem_singleton] at hb
    have hnat : b.toNat = r := by
      rw [hb,UInt8.toNat_ofNat']
      omega
    constructor
    · rintro rfl
      exact hr.1 hnat.symm
    · rintro rfl
      exact hr.2 hnat.symm
  · have hhigh := h.high (by omega) b hb
    constructor
    · rintro rfl
      exact absurd hhigh (by decide)
    · rintro rfl
      exact absurd hhigh (by decide)

theorem read_quoteChunk (hc : c.Sound) (text : List UInt8) :
    alphabet.read (· = mark) (quoteChunk isPrint c++text) =
      (c.reading isPrint++(alphabet.read (· = mark) text).1,
        (alphabet.read (· = mark) text).2) := by
  cases hc with
  | byte b =>
    have hplain : ∀ c ∈ 120::[b].flatMap (fun b => hexDigits 2 b.toNat), Plain c := by
      intro c hc
      rcases List.mem_cons.mp hc with rfl | hc
      · exact ⟨by decide,by decide⟩
      · simp only [List.flatMap_cons,List.flatMap_nil,List.append_nil] at hc
        exact hexDigits_plain 2 _ c hc
    exact read_unknown (by simp) hplain text
  | rune front r w h =>
    by_cases hspecial : r = 34 ∨ r = 92
    · have hraw : front.take w = [UInt8.ofNat r] := by
        rw [← h.bytes,encodeRune_small (by omega)]
      have hcounts : alphabet.special (UInt8.ofNat r) = true := by
        rcases hspecial with rfl | rfl <;> rfl
      have hreadable : Chunk.readable isPrint ⟨some r,front.take w⟩ = true := by
        rcases hspecial with rfl | rfl <;> simp [Chunk.readable]
      rw [Chunk.reading,if_pos hreadable,hraw]
      simp only [quoteChunk,if_pos hspecial]
      exact Alphabet.read_special hcounts text
    · obtain ⟨hmark,hescape⟩ := not_or.mp hspecial
      by_cases hprint : isPrint r = true
      · have hreadable : Chunk.readable isPrint ⟨some r,front.take w⟩ = true := by
          simp [Chunk.readable,hprint]
        rw [Chunk.reading,if_pos hreadable]
        simp only [quoteChunk,if_neg hspecial,if_pos hprint,h.bytes]
        exact read_plains (raw_plain h ⟨hmark,hescape⟩) text
      · have hreadable : Chunk.readable isPrint ⟨some r,front.take w⟩ = false := by
          simp [Chunk.readable,hmark,hescape,hprint]
        have hunknown := controlEscape_unknown r
        rw [Chunk.reading,hreadable]
        simp only [quoteChunk,if_neg hspecial,if_neg hprint,Bool.false_eq_true,if_false]
        exact read_unknown hunknown.nonempty hunknown.plain text

theorem length_reading (hc : c.Sound) (h : c.readable isPrint = false) :
    c.raw.length < (c.reading isPrint).length := by
  rw [Chunk.reading,h]
  cases hc with
  | byte b => simp [quoteChunk,length_hexDigits]
  | rune front r w hr =>
    simp only [Chunk.readable,decide_eq_false_iff_not,not_or] at h
    obtain ⟨hmark,hescape,hprint⟩ := h
    have hunknown := controlEscape_unknown r
    have hpos := List.length_pos_iff.mpr hunknown.nonempty
    have hlength : (front.take w).length ≤ w := by simp
    have hwidth := hr.width
    have hnarrow := hr.narrow
    have hsmall : r < 0x80 → (front.take w).length = 1 := fun hlt => by
      rw [← hr.bytes,encodeRune_small hlt]
      rfl
    simp only [quoteChunk,hmark,hescape,hprint,or_self,if_false,Bool.false_eq_true,
      List.length_cons]
    by_cases hlt : r < 0x80
    · rw [hsmall hlt]
      omega
    · by_cases hbig : r < 0x10000
      · have := hunknown.wide (by omega)
        have := hnarrow hbig
        omega
      · have := hunknown.wider (by omega)
        omega

theorem read_chunks (h : ∀ c ∈ cs, c.Sound) (text : List UInt8) :
    alphabet.read (· = mark) (cs.flatMap (quoteChunk isPrint)++mark::text) =
      (cs.flatMap (Chunk.reading isPrint),mark::text) := by
  induction cs with
  | nil => exact Alphabet.read_stop (by decide) (by decide) text
  | cons c cs ih =>
    rw [List.flatMap_cons,List.append_assoc,read_quoteChunk (h c (by simp)),
      ih fun d hd => h d (by simp [hd])]
    rfl

theorem readings_eq_iff (isPrint : ℕ → Bool) (h : ∀ c ∈ cs, c.Sound) :
    cs.flatMap (Chunk.reading isPrint) = cs.flatMap Chunk.raw ↔
      cs.all (Chunk.readable isPrint) = true := by
  have hle : ∀ cs : List Chunk, (∀ c ∈ cs, c.Sound) →
      (cs.flatMap Chunk.raw).length ≤ (cs.flatMap (Chunk.reading isPrint)).length := by
    intro cs hcs
    rw [List.length_flatMap,List.length_flatMap]
    refine List.sum_le_sum fun c hc => ?_
    cases hreadable : c.readable isPrint with
    | true => rw [Chunk.reading,if_pos hreadable]
    | false => exact (length_reading (hcs c hc) hreadable).le
  induction cs with
  | nil => simp
  | cons c cs ih =>
    have hrest : ∀ d ∈ cs, d.Sound := fun d hd => h d (by simp [hd])
    cases hreadable : c.readable isPrint with
    | true =>
      have hreading : c.reading isPrint = c.raw := if_pos hreadable
      simpa [hreadable,hreading] using ih hrest
    | false =>
      refine iff_of_false (fun heq => ?_) (by simp [hreadable])
      have hlength := congrArg List.length heq
      simp only [List.flatMap_cons,List.length_append] at hlength
      have hlt := length_reading (h c (by simp)) hreadable
      have hge := hle cs hrest
      omega

/-- A quoted string is read to its end, and read back as it was exactly if it is printable. -/
theorem readString_quote (isPrint : ℕ → Bool) (s text : List UInt8) :
    ∃ s', readString ((chunksFrom 0 s).flatMap (quoteChunk isPrint)++mark::text) = some (s',text) ∧
      (s' = s ↔ printable isPrint s = true) := by
  have hsound := chunksFrom_sound 0 s
  refine ⟨_,by rw [readString,read_chunks hsound],?_⟩
  have hiff := readings_eq_iff isPrint hsound
  rwa [chunksFrom_raw,List.drop_zero] at hiff

end Reading

end Quoted
end AquaOS
