import AquaOS.HistoryPoint
import AquaOS.QuotedText

/-! The line protocol. The client writes a batch as one text, a line a point, with the tags and fields
in the order of their keys. The decoder reads measurements, tags and field keys with the escapes of
the comma, the space and the equals sign, and strings with those of the quotation mark and of the
backslash. Timestamps and tokens are read back as they were written, but for a few shapes. -/
namespace AquaOS
namespace Storage

open Domain Escaped Quoted

def newline : UInt8 := 10
def space : UInt8 := 32
def comma : UInt8 := 44
def minus : UInt8 := 45
def equals : UInt8 := 61

/-- The backslash counts before the separators. -/
def tokens : Alphabet UInt8 := ⟨backslash,fun b => b ∈ [comma,space,equals]⟩

def escapeMeasurement (value : Text) : Text := tokens.write (fun b => b ∈ [comma,space]) value
def escapeTag (value : Text) : Text := tokens.write (fun b => b ∈ [comma,space,equals]) value
def escapeFieldKey (value : Text) : Text := escapeTag value

/-- What `strconv` knows of characters and floats: which runes are printable, and texts of floats
that end at the next separator and are no Booleans. -/
structure Formats where
  isPrint : ℕ → Bool
  float : Float64 → Text
  plain : ∀ x, ∀ b ∈ float x, b ∉ [comma,space,newline,mark]
  number : ∀ x, float x ≠ bytes "true" ∧ float x ≠ bytes "false"

section Numbers

def formatNat (n : ℕ) : Text := (Nat.toDigits 10 n).map fun c => UInt8.ofNat c.toNat

/-- `strconv.FormatInt` in base ten. -/
def formatInt (n : ℤ) : Text := if n < 0 then minus::formatNat n.natAbs else formatNat n.natAbs

/-- `UnixNano`, in 64 bits, of a time since the zero time. -/
def epoch : ℤ := 62135596800*10^9

def unixNano (timestamp : ℤ) : ℤ := (timestamp-epoch).bmod (2^64)

def parseNat (text : Text) : Option ℕ :=
  if text ≠ [] ∧ text.all (fun b => 48 ≤ b.toNat ∧ b.toNat ≤ 57) then
    some (Nat.ofDigitChars 10 (text.map fun b => Char.ofNat b.toNat) 0)
  else none

def parseInt : Text → Option ℤ
  | [] => none
  | b::text =>
    if b = minus then (parseNat text).map fun n : ℕ => -(n : ℤ)
    else (parseNat (b::text)).map fun n : ℕ => (n : ℤ)

end Numbers

section Encode

variable (f : Formats)

def order (text : Text) : List ℕ := text.map UInt8.toNat

def sortedKeys {V : Type} (values : Table Text V) : List Text :=
  values.keys.insertionSort fun a b => order a ≤ order b

def sortedEntries {V : Type} (values : Table Text V) : List (Text × V) :=
  (sortedKeys values).filterMap fun key => (values.lookup key).map fun value => (key,value)

def fieldText (field : Field) : Text :=
  match field.float, field.boolean, field.string with
  | some x, _, _ => f.float x
  | none, some b, _ => bytes (if b then "true" else "false")
  | none, none, some s => quote f.isPrint s
  | none, none, none => []

def encodeTags (tags : List (Text × Text)) : Text :=
  tags.flatMap fun e => comma::escapeTag e.1++equals::escapeTag e.2

def encodeFields : List (Text × Field) → Text
  | [] => []
  | [e] => escapeFieldKey e.1++equals::fieldText f e.2
  | e::e'::es => escapeFieldKey e.1++equals::fieldText f e.2++comma::encodeFields (e'::es)

def encodePoint (p : Point) : Text :=
  escapeMeasurement p.measurement++encodeTags (sortedEntries p.tags)++
    space::encodeFields f (sortedEntries p.fields)++
    space::formatInt (unixNano p.timestamp)++[newline]

def encodePoints : List Point → Except PointError Text
  | [] => .ok []
  | p::points =>
    match validatePoint p with
    | some err => .error err
    | none =>
      match encodePoints points with
      | .error err => .error err
      | .ok text => .ok (encodePoint f p++text)

/-- The body that `Write` of the client sends; nothing is sent for an empty batch. -/
def influxBody (points : List Point) : Except PointError (Option Text) :=
  if points = [] then .ok none
  else
    match encodePoints f points with
    | .error err => .error err
    | .ok text => .ok (some text)

end Encode

section Decode

/-- A field value; numbers are left as their texts. -/
inductive Value
  | number (text : Text)
  | boolean (b : Bool)
  | string (s : Text)
  deriving DecidableEq

structure Line where
  measurement : Text
  tags : List (Text × Text)
  fields : List (Text × Value)
  timestamp : ℤ
  deriving DecidableEq

def readMeasurement (text : Text) : Text × Text :=
  tokens.read (fun b => b ∈ [comma,space,newline]) text

/-- A tag key, a tag value or a field key. -/
def readToken (text : Text) : Text × Text :=
  tokens.read (fun b => b ∈ [comma,space,equals,newline]) text

/-- The tags up to the space after them; the number bounds how many there are. -/
def readTags : ℕ → Text → Option (List (Text × Text) × Text)
  | 0, _ | _, [] => none
  | n+1, b::text =>
    if b = space then some ([],text)
    else if b = comma then
      match readToken text with
      | (_,[]) => none
      | (key,c::text) =>
        if c = equals then
          (readTags n (readToken text).2).map fun out => ((key,(readToken text).1)::out.1,out.2)
        else none
    else none

def wordValue (word : Text) : Value :=
  if word = bytes "true" then .boolean true
  else if word = bytes "false" then .boolean false
  else .number word

def readValue : Text → Option (Value × Text)
  | [] => none
  | b::text =>
    if b = mark then (readString text).map fun out => (.string out.1,out.2)
    else
      let word := (b::text).takeWhile fun b => b ∉ [comma,space,newline]
      some (wordValue word,(b::text).drop word.length)

/-- The fields up to the space after them. -/
def readFields : ℕ → Text → Option (List (Text × Value) × Text)
  | 0, _ => none
  | n+1, text =>
    match readToken text with
    | (_,[]) => none
    | (key,c::text) =>
      if c = equals then
        match readValue text with
        | none | some (_,[]) => none
        | some (value,d::text) =>
          if d = space then some ([(key,value)],text)
          else if d = comma then (readFields n text).map fun out => ((key,value)::out.1,out.2)
          else none
      else none

/-- The number up to the end of the line. -/
def readTimestamp (text : Text) : Option (ℤ × Text) :=
  let word := text.takeWhile fun b => b ≠ newline
  (parseInt word).map fun n => (n,text.drop (word.length+1))

def readLine (text : Text) : Option (Line × Text) :=
  let (measurement,text) := readMeasurement text
  match readTags text.length text with
  | none => none
  | some (tags,text) =>
    match readFields text.length text with
    | none => none
    | some (fields,text) =>
      match readTimestamp text with
      | none => none
      | some (timestamp,text) => some (⟨measurement,tags,fields,timestamp⟩,text)

def readLines : ℕ → Text → Option (List Line)
  | _, [] => some []
  | 0, _::_ => none
  | n+1, b::text =>
    match readLine (b::text) with
    | none => none
    | some (line,text) => (readLines n text).map (line::·)

def decode (text : Text) : Option (List Line) := readLines text.length text

end Decode

section Timestamps

theorem digit_toNat {n : ℕ} {c : Char} (hc : c ∈ Nat.toDigits 10 n) :
    (UInt8.ofNat c.toNat).toNat = c.toNat ∧ 48 ≤ c.toNat ∧ c.toNat ≤ 57 := by
  have hdigit := Nat.isDigit_of_mem_toDigits (by decide) (by decide) hc
  simp only [Char.isDigit,Bool.and_eq_true,decide_eq_true_eq] at hdigit
  have hlow : 48 ≤ c.toNat := hdigit.1
  have hhigh : c.toNat ≤ 57 := hdigit.2
  rw [UInt8.toNat_ofNat']
  omega

theorem formatNat_digits (n : ℕ) : ∀ b ∈ formatNat n, 48 ≤ b.toNat ∧ b.toNat ≤ 57 := by
  intro b hb
  obtain ⟨c,hc,rfl⟩ := List.mem_map.mp hb
  rw [(digit_toNat hc).1]
  exact (digit_toNat hc).2

theorem formatNat_ne_nil (n : ℕ) : formatNat n ≠ [] := by
  simp [formatNat]

theorem parseNat_formatNat (n : ℕ) : parseNat (formatNat n) = some n := by
  have hall : (formatNat n).all (fun b => 48 ≤ b.toNat ∧ b.toNat ≤ 57) = true := by
    rw [List.all_eq_true]
    exact fun b hb => decide_eq_true (formatNat_digits n b hb)
  have hchars : (formatNat n).map (fun b => Char.ofNat b.toNat) = Nat.toDigits 10 n := by
    rw [formatNat,List.map_map]
    refine (List.map_congr_left fun c hc => ?_).trans (List.map_id _)
    rw [Function.comp_apply,(digit_toNat hc).1,Char.ofNat_toNat,id]
  rw [parseNat,if_pos ⟨formatNat_ne_nil n,hall⟩,hchars,Nat.ofDigitChars_ten_toDigits]

theorem parseInt_formatInt (n : ℤ) : parseInt (formatInt n) = some n := by
  unfold formatInt
  split_ifs with h
  · simp only [parseInt,if_true,parseNat_formatNat,Option.map_some]
    congr 1
    omega
  · cases htext : formatNat n.natAbs with
    | nil => exact absurd htext (formatNat_ne_nil _)
    | cons b text =>
      have hb : b ≠ minus := by
        rintro rfl
        have hdigit := formatNat_digits n.natAbs minus (by simp [htext])
        exact absurd hdigit.1 (by decide)
      rw [parseInt,if_neg hb,← htext,parseNat_formatNat,Option.map_some]
      congr 1
      omega

theorem formatInt_line (n : ℤ) : ∀ b ∈ formatInt n, b ≠ newline := by
  have hdigits : ∀ b ∈ formatNat n.natAbs, b ≠ newline := by
    rintro b hb rfl
    exact absurd (formatNat_digits _ _ hb).1 (by decide)
  unfold formatInt
  split_ifs
  · intro b hb
    rcases List.mem_cons.mp hb with rfl | hb
    · decide
    · exact hdigits b hb
  · exact hdigits

theorem readTimestamp_format (n : ℤ) (text : Text) :
    readTimestamp (formatInt n++newline::text) = some (n,text) := by
  have hword : (formatInt n++newline::text).takeWhile (fun b => b ≠ newline) = formatInt n := by
    rw [List.takeWhile_append_of_pos (by simpa using formatInt_line n)]
    simp
  rw [readTimestamp,hword]
  simp [parseInt_formatInt]

/-- The timestamp is kept if its distance to the epoch has 64 bits. -/
theorem unixNano_eq_iff (timestamp : ℤ) : unixNano timestamp = timestamp-epoch ↔
    -2^63 ≤ timestamp-epoch ∧ timestamp-epoch < 2^63 := by
  unfold unixNano
  constructor
  · intro h
    rw [← h]
    have hlow := Int.le_bmod (x := timestamp-epoch) (m := 2^64) (by decide)
    have hhigh := Int.bmod_lt (x := timestamp-epoch) (m := 2^64) (by decide)
    norm_num at hlow hhigh ⊢
    omega
  · rintro ⟨hlow,hhigh⟩
    exact Int.bmod_eq_of_le (by norm_num at hlow ⊢; omega) (by norm_num at hhigh ⊢; omega)

end Timestamps

section Tokens

/-- A tag key, a tag value or a field key that is read back. -/
def Keeps (t : Text) : Prop := newline ∉ t ∧ t.getLast? ≠ some backslash

/-- A measurement that is read back: the backslash counts before the equals sign, which is not
escaped. -/
def KeepsName (t : Text) : Prop :=
  newline ∉ t ∧ t.getLast? ≠ some backslash ∧ ¬ [backslash,equals] <:+: t

instance (t : Text) : Decidable (Keeps t) := inferInstanceAs (Decidable (_ ∧ _))
instance (t : Text) : Decidable (KeepsName t) := inferInstanceAs (Decidable (_ ∧ _))

theorem tag_agree : tokens.Agree (fun b => b ∈ [comma,space,equals])
    (fun b => b ∈ [comma,space,equals,newline]) newline where
  esc := by decide
  line := by decide
  lineEsc := by decide
  counts _ h := h
  stops b h := by simpa [or_assoc] using h
  ends := by decide

theorem name_agree : tokens.Agree (fun b => b ∈ [comma,space]) (fun b => b ∈ [comma,space,newline])
    newline where
  esc := by decide
  line := by decide
  lineEsc := by decide
  counts b h := by
    simp only [List.mem_cons,List.not_mem_nil,or_false,decide_eq_true_eq] at h
    rcases h with rfl | rfl <;> decide
  stops b h := by simpa [or_assoc] using h
  ends := by decide

theorem order_lt {c : UInt8} (hc : tokens.special c = true) (u v w : Text) :
    order (u++c::w) < order (u++backslash::v) := by
  have hlt : c.toNat < backslash.toNat := by
    simp only [tokens,List.mem_cons,List.not_mem_nil,or_false,decide_eq_true_eq] at hc
    rcases hc with rfl | rfl | rfl <;> decide
  induction u with
  | nil => exact List.Lex.rel hlt
  | cons a u ih => exact List.Lex.cons ih

/-- What the reader makes of a token that was written before a separator: the token itself where it
is kept, or else a broken line or a smaller token. -/
theorem written {escaped stop : UInt8 → Bool} (hagree : tokens.Agree escaped stop newline) {t : Text}
    {K : Prop} (hkept : K ↔ newline ∉ t ∧ tokens.kept escaped t = true) {s : UInt8}
    (hs : escaped s = true) (hstop : stop s = true) (text : Text) :
    let out := tokens.read stop (tokens.write escaped t++s::text)
    (K ∧ out = (t,s::text)) ∨
      (¬ K ∧ ((∃ token rest, out = (token,newline::rest)) ∨ order out.1 < order t)) := by
  by_cases hline : newline ∈ t
  · exact .inr ⟨fun h => (hkept.mp h).1 hline,.inl (hagree.read_broken hline _)⟩
  rcases hagree.read_write hline (hagree.counts s hs) hstop text with
    ⟨hk,hread⟩ | ⟨hk,u,c,v,token,rfl,hc,hread⟩
  · exact .inl ⟨hkept.mpr ⟨hline,hk⟩,hread⟩
  · refine .inr ⟨fun h => by simpa [hk] using (hkept.mp h).2,.inr ?_⟩
    simp only [hread]
    exact order_lt hc u v token

theorem token_written (t : Text) {s : UInt8} (hs : s ∈ [comma,space,equals]) (text : Text) :
    (Keeps t ∧ readToken (escapeTag t++s::text) = (t,s::text)) ∨
    (¬ Keeps t ∧ ((∃ token rest, readToken (escapeTag t++s::text) = (token,newline::rest)) ∨
      order (readToken (escapeTag t++s::text)).1 < order t)) := by
  refine written tag_agree ?_ (decide_eq_true hs) ?_ text
  · rw [Alphabet.kept_iff]
    refine and_congr_right' ⟨fun h => ⟨h,fun c hc hesc => ?_⟩,fun h => h.1⟩
    exact absurd hc (by simpa [tokens] using hesc)
  · simp only [List.mem_cons,List.not_mem_nil,or_false,decide_eq_true_eq] at hs ⊢
    tauto

theorem readToken_kept {t : Text} (h : Keeps t) {s : UInt8} (hs : s ∈ [comma,space,equals])
    (text : Text) : readToken (escapeTag t++s::text) = (t,s::text) :=
  ((token_written t hs text).resolve_right fun hbad => hbad.1 h).2

theorem name_written (t : Text) {s : UInt8} (hs : s ∈ [comma,space]) (text : Text) :
    (KeepsName t ∧ readMeasurement (escapeMeasurement t++s::text) = (t,s::text)) ∨
    (¬ KeepsName t ∧
      ((∃ token rest, readMeasurement (escapeMeasurement t++s::text) = (token,newline::rest)) ∨
        (readMeasurement (escapeMeasurement t++s::text)).1 ≠ t)) := by
  refine (written name_agree ?_ (decide_eq_true hs) ?_ text).imp_right
    (And.imp_right (Or.imp_right fun hlt heq => hlt.ne (congrArg order heq)))
  · rw [Alphabet.kept_iff]
    refine and_congr_right' (and_congr_right' ⟨fun h c hc hesc => ?_,fun h => ?_⟩)
    · obtain rfl : c = equals := by
        simp only [tokens,List.mem_cons,List.not_mem_nil,or_false,decide_eq_true_eq] at hc
        simp only [List.mem_cons,List.not_mem_nil,or_false,decide_eq_false_iff_not] at hesc
        tauto
      exact h
    · exact h equals (by decide) (by decide)
  · simp only [List.mem_cons,List.not_mem_nil,or_false,decide_eq_true_eq] at hs ⊢
    tauto

end Tokens

end Storage
end AquaOS
