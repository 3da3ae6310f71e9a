import AquaOS.LineProtocol

/-! Batches in the line protocol. What the decoder makes of the text of a batch: the points are read
back exactly if their texts are kept and their timestamps have 64 bits. -/
namespace AquaOS
namespace Storage

open Domain Escaped Quoted

section Entries

variable {V : Type}

def pairs (values : Table Text V) : List (Text × V) := values.entries.map fun e => (e.1,e.2)

theorem order_injective : Function.Injective order :=
  List.map_injective_iff.mpr fun _ _ h => UInt8.toNat_inj.mp h

theorem sortedEntries_keys (values : Table Text V) :
    (sortedEntries values).map Prod.fst = sortedKeys values := by
  have hkeys : ∀ key ∈ sortedKeys values, ∃ value, values.lookup key = some value := by
    intro key hkey
    have hmem : key ∈ values := (List.mem_insertionSort _).mp hkey
    exact Option.isSome_iff_exists.mp (AList.lookup_isSome.mpr hmem)
  unfold sortedEntries
  generalize sortedKeys values = keys at hkeys ⊢
  induction keys with
  | nil => rfl
  | cons key keys ih =>
    obtain ⟨value,hvalue⟩ := hkeys key (by simp)
    simp [hvalue,ih fun key hkey => hkeys key (by simp [hkey])]

theorem sortedEntries_sorted (values : Table Text V) :
    (sortedEntries values).Pairwise fun e e' => order e.1 < order e'.1 := by
  have hkeys : ((sortedEntries values).map Prod.fst).Pairwise fun a b => order a < order b := by
    rw [sortedEntries_keys]
    exact insertionSort_strict order ((List.nodup_map_iff order_injective).mpr values.keys_nodup)
  rwa [List.pairwise_map] at hkeys

theorem sortedEntries_perm (values : Table Text V) :
    (sortedEntries values).Perm (pairs values) := by
  refine ((List.perm_insertionSort _ _).filterMap _).trans (List.Perm.of_eq ?_)
  rw [AList.keys,List.keys,List.filterMap_map,pairs,← List.filterMap_eq_map]
  refine List.filterMap_congr fun e he => ?_
  have hlookup : values.lookup e.1 = some e.2 := AList.mem_lookup_iff.mpr he
  simp [hlookup]

end Entries

section Sections

variable {V : Type} {e : Text × V} {es : List (Text × V)} {tags : List (Text × Text)} {n : ℕ}

theorem head_mem {es' : List (Text × V)} (h : (e::es).Perm es') : e ∈ es' :=
  h.subset (by simp)

theorem not_before {e' : Text × V} (hsorted : (e::es).Pairwise fun e e' => order e.1 < order e'.1)
    (hlt : order e'.1 < order e.1) : e' ∉ e::es := by
  intro hmem
  rcases List.mem_cons.mp hmem with rfl | hmem
  · exact absurd hlt (lt_irrefl _)
  · exact absurd (hlt.trans (List.rel_of_pairwise_cons hsorted hmem)) (lt_irrefl _)

theorem value_unique {v : V} (hsorted : (e::es).Pairwise fun e e' => order e.1 < order e'.1)
    (h : (e.1,v) ∈ e::es) : v = e.2 := by
  rcases List.mem_cons.mp h with heq | hmem
  · exact congrArg Prod.snd heq
  · exact absurd (List.rel_of_pairwise_cons hsorted hmem) (lt_irrefl _)

theorem mem_separators {s : UInt8} (hs : s ∈ [comma,space]) : s ∈ [comma,space,equals] :=
  (by decide : [comma,space] ⊆ [comma,space,equals]) hs

theorem encodeTags_next (tags : List (Text × Text)) (text : Text) :
    ∃ s rest, s ∈ [comma,space] ∧ encodeTags tags++space::text = s::rest := by
  cases tags with
  | nil => exact ⟨space,text,by decide,rfl⟩
  | cons e tags => exact ⟨comma,_,by decide,rfl⟩

theorem encodeTags_cons (e : Text × Text) (tags : List (Text × Text)) (text : Text) :
    encodeTags (e::tags)++text =
      comma::(escapeTag e.1++equals::(escapeTag e.2++(encodeTags tags++text))) := by
  simp [encodeTags]

theorem readTags_line (n : ℕ) (text : Text) : readTags n (newline::text) = none := by
  cases n with
  | zero => rfl
  | succ n => simp [readTags,newline,space,comma]

theorem readTags_encode (h : ∀ e ∈ tags, Keeps e.1 ∧ Keeps e.2) (hn : tags.length < n)
    (text : Text) : readTags n (encodeTags tags++space::text) = some (tags,text) := by
  induction tags generalizing n with
  | nil =>
    obtain ⟨n,rfl⟩ := Nat.exists_eq_add_one.mpr hn
    simp [readTags,encodeTags]
  | cons e tags ih =>
    obtain ⟨n,rfl⟩ := Nat.exists_eq_add_one.mpr ((Nat.zero_le _).trans_lt hn)
    obtain ⟨hkey,hvalue⟩ := h e (by simp)
    obtain ⟨s,rest,hs,hnext⟩ := encodeTags_next tags text
    have hrest := ih (fun e' he' => h e' (by simp [he'])) (Nat.lt_of_succ_lt_succ hn)
    have hreadKey := readToken_kept (s := equals) hkey (by decide) (escapeTag e.2++s::rest)
    have hreadValue := readToken_kept hvalue (mem_separators hs) rest
    rw [encodeTags_cons,hnext]
    rw [hnext] at hrest
    simp [readTags,hreadKey,hreadValue,hrest,comma,space]

theorem readTags_keeps
    (hsorted : tags.Pairwise fun e e' => order e.1 < order e'.1) {text rest : Text}
    {tags' : List (Text × Text)} (h : readTags n (encodeTags tags++space::text) = some (tags',rest))
    (hperm : tags'.Perm tags) : ∀ e ∈ tags, Keeps e.1 ∧ Keeps e.2 := by
  induction tags generalizing n tags' with
  | nil => simp
  | cons e tags ih =>
    cases n with
    | zero => cases h
    | succ n =>
      obtain ⟨s,next,hs,hnext⟩ := encodeTags_next tags text
      rw [encodeTags_cons,hnext] at h
      simp only [readTags,show comma ≠ space by decide,if_false,if_true] at h
      rcases token_written (s := equals) e.1 (by decide)
        (escapeTag e.2++s::next) with ⟨hkey,hread⟩ | ⟨_,⟨token,line,hread⟩ | hlt⟩
      · rw [hread] at h
        simp only [if_true,Option.map_eq_some_iff] at h
        obtain ⟨⟨tags',rest⟩,hrest,heq⟩ := h
        obtain ⟨rfl,rfl⟩ := Prod.mk.inj heq
        rcases token_written e.2 (mem_separators hs) next with
          ⟨hvalue,hread'⟩ | ⟨_,⟨token,line,hread'⟩ | hlt⟩
        · rw [hread'] at hrest hperm
          rw [← hnext] at hrest
          intro e' he'
          rcases List.mem_cons.mp he' with rfl | he'
          · exact ⟨hkey,hvalue⟩
          · exact ih hsorted.of_cons hrest ((List.perm_cons _).mp hperm) e' he'
        · rw [hread',readTags_line] at hrest
          cases hrest
        · have hvalue := value_unique hsorted (head_mem hperm)
          rw [hvalue] at hlt
          exact absurd hlt (lt_irrefl _)
      · rw [hread] at h
        simp [newline,equals] at h
      · split at h
        · cases h
        · rename_i key c after hread
          split_ifs at h
          obtain ⟨⟨tags',rest⟩,_,heq⟩ := Option.map_eq_some_iff.mp h
          obtain ⟨rfl,rfl⟩ := Prod.mk.inj heq
          rw [hread] at hlt
          exact absurd (head_mem hperm) (not_before hsorted hlt)

end Sections

section Fields

variable (f : Formats)

def fieldValue (field : Field) : Value :=
  match field.float, field.boolean, field.string with
  | some x, _, _ => .number (f.float x)
  | none, some b, _ => .boolean b
  | none, none, some s => .string s
  | none, none, none => .number []

def KeepsField (field : Field) : Prop := field.string.all (printable f.isPrint) = true

instance (field : Field) : Decidable (KeepsField f field) := inferInstanceAs (Decidable (_ = _))

def fieldPairs (fields : List (Text × Field)) : List (Text × Value) :=
  fields.map fun e => (e.1,fieldValue f e.2)

variable {f} {s : UInt8} {fields : List (Text × Field)} {text rest : Text}

theorem readValue_word {word : Text} (h : ∀ b ∈ word, b ∉ [comma,space,newline,mark])
    (hs : s ∈ [comma,space]) (text : Text) :
    readValue (word++s::text) = some (wordValue word,s::text) := by
  have hword : (word++s::text).takeWhile (fun b => b ∉ [comma,space,newline]) = word := by
    rw [List.takeWhile_append_of_pos]
    · rw [List.takeWhile_cons_of_neg (by simp at hs ⊢; tauto),List.append_nil]
    · intro b hb
      have := h b hb
      simp only [List.mem_cons,List.not_mem_nil,or_false,decide_eq_true_eq] at this ⊢
      tauto
  cases htext : word++s::text with
  | nil => simp at htext
  | cons b rest =>
    have hb : b ≠ mark := by
      rintro rfl
      cases word with
      | nil =>
        obtain rfl := (List.cons.inj htext).1
        exact absurd hs (by decide)
      | cons c word =>
        obtain rfl := (List.cons.inj htext).1
        exact h mark (by simp) (by decide)
    rw [readValue,if_neg hb,← htext,hword]
    simp

/-- A value is read to its end, and read back as it was exactly if it is kept. -/
theorem readValue_text {field : Field} (hcount : field.count = 1) (hs : s ∈ [comma,space])
    (text : Text) : ∃ value, readValue (fieldText f field++s::text) = some (value,s::text) ∧
      (value = fieldValue f field ↔ KeepsField f field) := by
  rcases (Field.count_eq_one_iff field).mp hcount with ⟨x,rfl⟩ | ⟨b,rfl⟩ | ⟨string,rfl⟩
  · refine ⟨_,readValue_word (f.plain x) hs text,iff_of_true ?_ rfl⟩
    simp [wordValue,f.number x,fieldValue,floatField]
  · have hplain : ∀ c ∈ bytes (if b then "true" else "false"), c ∉ [comma,space,newline,mark] := by
      cases b <;> decide +kernel
    refine ⟨_,readValue_word hplain hs text,iff_of_true ?_ rfl⟩
    cases b <;> rfl
  · obtain ⟨read,hread,hiff⟩ := readString_quote f.isPrint string (s::text)
    refine ⟨.string read,?_,?_⟩
    · simp [fieldText,stringField,quote,readValue,hread]
    · simp [fieldValue,stringField,KeepsField,hiff]

theorem encodeFields_next (e : Text × Field) (fields : List (Text × Field)) (text : Text) :
    ∃ s rest, s ∈ [comma,space] ∧
      encodeFields f (e::fields)++space::text =
        escapeTag e.1++equals::(fieldText f e.2++s::rest) ∧
      ((fields = [] ∧ s = space ∧ rest = text) ∨
        (fields ≠ [] ∧ s = comma ∧ rest = encodeFields f fields++space::text)) := by
  cases fields with
  | nil => exact ⟨space,text,by decide,by simp [encodeFields,escapeFieldKey],.inl ⟨rfl,rfl,rfl⟩⟩
  | cons e' fields =>
    exact ⟨comma,_,by decide,by simp [encodeFields,escapeFieldKey],.inr ⟨by simp,rfl,rfl⟩⟩

variable {n : ℕ}

theorem readFields_encode (hne : fields ≠ [])
    (h : ∀ e ∈ fields, e.2.count = 1 ∧ Keeps e.1 ∧ KeepsField f e.2)
    (hn : fields.length ≤ n) (text : Text) :
    readFields n (encodeFields f fields++space::text) = some (fieldPairs f fields,text) := by
  induction fields generalizing n with
  | nil => exact absurd rfl hne
  | cons e fields ih =>
    obtain ⟨n,rfl⟩ := Nat.exists_eq_add_one.mpr ((Nat.zero_lt_succ _).trans_le hn)
    obtain ⟨hcount,hkey,hvalue⟩ := h e (by simp)
    obtain ⟨s,rest,hs,htext,hnext⟩ := encodeFields_next (f := f) e fields text
    obtain ⟨value,hread,hiff⟩ := readValue_text (f := f) hcount hs rest
    obtain rfl := hiff.mpr hvalue
    have hreadKey := readToken_kept (s := equals) hkey (by decide) (fieldText f e.2++s::rest)
    rw [htext]
    rcases hnext with ⟨rfl,rfl,rfl⟩ | ⟨hmore,rfl,rfl⟩
    · simp [readFields,hreadKey,hread,fieldPairs]
    · have hrest := ih hmore (fun e' he' => h e' (by simp [he'])) (Nat.le_of_succ_le_succ hn)
      simp [readFields,hreadKey,hread,hrest,fieldPairs,show comma ≠ space by decide]

theorem readFields_head {fields : List (Text × Value)}
    (h : readFields n text = some (fields,rest)) :
    ∃ value fields', fields = ((readToken text).1,value)::fields' := by
  cases n with
  | zero => cases h
  | succ n =>
    rw [readFields] at h
    split at h
    · cases h
    · rename_i hread
      rw [hread]
      split_ifs at h
      split at h
      · cases h
      · cases h
      · split_ifs at h
        · obtain ⟨rfl,rfl⟩ := Prod.mk.inj (Option.some.inj h)
          exact ⟨_,_,rfl⟩
        · obtain ⟨out,_,heq⟩ := Option.map_eq_some_iff.mp h
          obtain ⟨rfl,rfl⟩ := Prod.mk.inj heq
          exact ⟨_,_,rfl⟩

theorem readFields_keeps (hsorted : fields.Pairwise fun e e' => order e.1 < order e'.1)
    (hcount : ∀ e ∈ fields, e.2.count = 1) {fields' : List (Text × Value)}
    (h : readFields n (encodeFields f fields++space::text) = some (fields',rest))
    (hperm : fields'.Perm (fieldPairs f fields)) : ∀ e ∈ fields, Keeps e.1 ∧ KeepsField f e.2 := by
  induction fields generalizing n fields' with
  | nil => simp
  | cons e fields ih =>
    have hpairs : (fieldPairs f (e::fields)).Pairwise fun e e' => order e.1 < order e'.1 := by
      rw [fieldPairs,List.pairwise_map]
      exact hsorted
    obtain ⟨value',fields'',hhead⟩ := readFields_head h
    have hmem := head_mem (hhead ▸ hperm)
    obtain ⟨s,next,hs,htext,hnext⟩ := encodeFields_next (f := f) e fields text
    obtain ⟨value,hvalue,hiff⟩ := readValue_text (f := f) (hcount e (by simp)) hs next
    rw [htext] at h hmem
    cases n with
    | zero => cases h
    | succ n =>
      rcases token_written (s := equals) e.1 (by decide)
        (fieldText f e.2++s::next) with ⟨hkey,hread⟩ | ⟨_,⟨token,line,hread⟩ | hlt⟩
      · rw [readFields,hread] at h
        simp only [if_true,hvalue] at h
        have hkept : (e.1,value) ∈ fieldPairs f (e::fields) → KeepsField f e.2 :=
          fun hmem => hiff.mp (value_unique hpairs hmem)
        rcases hnext with ⟨rfl,rfl,rfl⟩ | ⟨hmore,rfl,rfl⟩
        · simp only [if_true,Option.some.injEq,Prod.mk.injEq] at h
          obtain ⟨rfl,rfl⟩ := h
          intro e' he'
          obtain rfl := List.mem_singleton.mp he'
          exact ⟨hkey,hkept (head_mem hperm)⟩
        · simp only [show comma ≠ space by decide,if_false,if_true,Option.map_eq_some_iff] at h
          obtain ⟨⟨fields',rest⟩,hrest,heq⟩ := h
          obtain ⟨rfl,rfl⟩ := Prod.mk.inj heq
          have hvalue := value_unique hpairs (head_mem hperm)
          subst hvalue
          intro e' he'
          rcases List.mem_cons.mp he' with rfl | he'
          · exact ⟨hkey,hkept (head_mem hperm)⟩
          · exact ih hsorted.of_cons (fun e he => hcount e (by simp [he])) hrest
              ((List.perm_cons _).mp hperm) e' he'
      · rw [readFields,hread] at h
        simp [newline,equals] at h
      · exact absurd hmem (not_before hpairs hlt)

end Fields

section Lines

variable (f : Formats)

/-- A point all of whose texts are kept, at a time whose distance to the epoch has 64 bits. -/
structure Point.Plain (p : Point) : Prop where
  measurement : KeepsName p.measurement
  tags : ∀ e ∈ pairs p.tags, Keeps e.1 ∧ Keeps e.2
  fields : ∀ e ∈ pairs p.fields, Keeps e.1 ∧ KeepsField f e.2
  timestamp : -2^63 ≤ p.timestamp-epoch ∧ p.timestamp-epoch < 2^63

theorem Point.plain_iff (p : Point) : p.Plain f ↔
    KeepsName p.measurement ∧ (∀ e ∈ pairs p.tags, Keeps e.1 ∧ Keeps e.2) ∧
      (∀ e ∈ pairs p.fields, Keeps e.1 ∧ KeepsField f e.2) ∧
      -2^63 ≤ p.timestamp-epoch ∧ p.timestamp-epoch < 2^63 :=
  ⟨fun h => ⟨h.measurement,h.tags,h.fields,h.timestamp⟩,fun h => ⟨h.1,h.2.1,h.2.2.1,h.2.2.2⟩⟩

instance (p : Point) : Decidable (p.Plain f) := decidable_of_iff _ (p.plain_iff f).symm

/-- A line that says what the point does: its tags and fields are the entries of the maps, each
once. -/
structure Matches (line : Line) (p : Point) : Prop where
  measurement : line.measurement = p.measurement
  tags : line.tags.Perm (pairs p.tags)
  fields : line.fields.Perm (fieldPairs f (pairs p.fields))
  timestamp : line.timestamp = p.timestamp-epoch

def Point.line (p : Point) : Line where
  measurement := p.measurement
  tags := sortedEntries p.tags
  fields := fieldPairs f (sortedEntries p.fields)
  timestamp := p.timestamp-epoch

variable {f}

theorem matches_line (p : Point) : Matches f (p.line f) p where
  measurement := rfl
  tags := sortedEntries_perm _
  fields := (sortedEntries_perm _).map _
  timestamp := rfl

theorem length_encodeTags (tags : List (Text × Text)) : tags.length ≤ (encodeTags tags).length := by
  induction tags with
  | nil => exact Nat.le_refl 0
  | cons e tags ih =>
    simp only [encodeTags,List.flatMap_cons,List.length_append,List.length_cons] at ih ⊢
    omega

theorem length_encodeFields (fields : List (Text × Field)) :
    fields.length ≤ (encodeFields f fields).length := by
  fun_induction encodeFields f fields with
  | case1 => exact Nat.le_refl 0
  | case2 e => simp; omega
  | case3 e e' fields ih =>
    simp only [List.length_append,List.length_cons] at ih ⊢
    omega

theorem encodePoint_append (p : Point) (text : Text) : encodePoint f p++text =
    escapeMeasurement p.measurement++(encodeTags (sortedEntries p.tags)++space::
      (encodeFields f (sortedEntries p.fields)++space::
        (formatInt (unixNano p.timestamp)++newline::text))) := by
  simp [encodePoint]

variable {p : Point} {text rest : Text} {line : Line}

theorem Point.Valid.counts (h : p.Valid) : ∀ e ∈ sortedEntries p.fields, e.2.count = 1 := by
  intro e he
  obtain ⟨e',he',rfl⟩ := List.mem_map.mp ((sortedEntries_perm p.fields).mem_iff.mp he)
  exact (h.fields e' he').2.2

theorem Point.Valid.sortedEntries_ne_nil (h : p.Valid) : sortedEntries p.fields ≠ [] := by
  intro hnil
  have hperm := sortedEntries_perm p.fields
  rw [hnil,List.nil_perm,pairs,List.map_eq_nil_iff] at hperm
  exact h.nonempty hperm

theorem readLine_some (h : readLine text = some (line,rest)) :
    ∃ text₁ text₂, line.measurement = (readMeasurement text).1 ∧
      readTags (readMeasurement text).2.length (readMeasurement text).2 = some (line.tags,text₁) ∧
      readFields text₁.length text₁ = some (line.fields,text₂) ∧
      readTimestamp text₂ = some (line.timestamp,rest) := by
  simp only [readLine] at h
  split at h
  · cases h
  · rename_i htags
    split at h
    · cases h
    · rename_i hfields
      split at h
      · cases h
      · rename_i htimestamp
        obtain ⟨rfl,rfl⟩ := Prod.mk.inj (Option.some.inj h)
        exact ⟨_,_,rfl,htags,hfields,htimestamp⟩

theorem readLine_encode (hvalid : p.Valid) (h : p.Plain f) (text : Text) :
    readLine (encodePoint f p++text) = some (p.line f,text) := by
  have htags : ∀ e ∈ sortedEntries p.tags, Keeps e.1 ∧ Keeps e.2 :=
    fun e he => h.tags e ((sortedEntries_perm _).mem_iff.mp he)
  have hfields : ∀ e ∈ sortedEntries p.fields, e.2.count = 1 ∧ Keeps e.1 ∧ KeepsField f e.2 :=
    fun e he => ⟨hvalid.counts e he,h.fields e ((sortedEntries_perm _).mem_iff.mp he)⟩
  have hlength := length_encodeTags (sortedEntries p.tags)
  have hlength' := length_encodeFields (f := f) (sortedEntries p.fields)
  rw [encodePoint_append]
  generalize hrest : formatInt (unixNano p.timestamp)++newline::text = rest
  obtain ⟨s,next,hs,hnext⟩ := encodeTags_next (sortedEntries p.tags)
    (encodeFields f (sortedEntries p.fields)++space::rest)
  have hname := ((name_written p.measurement hs next).resolve_right
    fun hbad => hbad.1 h.measurement).2
  rw [← hnext] at hname
  simp only [readLine,hname]
  rw [readTags_encode htags (by simp; omega)]
  dsimp only
  rw [readFields_encode hvalid.sortedEntries_ne_nil hfields (by simp; omega)]
  dsimp only
  rw [← hrest,readTimestamp_format,(unixNano_eq_iff _).mpr h.timestamp]
  rfl

theorem readLine_plain (hvalid : p.Valid) (h : readLine (encodePoint f p++text) = some (line,rest))
    (hmatches : Matches f line p) : p.Plain f := by
  obtain ⟨text₁,text₂,hmeasurement,htags,hfields,htimestamp⟩ := readLine_some h
  rw [encodePoint_append] at hmeasurement htags
  generalize hrest : formatInt (unixNano p.timestamp)++newline::text = rest' at *
  obtain ⟨s,next,hs,hnext⟩ := encodeTags_next (sortedEntries p.tags)
    (encodeFields f (sortedEntries p.fields)++space::rest')
  rcases name_written p.measurement hs next with
    ⟨hname,hread⟩ | ⟨_,⟨token,broken,hread⟩ | hne⟩
  · rw [← hnext] at hread
    rw [hread] at htags
    have hkeeps := readTags_keeps (sortedEntries_sorted p.tags) htags
      (hmatches.tags.trans (sortedEntries_perm _).symm)
    rw [readTags_encode hkeeps
      (by have := length_encodeTags (sortedEntries p.tags); simp; omega)] at htags
    obtain ⟨_,rfl⟩ := Prod.mk.inj (Option.some.inj htags)
    have hkeepsFields := readFields_keeps (sortedEntries_sorted p.fields) hvalid.counts hfields
      (hmatches.fields.trans ((sortedEntries_perm _).symm.map _))
    rw [readFields_encode hvalid.sortedEntries_ne_nil
      (fun e he => ⟨hvalid.counts e he,hkeepsFields e he⟩)
      (by have := length_encodeFields (f := f) (sortedEntries p.fields); simp; omega)] at hfields
    obtain ⟨_,rfl⟩ := Prod.mk.inj (Option.some.inj hfields)
    rw [← hrest,readTimestamp_format] at htimestamp
    obtain ⟨htime,_⟩ := Prod.mk.inj (Option.some.inj htimestamp)
    exact ⟨hname,fun e he => hkeeps e ((sortedEntries_perm _).mem_iff.mpr he),
      fun e he => hkeepsFields e ((sortedEntries_perm _).mem_iff.mpr he),
      (unixNano_eq_iff _).mp (htime.trans hmatches.timestamp)⟩
  · rw [hnext,hread,readTags_line] at htags
    cases htags
  · rw [hnext] at hmeasurement
    exact absurd (hmeasurement.symm.trans hmatches.measurement) hne

end Lines

section Batches

variable {f : Formats}

variable {points : List Point} {text : Text} {n : ℕ} {lines : List Line}

theorem encodePoints_ok :
    encodePoints f points = .ok text ↔
      (∀ p ∈ points, p.Valid) ∧ points.flatMap (encodePoint f) = text := by
  induction points generalizing text with
  | nil => simp [encodePoints]
  | cons p points ih =>
    rw [encodePoints,List.forall_mem_cons,← validatePoint_eq_none_iff,List.flatMap_cons]
    cases hvalid : validatePoint p with
    | some err => simp
    | none =>
      cases hrest : encodePoints f points with
      | error err =>
        have hinvalid : ¬ ∀ p ∈ points, p.Valid := fun hall => by
          rw [ih.mpr ⟨hall,rfl⟩] at hrest
          cases hrest
        simp [hinvalid]
      | ok rest =>
        obtain ⟨hall,rfl⟩ := ih.mp hrest
        simp only [Except.ok.injEq,true_and]
        exact (and_iff_right hall).symm

theorem influxBody_ok {body : Text} : influxBody f points = .ok (some body) ↔
      points ≠ [] ∧ (∀ p ∈ points, p.Valid) ∧ points.flatMap (encodePoint f) = body := by
  rw [← encodePoints_ok,influxBody]
  split_ifs with hnil
  · simp [hnil]
  · cases encodePoints f points <;> simp [hnil]

theorem encodePoint_ne_nil (p : Point) (text : Text) : encodePoint f p++text ≠ [] := by
  simp [encodePoint]

theorem readLines_succ (n : ℕ) (htext : text ≠ []) :
    readLines (n+1) text = (readLine text).bind fun out =>
      (readLines n out.2).map (out.1::·) := by
  cases text with
  | nil => exact absurd rfl htext
  | cons b text =>
    rw [readLines]
    cases readLine (b::text) <;> rfl

theorem readLines_some (htext : text ≠ [])
    (h : readLines n text = some lines) : ∃ m line rest lines',
      readLine text = some (line,rest) ∧ readLines m rest = some lines' ∧ line::lines' = lines := by
  cases n with
  | zero =>
    cases text with
    | nil => exact absurd rfl htext
    | cons => cases h
  | succ n =>
    rw [readLines_succ n htext] at h
    obtain ⟨⟨line,rest⟩,hline,hrest⟩ := Option.bind_eq_some_iff.mp h
    obtain ⟨lines',hlines,heq⟩ := Option.map_eq_some_iff.mp hrest
    exact ⟨n,line,rest,lines',hline,hlines,heq⟩

theorem readLines_encode (hvalid : ∀ p ∈ points, p.Valid)
    (h : ∀ p ∈ points, p.Plain f) (hn : points.length ≤ n) :
    readLines n (points.flatMap (encodePoint f)) = some (points.map (Point.line f)) := by
  induction points generalizing n with
  | nil => cases n <;> rfl
  | cons p points ih =>
    obtain ⟨n,rfl⟩ := Nat.exists_eq_add_one.mpr ((Nat.zero_lt_succ _).trans_le hn)
    rw [List.forall_mem_cons] at hvalid h
    rw [List.flatMap_cons,readLines_succ n (encodePoint_ne_nil p _),
      readLine_encode hvalid.1 h.1,Option.bind_some,ih hvalid.2 h.2 (Nat.le_of_succ_le_succ hn)]
    rfl

theorem readLines_plain (hvalid : ∀ p ∈ points, p.Valid)
    (h : readLines n (points.flatMap (encodePoint f)) = some lines)
    (hmatches : List.Forall₂ (Matches f) lines points) : ∀ p ∈ points, p.Plain f := by
  induction hmatches generalizing n with
  | nil => simp
  | @cons line p lines points hhead _ ih =>
    rw [List.forall_mem_cons] at hvalid ⊢
    obtain ⟨m,line',rest,lines',hline,hlines,heq⟩ := readLines_some (encodePoint_ne_nil p _) h
    obtain ⟨rfl,rfl⟩ := List.cons.inj heq
    have hplain := readLine_plain hvalid.1 hline hhead
    rw [readLine_encode hvalid.1 hplain] at hline
    obtain ⟨_,rfl⟩ := Prod.mk.inj (Option.some.inj hline)
    exact ⟨hplain,ih hvalid.2 hlines⟩

theorem length_batch (points : List Point) :
    points.length ≤ (points.flatMap (encodePoint f)).length := by
  induction points with
  | nil => exact Nat.le_refl 0
  | cons p points ih =>
    simp only [List.flatMap_cons,encodePoint_append,List.length_append,List.length_cons]
    omega

/-- A batch is read back from its text exactly if its points are plain. -/
theorem batch_decodes_iff {points : List Point} {body : Text}
    (h : influxBody f points = .ok (some body)) :
    (∃ lines, decode body = some lines ∧ List.Forall₂ (Matches f) lines points) ↔
      ∀ p ∈ points, p.Plain f := by
  obtain ⟨_,hvalid,rfl⟩ := influxBody_ok.mp h
  constructor
  · rintro ⟨lines,hlines,hmatches⟩
    exact readLines_plain hvalid hlines hmatches
  · intro hplain
    refine ⟨points.map (Point.line f),readLines_encode hvalid hplain (length_batch points),?_⟩
    rw [List.forall₂_map_left_iff,List.forall₂_same]
    exact fun p _ => matches_line p

end Batches

section Samples

def sampleFloat : Float64 → Text
  | .nan => bytes "NaN"
  | .infinite negative => bytes (if negative then "-Inf" else "+Inf")
  | .finite x => formatInt (x.num*5^x.den.log2)++101::minus::formatNat x.den.log2

theorem sampleFloat_finite (x : ℚ) : ∀ b ∈ sampleFloat (.finite x),
    b = minus ∨ b = 101 ∨ (48 ≤ b.toNat ∧ b.toNat ≤ 57) := by
  intro b hb
  simp only [sampleFloat,formatInt,List.mem_append,List.mem_cons] at hb
  rcases hb with hb | rfl | rfl | hb
  · split_ifs at hb
    · rcases List.mem_cons.mp hb with rfl | hb
      · exact .inl rfl
      · exact .inr (.inr (formatNat_digits _ b hb))
    · exact .inr (.inr (formatNat_digits _ b hb))
  · exact .inr (.inl rfl)
  · exact .inl rfl
  · exact .inr (.inr (formatNat_digits _ b hb))

def asciiFormats : Formats where
  isPrint r := 32 ≤ r ∧ r < 127
  float := sampleFloat
  plain x := by
    cases x with
    | nan => decide +kernel
    | infinite negative => cases negative <;> decide +kernel
    | finite x =>
      intro b hb
      rcases sampleFloat_finite x b hb with rfl | rfl | ⟨hlow,_⟩
      · decide
      · decide
      · intro hmem
        simp only [List.mem_cons,List.not_mem_nil,or_false] at hmem
        rcases hmem with rfl | rfl | rfl | rfl <;> exact absurd hlow (by decide)
  number x := by
    cases x with
    | nan => decide +kernel
    | infinite negative => cases negative <;> decide +kernel
    | finite x =>
      constructor <;> intro heq
      · have hmem : (117 : UInt8) ∈ sampleFloat (.finite x) := heq ▸ (by decide +kernel)
        rcases sampleFloat_finite x 117 hmem with h | h | h <;> revert h <;> decide
      · have hmem : (108 : UInt8) ∈ sampleFloat (.finite x) := heq ▸ (by decide +kernel)
        rcases sampleFloat_finite x 108 hmem with h | h | h <;> revert h <;> decide

def stateText (value : String) : Point where
  measurement := bytes "aquaos_equipment_state_v1"
  tags := (∅ : Table Text Text).insert (bytes "entity_id") (bytes "pump=main, left")
  fields := ((∅ : Table Text Field).insert (bytes "value") (stringField (bytes value))).insert
    (bytes "volume") (floatField (.finite (5/2)))
  timestamp := epoch+10^9

theorem stateText_valid (value : String) : (stateText value).Valid :=
  (validatePoint_eq_none_iff _).mp (by rfl)

theorem stateText_body (values : List String) (h : values ≠ []) :
    influxBody asciiFormats (values.map stateText) =
      .ok (some ((values.map stateText).flatMap (encodePoint asciiFormats))) :=
  influxBody_ok.mpr ⟨by simpa using h,by simp [stateText_valid],rfl⟩

theorem quoted_text_decodes :
    let points := ["\"full\" \\ fast","off"].map stateText
    ∃ body lines, influxBody asciiFormats points = .ok (some body) ∧ decode body = some lines ∧
      List.Forall₂ (Matches asciiFormats) lines points := by
  have hbody := stateText_body ["\"full\" \\ fast","off"] (by simp)
  obtain ⟨lines,hlines⟩ := (batch_decodes_iff hbody).mpr (by decide +kernel)
  exact ⟨_,lines,hbody,hlines⟩

/-- The text comes back with a backslash and an `n` for the line break. -/
theorem line_break_altered :
    let points := ["two\nlines"].map stateText
    ∃ body, influxBody asciiFormats points = .ok (some body) ∧
      (decode body).map (·.map Line.fields) = some [[(bytes "value",.string (bytes "two\\nlines")),
        (bytes "volume",.number (bytes "25e-1"))]] ∧
      ¬ ∃ lines, decode body = some lines ∧ List.Forall₂ (Matches asciiFormats) lines points := by
  refine ⟨_,stateText_body ["two\nlines"] (by simp),by decide +kernel,?_⟩
  rintro ⟨lines,hlines,hmatches⟩
  have hplain := readLines_plain (by simp [stateText_valid]) hlines hmatches
  revert hplain
  decide +kernel

end Samples

end Storage
end AquaOS
