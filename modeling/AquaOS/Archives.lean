import AquaOS.HostMachine

/-! Backup archives: which of them a restoration accepts and what they then protect, what it leaves
on a host with faults, and that it brings back what a backup was made of. -/
namespace AquaOS
namespace Operations

open Domain Program

section Contents

def entryLimit : ℕ := 2*1024*1024

def archived (name : String) : List Entry → Option Bytes
  | [] => none
  | entry::entries =>
    (archived name entries).or (if entry.name = name then entry.content.toOption else none)

/-- What is written for a name: a beginning of the last entry, or nothing where there is none. -/
def held (entries : List Entry) (name : String) : Bytes :=
  ((archived name entries).getD []).take entryLimit

theorem archived_append (name : String) (l l' : List Entry) :
    archived name (l++l') = (archived name l').or (archived name l) := by
  induction l with
  | nil => cases h : archived name l' <;> simp [archived,h]
  | cons entry l ih => rw [List.cons_append,archived,ih,archived,Option.or_assoc]

variable {entries : List Entry}

theorem archived_of_absent {name : String}
    (h : ∀ entry ∈ entries, entry.name ≠ name) : archived name entries = none := by
  induction entries with
  | nil => rfl
  | cons entry entries ih =>
    rw [List.forall_mem_cons] at h
    rw [archived,ih h.2,if_neg h.1]
    rfl

def Entry.Supported (entry : Entry) : Prop :=
  entry.name ∈ [configEntry,versionEntry,manifestEntry] ∧ ∃ content, entry.content = .ok content

theorem archived_isSome {name : String} (h : ∀ entry ∈ entries, entry.Supported)
    (hname : ∃ entry ∈ entries, entry.name = name) : (archived name entries).isSome := by
  induction entries with
  | nil => simp at hname
  | cons entry entries ih =>
    obtain ⟨⟨-,content,hcontent⟩,hentries⟩ := List.forall_mem_cons.mp h
    rw [archived]
    by_cases hlater : ∃ entry ∈ entries, entry.name = name
    · simp [ih hentries hlater]
    · have heq : entry.name = name := by simpa [hlater] using hname
      simp [heq,hcontent,Except.toOption]

theorem collectEntries_ok {files files' : Table String Bytes}
    (h : collectEntries files entries = .ok files') :
    (∀ entry ∈ entries, entry.Supported) ∧ ∀ name, files'.lookup name =
      ((archived name entries).map (List.take entryLimit)).or (files.lookup name) := by
  induction entries generalizing files with
  | nil =>
    obtain rfl : files = files' := by simpa [collectEntries] using h
    exact ⟨nofun,fun name => rfl⟩
  | cons entry entries ih =>
    unfold collectEntries at h
    split_ifs at h with hname
    cases hcontent : entry.content with
    | error err => simp [hcontent] at h
    | ok content =>
      rw [hcontent] at h
      obtain ⟨hsupported,hlookup⟩ := ih h
      refine ⟨List.forall_mem_cons.mpr ⟨⟨?_,content,hcontent⟩,hsupported⟩,fun name => ?_⟩
      · simp only [List.mem_cons,List.not_mem_nil,or_false]
        tauto
      · rw [hlookup,Table.lookup_insert_ite,archived,hcontent]
        cases archived name entries with
        | some later => rfl
        | none => by_cases heq : name = entry.name <;> simp [heq,eq_comm,Except.toOption,entryLimit]

theorem collectEntries_of_supported (h : ∀ entry ∈ entries, entry.Supported)
    (files : Table String Bytes) : ∃ files', collectEntries files entries = .ok files' := by
  induction entries generalizing files with
  | nil => exact ⟨files,rfl⟩
  | cons entry entries ih =>
    rw [List.forall_mem_cons] at h
    obtain ⟨⟨hname,content,hcontent⟩,hentries⟩ := h
    obtain ⟨files',hfiles⟩ := ih hentries (files.insert entry.name (content.take (2*1024*1024)))
    refine ⟨files',?_⟩
    simp only [List.mem_cons,List.not_mem_nil,or_false] at hname
    rw [collectEntries,if_neg (by tauto),hcontent]
    exact hfiles

theorem contentOf_collected {files : Table String Bytes} (h : collectEntries ∅ entries = .ok files)
    (name : String) : contentOf files name = held entries name := by
  rw [contentOf,(collectEntries_ok h).2,held,AList.lookup_empty,Option.or_none]
  cases archived name entries <;> rfl

end Contents

section Acceptance

variable (t : Tools) {entries : List Entry} {files : Table String Bytes}

/-- What a restoration verifies of the bytes it is to write. -/
structure Verified (entries : List Entry) (manifest : Table String Bytes) : Prop where
  supported : ∀ entry ∈ entries, entry.Supported
  decoded : t.manifest (held entries manifestEntry) = some manifest
  listed : ∀ name digest, manifest.lookup name = some digest →
    hexText (t.sha256 (held entries name)) = digest
  candidate : ∃ cfg, decodeCandidate t (held entries configEntry) = .ok cfg

variable {manifest : Table String Bytes}

theorem digests_match_iff {content : String → Bytes} :
    (manifest.entries.any fun e => hexText (t.sha256 (content e.1)) ≠ e.2) = false ↔
      ∀ name digest, manifest.lookup name = some digest →
        hexText (t.sha256 (content name)) = digest := by
  simp only [List.any_eq_false,decide_eq_true_eq,not_not,← Option.mem_def,AList.mem_lookup_iff]
  exact ⟨fun h name digest hmem => h ⟨name,digest⟩ hmem,fun h e hmem => h e.1 e.2 hmem⟩

theorem verified_of_ok (h : verifyEntries t entries = .ok files) :
    collectEntries ∅ entries = .ok files ∧ ∃ manifest, Verified t entries manifest := by
  unfold verifyEntries at h
  cases hcollect : collectEntries ∅ entries with
  | error err => simp [hcollect,Bind.bind,Except.bind] at h
  | ok collected =>
    simp only [hcollect,Bind.bind,Except.bind,contentOf_collected hcollect] at h
    cases hmanifest : t.manifest (held entries manifestEntry) with
    | none =>
      simp only [hmanifest] at h
      nomatch h
    | some manifest =>
      simp only [hmanifest] at h
      cases hany : manifest.entries.any fun e => hexText (t.sha256 (held entries e.1)) ≠ e.2 with
      | true =>
        simp only [hany] at h
        nomatch h
      | false =>
        cases hcandidate : decodeCandidate t (held entries configEntry) with
        | error err =>
          simp only [hany,hcandidate] at h
          nomatch h
        | ok cfg =>
          simp only [hany,hcandidate] at h
          obtain rfl : collected = files := Except.ok.inj h
          exact ⟨rfl,manifest,(collectEntries_ok hcollect).1,hmanifest,
            (digests_match_iff t).mp hany,cfg,hcandidate⟩

theorem ok_of_verified (h : Verified t entries manifest) :
    ∃ files, verifyEntries t entries = .ok files := by
  obtain ⟨files,hcollect⟩ := collectEntries_of_supported h.supported ∅
  obtain ⟨cfg,hcandidate⟩ := h.candidate
  refine ⟨files,?_⟩
  unfold verifyEntries
  simp only [hcollect,Bind.bind,Except.bind,contentOf_collected hcollect,h.decoded,
    (digests_match_iff t).mpr h.listed,hcandidate]
  rfl

theorem Verified.congr {entries' : List Entry}
    (h : Verified t entries manifest) (hsupported : ∀ entry ∈ entries', entry.Supported)
    (hheld : ∀ name, held entries' name = held entries name) : Verified t entries' manifest := by
  refine ⟨hsupported,?_,?_,?_⟩
  · rw [hheld]; exact h.decoded
  · simpa only [hheld] using h.listed
  · rw [hheld]; exact h.candidate

end Acceptance

section Change

variable {before after : List Entry} {entry : Entry}

def Entry.change (entry : Entry) (content : Bytes) : Entry := { entry with content := .ok content }

theorem held_change_ne {name : String} (h : entry.name ≠ name) (content : Bytes) :
    held (before++entry.change content::after) name = held (before++entry::after) name := by
  simp [held,archived_append,archived,Entry.change,h]

theorem held_change_shadowed (h : (archived entry.name after).isSome) (content : Bytes)
    (name : String) :
    held (before++entry.change content::after) name = held (before++entry::after) name := by
  by_cases hname : entry.name = name
  · obtain ⟨later,hlater⟩ := Option.isSome_iff_exists.mp h
    simp [held,archived_append,archived,← hname,hlater]
  · exact held_change_ne hname content

theorem held_only (hbefore : ∀ e ∈ before, e.name ≠ entry.name)
    (hafter : ∀ e ∈ after, e.name ≠ entry.name) (content : Bytes) :
    held (before++entry.change content::after) entry.name = content.take entryLimit := by
  simp [held,archived_append,archived,Entry.change,archived_of_absent hbefore,
    archived_of_absent hafter,Except.toOption]

theorem change_supported {content : Bytes} (h : ∀ e ∈ before++entry::after, e.Supported) :
    ∀ e ∈ before++entry.change content::after, e.Supported := by
  intro e he
  rcases List.mem_append.mp he with hb | he
  · exact h e (List.mem_append_left _ hb)
  · rcases List.mem_cons.mp he with rfl | ha
    · exact ⟨(h entry (by simp)).1,content,rfl⟩
    · exact h e (by simp [ha])

end Change

section Digests

theorem hexDigit_inj {m n : ℕ} (hm : m < 16) (hn : n < 16) (h : hexDigit m = hexDigit n) :
    m = n := by
  have hall : ∀ m n : Fin 16, hexDigit m = hexDigit n → m = n := by decide
  exact Fin.val_eq_of_eq (hall ⟨m,hm⟩ ⟨n,hn⟩ h)

theorem hexText_injective : Function.Injective hexText := by
  intro a
  induction a with
  | nil =>
    intro b h
    cases b with
    | nil => rfl
    | cons y b => simp [hexText] at h
  | cons x a ih =>
    intro b h
    cases b with
    | nil => simp [hexText] at h
    | cons y b =>
      simp only [hexText,List.flatMap_cons,List.cons_append,List.nil_append,List.cons.injEq] at h
      obtain ⟨hhigh,hlow,hrest⟩ := h
      have hx := x.toNat_lt
      have hy := y.toNat_lt
      have hdiv := hexDigit_inj (by omega) (by omega) hhigh
      have hmod := hexDigit_inj (by omega) (by omega) hlow
      rw [UInt8.toNat_inj.mp (by omega : x.toNat = y.toNat),ih hrest]

end Digests

section Integrity

variable (t : Tools) {entries : List Entry} {files : Table String Bytes}

def writtenEntries : List String := [configEntry,versionEntry]

/-- Both entries are there, the manifest lists the digests of the bytes that are written, and with
other bytes in either of them the archive is refused. -/
structure Intact (entries : List Entry) (files : Table String Bytes) : Prop where
  present : ∀ name ∈ writtenEntries, ∃ entry ∈ entries, entry.name = name
  listed : ∃ manifest, t.manifest (contentOf files manifestEntry) = some manifest ∧
    ∀ name ∈ writtenEntries,
      manifest.lookup name = some (hexText (t.sha256 (contentOf files name)))
  refused : ∀ before entry after, entries = before++entry::after → entry.name ∈ writtenEntries →
    ∀ content, entry.content ≠ .ok content →
      ∃ err, verifyEntries t (before++entry.change content::after) = .error err

/-- The manifest lists both names, each of them names one entry, and that is read to its end. -/
structure Covered (entries : List Entry) (files : Table String Bytes) : Prop where
  listed : ∃ manifest, t.manifest (contentOf files manifestEntry) = some manifest ∧
    ∀ name ∈ writtenEntries, name ∈ manifest
  once : ∀ name ∈ writtenEntries, entries.countP (fun entry => entry.name = name) = 1
  short : ∀ entry ∈ entries, entry.name ∈ writtenEntries →
    ∀ content, entry.content = .ok content → content.length < entryLimit

variable {content : Bytes} {before after : List Entry} {entry : Entry}

theorem take_entryLimit_ne {content' : Bytes} (hshort : content.length < entryLimit)
    (hne : content ≠ content') : content.take entryLimit ≠ content'.take entryLimit := by
  rw [List.take_of_length_le hshort.le]
  intro heq
  have hlength := congrArg List.length heq
  rw [List.length_take] at hlength
  rw [List.take_of_length_le (by omega)] at heq
  exact hne heq

theorem absent_of_once (h : (before++entry::after).countP (fun e => e.name = entry.name) = 1) :
    (∀ e ∈ before, e.name ≠ entry.name) ∧ ∀ e ∈ after, e.name ≠ entry.name := by
  rw [List.countP_append,List.countP_cons_of_pos (by simp)] at h
  have hbefore : before.countP (fun e => e.name = entry.name) = 0 := by omega
  have hafter : after.countP (fun e => e.name = entry.name) = 0 := by omega
  exact ⟨by simpa [List.countP_eq_zero] using hbefore,by simpa [List.countP_eq_zero] using hafter⟩

theorem not_manifestEntry {name : String} (h : name ∈ writtenEntries) : name ≠ manifestEntry := by
  rintro rfl
  exact absurd h (by decide)

theorem verified_manifest (h : verifyEntries t entries = .ok files) {manifest : Table String Bytes}
    (hmanifest : t.manifest (contentOf files manifestEntry) = some manifest) :
    Verified t entries manifest ∧ ∀ name, contentOf files name = held entries name := by
  obtain ⟨hcollect,manifest',hverified⟩ := verified_of_ok t h
  have hheld := contentOf_collected hcollect
  rw [hheld,hverified.decoded] at hmanifest
  exact ⟨Option.some.inj hmanifest ▸ hverified,hheld⟩

theorem refused_of_covered (hinjective : Function.Injective t.sha256)
    (hcovered : Covered t entries files) (h : verifyEntries t entries = .ok files)
    (heq : entries = before++entry::after)
    (hname : entry.name ∈ writtenEntries) (hne : entry.content ≠ .ok content) :
    ∃ err, verifyEntries t (before++entry.change content::after) = .error err := by
  cases hchanged : verifyEntries t (before++entry.change content::after) with
  | error err => exact ⟨err,rfl⟩
  | ok files' =>
    subst heq
    obtain ⟨⟨manifest,hmanifest,hlisted⟩,honce,hshort⟩ := hcovered
    obtain ⟨hverified,-⟩ := verified_manifest t h hmanifest
    obtain ⟨-,manifest',hverified'⟩ := verified_of_ok t hchanged
    obtain rfl : manifest' = manifest := by
      have hsame := hverified'.decoded
      rw [held_change_ne (not_manifestEntry hname),hverified.decoded] at hsame
      exact (Option.some.inj hsame).symm
    obtain ⟨digest,hdigest⟩ :=
      Option.isSome_iff_exists.mp (AList.lookup_isSome.mpr (hlisted entry.name hname))
    obtain ⟨hbefore,hafter⟩ := absent_of_once (honce entry.name hname)
    obtain ⟨-,old,hold⟩ := hverified.supported entry (by simp)
    have hwas := held_only hbefore hafter old
    have hnow := held_only hbefore hafter content
    rw [show entry.change old = entry by rw [Entry.change,← hold]] at hwas
    have hsame : old.take entryLimit = content.take entryLimit := by
      rw [← hwas,← hnow]
      exact hinjective (hexText_injective
        ((hverified.listed _ _ hdigest).trans (hverified'.listed _ _ hdigest).symm))
    exact absurd hsame (take_entryLimit_ne (hshort entry (by simp) hname old hold)
      fun heq => hne (heq ▸ hold))

theorem not_refused_of_held (h : verifyEntries t (before++entry::after) = .ok files)
    (hheld : ∀ name, held (before++entry.change content::after) name =
      held (before++entry::after) name) :
    ¬ ∃ err, verifyEntries t (before++entry.change content::after) = .error err := by
  obtain ⟨-,manifest,hverified⟩ := verified_of_ok t h
  obtain ⟨files',hok⟩ :=
    ok_of_verified t (hverified.congr t (change_supported hverified.supported) hheld)
  rintro ⟨err,herr⟩
  rw [hok] at herr
  cases herr

theorem once_of_intact (h : verifyEntries t entries = .ok files) (hintact : Intact t entries files)
    {name : String} (hname : name ∈ writtenEntries) :
    entries.countP (fun entry => entry.name = name) = 1 := by
  have hfound : (entries.find? fun entry => entry.name = name).isSome := by
    simpa using hintact.present name hname
  obtain ⟨entry,hentry⟩ := Option.isSome_iff_exists.mp hfound
  obtain ⟨heq,before,after,rfl,hbefore⟩ := List.find?_eq_some_iff_append.mp hentry
  obtain rfl : entry.name = name := by simpa using heq
  obtain ⟨-,manifest,hverified⟩ := verified_of_ok t h
  obtain ⟨-,old,hold⟩ := hverified.supported entry (by simp)
  have hafter : ∀ e ∈ after, e.name ≠ entry.name := by
    by_contra hlater
    push Not at hlater
    have hshadowed := archived_isSome
      (fun e he => hverified.supported e (by simp [he])) hlater
    refine not_refused_of_held t h (held_change_shadowed hshadowed (old++[0]))
      (hintact.refused before entry after rfl hname (old++[0]) ?_)
    simp [hold]
  rw [List.countP_append,List.countP_cons_of_pos (by simp),
    List.countP_eq_zero.mpr (by simpa using hbefore),
    List.countP_eq_zero.mpr (by simpa using hafter)]

theorem short_of_intact (h : verifyEntries t entries = .ok files) (hintact : Intact t entries files)
    (hentry : entry ∈ entries) (hname : entry.name ∈ writtenEntries)
    (hcontent : entry.content = .ok content) : content.length < entryLimit := by
  obtain ⟨before,after,rfl⟩ := List.append_of_mem hentry
  obtain ⟨hbefore,hafter⟩ := absent_of_once (once_of_intact t h hintact hname)
  by_contra hlong
  have hchange : entry.change content = entry := by rw [Entry.change,← hcontent]
  refine not_refused_of_held t h (fun name => ?_)
    (hintact.refused before entry after rfl hname (content++[0]) (by simp [hcontent]))
  by_cases heq : entry.name = name
  · have hwas := held_only hbefore hafter content
    rw [hchange] at hwas
    rw [← heq,hwas,held_only hbefore hafter,List.take_append_of_le_length (by omega)]
  · exact held_change_ne heq _

theorem intact_iff_covered (hinjective : Function.Injective t.sha256)
    (h : verifyEntries t entries = .ok files) :
    Intact t entries files ↔ Covered t entries files := by
  constructor
  · intro hintact
    obtain ⟨manifest,hmanifest,hlisted⟩ := hintact.listed
    exact ⟨⟨manifest,hmanifest,fun name hname => Table.mem_of_lookup (hlisted name hname)⟩,
      fun name hname => once_of_intact t h hintact hname,
      fun entry hentry hname content hcontent => short_of_intact t h hintact hentry hname hcontent⟩
  · intro hcovered
    obtain ⟨manifest,hmanifest,hlisted⟩ := hcovered.listed
    refine ⟨fun name hname => ?_,⟨manifest,hmanifest,fun name hname => ?_⟩,
      fun before entry after heq hname content hne =>
        refused_of_covered t hinjective hcovered h heq hname hne⟩
    · have hpos : 0 < entries.countP (fun entry => entry.name = name) := by
        rw [hcovered.once name hname]; decide
      simpa only [decide_eq_true_eq] using List.countP_pos_iff.mp hpos
    · obtain ⟨digest,hdigest⟩ :=
        Option.isSome_iff_exists.mp (AList.lookup_isSome.mpr (hlisted name hname))
      obtain ⟨hverified,hheld⟩ := verified_manifest t h hmanifest
      rw [hdigest,hheld,hverified.listed name digest hdigest]

def benchManifest : Table String Bytes :=
  ((∅ : Table String Bytes).insert configEntry (hexText (bytes "bench"))).insert versionEntry
    (hexText (bytes "v1"))

def archiveTools (entries : List Entry) : Tools :=
  { benchTools with
    unzip := fun _ => some entries
    manifest := fun data =>
      if data = bytes "\x7b\x7d" then some ∅
      else if data = bytes "digests" then some benchManifest else none }

def benchEntries (version manifest : String) : List Entry :=
  [⟨configEntry,.ok (bytes "bench")⟩,⟨versionEntry,.ok (bytes version)⟩,
    ⟨manifestEntry,.ok (bytes manifest)⟩]

def benchArchive : List Entry := benchEntries "v1" "digests"

theorem benchArchive_intact_iff :
    ∃ files, verifyEntries (archiveTools benchArchive) benchArchive = .ok files ∧
      (Intact (archiveTools benchArchive) benchArchive files ↔
        Covered (archiveTools benchArchive) benchArchive files) := by
  have hok : (verifyEntries (archiveTools benchArchive) benchArchive).isOk = true := by
    decide +kernel
  cases h : verifyEntries (archiveTools benchArchive) benchArchive with
  | error err => rw [h] at hok; cases hok
  | ok files => exact ⟨files,rfl,intact_iff_covered _ (fun _ _ heq => heq) h⟩

/-- With a manifest that lists nothing, an archive is accepted with one version, with another in its
place, and without any. -/
theorem unlisted_entries_accepted :
    (verifyEntries (archiveTools []) (benchEntries "v1" "\x7b\x7d")).isOk = true ∧
      (verifyEntries (archiveTools []) (benchEntries "v2" "\x7b\x7d")).isOk = true ∧
      (verifyEntries (archiveTools []) [⟨configEntry,.ok (bytes "bench")⟩,
        ⟨manifestEntry,.ok (bytes "\x7b\x7d")⟩]).isOk = true := by
  decide +kernel

end Integrity

section Restore

variable (t : Tools) {actor : Actor} {payload : Bytes} {dryRun : Bool} {m : Machine}
  {entries : List Entry} {files : Table String Bytes}

def Machine.restore (m : Machine) (actor : Actor) (payload : Bytes) (dryRun : Bool) :
    Outcome Result × Machine :=
  exec Machine.answer (Operations.restore t actor payload dryRun) m

/-- The restoration is to write files of an archive it has verified. -/
structure Proceeds (actor : Actor) (payload : Bytes) (dryRun : Bool) (entries : List Entry)
    (files : Table String Bytes) : Prop where
  authorized : authorize t actor = none
  opened : t.unzip payload = some entries
  verified : verifyEntries t entries = .ok files
  requested : dryRun = false

theorem restore_of_not_proceeds
    (h : ∀ entries files, ¬ Proceeds t actor payload dryRun entries files) :
    (m.restore t actor payload dryRun).2.files = m.files ∧
      (dryRun = false → (m.restore t actor payload dryRun).1.2 ≠ none) := by
  unfold Machine.restore Operations.restore
  cases hactor : authorize t actor with
  | some err => exact ⟨rfl,nofun⟩
  | none =>
    cases hentries : t.unzip payload with
    | none => exact ⟨rfl,nofun⟩
    | some entries =>
      dsimp only
      cases hfiles : verifyEntries t entries with
      | error err => exact ⟨rfl,nofun⟩
      | ok files =>
        cases hdry : dryRun with
        | true => exact ⟨rfl,nofun⟩
        | false => exact absurd ⟨hactor,hentries,hfiles,hdry⟩ (h entries files)

/-- The host after a restoration that writes, by the first of its calls that fails. -/
theorem restore_of_proceeds (h : Proceeds t actor payload dryRun entries files) :
    ((m.restore t actor payload dryRun).1.2 = none ↔
      m.faults m.made = none ∧ m.faults (m.made+1) = none ∧ m.faults (m.made+2) = none) ∧
    (m.restore t actor payload dryRun).2.files configPath =
      (if m.faults m.made = none then some (contentOf files configEntry) else m.files configPath) ∧
    (m.restore t actor payload dryRun).2.files versionPath =
      (if m.faults m.made = none ∧ m.faults (m.made+1) = none then
        some (contentOf files versionEntry) else m.files versionPath) := by
  obtain ⟨hactor,hentries,hfiles,hdry⟩ := h
  have hstart : m.fault = m.faults m.made := rfl
  cases hconfig : m.faults m.made with
  | some f =>
    simp [Machine.restore,Operations.restore,hactor,hentries,hfiles,hdry,Machine.act,hstart,
      hconfig,refused]
  | none =>
    cases hversion : m.faults (m.made+1) with
    | some f =>
      simp (disch := decide) [Machine.restore,Operations.restore,hactor,hentries,hfiles,hdry,
        Machine.act,hstart,hconfig,hversion,refused,Function.update_of_ne]
    | none =>
      cases hrestart : m.faults (m.made+2) <;>
        simp (disch := decide) [Machine.restore,Operations.restore,hactor,hentries,hfiles,hdry,
          Machine.act,hstart,hconfig,hversion,hrestart,refused,Function.update_of_ne]

theorem archived_config (h : verifyEntries t entries = .ok files) :
    archived configEntry entries = some (contentOf files configEntry) := by
  obtain ⟨hcollect,manifest,hverified⟩ := verified_of_ok t h
  obtain ⟨cfg,hcandidate⟩ := hverified.candidate
  obtain ⟨hne,hlength,-⟩ := decodeCandidate_ok t hcandidate
  rw [contentOf_collected hcollect]
  unfold held at hne hlength ⊢
  cases hcontent : archived configEntry entries with
  | none => simp [hcontent] at hne
  | some content =>
    rw [hcontent,Option.getD_some,List.length_take,entryLimit] at hlength
    rw [Option.getD_some,List.take_of_length_le (by rw [entryLimit]; omega)]

theorem archived_version_iff (h : verifyEntries t entries = .ok files) :
    some (contentOf files versionEntry) = archived versionEntry entries ↔
      ∃ version, archived versionEntry entries = some version ∧ version.length ≤ entryLimit := by
  rw [contentOf_collected (verified_of_ok t h).1,held]
  cases archived versionEntry entries with
  | none => simp
  | some version => simp [List.take_eq_self_iff]

/-- A restoration that returns an error leaves configuration and version as they were, and one that
returns none leaves those of the archive. -/
def RestoreAtomic (actor : Actor) (payload : Bytes) (dryRun : Bool) (m : Machine) : Prop :=
  ((m.restore t actor payload dryRun).1.2 ≠ none →
    (m.restore t actor payload dryRun).2.files configPath = m.files configPath ∧
    (m.restore t actor payload dryRun).2.files versionPath = m.files versionPath) ∧
  (dryRun = false → (m.restore t actor payload dryRun).1.2 = none →
    ∃ entries, t.unzip payload = some entries ∧
      (m.restore t actor payload dryRun).2.files configPath = archived configEntry entries ∧
      (m.restore t actor payload dryRun).2.files versionPath = archived versionEntry entries)

/-- Once the configuration is written: where a later call fails, what was written was there before;
where none fails, the archive has a version and it is read to its end. -/
def RestoresWhole (actor : Actor) (payload : Bytes) (dryRun : Bool) (m : Machine) : Prop :=
  ∀ entries files, Proceeds t actor payload dryRun entries files → m.faults m.made = none →
    (m.faults (m.made+1) ≠ none → m.files configPath = some (contentOf files configEntry)) ∧
    (m.faults (m.made+1) = none → m.faults (m.made+2) ≠ none →
      m.files configPath = some (contentOf files configEntry) ∧
      m.files versionPath = some (contentOf files versionEntry)) ∧
    (m.faults (m.made+1) = none → m.faults (m.made+2) = none →
      ∃ version, archived versionEntry entries = some version ∧ version.length ≤ entryLimit)

theorem restoreAtomic_iff (actor : Actor) (payload : Bytes) (dryRun : Bool) (m : Machine) :
    RestoreAtomic t actor payload dryRun m ↔ RestoresWhole t actor payload dryRun m := by
  by_cases hproceeds : ∃ entries files, Proceeds t actor payload dryRun entries files
  · obtain ⟨entries,files,h⟩ := hproceeds
    obtain rfl := h.requested
    obtain ⟨herr,hconfig,hversion⟩ := restore_of_proceeds t (m := m) h
    have hunique : RestoresWhole t actor payload false m ↔ _ :=
      ⟨fun hwhole => hwhole entries files h,fun hwhole entries' files' h' => by
        obtain rfl := Option.mem_unique h'.opened h.opened
        obtain rfl : files' = files := Except.ok.inj (h'.verified.symm.trans h.verified)
        exact hwhole⟩
    rw [hunique]
    unfold RestoreAtomic
    simp only [ne_eq,herr,hconfig,hversion,h.opened,true_implies,Option.some.injEq,
      exists_eq_left',← archived_version_iff t h.verified,archived_config t h.verified]
    by_cases h0 : m.faults m.made = none <;> by_cases h1 : m.faults (m.made+1) = none <;>
      by_cases h2 : m.faults (m.made+2) = none <;> simp [h0,h1,h2,eq_comm]
  · push Not at hproceeds
    obtain ⟨hfiles,herr⟩ := restore_of_not_proceeds t (m := m) hproceeds
    refine iff_of_true ⟨fun _ => by rw [hfiles]; exact ⟨rfl,rfl⟩,
      fun hdry hnone => absurd hnone (herr hdry)⟩ fun entries files h => ?_
    exact absurd h (hproceeds entries files)

def configuredMachine (call : ℕ) : Machine where
  files path := if path = configPath then some (bytes "old") else
    if path = versionPath then some (bytes "v0") else none
  faults n := if n = call then some ⟨.external "exit status 1",[]⟩ else none

/-- Where the version is not written, the new configuration stays beside the old version. -/
theorem restore_mixed :
    ((configuredMachine 1).restore (archiveTools benchArchive) benchActor [] false).1.2 ≠ none ∧
      ((configuredMachine 1).restore (archiveTools benchArchive) benchActor [] false).2.files
        configPath = some (bytes "bench") ∧
      ((configuredMachine 1).restore (archiveTools benchArchive) benchActor [] false).2.files
        versionPath = some (bytes "v0") := by
  decide +kernel

end Restore

section RoundTrip

variable (t : Tools) {actor : Actor} {source : Machine} {configuration version : Bytes}

def Machine.backup (m : Machine) (ctx : Option Failure) (actor : Actor) : Outcome Bytes × Machine :=
  exec Machine.answer (Operations.backup t ctx actor) m

def backupManifest (configuration version : Bytes) : Table String Bytes :=
  ((∅ : Table String Bytes).insert configEntry (hexText (t.sha256 configuration))).insert
    versionEntry (hexText (t.sha256 version))

/-- What is read of an archive of three entries. -/
def backupEntries (configuration version manifest : Bytes) : List Entry :=
  [⟨configEntry,.ok configuration⟩,⟨versionEntry,.ok version⟩,⟨manifestEntry,.ok manifest⟩]

/-- An archive gives back the entries it was made of and a manifest the digests; a digest has 32
bytes, and a manifest at most six for each byte of its names and digests, with their punctuation. -/
structure RoundTrips : Prop where
  zip : ∀ configuration version manifest, ∃ archive,
    t.zip [(configEntry,configuration),(versionEntry,version),(manifestEntry,manifest)] =
      .ok archive ∧ t.unzip archive = some (backupEntries configuration version manifest)
  manifest : ∀ configuration version, ∃ table,
    t.manifest (t.manifestText (backupManifest t configuration version)) = some table ∧
      ∀ name, table.lookup name = (backupManifest t configuration version).lookup name
  digest : ∀ data, (t.sha256 data).length = 32
  text : ∀ configuration version, (t.manifestText (backupManifest t configuration version)).length ≤
    2+((backupManifest t configuration version).entries.map fun e =>
      6*(e.1.utf8ByteSize+e.2.length)+6).sum

theorem hexText_length (value : Bytes) : (hexText value).length = 2*value.length := by
  induction value with
  | nil => rfl
  | cons b value ih =>
    simp only [hexText,List.flatMap_cons,List.length_append,List.length_cons,List.length_nil] at ih ⊢
    omega

theorem backupManifest_lookup (name : String) :
    (backupManifest t configuration version).lookup name =
      if name = versionEntry then some (hexText (t.sha256 version))
      else if name = configEntry then some (hexText (t.sha256 configuration)) else none := by
  rw [backupManifest,Table.lookup_insert_ite,Table.lookup_insert_ite,AList.lookup_empty]

theorem backupManifest_entries : (backupManifest t configuration version).entries =
    [⟨versionEntry,hexText (t.sha256 version)⟩,⟨configEntry,hexText (t.sha256 configuration)⟩] :=
  rfl

theorem RoundTrips.manifest_short (ht : RoundTrips t) (configuration version : Bytes) :
    (t.manifestText (backupManifest t configuration version)).length ≤ entryLimit := by
  refine (ht.text _ _).trans ?_
  have hnames : versionEntry.utf8ByteSize = 30 ∧ configEntry.utf8ByteSize = 22 := by decide
  simp [backupManifest_entries,hexText_length,ht.digest,hnames,entryLimit]

theorem held_backup (configuration version manifest : Bytes) :
    held (backupEntries configuration version manifest) configEntry =
        configuration.take entryLimit ∧
      held (backupEntries configuration version manifest) versionEntry = version.take entryLimit ∧
      held (backupEntries configuration version manifest) manifestEntry =
        manifest.take entryLimit := by
  simp (disch := decide) [held,backupEntries,archived,Except.toOption,configEntry,versionEntry,
    manifestEntry]

theorem RoundTrips.verified (ht : RoundTrips t) (hcandidate : ∃ cfg,
    decodeCandidate t configuration = .ok cfg) (hversion : version.length ≤ entryLimit) :
    ∃ manifest, Verified t (backupEntries configuration version
      (t.manifestText (backupManifest t configuration version))) manifest := by
  obtain ⟨table,htable,hlookup⟩ := ht.manifest configuration version
  have ⟨cfg,hcfg⟩ := hcandidate
  have hlength := (decodeCandidate_ok t hcfg).2.1
  obtain ⟨hheld,hheld',hheld''⟩ := held_backup configuration version
    (t.manifestText (backupManifest t configuration version))
  rw [List.take_of_length_le (by rw [entryLimit]; omega)] at hheld
  rw [List.take_of_length_le hversion] at hheld'
  rw [List.take_of_length_le (ht.manifest_short t configuration version)] at hheld''
  refine ⟨table,?_,by rw [hheld'',htable],fun name digest hdigest => ?_,by rwa [hheld]⟩
  · simp [backupEntries,Entry.Supported]
  · rw [hlookup,backupManifest_lookup] at hdigest
    split_ifs at hdigest with hname hname'
    · rw [hname,hheld',Option.some.inj hdigest]
    · rw [hname',hheld,Option.some.inj hdigest]

theorem backup_ok (ht : RoundTrips t) (hactor : authorize t actor = none)
    (hconfiguration : source.files configPath = some configuration)
    (hversion : source.files versionPath = some version)
    (hreads : source.faults source.made = none ∧ source.faults (source.made+1) = none) :
    (source.backup t none actor).1.2 = none ∧ t.unzip (source.backup t none actor).1.1 =
      some (backupEntries configuration version
        (t.manifestText (backupManifest t configuration version))) := by
  obtain ⟨archive,hzip,hunzip⟩ := ht.zip configuration version
    (t.manifestText (backupManifest t configuration version))
  have hread : source.read configPath = (configuration,none) :=
    Machine.read_of_file hreads.1 hconfiguration
  have hread' : source.tick.read versionPath = (version,none) :=
    Machine.read_of_file hreads.2 hversion
  have hrun : source.backup t none actor = ((archive,none),source.tick.tick) := by
    unfold backupManifest at hzip
    simp only [Machine.backup,Operations.backup,hactor,Machine.exec_readFile,hread,hread',hzip]
    rfl
  rw [hrun]
  exact ⟨rfl,hunzip⟩

/-- What is restored of a backup are the files it was made of. -/
theorem restore_backup (ht : RoundTrips t) (source target : Machine) (actor operator : Actor)
    (configuration version : Bytes) (hactor : authorize t actor = none)
    (hoperator : authorize t operator = none)
    (hconfiguration : source.files configPath = some configuration)
    (hversion : source.files versionPath = some version)
    (hcandidate : ∃ cfg, decodeCandidate t configuration = .ok cfg)
    (hsize : version.length ≤ entryLimit)
    (hreads : source.faults source.made = none ∧ source.faults (source.made+1) = none)
    (hcalls : ∀ n, target.faults n = none) : (source.backup t none actor).1.2 = none ∧
      (target.restore t operator (source.backup t none actor).1.1 false).1.2 = none ∧
      (target.restore t operator (source.backup t none actor).1.1 false).2.files configPath =
        source.files configPath ∧
      (target.restore t operator (source.backup t none actor).1.1 false).2.files versionPath =
        source.files versionPath := by
  obtain ⟨herr,hopened⟩ := backup_ok t ht hactor hconfiguration hversion hreads
  obtain ⟨manifest,hverified⟩ := ht.verified t hcandidate hsize
  obtain ⟨files,hfiles⟩ := ok_of_verified t hverified
  have hproceeds : Proceeds t operator (source.backup t none actor).1.1 false _ files :=
    ⟨hoperator,hopened,hfiles,rfl⟩
  obtain ⟨hnone,hconfig,hrestored⟩ := restore_of_proceeds t (m := target) hproceeds
  have hheld := contentOf_collected (verified_of_ok t hfiles).1
  obtain ⟨cfg,hcfg⟩ := hcandidate
  have hlength := (decodeCandidate_ok t hcfg).2.1
  refine ⟨herr,hnone.mpr ⟨hcalls _,hcalls _,hcalls _⟩,?_,?_⟩
  · rw [hconfig,if_pos (hcalls _),hheld,(held_backup _ _ _).1,hconfiguration,
      List.take_of_length_le (by rw [entryLimit]; omega)]
  · rw [hrestored,if_pos ⟨hcalls _,hcalls _⟩,hheld,(held_backup _ _ _).2.1,hversion,
      List.take_of_length_le hsize]

/-- Parts one after the other, a one before each byte of a part and a zero after the part. -/
def packed (parts : List Bytes) : Bytes :=
  parts.flatMap fun part => part.flatMap (fun b => [1,b])++[0]

def unpacked : Bytes → Bytes → List Bytes
  | _, [] => []
  | part, 0::rest => part::unpacked [] rest
  | part, _::b::rest => unpacked (part++[b]) rest
  | _, [_] => []

theorem unpacked_part (part part' rest : Bytes) :
    unpacked part (part'.flatMap (fun b => [1,b])++0::rest) = (part++part')::unpacked [] rest := by
  induction part' generalizing part with
  | nil => simp [unpacked]
  | cons b part' ih => simp [unpacked,ih]

theorem unpacked_packed (parts : List Bytes) : unpacked [] (packed parts) = parts := by
  induction parts with
  | nil => rfl
  | cons part parts ih =>
    have hpart := unpacked_part [] part (packed parts)
    rw [ih] at hpart
    simpa [packed] using hpart

def packTools : Tools :=
  { benchTools with
    sha256 := fun data => (data++List.replicate 32 0).take 32
    zip := fun files => .ok (packed (files.map Prod.snd))
    unzip := fun data =>
      match unpacked [] data with
      | [configuration,version,manifest] => some (backupEntries configuration version manifest)
      | _ => none
    manifestText := fun table => packed [contentOf table configEntry,contentOf table versionEntry]
    manifest := fun data =>
      match unpacked [] data with
      | [configuration,version] =>
        some (((∅ : Table String Bytes).insert configEntry configuration).insert versionEntry version)
      | _ => none }

theorem packTools_manifestText (configuration version : Bytes) :
    packTools.manifestText (backupManifest packTools configuration version) =
      packed [hexText (packTools.sha256 configuration),hexText (packTools.sha256 version)] := by
  have hconfig : contentOf (backupManifest packTools configuration version) configEntry =
      hexText (packTools.sha256 configuration) := by
    rw [contentOf,backupManifest_lookup,if_neg (by decide),if_pos rfl,Option.getD_some]
  have hversion : contentOf (backupManifest packTools configuration version) versionEntry =
      hexText (packTools.sha256 version) := by
    rw [contentOf,backupManifest_lookup,if_pos rfl,Option.getD_some]
  rw [← hconfig,← hversion]
  rfl

theorem packTools_roundTrips : RoundTrips packTools where
  zip configuration version manifest := ⟨_,rfl,by simp [packTools,unpacked_packed]⟩
  manifest configuration version := by
    refine ⟨backupManifest packTools configuration version,?_,fun name => rfl⟩
    rw [packTools_manifestText]
    simp only [packTools,unpacked_packed]
    rfl
  digest data := by simp [packTools]
  text configuration version := by
    have hdigest : ∀ data, (hexText (packTools.sha256 data)).length = 64 := by
      simp [hexText_length,packTools]
    rw [packTools_manifestText,backupManifest_entries]
    simp [packed,hdigest,List.length_flatMap]
    omega

def sourceMachine : Machine where
  files path := if path = configPath then some (bytes "bench") else
    if path = versionPath then some (bytes "v1\n") else none

def replacementMachine : Machine := { files := fun _ => some (bytes "old") }

theorem sourceMachine_restored :
    (sourceMachine.backup packTools none benchActor).1.2 = none ∧
      (replacementMachine.restore packTools benchActor
        (sourceMachine.backup packTools none benchActor).1.1 false).1.2 = none ∧
      (replacementMachine.restore packTools benchActor
        (sourceMachine.backup packTools none benchActor).1.1 false).2.files configPath =
          sourceMachine.files configPath ∧
      (replacementMachine.restore packTools benchActor
        (sourceMachine.backup packTools none benchActor).1.1 false).2.files versionPath =
          sourceMachine.files versionPath := by
  have hdecodes : (decodeCandidate packTools (bytes "bench")).isOk = true := by decide +kernel
  have hcandidate : ∃ cfg, decodeCandidate packTools (bytes "bench") = .ok cfg := by
    cases h : decodeCandidate packTools (bytes "bench") with
    | error err => rw [h] at hdecodes; cases hdecodes
    | ok cfg => exact ⟨cfg,rfl⟩
  exact restore_backup packTools packTools_roundTrips sourceMachine replacementMachine benchActor
    benchActor (bytes "bench") (bytes "v1\n") (by decide) (by decide) rfl rfl
    hcandidate (by decide) ⟨rfl,rfl⟩ fun _ => rfl

end RoundTrip

end Operations
end AquaOS
