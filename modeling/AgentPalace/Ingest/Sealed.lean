import AgentPalace.Ingest.ByteDiscovery
import AgentPalace.Lib.Url

/-!
# What discovery keeps inside

A discovery is `Sealed` when its files are regular and below the root, no name of
the denylist was returned or opened, and no text stands for two files. The walk
and the names with a text keep to this; `discovery_sealed_iff` says what else has to
hold of the disk and the index: no file of the index behind a linked directory, no
name of the denylist that is not UTF-8 and is opened for want of an extension or
with a readable one, and no two files that decode to one text.
-/

namespace AgentPalace

theorem encodeUtf8_intercalate (names : List (List Char)) :
    encodeUtf8 (['/'].intercalate names) = [47].intercalate (names.map encodeUtf8) := by
  have hslash : encodeUtf8 ['/'] = [47] := by decide +kernel
  induction names with
  | nil => rfl
  | cons name rest ih =>
    cases rest with
    | nil => simp [List.intercalate]
    | cons second rest =>
      have htext : ∀ {α : Type} (sep a b : List α) (l : List (List α)),
          sep.intercalate (a :: b :: l) = a ++ sep ++ sep.intercalate (b :: l) := by
        intro α sep a b l
        simp [List.intercalate]
      rw [htext, encodeUtf8_append, encodeUtf8_append, ih, hslash, List.map_cons, List.map_cons,
        List.map_cons, htext]

theorem length_le_utf8Bytes (cs : List Char) : cs.length ≤ utf8Bytes cs := by
  induction cs with
  | nil => exact Nat.le_refl 0
  | cons c cs ih =>
    have hpos := c.utf8Size_pos
    rw [List.length_cons, utf8Bytes_cons]
    omega

theorem lookup_iff_mem {α β : Type} [BEq α] [LawfulBEq α] {entries : List (α × β)} {a : α} {b : β}
    (h : (entries.map Prod.fst).Nodup) : entries.lookup a = some b ↔ (a, b) ∈ entries := by
  induction entries with
  | nil => simp
  | cons entry entries ih =>
    obtain ⟨c, d⟩ := entry
    rw [List.map_cons, List.nodup_cons] at h
    rw [List.lookup_cons, List.mem_cons]
    by_cases hac : a = c
    · subst hac
      have hnot : (a, b) ∉ entries := fun hmem => h.1 (List.mem_map.2 ⟨_, hmem, rfl⟩)
      rw [beq_self_eq_true, or_iff_left hnot, Prod.mk.injEq]
      simp [eq_comm]
    · rw [beq_eq_false_iff_ne.2 hac, Prod.mk.injEq]
      simp [hac, ih h.2]

namespace Ingest

theorem fromUtf8Lossy_of_text {bytes : List UInt8} {cs : List Char}
    (h : fromUtf8 bytes = some cs) : fromUtf8Lossy bytes = cs := by
  obtain rfl := fromUtf8_eq h
  have hlength : cs.length ≤ (encodeUtf8 cs).length := by
    rw [length_encodeUtf8]
    exact length_le_utf8Bytes cs
  have happend := fromUtf8LossyFrom_append cs ((encodeUtf8 cs).length - cs.length) []
  rw [List.append_nil, Nat.add_sub_cancel' hlength] at happend
  rw [fromUtf8Lossy, happend]
  cases (encodeUtf8 cs).length - cs.length <;> exact List.append_nil cs

def Whole (path : BytePath) : Prop := ∀ name ∈ path, (fromUtf8 name).isSome

instance (path : BytePath) : Decidable (Whole path) :=
  inferInstanceAs (Decidable (∀ name ∈ path, (fromUtf8 name).isSome))

namespace Disk

variable (disk : Disk)

/-- A directory below the root without links above it. -/
inductive RealDir : BytePath → Prop where
  | root : RealDir []
  | sub {dir : BytePath} {name : ByteName} (h : RealDir dir)
      (hname : (name, .dir) ∈ disk.listing dir) :
      RealDir (dir ++ [name])

/-- A regular file that is reached from the root without a link. -/
def Regular (path : BytePath) : Prop :=
  ∃ dir name, path = dir ++ [name] ∧ disk.RealDir dir ∧ (name, .file) ∈ disk.listing dir

/-- **Nothing leaks** from a discovery. -/
structure Sealed (found : DiscoveryReport) : Prop where
  regular : ∀ source ∈ found.files, disk.Regular source.absolutePath
  withheld : ∀ source ∈ found.files, ¬ SecretName (baseName source.absolutePath)
  unopened : ∀ path ∈ found.opened, ¬ SecretName (baseName path)
  distinct : ∀ source ∈ found.files, ∀ other ∈ found.files,
    source.relativePath = other.relativePath → source.absolutePath = other.absolutePath

/-- What has to hold of the files that are decided on. -/
structure Guarded (T P : FoundSource → Prop) : Prop where
  /-- Of the tracked files; the walk follows no link. -/
  direct : ∀ source, T source → (disk.verdict source.absolutePath).eligibility = .eligible →
    ¬ disk.BehindLink source.absolutePath
  spelled : ∀ source, P source → SecretName (baseName source.absolutePath) →
    fromUtf8 (baseName source.absolutePath) = none →
      rawExtension (baseName source.absolutePath) ≠ [] ∧
        readableExtension (baseName source.absolutePath) = false
  told : ∀ source other, P source → P other →
    (disk.verdict source.absolutePath).eligibility = .eligible →
    (disk.verdict other.absolutePath).eligibility = .eligible →
    ¬ Whole source.absolutePath → source.relativePath = other.relativePath →
      source.absolutePath = other.absolutePath

section
variable {disk} {dir path : BytePath} {name : ByteName} {type : FileType}

theorem entry_concat :
    disk.entry (dir ++ [name]) = some type ↔ (name, type) ∈ disk.listing dir := by
  unfold entry
  rw [List.getLast?_concat, Option.bind_some, List.dropLast_concat]
  exact lookup_iff_mem (disk.name_once dir)

theorem realDir_of_listing (h : disk.listing dir ≠ []) : disk.RealDir dir := by
  induction dir using List.reverseRecOn with
  | nil => exact .root
  | append_singleton dir name ih =>
    have hname := disk.listing_dir dir name h
    exact .sub (ih (List.ne_nil_of_mem hname)) hname

theorem RealDir.above (h : disk.RealDir dir) (hpath : path <+: dir) (hne : path ≠ []) :
    disk.entry path = some .dir := by
  induction h with
  | root => exact absurd (List.prefix_nil.1 hpath) hne
  | sub _ hname ih =>
    rcases List.prefix_concat_iff.1 hpath with rfl | hpath
    · exact entry_concat.2 hname
    · exact ih hpath

theorem regular_iff : disk.Regular path ↔
    disk.symlinkMetadata path = some .file ∧ ¬ disk.BehindLink path := by
  constructor
  · rintro ⟨dir, name, rfl, hdir, hname⟩
    have hlink : ¬ disk.BehindLink (dir ++ [name]) := by
      rintro ⟨above, habove, hsymlink⟩
      rw [List.dropLast_concat, List.mem_inits] at habove
      by_cases hne : above = []
      · subst hne
        simp [entry] at hsymlink
      · rw [hdir.above habove hne] at hsymlink
        cases hsymlink
    refine ⟨?_, hlink⟩
    rw [symlinkMetadata, if_neg hlink]
    exact entry_concat.2 hname
  · rintro ⟨hfile, hlink⟩
    rw [symlinkMetadata, if_neg hlink] at hfile
    obtain ⟨dir, name, rfl⟩ : ∃ dir name, path = dir ++ [name] := by
      rcases List.eq_nil_or_concat path with rfl | h
      · simp [entry] at hfile
      · obtain ⟨dir, name, rfl⟩ := h
        exact ⟨dir, name, List.concat_eq_append⟩
    have hname := entry_concat.1 hfile
    exact ⟨dir, name, rfl, realDir_of_listing (List.ne_nil_of_mem hname), hname⟩

end

/-! ### Texts and paths -/

/-- A file below the root, whose text is the texts of its names where these have some. -/
structure Named (source : FoundSource) : Prop where
  below : source.absolutePath ≠ []
  slashless : ∀ name ∈ source.absolutePath, 47 ∉ name
  text : Whole source.absolutePath →
    source.relativePath = ['/'].intercalate (source.absolutePath.map textOf)

theorem encodeUtf8_textOf {name : ByteName} (h : (fromUtf8 name).isSome) :
    encodeUtf8 (textOf name) = name := by
  obtain ⟨text, htext⟩ := Option.isSome_iff_exists.1 h
  rw [textOf, htext, Option.getD_some]
  exact (fromUtf8_eq htext).symm

theorem encodeUtf8_names {path : BytePath} (h : Whole path) :
    (path.map textOf).map encodeUtf8 = path := by
  rw [List.map_map]
  exact (List.map_congr_left fun name hname => encodeUtf8_textOf (h name hname)).trans
    (List.map_id path)

theorem slash_not_mem_textOf {name : ByteName} (h : (fromUtf8 name).isSome) (hslash : 47 ∉ name) :
    '/' ∉ textOf name := by
  intro hmem
  refine hslash ?_
  rw [← encodeUtf8_textOf h]
  exact List.mem_flatMap.2 ⟨'/', hmem, by decide +kernel⟩

/-- The text of a file tells its path, where every name has a text. -/
theorem Named.path {source : FoundSource} (h : Named source) (hwhole : Whole source.absolutePath) :
    source.absolutePath = (source.relativePath.splitOn '/').map encodeUtf8 := by
  have hslash : ∀ text ∈ source.absolutePath.map textOf, '/' ∉ text := by
    intro text htext
    obtain ⟨name, hname, rfl⟩ := List.mem_map.1 htext
    exact slash_not_mem_textOf (hwhole name hname) (h.slashless name hname)
  have hne : source.absolutePath.map textOf ≠ [] := fun hnil => h.below (List.map_eq_nil_iff.1 hnil)
  rw [h.text hwhole, List.splitOn_intercalate '/' hslash hne, encodeUtf8_names hwhole]

section
variable {disk} {rules : Rules} {T P : FoundSource → Prop} {source : FoundSource}

theorem named_tracked {entry : List UInt8} (h : disk.TakesTracked rules entry source) :
    Named source := by
  obtain ⟨rfl, -⟩ := h
  refine ⟨List.splitOn_ne_nil 47 entry, Url.not_mem_splitOn, fun hwhole => ?_⟩
  have hentry : entry = encodeUtf8 (['/'].intercalate ((components entry).map textOf)) := by
    rw [encodeUtf8_intercalate, encodeUtf8_names hwhole]
    exact (List.intercalate_splitOn 47).symm
  refine fromUtf8Lossy_of_text ?_
  conv_lhs => rw [hentry]
  exact fromUtf8_encodeUtf8 _

theorem realDir_of_walk {dir : BytePath} (h : Relation.ReflTransGen (disk.Next rules) [] dir) :
    disk.RealDir dir := by
  induction h with
  | refl => exact .root
  | tail _ hnext ih =>
    obtain ⟨⟨name, type⟩, hentry, rfl, rfl, -⟩ := hnext
    exact .sub ih hentry

theorem RealDir.slashless {dir : BytePath} (h : disk.RealDir dir) : ∀ name ∈ dir, 47 ∉ name := by
  induction h with
  | root => exact fun _ hname => absurd hname List.not_mem_nil
  | @sub dir name _ hname ih =>
    refine List.forall_mem_append.2 ⟨ih, fun other hother => ?_⟩
    obtain rfl := List.mem_singleton.1 hother
    exact (disk.name_valid dir _ hname).2

theorem walked_regular {excludedPaths : List (List Char)}
    (h : disk.Walked rules excludedPaths source) : disk.Regular source.absolutePath := by
  obtain ⟨dir, hdir, ⟨name, type⟩, hentry, rfl, rfl, -⟩ := h
  exact ⟨dir, name, rfl, realDir_of_walk hdir, hentry⟩

theorem named_walked {excludedPaths : List (List Char)}
    (h : disk.Walked rules excludedPaths source) : Named source := by
  obtain ⟨dir, name, hpath, hdir, hentry⟩ := walked_regular h
  refine ⟨by rw [hpath]; exact List.concat_ne_nil name dir, ?_, fun hwhole => ?_⟩
  · rw [hpath]
    refine List.forall_mem_append.2 ⟨hdir.slashless, fun other hother => ?_⟩
    obtain rfl := List.mem_singleton.1 hother
    exact (disk.name_valid dir _ hentry).2
  · obtain ⟨_, -, _, -, rfl, -⟩ := h
    refine congrArg (['/'].intercalate ·) (List.map_congr_left fun part hpart => ?_)
    obtain ⟨text, htext⟩ := Option.isSome_iff_exists.1 (hwhole part hpart)
    rw [fromUtf8Lossy_of_text htext, textOf, htext, Option.getD_some]

theorem asked_named {gitBacked branch : Bool} {stdout : List UInt8}
    (h : disk.Asked rules gitBacked branch stdout source) : Named source := by
  unfold Asked at h
  split_ifs at h
  · rcases h with ⟨entry, -, h⟩ | ⟨-, h⟩
    · exact named_tracked h
    · exact named_walked h
  · exact named_walked h

theorem asked_file {gitBacked branch : Bool} {stdout : List UInt8}
    (h : disk.Asked rules gitBacked branch stdout source) :
    disk.symlinkMetadata source.absolutePath = some .file := by
  unfold Asked at h
  split_ifs at h
  · rcases h with ⟨entry, -, rfl, hfile, -⟩ | ⟨-, h⟩
    · exact hfile
    · exact (regular_iff.1 (walked_regular h)).1
  · exact (regular_iff.1 (walked_regular h)).1

/-! ### When nothing leaks -/

theorem secret_opened {path : BytePath} (hsecret : SecretName (baseName path))
    (hopened : (disk.verdict path).opened = true) : fromUtf8 (baseName path) = none := by
  cases htext : fromUtf8 (baseName path) with
  | none => rfl
  | some text =>
    have hverdict := verdict_of_text hsecret (by rw [htext]; rfl) (disk.read path)
    exact absurd hopened (by rw [verdict, hverdict.1]; exact Bool.false_ne_true)

theorem sealed_of_guarded {found : DiscoveryReport} (hjudged : disk.Judged P found)
    (hfile : ∀ source, P source → disk.symlinkMetadata source.absolutePath = some .file)
    (hnamed : ∀ source, P source → Named source)
    (hwalked : ∀ source, P source → T source ∨ disk.Regular source.absolutePath)
    (h : disk.Guarded T P) : disk.Sealed found := by
  have hunopened : ∀ path ∈ found.opened, ¬ SecretName (baseName path) := by
    intro path hpath hsecret
    obtain ⟨source, hsource, rfl, hopened⟩ := (hjudged.opened path).1 hpath
    have htext := secret_opened hsecret hopened
    obtain ⟨hext, hreadable⟩ := h.spelled source hsource hsecret htext
    rcases (opened_of_bytes htext (disk.read source.absolutePath)).1 hopened with hnil | hread
    · exact hext hnil
    · exact Bool.false_ne_true (hreadable.symm.trans hread)
  refine ⟨fun source hsource => ?_, fun source hsource hsecret => ?_, hunopened,
    fun source hsource other hother htext => ?_⟩
  · obtain ⟨hsource, heligible⟩ := (hjudged.files source).1 hsource
    rcases hwalked source hsource with htracked | hregular
    · exact regular_iff.2 ⟨hfile source hsource, h.direct source htracked heligible⟩
    · exact hregular
  · obtain ⟨hsource, heligible⟩ := (hjudged.files source).1 hsource
    refine hunopened _ ((hjudged.opened _).2 ⟨source, hsource, rfl, ?_⟩) hsecret
    exact opened_of_eligible heligible
  · obtain ⟨hsource, heligible⟩ := (hjudged.files source).1 hsource
    obtain ⟨hother, hothereligible⟩ := (hjudged.files other).1 hother
    by_cases hwhole : Whole source.absolutePath
    · by_cases hotherwhole : Whole other.absolutePath
      · rw [(hnamed source hsource).path hwhole, (hnamed other hother).path hotherwhole, htext]
      · exact (h.told other source hother hsource hothereligible heligible hotherwhole
          htext.symm).symm
    · exact h.told source other hsource hother heligible hothereligible hwhole htext

theorem guarded_of_sealed {found : DiscoveryReport} (hjudged : disk.Judged P found)
    (hasked : ∀ source, T source → P source) (h : disk.Sealed found) : disk.Guarded T P := by
  refine ⟨fun source htracked heligible => ?_, fun source hsource hsecret htext => ?_,
    fun source other hsource hother heligible hothereligible _ htext => ?_⟩
  · have hfound := (hjudged.files source).2 ⟨hasked source htracked, heligible⟩
    exact (regular_iff.1 (h.regular source hfound)).2
  · have hclosed : ¬ (disk.verdict source.absolutePath).opened = true := fun hopened =>
      h.unopened _ ((hjudged.opened _).2 ⟨source, hsource, rfl, hopened⟩) hsecret
    have hnot := fun hor => hclosed ((opened_of_bytes htext (disk.read source.absolutePath)).2 hor)
    exact ⟨fun hext => hnot (.inl hext), eq_false_of_ne_true fun hread => hnot (.inr hread)⟩
  · exact h.distinct source ((hjudged.files source).2 ⟨hsource, heligible⟩) other
      ((hjudged.files other).2 ⟨hother, hothereligible⟩) htext

/-- The files that discovery takes from the index. -/
def Indexed (disk : Disk) (rules : Rules) (gitBacked : Bool) (stdout : List UInt8)
    (source : FoundSource) : Prop :=
  gitBacked = true ∧ disk.Tracked rules stdout source

theorem indexed_or_regular {gitBacked branch : Bool} {stdout : List UInt8}
    (h : disk.Asked rules gitBacked branch stdout source) :
    disk.Indexed rules gitBacked stdout source ∨ disk.Regular source.absolutePath := by
  unfold Asked at h
  split_ifs at h with hgit
  · rcases h with htracked | ⟨-, h⟩
    · exact .inl ⟨hgit, htracked⟩
    · exact .inr (walked_regular h)
  · exact .inr (walked_regular h)

theorem asked_of_indexed {gitBacked branch : Bool} {stdout : List UInt8}
    (h : disk.Indexed rules gitBacked stdout source) :
    disk.Asked rules gitBacked branch stdout source := by
  rw [Asked, if_pos h.1]
  exact .inl h.2

variable (disk rules)

/-- **Discovery leaks nothing just when the files it decides on are guarded**, on every disk, with
every index and with all ignore rules. -/
theorem discovery_sealed_iff (gitBacked : Bool) (stdout : List UInt8) :
    (disk.Sealed (disk.discoverProjectSources rules gitBacked stdout) ↔
        disk.Guarded (disk.Indexed rules gitBacked stdout)
          (disk.Asked rules gitBacked false stdout)) ∧
      (disk.Sealed (disk.discoverProjectBranchSources rules gitBacked stdout) ↔
        disk.Guarded (disk.Indexed rules gitBacked stdout)
          (disk.Asked rules gitBacked true stdout)) := by
  have hjudged : disk.Judged (disk.Asked rules gitBacked false stdout)
      (disk.discoverProjectSources rules gitBacked stdout) ∧
        disk.Judged (disk.Asked rules gitBacked true stdout)
          (disk.discoverProjectBranchSources rules gitBacked stdout) :=
    judged_discover gitBacked stdout
  constructor
  · exact ⟨guarded_of_sealed hjudged.1 fun _ => asked_of_indexed,
      sealed_of_guarded hjudged.1 (fun _ => asked_file) (fun _ => asked_named)
        fun _ => indexed_or_regular⟩
  · exact ⟨guarded_of_sealed hjudged.2 fun _ => asked_of_indexed,
      sealed_of_guarded hjudged.2 (fun _ => asked_file) (fun _ => asked_named)
        fun _ => indexed_or_regular⟩

end

end Disk

/-! ### A name without a text -/

def brokenName : ByteName := 0xff :: encodeUtf8 ".local.json".toList

def brokenDisk : Disk where
  listing dir := if dir = [] then [(brokenName, .file)] else []
  beyond _ := none
  read path := if path = [brokenName] then some (encodeUtf8 "token".toList) else none
  depth := 1
  listing_deep dir hdeep := by
    have hne : dir ≠ [] := List.ne_nil_of_length_pos hdeep
    exact if_neg hne
  listing_dir dir name h := absurd (if_neg (List.concat_ne_nil name dir)) h
  name_once dir := by
    split_ifs
    · exact List.nodup_singleton brokenName
    · exact List.nodup_nil
  name_valid dir entry h := by
    split_ifs at h
    · obtain rfl := List.mem_singleton.1 h
      decide +kernel
    · cases h

def noRules : Rules := ⟨fun _ _ => false, fun _ => false, fun _ => false⟩

/-- The file is opened and returned, though its name ends in `.local.json`. -/
theorem broken_name_leaks :
    ¬ brokenDisk.Sealed (brokenDisk.discoverProjectSources noRules false []) := by
  intro h
  have hopened : [brokenName] ∈ (brokenDisk.discoverProjectSources noRules false []).opened := by
    decide +kernel
  exact h.unopened _ hopened (by decide +kernel)

end Ingest

end AgentPalace
