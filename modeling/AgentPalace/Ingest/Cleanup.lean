import AgentPalace.Ingest.Mine
import AgentPalace.Lib.Checked
import Mathlib.Data.Finset.Max

/-!
# The cleanup of a mine

After a mine the rows of the project are those of the files that were discovered
and, for a branch, of the paths it deletes. The cleanup reads the path of a row
back from its key, so this holds where a key has no more colons than it should
(`ingestProject_exact_iff`).
-/

namespace AgentPalace.Ingest

/-! ### Rows after a step -/

section
variable {files : FileTable} {key : String}

theorem stored_sweep {keyPrefix : String} {fields : Nat} {current : List String} :
    Stored (sweep files keyPrefix fields current) key ↔
      Stored files key ∧ (startsWith key keyPrefix = true → field fields key ∈ current) := by
  have hfold : ∀ (keys : List String) (files : FileTable),
      Stored (keys.foldl (fun files key =>
        if field fields key ∈ current then files else forgetSource files key) files) key ↔
      Stored files key ∧ (key ∈ keys → field fields key ∈ current) := by
    intro keys
    induction keys with
    | nil => simp
    | cons k keys ih =>
      intro files
      rw [List.foldl_cons, ih, List.mem_cons]
      split
      · rename_i hk
        refine and_congr_right fun _ => ⟨fun h hmem => ?_, fun h hmem => h (.inr hmem)⟩
        rcases hmem with rfl | hmem
        · exact hk
        · exact h hmem
      · rename_i hk
        rw [stored_forgetSource]
        constructor
        · rintro ⟨⟨hstored, hne⟩, h⟩
          exact ⟨hstored, fun hmem => h (hmem.resolve_left hne)⟩
        · rintro ⟨hstored, h⟩
          exact ⟨⟨hstored, fun heq => hk (heq ▸ h (.inl heq))⟩, fun hmem => h (.inr hmem)⟩
  unfold sweep
  rw [hfold, mem_keysWithPrefix]
  exact and_congr_right fun hstored => by simp [hstored]

variable {run : ProjectRun}

theorem stored_removeMigrated {migrated : Option String} :
    Stored (ProjectRun.removeMigrated files migrated) key ↔
      Stored files key ∧ migrated ≠ some key := by
  cases migrated with
  | none => simp [ProjectRun.removeMigrated]
  | some old => simp [ProjectRun.removeMigrated, stored_forgetSource, eq_comm]

/-- A file that cannot be read leaves the rows as they are; one that is prepared has its row, and
the row it was found under before is gone. -/
inductive Mined (run : ProjectRun) (files : FileTable) (rel : String) (files' : FileTable) :
    Prop where
  | unreadable {path : String} (h : run.prepare rel = .error (.io path)) (heq : files' = files)
  | prepared {prepared : PreparedFileChunks} (h : run.prepare rel = .ok prepared)
      (hstored : ∀ key, Stored files' key ↔ (key = run.sourceKey rel ∨ Stored files key) ∧
        run.migratedSourceKey files rel ≠ some key)

theorem mineFile_mined {rel : String} {files' : FileTable} (hdry : run.dryRun = false)
    (h : run.mineFile files rel = .ok files') : Mined run files rel files' := by
  unfold ProjectRun.mineFile at h
  split at h
  · rename_i path hprepare
    exact .unreadable hprepare (Except.ok.inj h).symm
  · cases h
  · rename_i prepared hprepare
    refine .prepared hprepare fun key => ?_
    rw [hdry] at h
    obtain rfl := Except.ok.inj h
    simp only [Bool.false_eq_true, if_false]
    split
    · rename_i hunchanged
      rw [stored_removeMigrated]
      refine and_congr_left fun _ => (or_iff_right_of_imp ?_).symm
      rintro rfl
      cases hexisting : (getIngestedFile files (run.sourceKey rel)).filter
          (·.sourceKey = run.sourceKey rel) with
      | none => simp [hexisting] at hunchanged
      | some record =>
        obtain ⟨hfound, hkey⟩ := Option.filter_eq_some_iff.1 hexisting
        exact ⟨record, of_decide_eq_true hkey ▸ (getIngestedFile_stored hfound).1⟩
    · rw [stored_removeMigrated, stored_recordSource]

theorem stored_tombstones {existing deleted : List String} :
    Stored (deleted.foldl (run.tombstone existing) files) key ↔
      Stored files key ∨ ∃ rel ∈ deleted, rel ∉ existing ∧ key = run.sourceKey rel := by
  induction deleted generalizing files with
  | nil => simp
  | cons rel deleted ih =>
    rw [List.foldl_cons, ih]
    unfold ProjectRun.tombstone
    split
    · rename_i hexisting
      simp [hexisting]
    · rename_i hexisting
      rw [stored_recordSource]
      simp only [List.mem_cons, exists_eq_or_imp, hexisting, not_false_eq_true, true_and]
      rw [or_comm (a := key = _), or_assoc]

end

/-! ### Keys of a run -/

namespace ProjectRun

variable (run : ProjectRun)

def parts : List (List Char) :=
  [run.ingestKind, run.wingName, run.projectRootKey].map String.toList ++
    run.branchName.toList.map String.toList

theorem sourceKey_toList (rel : String) :
    (run.sourceKey rel).toList = joined run.parts ++ rel.toList := by
  unfold sourceKey parts joined
  cases run.branchName with
  | none => simp [projectSourceKey, sourceKeyWithRootKey]
  | some branch => simp [projectBranchSourceKey]

theorem sourceKey_inj {rel other : String} (h : run.sourceKey rel = run.sourceKey other) :
    rel = other := by
  have := congrArg String.toList h
  rw [sourceKey_toList, sourceKey_toList] at this
  exact String.toList_inj.1 (List.append_cancel_left this)

theorem startsWith_parts {text : String} (h : text.toList = joined run.parts) (rel : String) :
    startsWith (run.sourceKey rel) text = true := by
  unfold startsWith
  rw [h, sourceKey_toList]
  exact List.isPrefixOf_iff_prefix.2 (List.prefix_append _ _)

/-- A branch cleanup leaves the rows whose path, read back from the key, is one of the run. -/
theorem stored_cleanup_branch {run : ProjectRun} {branch : String}
    (hbranch : run.branchName = some branch) (hdry : run.dryRun = false)
    {paths deleted : List String} {complete : Bool} {limit : Option Nat} {files : FileTable}
    (rel : String) :
    Stored (run.cleanup paths deleted complete limit files) (run.sourceKey rel) ↔
      Stored files (run.sourceKey rel) ∧ field 4 (run.sourceKey rel) ∈ paths ++ deleted := by
  have hbegins : startsWith (run.sourceKey rel)
      (run.ingestKind ++ ":" ++ run.wingName ++ ":" ++ run.projectRootKey ++ ":" ++ branch ++ ":") =
      true := run.startsWith_parts (by simp [parts, joined, hbranch]) rel
  simp only [cleanup, hbranch, hdry, Bool.not_false, if_true, stored_sweep, hbegins, forall_const]

theorem stored_cleanup {run : ProjectRun} {paths deleted : List String} {files : FileTable}
    {limit : Option Nat} {complete : Bool} (hdry : run.dryRun = false) (hlimit : limit = none)
    (hcomplete : complete = true) (hdeleted : run.branchName = none → deleted = []) (rel : String) :
    Stored (run.cleanup paths deleted complete limit files) (run.sourceKey rel) ↔
      Stored files (run.sourceKey rel) ∧
        field run.parts.length (run.sourceKey rel) ∈ paths ++ deleted := by
  cases hbranch : run.branchName with
  | none =>
    have hfields : run.parts.length = 3 := by simp [parts, hbranch]
    have hbegins := run.startsWith_parts
      (show (run.ingestKind ++ ":" ++ run.wingName ++ ":" ++ run.projectRootKey ++ ":").toList =
        joined run.parts by simp [parts, joined, hbranch]) rel
    unfold cleanup
    subst hlimit hcomplete
    simp only [hbranch, hdry, Option.isNone_none, Bool.not_false, Bool.and_self, if_true,
      stored_sweep, hbegins, hfields, hdeleted hbranch, List.append_nil]
    constructor
    · exact fun h => ⟨h.1.1, h.2 trivial⟩
    · exact fun h => ⟨⟨h.1, fun _ => h.2⟩, fun _ => h.2⟩
  | some branch =>
    have hfields : run.parts.length = 4 := by simp [parts, hbranch]
    rw [stored_cleanup_branch hbranch hdry, hfields]

end ProjectRun

/-! ### Migrated rows -/

/-- No path of the run is another one behind the run's own prefix. -/
def NoTakeover (wingName projectRootKey : String) (paths : List String) : Prop :=
  ∀ rel ∈ paths, ∀ other ∈ paths, rel ≠ wingName ++ ":" ++ projectRootKey ++ ":" ++ other

section
variable {run : ProjectRun}

theorem legacySourceKey_plain {kind wing root rel : String} (hkind : kind = "projects")
    (hwing : ':' ∉ wing.toList) (hroot : ':' ∉ root.toList) :
    legacySourceKey (sourceKeyWithRootKey kind root wing none rel) =
      some ("projects:" ++ rel) := by
  have hkey : (sourceKeyWithRootKey kind root wing none rel).toList =
      "projects".toList ++ ':' :: (joined [wing.toList, root.toList] ++ rel.toList) := by
    simp [sourceKeyWithRootKey, joined, hkind]
  have htail := @behindColons_joined [wing.toList, root.toList] (by simp [hwing, hroot]) rel.toList
  unfold legacySourceKey
  rw [hkey, splitOnce_append (by decide)]
  dsimp only
  rw [if_pos rfl, Option.bind_some]
  exact (congrArg _ htail).trans (congrArg some (String.toList_inj.1 (by simp)))

namespace ProjectRun

/-- The keys of older versions at which the row of a path is looked for. -/
def olderKeys (run : ProjectRun) (rel : String) : List (Option String) :=
  [run.projectRootKey, run.legacyRootKey].map fun root =>
    legacySourceKey (sourceKeyWithRootKey run.ingestKind root run.wingName none rel)

theorem sourceKey_canonical (h : run.branchName = none) (rel : String) :
    run.sourceKey rel =
      sourceKeyWithRootKey run.ingestKind run.projectRootKey run.wingName none rel := by
  simp [sourceKey, h, projectSourceKey]

end ProjectRun

/-- Where the row that a file takes over was found. -/
theorem migrated_found {files : FileTable} {rel key : String}
    (h : run.migratedSourceKey files rel = some key) :
    run.branchName = none ∧ key ≠ run.sourceKey rel ∧
      ∃ root ∈ [run.projectRootKey, run.legacyRootKey], ∃ record : IngestFileRecord,
        getIngestedFile files
          (sourceKeyWithRootKey run.ingestKind root run.wingName none rel) = some record ∧
        record.sourceKey = key := by
  unfold ProjectRun.migratedSourceKey at h
  split at h
  · cases h
  · rename_i hbranch
    have hkey := ProjectRun.sourceKey_canonical hbranch rel
    obtain ⟨record, hrecord, rfl⟩ := Option.map_eq_some_iff.1 h
    split at hrecord
    · rename_i found hfound
      cases hrecord
      obtain ⟨hfound, hne⟩ := Option.filter_eq_some_iff.1 hfound
      exact ⟨hbranch, of_decide_eq_true hne, _, List.mem_cons_self, record, hkey ▸ hfound, rfl⟩
    · obtain ⟨hfound, hne⟩ := Option.filter_eq_some_iff.1 hrecord
      exact ⟨hbranch, of_decide_eq_true hne, _, List.mem_cons_of_mem _ List.mem_cons_self, record,
        hfound, rfl⟩

namespace ProjectRun

theorem rootKey_plain (hhash : ∀ bytes, ':' ∉ (run.hashBytes bytes).toList) {root : String}
    (hroot : root ∈ [run.projectRootKey, run.legacyRootKey]) : ':' ∉ root.toList := by
  simp only [List.mem_cons, List.not_mem_nil, or_false] at hroot
  rcases hroot with rfl | rfl <;> exact hhash _

theorem olderKeys_of_mem {rel key : String} (h : some key ∈ run.olderKeys rel) :
    ∃ root ∈ [run.projectRootKey, run.legacyRootKey],
      legacySourceKey (sourceKeyWithRootKey run.ingestKind root run.wingName none rel) =
        some key := by
  obtain ⟨root, hroot, heq⟩ := List.mem_map.1 h
  exact ⟨root, hroot, heq⟩

theorem migrated_older (hhash : ∀ bytes, ':' ∉ (run.hashBytes bytes).toList) {files : FileTable}
    {rel other : String} (h : run.migratedSourceKey files rel = some (run.sourceKey other)) :
    other ≠ rel ∧ some (run.sourceKey other) ∈ run.olderKeys rel := by
  obtain ⟨hbranch, hne, root, hroot, record, hrecord, hkey⟩ := migrated_found h
  refine ⟨fun heq => hne (by rw [heq]), List.mem_map.2 ⟨root, hroot, ?_⟩⟩
  rcases (getIngestedFile_stored hrecord).2 with hfound | hfound
  · rw [hkey, sourceKey_canonical hbranch] at hfound
    have htext := congrArg String.toList hfound
    have hroots : run.projectRootKey.toList ++ ':' :: other.toList =
        root.toList ++ ':' :: rel.toList :=
      @List.append_cancel_left _ (run.ingestKind.toList ++ ':' :: run.wingName.toList ++ [':']) _ _
        (by simpa [sourceKeyWithRootKey] using htext)
    obtain ⟨-, hpath⟩ := cut_inj (hhash _) (rootKey_plain hhash hroot) hroots
    exact absurd (by rw [String.toList_inj.1 hpath]) hne
  · rw [hfound, hkey]

end ProjectRun

theorem migrated_ne {paths : List String} (hwing : ':' ∉ run.wingName.toList)
    (hhash : ∀ bytes, ':' ∉ (run.hashBytes bytes).toList)
    (hpaths : run.branchName = none → NoTakeover run.wingName run.projectRootKey paths)
    (files : FileTable) {rel other : String} (hrel : rel ∈ paths) (hother : other ∈ paths) :
    run.migratedSourceKey files rel ≠ some (run.sourceKey other) := by
  intro h
  obtain ⟨hbranch, -⟩ := migrated_found h
  obtain ⟨-, holder⟩ := ProjectRun.migrated_older hhash h
  obtain ⟨root, hroot, hkey⟩ := ProjectRun.olderKeys_of_mem holder
  have hkind : run.ingestKind = "projects" := by simp [ProjectRun.ingestKind, hbranch]
  have hsk : run.sourceKey other =
      "projects:" ++ (run.wingName ++ ":" ++ run.projectRootKey ++ ":" ++ other) := by
    apply String.toList_inj.1
    simp [ProjectRun.sourceKey_canonical hbranch, sourceKeyWithRootKey, hkind]
  rw [legacySourceKey_plain hkind hwing (ProjectRun.rootKey_plain hhash hroot), hsk] at hkey
  have htext := congrArg String.toList (Option.some.inj hkey)
  rw [String.toList_append, String.toList_append] at htext
  exact hpaths hbranch rel hrel other hother
    (String.toList_inj.1 (List.append_cancel_left htext))

theorem mined_stored {rest : List String} {files mined : FileTable} {other : String}
    (hdry : run.dryRun = false)
    (hkeep : ∀ files, ∀ rel ∈ rest, run.migratedSourceKey files rel ≠ some (run.sourceKey other))
    (h : rest.foldlM run.mineFile files = .ok mined) :
    Stored mined (run.sourceKey other) ↔ Stored files (run.sourceKey other) ∨
      other ∈ rest ∧ ∃ prepared, run.prepare other = .ok prepared := by
  induction rest generalizing files with
  | nil =>
    obtain rfl := Except.ok.inj h
    simp
  | cons rel rest ih =>
    rw [List.foldlM_cons] at h
    obtain ⟨files', hfile, hrest⟩ := bind_ok h
    rw [ih (fun files rel hrel => hkeep files rel (List.mem_cons_of_mem _ hrel)) hrest]
    cases mineFile_mined hdry hfile with
    | unreadable hprepare heq =>
      rw [heq, List.mem_cons]
      refine or_congr_right ⟨fun h => ⟨.inr h.1, h.2⟩, ?_⟩
      rintro ⟨rfl | hmem, prepared, hprepared⟩
      · rw [hprepare] at hprepared
        cases hprepared
      · exact ⟨hmem, prepared, hprepared⟩
    | prepared hprepare hstored =>
      rw [hstored, List.mem_cons]
      have hne := hkeep files rel List.mem_cons_self
      constructor
      · rintro (⟨hsame | hold, -⟩ | ⟨hmem, hprepared⟩)
        · obtain rfl := run.sourceKey_inj hsame
          exact .inr ⟨.inl rfl, _, hprepare⟩
        · exact .inl hold
        · exact .inr ⟨.inr hmem, hprepared⟩
      · rintro (hold | ⟨rfl | hmem, hprepared⟩)
        · exact .inl ⟨.inr hold, hne⟩
        · exact .inl ⟨.inl rfl, hne⟩
        · exact .inr ⟨hmem, hprepared⟩

/-! ### What a mine leaves -/

/-- The rows of the run's prefix are those of the files that were discovered and mined, now or
before, and those of the deleted paths. The cleanup removes none of a discovered file. -/
structure ExactMine (run : ProjectRun) (paths deleted tombstones : List String)
    (before after : FileTable) : Prop where
  stored : ∀ rel, Stored after (run.sourceKey rel) ↔
    rel ∈ paths ∧ (Stored before (run.sourceKey rel) ∨
      ∃ prepared, run.prepare rel = .ok prepared) ∨ rel ∈ deleted
  swept : ∀ mined, run.mineFiles paths deleted tombstones before = .ok mined → ∀ rel ∈ paths,
    Stored mined (run.sourceKey rel) → Stored after (run.sourceKey rel)

/-- The tombstones of the deleted paths have their rows. -/
def Recorded (run : ProjectRun) (deleted tombstones : List String) (files : FileTable) : Prop :=
  ∀ rel ∈ deleted, rel ∈ tombstones → Stored files (run.sourceKey rel)

theorem exact_of_plain {paths deleted tombstones : List String} {before mined : FileTable}
    (hdry : run.dryRun = false) (hdeleted : run.branchName = none → deleted = [])
    (hparts : ∀ part ∈ run.parts, ':' ∉ part)
    (hkeep : ∀ files, ∀ rel ∈ paths, ∀ other ∈ paths ++ deleted,
      run.migratedSourceKey files rel ≠ some (run.sourceKey other))
    (hrecorded : Recorded run deleted tombstones before)
    (hmine : run.mineFiles paths deleted tombstones before = .ok mined) :
    ExactMine run paths deleted tombstones before (run.cleanup paths deleted true none mined) := by
  have hafter : ∀ rel, Stored (run.cleanup paths deleted true none mined) (run.sourceKey rel) ↔
      Stored mined (run.sourceKey rel) ∧ rel ∈ paths ++ deleted := by
    intro rel
    rw [ProjectRun.stored_cleanup hdry rfl rfl hdeleted,
      field_plain (run.sourceKey_toList rel) hparts]
  obtain ⟨listed, hlisted, hmined⟩ := bind_ok hmine
  obtain rfl := Except.ok.inj hmined
  refine ⟨fun rel => ?_, fun mined' hmine' rel hrel hstored => ?_⟩
  · rw [hafter, stored_tombstones, List.mem_append]
    constructor
    · rintro ⟨hstored, hrel⟩
      by_cases hdel : rel ∈ deleted
      · exact .inr hdel
      · have hrel := hrel.resolve_right hdel
        rcases hstored with hstored | ⟨other, hother, -, hkey⟩
        · refine .inl ⟨hrel, ?_⟩
          have := (mined_stored hdry (fun files path hpath =>
            hkeep files path hpath rel (List.mem_append_left _ hrel)) hlisted).1 hstored
          exact this.imp_right And.right
        · exact absurd (run.sourceKey_inj hkey ▸ hother) hdel
    · rintro (⟨hrel, hstored⟩ | hdel)
      · refine ⟨.inl ?_, .inl hrel⟩
        exact (mined_stored hdry (fun files path hpath =>
          hkeep files path hpath rel (List.mem_append_left _ hrel)) hlisted).2
            (hstored.imp_right fun h => ⟨hrel, h⟩)
      · refine ⟨?_, .inr hdel⟩
        by_cases htomb : rel ∈ tombstones
        · left
          exact (mined_stored hdry (fun files path hpath =>
            hkeep files path hpath rel (List.mem_append_right _ hdel)) hlisted).2
              (.inl (hrecorded rel hdel htomb))
        · exact .inr ⟨rel, hdel, htomb, rfl⟩
  · obtain rfl := Except.ok.inj (hmine.symm.trans hmine')
    exact (hafter rel).2 ⟨hstored, List.mem_append_left _ hrel⟩

/-! ### What goes wrong otherwise -/

/-- With a colon in the wing or the view, the cleanup removes the longest path of the run. -/
theorem longest_removed {paths deleted : List String} (hdry : run.dryRun = false)
    (hdeleted : run.branchName = none → deleted = []) (hparts : ∃ part ∈ run.parts, ':' ∈ part)
    (hsome : paths ++ deleted ≠ []) :
    ∃ rel ∈ paths ++ deleted, ∀ mined,
      ¬ Stored (run.cleanup paths deleted true none mined) (run.sourceKey rel) := by
  obtain ⟨rel, hrel, hmax⟩ := (paths ++ deleted).toFinset.exists_max_image
    (fun rel => rel.toList.length) ((List.toFinset_nonempty_iff _).2 hsome)
  refine ⟨rel, List.mem_toFinset.1 hrel, fun mined hstored => ?_⟩
  obtain ⟨-, hread⟩ := (ProjectRun.stored_cleanup hdry rfl rfl hdeleted rel).1 hstored
  have hle := hmax _ (List.mem_toFinset.2 hread)
  have hlt := field_longer (run.sourceKey_toList rel) hparts
  omega

theorem mineFiles_ok (h : ∀ rel, run.prepare rel ≠ .error .panic)
    (paths deleted tombstones : List String) (files : FileTable) :
    ∃ mined, run.mineFiles paths deleted tombstones files = .ok mined := by
  have hfold : ∀ files, ∃ mined, paths.foldlM run.mineFile files = .ok mined := by
    induction paths with
    | nil => exact fun files => ⟨files, rfl⟩
    | cons rel paths ih =>
      intro files
      have hfile : ∃ files', run.mineFile files rel = .ok files' := by
        unfold ProjectRun.mineFile
        split
        · exact ⟨_, rfl⟩
        · rename_i hpanic
          exact absurd hpanic (h rel)
        · exact ⟨_, rfl⟩
      obtain ⟨files', hfile⟩ := hfile
      obtain ⟨mined, hmined⟩ := ih files'
      exact ⟨mined, by rw [List.foldlM_cons, hfile]; exact hmined⟩
  obtain ⟨mined, hmined⟩ := hfold files
  exact ⟨_, by unfold ProjectRun.mineFiles; rw [hmined]; rfl⟩

theorem migrated_takeover {files : FileTable} {rel other : String}
    (hbranch : run.branchName = none) (hwing : ':' ∉ run.wingName.toList)
    (hroot : ':' ∉ run.projectRootKey.toList)
    (hrel : rel = run.wingName ++ ":" ++ run.projectRootKey ++ ":" ++ other)
    (hnew : ¬ Stored files (run.sourceKey rel)) (hold : Stored files (run.sourceKey other)) :
    run.migratedSourceKey files rel = some (run.sourceKey other) := by
  have hkind : run.ingestKind = "projects" := by simp [ProjectRun.ingestKind, hbranch]
  have hkey : run.sourceKey rel =
      sourceKeyWithRootKey run.ingestKind run.projectRootKey run.wingName none rel := by
    simp [ProjectRun.sourceKey, hbranch, projectSourceKey]
  have hother : "projects:" ++ rel = run.sourceKey other := by
    apply String.toList_inj.1
    simp [ProjectRun.sourceKey, hbranch, projectSourceKey, sourceKeyWithRootKey, hkind, hrel]
  obtain ⟨record, hrecord⟩ := hold
  have hsame : record.sourceKey = run.sourceKey other := Table.get?_key hrecord
  have hne : run.sourceKey other ≠ run.sourceKey rel :=
    fun heq => hnew ⟨record, heq ▸ hrecord⟩
  have hfound : getIngestedFile files (run.sourceKey rel) = some record := by
    unfold getIngestedFile
    cases hexact : files.get? (run.sourceKey rel) with
    | some found => exact absurd ⟨found, hexact⟩ hnew
    | none =>
      rw [hkey, legacySourceKey_plain hkind hwing hroot, hother]
      exact hrecord
  unfold ProjectRun.migratedSourceKey
  simp only [hbranch, hfound, Option.filter_some, hsame, hne, ne_eq, not_false_eq_true,
    decide_true, if_true, Option.map_some]

/-- A row that a path takes over, wherever it is before the path is mined, has gone in the end when
nothing but this path can be read. -/
theorem gone_after {rel other : String} (hdry : run.dryRun = false) (hne : other ≠ rel)
    {I : FileTable → Prop}
    (hmigrated : ∀ files, I files → Stored files (run.sourceKey other) →
      run.migratedSourceKey files rel = some (run.sourceKey other))
    (hunreadable : ∀ path ≠ rel, ∀ prepared, run.prepare path ≠ .ok prepared)
    {prepared : PreparedFileChunks} (hprepared : run.prepare rel = .ok prepared)
    {rest : List String} {files mined : FileTable} (h : rest.foldlM run.mineFile files = .ok mined)
    (hfiles : I files ∧ rel ∈ rest ∨ ¬ Stored files (run.sourceKey other)) :
    ¬ Stored mined (run.sourceKey other) := by
  induction rest generalizing files with
  | nil =>
    obtain rfl := Except.ok.inj h
    exact hfiles.resolve_left fun hmem => List.not_mem_nil hmem.2
  | cons path rest ih =>
    rw [List.foldlM_cons] at h
    obtain ⟨files', hfile, hrest⟩ := bind_ok h
    cases mineFile_mined hdry hfile with
    | unreadable hpath heq =>
      subst heq
      refine ih hrest (hfiles.imp_left fun hrow => ⟨hrow.1, ?_⟩)
      refine (List.mem_cons.1 hrow.2).resolve_left ?_
      rintro rfl
      rw [hprepared] at hpath
      cases hpath
    | prepared hpath hstored =>
      obtain rfl : path = rel := by
        by_contra hpathne
        exact hunreadable path hpathne _ hpath
      refine ih hrest (.inr ?_)
      rw [hstored]
      rintro ⟨hsame | hold, hkept⟩
      · exact hne (run.sourceKey_inj hsame)
      · rcases hfiles with hrow | hgone
        · exact hkept (hmigrated _ hrow.1 hold)
        · exact hgone hold

theorem taken_over {rel other : String} (hdry : run.dryRun = false)
    (hbranch : run.branchName = none) (hwing : ':' ∉ run.wingName.toList)
    (hroot : ':' ∉ run.projectRootKey.toList)
    (hrel : rel = run.wingName ++ ":" ++ run.projectRootKey ++ ":" ++ other)
    (hunreadable : ∀ path ≠ rel, ∀ prepared, run.prepare path ≠ .ok prepared)
    {prepared : PreparedFileChunks} (hprepared : run.prepare rel = .ok prepared)
    {rest : List String} {files mined : FileTable} (h : rest.foldlM run.mineFile files = .ok mined)
    (hnew : ¬ (Stored files (run.sourceKey rel) ∧ Stored files (run.sourceKey other)))
    (hlater : rel ∈ rest ∨ ¬ Stored files (run.sourceKey other)) :
    ¬ Stored mined (run.sourceKey other) := by
  have hne : other ≠ rel := by
    intro heq
    have := congrArg (fun s : String => s.toList.length) (heq ▸ hrel)
    simp only [String.toList_append, List.length_append] at this
    have : ":".toList.length = 1 := rfl
    omega
  have hmigrated : ∀ files, ¬ (Stored files (run.sourceKey rel) ∧
      Stored files (run.sourceKey other)) → Stored files (run.sourceKey other) →
        run.migratedSourceKey files rel = some (run.sourceKey other) := fun _ hnew hold =>
    migrated_takeover hbranch hwing hroot hrel (fun hrow => hnew ⟨hrow, hold⟩) hold
  exact gone_after hdry hne hmigrated hunreadable hprepared h
    (hlater.imp_left fun hmem => ⟨hnew, hmem⟩)

end

/-! ### The claim of a mine -/

/-- The wing and the view have no colon, and no path takes over another one. -/
structure Unambiguous (hashBytes : List UInt8 → String) (request : ProjectIngestRequest)
    (config : ProjectConfig) (checkout : Checkout) : Prop where
  wing : ':' ∉ (request.wingName config).toList
  branch : ∀ branch, request.branchName checkout = some branch → ':' ∉ branch.toList
  paths : request.branchName checkout = none → NoTakeover (request.wingName config)
    (stableProjectRootKey hashBytes checkout.repoId) (request.paths checkout)

section
variable {hashBytes : List UInt8 → String} {request : ProjectIngestRequest}
  {config : ProjectConfig} {checkout : Checkout}

theorem deletedPaths_canonical (h : request.branchName checkout = none) :
    request.deletedPaths checkout = [] := by
  unfold ProjectIngestRequest.branchName at h
  unfold ProjectIngestRequest.deletedPaths
  split at h
  · cases h
  · rename_i hmode
    simp [hmode]

theorem ingestProject_ok (hwing : ∃ wing, WingId.normalized (request.wingName config) = .ok wing)
    (hlimit : request.limit = none) (hcomplete : checkout.complete = true)
    {read : String → Option (List UInt8)} {now : OffsetDateTime} {tombstones : List String}
    {before after : FileTable} :
    ingestProject hashBytes read now request config checkout tombstones before = .ok after ↔
      ∃ mined, (request.run config checkout hashBytes read now).mineFiles (request.paths checkout)
          (request.deletedPaths checkout) tombstones before = .ok mined ∧
        after = (request.run config checkout hashBytes read now).cleanup (request.paths checkout)
          (request.deletedPaths checkout) true none mined := by
  obtain ⟨wing, hwing⟩ := hwing
  unfold ingestProject
  rw [hwing, hlimit, hcomplete]
  dsimp only [Except.mapError, bind, Except.bind]
  cases (request.run config checkout hashBytes read now).mineFiles (request.paths checkout)
    (request.deletedPaths checkout) tombstones before with
  | error e => simp
  | ok mined =>
    constructor
    · intro h
      exact ⟨mined, rfl, (Except.ok.inj h).symm⟩
    · rintro ⟨_, h, rfl⟩
      cases h
      rfl

theorem unambiguous_parts (hhash : ∀ bytes, ':' ∉ (hashBytes bytes).toList)
    (read : String → Option (List UInt8)) (now : OffsetDateTime) :
    (∀ part ∈ (request.run config checkout hashBytes read now).parts, ':' ∉ part) ↔
      ':' ∉ (request.wingName config).toList ∧
        ∀ branch, request.branchName checkout = some branch → ':' ∉ branch.toList := by
  have hkind : ':' ∉ (request.run config checkout hashBytes read now).ingestKind.toList := by
    unfold ProjectRun.ingestKind
    split <;> decide
  have hroot : ':' ∉ (request.run config checkout hashBytes read now).projectRootKey.toList :=
    hhash _
  unfold ProjectRun.parts
  simp only [List.map_cons, List.map_nil, List.mem_append, List.mem_cons, List.mem_map,
    List.not_mem_nil, or_false, Option.mem_toList]
  constructor
  · intro h
    exact ⟨h _ (.inl (.inr (.inl rfl))), fun branch hb => h _ (.inr ⟨branch, hb, rfl⟩)⟩
  · rintro ⟨hw, hb⟩ part ((rfl | rfl | rfl) | ⟨branch, hbranch, rfl⟩)
    · exact hkind
    · exact hw
    · exact hroot
    · exact hb branch hbranch

theorem prepare_empty (hashBytes : List UInt8 → String) (read : String → Option (List UInt8))
    {file : ProjectSource} (hread : read file.absolutePath = some []) (fingerprint : String)
    (rooms : List ProjectRoomConfig) :
    ∃ prepared, prepareFileChunks hashBytes read file fingerprint rooms = .ok prepared := by
  obtain ⟨_, prepared, -, -, h, -⟩ :=
    @prepareFileChunks_ok hashBytes read file [] [] hread (by decide) fingerprint rooms
  exact ⟨prepared, h⟩

theorem prepare_unreadable (hashBytes : List UInt8 → String)
    (read : String → Option (List UInt8)) {file : ProjectSource}
    (hread : read file.absolutePath = none) (fingerprint : String)
    (rooms : List ProjectRoomConfig) :
    prepareFileChunks hashBytes read file fingerprint rooms = .error (.io file.absolutePath) := by
  unfold prepareFileChunks readTextDocument
  rw [hread]
  rfl

theorem takeover_inexact (hhash : ∀ bytes, ':' ∉ (hashBytes bytes).toList)
    (hwing : ∃ wing, WingId.normalized (request.wingName config) = .ok wing)
    (hlimit : request.limit = none) (hdry : request.dryRun = false)
    (hcomplete : checkout.complete = true) (hbranch : request.branchName checkout = none)
    (hplain : ':' ∉ (request.wingName config).toList) {rel other : String}
    (hrel : rel ∈ request.paths checkout) (hother : other ∈ request.paths checkout)
    (htakeover : rel = request.wingName config ++ ":" ++
      stableProjectRootKey hashBytes checkout.repoId ++ ":" ++ other)
    (h : ∀ (read : String → Option (List UInt8)) (now : OffsetDateTime)
      (tombstones : List String) (before after : FileTable),
      Recorded (request.run config checkout hashBytes read now) (request.deletedPaths checkout)
        tombstones before →
      ingestProject hashBytes read now request config checkout tombstones before = .ok after →
      ExactMine (request.run config checkout hashBytes read now) (request.paths checkout)
        (request.deletedPaths checkout) tombstones before after) : False := by
  let read : String → Option (List UInt8) := fun path =>
    if path = checkout.root ++ "/" ++ rel then some [] else none
  let run := request.run config checkout hashBytes read ⟨0, 0⟩
  have hdeleted : request.deletedPaths checkout = [] := deletedPaths_canonical hbranch
  have hprepared : ∃ prepared, run.prepare rel = .ok prepared :=
    prepare_empty hashBytes read (if_pos rfl) _ _
  have hunreadable : ∀ path ≠ rel, ∃ file, run.prepare path = .error (.io file) := by
    intro path hne
    refine ⟨_, prepare_unreadable hashBytes read (if_neg fun heq => hne ?_) _ _⟩
    have := congrArg String.toList heq
    simp only [String.toList_append] at this
    exact String.toList_inj.1 (List.append_cancel_left this)
  let row : IngestFileRecord :=
    { sourceKey := run.sourceKey other, sourceFile := other, contentHash := ""
      lastIngestedAt := ⟨0, 0⟩, ingestKind := "projects", drawerCount := 0 }
  have hbefore : ∀ key, Stored (recordSource Table.empty row) key ↔ key = run.sourceKey other := by
    intro key
    rw [stored_recordSource]
    exact or_iff_left fun ⟨_, hempty⟩ => by cases hempty
  have hsafe : ∀ path, run.prepare path ≠ .error .panic := by
    intro path hpanic
    by_cases hpath : path = rel
    · obtain ⟨_, hok⟩ := hprepared
      rw [hpath, hok] at hpanic
      cases hpanic
    · obtain ⟨_, herror⟩ := hunreadable path hpath
      rw [herror] at hpanic
      cases hpanic
  obtain ⟨mined, hmine⟩ := mineFiles_ok hsafe (request.paths checkout)
    (request.deletedPaths checkout) [] (recordSource Table.empty row)
  have hexact := h read ⟨0, 0⟩ [] (recordSource Table.empty row) _ (fun _ _ h => by cases h)
    ((ingestProject_ok hwing hlimit hcomplete).2 ⟨mined, hmine, rfl⟩)
  have hstored := ((hexact.stored other).2 (.inl ⟨hother, .inl ((hbefore _).2 rfl)⟩))
  rw [ProjectRun.stored_cleanup hdry rfl rfl deletedPaths_canonical] at hstored
  obtain ⟨listed, hlisted, hmined⟩ := bind_ok hmine
  rw [hdeleted] at hmined
  obtain rfl := Except.ok.inj hmined
  obtain ⟨prepared, hprepared⟩ := hprepared
  have hwrites : run.dryRun = false := hdry
  refine taken_over hwrites hbranch hplain (hhash _) htakeover ?_ hprepared hlisted ?_
    (.inl hrel) hstored.1
  · intro path hne prepared hok
    obtain ⟨_, herror⟩ := hunreadable path hne
    rw [herror] at hok
    cases hok
  · rintro ⟨hnew, -⟩
    have hsame := run.sourceKey_inj ((hbefore _).1 hnew)
    have := congrArg (fun s : String => s.toList.length) (hsame ▸ htakeover)
    simp only [String.toList_append, List.length_append] at this
    have : ":".toList.length = 1 := rfl
    omega

/-- **A mine is exact** whatever is in the files and in the store, if and only if it found nothing
or its keys are unambiguous. -/
theorem ingestProject_exact_iff (hhash : ∀ bytes, ':' ∉ (hashBytes bytes).toList)
    (hwing : ∃ wing, WingId.normalized (request.wingName config) = .ok wing)
    (hlimit : request.limit = none) (hdry : request.dryRun = false)
    (hcomplete : checkout.complete = true) :
    (∀ (read : String → Option (List UInt8)) (now : OffsetDateTime) (tombstones : List String)
      (before after : FileTable),
      Recorded (request.run config checkout hashBytes read now) (request.deletedPaths checkout)
        tombstones before →
      ingestProject hashBytes read now request config checkout tombstones before = .ok after →
      ExactMine (request.run config checkout hashBytes read now) (request.paths checkout)
        (request.deletedPaths checkout) tombstones before after) ↔
    request.paths checkout ++ request.deletedPaths checkout = [] ∨
      Unambiguous hashBytes request config checkout := by
  have hcanonical := @deletedPaths_canonical request checkout
  constructor
  · intro h
    by_contra hcon
    obtain ⟨hsome, hambiguous⟩ := not_or.1 hcon
    by_cases hcolon : ':' ∉ (request.wingName config).toList ∧
        ∀ branch, request.branchName checkout = some branch → ':' ∉ branch.toList
    · -- a path that takes over another one is read, the other one is not
      have hpaths : ¬ (request.branchName checkout = none → NoTakeover (request.wingName config)
          (stableProjectRootKey hashBytes checkout.repoId) (request.paths checkout)) :=
        fun hpaths => hambiguous ⟨hcolon.1, hcolon.2, hpaths⟩
      obtain ⟨hbranch, hpaths⟩ := Classical.not_imp.1 hpaths
      simp only [NoTakeover, not_forall, not_not] at hpaths
      obtain ⟨rel, hrel, other, hother, htakeover⟩ := hpaths
      exact takeover_inexact hhash hwing hlimit hdry hcomplete hbranch hcolon.1 hrel hother
        htakeover h
    · -- every file is read, and the longest path is removed again
      have hparts : ∃ part ∈ (request.run config checkout hashBytes (fun _ => some []) ⟨0, 0⟩).parts,
          ':' ∈ part := by
        by_contra hplain
        refine hcolon ((unambiguous_parts hhash (fun _ => some []) ⟨0, 0⟩).1 fun part hpart hmem => ?_)
        exact hplain ⟨part, hpart, hmem⟩
      obtain ⟨rel, hrel, hremoved⟩ := longest_removed hdry hcanonical hparts hsome
      have hprepare : ∀ path, ∃ prepared, (request.run config checkout hashBytes
          (fun _ => some []) ⟨0, 0⟩).prepare path = .ok prepared :=
        fun path => prepare_empty hashBytes _ rfl _ _
      obtain ⟨mined, hmine⟩ := mineFiles_ok (fun path hpanic => by
        obtain ⟨_, hok⟩ := hprepare path
        rw [hok] at hpanic
        cases hpanic) (request.paths checkout) (request.deletedPaths checkout) [] Table.empty
      have hexact := h (fun _ => some []) ⟨0, 0⟩ [] Table.empty _ (fun _ _ h => by cases h)
        ((ingestProject_ok hwing hlimit hcomplete).2 ⟨mined, hmine, rfl⟩)
      refine hremoved mined ((hexact.stored rel).2 ?_)
      exact (List.mem_append.1 hrel).imp_left fun hrel => ⟨hrel, .inr (hprepare rel)⟩
  · rintro (hnone | hplain) read now tombstones before after hrecorded hok
    · obtain ⟨mined, hmine, rfl⟩ := (ingestProject_ok hwing hlimit hcomplete).1 hok
      obtain ⟨hpaths, hdeleted⟩ := List.append_eq_nil_iff.1 hnone
      refine ⟨fun rel => ?_, fun _ _ rel hrel => ?_⟩
      · rw [ProjectRun.stored_cleanup hdry rfl rfl hcanonical, hnone, hpaths, hdeleted]
        simp
      · rw [hpaths] at hrel
        cases hrel
    · obtain ⟨mined, hmine, rfl⟩ := (ingestProject_ok hwing hlimit hcomplete).1 hok
      refine exact_of_plain hdry hcanonical ((unambiguous_parts hhash read now).2
        ⟨hplain.wing, hplain.branch⟩) ?_ hrecorded hmine
      intro files rel hrel other hother
      cases hbranch : request.branchName checkout with
      | some branch =>
        intro hmigrated
        have hnone := (migrated_found hmigrated).1
        exact absurd (hbranch.symm.trans hnone) (by simp)
      | none =>
        rw [hcanonical hbranch, List.append_nil] at hother
        exact migrated_ne hplain.wing hhash hplain.paths files hrel hother

end

/-! ### Mines of one file -/

def hexDigit (n : Nat) : Char := "0123456789abcdef".toList.getD n '0'

/-- Two digits for each byte. -/
def hexHash (bytes : List UInt8) : String :=
  String.ofList (bytes.flatMap fun b => [hexDigit (b.toNat / 16), hexDigit (b.toNat % 16)])

theorem hexHash_plain (bytes : List UInt8) : ':' ∉ (hexHash bytes).toList := by
  have hdigit : ∀ n, hexDigit n ≠ ':' := by
    intro n
    by_cases hn : n < 16
    · have hall : ∀ n < 16, hexDigit n ≠ ':' := by decide
      exact hall n hn
    · unfold hexDigit
      rw [List.getD_eq_getElem?_getD, List.getElem?_eq_none (by simpa using hn)]
      decide
  unfold hexHash
  rw [String.toList_ofList, List.mem_flatMap]
  rintro ⟨b, -, hmem⟩
  simp only [List.mem_cons, List.not_mem_nil, or_false] at hmem
  exact hmem.elim (fun h => hdigit _ h.symm) fun h => hdigit _ h.symm

def mineAll : ProjectIngestRequest := ⟨none, false, none, none, false, false⟩

def notesCheckout : Checkout := ⟨"/work", "agentpalace", none, ["notes.txt"], true, [], []⟩

/-- A mine of one empty file into an empty table. -/
theorem ingestProject_exact_sample : ∃ after,
    ingestProject hexHash (fun _ => some []) ⟨0, 0⟩ mineAll ⟨"code", []⟩ notesCheckout []
      Table.empty = .ok after ∧
    ExactMine (mineAll.run ⟨"code", []⟩ notesCheckout hexHash (fun _ => some []) ⟨0, 0⟩)
      ["notes.txt"] [] [] Table.empty after := by
  have hsome : (ingestProject hexHash (fun _ => some []) ⟨0, 0⟩ mineAll ⟨"code", []⟩ notesCheckout []
      Table.empty).toOption.isSome = true := by decide +kernel
  cases hrun : ingestProject hexHash (fun _ => some []) ⟨0, 0⟩ mineAll ⟨"code", []⟩ notesCheckout []
      Table.empty with
  | error e =>
    rw [hrun] at hsome
    cases hsome
  | ok after =>
    refine ⟨after, rfl, ?_⟩
    refine (ingestProject_exact_iff hexHash_plain ⟨⟨"wing_code"⟩, by decide +kernel⟩ rfl rfl rfl).2
      (.inr ⟨by decide, fun _ h => (by cases h), fun _ rel hrel other hother heq => ?_⟩)
      (fun _ => some []) ⟨0, 0⟩ [] Table.empty after (fun _ _ h => by cases h) hrun
    obtain rfl := List.mem_singleton.1 hrel
    obtain rfl := List.mem_singleton.1 hother
    revert heq
    decide +kernel

/-- A mine of a wing whose name has a colon removes the file it has just written. -/
theorem colon_removes :
    ¬∀ (hashBytes : List UInt8 → String) (request : ProjectIngestRequest) (config : ProjectConfig)
      (checkout : Checkout) (read : String → Option (List UInt8)) (now : OffsetDateTime)
      (tombstones : List String) (before after : FileTable),
      (∀ bytes, ':' ∉ (hashBytes bytes).toList) →
      (∃ wing, WingId.normalized (request.wingName config) = .ok wing) →
      request.limit = none → request.dryRun = false → checkout.complete = true →
      Recorded (request.run config checkout hashBytes read now) (request.deletedPaths checkout)
        tombstones before →
      ingestProject hashBytes read now request config checkout tombstones before = .ok after →
      ExactMine (request.run config checkout hashBytes read now) (request.paths checkout)
        (request.deletedPaths checkout) tombstones before after := by
  intro h
  have hrows : (ingestProject hexHash (fun _ => some []) ⟨0, 0⟩ mineAll ⟨"a:b", []⟩ notesCheckout
      [] Table.empty).toOption.map (·.rows) = some [] := by decide +kernel
  cases hrun : ingestProject hexHash (fun _ => some []) ⟨0, 0⟩ mineAll ⟨"a:b", []⟩ notesCheckout
      [] Table.empty with
  | error e =>
    rw [hrun] at hrows
    cases hrows
  | ok after =>
    rw [hrun] at hrows
    have hexact := h hexHash mineAll ⟨"a:b", []⟩ notesCheckout (fun _ => some []) ⟨0, 0⟩ []
      Table.empty after hexHash_plain ⟨⟨"wing_a_b"⟩, by decide +kernel⟩ rfl rfl rfl
      (fun _ _ h => by cases h) hrun
    obtain ⟨r, hr⟩ := (hexact.stored "notes.txt").2 (.inl ⟨List.mem_cons_self, .inr
      (prepare_empty hexHash _ rfl _ _)⟩)
    have hmem := Table.mem_of_get? hr
    rw [show after.rows = [] from Option.some.inj hrows] at hmem
    cases hmem

end AgentPalace.Ingest
