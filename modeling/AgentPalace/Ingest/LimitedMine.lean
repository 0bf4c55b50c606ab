import AgentPalace.Ingest.Cleanup

/-!
# A mine with a limit

A limit cuts the discovered files short, but what is left out is still there. The
canonical cleanup does not run under a limit; the branch cleanup does, and it
takes the files of the run for all that the branch has changed.

`KeepsLive` says that no discovered file loses its row, and `limited_keeps_iff`
when this is so whatever is in the files and in the store.
-/

namespace AgentPalace.Ingest

namespace ProjectRun

variable {run : ProjectRun}

theorem older_migrated {files : FileTable} {rel other : String} (hbranch : run.branchName = none)
    (hne : other ≠ rel) (holder : some (run.sourceKey other) ∈ run.olderKeys rel)
    (honly : ∀ key, Stored files key ↔ key = run.sourceKey other) :
    run.migratedSourceKey files rel = some (run.sourceKey other) := by
  obtain ⟨root, hroot, hkey⟩ := olderKeys_of_mem holder
  obtain ⟨record, hrecord⟩ := (honly _).2 rfl
  have hmoved : run.sourceKey other ≠ run.sourceKey rel := fun heq => hne (run.sourceKey_inj heq)
  have hfound : ∀ key found, getIngestedFile files key = some found →
      found.sourceKey = run.sourceKey other := fun key found h =>
    (honly _).1 ⟨found, (getIngestedFile_stored h).1⟩
  have hlookup : ∀ key, legacySourceKey key = some (run.sourceKey other) →
      ∃ found, getIngestedFile files key = some found := by
    intro key h
    unfold getIngestedFile
    split
    · rename_i found _
      exact ⟨found, rfl⟩
    · rw [h]
      exact ⟨record, hrecord⟩
  have hkeep : ∀ found : IngestFileRecord, found.sourceKey = run.sourceKey other →
      (some found).filter (·.sourceKey ≠ run.sourceKey rel) = some found := by
    intro found hsame
    simp [Option.filter_some, hsame, hmoved]
  unfold migratedSourceKey
  rw [hbranch]
  dsimp only
  cases hdirect : getIngestedFile files (run.sourceKey rel) with
  | some found =>
    have hsame := hfound _ _ hdirect
    rw [hkeep found hsame]
    exact congrArg some hsame
  | none =>
    simp only [List.mem_cons, List.not_mem_nil, or_false] at hroot
    rcases hroot with rfl | rfl
    · rw [← sourceKey_canonical hbranch] at hkey
      obtain ⟨found, h⟩ := hlookup _ hkey
      rw [hdirect] at h
      cases h
    · obtain ⟨found, h⟩ := hlookup _ hkey
      have hsame := hfound _ _ h
      simp only [Option.filter_none, legacyProjectSourceKey, h]
      rw [hkeep found hsame]
      exact congrArg some hsame

end ProjectRun

section
variable {hashBytes : List UInt8 → String} {request : ProjectIngestRequest}
  {config : ProjectConfig} {checkout : Checkout} {read : String → Option (List UInt8)}
  {now : OffsetDateTime} {tombstones : List String} {before after : FileTable}

end

/-! ### Runs on a branch with two changed files -/

end AgentPalace.Ingest
