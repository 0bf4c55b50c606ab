import AgentPalace.Ingest.Crash
import AgentPalace.Ingest.LimitedMine

/-!
# Dry runs

`ingestProjectWithReplication` is the whole mine on a palace: the loop over the
files, the tombstones of a branch, the cleanups and the effects of a replication.
A dry run only reads. The counts it reports are those of the mine that writes,
unless that mine takes away the row of a file before it comes to it.
-/

namespace AgentPalace.Ingest

/-! ### The mine -/

structure IngestSummary where
  discoveredFiles : Nat := 0
  ignoredFiles : Nat := 0
  unreadableFiles : Nat := 0
  skippedUnchanged : Nat := 0
  ingestedFiles : Nat := 0
  drawersWritten : Nat := 0
  truncatedFiles : Nat := 0
  removedSources : Nat := 0
  viewName : Option String := none
  deriving DecidableEq

/-- The replication of a mine: what it reads of the outbox and the effects it journals. -/
structure ProjectReplication where
  /-- The latest operation of the source holds this file and has not failed. -/
  alreadyQueued : Outbox.OutboxDb → String → PreparedFileChunks → Except StorageError Bool
  /-- `replicate_prepared_source`; without a prepared file the source is removed. -/
  replicate : String → String → Option PreparedFileChunks → List DrawerRecord → PProg Unit
  /-- `recover_replicated_ingestion`. -/
  recover : PProg Unit
  /-- The keys and paths of `failed_ingestion_removals` behind a prefix. -/
  failedRemovals : Outbox.OutboxDb → String → Except StorageError (List (String × String))

inductive MineError where
  | ingest (e : IngestError)
  | storage (e : StorageError)
  | other (message : String)

structure Mine where
  engine : StorageEngine
  hashBytes : List UInt8 → String
  read : String → Option (List UInt8)
  /-- The working tree, or why it could not be discovered. -/
  checkout : Except MineError Checkout
  ignoredFiles : Nat
  /-- `compute_deleted_branch_paths`. -/
  deletedPaths : Except MineError (List String)
  /-- `build_drawers` of a prepared file; the provider may fail. -/
  buildDrawers : String → String → PreparedFileChunks → Except MineError (List DrawerRecord)
  /-- The drawers of a tombstone. -/
  buildTombstone : String → String → Except MineError (List DrawerRecord)
  /-- The paths that have a tombstone among the drawers. -/
  existingTombstones : List DrawerRecord → List String → List String
  /-- The clock when the source of a key is committed. -/
  clock : String → OffsetDateTime × OffsetDateTime

def onEngine {α : Type} (p : PProg α) : Program MineError α := do
  match ← Prog.attempt p with
  | .ok a => return a
  | .error e => throw (.storage e)

def orFail {α : Type} : Except MineError α → Program MineError α
  | .ok a => return a
  | .error e => throw e

def removeOld : Option String → Program MineError Unit
  | some oldKey => onEngine (removeSourceKey oldKey)
  | none => return ()

namespace Mine

variable (m : Mine) (run : ProjectRun) (replication : Option ProjectReplication)

def replaceSource (sk rel contentHash : String) (drawers : List DrawerRecord) :
    Program MineError Unit :=
  onEngine (m.engine.replaceSourceDrawers run.ingestKind sk rel contentHash drawers (m.clock sk).1
    (m.clock sk).2)

def keepSource (sk rel : String) (prepared : PreparedFileChunks) (migrated : Option String) :
    Program MineError Unit := do
  match replication with
  | some replication =>
    if ← onEngine (readDecoded fun s => replication.alreadyQueued s.outbox rel prepared) then
      removeOld migrated
    else
      let drawers ← orFail (m.buildDrawers sk rel prepared)
      onEngine (replication.replicate sk rel (some prepared) drawers)
      if !run.dryRun then
        removeOld migrated
  | none =>
    if !run.dryRun then
      removeOld migrated

def storeSource (sk rel : String) (prepared : PreparedFileChunks) (drawers : List DrawerRecord)
    (migrated : Option String) : Program MineError Unit := do
  match replication with
  | some replication =>
    onEngine (replication.replicate sk rel (some prepared) drawers)
    removeOld migrated
  | none =>
    if !run.dryRun then
      m.replaceSource run sk rel prepared.contentHash drawers
      removeOld migrated

def ingestFile (summary : IngestSummary) (rel : String) : Program MineError IngestSummary :=
  match run.prepare rel with
  | .error (.io _) => return { summary with unreadableFiles := summary.unreadableFiles + 1 }
  | .error e => throw (.ingest (.prepare e))
  | .ok prepared => do
    let sk := run.sourceKey rel
    let lookedUp ← Ingest.read fun s => getIngestedFile s.db.files sk
    let migrated ← Ingest.read fun s => run.migratedSourceKey s.db.files rel
    let currentExisting := lookedUp.filter (·.sourceKey = sk)
    if !run.reindex && currentExisting.any (·.contentHash = prepared.contentHash) then
      m.keepSource run replication sk rel prepared migrated
      return { summary with skippedUnchanged := summary.skippedUnchanged + 1 }
    else if prepared.chunks = [] then
      m.storeSource run replication sk rel prepared [] migrated
      return { summary with
        ingestedFiles := summary.ingestedFiles + 1
        truncatedFiles := summary.truncatedFiles + prepared.truncated.toNat }
    else
      let drawers ← orFail (m.buildDrawers sk rel prepared)
      m.storeSource run replication sk rel prepared drawers migrated
      return { summary with
        ingestedFiles := summary.ingestedFiles + 1
        drawersWritten := summary.drawersWritten + drawers.length
        truncatedFiles := summary.truncatedFiles + prepared.truncated.toNat }

def putTombstones (deleted : List String) (summary : IngestSummary) :
    Program MineError IngestSummary := do
  let existing ← Ingest.read fun s => m.existingTombstones s.drawers deleted
  deleted.foldlM (fun summary rel => do
    let sk := run.sourceKey rel
    if rel ∈ existing then
      return summary
    let drawers ← orFail (m.buildTombstone sk rel)
    m.replaceSource run sk rel (hashText run.hashBytes "Deleted branch path tombstone".toList)
      drawers
    return { summary with drawersWritten := summary.drawersWritten + drawers.length }) summary

def removeSource (key rel : String) : Program MineError Unit :=
  match replication with
  | some replication => onEngine (replication.replicate key rel none [])
  | none => onEngine (removeSourceKey key)

/-- The sources under a prefix whose path is not among the current ones are removed. -/
def sweepSources (keyPrefix : String) (fields : Nat) (current : List String)
    (summary : IngestSummary) : Program MineError IngestSummary := do
  let keys ← Ingest.read fun s => ingestedSourceKeysWithPrefix s.db.files keyPrefix
  keys.foldlM (fun summary key => do
    let rel := field fields key
    if rel ∈ current then
      return summary
    removeSource replication key rel
    return { summary with removedSources := summary.removedSources + 1 }) summary

def retryRemovals (keyPrefix : String) (current : List String) : Program MineError Unit :=
  match replication with
  | some replication => do
    let removals ← onEngine (readDecoded fun s => replication.failedRemovals s.outbox keyPrefix)
    removals.forM fun (key, rel) => do
      if rel ∉ current then
        onEngine (replication.replicate key rel none [])
  | none => return ()

def cleanupCanonical (paths : List String) (summary : IngestSummary) :
    Program MineError IngestSummary := do
  let stablePrefix := run.ingestKind ++ ":" ++ run.wingName ++ ":" ++ run.projectRootKey ++ ":"
  let summary ← sweepSources replication
    (run.ingestKind ++ ":" ++ run.wingName ++ ":" ++ run.legacyRootKey ++ ":") 3 paths summary
  let summary ← sweepSources replication stablePrefix 3 paths summary
  retryRemovals replication stablePrefix paths
  return summary

def cleanupBranch (branch : String) (paths deleted : List String) (summary : IngestSummary) :
    Program MineError IngestSummary :=
  sweepSources none
    (run.ingestKind ++ ":" ++ run.wingName ++ ":" ++ run.projectRootKey ++ ":" ++ branch ++ ":") 4
    (paths ++ deleted) summary

def finish (request : ProjectIngestRequest) (complete : Bool) (paths : List String)
    (summary : IngestSummary) : Program MineError IngestSummary := do
  match run.branchName with
  | none =>
    if complete && request.limit.isNone && !request.dryRun then
      cleanupCanonical run replication paths summary
    else
      return summary
  | some branch =>
    if !request.dryRun then
      let deleted ← orFail m.deletedPaths
      let summary ← m.putTombstones run deleted summary
      cleanupBranch run branch paths deleted summary
    else
      return summary

end Mine

def Mine.mineCheckout (m : Mine) (request : ProjectIngestRequest) (config : ProjectConfig)
    (replication : Option ProjectReplication) (checkout : Checkout) :
    Program MineError IngestSummary := do
  let run := request.run config checkout m.hashBytes m.read ⟨0, 0⟩
  let paths := request.paths checkout
  let summary ← paths.foldlM (m.ingestFile run replication)
    { discoveredFiles := checkout.discovered.length, ignoredFiles := m.ignoredFiles
      viewName := run.branchName }
  m.finish run replication request checkout.complete paths summary

def recoverFirst : Option ProjectReplication → Program MineError Unit
  | some replication => onEngine replication.recover
  | none => return ()

/-- `ingest_project_with_replication`. -/
def ingestProjectWithReplication (m : Mine) (request : ProjectIngestRequest)
    (config : ProjectConfig) (replication : Option ProjectReplication) :
    Program MineError IngestSummary := do
  let _ ← orFail ((WingId.normalized (request.wingName config)).mapError
    fun e => MineError.ingest (.core e))
  let replication := replication.filter fun _ => !request.branchMode && !request.dryRun
  recoverFirst replication
  let checkout ← orFail m.checkout
  m.mineCheckout request config replication checkout

/-! ### A dry run reads -/

def Reads (stmt : Statement) : Prop := stmt = .read

theorem Reads.same {stmt : Statement} (s : Palace) (h : Reads stmt) : stmt.exec s = s := by
  rw [h]
  rfl

section
variable {m : Mine} {run : ProjectRun} {request : ProjectIngestRequest} {config : ProjectConfig}
  {summary : IngestSummary} {rel : String}

theorem only_read {ε α : Type} (f : Palace → α) : (read f : Program ε α).Only Reads :=
  ⟨rfl, fun _ => trivial⟩

theorem only_orFail {α : Type} {P : Statement → Prop} (x : Except MineError α) :
    (orFail x).Only P := by
  cases x <;> trivial

theorem ingestFile_reads (hdry : run.dryRun = true) :
    (m.ingestFile run none summary rel).Only Reads := by
  unfold Mine.ingestFile
  split
  · trivial
  · trivial
  · refine Prog.only_bind (only_read _) fun lookedUp => Prog.only_bind (only_read _) fun _ => ?_
    have hkeep : ∀ sk prepared migrated,
        (m.keepSource run none sk rel prepared migrated).Only Reads :=
      fun _ _ _ => by simp [Mine.keepSource, hdry, Prog.Only, pure]
    have hstore : ∀ sk prepared drawers migrated,
        (m.storeSource run none sk rel prepared drawers migrated).Only Reads :=
      fun _ _ _ _ => by simp [Mine.storeSource, hdry, Prog.Only, pure]
    dsimp only
    split
    · exact Prog.only_bind (hkeep _ _ _) fun _ => trivial
    split
    · exact Prog.only_bind (hstore _ _ _ _) fun _ => trivial
    · exact Prog.only_bind (only_orFail _) fun _ => Prog.only_bind (hstore _ _ _ _) fun _ => trivial

theorem finish_reads {complete : Bool} {paths : List String} (hdry : request.dryRun = true) :
    (m.finish run none request complete paths summary).Only Reads := by
  unfold Mine.finish
  split
  · rw [hdry, Bool.not_true, Bool.and_false, if_neg Bool.false_ne_true]
    trivial
  · rw [hdry, Bool.not_true, if_neg Bool.false_ne_true]
    trivial

theorem mineCheckout_reads {checkout : Checkout} (hdry : request.dryRun = true) :
    (m.mineCheckout request config none checkout).Only Reads := by
  have hfile : ∀ summary rel, (m.ingestFile (request.run config checkout m.hashBytes m.read ⟨0, 0⟩)
      none summary rel).Only Reads := fun _ _ => ingestFile_reads hdry
  exact Prog.only_bind (Prog.only_foldlM hfile _) fun _ => finish_reads hdry

theorem ingest_dry (replication : Option ProjectReplication) (hdry : request.dryRun = true)
    (s : Palace) :
    ((ingestProjectWithReplication m request config replication).run Statement.exec s).2 = s := by
  have hnone : (replication.filter fun _ => !request.branchMode && !request.dryRun) = none := by
    rw [hdry]
    cases replication <;> simp
  unfold ingestProjectWithReplication
  simp only [hnone]
  generalize (WingId.normalized (request.wingName config)).mapError _ = wing
  refine Prog.only_run (P := Reads) ?_ (fun _ => Reads.same) s
  refine Prog.only_bind (only_orFail wing) fun _ => ?_
  have hrecover : (recoverFirst none).Only Reads := trivial
  refine Prog.only_bind hrecover fun _ => Prog.only_bind (only_orFail _) fun checkout => ?_
  exact mineCheckout_reads hdry

/-! ### What one file counts as -/

/-- The counts that a dry run and a mine have in common. -/
structure Counts where
  discovered : Nat
  unreadable : Nat
  skipped : Nat
  ingested : Nat
  deriving DecidableEq

def IngestSummary.counts (summary : IngestSummary) : Counts :=
  ⟨summary.discoveredFiles, summary.unreadableFiles, summary.skippedUnchanged,
    summary.ingestedFiles⟩

inductive Outcome where
  | unreadable
  | skipped
  | ingested
  deriving DecidableEq

def Counts.add (c : Counts) : Outcome → Counts
  | .unreadable => { c with unreadable := c.unreadable + 1 }
  | .skipped => { c with skipped := c.skipped + 1 }
  | .ingested => { c with ingested := c.ingested + 1 }

/-- What a file counts as, from its content and its row. -/
def ProjectRun.outcome (run : ProjectRun) (files : FileTable) (rel : String) : Outcome :=
  match run.prepare rel with
  | .error _ => .unreadable
  | .ok prepared =>
    if !run.reindex &&
        (files.get? (run.sourceKey rel)).any (·.contentHash = prepared.contentHash) then .skipped
    else .ingested

theorem getIngestedFile_current (files : FileTable) (sk : String) :
    (getIngestedFile files sk).filter (·.sourceKey = sk) = files.get? sk := by
  unfold getIngestedFile
  cases hexact : files.get? sk with
  | some r => simp [Option.filter_some, Table.get?_key hexact]
  | none =>
    rw [Option.filter_eq_none_iff]
    rintro r hr
    obtain ⟨key, -, hkey⟩ := Option.bind_eq_some_iff.1 hr
    have hne : r.sourceKey ≠ sk := fun heq => by
      have hkey' := Table.get?_key hkey
      rw [← hkey', heq, hexact] at hkey
      cases hkey
    simpa using hne

/-- The rows of all keys but one, and of another one if there is one, are as before. -/
structure KeepsOthers (sk : String) (old : Option String) (s s' : Palace) : Prop where
  wf : Wf s'.db
  rows : ∀ key, key ≠ sk → old ≠ some key → s'.db.files.get? key = s.db.files.get? key

variable {s s' : Palace} {sk contentHash : String} {drawers : List DrawerRecord}
  {old : Option String} {summary' : IngestSummary}

theorem onEngine_ok {α : Type} {p : PProg α} {a : α} :
    (onEngine p).run Statement.exec s = (.ok a, s') ↔ p.run Statement.exec s = (.ok a, s') := by
  unfold onEngine
  rw [Prog.run_bind_ok]
  simp only [Prog.run_attempt]
  constructor
  · rintro ⟨r, t, hp, hr⟩
    obtain ⟨hresult, rfl⟩ := Prod.mk.inj hp
    obtain rfl := Except.ok.inj hresult
    cases hrun : (p.run Statement.exec s).1 with
    | ok b =>
      rw [hrun] at hr
      obtain ⟨hb, hs⟩ := Prod.mk.inj hr
      exact Prod.ext (hrun.trans (congrArg Except.ok (Except.ok.inj hb))) hs
    | error e =>
      rw [hrun] at hr
      cases congrArg Prod.fst hr
  · intro hp
    rw [hp]
    exact ⟨_, _, rfl, rfl⟩

theorem orFail_ok {α : Type} {x : Except MineError α} {a : α} :
    (orFail x).run Statement.exec s = (.ok a, s') ↔ x = .ok a ∧ s' = s := by
  cases x with
  | ok b =>
    refine ⟨fun h => ⟨(Prod.mk.inj h).1, (Prod.mk.inj h).2.symm⟩, ?_⟩
    rintro ⟨h, rfl⟩
    exact Prod.ext h rfl
  | error e =>
    refine ⟨fun h => (by cases congrArg Prod.fst h), ?_⟩
    rintro ⟨h, -⟩
    cases h

theorem replaceSource_ok (hdb : Wf s.db)
    (h : (m.replaceSource run sk rel contentHash drawers).run Statement.exec s = (.ok (), s')) :
    KeepsOthers sk none s s' := by
  have hwpc := Prog.wpc_run (@replaceSourceDrawers_wpc m.engine s (m.clock sk).1 hdb run.ingestKind
    sk rel contentHash drawers (m.clock sk).2)
  rw [onEngine_ok.1 h] at hwpc
  obtain ⟨_, hcleaned⟩ := hwpc
  cases hcleaned with
  | cleaned hsuperseded _ => exact ⟨hsuperseded.wf, fun key hne _ => hsuperseded.otherFiles key hne⟩

theorem removeOld_ok (hdb : Wf s.db)
    (h : (removeOld old).run Statement.exec s = (.ok (), s')) :
    KeepsOthers sk old s s' := by
  cases old with
  | none =>
    cases h
    exact ⟨hdb, fun _ _ _ => rfl⟩
  | some key =>
    have hwpc := Prog.wpc_run (@removeSourceKey_wpc s hdb key)
    rw [onEngine_ok.1 h] at hwpc
    obtain ⟨_, -, hremoved⟩ := hwpc
    refine ⟨hremoved.wf hdb, fun other _ hne => ?_⟩
    cases hremoved with
    | cleaned hids =>
      have hfiles : (s.db.forget key).files = forgetSource s.db.files key := rfl
      rw [hfiles, forgetSource, Table.get?_deleteWhere]
      cases hrow : s.db.files.get? other with
      | none => rfl
      | some r =>
        have hkey : r.sourceKey ≠ key := fun heq => hne (by rw [← heq, Table.get?_key hrow])
        simp [Option.filter_some, hkey]

theorem keepSource_ok {prepared : PreparedFileChunks} (hdb : Wf s.db)
    (h : (m.keepSource run none sk rel prepared old).run Statement.exec s = (.ok (), s')) :
    KeepsOthers sk old s s' := by
  unfold Mine.keepSource at h
  dsimp only at h
  split at h
  · exact removeOld_ok hdb h
  · cases h
    exact ⟨hdb, fun _ _ _ => rfl⟩

theorem storeSource_ok {prepared : PreparedFileChunks} (hdb : Wf s.db)
    (h : (m.storeSource run none sk rel prepared drawers old).run Statement.exec s =
      (.ok (), s')) : KeepsOthers sk old s s' := by
  unfold Mine.storeSource at h
  dsimp only at h
  split at h
  · obtain ⟨⟨⟩, t, hreplace, hremove⟩ := Prog.run_bind_ok.1 h
    have hfirst := replaceSource_ok hdb hreplace
    have hsecond : KeepsOthers sk old t s' := removeOld_ok hfirst.wf hremove
    refine ⟨hsecond.wf, fun key hne hold => ?_⟩
    rw [hsecond.rows key hne hold, hfirst.rows key hne nofun]
  · cases h
    exact ⟨hdb, fun _ _ _ => rfl⟩

/-- **One turn**: what the file counts as, and whose rows it leaves. -/
theorem ingestFile_ok (hdb : Wf s.db)
    (h : (m.ingestFile run none summary rel).run Statement.exec s = (.ok summary', s')) :
    summary'.counts = summary.counts.add (run.outcome s.db.files rel) ∧
      KeepsOthers (run.sourceKey rel) (run.migratedSourceKey s.db.files rel) s s' := by
  unfold Mine.ingestFile at h
  unfold ProjectRun.outcome
  split at h
  · rename_i hprepare
    cases h
    rw [hprepare]
    exact ⟨rfl, hdb, fun _ _ _ => rfl⟩
  · cases congrArg Prod.fst h
  · rename_i prepared hprepare
    rw [hprepare]
    obtain ⟨lookedUp, t, hlooked, h⟩ := Prog.run_bind_ok.1 h
    cases hlooked
    obtain ⟨migrated, t, hmigrated, h⟩ := Prog.run_bind_ok.1 h
    cases hmigrated
    simp only [getIngestedFile_current] at h
    have hsame : Statement.read.exec (Statement.read.exec s) = s := rfl
    dsimp only
    split at h
    · rename_i hunchanged
      obtain ⟨⟨⟩, t, hkeep, h⟩ := Prog.run_bind_ok.1 h
      cases h
      rw [if_pos hunchanged]
      exact ⟨rfl, keepSource_ok hdb hkeep⟩
    · rename_i hchanged
      rw [if_neg hchanged]
      split at h
      · obtain ⟨⟨⟩, t, hstore, h⟩ := Prog.run_bind_ok.1 h
        cases h
        exact ⟨rfl, storeSource_ok hdb hstore⟩
      · obtain ⟨drawers, t, hbuild, h⟩ := Prog.run_bind_ok.1 h
        obtain ⟨⟨⟩, t', hstore, h⟩ := Prog.run_bind_ok.1 h
        cases h
        obtain ⟨-, rfl⟩ := orFail_ok.1 hbuild
        exact ⟨rfl, storeSource_ok hdb hstore⟩

theorem outcome_congr {files files' : FileTable}
    (h : run.reindex = true ∨ files.get? (run.sourceKey rel) = files'.get? (run.sourceKey rel)) :
    run.outcome files rel = run.outcome files' rel := by
  unfold ProjectRun.outcome
  rcases h with hreindex | hrow
  · rw [hreindex]
    rfl
  · rw [hrow]

def ProjectRun.Independent (run : ProjectRun) (paths : List String) : Prop :=
  paths.Pairwise fun rel other =>
    other ≠ rel ∧ ∀ files, run.migratedSourceKey files rel ≠ some (run.sourceKey other)

/-- The counts of the files, from the rows at the start. -/
def ProjectRun.tally (run : ProjectRun) (files : FileTable) (paths : List String) (c : Counts) :
    Counts :=
  paths.foldl (fun c rel => c.add (run.outcome files rel)) c

/-- **The loop**: what it counts is decided by the rows at its start. -/
theorem ingestFiles_ok {paths : List String} {files : FileTable} (hdb : Wf s.db)
    (hindependent : run.dryRun = true ∨ run.reindex = true ∨ run.Independent paths)
    (hrows : ∀ rel ∈ paths, run.outcome s.db.files rel = run.outcome files rel)
    (h : (paths.foldlM (m.ingestFile run none) summary).run Statement.exec s =
      (.ok summary', s')) :
    summary'.counts = run.tally files paths summary.counts := by
  induction paths generalizing s summary with
  | nil =>
    cases h
    rfl
  | cons rel paths ih =>
    rw [List.foldlM_cons] at h
    obtain ⟨next, t, hfile, h⟩ := Prog.run_bind_ok.1 h
    obtain ⟨hcounts, hkeeps⟩ := ingestFile_ok hdb hfile
    rw [ProjectRun.tally, List.foldl_cons, ← hrows rel List.mem_cons_self, ← hcounts]
    refine ih hkeeps.wf (hindependent.imp id (Or.imp id List.Pairwise.of_cons))
      (fun other hother => ?_) h
    rw [← hrows other (List.mem_cons_of_mem _ hother)]
    rcases hindependent with hdry | hindependent
    · have hreads : (m.ingestFile run none summary rel).Only Reads := ingestFile_reads hdry
      have hsame := Prog.only_run hreads (fun _ => Reads.same) s
      rw [hfile] at hsame
      rw [show t = s from hsame]
    · refine outcome_congr (hindependent.imp id fun hpairs => ?_)
      obtain ⟨hne, hkept⟩ := List.rel_of_pairwise_cons hpairs hother
      exact hkeeps.rows _ (fun heq => hne (run.sourceKey_inj heq)) (hkept _)

theorem finish_ok {complete : Bool} {paths : List String}
    (h : (m.finish run none request complete paths summary).run Statement.exec s =
      (.ok summary', s')) : summary'.counts = summary.counts := by
  have hsweep : ∀ {keyPrefix fields current summary summary' s s'},
      (Mine.sweepSources none keyPrefix fields current summary).run Statement.exec s =
        (.ok summary', s') → summary'.counts = summary.counts := by
    intro keyPrefix fields current summary summary' s s' h
    obtain ⟨keys, t, -, h⟩ := Prog.run_bind_ok.1 h
    refine Prog.run_foldlM_ok (I := fun _ b _ => b.counts = summary.counts)
      (fun key keys b b' s s' hb hkey => ?_) rfl h
    dsimp only at hkey
    split at hkey
    · cases hkey
      exact hb
    · obtain ⟨_, _, -, hkey⟩ := Prog.run_bind_ok.1 hkey
      cases hkey
      exact hb
  unfold Mine.finish at h
  split at h
  · split at h
    · obtain ⟨first, t, hfirst, h⟩ := Prog.run_bind_ok.1 h
      obtain ⟨second, t', hsecond, h⟩ := Prog.run_bind_ok.1 h
      obtain ⟨_, _, -, h⟩ := Prog.run_bind_ok.1 h
      cases h
      exact (hsweep hsecond).trans (hsweep hfirst)
    · cases h
      rfl
  · split at h
    · obtain ⟨deleted, t, -, h⟩ := Prog.run_bind_ok.1 h
      obtain ⟨first, t', hfirst, h⟩ := Prog.run_bind_ok.1 h
      refine (hsweep h).trans ?_
      obtain ⟨existing, _, -, hfirst⟩ := Prog.run_bind_ok.1 hfirst
      refine Prog.run_foldlM_ok (I := fun _ b _ => b.counts = summary.counts)
        (fun rel rest b b' s s' hb hrel => ?_) rfl hfirst
      dsimp only at hrel
      split at hrel
      · cases hrel
        exact hb
      · obtain ⟨_, _, -, hrel⟩ := Prog.run_bind_ok.1 hrel
        obtain ⟨_, _, -, hrel⟩ := Prog.run_bind_ok.1 hrel
        cases hrel
        exact hb
    · cases h
      rfl

theorem ingest_counts {checkout : Checkout} (hdb : Wf s.db) (hcheckout : m.checkout = .ok checkout)
    (hindependent : request.dryRun = true ∨ request.reindex = true ∨
      (request.run config checkout m.hashBytes m.read ⟨0, 0⟩).Independent (request.paths checkout))
    (h : (ingestProjectWithReplication m request config none).run Statement.exec s =
      (.ok summary', s')) :
    summary'.counts = (request.run config checkout m.hashBytes m.read ⟨0, 0⟩).tally s.db.files
      (request.paths checkout) ⟨checkout.discovered.length, 0, 0, 0⟩ := by
  unfold ingestProjectWithReplication at h
  simp only [Option.filter_none] at h
  generalize (WingId.normalized (request.wingName config)).mapError _ = normalized at h
  obtain ⟨wing, t, hwing, hrest⟩ := Prog.run_bind_ok.1 h
  obtain ⟨⟨⟩, t', hrecover, hrest⟩ := Prog.run_bind_ok.1 hrest
  obtain ⟨checkout', t'', hgiven, hmine⟩ := Prog.run_bind_ok.1 hrest
  obtain ⟨-, rfl⟩ := orFail_ok.1 hwing
  obtain ⟨-, rfl⟩ := Prod.mk.inj hrecover
  obtain ⟨heq, rfl⟩ := orFail_ok.1 hgiven
  obtain rfl := Except.ok.inj (hcheckout.symm.trans heq)
  obtain ⟨mined, u, hmined, hfinish⟩ := Prog.run_bind_ok.1 hmine
  rw [finish_ok hfinish]
  exact ingestFiles_ok hdb hindependent (fun _ _ => rfl) hmined

/-! ### Mines that go through -/

variable (m run rel contentHash) in
theorem replaceSource_runs (hdb : Wf s.db) (hroom : s.db.lastRunId < maxRowid)
    (hfresh : ∀ r ∈ s.db.runs.rows, r.sourceKey ≠ sk) :
    ∃ s', (m.replaceSource run sk rel contentHash []).run Statement.exec s = (.ok (), s') ∧
      Superseded s.db (replacement run.ingestKind sk rel contentHash []) s'.db := by
  obtain ⟨_, hwpc⟩ := Prog.wpc_run (@replaceSourceDrawers_wpc m.engine s (m.clock sk).1 hdb
    run.ingestKind sk rel contentHash [] (m.clock sk).2)
  cases hresult : ((m.engine.replaceSourceDrawers run.ingestKind sk rel contentHash []
    (m.clock sk).1 (m.clock sk).2).run Statement.exec s).1 with
  | ok u =>
    rw [hresult] at hwpc
    obtain ⟨s', hs'⟩ : ∃ s', s' = (Prog.run Statement.exec (m.engine.replaceSourceDrawers
      run.ingestKind sk rel contentHash [] (m.clock sk).1 (m.clock sk).2) s).2 := ⟨_, rfl⟩
    rw [← hs'] at hwpc
    refine ⟨s', onEngine_ok.2 (Prod.ext hresult hs'.symm), ?_⟩
    cases hwpc with
    | cleaned hsuperseded _ => exact hsuperseded
  | error e =>
    rw [hresult] at hwpc
    refine absurd ⟨List.nodup_nil, nofun, hroom, ?_⟩ hwpc.2
    unfold IngestDb.sameRun
    rw [List.any_eq_false]
    intro r hr
    simp [replacement, hfresh r hr]

theorem removeOld_runs (hdb : Wf s.db) (old : Option String) :
    ∃ s', (removeOld old).run Statement.exec s = (.ok (), s') ∧ Wf s'.db ∧
      s'.db = old.elim s.db s.db.forget := by
  cases old with
  | none => exact ⟨s, rfl, hdb, rfl⟩
  | some key =>
    obtain ⟨_, hok, hremoved⟩ := Prog.wpc_run (@removeSourceKey_wpc s hdb key)
    obtain ⟨s', hs'⟩ : ∃ s', s' = (Prog.run Statement.exec (removeSourceKey key) s).2 := ⟨_, rfl⟩
    rw [← hs'] at hremoved
    refine ⟨s', onEngine_ok.2 (Prod.ext hok hs'.symm), hremoved.wf hdb, ?_⟩
    cases hremoved with
    | cleaned _ => rfl

theorem run_read_bind {ε α β : Type} (f : Palace → α) (g : α → Program ε β) (s : Palace) :
    (read f >>= g).run Statement.exec s = (g (f s)).run Statement.exec s := rfl

variable (summary) in
theorem ingestFile_runs {prepared : PreparedFileChunks} (hprepare : run.prepare rel = .ok prepared)
    (hnew : s.db.files.get? (run.sourceKey rel) = none)
    (hbuild : ∀ sk rel prepared, m.buildDrawers sk rel prepared = .ok [])
    (hstore : (m.storeSource run none (run.sourceKey rel) rel prepared []
      (run.migratedSourceKey s.db.files rel)).run Statement.exec s = (.ok (), s')) :
    ∃ summary', (m.ingestFile run none summary rel).run Statement.exec s = (.ok summary', s') := by
  unfold Mine.ingestFile
  rw [hprepare]
  have hnone : (getIngestedFile s.db.files (run.sourceKey rel)).filter
      (·.sourceKey = run.sourceKey rel) = none := by rw [getIngestedFile_current, hnew]
  dsimp only
  by_cases hchunks : prepared.chunks = []
  · refine ⟨{ summary with
      ingestedFiles := summary.ingestedFiles + 1
      truncatedFiles := summary.truncatedFiles + prepared.truncated.toNat }, ?_⟩
    rw [run_read_bind, run_read_bind, hnone, if_neg (by simp), if_pos hchunks]
    exact Prog.run_bind_ok.2 ⟨(), s', hstore, rfl⟩
  · refine ⟨{ summary with
      ingestedFiles := summary.ingestedFiles + 1
      drawersWritten := summary.drawersWritten + 0
      truncatedFiles := summary.truncatedFiles + prepared.truncated.toNat }, ?_⟩
    rw [run_read_bind, run_read_bind, hnone, if_neg (by simp), if_neg hchunks, hbuild]
    exact Prog.run_bind_ok.2 ⟨[], s, rfl, Prog.run_bind_ok.2 ⟨(), s', hstore, rfl⟩⟩

theorem ingestFile_unreadable {path : String} (hprepare : run.prepare rel = .error (.io path)) :
    (m.ingestFile run none summary rel).run Statement.exec s =
      (.ok { summary with unreadableFiles := summary.unreadableFiles + 1 }, s) := by
  unfold Mine.ingestFile
  rw [hprepare]
  rfl

variable (summary) in
theorem sweepSources_runs (hdb : Wf s.db) (keyPrefix : String) (fields : Nat)
    (current : List String) : ∃ summary' s',
      (Mine.sweepSources none keyPrefix fields current summary).run Statement.exec s =
        (.ok summary', s') ∧ Wf s'.db := by
  have hfold : ∀ (keys : List String) (summary : IngestSummary) (s : Palace), Wf s.db →
      ∃ summary' s', (keys.foldlM (fun summary key => do
        let rel := field fields key
        if rel ∈ current then
          return summary
        Mine.removeSource none key rel
        return { summary with removedSources := summary.removedSources + 1 }) summary :
          Program MineError IngestSummary).run Statement.exec s = (.ok summary', s') ∧
        Wf s'.db := by
    intro keys
    induction keys with
    | nil => exact fun summary s hdb => ⟨summary, s, rfl, hdb⟩
    | cons key keys ih =>
      intro summary s hdb
      rw [List.foldlM_cons]
      by_cases hcurrent : field fields key ∈ current
      · obtain ⟨summary', s', hrun, hwf⟩ := ih summary s hdb
        refine ⟨summary', s', Prog.run_bind_ok.2 ⟨summary, s, ?_, hrun⟩, hwf⟩
        rw [if_pos hcurrent]
        rfl
      · obtain ⟨t, hremove, hwf, -⟩ := removeOld_runs hdb (some key)
        obtain ⟨summary', s', hrun, hwf'⟩ := ih _ t hwf
        refine ⟨summary', s', Prog.run_bind_ok.2 ⟨_, t, ?_, hrun⟩, hwf'⟩
        rw [if_neg hcurrent]
        exact Prog.run_bind_ok.2 ⟨(), t, hremove, rfl⟩
  obtain ⟨summary', s', hrun, hwf⟩ := hfold (ingestedSourceKeysWithPrefix s.db.files keyPrefix)
    summary s hdb
  exact ⟨summary', s', Prog.run_bind_ok.2 ⟨_, s, rfl, hrun⟩, hwf⟩

theorem finish_runs {complete : Bool} {paths : List String} (hdeleted : m.deletedPaths = .ok [])
    (hdb : Wf s.db) : ∃ summary' s',
      (m.finish run none request complete paths summary).run Statement.exec s =
        (.ok summary', s') := by
  unfold Mine.finish
  split <;> split
  · obtain ⟨first, t, hfirst, hwf⟩ := sweepSources_runs summary hdb
      (run.ingestKind ++ ":" ++ run.wingName ++ ":" ++ run.legacyRootKey ++ ":") 3 paths
    obtain ⟨second, t', hsecond, -⟩ := sweepSources_runs first hwf
      (run.ingestKind ++ ":" ++ run.wingName ++ ":" ++ run.projectRootKey ++ ":") 3 paths
    exact ⟨second, t', Prog.run_bind_ok.2 ⟨first, t, hfirst,
      Prog.run_bind_ok.2 ⟨second, t', hsecond, rfl⟩⟩⟩
  · exact ⟨summary, s, rfl⟩
  · rename_i branch _ _
    obtain ⟨summary', s', hsweep, -⟩ := sweepSources_runs summary hdb (run.ingestKind ++ ":" ++
      run.wingName ++ ":" ++ run.projectRootKey ++ ":" ++ branch ++ ":") 4 (paths ++ [])
    exact ⟨summary', s', Prog.run_bind_ok.2 ⟨[], s, orFail_ok.2 ⟨hdeleted, rfl⟩,
      Prog.run_bind_ok.2 ⟨summary, s, rfl, hsweep⟩⟩⟩
  · exact ⟨summary, s, rfl⟩

variable (m rel) in
theorem storeSource_runs (prepared : PreparedFileChunks) (hdry : run.dryRun = false)
    (hdb : Wf s.db) (hroom : s.db.lastRunId < maxRowid)
    (hfresh : ∀ r ∈ s.db.runs.rows, r.sourceKey ≠ sk) (old : Option String) :
    ∃ t s' : Palace,
      (m.storeSource run none sk rel prepared [] old).run Statement.exec s = (.ok (), s') ∧
      Superseded s.db (replacement run.ingestKind sk rel prepared.contentHash []) t.db ∧
      s'.db = old.elim t.db t.db.forget := by
  obtain ⟨t, hreplace, hsuperseded⟩ := replaceSource_runs m run rel prepared.contentHash
    hdb hroom hfresh
  obtain ⟨s', hremove, -, hforget⟩ := removeOld_runs hsuperseded.wf old
  refine ⟨t, s', ?_, hsuperseded, hforget⟩
  unfold Mine.storeSource
  dsimp only
  rw [hdry, Bool.not_false, if_pos rfl]
  exact Prog.run_bind_ok.2 ⟨(), t, hreplace, hremove⟩

variable (s summary) in
theorem ingestFile_dry (hdry : run.dryRun = true) (hprepare : run.prepare rel ≠ .error .panic)
    (hbuild : ∀ sk rel prepared, m.buildDrawers sk rel prepared = .ok []) :
    ∃ summary', (m.ingestFile run none summary rel).run Statement.exec s = (.ok summary', s) := by
  unfold Mine.ingestFile
  cases hfile : run.prepare rel with
  | error e =>
    cases e with
    | io path => exact ⟨_, rfl⟩
    | panic => exact absurd hfile hprepare
  | ok prepared =>
    have hkeep : ∀ migrated, (m.keepSource run none (run.sourceKey rel) rel prepared
        migrated).run Statement.exec s = (.ok (), s) := fun _ => by
      simp only [Mine.keepSource, hdry, Bool.not_true, Bool.false_eq_true, if_false]
      rfl
    have hstore : ∀ drawers migrated, (m.storeSource run none (run.sourceKey rel) rel prepared
        drawers migrated).run Statement.exec s = (.ok (), s) := fun _ _ => by
      simp only [Mine.storeSource, hdry, Bool.not_true, Bool.false_eq_true, if_false]
      rfl
    simp only [run_read_bind]
    split
    · exact ⟨_, Prog.run_bind_ok.2 ⟨(), s, hkeep _, rfl⟩⟩
    split
    · exact ⟨_, Prog.run_bind_ok.2 ⟨(), s, hstore _ _, rfl⟩⟩
    · rw [hbuild]
      exact ⟨_, Prog.run_bind_ok.2 ⟨[], s, rfl, Prog.run_bind_ok.2 ⟨(), s, hstore _ _, rfl⟩⟩⟩

theorem ingestFiles_dry (hdry : run.dryRun = true)
    (hprepare : ∀ rel, run.prepare rel ≠ .error .panic)
    (hbuild : ∀ sk rel prepared, m.buildDrawers sk rel prepared = .ok []) (paths : List String) :
    ∃ summary', (paths.foldlM (m.ingestFile run none) summary).run Statement.exec s =
      (.ok summary', s) := by
  induction paths generalizing summary with
  | nil => exact ⟨summary, rfl⟩
  | cons rel paths ih =>
    obtain ⟨next, hfile⟩ := ingestFile_dry summary s hdry (hprepare rel) hbuild
    obtain ⟨summary', hrest⟩ := @ih next
    exact ⟨summary', Prog.run_bind_ok.2 ⟨next, s, hfile, hrest⟩⟩

/-! ### A file that loses its row before its turn -/

/-- Before the turn of `rel` the row of `other` is the only one, before that of `other` it is
gone. -/
def BeforeTurns (run : ProjectRun) (rel other : String) (paths : List String) (s : Palace) : Prop :=
  ([rel, other].Sublist paths ∧ (∀ key, Stored s.db.files key ↔ key = run.sourceKey other) ∧
    s.db.runs.rows = [] ∧ s.db.lastRunId = 0) ∨
  (rel ∉ paths ∧ ¬ Stored s.db.files (run.sourceKey other) ∧
    (∀ r ∈ s.db.runs.rows, r.sourceKey ≠ run.sourceKey other) ∧ s.db.lastRunId ≤ 1) ∨
  (rel ∉ paths ∧ other ∉ paths)

theorem row_none {files : FileTable} {key : String} (h : ¬ Stored files key) :
    files.get? key = none := by
  cases hrow : files.get? key with
  | none => rfl
  | some r => exact absurd ⟨r, hrow⟩ h

theorem ingestFile_new {prepared : PreparedFileChunks} {t : Palace} (hdb : Wf s.db)
    (hprepare : run.prepare rel = .ok prepared) (hnew : ¬ Stored s.db.files (run.sourceKey rel))
    (hbuild : ∀ sk rel prepared, m.buildDrawers sk rel prepared = .ok [])
    (hstore : (m.storeSource run none (run.sourceKey rel) rel prepared []
      (run.migratedSourceKey s.db.files rel)).run Statement.exec s = (.ok (), t)) :
    ∃ next, (m.ingestFile run none summary rel).run Statement.exec s = (.ok next, t) ∧
      next.skippedUnchanged = summary.skippedUnchanged ∧ Wf t.db := by
  obtain ⟨next, hrun⟩ := ingestFile_runs summary hprepare (row_none hnew) hbuild hstore
  obtain ⟨hcounts, hkeeps⟩ := ingestFile_ok hdb hrun
  refine ⟨next, hrun, ?_, hkeeps.wf⟩
  have houtcome : run.outcome s.db.files rel = .ingested := by
    unfold ProjectRun.outcome
    rw [hprepare, row_none hnew]
    simp
  rw [houtcome] at hcounts
  exact congrArg Counts.skipped hcounts

section
variable {other : String} {paths : List String} (hdry : run.dryRun = false)
  (hbranch : run.branchName = none) (hne : other ≠ rel)
  (holder : some (run.sourceKey other) ∈ run.olderKeys rel)
  (hread : ∀ path ∈ [rel, other], ∃ prepared, run.prepare path = .ok prepared)
  (hunreadable : ∀ path, path ≠ rel → path ≠ other → ∃ file, run.prepare path = .error (.io file))
  (hbuild : ∀ sk rel prepared, m.buildDrawers sk rel prepared = .ok [])
include hdry hbranch hne holder hread hbuild

theorem rel_takes (hrel : rel ∉ paths) (hdb : Wf s.db)
    (honly : ∀ key, Stored s.db.files key ↔ key = run.sourceKey other)
    (hruns : s.db.runs.rows = []) (hlast : s.db.lastRunId = 0) :
    ∃ next t, (m.ingestFile run none summary rel).run Statement.exec s = (.ok next, t) ∧
      next.skippedUnchanged = summary.skippedUnchanged ∧ Wf t.db ∧
      BeforeTurns run rel other paths t := by
  obtain ⟨prepared, hprepare⟩ := hread rel (by simp)
  have hmigrated := ProjectRun.older_migrated hbranch hne holder honly
  obtain ⟨t, u, hstore, hsuperseded, hforget⟩ := storeSource_runs m rel prepared hdry hdb
    (by rw [hlast]; decide) (by rw [hruns]; nofun) (run.migratedSourceKey s.db.files rel)
  rw [hmigrated] at hforget
  have hnew : ¬ Stored s.db.files (run.sourceKey rel) := fun h =>
    hne (run.sourceKey_inj ((honly _).1 h)).symm
  obtain ⟨next, hrun, hskipped, hwf⟩ := ingestFile_new hdb hprepare hnew hbuild hstore
  have hfiles : u.db.files = forgetSource t.db.files (run.sourceKey other) := by
    rw [hforget]
    rfl
  refine ⟨next, u, hrun, hskipped, hwf, .inr (.inl ⟨hrel, ?_, ?_, ?_⟩)⟩
  · rw [hfiles, stored_forgetSource]
    exact fun h => h.2 rfl
  · rw [hforget]
    exact fun r hr => (mem_forget_runs.1 hr).2
  · rw [hforget]
    have hlast' := hsuperseded.lastRunId
    rw [hlast] at hlast'
    exact hlast'

include hunreadable in
theorem ingestFile_lose {path : String} (hnodup : (path :: paths).Nodup) (hdb : Wf s.db)
    (hturn : BeforeTurns run rel other (path :: paths) s) :
    ∃ next t, (m.ingestFile run none summary path).run Statement.exec s = (.ok next, t) ∧
      next.skippedUnchanged = summary.skippedUnchanged ∧ Wf t.db ∧
      BeforeTurns run rel other paths t := by
  rw [List.nodup_cons] at hnodup
  by_cases hrel : path = rel
  · subst hrel
    rcases hturn with ⟨-, honly, hruns, hlast⟩ | ⟨hgone, -⟩ | ⟨hgone, -⟩
    · exact rel_takes hdry hbranch hne holder hread hbuild hnodup.1 hdb honly hruns hlast
    · exact absurd List.mem_cons_self hgone
    · exact absurd List.mem_cons_self hgone
  by_cases hother : path = other
  · subst hother
    rcases hturn with ⟨hsub, -⟩ | ⟨hgone, hlost, hruns, hlast⟩ | ⟨-, hgone⟩
    · cases hsub with
      | cons _ hsub => exact absurd (hsub.subset (by simp)) hnodup.1
      | cons_cons _ _ => exact absurd rfl hrel
    · obtain ⟨prepared, hprepare⟩ := hread path (by simp)
      obtain ⟨-, u, hstore, -⟩ := storeSource_runs m path prepared hdry hdb
        (lt_of_le_of_lt hlast (by decide)) hruns (run.migratedSourceKey s.db.files path)
      obtain ⟨next, hrun, hskipped, hwf⟩ := ingestFile_new hdb hprepare hlost hbuild hstore
      exact ⟨next, u, hrun, hskipped, hwf, .inr (.inr
        ⟨fun h => hgone (List.mem_cons_of_mem _ h), hnodup.1⟩)⟩
    · exact absurd List.mem_cons_self hgone
  · obtain ⟨file, hprepare⟩ := hunreadable path hrel hother
    refine ⟨_, s, ingestFile_unreadable hprepare, rfl, hdb, ?_⟩
    rcases hturn with ⟨hsub, h⟩ | ⟨hgone, h⟩ | ⟨hgone, hgone'⟩
    · cases hsub with
      | cons _ hsub => exact .inl ⟨hsub, h⟩
      | cons_cons _ _ => exact absurd rfl hrel
    · exact .inr (.inl ⟨fun h => hgone (List.mem_cons_of_mem _ h), h⟩)
    · exact .inr (.inr ⟨fun h => hgone (List.mem_cons_of_mem _ h),
        fun h => hgone' (List.mem_cons_of_mem _ h)⟩)

include hunreadable in
theorem ingestFiles_lose (hnodup : paths.Nodup) (hdb : Wf s.db)
    (hturn : BeforeTurns run rel other paths s) :
    ∃ summary' s', (paths.foldlM (m.ingestFile run none) summary).run Statement.exec s =
      (.ok summary', s') ∧ summary'.skippedUnchanged = summary.skippedUnchanged ∧ Wf s'.db := by
  induction paths generalizing s summary with
  | nil => exact ⟨summary, s, rfl, rfl, hdb⟩
  | cons path paths ih =>
    obtain ⟨next, t, hrun, hskipped, hwf, hnext⟩ :=
      @ingestFile_lose m run summary rel s other paths hdry hbranch hne holder hread hunreadable
        hbuild path hnodup hdb hturn
    obtain ⟨summary', s', hrest, hskipped', hwf'⟩ := ih (List.nodup_cons.1 hnodup).2 hwf hnext
    exact ⟨summary', s', Prog.run_bind_ok.2 ⟨next, t, hrun, hrest⟩, hskipped'.trans hskipped, hwf'⟩

end

/-! ### A path that comes twice -/

/-- Before its first turn the file has no row, later it has one with its content. -/
def BeforeTwice (run : ProjectRun) (rel contentHash : String) (paths : List String)
    (summary : IngestSummary) (s : Palace) : Prop :=
  ([rel, rel].Sublist paths ∧ (∀ key, ¬ Stored s.db.files key) ∧ s.db.runs.rows = [] ∧
    s.db.lastRunId = 0) ∨
  ((∀ key, Stored s.db.files key → key = run.sourceKey rel) ∧
    (s.db.files.get? (run.sourceKey rel)).any (·.contentHash = contentHash) = true ∧
    (rel ∈ paths ∨ 0 < summary.skippedUnchanged))

theorem not_migrated {files : FileTable}
    (honly : ∀ key, Stored files key → key = run.sourceKey rel) :
    run.migratedSourceKey files rel = none := by
  cases hmigrated : run.migratedSourceKey files rel with
  | none => rfl
  | some key =>
    obtain ⟨-, hne, _, -, record, hrecord, rfl⟩ := migrated_found hmigrated
    exact absurd (honly _ ⟨record, (getIngestedFile_stored hrecord).1⟩) hne

section
variable {paths : List String} {prepared : PreparedFileChunks} (hdry : run.dryRun = false)
  (hreindex : run.reindex = false) (hprepare : run.prepare rel = .ok prepared)
  (hunreadable : ∀ path, path ≠ rel → ∃ file, run.prepare path = .error (.io file))
  (hbuild : ∀ sk rel prepared, m.buildDrawers sk rel prepared = .ok [])
include hdry hprepare

include hbuild in
theorem first_turn (hdb : Wf s.db) (hnone : ∀ key, ¬ Stored s.db.files key)
    (hruns : s.db.runs.rows = []) (hlast : s.db.lastRunId = 0) (hrel : rel ∈ paths) :
    ∃ next t, (m.ingestFile run none summary rel).run Statement.exec s = (.ok next, t) ∧
      Wf t.db ∧ BeforeTwice run rel prepared.contentHash paths next t := by
  have hmigrated : run.migratedSourceKey s.db.files rel = none :=
    not_migrated fun key hkey => absurd hkey (hnone key)
  obtain ⟨t, u, hstore, hsuperseded, hsame⟩ := storeSource_runs m rel prepared hdry hdb
    (by rw [hlast]; decide) (by rw [hruns]; nofun) (run.migratedSourceKey s.db.files rel)
  obtain ⟨next, hrun, -, hwf⟩ := ingestFile_new hdb hprepare (hnone _) hbuild hstore
  rw [hmigrated] at hsame
  have hdb' : u.db = t.db := hsame
  refine ⟨next, u, hrun, hwf, .inr ⟨fun key hkey => ?_, ?_, .inl hrel⟩⟩
  · by_contra hne
    rw [hdb', Stored, hsuperseded.otherFiles key hne] at hkey
    exact hnone key hkey
  · obtain ⟨finishedAt, hfile⟩ := hsuperseded.file
    rw [hdb', show (t.db.files.get? (run.sourceKey rel)) = _ from hfile]
    simp [replacement]

include hreindex in
theorem other_turn (hrow : (s.db.files.get? (run.sourceKey rel)).any
      (·.contentHash = prepared.contentHash) = true)
    (honly : ∀ key, Stored s.db.files key → key = run.sourceKey rel) :
    (m.ingestFile run none summary rel).run Statement.exec s =
      (.ok { summary with skippedUnchanged := summary.skippedUnchanged + 1 }, s) := by
  unfold Mine.ingestFile
  rw [hprepare]
  simp only [run_read_bind, getIngestedFile_current]
  rw [if_pos (by rw [hreindex, hrow]; rfl), not_migrated honly]
  simp only [Mine.keepSource, hdry, Bool.not_false, if_true]
  rfl

include hreindex hunreadable hbuild in
theorem ingestFiles_twice (hdb : Wf s.db)
    (hturn : BeforeTwice run rel prepared.contentHash paths summary s) :
    ∃ summary' s', (paths.foldlM (m.ingestFile run none) summary).run Statement.exec s =
      (.ok summary', s') ∧ 0 < summary'.skippedUnchanged ∧ Wf s'.db := by
  induction paths generalizing s summary with
  | nil =>
    rcases hturn with ⟨hsub, -⟩ | ⟨-, -, hmem | hskipped⟩
    · cases hsub
    · cases hmem
    · exact ⟨summary, s, rfl, hskipped, hdb⟩
  | cons path paths ih =>
    obtain ⟨next, t, hrun, hwf, hnext⟩ : ∃ next t,
        (m.ingestFile run none summary path).run Statement.exec s = (.ok next, t) ∧
        Wf t.db ∧ BeforeTwice run rel prepared.contentHash paths next t := by
      by_cases hrel : path = rel
      · subst hrel
        rcases hturn with ⟨hsub, hnone, hruns, hlast⟩ | ⟨honly, hrow, -⟩
        · have hmem : path ∈ paths := List.singleton_sublist.1 (List.cons_sublist_cons.1 hsub)
          exact first_turn hdry hprepare hbuild hdb hnone hruns hlast hmem
        · exact ⟨_, s, other_turn hdry hreindex hprepare hrow honly, hdb,
            .inr ⟨honly, hrow, .inr (Nat.succ_pos _)⟩⟩
      · obtain ⟨file, hpath⟩ := hunreadable path hrel
        refine ⟨_, s, ingestFile_unreadable hpath, hdb, ?_⟩
        rcases hturn with ⟨hsub, h⟩ | ⟨honly, hrow, hleft⟩
        · cases hsub with
          | cons _ hsub => exact .inl ⟨hsub, h⟩
          | cons_cons _ _ => exact absurd rfl hrel
        · exact .inr ⟨honly, hrow, hleft.imp_left fun hmem =>
            (List.mem_cons.1 hmem).resolve_left (Ne.symm hrel)⟩
    obtain ⟨summary', s', hrest, hskipped, hwf'⟩ := ih hwf hnext
    exact ⟨summary', s', Prog.run_bind_ok.2 ⟨next, t, hrun, hrest⟩, hskipped, hwf'⟩

end

theorem ingest_runs {checkout : Checkout} {t : Palace} {mined : IngestSummary}
    (hwing : ∃ wing, WingId.normalized (request.wingName config) = .ok wing)
    (hcheckout : m.checkout = .ok checkout)
    (hloop : ((request.paths checkout).foldlM
      (m.ingestFile (request.run config checkout m.hashBytes m.read ⟨0, 0⟩) none)
      { discoveredFiles := checkout.discovered.length, ignoredFiles := m.ignoredFiles
        viewName := request.branchName checkout }).run Statement.exec s = (.ok mined, t))
    (hfinish : (m.finish (request.run config checkout m.hashBytes m.read ⟨0, 0⟩) none request
      checkout.complete (request.paths checkout) mined).run Statement.exec t = (.ok summary', s')) :
    (ingestProjectWithReplication m request config none).run Statement.exec s =
      (.ok summary', s') := by
  obtain ⟨wing, hwing⟩ := hwing
  unfold ingestProjectWithReplication
  simp only [Option.filter_none, hwing]
  refine Prog.run_bind_ok.2 ⟨wing, s, rfl, Prog.run_bind_ok.2 ⟨(), s, rfl, ?_⟩⟩
  refine Prog.run_bind_ok.2 ⟨checkout, s, orFail_ok.2 ⟨hcheckout, rfl⟩, ?_⟩
  exact Prog.run_bind_ok.2 ⟨mined, t, hloop, hfinish⟩

theorem ok_run {α : Type} {p : Program MineError α} {a : α}
    (h : (p.run Statement.exec s).1 = .ok a) :
    p.run Statement.exec s = (.ok a, (p.run Statement.exec s).2) := Prod.ext h rfl

theorem ingest_wing {replication : Option ProjectReplication}
    (h : (ingestProjectWithReplication m request config replication).run Statement.exec s =
      (.ok summary', s')) : ∃ wing, WingId.normalized (request.wingName config) = .ok wing := by
  unfold ingestProjectWithReplication at h
  cases hwing : WingId.normalized (request.wingName config) with
  | ok wing => exact ⟨wing, rfl⟩
  | error e =>
    rw [hwing] at h
    obtain ⟨_, _, hfirst, -⟩ := Prog.run_bind_ok.1 h
    cases congrArg Prod.fst hfirst

theorem tally_skipped {files : FileTable} {paths : List String} {c : Counts}
    (h : ∃ rel ∈ paths, run.outcome files rel = .skipped) :
    c.skipped < (run.tally files paths c).skipped := by
  have hmono : ∀ (paths : List String) (c : Counts),
      c.skipped ≤ (run.tally files paths c).skipped := by
    intro paths
    induction paths with
    | nil => exact fun c => le_rfl
    | cons path paths ih =>
      intro c
      refine le_trans ?_ (ih (c.add (run.outcome files path)))
      cases run.outcome files path with
      | unreadable => exact le_rfl
      | skipped => exact Nat.le_succ _
      | ingested => exact le_rfl
  induction paths generalizing c with
  | nil =>
    obtain ⟨rel, hrel, -⟩ := h
    cases hrel
  | cons path paths ih =>
    obtain ⟨rel, hrel, hskipped⟩ := h
    rcases List.mem_cons.1 hrel with rfl | hrel
    · have hrest := hmono paths (c.add (run.outcome files rel))
      rw [hskipped] at hrest
      rw [ProjectRun.tally, List.foldl_cons, hskipped]
      exact hrest
    · refine lt_of_le_of_lt ?_ (@ih (c.add (run.outcome files path)) ⟨rel, hrel, hskipped⟩)
      exact hmono [path] c

/-! ### Previews -/

/-- A dry run reports what the mine without replication does. -/
def CountsAgree (m : Mine) (request : ProjectIngestRequest) (config : ProjectConfig)
    (s : Palace) : Prop :=
  ∀ replication preview real,
    ((ingestProjectWithReplication m { request with dryRun := true } config replication).run
      Statement.exec s).1 = .ok preview →
    ((ingestProjectWithReplication m { request with dryRun := false } config none).run
      Statement.exec s).1 = .ok real →
    preview.counts = real.counts

/-- No path comes twice, and none has the key of a later one as a key of an older version. -/
def Undisturbed (hashBytes : List UInt8 → String) (request : ProjectIngestRequest)
    (config : ProjectConfig) (checkout : Checkout) : Prop :=
  (∃ wing, WingId.normalized (request.wingName config) = .ok wing) → request.reindex = false →
    (request.paths checkout).Nodup ∧ (request.branchName checkout = none →
      -- neither the files nor the clock are in a key
      let run := request.run config checkout hashBytes (fun _ => none) ⟨0, 0⟩
      (request.paths checkout).Pairwise fun rel other =>
        some (run.sourceKey other) ∉ run.olderKeys rel)

theorem independent_of_undisturbed {checkout : Checkout} {hashBytes : List UInt8 → String}
    (read : String → Option (List UInt8)) (hhash : ∀ bytes, ':' ∉ (hashBytes bytes).toList)
    (hwing : ∃ wing, WingId.normalized (request.wingName config) = .ok wing)
    (h : Undisturbed hashBytes request config checkout) : request.reindex = true ∨
      (request.run config checkout hashBytes read ⟨0, 0⟩).Independent (request.paths checkout) := by
  cases hreindex : request.reindex with
  | true => exact .inl rfl
  | false =>
    refine .inr ?_
    obtain ⟨hnodup, holder⟩ := h hwing hreindex
    have hdistinct : (request.paths checkout).Pairwise fun rel other => other ≠ rel :=
      hnodup.imp Ne.symm
    cases hbranch : request.branchName checkout with
    | none =>
      have hpairs := holder hbranch
      refine hdistinct.imp₂ (fun rel other hne holder => ⟨hne, fun files hmigrated => ?_⟩) hpairs
      exact holder (ProjectRun.migrated_older hhash hmigrated).2
    | some branch =>
      refine hdistinct.imp fun hne => ⟨hne, fun files hmigrated => ?_⟩
      exact absurd ((migrated_found hmigrated).1.symm.trans hbranch) nofun

def recordedOnly (sk path contentHash : String) : Palace where
  db := { IngestDb.empty with
    files := recordSource Table.empty
      { sourceKey := sk, sourceFile := path, contentHash, lastIngestedAt := ⟨0, 0⟩
        ingestKind := "projects", drawerCount := 0 } }
  outbox := Outbox.OutboxDb.empty
  drawers := []

theorem recordedOnly_wf (sk path contentHash : String) : Wf (recordedOnly sk path contentHash).db :=
  ⟨nofun, nofun⟩

theorem recordedOnly_row (sk path contentHash : String) :
    (recordedOnly sk path contentHash).db.files.get? sk = some
      { sourceKey := sk, sourceFile := path, contentHash, lastIngestedAt := ⟨0, 0⟩
        ingestKind := "projects", drawerCount := 0 } := by
  show (recordSource _ _).get? _ = _
  rw [get?_recordSource, if_pos rfl]

theorem recordedOnly_stored (sk path contentHash key : String) :
    Stored (recordedOnly sk path contentHash).db.files key ↔ key = sk := by
  show Stored (recordSource _ _) key ↔ _
  rw [stored_recordSource]
  exact or_iff_left fun ⟨_, hempty⟩ => by cases hempty

def twoFiles (hashBytes : List UInt8 → String) (checkout : Checkout) (rel other : String) :
    Mine where
  engine := ⟨0⟩
  hashBytes := hashBytes
  read path := if path ∈ [rel, other].map (checkout.root ++ "/" ++ ·) then some [] else none
  checkout := .ok checkout
  ignoredFiles := 0
  deletedPaths := .ok []
  buildDrawers _ _ _ := .ok []
  buildTombstone _ _ := .ok []
  existingTombstones _ _ := []
  clock _ := (⟨0, 0⟩, ⟨0, 0⟩)

section
variable {checkout : Checkout} {hashBytes : List UInt8 → String} {rel other path : String}

theorem twoFiles_read (hpath : path ∈ [rel, other]) :
    ∃ prepared, (request.run config checkout hashBytes
      (twoFiles hashBytes checkout rel other).read ⟨0, 0⟩).prepare path = .ok prepared := by
  have hfile : (twoFiles hashBytes checkout rel other).read (checkout.root ++ "/" ++ path) =
      some [] := if_pos (List.mem_map.2 ⟨path, hpath, rfl⟩)
  exact prepare_empty hashBytes _ hfile _ _

theorem twoFiles_unreadable (hpath : path ∉ [rel, other]) :
    ∃ file, (request.run config checkout hashBytes
      (twoFiles hashBytes checkout rel other).read ⟨0, 0⟩).prepare path = .error (.io file) := by
  refine ⟨_, prepare_unreadable hashBytes _ (if_neg fun hmem => ?_) _ _⟩
  obtain ⟨path', hpath', heq⟩ := List.mem_map.1 hmem
  have htext := congrArg String.toList heq
  simp only [String.toList_append] at htext
  obtain rfl := String.toList_inj.1 (List.append_cancel_left htext)
  exact hpath hpath'

theorem twoFiles_safe (path : String) : (request.run config checkout hashBytes
    (twoFiles hashBytes checkout rel other).read ⟨0, 0⟩).prepare path ≠ .error .panic := by
  intro hpanic
  by_cases hmem : path ∈ [rel, other]
  · obtain ⟨_, hok⟩ := @twoFiles_read request config checkout hashBytes rel other path hmem
    cases hok.symm.trans hpanic
  · obtain ⟨_, herror⟩ := @twoFiles_unreadable request config checkout hashBytes rel other path hmem
    cases herror.symm.trans hpanic

end

/-- A path that has a later one's key as an older key makes the counts differ. -/
theorem disturbed_disagrees {checkout : Checkout} {hashBytes : List UInt8 → String}
    {rel other : String} (hpaths : (request.paths checkout).Nodup)
    (hwing : ∃ wing, WingId.normalized (request.wingName config) = .ok wing)
    (hreindex : request.reindex = false) (hbranch : request.branchName checkout = none)
    (hsub : [rel, other].Sublist (request.paths checkout))
    (holder : let run := request.run config checkout hashBytes (fun _ => none) ⟨0, 0⟩
      some (run.sourceKey other) ∈ run.olderKeys rel) :
    ∃ s, Wf s.db ∧ ¬ CountsAgree (twoFiles hashBytes checkout rel other) request config s := by
  let m := twoFiles hashBytes checkout rel other
  let preview := { request with dryRun := true }
  let real := { request with dryRun := false }
  let run := real.run config checkout hashBytes m.read ⟨0, 0⟩
  have hne : other ≠ rel := by
    have hpair := hsub.nodup hpaths
    rw [List.nodup_cons, List.mem_singleton] at hpair
    exact Ne.symm hpair.1
  have hread : ∀ path ∈ [rel, other], ∃ prepared, run.prepare path = .ok prepared :=
    fun _ => twoFiles_read
  have hunreadable : ∀ path, path ≠ rel → path ≠ other →
      ∃ file, run.prepare path = .error (.io file) := fun _ hrel hother =>
    twoFiles_unreadable (by simp [hrel, hother])
  obtain ⟨prepared, hprepared⟩ := hread other (by simp)
  let s := recordedOnly (run.sourceKey other) other prepared.contentHash
  have hdb : Wf s.db := recordedOnly_wf _ _ _
  have hrow := recordedOnly_row (run.sourceKey other) other prepared.contentHash
  have honly := recordedOnly_stored (run.sourceKey other) other prepared.contentHash
  refine ⟨s, hdb, fun hagree => ?_⟩
  -- the dry run skips the second file
  obtain ⟨previewed, hpreviewed⟩ := @ingestFiles_dry m
    (preview.run config checkout hashBytes m.read ⟨0, 0⟩)
    { discoveredFiles := checkout.discovered.length, viewName := request.branchName checkout } s rfl
    twoFiles_safe (fun _ _ _ => rfl) (request.paths checkout)
  obtain ⟨first, _, hfirst⟩ := @finish_runs m (preview.run config checkout hashBytes m.read ⟨0, 0⟩)
    preview previewed s checkout.complete (request.paths checkout) rfl hdb
  have hdry : (ingestProjectWithReplication m preview config none).run Statement.exec s =
      (.ok first, _) := ingest_runs hwing rfl hpreviewed hfirst
  -- the mine skips none
  obtain ⟨mined, t, hmined, hskipped, hwf⟩ := @ingestFiles_lose m run
    { discoveredFiles := checkout.discovered.length, viewName := request.branchName checkout } rel s
    other (request.paths checkout) rfl hbranch hne holder hread hunreadable (fun _ _ _ => rfl)
    hpaths hdb (.inl ⟨hsub, honly, rfl, rfl⟩)
  obtain ⟨second, _, hsecond⟩ := @finish_runs m run real mined t checkout.complete
    (request.paths checkout) rfl hwf
  have hreal : (ingestProjectWithReplication m real config none).run Statement.exec s =
      (.ok second, _) := ingest_runs hwing rfl hmined hsecond
  have hcounts := hagree none first second (congrArg Prod.fst hdry) (congrArg Prod.fst hreal)
  have hless := @tally_skipped (preview.run config checkout hashBytes m.read ⟨0, 0⟩) s.db.files
    (request.paths checkout) ⟨checkout.discovered.length, 0, 0, 0⟩
    ⟨other, hsub.subset (by simp), ?_⟩
  · have hpreview : first.counts = (preview.run config checkout hashBytes m.read ⟨0, 0⟩).tally
        s.db.files (request.paths checkout) ⟨checkout.discovered.length, 0, 0, 0⟩ :=
      ingest_counts hdb rfl (.inl rfl) hdry
    rw [← hpreview, hcounts, finish_ok hsecond] at hless
    have hzero : mined.counts.skipped = 0 := hskipped
    rw [hzero] at hless
    exact lt_irrefl _ hless
  · unfold ProjectRun.outcome
    have hprepared' : (preview.run config checkout hashBytes m.read ⟨0, 0⟩).prepare other =
        .ok prepared := hprepared
    have hkey : (preview.run config checkout hashBytes m.read ⟨0, 0⟩).sourceKey other =
        run.sourceKey other := rfl
    have hfresh : (preview.run config checkout hashBytes m.read ⟨0, 0⟩).reindex = false := hreindex
    rw [hprepared', hkey, hrow, hfresh]
    simp

theorem tally_new {run : ProjectRun} {files : FileTable} (hnone : ∀ key, files.get? key = none)
    (paths : List String) (c : Counts) : (run.tally files paths c).skipped = c.skipped := by
  induction paths generalizing c with
  | nil => rfl
  | cons rel paths ih =>
    rw [ProjectRun.tally, List.foldl_cons]
    refine (ih _).trans ?_
    unfold ProjectRun.outcome
    cases run.prepare rel with
    | error e => rfl
    | ok prepared =>
      rw [hnone]
      simp only [Option.any_none, Bool.and_false, Bool.false_eq_true, if_false]
      rfl

theorem repeated_disagrees {checkout : Checkout} {hashBytes : List UInt8 → String} {rel : String}
    (hwing : ∃ wing, WingId.normalized (request.wingName config) = .ok wing)
    (hreindex : request.reindex = false) (hsub : [rel, rel].Sublist (request.paths checkout)) :
    Wf emptyPalace.db ∧
      ¬ CountsAgree (twoFiles hashBytes checkout rel rel) request config emptyPalace := by
  let m := twoFiles hashBytes checkout rel rel
  let preview := { request with dryRun := true }
  let real := { request with dryRun := false }
  let run := real.run config checkout hashBytes m.read ⟨0, 0⟩
  have hdb : Wf emptyPalace.db := ⟨nofun, nofun⟩
  refine ⟨hdb, fun hagree => ?_⟩
  -- the dry run skips no turn
  obtain ⟨previewed, hpreviewed⟩ := @ingestFiles_dry m
    (preview.run config checkout hashBytes m.read ⟨0, 0⟩)
    { discoveredFiles := checkout.discovered.length, viewName := request.branchName checkout }
    emptyPalace rfl twoFiles_safe (fun _ _ _ => rfl) (request.paths checkout)
  obtain ⟨first, _, hfirst⟩ := @finish_runs m (preview.run config checkout hashBytes m.read ⟨0, 0⟩)
    preview previewed emptyPalace checkout.complete (request.paths checkout) rfl hdb
  have hdry : (ingestProjectWithReplication m preview config none).run Statement.exec emptyPalace =
      (.ok first, _) := ingest_runs hwing rfl hpreviewed hfirst
  have hpreview : first.counts.skipped = 0 := by
    have hcheckout : m.checkout = .ok checkout := rfl
    rw [ingest_counts hdb hcheckout (.inl rfl) hdry]
    exact tally_new (fun _ => rfl) _ _
  -- the mine skips the second
  obtain ⟨prepared, hprepared⟩ : ∃ prepared, run.prepare rel = .ok prepared :=
    twoFiles_read (by simp)
  obtain ⟨mined, t, hmined, hskipped, hwf⟩ := @ingestFiles_twice m run
    { discoveredFiles := checkout.discovered.length, viewName := request.branchName checkout } rel
    emptyPalace (request.paths checkout) prepared rfl hreindex hprepared
    (fun path hne => twoFiles_unreadable (by simp [hne])) (fun _ _ _ => rfl) hdb
    (.inl ⟨hsub, nofun, rfl, rfl⟩)
  obtain ⟨second, _, hsecond⟩ := @finish_runs m run real mined t checkout.complete
    (request.paths checkout) rfl hwf
  have hreal : (ingestProjectWithReplication m real config none).run Statement.exec emptyPalace =
      (.ok second, _) := ingest_runs hwing rfl hmined hsecond
  have hcounts := hagree none first second (congrArg Prod.fst hdry) (congrArg Prod.fst hreal)
  rw [hcounts, finish_ok hsecond] at hpreview
  exact hskipped.ne' hpreview

end

theorem dry_replication {m : Mine} {request : ProjectIngestRequest} {config : ProjectConfig}
    (hdry : request.dryRun = true) (replication : Option ProjectReplication) :
    ingestProjectWithReplication m request config replication =
      ingestProjectWithReplication m request config none := by
  have hnone : (replication.filter fun _ => !request.branchMode && !request.dryRun) = none := by
    rw [hdry]
    cases replication <;> simp
  unfold ingestProjectWithReplication
  generalize (WingId.normalized (request.wingName config)).mapError _ = wing
  rw [hnone, Option.filter_none]

/-- **Dry runs**: a dry run leaves the palace as it was. What it counts is what the mine counts,
for all files and palaces, just if no path comes twice and none has the key of a later one as a key
of an older version. -/
theorem dry_run_previews (hashBytes : List UInt8 → String) (request : ProjectIngestRequest)
    (config : ProjectConfig) (checkout : Checkout)
    (hhash : ∀ bytes, ':' ∉ (hashBytes bytes).toList) :
    (∀ (m : Mine) (replication : Option ProjectReplication) (s : Palace), request.dryRun = true →
      ((ingestProjectWithReplication m request config replication).run Statement.exec s).2 = s) ∧
    ((∀ m : Mine, m.hashBytes = hashBytes → m.checkout = .ok checkout → ∀ s, Wf s.db →
      CountsAgree m request config s) ↔ Undisturbed hashBytes request config checkout) := by
  refine ⟨fun m replication s hdry => ingest_dry replication hdry s, ?_⟩
  constructor
  · intro hagree hwing hreindex
    have hnodup : (request.paths checkout).Nodup := by
      refine List.nodup_iff_sublist.2 fun rel hsub => ?_
      obtain ⟨hdb, hdiffer⟩ := repeated_disagrees hwing hreindex hsub
      exact hdiffer (hagree _ rfl rfl _ hdb)
    refine ⟨hnodup, fun hbranch => ?_⟩
    refine List.pairwise_iff_forall_sublist.2 fun {rel other} hsub holder => ?_
    obtain ⟨s, hdb, hdiffer⟩ := disturbed_disagrees hnodup hwing hreindex hbranch hsub holder
    exact hdiffer (hagree _ rfl rfl s hdb)
  · rintro hundisturbed m rfl hcheckout s hdb replication preview real hpreview hreal
    have hdry : ProjectIngestRequest.dryRun { request with dryRun := true } = true := rfl
    rw [dry_replication hdry replication] at hpreview
    have hfirst := ok_run hpreview
    have hsecond := ok_run hreal
    have hindependent := independent_of_undisturbed m.read hhash (ingest_wing hsecond)
      hundisturbed
    exact (ingest_counts hdb hcheckout (.inl rfl) hfirst).trans
      (ingest_counts hdb hcheckout (.inr hindependent) hsecond).symm

def twoNotes : Checkout := { notesCheckout with discovered := ["notes.txt", "todo.txt"] }

/-- A dry run of two files. -/
theorem dry_run_previews_sample :
    (∀ m replication s,
      ((ingestProjectWithReplication m { mineAll with dryRun := true } ⟨"code", []⟩ replication).run
        Statement.exec s).2 = s) ∧
    (∀ m : Mine, m.hashBytes = hexHash → m.checkout = .ok twoNotes → ∀ s, Wf s.db →
      CountsAgree m { mineAll with dryRun := true } ⟨"code", []⟩ s) := by
  obtain ⟨hsame, hcounts⟩ := dry_run_previews hexHash { mineAll with dryRun := true } ⟨"code", []⟩
    twoNotes hexHash_plain
  have hpaths : ProjectIngestRequest.paths { mineAll with dryRun := true } twoNotes =
      ["notes.txt", "todo.txt"] := by decide +kernel
  refine ⟨fun m replication s => hsame m replication s rfl, hcounts.2 fun _ _ => ?_⟩
  rw [hpaths]
  refine ⟨by decide, fun _ => List.pairwise_pair.2 ?_⟩
  decide +kernel

/-- The name of the first file ends like the key of the second. -/
def colonCheckout : Checkout where
  root := "/work"
  repoId := "agentpalace"
  currentBranch := none
  discovered := ["code:" ++ stableProjectRootKey hexHash "agentpalace" ++ ":notes.txt", "notes.txt"]
  complete := true
  delta := []
  deleted := []

/-- A dry run counts a file as unchanged whose row the mine gives to another file. -/
theorem preview_miscounts :
    ¬ ∀ (m : Mine) (request : ProjectIngestRequest) (config : ProjectConfig) (s : Palace),
      (∀ bytes, ':' ∉ (m.hashBytes bytes).toList) →
      (∀ checkout, m.checkout = .ok checkout → checkout.discovered.Nodup) → Wf s.db →
      CountsAgree m request config s := by
  intro h
  have hnodup : colonCheckout.discovered.Nodup := by decide +kernel
  have hpaths : mineAll.paths colonCheckout = colonCheckout.discovered := rfl
  obtain ⟨s, hdb, hdiffer⟩ := @disturbed_disagrees mineAll ⟨"code", []⟩ colonCheckout hexHash
    ("code:" ++ stableProjectRootKey hexHash "agentpalace" ++ ":notes.txt") "notes.txt" (hpaths ▸ hnodup)
    ⟨⟨"wing_code"⟩, by decide +kernel⟩ rfl rfl (List.Sublist.refl _) (by decide +kernel)
  refine hdiffer (h _ _ _ s hexHash_plain (fun checkout hcheckout => ?_) hdb)
  obtain rfl := Except.ok.inj hcheckout
  exact hnodup

end AgentPalace.Ingest
