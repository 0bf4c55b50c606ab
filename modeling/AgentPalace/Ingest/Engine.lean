import AgentPalace.Ingest.Tables
import AgentPalace.Lib.Program
import AgentPalace.Outbox.Store

/-!
# The storage engine

The operations of `StorageEngine` on mined sources, as programs of the
transactions of the databases and the reads and writes of the drawer store. The
clock readings an operation makes are its last arguments. A write of the drawer
store does not fail.
-/

namespace AgentPalace.Ingest

/-- What one step of an operation does to the palace. -/
inductive Statement where
  | read
  | createPendingRun (ingestKind sourceKey : String) (entries : List IngestManifestEntry)
      (createdAt : OffsetDateTime)
  | markRunCommitted (runId : Int) (sourceKey sourceFile contentHash : String) (drawerCount : Nat)
      (committedAt : OffsetDateTime)
  | markRunFailed (runId : Int) (reason : String) (failedAt : OffsetDateTime)
  | deleteSourceKey (sourceKey : String)
  | deleteDiarySummary (entryId : DrawerId)
  | addDrawers (drawers : List DrawerRecord)
  | deleteDrawers (ids : List DrawerId)
  | enqueue (host : Host) (input : Outbox.NewOutboxOperation)
  | activate (host : Host) (id : String) (expectedRevision : Int)

namespace Statement

def exec : Statement → Palace → Palace
  | read, s => s
  | createPendingRun ingestKind sourceKey entries createdAt, s =>
    { s with db := ((Ingest.createPendingRun ingestKind sourceKey entries createdAt).run s.db).2 }
  | markRunCommitted runId sourceKey sourceFile contentHash drawerCount committedAt, s =>
    { s with
      db := ((Ingest.markRunCommitted runId sourceKey sourceFile contentHash drawerCount
        committedAt).run s.db).2 }
  | markRunFailed runId reason failedAt, s =>
    { s with db := ((Ingest.markRunFailed runId reason failedAt).run s.db).2 }
  | deleteSourceKey sourceKey, s =>
    { s with db := ((Ingest.deleteSourceKey sourceKey).run s.db).2 }
  | deleteDiarySummary entryId, s =>
    { s with db := ((Ingest.deleteDiarySummary entryId).run s.db).2 }
  | addDrawers drawers, s => { s with drawers := s.drawers ++ drawers }
  | deleteDrawers ids, s => { s with drawers := s.drawers.filter fun d => d.id ∉ ids }
  | enqueue host input, s => { s with outbox := ((Outbox.enqueue host input).run s.outbox).2 }
  | activate host id expectedRevision, s =>
    { s with outbox := ((Outbox.activate host id expectedRevision).run s.outbox).2 }

variable {s : Palace} {id : DrawerId}

@[simp] theorem ids_deleteDrawers {ids : List DrawerId} :
    id ∈ (exec (.deleteDrawers ids) s).ids ↔ id ∈ s.ids ∧ id ∉ ids := by
  simp only [exec, Palace.ids, List.mem_map, List.mem_filter, decide_eq_true_eq]
  constructor
  · rintro ⟨d, ⟨hd, hnot⟩, rfl⟩
    exact ⟨⟨d, hd, rfl⟩, hnot⟩
  · rintro ⟨⟨d, hd, rfl⟩, hnot⟩
    exact ⟨d, ⟨hd, hnot⟩, rfl⟩

@[simp] theorem ids_addDrawers {drawers : List DrawerRecord} :
    id ∈ (exec (.addDrawers drawers) s).ids ↔ id ∈ s.ids ∨ id ∈ drawers.map (·.id) := by
  simp only [exec, Palace.ids, List.map_append, List.mem_append]

@[simp] theorem deleteDrawers_nil (s : Palace) : exec (.deleteDrawers []) s = s := by
  simp [exec]

end Statement

abbrev Program (ε α : Type) := Prog Palace Statement ε α

abbrev PProg (α : Type) := Program StorageError α

def read {ε α : Type} (f : Palace → α) : Program ε α := Prog.statement .read fun s => .ok (f s)

def readDecoded {α : Type} (f : Palace → Except StorageError α) : PProg α := Prog.statement .read f

def transaction {α : Type} (stmt : Statement) (body : ITx α) : PProg α :=
  Prog.statement stmt fun s => (body.run s.db).1

/-! ## The drawer store -/

def addDrawers {ε : Type} (drawers : List DrawerRecord) : Program ε Unit :=
  Prog.statement (.addDrawers drawers) fun _ => .ok ()

def existingIds {ε : Type} (ids : List DrawerId) : Program ε (List DrawerId) :=
  if ids = [] then return []
  else read fun s => ((s.drawers.map (·.id)).filter (· ∈ ids)).dedup

def deleteDrawers {ε : Type} (ids : List DrawerId) : Program ε Nat := do
  if ids = [] then
    return 0
  let existing ← read fun s => s.drawers.countP fun d => d.id ∈ ids
  Prog.statement (.deleteDrawers ids) fun _ => .ok ()
  return existing

structure StorageEngine where
  /-- The dimensions of the profile's embeddings. -/
  dimensions : Nat

/-- One hour. -/
def staleAfter : Duration := 3600 * 1000000000

namespace StorageEngine

def putDrawers (engine : StorageEngine) (drawers : List DrawerRecord)
    (strategy : DuplicateStrategy) : Program PutError Unit := do
  if drawers = [] then
    return ()
  match drawers.find? fun d => d.embedding.length ≠ engine.dimensions with
  | some d =>
    throw (.invalidEmbeddingDimensions d.id.str engine.dimensions d.embedding.length)
  | none =>
    let existing ← existingIds (drawers.map (·.id))
    match strategy with
    | .error =>
      if existing ≠ [] then
        throw (.duplicateDrawers ((existing.map (·.str)).insertionSort (· ≤ ·)))
      addDrawers drawers
    | .ignore =>
      let filtered := drawers.filter fun d => d.id ∉ existing
      if filtered = [] then
        return ()
      addDrawers filtered
    | .overwrite =>
      if existing ≠ [] then
        let _ ← deleteDrawers existing
      addDrawers drawers

/-! ## Mined sources -/

def commitIngest (engine : StorageEngine) (request : IngestCommitRequest)
    (now finishedAt : OffsetDateTime) : PProg Int := do
  let manifests := request.drawers.map fun d : DrawerRecord =>
    { runId := 0, drawerId := d.id, sourceFile := request.sourceFile, contentHash := d.contentHash
      status := .pending : IngestManifestEntry }
  let run ← transaction (.createPendingRun request.ingestKind request.sourceKey manifests now)
    (createPendingRun request.ingestKind request.sourceKey manifests now)
  match ← Prog.attempt (engine.putDrawers request.drawers request.duplicateStrategy) with
  | .ok () =>
    transaction
      (.markRunCommitted run.id request.sourceKey request.sourceFile request.contentHash
        request.drawers.length finishedAt)
      (markRunCommitted run.id request.sourceKey request.sourceFile request.contentHash
        request.drawers.length finishedAt)
    return run.id
  | .error error =>
    transaction (.markRunFailed run.id error.display finishedAt)
      (markRunFailed run.id error.display finishedAt)
    throw (.put error)

def replaceSourceDrawers (engine : StorageEngine)
    (ingestKind sourceKey sourceFile contentHash : String) (drawers : List DrawerRecord)
    (now finishedAt : OffsetDateTime) : PProg Unit := do
  let existing ← read fun s => s.db.committedDrawerIdsForSourceKey sourceKey
  let newIds := drawers.map (·.id)
  let _ ← engine.commitIngest
    { ingestKind, sourceKey, sourceFile, contentHash, drawers, duplicateStrategy := .overwrite }
    now finishedAt
  let stale := existing.filter fun id => id ∉ newIds
  if stale ≠ [] then
    let _ ← deleteDrawers stale

end StorageEngine

def removeSourceKey (sourceKey : String) : PProg Unit := do
  let drawerIds ← read fun s => s.db.committedDrawerIdsForSourceKey sourceKey
  if drawerIds ≠ [] then
    let _ ← deleteDrawers drawerIds
  transaction (.deleteSourceKey sourceKey) (deleteSourceKey sourceKey)

/-! ## Reconciliation -/

/-- The stale runs of a status with their manifests, one read after the other. -/
def staleRuns (status : IngestRunStatus) (kind : Option String) (olderThan : OffsetDateTime) :
    PProg (List RetryableRun) := do
  let runs ← readDecoded fun s => s.db.staleRuns status kind olderThan
  runs.mapM fun run => do
    let chunkIds ← read fun s => s.db.manifestIds run.id
    return { run, chunkIds }

def stalePendingRuns (olderThan : OffsetDateTime) : PProg (List RetryableRun) :=
  staleRuns .pending none olderThan

def staleFailedDiaryRuns (olderThan : OffsetDateTime) : PProg (List RetryableRun) :=
  staleRuns .failed (some "diary") olderThan

def pruneOrphanedRows (staleRuns : List RetryableRun) : PProg (List DrawerId) := do
  let committedIds ← read (·.db.committedDrawerIds)
  let allDrawers ← read (·.drawers)
  let staleIds := staleRuns.flatMap (·.chunkIds)
  let orphaned := (allDrawers.map (·.id)).filter fun id => id ∈ staleIds && id ∉ committedIds
  if orphaned = [] then
    return []
  let _ ← deleteDrawers orphaned
  return orphaned

/-- The clock is read once at the start and once for each run that is marked failed. -/
def reconcile (now : OffsetDateTime) (failedAt : Int → OffsetDateTime) : PProg Unit := do
  let staleCutoff := { now with nanos := now.nanos - staleAfter }
  let staleRuns ← stalePendingRuns staleCutoff
  let staleFailedDiary ← staleFailedDiaryRuns staleCutoff
  let allForPrune := staleRuns ++ staleFailedDiary
  if allForPrune = [] then
    return ()
  let _ ← pruneOrphanedRows allForPrune
  let committedIds ← read (·.db.committedDrawerIds)
  (allForPrune.flatMap (·.chunkIds)).forM fun chunkId => do
    if chunkId ∉ committedIds then
      transaction (.deleteDiarySummary chunkId) (deleteDiarySummary chunkId)
  staleRuns.forM fun retryable =>
    transaction
      (.markRunFailed retryable.run.id "stale pending ingest run" (failedAt retryable.run.id))
      (markRunFailed retryable.run.id "stale pending ingest run" (failedAt retryable.run.id))

end AgentPalace.Ingest
