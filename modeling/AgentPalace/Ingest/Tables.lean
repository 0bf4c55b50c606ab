import AgentPalace.Outbox.Types

/-!
# The ingest tables

A palace keeps its drawers in one store and the runs that wrote them in another.
A run lists its drawers in a manifest before it writes them, and is marked
committed or failed afterwards; the last committed run of a source key is what
the key's drawers are. Every write of the operational store is one transaction.
-/

namespace AgentPalace.Ingest

inductive IngestRunStatus where
  | pending
  | committed
  | failed
  deriving DecidableEq

/-- A row of `ingest_runs`. -/
structure IngestRun where
  id : Int
  ingestKind : String
  sourceKey : String
  status : IngestRunStatus
  createdAt : OffsetDateTime
  updatedAt : OffsetDateTime
  failedReason : Option String
  deriving DecidableEq

/-- A row of `ingest_manifests`. -/
structure IngestManifestEntry where
  runId : Int
  drawerId : DrawerId
  sourceFile : String
  contentHash : String
  status : IngestRunStatus
  deriving DecidableEq

def IngestManifestEntry.key (m : IngestManifestEntry) : Int × DrawerId := (m.runId, m.drawerId)

/-- A row of `ingest_files`. -/
structure IngestFileRecord where
  sourceKey : String
  sourceFile : String
  contentHash : String
  lastIngestedAt : OffsetDateTime
  ingestKind : String
  drawerCount : Nat
  deriving DecidableEq

/-- A row of `diary_summaries`. -/
structure DiarySummary where
  entryId : DrawerId
  summary : String
  lastUpdatedAt : Option OffsetDateTime
  deriving DecidableEq

structure IngestDb where
  /-- The last rowid of `ingest_runs`; it is never given again. -/
  lastRunId : Int
  runs : Table IngestRun.id
  manifests : Table IngestManifestEntry.key
  files : Table IngestFileRecord.sourceKey
  summaries : Table DiarySummary.entryId

def IngestDb.empty : IngestDb := ⟨0, Table.empty, Table.empty, Table.empty, Table.empty⟩

structure DrawerRecord where
  id : DrawerId
  content : String
  contentHash : String
  /-- The bits of each `f32`. -/
  embedding : List UInt32
  deriving DecidableEq

structure Palace where
  db : IngestDb
  outbox : Outbox.OutboxDb
  drawers : List DrawerRecord

def Palace.ids (s : Palace) : List DrawerId := s.drawers.map (·.id)

inductive DuplicateStrategy where
  | error
  | ignore
  | overwrite
  deriving DecidableEq

structure IngestCommitRequest where
  ingestKind : String
  sourceKey : String
  sourceFile : String
  contentHash : String
  drawers : List DrawerRecord
  duplicateStrategy : DuplicateStrategy

structure RetryableRun where
  run : IngestRun
  chunkIds : List DrawerId

/-! ## Statements -/

abbrev ITx (α : Type) := Tx IngestDb StorageError α

/-! ## Writes -/

/-- `UNIQUE(ingest_kind, source_key, created_at)`. -/
def IngestDb.sameRun (db : IngestDb) (ingestKind sourceKey : String) (createdAt : OffsetDateTime) :
    Bool :=
  db.runs.rows.any fun r => r.ingestKind = ingestKind && r.sourceKey = sourceKey &&
    encodeTime r.createdAt = encodeTime createdAt

/-- `INSERT INTO ingest_runs`. -/
def IngestDb.insertRun (db : IngestDb) (ingestKind sourceKey : String)
    (createdAt : OffsetDateTime) : Except SqlFault IngestDb :=
  if maxRowid ≤ db.lastRunId then .error .full
  else if db.sameRun ingestKind sourceKey createdAt then .error .uniqueViolation
  else do
    let runs ← db.runs.insert?
      { id := db.lastRunId + 1, ingestKind, sourceKey, status := .pending, createdAt
        updatedAt := createdAt, failedReason := none }
    return { db with lastRunId := db.lastRunId + 1, runs }

/-- `INSERT INTO ingest_manifests`. -/
def IngestDb.insertEntry (db : IngestDb) (entry : IngestManifestEntry) : Except SqlFault IngestDb :=
  do
    let manifests ← db.manifests.insert? entry
    return { db with manifests }

def createPendingRun (ingestKind sourceKey : String) (entries : List IngestManifestEntry)
    (createdAt : OffsetDateTime) : ITx IngestRun := do
  Tx.exec fun db => sql (db.insertRun ingestKind sourceKey createdAt)
  let runId ← Tx.query (·.lastRunId)
  entries.forM fun entry =>
    Tx.exec fun db => sql (db.insertEntry { entry with runId, status := .pending })
  Tx.commit
  return { id := runId, ingestKind, sourceKey, status := .pending, createdAt
           updatedAt := createdAt, failedReason := none }

/-- `UPDATE ingest_manifests SET status` and `UPDATE ingest_runs SET status, ..` of one run. -/
def IngestDb.mark (db : IngestDb) (runId : Int) (status : IngestRunStatus)
    (updatedAt : OffsetDateTime) (failedReason : Option String) : IngestDb :=
  { db with
    manifests := db.manifests.updateWhere (·.runId = runId) fun m => { m with status }
    runs := db.runs.modify runId fun r => { r with status, updatedAt, failedReason } }

def markRunCommitted (runId : Int) (sourceKey sourceFile contentHash : String) (drawerCount : Nat)
    (committedAt : OffsetDateTime) : ITx Unit := do
  Tx.exec fun db => .ok (db.mark runId .committed committedAt none)
  let run ← Tx.query (·.runs.get? runId)
  match run with
  | none => throw .noRows
  | some run =>
    Tx.exec fun db => .ok
      { db with
        files := db.files.upsert
          { sourceKey, sourceFile, contentHash, lastIngestedAt := committedAt
            ingestKind := run.ingestKind, drawerCount } fun f =>
          { f with
            sourceFile, contentHash, lastIngestedAt := committedAt, ingestKind := run.ingestKind
            drawerCount } }
    Tx.commit

def markRunFailed (runId : Int) (reason : String) (failedAt : OffsetDateTime) : ITx Unit := do
  Tx.exec fun db => .ok (db.mark runId .failed failedAt (some reason))
  Tx.commit

/-- The runs of a key with their manifests, and its file. -/
def IngestDb.forget (db : IngestDb) (sourceKey : String) : IngestDb :=
  let runIds := (db.runs.rows.filter fun r => r.sourceKey = sourceKey).map (·.id)
  { db with
    manifests := db.manifests.deleteWhere fun m => m.runId ∈ runIds
    runs := db.runs.deleteWhere fun r => r.sourceKey = sourceKey
    files := db.files.deleteWhere fun f => f.sourceKey = sourceKey }

def deleteSourceKey (sourceKey : String) : ITx Unit := do
  Tx.exec fun db => .ok (db.forget sourceKey)
  Tx.commit

def deleteDiarySummary (entryId : DrawerId) : ITx Unit := do
  Tx.exec fun db => .ok
    { db with summaries := db.summaries.deleteWhere fun d => d.entryId = entryId }
  Tx.commit

/-! ## Reads -/

/-- `ORDER BY drawer_id ASC`. -/
def sortedIds (ids : List DrawerId) : List DrawerId := ids.insertionSort fun a b => a.str ≤ b.str

def IngestRun.decode (r : IngestRun) : Except StorageError IngestRun := do
  let createdAt ← decodeTime r.createdAt
  let updatedAt ← decodeTime r.updatedAt
  return { r with createdAt, updatedAt }

/-- The runs of a status, and of a kind if one is asked for, updated before `olderThan`. Times are
compared by their texts. -/
def IngestDb.staleRuns (db : IngestDb) (status : IngestRunStatus) (kind : Option String)
    (olderThan : OffsetDateTime) : Except StorageError (List IngestRun) :=
  ((orderBy (·.id) db.runs.rows).filter fun r => r.status = status &&
    kind.all (r.ingestKind = ·) && encodeTime r.updatedAt < encodeTime olderThan).mapM
    IngestRun.decode

def IngestDb.manifestIds (db : IngestDb) (runId : Int) : List DrawerId :=
  sortedIds ((db.manifests.rows.filter fun m => m.runId = runId).map (·.drawerId))

def IngestDb.committedDrawerIds (db : IngestDb) : List DrawerId :=
  sortedIds ((db.manifests.rows.filter fun m => m.status = .committed).map (·.drawerId))

/-- `ORDER BY id DESC LIMIT 1`. -/
def IngestDb.latestCommittedRun (db : IngestDb) (sourceKey : String) : Option Int :=
  ((db.runs.rows.filter fun r => r.sourceKey = sourceKey && r.status = .committed).map (·.id)).max?

def IngestDb.committedDrawerIdsForSourceKey (db : IngestDb) (sourceKey : String) : List DrawerId :=
  sortedIds ((db.manifests.rows.filter fun m => m.status = .committed &&
    db.latestCommittedRun sourceKey = some m.runId).map (·.drawerId))

end AgentPalace.Ingest
