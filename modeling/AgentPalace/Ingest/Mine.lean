import AgentPalace.Ingest.Prepare
import AgentPalace.Ingest.SourceKeys

/-!
# Mining a project

`ingestProject` prepares the discovered files one by one, replaces the sources
whose content has changed and at the end removes the sources of the same project
that were not discovered. It is followed in the rows of `ingest_files`.
-/

namespace AgentPalace.Ingest

/-! ### The run -/

inductive IngestError where
  | core (e : IdError)
  | prepare (e : PrepareError)

structure ProjectIngestRequest where
  wing : Option String
  branch : Bool
  view : Option String
  limit : Option Nat
  dryRun : Bool
  reindex : Bool

structure ProjectConfig where
  wing : String
  rooms : List ProjectRoomConfig

/-- What the working tree and git say of the project. -/
structure Checkout where
  root : String
  repoId : String
  currentBranch : Option String
  /-- The relative paths of the discovered files. -/
  discovered : List String
  complete : Bool
  delta : List String
  deleted : List String

structure ProjectRun where
  hashBytes : List UInt8 → String
  wingName : String
  repoId : String
  root : String
  branchName : Option String
  dryRun : Bool
  reindex : Bool
  now : OffsetDateTime
  prepare : String → Except PrepareError PreparedFileChunks

def stableProjectRootKey (hashBytes : List UInt8 → String) (repoId : String) : String :=
  hashText hashBytes ("project:" ++ repoId).toList

/-- The rows of a prefix whose path is not one of the current ones are removed. -/
def sweep (files : FileTable) (keyPrefix : String) (fields : Nat) (current : List String) :
    FileTable :=
  (ingestedSourceKeysWithPrefix files keyPrefix).foldl
    (fun files key => if field fields key ∈ current then files else forgetSource files key) files

namespace ProjectRun

variable (run : ProjectRun)

def ingestKind : String := if run.branchName.isSome then "projects-branch" else "projects"

def projectRootKey : String := stableProjectRootKey run.hashBytes run.repoId

def legacyRootKey : String := hashText run.hashBytes run.root.toList

def sourceKey (relativePath : String) : String :=
  match run.branchName with
  | none => projectSourceKey run.ingestKind run.projectRootKey run.wingName relativePath
  | some branch =>
    projectBranchSourceKey run.ingestKind run.projectRootKey run.wingName branch relativePath

/-- The key of an older version under which the file was found. -/
def migratedSourceKey (files : FileTable) (relativePath : String) : Option String :=
  match run.branchName with
  | some _ => none
  | none =>
    let sk := run.sourceKey relativePath
    let legacySk :=
      legacyProjectSourceKey run.ingestKind run.legacyRootKey run.wingName relativePath
    let legacyRecord := match (getIngestedFile files sk).filter (·.sourceKey ≠ sk) with
      | some record => some record
      | none => (getIngestedFile files legacySk).filter (·.sourceKey ≠ sk)
    legacyRecord.map (·.sourceKey)

def removeMigrated (files : FileTable) : Option String → FileTable
  | some oldKey => forgetSource files oldKey
  | none => files

def mineFile (files : FileTable) (relativePath : String) : Except PrepareError FileTable :=
  match run.prepare relativePath with
  | .error (.io _) => .ok files
  | .error .panic => .error .panic
  | .ok prepared =>
    let sk := run.sourceKey relativePath
    let currentExisting := (getIngestedFile files sk).filter (·.sourceKey = sk)
    let migrated := run.migratedSourceKey files relativePath
    .ok <|
      if run.dryRun then files
      else if !run.reindex && currentExisting.any (·.contentHash = prepared.contentHash) then
        removeMigrated files migrated
      else
        removeMigrated
          (recordSource files
            { sourceKey := sk, sourceFile := relativePath, contentHash := prepared.contentHash
              lastIngestedAt := run.now, ingestKind := run.ingestKind
              drawerCount := prepared.chunks.length }) migrated

/-- The row of a deleted path that has no tombstone yet. -/
def tombstone (existing : List String) (files : FileTable) (relativePath : String) : FileTable :=
  if relativePath ∈ existing then files
  else
    recordSource files
      { sourceKey := run.sourceKey relativePath, sourceFile := relativePath
        contentHash := hashText run.hashBytes "Deleted branch path tombstone".toList
        lastIngestedAt := run.now, ingestKind := run.ingestKind, drawerCount := 1 }

def mineFiles (paths deleted tombstones : List String) (files : FileTable) :
    Except PrepareError FileTable := do
  let mined ← paths.foldlM run.mineFile files
  return deleted.foldl (run.tombstone tombstones) mined

def cleanup (paths deleted : List String) (complete : Bool) (limit : Option Nat)
    (files : FileTable) : FileTable :=
  match run.branchName with
  | none =>
    if complete && limit.isNone && !run.dryRun then
      sweep
        (sweep files (run.ingestKind ++ ":" ++ run.wingName ++ ":" ++ run.legacyRootKey ++ ":") 3
          paths)
        (run.ingestKind ++ ":" ++ run.wingName ++ ":" ++ run.projectRootKey ++ ":") 3 paths
    else files
  | some branch =>
    if !run.dryRun then
      sweep files
        (run.ingestKind ++ ":" ++ run.wingName ++ ":" ++ run.projectRootKey ++ ":" ++ branch ++ ":")
        4 (paths ++ deleted)
    else files

end ProjectRun

namespace ProjectIngestRequest

variable (request : ProjectIngestRequest) (config : ProjectConfig) (checkout : Checkout)

def wingName : String := request.wing.getD config.wing

def branchMode : Bool := request.branch && request.view ≠ some "canonical"

def branchName : Option String :=
  if request.branchMode then
    some (request.view.getD (checkout.currentBranch.getD "detached"))
  else none

/-- The files that are mined: in branch mode those of the delta. -/
def paths : List String :=
  let discovered :=
    if request.branchMode then checkout.discovered.filter (· ∈ checkout.delta)
    else checkout.discovered
  match request.limit with
  | some limit => discovered.take limit
  | none => discovered

def deletedPaths : List String :=
  if request.branchMode && !request.dryRun then checkout.deleted else []

section
variable (hashBytes : List UInt8 → String) (read : String → Option (List UInt8))
  (now : OffsetDateTime)

def run : ProjectRun where
  hashBytes := hashBytes
  wingName := request.wingName config
  repoId := checkout.repoId
  root := checkout.root
  branchName := request.branchName checkout
  dryRun := request.dryRun
  reindex := request.reindex
  now := now
  prepare relativePath :=
    prepareFileChunks hashBytes read ⟨checkout.root ++ "/" ++ relativePath, relativePath⟩
      (projectRoutingFingerprint hashBytes config.rooms) config.rooms

end

end ProjectIngestRequest

/-- The rows of `ingest_files` after a mine; `tombstones` are the deleted paths that have one. -/
def ingestProject (hashBytes : List UInt8 → String) (read : String → Option (List UInt8))
    (now : OffsetDateTime) (request : ProjectIngestRequest) (config : ProjectConfig)
    (checkout : Checkout) (tombstones : List String) (files : FileTable) :
    Except IngestError FileTable := do
  let _ ← (WingId.normalized (request.wingName config)).mapError .core
  let run := request.run config checkout hashBytes read now
  let paths := request.paths checkout
  let deleted := request.deletedPaths checkout
  let mined ← (run.mineFiles paths deleted tombstones files).mapError .prepare
  return run.cleanup paths deleted checkout.complete request.limit mined

end AgentPalace.Ingest
