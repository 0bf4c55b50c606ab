import AgentPalace.Remote.Client

/-!
# The methods of the remote API

The methods that mutate remote state, and those that read one record by its id.
A request body that a method only passes on is the encoded document.
-/

namespace AgentPalace.Remote

structure IngestFileDto where
  relativePath : String
  contentHash : String
  fileHash : Option String
  /-- The encoded chunks. -/
  chunks : List Json

structure IngestBatchRequest where
  /-- The encoded identity of a durable record. -/
  replication : Option Json
  wing : String
  repoId : String
  agent : Option String
  commitHash : Option String
  files : List IngestFileDto

def optStr (s : Option String) : Json := s.elim .null .str

def IngestFileDto.toJson (f : IngestFileDto) : Json :=
  .obj [("relative_path", .str f.relativePath), ("content_hash", .str f.contentHash),
    ("file_hash", optStr f.fileHash), ("chunks", .arr f.chunks)]

def IngestBatchRequest.toJson (r : IngestBatchRequest) : Json :=
  .obj ((r.replication.map fun identity => ("replication", identity)).toList ++
    [("wing", .str r.wing), ("repo_id", .str r.repoId), ("agent", optStr r.agent),
      ("commit_hash", optStr r.commitHash), ("files", .arr (r.files.map IngestFileDto.toJson))])

/-- The files a preflight asks about: those with chunks and a hash. -/
def preflightFiles (r : IngestBatchRequest) : List Json :=
  (r.files.filter fun f => !f.chunks.isEmpty).filterMap fun f =>
    f.fileHash.map fun hash =>
      .obj [("relative_path", .str f.relativePath), ("file_hash", .str hash)]

def preflightJson (r : IngestBatchRequest) : Json :=
  .obj [("wing", .str r.wing), ("commit_hash", optStr r.commitHash),
    ("files", .arr (preflightFiles r))]

namespace RemoteClient

variable (c : RemoteClient) {α : Type} (decode : Decoder α)

/-! ## Drawers, facts and ingests -/

/-- `POST` of a document to a fixed path. -/
def postRequest (path : String) (req : Json) : Call RequestBuilder := do
  let url ← ExceptT.mk (pure (c.url path))
  return { method := .post, url, json := some req }

def addDrawer (req : Json) : Call α := do
  let _ ← c.ensureHandshake
  let rb ← c.postRequest "v1/drawers" req
  c.execute decode rb .mutation

def getDrawer (drawerId : String) : Call α := do
  let _ ← c.ensureHandshake
  let url ← ExceptT.mk (pure (c.drawerUrl drawerId))
  c.execute decode { method := .get, url } .read

def deleteDrawerWithOperationId (drawerId : String) (operationId : Option String) : Call α := do
  let _ ← c.ensureHandshake
  let url ← ExceptT.mk (pure (c.drawerUrl drawerId))
  let query := (operationId.map fun op => ("operation_id", op)).toList
  c.execute decode { method := .delete, url, query } .mutation

def deleteDrawer (drawerId : String) : Call α := c.deleteDrawerWithOperationId decode drawerId none

def kgAddFact (req : Json) : Call α := do
  let _ ← c.ensureHandshake
  let rb ← c.postRequest "v1/kg/facts" req
  c.execute decode rb .mutation

def kgInvalidate (req : Json) : Call α := do
  let _ ← c.ensureHandshake
  let rb ← c.postRequest "v1/kg/facts/invalidate" req
  c.execute decode rb .mutation

def ingestBatch (req : IngestBatchRequest) : Call α := do
  let info ← c.ensureHandshake
  if req.replication.isNone ∧ "ingest_preflight" ∈ info.capabilities ∧
      preflightFiles req ≠ [] then
    let rb ← c.postRequest "v1/ingest/preflight" (preflightJson req)
    c.execute c.codec.preflight rb .read
  let rb ← c.postRequest "v1/ingest/batch" req.toJson
  c.execute decode rb .mutation

/-! ## Coordination -/

def coordinationGet (kind id : String) : Call α := do
  c.ensureCoordinationCapability
  let url ← ExceptT.mk (pure (c.url s!"v1/coordination/{kind}/{id}"))
  c.execute decode { method := .get, url } .read

def coordinationTaskGet (taskId : String) : Call α := c.coordinationGet decode "tasks" taskId

def coordinationMessageGet (messageId : String) : Call α :=
  c.coordinationGet decode "messages" messageId

def coordinationArtifactGet (artifactId : String) : Call α :=
  c.coordinationGet decode "artifacts" artifactId

def coordinationResultGet (resultId : String) : Call α :=
  c.coordinationGet decode "results" resultId

/-- A coordination write that puts a new record. -/
def coordinationPost (kind : String) (req : Json) : Call α := do
  c.ensureCoordinationCapability
  let rb ← c.postRequest s!"v1/coordination/{kind}" req
  c.execute decode rb .mutation

def coordinationTaskCreate (req : Json) : Call α := c.coordinationPost decode "tasks" req

def coordinationMessageSend (req : Json) : Call α := c.coordinationPost decode "messages" req

def coordinationArtifactPut (req : Json) : Call α := c.coordinationPost decode "artifacts" req

def coordinationResultPut (req : Json) : Call α := c.coordinationPost decode "results" req

def coordinationMessageAck (messageId : String) (req : Json) : Call α := do
  c.ensureCoordinationCapability
  let rb ← c.postRequest s!"v1/coordination/messages/{messageId}/ack" req
  c.execute decode rb .mutation

def coordinationTaskWrite (action taskId : String) (req : Json) :
    Call (RemoteRevisionedWrite α) := do
  c.ensureCoordinationCapability
  let rb ← c.postRequest s!"v1/coordination/tasks/{taskId}/{action}" req
  c.executeRevisioned decode rb

def coordinationTaskClaim (taskId : String) (req : Json) : Call (RemoteRevisionedWrite α) :=
  c.coordinationTaskWrite decode "claim" taskId req

def coordinationTaskRenew (taskId : String) (req : Json) : Call (RemoteRevisionedWrite α) :=
  c.coordinationTaskWrite decode "renew" taskId req

def coordinationTaskTransition (taskId : String) (req : Json) : Call (RemoteRevisionedWrite α) :=
  c.coordinationTaskWrite decode "transition" taskId req

end RemoteClient

inductive MutatingCall where
  | addDrawer (req : Json)
  | deleteDrawer (drawerId : String)
  | deleteDrawerWithOperationId (drawerId : String) (operationId : Option String)
  | kgAddFact (req : Json)
  | kgInvalidate (req : Json)
  | ingestBatch (req : IngestBatchRequest)
  | coordinationTaskCreate (req : Json)
  | coordinationTaskClaim (taskId : String) (req : Json)
  | coordinationTaskRenew (taskId : String) (req : Json)
  | coordinationTaskTransition (taskId : String) (req : Json)
  | coordinationMessageSend (req : Json)
  | coordinationMessageAck (messageId : String) (req : Json)
  | coordinationArtifactPut (req : Json)
  | coordinationResultPut (req : Json)

/-- Perform a call. The result of one that is not revisioned counts as applied. -/
def MutatingCall.exec (c : RemoteClient) {α : Type} (decode : Decoder α) :
    MutatingCall → Call (RemoteRevisionedWrite α)
  | addDrawer req => .applied <$> c.addDrawer decode req
  | deleteDrawer id => .applied <$> c.deleteDrawer decode id
  | deleteDrawerWithOperationId id op => .applied <$> c.deleteDrawerWithOperationId decode id op
  | kgAddFact req => .applied <$> c.kgAddFact decode req
  | kgInvalidate req => .applied <$> c.kgInvalidate decode req
  | ingestBatch req => .applied <$> c.ingestBatch decode req
  | coordinationTaskCreate req => .applied <$> c.coordinationTaskCreate decode req
  | coordinationTaskClaim id req => c.coordinationTaskClaim decode id req
  | coordinationTaskRenew id req => c.coordinationTaskRenew decode id req
  | coordinationTaskTransition id req => c.coordinationTaskTransition decode id req
  | coordinationMessageSend req => .applied <$> c.coordinationMessageSend decode req
  | coordinationMessageAck id req => .applied <$> c.coordinationMessageAck decode id req
  | coordinationArtifactPut req => .applied <$> c.coordinationArtifactPut decode req
  | coordinationResultPut req => .applied <$> c.coordinationResultPut decode req

end AgentPalace.Remote
