import AgentPalace.ChangeLog.Store
import AgentPalace.Ingest.Engine
import AgentPalace.Receipts.Store
import AgentPalace.Server.Access

/-!
# The route that adds a drawer

`POST /v1/drawers` writes to four stores that share no transaction: the receipt
of a keyed request, the manifest of the ingest run, the drawer row and the
change event. A request is at a `Phase`; `Phase.next` is one read or write of one
store, and what a crash can leave is what a prefix of these steps has written.
The checks before the first read are `prepare`.
-/

namespace AgentPalace.Server

open Ingest (IngestDb IngestRun IngestManifestEntry)
open Receipts (ReceiptDb ReceiptOutcome)
open ChangeLog (ChangeDb ChangeEvent)

inductive StoreFault where
  | put (e : PutError)
  /-- The store itself fails. -/
  | unavailable (message : String)
  deriving DecidableEq

def StoreFault.display : StoreFault → String
  | put e => e.display
  | unavailable message => message

inductive AddError where
  | invalidParams (message : String)
  | diaryNotFederated
  | forbidden
  | id (e : IdError)
  | provenance (e : ProvenanceError)
  | storage (e : StorageError)
  | duplicate (found : List Json)
  | idempotencyConflict (message : String)
  | store (fault : StoreFault)
  /-- The search or the embedding fails. -/
  | unavailable (message : String)
  deriving DecidableEq

structure DrawerRow where
  id : DrawerId
  wing : String
  room : String
  sourceFile : String
  addedBy : String
  filedAt : OffsetDateTime
  content : String
  contentHash : String
  /-- The bits of each `f32`. -/
  embedding : List UInt32
  deriving DecidableEq

structure Palace where
  receipts : ReceiptDb
  ingest : IngestDb
  drawers : List DrawerRow
  changes : ChangeDb

def Palace.empty : Palace := ⟨ReceiptDb.empty, IngestDb.empty, [], ChangeDb.empty⟩

def Palace.ids (s : Palace) : List DrawerId := s.drawers.map (·.id)

/-! ## The request -/

structure AddDrawerRequest where
  wing : String
  room : String
  content : String
  sourceFile : Option String := none
  addedBy : Option String := none
  drawerId : Option String := none
  operationId : Option String := none
  allowNearDuplicate : Bool := false

def maxDrawerContentBytes : Nat := 256 * 1024

def diaryTopicPrefix : String := "diary:"

def drawerId (value : String) : Except AddError DrawerId :=
  match h : validateId "drawer" value with
  | .ok () => .ok ⟨value, h⟩
  | .error e => .error (.id e)

/-- The hash of a text and the length of the profile's embeddings. -/
structure Profile where
  hashText : String → String
  dimensions : Nat

namespace Profile

def generatedDrawerId (profile : Profile) (kind wing room content : String) (now : OffsetDateTime) :
    Except AddError DrawerId :=
  let hash := profile.hashText (content ++ toString now.nanos)
  drawerId s!"{kind}_{wing}_{room}_{String.ofList (hash.toList.take 16)}"

def mutationRequestHash (profile : Profile) (fields : List (String × Json)) : String :=
  profile.hashText
    (Json.obj (fields.foldl (fun object field => Json.insertField field.1 field.2 object) [])).encode

end Profile

def optionalText (s : Option String) : Json := (s.map Json.str).getD .null

structure Prepared where
  identity : AuthIdentity
  /-- The operation id as it was sent, and the key of the receipt. -/
  operation : Option (String × OwnerScopedKey)
  wing : String
  room : String
  content : String
  sourceFile : Option String
  addedBy : String
  allowNearDuplicate : Bool
  requestHash : String
  /-- The supplied id, or the derived one. -/
  resolved : DrawerId

def effectiveAddedBy (identity : AuthIdentity) (claimed : Option String) : String :=
  match claimed with
  | some claimed => if claimed ≠ identity.name then s!"{identity.name}:{claimed}" else identity.name
  | none => identity.name

def validatedOperation (operationId : Option String) (identity : AuthIdentity) :
    Except AddError (Option (String × OwnerScopedKey)) :=
  operationId.mapM fun rawKey => do
    let key ← (OwnerScopedKey.new (identity.owner.map (·.id)) rawKey).mapError .provenance
    return (rawKey, key)

/-- The fields whose hash tells one request under an operation id from another. -/
def hashedFields (body : AddDrawerRequest) (addedBy : String) : List (String × Json) :=
  [("wing", .str body.wing), ("room", .str body.room), ("content", .str body.content),
    ("source_file", optionalText body.sourceFile), ("effective_added_by", .str addedBy),
    ("drawer_id", optionalText body.drawerId)] ++
  if body.allowNearDuplicate then [("allow_near_duplicate", .bool true)] else []

def prepare (profile : Profile) (identity : AuthIdentity) (body : AddDrawerRequest)
    (now : OffsetDateTime) : Except AddError Prepared := do
  if body.content.utf8ByteSize > maxDrawerContentBytes then
    throw (.invalidParams s!"content must be at most {maxDrawerContentBytes} bytes")
  if isDiaryWingOrRoom body.wing body.room then
    throw .diaryNotFederated
  if body.sourceFile.any fun file => diaryTopicPrefix.toList.isPrefixOf file.toList then
    throw .diaryNotFederated
  let wing ← (WingId.new body.wing).mapError .id
  (validateId "room" body.room).mapError .id
  if !identity.allowsWing .write wing.str then
    throw .forbidden
  let addedBy := effectiveAddedBy identity body.addedBy
  let operation ← validatedOperation body.operationId identity
  let resolved ←
    match body.drawerId with
    | some supplied => drawerId supplied
    | none => profile.generatedDrawerId "drawer" wing.str body.room body.content now
  return { identity, operation, wing := wing.str, room := body.room, content := body.content
           sourceFile := body.sourceFile, addedBy
           allowNearDuplicate := body.allowNearDuplicate
           requestHash := profile.mutationRequestHash (hashedFields body addedBy), resolved }

namespace Prepared

variable (req : Prepared)

def storedSourceFile : String := req.sourceFile.getD ""

/-- Whether a recovered drawer is the one the request adds. -/
def describes (row : DrawerRow) : Bool :=
  row.content = req.content && row.wing = req.wing && row.room = req.room &&
    row.sourceFile = req.storedSourceFile && row.addedBy = req.addedBy

def row (profile : Profile) (target : DrawerId) (now : OffsetDateTime) (embedding : List UInt32) :
    DrawerRow :=
  { id := target, wing := req.wing, room := req.room, sourceFile := req.storedSourceFile
    addedBy := req.addedBy, filedAt := now, content := req.content
    contentHash := profile.hashText req.content, embedding }

/-- `AddDrawerResponse`, without `similar` when it is empty. -/
def response (target : DrawerId) (similar : List Json) : Json :=
  .obj ([("drawer_id", .str target.str), ("room", .str req.room)] ++
    (if similar = [] then [] else [("similar", .arr similar)]) ++
    [("success", .bool true), ("wing", .str req.wing)])

def addedEvent (target : DrawerId) (now : OffsetDateTime) : ChangeEvent :=
  { eventType := "drawer_added", occurredAt := now, entityId := target.str
    actor := some req.identity.name
    detailsJson := some (Json.obj [("room", .str req.room), ("wing", .str req.wing)]).encode }

end Prepared

/-! ## Near duplicates -/

/-- A match of `find_duplicates`: the fields that are read, and the whole entry. -/
structure DuplicateMatch where
  id : String
  wing : String
  room : String
  relation : Option String
  entry : Json

def relationBlocks (relation : Option String) (allowNearDuplicate : Bool) : Bool :=
  if relation = some "series_update" then false
  else if relation = some "near_duplicate" then !allowNearDuplicate
  else true

/-- The matches that block the add, and the series it joins. -/
def classifiedAddMatches (req : Prepared) (excludeId : Option String) (found : List DuplicateMatch) :
    List Json × List Json :=
  let visibility := req.identity.visibleWings .read
  let kept := found.filter fun m =>
    excludeId ≠ some m.id && (!isDiaryWingOrRoom m.wing m.room && visibility.contains m.wing) &&
      (relationBlocks m.relation req.allowNearDuplicate || m.relation = some "series_update")
  let (blocking, series) := kept.partition fun m => relationBlocks m.relation req.allowNearDuplicate
  (blocking.map (·.entry), series.map (·.entry))

/-! ## The steps -/

/-- What a step takes from outside the four stores. -/
structure Surroundings where
  now : OffsetDateTime
  provenance : Except ProvenanceError ProvenanceEnvelope := .error (.emptyField "operation_key")
  found : Except AddError (List DuplicateMatch) := .ok []
  embedding : Except AddError (List UInt32) := .ok []
  /-- The error of a drawer store that fails. -/
  storeError : Option String := none

structure Ingesting where
  row : DrawerRow
  similar : List Json
  runId : Int

/-- Where a request is. A phase is named after the read or write that is next. -/
inductive Phase where
  | beginReceipt
  | getDrawer (target : DrawerId)
  | findSimilar (target : DrawerId)
  | restoreEvent (target : DrawerId) (response : Json)
  | findDuplicates (target : DrawerId)
  | createPendingRun (row : DrawerRow) (similar : List Json)
  | existingIds (add : Ingesting)
  | addRow (add : Ingesting)
  | ensureIndices (add : Ingesting)
  | markRunCommitted (add : Ingesting)
  | markRunFailed (add : Ingesting) (fault : StoreFault)
  | appendEvent (add : Ingesting)
  | completeReceipt (target : DrawerId) (response : Json)
  | replayed (response : Json)
  | answered (target : DrawerId) (response : Json)
  | refused (e : AddError)

def ingestSourceKey (target : DrawerId) : String := s!"federation:{target.str}"

def Ingesting.entry (row : DrawerRow) : IngestManifestEntry :=
  { runId := 0, drawerId := row.id, sourceFile := row.sourceFile, contentHash := row.contentHash
    status := .pending }

def orRefuse {α : Type} (r : Except StorageError α) (f : α → Phase) : Phase :=
  match r with
  | .ok a => f a
  | .error e => .refused (.storage e)

variable (profile : Profile) (req : Prepared) (env : Surroundings)

/-- The first step: a keyed request takes its receipt. -/
def beginStep (s : Palace) : Phase × Palace :=
  match req.operation with
  | none => (.findDuplicates req.resolved, s)
  | some (op, key) =>
    match env.provenance with
    | .error e => (.refused (.provenance e), s)
    | .ok provenance =>
      let r := (Receipts.beginReceipt env.now
        { operationKey := key, operationKind := "drawer_add", requestHash := req.requestHash
          targetId := req.resolved.str, provenance := some provenance }).run s.receipts
      let phase :=
        match r.1 with
        | .error e => .refused (.storage e)
        | .ok (.conflict _) =>
          .refused (.idempotencyConflict
            s!"operation `{op}` was already used by a different add request")
        | .ok (.replay receipt) =>
          .replayed (receipt.response.getD (.obj [("success", .bool true)]))
        | .ok (.recover receipt) =>
          match drawerId receipt.targetId with
          | .ok target => .getDrawer target
          | .error e => .refused e
        | .ok (.fresh receipt) =>
          match drawerId receipt.targetId with
          | .ok target => .findDuplicates target
          | .error e => .refused e
      (phase, { s with receipts := r.2 })

def recoveredMismatch (op target : String) : String :=
  s!"operation `{op}` recovered drawer `{target}` with mismatched " ++
    "content/wing/room/source_file/added_by"

/-- The read of a recovery: the drawer is there, or the add is made again. -/
def recoverStep (s : Palace) (target : DrawerId) : Phase :=
  match env.storeError with
  | some message => .refused (.store (.unavailable message))
  | none =>
    match s.drawers.find? fun row => row.id = target with
    | none => .findDuplicates target
    | some row =>
      if req.describes row then .findSimilar target
      else
        let op := (req.operation.map (·.1)).getD ""
        .refused (.idempotencyConflict (recoveredMismatch op target.str))

/-- The duplicate check and the embedding of the record. -/
def checkStep (target : DrawerId) : Phase :=
  match env.found with
  | .error e => .refused e
  | .ok found =>
    let (blocking, similar) := classifiedAddMatches req none found
    if blocking ≠ [] then .refused (.duplicate blocking)
    else
      match env.embedding with
      | .error e => .refused e
      | .ok embedding => .createPendingRun (req.row profile target env.now embedding) similar

/-- The next call of the drawer store, or its error. -/
def orFail (add : Ingesting) (p : Phase) : Phase :=
  match env.storeError with
  | some message => .markRunFailed add (.unavailable message)
  | none => p

/-- `put_drawers` up to its write. -/
def existingIdsStep (s : Palace) (add : Ingesting) : Phase :=
  if add.row.embedding.length ≠ profile.dimensions then
    .markRunFailed add (.put (.invalidEmbeddingDimensions add.row.id.str profile.dimensions
      add.row.embedding.length))
  else
    orFail env add
      (if add.row.id ∈ s.ids then .markRunFailed add (.put (.duplicateDrawers [add.row.id.str]))
      else .addRow add)

def Phase.next (s : Palace) : Phase → Phase × Palace
  | beginReceipt => beginStep req env s
  | getDrawer target => (recoverStep req env s target, s)
  | findSimilar target =>
    match env.found with
    | .error e => (.refused e, s)
    | .ok found =>
      let similar := (classifiedAddMatches req (some target.str) found).2
      (.restoreEvent target (req.response target similar), s)
  | restoreEvent target response =>
    match req.operation with
    | none => (.answered target response, s)
    | some (_, key) =>
      let r := (ChangeLog.appendEventIfAbsentWithOperation (req.addedEvent target env.now)
        key.compositeKey).run s.changes
      (orRefuse r.1 fun _ => .completeReceipt target response, { s with changes := r.2 })
  | findDuplicates target => (checkStep profile req env target, s)
  | createPendingRun row similar =>
    let r := (Ingest.createPendingRun "federation_write" (ingestSourceKey row.id)
      [Ingesting.entry row] env.now).run s.ingest
    (orRefuse r.1 fun run => .existingIds ⟨row, similar, run.id⟩, { s with ingest := r.2 })
  | existingIds add => (existingIdsStep profile env s add, s)
  | addRow add =>
    match env.storeError with
    | some message => (.markRunFailed add (.unavailable message), s)
    | none => (.ensureIndices add, { s with drawers := s.drawers ++ [add.row] })
  | ensureIndices add => (orFail env add (.markRunCommitted add), s)
  | markRunCommitted add =>
    let r := (Ingest.markRunCommitted add.runId (ingestSourceKey add.row.id) add.row.sourceFile
      add.row.contentHash 1 env.now).run s.ingest
    (orRefuse r.1 fun _ => .appendEvent add, { s with ingest := r.2 })
  | markRunFailed add fault =>
    let r := (Ingest.markRunFailed add.runId fault.display env.now).run s.ingest
    (orRefuse r.1 fun _ => .refused (.store fault), { s with ingest := r.2 })
  | appendEvent add =>
    let event := req.addedEvent add.row.id add.row.filedAt
    let response := req.response add.row.id add.similar
    match req.operation with
    | some (_, key) =>
      let r := (ChangeLog.appendEventIfAbsentWithOperation event key.compositeKey).run s.changes
      (orRefuse r.1 fun _ => .completeReceipt add.row.id response, { s with changes := r.2 })
    | none =>
      let r := (ChangeLog.appendEvent event).run s.changes
      (orRefuse r.1 fun _ => .answered add.row.id response, { s with changes := r.2 })
  | completeReceipt target response =>
    match req.operation with
    | none => (.answered target response, s)
    | some (_, key) =>
      let r := (Receipts.completeReceipt env.now (.ownerScoped key) response).run s.receipts
      (orRefuse r.1 fun _ => .answered target response, { s with receipts := r.2 })
  | replayed response => (.replayed response, s)
  | answered target response => (.answered target response, s)
  | refused e => (.refused e, s)

end AgentPalace.Server
