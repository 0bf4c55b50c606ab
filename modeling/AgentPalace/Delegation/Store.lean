import AgentPalace.Lib.Worklist
import AgentPalace.Storage.Basic

/-!
# The delegation store

`DelegationStore` records delegated runs as spans, and notes about them as
checkpoints. Depth and fan-out are derived from the rows that are there. The
rows of a table are in the order of their insertion. `trace` walks the tree below
a span with an explicit stack; the fuel bounds its loop.
-/

namespace AgentPalace.Delegation

inductive SpanStatus where
  | running | completed | failed | cancelled | expired
  deriving DecidableEq

namespace SpanStatus

def asStr : SpanStatus → String
  | running => "running"
  | completed => "completed"
  | failed => "failed"
  | cancelled => "cancelled"
  | expired => "expired"

def terminal : SpanStatus → Bool
  | running => false
  | _ => true

end SpanStatus

inductive StopReason where
  | completed | budgetExhausted | maxDepthReached | maxFanOutReached | cancelled | error | humanStop
  deriving DecidableEq

def StopReason.asStr : StopReason → String
  | completed => "completed"
  | budgetExhausted => "budget_exhausted"
  | maxDepthReached => "max_depth_reached"
  | maxFanOutReached => "max_fan_out_reached"
  | cancelled => "cancelled"
  | error => "error"
  | humanStop => "human_stop"

inductive CheckpointType where
  | turn | toolCall | tokenUsage | retry | humanApproval | claim | handoff
  deriving DecidableEq

structure NewSpan where
  taskId : String
  parentSpanId : Option String := none
  delegator : String
  delegate : String
  budgets : Option Json := none
  idempotencyKey : String

/-- A row of `delegation_spans`. A `Span` is the row without its key. -/
structure SpanRow where
  spanId : String
  taskId : String
  parentSpanId : Option String
  delegator : String
  delegate : String
  depth : Int
  fanOutIndex : Int
  budgets : Option Json
  status : SpanStatus
  stopReason : Option StopReason
  closedBy : Option String
  revision : Int
  idempotencyKey : String
  startedAt : Timestamp
  endedAt : Option Timestamp

structure Span where
  spanId : String
  taskId : String
  parentSpanId : Option String
  delegator : String
  delegate : String
  depth : Int
  fanOutIndex : Int
  budgets : Option Json
  status : SpanStatus
  stopReason : Option StopReason
  closedBy : Option String
  revision : Int
  startedAt : OffsetDateTime
  endedAt : Option OffsetDateTime

/-- `span_row`. -/
def SpanRow.toSpan (r : SpanRow) : Span :=
  { r with startedAt := r.startedAt.time, endedAt := r.endedAt.map (·.time) }

structure NewCheckpoint where
  spanId : String
  checkpointType : CheckpointType
  summary : String
  artifactRef : Option String := none
  actor : String
  idempotencyKey : String

structure CheckpointRow where
  sequence : Int
  checkpointId : String
  spanId : String
  checkpointType : CheckpointType
  summary : String
  artifactRef : Option String
  actor : String
  idempotencyKey : String
  occurredAt : Timestamp

structure Checkpoint where
  checkpointId : String
  sequence : Int
  spanId : String
  checkpointType : CheckpointType
  summary : String
  artifactRef : Option String
  actor : String
  occurredAt : OffsetDateTime

/-- `checkpoint_row`. -/
def CheckpointRow.toCheckpoint (r : CheckpointRow) : Checkpoint :=
  { r with occurredAt := r.occurredAt.time }

structure TraceNode where
  span : Span
  checkpoints : List Checkpoint

structure Trace where
  rootSpanId : String
  nodes : List TraceNode

structure DelegationDb where
  /-- The ids of `coordination_tasks`. -/
  tasks : List String
  /-- The ids of `coordination_artifacts` with their tasks. -/
  artifacts : List (String × String)
  spans : Table SpanRow.spanId
  checkpoints : Series CheckpointRow.checkpointId CheckpointRow.sequence

def DelegationDb.empty : DelegationDb := ⟨[], [], .empty, .empty⟩

abbrev DTx (α : Type) := Tx DelegationDb StorageError α

/-! ## Input checks -/

def maxSummaryBytes : Nat := 8 * 1024

def maxSpanSummaryBytes : Nat := 256 * 1024

def maxBudgetBytes : Nat := 64 * 1024

/-- `validate_actor`, which names the argument. -/
def checkActor (value name : String) : Except StorageError Unit :=
  if isBlank value then .error (.invariant s!"{name} must not be empty") else .ok ()

def boundedBudget (value : Json) : Except StorageError Unit :=
  if value.encodedSize > maxBudgetBytes then .error (.invariant "budgets exceed 64 KiB")
  else .ok ()

def statusMatchesStopReason (status : SpanStatus) (reason : StopReason) : Bool :=
  match status, reason with
  | .completed, .completed => true
  | .failed, .error | .failed, .budgetExhausted | .failed, .maxDepthReached
  | .failed, .maxFanOutReached => true
  | .cancelled, .cancelled | .cancelled, .humanStop => true
  | .expired, .budgetExhausted => true
  | _, _ => false

/-! ## Statements -/

/-- The children of a span, in the order of their insertion. -/
def childRows (db : DelegationDb) (spanId : String) : List SpanRow :=
  db.spans.rows.filter fun r => r.parentSpanId = some spanId

def rootRows (db : DelegationDb) (taskId : String) : List SpanRow :=
  db.spans.rows.filter fun r => r.parentSpanId = none && r.taskId = taskId

def checkpointRows (db : DelegationDb) (spanId : String) : List CheckpointRow :=
  db.checkpoints.rows.filter fun c => c.spanId = spanId

def getSpan (id : String) : DTx (Option SpanRow) := Tx.query fun db => db.spans.get? id

def requireSpan (id : String) : DTx SpanRow := do
  let span ← getSpan id
  Tx.lift (okOr span s!"span `{id}` not found")

def requireTask (taskId : String) : DTx Unit := do
  let found ← Tx.query fun db => decide (taskId ∈ db.tasks)
  if !found then throw (.invariant s!"task `{taskId}` not found")

def findSpanByKey (actor key : String) : DTx (Option SpanRow) :=
  Tx.query fun db => db.spans.rows.find? fun r => r.delegator = actor && r.idempotencyKey = key

def findCheckpointByKey (actor key : String) : DTx (Option CheckpointRow) :=
  Tx.query fun db =>
    db.checkpoints.rows.find? fun c => c.actor = actor && c.idempotencyKey = key

/-- SQLite's `LENGTH`: the characters before the first NUL. -/
def sqlLength (s : String) : Nat := (s.toList.takeWhile (· ≠ '\x00')).length

def summaryLength (spanId : String) : DTx Nat :=
  Tx.query fun db => ((checkpointRows db spanId).map fun c => sqlLength c.summary).sum

/-- `INSERT`, under both unique constraints. -/
def insertSpan (r : SpanRow) (db : DelegationDb) : Except StorageError DelegationDb := do
  if db.spans.rows.any fun x => x.delegator = r.delegator && x.idempotencyKey = r.idempotencyKey then
    throw (.sqlite .uniqueViolation)
  let spans ← sql (db.spans.insert? r)
  return { db with spans }

def insertCheckpoint (mk : Int → CheckpointRow) (hmk : ∀ n, (mk n).sequence = n)
    (db : DelegationDb) : Except StorageError DelegationDb := do
  if db.checkpoints.rows.any fun x =>
      x.actor = (mk 0).actor && x.idempotencyKey = (mk 0).idempotencyKey then
    throw (.sqlite .uniqueViolation)
  let checkpoints ← sql (db.checkpoints.append? mk hmk)
  return { db with checkpoints }

/-! ## Operations -/

def placeSpan (input : NewSpan) : DTx (Int × Int) :=
  match input.parentSpanId with
  | some parentId => do
    let parent ← requireSpan parentId
    if parent.taskId ≠ input.taskId then
      throw (.invariant
        s!"span `{parentId}` belongs to task `{parent.taskId}`, not `{input.taskId}`")
    if parent.status.terminal then
      throw (.invariant
        s!"span `{parentId}` is already {parent.status.asStr} and cannot gain new children")
    let siblings ← Tx.query fun db => (childRows db parentId).length
    return (parent.depth + 1, siblings)
  | none => do
    let roots ← Tx.query fun db => (rootRows db input.taskId).length
    return (0, roots)

def newSpanRow (host : Host) (input : NewSpan) (place : Int × Int) (startedAt : Timestamp) :
    SpanRow :=
  { input with
    spanId := "span_" ++ host.uuid, depth := place.1, fanOutIndex := place.2, status := .running
    stopReason := none, closedBy := none, revision := 0, startedAt, endedAt := none }

def startSpan (host : Host) (input : NewSpan) : DTx Span := do
  Tx.lift (checkActor input.delegator "delegator")
  Tx.lift (checkActor input.delegate "delegate")
  Tx.lift (validateKey input.idempotencyKey)
  Tx.lift (input.budgets.forM boundedBudget)
  match ← findSpanByKey input.delegator input.idempotencyKey with
  | some span =>
    Tx.commit
    return span.toSpan
  | none =>
    requireTask input.taskId
    let place ← placeSpan input
    let startedAt ← Tx.lift (formatTime host.now)
    let row := newSpanRow host input place startedAt
    Tx.exec (insertSpan row)
    Tx.commit
    return row.toSpan

/-- The artifact of a checkpoint is of the span's task. -/
def checkArtifact (span : SpanRow) (artifactId : String) : DTx Unit := do
  match ← Tx.query fun db => db.artifacts.lookup artifactId with
  | some taskId =>
    if taskId ≠ span.taskId then
      throw (.invariant
        s!"artifact `{artifactId}` belongs to task `{taskId}`, not span task `{span.taskId}`")
  | none => throw (.invariant s!"artifact `{artifactId}` not found")

def newCheckpointRow (host : Host) (input : NewCheckpoint) (occurredAt : Timestamp)
    (sequence : Int) : CheckpointRow :=
  { input with checkpointId := "checkpoint_" ++ host.uuid, sequence, occurredAt }

def appendCheckpoint (host : Host) (input : NewCheckpoint) : DTx Checkpoint := do
  Tx.lift (checkActor input.actor "actor")
  Tx.lift (validateKey input.idempotencyKey)
  if input.summary.utf8ByteSize > maxSummaryBytes then
    throw (.invariant (s!"checkpoint summary exceeds {maxSummaryBytes} bytes; " ++
      "store the full content as an artifact and reference it instead"))
  match ← findCheckpointByKey input.actor input.idempotencyKey with
  | some existing =>
    Tx.commit
    return existing.toCheckpoint
  | none =>
    let span ← requireSpan input.spanId
    if span.status.terminal then
      throw (.invariant
        s!"span `{input.spanId}` is already {span.status.asStr} and cannot gain new checkpoints")
    input.artifactRef.forM (checkArtifact span)
    let existing ← summaryLength input.spanId
    if existing + input.summary.utf8ByteSize > maxSpanSummaryBytes then
      throw (.invariant (s!"span `{input.spanId}` has reached its {maxSpanSummaryBytes}-byte " ++
        "cumulative checkpoint summary bound; store further content as an artifact instead"))
    let occurredAt ← Tx.lift (formatTime host.now)
    let mk := newCheckpointRow host input occurredAt
    let sequence ← Tx.query fun db => db.checkpoints.next
    Tx.exec (insertCheckpoint mk fun _ => rfl)
    Tx.commit
    return (mk sequence).toCheckpoint

/-- The columns that `close_span` sets. -/
def SpanRow.close (status : SpanStatus) (reason : StopReason) (actor : String) (revision : Int)
    (endedAt : Timestamp) (r : SpanRow) : SpanRow :=
  { r with status, stopReason := some reason, closedBy := some actor, revision
           endedAt := some endedAt }

def closeSpan (host : Host) (spanId : String) (expectedRevision : Int) (status : SpanStatus)
    (stopReason : StopReason) (actor : String) : DTx (RevisionedWrite Span) := do
  Tx.lift (checkActor actor "actor")
  if !status.terminal then
    throw (.invariant "close_span requires a terminal status; `running` is not one")
  if !statusMatchesStopReason status stopReason then
    throw (.invariant
      s!"status `{status.asStr}` is not consistent with stop_reason `{stopReason.asStr}`")
  match ← getSpan spanId with
  | none => return .conflict none
  | some current =>
    if current.revision ≠ expectedRevision then
      return .conflict (some current.revision)
    if current.status.terminal then
      throw (.invariant
        s!"span `{spanId}` is already {current.status.asStr} and cannot be closed again")
    let endedAt ← Tx.lift (formatTime host.now)
    let closed := current.close status stopReason actor (current.revision + 1) endedAt
    let updated ← Tx.query fun db =>
      ((db.spans.get? spanId).filter (·.revision = expectedRevision)).toList.length
    if updated ≠ 1 then
      return .conflict none
    Tx.exec fun db => .ok { db with
      spans := db.spans.modify spanId (·.close status stopReason actor (current.revision + 1) endedAt) }
    Tx.commit
    return .applied closed.toSpan

/-! ## The trace -/

def byFanOut (a b : SpanRow) : Prop := a.fanOutIndex ≤ b.fanOutIndex

instance : DecidableRel byFanOut := fun _ _ => inferInstanceAs (Decidable (_ ≤ _))

def TraceNode.of (db : DelegationDb) (r : SpanRow) : TraceNode :=
  ⟨r.toSpan, ((checkpointRows db r.spanId).insertionSort fun a b => a.sequence ≤ b.sequence).map
    CheckpointRow.toCheckpoint⟩

/-- One round of the loop: the node of the span, and the spans that go on the stack. The last child
is popped first. -/
def visitSpan (db : DelegationDb) (nodes : List TraceNode) (r : SpanRow) :
    List TraceNode × List SpanRow :=
  (nodes ++ [.of db r], ((childRows db r.spanId).insertionSort byFanOut).reverse)

/-- The order of the nodes: by depth, then by start. -/
def TraceNode.before (a b : TraceNode) : Prop :=
  a.span.depth < b.span.depth ∨
    a.span.depth = b.span.depth ∧ a.span.startedAt.nanos ≤ b.span.startedAt.nanos

instance : DecidableRel TraceNode.before := fun _ _ => inferInstanceAs (Decidable (_ ∨ _))

/-- `none` where the fuel runs out. -/
def trace (fuel : Nat) (db : DelegationDb) (rootSpanId : String) : Option (Option Trace) :=
  match db.spans.get? rootSpanId with
  | none => some none
  | some root =>
    (Worklist.drain (visitSpan db) fuel [] [root]).map fun nodes =>
      some ⟨rootSpanId, nodes.insertionSort TraceNode.before⟩

end AgentPalace.Delegation
