import AgentPalace.Coordination.Types

/-!
# The coordination store

Every mutating operation of `CoordinationStore`, statement by statement, as a
transaction body: input checks, reads, writes, the audit event and the commit
stand in the order of the source, so that what an early return leaves behind is
what was committed before it. `claimTask` is the one operation that commits and
then fails: a task past its deadline is moved to `expired` first.
-/

namespace AgentPalace.Coordination

abbrev CTx (α : Type) := Tx CoordinationDb StorageError α

/-! ## Messages of the errors -/

def leaseHeldByAnotherWorker : String := "task lease is held by another worker"
def terminalTaskCannotBeClaimed : String := "terminal task cannot be claimed"
def taskHasExpired : String := "task has expired"
def invalidTransitionPre : String := "invalid transition "
def onlyOwnerMayTransition : String := "only the owner may transition this task"
def onlyLeaseOwnerMayRenew : String := "only the lease owner may renew"
def leaseHasExpired : String := "lease has expired"
def onlyRecipientMayAcknowledge : String := "only the recipient may acknowledge"
def leaseDurationOutOfRange : String := "lease duration is out of range"
def notFoundSuffix : String := " not found"
def executorAffinityConflict : String := "task checkpoint is assigned to another executor"

def maxPayloadBytes : Nat := 1024 * 1024
def maxTaskTextBytes : Nat := 1024 * 1024

/-! ## Input checks -/

def boundedJson : Json → Except StorageError Unit := boundedJsonBy maxPayloadBytes "1 MiB"

def boundedText (value name : String) : Except StorageError Unit :=
  if value.utf8ByteSize > maxTaskTextBytes then .error (.invariant s!"{name} exceeds 1 MiB")
  else .ok ()

def allowedTransition (source target : TaskState) : Bool :=
  if source.terminal then false
  else
    match source, target with
    | .pending, .cancelled | .pending, .expired => true
    | .running, .inputRequired | .running, .completed | .running, .cancelled
    | .running, .failed | .running, .expired => true
    | .inputRequired, .pending | .inputRequired, .running | .inputRequired, .cancelled
    | .inputRequired, .failed | .inputRequired, .expired => true
    | _, _ => false

structure CheckpointHandoff where
  executor : String
  artifactId : String

structure YieldDetails where
  reason : String
  checkpointHandoff : Option CheckpointHandoff

/-- serde reads a struct from an object or, by position, from an array. -/
def expectStr : Json → Except DeError String
  | .str s => .ok s
  | _ => .error (.invalidType "a string")

def optField {α : Type} (j : Json) (name : String) (read : Json → Except DeError α) :
    Except DeError (Option α) :=
  match j.get? name with
  | none => .ok none
  | some v => (read v).map some

def needField {α : Type} (name : String) : Option α → Except DeError α
  | some a => .ok a
  | none => .error (.missingField name)

/-- Fields are visited in key order, missing ones reported in declaration order. -/
def CheckpointHandoff.deserialize (j : Json) : Except DeError CheckpointHandoff :=
  match j with
  | .obj _ => do
    let artifactId ← optField j "artifact_id" expectStr
    let executor ← optField j "executor" expectStr
    return ⟨← needField "executor" executor, ← needField "artifact_id" artifactId⟩
  | .arr items =>
    match items with
    | [executor, artifactId] => do return ⟨← expectStr executor, ← expectStr artifactId⟩
    | [executor] => do
      let _ ← expectStr executor
      .error (.invalidLength 1)
    | executor :: artifactId :: rest => do
      let _ ← expectStr executor
      let _ ← expectStr artifactId
      .error (.invalidLength (rest.length + 2))
    | [] => .error (.invalidLength 0)
  | _ => .error (.invalidType "struct CheckpointHandoff")

/-- `null` reads as no handoff. -/
def CheckpointHandoff.deserializeOption (j : Json) : Except DeError (Option CheckpointHandoff) :=
  if j.isNull then .ok none else (CheckpointHandoff.deserialize j).map some

def YieldDetails.deserialize (j : Json) : Except DeError YieldDetails :=
  match j with
  | .obj _ => do
    let handoff ← optField j "checkpoint_handoff" CheckpointHandoff.deserializeOption
    let reason ← optField j "reason" expectStr
    return ⟨← needField "reason" reason, handoff.getD none⟩
  | .arr items =>
    match items with
    | [reason] => do return ⟨← expectStr reason, none⟩
    | [reason, handoff] => do
      return ⟨← expectStr reason, ← CheckpointHandoff.deserializeOption handoff⟩
    | reason :: handoff :: rest => do
      let _ ← expectStr reason
      let _ ← CheckpointHandoff.deserializeOption handoff
      .error (.invalidLength (rest.length + 2))
    | [] => .error (.invalidLength 0)
  | _ => .error (.invalidType "struct YieldDetails")

def parseYield (details : Option Json) : Except StorageError (Json × YieldDetails) := do
  let details ← okOr details "yield requires details.reason"
  boundedJson details
  let parsed ← (YieldDetails.deserialize details).mapError (.invariantDe "invalid yield details: ")
  if isBlank parsed.reason then
    throw (.invariant "yield requires non-empty details.reason")
  return (details, parsed)

/-! ## Statements -/

def getTask (id : String) : CTx (Option TaskRow) := Tx.query fun db => db.tasks.get? id

def requireTask (id : String) : CTx TaskRow := do
  let task ← getTask id
  Tx.lift (okOr task s!"task `{id}`{notFoundSuffix}")

def taskWing (taskId : String) : CTx String := do
  let task ← getTask taskId
  Tx.lift (okOr (task.map (·.wing)) s!"task `{taskId}`{notFoundSuffix}")

def findTaskByKey (actor key : String) : CTx (Option TaskRow) :=
  Tx.query fun db => db.tasks.rows.find? fun t => t.createdBy = actor ∧ t.idempotencyKey = key

/-- What an audit event says, before the log numbers and dates it. -/
structure NewEvent where
  entityType : String
  entityId : String
  taskId : Option String
  wing : String
  eventType : String
  actor : String
  fromState : Option TaskState := none
  toState : Option TaskState := none
  revision : Option Int := none
  details : Option Json := none

def NewEvent.stamp (e : NewEvent) (eventId : String) (occurredAt : Timestamp) (sequence : Int) :
    Event :=
  { sequence, eventId, entityType := e.entityType, entityId := e.entityId, taskId := e.taskId
    wing := e.wing, eventType := e.eventType, actor := e.actor, fromState := e.fromState
    toState := e.toState, revision := e.revision, details := e.details, occurredAt }

def appendEvent (host : Host) (e : NewEvent) : CTx Unit := do
  let occurredAt ← Tx.lift (formatTime host.now)
  Tx.exec fun db => do
    let events ← sql (db.events.append? (e.stamp ("event_" ++ host.eventUuid) occurredAt))
    return { db with events := events }

def taskEvent (task : Task) (eventType actor : String) (fromState toState : Option TaskState)
    (revision : Int) (details : Option Json) : NewEvent :=
  { entityType := "task", entityId := task.taskId, taskId := some task.taskId, wing := task.wing
    eventType, actor, fromState, toState, revision := some revision, details }

/-! ## Tasks -/

def createTaskWithState (host : Host) (input : NewTask) (initialState : TaskState)
    (isImport : Bool) (provenance : Option Json) : CTx (Task × Bool) := do
  Tx.lift (validateKey input.idempotencyKey)
  Tx.lift (validateActor input.createdBy)
  Tx.lift (boundedText input.title "task title")
  Tx.lift (boundedText input.description "task description")
  Tx.lift (input.budget.forM boundedJson)
  let wing ← Tx.lift ((WingId.normalized input.wing).mapError .invalidId)
  if wing.str = unscopedWing then
    throw (.invariant s!"`{unscopedWing}` is reserved for tasks migrated from before wings existed; new tasks must specify a real wing")
  match ← findTaskByKey input.createdBy input.idempotencyKey with
  | some task =>
    Tx.commit
    return (task.toTask, true)
  | none =>
    (input.dependencies ++ input.parentId.toList).forM fun task => discard (requireTask task)
    let expiresAt ← Tx.lift (formatTimeOpt input.expiresAt)
    let createdAt ← Tx.lift (formatTime host.now)
    let task : Task :=
      { taskId := "task_" ++ host.uuid, title := input.title, description := input.description
        state := initialState, revision := 0, createdBy := input.createdBy, wing := wing.str
        owner := none, executorAffinity := none, parentId := input.parentId
        dependencies := input.dependencies, budget := input.budget, leaseExpiresAt := none
        expiresAt, createdAt, updatedAt := createdAt, provenance }
    Tx.exec fun db => do
      let tasks ← sql (db.tasks.append? fun sequence =>
        { task with idempotencyKey := input.idempotencyKey, sequence })
      return { db with tasks := tasks }
    let details := if isImport then some (Json.obj [("imported", .bool true)]) else none
    appendEvent host
      (taskEvent task "task_created" input.createdBy none (some initialState) 0 details)
    let created ← getTask task.taskId
    let created ← Tx.lift (okOr created "created task disappeared")
    Tx.commit
    return (created.toTask, false)

/-- `create_task_with_provenance`; `create_task` passes no provenance. -/
def createTask (host : Host) (input : NewTask) (provenance : Option Json) : CTx Task := do
  return (← createTaskWithState host input .pending false provenance).1

def importTask (host : Host) (input : NewTask) (initialState : TaskState) : CTx ImportedTask := do
  if initialState = .expired then
    throw (.invariant "TaskState::Expired is a lifecycle outcome this palace produces itself; an imported task cannot assert it as an initial state")
  let created ← createTaskWithState host input initialState true none
  return ⟨created.1, created.2⟩

def claimEventType (task : Task) : String :=
  if task.state = .pending ∧ task.executorAffinity.isSome ∧ task.leaseExpiresAt.isNone then
    "task_resumed"
  else if task.owner.isSome then "task_reclaimed"
  else "task_claimed"

def claimTask (host : Host) (id worker : String) (expectedRevision : Int) (ttl : Duration) :
    CTx (RevisionedWrite Task) := do
  Tx.lift (validateActor worker)
  Tx.lift (validateTtl ttl)
  let task ← requireTask id
  let now := host.now
  if task.revision ≠ expectedRevision then
    return .conflict (some task.revision)
  if task.state.terminal then
    throw (.invariant terminalTaskCannotBeClaimed)
  if task.expiresAt.any (·.time ≤ now) then
    let next := task.revision + 1
    let updatedAt ← Tx.lift (formatTime now)
    Tx.exec fun db => .ok { db with tasks := db.tasks.modify id fun t =>
      { t with state := .expired, revision := next, owner := none, executorAffinity := none,
               leaseExpiresAt := none, updatedAt := updatedAt } }
    appendEvent host
      (taskEvent task.toTask "task_expired" worker (some task.state) (some .expired) next none)
    Tx.commit
    throw (.invariant taskHasExpired)
  if task.executorAffinity.any (· ≠ worker) then
    throw (.invariant executorAffinityConflict)
  if task.owner.any (· ≠ worker) && task.leaseExpiresAt.any (now < ·.time) then
    throw (.invariant leaseHeldByAnotherWorker)
  let next := task.revision + 1
  let expiry ← Tx.lift (okOr (now.checkedAdd ttl) leaseDurationOutOfRange)
  let leaseExpiresAt ← Tx.lift (formatTime expiry)
  let updatedAt ← Tx.lift (formatTime now)
  let changed ← Tx.query fun db =>
    ((db.tasks.get? id).filter (·.revision = expectedRevision)).toList.length
  Tx.exec fun db => .ok { db with tasks := db.tasks.modify id fun t =>
    if t.revision = expectedRevision then
      { t with state := .running, revision := next, owner := some worker,
               leaseExpiresAt := some leaseExpiresAt, updatedAt := updatedAt }
    else t }
  if changed ≠ 1 then
    return .conflict none
  appendEvent host
    (taskEvent task.toTask (claimEventType task.toTask) worker (some task.state) (some .running)
      next none)
  let result ← requireTask id
  Tx.commit
  return .applied result.toTask

def renewLease (host : Host) (id worker : String) (expectedRevision : Int) (ttl : Duration) :
    CTx (RevisionedWrite Task) := do
  Tx.lift (validateActor worker)
  Tx.lift (validateTtl ttl)
  let task ← requireTask id
  let now := host.now
  if task.revision ≠ expectedRevision then
    return .conflict (some task.revision)
  if task.owner ≠ some worker then
    throw (.invariant onlyLeaseOwnerMayRenew)
  if task.leaseExpiresAt.all (·.time ≤ now) then
    throw (.invariant leaseHasExpired)
  let next := task.revision + 1
  let expiry ← Tx.lift (okOr (now.checkedAdd ttl) leaseDurationOutOfRange)
  let leaseExpiresAt ← Tx.lift (formatTime expiry)
  let updatedAt ← Tx.lift (formatTime now)
  Tx.exec fun db => .ok { db with tasks := db.tasks.modify id fun t =>
    { t with revision := next, leaseExpiresAt := some leaseExpiresAt, updatedAt := updatedAt } }
  appendEvent host (taskEvent task.toTask "lease_renewed" worker none none next none)
  let result ← requireTask id
  Tx.commit
  return .applied result.toTask

/-- A transition to pending that releases the lease and keeps the checkpoint. -/
def yielding (task : Task) (target : TaskState) : Bool :=
  target = .pending &&
    (task.state = .running || (task.state = .pending && task.executorAffinity.isSome))

/-- The details name a handoff that is not `null`. -/
def namesHandoff (details : Option Json) : Bool :=
  (details.bind (·.get? "checkpoint_handoff")).any fun handoff => !handoff.isNull

/-- A handoff names an executor and a checkpoint artifact of the task. -/
def checkHandoff (id : String) (handoff : CheckpointHandoff) : CTx Unit := do
  if isBlank handoff.executor then
    throw (.invariant "checkpoint_handoff.executor must not be empty")
  let metadata ← Tx.query fun db =>
    (db.artifacts.get? handoff.artifactId).map fun a => (a.taskId, a.role)
  let metadata ← Tx.lift (okOr metadata "checkpoint handoff requires an existing artifact")
  if metadata.1 ≠ id || metadata.2 ≠ "checkpoint" then
    throw (.invariant "handoff artifact must be a checkpoint for this task")

/-- The branch of `transitionTask` that yields or hands off. -/
def yieldTask (host : Host) (id actor : String) (task : TaskRow) (details : Option Json) :
    CTx (RevisionedWrite Task) := do
  let now := host.now
  if task.owner ≠ some actor then
    throw (.invariant onlyOwnerMayTransition)
  if task.expiresAt.any (·.time ≤ now) then
    throw (.invariant taskHasExpired)
  if task.state = .running && task.leaseExpiresAt.all (·.time ≤ now) then
    throw (.invariant leaseHasExpired)
  let parsed ← Tx.lift (parseYield details)
  let handoff := parsed.2.checkpointHandoff
  let executor := (handoff.map (·.executor)).getD actor
  handoff.forM (checkHandoff id)
  if task.state = .pending && task.leaseExpiresAt.isNone && handoff.isNone then
    return .applied task.toTask
  let next := task.revision + 1
  let updatedAt ← Tx.lift (formatTime now)
  Tx.exec fun db => .ok { db with tasks := db.tasks.modify id fun t =>
    { t with state := .pending, revision := next, owner := some executor,
             executorAffinity := some executor, leaseExpiresAt := none, updatedAt := updatedAt } }
  appendEvent host
    (taskEvent task.toTask (if handoff.isSome then "task_checkpoint_handed_off" else "task_yielded")
      actor (some task.state) (some .pending) next (some parsed.1))
  let result ← requireTask id
  Tx.commit
  return .applied result.toTask

def transitionTask (host : Host) (id actor : String) (expectedRevision : Int) (target : TaskState)
    (details : Option Json) : CTx (RevisionedWrite Task) := do
  Tx.lift (validateActor actor)
  let task ← requireTask id
  let now := host.now
  if task.revision ≠ expectedRevision then
    return .conflict (some task.revision)
  if !yielding task.toTask target && namesHandoff details then
    throw (.invariant "checkpoint handoff requires a running or yielded pending task transitioning to pending")
  if yielding task.toTask target then
    yieldTask host id actor task details
  else
    if !allowedTransition task.state target then
      throw (.invariant s!"{invalidTransitionPre}{task.state.asStr} -> {target.asStr}")
    if task.owner.isSome && task.owner ≠ some actor && target ≠ .cancelled then
      throw (.invariant onlyOwnerMayTransition)
    let next := task.revision + 1
    let clear := target.terminal
    let updatedAt ← Tx.lift (formatTime now)
    Tx.exec fun db => .ok { db with tasks := db.tasks.modify id fun t =>
      { t with state := target, revision := next
               owner := if clear then none else t.owner
               executorAffinity := if clear then none else t.executorAffinity
               leaseExpiresAt := if clear then none else t.leaseExpiresAt
               updatedAt := updatedAt } }
    appendEvent host
      (taskEvent task.toTask "task_transitioned" actor (some task.state) (some target) next details)
    let result ← requireTask id
    Tx.commit
    return .applied result.toTask

/-! ## Messages, artifacts and results -/

def findMessageByKey (actor key : String) : CTx (Option MessageRow) :=
  Tx.query fun db => db.messages.rows.find? fun m => m.sender = actor ∧ m.idempotencyKey = key

def sendMessage (host : Host) (input : NewMessage) (provenance : Option Json) : CTx Message := do
  Tx.lift (validateKey input.idempotencyKey)
  Tx.lift (validateActor input.sender)
  Tx.lift (validateActor input.recipient)
  Tx.lift (boundedJson input.payload)
  match ← findMessageByKey input.sender input.idempotencyKey with
  | some message =>
    Tx.commit
    return message.toMessage
  | none =>
    let task ← requireTask input.taskId
    let id := "message_" ++ host.uuid
    let createdAt ← Tx.lift (formatTime host.now)
    Tx.exec fun db => do
      let messages ← sql (db.messages.append? fun sequence =>
        { messageId := id, sequence, taskId := input.taskId, sender := input.sender
          recipient := input.recipient, kind := input.kind, payload := input.payload
          envelopeVersion := input.envelopeVersion, acknowledgedAt := none, acknowledgedBy := none
          createdAt, provenance, idempotencyKey := input.idempotencyKey })
      return { db with messages := messages }
    appendEvent host
      { entityType := "message", entityId := id, taskId := some input.taskId, wing := task.wing
        eventType := "message_sent", actor := input.sender
        details := some (.obj [("kind", .str input.kind), ("recipient", .str input.recipient)]) }
    let message ← Tx.query fun db => db.messages.get? id
    let message ← Tx.lift (okOr message "created message disappeared")
    Tx.commit
    return message.toMessage

def acknowledgeMessage (host : Host) (id actor : String) : CTx Message := do
  let message ← Tx.query fun db => db.messages.get? id
  let message ← Tx.lift (okOr message s!"message `{id}`{notFoundSuffix}")
  if message.recipient ≠ actor then
    throw (.invariant onlyRecipientMayAcknowledge)
  if message.acknowledgedAt.isSome then
    Tx.commit
    return message.toMessage
  let wing ← taskWing message.taskId
  let acknowledgedAt ← Tx.lift (formatTime host.now)
  Tx.exec fun db => .ok { db with messages := db.messages.modify id fun m =>
    { m with acknowledgedAt := some acknowledgedAt, acknowledgedBy := some actor } }
  appendEvent host
    { entityType := "message", entityId := id, taskId := some message.taskId, wing
      eventType := "message_acknowledged", actor }
  let message ← Tx.query fun db => db.messages.get? id
  let message ← Tx.lift (okOr message "acknowledged message disappeared")
  Tx.commit
  return message.toMessage

def findArtifactByKey (actor key : String) : CTx (Option ArtifactRow) :=
  Tx.query fun db => db.artifacts.rows.find? fun a => a.createdBy = actor ∧ a.idempotencyKey = key

def putArtifact (host : Host) (input : NewArtifact) (provenance : Option Json) : CTx Artifact := do
  Tx.lift (validateKey input.idempotencyKey)
  Tx.lift (validateActor input.createdBy)
  if input.content.utf8ByteSize > maxPayloadBytes then
    throw (.invariant "artifact exceeds 1 MiB")
  match ← findArtifactByKey input.createdBy input.idempotencyKey with
  | some artifact =>
    Tx.commit
    return artifact.toArtifact
  | none =>
    let task ← requireTask input.taskId
    let id := "artifact_" ++ host.uuid
    let hash := host.blake3 input.content
    let createdAt ← Tx.lift (formatTime host.now)
    Tx.exec fun db => do
      let artifacts ← sql (db.artifacts.insert?
        { artifactId := id, taskId := input.taskId, createdBy := input.createdBy, role := input.role
          mediaType := input.mediaType, content := input.content, contentHash := hash, createdAt
          provenance, idempotencyKey := input.idempotencyKey })
      return { db with artifacts := artifacts }
    appendEvent host
      { entityType := "artifact", entityId := id, taskId := some input.taskId, wing := task.wing
        eventType := "artifact_created", actor := input.createdBy
        details := some (.obj [("content_hash", .str hash), ("role", .str input.role)]) }
    let artifact ← Tx.query fun db => db.artifacts.get? id
    let artifact ← Tx.lift (okOr artifact "created artifact disappeared")
    Tx.commit
    return artifact.toArtifact

def findResultByKey (actor key : String) : CTx (Option TaskResultRow) :=
  Tx.query fun db => db.results.rows.find? fun r => r.createdBy = actor ∧ r.idempotencyKey = key

def putResult (host : Host) (input : NewTaskResult) (provenance : Option Json) :
    CTx TaskResult := do
  Tx.lift (validateKey input.idempotencyKey)
  Tx.lift (validateActor input.createdBy)
  Tx.lift (boundedJson input.payload)
  match ← findResultByKey input.createdBy input.idempotencyKey with
  | some result =>
    Tx.commit
    return result.toTaskResult
  | none =>
    let task ← requireTask input.taskId
    let id := "result_" ++ host.uuid
    let createdAt ← Tx.lift (formatTime host.now)
    Tx.exec fun db => do
      let results ← sql (db.results.insert?
        { resultId := id, taskId := input.taskId, createdBy := input.createdBy
          payload := input.payload, createdAt, provenance, idempotencyKey := input.idempotencyKey })
      return { db with results := results }
    appendEvent host
      { entityType := "result", entityId := id, taskId := some input.taskId, wing := task.wing
        eventType := "result_created", actor := input.createdBy }
    let result ← Tx.query fun db => db.results.get? id
    let result ← Tx.lift (okOr result "created result disappeared")
    Tx.commit
    return result.toTaskResult

end AgentPalace.Coordination
