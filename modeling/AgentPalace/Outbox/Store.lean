import AgentPalace.Outbox.Types

/-!
# The outbox store

Every mutating operation of `OutboxStore`, statement by statement, as a
transaction body. An operation is staged before the local mutation it records,
activated after it, claimed under a lease and then acknowledged, retried or
failed; whoever finds an expired lease takes it over.
-/

namespace AgentPalace.Outbox

abbrev OTx (α : Type) := Tx OutboxDb StorageError α

/-! ## Messages of the errors -/

def outboxLeaseHeldByAnotherWorker : String := "outbox operation lease is held by another worker"
def outboxOnlyLeaseOwner : String := "only the lease owner may perform this action"
def outboxOperationNotInFlight : String := "outbox operation is not in flight"
def outboxLeaseHasExpired : String := "outbox operation lease has expired"
def outboxOperationTerminal : String := "terminal outbox operation cannot be claimed"
def outboxRetryNotDue : String := "outbox operation retry is not due yet"
def outboxOnlyStagedMayActivate : String := "only a staged outbox operation may be activated"
def outboxCancellableStateRequired : String := "only a staged outbox operation may be cancelled"
def outboxOperationNotActivated : String :=
  "staged outbox operation must be activated before it can be claimed"
def outboxPredecessorInFlight : String :=
  "outbox operation has an earlier nonterminal predecessor with the same destination remote and ordering key"
def outboxLeaseDurationOutOfRange : String := "outbox lease duration is out of range"

def maxPayloadBytes : Nat := 16 * 1024 * 1024
def maxErrorBytes : Nat := 1024

/-! ## Input checks -/

def boundedIdentifier (value name : String) : Except StorageError Unit :=
  if isBlank value then .error (.invariant s!"{name} must not be empty")
  else if value.utf8ByteSize > maxIdentifierBytes then
    .error (.invariant s!"{name} must be at most {maxIdentifierBytes} bytes")
  else .ok ()

def nonemptyIdentifier (value name : String) : Except StorageError Unit :=
  if isBlank value then .error (.invariant s!"{name} must not be empty") else .ok ()

def boundedJson : Json → Except StorageError Unit := boundedJsonBy maxPayloadBytes "16 MiB"

def boundedError (value : String) : Except StorageError Unit :=
  if isBlank value then .error (.invariant "error must not be empty")
  else if value.utf8ByteSize > maxErrorBytes then
    .error (.invariant s!"error exceeds {maxErrorBytes} bytes")
  else .ok ()

/-- The operation is leased, by this worker, on a live lease. -/
def ensureInFlight (op : OutboxOperation) (worker : String) (now : OffsetDateTime) :
    Except StorageError Unit :=
  if op.state ≠ .leased then .error (.invariant outboxOperationNotInFlight)
  else if op.leaseOwner ≠ some worker then .error (.invariant outboxOnlyLeaseOwner)
  else if op.leaseExpiresAt.all (·.time ≤ now) then .error (.invariant outboxLeaseHasExpired)
  else .ok ()

/-! ## Statements -/

def getOperation (id : String) : OTx (Option OutboxOperation) :=
  Tx.query fun db => db.operations.get? id

def findOperationByKey (actor key : String) : OTx (Option OutboxOperation) :=
  Tx.query fun db =>
    db.operations.rows.find? fun op => op.createdBy = actor ∧ op.idempotencyKey = key

/-- An active operation of the group stands before `sequence`. -/
def hasPredecessor (db : OutboxDb) (destinationRemote orderingKey : String) (sequence : Int) :
    Bool :=
  db.operations.rows.any fun p => p.destinationRemote = destinationRemote ∧
    p.orderingKey = orderingKey ∧ p.sequence < sequence ∧ p.state.active

/-- `ORDER BY sequence`. -/
def OutboxDb.bySequence (db : OutboxDb) : List OutboxOperation :=
  orderBy (·.sequence) db.operations.rows

def dueHead (db : OutboxDb) (destinationRemote : String) (now : OffsetDateTime) :
    Option OutboxOperation :=
  (db.bySequence.filter fun c =>
    c.destinationRemote = destinationRemote ∧ (c.state = .pending ∨ c.state = .retryable) ∧
      hasPredecessor db c.destinationRemote c.orderingKey c.sequence = false).find? fun c =>
    c.retryAfter.all (·.time ≤ now)

/-- A leased operation, of the remote if one is given, whose lease SQLite finds
expired. -/
def overdue (destinationRemote : Option String) (now : Timestamp) (op : OutboxOperation) : Bool :=
  destinationRemote.all (op.destinationRemote = ·) && op.state = .leased &&
    op.leaseExpiresAt.any (·.juliandayLe now)

def expiredLease (db : OutboxDb) (destinationRemote : Option String) (now : Timestamp) :
    Option OutboxOperation :=
  db.bySequence.find? (overdue destinationRemote now)

/-- `UPDATE ... WHERE operation_id = id AND ..`, and the number of rows it changed. -/
def update (id : String) (guard : OutboxOperation → Bool) (f : OutboxOperation → OutboxOperation)
    (hf : ∀ r, (f r).key = r.key := by intro r; rfl) : OTx Nat := do
  let changed ← Tx.query fun db => ((db.operations.get? id).filter guard).toList.length
  have hkey : ∀ r, (if guard r then f r else r).key = r.key := fun r => by
    split
    · exact hf r
    · rfl
  Tx.exec fun db => .ok
    { db with operations := db.operations.modify id (fun r => if guard r then f r else r) hkey }
  return changed

/-- The end of every operation that wrote a row. -/
def finish (id message : String) : OTx OutboxOperation := do
  let result ← getOperation id
  let result ← Tx.lift (okOr result message)
  Tx.commit
  return result

/-! ## Enqueue -/

def replayPayload (host : Host) (op : OutboxOperation) (input : NewOutboxOperation) : Json :=
  if op.mutationKind = "ingest_file" ∧
      ((op.payload.get? "local").bind (·.get? "effect_hash")).isSome then
    compactIngestionPayload host.blake3 input.payload
  else input.payload

def enqueue (host : Host) (input : NewOutboxOperation) : OTx OutboxOperation := do
  Tx.lift (validateKey input.idempotencyKey)
  Tx.lift (boundedIdentifier input.createdBy "created_by")
  Tx.lift (boundedIdentifier input.mutationKind "mutation_kind")
  Tx.lift (nonemptyIdentifier input.entityId "entity_id")
  Tx.lift (boundedIdentifier input.destinationRemote "destination_remote")
  Tx.lift (nonemptyIdentifier input.orderingKey "ordering_key")
  Tx.lift (boundedJson input.payload)
  if input.maxAttempts < 1 then
    throw (.invariant "max_attempts must be at least 1")
  match ← findOperationByKey input.createdBy input.idempotencyKey with
  | some op =>
    if op.mutationKind ≠ input.mutationKind ∨ op.entityId ≠ input.entityId ∨
        op.destinationRemote ≠ input.destinationRemote ∨ op.orderingKey ≠ input.orderingKey ∨
        op.maxAttempts ≠ input.maxAttempts ∨ op.payload ≠ replayPayload host op input then
      throw (.invariant s!"outbox idempotency key `{input.idempotencyKey}` was reused with a different mutation")
    if op.state = .cancelled then
      -- a revived intent stays behind what committed while it was cancelled
      let nextSequence ← Tx.query fun db => nextAfter db.sequences
      let nextSequence ← Tx.lift (sql nextSequence)
      let nextEntitySequence ← Tx.query fun db =>
        nextAfter (db.entitySequences input.entityId input.destinationRemote)
      let nextEntitySequence ← Tx.lift (sql nextEntitySequence)
      let now ← Tx.lift (formatTime host.now)
      let _ ← update op.operationId (·.state = .cancelled) fun r =>
        { r with sequence := nextSequence, entitySequence := nextEntitySequence, state := .staged
                 revision := r.revision + 1, leaseOwner := none, leaseExpiresAt := none
                 retryAfter := none, lastError := none, createdAt := now, updatedAt := now }
      finish op.operationId "restored operation disappeared"
    else
      Tx.commit
      return op
  | none =>
    let nextSequence ← Tx.query fun db =>
      nextAfter (db.entitySequences input.entityId input.destinationRemote)
    let nextSequence ← Tx.lift (sql nextSequence)
    let id := "outbox_" ++ host.uuid
    let now ← Tx.lift (formatTime host.now)
    Tx.exec fun db => sql (db.insert? fun sequence =>
      { operationId := id, sequence, createdBy := input.createdBy
        idempotencyKey := input.idempotencyKey, mutationKind := input.mutationKind
        entityId := input.entityId, destinationRemote := input.destinationRemote
        orderingKey := input.orderingKey, entitySequence := nextSequence, state := .staged
        revision := 0, leaseOwner := none, leaseExpiresAt := none, attemptCount := 0
        maxAttempts := input.maxAttempts, retryAfter := none, lastError := none
        payload := input.payload, createdAt := now, updatedAt := now })
    finish id "enqueued operation disappeared"

/-! ## Staged operations -/

def activate (host : Host) (id : String) (expectedRevision : Int) :
    OTx (RevisionedWrite OutboxOperation) := do
  match ← getOperation id with
  | none => return .conflict none
  | some op =>
    if op.revision ≠ expectedRevision then
      return .conflict (some op.revision)
    if op.state ≠ .staged then
      throw (.invariant outboxOnlyStagedMayActivate)
    let payload :=
      if op.mutationKind = "ingest_file" then compactIngestionPayload host.blake3 op.payload
      else op.payload
    let now ← Tx.lift (formatTime host.now)
    let changed ← update id (·.revision = expectedRevision) fun r =>
      { r with state := .pending, revision := r.revision + 1, updatedAt := now
               payload := payload }
    if changed ≠ 1 then
      return .conflict none
    let result ← finish id "activated operation disappeared"
    return .applied result

def cancel (host : Host) (id : String) (expectedRevision : Int) :
    OTx (RevisionedWrite OutboxOperation) := do
  match ← getOperation id with
  | none => return .conflict none
  | some op =>
    if op.revision ≠ expectedRevision then
      return .conflict (some op.revision)
    if op.state ≠ .staged then
      throw (.invariant outboxCancellableStateRequired)
    let now ← Tx.lift (formatTime host.now)
    let changed ← update id (fun r => r.revision = expectedRevision ∧ r.state = .staged) fun r =>
      { r with state := .cancelled, revision := r.revision + 1, updatedAt := now }
    if changed ≠ 1 then
      return .conflict none
    let result ← finish id "cancelled operation disappeared"
    return .applied result

/-! ## Leases -/

def claimNext (host : Host) (destinationRemote worker : String) (ttl : Duration) :
    OTx (Option OutboxOperation) := do
  Tx.lift (validateActor worker)
  Tx.lift (validateTtl ttl)
  let now := host.now
  match ← Tx.query fun db => dueHead db destinationRemote now with
  | none =>
    Tx.commit
    return none
  | some due =>
    let expiry ← Tx.lift (okOr (now.checkedAdd ttl) outboxLeaseDurationOutOfRange)
    let leaseExpiresAt ← Tx.lift (formatTime expiry)
    let updatedAt ← Tx.lift (formatTime now)
    let changed ← update due.operationId (·.revision = due.revision) fun r =>
      { r with state := .leased, leaseOwner := some worker, leaseExpiresAt := some leaseExpiresAt
               retryAfter := none, updatedAt := updatedAt, revision := r.revision + 1 }
    if changed ≠ 1 then
      Tx.commit
      return none
    let op ← finish due.operationId "claimed operation disappeared"
    return some op

def claimById (host : Host) (id worker : String) (expectedRevision : Int) (ttl : Duration) :
    OTx (RevisionedWrite OutboxOperation) := do
  Tx.lift (validateActor worker)
  Tx.lift (validateTtl ttl)
  match ← getOperation id with
  | none => return .conflict none
  | some op =>
    let now := host.now
    if op.revision ≠ expectedRevision then
      return .conflict (some op.revision)
    if op.state = .staged then
      throw (.invariant outboxOperationNotActivated)
    if op.state.terminal then
      throw (.invariant outboxOperationTerminal)
    let predecessor ← Tx.query fun db =>
      hasPredecessor db op.destinationRemote op.orderingKey op.sequence
    if predecessor then
      throw (.invariant outboxPredecessorInFlight)
    if op.retryAfter.any (now < ·.time) then
      throw (.invariant outboxRetryNotDue)
    if op.state = .leased ∧ op.leaseOwner.any (· ≠ worker) ∧
        op.leaseExpiresAt.any (now < ·.time) then
      throw (.invariant outboxLeaseHeldByAnotherWorker)
    let expiry ← Tx.lift (okOr (now.checkedAdd ttl) outboxLeaseDurationOutOfRange)
    let leaseExpiresAt ← Tx.lift (formatTime expiry)
    let updatedAt ← Tx.lift (formatTime now)
    let changed ← update id (·.revision = expectedRevision) fun r =>
      { r with state := .leased, leaseOwner := some worker, leaseExpiresAt := some leaseExpiresAt
               retryAfter := none, updatedAt := updatedAt, revision := r.revision + 1 }
    if changed ≠ 1 then
      return .conflict none
    let result ← finish id "claimed operation disappeared"
    return .applied result

def renewLease (host : Host) (id worker : String) (expectedRevision : Int) (ttl : Duration) :
    OTx (RevisionedWrite OutboxOperation) := do
  Tx.lift (validateActor worker)
  Tx.lift (validateTtl ttl)
  match ← getOperation id with
  | none => return .conflict none
  | some op =>
    let now := host.now
    if op.revision ≠ expectedRevision then
      return .conflict (some op.revision)
    if op.state ≠ .leased ∨ op.leaseOwner ≠ some worker then
      throw (.invariant outboxOnlyLeaseOwner)
    if op.leaseExpiresAt.all (·.time ≤ now) then
      throw (.invariant outboxLeaseHasExpired)
    let next := op.revision + 1
    let expiry ← Tx.lift (okOr (now.checkedAdd ttl) outboxLeaseDurationOutOfRange)
    let leaseExpiresAt ← Tx.lift (formatTime expiry)
    let updatedAt ← Tx.lift (formatTime now)
    let _ ← update id (fun _ => true) fun r =>
      { r with leaseExpiresAt := some leaseExpiresAt, revision := next, updatedAt := updatedAt }
    let result ← finish id "renewed operation disappeared"
    return .applied result

def reclaimExpiredLease (host : Host) (destinationRemote : Option String) (worker : String)
    (ttl : Duration) : OTx (Option OutboxOperation) := do
  Tx.lift (validateActor worker)
  Tx.lift (validateTtl ttl)
  let updatedAt ← Tx.lift (formatTime host.now)
  match ← Tx.query fun db => expiredLease db destinationRemote updatedAt with
  | none =>
    Tx.commit
    return none
  | some op =>
    let expiry ← Tx.lift (okOr (host.now.checkedAdd ttl) outboxLeaseDurationOutOfRange)
    let leaseExpiresAt ← Tx.lift (formatTime expiry)
    let changed ← update op.operationId (fun _ => true) fun r =>
      { r with leaseOwner := some worker, leaseExpiresAt := some leaseExpiresAt
               updatedAt := updatedAt, revision := r.revision + 1 }
    if changed ≠ 1 then
      Tx.commit
      return none
    let op ← finish op.operationId "reclaimed operation disappeared"
    return some op

/-! ## Outcomes of a delivery -/

def acknowledge (host : Host) (id worker : String) (expectedRevision : Int) :
    OTx (RevisionedWrite OutboxOperation) := do
  Tx.lift (validateActor worker)
  match ← getOperation id with
  | none => return .conflict none
  | some op =>
    if op.revision ≠ expectedRevision then
      return .conflict (some op.revision)
    if op.state = .replicated then
      Tx.commit
      return .applied op
    Tx.lift (ensureInFlight op worker host.now)
    let next := op.revision + 1
    let updatedAt ← Tx.lift (formatTime host.now)
    let _ ← update id (fun _ => true) fun r =>
      { r with state := .replicated, revision := next, leaseOwner := none, leaseExpiresAt := none
               retryAfter := none, lastError := none, updatedAt := updatedAt }
    let result ← finish id "acknowledged operation disappeared"
    return .applied result

def scheduleRetry (host : Host) (id worker : String) (expectedRevision : Int) (error : String)
    (retryAfter : OffsetDateTime) : OTx (RevisionedWrite OutboxOperation) := do
  Tx.lift (validateActor worker)
  Tx.lift (boundedError error)
  match ← getOperation id with
  | none => return .conflict none
  | some op =>
    if op.revision ≠ expectedRevision then
      return .conflict (some op.revision)
    Tx.lift (ensureInFlight op worker host.now)
    let next := op.revision + 1
    let attempts := op.attemptCount + 1
    let retryAfter ← Tx.lift (formatTime retryAfter)
    let updatedAt ← Tx.lift (formatTime host.now)
    let _ ← update id (fun _ => true) fun r =>
      { r with state := .retryable, revision := next, leaseOwner := none, leaseExpiresAt := none
               retryAfter := some retryAfter, attemptCount := attempts, lastError := some error
               updatedAt := updatedAt }
    let result ← finish id "retried operation disappeared"
    return .applied result

def fail (host : Host) (id worker : String) (expectedRevision : Int) (error : String) :
    OTx (RevisionedWrite OutboxOperation) := do
  Tx.lift (validateActor worker)
  Tx.lift (boundedError error)
  match ← getOperation id with
  | none => return .conflict none
  | some op =>
    if op.revision ≠ expectedRevision then
      return .conflict (some op.revision)
    Tx.lift (ensureInFlight op worker host.now)
    let next := op.revision + 1
    let attempts := op.attemptCount + 1
    let updatedAt ← Tx.lift (formatTime host.now)
    let _ ← update id (fun _ => true) fun r =>
      { r with state := .failed, revision := next, leaseOwner := none, leaseExpiresAt := none
               retryAfter := none, attemptCount := attempts, lastError := some error
               updatedAt := updatedAt }
    let result ← finish id "failed operation disappeared"
    return .applied result

end AgentPalace.Outbox
