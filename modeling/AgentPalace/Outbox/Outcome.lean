import AgentPalace.Outbox.System

/-!
# What one call to the outbox can do

`Outcome` lists everything a call can answer and write, with the guards under
which it does: nothing, one new row, or one row changed in one of ten ways
(`Change`). The results about runs look at this list, not at the bodies of the
operations.
-/

namespace AgentPalace.Outbox

/-! ## The rows a call writes -/

def NewOutboxOperation.row (input : NewOutboxOperation) (host : Host) (ts : Timestamp)
    (entitySequence sequence : Int) : OutboxOperation :=
  { operationId := "outbox_" ++ host.uuid, sequence, createdBy := input.createdBy
    idempotencyKey := input.idempotencyKey, mutationKind := input.mutationKind
    entityId := input.entityId, destinationRemote := input.destinationRemote
    orderingKey := input.orderingKey, entitySequence, state := .staged, revision := 0
    leaseOwner := none, leaseExpiresAt := none, attemptCount := 0
    maxAttempts := input.maxAttempts, retryAfter := none, lastError := none
    payload := input.payload, createdAt := ts, updatedAt := ts }

namespace OutboxOperation

def revive (op : OutboxOperation) (sequence entitySequence : Int) (ts : Timestamp) :
    OutboxOperation :=
  { op with
    sequence, entitySequence, state := .staged, revision := op.revision + 1, leaseOwner := none
    leaseExpiresAt := none, retryAfter := none, lastError := none, createdAt := ts
    updatedAt := ts }

/-- The payload an operation keeps when it is activated. -/
def committedPayload (op : OutboxOperation) (host : Host) : Json :=
  if op.mutationKind = "ingest_file" then compactIngestionPayload host.blake3 op.payload
  else op.payload

def activate (op : OutboxOperation) (host : Host) (ts : Timestamp) : OutboxOperation :=
  { op with
    state := .pending, revision := op.revision + 1, updatedAt := ts
    payload := op.committedPayload host }

def cancel (op : OutboxOperation) (ts : Timestamp) : OutboxOperation :=
  { op with state := .cancelled, revision := op.revision + 1, updatedAt := ts }

def lease (op : OutboxOperation) (worker : String) (expiry ts : Timestamp) : OutboxOperation :=
  { op with
    state := .leased, leaseOwner := some worker, leaseExpiresAt := some expiry
    retryAfter := none, updatedAt := ts, revision := op.revision + 1 }

def renew (op : OutboxOperation) (expiry ts : Timestamp) : OutboxOperation :=
  { op with leaseExpiresAt := some expiry, revision := op.revision + 1, updatedAt := ts }

/-- The lease goes to another holder; the operation stays in flight. -/
def reclaim (op : OutboxOperation) (worker : String) (expiry ts : Timestamp) : OutboxOperation :=
  { op with
    leaseOwner := some worker, leaseExpiresAt := some expiry, updatedAt := ts
    revision := op.revision + 1 }

def acknowledge (op : OutboxOperation) (ts : Timestamp) : OutboxOperation :=
  { op with
    state := .replicated, revision := op.revision + 1, leaseOwner := none, leaseExpiresAt := none
    retryAfter := none, lastError := none, updatedAt := ts }

def retry (op : OutboxOperation) (error : String) (after ts : Timestamp) : OutboxOperation :=
  { op with
    state := .retryable, revision := op.revision + 1, leaseOwner := none, leaseExpiresAt := none
    retryAfter := some after, attemptCount := op.attemptCount + 1, lastError := some error
    updatedAt := ts }

def fail (op : OutboxOperation) (error : String) (ts : Timestamp) : OutboxOperation :=
  { op with
    state := .failed, revision := op.revision + 1, leaseOwner := none, leaseExpiresAt := none
    retryAfter := none, attemptCount := op.attemptCount + 1, lastError := some error
    updatedAt := ts }

end OutboxOperation

/-! ## Outcomes -/

/-- What `ensureInFlight` checks. -/
structure InFlight (op : OutboxOperation) (worker : String) (now : OffsetDateTime) : Prop where
  leased : op.state = .leased
  owner : op.leaseOwner = some worker
  live : ∃ e, op.leaseExpiresAt = some e ∧ now < e.time

/-- What the calls that take a lease check of their arguments. -/
structure NewLease (worker : String) (ttl : Duration) (now : OffsetDateTime) (expiry : Timestamp) :
    Prop where
  worker : isBlank worker = false
  positive : 0 < ttl
  expiry : now.checkedAdd ttl = some expiry.time

/-- One change to the row of an operation: the call, its answer and the new row. -/
inductive Change (host : Host) (db : OutboxDb) (op : OutboxOperation) (ts : Timestamp) :
    Call → Answer → OutboxOperation → Prop where
  | revived {input : NewOutboxOperation} {sequence entitySequence : Int}
      (hstate : op.state = .cancelled) (hsequence : nextAfter db.sequences = .ok sequence)
      (hentity : nextAfter (db.entitySequences op.entityId op.destinationRemote) =
        .ok entitySequence) :
      Change host db op ts (.enqueue input)
        (.ok (.operation (op.revive sequence entitySequence ts)))
        (op.revive sequence entitySequence ts)
  | activated (hstate : op.state = .staged) :
      Change host db op ts (.activate op.operationId op.revision)
        (.ok (.write (.applied (op.activate host ts)))) (op.activate host ts)
  | cancelled (hstate : op.state = .staged) :
      Change host db op ts (.cancel op.operationId op.revision)
        (.ok (.write (.applied (op.cancel ts)))) (op.cancel ts)
  | claimedNext {remote worker : String} {ttl : Duration} {expiry : Timestamp}
      (hdue : dueHead db remote host.now = some op)
      (hnew : NewLease worker ttl host.now expiry) :
      Change host db op ts (.claimNext remote worker ttl)
        (.ok (.claim (some (op.lease worker expiry ts)))) (op.lease worker expiry ts)
  | claimedById {worker : String} {ttl : Duration} {expiry : Timestamp}
      (hstaged : op.state ≠ .staged) (hactive : op.state.terminal = false)
      (hhead : hasPredecessor db op.destinationRemote op.orderingKey op.sequence = false)
      (hlease : ∀ o e, op.state = .leased → op.leaseOwner = some o → op.leaseExpiresAt = some e →
        host.now < e.time → o = worker)
      (hnew : NewLease worker ttl host.now expiry) :
      Change host db op ts (.claimById op.operationId worker op.revision ttl)
        (.ok (.write (.applied (op.lease worker expiry ts)))) (op.lease worker expiry ts)
  | renewed {worker : String} {ttl : Duration} {expiry : Timestamp}
      (hflight : InFlight op worker host.now)
      (hnew : NewLease worker ttl host.now expiry) :
      Change host db op ts (.renewLease op.operationId worker op.revision ttl)
        (.ok (.write (.applied (op.renew expiry ts)))) (op.renew expiry ts)
  | reclaimed {remote : Option String} {worker : String} {ttl : Duration} {expiry : Timestamp}
      (hexpired : expiredLease db remote ts = some op)
      (hnew : NewLease worker ttl host.now expiry) :
      Change host db op ts (.reclaimExpiredLease remote worker ttl)
        (.ok (.claim (some (op.reclaim worker expiry ts)))) (op.reclaim worker expiry ts)
  | acknowledged {worker : String} (hflight : InFlight op worker host.now) :
      Change host db op ts (.acknowledge op.operationId worker op.revision)
        (.ok (.write (.applied (op.acknowledge ts)))) (op.acknowledge ts)
  | retried {worker error : String} {after : Timestamp} (hflight : InFlight op worker host.now) :
      Change host db op ts (.scheduleRetry op.operationId worker op.revision error after.time)
        (.ok (.write (.applied (op.retry error after ts)))) (op.retry error after ts)
  | failed {worker error : String} (hflight : InFlight op worker host.now) :
      Change host db op ts (.fail op.operationId worker op.revision error)
        (.ok (.write (.applied (op.fail error ts)))) (op.fail error ts)

/-- The row of `op'.operationId` was replaced by `op'`. -/
def Replaced (op' : OutboxOperation) (ops ops' : Table OutboxOperation.key) : Prop :=
  ops'.rows = ops.rows.map fun r => if r.operationId = op'.operationId then op' else r

theorem operationId_of_get? {ops : Table OutboxOperation.key} {id : String} {op : OutboxOperation}
    (h : ops.get? id = some op) : op.operationId = id := by
  have hk := Table.get?_key h
  exact hk

/-- Reading after an operation's row was replaced. -/
theorem Replaced.get? {op op' : OutboxOperation} {ops ops' : Table OutboxOperation.key}
    (h : Replaced op' ops ops') (hop : ops.get? op'.operationId = some op) (id : String) :
    ops'.get? id = if id = op'.operationId then some op' else ops.get? id :=
  Table.get?_replace op' h hop id

inductive Outcome (host : Host) (db : OutboxDb) (call : Call) : Answer → OutboxDb → Prop where
  | rejected {e : StorageError} : Outcome host db call (.error e) db
  | conflict {actual : Option Int} : Outcome host db call (.ok (.write (.conflict actual))) db
  /-- There was nothing to claim. -/
  | idle : Outcome host db call (.ok (.claim none)) db
  | replayed {input : NewOutboxOperation} {op : OutboxOperation} (hcall : call = .enqueue input)
      (hop : db.operations.get? op.operationId = some op) (hstate : op.state ≠ .cancelled) :
      Outcome host db call (.ok (.operation op)) db
  | acknowledgedAgain {op : OutboxOperation} {worker : String}
      (hcall : call = .acknowledge op.operationId worker op.revision)
      (hop : db.operations.get? op.operationId = some op) (hstate : op.state = .replicated) :
      Outcome host db call (.ok (.write (.applied op))) db
  | changed {op op' : OutboxOperation} {ts : Timestamp} {answer : Answer}
      {ops : Table OutboxOperation.key} (hts : ts.time = host.now)
      (hop : db.operations.get? op.operationId = some op)
      (hchange : Change host db op ts call answer op') (hops : Replaced op' db.operations ops) :
      Outcome host db call answer { db with operations := ops }
  | enqueued {input : NewOutboxOperation} {op : OutboxOperation} {ts : Timestamp}
      {sequence entitySequence : Int} {db' : OutboxDb} (hcall : call = .enqueue input)
      (hts : ts.time = host.now)
      (hkey : ∀ r ∈ db.operations.rows,
        ¬ (r.createdBy = input.createdBy ∧ r.idempotencyKey = input.idempotencyKey))
      (hentity : nextAfter (db.entitySequences input.entityId input.destinationRemote) =
        .ok entitySequence)
      (hsequence : ∀ s ∈ db.sequences, s < sequence)
      (hop : op = input.row host ts entitySequence sequence)
      (hops : db'.operations.rows = db.operations.rows ++ [op])
      (hfresh : db.operations.get? op.operationId = none) :
      Outcome host db call (.ok (.operation op)) db'

end AgentPalace.Outbox
