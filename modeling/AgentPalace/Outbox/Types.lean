import AgentPalace.Storage.Basic

/-!
# The data of the replication outbox

An `OutboxOperation` is a row of `replication_outbox`. Its `sequence` is the
rowid, which a revival rewrites, so rows are found by `operationId`; `OutboxDb`
keeps the largest rowid ever inserted beside them, as `AUTOINCREMENT` does. The
two other `UNIQUE` constraints of the table are not checked by the model's
statements: they hold of every reachable outbox.
-/

namespace AgentPalace.Outbox

inductive OutboxState where
  | staged | pending | leased | retryable | replicated | failed | cancelled
  deriving DecidableEq

namespace OutboxState

def terminal : OutboxState → Bool
  | .replicated | .failed | .cancelled => true
  | _ => false

/-- `state IN ('staged','pending','leased','retryable')`: a barrier for the
operations behind it. -/
def active : OutboxState → Bool
  | .staged | .pending | .leased | .retryable => true
  | _ => false

theorem active_eq (s : OutboxState) : s.active = !s.terminal := by cases s <;> rfl

end OutboxState

structure NewOutboxOperation where
  createdBy : String
  idempotencyKey : String
  mutationKind : String
  entityId : String
  destinationRemote : String
  orderingKey : String
  payload : Json
  maxAttempts : Int

structure OutboxOperation where
  operationId : String
  sequence : Int
  createdBy : String
  idempotencyKey : String
  mutationKind : String
  entityId : String
  destinationRemote : String
  orderingKey : String
  entitySequence : Int
  state : OutboxState
  revision : Int
  leaseOwner : Option String
  leaseExpiresAt : Option Timestamp
  attemptCount : Int
  maxAttempts : Int
  retryAfter : Option Timestamp
  lastError : Option String
  payload : Json
  createdAt : Timestamp
  updatedAt : Timestamp
  deriving DecidableEq

def OutboxOperation.key (op : OutboxOperation) : String := op.operationId

/-- Operations with the same remote and ordering key are delivered in order. -/
def OutboxOperation.SameGroup (a b : OutboxOperation) : Prop :=
  a.destinationRemote = b.destinationRemote ∧ a.orderingKey = b.orderingKey

structure OutboxDb where
  operations : Table OutboxOperation.key
  /-- The largest sequence ever inserted. -/
  autoincrement : Int

namespace OutboxDb

def empty : OutboxDb := ⟨.empty, 0⟩

/-- `SELECT sequence`. -/
def sequences (db : OutboxDb) : List Int := db.operations.rows.map (·.sequence)

/-- `SELECT entity_sequence` of one entity and remote. -/
def entitySequences (db : OutboxDb) (entityId destinationRemote : String) : List Int :=
  (db.operations.rows.filter fun op =>
    op.entityId = entityId ∧ op.destinationRemote = destinationRemote).map (·.entitySequence)

/-- `INSERT` of the row built for the next sequence. -/
def insert? (db : OutboxDb) (mk : Int → OutboxOperation) : Except SqlFault OutboxDb :=
  let last := max (maxOrZero db.sequences) db.autoincrement
  if maxRowid ≤ last then .error .full
  else do return ⟨← db.operations.insert? (mk (last + 1)), last + 1⟩

end OutboxDb

/-! ## Payloads of ingested files -/

/-- The local effect of a file, without what only its recovery needs: a
fingerprint stands for the drawers. -/
def compactLocal (blake3 : String → String) : Json → Json
  | .obj fields =>
    if (fields.lookup "drawers").isSome then
      let fields := Json.removeField "previous_ids" fields
      let fingerprint := blake3 (Json.obj fields).encode
      .obj (Json.insertField "effect_hash" (.str fingerprint) (Json.removeField "drawers" fields))
    else .obj fields
  | other => other

def compactIngestionPayload (blake3 : String → String) : Json → Json
  | .obj fields =>
    .obj (fields.map fun f => if f.1 = "local" then (f.1, compactLocal blake3 f.2) else f)
  | other => other

end AgentPalace.Outbox
