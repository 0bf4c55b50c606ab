import AgentPalace.Storage.Basic

/-!
# Coordination records and tables

The five tables of the coordination store. A row is the record the store hands
out plus the columns it keeps to itself: the idempotency key and, for tasks,
the discovery sequence. Attribution rides along as its JSON document.

`CoordinationDb` is the operational database as far as coordination goes; the
tables carry their primary keys and sequences, so no two tasks share an id and
the audit log is always in sequence order.
-/

namespace AgentPalace.Coordination

inductive TaskState where
  | pending
  | running
  | inputRequired
  | completed
  | cancelled
  | failed
  | expired
  deriving DecidableEq

namespace TaskState

def asStr : TaskState → String
  | pending => "pending"
  | running => "running"
  | inputRequired => "input_required"
  | completed => "completed"
  | cancelled => "cancelled"
  | failed => "failed"
  | expired => "expired"

def terminal : TaskState → Bool
  | completed | cancelled | failed | expired => true
  | _ => false

end TaskState

structure NewTask where
  title : String
  description : String
  createdBy : String
  wing : String
  idempotencyKey : String
  parentId : Option String := none
  dependencies : List String := []
  budget : Option Json := none
  expiresAt : Option OffsetDateTime := none

structure Task where
  taskId : String
  title : String
  description : String
  state : TaskState
  revision : Int
  createdBy : String
  wing : String
  owner : Option String
  /-- Executor allowed to resume checkpointed work, independent of lease expiry. -/
  executorAffinity : Option String
  parentId : Option String
  dependencies : List String
  budget : Option Json
  leaseExpiresAt : Option Timestamp
  expiresAt : Option Timestamp
  createdAt : Timestamp
  updatedAt : Timestamp
  provenance : Option Json
  deriving DecidableEq

structure TaskRow extends Task where
  idempotencyKey : String
  sequence : Int
  deriving DecidableEq

structure NewMessage where
  taskId : String
  sender : String
  recipient : String
  kind : String
  payload : Json
  idempotencyKey : String
  envelopeVersion : Int := 1

structure Message where
  messageId : String
  sequence : Int
  taskId : String
  sender : String
  recipient : String
  kind : String
  payload : Json
  envelopeVersion : Int
  acknowledgedAt : Option Timestamp
  acknowledgedBy : Option String
  createdAt : Timestamp
  provenance : Option Json
  deriving DecidableEq

structure MessageRow extends Message where
  idempotencyKey : String
  deriving DecidableEq

structure NewArtifact where
  taskId : String
  createdBy : String
  role : String
  mediaType : String
  content : String
  idempotencyKey : String

structure Artifact where
  artifactId : String
  taskId : String
  createdBy : String
  role : String
  mediaType : String
  content : String
  contentHash : String
  createdAt : Timestamp
  provenance : Option Json
  deriving DecidableEq

structure ArtifactRow extends Artifact where
  idempotencyKey : String
  deriving DecidableEq

structure NewTaskResult where
  taskId : String
  createdBy : String
  payload : Json
  idempotencyKey : String

structure TaskResult where
  resultId : String
  taskId : String
  createdBy : String
  payload : Json
  createdAt : Timestamp
  provenance : Option Json
  deriving DecidableEq

structure TaskResultRow extends TaskResult where
  idempotencyKey : String
  deriving DecidableEq

structure Event where
  sequence : Int
  eventId : String
  entityType : String
  entityId : String
  taskId : Option String
  wing : String
  eventType : String
  actor : String
  fromState : Option TaskState
  toState : Option TaskState
  revision : Option Int
  details : Option Json
  occurredAt : Timestamp
  deriving DecidableEq

/-- The outcome of an import: the task, and whether it is an earlier one. -/
structure ImportedTask where
  task : Task
  replayed : Bool

abbrev TaskRow.key (r : TaskRow) : String := r.taskId

abbrev MessageRow.key (r : MessageRow) : String := r.messageId

abbrev MessageRow.seq (r : MessageRow) : Int := r.sequence

abbrev ArtifactRow.key (r : ArtifactRow) : String := r.artifactId

abbrev TaskResultRow.key (r : TaskResultRow) : String := r.resultId

structure CoordinationDb where
  tasks : Series TaskRow.key TaskRow.sequence
  messages : Series MessageRow.key MessageRow.seq
  artifacts : Table ArtifactRow.key
  results : Table TaskResultRow.key
  events : Series Event.eventId Event.sequence

namespace CoordinationDb

def empty : CoordinationDb := ⟨.empty, .empty, .empty, .empty, .empty⟩

@[simp] theorem get?_tasks_empty (id : String) : empty.tasks.get? id = none := rfl

/-- The audit events of a task, in sequence order. -/
def eventsOf (db : CoordinationDb) (id : String) : List Event :=
  db.events.rows.filter fun e => e.taskId = some id

end CoordinationDb

end AgentPalace.Coordination
