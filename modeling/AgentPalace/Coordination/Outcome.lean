import AgentPalace.Coordination.System

/-!
# What one call can do

`Outcome` lists everything a call on the coordination store can do to the
database, with the guards under which it does it; `outcome` says that a call
does one of these things and no other. The results about runs only look at
this list, never at the bodies of the operations.

A task's row changes in five ways (`TaskChange`), each with one audit event.
-/

namespace AgentPalace.Coordination

/-! ## The rows a call writes -/

namespace TaskRow

def expire (t : TaskRow) (ts : Timestamp) : TaskRow :=
  { t with
    state := .expired, revision := t.revision + 1, owner := none, executorAffinity := none
    leaseExpiresAt := none, updatedAt := ts }

def claim (t : TaskRow) (worker : String) (expiry ts : Timestamp) : TaskRow :=
  { t with
    state := .running, revision := t.revision + 1, owner := some worker
    leaseExpiresAt := some expiry, updatedAt := ts }

def renew (t : TaskRow) (expiry ts : Timestamp) : TaskRow :=
  { t with revision := t.revision + 1, leaseExpiresAt := some expiry, updatedAt := ts }

/-- A yield to `executor`: the lease goes, the checkpoint stays. -/
def yield (t : TaskRow) (executor : String) (ts : Timestamp) : TaskRow :=
  { t with
    state := .pending, revision := t.revision + 1, owner := some executor
    executorAffinity := some executor, leaseExpiresAt := none, updatedAt := ts }

def move (t : TaskRow) (target : TaskState) (ts : Timestamp) : TaskRow :=
  { t with
    state := target, revision := t.revision + 1
    owner := if target.terminal then none else t.owner
    executorAffinity := if target.terminal then none else t.executorAffinity
    leaseExpiresAt := if target.terminal then none else t.leaseExpiresAt
    updatedAt := ts }

end TaskRow

def NewTask.row (input : NewTask) (host : Host) (wing : WingId) (state : TaskState)
    (expiresAt : Option Timestamp) (ts : Timestamp) (provenance : Option Json) (sequence : Int) :
    TaskRow :=
  { taskId := "task_" ++ host.uuid, title := input.title, description := input.description
    state, revision := 0, createdBy := input.createdBy, wing := wing.str, owner := none
    executorAffinity := none, parentId := input.parentId, dependencies := input.dependencies
    budget := input.budget, leaseExpiresAt := none, expiresAt, createdAt := ts, updatedAt := ts
    provenance, idempotencyKey := input.idempotencyKey, sequence }

def NewMessage.row (input : NewMessage) (host : Host) (ts : Timestamp) (provenance : Option Json)
    (sequence : Int) : MessageRow :=
  { messageId := "message_" ++ host.uuid, sequence, taskId := input.taskId
    sender := input.sender, recipient := input.recipient, kind := input.kind
    payload := input.payload, envelopeVersion := input.envelopeVersion, acknowledgedAt := none
    acknowledgedBy := none, createdAt := ts, provenance, idempotencyKey := input.idempotencyKey }

def NewArtifact.row (input : NewArtifact) (host : Host) (ts : Timestamp)
    (provenance : Option Json) : ArtifactRow :=
  { artifactId := "artifact_" ++ host.uuid, taskId := input.taskId
    createdBy := input.createdBy, role := input.role, mediaType := input.mediaType
    content := input.content, contentHash := host.blake3 input.content, createdAt := ts
    provenance, idempotencyKey := input.idempotencyKey }

def NewTaskResult.row (input : NewTaskResult) (host : Host) (ts : Timestamp)
    (provenance : Option Json) : TaskResultRow :=
  { resultId := "result_" ++ host.uuid, taskId := input.taskId, createdBy := input.createdBy
    payload := input.payload, createdAt := ts, provenance
    idempotencyKey := input.idempotencyKey }

/-! ## Outcomes -/

/-- What `checkHandoff` checks. -/
structure Checkpointed (db : CoordinationDb) (id : String) (handoff : CheckpointHandoff) :
    Prop where
  executor : isBlank handoff.executor = false
  artifact : ∃ a, db.artifacts.get? handoff.artifactId = some a ∧ a.taskId = id ∧
    a.role = "checkpoint"

def Before (now : OffsetDateTime) (deadline : Option Timestamp) : Prop :=
  ∀ d, deadline = some d → now < d.time

/-- One change to the row of a task: the call, its answer, the new row and the
event it logs. -/
inductive TaskChange (host : Host) (db : CoordinationDb) (row : TaskRow) (ts : Timestamp) :
    Call → Answer → TaskRow → NewEvent → Prop where
  | expired {worker : String} {ttl : Duration} {deadline : Timestamp}
      (hstate : row.state.terminal = false) (hdeadline : row.expiresAt = some deadline)
      (hdue : deadline.time ≤ host.now) :
      TaskChange host db row ts (.claimTask row.taskId worker row.revision ttl)
        (.error (.invariant taskHasExpired)) (row.expire ts)
        (taskEvent row.toTask "task_expired" worker (some row.state) (some .expired)
          (row.revision + 1) none)
  | claimed {worker : String} {ttl : Duration} {expiry : Timestamp}
      (hstate : row.state.terminal = false) (hdue : Before host.now row.expiresAt)
      (haffinity : ∀ e, row.executorAffinity = some e → e = worker)
      (hlease : ∀ o l, row.owner = some o → row.leaseExpiresAt = some l → host.now < l.time →
        o = worker)
      (httl : 0 < ttl) (hexpiry : expiry.time.nanos = host.now.nanos + ttl) :
      TaskChange host db row ts (.claimTask row.taskId worker row.revision ttl)
        (.ok (.write (.applied (row.claim worker expiry ts).toTask))) (row.claim worker expiry ts)
        (taskEvent row.toTask (claimEventType row.toTask) worker (some row.state) (some .running)
          (row.revision + 1) none)
  | renewed {worker : String} {ttl : Duration} {lease expiry : Timestamp}
      (howner : row.owner = some worker) (hlease : row.leaseExpiresAt = some lease)
      (hlive : host.now < lease.time) (httl : 0 < ttl)
      (hexpiry : expiry.time.nanos = host.now.nanos + ttl) :
      TaskChange host db row ts (.renewLease row.taskId worker row.revision ttl)
        (.ok (.write (.applied (row.renew expiry ts).toTask))) (row.renew expiry ts)
        (taskEvent row.toTask "lease_renewed" worker none none (row.revision + 1) none)
  | yielded {actor executor : String} {details : Json} {parsed : YieldDetails}
      (hyield : yielding row.toTask .pending = true) (howner : row.owner = some actor)
      (hdue : Before host.now row.expiresAt)
      (hlease : row.state = .running → ∃ l, row.leaseExpiresAt = some l ∧ host.now < l.time)
      (hparsed : parseYield (some details) = .ok (details, parsed))
      (hexecutor : executor = (parsed.checkpointHandoff.map (·.executor)).getD actor)
      (hhandoff : ∀ h, parsed.checkpointHandoff = some h → Checkpointed db row.taskId h)
      (hagain : ¬ (row.state = .pending ∧ row.leaseExpiresAt = none ∧
        parsed.checkpointHandoff.isNone)) :
      TaskChange host db row ts
        (.transitionTask row.taskId actor row.revision .pending (some details))
        (.ok (.write (.applied (row.yield executor ts).toTask))) (row.yield executor ts)
        (taskEvent row.toTask
          (if parsed.checkpointHandoff.isSome then "task_checkpoint_handed_off"
            else "task_yielded")
          actor (some row.state) (some .pending) (row.revision + 1) (some details))
  | moved {actor : String} {target : TaskState} {details : Option Json}
      (hyield : yielding row.toTask target = false) (hnames : namesHandoff details = false)
      (hallowed : allowedTransition row.state target = true)
      (howner : ∀ o, row.owner = some o → o = actor ∨ target = .cancelled) :
      TaskChange host db row ts (.transitionTask row.taskId actor row.revision target details)
        (.ok (.write (.applied (row.move target ts).toTask))) (row.move target ts)
        (taskEvent row.toTask "task_transitioned" actor (some row.state) (some target)
          (row.revision + 1) details)

/-- One event, at `ts`, was added to the log. -/
def Logged (host : Host) (ts : Timestamp) (e : NewEvent)
    (events events' : Series Event.eventId Event.sequence) : Prop :=
  events'.rows = events.rows ++ [e.stamp ("event_" ++ host.eventUuid) ts events.next]

/-- The row of `row'.taskId` was replaced by `row'`. -/
def Replaced (row' : TaskRow) (tasks tasks' : Series TaskRow.key TaskRow.sequence) : Prop :=
  tasks'.rows = tasks.rows.map fun r => if r.taskId = row'.taskId then row' else r

theorem taskId_of_get? {tasks : Series TaskRow.key TaskRow.sequence} {id : String} {t : TaskRow}
    (h : tasks.get? id = some t) : t.taskId = id := by
  have hk := Table.get?_key h
  exact hk

theorem Replaced.get? {row row' : TaskRow} {tasks tasks' : Series TaskRow.key TaskRow.sequence}
    (h : Replaced row' tasks tasks') (hrow : tasks.get? row'.taskId = some row) (id : String) :
    tasks'.get? id = if id = row'.taskId then some row' else tasks.get? id :=
  Table.get?_replace row' h hrow id

def Call.isClaim : Call → Bool
  | .claimTask .. => true
  | _ => false

def Reply.isWrite : Reply → Bool
  | .write _ => true
  | _ => false

inductive Outcome (host : Host) (db : CoordinationDb) (call : Call) :
    Answer → CoordinationDb → Prop where
  | rejected {e : StorageError} (h : call.isClaim → e ≠ .invariant taskHasExpired) :
      Outcome host db call (.error e) db
  | conflict (actual : Option Int) :
      Outcome host db call (.ok (.write (.conflict actual))) db
  /-- An idempotent replay, or a message acknowledged before. -/
  | replayed {reply : Reply} (h : reply.isWrite = false) : Outcome host db call (.ok reply) db
  | yieldedAgain {row : TaskRow} {actor : String} {details : Option Json}
      (hcall : call = .transitionTask row.taskId actor row.revision .pending details)
      (hrow : db.tasks.get? row.taskId = some row) (howner : row.owner = some actor)
      (hstate : row.state = .pending) (hlease : row.leaseExpiresAt = none) :
      Outcome host db call (.ok (.write (.applied row.toTask))) db
  | changed {row row' : TaskRow} {ts : Timestamp} {e : NewEvent} {answer : Answer}
      {tasks : Series TaskRow.key TaskRow.sequence} {events : Series Event.eventId Event.sequence}
      (hts : ts.time = host.now) (hrow : db.tasks.get? row.taskId = some row)
      (hchange : TaskChange host db row ts call answer row' e)
      (htasks : Replaced row' db.tasks tasks) (hlog : Logged host ts e db.events events) :
      Outcome host db call answer { db with tasks := tasks, events := events }
  | created {input : NewTask} {wing : WingId} {state : TaskState} {expiresAt : Option Timestamp}
      {ts : Timestamp} {provenance details : Option Json} {row : TaskRow} {reply : Reply}
      {tasks : Series TaskRow.key TaskRow.sequence} {events : Series Event.eventId Event.sequence}
      (hcall : call = .createTask input provenance ∧ state = .pending ∧
          reply = .task row.toTask ∨
        call = .importTask input state ∧ provenance = none ∧ state ≠ .expired ∧
          reply = .imported ⟨row.toTask, false⟩)
      (hwing : WingId.normalized input.wing = .ok wing) (hscoped : wing.str ≠ unscopedWing)
      (hts : ts.time = host.now)
      (hrow : row = input.row host wing state expiresAt ts provenance db.tasks.next)
      (htasks : tasks.rows = db.tasks.rows ++ [row]) (hfresh : db.tasks.get? row.taskId = none)
      (hlog : Logged host ts (taskEvent row.toTask "task_created" input.createdBy none (some state)
        0 details) db.events events) :
      Outcome host db call (.ok reply) { db with tasks := tasks, events := events }
  | sent {input : NewMessage} {provenance : Option Json} {task : TaskRow} {ts : Timestamp}
      {row : MessageRow} {details : Option Json}
      {messages : Series MessageRow.key MessageRow.seq}
      {events : Series Event.eventId Event.sequence}
      (hcall : call = .sendMessage input provenance)
      (htask : db.tasks.get? input.taskId = some task) (hts : ts.time = host.now)
      (hrow : row = input.row host ts provenance db.messages.next)
      (hmessages : messages.rows = db.messages.rows ++ [row])
      (hfresh : db.messages.get? row.messageId = none)
      (hlog : Logged host ts
        { entityType := "message", entityId := row.messageId, taskId := some row.taskId
          wing := task.wing, eventType := "message_sent", actor := input.sender, details }
        db.events events) :
      Outcome host db call (.ok (.message row.toMessage))
        { db with messages := messages, events := events }
  | acknowledged {id actor : String} {row row' : MessageRow} {task : TaskRow} {ts : Timestamp}
      {messages : Series MessageRow.key MessageRow.seq}
      {events : Series Event.eventId Event.sequence}
      (hcall : call = .acknowledgeMessage id actor) (hrow : db.messages.get? id = some row)
      (hrecipient : row.recipient = actor) (hnew : row.acknowledgedAt = none)
      (htask : db.tasks.get? row.taskId = some task) (hts : ts.time = host.now)
      (hrow' : row' = { row with acknowledgedAt := some ts, acknowledgedBy := some actor })
      (hmessages : messages.rows =
        db.messages.rows.map fun r => if r.messageId = id then row' else r)
      (hlog : Logged host ts
        { entityType := "message", entityId := row.messageId, taskId := some row.taskId
          wing := task.wing, eventType := "message_acknowledged", actor } db.events events) :
      Outcome host db call (.ok (.message row'.toMessage))
        { db with messages := messages, events := events }
  | artifactPut {input : NewArtifact} {provenance : Option Json} {task : TaskRow} {ts : Timestamp}
      {row : ArtifactRow} {details : Option Json} {artifacts : Table ArtifactRow.key}
      {events : Series Event.eventId Event.sequence}
      (hcall : call = .putArtifact input provenance)
      (htask : db.tasks.get? input.taskId = some task) (hts : ts.time = host.now)
      (hrow : row = input.row host ts provenance)
      (hartifacts : artifacts.rows = db.artifacts.rows ++ [row])
      (hfresh : db.artifacts.get? row.artifactId = none)
      (hlog : Logged host ts
        { entityType := "artifact", entityId := row.artifactId, taskId := some row.taskId
          wing := task.wing, eventType := "artifact_created", actor := input.createdBy, details }
        db.events events) :
      Outcome host db call (.ok (.artifact row.toArtifact))
        { db with artifacts := artifacts, events := events }
  | resultPut {input : NewTaskResult} {provenance : Option Json} {task : TaskRow} {ts : Timestamp}
      {row : TaskResultRow} {results : Table TaskResultRow.key}
      {events : Series Event.eventId Event.sequence}
      (hcall : call = .putResult input provenance)
      (htask : db.tasks.get? input.taskId = some task) (hts : ts.time = host.now)
      (hrow : row = input.row host ts provenance)
      (hresults : results.rows = db.results.rows ++ [row])
      (hfresh : db.results.get? row.resultId = none)
      (hlog : Logged host ts
        { entityType := "result", entityId := row.resultId, taskId := some row.taskId
          wing := task.wing, eventType := "result_created", actor := input.createdBy }
        db.events events) :
      Outcome host db call (.ok (.result row.toTaskResult))
        { db with results := results, events := events }

end AgentPalace.Coordination
