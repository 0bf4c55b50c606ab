import AgentPalace.Coordination.Store
import AgentPalace.Lib.Machine

/-!
# The coordination store as a system

A `Call` is one mutating operation with its arguments. The store serves calls
from any actors in any order, each in a transaction of its own at the clock
reading of its host; the clock does not go back.
-/

namespace AgentPalace.Coordination

inductive Call where
  | createTask (input : NewTask) (provenance : Option Json)
  | importTask (input : NewTask) (initialState : TaskState)
  | claimTask (id worker : String) (expectedRevision : Int) (ttl : Duration)
  | renewLease (id worker : String) (expectedRevision : Int) (ttl : Duration)
  | transitionTask (id actor : String) (expectedRevision : Int) (target : TaskState)
      (details : Option Json)
  | sendMessage (input : NewMessage) (provenance : Option Json)
  | acknowledgeMessage (id actor : String)
  | putArtifact (input : NewArtifact) (provenance : Option Json)
  | putResult (input : NewTaskResult) (provenance : Option Json)

inductive Reply where
  | task (value : Task)
  | imported (value : ImportedTask)
  | write (value : RevisionedWrite Task)
  | message (value : Message)
  | artifact (value : Artifact)
  | result (value : TaskResult)

abbrev Answer := Except StorageError Reply

def appliedTask : Answer → Option Task
  | .ok (.write (.applied t)) => some t
  | _ => none

theorem appliedTask_eq_some {a : Answer} {t : Task} (h : appliedTask a = some t) :
    a = .ok (.write (.applied t)) := by
  unfold appliedTask at h
  split at h
  · cases h; rfl
  · cases h

structure Request where
  host : Host
  call : Call

namespace Request

def body (r : Request) : CTx Reply :=
  match r.call with
  | .createTask input provenance => .task <$> createTask r.host input provenance
  | .importTask input initialState => .imported <$> importTask r.host input initialState
  | .claimTask id worker expectedRevision ttl =>
    .write <$> claimTask r.host id worker expectedRevision ttl
  | .renewLease id worker expectedRevision ttl =>
    .write <$> renewLease r.host id worker expectedRevision ttl
  | .transitionTask id actor expectedRevision target details =>
    .write <$> transitionTask r.host id actor expectedRevision target details
  | .sendMessage input provenance => .message <$> sendMessage r.host input provenance
  | .acknowledgeMessage id actor => .message <$> acknowledgeMessage r.host id actor
  | .putArtifact input provenance => .artifact <$> putArtifact r.host input provenance
  | .putResult input provenance => .result <$> putResult r.host input provenance

def execute (r : Request) (db : CoordinationDb) : Answer × CoordinationDb := r.body.run db

end Request

def store : TimedStore CoordinationDb Request Answer OffsetDateTime where
  init := .empty
  now r := r.host.now
  exec := Request.execute

abbrev State := World CoordinationDb OffsetDateTime

abbrev Label := Served Request Answer

def system : Machine State Label := store.machine

/-! ## A sample palace -/

/-- A host at `nanos` after the epoch whose uuids are `uuid`. -/
def sampleHost (nanos : Int) (uuid : String) : Host :=
  { now := ⟨nanos, 0⟩, uuid, eventUuid := uuid, blake3 := id }

def sampleTask : NewTask :=
  { title := "port the parser", description := "", createdBy := "planner", wing := "proj"
    idempotencyKey := "k1" }

/-- At 0 the planner creates `task_1`. -/
def plannerCreates : Request := ⟨sampleHost 0 "1", .createTask sampleTask none⟩

/-- At 1 `ada` claims it for 100 nanoseconds. -/
def adaClaims : Request := ⟨sampleHost 1 "2", .claimTask "task_1" "ada" 0 100⟩

def sampleClaim : List Request := [plannerCreates, adaClaims]

def after (calls : List Request) : State :=
  (store.play ⟨store.init, ⟨0, 0⟩⟩ calls).2

def answerTo (calls : List Request) (r : Request) : Answer := (store.exec r (after calls).db).1

theorem step_after (calls : List Request) (r : Request) (h : (after calls).clock ≤ r.host.now) :
    system.Step (after calls) ⟨r, answerTo calls r⟩ ⟨(store.exec r (after calls).db).2, r.host.now⟩ :=
  store.step_exec h

theorem reachable_after (calls : List Request) (h : store.Ordered ⟨0, 0⟩ calls) :
    system.Reachable (after calls) :=
  store.reachable_play h

end AgentPalace.Coordination
