import AgentPalace.Lib.Machine
import AgentPalace.Outbox.Store

/-!
# The outbox as a system

Any processes call the outbox in any order, each call in a transaction of its
own at the clock reading of its host; the clock does not go back.
-/

namespace AgentPalace.Outbox

inductive Call where
  | enqueue (input : NewOutboxOperation)
  | activate (id : String) (expectedRevision : Int)
  | cancel (id : String) (expectedRevision : Int)
  | claimNext (destinationRemote worker : String) (ttl : Duration)
  | claimById (id worker : String) (expectedRevision : Int) (ttl : Duration)
  | renewLease (id worker : String) (expectedRevision : Int) (ttl : Duration)
  | reclaimExpiredLease (destinationRemote : Option String) (worker : String) (ttl : Duration)
  | acknowledge (id worker : String) (expectedRevision : Int)
  | scheduleRetry (id worker : String) (expectedRevision : Int) (error : String)
      (retryAfter : OffsetDateTime)
  | fail (id worker : String) (expectedRevision : Int) (error : String)

inductive Reply where
  | operation (value : OutboxOperation)
  | claim (value : Option OutboxOperation)
  | write (value : RevisionedWrite OutboxOperation)
  deriving DecidableEq

abbrev Answer := Except StorageError Reply

structure Request where
  host : Host
  call : Call

namespace Request

def body (r : Request) : OTx Reply :=
  match r.call with
  | .enqueue input => .operation <$> enqueue r.host input
  | .activate id expectedRevision => .write <$> activate r.host id expectedRevision
  | .cancel id expectedRevision => .write <$> cancel r.host id expectedRevision
  | .claimNext destinationRemote worker ttl =>
    .claim <$> claimNext r.host destinationRemote worker ttl
  | .claimById id worker expectedRevision ttl =>
    .write <$> claimById r.host id worker expectedRevision ttl
  | .renewLease id worker expectedRevision ttl =>
    .write <$> renewLease r.host id worker expectedRevision ttl
  | .reclaimExpiredLease destinationRemote worker ttl =>
    .claim <$> reclaimExpiredLease r.host destinationRemote worker ttl
  | .acknowledge id worker expectedRevision =>
    .write <$> acknowledge r.host id worker expectedRevision
  | .scheduleRetry id worker expectedRevision error retryAfter =>
    .write <$> scheduleRetry r.host id worker expectedRevision error retryAfter
  | .fail id worker expectedRevision error =>
    .write <$> fail r.host id worker expectedRevision error

def execute (r : Request) (db : OutboxDb) : Answer × OutboxDb := r.body.run db

end Request

def store : TimedStore OutboxDb Request Answer OffsetDateTime where
  init := .empty
  now r := r.host.now
  exec := Request.execute

abbrev State := World OutboxDb OffsetDateTime

abbrev Label := Served Request Answer

def system : Machine State Label := store.machine

/-! ## A sample outbox -/

/-- A host at `nanos` after the epoch whose uuid is `uuid`. -/
def sampleHost (nanos : Int) (uuid : String) : Host :=
  { now := ⟨nanos, 0⟩, uuid, eventUuid := uuid, blake3 := id }

/-- A change of the drawer `d`, for the remote `hub`. -/
def sampleInput (key : String) : NewOutboxOperation :=
  { createdBy := "mcp", idempotencyKey := key, mutationKind := "drawer_add", entityId := "d"
    destinationRemote := "hub", orderingKey := "d", payload := .null, maxAttempts := 10 }

/-- Two changes of one drawer are staged and activated, at the epoch. -/
def sampleQueue : List Request :=
  [⟨sampleHost 0 "1", .enqueue (sampleInput "k1")⟩, ⟨sampleHost 0 "2", .enqueue (sampleInput "k2")⟩,
    ⟨sampleHost 0 "", .activate "outbox_1" 0⟩, ⟨sampleHost 0 "", .activate "outbox_2" 0⟩]

/-- A worker leases the first for a millisecond. -/
def sampleClaim : Request := ⟨sampleHost 0 "", .claimNext "hub" "w" 1000000⟩

def sampleLease : List Request := sampleQueue ++ [sampleClaim]

def after (calls : List Request) : State :=
  (store.play ⟨store.init, ⟨0, 0⟩⟩ calls).2

def answerTo (calls : List Request) (r : Request) : Answer := (store.exec r (after calls).db).1

def labelOf (calls : List Request) (r : Request) : Label := ⟨r, answerTo calls r⟩

theorem step_after (calls : List Request) (r : Request) (h : (after calls).clock ≤ r.host.now) :
    system.Step (after calls) (labelOf calls r) ⟨(store.exec r (after calls).db).2, r.host.now⟩ :=
  store.step_exec h

theorem reachable_after (calls : List Request) (h : store.Ordered ⟨0, 0⟩ calls) :
    system.Reachable (after calls) :=
  store.reachable_play h

end AgentPalace.Outbox
