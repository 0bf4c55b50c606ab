import AgentPalace.Storage.Basic

/-!
# The change log

The append-only `change_log` table: its four appends, and the reads that select
and order its rows by the text of `occurred_at`. A row keeps the time whose
encoding is the text of the column; a text that is no RFC 3339 time makes a read
fail.
-/

namespace AgentPalace.ChangeLog

structure ChangeEvent where
  eventType : String
  occurredAt : OffsetDateTime
  entityId : String
  actor : Option String
  detailsJson : Option String
  deriving DecidableEq

structure ChangeRow where
  rowid : Int
  changeId : String
  event : ChangeEvent
  operationId : Option String
  deriving DecidableEq

structure ChangeDb where
  changes : Series ChangeRow.changeId ChangeRow.rowid

def ChangeDb.empty : ChangeDb := ⟨Series.empty⟩

abbrev CTx (α : Type) := Tx ChangeDb StorageError α

namespace ChangeRow

/-- The column `occurred_at`. -/
def occurredAt (r : ChangeRow) : String := encodeTime r.event.occurredAt

def decode (r : ChangeRow) : Except StorageError ChangeEvent := do
  let occurredAt ← decodeTime r.event.occurredAt
  return { r.event with occurredAt }

end ChangeRow

/-! ## Appends -/

def changeIdForEvent (event : ChangeEvent) (operationId : Option String) : String :=
  match operationId with
  | some operationId =>
    s!"{event.occurredAt.nanos}:{operationId}:{event.eventType}:{event.entityId}"
  | none => s!"{event.occurredAt.nanos}:{event.entityId}"

def newRow (event : ChangeEvent) (operationId : Option String) (rowid : Int) : ChangeRow :=
  { rowid, changeId := changeIdForEvent event operationId, event, operationId }

/-- `INSERT OR IGNORE`. -/
def appendEventInner (event : ChangeEvent) (operationId : Option String) : CTx Unit := do
  Tx.exec fun db =>
    match db.changes.append? (newRow event operationId) with
    | .ok changes => .ok { db with changes := changes }
    | .error .uniqueViolation => .ok db
    | .error fault => .error (.sqlite fault)
  Tx.commit

def appendEvent (event : ChangeEvent) : CTx Unit := appendEventInner event none

def appendEventWithOperation (event : ChangeEvent) (operationId : String) : CTx Unit :=
  appendEventInner event (some operationId)

/-- `split_once(':')`, the second half. -/
def afterColon (s : String) : Option String :=
  match s.toList.dropWhile (· ≠ ':') with
  | [] => none
  | _ :: raw => some (String.ofList raw)

/-- Whether an append finds its event in the log. -/
def isPresent (db : ChangeDb) (event : ChangeEvent) (operationId : Option String) : Bool :=
  match operationId with
  | some operationId =>
    let legacyOperationId := afterColon operationId
    db.changes.rows.any fun r => r.event.eventType = event.eventType &&
      (r.operationId = some operationId ||
        (legacyOperationId.isSome && r.operationId = legacyOperationId))
  | none =>
    db.changes.rows.any fun r =>
      r.event.entityId = event.entityId && r.event.eventType = event.eventType

def appendEventIfAbsentInner (event : ChangeEvent) (operationId : Option String) : CTx Bool := do
  let present ← Tx.query fun db => isPresent db event operationId
  if present then
    return false
  Tx.exec fun db => do
    let changes ← sql (db.changes.append? (newRow event operationId))
    return { db with changes := changes }
  Tx.commit
  return true

def appendEventIfAbsent (event : ChangeEvent) : CTx Bool := appendEventIfAbsentInner event none

def appendEventIfAbsentWithOperation (event : ChangeEvent) (operationId : String) : CTx Bool :=
  appendEventIfAbsentInner event (some operationId)

/-! ## Reads in order of time -/

/-- `ORDER BY occurred_at, rowid`: the index is scanned in this order. -/
def byTime (rows : List ChangeRow) : List ChangeRow :=
  rows.insertionSort fun a b => a.occurredAt < b.occurredAt ∨
    a.occurredAt = b.occurredAt ∧ a.rowid ≤ b.rowid

def getChangesSince (db : ChangeDb) (since : OffsetDateTime) (limit : Nat) :
    Except StorageError (List ChangeEvent) :=
  ((byTime (db.changes.rows.filter fun r => encodeTime since < r.occurredAt)).take limit).mapM
    ChangeRow.decode

structure ChangeCursor where
  occurredAt : OffsetDateTime
  rowid : Int
  deriving DecidableEq

structure ChangePage where
  events : List ChangeEvent
  nextCursor : Option ChangeCursor
  deriving DecidableEq

def pageRows (db : ChangeDb) (since : Option OffsetDateTime) (cursor : Option ChangeCursor) :
    List ChangeRow :=
  byTime <| db.changes.rows.filter fun r =>
    match cursor, since with
    | some c, _ => encodeTime c.occurredAt < r.occurredAt ∨
        encodeTime c.occurredAt = r.occurredAt ∧ c.rowid < r.rowid
    | none, some since => ¬ r.occurredAt < encodeTime since
    | none, none => true

def getChangesPage (db : ChangeDb) (since : Option OffsetDateTime) (cursor : Option ChangeCursor)
    (limit : Nat) : Except StorageError ChangePage := do
  let rows := (pageRows db since cursor).take (limit + 1)
  let decoded ← rows.mapM fun r => do
    let event ← r.decode
    return (r.rowid, event)
  if decoded.length > limit then
    let page := decoded.dropLast
    return { events := page.map (·.2)
             nextCursor := page.getLast?.map fun last => ⟨last.2.occurredAt, last.1⟩ }
  return { events := decoded.map (·.2), nextCursor := none }

end AgentPalace.ChangeLog
