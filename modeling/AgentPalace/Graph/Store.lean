import AgentPalace.Graph.Types

/-!
# The knowledge graph's tables

Each function of the store opens a connection of its own and runs statements
that commit one by one, so an operation that fails halfway leaves what it wrote
before. Dates are compared by their texts.
-/

namespace AgentPalace.Graph

structure GraphDb where
  entities : Table EntityRecord.entityId
  facts : Table KnowledgeGraphFact.factId

def GraphDb.empty : GraphDb := ⟨Table.empty, Table.empty⟩

abbrev GTx (α : Type) := Tx GraphDb GraphError α

def read {α : Type} (f : GraphDb → Except StorageError α) : GTx α := do
  let db ← Tx.query id
  Tx.lift ((f db).mapError .storage)

def write (f : GraphDb → GraphDb) : GTx Unit := do
  Tx.exec fun db => .ok (f db)
  Tx.commit

/-! ## Entities -/

namespace EntityRecord

def decode (e : EntityRecord) : Except StorageError EntityRecord := do
  let updatedAt ← decodeTime e.updatedAt
  return { e with updatedAt }

/-- `ORDER BY entity_type ASC, entity_id ASC`. -/
def before (a b : EntityRecord) : Prop :=
  a.entityType < b.entityType ∨ a.entityType = b.entityType ∧ a.entityId ≤ b.entityId

instance (a b : EntityRecord) : Decidable (before a b) :=
  inferInstanceAs (Decidable (_ ∨ _ ∧ _))

end EntityRecord

def upsertEntity (entity : EntityRecord) : GTx Unit :=
  write fun db =>
    { db with entities := db.entities.upsert entity fun x => { entity with entityId := x.entityId } }

def getEntity (entityId : String) : GTx (Option EntityRecord) :=
  read fun db =>
    match db.entities.get? entityId with
    | some entity => some <$> entity.decode
    | none => .ok none

def sortedEntities (db : GraphDb) : List EntityRecord :=
  db.entities.rows.insertionSort EntityRecord.before

def listEntities : GTx (List EntityRecord) :=
  read fun db => (sortedEntities db).mapM EntityRecord.decode

def listEntitiesByIds (entityIds : List String) : GTx (List EntityRecord) :=
  read fun db =>
    ((sortedEntities db).filter fun e => e.entityId ∈ entityIds).mapM EntityRecord.decode

/-! ## Facts -/

/-- The JSON of a provenance column is checked when it is read. -/
def decodeProvenance (p : PersistedProvenance) : Except StorageError PersistedProvenance :=
  match p.validate with
  | .ok () => .ok p
  | .error _ => .error .json

namespace KnowledgeGraphFact

def decode (f : KnowledgeGraphFact) : Except StorageError KnowledgeGraphFact := do
  let createdAt ← decodeTime f.createdAt
  let updatedAt ← decodeTime f.updatedAt
  match f.provenance with
  | some p =>
    match p.validate with
    | .ok () => return { f with createdAt, updatedAt }
    | .error _ => .error (.sqlite .columnType)
  | none => return { f with createdAt, updatedAt }

/-- `COALESCE(valid_from, '9999-12-31')`. -/
def startText (f : KnowledgeGraphFact) : String := (f.validFrom.map Date.text).getD "9999-12-31"

/-- `ORDER BY COALESCE(valid_from, '9999-12-31') ASC, fact_id ASC`. -/
def before (a b : KnowledgeGraphFact) : Prop :=
  a.startText < b.startText ∨ a.startText = b.startText ∧ a.factId ≤ b.factId

/-- The same with `predicate ASC` in the middle. -/
def beforeByPredicate (a b : KnowledgeGraphFact) : Prop :=
  a.startText < b.startText ∨ a.startText = b.startText ∧
    (a.predicate < b.predicate ∨ a.predicate = b.predicate ∧ a.factId ≤ b.factId)

instance (a b : KnowledgeGraphFact) : Decidable (before a b) :=
  inferInstanceAs (Decidable (_ ∨ _ ∧ _))

instance (a b : KnowledgeGraphFact) : Decidable (beforeByPredicate a b) :=
  inferInstanceAs (Decidable (_ ∨ _ ∧ (_ ∨ _ ∧ _)))

end KnowledgeGraphFact

/-- On a conflict every column but the id and `created_at` is overwritten. -/
def upsertFact (fact : KnowledgeGraphFact) : GTx Unit :=
  write fun db =>
    { db with
      facts := db.facts.upsert fact fun x =>
        { fact with factId := x.factId, createdAt := x.createdAt } }

def listFactsForEntity (entityId : String) : GTx (List KnowledgeGraphFact) :=
  read fun db =>
    ((db.facts.rows.filter fun f => f.subjectEntityId = entityId || f.objectEntityId = entityId)
      |>.insertionSort KnowledgeGraphFact.beforeByPredicate).mapM KnowledgeGraphFact.decode

def listFactsLimited (limit : Nat) : GTx (List KnowledgeGraphFact) :=
  read fun db =>
    ((db.facts.rows.insertionSort KnowledgeGraphFact.beforeByPredicate).take limit).mapM
      KnowledgeGraphFact.decode

def activeFacts (db : GraphDb) (triple : String × String × String) : List KnowledgeGraphFact :=
  db.facts.rows.filter fun f => f.triple = triple && f.isActive

def findActiveFact (subjectEntityId predicate objectEntityId : String) :
    GTx (Option KnowledgeGraphFact) :=
  read fun db =>
    match ((activeFacts db (subjectEntityId, predicate, objectEntityId)).insertionSort
      KnowledgeGraphFact.before).head? with
    | some fact => some <$> fact.decode
    | none => .ok none

/-- `valid_from IS NULL OR valid_from <= ?`. -/
def KnowledgeGraphFact.startsBy (f : KnowledgeGraphFact) (endedAt : Date) : Bool :=
  f.validFrom.all fun start => ¬ endedAt.text < start.text

/-- `PersistedProvenance` of an invalidated fact: its own with the invalidation, or for a fact that
has none an unknown creator's. -/
def mergedProvenance (existing incoming : Option PersistedProvenance) :
    Except StorageError (Option PersistedProvenance) :=
  match existing, incoming with
  | some existing, some incoming => do
    let existing ← decodeProvenance existing
    let incoming ← decodeProvenance incoming
    return some { existing with invalidatedBy := incoming.invalidatedBy }
  | none, some incoming => do
    let incoming ← decodeProvenance incoming
    let recordedAt ← okOr (incoming.invalidatedBy.map (·.recordedAt))
      "invalidation provenance is missing invalidated_by"
    let legacy ← (PersistedProvenance.new
      { creator := { action := .created, owner := .unknown, recordedAt }
        authenticatedSubmitter := .unknown
        sourceAuthor := none
        sourceRefs := []
        storageOrigin := incoming.storageOrigin
        federatedOriginal := none
        history := []
        deletedBy := none
        invalidatedBy := incoming.invalidatedBy }).mapError .provenance
    return some legacy
  | other, none => return other

def KnowledgeGraphFact.closed (f : KnowledgeGraphFact) (endedAt : Date) (updatedAt : OffsetDateTime)
    (provenance : Option PersistedProvenance) : KnowledgeGraphFact :=
  { f with validTo := some endedAt, updatedAt, provenance }

/-- An `UPDATE` that closes the facts that satisfy `p`, and the number of rows it changed. -/
def closeWhere (p : KnowledgeGraphFact → Bool) (endedAt : Date) (updatedAt : OffsetDateTime)
    (provenance : KnowledgeGraphFact → Option PersistedProvenance) : GTx Nat := do
  let changed ← Tx.query fun db => db.facts.rows.countP p
  write fun db =>
    { db with facts := db.facts.updateWhere p fun f => f.closed endedAt updatedAt (provenance f) }
  return changed

def invalidateActiveFact (subjectEntityId predicate objectEntityId : String) (endedAt : Date)
    (updatedAt : OffsetDateTime) : GTx Nat :=
  closeWhere (fun f => f.triple = (subjectEntityId, predicate, objectEntityId) && f.isActive &&
    f.startsBy endedAt) endedAt updatedAt (·.provenance)

/-- The `UPDATE` of one fact. -/
def closeFact (factId : String) (endedAt : Date) (updatedAt : OffsetDateTime)
    (provenance : Option PersistedProvenance) : GTx Nat :=
  closeWhere (fun f => f.factId = factId && f.isActive) endedAt updatedAt fun _ => provenance

def invalidateActiveFactWithProvenance (subjectEntityId predicate objectEntityId : String)
    (endedAt : Date) (updatedAt : OffsetDateTime) (provenance : Option PersistedProvenance) :
    GTx Nat := do
  let rows ← Tx.query fun db =>
    ((activeFacts db (subjectEntityId, predicate, objectEntityId)).filter
      (·.startsBy endedAt)).map fun f => (f.factId, f.provenance)
  rows.foldlM (fun changed (factId, existing) => do
    let merged ← Tx.lift ((mergedProvenance existing provenance).mapError .storage)
    return changed + (← closeFact factId endedAt updatedAt merged)) 0

end AgentPalace.Graph
