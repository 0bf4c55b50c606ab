import AgentPalace.Graph.Store

/-!
# The knowledge graph's operations

`KnowledgeGraphRuntime`: facts are added between entities named by a kind and a
name, and read and invalidated by names alone.
-/

namespace AgentPalace.Graph

/-! ## Entities by name -/

/-- The first entity, in the order of the list, that is known by the name. -/
def firstCarrier (entities : List EntityRecord) (name : String) (expectedType : Option EntityKind) :
    Option RegistryEntry :=
  (entities.filterMap (·.payload)).find? fun entry =>
    expectedType.all (fun kind => entry.entityType = kind) && entry.carries name

def findRegisteredEntity (name : String) (expectedType : Option EntityKind) :
    GTx (Option String) := do
  let entities ← listEntities
  return (firstCarrier entities name expectedType).map (·.id)

/-- The registry entry of a name that is met for the first time. -/
def newEntry (name : String) (entityType : EntityKind) : RegistryEntry :=
  { schemaVersion := registrySchemaVersion, name, canonicalName := name, entityType
    source := "graph", contexts := [], aliases := [], relationship := none, confidence := 100
    ambiguous := false }

def ensureEntity (name : String) (entityType : EntityKind) (updatedAt : OffsetDateTime) :
    GTx String := do
  match ← findRegisteredEntity name (some entityType) with
  | some existing => return existing
  | none =>
    let id := entityId entityType name
    if (← getEntity id).isNone then
      upsertEntity
        { entityId := id, entityType := entityType.asStr
          payload := some (newEntry name entityType), updatedAt }
    return id

/-- The first entity whose payload is no registry entry and whose id ends in the label. -/
def legacyEntity (entities : List EntityRecord) (name : String) : Option String :=
  (entities.find? fun e => e.payload.isNone &&
    (canonicalizeLabel name).toList.isSuffixOf e.entityId.toList).map (·.entityId)

def resolveEntityId (name : String) : GTx String := do
  match ← findRegisteredEntity name none with
  | some id => return id
  | none =>
    let entities ← listEntities
    match legacyEntity entities name with
    | some id => return id
    | none => throw (.unknownEntity name)

/-! ## Writes -/

def newFact (request : AddFactRequest) (subjectId objectId : String) (now : OffsetDateTime)
    (provenance : Option PersistedProvenance) : KnowledgeGraphFact :=
  { factId := factIdFor subjectId (canonicalizeLabel request.predicate) objectId
      (factStart request.validFrom now)
    subjectEntityId := subjectId
    predicate := canonicalizeLabel request.predicate
    objectEntityId := objectId
    validFrom := request.validFrom
    validTo := request.validTo
    confidence := request.confidence
    sourceDrawerId := request.sourceDrawerId
    sourceFile := request.sourceFile
    createdAt := now
    updatedAt := now
    provenance }

def addFactWithProvenance (request : AddFactRequest) (now : OffsetDateTime)
    (provenance : Option PersistedProvenance) : GTx String := do
  let subjectId ← ensureEntity request.subject request.subjectType now
  let objectId ← ensureEntity request.object request.objectType now
  match ← findActiveFact subjectId (canonicalizeLabel request.predicate) objectId with
  | some existing => return existing.factId
  | none =>
    let fact := newFact request subjectId objectId now provenance
    upsertFact fact
    return fact.factId

def addFact (request : AddFactRequest) (now : OffsetDateTime) : GTx String :=
  addFactWithProvenance request now none

def invalidateWithProvenance (subject predicate object : String) (endedAt : Date)
    (now : OffsetDateTime) (provenance : Option PersistedProvenance) : GTx Nat := do
  let subjectId ← resolveEntityId subject
  let objectId ← resolveEntityId object
  invalidateActiveFactWithProvenance subjectId (canonicalizeLabel predicate) objectId endedAt now
    provenance

def invalidate (subject predicate object : String) (endedAt : Date) (now : OffsetDateTime) :
    GTx Nat :=
  invalidateWithProvenance subject predicate object endedAt now none

/-! ## Reads -/

def nameLookupForFactIds (facts : List KnowledgeGraphFact) (anchorEntityId : Option String) :
    GTx (List (String × String)) := do
  let entities ← listEntitiesByIds
    (facts.flatMap (fun f => [f.subjectEntityId, f.objectEntityId]) ++ anchorEntityId.toList)
  return entities.filterMap fun e => e.payload.map fun entry => (e.entityId, entry.canonicalName)

def displayName (names : List (String × String)) (entityId : String) : String :=
  (names.lookup entityId).getD (denormalizeEntityId entityId)

inductive QueryDirection where
  | outgoing
  | incoming
  | both
  deriving DecidableEq

structure KnowledgeQueryRow where
  direction : String
  subject : String
  predicate : String
  object : String
  validFrom : Option String
  validTo : Option String
  confidence : UInt32
  sourceCloset : Option String
  current : Bool
  provenance : Option ProvenanceResponse
  deriving DecidableEq

def optionBefore : Option String → Option String → Bool
  | none, some _ => true
  | some a, some b => a < b
  | _, none => false

namespace KnowledgeQueryRow

def le (a b : KnowledgeQueryRow) : Prop :=
  optionBefore a.validFrom b.validFrom = true ∨ a.validFrom = b.validFrom ∧
    (a.direction < b.direction ∨ a.direction = b.direction ∧
      (a.predicate < b.predicate ∨ a.predicate = b.predicate ∧ a.object ≤ b.object))

instance (a b : KnowledgeQueryRow) : Decidable (le a b) :=
  inferInstanceAs (Decidable (_ ∨ _ ∧ (_ ∨ _ ∧ (_ ∨ _ ∧ _))))

end KnowledgeQueryRow

def queryRow (direction subject object : String) (fact : KnowledgeGraphFact) (today : Date) :
    KnowledgeQueryRow :=
  { direction, subject, predicate := fact.predicate, object
    validFrom := fact.validFrom.map Date.text
    validTo := fact.validTo.map Date.text
    confidence := fact.confidence
    sourceCloset := (fact.sourceDrawerId.map (·.str)).or fact.sourceFile
    current := fact.isActiveOn today
    provenance := fact.provenance.map PersistedProvenance.response }

/-- `query_entity` once its name is resolved. -/
def queryEntityById (entityId : String) (asOf : Option Date) (direction : QueryDirection)
    (today : Date) : GTx (List KnowledgeQueryRow) := do
  let facts ← listFactsForEntity entityId
  let names ← nameLookupForFactIds facts (some entityId)
  let rows := (facts.filter fun f => asOf.all fun date => f.isActiveOn date).filterMap fun fact =>
    if fact.subjectEntityId = entityId ∧ direction ≠ .incoming then
      some (queryRow "outgoing" (displayName names entityId) (displayName names fact.objectEntityId)
        fact today)
    else if fact.objectEntityId = entityId ∧ direction ≠ .outgoing then
      some (queryRow "incoming" (displayName names fact.subjectEntityId)
        (displayName names entityId) fact today)
    else none
  return rows.insertionSort KnowledgeQueryRow.le

def queryEntity (name : String) (asOf : Option Date) (direction : QueryDirection) (today : Date) :
    GTx (List KnowledgeQueryRow) := do
  let entityId ← resolveEntityId name
  queryEntityById entityId asOf direction today

structure KnowledgeTimelineRow where
  subject : String
  predicate : String
  object : String
  validFrom : Option String
  validTo : Option String
  current : Bool
  provenance : Option ProvenanceResponse
  deriving DecidableEq

namespace KnowledgeTimelineRow

def le (a b : KnowledgeTimelineRow) : Prop :=
  optionBefore a.validFrom b.validFrom = true ∨ a.validFrom = b.validFrom ∧
    (a.predicate < b.predicate ∨ a.predicate = b.predicate ∧
      (a.subject < b.subject ∨ a.subject = b.subject ∧ a.object ≤ b.object))

instance (a b : KnowledgeTimelineRow) : Decidable (le a b) :=
  inferInstanceAs (Decidable (_ ∨ _ ∧ (_ ∨ _ ∧ (_ ∨ _ ∧ _))))

end KnowledgeTimelineRow

/-- `timeline` once its name is resolved. -/
def timelineById (anchorEntityId : Option String) (today : Date) :
    GTx (List KnowledgeTimelineRow) := do
  let facts ←
    match anchorEntityId with
    | some entityId => listFactsForEntity entityId
    | none => listFactsLimited 100
  let names ← nameLookupForFactIds facts anchorEntityId
  let rows := facts.map fun fact : KnowledgeGraphFact =>
    { subject := displayName names fact.subjectEntityId
      predicate := fact.predicate
      object := displayName names fact.objectEntityId
      validFrom := fact.validFrom.map Date.text
      validTo := fact.validTo.map Date.text
      current := fact.isActiveOn today
      provenance := fact.provenance.map PersistedProvenance.response : KnowledgeTimelineRow }
  return rows.insertionSort KnowledgeTimelineRow.le

def timeline (entityName : Option String) (today : Date) : GTx (List KnowledgeTimelineRow) := do
  let anchorEntityId ← entityName.mapM resolveEntityId
  timelineById anchorEntityId today

end AgentPalace.Graph
