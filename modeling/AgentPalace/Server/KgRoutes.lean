import AgentPalace.Graph.Runtime
import AgentPalace.Server.AddDrawer
import AgentPalace.Server.Changes

/-!
# The routes that change the knowledge graph

`POST /v1/kg/facts` and `POST /v1/kg/invalidate` write the graph, the receipt of a
keyed request, its effect marker and the change event in separate transactions.
As for the add of a drawer, a request is at a phase and `KgPhase.next` is one read
or write. `DateParser` stands for the parser of the `time` crate.
-/

namespace AgentPalace.Server

open AgentPalace.Graph (GraphDb GraphError KnowledgeGraphFact EntityKind)
open Receipts (ReceiptDb ReceiptOutcome)
open ChangeLog (ChangeDb ChangeEvent)

inductive KgError where
  | invalidParams (message : String)
  | provenance (e : ProvenanceError)
  | storage (e : StorageError)
  | graph (e : GraphError)
  | idempotencyConflict (message : String)
  deriving DecidableEq

structure KgPalace where
  receipts : ReceiptDb
  graph : GraphDb
  changes : ChangeDb

/-- A parser of dates that reads what `Date.text` writes. -/
structure DateParser where
  parse : String → Option Date
  parse_text : ∀ d : Date, parse d.text = some d

def parseDate (parser : DateParser) (s : String) : Except KgError Date :=
  match parser.parse s with
  | some date => .ok date
  | none => .error (.invalidParams s!"invalid date `{s}`; expected YYYY-MM-DD")

/-! ## The requests -/

def isNameToken : List Char → Bool
  | [] => false
  | first :: rest => first.isUpper && rest.all fun ch => ch.isLower || ch = '\''

def inferEntityKind (name : String) : EntityKind :=
  let trimmed := trim name
  if trimmed = "" then .unknown
  else if name.toList.any Char.isDigit then .concept
  else
    let tokens := (trimmed.toList.splitOnP fun ch => isWhitespace ch || ch = '-').filter (· ≠ [])
    if 2 ≤ tokens.length && tokens.all isNameToken then .person
    else if tokens.length = 1 && trimmed.toList.all Char.isUpper then .concept
    else .unknown

/-- What a request does to the graph; the dates are also kept as they were sent. -/
inductive KgMutation where
  | add (validFromText : Option String) (validFrom : Option Date)
  | invalidate (endedText : Option String) (ended : Option Date)

structure KgRequest where
  identity : AuthIdentity
  subject : String
  predicate : String
  object : String
  mutation : KgMutation

/-- What a request takes from outside the stores when it starts. -/
structure Attempt where
  now : OffsetDateTime
  today : Date
  provenance : PersistedProvenance

structure KgSurroundings where
  now : OffsetDateTime
  provenance : Except ProvenanceError ProvenanceEnvelope := .error (.emptyField "operation_key")

namespace KgRequest

variable (req : KgRequest)

def resolvedEnd (att : Attempt) : Date :=
  match req.mutation with
  | .invalidate _ (some ended) => ended
  | _ => att.today

def receiptKind : String :=
  match req.mutation with
  | .add .. => "kg_add"
  | .invalidate .. => "kg_invalidate"

def kind : String :=
  match req.mutation with
  | .add .. => "kg add"
  | .invalidate .. => "kg invalidate"

def eventType : String :=
  match req.mutation with
  | .add .. => "kg_fact_added"
  | .invalidate .. => "kg_fact_invalidated"

def hashedFields : List (String × Json) :=
  [("subject", .str req.subject), ("predicate", .str req.predicate), ("object", .str req.object)] ++
  match req.mutation with
  | .add validFrom _ => [("valid_from", optionalText validFrom)]
  | .invalidate ended _ => [("ended", optionalText ended)]

def fact : String := s!"{req.subject} → {req.predicate} → {req.object}"

/-- `canonical_kg_triple`. -/
def targetId (profile : Profile) : String :=
  let label := Graph.canonicalizeLabel
  "kg:" ++ profile.hashText
    s!"{label req.subject} → {label req.predicate} → {label req.object}"

def addFactRequest (validFrom : Option Date) : Graph.AddFactRequest :=
  { subject := req.subject, subjectType := inferEntityKind req.subject, predicate := req.predicate
    object := req.object, objectType := inferEntityKind req.object, validFrom, validTo := none
    confidence := 0x3f800000, sourceDrawerId := none, sourceFile := none }

def validFrom : Option Date :=
  match req.mutation with
  | .add _ validFrom => validFrom
  | .invalidate .. => none

def addedEvent (att : Attempt) (factId : String) : ChangeEvent :=
  { eventType := req.eventType, occurredAt := att.now, entityId := factId
    actor := some req.identity.name
    detailsJson := some (Json.obj [("object", .str req.object), ("predicate", .str req.predicate),
      ("subject", .str req.subject)]).encode }

def addedResponse (factId : String) : Json :=
  .obj [("fact", .str req.fact), ("success", .bool true), ("triple_id", .str factId)]

def invalidatedEvent (att : Attempt) (ended : Date) : ChangeEvent :=
  { eventType := req.eventType, occurredAt := att.now, entityId := req.fact
    actor := some req.identity.name
    detailsJson := some (Json.obj [("ended", .str ended.text), ("object", .str req.object),
      ("predicate", .str req.predicate), ("subject", .str req.subject)]).encode }

def invalidatedResponse (success : Bool) (invalidated : Nat) (ended : Date) : Json :=
  .obj [("ended", .str ended.text), ("fact", .str req.fact), ("invalidated", .int invalidated),
    ("success", .bool success)]

end KgRequest

/-- The details of an invalidation's receipt before its effect, and after it. -/
def pinnedDetails (ended : Date) : Json := .obj [("ended", .str ended.text)]

def appliedDetails (ended : Date) : Json :=
  .obj [("effect_applied", .bool true), ("ended", .str ended.text)]

def effectApplied (details : Json) : Bool := details.get? "effect_applied" = some (.bool true)

/-! ## The steps -/

/-- Where a request is. A phase is named after the read or write that is next. -/
inductive KgPhase where
  | beginReceipt
  | pinEnded (ended : Date)
  | ensureSubject
  | ensureObject (subjectId : String)
  | findActive (subjectId objectId : String)
  | upsertFact (fact : KnowledgeGraphFact)
  | invalidate (ended : Date) (recovered : Bool)
  | markEffect (ended : Date) (count : Nat)
  | getReceipt (ended : Date) (count : Nat) (e : StorageError)
  | appendEvent (event : ChangeEvent) (response : Json)
  | completeReceipt (response : Json)
  | replayed (response : Json)
  | answered (response : Json)
  | refused (e : KgError)

section
variable (profile : Profile) (parser : DateParser) (req : KgRequest)
  (operation : Option (String × OwnerScopedKey)) (att : Attempt) (env : KgSurroundings)

def orRefuseKg {ε α : Type} (wrap : ε → KgError) (r : Except ε α) (f : α → KgPhase) : KgPhase :=
  match r with
  | .ok a => f a
  | .error e => .refused (wrap e)

/-- The graph step of an attempt that the receipt lets through. -/
def startGraph : KgPhase :=
  match req.mutation with
  | .add .. => .ensureSubject
  | .invalidate .. => .invalidate (req.resolvedEnd att) false

/-- A new keyed invalidation pins its end date first. -/
def freshPhase : KgPhase :=
  match req.mutation with
  | .add .. => .ensureSubject
  | .invalidate .. => .pinEnded (req.resolvedEnd att)

/-- A recovered invalidation takes the pinned end date and the effect marker. -/
def recoverPhase (details : Option Json) : KgPhase :=
  match req.mutation, details with
  | .add .., _ => .ensureSubject
  | .invalidate .., none => .invalidate (req.resolvedEnd att) false
  | .invalidate .., some details =>
    match strField details "ended" with
    | none => .invalidate (req.resolvedEnd att) (effectApplied details)
    | some pinned =>
      match parseDate parser pinned with
      | .ok ended => .invalidate ended (effectApplied details)
      | .error e => .refused e

/-- What an attempt does with the answer about its receipt. -/
def begunPhase (op : String) : Except StorageError ReceiptOutcome → KgPhase
  | .error e => .refused (.storage e)
  | .ok (.conflict _) =>
    .refused (.idempotencyConflict
      s!"operation `{op}` was already used by a different {req.kind} request")
  | .ok (.replay receipt) =>
    .replayed (receipt.response.getD (.obj [("success", .bool true)]))
  | .ok (.recover receipt) => recoverPhase parser req att receipt.details
  | .ok (.fresh _) => freshPhase req att

def kgBeginStep (s : KgPalace) : KgPhase × KgPalace :=
  match operation with
  | none => (startGraph req att, s)
  | some (op, key) =>
    match env.provenance with
    | .error e => (.refused (.provenance e), s)
    | .ok provenance =>
      let r := (Receipts.beginReceipt env.now
        { operationKey := key, operationKind := req.receiptKind
          requestHash := profile.mutationRequestHash req.hashedFields
          targetId := req.targetId profile, provenance := some provenance }).run s.receipts
      (begunPhase parser req att op r.1, { s with receipts := r.2 })

/-- The graph answers with the number of facts that were closed. -/
def afterInvalidate (ended : Date) (recovered : Bool) (count : Nat) : KgPhase :=
  let event := req.invalidatedEvent att ended
  match operation with
  | none =>
    let response := req.invalidatedResponse (0 < count) count ended
    if 0 < count then .appendEvent event response else .answered response
  | some _ =>
    let response := req.invalidatedResponse true count ended
    if 0 < count then .markEffect ended count
    else if recovered then .appendEvent event response
    else .completeReceipt response

def afterAdd (factId : String) : KgPhase :=
  .appendEvent (req.addedEvent att factId) (req.addedResponse factId)

namespace KgPhase

def next (s : KgPalace) : KgPhase → KgPhase × KgPalace
  | beginReceipt => kgBeginStep profile parser req operation att env s
  | pinEnded ended =>
    match operation with
    | none => (startGraph req att, s)
    | some (_, key) =>
      let r := (Receipts.setReceiptDetails (.ownerScoped key) (pinnedDetails ended)).run s.receipts
      (orRefuseKg .storage r.1 fun _ => .invalidate ended false, { s with receipts := r.2 })
  | ensureSubject =>
    let r := (Graph.ensureEntity req.subject (inferEntityKind req.subject) att.now).run s.graph
    (orRefuseKg .graph r.1 .ensureObject, { s with graph := r.2 })
  | ensureObject subjectId =>
    let r := (Graph.ensureEntity req.object (inferEntityKind req.object) att.now).run s.graph
    (orRefuseKg .graph r.1 (.findActive subjectId), { s with graph := r.2 })
  | findActive subjectId objectId =>
    let predicate := Graph.canonicalizeLabel req.predicate
    let r := (Graph.findActiveFact subjectId predicate objectId).run s.graph
    (orRefuseKg .graph r.1 fun found =>
      match found with
      | some existing => afterAdd req att existing.factId
      | none =>
        .upsertFact (Graph.newFact (req.addFactRequest req.validFrom) subjectId objectId att.now
          (some att.provenance)),
     { s with graph := r.2 })
  | upsertFact fact =>
    let r := (Graph.upsertFact fact).run s.graph
    (orRefuseKg .graph r.1 fun _ => afterAdd req att fact.factId, { s with graph := r.2 })
  | invalidate ended recovered =>
    let r := (Graph.invalidateWithProvenance req.subject req.predicate req.object ended att.now
      (some att.provenance)).run s.graph
    let phase :=
      match r.1 with
      | .ok count => afterInvalidate req operation att ended recovered count
      | .error (.unknownEntity name) =>
        if operation.isSome then afterInvalidate req operation att ended recovered 0
        else .refused (.graph (.unknownEntity name))
      | .error e => .refused (.graph e)
    (phase, { s with graph := r.2 })
  | markEffect ended count =>
    match operation with
    | none =>
      (.appendEvent (req.invalidatedEvent att ended) (req.invalidatedResponse true count ended), s)
    | some (_, key) =>
      let r := (Receipts.setReceiptDetails (.ownerScoped key) (appliedDetails ended)).run s.receipts
      let phase :=
        match r.1 with
        | .ok _ =>
          .appendEvent (req.invalidatedEvent att ended) (req.invalidatedResponse true count ended)
        | .error e => .getReceipt ended count e
      (phase, { s with receipts := r.2 })
  | getReceipt ended count e =>
    match operation with
    | none => (.refused (.storage e), s)
    | some (_, key) =>
      let r := (Receipts.getReceipt (.ownerScoped key)).run s.receipts
      (orRefuseKg .storage r.1 fun receipt =>
        if receipt.any fun receipt => receipt.status = .completed then
          .appendEvent (req.invalidatedEvent att ended) (req.invalidatedResponse true count ended)
        else .refused (.storage e),
       { s with receipts := r.2 })
  | appendEvent event response =>
    match operation with
    | some (_, key) =>
      let r := (ChangeLog.appendEventIfAbsentWithOperation event key.compositeKey).run s.changes
      (orRefuseKg .storage r.1 fun _ => .completeReceipt response, { s with changes := r.2 })
    | none =>
      let r := (ChangeLog.appendEvent event).run s.changes
      (orRefuseKg .storage r.1 fun _ => .answered response, { s with changes := r.2 })
  | completeReceipt response =>
    match operation with
    | none => (.answered response, s)
    | some (_, key) =>
      let r := (Receipts.completeReceipt env.now (.ownerScoped key) response).run s.receipts
      (orRefuseKg .storage r.1 fun _ => .answered response, { s with receipts := r.2 })
  | replayed response => (.replayed response, s)
  | answered response => (.answered response, s)
  | refused e => (.refused e, s)

end KgPhase

end

end AgentPalace.Server
