import AgentPalace.Storage.Basic

/-!
# Mutation receipts

The receipt of a remote mutation, keyed by its owner-scoped operation key, and
every operation of `MutationReceiptStore` that works on one key. A row keeps
the key itself for the two columns of the primary key, and its JSON columns as
the documents they parse back to.
-/

namespace AgentPalace.Receipts

inductive ReceiptState where
  | pending
  | completed
  deriving DecidableEq

structure ReceiptRow where
  /-- The columns `owner_scope` and `operation_id`. -/
  operationKey : OwnerScopedKey
  operationKind : String
  requestHash : String
  targetId : String
  status : ReceiptState
  response : Option Json
  details : Option Json
  provenance : Option ProvenanceEnvelope
  createdAt : Timestamp
  completedAt : Option Timestamp
  deriving DecidableEq

def columns (k : OwnerScopedKey) : String × String := (k.scope, k.rawKey)

theorem columns_inj {k k' : OwnerScopedKey} (h : columns k = columns k') : k = k' :=
  OwnerScopedKey.ext_scope (congrArg Prod.fst h) (congrArg Prod.snd h)

def ReceiptRow.key (r : ReceiptRow) : String × String := columns r.operationKey

structure MutationReceipt where
  operationId : String
  operationKey : OwnerScopedKey
  operationKind : String
  requestHash : String
  targetId : String
  status : ReceiptState
  response : Option Json
  details : Option Json
  provenance : Option ProvenanceEnvelope
  createdAt : OffsetDateTime
  completedAt : Option OffsetDateTime
  deriving DecidableEq

/-- `receipt_row`. -/
def ReceiptRow.toReceipt (r : ReceiptRow) : MutationReceipt :=
  { operationId := r.operationKey.rawKey, operationKey := r.operationKey
    operationKind := r.operationKind, requestHash := r.requestHash, targetId := r.targetId
    status := r.status, response := r.response, details := r.details, provenance := r.provenance
    createdAt := r.createdAt.time, completedAt := r.completedAt.map (·.time) }

inductive ReceiptOutcome where
  | fresh (receipt : MutationReceipt)
  | replay (receipt : MutationReceipt)
  | recover (receipt : MutationReceipt)
  | conflict (operationId : String)
  deriving DecidableEq

structure NewReceipt where
  operationKey : OwnerScopedKey
  operationKind : String
  requestHash : String
  targetId : String
  provenance : Option ProvenanceEnvelope

/-- A lookup key: owner-scoped, or a raw text of the legacy scope. -/
inductive ReceiptKey where
  | ownerScoped (key : OwnerScopedKey)
  | rawKey (key : String)

structure ReceiptDb where
  receipts : Table ReceiptRow.key

def ReceiptDb.empty : ReceiptDb := ⟨Table.empty⟩

abbrev RTx (α : Type) := Tx ReceiptDb StorageError α

def maxResponseBytes : Nat := 1024 * 1024

/-! ## Checks -/

def invariantOf {α : Type} (e : Except ProvenanceError α) : Except StorageError α :=
  e.mapError fun x => .invariant x.display

def ReceiptKey.intoReceiptKey : ReceiptKey → Except StorageError OwnerScopedKey
  | ownerScoped key => do
    invariantOf key.validate
    return key
  | rawKey key => invariantOf (OwnerScopedKey.new none key)

def validateProvenanceScope (provenance : Option ProvenanceEnvelope) (key : OwnerScopedKey) :
    Except StorageError Unit :=
  match provenance with
  | none => .ok ()
  | some provenance => do
    invariantOf provenance.validate
    if provenance.operationId ≠ some key then
      throw (.invariant "receipt provenance operation key does not match receipt key")

def nonemptyIdentifier (value name : String) : Except StorageError Unit :=
  if isBlank value then .error (.invariant s!"{name} must not be empty") else .ok ()

def boundedIdentifier (value name : String) : Except StorageError Unit :=
  if value.utf8ByteSize > maxIdentifierBytes then
    .error (.invariant s!"{name} must be at most {maxIdentifierBytes} bytes")
  else nonemptyIdentifier value name

def checkReceipt (input : NewReceipt) : Except StorageError Unit := do
  invariantOf input.operationKey.validate
  validateProvenanceScope input.provenance input.operationKey
  boundedIdentifier input.operationKind "operation_kind"
  boundedIdentifier input.requestHash "request_hash"
  nonemptyIdentifier input.targetId "target_id"

/-- A document of at most 1 MiB; the messages differ in how they name it. -/
def boundedDocument (what : String) (v : Json) : Except StorageError Unit :=
  if v.encodedSize > maxResponseBytes then
    .error (.invariant s!"receipt {what} {maxResponseBytes} bytes")
  else .ok ()

/-! ## Operations -/

def NewReceipt.row (input : NewReceipt) (created : Timestamp) : ReceiptRow :=
  { operationKey := input.operationKey, operationKind := input.operationKind
    requestHash := input.requestHash, targetId := input.targetId, status := .pending
    response := none, details := none, provenance := input.provenance, createdAt := created
    completedAt := none }

def receiptByKey (key : OwnerScopedKey) : RTx (Option ReceiptRow) :=
  Tx.query fun db => db.receipts.get? (columns key)

def beginReceipt (now : OffsetDateTime) (input : NewReceipt) : RTx ReceiptOutcome := do
  Tx.lift (checkReceipt input)
  let existing ← receiptByKey input.operationKey
  match existing with
  | some existing =>
    Tx.commit
    if existing.requestHash ≠ input.requestHash then
      return .conflict input.operationKey.rawKey
    match existing.status with
    | .completed => return .replay existing.toReceipt
    | .pending => return .recover existing.toReceipt
  | none =>
    let created ← Tx.lift (formatTime now)
    Tx.exec fun db => do
      let receipts ← sql (db.receipts.insert? (input.row created))
      return { db with receipts := receipts }
    let receipt ← receiptByKey input.operationKey
    let receipt ← Tx.lift (okOr receipt "inserted receipt disappeared")
    Tx.commit
    return .fresh receipt.toReceipt

/-- `SET status='completed', response_json, completed_at` where `status='pending'`. -/
def ReceiptRow.complete (response : Json) (completed : Timestamp) (r : ReceiptRow) : ReceiptRow :=
  if r.status = .pending then
    { r with status := .completed, response := some response, completedAt := some completed }
  else r

def completeReceipt (now : OffsetDateTime) (key : ReceiptKey) (response : Json) : RTx Unit := do
  let key ← Tx.lift key.intoReceiptKey
  Tx.lift (boundedDocument "response exceeds" response)
  let existing ← receiptByKey key
  match existing with
  | none =>
    Tx.commit
    throw (.invariant s!"cannot complete unknown receipt `{key.compositeKey}`")
  | some existing =>
    if existing.status ≠ .pending then
      Tx.commit
      return ()
    let completed ← Tx.lift (formatTime now)
    Tx.exec fun db => .ok { db with
      receipts := db.receipts.modify (columns key) (·.complete response completed)
        fun r => by unfold ReceiptRow.complete; split <;> rfl }
    Tx.commit

/-- `SET details_json` where `status='pending'`. -/
def ReceiptRow.annotate (details : Json) (r : ReceiptRow) : ReceiptRow :=
  if r.status = .pending then { r with details := some details } else r

def setReceiptDetails (key : ReceiptKey) (details : Json) : RTx Unit := do
  let key ← Tx.lift key.intoReceiptKey
  Tx.lift (boundedDocument "details exceed" details)
  let existing ← receiptByKey key
  match existing with
  | none =>
    Tx.commit
    throw (.invariant s!"cannot annotate unknown receipt `{key.compositeKey}`")
  | some existing =>
    if existing.status ≠ .pending then
      Tx.commit
      throw (.invariant s!"cannot annotate completed receipt `{key.compositeKey}`")
    Tx.exec fun db => .ok { db with
      receipts := db.receipts.modify (columns key) (·.annotate details)
        fun r => by unfold ReceiptRow.annotate; split <;> rfl }
    Tx.commit

def getReceipt (key : ReceiptKey) : RTx (Option MutationReceipt) := do
  let key ← Tx.lift key.intoReceiptKey
  let receipt ← receiptByKey key
  return receipt.map (·.toReceipt)

end AgentPalace.Receipts
