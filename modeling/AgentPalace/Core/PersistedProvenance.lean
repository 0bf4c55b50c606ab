import AgentPalace.Core.Provenance

/-!
# Provenance of durable records

`PersistedProvenance` is what a store keeps with a record: who created it, who
submitted this copy, and the later events. `new` is its checked constructor and
`response` what ordinary readers see of it, without provider fields.
-/

namespace AgentPalace

inductive ProvenanceAction where
  | created
  | modified
  | additionalSubmission
  | deleted
  | invalidated
  deriving DecidableEq

/-- The `Debug` form. -/
def ProvenanceAction.debug : ProvenanceAction → String
  | created => "Created"
  | modified => "Modified"
  | additionalSubmission => "AdditionalSubmission"
  | deleted => "Deleted"
  | invalidated => "Invalidated"

structure ProvenanceHistoryEntry where
  action : ProvenanceAction
  owner : OwnerIdentity
  agent : Option AgentAttribution := none
  recordedAt : RecordingTime
  deriving DecidableEq

def requireProvenanceAction (entry : ProvenanceHistoryEntry) (field : String)
    (expected : ProvenanceAction) : Except ProvenanceError Unit :=
  if entry.action ≠ expected then
    .error (.invalidProvenance
      s!"{field} must use action {expected.debug}, got {entry.action.debug}")
  else .ok ()

structure FederatedOriginalProvenance where
  origin : StorageOrigin
  recordId : Option String
  creator : OwnerIdentity
  sourceAuthor : Option SourceAuthor
  sourceRefs : List SourceReference
  deriving DecidableEq

def FederatedOriginalProvenance.validate (p : FederatedOriginalProvenance) :
    Except ProvenanceError Unit := do
  if !p.origin.isFederated then
    throw (.invalidProvenance "federated_original.origin must be federated")
  p.recordId.forM validateRecordId
  if p.recordId ≠ p.origin.originalRecordId then
    throw (.invalidProvenance
      "federated_original.record_id must match origin.original_record_id")
  if p.sourceRefs.length > maxSourceRefs then
    throw (.tooManySourceRefs p.sourceRefs.length maxSourceRefs)

def maxProvenanceHistory : Nat := 128

structure PersistedProvenance where
  creator : ProvenanceHistoryEntry
  authenticatedSubmitter : OwnerIdentity
  sourceAuthor : Option SourceAuthor
  sourceRefs : List SourceReference
  storageOrigin : StorageOrigin
  federatedOriginal : Option FederatedOriginalProvenance
  history : List ProvenanceHistoryEntry
  deletedBy : Option ProvenanceHistoryEntry
  invalidatedBy : Option ProvenanceHistoryEntry
  deriving DecidableEq

namespace PersistedProvenance

def validateHistoryEntry (entry : ProvenanceHistoryEntry) : Except ProvenanceError Unit :=
  if entry.action ≠ .modified ∧ entry.action ≠ .additionalSubmission then
    .error (.invalidProvenance
      s!"history entries must use action Modified or AdditionalSubmission, got {entry.action.debug}")
  else .ok ()

def validate (p : PersistedProvenance) : Except ProvenanceError Unit := do
  requireProvenanceAction p.creator "creator" .created
  if p.sourceRefs.length > maxSourceRefs then
    throw (.tooManySourceRefs p.sourceRefs.length maxSourceRefs)
  p.federatedOriginal.forM FederatedOriginalProvenance.validate
  if p.history.length > maxProvenanceHistory then
    throw (.tooManyHistoryEntries p.history.length maxProvenanceHistory)
  p.history.forM validateHistoryEntry
  p.deletedBy.forM fun entry => requireProvenanceAction entry "deleted_by" .deleted
  p.invalidatedBy.forM fun entry => requireProvenanceAction entry "invalidated_by" .invalidated

def new (value : PersistedProvenance) : Except ProvenanceError PersistedProvenance := do
  value.validate
  return value

end PersistedProvenance

/-! ## What readers see -/

inductive OwnerSummaryStatus where
  | authenticated
  | unknown
  deriving DecidableEq

structure OwnerSummary where
  id : Option OwnerId
  emailAtWrite : Option EmailAtWrite
  status : OwnerSummaryStatus
  deriving DecidableEq

def OwnerSummary.fromIdentity : OwnerIdentity → OwnerSummary
  | .authenticated owner => ⟨some owner.id, some owner.emailAtWrite, .authenticated⟩
  | .unknown => ⟨none, none, .unknown⟩

structure ProvenanceResponseEvent where
  action : ProvenanceAction
  owner : OwnerSummary
  agent : Option AgentAttribution
  recordedAt : RecordingTime
  deriving DecidableEq

def ProvenanceResponseEvent.ofEntry (e : ProvenanceHistoryEntry) : ProvenanceResponseEvent :=
  ⟨e.action, .fromIdentity e.owner, e.agent, e.recordedAt⟩

structure FederatedOriginalSummary where
  origin : StorageOrigin
  recordId : Option String
  creator : OwnerSummary
  sourceAuthor : Option SourceAuthor
  sourceRefs : List SourceReference
  deriving DecidableEq

def FederatedOriginalSummary.ofOriginal (p : FederatedOriginalProvenance) :
    FederatedOriginalSummary :=
  ⟨p.origin, p.recordId, .fromIdentity p.creator, p.sourceAuthor, p.sourceRefs⟩

structure ProvenanceResponse where
  creator : OwnerSummary
  authenticatedSubmitter : OwnerSummary
  creatorAgent : Option AgentAttribution
  sourceAuthor : Option SourceAuthor
  sourceRefs : List SourceReference
  storageOrigin : StorageOrigin
  federatedOriginal : Option FederatedOriginalSummary
  history : List ProvenanceResponseEvent
  deletedBy : Option ProvenanceResponseEvent
  invalidatedBy : Option ProvenanceResponseEvent
  deriving DecidableEq

def PersistedProvenance.response (p : PersistedProvenance) : ProvenanceResponse where
  creator := .fromIdentity p.creator.owner
  authenticatedSubmitter := .fromIdentity p.authenticatedSubmitter
  creatorAgent := p.creator.agent
  sourceAuthor := p.sourceAuthor
  sourceRefs := p.sourceRefs
  storageOrigin := p.storageOrigin
  federatedOriginal := p.federatedOriginal.map .ofOriginal
  history := p.history.map .ofEntry
  deletedBy := p.deletedBy.map .ofEntry
  invalidatedBy := p.invalidatedBy.map .ofEntry

end AgentPalace
