import AgentPalace.Core.Ids
import AgentPalace.Core.Time

/-!
# Provenance

The validated texts of a provenance record are structures that carry the check
their constructor makes, so the nested `validate` calls of the source cannot
fail on them and are left out; what `validate` still decides is counts, actions
and the agreement of owner scopes. An `OwnerScopedKey` keeps the operations of
different owners apart: no owner is called `legacy`, and no owner id contains a
colon.
-/

namespace AgentPalace

inductive ProvenanceError where
  | emptyField (field : String)
  | valueTooLong (field : String) (len max : Nat)
  | invalidCharacter (field : String) (ch : Char)
  | invalidEmail (email : String)
  | invalidProvenance (message : String)
  | tooManySourceRefs (count max : Nat)
  | tooManyHistoryEntries (count max : Nat)
  | ownerScopeMismatch (expected actual : String)
  | reservedIdentifier (field value : String)
  deriving DecidableEq

def ProvenanceError.display : ProvenanceError → String
  | emptyField field => s!"{field} cannot be empty"
  | valueTooLong field len max => s!"{field} exceeds maximum length of {max} bytes (got {len})"
  | invalidCharacter field ch => s!"{field} contains invalid character `{ch}`"
  | invalidEmail email => s!"invalid email address `{email}`"
  | invalidProvenance message => s!"invalid provenance: {message}"
  | tooManySourceRefs count max =>
    s!"source references count ({count}) exceeds maximum allowed ({max})"
  | tooManyHistoryEntries count max =>
    s!"provenance history count ({count}) exceeds maximum allowed ({max})"
  | ownerScopeMismatch expected actual =>
    s!"owner scoping mismatch: expected {expected}, got {actual}"
  | reservedIdentifier field value =>
    s!"{field} `{value}` is a reserved sentinel identifier and cannot be used for " ++
      "authenticated owners"

/-! ## Validated texts -/

def isAsciiControl (c : Char) : Bool := c.toNat < 32 || c.toNat = 127

def isAsciiGraphic (c : Char) : Bool := 33 ≤ c.toNat && c.toNat ≤ 126

def isAsciiWhitespace (c : Char) : Bool :=
  c == ' ' || c == '\t' || c == '\n' || c == '\r' || c.toNat = 12

def validateChars (field : String) (allowed : Char → Bool) (s : String) :
    Except ProvenanceError Unit :=
  match s.toList.find? fun c => !allowed c with
  | some c => .error (.invalidCharacter field c)
  | none => .ok ()

theorem validateChars_ok {field : String} {allowed : Char → Bool} {s : String} {u : Unit} :
    validateChars field allowed s = .ok u ↔ ∀ c ∈ s.toList, allowed c = true := by
  unfold validateChars
  constructor
  · intro h c hc
    split at h
    · cases h
    · rename_i hnone
      simpa using List.find?_eq_none.1 hnone c hc
  · intro h
    have hnone : s.toList.find? (fun c => !allowed c) = none :=
      List.find?_eq_none.2 fun c hc => by simp [h c hc]
    rw [hnone]

/-- Not empty, within a length, and of allowed characters. -/
def validateText (field : String) (max : Nat) (allowed : Char → Bool) (s : String) :
    Except ProvenanceError Unit :=
  if s = "" then .error (.emptyField field)
  else if s.utf8ByteSize > max then .error (.valueTooLong field s.utf8ByteSize max)
  else validateChars field allowed s

theorem validateText_ok {field : String} {max : Nat} {allowed : Char → Bool} {s : String}
    {u : Unit} (h : validateText field max allowed s = .ok u) :
    s ≠ "" ∧ s.utf8ByteSize ≤ max ∧ validateChars field allowed s = .ok () := by
  unfold validateText at h
  split at h
  · cases h
  · rename_i hempty
    split at h
    · cases h
    · rename_i hlen
      exact ⟨hempty, by omega, h⟩

def validateIssuer : String → Except ProvenanceError Unit :=
  validateText "issuer" 256 isAsciiGraphic

def validateSubject : String → Except ProvenanceError Unit :=
  validateText "subject" 256 isAsciiGraphic

def validateAgentName : String → Except ProvenanceError Unit :=
  validateText "agent_name" 128 fun c =>
    isAsciiAlphanumeric c || c == '_' || c == '-' || c == '.' || c == '/' || c == ':'

def validateSourceAuthor : String → Except ProvenanceError Unit :=
  validateText "source_author" 256 fun c => !isAsciiControl c

def validateSourceReference : String → Except ProvenanceError Unit :=
  validateText "source_reference" 2048 fun c => !isAsciiControl c

def validateOriginId : String → Except ProvenanceError Unit :=
  validateText "origin_id" 256 isAsciiGraphic

def validateRecordId : String → Except ProvenanceError Unit :=
  validateText "original_record_id" 256 fun c => !isAsciiControl c

def validateEmail (s : String) : Except ProvenanceError Unit :=
  let trimmed := trim s
  if trimmed = "" then .error (.emptyField "email_at_write")
  else if trimmed.utf8ByteSize < 3 then
    .error (.invalidEmail s!"email too short: `{trimmed}`")
  else if trimmed.utf8ByteSize > 254 then
    .error (.valueTooLong "email_at_write" trimmed.utf8ByteSize 254)
  else
    match validateChars "email_at_write" (fun c => !(isAsciiWhitespace c || isAsciiControl c))
      trimmed with
    | .error e => .error e
    | .ok () =>
      match trimmed.toList.splitOn '@' with
      | [localPart, domain] =>
        if localPart ≠ [] ∧ domain ≠ [] ∧ domain.head? ≠ some '.' ∧ domain.getLast? ≠ some '.' then
          .ok ()
        else .error (.invalidEmail trimmed)
      | _ => .error (.invalidEmail trimmed)

def ownerIdReserved : List String := ["legacy", "unknown", "none", "null"]

def validateOwnerId (s : String) : Except ProvenanceError Unit :=
  if s = "" then .error (.emptyField "owner_id")
  else if s.utf8ByteSize > 128 then .error (.valueTooLong "owner_id" s.utf8ByteSize 128)
  else if toAsciiLowercase s ∈ ownerIdReserved then .error (.reservedIdentifier "owner_id" s)
  else
    validateChars "owner_id"
      (fun c => isAsciiAlphanumeric c || c == '_' || c == '-' || c == '.') s

structure OwnerId where
  str : String
  valid : validateOwnerId str = .ok ()
  deriving DecidableEq

namespace OwnerId

theorem notReserved (o : OwnerId) : toAsciiLowercase o.str ∉ ownerIdReserved ∧ ':' ∉ o.str.toList := by
  have h := o.valid
  unfold validateOwnerId at h
  split at h
  · cases h
  · split at h
    · cases h
    · split at h
      · cases h
      · rename_i hreserved
        refine ⟨hreserved, fun hcolon => ?_⟩
        have := validateChars_ok.1 h ':' hcolon
        revert this
        decide

theorem ne_legacy (o : OwnerId) : o.str ≠ "legacy" := by
  intro h
  refine o.notReserved.1 ?_
  rw [h]
  decide

theorem colon_not_mem (o : OwnerId) : ':' ∉ o.str.toList := o.notReserved.2

end OwnerId

structure Issuer where
  str : String
  valid : validateIssuer str = .ok ()
  deriving DecidableEq

structure Subject where
  str : String
  valid : validateSubject str = .ok ()
  deriving DecidableEq

structure EmailAtWrite where
  str : String
  valid : validateEmail str = .ok ()
  deriving DecidableEq

structure AgentName where
  str : String
  valid : validateAgentName str = .ok ()
  deriving DecidableEq

structure SourceAuthor where
  str : String
  valid : validateSourceAuthor str = .ok ()
  deriving DecidableEq

structure SourceReference where
  str : String
  valid : validateSourceReference str = .ok ()
  deriving DecidableEq

structure RecordingTime where
  time : OffsetDateTime
  utc : time.offset = 0
  formattable : time.Formattable

theorem RecordingTime.time_inj {a b : RecordingTime} : a.time = b.time ↔ a = b := by
  cases a
  cases b
  simp

instance : DecidableEq RecordingTime := fun _ _ => decidable_of_iff _ RecordingTime.time_inj

/-! ## Identities and origins -/

structure AuthenticatedOwner where
  id : OwnerId
  issuer : Issuer
  subject : Subject
  emailAtWrite : EmailAtWrite
  deriving DecidableEq

inductive OwnerIdentity where
  | unknown
  | authenticated (owner : AuthenticatedOwner)
  deriving DecidableEq

inductive AgentAssurance where
  | callerAsserted
  deriving DecidableEq

structure AgentAttribution where
  agentName : AgentName
  assurance : AgentAssurance
  deriving DecidableEq

inductive StorageOrigin where
  | localOrigin (originId : String) (valid : validateOriginId originId = .ok ())
  | federated (originId : String) (originalRecordId : Option String)
      (valid : validateOriginId originId = .ok ())
      (validRecord : ∀ id ∈ originalRecordId, validateRecordId id = .ok ())
  deriving DecidableEq

namespace StorageOrigin

def isFederated : StorageOrigin → Bool
  | localOrigin .. => false
  | federated .. => true

def originalRecordId : StorageOrigin → Option String
  | localOrigin .. => none
  | federated _ recordId .. => recordId

end StorageOrigin

/-! ## Owner-scoped keys -/

def maxOperationIdChars : Nat := 128

def validateOperationKey (s : String) : Except ProvenanceError Unit :=
  validateChars "raw_key" (fun c => !isAsciiControl c) s

def validateRawKey (trimmed : String) : Except ProvenanceError Unit :=
  if trimmed = "" then .error (.emptyField "raw_key")
  else if trimmed.utf8ByteSize > maxOperationIdChars then
    .error (.valueTooLong "raw_key" trimmed.utf8ByteSize maxOperationIdChars)
  else validateOperationKey trimmed

structure OwnerScopedKey where
  ownerId : Option OwnerId
  rawKey : String
  trimmed : trim rawKey = rawKey
  valid : validateRawKey rawKey = .ok ()
  deriving DecidableEq

namespace OwnerScopedKey

def new (ownerId : Option OwnerId) (rawKey : String) : Except ProvenanceError OwnerScopedKey :=
  match h : validateRawKey (trim rawKey) with
  | .error e => .error e
  | .ok () => .ok ⟨ownerId, trim rawKey, trim_trim rawKey, h⟩

def validate (k : OwnerScopedKey) : Except ProvenanceError Unit :=
  let trimmed := trim k.rawKey
  if trimmed = "" then .error (.emptyField "raw_key")
  else if trimmed.utf8ByteSize > maxOperationIdChars then
    .error (.valueTooLong "raw_key" trimmed.utf8ByteSize maxOperationIdChars)
  else if k.rawKey ≠ trimmed then .error (.invalidCharacter "raw_key" ' ')
  else validateOperationKey trimmed

theorem validate_ok (k : OwnerScopedKey) : k.validate = .ok () := by
  have h := k.valid
  unfold validateRawKey at h
  unfold validate
  simp only [k.trimmed]
  split at h
  · cases h
  · rename_i hempty
    rw [if_neg hempty]
    split at h
    · cases h
    · rename_i hlen
      rw [if_neg hlen, if_neg fun hne => hne rfl]
      exact h

/-- The owner column: the owner id, or `legacy`. -/
def scope (k : OwnerScopedKey) : String := (k.ownerId.map (·.str)).getD "legacy"

def compositeKey (k : OwnerScopedKey) : String :=
  match k.ownerId with
  | some owner => owner.str ++ ":" ++ k.rawKey
  | none => "legacy:" ++ k.rawKey

theorem compositeKey_eq (k : OwnerScopedKey) : k.compositeKey = k.scope ++ ":" ++ k.rawKey := by
  unfold compositeKey scope
  cases k.ownerId with
  | some owner => rfl
  | none =>
    show "legacy:" ++ k.rawKey = "legacy" ++ ":" ++ k.rawKey
    rw [show "legacy" ++ ":" = "legacy:" from by decide]

theorem colon_not_mem_scope (k : OwnerScopedKey) : ':' ∉ k.scope.toList := by
  unfold scope
  cases k.ownerId with
  | some owner => exact owner.colon_not_mem
  | none => decide

theorem ext_scope {k k' : OwnerScopedKey} (hs : k.scope = k'.scope) (hr : k.rawKey = k'.rawKey) :
    k = k' := by
  obtain ⟨o, raw, _, _⟩ := k
  obtain ⟨o', raw', _, _⟩ := k'
  obtain rfl : raw = raw' := hr
  have howner : o = o' := by
    cases o with
    | none =>
      cases o' with
      | none => rfl
      | some owner' => exact absurd hs.symm owner'.ne_legacy
    | some owner =>
      cases o' with
      | none => exact absurd hs owner.ne_legacy
      | some owner' =>
        obtain ⟨str, _⟩ := owner
        obtain ⟨str', _⟩ := owner'
        obtain rfl : str = str' := hs
        rfl
  subst howner
  rfl

end OwnerScopedKey

/-! ## The envelope -/

def maxSourceRefs : Nat := 128

structure ProvenanceEnvelope where
  owner : OwnerIdentity
  actor : Option AgentAttribution
  recordedAt : RecordingTime
  origin : StorageOrigin
  operationId : Option OwnerScopedKey
  sourceAuthor : Option SourceAuthor
  sourceRefs : List SourceReference
  deriving DecidableEq

namespace ProvenanceEnvelope

def checkOwnerScope (p : ProvenanceEnvelope) (key : OwnerScopedKey) :
    Except ProvenanceError Unit :=
  match p.owner, key.ownerId with
  | .authenticated owner, some opOwner =>
    if owner.id ≠ opOwner then .error (.ownerScopeMismatch owner.id.str opOwner.str) else .ok ()
  | .authenticated owner, none => .error (.ownerScopeMismatch owner.id.str "unscoped/legacy")
  | .unknown, some opOwner => .error (.ownerScopeMismatch "unknown" opOwner.str)
  | .unknown, none => .ok ()

def validate (p : ProvenanceEnvelope) : Except ProvenanceError Unit := do
  if p.sourceRefs.length > maxSourceRefs then
    throw (.tooManySourceRefs p.sourceRefs.length maxSourceRefs)
  match p.operationId with
  | some key => p.checkOwnerScope key
  | none => return ()

end ProvenanceEnvelope

end AgentPalace
