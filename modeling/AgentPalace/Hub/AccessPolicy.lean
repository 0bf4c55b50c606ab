import AgentPalace.Hub.Types
import AgentPalace.Lib.Decimal
import AgentPalace.Lib.TextSlice

/-!
# The access policy store

Two files: the policy maps addresses to roles, the bindings map an issuer and
subject to an owner id and an address. Each carries its history, a chain of
audit events from the empty map to the current one. A file is read whole and
checked whole; an operation reads, decides and writes at most one file under the
lock of the store, except `openStore`, which writes up to three.

A stored file is what its bytes parse to and how many bytes there are; the
sizes of what is written are those of `PolicyEnv`.
-/

namespace AgentPalace

/-- A character of the Unicode category `Cc`. -/
def isControl (c : Char) : Bool := c.toNat < 32 || (127 ≤ c.toNat && c.toNat < 160)

def Issuer.new (s : String) : Except ProvenanceError Issuer :=
  match h : validateIssuer s with
  | .error e => .error e
  | .ok () => .ok ⟨s, h⟩

def Subject.new (s : String) : Except ProvenanceError Subject :=
  match h : validateSubject s with
  | .error e => .error e
  | .ok () => .ok ⟨s, h⟩

theorem validateEmail_trim (s : String) : validateEmail (trim s) = validateEmail s := by
  simp only [validateEmail, trim_trim]

def EmailAtWrite.new (s : String) : Except ProvenanceError EmailAtWrite :=
  match h : validateEmail s with
  | .error e => .error e
  | .ok () => .ok ⟨trim s, (validateEmail_trim s).trans h⟩

structure SubjectBinding where
  issuer : Issuer
  subject : Subject
  deriving DecidableEq

def SubjectBinding.parse (issuer subject : String) : Except ProvenanceError SubjectBinding :=
  match Issuer.new issuer with
  | .error e => .error e
  | .ok issuer =>
    match Subject.new subject with
    | .error e => .error e
    | .ok subject => .ok ⟨issuer, subject⟩

namespace Hub

def maxPolicyFileBytes : Nat := 4 * 1024 * 1024

inductive AccessPolicyError where
  /-- A file that is not there. -/
  | notFound
  | revisionConflict (expected actual : Nat)
  | invalid (message : String)
  | lastEnabledAdmin
  | bindingConflict
  | emailChanged
  deriving DecidableEq

structure AccessEntry where
  role : AccessRole
  enabled : Bool
  /-- An administrator attests to the mailbox. -/
  mailboxProven : Bool
  deriving DecidableEq

structure BootstrapAdmin where
  email : String
  mailboxProven : Bool

structure AuditEntry where
  actor : String
  occurredAt : String
  action : String
  before : Json
  after : Json
  deriving DecidableEq

structure PolicyFile where
  format : Nat
  revision : Nat
  users : OrdMap String AccessEntry
  audit : List AuditEntry

structure BindingRecord where
  ownerId : OwnerId
  email : String
  deriving DecidableEq

structure BindingsFile where
  format : Nat
  bindings : OrdMap String BindingRecord
  audit : List AuditEntry

/-! ## Addresses and actors -/

def normalizeEmail (value : String) : Except AccessPolicyError String :=
  let value := trim value
  match rsplitOnceAt '@' value.toList with
  | none => .error (.invalid "email must contain one @")
  | some (localPart, domain) =>
    if localPart = [] ∨ domain = [] ∨ '@' ∈ localPart ∨ '@' ∈ domain ∨
        value.toList.any (fun ch => isAsciiControl ch || isAsciiWhitespace ch) = true then
      .error (.invalid "email address is malformed")
    else
      let normalized := String.ofList (localPart ++ '@' :: domain.map Char.toLower)
      match validateEmail normalized with
      | .error e => .error (.invalid e.display)
      | .ok () => .ok normalized

def mailboxIsProven (email : String) (mailboxProven : Bool) : Bool :=
  (rsplitOnceAt '@' email.toList).any
    (fun s => decide (s.2.map Char.toLower = "gmail.com".toList)) || mailboxProven

def validateActor (actor : String) : Except AccessPolicyError String :=
  let actor := trim actor
  if actor = "" ∨ 256 < actor.utf8ByteSize ∨ actor.toList.any isControl = true then
    .error (.invalid "audit actor is malformed")
  else .ok actor

def bindingKey (binding : SubjectBinding) : String :=
  String.ofList (binding.issuer.str.toList ++ Char.ofNat 0 :: binding.subject.str.toList)

/-! ## What the files hold -/

def timestamp (now : UInt64) : String := toString (now.toNat : Int)

def AccessRole.value : AccessRole → String
  | .admin => "admin"
  | .write => "write"
  | .readonly => "readonly"

/-- `serde_json::to_value`. -/
def usersValue (users : OrdMap String AccessEntry) : Json :=
  .obj (users.entries.map fun e => (e.1, .obj [("enabled", .bool e.2.enabled),
    ("mailbox_proven", .bool e.2.mailboxProven), ("role", .str e.2.role.value)]))

def bindingsValue (bindings : OrdMap String BindingRecord) : Json :=
  .obj (bindings.entries.map fun e =>
    (e.1, .obj [("email", .str e.2.email), ("owner_id", .str e.2.ownerId.str)]))

def validateEmails : List String → Except AccessPolicyError Unit
  | [] => .ok ()
  | email :: rest =>
    match normalizeEmail email with
    | .error e => .error e
    | .ok normalized =>
      if normalized ≠ email then .error (.invalid "email keys must be canonical")
      else validateEmails rest

def validateUsers (users : OrdMap String AccessEntry) : Except AccessPolicyError Unit :=
  validateEmails users.keys

def canonicalizeEntries :
    List (String × AccessEntry) → OrdMap String AccessEntry →
      Except AccessPolicyError (OrdMap String AccessEntry)
  | [], canonical => .ok canonical
  | (email, entry) :: rest, canonical =>
    match normalizeEmail email with
    | .error e => .error e
    | .ok email =>
      if canonical.contains email then
        .error (.invalid s!"duplicate email after normalization: {email}")
      else canonicalizeEntries rest (canonical.insert email entry)

def canonicalizeUsers (users : OrdMap String AccessEntry) :
    Except AccessPolicyError (OrdMap String AccessEntry) :=
  canonicalizeEntries users.entries .empty

def enabledAdmin (entry : AccessEntry) : Bool := entry.enabled && decide (entry.role = .admin)

def AuditEntry.malformed (event : AuditEntry) : Bool :=
  isBlank event.actor || decide (256 < event.actor.utf8ByteSize) ||
    event.actor.toList.any isControl || (parseU64 event.occurredAt).isNone || isBlank event.action

def checkEvents : Option Json → List AuditEntry → Except AccessPolicyError (Option Json)
  | prior, [] => .ok prior
  | prior, event :: rest =>
    if event.malformed then .error (.invalid "policy audit event is malformed")
    else
      match prior with
      | none =>
        if event.before.isNull then checkEvents (some event.after) rest
        else .error (.invalid "first audit event must have a null before value")
      | some previous =>
        if event.before = previous then checkEvents (some event.after) rest
        else .error (.invalid "policy audit history is discontinuous")

def validateAuditChain (audit : List AuditEntry) (current : Json) (revision : Nat) :
    Except AccessPolicyError Unit :=
  if audit = [] ∨ audit.length ≠ revision then
    .error (.invalid "audit history does not match policy revision")
  else
    match checkEvents none audit with
    | .error e => .error e
    | .ok last =>
      if last = some current then .ok ()
      else .error (.invalid "policy changed without a matching operator audit event")

/-- What `read_policy` requires. -/
def PolicyFile.check (policy : PolicyFile) : Except AccessPolicyError Unit :=
  if policy.format ≠ 1 ∨ policy.revision = 0 then
    .error (.invalid "unsupported policy format or revision")
  else
    match validateUsers policy.users with
    | .error e => .error e
    | .ok () =>
      match validateAuditChain policy.audit (usersValue policy.users) policy.revision with
      | .error e => .error e
      | .ok () =>
        if policy.users.values.any enabledAdmin then .ok () else .error .lastEnabledAdmin

/-- The records in order, behind some addresses and owners. -/
def checkBindings : List (String × BindingRecord) → List String → List OwnerId →
    Except AccessPolicyError Unit
  | [], _, _ => .ok ()
  | (key, record) :: rest, emails, owners =>
    match normalizeEmail record.email with
    | .error e => .error e
    | .ok email =>
      if email ≠ record.email ∨ email ∈ emails ∨ record.ownerId ∈ owners then
        .error (.invalid "duplicate or non-canonical identity binding")
      else
        match splitOnceAt (Char.ofNat 0) key.toList with
        | none => .error (.invalid "identity binding key is malformed")
        | some (issuer, subject) =>
          match SubjectBinding.parse (String.ofList issuer) (String.ofList subject) with
          | .error e => .error (.invalid e.display)
          | .ok binding =>
            if bindingKey binding ≠ key then
              .error (.invalid "identity binding key is not canonical")
            else checkBindings rest (email :: emails) (record.ownerId :: owners)

/-- What `read_bindings` requires. -/
def BindingsFile.check (file : BindingsFile) : Except AccessPolicyError Unit :=
  if file.format ≠ 1 then .error (.invalid "unsupported binding format")
  else
    match validateAuditChain file.audit (bindingsValue file.bindings) file.audit.length with
    | .error e => .error e
    | .ok () => checkBindings file.bindings.entries [] []

/-! ## Storage -/

/-- The bytes under a path: how many there are, and what they parse to or why they do not. -/
structure Stored (α : Type) where
  bytes : Nat
  value : Except String α

structure PolicyEnv where
  policyBytes : PolicyFile → Nat
  bindingsBytes : BindingsFile → Nat
  /-- The owner id made of the hash of a binding key. -/
  stableOwnerId : String → OwnerId

structure Files where
  policy : Option (Stored PolicyFile)
  bootstrapMarker : Bool
  bindings : Option (Stored BindingsFile)

def readBounded {α : Type} (file : Option (Stored α)) : Except AccessPolicyError α :=
  match file with
  | none => .error .notFound
  | some file =>
    if maxPolicyFileBytes ≤ file.bytes then .error (.invalid "policy file is too large")
    else
      match file.value with
      | .error message => .error (.invalid message)
      | .ok value => .ok value

def writeJsonAtomic {α : Type} (bytes : α → Nat) (value : α) :
    Except AccessPolicyError (Stored α) :=
  if maxPolicyFileBytes ≤ bytes value then
    .error (.invalid "policy file exceeds the 4 MiB limit")
  else .ok ⟨bytes value, .ok value⟩

namespace Files

variable (env : PolicyEnv)

def readPolicy (s : Files) : Except AccessPolicyError PolicyFile :=
  match readBounded s.policy with
  | .error e => .error e
  | .ok policy => policy.check.map fun _ => policy

def readBindings (s : Files) : Except AccessPolicyError BindingsFile :=
  match readBounded s.bindings with
  | .error e => .error e
  | .ok file => file.check.map fun _ => file

def writePolicy (s : Files) (policy : PolicyFile) : Except AccessPolicyError Files :=
  match validateUsers policy.users with
  | .error e => .error e
  | .ok () =>
    (writeJsonAtomic env.policyBytes policy).map fun stored => { s with policy := some stored }

def writeBindings (s : Files) (file : BindingsFile) : Except AccessPolicyError Files :=
  (writeJsonAtomic env.bindingsBytes file).map fun stored => { s with bindings := some stored }

/-! ## Opening -/

def bootstrapPolicy (now : UInt64) (email : String) (mailboxProven : Bool) : PolicyFile :=
  let users := OrdMap.empty.insert email ⟨.admin, true, mailboxProven⟩
  { format := 1
    revision := 1
    users
    audit := [{ actor := "bootstrap", occurredAt := timestamp now
                action := "bootstrap_admin_created", before := .null, after := usersValue users }] }

/-- The policy is there, or is created: `true` says that it was. -/
def openPolicy (s : Files) (bootstrap : Option BootstrapAdmin) (now : UInt64) :
    Except AccessPolicyError (Bool × Files) :=
  match s.readPolicy with
  | .ok _ => .ok (false, s)
  | .error .notFound =>
    if s.bootstrapMarker then .error (.invalid "initial bootstrap has already been used")
    else
      match bootstrap with
      | none => .error .notFound
      | some bootstrap =>
        match normalizeEmail bootstrap.email with
        | .error e => .error e
        | .ok email =>
          (s.writePolicy env (bootstrapPolicy now email bootstrap.mailboxProven)).map fun s =>
            (true, s)
  | .error e => .error e

def writeMarker (s : Files) : Files := { s with bootstrapMarker := true }

def initialBindings (now : UInt64) : BindingsFile where
  format := 1
  bindings := .empty
  audit := [{ actor := "bootstrap", occurredAt := timestamp now
              action := "bindings_initialized", before := .null
              after := bindingsValue .empty }]

def openBindings (s : Files) (now : UInt64) : Except AccessPolicyError Files :=
  match s.readBindings with
  | .ok _ => .ok s
  | .error .notFound => s.writeBindings env (initialBindings now)
  | .error e => .error e

/-- `open`, without a crash on the way. -/
def openStore (s : Files) (bootstrap : Option BootstrapAdmin) (now : UInt64) :
    Except AccessPolicyError Unit × Files :=
  match s.openPolicy env bootstrap now with
  | .error e => (.error e, s)
  | .ok (created, s) =>
    let s := if created then s.writeMarker else s
    match s.openBindings env now with
    | .error e => (.error e, s)
    | .ok s => (.ok (), s)

/-! ## Operations -/

/-- The bindings after a change, with the event of the change. -/
def changeBindings (file : BindingsFile) (bindings : OrdMap String BindingRecord)
    (actor action : String) (now : UInt64) : BindingsFile :=
  { file with
    bindings
    audit := file.audit ++ [{ actor, occurredAt := timestamp now, action
                              before := bindingsValue file.bindings
                              after := bindingsValue bindings }] }

/-- The owner a subject has, or gets with its first admission. -/
def ownerFor (bindings : OrdMap String BindingRecord) (key email : String) :
    Except AccessPolicyError OwnerId :=
  match bindings.get? key with
  | some record => .ok record.ownerId
  | none =>
    if bindings.entries.any fun e => decide (e.1 ≠ key ∧ e.2.email = email) then
      .error .bindingConflict
    else .ok (env.stableOwnerId key)

/-- The enabled entry of an address whose mailbox is proven. -/
def liveUser? (users : OrdMap String AccessEntry) (email : String) : Option AccessEntry :=
  ((users.get? email).filter (·.enabled)).filter fun entry =>
    mailboxIsProven email entry.mailboxProven

def resolve (s : Files) (identity : VerifiedIdentity) (now : UInt64) :
    Except AccessPolicyError (Option PolicyDecision) × Files :=
  match s.readPolicy with
  | .error e => (.error e, s)
  | .ok policy =>
    match normalizeEmail identity.email with
    | .error _ => (.ok none, s)
    | .ok email =>
      match SubjectBinding.parse identity.issuer identity.subject with
      | .error e => (.error (.invalid e.display), s)
      | .ok binding =>
        match s.readBindings with
        | .error e => (.error e, s)
        | .ok file =>
          let key := bindingKey binding
          if (file.bindings.get? key).any (·.email ≠ email) then (.error .emailChanged, s)
          else
            match liveUser? policy.users email with
            | none => (.ok none, s)
            | some entry =>
              match ownerFor env file.bindings key email with
              | .error e => (.error e, s)
              | .ok ownerId =>
                match EmailAtWrite.new identity.email with
                | .error e => (.error (.invalid e.display), s)
                | .ok emailAtWrite =>
                  let decision : PolicyDecision :=
                    ⟨⟨⟨ownerId, binding.issuer, binding.subject, emailAtWrite⟩⟩, entry.role⟩
                  if file.bindings.contains key then (.ok (some decision), s)
                  else
                    match s.writeBindings env (changeBindings file
                      (file.bindings.insert key ⟨ownerId, email⟩) "oidc-admission" "subject_bound"
                      now) with
                    | .error e => (.error e, s)
                    | .ok s => (.ok (some decision), s)

def roleForOwner (s : Files) (ownerId : OwnerId) : Except AccessPolicyError (Option AccessRole) :=
  match s.readPolicy with
  | .error e => .error e
  | .ok policy =>
    match s.readBindings with
    | .error e => .error e
    | .ok file =>
      .ok ((file.bindings.values.find? fun record => record.ownerId = ownerId).bind fun record =>
        (liveUser? policy.users record.email).map (·.role))

def replace (s : Files) (expectedRevision : Nat) (actor : String)
    (users : OrdMap String AccessEntry) (now : UInt64) :
    Except AccessPolicyError Unit × Files :=
  match s.readPolicy with
  | .error e => (.error e, s)
  | .ok policy =>
    if policy.revision ≠ expectedRevision then
      (.error (.revisionConflict expectedRevision policy.revision), s)
    else
      match canonicalizeUsers users with
      | .error e => (.error e, s)
      | .ok users =>
        match validateUsers users with
        | .error e => (.error e, s)
        | .ok () =>
          if users.values.any enabledAdmin = false then (.error .lastEnabledAdmin, s)
          else if 2 ^ 64 ≤ policy.revision + 1 then (.error (.invalid "revision overflow"), s)
          else
            match validateActor actor with
            | .error e => (.error e, s)
            | .ok actor =>
              match s.writePolicy env
                { policy with
                  revision := policy.revision + 1
                  users
                  audit := policy.audit ++ [{ actor, occurredAt := timestamp now
                                              action := "policy_replaced"
                                              before := usersValue policy.users
                                              after := usersValue users }] } with
              | .error e => (.error e, s)
              | .ok s => (.ok (), s)

def bindSubject (s : Files) (binding : SubjectBinding) (ownerId : OwnerId) (email actor : String)
    (now : UInt64) : Except AccessPolicyError Unit × Files :=
  match normalizeEmail email with
  | .error e => (.error e, s)
  | .ok email =>
    match validateActor actor with
    | .error e => (.error e, s)
    | .ok actor =>
      match s.readBindings with
      | .error e => (.error e, s)
      | .ok file =>
        let key := bindingKey binding
        match file.bindings.get? key with
        | some existing =>
          (if existing = ⟨ownerId, email⟩ then .ok () else .error .bindingConflict, s)
        | none =>
          if file.bindings.values.any fun existing =>
              decide (existing.email = email ∨ existing.ownerId = ownerId) then
            (.error .bindingConflict, s)
          else
            match s.writeBindings env (changeBindings file
              (file.bindings.insert key ⟨ownerId, email⟩) actor "subject_bound" now) with
            | .error e => (.error e, s)
            | .ok s => (.ok (), s)

def updateBindingEmail (s : Files) (binding : SubjectBinding)
    (expectedEmail newEmail actor : String) (now : UInt64) :
    Except AccessPolicyError Unit × Files :=
  match normalizeEmail expectedEmail with
  | .error e => (.error e, s)
  | .ok expectedEmail =>
    match normalizeEmail newEmail with
    | .error e => (.error e, s)
    | .ok newEmail =>
      match validateActor actor with
      | .error e => (.error e, s)
      | .ok actor =>
        match s.readBindings with
        | .error e => (.error e, s)
        | .ok file =>
          let key := bindingKey binding
          match file.bindings.get? key with
          | none => (.error .bindingConflict, s)
          | some existing =>
            if existing.email ≠ expectedEmail then (.error .emailChanged, s)
            else if file.bindings.entries.any fun e =>
                decide (e.1 ≠ key ∧ e.2.email = newEmail) then
              (.error .bindingConflict, s)
            else
              match s.writeBindings env (changeBindings file
                (file.bindings.modify key fun record => { record with email := newEmail })
                actor "subject_email_updated" now) with
              | .error e => (.error e, s)
              | .ok s => (.ok (), s)

end Files

inductive PolicyCall where
  | openStore (bootstrap : Option BootstrapAdmin) (now : UInt64)
  | resolve (identity : VerifiedIdentity) (now : UInt64)
  | replace (expectedRevision : Nat) (actor : String) (users : OrdMap String AccessEntry)
      (now : UInt64)
  | bindSubject (binding : SubjectBinding) (ownerId : OwnerId) (email actor : String)
      (now : UInt64)
  | updateBindingEmail (binding : SubjectBinding) (expectedEmail newEmail actor : String)
      (now : UInt64)

def PolicyCall.run (env : PolicyEnv) (s : Files) : PolicyCall → Files
  | openStore bootstrap now => (s.openStore env bootstrap now).2
  | resolve identity now => (s.resolve env identity now).2
  | replace expectedRevision actor users now => (s.replace env expectedRevision actor users now).2
  | bindSubject binding ownerId email actor now =>
    (s.bindSubject env binding ownerId email actor now).2
  | updateBindingEmail binding expectedEmail newEmail actor now =>
    (s.updateBindingEmail env binding expectedEmail newEmail actor now).2

end Hub

end AgentPalace
