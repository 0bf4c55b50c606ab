import AgentPalace.Lib.Guarded
import AgentPalace.Remote.Error

/-!
# Grants of remote clients

How `RemoteClient` gets, uses and gives up an OAuth grant. A call is a program
of the sections between two awaits (`AuthOp`). What the login lock protects is
an `AuthState`, one for each process; the processes share the credential store,
one record for each identity. The answers of the issuer, of the remote and of
the user are open, and every operation of the store may fail.

The last fields of `AuthState` are no data of the client. They record what it
got from the store and the issuer since it took the lock, and which tokens a
refresh has superseded.
-/

namespace AgentPalace.Remote

structure OAuthSession where
  accessToken : String
  refreshToken : Option String
  expiresAt : Option Nat
  resource : String
  issuer : String
  clientId : String
  account : Option String
  deriving DecidableEq

structure AuthorizationServerMetadata where
  issuer : String
  tokenEndpoint : String
  revocationEndpoint : Option String
  deriving DecidableEq

structure ProtectedResourceMetadata where
  resource : String
  authorizationServers : List String

structure TokenStoreError where
  kind : TokenStoreErrorKind
  message : String

inductive ClearOutcome where
  | removed | absent
  deriving DecidableEq

inductive RevocationOutcome where
  | revoked | noCredential | unsupported
  | failed (message : String)

structure LogoutOutcome where
  store : ClearOutcome
  revocation : RevocationOutcome

inductive TokenEndpointFailure where
  | rejected (message : String)
  | transient (message : String)

structure TokenResponse where
  accessToken : String
  refreshToken : Option String
  expiresIn : Option Nat

inductive OAuthLoginMode where
  | browser | device | auto

def selectLoginMode (configured : OAuthLoginMode) (browserUsable : Bool) : OAuthLoginMode :=
  match configured with
  | .auto => if browserUsable then .browser else .device
  | mode => mode

structure OAuthConfig where
  clientId : String
  account : Option String
  loginMode : OAuthLoginMode

/-- What a record of the credential store is scoped by. -/
structure Identity where
  resource : String
  issuer : String
  clientId : String
  account : Option String
  deriving DecidableEq

/-- `saturating_add` of `u64`. -/
def saturatingAdd (a b : Nat) : Nat := min (a + b) (2 ^ 64 - 1)

/-- The session that a token response stands for. -/
def OAuthSession.renewed (session : OAuthSession) (body : TokenResponse) (now : Nat) :
    OAuthSession :=
  { session with
    accessToken := body.accessToken
    refreshToken := body.refreshToken.or session.refreshToken
    expiresAt := body.expiresIn.map (saturatingAdd now) }

/-- A response to a request of the client: the token that it carried, and what came back. -/
structure Reply where
  token : Option String
  outcome : Except RemoteError (UInt16 × Option String)

structure Observed where
  epoch : UInt64
  generation : UInt64
  signedOut : Bool

/-- The sections of the calls. `refresh`, `login` and `revoke` are the calls of the issuer, `send`
takes the token and sends a request with it. -/
inductive AuthOp where
  | acquire | release
  | observe | signOut
  | writeToken (token : Option String)
  | publishSession (session : OAuthSession)
  | takeSession | readSession
  | readTrusted
  | writeTrusted (metadata : AuthorizationServerMetadata)
  | load (id : Identity)
  | save (id : Identity) (session : OAuthSession)
  | clear (id : Identity)
  | refresh (metadata : AuthorizationServerMetadata) (session : OAuthSession)
  | login (metadata : AuthorizationServerMetadata) (resource : String) (mode : OAuthLoginMode)
  | revoke (metadata : AuthorizationServerMetadata) (grant : OAuthSession)
  | discoverMetadata (resourceMetadata : String)
  | fetchMetadata (issuer : String)
  | send | nowSeconds | browserCallbackUsable

namespace AuthOp

@[reducible] def Ans : AuthOp → Type
  | acquire | release | signOut | writeToken _ | publishSession _ | writeTrusted _ => Unit
  | observe => Observed
  | takeSession | readSession => Option OAuthSession
  | readTrusted => Option AuthorizationServerMetadata
  | load _ => Except TokenStoreError (Option OAuthSession)
  | save _ _ => Except TokenStoreError Unit
  | clear _ => Except TokenStoreError ClearOutcome
  | refresh _ _ => Except TokenEndpointFailure (TokenResponse × Nat)
  | login _ _ _ => Except String OAuthSession
  | revoke _ _ => Except String Unit
  | discoverMetadata _ => Except String (ProtectedResourceMetadata × AuthorizationServerMetadata)
  | fetchMetadata _ => Except String AuthorizationServerMetadata
  | send => Reply
  | nowSeconds => Nat
  | browserCallbackUsable => Bool

def role : AuthOp → LockRole
  | acquire => .acquire
  | release => .release
  | observe | readSession | readTrusted | writeTrusted _ | discoverMetadata _ | fetchMetadata _
  | send | nowSeconds | browserCallbackUsable => .free
  | signOut | writeToken _ | publishSession _ | takeSession | load _ | save _ _ | clear _
  | refresh _ _ | login _ _ _ | revoke _ _ => .locked

end AuthOp

abbrev Auth (α : Type) := Co AuthOp AuthOp.Ans α

abbrev perform (op : AuthOp) : Auth op.Ans := Co.perform op

structure AuthClient where
  name : String
  oauthResource : String
  oauth : Option OAuthConfig
  /-- `Url::parse` and `to_string`. -/
  parseUrl : String → Option String
  validateMetadata :
    ProtectedResourceMetadata → AuthorizationServerMetadata → Except String Unit

namespace AuthClient

variable (k : AuthClient)

/-- `resource_key`. -/
def resourceKey (raw : String) : String := (k.parseUrl raw).getD raw

def identityOf (session : OAuthSession) : Identity :=
  ⟨k.resourceKey session.resource, session.issuer, session.clientId, session.account⟩

/-- The identity of the record of the remote at an issuer. -/
def storedAt (config : OAuthConfig) (issuer : String) : Identity :=
  ⟨k.resourceKey k.oauthResource, issuer, config.clientId, config.account⟩

/-! ## Errors -/

def oauthConfig : Except RemoteError OAuthConfig :=
  match k.oauth with
  | some config => .ok config
  | none =>
    .error (.invalidConfig k.name
      "OAuth operation requested for a remote without OAuth configuration")

def storeError (error : TokenStoreError) : RemoteError :=
  .credentialStore k.name error.kind error.message

def loginFailed (action : String) : RemoteError := .authenticationRequired k.name action none

def resourceUrl : Except RemoteError Unit :=
  match k.parseUrl k.oauthResource with
  | some _ => .ok ()
  | none => .error (.invalidConfig k.name "invalid OAuth resource")

/-! ## Under the login lock -/

/-- A call that holds the login lock while it runs. -/
def withLock {α : Type} (body : Auth α) : Auth α := do
  perform .acquire
  let r ← body
  perform .release
  return r

def publishLocked (session : OAuthSession) : Auth Unit := do
  perform (.writeToken (some session.accessToken))
  perform (.publishSession session)

def forgetLocked : Auth (Option OAuthSession) := do
  perform (.writeToken none)
  perform .takeSession

def commitLocked (session : OAuthSession) : Auth (Except RemoteError Unit) := do
  publishLocked session
  let saved ← perform (.save (k.identityOf session) session)
  return Except.mapError k.storeError saved

/-! ## Metadata -/

def discover (resourceMetadata : String) :
    Auth (Except RemoteError (ProtectedResourceMetadata × AuthorizationServerMetadata)) := do
  match k.oauthConfig, k.resourceUrl with
  | .error e, _ | _, .error e => return .error e
  | .ok _, .ok _ =>
    match ← perform (.discoverMetadata resourceMetadata) with
    | .error message =>
      return .error (.authenticationRequired k.name message (some resourceMetadata))
    | .ok (found, metadata) =>
      perform (.writeTrusted metadata)
      return .ok (found, metadata)

def authorizationServerMetadata (issuer : String) :
    Auth (Except RemoteError AuthorizationServerMetadata) := do
  let trusted ← perform .readTrusted
  match Option.filter (fun metadata => metadata.issuer = issuer) trusted, k.oauthConfig with
  | some metadata, _ => return .ok metadata
  | none, .error e => return .error e
  | none, .ok _ =>
    match ← perform (.fetchMetadata issuer) with
    | .error message => return .error (.authenticationRequired k.name message none)
    | .ok metadata =>
      match k.resourceUrl, k.validateMetadata ⟨k.oauthResource, [issuer]⟩ metadata with
      | .error e, _ => return .error e
      | .ok _, .error message => return .error (.authenticationRequired k.name message none)
      | .ok _, .ok _ =>
        perform (.writeTrusted metadata)
        return .ok metadata

/-! ## Recovery -/

def challengedMetadata (challenge : Option String) :
    Auth (Option AuthorizationServerMetadata) := do
  match challenge with
  | none => return none
  | some challenge =>
    match ← k.discover challenge with
    | .ok (_, metadata) => return some metadata
    | .error _ => return none

/-- The metadata trusted so far, or that of the issuer of the grant in use. -/
def retainedMetadata : Auth (Option AuthorizationServerMetadata) := do
  match ← perform .readTrusted with
  | some metadata => return some metadata
  | none =>
    match ← perform .readSession with
    | none => return none
    | some session =>
      match ← k.authorizationServerMetadata session.issuer with
      | .ok metadata => return some metadata
      | .error _ => return none

def recoveryMetadata (challenge : Option String) : Auth (Option AuthorizationServerMetadata) := do
  match ← k.challengedMetadata challenge with
  | some metadata => return some metadata
  | none => k.retainedMetadata

/-- What a rejected refresh does to the record of the grant. -/
def clearRejected (session : OAuthSession) : Auth (Except RemoteError ClearOutcome) := do
  let _ ← forgetLocked
  let cleared ← perform (.clear (k.identityOf session))
  return Except.mapError k.storeError cleared

/-- A recovery from here on holds the login lock. -/
def recoverLocked (config : OAuthConfig) (metadata : AuthorizationServerMetadata) (epoch : UInt64)
    (rejectedToken : Option String) : Auth (Except RemoteError Bool) := do
  let seen ← perform .observe
  if seen.epoch ≠ epoch ∨ seen.signedOut = true then return .ok false
  else
    match ← perform (.load (k.storedAt config metadata.issuer)) with
    | .error e => return .error (k.storeError e)
    | .ok none =>
      -- another process signed out
      let _ ← forgetLocked
      return .ok false
    | .ok (some current) =>
      if rejectedToken ≠ some current.accessToken then
        publishLocked current
        return .ok true
      else
        match ← perform (.refresh metadata current) with
        | .ok (body, now) =>
          let committed ← k.commitLocked (current.renewed body now)
          return committed.map fun _ => true
        | .error (.rejected _) =>
          let cleared ← k.clearRejected current
          return cleared.map fun _ => false
        | .error (.transient message) => return .error (.unreachable k.name message)

def recoverAuthorization (rejectedToken challenge : Option String) :
    Auth (Except RemoteError Bool) := do
  match k.oauth with
  | none => return .ok false
  | some config =>
    let before ← perform .observe
    if before.signedOut then return .ok false
    else
      match ← k.recoveryMetadata challenge with
      | none => return .ok false
      | some metadata => withLock (k.recoverLocked config metadata before.epoch rejectedToken)

/-- A refresh before a request from here on holds the login lock. -/
def refreshLocked (metadata : AuthorizationServerMetadata) (session : OAuthSession) :
    Auth Unit := do
  let current ← perform .readSession
  let seen ← perform .observe
  if Option.map OAuthSession.accessToken current ≠ some session.accessToken ∨
      seen.signedOut = true then return
  else
    match ← perform (.refresh metadata session) with
    | .ok (body, now) => let _ ← k.commitLocked (session.renewed body now)
    | .error (.rejected _) => let _ ← k.clearRejected session
    | .error (.transient _) => return

def isExpiring (session : OAuthSession) (now : Nat) : Bool :=
  session.expiresAt.any fun t => t ≤ saturatingAdd now 30

def refreshIfExpiring : Auth Unit := do
  match ← perform .readSession with
  | none => return
  | some session =>
    let now ← perform .nowSeconds
    if isExpiring session now ∧ session.refreshToken.isSome then
      let trusted ← perform .readTrusted
      match Option.filter (fun metadata => metadata.issuer = session.issuer) trusted with
      | none => return
      | some metadata => withLock (k.refreshLocked metadata session)
    else return

/-! ## Requests -/

def sendAndRead : Auth Reply := do
  if k.oauth.isSome then k.refreshIfExpiring
  perform .send

def sendAuthorized : Auth (Except RemoteError (UInt16 × Option String)) := do
  let reply ← k.sendAndRead
  match reply.outcome with
  | .error e => return .error e
  | .ok (status, challenge) =>
    if status = 401 ∧ k.oauth.isSome then
      match ← k.recoverAuthorization reply.token challenge with
      | .error e => return .error e
      | .ok false => return .ok (status, challenge)
      | .ok true =>
        let again ← k.sendAndRead
        return again.outcome
    else return .ok (status, challenge)

/-! ## Explicit calls -/

/-- The grant in use is one for the identity of a login. -/
def sharesGrant (config : OAuthConfig) (metadata : AuthorizationServerMetadata) (resource : String)
    (session : OAuthSession) : Bool :=
  k.identityOf session =
    ⟨k.resourceKey resource, metadata.issuer, config.clientId, config.account⟩

def loginLocked (config : OAuthConfig) (metadata : AuthorizationServerMetadata)
    (resource : String) (mode : OAuthLoginMode) (observed : UInt64) :
    Auth (Except RemoteError Unit) := do
  let seen ← perform .observe
  let current ← perform .readSession
  if seen.generation ≠ observed ∧
      Option.any (k.sharesGrant config metadata resource) current = true then
    return .ok ()
  else
    match ← perform (.login metadata resource mode) with
    | .error message => return .error (k.loginFailed message)
    | .ok session =>
      perform (.writeTrusted metadata)
      k.commitLocked session

def interactiveLogin (metadata : AuthorizationServerMetadata) (resource : String)
    (mode : OAuthLoginMode) : Auth (Except RemoteError Unit) := do
  match k.oauthConfig with
  | .error e => return .error e
  | .ok config =>
    let seen ← perform .observe
    withLock (k.loginLocked config metadata resource mode seen.generation)

def login (metadata : AuthorizationServerMetadata) (resource : String) :
    Auth (Except RemoteError Unit) :=
  k.interactiveLogin metadata resource .browser

def loginFromChallenge (resourceMetadata : String) (mode : Option OAuthLoginMode) :
    Auth (Except RemoteError Unit) := do
  match k.oauthConfig with
  | .error e => return .error e
  | .ok config =>
    match ← k.discover resourceMetadata with
    | .error e => return .error e
    | .ok (found, metadata) =>
      let usable ← perform .browserCallbackUsable
      k.interactiveLogin metadata found.resource
        (selectLoginMode (mode.getD config.loginMode) usable)

def loadLocked (config : OAuthConfig) (issuer : String) : Auth (Except RemoteError Bool) := do
  match ← perform (.load (k.storedAt config issuer)) with
  | .error e => return .error (k.storeError e)
  | .ok none => return .ok false
  | .ok (some session) =>
    publishLocked session
    return .ok true

def loadStoredSession (issuer : String) : Auth (Except RemoteError Bool) := do
  match k.oauthConfig with
  | .error e => return .error e
  | .ok config => withLock (k.loadLocked config issuer)

def refreshCurrent (metadata : AuthorizationServerMetadata) : Auth (Except RemoteError Unit) := do
  match ← perform .readSession with
  | none =>
    return .error (k.loginFailed
      "start OAuth sign-in for this remote (MCP: agentpalace_remote_auth_start)")
  | some current =>
    match ← perform (.refresh metadata current) with
    | .ok (body, now) => k.commitLocked (current.renewed body now)
    | .error (.rejected message) =>
      match ← k.clearRejected current with
      | .error e => return .error e
      | .ok _ => return .error (k.loginFailed message)
    | .error (.transient message) => return .error (.unreachable k.name message)

def refresh (metadata : AuthorizationServerMetadata) : Auth (Except RemoteError Unit) :=
  withLock (k.refreshCurrent metadata)

def revokeGrant (grant : Option OAuthSession) (metadata : Option AuthorizationServerMetadata) :
    Auth RevocationOutcome := do
  match grant, metadata with
  | none, _ => return .noCredential
  | some _, none => return .unsupported
  | some grant, some metadata =>
    if metadata.revocationEndpoint = none then return .unsupported
    else
      match ← perform (.revoke metadata grant) with
      | .ok _ => return .revoked
      | .error message => return .failed message

def logoutLocked (config : OAuthConfig) (issuer : Option String)
    (metadata : Option AuthorizationServerMetadata) : Auth (Except RemoteError LogoutOutcome) := do
  perform .signOut
  let inMemory ← forgetLocked
  match issuer.or (inMemory.map OAuthSession.issuer) with
  | none => return .ok ⟨.absent, .noCredential⟩
  | some issuer =>
    -- a record that cannot be read is still deleted
    let stored ← perform (.load (k.storedAt config issuer))
    let grant :=
      (inMemory.filter fun session => session.issuer = issuer).or (Except.toOption stored).join
    let trusted ← perform .readTrusted
    let metadata := Option.filter (fun metadata => metadata.issuer = issuer) (metadata.or trusted)
    let revocation ← revokeGrant grant metadata
    let cleared ← perform (.clear (k.storedAt config issuer))
    return (Except.mapError k.storeError cleared).map fun store => ⟨store, revocation⟩

def logout (issuer : Option String) (metadata : Option AuthorizationServerMetadata) :
    Auth (Except RemoteError LogoutOutcome) := do
  match k.oauthConfig with
  | .error e => return .error e
  | .ok config => withLock (k.logoutLocked config issuer metadata)

end AuthClient

/-! ## Processes -/

inductive AuthCall where
  | request
  | discover (resourceMetadata : String)
  | authorizationServerMetadata (issuer : String)
  | login (metadata : AuthorizationServerMetadata) (resource : String)
  | loginFromChallenge (resourceMetadata : String) (mode : Option OAuthLoginMode)
  | loadStoredSession (issuer : String)
  | refresh (metadata : AuthorizationServerMetadata)
  | logout (issuer : Option String) (metadata : Option AuthorizationServerMetadata)

namespace AuthCall

def isLogin : AuthCall → Bool
  | login _ _ | loginFromChallenge _ _ => true
  | _ => false

def signsIn : AuthCall → Bool
  | loadStoredSession _ => true
  | c => c.isLogin

def isLogout : AuthCall → Bool
  | logout _ _ => true
  | _ => false

end AuthCall

def AuthClient.program (k : AuthClient) : AuthCall → Auth Unit
  | .request => do let _ ← k.sendAuthorized
  | .discover resourceMetadata => do let _ ← k.discover resourceMetadata
  | .authorizationServerMetadata issuer => do let _ ← k.authorizationServerMetadata issuer
  | .login metadata resource => do let _ ← k.login metadata resource
  | .loginFromChallenge resourceMetadata mode => do
    let _ ← k.loginFromChallenge resourceMetadata mode
  | .loadStoredSession issuer => do let _ ← k.loadStoredSession issuer
  | .refresh metadata => do let _ ← k.refresh metadata
  | .logout issuer metadata => do let _ ← k.logout issuer metadata

/-- What the login lock of a process protects, and the record of what happened. -/
structure AuthState where
  token : Option String
  session : Option OAuthSession
  epoch : UInt64
  generation : UInt64
  signedOut : Bool
  /-- The sessions at hand since the lock was taken. -/
  got : List OAuthSession
  /-- The refresh since the lock was taken whose outcome is not yet in the store: the session that
  was presented, and its successor if there is one. -/
  refreshed : Option (OAuthSession × Option OAuthSession)
  /-- A successor was delivered and is not yet published. -/
  pending : Bool
  spentAccess : List String
  spentRefresh : List String

structure AuthShared (P : Type) where
  trusted : P → Option AuthorizationServerMetadata
  store : Identity → Option OAuthSession
  /-- Another process saved the record since the process last read or wrote it. -/
  stale : P → Identity → Bool

namespace AuthState

/-- A refresh delivered a successor: what it no longer has is spent. -/
def spend (s : AuthState) (old new : OAuthSession) : AuthState :=
  { s with
    got := [new]
    refreshed := some (old, some new)
    pending := true
    spentAccess :=
      if new.accessToken = old.accessToken then s.spentAccess
      else old.accessToken :: s.spentAccess
    spentRefresh :=
      if new.refreshToken = old.refreshToken then s.spentRefresh
      else old.refreshToken.toList ++ s.spentRefresh }

end AuthState

section Processes

variable {P : Type} [DecidableEq P]

namespace AuthShared

/-- The record of an identity was read or written by a process, and written by it if `saved`. -/
def touch (h : AuthShared P) (p : P) (id : Identity) (saved : Bool) : AuthShared P :=
  { h with
    stale := fun q id' =>
      if id' = id then if q = p then false else saved || h.stale q id' else h.stale q id' }

def put (h : AuthShared P) (id : Identity) (record : Option OAuthSession) : AuthShared P :=
  { h with store := Function.update h.store id record }

end AuthShared

def AuthOp.admits (p : P) (s : AuthState) (h : AuthShared P) : (op : AuthOp) → op.Ans → Prop
  | .observe, a => a = ⟨s.epoch, s.generation, s.signedOut⟩
  | .takeSession, a | .readSession, a => a = s.session
  | .readTrusted, a => a = h.trusted p
  | .load id, a => ∀ found, a = .ok found → found = h.store id
  | .clear id, a => ∀ outcome, a = .ok outcome → (outcome = .removed ↔ (h.store id).isSome)
  | .refresh _ session, a =>
    session.refreshToken = none → a = .error (.rejected "OAuth session has no refresh token")
  | .send, a => a.token = s.token
  | _, _ => True

/-- What an answered operation does. An operation of the store that fails does nothing to it. -/
def AuthOp.exec (p : P) (s : AuthState) (h : AuthShared P) :
    (op : AuthOp) → op.Ans → AuthState × AuthShared P
  | .acquire, _ => ({ s with got := [], refreshed := none, pending := false }, h)
  | .signOut, _ => ({ s with epoch := s.epoch + 1, signedOut := true }, h)
  | .writeToken token, _ => ({ s with token }, h)
  | .publishSession session, _ =>
    ({ s with
        session := some session, generation := s.generation + 1, signedOut := false,
        pending := false }, h)
  | .takeSession, _ => ({ s with session := none, got := s.session.toList ++ s.got }, h)
  | .writeTrusted metadata, _ =>
    (s, { h with trusted := Function.update h.trusted p (some metadata) })
  | .load id, .ok found => ({ s with got := found.toList ++ s.got }, h.touch p id false)
  | .save id session, .ok _ =>
    ({ s with refreshed := none }, (h.put id (some session)).touch p id true)
  | .save _ _, .error _ => ({ s with refreshed := none }, h)
  | .clear id, .ok _ => ({ s with refreshed := none }, (h.put id none).touch p id false)
  | .clear _, .error _ => ({ s with refreshed := none }, h)
  | .refresh _ session, .ok (body, now) => (s.spend session (session.renewed body now), h)
  | .refresh _ session, .error (.rejected _) => ({ s with refreshed := some (session, none) }, h)
  | .login _ _ _, .ok session => ({ s with got := [session] }, h)
  | _, _ => (s, h)

/-- Client processes at work on one credential store. -/
def AuthClient.service (k : AuthClient) :
    Service AuthOp AuthOp.Ans P AuthCall AuthState (AuthShared P) where
  role := AuthOp.role
  program _ := k.program
  admits := AuthOp.admits
  exec p _ := AuthOp.exec p
  init s := s.session = none ∧ s.signedOut = false ∧ s.refreshed = none ∧ s.pending = false ∧
    s.got = [] ∧ s.spentAccess = [] ∧ s.spentRefresh = []
  initShared h := (∀ p, h.trusted p = none) ∧ (∀ p id, h.stale p id = false) ∧
    ∀ id x, h.store id = some x → k.identityOf x = id

end Processes

end AgentPalace.Remote
