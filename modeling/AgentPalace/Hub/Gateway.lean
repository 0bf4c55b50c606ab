import AgentPalace.Hub.Types

/-!
# The operations of the gateway

Each function is what an operation does while it holds the state lock, at the
clock reading `now`. An operation that lets the lock go has one function for
every time it takes it.
-/

namespace AgentPalace.Hub

def maxPendingDeviceGrants : Nat := 5
def maxStoredDeviceGrants : Nat := 32
def deviceRecordGraceSeconds : Nat := 60
def maxBrowserTransactions : Nat := 1024
def sessionLifetimeSeconds : Nat := 8 * 60 * 60

namespace GatewayState

/-- Remove a device record and the claims parked for its verification. -/
def removeDeviceGrant (s : GatewayState) (deviceCode : String) : GatewayState :=
  match s.devices.get? deviceCode with
  | none => s
  | some grant =>
    { s with
      devices := s.devices.erase deviceCode
      pendingDevice := match grant.verifyState with
        | none => s.pendingDevice
        | some verifyState => s.pendingDevice.erase verifyState }

/-- Drop every record that can no longer be used. -/
def pruneExpired (s : GatewayState) (timestamp : Nat) : GatewayState :=
  let stale := s.browser.filter fun _ t => decide (t.expires < timestamp)
  let s := { s with
    browser := s.browser.filter fun k _ => !stale.contains k
    pendingBrowser := s.pendingBrowser.filter fun k _ => !stale.contains k
    codes := s.codes.filter fun _ g => decide (timestamp ≤ g.expires)
    access := s.access.filter fun _ g => decide (timestamp ≤ g.expires)
    refresh := s.refresh.filter fun _ g => decide (timestamp ≤ g.expires)
    sessions := s.sessions.filter fun _ session =>
      decide (timestamp - session.authenticatedAt ≤ sessionLifetimeSeconds) }
  let staleDevices := s.devices.filter fun _ g =>
    decide (g.expires + deviceRecordGraceSeconds < timestamp)
  staleDevices.keys.foldl removeDeviceGrant s

/-- The first device grant with a user code, and its device code. -/
def findDevice? (s : GatewayState) (userCode : String) : Option (String × DeviceGrant) :=
  s.devices.entries.find? fun e => e.2.userCode = userCode

/-- The first device grant of a verification, from the browser that began it. -/
def findVerification? (s : GatewayState) (state : String) (cookie : Option String) :
    Option (String × DeviceGrant) :=
  s.devices.entries.find? fun e => e.2.verifyState = some state ∧ e.2.browserId = cookie

def modifyDevice (s : GatewayState) (deviceCode : String) (f : DeviceGrant → DeviceGrant) :
    GatewayState :=
  { s with devices := s.devices.modify deviceCode f }

/-! ## Token families -/

def revokeFamily (s : GatewayState) (family : String) : GatewayState :=
  { s with
    refresh := s.refresh.mapEntries fun _ g => if g.family = family then { g with revoked := true } else g
    access := s.access.mapEntries fun _ g => if g.family = family then { g with revoked := true } else g }

structure TokenSecrets where
  access : String
  refresh : String

def issueWithFamily (s : GatewayState) (now : Nat) (secrets : TokenSecrets) (family : String)
    (owner : AdmissionIdentity) (roleCeiling : AccessRole) (resource : String)
    (grantExpiry : Nat) : TokenResponse × GatewayState :=
  ({ accessToken := secrets.access, refreshToken := secrets.refresh, expiresIn := 900, resource },
    { s with
      access := s.access.insert secrets.access
        { family, owner, roleCeiling, resource, expires := now + 900, revoked := false }
      refresh := s.refresh.insert secrets.refresh
        { family, owner, roleCeiling, resource, expires := grantExpiry, current := secrets.refresh
          revoked := false } })

def issue (s : GatewayState) (now : Nat) (family : String) (secrets : TokenSecrets)
    (owner : AdmissionIdentity) (roleCeiling : AccessRole) (resource : String) :
    TokenResponse × GatewayState :=
  (s.pruneExpired now).issueWithFamily now secrets family owner roleCeiling resource
    (now + 7 * 24 * 60 * 60)

/-- What `refresh` takes along when it lets the lock go. -/
structure RefreshTaken where
  family : String
  owner : AdmissionIdentity
  roleCeiling : AccessRole
  resource : String
  expires : Nat
  reused : Bool

/-- The first time `refresh` holds the lock: the token is marked, or a token presented again revokes
its family. -/
def refreshTake (s : GatewayState) (now : Nat) (refreshToken : String) :
    Except ProtocolError RefreshTaken × GatewayState :=
  match s.refresh.get? refreshToken with
  | none => (.error .invalidGrant, s)
  | some grant =>
    let taken : RefreshTaken := { family := grant.family, owner := grant.owner
                                  roleCeiling := grant.roleCeiling, resource := grant.resource
                                  expires := grant.expires, reused := grant.revoked }
    if grant.revoked then (.ok taken, s.revokeFamily grant.family)
    else if grant.expires < now then (.error .invalidGrant, s)
    else (.ok taken,
      { s with refresh := s.refresh.modify refreshToken fun g => { g with revoked := true } })

def refreshIssue (s : GatewayState) (now : Nat) (secrets : TokenSecrets) (taken : RefreshTaken) :
    TokenResponse × GatewayState :=
  s.issueWithFamily now secrets taken.family taken.owner taken.roleCeiling taken.resource
    taken.expires

def familyOf? (s : GatewayState) (token : String) : Option String :=
  match s.refresh.get? token with
  | some grant => some grant.family
  | none => (s.access.get? token).map (·.family)

def revoke (s : GatewayState) (token : String) : GatewayState :=
  match s.familyOf? token with
  | some family => s.revokeFamily family
  | none => s

def liveSession (s : GatewayState) (now : Nat) (sessionId : String) :
    Except ProtocolError BrowserSession :=
  match s.sessions.get? sessionId with
  | none => .error .accessDenied
  | some session =>
    if now - session.authenticatedAt ≤ sessionLifetimeSeconds then .ok session
    else .error .accessDenied

/-- The family of a token that belongs to an owner. -/
def ownFamily? (s : GatewayState) (owner : OwnerId) (token : String) : Option String :=
  match s.refresh.values.find? fun g => g.current = token ∧ g.owner.owner.id = owner with
  | some grant => some grant.family
  | none => ((s.access.get? token).filter fun g => g.owner.owner.id = owner).map (·.family)

/-- The family that `revoke_own_grant` revokes. -/
def ownGrant (s : GatewayState) (now : Nat) (lookup : RoleLookup) (sessionId csrf token : String) :
    Except ProtocolError String := do
  let session ← s.liveSession now sessionId
  match ← lookup session.owner.owner.id with
  | none => throw .accessDenied
  | some _ =>
    if session.csrf ≠ csrf then throw .invalidRequest
    match s.ownFamily? session.owner.owner.id token with
    | none => throw .invalidGrant
    | some family => return family

def revokeOwnGrant (s : GatewayState) (now : Nat) (lookup : RoleLookup)
    (sessionId csrf token : String) : Except ProtocolError Unit × GatewayState :=
  match s.ownGrant now lookup sessionId csrf token with
  | .error e => (.error e, s)
  | .ok family => (.ok (), s.revokeFamily family)

def createSession (s : GatewayState) (now : Nat) (sessionId : String) (owner : AdmissionIdentity)
    (csrf : String) (admin : Bool) : Except ProtocolError Unit × GatewayState :=
  if sessionId = "" ∨ csrf = "" then (.error .invalidRequest, s)
  else
    let s := s.pruneExpired now
    (.ok (), { s with sessions := s.sessions.insert sessionId
                        { owner, csrf, authenticatedAt := now, admin } })

/-! ## Authorization codes -/

/-- What `authorize_code` was asked for. -/
structure CodeRequest where
  clientId : String
  redirectUri : String
  challenge : String
  resource : String
  identity : VerifiedIdentity

/-- The checks of `authorize_code` before it asks the policy. -/
def checkCodeRequest (config : GatewayConfig) (r : CodeRequest) (consent : Bool)
    (state expectedState nonce expectedNonce : String) : Except ProtocolError Unit :=
  if consent = false then .error .accessDenied
  else if state = "" ∨ state ≠ expectedState ∨ nonce = "" ∨ nonce ≠ expectedNonce then
    .error .invalidRequest
  else if r.clientId ≠ config.clientId ∨ validNativeRedirect r.redirectUri = false ∨
      r.resource ≠ config.resource ∨ r.challenge = "" then
    .error .invalidRequest
  else .ok ()

def insertCode (s : GatewayState) (now : Nat) (code : String) (r : CodeRequest)
    (decision : PolicyDecision) : GatewayState :=
  let s := s.pruneExpired now
  { s with codes := s.codes.insert code
             { clientId := r.clientId, redirectUri := r.redirectUri, challenge := r.challenge
               resource := r.resource, owner := decision.admission, roleCeiling := decision.role
               expires := now + 60, used := false } }

def exchangeCode (s : GatewayState) (config : GatewayConfig) (lookup : RoleLookup) (now : Nat)
    (family : String) (secrets : TokenSecrets)
    (code clientId redirectUri verifier resource : String) :
    Except ProtocolError TokenResponse × GatewayState :=
  match s.codes.get? code with
  | none => (.error .invalidGrant, s)
  | some grant =>
    if ¬ grant.Redeems config.pkce now clientId redirectUri verifier resource then
      (.error .invalidGrant, s)
    else
      let s := { s with codes := s.codes.modify code fun g => { g with used := true } }
      match effectiveRole lookup grant.owner grant.roleCeiling with
      | .error e => (.error e, s)
      | .ok _ =>
        let issued := s.issue now family secrets grant.owner grant.roleCeiling resource
        (.ok issued.1, issued.2)

/-! ## Browser transactions -/

structure BrowserSecrets where
  transaction : String
  csrf : String
  browserId : String

/-- The transaction closest to its expiry, the first of them in key order. -/
def oldestTransaction? (s : GatewayState) : Option String :=
  (s.browser.entries.foldl (fun oldest e => match oldest with
    | none => some e
    | some o => if e.2.expires < o.2.expires then some e else some o) none).map (·.1)

/-- Evict until a transaction more fits, in at most `fuel` rounds. -/
def evictTransactions : Nat → GatewayState → GatewayState
  | 0, s => s
  | fuel + 1, s =>
    if maxBrowserTransactions ≤ s.browser.size then
      match s.oldestTransaction? with
      | none => s
      | some oldest => evictTransactions fuel { s with
          browser := s.browser.erase oldest
          pendingBrowser := s.pendingBrowser.erase oldest }
    else s

def beginBrowserAuthorization (s : GatewayState) (config : GatewayConfig) (now : Nat)
    (secrets : BrowserSecrets) (clientId redirectUri challenge resource state nonce : String) :
    Except ProtocolError String × GatewayState :=
  if clientId ≠ config.clientId ∨ validNativeRedirect redirectUri = false ∨
      resource ≠ config.resource ∨ challenge = "" ∨ state = "" ∨ nonce = "" then
    (.error .invalidRequest, s)
  else
    let s := s.pruneExpired now
    -- every round removes a transaction: as many rounds as there are suffice
    let s := evictTransactions s.browser.size s
    (.ok secrets.transaction,
      { s with browser := s.browser.insert secrets.transaction
                 { clientId, redirectUri, challenge, resource, state, nonce, csrf := secrets.csrf
                   browserId := secrets.browserId, expires := now + 300 } })

def transactionBrowserId (s : GatewayState) (transaction : String) : Option String :=
  (s.browser.get? transaction).map (·.browserId)

/-- Park the claims of the upstream for the consent page. -/
def parkBrowser (s : GatewayState) (transaction : String) (claims : GoogleIdClaims) :
    GatewayState :=
  { s with pendingBrowser := s.pendingBrowser.insert transaction claims }

def endBrowserTransaction (s : GatewayState) (transaction : String) : GatewayState :=
  { s with
    pendingBrowser := s.pendingBrowser.erase transaction
    browser := s.browser.erase transaction }

def takeBrowserClaims (s : GatewayState) (transaction csrfToken : String) :
    Except ProtocolError (GoogleIdClaims × String) × GatewayState :=
  match s.browser.get? transaction with
  | none => (.error .invalidGrant, s)
  | some t =>
    if t.csrf ≠ csrfToken then (.error .invalidRequest, s)
    else
      match s.pendingBrowser.get? transaction with
      | none => (.error .invalidGrant, s)
      | some claims =>
        (.ok (claims, t.state), { s with pendingBrowser := s.pendingBrowser.erase transaction })

/-- `complete_browser_authorization` takes the transaction out. -/
def takeTransaction (s : GatewayState) (transaction : String) :
    Option BrowserTransaction × GatewayState :=
  (s.browser.get? transaction, { s with browser := s.browser.erase transaction })

/-- What `complete_browser_authorization` asks `authorize_code` for. -/
def completeBrowserAuthorization (config : GatewayConfig) (now : Nat) (t : BrowserTransaction)
    (returnedState : String) (claims : GoogleIdClaims) (consent : Bool) :
    Except ProtocolError CodeRequest :=
  if t.expires < now ∨ returnedState ≠ t.state then .error .invalidRequest
  else
    match verifyGoogleClaims config claims t.nonce now with
    | .error _ => .error .accessDenied
    | .ok identity =>
      let r : CodeRequest := { clientId := t.clientId, redirectUri := t.redirectUri
                               challenge := t.challenge, resource := t.resource, identity }
      (checkCodeRequest config r consent returnedState t.state claims.nonce t.nonce).map fun _ => r

/-! ## Device grants -/

structure DeviceSecrets where
  deviceCode : String
  userCode : String
  csrf : String

def undecided (g : DeviceGrant) (timestamp : Nat) : Bool :=
  decide (timestamp ≤ g.expires) && !g.denied && g.owner.isNone

def countDevices (s : GatewayState) (p : DeviceGrant → Bool) : Nat :=
  s.devices.values.countP p

/-- The record to evict: the oldest of those denied or expired. -/
def deviceVictim? (s : GatewayState) (clientId : String) (timestamp : Nat) : Option String :=
  ((s.devices.entries.filter fun e => e.2.clientId = clientId ∧
      (e.2.denied ∨ e.2.expires < timestamp)).foldl (fun oldest e => match oldest with
    | none => some e
    | some o => if e.2.issued < o.2.issued then some e else some o) none).map (·.1)

/-- Make room for one record of the client, in at most `fuel` rounds. -/
def evictDevices (clientId : String) (timestamp : Nat) :
    Nat → GatewayState → Except ProtocolError Unit × GatewayState
  | 0, s => (.ok (), s)
  | fuel + 1, s =>
    if maxStoredDeviceGrants ≤ s.countDevices (·.clientId = clientId) then
      match s.deviceVictim? clientId timestamp with
      | none => (.error .slowDown, s)
      | some victim => evictDevices clientId timestamp fuel (s.removeDeviceGrant victim)
    else (.ok (), s)

/-- The user code is one no stored grant has: others are drawn again. -/
def deviceAuthorize (s : GatewayState) (config : GatewayConfig) (now : Nat)
    (secrets : DeviceSecrets) (clientId resource : String) :
    Except ProtocolError Unit × GatewayState :=
  if clientId ≠ config.clientId ∨ resource ≠ config.resource then (.error .invalidRequest, s)
  else
    let s := s.pruneExpired now
    if maxPendingDeviceGrants ≤
        s.countDevices (fun g => g.clientId = clientId && undecided g now) then
      (.error .slowDown, s)
    else
      -- every round removes a record: as many rounds as there are suffice
      match evictDevices clientId now s.devices.size s with
      | (.error e, s) => (.error e, s)
      | (.ok (), s) =>
        (.ok (), { s with
          deviceSeq := s.deviceSeq + 1
          devices := s.devices.insert secrets.deviceCode
            { clientId, resource, userCode := secrets.userCode, owner := none, roleCeiling := none
              verifyState := none, verifyNonce := none, verifyCsrf := secrets.csrf
              browserId := none, expires := now + config.lifetimeSeconds, nextPoll := none
              pollInterval := config.intervalSeconds, polls := 0, verifyAttempts := 0
              denied := false, notAdmitted := false, issued := s.deviceSeq } })

structure VerificationSecrets where
  state : String
  nonce : String
  browserId : String

def beginDeviceVerification (s : GatewayState) (now : Nat) (secrets : VerificationSecrets)
    (userCode : String) : Except ProtocolError Unit × GatewayState :=
  match s.findDevice? userCode with
  | none => (.error .invalidGrant, s)
  | some (code, grant) =>
    if grant.expires < now then (.error .expiredToken, s)
    else
      let s' := s.modifyDevice code fun g =>
        { g with verifyState := some secrets.state, verifyNonce := some secrets.nonce
                 browserId := some secrets.browserId }
      -- claims parked under the replaced state can never be consumed
      (.ok (), match grant.verifyState with
        | none => s'
        | some replaced => { s' with pendingDevice := s'.pendingDevice.erase replaced })

def verifyDevice (s : GatewayState) (now : Nat)
    (resolve : VerifiedIdentity → Except ProtocolError (Option PolicyDecision))
    (userCode : String) (identity : VerifiedIdentity) (consent : Bool) :
    Except ProtocolError AdmissionIdentity × GatewayState :=
  if consent = false then (.error .accessDenied, s)
  else
    match s.findDevice? userCode with
    | none => (.error .invalidGrant, s)
    | some (code, grant) =>
      if grant.expires < now then (.error .expiredToken, s)
      else
        let s := s.modifyDevice code fun g => { g with verifyAttempts := g.verifyAttempts + 1 }
        if 5 < grant.verifyAttempts + 1 then (.error .slowDown, s)
        else
          match resolve identity with
          | .error e => (.error e, s)
          | .ok (some decision) =>
            (.ok decision.admission, s.modifyDevice code fun g =>
              { g with owner := some decision.admission, roleCeiling := some decision.role })
          | .ok none =>
            (.error .notAdmitted, s.modifyDevice code fun g =>
              { g with denied := true, notAdmitted := true })

def denyDevice (s : GatewayState) (now : Nat) (userCode : String) :
    Except ProtocolError Unit × GatewayState :=
  match s.findDevice? userCode with
  | none => (.error .invalidGrant, s)
  | some (code, grant) =>
    if grant.expires < now then (.error .expiredToken, s)
    else (.ok (), s.modifyDevice code fun g => { g with denied := true, notAdmitted := false })

/-- Park the claims of the upstream for the consent page of a device. -/
def parkDevice (s : GatewayState) (state : String) (claims : GoogleIdClaims) : GatewayState :=
  { s with pendingDevice := s.pendingDevice.insert state claims }

def takeDeviceClaims (s : GatewayState) (state : String) :
    Except ProtocolError GoogleIdClaims × GatewayState :=
  match s.pendingDevice.get? state with
  | none => (.error .invalidGrant, s)
  | some claims => (.ok claims, { s with pendingDevice := s.pendingDevice.erase state })

/-- The state and the nonce a verification must return. -/
def expectedVerification (s : GatewayState) (userCode : String) :
    Except ProtocolError (String × String) :=
  match s.findDevice? userCode with
  | none => .error .invalidGrant
  | some (_, grant) =>
    match grant.verifyState, grant.verifyNonce with
    | some state, some nonce => .ok (state, nonce)
    | _, _ => .error .invalidRequest

/-- A poll of a grant that is neither expired nor denied, at `pollTime` of the monotonic clock. -/
def polled (g : DeviceGrant) (pollTime : Nat) : DeviceGrant :=
  let interval := if g.nextPoll.any (pollTime < ·) then g.pollInterval + 5 else g.pollInterval
  { g with polls := g.polls + 1, pollInterval := interval, nextPoll := some (pollTime + interval) }

def pollDevice (s : GatewayState) (lookup : RoleLookup) (now pollTime : Nat) (family : String)
    (secrets : TokenSecrets) (deviceCode : String) :
    Except ProtocolError TokenResponse × GatewayState :=
  match s.devices.get? deviceCode with
  | none => (.error .invalidGrant, s)
  | some grant =>
    if grant.expires < now then (.error .expiredToken, s)
    else if grant.denied then
      (.error (if grant.notAdmitted then .notAdmitted else .accessDenied), s)
    else
      let early := grant.nextPoll.any (pollTime < ·)
      let s := s.modifyDevice deviceCode fun g => polled g pollTime
      if early then (.error .slowDown, s)
      else
        match grant.owner, grant.roleCeiling with
        | none, _ => (.error .authorizationPending, s)
        | some _, none => (.error .accessDenied, s)
        | some owner, some roleCeiling =>
          match effectiveRole lookup owner roleCeiling with
          | .error e => (.error e, s)
          | .ok _ =>
            let s := { s with devices := s.devices.erase deviceCode }
            let issued := s.issue now family secrets owner roleCeiling grant.resource
            (.ok issued.1, issued.2)

end GatewayState

end AgentPalace.Hub
