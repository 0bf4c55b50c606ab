import AgentPalace.Core.Provenance
import AgentPalace.Lib.OrdMap
import Mathlib.Data.String.Basic

/-!
# Records of the demo hub

The gateway of the hub keeps its protocol state in maps by secret: authorization
codes, browser transactions with the upstream claims parked for them, device
grants, refresh and access tokens, and browser sessions. Times are seconds since
the epoch. A secret is an argument of the operation that draws it.
-/

namespace AgentPalace.Hub

inductive AccessRole where
  | admin | write | readonly
  deriving DecidableEq

def AccessRole.rank : AccessRole → Nat
  | .readonly => 0
  | .write => 1
  | .admin => 2

inductive ProtocolError where
  | invalidRequest | invalidGrant | accessDenied | notAdmitted | authorizationPending | slowDown
  | expiredToken | temporarilyUnavailable | serverError
  deriving DecidableEq

structure VerifiedIdentity where
  email : String
  subject : String
  issuer : String
  deriving DecidableEq

/-- The binding of the source's record is that of its owner. -/
structure AdmissionIdentity where
  owner : AuthenticatedOwner
  deriving DecidableEq

structure PolicyDecision where
  admission : AdmissionIdentity
  role : AccessRole
  deriving DecidableEq

structure GoogleIdClaims where
  iss : String
  aud : String
  sub : String
  email : String
  emailVerified : Bool
  exp : Nat
  nonce : String
  deriving DecidableEq

inductive GoogleClaimError where
  | issuer | audience | expired | emailUnverified | nonce | missingSubject | upstream | signature
  deriving DecidableEq

structure GatewayConfig where
  issuer : String
  resource : String
  /-- The id of the registered native client. -/
  clientId : String
  googleIssuer : String
  googleClientId : String
  intervalSeconds : Nat
  lifetimeSeconds : Nat
  /-- SHA-256 of a verifier, in URL-safe base64. -/
  pkce : String → String

/-! ## Records of the gateway state -/

structure CodeGrant where
  clientId : String
  redirectUri : String
  challenge : String
  resource : String
  owner : AdmissionIdentity
  roleCeiling : AccessRole
  expires : Nat
  used : Bool
  deriving DecidableEq

structure BrowserTransaction where
  clientId : String
  redirectUri : String
  challenge : String
  resource : String
  state : String
  nonce : String
  csrf : String
  browserId : String
  expires : Nat
  deriving DecidableEq

structure DeviceGrant where
  clientId : String
  resource : String
  userCode : String
  owner : Option AdmissionIdentity
  roleCeiling : Option AccessRole
  verifyState : Option String
  verifyNonce : Option String
  verifyCsrf : String
  browserId : Option String
  expires : Nat
  nextPoll : Option Nat
  pollInterval : Nat
  polls : Nat
  verifyAttempts : Nat
  denied : Bool
  notAdmitted : Bool
  /-- Allocation order. -/
  issued : Nat
  deriving DecidableEq

structure RefreshGrant where
  family : String
  owner : AdmissionIdentity
  roleCeiling : AccessRole
  resource : String
  expires : Nat
  current : String
  revoked : Bool
  deriving DecidableEq

structure AccessGrant where
  family : String
  owner : AdmissionIdentity
  roleCeiling : AccessRole
  resource : String
  expires : Nat
  revoked : Bool
  deriving DecidableEq

structure BrowserSession where
  owner : AdmissionIdentity
  csrf : String
  authenticatedAt : Nat
  admin : Bool
  deriving DecidableEq

structure GatewayState where
  codes : OrdMap String CodeGrant
  browser : OrdMap String BrowserTransaction
  pendingBrowser : OrdMap String GoogleIdClaims
  pendingDevice : OrdMap String GoogleIdClaims
  devices : OrdMap String DeviceGrant
  refresh : OrdMap String RefreshGrant
  access : OrdMap String AccessGrant
  sessions : OrdMap String BrowserSession
  deviceSeq : Nat

def GatewayState.empty : GatewayState :=
  ⟨.empty, .empty, .empty, .empty, .empty, .empty, .empty, .empty, 0⟩

structure TokenResponse where
  accessToken : String
  refreshToken : String
  expiresIn : Nat
  resource : String
  deriving DecidableEq

/-! ## Checks -/

/-- `str::parse::<u16>`, and not zero. -/
def validPort (value : List Char) : Bool :=
  let digits := match value with
    | '+' :: rest => rest
    | _ => value
  let number := digits.foldl (fun n c => 10 * n + (c.toNat - 48)) 0
  !digits.isEmpty && digits.all Char.isDigit && number ≤ 65535 && number ≠ 0

/-- `http://localhost:PORT/callback`, or the same on `127.0.0.1`. -/
def validNativeRedirect (value : String) : Bool :=
  match "http://".toList.isPrefixOf? value.toList with
  | none => false
  | some rest =>
    if '/' ∉ rest then false
    else
      let authority := rest.takeWhile (· ≠ '/')
      let path := rest.drop (authority.length + 1)
      if ':' ∉ authority then false
      else
        let port := (authority.reverse.takeWhile (· ≠ ':')).reverse
        let host := authority.take (authority.length - port.length - 1)
        decide (host = "localhost".toList ∨ host = "127.0.0.1".toList) && validPort port &&
          decide (path = "callback".toList) && decide ('@' ∉ authority)

def verifyGoogleClaims (config : GatewayConfig) (claims : GoogleIdClaims) (expectedNonce : String)
    (now : Nat) : Except GoogleClaimError VerifiedIdentity :=
  if claims.iss ≠ config.googleIssuer then .error .issuer
  else if claims.aud ≠ config.googleClientId then .error .audience
  else if claims.exp ≤ now then .error .expired
  else if claims.emailVerified = false then .error .emailUnverified
  else if expectedNonce = "" ∨ claims.nonce ≠ expectedNonce then .error .nonce
  else if claims.sub = "" ∨ isBlank claims.email then .error .missingSubject
  else .ok { email := claims.email, subject := claims.sub, issuer := claims.iss }

/-- The role of an owner as the policy says it is. -/
abbrev RoleLookup := OwnerId → Except ProtocolError (Option AccessRole)

/-- The lower of the current role and the ceiling; never `admin`. -/
def effectiveRole (lookup : RoleLookup) (owner : AdmissionIdentity) (ceiling : AccessRole) :
    Except ProtocolError AccessRole :=
  match lookup owner.owner.id with
  | .error e => .error e
  | .ok none => .error .accessDenied
  | .ok (some current) =>
    let role := if current.rank < ceiling.rank then current else ceiling
    .ok (if role = .admin then .write else role)

theorem effectiveRole_ok {lookup : RoleLookup} {owner : AdmissionIdentity}
    {ceiling role : AccessRole} (h : effectiveRole lookup owner ceiling = .ok role) :
    ∃ current, lookup owner.owner.id = .ok (some current) ∧ role.rank ≤ ceiling.rank ∧
      role.rank ≤ current.rank ∧ role ≠ .admin := by
  unfold effectiveRole at h
  split at h
  · cases h
  · cases h
  · rename_i current hlookup
    cases h
    refine ⟨current, hlookup, ?_⟩
    cases current <;> cases ceiling <;> decide

def CodeGrant.Redeems (g : CodeGrant) (pkce : String → String) (now : Nat)
    (clientId redirectUri verifier resource : String) : Prop :=
  g.used = false ∧ now ≤ g.expires ∧ g.clientId = clientId ∧ g.redirectUri = redirectUri ∧
    g.resource = resource ∧ g.challenge = pkce verifier

instance (g : CodeGrant) (pkce : String → String) (now : Nat)
    (clientId redirectUri verifier resource : String) :
    Decidable (g.Redeems pkce now clientId redirectUri verifier resource) :=
  inferInstanceAs (Decidable (_ ∧ _ ∧ _ ∧ _ ∧ _ ∧ _))

end AgentPalace.Hub
