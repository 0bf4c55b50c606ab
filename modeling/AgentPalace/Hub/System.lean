import AgentPalace.Hub.Gateway
import AgentPalace.Lib.Machine

/-!
# The gateway as a system

Any number of requests run at once. A request is a `Task`: what it still has to
do the next time it takes the state lock, reads the policy or hears from the
upstream; between two of these any other request may run, and the policy may
change. A request that reads the policy while it holds the lock does so in one
step. What a request only answers is left out.
-/

namespace AgentPalace.Hub

open GatewayState

structure Policy where
  resolve : VerifiedIdentity → Except ProtocolError (Option PolicyDecision)
  roleForOwner : RoleLookup

/-- A request in flight. A device request carries the verification state it was admitted with. -/
inductive Task where
  | idle
  /-- `authorize_code` asks the policy. -/
  | resolving (r : CodeRequest)
  | authorizing (r : CodeRequest) (decision : PolicyDecision)
  /-- `google_callback`. -/
  | readingNonce (transaction : String)
  | awaitingBrowser (transaction nonce : String)
  | parkingBrowser (transaction : String) (claims : GoogleIdClaims)
  | endingBrowser (transaction : String)
  /-- `google_consent`. -/
  | consenting (transaction csrfToken : String) (consent : Bool)
  | completing (transaction clientState : String) (claims : GoogleIdClaims)
  /-- `google_device_callback`, and `verify_device` when the claims are not for the consent page. -/
  | readingDeviceNonce (userCode state : String) (page : Bool)
  | awaitingDevice (userCode state nonce : String) (page : Bool)
  | parkingDevice (state : String) (claims : GoogleIdClaims)
  /-- `google_device_consent` and `verify_device`, after the first of their two checks. -/
  | checkingDevice (userCode state : String) (consent page : Bool)
  | takingDevice (userCode state : String) (consent : Bool)
  | completingDevice (userCode state : String) (claims : GoogleIdClaims) (consent : Bool)
  | verifyingDevice (attempt : Option String) (userCode : String) (identity : VerifiedIdentity)
      (consent : Bool)
  | denyingDevice (attempt : Option String) (userCode : String)
  /-- `poll_device`. -/
  | polling (deviceCode : String)
  /-- `refresh` asks the policy, and then issues or revokes. -/
  | refreshing (taken : RefreshTaken)
  | issuing (taken : RefreshTaken)
  | refusing (taken : RefreshTaken)
  /-- `authorize_rest_role` asks the policy. -/
  | checkingRest (grant : AccessGrant)
  | authorized (owner : AdmissionIdentity) (role : AccessRole)

inductive Event where
  | authorizeCode (r : CodeRequest) (consent : Bool)
      (state expectedState nonce expectedNonce : String)
  | resolveCode
  | insertCode (now : Nat) (code : String)
  | beginBrowser (now : Nat) (secrets : BrowserSecrets)
      (clientId redirectUri challenge resource state nonce : String)
  | browserCallback (transaction : String) (cookie : Option String) (error code : Bool)
  | readNonce
  | browserUpstream (result : Except GoogleClaimError GoogleIdClaims)
  | parkBrowser
  | endBrowser
  | browserConsent (transaction csrfToken : String) (cookie : Option String) (consent : Bool)
  | takeBrowser
  | completeBrowser (now : Nat)
  | exchangeCode (now : Nat) (family : String) (secrets : TokenSecrets)
      (code clientId redirectUri verifier resource : String)
  | deviceAuthorize (now : Nat) (secrets : DeviceSecrets) (clientId resource : String)
  | beginDevice (now : Nat) (secrets : VerificationSecrets) (userCode : String)
  | deviceCallback (state : String) (cookie : Option String) (denied : Bool)
  | readDeviceNonce (code : Bool)
  | deviceUpstream (result : Except GoogleClaimError GoogleIdClaims)
  | parkDevice
  | deviceForm (userCode state csrfToken : String) (consent page : Bool)
  | checkDevice (cookie : Option String)
  | takeDevice
  | completeDevice (now : Nat)
  | verifyCall (userCode : String) (identity : VerifiedIdentity) (consent : Bool)
  | verifyDevice (now : Nat)
  | denyCall (userCode : String)
  | denyDevice (now : Nat)
  | pollForClient (deviceCode clientId resource : String)
  | pollCall (deviceCode : String)
  | pollDevice (now pollTime : Nat) (family : String) (secrets : TokenSecrets)
  | refreshTake (now : Nat) (refreshToken : String)
  | refreshPolicy
  | refreshIssue (now : Nat) (secrets : TokenSecrets)
  | refreshRevoke
  | revoke (token : String)
  | revokeOwnGrant (now : Nat) (sessionId csrf token : String)
  | createSession (now : Nat) (sessionId : String) (owner : AdmissionIdentity) (csrf : String)
      (admin : Bool)
  | checkRest (now : Nat) (accessToken resource : String)
  | restPolicy
  | finish

def Event.secrets : Event → List String
  | .insertCode _ code => [code]
  | .beginBrowser _ secrets .. => [secrets.transaction, secrets.csrf, secrets.browserId]
  | .exchangeCode _ family secrets .. => [family, secrets.access, secrets.refresh]
  | .deviceAuthorize _ secrets .. => [secrets.deviceCode, secrets.csrf]
  | .beginDevice _ secrets _ => [secrets.state, secrets.nonce, secrets.browserId]
  | .pollDevice _ _ family secrets => [family, secrets.access, secrets.refresh]
  | .refreshIssue _ secrets => [secrets.access, secrets.refresh]
  | _ => []

def Event.now? : Event → Option Nat
  | .insertCode now _ | .beginBrowser now .. | .completeBrowser now | .exchangeCode now ..
  | .deviceAuthorize now .. | .beginDevice now .. | .completeDevice now | .verifyDevice now
  | .denyDevice now | .pollDevice now .. | .refreshTake now _ | .refreshIssue now _
  | .revokeOwnGrant now .. | .createSession now .. | .checkRest now .. => some now
  | _ => none

/-- Where an upstream failure of a device verification leads. -/
def failDevice (attempt userCode : String) (e : GoogleClaimError) : Task :=
  if e = .upstream then .idle else .denyingDevice (some attempt) userCode

/-- What a step does to its request and to the gateway; `none` where the request is not at it. -/
def Event.run (config : GatewayConfig) (policy : Policy) (s : GatewayState) :
    Event → Task → Option (Task × GatewayState)
  | .authorizeCode r consent state expectedState nonce expectedNonce, .idle =>
    match checkCodeRequest config r consent state expectedState nonce expectedNonce with
    | .error _ => some (.idle, s)
    | .ok () => some (.resolving r, s)
  | .resolveCode, .resolving r =>
    match policy.resolve r.identity with
    | .ok (some decision) => some (.authorizing r decision, s)
    | _ => some (.idle, s)
  | .insertCode now code, .authorizing r decision => some (.idle, s.insertCode now code r decision)
  | .beginBrowser now secrets clientId redirectUri challenge resource state nonce, .idle =>
    some (.idle, (s.beginBrowserAuthorization config now secrets clientId redirectUri challenge
      resource state nonce).2)
  | .browserCallback transaction cookie error code, .idle =>
    if cookie ≠ s.transactionBrowserId transaction then some (.idle, s)
    else if error then some (.endingBrowser transaction, s)
    else if code then some (.readingNonce transaction, s)
    else some (.idle, s)
  | .readNonce, .readingNonce transaction =>
    match s.browser.get? transaction with
    | none => some (.idle, s)
    | some t => some (.awaitingBrowser transaction t.nonce, s)
  | .browserUpstream result, .awaitingBrowser transaction _ =>
    match result with
    | .ok claims => some (.parkingBrowser transaction claims, s)
    | .error _ => some (.endingBrowser transaction, s)
  | .parkBrowser, .parkingBrowser transaction claims => some (.idle, s.parkBrowser transaction claims)
  | .endBrowser, .endingBrowser transaction => some (.idle, s.endBrowserTransaction transaction)
  | .browserConsent transaction csrfToken cookie consent, .idle =>
    if cookie ≠ s.transactionBrowserId transaction then some (.idle, s)
    else some (.consenting transaction csrfToken consent, s)
  | .takeBrowser, .consenting transaction csrfToken consent =>
    match s.takeBrowserClaims transaction csrfToken with
    | (.error _, s) => some (.idle, s)
    | (.ok (claims, clientState), s) =>
      some (if consent then .completing transaction clientState claims
        else .endingBrowser transaction, s)
  | .completeBrowser now, .completing transaction clientState claims =>
    match s.takeTransaction transaction with
    | (none, s) => some (.idle, s)
    | (some t, s) =>
      match completeBrowserAuthorization config now t clientState claims true with
      | .error _ => some (.idle, s)
      | .ok r => some (.resolving r, s)
  | .exchangeCode now family secrets code clientId redirectUri verifier resource, .idle =>
    some (.idle, (s.exchangeCode config policy.roleForOwner now family secrets code clientId
      redirectUri verifier resource).2)
  | .deviceAuthorize now secrets clientId resource, .idle =>
    -- a user code that is taken is drawn again
    if (s.findDevice? secrets.userCode).isSome then none
    else some (.idle, (s.deviceAuthorize config now secrets clientId resource).2)
  | .beginDevice now secrets userCode, .idle =>
    some (.idle, (s.beginDeviceVerification now secrets userCode).2)
  | .deviceCallback state cookie denied, .idle =>
    match s.findVerification? state cookie with
    | none => some (.idle, s)
    | some (_, grant) =>
      some (if denied then .denyingDevice (some state) grant.userCode
        else .readingDeviceNonce grant.userCode state true, s)
  | .readDeviceNonce code, .readingDeviceNonce userCode state page =>
    match (s.findDevice? userCode).bind (·.2.verifyNonce) with
    | none => some (.idle, s)
    | some nonce => some (if code then .awaitingDevice userCode state nonce page else .idle, s)
  | .deviceUpstream result, .awaitingDevice userCode state _ page =>
    match result with
    | .error e => some (failDevice state userCode e, s)
    | .ok claims =>
      some (if page then .parkingDevice state claims
        else .completingDevice userCode state claims true, s)
  | .parkDevice, .parkingDevice state claims => some (.idle, s.parkDevice state claims)
  | .deviceForm userCode state csrfToken consent page, .idle =>
    match s.findDevice? userCode with
    | none => some (.idle, s)
    | some (_, grant) =>
      some (if grant.verifyCsrf = csrfToken then .checkingDevice userCode state consent page
        else .idle, s)
  | .checkDevice cookie, .checkingDevice userCode state consent page =>
    if s.devices.values.any fun g => g.userCode = userCode ∧ g.verifyState = some state ∧
        g.browserId = cookie then
      if page then some (.takingDevice userCode state consent, s)
      else some (if consent then .readingDeviceNonce userCode state false
        else .denyingDevice (some state) userCode, s)
    else some (.idle, s)
  | .takeDevice, .takingDevice userCode state consent =>
    match s.takeDeviceClaims state with
    | (.error _, s) => some (.idle, s)
    | (.ok claims, s) =>
      some (if consent then .completingDevice userCode state claims true
        else .denyingDevice (some state) userCode, s)
  | .completeDevice now, .completingDevice userCode state claims consent =>
    match s.expectedVerification userCode with
    | .error _ => some (.idle, s)
    | .ok (expectedState, expectedNonce) =>
      if state ≠ expectedState then some (.idle, s)
      else
        match verifyGoogleClaims config claims expectedNonce now with
        | .error e => some (failDevice state userCode e, s)
        | .ok identity => some (.verifyingDevice (some state) userCode identity consent, s)
  | .verifyCall userCode identity consent, .idle =>
    some (.verifyingDevice none userCode identity consent, s)
  | .verifyDevice now, .verifyingDevice _ userCode identity consent =>
    some (.idle, (s.verifyDevice now policy.resolve userCode identity consent).2)
  | .denyCall userCode, .idle => some (.denyingDevice none userCode, s)
  | .denyDevice now, .denyingDevice _ userCode => some (.idle, (s.denyDevice now userCode).2)
  | .pollForClient deviceCode clientId resource, .idle =>
    match s.devices.get? deviceCode with
    | none => some (.idle, s)
    | some grant =>
      some (if grant.clientId = clientId ∧ grant.resource = resource then .polling deviceCode
        else .idle, s)
  | .pollCall deviceCode, .idle => some (.polling deviceCode, s)
  | .pollDevice now pollTime family secrets, .polling deviceCode =>
    some (.idle, (s.pollDevice policy.roleForOwner now pollTime family secrets deviceCode).2)
  | .refreshTake now refreshToken, .idle =>
    match s.refreshTake now refreshToken with
    | (.error _, s) => some (.idle, s)
    | (.ok taken, s) => some (if taken.reused then .idle else .refreshing taken, s)
  | .refreshPolicy, .refreshing taken =>
    match effectiveRole policy.roleForOwner taken.owner taken.roleCeiling with
    | .error _ => some (.refusing taken, s)
    | .ok _ => some (.issuing taken, s)
  | .refreshIssue now secrets, .issuing taken => some (.idle, (s.refreshIssue now secrets taken).2)
  | .refreshRevoke, .refusing taken => some (.idle, s.revokeFamily taken.family)
  | .revoke token, .idle => some (.idle, s.revoke token)
  | .revokeOwnGrant now sessionId csrf token, .idle =>
    some (.idle, (s.revokeOwnGrant now policy.roleForOwner sessionId csrf token).2)
  | .createSession now sessionId owner csrf admin, .idle =>
    some (.idle, (s.createSession now sessionId owner csrf admin).2)
  | .checkRest now accessToken resource, .idle =>
    match s.access.get? accessToken with
    | none => some (.idle, s)
    | some grant =>
      some (if grant.revoked ∨ grant.expires < now ∨ grant.resource ≠ resource then .idle
        else .checkingRest grant, s)
  | .restPolicy, .checkingRest grant =>
    match effectiveRole policy.roleForOwner grant.owner grant.roleCeiling with
    | .error _ => some (.idle, s)
    | .ok role => some (.authorized grant.owner role, s)
  | .finish, .authorized _ _ => some (.idle, s)
  | _, _ => none

/-! ## History -/

/-- An approval: what it is of, who gave it and what the policy made of that. -/
inductive Approval where
  | code (code : String) (r : CodeRequest) (decision : PolicyDecision)
  | device (deviceCode clientId resource : String) (identity : VerifiedIdentity)
      (decision : PolicyDecision)

namespace Approval

inductive Key where
  | code (code : String)
  | device (deviceCode : String)
  deriving DecidableEq

def key : Approval → Key
  | code c _ _ => .code c
  | device d .. => .device d

def decision : Approval → PolicyDecision
  | code _ _ d => d
  | device _ _ _ _ d => d

def identity : Approval → VerifiedIdentity
  | code _ r _ => r.identity
  | device _ _ _ i _ => i

def resource : Approval → String
  | code _ r _ => r.resource
  | device _ _ r _ _ => r

end Approval

/-- A token family, the approval it was issued for, and when its refresh tokens expire. -/
structure Issued where
  family : String
  approval : Approval
  expires : Nat

structure History where
  /-- The families that were revoked. -/
  revoked : List String
  /-- The identities the policy admitted. -/
  admitted : List (VerifiedIdentity × PolicyDecision)
  approvals : List Approval
  issued : List Issued

namespace History

def empty : History := ⟨[], [], [], []⟩

def revoke (h : History) (family : String) : History := { h with revoked := family :: h.revoked }

def accept (h : History) (identity : VerifiedIdentity) (decision : PolicyDecision) : History :=
  { h with admitted := (identity, decision) :: h.admitted }

def approve (h : History) (a : Approval) : History := { h with approvals := a :: h.approvals }

def approval? (h : History) (key : Approval.Key) : Option Approval :=
  h.approvals.find? fun a => a.key = key

/-- A family is issued for the latest approval of a key. -/
def issue (h : History) (family : String) (key : Approval.Key) (now : Nat) : History :=
  match h.approval? key with
  | none => h
  | some approval =>
    { h with issued := ⟨family, approval, now + 7 * 24 * 60 * 60⟩ :: h.issued }

end History

def Event.record (config : GatewayConfig) (policy : Policy) (s : GatewayState) (e : Event)
    (task : Task) (h : History) : History :=
  match e, task with
  | .resolveCode, .resolving r =>
    match policy.resolve r.identity with
    | .ok (some decision) => h.accept r.identity decision
    | _ => h
  | .insertCode _ code, .authorizing r decision => h.approve (.code code r decision)
  | .exchangeCode now family secrets code clientId redirectUri verifier resource, _ =>
    match (s.exchangeCode config policy.roleForOwner now family secrets code clientId redirectUri
      verifier resource).1 with
    | .ok _ => h.issue family (.code code) now
    | .error _ => h
  | .verifyDevice now, .verifyingDevice _ userCode identity consent =>
    match (s.verifyDevice now policy.resolve userCode identity consent).1,
        s.findDevice? userCode, policy.resolve identity with
    | .ok _, some (deviceCode, grant), .ok (some decision) =>
      (h.accept identity decision).approve
        (.device deviceCode grant.clientId grant.resource identity decision)
    | _, _, _ => h
  | .pollDevice now pollTime family secrets, .polling deviceCode =>
    match (s.pollDevice policy.roleForOwner now pollTime family secrets deviceCode).1 with
    | .ok _ => h.issue family (.device deviceCode) now
    | .error _ => h
  | .refreshTake now refreshToken, _ =>
    match (s.refreshTake now refreshToken).1 with
    | .ok taken => if taken.reused then h.revoke taken.family else h
    | .error _ => h
  | .refreshRevoke, .refusing taken => h.revoke taken.family
  | .revoke token, _ =>
    match s.familyOf? token with
    | some family => h.revoke family
    | none => h
  | .revokeOwnGrant now sessionId csrf token, _ =>
    match s.ownGrant now policy.roleForOwner sessionId csrf token with
    | .ok family => h.revoke family
    | .error _ => h
  | _, _ => h

/-! ## All requests -/

structure World where
  gateway : GatewayState
  policy : Policy
  task : Nat → Task
  /-- The secrets drawn so far. -/
  drawn : List String
  clock : Nat
  history : History

inductive Label where
  | step (p : Nat) (e : Event)
  /-- The policy changes. -/
  | policy (policy : Policy)
  /-- A request is dropped. -/
  | drop (p : Nat)

/-- No step draws a secret again, and the clock does not go back. -/
structure Event.Fair (e : Event) (w : World) : Prop where
  fresh : (∀ x ∈ e.secrets, x ∉ w.drawn) ∧ e.secrets.Nodup
  clock : ∀ now, e.now? = some now → w.clock ≤ now

def World.after (w : World) (config : GatewayConfig) : Label → Option World
  | .step p e =>
    (e.run config w.policy w.gateway (w.task p)).map fun r =>
      { w with
        gateway := r.2
        task := Function.update w.task p r.1
        drawn := e.secrets ++ w.drawn
        clock := e.now?.getD w.clock
        history := e.record config w.policy w.gateway (w.task p) w.history }
  | .policy policy => some { w with policy := policy }
  | .drop p => some { w with task := Function.update w.task p .idle }

def World.Fair (w : World) : Label → Prop
  | .step _ e => e.Fair w
  | _ => True

def machine (config : GatewayConfig) : Machine World Label where
  Init w := w.gateway = .empty ∧ (∀ p, w.task p = .idle) ∧ w.drawn = [] ∧ w.history = .empty
  Step w l w' := w.Fair l ∧ w.after config l = some w'

instance (e : Event) (w : World) : Decidable (e.Fair w) :=
  decidable_of_iff (((∀ x ∈ e.secrets, x ∉ w.drawn) ∧ e.secrets.Nodup) ∧
      e.now?.all (fun now => decide (w.clock ≤ now)) = true)
    ⟨fun ⟨hfresh, hclock⟩ => ⟨hfresh, fun now hnow => by simpa [hnow] using hclock⟩,
      fun h => ⟨h.fresh, by
        cases hnow : e.now? with
        | none => rfl
        | some now => simpa using h.clock now hnow⟩⟩

instance (w : World) : (l : Label) → Decidable (w.Fair l)
  | .step _ e => inferInstanceAs (Decidable (e.Fair w))
  | .policy _ | .drop _ => isTrue trivial

def play (config : GatewayConfig) (w : World) (ls : List Label) : Option World :=
  ls.foldlM (fun w l => if w.Fair l then w.after config l else none) w

theorem run_play {config : GatewayConfig} {w w' : World} {ls : List Label}
    (h : play config w ls = some w') : (machine config).Run w ls w' :=
  .of_foldlM (fun _ _ _ hstep => Option.ite_none_right_eq_some.1 hstep) h

structure World.Steps (w : World) (config : GatewayConfig) (p : Nat) (e : Event) (t : Task)
    (w' : World) : Prop where
  run : e.run config w.policy w.gateway (w.task p) = some (t, w'.gateway)
  task : w'.task = Function.update w.task p t
  policy : w'.policy = w.policy
  drawn : w'.drawn = e.secrets ++ w.drawn
  clock : w'.clock = e.now?.getD w.clock
  history : w'.history = e.record config w.policy w.gateway (w.task p) w.history
  fair : e.Fair w

/-- **The three kinds of steps.** -/
theorem step_cases {config : GatewayConfig} {w w' : World} {l : Label}
    (h : (machine config).Step w l w') :
    (∃ p e t, l = .step p e ∧ w.Steps config p e t w') ∨
      (∃ policy, l = .policy policy ∧ w' = { w with policy := policy }) ∨
      ∃ p, l = .drop p ∧ w' = { w with task := Function.update w.task p .idle } := by
  obtain ⟨hfair, hafter⟩ := h
  cases l with
  | step p e =>
    obtain ⟨⟨t, s⟩, hrun, rfl⟩ := Option.map_eq_some_iff.1 hafter
    exact .inl ⟨p, e, t, rfl, hrun, rfl, rfl, rfl, rfl, rfl, hfair⟩
  | policy policy =>
    cases hafter
    exact .inr (.inl ⟨policy, rfl, rfl⟩)
  | drop p =>
    cases hafter
    exact .inr (.inr ⟨p, rfl, rfl⟩)

end AgentPalace.Hub
