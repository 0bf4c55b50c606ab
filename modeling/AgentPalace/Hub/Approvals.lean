import AgentPalace.Hub.Families
import AgentPalace.Hub.Devices

/-!
# Tokens and approvals

A code and a device grant carry what was approved, and every token of a family
carries what the family was issued for. Six kinds of steps approve, issue or
renew (`Event.grants`); the others leave each record with what it is bound to,
which is `Kept`. `ApprovalSound` ties the stored codes and device grants to the
latest approval of their key, `TokensTraced` ties the tokens to the families
issued.
-/

namespace AgentPalace.Hub

open GatewayState
open OrdMap (Shrinks)

/-! ## What a token is bound to -/

structure Terms where
  family : String
  owner : AdmissionIdentity
  roleCeiling : AccessRole
  resource : String

def RefreshGrant.terms (g : RefreshGrant) : Terms := ⟨g.family, g.owner, g.roleCeiling, g.resource⟩

def AccessGrant.terms (g : AccessGrant) : Terms := ⟨g.family, g.owner, g.roleCeiling, g.resource⟩

def GatewayState.RefreshTaken.terms (taken : RefreshTaken) : Terms :=
  ⟨taken.family, taken.owner, taken.roleCeiling, taken.resource⟩

def Issued.terms (i : Issued) : Terms :=
  ⟨i.family, i.approval.decision.admission, i.approval.decision.role, i.approval.resource⟩

def Approval.Key.secret : Approval.Key → String
  | .code c => c
  | .device d => d

/-- A stored code is for a request and a decision. -/
structure CodeGrant.For (g : CodeGrant) (r : CodeRequest) (d : PolicyDecision) : Prop where
  clientId : g.clientId = r.clientId
  redirectUri : g.redirectUri = r.redirectUri
  challenge : g.challenge = r.challenge
  resource : g.resource = r.resource
  owner : g.owner = d.admission
  roleCeiling : g.roleCeiling = d.role

def DeviceGrant.bound (g : DeviceGrant) :
    String × String × Option AdmissionIdentity × Option AccessRole :=
  (g.clientId, g.resource, g.owner, g.roleCeiling)

/-! ## Steps that bind nothing -/

def Event.grants : Event → Bool
  | .resolveCode | .insertCode .. | .exchangeCode .. | .verifyDevice _ | .pollDevice ..
  | .refreshIssue .. => true
  | _ => false

def CodesKept (s s' : GatewayState) : Prop :=
  ∀ c g', s'.codes.get? c = some g' →
    ∃ g, s.codes.get? c = some g ∧ (g' = g ∨ g' = { g with used := true })

/-- A device grant is as before, or new and undecided. -/
def DevicesKept (s : GatewayState) (e : Event) (s' : GatewayState) : Prop :=
  ∀ d g', s'.devices.get? d = some g' →
    (∃ g, s.devices.get? d = some g ∧ g'.bound = g.bound) ∨ d ∈ e.secrets ∧ g'.owner = none

/-- Every token is one from before, bound to the same. -/
structure TokensKept (s s' : GatewayState) : Prop where
  refresh : ∀ k g', s'.refresh.get? k = some g' →
    ∃ g, s.refresh.get? k = some g ∧ g'.terms = g.terms ∧ g'.expires = g.expires
  access : ∀ k g', s'.access.get? k = some g' →
    ∃ g, s.access.get? k = some g ∧ g'.terms = g.terms

section
variable {config : GatewayConfig} {policy : Policy} {s s' : GatewayState} {e : Event}
  {task task' : Task} {h : History}

theorem CodesKept.of_shrinks (h : Shrinks s.codes s'.codes) : CodesKept s s' :=
  fun c g' hg' => ⟨g', h c g' hg', .inl rfl⟩

theorem CodesKept.of_eq (h : s'.codes = s.codes) : CodesKept s s' := .of_shrinks (.of_eq h)

theorem codesKept_prune (now : Nat) : CodesKept s (s.pruneExpired now) := by
  apply CodesKept.of_shrinks
  rw [prune_codes]
  exact .filter _ _

theorem codesKept_beginBrowser {now : Nat} {secrets : BrowserSecrets}
    {clientId redirectUri challenge resource state nonce : String} :
    CodesKept s (s.beginBrowserAuthorization config now secrets clientId redirectUri challenge resource
      state nonce).2 := by
  unfold beginBrowserAuthorization
  split
  · exact .of_eq rfl
  · intro c g' hg'
    have hsame := (evictTransactions_same (s.pruneExpired now) (s.pruneExpired now).browser.size).1
    exact codesKept_prune now c g' (hsame ▸ hg')

theorem codesKept_deviceAuthorize {now : Nat} {secrets : DeviceSecrets}
    {clientId resource : String} :
    CodesKept s (s.deviceAuthorize config now secrets clientId resource).2 := by
  unfold deviceAuthorize
  split
  · exact .of_eq rfl
  · dsimp only
    split
    · exact codesKept_prune now
    · have hsame := (evictDevices_same (s.pruneExpired now) now clientId
        (s.pruneExpired now).devices.size).codes
      split
      · rename_i u hu
        rw [hu] at hsame
        exact fun c g' hg' => codesKept_prune now c g' (hsame ▸ hg')
      · rename_i u hu
        rw [hu] at hsame
        exact fun c g' hg' => codesKept_prune now c g' (hsame ▸ hg')

theorem codesKept_createSession {now : Nat} {sessionId : String} {owner : AdmissionIdentity}
    {csrf : String} {admin : Bool} :
    CodesKept s (s.createSession now sessionId owner csrf admin).2 := by
  unfold createSession
  split
  · exact .of_eq rfl
  · exact codesKept_prune now

theorem codes_beginDevice {now : Nat} {secrets : VerificationSecrets} {userCode : String} :
    (s.beginDeviceVerification now secrets userCode).2.codes = s.codes := by
  unfold beginDeviceVerification
  split
  · rfl
  · split
    · rfl
    · dsimp only
      split <;> rfl

theorem codes_verifyDevice {now : Nat}
    {resolve : VerifiedIdentity → Except ProtocolError (Option PolicyDecision)}
    {userCode : String} {identity : VerifiedIdentity} {consent : Bool} :
    (s.verifyDevice now resolve userCode identity consent).2.codes = s.codes := by
  unfold verifyDevice
  split
  · rfl
  · split
    · rfl
    · split
      · rfl
      · dsimp only
        split
        · rfl
        · split <;> rfl

theorem codes_denyDevice {now : Nat} {userCode : String} :
    (s.denyDevice now userCode).2.codes = s.codes := by
  unfold denyDevice
  split
  · rfl
  · split <;> rfl

theorem codes_takeBrowserClaims {transaction csrfToken : String} :
    (s.takeBrowserClaims transaction csrfToken).2.codes = s.codes := by
  unfold takeBrowserClaims
  split
  · rfl
  · split
    · rfl
    · split <;> rfl

theorem codes_takeDeviceClaims {state : String} :
    (s.takeDeviceClaims state).2.codes = s.codes := by
  unfold takeDeviceClaims
  split <;> rfl

theorem codes_revoke {token : String} : (s.revoke token).codes = s.codes := by
  unfold GatewayState.revoke
  split <;> rfl

theorem codes_revokeOwnGrant {now : Nat} {lookup : RoleLookup} {sessionId csrf token : String} :
    (s.revokeOwnGrant now lookup sessionId csrf token).2.codes = s.codes := by
  unfold revokeOwnGrant
  split <;> rfl

theorem codes_refreshTake {now : Nat} {token : String} :
    (s.refreshTake now token).2.codes = s.codes := by
  unfold GatewayState.refreshTake
  split
  · rfl
  · dsimp only
    split
    · rfl
    · split <;> rfl

theorem codesKept_pollDevice {now pollTime : Nat} {family : String} {secrets : TokenSecrets}
    {d : String} :
    CodesKept s (s.pollDevice policy.roleForOwner now pollTime family secrets d).2 :=
  pollDevice_rule (motive := fun r => CodesKept s r.2) (fun _ => .of_eq rfl)
    (fun _ _ _ => .of_eq rfl) fun _ _ _ _ _ _ _ =>
      codesKept_prune (s := { s.modifyDevice d (fun g => polled g pollTime) with
        devices := (s.modifyDevice d fun g => polled g pollTime).devices.erase d }) now

theorem codesKept_exchangeCode {lookup : RoleLookup} {now : Nat} {family : String}
    {secrets : TokenSecrets} {code clientId redirectUri verifier resource : String} :
    CodesKept s (s.exchangeCode config lookup now family secrets code clientId redirectUri verifier
      resource).2 := by
  have hmarked : CodesKept s { s with codes := s.codes.modify code fun g => { g with used := true } } := by
    intro c g' hg'
    simp only [OrdMap.get?_modify] at hg'
    split at hg'
    · rename_i hc
      obtain ⟨g, hg, rfl⟩ := Option.map_eq_some_iff.1 hg'
      exact ⟨g, hc ▸ hg, .inr rfl⟩
    · exact ⟨g', hg', .inl rfl⟩
  refine exchangeCode_rule (motive := fun r => CodesKept s r.2) (fun _ => .of_eq rfl)
    (fun _ => hmarked) fun _ _ _ c g' hg' => ?_
  simp only [Prod.map, id, issue, issueWithFamily, prune_codes, OrdMap.get?_filter] at hg'
  exact hmarked c g' (Option.filter_eq_some_iff.1 hg').1

theorem run_codes (he : ∀ now code, e ≠ .insertCode now code)
    (hrun : e.run config policy s task = some (task', s')) : CodesKept s s' := by
  unfold Event.run at hrun
  split at hrun
  any_goals cases hrun
  case h_3.refl now code _ _ => exact absurd rfl (he now code)
  case h_4.refl => exact codesKept_beginBrowser
  case h_11 transaction csrfToken consent =>
    have hcodes := @codes_takeBrowserClaims s transaction csrfToken
    split at hrun <;> rename_i heq <;> cases hrun <;> rw [heq] at hcodes <;> exact .of_eq hcodes
  case h_12 now transaction clientState claims =>
    have hcodes : (s.takeTransaction transaction).2.codes = s.codes := rfl
    split at hrun <;> rename_i heq <;> rw [heq] at hcodes
    · cases hrun
      exact .of_eq hcodes
    · split at hrun <;> cases hrun <;> exact .of_eq hcodes
  case h_13.refl => exact codesKept_exchangeCode
  case h_14 =>
    split at hrun <;> cases hrun
    exact codesKept_deviceAuthorize
  case h_15.refl => exact .of_eq codes_beginDevice
  case h_22 userCode state consent =>
    have hcodes := @codes_takeDeviceClaims s state
    split at hrun <;> rename_i heq <;> cases hrun <;> rw [heq] at hcodes <;> exact .of_eq hcodes
  case h_25.refl => exact .of_eq codes_verifyDevice
  case h_27.refl => exact .of_eq codes_denyDevice
  case h_30.refl => exact codesKept_pollDevice
  case h_31 now refreshToken =>
    have hcodes := @codes_refreshTake s now refreshToken
    split at hrun <;> rename_i heq <;> cases hrun <;> rw [heq] at hcodes <;> exact .of_eq hcodes
  case h_35.refl => exact .of_eq codes_revoke
  case h_36.refl => exact .of_eq codes_revokeOwnGrant
  case h_37.refl => exact codesKept_createSession
  -- the others leave the codes as they are
  all_goals
    repeat' split at hrun
    all_goals try cases hrun
    all_goals exact .of_eq rfl

theorem DeviceUpdate.bound {d : String} {g g' : DeviceGrant}
    (h : DeviceUpdate policy s e task d g g') :
    g'.bound = g.bound ∨ ∃ now attempt userCode identity decision,
      e = .verifyDevice now ∧ task = .verifyingDevice attempt userCode identity true ∧
        s.findDevice? userCode = some (d, g) ∧ policy.resolve identity = .ok (some decision) ∧
          g' = g.approved decision := by
  cases h with
  | approved hfind _ _ hresolve => exact .inr ⟨_, _, _, _, _, rfl, rfl, hfind, hresolve, rfl⟩
  | _ => exact .inl rfl

theorem run_bound (he : ∀ now, e ≠ .verifyDevice now)
    (hrun : e.run config policy s task = some (task', s')) : DevicesKept s e s' := by
  intro d g' hg'
  rcases (run_devices hrun).update d g' hg' with
    ⟨g, hg, hu⟩ | ⟨-, now, secrets, clientId, resource, n, rfl, rfl, rfl⟩
  · rcases hu.bound with heq | ⟨now, _, _, _, _, rfl, -⟩
    · exact .inl ⟨g, hg, heq⟩
    · exact absurd rfl (he now)
  · exact .inr ⟨by simp [Event.secrets], rfl⟩

theorem TokensKept.of_pruned (h : Pruned s s') : TokensKept s s' :=
  ⟨fun k g' hg' => ⟨g', h.refresh k g' hg', rfl, rfl⟩, fun k g' hg' => ⟨g', h.access k g' hg', rfl⟩⟩

theorem TokensKept.refl (s : GatewayState) : TokensKept s s := .of_pruned (.refl s)

theorem tokensKept_revokeFamily (family : String) : TokensKept s (s.revokeFamily family) := by
  constructor
  · intro k g' hg'
    simp only [revokeFamily, OrdMap.get?_mapEntries] at hg'
    obtain ⟨g, hg, rfl⟩ := Option.map_eq_some_iff.1 hg'
    exact ⟨g, hg, by split <;> rfl, by split <;> rfl⟩
  · intro k g' hg'
    simp only [revokeFamily, OrdMap.get?_mapEntries] at hg'
    obtain ⟨g, hg, rfl⟩ := Option.map_eq_some_iff.1 hg'
    exact ⟨g, hg, by split <;> rfl⟩

theorem tokensKept_marked (token : String) :
    TokensKept s { s with refresh := s.refresh.modify token fun g => { g with revoked := true } } := by
  refine ⟨fun k g' hg' => ?_, fun k g' hg' => ⟨g', hg', rfl⟩⟩
  simp only [OrdMap.get?_modify] at hg'
  split at hg'
  · rename_i hk
    obtain ⟨g, hg, rfl⟩ := Option.map_eq_some_iff.1 hg'
    exact ⟨g, hk ▸ hg, rfl, rfl⟩
  · exact ⟨g', hg', rfl, rfl⟩

def TakenKept (s : GatewayState) (task task' : Task) : Prop :=
  ∀ taken, task'.taken? = some taken → task.taken? = some taken ∨
    ∃ k g, s.refresh.get? k = some g ∧ taken.terms = g.terms ∧ taken.expires = g.expires

theorem takenKept_of (h : task'.taken? = none ∨ task'.taken? = task.taken?) :
    TakenKept s task task' := by
  intro taken htaken
  rcases h with h | h
  · rw [h] at htaken
    cases htaken
  · exact .inl (h ▸ htaken)

theorem run_tokensKept (he : e.tokenless = true ∨ e.grants = false)
    (hrun : e.run config policy s task = some (task', s')) : TokensKept s s' := by
  by_cases hless : e.tokenless = true
  · exact .of_pruned (tokenless_run hless hrun).1
  have he := he.resolve_left hless
  have hsecrets : e.secrets = [] := by
    cases e <;> first | rfl | exact absurd rfl hless | cases he
  have heffect := run_tokens (h := History.empty) hrun
  generalize (e.record config policy s task .empty).revoked = r' at heffect
  cases heffect with
  | quiet hrefresh haccess htask => exact .of_pruned ⟨hrefresh, haccess⟩
  | issued hrefresh haccess hs hfamily htask =>
    rcases hfamily with hmem | ⟨_, _, _, rfl, -⟩
    · rw [hsecrets] at hmem
      cases hmem
    · cases he
  | @taken token g hget hlive => exact tokensKept_marked token
  | revoked hfamily htask => exact tokensKept_revokeFamily _

theorem run_takenKept (hrun : e.run config policy s task = some (task', s')) :
    TakenKept s task task' := by
  have heffect := run_tokens (h := History.empty) hrun
  generalize (e.record config policy s task .empty).revoked = r' at heffect
  cases heffect with
  | quiet hrefresh haccess htask => exact takenKept_of htask
  | issued hrefresh haccess hs hfamily htask => exact takenKept_of (.inl htask)
  | @taken token g hget hlive =>
    intro taken htaken
    cases htaken
    exact .inr ⟨token, g, hget, rfl, rfl⟩
  | revoked hfamily htask => exact takenKept_of (.inl htask)

structure History.Same (h h' : History) : Prop where
  admitted : h'.admitted = h.admitted
  approvals : h'.approvals = h.approvals
  issued : h'.issued = h.issued

theorem History.Same.refl (h : History) : h.Same h := ⟨rfl, rfl, rfl⟩

theorem record_same (he : e.grants = false) : h.Same (e.record config policy s task h) := by
  unfold Event.record
  split
  any_goals cases he
  all_goals
    repeat' split
    all_goals exact ⟨rfl, rfl, rfl⟩

/-! ## Where a request has what it holds from -/

def Task.consented : Task → Bool
  | .resolving _ | .authorizing .. | .completing .. => true
  | .consenting _ _ consent | .checkingDevice _ _ consent _ | .takingDevice _ _ consent
  | .completingDevice _ _ _ consent | .verifyingDevice _ _ _ consent => consent
  | .readingDeviceNonce _ _ page | .awaitingDevice _ _ _ page => !page
  | _ => false

def Event.consents : Event → Bool
  | .authorizeCode _ consent .. | .browserConsent _ _ _ consent | .deviceForm _ _ _ consent _
  | .verifyCall _ _ consent => consent
  | _ => false

theorem consented_failDevice (attempt userCode : String) (err : GoogleClaimError) :
    (failDevice attempt userCode err).consented = false := by
  unfold failDevice
  split <;> rfl

theorem checkCodeRequest_consent {r : CodeRequest} {consent : Bool}
    {state expectedState nonce expectedNonce : String}
    (h : checkCodeRequest config r consent state expectedState nonce expectedNonce = .ok ()) :
    consent = true := by
  unfold checkCodeRequest at h
  split at h
  · cases h
  · simpa using ‹¬ consent = false›

/-- **Consent** comes from a step that gives it. -/
theorem run_consented (hrun : e.run config policy s task = some (task', s'))
    (hconsented : task'.consented = true) : e.consents = true ∨ task.consented = true := by
  unfold Event.run at hrun
  split at hrun
  any_goals cases hrun
  case h_1 r consent state expectedState nonce expectedNonce =>
    split at hrun <;> cases hrun
    · cases hconsented
    · rename_i hcheck
      exact .inl (checkCodeRequest_consent hcheck)
  all_goals
    repeat' split at hrun
    all_goals try cases hrun
    all_goals first
      | exact .inr rfl
      | exact .inl hconsented
      | exact .inr hconsented
      | contradiction
      | (rw [consented_failDevice] at hconsented; contradiction)
      | simp_all [Task.consented, Event.consents]

theorem failDevice_cases (attempt userCode : String) (err : GoogleClaimError) :
    failDevice attempt userCode err = .idle ∨
      failDevice attempt userCode err = .denyingDevice (some attempt) userCode := by
  unfold failDevice
  split
  · exact .inl rfl
  · exact .inr rfl

theorem run_authorizing {r : CodeRequest} {d : PolicyDecision}
    (hrun : e.run config policy s task = some (.authorizing r d, s')) :
    e = .resolveCode ∧ task = .resolving r ∧ policy.resolve r.identity = .ok (some d) := by
  unfold Event.run at hrun
  split at hrun
  case h_2 r' =>
    split at hrun
    · rename_i hresolve
      cases hrun
      exact ⟨rfl, rfl, hresolve⟩
    · cases hrun
  all_goals
    repeat' split at hrun
    all_goals grind [failDevice_cases]

theorem run_checking {g : AccessGrant}
    (hrun : e.run config policy s task = some (.checkingRest g, s')) :
    ∃ now token, e = .checkRest now token g.resource ∧ s.access.get? token = some g ∧
      g.revoked = false ∧ now ≤ g.expires := by
  unfold Event.run at hrun
  split at hrun
  case h_38 now token resource =>
    split at hrun
    · cases hrun
    · rename_i g' hget
      split at hrun
      · cases hrun
      · rename_i hlive
        cases hrun
        simp only [not_or, not_lt, Bool.not_eq_true, ne_eq, not_not] at hlive
        obtain ⟨hrevoked, hexpires, rfl⟩ := hlive
        exact ⟨now, token, rfl, hget, hrevoked, hexpires⟩
  all_goals
    repeat' split at hrun
    all_goals grind [failDevice_cases]

theorem run_authorized {owner : AdmissionIdentity} {role : AccessRole}
    (hrun : e.run config policy s task = some (.authorized owner role, s')) :
    ∃ g, task = .checkingRest g ∧ g.owner = owner ∧
      effectiveRole policy.roleForOwner g.owner g.roleCeiling = .ok role := by
  unfold Event.run at hrun
  split at hrun
  case h_39 g =>
    split at hrun
    · cases hrun
    · rename_i hrole
      cases hrun
      exact ⟨g, rfl, rfl, hrole⟩
  all_goals
    repeat' split at hrun
    all_goals grind [failDevice_cases]

/-! ## Steps that issue -/

/-- Every token is from before or bound to the terms. -/
structure Renewed (s s' : GatewayState) (t : Terms) (expires : Nat) : Prop where
  refresh : ∀ k g', s'.refresh.get? k = some g' →
    (∃ g, s.refresh.get? k = some g ∧ g'.terms = g.terms ∧ g'.expires = g.expires) ∨
      g'.terms = t ∧ g'.expires = expires
  access : ∀ k g', s'.access.get? k = some g' →
    (∃ g, s.access.get? k = some g ∧ g'.terms = g.terms) ∨ g'.terms = t

theorem renewed_issue {s₀ : GatewayState} {now expires : Nat} {secrets : TokenSecrets}
    {family : String} {owner : AdmissionIdentity} {roleCeiling : AccessRole} {resource : String}
    (h : Pruned s s₀) :
    Renewed s (s₀.issueWithFamily now secrets family owner roleCeiling resource expires).2
      ⟨family, owner, roleCeiling, resource⟩ expires := by
  constructor
  · intro k g' hg'
    rcases OrdMap.get?_insert_some hg' with ⟨-, rfl⟩ | hg'
    · exact .inr ⟨rfl, rfl⟩
    · exact .inl ⟨g', h.refresh k g' hg', rfl, rfl⟩
  · intro k g' hg'
    rcases OrdMap.get?_insert_some hg' with ⟨-, rfl⟩ | hg'
    · exact .inr rfl
    · exact .inl ⟨g', h.access k g' hg', rfl⟩

/-- A code that is exchanged is marked, and its family bound to what the code is. -/
theorem exchangeCode_ok {lookup : RoleLookup} {now : Nat} {family : String}
    {secrets : TokenSecrets} {code clientId redirectUri verifier resource : String}
    {response : TokenResponse}
    (hok : s.exchangeCode config lookup now family secrets code clientId redirectUri verifier
      resource = (.ok response, s')) :
    ∃ g, s.codes.get? code = some g ∧
      g.Redeems config.pkce now clientId redirectUri verifier resource ∧
      Renewed s s' ⟨family, g.owner, g.roleCeiling, g.resource⟩ (now + 7 * 24 * 60 * 60) ∧
      ∀ g', s'.codes.get? code = some g' → g'.used = true := by
  revert hok
  refine exchangeCode_rule (motive := fun r => r = (.ok response, s') → _) (fun _ h => by cases h)
    (fun _ h => by cases h) fun g hget hredeems h => ?_
  cases h
  refine ⟨g, hget, hredeems, ?_, fun g' hg' => ?_⟩
  · rw [hredeems.2.2.2.2.1]
    have hpruned := @pruned_prune { s with
      codes := s.codes.modify code fun g => { g with used := true } } now
    exact renewed_issue ⟨hpruned.refresh, hpruned.access⟩
  · simp only [id, prune_codes, OrdMap.get?_filter, OrdMap.get?_modify, if_true, hget] at hg'
    cases (Option.filter_eq_some_iff.1 hg').1
    rfl

theorem exchangeCode_error {lookup : RoleLookup} {now : Nat} {family : String}
    {secrets : TokenSecrets} {code clientId redirectUri verifier resource : String}
    {err : ProtocolError}
    (herr : s.exchangeCode config lookup now family secrets code clientId redirectUri verifier
      resource = (.error err, s')) : TokensKept s s' := by
  revert herr
  refine exchangeCode_rule (motive := fun r => r = (.error err, s') → _) (fun _ h => ?_)
    (fun _ h => ?_) fun _ _ _ h => by cases h
  · cases h
    exact .refl s
  · cases h
    exact .of_pruned ⟨.refl _, .refl _⟩

theorem pollDevice_ok {now pollTime : Nat} {family : String} {secrets : TokenSecrets} {d : String}
    {response : TokenResponse}
    (hok : s.pollDevice policy.roleForOwner now pollTime family secrets d = (.ok response, s')) :
    ∃ g owner roleCeiling, s.devices.get? d = some g ∧ Redeemable policy g now pollTime ∧
      g.owner = some owner ∧ g.roleCeiling = some roleCeiling ∧
      Renewed s s' ⟨family, owner, roleCeiling, g.resource⟩ (now + 7 * 24 * 60 * 60) ∧
      s'.devices.get? d = none := by
  revert hok
  refine pollDevice_rule (motive := fun r => r = (.ok response, s') → _) (fun _ h => by cases h)
    (fun _ _ _ h => by cases h) fun g owner roleCeiling hget hredeemable howner hceiling h => ?_
  cases h
  refine ⟨g, owner, roleCeiling, hget, hredeemable, howner, hceiling, ?_, ?_⟩
  · have hpruned := @pruned_prune { s.modifyDevice d (fun g => polled g pollTime) with
      devices := (s.modifyDevice d fun g => polled g pollTime).devices.erase d } now
    exact renewed_issue ⟨hpruned.refresh, hpruned.access⟩
  · simp only [id, get?_prune_devices, OrdMap.get?_erase, if_true]
    rfl

theorem pollDevice_error {now pollTime : Nat} {family : String} {secrets : TokenSecrets} {d : String}
    {err : ProtocolError}
    (herr : s.pollDevice policy.roleForOwner now pollTime family secrets d = (.error err, s')) :
    TokensKept s s' := by
  revert herr
  refine pollDevice_rule (motive := fun r => r = (.error err, s') → _) (fun _ h => ?_)
    (fun _ _ _ h => ?_) fun _ _ _ _ _ _ _ h => by cases h
  · cases h
    exact .refl s
  · cases h
    exact .of_pruned ⟨.refl _, .refl _⟩

theorem approval?_some {key : Approval.Key} {a : Approval} (ha : h.approval? key = some a) :
    a ∈ h.approvals ∧ a.key = key :=
  ⟨List.mem_of_find?_eq_some ha, by simpa using List.find?_some ha⟩

theorem approval?_approve (h : History) (a : Approval) (key : Approval.Key) :
    (h.approve a).approval? key = if a.key = key then some a else h.approval? key := by
  unfold History.approval? History.approve
  rw [List.find?_cons]
  by_cases hkey : a.key = key <;> simp [hkey]

end

/-! ## Approvals over a run -/

/-- What the stored codes and device grants are bound to, and which families were issued. -/
structure ApprovalSound (w : World) : Prop where
  admitted : ∀ a ∈ w.history.approvals, (a.identity, a.decision) ∈ w.history.admitted
  authorizing : ∀ p r d, w.task p = .authorizing r d → (r.identity, d) ∈ w.history.admitted
  drawn : ∀ a ∈ w.history.approvals, a.key.secret ∈ w.drawn
  /-- A code is for the approval of its key, and used when that has a family. -/
  code : ∀ c g, w.gateway.codes.get? c = some g →
    (∃ r d, w.history.approval? (.code c) = some (.code c r d) ∧ g.For r d) ∧
      ((∃ i ∈ w.history.issued, i.approval.key = .code c) → g.used = true)
  /-- A device grant has no family yet, and its owner from the latest approval. -/
  device : ∀ d g, w.gateway.devices.get? d = some g →
    (∀ i ∈ w.history.issued, i.approval.key ≠ .device d) ∧
      ∀ owner, g.owner = some owner → ∃ identity decision,
        w.history.approval? (.device d) =
          some (.device d g.clientId g.resource identity decision) ∧
        owner = decision.admission ∧ g.roleCeiling = some decision.role
  approved : ∀ i ∈ w.history.issued, i.approval ∈ w.history.approvals
  family : ∀ i ∈ w.history.issued, i.family ∈ w.drawn
  once : w.history.issued.Pairwise fun i j => i.family ≠ j.family ∧ i.approval.key ≠ j.approval.key

/-- Every token, and every request that holds one, is bound to what its family was issued for. -/
structure TokensTraced (w : World) : Prop where
  refresh : ∀ k g, w.gateway.refresh.get? k = some g →
    ∃ i ∈ w.history.issued, g.terms = i.terms ∧ g.expires = i.expires
  access : ∀ k g, w.gateway.access.get? k = some g → ∃ i ∈ w.history.issued, g.terms = i.terms
  taken : ∀ p taken, (w.task p).taken? = some taken →
    ∃ i ∈ w.history.issued, taken.terms = i.terms ∧ taken.expires = i.expires
  checking : ∀ p g, w.task p = .checkingRest g → ∃ i ∈ w.history.issued, g.terms = i.terms

section
variable {config : GatewayConfig} {w w' : World} {e : Event} {p : Nat} {t : Task}

theorem CodeGrant.For.of_used {g : CodeGrant} {r : CodeRequest} {d : PolicyDecision}
    (h : g.For r d) (used : Bool) : ({ g with used } : CodeGrant).For r d :=
  ⟨h.clientId, h.redirectUri, h.challenge, h.resource, h.owner, h.roleCeiling⟩

/-- Records that are kept stay bound to what they were. -/
theorem ApprovalSound.of_kept (h : ApprovalSound w) (hcodes : CodesKept w.gateway w'.gateway)
    (hdevices : DevicesKept w.gateway e w'.gateway) (hfresh : ∀ x ∈ e.secrets, x ∉ w.drawn)
    (hdrawn : ∀ x ∈ w.drawn, x ∈ w'.drawn)
    (hadmitted : ∀ x ∈ w.history.admitted, x ∈ w'.history.admitted)
    (happrovals : w'.history.approvals = w.history.approvals)
    (hissued : w'.history.issued = w.history.issued)
    (htask : ∀ p r d, w'.task p = .authorizing r d → (r.identity, d) ∈ w'.history.admitted) :
    ApprovalSound w' := by
  have happroval : ∀ key, w'.history.approval? key = w.history.approval? key := by
    intro key
    simp only [History.approval?, happrovals]
  refine ⟨fun a ha => hadmitted _ (h.admitted a (happrovals ▸ ha)), htask,
    fun a ha => hdrawn _ (h.drawn a (happrovals ▸ ha)), fun c g' hg' => ?_, fun d g' hg' => ?_,
    fun i hi => ?_, fun i hi => hdrawn _ (h.family i (hissued ▸ hi)), hissued ▸ h.once⟩
  · obtain ⟨g, hg, hcases⟩ := hcodes c g' hg'
    obtain ⟨⟨r, d, ha, hfor⟩, hused⟩ := h.code c g hg
    rw [happroval, hissued]
    rcases hcases with rfl | rfl
    · exact ⟨⟨r, d, ha, hfor⟩, hused⟩
    · exact ⟨⟨r, d, ha, hfor.of_used true⟩, fun _ => rfl⟩
  · rw [happroval, hissued]
    rcases hdevices d g' hg' with ⟨g, hg, hbound⟩ | ⟨hd, hnone⟩
    · simp only [DeviceGrant.bound, Prod.mk.injEq] at hbound
      obtain ⟨hclient, hresource, howner, hceiling⟩ := hbound
      rw [hclient, hresource, howner, hceiling]
      exact h.device d g hg
    · refine ⟨fun i hi hkey => ?_, fun owner howner => ?_⟩
      · have hmem := h.drawn _ (h.approved i hi)
        rw [hkey] at hmem
        exact hfresh d hd hmem
      · rw [hnone] at howner
        cases howner
  · rw [happrovals]
    exact h.approved i (hissued ▸ hi)

theorem ApprovalSound.issue (h : ApprovalSound w) {key : Approval.Key} {a : Approval}
    {family : String} {now : Nat} (hcodes : CodesKept w.gateway w'.gateway)
    (hmarked : ∀ c g, key = .code c → w'.gateway.codes.get? c = some g → g.used = true)
    (hdevices : DevicesKept w.gateway e w'.gateway)
    (hremoved : ∀ d, key = .device d → w'.gateway.devices.get? d = none)
    (hfresh : ∀ x ∈ e.secrets, x ∉ w.drawn) (hsecret : family ∈ e.secrets)
    (hdrawn : w'.drawn = e.secrets ++ w.drawn) (ha : w.history.approval? key = some a)
    (hnew : ∀ i ∈ w.history.issued, i.approval.key ≠ key)
    (hhistory : w'.history = w.history.issue family key now)
    (htask : ∀ p r d, w'.task p = .authorizing r d → w.task p = .authorizing r d) :
    ApprovalSound w' := by
  have hissue : w.history.issue family key now =
      { w.history with issued := ⟨family, a, now + 7 * 24 * 60 * 60⟩ :: w.history.issued } := by
    unfold History.issue
    rw [ha]
  rw [hissue] at hhistory
  obtain ⟨hmem, hkey⟩ := approval?_some ha
  -- all but the new family is as behind a step that keeps the records
  have hkept : ApprovalSound { w' with history := w.history } :=
    h.of_kept hcodes hdevices hfresh (fun x hx => hdrawn ▸ List.mem_append_right _ hx)
      (fun _ hx => hx) rfl rfl fun p r d hp => h.authorizing p r d (htask p r d hp)
  have happroval : ∀ k, w'.history.approval? k = w.history.approval? k := by
    intro k
    rw [hhistory]
    rfl
  refine ⟨?_, ?_, ?_, fun c g hg => ⟨?_, ?_⟩, fun d g hg => ⟨?_, ?_⟩, ?_, ?_, ?_⟩
  · rw [hhistory]
    exact hkept.admitted
  · rw [hhistory]
    exact hkept.authorizing
  · rw [hhistory]
    exact hkept.drawn
  · rw [happroval]
    exact (hkept.code c g hg).1
  · rw [hhistory]
    rintro ⟨i, hi, hic⟩
    rcases List.mem_cons.1 hi with rfl | hi
    · exact hmarked c g (hkey.symm.trans hic) hg
    · exact (hkept.code c g hg).2 ⟨i, hi, hic⟩
  · rw [hhistory]
    intro i hi hid
    rcases List.mem_cons.1 hi with rfl | hi
    · rw [hremoved d (hkey.symm.trans hid)] at hg
      cases hg
    · exact (hkept.device d g hg).1 i hi hid
  · rw [happroval]
    exact (hkept.device d g hg).2
  · rw [hhistory]
    intro i hi
    rcases List.mem_cons.1 hi with rfl | hi
    · exact hmem
    · exact h.approved i hi
  · rw [hhistory]
    intro i hi
    rcases List.mem_cons.1 hi with rfl | hi
    · exact hdrawn ▸ List.mem_append_left _ hsecret
    · exact hkept.family i hi
  · rw [hhistory]
    refine List.pairwise_cons.2 ⟨fun i hi => ⟨?_, ?_⟩, h.once⟩
    · rintro rfl
      exact hfresh _ hsecret (h.family i hi)
    · intro heq
      exact hnew i hi (heq.symm.trans hkey)

theorem authorizing_old (hs : w.Steps config p e t w') (he : e ≠ .resolveCode) {q : Nat}
    {r : CodeRequest} {d : PolicyDecision} (hq : w'.task q = .authorizing r d) :
    w.task q = .authorizing r d := by
  rw [hs.task, Function.update_apply] at hq
  split at hq
  · have hrun := hs.run
    rw [hq] at hrun
    exact absurd (run_authorizing hrun).1 he
  · exact hq

theorem ApprovalSound.step_kept (h : ApprovalSound w) (hs : w.Steps config p e t w')
    (he : ∀ now code, e ≠ .insertCode now code) (hdevices : DevicesKept w.gateway e w'.gateway)
    (hsame : w.history.Same w'.history) (hresolve : e ≠ .resolveCode) : ApprovalSound w' :=
  h.of_kept (run_codes he hs.run) hdevices hs.fair.fresh.1 (fun _ => mem_drawn hs)
    (fun _ hx => hsame.admitted ▸ hx) hsame.approvals hsame.issued fun q r d hq =>
      hsame.admitted ▸ h.authorizing q r d (authorizing_old hs hresolve hq)

theorem ApprovalSound.step_resolve (h : ApprovalSound w) (hs : w.Steps config p .resolveCode t w') :
    ApprovalSound w' := by
  have hrun := hs.run
  have hhistory := hs.history
  generalize htask : w.task p = task at hrun hhistory
  cases task
  case resolving r =>
    simp only [Event.run] at hrun
    simp only [Event.record] at hhistory
    have hrest : w'.gateway = w.gateway → (∀ x ∈ w.history.admitted, x ∈ w'.history.admitted) →
        w'.history.approvals = w.history.approvals → w'.history.issued = w.history.issued →
        (∀ r d, t = .authorizing r d → (r.identity, d) ∈ w'.history.admitted) →
        ApprovalSound w' := by
      intro hgateway hadmitted happrovals hissued ht
      refine h.of_kept (.of_eq (congrArg GatewayState.codes hgateway))
        (fun d g hg => .inl ⟨g, hgateway ▸ hg, rfl⟩) hs.fair.fresh.1 (fun _ => mem_drawn hs)
        hadmitted happrovals hissued fun q r d hq => ?_
      rw [hs.task, Function.update_apply] at hq
      split at hq
      · exact ht r d hq
      · exact hadmitted _ (h.authorizing q r d hq)
    split at hrun
    · rename_i decision hresolve
      rw [hresolve] at hhistory
      obtain ⟨rfl, hgateway⟩ := Prod.mk.inj (Option.some.inj hrun)
      refine hrest hgateway.symm (fun x hx => ?_) (by rw [hhistory]; rfl) (by rw [hhistory]; rfl) ?_
      · rw [hhistory]
        exact List.mem_cons_of_mem _ hx
      · intro r' d heq
        cases heq
        rw [hhistory]
        exact List.mem_cons_self
    · rename_i hnone
      obtain ⟨rfl, hgateway⟩ := Prod.mk.inj (Option.some.inj hrun)
      have hsame : w'.history = w.history := by
        rw [hhistory]
        split
        · rename_i decision hresolve
          exact absurd hresolve (hnone decision)
        · rfl
      rw [hsame] at hrest
      exact hrest hgateway.symm (fun _ hx => hx) rfl rfl (by rintro _ _ ⟨⟩)
  all_goals cases hrun

theorem ApprovalSound.step_insert (h : ApprovalSound w) {now : Nat} {code : String}
    (hs : w.Steps config p (.insertCode now code) t w') : ApprovalSound w' := by
  have hrun := hs.run
  have hhistory := hs.history
  generalize htask : w.task p = task at hrun hhistory
  cases task
  case authorizing r d =>
    obtain ⟨rfl, hgateway⟩ := Prod.mk.inj (Option.some.inj hrun)
    have hhistory : w'.history = w.history.approve (.code code r d) := hhistory
    have hfresh : code ∉ w.drawn := hs.fair.fresh.1 code (by simp [Event.secrets])
    have hnew : code ∈ w'.drawn := by
      rw [hs.drawn]
      exact List.mem_append_left _ (by simp [Event.secrets])
    have hbound := run_bound (by simp) hs.run
    -- all but the new code is as behind a step that keeps the records
    have hkept : ApprovalSound { w' with
        gateway := { w'.gateway with codes := w.gateway.codes }, history := w.history } :=
      h.of_kept (.of_eq rfl) (fun d g hg => hbound d g hg) hs.fair.fresh.1 (fun _ => mem_drawn hs)
        (fun _ hx => hx) rfl rfl
        fun q r d hq => h.authorizing q r d (authorizing_old hs (by simp) hq)
    -- the code was never drawn: no approval has it as its key
    have hother : ∀ i ∈ w.history.issued, i.approval.key ≠ .code code := by
      intro i hi hkey
      have hmem := h.drawn _ (h.approved i hi)
      rw [hkey] at hmem
      exact hfresh hmem
    have happrovals : w'.history.approvals = .code code r d :: w.history.approvals :=
      congrArg History.approvals hhistory
    have hissued : w'.history.issued = w.history.issued := by rw [hhistory]; rfl
    have hadmitted : w'.history.admitted = w.history.admitted := by rw [hhistory]; rfl
    refine ⟨fun a ha => ?_, hadmitted ▸ hkept.authorizing, fun a ha => ?_, fun c g hg => ?_,
      fun dev g hg => ?_, fun i hi => ?_, hissued ▸ hkept.family, hissued ▸ h.once⟩
    · rw [hadmitted]
      rcases List.mem_cons.1 (happrovals ▸ ha) with rfl | ha
      · exact h.authorizing p r d htask
      · exact h.admitted a ha
    · rcases List.mem_cons.1 (happrovals ▸ ha) with rfl | ha
      · exact hnew
      · exact hkept.drawn a ha
    · rw [hissued, hhistory, approval?_approve]
      rw [← hgateway] at hg
      simp only [insertCode, OrdMap.get?_insert, prune_codes, OrdMap.get?_filter] at hg
      split at hg
      · rename_i hc
        subst hc
        cases hg
        refine ⟨⟨r, d, if_pos rfl, rfl, rfl, rfl, rfl, rfl, rfl⟩, ?_⟩
        rintro ⟨i, hi, hkey⟩
        exact absurd hkey (hother i hi)
      · rename_i hc
        rw [if_neg (by simpa [Approval.key] using fun heq => hc heq.symm)]
        exact h.code c g (Option.filter_eq_some_iff.1 hg).1
    · rw [hissued, hhistory, approval?_approve, if_neg (by simp [Approval.key])]
      exact hkept.device dev g hg
    · rw [happrovals]
      exact List.mem_cons_of_mem _ (h.approved i (hissued ▸ hi))
  all_goals cases hrun

theorem ApprovalSound.step_approve (h : ApprovalSound w) (hsound : DeviceSound w)
    (hs : w.Steps config p e t w') {d : String} {g : DeviceGrant} {identity : VerifiedIdentity}
    {decision : PolicyDecision} (hget : w.gateway.devices.get? d = some g)
    (hinsert : ∀ now code, e ≠ .insertCode now code) (hresolve : e ≠ .resolveCode)
    (hdevices : ∀ k g', w'.gateway.devices.get? k = some g' →
      (k ≠ d ∧ w.gateway.devices.get? k = some g') ∨ k = d ∧ g' = g.approved decision)
    (hhistory : w'.history = (w.history.accept identity decision).approve
      (.device d g.clientId g.resource identity decision)) : ApprovalSound w' := by
  have hcodes := run_codes hinsert hs.run
  have hkept : ApprovalSound { w' with
      gateway := { w'.gateway with devices := w.gateway.devices }, history := w.history } :=
    h.of_kept (e := e) (fun c g hg => hcodes c g hg) (fun d g hg => .inl ⟨g, hg, rfl⟩) hs.fair.fresh.1
      (fun _ => mem_drawn hs) (fun _ hx => hx) rfl rfl
      fun q r d hq => h.authorizing q r d (authorizing_old hs hresolve hq)
  have happrovals : w'.history.approvals =
      .device d g.clientId g.resource identity decision :: w.history.approvals := by
    rw [hhistory]
    rfl
  have hissued : w'.history.issued = w.history.issued := by rw [hhistory]; rfl
  have hadmitted : w'.history.admitted = (identity, decision) :: w.history.admitted := by
    rw [hhistory]
    rfl
  have happroval : ∀ key, w'.history.approval? key =
      if .device d = key then some (.device d g.clientId g.resource identity decision)
      else w.history.approval? key := by
    intro key
    rw [hhistory, approval?_approve]
    rfl
  refine ⟨fun a ha => ?_, fun q r d' hq => ?_, fun a ha => ?_, fun c g' hg' => ?_,
    fun k g' hg' => ?_, fun i hi => ?_, hissued ▸ hkept.family, hissued ▸ h.once⟩
  · rw [hadmitted]
    rcases List.mem_cons.1 (happrovals ▸ ha) with rfl | ha
    · exact List.mem_cons_self
    · exact List.mem_cons_of_mem _ (h.admitted a ha)
  · rw [hadmitted]
    exact List.mem_cons_of_mem _ (hkept.authorizing q r d' hq)
  · rcases List.mem_cons.1 (happrovals ▸ ha) with rfl | ha
    · exact mem_drawn hs (hsound.code d g hget)
    · exact hkept.drawn a ha
  · rw [hissued, happroval, if_neg (by simp)]
    exact hkept.code c g' hg'
  · rw [hissued, happroval]
    rcases hdevices k g' hg' with ⟨hk, hold⟩ | ⟨rfl, rfl⟩
    · rw [if_neg (by simpa using fun heq => hk heq.symm)]
      exact h.device k g' hold
    · refine ⟨(h.device k g hget).1, fun owner howner => ⟨identity, decision, if_pos rfl, ?_, rfl⟩⟩
      cases howner
      rfl
  · rw [happrovals]
    exact List.mem_cons_of_mem _ (h.approved i (hissued ▸ hi))

theorem devicesKept_modify {s s' : GatewayState} {d : String} {f : DeviceGrant → DeviceGrant}
    (hs' : s'.devices = s.devices.modify d f) (hf : ∀ g, (f g).bound = g.bound) :
    DevicesKept s e s' := by
  intro k g' hg'
  rw [hs', OrdMap.get?_modify] at hg'
  split at hg'
  · rename_i hk
    obtain ⟨g, hg, rfl⟩ := Option.map_eq_some_iff.1 hg'
    exact .inl ⟨g, hk ▸ hg, hf g⟩
  · exact .inl ⟨g', hg', rfl⟩

theorem verifyDevice_cases {s : GatewayState} {now : Nat} {policy : Policy} {userCode : String}
    {identity : VerifiedIdentity} {consent : Bool} :
    (∃ d g decision, s.findDevice? userCode = some (d, g) ∧
      policy.resolve identity = .ok (some decision) ∧ consent = true ∧
      (s.verifyDevice now policy.resolve userCode identity consent).1 = .ok decision.admission ∧
      (s.verifyDevice now policy.resolve userCode identity consent).2.devices =
        s.devices.modify d (DeviceGrant.approved decision)) ∨
    (∃ err, (s.verifyDevice now policy.resolve userCode identity consent).1 = .error err) ∧
      DevicesKept s e (s.verifyDevice now policy.resolve userCode identity consent).2 := by
  have hkept : DevicesKept s e s := fun d g hg => .inl ⟨g, hg, rfl⟩
  unfold verifyDevice
  split
  · exact .inr ⟨⟨_, rfl⟩, hkept⟩
  · rename_i hconsent
    split
    · exact .inr ⟨⟨_, rfl⟩, hkept⟩
    · rename_i d g hfind
      split
      · exact .inr ⟨⟨_, rfl⟩, hkept⟩
      · dsimp only
        split
        · exact .inr ⟨⟨_, rfl⟩, devicesKept_modify (f := DeviceGrant.tried) rfl fun _ => rfl⟩
        · split
          · exact .inr ⟨⟨_, rfl⟩, devicesKept_modify (f := DeviceGrant.tried) rfl fun _ => rfl⟩
          · rename_i decision hresolve
            exact .inl ⟨d, g, decision, hfind, hresolve, by simpa using hconsent, rfl,
              modify_tried s d fun g =>
                { g with owner := some decision.admission, roleCeiling := some decision.role }⟩
          · exact .inr ⟨⟨_, rfl⟩, devicesKept_modify (f := DeviceGrant.refused)
              (modify_tried s d fun g => { g with denied := true, notAdmitted := true }) fun _ => rfl⟩

theorem ApprovalSound.step_verify (h : ApprovalSound w) (hsound : DeviceSound w) {now : Nat}
    (hs : w.Steps config p (.verifyDevice now) t w') : ApprovalSound w' := by
  have hrun := hs.run
  have hhistory := hs.history
  generalize htask : w.task p = task at hrun hhistory
  cases task
  case verifyingDevice attempt userCode identity consent =>
    obtain ⟨rfl, hgateway⟩ := Prod.mk.inj (Option.some.inj hrun)
    simp only [Event.record] at hhistory
    rcases @verifyDevice_cases (.verifyDevice now) w.gateway now w.policy userCode identity consent with
      ⟨d, g, decision, hfind, hresolve, -, hok, hdevices⟩ | ⟨⟨err, herr⟩, hkept⟩
    · rw [hok, hfind, hresolve] at hhistory
      have hget := (findDevice?_some hfind).1
      refine h.step_approve hsound hs hget (by simp) (by simp) (fun k g' hg' => ?_) hhistory
      rw [← hgateway, hdevices, OrdMap.get?_modify] at hg'
      split at hg'
      · rename_i hk
        rw [hget] at hg'
        cases hg'
        exact .inr ⟨hk, rfl⟩
      · rename_i hk
        exact .inl ⟨hk, hg'⟩
    · rw [herr] at hhistory
      exact h.step_kept hs (by simp) (hgateway ▸ hkept) (hhistory ▸ .refl _) (by simp)
  all_goals cases hrun

/-- **One step keeps the approvals sound.** -/
theorem ApprovalSound.step (h : ApprovalSound w) (hsound : DeviceSound w)
    (hs : w.Steps config p e t w') : ApprovalSound w' := by
  have hrun := hs.run
  have hhistory := hs.history
  cases e
  case resolveCode => exact h.step_resolve hs
  case insertCode now code => exact h.step_insert hs
  case verifyDevice now => exact h.step_verify hsound hs
  case exchangeCode now family secrets code clientId redirectUri verifier resource =>
    generalize htask : w.task p = task at hrun hhistory
    cases task
    case idle =>
      obtain ⟨rfl, hgateway⟩ := Prod.mk.inj (Option.some.inj hrun)
      simp only [Event.record] at hhistory
      generalize hresult : w.gateway.exchangeCode config w.policy.roleForOwner now family secrets code
        clientId redirectUri verifier resource = result at hgateway hhistory
      obtain ⟨_ | response, s'⟩ := result
      · exact h.step_kept hs (by simp) (run_bound (by simp) hs.run) (hhistory ▸ .refl _) (by simp)
      · obtain ⟨g, hget, hredeems, -, hused⟩ := exchangeCode_ok hresult
        obtain ⟨⟨r, d, ha, -⟩, hfamily⟩ := h.code code g hget
        refine h.issue (run_codes (by simp) hs.run) (fun c g' hc hg' => ?_)
          (run_bound (by simp) hs.run) (by simp) hs.fair.fresh.1 (by simp [Event.secrets]) hs.drawn
          ha (fun i hi hkey => ?_) hhistory fun q r d hq => authorizing_old hs (by simp) hq
        · cases hc
          exact hused g' (by rw [← hgateway] at hg'; exact hg')
        · have := hfamily ⟨i, hi, hkey⟩
          rw [hredeems.1] at this
          cases this
    all_goals cases hrun
  case pollDevice now pollTime family secrets =>
    generalize htask : w.task p = task at hrun hhistory
    cases task
    case polling d =>
      obtain ⟨rfl, hgateway⟩ := Prod.mk.inj (Option.some.inj hrun)
      simp only [Event.record] at hhistory
      generalize hresult : w.gateway.pollDevice w.policy.roleForOwner now pollTime family secrets d =
        result at hgateway hhistory
      obtain ⟨_ | response, s'⟩ := result
      · exact h.step_kept hs (by simp) (run_bound (by simp) hs.run) (hhistory ▸ .refl _) (by simp)
      · obtain ⟨g, owner, roleCeiling, hget, -, howner, -, -, hnone⟩ := pollDevice_ok hresult
        obtain ⟨hfamily, happroved⟩ := h.device d g hget
        obtain ⟨identity, decision, ha, -⟩ := happroved owner howner
        refine h.issue (run_codes (by simp) hs.run) (by simp) (run_bound (by simp) hs.run)
          (fun d' hd' => ?_) hs.fair.fresh.1 (by simp [Event.secrets]) hs.drawn ha hfamily hhistory
          fun q r d hq => authorizing_old hs (by simp) hq
        cases hd'
        rw [← hgateway]
        exact hnone
    all_goals cases hrun
  case refreshIssue now secrets =>
    refine h.step_kept hs (by simp) (run_bound (by simp) hs.run) ?_ (by simp)
    rw [hhistory]
    unfold Event.record
    split
    all_goals first | exact .refl _ | contradiction
  all_goals
    exact h.step_kept hs (by simp) (run_bound (by simp) hs.run)
      (hhistory ▸ record_same rfl) (by simp)

theorem issued_issue {h : History} {family : String} {key : Approval.Key} {now : Nat} {i : Issued}
    (hi : i ∈ h.issued) : i ∈ (h.issue family key now).issued := by
  unfold History.issue
  split
  · exact hi
  · exact List.mem_cons_of_mem _ hi

theorem World.Steps.issued (hs : w.Steps config p e t w') {i : Issued}
    (hi : i ∈ w.history.issued) : i ∈ w'.history.issued := by
  rw [hs.history]
  unfold Event.record
  split
  all_goals
    repeat' split
    all_goals first | exact hi | exact issued_issue hi

theorem TokensTraced.of_renewed (h : TokensTraced w) (hs : w.Steps config p e t w')
    (hrefresh : ∀ k g', w'.gateway.refresh.get? k = some g' →
      (∃ g, w.gateway.refresh.get? k = some g ∧ g'.terms = g.terms ∧ g'.expires = g.expires) ∨
        ∃ i ∈ w'.history.issued, g'.terms = i.terms ∧ g'.expires = i.expires)
    (haccess : ∀ k g', w'.gateway.access.get? k = some g' →
      (∃ g, w.gateway.access.get? k = some g ∧ g'.terms = g.terms) ∨
        ∃ i ∈ w'.history.issued, g'.terms = i.terms) : TokensTraced w' := by
  refine ⟨fun k g' hg' => ?_, fun k g' hg' => ?_, fun q taken hq => ?_, fun q g hq => ?_⟩
  · rcases hrefresh k g' hg' with ⟨g, hg, hterms, hexpires⟩ | hnew
    · obtain ⟨i, hi, ht, hx⟩ := h.refresh k g hg
      exact ⟨i, hs.issued hi, hterms.trans ht, hexpires.trans hx⟩
    · exact hnew
  · rcases haccess k g' hg' with ⟨g, hg, hterms⟩ | hnew
    · obtain ⟨i, hi, ht⟩ := h.access k g hg
      exact ⟨i, hs.issued hi, hterms.trans ht⟩
    · exact hnew
  · rw [hs.task, Function.update_apply] at hq
    split at hq
    · rcases run_takenKept hs.run taken hq with hold | ⟨k, g, hg, hterms, hexpires⟩
      · obtain ⟨i, hi, ht⟩ := h.taken p taken hold
        exact ⟨i, hs.issued hi, ht⟩
      · obtain ⟨i, hi, ht, hx⟩ := h.refresh k g hg
        exact ⟨i, hs.issued hi, hterms.trans ht, hexpires.trans hx⟩
    · obtain ⟨i, hi, ht⟩ := h.taken q taken hq
      exact ⟨i, hs.issued hi, ht⟩
  · rw [hs.task, Function.update_apply] at hq
    split at hq
    · have hrun := hs.run
      rw [hq] at hrun
      obtain ⟨_, token, -, hg, -⟩ := run_checking hrun
      obtain ⟨i, hi, ht⟩ := h.access token g hg
      exact ⟨i, hs.issued hi, ht⟩
    · obtain ⟨i, hi, ht⟩ := h.checking q g hq
      exact ⟨i, hs.issued hi, ht⟩

theorem TokensTraced.of_kept (h : TokensTraced w) (hs : w.Steps config p e t w')
    (hkept : TokensKept w.gateway w'.gateway) : TokensTraced w' :=
  h.of_renewed hs (fun k g' hg' => .inl (hkept.refresh k g' hg'))
    fun k g' hg' => .inl (hkept.access k g' hg')

theorem TokensTraced.renew (h : TokensTraced w) (hs : w.Steps config p e t w') {i : Issued}
    (hi : i ∈ w'.history.issued) (hrenewed : Renewed w.gateway w'.gateway i.terms i.expires) :
    TokensTraced w' :=
  h.of_renewed hs
    (fun k g' hg' => (hrenewed.refresh k g' hg').imp_right fun hnew => ⟨i, hi, hnew⟩)
    fun k g' hg' => (hrenewed.access k g' hg').imp_right fun hnew => ⟨i, hi, hnew⟩

theorem issue_of_approval {h : History} {family : String} {key : Approval.Key} {now : Nat}
    {a : Approval} (ha : h.approval? key = some a) :
    (⟨family, a, now + 7 * 24 * 60 * 60⟩ : Issued) ∈ (h.issue family key now).issued := by
  unfold History.issue
  rw [ha]
  exact List.mem_cons_self

/-- **One step keeps the tokens traced.** -/
theorem TokensTraced.step (h : TokensTraced w) (hsound : ApprovalSound w)
    (hs : w.Steps config p e t w') : TokensTraced w' := by
  have hrun := hs.run
  have hhistory := hs.history
  cases e
  case exchangeCode now family secrets code clientId redirectUri verifier resource =>
    generalize htask : w.task p = task at hrun hhistory
    cases task
    case idle =>
      obtain ⟨rfl, hgateway⟩ := Prod.mk.inj (Option.some.inj hrun)
      simp only [Event.record] at hhistory
      generalize hresult : w.gateway.exchangeCode config w.policy.roleForOwner now family secrets code
        clientId redirectUri verifier resource = result at hgateway hhistory
      obtain ⟨_ | response, s'⟩ := result
      · exact h.of_kept hs (hgateway ▸ exchangeCode_error hresult)
      · obtain ⟨g, hget, -, hrenewed, -⟩ := exchangeCode_ok hresult
        obtain ⟨⟨r, d, ha, hfor⟩, -⟩ := hsound.code code g hget
        have hissue : w'.history = w.history.issue family (.code code) now := hhistory
        have hi := @issue_of_approval w.history family _ now _ ha
        rw [← hissue] at hi
        refine h.renew hs hi ?_
        rw [hfor.owner, hfor.roleCeiling, hfor.resource] at hrenewed
        exact hgateway ▸ hrenewed
    all_goals cases hrun
  case pollDevice now pollTime family secrets =>
    generalize htask : w.task p = task at hrun hhistory
    cases task
    case polling d =>
      obtain ⟨rfl, hgateway⟩ := Prod.mk.inj (Option.some.inj hrun)
      simp only [Event.record] at hhistory
      generalize hresult : w.gateway.pollDevice w.policy.roleForOwner now pollTime family secrets d =
        result at hgateway hhistory
      obtain ⟨_ | response, s'⟩ := result
      · exact h.of_kept hs (hgateway ▸ pollDevice_error hresult)
      · obtain ⟨g, owner, roleCeiling, hget, -, howner, hceiling, hrenewed, -⟩ :=
          pollDevice_ok hresult
        obtain ⟨identity, decision, ha, hadmission, hrole⟩ := (hsound.device d g hget).2 owner howner
        have hissue : w'.history = w.history.issue family (.device d) now := hhistory
        have hi := @issue_of_approval w.history family _ now _ ha
        rw [← hissue] at hi
        refine h.renew hs hi ?_
        rw [hceiling] at hrole
        cases hrole
        rw [hadmission] at hrenewed
        exact hgateway ▸ hrenewed
    all_goals cases hrun
  case refreshIssue now secrets =>
    generalize htask : w.task p = task at hrun hhistory
    cases task
    case issuing taken =>
      obtain ⟨rfl, hgateway⟩ := Prod.mk.inj (Option.some.inj hrun)
      obtain ⟨i, hi, hterms, hexpires⟩ := h.taken p taken (by rw [htask]; rfl)
      refine h.renew hs (hs.issued hi) ?_
      rw [← hterms, ← hexpires, ← hgateway]
      exact renewed_issue (.refl _)
    all_goals cases hrun
  all_goals exact h.of_kept hs (run_tokensKept (by simp [Event.tokenless, Event.grants]) hs.run)

/-! ## Reachable worlds -/

theorem approvalSound_reachable (h : (machine config).Reachable w) : ApprovalSound w := by
  refine h.invariant ?_ fun a l b ha hsound hstep => ?_
  · rintro a ⟨hgateway, htask, -, hhistory⟩
    constructor <;> simp [hgateway, GatewayState.empty, htask, hhistory, History.empty]
  · rcases step_cases hstep with ⟨p, e, t, rfl, hs⟩ | ⟨policy, rfl, rfl⟩ | ⟨p, rfl, rfl⟩
    · exact hsound.step (deviceSound_reachable ha) hs
    · obtain ⟨h₁, h₂, h₃, h₄, h₅, h₆, h₇, h₈⟩ := hsound
      exact ⟨h₁, h₂, h₃, h₄, h₅, h₆, h₇, h₈⟩
    · refine ⟨hsound.admitted, fun q r d hq => ?_, hsound.drawn, hsound.code, hsound.device,
        hsound.approved, hsound.family, hsound.once⟩
      simp only [Function.update_apply] at hq
      split at hq
      · cases hq
      · exact hsound.authorizing q r d hq

theorem tokensTraced_reachable (h : (machine config).Reachable w) : TokensTraced w := by
  refine h.invariant ?_ fun a l b ha htraced hstep => ?_
  · rintro a ⟨hgateway, htask, -, hhistory⟩
    constructor <;> simp [hgateway, GatewayState.empty, htask, hhistory, Task.taken?]
  · rcases step_cases hstep with ⟨p, e, t, rfl, hs⟩ | ⟨policy, rfl, rfl⟩ | ⟨p, rfl, rfl⟩
    · exact htraced.step (approvalSound_reachable ha) hs
    · obtain ⟨h₁, h₂, h₃, h₄⟩ := htraced
      exact ⟨h₁, h₂, h₃, h₄⟩
    · refine ⟨htraced.refresh, htraced.access, fun q taken hq => ?_, fun q g hq => ?_⟩
      · simp only [Function.update_apply] at hq
        split at hq
        · cases hq
        · exact htraced.taken q taken hq
      · simp only [Function.update_apply] at hq
        split at hq
        · cases hq
        · exact htraced.checking q g hq

/-! ## What a step records -/

/-- A step redeems an approval: whoever takes it presents what the approval is bound to. -/
inductive Redeemed (config : GatewayConfig) (w : World) : Label → Issued → Prop where
  | code {p now : Nat} {family code verifier : String} {secrets : TokenSecrets} {r : CodeRequest}
      {d : PolicyDecision} {g : CodeGrant} (hget : w.gateway.codes.get? code = some g)
      (hunused : g.used = false) (hlive : now ≤ g.expires)
      (hchallenge : config.pkce verifier = r.challenge) :
      Redeemed config w (.step p (.exchangeCode now family secrets code r.clientId r.redirectUri
        verifier r.resource)) ⟨family, .code code r d, now + 7 * 24 * 60 * 60⟩
  | device {p now pollTime : Nat} {family d : String} {secrets : TokenSecrets}
      {identity : VerifiedIdentity} {decision : PolicyDecision} {g : DeviceGrant}
      (htask : w.task p = .polling d) (hget : w.gateway.devices.get? d = some g)
      (hredeemable : Redeemable w.policy g now pollTime) :
      Redeemed config w (.step p (.pollDevice now pollTime family secrets))
        ⟨family, .device d g.clientId g.resource identity decision, now + 7 * 24 * 60 * 60⟩

/-- A step approves, with the consent its request holds, what the policy admits. -/
inductive Approved (w : World) : Label → Approval → Prop where
  | code {p now : Nat} {code : String} {r : CodeRequest} {d : PolicyDecision}
      (htask : w.task p = .authorizing r d) :
      Approved w (.step p (.insertCode now code)) (.code code r d)
  | device {p now : Nat} {attempt : Option String} {userCode d : String}
      {identity : VerifiedIdentity} {decision : PolicyDecision} {g : DeviceGrant}
      (htask : w.task p = .verifyingDevice attempt userCode identity true)
      (hfind : w.gateway.findDevice? userCode = some (d, g)) :
      Approved w (.step p (.verifyDevice now)) (.device d g.clientId g.resource identity decision)

/-- What a step adds to the history, and the consent it needs. -/
structure Records (config : GatewayConfig) (w : World) (l : Label) (w' : World) : Prop where
  admitted : ∀ x ∈ w'.history.admitted,
    x ∈ w.history.admitted ∨ w.policy.resolve x.1 = .ok (some x.2)
  approvals : ∀ a ∈ w'.history.approvals, a ∈ w.history.approvals ∨ Approved w l a
  issued : ∀ i ∈ w'.history.issued, i ∈ w.history.issued ∨ Redeemed config w l i
  consented : ∀ p, (w'.task p).consented = true →
    (w.task p).consented = true ∨ ∃ e, l = .step p e ∧ e.consents = true

theorem issue_admitted {h : History} (family : String) (key : Approval.Key) (now : Nat) :
    (h.issue family key now).admitted = h.admitted := by
  unfold History.issue
  split <;> rfl

theorem issue_approvals {h : History} (family : String) (key : Approval.Key) (now : Nat) :
    (h.issue family key now).approvals = h.approvals := by
  unfold History.issue
  split <;> rfl

theorem record_admitted {policy : Policy} {s : GatewayState} {task : Task} {h : History}
    {x : VerifiedIdentity × PolicyDecision}
    (hx : x ∈ (e.record config policy s task h).admitted) :
    x ∈ h.admitted ∨ policy.resolve x.1 = .ok (some x.2) := by
  have haccept : ∀ {identity : VerifiedIdentity} {decision : PolicyDecision},
      policy.resolve identity = .ok (some decision) → x ∈ (identity, decision) :: h.admitted →
        x ∈ h.admitted ∨ policy.resolve x.1 = .ok (some x.2) := by
    intro identity decision hresolve hx
    rcases List.mem_cons.1 hx with rfl | hx
    · exact .inr hresolve
    · exact .inl hx
  unfold Event.record at hx
  split at hx
  all_goals
    repeat' split at hx
    all_goals first
      | exact .inl hx
      | exact .inl (issue_admitted _ _ _ ▸ hx)
      | exact haccept ‹_› hx

/-- Only the insertion of a code and a verification that succeeds approve. -/
theorem World.Steps.approved (hs : w.Steps config p e t w') {a : Approval}
    (ha : a ∈ w'.history.approvals) : a ∈ w.history.approvals ∨ Approved w (.step p e) a := by
  rw [hs.history] at ha
  generalize htask : w.task p = task at ha
  unfold Event.record at ha
  split at ha
  case h_2 code r decision =>
    rcases List.mem_cons.1 ha with rfl | ha
    · exact .inr (.code htask)
    · exact .inl ha
  case h_4 now attempt userCode identity consent =>
    rcases @verifyDevice_cases (.verifyDevice now) w.gateway now w.policy userCode identity consent with
      ⟨d, g, decision, hfind, hresolve, rfl, hok, -⟩ | ⟨⟨err, herr⟩, -⟩
    · rw [hok, hfind, hresolve] at ha
      rcases List.mem_cons.1 ha with rfl | ha
      · exact .inr (.device htask hfind)
      · exact .inl ha
    · rw [herr] at ha
      exact .inl ha
  all_goals
    repeat' split at ha
    all_goals first
      | exact .inl ha
      | exact .inl (issue_approvals _ _ _ ▸ ha)

theorem mem_issue {h : History} {family : String} {key : Approval.Key} {now : Nat} {i : Issued}
    (hi : i ∈ (h.issue family key now).issued) :
    i ∈ h.issued ∨ ∃ a, h.approval? key = some a ∧ i = ⟨family, a, now + 7 * 24 * 60 * 60⟩ := by
  unfold History.issue at hi
  split at hi
  · exact .inl hi
  · rename_i a ha
    rcases List.mem_cons.1 hi with rfl | hi
    · exact .inr ⟨a, ha, rfl⟩
    · exact .inl hi

theorem World.Steps.redeemed (hs : w.Steps config p e t w') (hsound : ApprovalSound w) {i : Issued}
    (hi : i ∈ w'.history.issued) : i ∈ w.history.issued ∨ Redeemed config w (.step p e) i := by
  rw [hs.history] at hi
  generalize htask : w.task p = task at hi
  unfold Event.record at hi
  split at hi
  case h_3 now family secrets code clientId redirectUri verifier resource =>
    generalize hresult : w.gateway.exchangeCode config w.policy.roleForOwner now family secrets code
      clientId redirectUri verifier resource = result at hi
    obtain ⟨_ | response, s'⟩ := result
    · exact .inl hi
    · refine (mem_issue hi).imp_right ?_
      rintro ⟨a, ha, rfl⟩
      obtain ⟨g, hget, ⟨hunused, hlive, hclient, hredirect, hresource, hchallenge⟩, -⟩ :=
        exchangeCode_ok hresult
      obtain ⟨⟨r, d, ha', hfor⟩, -⟩ := hsound.code code g hget
      rw [ha] at ha'
      cases ha'
      rw [← hclient, ← hredirect, ← hresource, hfor.clientId, hfor.redirectUri, hfor.resource]
      exact .code hget hunused hlive (hchallenge.symm.trans hfor.challenge)
  case h_5 now pollTime family secrets d =>
    generalize hresult : w.gateway.pollDevice w.policy.roleForOwner now pollTime family secrets d =
      result at hi
    obtain ⟨_ | response, s'⟩ := result
    · exact .inl hi
    · refine (mem_issue hi).imp_right ?_
      rintro ⟨a, ha, rfl⟩
      obtain ⟨g, owner, roleCeiling, hget, hredeemable, howner, -⟩ := pollDevice_ok hresult
      obtain ⟨identity, decision, ha', -⟩ := (hsound.device d g hget).2 owner howner
      rw [ha] at ha'
      cases ha'
      exact .device htask hget hredeemable
  all_goals
    repeat' split at hi
    all_goals exact .inl hi

theorem records_step {l : Label} (hw : (machine config).Reachable w)
    (hstep : (machine config).Step w l w') : Records config w l w' := by
  rcases step_cases hstep with ⟨p, e, t, rfl, hs⟩ | ⟨policy, rfl, rfl⟩ | ⟨p, rfl, rfl⟩
  · refine ⟨fun x hx => record_admitted (hs.history ▸ hx), fun a => hs.approved,
      fun i => hs.redeemed (approvalSound_reachable hw), fun q hq => ?_⟩
    rw [hs.task, Function.update_apply] at hq
    split at hq
    · rename_i hqp
      subst hqp
      exact (run_consented hs.run hq).symm.imp_right fun he => ⟨e, rfl, he⟩
    · exact .inl hq
  · exact ⟨fun _ => .inl, fun _ => .inl, fun _ => .inl, fun _ => .inl⟩
  · refine ⟨fun _ => .inl, fun _ => .inl, fun _ => .inl, fun q hq => ?_⟩
    simp only [Function.update_apply] at hq
    split at hq
    · cases hq
    · exact .inl hq

/-- What `authorize_rest_role` checks before it answers a role. -/
structure RestChecks (w : World) (l : Label) (w' : World) : Prop where
  /-- The token is live and of the resource that is asked for. -/
  checking : ∀ p g, w'.task p = .checkingRest g → w.task p = .checkingRest g ∨
    ∃ now token, l = .step p (.checkRest now token g.resource) ∧
      w.gateway.access.get? token = some g ∧ g.revoked = false ∧ now ≤ g.expires
  /-- The role is within the ceiling of the token and the role the policy has now. -/
  authorized : ∀ p owner role, w'.task p = .authorized owner role →
    w.task p = .authorized owner role ∨ ∃ g current, w.task p = .checkingRest g ∧
      l = .step p .restPolicy ∧ owner = g.owner ∧
      w.policy.roleForOwner owner.owner.id = .ok (some current) ∧
      role.rank ≤ g.roleCeiling.rank ∧ role.rank ≤ current.rank ∧ role ≠ .admin

theorem restPolicy_of_checking {s s' : GatewayState} {policy : Policy} {g : AccessGrant}
    (hrun : e.run config policy s (.checkingRest g) = some (t, s')) : e = .restPolicy := by
  unfold Event.run at hrun
  split at hrun
  any_goals rfl
  all_goals contradiction

theorem restChecks_step {l : Label} (hstep : (machine config).Step w l w') : RestChecks w l w' := by
  rcases step_cases hstep with ⟨p, e, t, rfl, hs⟩ | ⟨policy, rfl, rfl⟩ | ⟨p, rfl, rfl⟩
  · have hrun := hs.run
    refine ⟨fun q g hq => ?_, fun q owner role hq => ?_⟩
    · rw [hs.task, Function.update_apply] at hq
      split at hq
      · rename_i hqp
        subst hqp
        rw [hq] at hrun
        obtain ⟨now, token, rfl, hget, hrevoked, hlive⟩ := run_checking hrun
        exact .inr ⟨now, token, rfl, hget, hrevoked, hlive⟩
      · exact .inl hq
    · rw [hs.task, Function.update_apply] at hq
      split at hq
      · rename_i hqp
        subst hqp
        rw [hq] at hrun
        obtain ⟨g, htask, rfl, hrole⟩ := run_authorized hrun
        rw [htask] at hrun
        obtain rfl := restPolicy_of_checking hrun
        obtain ⟨current, hcurrent, hceiling, hrank, hadmin⟩ := effectiveRole_ok hrole
        exact .inr ⟨g, current, htask, rfl, rfl, hcurrent, hceiling, hrank, hadmin⟩
      · exact .inl hq
  · exact ⟨fun _ _ => .inl, fun _ _ _ => .inl⟩
  · refine ⟨fun q g hq => ?_, fun q owner role hq => ?_⟩ <;>
      simp only [Function.update_apply] at hq <;> split at hq <;> first | contradiction | exact .inl hq

/-- **Every token traces to one approval and never exceeds it.** In every reachable world each token,
and each request that holds one, has the owner, the role ceiling, the resource and (where it
refreshes) the expiry that its family was issued with; a family is for an approval of an identity
the policy admitted, and no two share their name or the secret that redeems them. Every step that
approves holds a consent, every step that issues redeems, and a role that is answered is within the
ceiling and the current role. -/
theorem tokens_within_approvals (config : GatewayConfig) :
    (∀ w, (machine config).Reachable w → TokensTraced w ∧
      (∀ i ∈ w.history.issued, i.approval ∈ w.history.approvals ∧
        (i.approval.identity, i.approval.decision) ∈ w.history.admitted) ∧
      w.history.issued.Pairwise fun i j => i.family ≠ j.family ∧ i.approval.key ≠ j.approval.key) ∧
    (∀ w l w', (machine config).Reachable w → (machine config).Step w l w' →
      Records config w l w' ∧ RestChecks w l w') ∧
    ∀ w l a, Approved w l a → ∃ p e, l = .step p e ∧ (w.task p).consented = true := by
  refine ⟨fun w hw => ?_, fun w l w' hw hstep => ⟨records_step hw hstep, restChecks_step hstep⟩, ?_⟩
  · have hsound := approvalSound_reachable hw
    refine ⟨tokensTraced_reachable hw, fun i hi => ?_, hsound.once⟩
    have happroved := hsound.approved i hi
    exact ⟨happroved, hsound.admitted _ happroved⟩
  · rintro w l a ⟨htask⟩
    · exact ⟨_, _, rfl, by rw [htask]; rfl⟩
    · exact ⟨_, _, rfl, by rw [‹w.task _ = _›]; rfl⟩

end

end AgentPalace.Hub
