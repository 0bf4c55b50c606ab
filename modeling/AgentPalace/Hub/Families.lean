import AgentPalace.Hub.Frames

/-!
# Token families

`TokenEffect` says what one step can do to the tokens. A refresh that has marked
its token holds the family (`Task.taken?`) until it issues the successor or
gives up; meanwhile the family has no refresh token that is not revoked, so
nobody else can take one. What the refresh does not look at again is whether the
family was revoked while it did not hold the lock.
-/

namespace AgentPalace.Hub

open GatewayState
open OrdMap (Shrinks)

/-- What a refresh between its two lock sections has taken. -/
def Task.taken? : Task → Option RefreshTaken
  | .refreshing taken | .issuing taken | .refusing taken => some taken
  | _ => none

/-- What a step of a request can do to the tokens. -/
inductive TokenEffect (s : GatewayState) (task : Task) (e : Event) (revoked : List String) :
    Task → GatewayState → List String → Prop where
  | quiet {task' : Task} {s' : GatewayState} (hrefresh : Shrinks s.refresh s'.refresh)
      (haccess : Shrinks s.access s'.access)
      (htask : task'.taken? = none ∨ task'.taken? = task.taken?) :
      TokenEffect s task e revoked task' s' revoked
  | issued {task' : Task} {s' s₀ : GatewayState} {family : String} {secrets : TokenSecrets}
      {owner : AdmissionIdentity} {roleCeiling : AccessRole} {resource : String}
      {now expires : Nat} (hrefresh : Shrinks s.refresh s₀.refresh)
      (haccess : Shrinks s.access s₀.access)
      (hs : s'.refresh = (s₀.issueWithFamily now secrets family owner roleCeiling resource
        expires).2.refresh ∧ s'.access = (s₀.issueWithFamily now secrets family owner roleCeiling
        resource expires).2.access)
      (hfamily : family ∈ e.secrets ∨ ∃ taken now secrets, e = .refreshIssue now secrets ∧
        task = .issuing taken ∧ taken.family = family)
      (htask : task'.taken? = none) :
      TokenEffect s task e revoked task' s' revoked
  | taken {token : String} {g : RefreshGrant} (hget : s.refresh.get? token = some g)
      (hlive : g.revoked = false) :
      TokenEffect s task e revoked
        (.refreshing ⟨g.family, g.owner, g.roleCeiling, g.resource, g.expires, false⟩)
        { s with refresh := s.refresh.modify token fun g => { g with revoked := true } } revoked
  | revoked {task' : Task} {family : String}
      (hfamily : (∃ k g, s.refresh.get? k = some g ∧ g.family = family) ∨
        (∃ k g, s.access.get? k = some g ∧ g.family = family) ∨
        ∃ taken, task = .refusing taken ∧ taken.family = family)
      (htask : task'.taken? = none) :
      TokenEffect s task e revoked task' (s.revokeFamily family) (family :: revoked)

section
variable {config : GatewayConfig} {policy : Policy} {s s' : GatewayState} {e : Event}
  {task task' : Task} {h : History}

theorem TokenEffect.same {revoked : List String}
    (htask : task'.taken? = none ∨ task'.taken? = task.taken?) :
    TokenEffect s task e revoked task' s revoked := .quiet (.refl _) (.refl _) htask

theorem issue_revoked (family : String) (key : Approval.Key) (now : Nat) :
    (h.issue family key now).revoked = h.revoked := by
  unfold History.issue
  split <;> rfl

theorem exchangeCode_tokens {lookup : RoleLookup} {now : Nat} {family : String}
    {secrets : TokenSecrets} {code clientId redirectUri verifier resource : String}
    {revoked : List String} (hfamily : family ∈ e.secrets) :
    TokenEffect s task e revoked .idle (s.exchangeCode config lookup now family secrets code clientId
      redirectUri verifier resource).2 revoked := by
  refine exchangeCode_rule (motive := fun r => TokenEffect s task e revoked .idle r.2 revoked)
    (fun _ => .same (.inl rfl)) (fun _ => .quiet (.refl _) (.refl _) (.inl rfl)) fun g _ _ => ?_
  refine .issued ?_ ?_ ⟨rfl, rfl⟩ (.inl hfamily) rfl
  · rw [prune_refresh]
    exact .filter _ _
  · rw [prune_access]
    exact .filter _ _

theorem pollDevice_tokens {now pollTime : Nat} {family : String} {secrets : TokenSecrets}
    {deviceCode : String} {revoked : List String} (hfamily : family ∈ e.secrets) :
    TokenEffect s task e revoked .idle
      (s.pollDevice policy.roleForOwner now pollTime family secrets deviceCode).2 revoked := by
  refine pollDevice_rule (motive := fun r => TokenEffect s task e revoked .idle r.2 revoked)
    (fun _ => .same (.inl rfl)) (fun _ _ _ => .quiet (.refl _) (.refl _) (.inl rfl))
    fun g _ _ _ _ _ _ => ?_
  refine .issued ?_ ?_ ⟨rfl, rfl⟩ (.inl hfamily) rfl
  · rw [prune_refresh]
    exact .filter _ _
  · rw [prune_access]
    exact .filter _ _

theorem familyOf?_some {token family : String} (h : s.familyOf? token = some family) :
    (∃ k g, s.refresh.get? k = some g ∧ g.family = family) ∨
      ∃ k g, s.access.get? k = some g ∧ g.family = family := by
  unfold familyOf? at h
  split at h
  · rename_i g hg
    cases h
    exact .inl ⟨token, g, hg, rfl⟩
  · obtain ⟨g, hg, rfl⟩ := Option.map_eq_some_iff.1 h
    exact .inr ⟨token, g, hg, rfl⟩

theorem ownFamily?_some {owner : OwnerId} {token family : String}
    (h : s.ownFamily? owner token = some family) :
    (∃ k g, s.refresh.get? k = some g ∧ g.family = family) ∨
      ∃ k g, s.access.get? k = some g ∧ g.family = family := by
  unfold ownFamily? at h
  split at h
  · rename_i g hg
    cases h
    obtain ⟨k, hk⟩ := OrdMap.mem_values.1 (List.mem_of_find?_eq_some hg)
    exact .inl ⟨k, g, hk, rfl⟩
  · obtain ⟨g, hg, rfl⟩ := Option.map_eq_some_iff.1 h
    exact .inr ⟨token, g, (Option.filter_eq_some_iff.1 hg).1, rfl⟩

theorem ownGrant_ok {now : Nat} {lookup : RoleLookup} {sessionId csrf token family : String}
    (h : s.ownGrant now lookup sessionId csrf token = .ok family) :
    ∃ owner, s.ownFamily? owner token = some family := by
  unfold ownGrant at h
  simp only [bind, Except.bind, pure, Except.pure, throw, throwThe, MonadExceptOf.throw] at h
  split at h
  · cases h
  · rename_i session _
    split at h
    · cases h
    · split at h
      · cases h
      · split at h
        · cases h
        · split at h
          · cases h
          · rename_i hown
            cases h
            exact ⟨_, hown⟩

theorem refreshTake_error {now : Nat} {token : String} {err : ProtocolError}
    (heq : s.refreshTake now token = (.error err, s')) : s' = s := by
  unfold refreshTake at heq
  split at heq
  · cases heq
    rfl
  · dsimp only at heq
    split at heq
    · cases heq
    · split at heq <;> cases heq
      rfl

theorem refreshTake_ok {now : Nat} {token : String} {taken : RefreshTaken}
    (heq : s.refreshTake now token = (.ok taken, s')) :
    ∃ g, s.refresh.get? token = some g ∧
      taken = ⟨g.family, g.owner, g.roleCeiling, g.resource, g.expires, g.revoked⟩ ∧
      s' = if g.revoked = true then s.revokeFamily g.family
        else { s with refresh := s.refresh.modify token fun g => { g with revoked := true } } := by
  unfold refreshTake at heq
  split at heq
  · cases heq
  · rename_i g hget
    refine ⟨g, hget, ?_⟩
    dsimp only at heq
    split at heq
    · rename_i hrevoked
      cases heq
      exact ⟨rfl, (if_pos hrevoked).symm⟩
    · rename_i hrevoked
      split at heq
      · cases heq
      · cases heq
        exact ⟨rfl, (if_neg hrevoked).symm⟩

/-! ## Operations that issue and revoke nothing -/

/-- Tokens may be pruned, nothing else happens to them. -/
structure Pruned (s s' : GatewayState) : Prop where
  refresh : Shrinks s.refresh s'.refresh
  access : Shrinks s.access s'.access

theorem Pruned.refl (s : GatewayState) : Pruned s s := ⟨.refl _, .refl _⟩

theorem pruned_prune (now : Nat) : Pruned s (s.pruneExpired now) := by
  constructor
  · rw [prune_refresh]
    exact .filter _ _
  · rw [prune_access]
    exact .filter _ _

theorem pruned_beginBrowser {now : Nat} {secrets : BrowserSecrets}
    {clientId redirectUri challenge resource state nonce : String} :
    Pruned s (s.beginBrowserAuthorization config now secrets clientId redirectUri challenge resource
      state nonce).2 := by
  unfold beginBrowserAuthorization
  split
  · exact .refl s
  · obtain ⟨-, -, -, hrefresh, haccess, -⟩ :=
      evictTransactions_same (s.pruneExpired now) (s.pruneExpired now).browser.size
    have h := pruned_prune (s := s) now
    exact ⟨h.refresh.trans (.of_eq hrefresh), h.access.trans (.of_eq haccess)⟩

theorem pruned_deviceAuthorize {now : Nat} {secrets : DeviceSecrets} {clientId resource : String} :
    Pruned s (s.deviceAuthorize config now secrets clientId resource).2 := by
  have h := pruned_prune (s := s) now
  unfold deviceAuthorize
  split
  · exact .refl s
  · dsimp only
    split
    · exact h
    · have hevict := evictDevices_same (s.pruneExpired now) now clientId
        (s.pruneExpired now).devices.size
      split
      · rename_i u hu
        rw [hu] at hevict
        exact ⟨h.refresh.trans (.of_eq hevict.refresh), h.access.trans (.of_eq hevict.access)⟩
      · rename_i u hu
        rw [hu] at hevict
        exact ⟨h.refresh.trans (.of_eq hevict.refresh), h.access.trans (.of_eq hevict.access)⟩

theorem pruned_createSession {now : Nat} {sessionId : String} {owner : AdmissionIdentity}
    {csrf : String} {admin : Bool} :
    Pruned s (s.createSession now sessionId owner csrf admin).2 := by
  unfold createSession
  split
  · exact .refl s
  · have h := pruned_prune (s := s) now
    exact ⟨h.refresh, h.access⟩

theorem pruned_beginDevice {now : Nat} {secrets : VerificationSecrets} {userCode : String} :
    Pruned s (s.beginDeviceVerification now secrets userCode).2 := by
  unfold beginDeviceVerification
  split
  · exact .refl s
  · split
    · exact .refl s
    · dsimp only
      split <;> exact ⟨.refl _, .refl _⟩

theorem pruned_verifyDevice {now : Nat}
    {resolve : VerifiedIdentity → Except ProtocolError (Option PolicyDecision)}
    {userCode : String} {identity : VerifiedIdentity} {consent : Bool} :
    Pruned s (s.verifyDevice now resolve userCode identity consent).2 := by
  unfold verifyDevice
  split
  · exact .refl s
  · split
    · exact .refl s
    · split
      · exact .refl s
      · dsimp only
        split
        · exact ⟨.refl _, .refl _⟩
        · split <;> exact ⟨.refl _, .refl _⟩

theorem pruned_denyDevice {now : Nat} {userCode : String} :
    Pruned s (s.denyDevice now userCode).2 := by
  unfold denyDevice
  split
  · exact .refl s
  · split
    · exact .refl s
    · exact ⟨.refl _, .refl _⟩

theorem pruned_takeBrowserClaims {transaction csrfToken : String} :
    Pruned s (s.takeBrowserClaims transaction csrfToken).2 := by
  unfold takeBrowserClaims
  split
  · exact .refl s
  · split
    · exact .refl s
    · split <;> exact ⟨.refl _, .refl _⟩

theorem pruned_takeDeviceClaims {state : String} : Pruned s (s.takeDeviceClaims state).2 := by
  unfold takeDeviceClaims
  split <;> exact ⟨.refl _, .refl _⟩

/-- The step neither issues nor takes nor revokes. -/
def Event.tokenless : Event → Bool
  | .exchangeCode .. | .pollDevice .. | .refreshTake .. | .refreshPolicy | .refreshIssue ..
  | .refreshRevoke | .revoke .. | .revokeOwnGrant .. => false
  | _ => true

theorem taken?_failDevice (attempt userCode : String) (err : GoogleClaimError) :
    (failDevice attempt userCode err).taken? = none := by
  unfold failDevice
  split <;> rfl

theorem tokenless_run (he : e.tokenless = true)
    (hrun : e.run config policy s task = some (task', s')) :
    Pruned s s' ∧ task'.taken? = none := by
  unfold Event.run at hrun
  split at hrun
  -- the events that deal with tokens, and those a request is not at
  any_goals cases he
  any_goals cases hrun
  case h_3.refl.refl => exact ⟨⟨(pruned_prune _).refresh, (pruned_prune _).access⟩, rfl⟩
  case h_4.refl.refl => exact ⟨pruned_beginBrowser, rfl⟩
  case h_8.refl.refl => exact ⟨⟨.refl _, .refl _⟩, rfl⟩
  case h_9.refl.refl => exact ⟨⟨.refl _, .refl _⟩, rfl⟩
  case h_11.refl transaction csrfToken consent =>
    have hpruned := @pruned_takeBrowserClaims s transaction csrfToken
    split at hrun <;> rename_i heq <;> cases hrun <;> rw [heq] at hpruned
    · exact ⟨hpruned, rfl⟩
    · exact ⟨hpruned, by split <;> rfl⟩
  case h_12.refl now transaction clientState claims =>
    have hpruned : Pruned s (s.takeTransaction transaction).2 := ⟨.refl _, .refl _⟩
    split at hrun <;> rename_i heq <;> rw [heq] at hpruned
    · cases hrun
      exact ⟨hpruned, rfl⟩
    · split at hrun <;> cases hrun <;> exact ⟨hpruned, rfl⟩
  case h_14.refl =>
    split at hrun <;> cases hrun
    exact ⟨pruned_deviceAuthorize, rfl⟩
  case h_15.refl.refl => exact ⟨pruned_beginDevice, rfl⟩
  case h_19.refl.refl => exact ⟨⟨.refl _, .refl _⟩, rfl⟩
  case h_22.refl userCode state consent =>
    have hpruned := @pruned_takeDeviceClaims s state
    split at hrun <;> rename_i heq <;> cases hrun <;> rw [heq] at hpruned
    · exact ⟨hpruned, rfl⟩
    · exact ⟨hpruned, by split <;> rfl⟩
  case h_25.refl.refl => exact ⟨pruned_verifyDevice, rfl⟩
  case h_27.refl.refl => exact ⟨pruned_denyDevice, rfl⟩
  case h_37.refl.refl => exact ⟨pruned_createSession, rfl⟩
  -- the others leave the gateway as it is
  all_goals
    repeat' split at hrun
    all_goals try cases hrun
    all_goals exact ⟨.refl _, by first | rfl | exact taken?_failDevice _ _ _⟩

theorem tokenless_record (he : e.tokenless = true) :
    (e.record config policy s task h).revoked = h.revoked := by
  unfold Event.record
  split
  any_goals cases he
  · split <;> rfl
  · rfl
  · split <;> rfl
  · rfl

/-- **What a step of a request does to the tokens.** -/
theorem run_tokens (hrun : e.run config policy s task = some (task', s')) :
    TokenEffect s task e h.revoked task' s' (e.record config policy s task h).revoked := by
  by_cases he : e.tokenless = true
  · obtain ⟨hpruned, htask⟩ := tokenless_run he hrun
    rw [tokenless_record he]
    exact .quiet hpruned.refresh hpruned.access (.inl htask)
  unfold Event.run at hrun
  split at hrun
  any_goals exact absurd rfl he
  any_goals cases hrun
  case h_13.refl now family secrets code clientId redirectUri verifier resource =>
    have hrevoked : (Event.record config policy s (.exchangeCode now family secrets code clientId
        redirectUri verifier resource) .idle h).revoked = h.revoked := by
      simp only [Event.record]
      split
      · exact issue_revoked _ _ _
      · rfl
    rw [hrevoked]
    exact exchangeCode_tokens (by simp [Event.secrets])
  case h_30.refl now pollTime family secrets deviceCode =>
    have hrevoked : (Event.record config policy s (.pollDevice now pollTime family secrets)
        (.polling deviceCode) h).revoked = h.revoked := by
      simp only [Event.record]
      split
      · exact issue_revoked _ _ _
      · rfl
    rw [hrevoked]
    exact pollDevice_tokens (by simp [Event.secrets])
  case h_31 now refreshToken =>
    simp only [Event.record]
    split at hrun <;> rename_i heq <;> cases hrun <;> rw [heq]
    · rw [(refreshTake_error heq)]
      exact .same (.inl rfl)
    · rename_i taken
      obtain ⟨g, hget, rfl, hcases⟩ := refreshTake_ok heq
      cases hrevoked : g.revoked with
      | true =>
        rw [if_pos hrevoked] at hcases
        rw [hcases]
        exact .revoked (.inl ⟨_, g, hget, rfl⟩) rfl
      | false =>
        rw [hrevoked, if_neg Bool.false_ne_true] at hcases
        rw [hcases]
        exact .taken hget hrevoked
  case h_32 taken =>
    split at hrun <;> cases hrun <;> exact .same (.inr rfl)
  case h_33.refl now secrets taken =>
    exact .issued (.refl _) (.refl _) ⟨rfl, rfl⟩ (.inr ⟨taken, now, secrets, rfl, rfl, rfl⟩) rfl
  case h_34.refl taken =>
    exact .revoked (.inr (.inr ⟨taken, rfl, rfl⟩)) rfl
  case h_35.refl token =>
    simp only [Event.record, GatewayState.revoke]
    cases hfamily : s.familyOf? token with
    | none => exact .same (.inl rfl)
    | some family => exact .revoked ((familyOf?_some hfamily).imp_right .inl) rfl
  case h_36.refl now sessionId csrf token =>
    simp only [Event.record, GatewayState.revokeOwnGrant]
    cases hfamily : s.ownGrant now policy.roleForOwner sessionId csrf token with
    | error err => exact .same (.inl rfl)
    | ok family =>
      obtain ⟨owner, hown⟩ := ownGrant_ok hfamily
      exact .revoked ((ownFamily?_some hown).imp_right .inl) rfl

/-! ## Families over a run -/

/-- The condition on a step: a refresh issues a successor only for a family that has not been
revoked since. -/
def World.IssuesLive (w : World) : Label → Prop
  | .step p (.refreshIssue ..) => ∀ taken, w.task p = .issuing taken →
    taken.family ∉ w.history.revoked
  | _ => True

/-- Who may use a family: its refresh token that is not revoked, or the refresh that took one. -/
structure FamilySound (w : World) : Prop where
  drawnRefresh : ∀ k g, w.gateway.refresh.get? k = some g → g.family ∈ w.drawn
  drawnAccess : ∀ k g, w.gateway.access.get? k = some g → g.family ∈ w.drawn
  drawnTaken : ∀ p taken, (w.task p).taken? = some taken → taken.family ∈ w.drawn
  drawnRevoked : ∀ f ∈ w.history.revoked, f ∈ w.drawn
  /-- At most one refresh token of a family is not revoked. -/
  one : ∀ k g k' g', w.gateway.refresh.get? k = some g → w.gateway.refresh.get? k' = some g' →
    g.revoked = false → g'.revoked = false → g.family = g'.family → k = k'
  /-- While a refresh holds a family, no refresh token of it is left. -/
  held : ∀ p taken k g, (w.task p).taken? = some taken → w.gateway.refresh.get? k = some g →
    g.family = taken.family → g.revoked = true
  /-- Two refreshes do not hold the same family. -/
  apart : ∀ p q taken taken', (w.task p).taken? = some taken → (w.task q).taken? = some taken' →
    taken.family = taken'.family → p = q

def RevokedDead (w : World) : Prop :=
  ∀ f ∈ w.history.revoked,
    (∀ k g, w.gateway.refresh.get? k = some g → g.family = f → g.revoked = true) ∧
      ∀ k g, w.gateway.access.get? k = some g → g.family = f → g.revoked = true

section
variable {w w' : World} {p : Nat}

theorem taken_update {t : Task} (htask : w'.task = Function.update w.task p t)
    (ht : t.taken? = none ∨ t.taken? = (w.task p).taken?) {q : Nat} {taken : RefreshTaken}
    (h : (w'.task q).taken? = some taken) : (w.task q).taken? = some taken := by
  rw [htask, Function.update_apply] at h
  split at h
  · rename_i hq
    subst hq
    rcases ht with ht | ht
    · rw [ht] at h
      cases h
    · rw [← ht, h]
  · exact h

theorem get?_issued {s : GatewayState} {now expires : Nat} {secrets : TokenSecrets}
    {family : String} {owner : AdmissionIdentity} {roleCeiling : AccessRole} {resource : String}
    {k : String} {g : RefreshGrant}
    (h : (s.issueWithFamily now secrets family owner roleCeiling resource expires).2.refresh.get? k =
      some g) :
    (k = secrets.refresh ∧ g.family = family ∧ g.revoked = false) ∨ s.refresh.get? k = some g := by
  refine (OrdMap.get?_insert_some h).imp_left ?_
  rintro ⟨hk, rfl⟩
  exact ⟨hk, rfl, rfl⟩

theorem get?_issued_access {s : GatewayState} {now expires : Nat} {secrets : TokenSecrets}
    {family : String} {owner : AdmissionIdentity} {roleCeiling : AccessRole} {resource : String}
    {k : String} {g : AccessGrant}
    (h : (s.issueWithFamily now secrets family owner roleCeiling resource expires).2.access.get? k =
      some g) :
    (k = secrets.access ∧ g.family = family ∧ g.revoked = false) ∨ s.access.get? k = some g := by
  refine (OrdMap.get?_insert_some h).imp_left ?_
  rintro ⟨hk, rfl⟩
  exact ⟨hk, rfl, rfl⟩

theorem get?_revoked {s : GatewayState} {family k : String} {g : RefreshGrant}
    (h : (s.revokeFamily family).refresh.get? k = some g) :
    ∃ old, s.refresh.get? k = some old ∧ g.family = old.family ∧
      (g.revoked = false → old.revoked = false ∧ old.family ≠ family) ∧
      (old.revoked = true → g.revoked = true) := by
  simp only [revokeFamily, OrdMap.get?_mapEntries] at h
  obtain ⟨old, hold, rfl⟩ := Option.map_eq_some_iff.1 h
  refine ⟨old, hold, ?_⟩
  split
  · exact ⟨rfl, fun h => absurd h (by simp), fun _ => rfl⟩
  · rename_i hne
    exact ⟨rfl, fun h => ⟨h, hne⟩, id⟩

theorem get?_revoked_access {s : GatewayState} {family k : String} {g : AccessGrant}
    (h : (s.revokeFamily family).access.get? k = some g) :
    ∃ old, s.access.get? k = some old ∧ g.family = old.family ∧
      (g.revoked = false → old.revoked = false ∧ old.family ≠ family) := by
  simp only [revokeFamily, OrdMap.get?_mapEntries] at h
  obtain ⟨old, hold, rfl⟩ := Option.map_eq_some_iff.1 h
  refine ⟨old, hold, ?_⟩
  split
  · exact ⟨rfl, fun h => absurd h (by simp)⟩
  · rename_i hne
    exact ⟨rfl, fun h => ⟨h, hne⟩⟩

theorem get?_marked {s : GatewayState} {token k : String} {g : RefreshGrant}
    (h : (s.refresh.modify token fun g => { g with revoked := true }).get? k = some g) :
    ∃ old, s.refresh.get? k = some old ∧ g.family = old.family ∧
      (g.revoked = false → old.revoked = false ∧ k ≠ token) := by
  rw [OrdMap.get?_modify] at h
  split at h
  · rename_i hk
    obtain ⟨old, hold, rfl⟩ := Option.map_eq_some_iff.1 h
    exact ⟨old, hk ▸ hold, rfl, fun h => absurd h (by simp)⟩
  · rename_i hk
    exact ⟨g, h, rfl, fun h => ⟨h, hk⟩⟩

theorem World.Steps.tokens {e : Event} {t : Task} (h : w.Steps config p e t w') :
    TokenEffect w.gateway (w.task p) e w.history.revoked t w'.gateway w'.history.revoked := by
  rw [h.history]
  exact run_tokens h.run

theorem mem_drawn {e : Event} {t : Task} (h : w.Steps config p e t w') {x : String}
    (hx : x ∈ w.drawn) : x ∈ w'.drawn := by
  rw [h.drawn]
  exact List.mem_append_right _ hx

/-- **One step keeps the families sound.** -/
theorem FamilySound.step {e : Event} {t : Task} (h : FamilySound w)
    (hs : w.Steps config p e t w') : FamilySound w' := by
  have heffect := hs.tokens
  have hmem : ∀ {x}, x ∈ w.drawn → x ∈ w'.drawn := mem_drawn hs
  have htask := hs.task
  have htaken : (t.taken? = none ∨ t.taken? = (w.task p).taken?) → ∀ {q taken},
      (w'.task q).taken? = some taken → (w.task q).taken? = some taken :=
    fun ht _ _ hq => taken_update htask ht hq
  generalize hgateway : w'.gateway = s' at heffect
  generalize hrevoked : w'.history.revoked = r' at heffect
  cases heffect with
  | quiet hrefresh haccess ht =>
    subst hgateway
    have htaken := @htaken ht
    exact {
      drawnRefresh := fun k g hg => hmem (h.drawnRefresh k g (hrefresh k g hg))
      drawnAccess := fun k g hg => hmem (h.drawnAccess k g (haccess k g hg))
      drawnTaken := fun q taken hq => hmem (h.drawnTaken q taken (htaken hq))
      drawnRevoked := fun f hf => hmem (h.drawnRevoked f (hrevoked ▸ hf))
      one := fun k g k' g' hg hg' => h.one k g k' g' (hrefresh k g hg) (hrefresh k' g' hg')
      held := fun q taken k g hq hg => h.held q taken k g (htaken hq) (hrefresh k g hg)
      apart := fun q q' taken taken' hq hq' => h.apart q q' taken taken' (htaken hq) (htaken hq') }
  | @issued _ _ s₀ family secrets owner roleCeiling resource now expires hrefresh haccess hissued
      hfamily ht =>
    subst hgateway
    have htaken := @htaken (.inl ht)
    have hnew : family ∈ w'.drawn := by
      rcases hfamily with hfresh | ⟨taken, _, _, -, hissuing, rfl⟩
      · rw [hs.drawn]
        exact List.mem_append_left _ hfresh
      · exact hmem (h.drawnTaken p taken (by rw [hissuing]; rfl))
    have hold : ∀ {k g}, w'.gateway.refresh.get? k = some g →
        (k = secrets.refresh ∧ g.family = family ∧ g.revoked = false) ∨
          w.gateway.refresh.get? k = some g := by
      intro k g hg
      rw [hissued.1] at hg
      exact (get?_issued hg).imp_right (hrefresh k g)
    -- nobody else has a refresh token of the family that is not revoked, or holds it
    have halone : ∀ {k g}, w.gateway.refresh.get? k = some g → g.family = family →
        g.revoked = true := by
      intro k g hg hgf
      rcases hfamily with hfresh | ⟨taken, _, _, -, hissuing, rfl⟩
      · exact absurd (hgf ▸ h.drawnRefresh k g hg) (hs.fair.fresh.1 family hfresh)
      · exact h.held p taken k g (by rw [hissuing]; rfl) hg hgf
    have hfree : ∀ {q taken}, (w'.task q).taken? = some taken → taken.family ≠ family := by
      intro q taken hq heq
      rcases hfamily with hfresh | ⟨taken', _, _, -, hissuing, rfl⟩
      · exact hs.fair.fresh.1 family hfresh (heq ▸ h.drawnTaken q taken (htaken hq))
      · have hqp := h.apart q p taken taken' (htaken hq) (by rw [hissuing]; rfl) heq
        rw [hqp, htask, Function.update_self, ht] at hq
        cases hq
    exact {
      drawnRefresh := fun k g hg => by
        rcases hold hg with ⟨-, hgf, -⟩ | hg
        · exact hgf ▸ hnew
        · exact hmem (h.drawnRefresh k g hg)
      drawnAccess := fun k g hg => by
        rw [hissued.2] at hg
        rcases get?_issued_access hg with ⟨-, hgf, -⟩ | hg
        · exact hgf ▸ hnew
        · exact hmem (h.drawnAccess k g (haccess k g hg))
      drawnTaken := fun q taken hq => hmem (h.drawnTaken q taken (htaken hq))
      drawnRevoked := fun f hf => hmem (h.drawnRevoked f (hrevoked ▸ hf))
      one := fun k g k' g' hg hg' hlive hlive' heq => by
        rcases hold hg with ⟨hk, hgf, -⟩ | hg <;> rcases hold hg' with ⟨hk', hgf', -⟩ | hg'
        · rw [hk, hk']
        · rw [halone hg' (heq.symm.trans hgf)] at hlive'
          cases hlive'
        · rw [halone hg (heq.trans hgf')] at hlive
          cases hlive
        · exact h.one k g k' g' hg hg' hlive hlive' heq
      held := fun q taken k g hq hg heq => by
        rcases hold hg with ⟨-, hgf, -⟩ | hg
        · exact absurd (heq.symm.trans hgf) (hfree hq)
        · exact h.held q taken k g (htaken hq) hg heq
      apart := fun q q' taken taken' hq hq' => h.apart q q' taken taken' (htaken hq) (htaken hq') }
  | @taken token g hget hlive =>
    have hold : ∀ {k g'}, w'.gateway.refresh.get? k = some g' → ∃ old,
        w.gateway.refresh.get? k = some old ∧ g'.family = old.family ∧
          (g'.revoked = false → old.revoked = false ∧ k ≠ token) := by
      intro k g' hg'
      rw [hgateway] at hg'
      exact get?_marked hg'
    have hp : ∀ {q taken}, (w'.task q).taken? = some taken →
        (q = p ∧ taken.family = g.family) ∨ (q ≠ p ∧ (w.task q).taken? = some taken) := by
      intro q taken hq
      rw [htask, Function.update_apply] at hq
      split at hq
      · rename_i hqp
        cases hq
        exact .inl ⟨hqp, rfl⟩
      · rename_i hqp
        exact .inr ⟨hqp, hq⟩
    -- the token that is taken was the only one of its family, and nobody held the family
    have hfree : ∀ {q taken}, (w.task q).taken? = some taken → taken.family ≠ g.family := by
      intro q taken hq heq
      rw [h.held q taken token g hq hget heq.symm] at hlive
      cases hlive
    exact {
      drawnRefresh := fun k g' hg' => by
        obtain ⟨old, hold, hf, -⟩ := hold hg'
        exact hf ▸ hmem (h.drawnRefresh k old hold)
      drawnAccess := fun k g' hg' => by
        rw [hgateway] at hg'
        exact hmem (h.drawnAccess k g' hg')
      drawnTaken := fun q taken hq => by
        rcases hp hq with ⟨-, hf⟩ | ⟨-, hq⟩
        · exact hf ▸ hmem (h.drawnRefresh token g hget)
        · exact hmem (h.drawnTaken q taken hq)
      drawnRevoked := fun f hf => hmem (h.drawnRevoked f (hrevoked ▸ hf))
      one := fun k g₁ k' g₂ hg₁ hg₂ hlive₁ hlive₂ heq => by
        obtain ⟨old₁, hold₁, hf₁, hr₁⟩ := hold hg₁
        obtain ⟨old₂, hold₂, hf₂, hr₂⟩ := hold hg₂
        exact h.one k old₁ k' old₂ hold₁ hold₂ (hr₁ hlive₁).1 (hr₂ hlive₂).1
          (hf₁.symm.trans (heq.trans hf₂))
      held := fun q taken k g' hq hg' heq => by
        by_contra hlive'
        rw [Bool.not_eq_true] at hlive'
        obtain ⟨old, hold, hf, hr⟩ := hold hg'
        obtain ⟨holdlive, hk⟩ := hr hlive'
        rcases hp hq with ⟨-, hfp⟩ | ⟨-, hq⟩
        · exact hk (h.one k old token g hold hget holdlive hlive (hf.symm.trans (heq.trans hfp)))
        · rw [h.held q taken k old hq hold (hf.symm.trans heq)] at holdlive
          cases holdlive
      apart := fun q q' taken taken' hq hq' heq => by
        rcases hp hq with ⟨hqp, hf⟩ | ⟨-, hq⟩ <;> rcases hp hq' with ⟨hqp', hf'⟩ | ⟨-, hq'⟩
        · rw [hqp, hqp']
        · exact absurd (heq.symm.trans hf) (hfree hq')
        · exact absurd (heq.trans hf') (hfree hq)
        · exact h.apart q q' taken taken' hq hq' heq }
  | @revoked _ family hfamily ht =>
    have htaken := @htaken (.inl ht)
    have hold : ∀ {k g}, w'.gateway.refresh.get? k = some g → ∃ old,
        w.gateway.refresh.get? k = some old ∧ g.family = old.family ∧
          (g.revoked = false → old.revoked = false ∧ old.family ≠ family) ∧
            (old.revoked = true → g.revoked = true) := by
      intro k g hg
      rw [hgateway] at hg
      exact get?_revoked hg
    exact {
      drawnRefresh := fun k g hg => by
        obtain ⟨old, hold, hf, -⟩ := hold hg
        exact hf ▸ hmem (h.drawnRefresh k old hold)
      drawnAccess := fun k g hg => by
        rw [hgateway] at hg
        obtain ⟨old, hold, hf, -⟩ := get?_revoked_access hg
        exact hf ▸ hmem (h.drawnAccess k old hold)
      drawnTaken := fun q taken hq => hmem (h.drawnTaken q taken (htaken hq))
      drawnRevoked := fun f hf => by
        rw [hrevoked] at hf
        rcases List.mem_cons.1 hf with rfl | hf
        · rcases hfamily with ⟨k, g, hg, rfl⟩ | ⟨k, g, hg, rfl⟩ | ⟨taken, htask, rfl⟩
          · exact hmem (h.drawnRefresh k g hg)
          · exact hmem (h.drawnAccess k g hg)
          · exact hmem (h.drawnTaken p taken (by rw [htask]; rfl))
        · exact hmem (h.drawnRevoked f hf)
      one := fun k g₁ k' g₂ hg₁ hg₂ hlive₁ hlive₂ heq => by
        obtain ⟨old₁, hold₁, hf₁, hr₁, -⟩ := hold hg₁
        obtain ⟨old₂, hold₂, hf₂, hr₂, -⟩ := hold hg₂
        exact h.one k old₁ k' old₂ hold₁ hold₂ (hr₁ hlive₁).1 (hr₂ hlive₂).1
          (hf₁.symm.trans (heq.trans hf₂))
      held := fun q taken k g hq hg heq => by
        obtain ⟨old, hold, hf, -, hr⟩ := hold hg
        exact hr (h.held q taken k old (htaken hq) hold (hf.symm.trans heq))
      apart := fun q q' taken taken' hq hq' => h.apart q q' taken taken' (htaken hq) (htaken hq') }

theorem RevokedDead.step {e : Event} {t : Task} (h : FamilySound w) (hdead : RevokedDead w)
    (hs : w.Steps config p e t w') (hissues : w.IssuesLive (.step p e)) : RevokedDead w' := by
  have heffect := hs.tokens
  generalize hgateway : w'.gateway = s' at heffect
  generalize hrevoked : w'.history.revoked = r' at heffect
  cases heffect with
  | quiet hrefresh haccess ht =>
    subst hgateway
    intro f hf
    obtain ⟨hr, ha⟩ := hdead f (hrevoked ▸ hf)
    exact ⟨fun k g hg => hr k g (hrefresh k g hg), fun k g hg => ha k g (haccess k g hg)⟩
  | @issued _ _ s₀ family secrets owner roleCeiling resource now expires hrefresh haccess hissued
      hfamily ht =>
    subst hgateway
    intro f hf
    rw [hrevoked] at hf
    have hne : family ≠ f := by
      rintro rfl
      rcases hfamily with hfresh | ⟨taken, _, _, rfl, hissuing, rfl⟩
      · exact hs.fair.fresh.1 family hfresh (h.drawnRevoked family hf)
      · exact hissues taken hissuing hf
    obtain ⟨hr, ha⟩ := hdead f hf
    refine ⟨fun k g hg hgf => ?_, fun k g hg hgf => ?_⟩
    · rw [hissued.1] at hg
      rcases get?_issued hg with ⟨-, hgf', -⟩ | hg
      · exact absurd (hgf'.symm.trans hgf) hne
      · exact hr k g (hrefresh k g hg) hgf
    · rw [hissued.2] at hg
      rcases get?_issued_access hg with ⟨-, hgf', -⟩ | hg
      · exact absurd (hgf'.symm.trans hgf) hne
      · exact ha k g (haccess k g hg) hgf
  | @taken token g hget hlive =>
    intro f hf
    obtain ⟨hr, ha⟩ := hdead f (hrevoked ▸ hf)
    rw [hgateway]
    refine ⟨fun k g' hg' hgf => ?_, ha⟩
    by_contra hlive'
    obtain ⟨old, hold, hfamily, hkeep⟩ := get?_marked hg'
    rw [hr k old hold (hfamily.symm.trans hgf)] at hkeep
    exact absurd (hkeep (by simpa using hlive')).1 (by simp)
  | @revoked _ family hfamily ht =>
    intro f hf
    rw [hrevoked] at hf
    rw [hgateway]
    refine ⟨fun k g hg hgf => ?_, fun k g hg hgf => ?_⟩
    · by_contra hlive
      obtain ⟨old, hold, hfam, hkeep, -⟩ := get?_revoked hg
      obtain ⟨holdlive, hne⟩ := hkeep (by simpa using hlive)
      rcases List.mem_cons.1 hf with rfl | hf
      · exact hne (hfam.symm.trans hgf)
      · rw [(hdead f hf).1 k old hold (hfam.symm.trans hgf)] at holdlive
        cases holdlive
    · by_contra hlive
      obtain ⟨old, hold, hfam, hkeep⟩ := get?_revoked_access hg
      obtain ⟨holdlive, hne⟩ := hkeep (by simpa using hlive)
      rcases List.mem_cons.1 hf with rfl | hf
      · exact hne (hfam.symm.trans hgf)
      · rw [(hdead f hf).2 k old hold (hfam.symm.trans hgf)] at holdlive
        cases holdlive

theorem not_revokedDead {e : Event} {t : Task} (hs : w.Steps config p e t w')
    (hissues : ¬ w.IssuesLive (.step p e)) : ¬ RevokedDead w' := by
  intro hdead
  have hrun := hs.run
  have hhistory := hs.history
  cases e with
  | refreshIssue now secrets =>
    apply hissues
    intro taken htask hmem
    rw [htask] at hrun hhistory
    simp only [Event.run, Option.some.injEq, Prod.mk.injEq] at hrun
    have hget : w'.gateway.refresh.get? secrets.refresh = some
        { family := taken.family, owner := taken.owner, roleCeiling := taken.roleCeiling
          resource := taken.resource, expires := taken.expires, current := secrets.refresh
          revoked := false } := by
      rw [← hrun.2]
      simp [GatewayState.refreshIssue, issueWithFamily, OrdMap.get?_insert]
    have hrevoked : taken.family ∈ w'.history.revoked := by
      rw [hhistory]
      exact hmem
    have := (hdead _ hrevoked).1 _ _ hget rfl
    cases this
  | _ => exact hissues trivial

theorem familySound_after {l : Label} (h : FamilySound w) (hstep : (machine config).Step w l w') :
    FamilySound w' := by
  rcases step_cases hstep with ⟨p, e, t, rfl, hs⟩ | ⟨policy, rfl, rfl⟩ | ⟨p, rfl, rfl⟩
  · exact h.step hs
  · exact ⟨h.drawnRefresh, h.drawnAccess, h.drawnTaken, h.drawnRevoked, h.one, h.held, h.apart⟩
  · have htaken : ∀ {q taken}, (Function.update w.task p .idle q).taken? = some taken →
        (w.task q).taken? = some taken := by
      intro q taken hq
      rw [Function.update_apply] at hq
      split at hq
      · cases hq
      · exact hq
    exact ⟨h.drawnRefresh, h.drawnAccess, fun q taken hq => h.drawnTaken q taken (htaken hq),
      h.drawnRevoked, h.one, fun q taken k g hq => h.held q taken k g (htaken hq),
      fun q q' taken taken' hq hq' => h.apart q q' taken taken' (htaken hq) (htaken hq')⟩

theorem familySound_reachable (h : (machine config).Reachable w) : FamilySound w := by
  refine h.invariant ?_ fun a l b _ ha hstep => familySound_after ha hstep
  rintro a ⟨hgateway, htask, -, hhistory⟩
  constructor <;> simp [hgateway, GatewayState.empty, htask, Task.taken?, hhistory, History.empty]

theorem revokedDead_after {l : Label} (h : FamilySound w) (hdead : RevokedDead w)
    (hstep : (machine config).Step w l w') : RevokedDead w' ↔ w.IssuesLive l := by
  rcases step_cases hstep with ⟨p, e, t, rfl, hs⟩ | ⟨policy, rfl, rfl⟩ | ⟨p, rfl, rfl⟩
  · exact ⟨fun hdead' => by_contra fun hissues => not_revokedDead hs hissues hdead',
      hdead.step h hs⟩
  · exact ⟨fun _ => trivial, fun _ => hdead⟩
  · exact ⟨fun _ => trivial, fun _ => hdead⟩

theorem revokedDead_reachable (h : ((machine config).restrict World.IssuesLive).Reachable w) :
    RevokedDead w := by
  refine h.invariant ?_ fun a l b ha hdead hstep =>
    (revokedDead_after (familySound_reachable ha.of_restrict) hdead hstep.1).2 hstep.2
  rintro a ⟨-, -, -, hhistory⟩ f hf
  rw [hhistory] at hf
  cases hf

/-- **Revocation of a family is final** in every run in which no refresh issues a successor for a
family that was revoked since it took its token, and a run that does leaves a token of a revoked
family alive. A family never has two refresh tokens that are not revoked, whatever the run. -/
theorem revocation_final (config : GatewayConfig) :
    (∀ w, (machine config).Reachable w → ∀ k g k' g', w.gateway.refresh.get? k = some g →
      w.gateway.refresh.get? k' = some g' → g.revoked = false → g'.revoked = false →
        g.family = g'.family → k = k') ∧
    (∀ w, ((machine config).restrict World.IssuesLive).Reachable w → RevokedDead w) ∧
    ∀ w l w', ((machine config).restrict World.IssuesLive).Reachable w →
      (machine config).Step w l w' → (RevokedDead w' ↔ w.IssuesLive l) := by
  refine ⟨fun w hw => (familySound_reachable hw).one, fun w => revokedDead_reachable, ?_⟩
  intro w l w' hw hstep
  exact revokedDead_after (familySound_reachable hw.of_restrict)
    (revokedDead_reachable hw) hstep

end

end

/-! ### A refresh that is overtaken -/

def demoConfig : GatewayConfig where
  issuer := "https://hub.example"
  resource := "https://hub.example/mcp"
  clientId := "native"
  googleIssuer := "https://id.example"
  googleClientId := "hub"
  intervalSeconds := 5
  lifetimeSeconds := 600
  pkce verifier := verifier

def demoIdentity : VerifiedIdentity := ⟨"ann@gmail.com", "ann", "https://id.example"⟩

def demoOwner : AdmissionIdentity :=
  ⟨⟨⟨"owner-ann", by decide⟩, ⟨"https://id.example", by decide⟩, ⟨"ann", by decide⟩,
    ⟨"ann@gmail.com", by decide +kernel⟩⟩⟩

/-- Everybody is admitted as `ann`, who may write. -/
def demoPolicy : Policy where
  resolve _ := .ok (some ⟨demoOwner, .write⟩)
  roleForOwner _ := .ok (some .write)

def demoWorld : World := ⟨.empty, demoPolicy, fun _ => .idle, [], 0, .empty⟩

def demoCode : CodeRequest :=
  ⟨"native", "http://localhost:8080/callback", "challenge", "https://hub.example/mcp", demoIdentity⟩

/-- Request `0` gets a code, and request `1` a family for it. -/
def signIn : List Label :=
  [.step 0 (.authorizeCode demoCode true "s" "s" "n" "n"), .step 0 .resolveCode,
    .step 0 (.insertCode 0 "code"),
    .step 1 (.exchangeCode 0 "family" ⟨"access", "refresh"⟩ "code" "native"
      "http://localhost:8080/callback" "challenge" "https://hub.example/mcp")]

/-- The token is taken, revoked, and its successor issued. -/
def overtaken : List Label :=
  [.step 1 (.refreshTake 0 "refresh"), .step 1 .refreshPolicy, .step 2 (.revoke "refresh"),
    .step 1 (.refreshIssue 0 ⟨"access2", "refresh2"⟩)]

theorem reachable_play {ls : List Label} {w : World} (h : play demoConfig demoWorld ls = some w) :
    (machine demoConfig).Reachable w :=
  ⟨demoWorld, ls, ⟨rfl, fun _ => rfl, rfl, rfl⟩, run_play h⟩

/-- A successor is issued after its family was revoked. -/
theorem revocation_overtaken : ∃ w, (machine demoConfig).Reachable w ∧ ¬ RevokedDead w := by
  have halive : ((play demoConfig demoWorld (signIn ++ overtaken)).any fun w =>
      decide ("family" ∈ w.history.revoked) &&
        (w.gateway.refresh.get? "refresh2").any fun g =>
          decide (g.family = "family" ∧ g.revoked = false)) = true := by
    decide +kernel
  obtain ⟨w, hw, htest⟩ := (Option.any_eq_true _ _).1 halive
  obtain ⟨hrevoked, htoken⟩ := Bool.and_eq_true_iff.1 htest
  obtain ⟨g, hg, hgood⟩ := (Option.any_eq_true _ _).1 htoken
  obtain ⟨hfamily, hlive⟩ := of_decide_eq_true hgood
  refine ⟨w, reachable_play hw, fun hdead => ?_⟩
  rw [(hdead _ (of_decide_eq_true hrevoked)).1 _ g hg hfamily] at hlive
  cases hlive

end AgentPalace.Hub
