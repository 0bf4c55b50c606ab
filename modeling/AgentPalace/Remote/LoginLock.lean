import AgentPalace.Remote.Auth

/-!
# What happens under the login lock

`Permits` says what each operation under the login lock relies on, and `Idle`
what holds of a client while nobody has the lock. Every call keeps to both
(`AuthClient.typed`), in any interleaving with the others and whatever the
store, the issuer and the remote answer.
-/

namespace AgentPalace.Remote

open Co

namespace AuthState

structure Idle (s : AuthState) : Prop where
  empty : s.signedOut = true → s.token = none ∧ s.session = none
  pending : s.pending = false
  settled : s.refreshed = none

def entered (s : AuthState) : AuthState := { s with got := [], refreshed := none, pending := false }

def published (s : AuthState) (session : OAuthSession) : AuthState :=
  { s with
    token := some session.accessToken
    session := some session
    generation := s.generation + 1
    signedOut := false
    pending := false }

def forgotten (s : AuthState) : AuthState :=
  { s with token := none, session := none, got := s.session.toList ++ s.got }

def stored (s : AuthState) : AuthState := { s with refreshed := none }

end AuthState

/-- When an operation of a call under the login lock is allowed. -/
def AuthClient.Permits (k : AuthClient) (c : AuthCall) (s : AuthState) : AuthOp → Prop
  | .release => c.isLogout = true → s.signedOut = true ∧ s.token = none ∧ s.session = none
  | .writeToken (some t) =>
    (s.signedOut = true → c.signsIn = true) ∧ ∃ y ∈ s.got, y.accessToken = t
  | .publishSession y =>
    y ∈ s.got ∧ (s.signedOut = true → c.signsIn = true ∧ s.token.isSome = true)
  | .takeSession => s.pending = false
  | .load _ | .login _ _ _ => s.refreshed = none ∧ s.pending = false
  | .save id y =>
    s.signedOut = false ∧ y ∈ s.got ∧ k.identityOf y = id ∧ s.pending = false ∧
      (s.refreshed = none ∧ c.isLogin = true ∨
        ∃ x, s.refreshed = some (x, some y) ∧ k.identityOf x = id)
  | .clear id =>
    s.refreshed = none ∧ c.isLogout = true ∨
      ∃ x, s.refreshed = some (x, none) ∧ k.identityOf x = id
  | .refresh _ x =>
    s.refreshed = none ∧ s.pending = false ∧
      (x ∈ s.got ∨ ∃ current, s.session = some current ∧ current.accessToken = x.accessToken)
  | .revoke _ x => x ∈ s.got
  | _ => True

namespace AuthClient

variable {P : Type} [DecidableEq P] {k : AuthClient} {p : P} {c : AuthCall} {s : AuthState}

abbrev lock (k : AuthClient) (p : P) (c : AuthCall) : Guard AuthOp AuthOp.Ans AuthState :=
  k.service.guard k.Permits AuthState.Idle p c

def Releasable (k : AuthClient) (c : AuthCall) (held : Option AuthState) : Prop :=
  ∃ s, held = some s ∧ s.Idle ∧ k.Permits c s .release

theorem releasable (hc : c.isLogout = false) (hs : s.Idle) : Releasable k c (some s) :=
  ⟨s, rfl, hs, fun h => absurd (hc.symm.trans h) (by decide)⟩

/-! ## Steps -/

theorem withLock_ok {α : Type} {body : Auth α}
    (h : ∀ s : AuthState, s.Idle →
      body.ok (k.lock p c) (fun held _ => Releasable k c held) (some s.entered)) :
    (withLock body).ok (k.lock p c) (fun held _ => held = none) none := by
  refine ok_acquire rfl ?_
  rintro _ s _ hs ⟨_, _, rfl⟩
  refine ok_bind (ok_mono (h s hs) ?_)
  rintro _ r ⟨s', rfl, hidle, hrelease⟩
  refine ok_release rfl hrelease ?_
  rintro _ _ ⟨_, _, rfl⟩
  exact ⟨hidle, rfl⟩

theorem publishLocked_ok {y : OAuthSession} (hy : y ∈ s.got)
    (hsign : s.signedOut = true → c.signsIn = true) :
    (publishLocked y).ok (k.lock p c) (fun held _ => held = some (s.published y)) (some s) := by
  refine ok_held (.inr rfl) ⟨hsign, y, hy, rfl⟩ ?_
  rintro _ _ ⟨_, _, rfl⟩
  show (perform (.publishSession y) >>= pure).ok _ _ _
  refine ok_held (.inr rfl) ⟨hy, fun h => ⟨hsign h, rfl⟩⟩ ?_
  rintro _ _ ⟨_, _, rfl⟩
  exact rfl

theorem forgetLocked_ok (hpending : s.pending = false) :
    forgetLocked.ok (k.lock p c) (fun held a => held = some s.forgotten ∧ a = s.session)
      (some s) := by
  refine ok_held (.inr rfl) trivial ?_
  rintro _ _ ⟨_, _, rfl⟩
  show (perform .takeSession >>= pure).ok _ _ _
  refine ok_held (.inr rfl) hpending ?_
  rintro a _ ⟨_, ha, rfl⟩
  exact ⟨rfl, ha⟩

theorem commitLocked_ok {y : OAuthSession} (hy : y ∈ s.got)
    (hsign : s.signedOut = true → c.signsIn = true)
    (hfrom : s.refreshed = none ∧ c.isLogin = true ∨
      ∃ x, s.refreshed = some (x, some y) ∧ k.identityOf x = k.identityOf y) :
    (k.commitLocked y).ok (k.lock p c) (fun held _ => held = some (s.published y).stored)
      (some s) := by
  refine ok_bind (ok_mono (publishLocked_ok hy hsign) ?_)
  rintro _ _ rfl
  refine ok_held (.inr rfl) ⟨rfl, hy, rfl, rfl, hfrom⟩ ?_
  rintro (_ | _) _ ⟨_, _, rfl⟩ <;> exact rfl

theorem clearRejected_ok {x : OAuthSession} (hpending : s.pending = false)
    (hx : s.refreshed = some (x, none)) :
    (k.clearRejected x).ok (k.lock p c) (fun held _ => held = some s.forgotten.stored)
      (some s) := by
  refine ok_bind (ok_mono (forgetLocked_ok hpending) ?_)
  rintro _ _ ⟨rfl, -⟩
  refine ok_held (.inr rfl) (.inr ⟨x, hx, rfl⟩) ?_
  rintro (_ | _) _ ⟨_, _, rfl⟩ <;> exact rfl

theorem idle_published {y : OAuthSession} (h : s.refreshed = none) :
    (s.published y).Idle :=
  ⟨fun h => (by cases h), rfl, h⟩

theorem idle_committed {y : OAuthSession} : (s.published y).stored.Idle :=
  ⟨fun h => (by cases h), rfl, rfl⟩

theorem idle_forgotten (h : s.pending = false) (hs : s.refreshed = none) :
    s.forgotten.Idle :=
  ⟨fun _ => ⟨rfl, rfl⟩, h, hs⟩

theorem idle_cleared (h : s.pending = false) : s.forgotten.stored.Idle :=
  ⟨fun _ => ⟨rfl, rfl⟩, h, rfl⟩

theorem idle_entered (h : s.Idle) : s.entered.Idle :=
  ⟨h.empty, rfl, rfl⟩

/-! ## Calls that hold the lock -/

/-- A refresh and what is done with its outcome, under the lock. -/
theorem refresh_ok {α : Type} {metadata : AuthorizationServerMetadata} {x : OAuthSession}
    {f : Except TokenEndpointFailure (TokenResponse × Nat) → Auth α}
    {Q : Option AuthState → α → Prop}
    (hrefreshed : s.refreshed = none) (hpending : s.pending = false)
    (hx : x ∈ s.got ∨ ∃ current, s.session = some current ∧ current.accessToken = x.accessToken)
    (hok : ∀ body now, (f (.ok (body, now))).ok (k.lock p c) Q
      (some (s.spend x (x.renewed body now))))
    (hrejected : ∀ message, (f (.error (.rejected message))).ok (k.lock p c) Q
      (some { s with refreshed := some (x, none) }))
    (htransient : ∀ message, (f (.error (.transient message))).ok (k.lock p c) Q (some s)) :
    (perform (.refresh metadata x) >>= f).ok (k.lock p c) Q (some s) := by
  refine ok_held (.inr rfl) ⟨hrefreshed, hpending, hx⟩ ?_
  rintro (failure | ⟨body, now⟩) _ ⟨_, _, rfl⟩
  · cases failure with
    | rejected message => exact hrejected message
    | transient message => exact htransient message
  · exact hok body now

theorem commit_renewed {x : OAuthSession} {body : TokenResponse} {now : Nat}
    (hc : c.isLogout = false) (hsigned : s.signedOut = false) :
    (k.commitLocked (x.renewed body now)).ok (k.lock p c) (fun held _ => Releasable k c held)
      (some (s.spend x (x.renewed body now))) := by
  refine ok_mono (commitLocked_ok (List.mem_singleton_self _)
    (fun h => absurd (hsigned.symm.trans h) (by decide)) (.inr ⟨x, rfl, rfl⟩)) ?_
  rintro _ _ rfl
  exact releasable hc idle_committed

theorem clear_rejected {x : OAuthSession} (hc : c.isLogout = false) (hpending : s.pending = false) :
    (k.clearRejected x).ok (k.lock p c) (fun held _ => Releasable k c held)
      (some { s with refreshed := some (x, none) }) := by
  refine ok_mono (clearRejected_ok hpending rfl) ?_
  rintro _ _ rfl
  exact releasable hc (idle_cleared hpending)

theorem recoverLocked_ok {config : OAuthConfig} {metadata : AuthorizationServerMetadata}
    {epoch : UInt64} {rejectedToken : Option String} (hc : c.isLogout = false) (hs : s.Idle) :
    (k.recoverLocked config metadata epoch rejectedToken).ok (k.lock p c)
      (fun held _ => Releasable k c held) (some s.entered) := by
  refine ok_held (.inl rfl) trivial ?_
  rintro _ _ ⟨_, rfl, rfl⟩
  split
  · exact releasable hc (idle_entered hs)
  · rename_i hseen
    have hsigned : s.signedOut = false := Bool.eq_false_iff.2 fun h => hseen (.inr h)
    have hnot : ∀ {q : Prop}, s.signedOut = true → q := fun h =>
      absurd (hsigned.symm.trans h) (by decide)
    refine ok_held (.inr rfl) ⟨rfl, rfl⟩ ?_
    rintro (e | _ | current) _ ⟨_, _, rfl⟩
    · exact releasable hc (idle_entered hs)
    · refine ok_bind (ok_mono (forgetLocked_ok rfl) ?_)
      rintro _ _ ⟨rfl, -⟩
      exact releasable hc (idle_forgotten rfl rfl)
    · have hcurrent : current ∈ current :: s.entered.got := List.mem_cons_self
      dsimp only
      split
      · refine ok_bind (ok_mono (publishLocked_ok hcurrent hnot) ?_)
        rintro _ _ rfl
        exact releasable hc (idle_published rfl)
      · refine refresh_ok rfl rfl (.inl hcurrent) (fun body now => ?_) (fun message => ?_)
          fun message => ?_
        · refine ok_bind (ok_mono (commit_renewed hc hsigned) ?_)
          exact fun _ _ h => h
        · refine ok_bind (ok_mono (clear_rejected hc rfl) ?_)
          exact fun _ _ h => h
        · exact releasable hc ⟨hnot, rfl, rfl⟩

theorem refreshLocked_ok {metadata : AuthorizationServerMetadata} {session : OAuthSession}
    (hc : c.isLogout = false) (hs : s.Idle) :
    (k.refreshLocked metadata session).ok (k.lock p c) (fun held _ => Releasable k c held)
      (some s.entered) := by
  refine ok_held (.inl rfl) trivial ?_
  rintro _ _ ⟨_, rfl, rfl⟩
  refine ok_held (.inl rfl) trivial ?_
  rintro _ _ ⟨_, rfl, rfl⟩
  split
  · exact releasable hc (idle_entered hs)
  · rename_i hseen
    rw [not_or, not_not] at hseen
    have hsigned : s.signedOut = false := Bool.eq_false_iff.2 hseen.2
    obtain ⟨current, hcurrent, haccess⟩ := Option.map_eq_some_iff.1 hseen.1
    refine refresh_ok rfl rfl (.inr ⟨current, hcurrent, haccess⟩) (fun body now => ?_)
      (fun message => ?_) fun message => ?_
    · exact ok_bind (ok_mono (commit_renewed hc hsigned) fun _ _ h => h)
    · exact ok_bind (ok_mono (clear_rejected hc rfl) fun _ _ h => h)
    · exact releasable hc (idle_entered hs)

theorem refreshCurrent_ok {metadata : AuthorizationServerMetadata} (hc : c.isLogout = false)
    (hs : s.Idle) :
    (k.refreshCurrent metadata).ok (k.lock p c) (fun held _ => Releasable k c held)
      (some s.entered) := by
  refine ok_held (.inl rfl) trivial ?_
  rintro a _ ⟨_, ha, rfl⟩
  cases a with
  | none => exact releasable hc (idle_entered hs)
  | some current =>
    have hsession : s.session = some current := Eq.symm ha
    have hsigned : s.signedOut = false := Bool.eq_false_iff.2 fun h => by
      have := (hs.empty h).2
      rw [hsession] at this
      cases this
    refine refresh_ok rfl rfl (.inr ⟨current, hsession, rfl⟩) (fun body now => ?_)
      (fun message => ?_) fun message => ?_
    · exact commit_renewed hc hsigned
    · refine ok_bind (ok_mono (clear_rejected hc rfl) ?_)
      rintro _ (_ | _) h <;> exact h
    · exact releasable hc (idle_entered hs)

theorem loginLocked_ok {config : OAuthConfig} {metadata : AuthorizationServerMetadata}
    {resource : String} {mode : OAuthLoginMode} {observed : UInt64} (hc : c.isLogin = true)
    (hs : s.Idle) :
    (k.loginLocked config metadata resource mode observed).ok (k.lock p c)
      (fun held _ => Releasable k c held) (some s.entered) := by
  have hlogout : c.isLogout = false := by cases c <;> first | rfl | cases hc
  have hsign : c.signsIn = true := by cases c <;> first | rfl | cases hc
  have hentered := idle_entered hs
  refine ok_held (.inl rfl) trivial ?_
  rintro _ _ ⟨_, rfl, rfl⟩
  refine ok_held (.inl rfl) trivial ?_
  rintro _ _ ⟨_, rfl, rfl⟩
  split
  · exact releasable hlogout hentered
  · refine ok_held (.inr rfl) ⟨rfl, rfl⟩ ?_
    rintro (message | session) _ ⟨_, _, rfl⟩
    · exact releasable hlogout hentered
    · refine ok_held (.inl rfl) trivial ?_
      rintro _ _ ⟨_, _, rfl⟩
      refine ok_mono (commitLocked_ok (List.mem_singleton_self _) (fun _ => hsign)
        (.inl ⟨rfl, hc⟩)) ?_
      rintro _ _ rfl
      exact releasable hlogout idle_committed

theorem loadLocked_ok {config : OAuthConfig} {issuer : String} (hc : c.isLogout = false)
    (hsign : c.signsIn = true) (hs : s.Idle) :
    (k.loadLocked config issuer).ok (k.lock p c) (fun held _ => Releasable k c held)
      (some s.entered) := by
  have hentered := idle_entered hs
  refine ok_held (.inr rfl) ⟨rfl, rfl⟩ ?_
  rintro (e | _ | session) _ ⟨_, _, rfl⟩
  · exact releasable hc hentered
  · exact releasable hc hentered
  · refine ok_bind (ok_mono (publishLocked_ok List.mem_cons_self fun _ => hsign) ?_)
    rintro _ _ rfl
    exact releasable hc (idle_published rfl)

theorem revokeGrant_ok {grant : Option OAuthSession} {metadata : Option AuthorizationServerMetadata}
    (hgrant : ∀ x, grant = some x → x ∈ s.got) :
    (revokeGrant grant metadata).ok (k.lock p c) (fun held _ => held = some s) (some s) := by
  unfold revokeGrant
  split
  · exact rfl
  · exact rfl
  · split
    · exact rfl
    · refine ok_held (.inr rfl) (hgrant _ rfl) ?_
      rintro (_ | _) _ ⟨_, _, rfl⟩ <;> exact rfl

theorem logoutLocked_ok {config : OAuthConfig} {issuer : Option String}
    {metadata : Option AuthorizationServerMetadata} (hc : c.isLogout = true) :
    (k.logoutLocked config issuer metadata).ok (k.lock p c) (fun held _ => Releasable k c held)
      (some s.entered) := by
  have hdone : ∀ s : AuthState, s.signedOut = true → s.token = none → s.session = none →
      s.pending = false → s.refreshed = none → Releasable k c (some s) :=
    fun s hsigned htoken hsession hpending hrefreshed =>
      ⟨s, rfl, ⟨fun _ => ⟨htoken, hsession⟩, hpending, hrefreshed⟩,
        fun _ => ⟨hsigned, htoken, hsession⟩⟩
  refine ok_held (.inr rfl) trivial ?_
  rintro _ _ ⟨_, _, rfl⟩
  refine ok_bind (ok_mono (forgetLocked_ok rfl) ?_)
  rintro _ inMemory ⟨rfl, hmemory⟩
  split
  · exact hdone _ rfl rfl rfl rfl rfl
  · rename_i issuer _
    refine ok_held (.inr rfl) ⟨rfl, rfl⟩ ?_
    rintro stored _ ⟨_, _, rfl⟩
    refine ok_held (.inl rfl) trivial ?_
    rintro trusted _ ⟨_, _, rfl⟩
    refine ok_bind (ok_mono (revokeGrant_ok (fun x hx => ?_)) ?_)
    · rcases Option.or_eq_some_iff.1 hx with hx | ⟨-, hx⟩
      · have hin : x ∈ s.session.toList := by
          have hsession : s.session = some x :=
            hmemory.symm.trans (Option.filter_eq_some_iff.1 hx).1
          simp [hsession]
        cases stored with
        | error _ => exact List.mem_append_left _ hin
        | ok found => exact List.mem_append_right _ (List.mem_append_left _ hin)
      · cases stored with
        | error _ => cases hx
        | ok found =>
          cases found with
          | none => cases hx
          | some y =>
            cases hx
            exact List.mem_cons_self
    · rintro _ revocation rfl
      refine ok_held (.inr rfl) (.inl ⟨?_, hc⟩) ?_
      · cases stored <;> rfl
      · rintro cleared _ ⟨_, _, rfl⟩
        cases stored <;> cases cleared <;> exact hdone _ rfl rfl rfl rfl rfl

/-! ## Calls -/

theorem discover_ok {resourceMetadata : String} :
    (k.discover resourceMetadata).ok (k.lock p c) (fun held _ => held = none) none := by
  unfold discover
  split
  · exact rfl
  · exact rfl
  · refine ok_free rfl ?_
    rintro (_ | ⟨found, metadata⟩)
    · exact rfl
    · exact ok_free rfl fun _ => rfl

theorem authorizationServerMetadata_ok {issuer : String} :
    (k.authorizationServerMetadata issuer).ok (k.lock p c) (fun held _ => held = none) none := by
  refine ok_free rfl fun trusted => ?_
  split
  · exact rfl
  · exact rfl
  · refine ok_free rfl ?_
    rintro (_ | metadata)
    · exact rfl
    · dsimp only
      split
      · exact rfl
      · exact rfl
      · exact ok_free rfl fun _ => rfl

theorem challengedMetadata_ok {challenge : Option String} :
    (k.challengedMetadata challenge).ok (k.lock p c) (fun held _ => held = none) none := by
  cases challenge with
  | none => exact rfl
  | some challenge =>
    refine ok_bind (ok_mono discover_ok ?_)
    rintro _ (_ | ⟨_, metadata⟩) rfl <;> exact rfl

theorem retainedMetadata_ok :
    k.retainedMetadata.ok (k.lock p c) (fun held _ => held = none) none := by
  refine ok_free rfl ?_
  rintro (_ | metadata)
  · refine ok_free rfl ?_
    rintro (_ | session)
    · exact rfl
    · refine ok_bind (ok_mono authorizationServerMetadata_ok ?_)
      rintro _ (_ | _) rfl <;> exact rfl
  · exact rfl

theorem recoveryMetadata_ok {challenge : Option String} :
    (k.recoveryMetadata challenge).ok (k.lock p c) (fun held _ => held = none) none := by
  refine ok_bind (ok_mono challengedMetadata_ok ?_)
  rintro _ (_ | metadata) rfl
  · exact retainedMetadata_ok
  · exact rfl

theorem recoverAuthorization_ok {rejectedToken challenge : Option String}
    (hc : c.isLogout = false) :
    (k.recoverAuthorization rejectedToken challenge).ok (k.lock p c)
      (fun held _ => held = none) none := by
  unfold recoverAuthorization
  split
  · exact rfl
  · refine ok_free rfl fun before => ?_
    split
    · exact rfl
    · refine ok_bind (ok_mono recoveryMetadata_ok ?_)
      rintro _ (_ | metadata) rfl
      · exact rfl
      · exact withLock_ok fun s hs => recoverLocked_ok hc hs

theorem refreshIfExpiring_ok (hc : c.isLogout = false) :
    k.refreshIfExpiring.ok (k.lock p c) (fun held _ => held = none) none := by
  refine ok_free rfl ?_
  rintro (_ | session)
  · exact rfl
  · refine ok_free rfl fun now => ?_
    split
    · refine ok_free rfl fun trusted => ?_
      split
      · exact rfl
      · exact withLock_ok fun s hs => refreshLocked_ok hc hs
    · exact rfl

theorem sendAndRead_ok (hc : c.isLogout = false) :
    k.sendAndRead.ok (k.lock p c) (fun held _ => held = none) none := by
  have hsend : (perform .send).ok (k.lock p c) (fun held _ => held = none) none :=
    ok_free (f := pure) rfl fun _ => rfl
  unfold sendAndRead
  split
  · refine ok_bind (ok_mono (refreshIfExpiring_ok hc) ?_)
    rintro _ _ rfl
    exact hsend
  · exact hsend

theorem sendAuthorized_ok (hc : c.isLogout = false) :
    k.sendAuthorized.ok (k.lock p c) (fun held _ => held = none) none := by
  refine ok_bind (ok_mono (sendAndRead_ok hc) ?_)
  rintro _ ⟨token, e | ⟨status, challenge⟩⟩ rfl
  · exact rfl
  · dsimp only
    split
    · refine ok_bind (ok_mono (recoverAuthorization_ok hc) ?_)
      rintro _ (e | _ | _) rfl
      · exact rfl
      · exact rfl
      · refine ok_bind (ok_mono (sendAndRead_ok hc) ?_)
        rintro _ _ rfl
        exact rfl
    · exact rfl

theorem interactiveLogin_ok {metadata : AuthorizationServerMetadata} {resource : String}
    {mode : OAuthLoginMode} (hc : c.isLogin = true) :
    (k.interactiveLogin metadata resource mode).ok (k.lock p c) (fun held _ => held = none)
      none := by
  unfold interactiveLogin
  split
  · exact rfl
  · exact ok_free rfl fun _ => withLock_ok fun s hs => loginLocked_ok hc hs

theorem program_ok (k : AuthClient) (p : P) (c : AuthCall) :
    (k.program c).ok (k.lock p c) (fun held _ => held = none) none := by
  cases c with
  | request =>
    exact ok_bind (ok_mono (sendAuthorized_ok rfl) fun _ _ h => h)
  | discover resourceMetadata => exact ok_bind (ok_mono discover_ok fun _ _ h => h)
  | authorizationServerMetadata issuer =>
    exact ok_bind (ok_mono authorizationServerMetadata_ok fun _ _ h => h)
  | login metadata resource => exact ok_bind (ok_mono (interactiveLogin_ok rfl) fun _ _ h => h)
  | loginFromChallenge resourceMetadata mode =>
    refine ok_bind ?_
    unfold loginFromChallenge
    split
    · exact rfl
    · refine ok_bind (ok_mono discover_ok ?_)
      rintro _ (_ | ⟨found, metadata⟩) rfl
      · exact rfl
      · exact ok_free rfl fun _ => ok_mono (interactiveLogin_ok rfl) fun _ _ h => h
  | loadStoredSession issuer =>
    refine ok_bind ?_
    unfold loadStoredSession
    split
    · exact rfl
    · exact ok_mono (withLock_ok fun s hs => loadLocked_ok rfl rfl hs) fun _ _ h => h
  | refresh metadata =>
    exact ok_bind (ok_mono (withLock_ok fun s hs => refreshCurrent_ok rfl hs) fun _ _ h => h)
  | logout issuer metadata =>
    refine ok_bind ?_
    unfold logout
    split
    · exact rfl
    · exact ok_mono (withLock_ok fun s _ => logoutLocked_ok rfl) fun _ _ h => h

theorem typed (k : AuthClient) : Service.Typed (P := P) k.service k.Permits AuthState.Idle where
  init s h := ⟨fun hsigned => absurd (h.2.1.symm.trans hsigned) (by decide), h.2.2.2.1, h.2.2.1⟩
  program := k.program_ok
  frame p c s h op a hrole := by
    cases op <;> first | rfl | cases hrole

end AuthClient

end AgentPalace.Remote
