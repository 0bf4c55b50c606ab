import AgentPalace.Remote.Logout

/-!
# A rotating refresh token is used once

One client on a store of its own. `Unspent` says that no refresh has superseded
the tokens of a session. If every save of a successor succeeds, all sessions at
hand are unspent, and so are those in the store (`Rotated`): a superseded token is
then neither presented nor published again (`rotation_once`). A save that fails
leaves the superseded session in the store, from where a recovery takes it back
(`failed_save_resurrects`).
-/

namespace AgentPalace.Remote

variable {k : AuthClient}

structure OAuthSession.Unspent (spentAccess spentRefresh : List String) (x : OAuthSession) :
    Prop where
  access : x.accessToken ∉ spentAccess
  refresh : ∀ r, x.refreshToken = some r → r ∉ spentRefresh

/-- No refresh has superseded the tokens of a session. -/
abbrev AuthState.Unspent (s : AuthState) (x : OAuthSession) : Prop :=
  x.Unspent s.spentAccess s.spentRefresh

/-- What the steps must meet: a successor is saved, no token is handed out again that is spent,
and the tokens of a session that is refreshed are those of no other session in use. -/
def MeetsRotation (k : AuthClient) (s : AuthState) (h : AuthShared Unit) :
    (op : AuthOp) → op.Ans → Prop
  | .save _ _, .error _ => ∀ x y, s.refreshed ≠ some (x, some y)
  | .refresh _ x, a =>
    (∀ current, s.session = some current → current.accessToken = x.accessToken → current = x) ∧
      ∀ body now, a = .ok (body, now) → s.Unspent (x.renewed body now) ∧
        ∀ id other, h.store id = some other → id ≠ k.identityOf x →
          other.accessToken ≠ x.accessToken ∧
            ∀ r, other.refreshToken = some r → x.refreshToken ≠ some r
  | .login _ _ _, .ok y => s.Unspent y
  | _, _ => True

def RotationMet (k : AuthClient) (w : AuthPool Unit) : AuthEvent Unit → Prop
  | .act _ _ _ op a => MeetsRotation k (w.state ()) w.shared op a
  | _ => True

/-- An operation neither presents a refresh token that was superseded, nor puts back an access
token that was. -/
def UsedOnce (s : AuthState) : AuthOp → Prop
  | .refresh _ x | .revoke _ x => ∀ r, x.refreshToken = some r → r ∉ s.spentRefresh
  | .writeToken (some t) => t ∉ s.spentAccess
  | .publishSession y => y.accessToken ∉ s.spentAccess
  | _ => True

/-- The sessions in use are unspent. What a refresh that is not yet saved has superseded may still
be in the store. -/
structure Rotated (k : AuthClient) (s : AuthState) (h : AuthShared Unit) : Prop where
  session : s.pending = false → ∀ x, s.session = some x → s.Unspent x
  got : ∀ x ∈ s.got, s.Unspent x
  store : ∀ id x, h.store id = some x →
    (∀ old new, s.refreshed = some (old, some new) → id ≠ k.identityOf old) → s.Unspent x

variable {s : AuthState} {h : AuthShared Unit} {c : AuthCall}

theorem unspent_successor {x y : OAuthSession} (hy : s.Unspent y) : (s.spend x y).Unspent y := by
  refine ⟨fun hmem => ?_, fun r hr hmem => ?_⟩
  · dsimp only [AuthState.spend] at hmem
    split at hmem
    · exact hy.access hmem
    · rename_i hne
      rcases List.mem_cons.1 hmem with heq | hmem
      · exact hne heq
      · exact hy.access hmem
  · dsimp only [AuthState.spend] at hmem
    split at hmem
    · exact hy.refresh r hr hmem
    · rename_i hne
      rcases List.mem_append.1 hmem with hold | hmem
      · exact hne (hr.trans (Option.mem_toList.1 hold).symm)
      · exact hy.refresh r hr hmem

theorem unspent_other {x y z : OAuthSession} (hz : s.Unspent z)
    (haccess : z.accessToken ≠ x.accessToken)
    (hrefresh : ∀ r, z.refreshToken = some r → x.refreshToken ≠ some r) :
    (s.spend x y).Unspent z := by
  refine ⟨fun hmem => ?_, fun r hr hmem => ?_⟩
  · dsimp only [AuthState.spend] at hmem
    split at hmem
    · exact hz.access hmem
    · exact (List.mem_cons.1 hmem).elim haccess hz.access
  · dsimp only [AuthState.spend] at hmem
    split at hmem
    · exact hz.refresh r hr hmem
    · rcases List.mem_append.1 hmem with hold | hmem
      · exact hrefresh r hr (Option.mem_toList.1 hold)
      · exact hz.refresh r hr hmem

theorem Rotated.presented (hs : Rotated k s h) {metadata : AuthorizationServerMetadata}
    {x : OAuthSession} (hpermits : k.Permits c s (.refresh metadata x))
    (hsame : ∀ current, s.session = some current → current.accessToken = x.accessToken →
      current = x) : s.Unspent x := by
  obtain ⟨-, hpending, hgot | ⟨current, hcurrent, haccess⟩⟩ := hpermits
  · exact hs.got x hgot
  · exact hsame current hcurrent haccess ▸ hs.session hpending current hcurrent

theorem Rotated.exec (hs : Rotated k s h) {op : AuthOp} {a : op.Ans}
    (hidle : op = .acquire → s.Idle) (hpermits : op.role = .locked → k.Permits c s op)
    (hadmits : op.admits () s h a) (hmeets : MeetsRotation k s h op a) :
    Rotated k (AuthOp.exec () s h op a).1 (AuthOp.exec () s h op a).2 := by
  have hnone : s.refreshed = none → ∀ id x, h.store id = some x → s.Unspent x :=
    fun hrefreshed id x hx => hs.store id x hx fun old new hold => by
      rw [hrefreshed] at hold
      cases hold
  cases op with
  | acquire =>
    have hidle := hidle rfl
    exact ⟨fun _ => hs.session hidle.pending, fun _ hx => (by cases hx),
      fun id x hx _ => hnone hidle.settled id x hx⟩
  | publishSession y =>
    refine ⟨fun _ x hx => ?_, hs.got, hs.store⟩
    cases hx
    exact hs.got y (hpermits rfl).1
  | takeSession =>
    refine ⟨fun _ _ hx => (by cases hx), fun x hx => ?_, hs.store⟩
    rcases List.mem_append.1 hx with hold | hx
    · exact hs.session (hpermits rfl) x (Option.mem_toList.1 hold)
    · exact hs.got x hx
  | load id =>
    cases a with
    | error e => exact hs
    | ok found =>
      refine ⟨hs.session, fun x hx => ?_, hs.store⟩
      rcases List.mem_append.1 hx with hfound | hx
      · exact hnone (hpermits rfl).1 id x
          ((hadmits found rfl).symm.trans (Option.mem_toList.1 hfound))
      · exact hs.got x hx
  | save id y =>
    obtain ⟨-, hy, hid, -, hfrom⟩ := hpermits rfl
    cases a with
    | error e =>
      refine ⟨hs.session, hs.got, fun id x hx _ => hs.store id x hx fun old new hold => ?_⟩
      exact absurd hold (hmeets old new)
    | ok =>
      refine ⟨hs.session, hs.got, fun id' x hx _ => ?_⟩
      have hx : Function.update h.store id (some y) id' = some x := hx
      by_cases hne : id' = id
      · rw [hne, Function.update_self] at hx
        cases hx
        exact hs.got y hy
      · rw [Function.update_of_ne hne] at hx
        refine hs.store id' x hx fun old new hold => ?_
        rcases hfrom with ⟨hrefreshed, -⟩ | ⟨z, hrefreshed, hz⟩
        · rw [hrefreshed] at hold
          cases hold
        · rw [hrefreshed] at hold
          cases hold
          rw [hz]
          exact hne
  | clear id =>
    have hstore : ∀ id x, h.store id = some x → s.Unspent x := fun id x hx =>
      hs.store id x hx fun old new hold => by
        rcases hpermits rfl with ⟨hrefreshed, -⟩ | ⟨z, hrefreshed, -⟩ <;>
          (rw [hrefreshed] at hold; cases hold)
    cases a with
    | error e => exact ⟨hs.session, hs.got, fun id x hx _ => hstore id x hx⟩
    | ok outcome =>
      refine ⟨hs.session, hs.got, fun id' x hx _ => ?_⟩
      have hx : Function.update h.store id none id' = some x := hx
      by_cases hne : id' = id
      · rw [hne, Function.update_self] at hx
        cases hx
      · rw [Function.update_of_ne hne] at hx
        exact hstore id' x hx
  | refresh metadata x =>
    obtain (failure | ⟨body, now⟩) := a
    · cases failure with
      | rejected message =>
        exact ⟨hs.session, hs.got, fun id x hx _ => hnone (hpermits rfl).1 id x hx⟩
      | transient message => exact hs
    · obtain ⟨hnew, hother⟩ := hmeets.2 body now rfl
      refine ⟨fun hpending => (by cases hpending), fun y hy => ?_, fun id z hz hid => ?_⟩
      · obtain rfl := List.mem_singleton.1 hy
        exact unspent_successor hnew
      · obtain ⟨haccess, hrefresh⟩ := hother id z hz (hid x _ rfl)
        exact unspent_other (hnone (hpermits rfl).1 id z hz) haccess hrefresh
  | login metadata resource mode =>
    cases a with
    | error message => exact hs
    | ok y =>
      refine ⟨hs.session, fun x hx => ?_, hs.store⟩
      obtain rfl := List.mem_singleton.1 hx
      exact hmeets
  | _ => exact ⟨hs.session, hs.got, hs.store⟩

theorem Rotated.usedOnce (hs : Rotated k s h) {op : AuthOp} {a : op.Ans}
    (hpermits : op.role = .locked → k.Permits c s op) (hmeets : MeetsRotation k s h op a) :
    UsedOnce s op := by
  cases op with
  | refresh metadata x => exact (hs.presented (hpermits rfl) hmeets.1).refresh
  | revoke metadata x => exact (hs.got x (hpermits rfl)).refresh
  | writeToken token =>
    cases token with
    | none => exact trivial
    | some t =>
      obtain ⟨-, y, hy, rfl⟩ := hpermits rfl
      exact (hs.got y hy).access
  | publishSession y => exact (hs.got y (hpermits rfl).1).access
  | _ => exact trivial

theorem rotated_reachable {w : AuthPool Unit}
    (hreach : (k.service.machine.restrict (RotationMet k)).Reachable w) :
    Rotated k (w.state ()) w.shared := by
  refine hreach.invariant (I := fun w => Rotated k (w.state ()) w.shared)
    (fun a hinit => ?_) fun a e b ha hrotated hstep => ?_
  · obtain ⟨hstate, -, -, -⟩ := hinit
    obtain ⟨-, -, -, -, hgot, haccess, hrefresh⟩ := hstate ()
    have hunspent : ∀ x, (a.state ()).Unspent x := fun x =>
      ⟨by rw [haccess]; exact List.not_mem_nil, fun r _ => by rw [hrefresh]; exact List.not_mem_nil⟩
    exact ⟨fun _ x _ => hunspent x, fun x _ => hunspent x, fun _ x _ _ => hunspent x⟩
  · have hguarded := Service.guarded_reachable (k.typed (P := Unit)) ha.of_restrict
    obtain ⟨hstep, hmeets⟩ := hstep
    cases e with
    | start i p c =>
      cases hstep
      exact hrotated
    | finish i =>
      cases hstep
      exact hrotated
    | act i p c op a =>
      have hallowed := fun hrole => (hguarded.allowed hstep (.inl hrole)).2
      cases hstep with
      | act htask hlock hadmits =>
        exact hrotated.exec (fun hop => hguarded.free () (hlock (hop ▸ rfl))) hallowed hadmits hmeets

/-- **A refresh token is used once.** In every run of one client whose steps all meet the
condition, no operation presents a superseded refresh token or publishes a superseded access
token. -/
theorem rotation_once (k : AuthClient) {w w' : AuthPool Unit} {i : Nat} {c : AuthCall}
    {op : AuthOp} {a : op.Ans}
    (hreach : (k.service.machine.restrict (RotationMet k)).Reachable w)
    (hstep : (k.service.machine.restrict (RotationMet k)).Step w (.act i () c op a) w') :
    UsedOnce (w.state ()) op := by
  have hguarded := Service.guarded_reachable (k.typed (P := Unit)) hreach.of_restrict
  exact (rotated_reachable hreach).usedOnce
    (fun hrole => (hguarded.allowed hstep.1 (.inl hrole)).2) hstep.2

/-! ### A grant in the store -/

def sampleGrant : OAuthSession :=
  ⟨"a", some "r", none, "https://hub.example/api", "https://issuer.example", "client", none⟩

def sampleStore (id : Identity) : Option OAuthSession :=
  if id = sampleAuthClient.identityOf sampleGrant then some sampleGrant else none

theorem sampleStore_scoped (id : Identity) (x : OAuthSession) (h : sampleStore id = some x) :
    sampleAuthClient.identityOf x = id := by
  unfold sampleStore at h
  split at h
  · rename_i hid
    cases h
    exact hid.symm
  · cases h

/-- A client that refreshes the grant that it loaded publishes the token of the successor. -/
theorem rotation_once_sample : ∃ w : AuthPool Unit, (w.state ()).spentAccess = ["a"] ∧
    UsedOnce (w.state ()) (.writeToken (some "b")) := by
  have hfresh : (sampleAuthClient.service.machine.restrict (RotationMet sampleAuthClient)).Reachable
      (freshPool Unit sampleStore) := ⟨_, [], freshPool_init sampleStore_scoped, .nil _⟩
  have hplays : sampleAuthClient.service.Plays (RotationMet sampleAuthClient)
      (fun w => (w.state ()).spentAccess = ["a"] ∧ ∃ w', sampleAuthClient.service.move w
        (.act 1 (answering sampleAuthClient { body := ⟨"b", some "s", none⟩ })) =
          some (.act 1 () (.refresh sampleIssuer) (.writeToken (some "b")) (), w'))
      ([.start 0 () (.loadStoredSession "https://issuer.example")] ++
          List.replicate 5 (.act 0 (answering sampleAuthClient { body := ⟨"b", some "s", none⟩ })) ++
          [.start 1 () (.refresh sampleIssuer)] ++
          List.replicate 3 (.act 1 (answering sampleAuthClient { body := ⟨"b", some "s", none⟩ })))
      (freshPool Unit sampleStore) := by
    refine ⟨_, _, rfl, trivial, _, _, rfl, trivial, _, _, rfl, trivial, _, _, rfl, trivial,
      _, _, rfl, trivial, _, _, rfl, trivial, _, _, rfl, trivial, _, _, rfl, trivial,
      _, _, rfl, trivial, _, _, rfl, ⟨?_, ?_⟩, rfl, _, rfl⟩
    · intro current hcurrent _
      cases hcurrent
      rfl
    · rintro body now hbody
      cases hbody
      refine ⟨⟨List.not_mem_nil, fun _ _ => List.not_mem_nil⟩, fun id other hother hne => ?_⟩
      have hother : sampleStore id = some other := hother
      rw [sampleStore, if_neg hne] at hother
      cases hother
  obtain ⟨w, hreach, hspent, w', hmove⟩ := hplays.reachable hfresh
  exact ⟨w, hspent, rotation_once sampleAuthClient hreach ⟨Service.move_step hmove, trivial⟩⟩

/-- A refresh whose successor cannot be saved: after the next 401 the client publishes the
superseded access token again. -/
theorem failed_save_resurrects : ¬ ∀ (w w' : AuthPool Unit) (i : Nat) (c : AuthCall) (op : AuthOp)
    (a : op.Ans), sampleAuthClient.service.machine.Reachable w →
    sampleAuthClient.service.machine.Step w (.act i () c op a) w' → UsedOnce (w.state ()) op := by
  intro hclaim
  have hruns : ∃ es w, sampleAuthClient.service.play (freshPool Unit sampleStore)
        ([.start 0 () (.loadStoredSession "https://issuer.example")] ++
          List.replicate 5 (.act 0 (answering sampleAuthClient { body := ⟨"b", some "s", none⟩ })) ++
          [.start 1 () (.refresh sampleIssuer)] ++
          List.replicate 7
            (.act 1 (answering sampleAuthClient { body := ⟨"b", some "s", none⟩, saves := false })) ++
          [.start 2 () .request] ++
          List.replicate 12
            (.act 2 (answering sampleAuthClient { body := ⟨"c", some "t", none⟩, status := 401 }))) =
        some (es, w) ∧ (w.state ()).spentAccess = ["a"] ∧
      ∃ w', sampleAuthClient.service.move w
        (.act 2 (answering sampleAuthClient { body := ⟨"c", some "t", none⟩, status := 401 })) =
          some (.act 2 () .request (.writeToken (some "a")) (), w') :=
    ⟨_, _, rfl, rfl, _, rfl⟩
  obtain ⟨es, w, hplay, hspent, w', hmove⟩ := hruns
  have hreach := (freshPool_reachable (P := Unit) (k := sampleAuthClient) sampleStore_scoped).run
    (Service.play_run hplay)
  have honce := hclaim w w' 2 .request _ _ hreach (Service.move_step hmove)
  exact honce (hspent ▸ List.mem_singleton_self "a")

end AgentPalace.Remote
