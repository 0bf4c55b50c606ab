import AgentPalace.Remote.LoginLock

/-!
# Logout is final

A client that was signed out by a logout stays without a grant until a call
with which the user signs in publishes one (`logout_final`): what recoveries and
refreshes that were under way still do is done without a credential, and none of
them saves.
-/

namespace AgentPalace.Remote

variable {P : Type} [DecidableEq P] {k : AuthClient}

abbrev AuthPool (P : Type) := Pool AuthOp AuthOp.Ans P AuthCall AuthState (AuthShared P)

abbrev AuthEvent (P : Type) := PoolEvent AuthOp AuthOp.Ans P AuthCall

structure AuthState.Out (s : AuthState) : Prop where
  signedOut : s.signedOut = true
  token : s.token = none
  session : s.session = none

/-- A call with which the user signs in begins to publish a grant. -/
def PublishesLogin (p : P) (e : AuthEvent P) : Prop :=
  ∃ i c t a, e = .act i p c (.writeToken (some t)) a ∧ c.signsIn = true

/-- A step of a process that saves nothing, and sends no request with a credential. -/
def Harmless (p : P) (e : AuthEvent P) : Prop :=
  (∀ i c id session a, e ≠ .act i p c (.save id session) a) ∧
    ∀ i c reply, e = .act i p c .send reply → reply.token = none

variable {p : P} {c : AuthCall} {s : AuthState} {h : AuthShared P}

/-- An allowed operation keeps a client signed out that is. -/
theorem AuthState.Out.exec (hs : s.Out) {op : AuthOp} {a : op.Ans}
    (hpermits : op.role = .locked → k.Permits c s op)
    (hquiet : ∀ t, op = .writeToken (some t) → c.signsIn = false) :
    (AuthOp.exec p s h op a).1.Out := by
  cases op with
  | writeToken token =>
    cases token with
    | none => exact ⟨hs.signedOut, rfl, hs.session⟩
    | some t =>
      have hsign := (hpermits rfl).1 hs.signedOut
      rw [hquiet t rfl] at hsign
      cases hsign
  | publishSession session =>
    have htoken := ((hpermits rfl).2 hs.signedOut).2
    rw [hs.token] at htoken
    cases htoken
  | signOut => exact ⟨rfl, hs.token, hs.session⟩
  | takeSession => exact ⟨hs.signedOut, hs.token, rfl⟩
  | refresh metadata session =>
    obtain (failure | ⟨body, now⟩) := a
    · cases failure <;> exact ⟨hs.signedOut, hs.token, hs.session⟩
    · exact ⟨hs.signedOut, hs.token, hs.session⟩
  | load id => cases a <;> exact ⟨hs.signedOut, hs.token, hs.session⟩
  | save id session => cases a <;> exact ⟨hs.signedOut, hs.token, hs.session⟩
  | clear id => cases a <;> exact ⟨hs.signedOut, hs.token, hs.session⟩
  | login metadata resource mode => cases a <;> exact ⟨hs.signedOut, hs.token, hs.session⟩
  | _ => exact ⟨hs.signedOut, hs.token, hs.session⟩

theorem out_step {w w' : AuthPool P} {e : AuthEvent P}
    (hguarded : Service.Guarded k.service k.Permits AuthState.Idle w)
    (hout : (w.state p).Out) (hstep : k.service.Step w e w') (hquiet : ¬ PublishesLogin p e) :
    (w'.state p).Out ∧ Harmless p e := by
  have hallowed := fun i c op a (he : e = .act i p c op a) (hrole : AuthOp.role op = .locked) =>
    (hguarded.allowed (he ▸ hstep) (.inl hrole)).2
  refine ⟨?_, fun i c id session a he => ?_, fun i c reply he => ?_⟩
  · cases hstep with
    | start => exact hout
    | finish => exact hout
    | @act i q c op next a htask hlock ha =>
      dsimp only
      by_cases hq : p = q
      · subst hq
        rw [Function.update_self]
        refine hout.exec (hallowed i c op a rfl) fun t ht => ?_
        subst ht
        exact Bool.eq_false_iff.2 fun hsign => hquiet ⟨i, c, t, a, rfl, hsign⟩
      · rw [Function.update_of_ne hq]
        exact hout
  · have hsigned := (hallowed i c _ a he rfl).1
    rw [hout.signedOut] at hsigned
    cases hsigned
  · subst he
    cases hstep with
    | act htask hlock ha => exact Eq.trans ha hout.token

theorem out_run {w w' : AuthPool P} {es : List (AuthEvent P)}
    (hreach : k.service.machine.Reachable w) (hout : (w.state p).Out)
    (hrun : k.service.machine.Run w es w') (hquiet : ∀ e ∈ es, ¬ PublishesLogin p e) :
    (w'.state p).Out ∧ ∀ e ∈ es, Harmless p e := by
  induction hrun with
  | nil => exact ⟨hout, fun _ he => (by cases he)⟩
  | cons hstep _ ih =>
    have hguarded := Service.guarded_reachable (k.typed (P := P)) hreach
    obtain ⟨hnext, hharmless⟩ := out_step hguarded hout hstep (hquiet _ List.mem_cons_self)
    obtain ⟨hend, hrest⟩ :=
      ih (hreach.step hstep) hnext fun e he => hquiet e (List.mem_cons_of_mem _ he)
    exact ⟨hend, List.forall_mem_cons.2 ⟨hharmless, hrest⟩⟩

theorem out_release {w w' : AuthPool P} {i : Nat} {issuer : Option String}
    {metadata : Option AuthorizationServerMetadata} {a : Unit}
    (hreach : k.service.machine.Reachable w)
    (hstep : k.service.Step w (.act i p (.logout issuer metadata) .release a) w') :
    (w'.state p).Out := by
  obtain ⟨-, hpermits⟩ :=
    (Service.guarded_reachable (k.typed (P := P)) hreach).allowed hstep (.inr rfl)
  obtain ⟨hsigned, htoken, hsession⟩ := hpermits rfl
  cases hstep with
  | act htask hlock ha =>
    dsimp only
    rw [Function.update_self]
    exact ⟨hsigned, htoken, hsession⟩

/-- **Logout is final.** From the step with which a logout lets the login lock go, and until a
login or the explicit load of the stored session publishes a grant, the client has no token and no
session, sends no request with a credential, and saves nothing, in any interleaving of calls. -/
theorem logout_final (k : AuthClient) (p : P) {w w' w'' : AuthPool P} {i : Nat}
    {issuer : Option String} {metadata : Option AuthorizationServerMetadata} {a : Unit}
    {es : List (AuthEvent P)} (hreach : k.service.machine.Reachable w)
    (hlogout : k.service.machine.Step w (.act i p (.logout issuer metadata) .release a) w')
    (hrun : k.service.machine.Run w' es w'') (hquiet : ∀ e ∈ es, ¬ PublishesLogin p e) :
    (w''.state p).token = none ∧ (w''.state p).session = none ∧
      ∀ e ∈ es, (∀ j c id session b, e ≠ .act j p c (.save id session) b) ∧
        ∀ j c reply, e = .act j p c .send reply → reply.token = none := by
  obtain ⟨hout, hharmless⟩ :=
    out_run (hreach.step hlogout) (out_release hreach hlogout) hrun hquiet
  exact ⟨hout.token, hout.session, hharmless⟩

/-! ### A client -/

def sampleAuthClient : AuthClient :=
  ⟨"hub", "https://hub.example/api", some ⟨"client", none, .browser⟩, some, fun _ _ => .ok ()⟩

def freshState : AuthState := ⟨none, none, 0, 0, false, [], none, false, [], []⟩

/-- Processes that have not started a call, on a store. -/
def freshPool (P : Type) (store : Identity → Option OAuthSession) : AuthPool P where
  state _ := freshState
  shared := ⟨fun _ => none, store, fun _ _ => false⟩
  holder _ := none
  task _ := none

theorem freshPool_init {store : Identity → Option OAuthSession}
    (hstore : ∀ id x, store id = some x → k.identityOf x = id) :
    k.service.machine.Init (freshPool P store) :=
  ⟨fun _ => ⟨rfl, rfl, rfl, rfl, rfl, rfl, rfl⟩, ⟨fun _ => rfl, fun _ _ => rfl, hstore⟩,
    fun _ => rfl, fun _ => rfl⟩

theorem freshPool_reachable {store : Identity → Option OAuthSession}
    (hstore : ∀ id x, store id = some x → k.identityOf x = id) :
    k.service.machine.Reachable (freshPool P store) :=
  ⟨_, [], freshPool_init hstore, .nil _⟩

/-- What the issuer, the remote and the store answer. -/
structure Answers where
  body : TokenResponse
  status : UInt16 := 200
  saves : Bool := true

def AuthOp.answer (r : Answers) (p : P) (s : AuthState) (h : AuthShared P) : (op : AuthOp) → op.Ans
  | .acquire | .release | .signOut | .writeToken _ | .publishSession _ | .writeTrusted _ => ()
  | .observe => ⟨s.epoch, s.generation, s.signedOut⟩
  | .takeSession | .readSession => s.session
  | .readTrusted => h.trusted p
  | .load id => .ok (h.store id)
  | .save _ _ => if r.saves then .ok () else .error ⟨.backend, "secure credential operation failed"⟩
  | .clear id => .ok (if (h.store id).isSome then .removed else .absent)
  | .refresh _ session =>
    if session.refreshToken = none then
      .error (.rejected "OAuth session has no refresh token")
    else .ok (r.body, 0)
  | .login metadata resource _ =>
    .ok ⟨r.body.accessToken, r.body.refreshToken, none, resource, metadata.issuer, "client", none⟩
  | .revoke _ _ => .ok ()
  | .discoverMetadata _ => .error "no metadata"
  | .fetchMetadata issuer => .ok ⟨issuer, "https://issuer.example/token", none⟩
  | .send => ⟨s.token, .ok (r.status, none)⟩
  | .nowSeconds => 0
  | .browserCallbackUsable => true

omit [DecidableEq P] in
theorem AuthOp.answer_admits (r : Answers) (p : P) (s : AuthState) (h : AuthShared P)
    (op : AuthOp) : op.admits p s h (op.answer r p s h) := by
  cases op with
  | load id => exact fun found hfound => (Except.ok.inj hfound).symm
  | clear id =>
    intro outcome houtcome
    cases houtcome
    split <;> simp_all
  | refresh metadata session => exact fun hnone => if_pos hnone
  | _ => first | rfl | trivial

def answering (k : AuthClient) (r : Answers) : (k.service (P := P)).Oracle :=
  ⟨AuthOp.answer r, AuthOp.answer_admits r⟩

def sampleIssuer : AuthorizationServerMetadata :=
  ⟨"https://issuer.example", "https://issuer.example/token", none⟩

/-- A client signs in and out again, and then sends a request. -/
theorem logout_final_sample : ∃ w : AuthPool Unit, sampleAuthClient.service.machine.Reachable w ∧
    (w.state ()).epoch = 1 ∧ (w.state ()).token = none ∧ (w.state ()).session = none := by
  have hruns : ∃ es w, sampleAuthClient.service.play (freshPool Unit fun _ => none)
        ([.start 0 () (.login sampleIssuer "https://hub.example/api")] ++
          List.replicate 10 (.act 0 (answering sampleAuthClient { body := ⟨"a", some "r", none⟩ })) ++
          [.start 1 () (.logout none none)] ++
          List.replicate 7 (.act 1 (answering sampleAuthClient { body := ⟨"a", some "r", none⟩ }))) =
        some (es, w) ∧
      ∃ w', sampleAuthClient.service.move w
          (.act 1 (answering sampleAuthClient { body := ⟨"a", some "r", none⟩ })) =
        some (.act 1 () (.logout none none) .release (), w') ∧
      ∃ es' w'', sampleAuthClient.service.play w' ([.start 2 () .request] ++
          List.replicate 2 (.act 2 (answering sampleAuthClient { body := ⟨"a", some "r", none⟩ }))) =
        some (es', w'') ∧ (w''.state ()).epoch = 1 ∧ ∀ e ∈ es', ¬ PublishesLogin () e :=
    ⟨_, _, rfl, _, rfl, _, _, rfl, rfl, by simp [PublishesLogin]⟩
  obtain ⟨es, w, hpre, w', hlogout, es', w'', hpost, hepoch, hquiet⟩ := hruns
  have hfresh := @freshPool_reachable Unit _ sampleAuthClient (fun _ => none) fun _ _ h => (by cases h)
  have hreach := hfresh.run (Service.play_run hpre)
  have hlogout := Service.move_step hlogout
  have hpost := Service.play_run hpost
  obtain ⟨htoken, hsession, -⟩ := logout_final sampleAuthClient () hreach hlogout hpost hquiet
  exact ⟨w'', (hreach.step hlogout).run hpost, hepoch, htoken, hsession⟩

end AgentPalace.Remote
