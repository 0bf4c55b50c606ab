import AgentPalace.Remote.Rotation

/-!
# Processes that share a credential store

Several client processes use one store; each has its own login lock. A refresh
that presents the record as it is in the store, and whose outcome reaches the
store before another process writes there, destroys and resurrects nothing
(`shared_grants`). A refresh of the copy in process may present another grant
than the store holds, and overwrites a newer one (`refresh_overwrites_login`).
-/

namespace AgentPalace.Remote

variable {P : Type} [DecidableEq P] {k : AuthClient}

/-- What the steps must meet: a refresh presents the record that is in the store and that no other
process saved since, and nobody writes a record while a refresh of it by another process is not
settled. -/
def MeetsSharing (k : AuthClient) (p : P) (w : AuthPool P) : AuthOp → Prop
  | .refresh _ x =>
    w.shared.store (k.identityOf x) = some x ∧ w.shared.stale p (k.identityOf x) = false
  | .save id _ | .clear id =>
    ∀ q, q ≠ p → ∀ x y, (w.state q).refreshed = some (x, y) → k.identityOf x ≠ id
  | _ => True

def SharingMet (k : AuthClient) (w : AuthPool P) : AuthEvent P → Prop
  | .act _ p _ op _ => MeetsSharing k p w op
  | _ => True

/-- While a refresh is not settled its session is in the store. -/
def Unsettled (k : AuthClient) (w : AuthPool P) : Prop :=
  ∀ p x y, (w.state p).refreshed = some (x, y) →
    w.shared.store (k.identityOf x) = some x ∧ w.shared.stale p (k.identityOf x) = false

/-- What an operation does to the unsettled refresh of its process. -/
theorem refreshed_exec {p : P} {s : AuthState} {h : AuthShared P} {op : AuthOp} {a : op.Ans}
    {x : OAuthSession} {y : Option OAuthSession}
    (hx : (AuthOp.exec p s h op a).1.refreshed = some (x, y)) :
    (∃ metadata, op = .refresh metadata x) ∨
      s.refreshed = some (x, y) ∧ (∀ id z, op ≠ .save id z) ∧ ∀ id, op ≠ .clear id := by
  have hkept : ∀ op' : AuthOp, (∀ id z, op' ≠ .save id z) → (∀ id, op' ≠ .clear id) →
      s.refreshed = some (x, y) → (∃ metadata, op' = .refresh metadata x) ∨
        s.refreshed = some (x, y) ∧ (∀ id z, op' ≠ .save id z) ∧ ∀ id, op' ≠ .clear id :=
    fun op' hsave hclear hold => .inr ⟨hold, hsave, hclear⟩
  cases op with
  | acquire => cases hx
  | save id z => cases a <;> cases hx
  | clear id => cases a <;> cases hx
  | refresh metadata z =>
    obtain (failure | ⟨body, now⟩) := a
    · cases failure with
      | rejected message =>
        cases hx
        exact .inl ⟨metadata, rfl⟩
      | transient message => exact hkept _ (by simp) (by simp) hx
    · cases hx
      exact .inl ⟨metadata, rfl⟩
  | load id => cases a <;> exact hkept _ (by simp) (by simp) hx
  | login metadata resource mode => cases a <;> exact hkept _ (by simp) (by simp) hx
  | _ => exact hkept _ (by simp) (by simp) hx

theorem store_exec {p : P} {s : AuthState} {h : AuthShared P} {op : AuthOp} {a : op.Ans}
    (hsave : ∀ id z, op ≠ .save id z) (hclear : ∀ id, op ≠ .clear id) :
    (AuthOp.exec p s h op a).2.store = h.store := by
  cases op with
  | save id z => exact absurd rfl (hsave id z)
  | clear id => exact absurd rfl (hclear id)
  | refresh metadata z =>
    obtain (failure | ⟨body, now⟩) := a
    · cases failure <;> rfl
    · rfl
  | load id => cases a <;> rfl
  | login metadata resource mode => cases a <;> rfl
  | _ => rfl

theorem stale_exec {p q : P} {s : AuthState} {h : AuthShared P} {op : AuthOp} {a : op.Ans}
    {id : Identity} (hsave : ∀ z, op ≠ .save id z) (hstale : h.stale q id = false) :
    (AuthOp.exec p s h op a).2.stale q id = false := by
  have htouch : ∀ id' saved, id' ≠ id ∨ saved = false →
      ((h.touch p id' saved).stale q id = false) := by
    intro id' saved hid
    dsimp only [AuthShared.touch]
    split
    · rename_i heq
      split
      · rfl
      · rcases hid with hne | hsaved
        · exact absurd heq.symm hne
        · rw [hsaved, hstale]
          rfl
    · exact hstale
  cases op with
  | save id' z =>
    cases a with
    | error e => exact hstale
    | ok => exact htouch id' true (.inl fun heq => hsave z (heq ▸ rfl))
  | clear id' =>
    cases a with
    | error e => exact hstale
    | ok outcome => exact htouch id' false (.inr rfl)
  | refresh metadata z =>
    obtain (failure | ⟨body, now⟩) := a
    · cases failure <;> exact hstale
    · exact hstale
  | load id' =>
    cases a with
    | error e => exact hstale
    | ok found => exact htouch id' false (.inr rfl)
  | login metadata resource mode => cases a <;> exact hstale
  | _ => exact hstale

theorem store_exec_of_ne {p : P} {s : AuthState} {h : AuthShared P} {op : AuthOp} {a : op.Ans}
    {id : Identity} (hsave : ∀ z, op ≠ .save id z) (hclear : op ≠ .clear id) :
    (AuthOp.exec p s h op a).2.store id = h.store id := by
  cases op with
  | save id' z =>
    cases a with
    | error e => rfl
    | ok => exact Function.update_of_ne (fun heq : id = id' => hsave z (heq ▸ rfl)) _ _
  | clear id' =>
    cases a with
    | error e => rfl
    | ok outcome => exact Function.update_of_ne (fun heq : id = id' => hclear (heq ▸ rfl)) _ _
  | _ => exact congrFun (store_exec (by simp) (by simp)) id

theorem Unsettled.step {w w' : AuthPool P} {e : AuthEvent P} (hw : Unsettled k w)
    (hstep : k.service.Step w e w') (hmet : SharingMet k w e) : Unsettled k w' := by
  cases hstep with
  | start => exact hw
  | finish => exact hw
  | @act i p c op next a htask hlock hadmits =>
    intro q x y hx
    have hmeets : MeetsSharing k p w op := hmet
    dsimp only at hx ⊢
    by_cases hq : q = p
    · subst hq
      rw [Function.update_self] at hx
      rcases refreshed_exec hx with ⟨metadata, rfl⟩ | ⟨hold, hsave, hclear⟩
      · obtain ⟨hstore, hstale⟩ := hmeets
        refine ⟨?_, stale_exec (by simp) hstale⟩
        rw [← hstore]
        exact store_exec_of_ne (by simp) (by simp)
      · obtain ⟨hstore, hstale⟩ := hw q x y hold
        refine ⟨?_, stale_exec (fun z => hsave _ z) hstale⟩
        rw [← hstore]
        exact store_exec_of_ne (fun z => hsave _ z) (hclear _)
    · rw [Function.update_of_ne hq] at hx
      obtain ⟨hstore, hstale⟩ := hw q x y hx
      have hsave : ∀ z, op ≠ .save (k.identityOf x) z := fun z hop => by
        subst hop
        exact hmeets q hq x y hx rfl
      have hclear : op ≠ .clear (k.identityOf x) := fun hop => by
        subst hop
        exact hmeets q hq x y hx rfl
      refine ⟨?_, stale_exec hsave hstale⟩
      rw [← hstore]
      exact store_exec_of_ne hsave hclear

theorem unsettled_reachable {w : AuthPool P}
    (hreach : (k.service.machine.restrict (SharingMet k)).Reachable w) : Unsettled k w := by
  refine hreach.invariant (I := Unsettled k) (fun a hinit => ?_) fun a e b _ ha hstep => ?_
  · intro p x y hx
    have hrefreshed := (hinit.1 p).2.2.1
    rw [hrefreshed] at hx
    cases hx
  · exact ha.step hstep.1 hstep.2

theorem save_cases {w w' : AuthPool P} {i : Nat} {p : P} {c : AuthCall} {id : Identity}
    {y : OAuthSession} {a : Except TokenStoreError Unit}
    (hreach : (k.service.machine.restrict (SharingMet k)).Reachable w)
    (hstep : k.service.Step w (.act i p c (.save id y) a) w') :
    c.isLogin = true ∨ (∃ x, w.shared.store id = some x) ∧ w.shared.stale p id = false := by
  have hguarded := Service.guarded_reachable (k.typed (P := P)) hreach.of_restrict
  obtain ⟨-, -, -, -, -, hfrom⟩ := hguarded.allowed hstep (.inl rfl)
  rcases hfrom with ⟨-, hlogin⟩ | ⟨x, hrefreshed, rfl⟩
  · exact .inl hlogin
  · obtain ⟨hstore, hstale⟩ := unsettled_reachable hreach p x _ hrefreshed
    exact .inr ⟨⟨x, hstore⟩, hstale⟩

def SavesLogin (id : Identity) (e : AuthEvent P) : Prop :=
  ∃ i p c y a, e = .act i p c (.save id y) a ∧ c.isLogin = true

theorem absent_run {w w' : AuthPool P} {es : List (AuthEvent P)} {id : Identity}
    (hreach : (k.service.machine.restrict (SharingMet k)).Reachable w)
    (hrun : (k.service.machine.restrict (SharingMet k)).Run w es w')
    (habsent : w.shared.store id = none) (hquiet : ∀ e ∈ es, ¬ SavesLogin id e) :
    w'.shared.store id = none ∧ ∀ e ∈ es, ∀ i p c y a, e ≠ .act i p c (.save id y) a := by
  induction hrun with
  | nil => exact ⟨habsent, fun _ he => (by cases he)⟩
  | @cons w1 w2 w3 e es hstep _ ih =>
    have hnosave : ∀ i p c y a, e ≠ .act i p c (.save id y) a := by
      rintro i p c y a rfl
      rcases save_cases hreach hstep.1 with hlogin | ⟨⟨x, hx⟩, -⟩
      · exact hquiet _ List.mem_cons_self ⟨i, p, c, y, a, rfl, hlogin⟩
      · rw [habsent] at hx
        cases hx
    have hnext : w2.shared.store id = none := by
      obtain ⟨hstep, -⟩ := hstep
      cases hstep with
      | start => exact habsent
      | finish => exact habsent
      | @act i p c op next a htask hlock hadmits =>
        by_cases hclear : op = .clear id
        · subst hclear
          cases a with
          | error e => exact habsent
          | ok outcome => exact Function.update_self _ _ _
        · exact (store_exec_of_ne (fun z hop => by
            subst hop
            exact hnosave i p c z a rfl) hclear).trans habsent
    obtain ⟨hend, hrest⟩ :=
      ih (hreach.step hstep) hnext fun e he => hquiet e (List.mem_cons_of_mem _ he)
    exact ⟨hend, List.forall_mem_cons.2 ⟨hnosave, hrest⟩⟩

/-- **Processes on one store destroy and resurrect no grant**, in every run whose steps all meet
the condition. A clear that is not one of a logout deletes the very grant whose refresh was
rejected; a save that is not one of a login overwrites no record that another process saved since;
and a record that a logout cleared is not saved again before a login saves it. -/
theorem shared_grants (k : AuthClient) {w : AuthPool P}
    (hreach : (k.service.machine.restrict (SharingMet k)).Reachable w) :
    (∀ i p c id a w',
      (k.service.machine.restrict (SharingMet k)).Step w (.act i p c (.clear id) a) w' →
      c.isLogout = false →
      ∃ x, (w.state p).refreshed = some (x, none) ∧ w.shared.store id = some x) ∧
    (∀ i p c id y a w',
      (k.service.machine.restrict (SharingMet k)).Step w (.act i p c (.save id y) a) w' →
      c.isLogin = false → w.shared.stale p id = false) ∧
    ∀ i p c id outcome w' es w'',
      (k.service.machine.restrict (SharingMet k)).Step w (.act i p c (.clear id) (.ok outcome)) w' →
      (k.service.machine.restrict (SharingMet k)).Run w' es w'' →
      (∀ e ∈ es, ¬ SavesLogin id e) → ∀ e ∈ es, ∀ j q d y b, e ≠ .act j q d (.save id y) b := by
  refine ⟨fun i p c id a w' hstep hc => ?_, fun i p c id y a w' hstep hc => ?_,
    fun i p c id outcome w' es w'' hstep hrun hquiet => ?_⟩
  · have hguarded := Service.guarded_reachable (k.typed (P := P)) hreach.of_restrict
    rcases (hguarded.allowed hstep.1 (.inl rfl)).2 with ⟨-, hlogout⟩ | ⟨x, hrefreshed, rfl⟩
    · exact absurd (hc.symm.trans hlogout) (by decide)
    · exact ⟨x, hrefreshed, (unsettled_reachable hreach p x _ hrefreshed).1⟩
  · rcases save_cases hreach hstep.1 with hlogin | ⟨-, hstale⟩
    · exact absurd (hc.symm.trans hlogin) (by decide)
    · exact hstale
  · have habsent : w'.shared.store id = none := by
      obtain ⟨hact, -⟩ := hstep
      cases hact
      exact Function.update_self _ _ _
    exact (absent_run (hreach.step hstep) hrun habsent hquiet).2

/-- Two processes load the grant; one refreshes it, and saves the successor. -/
theorem shared_grants_sample : ∃ (w : AuthPool Bool) (y : OAuthSession),
    (w.state false).refreshed = some (sampleGrant, some y) ∧
      w.shared.stale false (sampleAuthClient.identityOf sampleGrant) = false := by
  have hfresh : (sampleAuthClient.service.machine.restrict (SharingMet sampleAuthClient)).Reachable
      (freshPool Bool sampleStore) := ⟨_, [], freshPool_init sampleStore_scoped, .nil _⟩
  have hplays : sampleAuthClient.service.Plays (SharingMet sampleAuthClient)
      (fun w => ∃ y w', (w.state false).refreshed = some (sampleGrant, some y) ∧
        sampleAuthClient.service.move w
          (.act 2 (answering sampleAuthClient { body := ⟨"b", some "s", none⟩ })) =
          some (.act 2 false (.refresh sampleIssuer)
            (.save (sampleAuthClient.identityOf sampleGrant) y) (.ok ()), w') ∧
        SharingMet sampleAuthClient w (.act 2 false (.refresh sampleIssuer)
            (.save (sampleAuthClient.identityOf sampleGrant) y) (.ok ())))
      ([.start 0 true (.loadStoredSession "https://issuer.example")] ++
          List.replicate 5 (.act 0 (answering sampleAuthClient { body := ⟨"b", some "s", none⟩ })) ++
          [.start 1 false (.loadStoredSession "https://issuer.example")] ++
          List.replicate 5 (.act 1 (answering sampleAuthClient { body := ⟨"b", some "s", none⟩ })) ++
          [.start 2 false (.refresh sampleIssuer)] ++
          List.replicate 5 (.act 2 (answering sampleAuthClient { body := ⟨"b", some "s", none⟩ })))
      (freshPool Bool sampleStore) := by
    refine ⟨_, _, rfl, trivial, _, _, rfl, trivial, _, _, rfl, trivial, _, _, rfl, trivial,
      _, _, rfl, trivial, _, _, rfl, trivial, _, _, rfl, trivial, _, _, rfl, trivial,
      _, _, rfl, trivial, _, _, rfl, trivial,
      _, _, rfl, trivial, _, _, rfl, trivial, _, _, rfl, trivial, _, _, rfl, trivial,
      _, _, rfl, trivial, _, _, rfl, ⟨rfl, rfl⟩, _, _, rfl, trivial, _, _, rfl, trivial,
      _, _, rfl, rfl, ?_⟩
    rintro (_ | _) hq x y hx
    · exact absurd rfl hq
    · cases hx
  obtain ⟨w, hreach, y, w', hrefreshed, hmove, hmet⟩ := hplays.reachable hfresh
  exact ⟨w, y, hrefreshed, (shared_grants sampleAuthClient hreach).2.1 2 false _ _ _ _ w'
    ⟨Service.move_step hmove, hmet⟩ rfl⟩

/-- A process refreshes the grant it has in process, and overwrites the one that another process
has saved since by a login. -/
theorem refresh_overwrites_login : ¬ ∀ (w w' : AuthPool Bool) (i : Nat) (p : Bool) (c : AuthCall)
    (id : Identity) (y : OAuthSession) (a : Except TokenStoreError Unit),
    sampleAuthClient.service.machine.Reachable w →
    sampleAuthClient.service.machine.Step w (.act i p c (.save id y) a) w' →
    c.isLogin = false → w.shared.stale p id = false := by
  intro hclaim
  have hruns : ∃ es w, sampleAuthClient.service.play (freshPool Bool sampleStore)
        ([.start 0 false (.loadStoredSession "https://issuer.example")] ++
          List.replicate 5 (.act 0 (answering sampleAuthClient { body := ⟨"b", some "s", none⟩ })) ++
          [.start 1 true (.login sampleIssuer "https://hub.example/api")] ++
          List.replicate 10 (.act 1 (answering sampleAuthClient { body := ⟨"c", some "t", none⟩ })) ++
          [.start 2 false (.refresh sampleIssuer)] ++
          List.replicate 5 (.act 2 (answering sampleAuthClient { body := ⟨"b", some "s", none⟩ }))) =
        some (es, w) ∧
      w.shared.stale false (sampleAuthClient.identityOf sampleGrant) = true ∧
      ∃ y w', sampleAuthClient.service.move w
        (.act 2 (answering sampleAuthClient { body := ⟨"b", some "s", none⟩ })) =
          some (.act 2 false (.refresh sampleIssuer)
            (.save (sampleAuthClient.identityOf sampleGrant) y) (.ok ()), w') :=
    ⟨_, _, rfl, rfl, _, _, rfl⟩
  obtain ⟨es, w, hplay, hstale, y, w', hmove⟩ := hruns
  have hreach := (freshPool_reachable (P := Bool) (k := sampleAuthClient) sampleStore_scoped).run
    (Service.play_run hplay)
  have hfresh := hclaim w w' 2 false _ _ y _ hreach (Service.move_step hmove) rfl
  exact absurd (hstale.symm.trans hfresh) (by decide)

end AgentPalace.Remote
