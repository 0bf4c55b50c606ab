import AgentPalace.Hub.PolicyFiles
import AgentPalace.Lib.Machine

/-!
# Runs of the policy store

`Effect` says what a call can do to the files: nothing, or one of five changes,
each with what the call has checked before it. The files of a run are accepted
by the next reader as long as no first admission is given an owner id that
another subject holds (`PolicyCall.Distinct`): `resolve` does not look.
-/

namespace AgentPalace.Hub

section
variable {α : Type}

theorem readBounded_ok {file : Option (Stored α)} {value : α} :
    readBounded file = .ok value ↔
      ∃ bytes, file = some ⟨bytes, .ok value⟩ ∧ bytes < maxPolicyFileBytes := by
  constructor
  · intro h
    unfold readBounded at h
    split at h
    · cases h
    · split at h
      · cases h
      · split at h
        · cases h
        · rename_i hbytes _ _ hvalue
          cases h
          exact ⟨_, congrArg some (congrArg (Stored.mk _) hvalue), not_le.1 hbytes⟩
  · rintro ⟨bytes, rfl, hbytes⟩
    simp only [readBounded]
    rw [if_neg (not_le.2 hbytes)]

theorem readBounded_notFound {file : Option (Stored α)} (h : readBounded file = .error .notFound) :
    file = none := by
  unfold readBounded at h
  split at h
  · rfl
  · split at h
    · cases h
    · split at h <;> cases h

theorem writeJsonAtomic_ok {bytes : α → Nat} {value : α} {stored : Stored α}
    (h : writeJsonAtomic bytes value = .ok stored) :
    stored = ⟨bytes value, .ok value⟩ ∧ bytes value < maxPolicyFileBytes := by
  unfold writeJsonAtomic at h
  split at h
  · cases h
  · cases h
    exact ⟨rfl, by omega⟩

end

/-! ## A file that is there is found -/

theorem normalizeEmail_found (value : String) : normalizeEmail value ≠ .error .notFound := by
  intro h
  unfold normalizeEmail at h
  dsimp only at h
  split at h
  · cases h
  · split at h
    · cases h
    · split at h <;> cases h

theorem validateEmails_found (emails : List String) : validateEmails emails ≠ .error .notFound := by
  induction emails with
  | nil => simp [validateEmails]
  | cons email rest ih =>
    intro h
    rw [validateEmails] at h
    split at h
    · rename_i e he
      cases h
      exact normalizeEmail_found email he
    · split at h
      · cases h
      · exact ih h

theorem checkEvents_found (prior : Option Json) (audit : List AuditEntry) :
    checkEvents prior audit ≠ .error .notFound := by
  induction audit generalizing prior with
  | nil => simp [checkEvents]
  | cons event rest ih =>
    intro h
    cases prior <;>
    · simp only [checkEvents] at h
      split at h
      · cases h
      · split at h
        · exact ih _ h
        · cases h

theorem validateAuditChain_found (audit : List AuditEntry) (current : Json) (revision : Nat) :
    validateAuditChain audit current revision ≠ .error .notFound := by
  intro h
  unfold validateAuditChain at h
  split at h
  · cases h
  · split at h
    · rename_i e he
      cases h
      exact checkEvents_found _ _ he
    · split at h <;> cases h

theorem PolicyFile.check_found (policy : PolicyFile) : policy.check ≠ .error .notFound := by
  intro h
  unfold PolicyFile.check at h
  split at h
  · cases h
  · split at h
    · rename_i e he
      cases h
      exact validateEmails_found _ he
    · split at h
      · rename_i e he
        cases h
        exact validateAuditChain_found _ _ _ he
      · split at h <;> cases h

theorem checkBindings_found (entries : List (String × BindingRecord)) (emails : List String)
    (owners : List OwnerId) : checkBindings entries emails owners ≠ .error .notFound := by
  induction entries generalizing emails owners with
  | nil => simp [checkBindings]
  | cons e rest ih =>
    intro h
    rw [checkBindings] at h
    split at h
    · rename_i err he
      cases h
      exact normalizeEmail_found _ he
    · split at h
      · cases h
      · split at h
        · cases h
        · split at h
          · cases h
          · split at h
            · cases h
            · exact ih _ _ h

theorem BindingsFile.check_found (file : BindingsFile) : file.check ≠ .error .notFound := by
  intro h
  unfold BindingsFile.check at h
  split at h
  · cases h
  · split at h
    · rename_i e he
      cases h
      exact validateAuditChain_found _ _ _ he
    · exact checkBindings_found _ _ _ h

/-! ## Reading back what was written -/

namespace Files

variable {env : PolicyEnv} {s t : Files}

theorem readPolicy_ok {policy : PolicyFile} :
    s.readPolicy = .ok policy ↔
      (∃ bytes, s.policy = some ⟨bytes, .ok policy⟩ ∧ bytes < maxPolicyFileBytes) ∧
        policy.Accepted := by
  rw [← readBounded_ok, ← PolicyFile.check_ok]
  unfold readPolicy
  cases hread : readBounded s.policy with
  | error e => simp
  | ok file =>
    cases hcheck : file.check with
    | error e =>
      simp only [hcheck, Except.map, reduceCtorEq, Except.ok.injEq, false_iff, not_and]
      rintro rfl
      simp [hcheck]
    | ok _ =>
      simp only [hcheck, Except.map, Except.ok.injEq, iff_self_and]
      rintro rfl
      exact hcheck

theorem readBindings_ok {file : BindingsFile} :
    s.readBindings = .ok file ↔
      (∃ bytes, s.bindings = some ⟨bytes, .ok file⟩ ∧ bytes < maxPolicyFileBytes) ∧
        file.Accepted := by
  rw [← readBounded_ok, ← BindingsFile.check_ok]
  unfold readBindings
  cases hread : readBounded s.bindings with
  | error e => simp
  | ok stored =>
    cases hcheck : stored.check with
    | error e =>
      simp only [hcheck, Except.map, reduceCtorEq, Except.ok.injEq, false_iff, not_and]
      rintro rfl
      simp [hcheck]
    | ok _ =>
      simp only [hcheck, Except.map, Except.ok.injEq, iff_self_and]
      rintro rfl
      exact hcheck

theorem readPolicy_congr (h : t.policy = s.policy) : t.readPolicy = s.readPolicy := by
  unfold readPolicy
  rw [h]

theorem readBindings_congr (h : t.bindings = s.bindings) : t.readBindings = s.readBindings := by
  unfold readBindings
  rw [h]

theorem readPolicy_notFound (h : s.readPolicy = .error .notFound) : s.policy = none := by
  unfold readPolicy at h
  split at h
  · rename_i e he
    cases h
    exact readBounded_notFound he
  · rename_i policy _
    cases hcheck : policy.check with
    | error e =>
      rw [hcheck] at h
      cases h
      exact absurd hcheck (PolicyFile.check_found policy)
    | ok _ =>
      rw [hcheck] at h
      cases h

theorem readBindings_notFound (h : s.readBindings = .error .notFound) : s.bindings = none := by
  unfold readBindings at h
  split at h
  · rename_i e he
    cases h
    exact readBounded_notFound he
  · rename_i file _
    cases hcheck : file.check with
    | error e =>
      rw [hcheck] at h
      cases h
      exact absurd hcheck (BindingsFile.check_found file)
    | ok _ =>
      rw [hcheck] at h
      cases h

theorem writePolicy_ok {policy : PolicyFile} (h : s.writePolicy env policy = .ok t) :
    t = { s with policy := some ⟨env.policyBytes policy, .ok policy⟩ } ∧
      env.policyBytes policy < maxPolicyFileBytes := by
  unfold writePolicy at h
  split at h
  · cases h
  · cases hwrite : writeJsonAtomic env.policyBytes policy with
    | error e =>
      rw [hwrite] at h
      cases h
    | ok stored =>
      rw [hwrite] at h
      cases h
      obtain ⟨rfl, hbytes⟩ := writeJsonAtomic_ok hwrite
      exact ⟨rfl, hbytes⟩

theorem writeBindings_ok {file : BindingsFile} (h : s.writeBindings env file = .ok t) :
    t = { s with bindings := some ⟨env.bindingsBytes file, .ok file⟩ } ∧
      env.bindingsBytes file < maxPolicyFileBytes := by
  unfold writeBindings at h
  cases hwrite : writeJsonAtomic env.bindingsBytes file with
  | error e =>
    rw [hwrite] at h
    cases h
  | ok stored =>
    rw [hwrite] at h
    cases h
    obtain ⟨rfl, hbytes⟩ := writeJsonAtomic_ok hwrite
    exact ⟨rfl, hbytes⟩

theorem writeBindings_fits {file : BindingsFile}
    (h : env.bindingsBytes file < maxPolicyFileBytes) : ∃ t, s.writeBindings env file = .ok t := by
  unfold writeBindings writeJsonAtomic
  rw [if_neg (not_le.2 h)]
  exact ⟨_, rfl⟩

theorem readPolicy_write {policy : PolicyFile} (h : s.writePolicy env policy = .ok t)
    (haccepted : policy.Accepted) : t.readPolicy = .ok policy := by
  obtain ⟨rfl, hbytes⟩ := writePolicy_ok h
  exact readPolicy_ok.2 ⟨⟨_, rfl, hbytes⟩, haccepted⟩

theorem readBindings_write {file : BindingsFile} (h : s.writeBindings env file = .ok t)
    (haccepted : file.Accepted) : t.readBindings = .ok file := by
  obtain ⟨rfl, hbytes⟩ := writeBindings_ok h
  exact readBindings_ok.2 ⟨⟨_, rfl, hbytes⟩, haccepted⟩

end Files

/-! ## What a call can do -/

inductive Effect (env : PolicyEnv) (s : Files) : PolicyCall → Files → Prop where
  | same (c : PolicyCall) : Effect env s c s
  /-- The policy is written if there is none, and the bindings if there are none. -/
  | opened {bootstrap : Option BootstrapAdmin} {now : UInt64} {t : Files}
      (hpolicy : t.policy = s.policy ∨ (s.policy = none ∧ ∃ b email u,
        bootstrap = some b ∧ normalizeEmail b.email = .ok email ∧
          s.writePolicy env (Files.bootstrapPolicy now email b.mailboxProven) = .ok u ∧
            t.policy = u.policy))
      (hbindings : t.bindings = s.bindings ∨ (s.bindings = none ∧ ∃ u,
        s.writeBindings env (Files.initialBindings now) = .ok u ∧ t.bindings = u.bindings)) :
      Effect env s (.openStore bootstrap now) t
  /-- A subject is bound on its first admission. -/
  | admitted {identity : VerifiedIdentity} {now : UInt64} {t : Files} {file : BindingsFile}
      {binding : SubjectBinding} {email : String} (hread : s.readBindings = .ok file)
      (hparse : SubjectBinding.parse identity.issuer identity.subject = .ok binding)
      (hemail : normalizeEmail identity.email = .ok email)
      (hnew : file.bindings.get? (bindingKey binding) = none)
      (hother : ∀ key r, file.bindings.get? key = some r → r.email ≠ email)
      (hwrite : s.writeBindings env (Files.changeBindings file (file.bindings.insert
        (bindingKey binding) ⟨env.stableOwnerId (bindingKey binding), email⟩) "oidc-admission"
        "subject_bound" now) = .ok t) :
      Effect env s (.resolve identity now) t
  | bound {binding : SubjectBinding} {ownerId : OwnerId} {value email actor trimmed : String}
      {now : UInt64} {t : Files} {file : BindingsFile} (hread : s.readBindings = .ok file)
      (hactor : validateActor actor = .ok trimmed) (hemail : normalizeEmail value = .ok email)
      (hnew : file.bindings.get? (bindingKey binding) = none)
      (hother : ∀ key r, file.bindings.get? key = some r → r.email ≠ email ∧ r.ownerId ≠ ownerId)
      (hwrite : s.writeBindings env (Files.changeBindings file (file.bindings.insert
        (bindingKey binding) ⟨ownerId, email⟩) trimmed "subject_bound" now) = .ok t) :
      Effect env s (.bindSubject binding ownerId value actor now) t
  | moved {binding : SubjectBinding} {expected value email actor trimmed : String} {now : UInt64}
      {t : Files} {file : BindingsFile} (hread : s.readBindings = .ok file)
      (hactor : validateActor actor = .ok trimmed) (hemail : normalizeEmail value = .ok email)
      (hother : ∀ key r, file.bindings.get? key = some r → key ≠ bindingKey binding →
        r.email ≠ email)
      (hwrite : s.writeBindings env (Files.changeBindings file (file.bindings.modify
        (bindingKey binding) fun record => { record with email }) trimmed "subject_email_updated"
        now) = .ok t) :
      Effect env s (.updateBindingEmail binding expected value actor now) t
  | replaced {expected : Nat} {actor trimmed : String} {users canonical : OrdMap String AccessEntry}
      {now : UInt64} {t : Files} {policy : PolicyFile} (hread : s.readPolicy = .ok policy)
      (hactor : validateActor actor = .ok trimmed)
      (hcanonical : canonicalizeUsers users = .ok canonical)
      (husers : validateUsers canonical = .ok ())
      (hadmin : canonical.values.any enabledAdmin = true)
      (hwrite : s.writePolicy env
        { policy with
          revision := policy.revision + 1
          users := canonical
          audit := policy.audit ++ [⟨trimmed, timestamp now, "policy_replaced",
            usersValue policy.users, usersValue canonical⟩] } = .ok t) :
      Effect env s (.replace expected actor users now) t

section
variable {env : PolicyEnv} {s t : Files}

theorem not_any_entries {bindings : OrdMap String BindingRecord}
    {p : String × BindingRecord → Prop} [DecidablePred p]
    (h : ¬ (bindings.entries.any fun e => decide (p e)) = true) {key : String} {r : BindingRecord}
    (hget : bindings.get? key = some r) : ¬ p (key, r) := by
  intro hp
  exact h (List.any_eq_true.2 ⟨_, OrdMap.mem_entries.2 hget, decide_eq_true hp⟩)

/-- An open leaves the policy, or finds neither a policy nor a marker and writes the policy. -/
theorem openPolicy_ok {bootstrap : Option BootstrapAdmin} {now : UInt64} {created : Bool}
    (h : s.openPolicy env bootstrap now = .ok (created, t)) :
    (created = false ∧ t = s) ∨ (created = true ∧ s.policy = none ∧ s.bootstrapMarker = false ∧
      ∃ b email, bootstrap = some b ∧ normalizeEmail b.email = .ok email ∧
        s.writePolicy env (Files.bootstrapPolicy now email b.mailboxProven) = .ok t) := by
  unfold Files.openPolicy at h
  split at h
  · cases h
    exact .inl ⟨rfl, rfl⟩
  · rename_i hnone
    split at h
    · cases h
    · rename_i hmarker
      split at h
      · cases h
      · rename_i bootstrap
        split at h
        · cases h
        · rename_i email hemail
          cases hwrite : s.writePolicy env (Files.bootstrapPolicy now email bootstrap.mailboxProven)
            with
          | error e =>
            rw [hwrite] at h
            cases h
          | ok u =>
            rw [hwrite] at h
            cases h
            exact .inr ⟨rfl, Files.readPolicy_notFound hnone, by simpa using hmarker, _, _, rfl,
              hemail, hwrite⟩
  · cases h

theorem openBindings_ok {now : UInt64} (h : s.openBindings env now = .ok t) :
    t.policy = s.policy ∧ (t.bindings = s.bindings ∨ (s.bindings = none ∧
      ∃ u, s.writeBindings env (Files.initialBindings now) = .ok u ∧
        t.bindings = u.bindings)) := by
  unfold Files.openBindings at h
  split at h
  · cases h
    exact ⟨rfl, .inl rfl⟩
  · rename_i hnone
    refine ⟨?_, .inr ⟨Files.readBindings_notFound hnone, t, h, rfl⟩⟩
    rw [(Files.writeBindings_ok h).1]
  · cases h

theorem writeBindings_congr {file : BindingsFile} (h : s.writeBindings env file = .ok t)
    (s' : Files) : ∃ t', s'.writeBindings env file = .ok t' ∧ t'.bindings = t.bindings := by
  unfold Files.writeBindings at h ⊢
  cases hwrite : writeJsonAtomic env.bindingsBytes file with
  | error e =>
    rw [hwrite] at h
    cases h
  | ok stored =>
    rw [hwrite] at h
    cases h
    exact ⟨_, rfl, rfl⟩

theorem effect_open (bootstrap : Option BootstrapAdmin) (now : UInt64) :
    Effect env s (.openStore bootstrap now) (s.openStore env bootstrap now).2 := by
  unfold Files.openStore
  split
  · exact .same _
  · rename_i created t h
    obtain ⟨hbindings, hpolicy⟩ : t.bindings = s.bindings ∧ (t.policy = s.policy ∨
        (s.policy = none ∧ ∃ b email u, bootstrap = some b ∧ normalizeEmail b.email = .ok email ∧
          s.writePolicy env (Files.bootstrapPolicy now email b.mailboxProven) = .ok u ∧
            t.policy = u.policy)) := by
      rcases openPolicy_ok h with ⟨-, rfl⟩ | ⟨-, hnone, -, b, email, hb, he, hwrite⟩
      · exact ⟨rfl, .inl rfl⟩
      · exact ⟨by rw [(Files.writePolicy_ok hwrite).1], .inr ⟨hnone, b, email, t, hb, he, hwrite, rfl⟩⟩
    have hmarked : (if created = true then t.writeMarker else t).policy = t.policy ∧
        (if created = true then t.writeMarker else t).bindings = t.bindings := by
      split <;> exact ⟨rfl, rfl⟩
    dsimp only
    split
    · rw [← hmarked.1] at hpolicy
      exact .opened hpolicy (.inl (hmarked.2.trans hbindings))
    · rename_i u hopen
      obtain ⟨hu, hub⟩ := openBindings_ok hopen
      rw [hmarked.2, hbindings] at hub
      rw [← hmarked.1, ← hu] at hpolicy
      refine .opened hpolicy (hub.imp_right fun ⟨hnone, v, hv, heq⟩ => ⟨hnone, ?_⟩)
      obtain ⟨t', ht', hbt'⟩ := writeBindings_congr hv s
      exact ⟨t', ht', heq.trans hbt'.symm⟩

theorem effect_resolve (identity : VerifiedIdentity) (now : UInt64) :
    Effect env s (.resolve identity now) (s.resolve env identity now).2 := by
  unfold Files.resolve
  split
  · exact .same _
  split
  · exact .same _
  rename_i email hemail
  split
  · exact .same _
  rename_i binding hparse
  split
  · exact .same _
  rename_i file hread
  dsimp only
  split
  · exact .same _
  split
  · exact .same _
  split
  · exact .same _
  rename_i ownerId howner
  split
  · exact .same _
  split
  · exact .same _
  rename_i hcontains
  have hnew : file.bindings.get? (bindingKey binding) = none := by
    simpa [OrdMap.contains] using hcontains
  unfold Files.ownerFor at howner
  rw [hnew] at howner
  dsimp only at howner
  split at howner
  · cases howner
  rename_i hany
  cases howner
  split
  · exact .same _
  rename_i t hwrite
  refine .admitted hread hparse hemail hnew (fun key r hget heq => ?_) hwrite
  refine not_any_entries hany hget ⟨?_, heq⟩
  rintro rfl
  rw [hnew] at hget
  cases hget

theorem effect_replace (expected : Nat) (actor : String) (users : OrdMap String AccessEntry)
    (now : UInt64) :
    Effect env s (.replace expected actor users now) (s.replace env expected actor users now).2 := by
  unfold Files.replace
  split
  · exact .same _
  rename_i policy hread
  split
  · exact .same _
  split
  · exact .same _
  rename_i canonical hcanonical
  split
  · exact .same _
  rename_i husers
  split
  · exact .same _
  rename_i hadmin
  split
  · exact .same _
  split
  · exact .same _
  rename_i trimmed hactor
  split
  · exact .same _
  rename_i t hwrite
  exact .replaced hread hactor hcanonical husers (by simpa using hadmin) hwrite

theorem effect_bindSubject (binding : SubjectBinding) (ownerId : OwnerId) (email actor : String)
    (now : UInt64) :
    Effect env s (.bindSubject binding ownerId email actor now)
      (s.bindSubject env binding ownerId email actor now).2 := by
  unfold Files.bindSubject
  split
  · exact .same _
  rename_i normal hemail
  split
  · exact .same _
  rename_i trimmed hactor
  split
  · exact .same _
  rename_i file hread
  dsimp only
  split
  · exact .same _
  rename_i hnew
  split
  · exact .same _
  rename_i hany
  split
  · exact .same _
  rename_i t hwrite
  refine .bound hread hactor hemail hnew (fun key r hget => ?_) hwrite
  have hr : ¬ (r.email = normal ∨ r.ownerId = ownerId) := fun hr =>
    hany (List.any_eq_true.2 ⟨r, OrdMap.mem_values.2 ⟨key, hget⟩, decide_eq_true hr⟩)
  exact ⟨fun h => hr (.inl h), fun h => hr (.inr h)⟩

theorem effect_update (binding : SubjectBinding) (expected email actor : String) (now : UInt64) :
    Effect env s (.updateBindingEmail binding expected email actor now)
      (s.updateBindingEmail env binding expected email actor now).2 := by
  unfold Files.updateBindingEmail
  split
  · exact .same _
  split
  · exact .same _
  rename_i normal hemail
  split
  · exact .same _
  rename_i trimmed hactor
  split
  · exact .same _
  rename_i file hread
  dsimp only
  split
  · exact .same _
  split
  · exact .same _
  split
  · exact .same _
  rename_i hany
  split
  · exact .same _
  rename_i t hwrite
  refine .moved hread hactor hemail (fun key r hget hkey heq => ?_) hwrite
  exact not_any_entries hany hget ⟨hkey, heq⟩

/-- **What a call can do to the files.** -/
theorem PolicyCall.effect (env : PolicyEnv) (s : Files) (c : PolicyCall) :
    Effect env s c (c.run env s) := by
  cases c with
  | openStore bootstrap now => exact effect_open bootstrap now
  | resolve identity now => exact effect_resolve identity now
  | replace expected actor users now => exact effect_replace expected actor users now
  | bindSubject binding ownerId email actor now => exact effect_bindSubject binding ownerId email actor now
  | updateBindingEmail binding expected email actor now =>
    exact effect_update binding expected email actor now

end

end AgentPalace.Hub
