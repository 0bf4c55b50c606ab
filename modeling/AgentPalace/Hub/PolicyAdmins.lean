import AgentPalace.Hub.PolicyRuns

/-!
# Administrators that can be admitted

The checks of `replace` and of the reader count enabled administrators; an
admission needs a proven mailbox too, and room for its binding.
-/

namespace AgentPalace.Hub

def Files.AdmitsAdmin (env : PolicyEnv) (s : Files) : Prop :=
  ∃ identity now d t, s.resolve env identity now = (.ok (some d), t) ∧ d.role = .admin

def HasProvenAdmin (users : OrdMap String AccessEntry) (email : String) : Prop :=
  ∃ entry, users.get? email = some entry ∧ enabledAdmin entry = true ∧
    mailboxIsProven email entry.mailboxProven = true

/-- The stored policy has an enabled administrator whose mailbox is proven. -/
def Files.ProvenAdmin (s : Files) (email : String) : Prop :=
  ∃ policy, s.readPolicy = .ok policy ∧ HasProvenAdmin policy.users email

def Files.BoundEmail (s : Files) (email : String) : Prop :=
  ∃ key r, s.Bound key r ∧ r.email = email

/-- The bindings file has room for the first admission of a subject with the address. -/
def Files.RoomFor (env : PolicyEnv) (s : Files) (email : String) : Prop :=
  ∃ file binding now, s.readBindings = .ok file ∧
    file.bindings.get? (bindingKey binding) = none ∧
    env.bindingsBytes (Files.changeBindings file (file.bindings.insert (bindingKey binding)
      ⟨env.stableOwnerId (bindingKey binding), email⟩) "oidc-admission" "subject_bound" now) <
      maxPolicyFileBytes

/-- What the call makes the policy has an enabled administrator whose mailbox is proven. -/
def PolicyCall.ProvesAdmin : PolicyCall → Prop
  | .openStore bootstrap _ => ∀ b email, bootstrap = some b → normalizeEmail b.email = .ok email →
    mailboxIsProven email b.mailboxProven = true
  | .replace _ _ users _ => ∀ canonical, canonicalizeUsers users = .ok canonical →
    ∃ email, HasProvenAdmin canonical email
  | _ => True

section
variable {env : PolicyEnv} {s : Files} {email : String}

theorem liveEntry_admin {users : OrdMap String AccessEntry} :
    HasProvenAdmin users email ↔
      ∃ entry, Files.liveUser? users email = some entry ∧ entry.role = .admin := by
  simp only [HasProvenAdmin, Files.liveUser?, enabledAdmin, Option.filter_eq_some_iff,
    Bool.and_eq_true, decide_eq_true_eq]
  constructor
  · rintro ⟨entry, hget, ⟨henabled, hrole⟩, hproven⟩
    exact ⟨entry, ⟨⟨hget, henabled⟩, hproven⟩, hrole⟩
  · rintro ⟨entry, ⟨⟨hget, henabled⟩, hproven⟩, hrole⟩
    exact ⟨entry, hget, ⟨henabled, hrole⟩, hproven⟩

/-- The decision on a subject that is bound to the address, or that nobody else is. -/
theorem resolve_admin {policy : PolicyFile} {file : BindingsFile} {entry : AccessEntry}
    {binding : SubjectBinding} {ownerId : OwnerId} {now : UInt64}
    (hpolicy : s.readPolicy = .ok policy) (hread : s.readBindings = .ok file)
    (hnormal : normalizeEmail email = .ok email)
    (hentry : Files.liveUser? policy.users email = some entry)
    (hsame : ∀ r, file.bindings.get? (bindingKey binding) = some r → r.email = email)
    (howner : Files.ownerFor env file.bindings (bindingKey binding) email = .ok ownerId)
    (hroom : file.bindings.get? (bindingKey binding) = none →
      ∃ t, s.writeBindings env (Files.changeBindings file (file.bindings.insert
        (bindingKey binding) ⟨ownerId, email⟩) "oidc-admission" "subject_bound" now) = .ok t) :
    ∃ d t, s.resolve env ⟨email, binding.subject.str, binding.issuer.str⟩ now = (.ok (some d), t) ∧
      d.role = entry.role := by
  obtain ⟨emailAtWrite, hwrite⟩ := EmailAtWrite.new_valid (validateEmail_normal hnormal)
  have hany : ((file.bindings.get? (bindingKey binding)).any fun r => decide (r.email ≠ email)) =
      false := by
    cases hget : file.bindings.get? (bindingKey binding) with
    | none => rfl
    | some r => simp [hsame r hget]
  simp only [Files.resolve, hpolicy, hnormal, SubjectBinding.parse_str, hread, hany, hentry, howner,
    hwrite, Bool.false_eq_true, if_false]
  split
  · exact ⟨_, _, rfl, rfl⟩
  · rename_i hcontains
    obtain ⟨t, ht⟩ := hroom (by simpa [OrdMap.contains] using hcontains)
    rw [ht]
    exact ⟨_, _, rfl, rfl⟩

theorem admitsAdmin_iff :
    s.AdmitsAdmin env ↔ ∃ email, s.ProvenAdmin email ∧ (s.BoundEmail email ∨ s.RoomFor env email) := by
  constructor
  · rintro ⟨identity, now, d, t, hresolve, hadmin⟩
    obtain ⟨policy, email, binding, file, entry, hpolicy, -, -, hread, hentry, hrole, -, -, hcases⟩ :=
      resolve_some hresolve
    refine ⟨email, ⟨policy, hpolicy, liveEntry_admin.2 ⟨entry, hentry, hrole.symm.trans hadmin⟩⟩, ?_⟩
    rcases hcases with ⟨hget, -⟩ | ⟨hnew, hstable, hwrite⟩
    · exact .inl ⟨_, _, ⟨file, hread, hget⟩, rfl⟩
    · rw [hstable] at hwrite
      exact .inr ⟨file, binding, now, hread, hnew, (Files.writeBindings_ok hwrite).2⟩
  · rintro ⟨email, ⟨policy, hpolicy, hproven⟩, hroom⟩
    obtain ⟨entry, hentry, hrole⟩ := liveEntry_admin.1 hproven
    have hnormal : normalizeEmail email = .ok email := by
      obtain ⟨entry', hget, -⟩ := hproven
      exact (Files.readPolicy_ok.1 hpolicy).2.normal email (by simp [OrdMap.contains, hget])
    by_cases hbound : s.BoundEmail email
    · obtain ⟨key, r, ⟨file, hread, hget⟩, hemail⟩ := hbound
      obtain ⟨binding, rfl⟩ := (accepted_of_read hread).valid.keyed key r hget
      have howner : Files.ownerFor env file.bindings (bindingKey binding) email =
          .ok r.ownerId := by
        simp only [Files.ownerFor, hget]
      obtain ⟨d, t, hresolve, hd⟩ := @resolve_admin env s email policy file entry binding r.ownerId 0
        hpolicy hread hnormal hentry
        (fun r' hr' => (by rw [hget] at hr'; cases hr'; exact hemail)) howner
        (fun hnone => (by rw [hget] at hnone; cases hnone))
      exact ⟨_, 0, d, t, hresolve, hd.trans hrole⟩
    · obtain ⟨file, binding, now, hread, hnew, hbytes⟩ := hroom.resolve_left hbound
      have hany : (file.bindings.entries.any fun e =>
          decide (e.1 ≠ bindingKey binding ∧ e.2.email = email)) = false := by
        rw [← Bool.not_eq_true, List.any_eq_true]
        rintro ⟨e, he, hp⟩
        exact hbound ⟨e.1, e.2, ⟨file, hread, OrdMap.mem_entries.1 he⟩, (of_decide_eq_true hp).2⟩
      have howner : Files.ownerFor env file.bindings (bindingKey binding) email =
          .ok (env.stableOwnerId (bindingKey binding)) := by
        simp only [Files.ownerFor, hnew, hany, Bool.false_eq_true, if_false]
      obtain ⟨d, t, hresolve, hd⟩ := resolve_admin hpolicy hread hnormal hentry
        (fun r' hr' => (by rw [hnew] at hr'; cases hr')) howner
        (fun _ => Files.writeBindings_fits hbytes)
      exact ⟨_, now, d, t, hresolve, hd.trans hrole⟩

theorem provenAdmin_step {c : PolicyCall} (hc : c.ProvesAdmin)
    (hs : ∀ policy, s.readPolicy = .ok policy → ∃ email, HasProvenAdmin policy.users email)
    (hread : s.policy = none ∨ ∃ policy, s.readPolicy = .ok policy) :
    ((c.run env s).policy = none ∨ ∃ policy, (c.run env s).readPolicy = .ok policy) ∧
    ∀ policy, (c.run env s).readPolicy = .ok policy → ∃ email, HasProvenAdmin policy.users email := by
  have heffect := c.effect env s
  generalize c.run env s = t at heffect
  have hsame : t.policy = s.policy → (t.policy = none ∨ ∃ policy, t.readPolicy = .ok policy) ∧
      ∀ policy, t.readPolicy = .ok policy → ∃ email, HasProvenAdmin policy.users email := by
    intro ht
    rw [ht, Files.readPolicy_congr ht]
    exact ⟨hread, hs⟩
  cases heffect with
  | same => exact hsame rfl
  | opened hpolicy _ =>
    rcases hpolicy with hp | ⟨-, b, email, u, hb, hemail, hwrite, hp⟩
    · exact hsame hp
    · have hu := (Files.readPolicy_congr hp).trans
        (Files.readPolicy_write hwrite (accepted_bootstrap hemail b.mailboxProven _))
      refine ⟨.inr ⟨_, hu⟩, fun policy hpolicy => ⟨email, ?_⟩⟩
      rw [hu] at hpolicy
      cases hpolicy
      exact ⟨⟨.admin, true, b.mailboxProven⟩, by simp [Files.bootstrapPolicy, OrdMap.get?_insert],
        rfl, hc b email hb hemail⟩
  | admitted _ _ _ _ _ hwrite | bound _ _ _ _ _ hwrite | moved _ _ _ _ hwrite =>
    obtain ⟨rfl, -⟩ := Files.writeBindings_ok hwrite
    exact hsame rfl
  | replaced hread' hactor hcanonical husers hadmin hwrite =>
    have hu := Files.readPolicy_write hwrite (accepted_replacement
      (Files.readPolicy_ok.1 hread').2 (validateActor_ok hactor) husers hadmin)
    refine ⟨.inr ⟨_, hu⟩, fun policy hpolicy => ?_⟩
    rw [hu] at hpolicy
    cases hpolicy
    exact hc _ hcanonical

theorem provenAdmin_run {cs : List PolicyCall} (h : (policyMachine env).Run noFiles cs s)
    (hcs : ∀ c ∈ cs, c.ProvesAdmin) :
    (s.policy = none ∨ ∃ policy, s.readPolicy = .ok policy) ∧
      ∀ policy, s.readPolicy = .ok policy → ∃ email, HasProvenAdmin policy.users email := by
  refine h.stable (P := fun s => (s.policy = none ∨ ∃ policy, s.readPolicy = .ok policy) ∧
    ∀ policy, s.readPolicy = .ok policy → ∃ email, HasProvenAdmin policy.users email)
    ?_ ⟨noFiles, [], ⟨.inl rfl, .inl rfl⟩, .nil _⟩ ⟨.inl rfl, fun policy hpolicy => ?_⟩
  · rintro x c y - hc ⟨hread, hx⟩ rfl
    exact provenAdmin_step (hcs c hc) hx hread
  · exact absurd rfl (policy_ne_none hpolicy)

/-- **An administrator can be admitted exactly if the stored policy has an enabled one with a proven
mailbox, who is bound or for whose binding there is room**; and where every call that writes the
policy names such an administrator, the stored policy has one. -/
theorem lockout_iff (env : PolicyEnv) :
    (∀ s : Files, s.AdmitsAdmin env ↔
      ∃ email, s.ProvenAdmin email ∧ (s.BoundEmail email ∨ s.RoomFor env email)) ∧
    ∀ cs s, (policyMachine env).Run noFiles cs s → (∀ c ∈ cs, c.ProvesAdmin) → s.policy ≠ none →
      ∃ email, s.ProvenAdmin email := by
  refine ⟨fun s => admitsAdmin_iff, fun cs s hrun hcs hpolicy => ?_⟩
  obtain ⟨hread, hproven⟩ := provenAdmin_run hrun hcs
  obtain ⟨policy, hpolicy⟩ := hread.resolve_left hpolicy
  obtain ⟨email, hadmin⟩ := hproven policy hpolicy
  exact ⟨email, policy, hpolicy, hadmin⟩

/-- The only administrator has an address at `corp.example`, and nobody attests to it. -/
def openUnproven : PolicyCall := .openStore (some ⟨"root@corp.example", false⟩) 0

theorem lockout_unproven :
    (policyMachine demoEnv).Run noFiles [openUnproven] (openUnproven.run demoEnv noFiles) ∧
      (openUnproven.run demoEnv noFiles).readPolicy.isOk = true ∧
      ¬ (openUnproven.run demoEnv noFiles).AdmitsAdmin demoEnv := by
  refine ⟨.single rfl, by decide +kernel, fun h => ?_⟩
  obtain ⟨email, ⟨policy, hpolicy, entry, hget, -, hproven⟩, -⟩ := admitsAdmin_iff.1 h
  have hall : (match (openUnproven.run demoEnv noFiles).readPolicy with
      | .ok policy => policy.users.entries.all fun e => !mailboxIsProven e.1 e.2.mailboxProven
      | .error _ => false) = true := by
    decide +kernel
  rw [hpolicy] at hall
  have := List.all_eq_true.1 hall _ (OrdMap.mem_entries.2 hget)
  simp [hproven] at this

end

end AgentPalace.Hub
