import AgentPalace.Hub.PolicySystem

/-!
# What holds in every run of the policy store

The step lemma has one part for each file: a file that passes its reader still
does after a call, the bindings keep their owners, and an address moves only
with `update_binding_email` (`effect_bindings`, `effect_policy`).
-/

namespace AgentPalace.Hub

structure Files.Accepted (s : Files) : Prop where
  policy : s.policy = none ∨ ∃ policy, s.readPolicy = .ok policy
  bindings : s.bindings = none ∨ ∃ file, s.readBindings = .ok file

/-- A subject is stored with an owner and an address. -/
def Files.Bound (s : Files) (key : String) (r : BindingRecord) : Prop :=
  ∃ file, s.readBindings = .ok file ∧ file.bindings.get? key = some r

/-- A first admission is not given the owner id of another subject. -/
def PolicyCall.Distinct (env : PolicyEnv) (s : Files) : PolicyCall → Prop
  | .resolve identity _ => ∀ binding key r,
    SubjectBinding.parse identity.issuer identity.subject = .ok binding →
      (∀ r, ¬ s.Bound (bindingKey binding) r) → s.Bound key r →
        r.ownerId ≠ env.stableOwnerId (bindingKey binding)
  | _ => True

def PolicyCall.isReplace : PolicyCall → Bool
  | .replace .. => true
  | _ => false

/-- The call may move the address of the subject. -/
def PolicyCall.moves (key : String) : PolicyCall → Bool
  | .updateBindingEmail binding .. => decide (bindingKey binding = key)
  | _ => false

def policyMachine (env : PolicyEnv) : Machine Files PolicyCall where
  Init s := s.Accepted
  Step s c t := c.run env s = t

/-- The runs in which no first admission gets the owner id of another subject. -/
def distinctRuns (env : PolicyEnv) : Machine Files PolicyCall :=
  (policyMachine env).restrict fun s c => c.Distinct env s

section
variable {env : PolicyEnv} {s t : Files} {c : PolicyCall}

/-! ## Changed maps -/

theorem valid_insert {bindings : OrdMap String BindingRecord} {binding : SubjectBinding}
    {ownerId : OwnerId} {value email : String} (h : ValidBindings bindings)
    (hemail : normalizeEmail value = .ok email)
    (hother : ∀ key r, bindings.get? key = some r → r.email ≠ email ∧ r.ownerId ≠ ownerId) :
    ValidBindings (bindings.insert (bindingKey binding) ⟨ownerId, email⟩) where
  normal key r hget := by
    rcases OrdMap.get?_insert_some hget with ⟨-, rfl⟩ | hget
    · exact normalizeEmail_idem hemail
    · exact h.normal key r hget
  keyed key r hget := by
    rcases OrdMap.get?_insert_some hget with ⟨hkey, -⟩ | hget
    · exact ⟨binding, hkey⟩
    · exact h.keyed key r hget
  emails _ _ _ _ := OrdMap.insert_inj h.emails fun key r hget => (hother key r hget).1
  owners _ _ _ _ := OrdMap.insert_inj h.owners fun key r hget => (hother key r hget).2

/-- What is under a key once the address of a subject has moved. -/
theorem get?_move {bindings : OrdMap String BindingRecord} {key k email : String}
    {r : BindingRecord}
    (h : (bindings.modify key fun record => { record with email }).get? k = some r) :
    ∃ old, bindings.get? k = some old ∧ r.ownerId = old.ownerId ∧
      ((k = key ∧ r.email = email) ∨ (k ≠ key ∧ r = old)) := by
  rw [OrdMap.get?_modify] at h
  split at h
  · rename_i hk
    obtain ⟨old, hold, rfl⟩ := Option.map_eq_some_iff.1 h
    exact ⟨old, hk ▸ hold, rfl, .inl ⟨hk, rfl⟩⟩
  · rename_i hk
    exact ⟨r, h, rfl, .inr ⟨hk, rfl⟩⟩

theorem valid_move {bindings : OrdMap String BindingRecord} {key value email : String}
    (h : ValidBindings bindings) (hemail : normalizeEmail value = .ok email)
    (hother : ∀ k r, bindings.get? k = some r → k ≠ key → r.email ≠ email) :
    ValidBindings (bindings.modify key fun record => { record with email }) where
  normal k r hget := by
    obtain ⟨old, hold, -, ⟨-, he⟩ | ⟨-, rfl⟩⟩ := get?_move hget
    · rw [he]
      exact normalizeEmail_idem hemail
    · exact h.normal k _ hold
  keyed k r hget := by
    obtain ⟨old, hold, -⟩ := get?_move hget
    exact h.keyed k old hold
  emails k r k' r' hget hget' heq := by
    obtain ⟨old, hold, -, ⟨hk, he⟩ | ⟨hk, rfl⟩⟩ := get?_move hget <;>
      obtain ⟨old', hold', -, ⟨hk', he'⟩ | ⟨hk', rfl⟩⟩ := get?_move hget'
    · rw [hk, hk']
    · exact absurd (heq.symm.trans he) (hother _ _ hold' hk')
    · exact absurd (heq.trans he') (hother _ _ hold hk)
    · exact h.emails _ _ _ _ hold hold' heq
  owners k r k' r' hget hget' heq := by
    obtain ⟨old, hold, ho, -⟩ := get?_move hget
    obtain ⟨old', hold', ho', -⟩ := get?_move hget'
    exact h.owners _ _ _ _ hold hold' (ho.symm.trans (heq.trans ho'))

theorem accepted_change {file : BindingsFile} {bindings : OrdMap String BindingRecord}
    {actor action : String} {now : UInt64} (h : file.Accepted) (hvalid : ValidBindings bindings)
    (hactor : GoodActor actor) (haction : isBlank action = false) :
    (Files.changeBindings file bindings actor action now).Accepted where
  format := h.format
  history := by
    simp only [Files.changeBindings, List.length_append, List.length_singleton]
    exact validateAuditChain_push h.history hactor haction
  valid := hvalid

theorem accepted_initial (now : UInt64) : (Files.initialBindings now).Accepted where
  format := rfl
  history := validateAuditChain_first (by decide)
  valid := by constructor <;> (intro _ _; simp [Files.initialBindings])

theorem accepted_bootstrap {value email : String} (hemail : normalizeEmail value = .ok email)
    (mailboxProven : Bool) (now : UInt64) :
    (Files.bootstrapPolicy now email mailboxProven).Accepted where
  format := rfl
  revision := by simp [Files.bootstrapPolicy]
  normal e he := by
    simp only [Files.bootstrapPolicy, OrdMap.contains_insert] at he
    have : e = email := by simpa [OrdMap.contains] using he
    rw [this]
    exact normalizeEmail_idem hemail
  history := validateAuditChain_first (by decide)
  admin := rfl

theorem accepted_replacement {policy : PolicyFile} {users : OrdMap String AccessEntry}
    {actor : String} {now : UInt64} (h : policy.Accepted) (hactor : GoodActor actor)
    (husers : validateUsers users = .ok ()) (hadmin : users.values.any enabledAdmin = true) :
    PolicyFile.Accepted
      { policy with
        revision := policy.revision + 1
        users
        audit := policy.audit ++ [⟨actor, timestamp now, "policy_replaced",
          usersValue policy.users, usersValue users⟩] } where
  format := h.format
  revision := Nat.succ_ne_zero _
  normal := validateUsers_ok.1 husers
  history := validateAuditChain_push h.history hactor (by decide)
  admin := hadmin

theorem goodActor_admission : GoodActor "oidc-admission" := by
  unfold GoodActor
  decide

/-! ## One call -/

theorem accepted_of_read {file : BindingsFile} (h : s.readBindings = .ok file) : file.Accepted :=
  (Files.readBindings_ok.1 h).2

theorem bindings_ne_none {file : BindingsFile} (h : s.readBindings = .ok file) :
    s.bindings ≠ none := by
  obtain ⟨⟨bytes, hs, -⟩, -⟩ := Files.readBindings_ok.1 h
  simp [hs]

theorem policy_ne_none {policy : PolicyFile} (h : s.readPolicy = .ok policy) : s.policy ≠ none := by
  obtain ⟨⟨bytes, hs, -⟩, -⟩ := Files.readPolicy_ok.1 h
  simp [hs]

/-- A change of the bindings keeps the owners, and the addresses of all but one subject. -/
def Keeps (c : PolicyCall) (old new : OrdMap String BindingRecord) : Prop :=
  ∀ key r, old.get? key = some r → ∃ r', new.get? key = some r' ∧ r'.ownerId = r.ownerId ∧
    (c.moves key = false → r' = r)

theorem keeps_insert {bindings : OrdMap String BindingRecord} {key : String} {r : BindingRecord}
    (h : bindings.get? key = none) : Keeps c bindings (bindings.insert key r) := by
  intro k old hold
  refine ⟨old, ?_, rfl, fun _ => rfl⟩
  rw [OrdMap.get?_insert, if_neg, hold]
  rintro rfl
  rw [h] at hold
  cases hold

theorem not_bound_of_get? {file : BindingsFile} {key : String} (hread : s.readBindings = .ok file)
    (h : file.bindings.get? key = none) (r : BindingRecord) : ¬ s.Bound key r := by
  rintro ⟨file', hread', hget⟩
  rw [hread] at hread'
  cases hread'
  rw [h] at hget
  cases hget

/-- **The bindings stay acceptable, with their owners.** -/
theorem effect_bindings {file : BindingsFile} (h : Effect env s c t) (hdistinct : c.Distinct env s)
    (hread : s.readBindings = .ok file) :
    ∃ file', t.readBindings = .ok file' ∧ Keeps c file.bindings file'.bindings := by
  have hsame : ∀ {u : Files}, u.bindings = s.bindings →
      ∃ file', u.readBindings = .ok file' ∧ Keeps c file.bindings file'.bindings := fun {u} hu =>
    ⟨file, (Files.readBindings_congr hu).trans hread, fun key r hget =>
      ⟨r, hget, rfl, fun _ => rfl⟩⟩
  cases h with
  | same => exact hsame rfl
  | opened _ hbindings =>
    rcases hbindings with hb | ⟨hnone, -⟩
    · exact hsame hb
    · exact absurd hnone (bindings_ne_none hread)
  | admitted hread' hparse hemail hnew hother hwrite =>
    cases hread.symm.trans hread'
    have hvalid := (accepted_of_read hread).valid
    have howner : ∀ key r, file.bindings.get? key = some r →
        r.ownerId ≠ env.stableOwnerId _ := fun key r hget =>
      hdistinct _ key r hparse (not_bound_of_get? hread hnew) ⟨file, hread, hget⟩
    refine ⟨_, Files.readBindings_write hwrite (accepted_change (accepted_of_read hread)
      (valid_insert hvalid hemail fun key r hget => ⟨hother key r hget, howner key r hget⟩)
      goodActor_admission (by decide)), keeps_insert hnew⟩
  | bound hread' hactor hemail hnew hother hwrite =>
    cases hread.symm.trans hread'
    refine ⟨_, Files.readBindings_write hwrite (accepted_change (accepted_of_read hread)
      (valid_insert (accepted_of_read hread).valid hemail hother) (validateActor_ok hactor)
      (by decide)), keeps_insert hnew⟩
  | @moved _ _ _ email _ _ _ _ _ hread' hactor hemail hother hwrite =>
    cases hread.symm.trans hread'
    refine ⟨_, Files.readBindings_write hwrite (accepted_change (accepted_of_read hread)
      (valid_move (accepted_of_read hread).valid hemail hother) (validateActor_ok hactor)
      (by decide)), fun key r hget => ?_⟩
    simp only [Files.changeBindings, OrdMap.get?_modify]
    split
    · rename_i hkey
      refine ⟨{ r with email }, by rw [← hkey, hget]; rfl, rfl, fun hmoves => ?_⟩
      simp [PolicyCall.moves, hkey] at hmoves
    · exact ⟨r, hget, rfl, fun _ => rfl⟩
  | replaced _ _ _ _ _ hwrite =>
    obtain ⟨rfl, -⟩ := Files.writePolicy_ok hwrite
    exact hsame rfl

/-- **The policy stays acceptable, and only `replace` changes its users.** -/
theorem effect_policy {policy : PolicyFile} (h : Effect env s c t)
    (hread : s.readPolicy = .ok policy) :
    ∃ policy', t.readPolicy = .ok policy' ∧ (c.isReplace = false → policy'.users = policy.users) := by
  have hsame : ∀ {u : Files}, u.policy = s.policy → ∃ policy', u.readPolicy = .ok policy' ∧
      (c.isReplace = false → policy'.users = policy.users) := fun {u} hu =>
    ⟨policy, (Files.readPolicy_congr hu).trans hread, fun _ => rfl⟩
  have haccepted := (Files.readPolicy_ok.1 hread).2
  cases h with
  | same => exact hsame rfl
  | opened hpolicy _ =>
    rcases hpolicy with hp | ⟨hnone, -⟩
    · exact hsame hp
    · exact absurd hnone (policy_ne_none hread)
  | admitted _ _ _ _ _ hwrite =>
    obtain ⟨rfl, -⟩ := Files.writeBindings_ok hwrite
    exact hsame rfl
  | bound _ _ _ _ _ hwrite =>
    obtain ⟨rfl, -⟩ := Files.writeBindings_ok hwrite
    exact hsame rfl
  | moved _ _ _ _ hwrite =>
    obtain ⟨rfl, -⟩ := Files.writeBindings_ok hwrite
    exact hsame rfl
  | replaced hread' hactor _ husers hadmin hwrite =>
    cases hread.symm.trans hread'
    refine ⟨_, Files.readPolicy_write hwrite (accepted_replacement haccepted
      (validateActor_ok hactor) husers hadmin), fun hreplace => ?_⟩
    cases hreplace

theorem accepted_step (h : s.Accepted) (hdistinct : c.Distinct env s) : (c.run env s).Accepted := by
  have heffect := c.effect env s
  refine ⟨?_, ?_⟩
  · rcases h.policy with hnone | ⟨policy, hread⟩
    · have hread : ∀ policy, s.readPolicy ≠ .ok policy := fun policy hread =>
        policy_ne_none hread hnone
      generalize c.run env s = t at heffect
      cases heffect with
      | same => exact .inl hnone
      | opened hpolicy _ =>
        rcases hpolicy with hp | ⟨-, b, email, u, -, hemail, hwrite, hp⟩
        · exact .inl (hp.trans hnone)
        · exact .inr ⟨_, (Files.readPolicy_congr hp).trans
            (Files.readPolicy_write hwrite (accepted_bootstrap hemail _ _))⟩
      | admitted _ _ _ _ _ hwrite | bound _ _ _ _ _ hwrite | moved _ _ _ _ hwrite =>
        obtain ⟨rfl, -⟩ := Files.writeBindings_ok hwrite
        exact .inl hnone
      | replaced hread' => exact absurd hread' (hread _)
    · obtain ⟨policy', hread', -⟩ := effect_policy heffect hread
      exact .inr ⟨policy', hread'⟩
  · rcases h.bindings with hnone | ⟨file, hread⟩
    · have hread : ∀ file, s.readBindings ≠ .ok file := fun file hread =>
        bindings_ne_none hread hnone
      generalize c.run env s = t at heffect
      cases heffect with
      | same => exact .inl hnone
      | opened _ hbindings =>
        rcases hbindings with hb | ⟨-, u, hwrite, hb⟩
        · exact .inl (hb.trans hnone)
        · exact .inr ⟨_, (Files.readBindings_congr hb).trans
            (Files.readBindings_write hwrite (accepted_initial _))⟩
      | admitted hread' => exact absurd hread' (hread _)
      | bound hread' => exact absurd hread' (hread _)
      | moved hread' => exact absurd hread' (hread _)
      | replaced _ _ _ _ _ hwrite =>
        obtain ⟨rfl, -⟩ := Files.writePolicy_ok hwrite
        exact .inl hnone
    · obtain ⟨file', hread', -⟩ := effect_bindings heffect hdistinct hread
      exact .inr ⟨file', hread'⟩

/-! ## Runs -/

theorem accepted_reachable (h : (distinctRuns env).Reachable s) : s.Accepted := by
  refine h.invariant (fun _ hi => hi) ?_
  rintro a c b - ha ⟨rfl, hdistinct⟩
  exact accepted_step ha hdistinct

/-! ## Roles -/

theorem roleForOwner_bound {policy : PolicyFile} {file : BindingsFile} {key : String}
    {r : BindingRecord} (hpolicy : s.readPolicy = .ok policy) (hread : s.readBindings = .ok file)
    (hget : file.bindings.get? key = some r) :
    s.roleForOwner r.ownerId = .ok ((Files.liveUser? policy.users r.email).map (·.role)) := by
  have hfind : file.bindings.values.find? (fun record => record.ownerId = r.ownerId) = some r :=
    OrdMap.find?_values hget fun _ _ hget' howner =>
      (accepted_of_read hread).valid.owners _ _ _ _ hget' hget howner
  simp only [Files.roleForOwner, hpolicy, hread, hfind, Option.bind_some]

theorem resolve_some {identity : VerifiedIdentity} {now : UInt64} {d : PolicyDecision}
    (h : s.resolve env identity now = (.ok (some d), t)) :
    ∃ policy email binding file entry, s.readPolicy = .ok policy ∧
      normalizeEmail identity.email = .ok email ∧
      SubjectBinding.parse identity.issuer identity.subject = .ok binding ∧
      s.readBindings = .ok file ∧ Files.liveUser? policy.users email = some entry ∧
      d.role = entry.role ∧
      d.admission.owner.issuer = binding.issuer ∧ d.admission.owner.subject = binding.subject ∧
      ((file.bindings.get? (bindingKey binding) = some ⟨d.admission.owner.id, email⟩ ∧ t = s) ∨
        (file.bindings.get? (bindingKey binding) = none ∧
          d.admission.owner.id = env.stableOwnerId (bindingKey binding) ∧
          s.writeBindings env (Files.changeBindings file (file.bindings.insert
            (bindingKey binding) ⟨d.admission.owner.id, email⟩) "oidc-admission" "subject_bound"
            now) = .ok t)) := by
  unfold Files.resolve at h
  split at h
  · cases h
  rename_i policy hpolicy
  split at h
  · cases h
  rename_i email hemail
  split at h
  · cases h
  rename_i binding hparse
  split at h
  · cases h
  rename_i file hread
  dsimp only at h
  split at h
  · cases h
  rename_i hsame
  split at h
  · cases h
  rename_i entry hentry
  split at h
  · cases h
  rename_i ownerId howner
  split at h
  · cases h
  unfold Files.ownerFor at howner
  split at h
  · rename_i hcontains
    cases h
    obtain ⟨r, hr⟩ := Option.isSome_iff_exists.1 hcontains
    rw [hr] at howner hsame
    cases howner
    have hr' : r = ⟨r.ownerId, email⟩ := by
      have : r.email = email := by simpa using hsame
      rw [← this]
    exact ⟨policy, email, binding, file, entry, hpolicy, hemail, hparse, hread, hentry, rfl, rfl,
      rfl, .inl ⟨hr.trans (congrArg some hr'), rfl⟩⟩
  · rename_i hcontains
    have hnew : file.bindings.get? (bindingKey binding) = none := by
      simpa [OrdMap.contains] using hcontains
    split at h
    · cases h
    · rename_i t hwrite
      cases h
      have hstable : ownerId = env.stableOwnerId (bindingKey binding) := by
        rw [hnew] at howner
        dsimp only at howner
        split at howner
        · cases howner
        · cases howner
          rfl
      exact ⟨policy, email, binding, file, entry, hpolicy, hemail, hparse, hread, hentry, rfl, rfl,
        rfl, .inr ⟨hnew, hstable, hwrite⟩⟩

/-- A subject has a role: it is bound, and the entry of its address is live. -/
def HasRole (key : String) (r : BindingRecord) (role : AccessRole) (s : Files) : Prop :=
  ∃ policy file entry, s.readPolicy = .ok policy ∧ s.readBindings = .ok file ∧
    file.bindings.get? key = some r ∧ Files.liveUser? policy.users r.email = some entry ∧
    entry.role = role

theorem HasRole.roleForOwner {key : String} {r : BindingRecord} {role : AccessRole}
    (h : HasRole key r role s) : s.roleForOwner r.ownerId = .ok (some role) := by
  obtain ⟨policy, file, entry, hpolicy, hread, hget, hentry, hrole⟩ := h
  rw [roleForOwner_bound hpolicy hread hget, hentry, Option.map_some, hrole]

theorem HasRole.step {key : String} {r : BindingRecord} {role : AccessRole}
    (h : HasRole key r role s) (hdistinct : c.Distinct env s) (hreplace : c.isReplace = false)
    (hmoves : c.moves key = false) : HasRole key r role (c.run env s) := by
  obtain ⟨policy, file, entry, hpolicy, hread, hget, hentry, hrole⟩ := h
  obtain ⟨policy', hpolicy', husers⟩ := effect_policy (c.effect env s) hpolicy
  obtain ⟨file', hread', hkeeps⟩ := effect_bindings (c.effect env s) hdistinct hread
  obtain ⟨r', hget', -, hsame⟩ := hkeeps key r hget
  refine ⟨policy', file', entry, hpolicy', hread', hsame hmoves ▸ hget', ?_, hrole⟩
  rw [husers hreplace]
  exact hentry

theorem hasRole_resolve {identity : VerifiedIdentity} {now : UInt64} {d : PolicyDecision}
    (h : s.resolve env identity now = (.ok (some d), t))
    (hdistinct : (PolicyCall.resolve identity now).Distinct env s) :
    ∃ email, HasRole (bindingKey ⟨d.admission.owner.issuer, d.admission.owner.subject⟩)
      ⟨d.admission.owner.id, email⟩ d.role t := by
  have heffect := (PolicyCall.resolve identity now).effect env s
  have ht : (PolicyCall.resolve identity now).run env s = t := congrArg Prod.snd h
  rw [ht] at heffect
  obtain ⟨policy, email, binding, file, entry, hpolicy, hemail, hparse, hread, hentry, hrole,
    hissuer, hsubject, hcases⟩ := resolve_some h
  have hkey : bindingKey ⟨d.admission.owner.issuer, d.admission.owner.subject⟩ =
      bindingKey binding := by
    rw [hissuer, hsubject]
  rw [hkey]
  refine ⟨email, ?_⟩
  rcases hcases with ⟨hget, rfl⟩ | ⟨hnew, -, hwrite⟩
  · exact ⟨policy, file, entry, hpolicy, hread, hget, hentry, hrole.symm⟩
  · obtain ⟨policy', hpolicy', husers⟩ := effect_policy heffect hpolicy
    obtain ⟨file', hread', -⟩ := effect_bindings heffect hdistinct hread
    obtain ⟨rfl, -⟩ := Files.writeBindings_ok hwrite
    obtain ⟨⟨bytes, hstored, -⟩, -⟩ := Files.readBindings_ok.1 hread'
    simp only [Option.some.injEq, Stored.mk.injEq, Except.ok.injEq] at hstored
    refine ⟨policy', file', entry, hpolicy', hread', ?_, ?_, hrole.symm⟩
    · rw [← hstored.2]
      simp [Files.changeBindings, OrdMap.get?_insert]
    · rw [husers rfl]
      exact hentry

/-- What every run keeps: the files pass their readers, a subject keeps its owner, and no two
subjects share one or an address. -/
structure PolicySound (s t : Files) : Prop where
  accepted : t.Accepted
  owners : ∀ key r, s.Bound key r → ∃ r', t.Bound key r' ∧ r'.ownerId = r.ownerId
  unique : ∀ key r key' r', t.Bound key r → t.Bound key' r' →
    r.ownerId = r'.ownerId ∨ r.email = r'.email → key = key'

theorem owners_run {cs : List PolicyCall} (h : (distinctRuns env).Run s cs t) {key : String}
    {r : BindingRecord} (hbound : s.Bound key r) : ∃ r', t.Bound key r' ∧ r'.ownerId = r.ownerId := by
  induction h generalizing r with
  | nil => exact ⟨r, hbound, rfl⟩
  | @cons a b c l ls hs _ ih =>
    obtain ⟨rfl, hdistinct⟩ := hs
    obtain ⟨file, hread, hget⟩ := hbound
    obtain ⟨file', hread', hkeeps⟩ := effect_bindings (l.effect env a) hdistinct hread
    obtain ⟨r', hget', howner, -⟩ := hkeeps key r hget
    obtain ⟨r'', hbound'', howner''⟩ := ih ⟨file', hread', hget'⟩
    exact ⟨r'', hbound'', howner''.trans howner⟩

theorem unique_bound {key key' : String} {r r' : BindingRecord} (h : s.Bound key r)
    (h' : s.Bound key' r') (heq : r.ownerId = r'.ownerId ∨ r.email = r'.email) : key = key' := by
  obtain ⟨file, hread, hget⟩ := h
  obtain ⟨file', hread', hget'⟩ := h'
  cases hread.symm.trans hread'
  have hvalid := (accepted_of_read hread).valid
  exact heq.elim (hvalid.owners _ _ _ _ hget hget') (hvalid.emails _ _ _ _ hget hget')

/-- **The policy store accepts what it wrote**, and what it decided stays so until the policy is
replaced or the address of the subject is moved. -/
theorem policy_sound {cs : List PolicyCall} (h0 : (distinctRuns env).Reachable s)
    (h : (distinctRuns env).Run s cs t) :
    PolicySound s t ∧
      ∀ identity now d u, t.resolve env identity now = (.ok (some d), u) →
        (PolicyCall.resolve identity now).Distinct env t →
        ∀ cs' v, (distinctRuns env).Run u cs' v →
          (∀ c ∈ cs', c.isReplace = false ∧
            c.moves (bindingKey ⟨d.admission.owner.issuer, d.admission.owner.subject⟩) = false) →
          v.roleForOwner d.admission.owner.id = .ok (some d.role) := by
  have ht : (distinctRuns env).Reachable t := h0.run h
  refine ⟨⟨accepted_reachable ht, fun key r => owners_run h,
    fun key r key' r' => unique_bound⟩, ?_⟩
  intro identity now d u hresolve hdistinct cs' v hrun hquiet
  obtain ⟨email, hrole⟩ := hasRole_resolve hresolve hdistinct
  have hstep : (distinctRuns env).Step t (.resolve identity now) u :=
    ⟨congrArg Prod.snd hresolve, hdistinct⟩
  have hu := ht.step hstep
  refine HasRole.roleForOwner (r := ⟨d.admission.owner.id, email⟩) (hrun.stable ?_ hu hrole)
  rintro x c y - hc hx ⟨rfl, hdistinct'⟩
  exact hx.step hdistinct' (hquiet c hc).1 (hquiet c hc).2

end

/-! ### A store with two subjects -/

def rootBinding : SubjectBinding := ⟨⟨"https://login.example", by decide⟩, ⟨"root", by decide⟩⟩

def bobBinding : SubjectBinding := ⟨⟨"https://login.example", by decide⟩, ⟨"bob", by decide⟩⟩

def rootOwner : OwnerId := ⟨"owner-a", by decide⟩

def bobOwner : OwnerId := ⟨"owner-b", by decide⟩

def demoEnv : PolicyEnv where
  policyBytes _ := 1000
  bindingsBytes _ := 1000
  stableOwnerId key := if key = bindingKey rootBinding then rootOwner else bobOwner

def noFiles : Files := ⟨none, false, none⟩

def rootIdentity : VerifiedIdentity := ⟨"root@gmail.com", "root", "https://login.example"⟩

def bobIdentity : VerifiedIdentity := ⟨"bob@gmail.com", "bob", "https://login.example"⟩

def eveBinding : SubjectBinding := ⟨⟨"https://login.example", by decide⟩, ⟨"eve", by decide⟩⟩

def openRoot : PolicyCall := .openStore (some ⟨"root@gmail.com", false⟩) 0

def addBob : PolicyCall :=
  .replace 1 "root" (.ofList [("root@gmail.com", ⟨.admin, true, false⟩),
    ("bob@gmail.com", ⟨.readonly, true, false⟩)]) 1

def playCalls (s : Files) (cs : List PolicyCall) : Files := cs.foldl (fun s c => c.run demoEnv s) s

theorem reachable_playCalls {s : Files} (h : (policyMachine demoEnv).Reachable s)
    (cs : List PolicyCall) : (policyMachine demoEnv).Reachable (playCalls s cs) := by
  induction cs generalizing s with
  | nil => exact h
  | cons c cs ih => exact ih (h.step (l := c) rfl)

theorem reachable_noFiles : (policyMachine demoEnv).Reachable noFiles :=
  ⟨noFiles, [], ⟨.inl rfl, .inl rfl⟩, .nil _⟩

/-- `Distinct`, computed. -/
def PolicyCall.distinctIn (env : PolicyEnv) (s : Files) : PolicyCall → Bool
  | .resolve identity _ =>
    match SubjectBinding.parse identity.issuer identity.subject, s.readBindings with
    | .ok binding, .ok file =>
      (file.bindings.get? (bindingKey binding)).isSome ||
        file.bindings.entries.all fun e =>
          decide (e.2.ownerId ≠ env.stableOwnerId (bindingKey binding))
    | _, _ => true
  | _ => true

theorem PolicyCall.distinct_of_check {env : PolicyEnv} {s : Files} {c : PolicyCall}
    (h : c.distinctIn env s = true) : c.Distinct env s := by
  cases c with
  | resolve identity now =>
    rintro binding key r hparse hnew ⟨file, hread, hget⟩
    simp only [distinctIn, hparse, hread, Bool.or_eq_true, List.all_eq_true] at h
    rcases h with h | h
    · obtain ⟨r', hr'⟩ := Option.isSome_iff_exists.1 h
      exact absurd ⟨file, hread, hr'⟩ (hnew r')
    · exact of_decide_eq_true (h _ (OrdMap.mem_entries.2 hget))
  | _ => trivial

def allDistinct (s : Files) : List PolicyCall → Bool
  | [] => true
  | c :: cs => c.distinctIn demoEnv s && allDistinct (c.run demoEnv s) cs

theorem run_playCalls {s : Files} {cs : List PolicyCall} (h : allDistinct s cs = true) :
    (distinctRuns demoEnv).Run s cs (playCalls s cs) := by
  induction cs generalizing s with
  | nil => exact .nil s
  | cons c cs ih =>
    obtain ⟨hc, hcs⟩ := Bool.and_eq_true_iff.1 h
    exact .cons ⟨rfl, PolicyCall.distinct_of_check hc⟩ (ih hcs)

/-- `root` resolves to an administrator. -/
def resolvesRoot (s : Files) : Bool :=
  match (s.resolve demoEnv rootIdentity 2).1 with
  | .ok (some d) => decide (d.role = .admin ∧ d.admission.owner.id = rootOwner ∧
      bindingKey ⟨d.admission.owner.issuer, d.admission.owner.subject⟩ = bindingKey rootBinding)
  | _ => false

theorem resolvesRoot_some {s : Files} (h : resolvesRoot s = true) :
    ∃ d, s.resolve demoEnv rootIdentity 2 =
      (.ok (some d), (PolicyCall.resolve rootIdentity 2).run demoEnv s) ∧ d.role = .admin ∧
        d.admission.owner.id = rootOwner ∧
        bindingKey ⟨d.admission.owner.issuer, d.admission.owner.subject⟩ = bindingKey rootBinding := by
  unfold resolvesRoot at h
  split at h
  · rename_i d hd
    exact ⟨d, Prod.ext hd rfl, of_decide_eq_true h⟩
  · cases h

/-- The store is opened and its policy replaced, two subjects are admitted and a third is bound. -/
def demoCalls : List PolicyCall :=
  [openRoot, addBob, .resolve rootIdentity 2, .resolve bobIdentity 3,
    .bindSubject eveBinding ⟨"owner-c", by decide⟩ "eve@gmail.com" "root" 4]

/-- The address of another subject moves, and `bob` comes back. -/
def laterCalls : List PolicyCall :=
  [.updateBindingEmail eveBinding "eve@gmail.com" "eva@gmail.com" "root" 5, .resolve bobIdentity 6]

/-- Three subjects are bound, and `root` stays the administrator it was found to be. -/
theorem policy_sound_opened :
    PolicySound noFiles (playCalls noFiles demoCalls) ∧
      (playCalls noFiles demoCalls).readBindings.toOption.map (·.bindings.size) = some 3 ∧
      ∃ d u, (playCalls noFiles demoCalls).resolve demoEnv rootIdentity 2 = (.ok (some d), u) ∧
        d.admission.owner.id = rootOwner ∧
        (playCalls u laterCalls).roleForOwner rootOwner = .ok (some .admin) := by
  have h0 : (distinctRuns demoEnv).Reachable noFiles :=
    ⟨noFiles, [], ⟨.inl rfl, .inl rfl⟩, .nil _⟩
  have hrun : (distinctRuns demoEnv).Run noFiles demoCalls (playCalls noFiles demoCalls) :=
    run_playCalls (by decide +kernel)
  obtain ⟨hsound, hstays⟩ := policy_sound h0 hrun
  obtain ⟨d, hd, hrole, howner, hkey⟩ :=
    @resolvesRoot_some (playCalls noFiles demoCalls) (by decide +kernel)
  refine ⟨hsound, by decide +kernel, d, _, hd, howner, ?_⟩
  rw [← howner, ← hrole]
  refine hstays _ _ d _ hd (PolicyCall.distinct_of_check (by decide +kernel)) laterCalls _
    (run_playCalls (by decide +kernel)) fun c hc => ?_
  rw [hkey]
  revert c
  decide +kernel

def moveRoot : PolicyCall :=
  .updateBindingEmail rootBinding "root@gmail.com" "bob@gmail.com" "root" 3

/-- The address of an administrator moves to that of a reader: the owner has another role, with no
`replace`. And where `bob` was bound to the owner id made for `root`, the first admission of `root`
writes a file that the next reader refuses. -/
theorem policy_moved :
    (∃ s d u, (policyMachine demoEnv).Reachable s ∧
      s.resolve demoEnv rootIdentity 2 = (.ok (some d), u) ∧ d.role = .admin ∧
      (moveRoot.run demoEnv u).roleForOwner d.admission.owner.id = .ok (some .readonly)) ∧
    ∃ s, (policyMachine demoEnv).Reachable s ∧ s.readBindings.isOk = true ∧
      ((PolicyCall.resolve rootIdentity 3).run demoEnv s).readBindings.isOk = false := by
  refine ⟨?_, ?_⟩
  · obtain ⟨d, hd, hrole, howner, _⟩ :=
      @resolvesRoot_some (playCalls noFiles [openRoot, addBob]) (by decide +kernel)
    refine ⟨_, d, _, reachable_playCalls reachable_noFiles _, hd, hrole, ?_⟩
    rw [howner]
    decide +kernel
  · exact ⟨playCalls noFiles [openRoot, addBob, .bindSubject bobBinding rootOwner "bob@gmail.com"
      "root" 2], reachable_playCalls reachable_noFiles _, by decide +kernel, by decide +kernel⟩

end AgentPalace.Hub
