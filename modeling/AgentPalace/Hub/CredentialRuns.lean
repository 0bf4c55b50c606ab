import AgentPalace.Hub.Credentials
import AgentPalace.Hub.Families
import Mathlib.Data.Finset.Card

/-!
# Credentials over a run

A request that touches the credentials of an owner reads the policy, the record
of the owner and the live grants in three steps and rewrites the file in a
fourth; between them anything may happen. `Owed` is the invariant: an owner with
a credential beyond the policy is one that a request in flight still has to
reconcile. A request breaks it when the policy is lowered, or a delete ends,
between the reads of its last reconcile and the rewrite (`Timely`).
-/

namespace AgentPalace.Hub

/-- What a request does once its owner is reconciled. -/
inductive After where
  | done
  /-- `forward_rest`, before it has a credential and behind the answer of the palace. -/
  | provision (owner : AdmissionIdentity) (role : DemoRole)
  | respond (owner : AdmissionIdentity) (deleting : Bool)

inductive CredentialTask where
  | idle
  /-- `reconcile_email_tokens`. -/
  | findingEmail (email : String)
  /-- `reconcile_owner_tokens`. -/
  | readingRole (owner : OwnerId) (after : After)
  | findingOwner (owner : OwnerId) (role : AccessRole) (after : After)
  | readingGrants (owner : AdmissionIdentity) (role : AccessRole) (after : After)
  /-- The role that was read, and whether a delete was in flight when the grants were. -/
  | rewriting (owner : AdmissionIdentity) (role : AccessRole) (deleting : Bool)
      (roles : List DemoRole) (after : After)
  | revoking (owner : OwnerId) (after : After)
  /-- `forward_rest`. -/
  | provisioning (owner : AdmissionIdentity) (role : DemoRole)
  | forwarding (owner : AdmissionIdentity) (deleting : Bool)
  /-- The guard of a delete is dropped. -/
  | ending (owner : AdmissionIdentity)

def After.next : After → CredentialTask
  | .done => .idle
  | .provision owner role => .provisioning owner role
  | .respond owner deleting => if deleting then .ending owner else .idle

/-- What the credentials of an owner rest on: the reads before their last rewrite, and the roles
provisioned since. -/
structure Basis where
  role : Option AccessRole
  deleting : Bool
  provisioned : List DemoRole

structure CredentialState where
  gateway : GatewayState
  access : Access
  tokens : TokenFile
  /-- The deletes in flight. -/
  deletes : OwnerId → Nat
  /-- The owners changed or served so far. -/
  touched : List OwnerId
  /-- `none` for an owner whose credentials were not rewritten yet. -/
  basis : OwnerId → Option Basis

def CredentialState.touch (s : CredentialState) (owner : OwnerId) : CredentialState :=
  { s with touched := owner :: s.touched }

inductive CredentialEvent where
  /-- `put_access` and `delete_access` replace the policy. -/
  | replace (email : String) (entry : Option AccessEntry)
  | findEmail
  /-- A request reconciles an owner: `authorize_rest_role`, `refresh`, `revoke`. -/
  | reconcile (owner : OwnerId)
  | forward (owner : AdmissionIdentity) (role : DemoRole)
  | beginDelete (owner : AdmissionIdentity)
  | readRole
  | findOwner
  | readGrants (now : Nat)
  | rewrite (secrets : DemoRole → String)
  | revoke
  | provision (secret : String)
  | respond
  | endDelete
  /-- The client is gone while the palace is asked. -/
  | drop

def CredentialEvent.run (s : CredentialState) :
    CredentialEvent → CredentialTask → Option (CredentialTask × CredentialState)
  | .replace email entry, .idle =>
    -- `replace` refuses to leave no administrator
    if (s.access.change email entry).users.values.any enabledAdmin then
      some (.findingEmail email, { s with
        access := s.access.change email entry
        touched := (s.access.ownerIdForEmail email).toList ++ s.touched })
    else none
  | .findEmail, .findingEmail email =>
    match s.access.ownerIdForEmail email with
    | none => some (.idle, s)
    | some owner => some (.readingRole owner .done, s.touch owner)
  | .reconcile owner, .idle => some (.readingRole owner .done, s.touch owner)
  | .forward owner role, .idle =>
    if role = .admin then none
    else some (.readingRole owner.owner.id (.provision owner role), s.touch owner.owner.id)
  | .beginDelete owner, .idle =>
    some (.readingRole owner.owner.id (.provision owner .admin), { s.touch owner.owner.id with
      deletes := Function.update s.deletes owner.owner.id (s.deletes owner.owner.id + 1) })
  | .readRole, .readingRole owner after =>
    match s.access.roleForOwner owner with
    | none => some (.revoking owner after, s)
    | some role => some (.findingOwner owner role after, s)
  | .findOwner, .findingOwner owner role after =>
    match s.gateway.findOwner? owner with
    | none => some (.revoking owner after, s)
    | some owner => some (.readingGrants owner role after, s)
  | .readGrants now, .readingGrants owner role after =>
    some (.rewriting owner role (decide (0 < s.deletes owner.owner.id))
      (s.gateway.activeTokenRoles now owner.owner.id role (s.deletes owner.owner.id)) after, s)
  | .rewrite secrets, .rewriting owner role deleting roles after =>
    some (after.next, { s with
      tokens := s.tokens.reconcileRoles owner.owner secrets roles
      basis := Function.update s.basis owner.owner.id (some ⟨some role, deleting, []⟩) })
  | .revoke, .revoking owner after =>
    some (after.next, { s with
      tokens := s.tokens.revoke owner
      basis := Function.update s.basis owner (some ⟨none, false, []⟩) })
  | .provision secret, .provisioning owner role =>
    some (.forwarding owner (decide (role = .admin)), { s with
      tokens := s.tokens.provision owner.owner secret role
      basis := Function.update s.basis owner.owner.id ((s.basis owner.owner.id).map fun b =>
        { b with provisioned := role :: b.provisioned }) })
  | .respond, .forwarding owner deleting =>
    some (.readingRole owner.owner.id (.respond owner deleting), s)
  | .endDelete, .ending owner =>
    some (.readingRole owner.owner.id .done, { s with
      deletes := Function.update s.deletes owner.owner.id (s.deletes owner.owner.id - 1) })
  | .drop, .forwarding owner deleting => some (if deleting then .ending owner else .idle, s)
  | _, _ => none

structure CredentialWorld where
  state : CredentialState
  task : Nat → CredentialTask

inductive CredentialLabel where
  | step (p : Nat) (e : CredentialEvent)
  /-- A request of the gateway takes a step: grants are issued, revoked and pruned. -/
  | gateway (e : Event) (task : Task)
  /-- A subject is admitted for the first time. -/
  | bind (key : String) (record : BindingRecord)

abbrev Admission := Access → VerifiedIdentity → Except ProtocolError (Option PolicyDecision)

def Access.policy (resolve : Admission) (a : Access) : Policy where
  resolve := resolve a
  roleForOwner owner := .ok (a.roleForOwner owner)

def CredentialWorld.after (config : GatewayConfig) (resolve : Admission) (w : CredentialWorld) :
    CredentialLabel → Option CredentialWorld
  | .step p e =>
    (e.run w.state (w.task p)).map fun r => ⟨r.2, Function.update w.task p r.1⟩
  | .gateway e task =>
    (e.run config (w.state.access.policy resolve) w.state.gateway task).map fun r =>
      { w with state := { w.state with gateway := r.2 } }
  | .bind key record =>
    if h : (∀ e ∈ w.state.access.bindings.entries,
        e.2.email ≠ record.email ∧ e.2.ownerId ≠ record.ownerId) ∧
          w.state.access.bindings.get? key = none then
      some { w with state := { w.state with access := w.state.access.bind key record h.1 } }
    else none

def credentialMachine (config : GatewayConfig) (resolve : Admission) :
    Machine CredentialWorld CredentialLabel where
  Init w := w.state.gateway = .empty ∧ (∀ o, w.state.deletes o = 0) ∧ w.state.touched = [] ∧
    (∀ o, w.state.basis o = none) ∧ ∀ p, w.task p = .idle
  Step w l w' := w.after config resolve l = some w'

/-! ## What is allowed and what is owed -/

namespace CredentialState

def Allowed (s : CredentialState) (o : OwnerId) (r : DemoRole) : Prop :=
  r = .admin ∧ 0 < s.deletes o ∨
    r ≠ .admin ∧ ∃ current, s.access.roleForOwner o = some current ∧ r.rank ≤ current.rank

def Clean (s : CredentialState) (o : OwnerId) : Prop :=
  ∀ operations, s.tokens.Has o operations → ∃ r, operations = operationsFor r ∧ s.Allowed o r

/-- The policy has not been lowered below what was read, a delete is in flight if one was, and the
roles provisioned are still allowed. -/
structure Still (s : CredentialState) (o : OwnerId) (b : Basis) : Prop where
  role : ∀ role, b.role = some role →
    ∃ current, s.access.roleForOwner o = some current ∧ role.rank ≤ current.rank
  deleting : b.deleting = true → 0 < s.deletes o
  provisioned : ∀ r ∈ b.provisioned, s.Allowed o r

end CredentialState

/-- A credential of the role rests on the reads, or was provisioned. -/
def Basis.Gives (b : Basis) (r : DemoRole) : Prop :=
  r ∈ b.provisioned ∨ (r = .admin ∧ b.deleting = true) ∨
    r ≠ .admin ∧ ∃ role, b.role = some role ∧ r.rank ≤ role.rank

def After.owners : After → List OwnerId
  | .done => []
  | .provision owner _ => [owner.owner.id]
  | .respond owner deleting => if deleting then [owner.owner.id] else []

def CredentialTask.owners : CredentialTask → List OwnerId
  | .idle | .findingEmail _ => []
  | .readingRole owner after | .findingOwner owner _ after | .revoking owner after =>
    owner :: after.owners
  | .readingGrants owner _ after | .rewriting owner _ _ _ after => owner.owner.id :: after.owners
  | .provisioning owner _ | .forwarding owner _ | .ending owner => [owner.owner.id]

/-- A request has yet to reconcile an owner, found by its address in the first case. -/
def CredentialTask.Owes (a : Access) (o : OwnerId) (t : CredentialTask) : Prop :=
  o ∈ t.owners ∨ ∃ email, t = .findingEmail email ∧ a.ownerIdForEmail email = some o

namespace CredentialWorld

/-- Another request has yet to reconcile an owner. -/
def OwedBeside (w : CredentialWorld) (p : Nat) (o : OwnerId) : Prop :=
  ∃ q, q ≠ p ∧ (w.task q).Owes w.state.access o

/-- The last rewrite of a request is of roles that are allowed when it happens, and a request that is
dropped leaves a clean file, or somebody else has yet to reconcile the owner. -/
def Settles (w : CredentialWorld) : CredentialLabel → Prop
  | .step p (.rewrite _) => ∀ owner role deleting roles after,
    w.task p = .rewriting owner role deleting roles after →
      (∀ r ∈ roles, w.state.Allowed owner.owner.id r) ∨ owner.owner.id ∈ after.owners ∨
        w.OwedBeside p owner.owner.id
  | .step p .drop => ∀ owner, w.task p = .forwarding owner false →
    w.state.Clean owner.owner.id ∨ w.OwedBeside p owner.owner.id
  | _ => True

/-- **The condition on a step**: when a request rewrites for the last time, the policy still has what
it read, and when a request is dropped, the policy still has what the owner's credentials rest on, or
somebody else has yet to reconcile the owner. -/
def Timely (w : CredentialWorld) : CredentialLabel → Prop
  | .step p (.rewrite _) => ∀ owner role deleting roles after,
    w.task p = .rewriting owner role deleting roles after →
      w.state.Still owner.owner.id ⟨some role, deleting, []⟩ ∨ owner.owner.id ∈ after.owners ∨
        w.OwedBeside p owner.owner.id
  | .step p .drop => ∀ owner, w.task p = .forwarding owner false →
    (∃ b, w.state.basis owner.owner.id = some b ∧ w.state.Still owner.owner.id b) ∨
      w.OwedBeside p owner.owner.id
  | _ => True

/-- A credential beyond the policy is one that a request has yet to reconcile. -/
def Owed (w : CredentialWorld) : Prop :=
  ∀ o ∈ w.state.touched, w.state.Clean o ∨ ∃ p, (w.task p).Owes w.state.access o

end CredentialWorld

/-! ## One step -/

section
variable {s s' : CredentialState} {e : CredentialEvent} {task task' : CredentialTask} {o : OwnerId}

/-- Away from `findingEmail` it does not matter what the policy is. -/
theorem CredentialTask.Owes.owners {a : Access} (h : task.Owes a o)
    (htask : ∀ email, task ≠ .findingEmail email) : o ∈ task.owners := by
  rcases h with h | ⟨email, rfl, -⟩
  · exact h
  · exact absurd rfl (htask email)

theorem After.owners_next {a : After} : a.next.owners = a.owners := by
  cases a with
  | done => rfl
  | provision owner role => rfl
  | respond owner deleting => cases deleting <;> rfl

theorem After.next_ne (a : After) (email : String) : a.next ≠ .findingEmail email := by
  cases a with
  | done => simp [After.next]
  | provision owner role => simp [After.next]
  | respond owner deleting => cases deleting <;> simp [After.next]

theorem After.owes_next {a : After} {b : Access} : a.next.Owes b o ↔ o ∈ a.owners := by
  constructor
  · intro h
    rw [← After.owners_next]
    exact h.owners a.next_ne
  · intro h
    rw [← After.owners_next] at h
    exact .inl h

namespace CredentialState

theorem Clean.mono (hhas : ∀ operations, s'.tokens.Has o operations → s.tokens.Has o operations)
    (hallowed : ∀ r, s.Allowed o r → s'.Allowed o r) (h : s.Clean o) : s'.Clean o := by
  intro operations hops
  obtain ⟨r, hr, hr'⟩ := h operations (hhas operations hops)
  exact ⟨r, hr, hallowed r hr'⟩

theorem Allowed.of_role {r : DemoRole} (h : s.Allowed o r) (hdeletes : s.deletes o ≤ s'.deletes o)
    (hrole : ∀ current, s.access.roleForOwner o = some current →
      s'.access.roleForOwner o = some current) : s'.Allowed o r := by
  rcases h with ⟨hr, hpos⟩ | ⟨hr, current, hcurrent, hrank⟩
  · exact .inl ⟨hr, by omega⟩
  · exact .inr ⟨hr, current, hrole current hcurrent, hrank⟩

end CredentialState

structure OwedStep (s : CredentialState) (task : CredentialTask) (s' : CredentialState)
    (task' : CredentialTask) (o : OwnerId) : Prop where
  touched : o ∈ s'.touched → o ∈ s.touched ∨ task'.Owes s'.access o
  clean : s.Clean o → s'.Clean o ∨ task'.Owes s'.access o
  owes : task.Owes s.access o → s'.Clean o ∨ task'.Owes s'.access o

theorem OwedStep.moves (htouched : s'.touched = s.touched) (htokens : s'.tokens = s.tokens)
    (haccess : s'.access = s.access) (hdeletes : s'.deletes = s.deletes)
    (howes : task.Owes s.access o → task'.Owes s.access o) : OwedStep s task s' task' o := by
  refine ⟨fun h => .inl (htouched ▸ h), fun h => .inl ?_, fun h => .inr (haccess.symm ▸ howes h)⟩
  refine h.mono (fun _ hops => htokens ▸ hops) fun r hr => hr.of_role (by rw [hdeletes]) ?_
  intro current hcurrent
  rw [haccess, hcurrent]

theorem OwedStep.of_owes (h : task'.Owes s'.access o) : OwedStep s task s' task' o :=
  ⟨fun _ => .inr h, fun _ => .inr h, fun _ => .inr h⟩

theorem OwedStep.beside (htouched : o ∈ s'.touched → o ∈ s.touched)
    (hhas : ∀ operations, s'.tokens.Has o operations → s.tokens.Has o operations)
    (hallowed : ∀ r, s.Allowed o r → s'.Allowed o r)
    (howes : task.Owes s.access o → s'.Clean o ∨ task'.Owes s'.access o) :
    OwedStep s task s' task' o :=
  ⟨fun h => .inl (htouched h), fun h => .inl (h.mono hhas hallowed), howes⟩

theorem not_owes_idle {a : Access} : ¬ CredentialTask.idle.Owes a o := by
  rintro (h | ⟨email, h, -⟩)
  · cases h
  · cases h

theorem OwedStep.start {s₁ : CredentialState} {x : OwnerId} (htouched : s₁.touched = x :: s.touched)
    (htokens : s₁.tokens = s.tokens) (haccess : s₁.access = s.access)
    (hdeletes : s.deletes o ≤ s₁.deletes o) (howners : x ∈ task'.owners) :
    OwedStep s .idle s₁ task' o := by
  by_cases ho : o = x
  · exact .of_owes (.inl (ho ▸ howners))
  · refine .beside (fun h => ?_) (fun _ hops => htokens ▸ hops)
      (fun r hr => hr.of_role hdeletes fun current hcurrent => by rw [haccess, hcurrent])
      fun h => absurd h not_owes_idle
    rw [htouched] at h
    exact (List.mem_cons.1 h).resolve_left ho

/-- **What a step does to what is owed**, but for the two that the condition is about. -/
theorem run_owed (he : ∀ secrets, e ≠ .rewrite secrets) (hdrop : e ≠ .drop)
    (hrun : e.run s task = some (task', s')) (o : OwnerId) : OwedStep s task s' task' o := by
  unfold CredentialEvent.run at hrun
  split at hrun
  any_goals cases hrun
  case h_1 email entry =>
    split at hrun <;> cases hrun
    by_cases ho : s.access.ownerIdForEmail email = some o
    · exact .of_owes (.inr ⟨email, rfl, ho⟩)
    · refine .beside (fun h => ?_) (fun _ hops => hops)
        (fun r hr => hr.of_role le_rfl fun current hcurrent => ?_) fun h => absurd h not_owes_idle
      · rcases List.mem_append.1 h with h | h
        · exact absurd (Option.mem_toList.1 h) ho
        · exact h
      · exact (Access.roleForOwner_change ho).trans hcurrent
  case h_2 email =>
    split at hrun <;> cases hrun
    · rename_i hnone
      refine .moves rfl rfl rfl rfl fun h => ?_
      rcases h with h | ⟨email', heq, ho⟩
      · cases h
      · cases heq
        rw [hnone] at ho
        cases ho
    · rename_i owner hsome
      by_cases ho : o = owner
      · exact .of_owes (.inl (ho ▸ List.mem_cons_self))
      · refine .beside (fun h => (List.mem_cons.1 h).resolve_left ho) (fun _ hops => hops)
          (fun r hr => hr.of_role le_rfl fun _ hcurrent => hcurrent) fun h => ?_
        rcases h with h | ⟨email', heq, ho'⟩
        · cases h
        · cases heq
          rw [hsome] at ho'
          cases ho'
          exact absurd rfl ho
  case h_3.refl owner => exact .start rfl rfl rfl le_rfl List.mem_cons_self
  case h_4 owner role =>
    split at hrun <;> cases hrun
    exact .start rfl rfl rfl le_rfl List.mem_cons_self
  case h_5.refl owner =>
    refine .start rfl rfl rfl ?_ List.mem_cons_self
    simp only [Function.update_apply]
    split
    · rename_i ho
      rw [ho]
      exact Nat.le_succ _
    · exact le_rfl
  case h_6 owner after =>
    split at hrun <;> cases hrun <;> exact .moves rfl rfl rfl rfl fun h => .inl (h.owners (by simp))
  case h_7 owner role after =>
    split at hrun <;> cases hrun
    · exact .moves rfl rfl rfl rfl fun h => .inl (h.owners (by simp))
    · rename_i x hfind
      refine .moves rfl rfl rfl rfl fun h => .inl ?_
      rw [← GatewayState.findOwner?_some hfind] at h
      exact h.owners (by simp)
  case h_8.refl now owner role after => exact .moves rfl rfl rfl rfl fun h => .inl (h.owners (by simp))
  case h_9.refl secrets owner role deleting roles after => exact absurd rfl (he secrets)
  case h_10.refl owner after =>
    by_cases ho : o = owner
    · have hclean : CredentialState.Clean { s with
          tokens := s.tokens.revoke owner
          basis := Function.update s.basis owner (some ⟨none, false, []⟩) } o := by
        intro operations hops
        exact absurd ho (TokenFile.has_revoke hops).1
      exact ⟨.inl, fun _ => .inl hclean, fun _ => .inl hclean⟩
    · refine .beside id (fun _ hops => (TokenFile.has_revoke hops).2)
        (fun r hr => hr.of_role le_rfl fun _ hcurrent => hcurrent) fun h => .inr ?_
      rw [After.owes_next]
      exact (List.mem_cons.1 (h.owners (by simp))).resolve_left ho
  case h_11.refl secret owner role =>
    by_cases ho : o = owner.owner.id
    · exact .of_owes (.inl (ho ▸ List.mem_cons_self))
    · refine .beside id (fun operations hops => ?_)
        (fun r hr => hr.of_role le_rfl fun _ hcurrent => hcurrent)
        fun h => absurd (List.mem_singleton.1 (h.owners (by simp))) ho
      rcases TokenFile.has_provision.1 hops with hops | ⟨heq, -⟩
      · exact hops
      · exact absurd heq ho
  case h_12.refl owner deleting =>
    refine .moves rfl rfl rfl rfl fun h => .inl ?_
    have := List.mem_singleton.1 (h.owners (by simp))
    exact this ▸ List.mem_cons_self
  case h_13.refl owner =>
    by_cases ho : o = owner.owner.id
    · exact .of_owes (.inl (ho ▸ List.mem_cons_self))
    · refine .beside id (fun _ hops => hops) (fun r hr => hr.of_role ?_ fun _ hcurrent => hcurrent)
        fun h => absurd (List.mem_singleton.1 (h.owners (by simp))) ho
      simp only [Function.update_apply, if_neg ho]
      exact le_rfl
  case h_14.refl owner deleting => exact absurd rfl hdrop

theorem rewrite_clean {owner : AdmissionIdentity} {secrets : DemoRole → String}
    {roles : List DemoRole} (htokens : s'.tokens = s.tokens.reconcileRoles owner.owner secrets roles)
    (hallowed : ∀ r ∈ roles, s'.Allowed owner.owner.id r) : s'.Clean owner.owner.id := by
  intro operations hops
  rw [htokens] at hops
  rcases TokenFile.has_reconcileRoles.1 hops with ⟨-, r, hr, rfl⟩ | ⟨hne, -⟩
  · exact ⟨r, rfl, hallowed r hr⟩
  · exact absurd rfl hne

theorem rewrite_beside {owner : AdmissionIdentity} {secrets : DemoRole → String}
    {roles : List DemoRole} (htokens : s'.tokens = s.tokens.reconcileRoles owner.owner secrets roles)
    (hallowed : ∀ r, s.Allowed o r → s'.Allowed o r) (ho : o ≠ owner.owner.id) (h : s.Clean o) :
    s'.Clean o := by
  refine h.mono (fun operations hops => ?_) hallowed
  rw [htokens] at hops
  rcases TokenFile.has_reconcileRoles.1 hops with ⟨heq, -⟩ | ⟨-, hops⟩
  · exact absurd heq ho
  · exact hops

/-! ### What credentials rest on -/

theorem credentialRole_rank (current ceiling : AccessRole) :
    credentialRole current ceiling ≠ .admin ∧
      (credentialRole current ceiling).rank ≤ current.rank := by
  cases current <;> cases ceiling <;> decide

theorem activeTokenRoles_gives {g : GatewayState} {now : Nat} {owner : OwnerId} {role : AccessRole}
    {deletes : Nat} {provisioned : List DemoRole} {r : DemoRole}
    (h : r ∈ g.activeTokenRoles now owner role deletes) :
    Basis.Gives ⟨some role, decide (0 < deletes), provisioned⟩ r := by
  unfold GatewayState.activeTokenRoles at h
  rcases List.mem_append.1 h with h | h
  · rw [List.mem_eraseDups] at h
    obtain ⟨ceiling, -, rfl⟩ := List.mem_map.1 h
    obtain ⟨hadmin, hrank⟩ := credentialRole_rank role ceiling
    exact .inr (.inr ⟨hadmin, role, rfl, hrank⟩)
  · split at h
    · rename_i hpos
      exact .inr (.inl ⟨List.mem_singleton.1 h, decide_eq_true hpos⟩)
    · cases h

theorem CredentialState.Still.allowed {b : Basis} {r : DemoRole} (h : s.Still o b)
    (hr : b.Gives r) : s.Allowed o r := by
  rcases hr with hr | ⟨rfl, hdeleting⟩ | ⟨hadmin, role, hrole, hrank⟩
  · exact h.provisioned r hr
  · exact .inl ⟨rfl, h.deleting hdeleting⟩
  · obtain ⟨current, hcurrent, hle⟩ := h.role role hrole
    exact .inr ⟨hadmin, current, hcurrent, hrank.trans hle⟩

/-- The credentials of an owner rest on its basis. -/
def CredentialState.Rests (s : CredentialState) (o : OwnerId) : Prop :=
  ∀ b, s.basis o = some b → ∀ operations, s.tokens.Has o operations →
    ∃ r, operations = operationsFor r ∧ b.Gives r

theorem CredentialState.Rests.clean {b : Basis} (h : s.Rests o) (hb : s.basis o = some b)
    (hstill : s.Still o b) : s.Clean o := by
  intro operations hops
  obtain ⟨r, hr, hgives⟩ := h b hb operations hops
  exact ⟨r, hr, hstill.allowed hgives⟩

/-- A request is about to rewrite roles that rest on its reads. -/
def CredentialTask.Rests : CredentialTask → Prop
  | .rewriting _ role deleting roles _ => ∀ r ∈ roles, Basis.Gives ⟨some role, deleting, []⟩ r
  | _ => True

theorem CredentialState.Rests.same (h : s.Rests o) (htokens : s'.tokens = s.tokens)
    (hbasis : s'.basis = s.basis) : s'.Rests o := by
  unfold CredentialState.Rests
  rw [htokens, hbasis]
  exact h

theorem After.next_rests (a : After) : a.next.Rests := by
  cases a with
  | done => trivial
  | provision owner role => trivial
  | respond owner deleting => cases deleting <;> trivial

/-- A step keeps what the credentials and the rewrites rest on. -/
theorem run_rests (hrun : e.run s task = some (task', s')) (htask : task.Rests)
    (h : ∀ o, s.Rests o) : task'.Rests ∧ ∀ o, s'.Rests o := by
  unfold CredentialEvent.run at hrun
  split at hrun
  any_goals cases hrun
  case h_1 =>
    split at hrun <;> cases hrun
    exact ⟨trivial, fun o => (h o).same rfl rfl⟩
  case h_2 =>
    split at hrun <;> cases hrun <;> exact ⟨trivial, fun o => (h o).same rfl rfl⟩
  case h_3.refl => exact ⟨trivial, fun o => (h o).same rfl rfl⟩
  case h_4 =>
    split at hrun <;> cases hrun
    exact ⟨trivial, fun o => (h o).same rfl rfl⟩
  case h_5.refl => exact ⟨trivial, fun o => (h o).same rfl rfl⟩
  case h_6 => split at hrun <;> cases hrun <;> exact ⟨trivial, h⟩
  case h_7 => split at hrun <;> cases hrun <;> exact ⟨trivial, h⟩
  case h_8.refl now owner role after =>
    exact ⟨fun r hr => activeTokenRoles_gives hr, h⟩
  case h_9.refl secrets owner role deleting roles after =>
    refine ⟨after.next_rests, fun o b hb operations hops => ?_⟩
    rcases TokenFile.has_reconcileRoles.1 hops with ⟨rfl, r, hr, rfl⟩ | ⟨hne, hops⟩
    · dsimp only at hb
      rw [Function.update_self] at hb
      cases hb
      exact ⟨r, rfl, htask r hr⟩
    · dsimp only at hb
      rw [Function.update_of_ne hne] at hb
      exact h o b hb operations hops
  case h_10.refl owner after =>
    refine ⟨after.next_rests, fun o b hb operations hops => ?_⟩
    obtain ⟨hne, hops⟩ := TokenFile.has_revoke hops
    dsimp only at hb
    rw [Function.update_of_ne hne] at hb
    exact h o b hb operations hops
  case h_11.refl secret owner role =>
    refine ⟨trivial, fun o b hb operations hops => ?_⟩
    dsimp only at hb
    by_cases ho : o = owner.owner.id
    · rw [ho, Function.update_self, Option.map_eq_some_iff] at hb
      obtain ⟨b, hb, rfl⟩ := hb
      rcases TokenFile.has_provision.1 hops with hops | ⟨-, heq⟩
      · obtain ⟨r, hr, hgives⟩ := h o b (ho ▸ hb) operations hops
        exact ⟨r, hr, hgives.imp_left (List.mem_cons_of_mem _)⟩
      · exact ⟨role, heq, .inl List.mem_cons_self⟩
    · rw [Function.update_of_ne ho] at hb
      rcases TokenFile.has_provision.1 hops with hops | ⟨heq, -⟩
      · exact h o b hb operations hops
      · exact absurd heq ho
  case h_12.refl => exact ⟨trivial, h⟩
  case h_13.refl => exact ⟨trivial, fun o => (h o).same rfl rfl⟩
  case h_14.refl owner deleting =>
    exact ⟨by cases deleting <;> trivial, h⟩

end

/-! ## Deletes in flight -/

def After.guard : After → Option OwnerId
  | .done => none
  | .provision owner role => if role = .admin then some owner.owner.id else none
  | .respond owner deleting => if deleting then some owner.owner.id else none

/-- The owner whose delete the request has begun and not ended. -/
def CredentialTask.guard : CredentialTask → Option OwnerId
  | .idle | .findingEmail _ => none
  | .readingRole _ after | .findingOwner _ _ after | .revoking _ after | .readingGrants _ _ after
  | .rewriting _ _ _ _ after => after.guard
  | .provisioning owner role => if role = .admin then some owner.owner.id else none
  | .forwarding owner deleting => if deleting then some owner.owner.id else none
  | .ending owner => some owner.owner.id

theorem After.guard_next (a : After) : a.next.guard = a.guard := by
  cases a with
  | done => rfl
  | provision owner role => rfl
  | respond owner deleting => cases deleting <;> rfl

/-- A step keeps the guard of its request and the counts, or takes one, or gives one back. -/
theorem run_guard {s s' : CredentialState} {e : CredentialEvent} {task task' : CredentialTask}
    (hrun : e.run s task = some (task', s')) :
    (task'.guard = task.guard ∧ s'.deletes = s.deletes) ∨
      (∃ o, task.guard = none ∧ task'.guard = some o ∧
        s'.deletes = Function.update s.deletes o (s.deletes o + 1)) ∨
      ∃ o, task.guard = some o ∧ task'.guard = none ∧
        s'.deletes = Function.update s.deletes o (s.deletes o - 1) := by
  unfold CredentialEvent.run at hrun
  split at hrun
  any_goals cases hrun
  case h_1 => split at hrun <;> cases hrun; exact .inl ⟨rfl, rfl⟩
  case h_2 => split at hrun <;> cases hrun <;> exact .inl ⟨rfl, rfl⟩
  case h_3.refl => exact .inl ⟨rfl, rfl⟩
  case h_4 =>
    split at hrun <;> cases hrun
    rename_i hrole
    exact .inl ⟨if_neg hrole, rfl⟩
  case h_5.refl owner => exact .inr (.inl ⟨owner.owner.id, rfl, rfl, rfl⟩)
  case h_6 => split at hrun <;> cases hrun <;> exact .inl ⟨rfl, rfl⟩
  case h_7 => split at hrun <;> cases hrun <;> exact .inl ⟨rfl, rfl⟩
  case h_8.refl => exact .inl ⟨rfl, rfl⟩
  case h_9.refl after => exact .inl ⟨after.guard_next, rfl⟩
  case h_10.refl after => exact .inl ⟨after.guard_next, rfl⟩
  case h_11.refl secret owner role => exact .inl ⟨by cases role <;> rfl, rfl⟩
  case h_12.refl => exact .inl ⟨rfl, rfl⟩
  case h_13.refl owner => exact .inr (.inr ⟨owner.owner.id, rfl, rfl, rfl⟩)
  case h_14.refl owner deleting => exact .inl ⟨by cases deleting <;> rfl, rfl⟩

namespace CredentialWorld

/-- The deletes of an owner are those of the requests that hold a guard for it. -/
def Counted (w : CredentialWorld) : Prop :=
  ∀ o, ∃ ps : Finset Nat, (∀ p, p ∈ ps ↔ (w.task p).guard = some o) ∧ ps.card = w.state.deletes o

/-- The credentials and the rewrites rest on what was read. -/
def Rests (w : CredentialWorld) : Prop := (∀ p, (w.task p).Rests) ∧ ∀ o, w.state.Rests o

end CredentialWorld

section
variable {config : GatewayConfig} {resolve : Admission} {w w' : CredentialWorld}
  {l : CredentialLabel}

theorem credential_cases (h : (credentialMachine config resolve).Step w l w') :
    (∃ p e t, l = .step p e ∧ e.run w.state (w.task p) = some (t, w'.state) ∧
      w'.task = Function.update w.task p t) ∨
    (∃ e task g, l = .gateway e task ∧ w' = { w with state := { w.state with gateway := g } }) ∨
    ∃ key record h, l = .bind key record ∧ w.state.access.bindings.get? key = none ∧
      w' = { w with state := { w.state with access := w.state.access.bind key record h } } := by
  cases l with
  | step p e =>
    obtain ⟨r, hrun, rfl⟩ := Option.map_eq_some_iff.1 h
    exact .inl ⟨p, e, r.1, rfl, hrun, rfl⟩
  | gateway e task =>
    obtain ⟨r, -, rfl⟩ := Option.map_eq_some_iff.1 h
    exact .inr (.inl ⟨e, task, r.2, rfl, rfl⟩)
  | bind key record =>
    have h : CredentialWorld.after config resolve w (.bind key record) = some w' := h
    unfold CredentialWorld.after at h
    dsimp only at h
    split at h
    · rename_i hfree
      cases h
      exact .inr (.inr ⟨key, record, hfree.1, rfl, hfree.2, rfl⟩)
    · cases h

theorem counted_step (h : w.Counted) (hstep : (credentialMachine config resolve).Step w l w') :
    w'.Counted := by
  rcases credential_cases hstep with ⟨p, e, t, rfl, hrun, htask⟩ | ⟨e, task, g, rfl, rfl⟩ |
    ⟨key, record, hfree, rfl, -, rfl⟩
  · intro o
    obtain ⟨ps, hps, hcard⟩ := h o
    have hguard : ∀ q, (w'.task q).guard = if q = p then t.guard else (w.task q).guard := by
      intro q
      rw [htask, Function.update_apply]
      split <;> rfl
    rcases run_guard hrun with ⟨hsame, hdeletes⟩ | ⟨x, hnone, hsome, hdeletes⟩ |
      ⟨x, hsome, hnone, hdeletes⟩
    · refine ⟨ps, fun q => ?_, hdeletes ▸ hcard⟩
      rw [hps, hguard]
      split
      · rename_i hq
        rw [hq, hsame]
      · rfl
    · rw [hdeletes, Function.update_apply]
      by_cases ho : o = x
      · have hp : p ∉ ps := by
          rw [hps, hnone]
          simp
        refine ⟨insert p ps, fun q => ?_, ?_⟩
        · rw [Finset.mem_insert, hps, hguard]
          split
          · rename_i hq
            simp [hq, hsome, ho]
          · rename_i hq
            simp [hq]
        · rw [Finset.card_insert_of_notMem hp, hcard, if_pos ho, ho]
      · refine ⟨ps, fun q => ?_, by rw [if_neg ho, hcard]⟩
        rw [hps, hguard]
        split
        · rename_i hq
          rw [hq, hnone, hsome]
          simp [Ne.symm ho]
        · rfl
    · rw [hdeletes, Function.update_apply]
      by_cases ho : o = x
      · have hp : p ∈ ps := by rw [hps, hsome, ho]
        refine ⟨ps.erase p, fun q => ?_, ?_⟩
        · rw [Finset.mem_erase, hps, hguard]
          split
          · rename_i hq
            simp [hq, hnone]
          · rename_i hq
            simp [hq]
        · rw [Finset.card_erase_of_mem hp, hcard, if_pos ho, ho]
      · refine ⟨ps, fun q => ?_, by rw [if_neg ho, hcard]⟩
        rw [hps, hguard]
        split
        · rename_i hq
          rw [hq, hnone, hsome]
          simp [Ne.symm ho]
        · rfl
  · exact h
  · exact h

theorem counted_reachable (h : (credentialMachine config resolve).Reachable w) : w.Counted := by
  refine h.invariant ?_ fun a l b _ ha hstep => counted_step ha hstep
  rintro a ⟨-, hdeletes, -, -, htask⟩ o
  exact ⟨∅, fun p => by simp [htask, CredentialTask.guard], by simp [hdeletes]⟩

theorem rests_reachable (h : (credentialMachine config resolve).Reachable w) : w.Rests := by
  refine h.invariant ?_ fun a l b _ ha hstep => ?_
  · rintro a ⟨-, -, -, hbasis, htask⟩
    refine ⟨fun p => ?_, fun o b hb => ?_⟩
    · rw [htask]
      trivial
    · rw [hbasis] at hb
      cases hb
  · rcases credential_cases hstep with ⟨p, e, t, rfl, hrun, htask⟩ | ⟨e, task, g, rfl, rfl⟩ |
      ⟨key, record, hfree, rfl, -, rfl⟩
    · obtain ⟨ht, hs⟩ := run_rests hrun (ha.1 p) ha.2
      refine ⟨fun q => ?_, hs⟩
      rw [htask, Function.update_apply]
      split
      · exact ht
      · exact ha.1 q
    · exact ha
    · exact ha

theorem settles_of_timely (hrests : w.Rests) (h : w.Timely l) : w.Settles l := by
  cases l with
  | gateway e task => trivial
  | bind key record => trivial
  | step p e =>
    cases e
    case rewrite secrets =>
      intro owner role deleting roles after hp
      refine (h owner role deleting roles after hp).imp_left fun hstill r hr => ?_
      have htask := hrests.1 p
      rw [hp] at htask
      exact hstill.allowed (htask r hr)
    case drop =>
      intro owner hp
      refine (h owner hp).imp_left ?_
      rintro ⟨b, hb, hstill⟩
      exact (hrests.2 _).clean hb hstill
    all_goals trivial

/-! ## Owed over a run -/

theorem run_bindings {s s' : CredentialState} {e : CredentialEvent} {task task' : CredentialTask}
    (hrun : e.run s task = some (task', s')) : s'.access.bindings = s.access.bindings := by
  unfold CredentialEvent.run at hrun
  split at hrun
  any_goals cases hrun
  all_goals
    repeat' split at hrun
    all_goals try cases hrun
    all_goals rfl

theorem CredentialTask.Owes.of_bindings {a a' : Access} {t : CredentialTask} {o : OwnerId}
    (h : t.Owes a o) (hbindings : a'.bindings = a.bindings) : t.Owes a' o := by
  refine h.imp_right ?_
  rintro ⟨email, rfl, hemail⟩
  refine ⟨email, rfl, ?_⟩
  unfold Access.ownerIdForEmail at hemail ⊢
  rw [hbindings]
  exact hemail

theorem owed_of_step {p : Nat} {e : CredentialEvent} {t : CredentialTask}
    (h : w.Owed) (hrun : e.run w.state (w.task p) = some (t, w'.state))
    (htask : w'.task = Function.update w.task p t)
    (howed : ∀ o, OwedStep w.state (w.task p) w'.state t o ∨
      w'.state.touched = w.state.touched ∧ w.OwedBeside p o) : w'.Owed := by
  have hbindings := run_bindings hrun
  have hself : ∀ {o}, t.Owes w'.state.access o → ∃ q, (w'.task q).Owes w'.state.access o := by
    intro o ho
    refine ⟨p, ?_⟩
    rw [htask, Function.update_self]
    exact ho
  have hother : ∀ {o q}, q ≠ p → (w.task q).Owes w.state.access o →
      ∃ q, (w'.task q).Owes w'.state.access o := by
    intro o q hq ho
    refine ⟨q, ?_⟩
    rw [htask, Function.update_of_ne hq]
    exact ho.of_bindings hbindings
  intro o ho
  rcases howed o with hstep | ⟨htouched, q, hq, hqo⟩
  · rcases hstep.touched ho with hold | howes
    · rcases h o hold with hclean | ⟨q, hqo⟩
      · exact (hstep.clean hclean).imp_right hself
      · by_cases hq : q = p
        · exact (hstep.owes (hq ▸ hqo)).imp_right hself
        · exact .inr (hother hq hqo)
    · exact .inr (hself howes)
  · exact .inr (hother hq hqo)

/-- **One step** that settles what it owes keeps every owner owed. -/
theorem owed_step (h : w.Owed) (hstep : (credentialMachine config resolve).Step w l w')
    (hsettles : w.Settles l) : w'.Owed := by
  rcases credential_cases hstep with ⟨p, e, t, rfl, hrun, htask⟩ | ⟨e, task, g, rfl, rfl⟩ |
    ⟨key, record, hfree, rfl, hkey, rfl⟩
  · refine owed_of_step h hrun htask fun o => ?_
    cases e
    case rewrite secrets =>
      generalize hp : w.task p = task at hrun
      cases task
      case rewriting owner role deleting roles after =>
        obtain ⟨rfl, hstate⟩ := Prod.mk.inj (Option.some.inj hrun)
        have htokens : w'.state.tokens = w.state.tokens.reconcileRoles owner.owner secrets roles := by
          rw [← hstate]
        have hallows : ∀ o r, w.state.Allowed o r → w'.state.Allowed o r := by
          rw [← hstate]
          exact fun o r hr => hr
        have htouched : w'.state.touched = w.state.touched := by rw [← hstate]
        by_cases ho : o = owner.owner.id
        · subst ho
          rcases hsettles owner role deleting roles after hp with hallowed | hafter | hbeside
          · have hclean := rewrite_clean htokens fun r hr => hallows _ r (hallowed r hr)
            exact .inl ⟨fun h => .inl (htouched ▸ h), fun _ => .inl hclean, fun _ => .inl hclean⟩
          · exact .inl (.of_owes (After.owes_next.2 hafter))
          · exact .inr ⟨htouched, hbeside⟩
        · refine .inl ⟨fun h => .inl (htouched ▸ h),
            fun hclean => .inl (rewrite_beside htokens (hallows o) ho hclean), fun howes => .inr ?_⟩
          rw [After.owes_next]
          exact (List.mem_cons.1 (howes.owners (by simp))).resolve_left ho
      all_goals cases hrun
    case drop =>
      generalize hp : w.task p = task at hrun
      cases task
      case forwarding owner deleting =>
        obtain ⟨rfl, hstate⟩ := Prod.mk.inj (Option.some.inj hrun)
        rw [← hstate]
        cases deleting with
        | true => exact .inl (.moves rfl rfl rfl rfl fun howes => .inl (howes.owners (by simp)))
        | false =>
          by_cases ho : o = owner.owner.id
          · subst ho
            rcases hsettles owner hp with hclean | hbeside
            · exact .inl ⟨.inl, fun _ => .inl hclean, fun _ => .inl hclean⟩
            · exact .inr ⟨rfl, hbeside⟩
          · refine .inl ⟨.inl, .inl, fun howes => ?_⟩
            exact absurd (List.mem_singleton.1 (howes.owners (by simp))) ho
      all_goals cases hrun
    all_goals exact .inl (run_owed (by simp) (by simp) hrun o)
  · exact h
  · intro o ho
    rcases h o ho with hclean | ⟨q, hq⟩
    · refine .inl (CredentialState.Clean.mono (s := w.state) (fun _ hops => hops) (fun r hr => ?_)
        hclean)
      exact hr.of_role le_rfl fun current hcurrent =>
        @Access.roleForOwner_bind _ key record o current hfree hkey hcurrent
    · refine .inr ⟨q, hq.imp_right ?_⟩
      rintro ⟨email, heq, hemail⟩
      exact ⟨email, heq, @Access.ownerIdForEmail_bind _ key email record o hfree hkey hemail⟩

theorem owed_reachable
    (h : ((credentialMachine config resolve).restrict CredentialWorld.Timely).Reachable w) :
    w.Owed := by
  have hboth : w.Owed ∧ w.Rests := by
    refine Machine.Reachable.invariant (I := fun w => w.Owed ∧ w.Rests) ?_ ?_ h
    · rintro a hinit
      have hreach : (credentialMachine config resolve).Reachable a := ⟨a, [], hinit, .nil a⟩
      refine ⟨fun o ho => ?_, rests_reachable hreach⟩
      rw [hinit.2.2.1] at ho
      cases ho
    · rintro a l b hreach ⟨howed, hrests⟩ (hstep : _ ∧ _)
      refine ⟨owed_step howed hstep.1 (settles_of_timely hrests hstep.2), ?_⟩
      exact rests_reachable (hreach.of_restrict.step hstep.1)
  exact hboth.1

def CredentialWorld.Quiet (w : CredentialWorld) : Prop := ∀ p, w.task p = .idle

/-- **Credentials do not outlive the policy** in every run in which the last rewrite of a request is
timely: when no request is in flight, an owner that was changed or served has no credential above its
current role, and none that deletes. -/
theorem credentials_within_policy (config : GatewayConfig) (resolve : Admission) :
    ∀ w, ((credentialMachine config resolve).restrict CredentialWorld.Timely).Reachable w →
      w.Quiet → ∀ o ∈ w.state.touched, ∀ c ∈ w.state.tokens.entries, c.owner.id = o →
        "delete" ∉ c.operations ∧ ∃ r current, c.operations = operationsFor r ∧
          w.state.access.roleForOwner o = some current ∧ r.rank ≤ current.rank := by
  intro w hw hquiet o ho c hc hid
  have hclean : w.state.Clean o := by
    rcases owed_reachable hw o ho with hclean | ⟨p, hp⟩
    · exact hclean
    · rw [hquiet p] at hp
      exact absurd hp not_owes_idle
  have hdeletes : w.state.deletes o = 0 := by
    obtain ⟨ps, hps, hcard⟩ := counted_reachable hw.of_restrict o
    have hempty : ps = ∅ := by
      refine Finset.eq_empty_of_forall_notMem fun p hp => ?_
      have hguard := (hps p).1 hp
      rw [hquiet p] at hguard
      cases hguard
    rw [← hcard, hempty, Finset.card_empty]
  obtain ⟨r, hr, hallowed⟩ := hclean c.operations ⟨c, hc, hid, rfl⟩
  rcases hallowed with ⟨-, hpos⟩ | ⟨hadmin, current, hcurrent, hrank⟩
  · omega
  · exact ⟨fun hdelete => hadmin (delete_mem_operationsFor.1 (hr ▸ hdelete)), r, current, hr,
      hcurrent, hrank⟩

end

/-! ### Two requests -/

/-- Enough for `Timely`, for a request that is not dropped. -/
def CredentialWorld.timely (w : CredentialWorld) : CredentialLabel → Bool
  | .step p (.rewrite _) =>
    match w.task p with
    | .rewriting owner role deleting _ after =>
      decide (owner.owner.id ∈ after.owners) ||
        ((w.state.access.roleForOwner owner.owner.id).any (fun current =>
          decide (role.rank ≤ current.rank)) && !deleting)
    | _ => true
  | .step _ .drop => false
  | _ => true

theorem CredentialWorld.timely_of {w : CredentialWorld} {l : CredentialLabel}
    (h : w.timely l = true) : w.Timely l := by
  cases l with
  | gateway e task => trivial
  | bind key record => trivial
  | step p e =>
    cases e
    case rewrite secrets =>
      intro owner role deleting roles after hp
      simp only [timely, hp, Bool.or_eq_true, Bool.and_eq_true, decide_eq_true_eq, Option.any_eq_true,
        Bool.not_eq_true'] at h
      rcases h with h | ⟨⟨current, hcurrent, hrank⟩, rfl⟩
      · exact .inr (.inl h)
      · refine .inl ⟨?_, nofun, nofun⟩
        rintro _ ⟨⟩
        exact ⟨current, hcurrent, hrank⟩
    case drop => cases h
    all_goals trivial

/-- Where steps lead, if they can be taken and are found good. -/
def playCredentials (config : GatewayConfig) (resolve : Admission)
    (good : CredentialWorld → CredentialLabel → Bool) (w : CredentialWorld)
    (ls : List CredentialLabel) : Option CredentialWorld :=
  ls.foldlM (fun w l => if good w l then w.after config resolve l else none) w

theorem run_playCredentials {config : GatewayConfig} {resolve : Admission}
    {good : CredentialWorld → CredentialLabel → Bool} {P : CredentialWorld → CredentialLabel → Prop}
    {w w' : CredentialWorld} {ls : List CredentialLabel} (hP : ∀ w l, good w l = true → P w l)
    (h : playCredentials config resolve good w ls = some w') :
    ((credentialMachine config resolve).restrict P).Run w ls w' ∧
      ∀ p, (∀ e, .step p e ∉ ls) → w'.task p = w.task p := by
  induction ls generalizing w with
  | nil =>
    cases h
    exact ⟨.nil _, fun p _ => rfl⟩
  | cons l ls ih =>
    obtain ⟨u, hu, hrest⟩ := Option.bind_eq_some_iff.1 h
    obtain ⟨hgood, hu⟩ := Option.ite_none_right_eq_some.1 hu
    obtain ⟨hrun, htask⟩ := ih hrest
    refine ⟨.cons ⟨hu, hP w l hgood⟩ hrun, fun p hp => ?_⟩
    rw [htask p fun e he => hp e (List.mem_cons_of_mem _ he)]
    rcases @credential_cases config resolve w u l hu with
      ⟨q, e, t, rfl, -, hq⟩ | ⟨e, task, g, rfl, rfl⟩ | ⟨key, record, hfree, rfl, -, rfl⟩
    · have hne : p ≠ q := by
        rintro rfl
        exact hp e List.mem_cons_self
      rw [hq, Function.update_of_ne hne]
    · rfl
    · rfl

def CredentialTask.isIdle : CredentialTask → Bool
  | .idle => true
  | _ => false

theorem CredentialTask.isIdle_iff {t : CredentialTask} : t.isIdle = true ↔ t = .idle := by
  cases t <;> simp [CredentialTask.isIdle]

/-- `ann` may write, and `root` administers. -/
def demoAccess : Access where
  users := (OrdMap.empty.insert "ann@gmail.com" ⟨.write, true, true⟩).insert "root@gmail.com"
    ⟨.admin, true, true⟩
  bindings := OrdMap.empty.insert "ann" ⟨demoOwner.owner.id, "ann@gmail.com"⟩
  distinct k r k' r' hr hr' _ := by
    rw [OrdMap.get?_insert] at hr hr'
    split at hr <;> split at hr'
    · rw [‹k = "ann"›, ‹k' = "ann"›]
    · cases hr'
    · cases hr
    · cases hr

def demoCredentials : CredentialWorld :=
  ⟨⟨.empty, demoAccess, ⟨[], .nil⟩, fun _ => 0, [], fun _ => none⟩, fun _ => .idle⟩

/-- Request `0` forwards and is about to rewrite. -/
def forwardedRequest : List CredentialLabel :=
  [.gateway (.insertCode 0 "code") (.authorizing demoCode ⟨demoOwner, .write⟩),
    .gateway (.exchangeCode 0 "family" ⟨"access", "refresh"⟩ "code" "native"
      "http://localhost:8080/callback" "challenge" "https://hub.example/mcp") .idle,
    .step 0 (.forward demoOwner .write), .step 0 .readRole, .step 0 .findOwner,
    .step 0 (.readGrants 0), .step 0 (.rewrite fun _ => "t0"), .step 0 (.provision "t1"),
    .step 0 .respond, .step 0 .readRole, .step 0 .findOwner, .step 0 (.readGrants 0)]

/-- Request `1` makes `ann` a reader. -/
def loweredPolicy : List CredentialLabel :=
  [.step 1 (.replace "ann@gmail.com" (some ⟨.readonly, true, true⟩)), .step 1 .findEmail,
    .step 1 .readRole, .step 1 .findOwner, .step 1 (.readGrants 0), .step 1 (.rewrite fun _ => "t2")]

/-- Both requests come to their ends, with `ann` a reader. -/
def CredentialWorld.lowered (w : CredentialWorld) : Bool :=
  (w.task 0).isIdle && ((w.task 1).isIdle && (decide (demoOwner.owner.id ∈ w.state.touched) &&
    decide (w.state.access.roleForOwner demoOwner.owner.id = some .readonly)))

theorem lowered_reachable {good : CredentialWorld → CredentialLabel → Bool}
    {P : CredentialWorld → CredentialLabel → Prop} {w : CredentialWorld}
    {ls : List CredentialLabel} (hP : ∀ w l, good w l = true → P w l)
    (h : playCredentials demoConfig (fun _ => demoPolicy.resolve) good demoCredentials ls = some w)
    (htwo : ∀ p, p ≠ 0 → p ≠ 1 → ∀ e, .step p e ∉ ls) (hlowered : w.lowered = true) :
    ((credentialMachine demoConfig fun _ => demoPolicy.resolve).restrict P).Reachable w ∧
      w.Quiet ∧ demoOwner.owner.id ∈ w.state.touched ∧
      w.state.access.roleForOwner demoOwner.owner.id = some .readonly := by
  simp only [CredentialWorld.lowered, Bool.and_eq_true, decide_eq_true_eq] at hlowered
  obtain ⟨hzero, hone, htouched, hrole⟩ := hlowered
  obtain ⟨hrun, htask⟩ := run_playCredentials hP h
  refine ⟨⟨demoCredentials, ls, ⟨rfl, fun _ => rfl, rfl, fun _ => rfl, fun _ => rfl⟩, hrun⟩,
    fun p => ?_, htouched, hrole⟩
  by_cases hp0 : p = 0
  · exact CredentialTask.isIdle_iff.1 (hp0 ▸ hzero)
  · by_cases hp1 : p = 1
    · exact CredentialTask.isIdle_iff.1 (hp1 ▸ hone)
    · exact htask p (htwo p hp0 hp1)

/-- `ann` keeps a credential that reads, and no other. -/
theorem credentials_within_policy_sample : ∃ w : CredentialWorld, w.Quiet ∧
    w.state.access.roleForOwner demoOwner.owner.id = some .readonly ∧ w.state.tokens.entries ≠ [] ∧
      ∀ c ∈ w.state.tokens.entries, c.owner.id = demoOwner.owner.id →
        "delete" ∉ c.operations ∧ ∃ r current, c.operations = operationsFor r ∧
          w.state.access.roleForOwner demoOwner.owner.id = some current ∧
            r.rank ≤ current.rank := by
  have htest : ((playCredentials demoConfig (fun _ => demoPolicy.resolve) CredentialWorld.timely
      demoCredentials (forwardedRequest ++ .step 0 (.rewrite fun _ => "t3") :: loweredPolicy)).any
        fun w => w.lowered && decide (w.state.tokens.entries.length = 1)) = true := by
    decide +kernel
  obtain ⟨w, hw, hgood⟩ := (Option.any_eq_true _ _).1 htest
  obtain ⟨hlowered, hone⟩ := Bool.and_eq_true_iff.1 hgood
  obtain ⟨hreach, hquiet, htouched, hrole⟩ := lowered_reachable (fun _ _ => CredentialWorld.timely_of) hw
    (fun p hp0 hp1 e he => by simp [forwardedRequest, loweredPolicy, hp0, hp1] at he) hlowered
  refine ⟨w, hquiet, hrole, ?_,
    credentials_within_policy demoConfig (fun _ => demoPolicy.resolve) w hreach hquiet _ htouched⟩
  exact List.ne_nil_of_length_eq_add_one (of_decide_eq_true hone)

/-- A reader is left with a credential that writes, where the rewrite of request `0` is overtaken. -/
theorem credential_outlives : ∃ w,
    (credentialMachine demoConfig fun _ => demoPolicy.resolve).Reachable w ∧ w.Quiet ∧
      ∃ o ∈ w.state.touched, ∃ c ∈ w.state.tokens.entries, c.owner.id = o ∧
        c.operations = operationsFor .write ∧ w.state.access.roleForOwner o = some .readonly := by
  have htest : ((playCredentials demoConfig (fun _ => demoPolicy.resolve) (fun _ _ => true)
      demoCredentials (forwardedRequest ++ loweredPolicy ++ [.step 0 (.rewrite fun _ => "t3")])).any
        fun w => w.lowered && w.state.tokens.entries.any fun c =>
          decide (c.owner.id = demoOwner.owner.id ∧ c.operations = operationsFor .write)) = true := by
    decide +kernel
  obtain ⟨w, hw, hgood⟩ := (Option.any_eq_true _ _).1 htest
  obtain ⟨hlowered, hcredential⟩ := Bool.and_eq_true_iff.1 hgood
  obtain ⟨c, hc, hcgood⟩ := List.any_eq_true.1 hcredential
  obtain ⟨hid, hoperations⟩ := of_decide_eq_true hcgood
  obtain ⟨hreach, hquiet, htouched, hrole⟩ := @lowered_reachable _ (fun _ _ => True) _ _
    (fun _ _ _ => trivial) hw
    (fun p hp0 hp1 e he => by simp [forwardedRequest, loweredPolicy, hp0, hp1] at he) hlowered
  exact ⟨w, hreach.of_restrict, hquiet, _, htouched, c, hc, hid, hoperations, hrole⟩

end AgentPalace.Hub
