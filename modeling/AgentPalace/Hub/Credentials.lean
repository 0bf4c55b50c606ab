import AgentPalace.Hub.AccessPolicy

/-!
# Credentials of the private palace

The hub reaches the palace with credentials of its own, kept in a token file: for
every owner at most one for each role, told apart by its operations
(`TokenFile.distinct`), so that the error for duplicates never occurs.
`reconcileRoles` leaves an owner the roles that are wanted, `provision` adds one,
`revoke` removes all.

`Access` is what the policy and the bindings files hold once they are accepted.
-/

namespace AgentPalace.Hub

inductive DemoRole where
  | readonly | write | admin
  deriving DecidableEq

def DemoRole.rank : DemoRole → Nat
  | .readonly => 0
  | .write => 1
  | .admin => 2

def operationsFor : DemoRole → List String
  | .readonly => ["read", "coordination_read"]
  | .write => ["read", "write", "ingest", "coordination_read", "coordination_write",
      "coordination_claim"]
  | .admin => ["read", "write", "delete", "ingest", "coordination_read", "coordination_write",
      "coordination_claim"]

theorem operationsFor_injective {r r' : DemoRole} (h : operationsFor r = operationsFor r') :
    r = r' := by
  cases r <;> cases r' <;> first | rfl | (revert h; decide)

theorem delete_mem_operationsFor {r : DemoRole} :
    "delete" ∈ operationsFor r ↔ r = .admin := by
  cases r <;> decide

/-! ## The token file -/

/-- An entry of the file; the operations are those of its one scope. -/
structure Credential where
  token : String
  name : String
  operations : List String
  owner : AuthenticatedOwner
  deriving DecidableEq

def Credential.Apart (c c' : Credential) : Prop :=
  c.owner.id ≠ c'.owner.id ∨ c.operations ≠ c'.operations

structure TokenFile where
  entries : List Credential
  distinct : entries.Pairwise Credential.Apart

def ownerName (owner : OwnerId) : String := s!"demo-hub-owner-{owner.str}"

/-- The credential of an owner with some operations. -/
def Credential.isFor (owner : OwnerId) (operations : List String) (c : Credential) : Bool :=
  decide (c.owner.id = owner ∧ c.operations = operations)

namespace TokenFile

def filter (f : TokenFile) (p : Credential → Bool) : TokenFile :=
  ⟨f.entries.filter p, f.distinct.filter p⟩

/-- The entry of the owner's record that an entry of the same owner gets. -/
def refreshOwner (owner : AuthenticatedOwner) (operations : List String) (c : Credential) :
    Credential :=
  if c.isFor owner.id operations then { c with owner } else c

theorem refreshOwner_id (owner : AuthenticatedOwner) (operations : List String) (c : Credential) :
    (refreshOwner owner operations c).owner.id = c.owner.id ∧
      (refreshOwner owner operations c).operations = c.operations := by
  unfold refreshOwner
  split
  · rename_i h
    exact ⟨(of_decide_eq_true h).1.symm, rfl⟩
  · exact ⟨rfl, rfl⟩

/-- `provision`: the owner has a credential of the role, its secret as before. -/
def provision (f : TokenFile) (owner : AuthenticatedOwner) (secret : String) (role : DemoRole) :
    TokenFile :=
  if h : f.entries.any (Credential.isFor owner.id (operationsFor role)) = true then
    ⟨f.entries.map (refreshOwner owner (operationsFor role)), by
      refine List.pairwise_map.2 (f.distinct.imp fun {c c'} hapart => ?_)
      have hc := refreshOwner_id owner (operationsFor role) c
      have hc' := refreshOwner_id owner (operationsFor role) c'
      rw [Credential.Apart, hc.1, hc.2, hc'.1, hc'.2]
      exact hapart⟩
  else
    ⟨f.entries ++ [⟨secret, ownerName owner.id, operationsFor role, owner⟩], by
      refine List.pairwise_append.2 ⟨f.distinct, List.pairwise_singleton _ _, fun c hc c' hc' => ?_⟩
      rw [List.mem_singleton.1 hc', Credential.Apart, ← not_and_or]
      rintro ⟨hid, hoperations⟩
      exact h (List.any_eq_true.2 ⟨c, hc, decide_eq_true ⟨hid, hoperations⟩⟩)⟩

/-- An owner keeps the credentials of the wanted roles only. -/
def keepWanted (f : TokenFile) (owner : OwnerId) (roles : List DemoRole) : TokenFile :=
  f.filter fun c => !decide (c.owner.id = owner ∧ c.operations ∉ roles.map operationsFor)

def reconcileRoles (f : TokenFile) (owner : AuthenticatedOwner) (secrets : DemoRole → String)
    (roles : List DemoRole) : TokenFile :=
  roles.eraseDups.foldl (fun f role => f.provision owner (secrets role) role)
    (f.keepWanted owner.id roles)

def revoke (f : TokenFile) (owner : OwnerId) : TokenFile :=
  f.filter fun c => !decide (c.name = ownerName owner) && !decide (c.owner.id = owner)

/-! ### What is in the file afterwards -/

section
variable {f : TokenFile} {owner : AuthenticatedOwner} {role : DemoRole} {secret : String}
  {o : OwnerId} {operations : List String}

/-- The file has a credential of an owner with some operations. -/
def Has (f : TokenFile) (o : OwnerId) (operations : List String) : Prop :=
  ∃ c ∈ f.entries, c.owner.id = o ∧ c.operations = operations

theorem has_filter {p : Credential → Bool} (h : (f.filter p).Has o operations) :
    f.Has o operations := by
  obtain ⟨c, hc, hid, hoperations⟩ := h
  exact ⟨c, (List.mem_filter.1 hc).1, hid, hoperations⟩

theorem has_provision : (f.provision owner secret role).Has o operations ↔
    f.Has o operations ∨ o = owner.id ∧ operations = operationsFor role := by
  unfold provision
  split
  · rename_i hany
    obtain ⟨c, hc, hfor⟩ := List.any_eq_true.1 hany
    have hfor := of_decide_eq_true hfor
    constructor
    · rintro ⟨c', hc', hid, hoperations⟩
      obtain ⟨x, hx, rfl⟩ := List.mem_map.1 hc'
      have := refreshOwner_id owner (operationsFor role) x
      exact .inl ⟨x, hx, this.1.symm.trans hid, this.2.symm.trans hoperations⟩
    · have hmap : ∀ x ∈ f.entries, x.owner.id = o → x.operations = operations →
          ∃ c' ∈ f.entries.map (refreshOwner owner (operationsFor role)),
            c'.owner.id = o ∧ c'.operations = operations := by
        intro x hx hid hoperations
        have := refreshOwner_id owner (operationsFor role) x
        exact ⟨_, List.mem_map_of_mem hx, this.1.trans hid, this.2.trans hoperations⟩
      rintro (⟨x, hx, hid, hoperations⟩ | ⟨rfl, rfl⟩)
      · exact hmap x hx hid hoperations
      · exact hmap c hc hfor.1 hfor.2
  · constructor
    · rintro ⟨c, hc, hid, hoperations⟩
      rcases List.mem_append.1 hc with hc | hc
      · exact .inl ⟨c, hc, hid, hoperations⟩
      · rw [List.mem_singleton.1 hc] at hid hoperations
        exact .inr ⟨hid.symm, hoperations.symm⟩
    · rintro (⟨c, hc, hid, hoperations⟩ | ⟨rfl, rfl⟩)
      · exact ⟨c, List.mem_append_left _ hc, hid, hoperations⟩
      · exact ⟨_, List.mem_append_right _ (List.mem_singleton_self _), rfl, rfl⟩

theorem has_provisionAll {secrets : DemoRole → String} {roles : List DemoRole} :
    (roles.foldl (fun f role => f.provision owner (secrets role) role) f).Has o operations ↔
      f.Has o operations ∨ o = owner.id ∧ ∃ role ∈ roles, operations = operationsFor role := by
  induction roles generalizing f with
  | nil => simp
  | cons role roles ih =>
    rw [List.foldl_cons, ih, has_provision]
    constructor
    · rintro ((h | ⟨ho, hrole⟩) | ⟨ho, r, hr, hrole⟩)
      · exact .inl h
      · exact .inr ⟨ho, role, List.mem_cons_self, hrole⟩
      · exact .inr ⟨ho, r, List.mem_cons_of_mem _ hr, hrole⟩
    · rintro (h | ⟨ho, r, hr, hrole⟩)
      · exact .inl (.inl h)
      · rcases List.mem_cons.1 hr with rfl | hr
        · exact .inl (.inr ⟨ho, hrole⟩)
        · exact .inr ⟨ho, r, hr, hrole⟩

/-- **Reconciled**: an owner has exactly the credentials that are wanted, the others theirs. -/
theorem has_reconcileRoles {secrets : DemoRole → String} {roles : List DemoRole} :
    (f.reconcileRoles owner secrets roles).Has o operations ↔
      (o = owner.id ∧ ∃ role ∈ roles, operations = operationsFor role) ∨
        o ≠ owner.id ∧ f.Has o operations := by
  unfold reconcileRoles
  rw [has_provisionAll]
  simp only [List.mem_eraseDups]
  constructor
  · rintro (⟨c, hc, rfl, rfl⟩ | h)
    · obtain ⟨hc, hkeep⟩ := List.mem_filter.1 hc
      by_cases ho : c.owner.id = owner.id
      · have hwanted : c.operations ∈ roles.map operationsFor := by simpa [ho] using hkeep
        obtain ⟨role, hrole, heq⟩ := List.mem_map.1 hwanted
        exact .inl ⟨ho, role, hrole, heq.symm⟩
      · exact .inr ⟨ho, c, hc, rfl, rfl⟩
    · exact .inl h
  · rintro (h | ⟨ho, c, hc, rfl, rfl⟩)
    · exact .inr h
    · exact .inl ⟨c, List.mem_filter.2 ⟨hc, by simp [ho]⟩, rfl, rfl⟩

theorem has_revoke {owner : OwnerId} (h : (f.revoke owner).Has o operations) :
    o ≠ owner ∧ f.Has o operations := by
  refine ⟨?_, has_filter h⟩
  obtain ⟨c, hc, rfl, -⟩ := h
  have := (List.mem_filter.1 hc).2
  intro heq
  simp [heq] at this

end

end TokenFile

/-! ## Roles that are wanted -/

/-- The role of a credential for a ceiling; hard deletion is never granted by one. -/
def credentialRole (current ceiling : AccessRole) : DemoRole :=
  match if current.rank < ceiling.rank then current else ceiling with
  | .readonly => .readonly
  | .write | .admin => .write

namespace GatewayState

/-- The record of an owner, from a grant or a session that is stored. -/
def findOwner? (s : GatewayState) (owner : OwnerId) : Option AdmissionIdentity :=
  (s.access.values.map (·.owner) ++ s.refresh.values.map (·.owner) ++ s.codes.values.map (·.owner) ++
    s.devices.values.filterMap (·.owner) ++ s.sessions.values.map (·.owner)).find?
      fun x => decide (x.owner.id = owner)

theorem findOwner?_some {s : GatewayState} {owner : OwnerId} {x : AdmissionIdentity}
    (h : s.findOwner? owner = some x) : x.owner.id = owner := by
  simpa using List.find?_some h

/-- The ceilings of the grants of an owner that can be used. -/
def activeCeilings (s : GatewayState) (now : Nat) (owner : OwnerId) : List AccessRole :=
  ((s.access.values.filter fun g => g.owner.owner.id = owner ∧ g.revoked = false ∧
      now ≤ g.expires).map (·.roleCeiling)) ++
    ((s.refresh.values.filter fun g => g.owner.owner.id = owner ∧ g.revoked = false ∧
      now ≤ g.expires).map (·.roleCeiling)) ++
    ((s.codes.values.filter fun g => g.owner.owner.id = owner ∧ g.used = false ∧
      now ≤ g.expires).map (·.roleCeiling)) ++
    ((s.devices.values.filter fun g => (g.owner.any fun x => decide (x.owner.id = owner)) ∧
      g.denied = false ∧ now ≤ g.expires).filterMap (·.roleCeiling))

def activeTokenRoles (s : GatewayState) (now : Nat) (owner : OwnerId) (current : AccessRole)
    (deletes : Nat) : List DemoRole :=
  ((s.activeCeilings now owner).map (credentialRole current)).eraseDups ++
    if 0 < deletes then [.admin] else []

end GatewayState

/-! ## The access policy -/

structure Access where
  users : OrdMap String AccessEntry
  bindings : OrdMap String BindingRecord
  /-- No two subjects share an address or an owner. -/
  distinct : ∀ k r k' r', bindings.get? k = some r → bindings.get? k' = some r' →
    r.email = r'.email ∨ r.ownerId = r'.ownerId → k = k'

namespace Access

open Files (liveUser?)

def roleForOwner (a : Access) (owner : OwnerId) : Option AccessRole :=
  (a.bindings.values.find? fun record => decide (record.ownerId = owner)).bind fun record =>
    (liveUser? a.users record.email).map (·.role)

def ownerIdForEmail (a : Access) (email : String) : Option OwnerId :=
  (a.bindings.values.find? fun record => decide (record.email = email)).map (·.ownerId)

/-- What `replace` makes of the users when one of them is put or removed. -/
def change (a : Access) (email : String) (entry : Option AccessEntry) : Access :=
  { a with users := match entry with
    | some entry => a.users.insert email entry
    | none => a.users.erase email }

/-- The first admission of a subject, whose address and owner no other subject has. -/
def bind (a : Access) (key : String) (record : BindingRecord)
    (h : ∀ e ∈ a.bindings.entries, e.2.email ≠ record.email ∧ e.2.ownerId ≠ record.ownerId) :
    Access where
  users := a.users
  bindings := a.bindings.insert key record
  distinct k r k' r' hr hr' heq := by
    rw [OrdMap.get?_insert] at hr hr'
    split at hr <;> split at hr'
    · rw [‹k = key›, ‹k' = key›]
    · cases hr
      have := h (k', r') (OrdMap.mem_entries.2 hr')
      exact absurd heq (by rintro (heq | heq); exacts [this.1 heq.symm, this.2 heq.symm])
    · cases hr'
      have := h (k, r) (OrdMap.mem_entries.2 hr)
      exact absurd heq (by rintro (heq | heq); exacts [this.1 heq, this.2 heq])
    · exact a.distinct k r k' r' hr hr' heq

section
variable {a : Access} {k : String} {r : BindingRecord}

theorem roleForOwner_bound (h : a.bindings.get? k = some r) :
    a.roleForOwner r.ownerId = (liveUser? a.users r.email).map (·.role) := by
  unfold roleForOwner
  rw [OrdMap.find?_values h fun _ _ hr' he => a.distinct _ _ _ _ hr' h (.inr he)]
  rfl

theorem roleForOwner_some {owner : OwnerId} {role : AccessRole}
    (h : a.roleForOwner owner = some role) :
    ∃ k r, a.bindings.get? k = some r ∧ r.ownerId = owner := by
  obtain ⟨r, hfind, -⟩ := Option.bind_eq_some_iff.1 h
  obtain ⟨k, hk⟩ := OrdMap.mem_values.1 (List.mem_of_find?_eq_some hfind)
  exact ⟨k, r, hk, by simpa using List.find?_some hfind⟩

theorem ownerIdForEmail_bound (h : a.bindings.get? k = some r) :
    a.ownerIdForEmail r.email = some r.ownerId := by
  unfold ownerIdForEmail
  rw [OrdMap.find?_values h fun _ _ hr' he => a.distinct _ _ _ _ hr' h (.inl he)]
  rfl

theorem ownerIdForEmail_some {email : String} {owner : OwnerId}
    (h : a.ownerIdForEmail email = some owner) :
    ∃ k r, a.bindings.get? k = some r ∧ r.email = email ∧ r.ownerId = owner := by
  obtain ⟨r, hfind, rfl⟩ := Option.map_eq_some_iff.1 h
  obtain ⟨k, hk⟩ := OrdMap.mem_values.1 (List.mem_of_find?_eq_some hfind)
  exact ⟨k, r, hk, by simpa using List.find?_some hfind, rfl⟩

/-- A change of one address changes the role of its owner at most. -/
theorem roleForOwner_change {email : String} {entry : Option AccessEntry} {owner : OwnerId}
    (h : a.ownerIdForEmail email ≠ some owner) :
    (a.change email entry).roleForOwner owner = a.roleForOwner owner := by
  unfold roleForOwner
  show Option.bind (a.bindings.values.find? _) _ = _
  cases hfind : a.bindings.values.find? fun record => decide (record.ownerId = owner) with
  | none => rfl
  | some r =>
    obtain ⟨k, hk⟩ := OrdMap.mem_values.1 (List.mem_of_find?_eq_some hfind)
    have hid : r.ownerId = owner := by simpa using List.find?_some hfind
    have hne : r.email ≠ email := by
      rintro rfl
      exact h (hid ▸ ownerIdForEmail_bound hk)
    have hlive : liveUser? (a.change email entry).users r.email = liveUser? a.users r.email := by
      unfold liveUser? change
      cases entry with
      | none => simp only [OrdMap.get?_erase, if_neg hne]
      | some entry => simp only [OrdMap.get?_insert, if_neg hne]
    rw [Option.bind_some, Option.bind_some, hlive]

theorem get?_bind {key : String} {record : BindingRecord}
    {h : ∀ e ∈ a.bindings.entries, e.2.email ≠ record.email ∧ e.2.ownerId ≠ record.ownerId}
    (hkey : a.bindings.get? key = none) (hk : a.bindings.get? k = some r) :
    (a.bind key record h).bindings.get? k = some r := by
  have hne : k ≠ key := by
    rintro rfl
    rw [hkey] at hk
    cases hk
  show (a.bindings.insert key record).get? k = some r
  rw [OrdMap.get?_insert, if_neg hne, hk]

theorem roleForOwner_bind {key : String} {record : BindingRecord} {owner : OwnerId}
    {role : AccessRole}
    {h : ∀ e ∈ a.bindings.entries, e.2.email ≠ record.email ∧ e.2.ownerId ≠ record.ownerId}
    (hkey : a.bindings.get? key = none) (hrole : a.roleForOwner owner = some role) :
    (a.bind key record h).roleForOwner owner = some role := by
  obtain ⟨k, r, hk, rfl⟩ := roleForOwner_some hrole
  rw [roleForOwner_bound hk] at hrole
  rw [roleForOwner_bound (get?_bind hkey hk)]
  exact hrole

theorem ownerIdForEmail_bind {key email : String} {record : BindingRecord} {owner : OwnerId}
    {h : ∀ e ∈ a.bindings.entries, e.2.email ≠ record.email ∧ e.2.ownerId ≠ record.ownerId}
    (hkey : a.bindings.get? key = none) (howner : a.ownerIdForEmail email = some owner) :
    (a.bind key record h).ownerIdForEmail email = some owner := by
  obtain ⟨k, r, hk, rfl, rfl⟩ := ownerIdForEmail_some howner
  exact ownerIdForEmail_bound (get?_bind hkey hk)

end

end Access

end AgentPalace.Hub
