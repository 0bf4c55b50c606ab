import AgentPalace.Hub.Credentials
import Mathlib.Data.List.Pairwise

/-!
# The private token file

The calls that write the file: `provision`, `rotate`, `reconcileRoles` and
`revoke`. The file is a JSON array; operators keep entries of their own in it. What
the calls wrote carries its owner, and every call looks for the entries of one
owner and role (`matchesRole`, `entryOperations`).

In any run an owner has at most one entry for a role, a secret is given out until
it is rotated or removed, and what a call does not touch stays as it is
(`owners_isolated`). A call touches the entries of its owner; `revoke` also those
that have the owner's name and no owner.
-/

namespace AgentPalace.Hub.PrivateTokens

/-- `ForwardError`, of the calls on the file. -/
inductive TokenFileError where
  | invalidOwner
  | tokenFileLock
  | tokenFileIo
  | tokenFileJson
  | tokenFileMalformed
  | duplicateOwnerTokens
  deriving DecidableEq

structure ProvisionedToken where
  ownerId : String
  name : String
  token : String
  role : DemoRole
  deriving DecidableEq

/-! ## Entries -/

def asStr : Json → Option String
  | .str s => some s
  | _ => none

def asArray : Json → Option (List Json)
  | .arr items => some items
  | _ => none

def ownerJson (owner : AuthenticatedOwner) : Json :=
  .obj [("email_at_write", .str owner.emailAtWrite.str), ("id", .str owner.id.str),
    ("issuer", .str owner.issuer.str), ("subject", .str owner.subject.str)]

def principalName (ownerId : String) : String := "demo-hub-owner-" ++ ownerId

def entryOf (token : String) (owner : AuthenticatedOwner) (role : DemoRole) : Json :=
  .obj [("enabled", .bool true), ("name", .str (principalName owner.id.str)),
    ("owner", ownerJson owner),
    ("scopes", .arr [.obj [("operations", .arr ((operationsFor role).map .str)),
      ("wings", .arr [.str "*"])]]),
    ("token", .str token)]

def entryOwner (entry : Json) : Option String :=
  ((entry.get? "owner").bind (·.get? "id")).bind asStr

def entryName (entry : Json) : Option String := (entry.get? "name").bind asStr

def entryToken (entry : Json) : Option String := (entry.get? "token").bind asStr

def entryOperations (entry : Json) : Option (List String) := do
  let scopes ← (entry.get? "scopes").bind asArray
  match scopes with
  | [scope] => ((← (scope.get? "operations").bind asArray).mapM asStr)
  | _ => none

/-- The first scope has the operations of the role, other values than texts left out. -/
def sameRole (role : DemoRole) (entry : Json) : Bool :=
  (((((entry.get? "scopes").bind asArray).bind (·.head?)).bind (·.get? "operations")).bind
    asArray).any fun configured => configured.filterMap asStr == operationsFor role

def matchesRole (ownerId : String) (role : DemoRole) (entry : Json) : Bool :=
  entryOwner entry == some ownerId && sameRole role entry

def matchesOperations (ownerId : String) (role : DemoRole) (entry : Json) : Bool :=
  entryOwner entry == some ownerId && entryOperations entry == some (operationsFor role)

/-- `entry["owner"] = owner`. -/
def setOwner (owner : Json) : Json → Json
  | .obj fields => .obj (Json.insertField "owner" owner fields)
  | entry => entry

/-! ## The calls -/

/-- `provision_inner` on the entries: the secret, and what is written if anything is. -/
def provisionInner (identity : AdmissionIdentity) (role : DemoRole) (forceRotate : Bool)
    (secret : String) (entries : List Json) :
    Except TokenFileError (String × Option (List Json)) :=
  let ownerId := identity.owner.id.str
  let entry := entryOf secret identity.owner role
  if 1 < entries.countP (matchesRole ownerId role) then .error .duplicateOwnerTokens
  else
    match entries.findIdx? (matchesRole ownerId role) with
    | some index =>
      match entries[index]?.bind entryToken with
      | none => .error .tokenFileMalformed
      | some existing =>
        if forceRotate then .ok (secret, some (entries.eraseIdx index ++ [entry]))
        else if (entries[index]?.bind (·.get? "owner")).getD .null ≠ ownerJson identity.owner then
          .ok (existing, some (entries.modify index (setOwner (ownerJson identity.owner))))
        else .ok (existing, none)
    | none => .ok (secret, some (entries ++ [entry]))

def distinctRoles (roles : List DemoRole) : List DemoRole :=
  roles.foldl (fun seen role => if seen.contains role then seen else seen ++ [role]) []

/-- What `reconcile_roles` has done so far. -/
structure Reconciled where
  entries : List Json
  changed : Bool
  provisioned : List ProvisionedToken := []

def reconcileRole (identity : AdmissionIdentity) (secrets : DemoRole → String) (done : Reconciled)
    (role : DemoRole) : Except TokenFileError Reconciled :=
  let ownerId := identity.owner.id.str
  let name := principalName ownerId
  if 1 < done.entries.countP (matchesOperations ownerId role) then .error .duplicateOwnerTokens
  else
    match done.entries.findIdx? (matchesOperations ownerId role) with
    | some index =>
      match done.entries[index]?.bind entryToken with
      | none => .error .tokenFileMalformed
      | some token =>
        let provisioned := done.provisioned ++ [⟨ownerId, name, token, role⟩]
        if done.entries[index]?.bind (·.get? "owner") ≠ some (ownerJson identity.owner) then
          .ok { entries := done.entries.modify index (setOwner (ownerJson identity.owner))
                changed := true, provisioned }
        else .ok { done with provisioned }
    | none =>
      .ok {
        entries := done.entries ++ [entryOf (secrets role) identity.owner role]
        changed := true
        provisioned := done.provisioned ++ [⟨ownerId, name, secrets role, role⟩] }

/-- The owner's entries of other operations than those of the roles go. -/
def wanted (ownerId : String) (roles : List DemoRole) (entry : Json) : Bool :=
  !(entryOwner entry == some ownerId) ||
    (entryOperations entry).any fun operations => roles.any fun role =>
      operations == operationsFor role

/-- `reconcile_roles` on the entries. -/
def reconcileEntries (identity : AdmissionIdentity) (activeRoles : List DemoRole)
    (secrets : DemoRole → String) (fileExists : Bool) (entries : List Json) :
    Except TokenFileError (List ProvisionedToken × Option (List Json)) := do
  let roles := distinctRoles activeRoles
  let kept := entries.filter (wanted identity.owner.id.str roles)
  let done ← roles.foldlM (reconcileRole identity secrets)
    { entries := kept
      changed := entries.any fun entry => !wanted identity.owner.id.str roles entry }
  return (done.provisioned, if done.changed || !fileExists then some done.entries else none)

/-- `revoke` on the entries. -/
def revokeEntries (ownerId : String) (entries : List Json) : List Json :=
  entries.filter fun entry =>
    entryName entry != some (principalName ownerId) && entryOwner entry != some ownerId

inductive Operation where
  | provision (identity : AdmissionIdentity) (role : DemoRole) (secret : String)
  | rotate (identity : AdmissionIdentity) (role : DemoRole) (secret : String)
  | reconcileRoles (identity : AdmissionIdentity) (activeRoles : List DemoRole)
      (secrets : DemoRole → String)
  | revoke (ownerId : String)

/-- The secret that a call gives out, for the role. -/
def provisioned (identity : AdmissionIdentity) (role : DemoRole) (token : String) :
    ProvisionedToken :=
  ⟨identity.owner.id.str, principalName identity.owner.id.str, token, role⟩

def Operation.onEntries (fileExists : Bool) (entries : List Json) :
    Operation → Except TokenFileError (List ProvisionedToken × Option (List Json))
  | .provision identity role secret =>
    (fun out => ([provisioned identity role out.1], out.2)) <$>
      provisionInner identity role false secret entries
  | .rotate identity role secret =>
    (fun out => ([provisioned identity role out.1], out.2)) <$>
      provisionInner identity role true secret entries
  | .reconcileRoles identity activeRoles secrets =>
    reconcileEntries identity activeRoles secrets fileExists entries
  | .revoke ownerId => .ok ([], some (revokeEntries ownerId entries))

/-! ## The file -/

inductive TokenFile where
  | absent
  /-- The content is not a JSON array. -/
  | malformed
  | entries (entries : List Json)

def TokenFile.fileExists : TokenFile → Bool
  | .absent => false
  | _ => true

/-- How far a replacement gets: the file is renamed over the old one, and then the
directory is synced. -/
inductive Replacement where
  | done
  | notRenamed
  | notSynced
  deriving DecidableEq

/-- What of a call works: the locks and the directory, the reading, the replacement, the
unlocking. -/
structure Disk where
  mutex : Bool := true
  lock : Bool := true
  read : Bool := true
  replace : Replacement := .done
  unlock : Bool := true

structure Call where
  operation : Operation
  disk : Disk := {}

def readEntries (disk : Disk) : TokenFile → Except TokenFileError (List Json)
  | .absent => .ok []
  | .malformed => .error (if disk.read then .tokenFileJson else .tokenFileIo)
  | .entries entries => if disk.read then .ok entries else .error .tokenFileIo

/-- The owner of the call; `revoke` takes any text but a blank one. -/
def Operation.checkOwner : Operation → Except TokenFileError Unit
  | .revoke ownerId => if (trim ownerId).isEmpty then .error .invalidOwner else .ok ()
  | _ => .ok ()

/-- A call: what it returns, and the file afterwards. -/
def Call.run (call : Call) (file : TokenFile) :
    Except TokenFileError (List ProvisionedToken) × TokenFile :=
  match call.operation.checkOwner with
  | .error e => (.error e, file)
  | .ok () =>
    if !call.disk.mutex then (.error .tokenFileLock, file)
    else if !call.disk.lock then (.error .tokenFileIo, file)
    else
      match readEntries call.disk file with
      | .error e => (.error e, file)
      | .ok entries =>
        match call.operation.onEntries file.fileExists entries with
        | .error e => (.error e, file)
        | .ok (tokens, none) =>
          if call.disk.unlock then (.ok tokens, file) else (.error .tokenFileIo, file)
        | .ok (tokens, some entries) =>
          match call.disk.replace with
          | .notRenamed => (.error .tokenFileIo, file)
          | .notSynced => (.error .tokenFileIo, .entries entries)
          | .done =>
            if call.disk.unlock then (.ok tokens, .entries entries)
            else (.error .tokenFileIo, .entries entries)

def runCalls (calls : List Call) (file : TokenFile) : TokenFile :=
  calls.foldl (fun file call => (call.run file).2) file

/-! ## What the calls write -/

section
variable (token : String) (owner : AuthenticatedOwner) (role : DemoRole)

@[simp] theorem entryOwner_entryOf :
    entryOwner (entryOf token owner role) = some owner.id.str := rfl

@[simp] theorem entryName_entryOf :
    entryName (entryOf token owner role) = some (principalName owner.id.str) := rfl

@[simp] theorem entryToken_entryOf : entryToken (entryOf token owner role) = some token := rfl

theorem mapM_asStr (names : List String) : (names.map Json.str).mapM asStr = some names := by
  induction names with
  | nil => rfl
  | cons name names ih =>
    rw [List.map_cons, List.mapM_cons, ih]
    rfl

@[simp] theorem entryOperations_entryOf :
    entryOperations (entryOf token owner role) = some (operationsFor role) :=
  mapM_asStr (operationsFor role)

theorem filterMap_asStr (names : List String) : (names.map Json.str).filterMap asStr = names := by
  rw [List.filterMap_map]
  exact List.filterMap_some

/-- The two ways to look for an entry of a role agree on what was written. -/
theorem sameRole_entryOf (r : DemoRole) :
    sameRole r (entryOf token owner role) = (operationsFor role == operationsFor r) := by
  show (((operationsFor role).map Json.str).filterMap asStr == operationsFor r) = _
  rw [filterMap_asStr]

theorem setOwner_entryOf {owner' : AuthenticatedOwner} (h : owner'.id.str = owner.id.str) :
    setOwner (ownerJson owner') (entryOf token owner role) = entryOf token owner' role := by
  unfold entryOf
  rw [h]
  rfl

end

/-- An entry of a secret for an owner and a role. -/
def Holds (entries : List Json) (id : String) (role : DemoRole) (token : String) : Prop :=
  ∃ owner : AuthenticatedOwner, owner.id.str = id ∧ entryOf token owner role ∈ entries

def Apart (e e' : Json) : Prop :=
  ∀ id role, ¬(matchesOperations id role e = true ∧ matchesOperations id role e' = true)

instance : Std.Symm Apart where
  symm _ _ hapart id role hboth := hapart id role hboth.symm

/-- The entries that have an owner were written by the calls, and no owner has two for one
role. -/
structure Provisioned (entries : List Json) : Prop where
  written : ∀ e ∈ entries, ∀ id, entryOwner e = some id →
    ∃ (token : String) (owner : AuthenticatedOwner) (role : DemoRole), owner.id.str = id ∧
      e = entryOf token owner role
  apart : entries.Pairwise Apart

theorem matchesOperations_entryOf {token : String} {owner : AuthenticatedOwner}
    {role role' : DemoRole} {id : String} :
    matchesOperations id role' (entryOf token owner role) = true ↔
      owner.id.str = id ∧ role = role' := by
  simp only [matchesOperations, entryOwner_entryOf, entryOperations_entryOf, Bool.and_eq_true,
    beq_iff_eq, Option.some.injEq]
  exact and_congr_right fun _ => ⟨operationsFor_injective, fun h => h ▸ rfl⟩

section
variable {entries : List Json} {id : String} {role : DemoRole} {token : String} {e e' : Json}

theorem entryOwner_of_matches (h : matchesOperations id role e = true) :
    entryOwner e = some id := by
  simpa using (Bool.and_eq_true_iff.1 h).1

namespace Provisioned

/-- What matches was written for the owner and the role. -/
theorem of_matches (h : Provisioned entries) (he : e ∈ entries)
    (hmatch : matchesOperations id role e = true) :
    ∃ (token : String) (owner : AuthenticatedOwner), owner.id.str = id ∧
      e = entryOf token owner role := by
  obtain ⟨token, owner, role', hid, rfl⟩ := h.written e he id (entryOwner_of_matches hmatch)
  obtain rfl := (matchesOperations_entryOf.1 hmatch).2
  exact ⟨token, owner, hid, rfl⟩

theorem matchesRole_eq (h : Provisioned entries) (he : e ∈ entries) (id : String)
    (role : DemoRole) : matchesRole id role e = matchesOperations id role e := by
  unfold matchesRole matchesOperations
  by_cases howner : entryOwner e = some id
  · obtain ⟨token, owner, role', _, rfl⟩ := h.written e he id howner
    rw [sameRole_entryOf, entryOperations_entryOf]
    rfl
  · have hfalse : (entryOwner e == some id) = false := by simpa using howner
    rw [hfalse]
    rfl

theorem eq_of_matches (h : Provisioned entries) (he : e ∈ entries) (he' : e' ∈ entries)
    (hmatch : matchesOperations id role e = true) (hmatch' : matchesOperations id role e' = true) :
    e = e' := by
  by_contra hne
  exact h.apart.forall he he' hne id role ⟨hmatch, hmatch'⟩

theorem countP_le_one (h : Provisioned entries) (id : String) (role : DemoRole) :
    entries.countP (matchesOperations id role) ≤ 1 := by
  have hapart := h.apart
  clear h
  induction entries with
  | nil => exact Nat.zero_le 1
  | cons e entries ih =>
    obtain ⟨hrest, hapart⟩ := List.pairwise_cons.1 hapart
    rw [List.countP_cons]
    split
    · rename_i hmatch
      have hzero : entries.countP (matchesOperations id role) = 0 :=
        List.countP_eq_zero.2 fun e' he' hmatch' => hrest e' he' id role ⟨hmatch, hmatch'⟩
      omega
    · exact ih hapart

theorem sublist {entries' : List Json} (h : Provisioned entries)
    (hsub : entries'.Sublist entries) : Provisioned entries' :=
  ⟨fun e he => h.written e (hsub.subset he), h.apart.sublist hsub⟩

end Provisioned

/-! ## What a call changes -/

/-- The entries are provisioned; only what the call touches differs from before, and an
owner keeps its secret for a role unless the call resets it. -/
structure Changes (touches : Json → Prop) (resets : String → DemoRole → Prop)
    (entries entries' : List Json) : Prop where
  provisioned : Provisioned entries'
  untouched : ∀ q : Json → Bool, (∀ e, touches e → q e = false) →
    entries'.filter q = entries.filter q
  holds : ∀ id role token, ¬resets id role → Holds entries id role token →
    Holds entries' id role token

namespace Changes
variable {touches touches' : Json → Prop} {resets resets' : String → DemoRole → Prop}
  {entries' entries'' : List Json}

theorem refl (h : Provisioned entries) : Changes touches resets entries entries :=
  ⟨h, fun _ _ => rfl, fun _ _ _ _ => id⟩

theorem trans (h : Changes touches resets entries entries')
    (h' : Changes touches resets entries' entries'') : Changes touches resets entries entries'' :=
  ⟨h'.provisioned, fun q hq => (h'.untouched q hq).trans (h.untouched q hq),
    fun id role token hkept hholds =>
      h'.holds id role token hkept (h.holds id role token hkept hholds)⟩

theorem mono (h : Changes touches resets entries entries') (htouches : ∀ e, touches e → touches' e)
    (hresets : ∀ id role, resets id role → resets' id role) :
    Changes touches' resets' entries entries' :=
  ⟨h.provisioned, fun q hq => h.untouched q fun e he => hq e (htouches e he),
    fun id role token hkept => h.holds id role token fun hreset => hkept (hresets id role hreset)⟩

end Changes

/-- Entries of the owner are added or get another owner record. -/
abbrev Extends (ownerId : String) (entries entries' : List Json) : Prop :=
  Changes (fun e => entryOwner e = some ownerId) (fun _ _ => False) entries entries'

theorem extends_append {owner : AuthenticatedOwner} (h : Provisioned entries)
    (hnone : ∀ e ∈ entries, matchesOperations owner.id.str role e = false) (token : String) :
    Extends owner.id.str entries (entries ++ [entryOf token owner role]) where
  provisioned := by
    refine ⟨fun e he id hid => ?_, ?_⟩
    · rcases List.mem_append.1 he with he | he
      · exact h.written e he id hid
      · obtain rfl := List.mem_singleton.1 he
        exact ⟨token, owner, role, Option.some.inj hid, rfl⟩
    · refine List.pairwise_append.2 ⟨h.apart, List.pairwise_singleton _ _, fun e he e' he' => ?_⟩
      obtain rfl := List.mem_singleton.1 he'
      rintro id role' ⟨hmatch, hmatch'⟩
      obtain ⟨rfl, rfl⟩ := matchesOperations_entryOf.1 hmatch'
      rw [hnone e he] at hmatch
      cases hmatch
  untouched q hq := by
    have hnew : q (entryOf token owner role) = false := hq _ rfl
    rw [List.filter_append, List.filter_cons_of_neg (by simp [hnew]), List.filter_nil,
      List.append_nil]
  holds id role' token' _ := by
    rintro ⟨owner', hid, hmem⟩
    exact ⟨owner', hid, List.mem_append_left _ hmem⟩

theorem extends_refresh {owner owner' : AuthenticatedOwner} {before behind : List Json}
    (h : Provisioned (before ++ entryOf token owner' role :: behind))
    (hid : owner'.id.str = owner.id.str) :
    Extends owner.id.str (before ++ entryOf token owner' role :: behind)
      (before ++ entryOf token owner role :: behind) where
  provisioned := by
    have hkeys : ∀ {e : Json}, Apart (entryOf token owner' role) e →
        Apart (entryOf token owner role) e := by
      intro e hapart id role'
      have hboth := hapart id role'
      rw [matchesOperations_entryOf, hid] at hboth
      rwa [matchesOperations_entryOf]
    refine ⟨fun e he id hidE => ?_, ?_⟩
    · rcases List.mem_append.1 he with he | he
      · exact h.written e (List.mem_append_left _ he) id hidE
      · rcases List.mem_cons.1 he with rfl | he
        · exact ⟨token, owner, role, Option.some.inj hidE, rfl⟩
        · exact h.written e (List.mem_append_right _ (List.mem_cons_of_mem _ he)) id hidE
    · obtain ⟨hbefore, hrest, hcross⟩ := List.pairwise_append.1 h.apart
      obtain ⟨hhead, hbehind⟩ := List.pairwise_cons.1 hrest
      refine List.pairwise_append.2 ⟨hbefore, List.pairwise_cons.2
        ⟨fun e he => hkeys (hhead e he), hbehind⟩, fun e he e' he' => ?_⟩
      rcases List.mem_cons.1 he' with rfl | he'
      · exact symm (hkeys (symm (hcross e he _ List.mem_cons_self)))
      · exact hcross e he e' (List.mem_cons_of_mem _ he')
  untouched q hq := by
    have hold : q (entryOf token owner' role) = false :=
      hq _ (congrArg some hid)
    have hnew : q (entryOf token owner role) = false := hq _ rfl
    have hdropped : ∀ {e : Json}, q e = false → (e :: behind).filter q = behind.filter q :=
      fun hfalse => List.filter_cons_of_neg (by rw [hfalse]; exact Bool.false_ne_true)
    rw [List.filter_append, List.filter_append, hdropped hold, hdropped hnew]
  holds id role' token' _ := by
    rintro ⟨o, ho, hmem⟩
    rcases List.mem_append.1 hmem with hmem | hmem
    · exact ⟨o, ho, List.mem_append_left _ hmem⟩
    · rcases List.mem_cons.1 hmem with heq | hmem
      · -- the entry that is refreshed keeps its secret
        obtain rfl : token' = token := Option.some.inj (congrArg entryToken heq)
        have hoperations := congrArg entryOperations heq
        rw [entryOperations_entryOf, entryOperations_entryOf, Option.some.injEq] at hoperations
        obtain rfl := operationsFor_injective hoperations
        have howner : o.id.str = owner'.id.str := Option.some.inj (congrArg entryOwner heq)
        refine ⟨owner, ?_, List.mem_append_right _ List.mem_cons_self⟩
        rw [← hid, ← howner, ho]
      · exact ⟨o, ho, List.mem_append_right _ (List.mem_cons_of_mem _ hmem)⟩

theorem findIdx?_split {α : Type} {p : α → Bool} {l : List α} {index : Nat}
    (h : l.findIdx? p = some index) :
    ∃ before x behind, l = before ++ x :: behind ∧ before.length = index ∧ p x = true := by
  obtain ⟨hlt, hx, _⟩ := List.findIdx?_eq_some_iff_getElem.1 h
  refine ⟨l.take index, l[index], l.drop (index + 1), ?_, by simp; omega, hx⟩
  rw [← List.drop_eq_getElem_cons hlt, List.take_append_drop]

theorem modify_split {α : Type} (before behind : List α) (x : α) (f : α → α) :
    (before ++ x :: behind).modify before.length f = before ++ f x :: behind := by
  induction before with
  | nil => rfl
  | cons y before ih => exact congrArg (y :: ·) ih

theorem eraseIdx_split {α : Type} (before behind : List α) (x : α) :
    (before ++ x :: behind).eraseIdx before.length = before ++ behind := by
  induction before with
  | nil => rfl
  | cons y before ih => exact congrArg (y :: ·) ih

theorem getElem?_split {α : Type} (before behind : List α) (x : α) :
    (before ++ x :: behind)[before.length]? = some x := by simp

/-! ## Looking for an entry -/

/-- A search that finds the entries of an owner and a role. -/
def Finds (p : Json → Bool) (id : String) (role : DemoRole) (entries : List Json) : Prop :=
  ∀ e ∈ entries, p e = matchesOperations id role e

theorem Provisioned.finds_role (h : Provisioned entries) (id : String) (role : DemoRole) :
    Finds (matchesRole id role) id role entries := fun _ he => h.matchesRole_eq he id role

theorem Provisioned.one (h : Provisioned entries) {p : Json → Bool} (hp : Finds p id role entries) :
    ¬1 < entries.countP p := by
  have hcount : entries.countP p = entries.countP (matchesOperations id role) :=
    List.countP_congr fun e he => by rw [hp e he]
  have hle := h.countP_le_one id role
  omega

theorem Provisioned.found (h : Provisioned entries) {p : Json → Bool}
    (hp : Finds p id role entries) {index : Nat} (hfind : entries.findIdx? p = some index) :
    ∃ before behind token owner, entries = before ++ entryOf token owner role :: behind ∧
      before.length = index ∧ owner.id.str = id := by
  obtain ⟨before, x, behind, rfl, hlength, hx⟩ := findIdx?_split hfind
  have hmem : x ∈ before ++ x :: behind := List.mem_append_right _ List.mem_cons_self
  rw [hp x hmem] at hx
  obtain ⟨token, owner, hid, rfl⟩ := h.of_matches hmem hx
  exact ⟨before, behind, token, owner, rfl, hlength, hid⟩

theorem not_found {p : Json → Bool} (hp : Finds p id role entries)
    (hfind : entries.findIdx? p = none) : ∀ e ∈ entries, matchesOperations id role e = false :=
  fun e he => (hp e he).symm.trans (List.findIdx?_eq_none_iff.1 hfind e he)

theorem Provisioned.holds_unique (h : Provisioned entries) (token' : String)
    (hholds : Holds entries id role token) (hholds' : Holds entries id role token') :
    token = token' := by
  obtain ⟨owner, hid, hmem⟩ := hholds
  obtain ⟨owner', hid', hmem'⟩ := hholds'
  have heq := h.eq_of_matches hmem hmem' (matchesOperations_entryOf.2 ⟨hid, rfl⟩)
    (matchesOperations_entryOf.2 ⟨hid', rfl⟩)
  exact Option.some.inj (congrArg entryToken heq)

theorem not_holds (hnone : ∀ e ∈ entries, matchesOperations id role e = false) :
    ¬Holds entries id role token := by
  rintro ⟨owner, hid, hmem⟩
  have htrue : matchesOperations id role (entryOf token owner role) = true :=
    matchesOperations_entryOf.2 ⟨hid, rfl⟩
  rw [hnone _ hmem] at htrue
  cases htrue

/-! ## Each call -/

theorem provision_ok (h : Provisioned entries) (identity : AdmissionIdentity) (role : DemoRole)
    (secret : String) : ∃ token written,
      provisionInner identity role false secret entries = .ok (token, written) ∧
      Extends identity.owner.id.str entries (written.getD entries) ∧
      Holds (written.getD entries) identity.owner.id.str role token ∧
      ∀ t, Holds entries identity.owner.id.str role t → token = t := by
  have hfinds := h.finds_role identity.owner.id.str role
  unfold provisionInner
  dsimp only
  rw [if_neg (h.one hfinds)]
  cases hfind : entries.findIdx? (matchesRole identity.owner.id.str role) with
  | none =>
    have hnone := not_found hfinds hfind
    refine ⟨secret, _, rfl, extends_append h hnone secret, ⟨identity.owner, rfl, ?_⟩,
      fun t ht => absurd ht (not_holds hnone)⟩
    exact List.mem_append_right _ List.mem_cons_self
  | some index =>
    obtain ⟨before, behind, token, owner, rfl, rfl, hid⟩ := h.found hfinds hfind
    have hholds : Holds (before ++ entryOf token owner role :: behind)
        identity.owner.id.str role token :=
      ⟨owner, hid, List.mem_append_right _ List.mem_cons_self⟩
    have hone := fun t ht => h.holds_unique t hholds ht
    dsimp only
    rw [getElem?_split, modify_split, setOwner_entryOf token owner role hid.symm]
    dsimp only [Option.bind_some, entryToken_entryOf]
    rw [if_neg Bool.false_ne_true]
    split
    · exact ⟨token, _, rfl, extends_refresh h hid, ⟨identity.owner, rfl,
        List.mem_append_right _ List.mem_cons_self⟩, hone⟩
    · exact ⟨token, none, rfl, .refl h, hholds, hone⟩

theorem Provisioned.no_other {owner : AuthenticatedOwner} {before behind : List Json}
    (h : Provisioned (before ++ entryOf token owner role :: behind)) :
    ∀ e ∈ before ++ behind, matchesOperations owner.id.str role e = false := by
  have hself : matchesOperations owner.id.str role (entryOf token owner role) = true :=
    matchesOperations_entryOf.2 ⟨rfl, rfl⟩
  obtain ⟨_, hrest, hcross⟩ := List.pairwise_append.1 h.apart
  intro e he
  by_contra hmatch
  rw [Bool.not_eq_false] at hmatch
  rcases List.mem_append.1 he with he | he
  · exact hcross e he _ List.mem_cons_self owner.id.str role ⟨hmatch, hself⟩
  · exact (List.pairwise_cons.1 hrest).1 e he owner.id.str role ⟨hself, hmatch⟩

theorem changes_erase {owner : AuthenticatedOwner} {before behind : List Json}
    (h : Provisioned (before ++ entryOf token owner role :: behind)) :
    Changes (fun e => entryOwner e = some owner.id.str)
      (fun id role' => id = owner.id.str ∧ role' = role)
      (before ++ entryOf token owner role :: behind) (before ++ behind) where
  provisioned := h.sublist (List.Sublist.append_left (List.sublist_cons_self _ _) _)
  untouched q hq := by
    have hgone : q (entryOf token owner role) = false := hq _ rfl
    rw [List.filter_append, List.filter_append, List.filter_cons_of_neg (by simp [hgone])]
  holds id role' token' hkept := by
    rintro ⟨o, rfl, hmem⟩
    rcases List.mem_append.1 hmem with hmem | hmem
    · exact ⟨o, rfl, List.mem_append_left _ hmem⟩
    · rcases List.mem_cons.1 hmem with heq | hmem
      · have hmatch : matchesOperations o.id.str role' (entryOf token' o role') = true :=
          matchesOperations_entryOf.2 ⟨rfl, rfl⟩
        rw [heq] at hmatch
        obtain ⟨hid, hrole⟩ := matchesOperations_entryOf.1 hmatch
        exact absurd ⟨hid.symm, hrole.symm⟩ hkept
      · exact ⟨o, rfl, List.mem_append_right _ hmem⟩

theorem rotate_ok (h : Provisioned entries) (identity : AdmissionIdentity) (role : DemoRole)
    (secret : String) : ∃ token written,
      provisionInner identity role true secret entries = .ok (token, written) ∧
      Changes (fun e => entryOwner e = some identity.owner.id.str)
        (fun id role' => id = identity.owner.id.str ∧ role' = role)
        entries (written.getD entries) := by
  have hfinds := h.finds_role identity.owner.id.str role
  unfold provisionInner
  dsimp only
  rw [if_neg (h.one hfinds)]
  cases hfind : entries.findIdx? (matchesRole identity.owner.id.str role) with
  | none =>
    have hnone := not_found hfinds hfind
    exact ⟨secret, _, rfl, (extends_append h hnone secret).mono (fun _ => id) fun _ _ => False.elim⟩
  | some index =>
    obtain ⟨before, behind, token, owner, rfl, rfl, hid⟩ := h.found hfinds hfind
    dsimp only
    rw [getElem?_split, eraseIdx_split]
    dsimp only [Option.bind_some, entryToken_entryOf]
    rw [if_pos rfl]
    have herase := changes_erase h
    have hnone := h.no_other
    rw [hid] at herase hnone
    exact ⟨secret, _, rfl, herase.trans ((extends_append herase.provisioned hnone secret).mono
      (fun _ => id) fun _ _ => False.elim)⟩

theorem Provisioned.finds_operations (id : String) (role : DemoRole) (entries : List Json) :
    Finds (matchesOperations id role) id role entries := fun _ _ => rfl

theorem reconcileRole_ok (identity : AdmissionIdentity) (secrets : DemoRole → String)
    (done : Reconciled) (h : Provisioned done.entries) (role : DemoRole) :
    ∃ done', reconcileRole identity secrets done role = .ok done' ∧
      Extends identity.owner.id.str done.entries done'.entries := by
  have hfinds := Provisioned.finds_operations identity.owner.id.str role done.entries
  unfold reconcileRole
  dsimp only
  rw [if_neg (h.one hfinds)]
  cases hfind : done.entries.findIdx? (matchesOperations identity.owner.id.str role) with
  | none => exact ⟨_, rfl, extends_append h (not_found hfinds hfind) (secrets role)⟩
  | some index =>
    obtain ⟨before, behind, token, owner, hentries, rfl, hid⟩ := h.found hfinds hfind
    rw [hentries] at h ⊢
    dsimp only
    rw [getElem?_split, modify_split, setOwner_entryOf token owner role hid.symm]
    dsimp only [Option.bind_some, entryToken_entryOf]
    split
    · exact ⟨_, rfl, extends_refresh h hid⟩
    · exact ⟨_, rfl, .refl h⟩

theorem reconcileRoles_ok (identity : AdmissionIdentity) (secrets : DemoRole → String)
    (roles : List DemoRole) (done : Reconciled) (h : Provisioned done.entries) :
    ∃ done', roles.foldlM (reconcileRole identity secrets) done = .ok done' ∧
      Extends identity.owner.id.str done.entries done'.entries := by
  induction roles generalizing done with
  | nil => exact ⟨done, rfl, .refl h⟩
  | cons role roles ih =>
    obtain ⟨next, hnext, hextends⟩ := reconcileRole_ok identity secrets done h role
    obtain ⟨done', hdone, hrest⟩ := ih next hextends.provisioned
    refine ⟨done', ?_, hextends.trans hrest⟩
    rw [List.foldlM_cons, hnext]
    exact hdone

theorem mem_distinctRoles {roles : List DemoRole} : role ∈ distinctRoles roles ↔ role ∈ roles := by
  have hfold : ∀ seen : List DemoRole,
      role ∈ roles.foldl (fun seen r => if seen.contains r then seen else seen ++ [r]) seen ↔
        role ∈ seen ∨ role ∈ roles := by
    induction roles with
    | nil => simp
    | cons r roles ih =>
      intro seen
      rw [List.foldl_cons, ih]
      split
      · rename_i hseen
        have hmem : r ∈ seen := List.contains_iff_mem.1 hseen
        constructor
        · rintro (h | h)
          · exact .inl h
          · exact .inr (List.mem_cons_of_mem _ h)
        · rintro (h | h)
          · exact .inl h
          · rcases List.mem_cons.1 h with rfl | h
            · exact .inl hmem
            · exact .inr h
      · simp [or_assoc]
  rw [distinctRoles, hfold]
  simp

theorem changes_wanted (h : Provisioned entries) (id : String) (roles : List DemoRole) :
    Changes (fun e => entryOwner e = some id) (fun id' role => id' = id ∧ role ∉ roles)
      entries (entries.filter (wanted id (distinctRoles roles))) where
  provisioned := h.sublist List.filter_sublist
  untouched q hq := by
    rw [List.filter_filter]
    refine List.filter_congr fun e _ => ?_
    by_cases howner : entryOwner e = some id
    · rw [hq e howner]
      rfl
    · simp [wanted, howner]
  holds id' role token hkept := by
    rintro ⟨owner, rfl, hmem⟩
    refine ⟨owner, rfl, List.mem_filter.2 ⟨hmem, ?_⟩⟩
    by_cases howner : owner.id.str = id
    · have hrole : role ∈ distinctRoles roles :=
        mem_distinctRoles.2 (by_contra fun hnot => hkept ⟨howner, hnot⟩)
      simp only [wanted, entryOperations_entryOf, Option.any_some, Bool.or_eq_true,
        List.any_eq_true]
      exact .inr ⟨role, hrole, beq_self_eq_true _⟩
    · simp [wanted, howner]

theorem reconcile_ok (h : Provisioned entries) (identity : AdmissionIdentity)
    (activeRoles : List DemoRole) (secrets : DemoRole → String) (fileExists : Bool) :
    ∃ tokens written,
      reconcileEntries identity activeRoles secrets fileExists entries = .ok (tokens, written) ∧
      Changes (fun e => entryOwner e = some identity.owner.id.str)
        (fun id role => id = identity.owner.id.str ∧ role ∉ activeRoles)
        entries (written.getD entries) := by
  have hwanted := changes_wanted h identity.owner.id.str activeRoles
  obtain ⟨done, hdone, hextends⟩ := reconcileRoles_ok identity secrets (distinctRoles activeRoles)
    { entries := entries.filter (wanted identity.owner.id.str (distinctRoles activeRoles))
      changed := entries.any fun entry =>
        !wanted identity.owner.id.str (distinctRoles activeRoles) entry } hwanted.provisioned
  refine ⟨done.provisioned, if done.changed || !fileExists then some done.entries else none, ?_, ?_⟩
  · unfold reconcileEntries
    dsimp only
    rw [hdone]
    rfl
  · split
    · exact hwanted.trans (hextends.mono (fun _ => id) fun _ _ => False.elim)
    · exact .refl h

theorem principalName_injective {id id' : String} (h : principalName id = principalName id') :
    id = id' := (String.append_right_inj _).1 h

theorem revoke_changes (h : Provisioned entries) (id : String) :
    Changes
      (fun e => entryOwner e = some id ∨
        entryOwner e = none ∧ entryName e = some (principalName id))
      (fun id' _ => id' = id) entries (revokeEntries id entries) where
  provisioned := h.sublist List.filter_sublist
  untouched q hq := by
    unfold revokeEntries
    rw [List.filter_filter]
    refine List.filter_congr fun e he => ?_
    cases howner : entryOwner e with
    | none =>
      by_cases hname : entryName e = some (principalName id)
      · rw [hq e (.inr ⟨howner, hname⟩)]
        rfl
      · simp [hname]
    | some id' =>
      by_cases hid : id' = id
      · rw [hq e (.inl (howner.trans (congrArg some hid)))]
        rfl
      · -- an entry of another owner has another name
        obtain ⟨token, owner, role, rfl, rfl⟩ := h.written e he id' howner
        have hname : principalName owner.id.str ≠ principalName id :=
          fun hname => hid (principalName_injective hname)
        simp [hname, hid]
  holds id' role token hkept := by
    rintro ⟨owner, rfl, hmem⟩
    have hname : principalName owner.id.str ≠ principalName id :=
      fun hname => hkept (principalName_injective hname)
    exact ⟨owner, rfl, List.mem_filter.2 ⟨hmem, by simp [hname, hkept]⟩⟩

end

/-! ## Calls one after the other -/

/-- What an operation adds, changes or removes is of its owner; `revoke` also removes what
has the owner's name and no owner. -/
def Operation.Touches : Operation → Json → Prop
  | .provision identity _ _, e | .rotate identity _ _, e | .reconcileRoles identity _ _, e =>
    entryOwner e = some identity.owner.id.str
  | .revoke ownerId, e =>
    entryOwner e = some ownerId ∨ entryOwner e = none ∧ entryName e = some (principalName ownerId)

/-- The owner's secret for the role is rotated, revoked or reconciled without the role. -/
def Operation.Resets : Operation → String → DemoRole → Prop
  | .provision _ _ _, _, _ => False
  | .rotate identity role' _, id, role => id = identity.owner.id.str ∧ role = role'
  | .reconcileRoles identity activeRoles _, id, role =>
    id = identity.owner.id.str ∧ role ∉ activeRoles
  | .revoke ownerId, id, _ => id = ownerId

def TokenFile.contents : TokenFile → List Json
  | .entries content => content
  | _ => []

section
variable {entries : List Json} {file : TokenFile}

theorem onEntries_ok (h : Provisioned entries) (operation : Operation) (fileExists : Bool) :
    ∃ tokens written, operation.onEntries fileExists entries = .ok (tokens, written) ∧
      Changes operation.Touches operation.Resets entries (written.getD entries) := by
  cases operation with
  | provision identity role secret =>
    obtain ⟨token, written, hrun, hchanges, _⟩ := provision_ok h identity role secret
    refine ⟨[provisioned identity role token], written, ?_,
      hchanges.mono (fun _ => id) fun _ _ => id⟩
    rw [Operation.onEntries, hrun]
    rfl
  | rotate identity role secret =>
    obtain ⟨token, written, hrun, hchanges⟩ := rotate_ok h identity role secret
    refine ⟨[provisioned identity role token], written, ?_,
      hchanges.mono (fun _ => id) fun _ _ => id⟩
    rw [Operation.onEntries, hrun]
    rfl
  | reconcileRoles identity activeRoles secrets =>
    exact reconcile_ok h identity activeRoles secrets fileExists
  | revoke ownerId => exact ⟨_, _, rfl, revoke_changes h ownerId⟩

/-- What a call reads is the content of the file. -/
theorem readEntries_contents {disk : Disk} (h : readEntries disk file = .ok entries) :
    entries = file.contents := by
  cases file with
  | absent => exact (Except.ok.inj h).symm
  | malformed => cases h
  | entries content =>
    simp only [readEntries] at h
    split at h
    · exact (Except.ok.inj h).symm
    · cases h

theorem readEntries_error {disk : Disk} {e : TokenFileError}
    (h : readEntries disk file = .error e) : e ≠ .duplicateOwnerTokens := by
  cases file with
  | absent => cases h
  | malformed =>
    obtain rfl := Except.error.inj h
    split <;> decide
  | entries content =>
    simp only [readEntries] at h
    split at h
    · cases h
    · obtain rfl := Except.error.inj h
      decide

theorem checkOwner_error {operation : Operation} {e : TokenFileError}
    (h : operation.checkOwner = .error e) : e ≠ .duplicateOwnerTokens := by
  cases operation with
  | revoke ownerId =>
    simp only [Operation.checkOwner] at h
    split at h
    · obtain rfl := Except.error.inj h
      decide
    · cases h
  | _ => cases h

/-- The replaced file is in place when the call fails. -/
def Disk.FailsLate (disk : Disk) : Prop :=
  disk.replace = .notSynced ∨ disk.replace = .done ∧ disk.unlock = false

/-- A call fails and leaves the file, or the file has what the operation makes of it. -/
theorem run_cases (h : Provisioned file.contents) (call : Call) :
    (∃ e, e ≠ .duplicateOwnerTokens ∧ call.run file = (.error e, file)) ∨
    ∃ tokens written fileExists,
      call.operation.onEntries fileExists file.contents = .ok (tokens, written) ∧
      (call.run file).2.contents = written.getD file.contents ∧
      ((call.run file).1 = .ok tokens ∨
        (call.run file).1 = .error .tokenFileIo ∧ call.disk.FailsLate) := by
  unfold Call.run
  cases hcheck : call.operation.checkOwner with
  | error e => exact .inl ⟨e, checkOwner_error hcheck, rfl⟩
  | ok u =>
    dsimp only
    split
    · exact .inl ⟨_, by decide, rfl⟩
    · split
      · exact .inl ⟨_, by decide, rfl⟩
      · cases hread : readEntries call.disk file with
        | error e => exact .inl ⟨e, readEntries_error hread, rfl⟩
        | ok entries =>
          obtain rfl := readEntries_contents hread
          obtain ⟨tokens, written, hwrite, _⟩ := onEntries_ok h call.operation file.fileExists
          dsimp only
          rw [hwrite]
          cases written with
          | none =>
            dsimp only
            split
            · exact .inr ⟨tokens, none, _, hwrite, rfl, .inl rfl⟩
            · exact .inl ⟨_, by decide, rfl⟩
          | some written =>
            dsimp only
            cases hreplace : call.disk.replace with
            | notRenamed => exact .inl ⟨_, by decide, rfl⟩
            | notSynced =>
              exact .inr ⟨tokens, some written, _, hwrite, rfl, .inr ⟨rfl, .inl hreplace⟩⟩
            | done =>
              dsimp only
              split
              · exact .inr ⟨tokens, some written, _, hwrite, rfl, .inl rfl⟩
              · rename_i hunlock
                refine .inr ⟨tokens, some written, _, hwrite, rfl, .inr ⟨rfl, .inr ⟨hreplace, ?_⟩⟩⟩
                exact Bool.eq_false_iff.2 hunlock

theorem run_changes (h : Provisioned file.contents) (call : Call) :
    Changes call.operation.Touches call.operation.Resets file.contents
      (call.run file).2.contents := by
  rcases run_cases h call with ⟨e, _, hrun⟩ | ⟨tokens, written, fileExists, hwrite, hfile, _⟩
  · rw [hrun]
    exact .refl h
  · obtain ⟨_, _, hwrite', hchanges⟩ := onEntries_ok h call.operation fileExists
    rw [hwrite] at hwrite'
    cases hwrite'
    rw [hfile]
    exact hchanges

theorem runCalls_changes (h : Provisioned file.contents) (calls : List Call) :
    Changes (fun e => ∃ call ∈ calls, call.operation.Touches e)
      (fun id role => ∃ call ∈ calls, call.operation.Resets id role)
      file.contents (runCalls calls file).contents := by
  induction calls generalizing file with
  | nil => exact .refl h
  | cons call calls ih =>
    have hfirst := run_changes h call
    refine (hfirst.mono (fun e he => ⟨call, List.mem_cons_self, he⟩)
      fun id role hreset => ⟨call, List.mem_cons_self, hreset⟩).trans ?_
    refine (ih hfirst.provisioned).mono (fun e => ?_) fun id role => ?_
    · rintro ⟨next, hnext, he⟩
      exact ⟨next, List.mem_cons_of_mem _ hnext, he⟩
    · rintro ⟨next, hnext, hreset⟩
      exact ⟨next, List.mem_cons_of_mem _ hnext, hreset⟩

theorem run_provision (h : Provisioned file.contents) {identity : AdmissionIdentity}
    {role : DemoRole} {secret : String} {disk : Disk} {tokens : List ProvisionedToken}
    (hok : (Call.run ⟨.provision identity role secret, disk⟩ file).1 = .ok tokens) :
    ∃ token, tokens = [provisioned identity role token] ∧
      Holds (Call.run ⟨.provision identity role secret, disk⟩ file).2.contents
        identity.owner.id.str role token ∧
      ∀ t, Holds file.contents identity.owner.id.str role t → token = t := by
  obtain ⟨token, written, hprovision, _, hholds, hone⟩ := provision_ok h identity role secret
  rcases run_cases h ⟨.provision identity role secret, disk⟩ with
    ⟨e, _, hrun⟩ | ⟨tokens', written', fileExists, hwrite, hfile, hresult⟩
  · rw [hrun] at hok
    cases hok
  · have hwritten : Operation.onEntries fileExists file.contents (.provision identity role secret) =
        .ok ([provisioned identity role token], written) := by
      rw [Operation.onEntries, hprovision]
      rfl
    obtain ⟨rfl, rfl⟩ := Prod.mk.inj (Except.ok.inj (hwrite.symm.trans hwritten))
    rw [hok] at hresult
    rcases hresult with hresult | ⟨hresult, _⟩
    · exact ⟨token, Except.ok.inj hresult, hfile ▸ hholds, hone⟩
    · cases hresult

end

theorem runCalls_append (calls later : List Call) (file : TokenFile) :
    runCalls (calls ++ later) file = runCalls later (runCalls calls file) := List.foldl_append

/-- In any run what the calls do not touch stays as it is, in its order; what has an owner
was written by the calls, at most one entry for a role; no call finds two. A call that
fails leaves the file unless it fails after the replacement. The secret that a provision
gives out is given out again until it is reset. -/
theorem owners_isolated (file : TokenFile) (h : Provisioned file.contents) (calls : List Call) :
    (∀ q : Json → Bool, (∀ call ∈ calls, ∀ e, call.operation.Touches e → q e = false) →
      (runCalls calls file).contents.filter q = file.contents.filter q) ∧
    Provisioned (runCalls calls file).contents ∧
    (∀ id role, (runCalls calls file).contents.countP (matchesOperations id role) ≤ 1 ∧
      (runCalls calls file).contents.countP (matchesRole id role) ≤ 1) ∧
    (∀ call e, (Call.run call (runCalls calls file)).1 = .error e →
      e ≠ .duplicateOwnerTokens ∧
      (¬call.disk.FailsLate → (Call.run call (runCalls calls file)).2 = runCalls calls file)) ∧
    ∀ identity role secret disk tokens,
      (Call.run ⟨.provision identity role secret, disk⟩ (runCalls calls file)).1 = .ok tokens →
      ∀ later : List Call, (∀ call ∈ later, ¬call.operation.Resets identity.owner.id.str role) →
      ∀ identity' secret' disk' tokens', identity'.owner.id.str = identity.owner.id.str →
      (Call.run ⟨.provision identity' role secret', disk'⟩
        (runCalls (calls ++ ⟨.provision identity role secret, disk⟩ :: later) file)).1 =
          .ok tokens' →
      tokens' = tokens := by
  have hrun := runCalls_changes h calls
  have hafter := hrun.provisioned
  refine ⟨fun q hq => hrun.untouched q fun e ⟨call, hcall, he⟩ => hq call hcall e he, hafter,
    fun id role => ⟨hafter.countP_le_one id role, ?_⟩, fun call e herror => ?_, ?_⟩
  · have hone := hafter.one (hafter.finds_role id role)
    omega
  · rcases run_cases hafter call with ⟨e', hdup, hcall⟩ | ⟨_, _, _, _, _, hok | ⟨hio, hlate⟩⟩
    · rw [hcall] at herror ⊢
      obtain rfl := Except.error.inj herror
      exact ⟨hdup, fun _ => rfl⟩
    · rw [hok] at herror
      cases herror
    · rw [hio] at herror
      obtain rfl := Except.error.inj herror
      exact ⟨by decide, fun hnot => absurd hlate hnot⟩
  · intro identity role secret disk tokens hok later hlater identity' secret' disk' tokens' hid hok'
    obtain ⟨token, rfl, hholds, _⟩ := run_provision hafter hok
    have hfirst := run_changes hafter ⟨.provision identity role secret, disk⟩
    have hlast := runCalls_changes hfirst.provisioned later
    have hkept := hlast.holds identity.owner.id.str role token
      (fun ⟨call, hcall, hreset⟩ => hlater call hcall hreset) hholds
    rw [runCalls_append] at hok'
    obtain ⟨token', rfl, _, hone⟩ := run_provision hlast.provisioned hok'
    rw [hid] at hone
    rw [hone token hkept]
    unfold provisioned
    rw [hid]

theorem tess_valid : validateOwnerId "owner-tess" = .ok () ∧
    validateIssuer "https://tokens.example" = .ok () ∧ validateSubject "tess" = .ok () ∧
    validateEmail "tess@tokens.example" = .ok () :=
  ⟨by decide, by decide, by decide, by decide⟩

def tessIdentity : AdmissionIdentity :=
  ⟨⟨⟨"owner-tess", tess_valid.1⟩, ⟨"https://tokens.example", tess_valid.2.1⟩,
    ⟨"tess", tess_valid.2.2.1⟩, ⟨"tess@tokens.example", tess_valid.2.2.2⟩⟩⟩

/-- An entry of an operator that has the name of an owner. -/
def operatorEntry : Json := .obj [("name", .str "demo-hub-owner-x"), ("token", .str "t")]

/-- One owner and an operator, and a rotation for another role. -/
theorem owners_isolated_sample :
    Provisioned [operatorEntry, entryOf "s" tessIdentity.owner .write] ∧
    (runCalls [⟨.rotate tessIdentity .admin "s2", {}⟩]
      (.entries [operatorEntry, entryOf "s" tessIdentity.owner .write])).contents.filter
        (fun e => entryOwner e == none) =
      [operatorEntry, entryOf "s" tessIdentity.owner .write].filter
        (fun e => entryOwner e == none) := by
  have h : Provisioned [operatorEntry, entryOf "s" tessIdentity.owner .write] := by
    refine ⟨fun e he id hid => ?_, ?_⟩
    · rcases List.mem_cons.1 he with rfl | he
      · cases hid
      · obtain rfl := List.mem_singleton.1 he
        exact ⟨"s", tessIdentity.owner, .write, Option.some.inj hid, rfl⟩
    · refine List.pairwise_pair.2 ?_
      rintro id role ⟨hmatch, _⟩
      cases entryOwner_of_matches hmatch
  refine ⟨h, (owners_isolated (.entries _) h _).1 _ ?_⟩
  rintro call hcall e he
  obtain rfl := List.mem_singleton.1 hcall
  have howner : entryOwner e = some tessIdentity.owner.id.str := he
  rw [howner]
  rfl

/-- `revoke` removes an operator's entry that has the owner's name, also when it fails at
the unlocking. -/
theorem operator_entry_revoked :
    entryOwner operatorEntry = none ∧
    Call.run ⟨.revoke "x", {}⟩ (.entries [operatorEntry]) = (.ok [], .entries []) ∧
    Call.run ⟨.revoke "x", { unlock := false }⟩ (.entries [operatorEntry]) =
      (.error .tokenFileIo, .entries []) := by
  exact ⟨rfl, rfl, rfl⟩

end AgentPalace.Hub.PrivateTokens
