import AgentPalace.Server.Access

/-!
# The token file

`TokenFile` is one version of the file. `readStep` is one access of the registry
to it: the permissions, the content, the modification time. Read without a
replacement in between, a version is loaded or refused as a whole (`readFile`).
`fromJson` stands for the JSON parser at the type of the file's entries, `blake3`
for the hash.
-/

namespace AgentPalace.Server

/-- `SystemTime`, in nanoseconds. -/
abbrev SystemTime := Int

structure RawTokenScope where
  wings : List String
  operations : List Operation
  deriving DecidableEq

/-- The owner's fields were validated when it was parsed. -/
structure TokenEntry where
  token : String
  name : String
  enabled : Bool
  scopes : Option (List RawTokenScope) := none
  owner : Option AuthenticatedOwner := none
  deriving DecidableEq

structure TokenRegistryEntry where
  name : String
  enabled : Bool
  tokenHash : String
  scopes : Option (List TokenScopeEntry)
  owner : Option AuthenticatedOwner
  deriving DecidableEq

def normalizeScopeWing (raw : String) : Except ServerError (List String) :=
  let trimmed := trim raw
  if trimmed = "*" then .ok ["*"]
  else
    match WingId.new trimmed with
    | .ok wing =>
      if wingPrefix.toList.isPrefixOf wing.str.toList then .ok [wing.str]
      else .ok [wing.str, wingPrefix ++ wing.str]
    | .error _ =>
      match WingId.normalized trimmed with
      | .ok wing => .ok [wing.str]
      | .error err => .error (.tokenFile s!"invalid wing `{raw}` in token scope: {err.display}")

def loadScope (raw : RawTokenScope) : Except ServerError TokenScopeEntry := do
  let wings ← raw.wings.mapM normalizeScopeWing
  return { wings := wings.flatten, operations := raw.operations }

/-- The owner ids of the subject bindings seen so far. -/
abbrev OwnerIds := List ((Issuer × Subject) × OwnerId)

/-- `insert`, refused when the binding had another id. -/
def bindOwner (name : String) (owner : AuthenticatedOwner) (ownerIds : OwnerIds) :
    Except ServerError OwnerIds :=
  let binding := (owner.issuer, owner.subject)
  match ownerIds.lookup binding with
  | some previousId =>
    if previousId ≠ owner.id then
      .error (.tokenFile s!"conflicting owner IDs for the subject binding on token {name}")
    else .ok ownerIds
  | none => .ok ((binding, owner.id) :: ownerIds)

section
variable (fromJson : String → Except String (List TokenEntry)) (blake3 : String → String)

/-- One entry of the file, behind the bindings of those before it. -/
def loadEntry (entry : TokenEntry) (ownerIds : OwnerIds) :
    Except ServerError (TokenRegistryEntry × OwnerIds) := do
  if isBlank entry.name then
    throw (.tokenFile "token entry name must not be empty")
  if ':' ∈ entry.name.toList then
    throw (.tokenFile s!"token entry name `{entry.name}` must not contain `:`")
  if entry.enabled && isBlank entry.token then
    throw (.tokenFile s!"enabled token `{entry.name}` must not be empty")
  let ownerIds ←
    match entry.owner with
    | some owner => bindOwner entry.name owner ownerIds
    | none => .ok ownerIds
  let scopes ← entry.scopes.mapM fun raw => raw.mapM loadScope
  return ({ name := entry.name, enabled := entry.enabled, tokenHash := blake3 entry.token, scopes
            owner := entry.owner }, ownerIds)

def loadEntries : List TokenEntry → OwnerIds → Except ServerError (List TokenRegistryEntry)
  | [], _ => .ok []
  | entry :: rest, ownerIds => do
    let (loaded, ownerIds) ← loadEntry blake3 entry ownerIds
    let entries ← loadEntries rest ownerIds
    return loaded :: entries

structure TokenFile where
  path : String
  mode : Nat
  /-- `none` is not UTF-8. -/
  text : Option String
  mtime : SystemTime
  deriving DecidableEq

def checkTokenFilePermissions (file : TokenFile) : Except ServerError Unit :=
  if file.mode % 64 ≠ 0 then
    .error (.tokenFile (s!"token file `{file.path}` has permissions 0o" ++
      String.ofList (Nat.toDigits 8 (file.mode % 512)) ++ "; expected 0600 or more restrictive"))
  else .ok ()

def readEntries (text : Option String) : Except ServerError (List TokenRegistryEntry) := do
  let raw ←
    match text with
    | some raw => Except.ok (ε := ServerError) raw
    | none => .error .io
  let fileEntries ←
    match fromJson raw with
    | .ok fileEntries => Except.ok (ε := ServerError) fileEntries
    | .error err => .error (.tokenFile err)
  loadEntries blake3 fileEntries []

/-- Where the registry is in `read_file`. -/
inductive ReadFile where
  | permissions
  | content
  | modified (entries : List TokenRegistryEntry)

inductive ReadOutcome where
  | more (next : ReadFile)
  | loaded (entries : List TokenRegistryEntry) (mtime : SystemTime)
  | failed (e : ServerError)

def readStep (file : TokenFile) : ReadFile → ReadOutcome
  | .permissions =>
    match checkTokenFilePermissions file with
    | .ok _ => .more .content
    | .error e => .failed e
  | .content =>
    match readEntries fromJson blake3 file.text with
    | .ok entries => .more (.modified entries)
    | .error e => .failed e
  | .modified entries => .loaded entries file.mtime

def readFile (file : TokenFile) : Except ServerError (List TokenRegistryEntry) := do
  checkTokenFilePermissions file
  readEntries fromJson blake3 file.text

def entriesOf (file : TokenFile) : List TokenRegistryEntry :=
  (readFile fromJson blake3 file).toOption.getD []

def lookupToken (entries : List TokenRegistryEntry) (presented : String) : Option AuthIdentity :=
  (entries.find? fun e => e.enabled && e.tokenHash = blake3 presented).map fun e =>
    { name := e.name, scopes := e.scopes, owner := e.owner }

/-- What a version decides about a presented token. -/
def decides (file : TokenFile) (presented : String) : Option AuthIdentity :=
  if isBlank presented then none else lookupToken blake3 (entriesOf fromJson blake3 file) presented

variable {fromJson blake3}

theorem entriesOf_ok {file : TokenFile} {entries : List TokenRegistryEntry}
    (hmode : checkTokenFilePermissions file = .ok ())
    (h : readEntries fromJson blake3 file.text = .ok entries) :
    entriesOf fromJson blake3 file = entries := by
  simp only [entriesOf, readFile, hmode, h, bind, Except.bind]
  rfl

theorem entriesOf_mode {file : TokenFile} {e : ServerError}
    (h : checkTokenFilePermissions file = .error e) : entriesOf fromJson blake3 file = [] := by
  simp only [entriesOf, readFile, h, bind, Except.bind]
  rfl

theorem entriesOf_content {file : TokenFile} {e : ServerError}
    (h : readEntries fromJson blake3 file.text = .error e) :
    entriesOf fromJson blake3 file = [] := by
  cases hmode : checkTokenFilePermissions file with
  | error e' => exact entriesOf_mode hmode
  | ok _ =>
    simp only [entriesOf, readFile, hmode, h, bind, Except.bind]
    rfl

end

end AgentPalace.Server
