import AgentPalace.Storage.Basic

/-!
# What a token may see

A token without scopes is unrestricted; one with scopes may do what some entry
grants, on the wings of that entry (`allowsWing`). The aggregate routes filter by
the wings an operation is granted on (`visibleWings`).
-/

namespace AgentPalace.Server

inductive ServerError where
  | invalidParams (message : String)
  | storage (e : StorageError)
  | json
  /-- A file cannot be read. -/
  | io
  | tokenFile (message : String)
  deriving DecidableEq

def diaryRoom : String := "diary"

def isDiaryWingOrRoom (wing room : String) : Bool :=
  wing = sharedAgentDiaryWing || room = diaryRoom

inductive Operation where
  | read
  | write
  | delete
  | ingest
  | coordinationRead
  | coordinationWrite
  | coordinationClaim
  deriving DecidableEq

structure TokenScopeEntry where
  wings : List String
  operations : List Operation
  deriving DecidableEq

/-- `scopes none` is unrestricted. -/
structure AuthIdentity where
  name : String
  scopes : Option (List TokenScopeEntry) := none
  owner : Option AuthenticatedOwner := none
  deriving DecidableEq

inductive WingVisibility where
  | all
  | only (wings : List String)
  deriving DecidableEq

def WingVisibility.contains (v : WingVisibility) (wing : String) : Bool :=
  match v with
  | all => true
  | only wings => wing ∈ wings

def scopeGrants (entry : TokenScopeEntry) (op : Operation) : Bool :=
  op ∈ entry.operations || (op = .coordinationWrite && .coordinationClaim ∈ entry.operations)

namespace AuthIdentity

def allowsWing (auth : AuthIdentity) (op : Operation) (wing : String) : Bool :=
  match auth.scopes with
  | none => true
  | some scopes => scopes.any fun s => scopeGrants s op && s.wings.any fun w => w = "*" || w = wing

def visibleWings (auth : AuthIdentity) (op : Operation) : WingVisibility :=
  match auth.scopes with
  | none => .all
  | some scopes =>
    let granting := scopes.filter fun s => scopeGrants s op
    if granting.any fun s => "*" ∈ s.wings then .all
    else .only (granting.flatMap (·.wings))

end AuthIdentity

end AgentPalace.Server
