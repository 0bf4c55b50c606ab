import AgentPalace.Cli.ClientEdits
import AgentPalace.Lib.Program

/-!
# Moving the home

`runWithCache` checks everything first, then moves the model cache and the home,
and then rewrites the client files. A tree is copied into a staging directory,
which is renamed to the target when it is complete; then the source is renamed
to its backup. A copy writes the bytes of a file one after the other, so a crash
can leave it at any length.

A staging directory has a fresh name that nothing else reads; one that a crash
left behind is forgotten.
-/

namespace AgentPalace.Cli

abbrev FilePath := List String

inductive Entry where
  | dir
  | file (bytes : Bytes)
  /-- What the regular file that a link leads to holds, and whether it is inside the tree; the error
  of a link that leads nowhere. -/
  | link (target : Except Error (Option Bytes)) (inside : Bool)
  | other

/-- A directory: what is below it, by its path, a directory before what is in it. -/
structure Dir where
  entries : List (FilePath × Entry)
  distinct : (entries.map (·.1)).Nodup

namespace Dir

def empty : Dir := ⟨[], List.nodup_nil⟩

def get? (d : Dir) (path : FilePath) : Option Entry := d.entries.lookup path

/-- The bytes of a file, through a link too. -/
def read? (d : Dir) (path : FilePath) : Option Bytes :=
  match d.get? path with
  | some (.file bytes) => some bytes
  | some (.link (.ok target) _) => target
  | _ => none

def isDir (d : Dir) (path : FilePath) : Bool :=
  match d.get? path with
  | some .dir => true
  | _ => false

def setEntries (path : FilePath) (e : Entry) :
    List (FilePath × Entry) → List (FilePath × Entry)
  | [] => [(path, e)]
  | x :: xs => if x.1 = path then (path, e) :: xs else x :: setEntries path e xs

theorem mem_setEntries {path q : FilePath} {e : Entry} {xs : List (FilePath × Entry)}
    (h : q ∈ (setEntries path e xs).map (·.1)) : q = path ∨ q ∈ xs.map (·.1) := by
  induction xs with
  | nil =>
    left
    simpa [setEntries] using h
  | cons x xs ih =>
    unfold setEntries at h
    split at h
    · simp only [List.map_cons, List.mem_cons] at h ⊢
      exact h.imp_right .inr
    · simp only [List.map_cons, List.mem_cons] at h ⊢
      rcases h with h | h
      · exact .inr (.inl h)
      · exact (ih h).imp_right .inr

theorem nodup_setEntries {path : FilePath} {e : Entry} {xs : List (FilePath × Entry)}
    (h : (xs.map (·.1)).Nodup) : ((setEntries path e xs).map (·.1)).Nodup := by
  induction xs with
  | nil => simp [setEntries]
  | cons x xs ih =>
    rw [List.map_cons, List.nodup_cons] at h
    unfold setEntries
    split
    · rename_i heq
      rw [List.map_cons, List.nodup_cons, ← heq]
      exact h
    · rename_i hne
      rw [List.map_cons, List.nodup_cons]
      refine ⟨fun hmem => ?_, ih h.2⟩
      rcases mem_setEntries hmem with heq | hold
      · exact hne heq
      · exact h.1 hold

/-- An entry is written, over the one that is there. -/
def set (d : Dir) (path : FilePath) (e : Entry) : Dir :=
  ⟨setEntries path e d.entries, nodup_setEntries d.distinct⟩

theorem get?_set {d : Dir} {path q : FilePath} {e : Entry} :
    (d.set path e).get? q = if q = path then some e else d.get? q := by
  unfold get? set
  dsimp only
  induction d.entries with
  | nil =>
    unfold setEntries
    by_cases h : q = path <;> simp [List.lookup_cons, h, beq_eq_false_iff_ne.2]
  | cons x xs ih =>
    obtain ⟨y, f⟩ := x
    unfold setEntries
    dsimp only
    by_cases hy : y = path
    · subst hy
      rw [if_pos rfl, List.lookup_cons, List.lookup_cons]
      by_cases h : q = y
      · simp [h]
      · rw [beq_eq_false_iff_ne.2 h, if_neg h]
    · rw [if_neg hy, List.lookup_cons, List.lookup_cons]
      by_cases h : q = y
      · subst h
        simp [hy]
      · rw [beq_eq_false_iff_ne.2 h, ih]

end Dir

inductive Place where
  | dir (d : Dir)
  | file
  | link

/-- A tree to be moved: what is at its path, at the path of its backup and at the target. -/
structure Root where
  source : Option Place
  backup : Option Place
  target : Option Place

inductive Tree where
  | cache
  | home
  deriving DecidableEq

structure World where
  root : Tree → Root
  staged : Dir
  client : ClientFile → Option Bytes
  backup : ClientFile → Option Bytes

namespace World

def setRoot (w : World) (t : Tree) (r : Root) : World :=
  { w with root := Function.update w.root t r }

def staging (w : World) (d : Dir) : World := { w with staged := d }

end World

/-! ## File operations -/

inductive FileOp where
  | read
  | stagingDir
  | stage (path : FilePath) (e : Entry)
  | publish (t : Tree)
  | retire (t : Tree)
  | backup (c : ClientFile) (bytes : Bytes)
  | persist (c : ClientFile) (bytes : Bytes)

namespace FileOp

def exec : FileOp → World → World
  | read, w => w
  | stagingDir, w => w.staging .empty
  | stage path e, w => w.staging (w.staged.set path e)
  | publish t, w =>
    (w.setRoot t { w.root t with target := some (.dir w.staged) }).staging .empty
  | retire t, w => w.setRoot t { w.root t with source := none, backup := (w.root t).source }
  | backup c bytes, w => { w with backup := Function.update w.backup c (some bytes) }
  | persist c bytes, w => { w with client := Function.update w.client c (some bytes) }

end FileOp

abbrev MProg := Prog World FileOp Error

def op (o : FileOp) : MProg Unit := Prog.statement o fun _ => .ok ()

def look {α : Type} (f : World → Except Error α) : MProg α := Prog.statement .read f

/-- The bytes of a file that is copied or written, one after the other. -/
def written (bytes : Bytes) (o : Bytes → FileOp) : MProg Unit :=
  (List.range (bytes.length + 1)).forM fun n => op (o (bytes.take n))

def writeStaged (path : FilePath) (bytes : Bytes) : MProg Unit :=
  written bytes fun bytes => .stage path (.file bytes)

/-! ## One tree -/

variable (k : Codec)

def markerFile : FilePath := ["mempalace-migration.json"]

def configFile : FilePath := ["config.json"]

def identityFile : FilePath := ["identity.txt"]

def marker (p : Paths) : Json :=
  .obj [("destination", .str p.target), ("source", .str p.source), ("version", .int 1)]

def matchingMarker (p : Paths) : Place → Bool
  | .dir d =>
    match d.read? markerFile with
    | some bytes =>
      match k.fromSlice bytes with
      | .ok v => v = marker p
      | .error _ => false
    | none => false
  | _ => false

def parentDir : List Char := ['.', '.']

/-- `absolute` of an absolute path. -/
def checkPath (path : String) (place : Option Place) : Except Error Unit :=
  if (components path.toList).any (· = parentDir) then
    .error "Migration paths must not contain '..'"
  else match place with
    | some .link => .error s!"Migration root is a symlink: {path}"
    | _ => .ok ()

def bothExist (p : Paths) : Error :=
  s!"Both {p.source} and {p.target} exist. Refusing to merge palaces; " ++
    "resolve the destination explicitly before retrying"

def validateDir (p : Paths) (d : Dir) (r : Root) : Except Error Unit := do
  match d.read? configFile with
  | some bytes => k.configFile bytes
  | none => pure ()
  if r.target.any fun place => !matchingMarker k p place then .error (bothExist p)
  else if r.backup.isSome then
    .error "Source and its migration backup both exist; refusing to overwrite either"
  else .ok ()

def validateData (p : Paths) (r : Root) : Except Error Unit := do
  checkPath p.source r.source
  checkPath p.target r.target
  match r.source with
  | none => .ok ()
  | some (.dir d) => validateDir k p d r
  | some _ => .error "Migration source is not a directory"

def Paths.below (p : Paths) (path : FilePath) : String := "/".intercalate (p.source :: path)

/-- Everything but the `bin` of the root, a link as the file it leads to. -/
def copyEntry (p : Paths) (x : FilePath × Entry) : MProg Unit :=
  if x.1.head? = some "bin" then pure ()
  else match x.2 with
    | .dir => op (.stage x.1 .dir)
    | .file bytes => writeStaged x.1 bytes
    | .link (.error e) _ => throw e
    | .link (.ok (some bytes)) true => writeStaged x.1 bytes
    | .link (.ok _) _ => throw <| s!"Refusing migration symlink {p.below x.1}: " ++
        s!"target must be a regular file inside {p.boundary}"
    | .other => throw s!"Unsupported file in migration: {p.below x.1}"

def copyTree (p : Paths) (d : Dir) : MProg Unit := d.entries.forM (copyEntry p)

/-- The value of a field is changed, where the field is there. -/
def updateField (name : String) (f : Json → Json) : Json → Json
  | .obj fields =>
    match fields.lookup name with
    | some v => .obj (setField name (f v) fields)
    | none => .obj fields
  | v => v

def renamedTokenEnv (remote : Json) : Json :=
  match remote.get? "token_env" with
  | some (.str name) =>
    match stripped "MEMPALACE_" name with
    | some suffix => updateField "token_env" (fun _ => .str ("AGENTPALACE_" ++ suffix)) remote
    | none => remote
  | _ => remote

def renamedRemotes : Json → Json
  | .arr remotes => .arr (remotes.map renamedTokenEnv)
  | v => v

def migratedConfig (p : Paths) : Json → Except Error Json
  | .obj fields => .ok <|
    updateField "federation" (updateField "remotes" renamedRemotes) <|
    updateField "server" (updateField "token_file" (remapPathValue k p)) <|
    updateField "palace_path" (remapPathValue k p) <|
    .obj (orInsert "collection_name" (.str "mempalace_drawers") fields)
  | _ => .error "Global config is not an object"

/-- The bytes of the new `config.json`; a home without one gets one if it has a palace. -/
def newConfig (p : Paths) (d : Dir) : Except Error (Option Bytes) := do
  match d.read? configFile with
  | some bytes =>
    let value ← migratedConfig k p (← k.fromSlice bytes)
    return some (bytesOf (k.toPretty value))
  | none =>
    if d.isDir ["palace"] then
      let value ← migratedConfig k p (.obj [])
      return some (bytesOf (k.toPretty value))
    else return none

def newIdentity (d : Dir) : Except Error (Option Bytes) := do
  match d.read? identityFile with
  | some bytes => return some (bytesOf (migrateInstructions k (← readText bytes)))
  | none => return none

def rewriteStaged (path : FilePath) (f : Dir → Except Error (Option Bytes)) : MProg Unit := do
  match ← look fun w => f w.staged with
  | some bytes => writeStaged path bytes
  | none => pure ()

def stageTree (p : Paths) (d : Dir) : MProg Unit := do
  op .stagingDir
  copyTree p d
  rewriteStaged configFile (newConfig k p)
  rewriteStaged identityFile (newIdentity k)
  writeStaged markerFile (bytesOf (k.toPretty (marker p)))

def migrateData (t : Tree) (p : Paths) : MProg Unit := do
  let r ← look fun w => do
    validateData k p (w.root t)
    return w.root t
  match r.source with
  | some (.dir d) =>
    match r.target with
    | none =>
      stageTree k p d
      -- The complete copy becomes visible in one rename.
      op (.publish t)
    | some _ => pure ()
    op (.retire t)
  | _ => pure ()

/-! ## The migration -/

structure Setup where
  home : Paths
  cache : Option Paths
  dryRun : Bool
  skipCache : Bool
  /-- `HF_HOME`, where it is the default home that is moved. -/
  hfHome : Option String
  /-- Where a path leads, links resolved. -/
  physical : String → List (List Char)
  /-- The path of the executable is a link. -/
  binaryLink : Bool

def below (path root : List (List Char)) : Bool := root.isPrefixOf path

def backupPath (path : String) : String := path ++ ".pre-agentpalace"

def checkRoots (s : Setup) (home : Root) : Except Error Unit := do
  checkPath s.home.source home.source
  checkPath s.home.target home.target
  let source := components s.home.source.toList
  let target := components s.home.target.toList
  if below source target || below target source then
    .error "Migration source and destination must be separate directories"
  else if below (s.physical s.home.source) (s.physical s.home.target) ||
      below (s.physical s.home.target) (s.physical s.home.source) then
    .error "Migration directories overlap through a filesystem alias"
  else do
    checkPath s.home.binary (if s.binaryLink then some .link else none)
    if below (s.physical s.home.binary) (s.physical s.home.source) ||
        below (s.physical s.home.binary) (s.physical (backupPath s.home.source)) then
      .error "Install the new executable outside the legacy home and its backup"
    else .ok ()

/-- What is to be written into the client files that are there. -/
def clientEdits (p : Paths) (client : ClientFile → Option Bytes) :
    List ClientFile → Except Error (List (ClientFile × Bytes))
  | [] => .ok []
  | c :: cs =>
    match client c with
    | none => clientEdits p client cs
    | some bytes => do
      match ← edit k p c bytes with
      | none => clientEdits p client cs
      | some text => return (c, text) :: (← clientEdits p client cs)

def checkHfHome (hfHome : String) (p : Paths) (r : Root) : Except Error Unit :=
  if r.source.isSome then
    match (components p.source.toList).isPrefixOf? (components hfHome.toList) with
    | some relative => .error <|
      "HF_HOME points inside a home being moved. Set HF_HOME to " ++
        String.ofList (joined (components p.target.toList ++ relative)) ++
        " before retrying so future processes use the migrated cache"
    | none => .ok ()
  else .ok ()

def checkHf (s : Setup) (w : World) (cache : Option Paths) : Except Error Unit :=
  match s.hfHome with
  | none => .ok ()
  | some hfHome => do
    checkHfHome hfHome s.home (w.root .home)
    match cache with
    | some p => checkHfHome hfHome p (w.root .cache)
    | none => .ok ()

inductive Report where
  | preview (edits : Nat)
  | nothing
  | complete (edits : Nat)

inductive Prepared where
  | done (report : Report)
  | go (cache : Option Paths) (edits : List (ClientFile × Bytes))

def Setup.cacheFor (s : Setup) (home : Root) : Option Paths :=
  if home.source.isNone || s.skipCache then none else s.cache

def validateCache (cache : Option Paths) (r : Root) : Except Error Unit :=
  match cache with
  | some p => validateData k p r
  | none => .ok ()

/-- Everything that is read and checked before the first change. -/
def prepare (s : Setup) (w : World) : Except Error Prepared := do
  checkRoots s (w.root .home)
  let edits ← clientEdits k s.home w.client ClientFile.all
  validateData k s.home (w.root .home)
  checkHf s w (s.cacheFor (w.root .home))
  validateCache k (s.cacheFor (w.root .home)) (w.root .cache)
  if s.dryRun then return .done (.preview edits.length)
  else if (w.root .home).source.isNone && edits.isEmpty then return .done .nothing
  else return .go (s.cacheFor (w.root .home)) edits

def notFound : Error := "No such file or directory (os error 2)"

def backupAndWrite (x : ClientFile × Bytes) : MProg Unit := do
  let bytes ← look fun w => (w.client x.1).elim (.error notFound) .ok
  let kept ← look fun w => .ok (w.backup x.1)
  match kept with
  | none => written bytes (.backup x.1)
  | some _ => pure ()
  -- The temporary file has the whole text when it is renamed.
  op (.persist x.1 x.2)

def migrateCache (cache : Option Paths) : MProg Unit :=
  match cache with
  | some p => migrateData k .cache p
  | none => pure ()

def runWithCache (s : Setup) : MProg Report := do
  match ← look (prepare k s) with
  | .done report => return report
  | .go cache edits =>
    migrateCache k cache
    migrateData k .home s.home
    edits.forM backupAndWrite
    return .complete edits.length

end AgentPalace.Cli
