import AgentPalace.Ingest.IgnorePattern
import AgentPalace.Lib.Worklist
import Mathlib.Data.List.Sort
import Mathlib.Data.Prod.Lex
import Mathlib.Data.String.Basic

/-!
# Discovery

`IgnoreMatcher` collects the rules of ignore files directory by directory and
decides a path by the last rule that matches it, in the order of source, depth
and loading. The walk of `discoverFiles` loads the ignore files of a directory as
it gets there and does not go into ignored ones; `matchesWithAncestors` is asked
for a file directly, with the rules of all directories loaded before.
-/

namespace AgentPalace.Ingest

abbrev Name := List Char

abbrev RelPath := List Name

inductive IgnoreTier where
  | globalExclude
  | repoExclude
  | worktreeGitignore
  | worktreeAgentPalaceignore
  deriving DecidableEq

def IgnoreTier.rank : IgnoreTier → Nat
  | globalExclude => 0
  | repoExclude => 1
  | worktreeGitignore => 2
  | worktreeAgentPalaceignore => 3

structure IgnoreRule where
  pattern : IgnorePattern
  scope : List Char
  scopeDepth : Nat
  tier : IgnoreTier
  order : Nat
  deriving DecidableEq

def IgnoreRule.key (r : IgnoreRule) : Nat ×ₗ Nat ×ₗ Nat :=
  toLex (r.tier.rank, toLex (r.scopeDepth, r.order))

structure IgnoreMatcher where
  skipDirs : List Name
  repoOffset : List Char
  rules : List IgnoreRule
  loaded : List RelPath
  nextOrder : Nat

inductive FileType where
  | file
  | symlink
  | dir
  deriving DecidableEq

/-- Why `read_to_string` fails: `NotFound`, or anything else, such as a text that is no UTF-8. -/
inductive ReadError where
  | notFound
  | other
  deriving DecidableEq

/-- A tree of directories, and what reading a file gives. -/
structure FileSystem where
  readDir : RelPath → List (Name × FileType)
  readToString : RelPath → Except ReadError (List Char)
  depth : Nat
  readDir_deep : ∀ dir, depth ≤ dir.length → readDir dir = []
  name_valid : ∀ dir, ∀ entry ∈ readDir dir, entry.1 ≠ [] ∧ '/' ∉ entry.1

/-! ### The matcher -/

def defaultSkipDirs : List Name :=
  [".git", "node_modules", "__pycache__", ".venv", "venv", "env", "dist", "build", ".next",
    "coverage", ".agentpalace", ".mempalace", ".mempalace.pre-agentpalace"].map String.toList

/-- `relative_path`: the names with slashes between them. -/
def relativePath (path : RelPath) : List Char := ['/'].intercalate path

/-- `replace('\\', "/")`. -/
def normalize (text : List Char) : List Char := text.map fun c => if c = '\\' then '/' else c

/-- `str::lines`. -/
def lines (body : List Char) : List (List Char) :=
  let parts := body.splitOn '\n'
  let ended := parts.dropLast.map fun line =>
    if line.getLast? = some '\r' then line.dropLast else line
  match parts.getLast? with
  | some [] | none => ended
  | some last => ended ++ [last]

def patterns (body : List Char) : List IgnorePattern := (lines body).filterMap parseIgnorePattern

namespace IgnoreMatcher

def new : IgnoreMatcher := ⟨defaultSkipDirs, [], [], [], 0⟩

def sortRules (rules : List IgnoreRule) : List IgnoreRule :=
  rules.insertionSort fun a b => a.key ≤ b.key

/-- The rules of one ignore file, in the order of its lines. -/
def push (m : IgnoreMatcher) (scope : List Char) (scopeDepth : Nat) (tier : IgnoreTier)
    (body : Option (List Char)) : IgnoreMatcher :=
  match body with
  | none => m
  | some body =>
    { m with
      rules := m.rules ++ (patterns body).zipIdx.map fun (pattern, i) =>
        { pattern, scope, scopeDepth, tier, order := m.nextOrder + i }
      nextOrder := m.nextOrder + (patterns body).length }

def ignoreFile (tier : IgnoreTier) : Name :=
  match tier with
  | .worktreeGitignore => ".gitignore".toList
  | _ => ".agentpalaceignore".toList

/-- The rules of one ignore file of a directory; `Err` is the path that cannot be read. -/
def loadFile (fs : FileSystem) (dirRel : RelPath) (scope : List Char) (scopeDepth : Nat)
    (m : IgnoreMatcher) (tier : IgnoreTier) : Except RelPath IgnoreMatcher :=
  let path := dirRel ++ [ignoreFile tier]
  match fs.readToString path with
  | .ok body => .ok (m.push scope scopeDepth tier (some body))
  | .error .notFound => .ok m
  | .error .other => .error path

def tiers (loadGitignore : Bool) : List IgnoreTier :=
  if loadGitignore then [.worktreeGitignore, .worktreeAgentPalaceignore]
  else [.worktreeAgentPalaceignore]

def loadDirectory (fs : FileSystem) (m : IgnoreMatcher) (dirRel : RelPath) (loadGitignore : Bool) :
    Except RelPath IgnoreMatcher :=
  if dirRel ∈ m.loaded then .ok m
  else do
    let scope := normalize (relativePath dirRel)
    let scopeDepth := if scope = [] then 0 else (scope.splitOn '/').length
    let m ← (tiers loadGitignore).foldlM (loadFile fs dirRel scope scopeDepth)
      { m with loaded := dirRel :: m.loaded }
    return { m with rules := sortRules m.rules }

end IgnoreMatcher

def IgnoreRule.scopeRelative (r : IgnoreRule) (path : List Char) : Option (List Char) :=
  if r.scope = [] then some path else (r.scope ++ ['/']).isPrefixOf? path

local instance lawfulPath : LawfulBEq (List Char) := inferInstance

namespace IgnoreMatcher

/-- Built-in directories are skipped wherever they are. -/
def matchesSkipDir (m : IgnoreMatcher) (normalized : List Char) (isDir : Bool) : Bool :=
  let parts := normalized.splitOn '/'
  let candidates := if isDir then parts else parts.dropLast
  m.skipDirs.any (· ∈ candidates)

def candidate (m : IgnoreMatcher) (normalized : List Char) (tier : IgnoreTier) : List Char :=
  match tier with
  | .repoExclude | .globalExclude =>
    if m.repoOffset = [] then normalized else m.repoOffset ++ '/' :: normalized
  | _ => normalized

def ruleMatches (m : IgnoreMatcher) (normalized : List Char) (isDir : Bool) (r : IgnoreRule) :
    Bool :=
  match r.scopeRelative (m.candidate normalized r.tier) with
  | none => false
  | some rest => r.pattern.matchesPath (rest.splitOn '/') isDir

def isIgnored (m : IgnoreMatcher) (relative : List Char) (isDir : Bool) : Bool :=
  let normalized := normalize relative
  m.matchesSkipDir normalized isDir ||
    m.rules.foldl (fun ignored r =>
      if m.ruleMatches normalized isDir r then !r.pattern.negated else ignored) false

/-- The texts before the slashes, the longest first. -/
def parents (normalized : List Char) : List (List Char) :=
  ((normalized.splitOn '/').dropLast.inits.filter (· ≠ [])).reverse.map fun names =>
    ['/'].intercalate names

def matchesWithAncestors (m : IgnoreMatcher) (relative : List Char) : Bool :=
  m.isIgnored (normalize relative) false ||
    (parents (normalize relative)).any fun dir => m.isIgnored dir true

end IgnoreMatcher

/-! ### The walk -/

structure WalkOptions where
  /-- The linked worktrees, if they are skipped. -/
  worktreeSkip : List RelPath
  excludedPaths : List (List Char)
  acceptFile : RelPath → Bool

structure Discovery where
  matcher : IgnoreMatcher
  ignoredFiles : Nat
  files : List RelPath

/-- One entry of a directory: what becomes of the discovery, and the directory to go into. -/
def visitEntry (options : WalkOptions) (dir : RelPath) (found : Discovery × List RelPath)
    (entry : Name × FileType) : Discovery × List RelPath :=
  let (d, pushed) := found
  let path := dir ++ [entry.1]
  let relative := relativePath path
  match entry.2 with
  | .dir =>
    if d.matcher.isIgnored relative true then ({ d with ignoredFiles := d.ignoredFiles + 1 }, pushed)
    else if path ∈ options.worktreeSkip then
      ({ d with ignoredFiles := d.ignoredFiles + 1 }, pushed)
    else (d, path :: pushed)
  | .symlink => ({ d with ignoredFiles := d.ignoredFiles + 1 }, pushed)
  | .file =>
    if relative ∈ options.excludedPaths then (d, pushed)
    else if d.matcher.isIgnored relative false then
      ({ d with ignoredFiles := d.ignoredFiles + 1 }, pushed)
    else if options.acceptFile path then ({ d with files := d.files ++ [path] }, pushed)
    else ({ d with ignoredFiles := d.ignoredFiles + 1 }, pushed)

def visitDir (fs : FileSystem) (options : WalkOptions) (d : Discovery) (dir : RelPath) :
    Except RelPath (Discovery × List RelPath) :=
  match d.matcher.loadDirectory fs dir true with
  | .error path => .error path
  | .ok matcher => .ok ((fs.readDir dir).foldl (visitEntry options dir) ({ d with matcher }, []))

def childDir {ν : Type} (dir : List ν) (entry : ν × FileType) : Option (List ν) :=
  if entry.2 = .dir then some (dir ++ [entry.1]) else none

theorem filterMap_childDir {ν : Type} (dir : List ν) (entries : List (ν × FileType)) :
    entries.filterMap (childDir dir) =
      (entries.filter fun entry => entry.2 = .dir).map fun entry => dir ++ [entry.1] := by
  unfold childDir
  induction entries with
  | nil => rfl
  | cons entry entries ih => by_cases hdir : entry.2 = .dir <;> simp [hdir, ih]

namespace FileSystem

variable (fs : FileSystem)

def subdirs (dir : RelPath) : List RelPath :=
  ((fs.readDir dir).filter fun entry => entry.2 = .dir).map fun entry => dir ++ [entry.1]

def countDirs : Nat → RelPath → Nat
  | 0, _ => 1
  | n + 1, dir => 1 + ((fs.subdirs dir).map (countDirs n)).sum

end FileSystem

/-- The walk goes into every directory once at most. -/
def walk (fs : FileSystem) (options : WalkOptions) (matcher : IgnoreMatcher) :
    Except RelPath Discovery :=
  Worklist.tryAll (visitDir fs options) (fs.countDirs fs.depth []) ⟨matcher, 0, []⟩ [[]]

/-- The discovered files, in the order of their relative paths. -/
def discoverFiles (fs : FileSystem) (options : WalkOptions) (matcher : IgnoreMatcher) :
    Except RelPath (List RelPath) :=
  (walk fs options matcher).map fun d => d.files.insertionSort fun a b =>
    String.ofList (relativePath a) ≤ String.ofList (relativePath b)

/-! ### The index -/

structure ProjectSourceDiscovery where
  sources : List RelPath
  skipped : Nat
  complete : Bool

/-- The directories above the entries, without the root. -/
def indexScopes (entries : List RelPath) : List RelPath :=
  (entries.flatMap fun relative => relative.dropLast.inits.filter (· ≠ [])).dedup.insertionSort
    (· ≤ ·)

/-- The matcher of the index, with `.agentpalaceignore` of every directory above an entry. -/
def indexMatcher (fs : FileSystem) (entries : List RelPath) : Except RelPath IgnoreMatcher :=
  ([] :: indexScopes entries).foldlM (fun m scope => m.loadDirectory fs scope false) .new

/-- One entry of the index, with what `symlink_metadata` says of it. -/
def indexEntry (options : WalkOptions) (metadata : RelPath → Option FileType) (m : IgnoreMatcher)
    (found : ProjectSourceDiscovery) (relative : RelPath) : ProjectSourceDiscovery :=
  let skip := { found with skipped := found.skipped + 1 }
  match metadata relative with
  | none => { skip with complete := false }
  | some .symlink | some .dir => skip
  | some .file =>
    if relative ∈ options.worktreeSkip then skip
    else if m.matchesWithAncestors (relativePath relative) then skip
    else if options.acceptFile relative then { found with sources := found.sources ++ [relative] }
    else skip

def discoverGitIndexSources (fs : FileSystem) (options : WalkOptions)
    (metadata : RelPath → Option FileType) (entries : List RelPath) :
    Except RelPath ProjectSourceDiscovery :=
  (indexMatcher fs entries).map fun m =>
    let found := entries.foldl (indexEntry options metadata m) ⟨[], 0, true⟩
    { found with
      sources := found.sources.insertionSort fun a b =>
        String.ofList (relativePath a) ≤ String.ofList (relativePath b) }

end AgentPalace.Ingest
