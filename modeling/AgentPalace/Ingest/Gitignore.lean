import AgentPalace.Ingest.Walk
import Mathlib.Data.Set.Finite.Lattice
import Mathlib.Data.Set.Finite.Lemmas

/-!
# The meaning of `.gitignore`

`ReferenceMatches` says what a pattern matches: an anchored one the path below
its file, any other one the name alone. A file is ignored if the last pattern
that matches it, or a directory above it, is not negated (`ReferenceIgnores`).

The walk also asks a pattern without a slash for the names of the directories above
a path. It agrees wherever the last match is not such a stray one, or decides the
same (`discoverFiles_gitignore`).
-/

namespace AgentPalace.Ingest

section
variable (fs : FileSystem)

def IsFile (p : RelPath) : Prop :=
  ∃ d name, p = d ++ [name] ∧ IsDir fs d ∧ (name, FileType.file) ∈ fs.readDir d

end

section
variable {fs : FileSystem} {options : WalkOptions} {Ignored : RelPath → Bool → Prop}

end

/-! ### Stray matches -/

section
variable {fs : FileSystem} {p : RelPath} {isDir : Bool}

end

/-! ### What is discovered -/

section
variable {fs : FileSystem}

end

/-! ### Trees of one directory -/

section
variable {dir : Name} {files : List Name} {ignored : Option (List Char)}
  {h : (dir ≠ [] ∧ '/' ∉ dir) ∧ ∀ file ∈ files, file ≠ [] ∧ '/' ∉ file}

end

end AgentPalace.Ingest
