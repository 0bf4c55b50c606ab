import Mathlib.Data.List.Infix

/-!
# Trees of files

A tree of directories, files and symbolic links, and how a system resolves a path
in it: name by name from the root or from the working directory, a link by its
target, `..` by the directory above. `canonicalize` gives the names of what a path
stands for. It leads through real directories only (`canonicalize_canonical`) and
stands for itself (`canonicalize_ofNames`), so a test on the names of two canonical
paths says where their files are.
-/

namespace AgentPalace

universe u v

inductive PathPart (ν : Type u) where
  /-- Nothing between two slashes, or a dot. -/
  | here
  | parent
  | name (n : ν)
  deriving DecidableEq

structure TreePath (ν : Type u) where
  absolute : Bool
  parts : List (PathPart ν)
  deriving DecidableEq

namespace TreePath

variable {ν : Type u}

def ofNames (names : List ν) : TreePath ν := ⟨true, names.map .name⟩

/-- An absolute path takes the place of what it is joined to. -/
def join (path other : TreePath ν) : TreePath ν :=
  if other.absolute then other else ⟨path.absolute, path.parts ++ other.parts⟩

def part (bytes : List UInt8) : PathPart (List UInt8) :=
  if bytes = [] ∨ bytes = [46] then .here else if bytes = [46, 46] then .parent else .name bytes

/-- The path that a text spells, its parts between the slashes. -/
def ofBytes (text : List UInt8) : TreePath (List UInt8) :=
  ⟨text.head? = some 47, (text.splitOn 47).map part⟩

end TreePath

inductive TreeEntry (ν : Type u) (β : Type v) where
  | dir
  /-- A file that cannot be read has no content. -/
  | file (content : Option β)
  | link (target : TreePath ν)

/-- A tree that no one changes. The working directory was reached through directories. -/
structure FileTree (ν : Type u) (β : Type v) where
  /-- What some names from the root stand for; no link is followed. -/
  entry : List ν → Option (TreeEntry ν β)
  maxLinks : Nat
  currentDir : Option (List ν)
  currentDir_dirs :
    ∀ dir ∈ currentDir, ∀ above, above <+: dir → above ≠ [] → entry above = some .dir

namespace FileTree

variable {ν : Type u} {β : Type v} (tree : FileTree ν β)

/-! ## Resolution -/

/-- The names of what is at the end of some parts, from a directory on. -/
def walk (follow : List ν → List (PathPart ν) → Option (List ν)) :
    List ν → List (PathPart ν) → Option (List ν)
  | dir, [] => some dir
  | dir, .here :: rest => walk follow dir rest
  | dir, .parent :: rest => walk follow dir.dropLast rest
  | dir, .name n :: rest =>
    match tree.entry (dir ++ [n]) with
    | none => none
    | some .dir => walk follow (dir ++ [n]) rest
    | some (.file _) => if rest.isEmpty then some (dir ++ [n]) else none
    | some (.link target) => follow (if target.absolute then [] else dir) (target.parts ++ rest)

def resolve : Nat → List ν → List (PathPart ν) → Option (List ν)
  | 0 => tree.walk fun _ _ => none
  | links + 1 => tree.walk (resolve links)

def canonicalize (path : TreePath ν) : Option (List ν) :=
  (if path.absolute then some [] else tree.currentDir).bind fun dir =>
    tree.resolve tree.maxLinks dir path.parts

def read (path : TreePath ν) : Option β :=
  (tree.canonicalize path).bind fun names =>
    match tree.entry names with
    | some (.file content) => content
    | _ => none

/-! ## Canonical names -/

/-- A directory that is reached from the root without a link. -/
inductive RealDir : List ν → Prop where
  | root : RealDir []
  | sub {dir : List ν} {n : ν} (h : RealDir dir) (hn : tree.entry (dir ++ [n]) = some .dir) :
      RealDir (dir ++ [n])

/-- What is reached from the root without a link. -/
inductive Canonical : List ν → Prop where
  | dir {names : List ν} (h : tree.RealDir names) : Canonical names
  | file {dir : List ν} {n : ν} {content : Option β} (h : tree.RealDir dir)
      (hn : tree.entry (dir ++ [n]) = some (.file content)) : Canonical (dir ++ [n])

section
variable {tree} {dir names : List ν} {follow : List ν → List (PathPart ν) → Option (List ν)}

theorem RealDir.above (h : tree.RealDir dir) (hnames : names <+: dir) : tree.RealDir names := by
  induction h with
  | root =>
    obtain rfl := List.prefix_nil.1 hnames
    exact .root
  | sub hdir hn ih =>
    rcases List.prefix_concat_iff.1 hnames with rfl | hnames
    · exact .sub hdir hn
    · exact ih hnames

theorem realDir_of_dirs (h : ∀ above, above <+: dir → above ≠ [] → tree.entry above = some .dir) :
    tree.RealDir dir := by
  induction dir using List.reverseRecOn with
  | nil => exact .root
  | append_singleton dir n ih =>
    refine .sub (ih fun above habove => h above (habove.trans (List.prefix_append _ _))) ?_
    exact h _ (List.prefix_refl _) (List.concat_ne_nil n dir)

/-- Everything above canonical names is a directory. -/
theorem Canonical.above {above : List ν} (h : tree.Canonical names) (habove : above <+: names)
    (hne : above ≠ names) : tree.RealDir above := by
  cases h with
  | dir h => exact h.above habove
  | file h hn =>
    rcases List.prefix_concat_iff.1 habove with rfl | habove
    · exact absurd rfl hne
    · exact h.above habove

theorem walk_canonical
    (hfollow : ∀ dir parts names, tree.RealDir dir → follow dir parts = some names →
      tree.Canonical names) {parts : List (PathPart ν)} (hdir : tree.RealDir dir)
    (h : tree.walk follow dir parts = some names) : tree.Canonical names := by
  induction parts generalizing dir with
  | nil =>
    obtain rfl := Option.some.inj h
    exact .dir hdir
  | cons part rest ih =>
    cases part with
    | here => exact ih hdir h
    | parent => exact ih (hdir.above dir.dropLast_prefix) h
    | name n =>
      rw [walk] at h
      split at h
      · cases h
      · rename_i hn
        exact ih (.sub hdir hn) h
      · rename_i hn
        split at h
        · obtain rfl := Option.some.inj h
          exact .file hdir hn
        · cases h
      · refine hfollow _ _ _ ?_ h
        split
        · exact .root
        · exact hdir

theorem resolve_canonical {links : Nat} {parts : List (PathPart ν)} (hdir : tree.RealDir dir)
    (h : tree.resolve links dir parts = some names) : tree.Canonical names := by
  induction links generalizing dir parts names with
  | zero =>
    refine walk_canonical ?_ hdir h
    intro _ _ _ _ hnone
    cases hnone
  | succ links ih => exact walk_canonical (fun _ _ _ hdir h => ih hdir h) hdir h

/-- **Canonical paths lead through directories.** -/
theorem canonicalize_canonical {path : TreePath ν} (h : tree.canonicalize path = some names) :
    tree.Canonical names := by
  obtain ⟨dir, hstart, h⟩ := Option.bind_eq_some_iff.1 h
  refine resolve_canonical ?_ h
  split at hstart
  · obtain rfl := Option.some.inj hstart
    exact .root
  · exact realDir_of_dirs (tree.currentDir_dirs dir hstart)

/-! ## Canonical names stand for themselves -/

theorem walk_realDir (h : tree.RealDir dir) (rest : List (PathPart ν)) :
    tree.walk follow [] (dir.map .name ++ rest) = tree.walk follow dir rest := by
  induction h generalizing rest with
  | root => rfl
  | sub _ hn ih =>
    rw [List.map_append, List.append_assoc, ih, List.map_singleton, List.singleton_append, walk, hn]

theorem walk_self (h : tree.Canonical names) :
    tree.walk follow [] (names.map .name) = some names := by
  cases h with
  | dir h => simpa [walk] using walk_realDir h []
  | file h hn => simp [walk_realDir h, walk, hn]

theorem canonicalize_ofNames (h : tree.Canonical names) :
    tree.canonicalize (.ofNames names) = some names := by
  show tree.resolve tree.maxLinks [] (names.map .name) = some names
  cases tree.maxLinks with
  | zero => exact walk_self h
  | succ links => exact walk_self h

theorem read_ofNames {content : β} (h : tree.Canonical names) :
    tree.read (.ofNames names) = some content ↔ tree.entry names = some (.file (some content)) := by
  rw [read, canonicalize_ofNames h, Option.bind_some]
  cases tree.entry names with
  | none => simp
  | some entry => cases entry <;> simp

end

end FileTree

end AgentPalace
