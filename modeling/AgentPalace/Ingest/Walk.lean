import AgentPalace.Ingest.Decisions

/-!
# What the walk reaches

The walk takes the directories of a tree in an order of its own and collects
rules as it goes. What it reaches does not depend on that: it goes into the
directories that no ignore file above them excludes, and finds the files of those,
or fails at an ignore file in one of them (`mem_discoverFiles`).
-/

namespace AgentPalace.Ingest

/-- No directory of the tree has a backslash in its name. -/
def FileSystem.Plain (fs : FileSystem) : Prop :=
  ∀ dir name, (name, FileType.dir) ∈ fs.readDir dir → '\\' ∉ name

def IsDir (fs : FileSystem) (dir : RelPath) : Prop :=
  Relation.ReflTransGen
    (fun d sub => ∃ name, sub = d ++ [name] ∧ (name, FileType.dir) ∈ fs.readDir d) [] dir

theorem IsDir.plain {fs : FileSystem} {dir : RelPath} (hfs : fs.Plain) (h : IsDir fs dir) :
    PlainPath dir := by
  induction h with
  | refl => exact fun name hname => by cases hname
  | tail _ hnext ih =>
    obtain ⟨name, rfl, hmem⟩ := hnext
    refine PlainPath.append_iff.2 ⟨ih, fun n hn => ?_⟩
    obtain rfl := List.mem_singleton.1 hn
    obtain ⟨hne, hslash⟩ := fs.name_valid _ _ hmem
    exact ⟨hne, hslash, hfs _ _ hmem⟩

section
variable (fs : FileSystem) (options : WalkOptions) (Ignored : RelPath → Bool → Prop)

/-- A directory in `d` that the walk goes into. -/
def Next (d sub : RelPath) : Prop :=
  ∃ name, sub = d ++ [name] ∧ (name, FileType.dir) ∈ fs.readDir d ∧ ¬ Ignored sub true ∧
    sub ∉ options.worktreeSkip

/-- A file in `d` that the walk finds. -/
def Found (d p : RelPath) : Prop :=
  ∃ name, p = d ++ [name] ∧ (name, FileType.file) ∈ fs.readDir d ∧
    relativePath p ∉ options.excludedPaths ∧ ¬ Ignored p false ∧ options.acceptFile p = true

end

section
variable {fs : FileSystem} {options : WalkOptions} {dir : RelPath}

def Enters (options : WalkOptions) (dir : RelPath) (m : IgnoreMatcher) (entry : Name × FileType)
    (sub : RelPath) : Prop :=
  sub = dir ++ [entry.1] ∧ entry.2 = .dir ∧ m.isIgnored (relativePath sub) true = false ∧
    sub ∉ options.worktreeSkip

def Takes (options : WalkOptions) (dir : RelPath) (m : IgnoreMatcher) (entry : Name × FileType)
    (p : RelPath) : Prop :=
  p = dir ++ [entry.1] ∧ entry.2 = .file ∧ relativePath p ∉ options.excludedPaths ∧
    m.isIgnored (relativePath p) false = false ∧ options.acceptFile p = true

theorem visitEntry_spec (found : Discovery × List RelPath) (entry : Name × FileType) :
    (visitEntry options dir found entry).1.matcher = found.1.matcher ∧
    (∀ sub, sub ∈ (visitEntry options dir found entry).2 ↔
      sub ∈ found.2 ∨ Enters options dir found.1.matcher entry sub) ∧
    ∀ p, p ∈ (visitEntry options dir found entry).1.files ↔
      p ∈ found.1.files ∨ Takes options dir found.1.matcher entry p := by
  obtain ⟨d, pushed⟩ := found
  obtain ⟨name, type⟩ := entry
  unfold visitEntry Enters Takes
  cases type with
  | symlink => simp
  | dir =>
    dsimp only
    split
    · rename_i hignored
      refine ⟨rfl, fun sub => ⟨.inl, fun h => h.elim id ?_⟩, by simp⟩
      rintro ⟨rfl, -, hnot, -⟩
      simp [hignored] at hnot
    · rename_i hignored
      split
      · rename_i hskip
        refine ⟨rfl, fun sub => ⟨.inl, fun h => h.elim id ?_⟩, by simp⟩
        rintro ⟨rfl, -, -, hnot⟩
        exact absurd hskip hnot
      · rename_i hskip
        refine ⟨rfl, fun sub => ?_, by simp⟩
        rw [List.mem_cons, or_comm]
        refine or_congr_right ⟨?_, And.left⟩
        rintro rfl
        exact ⟨rfl, rfl, by simpa using hignored, hskip⟩
  | file =>
    dsimp only
    split
    · rename_i hexcluded
      refine ⟨rfl, by simp, fun p => ⟨.inl, fun h => h.elim id ?_⟩⟩
      rintro ⟨rfl, -, hnot, -⟩
      exact absurd hexcluded hnot
    · rename_i hexcluded
      split
      · rename_i hignored
        refine ⟨rfl, by simp, fun p => ⟨.inl, fun h => h.elim id ?_⟩⟩
        rintro ⟨rfl, -, -, hnot, -⟩
        simp [hignored] at hnot
      · rename_i hignored
        split
        · rename_i haccept
          refine ⟨rfl, by simp, fun p => ?_⟩
          rw [List.mem_append, List.mem_singleton]
          refine or_congr_right ⟨?_, And.left⟩
          rintro rfl
          exact ⟨rfl, rfl, hexcluded, by simpa using hignored, haccept⟩
        · rename_i haccept
          refine ⟨rfl, by simp, fun p => ⟨.inl, fun h => h.elim id ?_⟩⟩
          rintro ⟨rfl, -, -, -, hyes⟩
          exact absurd hyes haccept

/-- What the entries of a directory add to a discovery. -/
theorem visitEntries (entries : List (Name × FileType)) (found : Discovery × List RelPath) :
    (entries.foldl (visitEntry options dir) found).1.matcher = found.1.matcher ∧
    (∀ sub, sub ∈ (entries.foldl (visitEntry options dir) found).2 ↔ sub ∈ found.2 ∨
      ∃ entry ∈ entries, Enters options dir found.1.matcher entry sub) ∧
    ∀ p, p ∈ (entries.foldl (visitEntry options dir) found).1.files ↔ p ∈ found.1.files ∨
      ∃ entry ∈ entries, Takes options dir found.1.matcher entry p := by
  induction entries generalizing found with
  | nil => simp
  | cons entry entries ih =>
    obtain ⟨hmatcher, hsubs, hfiles⟩ := @visitEntry_spec options dir found entry
    obtain ⟨ihmatcher, ihsubs, ihfiles⟩ := ih (visitEntry options dir found entry)
    rw [List.foldl_cons]
    refine ⟨ihmatcher.trans hmatcher, fun sub => ?_, fun p => ?_⟩
    · rw [ihsubs, hsubs, hmatcher, List.exists_mem_cons_iff, or_assoc]
    · rw [ihfiles, hfiles, hmatcher, List.exists_mem_cons_iff, or_assoc]

theorem visitEntry_pushed (size : RelPath → Nat) (found : Discovery × List RelPath)
    (entry : Name × FileType) :
    ((visitEntry options dir found entry).2.map size).sum ≤
      (found.2.map size).sum + (childDir dir entry).elim 0 size := by
  obtain ⟨d, pushed⟩ := found
  obtain ⟨name, type⟩ := entry
  unfold visitEntry childDir
  cases type with
  | symlink => exact Nat.le_add_right _ _
  | file =>
    dsimp only
    repeat' split
    all_goals exact Nat.le_add_right _ _
  | dir =>
    dsimp only
    rw [if_pos rfl, Option.elim_some]
    split
    · exact Nat.le_add_right _ _
    · split
      · exact Nat.le_add_right _ _
      · rw [List.map_cons, List.sum_cons]
        exact le_of_eq (Nat.add_comm _ _)

theorem visitDir_size (d : Discovery) (matcher : IgnoreMatcher) :
    ((((fs.readDir dir).foldl (visitEntry options dir) ({ d with matcher }, [])).2).map
      fun x => fs.countDirs (fs.depth - x.length) x).sum <
      fs.countDirs (fs.depth - dir.length) dir := by
  have hsize := Worklist.foldl_pushed
    (@visitEntry_pushed options dir fun x => fs.countDirs (fs.depth - x.length) x)
    (fs.readDir dir) ({ d with matcher }, [])
  refine lt_of_le_of_lt hsize ?_
  rw [List.map_nil, List.sum_nil, Nat.zero_add, filterMap_childDir]
  cases hleft : fs.depth - dir.length with
  | zero =>
    rw [fs.readDir_deep dir (by omega)]
    exact Nat.one_pos
  | succ n =>
    have hchild : ∀ x ∈ fs.subdirs dir,
        fs.countDirs (fs.depth - x.length) x = fs.countDirs n x := by
      intro x hx
      obtain ⟨entry, -, rfl⟩ := List.mem_map.1 hx
      congr 1
      rw [List.length_append, List.length_singleton]
      omega
    show (((fs.subdirs dir).map _).sum) < 1 + ((fs.subdirs dir).map (fs.countDirs n)).sum
    rw [List.map_congr_left hchild]
    omega

end

/-! ### The invariant of the walk -/

/-- What a matcher that knows the directories visited does with the next one and its entries: it
loads it or fails, and decides the entries as `Ignored` says, the files as far as they are judged. -/
structure Decides (fs : FileSystem) (Knows : List RelPath → IgnoreMatcher → Prop)
    (Ignored : RelPath → Bool → Prop) (Judged : RelPath → Prop) : Prop where
  load : ∀ visited m dir, Knows visited m → IsDir fs dir →
    (∀ y q, dir = y ++ q → q ≠ [] → y ∈ visited) →
      (∃ m', m.loadDirectory fs dir true = .ok m' ∧ Loads fs true dir ∧ Knows (dir :: visited) m') ∨
      ∃ e, m.loadDirectory fs dir true = .error e ∧ ¬ Loads fs true dir
  decides : ∀ visited m dir name isDir, Knows visited m → IsDir fs dir →
    (name, if isDir then FileType.dir else .file) ∈ fs.readDir dir →
    (∀ y q, dir ++ [name] = y ++ q → q ≠ [] → y ∈ visited) →
    (isDir = false → Judged (dir ++ [name])) →
      (m.isIgnored (relativePath (dir ++ [name])) isDir = true ↔ Ignored (dir ++ [name]) isDir)

section
variable {fs : FileSystem} {options : WalkOptions} {base : IgnoreMatcher}
  {Knows : List RelPath → IgnoreMatcher → Prop} {Ignored : RelPath → Bool → Prop}
  {Judged : RelPath → Prop}

/-- The matcher knows what was visited, which has every directory above one of the list. -/
structure Walking (fs : FileSystem) (options : WalkOptions)
    (Knows : List RelPath → IgnoreMatcher → Prop) (Ignored : RelPath → Bool → Prop)
    (Judged : RelPath → Prop) (visited : List RelPath) (d : Discovery) (stack : List RelPath) :
    Prop where
  knows : Knows visited d.matcher
  isDir : ∀ x, x ∈ visited ∨ x ∈ stack → IsDir fs x
  above : ∀ x, x ∈ visited ∨ x ∈ stack → ∀ y q, x = y ++ q → q ≠ [] → y ∈ visited
  files : ∀ p, Judged p → (p ∈ d.files ↔ ∃ x ∈ visited, Found fs options Ignored x p)

theorem below_cases {dir y q : RelPath} {name : Name} (h : dir ++ [name] = y ++ q) (hq : q ≠ []) :
    y = dir ∨ ∃ q', q' ≠ [] ∧ dir = y ++ q' := by
  obtain ⟨q', last, rfl⟩ : ∃ q' last, q = q' ++ [last] :=
    ⟨q.dropLast, q.getLast hq, (List.dropLast_append_getLast hq).symm⟩
  rw [← List.append_assoc] at h
  obtain ⟨rfl, -⟩ := List.append_inj' h rfl
  by_cases hq' : q' = []
  · exact .inl (by simp [hq'])
  · exact .inr ⟨q', hq', rfl⟩

theorem Walking.step (hdecides : Decides fs Knows Ignored Judged) {visited stack : List RelPath}
    {d : Discovery} {dir : RelPath}
    (h : Walking fs options Knows Ignored Judged visited d (dir :: stack)) :
    (∃ d' found, visitDir fs options d dir = .ok (d', found) ∧ Loads fs true dir ∧
      (∀ sub, sub ∈ found ↔ Next fs options Ignored dir sub) ∧
      (found.map fun x => fs.countDirs (fs.depth - x.length) x).sum <
        fs.countDirs (fs.depth - dir.length) dir ∧
      Walking fs options Knows Ignored Judged (dir :: visited) d' (found ++ stack)) ∨
    ∃ e, visitDir fs options d dir = .error e ∧ ¬ Loads fs true dir := by
  have hdir : IsDir fs dir := h.isDir dir (.inr List.mem_cons_self)
  have habove := h.above dir (.inr List.mem_cons_self)
  rcases hdecides.load visited d.matcher dir h.knows hdir habove with
    ⟨m, hload, hloads, hknows⟩ | ⟨e, hload, hnot⟩
  swap
  · exact .inr ⟨e, by simp [visitDir, hload], hnot⟩
  obtain ⟨hmatcher, hsubs, hfiles⟩ :=
    @visitEntries options dir (fs.readDir dir) ({ d with matcher := m }, [])
  have hbelow : ∀ name y q, dir ++ [name] = y ++ q → q ≠ [] → y ∈ dir :: visited := by
    intro name y q heq hq
    rcases below_cases heq hq with rfl | ⟨q', hq', hy⟩
    · exact List.mem_cons_self
    · exact List.mem_cons_of_mem _ (habove y q' hy hq')
  have hentry : ∀ name isDir, (name, if isDir then FileType.dir else .file) ∈ fs.readDir dir →
      (isDir = false → Judged (dir ++ [name])) →
        (m.isIgnored (relativePath (dir ++ [name])) isDir = false ↔
          ¬ Ignored (dir ++ [name]) isDir) := by
    intro name isDir hmem hjudged
    rw [← hdecides.decides _ m dir name isDir hknows hdir hmem (hbelow name) hjudged,
      Bool.not_eq_true]
  have hnext : ∀ sub, sub ∈ ((fs.readDir dir).foldl (visitEntry options dir)
      ({ d with matcher := m }, [])).2 ↔ Next fs options Ignored dir sub := by
    intro sub
    rw [hsubs]
    simp only [List.not_mem_nil, false_or]
    constructor
    · rintro ⟨⟨name, type⟩, hmem, rfl, rfl, hignored, hskip⟩
      exact ⟨name, rfl, hmem, (hentry name true hmem (fun h => by cases h)).1 hignored, hskip⟩
    · rintro ⟨name, rfl, hmem, hignored, hskip⟩
      exact ⟨(name, .dir), hmem, rfl, rfl,
        (hentry name true hmem (fun h => by cases h)).2 hignored, hskip⟩
  have hvisit : visitDir fs options d dir = .ok ((fs.readDir dir).foldl (visitEntry options dir)
      ({ d with matcher := m }, [])) := by
    unfold visitDir
    rw [hload]
  refine .inl ⟨_, _, hvisit, hloads, hnext, visitDir_size d m, ?_, ?_, ?_, fun p hp => ?_⟩
  · rw [hmatcher]
    exact hknows
  · rintro x (hx | hx)
    · rcases List.mem_cons.1 hx with rfl | hx
      · exact hdir
      · exact h.isDir x (.inl hx)
    · rcases List.mem_append.1 hx with hx | hx
      · obtain ⟨name, rfl, hname, -⟩ := (hnext x).1 hx
        exact .tail hdir ⟨name, rfl, hname⟩
      · exact h.isDir x (.inr (List.mem_cons_of_mem _ hx))
  · intro x hx y q heq hq
    have hold : x ∈ visited ∨ x ∈ dir :: stack → y ∈ dir :: visited :=
      fun hx => List.mem_cons_of_mem _ (h.above x hx y q heq hq)
    rcases hx with hx | hx
    · rcases List.mem_cons.1 hx with rfl | hx
      · exact hold (.inr List.mem_cons_self)
      · exact hold (.inl hx)
    · rcases List.mem_append.1 hx with hx | hx
      · obtain ⟨name, rfl, -⟩ := (hnext x).1 hx
        exact hbelow name y q heq hq
      · exact hold (.inr (List.mem_cons_of_mem _ hx))
  · rw [hfiles, h.files p hp, List.exists_mem_cons_iff, or_comm]
    refine or_congr_left ⟨?_, ?_⟩
    · rintro ⟨⟨name, type⟩, hmem, rfl, rfl, hexcluded, hignored, haccept⟩
      exact ⟨name, rfl, hmem, hexcluded, (hentry name false hmem fun _ => hp).1 hignored, haccept⟩
    · rintro ⟨name, rfl, hmem, hexcluded, hignored, haccept⟩
      exact ⟨(name, .file), hmem, rfl, rfl, hexcluded,
        (hentry name false hmem fun _ => hp).2 hignored, haccept⟩

end

end AgentPalace.Ingest
