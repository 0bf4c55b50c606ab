import AgentPalace.Ingest.SecretNames
import AgentPalace.Ingest.Truncation
import AgentPalace.Ingest.Discover

/-!
# Discovery on names of any bytes

The two halves of discovery as they see a disk: names are bytes, a path may lead
through links, and a file may be opened to decide on it. What the ignore files say
of a path is a parameter, since every path is asked for once. `Judged` says what a
discovery holds when it decided on the files of a set, and `judged_discover` names
the set for either discovery.
-/

namespace AgentPalace.Ingest

abbrev BytePath := List ByteName

/-- What is below a root. No link is followed in a listing; `beyond` is what the system says of a
path that leads through one. -/
structure Disk where
  listing : BytePath → List (ByteName × FileType)
  beyond : BytePath → Option FileType
  read : BytePath → Option (List UInt8)
  depth : Nat
  listing_deep : ∀ dir, depth ≤ dir.length → listing dir = []
  listing_dir : ∀ dir name, listing (dir ++ [name]) ≠ [] → (name, .dir) ∈ listing dir
  name_once : ∀ dir, ((listing dir).map Prod.fst).Nodup
  name_valid : ∀ dir, ∀ entry ∈ listing dir, entry.1 ≠ [] ∧ 47 ∉ entry.1

structure FoundSource where
  absolutePath : BytePath
  relativePath : List Char
  deriving DecidableEq

structure ProjectSourceSkip where
  relativePath : List Char
  reason : String
  deriving DecidableEq

/-- What was found, with the files that were opened on the way. -/
structure DiscoveryReport where
  files : List FoundSource
  opened : List BytePath
  ignoredFiles : Nat
  skips : List ProjectSourceSkip
  complete : Bool
  deriving DecidableEq

def DiscoveryReport.empty : DiscoveryReport := ⟨[], [], 0, [], true⟩

/-- What ignore files and `git worktree list` say. -/
structure Rules where
  ignored : BytePath → Bool → Bool
  /-- `matches_with_ancestors`, for a path of the index. -/
  ignoredTracked : BytePath → Bool
  worktreeSkip : BytePath → Bool

def baseName (path : BytePath) : ByteName := path.getLast?.getD []

/-- `relative_path`: every name is decoded on its own. -/
def relativeText (path : BytePath) : List Char := ['/'].intercalate (path.map fromUtf8Lossy)

namespace Disk

variable (disk : Disk) (rules : Rules)

def entry (path : BytePath) : Option FileType :=
  path.getLast?.bind fun name => (disk.listing path.dropLast).lookup name

def BehindLink (path : BytePath) : Prop :=
  ∃ dir ∈ path.dropLast.inits, disk.entry dir = some .symlink

instance (path : BytePath) : Decidable (disk.BehindLink path) :=
  inferInstanceAs (Decidable (∃ dir ∈ path.dropLast.inits, disk.entry dir = some .symlink))

def symlinkMetadata (path : BytePath) : Option FileType :=
  if disk.BehindLink path then disk.beyond path else disk.entry path

def verdict (path : BytePath) : Verdict := projectEligibility (disk.read path) (baseName path)

def judge (found : DiscoveryReport) (source : FoundSource) : DiscoveryReport :=
  let verdict := disk.verdict source.absolutePath
  let found :=
    if verdict.opened then { found with opened := found.opened ++ [source.absolutePath] } else found
  match verdict.eligibility with
  | .eligible => { found with files := found.files ++ [source] }
  | .secret kind =>
    { found with
      ignoredFiles := found.ignoredFiles + 1
      skips := found.skips ++ [⟨source.relativePath, kind.asStr⟩] }
  | .excluded => { found with ignoredFiles := found.ignoredFiles + 1 }

/-! ### The index -/

/-- What `git ls-files -z` printed. -/
def indexEntries (stdout : List UInt8) : List (List UInt8) := (stdout.splitOn 0).filter (· ≠ [])

def components (entry : List UInt8) : BytePath := entry.splitOn 47

def indexEntry (found : DiscoveryReport) (entry : List UInt8) : DiscoveryReport :=
  let path := components entry
  let skip := { found with ignoredFiles := found.ignoredFiles + 1 }
  match disk.symlinkMetadata path with
  | none => { skip with complete := false }
  | some .symlink | some .dir => skip
  | some .file =>
    if rules.worktreeSkip path then skip
    else if rules.ignoredTracked path then skip
    else disk.judge found ⟨path, fromUtf8Lossy entry⟩

def sortFiles (found : DiscoveryReport) : DiscoveryReport :=
  { found with
    files := found.files.insertionSort fun a b =>
      String.ofList a.relativePath ≤ String.ofList b.relativePath }

def discoverGitIndexSources (stdout : List UInt8) : DiscoveryReport :=
  sortFiles ((indexEntries stdout).foldl (disk.indexEntry rules) .empty)

def trackedIndexPaths (stdout : List UInt8) : List (List Char) :=
  (indexEntries stdout).map fromUtf8Lossy

/-! ### The walk -/

def visitEntry (excludedPaths : List (List Char)) (dir : BytePath)
    (found : DiscoveryReport × List BytePath) (entry : ByteName × FileType) :
    DiscoveryReport × List BytePath :=
  let (found, pushed) := found
  let path := dir ++ [entry.1]
  let skip := { found with ignoredFiles := found.ignoredFiles + 1 }
  match entry.2 with
  | .dir =>
    if rules.ignored path true then (skip, pushed)
    else if rules.worktreeSkip path then (skip, pushed)
    else (found, path :: pushed)
  | .symlink => (skip, pushed)
  | .file =>
    if excludedPaths.contains (relativeText path) then (found, pushed)
    else if rules.ignored path false then (skip, pushed)
    else (disk.judge found ⟨path, relativeText path⟩, pushed)

def visitDir (excludedPaths : List (List Char)) (found : DiscoveryReport) (dir : BytePath) :
    DiscoveryReport × List BytePath :=
  (disk.listing dir).foldl (disk.visitEntry rules excludedPaths dir) (found, [])

def subdirs (dir : BytePath) : List BytePath :=
  ((disk.listing dir).filter fun entry => entry.2 = .dir).map fun entry => dir ++ [entry.1]

def countDirs : Nat → BytePath → Nat
  | 0, _ => 1
  | n + 1, dir => 1 + ((disk.subdirs dir).map (countDirs n)).sum

def discoverFiles (excludedPaths : List (List Char)) : DiscoveryReport :=
  sortFiles (Worklist.visitAll (disk.visitDir rules excludedPaths)
    (disk.countDirs disk.depth []) .empty [[]])

/-! ### Either discovery -/

def discoverProjectSources (gitBacked : Bool) (stdout : List UInt8) : DiscoveryReport :=
  if gitBacked then disk.discoverGitIndexSources rules stdout else disk.discoverFiles rules []

def discoverProjectBranchSources (gitBacked : Bool) (stdout : List UInt8) : DiscoveryReport :=
  if gitBacked then
    let tracked := disk.discoverGitIndexSources rules stdout
    let walk := disk.discoverFiles rules (trackedIndexPaths stdout)
    sortFiles
      { files := tracked.files ++ walk.files
        opened := tracked.opened ++ walk.opened
        ignoredFiles := tracked.ignoredFiles + walk.ignoredFiles
        skips := tracked.skips ++ walk.skips
        complete := tracked.complete && walk.complete }
  else disk.discoverFiles rules []

/-! ### The files that a discovery is asked for -/

def TakesTracked (entry : List UInt8) (source : FoundSource) : Prop :=
  source = ⟨components entry, fromUtf8Lossy entry⟩ ∧
    disk.symlinkMetadata (components entry) = some .file ∧
    rules.worktreeSkip (components entry) = false ∧
    rules.ignoredTracked (components entry) = false

def Tracked (stdout : List UInt8) (source : FoundSource) : Prop :=
  ∃ entry ∈ indexEntries stdout, disk.TakesTracked rules entry source

def Enters (dir : BytePath) (entry : ByteName × FileType) (sub : BytePath) : Prop :=
  sub = dir ++ [entry.1] ∧ entry.2 = .dir ∧ rules.ignored sub true = false ∧
    rules.worktreeSkip sub = false

def Takes (excludedPaths : List (List Char)) (dir : BytePath) (entry : ByteName × FileType)
    (source : FoundSource) : Prop :=
  source = ⟨dir ++ [entry.1], relativeText (dir ++ [entry.1])⟩ ∧ entry.2 = .file ∧
    source.relativePath ∉ excludedPaths ∧ rules.ignored source.absolutePath false = false

def Next (dir sub : BytePath) : Prop := ∃ entry ∈ disk.listing dir, Enters rules dir entry sub

def Holds (excludedPaths : List (List Char)) (dir : BytePath) (source : FoundSource) : Prop :=
  ∃ entry ∈ disk.listing dir, Takes rules excludedPaths dir entry source

def Walked (excludedPaths : List (List Char)) (source : FoundSource) : Prop :=
  ∃ dir, Relation.ReflTransGen (disk.Next rules) [] dir ∧ disk.Holds rules excludedPaths dir source

/-- A file that is decided on, in a discovery of the branch or of the project. -/
def Asked (gitBacked branch : Bool) (stdout : List UInt8) (source : FoundSource) : Prop :=
  if gitBacked then
    disk.Tracked rules stdout source ∨
      branch = true ∧ disk.Walked rules (trackedIndexPaths stdout) source
  else disk.Walked rules [] source

/-- The report of a discovery that decided on the files of `P`. -/
structure Judged (P : FoundSource → Prop) (found : DiscoveryReport) : Prop where
  files : ∀ source, source ∈ found.files ↔
    P source ∧ (disk.verdict source.absolutePath).eligibility = .eligible
  opened : ∀ path, path ∈ found.opened ↔
    ∃ source, P source ∧ source.absolutePath = path ∧ (disk.verdict path).opened = true

namespace Judged

variable {disk} {P Q : FoundSource → Prop} {found : DiscoveryReport}

theorem empty : disk.Judged (fun _ => False) .empty where
  files source := by simp [DiscoveryReport.empty]
  opened path := by simp [DiscoveryReport.empty]

theorem of_iff (h : disk.Judged P found) (hiff : ∀ source, P source ↔ Q source) :
    disk.Judged Q found := by
  rwa [show Q = P from funext fun source => propext (hiff source).symm]

/-- The counts, the skips and the order of the files are of no account. -/
theorem of_same (h : disk.Judged P found) {other : DiscoveryReport}
    (hfiles : ∀ source, source ∈ other.files ↔ source ∈ found.files)
    (hopened : other.opened = found.opened) : disk.Judged P other where
  files source := (hfiles source).trans (h.files source)
  opened path := by rw [hopened]; exact h.opened path

theorem pass (h : disk.Judged P found) (hnone : ∀ source, ¬ Q source) {other : DiscoveryReport}
    (hfiles : other.files = found.files) (hopened : other.opened = found.opened) :
    disk.Judged (fun source => P source ∨ Q source) other :=
  (h.of_iff fun source => (or_iff_left (hnone source)).symm).of_same
    (fun _ => by rw [hfiles]) hopened

theorem sortFiles (h : disk.Judged P found) : disk.Judged P (Disk.sortFiles found) :=
  h.of_same (fun _ => List.mem_insertionSort _) rfl

theorem judge (h : disk.Judged P found) (source : FoundSource) :
    disk.Judged (fun other => P other ∨ other = source) (disk.judge found source) := by
  have hfiles : (disk.judge found source).files =
      if (disk.verdict source.absolutePath).eligibility = .eligible then found.files ++ [source]
      else found.files := by
    unfold Disk.judge
    dsimp only
    cases (disk.verdict source.absolutePath).eligibility <;> split_ifs <;> first | rfl | simp_all
  have hopened : (disk.judge found source).opened =
      if (disk.verdict source.absolutePath).opened = true then
        found.opened ++ [source.absolutePath]
      else found.opened := by
    unfold Disk.judge
    dsimp only
    cases (disk.verdict source.absolutePath).eligibility <;> split_ifs <;> rfl
  constructor
  · intro other
    rw [hfiles]
    split_ifs with heligible
    · rw [List.mem_append, List.mem_singleton, h.files, or_and_right]
      exact or_congr_right ⟨fun heq => ⟨heq, heq ▸ heligible⟩, And.left⟩
    · rw [h.files, or_and_right]
      exact ⟨.inl, fun hor => hor.elim id fun ⟨heq, hother⟩ => absurd (heq ▸ hother) heligible⟩
  · intro path
    have hor : (∃ other, (P other ∨ other = source) ∧ other.absolutePath = path ∧
          (disk.verdict path).opened = true) ↔
        path ∈ found.opened ∨ source.absolutePath = path ∧ (disk.verdict path).opened = true := by
      rw [h.opened]
      simp only [or_and_right, exists_or, exists_eq_left]
    rw [hor, hopened]
    split_ifs with hopen
    · rw [List.mem_append, List.mem_singleton]
      exact or_congr_right ⟨fun heq => ⟨heq.symm, heq ▸ hopen⟩, fun heq => heq.1.symm⟩
    · exact ⟨.inl, fun hor => hor.elim id fun ⟨heq, hpath⟩ => absurd (heq ▸ hpath) hopen⟩

theorem append {more : DiscoveryReport} (h : disk.Judged P found) (hmore : disk.Judged Q more)
    {all : DiscoveryReport} (hfiles : all.files = found.files ++ more.files)
    (hopened : all.opened = found.opened ++ more.opened) :
    disk.Judged (fun source => P source ∨ Q source) all where
  files source := by
    rw [hfiles, List.mem_append, h.files, hmore.files, or_and_right]
  opened path := by
    rw [hopened, List.mem_append, h.opened, hmore.opened]
    simp only [or_and_right, exists_or]

end Judged

section
variable {disk rules} {P : FoundSource → Prop}

/-! ### What the index is asked for -/

theorem judged_indexEntry {found : DiscoveryReport} (h : disk.Judged P found)
    (entry : List UInt8) :
    disk.Judged (fun source => P source ∨ disk.TakesTracked rules entry source)
      (disk.indexEntry rules found entry) := by
  unfold indexEntry TakesTracked
  dsimp only
  cases htype : disk.symlinkMetadata (components entry) with
  | none => exact h.pass (fun _ hq => Option.some_ne_none _ hq.2.1.symm) rfl rfl
  | some type =>
    cases type with
    | symlink => exact h.pass (fun _ hq => by simp at hq) rfl rfl
    | dir => exact h.pass (fun _ hq => by simp at hq) rfl rfl
    | file =>
      dsimp only
      split_ifs with hskip hignored
      · exact h.pass (fun _ hq => by simp [hskip] at hq) rfl rfl
      · exact h.pass (fun _ hq => by simp [hignored] at hq) rfl rfl
      · exact (h.judge _).of_iff fun _ => by simp [hskip, hignored]

theorem judged_index (stdout : List UInt8) :
    disk.Judged (disk.Tracked rules stdout) (disk.discoverGitIndexSources rules stdout) := by
  have hfold : ∀ (entries : List (List UInt8)) (P : FoundSource → Prop) (found : DiscoveryReport),
      disk.Judged P found →
        disk.Judged
          (fun source => P source ∨ ∃ entry ∈ entries, disk.TakesTracked rules entry source)
          (entries.foldl (disk.indexEntry rules) found) := by
    intro entries
    induction entries with
    | nil =>
      intro P found h
      exact h.of_iff fun _ => by simp
    | cons entry entries ih =>
      intro P found h
      rw [List.foldl_cons]
      refine (ih _ _ (judged_indexEntry h entry)).of_iff fun source => ?_
      rw [List.exists_mem_cons_iff, or_assoc]
  refine ((hfold (indexEntries stdout) _ _ Judged.empty).of_iff fun source => ?_).sortFiles
  exact or_iff_right not_false

/-! ### What the walk is asked for -/

variable {excludedPaths : List (List Char)} {dir : BytePath}

theorem visitEntry_spec {found : DiscoveryReport × List BytePath} (h : disk.Judged P found.1)
    (entry : ByteName × FileType) :
    disk.Judged (fun source => P source ∨ Takes rules excludedPaths dir entry source)
        (disk.visitEntry rules excludedPaths dir found entry).1 ∧
      ∀ sub, sub ∈ (disk.visitEntry rules excludedPaths dir found entry).2 ↔
        sub ∈ found.2 ∨ Enters rules dir entry sub := by
  obtain ⟨found, pushed⟩ := found
  obtain ⟨name, type⟩ := entry
  unfold visitEntry
  cases type with
  | symlink =>
    exact ⟨h.pass (fun _ hq => by cases hq.2.1) rfl rfl,
      fun sub => (or_iff_left fun hq => by cases hq.2.1).symm⟩
  | dir =>
    have hnone : ∀ source, ¬ Takes rules excludedPaths dir (name, .dir) source :=
      fun _ hq => by cases hq.2.1
    dsimp only
    split_ifs with hignored hskip
    · refine ⟨h.pass hnone rfl rfl, fun sub => (or_iff_left ?_).symm⟩
      rintro ⟨rfl, -, hnot, -⟩
      exact Bool.false_ne_true (hnot.symm.trans hignored)
    · refine ⟨h.pass hnone rfl rfl, fun sub => (or_iff_left ?_).symm⟩
      rintro ⟨rfl, -, -, hnot⟩
      exact Bool.false_ne_true (hnot.symm.trans hskip)
    · refine ⟨h.pass hnone rfl rfl, fun sub => ?_⟩
      rw [List.mem_cons, or_comm]
      refine or_congr_right ⟨?_, And.left⟩
      rintro rfl
      exact ⟨rfl, rfl, eq_false_of_ne_true hignored, eq_false_of_ne_true hskip⟩
  | file =>
    have hnone : ∀ sub, sub ∈ pushed ↔ sub ∈ pushed ∨ Enters rules dir (name, .file) sub :=
      fun sub => (or_iff_left fun hq => by cases hq.2.1).symm
    dsimp only
    split_ifs with hexcluded hignored
    · refine ⟨h.pass ?_ rfl rfl, hnone⟩
      rintro _ ⟨rfl, -, hnot, -⟩
      exact hnot (List.contains_iff_mem.1 hexcluded)
    · refine ⟨h.pass ?_ rfl rfl, hnone⟩
      rintro _ ⟨rfl, -, -, hnot⟩
      exact Bool.false_ne_true (hnot.symm.trans hignored)
    · refine ⟨(h.judge _).of_iff fun source => or_congr_right ⟨?_, And.left⟩, hnone⟩
      rintro rfl
      exact ⟨rfl, rfl, fun hmem => hexcluded (List.contains_iff_mem.2 hmem),
        eq_false_of_ne_true hignored⟩

theorem visitEntries_spec (entries : List (ByteName × FileType))
    {found : DiscoveryReport × List BytePath} (h : disk.Judged P found.1) :
    disk.Judged
        (fun source => P source ∨ ∃ entry ∈ entries, Takes rules excludedPaths dir entry source)
        (entries.foldl (disk.visitEntry rules excludedPaths dir) found).1 ∧
      ∀ sub, sub ∈ (entries.foldl (disk.visitEntry rules excludedPaths dir) found).2 ↔
        sub ∈ found.2 ∨ ∃ entry ∈ entries, Enters rules dir entry sub := by
  induction entries generalizing found P with
  | nil => exact ⟨h.of_iff fun _ => by simp, fun sub => by simp⟩
  | cons entry entries ih =>
    obtain ⟨hjudged, hsubs⟩ := @visitEntry_spec disk rules P excludedPaths dir found h entry
    obtain ⟨ihjudged, ihsubs⟩ := ih hjudged
    rw [List.foldl_cons]
    refine ⟨ihjudged.of_iff fun source => ?_, fun sub => ?_⟩
    · rw [List.exists_mem_cons_iff, or_assoc]
    · rw [ihsubs, hsubs, List.exists_mem_cons_iff, or_assoc]

theorem visitEntry_pushed (size : BytePath → Nat) (found : DiscoveryReport × List BytePath)
    (entry : ByteName × FileType) :
    ((disk.visitEntry rules excludedPaths dir found entry).2.map size).sum ≤
      (found.2.map size).sum + (childDir dir entry).elim 0 size := by
  obtain ⟨found, pushed⟩ := found
  obtain ⟨name, type⟩ := entry
  unfold visitEntry childDir
  cases type with
  | symlink => exact Nat.le_add_right _ _
  | file =>
    dsimp only
    split_ifs <;> exact Nat.le_add_right _ _
  | dir =>
    dsimp only
    rw [if_pos rfl, Option.elim_some]
    split_ifs
    · exact Nat.le_add_right _ _
    · exact Nat.le_add_right _ _
    · rw [List.map_cons, List.sum_cons]
      exact le_of_eq (Nat.add_comm _ _)

theorem visitDir_pushed (found : DiscoveryReport) (dir : BytePath) :
    ((disk.visitDir rules excludedPaths found dir).2.map fun x =>
      disk.countDirs (disk.depth - x.length) x).sum <
      disk.countDirs (disk.depth - dir.length) dir := by
  have hsize := Worklist.foldl_pushed
    (@visitEntry_pushed disk rules excludedPaths dir
      fun x => disk.countDirs (disk.depth - x.length) x) (disk.listing dir) (found, [])
  refine lt_of_le_of_lt hsize ?_
  rw [List.map_nil, List.sum_nil, Nat.zero_add, filterMap_childDir]
  cases hleft : disk.depth - dir.length with
  | zero =>
    rw [disk.listing_deep dir (by omega)]
    exact Nat.one_pos
  | succ n =>
    have hchild : ∀ x ∈ disk.subdirs dir,
        disk.countDirs (disk.depth - x.length) x = disk.countDirs n x := by
      intro x hx
      obtain ⟨entry, -, rfl⟩ := List.mem_map.1 hx
      congr 1
      rw [List.length_append, List.length_singleton]
      omega
    show (((disk.subdirs dir).map _).sum) < 1 + ((disk.subdirs dir).map (disk.countDirs n)).sum
    rw [List.map_congr_left hchild]
    omega

theorem judged_walk (excludedPaths : List (List Char)) :
    disk.Judged (disk.Walked rules excludedPaths) (disk.discoverFiles rules excludedPaths) := by
  have hstep : ∀ visited found (dir : BytePath) (stack : List BytePath),
      disk.Judged (fun source => ∃ x ∈ visited, disk.Holds rules excludedPaths x source) found →
        (∀ sub, sub ∈ (disk.visitDir rules excludedPaths found dir).2 ↔ disk.Next rules dir sub) ∧
          disk.Judged
            (fun source => ∃ x ∈ dir :: visited, disk.Holds rules excludedPaths x source)
            (disk.visitDir rules excludedPaths found dir).1 := by
    intro visited found dir stack h
    obtain ⟨hjudged, hsubs⟩ := @visitEntries_spec disk rules _ excludedPaths dir
      (disk.listing dir) (found, []) h
    refine ⟨fun sub => (hsubs sub).trans (or_iff_right List.not_mem_nil),
      hjudged.of_iff fun source => ?_⟩
    rw [List.exists_mem_cons_iff, or_comm]
    rfl
  obtain ⟨all, hall, hmem⟩ := @Worklist.visitAll_visits _ _
    (disk.visitDir rules excludedPaths) (disk.Next rules)
    (fun x => disk.countDirs (disk.depth - x.length) x)
    (fun visited found _ => disk.Judged
      (fun source => ∃ x ∈ visited, disk.Holds rules excludedPaths x source) found)
    hstep visitDir_pushed (disk.countDirs disk.depth []) [] .empty [[]] (by simp)
    (Judged.empty.of_iff fun source => by simp)
  refine (hall.of_iff fun source => exists_congr fun dir => and_congr_left fun _ => ?_).sortFiles
  rw [hmem]
  simp

theorem judged_discover (gitBacked : Bool) (stdout : List UInt8) :
    disk.Judged (disk.Asked rules gitBacked false stdout)
        (disk.discoverProjectSources rules gitBacked stdout) ∧
      disk.Judged (disk.Asked rules gitBacked true stdout)
        (disk.discoverProjectBranchSources rules gitBacked stdout) := by
  unfold discoverProjectSources discoverProjectBranchSources Asked
  cases gitBacked with
  | false => exact ⟨judged_walk [], judged_walk []⟩
  | true =>
    refine ⟨(judged_index stdout).of_iff fun source => by simp, ?_⟩
    have hindex : disk.Judged (disk.Tracked rules stdout)
        (disk.discoverGitIndexSources rules stdout) := judged_index stdout
    refine ((hindex.append (judged_walk (trackedIndexPaths stdout)) rfl rfl).of_iff
      fun source => ?_).sortFiles
    simp

end

end Disk

end AgentPalace.Ingest
