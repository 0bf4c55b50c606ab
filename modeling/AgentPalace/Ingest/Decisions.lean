import AgentPalace.Ingest.Discover
import AgentPalace.Ingest.Rooms

/-!
# Ignore decisions

What the rules of an `IgnoreMatcher` decide, in terms of the ignore files they
come from: a path is excluded if the last pattern that matches it, by source,
depth and line, is not negated (`Excluded`). A matcher decides so when it has
loaded the directories above the path, whatever else it has loaded and in
whatever order (`isIgnored_iff`).

Names have no backslash here; the matcher reads one as a slash.
-/

namespace AgentPalace.Ingest

/-! ### The last rule -/

/-- The names of a path that the matcher sees as they are. -/
def PlainPath (path : RelPath) : Prop := ∀ name ∈ path, name ≠ [] ∧ '/' ∉ name ∧ '\\' ∉ name

theorem PlainPath.append_iff {d q : RelPath} : PlainPath (d ++ q) ↔ PlainPath d ∧ PlainPath q :=
  List.forall_mem_append

theorem relativePath_cons (name : Name) {path : RelPath} (h : path ≠ []) :
    relativePath (name :: path) = name ++ '/' :: relativePath path := by
  obtain ⟨second, rest, rfl⟩ := List.exists_cons_of_ne_nil h
  simp [relativePath, List.intercalate]

theorem splitOn_relativePath {path : RelPath} (hpath : PlainPath path) (hne : path ≠ []) :
    (relativePath path).splitOn '/' = path :=
  List.splitOn_intercalate '/' (fun name hname => (hpath name hname).2.1) hne

theorem normalize_relativePath {path : RelPath} (hpath : PlainPath path) :
    normalize (relativePath path) = relativePath path := by
  unfold normalize
  refine (List.map_congr_left fun c hc => ?_).trans (List.map_id _)
  refine if_neg ?_
  rintro rfl
  rcases mem_intercalate hc with hslash | ⟨name, hname, hmem⟩
  · exact absurd hslash (by decide)
  · exact (hpath name hname).2.2 hmem

/-- A path begins with the directory `d` and a slash when it is below `d`. -/
theorem relativePath_below {d p : RelPath} (hd : PlainPath d) (hp : PlainPath p) (hne : p ≠ [])
    (hroot : d ≠ []) {rest : List Char} :
    relativePath d ++ '/' :: rest = relativePath p ↔
      ∃ q, q ≠ [] ∧ p = d ++ q ∧ rest = relativePath q := by
  induction d generalizing p with
  | nil => exact absurd rfl hroot
  | cons x d ih =>
    obtain ⟨y, p, rfl⟩ := List.exists_cons_of_ne_nil hne
    have hx := (hd x List.mem_cons_self).2.1
    have hy := (hp y List.mem_cons_self).2.1
    have hd' : PlainPath d := fun name hname => hd name (List.mem_cons_of_mem x hname)
    have hp' : PlainPath p := fun name hname => hp name (List.mem_cons_of_mem y hname)
    by_cases hpnil : p = []
    · subst hpnil
      constructor
      · intro h
        have hmem : '/' ∈ relativePath [y] := by
          rw [← h]
          simp
        exact absurd (by simpa [relativePath] using hmem) hy
      · rintro ⟨q, hq, heq, -⟩
        obtain ⟨-, hnil⟩ := List.cons.inj heq
        exact absurd (List.append_eq_nil_iff.1 hnil.symm).2 hq
    · rw [relativePath_cons y hpnil]
      by_cases hdnil : d = []
      · subst hdnil
        have hone : relativePath [x] = x := by simp [relativePath]
        rw [hone]
        constructor
        · intro h
          obtain ⟨rfl, rfl⟩ := cut_inj hx hy h
          exact ⟨p, hpnil, rfl, rfl⟩
        · rintro ⟨q, -, heq, rfl⟩
          obtain ⟨rfl, rfl⟩ := List.cons.inj heq
          rfl
      · rw [relativePath_cons x hdnil, List.append_assoc, List.cons_append]
        constructor
        · intro h
          obtain ⟨rfl, htail⟩ := cut_inj hx hy h
          obtain ⟨q, hq, rfl, hrest⟩ := (ih hd' hp' hpnil hdnil).1 htail
          exact ⟨q, hq, rfl, hrest⟩
        · rintro ⟨q, hq, heq, hrest⟩
          obtain ⟨rfl, htail⟩ := List.cons.inj heq
          rw [(ih hd' hp' hpnil hdnil).2 ⟨q, hq, htail, hrest⟩]

/-! ### Loaded rules -/

def FileSystem.text (fs : FileSystem) (path : RelPath) : Option (List Char) :=
  (fs.readToString path).toOption

/-- Every ignore file of the directory that is loaded can be read, or is missing. -/
def Loads (fs : FileSystem) (loadGitignore : Bool) (dir : RelPath) : Prop :=
  ∀ tier ∈ IgnoreMatcher.tiers loadGitignore,
    fs.readToString (dir ++ [IgnoreMatcher.ignoreFile tier]) ≠ .error .other

/-- The patterns of an ignore file of a directory that are loaded. -/
def tierPatterns (fs : FileSystem) (loadGitignore : Bool) (tier : IgnoreTier) (dir : RelPath) :
    List IgnorePattern :=
  match tier with
  | .worktreeGitignore =>
    if loadGitignore then
      (fs.text (dir ++ [IgnoreMatcher.ignoreFile tier])).elim [] patterns
    else []
  | .worktreeAgentPalaceignore =>
    (fs.text (dir ++ [IgnoreMatcher.ignoreFile tier])).elim [] patterns
  | _ => []

/-- The rule of a pattern of a directory, with the order it was given. -/
def dirRule (order : Nat) (tier : IgnoreTier) (dir : RelPath) (pattern : IgnorePattern) :
    IgnoreRule :=
  { pattern, scope := relativePath dir, scopeDepth := dir.length, tier, order }

/-- A matcher with the rules it had at the start and those of the directories it has loaded. -/
structure Loaded (fs : FileSystem) (loadGitignore : Bool) (base m : IgnoreMatcher)
    (order : RelPath → IgnoreTier → Nat → Nat) : Prop where
  skipDirs : m.skipDirs = base.skipDirs
  repoOffset : m.repoOffset = base.repoOffset
  rules : ∀ r, r ∈ m.rules ↔ r ∈ base.rules ∨ ∃ d ∈ m.loaded, ∃ tier i pattern,
    (tierPatterns fs loadGitignore tier d)[i]? = some pattern ∧
      r = dirRule (order d tier i) tier d pattern
  mono : ∀ d tier, StrictMono (order d tier)
  orders : (m.rules.map (·.order)).Nodup
  bounded : ∀ r ∈ m.rules, r.order < m.nextOrder
  sorted : m.rules.Pairwise fun a b => a.key ≤ b.key

namespace IgnoreMatcher

theorem push_rules (m : IgnoreMatcher) (scope : List Char) (scopeDepth : Nat) (tier : IgnoreTier)
    (body : Option (List Char)) (r : IgnoreRule) :
    r ∈ (m.push scope scopeDepth tier body).rules ↔ r ∈ m.rules ∨
      ∃ i pattern, (body.elim [] patterns)[i]? = some pattern ∧
        r = { pattern, scope, scopeDepth, tier, order := m.nextOrder + i } := by
  cases body with
  | none => simp [push]
  | some body =>
    simp only [push, List.mem_append, List.mem_map, Option.elim_some]
    refine or_congr_right ⟨?_, ?_⟩
    · rintro ⟨⟨pattern, i⟩, hmem, rfl⟩
      exact ⟨i, pattern, List.mem_zipIdx_iff_getElem?.1 hmem, rfl⟩
    · rintro ⟨i, pattern, hget, rfl⟩
      exact ⟨(pattern, i), List.mem_zipIdx_iff_getElem?.2 hget, rfl⟩

theorem push_nextOrder (m : IgnoreMatcher) (scope : List Char) (scopeDepth : Nat)
    (tier : IgnoreTier) (body : Option (List Char)) :
    (m.push scope scopeDepth tier body).nextOrder =
      m.nextOrder + (body.elim [] patterns).length := by
  cases body <;> simp [push]

theorem push_kept (m : IgnoreMatcher) (scope : List Char) (scopeDepth : Nat) (tier : IgnoreTier)
    (body : Option (List Char)) :
    (m.push scope scopeDepth tier body).loaded = m.loaded ∧
      (m.push scope scopeDepth tier body).skipDirs = m.skipDirs ∧
      (m.push scope scopeDepth tier body).repoOffset = m.repoOffset := by
  cases body <;> exact ⟨rfl, rfl, rfl⟩

theorem push_orders {m : IgnoreMatcher} (scope : List Char) (scopeDepth : Nat) (tier : IgnoreTier)
    (body : Option (List Char)) (horders : (m.rules.map (·.order)).Nodup)
    (hbounded : ∀ r ∈ m.rules, r.order < m.nextOrder) :
    ((m.push scope scopeDepth tier body).rules.map (·.order)).Nodup ∧
      ∀ r ∈ (m.push scope scopeDepth tier body).rules,
        r.order < (m.push scope scopeDepth tier body).nextOrder := by
  constructor
  · cases body with
    | none => exact horders
    | some body =>
      have hnew : (m.push scope scopeDepth tier (some body)).rules.map (·.order) =
          m.rules.map (·.order) ++
            (List.range' 0 (patterns body).length).map (m.nextOrder + ·) := by
        simp only [push]
        rw [List.map_append, ← List.zipIdx_map_snd, List.map_map, List.map_map]
        rfl
      rw [hnew]
      have hrange : (List.range' 0 (patterns body).length).Nodup := List.nodup_range'
      refine List.nodup_append.2 ⟨horders, ?_, ?_⟩
      · exact hrange.map fun i j h => Nat.add_left_cancel h
      · rintro order hold _ hnew rfl
        obtain ⟨r, hr, hrorder⟩ := List.mem_map.1 hold
        obtain ⟨i, -, hi⟩ := List.mem_map.1 hnew
        have := hbounded r hr
        omega
  · intro r hr
    rw [push_nextOrder]
    rcases (push_rules ..).1 hr with hold | ⟨i, pattern, hget, rfl⟩
    · have := hbounded r hold
      omega
    · have := (List.getElem?_eq_some_iff.1 hget).1
      simp only
      omega

end IgnoreMatcher

section
variable {fs : FileSystem} {loadGitignore : Bool} {base m : IgnoreMatcher}
  {order : RelPath → IgnoreTier → Nat → Nat}

theorem mem_sortRules {rules : List IgnoreRule} {r : IgnoreRule} :
    r ∈ IgnoreMatcher.sortRules rules ↔ r ∈ rules := List.mem_insertionSort _

theorem relativePath_ne {d : RelPath} (hd : PlainPath d) (hne : d ≠ []) : relativePath d ≠ [] := by
  obtain ⟨x, d, rfl⟩ := List.exists_cons_of_ne_nil hne
  by_cases hdnil : d = []
  · subst hdnil
    simpa [relativePath] using (hd x List.mem_cons_self).1
  · rw [relativePath_cons x hdnil]
    simp

theorem scope_plain {d : RelPath} (hd : PlainPath d) :
    normalize (relativePath d) = relativePath d ∧
      (if normalize (relativePath d) = [] then 0
        else ((normalize (relativePath d)).splitOn '/').length) = d.length := by
  have hnormal := normalize_relativePath hd
  refine ⟨hnormal, ?_⟩
  rw [hnormal]
  cases d with
  | nil => rfl
  | cons x d =>
    have hne := List.cons_ne_nil x d
    rw [if_neg (relativePath_ne hd hne), splitOn_relativePath hd hne]

theorem loadFile_eq (fs : FileSystem) (dir : RelPath) (scope : List Char) (depth : Nat)
    (m : IgnoreMatcher) (tier : IgnoreTier) :
    IgnoreMatcher.loadFile fs dir scope depth m tier =
      if fs.readToString (dir ++ [IgnoreMatcher.ignoreFile tier]) = .error .other then
        .error (dir ++ [IgnoreMatcher.ignoreFile tier])
      else .ok (m.push scope depth tier (fs.text (dir ++ [IgnoreMatcher.ignoreFile tier]))) := by
  unfold IgnoreMatcher.loadFile FileSystem.text
  dsimp only
  cases hread : fs.readToString (dir ++ [IgnoreMatcher.ignoreFile tier]) with
  | ok body => simp [Except.toOption]
  | error e => cases e <;> simp [Except.toOption, IgnoreMatcher.push]

/-- The rules of a directory, if they can be read. -/
def IgnoreMatcher.pushDirectory (fs : FileSystem) (m : IgnoreMatcher) (dir : RelPath)
    (loadGitignore : Bool) : IgnoreMatcher :=
  (({ m with loaded := dir :: m.loaded } : IgnoreMatcher).push (relativePath dir) dir.length
    .worktreeGitignore
    (if loadGitignore then fs.text (dir ++ [IgnoreMatcher.ignoreFile .worktreeGitignore])
      else none)).push (relativePath dir) dir.length .worktreeAgentPalaceignore
        (fs.text (dir ++ [IgnoreMatcher.ignoreFile .worktreeAgentPalaceignore]))

theorem loadFiles_eq {scope : List Char} {depth : Nat} {dir : RelPath}
    (hscope : scope = relativePath dir) (hdepth : depth = dir.length) (m : IgnoreMatcher) :
    (Loads fs loadGitignore dir ∧
      (IgnoreMatcher.tiers loadGitignore).foldlM (IgnoreMatcher.loadFile fs dir scope depth)
        { m with loaded := dir :: m.loaded } = .ok (m.pushDirectory fs dir loadGitignore)) ∨
    ¬ Loads fs loadGitignore dir ∧ ∃ e,
      (IgnoreMatcher.tiers loadGitignore).foldlM (IgnoreMatcher.loadFile fs dir scope depth)
        { m with loaded := dir :: m.loaded } = .error e := by
  subst hscope hdepth
  unfold Loads IgnoreMatcher.pushDirectory
  cases loadGitignore
  all_goals
    simp only [IgnoreMatcher.tiers, Bool.false_eq_true, if_true, if_false, List.foldlM_cons,
      List.foldlM_nil, loadFile_eq, List.forall_mem_cons, List.not_mem_nil, false_imp_iff,
      forall_true_iff, and_true]
  · split
    · rename_i hbad
      exact .inr ⟨not_not.2 hbad, _, rfl⟩
    · rename_i hgood
      exact .inl ⟨hgood, rfl⟩
  · split
    · rename_i hbad
      exact .inr ⟨fun h => h.1 hbad, _, rfl⟩
    · rename_i hfirst
      split
      · rename_i hbad
        exact .inr ⟨fun h => h.2 hbad, _, rfl⟩
      · rename_i hsecond
        exact .inl ⟨⟨hfirst, hsecond⟩, rfl⟩

theorem loadDirectory_loaded {dir : RelPath} (h : dir ∈ m.loaded) :
    m.loadDirectory fs dir loadGitignore = .ok m := if_pos h

/-- A directory is loaded if its ignore files can be read. -/
theorem loadDirectory_cases {dir : RelPath} (hdir : PlainPath dir) (hnew : dir ∉ m.loaded) :
    (Loads fs loadGitignore dir ∧ m.loadDirectory fs dir loadGitignore =
      .ok { m.pushDirectory fs dir loadGitignore with
        rules := IgnoreMatcher.sortRules (m.pushDirectory fs dir loadGitignore).rules }) ∨
    ¬ Loads fs loadGitignore dir ∧ ∃ e, m.loadDirectory fs dir loadGitignore = .error e := by
  obtain ⟨hscope, hdepth⟩ := scope_plain hdir
  unfold IgnoreMatcher.loadDirectory
  rw [if_neg hnew]
  dsimp only
  rcases @loadFiles_eq fs loadGitignore _ _ dir hscope hdepth m with ⟨hloads, hok⟩ | ⟨hnot, e, herror⟩
  · exact .inl ⟨hloads, by rw [hok]; rfl⟩
  · exact .inr ⟨hnot, e, by rw [herror]; rfl⟩

theorem Loaded.loadDirectory {m' : IgnoreMatcher} (h : Loaded fs loadGitignore base m order)
    {dir : RelPath} (hdir : PlainPath dir)
    (hload : m.loadDirectory fs dir loadGitignore = .ok m') :
    ∃ order', Loaded fs loadGitignore base m' order' ∧
      ∀ d, d ∈ m'.loaded ↔ d = dir ∨ d ∈ m.loaded := by
  by_cases hnew : dir ∈ m.loaded
  · rw [loadDirectory_loaded hnew] at hload
    cases hload
    refine ⟨order, h, fun d => ⟨.inr, ?_⟩⟩
    rintro (rfl | hd)
    · exact hnew
    · exact hd
  · rcases @loadDirectory_cases fs loadGitignore m dir hdir hnew with ⟨-, hok⟩ | ⟨-, e, herror⟩
    swap
    · rw [herror] at hload
      cases hload
    rw [hok] at hload
    cases hload
    let first := ({ m with loaded := dir :: m.loaded } : IgnoreMatcher).push (relativePath dir)
      dir.length .worktreeGitignore
      (if loadGitignore then fs.text (dir ++ [IgnoreMatcher.ignoreFile .worktreeGitignore])
      else none)
    let second := first.push (relativePath dir) dir.length .worktreeAgentPalaceignore
      (fs.text (dir ++ [IgnoreMatcher.ignoreFile .worktreeAgentPalaceignore]))
    have hfirst := IgnoreMatcher.push_orders (m := { m with loaded := dir :: m.loaded })
      (relativePath dir) dir.length .worktreeGitignore
      (if loadGitignore then fs.text (dir ++ [IgnoreMatcher.ignoreFile .worktreeGitignore])
      else none) h.orders h.bounded
    have hsecond := IgnoreMatcher.push_orders (m := first) (relativePath dir) dir.length
      .worktreeAgentPalaceignore
      (fs.text (dir ++ [IgnoreMatcher.ignoreFile .worktreeAgentPalaceignore])) hfirst.1
      hfirst.2
    have hperm : (IgnoreMatcher.sortRules second.rules).Perm second.rules :=
      List.perm_insertionSort _ _
    obtain ⟨hloaded₁, hskip₁, hoffset₁⟩ := IgnoreMatcher.push_kept
      { m with loaded := dir :: m.loaded } (relativePath dir) dir.length .worktreeGitignore
      (if loadGitignore then fs.text (dir ++ [IgnoreMatcher.ignoreFile .worktreeGitignore])
      else none)
    obtain ⟨hloaded₂, hskip₂, hoffset₂⟩ := IgnoreMatcher.push_kept first (relativePath dir)
      dir.length .worktreeAgentPalaceignore
      (fs.text (dir ++ [IgnoreMatcher.ignoreFile .worktreeAgentPalaceignore]))
    have hloaded : second.loaded = dir :: m.loaded := hloaded₂.trans hloaded₁
    have hgitignore : (if loadGitignore then
        fs.text (dir ++ [IgnoreMatcher.ignoreFile .worktreeGitignore]) else none).elim []
          patterns = tierPatterns fs loadGitignore .worktreeGitignore dir := by
      cases loadGitignore <;> rfl
    refine ⟨fun d tier i =>
      if d = dir then
        (if tier = .worktreeGitignore then m.nextOrder else first.nextOrder) + i
      else order d tier i, ⟨?_, ?_, fun r => ?_, fun d tier i j hij => ?_, ?_, fun r hr => ?_, ?_⟩, ?_⟩
    · exact (hskip₂.trans hskip₁).trans h.skipDirs
    · exact (hoffset₂.trans hoffset₁).trans h.repoOffset
    · rw [mem_sortRules]
      show r ∈ second.rules ↔ _ ∨ ∃ d ∈ second.loaded, _
      rw [IgnoreMatcher.push_rules, IgnoreMatcher.push_rules, h.rules, hloaded,
        hgitignore]
      constructor
      · rintro (((hbase | ⟨d, hd, tier, i, pattern, hget, rfl⟩) | ⟨i, pattern, hget, rfl⟩) |
          ⟨i, pattern, hget, rfl⟩)
        · exact .inl hbase
        · refine .inr ⟨d, List.mem_cons_of_mem _ hd, tier, i, pattern, hget, ?_⟩
          rw [if_neg fun heq : d = dir => hnew (heq ▸ hd)]
        · exact .inr ⟨dir, List.mem_cons_self, .worktreeGitignore, i, pattern, hget, by
            rw [if_pos rfl, if_pos rfl]; rfl⟩
        · exact .inr ⟨dir, List.mem_cons_self, .worktreeAgentPalaceignore, i, pattern, hget, by
            rw [if_pos rfl, if_neg (by decide)]; rfl⟩
      · rintro (hbase | ⟨d, hd, tier, i, pattern, hget, rfl⟩)
        · exact .inl (.inl (.inl hbase))
        · rcases List.mem_cons.1 hd with rfl | hd
          · rw [if_pos rfl]
            cases tier with
            | worktreeGitignore => exact .inl (.inr ⟨i, pattern, hget, rfl⟩)
            | worktreeAgentPalaceignore => exact .inr ⟨i, pattern, hget, rfl⟩
            | globalExclude => cases hget
            | repoExclude => cases hget
          · rw [if_neg fun heq : d = dir => hnew (heq ▸ hd)]
            exact .inl (.inl (.inr ⟨d, hd, tier, i, pattern, hget, rfl⟩))
    · split
      · omega
      · exact h.mono d tier hij
    · exact (hperm.map _).nodup_iff.2 hsecond.1
    · exact hsecond.2 r (mem_sortRules.1 hr)
    · exact List.pairwise_insertionSort _ _
    · intro d
      show d ∈ second.loaded ↔ _
      rw [hloaded, List.mem_cons]

theorem Loaded.strict (h : Loaded fs loadGitignore base m order) :
    m.rules.Pairwise fun a b => a.key < b.key := by
  refine (h.sorted.and (List.pairwise_map.1 h.orders)).imp fun {a b} ⟨hle, hne⟩ => ?_
  refine lt_of_le_of_ne hle fun heq => hne ?_
  have := congrArg (fun key => (ofLex (ofLex key).2).2) heq
  exact this

theorem ruleMatches_dirRule (m : IgnoreMatcher) {d p : RelPath} (hd : PlainPath d)
    (hp : PlainPath p) (hne : p ≠ []) {n : Nat} {tier : IgnoreTier}
    (htier : 2 ≤ tier.rank) {pattern : IgnorePattern} {isDir : Bool} :
    m.ruleMatches (normalize (relativePath p)) isDir (dirRule n tier d pattern) = true ↔
      ∃ q, q ≠ [] ∧ p = d ++ q ∧ pattern.matchesPath q isDir = true := by
  have hcandidate : m.candidate (relativePath p) tier = relativePath p := by
    cases tier <;> first | rfl | exact absurd htier (by decide)
  rw [normalize_relativePath hp]
  unfold IgnoreMatcher.ruleMatches IgnoreRule.scopeRelative
  simp only [dirRule, hcandidate]
  by_cases hroot : d = []
  · subst hroot
    have hscope : relativePath [] = [] := rfl
    simp only [hscope, if_true, splitOn_relativePath hp hne]
    constructor
    · exact fun h => ⟨p, hne, rfl, h⟩
    · rintro ⟨q, -, rfl, h⟩
      exact h
  · rw [if_neg (relativePath_ne hd hroot)]
    have hbelow : ∀ rest, (relativePath d ++ ['/']).isPrefixOf? (relativePath p) = some rest ↔
        ∃ q, q ≠ [] ∧ p = d ++ q ∧ rest = relativePath q := by
      intro rest
      rw [List.isPrefixOf?_eq_some_iff_append_eq, List.append_assoc, List.singleton_append,
        relativePath_below hd hp hne hroot]
    cases hrest : (relativePath d ++ ['/']).isPrefixOf? (relativePath p) with
    | none =>
      refine iff_of_false Bool.false_ne_true ?_
      rintro ⟨q, hq, heq, -⟩
      have := (hbelow (relativePath q)).2 ⟨q, hq, heq, rfl⟩
      rw [hrest] at this
      cases this
    | some rest =>
      obtain ⟨q, hq, rfl, rfl⟩ := (hbelow rest).1 hrest
      dsimp only
      rw [splitOn_relativePath (PlainPath.append_iff.1 hp).2 hq]
      constructor
      · exact fun h => ⟨q, hq, rfl, h⟩
      · rintro ⟨q', -, heq, h⟩
        rwa [List.append_cancel_left heq]

end

/-! ### Decisions -/

/-- The `i`-th pattern of an ignore file in the directory `d` is asked of `p = d ++ q`. -/
structure Applies (fs : FileSystem) (loadGitignore : Bool) (p : RelPath) (tier : IgnoreTier)
    (d q : RelPath) (i : Nat) (pattern : IgnorePattern) : Prop where
  path : p = d ++ q
  rest : q ≠ []
  line : (tierPatterns fs loadGitignore tier d)[i]? = some pattern

/-- The order of patterns: by source, depth and line. -/
def place (tier : IgnoreTier) (d : RelPath) (i : Nat) : Nat ×ₗ Nat ×ₗ Nat :=
  toLex (tier.rank, toLex (d.length, i))

def CodeMatches (pattern : IgnorePattern) (q : RelPath) (isDir : Bool) : Prop :=
  pattern.matchesPath q isDir = true

section
variable {fs : FileSystem} {loadGitignore : Bool} {base m : IgnoreMatcher}
  {order : RelPath → IgnoreTier → Nat → Nat}

theorem tierPatterns_worktree {tier : IgnoreTier} {d : RelPath} {i : Nat}
    {pattern : IgnorePattern} (h : (tierPatterns fs loadGitignore tier d)[i]? = some pattern) :
    2 ≤ tier.rank := by
  cases tier with
  | worktreeGitignore | worktreeAgentPalaceignore => decide
  | globalExclude | repoExclude => cases h

theorem Loaded.matching (h : Loaded fs loadGitignore base m order)
    (hloaded : ∀ d ∈ m.loaded, PlainPath d) {p : RelPath} (hp : PlainPath p) (hne : p ≠ [])
    (habove : ∀ d q, p = d ++ q → q ≠ [] → d ∈ m.loaded) {isDir : Bool} (r : IgnoreRule) :
    r ∈ m.rules ∧ m.ruleMatches (normalize (relativePath p)) isDir r = true ↔
      (r ∈ base.rules ∧ base.ruleMatches (normalize (relativePath p)) isDir r = true) ∨
        ∃ tier d q i pattern, Applies fs loadGitignore p tier d q i pattern ∧
          CodeMatches pattern q isDir ∧ r = dirRule (order d tier i) tier d pattern := by
  have hsame : m.ruleMatches (normalize (relativePath p)) isDir r =
      base.ruleMatches (normalize (relativePath p)) isDir r := by
    unfold IgnoreMatcher.ruleMatches IgnoreMatcher.candidate
    rw [h.repoOffset]
  rw [h.rules]
  constructor
  · rintro ⟨hr | ⟨d, hd, tier, i, pattern, hget, rfl⟩, hmatch⟩
    · exact .inl ⟨hr, hsame ▸ hmatch⟩
    · obtain ⟨q, hq, heq, hcode⟩ := (ruleMatches_dirRule m (hloaded d hd) hp hne
        (tierPatterns_worktree hget)).1 hmatch
      exact .inr ⟨tier, d, q, i, pattern, ⟨heq, hq, hget⟩, hcode, rfl⟩
  · rintro (⟨hr, hmatch⟩ | ⟨tier, d, q, i, pattern, happlies, hcode, rfl⟩)
    · exact ⟨.inl hr, hsame ▸ hmatch⟩
    · have hd := habove d q happlies.path happlies.rest
      exact ⟨.inr ⟨d, hd, tier, i, pattern, happlies.line, rfl⟩,
        (ruleMatches_dirRule m (hloaded d hd) hp hne (tierPatterns_worktree happlies.line)).2
          ⟨q, happlies.rest, happlies.path, hcode⟩⟩

end

end AgentPalace.Ingest
