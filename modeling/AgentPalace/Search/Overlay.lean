import AgentPalace.Search.Rank

/-!
# Search in a branch view

A branch view is its own rows over the canonical ones. Which canonical paths the
branch replaces is asked only for the source files of the candidates at hand,
and the search is widened until enough candidates are visible, storage has no
more, or ten times the limit is reached.

What is returned is visible (`search_overlay_exact`), and exact in the semantic
mode while fewer than nine times the limit of the rows in between are hidden.
-/

namespace AgentPalace.Search

variable {V F K : Type} [LinearOrder F]

/-! ## The code -/

def usizeMax : Nat := 2 ^ 64 - 1

def saturatingMul (a b : Nat) : Nat := min (a * b) usizeMax

def isSelectedView (view : String) (r : DrawerRecord) : Bool :=
  r.viewName == some view || r.hall == some (viewHall view)

def visibleInView (r : DrawerRecord) (view : String) (overriddenPaths : List (WingId × String)) :
    Bool :=
  let selectedBranch := isSelectedView view r
  if selectedBranch && r.tombstone then false
  else if selectedBranch then true
  else if r.ingestMode != "projects" then true
  else !overriddenPaths.contains (r.wing, r.sourceFile)

def resolveRecord (world : SearchWorld F K) (r : DrawerRecord) : List Char × Bool :=
  match r.locator with
  | none => (r.content, false)
  | some locator =>
    let snippet := Ingest.resolveLocator world.hashBytes world.readLocatorFile locator r.sourceFile
    (snippet.text, snippet.stale)

section
variable (store : DrawerStore V F) (query : SearchQuery) (keep : DrawerRecord → Bool)

def queryFilter : DrawerFilter := { wing := query.wing, room := query.room, view := query.view }

def overlayOf : Option String := query.view.filter fun view => view ≠ "canonical" ∧ view ≠ "full"

/-- The rows of the view that share a source file with a candidate, in any room. -/
def overrideFilter (view : String) (sourceFiles : List String) : DrawerFilter :=
  { view := some view, wing := query.wing, branchViewOnly := true, sourceFiles }

/-- The candidates that the view shows; `none` if there are no candidates. -/
def composeOverlay (overlay : Option String) (candidates : List (DrawerMatch F)) :
    Except StorageError (Option (List (DrawerMatch F))) :=
  match overlay with
  | none => .ok (some candidates)
  | some view =>
    let sourceFiles := (candidates.map (·.record.sourceFile)).dedup
    if sourceFiles = [] then .ok none
    else do
      let rows ← store.listDrawers (overrideFilter query view sourceFiles)
      let overriddenPaths := (rows.filter (isSelectedView view)).map fun r => (r.wing, r.sourceFile)
      return some (candidates.filter fun m => visibleInView m.record view overriddenPaths)

/-- Search wider and wider, at most as often as there is fuel. -/
def widen (embedding : V) (maxCandidateLimit poolTarget : Nat) :
    Nat → Nat → Option (Except StorageError (List (DrawerMatch F)))
  | 0, _ => none
  | fuel + 1, candidateLimit =>
    match store.searchDrawers ⟨embedding, candidateLimit, true, queryFilter query⟩ with
    | .error e => some (.error e)
    | .ok candidates =>
      match composeOverlay store query (overlayOf query) candidates with
      | .error e => some (.error e)
      | .ok none => some (.ok candidates)
      | .ok (some visible) =>
        let kept := visible.filter fun m => keep m.record
        if poolTarget ≤ kept.length ∨ candidates.length < candidateLimit then some (.ok kept)
        else
          let nextLimit := saturatingMul candidateLimit 2
          if nextLimit = candidateLimit ∨ candidateLimit = maxCandidateLimit then some (.ok kept)
          else widen embedding maxCandidateLimit poolTarget fuel (min nextLimit maxCandidateLimit)

def maxCandidateLimit : Nat := max (saturatingMul query.limit 10) query.limit

def initialLimit (rerankEnabled : Bool) (freshness : Freshness) : Nat :=
  let baseLimit := if rerankEnabled then saturatingMul query.limit 2 else query.limit
  min (if freshness = .relevant then baseLimit else max baseLimit (saturatingMul query.limit 4))
    (maxCandidateLimit query)

def resultView (r : DrawerRecord) : Option String :=
  r.viewName.or (r.hall.bind fun hall =>
    if "view:".toList.isPrefixOf hall.toList then some (String.ofList (hall.toList.drop 5)) else none)

def searchResult (e : RankedMatch F K) : SearchResult F where
  drawerId := some e.record.id
  wing := e.record.wing
  room := e.record.room
  score := e.score
  content := e.record.content
  sourceFile := sourceLabel e.record.sourceFile
  stale := e.stale
  contentHash := some e.record.contentHash
  view := resultView e.record
  provenance := e.record.provenance.map (·.response)
  filedAt := some e.record.filedAt
  date := e.record.date
  ingestMode := some e.record.ingestMode

def resolveRanked (world : SearchWorld F K) (e : RankedMatch F K) : RankedMatch F K :=
  let (content, stale) := resolveRecord world e.record
  { e with record := { e.record with content }, stale }

def rankMatches [LinearOrder K] (world : SearchWorld F K) (policy : FreshnessPolicy)
    (rerankEnabled : Bool) (freshness : Freshness) (candidates : List (DrawerMatch F)) :
    List (RankedMatch F K) :=
  if rerankEnabled then
    let resolved := candidates.map fun m => (m, resolveRecord world m.record)
    rankCandidates world (some query.text)
      (resolved.map fun e => { e.1 with record := { e.1.record with content := e.2.1 } })
      (resolved.map (·.2.2)) freshness policy query.limit
  else
    (rankCandidates world none candidates (List.replicate candidates.length false) freshness policy
      query.limit).map (resolveRanked world)

def embedQuery (provider : EmbeddingProvider V) : Except EmbeddingError V := do
  if isBlank query.text then throw .blankInput
  match ← provider.embed [query.text] with
  | [] => throw (.providerContract "provider returned no vector for a non-empty search query")
  | vector :: _ => return vector

def searchWith [LinearOrder K] (world : SearchWorld F K) (provider : EmbeddingProvider V)
    (policy : FreshnessPolicy) (rerankEnabled : Bool) (freshness : Freshness) (fuel : Nat) :
    Option (Except SearchError (List (SearchResult F))) :=
  if provider.profile ≠ query.profile then
    some (.error (.profileMismatch query.profile provider.profile))
  else if isBlank query.text then some (.error .blankQuery)
  else if query.limit = 0 then some (.ok [])
  else
    match embedQuery query provider with
    | .error e => some (.error (.embeddings e))
    | .ok embedding =>
      let candidateLimit := initialLimit query rerankEnabled freshness
      (widen store query keep embedding (maxCandidateLimit query) candidateLimit fuel
        candidateLimit).map fun candidates =>
          match candidates with
          | .error e => .error (.storage e)
          | .ok candidates =>
            .ok ((rankMatches query world policy rerankEnabled freshness candidates).map searchResult)

end

/-! ## The specification -/

/-- What a view shows of a table: no tombstone, and a mined canonical row only if
no row of the view stands at its path. -/
def visible (table : DrawerTable) (view : String) (r : DrawerRecord) : Bool :=
  !r.tombstone && (branchPredicate view r || r.ingestMode != "projects" ||
    !table.rows.any fun o => branchPredicate view o && o.wing == r.wing &&
      o.sourceFile == r.sourceFile)

/-- The store holds a table, and its vector search gives the nearest rows, ties
at the cutoff included. -/
structure DrawerStore.Serves (store : DrawerStore V F) (table : DrawerTable)
    (dist : V → DrawerRecord → F) : Prop where
  search : ∀ request candidates, store.searchDrawers request = .ok candidates →
    request.includeCutoffTies = true → 0 < request.limit →
    ∃ w, IsWindow (dist request.embedding) (table.rows.filter request.filter.admits)
        request.limit w ∧
      candidates = w.map fun r => ⟨r, some (dist request.embedding r)⟩
  list : ∀ filter rows, store.listDrawers filter = .ok rows → filter.limit = none →
    rows.Perm (table.rows.filter filter.admits)

def tableStore (table : DrawerTable) (dist : V → DrawerRecord → F) : DrawerStore V F where
  searchDrawers request :=
    .ok ((nearest (dist request.embedding) (table.rows.filter request.filter.admits)
      request.limit).map fun r => ⟨r, some (dist request.embedding r)⟩)
  listDrawers filter :=
    .ok (match filter.limit with
      | some limit => (table.rows.filter filter.admits).take limit
      | none => table.rows.filter filter.admits)

theorem tableStore_serves (table : DrawerTable) (dist : V → DrawerRecord → F) :
    (tableStore table dist).Serves table dist where
  search request candidates h _ hlimit :=
    ⟨_, IsWindow.ofNearest (dist request.embedding) (table.nodup.filter _) hlimit,
      (Except.ok.inj h).symm⟩
  list filter rows h hlimit := by
    simp only [tableStore, hlimit] at h
    cases h
    exact .refl _

/-! ## One window -/

section
variable {store : DrawerStore V F} {table : DrawerTable} {dist : V → DrawerRecord → F}
  (hserves : store.Serves table dist) {query : SearchQuery} {view : String}
  (hview : query.view = some view) (hcanonical : view ≠ "canonical") (hfull : view ≠ "full")
  (keep : DrawerRecord → Bool)

theorem overlayOf_eq (hview : query.view = some view) (hcanonical : view ≠ "canonical")
    (hfull : view ≠ "full") : overlayOf query = some view := by
  simp [overlayOf, hview, hcanonical, hfull]

theorem admits_query (hview : query.view = some view) (hcanonical : view ≠ "canonical")
    (hfull : view ≠ "full") (r : DrawerRecord) :
    (queryFilter query).admits r = true ↔ query.wing.all (· == r.wing) = true ∧
      query.room.all (· == r.room) = true ∧
      (r.ingestMode ≠ "projects-branch" ∨ branchPredicate view r = true) := by
  simp [DrawerFilter.admits, DrawerFilter.admitsView, queryFilter, hview, hcanonical, hfull,
    and_assoc]

theorem admits_override (hcanonical : view ≠ "canonical") (hfull : view ≠ "full")
    {sourceFiles : List String} (hfiles : sourceFiles ≠ []) (r : DrawerRecord) :
    (overrideFilter query view sourceFiles).admits r = true ↔ query.wing.all (· == r.wing) = true ∧
      r.sourceFile ∈ sourceFiles ∧ branchPredicate view r = true := by
  simp [DrawerFilter.admits, DrawerFilter.admitsView, overrideFilter, hcanonical, hfull, hfiles,
    and_assoc]

theorem isSelectedView_of_branch {r : DrawerRecord} (h : branchPredicate view r = true) :
    isSelectedView view r = true := by
  simp only [branchPredicate, isSelectedView, Bool.or_eq_true, Bool.and_eq_true] at h ⊢
  exact h.imp_right fun h => h.2

/-- Of the rows that the query matches, those selected are those of the view. -/
theorem isSelectedView_iff {r : DrawerRecord} (hr : r ∈ table.rows)
    (hmatch : r.ingestMode ≠ "projects-branch" ∨ branchPredicate view r = true) :
    isSelectedView view r = branchPredicate view r := by
  rw [Bool.eq_iff_iff]
  refine ⟨fun h => ?_, isSelectedView_of_branch⟩
  by_contra hbranch
  have hname : r.viewName = none := by
    by_contra hname
    exact hmatch.resolve_right hbranch (table.branch r hr (.inl (Option.isSome_iff_ne_none.2 hname)))
  simp only [isSelectedView, hname, branchPredicate] at h hbranch
  simp_all

theorem visibleInView_eq (hcanonical : view ≠ "canonical") (hfull : view ≠ "full")
    {r : DrawerRecord} (hr : r ∈ table.rows) (hwing : query.wing.all (· == r.wing) = true)
    (hmatch : r.ingestMode ≠ "projects-branch" ∨ branchPredicate view r = true)
    {sourceFiles : List String} (hfile : r.sourceFile ∈ sourceFiles) {rows : List DrawerRecord}
    (hrows : rows.Perm (table.rows.filter (overrideFilter query view sourceFiles).admits)) :
    visibleInView r view ((rows.filter (isSelectedView view)).map fun o => (o.wing, o.sourceFile)) =
      visible table view r := by
  have hselected := isSelectedView_iff hr hmatch
  have hne : sourceFiles ≠ [] := List.ne_nil_of_mem hfile
  have hover : ((rows.filter (isSelectedView view)).map fun o => (o.wing, o.sourceFile)).contains
      (r.wing, r.sourceFile) = table.rows.any fun o => branchPredicate view o && o.wing == r.wing &&
        o.sourceFile == r.sourceFile := by
    rw [Bool.eq_iff_iff]
    simp only [List.contains_eq_mem, decide_eq_true_eq, List.mem_map, List.mem_filter,
      hrows.mem_iff, admits_override hcanonical hfull hne, Prod.mk.injEq, List.any_eq_true,
      Bool.and_eq_true, beq_iff_eq]
    constructor
    · rintro ⟨o, ⟨⟨ho, _, _, hbranch⟩, _⟩, hwing, hfile⟩
      exact ⟨o, ho, ⟨hbranch, hwing⟩, hfile⟩
    · rintro ⟨o, ho, ⟨hbranch, howing⟩, hofile⟩
      refine ⟨o, ⟨⟨ho, ?_, ?_, hbranch⟩, isSelectedView_of_branch hbranch⟩, howing, hofile⟩
      · rwa [howing]
      · rwa [hofile]
  have htomb : r.tombstone = true → branchPredicate view r = true := fun h =>
    hmatch.resolve_left fun hmode => hmode (table.branch r hr (.inr h))
  unfold visibleInView visible
  simp only [hselected, hover]
  cases hbranch : branchPredicate view r with
  | true => cases r.tombstone <;> simp
  | false =>
    have hlive : r.tombstone = false := by
      cases h : r.tombstone with
      | false => rfl
      | true => rw [hbranch] at htomb; exact (htomb h).symm
    simp only [hlive, Bool.false_and, Bool.not_false, Bool.true_and, Bool.false_or]
    cases r.ingestMode != "projects" <;> simp

def near (dist : DrawerRecord → F) (r : DrawerRecord) : DrawerMatch F := ⟨r, some (dist r)⟩

def matching (table : DrawerTable) (query : SearchQuery) : List DrawerRecord :=
  table.rows.filter (queryFilter query).admits

/-- Composing the view leaves the visible rows of the window. -/
theorem composeOverlay_eq (hserves : store.Serves table dist) (hview : query.view = some view)
    (hcanonical : view ≠ "canonical") (hfull : view ≠ "full") {embedding : V} {w : List DrawerRecord}
    (hw : ∀ r ∈ w, r ∈ matching table query) {out : Option (List (DrawerMatch F))}
    (h : composeOverlay store query (overlayOf query) (w.map (near (dist embedding))) = .ok out) :
    (out = none ∧ w = []) ∨
      out = some ((w.filter (visible table view)).map (near (dist embedding))) := by
  rw [overlayOf_eq hview hcanonical hfull] at h
  unfold composeOverlay at h
  simp only [List.map_map] at h
  split at h
  · rename_i hfiles
    refine .inl ⟨(Except.ok.inj h).symm, ?_⟩
    simpa [List.dedup_eq_nil] using hfiles
  · cases hlist : store.listDrawers (overrideFilter query view
        ((w.map ((·.record.sourceFile) ∘ near (dist embedding))).dedup)) with
    | error e =>
      rw [hlist] at h
      cases h
    | ok rows =>
      rw [hlist] at h
      have hrows := hserves.list _ rows hlist rfl
      refine .inr ((Except.ok.inj h).symm.trans (congrArg some ?_))
      rw [List.filter_map]
      refine congrArg _ (List.filter_congr fun r hr => ?_)
      obtain ⟨hmem, hadmits⟩ := List.mem_filter.1 (hw r hr)
      obtain ⟨hwing, _, hmatch⟩ := (admits_query hview hcanonical hfull r).1 hadmits
      refine visibleInView_eq hcanonical hfull hmem hwing hmatch ?_ hrows
      rw [List.mem_dedup, List.mem_map]
      exact ⟨r, hr, rfl⟩

/-! ## The widening search -/

def DrawerStore.Fails (store : DrawerStore V F) (e : StorageError) : Prop :=
  (∃ request, store.searchDrawers request = .error e) ∨
    ∃ filter, store.listDrawers filter = .error e

def LastRound (store : DrawerStore V F) (query : SearchQuery) (keep : DrawerRecord → Bool)
    (embedding : V) (maxLimit target c : Nat) (kept : List (DrawerMatch F)) : Prop :=
  ∃ candidates, store.searchDrawers ⟨embedding, c, true, queryFilter query⟩ = .ok candidates ∧
    ((composeOverlay store query (overlayOf query) candidates = .ok none ∧ kept = candidates) ∨
      ∃ shown, composeOverlay store query (overlayOf query) candidates = .ok (some shown) ∧
        kept = shown.filter (fun m => keep m.record) ∧
        (target ≤ kept.length ∨ candidates.length < c ∨ saturatingMul c 2 = c ∨ c = maxLimit))

omit [LinearOrder F] in
theorem composeOverlay_fails {overlay : Option String} {candidates : List (DrawerMatch F)}
    {e : StorageError} (h : composeOverlay store query overlay candidates = .error e) :
    store.Fails e := by
  unfold composeOverlay at h
  cases overlay with
  | none => cases h
  | some view =>
    simp only at h
    split at h
    · cases h
    · cases hlist : store.listDrawers (overrideFilter query view
          ((candidates.map (·.record.sourceFile)).dedup)) with
      | error e' =>
        rw [hlist] at h
        cases h
        exact .inr ⟨_, hlist⟩
      | ok rows =>
        rw [hlist] at h
        cases h

omit [LinearOrder F] in
/-- One round: the last one, or the search goes on with a wider window. -/
theorem widen_round (store : DrawerStore V F) (query : SearchQuery) (keep : DrawerRecord → Bool)
    (embedding : V) (maxLimit target c : Nat) :
    (∃ out, (∀ fuel, widen store query keep embedding maxLimit target (fuel + 1) c = some out) ∧
      (∀ kept, out = .ok kept → LastRound store query keep embedding maxLimit target c kept) ∧
      ∀ e, out = .error e → store.Fails e) ∨
    (c ≠ maxLimit ∧ ∀ fuel, widen store query keep embedding maxLimit target (fuel + 1) c =
      widen store query keep embedding maxLimit target fuel (min (saturatingMul c 2) maxLimit)) := by
  cases hsearch : store.searchDrawers ⟨embedding, c, true, queryFilter query⟩ with
  | error e =>
    refine .inl ⟨.error e, fun fuel => by simp only [widen, hsearch], fun kept h => ?_, ?_⟩
    · cases h
    · rintro _ ⟨rfl⟩
      exact .inl ⟨_, hsearch⟩
  | ok candidates =>
    cases hcompose : composeOverlay store query (overlayOf query) candidates with
    | error e =>
      refine .inl ⟨.error e, fun fuel => by simp only [widen, hsearch, hcompose], fun kept h => ?_, ?_⟩
      · cases h
      · rintro _ ⟨rfl⟩
        exact composeOverlay_fails hcompose
    | ok shown =>
      cases shown with
      | none =>
        refine .inl ⟨.ok candidates, fun fuel => by simp only [widen, hsearch, hcompose], ?_,
          fun e h => ?_⟩
        · rintro _ ⟨rfl⟩
          exact ⟨candidates, hsearch, .inl ⟨hcompose, rfl⟩⟩
        · cases h
      | some shown =>
        by_cases hstop : target ≤ (shown.filter fun m => keep m.record).length ∨
            candidates.length < c ∨ saturatingMul c 2 = c ∨ c = maxLimit
        · refine .inl ⟨.ok (shown.filter fun m => keep m.record), fun fuel => ?_, ?_, fun e h => ?_⟩
          · simp only [widen, hsearch, hcompose]
            split
            · rfl
            · rw [if_pos (by tauto)]
          · rintro _ ⟨rfl⟩
            exact ⟨candidates, hsearch, .inr ⟨shown, hcompose, rfl, hstop⟩⟩
          · cases h
        · simp only [not_or] at hstop
          refine .inr ⟨hstop.2.2.2, fun fuel => ?_⟩
          simp only [widen, hsearch, hcompose]
          rw [if_neg (by tauto), if_neg (by tauto)]

omit [LinearOrder F] in
theorem widen_ends (store : DrawerStore V F) (query : SearchQuery) (keep : DrawerRecord → Bool)
    (embedding : V) {maxLimit : Nat} (target : Nat) (hmax : maxLimit ≤ usizeMax) {rounds c : Nat}
    (hc : 0 < c) (hle : c ≤ maxLimit) (hrounds : maxLimit ≤ c * 2 ^ rounds) :
    ∃ out, (∀ fuel, rounds < fuel →
        widen store query keep embedding maxLimit target fuel c = some out) ∧
      (∀ kept, out = .ok kept → ∃ c', 0 < c' ∧ c' ≤ maxLimit ∧
        LastRound store query keep embedding maxLimit target c' kept) ∧
      ∀ e, out = .error e → store.Fails e := by
  induction rounds generalizing c with
  | zero =>
    rcases widen_round store query keep embedding maxLimit target c with
      ⟨out, hout, hlast, hfails⟩ | ⟨hne, _⟩
    · refine ⟨out, fun fuel hfuel => ?_, fun kept h => ⟨c, hc, hle, hlast kept h⟩, hfails⟩
      obtain ⟨fuel, rfl⟩ : ∃ n, fuel = n + 1 := ⟨fuel - 1, by omega⟩
      exact hout fuel
    · omega
  | succ rounds ih =>
    rcases widen_round store query keep embedding maxLimit target c with
      ⟨out, hout, hlast, hfails⟩ | ⟨_, hnext⟩
    · refine ⟨out, fun fuel hfuel => ?_, fun kept h => ⟨c, hc, hle, hlast kept h⟩, hfails⟩
      obtain ⟨fuel, rfl⟩ : ∃ n, fuel = n + 1 := ⟨fuel - 1, by omega⟩
      exact hout fuel
    · have hpow : 0 < 2 ^ rounds := Nat.two_pow_pos rounds
      have hwider : maxLimit ≤ min (saturatingMul c 2) maxLimit * 2 ^ rounds := by
        rcases Nat.le_total (saturatingMul c 2) maxLimit with hless | hless
        · rw [Nat.min_eq_left hless]
          rcases Nat.le_total (c * 2) usizeMax with hfits | hover
          · rw [saturatingMul, Nat.min_eq_left hfits]
            calc maxLimit ≤ c * 2 ^ (rounds + 1) := hrounds
              _ = c * 2 * 2 ^ rounds := by
                rw [Nat.pow_succ, Nat.mul_comm (2 ^ rounds), Nat.mul_assoc]
          · rw [saturatingMul, Nat.min_eq_right hover]
            exact hmax.trans (Nat.le_mul_of_pos_right _ hpow)
        · rw [Nat.min_eq_right hless]
          exact Nat.le_mul_of_pos_right _ hpow
      have hpos : 0 < min (saturatingMul c 2) maxLimit := by
        simp only [saturatingMul, usizeMax] at hmax ⊢
        omega
      obtain ⟨out, hout, hlast, hfails⟩ := ih hpos (Nat.min_le_right _ _) hwider
      refine ⟨out, fun fuel hfuel => ?_, hlast, hfails⟩
      obtain ⟨fuel, rfl⟩ : ∃ n, fuel = n + 1 := ⟨fuel - 1, by omega⟩
      rw [hnext]
      exact hout fuel (by omega)

/-- The kept rows of some window, that are enough, or all there are, or those of
the widest window. -/
structure Stopped (table : DrawerTable) (query : SearchQuery) (shown : DrawerRecord → Bool)
    (dist : DrawerRecord → F) (maxLimit target : Nat) (kept : List (DrawerMatch F))
    (w : List DrawerRecord) (c : Nat) : Prop where
  window : IsWindow dist (matching table query) c w
  kept : kept = (w.filter shown).map (near dist)
  stops : target ≤ (w.filter shown).length ∨ w.length < c ∨ c = maxLimit

theorem lastRound_stopped (hserves : store.Serves table dist) (hview : query.view = some view)
    (hcanonical : view ≠ "canonical") (hfull : view ≠ "full") {keep : DrawerRecord → Bool}
    {embedding : V} {maxLimit target c : Nat} (hmax : maxLimit ≤ usizeMax) (hc : 0 < c)
    (hle : c ≤ maxLimit) {kept : List (DrawerMatch F)}
    (h : LastRound store query keep embedding maxLimit target c kept) :
    ∃ w, Stopped table query (fun r => visible table view r && keep r) (dist embedding) maxLimit
      target kept w c := by
  obtain ⟨candidates, hsearch, h⟩ := h
  obtain ⟨w, hwindow, rfl⟩ := hserves.search _ candidates hsearch rfl hc
  have hsub : ∀ r ∈ w, r ∈ matching table query := hwindow.sub
  refine ⟨w, hwindow, ?_, ?_⟩
  · rcases h with ⟨hnone, rfl⟩ | ⟨shown, hshown, rfl, _⟩
    · rcases composeOverlay_eq hserves hview hcanonical hfull hsub hnone with ⟨_, rfl⟩ | hsome
      · rfl
      · cases hsome
    · rcases composeOverlay_eq hserves hview hcanonical hfull hsub hshown with ⟨hnone, _⟩ | hsome
      · cases hnone
      · cases hsome
        rw [List.filter_map, List.filter_filter]
        exact congrArg _ (List.filter_congr fun r _ => Bool.and_comm _ _)
  · rcases h with ⟨hnone, rfl⟩ | ⟨shown, hshown, rfl, hstop⟩
    · rcases composeOverlay_eq hserves hview hcanonical hfull hsub hnone with ⟨_, rfl⟩ | hsome
      · exact .inr (.inl hc)
      · cases hsome
    · rcases composeOverlay_eq hserves hview hcanonical hfull hsub hshown with ⟨hnone, _⟩ | hsome
      · cases hnone
      · cases hsome
        rw [List.filter_map, List.filter_filter, List.length_map, List.length_map] at hstop
        have hkept : (w.filter fun r => ((fun m : DrawerMatch F => keep m.record) ∘
            near (dist embedding)) r && visible table view r) =
            w.filter fun r => visible table view r && keep r :=
          List.filter_congr fun r _ => Bool.and_comm _ _
        rw [hkept] at hstop
        rcases hstop with hstop | hstop | hstop | hstop
        · exact .inl hstop
        · exact .inr (.inl hstop)
        · refine .inr (.inr ?_)
          simp only [saturatingMul, usizeMax] at hstop hmax
          omega
        · exact .inr (.inr hstop)

end

/-! ## What is returned -/

def SameRow (a r : DrawerRecord) : Prop := a = { r with content := a.content }

/-- A result presents a row: everything but the score and the text is the row's. -/
structure Presents (result : SearchResult F) (r : DrawerRecord) : Prop where
  drawerId : result.drawerId = some r.id
  wing : result.wing = r.wing
  room : result.room = r.room
  sourceFile : result.sourceFile = sourceLabel r.sourceFile
  contentHash : result.contentHash = some r.contentHash
  view : result.view = resultView r
  provenance : result.provenance = r.provenance.map (·.response)
  filedAt : result.filedAt = some r.filedAt
  date : result.date = r.date
  ingestMode : result.ingestMode = some r.ingestMode

omit [LinearOrder F] in
theorem searchResult_presents {e : RankedMatch F K} {r : DrawerRecord} (h : SameRow e.record r) :
    Presents (searchResult e) r := by
  unfold SameRow at h
  constructor <;> (rw [searchResult, h])
  rfl

theorem resolveRanked_sameRow {world : SearchWorld F K} {e : RankedMatch F K} {r : DrawerRecord}
    (h : SameRow e.record r) : SameRow (resolveRanked world e).record r := by
  unfold SameRow at h ⊢
  simp only [resolveRanked]
  rw [h]

omit [LinearOrder F] in
theorem entries_sameRow {out : List (RankedMatch F K)} {candidates l rows : List DrawerRecord}
    {limit : Nat} (hl : l.Perm candidates) (htake : out.map (·.record) = l.take limit)
    (hrows : List.Forall₂ SameRow candidates rows) :
    ∃ order : List DrawerRecord, order.Perm rows ∧
      List.Forall₂ (fun e r => SameRow e.record r) out (order.take limit) := by
  obtain ⟨order, hsame, horder⟩ := List.perm_comp_forall₂ hl hrows
  refine ⟨order, horder, ?_⟩
  have htaken := List.forall₂_take limit hsame
  rwa [← htake, List.forall₂_map_left_iff] at htaken

/-- The results present some of the candidates, in some order. -/
theorem rankMatches_presents [LinearOrder K] (world : SearchWorld F K) (query : SearchQuery)
    (policy : FreshnessPolicy) (rerankEnabled : Bool) (freshness : Freshness)
    (dist : DrawerRecord → F) (rows : List DrawerRecord) :
    ∃ order : List DrawerRecord, order.Perm rows ∧
      List.Forall₂ Presents ((rankMatches query world policy rerankEnabled freshness
        (rows.map (near dist))).map searchResult) (order.take query.limit) := by
  unfold rankMatches
  split
  · obtain ⟨l, hl, htake⟩ := rankCandidates_entries world (some query.text)
      (((rows.map (near dist)).map fun m => (m, resolveRecord world m.record)).map
        fun e => { e.1 with record := { e.1.record with content := e.2.1 } })
      (((rows.map (near dist)).map fun m => (m, resolveRecord world m.record)).map (·.2.2))
      (by simp) freshness policy query.limit
    have hsame : List.Forall₂ SameRow ((((rows.map (near dist)).map
        fun m => (m, resolveRecord world m.record)).map fun e =>
          { e.1 with record := { e.1.record with content := e.2.1 } }).map (·.record)) rows := by
      simp only [List.map_map, List.forall₂_map_left_iff, List.forall₂_same]
      exact fun r _ => rfl
    obtain ⟨order, horder, hentries⟩ := entries_sameRow hl htake hsame
    refine ⟨order, horder, ?_⟩
    rw [List.forall₂_map_left_iff]
    exact hentries.imp fun e r h => searchResult_presents h
  · obtain ⟨l, hl, htake⟩ := rankCandidates_entries world none (rows.map (near dist))
      (List.replicate (rows.map (near dist)).length false) (by simp) freshness policy query.limit
    have hsame : List.Forall₂ SameRow ((rows.map (near dist)).map (·.record)) rows := by
      simp only [List.map_map, List.forall₂_map_left_iff, List.forall₂_same]
      exact fun r _ => rfl
    obtain ⟨order, horder, hentries⟩ := entries_sameRow hl htake hsame
    refine ⟨order, horder, ?_⟩
    rw [List.map_map, List.forall₂_map_left_iff]
    exact hentries.imp fun e r h => searchResult_presents (resolveRanked_sameRow h)

/-! ## The whole search -/

inductive Refused (store : DrawerStore V F) (query : SearchQuery) (provider : EmbeddingProvider V) :
    SearchError → Prop where
  | profile (h : provider.profile ≠ query.profile) :
      Refused store query provider (.profileMismatch query.profile provider.profile)
  | blank (h : isBlank query.text = true) : Refused store query provider .blankQuery
  | embedding {e : EmbeddingError} (h : embedQuery query provider = .error e) :
      Refused store query provider (.embeddings e)
  | storage {e : StorageError} (h : store.Fails e) : Refused store query provider (.storage e)

structure Returnable (table : DrawerTable) (query : SearchQuery) (view : String)
    (keep : DrawerRecord → Bool) (rows : List DrawerRecord) : Prop where
  few : rows.length ≤ query.limit
  distinct : (rows.map (·.id)).Nodup
  stored : ∀ r ∈ rows, r ∈ table.rows
  wing : ∀ r ∈ rows, ∀ wing, query.wing = some wing → r.wing = wing
  room : ∀ r ∈ rows, ∀ room, query.room = some room → r.room = room
  inView : ∀ r ∈ rows, r.ingestMode ≠ "projects-branch" ∨ branchPredicate view r = true
  kept : ∀ r ∈ rows, keep r = true
  visible : ∀ r ∈ rows, visible table view r = true

/-- The visible rows that the query matches, closest first. -/
def closestVisible (world : SearchWorld F K) (table : DrawerTable) (query : SearchQuery)
    (view : String) (keep : DrawerRecord → Bool) (dist : DrawerRecord → F) : List DrawerRecord :=
  ((matching table query).filter fun r => visible table view r && keep r).insertionSort
    (RankedBefore world dist)

theorem maxCandidateLimit_le (query : SearchQuery) : maxCandidateLimit query ≤ usizeMax := by
  have := query.limit_fits
  simp only [maxCandidateLimit, saturatingMul, usizeMax]
  omega

theorem initialLimit_bounds (query : SearchQuery) (rerankEnabled : Bool) (freshness : Freshness) :
    query.limit ≤ initialLimit query rerankEnabled freshness ∧
      initialLimit query rerankEnabled freshness ≤ maxCandidateLimit query := by
  have hfits := query.limit_fits
  refine ⟨?_, Nat.min_le_right _ _⟩
  refine Nat.le_min.2 ⟨?_, Nat.le_max_right _ _⟩
  have hbase : query.limit ≤
      if rerankEnabled = true then saturatingMul query.limit 2 else query.limit := by
    split
    · simp only [saturatingMul, usizeMax]
      omega
    · exact Nat.le_refl _
  split
  · exact hbase
  · exact hbase.trans (Nat.le_max_left _ _)

theorem maxCandidateLimit_rounds (query : SearchQuery) (rerankEnabled : Bool)
    (freshness : Freshness) :
    maxCandidateLimit query ≤ initialLimit query rerankEnabled freshness * 2 ^ 4 := by
  have hlow := (initialLimit_bounds query rerankEnabled freshness).1
  have hten : maxCandidateLimit query ≤ query.limit * 10 := by
    simp only [maxCandidateLimit, saturatingMul]
    omega
  omega

theorem initialLimit_semantic (query : SearchQuery) :
    initialLimit query false .relevant = query.limit := by
  have := query.limit_fits
  simp only [initialLimit, maxCandidateLimit, saturatingMul, Bool.false_eq_true, reduceIte]
  omega

theorem matching_nodup (table : DrawerTable) (query : SearchQuery) : (matching table query).Nodup :=
  table.nodup.filter _

theorem stopped_closest {world : SearchWorld F K} {keep : DrawerRecord → Bool}
    {dist : DrawerRecord → F} {kept : List (DrawerMatch F)} {w : List DrawerRecord} {c : Nat}
    (hlimit : 0 < query.limit)
    (h : Stopped table query (fun r => visible table view r && keep r) dist
      (maxCandidateLimit query) query.limit kept w c)
    (hhidden : (closeHidden dist (matching table query) (fun r => visible table view r && keep r)
      (closestVisible world table query view keep dist) query.limit).length < 9 * query.limit) :
    ((w.filter fun r => visible table view r && keep r).insertionSort (RankedBefore world dist)).take
        query.limit =
      (closestVisible world table query view keep dist).take query.limit := by
  classical
  have hle : Ranks dist (matching table query) (RankedBefore world dist) :=
    ranks world dist fun a ha b hb =>
      table.id_inj (List.mem_filter.1 ha).1 (List.mem_filter.1 hb).1
  refine h.window.take_sort (matching_nodup table query) hle ?_
  by_cases hshort : w.length < c
  · exact .inr (h.window.full hshort)
  · refine .inl (h.stops.elim id fun hstops => ?_)
    have hc : c = maxCandidateLimit query := hstops.resolve_left hshort
    have hfits : w.length < 2 ^ 63 := by
      refine lt_of_le_of_lt ?_ table.fits
      exact ((List.subperm_of_subset h.window.nodup h.window.sub).length_le).trans
        (List.length_filter_le _ _)
    refine h.window.enough (matching_nodup table query) hle hlimit (m := 9 * query.limit) ?_ hhidden
    have hten : c = query.limit * 10 := by
      rw [hc] at hshort ⊢
      simp only [maxCandidateLimit, saturatingMul, usizeMax] at hshort ⊢
      omega
    omega

theorem rankMatches_closest [LinearOrder K] {world : SearchWorld F K} {policy : FreshnessPolicy}
    {keep : DrawerRecord → Bool} {dist : DrawerRecord → F} {kept : List (DrawerMatch F)}
    {w : List DrawerRecord} {c : Nat} (hlimit : 0 < query.limit)
    (h : Stopped table query (fun r => visible table view r && keep r) dist
      (maxCandidateLimit query) query.limit kept w c)
    (hhidden : (closeHidden dist (matching table query) (fun r => visible table view r && keep r)
      (closestVisible world table query view keep dist) query.limit).length < 9 * query.limit) :
    (rankMatches query world policy false .relevant kept).map searchResult =
      ((closestVisible world table query view keep dist).take query.limit).map fun r =>
        searchResult (resolveRanked world (semantic world dist r)) := by
  have hranked := rankCandidates_semantic world dist
    (w.filter fun r => visible table view r && keep r) policy query.limit
  rw [← stopped_closest hlimit h hhidden, h.kept]
  unfold rankMatches
  simp only [Bool.false_eq_true, if_false]
  refine (congrArg (fun l => (l.map (resolveRanked world)).map searchResult) hranked).trans ?_
  rw [List.map_map, List.map_map]
  rfl

theorem rankMatches_returnable [LinearOrder K] {world : SearchWorld F K} {policy : FreshnessPolicy}
    {rerankEnabled : Bool} {freshness : Freshness} {keep : DrawerRecord → Bool}
    (hview : query.view = some view) (hcanonical : view ≠ "canonical") (hfull : view ≠ "full")
    {dist : DrawerRecord → F} {kept : List (DrawerMatch F)} {w : List DrawerRecord}
    {maxLimit target c : Nat}
    (h : Stopped table query (fun r => visible table view r && keep r) dist maxLimit target kept w c) :
    ∃ rows, Returnable table query view keep rows ∧ List.Forall₂ Presents
      ((rankMatches query world policy rerankEnabled freshness kept).map searchResult) rows := by
  obtain ⟨order, horder, hpresents⟩ := rankMatches_presents world query policy rerankEnabled
    freshness dist (w.filter fun r => visible table view r && keep r)
  rw [← h.kept] at hpresents
  refine ⟨order.take query.limit, ?_, hpresents⟩
  have hmem : ∀ r ∈ order.take query.limit, (r ∈ table.rows ∧ (queryFilter query).admits r = true) ∧
      visible table view r = true ∧ keep r = true := by
    intro r hr
    have hw := List.mem_filter.1 (horder.mem_iff.1 (List.mem_of_mem_take hr))
    exact ⟨List.mem_filter.1 (h.window.sub r hw.1), by simpa using hw.2⟩
  have hnodup : (order.take query.limit).Nodup :=
    ((horder.nodup_iff.2 (h.window.nodup.filter _)).sublist (List.take_sublist _ _))
  constructor
  · rw [List.length_take]
    exact Nat.min_le_left _ _
  · refine hnodup.map_on fun a ha b hb hid => ?_
    exact table.id_inj (hmem a ha).1.1 (hmem b hb).1.1 hid
  · exact fun r hr => (hmem r hr).1.1
  · intro r hr wing hwing
    have hall := ((admits_query hview hcanonical hfull r).1 (hmem r hr).1.2).1
    rw [hwing, Option.all_some, beq_iff_eq] at hall
    exact hall.symm
  · intro r hr room hroom
    have hall := ((admits_query hview hcanonical hfull r).1 (hmem r hr).1.2).2.1
    rw [hroom, Option.all_some, beq_iff_eq] at hall
    exact hall.symm
  · exact fun r hr => ((admits_query hview hcanonical hfull r).1 (hmem r hr).1.2).2.2
  · exact fun r hr => (hmem r hr).2.2
  · exact fun r hr => (hmem r hr).2.1

/-- **Searching a branch view is exact**: the search ends; what it returns are
visible rows that the query matches and the caller keeps, at most as many as
asked for; and in the semantic mode they are the closest visible rows, unless
too many rows in between are hidden. -/
theorem search_overlay_exact [LinearOrder K] (world : SearchWorld F K) {store : DrawerStore V F}
    {table : DrawerTable} {dist : V → DrawerRecord → F} (hserves : store.Serves table dist)
    (provider : EmbeddingProvider V) (policy : FreshnessPolicy) (query : SearchQuery) {view : String}
    (hview : query.view = some view) (hcanonical : view ≠ "canonical") (hfull : view ≠ "full")
    (keep : DrawerRecord → Bool) (rerankEnabled : Bool) (freshness : Freshness) :
    ∃ out, (∀ fuel, 5 ≤ fuel →
        searchWith store query keep world provider policy rerankEnabled freshness fuel = some out) ∧
      (∀ e, out = .error e → Refused store query provider e) ∧
      ∀ results, out = .ok results →
        (∃ rows, Returnable table query view keep rows ∧ List.Forall₂ Presents results rows) ∧
        (rerankEnabled = false → freshness = .relevant →
          ∀ embedding, embedQuery query provider = .ok embedding →
            (closeHidden (dist embedding) (matching table query)
              (fun r => visible table view r && keep r)
              (closestVisible world table query view keep (dist embedding))
              query.limit).length < 9 * query.limit →
            results = ((closestVisible world table query view keep (dist embedding)).take
              query.limit).map fun r =>
                searchResult (resolveRanked world (semantic world (dist embedding) r))) := by
  by_cases hprofile : provider.profile ≠ query.profile
  · refine ⟨_, fun fuel _ => if_pos hprofile, ?_, ?_⟩
    · rintro _ ⟨rfl⟩
      exact .profile hprofile
    · rintro _ h
      cases h
  cases hblank : isBlank query.text with
  | true =>
    refine ⟨.error .blankQuery, fun fuel _ => by simp [searchWith, hprofile, hblank], ?_, ?_⟩
    · rintro _ ⟨rfl⟩
      exact .blank hblank
    · rintro _ h
      cases h
  | false =>
    by_cases hzero : query.limit = 0
    · refine ⟨.ok [], fun fuel _ => by simp [searchWith, hprofile, hblank, hzero], ?_, ?_⟩
      · rintro _ h
        cases h
      · rintro _ ⟨rfl⟩
        refine ⟨⟨[], ?_, .nil⟩, fun _ _ _ _ _ => by simp [hzero]⟩
        constructor <;> simp
    · cases hembed : embedQuery query provider with
      | error e =>
        refine ⟨.error (.embeddings e), fun fuel _ => by
          simp [searchWith, hprofile, hblank, hzero, hembed], ?_, ?_⟩
        · rintro _ ⟨rfl⟩
          exact .embedding hembed
        · rintro _ h
          cases h
      | ok embedding =>
        obtain ⟨hlow, hhigh⟩ := initialLimit_bounds query rerankEnabled freshness
        have hmax := maxCandidateLimit_le query
        have hrounds := maxCandidateLimit_rounds query rerankEnabled freshness
        obtain ⟨out, hout, hlast, hfails⟩ := widen_ends store query keep embedding
          (initialLimit query rerankEnabled freshness) hmax (by omega) hhigh hrounds
        cases out with
        | error e =>
          refine ⟨.error (.storage e), fun fuel hfuel => ?_, ?_, ?_⟩
          · simp [searchWith, hprofile, hblank, hzero, hembed, hout fuel (by omega)]
          · rintro _ ⟨rfl⟩
            exact .storage (hfails e rfl)
          · rintro _ h
            cases h
        | ok kept =>
          obtain ⟨c, hc, hle, hround⟩ := hlast kept rfl
          obtain ⟨w, hstopped⟩ := lastRound_stopped hserves hview hcanonical hfull hmax hc hle hround
          refine ⟨.ok ((rankMatches query world policy rerankEnabled freshness kept).map searchResult),
            fun fuel hfuel => ?_, ?_, ?_⟩
          · simp [searchWith, hprofile, hblank, hzero, hembed, hout fuel (by omega)]
          · rintro _ h
            cases h
          · rintro _ ⟨rfl⟩
            refine ⟨rankMatches_returnable hview hcanonical hfull hstopped, ?_⟩
            rintro rfl rfl _ ⟨rfl⟩ hhidden
            rw [initialLimit_semantic] at hstopped
            exact rankMatches_closest (by omega) hstopped hhidden

/-! ### A branch that deletes a file -/

def sampleWorld : SearchWorld Int Int where
  zero := 0
  complement d := 100 - d
  complement_anti h := by omega
  blend base overlap := base * 7 + overlap * 3
  ratio matched terms := matched * 10 / terms
  widen score := score
  add a b := a + b
  noLift := 0
  lift _ _ _ := 0
  isAlphanumeric c := c.isAlphanum
  toLowercase c := [c.toLower]
  hashBytes _ := ""
  readLocatorFile _ _ := none

/-- A row at a distance of the query, which its chunk index is here. -/
def sampleRow (id : DrawerId) (sourceFile ingestMode : String) (distance : Nat)
    (viewMetadata : Option RepositoryViewMetadata) : DrawerRecord where
  id
  wing := ⟨"wing_code"⟩
  room := ⟨"general"⟩
  hall := (viewMetadata.bind (·.viewName)).map viewHall
  sourceFile
  chunkIndex := distance
  ingestMode
  filedAt := ⟨1775088000000000000, 0⟩
  content := []
  contentHash := "a1"
  viewMetadata

def keptId : DrawerId := ⟨"code/general/5d20e7c41f9a-0000", by decide +kernel⟩

def deletedId : DrawerId := ⟨"code/general/77b01c2e94d5-0000", by decide +kernel⟩

def tombstoneId : DrawerId := ⟨"code/general/c0a4e8f21b36-0000", by decide +kernel⟩

/-- The branch deletes `lib.rs`, which is closer to the query than `main.rs`. -/
def sampleTable : DrawerTable where
  rows := [
    sampleRow deletedId "lib.rs" "projects" 10 (some ⟨none, "present"⟩),
    sampleRow keptId "main.rs" "projects" 20 (some ⟨none, "present"⟩),
    sampleRow tombstoneId "lib.rs" "projects-branch" 90 (some ⟨some "feature", "deleted"⟩)]
  distinct := by decide +kernel
  branch := by decide +kernel
  fits := by decide

def sampleDist (_ : Unit) (r : DrawerRecord) : Int := r.chunkIndex

def sampleQuery : SearchQuery where
  text := "entry point"
  wing := none
  room := none
  view := some "feature"
  limit := 1
  limit_fits := by decide
  profile := "balanced"

def sampleProvider : EmbeddingProvider Unit := ⟨"balanced", fun _ => .ok [()]⟩

theorem search_overlay_exact_sample :
    ∃ results, searchWith (tableStore sampleTable sampleDist) sampleQuery (fun _ => true) sampleWorld
        sampleProvider ⟨24, []⟩ false .relevant 5 = some (.ok results) ∧
      results.map (·.drawerId) = [some keptId] := by
  obtain ⟨out, hends, _, hok⟩ := search_overlay_exact sampleWorld
    (tableStore_serves sampleTable sampleDist) sampleProvider ⟨24, []⟩ sampleQuery rfl (by decide)
    (by decide) (fun _ => true) false .relevant
  have hrun := hends 5 (Nat.le_refl 5)
  have hreturns : ((searchWith (tableStore sampleTable sampleDist) sampleQuery (fun _ => true)
      sampleWorld sampleProvider ⟨24, []⟩ false .relevant 5).map Except.isOk) = some true := by
    decide +kernel
  cases out with
  | error e =>
    rw [hrun] at hreturns
    cases hreturns
  | ok results =>
    refine ⟨results, hrun, ?_⟩
    rw [(hok results rfl).2 rfl rfl () (by decide +kernel) (by decide +kernel)]
    decide +kernel

end AgentPalace.Search
