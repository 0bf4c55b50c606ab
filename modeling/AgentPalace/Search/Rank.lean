import AgentPalace.Search.Types
import AgentPalace.Lib.Window
import Mathlib.Data.String.Basic

/-!
# Ranking

`rankCandidates` scores the candidates, lifts the newer ones in the modes that
look at age, sorts and cuts. Its entries are candidates in some order, cut at the
limit (`rankCandidates_entries`). The semantic mode ranks by distance and then by
identity, so two drawers never tie (`ranks`).
-/

namespace AgentPalace.Search

open Ingest (fileName resolveLocator)

variable {F K : Type} [LinearOrder F]

structure RankedMatch (F K : Type) where
  score : F
  rankKey : K
  distance : Option F
  record : DrawerRecord
  stale : Bool

def sourceLabel (sourceFile : String) : List Char :=
  (fileName sourceFile.toList).getD sourceFile.toList

def isMinedIngestMode (ingestMode : String) : Bool :=
  ["projects", "projects-branch", "convos"].contains ingestMode

def FreshnessPolicy.isLiftEligible (policy : FreshnessPolicy) (r : DrawerRecord) : Bool :=
  !(isMinedIngestMode r.ingestMode || r.locator.isSome || r.ingestMode == "diary" ||
    r.room.str == "diary" || r.wing.str == sharedAgentDiaryWing ||
    policy.noLiftRooms.contains (r.wing.str, r.room.str))

/-! ## Scores -/

section
variable (world : SearchWorld F K)

def normalizeScore (distance : Option F) : F := (distance.map world.complement).getD world.zero

def normalizedTerms (value : List Char) : List (List Char) :=
  ((value.splitOnP fun c => !world.isAlphanumeric c).filter (· ≠ [])).map
    fun term => term.flatMap world.toLowercase

def lexicalOverlapScore (queryTerms : List (List Char)) (content : List Char) : F :=
  if queryTerms = [] then world.zero
  else world.ratio (queryTerms.filter (normalizedTerms world content).contains).length
    queryTerms.length

def scored (queryTerms : Option (List (List Char))) (m : DrawerMatch F) (stale : Bool) :
    RankedMatch F K :=
  let baseScore := normalizeScore world m.distance
  let score := match queryTerms with
    | some terms => world.blend baseScore (lexicalOverlapScore world terms m.record.content)
    | none => baseScore
  ⟨score, world.widen score, m.distance, m.record, stale⟩

def freshnessGroup (r : DrawerRecord) : String × String × String :=
  (r.wing.str, r.room.str, r.sourceFile)

/-- The newest lift-eligible drawer of each group. -/
def newestIn (policy : FreshnessPolicy) (ranked : List (RankedMatch F K))
    (group : String × String × String) : Option Int :=
  ((ranked.filter fun e => policy.isLiftEligible e.record && freshnessGroup e.record == group).map
    fun e => e.record.filedAt.nanos).max?

def applyFreshnessLift (freshness : Freshness) (policy : FreshnessPolicy)
    (ranked : List (RankedMatch F K)) : List (RankedMatch F K) :=
  ranked.map fun e =>
    let lift :=
      if policy.isLiftEligible e.record then
        match newestIn policy ranked (freshnessGroup e.record) with
        | some newest =>
          world.lift freshness (max policy.halfLifeHours 1) (newest - e.record.filedAt.nanos).toNat
        | none => world.noLift
      else world.noLift
    { e with rankKey := world.add (world.widen e.score) lift }

end

/-! ## The order -/

def compareDistance : Option F → Option F → Ordering
  | some l, some r => compare l r
  | some _, none => .lt
  | none, some _ => .gt
  | none, none => .eq

def compareIdentity (l r : DrawerRecord) : Ordering :=
  (compare l.wing.str r.wing.str).then <| (compare l.room.str r.room.str).then <|
    (compare (String.ofList (sourceLabel l.sourceFile))
      (String.ofList (sourceLabel r.sourceFile))).then <|
    (compare l.chunkIndex r.chunkIndex).then (compare l.id.str r.id.str)

def compareRankedMatches (l r : RankedMatch F K) : Ordering :=
  (compare r.score l.score).then <| (compareDistance l.distance r.distance).then <|
    compareIdentity l.record r.record

def compareFreshRankedMatches [LinearOrder K] (l r : RankedMatch F K) : Ordering :=
  (compare r.rankKey l.rankKey).then <| (compare r.score l.score).then <|
    (compareDistance l.distance r.distance).then <|
    (compare r.record.filedAt.nanos l.record.filedAt.nanos).then <|
    compareIdentity l.record r.record

/-- `sort_by`, which is stable. -/
def sortBy {α : Type} (cmp : α → α → Ordering) (l : List α) : List α :=
  l.insertionSort fun a b => (cmp a b).isLE

def rankCandidates [LinearOrder K] (world : SearchWorld F K) (rerankQuery : Option String)
    (candidates : List (DrawerMatch F)) (staleFlags : List Bool) (freshness : Freshness)
    (policy : FreshnessPolicy) (limit : Nat) : List (RankedMatch F K) :=
  let queryTerms := rerankQuery.map fun text => normalizedTerms world text.toList
  let ranked := (candidates.zip staleFlags).map fun e => scored world queryTerms e.1 e.2
  let ranked :=
    if freshness ≠ .relevant then
      sortBy compareFreshRankedMatches (applyFreshnessLift world freshness policy ranked)
    else sortBy compareRankedMatches ranked
  ranked.take limit

/-! ## What ranking keeps -/

section
variable {world : SearchWorld F K}

theorem map_record_scored {queryTerms : Option (List (List Char))} {candidates : List (DrawerMatch F)}
    {flags : List Bool} (h : flags.length = candidates.length) :
    ((candidates.zip flags).map fun e => (scored world queryTerms e.1 e.2).record) =
      candidates.map (·.record) := by
  have hfst : ((candidates.zip flags).map fun e => (scored world queryTerms e.1 e.2).record) =
      ((candidates.zip flags).map (·.1)).map (·.record) := by
    rw [List.map_map]
    rfl
  rw [hfst, List.map_fst_zip (by omega)]

theorem map_record_lift (world : SearchWorld F K) (freshness : Freshness) (policy : FreshnessPolicy)
    (ranked : List (RankedMatch F K)) :
    (applyFreshnessLift world freshness policy ranked).map (·.record) = ranked.map (·.record) := by
  simp [applyFreshnessLift, Function.comp_def]

/-- The entries are the candidates in some order, cut at the limit. -/
theorem rankCandidates_entries [LinearOrder K] (world : SearchWorld F K)
    (rerankQuery : Option String) (candidates : List (DrawerMatch F)) (flags : List Bool)
    (h : flags.length = candidates.length) (freshness : Freshness) (policy : FreshnessPolicy)
    (limit : Nat) :
    ∃ rows : List DrawerRecord, rows.Perm (candidates.map (·.record)) ∧
      (rankCandidates world rerankQuery candidates flags freshness policy limit).map (·.record) =
        rows.take limit := by
  unfold rankCandidates
  set queryTerms := rerankQuery.map fun text => normalizedTerms world text.toList with hterms
  set ranked := (candidates.zip flags).map fun e => scored world queryTerms e.1 e.2 with hranked
  have hrecords : ranked.map (·.record) = candidates.map (·.record) := by
    rw [hranked, List.map_map]
    exact map_record_scored h
  simp only [List.map_take]
  split
  · refine ⟨_, ?_, rfl⟩
    rw [← hrecords, ← map_record_lift world freshness policy ranked]
    exact (List.perm_insertionSort _ _).map _
  · refine ⟨_, ?_, rfl⟩
    rw [← hrecords]
    exact (List.perm_insertionSort _ _).map _

/-! ## The semantic order -/

def semantic (world : SearchWorld F K) (dist : DrawerRecord → F) (r : DrawerRecord) :
    RankedMatch F K :=
  scored world none ⟨r, some (dist r)⟩ false

def RankedBefore (world : SearchWorld F K) (dist : DrawerRecord → F) (a b : DrawerRecord) : Prop :=
  (compareRankedMatches (semantic world dist a) (semantic world dist b)).isLE = true

instance (world : SearchWorld F K) (dist : DrawerRecord → F) :
    DecidableRel (RankedBefore world dist) :=
  fun _ _ => inferInstanceAs (Decidable (_ = true))

def rankCmp (world : SearchWorld F K) (dist : DrawerRecord → F) :
    DrawerRecord → DrawerRecord → Ordering :=
  compareLex (fun a b => compareOn (fun r => world.complement (dist r)) b a) <|
    compareLex (compareOn dist) <|
    compareLex (compareOn (·.wing.str)) <| compareLex (compareOn (·.room.str)) <|
    compareLex (compareOn fun r => String.ofList (sourceLabel r.sourceFile)) <|
    compareLex (compareOn (·.chunkIndex)) (compareOn (·.id.str))

instance (dist : DrawerRecord → F) : Std.TransCmp (rankCmp world dist) := by
  unfold rankCmp
  have hscore : Std.TransCmp fun a b : DrawerRecord =>
      compareOn (fun r => world.complement (dist r)) b a := Std.TransCmp.opposite
  infer_instance

theorem rankedBefore_iff (dist : DrawerRecord → F) (a b : DrawerRecord) :
    RankedBefore world dist a b ↔ (rankCmp world dist a b).isLE = true := Iff.rfl

/-- The semantic order puts nearer drawers first, and no two drawers tie. -/
theorem ranks (world : SearchWorld F K) (dist : DrawerRecord → F) {rows : List DrawerRecord}
    (hid : ∀ a ∈ rows, ∀ b ∈ rows, a.id = b.id → a = b) :
    Ranks dist rows (RankedBefore world dist) where
  total a b := by
    have hswap : rankCmp world dist b a = (rankCmp world dist a b).swap := Std.OrientedCmp.eq_swap
    rw [rankedBefore_iff, rankedBefore_iff, hswap]
    cases rankCmp world dist a b <;> decide
  trans a b c hab hbc := by
    rw [rankedBefore_iff] at hab hbc ⊢
    exact Std.TransCmp.isLE_trans hab hbc
  antisymm a ha b hb hab hba := by
    have heq : rankCmp world dist a b = .eq := Std.OrientedCmp.isLE_antisymm hab hba
    simp only [rankCmp, compareLex, Ordering.then_eq_eq, compareOn, Std.compare_eq_iff_eq] at heq
    obtain ⟨_, _, _, _, _, _, hids⟩ := heq
    refine hid a ha b hb ?_
    cases ha' : a.id
    cases hb' : b.id
    simp_all
  near a b h := by
    rw [rankedBefore_iff, ← Ordering.ne_gt_iff_isLE]
    have hscore : compare (world.complement (dist b)) (world.complement (dist a)) ≠ .gt :=
      compare_le_iff_le.2 (world.complement_anti h.le)
    have hdist : compare (dist a) (dist b) = .lt := compare_lt_iff_lt.2 h
    simp only [rankCmp, compareLex, compareOn, hdist]
    revert hscore
    cases compare (world.complement (dist b)) (world.complement (dist a)) <;> simp

theorem rankCandidates_semantic [LinearOrder K] (world : SearchWorld F K)
    (dist : DrawerRecord → F) (rows : List DrawerRecord) (policy : FreshnessPolicy) (limit : Nat) :
    rankCandidates world none (rows.map fun r => ⟨r, some (dist r)⟩)
        (List.replicate (rows.map fun r => (⟨r, some (dist r)⟩ : DrawerMatch F)).length false)
        .relevant policy limit =
      ((rows.insertionSort (RankedBefore world dist)).take limit).map (semantic world dist) := by
  have hscored : (((rows.map fun r => (⟨r, some (dist r)⟩ : DrawerMatch F)).zip
      (List.replicate (rows.map fun r => (⟨r, some (dist r)⟩ : DrawerMatch F)).length false)).map
      fun e => scored world none e.1 e.2) = rows.map (semantic world dist) := by
    induction rows with
    | nil => rfl
    | cons r rows ih =>
      simp only [List.map_cons, List.length_cons, List.replicate_succ, List.zip_cons_cons]
      exact congrArg _ ih
  unfold rankCandidates
  simp only [Option.map_none, hscored, ne_eq, not_true_eq_false, if_false, sortBy, List.map_take]
  rw [List.map_insertionSort (RankedBefore world dist)
    (fun a b => (compareRankedMatches a b).isLE = true) (semantic world dist) rows
    fun a _ b _ => Iff.rfl]

end

end AgentPalace.Search
