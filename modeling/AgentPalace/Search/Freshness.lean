import AgentPalace.Lib.SortBy
import AgentPalace.Search.Rank
import Mathlib.Analysis.SpecialFunctions.Pow.Real

/-!
# Freshness ranking

Ranking over exact real numbers. The lift of a drawer is between 0 and the weight
of the mode and depends on its age within its group alone, so a drawer passes
another only if it is at most the weight less similar, and the order of the
candidates that come in plays no part (`rank_fresh`).
-/

namespace AgentPalace.Search

noncomputable def Freshness.weight : Freshness → ℝ
  | .relevant => 0
  | .balanced => 1 / 20
  | .recent => 1 / 5

/-- `weight * 2^(-age / half_life)`, of hours and nanoseconds. -/
noncomputable def exactLift (freshness : Freshness) (halfLifeHours ageNanos : Nat) : ℝ :=
  freshness.weight * (2 : ℝ) ^ (-((ageNanos : ℝ) / 1000000000) / (halfLifeHours * 3600))

noncomputable def exactWorld (isAlphanumeric : Char → Bool) (toLowercase : Char → List Char)
    (hashBytes : List UInt8 → String) (readLocatorFile : String → String → Option (List UInt8)) :
    SearchWorld ℝ ℝ where
  zero := 0
  complement x := 1 - x
  complement_anti h := sub_le_sub_left h 1
  blend base overlap := base * (7 / 10) + overlap * (3 / 10)
  ratio matched terms := matched / terms
  widen := id
  add := (· + ·)
  noLift := 0
  lift := exactLift
  isAlphanumeric := isAlphanumeric
  toLowercase := toLowercase
  hashBytes := hashBytes
  readLocatorFile := readLocatorFile

theorem Freshness.weight_nonneg (freshness : Freshness) : 0 ≤ freshness.weight := by
  cases freshness <;> norm_num [weight]

theorem exactLift_bounds (freshness : Freshness) (hours age : Nat) :
    0 ≤ exactLift freshness hours age ∧ exactLift freshness hours age ≤ freshness.weight := by
  have hpos : (0 : ℝ) < (2 : ℝ) ^ (-((age : ℝ) / 1000000000) / (hours * 3600)) :=
    Real.rpow_pos_of_pos (by norm_num) _
  have hexponent : -((age : ℝ) / 1000000000) / (hours * 3600) ≤ 0 :=
    div_nonpos_of_nonpos_of_nonneg (neg_nonpos.2 (by positivity)) (by positivity)
  have hle : (2 : ℝ) ^ (-((age : ℝ) / 1000000000) / (hours * 3600)) ≤ 1 :=
    Real.rpow_le_one_of_one_le_of_nonpos (by norm_num) hexponent
  exact ⟨mul_nonneg freshness.weight_nonneg hpos.le,
    mul_le_of_le_one_right freshness.weight_nonneg hle⟩

/-! ## The comparators -/

section
variable {F K : Type} [LinearOrder F]

def distanceKey (distance : Option F) : WithTop F := distance

theorem compareDistance_eq : (compareDistance : Option F → Option F → Ordering) =
    compareOn distanceKey := by
  funext l r
  unfold compareOn
  cases l with
  | none =>
    cases r with
    | none => exact (compare_eq_iff_eq.2 rfl).symm
    | some b => exact (compare_gt_iff_gt.2 (WithTop.coe_lt_top b)).symm
  | some a =>
    cases r with
    | none => exact (compare_lt_iff_lt.2 (WithTop.coe_lt_top a)).symm
    | some b =>
      rcases lt_trichotomy a b with hlt | rfl | hgt
      · exact (compare_lt_iff_lt.2 hlt).trans
          (compare_lt_iff_lt.2 (WithTop.coe_lt_coe.2 hlt)).symm
      · exact (compare_eq_iff_eq.2 rfl).trans (compare_eq_iff_eq.2 rfl).symm
      · exact (compare_gt_iff_gt.2 hgt).trans
          (compare_gt_iff_gt.2 (WithTop.coe_lt_coe.2 hgt)).symm

instance : Std.TransCmp (compareDistance : Option F → Option F → Ordering) := by
  rw [compareDistance_eq]
  infer_instance

theorem compareIdentity_eq : compareIdentity =
    compareLex (compareOn (·.wing.str)) (compareLex (compareOn (·.room.str)) <|
      compareLex (compareOn fun r => String.ofList (sourceLabel r.sourceFile)) <|
      compareLex (compareOn (·.chunkIndex)) (compareOn (·.id.str))) := rfl

instance : Std.TransCmp compareIdentity := by
  rw [compareIdentity_eq]
  infer_instance

theorem compareIdentity_id {a b : DrawerRecord} (h : compareIdentity a b = .eq) : a.id = b.id := by
  simp only [compareIdentity, Ordering.then_eq_eq, Std.compare_eq_iff_eq] at h
  cases ha : a.id
  cases hb : b.id
  simp_all

theorem compareRankedMatches_eq : (compareRankedMatches : RankedMatch F K → _ → _) =
    compareLex (fun a b => compareOn (·.score) b a) (compareLex
      (fun a b => compareDistance a.distance b.distance)
      fun a b => compareIdentity a.record b.record) := rfl

theorem compareFreshRankedMatches_eq [LinearOrder K] :
    (compareFreshRankedMatches : RankedMatch F K → _ → _) =
      compareLex (fun a b => compareOn (·.rankKey) b a) (compareLex
      (fun a b => compareOn (·.score) b a) <| compareLex
      (fun a b => compareDistance a.distance b.distance) <| compareLex
      (fun a b => compareOn (·.record.filedAt.nanos) b a)
      fun a b => compareIdentity a.record b.record) := rfl

instance transCmp_comap {α β : Type} (f : α → β) (cmp : β → β → Ordering) [Std.TransCmp cmp] :
    Std.TransCmp fun a b => cmp (f a) (f b) where
  eq_swap := Std.OrientedCmp.eq_swap
  isLE_trans := Std.TransCmp.isLE_trans

instance : Std.TransCmp (compareRankedMatches : RankedMatch F K → _ → _) := by
  rw [compareRankedMatches_eq]
  have hscore : Std.TransCmp fun a b : RankedMatch F K => compareOn (·.score) b a :=
    Std.TransCmp.opposite
  infer_instance

instance [LinearOrder K] : Std.TransCmp (compareFreshRankedMatches : RankedMatch F K → _ → _) := by
  rw [compareFreshRankedMatches_eq]
  have hkey : Std.TransCmp fun a b : RankedMatch F K => compareOn (·.rankKey) b a :=
    Std.TransCmp.opposite
  have hscore : Std.TransCmp fun a b : RankedMatch F K => compareOn (·.score) b a :=
    Std.TransCmp.opposite
  have hfiled : Std.TransCmp fun a b : RankedMatch F K =>
      compareOn (·.record.filedAt.nanos) b a := Std.TransCmp.opposite
  infer_instance

theorem compareRankedMatches_id {a b : RankedMatch F K} (h : compareRankedMatches a b = .eq) :
    a.record.id = b.record.id := by
  simp only [compareRankedMatches, Ordering.then_eq_eq] at h
  exact compareIdentity_id h.2.2

theorem compareFreshRankedMatches_id [LinearOrder K] {a b : RankedMatch F K}
    (h : compareFreshRankedMatches a b = .eq) : a.record.id = b.record.id := by
  simp only [compareFreshRankedMatches, Ordering.then_eq_eq] at h
  exact compareIdentity_id h.2.2.2.2

end

/-! ## The ranked candidates -/

theorem max?_perm {l l' : List Int} (h : l.Perm l') : l.max? = l'.max? := by
  refine Option.ext fun a => ?_
  simp only [List.max?_eq_some_iff, h.mem_iff]

theorem max?_map_add (shift : Int) (l : List Int) :
    (l.map (· + shift)).max? = l.max?.map (· + shift) := by
  induction l with
  | nil => rfl
  | cons x l ih =>
    rw [List.map_cons, List.max?_cons, List.max?_cons, ih]
    cases l.max? with
    | none => rfl
    | some y => exact congrArg some (max_add_add_right x y shift)

section
variable (world : SearchWorld ℝ ℝ) (queryTerms : Option (List (List Char)))
  (freshness : Freshness) (policy : FreshnessPolicy)

/-- An entry with its key, of the newest drawer of each group. -/
noncomputable def keyed (newest : String × String × String → Option Int) (e : RankedMatch ℝ ℝ) :
    RankedMatch ℝ ℝ :=
  if freshness ≠ .relevant then
    let lift :=
      if policy.isLiftEligible e.record then
        match newest (freshnessGroup e.record) with
        | some newest =>
          world.lift freshness (max policy.halfLifeHours 1) (newest - e.record.filedAt.nanos).toNat
        | none => world.noLift
      else world.noLift
    { e with rankKey := world.add (world.widen e.score) lift }
  else e

noncomputable def scoredPairs (pairs : List (DrawerMatch ℝ × Bool)) : List (RankedMatch ℝ ℝ) :=
  pairs.map fun e => scored world queryTerms e.1 e.2

noncomputable def keyedPairs (pairs : List (DrawerMatch ℝ × Bool)) : List (RankedMatch ℝ ℝ) :=
  (scoredPairs world queryTerms pairs).map
    (keyed world freshness policy (newestIn policy (scoredPairs world queryTerms pairs)))

noncomputable def Freshness.cmp (l r : RankedMatch ℝ ℝ) : Ordering :=
  if freshness ≠ .relevant then compareFreshRankedMatches l r else compareRankedMatches l r

instance : Std.TransCmp freshness.cmp := by
  have hcases : freshness.cmp = compareFreshRankedMatches ∨
      freshness.cmp = compareRankedMatches := by
    by_cases h : freshness = .relevant
    · exact .inr (funext fun l => funext fun r => if_neg (not_not.2 h))
    · exact .inl (funext fun l => funext fun r => if_pos h)
  obtain h | h := hcases <;> rw [h] <;> infer_instance

theorem Freshness.cmp_id {a b : RankedMatch ℝ ℝ} (h : freshness.cmp a b = .eq) :
    a.record.id = b.record.id := by
  unfold Freshness.cmp at h
  split at h
  · exact compareFreshRankedMatches_id h
  · exact compareRankedMatches_id h

end

section
variable {world : SearchWorld ℝ ℝ} {queryTerms : Option (List (List Char))}
  {freshness : Freshness} {policy : FreshnessPolicy} {pairs pairs' : List (DrawerMatch ℝ × Bool)}

/-- Ranking keys the candidates, sorts them and cuts. -/
theorem rankCandidates_eq (world : SearchWorld ℝ ℝ) (rerankQuery : Option String)
    (pairs : List (DrawerMatch ℝ × Bool)) (freshness : Freshness) (policy : FreshnessPolicy)
    (limit : Nat) :
    rankCandidates world rerankQuery (pairs.map (·.1)) (pairs.map (·.2)) freshness policy limit =
      ((keyedPairs world (rerankQuery.map fun text => normalizedTerms world text.toList) freshness
        policy pairs).insertionSort (CmpLE freshness.cmp)).take limit := by
  have hzip : (pairs.map (·.1)).zip (pairs.map (·.2)) = pairs := by
    rw [List.zip_map', List.map_id']
  unfold rankCandidates
  simp only [hzip]
  by_cases h : freshness = .relevant
  · have hkeyed : keyedPairs world (rerankQuery.map fun text => normalizedTerms world text.toList)
        freshness policy pairs = scoredPairs world (rerankQuery.map fun text =>
          normalizedTerms world text.toList) pairs := by
      have hid : keyed world freshness policy (newestIn policy (scoredPairs world
          (rerankQuery.map fun text => normalizedTerms world text.toList) pairs)) = id :=
        funext fun e => if_neg (not_not.2 h)
      rw [keyedPairs, hid, List.map_id]
    have hcmp : freshness.cmp = compareRankedMatches :=
      funext fun l => funext fun r => if_neg (not_not.2 h)
    rw [if_neg (not_not.2 h), hkeyed, hcmp]
    rfl
  · have hkeyed : keyedPairs world (rerankQuery.map fun text => normalizedTerms world text.toList)
        freshness policy pairs = applyFreshnessLift world freshness policy (scoredPairs world
          (rerankQuery.map fun text => normalizedTerms world text.toList) pairs) :=
      List.map_congr_left fun e _ => if_pos h
    have hcmp : freshness.cmp = compareFreshRankedMatches :=
      funext fun l => funext fun r => if_pos h
    rw [if_pos h, hkeyed, hcmp]
    rfl

@[simp] theorem keyed_record (newest : String × String × String → Option Int)
    (e : RankedMatch ℝ ℝ) : (keyed world freshness policy newest e).record = e.record := by
  unfold keyed
  split <;> rfl

theorem newestIn_perm {ranked ranked' : List (RankedMatch ℝ ℝ)} (h : ranked.Perm ranked') :
    newestIn policy ranked = newestIn policy ranked' := by
  funext group
  exact max?_perm ((h.filter _).map _)

theorem keyedPairs_perm (h : pairs.Perm pairs') :
    (keyedPairs world queryTerms freshness policy pairs).Perm
      (keyedPairs world queryTerms freshness policy pairs') := by
  have hscored : (scoredPairs world queryTerms pairs).Perm (scoredPairs world queryTerms pairs') :=
    h.map _
  unfold keyedPairs
  rw [newestIn_perm hscored]
  exact hscored.map _

def DistinctIds (pairs : List (DrawerMatch ℝ × Bool)) : Prop :=
  (pairs.map (·.1.record.id)).Nodup

theorem keyedPairs_untied (h : DistinctIds pairs) :
    Untied (CmpLE freshness.cmp) (keyedPairs world queryTerms freshness policy pairs) := by
  intro a ha b hb hab hba
  have hids := freshness.cmp_id (hab.eq hba)
  obtain ⟨x, hx, rfl⟩ := List.mem_map.1 ha
  obtain ⟨y, hy, rfl⟩ := List.mem_map.1 hb
  obtain ⟨p, hp, rfl⟩ := List.mem_map.1 hx
  obtain ⟨q, hq, rfl⟩ := List.mem_map.1 hy
  rw [List.inj_on_of_nodup_map h hp hq (by simpa [scored] using hids)]

/-! ## Scores -/

theorem keyed_score (newest : String × String × String → Option Int) (e : RankedMatch ℝ ℝ) :
    (keyed world freshness policy newest e).score = e.score := by
  unfold keyed
  split <;> rfl

/-- In the modes that look at age a key is at least the score, and exceeds it by
no more than the weight. -/
theorem keyed_bounds {isAlphanumeric : Char → Bool} {toLowercase : Char → List Char}
    {hashBytes : List UInt8 → String} {readLocatorFile : String → String → Option (List UInt8)}
    (h : freshness ≠ .relevant) (newest : String × String × String → Option Int)
    (e : RankedMatch ℝ ℝ) :
    e.score ≤ (keyed (exactWorld isAlphanumeric toLowercase hashBytes readLocatorFile) freshness
        policy newest e).rankKey ∧
      (keyed (exactWorld isAlphanumeric toLowercase hashBytes readLocatorFile) freshness
        policy newest e).rankKey ≤ e.score + freshness.weight := by
  have hno : e.score ≤ e.score + 0 ∧ e.score + 0 ≤ e.score + freshness.weight :=
    ⟨by simp, add_le_add_right freshness.weight_nonneg _⟩
  unfold keyed
  rw [if_pos h]
  dsimp only
  split
  · split
    · have hlift := exactLift_bounds freshness (max policy.halfLifeHours 1)
      exact ⟨le_add_of_nonneg_right (hlift _).1, add_le_add_right (hlift _).2 _⟩
    · exact hno
  · exact hno

theorem score_of_cmp {a b : RankedMatch ℝ ℝ} (h : CmpLE freshness.cmp a b) :
    if freshness = .relevant then b.score ≤ a.score else b.rankKey ≤ a.rankKey := by
  have hfirst : ∀ {o o' : Ordering}, (o.then o').isLE = true → o ≠ .gt := by
    intro o o' ho
    cases o <;> simp_all
  unfold CmpLE Freshness.cmp at h
  split
  · rename_i hmode
    rw [if_neg (not_not.2 hmode)] at h
    exact compare_le_iff_le.1 (hfirst h)
  · rename_i hmode
    rw [if_pos hmode] at h
    exact compare_le_iff_le.1 (hfirst h)

theorem score_le_of_cmp {isAlphanumeric : Char → Bool} {toLowercase : Char → List Char}
    {hashBytes : List UInt8 → String} {readLocatorFile : String → String → Option (List UInt8)}
    {newest : String × String × String → Option Int} {a b : RankedMatch ℝ ℝ}
    (h : CmpLE freshness.cmp
      (keyed (exactWorld isAlphanumeric toLowercase hashBytes readLocatorFile) freshness policy
        newest a)
      (keyed (exactWorld isAlphanumeric toLowercase hashBytes readLocatorFile) freshness policy
        newest b)) : b.score ≤ a.score + freshness.weight := by
  have hkeys := score_of_cmp h
  rw [keyed_score, keyed_score] at hkeys
  split at hkeys
  · exact hkeys.trans (le_add_of_nonneg_right freshness.weight_nonneg)
  · rename_i hmode
    calc b.score
        ≤ _ := (keyed_bounds hmode newest b).1
      _ ≤ _ := hkeys
      _ ≤ a.score + freshness.weight := (keyed_bounds hmode newest a).2

/-! ## Dates -/

def redated (filedAt : DrawerRecord → OffsetDateTime) (p : DrawerMatch ℝ × Bool) :
    DrawerMatch ℝ × Bool :=
  ({ p.1 with record := { p.1.record with filedAt := filedAt p.1.record } }, p.2)

noncomputable def RankedMatch.redated (filedAt : DrawerRecord → OffsetDateTime)
    (e : RankedMatch ℝ ℝ) : RankedMatch ℝ ℝ :=
  { e with record := { e.record with filedAt := filedAt e.record } }

theorem scoredPairs_redated (filedAt : DrawerRecord → OffsetDateTime) :
    scoredPairs world queryTerms (pairs.map (redated filedAt)) =
      (scoredPairs world queryTerms pairs).map (RankedMatch.redated filedAt) := by
  simp only [scoredPairs, List.map_map]
  rfl

theorem keyedPairs_relevant_redated (filedAt : DrawerRecord → OffsetDateTime) :
    keyedPairs world queryTerms .relevant policy (pairs.map (redated filedAt)) =
      (keyedPairs world queryTerms .relevant policy pairs).map (RankedMatch.redated filedAt) := by
  have hkeyed : ∀ newest, keyed world .relevant policy newest = id := fun _ => rfl
  simp only [keyedPairs, hkeyed, List.map_id, scoredPairs_redated]

theorem relevant_cmp_redated (filedAt : DrawerRecord → OffsetDateTime) (a b : RankedMatch ℝ ℝ) :
    CmpLE Freshness.relevant.cmp a b ↔
      CmpLE Freshness.relevant.cmp (a.redated filedAt) (b.redated filedAt) := Iff.rfl

/-- The drawers of a group, filed later by a common amount. -/
def shiftedAt (group : String × String × String) (shift : Int) (r : DrawerRecord) :
    OffsetDateTime :=
  if freshnessGroup r = group then { r.filedAt with nanos := r.filedAt.nanos + shift }
  else r.filedAt

theorem newestIn_shifted (group : String × String × String) (shift : Int)
    (ranked : List (RankedMatch ℝ ℝ)) (g : String × String × String) :
    newestIn policy (ranked.map (RankedMatch.redated (shiftedAt group shift))) g =
      (newestIn policy ranked g).map (· + if g = group then shift else 0) := by
  unfold newestIn
  rw [List.filter_map, List.map_map, ← max?_map_add, List.map_map]
  refine congrArg List.max? (List.map_congr_left fun e he => ?_)
  have hgroup : freshnessGroup e.record = g := by
    have := (List.mem_filter.1 he).2
    simp only [Function.comp_apply, Bool.and_eq_true, beq_iff_eq] at this
    exact this.2
  simp only [Function.comp_apply, RankedMatch.redated, shiftedAt, hgroup]
  split <;> simp

/-- The key of an entry is that of the shifted entry. -/
theorem keyed_shifted (group : String × String × String) (shift : Int)
    (ranked : List (RankedMatch ℝ ℝ)) (e : RankedMatch ℝ ℝ) :
    (keyed world freshness policy (newestIn policy (ranked.map (RankedMatch.redated
        (shiftedAt group shift)))) (e.redated (shiftedAt group shift))).rankKey =
      (keyed world freshness policy (newestIn policy ranked) e).rankKey := by
  unfold keyed
  split
  · have heligible : policy.isLiftEligible (e.redated (shiftedAt group shift)).record =
        policy.isLiftEligible e.record := rfl
    have hgroup : freshnessGroup (e.redated (shiftedAt group shift)).record =
        freshnessGroup e.record := rfl
    dsimp only
    rw [heligible, hgroup, newestIn_shifted]
    have hage : ∀ newest : Int, (newest + if freshnessGroup e.record = group then shift else 0) -
        (e.redated (shiftedAt group shift)).record.filedAt.nanos =
          newest - e.record.filedAt.nanos := by
      intro newest
      simp only [RankedMatch.redated, shiftedAt]
      split <;> simp
    cases newestIn policy ranked (freshnessGroup e.record) with
    | none => rfl
    | some newest =>
      simp only [Option.map_some, hage]
      rfl
  · rfl

theorem rankKey_shifted (hids : DistinctIds pairs) (group : String × String × String) (shift : Int)
    {e e' : RankedMatch ℝ ℝ} (he : e ∈ keyedPairs world queryTerms freshness policy pairs)
    (he' : e' ∈ keyedPairs world queryTerms freshness policy
      (pairs.map (redated (shiftedAt group shift)))) (heq : e'.record.id = e.record.id) :
    e'.rankKey = e.rankKey := by
  obtain ⟨s, hs, rfl⟩ := List.mem_map.1 he
  obtain ⟨s', hs', rfl⟩ := List.mem_map.1 he'
  rw [scoredPairs_redated] at hs' ⊢
  obtain ⟨t, ht, rfl⟩ := List.mem_map.1 hs'
  obtain ⟨p, hp, rfl⟩ := List.mem_map.1 hs
  obtain ⟨q, hq, rfl⟩ := List.mem_map.1 ht
  rw [keyed_record, keyed_record] at heq
  rw [keyed_shifted, List.inj_on_of_nodup_map hids hq hp heq]

/-! ## A candidate that is not lifted -/

theorem newestIn_cons {e : RankedMatch ℝ ℝ} (h : policy.isLiftEligible e.record = false)
    (ranked : List (RankedMatch ℝ ℝ)) : newestIn policy (e :: ranked) = newestIn policy ranked := by
  funext group
  unfold newestIn
  rw [List.filter_cons_of_neg (by simp [h])]

theorem keyedPairs_cons {x : DrawerMatch ℝ × Bool}
    (h : policy.isLiftEligible x.1.record = false) (pairs : List (DrawerMatch ℝ × Bool)) :
    ∃ e, e.record = x.1.record ∧ keyedPairs world queryTerms freshness policy (x :: pairs) =
      e :: keyedPairs world queryTerms freshness policy pairs := by
  have hcons : scoredPairs world queryTerms (x :: pairs) =
      scored world queryTerms x.1 x.2 :: scoredPairs world queryTerms pairs := rfl
  have hscored : policy.isLiftEligible (scored world queryTerms x.1 x.2).record = false := h
  refine ⟨keyed world freshness policy (newestIn policy (scoredPairs world queryTerms pairs))
    (scored world queryTerms x.1 x.2), keyed_record _ _, ?_⟩
  unfold keyedPairs
  rw [hcons, newestIn_cons hscored]
  rfl

theorem keyedPairs_filter {x : DrawerMatch ℝ × Bool}
    (h : policy.isLiftEligible x.1.record = false) (hids : DistinctIds (x :: pairs)) :
    ((keyedPairs world queryTerms freshness policy (x :: pairs)).insertionSort
        (CmpLE freshness.cmp)).filter (fun e => !(e.record.id == x.1.record.id)) =
      (keyedPairs world queryTerms freshness policy pairs).insertionSort
        (CmpLE freshness.cmp) := by
  obtain ⟨e, hrecord, hcons⟩ := @keyedPairs_cons world queryTerms freshness policy x h pairs
  have hkept : ∀ e' ∈ keyedPairs world queryTerms freshness policy pairs,
      (!(e'.record.id == x.1.record.id)) = true := by
    intro e' he'
    obtain ⟨s, hs, rfl⟩ := List.mem_map.1 he'
    obtain ⟨p, hp, rfl⟩ := List.mem_map.1 hs
    have hne := (List.nodup_cons.1 hids).1
    rw [keyed_record, Bool.not_eq_true', beq_eq_false_iff_ne]
    exact fun heq => hne (List.mem_map.2 ⟨p, hp, heq⟩)
  have hdropped : ¬(!(e.record.id == x.1.record.id)) = true := by simp [hrecord]
  rw [filter_insertionSort (keyedPairs_untied hids), hcons]
  refine congrArg (List.insertionSort (CmpLE freshness.cmp)) ?_
  rw [List.filter_cons, if_neg hdropped, List.filter_eq_self.2 hkept]

end

/-- Ranking does not depend on the order of the candidates; no drawer is before one
that is more similar by more than the weight; the relevant mode does not look at
dates; a group filed later as a whole keeps its keys; and a candidate that is not
lifted leaves the others in their order. -/
theorem rank_fresh (isAlphanumeric : Char → Bool) (toLowercase : Char → List Char)
    (hashBytes : List UInt8 → String) (readLocatorFile : String → String → Option (List UInt8))
    (rerankQuery : Option String) (freshness : Freshness) (policy : FreshnessPolicy) (limit : Nat)
    (pairs : List (DrawerMatch ℝ × Bool)) (hids : DistinctIds pairs) :
    let rank := fun freshness (pairs : List (DrawerMatch ℝ × Bool)) =>
      rankCandidates (exactWorld isAlphanumeric toLowercase hashBytes readLocatorFile) rerankQuery
        (pairs.map (·.1)) (pairs.map (·.2)) freshness policy limit
    (∀ pairs', pairs'.Perm pairs → rank freshness pairs' = rank freshness pairs) ∧
    (rank freshness pairs).Pairwise (fun e e' => e'.score ≤ e.score + freshness.weight) ∧
    (∀ filedAt, (rank .relevant (pairs.map (redated filedAt))).map (·.record.id) =
      (rank .relevant pairs).map (·.record.id)) ∧
    (∀ group shift, ∀ e ∈ rank freshness pairs,
      ∀ e' ∈ rank freshness (pairs.map (redated (shiftedAt group shift))),
        e'.record.id = e.record.id → e'.rankKey = e.rankKey) ∧
    ∀ x : DrawerMatch ℝ × Bool, policy.isLiftEligible x.1.record = false →
      DistinctIds (x :: pairs) →
        (rank freshness (x :: pairs)).filter (fun e => !(e.record.id == x.1.record.id)) <+:
          rank freshness pairs := by
  intro rank
  refine ⟨fun pairs' hperm => ?_, ?_, fun filedAt => ?_, fun group shift e he e' he' heq => ?_,
    fun x hx hx' => ?_⟩
  · simp only [rank, rankCandidates_eq]
    rw [insertionSort_perm (keyedPairs_perm hperm.symm) (keyedPairs_untied hids)]
  · simp only [rank, rankCandidates_eq]
    refine List.Pairwise.sublist (List.take_sublist _ _) ?_
    refine (List.pairwise_insertionSort (CmpLE freshness.cmp) _).imp_of_mem fun ha hb hab => ?_
    obtain ⟨a, _, rfl⟩ := List.mem_map.1 ((List.mem_insertionSort _).1 ha)
    obtain ⟨b, _, rfl⟩ := List.mem_map.1 ((List.mem_insertionSort _).1 hb)
    rw [keyed_score, keyed_score]
    exact score_le_of_cmp hab
  · simp only [rank, rankCandidates_eq]
    rw [keyedPairs_relevant_redated, ← List.map_insertionSort (CmpLE Freshness.relevant.cmp)
      (CmpLE Freshness.relevant.cmp) _ _ fun a _ b _ => relevant_cmp_redated filedAt a b,
      ← List.map_take, List.map_map]
    rfl
  · simp only [rank, rankCandidates_eq] at he he'
    exact rankKey_shifted hids group shift ((List.mem_insertionSort _).1 (List.mem_of_mem_take he))
      ((List.mem_insertionSort _).1 (List.mem_of_mem_take he')) heq
  · simp only [rank, rankCandidates_eq]
    rw [List.prefix_take_iff]
    constructor
    · rw [← keyedPairs_filter hx hx']
      exact (List.take_prefix limit _).filter _
    · exact (List.length_filter_le _ _).trans (List.length_take_le _ _)

def reportRun (id : DrawerId) (filed : Int) (distance : ℝ) : DrawerMatch ℝ × Bool :=
  ({ record := {
      id
      wing := ⟨"wing_ops"⟩
      room := ⟨"reports"⟩
      sourceFile := "weekly"
      ingestMode := "mcp"
      filedAt := ⟨filed, 0⟩
      content := []
      contentHash := "a1" }
     distance := some distance }, false)

def firstRunId : DrawerId := ⟨"ops/reports/31c5a07be2f4-0000", by decide +kernel⟩

def secondRunId : DrawerId := ⟨"ops/reports/9d84f6602bca-0000", by decide +kernel⟩

/-- Two runs in either order rank the same. -/
theorem rank_fresh_sample :
    let world := exactWorld Char.isAlphanum (fun c => [c.toLower]) (fun _ => "") fun _ _ => none
    let first := reportRun firstRunId 1775088000000000000 (3 / 10)
    let second := reportRun secondRunId 1775692800000000000 (4 / 10)
    rankCandidates world none [second.1, first.1] [false, false] .recent ⟨168, []⟩ 5 =
      rankCandidates world none [first.1, second.1] [false, false] .recent ⟨168, []⟩ 5 := by
  intro world first second
  have hids : DistinctIds [first, second] := by
    unfold DistinctIds
    decide
  exact (rank_fresh Char.isAlphanum (fun c => [c.toLower]) (fun _ => "") (fun _ _ => none) none
    .recent ⟨168, []⟩ 5 [first, second] hids).1 [second, first] (List.Perm.swap _ _ _)

end AgentPalace.Search
