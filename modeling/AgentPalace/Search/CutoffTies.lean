import AgentPalace.Search.Overlay
import AgentPalace.Storage.Layers

/-!
# Searches that keep the ties at the cutoff

A search with `includeCutoffTies` asks for the `limit` nearest rows, then for twice
as many, until the answer is short or goes past the distance of the `limit`-th
row. The query of the vector table is a parameter that gives the nearest rows
(`NearestQuery`). The search ends, and gives the `nearest` rows with all ties
(`searchDrawers_ties`).
-/

namespace AgentPalace.Lance.CutoffTies

open Search (saturatingMul)

structure DrawerMatch where
  record : DrawerRecord
  distance : Option UInt32

structure SearchRequest where
  embedding : List UInt32
  limit : Nat
  includeCutoffTies : Bool
  filter : DrawerFilter

/-- Where `f32::total_cmp` puts a float: the bits as a signed number, those of the
negative floats turned around. -/
def totalKey (bits : UInt32) : Int :=
  if bits.toNat < 2147483648 then bits.toNat else 2147483647 - bits.toNat

def totalCmp (a b : UInt32) : Ordering := compare (totalKey a) (totalKey b)

/-- The matches up to the last one as near as the `limit`-th; `partition_point`
counts those in front that are. -/
def truncateToCutoffTies (found : List DrawerMatch) (limit : Nat) : List DrawerMatch :=
  if limit = 0 ∨ found.length ≤ limit then found
  else
    match found[limit - 1]?.bind (·.distance) with
    | none => found
    | some cutoff => found.takeWhile fun entry =>
      entry.distance.any fun distance => totalCmp distance cutoff ≠ .gt

theorem saturatingMul_le (a b : Nat) : saturatingMul a b ≤ Search.usizeMax := Nat.min_le_right _ _

def searchDrawersWithCutoffTies (executeSearch : Nat → List DrawerMatch) (limit fetchLimit : Nat)
    (_ : fetchLimit ≤ Search.usizeMax) : List DrawerMatch :=
  let found := executeSearch fetchLimit
  if found.length < fetchLimit then truncateToCutoffTies found limit
  else
    match found[limit - 1]?.bind (·.distance), found.getLast?.bind (·.distance) with
    | some cutoff, some last =>
      if totalCmp last cutoff = .gt then truncateToCutoffTies found limit
      else if _hnext : saturatingMul fetchLimit 2 = fetchLimit then found
      else searchDrawersWithCutoffTies executeSearch limit (saturatingMul fetchLimit 2)
        (saturatingMul_le _ _)
    | _, _ => found
termination_by Search.usizeMax - fetchLimit
decreasing_by
  simp only [saturatingMul] at _hnext ⊢
  omega

/-- `search_drawers`; `query` is the vector search under a filter. -/
def searchDrawers (dimensions : Nat)
    (query : DrawerFilter → List UInt32 → Nat → List DrawerMatch) (request : SearchRequest)
    (hlimit : request.limit ≤ Search.usizeMax) : Except StorageError (List DrawerMatch) :=
  if request.embedding.length ≠ dimensions then
    .error (.invariant (s!"query embedding dimension mismatch: expected {dimensions}, " ++
      s!"got {request.embedding.length}"))
  else if request.limit = 0 then .ok []
  else
    let executeSearch := query request.filter request.embedding
    if request.includeCutoffTies then
      .ok (searchDrawersWithCutoffTies executeSearch request.limit request.limit hlimit)
    else .ok (executeSearch request.limit)

/-! ## Numbers -/

/-- The distance of a match, in the order of `total_cmp`. -/
def dist (entry : DrawerMatch) : Int := (entry.distance.map totalKey).getD 0

def HasDistance (entry : DrawerMatch) : Prop :=
  ∃ bits, entry.distance = some bits ∧ (floatKey bits).isSome

theorem totalCmp_gt {a b : DrawerMatch} {x y : UInt32} (hx : a.distance = some x)
    (hy : b.distance = some y) : totalCmp x y = .gt ↔ dist b < dist a := by
  rw [totalCmp, compare_gt_iff_gt, dist, dist, hx, hy]
  rfl

/-! ## The nearest rows -/

/-- The query gives the `k` nearest of the rows, nearest first. -/
def NearestQuery (executeSearch : Nat → List DrawerMatch) (rows : List DrawerMatch) : Prop :=
  ∀ k, ∃ rest, (executeSearch k ++ rest).Perm rows ∧
    (executeSearch k).length = min k rows.length ∧
    (executeSearch k).Pairwise (fun a b => dist a ≤ dist b) ∧
    ∀ a ∈ executeSearch k, ∀ b ∈ rest, dist a ≤ dist b

/-- The matches are, nearest first, the nearest rows with all ties. -/
def TieComplete (rows : List DrawerMatch) (limit : Nat) (found : List DrawerMatch) : Prop :=
  found.Pairwise (fun a b => dist a ≤ dist b) ∧ found.Perm (nearest dist rows limit)

section
variable {rows found rest : List DrawerMatch} {limit : Nat}

theorem takeWhile_eq_filter {c : Int} (h : found.Pairwise fun a b => dist a ≤ dist b) :
    found.takeWhile (fun a => decide (dist a ≤ c)) = found.filter fun a => dist a ≤ c := by
  induction found with
  | nil => rfl
  | cons a found ih =>
    rw [List.pairwise_cons] at h
    by_cases ha : dist a ≤ c
    · rw [List.takeWhile_cons_of_pos (by simpa using ha),
        List.filter_cons_of_pos (by simpa using ha), ih h.2]
    · rw [List.takeWhile_cons_of_neg (by simpa using ha),
        List.filter_cons_of_neg (by simpa using ha)]
      refine (List.filter_eq_nil_iff.2 fun b hb => ?_).symm
      have := h.1 b hb
      simp only [decide_eq_true_eq]
      omega

/-- The sorted rows begin with the distances of what the query found. -/
theorem sorted_dist (hperm : (found ++ rest).Perm rows)
    (hsorted : found.Pairwise fun a b => dist a ≤ dist b)
    (hnear : ∀ a ∈ found, ∀ b ∈ rest, dist a ≤ dist b) :
    (rows.insertionSort fun a b => dist a ≤ dist b).map dist =
      found.map dist ++ (rest.insertionSort fun a b => dist a ≤ dist b).map dist := by
  have htotal : Std.Total fun a b : DrawerMatch => dist a ≤ dist b := ⟨fun _ _ => le_total _ _⟩
  have htrans : IsTrans DrawerMatch fun a b => dist a ≤ dist b := ⟨fun _ _ _ => le_trans⟩
  rw [← List.map_append]
  refine List.Perm.eq_of_pairwise (fun (_ _ : Int) _ _ => le_antisymm)
    (List.pairwise_map.2 (List.pairwise_insertionSort _ _)) (List.pairwise_map.2 ?_)
    (List.Perm.map dist ?_)
  · refine List.pairwise_append.2 ⟨hsorted, List.pairwise_insertionSort _ _, fun a ha b hb => ?_⟩
    exact hnear a ha b ((List.mem_insertionSort _).1 hb)
  · exact (List.perm_insertionSort _ _).trans (hperm.symm.trans
      ((List.perm_insertionSort _ _).symm.append_left found))

theorem tieComplete_takeWhile {c : DrawerMatch} (hperm : (found ++ rest).Perm rows)
    (hsorted : found.Pairwise fun a b => dist a ≤ dist b)
    (hnear : ∀ a ∈ found, ∀ b ∈ rest, dist a ≤ dist b) (hc : found[limit - 1]? = some c)
    (hfar : ∀ b ∈ rest, dist c < dist b) :
    TieComplete rows limit (found.takeWhile fun a => decide (dist a ≤ dist c)) := by
  have hmap := sorted_dist hperm hsorted hnear
  have hlt : limit - 1 < found.length := (List.getElem?_eq_some_iff.1 hc).1
  have hdist : ((rows.insertionSort fun a b => dist a ≤ dist b)[limit - 1]?).map dist =
      some (dist c) := by
    rw [← List.getElem?_map, hmap, List.getElem?_append_left (by simpa using hlt),
      List.getElem?_map, hc]
    rfl
  obtain ⟨cutoff, hcutoff, heq⟩ := Option.map_eq_some_iff.1 hdist
  rw [takeWhile_eq_filter hsorted]
  refine ⟨hsorted.filter _, ?_⟩
  simp only [nearest, hcutoff, heq]
  have hrest : rest.filter (fun a => decide (dist a ≤ dist c)) = [] := by
    refine List.filter_eq_nil_iff.2 fun b hb => ?_
    have := hfar b hb
    simp only [decide_eq_true_eq]
    omega
  have hfilter := hperm.filter fun a => decide (dist a ≤ dist c)
  rw [List.filter_append, hrest, List.append_nil] at hfilter
  exact hfilter.trans ((List.perm_insertionSort _ _).symm.filter _)

theorem tieComplete_short (hperm : found.Perm rows)
    (hsorted : found.Pairwise fun a b => dist a ≤ dist b) (hlimit : 1 ≤ limit)
    (hshort : found.length < limit) : TieComplete rows limit found := by
  have hnone : (rows.insertionSort fun a b => dist a ≤ dist b)[limit - 1]? = none := by
    rw [List.getElem?_eq_none_iff, List.length_insertionSort, ← hperm.length_eq]
    omega
  refine ⟨hsorted, ?_⟩
  simp only [nearest, hnone]
  exact hperm.trans (List.perm_insertionSort _ _).symm

theorem takeWhile_congr {p q : DrawerMatch → Bool} (h : ∀ a ∈ found, p a = q a) :
    found.takeWhile p = found.takeWhile q := by
  induction found with
  | nil => rfl
  | cons a found ih =>
    rw [List.takeWhile_cons, List.takeWhile_cons, h a List.mem_cons_self,
      ih fun b hb => h b (List.mem_cons_of_mem a hb)]

theorem truncate_eq {c : DrawerMatch} (hfound : ∀ a ∈ found, HasDistance a) (hlimit : 1 ≤ limit)
    (hsorted : found.Pairwise fun a b => dist a ≤ dist b) (hc : found[limit - 1]? = some c) :
    truncateToCutoffTies found limit = found.takeWhile fun a => decide (dist a ≤ dist c) := by
  have hcfound := hfound c (List.mem_of_getElem? hc)
  obtain ⟨cutoff, hcutoff, -⟩ := id hcfound
  unfold truncateToCutoffTies
  by_cases hshort : limit = 0 ∨ found.length ≤ limit
  · -- the `limit`-th match is the last one
    rw [if_pos hshort]
    refine (List.takeWhile_eq_self_iff.2 fun a ha => ?_).symm
    obtain ⟨i, hi, rfl⟩ := List.mem_iff_getElem.1 ha
    obtain ⟨hlt, rfl⟩ := List.getElem?_eq_some_iff.1 hc
    have hle : dist found[i] ≤ dist found[limit - 1] := by
      rcases Nat.lt_or_ge i (limit - 1) with hlt' | hge
      · exact List.pairwise_iff_getElem.1 hsorted i (limit - 1) hi hlt hlt'
      · have heq : i = limit - 1 := by omega
        simp only [heq, le_refl]
    simpa using hle
  · rw [if_neg hshort, hc, Option.bind_some, hcutoff]
    have hpred : ∀ a ∈ found, (a.distance.any fun distance => totalCmp distance cutoff ≠ .gt) =
        decide (dist a ≤ dist c) := by
      intro a ha
      obtain ⟨bits, hbits, -⟩ := id (hfound a ha)
      have hgt := totalCmp_gt hbits hcutoff
      rw [hbits, Option.any_some, decide_eq_decide, ne_eq, hgt, not_lt]
    exact takeWhile_congr hpred

/-- Every exit of the loop has the ties: a short answer is everything, a farther
last match means that the ties end in the answer, and the largest window holds
every row. -/
theorem withCutoffTies_complete {executeSearch : Nat → List DrawerMatch}
    (hquery : NearestQuery executeSearch rows) (hdist : ∀ r ∈ rows, HasDistance r)
    (hrows : rows.length ≤ Search.usizeMax) (hlimit : 1 ≤ limit) (fetchLimit : Nat)
    (hmax : fetchLimit ≤ Search.usizeMax) (hfetch : limit ≤ fetchLimit) :
    TieComplete rows limit (searchDrawersWithCutoffTies executeSearch limit fetchLimit hmax) := by
  obtain ⟨rest, hperm, hlength, hsorted, hnear⟩ := hquery fetchLimit
  have hfound : ∀ a ∈ executeSearch fetchLimit, HasDistance a := fun a ha =>
    hdist a (hperm.mem_iff.1 (List.mem_append_left rest ha))
  have hall : rows.length ≤ fetchLimit → rest = [] := by
    intro hle
    have := hperm.length_eq
    rw [List.length_append, hlength, Nat.min_eq_right hle] at this
    exact List.length_eq_zero_iff.1 (by omega)
  rw [searchDrawersWithCutoffTies]
  by_cases hshort : (executeSearch fetchLimit).length < fetchLimit
  · rw [if_pos hshort]
    have hrest := hall (by omega)
    rcases Nat.lt_or_ge (executeSearch fetchLimit).length limit with hfew | henough
    · rw [truncateToCutoffTies, if_pos (.inr hfew.le)]
      subst hrest
      rw [List.append_nil] at hperm
      exact tieComplete_short hperm hsorted hlimit hfew
    · obtain ⟨c, hc⟩ : ∃ c, (executeSearch fetchLimit)[limit - 1]? = some c :=
        ⟨_, List.getElem?_eq_getElem (by omega)⟩
      rw [truncate_eq hfound hlimit hsorted hc]
      exact tieComplete_takeWhile hperm hsorted hnear hc fun b hb => absurd hb (by simp [hrest])
  · rw [if_neg hshort]
    have hlen : (executeSearch fetchLimit).length = fetchLimit := by omega
    obtain ⟨c, hc⟩ : ∃ c, (executeSearch fetchLimit)[limit - 1]? = some c :=
      ⟨_, List.getElem?_eq_getElem (by omega)⟩
    obtain ⟨last, hlast⟩ : ∃ last, (executeSearch fetchLimit).getLast? = some last :=
      ⟨_, (List.getLast?_eq_getElem? ..).trans (List.getElem?_eq_getElem (by omega))⟩
    have hclast := hfound c (List.mem_of_getElem? hc)
    have hlmem := List.mem_of_getLast? hlast
    obtain ⟨cutoff, hcutoff, -⟩ := id hclast
    obtain ⟨farthest, hfarthest, -⟩ := id (hfound last hlmem)
    rw [hc, hlast, Option.bind_some, Option.bind_some, hcutoff, hfarthest]
    simp only
    have hgt := totalCmp_gt hfarthest hcutoff
    by_cases hfar : totalCmp farthest cutoff = .gt
    · rw [if_pos hfar, truncate_eq hfound hlimit hsorted hc]
      refine tieComplete_takeWhile hperm hsorted hnear hc fun b hb => ?_
      exact lt_of_lt_of_le (hgt.1 hfar) (hnear last hlmem b hb)
    · rw [if_neg hfar]
      have hle : dist last ≤ dist c := not_lt.1 fun h => hfar (hgt.2 h)
      by_cases hnext : saturatingMul fetchLimit 2 = fetchLimit
      · rw [dif_pos hnext]
        have hkeep : (executeSearch fetchLimit).takeWhile (fun a => decide (dist a ≤ dist c)) =
            executeSearch fetchLimit := by
          refine List.takeWhile_eq_self_iff.2 fun a ha => ?_
          have hlast_le : dist a ≤ dist last := by
            obtain ⟨i, hi, rfl⟩ := List.mem_iff_getElem.1 ha
            rw [List.getLast?_eq_getElem?] at hlast
            obtain ⟨hlt, rfl⟩ := List.getElem?_eq_some_iff.1 hlast
            rcases Nat.lt_or_ge i ((executeSearch fetchLimit).length - 1) with hlt' | hge
            · exact List.pairwise_iff_getElem.1 hsorted i _ hi hlt hlt'
            · have heq : i = (executeSearch fetchLimit).length - 1 := by omega
              simp only [heq, le_refl]
          simpa using hlast_le.trans hle
        have hfull : rest = [] := by
          apply hall
          simp only [saturatingMul] at hnext
          omega
        rw [← hkeep]
        exact tieComplete_takeWhile hperm hsorted hnear hc fun b hb => absurd hb (by simp [hfull])
      · rw [dif_neg hnext]
        exact withCutoffTies_complete hquery hdist hrows hlimit _ _
          (by simp only [saturatingMul]; omega)
termination_by Search.usizeMax - fetchLimit
decreasing_by
  simp only [saturatingMul] at hnext ⊢
  omega

end

/-- The rows that a search may find, with their distances from its embedding. -/
def matching (measure : List UInt32 → DrawerRow → DrawerMatch) (table : List DrawerRow)
    (request : SearchRequest) : List DrawerMatch :=
  (table.filter (compileFilter request.filter)).map (measure request.embedding)

/-- A search with ties ends and gives, nearest first, just the matching rows as
near as the `limit`-th nearest, or all of them if there are fewer. -/
theorem searchDrawers_ties {dimensions : Nat}
    {query : DrawerFilter → List UInt32 → Nat → List DrawerMatch} {request : SearchRequest}
    {measure : List UInt32 → DrawerRow → DrawerMatch} {table : List DrawerRow}
    (hmax : request.limit ≤ Search.usizeMax) (hlimit : 1 ≤ request.limit)
    (hties : request.includeCutoffTies = true) (hdimensions : request.embedding.length = dimensions)
    (hrows : (matching measure table request).length ≤ Search.usizeMax)
    (hdist : ∀ r ∈ matching measure table request, HasDistance r)
    (hquery : NearestQuery (query request.filter request.embedding)
      (matching measure table request)) :
    ∃ found, searchDrawers dimensions query request hmax = .ok found ∧
      TieComplete (matching measure table request) request.limit found := by
  have hpos : request.limit ≠ 0 := by omega
  refine ⟨_, ?_, withCutoffTies_complete hquery hdist hrows hlimit request.limit hmax le_rfl⟩
  rw [searchDrawers, if_neg (not_not.2 hdimensions), if_neg hpos]
  simp only [hties, if_true]

/-- Two rows at one distance, of which one is asked for. -/
def tiedTable : List DrawerRow := [drawerRow plainRecord, drawerRow heavyRecord]

def tiedRequest : SearchRequest :=
  { embedding := [], limit := 1, includeCutoffTies := true, filter := {} }

def tiedMatch : DrawerMatch := ⟨plainRecord, some 1065353216⟩

theorem tiedLimit_le : tiedRequest.limit ≤ Search.usizeMax := by decide

theorem searchDrawers_ties_sample :
    ∃ found, searchDrawers 0 (fun _ _ k => [tiedMatch, tiedMatch].take k) tiedRequest tiedLimit_le =
      .ok found ∧ found.length = 2 := by
  have hrows : matching (fun _ _ => tiedMatch) tiedTable tiedRequest = [tiedMatch, tiedMatch] := rfl
  have hnear : ∀ a ∈ [tiedMatch, tiedMatch], a = tiedMatch := by simp
  have hquery : NearestQuery (fun k => [tiedMatch, tiedMatch].take k) [tiedMatch, tiedMatch] := by
    intro k
    refine ⟨[tiedMatch, tiedMatch].drop k, by rw [List.take_append_drop], List.length_take, ?_, ?_⟩
    · refine List.pairwise_of_forall_mem_list fun a ha b hb => ?_
      rw [hnear a (List.mem_of_mem_take ha), hnear b (List.mem_of_mem_take hb)]
    · intro a ha b hb
      rw [hnear a (List.mem_of_mem_take ha), hnear b (List.mem_of_mem_drop hb)]
  obtain ⟨found, hok, -, hperm⟩ := @searchDrawers_ties 0
    (fun _ _ k => [tiedMatch, tiedMatch].take k) tiedRequest (fun _ _ => tiedMatch) tiedTable
    tiedLimit_le le_rfl rfl rfl
    (by rw [hrows]; decide)
    (by
      rw [hrows]
      intro r hr
      rw [hnear r hr]
      exact ⟨_, rfl, by decide⟩)
    (by rw [hrows]; exact hquery)
  refine ⟨found, hok, ?_⟩
  rw [hperm.length_eq, hrows]
  rfl

end AgentPalace.Lance.CutoffTies
