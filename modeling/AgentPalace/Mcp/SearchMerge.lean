import AgentPalace.Lib.Json

/-!
# Merging the results of a federated search

The results of several origins are interleaved rank by rank, in the order of the
origins, and a result that repeats an earlier one is left out. `Slot` is a place
of the interleaving; `merge_kept` says which slots are kept. The results of a
single origin are not looked at but taken as they are.
-/

namespace AgentPalace.Mcp

/-- A search result: the fields of a JSON object. -/
abbrev SearchItem := List (String × Json)

namespace SearchItem

/-- `item[name].as_str()`. -/
def str (item : SearchItem) (name : String) : Option String :=
  match item.lookup name with
  | some (.str s) => some s
  | _ => none

def drawerId (item : SearchItem) : Option String := (str item "drawer_id").filter (· ≠ "")

def hash (item : SearchItem) : Option String := (str item "content_hash").filter (· ≠ "")

def text (item : SearchItem) : Option String := str item "text"

/-- An item that does not name its origin gets one. -/
def annotate (originName : String) (item : SearchItem) : SearchItem :=
  match item.lookup "origin" with
  | none => Json.insertField "origin" (.str originName) item
  | some _ => item

theorem drawerId_annotate (name : String) (item : SearchItem) :
    drawerId (annotate name item) = drawerId item := by
  unfold annotate
  split
  · unfold drawerId str
    rw [lookup_insertField_of_ne (by decide)]
  · rfl

/-- The same id; for an item without an id, the same hash or text. -/
def Duplicates (item earlier : SearchItem) : Prop :=
  match drawerId item with
  | some id => drawerId earlier = some id
  | none => (∃ h, hash item = some h ∧ hash earlier = some h) ∨
      ∃ t, text item = some t ∧ text earlier = some t

end SearchItem

open SearchItem

structure Seen where
  ids : List String := []
  hashes : List String := []
  texts : List String := []

/-- The `duplicate` of `is_duplicate_search_item`. -/
def Seen.repeats (seen : Seen) (item : SearchItem) : Bool :=
  match drawerId item with
  | some id => seen.ids.contains id
  | none => (hash item).any seen.hashes.contains || (text item).any seen.texts.contains

def Seen.register (seen : Seen) (item : SearchItem) : Seen :=
  { ids := (drawerId item).toList ++ seen.ids
    hashes := (hash item).toList ++ seen.hashes
    texts := (text item).toList ++ seen.texts }

def isDuplicateSearchItem (item : SearchItem) (seen : Seen) : Bool × Seen :=
  if seen.repeats item then (true, seen) else (false, seen.register item)

structure Merge where
  merged : List SearchItem := []
  seen : Seen := {}

/-- An item in its turn. Once the limit is reached nothing changes: `break 'outer`. -/
def Merge.visit (limit : Nat) (m : Merge) (originName : String) (item : SearchItem) : Merge :=
  if limit ≤ m.merged.length then m
  else
    match isDuplicateSearchItem item m.seen with
    | (true, seen) => { m with seen }
    | (false, seen) => { merged := m.merged ++ [annotate originName item], seen }

abbrev Origin := String × List SearchItem

def Merge.visitOrigin (limit rank : Nat) (m : Merge) (origin : Origin) : Merge :=
  match origin.2[rank]? with
  | some item => m.visit limit origin.1 item
  | none => m

def maxRank (origins : List Origin) : Nat := (origins.map (·.2.length)).foldr max 0

def mergeSearchResultsNway (origins : List Origin) (limit : Nat) : List SearchItem :=
  match origins with
  | [] => []
  | [(originName, results)] => (results.take limit).map (annotate originName)
  | origins =>
    let merge : Merge := (List.range (maxRank origins)).foldl
      (fun m rank => origins.foldl (Merge.visitOrigin limit rank) m) {}
    merge.merged.take limit

/-! ## Slots -/

/-- An item at its place: the number and the name of its origin, and its rank there. -/
structure Slot where
  origin : Nat
  rank : Nat
  name : String
  item : SearchItem

namespace Slot

def At (s : Slot) (origins : List Origin) : Prop :=
  ∃ results, origins[s.origin]? = some (s.name, results) ∧ results[s.rank]? = some s.item

def Before (a b : Slot) : Prop := a.rank < b.rank ∨ (a.rank = b.rank ∧ a.origin < b.origin)

def annotated (s : Slot) : SearchItem := annotate s.name s.item

end Slot

def slotsAt (origins : List Origin) (rank : Nat) : List Slot :=
  origins.zipIdx.filterMap fun (origin, i) =>
    origin.2[rank]?.map fun item => ⟨i, rank, origin.1, item⟩

def slots (origins : List Origin) : List Slot :=
  (List.range (maxRank origins)).flatMap (slotsAt origins)

theorem mem_slotsAt {origins : List Origin} {rank : Nat} {s : Slot} :
    s ∈ slotsAt origins rank ↔ s.At origins ∧ s.rank = rank := by
  simp only [slotsAt, List.mem_filterMap, Option.map_eq_some_iff, Prod.exists,
    List.mk_mem_zipIdx_iff_getElem?]
  constructor
  · rintro ⟨name, results, i, horigin, item, hitem, rfl⟩
    exact ⟨⟨results, horigin, hitem⟩, rfl⟩
  · rintro ⟨⟨results, horigin, hitem⟩, rfl⟩
    exact ⟨s.name, results, s.origin, horigin, s.item, hitem, rfl⟩

theorem length_le_maxRank {origins : List Origin} {origin : Origin} (h : origin ∈ origins) :
    origin.2.length ≤ maxRank origins := by
  induction origins with
  | nil => cases h
  | cons first rest ih =>
    rcases List.mem_cons.1 h with rfl | h
    · exact Nat.le_max_left _ _
    · exact Nat.le_trans (ih h) (Nat.le_max_right _ _)

theorem mem_slots {origins : List Origin} {s : Slot} : s ∈ slots origins ↔ s.At origins := by
  simp only [slots, List.mem_flatMap, List.mem_range, mem_slotsAt]
  constructor
  · rintro ⟨_, _, h, _⟩
    exact h
  · intro h
    obtain ⟨results, horigin, hitem⟩ := h
    have hlen := length_le_maxRank (List.mem_of_getElem? horigin)
    have hrank := (List.getElem?_eq_some_iff.1 hitem).1
    exact ⟨s.rank, Nat.lt_of_lt_of_le hrank hlen, ⟨results, horigin, hitem⟩, rfl⟩

theorem slots_before (origins : List Origin) : (slots origins).Pairwise Slot.Before := by
  rw [slots, List.pairwise_flatMap]
  constructor
  · intro rank _
    have hnumbers : origins.zipIdx.Pairwise fun a b => a.2 < b.2 := by
      have hrange := List.pairwise_lt_range' (s := 0) (n := origins.length) 1
      rwa [← List.zipIdx_map_snd, List.pairwise_map] at hrange
    rw [slotsAt, List.pairwise_filterMap]
    refine hnumbers.imp fun {a b} hlt s hs t ht => ?_
    obtain ⟨item, _, rfl⟩ := Option.map_eq_some_iff.1 hs
    obtain ⟨item', _, rfl⟩ := Option.map_eq_some_iff.1 ht
    exact .inr ⟨rfl, hlt⟩
  · refine List.pairwise_lt_range.imp fun hlt a ha b hb => .inl ?_
    rw [(mem_slotsAt.1 ha).2, (mem_slotsAt.1 hb).2]
    exact hlt

/-! ## What is kept -/

def Merge.visitSlot (limit : Nat) (m : Merge) (s : Slot) : Merge := m.visit limit s.name s.item

/-- The two loops visit the slots in their order. -/
theorem foldl_slots (limit : Nat) (origins : List Origin) (m : Merge) :
    (List.range (maxRank origins)).foldl
      (fun m rank => origins.foldl (Merge.visitOrigin limit rank) m) m =
      (slots origins).foldl (Merge.visitSlot limit) m := by
  have hrank : ∀ rank (m : Merge), origins.foldl (Merge.visitOrigin limit rank) m =
      (slotsAt origins rank).foldl (Merge.visitSlot limit) m := by
    intro rank m
    have hmap : ∀ numbered : List (Origin × Nat),
        (numbered.map (·.1)).foldl (Merge.visitOrigin limit rank) m =
          (numbered.filterMap fun (origin, i) => origin.2[rank]?.map fun item =>
            (⟨i, rank, origin.1, item⟩ : Slot)).foldl (Merge.visitSlot limit) m := by
      intro numbered
      rw [List.foldl_filterMap, List.foldl_map]
      congr 1
      funext m ⟨origin, i⟩
      unfold Merge.visitOrigin
      dsimp only
      cases origin.2[rank]? <;> rfl
    rw [slotsAt, ← hmap, List.zipIdx_map_fst]
  rw [slots, List.foldl_flatMap]
  congr 1
  funext m rank
  exact hrank rank m

/-- The sets hold the ids, hashes and texts of the slots kept so far. -/
structure Seen.Of (seen : Seen) (kept : List Slot) : Prop where
  ids : ∀ x, x ∈ seen.ids ↔ ∃ s ∈ kept, drawerId s.item = some x
  hashes : ∀ x, x ∈ seen.hashes ↔ ∃ s ∈ kept, hash s.item = some x
  texts : ∀ x, x ∈ seen.texts ↔ ∃ s ∈ kept, text s.item = some x

theorem repeats_iff {seen : Seen} {kept : List Slot} (h : seen.Of kept) (item : SearchItem) :
    seen.repeats item = true ↔ ∃ s ∈ kept, Duplicates item s.item := by
  unfold Seen.repeats Duplicates
  cases drawerId item with
  | some id => rw [List.contains_iff_mem, h.ids]
  | none =>
    simp only [Bool.or_eq_true, Option.any_eq_true, List.contains_iff_mem, h.hashes, h.texts]
    constructor
    · rintro (⟨x, hx, s, hs, hsx⟩ | ⟨x, hx, s, hs, hsx⟩)
      · exact ⟨s, hs, .inl ⟨x, hx, hsx⟩⟩
      · exact ⟨s, hs, .inr ⟨x, hx, hsx⟩⟩
    · rintro ⟨s, hs, ⟨x, hx, hsx⟩ | ⟨x, hx, hsx⟩⟩
      · exact .inl ⟨x, hx, s, hs, hsx⟩
      · exact .inr ⟨x, hx, s, hs, hsx⟩

theorem mem_register {α : Type} {f : SearchItem → Option α} {l : List α} {kept : List Slot}
    (h : ∀ x, x ∈ l ↔ ∃ s ∈ kept, f s.item = some x) (slot : Slot) (x : α) :
    x ∈ (f slot.item).toList ++ l ↔ ∃ s ∈ kept ++ [slot], f s.item = some x := by
  rw [List.mem_append, Option.mem_toList, h x]
  simp only [List.mem_append, List.mem_singleton, or_and_right, exists_or, exists_eq_left]
  exact or_comm

theorem Seen.Of.register {seen : Seen} {kept : List Slot} (h : seen.Of kept) (slot : Slot) :
    (seen.register slot.item).Of (kept ++ [slot]) :=
  ⟨mem_register h.ids slot, mem_register h.hashes slot, mem_register h.texts slot⟩

def DistinctIds (a b : Slot) : Prop := ∀ id, drawerId a.item = some id → drawerId b.item ≠ some id

/-- The state after the slots in `kept` were emitted. -/
structure Merge.After (m : Merge) (limit : Nat) (kept : List Slot) : Prop where
  merged : m.merged = kept.map Slot.annotated
  seen : m.seen.Of kept
  length : kept.length ≤ limit
  distinct : kept.Pairwise DistinctIds

/-- One visit: the limit is reached, the item repeats an emitted one, or it is emitted. -/
theorem Merge.After.visit {m : Merge} {limit : Nat} {kept : List Slot} (hm : m.After limit kept)
    (slot : Slot) :
    (kept.length = limit ∧ m.visitSlot limit slot = m) ∨
      ((∃ e ∈ kept, Duplicates slot.item e.item) ∧ m.visitSlot limit slot = m) ∨
      (m.visitSlot limit slot).After limit (kept ++ [slot]) := by
  have hlen : m.merged.length = kept.length := by rw [hm.merged, List.length_map]
  have hle := hm.length
  unfold Merge.visitSlot Merge.visit isDuplicateSearchItem
  by_cases hfull : limit ≤ m.merged.length
  · exact .inl ⟨by omega, if_pos hfull⟩
  rw [if_neg hfull]
  cases hrepeats : m.seen.repeats slot.item with
  | true => exact .inr (.inl ⟨(repeats_iff hm.seen slot.item).1 hrepeats, rfl⟩)
  | false =>
    have hnew : ¬ ∃ e ∈ kept, Duplicates slot.item e.item := fun hex => by
      rw [(repeats_iff hm.seen slot.item).2 hex] at hrepeats
      cases hrepeats
    refine .inr (.inr ⟨?_, hm.seen.register slot, ?_, ?_⟩)
    · rw [List.map_append, ← hm.merged]
      rfl
    · rw [List.length_append, List.length_singleton]
      omega
    · refine List.pairwise_append.2 ⟨hm.distinct, List.pairwise_singleton _ _,
        fun e he s hs id hid hsid => ?_⟩
      obtain rfl := List.mem_singleton.1 hs
      refine hnew ⟨e, he, ?_⟩
      rw [Duplicates, hsid]
      exact hid

theorem foldl_kept {limit : Nat} {rest kept : List Slot} {m : Merge} (hm : m.After limit kept)
    (hbefore : (kept ++ rest).Pairwise Slot.Before) :
    ∃ more, (rest.foldl (Merge.visitSlot limit) m).After limit (kept ++ more) ∧
      more.Sublist rest ∧
      ((kept ++ more).length < limit → ∀ s ∈ rest, s ∈ more ∨
        ∃ e ∈ kept ++ more, e.Before s ∧ Duplicates s.item e.item) := by
  induction rest generalizing kept m with
  | nil =>
    exact ⟨[], by simpa using hm, List.Sublist.refl _, fun _ _ hs => absurd hs List.not_mem_nil⟩
  | cons slot rest ih =>
    have hrest : (kept ++ rest).Pairwise Slot.Before :=
      hbefore.sublist (List.Sublist.append_left (List.sublist_cons_self slot rest) kept)
    rcases hm.visit slot with ⟨hfull, hsame⟩ | ⟨⟨e, he, hdup⟩, hsame⟩ | hemit
    · obtain ⟨more, hafter, hsub, _⟩ := ih hm hrest
      refine ⟨more, by rwa [List.foldl_cons, hsame], hsub.cons slot, fun hlt => ?_⟩
      rw [List.length_append] at hlt
      omega
    · obtain ⟨more, hafter, hsub, hmissing⟩ := ih hm hrest
      refine ⟨more, by rwa [List.foldl_cons, hsame], hsub.cons slot, fun hlt s hs => ?_⟩
      rcases List.mem_cons.1 hs with rfl | hs
      · exact .inr ⟨e, List.mem_append_left _ he,
          (List.pairwise_append.1 hbefore).2.2 e he s List.mem_cons_self, hdup⟩
      · exact hmissing hlt s hs
    · have hassoc : ∀ l, kept ++ [slot] ++ l = kept ++ slot :: l := fun l => by simp
      obtain ⟨more, hafter, hsub, hmissing⟩ := ih hemit (by rwa [hassoc])
      rw [hassoc] at hafter hmissing
      refine ⟨slot :: more, hafter, hsub.cons_cons slot, fun hlt s hs => ?_⟩
      rcases List.mem_cons.1 hs with rfl | hs
      · exact .inl List.mem_cons_self
      · exact (hmissing hlt s hs).imp (List.mem_cons_of_mem slot) id

theorem foldl_distinct {limit : Nat} {rest kept : List Slot} {m : Merge} (hm : m.After limit kept)
    (hids : ∀ s ∈ rest, (drawerId s.item).isSome) (hdistinct : (kept ++ rest).Pairwise DistinctIds) :
    (rest.foldl (Merge.visitSlot limit) m).merged =
      ((kept ++ rest).take limit).map Slot.annotated := by
  induction rest generalizing kept m with
  | nil => rw [List.append_nil, List.take_of_length_le hm.length, List.foldl_nil, hm.merged]
  | cons slot rest ih =>
    have hids' : ∀ s ∈ rest, (drawerId s.item).isSome :=
      fun s hs => hids s (List.mem_cons_of_mem _ hs)
    rcases hm.visit slot with ⟨hfull, hsame⟩ | ⟨⟨e, he, hdup⟩, _⟩ | hemit
    · have hrest : (kept ++ rest).Pairwise DistinctIds :=
        hdistinct.sublist (List.Sublist.append_left (List.sublist_cons_self slot rest) kept)
      rw [List.foldl_cons, hsame, ih hm hids' hrest, List.take_left' hfull, List.take_left' hfull]
    · obtain ⟨id, hid⟩ := Option.isSome_iff_exists.1 (hids slot List.mem_cons_self)
      rw [Duplicates, hid] at hdup
      exact absurd hid ((List.pairwise_append.1 hdistinct).2.2 e he slot List.mem_cons_self id hdup)
    · have hassoc : kept ++ [slot] ++ rest = kept ++ slot :: rest := by simp
      rw [List.foldl_cons, ih hemit hids' (by rwa [hassoc]), hassoc]

/-! ## The merge -/

theorem after_empty (limit : Nat) : ({} : Merge).After limit [] where
  merged := rfl
  seen := ⟨by simp, by simp, by simp⟩
  length := Nat.zero_le limit
  distinct := List.Pairwise.nil

theorem merge_several {origins : List Origin} (h : origins.length ≠ 1) (limit : Nat) :
    mergeSearchResultsNway origins limit =
      ((slots origins).foldl (Merge.visitSlot limit) {}).merged.take limit := by
  match origins, h with
  | [], _ => exact List.take_nil.symm
  | first :: second :: rest, _ =>
    rw [← foldl_slots]
    rfl

theorem slots_alone (name : String) (results : List SearchItem) {remotes : List Origin}
    (h : ∀ r ∈ remotes, r.2 = []) :
    slots ((name, results) :: remotes) = results.zipIdx.map fun (item, rank) => ⟨0, rank, name, item⟩ := by
  have hrank : maxRank ((name, results) :: remotes) = results.length := by
    have hremotes : maxRank remotes = 0 := by
      induction remotes with
      | nil => rfl
      | cons r rest ih =>
        have hr := h r List.mem_cons_self
        have hrest := ih fun r hr => h r (List.mem_cons_of_mem _ hr)
        show max r.2.length (maxRank rest) = 0
        rw [hr, hrest]
        rfl
    show max results.length (maxRank remotes) = results.length
    rw [hremotes, Nat.max_zero]
  have hslots : ∀ p ∈ results.zipIdx, slotsAt ((name, results) :: remotes) p.2 =
      [⟨0, p.2, name, p.1⟩] := by
    intro p hp
    have hitem : results[p.2]? = some p.1 := List.mem_zipIdx_iff_getElem?.1 hp
    have hnone : (remotes.zipIdx 1).filterMap (fun (origin, i) =>
        origin.2[p.2]?.map fun item => (⟨i, p.2, origin.1, item⟩ : Slot)) = [] := by
      refine List.filterMap_eq_nil_iff.2 fun q hq => ?_
      have hempty : q.1.2 = [] := h q.1 (List.fst_mem_of_mem_zipIdx hq)
      simp [hempty]
    unfold slotsAt
    rw [List.zipIdx_cons, List.filterMap_cons_some (b := ⟨0, p.2, name, p.1⟩) (by simp [hitem])]
    exact congrArg _ hnone
  rw [slots, hrank, List.range_eq_range', ← List.zipIdx_map_snd 0 results, List.flatMap_map,
    List.map_eq_flatMap]
  simp only [List.flatMap_def]
  rw [List.map_congr_left hslots]

/-- What the merge does. Of several origins, places are kept in their order, and what is
missing although there was room repeats an item kept before it. A single origin is cut to the
limit. Origins without results change nothing where the local results have different ids. -/
theorem merge_lossless :
    (∀ origins limit, (mergeSearchResultsNway origins limit).length ≤ limit) ∧
    (∀ origins limit, origins.length ≠ 1 → ∃ kept : List Slot,
      mergeSearchResultsNway origins limit = kept.map Slot.annotated ∧
      (∀ s ∈ kept, s.At origins) ∧
      kept.Pairwise (fun a b => a.Before b ∧ (a.origin = b.origin → a.rank < b.rank)) ∧
      (mergeSearchResultsNway origins limit).Pairwise (fun a b =>
        ∀ id, drawerId a = some id → drawerId b ≠ some id) ∧
      (kept.length < limit → ∀ s : Slot, s.At origins → s ∈ kept ∨
        ∃ e ∈ kept, e.Before s ∧ Duplicates s.item e.item)) ∧
    (∀ name results limit, mergeSearchResultsNway [(name, results)] limit =
      (results.take limit).map (annotate name)) ∧
    (∀ name results remotes limit, (∀ item ∈ results, (drawerId item).isSome) →
      (results.map drawerId).Nodup → (∀ r ∈ remotes, r.2 = []) →
      mergeSearchResultsNway ((name, results) :: remotes) limit =
        mergeSearchResultsNway [(name, results)] limit) := by
  refine ⟨fun origins limit => ?_, fun origins limit hcount => ?_, fun _ _ _ => rfl,
    fun name results remotes limit hids hnodup hempty => ?_⟩
  · match origins with
    | [] => exact Nat.zero_le limit
    | [(name, results)] =>
      show ((results.take limit).map (annotate name)).length ≤ limit
      rw [List.length_map]
      exact List.length_take_le limit results
    | first :: second :: rest => exact List.length_take_le limit _
  · obtain ⟨kept, hafter, hsub, hmissing⟩ :=
      @foldl_kept limit (slots origins) [] {} (after_empty limit) (slots_before origins)
    rw [List.nil_append] at hafter hmissing
    have hmerge : mergeSearchResultsNway origins limit = kept.map Slot.annotated := by
      rw [merge_several hcount, hafter.merged, List.take_of_length_le]
      rw [List.length_map]
      exact hafter.length
    refine ⟨kept, hmerge, fun s hs => mem_slots.1 (hsub.subset hs), ?_, ?_, fun hlt s hs =>
      hmissing hlt s (mem_slots.2 hs)⟩
    · refine ((slots_before origins).sublist hsub).imp fun {a b} hab => ⟨hab, fun heq => ?_⟩
      rcases hab with hrank | ⟨_, horigin⟩
      · exact hrank
      · omega
    · rw [hmerge, List.pairwise_map]
      refine hafter.distinct.imp fun {a b} hab => ?_
      unfold Slot.annotated
      rw [drawerId_annotate, drawerId_annotate]
      exact hab
  · match remotes with
    | [] => rfl
    | remote :: rest =>
      have hslots := slots_alone name results hempty
      have hslotIds : ∀ s ∈ slots ((name, results) :: remote :: rest), (drawerId s.item).isSome := by
        rw [hslots, List.forall_mem_map]
        intro p hp
        exact hids p.1 (List.fst_mem_of_mem_zipIdx hp)
      have hdistinct : (slots ((name, results) :: remote :: rest)).Pairwise DistinctIds := by
        rw [hslots, List.pairwise_map]
        have hitems := List.pairwise_map.1 hnodup
        rw [← List.zipIdx_map_fst 0 results, List.pairwise_map] at hitems
        exact hitems.imp fun {p q} hne id hp hq => hne (hp.trans hq.symm)
      have hmap : (slots ((name, results) :: remote :: rest)).map Slot.annotated =
          results.map (annotate name) := by
        rw [hslots, List.map_map]
        conv => rhs; rw [← List.zipIdx_map_fst 0 results, List.map_map]
        rfl
      rw [merge_several (by simp),
        foldl_distinct (after_empty limit) hslotIds hdistinct, List.nil_append, ← List.map_take,
        List.take_take, Nat.min_self, List.map_take, hmap, ← List.map_take]
      rfl

/-- The results of a single origin keep their repetitions. -/
theorem merge_single_repeats :
    let item : SearchItem := [("drawer_id", .str "d")]
    ¬ (mergeSearchResultsNway [("local", [item, item])] 10).Pairwise (fun a b =>
      ∀ id, drawerId a = some id → drawerId b ≠ some id) := by
  intro item h
  have hpair : (([item, item].take 10).map (annotate "local")).Pairwise (fun a b =>
      ∀ id, drawerId a = some id → drawerId b ≠ some id) := h
  have hid : drawerId (annotate "local" item) = some "d" := by
    rw [drawerId_annotate]
    decide
  exact (List.pairwise_cons.1 hpair).1 _ List.mem_cons_self "d" hid hid

end AgentPalace.Mcp
