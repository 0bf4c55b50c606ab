import AgentPalace.Ingest.Rooms
import AgentPalace.Lib.SortBy
import AgentPalace.Lib.OrdMap
import AgentPalace.Storage.DrawerRow
import Mathlib.Data.String.Basic

/-!
# Layer reads

A drawer store lists the first drawers of the layer order, and counts the drawers
of each wing and room. The plain reads decode every row that the filter selects;
the streaming ones look at a few columns of one batch after the other, keep the
first candidates in a sorted buffer, and fetch their bodies by id. Of a table
whose ids are distinct and whose weights are numbers both give one answer
(`layer_reads_agree`).
-/

namespace AgentPalace.Lance

open Ingest (fileName)

/-! ## Filters -/

structure DrawerFilter where
  ids : List String := []
  wing : Option String := none
  wings : List String := []
  room : Option String := none
  hall : Option String := none
  sourceFile : Option String := none
  sourceFiles : List String := []
  view : Option String := none
  includeAllViews : Bool := false
  branchViewOnly : Bool := false
  limit : Option Nat := none

def branchPredicate (view : String) (row : DrawerRow) : Bool :=
  row.viewName == some view || row.viewName.isNone && row.hall == some ("view:" ++ view)

/-- `compile_filter`, evaluated on a row. -/
def compileFilter (filter : DrawerFilter) (row : DrawerRow) : Bool :=
  (filter.ids.isEmpty || filter.ids.contains row.id) &&
    filter.wing.all (· == row.wing) &&
    (filter.wings.isEmpty || filter.wings.contains row.wing) &&
    filter.room.all (· == row.room) &&
    filter.hall.all (fun hall => row.hall == some hall) &&
    filter.sourceFile.all (· == row.sourceFile) &&
    (filter.sourceFiles.isEmpty || filter.sourceFiles.contains row.sourceFile) &&
    if filter.includeAllViews || filter.view == some "full" then true
    else
      match filter.view with
      | none => row.ingestMode != "projects-branch"
      | some view =>
        if view = "canonical" then row.ingestMode != "projects-branch"
        else if filter.branchViewOnly then branchPredicate view row
        else row.ingestMode != "projects-branch" || branchPredicate view row

/-! ## The layer order -/

/-- The place of a float among the numbers, from its bits. NaN has none, and the
two zeros have one. -/
def floatKey (bits : UInt32) : Option Int :=
  let magnitude := bits.toNat % 2147483648
  if 2139095040 < magnitude then none
  else some (if bits.toNat < 2147483648 then magnitude else -magnitude)

/-- `partial_cmp` of floats. -/
def partialCmp (a b : UInt32) : Option Ordering := do
  let a ← floatKey a
  let b ← floatKey b
  return compare a b

/-- The importance of a drawer, or what stands in for it; `1077936128` is `3.0`. -/
def DrawerRecord.layerWeight (r : DrawerRecord) : UInt32 :=
  ((r.importance <|> r.emotionalWeight) <|> r.weight).getD 1077936128

def sourceLabel (source : String) : String :=
  ((fileName source.toList).map String.ofList).getD source

def compareLayerDrawers (left right : DrawerRecord) : Ordering :=
  ((partialCmp right.layerWeight left.layerWeight).getD .eq).then <|
    (compare left.room right.room).then <|
    (compare (right.date.map (·.days)) (left.date.map (·.days))).then <|
    (compare right.filedAt.nanos left.filedAt.nanos).then <|
    (compare (sourceLabel left.sourceFile) (sourceLabel right.sourceFile)).then <|
    (compare left.chunkIndex right.chunkIndex).then (compare left.id right.id)

/-! ## The plain reads -/

abbrev Counts := OrdMap String (OrdMap String Nat)

def countDrawer (counts : Counts) (place : String × String) : Counts :=
  counts.alter place.1 fun rooms =>
    (rooms.getD OrdMap.empty).alter place.2 fun count => count.getD 0 + 1

def sharedAgentDiaryWing : String := "wing_agents"

def diaryRoom : String := "diary"

/-- `count_by_wing_room` of a store that has no other. -/
def defaultCountByWingRoom (filter : DrawerFilter) (excludeDiary : Bool) (table : List DrawerRow) :
    Except StorageError Counts := do
  let filter := { filter with limit := none }
  let drawers ← listDrawers (compileFilter filter) filter.limit table
  return drawers.foldl (fun counts drawer =>
    if excludeDiary && (drawer.wing == sharedAgentDiaryWing || drawer.room == diaryRoom) then counts
    else countDrawer counts (drawer.wing, drawer.room)) OrdMap.empty

/-- `list_layer_drawers` of a store that has no other. -/
def defaultListLayerDrawers (filter : DrawerFilter) (limit : Nat) (table : List DrawerRow) :
    Except StorageError (List DrawerRecord) :=
  if limit = 0 then .ok []
  else do
    let filter := { filter with limit := none }
    let drawers ← listDrawers (compileFilter filter) filter.limit table
    return (drawers.insertionSort (CmpLE compareLayerDrawers)).take limit

/-! ## The streaming reads -/

/-- `count_by_wing_room`: a query of two columns, in batches. -/
def streamCountByWingRoom (filter : DrawerFilter) (excludeDiary : Bool)
    (batches : List (List DrawerRow)) : Counts :=
  let predicate := fun row => compileFilter filter row &&
    (!excludeDiary || row.wing != sharedAgentDiaryWing && row.room != diaryRoom)
  batches.foldl (fun counts batch => (batch.filter predicate).foldl
    (fun counts row => countDrawer counts (row.wing, row.room)) counts) OrdMap.empty

/-- The first `limit` candidates of the batches. -/
def streamTop (selects : DrawerRow → Bool) (limit : Nat) :
    List (List DrawerRow) → List DrawerRecord → Except StorageError (List DrawerRecord)
  | [], top => .ok top
  | batch :: batches, top => do
    let candidates ← (batch.filter selects).mapM layerMetadata
    streamTop selects limit batches (candidates.foldl (insertTop compareLayerDrawers limit) top)

/-- `list_layer_drawers`: the batches of the scan, and the rows of the table as the
fetch of the bodies meets them. -/
def streamListLayerDrawers (filter : DrawerFilter) (limit : Nat) (batches : List (List DrawerRow))
    (table : List DrawerRow) : Except StorageError (List DrawerRecord) :=
  if limit = 0 then .ok []
  else do
    let top ← streamTop (compileFilter filter) limit batches []
    if top.isEmpty then return []
    else
      let ids := top.map (·.id)
      let drawers ← ((table.filter fun row => ids.contains row.id).take limit).mapM recordFromRow
      return drawers.insertionSort (CmpLE compareLayerDrawers)

/-! ## The order is total -/

/-- The weight of the drawer is a number. -/
def DrawerRecord.Weighed (r : DrawerRecord) : Prop := (floatKey r.layerWeight).isSome = true

def layerCmp (left right : DrawerRecord) : Ordering :=
  (compare (floatKey right.layerWeight) (floatKey left.layerWeight)).then <|
    (compare left.room right.room).then <|
    (compare (right.date.map (·.days)) (left.date.map (·.days))).then <|
    (compare right.filedAt.nanos left.filedAt.nanos).then <|
    (compare (sourceLabel left.sourceFile) (sourceLabel right.sourceFile)).then <|
    (compare left.chunkIndex right.chunkIndex).then (compare left.id right.id)

theorem compareLayerDrawers_eq {a b : DrawerRecord} (ha : a.Weighed) (hb : b.Weighed) :
    compareLayerDrawers a b = layerCmp a b := by
  obtain ⟨x, hx⟩ := Option.isSome_iff_exists.1 ha
  obtain ⟨y, hy⟩ := Option.isSome_iff_exists.1 hb
  have hweights : (partialCmp b.layerWeight a.layerWeight).getD .eq =
      compare (floatKey b.layerWeight) (floatKey a.layerWeight) := by
    unfold partialCmp
    rw [hx, hy]
    rfl
  unfold compareLayerDrawers layerCmp
  rw [hweights]

theorem layerCmp_lex : layerCmp =
    compareLex (fun a b => compareOn (fun r => floatKey r.layerWeight) b a) (compareLex
      (compareOn (·.room)) <| compareLex
      (fun a b => compareOn (fun r => r.date.map (·.days)) b a) <| compareLex
      (fun a b => compareOn (·.filedAt.nanos) b a) <| compareLex
      (compareOn fun r => sourceLabel r.sourceFile) <| compareLex
      (compareOn (·.chunkIndex)) (compareOn (·.id))) := rfl

instance : Std.TransCmp layerCmp := by
  rw [layerCmp_lex]
  have hweight : Std.TransCmp fun a b : DrawerRecord =>
      compareOn (fun r => floatKey r.layerWeight) b a := Std.TransCmp.opposite
  have hdate : Std.TransCmp fun a b : DrawerRecord =>
      compareOn (fun r => r.date.map (·.days)) b a := Std.TransCmp.opposite
  have hfiled : Std.TransCmp fun a b : DrawerRecord =>
      compareOn (·.filedAt.nanos) b a := Std.TransCmp.opposite
  infer_instance

theorem layerCmp_id {a b : DrawerRecord} (h : layerCmp a b = .eq) : a.id = b.id := by
  simp only [layerCmp, Ordering.then_eq_eq] at h
  exact Std.compare_eq_iff_eq.1 h.2.2.2.2.2.2

theorem untied_layerCmp {l : List DrawerRecord} (h : (l.map (·.id)).Nodup) :
    Untied (CmpLE layerCmp) l :=
  fun _ ha _ hb hab hba => List.inj_on_of_nodup_map h ha hb (layerCmp_id (hab.eq hba))

theorem cmpLE_layer {a b : DrawerRecord} (ha : a.Weighed) (hb : b.Weighed) :
    CmpLE compareLayerDrawers a b ↔ CmpLE layerCmp a b := by
  unfold CmpLE
  rw [compareLayerDrawers_eq ha hb]

theorem insertionSort_layer {l : List DrawerRecord} (h : ∀ r ∈ l, r.Weighed) :
    l.insertionSort (CmpLE compareLayerDrawers) = l.insertionSort (CmpLE layerCmp) := by
  have hmap := List.map_insertionSort (CmpLE compareLayerDrawers) (CmpLE layerCmp) id l
    fun a ha b hb => cmpLE_layer (h a ha) (h b hb)
  rwa [List.map_id, List.map_id] at hmap

/-! ## The buffer -/

theorem insertTop_eq {top : List DrawerRecord} {candidate : DrawerRecord} (limit : Nat)
    (htop : ∀ r ∈ top, r.Weighed) (h : candidate.Weighed) :
    insertTop compareLayerDrawers limit top candidate =
      insertBounded (CmpLE layerCmp) limit top candidate := by
  have hbehind : ∀ r ∈ top, (compareLayerDrawers r candidate ≠ .gt ↔
      CmpLE layerCmp r candidate) := by
    intro r hr
    rw [compareLayerDrawers_eq (htop r hr) h]
    exact Ordering.ne_gt_iff_isLE
  have hinsert : insertAfter
      (fun existing candidate => compareLayerDrawers existing candidate ≠ .gt) candidate top =
        insertAfter (CmpLE layerCmp) candidate top := insertAfter_congr hbehind
  exact congrArg (List.take limit) hinsert

theorem foldl_insertTop_eq {candidates top : List DrawerRecord} (limit : Nat)
    (htop : ∀ r ∈ top, r.Weighed) (h : ∀ r ∈ candidates, r.Weighed) :
    candidates.foldl (insertTop compareLayerDrawers limit) top =
      candidates.foldl (insertBounded (CmpLE layerCmp) limit) top := by
  induction candidates generalizing top with
  | nil => rfl
  | cons candidate candidates ih =>
    rw [List.foldl_cons, List.foldl_cons, insertTop_eq limit htop (h _ List.mem_cons_self)]
    refine ih (fun r hr => ?_) fun r hr => h r (List.mem_cons_of_mem _ hr)
    have hmem := (insertAfter_perm candidate top).mem_iff.1 (List.mem_of_mem_take hr)
    rcases List.mem_cons.1 hmem with rfl | hmem
    · exact h _ List.mem_cons_self
    · exact htop r hmem

theorem foldl_insertTop {candidates : List DrawerRecord} (limit : Nat)
    (hids : (candidates.map (·.id)).Nodup) (h : ∀ r ∈ candidates, r.Weighed) :
    candidates.foldl (insertTop compareLayerDrawers limit) [] =
      (candidates.insertionSort (CmpLE layerCmp)).take limit := by
  rw [foldl_insertTop_eq limit (by simp) h]
  have hnil : ([] : List DrawerRecord) =
      (([] : List DrawerRecord).insertionSort (CmpLE layerCmp)).take limit := by simp
  rw [hnil, foldl_insertBounded limit (untied_layerCmp (by simpa using hids))]
  rfl

/-! ## Decoding -/

/-- A row is decoded in full where its metadata is. -/
theorem readable_of_metadata {r x : DrawerRecord} (h : layerMetadata (drawerRow r) = .ok x) :
    r.Readable := by
  have hprovenance : (drawerRow r).provenanceJson.mapM checkProvenance = .ok r.provenance :=
    provenance_back r.provenance
  unfold layerMetadata at h
  obtain ⟨id, hid, h⟩ := bind_ok h
  obtain ⟨wing, hwing, h⟩ := bind_ok h
  obtain ⟨room, hroom, h⟩ := bind_ok h
  obtain ⟨date, hdate, h⟩ := bind_ok h
  obtain ⟨filedAt, hfiled, h⟩ := bind_ok h
  have hfull : ∃ y, recordFromRow (drawerRow r) = .ok y := by
    unfold recordFromRow
    rw [hid, hwing, hroom, hdate, hfiled, hprovenance]
    exact ⟨_, rfl⟩
  exact readable_of_ok hfull.choose_spec

theorem toOption_eq_none {ε α : Type} {x : Except ε α} (h : ∀ a, x ≠ .ok a) :
    x.toOption = none := by
  cases x with
  | error e => rfl
  | ok a => exact absurd rfl (h a)

def selected (filter : DrawerFilter) (table : List DrawerRecord) : List DrawerRecord :=
  table.filter fun r => compileFilter filter (drawerRow r)

theorem filter_rows (filter : DrawerFilter) (table : List DrawerRecord) :
    (table.map drawerRow).filter (compileFilter filter) = (selected filter table).map drawerRow :=
  List.filter_map

section
variable {filter : DrawerFilter} {table : List DrawerRecord} {batches : List (List DrawerRecord)}
  {limit : Nat} {top : List DrawerRecord}

theorem listDrawers_readable (h : ∀ r ∈ selected filter table, r.Readable) :
    listDrawers (compileFilter filter) none (table.map drawerRow) =
      .ok ((selected filter table).map (·.asRead)) := by
  unfold listDrawers
  rw [filter_rows]
  show (List.map drawerRow (selected filter table)).mapM recordFromRow = _
  rw [List.mapM_map]
  exact list_mapM_ok fun r hr => recordFromRow_readable (h r hr)

theorem readable_of_listDrawers {records : List DrawerRecord}
    (h : listDrawers (compileFilter filter) none (table.map drawerRow) = .ok records) :
    ∀ r ∈ selected filter table, r.Readable := by
  unfold listDrawers at h
  rw [filter_rows] at h
  intro r hr
  obtain ⟨x, hx⟩ := list_mapM_mem h (drawerRow r)
    (List.mem_map_of_mem hr)
  exact readable_of_ok hx

theorem streamTop_readable (h : ∀ r ∈ selected filter batches.flatten, r.Readable) :
    streamTop (compileFilter filter) limit (batches.map (·.map drawerRow)) top =
      .ok (((selected filter batches.flatten).map (·.asRead.metadata)).foldl
        (insertTop compareLayerDrawers limit) top) := by
  induction batches generalizing top with
  | nil => rfl
  | cons batch batches ih =>
    have hsplit : selected filter (batch :: batches).flatten =
        selected filter batch ++ selected filter batches.flatten := List.filter_append ..
    rw [hsplit] at h ⊢
    have hbatch : ((selected filter batch).map drawerRow).mapM layerMetadata =
        .ok ((selected filter batch).map (·.asRead.metadata)) := by
      rw [List.mapM_map]
      exact list_mapM_ok fun r hr => layerMetadata_eq (h r (List.mem_append_left _ hr))
    rw [List.map_cons, streamTop, filter_rows, hbatch, List.map_append, List.foldl_append]
    exact ih fun r hr => h r (List.mem_append_right _ hr)

theorem readable_of_streamTop {out : List DrawerRecord}
    (h : streamTop (compileFilter filter) limit (batches.map (·.map drawerRow)) top = .ok out) :
    ∀ r ∈ selected filter batches.flatten, r.Readable := by
  induction batches generalizing top with
  | nil => simp [selected]
  | cons batch batches ih =>
    have hsplit : selected filter (batch :: batches).flatten =
        selected filter batch ++ selected filter batches.flatten := List.filter_append ..
    rw [List.map_cons, streamTop, filter_rows] at h
    obtain ⟨candidates, hcandidates, h⟩ := bind_ok h
    intro r hr
    rw [hsplit] at hr
    rcases List.mem_append.1 hr with hr | hr
    · obtain ⟨x, hx⟩ := list_mapM_mem hcandidates _ (List.mem_map_of_mem hr)
      exact readable_of_metadata hx
    · exact ih h r hr

/-! ## The lists -/

theorem selected_perm {table' : List DrawerRecord} (h : table.Perm table') :
    (selected filter table).Perm (selected filter table') := h.filter _

/-- The selected drawers as they are read, in the layer order. -/
def inOrder (filter : DrawerFilter) (table : List DrawerRecord) : List DrawerRecord :=
  ((selected filter table).map (·.asRead)).insertionSort (CmpLE layerCmp)

/-- The ids of the table are distinct, and its weights are numbers. -/
structure Sound (table : List DrawerRecord) : Prop where
  ids : (table.map (·.id)).Nodup
  weighed : ∀ r ∈ table, r.Weighed

theorem Sound.perm {table' : List DrawerRecord} (h : Sound table) (hperm : table'.Perm table) :
    Sound table' where
  ids := (hperm.map _).nodup_iff.2 h.ids
  weighed r hr := h.weighed r (hperm.mem_iff.1 hr)

theorem Sound.selected (h : Sound table) (filter : DrawerFilter) :
    Sound ((selected filter table).map (·.asRead)) where
  ids := by
    rw [List.map_map]
    exact h.ids.sublist (List.filter_sublist.map _)
  weighed r hr := by
    obtain ⟨x, hx, rfl⟩ := List.mem_map.1 hr
    exact h.weighed x (List.mem_filter.1 hx).1

theorem inOrder_perm {table' : List DrawerRecord} (h : Sound table) (hperm : table'.Perm table) :
    inOrder filter table' = inOrder filter table :=
  (insertionSort_perm ((selected_perm hperm).symm.map _)
    (untied_layerCmp (h.selected filter).ids)).symm

theorem defaultList_readable (hsound : Sound table)
    (h : ∀ r ∈ selected filter table, r.Readable) :
    defaultListLayerDrawers filter limit (table.map drawerRow) =
      .ok ((inOrder filter table).take limit) := by
  unfold defaultListLayerDrawers
  split
  · rename_i hzero
    rw [hzero, List.take_zero]
  · show listDrawers (compileFilter filter) none (table.map drawerRow) >>= _ = _
    rw [listDrawers_readable h]
    show Except.ok ((((selected filter table).map (·.asRead)).insertionSort
      (CmpLE compareLayerDrawers)).take limit) = _
    rw [insertionSort_layer (hsound.selected filter).weighed]
    rfl

/-- The buffer holds the metadata of the first drawers of the order. -/
theorem streamTop_inOrder (hsound : Sound batches.flatten)
    (h : ∀ r ∈ selected filter batches.flatten, r.Readable) :
    streamTop (compileFilter filter) limit (batches.map (·.map drawerRow)) [] =
      .ok (((inOrder filter batches.flatten).take limit).map (·.metadata)) := by
  have hread := hsound.selected filter
  have hmap : (selected filter batches.flatten).map (·.asRead.metadata) =
      ((selected filter batches.flatten).map (·.asRead)).map (·.metadata) := by
    rw [List.map_map]
    rfl
  have hids : ((((selected filter batches.flatten).map (·.asRead)).map (·.metadata)).map
      (·.id)).Nodup := by
    rw [List.map_map]
    exact hread.ids
  have hweighed : ∀ r ∈ ((selected filter batches.flatten).map (·.asRead)).map (·.metadata),
      r.Weighed := by
    intro r hr
    obtain ⟨x, hx, rfl⟩ := List.mem_map.1 hr
    exact hread.weighed x hx
  rw [streamTop_readable h, hmap, foldl_insertTop limit hids hweighed]
  rw [← List.map_insertionSort (CmpLE layerCmp) (CmpLE layerCmp) DrawerRecord.metadata _
    fun a _ b _ => Iff.rfl, ← List.map_take]
  rfl

/-- The drawers with the ids of the first ones of the order. -/
def fetched (filter : DrawerFilter) (limit : Nat) (table : List DrawerRecord) :
    List DrawerRecord :=
  table.filter fun r => (((inOrder filter table).take limit).map (·.id)).contains r.id

/-- The fetch by id meets the first drawers of the order, in some order. -/
theorem fetched_perm (hsound : Sound table) :
    ((fetched filter limit table).map (·.asRead)).Perm ((inOrder filter table).take limit) := by
  have hread := hsound.selected filter
  have hperm : (inOrder filter table).Perm ((selected filter table).map (·.asRead)) :=
    List.perm_insertionSort _ _
  have hordered : ((inOrder filter table).take limit).Nodup :=
    List.Nodup.sublist (List.take_sublist _ _) (hperm.nodup_iff.2 hread.ids.of_map)
  have hfetched : ((fetched filter limit table).map (·.asRead)).Nodup := by
    refine List.Nodup.of_map (·.id) ?_
    rw [List.map_map]
    exact hsound.ids.sublist (List.filter_sublist.map _)
  refine (List.perm_ext_iff_of_nodup hfetched hordered).2 fun x => ?_
  have hin : ∀ x ∈ (inOrder filter table).take limit, ∃ r ∈ table, r.asRead = x := by
    intro x hx
    obtain ⟨r, hr, rfl⟩ := List.mem_map.1 (hperm.mem_iff.1 (List.mem_of_mem_take hx))
    exact ⟨r, (List.mem_filter.1 hr).1, rfl⟩
  simp only [fetched, List.mem_map, List.mem_filter, List.contains_iff_mem]
  constructor
  · rintro ⟨r, ⟨hr, y, hy, hid⟩, rfl⟩
    obtain ⟨s, hs, rfl⟩ := hin y hy
    rwa [← List.inj_on_of_nodup_map hsound.ids hs hr hid]
  · intro hx
    obtain ⟨r, hr, rfl⟩ := hin x hx
    exact ⟨r, ⟨hr, _, hx, rfl⟩, rfl⟩

theorem fetched_length_le (hsound : Sound table) : (fetched filter limit table).length ≤ limit := by
  have hlength : ((fetched filter limit table).map (·.asRead)).length =
      ((inOrder filter table).take limit).length := (fetched_perm hsound).length_eq
  rw [List.length_map] at hlength
  rw [hlength]
  exact List.length_take_le _ _

theorem mem_selected_of_first {x : DrawerRecord} (hx : x ∈ (inOrder filter table).take limit) :
    x ∈ (selected filter table).map (·.asRead) :=
  (List.mem_insertionSort _).1 (List.mem_of_mem_take hx)

theorem fetched_readable (hsound : Sound table) (h : ∀ r ∈ selected filter table, r.Readable) :
    ∀ r ∈ fetched filter limit table, r.Readable := by
  intro r hr
  have hfirst := (fetched_perm hsound).mem_iff.1 (List.mem_map_of_mem hr)
  obtain ⟨s, hs, hsr⟩ := List.mem_map.1 (mem_selected_of_first hfirst)
  have hid : s.id = r.id := congrArg (·.id) hsr
  rw [← List.inj_on_of_nodup_map hsound.ids (List.mem_filter.1 hs).1 (List.mem_filter.1 hr).1 hid]
  exact h s hs

theorem fetched_sorted (hsound : Sound table) :
    ((fetched filter limit table).map (·.asRead)).insertionSort (CmpLE compareLayerDrawers) =
      (inOrder filter table).take limit := by
  have hread := hsound.selected filter
  have hperm : ((fetched filter limit table).map (·.asRead)).Perm
      ((inOrder filter table).take limit) := fetched_perm hsound
  have hweighed : ∀ r ∈ (fetched filter limit table).map (·.asRead), r.Weighed :=
    fun r hr => hread.weighed r (mem_selected_of_first (hperm.mem_iff.1 hr))
  have huntied : Untied (CmpLE layerCmp) ((inOrder filter table).take limit) :=
    fun a ha b hb => untied_layerCmp hread.ids a (mem_selected_of_first ha) b
      (mem_selected_of_first hb)
  rw [insertionSort_layer hweighed, ← insertionSort_perm hperm.symm huntied]
  refine List.Pairwise.insertionSort_eq ?_
  exact (List.pairwise_insertionSort _ _).sublist (List.take_sublist _ _)

theorem streamList_readable {bodies : List DrawerRecord} (hsound : Sound bodies)
    (hperm : batches.flatten.Perm bodies) (h : ∀ r ∈ selected filter bodies, r.Readable) :
    streamListLayerDrawers filter limit (batches.map (·.map drawerRow)) (bodies.map drawerRow) =
      .ok ((inOrder filter bodies).take limit) := by
  have hscan : ∀ r ∈ selected filter batches.flatten, r.Readable :=
    fun r hr => h r ((selected_perm hperm).mem_iff.1 hr)
  unfold streamListLayerDrawers
  split
  · rename_i hzero
    rw [hzero, List.take_zero]
  · rw [streamTop_inOrder (hsound.perm hperm) hscan, inOrder_perm hsound hperm]
    show (if (((inOrder filter bodies).take limit).map (·.metadata)).isEmpty then _ else _ :
      Except _ _) = _
    split
    · rename_i hempty
      rw [List.isEmpty_iff, List.map_eq_nil_iff] at hempty
      rw [hempty]
      rfl
    · have hids : (((inOrder filter bodies).take limit).map (·.metadata)).map (·.id) =
          ((inOrder filter bodies).take limit).map (·.id) := by
        rw [List.map_map]
        rfl
      have hrows : (bodies.map drawerRow).filter (fun row =>
          (((inOrder filter bodies).take limit).map (·.id)).contains row.id) =
          (fetched filter limit bodies).map drawerRow := List.filter_map
      have hdecoded : ((fetched filter limit bodies).map drawerRow).mapM recordFromRow =
          .ok ((fetched filter limit bodies).map (·.asRead)) := by
        rw [List.mapM_map]
        exact list_mapM_ok fun r hr => recordFromRow_readable (fetched_readable hsound h r hr)
      show ((((bodies.map drawerRow).filter fun row =>
        ((((inOrder filter bodies).take limit).map (·.metadata)).map (·.id)).contains
          row.id).take limit).mapM recordFromRow >>= _ : Except _ _) = _
      rw [hids, hrows, ← List.map_take, List.take_of_length_le (fetched_length_le hsound), hdecoded]
      exact congrArg Except.ok (fetched_sorted hsound)

/-! ## The counts -/

theorem countDrawer_comm (counts : Counts) (a b : String × String) :
    countDrawer (countDrawer counts a) b = countDrawer (countDrawer counts b) a := by
  unfold countDrawer
  refine OrdMap.alter_comm counts fun _ rooms => ?_
  show ((rooms.getD OrdMap.empty).alter a.2 fun count => count.getD 0 + 1).alter b.2 _ =
    ((rooms.getD OrdMap.empty).alter b.2 fun count => count.getD 0 + 1).alter a.2 _
  exact OrdMap.alter_comm (rooms.getD OrdMap.empty) fun _ count => rfl

def countPlaces (places : List (String × String)) : Counts :=
  places.foldl countDrawer OrdMap.empty

theorem countPlaces_perm {places places' : List (String × String)} (h : places.Perm places') :
    countPlaces places = countPlaces places' :=
  h.foldl_eq' (fun a _ b _ counts => countDrawer_comm counts a b) _

def countedPlaces (filter : DrawerFilter) (excludeDiary : Bool) (table : List DrawerRecord) :
    List (String × String) :=
  ((selected filter table).filter fun r => !excludeDiary ||
    r.wing != sharedAgentDiaryWing && r.room != diaryRoom).map fun r => (r.wing, r.room)

theorem countedPlaces_perm {table' : List DrawerRecord} (excludeDiary : Bool)
    (h : table.Perm table') :
    (countedPlaces filter excludeDiary table).Perm (countedPlaces filter excludeDiary table') :=
  ((selected_perm h).filter _).map _

theorem streamCount_eq (excludeDiary : Bool) :
    streamCountByWingRoom filter excludeDiary (batches.map (·.map drawerRow)) =
      countPlaces (countedPlaces filter excludeDiary batches.flatten) := by
  have hbatches : ∀ counts : Counts, (batches.map (·.map drawerRow)).foldl (fun counts batch =>
      (batch.filter fun row => compileFilter filter row && (!excludeDiary ||
        row.wing != sharedAgentDiaryWing && row.room != diaryRoom)).foldl
          (fun counts row => countDrawer counts (row.wing, row.room)) counts) counts =
        (countedPlaces filter excludeDiary batches.flatten).foldl countDrawer counts := by
    induction batches with
    | nil => exact fun _ => rfl
    | cons batch batches ih =>
      intro counts
      have hsplit : countedPlaces filter excludeDiary (batch :: batches).flatten =
          countedPlaces filter excludeDiary batch ++
            countedPlaces filter excludeDiary batches.flatten := by
        unfold countedPlaces selected
        rw [List.flatten_cons, List.filter_append, List.filter_append, List.map_append]
      have hpredicate : ∀ r : DrawerRecord, (compileFilter filter (drawerRow r) &&
          (!excludeDiary || (drawerRow r).wing != sharedAgentDiaryWing &&
            (drawerRow r).room != diaryRoom)) = ((!excludeDiary ||
              r.wing != sharedAgentDiaryWing && r.room != diaryRoom) &&
                compileFilter filter (drawerRow r)) := fun r => Bool.and_comm _ _
      have hbatch : ((batch.map drawerRow).filter fun row => compileFilter filter row &&
          (!excludeDiary || row.wing != sharedAgentDiaryWing && row.room != diaryRoom)).foldl
            (fun counts row => countDrawer counts (row.wing, row.room)) counts =
          (countedPlaces filter excludeDiary batch).foldl countDrawer counts := by
        unfold countedPlaces selected
        rw [List.filter_map, List.foldl_map, List.filter_filter, List.foldl_map]
        simp only [Function.comp_def, hpredicate]
        rfl
      rw [List.map_cons, List.foldl_cons, ih, hsplit, List.foldl_append, hbatch]
  exact hbatches _

theorem defaultCount_readable (excludeDiary : Bool)
    (h : ∀ r ∈ selected filter table, r.Readable) :
    defaultCountByWingRoom filter excludeDiary (table.map drawerRow) =
      .ok (countPlaces (countedPlaces filter excludeDiary table)) := by
  unfold defaultCountByWingRoom
  show listDrawers (compileFilter filter) none (table.map drawerRow) >>= _ = _
  rw [listDrawers_readable h]
  refine congrArg Except.ok ?_
  unfold countPlaces countedPlaces
  rw [List.foldl_map, List.foldl_map, List.foldl_filter]
  refine congrArg (fun f => List.foldl f OrdMap.empty (selected filter table)) ?_
  funext counts r
  have hskip : (excludeDiary && (r.asRead.wing == sharedAgentDiaryWing ||
      r.asRead.room == diaryRoom)) = !(!excludeDiary ||
        r.wing != sharedAgentDiaryWing && r.room != diaryRoom) := by
    show (excludeDiary && (r.wing == sharedAgentDiaryWing || r.room == diaryRoom)) = _
    simp [bne]
  rw [hskip]
  cases (!excludeDiary || r.wing != sharedAgentDiaryWing && r.room != diaryRoom) <;> rfl

end

/-- **The streaming reads agree with the plain ones.** Of a table with distinct ids
and numbers as weights, however its rows are ordered and put in batches, both
lists are one list, or both reads fail; the counts are those of the plain read,
which fails just if a row it selects does not read back. -/
theorem layer_reads_agree (filter : DrawerFilter) (limit : Nat) (excludeDiary : Bool)
    (table : List DrawerRecord) (hsound : Sound table) (batches : List (List DrawerRecord))
    (bodies listed : List DrawerRecord) (hbatches : batches.flatten.Perm table)
    (hbodies : bodies.Perm table) (hlisted : listed.Perm table) :
    (streamListLayerDrawers filter limit (batches.map (·.map drawerRow))
        (bodies.map drawerRow)).toOption =
      (defaultListLayerDrawers filter limit (listed.map drawerRow)).toOption ∧
    (∀ counts, defaultCountByWingRoom filter excludeDiary (listed.map drawerRow) = .ok counts →
      streamCountByWingRoom filter excludeDiary (batches.map (·.map drawerRow)) = counts) ∧
    ((∃ counts, defaultCountByWingRoom filter excludeDiary (listed.map drawerRow) = .ok counts) ↔
      ∀ r ∈ selected filter table, r.Readable) := by
  have hreadable : ∀ {table' : List DrawerRecord}, table'.Perm table →
      ((∀ r ∈ selected filter table', r.Readable) ↔ ∀ r ∈ selected filter table, r.Readable) :=
    fun hperm => forall_congr' fun r => by rw [(selected_perm hperm).mem_iff]
  have hfails : ∀ {counts}, defaultCountByWingRoom filter excludeDiary (listed.map drawerRow) =
      .ok counts → ∀ r ∈ selected filter table, r.Readable := by
    intro counts h
    obtain ⟨drawers, hdrawers, _⟩ := bind_ok h
    exact (hreadable hlisted).1 (readable_of_listDrawers hdrawers)
  refine ⟨?_, fun counts h => ?_, fun ⟨counts, h⟩ => hfails h, fun h =>
    ⟨_, defaultCount_readable excludeDiary ((hreadable hlisted).2 h)⟩⟩
  · rcases Nat.eq_zero_or_pos limit with rfl | hpos
    · rfl
    by_cases h : ∀ r ∈ selected filter table, r.Readable
    · rw [streamList_readable (hsound.perm hbodies) (hbatches.trans hbodies.symm)
        ((hreadable hbodies).2 h), defaultList_readable (hsound.perm hlisted)
        ((hreadable hlisted).2 h), inOrder_perm hsound hbodies, inOrder_perm hsound hlisted]
    · rw [toOption_eq_none fun drawers hok => ?_, toOption_eq_none fun drawers hok => ?_]
      · unfold defaultListLayerDrawers at hok
        rw [if_neg hpos.ne'] at hok
        obtain ⟨_, hdrawers, _⟩ := bind_ok hok
        exact h ((hreadable hlisted).1 (readable_of_listDrawers hdrawers))
      · unfold streamListLayerDrawers at hok
        rw [if_neg hpos.ne'] at hok
        obtain ⟨_, htop, _⟩ := bind_ok hok
        exact h ((hreadable hbatches).1 (readable_of_streamTop htop))
  · have hall := (hreadable hlisted).2 (hfails h)
    rw [defaultCount_readable excludeDiary hall] at h
    rw [streamCount_eq, ← Except.ok.inj h]
    exact countPlaces_perm (countedPlaces_perm excludeDiary (hbatches.trans hlisted.symm))

/-- A drawer of default weight. -/
def plainRecord : DrawerRecord := { lateRecord with filedAt := ⟨1775088000000000000, 0⟩ }

/-- A drawer of weight 5. -/
def heavyRecord : DrawerRecord :=
  { plainRecord with id := "late/2", importance := some 1084227584 }

theorem layer_reads_agree_sample :
    (streamListLayerDrawers {} 1 [[drawerRow plainRecord], [drawerRow heavyRecord]]
        [drawerRow heavyRecord, drawerRow plainRecord]).toOption =
      (defaultListLayerDrawers {} 1 [drawerRow plainRecord, drawerRow heavyRecord]).toOption := by
  have hsound : Sound [plainRecord, heavyRecord] := by
    refine ⟨by decide, fun r hr => ?_⟩
    simp only [List.mem_cons, List.not_mem_nil, or_false] at hr
    rcases hr with rfl | rfl <;> rfl
  exact (layer_reads_agree {} 1 true [plainRecord, heavyRecord] hsound
    [[plainRecord], [heavyRecord]] [heavyRecord, plainRecord] [plainRecord, heavyRecord]
    (List.Perm.refl _) (List.Perm.swap _ _ _) (List.Perm.refl _)).1

end AgentPalace.Lance
