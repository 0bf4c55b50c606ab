import AgentPalace.Lib.Bfs
import AgentPalace.Lib.SortBy
import AgentPalace.Lib.OrdMap
import AgentPalace.Storage.DrawerRow
import Mathlib.Data.String.Basic

/-!
# Rooms and the ways between them

`derivePalaceGraph` collects the rooms of the drawers with their wings; the order
of the drawers plays no part (`derivePalaceGraph_perm`). `traverseGraph` walks from
a room through rooms that share a wing, and lists what it meets up to a number of
hops, nearest first, cut at 50. The walk is a breadth-first search, so every hop is
a shortest distance (`traverse_exact`).
-/

namespace AgentPalace.Graph

open Lance (DrawerRecord)

/-! ## The snapshot -/

abbrev OrdSet (κ : Type) [LinearOrder κ] := OrdMap κ Unit

structure RoomAccumulator where
  wings : OrdSet String := OrdMap.empty
  halls : OrdSet String := OrdMap.empty
  dates : OrdSet String := OrdMap.empty
  count : Nat := 0

structure PalaceRoomNode where
  room : String
  wings : List String
  halls : List String
  count : Nat
  dates : List String
  deriving DecidableEq

structure PalaceTunnel where
  room : String
  wings : List String
  halls : List String
  count : Nat
  recent : Option String

structure PalaceTunnelSummary where
  room : String
  wings : List String
  count : Nat

structure PalaceGraphStats where
  totalRooms : Nat
  tunnelRooms : Nat
  totalEdges : Nat
  roomsPerWing : OrdMap String Nat
  topTunnels : List PalaceTunnelSummary

structure PalaceGraphSnapshot where
  nodes : OrdMap String PalaceRoomNode
  tunnels : List PalaceTunnel
  stats : PalaceGraphStats

def accumulate (drawer : DrawerRecord) (entry : Option RoomAccumulator) : RoomAccumulator :=
  let entry := entry.getD {}
  { count := entry.count + 1
    wings := entry.wings.insert drawer.wing ()
    halls := drawer.hall.elim entry.halls (entry.halls.insert · ())
    dates := drawer.date.elim entry.dates fun date => entry.dates.insert date.text () }

def roomData (drawers : List DrawerRecord) : OrdMap String RoomAccumulator :=
  drawers.foldl (fun data drawer =>
    if drawer.room = "general" then data else data.alter drawer.room (accumulate drawer))
    OrdMap.empty

/-- The pairs of a list, each in the order of the list. -/
def pairsOf : List String → List (String × String)
  | [] => []
  | left :: wings => wings.map (left, ·) ++ pairsOf wings

/-- The ways through a room: two of its wings, and a hall. -/
def edgesOf (room : String) (data : RoomAccumulator) : List (String × String × String × String) :=
  if data.wings.keys.length < 2 then []
  else
    let halls := if data.halls.keys = [] then [""] else data.halls.keys
    (pairsOf data.wings.keys).flatMap fun pair => halls.map fun hall => (room, pair.1, pair.2, hall)

def nodeOf (room : String) (data : RoomAccumulator) : PalaceRoomNode where
  room
  wings := data.wings.keys
  halls := data.halls.keys
  count := data.count
  dates := (data.dates.keys.reverse.take 5).reverse

def tunnelOf (node : PalaceRoomNode) : Option PalaceTunnel :=
  if 2 ≤ node.wings.length then
    some ⟨node.room, node.wings, node.halls, node.count, node.dates.getLast?⟩
  else none

def compareTunnels (left right : PalaceTunnel) : Ordering :=
  (compare right.count left.count).then (compare left.room right.room)

def derivePalaceGraph (drawers : List DrawerRecord) : PalaceGraphSnapshot :=
  let data := roomData drawers
  let edges := (data.entries.flatMap fun e => edgesOf e.1 e.2).foldl (fun s e => s.insert e) []
  let nodes := data.mapEntries nodeOf
  let roomsPerWing := nodes.values.foldl (fun (rooms : OrdMap String Nat) node =>
    node.wings.foldl (fun rooms wing => rooms.alter wing fun n => n.getD 0 + 1) rooms) OrdMap.empty
  let tunnels := (nodes.values.filterMap tunnelOf).insertionSort (CmpLE compareTunnels)
  { nodes, tunnels
    stats := {
      totalRooms := nodes.size
      tunnelRooms := tunnels.length
      totalEdges := edges.length
      roomsPerWing
      topTunnels := (tunnels.take 10).map fun tunnel =>
        ⟨tunnel.room, tunnel.wings, tunnel.count⟩ } }

/-! ## The walk -/

structure PalaceTraversalStep where
  room : String
  wings : List String
  halls : List String
  count : Nat
  hop : Nat
  connectedVia : List String
  deriving DecidableEq

/-- What a walk has visited, and what it has still to look at. -/
structure Traversal where
  visited : List String
  frontier : List (String × Nat)
  steps : List PalaceTraversalStep

def stepOf (node : PalaceRoomNode) (hop : Nat) (shared : List String) : PalaceTraversalStep :=
  ⟨node.room, node.wings, node.halls, node.count, hop, shared⟩

def sharedWings (current node : PalaceRoomNode) : List String :=
  node.wings.filter fun wing => current.wings.contains wing

/-- One room of the snapshot, seen from the room that is expanded. -/
def visitRoom (current : PalaceRoomNode) (depth : Nat) (walk : Traversal)
    (entry : String × PalaceRoomNode) : Traversal :=
  if walk.visited.contains entry.1 then walk
  else
    let shared := sharedWings current entry.2
    if shared = [] then walk
    else
      { visited := entry.1 :: walk.visited
        frontier := walk.frontier ++ [(entry.1, depth + 1)]
        steps := walk.steps ++ [{ stepOf entry.2 (depth + 1) shared with room := entry.1 }] }

/-- The loop over the frontier, which ends within the fuel or gives nothing. -/
def walkRooms (nodes : OrdMap String PalaceRoomNode) (maxHops : Nat) :
    Nat → Traversal → Option (List PalaceTraversalStep)
  | 0, _ => none
  | fuel + 1, walk =>
    match walk.frontier with
    | [] => some walk.steps
    | (room, depth) :: frontier =>
      let walk := { walk with frontier }
      if maxHops ≤ depth then walkRooms nodes maxHops fuel walk
      else
        match nodes.get? room with
        | none => none
        | some current =>
          walkRooms nodes maxHops fuel (nodes.entries.foldl (visitRoom current depth) walk)

def compareSteps (left right : PalaceTraversalStep) : Ordering :=
  (compare left.hop right.hop).then <| (compare right.count left.count).then
    (compare left.room right.room)

def allSteps (snapshot : PalaceGraphSnapshot) (startRoom : String) (maxHops : Nat) :
    Option (List PalaceTraversalStep) :=
  match snapshot.nodes.get? startRoom with
  | none => some []
  | some start =>
    (walkRooms snapshot.nodes maxHops (snapshot.nodes.size + 1) {
      visited := [startRoom]
      frontier := [(startRoom, 0)]
      steps := [{ stepOf start 0 [] with room := startRoom }] }).map
      (·.insertionSort (CmpLE compareSteps))

def traverseGraph (snapshot : PalaceGraphSnapshot) (startRoom : String) (maxHops : Nat) :
    Option (List PalaceTraversalStep) :=
  (allSteps snapshot startRoom maxHops).map (·.take 50)

/-! ## The order of the drawers -/

theorem insert_unit_comm {κ : Type} [LinearOrder κ] (s : OrdSet κ) (a b : κ) :
    (s.insert a ()).insert b () = (s.insert b ()).insert a () := by
  refine OrdMap.ext_get? fun k => ?_
  simp only [OrdMap.get?_insert]
  split <;> split <;> rfl

theorem accumulate_comm (a b : DrawerRecord) (entry : Option RoomAccumulator) :
    accumulate b (some (accumulate a entry)) = accumulate a (some (accumulate b entry)) := by
  have hhalls : ∀ halls : OrdSet String,
      b.hall.elim (a.hall.elim halls (halls.insert · ()))
        ((a.hall.elim halls (halls.insert · ())).insert · ()) =
      a.hall.elim (b.hall.elim halls (halls.insert · ()))
        ((b.hall.elim halls (halls.insert · ())).insert · ()) := by
    intro halls
    cases a.hall <;> cases b.hall <;> first | rfl | exact insert_unit_comm _ _ _
  have hdates : ∀ dates : OrdSet String,
      b.date.elim (a.date.elim dates fun date => dates.insert date.text ())
        (fun date => (a.date.elim dates fun date => dates.insert date.text ()).insert
          date.text ()) =
      a.date.elim (b.date.elim dates fun date => dates.insert date.text ())
        (fun date => (b.date.elim dates fun date => dates.insert date.text ()).insert
          date.text ()) := by
    intro dates
    cases a.date <;> cases b.date <;> first | rfl | exact insert_unit_comm _ _ _
  simp only [accumulate, Option.getD_some, insert_unit_comm _ b.wing a.wing, hhalls, hdates]

theorem roomData_perm {drawers drawers' : List DrawerRecord} (h : drawers.Perm drawers') :
    roomData drawers = roomData drawers' := by
  refine h.foldl_eq' (fun a _ b _ data => ?_) _
  by_cases ha : a.room = "general"
  · simp only [ha, if_true]
  · by_cases hb : b.room = "general"
    · simp only [hb, if_true]
    · simp only [ha, hb, if_false]
      exact OrdMap.alter_comm data fun _ entry => accumulate_comm a b entry

theorem derivePalaceGraph_perm {drawers drawers' : List DrawerRecord} (h : drawers.Perm drawers') :
    derivePalaceGraph drawers = derivePalaceGraph drawers' := by
  unfold derivePalaceGraph
  rw [roomData_perm h]

/-! ## What a walk has reached -/

def SharesWing (nodes : OrdMap String PalaceRoomNode) (a b : String) : Prop :=
  ∃ m n, nodes.get? a = some m ∧ nodes.get? b = some n ∧ ∃ wing, wing ∈ m.wings ∧ wing ∈ n.wings

/-- The step shows a room of the snapshot, and the wings by which it was reached. -/
structure Reached (nodes : OrdMap String PalaceRoomNode) (start : String)
    (s : PalaceTraversalStep) : Prop where
  node : ∃ node, nodes.get? s.room = some node ∧ s.wings = node.wings ∧ s.halls = node.halls ∧
    s.count = node.count
  via : s.hop = 0 ∧ s.connectedVia = [] ∨ ∃ hop u current, s.hop = hop + 1 ∧
    IsDist (SharesWing nodes) start hop u ∧ nodes.get? u = some current ∧ s.connectedVia ≠ [] ∧
    ∀ wing, wing ∈ s.connectedVia ↔ wing ∈ current.wings ∧ wing ∈ s.wings

def found (steps : List PalaceTraversalStep) : List (String × Nat) :=
  steps.map fun s => (s.room, s.hop)

structure Walking (nodes : OrdMap String PalaceRoomNode) (start : String) (maxHops : Nat)
    (walk : Traversal) (k : Nat) : Prop where
  bfs : Bfs (SharesWing nodes) start maxHops (found walk.steps) walk.frontier k
  visited : ∀ room, room ∈ walk.visited ↔ room ∈ nodesOf (found walk.steps)
  reached : ∀ s ∈ walk.steps, Reached nodes start s

/-- The rooms that are new to the walk and share a wing with the current one. -/
def freshRooms (current : PalaceRoomNode) (walk : Traversal)
    (entries : List (String × PalaceRoomNode)) : List (String × PalaceRoomNode) :=
  entries.filter fun e => !walk.visited.contains e.1 && !(sharedWings current e.2).isEmpty

theorem mem_sharedWings {current node : PalaceRoomNode} {wing : String} :
    wing ∈ sharedWings current node ↔ wing ∈ current.wings ∧ wing ∈ node.wings := by
  rw [sharedWings, List.mem_filter, List.contains_iff_mem, and_comm]

theorem mem_freshRooms {current : PalaceRoomNode} {walk : Traversal}
    {entries : List (String × PalaceRoomNode)} {e : String × PalaceRoomNode} :
    e ∈ freshRooms current walk entries ↔
      e ∈ entries ∧ e.1 ∉ walk.visited ∧ sharedWings current e.2 ≠ [] := by
  simp [freshRooms]

def freshStep (current : PalaceRoomNode) (depth : Nat) (e : String × PalaceRoomNode) :
    PalaceTraversalStep :=
  { stepOf e.2 (depth + 1) (sharedWings current e.2) with room := e.1 }

/-- A scan of the rooms visits the new ones among them. -/
theorem foldl_visitRoom (current : PalaceRoomNode) (depth : Nat) (walk : Traversal)
    {entries : List (String × PalaceRoomNode)} (h : (entries.map (·.1)).Nodup) :
    let fresh := freshRooms current walk entries
    let out := entries.foldl (visitRoom current depth) walk
    (∀ room, room ∈ out.visited ↔ room ∈ walk.visited ∨ room ∈ fresh.map (·.1)) ∧
      out.frontier = walk.frontier ++ (fresh.map (·.1)).map (·, depth + 1) ∧
      out.steps = walk.steps ++ fresh.map (freshStep current depth) := by
  induction entries generalizing walk with
  | nil => simp [freshRooms]
  | cons e entries ih =>
    obtain ⟨hnew, hnodup⟩ := List.nodup_cons.1 h
    rw [List.foldl_cons]
    by_cases hfresh : (!walk.visited.contains e.1 && !(sharedWings current e.2).isEmpty) = true
    · obtain ⟨hvisited, hshared⟩ := Bool.and_eq_true_iff.1 hfresh
      rw [Bool.not_eq_true'] at hvisited hshared
      have hvisit : visitRoom current depth walk e =
          { visited := e.1 :: walk.visited
            frontier := walk.frontier ++ [(e.1, depth + 1)]
            steps := walk.steps ++ [freshStep current depth e] } := by
        unfold visitRoom
        rw [hvisited, if_neg Bool.false_ne_true]
        exact if_neg fun hnil => by simp [hnil] at hshared
      have hrest : freshRooms current (visitRoom current depth walk e) entries =
          freshRooms current walk entries := by
        rw [hvisit]
        refine List.filter_congr fun e' he' => ?_
        have hne : e'.1 ≠ e.1 := fun heq => hnew (List.mem_map.2 ⟨e', he', heq⟩)
        simp [hne]
      obtain ⟨hmem, hfrontier, hsteps⟩ := ih (visitRoom current depth walk e) hnodup
      have hcons : freshRooms current walk (e :: entries) =
          e :: freshRooms current walk entries := List.filter_cons_of_pos hfresh
      rw [hrest] at hmem hfrontier hsteps
      refine ⟨fun room => ?_, ?_, ?_⟩
      · rw [hmem, hvisit, hcons]
        simp only [List.mem_cons, List.map_cons]
        tauto
      · rw [hfrontier, hvisit, hcons]
        simp
      · rw [hsteps, hvisit, hcons]
        simp
    · have hcons : freshRooms current walk (e :: entries) = freshRooms current walk entries :=
        List.filter_cons_of_neg hfresh
      have hvisit : visitRoom current depth walk e = walk := by
        unfold visitRoom
        split
        · rfl
        · rename_i hvisited
          have hunseen : e.1 ∉ walk.visited := by simpa using hvisited
          refine if_pos ?_
          simpa [hunseen] using hfresh
      rw [hvisit, hcons]
      exact ih walk hnodup

section
variable {nodes : OrdMap String PalaceRoomNode} {start : String} {maxHops k : Nat}
  {walk : Traversal}

theorem nodup_entryKeys (nodes : OrdMap String PalaceRoomNode) :
    (nodes.entries.map (·.1)).Nodup := List.pairwise_map.2 (nodes.sorted.imp fun h => h.ne)

theorem Walking.init {node : PalaceRoomNode} (h : nodes.get? start = some node) :
    Walking nodes start maxHops {
      visited := [start]
      frontier := [(start, 0)]
      steps := [{ stepOf node 0 [] with room := start }] } 0 where
  bfs := Bfs.init _ start maxHops
  visited room := by simp [nodesOf, found]
  reached s hs := by
    rw [List.mem_singleton.1 hs]
    exact ⟨⟨node, h, rfl, rfl, rfl⟩, .inl ⟨rfl, rfl⟩⟩

theorem Walking.skip {room : String} {depth : Nat} {frontier : List (String × Nat)}
    (h : Walking nodes start maxHops walk k) (hfrontier : walk.frontier = (room, depth) :: frontier)
    (hbound : maxHops ≤ depth) : Walking nodes start maxHops { walk with frontier } depth where
  bfs := (hfrontier ▸ h.bfs).pop.skip hbound
  visited := h.visited
  reached := h.reached

theorem mem_freshRooms_entries {room v : String} {current : PalaceRoomNode}
    (hcurrent : nodes.get? room = some current) :
    v ∈ (freshRooms current walk nodes.entries).map (·.1) ↔
      SharesWing nodes room v ∧ v ∉ walk.visited := by
  constructor
  · intro hv
    obtain ⟨e, he, rfl⟩ := List.mem_map.1 hv
    obtain ⟨hentry, hunseen, hshared⟩ := mem_freshRooms.1 he
    obtain ⟨wing, hwing⟩ := List.exists_mem_of_ne_nil _ hshared
    exact ⟨⟨current, e.2, hcurrent, OrdMap.mem_entries.1 hentry, wing, mem_sharedWings.1 hwing⟩,
      hunseen⟩
  · rintro ⟨⟨m, n, hm, hn, wing, hwing⟩, hunseen⟩
    obtain rfl : current = m := Option.some.inj (hcurrent.symm.trans hm)
    exact List.mem_map.2 ⟨(v, n), mem_freshRooms.2 ⟨OrdMap.mem_entries.2 hn, hunseen,
      List.ne_nil_of_mem (mem_sharedWings.2 hwing)⟩, rfl⟩

theorem Walking.expand {room : String} {depth : Nat} {frontier : List (String × Nat)}
    {current : PalaceRoomNode} (h : Walking nodes start maxHops walk k)
    (hfrontier : walk.frontier = (room, depth) :: frontier) (hbound : depth < maxHops)
    (hcurrent : nodes.get? room = some current) :
    Walking nodes start maxHops
      (nodes.entries.foldl (visitRoom current depth) { walk with frontier }) depth := by
  obtain ⟨hmem, hqueue, hsteps⟩ := foldl_visitRoom current depth { walk with frontier }
    (nodup_entryKeys nodes)
  set fresh := freshRooms current { walk with frontier } nodes.entries with hfresh
  set out := nodes.entries.foldl (visitRoom current depth) { walk with frontier } with hout
  have hfound : found out.steps = found walk.steps ++ (fresh.map (·.1)).map (·, depth + 1) := by
    rw [hsteps, found, List.map_append, List.map_map, List.map_map]
    rfl
  have hpop : Bfs (SharesWing nodes) start maxHops (found walk.steps) ((room, depth) :: frontier)
      depth := (hfrontier ▸ h.bfs).pop
  have hnew : ∀ v, v ∈ fresh.map (·.1) ↔
      SharesWing nodes room v ∧ v ∉ nodesOf (found walk.steps) := by
    intro v
    rw [← h.visited]
    exact mem_freshRooms_entries hcurrent
  have hnodup : (fresh.map (·.1)).Nodup :=
    (nodup_entryKeys nodes).sublist (List.filter_sublist.map _)
  refine ⟨?_, fun v => ?_, fun s hs => ?_⟩
  · rw [hfound, hqueue]
    exact hpop.expand hbound hnodup hnew
  · rw [hmem, hfound, nodesOf, List.map_append, List.mem_append]
    show v ∈ walk.visited ∨ _ ↔ _
    rw [h.visited, List.map_map]
    simp [nodesOf, Function.comp_def]
  · rw [hsteps] at hs
    rcases List.mem_append.1 hs with hs | hs
    · exact h.reached s hs
    · obtain ⟨e, he, rfl⟩ := List.mem_map.1 hs
      obtain ⟨hentry, _, hshared⟩ := mem_freshRooms.1 he
      have hdist := (hpop.dist _ (hpop.queued _ List.mem_cons_self).1).1
      refine ⟨⟨e.2, OrdMap.mem_entries.1 hentry, rfl, rfl, rfl⟩, .inr ⟨depth, room, current, rfl,
        hdist, hcurrent, hshared, fun wing => mem_sharedWings⟩⟩

theorem Walking.length_le (h : Walking nodes start maxHops walk k) :
    walk.steps.length ≤ nodes.size := by
  have hsub : nodesOf (found walk.steps) ⊆ nodes.entries.map (·.1) := by
    intro room hroom
    obtain ⟨e, he, rfl⟩ := List.mem_map.1 hroom
    obtain ⟨s, hs, rfl⟩ := List.mem_map.1 he
    obtain ⟨node, hnode, _⟩ := (h.reached s hs).node
    exact List.mem_map.2 ⟨_, OrdMap.mem_entries.2 hnode, rfl⟩
  have hle := (List.subperm_of_subset h.bfs.once hsub).length_le
  simpa [nodesOf, found, OrdMap.size] using hle

theorem walkRooms_exact (h : Walking nodes start maxHops walk k) {fuel : Nat}
    (hfuel : nodes.size + walk.frontier.length < fuel + walk.steps.length) :
    ∃ steps, walkRooms nodes maxHops fuel walk = some steps ∧
      (nodesOf (found steps)).Nodup ∧ (∀ s ∈ steps, Reached nodes start s) ∧
      ∀ room hop, (room, hop) ∈ found steps ↔
        IsDist (SharesWing nodes) start hop room ∧ hop ≤ maxHops := by
  induction fuel generalizing walk k with
  | zero =>
    have hle := h.length_le
    omega
  | succ fuel ih =>
    unfold walkRooms
    split
    · rename_i hempty
      have hbfs := hempty ▸ h.bfs
      exact ⟨walk.steps, rfl, h.bfs.once, h.reached, hbfs.complete⟩
    · rename_i room depth frontier hfrontier
      have hlength : walk.frontier.length = frontier.length + 1 := by rw [hfrontier]; rfl
      dsimp only
      split
      · rename_i hbound
        refine ih (h.skip hfrontier hbound) ?_
        dsimp only
        omega
      · rename_i hbound
        have hfrom : (room, depth) ∈ found walk.steps :=
          (h.bfs.queued _ (hfrontier ▸ List.mem_cons_self)).1
        obtain ⟨s, hs, hroom⟩ := List.mem_map.1 hfrom
        obtain ⟨current, hcurrent, _⟩ := (h.reached s hs).node
        obtain ⟨rfl, rfl⟩ := Prod.mk.inj hroom
        rw [hcurrent]
        dsimp only
        refine ih (h.expand hfrontier (not_le.1 hbound) hcurrent) ?_
        obtain ⟨_, hqueue, hsteps⟩ := foldl_visitRoom current s.hop { walk with frontier }
          (nodup_entryKeys nodes)
        rw [hqueue, hsteps]
        simp only [List.length_append, List.length_map]
        omega

end

instance : Std.TransCmp compareSteps := by
  have hlex : compareSteps = compareLex (compareOn (·.hop)) (compareLex
      (fun a b => compareOn (·.count) b a) (compareOn (·.room))) := rfl
  rw [hlex]
  have hcount : Std.TransCmp fun a b : PalaceTraversalStep => compareOn (·.count) b a :=
    Std.TransCmp.opposite
  infer_instance

/-- **The walk is a breadth-first search.** It ends; before the cut it lists each room
whose distance from the start is at most the bound, once and with its distance, by hop,
count and name; a room other than the start is reached by all wings it shares with a
room one hop nearer, of which there is one at least. The order of the drawers plays
no part. -/
theorem traverse_exact (drawers : List DrawerRecord) (startRoom : String) (maxHops : Nat) :
    let snapshot := derivePalaceGraph drawers
    (∀ drawers' : List DrawerRecord, drawers'.Perm drawers →
      derivePalaceGraph drawers' = snapshot) ∧
    ∃ all : List PalaceTraversalStep, traverseGraph snapshot startRoom maxHops = some (all.take 50) ∧
      all.Pairwise (CmpLE compareSteps) ∧ (all.map (·.room)).Nodup ∧
      (∀ room hop, (∃ s ∈ all, s.room = room ∧ s.hop = hop) ↔
        snapshot.nodes.contains startRoom = true ∧
          IsDist (SharesWing snapshot.nodes) startRoom hop room ∧ hop ≤ maxHops) ∧
      ∀ s ∈ all, Reached snapshot.nodes startRoom s := by
  intro snapshot
  refine ⟨fun drawers' hperm => derivePalaceGraph_perm hperm, ?_⟩
  unfold traverseGraph allSteps
  cases hstart : snapshot.nodes.get? startRoom with
  | none =>
    refine ⟨[], rfl, List.Pairwise.nil, List.nodup_nil, fun room hop => ?_, by simp⟩
    simp [OrdMap.contains, hstart]
  | some start =>
    obtain ⟨steps, hsteps, hnodup, hreached, hexact⟩ :=
      @walkRooms_exact snapshot.nodes startRoom maxHops 0 _ (Walking.init hstart)
        (snapshot.nodes.size + 1) (Nat.lt_succ_self _)
    refine ⟨steps.insertionSort (CmpLE compareSteps), ?_, List.pairwise_insertionSort _ _, ?_,
      fun room hop => ?_, fun s hs => hreached s ((List.mem_insertionSort _).1 hs)⟩
    · dsimp only
      rw [hsteps]
      rfl
    · refine (((List.perm_insertionSort _ steps).map _).nodup_iff).2 ?_
      simpa [nodesOf, found, Function.comp_def] using hnodup
    · have hcontains : snapshot.nodes.contains startRoom = true := by
        simp [OrdMap.contains, hstart]
      simp only [List.mem_insertionSort, hcontains, true_and, ← hexact, found, List.mem_map,
        Prod.mk.injEq]

def alphaNote : DrawerRecord := { Lance.lateRecord with room := "alpha" }

/-- The start is reached by no wing. -/
theorem start_not_via : ¬ ∀ steps, traverseGraph (derivePalaceGraph [alphaNote]) "alpha" 1 =
    some steps → ∀ s ∈ steps, s.connectedVia ≠ [] := by
  intro h
  have hsteps : traverseGraph (derivePalaceGraph [alphaNote]) "alpha" 1 =
      some [⟨"alpha", ["wing_late"], [], 1, 0, []⟩] := by
    decide +kernel
  exact h _ hsteps _ List.mem_cons_self rfl

end AgentPalace.Graph
