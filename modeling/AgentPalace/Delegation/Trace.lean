import AgentPalace.Delegation.Tree

/-!
# What a trace contains

On a sound store `trace` ends within as many rounds as there are spans. Its nodes
are the span and its descendants, each once and with its own checkpoints, and no
span comes before its parent.
-/

namespace AgentPalace.Delegation

/-- `b` is a child of `a`. -/
def Child (db : DelegationDb) (a b : SpanRow) : Prop := b ∈ childRows db a.spanId

def Below (db : DelegationDb) : SpanRow → SpanRow → Prop := Relation.ReflTransGen (Child db)

/-- The node of a span, with its checkpoints in the order they were appended. -/
def nodeOf (db : DelegationDb) (r : SpanRow) : TraceNode :=
  ⟨r.toSpan, (checkpointRows db r.spanId).map CheckpointRow.toCheckpoint⟩

structure Complete (db : DelegationDb) (root : SpanRow) (nodes : List TraceNode)
    (rows : List SpanRow) : Prop where
  nodes : nodes = rows.map (nodeOf db)
  once : rows.Nodup
  all : ∀ r, r ∈ rows ↔ Below db root r
  parentsFirst : rows.Pairwise fun a b => ¬ Child db b a

section
variable {db : DelegationDb} {root a b c : SpanRow}

/-! ## The tree -/

theorem Child.mem (h : Child db a b) : b ∈ db.spans.rows := (mem_childRows.1 h).1

theorem Sound.depth_child (h : Sound db) (ha : a ∈ db.spans.rows) (hchild : Child db a b) :
    b.depth = a.depth + 1 := by
  obtain ⟨hb, hparent⟩ := mem_childRows.1 hchild
  obtain ⟨p, hp, hid, _, hdepth⟩ := h.parent b hb _ hparent
  rw [hdepth, Table.eq_of_key_eq hp ha hid]

theorem Child.unique (ha : a ∈ db.spans.rows) (hb : b ∈ db.spans.rows) (h : Child db a c)
    (h' : Child db b c) : a = b := by
  have hid := (mem_childRows.1 h).2.symm.trans (mem_childRows.1 h').2
  exact Table.eq_of_key_eq ha hb (Option.some.inj hid)

theorem childRows_nodup (id : String) : (childRows db id).Nodup :=
  (List.Nodup.of_map _ db.spans.nodup).filter _

theorem node_eq (r : SpanRow) : TraceNode.of db r = nodeOf db r := by
  unfold TraceNode.of nodeOf
  have hsorted := (db.checkpoints.sorted.filter fun c => c.spanId = r.spanId)
  have hle : (checkpointRows db r.spanId).Pairwise fun a b => a.sequence ≤ b.sequence :=
    hsorted.imp fun h => h.le
  rw [hle.insertionSort_eq]

/-! ## The walk -/

/-- The invariant of the loop: what was visited and what is on the stack are distinct spans, each
the root or the child of a visited one. -/
structure Walking (db : DelegationDb) (root : SpanRow) (visited : List SpanRow)
    (nodes : List TraceNode) (stack : List SpanRow) : Prop where
  nodup : (visited ++ stack).Nodup
  mem : ∀ r ∈ visited ++ stack, r ∈ db.spans.rows
  found : ∀ r ∈ visited ++ stack, r = root ∨ ∃ p ∈ visited, Child db p r
  deeper : ∀ r ∈ visited ++ stack, root.depth ≤ r.depth
  nodes : nodes = visited.reverse.map (nodeOf db)

theorem walking_start (hroot : root ∈ db.spans.rows) : Walking db root [] [] [root] where
  nodup := List.nodup_singleton _
  mem := by simpa using hroot
  found := by simp
  deeper := by simp
  nodes := rfl

theorem mem_visitSpan {nodes : List TraceNode} : b ∈ (visitSpan db nodes a).2 ↔ Child db a b := by
  unfold visitSpan Child
  rw [List.mem_reverse, List.mem_insertionSort]

theorem visitSpan_nodup {nodes : List TraceNode} : (visitSpan db nodes a).2.Nodup :=
  List.nodup_reverse.2 ((List.perm_insertionSort _ _).nodup_iff.2 (childRows_nodup _))

theorem Walking.visit (hsound : Sound db) {visited stack : List SpanRow} {nodes : List TraceNode}
    (h : Walking db root visited nodes (a :: stack)) :
    Walking db root (a :: visited) (visitSpan db nodes a).1 ((visitSpan db nodes a).2 ++ stack) := by
  have hperm : (a :: visited ++ ((visitSpan db nodes a).2 ++ stack)).Perm
      ((visitSpan db nodes a).2 ++ (visited ++ a :: stack)) := by
    refine (List.perm_append_comm_assoc _ _ _).trans (.append_left _ ?_)
    exact List.perm_middle.symm
  have hmem : ∀ r, r ∈ a :: visited ++ ((visitSpan db nodes a).2 ++ stack) ↔
      Child db a r ∨ r ∈ visited ++ a :: stack := by
    intro r
    rw [hperm.mem_iff, List.mem_append, mem_visitSpan]
  have hhead : a ∈ visited ++ a :: stack := by simp
  have ha := h.mem a hhead
  -- a child of `a` that was found before would have another parent
  have hnew : ∀ r, Child db a r → r ∉ visited ++ a :: stack := by
    intro r hchild hr
    have hdepth := hsound.depth_child ha hchild
    rcases h.found r hr with rfl | ⟨p, hp, hparent⟩
    · have := h.deeper a hhead
      omega
    · have hpa := hparent.unique (h.mem p (List.mem_append_left _ hp)) ha hchild
      subst hpa
      exact (List.nodup_append.1 h.nodup).2.2 p hp p List.mem_cons_self rfl
  constructor
  · refine hperm.nodup_iff.2 (List.nodup_append.2 ⟨visitSpan_nodup, h.nodup, ?_⟩)
    rintro r hr _ hr' rfl
    exact hnew r (mem_visitSpan.1 hr) hr'
  · intro r hr
    rcases (hmem r).1 hr with hchild | hr
    · exact hchild.mem
    · exact h.mem r hr
  · intro r hr
    rcases (hmem r).1 hr with hchild | hr
    · exact .inr ⟨a, List.mem_cons_self, hchild⟩
    · refine (h.found r hr).imp_right ?_
      rintro ⟨p, hp, hparent⟩
      exact ⟨p, List.mem_cons_of_mem _ hp, hparent⟩
  · intro r hr
    rcases (hmem r).1 hr with hchild | hr
    · have := hsound.depth_child ha hchild
      have := h.deeper a hhead
      omega
    · exact h.deeper r hr
  · rw [visitSpan, h.nodes, node_eq, List.reverse_cons, List.map_append, List.map_singleton]

/-- **The walk ends**, and has the node of every span below the root. -/
theorem drain_complete (hsound : Sound db) (hroot : root ∈ db.spans.rows) {fuel : Nat}
    (hfuel : db.spans.rows.length ≤ fuel) :
    ∃ rows : List SpanRow, Worklist.drain (visitSpan db) fuel [] [root] =
        some (rows.map (nodeOf db)) ∧
      rows.Nodup ∧ (∀ r ∈ rows, r ∈ db.spans.rows) ∧ ∀ r, r ∈ rows ↔ Below db root r := by
  have hvisit : ∀ visited nodes a stack, Walking db root visited nodes (a :: stack) →
      (∀ b, b ∈ (visitSpan db nodes a).2 ↔ Child db a b) ∧
        Walking db root (a :: visited) (visitSpan db nodes a).1
          ((visitSpan db nodes a).2 ++ stack) :=
    fun _ _ _ _ h => ⟨fun _ => mem_visitSpan, h.visit hsound⟩
  obtain ⟨all, nodes, hdrain, hwalk, hall⟩ := Worklist.drain_visits hvisit
    (fun _ _ _ h => ⟨h.nodup, h.mem⟩) (by simpa using hfuel) (walking_start hroot)
  refine ⟨all.reverse, ?_, ?_, ?_, fun r => ?_⟩
  · rw [hdrain, hwalk.nodes]
  · exact List.nodup_reverse.2 (by simpa using hwalk.nodup)
  · simpa using hwalk.mem
  · have := hall r
    simp only [List.not_mem_nil, false_or, List.mem_singleton, exists_eq_left] at this
    exact List.mem_reverse.trans this

/-! ## The order -/

instance : IsTrans TraceNode TraceNode.before := ⟨fun _ _ _ h h' => by
  unfold TraceNode.before at *
  omega⟩

instance : Std.Total TraceNode.before := ⟨fun a b => by
  unfold TraceNode.before
  omega⟩

def startsBefore (db : DelegationDb) (a b : SpanRow) : Prop := (nodeOf db a).before (nodeOf db b)

instance : DecidableRel (startsBefore db) := fun _ _ =>
  inferInstanceAs (Decidable (TraceNode.before _ _))

theorem Child.not_before (hsound : Sound db) (hb : b ∈ db.spans.rows) (h : Child db b a) :
    ¬ startsBefore db a b := by
  have hdepth : a.depth = b.depth + 1 := hsound.depth_child hb h
  intro hbefore
  rcases hbefore with hlt | ⟨heq, _⟩
  · have hlt : a.depth < b.depth := hlt
    omega
  · have heq : a.depth = b.depth := heq
    omega

/-- **A trace is complete** on a sound store. -/
theorem trace_complete (hsound : Sound db) (hroot : root ∈ db.spans.rows) {fuel : Nat}
    (hfuel : db.spans.rows.length ≤ fuel) :
    ∃ nodes rows, trace fuel db root.spanId = some (some ⟨root.spanId, nodes⟩) ∧
      Complete db root nodes rows := by
  obtain ⟨rows, hdrain, hnodup, hmem, hall⟩ := drain_complete hsound hroot hfuel
  have hperm := List.perm_insertionSort (startsBefore db) rows
  have hsort : (rows.map (nodeOf db)).insertionSort TraceNode.before =
      (rows.insertionSort (startsBefore db)).map (nodeOf db) :=
    (List.map_insertionSort _ _ (nodeOf db) rows fun _ _ _ _ => Iff.rfl).symm
  refine ⟨(rows.map (nodeOf db)).insertionSort TraceNode.before, _, ?_, hsort, ?_, ?_, ?_⟩
  · simp only [trace, Table.get?_of_mem hroot, hdrain, Option.map_some]
  · exact hperm.nodup_iff.2 hnodup
  · exact fun r => hperm.mem_iff.trans (hall r)
  · have hsorted : ((rows.insertionSort (startsBefore db)).map (nodeOf db)).Pairwise
        TraceNode.before := hsort ▸ List.pairwise_insertionSort _ _
    refine (List.pairwise_map.1 hsorted).imp_of_mem fun _ hb hbefore hchild => ?_
    exact hchild.not_before hsound (hmem _ (hperm.mem_iff.1 hb)) hbefore

/-- **Delegation trees are sound, and their traces complete**, after any calls by anyone: every
state is sound, a terminal span stays as it is with its children and checkpoints, and a trace has
the span and its descendants once each, with their checkpoints. -/
theorem delegation_trees (h : delegations.Reachable db) :
    Sound db ∧ (∀ es db', delegations.Run db es db' → Frozen db db') ∧
      ∀ spanId fuel, db.spans.rows.length ≤ fuel →
        (db.spans.get? spanId = none → trace fuel db spanId = some none) ∧
        ∀ root, db.spans.get? spanId = some root →
          ∃ nodes rows, trace fuel db spanId = some (some ⟨spanId, nodes⟩) ∧
            Complete db root nodes rows := by
  have hsound := reachable_sound h
  refine ⟨hsound, fun _ _ => run_frozen, fun spanId fuel hfuel => ⟨fun hnone => ?_, ?_⟩⟩
  · simp only [trace, hnone]
  · intro root hroot
    obtain rfl := Table.get?_key hroot
    exact trace_complete hsound (Table.mem_of_get? hroot) hfuel

end

/-! ## A sample run -/

def sampleHost (uuid : String) : Host :=
  { now := ⟨30000000000, 0⟩, uuid, eventUuid := uuid ++ "v", blake3 := id }

def sampleSpan (parentSpanId : Option String) (key : String) : NewSpan :=
  { taskId := "task_7", parentSpanId, delegator := "planner", delegate := "worker"
    idempotencyKey := key }

def sampleEvents : List Event :=
  [.task "task_7", .startSpan (sampleHost "r") (sampleSpan none "s1"),
    .startSpan (sampleHost "c") (sampleSpan (some "span_r") "s2"),
    .closeSpan (sampleHost "x") "span_c" 0 .completed .completed "worker"]

def sampleDb : DelegationDb := sampleEvents.foldl Event.exec .empty

theorem run_foldl (db : DelegationDb) (es : List Event) :
    delegations.Run db es (es.foldl Event.exec db) := by
  induction es generalizing db with
  | nil => exact .nil db
  | cons e es ih => exact .cons rfl (ih _)

theorem sampleDb_rows : sampleDb.spans.rows.map (fun r => (r.spanId, r.depth, r.status)) =
    [("span_r", 0, .running), ("span_c", 1, .completed)] := by
  decide +kernel

theorem delegation_trees_sample : Sound sampleDb ∧
    ∃ root nodes rows, sampleDb.spans.get? "span_r" = some root ∧
      trace 2 sampleDb "span_r" = some (some ⟨"span_r", nodes⟩) ∧
      Complete sampleDb root nodes rows := by
  obtain ⟨hsound, _, htrace⟩ := delegation_trees ⟨_, _, rfl, run_foldl .empty sampleEvents⟩
  have hlength := congrArg List.length sampleDb_rows
  rw [List.length_map] at hlength
  obtain ⟨root, hroot⟩ : ∃ root, sampleDb.spans.get? "span_r" = some root := by
    refine Option.isSome_iff_exists.1 ?_
    decide +kernel
  obtain ⟨nodes, rows, hnodes⟩ := (htrace "span_r" 2 hlength.le).2 root hroot
  exact ⟨hsound, root, nodes, rows, hroot, hnodes⟩

end AgentPalace.Delegation
