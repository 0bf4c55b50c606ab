import AgentPalace.Outbox.Inversion

/-!
# The row a step writes

A step writes no row, changes one (`Change`) or adds one. Identity, group and
entity of a row never change, every change raises its revision by one, and only
a revival moves it to another place in the order. Replicated and failed rows are
final.
-/

namespace AgentPalace.Outbox

open Machine

theorem step_outcome {w w' : State} {l : Label} (h : system.Step w l w') :
    Outcome l.call.host w.db l.call.call l.answer w'.db := by
  have ho := l.call.outcome w.db
  have he : l.call.execute w.db = (l.answer, w'.db) := h.2.1
  rw [he] at ho
  exact ho

theorem not_mem_init {w : State} (hw : system.Init w) (op : OutboxOperation) :
    op ∉ w.db.operations.rows := by
  have hw : w.db = .empty := hw
  rw [hw]
  exact List.not_mem_nil

/-! ## What a change keeps -/

/-- Above all sequences of the table, and all entity sequences of its entity. -/
structure Last (db : OutboxDb) (op : OutboxOperation) : Prop where
  sequence : ∀ r ∈ db.operations.rows, r.sequence < op.sequence
  entitySequence : ∀ r ∈ db.operations.rows, r.entityId = op.entityId →
    r.destinationRemote = op.destinationRemote → r.entitySequence < op.entitySequence

structure SameIntent (a b : OutboxOperation) : Prop where
  operationId : a.operationId = b.operationId
  createdBy : a.createdBy = b.createdBy
  idempotencyKey : a.idempotencyKey = b.idempotencyKey
  mutationKind : a.mutationKind = b.mutationKind
  entityId : a.entityId = b.entityId
  destinationRemote : a.destinationRemote = b.destinationRemote
  orderingKey : a.orderingKey = b.orderingKey

theorem lt_of_nextAfter_sequences {db : OutboxDb} {n : Int} (h : nextAfter db.sequences = .ok n)
    {r : OutboxOperation} (hr : r ∈ db.operations.rows) : r.sequence < n :=
  lt_of_nextAfter h (List.mem_map_of_mem hr)

theorem lt_of_nextAfter_entity {db : OutboxDb} {entityId remote : String} {n : Int}
    (h : nextAfter (db.entitySequences entityId remote) = .ok n) {r : OutboxOperation}
    (hr : r ∈ db.operations.rows) (he : r.entityId = entityId)
    (hd : r.destinationRemote = remote) : r.entitySequence < n := by
  have hmem : r ∈ db.operations.rows.filter fun op =>
      op.entityId = entityId ∧ op.destinationRemote = remote :=
    List.mem_filter.2 ⟨hr, by simp [he, hd]⟩
  exact lt_of_nextAfter h (List.mem_map_of_mem hmem)

section
variable {host : Host} {db : OutboxDb} {op op' : OutboxOperation} {ts : Timestamp} {call : Call}
  {answer : Answer}

theorem Change.intent (h : Change host db op ts call answer op') : SameIntent op' op := by
  cases h <;> exact ⟨rfl, rfl, rfl, rfl, rfl, rfl, rfl⟩

theorem Change.revision (h : Change host db op ts call answer op') :
    op'.revision = op.revision + 1 := by
  cases h <;> rfl

/-- A change keeps the place of an active row, or revives a cancelled one behind
all others. -/
theorem Change.place (h : Change host db op ts call answer op') :
    (op.state.active = true ∧ op'.sequence = op.sequence ∧
      op'.entitySequence = op.entitySequence) ∨
    (op.state = .cancelled ∧ op'.state = .staged ∧ Last db op') := by
  have hactive {s : OutboxState} (hs : op.state = s) (ha : s.active = true) :
      op.state.active = true := by rw [hs]; exact ha
  cases h with
  | revived hstate hsequence hentity =>
    exact .inr ⟨hstate, rfl, fun r hr => lt_of_nextAfter_sequences hsequence hr,
      fun r hr => lt_of_nextAfter_entity hentity hr⟩
  | activated hstate => exact .inl ⟨hactive hstate rfl, rfl, rfl⟩
  | cancelled hstate => exact .inl ⟨hactive hstate rfl, rfl, rfl⟩
  | claimedNext hdue =>
    refine .inl ⟨?_, rfl, rfl⟩
    rcases (dueHead_some hdue).waiting with hstate | hstate <;> exact hactive hstate rfl
  | claimedById _ hterminal =>
    refine .inl ⟨?_, rfl, rfl⟩
    rw [OutboxState.active_eq, hterminal]
    rfl
  | renewed hflight => exact .inl ⟨hactive hflight.leased rfl, rfl, rfl⟩
  | reclaimed hexpired =>
    exact .inl ⟨hactive (leased_of_overdue (expiredLease_some hexpired).2.1) rfl, rfl, rfl⟩
  | acknowledged hflight => exact .inl ⟨hactive hflight.leased rfl, rfl, rfl⟩
  | retried hflight => exact .inl ⟨hactive hflight.leased rfl, rfl, rfl⟩
  | failed hflight => exact .inl ⟨hactive hflight.leased rfl, rfl, rfl⟩

theorem Change.not_final (h : Change host db op ts call answer op') :
    op.state ≠ .replicated ∧ op.state ≠ .failed := by
  rcases h.place with ⟨hactive, _⟩ | ⟨hcancelled, _⟩
  · constructor <;> intro hstate <;> rw [hstate] at hactive <;> cases hactive
  · rw [hcancelled]
    exact ⟨nofun, nofun⟩

end

/-! ## The row a step writes -/

/-- The row `op` was written over `old`, and no other row. -/
structure Wrote (db db' : OutboxDb) (old : Option OutboxOperation) (op : OutboxOperation) :
    Prop where
  old : db.operations.get? op.operationId = old
  new : db'.operations.get? op.operationId = some op
  others : ∀ id, id ≠ op.operationId → db'.operations.get? id = db.operations.get? id

theorem mem_rows {db : OutboxDb} {op : OutboxOperation} :
    op ∈ db.operations.rows ↔ db.operations.get? op.operationId = some op :=
  ⟨Table.get?_of_mem, Table.mem_of_get?⟩

theorem Wrote.mem {db db' : OutboxDb} {old : Option OutboxOperation} {op r : OutboxOperation}
    (h : Wrote db db' old op) : r ∈ db'.operations.rows ↔
      r = op ∨ (r ∈ db.operations.rows ∧ r.operationId ≠ op.operationId) := by
  rw [mem_rows]
  constructor
  · intro hr
    by_cases hid : r.operationId = op.operationId
    · rw [hid, h.new] at hr
      exact .inl (Option.some.inj hr).symm
    · rw [h.others _ hid] at hr
      exact .inr ⟨mem_rows.2 hr, hid⟩
  · rintro (rfl | ⟨hr, hid⟩)
    · exact h.new
    · rw [h.others _ hid]
      exact mem_rows.1 hr

theorem Wrote.eq_old {db db' : OutboxDb} {old op r : OutboxOperation}
    (h : Wrote db db' (some old) op) (hr : r ∈ db.operations.rows)
    (hid : r.operationId = op.operationId) : r = old := by
  have hr := mem_rows.1 hr
  rw [hid, h.old] at hr
  exact (Option.some.inj hr).symm

inductive Effect (host : Host) (db : OutboxDb) (call : Call) (answer : Answer) (db' : OutboxDb) :
    Prop where
  | none (h : db' = db)
  | changed {op op' : OutboxOperation} {ts : Timestamp} (hts : ts.time = host.now)
      (hchange : Change host db op ts call answer op') (hwrote : Wrote db db' (some op) op')
  | enqueued {input : NewOutboxOperation} {op : OutboxOperation} {ts : Timestamp}
      {sequence entitySequence : Int} (hcall : call = .enqueue input)
      (hkey : ∀ r ∈ db.operations.rows,
        ¬ (r.createdBy = op.createdBy ∧ r.idempotencyKey = op.idempotencyKey))
      (hop : op = input.row host ts entitySequence sequence) (hlast : Last db op)
      (hwrote : Wrote db db' none op)

theorem Outcome.effect {host : Host} {db db' : OutboxDb} {call : Call} {answer : Answer}
    (h : Outcome host db call answer db') : Effect host db call answer db' := by
  cases h with
  | @changed op op' ts answer ops hts hop hchange hops =>
    have hid := hchange.intent.operationId
    have hget := hops.get? (hid ▸ hop)
    refine .changed hts hchange ⟨by rw [hid]; exact hop, ?_, fun id hne => ?_⟩
    · exact (hget op'.operationId).trans (if_pos rfl)
    · exact (hget id).trans (if_neg hne)
  | @enqueued input op ts sequence entitySequence db' hcall hts hkey hentity hsequence hop hops
      hfresh =>
    have hget := Table.get?_append hops hfresh
    subst hop
    refine .enqueued hcall hkey rfl ⟨fun r hr => ?_, fun r hr he hd => ?_⟩ ⟨hfresh, ?_, fun id hne => ?_⟩
    · exact hsequence _ (List.mem_map_of_mem hr)
    · exact lt_of_nextAfter_entity hentity hr he hd
    · exact (hget _).trans (if_pos rfl)
    · exact (hget id).trans (if_neg hne)
  | _ => exact .none rfl

theorem step_effect {w w' : State} {l : Label} (h : system.Step w l w') :
    Effect l.call.host w.db l.call.call l.answer w'.db :=
  (step_outcome h).effect

theorem step_row {w w' : State} {l : Label} (hs : system.Step w l w') {id : String}
    {op : OutboxOperation} (hop : w.db.operations.get? id = some op) :
    w'.db.operations.get? id = some op ∨ ∃ row ts, w'.db.operations.get? id = some row ∧
      Change l.call.host w.db op ts l.call.call l.answer row := by
  cases step_effect hs with
  | none hdb => exact .inl (hdb ▸ hop)
  | @changed old row ts hts hchange hwrote =>
    by_cases hid : id = row.operationId
    · subst hid
      obtain rfl : op = old := Option.some.inj (hop.symm.trans hwrote.old)
      exact .inr ⟨row, ts, hwrote.new, hchange⟩
    · exact .inl ((hwrote.others id hid).trans hop)
  | @enqueued input row ts sequence entitySequence hcall hkey hrow hlast hwrote =>
    have hid : id ≠ row.operationId := by
      rintro rfl
      rw [hwrote.old] at hop
      cases hop
    exact .inl ((hwrote.others id hid).trans hop)

end AgentPalace.Outbox
