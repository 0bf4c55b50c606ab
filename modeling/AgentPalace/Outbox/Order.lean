import AgentPalace.Lib.Fifo
import AgentPalace.Outbox.Rows

/-!
# Ordered delivery

The outbox is a queue that is first in, first out in every group of a remote
and an ordering key (`Queue.Step`, `queueOf`): a reclaimed lease and a renewal
keep the entry as it is, both claims only start heads. So what holds of such a
queue holds of the outbox.
-/

namespace AgentPalace.Outbox

open Machine

/-! ## The queue of an outbox -/

def OutboxState.stage : OutboxState → Stage
  | .staged | .pending | .retryable => .waiting
  | .leased => .inFlight
  | .replicated => .delivered
  | .failed | .cancelled => .dropped

theorem OutboxState.active_stage (s : OutboxState) : s.stage.active = s.active := by
  cases s <;> rfl

theorem OutboxState.stage_inFlight {s : OutboxState} : s.stage = .inFlight ↔ s = .leased := by
  cases s <;> decide

theorem OutboxState.stage_delivered {s : OutboxState} :
    s.stage = .delivered ↔ s = .replicated := by
  cases s <;> decide

def OutboxOperation.entry (op : OutboxOperation) : Entry (String × String) :=
  { position := op.sequence, group := (op.destinationRemote, op.orderingKey)
    stage := op.state.stage }

def queueOf (db : OutboxDb) : Queue String (String × String) :=
  fun id => (db.operations.get? id).map (·.entry)

theorem queueOf_some {db : OutboxDb} {id : String} {e : Entry (String × String)} :
    queueOf db id = some e ↔ ∃ op, db.operations.get? id = some op ∧ op.entry = e :=
  Option.map_eq_some_iff

theorem queueOf_mem {db : OutboxDb} {op : OutboxOperation} (h : op ∈ db.operations.rows) :
    queueOf db op.operationId = some op.entry :=
  queueOf_some.2 ⟨op, Table.get?_of_mem h, rfl⟩

theorem head_of_hasPredecessor {db : OutboxDb} {op : OutboxOperation}
    (h : hasPredecessor db op.destinationRemote op.orderingKey op.sequence = false) :
    (queueOf db).Head op.entry := by
  intro id e he hgroup hlt
  obtain ⟨p, hp, rfl⟩ := queueOf_some.1 he
  have hgroup : p.destinationRemote = op.destinationRemote ∧ p.orderingKey = op.orderingKey := by
    simpa [OutboxOperation.entry] using hgroup
  have hnone := List.any_eq_false.1 h p (Table.mem_of_get? hp)
  have hlt : p.sequence < op.sequence := hlt
  show p.state.stage.active = false
  rw [OutboxState.active_stage]
  simpa [hgroup.1, hgroup.2, hlt] using hnone

theorem last_push {db : OutboxDb} {op : OutboxOperation} (h : Last db op) :
    ∀ id e, queueOf db id = some e → e.position < op.entry.position := by
  intro id e he
  obtain ⟨p, hp, rfl⟩ := queueOf_some.1 he
  exact h.sequence p (Table.mem_of_get? hp)

section
variable {host : Host} {db : OutboxDb} {op op' : OutboxOperation} {ts : Timestamp} {call : Call}
  {answer : Answer}

theorem Change.move (h : Change host db op ts call answer op') :
    Queue.Move (queueOf db) (some op.entry) op'.entry := by
  have hplace := h.place
  have hkeep {s : OutboxState} (hs : op.state = s) {x : OutboxOperation} (hx : x.entry =
      { op.entry with stage := s.stage }) : Queue.Move (queueOf db) (some op.entry) x.entry := by
    rw [hx, ← hs]
    exact .keep
  have hflight (hs : op.state = .leased) : op.entry.stage = .inFlight :=
    OutboxState.stage_inFlight.2 hs
  cases h with
  | revived hstate =>
    rcases hplace with ⟨hactive, _⟩ | ⟨_, _, hlast⟩
    · rw [hstate] at hactive
      cases hactive
    · refine .push (last_push hlast) rfl fun p hp => ?_
      cases hp
      show op.state.stage = .dropped
      rw [hstate]
      rfl
  | activated hstate => exact hkeep hstate rfl
  | cancelled hstate =>
    refine .drop ?_
    show op.state.stage.active = true
    rw [hstate]
    rfl
  | claimedNext hdue =>
    have hdue := dueHead_some hdue
    refine .start ?_ (head_of_hasPredecessor hdue.head)
    show op.state.stage.active = true
    rcases hdue.waiting with hstate | hstate <;> rw [hstate] <;> rfl
  | claimedById _ hactive hhead =>
    refine .start ?_ (head_of_hasPredecessor hhead)
    show op.state.stage.active = true
    rw [OutboxState.active_stage, OutboxState.active_eq, hactive]
    rfl
  | renewed hf => exact hkeep hf.leased (by rw [← hf.leased]; rfl)
  | reclaimed hexpired =>
    have hleased := leased_of_overdue (expiredLease_some hexpired).2.1
    exact hkeep hleased (by rw [← hleased]; rfl)
  | acknowledged hf => exact .deliver (hflight hf.leased)
  | retried hf => exact .retry (hflight hf.leased)
  | failed hf => exact .drop (by rw [hflight hf.leased]; rfl)

end

theorem step_queue {w w' : State} {l : Label} (h : system.Step w l w') :
    Queue.Step (queueOf w.db) (queueOf w'.db) := by
  have hothers : ∀ {old : Option OutboxOperation} {op : OutboxOperation}, Wrote w.db w'.db old op →
      ∀ id, id ≠ op.operationId → queueOf w'.db id = queueOf w.db id := by
    intro old op hwrote id hne
    unfold queueOf
    rw [hwrote.others id hne]
  cases step_effect h with
  | none hdb => exact .idle (by rw [hdb])
  | @changed op op' ts hts hchange hwrote =>
    refine .move (i := op'.operationId) (e := op'.entry) ?_ ?_ (hothers hwrote)
    · have hold : queueOf w.db op'.operationId = some op.entry := queueOf_some.2 ⟨op, hwrote.old, rfl⟩
      rw [hold]
      exact hchange.move
    · exact queueOf_some.2 ⟨op', hwrote.new, rfl⟩
  | @enqueued input op ts sequence entitySequence hcall hkey hop hlast hwrote =>
    refine .move (i := op.operationId) (e := op.entry) ?_ ?_ (hothers hwrote)
    · refine .push (last_push hlast) (by rw [hop]; rfl) fun p hp => ?_
      obtain ⟨old, hold, _⟩ := queueOf_some.1 hp
      rw [hwrote.old] at hold
      cases hold
    · exact queueOf_some.2 ⟨op, hwrote.new, rfl⟩

theorem reachable_fifo {w : State} (h : system.Reachable w) : (queueOf w.db).Fifo := by
  refine h.invariant (I := fun w => (queueOf w.db).Fifo) (fun w hw => ?_) fun x l y _ hx hs =>
    hx.step (step_queue hs)
  have hw : w.db = .empty := hw
  rw [hw]
  exact Queue.fifo_empty

/-- **Refinement**: a run of the outbox is a run of a queue that delivers in order. -/
theorem outbox_refines_queue {w w' : State} {ls : List Label} (h : Run system w ls w') :
    Relation.ReflTransGen Queue.Step (queueOf w.db) (queueOf w'.db) :=
  h.rel (R := fun x y => Relation.ReflTransGen Queue.Step (queueOf x.db) (queueOf y.db))
    (fun _ => .refl) (fun _ _ _ => .trans) fun _ _ _ hs => .single (step_queue hs)

theorem outbox_refines_queue_sample :
    Relation.ReflTransGen Queue.Step (queueOf (after sampleQueue).db) (queueOf (after sampleLease).db) :=
  outbox_refines_queue (.single (step_after sampleQueue sampleClaim (by decide)))

/-! ## What it says about the rows -/

/-- At most one operation of a group is leased, and none that is active stands
before it. -/
structure InOrder (db : OutboxDb) : Prop where
  one_leased : ∀ a ∈ db.operations.rows, ∀ b ∈ db.operations.rows, a.SameGroup b →
    a.state = .leased → b.state = .leased → a = b
  none_before : ∀ a ∈ db.operations.rows, ∀ p ∈ db.operations.rows, a.state = .leased →
    p.SameGroup a → p.sequence < a.sequence → p.state.terminal = true

theorem group_eq {a b : OutboxOperation} (h : a.SameGroup b) : a.entry.group = b.entry.group :=
  Prod.ext h.1 h.2

theorem inOrder_of_fifo {db : OutboxDb} (h : (queueOf db).Fifo) : InOrder db where
  one_leased := by
    intro a ha b hb hgroup hla hlb
    have hid := h.one_in_flight (queueOf_mem ha) (queueOf_mem hb) (group_eq hgroup)
      (OutboxState.stage_inFlight.2 hla) (OutboxState.stage_inFlight.2 hlb)
    exact Table.eq_of_key_eq ha hb hid
  none_before := by
    intro a ha p hp hla hgroup hlt
    have hhead := h.head (queueOf_mem ha) (OutboxState.stage_inFlight.2 hla)
    have hactive : p.state.stage.active = false :=
      hhead p.operationId p.entry (queueOf_mem hp) (group_eq hgroup) hlt
    rw [OutboxState.active_stage, OutboxState.active_eq] at hactive
    simpa using hactive

/-- A row that a step leases has only terminal rows of its group before it. -/
theorem step_leased {w w' : State} {l : Label} (h : system.Reachable w) (hs : system.Step w l w')
    {op' p : OutboxOperation} (hop' : op' ∈ w'.db.operations.rows) (hleased : op'.state = .leased)
    (hnew : op' ∉ w.db.operations.rows) (hp : p ∈ w.db.operations.rows) (hgroup : p.SameGroup op')
    (hlt : p.sequence < op'.sequence) : p.state.terminal = true := by
  have horder := inOrder_of_fifo (reachable_fifo (h.step hs))
  cases step_effect hs with
  | none hdb => exact absurd (hdb ▸ hop') hnew
  | @changed op row ts hts hchange hwrote =>
    obtain rfl : op' = row := (hwrote.mem.1 hop').resolve_right fun h => hnew h.1
    by_cases hid : p.operationId = op'.operationId
    · -- only a revival moves a row, and it does not lease it
      have hold : p = op := hwrote.eq_old hp hid
      rcases hchange.place with ⟨_, hseq, _⟩ | ⟨_, hstaged, _⟩
      · rw [hold] at hlt
        omega
      · rw [hleased] at hstaged
        cases hstaged
    · exact horder.none_before op' hop' p (hwrote.mem.2 (.inr ⟨hp, hid⟩)) hleased hgroup hlt
  | @enqueued input row ts sequence entitySequence hcall hkey hop hlast hwrote =>
    obtain rfl : op' = row := (hwrote.mem.1 hop').resolve_right fun h => hnew h.1
    rw [hop] at hleased
    cases hleased

/-- A later revision of an operation that was neither replicated nor failed. -/
structure Rewritten (a b : OutboxOperation) : Prop where
  intent : SameIntent b a
  revision : a.revision < b.revision
  unsettled : a.state ≠ .replicated ∧ a.state ≠ .failed

theorem Rewritten.trans (a b c : OutboxOperation) (hab : Rewritten a b) (hbc : Rewritten b c) :
    Rewritten a c := by
  obtain ⟨h, hrev, hstate⟩ := hab
  obtain ⟨k, hrev', _⟩ := hbc
  exact ⟨⟨k.1.trans h.1, k.2.trans h.2, k.3.trans h.3, k.4.trans h.4, k.5.trans h.5, k.6.trans h.6,
    k.7.trans h.7⟩, hrev.trans hrev', hstate⟩

theorem step_rewritten {w w' : State} {l : Label} (hs : system.Step w l w') {id : String}
    {a : OutboxOperation} (ha : w.db.operations.get? id = some a) :
    ∃ b, w'.db.operations.get? id = some b ∧ (b = a ∨ Rewritten a b) := by
  rcases step_row hs ha with hkept | ⟨row, ts, hrow, hchange⟩
  · exact ⟨a, hkept, .inl rfl⟩
  · have hrev := hchange.revision
    exact ⟨row, hrow, .inr ⟨hchange.intent, by omega, hchange.not_final⟩⟩

theorem replicated_final {w w' : State} {ls : List Label} {a : OutboxOperation}
    (hrun : Run system w ls w') (ha : a ∈ w.db.operations.rows) (hstate : a.state = .replicated) :
    a ∈ w'.db.operations.rows := by
  refine hrun.rel (R := fun x y => a ∈ x.db.operations.rows → a ∈ y.db.operations.rows)
    (fun _ => id) (fun _ _ _ hxy hyz hx => hyz (hxy hx)) (fun x l y hs hx => ?_) ha
  obtain ⟨b, hb, rfl | hlater⟩ := step_rewritten hs (mem_rows.1 hx)
  · exact mem_rows.2 hb
  · exact absurd hstate hlater.unsettled.1

theorem Change.of_replicated {host : Host} {db : OutboxDb} {op op' : OutboxOperation}
    {ts : Timestamp} {call : Call} {answer : Answer} (h : Change host db op ts call answer op')
    (hstate : op'.state = .replicated) : op.state = .leased ∧ op'.sequence = op.sequence := by
  have hfinal := h.not_final.1
  cases h with
  | renewed => exact absurd hstate hfinal
  | reclaimed => exact absurd hstate hfinal
  | acknowledged hflight => exact ⟨hflight.leased, rfl⟩
  | _ => cases hstate

theorem step_replicated {x y : State} {l : Label} (hs : system.Step x l y) {b : OutboxOperation}
    (hb : b ∈ y.db.operations.rows) (hstate : b.state = .replicated)
    (hnew : b ∉ x.db.operations.rows) :
    ∃ op ∈ x.db.operations.rows, op.state = .leased ∧ op.SameGroup b ∧ b.sequence = op.sequence := by
  cases step_effect hs with
  | none hdb => exact absurd (hdb ▸ hb) hnew
  | @changed op row ts hts hchange hwrote =>
    obtain rfl : b = row := (hwrote.mem.1 hb).resolve_right fun h => hnew h.1
    obtain ⟨hleased, hseq⟩ := hchange.of_replicated hstate
    have hintent := hchange.intent
    refine ⟨op, ?_, hleased, ⟨hintent.destinationRemote.symm, hintent.orderingKey.symm⟩, hseq⟩
    exact Table.mem_of_get? hwrote.old
  | @enqueued input row ts sequence entitySequence hcall hkey hop hlast hwrote =>
    obtain rfl : b = row := (hwrote.mem.1 hb).resolve_right fun h => hnew h.1
    rw [hop] at hstate
    cases hstate

theorem replicated_in_order {w w' : State} {ls : List Label} {a b : OutboxOperation}
    (h : system.Reachable w) (hrun : Run system w ls w') (ha : a ∈ w.db.operations.rows)
    (hsa : a.state = .replicated) (hb : b ∈ w'.db.operations.rows) (hsb : b.state = .replicated)
    (hnew : b ∉ w.db.operations.rows) (hgroup : a.SameGroup b) : a.sequence < b.sequence := by
  have huntil := hrun.until (P := fun x => b ∉ x.db.operations.rows) hnew
  rcases huntil with hend | ⟨pre, l, post, x, y, rfl, hpre, hx, hs, hy, hpost⟩
  · exact absurd hb hend
  · obtain ⟨op, hop, hleased, hsame, hseq⟩ := step_replicated hs (not_not.1 hy) hsb hx
    have hfifo := reachable_fifo (h.run hpre)
    have hax : a ∈ x.db.operations.rows := replicated_final hpre ha hsa
    have hlt := hfifo.passed (queueOf_mem hax) (queueOf_mem hop)
      (group_eq ⟨hgroup.1.trans hsame.1.symm, hgroup.2.trans hsame.2.symm⟩)
      (OutboxState.stage_delivered.2 hsa)
      (by show op.state.stage.active = true; rw [hleased]; rfl)
    have hlt : a.sequence < op.sequence := hlt
    omega

/-- **Ordered delivery**: in every reachable outbox at most one operation of a
group is leased and none before it is active; a step leases an operation only
when all before it in its group are terminal; and what is replicated later in a
group stands later. -/
theorem ordered_delivery {w : State} (h : system.Reachable w) :
    InOrder w.db ∧
    (∀ l w' op' p, system.Step w l w' → op' ∈ w'.db.operations.rows → op'.state = .leased →
      op' ∉ w.db.operations.rows → p ∈ w.db.operations.rows → p.SameGroup op' →
      p.sequence < op'.sequence → p.state.terminal = true) ∧
    (∀ ls w' a b, Run system w ls w' → a ∈ w.db.operations.rows → a.state = .replicated →
      b ∈ w'.db.operations.rows → b.state = .replicated → b ∉ w.db.operations.rows →
      a.SameGroup b → a ∈ w'.db.operations.rows ∧ a.sequence < b.sequence) := by
  refine ⟨inOrder_of_fifo (reachable_fifo h), ?_, ?_⟩
  · intro l w' op' p hs hop' hleased hnew hp hgroup hlt
    exact step_leased h hs hop' hleased hnew hp hgroup hlt
  · intro ls w' a b hrun ha hsa hb hsb hnew hgroup
    exact ⟨replicated_final hrun ha hsa,
      replicated_in_order h hrun ha hsa hb hsb hnew hgroup⟩

/-- The first change is leased, and the second waits behind it. -/
theorem ordered_delivery_sample :
    (after sampleLease).db.operations.rows.map (fun op => (op.sequence, op.state)) =
      [(1, .leased), (2, .pending)] ∧ InOrder (after sampleLease).db :=
  ⟨by decide, (ordered_delivery (reachable_after sampleLease (by decide))).1⟩

/-- **Nothing staged is lost**: every run keeps every operation. Where it wrote the row, it left
a later revision with the same intent; a replicated or failed row it never wrote. -/
theorem operations_kept {w w' : State} {ls : List Label} {id : String} {a : OutboxOperation}
    (hrun : Run system w ls w') (ha : w.db.operations.get? id = some a) :
    ∃ b, w'.db.operations.get? id = some b ∧ (b = a ∨ Rewritten a b) :=
  hrun.row (fun x => x.db.operations.get? id) Rewritten.trans (fun _ _ _ _ hs => step_rewritten hs) ha

theorem operations_kept_sample :
    ∃ a b, (after sampleLease).db.operations.get? "outbox_1" = some b ∧ (b = a ∨ Rewritten a b) := by
  obtain ⟨a, ha⟩ : ∃ a, (after sampleQueue).db.operations.get? "outbox_1" = some a :=
    Option.isSome_iff_exists.1 (by decide)
  exact ⟨a, operations_kept (.single (step_after sampleQueue sampleClaim (by decide))) ha⟩

end AgentPalace.Outbox
