import AgentPalace.Outbox.Order

/-!
# Coherence of the outbox

The two numberings of the rows never repeat and agree with each other, and the
lease and retry columns say what the state says. A written row either keeps its
place in both numberings or takes the last place in both (`Placed`), so every
pair of rows is ordered as before or by the step that wrote the later one.
-/

namespace AgentPalace.Outbox

open Machine

/-! ## Columns of a row -/

/-- Leased rows have an owner and an expiry, others neither; only retryable rows
wait for a time. -/
structure Columns (op : OutboxOperation) : Prop where
  leased : op.state = .leased → op.leaseOwner.isSome ∧ op.leaseExpiresAt.isSome
  free : op.state ≠ .leased → op.leaseOwner = none ∧ op.leaseExpiresAt = none
  retry : op.retryAfter.isSome → op.state = .retryable

theorem Columns.of_staged {op : OutboxOperation} (hstate : op.state = .staged)
    (howner : op.leaseOwner = none) (hexpiry : op.leaseExpiresAt = none)
    (hretry : op.retryAfter = none) : Columns op where
  leased h := by rw [hstate] at h; cases h
  free _ := ⟨howner, hexpiry⟩
  retry h := by rw [hretry] at h; cases h

theorem Change.columns {host : Host} {db : OutboxDb} {op op' : OutboxOperation} {ts : Timestamp}
    {call : Call} {answer : Answer} (h : Change host db op ts call answer op') (hop : Columns op) :
    Columns op' := by
  have hwaiting (hstate : op.state ≠ .leased) (hretry : op.state ≠ .retryable) :
      op.leaseOwner = none ∧ op.leaseExpiresAt = none ∧ op.retryAfter = none := by
    refine ⟨(hop.free hstate).1, (hop.free hstate).2, ?_⟩
    cases hr : op.retryAfter with
    | none => rfl
    | some t => exact absurd (hop.retry (by rw [hr]; rfl)) hretry
  cases h with
  | revived => exact .of_staged rfl rfl rfl rfl
  | activated hstate =>
    obtain ⟨howner, hexpiry, hretry⟩ := hwaiting (by rw [hstate]; nofun) (by rw [hstate]; nofun)
    exact ⟨nofun, fun _ => ⟨howner, hexpiry⟩, fun h => absurd h (by
      show ¬ op.retryAfter.isSome = true
      rw [hretry]
      nofun)⟩
  | cancelled hstate =>
    obtain ⟨howner, hexpiry, hretry⟩ := hwaiting (by rw [hstate]; nofun) (by rw [hstate]; nofun)
    exact ⟨nofun, fun _ => ⟨howner, hexpiry⟩, fun h => absurd h (by
      show ¬ op.retryAfter.isSome = true
      rw [hretry]
      nofun)⟩
  | claimedNext => exact ⟨fun _ => ⟨rfl, rfl⟩, fun h => absurd rfl h, nofun⟩
  | claimedById => exact ⟨fun _ => ⟨rfl, rfl⟩, fun h => absurd rfl h, nofun⟩
  | renewed hflight => exact ⟨fun h => ⟨(hop.leased h).1, rfl⟩, fun h => absurd hflight.leased h, hop.retry⟩
  | reclaimed hexpired =>
    have hleased := leased_of_overdue (expiredLease_some hexpired).2.1
    exact ⟨fun _ => ⟨rfl, rfl⟩, fun h => absurd hleased h, hop.retry⟩
  | acknowledged => exact ⟨nofun, fun _ => ⟨rfl, rfl⟩, nofun⟩
  | retried => exact ⟨nofun, fun _ => ⟨rfl, rfl⟩, fun _ => rfl⟩
  | failed => exact ⟨nofun, fun _ => ⟨rfl, rfl⟩, nofun⟩

/-! ## Places -/

/-- A row stands where one of the table stood, or behind them all. -/
inductive Placed (db : OutboxDb) (op : OutboxOperation) : Prop where
  | kept {old : OutboxOperation} (hold : old ∈ db.operations.rows) (hintent : SameIntent op old)
      (hsequence : op.sequence = old.sequence) (hentity : op.entitySequence = old.entitySequence)
  | last (hlast : Last db op)

theorem step_placed {w w' : State} {l : Label} (hs : system.Step w l w') {op : OutboxOperation}
    (hop : op ∈ w'.db.operations.rows) : Placed w.db op := by
  have hkept (hold : op ∈ w.db.operations.rows) : Placed w.db op :=
    .kept hold ⟨rfl, rfl, rfl, rfl, rfl, rfl, rfl⟩ rfl rfl
  cases step_effect hs with
  | none hdb => exact hkept (hdb ▸ hop)
  | @changed old row ts hts hchange hwrote =>
    rcases hwrote.mem.1 hop with rfl | ⟨hold, _⟩
    · rcases hchange.place with ⟨_, hseq, hent⟩ | ⟨_, _, hlast⟩
      · exact .kept (Table.mem_of_get? hwrote.old) hchange.intent hseq hent
      · exact .last hlast
    · exact hkept hold
  | @enqueued input row ts sequence entitySequence hcall hkey hop' hlast hwrote =>
    rcases hwrote.mem.1 hop with rfl | ⟨hold, _⟩
    · exact .last hlast
    · exact hkept hold

theorem step_new {w w' : State} {l : Label} (hs : system.Step w l w') {a b : OutboxOperation}
    (ha : a ∈ w'.db.operations.rows) (hb : b ∈ w'.db.operations.rows)
    (hna : a ∉ w.db.operations.rows) (hnb : b ∉ w.db.operations.rows) : a = b := by
  have hsame {old : Option OutboxOperation} {op : OutboxOperation}
      (hwrote : Wrote w.db w'.db old op) : a = b :=
    ((hwrote.mem.1 ha).resolve_right fun h => hna h.1).trans
      ((hwrote.mem.1 hb).resolve_right fun h => hnb h.1).symm
  cases step_effect hs with
  | none hdb => exact absurd (hdb ▸ ha) hna
  | changed _ _ hwrote => exact hsame hwrote
  | enqueued _ _ _ _ hwrote => exact hsame hwrote

theorem Last.not_mem {db : OutboxDb} {op : OutboxOperation} (h : Last db op) :
    op ∉ db.operations.rows := fun hop => by
  have := h.sequence op hop
  omega

/-! ## The invariant -/

/-- The two numberings agree, no idempotency key repeats, and the columns of every
row are coherent. -/
structure Coherent (db : OutboxDb) : Prop where
  sequence : ∀ a ∈ db.operations.rows, ∀ b ∈ db.operations.rows, a.sequence = b.sequence → a = b
  entityOrder : ∀ a ∈ db.operations.rows, ∀ b ∈ db.operations.rows, a.entityId = b.entityId →
    a.destinationRemote = b.destinationRemote →
    (a.sequence < b.sequence ↔ a.entitySequence < b.entitySequence)
  entitySequence : ∀ a ∈ db.operations.rows, ∀ b ∈ db.operations.rows, a.entityId = b.entityId →
    a.destinationRemote = b.destinationRemote → a.entitySequence = b.entitySequence → a = b
  idempotencyKey : ∀ a ∈ db.operations.rows, ∀ b ∈ db.operations.rows, a.createdBy = b.createdBy →
    a.idempotencyKey = b.idempotencyKey → a = b
  columns : ∀ op ∈ db.operations.rows, Columns op

/-- The agreement of the numberings of two rows. -/
def Agree (a b : OutboxOperation) : Prop :=
  a.entityId = b.entityId → a.destinationRemote = b.destinationRemote →
    (a.sequence < b.sequence ↔ a.entitySequence < b.entitySequence)

theorem step_agree {w w' : State} {l : Label} (hs : system.Step w l w')
    (h : ∀ a ∈ w.db.operations.rows, ∀ b ∈ w.db.operations.rows, Agree a b)
    {a b : OutboxOperation} (ha : a ∈ w'.db.operations.rows) (hb : b ∈ w'.db.operations.rows) :
    Agree a b := by
  intro he hd
  cases step_placed hs ha with
  | @kept a₀ ha₀ hia hsa hea =>
    cases step_placed hs hb with
    | @kept b₀ hb₀ hib hsb heb =>
      rw [hsa, hea, hsb, heb]
      exact h a₀ ha₀ b₀ hb₀ (hia.entityId.symm.trans (he.trans hib.entityId))
        (hia.destinationRemote.symm.trans (hd.trans hib.destinationRemote))
    | last hlast =>
      have h1 := hlast.sequence a₀ ha₀
      have h2 := hlast.entitySequence a₀ ha₀ (hia.entityId.symm.trans he)
        (hia.destinationRemote.symm.trans hd)
      omega
  | last hlast =>
    cases step_placed hs hb with
    | @kept b₀ hb₀ hib hsb heb =>
      have h1 := hlast.sequence b₀ hb₀
      have h2 := hlast.entitySequence b₀ hb₀ (hib.entityId.symm.trans he.symm)
        (hib.destinationRemote.symm.trans hd.symm)
      omega
    | last hlast' =>
      rw [step_new hs ha hb hlast.not_mem hlast'.not_mem]
      omega

theorem reachable_agree {w : State} (h : system.Reachable w) :
    ∀ a ∈ w.db.operations.rows, ∀ b ∈ w.db.operations.rows, Agree a b := by
  refine h.invariant (I := fun w => ∀ a ∈ w.db.operations.rows, ∀ b ∈ w.db.operations.rows, Agree a b)
    (fun w hw a ha => absurd ha (not_mem_init hw a)) fun x l y _ hx hs a ha b hb => ?_
  exact step_agree hs hx ha hb

/-- What a change keeps and a new row has, every row has in every run. -/
theorem reachable_rows {P : OutboxOperation → Prop}
    (hchange : ∀ {host db op ts call answer op'}, Change host db op ts call answer op' → P op → P op')
    (hnew : ∀ (input : NewOutboxOperation) host ts e s, P (input.row host ts e s)) {w : State}
    (h : system.Reachable w) : ∀ op ∈ w.db.operations.rows, P op := by
  refine h.invariant (I := fun w => ∀ op ∈ w.db.operations.rows, P op)
    (fun w hw op hop => absurd hop (not_mem_init hw op)) fun x l y _ hx hs op hop => ?_
  cases step_effect hs with
  | none hdb => exact hx op (hdb ▸ hop)
  | @changed old row ts hts hchanged hwrote =>
    rcases hwrote.mem.1 hop with rfl | ⟨hold, _⟩
    · exact hchange hchanged (hx old (Table.mem_of_get? hwrote.old))
    · exact hx op hold
  | @enqueued input row ts sequence entitySequence hcall hkey hrow hlast hwrote =>
    rcases hwrote.mem.1 hop with rfl | ⟨hold, _⟩
    · exact hrow ▸ hnew input _ ts entitySequence sequence
    · exact hx op hold

theorem reachable_columns {w : State} (h : system.Reachable w) :
    ∀ op ∈ w.db.operations.rows, Columns op :=
  reachable_rows (fun hchange => hchange.columns)
    (fun _ _ _ _ _ => .of_staged rfl rfl rfl rfl) h

theorem reachable_keys {w : State} (h : system.Reachable w) :
    ∀ a ∈ w.db.operations.rows, ∀ b ∈ w.db.operations.rows, a.createdBy = b.createdBy →
      a.idempotencyKey = b.idempotencyKey → a = b := by
  refine h.invariant (I := fun w => ∀ a ∈ w.db.operations.rows, ∀ b ∈ w.db.operations.rows,
    a.createdBy = b.createdBy → a.idempotencyKey = b.idempotencyKey → a = b)
    (fun w hw a ha => absurd ha (not_mem_init hw a)) fun x l y _ hx hs a ha b hb hcreated hkey => ?_
  cases step_effect hs with
  | none hdb => exact hx a (hdb ▸ ha) b (hdb ▸ hb) hcreated hkey
  | @changed old row ts hts hchange hwrote =>
    have hold := Table.mem_of_get? hwrote.old
    have hintent := hchange.intent
    -- the written row has the key of the row it replaced
    have hother {r : OutboxOperation} (hr : r ∈ x.db.operations.rows)
        (hne : r.operationId ≠ row.operationId) (hc : r.createdBy = row.createdBy)
        (hk : r.idempotencyKey = row.idempotencyKey) : False := by
      have he := hx r hr old hold (hc.trans hintent.createdBy) (hk.trans hintent.idempotencyKey)
      rw [he] at hne
      exact hne hintent.operationId.symm
    rcases hwrote.mem.1 ha with rfl | ⟨ha, hna⟩ <;> rcases hwrote.mem.1 hb with rfl | ⟨hb, hnb⟩
    · rfl
    · exact absurd hkey.symm fun hk => hother hb hnb hcreated.symm hk
    · exact absurd hkey fun hk => hother ha hna hcreated hk
    · exact hx a ha b hb hcreated hkey
  | @enqueued input row ts sequence entitySequence hcall hfresh hrow hlast hwrote =>
    rcases hwrote.mem.1 ha with rfl | ⟨ha, _⟩ <;> rcases hwrote.mem.1 hb with rfl | ⟨hb, _⟩
    · rfl
    · exact absurd ⟨hcreated.symm, hkey.symm⟩ (hfresh b hb)
    · exact absurd ⟨hcreated, hkey⟩ (hfresh a ha)
    · exact hx a ha b hb hcreated hkey

theorem reachable_coherent {w : State} (h : system.Reachable w) : Coherent w.db where
  sequence := by
    intro a ha b hb hseq
    have hid := (reachable_fifo h).distinct (queueOf_mem ha) (queueOf_mem hb) hseq
    exact Table.eq_of_key_eq ha hb hid
  entityOrder := reachable_agree h
  entitySequence := by
    intro a ha b hb he hd hent
    have hab := reachable_agree h a ha b hb he hd
    have hba := reachable_agree h b hb a ha he.symm hd.symm
    have hid := (reachable_fifo h).distinct (queueOf_mem ha) (queueOf_mem hb)
      (by show a.sequence = b.sequence; omega)
    exact Table.eq_of_key_eq ha hb hid
  idempotencyKey := reachable_keys h
  columns := reachable_columns h

theorem step_revived {w w' : State} {l : Label} (hs : system.Step w l w')
    {op op' : OutboxOperation} (hop : op ∈ w.db.operations.rows) (hcancelled : op.state = .cancelled)
    (hop' : op' ∈ w'.db.operations.rows) (hid : op'.operationId = op.operationId)
    (hactive : op'.state ≠ .cancelled) : Last w.db op' := by
  have hne : op' ≠ op := fun he => hactive (he ▸ hcancelled)
  have hnew : op' ∉ w.db.operations.rows := fun h => hne (Table.eq_of_key_eq h hop hid)
  cases step_effect hs with
  | none hdb => exact absurd (hdb ▸ hop') hnew
  | @changed old row ts hts hchange hwrote =>
    obtain rfl : op' = row := (hwrote.mem.1 hop').resolve_right fun h => hnew h.1
    have hold : op = old := hwrote.eq_old hop hid.symm
    rcases hchange.place with ⟨hwas, _⟩ | ⟨_, _, hlast⟩
    · rw [← hold, hcancelled] at hwas
      cases hwas
    · exact hlast
  | @enqueued input row ts sequence entitySequence hcall hkey hrow hlast hwrote =>
    obtain rfl : op' = row := (hwrote.mem.1 hop').resolve_right fun h => hnew h.1
    exact hlast

/-- **Sequence coherence**: every reachable outbox is coherent, and an operation
that leaves the cancelled state goes behind every operation there was, in both
numberings. -/
theorem sequence_coherent {w : State} (h : system.Reachable w) :
    Coherent w.db ∧
    ∀ l w' op op', system.Step w l w' → op ∈ w.db.operations.rows → op.state = .cancelled →
      op' ∈ w'.db.operations.rows → op'.operationId = op.operationId → op'.state ≠ .cancelled →
      Last w.db op' :=
  ⟨reachable_coherent h, fun _ _ _ _ hs hop hcancelled hop' hid hactive =>
    step_revived hs hop hcancelled hop' hid hactive⟩

/-- The first change was cancelled, a second one committed, and the first is tried
again. -/
def sampleRevival : List Request :=
  [⟨sampleHost 0 "1", .enqueue (sampleInput "k1")⟩, ⟨sampleHost 0 "", .cancel "outbox_1" 0⟩,
    ⟨sampleHost 1 "2", .enqueue (sampleInput "k2")⟩, ⟨sampleHost 2 "3", .enqueue (sampleInput "k1")⟩]

theorem sequence_coherent_sample :
    (after sampleRevival).db.operations.rows.map (fun op =>
      (op.operationId, op.sequence, op.entitySequence)) =
      [("outbox_1", 3, 3), ("outbox_2", 2, 2)] ∧ Coherent (after sampleRevival).db :=
  ⟨by decide, (sequence_coherent (reachable_after sampleRevival (by decide))).1⟩

end AgentPalace.Outbox
