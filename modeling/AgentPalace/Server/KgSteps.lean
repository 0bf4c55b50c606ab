import AgentPalace.Graph.Invalidation
import AgentPalace.Receipts.Cells
import AgentPalace.Server.KgRoutes

/-!
# What the steps of a graph mutation do

One lemma for each call the routes make: what it answers, and what it makes of the
receipt of the key, of the facts and of the events that carry the key.
-/

namespace AgentPalace.Server

open AgentPalace.Graph (GraphDb KnowledgeGraphFact activeFacts)
open Receipts (ReceiptDb ReceiptRow ReceiptOutcome NewReceipt columns)
open ChangeLog (ChangeDb ChangeEvent)

/-! ## The receipt of the key -/

/-- What `begin_receipt` answers and makes of the receipt. -/
inductive Begun (input : NewReceipt) (cell : Option ReceiptRow) :
    Except StorageError ReceiptOutcome → Option ReceiptRow → Prop where
  | refused {e : StorageError} : Begun input cell (.error e) cell
  | found {row : ReceiptRow} (h : cell = some row) :
      Begun input cell (.ok (Receipts.classify input row)) cell
  | fresh {created : Timestamp} (h : cell = none) :
      Begun input cell (.ok (.fresh (input.row created).toReceipt)) (some (input.row created))

theorem begun (now : OffsetDateTime) (input : NewReceipt) (db : ReceiptDb) :
    Begun input (db.receipts.get? (columns input.operationKey))
      ((Receipts.beginReceipt now input).run db).1
      (((Receipts.beginReceipt now input).run db).2.receipts.get? (columns input.operationKey)) := by
  cases hcheck : Receipts.checkReceipt input with
  | error e =>
    rw [Receipts.beginReceipt, Tx.run_lift_error hcheck]
    exact .refused
  | ok u =>
    cases hcell : db.receipts.get? (columns input.operationKey) with
    | none =>
      cases hcreated : formatTime now with
      | error e =>
        rw [Receipts.beginReceipt, Tx.run_lift hcheck, Receipts.receiptByKey, Tx.run_query, hcell]
        dsimp only
        rw [Tx.run_lift_error hcreated, hcell]
        exact .refused
      | ok created =>
        obtain ⟨receipts, hrun, hget⟩ := Receipts.begin_fresh hcheck hcell hcreated
        rw [hrun, hget, if_pos rfl]
        exact .fresh rfl
    | some row =>
      have hrefines : Receipts.Refines ⟨now, .beginReceipt input⟩ input.operationKey db :=
        Receipts.begin_refines hcheck
      have hexecute : (Receipts.Request.mk now (.beginReceipt input)).execute db = _ :=
        Tx.run_map _ _ _
      have hanswer := hrefines.answer
      have hcell' := hrefines.cell
      rw [hexecute, hcell] at hanswer hcell'
      dsimp only [Receipts.Request.respond] at hanswer hcell'
      rw [hcell']
      cases hr : ((Receipts.beginReceipt now input).run db).1 with
      | error e => rw [hr] at hanswer; cases hanswer
      | ok outcome =>
        rw [hr] at hanswer
        simp only [Except.map, Except.ok.injEq, Receipts.Reply.outcome.injEq] at hanswer
        rw [hanswer]
        exact .found rfl

theorem intoReceiptKey_ownerScoped (key : OwnerScopedKey) :
    (Receipts.ReceiptKey.ownerScoped key).intoReceiptKey = .ok key := by
  simp only [Receipts.ReceiptKey.intoReceiptKey, OwnerScopedKey.validate_ok]
  rfl

/-- What `set_receipt_details` does to the receipt. -/
inductive Annotated (details : Json) (cell : Option ReceiptRow) :
    Except StorageError Unit → Option ReceiptRow → Prop where
  | refused {e : StorageError} : Annotated details cell (.error e) cell
  | done {row : ReceiptRow} (h : cell = some row) (hstatus : row.status = .pending) :
      Annotated details cell (.ok ()) (some (row.annotate details))

theorem annotated (key : OwnerScopedKey) (details : Json) (db : ReceiptDb) :
    Annotated details (db.receipts.get? (columns key))
      ((Receipts.setReceiptDetails (.ownerScoped key) details).run db).1
      (((Receipts.setReceiptDetails (.ownerScoped key) details).run db).2.receipts.get?
        (columns key)) := by
  have hkey := intoReceiptKey_ownerScoped key
  cases hsize : Receipts.boundedDocument "details exceed" details with
  | error e =>
    rw [Receipts.setReceiptDetails, Tx.run_lift hkey, Tx.run_lift_error hsize]
    exact .refused
  | ok u =>
    have hrefines : Receipts.Refines ⟨⟨0, 0⟩, .setReceiptDetails (.ownerScoped key) details⟩ key db :=
      Receipts.annotate_refines hkey hsize
    refine hrefines.silent (C := Annotated details) rfl fun answer cell h => ?_
    cases hcell : db.receipts.get? (columns key) with
    | none =>
      rw [hcell] at h
      cases answer <;> simp [Receipts.Request.respond, Except.map] at h
      exact h.2 ▸ .refused
    | some row =>
      rw [hcell] at h
      cases hstatus : row.status <;> cases answer <;>
        simp [Receipts.Request.respond, hstatus, Except.map] at h
      · exact h ▸ .done rfl hstatus
      · exact h.2 ▸ .refused

/-- What `complete_receipt` does to the receipt. -/
inductive Completed (cell : Option ReceiptRow) :
    Except StorageError Unit → Option ReceiptRow → Prop where
  | refused {e : StorageError} : Completed cell (.error e) cell
  | done {row row' : ReceiptRow} (h : cell = some row) (hstatus : row'.status = .completed)
      (hdetails : row'.details = row.details) : Completed cell (.ok ()) (some row')

theorem completed (now : OffsetDateTime) (key : OwnerScopedKey) (response : Json)
    (db : ReceiptDb) :
    Completed (db.receipts.get? (columns key))
      ((Receipts.completeReceipt now (.ownerScoped key) response).run db).1
      (((Receipts.completeReceipt now (.ownerScoped key) response).run db).2.receipts.get?
        (columns key)) := by
  have hkey := intoReceiptKey_ownerScoped key
  cases hsize : Receipts.boundedDocument "response exceeds" response with
  | error e =>
    rw [Receipts.completeReceipt, Tx.run_lift hkey, Tx.run_lift_error hsize]
    exact .refused
  | ok u =>
    have hrefines : Receipts.Refines ⟨now, .completeReceipt (.ownerScoped key) response⟩ key db :=
      Receipts.complete_refines hkey hsize
    refine hrefines.silent (C := Completed) rfl fun answer cell h => ?_
    cases hcell : db.receipts.get? (columns key) with
    | none =>
      rw [hcell] at h
      cases answer <;> simp [Receipts.Request.respond, Except.map] at h
      exact h.2 ▸ .refused
    | some row =>
      rw [hcell] at h
      cases hstatus : row.status <;> cases hnow : formatTime now <;> cases answer <;>
        simp [Receipts.Request.respond, hstatus, hnow, Except.map] at h
      · exact h.2 ▸ .refused
      · rw [ReceiptRow.complete, if_pos hstatus] at h
        exact h ▸ .done rfl rfl rfl
      · exact h ▸ .done rfl hstatus rfl
      · exact h ▸ .done rfl hstatus rfl

/-! ## The events of the key -/

def loggedEvents (key : OwnerScopedKey) (eventType : String) (db : ChangeDb) : Nat :=
  db.changes.rows.countP fun r =>
    r.event.eventType = eventType && r.operationId = some key.compositeKey

/-- No event of the type is logged under the raw operation id. -/
def NoLegacyEvent (key : OwnerScopedKey) (eventType : String) (db : ChangeDb) : Prop :=
  ∀ r ∈ db.changes.rows, r.event.eventType = eventType →
    ∀ raw, ChangeLog.afterColon key.compositeKey = some raw → r.operationId ≠ some raw

/-- **An append leaves one event of the key**, if there was at most one and the raw operation id
has none. -/
theorem logged_append {key : OwnerScopedKey} {event : ChangeEvent} {db : ChangeDb}
    (hle : loggedEvents key event.eventType db ≤ 1)
    (hlegacy : NoLegacyEvent key event.eventType db) :
    let r := (ChangeLog.appendEventIfAbsentWithOperation event key.compositeKey).run db
    (∃ e, r.1 = .error e ∧ r.2 = db) ∨
      (∃ b, r.1 = .ok b) ∧ loggedEvents key event.eventType r.2 = 1 := by
  intro r
  have houtcome : ChangeLog.Outcome db
      (.appendEventIfAbsentWithOperation event key.compositeKey) r.1 r.2 :=
    ChangeLog.ifAbsent_outcome event (some key.compositeKey) db rfl rfl
  revert houtcome
  obtain ⟨answer, db'⟩ := r
  intro houtcome
  cases houtcome with
  | refused => exact .inl ⟨_, rfl, rfl⟩
  | ignored h => cases h
  | present _ hpresent =>
    refine .inr ⟨⟨_, rfl⟩, Nat.le_antisymm hle ?_⟩
    simp only [ChangeLog.Call.payload, ChangeLog.isPresent, List.any_eq_true, Bool.and_eq_true,
      decide_eq_true_eq, Bool.or_eq_true] at hpresent
    obtain ⟨r, hr, htype, hop | ⟨hsome, hraw⟩⟩ := hpresent
    · refine List.countP_pos_iff.2 ⟨r, hr, ?_⟩
      rw [Bool.and_eq_true, decide_eq_true_eq, decide_eq_true_eq]
      exact ⟨of_decide_eq_true htype, hop⟩
    · obtain ⟨raw, hraw'⟩ := Option.isSome_iff_exists.1 hsome
      exact absurd (hraw.trans hraw') (hlegacy r hr (of_decide_eq_true htype) raw hraw')
  | added h hrows =>
    refine .inr ⟨⟨_, rfl⟩, ?_⟩
    have habsent := h rfl
    have hzero : loggedEvents key event.eventType db = 0 := by
      refine List.countP_eq_zero.2 fun r hr hmatch => ?_
      simp only [Bool.and_eq_true, decide_eq_true_eq] at hmatch
      simp only [ChangeLog.Call.payload, ChangeLog.isPresent, List.any_eq_false, Bool.and_eq_true,
        decide_eq_true_eq, Bool.or_eq_true, not_and, not_or] at habsent
      exact (habsent r hr (decide_eq_true hmatch.1)).1 hmatch.2
    unfold loggedEvents at hzero ⊢
    rw [hrows, List.countP_append, hzero]
    simp [ChangeLog.newRow, ChangeLog.Call.payload]

/-! ## The facts -/

/-- The active facts that an invalidation by names would close. -/
def toClose (db : GraphDb) (req : KgRequest) (ended : Date) : List KnowledgeGraphFact :=
  match ((Graph.resolveEntityId req.subject).run db).1,
    ((Graph.resolveEntityId req.object).run db).1 with
  | .ok subjectId, .ok objectId =>
    (activeFacts db (subjectId, Graph.canonicalizeLabel req.predicate, objectId)).filter
      (·.startsBy ended)
  | _, _ => []

/-- The provenance of the fact takes the invalidation. -/
def TakesInvalidation (provenance : Option PersistedProvenance) (f : KnowledgeGraphFact) : Prop :=
  ∃ merged, Graph.mergedProvenance f.provenance provenance = .ok merged

/-- If the first of the facts is closed, so are the others. -/
def ClosesTogether (provenance : Option PersistedProvenance) : List KnowledgeGraphFact → Prop
  | [] => True
  | f :: rest => TakesInvalidation provenance f → ∀ g ∈ rest, TakesInvalidation provenance g

/-- What an invalidation can do that closes all of its facts or none. -/
inductive Invalidated (db : GraphDb) (closing : List KnowledgeGraphFact) :
    Except Graph.GraphError Nat → GraphDb → Prop where
  | failed {e : Graph.GraphError} : Invalidated db closing (.error e) db
  | nothing (h : closing = []) : Invalidated db closing (.ok 0) db
  | closed {count : Nat} {db' : GraphDb} (h : closing ≠ []) (hcount : 0 < count)
      (hrows : db'.facts.rows ≠ db.facts.rows) : Invalidated db closing (.ok count) db'

section
variable (ended : Date) (now : OffsetDateTime) (provenance : Option PersistedProvenance)

theorem closeRows_invalidated {db : GraphDb} {closing : List KnowledgeGraphFact}
    (hmem : ∀ f ∈ closing, f ∈ db.facts.rows ∧ f.isActive = true)
    (htogether : ClosesTogether provenance closing) :
    Invalidated db closing
      (((closing.map fun f => (f.factId, f.provenance)).foldlM
        (Graph.closeRow ended now provenance) 0).run db).1
      (((closing.map fun f => (f.factId, f.provenance)).foldlM
        (Graph.closeRow ended now provenance) 0).run db).2 := by
  cases closing with
  | nil => exact .nothing rfl
  | cons f rest =>
    obtain ⟨hf, hactive⟩ := hmem f List.mem_cons_self
    by_cases hmerges : Graph.Merges provenance f
    · have hall : ∀ g ∈ f :: rest, Graph.Merges provenance g :=
        List.forall_mem_cons.2 ⟨hmerges, fun g hg =>
          Graph.merges_iff.2 (htogether (Graph.merges_iff.1 hmerges) g hg)⟩
      have hrows : ((Graph.closeFacts ended now provenance (f :: rest) 0).run db).2.facts.rows ≠
        db.facts.rows := Graph.closeFacts_ends_first hf hactive hmerges
      obtain ⟨m, db', hrun, hcount, -⟩ := Graph.run_closeFacts ended now provenance hall 0 db
      have hfirst : 0 < Graph.firstRows (f :: rest) db :=
        List.countP_pos_iff.2 ⟨f, hf, by simp [hactive]⟩
      unfold Graph.closeFacts at hrun hrows
      rw [hrun] at hrows ⊢
      exact .closed (List.cons_ne_nil _ _) (by omega) hrows
    · obtain ⟨e, hrun⟩ := Graph.run_closeRow_error ended now provenance hmerges 0 db
      rw [List.map_cons, List.foldlM_cons, (Graph.autocommit_closeRow _ _ _ _ _).run_error hrun]
      exact .failed

end

theorem invalidated (req : KgRequest) (ended : Date) (now : OffsetDateTime)
    (provenance : Option PersistedProvenance) (db : GraphDb)
    (htogether : ClosesTogether provenance (toClose db req ended)) :
    Invalidated db (toClose db req ended)
      ((Graph.invalidateWithProvenance req.subject req.predicate req.object ended now
        provenance).run db).1
      ((Graph.invalidateWithProvenance req.subject req.predicate req.object ended now
        provenance).run db).2 := by
  have hsubject := Graph.autocommit_resolveEntityId req.subject
  have hobject := Graph.autocommit_resolveEntityId req.object
  obtain ⟨r, hrun⟩ := Graph.run_resolveEntityId req.subject db
  obtain ⟨r', hrun'⟩ := Graph.run_resolveEntityId req.object db
  unfold Graph.invalidateWithProvenance
  cases r with
  | error e => rw [hsubject.run_error hrun]; exact .failed
  | ok sid =>
    rw [hsubject.run_ok hrun]
    cases r' with
    | error e => rw [hobject.run_error hrun']; exact .failed
    | ok oid =>
      rw [hobject.run_ok hrun', Graph.invalidateActiveFactWithProvenance, Tx.run_query]
      have hclosing : toClose db req ended =
          (activeFacts db (sid, Graph.canonicalizeLabel req.predicate, oid)).filter
            (·.startsBy ended) := by
        unfold toClose
        rw [hrun, hrun']
      rw [hclosing] at htogether ⊢
      refine closeRows_invalidated ended now provenance (fun f hf => ?_) htogether
      obtain ⟨hmem, hguard⟩ := List.mem_filter.1 (List.mem_filter.1 hf).1
      rw [Bool.and_eq_true] at hguard
      exact ⟨hmem, hguard.2⟩

end AgentPalace.Server
