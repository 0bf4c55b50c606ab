import AgentPalace.Receipts.System

/-!
# A call is about one cell

The bodies of the store's operations, run to their commit, answer and leave what
`respond` says of the cell of their key, and leave every other cell as it was.
-/

namespace AgentPalace.Receipts

open Tx

def quiet : Answer → Bool
  | .ok (.outcome (.fresh _)) => false
  | .ok .done => false
  | _ => true

/-- A call about `key` does to the database what `respond` says of its cell. -/
structure Refines (r : Request) (key : OwnerScopedKey) (db : ReceiptDb) : Prop where
  answer : (r.execute db).1 = (r.respond key (db.receipts.get? (columns key))).1
  cell : (r.execute db).2.receipts.get? (columns key) =
    (r.respond key (db.receipts.get? (columns key))).2
  frame : ∀ k, k ≠ columns key →
    (r.execute db).2.receipts.get? k = db.receipts.get? k
  still : quiet (r.execute db).1 = true → (r.execute db).2 = db

variable {now : OffsetDateTime} {db : ReceiptDb} {key : OwnerScopedKey} {row : ReceiptRow}

/-- What is said of a call that answers nothing, from what `respond` says of it. -/
theorem Refines.silent {r : Request} {m : RTx Unit} (h : Refines r key db)
    {C : Cell → Except StorageError Unit → Cell → Prop}
    (hexecute : r.execute db = (((fun _ => Reply.done) <$> m).run db))
    (hC : ∀ answer cell, (answer.map fun _ => .done, cell) =
      r.respond key (db.receipts.get? (columns key)) → C (db.receipts.get? (columns key)) answer cell) :
    C (db.receipts.get? (columns key)) (m.run db).1 ((m.run db).2.receipts.get? (columns key)) := by
  have hanswer := h.answer
  have hcell := h.cell
  rw [hexecute, run_map] at hanswer hcell
  exact hC _ _ (Prod.ext hanswer hcell)

theorem Refines.of_still {r : Request} {answer : Answer} (h : r.execute db = (answer, db))
    (hrespond : r.respond key (db.receipts.get? (columns key)) =
      (answer, db.receipts.get? (columns key))) : Refines r key db := by
  refine ⟨?_, ?_, ?_, ?_⟩
  · rw [h, hrespond]
  · rw [h, hrespond]
  · intro k _
    rw [h]
  · intro _
    rw [h]

theorem Refines.of_put {r : Request} {answer : Answer} {receipts : Table ReceiptRow.key}
    (h : r.execute db = (answer, { db with receipts := receipts }))
    (hrespond : r.respond key (db.receipts.get? (columns key)) = (answer, some row))
    (hput : ∀ k, receipts.get? k = if k = columns key then some row else db.receipts.get? k)
    (hloud : quiet answer = false) : Refines r key db := by
  refine ⟨?_, ?_, ?_, ?_⟩
  · rw [h, hrespond]
  · rw [h, hrespond]
    show receipts.get? (columns key) = some row
    rw [hput, if_pos rfl]
  · intro k hk
    rw [h]
    show receipts.get? k = _
    rw [hput, if_neg hk]
  · intro hquiet
    rw [h, hloud] at hquiet
    cases hquiet

theorem get?_modify {f : ReceiptRow → ReceiptRow} (hf : ∀ r, (f r).key = r.key)
    (hrow : db.receipts.get? (columns key) = some row) (k : String × String) :
    (db.receipts.modify (columns key) f hf).get? k =
      if k = columns key then some (f row) else db.receipts.get? k := by
  have hkey : (f row).key = columns key := (hf row).trans (Table.get?_key hrow)
  have hrows := Table.rows_modify db.receipts f hf hrow
  have hget := Table.get?_replace (t := db.receipts) (r := row) (f row)
    (by rw [hkey]; exact hrows) (by rw [hkey]; exact hrow) k
  rwa [hkey] at hget

/-! ## The operations -/

section
variable {input : NewReceipt}

theorem begin_fresh {created : Timestamp} (hcheck : checkReceipt input = .ok ())
    (hnone : db.receipts.get? (columns input.operationKey) = none)
    (hcreated : formatTime now = .ok created) :
    ∃ receipts : Table ReceiptRow.key,
      (beginReceipt now input).run db =
        (.ok (.fresh (input.row created).toReceipt), { db with receipts := receipts }) ∧
      ∀ k, receipts.get? k =
        if k = columns input.operationKey then some (input.row created)
        else db.receipts.get? k := by
  have hfresh : (input.row created).key ∉ db.receipts.rows.map ReceiptRow.key := by
    intro hmem
    obtain ⟨r, hr, hkey⟩ := List.mem_map.1 hmem
    exact Table.get?_eq_none.1 hnone r hr hkey
  obtain ⟨receipts, hinsert⟩ : ∃ receipts, db.receipts.insert? (input.row created) = .ok receipts :=
    ⟨_, dif_neg hfresh⟩
  have hget := Table.get?_append (Table.rows_insert? hinsert).1 (Table.rows_insert? hinsert).2
  have hread : receipts.get? (columns input.operationKey) = some (input.row created) := by
    rw [hget]
    exact if_pos rfl
  refine ⟨receipts, ?_, hget⟩
  rw [beginReceipt, run_lift hcheck, receiptByKey, run_query, hnone]
  simp only
  rw [run_lift hcreated]
  simp only [Tx.run, bind, Tx.exec, hinsert, sql, Except.mapError, Except.bind, pure, Except.pure,
    Tx.query, hread, Tx.lift, okOr, Tx.commit]

theorem begin_refines (hcheck : checkReceipt input = .ok ()) :
    Refines ⟨now, .beginReceipt input⟩ input.operationKey db := by
  have hexecute : (Request.mk now (.beginReceipt input)).execute db = _ := run_map _ _ _
  cases hcell : db.receipts.get? (columns input.operationKey) with
  | none =>
    cases hcreated : formatTime now with
    | error e =>
      have hrun : (beginReceipt now input).run db = (.error e, db) := by
        rw [beginReceipt, run_lift hcheck, receiptByKey, run_query, hcell]
        exact run_lift_error hcreated _ _
      rw [hrun] at hexecute
      refine Refines.of_still hexecute ?_
      simp only [Request.respond, hcell, hcreated, Except.map]
    | ok created =>
      obtain ⟨receipts, hrun, hget⟩ := begin_fresh hcheck hcell hcreated
      rw [hrun] at hexecute
      refine Refines.of_put hexecute ?_ hget rfl
      simp only [Request.respond, hcell, hcreated, Except.map]
  | some row =>
    have hrun : (beginReceipt now input).run db = (.ok (classify input row), db) := by
      rw [beginReceipt, run_lift hcheck, receiptByKey, run_query, hcell]
      unfold classify
      by_cases hhash : row.requestHash ≠ input.requestHash
      · simp only [if_pos hhash]
        rfl
      · simp only [if_neg hhash]
        cases row.status <;> rfl
    rw [hrun] at hexecute
    refine Refines.of_still hexecute ?_
    simp only [Request.respond, hcell, Except.map]

end

section
variable {k : ReceiptKey} {document : Json} (hkey : k.intoReceiptKey = .ok key)
include hkey

theorem complete_refines (hsize : boundedDocument "response exceeds" document = .ok ()) :
    Refines ⟨now, .completeReceipt k document⟩ key db := by
  have hexecute : (Request.mk now (.completeReceipt k document)).execute db = _ := run_map _ _ _
  rw [completeReceipt, run_lift hkey, run_lift hsize, receiptByKey, run_query] at hexecute
  cases hcell : db.receipts.get? (columns key) with
  | none =>
    rw [hcell] at hexecute
    refine Refines.of_still hexecute ?_
    rw [hcell]
    rfl
  | some row =>
    rw [hcell] at hexecute
    simp only at hexecute
    cases hstatus : row.status with
    | completed =>
      rw [if_pos (by simp [hstatus])] at hexecute
      refine Refines.of_still hexecute ?_
      simp only [Request.respond, hcell, hstatus]
      rfl
    | pending =>
      rw [if_neg (by simp [hstatus])] at hexecute
      cases hnow : formatTime now with
      | error e =>
        rw [run_lift_error hnow] at hexecute
        refine Refines.of_still hexecute ?_
        simp only [Request.respond, hcell, hstatus, hnow, Except.map]
      | ok completed =>
        rw [run_lift hnow] at hexecute
        refine Refines.of_put hexecute ?_ (get?_modify _ hcell) rfl
        simp only [Request.respond, hcell, hstatus, hnow]
        rfl

theorem annotate_refines (hsize : boundedDocument "details exceed" document = .ok ()) :
    Refines ⟨now, .setReceiptDetails k document⟩ key db := by
  have hexecute : (Request.mk now (.setReceiptDetails k document)).execute db = _ := run_map _ _ _
  rw [setReceiptDetails, run_lift hkey, run_lift hsize, receiptByKey, run_query] at hexecute
  cases hcell : db.receipts.get? (columns key) with
  | none =>
    rw [hcell] at hexecute
    refine Refines.of_still hexecute ?_
    rw [hcell]
    rfl
  | some row =>
    rw [hcell] at hexecute
    simp only at hexecute
    cases hstatus : row.status with
    | completed =>
      rw [if_pos (by simp [hstatus])] at hexecute
      refine Refines.of_still hexecute ?_
      simp only [Request.respond, hcell, hstatus]
      rfl
    | pending =>
      rw [if_neg (by simp [hstatus])] at hexecute
      refine Refines.of_put hexecute ?_ (get?_modify _ hcell) rfl
      simp only [Request.respond, hcell, hstatus]
      rfl

theorem get_refines : Refines ⟨now, .getReceipt k⟩ key db := by
  have hexecute : (Request.mk now (.getReceipt k)).execute db = _ := run_map _ _ _
  rw [getReceipt, run_lift hkey, receiptByKey, run_query] at hexecute
  exact Refines.of_still hexecute rfl

end

/-! ## Every call -/

theorem key_cases (r : Request) (db : ReceiptDb) :
    (∃ e, r.call.key = .error e ∧ r.execute db = (.error e, db)) ∨
      ∃ key, r.call.key = .ok key ∧ Refines r key db := by
  obtain ⟨now, call⟩ := r
  cases call with
  | beginReceipt input =>
    cases hcheck : checkReceipt input with
    | error e =>
      refine .inl ⟨e, by simp only [Call.key, hcheck]; rfl, (run_map _ _ _).trans ?_⟩
      rw [beginReceipt, run_lift_error hcheck]
      rfl
    | ok u =>
      exact .inr ⟨_, by simp only [Call.key, hcheck]; rfl, begin_refines hcheck⟩
  | completeReceipt k response =>
    cases hk : k.intoReceiptKey with
    | error e =>
      refine .inl ⟨e, by simp only [Call.key, hk]; rfl, (run_map _ _ _).trans ?_⟩
      rw [completeReceipt, run_lift_error hk]
      rfl
    | ok key =>
      cases hsize : boundedDocument "response exceeds" response with
      | error e =>
        refine .inl ⟨e, by simp only [Call.key, hk, hsize]; rfl, (run_map _ _ _).trans ?_⟩
        rw [completeReceipt, run_lift hk, run_lift_error hsize]
        rfl
      | ok u =>
        exact .inr ⟨key, by simp only [Call.key, hk, hsize]; rfl, complete_refines hk hsize⟩
  | setReceiptDetails k details =>
    cases hk : k.intoReceiptKey with
    | error e =>
      refine .inl ⟨e, by simp only [Call.key, hk]; rfl, (run_map _ _ _).trans ?_⟩
      rw [setReceiptDetails, run_lift_error hk]
      rfl
    | ok key =>
      cases hsize : boundedDocument "details exceed" details with
      | error e =>
        refine .inl ⟨e, by simp only [Call.key, hk, hsize]; rfl, (run_map _ _ _).trans ?_⟩
        rw [setReceiptDetails, run_lift hk, run_lift_error hsize]
        rfl
      | ok u =>
        exact .inr ⟨key, by simp only [Call.key, hk, hsize]; rfl, annotate_refines hk hsize⟩
  | getReceipt k =>
    cases hk : k.intoReceiptKey with
    | error e =>
      refine .inl ⟨e, hk, (run_map _ _ _).trans ?_⟩
      rw [getReceipt, run_lift_error hk]
      rfl
    | ok key => exact .inr ⟨key, hk, get_refines hk⟩

theorem execute_refused {r : Request} {db : ReceiptDb} {e : StorageError}
    (hkey : r.call.key = .error e) : r.execute db = (.error e, db) := by
  rcases key_cases r db with ⟨e', hkey', h⟩ | ⟨key, hkey', _⟩
  · rw [hkey] at hkey'
    cases hkey'
    exact h
  · rw [hkey] at hkey'
    cases hkey'

/-- **Refinement**: a call about a key is a call to the cell of that key. -/
theorem execute_respond {r : Request} (db : ReceiptDb) (hkey : r.call.key = .ok key) :
    Refines r key db := by
  rcases key_cases r db with ⟨e, hkey', _⟩ | ⟨key', hkey', h⟩
  · rw [hkey] at hkey'
    cases hkey'
  · rw [hkey] at hkey'
    cases hkey'
    exact h

end AgentPalace.Receipts
