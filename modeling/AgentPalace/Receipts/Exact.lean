import AgentPalace.Receipts.Cells

/-!
# Executed once, answered the same

For each key the trace determines the receipt: one begin finds the key unknown
and is told to execute, the first confirmed completion gives the response, and
every replay repeats it. Calls about other keys leave the receipt alone and
learn nothing of it.
-/

namespace AgentPalace.Receipts

open Machine

/-! ## What a trace says of a key -/

/-- The call passes its checks and names the key. -/
def isAbout (key : OwnerScopedKey) (l : Label) : Bool :=
  match l.call.call.key with
  | .ok key' => key' = key
  | .error _ => false

def isFresh (key : OwnerScopedKey) (l : Label) : Bool :=
  isAbout key l &&
    match l.answer with
    | .ok (.outcome (.fresh _)) => true
    | _ => false

def isBegun (key : OwnerScopedKey) (l : Label) : Bool :=
  isAbout key l &&
    match l.answer with
    | .ok (.outcome _) => true
    | _ => false

/-- The response of a completion of the key that was confirmed. -/
def confirmed (key : OwnerScopedKey) (l : Label) : Option Json :=
  if isAbout key l then
    match l.call.call, l.answer with
    | .completeReceipt _ response, .ok _ => some response
    | _, _ => none
  else none

/-- The first response that was confirmed for the key. -/
def firstResponse (ls : List Label) (key : OwnerScopedKey) : Option Json :=
  ls.findSome? (confirmed key)

theorem firstResponse_append (ls : List Label) (l : Label) (key : OwnerScopedKey) :
    firstResponse (ls ++ [l]) key = (firstResponse ls key).or (confirmed key l) := by
  simp [firstResponse, List.findSome?_append]

theorem isAbout_iff {key : OwnerScopedKey} {l : Label} :
    isAbout key l = true ↔ l.call.call.key = .ok key := by
  unfold isAbout
  split
  · rename_i key' h
    rw [h]
    simp
  · rename_i e h
    rw [h]
    simp

/-- What the trace says of a key is what its receipt says. -/
structure Exact (ls : List Label) (key : OwnerScopedKey) (cell : Cell) : Prop where
  fresh : ls.countP (isFresh key) = if ls.any (isBegun key) then 1 else 0
  begun : ls.any (isBegun key) = cell.isSome
  response : firstResponse ls key = cell.bind (·.response)
  completed : ∀ row ∈ cell, row.status = .completed ↔ row.response.isSome = true
  own : ∀ row ∈ cell, row.operationKey = key

theorem Exact.empty (key : OwnerScopedKey) : Exact [] key none :=
  ⟨rfl, rfl, rfl, by simp, by simp⟩

theorem Exact.other {ls : List Label} {key : OwnerScopedKey} {cell : Cell} {l : Label}
    (h : Exact ls key cell) (hl : isAbout key l = false) : Exact (ls ++ [l]) key cell := by
  have hfresh : isFresh key l = false := by simp [isFresh, hl]
  have hbegun : isBegun key l = false := by simp [isBegun, hl]
  have hconfirmed : confirmed key l = none := by simp [confirmed, hl]
  refine ⟨?_, ?_, ?_, h.completed, h.own⟩
  · simp [List.countP_append, hfresh, hbegun, h.fresh]
  · simp [hbegun, h.begun]
  · rw [firstResponse_append, hconfirmed, Option.or_none, h.response]

theorem Exact.report {ls : List Label} {key : OwnerScopedKey} {cell : Cell} {l : Label}
    (h : Exact ls key cell) (hfresh : isFresh key l = false)
    (hbegun : isBegun key l = true → cell.isSome = true)
    (hconfirmed : ∀ response, confirmed key l = some response → (cell.bind (·.response)).isSome) :
    Exact (ls ++ [l]) key cell := by
  have hany : (ls ++ [l]).any (isBegun key) = ls.any (isBegun key) := by
    cases hl : isBegun key l with
    | false => simp [hl]
    | true => simp [hl, h.begun, hbegun hl]
  refine ⟨?_, ?_, ?_, h.completed, h.own⟩
  · rw [hany, ← h.fresh]
    simp [List.countP_append, hfresh]
  · rw [hany, h.begun]
  · rw [firstResponse_append, h.response]
    cases hl : confirmed key l with
    | none => rw [Option.or_none]
    | some response =>
      obtain ⟨v, hv⟩ := Option.isSome_iff_exists.1 (hconfirmed response hl)
      rw [hv]
      rfl

section
variable {now : OffsetDateTime} {input : NewReceipt} {key : OwnerScopedKey}

theorem begin_checked (h : (Call.beginReceipt input).key = .ok key) :
    checkReceipt input = .ok () := by
  cases hcheck : checkReceipt input with
  | error e => simp [Call.key, hcheck, bind, Except.bind] at h
  | ok u => rfl

theorem begin_key (h : (Call.beginReceipt input).key = .ok key) : input.operationKey = key := by
  simpa [Call.key, begin_checked h, bind, Except.bind, pure, Except.pure] using h

theorem classify_not_fresh (row : ReceiptRow) (receipt : MutationReceipt) :
    classify input row ≠ .fresh receipt := by
  unfold classify
  split
  · simp
  · cases row.status <;> simp

theorem replay_cell {r : Request} {cell : Cell} {receipt : MutationReceipt}
    (h : (r.respond key cell).1 = .ok (.outcome (.replay receipt))) :
    ∃ row, cell = some row ∧ row.status = .completed ∧ receipt = row.toReceipt := by
  obtain ⟨now, call⟩ := r
  cases call with
  | beginReceipt input =>
    cases cell with
    | none => cases hcreated : formatTime now <;> simp [Request.respond, hcreated] at h
    | some row =>
      simp only [Request.respond, classify] at h
      split at h
      · simp at h
      · cases hstatus : row.status with
        | completed =>
          rw [hstatus] at h
          cases h
          exact ⟨row, rfl, hstatus, rfl⟩
        | pending => simp [hstatus] at h
  | completeReceipt k response =>
    cases cell with
    | none => simp [Request.respond] at h
    | some row =>
      cases hstatus : row.status with
      | completed => simp [Request.respond, hstatus] at h
      | pending => cases hnow : formatTime now <;> simp [Request.respond, hstatus, hnow] at h
  | setReceiptDetails k details =>
    cases cell with
    | none => simp [Request.respond] at h
    | some row => cases hstatus : row.status <;> simp [Request.respond, hstatus] at h
  | getReceipt k => simp [Request.respond] at h

end

theorem Exact.step {ls : List Label} {key : OwnerScopedKey} {cell : Cell} {r : Request}
    (h : Exact ls key cell) (hkey : r.call.key = .ok key) :
    Exact (ls ++ [⟨r, (r.respond key cell).1⟩]) key (r.respond key cell).2 := by
  have habout : ∀ answer, isAbout key ⟨r, answer⟩ = true := fun _ => isAbout_iff.2 hkey
  have hrefused : ∀ e, Exact (ls ++ [⟨r, .error e⟩]) key cell := fun e =>
    h.report (by simp [isFresh]) (by simp [isBegun]) (by simp [confirmed])
  obtain ⟨now, call⟩ := r
  cases call with
  | beginReceipt input =>
    have hinput := begin_key hkey
    cases cell with
    | none =>
      simp only [Request.respond]
      cases hcreated : formatTime now with
      | error e => exact hrefused e
      | ok created =>
        have hnew : ls.any (isBegun key) = false := h.begun
        have hcount : ls.countP (isFresh key) = 0 := by rw [h.fresh, hnew]; rfl
        refine ⟨?_, ?_, ?_, ?_, ?_⟩
        · simp [List.countP_append, hcount, isFresh, isBegun, habout]
        · simp [isBegun, habout]
        · rw [firstResponse_append, h.response]
          simp [confirmed, NewReceipt.row, habout]
        · simp [NewReceipt.row]
        · simp [NewReceipt.row, hinput]
    | some row =>
      refine h.report ?_ (fun _ => rfl) (by simp [confirmed])
      simp only [isFresh, Request.respond]
      split
      · rename_i receipt heq
        exact absurd (Reply.outcome.inj (Except.ok.inj heq)) (classify_not_fresh row receipt)
      · simp
  | completeReceipt k response =>
    cases cell with
    | none => exact hrefused _
    | some row =>
      simp only [Request.respond]
      cases hstatus : row.status with
      | completed =>
        have hsome := (h.completed row rfl).1 hstatus
        exact h.report (by simp [isFresh]) (by simp [isBegun]) fun _ _ => hsome
      | pending =>
        have hpending : row.response = none := by
          cases hr : row.response with
          | none => rfl
          | some v =>
            have := (h.completed row rfl).2 (by rw [hr]; rfl)
            rw [hstatus] at this
            cases this
        cases hnow : formatTime now with
        | error e => exact hrefused e
        | ok completed =>
          have hanswered : ls.any (isBegun key) = true := h.begun
          refine ⟨?_, ?_, ?_, ?_, ?_⟩
          · simp [List.countP_append, h.fresh, hanswered, isFresh]
          · simp [hanswered]
          · rw [firstResponse_append, h.response]
            simp [confirmed, habout, ReceiptRow.complete, hstatus, hpending]
          · simp [ReceiptRow.complete, hstatus]
          · simp [ReceiptRow.complete, hstatus, h.own row rfl]
  | setReceiptDetails k details =>
    cases cell with
    | none => exact hrefused _
    | some row =>
      simp only [Request.respond]
      cases hstatus : row.status with
      | completed => exact hrefused _
      | pending =>
        have hreport := h.report (l := ⟨⟨now, .setReceiptDetails k details⟩, .ok .done⟩)
          (by simp [isFresh]) (by simp [isBegun]) (by simp [confirmed])
        have hannotate : row.annotate details = { row with details := some details } :=
          if_pos hstatus
        refine ⟨hreport.fresh, hreport.begun, hreport.response.trans ?_, ?_, ?_⟩
        · rw [hannotate]
          rfl
        · simpa [hannotate] using hreport.completed
        · simpa [hannotate] using hreport.own
  | getReceipt k =>
    exact h.report (by simp [isFresh, Request.respond]) (by simp [isBegun, Request.respond])
      (by simp [confirmed])

/-- **Traces**: along every run, each key's receipt is what the trace says. -/
theorem run_exact {w₀ w : State} {ls : List Label} (hinit : system.Init w₀)
    (hrun : Run system w₀ ls w) (key : OwnerScopedKey) :
    Exact ls key (w.db.receipts.get? (columns key)) := by
  refine hrun.traced (I := fun ls w => Exact ls key (w.db.receipts.get? (columns key))) ?_ ?_
  · rw [show w₀.db = .empty from hinit]
    exact Exact.empty key
  · intro ks x l y _ h hs
    obtain ⟨⟨now, call⟩, answer⟩ := l
    obtain ⟨_, hexec, _⟩ := hs
    have hexec : (Request.mk now call).execute x.db = (answer, y.db) := hexec
    cases hkey : call.key with
    | error e =>
      rw [execute_refused hkey] at hexec
      rw [← (Prod.mk.inj hexec).2]
      exact h.other (by simp [isAbout, hkey])
    | ok key' =>
      have hrefines := execute_respond (r := ⟨now, call⟩) x.db hkey
      by_cases hsame : key' = key
      · subst hsame
        have hanswer := hrefines.answer
        have hcell := hrefines.cell
        rw [hexec] at hanswer hcell
        simp only at hanswer hcell
        rw [hcell, hanswer]
        exact h.step hkey
      · have hframe := hrefines.frame (columns key) fun heq => hsame (columns_inj heq).symm
        rw [hexec] at hframe
        simp only at hframe
        rw [hframe]
        exact h.other (by simp [isAbout, hkey, hsame])

/-! ## What one call may do -/

def reported : Answer → Option MutationReceipt
  | .ok (.outcome (.fresh receipt)) => some receipt
  | .ok (.outcome (.replay receipt)) => some receipt
  | .ok (.outcome (.recover receipt)) => some receipt
  | .ok (.receipt receipt) => receipt
  | _ => none

def refusal : Answer → Bool
  | .error _ => true
  | .ok (.outcome (.conflict _)) => true
  | _ => false

/-- A call keeps to the receipt of its key, and a refused one changes nothing. -/
structure Isolated (db : ReceiptDb) (l : Label) (db' : ReceiptDb) : Prop where
  refused : refusal l.answer = true → db' = db
  conflict : ∀ input row, l.call.call = .beginReceipt input →
    db.receipts.get? (columns input.operationKey) = some row →
    row.requestHash ≠ input.requestHash →
    db' = db ∧ l.answer = match checkReceipt input with
      | .ok () => .ok (.outcome (.conflict input.operationKey.rawKey))
      | .error e => .error e
  frame : ∀ key key', l.call.call.key = .ok key → key' ≠ key →
    db'.receipts.get? (columns key') = db.receipts.get? (columns key')
  own : ∀ key receipt, l.call.call.key = .ok key → receipt ∈ reported l.answer →
    receipt.operationKey = key
  blind : ∀ key (other : ReceiptDb), l.call.call.key = .ok key →
    other.receipts.get? (columns key) = db.receipts.get? (columns key) →
    (l.call.execute other).1 = l.answer

theorem reported_own {r : Request} {key : OwnerScopedKey} {cell : Cell}
    (hkey : r.call.key = .ok key) (hown : ∀ row ∈ cell, row.operationKey = key)
    {receipt : MutationReceipt} (h : receipt ∈ reported (r.respond key cell).1) :
    receipt.operationKey = key := by
  obtain ⟨now, call⟩ := r
  cases call with
  | beginReceipt input =>
    cases cell with
    | none =>
      simp only [Request.respond] at h
      cases hcreated : formatTime now with
      | error e => simp [hcreated, reported] at h
      | ok created =>
        simp only [hcreated, reported, Option.mem_some_iff] at h
        rw [← h]
        exact begin_key hkey
    | some row =>
      simp only [Request.respond, classify] at h
      split at h
      · simp [reported] at h
      · cases hstatus : row.status with
        | completed =>
          simp only [hstatus, reported, Option.mem_some_iff] at h
          rw [← h]
          exact hown row rfl
        | pending =>
          simp only [hstatus, reported, Option.mem_some_iff] at h
          rw [← h]
          exact hown row rfl
  | completeReceipt k response =>
    cases cell with
    | none => simp [Request.respond, reported] at h
    | some row =>
      cases hstatus : row.status with
      | completed => simp [Request.respond, hstatus, reported] at h
      | pending => cases hnow : formatTime now <;> simp [Request.respond, hstatus, hnow, reported] at h
  | setReceiptDetails k details =>
    cases cell with
    | none => simp [Request.respond, reported] at h
    | some row => cases hstatus : row.status <;> simp [Request.respond, hstatus, reported] at h
  | getReceipt k =>
    cases cell with
    | none => simp [Request.respond, reported] at h
    | some row =>
      simp only [Request.respond, Option.map_some, reported, Option.mem_some_iff] at h
      rw [← h]
      exact hown row rfl

/-- The receipt stored under a key is the receipt of the key. -/
theorem stored_own {db : ReceiptDb} {key : OwnerScopedKey} :
    ∀ row ∈ db.receipts.get? (columns key), row.operationKey = key := by
  intro row hrow
  have hkey : row.key = columns key := Table.get?_key hrow
  exact columns_inj hkey

theorem quiet_of_refusal {answer : Answer} (h : refusal answer = true) : quiet answer = true := by
  unfold refusal at h
  split at h
  · rfl
  · rfl
  · cases h

theorem execute_isolated (r : Request) (db : ReceiptDb) :
    Isolated db ⟨r, (r.execute db).1⟩ (r.execute db).2 := by
  cases hkey : r.call.key with
  | error e =>
    have hexec : r.execute db = _ := execute_refused hkey
    rw [hexec]
    refine ⟨fun _ => rfl, ?_, ?_, ?_, ?_⟩
    · intro input row hcall _ _
      refine ⟨rfl, ?_⟩
      simp only at hcall
      simp only [hcall, Call.key] at hkey
      cases hcheck : checkReceipt input with
      | error e' =>
        rw [hcheck] at hkey
        cases hkey
        rfl
      | ok u =>
        rw [hcheck] at hkey
        cases hkey
    all_goals
      intro key
      intros
      simp_all
  | ok key =>
    have hrefines := execute_respond db hkey
    have hone : ∀ key', r.call.key = .ok key' → key' = key := fun key' h => by
      rw [hkey] at h
      exact (Except.ok.inj h).symm
    refine ⟨fun h => hrefines.still (quiet_of_refusal h), ?_, ?_, ?_, ?_⟩
    · intro input row hcall hrow hhash
      obtain ⟨now, call⟩ := r
      simp only at hcall
      subst hcall
      have hinput := begin_key hkey
      subst hinput
      have hanswer : ((Request.mk now (.beginReceipt input)).execute db).1 =
          .ok (.outcome (.conflict input.operationKey.rawKey)) := by
        rw [hrefines.answer, hrow]
        simp only [Request.respond, classify, if_pos hhash]
      refine ⟨hrefines.still (by rw [hanswer]; rfl), ?_⟩
      simp only [begin_checked hkey]
      exact hanswer
    · intro key₁ key' h₁ hne
      rw [hone key₁ h₁] at hne
      exact hrefines.frame _ fun heq => hne (columns_inj heq)
    · intro key₁ receipt h₁ hreceipt
      rw [hone key₁ h₁]
      rw [hrefines.answer] at hreceipt
      exact reported_own hkey stored_own hreceipt
    · intro key₁ other h₁ hother
      rw [hone key₁ h₁] at hother
      rw [(execute_respond other hkey).answer, hother, hrefines.answer]

/-! ## The claim about runs -/

/-- **Receipts**: of the begins of a key that are answered one is fresh; a stored response stays,
and is what every replay returns; and each call keeps to the receipt of its key. -/
theorem receipts_exactly_once {w₀ w : State} {ls : List Label} (hinit : system.Init w₀)
    (hrun : Run system w₀ ls w) :
    (∀ key, ls.countP (isFresh key) = if ls.any (isBegun key) then 1 else 0) ∧
    (∀ key row v ls' w', w.db.receipts.get? (columns key) = some row → row.response = some v →
      Run system w ls' w' →
      ∃ row', w'.db.receipts.get? (columns key) = some row' ∧ row'.response = some v) ∧
    (∀ pre l post key receipt, ls = pre ++ l :: post → isAbout key l = true →
      l.answer = .ok (.outcome (.replay receipt)) →
      ∃ v, firstResponse pre key = some v ∧ receipt.response = some v) ∧
    ∀ l w', system.Step w l w' → Isolated w.db l w'.db := by
  refine ⟨fun key => (run_exact hinit hrun key).fresh, ?_, ?_, ?_⟩
  · intro key row v ls' w' hrow hv hrun'
    have hbefore := (run_exact hinit hrun key).response
    have hafter := (run_exact hinit (hrun.append hrun') key).response
    rw [hrow] at hbefore
    have hfirst : firstResponse (ls ++ ls') key = some v := by
      rw [firstResponse, List.findSome?_append, show ls.findSome? (confirmed key) = some v from
        hbefore.trans hv]
      rfl
    rw [hfirst] at hafter
    obtain ⟨row', hrow', hv'⟩ := Option.bind_eq_some_iff.1 hafter.symm
    exact ⟨row', hrow', hv'⟩
  · rintro pre l post key receipt rfl habout hreplay
    obtain ⟨x, hpre, hrest⟩ := hrun.split
    cases hrest with
    | cons hs _ =>
      have hexact := run_exact hinit hpre key
      have hkey := isAbout_iff.1 habout
      obtain ⟨⟨now, call⟩, answer⟩ := l
      obtain ⟨_, hexec, _⟩ := hs
      have hexec : (Request.mk now call).execute x.db = (answer, _) := hexec
      have hanswer := (execute_respond x.db hkey).answer
      rw [hexec] at hanswer
      simp only at hanswer hreplay
      rw [hreplay] at hanswer
      obtain ⟨row, hcell, hstatus, hreceipt⟩ := replay_cell hanswer.symm
      obtain ⟨v, hv⟩ := Option.isSome_iff_exists.1 ((hexact.completed row hcell).1 hstatus)
      refine ⟨v, ?_, ?_⟩
      · rw [hexact.response, hcell]
        exact hv
      · rw [hreceipt]
        exact hv
  · rintro ⟨r, answer⟩ w' ⟨_, hexec, _⟩
    have hexec : r.execute w.db = (answer, w'.db) := hexec
    have hisolated := execute_isolated r w.db
    rwa [hexec] at hisolated

/-! ## A retried mutation -/

/-- The key `op` of the legacy scope. -/
def sampleKey : OwnerScopedKey := ⟨none, "op", by decide, by decide⟩

def sampleReceipt : NewReceipt :=
  { operationKey := sampleKey, operationKind := "kg_add", requestHash := "h", targetId := "t"
    provenance := none }

/-- A mutation is begun, completed and begun again. -/
def sampleRetry : List Request :=
  [⟨⟨0, 0⟩, .beginReceipt sampleReceipt⟩,
    ⟨⟨1, 0⟩, .completeReceipt (.rawKey " op ") (.str "added")⟩,
    ⟨⟨2, 0⟩, .beginReceipt sampleReceipt⟩]

/-- The retry is not executed again. -/
theorem receipts_exactly_once_sample :
    (store.play ⟨store.init, ()⟩ sampleRetry).1.countP (isFresh sampleKey) = 1 := by
  have hordered : store.Ordered () sampleRetry := ⟨le_rfl, le_rfl, le_rfl, trivial⟩
  have hrun : Run system ⟨store.init, ()⟩ _ _ := store.run_play hordered
  have hfresh := (receipts_exactly_once init_empty hrun).1 sampleKey
  rw [hfresh]
  decide

end AgentPalace.Receipts
