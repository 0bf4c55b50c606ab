import AgentPalace.Delegation.Store
import AgentPalace.Lib.TextSlice
import AgentPalace.Lib.Machine

/-!
# What one call to the delegation store can do

A call leaves the store as it is, inserts a span or a checkpoint, or closes a
span that runs (`Effect`). Tasks and artifacts come from the coordination store,
which never deletes them.
-/

namespace AgentPalace.Delegation

open Tx

inductive Placed (db : DelegationDb) (parentSpanId : Option String) (taskId : String) :
    Int × Int → Prop where
  | root (h : parentSpanId = none) :
      Placed db parentSpanId taskId (0, ((rootRows db taskId).length : Int))
  | child {parent : SpanRow} (hparent : parent ∈ db.spans.rows)
      (h : parentSpanId = some parent.spanId) (htask : parent.taskId = taskId)
      (hstatus : parent.status.terminal = false) :
      Placed db parentSpanId taskId
        (parent.depth + 1, ((childRows db parent.spanId).length : Int))

structure Started (db : DelegationDb) (row : SpanRow) : Prop where
  placed : Placed db row.parentSpanId row.taskId (row.depth, row.fanOutIndex)
  running : row.status = .running
  stopReason : row.stopReason = none
  closedBy : row.closedBy = none
  endedAt : row.endedAt = none
  fresh : ∀ x ∈ db.spans.rows, x.spanId ≠ row.spanId
  unused : ∀ x ∈ db.spans.rows, ¬ (x.delegator = row.delegator ∧
    x.idempotencyKey = row.idempotencyKey)

inductive Effect (db : DelegationDb) : DelegationDb → Prop where
  | still : Effect db db
  | started {row : SpanRow} {spans : Table SpanRow.spanId} (h : Started db row)
      (hrows : spans.rows = db.spans.rows ++ [row]) : Effect db { db with spans }
  | appended {row : CheckpointRow} {span : SpanRow}
      {checkpoints : Series CheckpointRow.checkpointId CheckpointRow.sequence}
      (hspan : span ∈ db.spans.rows) (h : row.spanId = span.spanId)
      (hstatus : span.status.terminal = false)
      (hunused : ∀ x ∈ db.checkpoints.rows, ¬ (x.actor = row.actor ∧
        x.idempotencyKey = row.idempotencyKey))
      (hrows : checkpoints.rows = db.checkpoints.rows ++ [row]) : Effect db { db with checkpoints }
  | closed {row : SpanRow} {status : SpanStatus} {reason : StopReason} {actor : String}
      {revision : Int} {endedAt : Timestamp} (hrow : row ∈ db.spans.rows)
      (hrunning : row.status.terminal = false) (hstatus : status.terminal = true) :
      Effect db { db with
        spans := db.spans.modify row.spanId (·.close status reason actor revision endedAt) }

section
variable {db : DelegationDb}

theorem mem_childRows {id : String} {r : SpanRow} :
    r ∈ childRows db id ↔ r ∈ db.spans.rows ∧ r.parentSpanId = some id := by
  simp [childRows]

/-! ## Reads -/

theorem requireSpan_readOnly (id : String) :
    ReadOnly (requireSpan id) fun db r => r ∈ db.spans.rows ∧ r.spanId = id := by
  intro s
  refine ⟨rfl, fun r hr => ?_⟩
  have hr : okOr (s.working.spans.get? id) s!"span `{id}` not found" = .ok r := hr
  exact Table.get?_eq_some.1 (okOr_ok.1 hr)

theorem requireTask_readOnly (taskId : String) : ReadOnly (requireTask taskId) fun _ _ => True := by
  intro s
  refine ⟨?_, fun _ _ => trivial⟩
  simp only [requireTask, bind, query]
  split <;> rfl

theorem checkArtifact_readOnly (span : SpanRow) (artifactId : String) :
    ReadOnly (checkArtifact span artifactId) fun _ _ => True := by
  intro s
  refine ⟨?_, fun _ _ => trivial⟩
  simp only [checkArtifact, bind, query]
  cases s.working.artifacts.lookup artifactId with
  | none => rfl
  | some taskId =>
    dsimp only
    split <;> rfl

theorem placeSpan_readOnly (input : NewSpan) :
    ReadOnly (placeSpan input) fun db place => Placed db input.parentSpanId input.taskId place := by
  unfold placeSpan
  cases hparent : input.parentSpanId with
  | none =>
    intro s
    refine ⟨rfl, fun place hplace => ?_⟩
    cases hplace
    exact .root rfl
  | some parentId =>
    refine ReadOnly.bind (requireSpan_readOnly parentId) fun parent s => ?_
    by_cases htask : parent.taskId = input.taskId
    · by_cases hstatus : parent.status.terminal = true
      · simp only [htask, hstatus, ne_eq, not_true, if_false, if_true]
        exact ⟨rfl, fun place hplace => (by cases hplace)⟩
      · simp only [htask, hstatus, ne_eq, not_true, if_false, Bool.false_eq_true]
        refine ⟨rfl, fun place hplace hp => ?_⟩
        obtain ⟨hmem, hid⟩ := hp
        subst hid
        cases hplace
        exact .child hmem rfl htask (by simpa using hstatus)
    · simp only [htask, ne_eq, not_false_eq_true, if_true]
      exact ⟨rfl, fun place hplace => (by cases hplace)⟩

/-! ## Writes -/

theorem insertSpan_ok {row : SpanRow} {db' : DelegationDb} (h : insertSpan row db = .ok db') :
    ∃ spans, db' = { db with spans } ∧ spans.rows = db.spans.rows ++ [row] ∧
      (∀ x ∈ db.spans.rows, x.spanId ≠ row.spanId) ∧
      ∀ x ∈ db.spans.rows, ¬ (x.delegator = row.delegator ∧
        x.idempotencyKey = row.idempotencyKey) := by
  unfold insertSpan at h
  split at h
  · cases h
  · rename_i hunique
    cases hinsert : db.spans.insert? row with
    | error e => rw [hinsert] at h; cases h
    | ok spans =>
      rw [hinsert] at h
      cases h
      obtain ⟨hrows, hfresh⟩ := Table.rows_insert? hinsert
      refine ⟨spans, rfl, hrows, Table.get?_eq_none.1 hfresh, fun x hx hsame => hunique ?_⟩
      exact List.any_eq_true.2 ⟨x, hx, by simp [hsame.1, hsame.2]⟩

theorem insertCheckpoint_ok {mk : Int → CheckpointRow} {hmk : ∀ n, (mk n).sequence = n}
    {db' : DelegationDb} (h : insertCheckpoint mk hmk db = .ok db') :
    ∃ checkpoints, db' = { db with checkpoints } ∧
      checkpoints.rows = db.checkpoints.rows ++ [mk db.checkpoints.next] ∧
      ∀ x ∈ db.checkpoints.rows, ¬ (x.actor = (mk 0).actor ∧
        x.idempotencyKey = (mk 0).idempotencyKey) := by
  unfold insertCheckpoint at h
  split at h
  · cases h
  · rename_i hunique
    cases hinsert : db.checkpoints.append? mk hmk with
    | error e => rw [hinsert] at h; cases h
    | ok checkpoints =>
      rw [hinsert] at h
      cases h
      refine ⟨checkpoints, rfl, (Series.rows_append? hinsert).1, fun x hx hsame => hunique ?_⟩
      exact List.any_eq_true.2 ⟨x, hx, by simp [hsame.1, hsame.2]⟩

/-! ## Calls -/

/-- The bytes of the summaries stored for a span. -/
def storedBytes (db : DelegationDb) (spanId : String) : Nat :=
  ((checkpointRows db spanId).map fun c => c.summary.utf8ByteSize).sum

def countedLength (db : DelegationDb) (spanId : String) : Nat :=
  ((checkpointRows db spanId).map fun c => sqlLength c.summary).sum

/-- What an append leaves of the checkpoints: those that were there, or one more that stays in the
bound by what is counted for its span. -/
inductive Appends (db : DelegationDb) (input : NewCheckpoint) (db' : DelegationDb) : Prop where
  | still (h : db'.checkpoints = db.checkpoints)
  | added {row : CheckpointRow} (hrows : db'.checkpoints.rows = db.checkpoints.rows ++ [row])
      (hspan : row.spanId = input.spanId) (hsummary : row.summary = input.summary)
      (hbound : countedLength db input.spanId + input.summary.utf8ByteSize ≤ maxSpanSummaryBytes)

theorem rejects_committed {α : Type} {P : DelegationDb → Prop} (h : P db) :
    Rejects (fun _ => True) (fun (_ : Except StorageError α) s => P s.committed) db := by
  rintro e s - rfl
  exact h

def Quiet (db db' : DelegationDb) : Prop := Effect db db' ∧ db'.checkpoints = db.checkpoints

theorem startSpan_effect (host : Host) (input : NewSpan) :
    Quiet db ((startSpan host input).run db).2 := by
  have hQ := rejects_committed (α := Span) (P := Quiet db) ⟨.still, rfl⟩
  refine run_of_wp (P := fun _ db' => Quiet db db') ?_
  unfold startSpan findSpanByKey
  refine wp_lift hQ fun _ _ => wp_lift hQ fun _ _ => ?_
  refine wp_lift hQ fun _ _ => wp_lift hQ fun _ _ => wp_query ?_
  cases db.spans.rows.find? fun r =>
      r.delegator = input.delegator && r.idempotencyKey = input.idempotencyKey with
  | some span => exact wp_commit (wp_pure ⟨.still, rfl⟩)
  | none =>
    refine wp_read (requireTask_readOnly _) hQ fun _ _ => ?_
    refine wp_read (placeSpan_readOnly input) hQ fun place hplace => ?_
    refine wp_lift hQ fun startedAt _ => wp_exec hQ (fun db' hinsert => ?_) fun _ _ => trivial
    obtain ⟨spans, rfl, hrows, hfresh, hunused⟩ := insertSpan_ok hinsert
    refine wp_commit (wp_pure ⟨.started ?_ hrows, rfl⟩)
    exact ⟨hplace, rfl, rfl, rfl, rfl, hfresh, hunused⟩

theorem appendCheckpoint_effect (host : Host) (input : NewCheckpoint) :
    Effect db ((appendCheckpoint host input).run db).2 ∧
      Appends db input ((appendCheckpoint host input).run db).2 := by
  have hstill : Effect db db ∧ Appends db input db := ⟨.still, .still rfl⟩
  have hQ := rejects_committed (α := Checkpoint)
    (P := fun db' => Effect db db' ∧ Appends db input db') hstill
  refine run_of_wp (P := fun _ db' => Effect db db' ∧ Appends db input db') ?_
  unfold appendCheckpoint findCheckpointByKey summaryLength
  refine wp_lift hQ fun _ _ => wp_lift hQ fun _ _ => ?_
  refine wp_guard hQ fun _ => wp_query ?_
  cases db.checkpoints.rows.find? fun c =>
      c.actor = input.actor && c.idempotencyKey = input.idempotencyKey with
  | some existing => exact wp_commit (wp_pure hstill)
  | none =>
    refine wp_read (requireSpan_readOnly _) hQ fun span hspan => ?_
    refine wp_guard hQ fun hstatus => ?_
    have hartifact := readOnly_optionForM (o := input.artifactRef) (checkArtifact_readOnly span)
    refine wp_read hartifact hQ fun _ _ => wp_query ?_
    refine wp_guard hQ fun hbound => wp_lift hQ fun occurredAt _ => ?_
    refine wp_query (wp_exec hQ (fun db' hinsert => ?_) fun _ _ => trivial)
    obtain ⟨checkpoints, rfl, hrows, hunused⟩ := insertCheckpoint_ok hinsert
    have hrunning : span.status.terminal = false := by simpa using hstatus
    refine wp_commit (wp_pure ⟨.appended hspan.1 ?_ hrunning ?_ hrows,
      .added hrows rfl rfl (Nat.not_lt.1 hbound)⟩)
    · exact hspan.2.symm
    · exact hunused

theorem closeSpan_effect (host : Host) (spanId : String) (expectedRevision : Int)
    (status : SpanStatus) (stopReason : StopReason) (actor : String) :
    Quiet db ((closeSpan host spanId expectedRevision status stopReason actor).run db).2 := by
  have hstill : Quiet db db := ⟨.still, rfl⟩
  have hQ := rejects_committed (α := RevisionedWrite Span) (P := Quiet db) hstill
  refine run_of_wp (P := fun _ db' => Quiet db db') ?_
  unfold closeSpan getSpan
  refine wp_lift hQ fun _ _ => wp_guard hQ fun hterminal => ?_
  refine wp_guard hQ fun _ => wp_query ?_
  cases hspan : db.spans.get? spanId with
  | none => exact wp_pure hstill
  | some current =>
    obtain rfl := Table.get?_key hspan
    refine wp_ite (fun _ => wp_pure hstill) fun _ => ?_
    refine wp_guard hQ fun hrunning => wp_lift hQ fun endedAt _ => ?_
    refine wp_query (wp_ite (fun _ => wp_pure hstill) fun _ => ?_)
    have hrunning : current.status.terminal = false := by simpa using hrunning
    have hterminal : status.terminal = true := by simpa using hterminal
    exact wp_write (wp_commit (wp_pure
      ⟨.closed (Table.mem_of_get? hspan) hrunning hterminal, rfl⟩))

/-! ## Any calls in any order -/

inductive Event where
  | task (taskId : String)
  | artifact (artifactId taskId : String)
  | startSpan (host : Host) (input : NewSpan)
  | appendCheckpoint (host : Host) (input : NewCheckpoint)
  | closeSpan (host : Host) (spanId : String) (expectedRevision : Int) (status : SpanStatus)
      (stopReason : StopReason) (actor : String)

def Event.exec (db : DelegationDb) : Event → DelegationDb
  | .task taskId => { db with tasks := taskId :: db.tasks }
  | .artifact artifactId taskId => { db with artifacts := (artifactId, taskId) :: db.artifacts }
  | .startSpan host input => ((Delegation.startSpan host input).run db).2
  | .appendCheckpoint host input => ((Delegation.appendCheckpoint host input).run db).2
  | .closeSpan host spanId expectedRevision status stopReason actor =>
    ((Delegation.closeSpan host spanId expectedRevision status stopReason actor).run db).2

def delegations : Machine DelegationDb Event where
  Init db := db = .empty
  Step db e db' := db' = e.exec db

/-- The spans and the checkpoints of two stores are the same. -/
def SameRows (db db' : DelegationDb) : Prop :=
  db'.spans = db.spans ∧ db'.checkpoints = db.checkpoints

theorem step_effect {e : Event} {db' : DelegationDb} (h : delegations.Step db e db') :
    SameRows db db' ∨ Effect db db' := by
  cases h
  cases e with
  | task _ => exact .inl ⟨rfl, rfl⟩
  | artifact _ _ => exact .inl ⟨rfl, rfl⟩
  | startSpan host input => exact .inr (startSpan_effect host input).1
  | appendCheckpoint host input => exact .inr (appendCheckpoint_effect host input).1
  | closeSpan host id revision status reason actor =>
    exact .inr (closeSpan_effect host id revision status reason actor).1

end

/-! ## How much a span holds -/

def Plain (s : String) : Prop := ∀ c ∈ s.toList, c.toNat < 128 ∧ c ≠ '\x00'

def Event.Plain : Event → Prop
  | .appendCheckpoint _ input => Delegation.Plain input.summary
  | _ => True

section
variable {db : DelegationDb}

theorem sqlLength_plain {s : String} (h : Plain s) : sqlLength s = s.utf8ByteSize := by
  have hsize : ∀ cs : List Char, (∀ c ∈ cs, c.toNat < 128 ∧ c ≠ '\x00') →
      (cs.takeWhile (· ≠ '\x00')).length = utf8Bytes cs := by
    intro cs
    induction cs with
    | nil => intro _; rfl
    | cons c cs ih =>
      intro h
      obtain ⟨hc, hne⟩ := h c List.mem_cons_self
      have hone : c.utf8Size = 1 := Char.utf8Size_eq_one_iff.2 (by
        rw [UInt32.le_iff_toNat_le]
        exact Nat.le_of_lt_succ hc)
      rw [List.takeWhile_cons_of_pos (by simpa using hne), List.length_cons, utf8Bytes_cons, hone,
        ih fun d hd => h d (List.mem_cons_of_mem c hd), Nat.add_comm]
  have hbytes := utf8ByteSize_ofList s.toList
  rw [String.ofList_toList] at hbytes
  rw [hbytes]
  exact hsize s.toList h

theorem checkpointRows_append {db' : DelegationDb} {row : CheckpointRow}
    (h : db'.checkpoints.rows = db.checkpoints.rows ++ [row]) (spanId : String) :
    checkpointRows db' spanId =
      checkpointRows db spanId ++ if row.spanId = spanId then [row] else [] := by
  unfold checkpointRows
  rw [h, List.filter_append]
  by_cases hspan : row.spanId = spanId <;> simp [hspan]

/-- Every stored summary is plain, and no span holds more than the bound. -/
structure Bounded (db : DelegationDb) : Prop where
  plain : ∀ c ∈ db.checkpoints.rows, Plain c.summary
  bytes : ∀ spanId, storedBytes db spanId ≤ maxSpanSummaryBytes

theorem Bounded.counted (h : Bounded db) (spanId : String) :
    countedLength db spanId = storedBytes db spanId := by
  unfold countedLength storedBytes
  congr 1
  exact List.map_congr_left fun c hc => sqlLength_plain (h.plain c (List.mem_filter.1 hc).1)

theorem Bounded.of_checkpoints {db' : DelegationDb} (h : Bounded db)
    (heq : db'.checkpoints = db.checkpoints) : Bounded db' := by
  obtain ⟨hplain, hbytes⟩ := h
  unfold storedBytes checkpointRows at hbytes
  refine ⟨fun c hc => hplain c (heq ▸ hc), fun spanId => ?_⟩
  unfold storedBytes checkpointRows
  rw [heq]
  exact hbytes spanId

theorem Bounded.append {db' : DelegationDb} {row : CheckpointRow} (h : Bounded db)
    (hrows : db'.checkpoints.rows = db.checkpoints.rows ++ [row]) (hplain : Plain row.summary)
    (hbound : countedLength db row.spanId + row.summary.utf8ByteSize ≤ maxSpanSummaryBytes) :
    Bounded db' := by
  refine ⟨fun c hc => ?_, fun spanId => ?_⟩
  · rw [hrows] at hc
    rcases List.mem_append.1 hc with hc | hc
    · exact h.plain c hc
    · rw [List.mem_singleton.1 hc]
      exact hplain
  · have hold := h.bytes spanId
    rw [h.counted] at hbound
    unfold storedBytes at hold hbound ⊢
    rw [checkpointRows_append hrows, List.map_append, List.sum_append]
    by_cases hspan : row.spanId = spanId
    · subst hspan
      simpa using hbound
    · simpa [hspan] using hold

theorem Bounded.step {e : Event} (h : Bounded db) (he : e.Plain) : Bounded (e.exec db) := by
  cases e with
  | task _ => exact h.of_checkpoints rfl
  | artifact _ _ => exact h.of_checkpoints rfl
  | startSpan host input =>
    show Bounded ((startSpan host input).run db).2
    exact h.of_checkpoints (startSpan_effect host input).2
  | closeSpan host id revision status reason actor =>
    show Bounded ((closeSpan host id revision status reason actor).run db).2
    exact h.of_checkpoints (closeSpan_effect host id revision status reason actor).2
  | appendCheckpoint host input =>
    show Bounded ((appendCheckpoint host input).run db).2
    cases (@appendCheckpoint_effect db host input).2 with
    | still heq => exact h.of_checkpoints heq
    | @added row hrows hspan hsummary hbound =>
      have hplain : Plain row.summary := hsummary ▸ he
      have hfits :
          countedLength db row.spanId + row.summary.utf8ByteSize ≤ maxSpanSummaryBytes := by
        rw [hspan, hsummary]
        exact hbound
      exact h.append hrows hplain hfits

end

/-- **No transcript can be stored through plain checkpoints.** -/
theorem storedBytes_bounded {db : DelegationDb}
    (h : (delegations.restrict fun _ e => e.Plain).Reachable db) (spanId : String) :
    storedBytes db spanId ≤ maxSpanSummaryBytes := by
  have hbounded : Bounded db := by
    refine h.invariant ?_ ?_
    · rintro _ rfl
      exact ⟨fun c hc => absurd hc List.not_mem_nil, fun _ => Nat.zero_le _⟩
    · rintro a e b - ha ⟨rfl, he⟩
      exact ha.step he
  exact hbounded.bytes spanId

/-! ### A long text in short notes -/

/-- A text of 8192 bytes that starts with a NUL. -/
@[irreducible] def filler : String := String.ofList ('\x00' :: List.replicate 8191 'a')

def noteKey (n : Nat) : String := String.ofList (List.replicate (n + 1) 'k')

def noteHost (n : Nat) : Host := ⟨⟨0, 0⟩, noteKey n, noteKey n, id⟩

def note (n : Nat) : NewCheckpoint :=
  ⟨"span_k", .turn, filler, none, "w", noteKey n⟩

/-- A span is started and `n` notes are appended. -/
def noted : Nat → DelegationDb
  | 0 => (Event.startSpan (noteHost 0) ⟨"t", none, "a", "w", none, "s"⟩).exec
      ((Event.task "t").exec .empty)
  | n + 1 => (Event.appendCheckpoint (noteHost n) (note n)).exec (noted n)

theorem reachable_noted (n : Nat) : delegations.Reachable (noted n) := by
  induction n with
  | zero => exact ⟨.empty, [_, _], rfl, .cons rfl (.single rfl)⟩
  | succ n ih => exact ih.step rfl

theorem filler_bytes : filler.utf8ByteSize = 8192 := by
  have hletters : ∀ n, utf8Bytes (List.replicate n 'a') = n := by
    intro n
    induction n with
    | zero => rfl
    | succ n ih =>
      rw [List.replicate_succ, utf8Bytes_cons, ih]
      exact Nat.add_comm 1 n
  unfold filler
  rw [utf8ByteSize_ofList, utf8Bytes_cons, hletters]
  rfl

theorem sqlLength_filler : sqlLength filler = 0 := by
  unfold sqlLength filler
  rw [String.toList_ofList, List.takeWhile_cons_of_neg (by simp)]
  rfl

theorem appendCheckpoint_adds {db : DelegationDb} {host : Host} {input : NewCheckpoint}
    {span : SpanRow} {ts : Timestamp}
    {checkpoints : Series CheckpointRow.checkpointId CheckpointRow.sequence}
    (hactor : checkActor input.actor "actor" = .ok ())
    (hkey : validateKey input.idempotencyKey = .ok ())
    (hsize : input.summary.utf8ByteSize ≤ maxSummaryBytes)
    (hfind : (db.checkpoints.rows.find? fun c =>
      c.actor = input.actor && c.idempotencyKey = input.idempotencyKey) = none)
    (hspan : db.spans.get? input.spanId = some span) (hrunning : span.status.terminal = false)
    (hartifact : input.artifactRef = none)
    (hbound : countedLength db input.spanId + input.summary.utf8ByteSize ≤ maxSpanSummaryBytes)
    (htime : formatTime host.now = .ok ts)
    (hinsert : insertCheckpoint (newCheckpointRow host input ts) (fun _ => rfl) db =
      .ok { db with checkpoints }) :
    ((appendCheckpoint host input).run db).2 = { db with checkpoints } := by
  refine run_of_wp (P := fun _ (db' : DelegationDb) => db' = { db with checkpoints }) ?_
  unfold appendCheckpoint findCheckpointByKey requireSpan getSpan summaryLength
  refine wp_lift_eq hactor (wp_lift_eq hkey ?_)
  refine wp_ite (fun h => absurd hsize (Nat.not_le.2 h)) fun _ => wp_query ?_
  rw [hfind]
  refine wp_assoc (wp_query ?_)
  rw [hspan]
  refine wp_lift_ok (wp_ite (fun h => absurd h (by simp [hrunning])) fun _ => ?_)
  rw [hartifact]
  refine wp_bind (wp_pure (wp_query (wp_ite (fun h => absurd hbound (Nat.not_le.2 h)) fun _ => ?_)))
  refine wp_lift_eq htime (wp_query (wp_bind ?_))
  unfold wp exec
  simp only [hinsert]
  rfl

theorem noteKey_inj {m n : Nat} (h : noteKey m = noteKey n) : m = n := by
  have hlength := congrArg (fun s : String => s.toList.length) h
  simpa [noteKey] using hlength

structure Noted (n : Nat) (db : DelegationDb) : Prop where
  span : ∃ span, db.spans.get? "span_k" = some span ∧ span.status.terminal = false
  rows : db.checkpoints.rows.length = n
  row : ∀ c ∈ db.checkpoints.rows, c.spanId = "span_k" ∧ c.summary = filler ∧
    ∃ i < n, c.checkpointId = "checkpoint_" ++ noteKey i ∧ c.idempotencyKey = noteKey i
  next : db.checkpoints.next = n + 1

theorem Noted.checkpointRows {n : Nat} {db : DelegationDb} (h : Noted n db) :
    checkpointRows db "span_k" = db.checkpoints.rows :=
  List.filter_eq_self.2 fun c hc => decide_eq_true (h.row c hc).1

theorem Noted.sum {n : Nat} {db : DelegationDb} (h : Noted n db) (size : String → Nat) :
    ((Delegation.checkpointRows db "span_k").map fun c => size c.summary).sum =
      n * size filler := by
  have hall : (db.checkpoints.rows.map fun c => size c.summary) =
      List.replicate n (size filler) := by
    rw [List.eq_replicate_iff]
    refine ⟨by rw [List.length_map, h.rows], fun m hm => ?_⟩
    obtain ⟨c, hc, rfl⟩ := List.mem_map.1 hm
    rw [(h.row c hc).2.1]
  rw [h.checkpointRows, hall, List.sum_replicate_nat]

theorem validateKey_noteKey {n : Nat} (h : n < 33) : validateKey (noteKey n) = .ok () := by
  have hall : ∀ n < 33, validateKey (noteKey n) = .ok () := by decide +kernel
  exact hall n h

theorem Noted.find_none {n : Nat} {db : DelegationDb} (h : Noted n db) :
    (db.checkpoints.rows.find? fun c =>
      c.actor = (note n).actor && c.idempotencyKey = (note n).idempotencyKey) = none := by
  refine List.find?_eq_none.2 fun c hc hsame => ?_
  obtain ⟨-, -, i, hi, -, hkey⟩ := h.row c hc
  simp only [Bool.and_eq_true, decide_eq_true_eq] at hsame
  exact absurd (noteKey_inj (hkey.symm.trans hsame.2)) (Nat.ne_of_lt hi)

theorem Noted.countedLength {n : Nat} {db : DelegationDb} (h : Noted n db) :
    Delegation.countedLength db "span_k" = 0 := by
  unfold Delegation.countedLength
  rw [h.sum sqlLength, sqlLength_filler, Nat.mul_zero]

theorem Noted.insert {n : Nat} {db : DelegationDb} (h : Noted n db) (hn : n < 33)
    (ts : Timestamp) : ∃ checkpoints, insertCheckpoint (newCheckpointRow (noteHost n) (note n) ts)
      (fun _ => rfl) db = .ok { db with checkpoints } := by
  have hunused : ¬ (db.checkpoints.rows.any fun x =>
      x.actor = (newCheckpointRow (noteHost n) (note n) ts 0).actor &&
        x.idempotencyKey = (newCheckpointRow (noteHost n) (note n) ts 0).idempotencyKey) =
          true := by
    rw [Bool.not_eq_true, List.any_eq_false]
    exact List.find?_eq_none.1 h.find_none
  have hfull : ¬ maxRowid < db.checkpoints.next := by
    rw [h.next]
    unfold maxRowid
    omega
  have hdup : (newCheckpointRow (noteHost n) (note n) ts db.checkpoints.next).checkpointId ∉
      db.checkpoints.rows.map CheckpointRow.checkpointId := by
    rintro hmem
    obtain ⟨c, hc, hid⟩ := List.mem_map.1 hmem
    obtain ⟨-, -, i, hi, hci, -⟩ := h.row c hc
    have hkeys := String.append_right_inj _ |>.1 (hci.symm.trans hid)
    exact absurd (noteKey_inj hkeys) (Nat.ne_of_lt hi)
  unfold insertCheckpoint Series.append?
  rw [if_neg hunused, dif_neg hfull, dif_neg hdup]
  exact ⟨_, rfl⟩

theorem Noted.append {n : Nat} {db : DelegationDb} (h : Noted n db) (hn : n < 33) :
    Noted (n + 1) ((Event.appendCheckpoint (noteHost n) (note n)).exec db) := by
  obtain ⟨span, hspan, hrunning⟩ := h.span
  obtain ⟨ts, htime⟩ : ∃ ts, formatTime (noteHost n).now = .ok ts := ⟨_, rfl⟩
  obtain ⟨checkpoints, hinsert⟩ := h.insert hn ts
  obtain ⟨checkpoints', heq, hrows, -⟩ := insertCheckpoint_ok hinsert
  obtain rfl : checkpoints = checkpoints' := congrArg DelegationDb.checkpoints heq
  have hbound : Delegation.countedLength db (note n).spanId + (note n).summary.utf8ByteSize ≤
      maxSpanSummaryBytes := by
    have hsize : (note n).summary.utf8ByteSize = 8192 := filler_bytes
    rw [hsize, show Delegation.countedLength db (note n).spanId = 0 from h.countedLength]
    decide
  have hactor : checkActor "w" "actor" = .ok () := by decide
  have hadds := @appendCheckpoint_adds db (noteHost n) (note n) span ts checkpoints hactor
    (validateKey_noteKey hn) (Nat.le_of_eq filler_bytes) h.find_none hspan hrunning rfl hbound htime
    hinsert
  show Noted (n + 1) ((appendCheckpoint (noteHost n) (note n)).run db).2
  rw [hadds]
  refine ⟨⟨span, hspan, hrunning⟩, ?_, fun c hc => ?_, ?_⟩
  · rw [hrows, List.length_append, h.rows]
    rfl
  · rw [hrows] at hc
    rcases List.mem_append.1 hc with hc | hc
    · obtain ⟨hc1, hc2, i, hi, hkeys⟩ := h.row c hc
      exact ⟨hc1, hc2, i, Nat.lt_succ_of_lt hi, hkeys⟩
    · rw [List.mem_singleton.1 hc]
      exact ⟨rfl, rfl, n, Nat.lt_succ_self n, rfl, rfl⟩
  · unfold Series.next
    rw [hrows, List.getLast?_concat, Option.map_some, Option.getD_some]
    show db.checkpoints.next + 1 = _
    rw [h.next]
    omega

theorem noted_spec {n : Nat} (h : n ≤ 33) : Noted n (noted n) := by
  induction n with
  | zero =>
    have hspan : ((noted 0).spans.get? "span_k").map (·.status.terminal) = some false := by
      decide +kernel
    obtain ⟨span, hget, hrunning⟩ := Option.map_eq_some_iff.1 hspan
    have hrows : (noted 0).checkpoints = Series.empty :=
      (startSpan_effect (noteHost 0) ⟨"t", none, "a", "w", none, "s"⟩).2
    refine ⟨⟨span, hget, hrunning⟩, ?_, fun c hc => ?_, ?_⟩
    · rw [hrows]
      rfl
    · rw [hrows] at hc
      cases hc
    · rw [hrows]
      rfl
  | succ n ih => exact (ih (Nat.le_of_succ_le h)).append h

theorem noted_bytes {n : Nat} (h : n ≤ 33) : storedBytes (noted n) "span_k" = n * 8192 := by
  unfold storedBytes
  rw [(noted_spec h).sum String.utf8ByteSize, filler_bytes]

theorem plain_done : Plain "done" := by
  intro c hc
  have hletters : c = 'd' ∨ c = 'o' ∨ c = 'n' ∨ c = 'e' := by simpa using hc
  rcases hletters with rfl | rfl | rfl | rfl <;> exact ⟨by decide, by decide⟩

/-- A span with one plain note. -/
theorem storedBytes_bounded_sample :
    storedBytes ((Event.appendCheckpoint (noteHost 0)
      ⟨"span_k", .turn, "done", none, "w", "k"⟩).exec (noted 0)) "span_k" ≤ maxSpanSummaryBytes :=
  storedBytes_bounded ⟨.empty, [.task "t",
      .startSpan (noteHost 0) ⟨"t", none, "a", "w", none, "s"⟩,
      .appendCheckpoint (noteHost 0) ⟨"span_k", .turn, "done", none, "w", "k"⟩], rfl,
    .cons ⟨rfl, trivial⟩ <| .cons ⟨rfl, trivial⟩ <|
      .single ⟨rfl, plain_done⟩⟩ "span_k"

/-- 33 notes of 8192 bytes are stored for one span. -/
theorem storedBytes_unbounded : ¬ ∀ (db : DelegationDb) (spanId : String),
    delegations.Reachable db → storedBytes db spanId ≤ maxSpanSummaryBytes := by
  intro h
  have hle := h _ "span_k" (reachable_noted 33)
  rw [noted_bytes (le_refl _)] at hle
  exact absurd hle (by decide)

end AgentPalace.Delegation
