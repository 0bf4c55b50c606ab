import AgentPalace.Ingest.Commit
import AgentPalace.Lib.Checked

/-!
# What a reconciliation does

`Reconciled s₀ s`: the palace `s` is `s₀` without some drawers that no committed
run lists, and with some pending runs failed. It holds wherever a
reconciliation of `s₀` can be stopped, and a drawer that only a pending run
lists is still listed by one. A reconciliation that ends well leaves no run
pending that was stale.
-/

namespace AgentPalace.Ingest

structure Reconciled (s₀ s : Palace) : Prop where
  wf : Wf s.db
  outbox : s.outbox = s₀.outbox
  files : s.db.files = s₀.db.files
  lastRunId : s.db.lastRunId = s₀.db.lastRunId
  sameRun : ∀ ingestKind sourceKey now,
    s.db.sameRun ingestKind sourceKey now = s₀.db.sameRun ingestKind sourceKey now
  manifest : ∀ key, SameManifest key s₀.db s.db
  committed : ∀ id, Committed s.db id ↔ Committed s₀.db id
  owned : ∀ owner, Owned owner s₀.db → Owned owner s.db
  pending : ∀ r ∈ s.db.runs.rows, r.status = .pending → r ∈ s₀.db.runs.rows
  drawers : ∃ gone : List DrawerId, s.drawers = s₀.drawers.filter (fun d => d.id ∉ gone) ∧
    ∀ id ∈ gone, ¬ Committed s₀.db id
  listed : ∀ id ∈ s.ids, ¬ Committed s₀.db id → Listed s₀.db id → Listed s.db id

section
variable {s₀ s : Palace} {id : DrawerId}

theorem Reconciled.refl (hdb : Wf s₀.db) : Reconciled s₀ s₀ where
  wf := hdb
  outbox := rfl
  files := rfl
  lastRunId := rfl
  sameRun _ _ _ := rfl
  manifest key := .refl key s₀.db
  committed _ := Iff.rfl
  owned _ howned := howned
  pending _ hr _ := hr
  drawers := ⟨[], by simp⟩
  listed _ _ _ hlisted := hlisted

namespace Reconciled

theorem stored (h : Reconciled s₀ s) (hid : id ∈ s.ids) : id ∈ s₀.ids := by
  obtain ⟨gone, hdrawers, _⟩ := h.drawers
  obtain ⟨d, hd, rfl⟩ := List.mem_map.1 hid
  rw [hdrawers] at hd
  exact List.mem_map_of_mem (List.mem_filter.1 hd).1

theorem kept (h : Reconciled s₀ s) (hid : id ∈ s₀.ids) (hcommitted : Committed s₀.db id) :
    id ∈ s.ids := by
  obtain ⟨gone, hdrawers, hgone⟩ := h.drawers
  obtain ⟨d, hd, rfl⟩ := List.mem_map.1 hid
  refine List.mem_map_of_mem ?_
  rw [hdrawers, List.mem_filter]
  exact ⟨hd, by simpa using fun hin => hgone d.id hin hcommitted⟩

theorem prune (hdb : Wf s₀.db) {orphaned : List DrawerId}
    (h : ∀ id ∈ orphaned, ¬ Committed s₀.db id) :
    Reconciled s₀ (Statement.exec (.deleteDrawers orphaned) s₀) :=
  { (Reconciled.refl hdb : Reconciled s₀ s₀) with
    drawers := ⟨orphaned, rfl, h⟩
    listed := fun _ _ _ hlisted => hlisted }

theorem deleteDiarySummary (h : Reconciled s₀ s) (entryId : DrawerId) :
    Reconciled s₀ (Statement.exec (.deleteDiarySummary entryId) s) :=
  { h with
    wf := ⟨h.wf.id_le, h.wf.entry⟩
    manifest := fun key => (h.manifest key).trans (.of_deleteDiarySummary s.db entryId) }

theorem markRunFailed (h : Reconciled s₀ s) {runId : Int} (reason : String)
    (failedAt : OffsetDateTime) (hrun : ∀ r ∈ s.db.runs.rows, r.id = runId → r.status ≠ .committed)
    (hlisted : ∀ id ∈ s.ids, ¬ Committed s₀.db id → Listed s₀.db id →
      ∃ r ∈ s.db.runs.rows, r.status = .pending ∧ Entry s.db r.id id ∧ r.id ≠ runId) :
    Reconciled s₀ (Statement.exec (.markRunFailed runId reason failedAt) s) := by
  have hmarked := marked_mark s.db runId .failed failedAt (some reason)
  refine ⟨hmarked.wf h.wf, h.outbox, h.files, h.lastRunId, fun ingestKind sourceKey now => ?_,
    fun key => (h.manifest key).trans (hmarked.failed_sameManifest fun r hr hid =>
      hrun r hr.mem hid hr.status),
    fun id => (hmarked.failed_committed hrun).trans (h.committed id),
    fun owner howned => hmarked.owned (h.owned owner howned), fun r hr hstatus => ?_, h.drawers,
    fun id hid hcommitted hlist => ?_⟩
  · exact (sameRun_mark s.db runId .failed failedAt (some reason) ingestKind sourceKey now).trans
      (h.sameRun ingestKind sourceKey now)
  · obtain ⟨r₀, hr₀, rfl⟩ := (hmarked.runs r).1 hr
    rw [marked_status] at hstatus
    split at hstatus
    · cases hstatus
    · rename_i hid
      rw [marked, if_neg hid]
      exact h.pending r₀ hr₀ hstatus
  · obtain ⟨r, hr, hpending, hentry, hne⟩ := hlisted id hid hcommitted hlist
    exact ⟨r, (hmarked.committed_run hne).2 hr, hpending, hmarked.entry.2 hentry⟩

end Reconciled

end

/-! ## The loop that fails stale runs -/

/-- The runs `rest` of the stale ones are still to be failed. -/
structure Marking (s₀ : Palace) (stale rest : List RetryableRun) (s : Palace) : Prop where
  reconciled : Reconciled s₀ s
  sub : ∀ x ∈ rest, x ∈ stale
  /-- Runs that are not stale are as they were. -/
  kept : ∀ r ∈ s₀.db.runs.rows, r.id ∉ stale.map (·.run.id) → r ∈ s.db.runs.rows
  /-- No drawer is left that only a stale run lists. -/
  spared : ∀ id ∈ s.ids, ¬ Committed s₀.db id → ∀ r ∈ s₀.db.runs.rows, r.status = .pending →
    Entry s₀.db r.id id → r.id ∉ stale.map (·.run.id)
  uncommitted : ∀ r ∈ s.db.runs.rows, r.id ∈ stale.map (·.run.id) → r.status ≠ .committed
  entry : ∀ runId id, Entry s.db runId id ↔ Entry s₀.db runId id
  failed : ∀ r ∈ s.db.runs.rows, r.status = .pending → r.id ∈ stale.map (·.run.id) →
    r.id ∈ rest.map (·.run.id)

theorem Marking.next {s₀ s : Palace} {stale rest : List RetryableRun} {x : RetryableRun}
    (h : Marking s₀ stale (x :: rest) s) (reason : String) (failedAt : OffsetDateTime) :
    Marking s₀ stale rest (Statement.exec (.markRunFailed x.run.id reason failedAt) s) := by
  have hmarked := marked_mark s.db x.run.id .failed failedAt (some reason)
  have hx : x.run.id ∈ stale.map (·.run.id) :=
    List.mem_map_of_mem (h.sub x List.mem_cons_self)
  refine ⟨h.reconciled.markRunFailed reason failedAt (fun r hr hid => ?_)
    fun id hid hcommitted hlisted => ?_, fun y hy => h.sub y (List.mem_cons_of_mem x hy),
    fun r hr hid => ?_, h.spared, fun r hr hid => ?_,
    fun runId id => hmarked.entry.trans (h.entry runId id), fun r hr hstatus hid => ?_⟩
  · exact h.uncommitted r hr (hid ▸ hx)
  · obtain ⟨r, hr, hpending, hentry⟩ := hlisted
    have hstale := h.spared id hid hcommitted r hr hpending hentry
    exact ⟨r, h.kept r hr hstale, hpending, (h.entry r.id id).2 hentry, fun e => hstale (e ▸ hx)⟩
  · exact (hmarked.committed_run fun e => hid (e ▸ hx)).2 (h.kept r hr hid)
  · obtain ⟨r₀, hr₀, rfl⟩ := (hmarked.runs r).1 hr
    rw [marked_status]
    split
    · exact nofun
    · exact h.uncommitted r₀ hr₀ (marked_id ▸ hid)
  · obtain ⟨r₀, hr₀, rfl⟩ := (hmarked.runs r).1 hr
    rw [marked_id] at hid ⊢
    rw [marked_status] at hstatus
    split at hstatus
    · cases hstatus
    · rename_i hne
      rcases List.mem_cons.1 (h.failed r₀ hr₀ hstatus hid) with e | hrest
      · exact absurd e hne
      · exact hrest

/-! ## The program -/

theorem decode_ok {r r' : IngestRun} (h : r.decode = .ok r') : r' = r := by
  have htime : ∀ {t t' : OffsetDateTime}, decodeTime t = .ok t' → t' = t := by
    intro t t' ht
    unfold decodeTime at ht
    split at ht
    · cases ht; rfl
    · cases ht
  unfold IngestRun.decode at h
  cases hcreated : decodeTime r.createdAt with
  | error e => rw [hcreated] at h; cases h
  | ok createdAt =>
    cases hupdated : decodeTime r.updatedAt with
    | error e => rw [hcreated, hupdated] at h; cases h
    | ok updatedAt =>
      rw [hcreated, hupdated] at h
      cases h
      rw [htime hcreated, htime hupdated]

theorem mapM_decode_ok {rows decoded : List IngestRun}
    (h : rows.mapM IngestRun.decode = .ok decoded) : decoded = rows := by
  have hall := (list_mapM_iff.1 h).imp fun _ _ hdecode => (decode_ok hdecode).symm
  exact (List.forall₂_eq_eq_eq ▸ hall : rows = decoded).symm

section
variable {ε α β γ : Type} {C : Stage → Palace → Prop} {Q : Except ε α → Stage → Palace → Prop}
  {st : Stage} {s : Palace}

theorem mapM_read_wpc {xs : List β} {g : β → Palace → γ} {f : List γ → Program ε α} (hC : C st s)
    (h : (f (xs.map fun x => g x s)).wpc Statement.exec Stage.next C Q st s) :
    ((xs.mapM fun x => read (g x)) >>= f).wpc Statement.exec Stage.next C Q st s := by
  induction xs generalizing f with
  | nil => exact h
  | cons x xs ih =>
    rw [List.mapM_cons, bind_assoc]
    refine Prog.wpc_step rfl hC ?_
    rw [bind_assoc]
    exact ih h

end

/-- The stale runs of a status, with the ids of their manifests. -/
structure StaleRuns (db : IngestDb) (status : IngestRunStatus) (kind : Option String)
    (olderThan : OffsetDateTime) (runs : List RetryableRun) : Prop where
  mem : ∀ x ∈ runs, x.run ∈ db.runs.rows ∧ x.run.status = status ∧
    x.chunkIds = db.manifestIds x.run.id
  all : ∀ r ∈ db.runs.rows, r.status = status → kind.all (r.ingestKind = ·) →
    encodeTime r.updatedAt < encodeTime olderThan → r.id ∈ runs.map (·.run.id)

theorem staleRuns_wpc {α : Type} {C : Stage → Palace → Prop}
    {Q : Except StorageError α → Stage → Palace → Prop} {st : Stage} {s : Palace}
    {status : IngestRunStatus} {kind : Option String} {olderThan : OffsetDateTime}
    {f : List RetryableRun → PProg α} (hC : C st s) (herror : ∀ e, Q (.error e) st s)
    (h : ∀ runs, StaleRuns s.db status kind olderThan runs →
      (f runs).wpc Statement.exec Stage.next C Q st s) :
    (staleRuns status kind olderThan >>= f).wpc Statement.exec Stage.next C Q st s := by
  unfold staleRuns
  rw [bind_assoc]
  refine Prog.wpc_bind (Prog.wpc_statement hC hC ?_)
  cases hstale : s.db.staleRuns status kind olderThan with
  | error e => exact herror e
  | ok runs =>
    have hruns := mapM_decode_ok hstale
    have hreads : (runs.mapM fun run => do
        let chunkIds ← read fun s : Palace => s.db.manifestIds run.id
        return ({ run, chunkIds } : RetryableRun)) =
        (runs.mapM fun run => (read fun s => { run, chunkIds := s.db.manifestIds run.id } :
          PProg RetryableRun)) := rfl
    dsimp only
    rw [hreads]
    refine mapM_read_wpc hC (h _ ⟨fun x hx => ?_, fun r hr hstatus hkind hold => ?_⟩)
    · obtain ⟨run, hrun, rfl⟩ := List.mem_map.1 hx
      rw [hruns] at hrun
      obtain ⟨hrun, hguard⟩ := List.mem_filter.1 hrun
      simp only [Bool.and_eq_true, decide_eq_true_eq] at hguard
      exact ⟨mem_orderBy.1 hrun, hguard.1.1, rfl⟩
    · rw [List.map_map]
      refine List.mem_map.2 ⟨r, ?_, rfl⟩
      rw [hruns, List.mem_filter]
      refine ⟨mem_orderBy.2 hr, ?_⟩
      simp only [Bool.and_eq_true, decide_eq_true_eq]
      exact ⟨⟨hstatus, hkind⟩, hold⟩

theorem Marking.deleteDiarySummary {s₀ s : Palace} {stale rest : List RetryableRun}
    (h : Marking s₀ stale rest s) (entryId : DrawerId) :
    Marking s₀ stale rest (Statement.exec (.deleteDiarySummary entryId) s) :=
  { h with reconciled := h.reconciled.deleteDiarySummary entryId }

theorem Marking.start {s₀ : Palace} (hdb : Wf s₀.db) {olderThan : OffsetDateTime}
    {stale : List RetryableRun} (hstale : StaleRuns s₀.db .pending none olderThan stale)
    {orphaned : List DrawerId} (horphaned : ∀ id ∈ orphaned, ¬ Committed s₀.db id)
    (hall : ∀ x ∈ stale, ∀ id ∈ x.chunkIds, id ∈ s₀.ids → ¬ Committed s₀.db id → id ∈ orphaned) :
    Marking s₀ stale stale (Statement.exec (.deleteDrawers orphaned) s₀) where
  reconciled := .prune hdb horphaned
  sub _ hx := hx
  kept _ hr _ := hr
  spared id hid hcommitted r hr _ hentry hin := by
    obtain ⟨hstored, hnot⟩ := Statement.ids_deleteDrawers.1 hid
    obtain ⟨x, hx, hrun⟩ := List.mem_map.1 hin
    obtain ⟨hmem, _, hchunks⟩ := hstale.mem x hx
    refine hnot (hall x hx id ?_ hstored hcommitted)
    rw [hchunks, mem_manifestIds, hrun]
    exact hentry
  uncommitted r hr hin := by
    obtain ⟨x, hx, hrun⟩ := List.mem_map.1 hin
    obtain ⟨hmem, hstatus, _⟩ := hstale.mem x hx
    obtain rfl := run_unique hmem hr hrun
    rw [hstatus]
    exact nofun
  entry _ _ := Iff.rfl
  failed _ _ _ hin := hin

/-- **A reconciliation**, wherever it is stopped; when it ends well no stale run is pending. -/
theorem reconcile_wpc {s₀ : Palace} (hdb : Wf s₀.db) (now : OffsetDateTime)
    (failedAt : Int → OffsetDateTime) (st : Stage) :
    (reconcile now failedAt).wpc Statement.exec Stage.next (fun _ s => Reconciled s₀ s)
      (fun r _ s => Reconciled s₀ s ∧ (r = .ok () → ∀ run ∈ s.db.runs.rows, run.status = .pending →
        ¬ encodeTime run.updatedAt < encodeTime { now with nanos := now.nanos - staleAfter }))
      st s₀ := by
  have hrefl := Reconciled.refl hdb
  unfold reconcile
  refine staleRuns_wpc hrefl (fun _ => ⟨hrefl, nofun⟩) fun stale hstale => ?_
  refine staleRuns_wpc hrefl (fun _ => ⟨hrefl, nofun⟩) fun diary hdiary => ?_
  dsimp only
  split
  · rename_i hnone
    refine Prog.wpc_pure hrefl ⟨hrefl, fun _ run hrun hstatus hold => ?_⟩
    have := hstale.all run hrun hstatus rfl hold
    simp [(List.append_eq_nil_iff.1 hnone).1] at this
  -- the drawers of stale runs that no committed run lists are deleted
  have hprune : ∀ (f : List DrawerId → PProg Unit) (Q : Except StorageError Unit → Stage → Palace → Prop),
      (∀ ids st s, Marking s₀ stale stale s →
        (f ids).wpc Statement.exec Stage.next (fun _ s => Reconciled s₀ s) Q st s) →
      (pruneOrphanedRows (stale ++ diary) >>= f).wpc Statement.exec Stage.next
        (fun _ s => Reconciled s₀ s) Q st s₀ := by
    intro f Q hf
    unfold pruneOrphanedRows
    rw [bind_assoc]
    refine Prog.wpc_step rfl hrefl ?_
    rw [bind_assoc]
    refine Prog.wpc_step rfl hrefl ?_
    have hmarking : Marking s₀ stale stale (Statement.exec (.deleteDrawers
        ((s₀.drawers.map (·.id)).filter fun id => id ∈ (stale ++ diary).flatMap (·.chunkIds) &&
          id ∉ s₀.db.committedDrawerIds)) s₀) := by
      refine .start hdb hstale (fun id hid => ?_) fun x hx id hid hstored hcommitted => ?_
      · obtain ⟨_, hguard⟩ := List.mem_filter.1 hid
        simp only [Bool.and_eq_true, decide_eq_true_eq, mem_committedDrawerIds hdb] at hguard
        exact hguard.2
      · refine List.mem_filter.2 ⟨hstored, ?_⟩
        simp only [Bool.and_eq_true, decide_eq_true_eq, mem_committedDrawerIds hdb]
        exact ⟨List.mem_flatMap.2 ⟨x, List.mem_append_left _ hx, hid⟩, hcommitted⟩
    dsimp only
    split
    · rename_i horphaned
      rw [pure_bind]
      refine hf [] _ _ ?_
      have hnone : ((Statement.exec .read s₀).drawers.map (·.id)).filter (fun id =>
          decide (id ∈ (stale ++ diary).flatMap (·.chunkIds)) &&
            decide (id ∉ s₀.db.committedDrawerIds)) = [] := horphaned
      simp only [Statement.exec] at hnone ⊢
      rwa [hnone, Statement.deleteDrawers_nil] at hmarking
    · rename_i hsome
      rw [bind_assoc]
      refine deleteDrawers_wpc hsome hrefl fun n => ?_
      rw [pure_bind]
      exact hf _ _ _ hmarking
  refine hprune _ _ fun ids st s hmarking => ?_
  refine Prog.wpc_step rfl hmarking.reconciled ?_
  refine Prog.wpc_bind (Prog.wpc_forM (I := fun _ _ s => Marking s₀ stale stale s)
    (fun id _ st s h => ?_) (fun st s h => ⟨h.reconciled, ?_⟩) hmarking)
  · split
    · exact Prog.wpc_statement h.reconciled (h.deleteDiarySummary id).reconciled
        (h.deleteDiarySummary id)
    · exact Prog.wpc_pure h.reconciled h
  · refine Prog.wpc_forM (I := fun rest _ s => Marking s₀ stale rest s)
      (fun x rest st s h => ?_) (fun st s h => ⟨h.reconciled, h.reconciled, ?_⟩) h
    · exact Prog.wpc_statement h.reconciled (h.next _ _).reconciled (h.next _ _)
    · intro _ run hrun hstatus hold
      have hin := hstale.all run (h.reconciled.pending run hrun hstatus) hstatus rfl hold
      simpa using h.failed run hrun hstatus hin

end AgentPalace.Ingest
