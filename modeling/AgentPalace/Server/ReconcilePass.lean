import AgentPalace.Server.AddDrawer
import AgentPalace.Ingest.Reconcile

/-!
# What an add and a reconciliation do, step by step

`StorageEngine::reconcile` is another sequence of reads and writes of the same
stores (`PassPhase.next`). Two inversion lemmas say what a step of a request
(`Phase.next_moved`) and of a reconciliation (`PassPhase.next_moved`) does to the
runs, their manifests and the drawer rows.
-/

namespace AgentPalace.Server

open Ingest (IngestDb IngestRun RetryableRun Committed Created Marked newRun)

/-! ## Reconciliation -/

/-- Where a reconciliation is. A phase is named after the read or write that is next. -/
inductive PassPhase where
  | stalePendingRuns (cutoff : OffsetDateTime)
  | pendingManifests (cutoff : OffsetDateTime) (rest : List IngestRun) (stale : List RetryableRun)
  | staleFailedDiaryRuns (cutoff : OffsetDateTime) (stale : List RetryableRun)
  | diaryManifests (rest : List IngestRun) (stale diary : List RetryableRun)
  | committedDrawerIds (stale all : List RetryableRun)
  | listDrawers (stale all : List RetryableRun) (committed : List DrawerId)
  | deleteDrawers (stale all : List RetryableRun) (orphaned : List DrawerId)
  | committedAgain (stale all : List RetryableRun)
  | deleteSummaries (stale : List RetryableRun) (rest : List DrawerId)
  | markRunsFailed (rest : List RetryableRun)
  | finished

def startReconcile (now : OffsetDateTime) : PassPhase :=
  .stalePendingRuns { now with nanos := now.nanos - Ingest.staleAfter }

def chunkIds (runs : List RetryableRun) : List DrawerId := runs.flatMap (·.chunkIds)

/-- After the manifests: nothing stale ends the pass. -/
def pruneFrom (stale diary : List RetryableRun) : PassPhase :=
  if stale ++ diary = [] then .finished else .committedDrawerIds stale (stale ++ diary)

instance (stale diary : List RetryableRun) : Decidable (stale ++ diary = []) :=
  decidable_of_iff ((stale ++ diary).isEmpty = true) List.isEmpty_iff

/-- One step. A failed read or write ends the pass. -/
def PassPhase.next (env : Surroundings) (s : Palace) : PassPhase → PassPhase × Palace
  | stalePendingRuns cutoff =>
    match s.ingest.staleRuns .pending none cutoff with
    | .ok runs => (.pendingManifests cutoff runs [], s)
    | .error _ => (.finished, s)
  | pendingManifests cutoff [] stale => (.staleFailedDiaryRuns cutoff stale, s)
  | pendingManifests cutoff (run :: rest) stale =>
    (.pendingManifests cutoff rest (stale ++ [⟨run, s.ingest.manifestIds run.id⟩]), s)
  | staleFailedDiaryRuns cutoff stale =>
    match s.ingest.staleRuns .failed (some "diary") cutoff with
    | .ok runs => (.diaryManifests runs stale [], s)
    | .error _ => (.finished, s)
  | diaryManifests [] stale diary => (pruneFrom stale diary, s)
  | diaryManifests (run :: rest) stale diary =>
    (.diaryManifests rest stale (diary ++ [⟨run, s.ingest.manifestIds run.id⟩]), s)
  | committedDrawerIds stale all => (.listDrawers stale all s.ingest.committedDrawerIds, s)
  | listDrawers stale all committed =>
    if env.storeError.isSome then (.finished, s)
    else
      let orphaned := s.ids.filter fun id => id ∈ chunkIds all && id ∉ committed
      (if orphaned = [] then .committedAgain stale all else .deleteDrawers stale all orphaned, s)
  | deleteDrawers stale all orphaned =>
    if env.storeError.isSome then (.finished, s)
    else (.committedAgain stale all,
      { s with drawers := s.drawers.filter fun row => row.id ∉ orphaned })
  | committedAgain stale all =>
    let committed := s.ingest.committedDrawerIds
    (.deleteSummaries stale ((chunkIds all).filter fun id => id ∉ committed), s)
  | deleteSummaries stale [] => (.markRunsFailed stale, s)
  | deleteSummaries stale (id :: rest) =>
    let r := (Ingest.deleteDiarySummary id).run s.ingest
    (match r.1 with
      | .ok _ => .deleteSummaries stale rest
      | .error _ => .finished,
     { s with ingest := r.2 })
  | markRunsFailed [] => (.finished, s)
  | markRunsFailed (x :: rest) =>
    let r := (Ingest.markRunFailed x.run.id "stale pending ingest run" env.now).run s.ingest
    (match r.1 with
      | .ok _ => .markRunsFailed rest
      | .error _ => .finished,
     { s with ingest := r.2 })
  | finished => (.finished, s)

/-- The runs the pass has read as pending and has still to mark failed. -/
def PassPhase.toFail : PassPhase → List Int
  | pendingManifests _ rest stale => rest.map (·.id) ++ stale.map (·.run.id)
  | staleFailedDiaryRuns _ stale | diaryManifests _ stale _ | committedDrawerIds stale _
  | listDrawers stale _ _ | deleteDrawers stale _ _ | committedAgain stale _
  | deleteSummaries stale _ | markRunsFailed stale => stale.map (·.run.id)
  | stalePendingRuns _ | finished => []

/-- The drawers the pass deletes if their rows are there. -/
def PassPhase.doomed : PassPhase → List DrawerId
  | listDrawers _ all committed => (chunkIds all).filter fun id => id ∉ committed
  | deleteDrawers _ _ orphaned => orphaned
  | _ => []

structure PassMoved (s : Palace) (pass pass' : PassPhase) (s' : Palace) : Prop where
  toFail : ∀ r ∈ pass'.toFail, r ∈ pass.toFail ∨
    ∃ run ∈ s.ingest.runs.rows, run.id = r ∧ run.status = .pending
  doomed : ∀ id ∈ pass'.doomed, id ∈ pass.doomed ∨ ¬ Committed s.ingest id
  ids : ∀ id ∈ s.ids, id ∉ pass.doomed → id ∈ s'.ids
  ingest : (s'.ingest.lastRunId = s.ingest.lastRunId ∧ s'.ingest.runs = s.ingest.runs ∧
      s'.ingest.manifests = s.ingest.manifests) ∨
    ∃ r ∈ pass.toFail, ∃ at_ reason, Marked s.ingest r .failed at_ reason s'.ingest

namespace PassMoved

variable {s s' : Palace} {pass pass' : PassPhase}

/-- A step that only reads, or leaves runs, manifests and rows. -/
theorem of_same (hingest : s'.ingest.lastRunId = s.ingest.lastRunId ∧
      s'.ingest.runs = s.ingest.runs ∧ s'.ingest.manifests = s.ingest.manifests)
    (hdrawers : s'.drawers = s.drawers) (htoFail : ∀ r ∈ pass'.toFail, r ∈ pass.toFail ∨
      ∃ run ∈ s.ingest.runs.rows, run.id = r ∧ run.status = .pending)
    (hdoomed : ∀ id ∈ pass'.doomed, id ∈ pass.doomed ∨ ¬ Committed s.ingest id) :
    PassMoved s pass pass' s' where
  toFail := htoFail
  doomed := hdoomed
  ids id hid _ := by unfold Palace.ids at hid ⊢; rw [hdrawers]; exact hid
  ingest := .inl hingest

theorem of_read (htoFail : ∀ r ∈ pass'.toFail, r ∈ pass.toFail) (hdoomed : pass'.doomed = []) :
    PassMoved s pass pass' s :=
  of_same ⟨rfl, rfl, rfl⟩ rfl (fun r hr => .inl (htoFail r hr))
    fun id hid => by rw [hdoomed] at hid; cases hid

theorem finished : PassMoved s pass .finished s :=
  of_read (fun r hr => by cases hr) rfl

end PassMoved

theorem staleRuns_pending {db : IngestDb} {kind : Option String} {cutoff : OffsetDateTime}
    {runs : List IngestRun} (h : db.staleRuns .pending kind cutoff = .ok runs) :
    ∀ run ∈ runs, run ∈ db.runs.rows ∧ run.status = .pending := by
  intro run hrun
  rw [Ingest.mapM_decode_ok h] at hrun
  obtain ⟨hmem, hguard⟩ := List.mem_filter.1 hrun
  rw [Bool.and_eq_true, Bool.and_eq_true, decide_eq_true_eq] at hguard
  refine ⟨?_, hguard.1.1⟩
  exact (List.mem_insertionSort _).1 hmem

theorem PassPhase.next_moved {s : Palace} (hwf : Ingest.Wf s.ingest) (env : Surroundings)
    (pass : PassPhase) :
    PassMoved s pass (pass.next env s).1 (pass.next env s).2 := by
  cases pass with
  | stalePendingRuns cutoff =>
    simp only [next]
    cases hruns : s.ingest.staleRuns .pending none cutoff with
    | error e => exact .finished
    | ok runs =>
      refine .of_same ⟨rfl, rfl, rfl⟩ rfl (fun r hr => .inr ?_) fun id hid => by cases hid
      simp only [toFail, List.map_nil, List.append_nil, List.mem_map] at hr
      obtain ⟨run, hrun, rfl⟩ := hr
      exact ⟨run, (staleRuns_pending hruns run hrun).1, rfl, (staleRuns_pending hruns run hrun).2⟩
  | pendingManifests cutoff rest stale =>
    cases rest with
    | nil => exact .of_read (fun r hr => List.mem_append_right _ hr) rfl
    | cons run rest =>
      refine .of_read (fun r hr => ?_) rfl
      simp only [next, toFail, List.map_append, List.map_cons, List.map_nil, List.mem_append,
        List.mem_cons, List.not_mem_nil, or_false] at hr ⊢
      tauto
  | staleFailedDiaryRuns cutoff stale =>
    simp only [next]
    cases s.ingest.staleRuns .failed (some "diary") cutoff with
    | error e => exact .finished
    | ok runs => exact .of_read (fun r hr => hr) rfl
  | diaryManifests rest stale diary =>
    cases rest with
    | nil =>
      simp only [next, pruneFrom]
      split
      · exact .finished
      · exact .of_read (fun r hr => hr) rfl
    | cons run rest => exact .of_read (fun r hr => hr) rfl
  | committedDrawerIds stale all =>
    refine .of_same ⟨rfl, rfl, rfl⟩ rfl (fun r hr => .inl hr) fun id hid => .inr fun hcommitted => ?_
    simp only [next, doomed, List.mem_filter, decide_eq_true_eq] at hid
    exact hid.2 ((Ingest.mem_committedDrawerIds hwf).2 hcommitted)
  | listDrawers stale all committed =>
    simp only [next]
    split
    · exact .finished
    · split
      · exact .of_read (fun r hr => hr) rfl
      · refine .of_same ⟨rfl, rfl, rfl⟩ rfl (fun r hr => .inl hr) fun id hid => .inl ?_
        simp only [doomed, List.mem_filter, Bool.and_eq_true, decide_eq_true_eq] at hid ⊢
        exact hid.2
  | deleteDrawers stale all orphaned =>
    simp only [next]
    split
    · exact .finished
    · refine ⟨fun r hr => .inl hr, fun id hid => (by cases hid), fun id hid hnot => ?_,
        .inl ⟨rfl, rfl, rfl⟩⟩
      obtain ⟨row, hrow, rfl⟩ := List.mem_map.1 hid
      exact List.mem_map.2 ⟨row, List.mem_filter.2 ⟨hrow, decide_eq_true hnot⟩, rfl⟩
  | committedAgain stale all => exact .of_read (fun r hr => hr) rfl
  | deleteSummaries stale rest =>
    cases rest with
    | nil => exact .of_read (fun r hr => hr) rfl
    | cons id rest =>
      exact .of_same ⟨rfl, rfl, rfl⟩ rfl (fun r hr => .inl hr) fun id hid => by cases hid
  | markRunsFailed rest =>
    cases rest with
    | nil => exact .finished
    | cons x rest =>
      refine ⟨fun r hr => .inl (List.mem_cons_of_mem _ hr), fun id hid => (by cases hid),
        fun id hid _ => hid, .inr ⟨x.run.id, List.mem_cons_self, env.now,
          some "stale pending ingest run", ?_⟩⟩
      simp only [next, Ingest.markRunFailed_run]
      exact Ingest.marked_mark ..
  | finished => exact .finished

/-! ## The add -/

namespace Phase

/-- The run the request has created and not committed yet. -/
def holds : Phase → Option Ingesting
  | existingIds add | addRow add | ensureIndices add | markRunCommitted add
  | markRunFailed add _ => some add
  | _ => none

/-- The drawer the request has found, or whose run it has committed. -/
def settled : Phase → Option DrawerId
  | findSimilar target | restoreEvent target _ | completeReceipt target _ => some target
  | appendEvent add => some add.row.id
  | _ => none

def written : Phase → Option DrawerId
  | ensureIndices add | markRunCommitted add => some add.row.id
  | p => p.settled

/-- The drawer of a request that is answered with success after it made the add. -/
def answers : Phase → Option DrawerId
  | answered target _ => some target
  | _ => none

inductive Moved (s : Palace) : Phase → Phase → Palace → Prop where
  /-- The runs and rows stay. -/
  | quiet {p p' : Phase} {s' : Palace} (hingest : s'.ingest = s.ingest)
      (hdrawers : s'.drawers = s.drawers) (hholds : p'.holds = none ∨ p'.holds = p.holds)
      (hsettled : p'.settled = none ∨ p'.settled = p.settled)
      (hanswers : p'.answers = none ∨ p'.answers = p.answers ∨ p'.answers = p.settled) :
      Moved s p p' s'
  /-- A recovery finds the row. -/
  | found {target : DrawerId} (hrow : target ∈ s.ids) :
      Moved s (getDrawer target) (findSimilar target) s
  | created {row : DrawerRow} {similar : List Json} {db : IngestDb} {now : OffsetDateTime}
      (h : Created s.ingest (newRun s.ingest "federation_write" (ingestSourceKey row.id) now)
        [Ingesting.entry row] db) :
      Moved s (createPendingRun row similar)
        (existingIds ⟨row, similar, s.ingest.lastRunId + 1⟩) { s with ingest := db }
  | wrote {add : Ingesting} :
      Moved s (addRow add) (ensureIndices add) { s with drawers := s.drawers ++ [add.row] }
  | committed {add : Ingesting} {run : IngestRun} {db : IngestDb} {now : OffsetDateTime}
      (hrun : run ∈ s.ingest.runs.rows) (hid : run.id = add.runId)
      (h : Marked s.ingest add.runId .committed now none db) :
      Moved s (markRunCommitted add) (appendEvent add) { s with ingest := db }
  | failed {add : Ingesting} {fault : StoreFault} {e : AddError} {db : IngestDb}
      {now : OffsetDateTime} {reason : Option String}
      (h : Marked s.ingest add.runId .failed now reason db) :
      Moved s (markRunFailed add fault) (refused e) { s with ingest := db }

/-- A step that ends in a refusal and leaves the runs and rows. -/
theorem Moved.refuse {s s' : Palace} {p : Phase} {e : AddError} (hingest : s'.ingest = s.ingest)
    (hdrawers : s'.drawers = s.drawers) : Moved s p (refused e) s' :=
  .quiet hingest hdrawers (.inl rfl) (.inl rfl) (.inl rfl)

theorem Moved.orRefuse {s s' : Palace} {p : Phase} {α : Type} {r : Except StorageError α}
    {f : α → Phase} (hingest : s'.ingest = s.ingest) (hdrawers : s'.drawers = s.drawers)
    (h : ∀ a, Moved s p (f a) s') : Moved s p (orRefuse r f) s' := by
  cases r with
  | error e => exact .refuse hingest hdrawers
  | ok a => exact h a

theorem beginStep_moved (req : Prepared) (env : Surroundings) (s : Palace) :
    Moved s beginReceipt (beginStep req env s).1 (beginStep req env s).2 := by
  unfold beginStep
  split
  · exact .quiet rfl rfl (.inl rfl) (.inl rfl) (.inl rfl)
  · split
    · exact .refuse rfl rfl
    · refine .quiet rfl rfl (.inl ?_) (.inl ?_) (.inl ?_)
      all_goals
        dsimp only
        split
        · rfl
        · rfl
        · rfl
        · split <;> rfl
        · split <;> rfl

theorem recoverStep_moved (req : Prepared) (env : Surroundings) (s : Palace) (target : DrawerId) :
    Moved s (getDrawer target) (recoverStep req env s target) s := by
  unfold recoverStep
  split
  · exact .refuse rfl rfl
  · split
    · exact .quiet rfl rfl (.inl rfl) (.inl rfl) (.inl rfl)
    · rename_i row hrow
      split
      · refine .found (List.mem_map.2 ⟨row, List.mem_of_find?_eq_some hrow, ?_⟩)
        have hid := List.find?_some hrow
        simpa using hid
      · exact .refuse rfl rfl

theorem checkStep_moved (profile : Profile) (req : Prepared) (env : Surroundings) (s : Palace)
    (target : DrawerId) : Moved s (findDuplicates target) (checkStep profile req env target) s := by
  unfold checkStep
  split
  · exact .refuse rfl rfl
  · dsimp only
    split
    · exact .refuse rfl rfl
    · split
      · exact .refuse rfl rfl
      · exact .quiet rfl rfl (.inl rfl) (.inl rfl) (.inl rfl)

theorem Moved.hold {s : Palace} {p p' : Phase} {add : Ingesting} (hp : p.holds = some add)
    (hp' : p'.holds = some add) (hsettled : p'.settled = none) (hanswers : p'.answers = none) :
    Moved s p p' s :=
  .quiet rfl rfl (.inr (hp'.trans hp.symm)) (.inl hsettled) (.inl hanswers)

theorem existingIdsStep_moved (profile : Profile) (env : Surroundings) (s : Palace)
    (add : Ingesting) :
    Moved s (existingIds add) (existingIdsStep profile env s add) s := by
  unfold existingIdsStep orFail
  split
  · exact .hold rfl rfl rfl rfl
  · split
    · exact .hold rfl rfl rfl rfl
    · split
      · exact .hold rfl rfl rfl rfl
      · exact .hold rfl rfl rfl rfl

theorem markRunCommitted_gone {db : IngestDb} {runId : Int}
    (hgone : ∀ r ∈ db.runs.rows, r.id ≠ runId) (sourceKey sourceFile contentHash : String)
    (drawerCount : Nat) (committedAt : OffsetDateTime) :
    (Ingest.markRunCommitted runId sourceKey sourceFile contentHash drawerCount committedAt).run db =
      (.error .noRows, db) := by
  have hget : (db.mark runId .committed committedAt none).runs.get? runId = none := by
    refine Table.get?_eq_none.2 fun r hr => ?_
    obtain ⟨r₀, hr₀, rfl⟩ :=
      ((Ingest.marked_mark db runId .committed committedAt none).runs r).1 hr
    rw [Ingest.marked_id]
    exact hgone r₀ hr₀
  unfold Ingest.markRunCommitted
  simp only [Tx.run, bind, Tx.exec, Tx.query, hget]
  rfl

theorem markRunCommitted_moved (profile : Profile) (req : Prepared) (env : Surroundings)
    (s : Palace) (add : Ingesting) :
    Moved s (markRunCommitted add) ((markRunCommitted add).next profile req env s).1
      ((markRunCommitted add).next profile req env s).2 := by
  simp only [next]
  by_cases hrun : ∃ run ∈ s.ingest.runs.rows, run.id = add.runId
  · obtain ⟨run, hrun, hid⟩ := hrun
    have hmark := Ingest.markRunCommitted_run hrun (ingestSourceKey add.row.id) add.row.sourceFile
      add.row.contentHash 1 env.now
    rw [hid] at hmark
    rw [hmark]
    dsimp only [orRefuse]
    exact .committed hrun hid ((Ingest.marked_mark ..).recordFile _)
  · push Not at hrun
    rw [markRunCommitted_gone hrun]
    exact .refuse rfl rfl

theorem createPendingRun_moved (profile : Profile) (req : Prepared) (env : Surroundings)
    (s : Palace) (row : DrawerRow) (similar : List Json) :
    Moved s (createPendingRun row similar)
      ((createPendingRun row similar).next profile req env s).1
      ((createPendingRun row similar).next profile req env s).2 := by
  simp only [next]
  have houtcome := Ingest.createPendingRun_outcome "federation_write" (ingestSourceKey row.id)
    [Ingesting.entry row] env.now s.ingest
  revert houtcome
  generalize (Ingest.createPendingRun "federation_write" (ingestSourceKey row.id)
    [Ingesting.entry row] env.now).run s.ingest = r
  obtain ⟨answer, db⟩ := r
  intro houtcome
  cases houtcome with
  | refused => exact .refuse rfl rfl
  | created h => exact .created h

/-- **Step lemma** of the add. -/
theorem next_moved (profile : Profile) (req : Prepared) (env : Surroundings) (s : Palace)
    (p : Phase) :
    Moved s p (p.next profile req env s).1 (p.next profile req env s).2 := by
  cases p with
  | beginReceipt => exact beginStep_moved req env s
  | getDrawer target => exact recoverStep_moved req env s target
  | findSimilar target =>
    simp only [next]
    split
    · exact .refuse rfl rfl
    · exact .quiet rfl rfl (.inl rfl) (.inr rfl) (.inl rfl)
  | restoreEvent target response =>
    simp only [next]
    split
    · exact .quiet rfl rfl (.inl rfl) (.inl rfl) (.inr (.inr rfl))
    · exact .orRefuse rfl rfl fun _ => .quiet rfl rfl (.inl rfl) (.inr rfl) (.inl rfl)
  | findDuplicates target => exact checkStep_moved profile req env s target
  | createPendingRun row similar => exact createPendingRun_moved profile req env s row similar
  | existingIds add => exact existingIdsStep_moved profile env s add
  | addRow add =>
    simp only [next]
    split
    · exact .hold rfl rfl rfl rfl
    · exact .wrote
  | ensureIndices add =>
    simp only [next, orFail]
    split
    · exact .hold rfl rfl rfl rfl
    · exact .hold rfl rfl rfl rfl
  | markRunCommitted add => exact markRunCommitted_moved profile req env s add
  | markRunFailed add fault =>
    simp only [next, Ingest.markRunFailed_run]
    exact .failed (Ingest.marked_mark ..)
  | appendEvent add =>
    simp only [next]
    split
    · exact .orRefuse rfl rfl fun _ => .quiet rfl rfl (.inl rfl) (.inr rfl) (.inl rfl)
    · exact .orRefuse rfl rfl fun _ => .quiet rfl rfl (.inl rfl) (.inl rfl) (.inr (.inr rfl))
  | completeReceipt target response =>
    simp only [next]
    split
    · exact .quiet rfl rfl (.inl rfl) (.inl rfl) (.inr (.inr rfl))
    · exact .orRefuse rfl rfl fun _ => .quiet rfl rfl (.inl rfl) (.inl rfl) (.inr (.inr rfl))
  | replayed response => exact .quiet rfl rfl (.inl rfl) (.inl rfl) (.inl rfl)
  | answered target response => exact .quiet rfl rfl (.inl rfl) (.inl rfl) (.inr (.inl rfl))
  | refused e => exact .refuse rfl rfl

end Phase

end AgentPalace.Server
