import AgentPalace.Ingest.Engine
import AgentPalace.Ingest.Rows
import Mathlib.Data.List.Dedup

/-!
# Replacing and removing a source, write by write

`Stage` says how far a call on one source has come, by the writes it has made.
`Replacing` and `Removing` list what the palace is at each stage, relative to
the palace the call found; they hold wherever the call can be stopped.
-/

namespace AgentPalace.Ingest

inductive Stage where
  /-- No drawer has changed. -/
  | begun
  /-- Old drawers are deleted. -/
  | deleting
  /-- The new drawers are stored; their run is pending. -/
  | written
  /-- The run is committed. -/
  | committed
  | cleaned
  deriving DecidableEq

def Stage.next (st : Stage) : Statement → Stage
  | .addDrawers _ => .written
  | .markRunCommitted .. => .committed
  | .deleteSourceKey _ => .cleaned
  | .deleteDrawers _ => if st = .committed then .cleaned else .deleting
  | _ => st

/-! ## The tables during a commit -/

def IngestCommitRequest.ids (request : IngestCommitRequest) : List DrawerId :=
  request.drawers.map (·.id)

/-- A run of the request was begun, and may have failed; what is committed is as it was. -/
structure Attempted (db₀ : IngestDb) (request : IngestCommitRequest) (db : IngestDb) : Prop where
  wf : Wf db
  manifest : ∀ key, SameManifest key db₀ db
  committed : ∀ id, Committed db id ↔ Committed db₀ id
  files : db.files = db₀.files
  owned : ∀ owner, Owned owner db₀ → (∀ id ∈ request.ids, owner id = request.sourceKey) →
    Owned owner db
  others : ∀ r : IngestRun, r.sourceKey ≠ request.sourceKey →
    (r ∈ db.runs.rows ↔ r ∈ db₀.runs.rows)
  lastRunId : db.lastRunId ≤ db₀.lastRunId + 1

/-- The last committed run of the key is of this kind and lists these drawers. -/
def Manifest (db : IngestDb) (key ingestKind sourceFile : String) (drawers : List DrawerRecord) :
    Prop :=
  ∃ r, Latest db key r ∧ r.ingestKind = ingestKind ∧ ∀ m : IngestManifestEntry, m.runId = r.id →
    (m ∈ db.manifests.rows ↔
      ∃ d ∈ drawers, m = { manifestEntry sourceFile d with runId := r.id, status := .committed })

theorem Manifest.live {db : IngestDb} {key ingestKind sourceFile : String}
    {drawers : List DrawerRecord} (h : Manifest db key ingestKind sourceFile drawers)
    {id : DrawerId} : Live db key id ↔ id ∈ drawers.map (·.id) := by
  obtain ⟨r, hlatest, _, hrows⟩ := h
  rw [List.mem_map]
  constructor
  · rintro ⟨r', hlatest', m, hm, hrun, rfl⟩
    obtain rfl := hlatest'.unique hlatest
    obtain ⟨d, hd, rfl⟩ := (hrows m hrun).1 hm
    exact ⟨d, hd, rfl⟩
  · rintro ⟨d, hd, rfl⟩
    exact ⟨r, hlatest, _, (hrows _ rfl).2 ⟨d, hd, rfl⟩, rfl, rfl⟩

/-- The run of the request is committed: it is what its key has. -/
structure Superseded (db₀ : IngestDb) (request : IngestCommitRequest) (db : IngestDb) : Prop where
  wf : Wf db
  manifest : Manifest db request.sourceKey request.ingestKind request.sourceFile request.drawers
  other : ∀ key ≠ request.sourceKey, SameManifest key db₀ db
  committed : ∀ id, Committed db id ↔ Committed db₀ id ∨ id ∈ request.ids
  file : ∃ finishedAt, db.files.get? request.sourceKey = some
    { sourceKey := request.sourceKey, sourceFile := request.sourceFile
      contentHash := request.contentHash, lastIngestedAt := finishedAt
      ingestKind := request.ingestKind, drawerCount := request.drawers.length }
  otherFiles : ∀ key ≠ request.sourceKey, db.files.get? key = db₀.files.get? key
  owned : ∀ owner, Owned owner db₀ → (∀ id ∈ request.ids, owner id = request.sourceKey) →
    Owned owner db
  others : ∀ r : IngestRun, r.sourceKey ≠ request.sourceKey →
    (r ∈ db.runs.rows ↔ r ∈ db₀.runs.rows)
  lastRunId : db.lastRunId ≤ db₀.lastRunId + 1

theorem Superseded.live {db₀ db : IngestDb} {request : IngestCommitRequest}
    (h : Superseded db₀ request db) {id : DrawerId} :
    Live db request.sourceKey id ↔ id ∈ request.ids := h.manifest.live

section
variable {db₀ db : IngestDb} {request : IngestCommitRequest}

theorem Attempted.refl (hdb : Wf db₀) : Attempted db₀ request db₀ where
  wf := hdb
  manifest key := .refl key db₀
  committed _ := Iff.rfl
  files := rfl
  owned _ howned _ := howned
  others _ _ := Iff.rfl
  lastRunId := by omega

/-- The run of the request is there, with its manifest. -/
abbrev IngestCommitRequest.Created (request : IngestCommitRequest) (db₀ : IngestDb)
    (now : OffsetDateTime) (db : IngestDb) : Prop :=
  Ingest.Created db₀ (newRun db₀ request.ingestKind request.sourceKey now)
    (request.drawers.map (manifestEntry request.sourceFile)) db

variable {now updatedAt : OffsetDateTime}

theorem Created.listed_ids (h : request.Created db₀ now db) {id : DrawerId}
    (hid : id ∈ request.ids) : Listed db id := by
  obtain ⟨d, hd, rfl⟩ := List.mem_map.1 hid
  exact h.listed (List.mem_map_of_mem hd)

variable (hdb : Wf db₀)
include hdb

theorem Created.attempted (h : request.Created db₀ now db) : Attempted db₀ request db where
  wf := h.wf hdb
  manifest _ := h.sameManifest hdb
  committed _ := h.committed hdb
  files := h.files
  owned owner howned hids := h.owned hdb howned fun e he => by
    obtain ⟨d, hd, rfl⟩ := List.mem_map.1 he
    exact hids d.id (List.mem_map_of_mem hd)
  others r hkey := by
    rw [h.runs]
    refine or_iff_left ?_
    rintro rfl
    exact hkey rfl
  lastRunId := by
    rw [h.lastRunId]
    simp only [newRun]
    omega

theorem Created.entry_ids (h : request.Created db₀ now db) {id : DrawerId} :
    Entry db (db₀.lastRunId + 1) id ↔ id ∈ request.ids := by
  rw [h.entry, IngestCommitRequest.ids, List.mem_map]
  constructor
  · rintro (hold | ⟨_, e, he, rfl⟩)
    · have := Created.entry_lt hdb hold
      omega
    · obtain ⟨d, hd, rfl⟩ := List.mem_map.1 he
      exact ⟨d, hd, rfl⟩
  · rintro ⟨d, hd, rfl⟩
    exact .inr ⟨rfl, _, List.mem_map_of_mem hd, rfl⟩

/-- No run of another key has the id of the new run. -/
theorem Created.others_ne (h : request.Created db₀ now db) {r : IngestRun}
    (hr : r ∈ db.runs.rows) (hkey : r.sourceKey ≠ request.sourceKey) :
    r.id ≠ db₀.lastRunId + 1 := by
  rcases (h.runs r).1 hr with hr | rfl
  · have := hdb.id_le r hr
    omega
  · exact absurd rfl hkey

theorem Marked.others {status : IngestRunStatus} {failedReason : Option String} {db' : IngestDb}
    (h : request.Created db₀ now db)
    (hmarked : Marked db (db₀.lastRunId + 1) status updatedAt failedReason db') (r : IngestRun)
    (hkey : r.sourceKey ≠ request.sourceKey) : r ∈ db'.runs.rows ↔ r ∈ db₀.runs.rows := by
  rw [← (h.attempted hdb).others r hkey, hmarked.runs]
  constructor
  · rintro ⟨r₀, hr₀, rfl⟩
    rw [marked_sourceKey] at hkey
    rwa [marked, if_neg (h.others_ne hdb hr₀ hkey)]
  · intro hr
    exact ⟨r, hr, by rw [marked, if_neg (h.others_ne hdb hr hkey)]⟩

theorem Created.failed (h : request.Created db₀ now db) (reason : String) :
    Attempted db₀ request (db.mark (db₀.lastRunId + 1) .failed updatedAt (some reason)) := by
  have hattempted := h.attempted hdb
  have hmarked := marked_mark db (db₀.lastRunId + 1) .failed updatedAt (some reason)
  have hpending : ∀ r ∈ db.runs.rows, r.id = db₀.lastRunId + 1 → r.status ≠ .committed := by
    intro r hr hid
    rcases (h.runs r).1 hr with hr | rfl
    · have := hdb.id_le r hr
      omega
    · exact nofun
  refine ⟨hmarked.wf hattempted.wf, fun key => (hattempted.manifest key).trans
    (hmarked.failed_sameManifest fun r hr hid => hpending r hr.mem hid hr.status),
    fun id => (hmarked.failed_committed hpending).trans (hattempted.committed id),
    hattempted.files, fun owner howned hids => hmarked.owned (hattempted.owned owner howned hids),
    hmarked.others hdb h, hattempted.lastRunId⟩

theorem Created.committed_rows (h : request.Created db₀ now db) {db' : IngestDb}
    (hmarked : Marked db (db₀.lastRunId + 1) .committed updatedAt none db')
    {m : IngestManifestEntry} (hm : m.runId = db₀.lastRunId + 1) :
    m ∈ db'.manifests.rows ↔ ∃ d ∈ request.drawers, m =
      { manifestEntry request.sourceFile d with runId := db₀.lastRunId + 1, status := .committed } := by
  rw [hmarked.manifests]
  constructor
  · rintro ⟨m₀, hm₀, rfl⟩
    have hrun : m₀.runId = db₀.lastRunId + 1 := by split at hm <;> exact hm
    rw [if_pos hrun]
    rcases (h.manifests m₀).1 hm₀ with hold | ⟨e, he, rfl⟩
    · have := Created.entry_lt hdb ⟨m₀, hold, rfl, rfl⟩
      omega
    · obtain ⟨d, hd, rfl⟩ := List.mem_map.1 he
      exact ⟨d, hd, rfl⟩
  · rintro ⟨d, hd, rfl⟩
    exact ⟨_, (h.manifests _).2 (.inr ⟨_, List.mem_map_of_mem hd, rfl⟩), (if_pos rfl).symm⟩

theorem Created.superseded (h : request.Created db₀ now db) (drawerCount : Nat)
    (hcount : drawerCount = request.drawers.length) :
    Superseded db₀ request ((db.mark (db₀.lastRunId + 1) .committed updatedAt none).recordFile
      { sourceKey := request.sourceKey, sourceFile := request.sourceFile
        contentHash := request.contentHash, lastIngestedAt := updatedAt
        ingestKind := request.ingestKind, drawerCount }) := by
  have hattempted := h.attempted hdb
  have hmarked := (marked_mark db (db₀.lastRunId + 1) .committed updatedAt none).recordFile
    { sourceKey := request.sourceKey, sourceFile := request.sourceFile
      contentHash := request.contentHash, lastIngestedAt := updatedAt
      ingestKind := request.ingestKind, drawerCount }
  have hrun : newRun db₀ request.ingestKind request.sourceKey now ∈ db.runs.rows :=
    (h.runs _).2 (.inr rfl)
  have hlast : ∀ r ∈ db.runs.rows, r.sourceKey = request.sourceKey → r.status = .committed →
      r.id ≤ db₀.lastRunId + 1 := fun r hr _ _ =>
    (hattempted.wf.id_le r hr).trans hattempted.lastRunId
  refine ⟨hmarked.wf hattempted.wf, ⟨_, hmarked.latest hrun rfl hlast, ?_, fun m hm => ?_⟩,
    fun key hkey => (hattempted.manifest key).trans (hmarked.other_sameManifest hrun rfl hkey),
    fun id => ?_, ⟨updatedAt, ?_⟩, fun key hkey => ?_,
    fun owner howned hids => hmarked.owned (hattempted.owned owner howned hids),
    hmarked.others hdb h, hattempted.lastRunId⟩
  · rw [marked_ingestKind]
    rfl
  · rw [marked_id] at hm ⊢
    exact h.committed_rows hdb hmarked hm
  · rw [hmarked.committed hrun rfl, hattempted.committed, h.entry_ids hdb]
  · rw [recordFile_get?, if_pos rfl, hcount]
  · rw [recordFile_get?, if_neg hkey, ← hattempted.files]
    rfl

end

/-! ## The palace during a replacement -/

/-- The drawers while those of the request take the place of the old ones. -/
def IngestCommitRequest.spared (request : IngestCommitRequest) (s₀ : Palace) : List DrawerRecord :=
  s₀.drawers.filter fun d => d.id ∉ request.ids

/-- What a replacement has made of the palace `s₀`. -/
inductive Replacing (s₀ : Palace) (request : IngestCommitRequest) : Stage → Palace → Prop where
  | begun {db : IngestDb} (h : Attempted s₀.db request db) :
      Replacing s₀ request .begun { s₀ with db }
  | deleting {db : IngestDb} (h : Attempted s₀.db request db)
      (hsome : ∃ id ∈ request.ids, id ∈ s₀.ids) :
      Replacing s₀ request .deleting { s₀ with db, drawers := request.spared s₀ }
  | written {db : IngestDb} (h : Attempted s₀.db request db)
      (hlisted : ∀ id ∈ request.ids, Listed db id) :
      Replacing s₀ request .written
        { s₀ with db, drawers := request.spared s₀ ++ request.drawers }
  | committed {db : IngestDb} (h : Superseded s₀.db request db) :
      Replacing s₀ request .committed
        { s₀ with db, drawers := request.spared s₀ ++ request.drawers }
  | cleaned {db : IngestDb} {stale : List DrawerId} (h : Superseded s₀.db request db)
      (hstale : ∀ id, id ∈ stale ↔ Live s₀.db request.sourceKey id ∧ id ∉ request.ids) :
      Replacing s₀ request .cleaned
        { s₀ with
          db, drawers := (request.spared s₀ ++ request.drawers).filter fun d => d.id ∉ stale }

/-- What a replacement needs in order to succeed. -/
structure Accepts (engine : StorageEngine) (request : IngestCommitRequest) (db : IngestDb)
    (now : OffsetDateTime) : Prop where
  distinct : request.ids.Nodup
  dimensions : ∀ d ∈ request.drawers, d.embedding.length = engine.dimensions
  room : db.lastRunId < maxRowid
  fresh : db.sameRun request.ingestKind request.sourceKey now = false

section
variable {ε α : Type} {C : Stage → Palace → Prop} {Q : Except ε α → Stage → Palace → Prop}
  {st : Stage} {s : Palace}

theorem existingIds_wpc {ids : List DrawerId} {f : List DrawerId → Program ε α} (hC : C st s)
    (h : ∀ existing, (∀ id, id ∈ existing ↔ id ∈ s.ids ∧ id ∈ ids) →
      (f existing).wpc Statement.exec Stage.next C Q st s) :
    (existingIds ids >>= f).wpc Statement.exec Stage.next C Q st s := by
  unfold existingIds
  split
  · rename_i hids
    exact h [] fun id => by simp [hids]
  · exact Prog.wpc_step rfl hC (h _ fun id => by
      simp only [List.mem_dedup, List.mem_filter, decide_eq_true_eq, Palace.ids])

theorem deleteDrawers_wpc {ids : List DrawerId} {f : Nat → Program ε α} (hids : ids ≠ [])
    (hC : C st s)
    (h : ∀ n, (f n).wpc Statement.exec Stage.next C Q (st.next (.deleteDrawers ids))
      (Statement.exec (.deleteDrawers ids) s)) :
    (deleteDrawers ids >>= f).wpc Statement.exec Stage.next C Q st s := by
  unfold deleteDrawers
  rw [if_neg hids, bind_assoc]
  refine Prog.wpc_step rfl hC ?_
  rw [bind_assoc]
  exact Prog.wpc_step rfl hC (h _)

end

section
variable {engine : StorageEngine} {request : IngestCommitRequest} {s₀ : Palace} {now : OffsetDateTime}
  {db : IngestDb}

theorem spared_of_disjoint (h : ∀ id ∈ s₀.ids, id ∉ request.ids) :
    request.spared s₀ = s₀.drawers :=
  List.filter_eq_self.2 fun d hd => by simpa using h d.id (List.mem_map_of_mem hd)

/-- The drawers of an open run replace those stored under their ids. -/
theorem putDrawers_wpc (hdb : Wf s₀.db) (hcreated : request.Created s₀.db now db) :
    (engine.putDrawers request.drawers .overwrite).wpc Statement.exec Stage.next
      (Replacing s₀ request)
      (fun r st s => Replacing s₀ request st s ∧ match r with
        | .ok () => s = { s₀ with db, drawers := request.spared s₀ ++ request.drawers }
        | .error _ => s = { s₀ with db } ∧ st = .begun ∧
          ∃ d ∈ request.drawers, d.embedding.length ≠ engine.dimensions)
      .begun { s₀ with db } := by
  have hattempted := hcreated.attempted hdb
  have hbegun : Replacing s₀ request .begun { s₀ with db } := .begun hattempted
  have hwritten : Replacing s₀ request .written
      { s₀ with db, drawers := request.spared s₀ ++ request.drawers } :=
    .written hattempted fun id hid => hcreated.listed_ids hid
  unfold StorageEngine.putDrawers
  split
  · rename_i hdrawers
    refine Prog.wpc_pure hbegun ⟨hbegun, ?_⟩
    rw [spared_of_disjoint fun id _ => by simp [IngestCommitRequest.ids, hdrawers], hdrawers,
      List.append_nil]
  · split
    · rename_i d hd
      refine Prog.wpc_throw hbegun ⟨hbegun, rfl, rfl, d, List.mem_of_find?_eq_some hd, ?_⟩
      simpa using List.find?_some hd
    · refine existingIds_wpc hbegun fun existing hexisting => ?_
      dsimp only
      split
      · rename_i hsome
        -- deleting the ids that are stored deletes all that are in the way
        have hspared : Statement.exec (.deleteDrawers existing) { s₀ with db } =
            { s₀ with db, drawers := request.spared s₀ } := by
          have hfilter : s₀.drawers.filter (fun d => d.id ∉ existing) = request.spared s₀ := by
            refine List.filter_congr fun d hd => ?_
            have : d.id ∈ existing ↔ d.id ∈ request.ids :=
              (hexisting d.id).trans (and_iff_right (List.mem_map_of_mem hd))
            simp only [this]
          simp only [Statement.exec, hfilter]
        refine deleteDrawers_wpc hsome hbegun fun n => ?_
        rw [hspared]
        obtain ⟨id, hid⟩ := List.exists_mem_of_ne_nil existing hsome
        have hid := (hexisting id).1 hid
        exact Prog.wpc_statement (.deleting hattempted ⟨id, hid.2, hid.1⟩) hwritten
          ⟨hwritten, rfl⟩
      · rename_i hnone
        have hspared : request.spared s₀ = s₀.drawers :=
          spared_of_disjoint fun id hid hid' => by
            have := (hexisting id).2 ⟨hid, hid'⟩
            simp [not_not.1 hnone] at this
        rw [hspared] at hwritten ⊢
        exact Prog.wpc_statement hbegun hwritten ⟨hwritten, rfl⟩

theorem commitIngest_wpc (hdb : Wf s₀.db) (hstrategy : request.duplicateStrategy = .overwrite)
    (finishedAt : OffsetDateTime) :
    (engine.commitIngest request now finishedAt).wpc Statement.exec Stage.next
      (Replacing s₀ request)
      (fun r st s => Replacing s₀ request st s ∧ match r with
        | .ok _ => st = .committed
        | .error _ => st = .begun ∧ ¬ Accepts engine request s₀.db now) .begun s₀ := by
  have hbegun : Replacing s₀ request .begun s₀ := .begun (.refl hdb)
  unfold StorageEngine.commitIngest
  have hout := createPendingRun_outcome request.ingestKind request.sourceKey
    (request.drawers.map (manifestEntry request.sourceFile)) now s₀.db
  have hok : Accepts engine request s₀.db now →
      ((createPendingRun request.ingestKind request.sourceKey
        (request.drawers.map (manifestEntry request.sourceFile)) now).run s₀.db).1 =
        .ok (newRun s₀.db request.ingestKind request.sourceKey now) := by
    intro haccepts
    refine createPendingRun_ok hdb haccepts.room haccepts.fresh ?_
    rw [List.map_map]
    exact haccepts.distinct
  generalize hrun : (createPendingRun request.ingestKind request.sourceKey
    (request.drawers.map (manifestEntry request.sourceFile)) now).run s₀.db = out at hout hok
  obtain ⟨r, db⟩ := out
  have hexec : Statement.exec (.createPendingRun request.ingestKind request.sourceKey
      (request.drawers.map (manifestEntry request.sourceFile)) now) s₀ = { s₀ with db } := by
    simp only [Statement.exec, hrun]
  cases hout with
  | refused =>
    refine Prog.wpc_bind (Prog.wpc_statement hbegun (hexec ▸ hbegun) ?_)
    have herror := congrArg Prod.fst hrun
    unfold manifestEntry at herror hexec
    dsimp only at herror hexec ⊢
    rw [hexec, herror]
    refine ⟨hbegun, rfl, fun haccepts => ?_⟩
    cases hok haccepts
  | created hcreated =>
    refine Prog.wpc_step (b := newRun s₀.db request.ingestKind request.sourceKey now)
      (congrArg Prod.fst hrun) hbegun ?_
    unfold manifestEntry at hexec
    rw [hexec, hstrategy]
    refine Prog.wpc_bind (Prog.wpc_attempt (Prog.wpc_mono (putDrawers_wpc hdb hcreated)
      (fun _ _ => id) fun r st s hput => ?_))
    obtain ⟨hC, hr⟩ := hput
    cases r with
    | ok _ =>
      obtain rfl := hr
      have hcommit := markRunCommitted_run ((hcreated.runs _).2 (.inr rfl)) request.sourceKey
        request.sourceFile request.contentHash request.drawers.length finishedAt
      have hcommitted : Replacing s₀ request .committed (Statement.exec (.markRunCommitted
          (newRun s₀.db request.ingestKind request.sourceKey now).id request.sourceKey
          request.sourceFile request.contentHash request.drawers.length finishedAt)
          { s₀ with db, drawers := request.spared s₀ ++ request.drawers }) := by
        simp only [Statement.exec, hcommit]
        exact .committed (hcreated.superseded hdb _ rfl)
      exact Prog.wpc_step (congrArg Prod.fst hcommit) hC
        (Prog.wpc_pure hcommitted ⟨hcommitted, rfl⟩)
    | error e =>
      obtain ⟨rfl, rfl, d, hd, hdimensions⟩ := hr
      have hfailed : Replacing s₀ request .begun (Statement.exec (.markRunFailed
          (newRun s₀.db request.ingestKind request.sourceKey now).id e.display finishedAt)
          { s₀ with db }) := .begun (hcreated.failed hdb e.display)
      exact Prog.wpc_step rfl hC (Prog.wpc_throw hfailed
        ⟨hfailed, rfl, fun haccepts => hdimensions (haccepts.dimensions d hd)⟩)

/-- The request `replace_source_drawers` commits. -/
def replacement (ingestKind sourceKey sourceFile contentHash : String)
    (drawers : List DrawerRecord) : IngestCommitRequest :=
  { ingestKind, sourceKey, sourceFile, contentHash, drawers, duplicateStrategy := .overwrite }

/-- **A replacement**, wherever it is stopped; it fails when its drawers are not accepted. -/
theorem replaceSourceDrawers_wpc (hdb : Wf s₀.db)
    (ingestKind sourceKey sourceFile contentHash : String) (drawers : List DrawerRecord)
    (finishedAt : OffsetDateTime) :
    (engine.replaceSourceDrawers ingestKind sourceKey sourceFile contentHash drawers now
      finishedAt).wpc Statement.exec Stage.next
      (Replacing s₀ (replacement ingestKind sourceKey sourceFile contentHash drawers))
      (fun r _ s => match r with
        | .ok _ =>
          Replacing s₀ (replacement ingestKind sourceKey sourceFile contentHash drawers) .cleaned s
        | .error _ =>
          Replacing s₀ (replacement ingestKind sourceKey sourceFile contentHash drawers) .begun s ∧
            ¬ Accepts engine (replacement ingestKind sourceKey sourceFile contentHash drawers)
              s₀.db now) .begun s₀ := by
  unfold StorageEngine.replaceSourceDrawers
  refine Prog.wpc_step rfl (.begun (.refl hdb)) (Prog.wpc_bind ?_)
  refine Prog.wpc_mono (@commitIngest_wpc engine (replacement ingestKind sourceKey sourceFile
    contentHash drawers) s₀ now hdb rfl finishedAt) (fun _ _ => id) fun r st s ⟨hC, hr⟩ => ?_
  cases r with
  | error e =>
    obtain ⟨rfl, hrejected⟩ := hr
    exact ⟨hC, hrejected⟩
  | ok runId =>
    obtain rfl := hr
    cases hC with
    | committed hsuperseded =>
      have hstale : ∀ id, id ∈ (s₀.db.committedDrawerIdsForSourceKey sourceKey).filter
          (fun id => id ∉ drawers.map (·.id)) ↔
            Live s₀.db sourceKey id ∧ id ∉ drawers.map (·.id) := by
        intro id
        rw [List.mem_filter, mem_committedDrawerIdsForSourceKey hdb]
        simp only [decide_eq_true_eq]
      have hcleaned := Replacing.cleaned hsuperseded hstale
      dsimp only
      split
      · rename_i hsome
        exact deleteDrawers_wpc hsome (.committed hsuperseded) fun n =>
          Prog.wpc_pure hcleaned hcleaned
      · rename_i hnone
        refine Prog.wpc_pure (.committed hsuperseded) ?_
        rw [not_not.1 hnone] at hcleaned
        simpa using hcleaned

/-- What a removal has made of the palace `s₀`. -/
inductive Removing (s₀ : Palace) (sourceKey : String) : Stage → Palace → Prop where
  | begun : Removing s₀ sourceKey .begun s₀
  | deleting {ids : List DrawerId} (hids : ∀ id, id ∈ ids ↔ Live s₀.db sourceKey id)
      (hsome : ids ≠ []) :
      Removing s₀ sourceKey .deleting
        { s₀ with drawers := s₀.drawers.filter fun d => d.id ∉ ids }
  | cleaned {ids : List DrawerId} (hids : ∀ id, id ∈ ids ↔ Live s₀.db sourceKey id) :
      Removing s₀ sourceKey .cleaned
        { s₀ with
          db := s₀.db.forget sourceKey, drawers := s₀.drawers.filter fun d => d.id ∉ ids }

/-- **A removal**, wherever it is stopped. -/
theorem removeSourceKey_wpc (hdb : Wf s₀.db) (sourceKey : String) :
    (removeSourceKey sourceKey).wpc Statement.exec Stage.next (Removing s₀ sourceKey)
      (fun r _ s => r = .ok () ∧ Removing s₀ sourceKey .cleaned s) .begun s₀ := by
  have hids : ∀ id, id ∈ s₀.db.committedDrawerIdsForSourceKey sourceKey ↔
      Live s₀.db sourceKey id := fun id => mem_committedDrawerIdsForSourceKey hdb
  have hcleaned := Removing.cleaned hids
  unfold removeSourceKey
  refine Prog.wpc_step rfl .begun ?_
  dsimp only
  split
  · rename_i hsome
    refine deleteDrawers_wpc hsome .begun fun n => ?_
    exact Prog.wpc_statement (.deleting hids hsome) hcleaned ⟨rfl, hcleaned⟩
  · rename_i hnone
    rw [not_not.1 hnone] at hcleaned
    simp only [List.not_mem_nil, not_false_eq_true, decide_true, List.filter_true] at hcleaned
    exact Prog.wpc_statement .begun hcleaned ⟨rfl, hcleaned⟩

end

end AgentPalace.Ingest
