import AgentPalace.Ingest.Tables

/-!
# What the transactions do to the rows

The manifests of a database are read through three observations: the ids of a
run (`Entry`), the ids of committed runs (`Committed`) and the ids of a key's
last committed run (`Live`). For each transaction, how it changes them.
-/

namespace AgentPalace.Ingest

open Tx

/-! ## Observations -/

/-- Runs have ids up to the last one, and an entry has the status of its run. -/
structure Wf (db : IngestDb) : Prop where
  id_le : ∀ r ∈ db.runs.rows, r.id ≤ db.lastRunId
  entry : ∀ m ∈ db.manifests.rows, ∃ r ∈ db.runs.rows, r.id = m.runId ∧ r.status = m.status

def Entry (db : IngestDb) (runId : Int) (id : DrawerId) : Prop :=
  ∃ m ∈ db.manifests.rows, m.runId = runId ∧ m.drawerId = id

/-- The drawer is in the manifest of a committed run. -/
def Committed (db : IngestDb) (id : DrawerId) : Prop :=
  ∃ r ∈ db.runs.rows, r.status = .committed ∧ Entry db r.id id

structure Latest (db : IngestDb) (key : String) (r : IngestRun) : Prop where
  mem : r ∈ db.runs.rows
  sourceKey : r.sourceKey = key
  status : r.status = .committed
  last : ∀ r' ∈ db.runs.rows, r'.sourceKey = key → r'.status = .committed → r'.id ≤ r.id

/-- The drawer is in the manifest of the key's last committed run. -/
def Live (db : IngestDb) (key : String) (id : DrawerId) : Prop :=
  ∃ r, Latest db key r ∧ Entry db r.id id

@[simp] theorem mem_sortedIds {ids : List DrawerId} {id : DrawerId} :
    id ∈ sortedIds ids ↔ id ∈ ids := List.mem_insertionSort _

theorem mem_manifestIds {db : IngestDb} {runId : Int} {id : DrawerId} :
    id ∈ db.manifestIds runId ↔ Entry db runId id := by
  simp [IngestDb.manifestIds, Entry, and_assoc]

theorem run_unique {db : IngestDb} {r r' : IngestRun} (hr : r ∈ db.runs.rows)
    (hr' : r' ∈ db.runs.rows) (h : r.id = r'.id) : r = r' := Table.eq_of_key_eq hr hr' h

theorem Latest.unique {db : IngestDb} {key : String} {r r' : IngestRun}
    (h : Latest db key r) (h' : Latest db key r') : r = r' := by
  refine run_unique h.mem h'.mem ?_
  have hle := h.last r' h'.mem h'.sourceKey h'.status
  have hle' := h'.last r h.mem h.sourceKey h.status
  omega

theorem latestCommittedRun_eq {db : IngestDb} {key : String} {runId : Int} :
    db.latestCommittedRun key = some runId ↔ ∃ r, Latest db key r ∧ r.id = runId := by
  unfold IngestDb.latestCommittedRun
  rw [List.max?_eq_some_iff]
  simp only [List.mem_map, List.mem_filter, Bool.and_eq_true, decide_eq_true_eq]
  constructor
  · rintro ⟨⟨r, ⟨hr, hkey, hstatus⟩, rfl⟩, hlast⟩
    exact ⟨r, ⟨hr, hkey, hstatus, fun r' hr' hkey' hstatus' =>
      hlast _ ⟨r', ⟨hr', hkey', hstatus'⟩, rfl⟩⟩, rfl⟩
  · rintro ⟨r, h, rfl⟩
    refine ⟨⟨r, ⟨h.mem, h.sourceKey, h.status⟩, rfl⟩, ?_⟩
    rintro _ ⟨r', ⟨hr', hkey', hstatus'⟩, rfl⟩
    exact h.last r' hr' hkey' hstatus'

section
variable {db : IngestDb} (hdb : Wf db)
include hdb

theorem mem_committedDrawerIds {id : DrawerId} : id ∈ db.committedDrawerIds ↔ Committed db id := by
  simp only [IngestDb.committedDrawerIds, mem_sortedIds, List.mem_map, List.mem_filter,
    decide_eq_true_eq]
  constructor
  · rintro ⟨m, ⟨hm, hstatus⟩, rfl⟩
    obtain ⟨r, hr, hid, hsame⟩ := hdb.entry m hm
    exact ⟨r, hr, hsame.trans hstatus, m, hm, hid.symm, rfl⟩
  · rintro ⟨r, hr, hstatus, m, hm, hid, rfl⟩
    obtain ⟨r', hr', hid', hsame⟩ := hdb.entry m hm
    obtain rfl := run_unique hr' hr (hid'.trans hid)
    exact ⟨m, ⟨hm, hsame.symm.trans hstatus⟩, rfl⟩

theorem mem_committedDrawerIdsForSourceKey {key : String} {id : DrawerId} :
    id ∈ db.committedDrawerIdsForSourceKey key ↔ Live db key id := by
  simp only [IngestDb.committedDrawerIdsForSourceKey, mem_sortedIds, List.mem_map, List.mem_filter,
    Bool.and_eq_true, decide_eq_true_eq, latestCommittedRun_eq]
  constructor
  · rintro ⟨m, ⟨hm, _, r, hlatest, hid⟩, rfl⟩
    exact ⟨r, hlatest, m, hm, hid.symm, rfl⟩
  · rintro ⟨r, hlatest, m, hm, hid, rfl⟩
    obtain ⟨r', hr', hid', hsame⟩ := hdb.entry m hm
    obtain rfl := run_unique hr' hlatest.mem (hid'.trans hid)
    exact ⟨m, ⟨hm, hsame.symm.trans hlatest.status, r', hlatest, hid.symm⟩, rfl⟩

end

theorem Live.committed {db : IngestDb} {key : String} {id : DrawerId} (h : Live db key id) :
    Committed db id := by
  obtain ⟨r, hlatest, hentry⟩ := h
  exact ⟨r, hlatest.mem, hlatest.status, hentry⟩

def Listed (db : IngestDb) (id : DrawerId) : Prop :=
  ∃ r ∈ db.runs.rows, r.status = .pending ∧ Entry db r.id id

/-- The drawers of a run have the run's key as their owner. -/
def Owned (owner : DrawerId → String) (db : IngestDb) : Prop :=
  ∀ r ∈ db.runs.rows, ∀ id ∈ db.manifestIds r.id, owner id = r.sourceKey

theorem Owned.live {owner : DrawerId → String} {db : IngestDb} {key : String} {id : DrawerId}
    (h : Owned owner db) (hlive : Live db key id) : owner id = key := by
  obtain ⟨r, hlatest, hentry⟩ := hlive
  exact (h r hlatest.mem id (mem_manifestIds.2 hentry)).trans hlatest.sourceKey

/-- The last run of a key depends on the key's committed runs. -/
theorem latest_congr {db db' : IngestDb} {key : String}
    (h : ∀ r : IngestRun, r.sourceKey = key → r.status = .committed →
      (r ∈ db'.runs.rows ↔ r ∈ db.runs.rows)) {r : IngestRun} :
    Latest db' key r ↔ Latest db key r := by
  constructor
  · rintro ⟨hr, hkey, hstatus, hlast⟩
    exact ⟨(h r hkey hstatus).1 hr, hkey, hstatus, fun r' hr' hkey' hstatus' =>
      hlast r' ((h r' hkey' hstatus').2 hr') hkey' hstatus'⟩
  · rintro ⟨hr, hkey, hstatus, hlast⟩
    exact ⟨(h r hkey hstatus).2 hr, hkey, hstatus, fun r' hr' hkey' hstatus' =>
      hlast r' ((h r' hkey' hstatus').1 hr') hkey' hstatus'⟩

/-- The last committed run of the key, and its manifest, are the same. -/
structure SameManifest (key : String) (db db' : IngestDb) : Prop where
  latest : ∀ r, Latest db' key r ↔ Latest db key r
  rows : ∀ r, Latest db key r → ∀ m : IngestManifestEntry, m.runId = r.id →
    (m ∈ db'.manifests.rows ↔ m ∈ db.manifests.rows)

namespace SameManifest

variable {key : String} {db db' db'' : IngestDb} {id : DrawerId}

theorem refl (key : String) (db : IngestDb) : SameManifest key db db :=
  ⟨fun _ => Iff.rfl, fun _ _ _ _ => Iff.rfl⟩

theorem trans (h : SameManifest key db db') (h' : SameManifest key db' db'') :
    SameManifest key db db'' where
  latest r := (h'.latest r).trans (h.latest r)
  rows r hr m hm := (h'.rows r ((h.latest r).2 hr) m hm).trans (h.rows r hr m hm)

theorem live (h : SameManifest key db db') : Live db' key id ↔ Live db key id := by
  unfold Live
  simp only [h.latest]
  refine exists_congr fun r => and_congr_right fun hr => exists_congr fun m => ?_
  constructor
  · rintro ⟨hm, hrun, hid⟩
    exact ⟨(h.rows r hr m hrun).1 hm, hrun, hid⟩
  · rintro ⟨hm, hrun, hid⟩
    exact ⟨(h.rows r hr m hrun).2 hm, hrun, hid⟩

/-- The tables have the same committed runs of the key and the same manifests. -/
theorem of_rows (hruns : ∀ r : IngestRun, r.sourceKey = key → r.status = .committed →
      (r ∈ db'.runs.rows ↔ r ∈ db.runs.rows))
    (hrows : ∀ m, m ∈ db'.manifests.rows ↔ m ∈ db.manifests.rows) : SameManifest key db db' :=
  ⟨fun _ => latest_congr hruns, fun _ _ m _ => hrows m⟩

theorem of_deleteDiarySummary (db : IngestDb) (entryId : DrawerId) :
    SameManifest key db ((deleteDiarySummary entryId).run db).2 :=
  of_rows (fun _ _ _ => Iff.rfl) fun _ => Iff.rfl

end SameManifest

/-! ## A new run -/

def newRun (db : IngestDb) (ingestKind sourceKey : String) (createdAt : OffsetDateTime) : IngestRun :=
  { id := db.lastRunId + 1, ingestKind, sourceKey, status := .pending, createdAt
    updatedAt := createdAt, failedReason := none }

structure Created (db : IngestDb) (new : IngestRun) (entries : List IngestManifestEntry)
    (db' : IngestDb) : Prop where
  lastRunId : db'.lastRunId = new.id
  runs : ∀ r, r ∈ db'.runs.rows ↔ r ∈ db.runs.rows ∨ r = new
  manifests : ∀ m, m ∈ db'.manifests.rows ↔ m ∈ db.manifests.rows ∨
    ∃ e ∈ entries, m = { e with runId := new.id, status := .pending }
  files : db'.files = db.files
  distinct : (entries.map (·.drawerId)).Nodup

def pendingEntry (runId : Int) (e : IngestManifestEntry) : IngestManifestEntry :=
  { e with runId, status := .pending }

def manifestEntry (sourceFile : String) (d : DrawerRecord) : IngestManifestEntry :=
  { runId := 0, drawerId := d.id, sourceFile, contentHash := d.contentHash, status := .pending }

theorem wp_insertEntries {db : IngestDb} {runId : Int} {β : Type}
    {Q : Except StorageError β → Session IngestDb → Prop} {f : Unit → ITx β}
    (hQ : Rejects (fun _ => True) Q db) (entries : List IngestManifestEntry) (w : IngestDb)
    (h : ∀ manifests : Table IngestManifestEntry.key,
      manifests.rows = w.manifests.rows ++ entries.map (pendingEntry runId) →
      wp (f ()) Q ⟨db, { w with manifests }⟩) :
    wp ((entries.forM fun entry =>
      Tx.exec fun db => sql (db.insertEntry { entry with runId, status := .pending })) >>= f)
      Q ⟨db, w⟩ := by
  induction entries generalizing w with
  | nil => exact h w.manifests (List.append_nil _).symm
  | cons e entries ih =>
    refine wp_assoc (wp_exec hQ (fun w' hw' => ?_) fun _ _ => trivial)
    obtain ⟨manifests, hinsert, rfl⟩ : ∃ manifests, w.manifests.insert? (pendingEntry runId e) =
        .ok manifests ∧ w' = { w with manifests } := by
      rw [sql_ok, IngestDb.insertEntry] at hw'
      cases hinsert : w.manifests.insert? { e with runId, status := .pending } with
      | error fault => rw [hinsert] at hw'; cases hw'
      | ok manifests => rw [hinsert] at hw'; cases hw'; exact ⟨manifests, hinsert, rfl⟩
    have hrows := (Table.rows_insert? hinsert).1
    refine ih _ fun manifests' hrows' => h manifests' ?_
    rw [hrows', hrows, List.map_cons, List.append_assoc, List.singleton_append]

theorem insertRun_ok {db db' : IngestDb} {ingestKind sourceKey : String}
    {createdAt : OffsetDateTime} (h : db.insertRun ingestKind sourceKey createdAt = .ok db') :
    db'.lastRunId = db.lastRunId + 1 ∧ db'.manifests = db.manifests ∧ db'.files = db.files ∧
      db'.runs.rows = db.runs.rows ++ [newRun db ingestKind sourceKey createdAt] := by
  unfold IngestDb.insertRun at h
  split at h
  · cases h
  · split at h
    · cases h
    · cases hinsert : db.runs.insert? (newRun db ingestKind sourceKey createdAt) with
      | error fault => rw [newRun] at hinsert; rw [hinsert] at h; cases h
      | ok runs =>
        have hrows := (Table.rows_insert? hinsert).1
        rw [newRun] at hinsert
        rw [hinsert] at h
        cases h
        exact ⟨rfl, rfl, rfl, hrows⟩

/-- What `create_pending_run` can do. -/
inductive CreateOutcome (db : IngestDb) (ingestKind sourceKey : String)
    (entries : List IngestManifestEntry) (createdAt : OffsetDateTime) :
    Except StorageError IngestRun → IngestDb → Prop where
  | refused {e : StorageError} :
      CreateOutcome db ingestKind sourceKey entries createdAt (.error e) db
  | created {db' : IngestDb}
      (h : Created db (newRun db ingestKind sourceKey createdAt) entries db') :
      CreateOutcome db ingestKind sourceKey entries createdAt
        (.ok (newRun db ingestKind sourceKey createdAt)) db'

theorem createPendingRun_outcome (ingestKind sourceKey : String)
    (entries : List IngestManifestEntry) (createdAt : OffsetDateTime) (db : IngestDb) :
    CreateOutcome db ingestKind sourceKey entries createdAt
      ((createPendingRun ingestKind sourceKey entries createdAt).run db).1
      ((createPendingRun ingestKind sourceKey entries createdAt).run db).2 := by
  refine run_of_wp (P := CreateOutcome db ingestKind sourceKey entries createdAt) ?_
  unfold createPendingRun
  have hQ : Rejects (fun _ => True) (fun r s =>
      CreateOutcome db ingestKind sourceKey entries createdAt r s.committed) db := by
    intro e s _ hs
    rw [show s.committed = db from hs]
    exact .refused
  refine wp_exec hQ (fun w hw => ?_) fun _ _ => trivial
  obtain ⟨hlast, hmanifests, hfiles, hruns⟩ := insertRun_ok (sql_ok.1 hw)
  refine wp_query (wp_insertEntries hQ entries w fun manifests hrows => wp_commit (wp_pure ?_))
  rw [hlast] at hrows ⊢
  refine .created ⟨rfl, fun r => ?_, fun m => ?_, hfiles, ?_⟩
  · show r ∈ w.runs.rows ↔ _
    rw [hruns, List.mem_append, List.mem_singleton]
  · show m ∈ manifests.rows ↔ _
    rw [hrows, hmanifests, List.mem_append, List.mem_map]
    exact or_congr_right (exists_congr fun e => and_congr_right fun _ => eq_comm)
  · have hnodup := manifests.nodup
    rw [hrows, List.map_append, List.map_map] at hnodup
    have hkeys := (List.nodup_append.1 hnodup).2.1
    rw [show IngestManifestEntry.key ∘ pendingEntry (db.lastRunId + 1) =
      Prod.mk (db.lastRunId + 1) ∘ IngestManifestEntry.drawerId from rfl, ← List.map_map] at hkeys
    exact List.Nodup.of_map _ hkeys

theorem wp_insertEntries_ok {db : IngestDb} {runId : Int} {β : Type}
    {Q : Except StorageError β → Session IngestDb → Prop} {f : Unit → ITx β}
    (entries : List IngestManifestEntry) (w : IngestDb)
    (hfresh : ∀ e ∈ entries, ∀ m ∈ w.manifests.rows, m.key ≠ (runId, e.drawerId))
    (hnodup : (entries.map (·.drawerId)).Nodup) (h : ∀ w', wp (f ()) Q ⟨db, w'⟩) :
    wp ((entries.forM fun entry =>
      Tx.exec fun db => sql (db.insertEntry { entry with runId, status := .pending })) >>= f)
      Q ⟨db, w⟩ := by
  induction entries generalizing w with
  | nil => exact h w
  | cons e entries ih =>
    obtain ⟨manifests, hinsert, hrows⟩ := Table.insert?_of_fresh
      (t := w.manifests) (r := pendingEntry runId e) (hfresh e List.mem_cons_self)
    have hok : sql (w.insertEntry { e with runId, status := .pending }) =
        .ok { w with manifests } := by
      rw [sql_ok, IngestDb.insertEntry]
      unfold pendingEntry at hinsert
      rw [hinsert]
      rfl
    refine wp_assoc (wp_exec (E := fun _ => False) nofun (fun w' hw' => ?_) fun x hx => ?_)
    · rw [hok] at hw'
      cases hw'
      have hnodup := List.nodup_cons.1 hnodup
      refine ih _ (fun e' he' m hm => ?_) hnodup.2
      rw [hrows, List.mem_append, List.mem_singleton] at hm
      rcases hm with hm | rfl
      · exact hfresh e' (List.mem_cons_of_mem _ he') m hm
      · intro hkey
        have hid : e.drawerId = e'.drawerId := congrArg Prod.snd hkey
        exact hnodup.1 (List.mem_map.2 ⟨e', he', hid.symm⟩)
    · rw [hok] at hx
      cases hx

/-- A run is created when its drawers are distinct and its key has no run of the same time. -/
theorem createPendingRun_ok {db : IngestDb} (hdb : Wf db) {ingestKind sourceKey : String}
    {entries : List IngestManifestEntry} {createdAt : OffsetDateTime}
    (hfull : db.lastRunId < maxRowid) (hfresh : db.sameRun ingestKind sourceKey createdAt = false)
    (hnodup : (entries.map (·.drawerId)).Nodup) :
    ((createPendingRun ingestKind sourceKey entries createdAt).run db).1 =
      .ok (newRun db ingestKind sourceKey createdAt) := by
  refine run_of_wp (P := fun r _ => r = .ok (newRun db ingestKind sourceKey createdAt)) ?_
  obtain ⟨runs, hinsert, _⟩ := Table.insert?_of_fresh (t := db.runs)
    (r := newRun db ingestKind sourceKey createdAt) fun r hr hid => by
      have hid : r.id = db.lastRunId + 1 := hid
      have := hdb.id_le r hr
      omega
  have hok : sql (db.insertRun ingestKind sourceKey createdAt) =
      .ok { db with lastRunId := db.lastRunId + 1, runs } := by
    unfold newRun at hinsert
    rw [sql_ok, IngestDb.insertRun, if_neg (by omega), hfresh, if_neg Bool.false_ne_true, hinsert]
    rfl
  unfold createPendingRun
  refine wp_exec (E := fun _ => False) nofun (fun w hw => ?_) fun x hx => ?_
  · rw [hok] at hw
    cases hw
    refine wp_query (wp_insertEntries_ok entries _ (fun e _ m hm hkey => ?_) hnodup fun w' =>
      wp_commit (wp_pure rfl))
    have hrun : m.runId = db.lastRunId + 1 := congrArg Prod.fst hkey
    obtain ⟨r, hr, hid, _⟩ := hdb.entry m hm
    have := hdb.id_le r hr
    omega
  · rw [hok] at hx
    cases hx

namespace Created

variable {db db' : IngestDb} {ingestKind sourceKey : String} {createdAt : OffsetDateTime}
  {entries : List IngestManifestEntry} {runId : Int} {key : String} {id : DrawerId}

theorem entry_lt {db : IngestDb} (hdb : Wf db) (h : Entry db runId id) : runId ≤ db.lastRunId := by
  obtain ⟨m, hm, rfl, _⟩ := h
  obtain ⟨r, hr, hid, _⟩ := hdb.entry m hm
  rw [← hid]
  exact hdb.id_le r hr

variable (h : Created db (newRun db ingestKind sourceKey createdAt) entries db')
include h

theorem wf (hdb : Wf db) : Wf db' where
  id_le r hr := by
    rw [h.lastRunId]
    rcases (h.runs r).1 hr with hr | rfl
    · have := hdb.id_le r hr
      simp only [newRun]
      omega
    · exact Int.le_refl _
  entry m hm := by
    rcases (h.manifests m).1 hm with hm | ⟨e, he, rfl⟩
    · obtain ⟨r, hr, hr'⟩ := hdb.entry m hm
      exact ⟨r, (h.runs r).2 (.inl hr), hr'⟩
    · exact ⟨_, (h.runs _).2 (.inr rfl), rfl, rfl⟩

theorem entry : Entry db' runId id ↔
    Entry db runId id ∨ runId = db.lastRunId + 1 ∧ ∃ e ∈ entries, e.drawerId = id := by
  constructor
  · rintro ⟨m, hm, rfl, rfl⟩
    rcases (h.manifests m).1 hm with hm | ⟨e, he, rfl⟩
    · exact .inl ⟨m, hm, rfl, rfl⟩
    · exact .inr ⟨rfl, e, he, rfl⟩
  · rintro (⟨m, hm, hrun, hid⟩ | ⟨rfl, e, he, rfl⟩)
    · exact ⟨m, (h.manifests m).2 (.inl hm), hrun, hid⟩
    · exact ⟨_, (h.manifests _).2 (.inr ⟨e, he, rfl⟩), rfl, rfl⟩

theorem committed_run {r : IngestRun} (hstatus : r.status = .committed) :
    r ∈ db'.runs.rows ↔ r ∈ db.runs.rows := by
  rw [h.runs]
  refine or_iff_left ?_
  rintro rfl
  cases hstatus

theorem latest {r : IngestRun} : Latest db' key r ↔ Latest db key r :=
  latest_congr fun _ _ hstatus => h.committed_run hstatus

theorem entry_old (hdb : Wf db) {r : IngestRun} (hr : r ∈ db.runs.rows) :
    Entry db' r.id id ↔ Entry db r.id id := by
  rw [h.entry]
  refine or_iff_left ?_
  rintro ⟨hid, _⟩
  have := hdb.id_le r hr
  omega

theorem owned (hdb : Wf db) {owner : DrawerId → String} (howned : Owned owner db)
    (hentries : ∀ e ∈ entries, owner e.drawerId = sourceKey) : Owned owner db' := by
  intro r hr id hid
  rcases (h.runs r).1 hr with hr | rfl
  · rw [mem_manifestIds, h.entry_old hdb hr, ← mem_manifestIds] at hid
    exact howned r hr id hid
  · rcases h.entry.1 (mem_manifestIds.1 hid) with hentry | ⟨_, e, he, rfl⟩
    · have := entry_lt hdb hentry
      simp only [newRun] at this
      omega
    · exact hentries e he

theorem listed {e : IngestManifestEntry} (he : e ∈ entries) : Listed db' e.drawerId :=
  ⟨_, (h.runs _).2 (.inr rfl), rfl, h.entry.2 (.inr ⟨rfl, e, he, rfl⟩)⟩

theorem sameManifest (hdb : Wf db) : SameManifest key db db' where
  latest _ := h.latest
  rows r hr m hm := by
    rw [h.manifests]
    refine or_iff_left ?_
    rintro ⟨e, _, rfl⟩
    have := hdb.id_le r hr.mem
    simp only [newRun] at hm
    omega

theorem committed (hdb : Wf db) : Committed db' id ↔ Committed db id := by
  constructor
  · rintro ⟨r, hr, hstatus, hentry⟩
    have hr := (h.committed_run hstatus).1 hr
    exact ⟨r, hr, hstatus, (h.entry_old hdb hr).1 hentry⟩
  · rintro ⟨r, hr, hstatus, hentry⟩
    exact ⟨r, (h.committed_run hstatus).2 hr, hstatus, (h.entry_old hdb hr).2 hentry⟩

end Created

/-! ## A run that ends -/

def marked (runId : Int) (status : IngestRunStatus) (updatedAt : OffsetDateTime)
    (failedReason : Option String) (r : IngestRun) : IngestRun :=
  if r.id = runId then { r with status, updatedAt, failedReason } else r

section
variable {runId : Int} {status : IngestRunStatus} {updatedAt : OffsetDateTime}
  {failedReason : Option String} {r : IngestRun}

@[simp] theorem marked_id : (marked runId status updatedAt failedReason r).id = r.id := by
  unfold marked
  split <;> rfl

@[simp] theorem marked_sourceKey :
    (marked runId status updatedAt failedReason r).sourceKey = r.sourceKey := by
  unfold marked
  split <;> rfl

@[simp] theorem marked_ingestKind :
    (marked runId status updatedAt failedReason r).ingestKind = r.ingestKind := by
  unfold marked
  split <;> rfl

@[simp] theorem marked_createdAt :
    (marked runId status updatedAt failedReason r).createdAt = r.createdAt := by
  unfold marked
  split <;> rfl

theorem marked_status : (marked runId status updatedAt failedReason r).status =
    if r.id = runId then status else r.status := by
  unfold marked
  split <;> rfl

end

/-- The database lists the runs and manifests of `db`, with one run marked. -/
structure Marked (db : IngestDb) (runId : Int) (outcome : IngestRunStatus) (updatedAt : OffsetDateTime)
    (failedReason : Option String) (db' : IngestDb) : Prop where
  lastRunId : db'.lastRunId = db.lastRunId
  runs : ∀ r, r ∈ db'.runs.rows ↔ ∃ r₀ ∈ db.runs.rows, r = marked runId outcome updatedAt failedReason r₀
  manifests : ∀ m, m ∈ db'.manifests.rows ↔
    ∃ m₀ ∈ db.manifests.rows, m = if m₀.runId = runId then { m₀ with status := outcome } else m₀

theorem marked_mark (db : IngestDb) (runId : Int) (outcome : IngestRunStatus)
    (updatedAt : OffsetDateTime) (failedReason : Option String) :
    Marked db runId outcome updatedAt failedReason (db.mark runId outcome updatedAt failedReason) where
  lastRunId := rfl
  runs r := by
    show r ∈ db.runs.rows.map _ ↔ _
    rw [List.mem_map]
    exact exists_congr fun r₀ => and_congr_right fun _ => eq_comm
  manifests m := by
    show m ∈ db.manifests.rows.map _ ↔ _
    rw [List.mem_map]
    refine exists_congr fun m₀ => and_congr_right fun _ => ?_
    rw [eq_comm]
    simp only [decide_eq_true_eq]

theorem sameRun_mark (db : IngestDb) (runId : Int) (outcome : IngestRunStatus)
    (updatedAt : OffsetDateTime) (failedReason : Option String) (ingestKind sourceKey : String)
    (now : OffsetDateTime) :
    (db.mark runId outcome updatedAt failedReason).sameRun ingestKind sourceKey now =
      db.sameRun ingestKind sourceKey now := by
  have hrows : (db.mark runId outcome updatedAt failedReason).runs.rows =
      db.runs.rows.map (marked runId outcome updatedAt failedReason) := rfl
  unfold IngestDb.sameRun
  rw [hrows, List.any_map]
  simp only [Function.comp_def, marked_ingestKind, marked_sourceKey, marked_createdAt]

namespace Marked

variable {db db' : IngestDb} {runId : Int} {outcome : IngestRunStatus} {updatedAt : OffsetDateTime}
  {failedReason : Option String} {key : String} {id : DrawerId}
  (h : Marked db runId outcome updatedAt failedReason db')
include h

theorem wf (hdb : Wf db) : Wf db' where
  id_le r hr := by
    obtain ⟨r₀, hr₀, rfl⟩ := (h.runs r).1 hr
    rw [marked_id, h.lastRunId]
    exact hdb.id_le r₀ hr₀
  entry m hm := by
    obtain ⟨m₀, hm₀, rfl⟩ := (h.manifests m).1 hm
    obtain ⟨r, hr, hid, hstatus⟩ := hdb.entry m₀ hm₀
    refine ⟨_, (h.runs _).2 ⟨r, hr, rfl⟩, ?_⟩
    rw [marked_id, marked_status, hid]
    split
    · exact ⟨rfl, rfl⟩
    · exact ⟨rfl, hstatus⟩

theorem entry {n : Int} : Entry db' n id ↔ Entry db n id := by
  constructor
  · rintro ⟨m, hm, rfl, rfl⟩
    obtain ⟨m₀, hm₀, rfl⟩ := (h.manifests m).1 hm
    refine ⟨m₀, hm₀, ?_⟩
    split <;> exact ⟨rfl, rfl⟩
  · rintro ⟨m, hm, rfl, rfl⟩
    refine ⟨_, (h.manifests _).2 ⟨m, hm, rfl⟩, ?_⟩
    split <;> exact ⟨rfl, rfl⟩

theorem owned {owner : DrawerId → String} (howned : Owned owner db) : Owned owner db' := by
  intro r hr id hid
  obtain ⟨r₀, hr₀, rfl⟩ := (h.runs r).1 hr
  rw [mem_manifestIds, h.entry, marked_id, ← mem_manifestIds] at hid
  rw [marked_sourceKey]
  exact howned r₀ hr₀ id hid

theorem rows_other {m : IngestManifestEntry} (hid : m.runId ≠ runId) :
    m ∈ db'.manifests.rows ↔ m ∈ db.manifests.rows := by
  rw [h.manifests]
  constructor
  · rintro ⟨m₀, hm₀, rfl⟩
    split at hid
    · exact absurd ‹_› hid
    · rwa [if_neg ‹_›]
  · intro hm
    exact ⟨m, hm, (if_neg hid).symm⟩

theorem committed_run {r : IngestRun} (hid : r.id ≠ runId) :
    r ∈ db'.runs.rows ↔ r ∈ db.runs.rows := by
  rw [h.runs]
  constructor
  · rintro ⟨r₀, hr₀, rfl⟩
    rw [marked_id] at hid
    rwa [marked, if_neg hid]
  · intro hr
    refine ⟨r, hr, ?_⟩
    rw [marked, if_neg hid]

end Marked

section
variable {db db' : IngestDb} {runId : Int} {updatedAt : OffsetDateTime}
  {failedReason : Option String} {key : String} {id : DrawerId}

theorem Marked.failed_run (h : Marked db runId .failed updatedAt failedReason db')
    (hrun : ∀ r ∈ db.runs.rows, r.id = runId → r.status ≠ .committed) {r : IngestRun}
    (hstatus : r.status = .committed) : r ∈ db'.runs.rows ↔ r ∈ db.runs.rows := by
  by_cases hid : r.id = runId
  · refine iff_of_false ?_ fun hr => hrun r hr hid hstatus
    rw [h.runs]
    rintro ⟨r₀, _, rfl⟩
    rw [marked_id] at hid
    rw [marked_status, if_pos hid] at hstatus
    cases hstatus
  · exact h.committed_run hid

theorem Marked.failed_latest (h : Marked db runId .failed updatedAt failedReason db')
    (hrun : ∀ r, Latest db key r → r.id ≠ runId) {r : IngestRun} :
    Latest db' key r ↔ Latest db key r := by
  have hother : ∀ r ∈ db'.runs.rows, r.status = .committed → r.id ≠ runId := by
    intro r hr hstatus hid
    obtain ⟨r₀, _, rfl⟩ := (h.runs r).1 hr
    rw [marked_id] at hid
    rw [marked_status, if_pos hid] at hstatus
    cases hstatus
  constructor
  · rintro ⟨hr, hkey, hstatus, hlast⟩
    refine ⟨(h.committed_run (hother r hr hstatus)).1 hr, hkey, hstatus, fun r' hr' hkey' hs' => ?_⟩
    by_contra hlt
    have hid : r'.id = runId := by
      by_contra hid
      exact hlt (hlast r' ((h.committed_run hid).2 hr') hkey' hs')
    -- then the marked run was the last one
    refine hrun r' ⟨hr', hkey', hs', fun r'' hr'' hkey'' hs'' => ?_⟩ hid
    by_cases hid'' : r''.id = runId
    · omega
    · have := hlast r'' ((h.committed_run hid'').2 hr'') hkey'' hs''
      omega
  · intro hlatest
    refine ⟨(h.committed_run (hrun r hlatest)).2 hlatest.mem, hlatest.sourceKey, hlatest.status,
      fun r' hr' hkey' hs' => ?_⟩
    exact hlatest.last r' ((h.committed_run (hother r' hr' hs')).1 hr') hkey' hs'

theorem Marked.failed_sameManifest (h : Marked db runId .failed updatedAt failedReason db')
    (hrun : ∀ r, Latest db key r → r.id ≠ runId) : SameManifest key db db' where
  latest _ := h.failed_latest hrun
  rows r hr _ hm := h.rows_other (hm ▸ hrun r hr)

theorem Marked.failed_committed (h : Marked db runId .failed updatedAt failedReason db')
    (hrun : ∀ r ∈ db.runs.rows, r.id = runId → r.status ≠ .committed) :
    Committed db' id ↔ Committed db id := by
  constructor
  · rintro ⟨r, hr, hstatus, hentry⟩
    exact ⟨r, (h.failed_run hrun hstatus).1 hr, hstatus, h.entry.1 hentry⟩
  · rintro ⟨r, hr, hstatus, hentry⟩
    exact ⟨r, (h.failed_run hrun hstatus).2 hr, hstatus, h.entry.2 hentry⟩

theorem Marked.latest (h : Marked db runId .committed updatedAt failedReason db') {run : IngestRun}
    (hrun : run ∈ db.runs.rows) (hid : run.id = runId)
    (hlast : ∀ r ∈ db.runs.rows, r.sourceKey = run.sourceKey → r.status = .committed →
      r.id ≤ runId) :
    Latest db' run.sourceKey (marked runId .committed updatedAt failedReason run) := by
  refine ⟨(h.runs _).2 ⟨run, hrun, rfl⟩, marked_sourceKey, ?_, fun r hr hkey hstatus => ?_⟩
  · rw [marked_status, if_pos hid]
  · rw [marked_id, hid]
    by_cases hr' : r.id = runId
    · exact Int.le_of_eq hr'
    · exact hlast r ((h.committed_run hr').1 hr) hkey hstatus

theorem Marked.other_sameManifest (h : Marked db runId .committed updatedAt failedReason db')
    {run : IngestRun} (hrun : run ∈ db.runs.rows) (hid : run.id = runId)
    (hkey : key ≠ run.sourceKey) : SameManifest key db db' := by
  have hne : ∀ r ∈ db.runs.rows, r.sourceKey = key → r.id ≠ runId := by
    intro r hr hr' hid'
    obtain rfl := run_unique hr hrun (hid'.trans hid.symm)
    exact hkey hr'.symm
  refine ⟨fun r => latest_congr fun r hr _ => ?_, fun r hr _ hm =>
    h.rows_other (hm ▸ hne r hr.mem hr.sourceKey)⟩
  by_cases hid' : r.id = runId
  · refine iff_of_false ?_ fun hr' => hne r hr' hr hid'
    rw [h.runs]
    rintro ⟨r₀, hr₀, rfl⟩
    rw [marked_id] at hid'
    rw [marked_sourceKey] at hr
    exact hne r₀ hr₀ hr hid'
  · exact h.committed_run hid'

theorem Marked.committed (h : Marked db runId .committed updatedAt failedReason db')
    {run : IngestRun} (hrun : run ∈ db.runs.rows) (hid : run.id = runId) :
    Committed db' id ↔ Committed db id ∨ Entry db runId id := by
  constructor
  · rintro ⟨r, hr, hstatus, hentry⟩
    rw [h.entry] at hentry
    by_cases hr' : r.id = runId
    · exact .inr (hr' ▸ hentry)
    · exact .inl ⟨r, (h.committed_run hr').1 hr, hstatus, hentry⟩
  · rintro (⟨r, hr, hstatus, hentry⟩ | hentry)
    · by_cases hr' : r.id = runId
      · refine ⟨_, (h.runs _).2 ⟨r, hr, rfl⟩, ?_, ?_⟩
        · rw [marked_status, if_pos hr']
        · rw [marked_id]
          exact h.entry.2 hentry
      · exact ⟨r, (h.committed_run hr').2 hr, hstatus, h.entry.2 hentry⟩
    · refine ⟨_, (h.runs _).2 ⟨run, hrun, rfl⟩, ?_, ?_⟩
      · rw [marked_status, if_pos hid]
      · rw [marked_id, hid]
        exact h.entry.2 hentry

end

def IngestDb.recordFile (db : IngestDb) (record : IngestFileRecord) : IngestDb :=
  { db with
    files := db.files.upsert record fun f =>
      { f with
        sourceFile := record.sourceFile, contentHash := record.contentHash
        lastIngestedAt := record.lastIngestedAt, ingestKind := record.ingestKind
        drawerCount := record.drawerCount } }

theorem recordFile_get? (db : IngestDb) (record : IngestFileRecord) (key : String) :
    (db.recordFile record).files.get? key =
      if key = record.sourceKey then some record else db.files.get? key := by
  unfold IngestDb.recordFile
  dsimp only
  rw [Table.get?_upsert]
  cases hold : db.files.get? record.sourceKey with
  | none => rfl
  | some old =>
    obtain ⟨_, hkey⟩ := Table.get?_eq_some.1 hold
    have : old.sourceKey = record.sourceKey := hkey
    simp [this]

theorem Marked.recordFile {db db' : IngestDb} {runId : Int} {outcome : IngestRunStatus}
    {updatedAt : OffsetDateTime} {failedReason : Option String}
    (h : Marked db runId outcome updatedAt failedReason db') (record : IngestFileRecord) :
    Marked db runId outcome updatedAt failedReason (db'.recordFile record) :=
  ⟨h.lastRunId, h.runs, h.manifests⟩

theorem markRunFailed_run (runId : Int) (reason : String) (failedAt : OffsetDateTime)
    (db : IngestDb) : (markRunFailed runId reason failedAt).run db =
      (.ok (), db.mark runId .failed failedAt (some reason)) := rfl

/-- `mark_run_committed` of a run that is there. -/
theorem markRunCommitted_run {db : IngestDb} {run : IngestRun} (hrun : run ∈ db.runs.rows)
    (sourceKey sourceFile contentHash : String) (drawerCount : Nat)
    (committedAt : OffsetDateTime) :
    (markRunCommitted run.id sourceKey sourceFile contentHash drawerCount committedAt).run db =
      (.ok (), (db.mark run.id .committed committedAt none).recordFile
        { sourceKey, sourceFile, contentHash, lastIngestedAt := committedAt
          ingestKind := run.ingestKind, drawerCount }) := by
  have hget : (db.mark run.id .committed committedAt none).runs.get? run.id =
      some (marked run.id .committed committedAt none run) := by
    refine Table.get?_eq_some.2 ⟨?_, marked_id⟩
    exact ((marked_mark db run.id .committed committedAt none).runs _).2 ⟨run, hrun, rfl⟩
  unfold markRunCommitted
  simp only [Tx.run, bind, Tx.exec, Tx.query, hget, Tx.commit, marked_ingestKind]
  rfl

/-! ## A forgotten key -/

section
variable {db : IngestDb} {sourceKey key : String} {id : DrawerId}

theorem mem_forget_runs {r : IngestRun} :
    r ∈ (db.forget sourceKey).runs.rows ↔ r ∈ db.runs.rows ∧ r.sourceKey ≠ sourceKey := by
  show r ∈ (db.runs.deleteWhere fun r => r.sourceKey = sourceKey).rows ↔ _
  simp

theorem mem_forget_manifests {m : IngestManifestEntry} :
    m ∈ (db.forget sourceKey).manifests.rows ↔ m ∈ db.manifests.rows ∧
      ∀ r ∈ db.runs.rows, r.sourceKey = sourceKey → r.id ≠ m.runId := by
  show m ∈ (db.manifests.deleteWhere fun m => m.runId ∈
    (db.runs.rows.filter fun r => r.sourceKey = sourceKey).map (·.id)).rows ↔ _
  simp

theorem entry_forget {r : IngestRun} (hr : r ∈ db.runs.rows) (hkey : r.sourceKey ≠ sourceKey) :
    Entry (db.forget sourceKey) r.id id ↔ Entry db r.id id := by
  constructor
  · rintro ⟨m, hm, hid⟩
    exact ⟨m, (mem_forget_manifests.1 hm).1, hid⟩
  · rintro ⟨m, hm, hrun, hid⟩
    refine ⟨m, mem_forget_manifests.2 ⟨hm, fun r' hr' hkey' hid' => hkey ?_⟩, hrun, hid⟩
    rwa [run_unique hr hr' (hrun.symm.trans hid'.symm)]

theorem Wf.forget (hdb : Wf db) : Wf (db.forget sourceKey) where
  id_le r hr := hdb.id_le r (mem_forget_runs.1 hr).1
  entry m hm := by
    obtain ⟨hm, hkept⟩ := mem_forget_manifests.1 hm
    obtain ⟨r, hr, hid, hstatus⟩ := hdb.entry m hm
    exact ⟨r, mem_forget_runs.2 ⟨hr, fun hkey => hkept r hr hkey hid⟩, hid, hstatus⟩

theorem Owned.forget {owner : DrawerId → String} (h : Owned owner db) :
    Owned owner (db.forget sourceKey) := by
  intro r hr id hid
  obtain ⟨hr, hkey⟩ := mem_forget_runs.1 hr
  rw [mem_manifestIds, entry_forget hr hkey, ← mem_manifestIds] at hid
  exact h r hr id hid

theorem not_live_forget : ¬ Live (db.forget sourceKey) sourceKey id := by
  rintro ⟨r, hlatest, _⟩
  exact (mem_forget_runs.1 hlatest.mem).2 hlatest.sourceKey

theorem forget_sameManifest (hkey : key ≠ sourceKey) :
    SameManifest key db (db.forget sourceKey) where
  latest r := latest_congr fun r' hr' _ => by
    rw [mem_forget_runs]
    exact and_iff_left (hr' ▸ hkey)
  rows r hr m hm := by
    rw [mem_forget_manifests]
    refine and_iff_left fun r' hr' hkey' hid => ?_
    obtain rfl := run_unique hr' hr.mem (hid.trans hm)
    exact hkey (hr.sourceKey.symm.trans hkey')

end

end AgentPalace.Ingest
