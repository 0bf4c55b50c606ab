import AgentPalace.Core.Date
import AgentPalace.Core.PersistedProvenance
import AgentPalace.Lib.Checked
import AgentPalace.Storage.Basic

/-!
# Rows of the drawer table

How the drawer store lays a record out in columns (`drawerRow`) and reads it
back (`recordFromRow`). A record reads back as it was written, at the instant of
`filed_at` rounded down to microseconds, just if its ids pass the checks of their
types, the instant lies in the years of the time type, and the rounding toward
zero rounds down (`drawer_reads_back`). A row that does not read back fails every
read that selects it.

A column of JSON is kept as the value whose JSON it is, which is checked when it
is read; a float is its bits.
-/

namespace AgentPalace.Lance

structure CheckedProvenance where
  value : PersistedProvenance
  valid : value.validate = .ok ()

structure SourceLocator where
  byteStart : UInt64
  byteEnd : UInt64
  lineStart : UInt32
  lineEnd : UInt32
  fileHash : String
  resolveRoot : String
  commitHash : Option String

structure RepositoryViewMetadata where
  repoId : String
  viewName : Option String
  sourcePath : String
  headCommit : Option String
  baseRef : Option String
  mergeBase : Option String
  worktreeId : String
  pathState : String

/-- The ids are texts here: deserialization makes them without the checks of `new`. -/
structure DrawerRecord where
  id : String
  wing : String
  room : String
  hall : Option String
  date : Option Date
  sourceFile : String
  chunkIndex : UInt32
  ingestMode : String
  extractMode : Option String
  addedBy : String
  filedAt : OffsetDateTime
  importance : Option UInt32
  emotionalWeight : Option UInt32
  weight : Option UInt32
  content : String
  contentHash : String
  embedding : List UInt32
  locator : Option SourceLocator
  viewMetadata : Option RepositoryViewMetadata
  provenance : Option CheckedProvenance

structure DrawerRow where
  id : String
  wing : String
  room : String
  hall : Option String
  date : Option Int
  sourceFile : String
  chunkIndex : UInt32
  ingestMode : String
  extractMode : Option String
  addedBy : String
  /-- Microseconds since the epoch. -/
  filedAt : Int
  importance : Option UInt32
  emotionalWeight : Option UInt32
  weight : Option UInt32
  content : String
  contentHash : String
  locatorByteStart : Option UInt64
  locatorByteEnd : Option UInt64
  locatorLineStart : Option UInt32
  locatorLineEnd : Option UInt32
  locatorFileHash : Option String
  locatorResolveRoot : Option String
  locatorCommit : Option String
  viewRepoId : Option String
  viewName : Option String
  viewSourcePath : Option String
  viewHeadCommit : Option String
  viewBaseRef : Option String
  viewMergeBase : Option String
  viewWorktreeId : Option String
  viewPathState : Option String
  provenanceJson : Option PersistedProvenance
  embedding : List UInt32

/-! ## Writing -/

/-- `UNIX_EPOCH.to_julian_day()`. -/
def unixEpochJulianDay : Int := 2440588

def toJulianDay (date : Date) : Int := date.days + unixEpochJulianDay

def dateToDays (date : Date) : Int := toJulianDay date - unixEpochJulianDay

/-- The microseconds of a time. The division rounds toward zero. -/
def toMicros (t : OffsetDateTime) : Int := t.nanos.tdiv 1000

/-- One row of `drawers_to_reader`. -/
def drawerRow (drawer : DrawerRecord) : DrawerRow where
  id := drawer.id
  wing := drawer.wing
  room := drawer.room
  hall := drawer.hall
  date := drawer.date.map dateToDays
  sourceFile := drawer.sourceFile
  chunkIndex := drawer.chunkIndex
  ingestMode := drawer.ingestMode
  extractMode := drawer.extractMode
  addedBy := drawer.addedBy
  filedAt := toMicros drawer.filedAt
  importance := drawer.importance
  emotionalWeight := drawer.emotionalWeight
  weight := drawer.weight
  content := drawer.content
  contentHash := drawer.contentHash
  locatorByteStart := drawer.locator.map (·.byteStart)
  locatorByteEnd := drawer.locator.map (·.byteEnd)
  locatorLineStart := drawer.locator.map (·.lineStart)
  locatorLineEnd := drawer.locator.map (·.lineEnd)
  locatorFileHash := drawer.locator.map (·.fileHash)
  locatorResolveRoot := drawer.locator.map (·.resolveRoot)
  locatorCommit := drawer.locator.bind (·.commitHash)
  viewRepoId := drawer.viewMetadata.map (·.repoId)
  viewName := drawer.viewMetadata.bind (·.viewName)
  viewSourcePath := drawer.viewMetadata.map (·.sourcePath)
  viewHeadCommit := drawer.viewMetadata.bind (·.headCommit)
  viewBaseRef := drawer.viewMetadata.bind (·.baseRef)
  viewMergeBase := drawer.viewMetadata.bind (·.mergeBase)
  viewWorktreeId := drawer.viewMetadata.map (·.worktreeId)
  viewPathState := drawer.viewMetadata.map (·.pathState)
  provenanceJson := drawer.provenance.map (·.value)
  embedding := drawer.embedding

/-! ## Reading -/

def fromJulianDay (day : Int) : Except StorageError Date :=
  if h : -4371587 ≤ day - unixEpochJulianDay ∧ day - unixEpochJulianDay ≤ 2932896 then
    .ok ⟨day - unixEpochJulianDay, h⟩
  else .error (.invariant "julian_day was not in range")

def daysToDate (days : Int) : Except StorageError Date := fromJulianDay (days + unixEpochJulianDay)

/-- `from_unix_timestamp_nanos`. -/
def fromUnixTimestampNanos (nanos : Int) : Except StorageError OffsetDateTime :=
  if OffsetDateTime.yearMin ≤ nanos ∧ nanos < OffsetDateTime.year10000 then .ok ⟨nanos, 0⟩
  else .error (.invariant "timestamp was not in range")

/-- `new` of an id type. -/
def newId (kind value : String) : Except StorageError String :=
  match validateId kind value with
  | .ok () => .ok value
  | .error e => .error (.invalidId e)

def buildLocator (row : DrawerRow) : Option SourceLocator := do
  let byteStart ← row.locatorByteStart
  let byteEnd ← row.locatorByteEnd
  let lineStart ← row.locatorLineStart
  let lineEnd ← row.locatorLineEnd
  let fileHash ← row.locatorFileHash
  let resolveRoot ← row.locatorResolveRoot
  return { byteStart, byteEnd, lineStart, lineEnd, fileHash, resolveRoot
           commitHash := row.locatorCommit }

def buildViewMetadata (row : DrawerRow) : Option RepositoryViewMetadata := do
  let repoId ← row.viewRepoId
  let sourcePath ← row.viewSourcePath
  let worktreeId ← row.viewWorktreeId
  let pathState ← row.viewPathState
  return { repoId, viewName := row.viewName, sourcePath, headCommit := row.viewHeadCommit
           baseRef := row.viewBaseRef, mergeBase := row.viewMergeBase, worktreeId, pathState }

/-- The checks of the constructor, on the way from JSON. -/
def checkProvenance (p : PersistedProvenance) : Except StorageError CheckedProvenance :=
  if h : p.validate = .ok () then .ok ⟨p, h⟩ else .error (.invariant "invalid drawer provenance")

/-- One row of `records_from_batches`. -/
def recordFromRow (row : DrawerRow) : Except StorageError DrawerRecord := do
  let id ← newId "drawer" row.id
  let wing ← newId "wing" row.wing
  let room ← newId "room" row.room
  let date ← row.date.mapM daysToDate
  let filedAt ← fromUnixTimestampNanos (row.filedAt * 1000)
  let provenance ← row.provenanceJson.mapM checkProvenance
  return {
    id, wing, room, hall := row.hall, date, sourceFile := row.sourceFile
    chunkIndex := row.chunkIndex, ingestMode := row.ingestMode, extractMode := row.extractMode
    addedBy := row.addedBy, filedAt, importance := row.importance
    emotionalWeight := row.emotionalWeight, weight := row.weight, content := row.content
    contentHash := row.contentHash, embedding := row.embedding, locator := buildLocator row
    viewMetadata := buildViewMetadata row, provenance }

/-- One row of `layer_metadata_from_batch`. -/
def layerMetadata (row : DrawerRow) : Except StorageError DrawerRecord := do
  let id ← newId "drawer" row.id
  let wing ← newId "wing" row.wing
  let room ← newId "room" row.room
  let date ← row.date.mapM daysToDate
  let filedAt ← fromUnixTimestampNanos (row.filedAt * 1000)
  return {
    id, wing, room, hall := none, date, sourceFile := row.sourceFile, chunkIndex := row.chunkIndex
    ingestMode := "", extractMode := none, addedBy := "", filedAt, importance := row.importance
    emotionalWeight := row.emotionalWeight, weight := row.weight, content := "", contentHash := ""
    embedding := [], locator := none, viewMetadata := none, provenance := none }

/-- `list_drawers`: `selects` is the compiled filter. -/
def listDrawers (selects : DrawerRow → Bool) (limit : Option Nat) (table : List DrawerRow) :
    Except StorageError (List DrawerRecord) :=
  let rows := table.filter selects
  (limit.elim rows rows.take).mapM recordFromRow

/-- `search_drawers` of the rows that the table finds, with their distances. -/
def searchDrawers (hits : List (DrawerRow × Option UInt32)) :
    Except StorageError (List (DrawerRecord × Option UInt32)) := do
  let records ← (hits.map (·.1)).mapM recordFromRow
  return records.zip (hits.map (·.2))

/-- Insert a candidate behind all that do not rank after it, and keep `limit`. -/
def insertTop (rank : DrawerRecord → DrawerRecord → Ordering) (limit : Nat)
    (top : List DrawerRecord) (candidate : DrawerRecord) : List DrawerRecord :=
  ((top.takeWhile fun existing => rank existing candidate ≠ .gt) ++ candidate ::
    (top.dropWhile fun existing => rank existing candidate ≠ .gt)).take limit

/-- `list_layer_drawers`; `rank` is `compare_layer_drawers`. -/
def listLayerDrawers (rank : DrawerRecord → DrawerRecord → Ordering) (selects : DrawerRow → Bool)
    (limit : Nat) (table : List DrawerRow) : Except StorageError (List DrawerRecord) :=
  if limit = 0 then .ok []
  else do
    let candidates ← (table.filter selects).mapM layerMetadata
    let ids := (candidates.foldl (insertTop rank limit) []).map (·.id)
    if ids = [] then return []
    else
      let drawers ← ((table.filter fun row => row.id ∈ ids).take limit).mapM recordFromRow
      return drawers.insertionSort fun a b => rank a b ≠ .gt

/-! ## What reads back -/

namespace DrawerRecord

/-- The instant of `filed_at` rounded down to microseconds, in UTC. -/
def roundedDown (r : DrawerRecord) : DrawerRecord :=
  { r with filedAt := ⟨r.filedAt.nanos / 1000 * 1000, 0⟩ }

/-- The ids pass the checks of their types, and the stored time is one of the time type in UTC. -/
structure Readable (r : DrawerRecord) : Prop where
  id : validateId "drawer" r.id = .ok ()
  wing : validateId "wing" r.wing = .ok ()
  room : validateId "room" r.room = .ok ()
  filedAt : OffsetDateTime.yearMin ≤ toMicros r.filedAt * 1000 ∧
    toMicros r.filedAt * 1000 < OffsetDateTime.year10000

/-- The time is not before 1970, or of whole microseconds. -/
def RoundsDown (r : DrawerRecord) : Prop := 0 ≤ r.filedAt.nanos ∨ r.filedAt.nanos % 1000 = 0

def asRead (r : DrawerRecord) : DrawerRecord :=
  { r with filedAt := ⟨toMicros r.filedAt * 1000, 0⟩ }

/-- No read of a table of readable rows fails because of this one. -/
def NeverPoisons (r : DrawerRecord) : Prop :=
  ∀ before after : List DrawerRecord, (∀ x ∈ before ++ after, x.Readable) →
    let table := (before ++ r :: after).map drawerRow
    (∀ selects limit, ∃ records, listDrawers selects limit table = .ok records) ∧
    (∀ hits : List (DrawerRow × Option UInt32), (∀ hit ∈ hits, hit.1 ∈ table) →
      ∃ found, searchDrawers hits = .ok found) ∧
    ∀ rank selects limit, ∃ records, listLayerDrawers rank selects limit table = .ok records

end DrawerRecord

variable {r : DrawerRecord}

theorem roundsDown_iff : toMicros r.filedAt * 1000 = r.filedAt.nanos / 1000 * 1000 ↔ r.RoundsDown := by
  unfold toMicros DrawerRecord.RoundsDown
  rw [Int.tdiv_eq_ediv]
  split
  · rename_i h
    refine iff_of_true (by simp) (h.imp_right fun hdvd => Int.emod_eq_zero_of_dvd hdvd)
  · rename_i h
    rw [not_or] at h
    refine iff_of_false (fun heq => ?_) fun hdown => ?_
    · have hsign : Int.sign 1000 = 1 := rfl
      rw [hsign] at heq
      omega
    · rcases hdown with hpos | hmod
      · exact h.1 hpos
      · exact h.2 (Int.dvd_of_emod_eq_zero hmod)

theorem daysToDate_dateToDays (d : Date) : daysToDate (dateToDays d) = .ok d := by
  have hdays : dateToDays d + unixEpochJulianDay - unixEpochJulianDay = d.days := by
    unfold dateToDays toJulianDay
    omega
  unfold daysToDate fromJulianDay
  simp only [hdays]
  exact dif_pos d.range

theorem dates_back (date : Option Date) : (date.map dateToDays).mapM daysToDate = .ok date := by
  cases date with
  | none => rfl
  | some d =>
    show (some <$> daysToDate (dateToDays d) : Except StorageError (Option Date)) = _
    rw [daysToDate_dateToDays]
    rfl

theorem provenance_back (provenance : Option CheckedProvenance) :
    (provenance.map (·.value)).mapM checkProvenance = .ok provenance := by
  cases provenance with
  | none => rfl
  | some p =>
    show (some <$> checkProvenance p.value : Except StorageError (Option CheckedProvenance)) = _
    unfold checkProvenance
    rw [dif_pos p.valid]
    rfl

theorem locator_back (r : DrawerRecord) : buildLocator (drawerRow r) = r.locator := by
  cases hlocator : r.locator with
  | none => simp [buildLocator, drawerRow, hlocator]
  | some locator => simp [buildLocator, drawerRow, hlocator]

theorem viewMetadata_back (r : DrawerRecord) : buildViewMetadata (drawerRow r) = r.viewMetadata := by
  cases hview : r.viewMetadata with
  | none => simp [buildViewMetadata, drawerRow, hview]
  | some view => simp [buildViewMetadata, drawerRow, hview]

theorem newId_eq_ok {kind value id : String} (h : newId kind value = .ok id) :
    validateId kind value = .ok () ∧ id = value := by
  unfold newId at h
  split at h
  · rename_i hvalid
    cases h
    exact ⟨hvalid, rfl⟩
  · cases h

theorem newId_of_valid {kind value : String} (h : validateId kind value = .ok ()) :
    newId kind value = .ok value := by
  unfold newId
  rw [h]

theorem fromUnixTimestampNanos_eq_ok {nanos : Int} {t : OffsetDateTime}
    (h : fromUnixTimestampNanos nanos = .ok t) :
    OffsetDateTime.yearMin ≤ nanos ∧ nanos < OffsetDateTime.year10000 := by
  unfold fromUnixTimestampNanos at h
  split at h
  · assumption
  · cases h

theorem readable_of_ok {x : DrawerRecord} (h : recordFromRow (drawerRow r) = .ok x) :
    r.Readable := by
  unfold recordFromRow at h
  cases hid : newId "drawer" (drawerRow r).id with
  | error e =>
    rw [hid] at h
    cases h
  | ok id =>
    cases hwing : newId "wing" (drawerRow r).wing with
    | error e =>
      rw [hid, hwing] at h
      cases h
    | ok wing =>
      cases hroom : newId "room" (drawerRow r).room with
      | error e =>
        rw [hid, hwing, hroom] at h
        cases h
      | ok room =>
        have hdate : (drawerRow r).date.mapM daysToDate = .ok r.date := dates_back r.date
        cases htime : fromUnixTimestampNanos ((drawerRow r).filedAt * 1000) with
        | error e =>
          rw [hid, hwing, hroom, hdate, htime] at h
          cases h
        | ok filedAt =>
          exact ⟨(newId_eq_ok hid).1, (newId_eq_ok hwing).1, (newId_eq_ok hroom).1,
            fromUnixTimestampNanos_eq_ok htime⟩

theorem fromUnixTimestampNanos_of_readable (h : r.Readable) :
    fromUnixTimestampNanos ((drawerRow r).filedAt * 1000) =
      .ok ⟨toMicros r.filedAt * 1000, 0⟩ := if_pos h.filedAt

theorem recordFromRow_readable (h : r.Readable) : recordFromRow (drawerRow r) = .ok r.asRead := by
  have hid : newId "drawer" (drawerRow r).id = .ok r.id := newId_of_valid h.id
  have hwing : newId "wing" (drawerRow r).wing = .ok r.wing := newId_of_valid h.wing
  have hroom : newId "room" (drawerRow r).room = .ok r.room := newId_of_valid h.room
  have hdate : (drawerRow r).date.mapM daysToDate = .ok r.date := dates_back r.date
  have hprovenance : (drawerRow r).provenanceJson.mapM checkProvenance = .ok r.provenance :=
    provenance_back r.provenance
  unfold recordFromRow
  rw [locator_back, viewMetadata_back, hid, hwing, hroom, hdate,
    fromUnixTimestampNanos_of_readable h, hprovenance]
  rfl

def DrawerRecord.metadata (r : DrawerRecord) : DrawerRecord :=
  { r with
    hall := none, ingestMode := "", extractMode := none, addedBy := "", content := ""
    contentHash := "", embedding := [], locator := none, viewMetadata := none, provenance := none }

theorem layerMetadata_eq (h : r.Readable) :
    layerMetadata (drawerRow r) = .ok r.asRead.metadata := by
  have hid : newId "drawer" (drawerRow r).id = .ok r.id := newId_of_valid h.id
  have hwing : newId "wing" (drawerRow r).wing = .ok r.wing := newId_of_valid h.wing
  have hroom : newId "room" (drawerRow r).room = .ok r.room := newId_of_valid h.room
  have hdate : (drawerRow r).date.mapM daysToDate = .ok r.date := dates_back r.date
  unfold layerMetadata
  rw [hid, hwing, hroom, hdate, fromUnixTimestampNanos_of_readable h]
  rfl

/-! ## Reads of a table -/

theorem neverPoisons_of_readable (h : r.Readable) : r.NeverPoisons := by
  intro before after hothers table
  have hrow : ∀ row ∈ table, (∃ x, recordFromRow row = .ok x) ∧ ∃ x, layerMetadata row = .ok x := by
    intro row hrow
    obtain ⟨x, hx, rfl⟩ := List.mem_map.1 hrow
    have hreadable : x.Readable := by
      rcases List.mem_append.1 hx with hx | hx
      · exact hothers x (List.mem_append_left _ hx)
      · rcases List.mem_cons.1 hx with rfl | hx
        · exact h
        · exact hothers x (List.mem_append_right _ hx)
    exact ⟨⟨_, recordFromRow_readable hreadable⟩, ⟨_, layerMetadata_eq hreadable⟩⟩
  refine ⟨fun selects limit => list_mapM_total fun row hmem => ?_, fun hits hhits => ?_,
    fun rank selects limit => ?_⟩
  · refine (hrow row (List.mem_of_mem_filter (p := selects) ?_)).1
    cases limit with
    | none => exact hmem
    | some n => exact List.mem_of_mem_take hmem
  · have hrecords : ∃ records, (hits.map (·.1)).mapM recordFromRow = .ok records := by
      refine list_mapM_total fun row hmem => ?_
      obtain ⟨hit, hhit, rfl⟩ := List.mem_map.1 hmem
      exact (hrow _ (hhits hit hhit)).1
    obtain ⟨records, hrecords⟩ := hrecords
    unfold searchDrawers
    rw [hrecords]
    exact ⟨_, rfl⟩
  · unfold listLayerDrawers
    split
    · exact ⟨[], rfl⟩
    · obtain ⟨candidates, hcandidates⟩ := list_mapM_total (f := layerMetadata)
        fun row hmem => (hrow row (List.mem_of_mem_filter (p := selects) hmem)).2
      rw [hcandidates]
      dsimp only [Bind.bind, Except.bind]
      split
      · exact ⟨[], rfl⟩
      · obtain ⟨drawers, hdrawers⟩ := list_mapM_total (f := recordFromRow) fun row hmem =>
          (hrow row (List.mem_of_mem_filter (List.mem_of_mem_take hmem))).1
        rw [hdrawers]
        exact ⟨_, rfl⟩

/-- A row that nothing poisons can be listed alone. -/
theorem readable_of_neverPoisons (h : r.NeverPoisons) : r.Readable := by
  obtain ⟨records, hlist⟩ := (h [] [] (by simp)).1 (fun _ => true) none
  have hone : [drawerRow r].mapM recordFromRow = .ok records := hlist
  obtain ⟨x, hrow⟩ := list_mapM_mem hone (drawerRow r) (List.mem_singleton_self _)
  exact readable_of_ok hrow

/-- **Stored drawers read back**: a record reads back as it was written, with its time rounded down
to microseconds in UTC, and its row fails no read of a table of readable rows, just if the record is
readable and the rounding toward zero rounds its time down. -/
theorem drawer_reads_back (r : DrawerRecord) :
    recordFromRow (drawerRow r) = .ok r.roundedDown ∧ r.NeverPoisons ↔
      r.Readable ∧ r.RoundsDown := by
  constructor
  · rintro ⟨hread, hpoison⟩
    have hreadable := readable_of_neverPoisons hpoison
    rw [recordFromRow_readable hreadable, Except.ok.injEq] at hread
    have hnanos : toMicros r.filedAt * 1000 = r.filedAt.nanos / 1000 * 1000 :=
      congrArg (fun x : DrawerRecord => x.filedAt.nanos) hread
    exact ⟨hreadable, roundsDown_iff.1 hnanos⟩
  · rintro ⟨hreadable, hdown⟩
    refine ⟨?_, neverPoisons_of_readable hreadable⟩
    rw [recordFromRow_readable hreadable]
    unfold DrawerRecord.asRead DrawerRecord.roundedDown
    rw [roundsDown_iff.2 hdown]

/-- A record filed in the last hour of the year 9999, west of Greenwich. -/
def lateRecord : DrawerRecord where
  id := "late/1"
  wing := "wing_late"
  room := "general"
  hall := none
  date := none
  sourceFile := "late.md"
  chunkIndex := 0
  ingestMode := "projects"
  extractMode := none
  addedBy := "mine"
  filedAt := ⟨253402302600 * 1000000000, -3600⟩
  importance := none
  emotionalWeight := none
  weight := none
  content := "late"
  contentHash := "h"
  embedding := []
  locator := none
  viewMetadata := none
  provenance := none

/-- It is stored, and fails the reads of its table. -/
theorem lateRecord_poisons : ¬ (recordFromRow (drawerRow lateRecord) = .ok lateRecord.roundedDown ∧
    lateRecord.NeverPoisons) := by
  rintro ⟨-, hpoison⟩
  exact absurd (readable_of_neverPoisons hpoison).filedAt.2 (by decide)

end AgentPalace.Lance
