import AgentPalace.Core.Date
import AgentPalace.Core.PersistedProvenance
import AgentPalace.Ingest.Prepare
import AgentPalace.Storage.Basic

/-!
# Drawers and queries

A `DrawerFilter` selects rows by an SQL predicate (`admits`, where a comparison
with a null column is false). A branch view is made of the rows that carry its
name, or in older tables its hall; `SearchWorld` holds what search takes from
elsewhere: the arithmetic of scores, the character tables and the file system.
-/

namespace AgentPalace.Search

structure RoomId where
  str : String
  deriving DecidableEq

structure RepositoryViewMetadata where
  viewName : Option String
  pathState : String
  deriving DecidableEq

structure DrawerRecord where
  id : DrawerId
  wing : WingId
  room : RoomId
  hall : Option String := none
  date : Option Date := none
  sourceFile : String
  chunkIndex : Nat := 0
  ingestMode : String
  filedAt : OffsetDateTime
  content : List Char
  contentHash : String
  locator : Option Ingest.SourceLocator := none
  viewMetadata : Option RepositoryViewMetadata := none
  provenance : Option PersistedProvenance := none

namespace DrawerRecord

def viewName (r : DrawerRecord) : Option String := r.viewMetadata.bind (·.viewName)

def tombstone (r : DrawerRecord) : Bool := r.viewMetadata.any fun m => m.pathState == "deleted"

end DrawerRecord

def viewHall (view : String) : String := "view:" ++ view

structure DrawerFilter where
  ids : List DrawerId := []
  wing : Option WingId := none
  wings : List WingId := []
  room : Option RoomId := none
  hall : Option String := none
  sourceFile : Option String := none
  sourceFiles : List String := []
  view : Option String := none
  includeAllViews : Bool := false
  branchViewOnly : Bool := false
  limit : Option Nat := none

/-- The rows of a branch view, as the storage layer selects them. -/
def branchPredicate (view : String) (r : DrawerRecord) : Bool :=
  r.viewName == some view || r.viewName.isNone && r.hall == some (viewHall view)

namespace DrawerFilter

def admitsView (f : DrawerFilter) (r : DrawerRecord) : Bool :=
  if f.includeAllViews || f.view == some "full" then true
  else
    match f.view with
    | none => r.ingestMode != "projects-branch"
    | some view =>
      if view = "canonical" then r.ingestMode != "projects-branch"
      else if f.branchViewOnly then branchPredicate view r
      else r.ingestMode != "projects-branch" || branchPredicate view r

/-- `compile_filter`, evaluated on a row. -/
def admits (f : DrawerFilter) (r : DrawerRecord) : Bool :=
  (f.ids.isEmpty || f.ids.elem r.id) &&
    f.wing.all (· == r.wing) &&
    (f.wings.isEmpty || f.wings.elem r.wing) &&
    f.room.all (· == r.room) &&
    f.hall.all (fun hall => r.hall == some hall) &&
    f.sourceFile.all (· == r.sourceFile) &&
    (f.sourceFiles.isEmpty || f.sourceFiles.elem r.sourceFile) &&
    f.admitsView r

end DrawerFilter

/-- The drawers of a palace. The rows of a branch, and only they, carry a view
name or are tombstones of its deleted paths: mining writes both with the branch
mode. A table fits in memory. -/
structure DrawerTable where
  rows : List DrawerRecord
  distinct : (rows.map (·.id)).Nodup
  branch : ∀ r ∈ rows, r.viewName.isSome ∨ r.tombstone = true → r.ingestMode = "projects-branch"
  fits : rows.length < 2 ^ 63

theorem DrawerTable.id_inj (table : DrawerTable) {a b : DrawerRecord} (ha : a ∈ table.rows)
    (hb : b ∈ table.rows) (h : a.id = b.id) : a = b :=
  List.inj_on_of_nodup_map table.distinct ha hb h

theorem DrawerTable.nodup (table : DrawerTable) : table.rows.Nodup := table.distinct.of_map _

inductive Freshness where
  | relevant
  | balanced
  | recent
  deriving DecidableEq

structure FreshnessPolicy where
  halfLifeHours : Nat
  noLiftRooms : List (String × String)

structure SearchQuery where
  text : String
  wing : Option WingId
  room : Option RoomId
  view : Option String
  limit : Nat
  limit_fits : limit < 2 ^ 64
  profile : String

structure SearchRequest (V : Type) where
  embedding : V
  limit : Nat
  includeCutoffTies : Bool
  filter : DrawerFilter

structure DrawerMatch (F : Type) where
  record : DrawerRecord
  distance : Option F

structure DrawerStore (V F : Type) where
  searchDrawers : SearchRequest V → Except StorageError (List (DrawerMatch F))
  listDrawers : DrawerFilter → Except StorageError (List DrawerRecord)

inductive EmbeddingError where
  | blankInput
  | providerContract (message : String)
  /-- The provider failed. -/
  | provider
  deriving DecidableEq

inductive SearchError where
  | embeddings (e : EmbeddingError)
  | storage (e : StorageError)
  | profileMismatch (query provider : String)
  | blankQuery
  deriving DecidableEq

structure EmbeddingProvider (V : Type) where
  profile : String
  embed : List String → Except EmbeddingError (List V)

structure SearchResult (F : Type) where
  drawerId : Option DrawerId
  wing : WingId
  room : RoomId
  score : F
  content : List Char
  sourceFile : List Char
  stale : Bool
  contentHash : Option String
  view : Option String
  provenance : Option ProvenanceResponse
  filedAt : Option OffsetDateTime
  date : Option Date
  ingestMode : Option String

/-- Scores are `f32`, here any ordered type `F`, and rank keys `f64`, here `K`.
Rounding keeps `1.0 - value` decreasing. -/
structure SearchWorld (F K : Type) [LinearOrder F] where
  zero : F
  /-- `1.0 - value`. -/
  complement : F → F
  complement_anti : ∀ {a b : F}, a ≤ b → complement b ≤ complement a
  /-- `base * 0.7 + overlap * 0.3`. -/
  blend : F → F → F
  /-- `matched as f32 / terms as f32`. -/
  ratio : Nat → Nat → F
  /-- `f64::from`. -/
  widen : F → K
  add : K → K → K
  noLift : K
  /-- `w * 2^(-age / half_life)`, the half life in hours and the age in nanoseconds. -/
  lift : Freshness → Nat → Nat → K
  isAlphanumeric : Char → Bool
  toLowercase : Char → List Char
  hashBytes : List UInt8 → String
  readLocatorFile : String → String → Option (List UInt8)

end AgentPalace.Search
