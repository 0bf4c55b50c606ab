import AgentPalace.Coordination.Types
import AgentPalace.Lib.Decimal
import AgentPalace.Lib.Paging
import AgentPalace.Lib.TextSlice

/-!
# Task discovery

`tasks` answers one page of the rows that satisfy a filter and a visibility: at
most `limit` rows, whose JSON fits the byte budget together with the longest
cursor there is. `listTasks` is a client that feeds every cursor back.
-/

namespace AgentPalace.Coordination

def taskListTitleBytes : Nat := 1024
def taskListPageBytes : Nat := 256 * 1024
def taskListMaxLimit : Nat := 200

structure TaskListItem where
  taskId : String
  wing : String
  state : TaskState
  revision : Int
  title : String
  titleTruncated : Bool
  owner : Option String
  executorAffinity : Option String
  leaseExpiresAt : Option String
  parentId : Option String
  dependencyCount : Nat
  createdBy : String
  createdAt : String
  expiresAt : Option String

structure TaskListFilter where
  wing : Option String := none
  state : Option TaskState := none
  owner : Option String := none
  createdBy : Option String := none
  parentId : Option String := none

structure TaskListPage where
  tasks : List TaskListItem
  nextCursor : Option String

/-- `federated none` sees every wing but the two reserved ones. -/
inductive CoordinationVisibility where
  | trusted
  | federated (wings : Option (List String))

/-! ## The JSON of a page -/

def optStr : Option String → Json
  | some s => .str s
  | none => .null

def TaskListItem.json (i : TaskListItem) : Json :=
  .obj ([("task_id", .str i.taskId), ("wing", .str i.wing), ("state", .str i.state.asStr),
      ("revision", .int i.revision), ("title", .str i.title),
      ("title_truncated", .bool i.titleTruncated), ("owner", optStr i.owner)] ++
    (i.executorAffinity.map fun e => ("executor_affinity", .str e)).toList ++
    [("lease_expires_at", optStr i.leaseExpiresAt), ("parent_id", optStr i.parentId),
      ("dependency_count", .int i.dependencyCount), ("created_by", .str i.createdBy),
      ("created_at", .str i.createdAt), ("expires_at", optStr i.expiresAt)])

def TaskListPage.json (p : TaskListPage) : Json :=
  .obj [("tasks", .arr (p.tasks.map (·.json))), ("next_cursor", optStr p.nextCursor)]

/-! ## Rows and items -/

/-- The longest prefix of whole characters within the first 1024 bytes. -/
def titlePrefix (title : String) : String := prefixWithin taskListTitleBytes title

def TaskRow.item (t : TaskRow) : TaskListItem :=
  let title := titlePrefix t.title
  { taskId := t.taskId, wing := t.wing, state := t.state, revision := t.revision, title
    titleTruncated := title.utf8ByteSize < t.title.utf8ByteSize, owner := t.owner
    executorAffinity := t.executorAffinity, leaseExpiresAt := t.leaseExpiresAt.map (·.text)
    parentId := t.parentId, dependencyCount := t.dependencies.length, createdBy := t.createdBy
    createdAt := t.createdAt.text, expiresAt := t.expiresAt.map (·.text) }

def CoordinationVisibility.sees (visibility : CoordinationVisibility) (wing : String) : Bool :=
  match visibility with
  | .trusted => true
  | .federated wings =>
    wing ≠ sharedAgentDiaryWing && wing ≠ unscopedWing && wings.all fun ws => wing ∈ ws

/-- The exact-match predicates; `wing` is the canonical spelling of the filter's. -/
def TaskListFilter.admits (filter : TaskListFilter) (wing : Option WingId) (t : TaskRow) : Bool :=
  wing.all (t.wing = ·.str) && filter.state.all (t.state = ·) &&
    filter.owner.all (t.owner = some ·) && filter.createdBy.all (t.createdBy = ·) &&
    filter.parentId.all (t.parentId = some ·)

/-! ## One page -/

/-- The longest cursor, reserved while a page is filled. -/
def cursorSlot : String := toString maxRowid

/-- Whether a page of these items fits, whatever its cursor. -/
def fits (budget : Nat) (tasks : List TaskListItem) : Bool :=
  (TaskListPage.json ⟨tasks, some cursorSlot⟩).encodedSize ≤ budget

def oversized (t : TaskRow) (budget : Nat) : StorageError :=
  .invariant s!"task list item {t.taskId} exceeds byte budget {budget}; identities are not truncated; use task_get or increase the budget"

/-- The loop over the selected rows: `page` was emitted, `last` is the cursor
behind it. -/
def fillPage (limit budget : Nat) (page : List TaskListItem) (last : Option String) :
    List TaskRow → Except StorageError TaskListPage
  | [] => .ok ⟨page, none⟩
  | row :: rows =>
    if page.length = limit then .ok ⟨page, last⟩
    else if fits budget (page ++ [row.item]) then
      fillPage limit budget (page ++ [row.item]) (some (toString row.sequence)) rows
    else if page.isEmpty then .error (oversized row budget)
    else .ok ⟨page, last⟩

def tasks (db : CoordinationDb) (cursor : Option Int) (filter : TaskListFilter)
    (limit byteBudget : Nat) (visibility : CoordinationVisibility) :
    Except StorageError TaskListPage := do
  let budget := min byteBudget taskListPageBytes
  if budget < 128 then
    throw (.invariant "task list byte budget must be at least 128")
  if let .federated (some []) := visibility then
    return ⟨[], none⟩
  let wing ← (filter.wing.mapM WingId.normalized).mapError .invalidId
  let limit := max 1 (min limit taskListMaxLimit)
  let rows := db.tasks.rows.filter fun t =>
    cursor.getD 0 < t.sequence && filter.admits wing t && visibility.sees t.wing
  fillPage limit budget [] none (rows.take (limit + 1))

/-! ## Feeding the cursor back -/

/-- One call of a client, with the cursor to go on from. -/
def fetchTasks (db : CoordinationDb) (filter : TaskListFilter) (limit byteBudget : Nat)
    (visibility : CoordinationVisibility) (cursor : Option Int) :
    Except StorageError (TaskListPage × Option (Option Int)) := do
  let page ← tasks db cursor filter limit byteBudget visibility
  match page.nextCursor with
  | none => return (page, none)
  | some text =>
    match parseI64 text with
    | some n => return (page, some (some n))
    | none => throw (.invariant s!"invalid cursor {text}")

/-- A client that reads all pages from the first on. -/
def listTasks (db : CoordinationDb) (filter : TaskListFilter) (limit byteBudget : Nat)
    (visibility : CoordinationVisibility) (calls : Nat) :
    Option (Except StorageError (List TaskListPage)) :=
  collect (fetchTasks db filter limit byteBudget visibility) calls none

end AgentPalace.Coordination
