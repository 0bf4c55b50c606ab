import AgentPalace.Coordination.Listing
import AgentPalace.Lib.JsonSize
import AgentPalace.Mcp.Candidates
import AgentPalace.Remote.Error

/-!
# The task listing of all origins

`coordinationTasksFanout` asks the candidate remotes for a page of tasks each. A
record is reserved for every origin, and what is left of the budget is shared out
before any remote is asked. A page that is larger than its share is rejected
whole, and the record that takes its place keeps the cursor.
-/

namespace AgentPalace

open Coordination (optStr)

/-- An argument is rejected, or an encoding does not fit into the memory. -/
inductive ToolError where
  | invalidParams (message : String)
  | capacityOverflow
  deriving DecidableEq

structure CoordinationTasksQuery where
  cursor : Option String
  wing : Option String
  state : Option String
  owner : Option String
  createdBy : Option String
  parentId : Option String
  limit : Option Nat
  byteBudget : Option Nat

structure CoordinationTasksResponse where
  tasks : List Json
  nextCursor : Option String

def CoordinationTasksResponse.json (page : CoordinationTasksResponse) : Json :=
  .obj [("next_cursor", optStr page.nextCursor), ("tasks", .arr page.tasks)]

/-! ### Failures -/

inductive CoordinationFanoutFailure where
  | capabilityMissing (capability message : String)
  | unreachable (message : String)

namespace CoordinationFanoutFailure

def fromRemoteError (e : RemoteError) : CoordinationFanoutFailure :=
  match e with
  | .capabilityMissing _ capability => .capabilityMissing capability e.display
  | _ => .unreachable e.display

def intoJson : CoordinationFanoutFailure → Json
  | .capabilityMissing capability message =>
    .obj [("capability", .str capability), ("capability_missing", .bool true),
      ("error", .str message)]
  | .unreachable message => .obj [("error", .str message), ("unreachable", .bool true)]

end CoordinationFanoutFailure

/-- `value[name] = v`, for an object. -/
def Json.set (j : Json) (name : String) (v : Json) : Json :=
  match j with
  | .obj fields => .obj (insertField name v fields)
  | other => other

/-- Error texts are cut to 256 bytes. -/
def taskFailure (error : RemoteError) (cursor : Option String) : Json :=
  let failure := (CoordinationFanoutFailure.fromRemoteError error).intoJson
  let failure :=
    if (failure.get? "capability_missing").isSome then
      failure.set "capability" (.str "coordination_task_list")
    else failure
  let failure :=
    match failure.get? "error" with
    | some (.str message) => failure.set "error" (.str (prefixWithin 256 message))
    | _ => failure
  failure.set "next_cursor" (optStr cursor)

/-- The record of an origin that has not answered. -/
def unanswered (cursor : Option String) : Json :=
  .obj [("budget_exhausted", .bool true),
    ("error",
      .str "Insufficient per-origin budget; retry this remote alone with include_local:false"),
    ("next_cursor", optStr cursor), ("tasks", .arr [])]

def exceeded (cursor : Option String) : Json :=
  .obj [("error", .str "Remote exceeded requested task page budget"),
    ("next_cursor", optStr cursor), ("unreachable", .bool true)]

def originValue (perOrigin : Nat) (cursor : Option String) :
    Except RemoteError CoordinationTasksResponse → Json
  | .ok page => if page.json.encodedSize > perOrigin then exceeded cursor else page.json
  | .error error => taskFailure error cursor

/-! ### The fan-out -/

def isizeMax : Nat := 2 ^ 63 - 1
def usizeMax : Nat := 2 ^ 64 - 1

/-- The length of `serde_json::to_vec`; a vector holds `isize::MAX` bytes. -/
def encodedLen (v : Json) : Except ToolError Nat :=
  if v.encodedSize ≤ isizeMax then .ok v.encodedSize else .error .capacityOverflow

def OrdMap.json (results : OrdMap String Json) : Json := .obj results.entries

def wingBlocksCoordinationFanout : Option String → Bool
  | none => false
  | some raw =>
    match WingId.normalized raw with
    | .ok canonical => canonical.str = sharedAgentDiaryWing || canonical.str = unscopedWing
    | .error _ => true

namespace FederationRouter

variable {Api : Type}

def tasksClosed (router : FederationRouter Api) (query : CoordinationTasksQuery) : Bool :=
  !router.coordinationFederationEnabled || wingBlocksCoordinationFanout query.wing

def tasksCandidates (router : FederationRouter Api) (selected : Option (List String)) :
    List (String × Api) :=
  router.coordinationCandidates.filter fun candidate => selected.all (candidate.1 ∈ ·)

def originQuery (query : CoordinationTasksQuery) (cursors : OrdMap String String) (perOrigin : Nat)
    (name : String) : CoordinationTasksQuery :=
  { query with cursor := cursors.get? name, byteBudget := some perOrigin }

def reserve (candidates : List (String × Api)) (cursors : OrdMap String String) :
    OrdMap String Json :=
  candidates.foldl (fun results c => results.insert c.1 (unanswered (cursors.get? c.1))) .empty

/-- One of the tasks has ended; one that panicked has no answer. -/
def joinNext (ask : Api → CoordinationTasksQuery →
      Option (Except RemoteError CoordinationTasksResponse))
    (query : CoordinationTasksQuery) (cursors : OrdMap String String) (perOrigin : Nat)
    (results : OrdMap String Json) (candidate : String × Api) : OrdMap String Json :=
  match ask candidate.2 (originQuery query cursors perOrigin candidate.1) with
  | none => results
  | some answer =>
    results.insert candidate.1 (originValue perOrigin (cursors.get? candidate.1) answer)

/-- The budget left by the reserved records, for each origin. -/
def perOriginBudget (budget overhead origins : Nat) : Nat :=
  min ((budget - overhead) / max origins 1) Coordination.taskListPageBytes

/-- The candidates are asked; the tasks end in the order of `joined`. -/
def askCandidates
    (ask : Api → CoordinationTasksQuery → Option (Except RemoteError CoordinationTasksResponse))
    (joined : List (String × Api) → List (String × Api)) (query : CoordinationTasksQuery)
    (cursors : OrdMap String String) (candidates : List (String × Api)) (budget : UInt64) :
    Except ToolError (OrdMap String Json) := do
  let results := reserve candidates cursors
  let len ← encodedLen results.json
  let overhead := min usizeMax (len + min usizeMax (candidates.length * 2048))
  if overhead > budget.toNat then
    throw (.invalidParams
      "task list origin metadata exceeds aggregate budget; select fewer remotes")
  let perOrigin := perOriginBudget budget.toNat overhead candidates.length
  if perOrigin < 128 then
    return results
  return (joined candidates).foldl (joinNext ask query cursors perOrigin) results

def coordinationTasksFanout (router : FederationRouter Api)
    (ask : Api → CoordinationTasksQuery → Option (Except RemoteError CoordinationTasksResponse))
    (joined : List (String × Api) → List (String × Api)) (query : CoordinationTasksQuery)
    (cursors : OrdMap String String) (selected : Option (List String)) (budget : UInt64) :
    Except ToolError (OrdMap String Json) :=
  if router.tasksClosed query then .ok .empty
  else
    let candidates := router.tasksCandidates selected
    let unknown := selected.any fun names =>
      names.any fun name => !candidates.any fun candidate => candidate.1 = name
    if unknown then
      .error (.invalidParams "remotes contains an unknown or non-coordination remote")
    else askCandidates ask joined query cursors candidates budget

end FederationRouter

/-! ### Records fit what is reserved for them -/

theorem cursor_size (cursor : Option String) :
    Json.fieldSize ("next_cursor", optStr cursor) = (optStr cursor).encodedSize + 14 := by
  have hname : (Json.quote "next_cursor").utf8ByteSize = 13 := by decide
  unfold Json.fieldSize
  dsimp only
  omega

theorem unanswered_size (cursor : Option String) :
    (unanswered cursor).encodedSize = (optStr cursor).encodedSize + 142 := by
  have hbool : Json.fieldSize ("budget_exhausted", .bool true) = 23 := by decide
  have herror : Json.fieldSize ("error",
      .str "Insufficient per-origin budget; retry this remote alone with include_local:false") =
      90 := by
    decide
  have htasks : Json.fieldSize ("tasks", .arr []) = 10 := by decide
  unfold unanswered
  rw [Json.encodedSize_obj]
  simp only [List.map_cons, List.map_nil, List.sum_cons, List.sum_nil, List.length_cons,
    List.length_nil, hbool, herror, htasks, cursor_size]
  omega

theorem exceeded_size (cursor : Option String) :
    (exceeded cursor).encodedSize ≤ (unanswered cursor).encodedSize := by
  have herror : Json.fieldSize ("error", .str "Remote exceeded requested task page budget") =
      52 := by
    decide
  have hbool : Json.fieldSize ("unreachable", .bool true) = 18 := by decide
  rw [unanswered_size]
  unfold exceeded
  rw [Json.encodedSize_obj]
  simp only [List.map_cons, List.map_nil, List.sum_cons, List.sum_nil, List.length_cons,
    List.length_nil, hbool, herror, cursor_size]
  omega

/-- The record of a failure: its error has 256 bytes at most. -/
theorem taskFailure_cases (error : RemoteError) (cursor : Option String) :
    ∃ message : String, message.utf8ByteSize ≤ 256 ∧
      (taskFailure error cursor =
          .obj [("error", .str message), ("next_cursor", optStr cursor),
            ("unreachable", .bool true)] ∨
        taskFailure error cursor =
          .obj [("capability", .str "coordination_task_list"), ("capability_missing", .bool true),
            ("error", .str message), ("next_cursor", optStr cursor)]) := by
  refine ⟨prefixWithin 256 error.display, prefixWithin_size _ _, ?_⟩
  unfold taskFailure
  cases error with
  | capabilityMissing remote capability =>
    right
    simp +decide [CoordinationFanoutFailure.fromRemoteError, CoordinationFanoutFailure.intoJson,
      Json.get?, List.lookup_cons, Json.set, Json.insertField]
  | _ =>
    left
    simp +decide [CoordinationFanoutFailure.fromRemoteError, CoordinationFanoutFailure.intoJson, Json.get?,
      List.lookup_cons, List.lookup_nil, Json.set, Json.insertField]

theorem taskFailure_size (error : RemoteError) (cursor : Option String) :
    (taskFailure error cursor).encodedSize ≤ (unanswered cursor).encodedSize + 2048 := by
  obtain ⟨message, hmessage, hshape⟩ := taskFailure_cases error cursor
  have herror : Json.fieldSize ("error", .str message) ≤ 1546 := by
    have hquote := Json.quote_size message
    have hname : (Json.quote "error").utf8ByteSize = 7 := by decide
    have hsame : (Json.str message).encodedSize = (Json.quote message).utf8ByteSize := rfl
    unfold Json.fieldSize
    dsimp only
    omega
  have hbool : Json.fieldSize ("unreachable", .bool true) = 18 := by decide
  have hcapability : Json.fieldSize ("capability", .str "coordination_task_list") = 37 := by decide
  have hmissing : Json.fieldSize ("capability_missing", .bool true) = 25 := by decide
  rw [unanswered_size]
  rcases hshape with hshape | hshape <;> rw [hshape, Json.encodedSize_obj] <;>
    simp only [List.map_cons, List.map_nil, List.sum_cons, List.sum_nil, List.length_cons,
      List.length_nil, hbool, hcapability, hmissing, cursor_size] <;> omega

theorem originValue_size (perOrigin : Nat) (cursor : Option String)
    (answer : Except RemoteError CoordinationTasksResponse) :
    (originValue perOrigin cursor answer).encodedSize ≤
      (unanswered cursor).encodedSize + (perOrigin + 2048) := by
  cases answer with
  | error error =>
    have hroom : 2048 ≤ perOrigin + 2048 := Nat.le_add_left _ _
    exact le_trans (taskFailure_size error cursor) (Nat.add_le_add_left hroom _)
  | ok page =>
    unfold originValue
    dsimp only
    split
    · exact le_trans (exceeded_size cursor) (Nat.le_add_right _ _)
    · rename_i hfits
      exact le_trans (Nat.le_of_not_lt hfits) (by omega)

end AgentPalace
