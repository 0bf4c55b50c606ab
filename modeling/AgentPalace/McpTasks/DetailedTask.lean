import AgentPalace.Core.Time
import AgentPalace.Lib.Serde

/-!
# The tasks of the MCP Tasks extension

`DetailedTask` is a task with the payload its status asks for. It is written as a
flat object, the `RawDetailedTask`, and read through it: `tryFrom` checks which of
the payload fields are there. `CreateTaskResult` is the handle of a task that was
just made. `parse` stands for the RFC 3339 reader of the time crate.
-/

namespace AgentPalace.McpTasks

open Serde

inductive McpTaskStatus where
  | working
  | inputRequired
  | completed
  | failed
  | cancelled
  deriving DecidableEq

namespace McpTaskStatus

def wire : McpTaskStatus → String
  | working => "working"
  | inputRequired => "input_required"
  | completed => "completed"
  | failed => "failed"
  | cancelled => "cancelled"

def ofWire (s : String) : Option McpTaskStatus :=
  if s = "working" then some working
  else if s = "input_required" then some inputRequired
  else if s = "completed" then some completed
  else if s = "failed" then some failed
  else if s = "cancelled" then some cancelled
  else none

/-- A variant is its name, or an object with nothing under its name. -/
def read : Json → Option McpTaskStatus
  | .str s => ofWire s
  | .obj [(s, .null)] => ofWire s
  | _ => none

theorem read_wire (status : McpTaskStatus) : read (.str status.wire) = some status := by
  cases status <;> rfl

end McpTaskStatus

inductive McpTasksError where
  | missingField (status field : String)
  | unexpectedField (status field : String)
  | ttlOutOfRange
  deriving DecidableEq

/-! ## Values -/

def writeU64 (n : UInt64) : Json := .int n.toNat

def readU64 : Json → Option UInt64
  | .int n => if 0 ≤ n ∧ n < 18446744073709551616 then some (UInt64.ofNat n.toNat) else none
  | _ => none

theorem readU64_write (n : UInt64) : readU64 (writeU64 n) = some n := by
  have h : (n.toNat : Int) < 18446744073709551616 := by have := n.toNat_lt; omega
  rw [writeU64, readU64, if_pos ⟨Int.natCast_nonneg _, h⟩, Int.toNat_natCast, UInt64.ofNat_toNat]

def writeI64 (n : Int64) : Json := .int n.toInt

def readI64 : Json → Option Int64
  | .int n =>
    if -9223372036854775808 ≤ n ∧ n < 9223372036854775808 then some (Int64.ofInt n) else none
  | _ => none

theorem readI64_write (n : Int64) : readI64 (writeI64 n) = some n := by
  have hlow := n.le_toInt
  have hhigh := n.toInt_lt
  rw [writeI64, readI64, if_pos ⟨by omega, by omega⟩, Int64.ofInt_toInt]

def readMap : Json → Option (List (String × Json))
  | .obj fields => some fields
  | _ => none

/-- `time::serde::rfc3339`. -/
def writeTime (t : OffsetDateTime) : Option Json :=
  if t.Formattable then some (.str t.rfc3339) else none

def readTime (parse : String → Option OffsetDateTime) : Json → Option OffsetDateTime
  | .str s => parse s
  | _ => none

structure JsonRpcErrorObject where
  code : Int64
  message : String
  data : Option Json
  deriving DecidableEq

namespace JsonRpcErrorObject

def fields (e : JsonRpcErrorObject) : List (String × Option Json) :=
  [("code", some (writeI64 e.code)), ("message", some (.str e.message)), ("data", e.data)]

def names : List String := ["code", "message", "data"]

def serialize (e : JsonRpcErrorObject) : Json := Target.value.object e.fields

def deserialize (j : Json) : Option JsonRpcErrorObject := do
  let s ← source names j
  let code ← s.required "code" readI64
  let message ← s.required "message" str
  let data ← s.optional "data" some
  return ⟨code, message, data⟩

theorem deserialize_serialize (e : JsonRpcErrorObject) :
    deserialize e.serialize = some { e with data := dropNull e.data } := by
  have hnodup : (e.fields.map Prod.fst).Nodup := by
    show JsonRpcErrorObject.names.Nodup
    decide
  obtain ⟨s, hs, -, hget⟩ := source_object JsonRpcErrorObject.names .value e.fields hnodup
  have hcode := (Source.required_of_get (hget "code")).trans (readI64_write e.code)
  have hmessage : s.required "message" str = _ := Source.required_of_get (hget "message")
  have hdata := optional_value (hget "data")
  rw [serialize, deserialize, hs]
  simp only [Option.bind_eq_bind, Option.bind_some, hcode, hmessage, hdata]
  rfl

end JsonRpcErrorObject

/-! ## Tasks -/

structure DetailedTaskCommon where
  taskId : String
  statusMessage : Option String
  createdAt : OffsetDateTime
  lastUpdatedAt : OffsetDateTime
  ttlMs : Option UInt64
  pollIntervalMs : Option UInt64
  deriving DecidableEq

inductive DetailedTask where
  | working (common : DetailedTaskCommon)
  | inputRequired (common : DetailedTaskCommon) (inputRequests : List (String × Json))
  | completed (common : DetailedTaskCommon) (result : List (String × Json))
  | failed (common : DetailedTaskCommon) (error : JsonRpcErrorObject)
  | cancelled (common : DetailedTaskCommon)
  deriving DecidableEq

namespace DetailedTask

def common : DetailedTask → DetailedTaskCommon
  | working common | cancelled common => common
  | inputRequired common _ | completed common _ | failed common _ => common

end DetailedTask

structure RawDetailedTask where
  taskId : String
  status : McpTaskStatus
  statusMessage : Option String
  createdAt : OffsetDateTime
  lastUpdatedAt : OffsetDateTime
  ttlMs : Option UInt64
  pollIntervalMs : Option UInt64
  inputRequests : Option (List (String × Json))
  result : Option (List (String × Json))
  error : Option JsonRpcErrorObject
  deriving DecidableEq

def rejectPresent {α : Type} (field : Option α) (status name : String) :
    Except McpTasksError Unit :=
  if field.isSome then .error (.unexpectedField status name) else .ok ()

def orMissing {α : Type} (field : Option α) (status name : String) : Except McpTasksError α :=
  match field with
  | some a => .ok a
  | none => .error (.missingField status name)

namespace RawDetailedTask

def common (raw : RawDetailedTask) : DetailedTaskCommon :=
  ⟨raw.taskId, raw.statusMessage, raw.createdAt, raw.lastUpdatedAt, raw.ttlMs, raw.pollIntervalMs⟩

/-- `DetailedTask::try_from`. -/
def tryFrom (raw : RawDetailedTask) : Except McpTasksError DetailedTask :=
  match raw.status with
  | .working => do
    rejectPresent raw.inputRequests "working" "inputRequests"
    rejectPresent raw.result "working" "result"
    rejectPresent raw.error "working" "error"
    return .working raw.common
  | .inputRequired => do
    let inputRequests ← orMissing raw.inputRequests "input_required" "inputRequests"
    rejectPresent raw.result "input_required" "result"
    rejectPresent raw.error "input_required" "error"
    return .inputRequired raw.common inputRequests
  | .completed => do
    let result ← orMissing raw.result "completed" "result"
    rejectPresent raw.inputRequests "completed" "inputRequests"
    rejectPresent raw.error "completed" "error"
    return .completed raw.common result
  | .failed => do
    let error ← orMissing raw.error "failed" "error"
    rejectPresent raw.inputRequests "failed" "inputRequests"
    rejectPresent raw.result "failed" "result"
    return .failed raw.common error
  | .cancelled => do
    rejectPresent raw.inputRequests "cancelled" "inputRequests"
    rejectPresent raw.result "cancelled" "result"
    rejectPresent raw.error "cancelled" "error"
    return .cancelled raw.common

def base (status : McpTaskStatus) (common : DetailedTaskCommon) : RawDetailedTask :=
  { taskId := common.taskId, status := status, statusMessage := common.statusMessage
    createdAt := common.createdAt, lastUpdatedAt := common.lastUpdatedAt, ttlMs := common.ttlMs
    pollIntervalMs := common.pollIntervalMs, inputRequests := none, result := none, error := none }

/-- `RawDetailedTask::from`. -/
def ofDetailed : DetailedTask → RawDetailedTask
  | .working common => base .working common
  | .inputRequired common inputRequests =>
    { base .inputRequired common with inputRequests := some inputRequests }
  | .completed common result => { base .completed common with result := some result }
  | .failed common error => { base .failed common with error := some error }
  | .cancelled common => base .cancelled common

theorem tryFrom_ofDetailed (d : DetailedTask) : tryFrom (ofDetailed d) = .ok d := by
  cases d <;> rfl

/-- The fields that only some of the statuses have. -/
def payloads (raw : RawDetailedTask) : List (String × Bool) :=
  [("inputRequests", raw.inputRequests.isSome), ("result", raw.result.isSome),
    ("error", raw.error.isSome)]

end RawDetailedTask

def payloadOf : McpTaskStatus → Option String
  | .inputRequired => some "inputRequests"
  | .completed => some "result"
  | .failed => some "error"
  | .working | .cancelled => none

theorem tryFrom_isOk (raw : RawDetailedTask) :
    (∃ d, raw.tryFrom = .ok d) ↔
      ∀ f ∈ raw.payloads, (f.2 = true ↔ payloadOf raw.status = some f.1) := by
  obtain ⟨_, status, _, _, _, _, _, inputRequests, result, error⟩ := raw
  cases status <;> cases inputRequests <;> cases result <;> cases error <;>
    simp [RawDetailedTask.tryFrom, RawDetailedTask.payloads, payloadOf, rejectPresent, orMissing,
      bind, Except.bind, pure, Except.pure]

/-! ## The flat object -/

def writeMap (fields : List (String × Json)) : Json := .obj fields

/-- An `Option` that is not skipped. -/
def orNull (o : Option UInt64) : Json :=
  match o with
  | some n => writeU64 n
  | none => .null

def Carried (parse : String → Option OffsetDateTime) (t : OffsetDateTime) : Prop :=
  t.Formattable ∧ parse t.rfc3339 = some t

theorem writeTime_ok {t : OffsetDateTime} (h : t.Formattable) :
    writeTime t = some (.str t.rfc3339) := if_pos h

theorem nullable_orNull {s : Source} {name : String} {o : Option UInt64}
    (h : s.get name = some (orNull o)) : s.nullable name readU64 = some o := by
  rw [Source.nullable, if_neg (by rw [h]; exact fun h => nomatch h.2), Source.optional, h]
  cases o with
  | none => rfl
  | some n =>
    show (readU64 (writeU64 n)).map some = some (some n)
    rw [readU64_write, Option.map_some]

theorem optional_u64 {s : Source} {name : String} {o : Option UInt64}
    (h : s.get name = o.map writeU64) : s.optional name readU64 = some o :=
  Source.optional_write h (fun _ _ => readU64_write _) fun _ _ => nofun

theorem optional_map {s : Source} {name : String} {o : Option (List (String × Json))}
    (h : s.get name = o.map writeMap) : s.optional name readMap = some o :=
  Source.optional_write h (fun _ _ => rfl) fun _ _ => nofun

theorem optional_error {s : Source} {name : String} {o : Option JsonRpcErrorObject}
    (h : s.get name = o.map JsonRpcErrorObject.serialize) :
    s.optional name JsonRpcErrorObject.deserialize =
      some (o.map fun e => { e with data := dropNull e.data }) := by
  rw [Source.optional, h]
  cases o with
  | none => rfl
  | some e => exact congrArg (Option.map some) e.deserialize_serialize

namespace RawDetailedTask

def fields (raw : RawDetailedTask) (createdAt lastUpdatedAt : Json) :
    List (String × Option Json) :=
  [("taskId", some (.str raw.taskId)), ("status", some (.str raw.status.wire)),
    ("statusMessage", text raw.statusMessage), ("createdAt", some createdAt),
    ("lastUpdatedAt", some lastUpdatedAt), ("ttlMs", some (orNull raw.ttlMs)),
    ("pollIntervalMs", raw.pollIntervalMs.map writeU64),
    ("inputRequests", raw.inputRequests.map writeMap), ("result", raw.result.map writeMap),
    ("error", raw.error.map JsonRpcErrorObject.serialize)]

def names : List String :=
  ["taskId", "status", "statusMessage", "createdAt", "lastUpdatedAt", "ttlMs", "pollIntervalMs",
    "inputRequests", "result", "error"]

def serialize (raw : RawDetailedTask) : Option Json := do
  let createdAt ← writeTime raw.createdAt
  let lastUpdatedAt ← writeTime raw.lastUpdatedAt
  return Target.value.object (raw.fields createdAt lastUpdatedAt)

variable (parse : String → Option OffsetDateTime)

def read (s : Source) : Option RawDetailedTask := do
  let taskId ← s.required "taskId" str
  let status ← s.required "status" McpTaskStatus.read
  let statusMessage ← s.optional "statusMessage" str
  let createdAt ← s.required "createdAt" (readTime parse)
  let lastUpdatedAt ← s.required "lastUpdatedAt" (readTime parse)
  let ttlMs ← s.nullable "ttlMs" readU64
  let pollIntervalMs ← s.optional "pollIntervalMs" readU64
  let inputRequests ← s.optional "inputRequests" readMap
  let result ← s.optional "result" readMap
  let error ← s.optional "error" JsonRpcErrorObject.deserialize
  return ⟨taskId, status, statusMessage, createdAt, lastUpdatedAt, ttlMs, pollIntervalMs,
    inputRequests, result, error⟩

def deserialize (j : Json) : Option RawDetailedTask := (source names j).bind (read parse)

theorem deserialize_serialize {parse : String → Option OffsetDateTime} {raw : RawDetailedTask}
    (hcreated : Carried parse raw.createdAt) (hupdated : Carried parse raw.lastUpdatedAt) :
    raw.serialize.bind (deserialize parse) =
      some { raw with error := raw.error.map fun e => { e with data := dropNull e.data } } := by
  have hnodup (c u : Json) : ((raw.fields c u).map Prod.fst).Nodup := by
    show RawDetailedTask.names.Nodup
    decide
  obtain ⟨s, hs, -, hget⟩ := source_object RawDetailedTask.names .value _
    (hnodup (.str raw.createdAt.rfc3339) (.str raw.lastUpdatedAt.rfc3339))
  have htaskId : s.required "taskId" str = _ := Source.required_of_get (hget "taskId")
  have hstatus :=
    (Source.required_of_get (hget "status")).trans (McpTaskStatus.read_wire raw.status)
  have hmessage := optional_text (hget "statusMessage")
  have hcreatedAt : s.required "createdAt" (readTime parse) = some raw.createdAt :=
    (Source.required_of_get (hget "createdAt")).trans hcreated.2
  have hlastUpdatedAt : s.required "lastUpdatedAt" (readTime parse) = some raw.lastUpdatedAt :=
    (Source.required_of_get (hget "lastUpdatedAt")).trans hupdated.2
  have httl := nullable_orNull (hget "ttlMs")
  have hpoll := optional_u64 (hget "pollIntervalMs")
  have hrequests := optional_map (hget "inputRequests")
  have hresult := optional_map (hget "result")
  have herror := optional_error (hget "error")
  rw [serialize, writeTime_ok hcreated.1, writeTime_ok hupdated.1]
  simp only [Option.bind_eq_bind, Option.bind_some, Option.pure_def]
  rw [deserialize, hs, Option.bind_some, read]
  simp only [Option.bind_eq_bind, Option.bind_some, htaskId, hstatus, hmessage, hcreatedAt,
    hlastUpdatedAt, httl, hpoll, hrequests, hresult, herror]
  rfl

end RawDetailedTask

namespace DetailedTask

def serialize (d : DetailedTask) : Option Json := (RawDetailedTask.ofDetailed d).serialize

def deserialize (parse : String → Option OffsetDateTime) (j : Json) : Option DetailedTask := do
  let raw ← RawDetailedTask.deserialize parse j
  raw.tryFrom.toOption

/-- The optional JSON value of the error of a task. -/
def errorData : DetailedTask → Option Json
  | failed _ error => error.data
  | _ => none

/-- The task as it is read: null data of an error is none. -/
def readBack : DetailedTask → DetailedTask
  | failed common error => failed common { error with data := dropNull error.data }
  | d => d

theorem readBack_eq {d : DetailedTask} : d.readBack = d ↔ d.errorData ≠ some .null := by
  cases d with
  | failed common error =>
    obtain ⟨code, message, data⟩ := error
    simp [readBack, errorData, dropNull_eq]
  | _ => simp [readBack, errorData]

theorem deserialize_serialize {parse : String → Option OffsetDateTime} {d : DetailedTask}
    (hcreated : Carried parse d.common.createdAt)
    (hupdated : Carried parse d.common.lastUpdatedAt) :
    d.serialize.bind (deserialize parse) = some d.readBack := by
  have hraw : (RawDetailedTask.ofDetailed d).serialize.bind (RawDetailedTask.deserialize parse) =
      some (RawDetailedTask.ofDetailed d.readBack) := by
    rw [RawDetailedTask.deserialize_serialize (by cases d <;> exact hcreated)
      (by cases d <;> exact hupdated)]
    cases d <;> rfl
  have hbind : d.serialize.bind (deserialize parse) =
      (d.serialize.bind (RawDetailedTask.deserialize parse)).bind fun raw =>
        raw.tryFrom.toOption := by
    rw [Option.bind_assoc]
    rfl
  rw [hbind, serialize, hraw, Option.bind_some, RawDetailedTask.tryFrom_ofDetailed]
  rfl

end DetailedTask

/-! ## Objects with well-typed fields -/

/-- The value under a name is of a type, unless it is missing or null. -/
def OptionalField (fields : List (String × Json)) (name : String) (typed : Json → Prop) : Prop :=
  ∀ v, fields.lookup name = some v → v = .null ∨ typed v

def Present (fields : List (String × Json)) (name : String) : Prop :=
  ∃ v, fields.lookup name = some v ∧ v ≠ .null

structure WellTyped (parse : String → Option OffsetDateTime) (fields : List (String × Json))
    (status : McpTaskStatus) : Prop where
  taskId : ∃ s, fields.lookup "taskId" = some (.str s)
  status : ∃ v, fields.lookup "status" = some v ∧ McpTaskStatus.read v = some status
  statusMessage : OptionalField fields "statusMessage" fun v => ∃ s, v = .str s
  createdAt : ∃ s t, fields.lookup "createdAt" = some (.str s) ∧ parse s = some t
  lastUpdatedAt : ∃ s t, fields.lookup "lastUpdatedAt" = some (.str s) ∧ parse s = some t
  ttlMs : OptionalField fields "ttlMs" fun v => ∃ n, v = writeU64 n
  pollIntervalMs : OptionalField fields "pollIntervalMs" fun v => ∃ n, v = writeU64 n
  inputRequests : OptionalField fields "inputRequests" fun v => ∃ fs, v = .obj fs
  result : OptionalField fields "result" fun v => ∃ fs, v = .obj fs
  error : OptionalField fields "error" fun v => ∃ e, JsonRpcErrorObject.deserialize v = some e

theorem optional_of_typed {α : Type} {s : Source} {fields : List (String × Json)} {name : String}
    {read : Json → Option α} {typed : Json → Prop} (hget : s.get name = fields.lookup name)
    (h : OptionalField fields name typed) (hread : ∀ v, typed v → ∃ a, read v = some a) :
    ∃ o, s.optional name read = some o ∧ (o.isSome = true ↔ Present fields name) := by
  rw [Source.optional, hget]
  cases hlookup : fields.lookup name with
  | none => exact ⟨none, rfl, by simp [Present, hlookup]⟩
  | some v =>
    by_cases hnull : v = .null
    · subst hnull
      exact ⟨none, rfl, by simp [Present, hlookup]⟩
    · obtain ⟨a, ha⟩ := hread v ((h v hlookup).resolve_left hnull)
      refine ⟨some a, ?_, by simp [Present, hlookup, hnull]⟩
      cases v <;> first | exact absurd rfl hnull | exact congrArg (Option.map some) ha

theorem WellTyped.raw {parse : String → Option OffsetDateTime} {fields : List (String × Json)}
    {status : McpTaskStatus} (h : WellTyped parse fields status) :
    ∃ raw, RawDetailedTask.deserialize parse (.obj fields) = some raw ∧ raw.status = status ∧
      ∀ f ∈ raw.payloads, (f.2 = true ↔ Present fields f.1) := by
  let s : Source := ⟨fun name => fields.lookup name, false⟩
  have hget (name : String) : s.get name = fields.lookup name := rfl
  obtain ⟨taskId, htaskId⟩ := h.taskId
  obtain ⟨v, hv, hstatus⟩ := h.status
  obtain ⟨c, createdAt, hc, hcreated⟩ := h.createdAt
  obtain ⟨u, lastUpdatedAt, hu, hupdated⟩ := h.lastUpdatedAt
  have hstr : ∀ v : Json, (∃ t, v = .str t) → ∃ a, str v = some a := by
    rintro _ ⟨t, rfl⟩
    exact ⟨t, rfl⟩
  have hu64 : ∀ v : Json, (∃ n, v = writeU64 n) → ∃ a, readU64 v = some a := by
    rintro _ ⟨n, rfl⟩
    exact ⟨n, readU64_write n⟩
  have hmap : ∀ v : Json, (∃ fs, v = .obj fs) → ∃ a, readMap v = some a := by
    rintro _ ⟨fs, rfl⟩
    exact ⟨fs, rfl⟩
  obtain ⟨message, hmessage, -⟩ := optional_of_typed (hget _) h.statusMessage hstr
  obtain ⟨ttl, httl, -⟩ := optional_of_typed (hget _) h.ttlMs hu64
  obtain ⟨poll, hpoll, -⟩ := optional_of_typed (hget _) h.pollIntervalMs hu64
  obtain ⟨requests, hrequests, hrequests'⟩ := optional_of_typed (hget _) h.inputRequests hmap
  obtain ⟨result, hresult, hresult'⟩ := optional_of_typed (hget _) h.result hmap
  obtain ⟨error, herror, herror'⟩ := optional_of_typed (hget _) h.error fun _ he => he
  have htaskId : s.required "taskId" str = some taskId := by
    rw [Source.required, hget, htaskId]; rfl
  have hstatus : s.required "status" McpTaskStatus.read = some status := by
    rw [Source.required, hget, hv, Option.bind_some, hstatus]
  have hcreated : s.required "createdAt" (readTime parse) = some createdAt := by
    rw [Source.required, hget, hc, Option.bind_some, readTime, hcreated]
  have hupdated : s.required "lastUpdatedAt" (readTime parse) = some lastUpdatedAt := by
    rw [Source.required, hget, hu, Option.bind_some, readTime, hupdated]
  have httl : s.nullable "ttlMs" readU64 = some ttl := by
    rw [Source.nullable, if_neg (fun h => Bool.false_ne_true h.1), httl]
  refine ⟨⟨taskId, status, message, createdAt, lastUpdatedAt, ttl, poll, requests, result, error⟩,
    ?_, rfl, ?_⟩
  · show RawDetailedTask.read parse s = _
    rw [RawDetailedTask.read]
    simp only [Option.bind_eq_bind, Option.bind_some, htaskId, hstatus, hmessage, hcreated,
      hupdated, httl, hpoll, hrequests, hresult, herror]
    rfl
  · simp only [RawDetailedTask.payloads, List.forall_mem_cons, List.not_mem_nil, false_implies,
      implies_true, and_true]
    exact ⟨hrequests', hresult', herror'⟩

/-- The payload fields that are there are the one of the status. -/
def ExactPayload (fields : List (String × Json)) (status : McpTaskStatus) : Prop :=
  ∀ name ∈ ["inputRequests", "result", "error"],
    (Present fields name ↔ payloadOf status = some name)

theorem deserialize_isSome {parse : String → Option OffsetDateTime}
    {fields : List (String × Json)} {status : McpTaskStatus} (h : WellTyped parse fields status) :
    (DetailedTask.deserialize parse (.obj fields)).isSome ↔ ExactPayload fields status := by
  obtain ⟨raw, hraw, hstatus, hpayloads⟩ := h.raw
  have hok : (DetailedTask.deserialize parse (.obj fields)).isSome ↔ ∃ d, raw.tryFrom = .ok d := by
    rw [DetailedTask.deserialize, hraw]
    cases htry : raw.tryFrom <;> simp [Except.toOption, htry]
  rw [hok, tryFrom_isOk, hstatus, ExactPayload]
  simp only [RawDetailedTask.payloads, List.forall_mem_cons, List.not_mem_nil, false_implies,
    implies_true, and_true] at hpayloads ⊢
  rw [hpayloads.1, hpayloads.2.1, hpayloads.2.2]

/-! ## Handles -/

structure CreateTaskResult where
  taskId : String
  status : McpTaskStatus
  statusMessage : Option String
  createdAt : OffsetDateTime
  lastUpdatedAt : OffsetDateTime
  ttlMs : Option UInt64
  pollIntervalMs : Option UInt64
  /-- The field `_meta`. -/
  metaValue : Option Json
  deriving DecidableEq

/-- `TaskResultType`: nothing but the text `task`. -/
def readResultType : Json → Option Unit
  | .str s => if s = "task" then some () else none
  | _ => none

namespace CreateTaskResult

def fields (r : CreateTaskResult) (createdAt lastUpdatedAt : Json) : List (String × Option Json) :=
  [("taskId", some (.str r.taskId)), ("status", some (.str r.status.wire)),
    ("statusMessage", text r.statusMessage), ("createdAt", some createdAt),
    ("lastUpdatedAt", some lastUpdatedAt), ("ttlMs", some (orNull r.ttlMs)),
    ("pollIntervalMs", r.pollIntervalMs.map writeU64), ("_meta", r.metaValue),
    ("resultType", some (.str "task"))]

def names : List String :=
  ["taskId", "status", "statusMessage", "createdAt", "lastUpdatedAt", "ttlMs", "pollIntervalMs",
    "_meta", "resultType"]

def serialize (r : CreateTaskResult) : Option Json := do
  let createdAt ← writeTime r.createdAt
  let lastUpdatedAt ← writeTime r.lastUpdatedAt
  return Target.value.object (r.fields createdAt lastUpdatedAt)

def read (parse : String → Option OffsetDateTime) (s : Source) : Option CreateTaskResult := do
  let taskId ← s.required "taskId" str
  let status ← s.required "status" McpTaskStatus.read
  let statusMessage ← s.optional "statusMessage" str
  let createdAt ← s.required "createdAt" (readTime parse)
  let lastUpdatedAt ← s.required "lastUpdatedAt" (readTime parse)
  let ttlMs ← s.nullable "ttlMs" readU64
  let pollIntervalMs ← s.optional "pollIntervalMs" readU64
  let metaValue ← s.optional "_meta" some
  let _ ← s.required "resultType" readResultType
  return ⟨taskId, status, statusMessage, createdAt, lastUpdatedAt, ttlMs, pollIntervalMs, metaValue⟩

def deserialize (parse : String → Option OffsetDateTime) (j : Json) : Option CreateTaskResult :=
  (source names j).bind (read parse)

theorem deserialize_serialize {parse : String → Option OffsetDateTime} {r : CreateTaskResult}
    (hcreated : Carried parse r.createdAt) (hupdated : Carried parse r.lastUpdatedAt) :
    r.serialize.bind (deserialize parse) = some { r with metaValue := dropNull r.metaValue } := by
  have hnodup (c u : Json) : ((r.fields c u).map Prod.fst).Nodup := by
    show CreateTaskResult.names.Nodup
    decide
  obtain ⟨s, hs, -, hget⟩ := source_object CreateTaskResult.names .value _
    (hnodup (.str r.createdAt.rfc3339) (.str r.lastUpdatedAt.rfc3339))
  have htaskId : s.required "taskId" str = _ := Source.required_of_get (hget "taskId")
  have hstatus := (Source.required_of_get (hget "status")).trans (McpTaskStatus.read_wire r.status)
  have hmessage := optional_text (hget "statusMessage")
  have hcreatedAt : s.required "createdAt" (readTime parse) = some r.createdAt :=
    (Source.required_of_get (hget "createdAt")).trans hcreated.2
  have hlastUpdatedAt : s.required "lastUpdatedAt" (readTime parse) = some r.lastUpdatedAt :=
    (Source.required_of_get (hget "lastUpdatedAt")).trans hupdated.2
  have httl := nullable_orNull (hget "ttlMs")
  have hpoll := optional_u64 (hget "pollIntervalMs")
  have hmeta := optional_value (hget "_meta")
  have htype : s.required "resultType" readResultType = some () :=
    Source.required_of_get (hget "resultType")
  rw [serialize, writeTime_ok hcreated.1, writeTime_ok hupdated.1]
  simp only [Option.bind_eq_bind, Option.bind_some, Option.pure_def]
  rw [deserialize, hs, Option.bind_some, read]
  simp only [Option.bind_eq_bind, Option.bind_some, htaskId, hstatus, hmessage, hcreatedAt,
    hlastUpdatedAt, httl, hpoll, hmeta, htype]
  rfl

end CreateTaskResult

/-! ## Retention -/

def ttlMsToDeadline (createdAt : OffsetDateTime) (ttlMs : Option UInt64) :
    Except McpTasksError (Option OffsetDateTime) :=
  match ttlMs with
  | none => .ok none
  | some ttlMs =>
    -- `i64::try_from`
    if ttlMs.toNat < 9223372036854775808 then
      match createdAt.checkedAdd (ttlMs.toNat * 1000000) with
      | some expiresAt => .ok (some expiresAt)
      | none => .error .ttlOutOfRange
    else .error .ttlOutOfRange

def deadlineToTtlMs (createdAt : OffsetDateTime) (deadline : Option OffsetDateTime) :
    Option UInt64 :=
  deadline.map fun deadline =>
    -- `whole_milliseconds` cuts towards zero
    let millis := (deadline.nanos - createdAt.nanos).tdiv 1000000
    if millis < 0 then 0
    else if millis < 18446744073709551616 then UInt64.ofNat millis.toNat
    else UInt64.ofNat 18446744073709551615

theorem deadlineToTtlMs_undoes {createdAt : OffsetDateTime} {ttlMs : Option UInt64}
    {deadline : Option OffsetDateTime} (h : ttlMsToDeadline createdAt ttlMs = .ok deadline) :
    deadlineToTtlMs createdAt deadline = ttlMs := by
  cases ttlMs with
  | none =>
    cases h
    rfl
  | some n =>
    simp only [ttlMsToDeadline] at h
    split at h
    · rename_i hlt
      split at h
      · rename_i expiresAt hadd
        cases h
        have hnanos := OffsetDateTime.nanos_checkedAdd hadd
        have hmillis : (expiresAt.nanos - createdAt.nanos).tdiv 1000000 = n.toNat := by
          have hsub : expiresAt.nanos - createdAt.nanos = n.toNat * 1000000 := by omega
          rw [hsub]
          exact Int.mul_tdiv_cancel _ (by decide)
        have h64 : (n.toNat : Int) < 18446744073709551616 := by omega
        simp only [deadlineToTtlMs, Option.map_some, hmillis, Int.toNat_natCast, if_pos h64,
          UInt64.ofNat_toNat, if_neg (Int.not_lt.2 (Int.natCast_nonneg n.toNat))]
      · cases h
    · cases h

/-- As documents (`to_value` and `from_value`), a task comes back just when the data
of its error is not null, and a handle just when its `_meta` is not. An object with
well-typed fields is a task just when it has the payload of its status and no other. -/
theorem task_back_iff (parse : String → Option OffsetDateTime) :
    (∀ d : DetailedTask, Carried parse d.common.createdAt →
      Carried parse d.common.lastUpdatedAt →
      (d.serialize.bind (DetailedTask.deserialize parse) = some d ↔ d.errorData ≠ some .null)) ∧
    (∀ fields status, WellTyped parse fields status →
      ((DetailedTask.deserialize parse (.obj fields)).isSome ↔ ExactPayload fields status)) ∧
    (∀ r : CreateTaskResult, Carried parse r.createdAt → Carried parse r.lastUpdatedAt →
      (r.serialize.bind (CreateTaskResult.deserialize parse) = some r ↔
        r.metaValue ≠ some .null)) ∧
    (∀ createdAt ttlMs deadline, ttlMsToDeadline createdAt ttlMs = .ok deadline →
      deadlineToTtlMs createdAt deadline = ttlMs) := by
  refine ⟨fun d hcreated hupdated => ?_, fun fields status h => deserialize_isSome h,
    fun r hcreated hupdated => ?_, fun _ _ _ => deadlineToTtlMs_undoes⟩
  · rw [DetailedTask.deserialize_serialize hcreated hupdated, Option.some.injEq,
      DetailedTask.readBack_eq]
  · rw [CreateTaskResult.deserialize_serialize hcreated hupdated, Option.some.injEq, ← dropNull_eq]
    obtain ⟨_, _, _, _, _, _, _, _⟩ := r
    simp

def sampleFailed (data : Option Json) : DetailedTask :=
  .failed ⟨"task_1", none, ⟨0, 0⟩, ⟨0, 0⟩, some 60000, none⟩ ⟨-32603, "boom", data⟩

theorem task_back_sample :
    (sampleFailed (some (.int 7))).serialize.bind (DetailedTask.deserialize fun _ => some ⟨0, 0⟩) =
      some (sampleFailed (some (.int 7))) :=
  ((task_back_iff fun _ => some ⟨0, 0⟩).1 (sampleFailed (some (.int 7))) ⟨by decide, rfl⟩
    ⟨by decide, rfl⟩).2 (by decide)

/-- Null data of an error is lost. -/
theorem null_data_dropped :
    (sampleFailed (some .null)).serialize.bind (DetailedTask.deserialize fun _ => some ⟨0, 0⟩) =
        some (sampleFailed none) ∧
      sampleFailed none ≠ sampleFailed (some .null) :=
  ⟨DetailedTask.deserialize_serialize ⟨by decide, rfl⟩ ⟨by decide, rfl⟩, by decide⟩

end AgentPalace.McpTasks
