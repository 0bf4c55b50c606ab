import AgentPalace.ChangeLog.TimeOrder
import AgentPalace.Lib.Decimal
import AgentPalace.Lib.Paging
import AgentPalace.Server.Access

/-!
# The change feed

`routeChanges` answers one page of the change log: the storage layer cuts the
page and takes the cursor from all rows, and the handler then drops the events
the token may not see. `followChanges` is a client that feeds every cursor back.
`fromStr` stands for the JSON parser and `parse` for the RFC 3339 parser.
-/

namespace AgentPalace.Server

open ChangeLog

def defaultPageLimit : Nat := 50
def maxPageLimit : Nat := 200

/-- `value.get(name).and_then(Value::as_str)`. -/
def strField (value : Json) (name : String) : Option String :=
  match value.get? name with
  | some (.str s) => some s
  | _ => none

def stripPrefix (pre s : String) : Option String :=
  if pre.toList.isPrefixOf s.toList then some (String.ofList (s.toList.drop pre.toList.length))
  else none

def winglessEventTypes : List String :=
  ["kg_fact_added", "kg_fact_invalidated", "identity_updated", "lineage_set",
    "lineage_migration_recorded", "self_observation_proposed", "self_observation_reviewed"]

structure ChangesQuery where
  since : Option String := none
  limit : Option Nat := none
  cursor : Option String := none

structure ChangeEventDto where
  eventType : String
  occurredAt : String
  entityId : String
  actor : Option String
  details : Option Json
  deriving DecidableEq

structure ChangesResponse where
  events : List ChangeEventDto
  nextCursor : Option String
  deriving DecidableEq

def pageLimit (limit : Option Nat) : Nat := min (max (limit.getD defaultPageLimit) 1) maxPageLimit

theorem pageLimit_pos (limit : Option Nat) : 0 < pageLimit limit := by
  unfold pageLimit maxPageLimit
  omega

/-- `dt.format(&Rfc3339)`. -/
def formatRfc3339 (t : OffsetDateTime) : Except ServerError String :=
  match formatTime t with
  | .ok s => .ok s.text
  | .error (.invariant message) => .error (.invalidParams message)
  | .error e => .error (.storage e)

theorem formatRfc3339_ok {t : OffsetDateTime} (h : t.Formattable) :
    formatRfc3339 t = .ok t.rfc3339 := by
  rw [formatRfc3339, formatTime_of_formattable h]
  rfl

section
variable (fromStr : String → Option Json)

def isDiaryChangeEvent (event : ChangeEvent) : Bool :=
  if event.eventType = "diary_written" then true
  else
    match event.detailsJson.bind fromStr with
    | some value =>
      isDiaryWingOrRoom ((strField value "wing").getD "") ((strField value "room").getD "")
    | none => false

def changeEventWing (event : ChangeEvent) : Option String :=
  match stripPrefix "mine_batch:" event.entityId with
  | some wing => some wing
  | none => (event.detailsJson.bind fromStr).bind fun value => strField value "wing"

def changeEventVisible (event : ChangeEvent) (visibility : WingVisibility) : Bool :=
  match changeEventWing fromStr event with
  | some wing => visibility.contains wing
  | none => visibility = .all || event.eventType ∈ winglessEventTypes

def sees (auth : AuthIdentity) (event : ChangeEvent) : Bool :=
  !isDiaryChangeEvent fromStr event &&
    changeEventVisible fromStr event (auth.visibleWings .read)

def changeEventToDto (event : ChangeEvent) : Except ServerError ChangeEventDto := do
  let details ← event.detailsJson.mapM fun text =>
    match fromStr text with
    | some value => Except.ok (ε := ServerError) value
    | none => .error .json
  let occurredAt ← formatRfc3339 event.occurredAt
  return { eventType := event.eventType, occurredAt, entityId := event.entityId
           actor := event.actor, details }

/-! ## Cursors -/

def encodeCursor (cursor : ChangeCursor) : String :=
  encodeTime cursor.occurredAt ++ "|" ++ toString cursor.rowid

variable (parse : String → Option OffsetDateTime)

/-- The text is split at its last `|`. -/
def decodeCursor (s : String) : Except ServerError ChangeCursor :=
  if '|' ∈ s.toList then
    let rowidPart := String.ofList (s.toList.reverse.takeWhile (· ≠ '|')).reverse
    let tsPart := String.ofList ((s.toList.reverse.dropWhile (· ≠ '|')).drop 1).reverse
    match parse tsPart with
    | none =>
      .error (.invalidParams s!"invalid cursor timestamp `{tsPart}`; expected RFC 3339")
    | some occurredAt =>
      match parseI64 rowidPart with
      | none => .error (.invalidParams s!"invalid cursor rowid `{rowidPart}`")
      | some rowid => .ok ⟨occurredAt, rowid⟩
  else .error (.invalidParams s!"invalid cursor `{s}`; expected `timestamp|rowid`")

def parseSince (since : Option String) : Except ServerError (Option OffsetDateTime) :=
  match since with
  | none => .ok none
  | some s =>
    match parse s with
    | some t => .ok (some t)
    | none =>
      .error (.invalidParams
        s!"invalid `since` timestamp `{s}`; expected RFC 3339 e.g. 2026-01-01T00:00:00Z")

/-! ## The route -/

def routeChanges (db : ChangeDb) (auth : AuthIdentity) (params : ChangesQuery) :
    Except ServerError ChangesResponse := do
  let limit := pageLimit params.limit
  let since ← parseSince parse params.since
  let cursor ← params.cursor.mapM (decodeCursor parse)
  let page ← (getChangesPage db since cursor limit).mapError .storage
  let events ← (page.events.filter (sees fromStr auth)).mapM (changeEventToDto fromStr)
  return { events, nextCursor := page.nextCursor.map encodeCursor }

/-- One call of a client, with the cursor to go on from. -/
def fetchChanges (db : ChangeDb) (auth : AuthIdentity) (since : Option String)
    (limit : Option Nat) (cursor : Option String) :
    Except ServerError (ChangesResponse × Option (Option String)) := do
  let response ← routeChanges fromStr parse db auth { since, limit, cursor }
  return (response, response.nextCursor.map some)

/-- A client that follows the cursors from `since` on, for at most so many calls. -/
def followChanges (db : ChangeDb) (auth : AuthIdentity) (since : Option String)
    (limit : Option Nat) (calls : Nat) : Option (Except ServerError (List ChangesResponse)) :=
  collect (fetchChanges fromStr parse db auth since limit) calls none

/-! ## Events as the server writes them -/

/-- The time has an RFC 3339 text, which is read back, and the details are JSON. -/
structure Sendable (event : ChangeEvent) : Prop where
  formattable : event.occurredAt.Formattable
  reads : parse event.occurredAt.rfc3339 = some event.occurredAt
  details : ∀ text ∈ event.detailsJson, (fromStr text).isSome

def eventDto (event : ChangeEvent) : ChangeEventDto :=
  { eventType := event.eventType, occurredAt := event.occurredAt.rfc3339
    entityId := event.entityId, actor := event.actor, details := event.detailsJson.bind fromStr }

end

end AgentPalace.Server
