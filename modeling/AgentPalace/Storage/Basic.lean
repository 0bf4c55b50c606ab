import AgentPalace.Core.Provenance
import AgentPalace.Lib.Json
import AgentPalace.Lib.Table
import AgentPalace.Lib.Transaction

/-!
# What the stores share

Errors, the revisioned result of a compare-and-swap write, and the input checks
that the coordination store and the outbox repeat word for word. A `Host` is
what one call takes from outside the database: the clock, two fresh uuids (for
the row and for its audit event) and the hash function. Nothing assumes that
uuids are fresh: a collision is a refused statement.
-/

namespace AgentPalace

/-- Why a JSON document is not of an expected shape. -/
inductive DeError where
  | missingField (name : String)
  | invalidType (expected : String)
  | invalidLength (length : Nat)
  deriving DecidableEq

/-- Why `put_drawers` refuses its drawers. -/
inductive PutError where
  | duplicateDrawers (ids : List String)
  | invalidEmbeddingDimensions (drawerId : String) (expected actual : Nat)
  deriving DecidableEq

def PutError.display : PutError → String
  | duplicateDrawers ids =>
    "duplicate drawer ids are not allowed: [" ++ ", ".intercalate (ids.map Json.quote) ++ "]"
  | invalidEmbeddingDimensions drawerId expected actual =>
    "invalid embedding dimensions for drawer `" ++ drawerId ++
      s!"`: expected {expected}, got {actual}"

inductive StorageError where
  | invalidId (e : IdError)
  | sqlite (fault : SqlFault)
  | invariant (message : String)
  /-- An `Invariant` whose message ends in serde's description of `e`. -/
  | invariantDe (message : String) (e : DeError)
  | provenance (e : ProvenanceError)
  /-- A text is not the JSON of the type it is read at. -/
  | json
  /-- A query for one row found none. -/
  | noRows
  | put (e : PutError)
  deriving DecidableEq

/-- The result of a write that names the revision it expects. -/
inductive RevisionedWrite (α : Type) where
  | applied (value : α)
  | conflict (actualRevision : Option Int)
  deriving DecidableEq

structure Host where
  now : OffsetDateTime
  /-- `Uuid::new_v4().simple()` for a new row. -/
  uuid : String
  /-- The same for its audit event. -/
  eventUuid : String
  /-- `blake3::hash(..).to_hex()`. -/
  blake3 : String → String

/-- The text of a time: RFC 3339, or the Unix seconds when it has no such text. -/
def encodeTime (t : OffsetDateTime) : String :=
  if t.Formattable then t.rfc3339 else toString (t.nanos / 1000000000)

/-- The time of a text that `encodeTime` wrote. -/
def decodeTime (t : OffsetDateTime) : Except StorageError OffsetDateTime :=
  if t.Formattable then .ok t else .error (.sqlite .columnType)

def formatTime (t : OffsetDateTime) : Except StorageError Timestamp :=
  if h : t.Formattable then .ok ⟨t, h⟩
  else
    let component :=
      if ¬ (OffsetDateTime.year0 ≤ t.localNanos ∧ t.localNanos < OffsetDateTime.year10000) then
        "year"
      else if ¬ t.offset.natAbs < 86400 then "offset_hour"
      else "offset_second"
    .error (.invariant
      s!"The {component} component cannot be formatted into the requested format.")

theorem time_of_formatTime {t : OffsetDateTime} {s : Timestamp} (h : formatTime t = .ok s) :
    s.time = t := by
  unfold formatTime at h
  split at h
  · cases h; rfl
  · cases h

theorem formatTime_of_formattable {t : OffsetDateTime} (h : t.Formattable) :
    formatTime t = .ok ⟨t, h⟩ := dif_pos h

def formatTimeOpt (t : Option OffsetDateTime) : Except StorageError (Option Timestamp) :=
  match t with
  | none => .ok none
  | some t => (formatTime t).map some

/-- `Option::ok_or_else` for an invariant. -/
def okOr {α : Type} (o : Option α) (message : String) : Except StorageError α :=
  match o with
  | some a => .ok a
  | none => .error (.invariant message)

theorem okOr_ok {α : Type} {o : Option α} {message : String} {a : α} :
    okOr o message = .ok a ↔ o = some a := by
  cases o <;> simp [okOr]

def sql {α : Type} (e : Except SqlFault α) : Except StorageError α := e.mapError .sqlite

theorem sql_ok {α : Type} {e : Except SqlFault α} {a : α} : sql e = .ok a ↔ e = .ok a := by
  cases e <;> simp [sql, Except.mapError]

/-- A statement that writes what it computed, or faults. -/
theorem Tx.wp_sql {δ α β : Type} {Q : Except StorageError β → Session δ → Prop} {db w : δ}
    {e : δ → Except SqlFault α} {k : δ → α → δ} {f : Unit → Tx δ StorageError β}
    (hQ : Rejects (fun _ => True) Q db) (h : ∀ a, e w = .ok a → wp (f ()) Q ⟨db, k w a⟩) :
    wp ((exec fun d => do let a ← sql (e d); return k d a) >>= f) Q ⟨db, w⟩ := by
  refine wp_exec hQ (fun w' hw' => ?_) fun _ _ => trivial
  cases ha : e w with
  | error fault => rw [ha] at hw'; cases hw'
  | ok a => rw [ha] at hw'; cases hw'; exact h a ha

def maxIdentifierBytes : Nat := 256

def validateActor (v : String) : Except StorageError Unit :=
  if isBlank v then .error (.invariant "actor must not be empty") else .ok ()

theorem validateActor_ok {v : String} {u : Unit} (h : validateActor v = .ok u) :
    isBlank v = false := by
  unfold validateActor at h
  split at h
  · cases h
  · rename_i hblank
    simpa using hblank

def validateKey (v : String) : Except StorageError Unit :=
  if isBlank v || v.utf8ByteSize > maxIdentifierBytes then
    .error (.invariant "idempotency key must contain 1..=256 bytes")
  else .ok ()

/-- The two stores differ in the bound and in the name of it in the message. -/
def boundedJsonBy (maxBytes : Nat) (bound : String) (v : Json) : Except StorageError Unit :=
  if v.encodedSize > maxBytes then .error (.invariant s!"payload exceeds {bound}") else .ok ()

def leaseTtlMustBePositive : String := "lease ttl must be positive"

def validateTtl (ttl : Duration) : Except StorageError Unit :=
  if ttl ≤ 0 then .error (.invariant leaseTtlMustBePositive) else .ok ()

theorem validateTtl_ok {ttl : Duration} {u : Unit} (h : validateTtl ttl = .ok u) : 0 < ttl := by
  unfold validateTtl at h
  split at h
  · cases h
  · rename_i hpos
    exact Int.not_le.1 hpos

end AgentPalace
