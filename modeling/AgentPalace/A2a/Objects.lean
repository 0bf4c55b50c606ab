import AgentPalace.Lib.Serde

/-!
# A2A messages and artifacts in storage

A message is stored as a JSON document and an artifact as its text. Storage keeps
the document of a message as text too, so `fromStr`, the reader of text, stands
between the writer and the reader of both.

An object comes back unchanged just when it `Survives`: its optional JSON values
are not null, since a field that is null reads as one that is missing, and the
text reader gives them back.
-/

namespace AgentPalace.A2a

open Serde

inductive A2aError where
  /-- The detail is missing where it is the text of the JSON reader. -/
  | invalidStoredShape (shape : String) (detail : Option String)
  | invalidPart (setCount : Nat)
  | emptyArtifactParts
  deriving DecidableEq

def A2aError.detail : A2aError → Option String
  | invalidPart n =>
    some ("A2A Part must set exactly one of text/raw/url/data, but " ++ toString n ++ " were set")
  | emptyArtifactParts =>
    some "A2A Artifact `parts` must contain at least one part, but it was empty"
  | invalidStoredShape _ detail => detail

inductive A2aRole where
  | unspecified
  | user
  | agent
  deriving DecidableEq

namespace A2aRole

def wire : A2aRole → String
  | unspecified => "ROLE_UNSPECIFIED"
  | user => "ROLE_USER"
  | agent => "ROLE_AGENT"

def ofWire (s : String) : Option A2aRole :=
  if s = "ROLE_UNSPECIFIED" then some unspecified
  else if s = "ROLE_USER" then some user
  else if s = "ROLE_AGENT" then some agent
  else none

/-- A variant is its name, or an object with nothing under its name. -/
def fromValue : Json → Option A2aRole
  | .str s => ofWire s
  | .obj [(s, .null)] => ofWire s
  | _ => none

theorem fromValue_wire (r : A2aRole) : fromValue (.str r.wire) = some r := by
  cases r <;> rfl

end A2aRole

/-! ## Parts -/

structure A2aPart where
  text : Option String := none
  raw : Option String := none
  url : Option String := none
  data : Option Json := none
  metadata : Option Json := none
  filename : Option String := none
  mediaType : Option String := none
  deriving DecidableEq

namespace A2aPart

def setCount (p : A2aPart) : Nat :=
  p.text.isSome.toNat + p.raw.isSome.toNat + p.url.isSome.toNat + p.data.isSome.toNat

def validate (p : A2aPart) : Except A2aError Unit :=
  if p.setCount = 1 then .ok () else .error (.invalidPart p.setCount)

def fields (p : A2aPart) : List (String × Option Json) :=
  [("text", Serde.text p.text), ("raw", Serde.text p.raw), ("url", Serde.text p.url),
    ("data", p.data), ("metadata", p.metadata), ("filename", Serde.text p.filename),
    ("mediaType", Serde.text p.mediaType)]

def names : List String := ["text", "raw", "url", "data", "metadata", "filename", "mediaType"]

def serialize (target : Target) (p : A2aPart) : Json := target.object p.fields

def deserialize (j : Json) : Option A2aPart := do
  let s ← source names j
  let text ← s.optional "text" str
  let raw ← s.optional "raw" str
  let url ← s.optional "url" str
  let data ← s.optional "data" some
  let metadata ← s.optional "metadata" some
  let filename ← s.optional "filename" str
  let mediaType ← s.optional "mediaType" str
  return ⟨text, raw, url, data, metadata, filename, mediaType⟩

def mapValues (g : Option Json → Option Json) (p : A2aPart) : A2aPart :=
  { p with data := g p.data, metadata := g p.metadata }

theorem mapValues_eq {g : Option Json → Option Json} {p : A2aPart} :
    p.mapValues g = p ↔ g p.data = p.data ∧ g p.metadata = p.metadata := by
  obtain ⟨_, _, _, _, _, _, _⟩ := p
  simp [mapValues]

end A2aPart

theorem names_nodup : A2aPart.names.Nodup := by decide

section
variable (target : Target) (read : String → String)

theorem text_map (o : Option String) : (Serde.text o).map (Json.mapFloats read) = Serde.text o := by
  cases o <;> rfl

theorem texts_map (xs : List String) :
    (Serde.texts xs).map (Json.mapFloats read) = Serde.texts xs := by
  unfold Serde.texts
  split
  · rfl
  · rw [Option.map_some, Json.mapFloats_arr, List.map_map]
    rfl

/-- What reading makes of an optional JSON value that went through text. -/
def readBack (o : Option Json) : Option Json := dropNull (o.map (Json.mapFloats read))

theorem A2aPart.deserialize_serialize (p : A2aPart) :
    A2aPart.deserialize ((p.serialize target).mapFloats read) =
      some (p.mapValues (readBack read)) := by
  obtain ⟨s, hs, -, hget⟩ := source_object A2aPart.names target
    (p.fields.map fun f => (f.1, f.2.map (Json.mapFloats read)))
    (by rw [List.map_map]; exact names_nodup)
  have htext := optional_text ((hget "text").trans (text_map read p.text))
  have hraw := optional_text ((hget "raw").trans (text_map read p.raw))
  have hurl := optional_text ((hget "url").trans (text_map read p.url))
  have hdata := optional_value (hget "data")
  have hmetadata := optional_value (hget "metadata")
  have hfilename := optional_text ((hget "filename").trans (text_map read p.filename))
  have hmediaType := optional_text ((hget "mediaType").trans (text_map read p.mediaType))
  rw [serialize, Target.mapFloats_object, deserialize, hs]
  simp only [Option.bind_eq_bind, Option.bind_some, htext, hraw, hurl, hdata, hmetadata, hfilename,
    hmediaType]
  rfl

end

/-! ## Messages -/

structure A2aMessage where
  messageId : String
  contextId : Option String := none
  taskId : Option String := none
  role : A2aRole
  parts : List A2aPart
  metadata : Option Json := none
  extensions : List String := []
  referenceTaskIds : List String := []
  deriving DecidableEq

namespace A2aMessage

def fields (target : Target) (m : A2aMessage) : List (String × Option Json) :=
  [("messageId", some (.str m.messageId)), ("contextId", Serde.text m.contextId),
    ("taskId", Serde.text m.taskId), ("role", some (.str m.role.wire)),
    ("parts", some (.arr (m.parts.map (A2aPart.serialize target)))), ("metadata", m.metadata),
    ("extensions", texts m.extensions), ("referenceTaskIds", texts m.referenceTaskIds)]

def names : List String :=
  ["messageId", "contextId", "taskId", "role", "parts", "metadata", "extensions",
    "referenceTaskIds"]

def serialize (target : Target) (m : A2aMessage) : Json := target.object (m.fields target)

def deserialize (j : Json) : Option A2aMessage := do
  let s ← source names j
  let messageId ← s.required "messageId" str
  let contextId ← s.optional "contextId" str
  let taskId ← s.optional "taskId" str
  let role ← s.required "role" A2aRole.fromValue
  let parts ← s.required "parts" (list A2aPart.deserialize)
  let metadata ← s.optional "metadata" some
  let extensions ← s.orDefault "extensions" (list str) []
  let referenceTaskIds ← s.orDefault "referenceTaskIds" (list str) []
  return ⟨messageId, contextId, taskId, role, parts, metadata, extensions, referenceTaskIds⟩

def mapValues (g : Option Json → Option Json) (m : A2aMessage) : A2aMessage :=
  { m with parts := m.parts.map (A2aPart.mapValues g), metadata := g m.metadata }

end A2aMessage

/-- `for part in parts { part.validate()? }` -/
def validateParts (parts : List A2aPart) : Except A2aError Unit := parts.forM A2aPart.validate

def a2aMessageKind : String := "a2a_message"

structure NewMessage where
  taskId : String
  sender : String
  recipient : String
  kind : String
  payload : Json
  idempotencyKey : String
  envelopeVersion : Int
  deriving DecidableEq

def a2aMessageToNewMessage (a2a : A2aMessage) (taskId sender recipient idempotencyKey : String) :
    Except A2aError NewMessage := do
  validateParts a2a.parts
  return ⟨taskId, sender, recipient, a2aMessageKind, a2a.serialize .value, idempotencyKey, 1⟩

/-- The columns of a stored message that its reader looks at. -/
structure Message where
  kind : String
  payload : Json
  deriving DecidableEq

/-- The row that storage gives for a message it was sent. -/
def storedMessage (fromStr : String → Option Json) (input : NewMessage) : Option Message := do
  let payload ← fromStr input.payload.encode
  return ⟨input.kind, payload⟩

def asStored {α : Type} (shape : String) (r : Except A2aError α) : Except A2aError α :=
  r.mapError fun e => .invalidStoredShape shape e.detail

def decoded {α : Type} (shape : String) (r : Option α) : Except A2aError α :=
  match r with
  | some a => .ok a
  | none => .error (.invalidStoredShape shape none)

def messageToA2aMessage (message : Message) : Except A2aError A2aMessage := do
  if message.kind ≠ a2aMessageKind then
    throw (.invalidStoredShape "Message"
      (some ("kind `" ++ message.kind ++ "` is not `" ++ a2aMessageKind ++ "`")))
  let a2a ← decoded "Message" (A2aMessage.deserialize message.payload)
  asStored "Message" (validateParts a2a.parts)
  return a2a

/-! ## Artifacts -/

structure A2aArtifact where
  artifactId : String
  name : Option String := none
  description : Option String := none
  parts : List A2aPart
  metadata : Option Json := none
  extensions : List String := []
  deriving DecidableEq

namespace A2aArtifact

def fields (target : Target) (a : A2aArtifact) : List (String × Option Json) :=
  [("artifactId", some (.str a.artifactId)), ("name", Serde.text a.name),
    ("description", Serde.text a.description),
    ("parts", some (.arr (a.parts.map (A2aPart.serialize target)))), ("metadata", a.metadata),
    ("extensions", texts a.extensions)]

def names : List String :=
  ["artifactId", "name", "description", "parts", "metadata", "extensions"]

def serialize (target : Target) (a : A2aArtifact) : Json := target.object (a.fields target)

def deserialize (j : Json) : Option A2aArtifact := do
  let s ← source names j
  let artifactId ← s.required "artifactId" str
  let name ← s.optional "name" str
  let description ← s.optional "description" str
  let parts ← s.required "parts" (list A2aPart.deserialize)
  let metadata ← s.optional "metadata" some
  let extensions ← s.orDefault "extensions" (list str) []
  return ⟨artifactId, name, description, parts, metadata, extensions⟩

def mapValues (g : Option Json → Option Json) (a : A2aArtifact) : A2aArtifact :=
  { a with parts := a.parts.map (A2aPart.mapValues g), metadata := g a.metadata }

end A2aArtifact

def a2aArtifactRole : String := "a2a_artifact"
def a2aArtifactMediaType : String := "application/vnd.a2a.artifact+json"

structure NewArtifact where
  taskId : String
  createdBy : String
  role : String
  mediaType : String
  content : String
  idempotencyKey : String
  deriving DecidableEq

def a2aArtifactToNewArtifact (a2a : A2aArtifact) (taskId createdBy idempotencyKey : String) :
    Except A2aError NewArtifact := do
  if a2a.parts = [] then
    throw .emptyArtifactParts
  validateParts a2a.parts
  return ⟨taskId, createdBy, a2aArtifactRole, a2aArtifactMediaType,
    (a2a.serialize .text).encode, idempotencyKey⟩

/-- The columns of a stored artifact that its reader looks at. -/
structure Artifact where
  role : String
  content : String
  deriving DecidableEq

/-- The row that storage gives for an artifact it was sent. -/
def storedArtifact (input : NewArtifact) : Artifact := ⟨input.role, input.content⟩

/-- A text that repeats a field of an artifact is one that `fromStr` does not read. -/
def artifactToA2aArtifact (fromStr : String → Option Json) (artifact : Artifact) :
    Except A2aError A2aArtifact := do
  if artifact.role ≠ a2aArtifactRole then
    throw (.invalidStoredShape "Artifact"
      (some ("role `" ++ artifact.role ++ "` is not `" ++ a2aArtifactRole ++ "`")))
  let a2a ← decoded "Artifact" ((fromStr artifact.content).bind A2aArtifact.deserialize)
  if a2a.parts = [] then
    throw .emptyArtifactParts
  asStored "Artifact" (validateParts a2a.parts)
  return a2a

/-! ## What survives -/

/-- The text reader on the text of a document: at most 127 levels are read, and
a number that is no integer is read as closely as the reader can. -/
def ReadsText (fromStr : String → Option Json) (read : String → String) (doc : Json) : Prop :=
  fromStr doc.encode = if doc.depth ≤ 127 then some (doc.mapFloats read) else none

/-- A JSON value in an optional field, with this many levels to spare. -/
def ValueSurvives (read : String → String) (levels : Nat) (o : Option Json) : Prop :=
  ∀ j ∈ o, j.depth ≤ levels ∧ j ≠ .null ∧ j.mapFloats read = j

def PartSurvives (read : String → String) (p : A2aPart) : Prop :=
  ValueSurvives read 124 p.data ∧ ValueSurvives read 124 p.metadata

def Survives (read : String → String) (parts : List A2aPart) (metadata : Option Json) : Prop :=
  (∀ p ∈ parts, PartSurvives read p) ∧ ValueSurvives read 126 metadata

section
variable (target : Target) (read : String → String)

theorem depth_text {o : Option String} {v : Json} {n : Nat} (h : Serde.text o = some v) :
    v.depth ≤ n := by
  cases o <;> cases h
  exact Nat.zero_le n

theorem A2aPart.depth_le {p : A2aPart} {n : Nat} : (p.serialize target).depth ≤ n + 1 ↔
    (∀ j ∈ p.data, j.depth ≤ n) ∧ ∀ j ∈ p.metadata, j.depth ≤ n := by
  have hnodup : (p.fields.map Prod.fst).Nodup := names_nodup
  rw [serialize, Target.depth_object_le hnodup]
  simp only [fields, List.forall_mem_cons, List.not_mem_nil, false_implies, implies_true, and_true]
  constructor
  · exact fun h => ⟨h.2.2.2.1, h.2.2.2.2.1⟩
  · exact fun h => ⟨fun _ => depth_text, fun _ => depth_text, fun _ => depth_text, h.1, h.2,
      fun _ => depth_text, fun _ => depth_text⟩

theorem depth_texts {xs : List String} {v : Json} (h : texts xs = some v) {n : Nat} :
    v.depth ≤ n + 1 := by
  unfold texts at h
  split at h
  · cases h
  · cases h
    rw [Json.depth_arr_le]
    intro x hx
    obtain ⟨_, _, rfl⟩ := List.mem_map.1 hx
    exact Nat.zero_le n

/-- How deep a document is whose JSON values are those of its parts and one more. -/
theorem depth_parts {parts : List A2aPart} {n : Nat} :
    (Json.arr (parts.map (A2aPart.serialize target))).depth ≤ n + 2 ↔
      ∀ p ∈ parts, (∀ j ∈ p.data, j.depth ≤ n) ∧ ∀ j ∈ p.metadata, j.depth ≤ n := by
  rw [Json.depth_arr_le, List.forall_mem_map]
  simp only [A2aPart.depth_le]

theorem A2aMessage.depth_le {m : A2aMessage} {n : Nat} : (m.serialize target).depth ≤ n + 3 ↔
    (∀ p ∈ m.parts, (∀ j ∈ p.data, j.depth ≤ n) ∧ ∀ j ∈ p.metadata, j.depth ≤ n) ∧
      ∀ j ∈ m.metadata, j.depth ≤ n + 2 := by
  have hnodup : ((m.fields target).map Prod.fst).Nodup := by
    show A2aMessage.names.Nodup
    decide
  rw [serialize, Target.depth_object_le hnodup, ← depth_parts target]
  simp only [fields, List.forall_mem_cons, List.not_mem_nil, false_implies, implies_true, and_true]
  constructor
  · exact fun h => ⟨h.2.2.2.2.1 _ rfl, h.2.2.2.2.2.1⟩
  · rintro ⟨hparts, hmetadata⟩
    refine ⟨?_, fun _ => depth_text, fun _ => depth_text, ?_, ?_, hmetadata,
      fun _ h => depth_texts h, fun _ h => depth_texts h⟩ <;> rintro _ ⟨⟩
    · exact Nat.zero_le _
    · exact Nat.zero_le _
    · exact hparts

theorem A2aArtifact.depth_le {a : A2aArtifact} {n : Nat} : (a.serialize target).depth ≤ n + 3 ↔
    (∀ p ∈ a.parts, (∀ j ∈ p.data, j.depth ≤ n) ∧ ∀ j ∈ p.metadata, j.depth ≤ n) ∧
      ∀ j ∈ a.metadata, j.depth ≤ n + 2 := by
  have hnodup : ((a.fields target).map Prod.fst).Nodup := by
    show A2aArtifact.names.Nodup
    decide
  rw [serialize, Target.depth_object_le hnodup, ← depth_parts target]
  simp only [fields, List.forall_mem_cons, List.not_mem_nil, false_implies, implies_true, and_true]
  constructor
  · exact fun h => ⟨h.2.2.2.1 _ rfl, h.2.2.2.2.1⟩
  · rintro ⟨hparts, hmetadata⟩
    refine ⟨?_, fun _ => depth_text, fun _ => depth_text, ?_, hmetadata,
      fun _ h => depth_texts h⟩ <;> rintro _ ⟨⟩
    · exact Nat.zero_le _
    · exact hparts

theorem list_parts (parts : List A2aPart) :
    list A2aPart.deserialize ((Json.arr (parts.map (A2aPart.serialize target))).mapFloats read) =
      some (parts.map (A2aPart.mapValues (readBack read))) := by
  rw [Json.mapFloats_arr, List.map_map]
  exact mapM_map _ _ _ fun p _ => A2aPart.deserialize_serialize target read p

theorem A2aMessage.deserialize_serialize (m : A2aMessage) :
    A2aMessage.deserialize ((m.serialize target).mapFloats read) =
      some (m.mapValues (readBack read)) := by
  obtain ⟨s, hs, -, hget⟩ := source_object A2aMessage.names target
    ((m.fields target).map fun f => (f.1, f.2.map (Json.mapFloats read)))
    (by rw [List.map_map]; show A2aMessage.names.Nodup; decide)
  have hmessageId : s.required "messageId" str = _ := Source.required_of_get (hget "messageId")
  have hcontextId := optional_text ((hget "contextId").trans (text_map read m.contextId))
  have htaskId := optional_text ((hget "taskId").trans (text_map read m.taskId))
  have hrole := (Source.required_of_get (hget "role")).trans (A2aRole.fromValue_wire m.role)
  have hparts := (Source.required_of_get (hget "parts")).trans (list_parts target read m.parts)
  have hmetadata := optional_value (hget "metadata")
  have hextensions := orDefault_texts ((hget "extensions").trans (texts_map read m.extensions))
  have hreferences :=
    orDefault_texts ((hget "referenceTaskIds").trans (texts_map read m.referenceTaskIds))
  rw [serialize, Target.mapFloats_object, deserialize, hs]
  simp only [Option.bind_eq_bind, Option.bind_some, hmessageId, hcontextId, htaskId, hrole, hparts,
    hmetadata, hextensions, hreferences]
  rfl

theorem A2aArtifact.deserialize_serialize (a : A2aArtifact) :
    A2aArtifact.deserialize ((a.serialize target).mapFloats read) =
      some (a.mapValues (readBack read)) := by
  obtain ⟨s, hs, -, hget⟩ := source_object A2aArtifact.names target
    ((a.fields target).map fun f => (f.1, f.2.map (Json.mapFloats read)))
    (by rw [List.map_map]; show A2aArtifact.names.Nodup; decide)
  have hartifactId : s.required "artifactId" str = _ := Source.required_of_get (hget "artifactId")
  have hname := optional_text ((hget "name").trans (text_map read a.name))
  have hdescription := optional_text ((hget "description").trans (text_map read a.description))
  have hparts := (Source.required_of_get (hget "parts")).trans (list_parts target read a.parts)
  have hmetadata := optional_value (hget "metadata")
  have hextensions := orDefault_texts ((hget "extensions").trans (texts_map read a.extensions))
  rw [serialize, Target.mapFloats_object, deserialize, hs]
  simp only [Option.bind_eq_bind, Option.bind_some, hartifactId, hname, hdescription, hparts,
    hmetadata, hextensions]
  rfl

theorem map_parts_eq {g : Option Json → Option Json} {parts : List A2aPart} :
    parts.map (A2aPart.mapValues g) = parts ↔
      ∀ p ∈ parts, g p.data = p.data ∧ g p.metadata = p.metadata := by
  conv => lhs; rhs; rw [← List.map_id parts]
  rw [List.map_inj_left]
  simp only [id, A2aPart.mapValues_eq]

theorem A2aMessage.mapValues_eq {g : Option Json → Option Json} {m : A2aMessage} :
    m.mapValues g = m ↔
      (∀ p ∈ m.parts, g p.data = p.data ∧ g p.metadata = p.metadata) ∧
        g m.metadata = m.metadata := by
  obtain ⟨_, _, _, _, parts, _, _, _⟩ := m
  simp [mapValues, map_parts_eq]

theorem A2aArtifact.mapValues_eq {g : Option Json → Option Json} {a : A2aArtifact} :
    a.mapValues g = a ↔
      (∀ p ∈ a.parts, g p.data = p.data ∧ g p.metadata = p.metadata) ∧
        g a.metadata = a.metadata := by
  obtain ⟨_, _, _, parts, _, _⟩ := a
  simp [mapValues, map_parts_eq]

variable {read}

theorem valueSurvives_iff {n : Nat} {o : Option Json} :
    ValueSurvives read n o ↔ (∀ j ∈ o, j.depth ≤ n) ∧ readBack read o = o := by
  rw [readBack, dropNull_map_eq, ValueSurvives]
  exact forall₂_and

theorem survives_iff {parts : List A2aPart} {metadata : Option Json} :
    Survives read parts metadata ↔
      ((∀ p ∈ parts, (∀ j ∈ p.data, j.depth ≤ 124) ∧ ∀ j ∈ p.metadata, j.depth ≤ 124) ∧
          ∀ j ∈ metadata, j.depth ≤ 126) ∧
        (∀ p ∈ parts, readBack read p.data = p.data ∧ readBack read p.metadata = p.metadata) ∧
          readBack read metadata = metadata := by
  have hpart : ∀ p, PartSurvives read p ↔
      ((∀ j ∈ p.data, j.depth ≤ 124) ∧ ∀ j ∈ p.metadata, j.depth ≤ 124) ∧
        readBack read p.data = p.data ∧ readBack read p.metadata = p.metadata := by
    intro p
    rw [PartSurvives, valueSurvives_iff, valueSurvives_iff]
    exact and_and_and_comm
  simp only [Survives, hpart, valueSurvives_iff, forall₂_and]
  exact and_and_and_comm

end

/-! ## Writing and reading -/

section
variable {fromStr : String → Option Json} {read : String → String}

theorem newMessage_ok {m : A2aMessage} {taskId sender recipient key : String} {new : NewMessage} :
    a2aMessageToNewMessage m taskId sender recipient key = .ok new ↔
      validateParts m.parts = .ok () ∧
        new = ⟨taskId, sender, recipient, a2aMessageKind, m.serialize .value, key, 1⟩ := by
  unfold a2aMessageToNewMessage
  cases validateParts m.parts <;> simp [bind, Except.bind, pure, Except.pure, eq_comm]

theorem newArtifact_ok {a : A2aArtifact} {taskId createdBy key : String} {new : NewArtifact} :
    a2aArtifactToNewArtifact a taskId createdBy key = .ok new ↔
      a.parts ≠ [] ∧ validateParts a.parts = .ok () ∧
        new = ⟨taskId, createdBy, a2aArtifactRole, a2aArtifactMediaType,
          (a.serialize .text).encode, key⟩ := by
  unfold a2aArtifactToNewArtifact
  by_cases hparts : a.parts = []
  · simp [hparts, bind, Except.bind, throw, throwThe, MonadExceptOf.throw]
  · rw [if_neg hparts]
    cases validateParts a.parts <;> simp [hparts, bind, Except.bind, pure, Except.pure, eq_comm]

theorem toA2aMessage_ok {row : Message} {m : A2aMessage} :
    messageToA2aMessage row = .ok m ↔
      row.kind = a2aMessageKind ∧ A2aMessage.deserialize row.payload = some m ∧
        validateParts m.parts = .ok () := by
  unfold messageToA2aMessage
  by_cases hkind : row.kind = a2aMessageKind
  · rw [if_neg (not_not.2 hkind)]
    cases hdecode : A2aMessage.deserialize row.payload with
    | none => simp [decoded, bind, Except.bind]
    | some m' =>
      cases hvalid : validateParts m'.parts with
      | error e =>
        simp only [decoded, asStored, hvalid, Except.mapError, bind, Except.bind, reduceCtorEq,
          Option.some.injEq, false_iff, not_and]
        rintro - rfl
        simp [hvalid]
      | ok u =>
        simp only [decoded, asStored, hvalid, Except.mapError, bind, Except.bind, pure, Except.pure,
          Except.ok.injEq, Option.some.injEq, hkind, true_and]
        constructor
        · rintro rfl
          exact ⟨rfl, hvalid⟩
        · exact And.left
  · simp [hkind, bind, Except.bind, throw, throwThe, MonadExceptOf.throw]

theorem toA2aArtifact_ok {row : Artifact} {a : A2aArtifact} :
    artifactToA2aArtifact fromStr row = .ok a ↔
      row.role = a2aArtifactRole ∧ (fromStr row.content).bind A2aArtifact.deserialize = some a ∧
        a.parts ≠ [] ∧ validateParts a.parts = .ok () := by
  unfold artifactToA2aArtifact
  by_cases hrole : row.role = a2aArtifactRole
  · rw [if_neg (not_not.2 hrole)]
    cases hdecode : (fromStr row.content).bind A2aArtifact.deserialize with
    | none => simp [decoded, bind, Except.bind]
    | some a' =>
      by_cases hparts : a'.parts = []
      · simp only [decoded, bind, Except.bind, hparts, if_true, throw, throwThe,
          MonadExceptOf.throw, pure, Except.pure, reduceCtorEq, Option.some.injEq, false_iff]
        rintro ⟨-, rfl, hne, -⟩
        exact hne hparts
      · cases hvalid : validateParts a'.parts with
        | error e =>
          simp only [decoded, asStored, hvalid, Except.mapError, bind, Except.bind, hparts,
            if_false, reduceCtorEq, Option.some.injEq, false_iff, not_and]
          rintro - rfl -
          simp [hvalid]
        | ok u =>
          simp only [decoded, asStored, hvalid, Except.mapError, bind, Except.bind, pure,
            Except.pure, hparts, if_false, Except.ok.injEq, Option.some.injEq, hrole, true_and]
          constructor
          · rintro rfl
            exact ⟨rfl, hparts, hvalid⟩
          · exact And.left
  · simp [hrole, bind, Except.bind, throw, throwThe, MonadExceptOf.throw]

theorem message_back_iff {m : A2aMessage} {taskId sender recipient key : String}
    {new : NewMessage} (hnew : a2aMessageToNewMessage m taskId sender recipient key = .ok new)
    (hread : ReadsText fromStr read new.payload) :
    (storedMessage fromStr new).map messageToA2aMessage = some (.ok m) ↔
      Survives read m.parts m.metadata := by
  obtain ⟨hvalid, rfl⟩ := newMessage_ok.1 hnew
  rw [survives_iff, ← A2aMessage.depth_le .value, ← A2aMessage.mapValues_eq]
  simp only [ReadsText] at hread
  simp only [storedMessage, hread]
  by_cases hdepth : (m.serialize .value).depth ≤ 127
  · rw [if_pos hdepth]
    simp only [Option.bind_eq_bind, Option.bind_some, Option.pure_def, Option.map_some,
      Option.some.injEq, toA2aMessage_ok, A2aMessage.deserialize_serialize]
    constructor
    · rintro ⟨-, heq, -⟩
      exact ⟨hdepth, heq⟩
    · rintro ⟨-, heq⟩
      exact ⟨trivial, heq, hvalid⟩
  · rw [if_neg hdepth]
    simp only [Option.bind_eq_bind, Option.bind_none, Option.map_none, reduceCtorEq, false_iff]
    exact fun h => hdepth h.1

theorem artifact_back_iff {a : A2aArtifact} {taskId createdBy key : String} {new : NewArtifact}
    (hnew : a2aArtifactToNewArtifact a taskId createdBy key = .ok new)
    (hread : ReadsText fromStr read (a.serialize .text)) :
    artifactToA2aArtifact fromStr (storedArtifact new) = .ok a ↔
      Survives read a.parts a.metadata := by
  obtain ⟨hparts, hvalid, rfl⟩ := newArtifact_ok.1 hnew
  rw [survives_iff, ← A2aArtifact.depth_le .text, ← A2aArtifact.mapValues_eq]
  simp only [ReadsText] at hread
  simp only [toA2aArtifact_ok, storedArtifact, hread]
  by_cases hdepth : (a.serialize .text).depth ≤ 127
  · rw [if_pos hdepth, Option.bind_some, A2aArtifact.deserialize_serialize, Option.some.injEq]
    constructor
    · rintro ⟨-, heq, -⟩
      exact ⟨hdepth, heq⟩
    · rintro ⟨-, heq⟩
      exact ⟨trivial, heq, hparts, hvalid⟩
  · rw [if_neg hdepth]
    constructor
    · rintro ⟨-, hnone, -⟩
      cases hnone
    · exact fun h => absurd h.1 hdepth

end

/-- An accepted message or artifact comes back from storage just when its JSON
values survive; what the readers accept, the writers accept. -/
theorem objects_back_iff (fromStr : String → Option Json) (read : String → String) :
    (∀ m taskId sender recipient key new,
      a2aMessageToNewMessage m taskId sender recipient key = .ok new →
      ReadsText fromStr read new.payload →
      ((storedMessage fromStr new).map messageToA2aMessage = some (.ok m) ↔
        Survives read m.parts m.metadata)) ∧
    (∀ a taskId createdBy key new,
      a2aArtifactToNewArtifact a taskId createdBy key = .ok new →
      ReadsText fromStr read (a.serialize .text) →
      (artifactToA2aArtifact fromStr (storedArtifact new) = .ok a ↔
        Survives read a.parts a.metadata)) ∧
    (∀ row m, messageToA2aMessage row = .ok m → ∀ taskId sender recipient key,
      ∃ new, a2aMessageToNewMessage m taskId sender recipient key = .ok new) ∧
    (∀ row a, artifactToA2aArtifact fromStr row = .ok a → ∀ taskId createdBy key,
      ∃ new, a2aArtifactToNewArtifact a taskId createdBy key = .ok new) := by
  refine ⟨fun _ _ _ _ _ _ => message_back_iff, fun _ _ _ _ _ => artifact_back_iff, ?_, ?_⟩
  · intro row m h taskId sender recipient key
    exact ⟨_, newMessage_ok.2 ⟨(toA2aMessage_ok.1 h).2.2, rfl⟩⟩
  · intro row a h taskId createdBy key
    have hok := (toA2aArtifact_ok.1 h).2.2
    exact ⟨_, newArtifact_ok.2 ⟨hok.1, hok.2, rfl⟩⟩

def sampleMessage (data : Json) : A2aMessage :=
  { messageId := "msg_1", role := .agent, parts := [{ data := some data }] }

theorem objects_back_sample :
    (storedMessage (fun _ => some ((sampleMessage (.int 7)).serialize .value))
      ⟨"task_1", "agent-a", "agent-b", a2aMessageKind, (sampleMessage (.int 7)).serialize .value,
        "key_1", 1⟩).map messageToA2aMessage = some (.ok (sampleMessage (.int 7))) := by
  refine ((objects_back_iff (fun _ => some ((sampleMessage (.int 7)).serialize .value)) id).1
    (sampleMessage (.int 7)) "task_1" "agent-a" "agent-b" "key_1" _ rfl ?_).2 ⟨?_, ?_⟩
  · rfl
  · intro p hp
    cases List.mem_singleton.1 hp
    exact ⟨fun j hj => by cases hj; exact ⟨Nat.zero_le _, nofun, rfl⟩, nofun⟩
  · nofun

/-- The part whose data is null is accepted and read as a part without content. -/
theorem null_data_lost :
    a2aMessageToNewMessage (sampleMessage .null) "task_1" "agent-a" "agent-b" "key_1" =
        .ok ⟨"task_1", "agent-a", "agent-b", a2aMessageKind,
          (sampleMessage .null).serialize .value, "key_1", 1⟩ ∧
      messageToA2aMessage ⟨a2aMessageKind, (sampleMessage .null).serialize .value⟩ =
        .error (.invalidStoredShape "Message" (A2aError.invalidPart 0).detail) :=
  ⟨rfl, rfl⟩

end AgentPalace.A2a
