import AgentPalace.Core.PersistedProvenance
import AgentPalace.Core.TimeText
import AgentPalace.Hub.PolicyFiles
import AgentPalace.Lib.Checked
import AgentPalace.Lib.Serde
import AgentPalace.Receipts.KeyText

/-!
# Provenance as JSON

Owners, origins, times, envelopes and durable records are written as JSON and
read back by readers that refuse what the constructors refuse. What the
constructors build comes back as it was written, and a reader gives nothing else
(`provenance_faithful`). The parser of RFC 3339 texts is a parameter that reads
the text of every recording time.
-/

namespace AgentPalace

open Serde

/-! ## Texts -/

def AgentName.new (s : String) : Except ProvenanceError AgentName :=
  match h : validateAgentName s with
  | .error e => .error e
  | .ok () => .ok ⟨s, h⟩

def SourceAuthor.new (s : String) : Except ProvenanceError SourceAuthor :=
  match h : validateSourceAuthor (trim s) with
  | .error e => .error e
  | .ok () => .ok ⟨trim s, h⟩

def SourceReference.new (s : String) : Except ProvenanceError SourceReference :=
  match h : validateSourceReference (trim s) with
  | .error e => .error e
  | .ok () => .ok ⟨trim s, h⟩

/-- A text is read by the constructor of its type. -/
def readText {α : Type} (new : String → Except ProvenanceError α) : Json → Option α
  | .str s => (new s).toOption
  | _ => none

theorem readText_some {α : Type} {new : String → Except ProvenanceError α} {j : Json} {a : α}
    (h : readText new j = some a) : ∃ s, j = .str s ∧ new s = .ok a := by
  cases j with
  | str s =>
    refine ⟨s, rfl, ?_⟩
    change (new s).toOption = some a at h
    cases hnew : new s with
    | error e =>
      rw [hnew] at h
      cases h
    | ok b =>
      rw [hnew] at h
      rw [Option.some.inj h]
  | _ => cases h

theorem readText_ok {α : Type} {new : String → Except ProvenanceError α} {s : String} {a : α}
    (h : new s = .ok a) : readText new (.str s) = some a := by
  rw [readText, h]
  rfl

theorem AgentName.new_str (name : AgentName) : AgentName.new name.str = .ok name := by
  unfold AgentName.new
  split
  · rename_i e he
    rw [name.valid] at he
    cases he
  · rfl

/-! The constructors of these trim, so not every valid text is one of theirs. -/

def EmailAtWrite.Built (email : EmailAtWrite) : Prop := ∃ s, EmailAtWrite.new s = .ok email

def SourceAuthor.Built (author : SourceAuthor) : Prop := ∃ s, SourceAuthor.new s = .ok author

def SourceReference.Built (ref : SourceReference) : Prop := ∃ s, SourceReference.new s = .ok ref

theorem EmailAtWrite.Built.new_str {email : EmailAtWrite} (h : email.Built) :
    EmailAtWrite.new email.str = .ok email := by
  obtain ⟨s, hs⟩ := h
  have htrim : trim email.str = email.str := by
    unfold EmailAtWrite.new at hs
    split at hs
    · cases hs
    · rw [← Except.ok.inj hs]
      exact trim_trim s
  unfold EmailAtWrite.new
  split
  · rename_i e he
    rw [email.valid] at he
    cases he
  · simp only [htrim]

theorem SourceAuthor.Built.new_str {author : SourceAuthor} (h : author.Built) :
    SourceAuthor.new author.str = .ok author := by
  obtain ⟨s, hs⟩ := h
  have htrim : trim author.str = author.str := by
    unfold SourceAuthor.new at hs
    split at hs
    · cases hs
    · rw [← Except.ok.inj hs]
      exact trim_trim s
  unfold SourceAuthor.new
  split
  · rename_i e he
    rw [htrim, author.valid] at he
    cases he
  · simp only [htrim]

theorem SourceReference.Built.new_str {ref : SourceReference} (h : ref.Built) :
    SourceReference.new ref.str = .ok ref := by
  obtain ⟨s, hs⟩ := h
  have htrim : trim ref.str = ref.str := by
    unfold SourceReference.new at hs
    split at hs
    · cases hs
    · rw [← Except.ok.inj hs]
      exact trim_trim s
  unfold SourceReference.new
  split
  · rename_i e he
    rw [htrim, ref.valid] at he
    cases he
  · simp only [htrim]

/-! ## Owners -/

inductive Presence (α : Type) where
  | absent
  | null
  | value (a : α)

namespace Presence

variable {α : Type}

def isAbsent : Presence α → Bool
  | absent => true
  | _ => false

def intoValue : Presence α → Option α
  | value a => some a
  | _ => none

def deserialize (s : Source) (name : String) (read : Json → Option α) : Option (Presence α) :=
  match s.get name with
  | none => some absent
  | some .null => some null
  | some v => (read v).map value

variable {s : Source} {name : String} {read : Json → Option α} {p : Presence α}

theorem get_none (h : deserialize s name read = some p) (habsent : p.isAbsent = true) :
    s.get name = none := by
  unfold deserialize at h
  split at h
  · assumption
  · obtain rfl := Option.some.inj h
    cases habsent
  · obtain ⟨a, -, rfl⟩ := Option.map_eq_some_iff.1 h
    cases habsent

theorem get_some {a : α} (h : deserialize s name read = some p) (hvalue : p.intoValue = some a) :
    ∃ v, s.get name = some v ∧ read v = some a := by
  unfold deserialize at h
  split at h
  · obtain rfl := Option.some.inj h
    cases hvalue
  · obtain rfl := Option.some.inj h
    cases hvalue
  · rename_i v _ hget
    obtain ⟨b, hread, rfl⟩ := Option.map_eq_some_iff.1 h
    obtain rfl := Option.some.inj hvalue
    exact ⟨v, hget, hread⟩

theorem deserialize_none (h : s.get name = none) : deserialize s name read = some absent := by
  rw [deserialize, h]

theorem deserialize_text {new : String → Except ProvenanceError α} {text : String} {a : α}
    (h : s.get name = some (.str text)) (hnew : new text = .ok a) :
    deserialize s name (readText new) = some (value a) := by
  rw [deserialize, h]
  show (readText new (.str text)).map value = _
  rw [readText_ok hnew]
  rfl

end Presence

namespace OwnerIdentity

def serialize (target : Target) : OwnerIdentity → Json
  | unknown => target.object [("status", some (.str "unknown"))]
  | authenticated owner => target.object
      [("id", some (.str owner.id.str)), ("issuer", some (.str owner.issuer.str)),
        ("subject", some (.str owner.subject.str)),
        ("email_at_write", some (.str owner.emailAtWrite.str))]

def visitStr (v : String) : Option OwnerIdentity :=
  let lower := toAsciiLowercase v
  if lower = "unknown" ∨ lower = "legacy" then some unknown else none

def visitMap (raw : Source) : Option OwnerIdentity := do
  let status ← Presence.deserialize raw "status" str
  let id ← Presence.deserialize raw "id" (readText OwnerId.new)
  let issuer ← Presence.deserialize raw "issuer" (readText Issuer.new)
  let subject ← Presence.deserialize raw "subject" (readText Subject.new)
  let email ← Presence.deserialize raw "email_at_write" (readText EmailAtWrite.new)
  let hasAnyAuth := !id.isAbsent || !issuer.isAbsent || !subject.isAbsent || !email.isAbsent
  let fullAuth : Option AuthenticatedOwner :=
    match id.intoValue, issuer.intoValue, subject.intoValue, email.intoValue with
    | some id, some issuer, some subject, some email => some ⟨id, issuer, subject, email⟩
    | _, _, _, _ => none
  match status with
  | .null => none
  | .value status =>
    let lower := toAsciiLowercase status
    if lower = "unknown" ∨ lower = "legacy" then
      -- contradictory: nobody, with fields of somebody
      if hasAnyAuth then none else some unknown
    else if lower = "authenticated" then fullAuth.map authenticated
    else none
  | .absent => fullAuth.map authenticated

def fieldNames : List String := ["status", "id", "issuer", "subject", "email_at_write"]

def ownerFields : List String := ["id", "issuer", "subject", "email_at_write"]

def deserialize : Json → Option OwnerIdentity
  | .null => some unknown
  | .str v => visitStr v
  | .obj fields => (strict fieldNames (.obj fields)).bind visitMap
  | _ => none

def Built : OwnerIdentity → Prop
  | unknown => True
  | authenticated owner => owner.emailAtWrite.Built

def validate : OwnerIdentity → Except ProvenanceError Unit
  | unknown => .ok ()
  | authenticated owner => do
    validateOwnerId owner.id.str
    validateIssuer owner.issuer.str
    validateSubject owner.subject.str
    validateEmail owner.emailAtWrite.str

theorem validate_ok (owner : OwnerIdentity) : owner.validate = .ok () := by
  cases owner with
  | unknown => rfl
  | authenticated owner =>
    rw [validate, owner.id.valid, owner.issuer.valid, owner.subject.valid, owner.emailAtWrite.valid]
    rfl

theorem deserialize_serialize (target : Target) {owner : OwnerIdentity} (h : owner.Built) :
    deserialize (owner.serialize target) = some owner := by
  cases owner with
  | unknown =>
    obtain ⟨s, hs, hget⟩ := @strict_object fieldNames target
      [("status", some (.str "unknown"))] (by decide) (by decide)
    have hstatus : Presence.deserialize s "status" str = some (.value "unknown") := by
      rw [Presence.deserialize, hget]
      rfl
    show (strict fieldNames (target.object _)).bind visitMap = _
    rw [hs, Option.bind_some, visitMap, hstatus,
      Presence.deserialize_none (hget "id"), Presence.deserialize_none (hget "issuer"),
      Presence.deserialize_none (hget "subject"), Presence.deserialize_none (hget "email_at_write")]
    decide
  | authenticated owner =>
    obtain ⟨s, hs, hget⟩ := @strict_object fieldNames target
      [("id", some (.str owner.id.str)), ("issuer", some (.str owner.issuer.str)),
        ("subject", some (.str owner.subject.str)),
        ("email_at_write", some (.str owner.emailAtWrite.str))]
      (show ownerFields.Nodup by decide) (show ownerFields ⊆ fieldNames by decide)
    show (strict fieldNames (target.object _)).bind visitMap = _
    rw [hs, Option.bind_some, visitMap, Presence.deserialize_none (hget "status"),
      Presence.deserialize_text (hget "id") owner.id.new_str,
      Presence.deserialize_text (hget "issuer") owner.issuer.new_str,
      Presence.deserialize_text (hget "subject") owner.subject.new_str,
      Presence.deserialize_text (hget "email_at_write") (EmailAtWrite.Built.new_str h)]
    rfl

theorem visitMap_some {raw : Source} {owner : OwnerIdentity} (h : visitMap raw = some owner) :
    owner.Built ∧ (owner = unknown → ∀ name ∈ ownerFields, raw.get name = none) ∧
      (owner ≠ unknown → ∀ name ∈ ownerFields, ∃ text, raw.get name = some (.str text)) := by
  simp only [visitMap, Option.bind_eq_bind, Option.bind_eq_some_iff] at h
  obtain ⟨status, -, id, hid, issuer, hissuer, subject, hsubject, email, hemail, h⟩ := h
  have hfull : ∀ a : AuthenticatedOwner,
      (match id.intoValue, issuer.intoValue, subject.intoValue, email.intoValue with
        | some id, some issuer, some subject, some email =>
          some (⟨id, issuer, subject, email⟩ : AuthenticatedOwner)
        | _, _, _, _ => none) = some a →
      a.emailAtWrite.Built ∧ ∀ name ∈ ownerFields, ∃ text, raw.get name = some (.str text) := by
    intro a ha
    split at ha
    · rename_i hid' hissuer' hsubject' hemail'
      obtain rfl := Option.some.inj ha
      obtain ⟨v, hget, hread⟩ := Presence.get_some hid hid'
      obtain ⟨v', hget', hread'⟩ := Presence.get_some hissuer hissuer'
      obtain ⟨v'', hget'', hread''⟩ := Presence.get_some hsubject hsubject'
      obtain ⟨w, hgetw, hreadw⟩ := Presence.get_some hemail hemail'
      obtain ⟨t, rfl, -⟩ := readText_some hread
      obtain ⟨t', rfl, -⟩ := readText_some hread'
      obtain ⟨t'', rfl, -⟩ := readText_some hread''
      obtain ⟨u, rfl, hnew⟩ := readText_some hreadw
      refine ⟨⟨u, hnew⟩, ?_⟩
      simp only [ownerFields, List.forall_mem_cons]
      exact ⟨⟨t, hget⟩, ⟨t', hget'⟩, ⟨t'', hget''⟩, ⟨u, hgetw⟩, nofun⟩
    · cases ha
  have hmapped : ∀ {full : Option AuthenticatedOwner}, full.map authenticated = some owner →
      ∃ a, full = some a ∧ owner = authenticated a := fun hmap => by
    obtain ⟨a, ha, heq⟩ := Option.map_eq_some_iff.1 hmap
    exact ⟨a, ha, heq.symm⟩
  cases status with
  | null => cases h
  | absent =>
    obtain ⟨a, ha, rfl⟩ := hmapped h
    exact ⟨(hfull a ha).1, nofun, fun _ => (hfull a ha).2⟩
  | value status =>
    dsimp only at h
    split at h
    · split at h
      · cases h
      · rename_i hnone
        obtain rfl := Option.some.inj h
        simp only [Bool.or_eq_true, Bool.not_eq_true', not_or, Bool.not_eq_false] at hnone
        obtain ⟨⟨⟨hid', hissuer'⟩, hsubject'⟩, hemail'⟩ := hnone
        refine ⟨trivial, fun _ => ?_, fun hne => absurd rfl hne⟩
        simp only [ownerFields, List.forall_mem_cons]
        exact ⟨Presence.get_none hid hid', Presence.get_none hissuer hissuer',
          Presence.get_none hsubject hsubject', Presence.get_none hemail hemail', nofun⟩
    · split at h
      · obtain ⟨a, ha, rfl⟩ := hmapped h
        exact ⟨(hfull a ha).1, nofun, fun _ => (hfull a ha).2⟩
      · cases h

end OwnerIdentity

theorem OwnerIdentity.deserialize_built {j : Json} {owner : OwnerIdentity}
    (h : OwnerIdentity.deserialize j = some owner) : owner.Built := by
  cases j with
  | null =>
    obtain rfl := Option.some.inj h
    trivial
  | str v =>
    change OwnerIdentity.visitStr v = some owner at h
    unfold OwnerIdentity.visitStr at h
    dsimp only at h
    split at h
    · obtain rfl := Option.some.inj h
      trivial
    · cases h
  | obj fields =>
    obtain ⟨raw, -, hmap⟩ := Option.bind_eq_some_iff.1 h
    exact (OwnerIdentity.visitMap_some hmap).1
  | _ => cases h

/-- An accepted document of somebody has all four fields, and one of nobody has none. -/
structure OwnerFields (j : Json) (owner : OwnerIdentity) : Prop where
  authenticated : owner ≠ .unknown → ∃ fields, j = .obj fields ∧
    ∀ name ∈ OwnerIdentity.ownerFields, ∃ text, fields.lookup name = some (.str text)
  unknown : owner = .unknown → ∀ fields, j = .obj fields →
    ∀ name ∈ OwnerIdentity.ownerFields, fields.lookup name = none

theorem OwnerIdentity.deserialize_fields {j : Json} {owner : OwnerIdentity}
    (h : OwnerIdentity.deserialize j = some owner) : OwnerFields j owner := by
  cases j with
  | null =>
    obtain rfl := Option.some.inj h
    exact ⟨fun hne => absurd rfl hne, fun _ => nofun⟩
  | str v =>
    change OwnerIdentity.visitStr v = some owner at h
    unfold OwnerIdentity.visitStr at h
    dsimp only at h
    split at h
    · obtain rfl := Option.some.inj h
      exact ⟨fun hne => absurd rfl hne, fun _ => nofun⟩
    · cases h
  | obj fields =>
    obtain ⟨raw, hraw, hmap⟩ := Option.bind_eq_some_iff.1 h
    obtain ⟨-, hunknown, hauthenticated⟩ := OwnerIdentity.visitMap_some hmap
    have hget : ∀ name, raw.get name = fields.lookup name := by
      unfold strict at hraw
      dsimp only at hraw
      split at hraw
      · obtain rfl := Option.some.inj hraw
        exact fun _ => rfl
      · cases hraw
    simp only [hget] at hunknown hauthenticated
    refine ⟨fun hne => ⟨fields, rfl, hauthenticated hne⟩, fun heq fields' hfields => ?_⟩
    obtain rfl := Json.obj.inj hfields
    exact hunknown heq
  | _ => cases h

/-! ## Agents and actions -/

/-- A variant is its name, or an object with nothing under its name. -/
def readVariant {α : Type} (ofWire : String → Option α) : Json → Option α
  | .str s => ofWire s
  | .obj [(s, .null)] => ofWire s
  | _ => none

def AgentAssurance.wire : AgentAssurance → String
  | callerAsserted => "caller_asserted"

def AgentAssurance.ofWire (s : String) : Option AgentAssurance :=
  if s = "caller_asserted" then some callerAsserted else none

namespace AgentAttribution

def serialize (target : Target) (agent : AgentAttribution) : Json :=
  target.object [("agent_name", some (.str agent.agentName.str)),
    ("assurance", some (.str agent.assurance.wire))]

def fieldNames : List String := ["agent_name", "assurance"]

def deserialize (j : Json) : Option AgentAttribution := do
  let raw ← strict fieldNames j
  let agentName ← raw.required "agent_name" (readText AgentName.new)
  let assurance ← raw.orDefault "assurance" (readVariant AgentAssurance.ofWire) .callerAsserted
  return ⟨agentName, assurance⟩

theorem deserialize_serialize (target : Target) (agent : AgentAttribution) :
    deserialize (agent.serialize target) = some agent := by
  obtain ⟨s, hs, hget⟩ := @strict_object fieldNames target
    [("agent_name", some (.str agent.agentName.str)),
      ("assurance", some (.str agent.assurance.wire))]
    (show fieldNames.Nodup by decide) (List.Subset.refl fieldNames)
  have hname := (Source.required_of_get (hget "agent_name")).trans
    (readText_ok agent.agentName.new_str)
  have hassurance : s.orDefault "assurance" (readVariant AgentAssurance.ofWire) .callerAsserted =
      some agent.assurance := by
    rw [Source.orDefault, hget]
    cases agent.assurance
    rfl
  rw [serialize, deserialize, hs]
  simp only [Option.bind_eq_bind, Option.bind_some, hname, hassurance]
  rfl

end AgentAttribution

namespace ProvenanceAction

def wire : ProvenanceAction → String
  | created => "created"
  | modified => "modified"
  | additionalSubmission => "additional_submission"
  | deleted => "deleted"
  | invalidated => "invalidated"

def ofWire (s : String) : Option ProvenanceAction :=
  if s = "created" then some created
  else if s = "modified" then some modified
  else if s = "additional_submission" then some additionalSubmission
  else if s = "deleted" then some deleted
  else if s = "invalidated" then some invalidated
  else none

theorem ofWire_wire (action : ProvenanceAction) : ofWire action.wire = some action := by
  cases action <;> rfl

end ProvenanceAction

/-! ## Origins -/

namespace StorageOrigin

/-- `StorageOrigin::local`. -/
def newLocal (originId : String) : Except ProvenanceError StorageOrigin :=
  match h : validateOriginId originId with
  | .error e => .error e
  | .ok () => .ok (localOrigin originId h)

/-- `StorageOrigin::federated`. -/
def newFederated (originId : String) (originalRecordId : Option String) :
    Except ProvenanceError StorageOrigin :=
  match h : validateOriginId originId with
  | .error e => .error e
  | .ok () =>
    match hrecord : originalRecordId.elim (.ok ()) validateRecordId with
    | .error e => .error e
    | .ok () =>
      .ok (federated originId originalRecordId h fun id hid => by
        rwa [Option.mem_def.1 hid] at hrecord)

def serialize (target : Target) : StorageOrigin → Json
  | localOrigin originId _ =>
    target.object [("kind", some (.str "local")), ("origin_id", some (.str originId))]
  | federated originId originalRecordId _ _ => target.object
      [("kind", some (.str "federated")), ("origin_id", some (.str originId)),
        ("original_record_id", text originalRecordId)]

/-- The tag stands among the fields, or before the items of an array. -/
def tag : Json → Option String
  | .obj fields => (fields.lookup "kind").bind str
  | .arr (item :: _) => str item
  | _ => none

def localNames : List String := ["kind", "origin_id"]

def federatedNames : List String := ["kind", "origin_id", "original_record_id"]

def deserialize (j : Json) : Option StorageOrigin :=
  match tag j with
  | some "local" => do
    let raw ← strict localNames j
    let originId ← raw.required "origin_id" str
    (newLocal originId).toOption
  | some "federated" => do
    let raw ← strict federatedNames j
    let originId ← raw.required "origin_id" str
    let originalRecordId ← raw.optional "original_record_id" str
    (newFederated originId originalRecordId).toOption
  | _ => none

theorem tag_object (target : Target) {fields : List (String × Option Json)}
    (h : (fields.map Prod.fst).Nodup) {kind : String}
    (hkind : (fields.lookup "kind").join = some (.str kind)) :
    tag (target.object fields) = some kind := by
  show ((target.arrange (present fields)).lookup "kind").bind str = _
  rw [target.lookup_arrange, lookup_present h, hkind]
  rfl

theorem newLocal_ok {originId : String} (h : validateOriginId originId = .ok ()) :
    newLocal originId = .ok (localOrigin originId h) := by
  unfold newLocal
  split
  · rename_i e he
    rw [h] at he
    cases he
  · rfl

theorem newFederated_ok {originId : String} {originalRecordId : Option String}
    (h : validateOriginId originId = .ok ())
    (hrecord : ∀ id ∈ originalRecordId, validateRecordId id = .ok ()) :
    newFederated originId originalRecordId =
      .ok (federated originId originalRecordId h hrecord) := by
  have hchecked : originalRecordId.elim (.ok ()) validateRecordId = .ok () := by
    cases originalRecordId with
    | none => rfl
    | some id => exact hrecord id rfl
  unfold newFederated
  split
  · rename_i e he
    rw [h] at he
    cases he
  · split
    · rename_i e he
      rw [hchecked] at he
      cases he
    · rfl

def Built (origin : StorageOrigin) : Prop :=
  (∃ originId, newLocal originId = .ok origin) ∨
    ∃ originId originalRecordId, newFederated originId originalRecordId = .ok origin

theorem built (origin : StorageOrigin) : origin.Built := by
  cases origin with
  | localOrigin originId h => exact .inl ⟨originId, newLocal_ok h⟩
  | federated originId originalRecordId h hrecord =>
    exact .inr ⟨originId, originalRecordId, newFederated_ok h hrecord⟩

def validate : StorageOrigin → Except ProvenanceError Unit
  | localOrigin originId _ => validateOriginId originId
  | federated originId originalRecordId _ _ => do
    validateOriginId originId
    originalRecordId.forM validateRecordId

theorem validate_ok (origin : StorageOrigin) : origin.validate = .ok () := by
  cases origin with
  | localOrigin originId h => exact h
  | federated originId originalRecordId h hrecord =>
    rw [validate, h]
    cases originalRecordId with
    | none => rfl
    | some id => exact hrecord id rfl

theorem deserialize_serialize (target : Target) (origin : StorageOrigin) :
    deserialize (origin.serialize target) = some origin := by
  cases origin with
  | localOrigin originId h =>
    have hnodup : localNames.Nodup := by decide
    obtain ⟨s, hs, hget⟩ := @strict_object localNames target
      [("kind", some (.str "local")), ("origin_id", some (.str originId))] hnodup
      (List.Subset.refl localNames)
    have hid : s.required "origin_id" str = some originId :=
      Source.required_of_get (hget "origin_id")
    have htag := @tag_object target
      [("kind", some (.str "local")), ("origin_id", some (.str originId))] hnodup "local" rfl
    rw [serialize, deserialize, htag]
    simp only [hs, Option.bind_eq_bind, Option.bind_some, hid, newLocal_ok h]
    rfl
  | federated originId originalRecordId h hrecord =>
    have hnodup : federatedNames.Nodup := by decide
    obtain ⟨s, hs, hget⟩ := @strict_object federatedNames target
      [("kind", some (.str "federated")), ("origin_id", some (.str originId)),
        ("original_record_id", text originalRecordId)] hnodup (List.Subset.refl federatedNames)
    have hid : s.required "origin_id" str = some originId :=
      Source.required_of_get (hget "origin_id")
    have hfield := optional_text (hget "original_record_id")
    have htag := @tag_object target
      [("kind", some (.str "federated")), ("origin_id", some (.str originId)),
        ("original_record_id", text originalRecordId)] hnodup "federated" rfl
    rw [serialize, deserialize, htag]
    simp only [hs, Option.bind_eq_bind, Option.bind_some, hid, hfield, newFederated_ok h hrecord]
    rfl

end StorageOrigin

/-! ## Times -/

theorem isAsciiGraphic_digit {c : Char} (h : c.isDigit = true) : isAsciiGraphic c = true := by
  have hc : 48 ≤ c.val.toNat ∧ c.val.toNat ≤ 57 := by
    simpa [Char.isDigit, UInt32.le_iff_toNat_le] using h
  have hval : c.toNat = c.val.toNat := rfl
  simp only [isAsciiGraphic, Bool.and_eq_true, decide_eq_true_eq]
  omega

theorem isWhitespace_graphic {c : Char} (h : isAsciiGraphic c = true) : isWhitespace c = false := by
  simp only [isAsciiGraphic, Bool.and_eq_true, decide_eq_true_eq] at h
  simp only [isWhitespace, Bool.or_eq_false_iff, Bool.and_eq_false_iff, decide_eq_false_iff_not,
    beq_eq_false_iff_ne]
  omega

/-- A graphic text has nothing to trim, and a byte for each character. -/
theorem graphic_text {s : String} (h : ∀ c ∈ s.toList, isAsciiGraphic c = true) :
    trim s = s ∧ s.utf8ByteSize = s.toList.length := by
  have hwhite : ∀ l : List Char, (∀ c ∈ l, isAsciiGraphic c = true) →
      l.dropWhile isWhitespace = l := by
    intro l hl
    cases l with
    | nil => rfl
    | cons c l =>
      rw [List.dropWhile_cons, isWhitespace_graphic (hl c List.mem_cons_self)]
      rfl
  have hsize : ∀ l : List Char, (∀ c ∈ l, isAsciiGraphic c = true) → utf8Bytes l = l.length := by
    intro l
    induction l with
    | nil => exact fun _ => rfl
    | cons c l ih =>
      intro hl
      have hc := hl c List.mem_cons_self
      simp only [isAsciiGraphic, Bool.and_eq_true, decide_eq_true_eq] at hc
      have hone : c.utf8Size = 1 := Char.utf8Size_eq_one_iff.2 (by
        show c.val.toNat ≤ 127
        have hval : c.toNat = c.val.toNat := rfl
        omega)
      rw [utf8Bytes_cons, hone, ih fun c hc => hl c (List.mem_cons_of_mem _ hc), List.length_cons,
        Nat.add_comm]
  constructor
  · rw [trim, hwhite _ h, hwhite _ fun c hc => h c (List.mem_reverse.1 hc), List.reverse_reverse,
      String.ofList_toList]
  · rw [← hsize _ h, ← utf8ByteSize_ofList, String.ofList_toList]

open FixedWidth in
theorem rfc3339_utc {t : OffsetDateTime} (h : t.Formattable) (hutc : t.offset = 0) :
    (∀ c ∈ t.rfc3339.toList, isAsciiGraphic c = true) ∧ t.rfc3339.toList.length ≤ 30 ∧
      t.rfc3339 ≠ "" := by
  have hzone : (OffsetDateTime.zone t.offset).toList = ['Z'] := by
    rw [hutc]
    rfl
  have hfraction : ∀ c ∈ OffsetDateTime.fractionChars t.subsec, isAsciiGraphic c = true := by
    intro c hc
    unfold OffsetDateTime.fractionChars at hc
    split at hc
    · cases hc
    rcases List.mem_cons.1 hc with rfl | hc
    · decide
    · rw [← rdropWhile_digits] at hc
      exact isAsciiGraphic_digit
        (isDigit_of_mem_digits ((List.rdropWhile_prefix _ _).subset hc))
  have hlength : (OffsetDateTime.fractionChars t.subsec).length ≤ 10 := by
    unfold OffsetDateTime.fractionChars
    split
    · exact Nat.zero_le _
    · rw [List.length_cons, ← rdropWhile_digits]
      have hle := (List.rdropWhile_prefix (fun c => decide (c = '0'))
        (digits 9 t.subsec)).length_le
      rw [length_digits] at hle
      omega
  have htext := OffsetDateTime.toList_rfc3339 h
  refine ⟨?_, ?_, fun hempty => ?_⟩
  · have hdigits : ∀ {width n : Nat} {c : Char}, c ∈ digits width n → isAsciiGraphic c = true :=
      fun hc => isAsciiGraphic_digit (isDigit_of_mem_digits hc)
    rw [htext, OffsetDateTime.stamp, OffsetDateTime.tailChars, hzone]
    intro c hc
    simp only [List.mem_append, List.mem_cons, List.not_mem_nil, or_false] at hc
    rcases hc with hc | rfl | hc | rfl | hc | rfl | hc | rfl | hc | rfl | hc | hc | rfl
    all_goals first
      | exact hdigits hc
      | exact hfraction c hc
      | decide
  · rw [htext, OffsetDateTime.stamp, OffsetDateTime.tailChars, hzone]
    simp only [List.length_append, List.length_cons, length_digits, List.length_nil]
    omega
  · rw [hempty, OffsetDateTime.stamp] at htext
    have hlength := congrArg List.length htext
    simp at hlength

namespace RecordingTime

def maxRfc3339Chars : Nat := 64

/-- The time in UTC, if its year has four digits there. -/
def fromOffsetDateTime (t : OffsetDateTime) : Option RecordingTime :=
  if h : OffsetDateTime.year0 ≤ t.nanos ∧ t.nanos < OffsetDateTime.year10000 then
    some ⟨⟨t.nanos, 0⟩, rfl, by simpa [OffsetDateTime.localNanos] using h,
      show (0 : Int).natAbs < 86400 by decide, show (0 : Int) % 60 = 0 by decide⟩
  else none

theorem fromOffsetDateTime_time (t : RecordingTime) : fromOffsetDateTime t.time = some t := by
  obtain ⟨⟨nanos, offset⟩, hutc, hformat⟩ := t
  obtain rfl : offset = 0 := hutc
  have hyear := hformat.year
  simp only [OffsetDateTime.localNanos, Int.zero_mul, Int.add_zero] at hyear
  unfold fromOffsetDateTime
  rw [dif_pos hyear]

section
variable (parse : String → Option OffsetDateTime)

def fromRfc3339 (s : String) : Option RecordingTime :=
  let trimmed := trim s
  if trimmed = "" ∨ trimmed.utf8ByteSize > maxRfc3339Chars then none
  else (parse trimmed).bind fromOffsetDateTime

def serialize (t : RecordingTime) : Json := .str t.time.rfc3339

def deserialize : Json → Option RecordingTime
  | .str s => fromRfc3339 parse s
  | _ => none

def ReadsTimes : Prop := ∀ t : RecordingTime, parse t.time.rfc3339 = some t.time

variable {parse}

theorem deserialize_serialize (hparse : ReadsTimes parse) (t : RecordingTime) :
    deserialize parse t.serialize = some t := by
  obtain ⟨hgraphic, hlength, hne⟩ := rfc3339_utc t.formattable t.utc
  obtain ⟨htrim, hsize⟩ := graphic_text hgraphic
  show fromRfc3339 parse t.time.rfc3339 = some t
  unfold fromRfc3339
  have hshort : ¬ (t.time.rfc3339 = "" ∨ t.time.rfc3339.utf8ByteSize > maxRfc3339Chars) := by
    rw [hsize, maxRfc3339Chars]
    rintro (h | h)
    · exact hne h
    · omega
  rw [htrim]
  simp only [if_neg hshort, hparse t, Option.bind_some]
  exact t.fromOffsetDateTime_time

end

def Built (t : RecordingTime) : Prop := ∃ t', fromOffsetDateTime t' = some t

/-- `validate_and_normalize`, without the text of its error. -/
def validate (t : RecordingTime) : Except Unit Unit :=
  match fromOffsetDateTime t.time with
  | some _ => .ok ()
  | none => .error ()

theorem validate_ok (t : RecordingTime) : t.validate = .ok () := by
  rw [validate, t.fromOffsetDateTime_time]

end RecordingTime

/-! ## Keys -/

namespace OwnerScopedKey

def serialize (target : Target) (key : OwnerScopedKey) : Json :=
  target.object [("owner_id", key.ownerId.map fun owner => .str owner.str),
    ("raw_key", some (.str key.rawKey))]

def fieldNames : List String := ["owner_id", "raw_key"]

def deserialize : Json → Option OwnerScopedKey
  | .str v => (fromStr v).toOption
  | .obj fields => do
    let raw ← strict fieldNames (.obj fields)
    let ownerId ← raw.optional "owner_id" (readText OwnerId.new)
    let rawKey ← raw.required "raw_key" str
    (new ownerId rawKey).toOption
  | _ => none

theorem deserialize_serialize (target : Target) (key : OwnerScopedKey) :
    deserialize (key.serialize target) = some key := by
  obtain ⟨s, hs, hget⟩ := @strict_object fieldNames target
    [("owner_id", key.ownerId.map fun owner => .str owner.str), ("raw_key", some (.str key.rawKey))]
    (show fieldNames.Nodup by decide) (List.Subset.refl fieldNames)
  have howner : s.optional "owner_id" (readText OwnerId.new) = some key.ownerId :=
    Source.optional_write (hget "owner_id") (fun owner _ => readText_ok owner.new_str)
      fun _ _ => nofun
  have hraw : s.required "raw_key" str = some key.rawKey := Source.required_of_get (hget "raw_key")
  show (do
    let raw ← strict fieldNames (key.serialize target)
    let ownerId ← raw.optional "owner_id" (readText OwnerId.new)
    let rawKey ← raw.required "raw_key" str
    (new ownerId rawKey).toOption) = _
  rw [serialize, hs]
  simp only [Option.bind_eq_bind, Option.bind_some, howner, hraw, new_rawKey]
  rfl

end OwnerScopedKey

/-! ## Authors and references -/

section
variable {s : Source} {author : Option SourceAuthor} {refs : List SourceReference}

def writeAuthor (author : Option SourceAuthor) : Option Json := author.map fun a => .str a.str

def writeRefs : List SourceReference → Option Json := items fun ref => .str ref.str

def readAuthor (s : Source) : Option (Option SourceAuthor) :=
  s.optional "source_author" (readText SourceAuthor.new)

def readRefs (s : Source) : Option (List SourceReference) :=
  s.orDefault "source_refs" (list (readText SourceReference.new)) []

theorem readAuthor_write (h : s.get "source_author" = writeAuthor author)
    (hbuilt : ∀ a ∈ author, a.Built) : readAuthor s = some author :=
  Source.optional_write h (fun a ha => readText_ok (hbuilt a ha).new_str) fun _ _ => nofun

theorem readRefs_write (h : s.get "source_refs" = writeRefs refs) (hbuilt : ∀ r ∈ refs, r.Built) :
    readRefs s = some refs :=
  orDefault_items h fun r hr => readText_ok (hbuilt r hr).new_str

theorem readAuthor_built (h : readAuthor s = some author) : ∀ a ∈ author, a.Built := by
  intro a ha
  obtain ⟨v, -, hread⟩ := Source.optional_some h ha
  obtain ⟨text, -, hnew⟩ := readText_some hread
  exact ⟨text, hnew⟩

theorem readRefs_built (h : readRefs s = some refs) : ∀ r ∈ refs, r.Built := by
  intro r hr
  obtain ⟨v, hread⟩ := orDefault_list_some h hr
  obtain ⟨text, -, hnew⟩ := readText_some hread
  exact ⟨text, hnew⟩

end

theorem toOption_some {ε α : Type} {r : Except ε α} {a : α} (h : r.toOption = some a) :
    r = .ok a := by
  cases r with
  | error e => cases h
  | ok b => rw [Option.some.inj h]

/-! ## Events -/

section
variable {parse : String → Option OffsetDateTime}

namespace ProvenanceHistoryEntry

/-- What `new` and `with_agent` put together. -/
def Built (entry : ProvenanceHistoryEntry) : Prop := entry.owner.Built

def serialize (target : Target) (entry : ProvenanceHistoryEntry) : Json :=
  target.object [("action", some (.str entry.action.wire)),
    ("owner", some (entry.owner.serialize target)),
    ("agent", entry.agent.map (AgentAttribution.serialize target)),
    ("recorded_at", some entry.recordedAt.serialize)]

def fieldNames : List String := ["action", "owner", "agent", "recorded_at"]

variable (parse) in
def deserialize (j : Json) : Option ProvenanceHistoryEntry := do
  let raw ← strict fieldNames j
  let action ← raw.required "action" (readVariant ProvenanceAction.ofWire)
  let owner ← raw.required "owner" OwnerIdentity.deserialize
  let agent ← raw.optional "agent" AgentAttribution.deserialize
  let recordedAt ← raw.required "recorded_at" (RecordingTime.deserialize parse)
  return ⟨action, owner, agent, recordedAt⟩

theorem deserialize_serialize (hparse : RecordingTime.ReadsTimes parse) (target : Target)
    {entry : ProvenanceHistoryEntry} (h : entry.Built) :
    deserialize parse (entry.serialize target) = some entry := by
  obtain ⟨s, hs, hget⟩ := @strict_object fieldNames target
    [("action", some (.str entry.action.wire)), ("owner", some (entry.owner.serialize target)),
      ("agent", entry.agent.map (AgentAttribution.serialize target)),
      ("recorded_at", some entry.recordedAt.serialize)]
    (show fieldNames.Nodup by decide) (List.Subset.refl fieldNames)
  have haction : s.required "action" (readVariant ProvenanceAction.ofWire) = some entry.action :=
    (Source.required_of_get (hget "action")).trans entry.action.ofWire_wire
  have howner := (Source.required_of_get (hget "owner")).trans
    (OwnerIdentity.deserialize_serialize target h)
  have hagent : s.optional "agent" AgentAttribution.deserialize = some entry.agent :=
    Source.optional_write (hget "agent") (fun a _ => a.deserialize_serialize target)
      fun _ _ => nofun
  have htime := (Source.required_of_get (hget "recorded_at")).trans
    (RecordingTime.deserialize_serialize hparse entry.recordedAt)
  rw [serialize, deserialize, hs]
  simp only [Option.bind_eq_bind, Option.bind_some, haction, howner, hagent, htime]
  rfl

theorem deserialize_built {j : Json} {entry : ProvenanceHistoryEntry}
    (h : deserialize parse j = some entry) : entry.Built := by
  simp only [deserialize, Option.bind_eq_bind, Option.bind_eq_some_iff] at h
  obtain ⟨raw, -, action, -, owner, howner, agent, -, recordedAt, -, h⟩ := h
  obtain rfl := Option.some.inj h
  obtain ⟨v, -, hread⟩ := Source.required_some howner
  exact OwnerIdentity.deserialize_built hread

end ProvenanceHistoryEntry

/-! ## Originals of federated records -/

namespace FederatedOriginalProvenance

structure Built (p : FederatedOriginalProvenance) : Prop where
  creator : p.creator.Built
  author : ∀ a ∈ p.sourceAuthor, a.Built
  refs : ∀ r ∈ p.sourceRefs, r.Built

def fields (target : Target) (p : FederatedOriginalProvenance) : List (String × Option Json) :=
  [("origin", some (p.origin.serialize target)), ("record_id", text p.recordId),
    ("creator", some (p.creator.serialize target)), ("source_author", writeAuthor p.sourceAuthor),
    ("source_refs", writeRefs p.sourceRefs)]

def serialize (target : Target) (p : FederatedOriginalProvenance) : Json :=
  target.object (p.fields target)

def fieldNames : List String := ["origin", "record_id", "creator", "source_author", "source_refs"]

/-- `TryFrom<FederatedOriginalProvenanceWire>`. -/
def tryFrom (value : FederatedOriginalProvenance) :
    Except ProvenanceError FederatedOriginalProvenance := do
  value.validate
  return value

def deserialize (j : Json) : Option FederatedOriginalProvenance := do
  let raw ← strict fieldNames j
  let origin ← raw.required "origin" StorageOrigin.deserialize
  let recordId ← raw.optional "record_id" str
  let creator ← raw.required "creator" OwnerIdentity.deserialize
  let sourceAuthor ← readAuthor raw
  let sourceRefs ← readRefs raw
  (tryFrom ⟨origin, recordId, creator, sourceAuthor, sourceRefs⟩).toOption

theorem deserialize_serialize (target : Target) {p : FederatedOriginalProvenance} (h : p.Built)
    (hvalid : p.validate = .ok ()) : deserialize (p.serialize target) = some p := by
  obtain ⟨s, hs, hget⟩ := @strict_object fieldNames target (p.fields target)
    (show fieldNames.Nodup by decide) (List.Subset.refl fieldNames)
  have horigin := (Source.required_of_get (hget "origin")).trans
    (p.origin.deserialize_serialize target)
  have hrecord : s.optional "record_id" str = some p.recordId := optional_text (hget "record_id")
  have hcreator := (Source.required_of_get (hget "creator")).trans
    (OwnerIdentity.deserialize_serialize target h.creator)
  have hauthor := readAuthor_write (hget "source_author") h.author
  have hrefs := readRefs_write (hget "source_refs") h.refs
  rw [serialize, deserialize, hs]
  simp only [Option.bind_eq_bind, Option.bind_some, horigin, hrecord, hcreator, hauthor, hrefs,
    tryFrom, hvalid]
  rfl

theorem deserialize_built {j : Json} {p : FederatedOriginalProvenance}
    (h : deserialize j = some p) : p.Built := by
  simp only [deserialize, Option.bind_eq_bind, Option.bind_eq_some_iff] at h
  obtain ⟨raw, -, origin, -, recordId, -, creator, hcreator, author, hauthor, refs, hrefs, h⟩ := h
  have hvalue := toOption_some h
  unfold tryFrom at hvalue
  obtain ⟨_, -, hvalue⟩ := bind_ok hvalue
  obtain rfl := Except.ok.inj hvalue
  obtain ⟨v, -, hread⟩ := Source.required_some hcreator
  exact ⟨OwnerIdentity.deserialize_built hread, readAuthor_built hauthor, readRefs_built hrefs⟩

end FederatedOriginalProvenance

end

/-! ## Durable records -/

section
variable {parse : String → Option OffsetDateTime}

namespace PersistedProvenance

def appendHistory (p : PersistedProvenance) (entry : ProvenanceHistoryEntry) :
    Except ProvenanceError PersistedProvenance := do
  if p.history.length ≥ maxProvenanceHistory then
    throw (.tooManyHistoryEntries (p.history.length + 1) maxProvenanceHistory)
  validateHistoryEntry entry
  return { p with history := p.history ++ [entry] }

structure Parts (p : PersistedProvenance) : Prop where
  creator : p.creator.Built
  submitter : p.authenticatedSubmitter.Built
  author : ∀ a ∈ p.sourceAuthor, a.Built
  refs : ∀ r ∈ p.sourceRefs, r.Built
  original : ∀ o ∈ p.federatedOriginal, o.Built
  history : ∀ e ∈ p.history, e.Built
  deleted : ∀ e ∈ p.deletedBy, e.Built
  invalidated : ∀ e ∈ p.invalidatedBy, e.Built

inductive Built : PersistedProvenance → Prop
  | new {p p' : PersistedProvenance} (hparts : p.Parts)
    (hnew : PersistedProvenance.new p = .ok p') : Built p'
  | append {p p' : PersistedProvenance} {entry : ProvenanceHistoryEntry} (h : Built p)
    (hentry : entry.Built) (happend : p.appendHistory entry = .ok p') : Built p'

theorem new_ok {p p' : PersistedProvenance} :
    PersistedProvenance.new p = .ok p' ↔ p.validate = .ok () ∧ p' = p := by
  unfold PersistedProvenance.new
  constructor
  · intro h
    obtain ⟨⟨⟩, hvalid, h⟩ := bind_ok h
    exact ⟨hvalid, (Except.ok.inj h).symm⟩
  · rintro ⟨hvalid, rfl⟩
    rw [hvalid]
    rfl

theorem Built.parts {p : PersistedProvenance} (h : p.Built) : p.Parts := by
  induction h with
  | new hparts hnew =>
    obtain ⟨-, rfl⟩ := new_ok.1 hnew
    exact hparts
  | append h hentry happend ih =>
    unfold appendHistory at happend
    obtain ⟨-, happend⟩ := check_ok happend
    obtain ⟨_, -, happend⟩ := bind_ok happend
    obtain rfl := Except.ok.inj happend
    refine { ih with history := fun e he => ?_ }
    rcases List.mem_append.1 he with he | he
    · exact ih.history e he
    · rw [List.mem_singleton.1 he]
      exact hentry

def fields (target : Target) (p : PersistedProvenance) : List (String × Option Json) :=
  [("creator", some (p.creator.serialize target)),
    ("authenticated_submitter", some (p.authenticatedSubmitter.serialize target)),
    ("source_author", writeAuthor p.sourceAuthor), ("source_refs", writeRefs p.sourceRefs),
    ("storage_origin", some (p.storageOrigin.serialize target)),
    ("federated_original", p.federatedOriginal.map (·.serialize target)),
    ("history", items (·.serialize target) p.history),
    ("deleted_by", p.deletedBy.map (·.serialize target)),
    ("invalidated_by", p.invalidatedBy.map (·.serialize target))]

def serialize (target : Target) (p : PersistedProvenance) : Json := target.object (p.fields target)

def fieldNames : List String :=
  ["creator", "authenticated_submitter", "source_author", "source_refs", "storage_origin",
    "federated_original", "history", "deleted_by", "invalidated_by"]

variable (parse) in
/-- The wire form, and `TryFrom<PersistedProvenanceWire>`. -/
def deserialize (j : Json) : Option PersistedProvenance := do
  let raw ← strict fieldNames j
  let creator ← raw.required "creator" (ProvenanceHistoryEntry.deserialize parse)
  let authenticatedSubmitter ← raw.required "authenticated_submitter" OwnerIdentity.deserialize
  let sourceAuthor ← readAuthor raw
  let sourceRefs ← readRefs raw
  let storageOrigin ← raw.required "storage_origin" StorageOrigin.deserialize
  let federatedOriginal ←
    raw.optional "federated_original" FederatedOriginalProvenance.deserialize
  let history ← raw.orDefault "history" (list (ProvenanceHistoryEntry.deserialize parse)) []
  let deletedBy ← raw.optional "deleted_by" (ProvenanceHistoryEntry.deserialize parse)
  let invalidatedBy ← raw.optional "invalidated_by" (ProvenanceHistoryEntry.deserialize parse)
  (PersistedProvenance.new ⟨creator, authenticatedSubmitter, sourceAuthor, sourceRefs,
    storageOrigin, federatedOriginal, history, deletedBy, invalidatedBy⟩).toOption

theorem validate_original {p : PersistedProvenance} (h : p.validate = .ok ()) :
    ∀ o ∈ p.federatedOriginal, o.validate = .ok () := by
  intro o ho
  unfold validate at h
  obtain ⟨_, -, h⟩ := bind_ok h
  obtain ⟨-, h⟩ := check_ok h
  obtain ⟨_, horiginal, -⟩ := bind_ok h
  rwa [Option.mem_def.1 ho] at horiginal

theorem deserialize_serialize (hparse : RecordingTime.ReadsTimes parse) (target : Target)
    {p : PersistedProvenance} (h : p.Parts) (hvalid : p.validate = .ok ()) :
    deserialize parse (p.serialize target) = some p := by
  obtain ⟨s, hs, hget⟩ := @strict_object fieldNames target (p.fields target)
    (show fieldNames.Nodup by decide) (List.Subset.refl fieldNames)
  have hentry : ∀ {name : String} {entry : Option ProvenanceHistoryEntry},
      s.get name = entry.map (·.serialize target) → (∀ e ∈ entry, e.Built) →
      s.optional name (ProvenanceHistoryEntry.deserialize parse) = some entry :=
    fun hname hbuilt => Source.optional_write hname
      (fun e he => e.deserialize_serialize hparse target (hbuilt e he)) fun _ _ => nofun
  have hcreator := (Source.required_of_get (hget "creator")).trans
    (p.creator.deserialize_serialize hparse target h.creator)
  have hsubmitter := (Source.required_of_get (hget "authenticated_submitter")).trans
    (OwnerIdentity.deserialize_serialize target h.submitter)
  have hauthor := readAuthor_write (hget "source_author") h.author
  have hrefs := readRefs_write (hget "source_refs") h.refs
  have horigin := (Source.required_of_get (hget "storage_origin")).trans
    (p.storageOrigin.deserialize_serialize target)
  have horiginal : s.optional "federated_original" FederatedOriginalProvenance.deserialize =
      some p.federatedOriginal :=
    Source.optional_write (hget "federated_original")
      (fun o ho => o.deserialize_serialize target (h.original o ho) (validate_original hvalid o ho))
      fun _ _ => nofun
  have hhistory : s.orDefault "history" (list (ProvenanceHistoryEntry.deserialize parse)) [] =
      some p.history :=
    orDefault_items (hget "history") fun e he =>
      e.deserialize_serialize hparse target (h.history e he)
  have hdeleted := hentry (hget "deleted_by") h.deleted
  have hinvalidated := hentry (hget "invalidated_by") h.invalidated
  rw [serialize, deserialize, hs]
  simp only [Option.bind_eq_bind, Option.bind_some, hcreator, hsubmitter, hauthor, hrefs, horigin,
    horiginal, hhistory, hdeleted, hinvalidated, new_ok.2 ⟨hvalid, rfl⟩]
  rfl

theorem deserialize_built {j : Json} {p : PersistedProvenance}
    (h : deserialize parse j = some p) : p.Built ∧ p.validate = .ok () := by
  simp only [deserialize, Option.bind_eq_bind, Option.bind_eq_some_iff] at h
  obtain ⟨raw, -, creator, hcreator, submitter, hsubmitter, author, hauthor, refs, hrefs, origin, -,
    original, horiginal, history, hhistory, deletedBy, hdeleted, invalidatedBy, hinvalidated,
    h⟩ := h
  have hnew := toOption_some h
  obtain ⟨hvalid, rfl⟩ := new_ok.1 hnew
  have hentry : ∀ {name : String} {entry : Option ProvenanceHistoryEntry},
      raw.optional name (ProvenanceHistoryEntry.deserialize parse) = some entry →
      ∀ e ∈ entry, e.Built := fun hread e he => by
    obtain ⟨v, -, hv⟩ := Source.optional_some hread he
    exact ProvenanceHistoryEntry.deserialize_built hv
  refine ⟨.new ⟨?_, ?_, readAuthor_built hauthor, readRefs_built hrefs, fun o ho => ?_,
    fun e he => ?_, hentry hdeleted, hentry hinvalidated⟩ hnew, hvalid⟩
  · obtain ⟨v, -, hv⟩ := Source.required_some hcreator
    exact ProvenanceHistoryEntry.deserialize_built hv
  · obtain ⟨v, -, hv⟩ := Source.required_some hsubmitter
    exact OwnerIdentity.deserialize_built hv
  · obtain ⟨v, -, hv⟩ := Source.optional_some horiginal ho
    exact FederatedOriginalProvenance.deserialize_built hv
  · obtain ⟨v, hv⟩ := orDefault_list_some hhistory he
    exact ProvenanceHistoryEntry.deserialize_built hv

end PersistedProvenance

end

/-! ## Envelopes -/

def OwnerIdentity.ownerId : OwnerIdentity → Option OwnerId
  | unknown => none
  | authenticated owner => some owner.id

section
variable {parse : String → Option OffsetDateTime}

namespace ProvenanceEnvelope

def new (owner : OwnerIdentity) (recordedAt : RecordingTime) (origin : StorageOrigin) :
    ProvenanceEnvelope := ⟨owner, none, recordedAt, origin, none, none, []⟩

def withActor (p : ProvenanceEnvelope) (actor : AgentAttribution) : ProvenanceEnvelope :=
  { p with actor := some actor }

def withOperationId (p : ProvenanceEnvelope) (rawKey : String) :
    Except ProvenanceError ProvenanceEnvelope := do
  let key ← OwnerScopedKey.new p.owner.ownerId rawKey
  return { p with operationId := some key }

def withOperationKey (p : ProvenanceEnvelope) (key : OwnerScopedKey) :
    Except ProvenanceError ProvenanceEnvelope := do
  key.validate
  p.checkOwnerScope key
  return { p with operationId := some key }

def withSourceAuthor (p : ProvenanceEnvelope) (author : SourceAuthor) : ProvenanceEnvelope :=
  { p with sourceAuthor := some author }

def withSourceRefs (p : ProvenanceEnvelope) (refs : List SourceReference) :
    Except ProvenanceError ProvenanceEnvelope :=
  if refs.length > maxSourceRefs then .error (.tooManySourceRefs refs.length maxSourceRefs)
  else .ok { p with sourceRefs := refs }

inductive Built : ProvenanceEnvelope → Prop
  | new {owner : OwnerIdentity} (howner : owner.Built) (recordedAt : RecordingTime)
    (origin : StorageOrigin) : Built (new owner recordedAt origin)
  | withActor {p : ProvenanceEnvelope} (h : Built p) (actor : AgentAttribution) :
    Built (p.withActor actor)
  | withOperationId {p p' : ProvenanceEnvelope} (h : Built p) {rawKey : String}
    (hp : p.withOperationId rawKey = .ok p') : Built p'
  | withOperationKey {p p' : ProvenanceEnvelope} (h : Built p) {key : OwnerScopedKey}
    (hp : p.withOperationKey key = .ok p') : Built p'
  | withSourceAuthor {p : ProvenanceEnvelope} (h : Built p) {author : SourceAuthor}
    (hauthor : author.Built) : Built (p.withSourceAuthor author)
  | withSourceRefs {p p' : ProvenanceEnvelope} (h : Built p) {refs : List SourceReference}
    (hrefs : ∀ r ∈ refs, r.Built) (hp : p.withSourceRefs refs = .ok p') : Built p'

structure Parts (p : ProvenanceEnvelope) : Prop where
  owner : p.owner.Built
  author : ∀ a ∈ p.sourceAuthor, a.Built
  refs : ∀ r ∈ p.sourceRefs, r.Built

theorem Built.parts {p : ProvenanceEnvelope} (h : p.Built) : p.Parts := by
  induction h with
  | new howner _ _ => exact ⟨howner, nofun, nofun⟩
  | withActor _ _ ih => exact ⟨ih.owner, ih.author, ih.refs⟩
  | withOperationId _ hp ih =>
    obtain ⟨_, -, hp⟩ := bind_ok hp
    obtain rfl := Except.ok.inj hp
    exact ⟨ih.owner, ih.author, ih.refs⟩
  | withOperationKey _ hp ih =>
    obtain ⟨_, -, hp⟩ := bind_ok hp
    obtain ⟨_, -, hp⟩ := bind_ok hp
    obtain rfl := Except.ok.inj hp
    exact ⟨ih.owner, ih.author, ih.refs⟩
  | withSourceAuthor _ hauthor ih =>
    refine ⟨ih.owner, fun a ha => ?_, ih.refs⟩
    obtain rfl := Option.some.inj ha
    exact hauthor
  | withSourceRefs _ hrefs hp ih =>
    unfold ProvenanceEnvelope.withSourceRefs at hp
    split at hp
    · cases hp
    · obtain rfl := Except.ok.inj hp
      exact ⟨ih.owner, ih.author, hrefs⟩

theorem validate_iff {p : ProvenanceEnvelope} : p.validate = .ok () ↔
    p.sourceRefs.length ≤ maxSourceRefs ∧
      ∀ key ∈ p.operationId, p.checkOwnerScope key = .ok () := by
  unfold validate
  constructor
  · intro h
    obtain ⟨hrefs, h⟩ := check_ok h
    refine ⟨not_lt.1 hrefs, fun key hkey => ?_⟩
    rwa [Option.mem_def.1 hkey] at h
  · rintro ⟨hrefs, hkeys⟩
    rw [if_neg (not_lt.2 hrefs)]
    cases hop : p.operationId with
    | none => rfl
    | some key => exact hkeys key hop

def fields (target : Target) (p : ProvenanceEnvelope) : List (String × Option Json) :=
  [("owner", some (p.owner.serialize target)), ("actor", p.actor.map (·.serialize target)),
    ("recorded_at", some p.recordedAt.serialize), ("origin", some (p.origin.serialize target)),
    ("operation_id", p.operationId.map (·.serialize target)),
    ("source_author", writeAuthor p.sourceAuthor), ("source_refs", writeRefs p.sourceRefs)]

def serialize (target : Target) (p : ProvenanceEnvelope) : Except ProvenanceError Json := do
  p.validate
  return target.object (p.fields target)

def fieldNames : List String :=
  ["owner", "actor", "recorded_at", "origin", "operation_id", "source_author", "source_refs"]

def restoreRefs (p : ProvenanceEnvelope) (refs : List SourceReference) :
    Except ProvenanceError ProvenanceEnvelope :=
  if refs.isEmpty then .ok p else p.withSourceRefs refs

/-- The envelope is put together again by its constructors. -/
def restore (owner : OwnerIdentity) (actor : Option AgentAttribution) (recordedAt : RecordingTime)
    (origin : StorageOrigin) (operationId : Option OwnerScopedKey)
    (sourceAuthor : Option SourceAuthor) (sourceRefs : List SourceReference) :
    Except ProvenanceError ProvenanceEnvelope := do
  let envelope := new owner recordedAt origin
  let envelope := actor.elim envelope envelope.withActor
  let envelope ← operationId.elim (.ok envelope) envelope.withOperationKey
  let envelope := sourceAuthor.elim envelope envelope.withSourceAuthor
  let envelope ← envelope.restoreRefs sourceRefs
  envelope.validate
  return envelope

variable (parse) in
def deserialize (j : Json) : Option ProvenanceEnvelope := do
  let raw ← strict fieldNames j
  let owner ← raw.required "owner" OwnerIdentity.deserialize
  let actor ← raw.optional "actor" AgentAttribution.deserialize
  let recordedAt ← raw.required "recorded_at" (RecordingTime.deserialize parse)
  let origin ← raw.required "origin" StorageOrigin.deserialize
  let operationId ← raw.optional "operation_id" OwnerScopedKey.deserialize
  let sourceAuthor ← readAuthor raw
  let sourceRefs ← readRefs raw
  (restore owner actor recordedAt origin operationId sourceAuthor sourceRefs).toOption

/-- The scope of a key is checked against the owner alone. -/
theorem checkOwnerScope_congr {p p' : ProvenanceEnvelope} (h : p.owner = p'.owner)
    (key : OwnerScopedKey) : p.checkOwnerScope key = p'.checkOwnerScope key := by
  simp only [checkOwnerScope, h]

theorem restore_ok {p : ProvenanceEnvelope} (h : p.validate = .ok ()) :
    restore p.owner p.actor p.recordedAt p.origin p.operationId p.sourceAuthor p.sourceRefs =
      .ok p := by
  obtain ⟨hrefs, hscope⟩ := validate_iff.1 h
  obtain ⟨owner, actor, recordedAt, origin, operationId, author, refs⟩ := p
  have hkey : operationId.elim (.ok ⟨owner, actor, recordedAt, origin, none, none, []⟩)
      (withOperationKey ⟨owner, actor, recordedAt, origin, none, none, []⟩) =
        .ok (⟨owner, actor, recordedAt, origin, operationId, none, []⟩ : ProvenanceEnvelope) := by
    cases operationId with
    | none => rfl
    | some key =>
      have hchecked : (⟨owner, actor, recordedAt, origin, none, none, []⟩ :
          ProvenanceEnvelope).checkOwnerScope key = .ok () :=
        (checkOwnerScope_congr rfl key).trans (hscope key rfl)
      show withOperationKey _ key = _
      rw [withOperationKey, key.validate_ok, hchecked]
      rfl
  have hlisted : restoreRefs ⟨owner, actor, recordedAt, origin, operationId, author, []⟩ refs =
      .ok ⟨owner, actor, recordedAt, origin, operationId, author, refs⟩ := by
    cases refs with
    | nil => rfl
    | cons r refs => rw [restoreRefs, if_neg (by simp), withSourceRefs, if_neg (not_lt.2 hrefs)]
  have hactor : actor.elim (new owner recordedAt origin) (new owner recordedAt origin).withActor =
      ⟨owner, actor, recordedAt, origin, none, none, []⟩ := by
    cases actor <;> rfl
  have hauthor : author.elim
      (⟨owner, actor, recordedAt, origin, operationId, none, []⟩ : ProvenanceEnvelope)
      (withSourceAuthor ⟨owner, actor, recordedAt, origin, operationId, none, []⟩) =
        ⟨owner, actor, recordedAt, origin, operationId, author, []⟩ := by
    cases author <;> rfl
  simp only [restore, hactor, hkey, bind, Except.bind, hauthor, hlisted, h]
  rfl

theorem restore_built {owner : OwnerIdentity} {actor : Option AgentAttribution}
    {recordedAt : RecordingTime} {origin : StorageOrigin} {operationId : Option OwnerScopedKey}
    {author : Option SourceAuthor} {refs : List SourceReference} {p : ProvenanceEnvelope}
    (howner : owner.Built) (hauthor : ∀ a ∈ author, a.Built) (hrefs : ∀ r ∈ refs, r.Built)
    (h : restore owner actor recordedAt origin operationId author refs = .ok p) :
    p.Built ∧ p.validate = .ok () := by
  unfold restore at h
  obtain ⟨keyed, hkeyed, h⟩ := bind_ok h
  obtain ⟨listed, hlisted, h⟩ := bind_ok h
  obtain ⟨⟨⟩, hvalid, h⟩ := bind_ok h
  obtain rfl := Except.ok.inj h
  refine ⟨?_, hvalid⟩
  have hnamed : (actor.elim (new owner recordedAt origin)
      (new owner recordedAt origin).withActor).Built := by
    cases actor with
    | none => exact .new howner recordedAt origin
    | some actor => exact .withActor (.new howner recordedAt origin) actor
  have hkeyed' : keyed.Built := by
    cases operationId with
    | none =>
      obtain rfl := Except.ok.inj hkeyed
      exact hnamed
    | some key => exact .withOperationKey hnamed hkeyed
  have hauthored : (author.elim keyed keyed.withSourceAuthor).Built := by
    cases author with
    | none => exact hkeyed'
    | some author => exact .withSourceAuthor hkeyed' (hauthor author rfl)
  unfold restoreRefs at hlisted
  split at hlisted
  · obtain rfl := Except.ok.inj hlisted
    exact hauthored
  · exact .withSourceRefs hauthored hrefs hlisted

theorem deserialize_serialize (hparse : RecordingTime.ReadsTimes parse) (target : Target)
    {p : ProvenanceEnvelope} (h : p.Parts) (hvalid : p.validate = .ok ()) :
    ∃ j, p.serialize target = .ok j ∧ deserialize parse j = some p := by
  refine ⟨target.object (p.fields target), by rw [serialize, hvalid]; rfl, ?_⟩
  obtain ⟨s, hs, hget⟩ := @strict_object fieldNames target (p.fields target)
    (show fieldNames.Nodup by decide) (List.Subset.refl fieldNames)
  have howner := (Source.required_of_get (hget "owner")).trans
    (OwnerIdentity.deserialize_serialize target h.owner)
  have hactor : s.optional "actor" AgentAttribution.deserialize = some p.actor :=
    Source.optional_write (hget "actor") (fun a _ => a.deserialize_serialize target)
      fun _ _ => nofun
  have htime := (Source.required_of_get (hget "recorded_at")).trans
    (RecordingTime.deserialize_serialize hparse p.recordedAt)
  have horigin := (Source.required_of_get (hget "origin")).trans
    (p.origin.deserialize_serialize target)
  have hkey : s.optional "operation_id" OwnerScopedKey.deserialize = some p.operationId :=
    Source.optional_write (hget "operation_id") (fun k _ => k.deserialize_serialize target)
      fun _ _ => nofun
  have hauthor := readAuthor_write (hget "source_author") h.author
  have hrefs := readRefs_write (hget "source_refs") h.refs
  rw [deserialize, hs]
  simp only [Option.bind_eq_bind, Option.bind_some, howner, hactor, htime, horigin, hkey, hauthor,
    hrefs, restore_ok hvalid]
  rfl

theorem deserialize_built {j : Json} {p : ProvenanceEnvelope}
    (h : deserialize parse j = some p) : p.Built ∧ p.validate = .ok () := by
  simp only [deserialize, Option.bind_eq_bind, Option.bind_eq_some_iff] at h
  obtain ⟨raw, -, owner, howner, actor, -, recordedAt, -, origin, -, key, -, author, hauthor,
    refs, hrefs, h⟩ := h
  obtain ⟨v, -, hv⟩ := Source.required_some howner
  exact restore_built (OwnerIdentity.deserialize_built hv) (readAuthor_built hauthor)
    (readRefs_built hrefs) (toOption_some h)

end ProvenanceEnvelope

end

/-! ## The formats -/

/-- **The JSON of provenance is a faithful format**: what is built and valid comes back as it was
written, what a reader accepts is valid and comes back too, and an accepted owner is somebody just
if its document has all four fields of an owner, and nobody just if it has none. -/
theorem provenance_faithful {parse : String → Option OffsetDateTime}
    (hparse : RecordingTime.ReadsTimes parse) (target : Target) :
    Faithful (fun owner : OwnerIdentity => .ok (owner.serialize target)) OwnerIdentity.deserialize
      OwnerIdentity.Built OwnerIdentity.validate ∧
    (∀ j owner, OwnerIdentity.deserialize j = some owner → OwnerFields j owner) ∧
    Faithful (fun origin : StorageOrigin => .ok (origin.serialize target))
      StorageOrigin.deserialize StorageOrigin.Built StorageOrigin.validate ∧
    Faithful (fun t : RecordingTime => .ok t.serialize) (RecordingTime.deserialize parse)
      RecordingTime.Built RecordingTime.validate ∧
    Faithful (ProvenanceEnvelope.serialize target) (ProvenanceEnvelope.deserialize parse)
      ProvenanceEnvelope.Built ProvenanceEnvelope.validate ∧
    Faithful (fun p : PersistedProvenance => .ok (p.serialize target))
      (PersistedProvenance.deserialize parse) PersistedProvenance.Built
      PersistedProvenance.validate := by
  refine ⟨?_, fun j owner => OwnerIdentity.deserialize_fields, ?_, ?_, ?_, ?_⟩
  · exact .of_built (fun owner h _ => ⟨_, rfl, owner.deserialize_serialize target h⟩)
      fun j owner h => ⟨OwnerIdentity.deserialize_built h, owner.validate_ok⟩
  · exact .of_built (fun origin _ _ => ⟨_, rfl, origin.deserialize_serialize target⟩)
      fun j origin _ => ⟨origin.built, origin.validate_ok⟩
  · exact .of_built (fun t _ _ => ⟨_, rfl, t.deserialize_serialize hparse⟩)
      fun j t _ => ⟨⟨t.time, t.fromOffsetDateTime_time⟩, t.validate_ok⟩
  · exact .of_built (fun p h hvalid => p.deserialize_serialize hparse target h.parts hvalid)
      fun j p => ProvenanceEnvelope.deserialize_built
  · exact .of_built
      (fun p h hvalid => ⟨_, rfl, p.deserialize_serialize hparse target h.parts hvalid⟩)
      fun j p => PersistedProvenance.deserialize_built

open Classical in
noncomputable def readPrinted (s : String) : Option OffsetDateTime :=
  if h : ∃ t : RecordingTime, t.time.rfc3339 = s then some h.choose.time else none

theorem readPrinted_reads : RecordingTime.ReadsTimes readPrinted := by
  intro t
  have h : ∃ t' : RecordingTime, t'.time.rfc3339 = t.time.rfc3339 := ⟨t, rfl⟩
  rw [readPrinted, dif_pos h]
  exact congrArg some (OffsetDateTime.rfc3339_inj h.choose.formattable t.formattable h.choose_spec)

theorem epoch_formattable : (⟨0, 0⟩ : OffsetDateTime).Formattable := by
  decide

theorem validateOriginId_local : validateOriginId "local" = .ok () := by
  decide

def ann : AuthenticatedOwner :=
  ⟨⟨"ann", by rfl⟩, ⟨"https://id.example", by rfl⟩,
    ⟨"s-1", by rfl⟩, ⟨"ann@example.org", by rfl⟩⟩

/-- A note that ann has signed, written by an agent from one source. -/
def signedEnvelope : ProvenanceEnvelope where
  owner := .authenticated ann
  actor := some ⟨⟨"scribe", by rfl⟩, .callerAsserted⟩
  recordedAt := ⟨⟨0, 0⟩, rfl, epoch_formattable⟩
  origin := .localOrigin "local" validateOriginId_local
  operationId := some ⟨some ann.id, "op-1", by rfl, by rfl⟩
  sourceAuthor := some ⟨"Ann", by rfl⟩
  sourceRefs := [⟨"notes.md", by rfl⟩]

theorem signedEnvelope_built : signedEnvelope.Built := by
  have hann : (OwnerIdentity.authenticated ann).Built := ⟨"ann@example.org", by rfl⟩
  have hsigned := ((ProvenanceEnvelope.Built.new hann ⟨⟨0, 0⟩, rfl, epoch_formattable⟩
    (.localOrigin "local" validateOriginId_local)).withActor
    ⟨⟨"scribe", by rfl⟩, .callerAsserted⟩).withOperationId
    (by rfl : ProvenanceEnvelope.withOperationId _ "op-1" = _)
  have hauthor : SourceAuthor.Built ⟨"Ann", by rfl⟩ := ⟨"Ann", by rfl⟩
  have href : SourceReference.Built ⟨"notes.md", by rfl⟩ := ⟨"notes.md", by rfl⟩
  exact (hsigned.withSourceAuthor hauthor).withSourceRefs (List.forall_mem_singleton.2 href) (by rfl)

theorem provenance_faithful_sample :
    (∃ j, signedEnvelope.serialize .text = .ok j ∧
      ProvenanceEnvelope.deserialize readPrinted j = some signedEnvelope) ∧
    OwnerIdentity.deserialize (OwnerIdentity.unknown.serialize .text) = some .unknown ∧
    ∀ j, OwnerIdentity.deserialize j = some .unknown → OwnerFields j .unknown := by
  obtain ⟨howner, hfields, -, -, henvelope, -⟩ := provenance_faithful readPrinted_reads .text
  refine ⟨henvelope.back _ signedEnvelope_built (by decide +kernel), ?_, fun j => hfields j _⟩
  obtain ⟨-, j, hj, hread⟩ := howner.sound (.str "LEGACY") .unknown (by decide)
  obtain rfl := Except.ok.inj hj
  exact hread

end AgentPalace
