import AgentPalace.Core.Date
import AgentPalace.Core.PersistedProvenance
import AgentPalace.Storage.Basic

/-!
# Knowledge graph records

Entities and facts, and the labels their ids are made of. An entity is named by
its kind and the label of its name; a label keeps letters and digits of ASCII,
in lower case, and writes every run of other characters as one `_`.
-/

namespace AgentPalace.Graph

inductive EntityKind where
  | person
  | project
  | tool
  | concept
  | unknown
  | uncertain
  deriving DecidableEq

def EntityKind.asStr : EntityKind → String
  | person => "person"
  | project => "project"
  | tool => "tool"
  | concept => "concept"
  | unknown => "unknown"
  | uncertain => "uncertain"

structure RegistryEntry where
  schemaVersion : Nat
  name : String
  canonicalName : String
  entityType : EntityKind
  source : String
  contexts : List String
  aliases : List String
  relationship : Option String
  confidence : Nat
  ambiguous : Bool
  deriving DecidableEq

def registrySchemaVersion : Nat := 1

/-- A row of `entity_registry`. -/
structure EntityRecord where
  entityId : String
  entityType : String
  /-- What the JSON of the payload decodes to, if that is a registry entry. -/
  payload : Option RegistryEntry
  updatedAt : OffsetDateTime
  deriving DecidableEq

/-- A row of `knowledge_graph_facts`. -/
structure KnowledgeGraphFact where
  factId : String
  subjectEntityId : String
  predicate : String
  objectEntityId : String
  validFrom : Option Date
  validTo : Option Date
  /-- The bits of the `f32`. -/
  confidence : UInt32
  sourceDrawerId : Option DrawerId
  sourceFile : Option String
  createdAt : OffsetDateTime
  updatedAt : OffsetDateTime
  provenance : Option PersistedProvenance
  deriving DecidableEq

structure AddFactRequest where
  subject : String
  subjectType : EntityKind
  predicate : String
  object : String
  objectType : EntityKind
  validFrom : Option Date
  validTo : Option Date
  confidence : UInt32
  sourceDrawerId : Option DrawerId
  sourceFile : Option String
  deriving DecidableEq

inductive GraphError where
  | storage (e : StorageError)
  | unknownEntity (name : String)
  deriving DecidableEq

/-! ## Labels -/

/-- The characters of a label before its ends are trimmed. -/
def labelChars : (lastWasSep : Bool) → List Char → List Char
  | _, [] => []
  | lastWasSep, ch :: chars =>
    if isAsciiAlphanumeric ch then ch.toLower :: labelChars false chars
    else if !lastWasSep then '_' :: labelChars true chars
    else labelChars true chars

/-- `trim_matches('_')`. -/
def trimUnderscores (cs : List Char) : List Char :=
  ((cs.dropWhile (· = '_')).reverse.dropWhile (· = '_')).reverse

def canonicalizeLabel (value : String) : String :=
  String.ofList (trimUnderscores (labelChars false (trim value).toList))

def entityId (entityType : EntityKind) (name : String) : String :=
  entityType.asStr ++ ":" ++ canonicalizeLabel name

def eqIgnoreAsciiCase (a b : String) : Bool := toAsciiLowercase a = toAsciiLowercase b

/-- `split_once(':')`, the second half, with spaces for underscores. -/
def denormalizeEntityId (entityId : String) : String :=
  let value :=
    match entityId.toList.dropWhile (· ≠ ':') with
    | [] => entityId.toList
    | _ :: value => value
  String.ofList (value.map fun c => if c = '_' then ' ' else c)

/-- The last part of a fact's id: the day it is valid from, or the second it was added in. -/
def factStart (validFrom : Option Date) (createdAt : OffsetDateTime) : String :=
  match validFrom with
  | some date => date.text
  | none => toString (createdAt.nanos / 1000000000)

def factIdFor (subjectId predicate objectId start : String) : String :=
  "fact:" ++ subjectId ++ ":" ++ predicate ++ ":" ++ objectId ++ ":" ++ start

namespace RegistryEntry

/-- The entry is known by a name, in any ASCII case. -/
def carries (e : RegistryEntry) (name : String) : Bool :=
  eqIgnoreAsciiCase e.name name || eqIgnoreAsciiCase e.canonicalName name ||
    e.aliases.any fun a => eqIgnoreAsciiCase a name

def id (e : RegistryEntry) : String := entityId e.entityType e.canonicalName

end RegistryEntry

namespace KnowledgeGraphFact

/-- Neither invalidated nor added with an end date. -/
def isActive (f : KnowledgeGraphFact) : Bool := f.validTo.isNone

def isActiveOn (f : KnowledgeGraphFact) (date : Date) : Bool :=
  f.validFrom.all (fun start => start ≤ date) && f.validTo.all (fun stop => date ≤ stop)

def triple (f : KnowledgeGraphFact) : String × String × String :=
  (f.subjectEntityId, f.predicate, f.objectEntityId)

end KnowledgeGraphFact

/-! ## The shape of labels and ids -/

theorem colon_not_mem_labelChars (lastWasSep : Bool) (cs : List Char) :
    ':' ∉ labelChars lastWasSep cs := by
  have hlower : ∀ c : Char, isAsciiAlphanumeric c = true → c.toLower ≠ ':' := by
    intro c hc
    have hall : ∀ n < 128, isAsciiAlphanumeric (Char.ofNat n) = true →
        (Char.ofNat n).toLower ≠ ':' := by decide
    have hchar := hall c.toNat (lt_of_isAsciiAlphanumeric hc)
    rw [Char.ofNat_toNat] at hchar
    exact hchar hc
  induction cs generalizing lastWasSep with
  | nil => simp [labelChars]
  | cons c cs ih =>
    rw [labelChars]
    split
    · rename_i hc
      simp [Ne.symm (hlower c hc), ih]
    · split
      · simp [ih]
      · exact ih true

theorem mem_of_mem_trimUnderscores {c : Char} {cs : List Char} (h : c ∈ trimUnderscores cs) :
    c ∈ cs := by
  have h := (List.dropWhile_sublist _).mem (List.mem_reverse.1 h)
  exact (List.dropWhile_sublist _).mem (List.mem_reverse.1 h)

theorem colon_not_mem_label (value : String) : ':' ∉ (canonicalizeLabel value).toList := by
  rw [canonicalizeLabel, String.toList_ofList]
  exact fun h => colon_not_mem_labelChars _ _ (mem_of_mem_trimUnderscores h)

theorem colon_not_mem_kind (kind : EntityKind) : ':' ∉ kind.asStr.toList := by
  cases kind <;> decide

theorem append_colon_inj {xs xs' ys ys' : List Char} (h : ':' ∉ xs) (h' : ':' ∉ xs')
    (heq : xs ++ ':' :: ys = xs' ++ ':' :: ys') : xs = xs' ∧ ys = ys' := by
  induction xs generalizing xs' with
  | nil =>
    cases xs' with
    | nil => exact ⟨rfl, (List.cons.inj heq).2⟩
    | cons c cs => exact absurd ((List.cons.inj heq).1 ▸ List.mem_cons_self) h'
  | cons c cs ih =>
    cases xs' with
    | nil => exact absurd ((List.cons.inj heq).1 ▸ List.mem_cons_self) h
    | cons c' cs' =>
      rw [List.cons_append, List.cons_append] at heq
      obtain ⟨rfl, htail⟩ := List.cons.inj heq
      obtain ⟨rfl, rfl⟩ := ih (fun hm => h (List.mem_cons_of_mem _ hm))
        (fun hm => h' (List.mem_cons_of_mem _ hm)) htail
      exact ⟨rfl, rfl⟩

theorem labelChars_map_toLower (lastWasSep : Bool) (cs : List Char) :
    labelChars lastWasSep (cs.map Char.toLower) = labelChars lastWasSep cs := by
  induction cs generalizing lastWasSep with
  | nil => rfl
  | cons c cs ih =>
    simp only [List.map_cons, labelChars, isAsciiAlphanumeric_toLower, toLower_toLower, ih]

theorem canonicalizeLabel_congr {a b : String} (h : eqIgnoreAsciiCase a b = true) :
    canonicalizeLabel a = canonicalizeLabel b := by
  have hlower : ∀ v, canonicalizeLabel (toAsciiLowercase v) = canonicalizeLabel v := by
    intro v
    unfold canonicalizeLabel
    rw [trim_toAsciiLowercase]
    unfold toAsciiLowercase
    rw [String.toList_ofList, labelChars_map_toLower]
  have h : toAsciiLowercase a = toAsciiLowercase b := of_decide_eq_true h
  rw [← hlower a, h, hlower]

namespace RegistryEntry

theorem carries_congr {a b : String} (e : RegistryEntry) (h : eqIgnoreAsciiCase a b = true) :
    e.carries a = e.carries b := by
  have h : toAsciiLowercase a = toAsciiLowercase b := of_decide_eq_true h
  unfold carries eqIgnoreAsciiCase
  rw [h]

end RegistryEntry

theorem toList_entityId (kind : EntityKind) (name : String) :
    (entityId kind name).toList = kind.asStr.toList ++ ':' :: (canonicalizeLabel name).toList := by
  rw [entityId, String.toList_append, String.toList_append, List.append_assoc]
  rfl

def IsEntityId (id : String) : Prop := ∃ kind name, id = entityId kind name

/-- A fact's id determines its triple and its start. -/
theorem factIdFor_inj {sid sid' oid oid' start start' : String} {p p' : String}
    (hs : IsEntityId sid) (hs' : IsEntityId sid') (ho : IsEntityId oid) (ho' : IsEntityId oid')
    (h : factIdFor sid (canonicalizeLabel p) oid start =
      factIdFor sid' (canonicalizeLabel p') oid' start') :
    sid = sid' ∧ canonicalizeLabel p = canonicalizeLabel p' ∧ oid = oid' ∧ start = start' := by
  obtain ⟨k, n, rfl⟩ := hs
  obtain ⟨k', n', rfl⟩ := hs'
  obtain ⟨l, m, rfl⟩ := ho
  obtain ⟨l', m', rfl⟩ := ho'
  have hsplit : ∀ (k l : EntityKind) (n p m start : String),
      (factIdFor (entityId k n) (canonicalizeLabel p) (entityId l m) start).toList =
        "fact:".toList ++ (k.asStr.toList ++ ':' :: ((canonicalizeLabel n).toList ++ ':' ::
          ((canonicalizeLabel p).toList ++ ':' :: (l.asStr.toList ++ ':' ::
            ((canonicalizeLabel m).toList ++ ':' :: start.toList))))) := by
    intro k l n p m start
    have hcolon : ":".toList = [':'] := rfl
    simp only [factIdFor, String.toList_append, toList_entityId, hcolon, List.append_assoc,
      List.cons_append, List.nil_append]
  have h := congrArg String.toList h
  rw [hsplit, hsplit] at h
  obtain ⟨hk, h⟩ := append_colon_inj (colon_not_mem_kind k) (colon_not_mem_kind k')
    (List.append_cancel_left h)
  obtain ⟨hn, h⟩ := append_colon_inj (colon_not_mem_label n) (colon_not_mem_label n') h
  obtain ⟨hp, h⟩ := append_colon_inj (colon_not_mem_label p) (colon_not_mem_label p') h
  obtain ⟨hl, h⟩ := append_colon_inj (colon_not_mem_kind l) (colon_not_mem_kind l') h
  obtain ⟨hm, hstart⟩ := append_colon_inj (colon_not_mem_label m) (colon_not_mem_label m') h
  refine ⟨?_, String.toList_injective hp, ?_, String.toList_injective hstart⟩
  · rw [entityId, entityId, String.toList_injective hk, String.toList_injective hn]
  · rw [entityId, entityId, String.toList_injective hl, String.toList_injective hm]

theorem minus_not_mem_toDigits (m : Nat) : '-' ∉ Nat.toDigits 10 m := by
  intro hmem
  have := Nat.isDigit_of_mem_toDigits (by omega) (by omega) hmem
  revert this
  decide

theorem toList_toString_int (n : Int) :
    (toString n).toList = (if n < 0 then ['-'] else []) ++ Nat.toDigits 10 n.natAbs := by
  cases n with
  | ofNat m =>
    have hpos : ¬ Int.ofNat m < 0 := Int.not_lt.2 (Int.natCast_nonneg m)
    rw [if_neg hpos]
    exact Nat.toList_repr
  | negSucc m =>
    rw [if_pos (Int.negSucc_lt_zero m)]
    show ("-" ++ Nat.repr (m + 1)).toList = _
    rw [String.toList_append, Nat.toList_repr]
    rfl

theorem toString_int_inj {m n : Int} (h : toString m = toString n) : m = n := by
  have htext := congrArg String.toList h
  rw [toList_toString_int, toList_toString_int] at htext
  have habs : ∀ {a b : Nat}, Nat.toDigits 10 a = Nat.toDigits 10 b → a = b := by
    intro a b hdigits
    have := congrArg (fun cs => Nat.ofDigitChars 10 cs 0) hdigits
    simpa only [Nat.ofDigitChars_ten_toDigits] using this
  have hsign : ∀ {a b : Nat}, ['-'] ++ Nat.toDigits 10 a ≠ [] ++ Nat.toDigits 10 b := by
    intro a b heq
    refine minus_not_mem_toDigits b ?_
    rw [← List.nil_append (Nat.toDigits 10 b), ← heq]
    exact List.mem_cons_self
  split at htext <;> split at htext
  · have := habs (List.append_cancel_left htext)
    omega
  · exact absurd htext hsign
  · exact absurd htext.symm hsign
  · have := habs (List.append_cancel_left htext)
    omega

theorem minus_not_mem_tail (n : Int) : '-' ∉ (toString n).toList.tail := by
  rw [toList_toString_int]
  split
  · exact minus_not_mem_toDigits _
  · exact fun h => minus_not_mem_toDigits _ (List.mem_of_mem_tail h)

theorem minus_mem_tail (d : Date) : '-' ∈ d.text.toList.tail := by
  rw [Date.toList_text]
  split <;> simp [FixedWidth.digits]

theorem factStart_inj {d d' : Option Date} {t t' : OffsetDateTime} :
    factStart d t = factStart d' t' ↔
      d = d' ∧ (d = none → t.nanos / 1000000000 = t'.nanos / 1000000000) := by
  cases d with
  | none =>
    cases d' with
    | none =>
      simp only [factStart, true_and, forall_const]
      exact ⟨toString_int_inj, fun h => by rw [h]⟩
    | some e' =>
      simp only [factStart, reduceCtorEq, false_and, iff_false]
      intro h
      have := minus_mem_tail e'
      rw [← h] at this
      exact minus_not_mem_tail _ this
  | some e =>
    cases d' with
    | none =>
      simp only [factStart, reduceCtorEq, false_and, iff_false]
      intro h
      have := minus_mem_tail e
      rw [h] at this
      exact minus_not_mem_tail _ this
    | some e' =>
      simp only [factStart, Option.some.injEq, reduceCtorEq, false_implies, and_true]
      exact ⟨Date.text_inj, fun h => by rw [h]⟩

end AgentPalace.Graph
