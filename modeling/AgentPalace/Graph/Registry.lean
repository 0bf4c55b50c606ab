import AgentPalace.Graph.Runtime
import AgentPalace.Lib.Checked
import Mathlib.Data.String.Basic

/-!
# The registry of entities

`Ensured` lists what becomes of a name that a fact is added under. A name of a
kind stands for one id (`idFor`), a function of the registry: that of the first
row that knows the name (`FoundAt`), or the one made of its label. Registering a
name moves no other name's id (`idFor_ensured`).
-/

namespace AgentPalace.Graph

open Tx

/-! ## Statements -/

section

variable {α β : Type} {db : GraphDb}

theorem run_read_ok {f : GraphDb → Except StorageError α} {a : α} (h : f db = .ok a) :
    (read f).run db = (.ok a, db) := by
  show ((f db).mapError GraphError.storage, db) = _
  rw [h]
  rfl

theorem run_read_error {f : GraphDb → Except StorageError α} {e : StorageError}
    (h : f db = .error e) : (read f).run db = (.error (.storage e), db) := by
  show ((f db).mapError GraphError.storage, db) = _
  rw [h]
  rfl

theorem autocommit_read (f : GraphDb → Except StorageError α) : Autocommit (read f) :=
  .bind (.query _) fun _ => .lift _

theorem autocommit_write (f : GraphDb → GraphDb) : Autocommit (write f) := fun _ => rfl

end

/-! ## Decoded lists -/

theorem decodeTime_ok {t t' : OffsetDateTime} (h : decodeTime t = .ok t') : t' = t := by
  unfold decodeTime at h
  split at h
  · cases h; rfl
  · cases h

theorem decode_entity {e e' : EntityRecord} (h : e.decode = .ok e') : e' = e := by
  unfold EntityRecord.decode at h
  cases ht : decodeTime e.updatedAt with
  | error x => rw [ht] at h; cases h
  | ok t => rw [ht, decodeTime_ok ht] at h; cases h; rfl

theorem decode_fact {f f' : KnowledgeGraphFact} (h : f.decode = .ok f') : f' = f := by
  unfold KnowledgeGraphFact.decode at h
  cases hc : decodeTime f.createdAt with
  | error x => rw [hc] at h; cases h
  | ok c =>
    cases hu : decodeTime f.updatedAt with
    | error x => rw [hc, hu] at h; cases h
    | ok u =>
      rw [hc, hu, decodeTime_ok hc, decodeTime_ok hu] at h
      simp only [bind, Except.bind] at h
      split at h
      · split at h
        · cases h; rfl
        · cases h
      · cases h; rfl

theorem mapM_decode {α ε : Type} {f : α → Except ε α} (hf : ∀ {a a'}, f a = .ok a' → a' = a)
    {xs ys : List α} (h : xs.mapM f = .ok ys) : ys = xs ∧ ∀ x ∈ xs, f x = .ok x := by
  have hall := (list_mapM_iff.1 h).imp fun _ _ hdecode => (hf hdecode).symm
  refine ⟨(List.forall₂_eq_eq_eq ▸ hall : xs = ys).symm, fun x hx => ?_⟩
  obtain ⟨y, hy⟩ := list_mapM_mem h x hx
  rw [hy, hf hy]

theorem mapM_of_decode {α ε : Type} {f : α → Except ε α} {xs : List α}
    (h : ∀ x ∈ xs, f x = .ok x) : xs.mapM f = .ok xs := by
  have hok := list_mapM_ok (g := id) h
  rwa [List.map_id] at hok

/-! ## Entities -/

def idFor (db : GraphDb) (name : String) (kind : EntityKind) : String :=
  ((firstCarrier (sortedEntities db) name (some kind)).map (·.id)).getD (entityId kind name)

theorem isEntityId_idFor (db : GraphDb) (name : String) (kind : EntityKind) :
    IsEntityId (idFor db name kind) := by
  unfold idFor
  cases firstCarrier (sortedEntities db) name (some kind) with
  | none => exact ⟨kind, name, rfl⟩
  | some entry => exact ⟨entry.entityType, entry.canonicalName, rfl⟩

/-- The row of a name that is met for the first time. -/
def newRecord (name : String) (kind : EntityKind) (now : OffsetDateTime) : EntityRecord :=
  { entityId := entityId kind name, entityType := kind.asStr, payload := some (newEntry name kind)
    updatedAt := now }

/-- The registry can be listed: its times can be read back. -/
def Readable (db : GraphDb) : Prop := ∀ row ∈ db.entities.rows, row.updatedAt.Formattable

/-- What `ensure_entity` can do. -/
inductive Ensured (db : GraphDb) (name : String) (kind : EntityKind) (now : OffsetDateTime) :
    Except GraphError String → GraphDb → Prop where
  | failed {e : GraphError} : Ensured db name kind now (.error e) db
  | known (hread : Readable db) {entry : RegistryEntry}
      (h : firstCarrier (sortedEntities db) name (some kind) = some entry) :
      Ensured db name kind now (.ok (idFor db name kind)) db
  /-- The id belongs to an entity that is not known by the name. -/
  | taken (hread : Readable db) (h : firstCarrier (sortedEntities db) name (some kind) = none)
      {row : EntityRecord} (hrow : db.entities.get? (entityId kind name) = some row) :
      Ensured db name kind now (.ok (idFor db name kind)) db
  | registered (hread : Readable db)
      (h : firstCarrier (sortedEntities db) name (some kind) = none)
      (hfresh : db.entities.get? (entityId kind name) = none)
      {entities : Table EntityRecord.entityId}
      (hrows : entities.rows = db.entities.rows ++ [newRecord name kind now]) :
      Ensured db name kind now (.ok (idFor db name kind)) { db with entities := entities }

theorem decode_entity_iff {e : EntityRecord} : e.decode = .ok e ↔ e.updatedAt.Formattable := by
  constructor
  · intro h
    by_contra hnot
    rw [EntityRecord.decode, decodeTime, if_neg hnot] at h
    cases h
  · intro h
    rw [EntityRecord.decode, decodeTime, if_pos h]
    rfl

theorem run_listEntities_of_readable {db : GraphDb} (h : Readable db) :
    listEntities.run db = (.ok (sortedEntities db), db) := by
  refine run_read_ok (mapM_of_decode fun row hrow => ?_)
  exact decode_entity_iff.2 (h row ((List.mem_insertionSort _).1 hrow))

theorem run_listEntities (db : GraphDb) :
    (∃ e, listEntities.run db = (.error e, db)) ∨
      Readable db ∧ listEntities.run db = (.ok (sortedEntities db), db) := by
  cases h : (sortedEntities db).mapM EntityRecord.decode with
  | error e => exact .inl ⟨_, run_read_error h⟩
  | ok es =>
    obtain ⟨rfl, hall⟩ := mapM_decode decode_entity h
    refine .inr ⟨fun row hrow => ?_, run_read_ok h⟩
    exact decode_entity_iff.1 (hall row ((List.mem_insertionSort _).2 hrow))

theorem run_getEntity (id : String) (db : GraphDb) :
    (∃ e, (getEntity id).run db = (.error e, db)) ∨
      (getEntity id).run db = (.ok (db.entities.get? id), db) := by
  cases hget : db.entities.get? id with
  | none => exact .inr (run_read_ok (by simp only [hget]))
  | some row =>
    cases hrow : row.decode with
    | error e => exact .inl ⟨_, run_read_error (e := e) (by simp only [hget, hrow]; rfl)⟩
    | ok row' =>
      refine .inr (run_read_ok ?_)
      rw [← decode_entity hrow]
      simp only [hget, hrow]
      rfl

theorem run_findRegisteredEntity_of_readable {db : GraphDb} (h : Readable db) (name : String)
    (kind : Option EntityKind) : (findRegisteredEntity name kind).run db =
      (.ok ((firstCarrier (sortedEntities db) name kind).map (·.id)), db) := by
  have hlist : Autocommit listEntities := autocommit_read _
  exact hlist.run_ok (run_listEntities_of_readable h)

theorem run_findRegisteredEntity (name : String) (kind : Option EntityKind) (db : GraphDb) :
    (∃ e, (findRegisteredEntity name kind).run db = (.error e, db)) ∨
      Readable db ∧ (findRegisteredEntity name kind).run db =
        (.ok ((firstCarrier (sortedEntities db) name kind).map (·.id)), db) := by
  have hlist : Autocommit listEntities := autocommit_read _
  rcases run_listEntities db with ⟨e, h⟩ | ⟨hread, h⟩
  · exact .inl ⟨e, hlist.run_error h⟩
  · exact .inr ⟨hread, hlist.run_ok h⟩

theorem autocommit_findRegisteredEntity (name : String) (kind : Option EntityKind) :
    Autocommit (findRegisteredEntity name kind) :=
  .bind (autocommit_read _) fun _ => .pure _

theorem autocommit_ensureEntity (name : String) (kind : EntityKind) (now : OffsetDateTime) :
    Autocommit (ensureEntity name kind now) := by
  refine .bind (autocommit_findRegisteredEntity _ _) fun known => ?_
  cases known with
  | some id => exact .pure id
  | none =>
    refine .bind (autocommit_read _) fun row => ?_
    cases row with
    | none => exact .bind (autocommit_write _) fun _ => .pure _
    | some row => exact .pure _

theorem ensureEntity_outcome (name : String) (kind : EntityKind) (now : OffsetDateTime)
    (db : GraphDb) : Ensured db name kind now ((ensureEntity name kind now).run db).1
      ((ensureEntity name kind now).run db).2 := by
  have hfind := autocommit_findRegisteredEntity name (some kind)
  have hget : Autocommit (getEntity (entityId kind name)) := autocommit_read _
  unfold ensureEntity
  rcases run_findRegisteredEntity name (some kind) db with ⟨e, h⟩ | ⟨hread, h⟩
  · rw [hfind.run_error h]
    exact .failed
  · rw [hfind.run_ok h]
    cases hknown : firstCarrier (sortedEntities db) name (some kind) with
    | some entry =>
      have hid : entry.id = idFor db name kind := by simp only [idFor, hknown]; rfl
      show Ensured db name kind now (.ok entry.id) db
      rw [hid]
      exact .known hread hknown
    | none =>
      have hid : entityId kind name = idFor db name kind := by simp only [idFor, hknown]; rfl
      simp only [Option.map_none]
      rcases run_getEntity (entityId kind name) db with ⟨e, h⟩ | h
      · rw [hget.run_error h]
        exact .failed
      · rw [hget.run_ok h]
        cases hrow : db.entities.get? (entityId kind name) with
        | some row =>
          show Ensured db name kind now (.ok (entityId kind name)) db
          rw [hid]
          exact .taken hread hknown hrow
        | none =>
          have hregistered : ∀ entities : Table EntityRecord.entityId,
              entities.rows = db.entities.rows ++ [newRecord name kind now] →
              Ensured db name kind now (.ok (entityId kind name)) { db with entities := entities } := by
            intro entities hrows
            rw [hid]
            exact .registered hread hknown hrow hrows
          exact hregistered _ (Table.rows_upsert_of_none hrow)

/-! ## Who is known by a name -/

/-- The row is an entity, of the kind if one is asked for, that is known by the name. -/
def EntityRecord.knows (name : String) (kind : Option EntityKind) (row : EntityRecord) : Bool :=
  row.payload.any fun entry =>
    kind.all (fun k => entry.entityType = k) && entry.carries name

theorem EntityRecord.knows_congr {a b : String} (h : eqIgnoreAsciiCase a b = true)
    (kind : Option EntityKind) (row : EntityRecord) : row.knows a kind = row.knows b kind := by
  simp only [knows, RegistryEntry.carries_congr _ h]

theorem EntityRecord.knows_iff {name : String} {kind : Option EntityKind} {row : EntityRecord} :
    row.knows name kind = true ↔ ∃ entry, row.payload = some entry ∧
      (∀ k, kind = some k → entry.entityType = k) ∧ entry.carries name = true := by
  rw [knows, Option.any_eq_true]
  simp only [Bool.and_eq_true, Option.all_eq_true_iff_get, decide_eq_true_eq]
  refine exists_congr fun entry => and_congr_right fun _ => and_congr_left fun _ => ?_
  cases kind <;> simp

theorem firstCarrier_eq (entities : List EntityRecord) (name : String) (kind : Option EntityKind) :
    firstCarrier entities name kind =
      (entities.find? (EntityRecord.knows name kind)).bind (·.payload) := List.find?_filterMap

instance : Std.Total EntityRecord.before where
  total a b := by
    unfold EntityRecord.before
    rcases lt_trichotomy a.entityType b.entityType with h | h | h
    · exact .inl (.inl h)
    · rcases le_total a.entityId b.entityId with h' | h'
      · exact .inl (.inr ⟨h, h'⟩)
      · exact .inr (.inr ⟨h.symm, h'⟩)
    · exact .inr (.inl h)

instance : IsTrans EntityRecord EntityRecord.before where
  trans a b c hab hbc := by
    unfold EntityRecord.before at *
    rcases hab with hab | ⟨hab, hid⟩ <;> rcases hbc with hbc | ⟨hbc, hid'⟩
    · exact .inl (hab.trans hbc)
    · exact .inl (hbc ▸ hab)
    · exact .inl (hab ▸ hbc)
    · exact .inr ⟨hab.trans hbc, hid.trans hid'⟩

theorem EntityRecord.before_antisymm {a b : EntityRecord} (h : a.before b) (h' : b.before a) :
    a.entityId = b.entityId := by
  rcases h with h | ⟨htype, hid⟩ <;> rcases h' with h' | ⟨htype', hid'⟩
  · exact absurd h' h.asymm
  · exact absurd htype' h.ne'
  · exact absurd htype h'.ne'
  · exact le_antisymm hid hid'

/-- The row a name is found at: the first one that knows it. -/
def FoundAt (db : GraphDb) (name : String) (kind : Option EntityKind) (row : EntityRecord) : Prop :=
  row ∈ db.entities.rows ∧ row.knows name kind = true ∧
    ∀ other ∈ db.entities.rows, other.knows name kind = true → row.before other

theorem firstCarrier_some {db : GraphDb} {name : String} {kind : Option EntityKind}
    {entry : RegistryEntry} (h : firstCarrier (sortedEntities db) name kind = some entry) :
    ∃ row, FoundAt db name kind row ∧ row.payload = some entry := by
  rw [firstCarrier_eq] at h
  obtain ⟨row, hrow, hpayload⟩ := Option.bind_eq_some_iff.1 h
  exact ⟨row, find?_insertionSort hrow, hpayload⟩

theorem firstCarrier_none {db : GraphDb} {name : String} {kind : Option EntityKind} :
    firstCarrier (sortedEntities db) name kind = none ↔
      ∀ row ∈ db.entities.rows, row.knows name kind = false := by
  rw [firstCarrier_eq, Option.bind_eq_none_iff]
  constructor
  · intro h row hrow
    cases hfind : (sortedEntities db).find? (EntityRecord.knows name kind) with
    | none =>
      have := List.find?_eq_none.1 hfind row ((List.mem_insertionSort _).2 hrow)
      simpa using this
    | some first =>
      have hpayload := h first hfind
      have hknows := List.find?_some hfind
      rw [EntityRecord.knows, hpayload] at hknows
      cases hknows
  · intro h row hfind
    have hmem := (List.mem_insertionSort _).1 (List.mem_of_find?_eq_some hfind)
    have hknows := List.find?_some hfind
    rw [h row hmem] at hknows
    cases hknows

theorem FoundAt.unique {db db' : GraphDb} {name : String} {kind : Option EntityKind}
    {row row' : EntityRecord} (h : FoundAt db name kind row) (h' : FoundAt db' name kind row')
    (hrows : ∀ r, r.knows name kind = true → (r ∈ db.entities.rows ↔ r ∈ db'.entities.rows)) :
    row = row' := by
  have hrow := (hrows row h.2.1).1 h.1
  have hrow' := (hrows row' h'.2.1).2 h'.1
  refine Table.eq_of_key_eq hrow h'.1 ?_
  exact EntityRecord.before_antisymm (h.2.2 row' hrow' h'.2.1) (h'.2.2 row hrow h.2.1)

theorem firstCarrier_congr {db db' : GraphDb} {name : String} {kind : Option EntityKind}
    (hrows : ∀ r, r.knows name kind = true → (r ∈ db.entities.rows ↔ r ∈ db'.entities.rows)) :
    firstCarrier (sortedEntities db) name kind = firstCarrier (sortedEntities db') name kind := by
  have hnone : ∀ {d d' : GraphDb},
      (∀ r, r.knows name kind = true → (r ∈ d.entities.rows ↔ r ∈ d'.entities.rows)) →
      firstCarrier (sortedEntities d) name kind = none →
      firstCarrier (sortedEntities d') name kind = none := by
    intro d d' hrows h
    rw [firstCarrier_none] at h ⊢
    intro row hrow
    by_contra hknows
    rw [Bool.not_eq_false] at hknows
    have := h row ((hrows row hknows).2 hrow)
    rw [hknows] at this
    cases this
  cases h : firstCarrier (sortedEntities db) name kind with
  | none => exact (hnone hrows h).symm
  | some entry =>
    cases h' : firstCarrier (sortedEntities db') name kind with
    | none =>
      rw [hnone (fun r hr => (hrows r hr).symm) h'] at h
      cases h
    | some entry' =>
      obtain ⟨row, hfound, hpayload⟩ := firstCarrier_some h
      obtain ⟨row', hfound', hpayload'⟩ := firstCarrier_some h'
      rw [← hpayload, ← hpayload', hfound.unique hfound' hrows]

/-! ## After a name was added -/

theorem knows_newRecord {name name' : String} {kind kind' : EntityKind} {now : OffsetDateTime}
    (h : (newRecord name' kind' now).knows name (some kind) = true) :
    kind' = kind ∧ eqIgnoreAsciiCase name' name = true := by
  simpa [EntityRecord.knows, newRecord, newEntry, RegistryEntry.carries] using h

theorem newRecord_knows (name : String) (kind : EntityKind) (now : OffsetDateTime) :
    (newRecord name kind now).knows name (some kind) = true := by
  simp [EntityRecord.knows, newRecord, newEntry, RegistryEntry.carries, eqIgnoreAsciiCase]

theorem Ensured.facts {db db' : GraphDb} {name : String} {kind : EntityKind} {now : OffsetDateTime}
    {answer : Except GraphError String} (h : Ensured db name kind now answer db') :
    db'.facts = db.facts := by
  cases h <;> rfl

theorem Ensured.answer {db db' : GraphDb} {name id : String} {kind : EntityKind}
    {now : OffsetDateTime} (h : Ensured db name kind now (.ok id) db') : id = idFor db name kind := by
  cases h <;> rfl

/-- **Ids are stable**: what one name was given does not change what another one is. -/
theorem idFor_ensured {db db' : GraphDb} {name other : String} {kind otherKind : EntityKind}
    {now : OffsetDateTime} {answer : Except GraphError String}
    (h : Ensured db name kind now answer db') :
    idFor db' other otherKind = idFor db other otherKind := by
  cases h with
  | failed => rfl
  | known _ _ => rfl
  | taken _ _ _ => rfl
  | @registered _ hnone hfresh entities hrows =>
    by_cases hknows : (newRecord name kind now).knows other (some otherKind) = true
    · -- the new row knows the other name too: its label is the same
      obtain ⟨rfl, hcase⟩ := knows_newRecord hknows
      have hother : firstCarrier (sortedEntities db) other (some kind) = none := by
        rw [firstCarrier_none] at hnone ⊢
        intro row hrow
        rw [← EntityRecord.knows_congr hcase]
        exact hnone row hrow
      have hnew : firstCarrier (sortedEntities { db with entities := entities }) other (some kind) =
          some (newEntry name kind) := by
        cases hfirst :
            firstCarrier (sortedEntities { db with entities := entities }) other (some kind) with
        | none =>
          have := firstCarrier_none.1 hfirst (newRecord name kind now)
            (by rw [hrows]; exact List.mem_concat_self)
          rw [hknows] at this
          cases this
        | some entry =>
          obtain ⟨row, hfound, hpayload⟩ := firstCarrier_some hfirst
          have hmem := hfound.1
          rw [hrows, List.mem_append, List.mem_singleton] at hmem
          rcases hmem with hmem | rfl
          · have := firstCarrier_none.1 hother row hmem
            rw [hfound.2.1] at this
            cases this
          · exact hpayload.symm
      unfold idFor
      rw [hnew, hother]
      show entityId kind name = entityId kind other
      rw [entityId, canonicalizeLabel_congr hcase, entityId]
    · unfold idFor
      rw [@firstCarrier_congr _ db]
      intro row hrow
      rw [hrows, List.mem_append, List.mem_singleton]
      constructor
      · rintro (hmem | rfl)
        · exact hmem
        · exact absurd hrow hknows
      · exact .inl

end AgentPalace.Graph
