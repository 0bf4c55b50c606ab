import AgentPalace.Graph.History

/-!
# Facts by name

A fact is added between names of a kind, and read and invalidated by names
alone. A name that the registry can record is known after the `add_fact`, and
reads by it take the first entity that is known by it, of any kind. Two names
are one entity when they are of one kind and their canonical names have one
label.
-/

namespace AgentPalace.Graph

open Tx

def Known (db : GraphDb) (name : String) (kind : EntityKind) : Prop :=
  ∃ row ∈ db.entities.rows, row.knows name (some kind) = true

/-- The name is known or the id made of its label is free, so the registry can record it. -/
def Nameable (db : GraphDb) (name : String) (kind : EntityKind) : Prop :=
  Known db name kind ∨ db.entities.get? (entityId kind name) = none

structure ReadAs (db : GraphDb) (name id : String) : Prop where
  resolve : (resolveEntityId name).run db = (.ok id, db)
  query : ∀ asOf direction today, (queryEntity name asOf direction today).run db =
    (queryEntityById id asOf direction today).run db
  timeline : ∀ today, (timeline (some name) today).run db = (timelineById (some id) today).run db

/-- The name of an added fact: it is recorded, and reads by it take the first entity it is found at,
which is the fact's when it is of the fact's kind. -/
structure ReachedBy (db : GraphDb) (name : String) (kind : EntityKind) (id : String) : Prop where
  known : Known db name kind
  read : ∃ row entry, FoundAt db name none row ∧ row.payload = some entry ∧
    ReadAs db name entry.id ∧ (entry.entityType = kind → entry.id = id)

/-! ## The registry after an `add_fact` -/

section

variable {db db' : GraphDb} {name : String} {kind : EntityKind} {now : OffsetDateTime}
  {answer : Except GraphError String}

theorem Ensured.mem (h : Ensured db name kind now answer db') {row : EntityRecord}
    (hrow : row ∈ db.entities.rows) : row ∈ db'.entities.rows := by
  cases h with
  | failed => exact hrow
  | known _ _ => exact hrow
  | taken _ _ _ => exact hrow
  | registered _ _ _ hrows =>
    rw [hrows]
    exact List.mem_append_left _ hrow

theorem Ensured.known_mono (h : Ensured db name kind now answer db') {other : String}
    {otherKind : EntityKind} (hknown : Known db other otherKind) : Known db' other otherKind := by
  obtain ⟨row, hrow, hknows⟩ := hknown
  exact ⟨row, h.mem hrow, hknows⟩

theorem known_of_firstCarrier {entry : RegistryEntry}
    (h : firstCarrier (sortedEntities db) name (some kind) = some entry) : Known db name kind := by
  obtain ⟨row, hfound, _⟩ := firstCarrier_some h
  exact ⟨row, hfound.1, hfound.2.1⟩

theorem not_known_of_firstCarrier (h : firstCarrier (sortedEntities db) name (some kind) = none) :
    ¬ Known db name kind := by
  rintro ⟨row, hrow, hknows⟩
  rw [firstCarrier_none.1 h row hrow] at hknows
  cases hknows

theorem Ensured.records {id : String} (h : Ensured db name kind now (.ok id) db')
    (hname : Nameable db name kind) : Known db' name kind := by
  cases h with
  | known _ hcarrier => exact known_of_firstCarrier hcarrier
  | taken _ hnone hrow =>
    rcases hname with hknown | hfree
    · exact absurd hknown (not_known_of_firstCarrier hnone)
    · rw [hfree] at hrow
      cases hrow
  | registered _ _ _ hrows =>
    refine ⟨newRecord name kind now, ?_, newRecord_knows name kind now⟩
    rw [hrows]
    exact List.mem_concat_self

theorem Ensured.readable {id : String} (h : Ensured db name kind now (.ok id) db')
    (hnow : now.Formattable) : Readable db' := by
  cases h with
  | known hread _ => exact hread
  | taken hread _ _ => exact hread
  | registered hread _ _ hrows =>
    intro row hrow
    rw [hrows, List.mem_append, List.mem_singleton] at hrow
    rcases hrow with hrow | rfl
    · exact hread row hrow
    · exact hnow

theorem entityId_inj {k k' : EntityKind} {n n' : String} (h : entityId k n = entityId k' n') :
    k = k' ∧ canonicalizeLabel n = canonicalizeLabel n' := by
  have h := congrArg String.toList h
  rw [toList_entityId, toList_entityId] at h
  obtain ⟨hk, hn⟩ := append_colon_inj (colon_not_mem_kind k) (colon_not_mem_kind k') h
  have hstr : ∀ k k' : EntityKind, k.asStr = k'.asStr → k = k' := by
    intro k k'
    cases k <;> cases k' <;> decide
  exact ⟨hstr k k' (String.toList_injective hk), String.toList_injective hn⟩

theorem Ensured.nameable {id other : String} {otherKind : EntityKind}
    (h : Ensured db name kind now (.ok id) db') (hname : Nameable db other otherKind)
    (hlabel : entityId kind name = entityId otherKind other →
      Known db name kind ∨ Known db other otherKind ∨ eqIgnoreAsciiCase name other = true) :
    Nameable db' other otherKind := by
  rcases hname with hknown | hfree
  · exact .inl (h.known_mono hknown)
  cases h with
  | known _ _ => exact .inr hfree
  | taken _ _ _ => exact .inr hfree
  | registered _ hnone hfresh hrows =>
    by_cases hid : entityId kind name = entityId otherKind other
    · obtain ⟨rfl, _⟩ := entityId_inj hid
      rcases hlabel hid with hknown | hknown | hcase
      · exact absurd hknown (not_known_of_firstCarrier hnone)
      · obtain ⟨row, hrow, hknows⟩ := hknown
        refine .inl ⟨row, ?_, hknows⟩
        rw [hrows]
        exact List.mem_append_left _ hrow
      · refine .inl ⟨newRecord name kind now, ?_, ?_⟩
        · rw [hrows]
          exact List.mem_concat_self
        · rw [← EntityRecord.knows_congr hcase]
          exact newRecord_knows name kind now
    · refine .inr ?_
      have hget := Table.get?_append hrows hfresh (entityId otherKind other)
      have hne : entityId otherKind other ≠ (newRecord name kind now).entityId := Ne.symm hid
      rwa [if_neg hne, hfree] at hget

end

/-! ## Reads -/

theorem knows_any {row : EntityRecord} {name : String} {kind : EntityKind}
    (h : row.knows name (some kind) = true) : row.knows name none = true := by
  obtain ⟨entry, hentry, _, hcarries⟩ := EntityRecord.knows_iff.1 h
  exact EntityRecord.knows_iff.2 ⟨entry, hentry, nofun, hcarries⟩

theorem readAs_of_resolve {db : GraphDb} {name id : String}
    (h : (resolveEntityId name).run db = (.ok id, db)) : ReadAs db name id where
  resolve := h
  query asOf direction today := (autocommit_resolveEntityId name).run_ok h
  timeline today := by
    have hmap : Autocommit (Option.mapM resolveEntityId (some name)) :=
      .bind (autocommit_resolveEntityId name) fun _ => .pure _
    have hrun : (Option.mapM resolveEntityId (some name)).run db = (.ok (some id), db) :=
      (autocommit_resolveEntityId name).run_ok h
    exact hmap.run_ok hrun

theorem reachedBy_of_known {db : GraphDb} {name : String} {kind : EntityKind} (hread : Readable db)
    (hknown : Known db name kind) : ReachedBy db name kind (idFor db name kind) := by
  refine ⟨hknown, ?_⟩
  obtain ⟨known, hmem, hknows⟩ := hknown
  have hfind := run_findRegisteredEntity_of_readable hread name none
  cases hfirst : firstCarrier (sortedEntities db) name none with
  | none =>
    have := firstCarrier_none.1 hfirst known hmem
    rw [knows_any hknows] at this
    cases this
  | some entry =>
    obtain ⟨row, hfound, hpayload⟩ := firstCarrier_some hfirst
    rw [hfirst] at hfind
    have hresolve : (resolveEntityId name).run db = (.ok entry.id, db) :=
      (autocommit_findRegisteredEntity name none).run_ok hfind
    refine ⟨row, entry, hfound, hpayload, readAs_of_resolve hresolve, fun hkind => ?_⟩
    -- the first entity of any kind is then the first one of this kind
    have hfoundKind : FoundAt db name (some kind) row := by
      refine ⟨hfound.1, ?_, fun other hother hk => hfound.2.2 other hother (knows_any hk)⟩
      obtain ⟨entry', hentry', _, hcarries⟩ := EntityRecord.knows_iff.1 hfound.2.1
      rw [hpayload] at hentry'
      cases hentry'
      exact EntityRecord.knows_iff.2
        ⟨entry, hpayload, fun k hk => (Option.some.inj hk) ▸ hkind, hcarries⟩
    cases hcarrier : firstCarrier (sortedEntities db) name (some kind) with
    | none => exact absurd ⟨known, hmem, hknows⟩ (not_known_of_firstCarrier hcarrier)
    | some entry' =>
      obtain ⟨row', hfound', hpayload'⟩ := firstCarrier_some hcarrier
      obtain rfl := hfoundKind.unique hfound' fun _ _ => Iff.rfl
      rw [hpayload] at hpayload'
      cases hpayload'
      simp only [idFor, hcarrier, Option.map_some, Option.getD_some]

/-! ## One entity -/

/-- The name an entity has in the registry, or the name itself. -/
def canonicalName (db : GraphDb) (name : String) (kind : EntityKind) : String :=
  ((firstCarrier (sortedEntities db) name (some kind)).map (·.canonicalName)).getD name

theorem idFor_eq (db : GraphDb) (name : String) (kind : EntityKind) :
    idFor db name kind = entityId kind (canonicalName db name kind) := by
  unfold idFor canonicalName
  cases h : firstCarrier (sortedEntities db) name (some kind) with
  | none => rfl
  | some entry =>
    obtain ⟨row, hfound, hpayload⟩ := firstCarrier_some h
    obtain ⟨entry', hentry', hkind, _⟩ := EntityRecord.knows_iff.1 hfound.2.1
    rw [hpayload] at hentry'
    cases hentry'
    simp only [Option.map_some, Option.getD_some, RegistryEntry.id, hkind kind rfl]

theorem idFor_inj {db : GraphDb} {n n' : String} {k k' : EntityKind}
    (h : idFor db n k = idFor db n' k') :
    k = k' ∧ canonicalizeLabel (canonicalName db n k) = canonicalizeLabel (canonicalName db n' k') := by
  rw [idFor_eq, idFor_eq] at h
  exact entityId_inj h

/-! ## One `add_fact` -/

theorem run_invalidate_of_readAs {db : GraphDb} {subject predicate object sid oid : String}
    (hsubject : ReadAs db subject sid) (hobject : ReadAs db object oid) (endedAt : Date)
    (now : OffsetDateTime) (provenance : Option PersistedProvenance) :
    (invalidateWithProvenance subject predicate object endedAt now provenance).run db =
      (invalidateActiveFactWithProvenance sid (canonicalizeLabel predicate) oid endedAt now
        provenance).run db := by
  unfold invalidateWithProvenance
  rw [(autocommit_resolveEntityId subject).run_ok hsubject.resolve,
    (autocommit_resolveEntityId object).run_ok hobject.resolve]

theorem registered_of_added {db db' : GraphDb} {request : AddFactRequest} {now : OffsetDateTime}
    {provenance : Option PersistedProvenance} {id : String}
    (h : Added db request now provenance (.ok id) db') :
    (∃ g ∈ db'.facts.rows, g.factId = id ∧ g.triple = reqTriple db request) ∧
      ∃ mid, Registered db request now mid ∧ db'.entities = mid.entities := by
  refine ⟨stored_of_added h, ?_⟩
  cases h with
  | existing hreg _ => exact ⟨_, hreg, rfl⟩
  | stored hreg _ _ => exact ⟨_, hreg, rfl⟩

theorem idFor_congr {db db' : GraphDb} (h : db'.entities = db.entities) (name : String)
    (kind : EntityKind) : idFor db' name kind = idFor db name kind := by
  unfold idFor sortedEntities
  rw [h]

/-- **Names**: a served `add_fact` answers a fact of the entities that its names stand for, and
changes what no name stands for. Each of its names that the registry can record is recorded, and
reads and invalidations by it work on the first entity it is found at, which is the fact's when it
is of the kind. Names that stand for one entity are of one kind and their canonical names have one
label. -/
theorem names_reach_facts {w w' : State} {request : AddFactRequest} {now : OffsetDateTime}
    {provenance : Option PersistedProvenance} {id : String} (hnow : now.Formattable)
    (hs : system.Step w ⟨.addFact request now provenance, .ok (.fact id)⟩ w') :
    (∃ g ∈ w'.db.facts.rows, g.factId = id ∧ g.triple = reqTriple w.db request ∧
      (Nameable w.db request.subject request.subjectType →
        ReachedBy w'.db request.subject request.subjectType g.subjectEntityId) ∧
      (Nameable w.db request.object request.objectType →
        (entityId request.subjectType request.subject = entityId request.objectType request.object →
          Known w.db request.subject request.subjectType ∨
            Known w.db request.object request.objectType ∨
            eqIgnoreAsciiCase request.subject request.object = true) →
        ReachedBy w'.db request.object request.objectType g.objectEntityId)) ∧
    (∀ sid oid, ReadAs w'.db request.subject sid → ReadAs w'.db request.object oid →
      ∀ endedAt now provenance,
        (invalidateWithProvenance request.subject request.predicate request.object endedAt now
          provenance).run w'.db =
        (invalidateActiveFactWithProvenance sid (canonicalizeLabel request.predicate) oid endedAt
          now provenance).run w'.db) ∧
    (∀ name kind, idFor w'.db name kind = idFor w.db name kind) ∧
    ∀ name kind name' kind', idFor w'.db name kind = idFor w'.db name' kind' →
      kind = kind' ∧ canonicalizeLabel (canonicalName w'.db name kind) =
        canonicalizeLabel (canonicalName w'.db name' kind') := by
  obtain ⟨⟨g, hg, hid, htriple⟩, mid, hreg, hentities⟩ := registered_of_added (step_addFact hs)
  obtain ⟨between, hsubject, hobject⟩ := hreg.ends
  have hread : Readable w'.db := by
    unfold Readable
    rw [hentities]
    exact hobject.readable hnow
  have hknown : ∀ {name kind}, Known mid name kind → Known w'.db name kind := by
    intro name kind h
    unfold Known
    rw [hentities]
    exact h
  have hstable : ∀ name kind, idFor w'.db name kind = idFor w.db name kind := by
    intro name kind
    rw [idFor_congr hentities, idFor_ensured hobject, idFor_ensured hsubject]
  refine ⟨⟨g, hg, hid, htriple, fun hname => ?_, fun hname hlabel => ?_⟩, ?_, hstable, ?_⟩
  · rw [show g.subjectEntityId = idFor w.db request.subject request.subjectType from
      (Prod.mk.inj htriple).1, ← hstable]
    exact reachedBy_of_known hread (hknown (hobject.known_mono (hsubject.records hname)))
  · rw [show g.objectEntityId = idFor w.db request.object request.objectType from
      (Prod.mk.inj (Prod.mk.inj htriple).2).2, ← hstable]
    exact reachedBy_of_known hread (hknown (hobject.records (hsubject.nameable hname hlabel)))
  · exact fun sid oid hsid hoid => run_invalidate_of_readAs hsid hoid
  · exact fun name kind name' kind' h => idFor_inj h

/-- Both names of the first fact of a graph reach its entities. -/
theorem names_reach_facts_sample :
    ∃ g ∈ ((Call.addFact sampleRequest sampleTime none).execute .empty).2.facts.rows,
      ReachedBy ((Call.addFact sampleRequest sampleTime none).execute .empty).2 "Alice" .person
        g.subjectEntityId ∧
      ReachedBy ((Call.addFact sampleRequest sampleTime none).execute .empty).2 "Rust" .project
        g.objectEntityId := by
  have hstep := store.step_exec (w := ⟨store.init, ()⟩) (c := .addFact sampleRequest sampleTime none)
    le_rfl
  have hanswer : (store.exec (.addFact sampleRequest sampleTime none) store.init).1 =
      .ok (.fact "fact:person:alice:works_on:project:rust:2026-04-02") := by decide +kernel
  rw [hanswer] at hstep
  obtain ⟨⟨g, hg, _, _, hsubject, hobject⟩, _⟩ := names_reach_facts (by decide +kernel) hstep
  exact ⟨g, hg, hsubject (.inr rfl), hobject (.inr rfl) fun h => nomatch (entityId_inj h).1⟩

/-- Cargo is a tool that Rust uses, where Rust is a tool as well as a project. -/
def toolRequest : AddFactRequest :=
  { sampleRequest with
    subject := "Rust", subjectType := .tool, predicate := "uses", object := "Cargo"
    objectType := .tool }

def rustProject : State :=
  (store.play ⟨store.init, ()⟩ [.addFact sampleRequest sampleTime none]).2

def katherine : EntityRecord :=
  { entityId := "person:katherine", entityType := "person"
    payload := some { newEntry "Katherine" .person with aliases := ["Kat"] }
    updatedAt := sampleTime }

/-- Reads by a name of two kinds take the first kind, and an alias is one entity with its
canonical name. -/
theorem name_of_two_kinds :
    (¬ ∀ w, system.Reachable w → ∀ request now provenance id w',
      system.Step w ⟨.addFact request now provenance, .ok (.fact id)⟩ w' →
      ∃ g ∈ w'.db.facts.rows, g.factId = id ∧
        ((resolveEntityId request.subject).run w'.db).1 = .ok g.subjectEntityId) ∧
    ¬ ∀ w, system.Reachable w → ∀ name name' kind,
      toAsciiLowercase (trim name) ≠ toAsciiLowercase (trim name') →
      idFor w.db name kind ≠ idFor w.db name' kind := by
  constructor
  · intro hclaim
    have hreach : system.Reachable rustProject :=
      store.reachable_play (t := ()) ⟨le_rfl, trivial⟩
    have hstep := store.step_exec (w := rustProject) (c := .addFact toolRequest sampleTime none)
      le_rfl
    have hanswer : (store.exec (.addFact toolRequest sampleTime none) rustProject.db).1 =
        .ok (.fact "fact:tool:rust:uses:tool:cargo:2026-04-02") := by decide +kernel
    rw [hanswer] at hstep
    obtain ⟨g, hg, hid, hresolve⟩ := hclaim _ hreach _ _ _ _ _ hstep
    have hproject : ((resolveEntityId toolRequest.subject).run
        (store.exec (.addFact toolRequest sampleTime none) rustProject.db).2).1 =
        .ok "project:rust" := by decide +kernel
    have htool : ∀ g ∈ (store.exec (.addFact toolRequest sampleTime none)
        rustProject.db).2.facts.rows,
        g.factId = "fact:tool:rust:uses:tool:cargo:2026-04-02" →
        g.subjectEntityId = "tool:rust" := by decide +kernel
    rw [hproject, htool g hg hid] at hresolve
    exact absurd hresolve (by decide)
  · intro hclaim
    have hreach : system.Reachable (store.play ⟨store.init, ()⟩ [.upsertEntity katherine]).2 :=
      store.reachable_play (t := ()) ⟨le_rfl, trivial⟩
    exact hclaim _ hreach "Kat" "Katherine" .person (by decide +kernel) (by decide +kernel)

end AgentPalace.Graph
