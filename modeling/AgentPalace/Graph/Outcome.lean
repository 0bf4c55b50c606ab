import AgentPalace.Graph.Registry

/-!
# What the operations do to the facts

`Added` lists what an `add_fact` can do: fail, find an active fact of its triple,
or write the row of its request. `Closes` is what an invalidation does: some
active facts get their end.
-/

namespace AgentPalace.Graph

open Tx

/-! ## Adding -/

def reqTriple (db : GraphDb) (request : AddFactRequest) : String × String × String :=
  (idFor db request.subject request.subjectType, canonicalizeLabel request.predicate,
    idFor db request.object request.objectType)

/-- The fact a request stores when its triple has no active fact. -/
def factOf (db : GraphDb) (request : AddFactRequest) (now : OffsetDateTime)
    (provenance : Option PersistedProvenance) : KnowledgeGraphFact :=
  newFact request (reqTriple db request).1 (reqTriple db request).2.2 now provenance

/-- What an upsert makes of the row that has the id. -/
def overwritten (fact old : KnowledgeGraphFact) : KnowledgeGraphFact :=
  { fact with factId := old.factId, createdAt := old.createdAt }

structure Registered (db : GraphDb) (request : AddFactRequest) (now : OffsetDateTime)
    (db' : GraphDb) : Prop where
  ends : ∃ between, Ensured db request.subject request.subjectType now
      (.ok (idFor db request.subject request.subjectType)) between ∧
    Ensured between request.object request.objectType now
      (.ok (idFor between request.object request.objectType)) db'

theorem Registered.facts {db db' : GraphDb} {request : AddFactRequest} {now : OffsetDateTime}
    (h : Registered db request now db') : db'.facts = db.facts := by
  obtain ⟨between, hsubject, hobject⟩ := h.ends
  rw [hobject.facts, hsubject.facts]

/-- What an `add_fact` can do. -/
inductive Added (db : GraphDb) (request : AddFactRequest) (now : OffsetDateTime)
    (provenance : Option PersistedProvenance) : Except GraphError String → GraphDb → Prop where
  | failed {e : GraphError} {db' : GraphDb} (h : db'.facts = db.facts) :
      Added db request now provenance (.error e) db'
  | existing {db' : GraphDb} (hreg : Registered db request now db') {fact : KnowledgeGraphFact}
      (h : fact ∈ activeFacts db (reqTriple db request)) :
      Added db request now provenance (.ok fact.factId) db'
  | stored {db' : GraphDb} (hreg : Registered db request now db')
      (hnone : activeFacts db (reqTriple db request) = []) {facts : Table KnowledgeGraphFact.factId}
      (hfacts : ∀ f, f ∈ facts.rows ↔
        f ∈ db.facts.rows ∧ f.factId ≠ (factOf db request now provenance).factId ∨
        f = (db.facts.get? (factOf db request now provenance).factId).elim
          (factOf db request now provenance) (overwritten (factOf db request now provenance))) :
      Added db request now provenance (.ok (factOf db request now provenance).factId)
        { db' with facts := facts }

theorem activeFacts_congr {db db' : GraphDb} (h : db'.facts = db.facts)
    (triple : String × String × String) : activeFacts db' triple = activeFacts db triple := by
  rw [activeFacts, activeFacts, h]

instance : Std.Total KnowledgeGraphFact.before where
  total a b := by
    unfold KnowledgeGraphFact.before
    rcases lt_trichotomy a.startText b.startText with h | h | h
    · exact .inl (.inl h)
    · rcases le_total a.factId b.factId with h' | h'
      · exact .inl (.inr ⟨h, h'⟩)
      · exact .inr (.inr ⟨h.symm, h'⟩)
    · exact .inr (.inl h)

theorem run_findActiveFact (s p o : String) (db : GraphDb) :
    (∃ e, (findActiveFact s p o).run db = (.error e, db)) ∨
      (∃ fact ∈ activeFacts db (s, p, o), (findActiveFact s p o).run db = (.ok (some fact), db)) ∨
      activeFacts db (s, p, o) = [] ∧ (findActiveFact s p o).run db = (.ok none, db) := by
  cases hhead : ((activeFacts db (s, p, o)).insertionSort KnowledgeGraphFact.before).head? with
  | none =>
    have hnil : activeFacts db (s, p, o) = [] := by
      have hsorted := List.head?_eq_none_iff.1 hhead
      rw [← List.length_eq_zero_iff, List.length_insertionSort] at hsorted
      exact List.length_eq_zero_iff.1 hsorted
    exact .inr (.inr ⟨hnil, run_read_ok (by simp only [hhead])⟩)
  | some fact =>
    have hmem : fact ∈ activeFacts db (s, p, o) :=
      (List.mem_insertionSort _).1 (List.mem_of_head? hhead)
    cases hdecode : fact.decode with
    | error e => exact .inl ⟨_, run_read_error (e := e) (by simp only [hhead, hdecode]; rfl)⟩
    | ok fact' =>
      refine .inr (.inl ⟨fact, hmem, run_read_ok ?_⟩)
      rw [← decode_fact hdecode]
      simp only [hhead, hdecode]
      rfl

theorem addFact_outcome (request : AddFactRequest) (now : OffsetDateTime)
    (provenance : Option PersistedProvenance) (db : GraphDb) :
    Added db request now provenance ((addFactWithProvenance request now provenance).run db).1
      ((addFactWithProvenance request now provenance).run db).2 := by
  have hsubject := autocommit_ensureEntity request.subject request.subjectType now
  have hobject := autocommit_ensureEntity request.object request.objectType now
  have houtcome := ensureEntity_outcome request.subject request.subjectType now db
  unfold addFactWithProvenance
  rcases hrun : (ensureEntity request.subject request.subjectType now).run db with ⟨r, between⟩
  rw [hrun] at houtcome
  cases r with
  | error e =>
    rw [hsubject.run_error hrun]
    exact .failed houtcome.facts
  | ok sid =>
    rw [hsubject.run_ok hrun]
    have hsid : sid = idFor db request.subject request.subjectType := houtcome.answer
    subst hsid
    have houtcome' := ensureEntity_outcome request.object request.objectType now between
    rcases hrun' : (ensureEntity request.object request.objectType now).run between with ⟨r, db'⟩
    rw [hrun'] at houtcome'
    cases r with
    | error e =>
      rw [hobject.run_error hrun']
      exact .failed (houtcome'.facts.trans houtcome.facts)
    | ok oid =>
      rw [hobject.run_ok hrun']
      have hoid : oid = idFor between request.object request.objectType := houtcome'.answer
      subst hoid
      have hreg : Registered db request now db' := ⟨⟨between, houtcome, houtcome'⟩⟩
      rw [idFor_ensured houtcome]
      have hs : idFor db request.subject request.subjectType = (reqTriple db request).1 := rfl
      have hp : canonicalizeLabel request.predicate = (reqTriple db request).2.1 := rfl
      have ho : idFor db request.object request.objectType = (reqTriple db request).2.2 := rfl
      rw [hs, hp, ho]
      have hfind : Autocommit (findActiveFact (reqTriple db request).1 (reqTriple db request).2.1
        (reqTriple db request).2.2) := autocommit_read _
      rcases run_findActiveFact (reqTriple db request).1 (reqTriple db request).2.1
        (reqTriple db request).2.2 db' with ⟨e, h⟩ | ⟨fact, hfact, h⟩ | ⟨hnone, h⟩
      · rw [hfind.run_error h]
        exact .failed hreg.facts
      · rw [hfind.run_ok h]
        rw [activeFacts_congr hreg.facts] at hfact
        exact .existing hreg hfact
      · rw [hfind.run_ok h]
        rw [activeFacts_congr hreg.facts] at hnone
        refine .stored hreg hnone fun f => ?_
        rw [← hreg.facts]
        exact Table.mem_upsert

/-! ## Invalidating -/

/-- A row after an invalidation: as it was, or an active one with its end. -/
def ClosedBy (f f' : KnowledgeGraphFact) : Prop :=
  f' = f ∨ f.isActive = true ∧
    ∃ endedAt updatedAt provenance, f' = f.closed endedAt updatedAt provenance

structure Closes (db db' : GraphDb) : Prop where
  entities : db'.entities = db.entities
  kept : ∀ f ∈ db.facts.rows, ∃ f' ∈ db'.facts.rows, ClosedBy f f'
  source : ∀ f' ∈ db'.facts.rows, ∃ f ∈ db.facts.rows, ClosedBy f f'

theorem ClosedBy.trans {f g h : KnowledgeGraphFact} (hfg : ClosedBy f g) (hgh : ClosedBy g h) :
    ClosedBy f h := by
  rcases hfg with rfl | ⟨hactive, endedAt, updatedAt, provenance, rfl⟩
  · exact hgh
  · rcases hgh with rfl | ⟨hactive', _⟩
    · exact .inr ⟨hactive, endedAt, updatedAt, provenance, rfl⟩
    · cases hactive'

theorem Closes.refl (db : GraphDb) : Closes db db :=
  ⟨rfl, fun f hf => ⟨f, hf, .inl rfl⟩, fun f hf => ⟨f, hf, .inl rfl⟩⟩

theorem Closes.trans {a b c : GraphDb} (hab : Closes a b) (hbc : Closes b c) : Closes a c where
  entities := hbc.entities.trans hab.entities
  kept f hf := by
    obtain ⟨g, hg, hfg⟩ := hab.kept f hf
    obtain ⟨h, hh, hgh⟩ := hbc.kept g hg
    exact ⟨h, hh, hfg.trans hgh⟩
  source h hh := by
    obtain ⟨g, hg, hgh⟩ := hbc.source h hh
    obtain ⟨f, hf, hfg⟩ := hab.source g hg
    exact ⟨f, hf, hfg.trans hgh⟩

theorem closeWhere_run (p : KnowledgeGraphFact → Bool) (hp : ∀ f, p f = true → f.isActive = true)
    (endedAt : Date) (updatedAt : OffsetDateTime)
    (provenance : KnowledgeGraphFact → Option PersistedProvenance) (db : GraphDb) :
    ∃ changed db', (closeWhere p endedAt updatedAt provenance).run db = (.ok changed, db') ∧
      Closes db db' := by
  have hrow : ∀ f, ClosedBy f (if p f then f.closed endedAt updatedAt (provenance f) else f) := by
    intro f
    split
    · exact .inr ⟨hp f ‹_›, endedAt, updatedAt, provenance f, rfl⟩
    · exact .inl rfl
  refine ⟨_, _, rfl, rfl, fun f hf => ⟨_, List.mem_map_of_mem hf, hrow f⟩, fun f' hf' => ?_⟩
  obtain ⟨f, hf, rfl⟩ := List.mem_map.1 hf'
  exact ⟨f, hf, hrow f⟩

theorem autocommit_closeWhere (p : KnowledgeGraphFact → Bool) (endedAt : Date)
    (updatedAt : OffsetDateTime) (provenance : KnowledgeGraphFact → Option PersistedProvenance) :
    Autocommit (closeWhere p endedAt updatedAt provenance) :=
  .bind (.query _) fun _ => .bind (autocommit_write _) fun _ => .pure _

/-- One round of the loop over the rows to close. -/
def closeRow (endedAt : Date) (updatedAt : OffsetDateTime) (provenance : Option PersistedProvenance)
    (changed : Nat) (row : String × Option PersistedProvenance) : GTx Nat := do
  let merged ← Tx.lift ((mergedProvenance row.2 provenance).mapError .storage)
  return changed + (← closeFact row.1 endedAt updatedAt merged)

theorem autocommit_closeRow (endedAt : Date) (updatedAt : OffsetDateTime)
    (provenance : Option PersistedProvenance) (changed : Nat)
    (row : String × Option PersistedProvenance) :
    Autocommit (closeRow endedAt updatedAt provenance changed row) :=
  .bind (.lift _) fun _ => .bind (autocommit_closeWhere _ _ _ _) fun _ => .pure _

theorem closeRow_closes (endedAt : Date) (updatedAt : OffsetDateTime)
    (provenance : Option PersistedProvenance) (changed : Nat)
    (row : String × Option PersistedProvenance) (db : GraphDb) :
    Closes db ((closeRow endedAt updatedAt provenance changed row).run db).2 := by
  unfold closeRow
  cases hmerged : mergedProvenance row.2 provenance with
  | error e => exact .refl db
  | ok merged =>
    obtain ⟨n, db', hrun, hcloses⟩ := closeWhere_run
      (fun f => f.factId = row.1 && f.isActive) (fun f hf => by simp at hf; exact hf.2) endedAt
      updatedAt (fun _ => merged) db
    rw [run_lift (e := (Except.ok merged).mapError GraphError.storage) rfl]
    have hclose : Autocommit (closeFact row.1 endedAt updatedAt merged) :=
      autocommit_closeWhere _ _ _ _
    rw [hclose.run_ok hrun]
    exact hcloses

theorem closeRows_closes (endedAt : Date) (updatedAt : OffsetDateTime)
    (provenance : Option PersistedProvenance) (rows : List (String × Option PersistedProvenance))
    (changed : Nat) (db : GraphDb) :
    Closes db ((rows.foldlM (closeRow endedAt updatedAt provenance) changed).run db).2 := by
  induction rows generalizing changed db with
  | nil => exact .refl db
  | cons row rows ih =>
    rw [List.foldlM_cons]
    have hauto := autocommit_closeRow endedAt updatedAt provenance changed row
    have hcloses := closeRow_closes endedAt updatedAt provenance changed row db
    rcases hrun : (closeRow endedAt updatedAt provenance changed row).run db with ⟨r, db'⟩
    rw [hrun] at hcloses
    cases r with
    | error e =>
      rw [hauto.run_error hrun]
      exact hcloses
    | ok n =>
      rw [hauto.run_ok hrun]
      exact hcloses.trans (ih n db')

theorem invalidateActiveFact_closes (s p o : String) (endedAt : Date) (now : OffsetDateTime)
    (db : GraphDb) : Closes db ((invalidateActiveFact s p o endedAt now).run db).2 := by
  obtain ⟨n, db', hrun, hcloses⟩ := closeWhere_run
    (fun f => f.triple = (s, p, o) && f.isActive && f.startsBy endedAt)
    (fun f hf => by simp only [Bool.and_eq_true] at hf; exact hf.1.2) endedAt now (·.provenance) db
  rw [invalidateActiveFact, hrun]
  exact hcloses

theorem autocommit_resolveEntityId (name : String) : Autocommit (resolveEntityId name) := by
  refine .bind (autocommit_findRegisteredEntity _ _) fun known => ?_
  cases known with
  | some id => exact .pure id
  | none =>
    refine .bind (autocommit_read _) fun entities => ?_
    cases legacyEntity entities name with
    | some id => exact .pure id
    | none => exact .throw _

theorem run_resolveEntityId (name : String) (db : GraphDb) :
    ∃ r, (resolveEntityId name).run db = (r, db) := by
  have hfind := autocommit_findRegisteredEntity name none
  have hlist : Autocommit listEntities := autocommit_read _
  unfold resolveEntityId
  rcases run_findRegisteredEntity name none db with ⟨e, h⟩ | ⟨_, h⟩
  · exact ⟨_, hfind.run_error h⟩
  · rw [hfind.run_ok h]
    cases firstCarrier (sortedEntities db) name none with
    | some entry => exact ⟨_, rfl⟩
    | none =>
      simp only [Option.map_none]
      rcases run_listEntities db with ⟨e, h⟩ | ⟨_, h⟩
      · exact ⟨_, hlist.run_error h⟩
      · rw [hlist.run_ok h]
        cases legacyEntity (sortedEntities db) name with
        | some id => exact ⟨_, rfl⟩
        | none => exact ⟨_, rfl⟩

theorem invalidate_closes (subject predicate object : String) (endedAt : Date)
    (now : OffsetDateTime) (provenance : Option PersistedProvenance) (db : GraphDb) :
    Closes db
      ((invalidateWithProvenance subject predicate object endedAt now provenance).run db).2 := by
  have hsubject := autocommit_resolveEntityId subject
  have hobject := autocommit_resolveEntityId object
  unfold invalidateWithProvenance
  obtain ⟨r, hrun⟩ := run_resolveEntityId subject db
  cases r with
  | error e => rw [hsubject.run_error hrun]; exact .refl db
  | ok sid =>
    rw [hsubject.run_ok hrun]
    obtain ⟨r, hrun'⟩ := run_resolveEntityId object db
    cases r with
    | error e => rw [hobject.run_error hrun']; exact .refl db
    | ok oid =>
      rw [hobject.run_ok hrun', invalidateActiveFactWithProvenance, run_query]
      exact closeRows_closes _ _ _ _ _ _

end AgentPalace.Graph
