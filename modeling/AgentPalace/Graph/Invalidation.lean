import AgentPalace.Graph.Outcome

/-!
# Invalidating with and without a provenance

`invalidateActiveFact` ends the active facts of a triple in one statement. With
a provenance each fact is merged and written by itself, so the facts before one
whose provenance cannot be merged have ended when the call fails. `Merges` says
of the columns which facts can be merged.
-/

namespace AgentPalace.Graph

open Tx

/-! ## Merging -/

/-- The invalidation can be merged into the provenance of the fact. -/
def Merges (provenance : Option PersistedProvenance) (f : KnowledgeGraphFact) : Prop :=
  match provenance with
  | none => True
  | some incoming => incoming.validate = .ok () ∧
      match f.provenance with
      | some existing => existing.validate = .ok ()
      | none => incoming.invalidatedBy.isSome

theorem decodeProvenance_ok {p q : PersistedProvenance} :
    decodeProvenance p = .ok q ↔ p.validate = .ok () ∧ q = p := by
  unfold decodeProvenance
  split
  · rename_i h
    simp [h, eq_comm]
  · rename_i h
    simp [h]

theorem invalidatedBy_valid {p : PersistedProvenance} (h : p.validate = .ok ()) :
    p.invalidatedBy.forM (fun entry => requireProvenanceAction entry "invalidated_by" .invalidated) =
      .ok () := by
  unfold PersistedProvenance.validate at h
  obtain ⟨_, _, h⟩ := bind_ok h
  obtain ⟨_, h⟩ := check_ok h
  obtain ⟨_, _, h⟩ := bind_ok h
  obtain ⟨_, h⟩ := check_ok h
  obtain ⟨_, _, h⟩ := bind_ok h
  obtain ⟨_, _, h⟩ := bind_ok h
  exact h

def legacyProvenance (incoming : PersistedProvenance) (entry : ProvenanceHistoryEntry) :
    PersistedProvenance :=
  { creator := { action := .created, owner := .unknown, recordedAt := entry.recordedAt }
    authenticatedSubmitter := .unknown
    sourceAuthor := none
    sourceRefs := []
    storageOrigin := incoming.storageOrigin
    federatedOriginal := none
    history := []
    deletedBy := none
    invalidatedBy := incoming.invalidatedBy }

theorem legacyProvenance_valid {incoming : PersistedProvenance} (h : incoming.validate = .ok ())
    (entry : ProvenanceHistoryEntry) : (legacyProvenance incoming entry).validate = .ok () := by
  have hlast := invalidatedBy_valid h
  exact hlast

theorem merges_iff {provenance : Option PersistedProvenance} {f : KnowledgeGraphFact} :
    Merges provenance f ↔ ∃ merged, mergedProvenance f.provenance provenance = .ok merged := by
  unfold Merges mergedProvenance
  cases provenance with
  | none =>
    cases f.provenance with
    | none => exact ⟨fun _ => ⟨_, rfl⟩, fun _ => trivial⟩
    | some existing => exact ⟨fun _ => ⟨_, rfl⟩, fun _ => trivial⟩
  | some incoming =>
    cases hf : f.provenance with
    | some existing =>
      constructor
      · rintro ⟨hincoming, hexisting⟩
        refine ⟨some { existing with invalidatedBy := incoming.invalidatedBy }, ?_⟩
        simp only [decodeProvenance_ok.2 ⟨hexisting, rfl⟩, decodeProvenance_ok.2 ⟨hincoming, rfl⟩]
        rfl
      · rintro ⟨merged, h⟩
        obtain ⟨_, hexisting, h⟩ := bind_ok h
        obtain ⟨_, hincoming, h⟩ := bind_ok h
        exact ⟨(decodeProvenance_ok.1 hincoming).1, (decodeProvenance_ok.1 hexisting).1⟩
    | none =>
      constructor
      · rintro ⟨hincoming, hby⟩
        obtain ⟨entry, hentry⟩ := Option.isSome_iff_exists.1 hby
        refine ⟨some (legacyProvenance incoming entry), ?_⟩
        have hnew : PersistedProvenance.new (legacyProvenance incoming entry) =
            .ok (legacyProvenance incoming entry) := by
          unfold PersistedProvenance.new
          rw [legacyProvenance_valid hincoming entry]
          rfl
        simp only [decodeProvenance_ok.2 ⟨hincoming, rfl⟩, hentry, bind, Except.bind, okOr,
          Option.map_some]
        unfold legacyProvenance at hnew
        rw [hentry] at hnew
        rw [hnew, legacyProvenance, hentry]
        rfl
      · rintro ⟨merged, h⟩
        obtain ⟨_, hincoming, hrest⟩ := bind_ok h
        obtain ⟨hvalid, rfl⟩ := decodeProvenance_ok.1 hincoming
        obtain ⟨_, hby, _⟩ := bind_ok hrest
        obtain ⟨entry, hentry, _⟩ := Option.map_eq_some_iff.1 (okOr_ok.1 hby)
        exact ⟨hvalid, by rw [hentry]; rfl⟩

/-! ## The loop over the facts -/

section
variable (ended : Date) (now : OffsetDateTime) (provenance : Option PersistedProvenance)

theorem run_closeRow {f : KnowledgeGraphFact} {merged : Option PersistedProvenance}
    (hmerged : mergedProvenance f.provenance provenance = .ok merged) (n : Nat) (db : GraphDb) :
    (closeRow ended now provenance n (f.factId, f.provenance)).run db =
      (.ok (n + db.facts.rows.countP fun g => g.factId = f.factId && g.isActive),
        { db with
          facts := db.facts.updateWhere (fun g => g.factId = f.factId && g.isActive)
            fun g => g.closed ended now merged }) := by
  unfold closeRow
  rw [hmerged, run_lift (e := (Except.ok merged).mapError GraphError.storage) rfl]
  have hclose : Autocommit (closeFact f.factId ended now merged) :=
    autocommit_closeWhere _ _ _ _
  exact hclose.run_ok rfl

theorem run_closeRow_error {f : KnowledgeGraphFact} (h : ¬ Merges provenance f) (n : Nat)
    (db : GraphDb) :
    ∃ e, (closeRow ended now provenance n (f.factId, f.provenance)).run db = (.error e, db) := by
  cases hmerged : mergedProvenance f.provenance provenance with
  | ok merged => exact absurd (merges_iff.2 ⟨merged, hmerged⟩) h
  | error e =>
    refine ⟨.storage e, ?_⟩
    unfold closeRow
    rw [hmerged]
    rfl

def closeFacts (facts : List KnowledgeGraphFact) (n : Nat) : GTx Nat :=
  (facts.map fun f => (f.factId, f.provenance)).foldlM (closeRow ended now provenance) n

/-- The id and the end of each fact, after those with the given ids have ended. -/
def endsAfter (ids : List String) (db : GraphDb) : List (String × Option Date) :=
  db.facts.rows.map fun f =>
    (f.factId, if f.factId ∈ ids ∧ f.isActive = true then some ended else f.validTo)

def endsOf (db : GraphDb) : List (String × Option Date) :=
  db.facts.rows.map fun f => (f.factId, f.validTo)

def firstRows (facts : List KnowledgeGraphFact) (db : GraphDb) : Nat :=
  facts.head?.elim 0 fun f => db.facts.rows.countP fun g => g.factId = f.factId && g.isActive

/-- Facts that all merge end, and no others; those of the first fact are counted. -/
theorem run_closeFacts {facts : List KnowledgeGraphFact}
    (h : ∀ f ∈ facts, Merges provenance f) (n : Nat) (db : GraphDb) :
    ∃ m db', (closeFacts ended now provenance facts n).run db = (.ok m, db') ∧
      n + firstRows facts db ≤ m ∧ endsOf db' = endsAfter ended (facts.map (·.factId)) db := by
  induction facts generalizing n db with
  | nil => exact ⟨n, db, rfl, le_rfl, by simp [endsOf, endsAfter]⟩
  | cons f facts ih =>
    obtain ⟨merged, hmerged⟩ := merges_iff.1 (h f List.mem_cons_self)
    have hrun := run_closeRow ended now provenance hmerged n db
    have hauto := autocommit_closeRow ended now provenance n (f.factId, f.provenance)
    obtain ⟨m, db', hrest, hcount, hends⟩ := ih (fun g hg => h g (List.mem_cons_of_mem _ hg))
      (n + db.facts.rows.countP fun g => g.factId = f.factId && g.isActive)
      { db with
        facts := db.facts.updateWhere (fun g => g.factId = f.factId && g.isActive)
          fun g => g.closed ended now merged }
    refine ⟨m, db', ?_, Nat.le_of_add_right_le hcount, ?_⟩
    · unfold closeFacts
      rw [List.map_cons, List.foldlM_cons, hauto.run_ok hrun]
      exact hrest
    · rw [hends]
      unfold endsAfter Table.updateWhere
      rw [List.map_map]
      refine List.map_congr_left fun g _ => ?_
      have hended : (g.closed ended now merged).isActive = false := rfl
      by_cases hp : g.factId = f.factId ∧ g.isActive = true
      · have hthis : (decide (g.factId = f.factId) && g.isActive) = true := by simpa using hp
        have hmem : g.factId ∈ (f :: facts).map (·.factId) ∧ g.isActive = true :=
          ⟨by rw [hp.1]; exact List.mem_cons_self, hp.2⟩
        simp only [Function.comp_apply, if_pos hthis, if_pos hmem, hended]
        rw [if_neg fun h => absurd h.2 (by decide)]
        rfl
      · have hother : ¬ (decide (g.factId = f.factId) && g.isActive) = true := by simpa using hp
        have hmem : (g.factId ∈ (f :: facts).map (·.factId) ∧ g.isActive = true) ↔
            (g.factId ∈ facts.map (·.factId) ∧ g.isActive = true) := by
          rw [List.map_cons, List.mem_cons, or_and_right, or_iff_right hp]
        simp only [Function.comp_apply, if_neg hother, hmem]

theorem run_closeFacts_error {facts : List KnowledgeGraphFact} {g : KnowledgeGraphFact}
    (hg : g ∈ facts) (h : ¬ Merges provenance g) (n : Nat) (db : GraphDb) :
    ∃ e, ((closeFacts ended now provenance facts n).run db).1 = .error e := by
  induction facts generalizing n db with
  | nil => cases hg
  | cons f facts ih =>
    have hauto := autocommit_closeRow ended now provenance n (f.factId, f.provenance)
    unfold closeFacts
    rw [List.map_cons, List.foldlM_cons]
    by_cases hf : Merges provenance f
    · obtain ⟨merged, hmerged⟩ := merges_iff.1 hf
      rw [hauto.run_ok (run_closeRow ended now provenance hmerged n db)]
      rcases List.mem_cons.1 hg with rfl | hg
      · exact absurd hf h
      · exact ih hg _ _
    · obtain ⟨e, he⟩ := run_closeRow_error ended now provenance hf n db
      rw [hauto.run_error he]
      exact ⟨e, rfl⟩

end

/-! ## Both variants -/

/-- The facts an invalidation ends, in the order in which they are read. -/
def closingFacts (db : GraphDb) (s p o : String) (ended : Date) : List KnowledgeGraphFact :=
  (activeFacts db (s, p, o)).filter (·.startsBy ended)

theorem mem_closingFacts {db : GraphDb} {s p o : String} {ended : Date} {f : KnowledgeGraphFact} :
    f ∈ closingFacts db s p o ended ↔ f ∈ db.facts.rows ∧ f.triple = (s, p, o) ∧
      f.isActive = true ∧ f.startsBy ended = true := by
  simp only [closingFacts, activeFacts, List.mem_filter, Bool.and_eq_true, decide_eq_true_eq,
    and_assoc]

/-- A call that succeeds ends the same facts on the same day as the call without provenance,
and one that fails changes nothing. -/
def EndsTogether (db : GraphDb) (s p o : String) (ended : Date) (now : OffsetDateTime)
    (provenance : Option PersistedProvenance) : Prop :=
  let given := (invalidateActiveFactWithProvenance s p o ended now provenance).run db
  (∀ n, given.1 = .ok n → endsOf given.2 = endsOf ((invalidateActiveFact s p o ended now).run db).2) ∧
    ∀ e, given.1 = .error e → given.2 = db

section
variable {db : GraphDb} {s p o : String} {ended : Date} {now : OffsetDateTime}
variable {provenance : Option PersistedProvenance}

theorem run_withProvenance :
    (invalidateActiveFactWithProvenance s p o ended now provenance).run db =
      (closeFacts ended now provenance (closingFacts db s p o ended) 0).run db := rfl

theorem endsOf_plain : endsOf ((invalidateActiveFact s p o ended now).run db).2 =
    endsAfter ended ((closingFacts db s p o ended).map (·.factId)) db := by
  show (db.facts.updateWhere _ _).rows.map _ = _
  unfold endsAfter Table.updateWhere
  rw [List.map_map]
  refine List.map_congr_left fun f hf => ?_
  have hmem : (f.factId ∈ (closingFacts db s p o ended).map (·.factId) ∧ f.isActive = true) ↔
      (decide (f.triple = (s, p, o)) && f.isActive && f.startsBy ended) = true := by
    simp only [Bool.and_eq_true, decide_eq_true_eq, List.mem_map]
    constructor
    · rintro ⟨⟨g, hg, hid⟩, hactive⟩
      obtain ⟨hrow, htriple, _, hstarts⟩ := mem_closingFacts.1 hg
      obtain rfl := Table.eq_of_key_eq hrow hf hid
      exact ⟨⟨htriple, hactive⟩, hstarts⟩
    · rintro ⟨⟨htriple, hactive⟩, hstarts⟩
      exact ⟨⟨f, mem_closingFacts.2 ⟨hf, htriple, hactive, hstarts⟩, rfl⟩, hactive⟩
  by_cases hp : (decide (f.triple = (s, p, o)) && f.isActive && f.startsBy ended) = true
  · simp only [Function.comp_apply, if_pos hp, if_pos (hmem.2 hp)]
    rfl
  · simp only [Function.comp_apply, if_neg hp, if_neg fun h => hp (hmem.1 h)]

theorem closeFacts_ends_first {f : KnowledgeGraphFact} {rest : List KnowledgeGraphFact}
    (hf : f ∈ db.facts.rows) (hactive : f.isActive = true) (hmerges : Merges provenance f) :
    ((closeFacts ended now provenance (f :: rest) 0).run db).2.facts.rows ≠ db.facts.rows := by
  obtain ⟨merged, hmerged⟩ := merges_iff.1 hmerges
  have hauto := autocommit_closeRow ended now provenance 0 (f.factId, f.provenance)
  have hrun := run_closeRow ended now provenance hmerged 0 db
  unfold closeFacts
  rw [List.map_cons, List.foldlM_cons, hauto.run_ok hrun]
  intro hsame
  have hcloses := closeRows_closes ended now provenance (rest.map fun f => (f.factId, f.provenance))
    (0 + db.facts.rows.countP fun g => g.factId = f.factId && g.isActive)
    { db with
      facts := db.facts.updateWhere (fun g => g.factId = f.factId && g.isActive)
        fun g => g.closed ended now merged }
  have hclosed : f.closed ended now merged ∈
      (db.facts.updateWhere (fun g => g.factId = f.factId && g.isActive)
        fun g => g.closed ended now merged).rows :=
    List.mem_map.2 ⟨f, hf, if_pos (by simp [hactive])⟩
  -- an ended fact stays, so the fact would be in the table both active and ended
  obtain ⟨f', hf', rfl | ⟨hcontra, _⟩⟩ := hcloses.kept _ hclosed
  · rw [hsame] at hf'
    have heq := Table.eq_of_key_eq hf' hf rfl
    rw [← heq] at hactive
    cases hactive
  · cases hcontra

/-- The two variants agree, and a failed call changes nothing, exactly where all the facts
merge or the first of them does not. -/
theorem invalidation_atomic_iff (db : GraphDb) (s p o : String) (ended : Date)
    (now : OffsetDateTime) (provenance : Option PersistedProvenance) :
    EndsTogether db s p o ended now provenance ↔
      ((∀ f ∈ closingFacts db s p o ended, Merges provenance f) ∨
        ∀ f, (closingFacts db s p o ended).head? = some f → ¬ Merges provenance f) := by
  unfold EndsTogether
  rw [run_withProvenance, endsOf_plain]
  have hrow : ∀ f ∈ closingFacts db s p o ended, f ∈ db.facts.rows ∧ f.isActive = true :=
    fun f hf => ⟨(mem_closingFacts.1 hf).1, (mem_closingFacts.1 hf).2.2.1⟩
  generalize closingFacts db s p o ended = facts at hrow ⊢
  by_cases hall : ∀ f ∈ facts, Merges provenance f
  · obtain ⟨m, db', hrun, -, hends⟩ := run_closeFacts ended now provenance hall 0 db
    rw [hrun]
    exact iff_of_true ⟨fun _ _ => hends, fun e he => (by cases he)⟩ (.inl hall)
  · obtain ⟨g, hg, hnot⟩ : ∃ g ∈ facts, ¬ Merges provenance g := by
      simpa only [not_forall, exists_prop] using hall
    obtain ⟨e, herror⟩ := run_closeFacts_error ended now provenance hg hnot 0 db
    cases facts with
    | nil => cases hg
    | cons f rest =>
      by_cases hf : Merges provenance f
      · refine iff_of_false (fun h => ?_) ?_
        · obtain ⟨hrow, hactive⟩ := hrow f List.mem_cons_self
          exact closeFacts_ends_first hrow hactive hf (congrArg (·.facts.rows) (h.2 e herror))
        · rintro (h | h)
          · exact hall h
          · exact h f rfl hf
      · refine iff_of_true ⟨fun n hn => ?_, fun _ _ => ?_⟩ (.inr fun f' hf' => ?_)
        · rw [herror] at hn
          cases hn
        · obtain ⟨e, he⟩ := run_closeRow_error ended now provenance hf 0 db
          unfold closeFacts
          rw [List.map_cons, List.foldlM_cons,
            (autocommit_closeRow ended now provenance 0 (f.factId, f.provenance)).run_error he]
        · rwa [← Option.some.inj hf']

end

/-! ## A graph with two active facts of one triple -/

def createdByNobody : PersistedProvenance :=
  { creator :=
      { action := .created, owner := .unknown, recordedAt := ⟨⟨60, 0⟩, rfl, by decide +kernel⟩ }
    authenticatedSubmitter := .unknown, sourceAuthor := none, sourceRefs := []
    storageOrigin := .localOrigin "graph" (by decide +kernel), federatedOriginal := none
    history := [], deletedBy := none, invalidatedBy := none }

/-- A fact that a person works on a project, under an id of its own. -/
def worksOn (factId : String) (provenance : Option PersistedProvenance) : KnowledgeGraphFact :=
  { factId, subjectEntityId := "person:alice", predicate := "works_on"
    objectEntityId := "project:rust", validFrom := none, validTo := none, confidence := 0x3f800000
    sourceDrawerId := none, sourceFile := none, createdAt := ⟨0, 0⟩, updatedAt := ⟨0, 0⟩, provenance }

/-- The second fact has no provenance. -/
def twoFacts : GraphDb :=
  ⟨.empty, ⟨[worksOn "1" (some createdByNobody), worksOn "2" none], by decide⟩⟩

/-- An invalidation that names no invalidator ends the first fact and then fails. -/
theorem invalidation_not_atomic :
    ¬ EndsTogether twoFacts "person:alice" "works_on" "project:rust" ⟨20600, by decide⟩ ⟨0, 0⟩
      (some createdByNobody) := by
  intro h
  have hfirst : Merges (some createdByNobody) (worksOn "1" (some createdByNobody)) := ⟨rfl, rfl⟩
  have hsecond : ¬ Merges (some createdByNobody) (worksOn "2" none) := fun h => by
    cases h.2
  have hclosing : closingFacts twoFacts "person:alice" "works_on" "project:rust" ⟨20600, by decide⟩ =
      [worksOn "1" (some createdByNobody), worksOn "2" none] := rfl
  unfold EndsTogether at h
  rw [run_withProvenance, hclosing] at h
  obtain ⟨e, herror⟩ := run_closeFacts_error ⟨20600, by decide⟩ ⟨0, 0⟩ (some createdByNobody)
    (List.mem_cons_of_mem _ List.mem_cons_self) hsecond 0 twoFacts
  exact closeFacts_ends_first List.mem_cons_self rfl hfirst
    (congrArg (·.facts.rows) (h.2 e herror))

end AgentPalace.Graph
