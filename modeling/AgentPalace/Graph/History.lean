import AgentPalace.Graph.System

/-!
# The history of the graph

A triple has at most one active fact. The id of a fact is made of its triple and
its start, and an ended fact is overwritten by the next `add_fact` of the same
triple and start; by no other call (`Overwrites`, `history_kept`).
-/

namespace AgentPalace.Graph

open Machine

/-! ## Invariant -/

structure WellNamed (f : KnowledgeGraphFact) : Prop where
  subject : IsEntityId f.subjectEntityId
  object : IsEntityId f.objectEntityId
  predicate : ∃ p, f.predicate = canonicalizeLabel p
  factId : f.factId = factIdFor f.subjectEntityId f.predicate f.objectEntityId
    (factStart f.validFrom f.createdAt)

structure Coherent (db : GraphDb) : Prop where
  named : ∀ f ∈ db.facts.rows, WellNamed f
  one : ∀ f ∈ db.facts.rows, ∀ g ∈ db.facts.rows, f.isActive = true → g.isActive = true →
    f.triple = g.triple → f = g

theorem wellNamed_factOf (db : GraphDb) (request : AddFactRequest) (now : OffsetDateTime)
    (provenance : Option PersistedProvenance) : WellNamed (factOf db request now provenance) where
  subject := isEntityId_idFor _ _ _
  object := isEntityId_idFor _ _ _
  predicate := ⟨request.predicate, rfl⟩
  factId := rfl

/-- Facts have one id when they have one triple and one start. -/
theorem factId_eq_iff {f g : KnowledgeGraphFact} (hf : WellNamed f) (hg : WellNamed g) :
    f.factId = g.factId ↔ f.triple = g.triple ∧ f.validFrom = g.validFrom ∧
      (f.validFrom = none → f.createdAt.nanos / 1000000000 = g.createdAt.nanos / 1000000000) := by
  obtain ⟨p, hp⟩ := hf.predicate
  obtain ⟨q, hq⟩ := hg.predicate
  constructor
  · intro h
    rw [hf.factId, hg.factId, hp, hq] at h
    obtain ⟨hs, hpq, ho, hstart⟩ := factIdFor_inj hf.subject hg.subject hf.object hg.object h
    refine ⟨?_, factStart_inj.1 hstart⟩
    rw [KnowledgeGraphFact.triple, KnowledgeGraphFact.triple, hs, hp, hq, hpq, ho]
  · rintro ⟨htriple, hstart⟩
    obtain ⟨hs, hpo⟩ := Prod.mk.inj htriple
    obtain ⟨hpq, ho⟩ := Prod.mk.inj hpo
    rw [hf.factId, hg.factId, hs, hpq, ho, factStart_inj.2 hstart]

def upserted (db : GraphDb) (fact : KnowledgeGraphFact) : KnowledgeGraphFact :=
  (db.facts.get? fact.factId).elim fact (overwritten fact)

theorem triple_upserted (db : GraphDb) (fact : KnowledgeGraphFact) :
    (upserted db fact).triple = fact.triple := by
  unfold upserted
  cases db.facts.get? fact.factId <;> rfl

theorem factId_upserted (db : GraphDb) (fact : KnowledgeGraphFact) :
    (upserted db fact).factId = fact.factId := by
  unfold upserted
  cases hold : db.facts.get? fact.factId with
  | none => rfl
  | some old =>
    show old.factId = fact.factId
    exact Table.get?_key hold

theorem wellNamed_upserted {db : GraphDb} {fact : KnowledgeGraphFact}
    (hrows : ∀ f ∈ db.facts.rows, WellNamed f) (hfact : WellNamed fact) :
    WellNamed (upserted db fact) := by
  unfold upserted
  cases hold : db.facts.get? fact.factId with
  | none => exact hfact
  | some old =>
    have hid := Table.get?_key hold
    obtain ⟨_, hfrom, hsecond⟩ :=
      (factId_eq_iff (hrows old (Table.mem_of_get? hold)) hfact).1 hid
    refine ⟨hfact.subject, hfact.object, hfact.predicate, ?_⟩
    show old.factId = factIdFor _ _ _ (factStart fact.validFrom old.createdAt)
    rw [hid, hfact.factId]
    congr 1
    exact factStart_inj.2 ⟨rfl, fun hnone => (hsecond (hfrom.trans hnone)).symm⟩

theorem ClosedBy.wellNamed {f g : KnowledgeGraphFact} (h : ClosedBy f g) (hf : WellNamed f) :
    WellNamed g := by
  rcases h with rfl | ⟨_, endedAt, updatedAt, provenance, rfl⟩
  · exact hf
  · exact ⟨hf.subject, hf.object, hf.predicate, hf.factId⟩

/-- A row that is active after an invalidation was there before. -/
theorem ClosedBy.eq_of_active {f g : KnowledgeGraphFact} (h : ClosedBy f g)
    (hg : g.isActive = true) : g = f := by
  rcases h with rfl | ⟨_, endedAt, updatedAt, provenance, rfl⟩
  · rfl
  · cases hg

theorem ClosedBy.eq_of_ended {f g : KnowledgeGraphFact} (h : ClosedBy f g)
    (hf : f.isActive = false) : g = f := by
  rcases h with rfl | ⟨hactive, _⟩
  · rfl
  · rw [hf] at hactive
    cases hactive

theorem mem_activeFacts {db : GraphDb} {triple : String × String × String}
    {f : KnowledgeGraphFact} :
    f ∈ activeFacts db triple ↔ f ∈ db.facts.rows ∧ f.triple = triple ∧ f.isActive = true := by
  simp [activeFacts]

theorem Coherent.added {db db' : GraphDb} {request : AddFactRequest} {now : OffsetDateTime}
    {provenance : Option PersistedProvenance} {answer : Except GraphError String}
    (hdb : Coherent db) (h : Added db request now provenance answer db') : Coherent db' := by
  cases h with
  | failed hfacts => exact ⟨by rw [hfacts]; exact hdb.named, by rw [hfacts]; exact hdb.one⟩
  | existing hreg _ =>
    have hfacts := hreg.facts
    exact ⟨by rw [hfacts]; exact hdb.named, by rw [hfacts]; exact hdb.one⟩
  | @stored db' hreg hnone facts hmem =>
    have hnamed : ∀ f ∈ facts.rows, WellNamed f := by
      intro f hf
      rcases (hmem f).1 hf with ⟨hold, _⟩ | hnew
      · exact hdb.named f hold
      · rw [hnew]
        exact wellNamed_upserted hdb.named (wellNamed_factOf db request now provenance)
    have hnew : ∀ f ∈ facts.rows, f.isActive = true → f.triple = reqTriple db request →
        f = upserted db (factOf db request now provenance) := by
      intro f hf hactive htriple
      rcases (hmem f).1 hf with ⟨hold, _⟩ | hnew
      · have : f ∈ activeFacts db (reqTriple db request) := mem_activeFacts.2 ⟨hold, htriple, hactive⟩
        rw [hnone] at this
        cases this
      · exact hnew
    refine ⟨hnamed, fun f hf g hg hfa hga heq => ?_⟩
    by_cases htriple : f.triple = reqTriple db request
    · rw [hnew f hf hfa htriple, hnew g hg hga (heq ▸ htriple)]
    · have hold : ∀ f ∈ facts.rows, f.triple ≠ reqTriple db request → f ∈ db.facts.rows := by
        intro f hf hne
        rcases (hmem f).1 hf with ⟨hold, _⟩ | hnew
        · exact hold
        · refine absurd ?_ hne
          rw [hnew]
          exact triple_upserted db (factOf db request now provenance)
      exact hdb.one f (hold f hf htriple) g (hold g hg (heq ▸ htriple)) hfa hga heq

theorem Coherent.closes {db db' : GraphDb} (hdb : Coherent db) (h : Closes db db') :
    Coherent db' := by
  refine ⟨fun g hg => ?_, fun g hg g' hg' hactive hactive' heq => ?_⟩
  · obtain ⟨f, hf, hfg⟩ := h.source g hg
    exact hfg.wellNamed (hdb.named f hf)
  · obtain ⟨f, hf, hfg⟩ := h.source g hg
    obtain ⟨f', hf', hfg'⟩ := h.source g' hg'
    obtain rfl := hfg.eq_of_active hactive
    obtain rfl := hfg'.eq_of_active hactive'
    exact hdb.one g hf g' hf' hactive hactive' heq

theorem coherent_of_reachable {w : State} (h : system.Reachable w) : Coherent w.db := by
  refine h.invariant (I := fun w => Coherent w.db) (fun w₀ hinit => ?_) fun w l w' _ hw hs => ?_
  · rw [show w₀.db = .empty from hinit]
    exact ⟨fun f hf => (by cases hf), fun f hf => (by cases hf)⟩
  · have houtcome := step_outcome hs
    generalize hcall : l.call = call at houtcome
    generalize hanswer : l.answer = answer at houtcome
    generalize hdb : w'.db = db' at houtcome ⊢
    cases houtcome with
    | added h => exact hw.added h
    | closed h => exact hw.closes h
    | registry hfacts => exact ⟨by rw [hfacts]; exact hw.named, by rw [hfacts]; exact hw.one⟩

theorem length_activeFacts_le {db : GraphDb} (hdb : Coherent db)
    (triple : String × String × String) : (activeFacts db triple).length ≤ 1 := by
  have hnodup : (activeFacts db triple).Nodup := (List.Nodup.of_map _ db.facts.nodup).filter _
  have heq : ∀ f ∈ activeFacts db triple, ∀ g ∈ activeFacts db triple, f = g := by
    intro f hf g hg
    obtain ⟨hf, htriple, hactive⟩ := mem_activeFacts.1 hf
    obtain ⟨hg, htriple', hactive'⟩ := mem_activeFacts.1 hg
    exact hdb.one f hf g hg hactive hactive' (htriple.trans htriple'.symm)
  cases h : activeFacts db triple with
  | nil => exact Nat.zero_le 1
  | cons f fs =>
    cases fs with
    | nil => exact Nat.le_refl 1
    | cons g fs =>
      rw [h] at hnodup heq
      have hfg := heq f List.mem_cons_self g (List.mem_cons_of_mem _ List.mem_cons_self)
      subst hfg
      exact absurd List.mem_cons_self (List.nodup_cons.1 hnodup).1

/-! ## Ended facts -/

/-- The request is stored under the id of the ended fact `f`. -/
structure Overwrites (db : GraphDb) (request : AddFactRequest) (now : OffsetDateTime)
    (f : KnowledgeGraphFact) : Prop where
  noneActive : activeFacts db (reqTriple db request) = []
  triple : f.triple = reqTriple db request
  validFrom : f.validFrom = request.validFrom
  second : request.validFrom = none → f.createdAt.nanos / 1000000000 = now.nanos / 1000000000

theorem factId_factOf_iff {db : GraphDb} {request : AddFactRequest} {now : OffsetDateTime}
    {provenance : Option PersistedProvenance} {f : KnowledgeGraphFact} (hf : WellNamed f)
    (hnone : activeFacts db (reqTriple db request) = []) :
    f.factId = (factOf db request now provenance).factId ↔ Overwrites db request now f := by
  rw [factId_eq_iff hf (wellNamed_factOf db request now provenance)]
  constructor
  · rintro ⟨htriple, hfrom, hsecond⟩
    exact ⟨hnone, htriple, hfrom, fun h => hsecond (hfrom.trans h)⟩
  · rintro ⟨_, htriple, hfrom, hsecond⟩
    exact ⟨htriple, hfrom, fun h => hsecond (hfrom ▸ h)⟩

section

variable {db db' : GraphDb} {request : AddFactRequest} {now : OffsetDateTime}
  {provenance : Option PersistedProvenance} {f : KnowledgeGraphFact} (hdb : Coherent db)
  (hf : f ∈ db.facts.rows)
include hdb hf

/-- A fact is kept by an `add_fact` that does not overwrite it. -/
theorem kept_of_added {answer : Except GraphError String}
    (h : Added db request now provenance answer db') (hnot : ¬ Overwrites db request now f) :
    f ∈ db'.facts.rows := by
  cases h with
  | failed hfacts => rwa [hfacts]
  | existing hreg _ => rwa [hreg.facts]
  | stored hreg hnone hmem =>
    refine (hmem f).2 (.inl ⟨hf, fun hid => hnot ?_⟩)
    exact (factId_factOf_iff (hdb.named f hf) hnone).1 hid

theorem answer_of_added {id : String} (h : Added db request now provenance (.ok id) db')
    (hended : f.isActive = false) :
    (f ∈ db'.facts.rows ∧ id ≠ f.factId) ↔ ¬ Overwrites db request now f := by
  constructor
  · rintro ⟨_, hid⟩ hover
    cases h with
    | existing hreg hactive =>
      rw [hover.noneActive] at hactive
      cases hactive
    | stored hreg hnone hmem =>
      exact hid ((factId_factOf_iff (hdb.named f hf) hnone).2 hover).symm
  · intro hnot
    refine ⟨kept_of_added hdb hf h hnot, ?_⟩
    cases h with
    | @existing _ hreg g hactive =>
      intro hid
      obtain ⟨hg, _, hga⟩ := mem_activeFacts.1 hactive
      rw [Table.eq_of_key_eq hg hf hid, hended] at hga
      cases hga
    | stored hreg hnone hmem =>
      exact fun hid => hnot ((factId_factOf_iff (hdb.named f hf) hnone).1 hid.symm)

end

theorem stored_of_added {db db' : GraphDb} {request : AddFactRequest} {now : OffsetDateTime}
    {provenance : Option PersistedProvenance} {id : String}
    (h : Added db request now provenance (.ok id) db') :
    ∃ g ∈ db'.facts.rows, g.factId = id ∧ g.triple = reqTriple db request := by
  cases h with
  | @existing _ hreg g hactive =>
    obtain ⟨hg, htriple, _⟩ := mem_activeFacts.1 hactive
    exact ⟨g, hreg.facts ▸ hg, rfl, htriple⟩
  | stored hreg hnone hmem =>
    exact ⟨upserted db (factOf db request now provenance), (hmem _).2 (.inr rfl),
      factId_upserted _ _, triple_upserted _ _⟩

/-- The label is of an `add_fact` that overwrites the ended fact `f`. -/
def OverwritesAt (w : State) (l : Label) (f : KnowledgeGraphFact) : Prop :=
  ∃ request now provenance, l.call = .addFact request now provenance ∧
    Overwrites w.db request now f

/-- One step keeps an ended fact that it does not overwrite. -/
theorem kept_of_step {w w' : State} {l : Label} {f : KnowledgeGraphFact} (h : system.Reachable w)
    (hf : f ∈ w.db.facts.rows) (hended : f.isActive = false) (hs : system.Step w l w')
    (hnot : ¬ OverwritesAt w l f) : f ∈ w'.db.facts.rows := by
  have houtcome := step_outcome hs
  have hcoherent := coherent_of_reachable h
  unfold OverwritesAt at hnot
  generalize l.call = call at houtcome hnot
  generalize l.answer = answer at houtcome
  generalize w'.db = db' at houtcome ⊢
  cases houtcome with
  | added h => exact kept_of_added hcoherent hf h fun hover => hnot ⟨_, _, _, rfl, hover⟩
  | closed h =>
    obtain ⟨g, hg, hfg⟩ := h.kept f hf
    rwa [hfg.eq_of_ended hended] at hg
  | registry hfacts => rwa [hfacts]

/-- **History**: a triple has at most one active fact in every state; an ended fact is in every
later state of a run whose steps do not overwrite it; and an `add_fact` answers a fact of its
triple, which is another than each ended fact, and keeps that one, unless it overwrites it. -/
theorem history_kept {w : State} (h : system.Reachable w) :
    (∀ triple, (activeFacts w.db triple).length ≤ 1) ∧
    (∀ f ∈ w.db.facts.rows, f.isActive = false → ∀ ls w', Run system w ls w' →
      (∀ pre l post x, ls = pre ++ l :: post → Run system w pre x → ¬ OverwritesAt x l f) →
      f ∈ w'.db.facts.rows) ∧
    ∀ request now provenance id w',
      system.Step w ⟨.addFact request now provenance, .ok (.fact id)⟩ w' →
      (∃ g ∈ w'.db.facts.rows, g.factId = id ∧ g.triple = reqTriple w.db request) ∧
      ∀ f ∈ w.db.facts.rows, f.isActive = false →
        ((f ∈ w'.db.facts.rows ∧ id ≠ f.factId) ↔ ¬ Overwrites w.db request now f) := by
  have hcoherent := coherent_of_reachable h
  refine ⟨length_activeFacts_le hcoherent, fun f hf hended ls w' hrun hnot => ?_, ?_⟩
  · rcases hrun.until (P := fun w => f ∈ w.db.facts.rows) hf with
      hend | ⟨pre, l, post, x, y, hls, hpre, hx, hs, hy, _⟩
    · exact hend
    · exact absurd (kept_of_step (h.run hpre) hx hended hs (hnot pre l post x hls hpre)) hy
  · intro request now provenance id w' hs
    have hadded := step_addFact hs
    exact ⟨stored_of_added hadded, fun f hf hended => answer_of_added hcoherent hf hadded hended⟩

def sampleRequest : AddFactRequest :=
  { subject := "Alice", subjectType := .person, predicate := "works on", object := "Rust"
    objectType := .project, validFrom := some ⟨20545, by decide⟩, validTo := none
    confidence := 0x3f800000, sourceDrawerId := none, sourceFile := none }

def sampleTime : OffsetDateTime := ⟨1775088000000000000, 0⟩

def sampleEnd : Date := ⟨20600, by decide⟩

def sampleEnded : State :=
  (store.play ⟨store.init, ()⟩
    [.addFact sampleRequest sampleTime none,
      .invalidate "alice" "works on" "rust" sampleEnd sampleTime none]).2

def laterRequest : AddFactRequest := { sampleRequest with validFrom := some ⟨20600, by decide⟩ }

theorem sampleEnded_reachable : system.Reachable sampleEnded :=
  store.reachable_play (t := ()) ⟨le_rfl, le_rfl, trivial⟩

/-- The triple is asserted again from a later day: the ended fact stays. -/
theorem history_kept_sample :
    ∃ f ∈ sampleEnded.db.facts.rows, f.isActive = false ∧
      f ∈ ((Call.addFact laterRequest sampleTime none).execute sampleEnded.db).2.facts.rows := by
  have hany : (sampleEnded.db.facts.rows.any fun f => !f.isActive) = true := by decide +kernel
  obtain ⟨f, hf, hended⟩ := List.any_eq_true.1 hany
  have hended : f.isActive = false := by simpa using hended
  refine ⟨f, hf, hended, ?_⟩
  have hstep := store.step_exec (w := sampleEnded) (c := .addFact laterRequest sampleTime none) le_rfl
  have hanswer : (store.exec (.addFact laterRequest sampleTime none) sampleEnded.db).1 =
      .ok (.fact "fact:person:alice:works_on:project:rust:2026-05-27") := by decide +kernel
  rw [hanswer] at hstep
  have hkept := ((history_kept sampleEnded_reachable).2.2 _ _ _ _ _ hstep).2 f hf hended
  refine (hkept.2 fun hover => ?_).1
  have hfrom : ∀ f ∈ sampleEnded.db.facts.rows, f.validFrom ≠ laterRequest.validFrom := by
    decide +kernel
  exact hfrom f hf hover.validFrom

/-- A fact is added, invalidated and added again with the same start: its end is erased. -/
theorem ended_fact_overwritten :
    ¬ ∀ w, system.Reachable w → ∀ subject predicate object endedAt now provenance answer w₁,
      system.Step w ⟨.invalidate subject predicate object endedAt now provenance, answer⟩ w₁ →
      ∀ f ∈ w₁.db.facts.rows, f.validTo = some endedAt →
      ∀ request now provenance answer w₂,
        system.Step w₁ ⟨.addFact request now provenance, answer⟩ w₂ → f ∈ w₂.db.facts.rows := by
  intro hclaim
  let added : State := (store.play ⟨store.init, ()⟩ [.addFact sampleRequest sampleTime none]).2
  have hadded : system.Reachable added := store.reachable_play (t := ()) ⟨le_rfl, trivial⟩
  have hinvalidate := store.step_exec (w := added)
    (c := .invalidate "alice" "works on" "rust" sampleEnd sampleTime none) le_rfl
  have hagain := store.step_exec (w := sampleEnded)
    (c := .addFact sampleRequest sampleTime none) le_rfl
  have hends : sampleEnded.db.facts.rows.map (·.validTo) = [some sampleEnd] := by decide +kernel
  have hend : some sampleEnd ∈ sampleEnded.db.facts.rows.map (·.validTo) := by
    rw [hends]
    exact List.mem_cons_self
  obtain ⟨f, hf, hto⟩ := List.mem_map.1 hend
  have hkept := hclaim added hadded _ _ _ _ _ _ _ _ hinvalidate f hf hto _ _ _ _ _ hagain
  have hopen : ∀ f ∈ ((Call.addFact sampleRequest sampleTime none).execute
      sampleEnded.db).2.facts.rows, f.validTo = none := by decide +kernel
  rw [hopen f hkept] at hto
  cases hto

end AgentPalace.Graph
