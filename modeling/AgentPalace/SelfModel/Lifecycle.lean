import AgentPalace.SelfModel.Store
import AgentPalace.Lib.Machine

/-!
# The life of a self-observation

Several processes call the tools that propose and review observations. A tool
checks what it finds and then writes in a transaction of its own; between the
two any other call may run. The tool checks that a reviewed observation is a
candidate, and the transaction that it has the expected revision:
`World.ReviewsCandidate` says that the transaction finds what the tool found. In
every run whose steps meet it an observation is promoted or retired once, and a
promoted one superseded by one successor (`lifecycle_linear`).
-/

namespace AgentPalace.SelfModel

/-! ## The tools -/

/-- The arguments of `tool_self_observation_propose`. -/
structure ProposeCall where
  lineageId : String
  statement : String
  behavioralConsequence : String
  confidence : Skills.F32
  evidence : List String
  counterevidence : List String
  author : String
  model : Option String
  harness : Option String
  scope : SelfObservationScope
  supersedesObservationId : Option String

inductive Decision where
  | promote | retire
  deriving DecidableEq

def Decision.newStatus : Decision → SelfObservationStatus
  | promote => .promoted
  | retire => .retired

/-- The arguments of `tool_self_observation_review`. -/
structure ReviewCall where
  observationId : String
  decision : Decision
  expectedRevision : Int
  reviewer : String
  reason : String

def ProposeCall.checkLineage (c : ProposeCall) (db : SelfModelDb) : Except String Unit :=
  if c.lineageId ∉ db.lineages then .error s!"lineage `{c.lineageId}` does not exist"
  else if c.scope = .engine ∧ c.model = none ∧ c.harness = none then
    .error "engine-scoped observations require `model`, `harness`, or both"
  else .ok ()

def ProposeCall.checkSuperseded (c : ProposeCall) (db : SelfModelDb) : Except String Unit :=
  match c.supersedesObservationId with
  | none => .ok ()
  | some supersededId =>
    match db.observations.get? supersededId with
    | none => .error s!"superseded observation `{supersededId}` does not exist"
    | some superseded =>
      if superseded.lineageId ≠ c.lineageId then
        .error s!"superseded observation `{supersededId}` belongs to another lineage"
      else if superseded.status ≠ .promoted then
        .error s!"superseded observation `{supersededId}` must currently be promoted"
      else .ok ()

/-- The observation that is proposed. Its id is a hash of the lineage, the statement and the time. -/
def ProposeCall.observation (c : ProposeCall) (observationId : String) (now : Timestamp) :
    SelfObservation where
  observationId
  lineageId := c.lineageId
  status := .candidate
  scope := c.scope
  statement := c.statement
  behavioralConsequence := c.behavioralConsequence
  confidence := c.confidence
  author := c.author
  model := c.model
  harness := c.harness
  evidence := c.evidence
  counterevidence := c.counterevidence
  supersedesObservationId := c.supersedesObservationId
  revision := 1
  createdAt := now
  updatedAt := now

def ReviewCall.checkCandidate (c : ReviewCall) (db : SelfModelDb) : Except String Unit :=
  match db.observations.get? c.observationId with
  | none => .ok ()
  | some current =>
    if current.status ≠ .candidate then
      .error s!"observation `{c.observationId}` is {current.status.asStr}; only candidates can be reviewed"
    else .ok ()

def ReviewCall.run (c : ReviewCall) (now : Timestamp) (db : SelfModelDb) :
    Except StorageError (RevisionedWrite SelfObservation) × SelfModelDb :=
  (reviewSelfObservation c.observationId c.expectedRevision c.decision.newStatus c.reviewer c.reason
    now).run db

/-! ## Interleaved calls -/

inductive Task where
  | idle
  | proposing (c : ProposeCall)
  | inserting (o : SelfObservation)
  | updating (c : ReviewCall)

inductive Event where
  | lineage (lineageId : String)
  | propose (c : ProposeCall)
  | checkSuperseded (observationId : String) (now : Timestamp)
  | insert
  | review (c : ReviewCall)
  | update (now : Timestamp)

/-- What a step does to its call and to the database; `none` where the call is not at it. -/
def Event.run (db : SelfModelDb) : Event → Task → Option (Task × SelfModelDb)
  | .lineage lineageId, .idle => some (.idle, { db with lineages := lineageId :: db.lineages })
  | .propose c, .idle =>
    match c.checkLineage db with
    | .error _ => some (.idle, db)
    | .ok () => some (.proposing c, db)
  | .checkSuperseded observationId now, .proposing c =>
    match c.checkSuperseded db with
    | .error _ => some (.idle, db)
    | .ok () => some (.inserting (c.observation observationId now), db)
  | .insert, .inserting o =>
    match proposeSelfObservation db o with
    | .error _ => some (.idle, db)
    | .ok db => some (.idle, db)
  | .review c, .idle =>
    match c.checkCandidate db with
    | .error _ => some (.idle, db)
    | .ok () => some (.updating c, db)
  | .update now, .updating c => some (.idle, (c.run now db).2)
  | _, _ => none

structure World where
  db : SelfModelDb
  task : Nat → Task
  /-- How often the status of an observation has changed. -/
  changes : String → Nat

inductive Label where
  | step (p : Nat) (e : Event)
  /-- A process dies. -/
  | drop (p : Nat)

/-- The status of a stored observation is another one. -/
def StatusChanged (db db' : SelfModelDb) (id : String) : Prop :=
  ∃ o ∈ db.observations.get? id, ∃ o' ∈ db'.observations.get? id, o'.status ≠ o.status

instance (db db' : SelfModelDb) (id : String) : Decidable (StatusChanged db db' id) :=
  decidable_of_iff
    (((db.observations.get? id).any fun o => (db'.observations.get? id).any fun o' =>
      decide (o'.status ≠ o.status)) = true)
    (by simp [StatusChanged, Option.any_eq_true])

def World.after (w : World) : Label → Option World
  | .step p e =>
    (e.run w.db (w.task p)).map fun r =>
      { db := r.2
        task := Function.update w.task p r.1
        changes := fun id => w.changes id + if StatusChanged w.db r.2 id then 1 else 0 }
  | .drop p => some { w with task := Function.update w.task p .idle }

def machine : Machine World Label where
  Init w := w.db = .empty ∧ (∀ p, w.task p = .idle) ∧ ∀ id, w.changes id = 0
  Step w l w' := w.after l = some w'

/-- The observation that a review finds at the expected revision is still a candidate, or the
observation that it names cannot be superseded. -/
def World.ReviewsCandidate (w : World) : Label → Prop
  | .step p (.update _) =>
    match w.task p with
    | .updating c =>
      ∀ o, w.db.observations.get? c.observationId = some o → o.revision = c.expectedRevision →
        o.status = .candidate ∨ c.decision = .promote ∧ ∃ x, o.supersedesObservationId = some x ∧
          ∀ y, w.db.observations.get? x = some y → y.lineageId = o.lineageId → y.status ≠ .promoted
    | _ => True
  | _ => True

/-! ## One step of an observation -/

abbrev Observations := Table SelfObservation.observationId

def SelfObservation.Accepted (o : SelfObservation) : Prop :=
  o.status = .promoted ∨ o.status = .superseded

inductive Moves (t t' : Observations) (o : SelfObservation) : SelfObservation → Prop where
  | stays : Moves t t' o o
  | promoted (now : Timestamp) (hcandidate : o.status = .candidate)
      (hreplaces : ∀ x, o.supersedesObservationId = some x → ∃ y now', t.get? x = some y ∧
        y.status = .promoted ∧ y.lineageId = o.lineageId ∧
          t'.get? x = some (y.move .superseded now')) :
      Moves t t' o (o.move .promoted now)
  | retired (now : Timestamp) (hcandidate : o.status = .candidate) :
      Moves t t' o (o.move .retired now)
  /-- In the transaction that promotes `y`, which names it. -/
  | superseded (now now' : Timestamp) (y : SelfObservation) (hpromoted : o.status = .promoted)
      (hy : t.get? y.observationId = some y) (hcandidate : y.status = .candidate)
      (hnames : y.supersedesObservationId = some o.observationId)
      (hlineage : y.lineageId = o.lineageId)
      (hy' : t'.get? y.observationId = some (y.move .promoted now')) :
      Moves t t' o (o.move .superseded now)

structure LifeStep (t t' : Observations) : Prop where
  stored : ∀ k o, t.get? k = some o → ∃ o', t'.get? k = some o' ∧ Moves t t' o o'
  proposed : ∀ k o', t'.get? k = some o' → t.get? k = none → o'.status = .candidate ∧
    o'.revision = 1 ∧ ∀ x, o'.supersedesObservationId = some x → ∃ y, t.get? x = some y
  /-- No two observations are promoted at once. -/
  one : ∀ k k' o o' u u', t.get? k = some o → t'.get? k = some o' → t.get? k' = some u →
    t'.get? k' = some u' → o.status = .candidate → o'.status = .promoted → u.status = .candidate →
      u'.status = .promoted → k = k'

section
variable {t t' : Observations} {o o' : SelfObservation}

theorem Moves.names (h : Moves t t' o o') :
    o'.supersedesObservationId = o.supersedesObservationId ∧ o'.lineageId = o.lineageId ∧
      o'.observationId = o.observationId := by
  cases h <;> exact ⟨rfl, rfl, rfl⟩

theorem Moves.revision (h : Moves t t' o o') :
    o' = o ∨ o'.status ≠ o.status ∧ o'.revision = o.revision + 1 := by
  cases h with
  | stays => exact .inl rfl
  | promoted now hcandidate => exact .inr ⟨by simp [SelfObservation.move, hcandidate], rfl⟩
  | retired now hcandidate => exact .inr ⟨by simp [SelfObservation.move, hcandidate], rfl⟩
  | superseded now now' y hpromoted => exact .inr ⟨by simp [SelfObservation.move, hpromoted], rfl⟩

theorem Moves.of_superseded (h : Moves t t' o o') (ho : o.status = .superseded) : o' = o := by
  cases h with
  | stays => rfl
  | promoted now hcandidate => rw [ho] at hcandidate; cases hcandidate
  | retired now hcandidate => rw [ho] at hcandidate; cases hcandidate
  | superseded now now' y hpromoted => rw [ho] at hpromoted; cases hpromoted

theorem Moves.accepted (h : Moves t t' o o') (ho : o.Accepted) : o'.Accepted := by
  cases h with
  | stays => exact ho
  | promoted now hcandidate => exact .inl rfl
  | retired now hcandidate =>
    rcases ho with ho | ho <;> rw [ho] at hcandidate <;> cases hcandidate
  | superseded => exact .inr rfl

theorem LifeStep.same (h : ∀ k, t'.get? k = t.get? k) : LifeStep t t' where
  stored k o ho := ⟨o, (h k).trans ho, .stays⟩
  proposed k o' ho' hnone := by rw [h, hnone] at ho'; cases ho'
  one k k' o o' u u' ho ho' _ _ hcandidate hpromoted := by
    rw [h, ho] at ho'
    cases ho'
    rw [hcandidate] at hpromoted
    cases hpromoted

theorem LifeStep.inserted (ho : o.status = .candidate) (hrevision : o.revision = 1)
    (hnames : ∀ x, o.supersedesObservationId = some x → ∃ y, t.get? x = some y)
    (hfree : t.get? o.observationId = none)
    (h : ∀ k, t'.get? k = if k = o.observationId then some o else t.get? k) : LifeStep t t' := by
  have hold : ∀ k x, t.get? k = some x → t'.get? k = some x := by
    intro k x hx
    rw [h, if_neg, hx]
    rintro rfl
    rw [hfree] at hx
    cases hx
  refine ⟨fun k x hx => ⟨x, hold k x hx, .stays⟩, fun k o' ho' hnone => ?_, ?_⟩
  · rw [h] at ho'
    split at ho'
    · cases ho'
      exact ⟨ho, hrevision, hnames⟩
    · rw [hnone] at ho'
      cases ho'
  · intro k k' x x' u u' hx hx' _ _ hcandidate hpromoted
    rw [hold k x hx] at hx'
    cases hx'
    rw [hcandidate] at hpromoted
    cases hpromoted

theorem LifeStep.reviewed {status : SelfObservationStatus} {now : Timestamp}
    (hreviewed : Reviewed t t' o (o.move status now)) (ho : t.get? o.observationId = some o)
    (hcandidate : o.status = .candidate) (hstatus : status = .promoted ∨ status = .retired)
    (hself : o.supersedesObservationId ≠ some o.observationId) :
    LifeStep t t' ∧ t'.get? o.observationId = some (o.move status now) := by
  cases hreviewed with
  | alone halone hreplaced =>
    have h : ∀ k, t'.get? k = if k = o.observationId then some (o.move status now) else t.get? k :=
      hreplaced
    have hmoves : Moves t t' o (o.move status now) := by
      rcases hstatus with rfl | rfl
      · refine .promoted now hcandidate fun x hx => ?_
        rw [halone rfl] at hx
        cases hx
      · exact .retired now hcandidate
    have hone : ∀ k x x', t.get? k = some x → t'.get? k = some x' → x.status = .candidate →
        x'.status = .promoted → k = o.observationId := by
      intro k x x' hx hx' hxc hxp
      by_contra hk
      rw [h, if_neg hk, hx] at hx'
      cases hx'
      rw [hxc] at hxp
      cases hxp
    refine ⟨⟨fun k x hx => ?_, fun k o' ho' hnone => ?_, fun k k' x x' u u' hx hx' hu hu' hxc hxp huc
      hup => (hone k x x' hx hx' hxc hxp).trans (hone k' u u' hu hu' huc hup).symm⟩,
      by rw [h, if_pos rfl]⟩
    · by_cases hk : k = o.observationId
      · rw [hk, ho] at hx
        cases hx
        exact ⟨_, by rw [h, if_pos hk], hmoves⟩
      · exact ⟨x, by rw [h, if_neg hk, hx], .stays⟩
    · rw [h] at ho'
      split at ho'
      · rename_i hk
        rw [hk, ho] at hnone
        cases hnone
      · rw [hnone] at ho'
        cases ho'
  | superseding x now' u hpromoted hnames hx hlineage hxstatus hfirst hsecond =>
    have hne : x.observationId ≠ o.observationId := fun heq => hself (heq ▸ hnames)
    have h : ∀ k, t'.get? k = if k = x.observationId then some (x.move .superseded now') else
        if k = o.observationId then some (o.move status now) else t.get? k := by
      intro k
      rw [hsecond k]
      exact if_congr Iff.rfl rfl (hfirst k)
    have hxt : t.get? x.observationId = some x := by
      rw [hfirst] at hx
      exact (if_neg hne).symm.trans hx
    have ho' : t'.get? o.observationId = some (o.move status now) := by
      rw [h, if_neg (Ne.symm hne), if_pos rfl]
    obtain rfl : status = .promoted := hpromoted
    have hmoves : Moves t t' o (o.move .promoted now) := by
      refine .promoted now hcandidate fun y hy => ?_
      rw [hnames] at hy
      cases hy
      exact ⟨x, now', hxt, hxstatus, hlineage, by rw [h, if_pos rfl]⟩
    have hmovesx : Moves t t' x (x.move .superseded now') :=
      .superseded now' now o hxstatus ho hcandidate hnames hlineage.symm ho'
    have hone : ∀ k y y', t.get? k = some y → t'.get? k = some y' → y.status = .candidate →
        y'.status = .promoted → k = o.observationId := by
      intro k y y' hy hy' hyc hyp
      by_contra hk
      rw [h, if_neg hk] at hy'
      split at hy'
      · cases hy'
        cases hyp
      · rw [hy] at hy'
        cases hy'
        rw [hyc] at hyp
        cases hyp
    refine ⟨⟨fun k y hy => ?_, fun k o' ho' hnone => ?_, fun k k' y y' v v' hy hy' hv hv' hyc hyp hvc
      hvp => (hone k y y' hy hy' hyc hyp).trans (hone k' v v' hv hv' hvc hvp).symm⟩, ho'⟩
    · by_cases hkx : k = x.observationId
      · rw [hkx, hxt] at hy
        cases hy
        exact ⟨_, by rw [h, if_pos hkx], hmovesx⟩
      · by_cases hk : k = o.observationId
        · rw [hk, ho] at hy
          cases hy
          exact ⟨_, by rw [hk, ho'], hmoves⟩
        · exact ⟨y, by rw [h, if_neg hkx, if_neg hk, hy], .stays⟩
    · rw [h] at ho'
      split at ho'
      · rename_i hk
        rw [hk, hxt] at hnone
        cases hnone
      · split at ho'
        · rename_i hk
          rw [hk, ho] at hnone
          cases hnone
        · rw [hnone] at ho'
          cases ho'

/-! ## All observations -/

/-- What holds of the observations in every run whose steps meet the condition. -/
structure LifeSound (w : World) : Prop where
  revision : ∀ k o, w.db.observations.get? k = some o → o.revision = w.changes k + 1
  unknown : ∀ k, w.db.observations.get? k = none → w.changes k = 0
  /-- An observation names one that was there before it. -/
  names : ∀ k o x, w.db.observations.get? k = some o → o.supersedesObservationId = some x → x ≠ k ∧
    ∃ y, w.db.observations.get? x = some y
  inserting : ∀ p o, w.task p = .inserting o → o.status = .candidate ∧ o.revision = 1 ∧
    ∀ x, o.supersedesObservationId = some x → ∃ y, w.db.observations.get? x = some y
  accepted : ∀ k o x, w.db.observations.get? k = some o → o.supersedesObservationId = some x →
    o.Accepted → ∃ y, w.db.observations.get? x = some y ∧ y.status = .superseded
  one : ∀ k o k' o' x, w.db.observations.get? k = some o → w.db.observations.get? k' = some o' →
    o.supersedesObservationId = some x → o'.supersedesObservationId = some x → o.Accepted →
      o'.Accepted → k = k'
  successor : ∀ k o, w.db.observations.get? k = some o → o.status = .superseded →
    ∃ k' o', w.db.observations.get? k' = some o' ∧ o'.supersedesObservationId = some k ∧
      o'.lineageId = o.lineageId ∧ o'.Accepted

variable {w w' : World}

/-- An observation that has been promoted had been, or is promoted now. -/
theorem Moves.of_accepted (h : Moves t t' o o') (ho' : o'.Accepted) :
    o.Accepted ∨ o.status = .candidate ∧ o'.status = .promoted ∧
      ∀ x, o.supersedesObservationId = some x → ∃ y now', t.get? x = some y ∧
        y.status = .promoted ∧ t'.get? x = some (y.move .superseded now') := by
  cases h with
  | stays => exact .inl ho'
  | promoted now hcandidate hreplaces =>
    refine .inr ⟨hcandidate, rfl, fun x hx => ?_⟩
    obtain ⟨y, now', hy, hstatus, -, hy'⟩ := hreplaces x hx
    exact ⟨y, now', hy, hstatus, hy'⟩
  | retired now => rcases ho' with ho' | ho' <;> cases ho'
  | superseded now now' y hpromoted => exact .inl (.inl hpromoted)

/-- **One step keeps the invariant.** -/
theorem LifeSound.step (h : LifeSound w) (hlife : LifeStep w.db.observations w'.db.observations)
    (hchanges : ∀ k, w'.changes k =
      w.changes k + if StatusChanged w.db w'.db k then 1 else 0)
    (hinserting : ∀ p o, w'.task p = .inserting o → o.status = .candidate ∧ o.revision = 1 ∧
      ∀ x, o.supersedesObservationId = some x → ∃ y, w'.db.observations.get? x = some y) :
    LifeSound w' := by
  -- where an observation comes from
  have hold : ∀ k o', w'.db.observations.get? k = some o' →
      (∃ o, w.db.observations.get? k = some o ∧ Moves w.db.observations w'.db.observations o o') ∨
        w.db.observations.get? k = none := by
    intro k o' ho'
    cases ho : w.db.observations.get? k with
    | none => exact .inr rfl
    | some o =>
      obtain ⟨o'', ho'', hmoves⟩ := hlife.stored k o ho
      rw [ho'] at ho''
      cases ho''
      exact .inl ⟨o, rfl, hmoves⟩
  have hunaccepted : ∀ k o', w'.db.observations.get? k = some o' → o'.Accepted →
      ∃ o, w.db.observations.get? k = some o ∧
        Moves w.db.observations w'.db.observations o o' := by
    intro k o' ho' haccepted
    rcases hold k o' ho' with hmoves | hnone
    · exact hmoves
    · have := (hlife.proposed k o' ho' hnone).1
      rcases haccepted with haccepted | haccepted <;> rw [this] at haccepted <;> cases haccepted
  refine ⟨fun k o' ho' => ?_, fun k hnone => ?_, fun k o' x ho' hx => ?_, hinserting,
    fun k o' x ho' hx haccepted => ?_, fun k o k' o' x ho ho' hx hx' haccepted haccepted' => ?_,
    fun k o' ho' hsuperseded => ?_⟩
  · rw [hchanges]
    rcases hold k o' ho' with ⟨o, ho, hmoves⟩ | hnone
    · have hrevision := h.revision k o ho
      rcases hmoves.revision with rfl | ⟨hne, heq⟩
      · rw [if_neg, hrevision]
        · simp
        · rintro ⟨x, hx, y, hy, hxy⟩
          rw [Option.mem_def, ho] at hx
          rw [Option.mem_def, ho'] at hy
          cases hx
          cases hy
          exact hxy rfl
      · rw [if_pos ⟨o, ho, o', ho', hne⟩, heq, hrevision]
        push_cast
        rfl
    · rw [if_neg, h.unknown k hnone, (hlife.proposed k o' ho' hnone).2.1]
      · simp
      · rintro ⟨x, hx, -⟩
        rw [Option.mem_def, hnone] at hx
        cases hx
  · cases ho : w.db.observations.get? k with
    | none =>
      rw [hchanges, if_neg, h.unknown k ho]
      rintro ⟨x, hx, -⟩
      rw [Option.mem_def, ho] at hx
      cases hx
    | some o =>
      obtain ⟨o', ho', -⟩ := hlife.stored k o ho
      rw [hnone] at ho'
      cases ho'
  · have hkeeps : ∀ y, w.db.observations.get? x = some y → ∃ y', w'.db.observations.get? x = some y' :=
      fun y hy => (hlife.stored x y hy).imp fun _ hy' => hy'.1
    rcases hold k o' ho' with ⟨o, ho, hmoves⟩ | hnone
    · obtain ⟨hne, y, hy⟩ := h.names k o x ho (hmoves.names.1 ▸ hx)
      exact ⟨hne, hkeeps y hy⟩
    · obtain ⟨y, hy⟩ := (hlife.proposed k o' ho' hnone).2.2 x hx
      refine ⟨?_, hkeeps y hy⟩
      rintro rfl
      rw [hnone] at hy
      cases hy
  · obtain ⟨o, ho, hmoves⟩ := hunaccepted k o' ho' haccepted
    rw [hmoves.names.1] at hx
    rcases hmoves.of_accepted haccepted with hbefore | ⟨-, -, hreplaces⟩
    · obtain ⟨y, hy, hsuperseded⟩ := h.accepted k o x ho hx hbefore
      obtain ⟨y', hy', hmovesy⟩ := hlife.stored x y hy
      rw [hmovesy.of_superseded hsuperseded] at hy'
      exact ⟨y, hy', hsuperseded⟩
    · obtain ⟨y, now', -, -, hy'⟩ := hreplaces x hx
      exact ⟨_, hy', rfl⟩
  · obtain ⟨u, hu, hmoves⟩ := hunaccepted k o ho haccepted
    obtain ⟨u', hu', hmoves'⟩ := hunaccepted k' o' ho' haccepted'
    rw [hmoves.names.1] at hx
    rw [hmoves'.names.1] at hx'
    -- what was named by a promotion before is superseded, and cannot be named by one now
    have hapart : ∀ {j : String} {v v' : SelfObservation}, w.db.observations.get? j = some v →
        v.supersedesObservationId = some x → v.Accepted → v'.supersedesObservationId = some x →
          ¬ ∀ x, v'.supersedesObservationId = some x →
            ∃ y now', w.db.observations.get? x = some y ∧ y.status = .promoted ∧
              w'.db.observations.get? x = some (y.move .superseded now') := by
      intro j v v' hv hvx hvaccepted hvx' hreplaces
      obtain ⟨y, hy, hsuperseded⟩ := h.accepted j v x hv hvx hvaccepted
      obtain ⟨y', now', hy', hpromoted, -⟩ := hreplaces x hvx'
      rw [hy] at hy'
      cases hy'
      rw [hsuperseded] at hpromoted
      cases hpromoted
    rcases hmoves.of_accepted haccepted with hb | ⟨hc, hp, hr⟩ <;>
      rcases hmoves'.of_accepted haccepted' with hb' | ⟨hc', hp', hr'⟩
    · exact h.one k u k' u' x hu hu' hx hx' hb hb'
    · exact absurd hr' (hapart hu hx hb hx')
    · exact absurd hr (hapart hu' hx' hb' hx)
    · exact hlife.one k k' u o u' o' hu ho hu' ho' hc hp hc' hp'
  · rcases hold k o' ho' with ⟨o, ho, hmoves⟩ | hnone
    · cases hmoves with
      | stays =>
        obtain ⟨k', y, hy, hnames, hlineage, haccepted⟩ := h.successor k _ ho hsuperseded
        obtain ⟨y', hy', hmovesy⟩ := hlife.stored k' y hy
        exact ⟨k', y', hy', hmovesy.names.1.trans hnames, hmovesy.names.2.1.trans hlineage,
          hmovesy.accepted haccepted⟩
      | promoted => cases hsuperseded
      | retired => cases hsuperseded
      | superseded now now' y hpromoted hy hcandidate hnames hlineage hy' =>
        refine ⟨y.observationId, _, hy', hnames.trans ?_, hlineage, .inl rfl⟩
        rw [Table.get?_key ho]
    · have := (hlife.proposed k o' ho' hnone).1
      rw [this] at hsuperseded
      cases hsuperseded

/-! ## Runs -/

structure World.Steps (w : World) (p : Nat) (e : Event) (t : Task) (w' : World) : Prop where
  run : e.run w.db (w.task p) = some (t, w'.db)
  task : w'.task = Function.update w.task p t
  changes : ∀ k, w'.changes k = w.changes k + if StatusChanged w.db w'.db k then 1 else 0

theorem step_cases {l : Label} (h : machine.Step w l w') :
    (∃ p e t, l = .step p e ∧ w.Steps p e t w') ∨
      ∃ p, l = .drop p ∧ w' = { w with task := Function.update w.task p .idle } := by
  cases l with
  | step p e =>
    obtain ⟨⟨t, db⟩, hrun, rfl⟩ := Option.map_eq_some_iff.1 h
    exact .inl ⟨p, e, t, rfl, hrun, rfl, fun _ => rfl⟩
  | drop p =>
    cases h
    exact .inr ⟨p, rfl, rfl⟩

theorem review_life {db : SelfModelDb} {c : ReviewCall} {now : Timestamp}
    (hself : ∀ o, db.observations.get? c.observationId = some o →
      o.supersedesObservationId ≠ some o.observationId)
    (hcandidate : ∀ o, db.observations.get? c.observationId = some o →
      o.revision = c.expectedRevision → o.status = .candidate ∨ c.decision = .promote ∧
        ∃ x, o.supersedesObservationId = some x ∧
          ∀ y, db.observations.get? x = some y → y.lineageId = o.lineageId → y.status ≠ .promoted) :
    LifeStep db.observations (c.run now db).2.observations ∧
      ∀ row, (c.run now db).1 = .ok (.applied row) →
        (c.run now db).2.observations.get? c.observationId = some row := by
  have houtcome := run_review c.observationId c.expectedRevision c.decision.newStatus c.reviewer
    c.reason now db
  change ReviewOutcome _ _ _ _ _ (c.run now db).1 (c.run now db).2 at houtcome
  generalize (c.run now db).1 = r at houtcome
  generalize (c.run now db).2 = db' at houtcome
  cases houtcome with
  | rejected e => exact ⟨.same fun _ => rfl, fun row hrow => by cases hrow⟩
  | conflict actual => exact ⟨.same fun _ => rfl, fun row hrow => by cases hrow⟩
  | @applied o db' ho hrevision hlineages hreviewed =>
    have hid : o.observationId = c.observationId := Table.get?_key ho
    have hstatus : c.decision.newStatus = .promoted ∨ c.decision.newStatus = .retired := by
      cases c.decision
      · exact .inl rfl
      · exact .inr rfl
    rcases hcandidate o ho hrevision with hc | ⟨hpromote, x, hx, hrefused⟩
    · obtain ⟨hlife, hrow⟩ := LifeStep.reviewed hreviewed (hid ▸ ho) hc hstatus (hself o ho)
      refine ⟨hlife, fun row hrow' => ?_⟩
      cases hrow'
      exact hid ▸ hrow
    · -- the promotion would supersede an observation that it cannot supersede
      cases hreviewed with
      | alone halone =>
        rw [halone (by rw [hpromote]; rfl)] at hx
        cases hx
      | superseding y now' u _ hnames hy hlineage hpromoted hfirst =>
        rw [hx] at hnames
        cases hnames
        rw [hfirst] at hy
        refine absurd hpromoted (hrefused y ((if_neg fun heq => hself o ho ?_).symm.trans hy) hlineage)
        rw [hx, heq]
        rfl

theorem get?_proposed {db db' : SelfModelDb} (h : proposeSelfObservation db o = .ok db') :
    db.observations.get? o.observationId = none ∧ ∀ k, db'.observations.get? k =
      if k = o.observationId then some o else db.observations.get? k := by
  unfold proposeSelfObservation at h
  cases hinsert : db.observations.insert? o with
  | error fault => rw [hinsert] at h; cases h
  | ok observations =>
    rw [hinsert] at h
    cases h
    obtain ⟨hrows, hfree⟩ := Table.rows_insert? hinsert
    exact ⟨hfree, fun k => Table.get?_append hrows hfree k⟩

theorem LifeSound.after {l : Label} (h : LifeSound w)
    (hstep : (machine.restrict World.ReviewsCandidate).Step w l w') :
    LifeStep w.db.observations w'.db.observations ∧ LifeSound w' := by
  obtain ⟨hstep, hreviews⟩ := hstep
  have hself : ∀ k o, w.db.observations.get? k = some o →
      o.supersedesObservationId ≠ some o.observationId := fun k o ho hx =>
    (h.names k o _ ho hx).1 (Table.get?_key ho)
  rcases step_cases hstep with ⟨p, e, t, rfl, hs⟩ | ⟨p, rfl, rfl⟩
  · have hlife : LifeStep w.db.observations w'.db.observations ∧ ∀ o, t = .inserting o →
        o.status = .candidate ∧ o.revision = 1 ∧ ∀ x, o.supersedesObservationId = some x →
          ∃ y, w.db.observations.get? x = some y := by
      have hrun := hs.run
      generalize htask : w.task p = task at hrun
      generalize w'.db = db' at hrun
      unfold Event.run at hrun
      split at hrun
      any_goals cases hrun
      case h_1.refl => exact ⟨.same fun _ => rfl, fun o ho => by cases ho⟩
      case h_2 c => split at hrun <;> cases hrun <;> exact ⟨.same fun _ => rfl, fun o ho => by cases ho⟩
      case h_3 observationId now c =>
        split at hrun
        · cases hrun
          exact ⟨.same fun _ => rfl, fun o ho => by cases ho⟩
        · rename_i hcheck
          cases hrun
          refine ⟨.same fun _ => rfl, fun o ho => ?_⟩
          cases ho
          refine ⟨rfl, rfl, fun x hx => ?_⟩
          simp only [ProposeCall.checkSuperseded,
            show c.supersedesObservationId = some x from hx] at hcheck
          split at hcheck
          · cases hcheck
          · rename_i y hy
            exact ⟨y, hy⟩
      case h_4 o =>
        split at hrun
        · cases hrun
          exact ⟨.same fun _ => rfl, fun o ho => by cases ho⟩
        · rename_i db'' hinsert
          cases hrun
          obtain ⟨hcandidate, hrevision, hnames⟩ := h.inserting p o htask
          obtain ⟨hfree, hget⟩ := get?_proposed hinsert
          exact ⟨.inserted hcandidate hrevision hnames hfree hget, fun o ho => by cases ho⟩
      case h_5 c => split at hrun <;> cases hrun <;> exact ⟨.same fun _ => rfl, fun o ho => by cases ho⟩
      case h_6.refl now c =>
        refine ⟨(review_life (fun o => hself _ o) ?_).1, fun o ho => by cases ho⟩
        simpa only [World.ReviewsCandidate, htask] using hreviews
    refine ⟨hlife.1, h.step hlife.1 hs.changes fun q o hq => ?_⟩
    have hkeeps : ∀ x, (∃ y, w.db.observations.get? x = some y) →
        ∃ y, w'.db.observations.get? x = some y := fun x ⟨y, hy⟩ =>
      (hlife.1.stored x y hy).imp fun _ hy' => hy'.1
    rw [hs.task, Function.update_apply] at hq
    split at hq
    · obtain ⟨hcandidate, hrevision, hnames⟩ := hlife.2 o hq
      exact ⟨hcandidate, hrevision, fun x hx => hkeeps x (hnames x hx)⟩
    · obtain ⟨hcandidate, hrevision, hnames⟩ := h.inserting q o hq
      exact ⟨hcandidate, hrevision, fun x hx => hkeeps x (hnames x hx)⟩
  · refine ⟨.same fun _ => rfl, h.revision, h.unknown, h.names, fun q o hq => ?_, h.accepted, h.one,
      h.successor⟩
    dsimp only at hq
    rw [Function.update_apply] at hq
    split at hq
    · cases hq
    · exact h.inserting q o hq

theorem lifeSound_reachable (h : (machine.restrict World.ReviewsCandidate).Reachable w) :
    LifeSound w := by
  refine h.invariant ?_ fun a l b _ ha hstep => (ha.after hstep).2
  rintro a ⟨hdb, htask, hchanges⟩
  constructor <;> simp [hdb, SelfModelDb.empty, Series.empty, htask, hchanges]

/-- **The life of an observation** in every run in which a review finds, at the revision it expects, a
candidate: a step leaves it alone, promotes or retires a candidate, or supersedes a promoted
observation in the transaction that promotes one of its lineage naming it; at most one that has been
promoted names it; its revision counts the changes of its status; and an applied review answers what
is then stored. -/
theorem lifecycle_linear (w : World) :
    ((machine.restrict World.ReviewsCandidate).Reachable w →
      (∀ k o, w.db.observations.get? k = some o → o.revision = w.changes k + 1) ∧
      (∀ k o k' o' x, w.db.observations.get? k = some o → w.db.observations.get? k' = some o' →
        o.supersedesObservationId = some x → o'.supersedesObservationId = some x → o.Accepted →
          o'.Accepted → k = k') ∧
      ∀ k o, w.db.observations.get? k = some o → o.status = .superseded →
        ∃ k' o', w.db.observations.get? k' = some o' ∧ o'.supersedesObservationId = some k ∧
          o'.lineageId = o.lineageId ∧ o'.Accepted) ∧
    ∀ l w', (machine.restrict World.ReviewsCandidate).Reachable w →
      (machine.restrict World.ReviewsCandidate).Step w l w' →
        LifeStep w.db.observations w'.db.observations ∧
        ∀ p now c row, l = .step p (.update now) → w.task p = .updating c →
          (c.run now w.db).1 = .ok (.applied row) →
            w'.db.observations.get? c.observationId = some row := by
  refine ⟨fun hw => ?_, fun l w' hw hstep => ⟨((lifeSound_reachable hw).after hstep).1, ?_⟩⟩
  · have h := lifeSound_reachable hw
    exact ⟨h.revision, h.one, h.successor⟩
  · rintro p now c row rfl htask hrow
    have h := lifeSound_reachable hw
    obtain ⟨hstep, hreviews⟩ := hstep
    rcases step_cases hstep with ⟨_, _, t, hl, hs⟩ | ⟨_, hl, -⟩ <;> cases hl
    have hrun := hs.run
    rw [htask] at hrun
    generalize w'.db = db' at hrun
    cases hrun
    refine (review_life (fun o ho hx => ?_) ?_).2 row hrow
    · exact (h.names _ o _ ho hx).1 (Table.get?_key ho)
    · simpa only [World.ReviewsCandidate, htask] using hreviews

end

/-! ### A candidate that takes the place of a promoted one -/

def demoWorld : World := ⟨.empty, fun _ => .idle, fun _ => 0⟩

def demoTime : Timestamp := ⟨⟨0, 0⟩, by decide⟩

def demoProposal : ProposeCall where
  lineageId := "ada"
  statement := "reads before writing"
  behavioralConsequence := "keep doing so"
  confidence := .finite 1
  evidence := ["drawer"]
  counterevidence := []
  author := "ada"
  model := none
  harness := none
  scope := .lineage
  supersedesObservationId := none

/-- Two observations are proposed and promoted; the second names the first. -/
def promotedTwice : List Label :=
  [.step 0 (.lineage "ada"), .step 0 (.propose demoProposal),
    .step 0 (.checkSuperseded "obs" demoTime), .step 0 .insert,
    .step 1 (.review ⟨"obs", .promote, 1, "eve", "holds"⟩), .step 1 (.update demoTime),
    .step 0 (.propose { demoProposal with supersedesObservationId := some "obs" }),
    .step 0 (.checkSuperseded "obs2" demoTime), .step 0 .insert,
    .step 1 (.review ⟨"obs2", .promote, 1, "eve", "holds"⟩), .step 1 (.update demoTime)]

def World.reviewing (w : World) (l : Label) : Option World :=
  match l with
  | .step p (.update _) =>
    match w.task p with
    | .updating c =>
      if (w.db.observations.get? c.observationId).all fun o => decide (o.status = .candidate) then
        w.after l
      else none
    | _ => none
  | _ => w.after l

theorem reviewing_step {w w' : World} {l : Label} (h : w.reviewing l = some w') :
    (machine.restrict World.ReviewsCandidate).Step w l w' := by
  unfold World.reviewing at h
  split at h
  · split at h
    · rename_i p _ c htask
      rw [Option.ite_none_right_eq_some] at h
      refine ⟨h.2, ?_⟩
      simp only [World.ReviewsCandidate, htask]
      intro o ho _
      have hcandidate := h.1
      rw [ho, Option.all_some, decide_eq_true_eq] at hcandidate
      exact .inl hcandidate
    · cases h
  · rename_i hother
    refine ⟨h, ?_⟩
    unfold World.ReviewsCandidate
    split
    · exact absurd rfl (hother _ _)
    · trivial

theorem lifecycle_linear_sample : ∃ w, (machine.restrict World.ReviewsCandidate).Reachable w ∧
    (w.db.observations.get? "obs").map (·.status) = some .superseded ∧
      ∃ k o, w.db.observations.get? k = some o ∧ o.supersedesObservationId = some "obs" ∧
        o.Accepted := by
  have hplay : ((promotedTwice.foldlM World.reviewing demoWorld).any fun w =>
      (w.db.observations.get? "obs").any fun o => decide (o.status = .superseded)) = true := by
    decide +kernel
  simp only [decide_eq_true_eq, Option.any_eq_true] at hplay
  obtain ⟨w, hw, o, ho, hstatus⟩ := hplay
  have hreach : (machine.restrict World.ReviewsCandidate).Reachable w :=
    ⟨demoWorld, _, ⟨rfl, fun _ => rfl, fun _ => rfl⟩, .of_foldlM (fun _ _ _ => reviewing_step) hw⟩
  obtain ⟨k, o', hk, hnames, -, haccepted⟩ := ((lifecycle_linear w).1 hreach).2.2 "obs" o ho hstatus
  exact ⟨w, hreach, by rw [ho, Option.map_some, hstatus], k, o', hk, hnames, haccepted⟩

/-! ### A review that is overtaken -/

def play (w : World) (ls : List Label) : Option World := ls.foldlM World.after w

/-- Call `1` finds a candidate and expects revision 2; call `2` promotes it. -/
def promotedMeanwhile : List Label :=
  [.step 0 (.lineage "ada"), .step 0 (.propose demoProposal),
    .step 0 (.checkSuperseded "obs" demoTime), .step 0 .insert,
    .step 1 (.review ⟨"obs", .retire, 2, "bob", "stale"⟩),
    .step 2 (.review ⟨"obs", .promote, 1, "eve", "holds"⟩), .step 2 (.update demoTime)]

/-- A promoted observation is retired. -/
theorem promoted_retired : ∃ w l w' o o', machine.Reachable w ∧ machine.Step w l w' ∧
    w.db.observations.get? "obs" = some o ∧ o.status = .promoted ∧
    w'.db.observations.get? "obs" = some o' ∧ o'.status = .retired := by
  have hplay : ((play demoWorld promotedMeanwhile).any fun w =>
      (w.db.observations.get? "obs").any fun o => decide (o.status = .promoted) &&
        (w.after (.step 1 (.update demoTime))).any fun w' =>
          (w'.db.observations.get? "obs").any fun o' => decide (o'.status = .retired)) = true := by
    decide +kernel
  simp only [Bool.and_eq_true, decide_eq_true_eq, Option.any_eq_true] at hplay
  obtain ⟨w, hw, o, ho, hpromoted, w', hw', o', ho', hretired⟩ := hplay
  exact ⟨w, _, w', o, o', ⟨demoWorld, _, ⟨rfl, fun _ => rfl, fun _ => rfl⟩, .of_foldlM (fun _ _ _ h => h) hw⟩, hw', ho,
    hpromoted, ho', hretired⟩

end AgentPalace.SelfModel
