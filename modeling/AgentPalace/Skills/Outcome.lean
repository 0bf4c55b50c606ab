import AgentPalace.Skills.System

/-!
# What one call to the registry can do

`Outcome` lists everything a call can do: nothing, a new version, a new
outcome, or changes of the status of versions, each of which raises the
version's revision and adds a review (`Transition`). A promotion makes two of
them when it displaces another version.
-/

namespace AgentPalace.Skills

/-! ## The rows a call writes -/

def NewSkill.row (input : NewSkill) (wing : Option String) (supersedesVersion : Option Int)
    (ts : Timestamp) : SkillRow :=
  { skillId := input.skillId, version := supersedesVersion.getD 0 + 1, scope := input.scope, wing
    status := .candidate, applicability := input.applicability
    instructionsRef := input.instructionsRef
    requiredCapabilities := input.requiredCapabilities, requiredTools := input.requiredTools
    requiredPermissions := input.requiredPermissions, author := input.author
    provenance := input.provenance, confidence := input.confidence, supersedesVersion
    revision := 0, createdAt := ts, updatedAt := ts, idempotencyKey := input.idempotencyKey }

def NewSkillOutcome.row (input : NewSkillOutcome) (host : Host) (ts : Timestamp) :
    SkillOutcomeRow :=
  { outcomeId := "skill_outcome_" ++ host.uuid, skillId := input.skillId, version := input.version
    taskId := input.taskId, result := input.result, evaluator := input.evaluator
    notes := input.notes, recordedBy := input.recordedBy, recordedAt := ts
    idempotencyKey := input.idempotencyKey }

def SkillRow.move (r : SkillRow) (status : SkillStatus) (ts : Timestamp) : SkillRow :=
  { r with status := status, revision := r.revision + 1, updatedAt := ts }

/-! ## Outcomes -/

/-- The row of `r` was replaced. -/
def Replaced (r : SkillRow) (skills skills' : Table SkillRow.key) : Prop :=
  skills'.rows = skills.rows.map fun x => if x.key = r.key then r else x

/-- Reading after a version's row was replaced. -/
theorem Replaced.get? {row row' : SkillRow} {skills skills' : Table SkillRow.key}
    (h : Replaced row' skills skills') (hrow : skills.get? row'.key = some row)
    (k : String × Int) : skills'.get? k = if k = row'.key then some row' else skills.get? k :=
  Table.get?_replace row' h hrow k

/-- One version changed its status, and the review says so. -/
structure Transition (db : SkillDb) (row : SkillRow) (status : SkillStatus) (ts : Timestamp)
    (db' : SkillDb) : Prop where
  stored : db.skills.get? row.key = some row
  skills : Replaced (row.move status ts) db.skills db'.skills
  reviews : ∃ review : SkillReview, db'.reviews.rows = db.reviews.rows ++ [review] ∧
    review.skillId = row.skillId ∧ review.version = row.version ∧
    review.fromStatus = row.status ∧ review.toStatus = status
  outcomes : db'.outcomes = db.outcomes

/-- What `findPromotedVersion` finds, when it does not refuse. -/
def Promoted (db : SkillDb) (id : String) : Option SkillRow → Prop
  | none => ∀ r ∈ db.versionsOf id, r.status ≠ .promoted
  | some prior => prior ∈ db.versionsOf id ∧ prior.status = .promoted ∧
      ∀ r ∈ db.versionsOf id, r.status = .promoted → r = prior

def Supersedes (superseded : Option SkillRow) (db db' : SkillDb) : Prop :=
  match superseded with
  | none => db' = db
  | some prior => ∃ ts, Transition db prior .superseded ts db'

/-- Reading after a version changed its status. -/
theorem Transition.get? {db db' : SkillDb} {row : SkillRow} {status : SkillStatus} {ts : Timestamp}
    (h : Transition db row status ts db') (k : String × Int) :
    db'.skills.get? k = if k = row.key then some (row.move status ts) else db.skills.get? k :=
  h.skills.get? h.stored k

theorem Supersedes.get? {superseded : Option SkillRow} {db db' : SkillDb}
    (h : Supersedes superseded db db') {k : String × Int}
    (hk : ∀ prior, superseded = some prior → k ≠ prior.key) :
    db'.skills.get? k = db.skills.get? k := by
  cases superseded with
  | none => rw [show db' = db from h]
  | some prior =>
    obtain ⟨ts, hmove⟩ := h
    rw [hmove.get?, if_neg (hk prior rfl)]

inductive Outcome (db : SkillDb) (call : Call) : Answer → SkillDb → Prop where
  | rejected {e : StorageError} : Outcome db call (.error e) db
  | conflict {actual : Option Int} : Outcome db call (.ok (.write (.conflict actual))) db
  | replayed {reply : Reply} (h : ∀ w, reply ≠ .write w) : Outcome db call (.ok reply) db
  | proposed {input : NewSkill} {wing : Option String} {ts : Timestamp} {row : SkillRow}
      {skills : Table SkillRow.key} (hcall : call = .proposeSkill input)
      (hrow : row = input.row wing (maxVersion db input.skillId) ts)
      (hwing : ∀ m prior, maxVersion db input.skillId = some m →
        db.skills.get? (input.skillId, m) = some prior → prior.wing = wing)
      (hskills : skills.rows = db.skills.rows ++ [row])
      (hfresh : db.skills.get? row.key = none) :
      Outcome db call (.ok (.skill row.toSkill)) { db with skills := skills }
  | recorded {input : NewSkillOutcome} {row : SkillOutcomeRow}
      {outcomes : Table SkillOutcomeRow.key} (hcall : call = .recordOutcome input)
      (houtcomes : outcomes.rows = db.outcomes.rows ++ [row]) :
      Outcome db call (.ok (.outcome row.toSkillOutcome)) { db with outcomes := outcomes }
  | promoted {current : SkillRow} {superseded : Option SkillRow} {reviewer reason : String}
      {ts : Timestamp} {db₁ db' : SkillDb}
      (hcall : call = .promoteSkill current.skillId current.version current.revision reviewer
        reason)
      (hstatus : current.status = .candidate) (hsuperseded : Promoted db current.skillId superseded)
      (hgoverns : governs (governingScope superseded current) current reviewer
        (db.outcomes.rows.any fun o => o.skillId = current.skillId && o.version = current.version) =
        .ok ())
      (hmove : Transition db current .promoted ts db₁) (hprior : Supersedes superseded db₁ db') :
      Outcome db call (.ok (.write (.applied (current.move .promoted ts).toSkill))) db'
  | retired {current : SkillRow} {reviewer reason : String} {ts : Timestamp} {db' : SkillDb}
      (hcall : call = .retireSkill current.skillId current.version current.revision reviewer
        reason)
      (hstatus : current.status.terminal = false) (hmove : Transition db current .retired ts db') :
      Outcome db call (.ok (.write (.applied (current.move .retired ts).toSkill))) db'

end AgentPalace.Skills
