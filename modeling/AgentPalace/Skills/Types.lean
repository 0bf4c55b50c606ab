import AgentPalace.Storage.Basic

/-!
# The data of the skill registry

A skill is a list of versions under one id; a version is a row of `skills`
under `(skill_id, version)`, with its reviews and outcomes in two append-only
tables. A confidence is an `f32`, which may be no number.
-/

namespace AgentPalace.Skills

inductive SkillStatus where
  | candidate | promoted | superseded | retired
  deriving DecidableEq

def SkillStatus.terminal : SkillStatus → Bool
  | .superseded | .retired => true
  | _ => false

inductive SkillScope where
  | agent | project | organization
  deriving DecidableEq

namespace SkillScope

def asStr : SkillScope → String
  | .agent => "agent"
  | .project => "project"
  | .organization => "organization"

def requiresDistinctReview : SkillScope → Bool
  | .project | .organization => true
  | .agent => false

end SkillScope

inductive SkillOutcomeResult where
  | success | failure | partialSuccess
  deriving DecidableEq

inductive F32 where
  | nan
  | infinite (negative : Bool)
  | finite (value : Rat)
  deriving DecidableEq

/-- `(0.0..=1.0).contains`. -/
def F32.inUnitInterval : F32 → Bool
  | .finite value => 0 ≤ value ∧ value ≤ 1
  | _ => false

structure NewSkill where
  skillId : String
  scope : SkillScope
  wing : Option String
  applicability : String
  instructionsRef : String
  requiredCapabilities : List String
  requiredTools : List String
  requiredPermissions : List String
  author : String
  provenance : Option Json
  confidence : F32
  idempotencyKey : String

structure Skill where
  skillId : String
  version : Int
  scope : SkillScope
  wing : Option String
  status : SkillStatus
  applicability : String
  instructionsRef : String
  requiredCapabilities : List String
  requiredTools : List String
  requiredPermissions : List String
  author : String
  provenance : Option Json
  confidence : F32
  supersedesVersion : Option Int
  revision : Int
  createdAt : Timestamp
  updatedAt : Timestamp
  deriving DecidableEq

structure SkillRow extends Skill where
  idempotencyKey : String
  deriving DecidableEq

abbrev SkillRow.key (r : SkillRow) : String × Int := (r.skillId, r.version)

structure SkillReview where
  reviewId : String
  skillId : String
  version : Int
  fromStatus : SkillStatus
  toStatus : SkillStatus
  reviewer : String
  reason : String
  occurredAt : Timestamp
  deriving DecidableEq

structure NewSkillOutcome where
  skillId : String
  version : Int
  taskId : Option String
  result : SkillOutcomeResult
  evaluator : String
  notes : String
  recordedBy : String
  idempotencyKey : String

structure SkillOutcome where
  outcomeId : String
  skillId : String
  version : Int
  taskId : Option String
  result : SkillOutcomeResult
  evaluator : String
  notes : String
  recordedBy : String
  recordedAt : Timestamp
  deriving DecidableEq

structure SkillOutcomeRow extends SkillOutcome where
  idempotencyKey : String
  deriving DecidableEq

abbrev SkillOutcomeRow.key (r : SkillOutcomeRow) : String := r.outcomeId

structure SkillDb where
  skills : Table SkillRow.key
  reviews : Table SkillReview.reviewId
  outcomes : Table SkillOutcomeRow.key

namespace SkillDb

def empty : SkillDb := ⟨.empty, .empty, .empty⟩

def versionsOf (db : SkillDb) (id : String) : List SkillRow :=
  db.skills.rows.filter (·.skillId = id)

/-- The reviews of a version, in the order they were written. -/
def reviewsOf (db : SkillDb) (id : String) (version : Int) : List SkillReview :=
  db.reviews.rows.filter fun r => r.skillId = id ∧ r.version = version

end SkillDb

end AgentPalace.Skills
