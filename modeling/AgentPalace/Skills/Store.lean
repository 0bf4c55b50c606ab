import AgentPalace.Skills.Types

/-!
# The skill registry

Every mutating operation of `SkillStore`, statement by statement. The two
`UNIQUE` constraints on idempotency keys are not checked by the inserts of the
model: the same transaction has just found the key unused.
-/

namespace AgentPalace.Skills

abbrev STx (α : Type) := Tx SkillDb StorageError α

def maxTextBytes : Nat := 1024 * 1024

def boundedText (value name : String) : Except StorageError Unit :=
  if value.utf8ByteSize > maxTextBytes then .error (.invariant s!"{name} exceeds 1 MiB") else .ok ()

/-! ## Statements -/

def getSkill (id : String) (version : Int) : STx (Option SkillRow) :=
  Tx.query fun db => db.skills.get? (id, version)

def requireSkill (id : String) (version : Int) : STx SkillRow := do
  let skill ← getSkill id version
  Tx.lift (okOr skill s!"skill `{id}` version {version} not found")

def findSkillByKey (author key : String) : STx (Option SkillRow) :=
  Tx.query fun db => db.skills.rows.find? fun r => r.author = author ∧ r.idempotencyKey = key

def findOutcomeByKey (actor key : String) : STx (Option SkillOutcomeRow) :=
  Tx.query fun db => db.outcomes.rows.find? fun r => r.recordedBy = actor ∧ r.idempotencyKey = key

/-- `SELECT MAX(version)`. -/
def maxVersion (db : SkillDb) (id : String) : Option Int :=
  ((db.versionsOf id).map (·.version)).max?

/-- The single promoted version, if there is one. -/
def findPromotedVersion (id : String) : STx (Option SkillRow) := do
  let promoted ← Tx.query fun db =>
    orderBy (·.version) ((db.versionsOf id).filter (·.status = .promoted))
  match promoted with
  | [] => return none
  | [prior] => return some prior
  | _ =>
    throw (.invariant
      s!"skill `{id}` has {promoted.length} promoted versions; at most one may be authoritative")

/-- `SET status, revision, updated_at` where a condition holds. -/
def SkillRow.setStatus (guard : SkillRow → Bool) (status : SkillStatus) (revision : Int)
    (updatedAt : Timestamp) (r : SkillRow) : SkillRow :=
  if guard r then { r with status, revision, updatedAt } else r

theorem SkillRow.key_setStatus (guard : SkillRow → Bool) (status : SkillStatus) (revision : Int)
    (updatedAt : Timestamp) (r : SkillRow) :
    (r.setStatus guard status revision updatedAt).key = r.key := by
  unfold setStatus
  split <;> rfl

/-- `UPDATE skills` of one version; answers how many rows changed. -/
def updateStatus (id : String) (version : Int) (guard : SkillRow → Bool) (status : SkillStatus)
    (revision : Int) (updatedAt : Timestamp) : STx Nat := do
  let changed ← Tx.query fun db =>
    ((db.skills.get? (id, version)).filter guard).toList.length
  let hkey := SkillRow.key_setStatus guard status revision updatedAt
  Tx.exec fun db => .ok { db with
    skills := db.skills.modify (id, version) (·.setStatus guard status revision updatedAt) hkey }
  return changed

/-- `uuid` is the fresh uuid of the review. -/
def insertReview (host : Host) (uuid id : String) (version : Int)
    (fromStatus toStatus : SkillStatus) (reviewer reason : String) : STx Unit := do
  let occurredAt ← Tx.lift (formatTime host.now)
  Tx.exec fun db => do
    let reviews ← sql (db.reviews.insert?
      { reviewId := "skill_review_" ++ uuid, skillId := id, version, fromStatus, toStatus
        reviewer, reason, occurredAt })
    return { db with reviews := reviews }

def supersedePromoted (host : Host) (prior : SkillRow) (reviewer : String)
    (promotedVersion : Int) : STx Unit := do
  let updatedAt ← Tx.lift (formatTime host.now)
  let updated ← updateStatus prior.skillId prior.version
    (fun r => r.status = .promoted && r.revision = prior.revision) .superseded
    (prior.revision + 1) updatedAt
  if updated ≠ 1 then
    throw (.invariant
      s!"skill `{prior.skillId}` version {prior.version} changed before it could be superseded")
  insertReview host host.eventUuid prior.skillId prior.version .promoted .superseded reviewer
    s!"superseded by version {promotedVersion}"

/-! ## Proposals and outcomes -/

def proposedWing (scope : SkillScope) (wing : Option String) :
    Except StorageError (Option String) :=
  let wing := wing.map trim
  if scope = .project then
    match wing.filter (· ≠ "") with
    | none =>
      .error (.invariant "scope `project` requires a `wing` identifying the owning project")
    | some wing => (WingId.normalized wing).mapError .invalidId |>.map (some ·.str)
  else
    match wing.filter (· ≠ "") with
    | none => .ok none
    | some wing => .error (.invariant
        s!"scope `{scope.asStr}` is not project-bound and must not carry a wing (got `{wing}`)")

/-- How an optional wing prints with `{:?}`, for wings without characters to escape. -/
def debugWing : Option String → String
  | none => "None"
  | some wing => "Some(\"" ++ wing ++ "\")"

/-- A new version stays in the wing of the latest one. -/
def checkWing (id : String) (wing : Option String) (priorVersion : Int) : STx Unit := do
  let prior ← requireSkill id priorVersion
  if prior.wing ≠ wing then
    throw (.invariant
      s!"skill `{id}` is bound to wing {debugWing prior.wing}; a new version cannot move it to {debugWing wing}")

def proposeSkill (host : Host) (input : NewSkill) : STx Skill := do
  Tx.lift (validateActor input.author)
  Tx.lift (validateKey input.idempotencyKey)
  Tx.lift (boundedText input.applicability "skill applicability")
  Tx.lift (boundedText input.instructionsRef "skill instructions_ref")
  if ¬ input.confidence.inUnitInterval then
    throw (.invariant "confidence must be within 0.0..=1.0")
  let wing ← Tx.lift (proposedWing input.scope input.wing)
  match ← findSkillByKey input.author input.idempotencyKey with
  | some skill =>
    Tx.commit
    return skill.toSkill
  | none =>
    let supersedesVersion ← Tx.query fun db => maxVersion db input.skillId
    let version := supersedesVersion.getD 0 + 1
    supersedesVersion.forM (checkWing input.skillId wing)
    let createdAt ← Tx.lift (formatTime host.now)
    Tx.exec fun db => do
      let skills ← sql (db.skills.insert?
        { skillId := input.skillId, version, scope := input.scope, wing, status := .candidate
          applicability := input.applicability, instructionsRef := input.instructionsRef
          requiredCapabilities := input.requiredCapabilities, requiredTools := input.requiredTools
          requiredPermissions := input.requiredPermissions, author := input.author
          provenance := input.provenance, confidence := input.confidence, supersedesVersion
          revision := 0, createdAt, updatedAt := createdAt
          idempotencyKey := input.idempotencyKey })
      return { db with skills := skills }
    let skill ← getSkill input.skillId version
    let skill ← Tx.lift (okOr skill "proposed skill disappeared")
    Tx.commit
    return skill.toSkill

def recordOutcome (host : Host) (input : NewSkillOutcome) : STx SkillOutcome := do
  Tx.lift (validateActor input.recordedBy)
  Tx.lift (validateKey input.idempotencyKey)
  Tx.lift (boundedText input.notes "skill outcome notes")
  match ← findOutcomeByKey input.recordedBy input.idempotencyKey with
  | some outcome =>
    Tx.commit
    return outcome.toSkillOutcome
  | none =>
    let _ ← requireSkill input.skillId input.version
    let recordedAt ← Tx.lift (formatTime host.now)
    let id := "skill_outcome_" ++ host.uuid
    Tx.exec fun db => do
      let outcomes ← sql (db.outcomes.insert?
        { outcomeId := id, skillId := input.skillId, version := input.version
          taskId := input.taskId, result := input.result, evaluator := input.evaluator
          notes := input.notes, recordedBy := input.recordedBy, recordedAt
          idempotencyKey := input.idempotencyKey })
      return { db with outcomes := outcomes }
    let outcome ← Tx.query fun db => db.outcomes.get? id
    let outcome ← Tx.lift (okOr outcome "recorded outcome disappeared")
    Tx.commit
    return outcome.toSkillOutcome

/-! ## Promotion and retirement -/

/-- The stricter of the scopes of a version and of the one it displaces. -/
def governingScope (superseded : Option SkillRow) (current : SkillRow) : SkillScope :=
  match superseded with
  | some prior => if prior.scope.requiresDistinctReview then prior.scope else current.scope
  | none => current.scope

/-- The checks of `promoteSkill` on who reviews and what was recorded. -/
def governs (scope : SkillScope) (current : SkillRow) (reviewer : String) (hasValidation : Bool) :
    Except StorageError Unit :=
  if scope.requiresDistinctReview then
    if reviewer = current.author then
      .error (.invariant s!"scope `{scope.asStr}` requires a reviewer distinct from the author")
    else if ¬ hasValidation then
      .error (.invariant
        s!"scope `{scope.asStr}` requires at least one recorded outcome before promotion")
    else .ok ()
  else if reviewer ≠ current.author then
    .error (.invariant s!"scope `agent` may only be promoted by its author `{current.author}`")
  else .ok ()

def promoteSkill (host : Host) (id : String) (version expectedRevision : Int)
    (reviewer reason : String) : STx (RevisionedWrite Skill) := do
  Tx.lift (validateActor reviewer)
  match ← getSkill id version with
  | none => return .conflict none
  | some current =>
    if current.revision ≠ expectedRevision then
      return .conflict (some current.revision)
    if current.status.terminal then
      throw (.invariant s!"skill `{id}` version {version} is terminal and cannot be promoted")
    if current.status = .promoted then
      throw (.invariant s!"skill `{id}` version {version} is already promoted")
    let superseded ← findPromotedVersion id
    let hasValidation ← Tx.query fun db =>
      db.outcomes.rows.any fun o => o.skillId = id && o.version = version
    Tx.lift (governs (governingScope superseded current) current reviewer hasValidation)
    let updatedAt ← Tx.lift (formatTime host.now)
    let updated ← updateStatus id version (·.revision = expectedRevision) .promoted
      (current.revision + 1) updatedAt
    if updated ≠ 1 then
      return .conflict none
    insertReview host host.uuid id version current.status .promoted reviewer reason
    superseded.forM fun prior => supersedePromoted host prior reviewer version
    let skill ← getSkill id version
    let skill ← Tx.lift (okOr skill "promoted skill disappeared")
    Tx.commit
    return .applied skill.toSkill

def retireSkill (host : Host) (id : String) (version expectedRevision : Int)
    (reviewer reason : String) : STx (RevisionedWrite Skill) := do
  Tx.lift (validateActor reviewer)
  match ← getSkill id version with
  | none => return .conflict none
  | some current =>
    if current.revision ≠ expectedRevision then
      return .conflict (some current.revision)
    if current.status.terminal then
      throw (.invariant s!"skill `{id}` version {version} is already terminal")
    let updatedAt ← Tx.lift (formatTime host.now)
    let updated ← updateStatus id version (·.revision = expectedRevision) .retired
      (current.revision + 1) updatedAt
    if updated ≠ 1 then
      return .conflict none
    insertReview host host.uuid id version current.status .retired reviewer reason
    let skill ← getSkill id version
    let skill ← Tx.lift (okOr skill "retired skill disappeared")
    Tx.commit
    return .applied skill.toSkill

end AgentPalace.Skills
