import AgentPalace.Skills.Types

/-!
# Self-observations

An observation about an agent lineage is proposed as a candidate; a review
promotes or retires it. A candidate may name the promoted observation that it
replaces, which its promotion marks superseded in the same transaction. Rows are
never deleted, so the foreign keys of the table always hold.
-/

namespace AgentPalace.SelfModel

inductive SelfObservationStatus where
  | candidate | promoted | superseded | retired
  deriving DecidableEq

inductive SelfObservationScope where
  | lineage | shared | engine
  deriving DecidableEq

def SelfObservationStatus.asStr : SelfObservationStatus → String
  | .candidate => "candidate"
  | .promoted => "promoted"
  | .superseded => "superseded"
  | .retired => "retired"

structure SelfObservation where
  observationId : String
  lineageId : String
  status : SelfObservationStatus
  scope : SelfObservationScope
  statement : String
  behavioralConsequence : String
  confidence : Skills.F32
  author : String
  model : Option String
  harness : Option String
  evidence : List String
  counterevidence : List String
  supersedesObservationId : Option String
  revision : Int
  createdAt : Timestamp
  updatedAt : Timestamp
  deriving DecidableEq

structure SelfObservationReview where
  reviewId : Int
  observationId : String
  revision : Int
  priorStatus : SelfObservationStatus
  newStatus : SelfObservationStatus
  reviewer : String
  reason : String
  reviewedAt : Timestamp
  deriving DecidableEq

structure SelfModelDb where
  /-- The ids of `agent_lineages`. -/
  lineages : List String
  observations : Table SelfObservation.observationId
  reviews : Series SelfObservationReview.reviewId SelfObservationReview.reviewId

def SelfModelDb.empty : SelfModelDb := ⟨[], .empty, .empty⟩

abbrev OTx (α : Type) := Tx SelfModelDb StorageError α

def SelfObservation.move (o : SelfObservation) (status : SelfObservationStatus) (now : Timestamp) :
    SelfObservation :=
  { o with status, revision := o.revision + 1, updatedAt := now }

/-! ## Statements -/

def proposeSelfObservation (db : SelfModelDb) (o : SelfObservation) :
    Except StorageError SelfModelDb := do
  let observations ← sql (db.observations.insert? o)
  return { db with observations := observations }

def getSelfObservation (observationId : String) : OTx (Option SelfObservation) :=
  Tx.query fun db => db.observations.get? observationId

/-- `SET status, revision, updated_at` where a condition holds. -/
def SelfObservation.setStatus (guard : SelfObservation → Bool) (status : SelfObservationStatus)
    (revision : Int) (updatedAt : Timestamp) (o : SelfObservation) : SelfObservation :=
  if guard o then { o with status, revision, updatedAt } else o

theorem SelfObservation.key_setStatus (guard : SelfObservation → Bool)
    (status : SelfObservationStatus) (revision : Int) (updatedAt : Timestamp) (o : SelfObservation) :
    (o.setStatus guard status revision updatedAt).observationId = o.observationId := by
  unfold setStatus
  split <;> rfl

/-- `UPDATE self_observations` of one observation; answers how many rows changed. -/
def updateStatus (observationId : String) (guard : SelfObservation → Bool)
    (status : SelfObservationStatus) (revision : Int) (updatedAt : Timestamp) : OTx Nat := do
  let changed ← Tx.query fun db =>
    ((db.observations.get? observationId).filter guard).toList.length
  let hkey := SelfObservation.key_setStatus guard status revision updatedAt
  Tx.exec fun db => .ok { db with
    observations := db.observations.modify observationId
      (·.setStatus guard status revision updatedAt) hkey }
  return changed

def insertSelfObservationReview (observationId : String) (revision : Int)
    (priorStatus newStatus : SelfObservationStatus) (reviewer reason : String)
    (reviewedAt : Timestamp) : OTx Unit :=
  Tx.exec fun db => do
    let reviews ← sql (db.reviews.append? fun reviewId =>
      { reviewId, observationId, revision, priorStatus, newStatus, reviewer, reason, reviewedAt })
    return { db with reviews := reviews }

/-! ## Reviews -/

/-- Mark the observation that `current` replaces as superseded. -/
def supersede (current : SelfObservation) (supersededId reviewer reason : String)
    (now : Timestamp) : OTx Unit := do
  let superseded ← getSelfObservation supersededId
  let superseded ← Tx.lift (okOr superseded s!"superseded observation `{supersededId}` does not exist")
  if superseded.lineageId ≠ current.lineageId then
    throw (.invariant s!"superseded observation `{supersededId}` belongs to another lineage")
  if superseded.status ≠ .promoted then
    throw (.invariant s!"superseded observation `{supersededId}` must currently be promoted")
  let updated ← updateStatus supersededId
    (fun o => o.status = .promoted && o.revision = superseded.revision) .superseded
    (superseded.revision + 1) now
  if updated ≠ 1 then
    throw (.invariant
      s!"superseded observation `{supersededId}` changed before it could be superseded")
  insertSelfObservationReview supersededId (superseded.revision + 1) superseded.status .superseded
    reviewer s!"superseded by `{current.observationId}`: {reason}" now

def reviewSelfObservation (observationId : String) (expectedRevision : Int)
    (newStatus : SelfObservationStatus) (reviewer reason : String) (now : Timestamp) :
    OTx (RevisionedWrite SelfObservation) := do
  match ← getSelfObservation observationId with
  | none => return .conflict none
  | some found =>
    if found.revision ≠ expectedRevision then
      return .conflict (some found.revision)
    let current := found.move newStatus now
    let _ ← updateStatus observationId (·.revision = expectedRevision) newStatus current.revision now
    insertSelfObservationReview observationId current.revision found.status newStatus reviewer reason
      now
    if newStatus = .promoted then
      current.supersedesObservationId.forM fun supersededId =>
        supersede current supersededId reviewer reason now
    Tx.commit
    return .applied current

/-! ## What a review does -/

open Tx

def Replaced (o : SelfObservation) (t t' : Table SelfObservation.observationId) : Prop :=
  ∀ k, t'.get? k = if k = o.observationId then some o else t.get? k

section
variable {α : Type} {Q : Except StorageError α → Session SelfModelDb → Prop} {db w : SelfModelDb}

/-- An `UPDATE` of an observation that satisfies its condition. -/
theorem wp_updateStatus {o : SelfObservation} {id : String} {guard : SelfObservation → Bool}
    {status : SelfObservationStatus} {revision : Int} {now : Timestamp} {k : Nat → OTx α}
    (ho : w.observations.get? id = some o) (hguard : guard o = true)
    (hrevision : revision = o.revision + 1)
    (h : ∀ observations, Replaced (o.move status now) w.observations observations →
      wp (k 1) Q ⟨db, { w with observations := observations }⟩) :
    wp (updateStatus id guard status revision now >>= k) Q ⟨db, w⟩ := by
  have hkey := SelfObservation.key_setStatus guard status revision now
  have hmove : o.setStatus guard status revision now = o.move status now := by
    rw [SelfObservation.setStatus, if_pos hguard, hrevision]
    rfl
  have hid : id = o.observationId := (Table.get?_key ho).symm
  have hcount : ((w.observations.get? id).filter guard).toList.length = 1 := by
    rw [ho, Option.filter_some_pos hguard]
    rfl
  unfold updateStatus
  refine wp_assoc (wp_query ?_)
  rw [hcount]
  refine wp_assoc (wp_write ?_)
  refine h _ fun j => ?_
  have hrows := Table.rows_modify w.observations (·.setStatus guard status revision now) hkey ho
  rw [hmove] at hrows
  refine Table.get?_replace (o.move status now) ?_ (hid ▸ ho) j
  rw [hrows, hid]
  rfl

theorem wp_insertReview {id reviewer reason : String} {revision : Int}
    {prior status : SelfObservationStatus} {now : Timestamp}
    {Q : Except StorageError Unit → Session SelfModelDb → Prop}
    (hQ : Rejects (fun _ => True) Q db)
    (h : ∀ reviews, Q (.ok ()) ⟨db, { w with reviews := reviews }⟩) :
    wp (insertSelfObservationReview id revision prior status reviewer reason now) Q ⟨db, w⟩ := by
  unfold insertSelfObservationReview wp exec
  dsimp only
  cases w.reviews.append? fun reviewId =>
      { reviewId, observationId := id, revision, priorStatus := prior, newStatus := status
        reviewer, reason, reviewedAt := now } with
  | error fault => exact hQ _ _ trivial rfl
  | ok reviews => exact h reviews

end

/-- What an applied review has done to the observations. -/
inductive Reviewed (t t' : Table SelfObservation.observationId) (o o' : SelfObservation) : Prop where
  | alone (halone : o'.status = .promoted → o.supersedesObservationId = none)
      (hreplaced : Replaced o' t t')
  /-- The promotion of `o` supersedes `x`. -/
  | superseding (x : SelfObservation) (now : Timestamp) (u : Table SelfObservation.observationId)
      (hpromoted : o'.status = .promoted) (hnames : o.supersedesObservationId = some x.observationId)
      (hx : u.get? x.observationId = some x) (hlineage : x.lineageId = o.lineageId)
      (hstatus : x.status = .promoted) (hfirst : Replaced o' t u)
      (hsecond : Replaced (x.move .superseded now) u t')

theorem wp_supersede {Q : Except StorageError Unit → Session SelfModelDb → Prop}
    {db w : SelfModelDb} {current : SelfObservation} {supersededId reviewer reason : String}
    {now : Timestamp} (hQ : Rejects (fun _ => True) Q db)
    (h : ∀ x u reviews, w.observations.get? supersededId = some x → x.lineageId = current.lineageId →
      x.status = .promoted → Replaced (x.move .superseded now) w.observations u →
      Q (.ok ()) ⟨db, { w with observations := u, reviews := reviews }⟩) :
    wp (supersede current supersededId reviewer reason now) Q ⟨db, w⟩ := by
  unfold supersede getSelfObservation
  refine wp_query (wp_lift hQ fun x hx => ?_)
  have hx := okOr_ok.1 hx
  refine wp_guard hQ fun hlineage => ?_
  refine wp_guard hQ fun hstatus => ?_
  rw [not_not] at hlineage hstatus
  refine wp_updateStatus hx (by simp [hstatus]) rfl fun u hsecond => ?_
  refine wp_guard hQ fun _ => ?_
  exact wp_insertReview hQ fun reviews => h x u reviews hx hlineage hstatus hsecond

/-- **What a review does**: it answers a conflict or an error and leaves everything as it is, or it
moves the observation it finds at the expected revision. -/
inductive ReviewOutcome (id : String) (expectedRevision : Int) (newStatus : SelfObservationStatus)
    (now : Timestamp) (db : SelfModelDb) :
    Except StorageError (RevisionedWrite SelfObservation) → SelfModelDb → Prop where
  | rejected (e : StorageError) : ReviewOutcome id expectedRevision newStatus now db (.error e) db
  | conflict (actual : Option Int) :
      ReviewOutcome id expectedRevision newStatus now db (.ok (.conflict actual)) db
  | applied {o : SelfObservation} {db' : SelfModelDb} (ho : db.observations.get? id = some o)
      (hrevision : o.revision = expectedRevision) (hlineages : db'.lineages = db.lineages)
      (hreviewed : Reviewed db.observations db'.observations o (o.move newStatus now)) :
      ReviewOutcome id expectedRevision newStatus now db (.ok (.applied (o.move newStatus now))) db'

theorem run_review (id : String) (expectedRevision : Int) (newStatus : SelfObservationStatus)
    (reviewer reason : String) (now : Timestamp) (db : SelfModelDb) :
    ReviewOutcome id expectedRevision newStatus now db
      ((reviewSelfObservation id expectedRevision newStatus reviewer reason now).run db).1
      ((reviewSelfObservation id expectedRevision newStatus reviewer reason now).run db).2 := by
  apply Tx.run_of_wp
  have hrejects : Rejects (fun _ => True)
      (fun r s => ReviewOutcome id expectedRevision newStatus now db r s.committed) db := by
    rintro e s - rfl
    exact .rejected e
  unfold reviewSelfObservation getSelfObservation
  refine wp_query ?_
  cases ho : db.observations.get? id with
  | none => exact wp_pure (.conflict none)
  | some o =>
    refine wp_ite (fun _ => wp_pure (.conflict _)) fun hrevision => ?_
    rw [not_not] at hrevision
    refine wp_updateStatus ho (by simpa using hrevision) rfl fun observations hfirst => ?_
    refine wp_bind (wp_insertReview hrejects fun reviews => ?_)
    have hdone : ∀ u, u.lineages = db.lineages →
        Reviewed db.observations u.observations o (o.move newStatus now) →
        wp (Tx.commit >>= fun _ => pure (RevisionedWrite.applied (o.move newStatus now)))
          (fun r s => ReviewOutcome id expectedRevision newStatus now db r s.committed) ⟨db, u⟩ :=
      fun u hlineages hreviewed => wp_commit (wp_pure (.applied ho hrevision hlineages hreviewed))
    refine wp_ite (fun hpromoted => ?_) fun hretired => hdone _ rfl (.alone (fun h => ?_) hfirst)
    · cases hnames : o.supersedesObservationId with
      | none =>
        rw [show (o.move newStatus now).supersedesObservationId = none from hnames]
        exact hdone _ rfl (.alone (fun _ => hnames) hfirst)
      | some supersededId =>
        rw [show (o.move newStatus now).supersedesObservationId = some supersededId from hnames]
        refine wp_bind (wp_supersede hrejects fun x u reviews hx hlineage hstatus hsecond => ?_)
        refine hdone _ rfl (.superseding x now observations hpromoted ?_ ?_ hlineage hstatus hfirst
          hsecond)
        · rw [hnames, Table.get?_key hx]
        · rw [Table.get?_key hx]
          exact hx
    · exact absurd h hretired

end AgentPalace.SelfModel
