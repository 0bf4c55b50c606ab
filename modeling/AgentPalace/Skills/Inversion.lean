import AgentPalace.Skills.Outcome

/-!
# A call to the registry does what its outcome says

One theorem per operation, each following the body from its first check to its
commit; `Request.outcome` puts them together.
-/

namespace AgentPalace.Skills

open Tx

section
variable {α : Type} {Q : Except StorageError α → Session SkillDb → Prop} {db w : SkillDb}

theorem key_of_get? {skills : Table SkillRow.key} {id : String} {version : Int} {r : SkillRow}
    (h : skills.get? (id, version) = some r) : r.skillId = id ∧ r.version = version := by
  have hkey := Table.get?_key h
  exact ⟨congrArg Prod.fst hkey, congrArg Prod.snd hkey⟩

theorem wp_getSkill {id : String} {version : Int} {f : Option SkillRow → STx α}
    (hnone : wp (f none) Q ⟨db, w⟩)
    (hsome : ∀ r, w.skills.get? (id, version) = some r → wp (f (some r)) Q ⟨db, w⟩) :
    wp (getSkill id version >>= f) Q ⟨db, w⟩ := by
  unfold getSkill
  refine wp_query ?_
  cases hr : w.skills.get? (id, version) with
  | none => exact hnone
  | some r => exact hsome r hr

theorem wp_finish {id message : String} {version : Int} {r : SkillRow} {g : Skill → β}
    {Q : Except StorageError β → Session SkillDb → Prop}
    (hr : w.skills.get? (id, version) = some r) (h : Q (.ok (g r.toSkill)) ⟨w, w⟩) :
    wp (getSkill id version >>= fun skill => lift (okOr skill message) >>= fun skill =>
      commit >>= fun _ => pure (g skill.toSkill)) Q ⟨db, w⟩ := by
  unfold getSkill
  refine wp_query ?_
  rw [hr]
  exact wp_lift_ok (wp_commit (wp_pure h))

theorem wp_updateStatus {r : SkillRow} {guard : SkillRow → Bool} {status : SkillStatus}
    {revision : Int} {ts : Timestamp} {k : Nat → STx α}
    (hr : w.skills.get? r.key = some r) (hguard : guard r = true) (hrev : revision = r.revision + 1)
    (h : ∀ skills, Replaced (r.move status ts) w.skills skills →
      wp (k 1) Q ⟨db, { w with skills := skills }⟩) :
    wp (updateStatus r.skillId r.version guard status revision ts >>= k) Q ⟨db, w⟩ := by
  have hkey := SkillRow.key_setStatus guard status revision ts
  have hmove : r.setStatus guard status revision ts = r.move status ts := by
    unfold SkillRow.setStatus
    rw [if_pos hguard, hrev]
    rfl
  have hcount : ((w.skills.get? (r.skillId, r.version)).filter guard).toList.length = 1 := by
    rw [hr, Option.filter_some_pos hguard]
    rfl
  unfold updateStatus
  refine wp_assoc (wp_query ?_)
  rw [hcount]
  refine wp_assoc (wp_write ?_)
  refine h _ ?_
  have hrows := Table.rows_modify w.skills (·.setStatus guard status revision ts) hkey hr
  rw [hmove] at hrows
  exact hrows

theorem wp_insertReview {host : Host} {uuid id reviewer reason : String} {version : Int}
    {fromStatus toStatus : SkillStatus} {f : Unit → STx α}
    (hQ : Rejects (fun _ => True) Q db)
    (h : ∀ reviews : Table SkillReview.reviewId, (∃ review : SkillReview,
      reviews.rows = w.reviews.rows ++ [review] ∧ review.skillId = id ∧ review.version = version ∧
      review.fromStatus = fromStatus ∧ review.toStatus = toStatus) →
      wp (f ()) Q ⟨db, { w with reviews := reviews }⟩) :
    wp (insertReview host uuid id version fromStatus toStatus reviewer reason >>= f) Q ⟨db, w⟩ := by
  unfold insertReview
  refine wp_assoc (wp_lift hQ fun ts _ => ?_)
  exact wp_sql hQ fun reviews hinsert =>
    h reviews ⟨_, (Table.rows_insert? hinsert).1, rfl, rfl, rfl, rfl⟩

theorem findPromotedVersion_readOnly (id : String) :
    ReadOnly (findPromotedVersion id) fun db superseded => Promoted db id superseded := by
  intro s
  have hmem : ∀ r, r ∈ orderBy (·.version)
      ((s.working.versionsOf id).filter (·.status = .promoted)) ↔
      r ∈ s.working.versionsOf id ∧ r.status = .promoted := fun r => by simp
  simp only [findPromotedVersion, bind, query]
  generalize orderBy (·.version) ((s.working.versionsOf id).filter (·.status = .promoted)) =
    promoted at hmem
  match promoted with
  | [] =>
    refine ⟨rfl, fun b hb => ?_⟩
    cases hb
    intro r hr hstatus
    exact List.not_mem_nil ((hmem r).2 ⟨hr, hstatus⟩)
  | [prior] =>
    refine ⟨rfl, fun b hb => ?_⟩
    cases hb
    obtain ⟨hprior, hstatus⟩ := (hmem prior).1 List.mem_cons_self
    exact ⟨hprior, hstatus, fun r hr hr' => List.mem_singleton.1 ((hmem r).2 ⟨hr, hr'⟩)⟩
  | a :: b :: rest =>
    refine ⟨rfl, fun b hb => ?_⟩
    cases hb

end

theorem rejects_outcome {α : Type} (db : SkillDb) (call : Call) (g : α → Reply) :
    Rejects (fun _ => True) (fun r s => Outcome db call (r.map g) s.committed) db := by
  intro e s _ hs
  rw [hs]
  exact .rejected

variable (host : Host) (db : SkillDb)

/-! ## Proposals and outcomes -/

theorem checkWing_readOnly (id : String) (wing : Option String) (version : Int) :
    ReadOnly (checkWing id wing version) fun db _ =>
      ∀ prior, db.skills.get? (id, version) = some prior → prior.wing = wing := by
  rintro ⟨db, w⟩
  show wp _ (fun r s' => s' = ⟨db, w⟩ ∧ ∀ b, r = .ok b →
    ∀ prior, w.skills.get? (id, version) = some prior → prior.wing = wing) ⟨db, w⟩
  unfold checkWing requireSkill getSkill
  refine wp_assoc (wp_query ?_)
  cases hprior : w.skills.get? (id, version) with
  | none => exact ⟨rfl, fun _ _ prior h => by cases h⟩
  | some prior =>
    refine wp_lift_ok (wp_ite (fun _ => ⟨rfl, fun _ h => by cases h⟩) fun hwing => ?_)
    exact ⟨rfl, fun _ _ prior' h => Option.some.inj h ▸ not_not.1 hwing⟩

theorem proposeSkill_outcome (input : NewSkill) :
    wp (proposeSkill host input) (fun r s =>
      Outcome db (.proposeSkill input) (r.map .skill) s.committed) ⟨db, db⟩ := by
  have hQ := rejects_outcome db (.proposeSkill input) Reply.skill
  unfold proposeSkill
  refine wp_lift hQ fun _ _ => ?_
  refine wp_lift hQ fun _ _ => ?_
  refine wp_lift hQ fun _ _ => ?_
  refine wp_lift hQ fun _ _ => ?_
  refine wp_guard hQ fun _ => ?_
  refine wp_lift hQ fun wing _ => ?_
  refine wp_query ?_
  cases db.skills.rows.find? fun r => r.author = input.author ∧
      r.idempotencyKey = input.idempotencyKey with
  | some skill => exact wp_commit (wp_pure (.replayed fun _ h => by cases h))
  | none =>
    refine wp_query ?_
    refine wp_read (readOnly_optionForM (checkWing_readOnly input.skillId wing)) hQ
      fun _ hwing => ?_
    refine wp_lift hQ fun ts _ => ?_
    refine wp_sql hQ fun skills hinsert => ?_
    obtain ⟨row, hrow, hskills, hfresh, hget⟩ := Table.appended
      (input.row wing (maxVersion db input.skillId) ts) (Table.rows_insert? hinsert)
    have hkey : (input.skillId, (maxVersion db input.skillId).getD 0 + 1) = row.key := by
      rw [hrow]
      rfl
    unfold getSkill
    refine wp_query ?_
    rw [hkey, hget]
    refine wp_lift_ok (wp_commit (wp_pure ?_))
    exact .proposed rfl hrow (fun m prior hm hprior => hwing m hm prior hprior) hskills hfresh

theorem recordOutcome_outcome (input : NewSkillOutcome) :
    wp (recordOutcome host input) (fun r s =>
      Outcome db (.recordOutcome input) (r.map .outcome) s.committed) ⟨db, db⟩ := by
  have hQ := rejects_outcome db (.recordOutcome input) Reply.outcome
  unfold recordOutcome
  refine wp_lift hQ fun _ _ => ?_
  refine wp_lift hQ fun _ _ => ?_
  refine wp_lift hQ fun _ _ => ?_
  refine wp_query ?_
  cases db.outcomes.rows.find? fun r => r.recordedBy = input.recordedBy ∧
      r.idempotencyKey = input.idempotencyKey with
  | some outcome => exact wp_commit (wp_pure (.replayed fun _ h => by cases h))
  | none =>
    unfold requireSkill
    refine wp_assoc (wp_getSkill ?_ ?_)
    · exact wp_lift hQ fun _ h => by cases h
    · intro r _
      refine wp_lift_ok (wp_lift hQ fun ts _ => ?_)
      refine wp_sql hQ fun outcomes hinsert => ?_
      obtain ⟨row, hrow, houtcomes, -, hget⟩ :=
        Table.appended (input.row host ts) (Table.rows_insert? hinsert)
      have hkey : "skill_outcome_" ++ host.uuid = row.key := by rw [hrow]; rfl
      refine wp_query ?_
      rw [hkey, hget]
      exact wp_lift_ok (wp_commit (wp_pure (.recorded rfl houtcomes)))

/-! ## Promotion and retirement -/

theorem wp_supersede {α : Type} {Q : Except StorageError α → Session SkillDb → Prop} {w : SkillDb}
    {superseded : Option SkillRow} {reviewer : String} {version : Int} {f : Unit → STx α}
    (hQ : Rejects (fun _ => True) Q db)
    (hprior : ∀ prior, superseded = some prior →
      w.skills.get? prior.key = some prior ∧ prior.status = .promoted)
    (h : ∀ w', Supersedes superseded w w' → wp (f ()) Q ⟨db, w'⟩) :
    wp (superseded.forM (fun prior => supersedePromoted host prior reviewer version) >>= f) Q
      ⟨db, w⟩ := by
  cases superseded with
  | none => exact h w rfl
  | some prior =>
    obtain ⟨hrow, hstatus⟩ := hprior prior rfl
    show wp (supersedePromoted host prior reviewer version >>= f) Q ⟨db, w⟩
    unfold supersedePromoted
    refine wp_assoc (wp_lift hQ fun ts _ => ?_)
    refine wp_assoc (wp_updateStatus hrow (by simp [hstatus]) rfl fun skills hskills => ?_)
    show wp (insertReview _ _ _ _ _ _ _ _ >>= f) Q _
    refine wp_insertReview hQ fun reviews hreviews => ?_
    exact h _ ⟨ts, hrow, hskills, hstatus ▸ hreviews, rfl⟩

theorem promoteSkill_outcome (id : String) (version expectedRevision : Int)
    (reviewer reason : String) :
    wp (promoteSkill host id version expectedRevision reviewer reason) (fun r s =>
      Outcome db (.promoteSkill id version expectedRevision reviewer reason) (r.map .write)
        s.committed) ⟨db, db⟩ := by
  have hQ := rejects_outcome db (.promoteSkill id version expectedRevision reviewer reason)
    Reply.write
  unfold promoteSkill
  refine wp_lift hQ fun _ _ => ?_
  refine wp_getSkill .conflict fun current hcurrent => ?_
  obtain ⟨rfl, rfl⟩ := key_of_get? hcurrent
  refine wp_ite (fun _ => .conflict) fun hrev => ?_
  obtain rfl : current.revision = expectedRevision := not_not.1 hrev
  refine wp_guard hQ fun hterminal => ?_
  refine wp_guard hQ fun hpromoted => ?_
  refine wp_read (findPromotedVersion_readOnly current.skillId) hQ fun superseded hsuperseded => ?_
  refine wp_query ?_
  refine wp_lift hQ fun _ hgoverns => ?_
  refine wp_lift hQ fun ts _ => ?_
  refine wp_updateStatus hcurrent (by simp) rfl fun skills hskills => ?_
  refine wp_ite (fun hone => absurd rfl hone) fun _ => ?_
  refine wp_insertReview hQ fun reviews hreviews => ?_
  have hstatus : current.status = .candidate := by
    cases h : current.status <;> simp [h, SkillStatus.terminal] at hterminal hpromoted ⊢
  have hmove : Transition db current .promoted ts { db with skills, reviews } :=
    ⟨hcurrent, hskills, hreviews, rfl⟩
  have hdisplaced : ∀ prior, superseded = some prior →
      db.skills.get? prior.key = some prior ∧ prior.status = .promoted ∧
        prior.key ≠ current.key := by
    rintro prior rfl
    obtain ⟨hprior, hpriorStatus, _⟩ := hsuperseded
    have hrow : db.skills.get? prior.key = some prior :=
      Table.get?_of_mem (List.mem_filter.1 hprior).1
    refine ⟨hrow, hpriorStatus, fun hkey => ?_⟩
    have hcur : db.skills.get? current.key = some current := hcurrent
    rw [hkey, hcur] at hrow
    rw [← Option.some.inj hrow, hstatus] at hpriorStatus
    cases hpriorStatus
  refine wp_supersede host db hQ (fun prior hprior => ?_) fun w' hw' => ?_
  · obtain ⟨hrow, hpriorStatus, hne⟩ := hdisplaced prior hprior
    exact ⟨(hmove.get? prior.key).trans ((if_neg hne).trans hrow), hpriorStatus⟩
  · have hget : w'.skills.get? current.key = some (current.move .promoted ts) := by
      rw [hw'.get? fun prior hprior => (hdisplaced prior hprior).2.2.symm]
      exact (hmove.get? current.key).trans (if_pos rfl)
    refine wp_finish (g := RevisionedWrite.applied) hget ?_
    exact .promoted rfl hstatus hsuperseded hgoverns hmove hw'

theorem retireSkill_outcome (id : String) (version expectedRevision : Int)
    (reviewer reason : String) :
    wp (retireSkill host id version expectedRevision reviewer reason) (fun r s =>
      Outcome db (.retireSkill id version expectedRevision reviewer reason) (r.map .write)
        s.committed) ⟨db, db⟩ := by
  have hQ := rejects_outcome db (.retireSkill id version expectedRevision reviewer reason)
    Reply.write
  unfold retireSkill
  refine wp_lift hQ fun _ _ => ?_
  refine wp_getSkill .conflict fun current hcurrent => ?_
  obtain ⟨rfl, rfl⟩ := key_of_get? hcurrent
  refine wp_ite (fun _ => .conflict) fun hrev => ?_
  obtain rfl : current.revision = expectedRevision := not_not.1 hrev
  refine wp_guard hQ fun hterminal => ?_
  refine wp_lift hQ fun ts _ => ?_
  refine wp_updateStatus hcurrent (by simp) rfl fun skills hskills => ?_
  refine wp_ite (fun hone => absurd rfl hone) fun _ => ?_
  refine wp_insertReview hQ fun reviews hreviews => ?_
  have hget : skills.get? (current.skillId, current.version) = some (current.move .retired ts) :=
    (hskills.get? hcurrent _).trans (if_pos rfl)
  refine wp_finish (g := RevisionedWrite.applied) hget ?_
  exact .retired rfl (by simpa using hterminal) ⟨hcurrent, hskills, hreviews, rfl⟩

/-! ## Every call -/

theorem Request.outcome (r : Request) (db : SkillDb) :
    Outcome db r.call (r.execute db).1 (r.execute db).2 := by
  obtain ⟨host, call⟩ := r
  refine run_of_wp ?_
  cases call with
  | proposeSkill input => exact wp_map (proposeSkill_outcome host db input)
  | recordOutcome input => exact wp_map (recordOutcome_outcome host db input)
  | promoteSkill id version rev reviewer reason =>
    exact wp_map (promoteSkill_outcome host db id version rev reviewer reason)
  | retireSkill id version rev reviewer reason =>
    exact wp_map (retireSkill_outcome host db id version rev reviewer reason)

theorem step_outcome {w w' : State} {l : Label} (h : system.Step w l w') :
    Outcome w.db l.call.call l.answer w'.db := by
  have ho := l.call.outcome w.db
  have he : l.call.execute w.db = (l.answer, w'.db) := h.2.1
  rw [he] at ho
  exact ho

end AgentPalace.Skills
