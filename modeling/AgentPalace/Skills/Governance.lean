import AgentPalace.Skills.Registry

/-!
# Governance of promotions

A promotion is governed by the stricter of the scopes of the version it promotes
and of the one it displaces. A version that was retired before is not displaced:
after a shared version was retired, its successor may be of agent scope, and its
author may promote it alone. That is the only way past shared review
(`governed_iff`).
-/

namespace AgentPalace.Skills

open Machine

/-! ## Authority along a run -/

def isApplied : Answer → Bool
  | .ok (.write (.applied _)) => true
  | _ => false

def promotionOf (l : Label) (id : String) : Option Int :=
  match l.call.call with
  | .promoteSkill id' version _ _ _ => if id' = id ∧ isApplied l.answer then some version else none
  | _ => none

/-- The version of a skill that was authoritative last. -/
def lastAuthoritative (ls : List Label) (id : String) : Option Int :=
  ls.foldl (fun last l => (promotionOf l id).or last) none

theorem lastAuthoritative_append (ls : List Label) (l : Label) (id : String) :
    lastAuthoritative (ls ++ [l]) id = (promotionOf l id).or (lastAuthoritative ls id) := by
  simp [lastAuthoritative, List.foldl_append]

structure Promotes (l : Label) (id : String) (version : Int) (reviewer : String) : Prop where
  call : ∃ rev reason, l.call.call = .promoteSkill id version rev reviewer reason
  applied : isApplied l.answer = true

/-- The version that was authoritative last has a shared scope. -/
def SharedBefore (ls : List Label) (db : SkillDb) (id : String) : Prop :=
  ∃ u prior, lastAuthoritative ls id = some u ∧ db.skills.get? (id, u) = some prior ∧
    prior.scope.requiresDistinctReview = true

/-- After a shared version, a promotion has another reviewer than the author, and an
outcome to show. -/
def Governed (ls : List Label) (db : SkillDb) (id : String) (version : Int) (reviewer : String) :
    Prop :=
  SharedBefore ls db id →
    (∀ row, db.skills.get? (id, version) = some row → reviewer ≠ row.author) ∧
    ∃ o ∈ db.outcomes.rows, o.skillId = id ∧ o.version = version

/-- A version of agent scope follows a shared one that is no longer promoted. -/
structure Escapes (ls : List Label) (db : SkillDb) (id : String) (version : Int) : Prop where
  shared : SharedBefore ls db id
  vacant : ∀ r ∈ db.versionsOf id, r.status ≠ .promoted
  own : ∃ row, db.skills.get? (id, version) = some row ∧ row.scope = .agent

/-! ## The promoted version is the one that was authoritative last -/

def Tracked (ls : List Label) (db : SkillDb) : Prop :=
  ∀ r ∈ db.skills.rows, r.status = .promoted → lastAuthoritative ls r.skillId = some r.version

theorem Outcome.promotes {db db' : SkillDb} {l : Label} {id reviewer : String} {version : Int}
    (h : Outcome db l.call.call l.answer db') (hl : Promotes l id version reviewer) :
    ∃ current superseded ts db₁, current.skillId = id ∧ current.version = version ∧
      current.status = .candidate ∧ Promoted db id superseded ∧
      governs (governingScope superseded current) current reviewer
        (db.outcomes.rows.any fun o => o.skillId = id && o.version = version) = .ok () ∧
      Transition db current .promoted ts db₁ ∧ Supersedes superseded db₁ db' := by
  obtain ⟨⟨rev, reason, hcall⟩, happlied⟩ := hl
  generalize l.call.call = call at h hcall
  generalize l.answer = answer at h happlied
  cases h with
  | rejected => cases happlied
  | conflict => cases happlied
  | @replayed reply hreply =>
    cases reply with
    | write w => exact absurd rfl (hreply w)
    | skill => cases happlied
    | outcome => cases happlied
  | proposed => cases happlied
  | recorded => cases happlied
  | @promoted current superseded reviewer' _ ts db₁ _ hpromote hstatus hsuperseded hgoverns hmove
      hprior =>
    rw [hpromote] at hcall
    cases hcall
    exact ⟨current, superseded, ts, db₁, rfl, rfl, hstatus, hsuperseded, hgoverns, hmove, hprior⟩
  | retired hretire =>
    rw [hretire] at hcall
    cases hcall

theorem promotionOf_not_applied {l : Label} (h : isApplied l.answer = false) (id : String) :
    promotionOf l id = none := by
  unfold promotionOf
  rw [h]
  split <;> simp

theorem Tracked.append {ls : List Label} {l : Label} {db db' : SkillDb} (ht : Tracked ls db)
    (hnone : ∀ id, promotionOf l id = none)
    (hrows : ∀ r ∈ db'.skills.rows, r.status = .promoted → r ∈ db.skills.rows) :
    Tracked (ls ++ [l]) db' := by
  intro r hr hpromoted
  rw [lastAuthoritative_append, hnone, Option.none_or]
  exact ht r (hrows r hr hpromoted) hpromoted

theorem Outcome.tracked {ls : List Label} {l : Label} {db db' : SkillDb}
    (h : Outcome db l.call.call l.answer db') (ht : Tracked ls db) : Tracked (ls ++ [l]) db' := by
  obtain ⟨⟨host, call⟩, answer⟩ := l
  simp only at h
  cases h with
  | rejected => exact ht.append (promotionOf_not_applied rfl) fun r hr _ => hr
  | conflict => exact ht.append (promotionOf_not_applied rfl) fun r hr _ => hr
  | @replayed reply hreply =>
    refine ht.append (promotionOf_not_applied ?_) fun r hr _ => hr
    cases reply with
    | write w => exact absurd rfl (hreply w)
    | skill => rfl
    | outcome => rfl
  | proposed _ hrow _ hskills =>
    refine ht.append (promotionOf_not_applied rfl) fun r hr hpromoted => ?_
    replace hr : r ∈ _ := hr
    rw [hskills, List.mem_append, List.mem_singleton] at hr
    rcases hr with hr | rfl
    · exact hr
    · rw [hrow] at hpromoted
      cases hpromoted
  | recorded => exact ht.append (promotionOf_not_applied rfl) fun r hr _ => hr
  | @promoted current superseded reviewer reason ts db₁ _ hcall _ hsuperseded _ hmove hprior =>
    subst hcall
    intro r hr hpromoted
    rw [lastAuthoritative_append]
    rcases promoted_after hsuperseded hmove hprior hr hpromoted with rfl | ⟨hr, hid⟩
    · simp [promotionOf, isApplied, SkillRow.move]
    · have hnone : promotionOf ⟨⟨host, .promoteSkill current.skillId current.version
          current.revision reviewer reason⟩, .ok (.write (.applied
            (current.move .promoted ts).toSkill))⟩ r.skillId = none := by
        simp [promotionOf, Ne.symm hid]
      rw [hnone, Option.none_or]
      exact ht r hr hpromoted
  | @retired current _ _ ts _ hcall _ hmove =>
    subst hcall
    refine ht.append (fun id => rfl) fun r hr hpromoted => ?_
    rcases hmove.mem.1 hr with rfl | ⟨hr, _⟩
    · cases hpromoted
    · exact hr

theorem run_tracked {w₀ w : State} {ls : List Label} (hinit : system.Init w₀)
    (hrun : Run system w₀ ls w) : Tracked ls w.db := by
  refine hrun.traced (I := fun ls w => Tracked ls w.db) ?_ fun ks x l y _ ht hs =>
    (step_outcome hs).tracked ht
  rw [show w₀.db = .empty from hinit]
  intro r hr
  cases hr

/-! ## Who may promote -/

theorem governs_shared {scope : SkillScope} {current : SkillRow} {reviewer : String}
    {hasValidation : Bool} (h : governs scope current reviewer hasValidation = .ok ())
    (hscope : scope.requiresDistinctReview = true) :
    reviewer ≠ current.author ∧ hasValidation = true := by
  unfold governs at h
  rw [if_pos hscope] at h
  split at h
  · cases h
  · rename_i hauthor
    split at h
    · cases h
    · rename_i hvalidation
      exact ⟨hauthor, by simpa using hvalidation⟩

theorem governs_agent {scope : SkillScope} {current : SkillRow} {reviewer : String}
    {hasValidation : Bool} (h : governs scope current reviewer hasValidation = .ok ())
    (hscope : scope.requiresDistinctReview = false) : reviewer = current.author := by
  unfold governs at h
  rw [if_neg (by rw [hscope]; exact Bool.false_ne_true)] at h
  split at h
  · cases h
  · rename_i hauthor
    exact not_not.1 hauthor

theorem scope_agent {scope : SkillScope} (h : scope.requiresDistinctReview = false) :
    scope = .agent := by
  cases scope <;> first | rfl | cases h

theorem governed_iff {ls : List Label} {db db' : SkillDb} {l : Label} {id reviewer : String}
    {version : Int} (ht : Tracked ls db) (h : Outcome db l.call.call l.answer db')
    (hl : Promotes l id version reviewer) :
    Governed ls db id version reviewer ↔ ¬ Escapes ls db id version := by
  obtain ⟨current, superseded, ts, db₁, rfl, rfl, _, hsuperseded, hgoverns, hmove, _⟩ :=
    h.promotes hl
  have hreviewed : ∀ scope, governs scope current reviewer (db.outcomes.rows.any fun o =>
      o.skillId = current.skillId && o.version = current.version) = .ok () →
      scope.requiresDistinctReview = true →
      Governed ls db current.skillId current.version reviewer := by
    intro scope hok hshared _
    obtain ⟨hauthor, hvalidation⟩ := governs_shared hok hshared
    obtain ⟨o, ho, hkey⟩ := List.any_eq_true.1 hvalidation
    simp only [Bool.and_eq_true, decide_eq_true_eq] at hkey
    refine ⟨fun row hrow => ?_, o, ho, hkey⟩
    rwa [Option.some.inj (hrow.symm.trans hmove.stored)]
  cases superseded with
  | none =>
    have hgoverns : governs current.scope current reviewer _ = .ok () := hgoverns
    cases hshared : current.scope.requiresDistinctReview with
    | true =>
      refine ⟨fun _ hescapes => ?_, fun _ => hreviewed _ hgoverns hshared⟩
      obtain ⟨row, hrow, hown⟩ := hescapes.own
      rw [Option.some.inj (hrow.symm.trans hmove.stored)] at hown
      rw [hown] at hshared
      cases hshared
    | false =>
      have hauthor := governs_agent hgoverns hshared
      constructor
      · intro hgoverned hescapes
        exact (hgoverned hescapes.shared).1 current hmove.stored hauthor
      · intro hescapes hbefore
        exact absurd ⟨hbefore, hsuperseded, current, hmove.stored, scope_agent hshared⟩ hescapes
  | some prior =>
    obtain ⟨hprior, hstatus, _⟩ := hsuperseded
    have hnot : ¬ Escapes ls db current.skillId current.version := fun hescapes =>
      hescapes.vacant prior hprior hstatus
    refine iff_of_true (fun hbefore => ?_) hnot
    obtain ⟨hmem, hid⟩ := mem_versionsOf.1 hprior
    have hlast := ht prior hmem hstatus
    obtain ⟨u, row, hu, hrow, hshared⟩ := hbefore
    have hrowPrior : row = prior := by
      rw [← hid, hlast] at hu
      cases hu
      rw [← hid] at hrow
      exact Option.some.inj (hrow.symm.trans (Table.get?_of_mem hmem))
    rw [hrowPrior] at hshared
    have hscope : governingScope (some prior) current = prior.scope := if_pos hshared
    rw [hscope] at hgoverns
    exact hreviewed _ hgoverns hshared ⟨u, row, hu, hrow, by rw [hrowPrior]; exact hshared⟩

/-- A promotion along a run: what came before it, and the state it found. -/
def PromotionIn (w₀ : State) (ls pre : List Label) (x : State) (id : String) (version : Int)
    (reviewer : String) : Prop :=
  ∃ l post y, ls = pre ++ l :: post ∧ Run system w₀ pre x ∧ system.Step x l y ∧
    Promotes l id version reviewer

/-- **Governance**: the promotions of a run are all governed just when none of them
escapes, and so it is with the next one. -/
theorem skill_governance {w₀ w : State} {ls : List Label} (hinit : system.Init w₀)
    (hrun : Run system w₀ ls w) :
    ((∀ pre x id version reviewer, PromotionIn w₀ ls pre x id version reviewer →
        ¬ Escapes pre x.db id version) ↔
      ∀ pre x id version reviewer, PromotionIn w₀ ls pre x id version reviewer →
        Governed pre x.db id version reviewer) ∧
    ∀ l y id version reviewer, system.Step w l y → Promotes l id version reviewer →
      (Governed ls w.db id version reviewer ↔ ¬ Escapes ls w.db id version) := by
  have hiff : ∀ {pre x l y id version reviewer}, Run system w₀ pre x → system.Step x l y →
      Promotes l id version reviewer →
      (Governed pre x.db id version reviewer ↔ ¬ Escapes pre x.db id version) :=
    fun hpre hs hl => governed_iff (run_tracked hinit hpre) (step_outcome hs) hl
  refine ⟨⟨?_, ?_⟩, fun l y id version reviewer hs hl => hiff hrun hs hl⟩
  · rintro h pre x id version reviewer ⟨l, post, y, hls, hpre, hs, hl⟩
    exact (hiff hpre hs hl).2 (h pre x id version reviewer ⟨l, post, y, hls, hpre, hs, hl⟩)
  · rintro h pre x id version reviewer ⟨l, post, y, hls, hpre, hs, hl⟩
    exact (hiff hpre hs hl).1 (h pre x id version reviewer ⟨l, post, y, hls, hpre, hs, hl⟩)

/-- The second version displaces the first, and is governed by its scope. -/
theorem skill_governance_sample :
    Governed (played sampleSuccessor).1 (played sampleSuccessor).2.db "deploy" 2 "bob" := by
  have hpromotes : Promotes (labelOf sampleSuccessor
      ⟨sampleHost "6", .promoteSkill "deploy" 2 0 "bob" ""⟩) "deploy" 2 "bob" :=
    ⟨⟨0, "", rfl⟩, by decide⟩
  refine ((skill_governance init_empty (run_played sampleSuccessor)).2 _ _ _ _ _
    (step_played sampleSuccessor _) hpromotes).2 fun hescapes => ?_
  have hpromoted : ∃ r ∈ (played sampleSuccessor).2.db.versionsOf "deploy",
      r.status = .promoted := by decide
  obtain ⟨r, hr, hstatus⟩ := hpromoted
  exact hescapes.vacant r hr hstatus

/-- The author retires the shared version and proposes an agent-scoped one. -/
def sampleEscape : List Request :=
  samplePromotion ++ [⟨sampleHost "4", .retireSkill "deploy" 1 1 "ada" ""⟩,
    ⟨sampleHost "5", .proposeSkill (sampleSkill .agent "k2")⟩]

def selfPromotion : Request := ⟨sampleHost "6", .promoteSkill "deploy" 2 0 "ada" ""⟩

/-- Shared review can be bypassed. -/
theorem governance_bypassed : ¬ ∀ w₀ ls w l y id version reviewer, system.Init w₀ →
    Run system w₀ ls w → system.Step w l y → Promotes l id version reviewer →
    Governed ls w.db id version reviewer := by
  intro h
  have hgoverned := h _ _ _ _ _ "deploy" 2 "ada" init_empty (run_played sampleEscape)
    (step_played sampleEscape selfPromotion) ⟨⟨0, "", rfl⟩, by decide⟩
  have hlast : lastAuthoritative (played sampleEscape).1 "deploy" = some 1 := by decide
  have hfirst : ((played sampleEscape).2.db.skills.get? ("deploy", 1)).map (·.scope) =
      some .organization := by decide
  have hsecond : ((played sampleEscape).2.db.skills.get? ("deploy", 2)).map (·.author) =
      some "ada" := by decide
  obtain ⟨prior, hprior, hscope⟩ := Option.map_eq_some_iff.1 hfirst
  obtain ⟨row, hrow, hauthor⟩ := Option.map_eq_some_iff.1 hsecond
  exact (hgoverned ⟨1, prior, hlast, hprior, by rw [hscope]; rfl⟩).1 row hrow hauthor.symm

end AgentPalace.Skills
