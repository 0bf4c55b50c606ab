import AgentPalace.Lib.History
import AgentPalace.Skills.Inversion

/-!
# The registry is coherent

In every reachable registry a skill has versions 1 to n in one wing, at most one
of them promoted, and the reviews of a version lead from `candidate` to its
status, one for each revision. Superseded and retired versions are final.
-/

namespace AgentPalace.Skills

open Machine

/-! ## What a transition leaves -/

section
variable {db db' : SkillDb} {row : SkillRow} {status : SkillStatus} {ts : Timestamp}

theorem mem_skills {db : SkillDb} {r : SkillRow} :
    r ∈ db.skills.rows ↔ db.skills.get? r.key = some r :=
  ⟨Table.get?_of_mem, Table.mem_of_get?⟩

theorem mem_versionsOf {db : SkillDb} {id : String} {r : SkillRow} :
    r ∈ db.versionsOf id ↔ r ∈ db.skills.rows ∧ r.skillId = id := by
  simp [SkillDb.versionsOf]

theorem Transition.mem (h : Transition db row status ts db') {r : SkillRow} :
    r ∈ db'.skills.rows ↔ r = row.move status ts ∨ r ∈ db.skills.rows ∧ r.key ≠ row.key := by
  rw [mem_skills, h.get?]
  by_cases hkey : r.key = row.key
  · rw [if_pos hkey]
    constructor
    · intro hr
      exact .inl (Option.some.inj hr).symm
    · rintro (rfl | ⟨_, hne⟩)
      · rfl
      · exact absurd hkey hne
  · rw [if_neg hkey, ← mem_skills]
    constructor
    · intro hr
      exact .inr ⟨hr, hkey⟩
    · rintro (rfl | ⟨hr, _⟩)
      · exact absurd rfl hkey
      · exact hr

theorem Transition.versionsOf (h : Transition db row status ts db') (id : String) :
    (db'.versionsOf id).map (·.version) = (db.versionsOf id).map (·.version) := by
  have hid : ∀ x : SkillRow, (if x.key = row.key then row.move status ts else x).key = x.key := by
    intro x
    split
    · rename_i hkey
      exact hkey.symm
    · rfl
  have hskill : ∀ x : SkillRow,
      (if x.key = row.key then row.move status ts else x).skillId = x.skillId := fun x =>
    congrArg Prod.fst (hid x)
  have hversion : ∀ x : SkillRow,
      (if x.key = row.key then row.move status ts else x).version = x.version := fun x =>
    congrArg Prod.snd (hid x)
  have hrows := h.skills
  unfold Replaced at hrows
  unfold SkillDb.versionsOf
  rw [hrows, List.filter_map, List.map_map]
  have hfilter : ((fun x : SkillRow => decide (x.skillId = id)) ∘
      fun x => if x.key = (row.move status ts).key then row.move status ts else x) =
      fun x : SkillRow => decide (x.skillId = id) := by
    funext x
    show decide ((if x.key = row.key then row.move status ts else x).skillId = id) = _
    rw [hskill]
  rw [hfilter]
  exact List.map_congr_left fun x _ => hversion x

end

/-! ## Coherence -/

/-- The reviews of a version lead to its status, one for each revision. -/
structure Reviewed (db : SkillDb) (r : SkillRow) : Prop where
  trail : Trail (·.fromStatus) (·.toStatus) .candidate (db.reviewsOf r.skillId r.version) r.status
  revision : ((db.reviewsOf r.skillId r.version).length : Int) = r.revision

/-- What holds of the versions of a skill and their reviews. -/
structure Documented (db : SkillDb) : Prop where
  wing : ∀ a ∈ db.skills.rows, ∀ b ∈ db.skills.rows, a.skillId = b.skillId → a.wing = b.wing
  versions : ∀ id, (db.versionsOf id).map (·.version) =
    (List.range (db.versionsOf id).length).map fun k : Nat => (k : Int) + 1
  reviewed : ∀ r ∈ db.skills.rows, Reviewed db r
  reviews : ∀ v ∈ db.reviews.rows, ∃ r ∈ db.skills.rows, r.key = (v.skillId, v.version)

def OnePromoted (db : SkillDb) : Prop :=
  ∀ a ∈ db.skills.rows, ∀ b ∈ db.skills.rows, a.skillId = b.skillId → a.status = .promoted →
    b.status = .promoted → a = b

structure Coherent (db : SkillDb) : Prop extends Documented db where
  promoted : OnePromoted db

section
variable {db db' : SkillDb} {row : SkillRow} {status : SkillStatus} {ts : Timestamp}

theorem Transition.origin (h : Transition db row status ts db') {r : SkillRow}
    (hr : r ∈ db'.skills.rows) : ∃ r₀ ∈ db.skills.rows, r₀.key = r.key ∧ r₀.wing = r.wing := by
  rcases h.mem.1 hr with rfl | ⟨hr, _⟩
  · exact ⟨row, Table.mem_of_get? h.stored, rfl, rfl⟩
  · exact ⟨r, hr, rfl, rfl⟩

theorem Transition.image (h : Transition db row status ts db') {r : SkillRow}
    (hr : r ∈ db.skills.rows) : ∃ r' ∈ db'.skills.rows, r'.key = r.key := by
  by_cases hkey : r.key = row.key
  · exact ⟨row.move status ts, h.mem.2 (.inl rfl), hkey.symm⟩
  · exact ⟨r, h.mem.2 (.inr ⟨hr, hkey⟩), rfl⟩

theorem Transition.reviewed (h : Transition db row status ts db') (hrow : Reviewed db row) :
    Reviewed db' (row.move status ts) := by
  obtain ⟨review, hreviews, hid, hversion, hfrom, hto⟩ := h.reviews
  have hof : db'.reviewsOf row.skillId row.version =
      db.reviewsOf row.skillId row.version ++ [review] := by
    simp [SkillDb.reviewsOf, hreviews, List.filter_append, hid, hversion]
  constructor
  · show Trail _ _ _ (db'.reviewsOf row.skillId row.version) status
    rw [hof]
    have htrail := hrow.trail.append (e := review) hfrom
    rw [hto] at htrail
    exact htrail
  · show ((db'.reviewsOf row.skillId row.version).length : Int) = row.revision + 1
    have hlen := hrow.revision
    rw [hof, List.length_append, List.length_singleton]
    omega

theorem Transition.reviewed_other (h : Transition db row status ts db') {r : SkillRow}
    (hne : r.key ≠ row.key) (hr : Reviewed db r) : Reviewed db' r := by
  obtain ⟨review, hreviews, hid, hversion, _⟩ := h.reviews
  have hof : db'.reviewsOf r.skillId r.version = db.reviewsOf r.skillId r.version := by
    have hnot : ¬ (review.skillId = r.skillId ∧ review.version = r.version) := fun ⟨h1, h2⟩ =>
      hne (Prod.ext (h1.symm.trans hid) (h2.symm.trans hversion))
    simp [SkillDb.reviewsOf, hreviews, List.filter_append, hnot]
  exact ⟨by rw [hof]; exact hr.trail, by rw [hof]; exact hr.revision⟩

theorem Transition.documented (h : Transition db row status ts db') (hdoc : Documented db) :
    Documented db' := by
  constructor
  · intro a ha b hb hid
    obtain ⟨a₀, ha₀, hka, hwa⟩ := h.origin ha
    obtain ⟨b₀, hb₀, hkb, hwb⟩ := h.origin hb
    have hid₀ : a₀.skillId = b₀.skillId :=
      (congrArg Prod.fst hka).trans (hid.trans (congrArg Prod.fst hkb).symm)
    rw [← hwa, ← hwb]
    exact hdoc.wing a₀ ha₀ b₀ hb₀ hid₀
  · intro id
    have hlen : (db'.versionsOf id).length = (db.versionsOf id).length := by
      rw [← List.length_map (·.version), h.versionsOf, List.length_map]
    rw [h.versionsOf, hlen]
    exact hdoc.versions id
  · intro r hr
    rcases h.mem.1 hr with rfl | ⟨hr, hne⟩
    · exact h.reviewed (hdoc.reviewed row (Table.mem_of_get? h.stored))
    · exact h.reviewed_other hne (hdoc.reviewed r hr)
  · intro v hv
    obtain ⟨review, hreviews, hid, hversion, _⟩ := h.reviews
    rw [hreviews] at hv
    rcases List.mem_append.1 hv with hv | hv
    · obtain ⟨r, hr, hkey⟩ := hdoc.reviews v hv
      obtain ⟨r', hr', hkey'⟩ := h.image hr
      exact ⟨r', hr', hkey'.trans hkey⟩
    · rw [List.mem_singleton.1 hv, hid, hversion]
      exact ⟨row.move status ts, h.mem.2 (.inl rfl), rfl⟩

end

/-! ## A new version -/

theorem maxVersion_getD {db : SkillDb} (h : Documented db) (id : String) :
    (maxVersion db id).getD 0 = (db.versionsOf id).length := by
  unfold maxVersion
  rw [h.versions id]
  generalize (db.versionsOf id).length = n
  cases n with
  | zero => rfl
  | succ n =>
    have hmax : ((List.range (n + 1)).map fun k : Nat => (k : Int) + 1).max? = some (n + 1) := by
      refine List.max?_eq_some_iff.2 ⟨?_, fun v hv => ?_⟩
      · exact List.mem_map.2 ⟨n, by simp, rfl⟩
      · obtain ⟨k, hk, rfl⟩ := List.mem_map.1 hv
        have := List.mem_range.1 hk
        omega
    rw [hmax]
    rfl

theorem maxVersion_of_mem {db : SkillDb} {r : SkillRow} (hr : r ∈ db.skills.rows) :
    ∃ m prior, maxVersion db r.skillId = some m ∧ db.skills.get? (r.skillId, m) = some prior := by
  have hmem : r.version ∈ (db.versionsOf r.skillId).map (·.version) :=
    List.mem_map_of_mem (mem_versionsOf.2 ⟨hr, rfl⟩)
  obtain ⟨m, hm⟩ : ∃ m, maxVersion db r.skillId = some m := by
    refine Option.ne_none_iff_exists'.1 fun hnone => ?_
    rw [List.max?_eq_none_iff.1 hnone] at hmem
    cases hmem
  obtain ⟨prior, hprior, hversion⟩ := List.mem_map.1 (List.max?_eq_some_iff.1 hm).1
  obtain ⟨hprior, hid⟩ := mem_versionsOf.1 hprior
  refine ⟨m, prior, hm, ?_⟩
  rw [← hid, ← hversion]
  exact Table.get?_of_mem hprior

section
variable {db : SkillDb} {skills : Table SkillRow.key} {input : NewSkill} {wing : Option String}
  {ts : Timestamp} {row : SkillRow}

theorem proposed_documented (hdoc : Documented db)
    (hrow : row = input.row wing (maxVersion db input.skillId) ts)
    (hwing : ∀ m prior, maxVersion db input.skillId = some m →
      db.skills.get? (input.skillId, m) = some prior → prior.wing = wing)
    (hskills : skills.rows = db.skills.rows ++ [row]) (hfresh : db.skills.get? row.key = none) :
    Documented { db with skills := skills } := by
  have hmem : ∀ r, r ∈ skills.rows ↔ r ∈ db.skills.rows ∨ r = row := by
    intro r
    rw [hskills, List.mem_append, List.mem_singleton]
  have hnew : ∀ r ∈ db.skills.rows, r.skillId = row.skillId → r.wing = row.wing := by
    intro r hr hid
    obtain ⟨m, prior, hm, hprior⟩ := maxVersion_of_mem hr
    have hsame : r.skillId = input.skillId := by rw [hid, hrow]; rfl
    have hlatest := hwing m prior (hsame ▸ hm) (hsame ▸ hprior)
    rw [hdoc.wing r hr prior (Table.mem_of_get? hprior) (key_of_get? hprior).1.symm, hlatest, hrow]
    rfl
  have hunreviewed : db.reviewsOf row.skillId row.version = [] := by
    refine List.filter_eq_nil_iff.2 fun v hv hkey => ?_
    obtain ⟨r, hr, hr'⟩ := hdoc.reviews v hv
    simp only [decide_eq_true_eq] at hkey
    refine Table.get?_eq_none.1 hfresh r hr ?_
    rw [hr', hkey.1, hkey.2]
  constructor
  · intro a ha b hb hid
    rcases (hmem a).1 ha with ha | rfl <;> rcases (hmem b).1 hb with hb | rfl
    · exact hdoc.wing a ha b hb hid
    · exact hnew a ha hid
    · exact (hnew b hb hid.symm).symm
    · rfl
  · intro id
    have hof : ({ db with skills := skills } : SkillDb).versionsOf id =
        db.versionsOf id ++ [row].filter (·.skillId = id) := by
      simp only [SkillDb.versionsOf, hskills, List.filter_append]
    rw [hof]
    by_cases hid : row.skillId = id
    · have hversion : row.version = (db.versionsOf id).length + 1 := by
        rw [hrow] at hid ⊢
        show (maxVersion db input.skillId).getD 0 + 1 = _
        rw [maxVersion_getD hdoc]
        rw [show input.skillId = id from hid]
      simp [hid, hversion, hdoc.versions id, List.range_succ]
    · simpa [hid] using hdoc.versions id
  · intro r hr
    rcases (hmem r).1 hr with hr | hr
    · exact ⟨(hdoc.reviewed r hr).trail, (hdoc.reviewed r hr).revision⟩
    · have hstatus : row.status = .candidate ∧ row.revision = 0 := by rw [hrow]; exact ⟨rfl, rfl⟩
      rw [hr]
      refine ⟨?_, ?_⟩
      · show Trail _ _ _ (db.reviewsOf row.skillId row.version) row.status
        rw [hunreviewed, hstatus.1]
        rfl
      · show ((db.reviewsOf row.skillId row.version).length : Int) = row.revision
        rw [hunreviewed, hstatus.2]
        rfl
  · intro v hv
    obtain ⟨r, hr, hkey⟩ := hdoc.reviews v hv
    exact ⟨r, (hmem r).2 (.inl hr), hkey⟩

end

/-! ## At most one promoted version -/

section
variable {db db₁ db' : SkillDb} {current : SkillRow} {superseded : Option SkillRow} {ts : Timestamp}

theorem Transition.onePromoted {row : SkillRow} {status : SkillStatus}
    (h : Transition db row status ts db') (hone : OnePromoted db) (hstatus : status ≠ .promoted) :
    OnePromoted db' := by
  intro a ha b hb hid hpa hpb
  rcases h.mem.1 ha with rfl | ⟨ha, _⟩
  · exact absurd hpa hstatus
  · rcases h.mem.1 hb with rfl | ⟨hb, _⟩
    · exact absurd hpb hstatus
    · exact hone a ha b hb hid hpa hpb

theorem promoted_after (hsuperseded : Promoted db current.skillId superseded)
    (hmove : Transition db current .promoted ts db₁) (hprior : Supersedes superseded db₁ db')
    {r : SkillRow} (hr : r ∈ db'.skills.rows) (hpromoted : r.status = .promoted) :
    r = current.move .promoted ts ∨ r ∈ db.skills.rows ∧ r.skillId ≠ current.skillId := by
  have hfirst : ∀ {x : SkillRow}, x ∈ db₁.skills.rows → x.status = .promoted →
      (∀ prior, superseded = some prior → x.key ≠ prior.key) →
      x = current.move .promoted ts ∨ x ∈ db.skills.rows ∧ x.skillId ≠ current.skillId := by
    intro x hx hxp hne
    rcases hmove.mem.1 hx with rfl | ⟨hx, _⟩
    · exact .inl rfl
    · refine .inr ⟨hx, fun hid => ?_⟩
      have hof := mem_versionsOf.2 ⟨hx, hid⟩
      cases superseded with
      | none => exact hsuperseded x hof hxp
      | some prior =>
        have hsame : x = prior := hsuperseded.2.2 x hof hxp
        exact hne prior rfl (congrArg SkillRow.key hsame)
  cases superseded with
  | none =>
    rw [show db' = db₁ from hprior] at hr
    exact hfirst hr hpromoted fun _ h => by cases h
  | some prior =>
    obtain ⟨ts', hsupersede⟩ := hprior
    rcases hsupersede.mem.1 hr with rfl | ⟨hr, hne⟩
    · cases hpromoted
    · exact hfirst hr hpromoted fun _ h => by cases h; exact hne

theorem promotion_onePromoted (hone : OnePromoted db)
    (hsuperseded : Promoted db current.skillId superseded)
    (hmove : Transition db current .promoted ts db₁) (hprior : Supersedes superseded db₁ db') :
    OnePromoted db' := by
  intro a ha b hb hid hpa hpb
  rcases promoted_after hsuperseded hmove hprior ha hpa with rfl | ⟨ha, hna⟩ <;>
    rcases promoted_after hsuperseded hmove hprior hb hpb with rfl | ⟨hb, hnb⟩
  · rfl
  · exact absurd hid.symm hnb
  · exact absurd hid hna
  · exact hone a ha b hb hid hpa hpb

theorem Supersedes.documented (h : Supersedes superseded db db') (hdoc : Documented db) :
    Documented db' := by
  cases superseded with
  | none => rw [show db' = db from h]; exact hdoc
  | some prior =>
    obtain ⟨ts, hmove⟩ := h
    exact hmove.documented hdoc

end

/-! ## Every run -/

theorem Outcome.coherent {db db' : SkillDb} {call : Call} {answer : Answer}
    (h : Outcome db call answer db') (hc : Coherent db) : Coherent db' := by
  cases h with
  | rejected => exact hc
  | conflict => exact hc
  | replayed => exact hc
  | @proposed input wing ts row skills hcall hrow hwing hskills hfresh =>
    refine ⟨proposed_documented hc.toDocumented hrow hwing hskills hfresh, ?_⟩
    have hstatus : row.status ≠ .promoted := by
      rw [hrow]
      intro h
      cases h
    intro a ha b hb hid hpa hpb
    replace ha : a ∈ skills.rows := ha
    replace hb : b ∈ skills.rows := hb
    rw [hskills, List.mem_append, List.mem_singleton] at ha hb
    rcases ha with ha | rfl
    · rcases hb with hb | rfl
      · exact hc.promoted a ha b hb hid hpa hpb
      · exact absurd hpb hstatus
    · exact absurd hpa hstatus
  | recorded =>
    exact ⟨⟨hc.wing, hc.versions, fun r hr =>
      ⟨(hc.reviewed r hr).trail, (hc.reviewed r hr).revision⟩, hc.reviews⟩, hc.promoted⟩
  | promoted _ _ hsuperseded _ hmove hprior =>
    exact ⟨hprior.documented (hmove.documented hc.toDocumented),
      promotion_onePromoted hc.promoted hsuperseded hmove hprior⟩
  | retired _ _ hmove =>
    exact ⟨hmove.documented hc.toDocumented,
      hmove.onePromoted hc.promoted fun h => by cases h⟩

theorem coherent_empty : Coherent .empty := by
  constructor
  · constructor
    · intro a ha
      cases ha
    · intro id
      rfl
    · intro r hr
      cases hr
    · intro v hv
      cases hv
  · intro a ha
    cases ha

theorem reachable_coherent {w : State} (h : system.Reachable w) : Coherent w.db := by
  refine h.invariant (fun w hw => ?_) fun _ _ _ _ hc hs => (step_outcome hs).coherent hc
  rw [show w.db = .empty from hw]
  exact coherent_empty

/-! ## Final versions -/

theorem Transition.kept {db db' : SkillDb} {row r : SkillRow} {status : SkillStatus}
    {ts : Timestamp} (h : Transition db row status ts db') (hrow : row.status.terminal = false)
    (hr : r ∈ db.skills.rows) (hfinal : r.status.terminal = true) : r ∈ db'.skills.rows := by
  refine h.mem.2 (.inr ⟨hr, fun hkey => ?_⟩)
  rw [Table.eq_of_key_eq hr (Table.mem_of_get? h.stored) hkey, hrow] at hfinal
  cases hfinal

theorem Outcome.kept {db db' : SkillDb} {call : Call} {answer : Answer}
    (h : Outcome db call answer db') {r : SkillRow} (hr : r ∈ db.skills.rows)
    (hfinal : r.status.terminal = true) : r ∈ db'.skills.rows := by
  cases h with
  | rejected => exact hr
  | conflict => exact hr
  | replayed => exact hr
  | proposed _ _ _ hskills => exact hskills ▸ List.mem_append_left _ hr
  | recorded => exact hr
  | @promoted current superseded _ _ _ _ _ _ hstatus hsuperseded _ hmove hprior =>
    have hr := hmove.kept (by rw [hstatus]; rfl) hr hfinal
    cases superseded with
    | none => rw [show _ = _ from hprior]; exact hr
    | some prior =>
      obtain ⟨ts, hsupersede⟩ := hprior
      exact hsupersede.kept (by rw [hsuperseded.2.1]; rfl) hr hfinal
  | retired _ hstatus hmove => exact hmove.kept hstatus hr hfinal

/-- **Registry coherence**: every reachable registry is coherent, and superseded and
retired versions stay as they are. -/
theorem registry_coherent {w : State} (h : system.Reachable w) :
    Coherent w.db ∧
    ∀ ls w' r, Run system w ls w' → r ∈ w.db.skills.rows → r.status.terminal = true →
      r ∈ w'.db.skills.rows := by
  refine ⟨reachable_coherent h, fun ls w' r hrun hr hfinal => ?_⟩
  exact hrun.stable (P := fun x => r ∈ x.db.skills.rows)
    (fun _ _ _ _ _ hx hs => (step_outcome hs).kept hx hfinal) h hr

/-- The first version is superseded by the second. -/
def sampleSuccession : List Request :=
  sampleSuccessor ++ [⟨sampleHost "6", .promoteSkill "deploy" 2 0 "bob" ""⟩]

theorem registry_coherent_sample :
    (played sampleSuccession).2.db.skills.rows.map (fun r => (r.version, r.status)) =
      [(1, .superseded), (2, .promoted)] ∧ Coherent (played sampleSuccession).2.db :=
  ⟨by decide, (registry_coherent (reachable_played sampleSuccession)).1⟩

end AgentPalace.Skills
