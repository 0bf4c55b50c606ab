import AgentPalace.Delegation.Outcome

/-!
# The trees of spans and their traces

Every call keeps `Sound`: a child is one level below its parent, siblings are
numbered in the order of their insertion. A terminal span is frozen
(`run_frozen`). On a sound store the walk of `trace` meets no span twice, because
a span has one parent and depth grows along the tree.
-/

namespace AgentPalace.Delegation

/-! ## The invariant -/

def Numbered (rows : List SpanRow) : Prop :=
  rows.map (·.fanOutIndex) = (List.range rows.length).map Int.ofNat

/-- A span has an end just when its status is terminal. -/
structure Ended (r : SpanRow) : Prop where
  stopReason : r.status.terminal = r.stopReason.isSome
  closedBy : r.status.terminal = r.closedBy.isSome
  endedAt : r.status.terminal = r.endedAt.isSome

structure Sound (db : DelegationDb) : Prop where
  parent : ∀ r ∈ db.spans.rows, ∀ id, r.parentSpanId = some id →
    ∃ p ∈ db.spans.rows, p.spanId = id ∧ r.taskId = p.taskId ∧ r.depth = p.depth + 1
  children : ∀ id, Numbered (childRows db id)
  roots : ∀ taskId, Numbered (rootRows db taskId)
  ended : ∀ r ∈ db.spans.rows, Ended r
  spanKeys : ∀ a ∈ db.spans.rows, ∀ b ∈ db.spans.rows,
    a.delegator = b.delegator → a.idempotencyKey = b.idempotencyKey → a = b
  checkpointKeys : ∀ a ∈ db.checkpoints.rows, ∀ b ∈ db.checkpoints.rows,
    a.actor = b.actor → a.idempotencyKey = b.idempotencyKey → a = b

structure SameSpan (r r' : SpanRow) : Prop where
  spanId : r'.spanId = r.spanId
  taskId : r'.taskId = r.taskId
  parentSpanId : r'.parentSpanId = r.parentSpanId
  depth : r'.depth = r.depth
  fanOutIndex : r'.fanOutIndex = r.fanOutIndex
  delegator : r'.delegator = r.delegator
  idempotencyKey : r'.idempotencyKey = r.idempotencyKey

theorem SameSpan.refl (r : SpanRow) : SameSpan r r := ⟨rfl, rfl, rfl, rfl, rfl, rfl, rfl⟩

section
variable {db db' : DelegationDb} {row : SpanRow}

/-! ### A span starts -/

theorem childRows_insert (hrows : db'.spans.rows = db.spans.rows ++ [row]) (id : String) :
    childRows db' id = childRows db id ++ if row.parentSpanId = some id then [row] else [] := by
  simp only [childRows, hrows, List.filter_append, List.filter_cons, List.filter_nil,
    decide_eq_true_eq]

theorem rootRows_insert (hrows : db'.spans.rows = db.spans.rows ++ [row]) (taskId : String) :
    rootRows db' taskId = rootRows db taskId ++
      if row.parentSpanId = none ∧ row.taskId = taskId then [row] else [] := by
  simp only [rootRows, hrows, List.filter_append, List.filter_cons, List.filter_nil,
    Bool.and_eq_true, decide_eq_true_eq]

theorem Numbered.concat {rows : List SpanRow} (h : Numbered rows)
    (hrow : row.fanOutIndex = rows.length) : Numbered (rows ++ [row]) := by
  unfold Numbered at *
  rw [List.map_append, h, List.length_append, List.length_singleton, List.range_succ,
    List.map_append, List.map_singleton, List.map_singleton, hrow]
  rfl

theorem keys_concat {α β γ : Type} {f : α → β} {g : α → γ} {rows : List α} {row : α}
    (h : ∀ a ∈ rows, ∀ b ∈ rows, f a = f b → g a = g b → a = b)
    (hrow : ∀ x ∈ rows, ¬ (f x = f row ∧ g x = g row)) :
    ∀ a ∈ rows ++ [row], ∀ b ∈ rows ++ [row], f a = f b → g a = g b → a = b := by
  intro a ha b hb hf hg
  rw [List.mem_append, List.mem_singleton] at ha hb
  rcases ha with ha | rfl <;> rcases hb with hb | rfl
  · exact h a ha b hb hf hg
  · exact absurd ⟨hf, hg⟩ (hrow a ha)
  · exact absurd ⟨hf.symm, hg.symm⟩ (hrow b hb)
  · rfl

theorem Started.child (h : Started db row) {id : String} (hid : row.parentSpanId = some id) :
    ∃ p ∈ db.spans.rows, p.spanId = id ∧ p.status.terminal = false ∧ row.taskId = p.taskId ∧
      row.depth = p.depth + 1 ∧ row.fanOutIndex = (childRows db id).length := by
  have hplaced := h.placed
  rw [hid] at hplaced
  generalize hplace : (row.depth, row.fanOutIndex) = place at hplaced
  cases hplaced with
  | root hroot => cases hroot
  | @child p hp hchild htask hstatus =>
    cases hchild
    obtain ⟨hdepth, hfan⟩ := Prod.mk.inj hplace
    exact ⟨p, hp, rfl, hstatus, htask.symm, hdepth, hfan⟩

theorem Started.root (h : Started db row) (hroot : row.parentSpanId = none) :
    row.fanOutIndex = (rootRows db row.taskId).length := by
  have hplaced := h.placed
  rw [hroot] at hplaced
  generalize hplace : (row.depth, row.fanOutIndex) = place at hplaced
  cases hplaced with
  | root _ => exact (Prod.mk.inj hplace).2
  | child _ hchild _ _ => cases hchild

theorem Sound.started (h : Sound db) (hstart : Started db row)
    (hrows : db'.spans.rows = db.spans.rows ++ [row]) (hsame : db'.checkpoints = db.checkpoints) :
    Sound db' where
  parent := by
    intro r hr id hid
    rw [hrows] at hr ⊢
    rw [List.mem_append, List.mem_singleton] at hr
    rcases hr with hr | rfl
    · obtain ⟨p, hp, hparent⟩ := h.parent r hr id hid
      exact ⟨p, List.mem_append_left _ hp, hparent⟩
    · obtain ⟨p, hp, hparent, _, htask, hdepth, _⟩ := hstart.child hid
      exact ⟨p, List.mem_append_left _ hp, hparent, htask, hdepth⟩
  children := by
    intro id
    rw [childRows_insert hrows]
    split
    · rename_i hid
      obtain ⟨_, _, _, _, _, _, hfan⟩ := hstart.child hid
      exact (h.children id).concat hfan
    · rw [List.append_nil]
      exact h.children id
  roots := by
    intro taskId
    rw [rootRows_insert hrows]
    split
    · rename_i hroot
      obtain ⟨hnone, rfl⟩ := hroot
      exact (h.roots row.taskId).concat (hstart.root hnone)
    · rw [List.append_nil]
      exact h.roots taskId
  ended := by
    intro r hr
    rw [hrows, List.mem_append, List.mem_singleton] at hr
    rcases hr with hr | rfl
    · exact h.ended r hr
    · constructor <;>
        simp [hstart.running, hstart.stopReason, hstart.closedBy, hstart.endedAt,
          SpanStatus.terminal]
  spanKeys := hrows ▸ keys_concat h.spanKeys hstart.unused
  checkpointKeys := hsame ▸ h.checkpointKeys

/-! ### A span is closed -/

theorem childRows_map {g : SpanRow → SpanRow} (hg : ∀ r, SameSpan r (g r))
    (hrows : db'.spans.rows = db.spans.rows.map g) (id : String) :
    childRows db' id = (childRows db id).map g := by
  simp only [childRows, hrows, List.filter_map, Function.comp_def, (hg _).parentSpanId]

theorem rootRows_map {g : SpanRow → SpanRow} (hg : ∀ r, SameSpan r (g r))
    (hrows : db'.spans.rows = db.spans.rows.map g) (taskId : String) :
    rootRows db' taskId = (rootRows db taskId).map g := by
  simp only [rootRows, hrows, List.filter_map, Function.comp_def, (hg _).parentSpanId,
    (hg _).taskId]

theorem Numbered.map {g : SpanRow → SpanRow} (hg : ∀ r, SameSpan r (g r)) {rows : List SpanRow}
    (h : Numbered rows) : Numbered (rows.map g) := by
  unfold Numbered at *
  rw [List.map_map, List.length_map, ← h]
  exact List.map_congr_left fun r _ => (hg r).fanOutIndex

theorem Sound.rewritten (h : Sound db) {g : SpanRow → SpanRow} (hg : ∀ r, SameSpan r (g r))
    (hended : ∀ r, Ended r → Ended (g r)) (hrows : db'.spans.rows = db.spans.rows.map g)
    (hsame : db'.checkpoints = db.checkpoints) : Sound db' where
  parent := by
    intro r' hr' id hid
    rw [hrows] at hr' ⊢
    obtain ⟨r, hr, rfl⟩ := List.mem_map.1 hr'
    rw [(hg r).parentSpanId] at hid
    obtain ⟨p, hp, hkey, htask, hdepth⟩ := h.parent r hr id hid
    refine ⟨g p, List.mem_map_of_mem hp, (hg p).spanId.trans hkey, ?_, ?_⟩
    · rw [(hg r).taskId, (hg p).taskId, htask]
    · rw [(hg r).depth, (hg p).depth, hdepth]
  children := fun id => childRows_map hg hrows id ▸ (h.children id).map hg
  roots := fun taskId => rootRows_map hg hrows taskId ▸ (h.roots taskId).map hg
  ended := by
    intro r' hr'
    rw [hrows] at hr'
    obtain ⟨r, hr, rfl⟩ := List.mem_map.1 hr'
    exact hended r (h.ended r hr)
  spanKeys := by
    intro a' ha' b' hb' hdelegator hkey
    rw [hrows] at ha' hb'
    obtain ⟨a, ha, rfl⟩ := List.mem_map.1 ha'
    obtain ⟨b, hb, rfl⟩ := List.mem_map.1 hb'
    rw [(hg a).delegator, (hg b).delegator] at hdelegator
    rw [(hg a).idempotencyKey, (hg b).idempotencyKey] at hkey
    rw [h.spanKeys a ha b hb hdelegator hkey]
  checkpointKeys := hsame ▸ h.checkpointKeys

theorem close_sameSpan {status : SpanStatus} {reason : StopReason} {actor : String} {revision : Int}
    {endedAt : Timestamp} {id : String} (r : SpanRow) :
    SameSpan r (if r.spanId = id then r.close status reason actor revision endedAt else r) := by
  split
  · exact ⟨rfl, rfl, rfl, rfl, rfl, rfl, rfl⟩
  · exact .refl r

theorem close_ended {status : SpanStatus} {reason : StopReason} {actor : String} {revision : Int}
    {endedAt : Timestamp} (hstatus : status.terminal = true) {id : String} {r : SpanRow}
    (h : Ended r) :
    Ended (if r.spanId = id then r.close status reason actor revision endedAt else r) := by
  split
  · exact ⟨hstatus, hstatus, hstatus⟩
  · exact h

theorem Effect.sound (heffect : Effect db db') (h : Sound db) : Sound db' := by
  cases heffect with
  | still => exact h
  | started hstart hrows => exact h.started hstart hrows rfl
  | appended _ _ _ hunused hrows =>
    exact { h with checkpointKeys := hrows ▸ keys_concat h.checkpointKeys hunused }
  | closed _ _ hstatus => exact h.rewritten close_sameSpan (fun _ => close_ended hstatus) rfl rfl

theorem SameRows.sound (hsame : SameRows db db') (h : Sound db) : Sound db' :=
  h.rewritten .refl (fun _ h => h) (by rw [hsame.1, List.map_id']) hsame.2

theorem empty_sound : Sound .empty where
  parent := fun _ hr => (by cases hr)
  children := fun _ => rfl
  roots := fun _ => rfl
  ended := fun _ hr => (by cases hr)
  spanKeys := fun _ ha => (by cases ha)
  checkpointKeys := fun _ ha => (by cases ha)

theorem reachable_sound (h : delegations.Reachable db) : Sound db := by
  refine h.invariant (I := Sound) (fun a hinit => ?_) fun a e b _ ha hstep => ?_
  · exact hinit ▸ empty_sound
  · rcases step_effect hstep with hsame | heffect
    · exact hsame.sound ha
    · exact heffect.sound ha

/-! ## Terminal spans -/

/-- The terminal spans are as they were, with the same children and checkpoints. -/
def Frozen (db db' : DelegationDb) : Prop :=
  ∀ r ∈ db.spans.rows, r.status.terminal = true → r ∈ db'.spans.rows ∧
    (childRows db' r.spanId).map (·.spanId) = (childRows db r.spanId).map (·.spanId) ∧
    checkpointRows db' r.spanId = checkpointRows db r.spanId

theorem ne_of_running {r p : SpanRow} (hr : r ∈ db.spans.rows) (hp : p ∈ db.spans.rows)
    (hterminal : r.status.terminal = true) (hrunning : p.status.terminal = false) :
    r.spanId ≠ p.spanId := by
  intro hid
  rw [Table.eq_of_key_eq hr hp hid, hrunning] at hterminal
  cases hterminal

theorem Effect.frozen (heffect : Effect db db') : Frozen db db' := by
  intro r hr hterminal
  cases heffect with
  | still => exact ⟨hr, rfl, rfl⟩
  | @started row spans hstart hrows =>
    refine ⟨hrows ▸ List.mem_append_left _ hr, ?_, rfl⟩
    rw [childRows_insert hrows, if_neg, List.append_nil]
    intro hid
    obtain ⟨p, hp, hpid, hrunning, _⟩ := hstart.child hid
    exact ne_of_running hr hp hterminal hrunning hpid.symm
  | @appended row span checkpoints hspan hid hrunning _ hrows =>
    refine ⟨hr, rfl, ?_⟩
    have hne := (ne_of_running hr hspan hterminal hrunning).symm
    simp only [checkpointRows, hrows, List.filter_append, hid, hne, decide_false,
      List.filter_cons_of_neg, List.filter_nil, List.append_nil, Bool.false_eq_true,
      not_false_eq_true]
  | @closed row status reason actor revision endedAt hrow hrunning _ =>
    have hne := ne_of_running hr hrow hterminal hrunning
    refine ⟨List.mem_map.2 ⟨r, hr, if_neg hne⟩, ?_, rfl⟩
    rw [childRows_map close_sameSpan rfl, List.map_map]
    exact List.map_congr_left fun x _ => (close_sameSpan x).spanId

theorem SameRows.frozen (hsame : SameRows db db') : Frozen db db' := by
  intro r hr _
  unfold childRows checkpointRows
  rw [hsame.1, hsame.2]
  exact ⟨hr, rfl, rfl⟩

/-- **A terminal span is frozen** in every run. -/
theorem run_frozen {es : List Event} (h : delegations.Run db es db') : Frozen db db' := by
  refine h.rel (R := Frozen) (fun _ _ hr _ => ⟨hr, rfl, rfl⟩) (fun a b c hab hbc r hr hterminal => ?_)
    fun a e b hstep => ?_
  · obtain ⟨hrb, hchildren, hcheckpoints⟩ := hab r hr hterminal
    obtain ⟨hrc, hchildren', hcheckpoints'⟩ := hbc r hrb hterminal
    exact ⟨hrc, hchildren'.trans hchildren, hcheckpoints'.trans hcheckpoints⟩
  · rcases step_effect hstep with hsame | heffect
    · exact hsame.frozen
    · exact heffect.frozen

end

end AgentPalace.Delegation
