import AgentPalace.Coordination.Rows
import AgentPalace.Lib.History

/-!
# The audit log

The events of a task are its history: those that carry a revision number the
revisions of the row one by one, name the state they found and the state they
left, and replay to the stored row. Every event of a task, also through its
messages, artifacts and results, carries the wing of the task.
-/

namespace AgentPalace.Coordination

open Machine

/-- How an audit event reads as an entry of a task's history. -/
def eventVersions : Versioning Event TaskState where
  source e := e.fromState
  target e := e.toState
  revision e := e.revision

/-- The task that the entity of an event belongs to. -/
def CoordinationDb.subject (db : CoordinationDb) (e : Event) : Option String :=
  if e.entityType = "task" then some e.entityId
  else if e.entityType = "message" then (db.messages.get? e.entityId).map (·.taskId)
  else if e.entityType = "artifact" then (db.artifacts.get? e.entityId).map (·.taskId)
  else if e.entityType = "result" then (db.results.get? e.entityId).map (·.taskId)
  else none

theorem subject_message {db : CoordinationDb} {e : Event} (h : e.entityType = "message") :
    db.subject e = (db.messages.get? e.entityId).map (·.taskId) := by
  simp [CoordinationDb.subject, h]

theorem subject_artifact {db : CoordinationDb} {e : Event} (h : e.entityType = "artifact") :
    db.subject e = (db.artifacts.get? e.entityId).map (·.taskId) := by
  simp [CoordinationDb.subject, h]

theorem subject_result {db : CoordinationDb} {e : Event} (h : e.entityType = "result") :
    db.subject e = (db.results.get? e.entityId).map (·.taskId) := by
  simp [CoordinationDb.subject, h]

theorem eventsOf_append {db db' : CoordinationDb} {e : Event}
    (h : db'.events.rows = db.events.rows ++ [e]) (id : String) :
    db'.eventsOf id = if e.taskId = some id then db.eventsOf id ++ [e] else db.eventsOf id := by
  unfold CoordinationDb.eventsOf
  rw [h, List.filter_append]
  by_cases ht : e.taskId = some id
  · simp [ht]
  · simp [ht]

/-! ## Records stay -/

def TaskRow.terms (t : TaskRow) : TaskRow :=
  { t with
    state := .pending, revision := 0, owner := none, executorAffinity := none
    leaseExpiresAt := none, updatedAt := t.createdAt }

/-- A later revision of a task, on the same terms. -/
def TaskRow.Revised (t t' : TaskRow) : Prop := t'.terms = t.terms ∧ t.revision < t'.revision

def MessageRow.Acknowledged (m m' : MessageRow) : Prop :=
  m.acknowledgedAt = none ∧ m'.acknowledgedAt.isSome ∧
    m' = { m with acknowledgedAt := m'.acknowledgedAt, acknowledgedBy := some m.recipient }

/-- Nothing of `db` is lost in `db'`. -/
structure Kept (db db' : CoordinationDb) : Prop where
  events : db.events.rows <+: db'.events.rows
  artifacts : db.artifacts.rows <+: db'.artifacts.rows
  results : db.results.rows <+: db'.results.rows
  messages : ∀ i m, db.messages.get? i = some m →
    ∃ m', db'.messages.get? i = some m' ∧ (m' = m ∨ m.Acknowledged m')
  tasks : ∀ i t, db.tasks.get? i = some t →
    ∃ t', db'.tasks.get? i = some t' ∧ (t' = t ∨ t.Revised t')

theorem get?_of_grown {ρ : Type} {key : ρ → String} {t t' : Table key} {r : ρ} {i : String}
    (h : t.rows <+: t'.rows) (hr : t.get? i = some r) : t'.get? i = some r :=
  Table.get?_eq_some.2 ⟨h.subset (Table.mem_of_get? hr), Table.get?_key hr⟩

theorem Outcome.kept {host : Host} {db db' : CoordinationDb} {call : Call} {answer : Answer}
    (h : Outcome host db call answer db') : Kept db db' where
  events := by
    cases h with
    | changed _ _ _ _ hlog | created _ _ _ _ _ _ _ hlog | sent _ _ _ _ _ _ hlog
    | acknowledged _ _ _ _ _ _ _ _ hlog | artifactPut _ _ _ _ _ _ hlog
    | resultPut _ _ _ _ _ _ hlog => exact hlog ▸ List.prefix_append ..
    | _ => exact List.prefix_rfl
  artifacts := by
    cases h with
    | artifactPut _ _ _ _ hrows => exact hrows ▸ List.prefix_append ..
    | _ => exact List.prefix_rfl
  results := by
    cases h with
    | resultPut _ _ _ _ hrows => exact hrows ▸ List.prefix_append ..
    | _ => exact List.prefix_rfl
  messages i m hm := by
    cases h with
    | sent _ _ _ _ hrows =>
      exact ⟨m, get?_of_grown (hrows ▸ List.prefix_append ..) hm, .inl rfl⟩
    | @acknowledged id _ row row' ts _ messages _ _ hrow hrecipient hnew _ _ hrow' hrows =>
      have hid : row.key = id := Table.get?_key hrow
      have hid : row'.messageId = id := by rw [hrow']; exact hid
      have hget : messages.get? i = if i = row'.messageId then some row' else db.messages.get? i :=
        Table.get?_replace row' (by rw [hrows]; simp only [hid]) (hid ▸ hrow) i
      by_cases hk : i = row'.messageId
      · obtain rfl : row = m := Option.some.inj (hrow.symm.trans (hid ▸ hk ▸ hm))
        refine ⟨row', hget.trans (if_pos hk), .inr ⟨hnew, ?_, ?_⟩⟩ <;> rw [hrow', hrecipient]
        rfl
      · exact ⟨m, hget.trans ((if_neg hk).trans hm), .inl rfl⟩
    | _ => exact ⟨m, hm, .inl rfl⟩
  tasks i t ht := by
    have hrow := h.rowStep i
    rw [ht] at hrow
    generalize db'.tasks.get? i = r at hrow
    cases hrow with
    | kept => exact ⟨t, rfl, .inl rfl⟩
    | changed hts hchange =>
      have hrev := hchange.keeps.2.2.2
      exact ⟨_, rfl, .inr ⟨by cases hchange <;> rfl, by omega⟩⟩

theorem rows_grow {ρ : Type} (f : CoordinationDb → List ρ)
    (hf : ∀ db db', Kept db db' → f db <+: f db') {w w' : State} {ls : List Label}
    (h : Run system w ls w') : f w.db <+: f w'.db :=
  h.rel (R := fun x y => f x.db <+: f y.db) (fun _ => List.prefix_rfl) (fun _ _ _ => .trans)
    fun _ _ _ hs => hf _ _ (step_outcome hs).kept

/-- **Nothing is lost**: no run removes or rewrites an audit event, an artifact or a result. A
message is acknowledged once, by its recipient; a task keeps its terms, and is written only with
a later revision. -/
theorem records_permanent {w w' : State} {ls : List Label} (h : Run system w ls w') :
    Kept w.db w'.db where
  events := rows_grow _ (fun _ _ hk => hk.events) h
  artifacts := rows_grow _ (fun _ _ hk => hk.artifacts) h
  results := rows_grow _ (fun _ _ hk => hk.results) h
  messages i _ := by
    refine h.row (fun x => x.db.messages.get? i) (fun a b c hab hbc => ?_)
      fun _ _ _ m hs => (step_outcome hs).kept.messages i m
    have hsome := hab.2.1
    rw [hbc.1] at hsome
    cases hsome
  tasks i _ := h.row (fun x => x.db.tasks.get? i)
    (fun a b c hab hbc => ⟨hbc.1.trans hab.1, hab.2.trans hbc.2⟩)
    fun _ _ _ t hs => (step_outcome hs).kept.tasks i t

theorem records_permanent_sample : Kept (after [plannerCreates]).db (after sampleClaim).db :=
  records_permanent (.single (step_after [plannerCreates] adaClaims (by decide)))

/-! ## Entities keep their task -/

/-- The entities of `db` are in `db'`, under the same tasks. -/
structure Extends (db db' : CoordinationDb) : Prop where
  messages : ∀ i t, (db.messages.get? i).map (·.taskId) = some t →
    (db'.messages.get? i).map (·.taskId) = some t
  artifacts : ∀ i t, (db.artifacts.get? i).map (·.taskId) = some t →
    (db'.artifacts.get? i).map (·.taskId) = some t
  results : ∀ i t, (db.results.get? i).map (·.taskId) = some t →
    (db'.results.get? i).map (·.taskId) = some t

theorem Extends.subject {db db' : CoordinationDb} (h : Extends db db') {e : Event} {t : String}
    (hs : db.subject e = some t) : db'.subject e = some t := by
  unfold CoordinationDb.subject at *
  by_cases htask : e.entityType = "task"
  · rw [if_pos htask] at hs ⊢; exact hs
  rw [if_neg htask] at hs ⊢
  by_cases hmessage : e.entityType = "message"
  · rw [if_pos hmessage] at hs ⊢; exact h.messages _ _ hs
  rw [if_neg hmessage] at hs ⊢
  by_cases hartifact : e.entityType = "artifact"
  · rw [if_pos hartifact] at hs ⊢; exact h.artifacts _ _ hs
  rw [if_neg hartifact] at hs ⊢
  by_cases hresult : e.entityType = "result"
  · rw [if_pos hresult] at hs ⊢; exact h.results _ _ hs
  · rw [if_neg hresult] at hs; cases hs

theorem Outcome.extends {host : Host} {db db' : CoordinationDb} {call : Call} {answer : Answer}
    (h : Outcome host db call answer db') : Extends db db' := by
  refine ⟨fun i t ht => ?_, fun i t ht => ?_, fun i t ht => ?_⟩ <;>
    obtain ⟨r, hr, rfl⟩ := Option.map_eq_some_iff.1 ht
  · obtain ⟨m, hm, rfl | ⟨_, _, hack⟩⟩ := h.kept.messages i r hr
    · rw [hm]
      rfl
    · rw [hm, hack]
      rfl
  · rw [get?_of_grown h.kept.artifacts hr]
    rfl
  · rw [get?_of_grown h.kept.results hr]
    rfl

/-! ## The invariant -/

structure Audited (db : CoordinationDb) : Prop where
  history : ∀ id row, db.tasks.get? id = some row →
    eventVersions.History (db.eventsOf id) row.state row.revision
  silent : ∀ id, db.tasks.get? id = none → db.eventsOf id = []
  wing : ∀ id row, db.tasks.get? id = some row → ∀ e ∈ db.eventsOf id, e.wing = row.wing
  subject : ∀ e ∈ db.events.rows, ∃ t, e.taskId = some t ∧ db.subject e = some t

theorem audited_empty : Audited .empty where
  history _ _ h := by rw [CoordinationDb.get?_tasks_empty] at h; cases h
  silent _ _ := rfl
  wing _ _ h := by rw [CoordinationDb.get?_tasks_empty] at h; cases h
  subject _ h := by cases h

section
variable {host : Host} {db db' : CoordinationDb} {call : Call} {answer : Answer} {e : Event}
  {id : String} {row : TaskRow}

/-- One event about the task `id`, whose row is now `row`, was logged. -/
theorem Audited.logged (hI : Audited db) (h : Outcome host db call answer db')
    (hrows : db'.events.rows = db.events.rows ++ [e]) (hid : e.taskId = some id)
    (hsubject : db'.subject e = some id) (hrow : db'.tasks.get? id = some row)
    (hother : ∀ k, k ≠ id → db'.tasks.get? k = db.tasks.get? k)
    (hhistory : eventVersions.History (db.eventsOf id ++ [e]) row.state row.revision)
    (hwing : e.wing = row.wing) (hwings : ∀ x ∈ db.eventsOf id, x.wing = row.wing) :
    Audited db' := by
  have hof : db'.eventsOf id = db.eventsOf id ++ [e] := by
    rw [eventsOf_append hrows, if_pos hid]
  have hofOther : ∀ k, k ≠ id → db'.eventsOf k = db.eventsOf k := by
    intro k hk
    rw [eventsOf_append hrows, if_neg]
    rw [hid]
    exact fun hx => hk (Option.some.inj hx).symm
  refine ⟨fun k r hr => ?_, fun k hk => ?_, fun k r hr x hx => ?_, fun x hx => ?_⟩
  · by_cases hki : k = id
    · subst hki
      obtain rfl : row = r := Option.some.inj (hrow.symm.trans hr)
      rw [hof]
      exact hhistory
    · rw [hofOther k hki]
      exact hI.history k r ((hother k hki).symm.trans hr)
  · by_cases hki : k = id
    · subst hki
      rw [hrow] at hk
      cases hk
    · rw [hofOther k hki]
      exact hI.silent k ((hother k hki).symm.trans hk)
  · by_cases hki : k = id
    · subst hki
      obtain rfl : row = r := Option.some.inj (hrow.symm.trans hr)
      rw [hof, List.mem_append, List.mem_singleton] at hx
      rcases hx with hx | rfl
      · exact hwings x hx
      · exact hwing
    · rw [hofOther k hki] at hx
      exact hI.wing k r ((hother k hki).symm.trans hr) x hx
  · rw [hrows, List.mem_append, List.mem_singleton] at hx
    rcases hx with hx | rfl
    · obtain ⟨t, ht, hs⟩ := hI.subject x hx
      exact ⟨t, ht, h.extends.subject hs⟩
    · exact ⟨id, hid, hsubject⟩

theorem Audited.noted (hI : Audited db) (h : Outcome host db call answer db')
    (hrows : db'.events.rows = db.events.rows ++ [e]) (hid : e.taskId = some id)
    (hsubject : db'.subject e = some id) (hrow : db.tasks.get? id = some row)
    (htasks : db'.tasks = db.tasks) (hrevision : e.revision = none) (hwing : e.wing = row.wing) :
    Audited db' :=
  hI.logged h hrows hid hsubject (by rw [htasks]; exact hrow) (fun _ _ => by rw [htasks])
    (.skipped (hI.history id row hrow) hrevision) hwing (hI.wing id row hrow)

theorem Outcome.audited (h : Outcome host db call answer db') (hI : Audited db) :
    Audited db' := by
  have hout := h
  cases h with
  | rejected => exact hI
  | conflict => exact hI
  | replayed => exact hI
  | yieldedAgain => exact hI
  | @changed row row' ts e answer tasks events hts hrow hchange htasks hlog =>
    obtain ⟨hid, hwing, _, hrevision⟩ := hchange.keeps
    obtain ⟨htype, hentity, htask, hewing, herevision, hfrom, hto⟩ := hchange.event
    have hrow' : db.tasks.get? row'.taskId = some row := by rw [hid]; exact hrow
    have hget : ∀ k, tasks.get? k = if k = row.taskId then some row' else db.tasks.get? k :=
      fun k => by rw [← hid]; exact htasks.get? hrow' k
    refine hI.logged hout hlog htask ?_ ((hget row.taskId).trans (if_pos rfl))
      (fun k hk => (hget k).trans (if_neg hk)) ?_ (hewing.trans hwing.symm) ?_
    · exact (if_pos htype).trans (congrArg some hentity)
    · rw [← hto, hrevision]
      exact .advanced (hI.history _ _ hrow) (herevision.trans (congrArg some hrevision)) hfrom
    · rw [hwing]
      exact hI.wing _ _ hrow
  | @created input wing state expiresAt ts provenance details row reply tasks events hcall hwing
      hscoped hts hrow htasks hfresh hlog =>
    have hget : ∀ k, tasks.get? k = if k = row.taskId then some row else db.tasks.get? k :=
      Table.get?_append htasks hfresh
    have hnone : db.eventsOf row.taskId = [] := hI.silent _ hfresh
    refine hI.logged hout hlog rfl (if_pos rfl) ((hget row.taskId).trans (if_pos rfl))
      (fun k hk => (hget k).trans (if_neg hk)) ?_ rfl (by rw [hnone]; intro x hx; cases hx)
    rw [hnone, hrow]
    exact .created rfl rfl rfl
  | @sent input provenance task ts row details messages events hcall htask hts hrow hmessages hfresh
      hlog =>
    have htask : db.tasks.get? row.taskId = some task := by rw [hrow]; exact htask
    have hget : messages.get? row.key = some row := Table.get?_of_mem (by rw [hmessages]; simp)
    exact hI.noted hout hlog rfl ((subject_message rfl).trans (congrArg _ hget)) htask rfl rfl rfl
  | @acknowledged id actor row row' task ts messages events hcall hrow hrecipient hnew htask hts hrow'
      hmessages hlog =>
    have hget : (messages.get? row.messageId).map (·.taskId) = some row.taskId := by
      have hid := Table.get?_key hrow
      refine hout.extends.messages _ _ ?_
      rw [show row.messageId = id from hid, hrow]
      rfl
    exact hI.noted hout hlog rfl ((subject_message rfl).trans hget) htask rfl rfl rfl
  | @artifactPut input provenance task ts row details artifacts events hcall htask hts hrow hartifacts
      hfresh hlog =>
    have htask : db.tasks.get? row.taskId = some task := by rw [hrow]; exact htask
    have hget : artifacts.get? row.key = some row := Table.get?_of_mem (by rw [hartifacts]; simp)
    exact hI.noted hout hlog rfl ((subject_artifact rfl).trans (congrArg _ hget)) htask rfl rfl rfl
  | @resultPut input provenance task ts row results events hcall htask hts hrow hresults hfresh
      hlog =>
    have htask : db.tasks.get? row.taskId = some task := by rw [hrow]; exact htask
    have hget : results.get? row.key = some row := Table.get?_of_mem (by rw [hresults]; simp)
    exact hI.noted hout hlog rfl ((subject_result rfl).trans (congrArg _ hget)) htask rfl rfl rfl

end

theorem reachable_audited {w : State} (h : system.Reachable w) :
    Audited w.db := by
  refine h.invariant (I := fun w => Audited w.db) (fun a ha => ?_) fun a l b _ hI hs => ?_
  · rw [show a.db = .empty from ha]
    exact audited_empty
  · exact (step_outcome hs).audited hI

/-- The revisions of a task in the log, in sequence order. -/
def CoordinationDb.revisionLog (db : CoordinationDb) (id : String) : List Event :=
  eventVersions.versioned (db.eventsOf id)

theorem revisionLog_sorted (db : CoordinationDb) (id : String) :
    (db.revisionLog id).Pairwise fun a b => a.sequence < b.sequence :=
  (db.events.sorted.filter _).filter _

/-- **The audit log is exact**: in every reachable store the revisions logged for
a task are `0, 1, ..., revision`, each event starts from the state the ones
before it lead to, and together they lead to the stored state. Every event about
the task, or about an entity of it, carries its wing. -/
theorem audit_log_exact {w : State} (h : system.Reachable w)
    {id : String} {row : TaskRow} (hrow : w.db.tasks.get? id = some row) :
    (w.db.revisionLog id).Pairwise (fun a b => a.sequence < b.sequence) ∧
    ((w.db.revisionLog id).length : Int) = row.revision + 1 ∧
    (w.db.revisionLog id).map (·.revision) =
      (List.range (w.db.revisionLog id).length).map (fun k : Nat => some (k : Int)) ∧
    (∀ before e rest s, w.db.revisionLog id = before ++ e :: rest → e.fromState = some s →
      eventVersions.replay before = some s) ∧
    eventVersions.replay (w.db.revisionLog id) = some row.state ∧
    ∀ e ∈ w.db.events.rows, e.taskId = some id ∨ w.db.subject e = some id → e.wing = row.wing := by
  have hI := reachable_audited h
  have hhistory := hI.history id row hrow
  refine ⟨revisionLog_sorted w.db id, hhistory.length, hhistory.revisions,
    fun before e rest s hl hs => hhistory.source hl hs, hhistory.replay, fun e he hid => ?_⟩
  obtain ⟨t, htask, hsubject⟩ := hI.subject e he
  have ht : e.taskId = some id := by
    rcases hid with hid | hid
    · exact hid
    · rw [htask, ← hsubject, hid]
  exact hI.wing id row hrow e (List.mem_filter.2 ⟨he, by simpa using ht⟩)

theorem audit_log_exact_sample : ∃ row, (after sampleClaim).db.tasks.get? "task_1" = some row ∧
    row.state = .running ∧
    eventVersions.replay ((after sampleClaim).db.revisionLog "task_1") = some row.state := by
  have hsample : ((after sampleClaim).db.tasks.get? "task_1").map (·.state) = some .running := by
    decide
  obtain ⟨row, hrow, hstate⟩ := Option.map_eq_some_iff.1 hsample
  exact ⟨row, hrow, hstate,
    (audit_log_exact (reachable_after sampleClaim (by decide)) hrow).2.2.2.2.1⟩

end AgentPalace.Coordination
