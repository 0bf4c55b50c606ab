import AgentPalace.Coordination.Inversion

/-!
# The life of a task's row

`RowStep` is what a step does to the row of one task: nothing, its creation, or
one `TaskChange`. The ownership columns are coherent in every reachable state
(`Ownership`): a terminal task holds nothing, affinity and lease imply an owner,
and an owner without a lease is a parked checkpoint. A terminal row is final.
-/

namespace AgentPalace.Coordination

open Machine

theorem step_outcome {w w' : State} {l : Label}
    (h : system.Step w l w') : Outcome l.call.host w.db l.call.call l.answer w'.db := by
  have ho := l.call.outcome w.db
  have he : l.call.execute w.db = (l.answer, w'.db) := h.2.1
  rw [he] at ho
  exact ho

theorem run_clock {w w' : State} {ls : List (Label)}
    (h : Run system w ls w') : w.clock ≤ w'.clock :=
  TimedStore.clock_le h

theorem step_clock {w w' : State} {l : Label}
    (h : system.Step w l w') : w'.clock = l.call.host.now :=
  h.2.2

/-! ## What a change keeps -/

section
variable {host : Host} {db : CoordinationDb} {row row' : TaskRow} {ts : Timestamp} {call : Call}
  {answer : Answer} {e : NewEvent}

theorem TaskChange.keeps (h : TaskChange host db row ts call answer row' e) :
    row'.taskId = row.taskId ∧ row'.wing = row.wing ∧ row'.expiresAt = row.expiresAt ∧
      row'.revision = row.revision + 1 := by
  cases h <;> exact ⟨rfl, rfl, rfl, rfl⟩

theorem TaskChange.event (h : TaskChange host db row ts call answer row' e) :
    e.entityType = "task" ∧ e.entityId = row.taskId ∧ e.taskId = some row.taskId ∧
      e.wing = row.wing ∧ e.revision = some row'.revision ∧
      (∀ s, e.fromState = some s → s = row.state) ∧ e.toState.getD row.state = row'.state := by
  cases h <;> refine ⟨rfl, rfl, rfl, rfl, rfl, ?_, rfl⟩ <;> intro s hs <;> cases hs <;> rfl

end

/-! ## The row view of a step -/

/-- The columns of a row that no worker has touched. -/
structure TaskRow.Unclaimed (t : TaskRow) : Prop where
  revision : t.revision = 0
  owner : t.owner = none
  executorAffinity : t.executorAffinity = none
  leaseExpiresAt : t.leaseExpiresAt = none

inductive RowStep (host : Host) (db : CoordinationDb) (call : Call) (answer : Answer) :
    Option TaskRow → Option TaskRow → Prop where
  | kept (r : Option TaskRow) : RowStep host db call answer r r
  | created {row : TaskRow} (hnew : row.Unclaimed) : RowStep host db call answer none (some row)
  | changed {row row' : TaskRow} {ts : Timestamp} {e : NewEvent} (hts : ts.time = host.now)
      (h : TaskChange host db row ts call answer row' e) :
      RowStep host db call answer (some row) (some row')

theorem Outcome.rowStep {host : Host} {db db' : CoordinationDb} {call : Call} {answer : Answer}
    (h : Outcome host db call answer db') (id : String) :
    RowStep host db call answer (db.tasks.get? id) (db'.tasks.get? id) := by
  cases h with
  | @changed row row' ts e answer tasks events hts hrow hchange htasks _ =>
    have hid : row'.taskId = row.taskId := hchange.keeps.1
    have hget := htasks.get? (by rw [hid]; exact hrow) id
    show RowStep _ _ _ _ _ (tasks.get? id)
    by_cases hk : id = row.taskId
    · rw [hget, if_pos (hk.trans hid.symm), hk, hrow]
      exact .changed hts hchange
    · rw [hget, if_neg (hid ▸ hk)]
      exact .kept _
  | @created input wing state expiresAt ts provenance details row reply tasks events hcall hwing
      hscoped hts hrow htasks hfresh hlog =>
    have hget : tasks.get? id = if id = row.taskId then some row else db.tasks.get? id :=
      Table.get?_append htasks hfresh id
    show RowStep _ _ _ _ _ (tasks.get? id)
    by_cases hk : id = row.taskId
    · rw [hget, if_pos hk, hk, hfresh]
      exact .created (by rw [hrow]; exact ⟨rfl, rfl, rfl, rfl⟩)
    · rw [hget, if_neg hk]
      exact .kept _
  | _ => exact .kept _

theorem step_row {w w' : State} {l : Label}
    (h : system.Step w l w') (id : String) :
    RowStep l.call.host w.db l.call.call l.answer (w.db.tasks.get? id) (w'.db.tasks.get? id) :=
  (step_outcome h).rowStep id

/-- What an applied write did: one change to a row, or a repeated yield. -/
theorem Outcome.applied {host : Host} {db db' : CoordinationDb} {call : Call} {answer : Answer}
    {t : Task} (h : Outcome host db call answer db') (ht : answer = .ok (.write (.applied t))) :
    ∃ row, db.tasks.get? row.taskId = some row ∧
      ((∃ row' ts e, TaskChange host db row ts call answer row' e ∧ t = row'.toTask ∧
          db'.tasks.get? row.taskId = some row') ∨
        ∃ actor details, call = .transitionTask row.taskId actor row.revision .pending details ∧
          row.owner = some actor) := by
  cases h with
  | rejected => cases ht
  | conflict => cases ht
  | replayed hr => cases ht; cases hr
  | yieldedAgain hcall hrow howner => exact ⟨_, hrow, .inr ⟨_, _, hcall, howner⟩⟩
  | @changed row row' ts e answer tasks events hts hrow hchange htasks =>
    have hid : row'.taskId = row.taskId := hchange.keeps.1
    have hget : tasks.get? row.taskId = some row' := by
      rw [htasks.get? (by rw [hid]; exact hrow), if_pos hid.symm]
    refine ⟨row, hrow, .inl ⟨row', ts, e, hchange, ?_, hget⟩⟩
    cases hchange <;> cases ht <;> rfl
  | created hcall =>
    rcases hcall with ⟨_, _, hreply⟩ | ⟨_, _, _, hreply⟩ <;> rw [hreply] at ht <;> cases ht
  | sent => cases ht
  | acknowledged => cases ht
  | artifactPut => cases ht
  | resultPut => cases ht

/-! ## Coherence of the ownership columns -/

structure Ownership (t : TaskRow) : Prop where
  terminal : t.state.terminal → t.owner = none ∧ t.executorAffinity = none ∧ t.leaseExpiresAt = none
  affinity : ∀ e, t.executorAffinity = some e → t.owner = some e
  lease : t.leaseExpiresAt.isSome → t.owner.isSome
  parked : t.owner.isSome → t.leaseExpiresAt = none → t.state = .pending ∧ t.executorAffinity.isSome

theorem TaskRow.Unclaimed.ownership {t : TaskRow} (h : t.Unclaimed) : Ownership t where
  terminal _ := ⟨h.owner, h.executorAffinity, h.leaseExpiresAt⟩
  affinity e he := by rw [h.executorAffinity] at he; cases he
  lease hl := by rw [h.leaseExpiresAt] at hl; cases hl
  parked ho := by rw [h.owner] at ho; cases ho

section
variable {host : Host} {db : CoordinationDb} {row row' : TaskRow} {ts : Timestamp} {call : Call}
  {answer : Answer} {e : NewEvent}

theorem TaskChange.live (h : TaskChange host db row ts call answer row' e) (ho : Ownership row) :
    row.state.terminal = false := by
  by_contra hterm
  rw [Bool.not_eq_false] at hterm
  cases h with
  | expired hstate => rw [hstate] at hterm; cases hterm
  | claimed hstate => rw [hstate] at hterm; cases hterm
  | renewed howner => rw [(ho.terminal hterm).1] at howner; cases howner
  | yielded _ howner => rw [(ho.terminal hterm).1] at howner; cases howner
  | moved _ _ hallowed => simp [allowedTransition, hterm] at hallowed

theorem TaskChange.ownership (h : TaskChange host db row ts call answer row' e)
    (ho : Ownership row) : Ownership row' := by
  have hlive := h.live ho
  cases h with
  | expired => exact ⟨fun _ => ⟨rfl, rfl, rfl⟩, nofun, nofun, nofun⟩
  | claimed _ _ haffinity =>
    exact ⟨nofun, fun e he => congrArg some (haffinity e he).symm, fun _ => rfl, nofun⟩
  | renewed howner =>
    refine ⟨fun hterm => ?_, ho.affinity, fun _ => ?_, nofun⟩
    · exact absurd (hlive.symm.trans hterm) nofun
    · show row.owner.isSome
      rw [howner]; rfl
  | yielded => exact ⟨nofun, fun e he => he, nofun, fun _ _ => ⟨rfl, rfl⟩⟩
  | @moved actor target details hyield hnames hallowed howner =>
    by_cases hterm : target.terminal = true
    · refine ⟨fun _ => ⟨if_pos hterm, if_pos hterm, if_pos hterm⟩, fun e he => ?_, fun hl => ?_,
        fun hs _ => ?_⟩
      · rw [show (row.move target ts).executorAffinity = none from if_pos hterm] at he
        cases he
      · rw [show (row.move target ts).leaseExpiresAt = none from if_pos hterm] at hl
        cases hl
      · rw [show (row.move target ts).owner = none from if_pos hterm] at hs
        cases hs
    · have hown : (row.move target ts).owner = row.owner := if_neg hterm
      have haff : (row.move target ts).executorAffinity = row.executorAffinity := if_neg hterm
      have hlea : (row.move target ts).leaseExpiresAt = row.leaseExpiresAt := if_neg hterm
      refine ⟨fun ht => absurd ht hterm, fun e he => ?_, fun hl => ?_, fun hs hl => ?_⟩
      · rw [hown]; exact ho.affinity e (haff ▸ he)
      · rw [hown]; exact ho.lease (hlea ▸ hl)
      · -- a parked task is pending, and a pending task moves only to terminal states
        obtain ⟨hpending, _⟩ := ho.parked (hown ▸ hs) (hlea ▸ hl)
        rw [hpending] at hallowed
        cases target <;> simp_all [allowedTransition, TaskState.terminal]

end

/-- **Coherence**: the ownership columns of every row of a reachable store agree. -/
theorem reachable_ownership {w : State} (h : system.Reachable w) :
    ∀ id row, w.db.tasks.get? id = some row → Ownership row := by
  refine h.invariant (I := fun w => ∀ id row, w.db.tasks.get? id = some row → Ownership row)
    (fun a ha => ?_) fun a l b _ hI hs id row hrow => ?_
  · rintro id row hrow
    rw [show a.db = .empty from ha, CoordinationDb.get?_tasks_empty] at hrow
    cases hrow
  · have hstep := step_row hs id
    rw [hrow] at hstep
    generalize hb : a.db.tasks.get? id = r at hstep
    cases hstep with
    | kept => exact hI id row hb
    | created hnew => exact hnew.ownership
    | changed _ hc => exact hc.ownership (hI id _ hb)

/-- **Finality**: no run changes a terminal row. -/
theorem terminal_final {w w' : State}
    {ls : List (Label)} (h : system.Reachable w) (hrun : Run system w ls w')
    {id : String} {row : TaskRow} (hrow : w.db.tasks.get? id = some row)
    (hterm : row.state.terminal) : w'.db.tasks.get? id = some row := by
  refine hrun.stable (P := fun x => x.db.tasks.get? id = some row) (fun x l y hx _ hP hs => ?_) h hrow
  have hstep := step_row hs id
  rw [hP] at hstep
  generalize hy : y.db.tasks.get? id = r at hstep
  cases hstep with
  | kept => rfl
  | changed _ hc =>
    have hlive := hc.live (reachable_ownership hx id row hP)
    rw [hlive] at hterm
    cases hterm

/-- **Ownership of a task** in every reachable store: a terminal task holds
nothing and is final, affinity and lease belong to the owner, and an owner has a
lease unless the task is parked at a checkpoint. -/
theorem ownership_coherent {w : State} (h : system.Reachable w)
    {id : String} {row : TaskRow} (hrow : w.db.tasks.get? id = some row) :
    (row.state.terminal →
      (row.owner = none ∧ row.executorAffinity = none ∧ row.leaseExpiresAt = none) ∧
      ∀ ls w', Run system w ls w' → w'.db.tasks.get? id = some row) ∧
    (∀ e, row.executorAffinity = some e → row.owner = some e) ∧
    (row.leaseExpiresAt.isSome → row.owner.isSome) ∧
    (row.owner.isSome → row.state = .running ∨ row.state = .inputRequired →
      row.leaseExpiresAt.isSome) ∧
    (row.owner.isSome → row.leaseExpiresAt = none →
      row.state = .pending ∧ row.executorAffinity.isSome) := by
  have ho := reachable_ownership h id row hrow
  refine ⟨fun hterm => ⟨ho.terminal hterm, fun ls w' hrun => terminal_final h hrun hrow hterm⟩,
    ho.affinity, ho.lease, fun howner hstate => ?_, ho.parked⟩
  cases hl : row.leaseExpiresAt with
  | some l => rfl
  | none =>
    have hpending := (ho.parked howner hl).1
    rw [hpending] at hstate
    rcases hstate with hs | hs <;> cases hs

theorem ownership_coherent_sample : ∃ row, (after sampleClaim).db.tasks.get? "task_1" = some row ∧
    row.owner = some "ada" ∧ row.leaseExpiresAt.isSome := by
  have hsample : ((after sampleClaim).db.tasks.get? "task_1").map (fun r => (r.owner, r.state)) =
    some (some "ada", .running) := by decide
  obtain ⟨row, hrow, hr⟩ := Option.map_eq_some_iff.1 hsample
  obtain ⟨howner, hstate⟩ := Prod.mk.inj hr
  refine ⟨row, hrow, howner, ?_⟩
  exact (ownership_coherent (reachable_after sampleClaim (by decide)) hrow).2.2.2.1
    (by rw [howner]; rfl) (.inl hstate)

end AgentPalace.Coordination
