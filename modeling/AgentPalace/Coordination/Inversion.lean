import AgentPalace.Coordination.Outcome

/-!
# A call does what its outcome says

One theorem per operation, each following the body from its first check to its
commit with the rules of `Tx.wp`; `Request.outcome` puts them together.
-/

namespace AgentPalace.Coordination

open Tx

/-! ## Rules of the shared statements -/

section
variable {α : Type} {E : StorageError → Prop} {Q : Except StorageError α → Session CoordinationDb → Prop}
  {db w : CoordinationDb}

theorem wp_requireTask_some {id : String} {t : TaskRow} {f : TaskRow → CTx α}
    (ht : w.tasks.get? id = some t) (h : wp (f t) Q ⟨db, w⟩) :
    wp (requireTask id >>= f) Q ⟨db, w⟩ := by
  unfold requireTask getTask
  refine wp_assoc (wp_query ?_)
  rw [ht]
  exact h

theorem wp_requireTask {id : String} {f : TaskRow → CTx α} (hQ : Rejects E Q db)
    (h : ∀ t, w.tasks.get? id = some t → wp (f t) Q ⟨db, w⟩)
    (he : E (.invariant s!"task `{id}`{notFoundSuffix}")) :
    wp (requireTask id >>= f) Q ⟨db, w⟩ := by
  cases ht : w.tasks.get? id with
  | some t => exact wp_requireTask_some ht (h t ht)
  | none =>
    unfold requireTask getTask
    refine wp_assoc (wp_query ?_)
    rw [ht]
    exact hQ _ _ he rfl

theorem wp_taskWing {taskId : String} {f : String → CTx α} (hQ : Rejects (fun _ => True) Q db)
    (h : ∀ t, w.tasks.get? taskId = some t → wp (f t.wing) Q ⟨db, w⟩) :
    wp (taskWing taskId >>= f) Q ⟨db, w⟩ := by
  unfold taskWing getTask
  refine wp_assoc (wp_query ?_)
  cases ht : w.tasks.get? taskId with
  | some t => exact h t ht
  | none => exact hQ _ _ trivial rfl

theorem wp_appendEvent {host : Host} {e : NewEvent} {ts : Timestamp} {f : Unit → CTx α}
    (hQ : Rejects E Q db) (hts : formatTime host.now = .ok ts)
    (h : ∀ events, Logged host ts e w.events events → wp (f ()) Q ⟨db, { w with events := events }⟩)
    (he : ∀ fault, E (.sqlite fault)) : wp (appendEvent host e >>= f) Q ⟨db, w⟩ := by
  unfold appendEvent
  rw [hts]
  refine wp_assoc (wp_exec hQ (fun w' hw' => ?_) fun x hx => ?_)
  · cases ha : w.events.append? (e.stamp ("event_" ++ host.eventUuid) ts) with
    | error fault => rw [ha] at hw'; cases hw'
    | ok events =>
      rw [ha] at hw'
      cases hw'
      exact h events (Series.rows_append? ha).1
  · cases ha : w.events.append? (e.stamp ("event_" ++ host.eventUuid) ts) with
    | error fault => rw [ha] at hx; cases hx; exact he fault
    | ok events => rw [ha] at hx; cases hx

end

theorem wp_finish {E : StorageError → Prop}
    {Q : Except StorageError (RevisionedWrite Task) → Session CoordinationDb → Prop}
    {db : CoordinationDb} {host : Host} {id : String} {row row' : TaskRow} {e : NewEvent}
    {ts : Timestamp} {tasks : Series TaskRow.key TaskRow.sequence} (hQ : Rejects E Q db)
    (hts : formatTime host.now = .ok ts) (hrow : db.tasks.get? id = some row)
    (htasks : Replaced row' db.tasks tasks) (hid : row'.taskId = id)
    (h : ∀ events s, Logged host ts e db.events events →
      s.committed = { db with tasks := tasks, events := events } →
      Q (.ok (.applied row'.toTask)) s)
    (he : ∀ fault, E (.sqlite fault)) :
    wp (do
      appendEvent host e
      let result ← requireTask id
      Tx.commit
      return .applied result.toTask) Q ⟨db, { db with tasks := tasks }⟩ := by
  refine wp_appendEvent hQ hts (fun events hlog => ?_) he
  subst hid
  have hget : tasks.get? row'.taskId = some row' := by rw [htasks.get? hrow, if_pos rfl]
  exact wp_requireTask_some hget (wp_commit (wp_pure (h events _ hlog rfl)))

theorem wp_update {α : Type} {Q : Except StorageError α → Session CoordinationDb → Prop}
    {db w : CoordinationDb} {row : TaskRow} (row' : TaskRow) {f : TaskRow → TaskRow}
    {hf : ∀ r, (f r).key = r.key} {hs : ∀ r, (f r).sequence = r.sequence} {k : Unit → CTx α}
    (hrow : w.tasks.get? row.taskId = some row) (hid : row'.taskId = row.taskId)
    (hfr : f row = row')
    (h : ∀ tasks, Replaced row' w.tasks tasks → wp (k ()) Q ⟨db, { w with tasks := tasks }⟩) :
    wp ((exec fun d => .ok { d with tasks := d.tasks.modify row.taskId f hf hs }) >>= k) Q
      ⟨db, w⟩ := by
  refine wp_write (h _ ?_)
  unfold Replaced
  rw [hid, ← hfr]
  exact Table.rows_modify w.tasks.toTable f hf hrow

/-! ## The operations on a task's row -/

variable (host : Host) (db : CoordinationDb)

/-- Errors other than the one that follows a commit. -/
def NotExpiry (x : StorageError) : Prop := x ≠ .invariant taskHasExpired

theorem notExpiry_of_message {message : String} (h : message ≠ taskHasExpired) :
    NotExpiry (.invariant message) := fun hx => h (StorageError.invariant.inj hx)

theorem notExpiry_validateActor {v : String} (x : StorageError) (h : validateActor v = .error x) :
    NotExpiry x := by
  unfold validateActor at h
  split at h
  · cases h; exact notExpiry_of_message (by decide)
  · cases h

theorem notExpiry_validateTtl {ttl : Duration} (x : StorageError) (h : validateTtl ttl = .error x) :
    NotExpiry x := by
  unfold validateTtl at h
  split at h
  · cases h; exact notExpiry_of_message (by decide)
  · cases h

theorem notExpiry_okOr {α : Type} {o : Option α} {message : String} (hm : message ≠ taskHasExpired)
    (x : StorageError) (h : okOr o message = .error x) : NotExpiry x := by
  unfold okOr at h
  split at h
  · cases h
  · cases h; exact notExpiry_of_message hm

theorem notExpiry_formatTime {t : OffsetDateTime} (x : StorageError) (h : formatTime t = .error x) :
    NotExpiry x := by
  unfold formatTime at h
  split at h
  · cases h
  · cases h
    refine notExpiry_of_message fun hm => ?_
    have hl := congrArg String.toList hm
    simp [taskHasExpired, toString] at hl

theorem notExpiry_notFound (id : String) : NotExpiry (.invariant s!"task `{id}`{notFoundSuffix}") := by
  refine notExpiry_of_message fun hm => ?_
  have hl := congrArg String.toList hm
  simp [taskHasExpired, toString] at hl

theorem any_le_iff {now : OffsetDateTime} {o : Option Timestamp} :
    (o.any fun v => v.time ≤ now) = true ↔ ∃ d, o = some d ∧ d.time ≤ now := by
  cases o <;> simp

theorem before_of_not_any {now : OffsetDateTime} {o : Option Timestamp}
    (h : ¬ (o.any fun v => v.time ≤ now) = true) : Before now o := by
  intro d hd
  rw [any_le_iff] at h
  exact OffsetDateTime.not_le.1 fun hle => h ⟨d, hd, hle⟩

theorem claimTask_outcome (id worker : String) (expectedRevision : Int) (ttl : Duration) :
    wp (claimTask host id worker expectedRevision ttl) (fun r s =>
      Outcome host db (.claimTask id worker expectedRevision ttl) (r.map .write) s.committed)
      ⟨db, db⟩ := by
  have hQ : Rejects NotExpiry (fun r s =>
      Outcome host db (.claimTask id worker expectedRevision ttl) (r.map .write) s.committed) db := by
    intro e s he hs
    rw [hs]
    exact .rejected fun _ => he
  unfold claimTask
  refine wp_lift_of hQ (fun _ _ => ?_) notExpiry_validateActor
  refine wp_lift_of hQ (fun _ httl => ?_) notExpiry_validateTtl
  refine wp_requireTask hQ (fun task htask => ?_) (notExpiry_notFound id)
  obtain rfl := taskId_of_get? htask
  refine wp_ite (fun _ => .conflict _) fun hrev => ?_
  obtain rfl : task.revision = expectedRevision := not_not.1 hrev
  refine wp_guard_of hQ (fun hstate => ?_) (notExpiry_of_message (by decide))
  refine wp_ite (fun hdue => ?_) fun hdue => ?_
  · -- the deadline has passed: the row is expired and committed before the error
    obtain ⟨deadline, hdeadline, hle⟩ := any_le_iff.1 hdue
    refine wp_lift_of hQ (fun ts hts => ?_) notExpiry_formatTime
    refine wp_update (task.expire ts) htask rfl rfl fun tasks htasks => ?_
    refine wp_appendEvent hQ hts (fun events hlog => wp_commit (wp_throw ?_)) fun _ => nofun
    exact .changed (time_of_formatTime hts) htask (.expired (by simpa using hstate) hdeadline hle)
      htasks hlog
  · refine wp_guard_of hQ (fun haffinity => ?_) (notExpiry_of_message (by decide))
    refine wp_guard_of hQ (fun hlease => ?_) (notExpiry_of_message (by decide))
    refine wp_lift_of hQ (fun expires hexpires => ?_) (notExpiry_okOr (by decide))
    refine wp_lift_of hQ (fun expiry hexpiry => ?_) notExpiry_formatTime
    refine wp_lift_of hQ (fun ts hts => ?_) notExpiry_formatTime
    refine wp_query (wp_update (task.claim worker expiry ts) htask rfl (if_pos rfl)
      fun tasks htasks => ?_)
    refine wp_ite (fun hchanged => ?_) fun _ => ?_
    · rw [htask] at hchanged
      simp at hchanged
    refine wp_finish hQ hts htask htasks rfl (fun events s hlog hs => ?_) fun _ => nofun
    rw [hs]
    refine .changed (time_of_formatTime hts) htask (.claimed (by simpa using hstate)
      (before_of_not_any hdue) ?_ ?_ (validateTtl_ok httl) ?_) htasks hlog
    · intro e he
      simpa [he] using haffinity
    · intro o l ho hl hlt
      by_contra hne
      simp [ho, hl, hne, hlt] at hlease
    · rw [time_of_formatTime hexpiry]
      exact OffsetDateTime.nanos_checkedAdd (okOr_ok.1 hexpires)

/-- A call other than a claim may be refused with any error. -/
theorem rejects_outcome {α : Type} (call : Call) (hcall : call.isClaim = false) (g : α → Reply) :
    Rejects (fun _ => True) (fun r s => Outcome host db call (r.map g) s.committed) db := by
  intro e s _ hs
  rw [hs]
  exact .rejected fun h => by rw [hcall] at h; cases h

theorem renewLease_outcome (id worker : String) (expectedRevision : Int) (ttl : Duration) :
    wp (renewLease host id worker expectedRevision ttl) (fun r s =>
      Outcome host db (.renewLease id worker expectedRevision ttl) (r.map .write) s.committed)
      ⟨db, db⟩ := by
  have hQ := rejects_outcome host db (.renewLease id worker expectedRevision ttl) rfl
    Reply.write
  unfold renewLease
  refine wp_lift hQ fun _ _ => ?_
  refine wp_lift hQ fun _ httl => ?_
  refine wp_requireTask hQ (fun task htask => ?_) trivial
  obtain rfl := taskId_of_get? htask
  refine wp_ite (fun _ => .conflict _) fun hrev => ?_
  obtain rfl : task.revision = expectedRevision := not_not.1 hrev
  refine wp_guard hQ fun howner => ?_
  refine wp_guard hQ fun hlease => ?_
  refine wp_lift hQ fun expires hexpires => ?_
  refine wp_lift hQ fun expiry hexpiry => ?_
  refine wp_lift hQ fun ts hts => ?_
  refine wp_update (task.renew expiry ts) htask rfl rfl fun tasks htasks => ?_
  refine wp_finish hQ hts htask htasks rfl (fun events s hlog hs => ?_) fun _ => trivial
  rw [hs]
  obtain ⟨lease, hsome, hlive⟩ : ∃ l, task.leaseExpiresAt = some l ∧ host.now < l.time := by
    cases hl : task.leaseExpiresAt with
    | none => simp [hl] at hlease
    | some l => exact ⟨l, rfl, OffsetDateTime.not_le.1 (by simpa [hl] using hlease)⟩
  refine .changed (time_of_formatTime hts) htask (.renewed (not_not.1 howner) hsome hlive
    (validateTtl_ok httl) ?_) htasks hlog
  rw [time_of_formatTime hexpiry]
  exact OffsetDateTime.nanos_checkedAdd (okOr_ok.1 hexpires)

theorem checkHandoff_readOnly (id : String) (handoff : CheckpointHandoff) :
    ReadOnly (checkHandoff id handoff) fun db _ => Checkpointed db id handoff := by
  rintro ⟨db, w⟩
  show wp _ (fun r s' => s' = ⟨db, w⟩ ∧ ∀ b, r = .ok b → Checkpointed w id handoff) ⟨db, w⟩
  unfold checkHandoff
  refine wp_ite (fun _ => wp_throw ⟨rfl, nofun⟩) fun hblank => wp_query ?_
  cases hart : w.artifacts.get? handoff.artifactId with
  | none => exact ⟨rfl, nofun⟩
  | some a =>
    refine wp_ite (fun _ => ⟨rfl, nofun⟩) fun hmeta => ⟨rfl, fun _ _ => ?_⟩
    simp only [ne_eq, Bool.or_eq_true, decide_eq_true_eq, not_or, not_not] at hmeta
    exact ⟨by simpa using hblank, a, hart, hmeta.1, hmeta.2⟩

theorem details_of_parseYield {details : Option Json} {r : Json × YieldDetails}
    (h : parseYield details = .ok r) : details = some r.1 := by
  unfold parseYield at h
  cases details with
  | none => cases h
  | some d =>
    simp only [okOr, bind, Except.bind] at h
    repeat (split at h; · cases h)
    cases h
    rfl

theorem yieldTask_outcome (actor : String) (task : TaskRow) (details : Option Json)
    (htask : db.tasks.get? task.taskId = some task)
    (hyield : yielding task.toTask .pending = true) :
    wp (yieldTask host task.taskId actor task details) (fun r s =>
      Outcome host db (.transitionTask task.taskId actor task.revision .pending details)
        (r.map .write) s.committed) ⟨db, db⟩ := by
  have hQ := rejects_outcome host db
    (.transitionTask task.taskId actor task.revision .pending details) rfl Reply.write
  unfold yieldTask
  refine wp_guard hQ fun howner => ?_
  have howner : task.owner = some actor := not_not.1 howner
  refine wp_guard hQ fun hdue => ?_
  refine wp_guard hQ fun hlease => ?_
  refine wp_lift hQ fun r hparsed => ?_
  obtain rfl := details_of_parseYield hparsed
  obtain ⟨details, parsed⟩ := r
  refine wp_read (readOnly_optionForM fun h => checkHandoff_readOnly task.taskId h) hQ
    fun _ hhandoff => ?_
  refine wp_ite (fun hagain => ?_) fun hagain => ?_
  · simp only [Bool.and_eq_true, decide_eq_true_eq, Option.isNone_iff_eq_none] at hagain
    exact .yieldedAgain rfl htask howner hagain.1.1 hagain.1.2
  refine wp_lift hQ fun ts hts => ?_
  refine wp_update (task.yield ((parsed.checkpointHandoff.map (·.executor)).getD actor) ts) htask
    rfl rfl fun tasks htasks => ?_
  refine wp_finish hQ hts htask htasks rfl (fun events s hlog hs => ?_) fun _ => trivial
  rw [hs]
  refine .changed (time_of_formatTime hts) htask (.yielded hyield howner (before_of_not_any hdue) ?_
    hparsed rfl hhandoff ?_) htasks hlog
  · intro hrun
    cases hl : task.leaseExpiresAt with
    | none => simp [hrun, hl] at hlease
    | some l => exact ⟨l, rfl, OffsetDateTime.not_le.1 (by simpa [hrun, hl] using hlease)⟩
  · simpa [and_assoc] using hagain

theorem transitionTask_outcome (id actor : String) (expectedRevision : Int) (target : TaskState)
    (details : Option Json) :
    wp (transitionTask host id actor expectedRevision target details) (fun r s =>
      Outcome host db (.transitionTask id actor expectedRevision target details) (r.map .write)
        s.committed) ⟨db, db⟩ := by
  have hQ := rejects_outcome host db
    (.transitionTask id actor expectedRevision target details) rfl Reply.write
  unfold transitionTask
  refine wp_lift hQ fun _ _ => ?_
  refine wp_requireTask hQ (fun task htask => ?_) trivial
  obtain rfl := taskId_of_get? htask
  refine wp_ite (fun _ => .conflict _) fun hrev => ?_
  obtain rfl : task.revision = expectedRevision := not_not.1 hrev
  refine wp_guard hQ fun hnames => ?_
  refine wp_ite (fun hyield => ?_) fun hyield => ?_
  · obtain rfl : target = .pending := by simp [yielding] at hyield; exact hyield.1
    exact yieldTask_outcome host db actor task details htask hyield
  refine wp_guard hQ fun hallowed => ?_
  refine wp_guard hQ fun howner => ?_
  refine wp_lift hQ fun ts hts => ?_
  refine wp_update (task.move target ts) htask rfl rfl fun tasks htasks => ?_
  refine wp_finish hQ hts htask htasks rfl (fun events s hlog hs => ?_) fun _ => trivial
  rw [hs]
  rw [Bool.not_eq_true] at hyield
  refine .changed (time_of_formatTime hts) htask (.moved hyield (by simpa [hyield] using hnames)
    (by simpa using hallowed) ?_) htasks hlog
  intro o ho
  by_contra hne
  simp [ho] at howner hne
  exact hne.2 (howner hne.1)

/-! ## The operations that insert a row -/

theorem requireTask_readOnly (id : String) :
    ReadOnly (discard (requireTask id)) fun db _ => ∃ t, db.tasks.get? id = some t := by
  rintro ⟨db, w⟩
  show wp _ (fun r s' => s' = ⟨db, w⟩ ∧ ∀ b, r = .ok b → ∃ t, w.tasks.get? id = some t) ⟨db, w⟩
  unfold discard requireTask getTask
  refine wp_map (wp_query ?_)
  cases ht : w.tasks.get? id with
  | none => exact ⟨rfl, nofun⟩
  | some t => exact ⟨rfl, fun _ _ => ⟨t, rfl⟩⟩

theorem createTaskWithState_outcome (call : Call) (input : NewTask) (state : TaskState)
    (isImport : Bool) (provenance : Option Json) (g : Task × Bool → Reply)
    (hclaim : call.isClaim = false) (hreplay : ∀ r, (g r).isWrite = false)
    (hcall : ∀ t, call = .createTask input provenance ∧ state = .pending ∧ g (t, false) = .task t ∨
      call = .importTask input state ∧ provenance = none ∧ state ≠ .expired ∧
        g (t, false) = .imported ⟨t, false⟩) :
    wp (createTaskWithState host input state isImport provenance) (fun r s =>
      Outcome host db call (r.map g) s.committed) ⟨db, db⟩ := by
  have hQ := rejects_outcome host db call hclaim g
  unfold createTaskWithState
  refine wp_lift hQ fun _ _ => ?_
  refine wp_lift hQ fun _ _ => ?_
  refine wp_lift hQ fun _ _ => ?_
  refine wp_lift hQ fun _ _ => ?_
  refine wp_lift hQ fun _ _ => ?_
  refine wp_lift hQ fun wing hwing => ?_
  refine wp_guard hQ fun hscoped => ?_
  refine wp_query ?_
  cases db.tasks.rows.find? fun t => t.createdBy = input.createdBy ∧
      t.idempotencyKey = input.idempotencyKey with
  | some task => exact wp_commit (wp_pure (.replayed (hreplay _)))
  | none =>
    refine wp_read (readOnly_listForM requireTask_readOnly) hQ fun _ _ => ?_
    refine wp_lift hQ fun expiresAt _ => ?_
    refine wp_lift hQ fun ts hts => ?_
    refine wp_sql hQ fun tasks happend => ?_
    obtain ⟨row, hrow, hrows, hfresh, hget⟩ :=
      Table.appended (input.row host wing state expiresAt ts provenance db.tasks.next)
        (Series.rows_append? happend)
    refine wp_appendEvent hQ hts (fun events hlog => wp_query ?_) fun _ => trivial
    refine wp_lift hQ fun created hcreated => ?_
    obtain rfl : row = created := by
      have hid : row.taskId = "task_" ++ host.uuid := by rw [hrow]; rfl
      exact Option.some.inj (hget.symm.trans ((congrArg tasks.get? hid).trans (okOr_ok.1 hcreated)))
    have hwing : WingId.normalized input.wing = .ok wing := by
      cases hw : WingId.normalized input.wing with
      | error x => rw [hw] at hwing; cases hwing
      | ok v => rw [hw] at hwing; cases hwing; rfl
    exact wp_commit (wp_pure (Outcome.created (hcall row.toTask) hwing hscoped (time_of_formatTime hts) hrow
      hrows hfresh (by rw [hrow]; exact hlog)))

theorem createTask_outcome (input : NewTask) (provenance : Option Json) :
    wp (createTask host input provenance) (fun r s =>
      Outcome host db (.createTask input provenance) (r.map .task) s.committed) ⟨db, db⟩ := by
  have h := createTaskWithState_outcome host db (.createTask input provenance) input .pending false
    provenance (fun r => .task r.1) rfl (fun _ => rfl) fun _ => .inl ⟨rfl, rfl, rfl⟩
  unfold createTask
  refine wp_bind ?_
  unfold wp at *
  cases hr : (createTaskWithState host input .pending false provenance ⟨db, db⟩).1 with
  | ok r => rw [hr] at h; exact h
  | error e => rw [hr] at h; exact h

theorem importTask_outcome (input : NewTask) (initialState : TaskState) :
    wp (importTask host input initialState) (fun r s =>
      Outcome host db (.importTask input initialState) (r.map .imported) s.committed) ⟨db, db⟩ := by
  have hQ := rejects_outcome host db (.importTask input initialState) rfl Reply.imported
  unfold importTask
  refine wp_guard hQ fun hstate => ?_
  have h := createTaskWithState_outcome host db (.importTask input initialState) input initialState
    true none (fun r => .imported ⟨r.1, r.2⟩) rfl (fun _ => rfl)
    fun _ => .inr ⟨rfl, rfl, hstate, rfl⟩
  refine wp_bind ?_
  unfold wp at *
  cases hr : (createTaskWithState host input initialState true none ⟨db, db⟩).1 with
  | ok r => rw [hr] at h; exact h
  | error e => rw [hr] at h; exact h

theorem sendMessage_outcome (input : NewMessage) (provenance : Option Json) :
    wp (sendMessage host input provenance) (fun r s =>
      Outcome host db (.sendMessage input provenance) (r.map .message) s.committed) ⟨db, db⟩ := by
  have hQ := rejects_outcome host db (.sendMessage input provenance) rfl Reply.message
  unfold sendMessage
  refine wp_lift hQ fun _ _ => ?_
  refine wp_lift hQ fun _ _ => ?_
  refine wp_lift hQ fun _ _ => ?_
  refine wp_lift hQ fun _ _ => ?_
  refine wp_query ?_
  cases db.messages.rows.find? fun m => m.sender = input.sender ∧
      m.idempotencyKey = input.idempotencyKey with
  | some message => exact wp_commit (wp_pure (.replayed rfl))
  | none =>
    refine wp_requireTask hQ (fun task htask => ?_) trivial
    refine wp_lift hQ fun ts hts => ?_
    refine wp_sql hQ fun messages happend => ?_
    obtain ⟨row, hrow, hrows, hfresh, hget⟩ :=
      Table.appended (input.row host ts provenance db.messages.next) (Series.rows_append? happend)
    have hid : "message_" ++ host.uuid = row.messageId := by rw [hrow]; rfl
    rw [hid]
    refine wp_appendEvent hQ hts (fun events hlog => wp_query ?_) fun _ => trivial
    refine wp_lift hQ fun created hcreated => ?_
    obtain rfl : row = created := Option.some.inj (hget.symm.trans (okOr_ok.1 hcreated))
    exact wp_commit (wp_pure (Outcome.sent rfl htask (time_of_formatTime hts) hrow hrows hfresh
      (by rw [hrow] at hlog ⊢; exact hlog)))

theorem acknowledgeMessage_outcome (id actor : String) :
    wp (acknowledgeMessage host id actor) (fun r s =>
      Outcome host db (.acknowledgeMessage id actor) (r.map .message) s.committed) ⟨db, db⟩ := by
  have hQ := rejects_outcome host db (.acknowledgeMessage id actor) rfl Reply.message
  unfold acknowledgeMessage
  refine wp_query (wp_lift hQ fun row hrow => ?_)
  have hrow : db.messages.get? id = some row := okOr_ok.1 hrow
  refine wp_guard hQ fun hrecipient => ?_
  refine wp_ite (fun _ => wp_commit (wp_pure (.replayed rfl))) fun hnew => ?_
  refine wp_taskWing hQ fun task htask => ?_
  refine wp_lift hQ fun ts hts => ?_
  refine wp_write (wp_appendEvent hQ hts (fun events hlog => wp_query ?_) fun _ => trivial)
  refine wp_lift hQ fun found hfound => ?_
  have hid : row.key = id := Table.get?_key hrow
  have hrows := Table.rows_modify db.messages.toTable (fun m : MessageRow =>
    { m with acknowledgedAt := some ts, acknowledgedBy := some actor }) (fun _ => rfl) hrow
  subst hid
  have hget := Table.get?_replace
    { row with acknowledgedAt := some ts, acknowledgedBy := some actor } hrows hrow row.key
  rw [if_pos rfl] at hget
  cases Option.some.inj (hget.symm.trans (okOr_ok.1 hfound))
  exact wp_commit (wp_pure (Outcome.acknowledged rfl hrow (not_not.1 hrecipient)
    (by simpa using hnew) htask (time_of_formatTime hts) rfl hrows hlog))

theorem putArtifact_outcome (input : NewArtifact) (provenance : Option Json) :
    wp (putArtifact host input provenance) (fun r s =>
      Outcome host db (.putArtifact input provenance) (r.map .artifact) s.committed) ⟨db, db⟩ := by
  have hQ := rejects_outcome host db (.putArtifact input provenance) rfl Reply.artifact
  unfold putArtifact
  refine wp_lift hQ fun _ _ => ?_
  refine wp_lift hQ fun _ _ => ?_
  refine wp_guard hQ fun _ => wp_query ?_
  cases db.artifacts.rows.find? fun a => a.createdBy = input.createdBy ∧
      a.idempotencyKey = input.idempotencyKey with
  | some artifact => exact wp_commit (wp_pure (.replayed rfl))
  | none =>
    refine wp_requireTask hQ (fun task htask => ?_) trivial
    refine wp_lift hQ fun ts hts => ?_
    refine wp_sql hQ fun artifacts hinsert => ?_
    obtain ⟨row, hrow, hrows, hfresh, hget⟩ :=
      Table.appended (input.row host ts provenance) (Table.rows_insert? hinsert)
    have hid : "artifact_" ++ host.uuid = row.artifactId := by rw [hrow]; rfl
    rw [hid]
    refine wp_appendEvent hQ hts (fun events hlog => wp_query ?_) fun _ => trivial
    refine wp_lift hQ fun created hcreated => ?_
    obtain rfl : row = created := Option.some.inj (hget.symm.trans (okOr_ok.1 hcreated))
    exact wp_commit (wp_pure (Outcome.artifactPut rfl htask (time_of_formatTime hts) hrow hrows
      hfresh (by rw [hrow] at hlog ⊢; exact hlog)))

theorem putResult_outcome (input : NewTaskResult) (provenance : Option Json) :
    wp (putResult host input provenance) (fun r s =>
      Outcome host db (.putResult input provenance) (r.map .result) s.committed) ⟨db, db⟩ := by
  have hQ := rejects_outcome host db (.putResult input provenance) rfl Reply.result
  unfold putResult
  refine wp_lift hQ fun _ _ => ?_
  refine wp_lift hQ fun _ _ => ?_
  refine wp_lift hQ fun _ _ => wp_query ?_
  cases db.results.rows.find? fun r => r.createdBy = input.createdBy ∧
      r.idempotencyKey = input.idempotencyKey with
  | some result => exact wp_commit (wp_pure (.replayed rfl))
  | none =>
    refine wp_requireTask hQ (fun task htask => ?_) trivial
    refine wp_lift hQ fun ts hts => ?_
    refine wp_sql hQ fun results hinsert => ?_
    obtain ⟨row, hrow, hrows, hfresh, hget⟩ :=
      Table.appended (input.row host ts provenance) (Table.rows_insert? hinsert)
    have hid : "result_" ++ host.uuid = row.resultId := by rw [hrow]; rfl
    rw [hid]
    refine wp_appendEvent hQ hts (fun events hlog => wp_query ?_) fun _ => trivial
    refine wp_lift hQ fun created hcreated => ?_
    obtain rfl : row = created := Option.some.inj (hget.symm.trans (okOr_ok.1 hcreated))
    exact wp_commit (wp_pure (Outcome.resultPut rfl htask (time_of_formatTime hts) hrow hrows
      hfresh (by rw [hrow] at hlog ⊢; exact hlog)))

/-- **Every call** does what one of its outcomes says. -/
theorem Request.outcome (r : Request) (db : CoordinationDb) :
    Outcome r.host db r.call (r.execute db).1 (r.execute db).2 := by
  obtain ⟨host, call⟩ := r
  refine run_of_wp ?_
  cases call with
  | createTask input provenance => exact wp_map (createTask_outcome host db input provenance)
  | importTask input state => exact wp_map (importTask_outcome host db input state)
  | claimTask id worker rev ttl => exact wp_map (claimTask_outcome host db id worker rev ttl)
  | renewLease id worker rev ttl => exact wp_map (renewLease_outcome host db id worker rev ttl)
  | transitionTask id actor rev target details =>
    exact wp_map (transitionTask_outcome host db id actor rev target details)
  | sendMessage input provenance => exact wp_map (sendMessage_outcome host db input provenance)
  | acknowledgeMessage id actor => exact wp_map (acknowledgeMessage_outcome host db id actor)
  | putArtifact input provenance => exact wp_map (putArtifact_outcome host db input provenance)
  | putResult input provenance => exact wp_map (putResult_outcome host db input provenance)

end AgentPalace.Coordination
