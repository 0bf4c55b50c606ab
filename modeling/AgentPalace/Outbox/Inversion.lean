import AgentPalace.Outbox.Outcome

/-!
# A call to the outbox does what its outcome says

One theorem per operation, each following the body from its first check to its
commit with the rules of `Tx.wp`; `Request.outcome` puts them together.
-/

namespace AgentPalace.Outbox

open Tx

/-! ## Rules of the shared statements -/

section
variable {α : Type} {Q : Except StorageError α → Session OutboxDb → Prop} {db w : OutboxDb}

theorem wp_atRevision {id : String} {expectedRevision : Int} {f : Option OutboxOperation → OTx α}
    {stale rest : OutboxOperation → OTx α}
    (hf : ∀ op, f (some op) = if op.revision ≠ expectedRevision then stale op else rest op)
    (hnone : wp (f none) Q ⟨db, w⟩) (hstale : ∀ op, wp (stale op) Q ⟨db, w⟩)
    (h : ∀ op, w.operations.get? op.operationId = some op → op.operationId = id →
      op.revision = expectedRevision → wp (rest op) Q ⟨db, w⟩) :
    wp (getOperation id >>= f) Q ⟨db, w⟩ := by
  unfold getOperation
  refine wp_query ?_
  cases hop : w.operations.get? id with
  | none => exact hnone
  | some op =>
    have hid := operationId_of_get? hop
    show wp (f (some op)) Q ⟨db, w⟩
    rw [hf]
    exact wp_ite (fun _ => hstale op) fun hrev => h op (hid ▸ hop) hid (not_not.1 hrev)

theorem wp_update {op : OutboxOperation} (op' : OutboxOperation) {guard : OutboxOperation → Bool}
    {f : OutboxOperation → OutboxOperation} {hf : ∀ r, (f r).key = r.key} {k : Nat → OTx α}
    (hop : w.operations.get? op.operationId = some op) (hguard : guard op = true)
    (hfop : f op = op')
    (h : ∀ ops, Replaced op' w.operations ops → ops.get? op'.operationId = some op' →
      wp (k 1) Q ⟨db, { w with operations := ops }⟩) :
    wp (update op.operationId guard f hf >>= k) Q ⟨db, w⟩ := by
  have hid : op'.operationId = op.operationId := by
    have := hf op
    rw [hfop] at this
    exact this
  have hkey : ∀ r, (if guard r then f r else r).key = r.key := fun r => by
    split
    · exact hf r
    · rfl
  have hops : Replaced op' w.operations
      (w.operations.modify op.operationId (fun r => if guard r then f r else r) hkey) := by
    have hrows := Table.rows_modify w.operations (fun r => if guard r then f r else r) hkey hop
    rw [if_pos hguard, hfop] at hrows
    unfold Replaced
    rw [hid]
    exact hrows
  have hcount : (((w.operations.get? op.operationId).filter guard).toList.length) = 1 := by
    rw [hop, Option.filter_some_pos hguard]
    rfl
  unfold update
  refine wp_assoc (wp_query ?_)
  rw [hcount]
  refine wp_assoc (wp_write ?_)
  exact h _ hops (by rw [hops.get? (hid ▸ hop), if_pos rfl])

theorem wp_finish {id message : String} {op : OutboxOperation}
    {Q : Except StorageError OutboxOperation → Session OutboxDb → Prop}
    (hop : w.operations.get? id = some op) (h : Q (.ok op) ⟨w, w⟩) :
    wp (finish id message) Q ⟨db, w⟩ := by
  unfold finish getOperation
  refine wp_query ?_
  rw [hop]
  show wp (commit >>= fun _ => pure op) Q ⟨db, w⟩
  exact wp_commit (wp_pure h)

end

variable (host : Host) (db : OutboxDb)

theorem rejects_outcome {α : Type} (call : Call) (g : α → Reply) :
    Rejects (fun _ => True) (fun r s => Outcome host db call (r.map g) s.committed) db := by
  intro e s _ hs
  rw [hs]
  exact .rejected

theorem inFlight_of_ensure {op : OutboxOperation} {worker : String} {now : OffsetDateTime}
    {u : Unit} (h : ensureInFlight op worker now = .ok u) : InFlight op worker now := by
  unfold ensureInFlight at h
  split at h
  · cases h
  rename_i hstate
  split at h
  · cases h
  rename_i howner
  split at h
  · cases h
  rename_i hlease
  refine ⟨not_not.1 hstate, not_not.1 howner, ?_⟩
  cases he : op.leaseExpiresAt with
  | none => simp [he] at hlease
  | some e => exact ⟨e, rfl, OffsetDateTime.not_le.1 (by simpa [he] using hlease)⟩

/-! ## Enqueue -/

theorem insert?_ok {db db' : OutboxDb} {mk : Int → OutboxOperation} (h : db.insert? mk = .ok db') :
    ∃ sequence, (∀ s ∈ db.sequences, s < sequence) ∧
      db.operations.insert? (mk sequence) = .ok db'.operations := by
  unfold OutboxDb.insert? at h
  simp only at h
  split at h
  · cases h
  · refine ⟨max (maxOrZero db.sequences) db.autoincrement + 1, fun s hs => ?_, ?_⟩
    · have := le_maxOrZero hs
      omega
    · cases hi : db.operations.insert? (mk (max (maxOrZero db.sequences) db.autoincrement + 1)) with
      | error e => rw [hi] at h; cases h
      | ok ops => rw [hi] at h; cases h; rfl

theorem enqueue_outcome (input : NewOutboxOperation) :
    wp (enqueue host input) (fun r s =>
      Outcome host db (.enqueue input) (r.map .operation) s.committed) ⟨db, db⟩ := by
  have hQ := rejects_outcome host db (.enqueue input) Reply.operation
  unfold enqueue
  refine wp_lift hQ fun _ _ => ?_
  refine wp_lift hQ fun _ _ => ?_
  refine wp_lift hQ fun _ _ => ?_
  refine wp_lift hQ fun _ _ => ?_
  refine wp_lift hQ fun _ _ => ?_
  refine wp_lift hQ fun _ _ => ?_
  refine wp_lift hQ fun _ _ => ?_
  refine wp_guard hQ fun _ => ?_
  unfold findOperationByKey
  refine wp_query ?_
  cases hfind : db.operations.rows.find? fun op => op.createdBy = input.createdBy ∧
      op.idempotencyKey = input.idempotencyKey with
  | some op =>
    have hop : db.operations.get? op.operationId = some op :=
      Table.get?_of_mem (List.mem_of_find?_eq_some hfind)
    refine wp_guard hQ fun hsame => ?_
    refine wp_ite (fun hstate => ?_) fun hstate => ?_
    · refine wp_query (wp_lift hQ fun sequence hsequence => ?_)
      refine wp_query (wp_lift hQ fun entitySequence hentity => ?_)
      refine wp_lift hQ fun ts hts => ?_
      refine wp_update (op.revive sequence entitySequence ts) hop (by simpa using hstate) rfl
        fun ops hops hget => wp_finish hget ?_
      simp only [not_or, not_not] at hsame
      obtain ⟨_, hentityId, hremote, _⟩ := hsame
      rw [← hentityId, ← hremote] at hentity
      exact .changed (time_of_formatTime hts) hop
        (.revived hstate (sql_ok.1 hsequence) (sql_ok.1 hentity)) hops
    · exact wp_commit (wp_pure (.replayed rfl hop hstate))
  | none =>
    refine wp_query (wp_lift hQ fun entitySequence hentity => ?_)
    refine wp_lift hQ fun ts hts => ?_
    refine wp_exec hQ (fun db' hdb' => ?_) fun _ _ => trivial
    obtain ⟨sequence, hsequence, hinsert⟩ := insert?_ok (sql_ok.1 hdb')
    obtain ⟨hops, hfresh⟩ := Table.rows_insert? hinsert
    have hget : db'.operations.get? ("outbox_" ++ host.uuid) =
        some (input.row host ts entitySequence sequence) := by
      have hmem : input.row host ts entitySequence sequence ∈ db'.operations.rows := by
        rw [hops]
        exact List.mem_append_right _ List.mem_cons_self
      exact Table.get?_of_mem hmem
    refine wp_finish hget ?_
    exact .enqueued rfl (time_of_formatTime hts) (fun r hr => by
      simpa using List.find?_eq_none.1 hfind r hr) (sql_ok.1 hentity) hsequence rfl hops hfresh

/-! ## Staged operations -/

theorem activate_outcome (id : String) (expectedRevision : Int) :
    wp (activate host id expectedRevision) (fun r s =>
      Outcome host db (.activate id expectedRevision) (r.map .write) s.committed) ⟨db, db⟩ := by
  have hQ := rejects_outcome host db (.activate id expectedRevision) Reply.write
  unfold activate
  refine wp_atRevision (fun _ => rfl) .conflict (fun _ => .conflict) ?_
  rintro op hop rfl rfl
  refine wp_guard hQ fun hstate => ?_
  refine wp_lift hQ fun ts hts => ?_
  refine wp_update (op.activate host ts) hop (by simp) rfl fun ops hops hget => ?_
  refine wp_ite (fun hchanged => absurd rfl hchanged) fun _ => ?_
  refine wp_bind (wp_finish hget ?_)
  exact .changed (time_of_formatTime hts) hop (.activated (not_not.1 hstate)) hops

theorem cancel_outcome (id : String) (expectedRevision : Int) :
    wp (cancel host id expectedRevision) (fun r s =>
      Outcome host db (.cancel id expectedRevision) (r.map .write) s.committed) ⟨db, db⟩ := by
  have hQ := rejects_outcome host db (.cancel id expectedRevision) Reply.write
  unfold cancel
  refine wp_atRevision (fun _ => rfl) .conflict (fun _ => .conflict) ?_
  rintro op hop rfl rfl
  refine wp_guard hQ fun hstate => ?_
  have hstate : op.state = .staged := not_not.1 hstate
  refine wp_lift hQ fun ts hts => ?_
  refine wp_update (op.cancel ts) hop (by simp [hstate]) rfl fun ops hops hget => ?_
  refine wp_ite (fun hchanged => absurd rfl hchanged) fun _ => ?_
  refine wp_bind (wp_finish hget ?_)
  exact .changed (time_of_formatTime hts) hop (.cancelled hstate) hops

/-! ## Leases -/

theorem newLease_of_ok {worker message : String} {ttl : Duration} {now expires : OffsetDateTime}
    {expiry : Timestamp} {u v : Unit} (hworker : validateActor worker = .ok u)
    (httl : validateTtl ttl = .ok v) (hexpires : okOr (now.checkedAdd ttl) message = .ok expires)
    (hexpiry : formatTime expires = .ok expiry) : NewLease worker ttl now expiry where
  worker := validateActor_ok hworker
  positive := validateTtl_ok httl
  expiry := by rw [time_of_formatTime hexpiry, okOr_ok.1 hexpires]

/-- A claimable operation at the head of its group. -/
structure DueHead (db : OutboxDb) (remote : String) (now : OffsetDateTime) (op : OutboxOperation) :
    Prop where
  mem : op ∈ db.operations.rows
  remote : op.destinationRemote = remote
  waiting : op.state = .pending ∨ op.state = .retryable
  head : hasPredecessor db op.destinationRemote op.orderingKey op.sequence = false
  due : ∀ t, op.retryAfter = some t → t.time ≤ now

theorem dueHead_some {db : OutboxDb} {remote : String} {now : OffsetDateTime} {op : OutboxOperation}
    (h : dueHead db remote now = some op) : DueHead db remote now op := by
  unfold dueHead at h
  rw [List.find?_filter] at h
  obtain ⟨hmem, hp, _⟩ := find?_orderBy h
  simp only [Bool.decide_and, Bool.and_eq_true, decide_eq_true_eq] at hp
  obtain ⟨⟨hremote, hwaiting, hhead⟩, hdue⟩ := hp
  refine ⟨hmem, hremote, hwaiting, hhead, fun t ht => ?_⟩
  simpa [ht] using hdue

theorem expiredLease_some {db : OutboxDb} {remote : Option String} {now : Timestamp}
    {op : OutboxOperation} (h : expiredLease db remote now = some op) :
    op ∈ db.operations.rows ∧ overdue remote now op = true ∧
      ∀ r ∈ db.operations.rows, overdue remote now r = true → op.sequence ≤ r.sequence :=
  find?_orderBy h

theorem leased_of_overdue {remote : Option String} {now : Timestamp} {op : OutboxOperation}
    (h : overdue remote now op = true) : op.state = .leased := by
  simp only [overdue, Bool.and_eq_true, decide_eq_true_eq] at h
  exact h.1.2

theorem claimNext_outcome (remote worker : String) (ttl : Duration) :
    wp (claimNext host remote worker ttl) (fun r s =>
      Outcome host db (.claimNext remote worker ttl) (r.map .claim) s.committed) ⟨db, db⟩ := by
  have hQ := rejects_outcome host db (.claimNext remote worker ttl) Reply.claim
  unfold claimNext
  refine wp_lift hQ fun _ hworker => ?_
  refine wp_lift hQ fun _ httl => ?_
  refine wp_query ?_
  cases hdue : dueHead db remote host.now with
  | none => exact wp_commit (wp_pure .idle)
  | some op =>
    have hop : db.operations.get? op.operationId = some op := Table.get?_of_mem (dueHead_some hdue).mem
    refine wp_lift hQ fun expires hexpires => ?_
    refine wp_lift hQ fun expiry hexpiry => ?_
    refine wp_lift hQ fun ts hts => ?_
    refine wp_update (op.lease worker expiry ts) hop (by simp) rfl fun ops hops hget => ?_
    refine wp_ite (fun hchanged => absurd rfl hchanged) fun _ => ?_
    refine wp_bind (wp_finish hget ?_)
    exact .changed (time_of_formatTime hts) hop
      (.claimedNext hdue (newLease_of_ok hworker httl hexpires hexpiry)) hops

theorem claimById_outcome (id worker : String) (expectedRevision : Int) (ttl : Duration) :
    wp (claimById host id worker expectedRevision ttl) (fun r s =>
      Outcome host db (.claimById id worker expectedRevision ttl) (r.map .write) s.committed)
      ⟨db, db⟩ := by
  have hQ := rejects_outcome host db (.claimById id worker expectedRevision ttl) Reply.write
  unfold claimById
  refine wp_lift hQ fun _ hworker => ?_
  refine wp_lift hQ fun _ httl => ?_
  refine wp_atRevision (fun _ => rfl) .conflict (fun _ => .conflict) ?_
  rintro op hop rfl rfl
  refine wp_guard hQ fun hstaged => ?_
  refine wp_guard hQ fun hactive => ?_
  refine wp_query (wp_guard hQ fun hhead => ?_)
  refine wp_guard hQ fun _ => ?_
  refine wp_guard hQ fun hlease => ?_
  refine wp_lift hQ fun expires hexpires => ?_
  refine wp_lift hQ fun expiry hexpiry => ?_
  refine wp_lift hQ fun ts hts => ?_
  refine wp_update (op.lease worker expiry ts) hop (by simp) rfl fun ops hops hget => ?_
  refine wp_ite (fun hchanged => absurd rfl hchanged) fun _ => ?_
  refine wp_bind (wp_finish hget ?_)
  refine .changed (time_of_formatTime hts) hop (.claimedById hstaged (by simpa using hactive)
    (by simpa using hhead) ?_ (newLease_of_ok hworker httl hexpires hexpiry)) hops
  intro o e hstate howner hexpires hlive
  by_contra hne
  simp [hstate, howner, hexpires, hlive, hne] at hlease

theorem renewLease_outcome (id worker : String) (expectedRevision : Int) (ttl : Duration) :
    wp (renewLease host id worker expectedRevision ttl) (fun r s =>
      Outcome host db (.renewLease id worker expectedRevision ttl) (r.map .write) s.committed)
      ⟨db, db⟩ := by
  have hQ := rejects_outcome host db (.renewLease id worker expectedRevision ttl) Reply.write
  unfold renewLease
  refine wp_lift hQ fun _ hworker => ?_
  refine wp_lift hQ fun _ httl => ?_
  refine wp_atRevision (fun _ => rfl) .conflict (fun _ => .conflict) ?_
  rintro op hop rfl rfl
  refine wp_guard hQ fun howner => ?_
  refine wp_guard hQ fun hlease => ?_
  refine wp_lift hQ fun expires hexpires => ?_
  refine wp_lift hQ fun expiry hexpiry => ?_
  refine wp_lift hQ fun ts hts => ?_
  refine wp_update (op.renew expiry ts) hop rfl rfl fun ops hops hget => ?_
  refine wp_bind (wp_finish hget ?_)
  have hflight : InFlight op worker host.now := by
    refine inFlight_of_ensure (u := ()) ?_
    simp only [not_or, not_not] at howner
    simp [ensureInFlight, howner, hlease]
  exact .changed (time_of_formatTime hts) hop
    (.renewed hflight (newLease_of_ok hworker httl hexpires hexpiry)) hops

theorem reclaimExpiredLease_outcome (remote : Option String) (worker : String) (ttl : Duration) :
    wp (reclaimExpiredLease host remote worker ttl) (fun r s =>
      Outcome host db (.reclaimExpiredLease remote worker ttl) (r.map .claim) s.committed)
      ⟨db, db⟩ := by
  have hQ := rejects_outcome host db (.reclaimExpiredLease remote worker ttl) Reply.claim
  unfold reclaimExpiredLease
  refine wp_lift hQ fun _ hworker => ?_
  refine wp_lift hQ fun _ httl => ?_
  refine wp_lift hQ fun ts hts => ?_
  refine wp_query ?_
  cases hexpired : expiredLease db remote ts with
  | none => exact wp_commit (wp_pure .idle)
  | some op =>
    have hop : db.operations.get? op.operationId = some op :=
      Table.get?_of_mem (expiredLease_some hexpired).1
    refine wp_lift hQ fun expires hexpires => ?_
    refine wp_lift hQ fun expiry hexpiry => ?_
    refine wp_update (op.reclaim worker expiry ts) hop rfl rfl fun ops hops hget => ?_
    refine wp_ite (fun hchanged => absurd rfl hchanged) fun _ => ?_
    refine wp_bind (wp_finish hget ?_)
    exact .changed (time_of_formatTime hts) hop
      (.reclaimed hexpired (newLease_of_ok hworker httl hexpires hexpiry)) hops

/-! ## Outcomes of a delivery -/

theorem acknowledge_outcome (id worker : String) (expectedRevision : Int) :
    wp (acknowledge host id worker expectedRevision) (fun r s =>
      Outcome host db (.acknowledge id worker expectedRevision) (r.map .write) s.committed)
      ⟨db, db⟩ := by
  have hQ := rejects_outcome host db (.acknowledge id worker expectedRevision) Reply.write
  unfold acknowledge
  refine wp_lift hQ fun _ _ => ?_
  refine wp_atRevision (fun _ => rfl) .conflict (fun _ => .conflict) ?_
  rintro op hop rfl rfl
  refine wp_ite (fun hdone => wp_commit (wp_pure (.acknowledgedAgain rfl hop hdone))) fun _ => ?_
  refine wp_lift hQ fun _ hflight => ?_
  refine wp_lift hQ fun ts hts => ?_
  refine wp_update (op.acknowledge ts) hop rfl rfl fun ops hops hget => ?_
  refine wp_bind (wp_finish hget ?_)
  exact .changed (time_of_formatTime hts) hop (.acknowledged (inFlight_of_ensure hflight)) hops

theorem scheduleRetry_outcome (id worker : String) (expectedRevision : Int) (error : String)
    (retryAfter : OffsetDateTime) :
    wp (scheduleRetry host id worker expectedRevision error retryAfter) (fun r s =>
      Outcome host db (.scheduleRetry id worker expectedRevision error retryAfter) (r.map .write)
        s.committed) ⟨db, db⟩ := by
  have hQ := rejects_outcome host db
    (.scheduleRetry id worker expectedRevision error retryAfter) Reply.write
  unfold scheduleRetry
  refine wp_lift hQ fun _ _ => ?_
  refine wp_lift hQ fun _ _ => ?_
  refine wp_atRevision (fun _ => rfl) .conflict (fun _ => .conflict) ?_
  rintro op hop rfl rfl
  refine wp_lift hQ fun _ hflight => ?_
  refine wp_lift hQ fun after hafter => ?_
  obtain rfl := time_of_formatTime hafter
  refine wp_lift hQ fun ts hts => ?_
  refine wp_update (op.retry error after ts) hop rfl rfl fun ops hops hget => ?_
  refine wp_bind (wp_finish hget ?_)
  exact .changed (time_of_formatTime hts) hop (.retried (inFlight_of_ensure hflight)) hops

theorem fail_outcome (id worker : String) (expectedRevision : Int) (error : String) :
    wp (fail host id worker expectedRevision error) (fun r s =>
      Outcome host db (.fail id worker expectedRevision error) (r.map .write) s.committed)
      ⟨db, db⟩ := by
  have hQ := rejects_outcome host db (.fail id worker expectedRevision error) Reply.write
  unfold fail
  refine wp_lift hQ fun _ _ => ?_
  refine wp_lift hQ fun _ _ => ?_
  refine wp_atRevision (fun _ => rfl) .conflict (fun _ => .conflict) ?_
  rintro op hop rfl rfl
  refine wp_lift hQ fun _ hflight => ?_
  refine wp_lift hQ fun ts hts => ?_
  refine wp_update (op.fail error ts) hop rfl rfl fun ops hops hget => ?_
  refine wp_bind (wp_finish hget ?_)
  exact .changed (time_of_formatTime hts) hop (.failed (inFlight_of_ensure hflight)) hops

/-! ## Every call -/

theorem Request.outcome (r : Request) (db : OutboxDb) :
    Outcome r.host db r.call (r.execute db).1 (r.execute db).2 := by
  obtain ⟨host, call⟩ := r
  refine run_of_wp ?_
  cases call with
  | enqueue input => exact wp_map (enqueue_outcome host db input)
  | activate id rev => exact wp_map (activate_outcome host db id rev)
  | cancel id rev => exact wp_map (cancel_outcome host db id rev)
  | claimNext remote worker ttl => exact wp_map (claimNext_outcome host db remote worker ttl)
  | claimById id worker rev ttl => exact wp_map (claimById_outcome host db id worker rev ttl)
  | renewLease id worker rev ttl => exact wp_map (renewLease_outcome host db id worker rev ttl)
  | reclaimExpiredLease remote worker ttl =>
    exact wp_map (reclaimExpiredLease_outcome host db remote worker ttl)
  | acknowledge id worker rev => exact wp_map (acknowledge_outcome host db id worker rev)
  | scheduleRetry id worker rev error retryAfter =>
    exact wp_map (scheduleRetry_outcome host db id worker rev error retryAfter)
  | fail id worker rev error => exact wp_map (fail_outcome host db id worker rev error)

end AgentPalace.Outbox
