import AgentPalace.Outbox.Sequence

/-!
# What a worker is given to deliver

`Claimable` says in terms of the rows when an operation may be delivered.
`claimNext` looks for such an operation in one statement and `claimById` decides
the same of one operation by hand: the first leases the claimable operation of
the least sequence whenever there is one, and the second would have leased it
too.
-/

namespace AgentPalace.Outbox

open Machine Tx

/-! ## Claimable operations -/

/-- Pending, or retryable and due, with nothing unfinished before it in its group. -/
structure Claimable (db : OutboxDb) (remote : String) (now : OffsetDateTime)
    (op : OutboxOperation) : Prop where
  mem : op ∈ db.operations.rows
  remote : op.destinationRemote = remote
  waiting : op.state = .pending ∨
    (op.state = .retryable ∧ ∃ t, op.retryAfter = some t ∧ t.time ≤ now)
  head : ∀ p ∈ db.operations.rows, p.destinationRemote = op.destinationRemote →
    p.orderingKey = op.orderingKey → p.sequence < op.sequence →
      p.state ≠ .staged ∧ p.state ≠ .pending ∧ p.state ≠ .leased ∧ p.state ≠ .retryable

theorem OutboxState.not_active {s : OutboxState} :
    s.active = false ↔ s ≠ .staged ∧ s ≠ .pending ∧ s ≠ .leased ∧ s ≠ .retryable := by
  cases s <;> decide

theorem hasPredecessor_false {db : OutboxDb} {remote key : String} {sequence : Int} :
    hasPredecessor db remote key sequence = false ↔
      ∀ p ∈ db.operations.rows, p.destinationRemote = remote → p.orderingKey = key →
        p.sequence < sequence → p.state.active = false := by
  unfold hasPredecessor
  rw [List.any_eq_false]
  refine forall₂_congr fun p _ => ?_
  simp only [decide_eq_true_eq, not_and, Bool.not_eq_true]

def Timed (op : OutboxOperation) : Prop := op.state = .retryable → op.retryAfter.isSome

theorem Change.timed {host : Host} {db : OutboxDb} {op op' : OutboxOperation} {ts : Timestamp}
    {call : Call} {answer : Answer} (h : Change host db op ts call answer op') : Timed op' := by
  cases h with
  | retried => exact fun _ => rfl
  | renewed hflight =>
    intro hstate
    have hstate : op.state = .retryable := hstate
    rw [hflight.leased] at hstate
    cases hstate
  | reclaimed hexpired =>
    intro hstate
    have hstate : op.state = .retryable := hstate
    rw [leased_of_overdue (expiredLease_some hexpired).2.1] at hstate
    cases hstate
  | _ => exact nofun

theorem reachable_timed {w : State} (h : system.Reachable w) :
    ∀ op ∈ w.db.operations.rows, Timed op :=
  reachable_rows (fun hchange _ => hchange.timed) (fun _ _ _ _ _ => nofun) h

section
variable {db : OutboxDb} {remote worker : String} {now : OffsetDateTime} {op : OutboxOperation}
variable {ttl : Duration} {host : Host}

/-- What the statement of `claim_next` selects is what is claimable. -/
theorem claimable_iff (hcolumns : op ∈ db.operations.rows → Columns op)
    (htimed : op ∈ db.operations.rows → Timed op) :
    Claimable db remote now op ↔ DueHead db remote now op := by
  have hhead : hasPredecessor db op.destinationRemote op.orderingKey op.sequence = false ↔
      ∀ p ∈ db.operations.rows, p.destinationRemote = op.destinationRemote →
        p.orderingKey = op.orderingKey → p.sequence < op.sequence →
          p.state ≠ .staged ∧ p.state ≠ .pending ∧ p.state ≠ .leased ∧ p.state ≠ .retryable := by
    rw [hasPredecessor_false]
    simp only [OutboxState.not_active]
  constructor
  · intro h
    refine ⟨h.mem, h.remote, h.waiting.imp id And.left, hhead.2 h.head, fun t ht => ?_⟩
    rcases h.waiting with hpending | ⟨_, t', ht', hdue⟩
    · have hretry := (hcolumns h.mem).retry (by rw [ht]; rfl)
      rw [hpending] at hretry
      cases hretry
    · obtain rfl : t' = t := Option.some.inj (ht'.symm.trans ht)
      exact hdue
  · intro h
    refine ⟨h.mem, h.remote, h.waiting.imp id fun hstate => ⟨hstate, ?_⟩, hhead.1 h.head⟩
    obtain ⟨t, ht⟩ := Option.isSome_iff_exists.1 (htimed h.mem hstate)
    exact ⟨t, ht, h.due t ht⟩

theorem dueHead_least (h : dueHead db remote now = some op) {other : OutboxOperation}
    (hother : DueHead db remote now other) : op.sequence ≤ other.sequence := by
  unfold dueHead at h
  rw [List.find?_filter] at h
  refine (find?_orderBy h).2.2 other hother.mem ?_
  simp only [Bool.decide_and, Bool.and_eq_true, decide_eq_true_eq]
  refine ⟨⟨hother.remote, hother.waiting, hother.head⟩, ?_⟩
  cases hretry : other.retryAfter with
  | none => rfl
  | some t => simpa using hother.due t hretry

theorem dueHead_none (h : dueHead db remote now = none) : ¬ DueHead db remote now op := by
  intro hop
  unfold dueHead at h
  rw [List.find?_filter] at h
  refine List.find?_eq_none.1 h op (mem_orderBy.2 hop.mem) ?_
  simp only [Bool.decide_and, Bool.and_eq_true, decide_eq_true_eq]
  refine ⟨⟨hop.remote, hop.waiting, hop.head⟩, ?_⟩
  cases hretry : op.retryAfter with
  | none => rfl
  | some t => simpa using hop.due t hretry

/-! ## The two claims -/

variable {expiry ts : Timestamp}

theorem NewLease.checks (h : NewLease worker ttl now expiry) (message : String) :
    validateActor worker = .ok () ∧ validateTtl ttl = .ok () ∧
      okOr (now.checkedAdd ttl) message = .ok expiry.time ∧ formatTime expiry.time = .ok expiry :=
  ⟨by simp [validateActor, h.worker], by simp [validateTtl, Int.not_le.2 h.positive],
    okOr_ok.2 h.expiry, formatTime_of_formattable expiry.formattable⟩

/-- The answer, and `op'` in the place of the row of its id. -/
def Leases {α : Type} (db : OutboxDb) (op' : OutboxOperation) (answer : α)
    (r : Except StorageError α) (db' : OutboxDb) : Prop :=
  r = .ok answer ∧ ∃ ops, db' = { db with operations := ops } ∧ Replaced op' db.operations ops

theorem Leases.unique {α β : Type} {op' : OutboxOperation} {a : α} {b : β}
    {r : Except StorageError α} {r' : Except StorageError β} {db₁ db₂ : OutboxDb}
    (h : Leases db op' a r db₁) (h' : Leases db op' b r' db₂) : db₁ = db₂ := by
  obtain ⟨_, ⟨rows, _⟩, rfl, hops⟩ := h
  obtain ⟨_, ⟨rows', _⟩, rfl, hops'⟩ := h'
  obtain rfl : rows = rows' := Eq.trans hops (Eq.symm hops')
  rfl

theorem run_claimNext (hnew : NewLease worker ttl host.now expiry) (hts : ts.time = host.now)
    (hdue : dueHead db remote host.now = some op) :
    Leases db (op.lease worker expiry ts) (some (op.lease worker expiry ts))
      ((claimNext host remote worker ttl).run db).1
      ((claimNext host remote worker ttl).run db).2 := by
  obtain ⟨hworker, httl, hexpires, hexpiry⟩ := hnew.checks outboxLeaseDurationOutOfRange
  have hnow : formatTime host.now = .ok ts := hts ▸ formatTime_of_formattable ts.formattable
  have hop : db.operations.get? op.operationId = some op :=
    Table.get?_of_mem (dueHead_some hdue).mem
  refine run_of_wp ?_
  unfold claimNext
  refine wp_lift_eq hworker (wp_lift_eq httl (wp_query ?_))
  rw [hdue]
  refine wp_lift_eq hexpires (wp_lift_eq hexpiry (wp_lift_eq hnow ?_))
  refine wp_update (op.lease worker expiry ts) hop (by simp) rfl fun ops hops hget => ?_
  refine wp_ite (fun hchanged => absurd rfl hchanged) fun _ => ?_
  exact wp_bind (wp_finish hget ⟨rfl, ops, rfl, hops⟩)

theorem run_claimById (hnew : NewLease worker ttl host.now expiry) (hts : ts.time = host.now)
    (hdue : DueHead db remote host.now op) :
    Leases db (op.lease worker expiry ts) (.applied (op.lease worker expiry ts))
      ((claimById host op.operationId worker op.revision ttl).run db).1
      ((claimById host op.operationId worker op.revision ttl).run db).2 := by
  obtain ⟨hworker, httl, hexpires, hexpiry⟩ := hnew.checks outboxLeaseDurationOutOfRange
  have hnow : formatTime host.now = .ok ts := hts ▸ formatTime_of_formattable ts.formattable
  have hop : db.operations.get? op.operationId = some op := Table.get?_of_mem hdue.mem
  have hstates : op.state ≠ .staged ∧ op.state.terminal = false ∧ op.state ≠ .leased := by
    rcases hdue.waiting with h | h <;> rw [h] <;> decide
  have hretry : ¬ op.retryAfter.any (host.now < ·.time) = true := by
    cases hretry : op.retryAfter with
    | none => nofun
    | some t => simpa using OffsetDateTime.not_lt.2 (hdue.due t hretry)
  refine run_of_wp ?_
  unfold claimById getOperation
  refine wp_lift_eq hworker (wp_lift_eq httl (wp_query ?_))
  rw [hop]
  refine wp_ite (fun hrev => absurd rfl hrev) fun _ => ?_
  refine wp_ite (fun hstaged => absurd hstaged hstates.1) fun _ => ?_
  refine wp_ite (fun hdone => absurd hdone (by simp [hstates.2.1])) fun _ => wp_query ?_
  refine wp_ite (fun hhead => absurd hhead (by simp [hdue.head])) fun _ => ?_
  refine wp_ite (fun hwait => absurd hwait hretry) fun _ => ?_
  refine wp_ite (fun hlease => absurd hlease.1 hstates.2.2) fun _ => ?_
  refine wp_lift_eq hexpires (wp_lift_eq hexpiry (wp_lift_eq hnow ?_))
  refine wp_update (op.lease worker expiry ts) hop (by simp) rfl fun ops hops hget => ?_
  refine wp_ite (fun hchanged => absurd rfl hchanged) fun _ => ?_
  exact wp_bind (wp_finish hget ⟨rfl, ops, rfl, hops⟩)

theorem run_claimNext_idle (hworker : isBlank worker = false) (httl : 0 < ttl)
    (hdue : dueHead db remote host.now = none) :
    (claimNext host remote worker ttl).run db = (.ok none, db) := by
  have hactor : validateActor worker = .ok () := by simp [validateActor, hworker]
  have hpositive : validateTtl ttl = .ok () := by simp [validateTtl, Int.not_le.2 httl]
  rw [claimNext, run_lift hactor, run_lift hpositive, run_query, hdue]
  rfl

/-- Arguments that no lease can have are refused. -/
theorem run_claimNext_refused
    (h : isBlank worker = true ∨ ttl ≤ 0 ∨ ((∃ op, dueHead db remote host.now = some op) ∧
      ∀ expiry ts : Timestamp, ts.time = host.now → ¬ NewLease worker ttl host.now expiry)) :
    ∃ e, (claimNext host remote worker ttl).run db = (.error e, db) := by
  have hQ : Rejects (fun _ => True) (fun (r : Except StorageError (Option OutboxOperation)) s =>
      ∃ e, r = .error e ∧ s.committed = db) db := fun e s _ hs => ⟨e, rfl, hs⟩
  have hwp : wp (claimNext host remote worker ttl)
      (fun r s => ∃ e, r = .error e ∧ s.committed = db) ⟨db, db⟩ := by
    unfold claimNext
    refine wp_lift hQ fun _ hworker => wp_lift hQ fun _ httl => wp_query ?_
    rcases h with h | h | ⟨⟨op, hop⟩, h⟩
    · rw [validateActor_ok hworker] at h
      cases h
    · exact absurd (validateTtl_ok httl) (Int.not_lt.2 h)
    · rw [hop]
      refine wp_lift hQ fun expires hexpires => wp_lift hQ fun expiry hexpiry => ?_
      refine wp_lift hQ fun ts hts => ?_
      exact absurd (newLease_of_ok hworker httl hexpires hexpiry)
        (h expiry ts (time_of_formatTime hts))
  obtain ⟨e, hanswer, hdb⟩ := run_of_wp (P := fun r w => ∃ e, r = .error e ∧ w = db) hwp
  exact ⟨e, Prod.ext hanswer hdb⟩

end

/-! ## Complete and fair -/

/-- What `claim_next` answers and leaves: the claimable operation of the least sequence is
leased, and `claim_by_id` would have leased it; or nothing is claimable; or the arguments
are refused. -/
theorem claimNext_complete {w : State} (h : system.Reachable w) (host : Host)
    (remote worker : String) (ttl : Duration) :
    let claim := (Request.mk host (.claimNext remote worker ttl)).execute w.db
    (∃ op expiry ts db', Claimable w.db remote host.now op ∧
      (∀ other, Claimable w.db remote host.now other → other ≠ op →
        op.sequence < other.sequence) ∧
      ts.time = host.now ∧ NewLease worker ttl host.now expiry ∧
      claim = (.ok (.claim (some (op.lease worker expiry ts))), db') ∧
      (∀ id, db'.operations.get? id =
        if id = op.operationId then some (op.lease worker expiry ts) else w.db.operations.get? id) ∧
      (Request.mk host (.claimById op.operationId worker op.revision ttl)).execute w.db =
        (.ok (.write (.applied (op.lease worker expiry ts))), db')) ∨
    (claim = (.ok (.claim none), w.db) ∧ ∀ op, ¬ Claimable w.db remote host.now op) ∨
    (∃ e, claim = (.error e, w.db) ∧ (isBlank worker = true ∨ ttl ≤ 0 ∨
      ∀ expiry ts : Timestamp, ts.time = host.now → ¬ NewLease worker ttl host.now expiry)) := by
  have hiff : ∀ op, Claimable w.db remote host.now op ↔ DueHead w.db remote host.now op := fun op =>
    claimable_iff (reachable_columns h op) (reachable_timed h op)
  have hclaim : (Request.mk host (.claimNext remote worker ttl)).execute w.db =
      (((claimNext host remote worker ttl).run w.db).1.map Reply.claim,
        ((claimNext host remote worker ttl).run w.db).2) := run_map Reply.claim _ w.db
  have hrefuse : (isBlank worker = true ∨ ttl ≤ 0 ∨
      ((∃ op, dueHead w.db remote host.now = some op) ∧ ∀ expiry ts : Timestamp,
        ts.time = host.now → ¬ NewLease worker ttl host.now expiry)) →
      ∃ e, (Request.mk host (.claimNext remote worker ttl)).execute w.db = (.error e, w.db) := by
    intro hargs
    obtain ⟨e, he⟩ := run_claimNext_refused hargs
    exact ⟨e, by rw [hclaim, he]; rfl⟩
  intro claim
  by_cases hargs : isBlank worker = true ∨ ttl ≤ 0
  · obtain ⟨e, he⟩ := hrefuse (hargs.imp id .inl)
    exact .inr (.inr ⟨e, he, hargs.imp id .inl⟩)
  obtain ⟨hworker, httl⟩ := not_or.1 hargs
  cases hdue : dueHead w.db remote host.now with
  | none =>
    refine .inr (.inl ⟨?_, fun op hop => dueHead_none hdue ((hiff op).1 hop)⟩)
    show (Request.mk host (.claimNext remote worker ttl)).execute w.db = _
    rw [hclaim, run_claimNext_idle (by simpa using hworker) (Int.not_le.1 httl) hdue]
    rfl
  | some op =>
    by_cases hlease : ∃ expiry ts : Timestamp,
        ts.time = host.now ∧ NewLease worker ttl host.now expiry
    · obtain ⟨expiry, ts, hts, hnew⟩ := hlease
      have hop := dueHead_some hdue
      have hnext := run_claimNext hnew hts hdue
      have hbyId := run_claimById hnew hts hop
      have hsame := hnext.unique hbyId
      refine .inl ⟨op, expiry, ts, ((claimNext host remote worker ttl).run w.db).2, (hiff op).2 hop,
        fun other hother hne => ?_, hts, hnew, ?_, ?_, ?_⟩
      · have hle := dueHead_least hdue ((hiff other).1 hother)
        have hdistinct : op.sequence ≠ other.sequence := fun heq =>
          hne ((reachable_coherent h).sequence _ hop.mem _ hother.mem heq).symm
        omega
      · show (Request.mk host (.claimNext remote worker ttl)).execute w.db = _
        rw [hclaim, hnext.1]
        rfl
      · obtain ⟨_, ops, hdb, hops⟩ := hnext
        intro id
        rw [hdb]
        have hrow : w.db.operations.get? op.operationId = some op := Table.get?_of_mem hop.mem
        exact hops.get? hrow id
      · have hrun : (Request.mk host
            (.claimById op.operationId worker op.revision ttl)).execute w.db =
              (((claimById host op.operationId worker op.revision ttl).run w.db).1.map Reply.write,
                ((claimById host op.operationId worker op.revision ttl).run w.db).2) :=
          run_map Reply.write _ w.db
        rw [hsame, hrun, hbyId.1]
        rfl
    · have hnone : ∀ expiry ts : Timestamp, ts.time = host.now →
          ¬ NewLease worker ttl host.now expiry :=
        fun expiry ts hts hnew => hlease ⟨expiry, ts, hts, hnew⟩
      obtain ⟨e, he⟩ := hrefuse (.inr (.inr ⟨⟨op, hdue⟩, hnone⟩))
      exact .inr (.inr ⟨e, he, .inr (.inr hnone)⟩)

/-- Of two pending changes of one drawer the first can be claimed. -/
theorem claimNext_complete_sample :
    ∃ op, Claimable (after sampleQueue).db "hub" ⟨0, 0⟩ op ∧
      ∀ other, Claimable (after sampleQueue).db "hub" ⟨0, 0⟩ other → other = op := by
  have hanswer : ∃ op, (sampleClaim.execute (after sampleQueue).db).1 = .ok (.claim (some op)) :=
    ⟨_, by rfl⟩
  obtain ⟨leased, hleased⟩ := hanswer
  rcases claimNext_complete (reachable_after sampleQueue (by decide)) (sampleHost 0 "") "hub" "w"
    1000000 with ⟨op, _, _, _, hop, hleast, _⟩ | ⟨hidle, _⟩ | ⟨e, hrefused, _⟩
  · refine ⟨op, hop, fun other hother => ?_⟩
    by_contra hne
    have hlt := hleast other hother hne
    have hsame : op.orderingKey = other.orderingKey := by
      have hkeys : ∀ r ∈ (after sampleQueue).db.operations.rows, r.orderingKey = "d" := by decide
      rw [hkeys op hop.mem, hkeys other hother.mem]
    have hstate := hother.head op hop.mem (hop.remote.trans hother.remote.symm) hsame hlt
    rcases hop.waiting with hpending | ⟨hretryable, _⟩
    · exact hstate.2.1 hpending
    · exact hstate.2.2.2 hretryable
  · have hcontra := hleased.symm.trans (congrArg Prod.fst hidle)
    cases hcontra
  · have hcontra := hleased.symm.trans (congrArg Prod.fst hrefused)
    cases hcontra

end AgentPalace.Outbox
