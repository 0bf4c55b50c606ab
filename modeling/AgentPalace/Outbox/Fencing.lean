import AgentPalace.Outbox.Rows

/-!
# Lease fencing

A worker that was handed a lease knows the revision of its row. Every write of
a row raises the revision, so an outcome that names it is recorded only while
nothing has written the row since and the lease lasts; the name of the worker
need not tell workers apart.
-/

namespace AgentPalace.Outbox

open Machine

/-- The lease a call handed out, as the row it left. -/
def grant (call : Call) (answer : Answer) : Option OutboxOperation :=
  match call, answer with
  | .claimNext .., .ok (.claim op) => op
  | .reclaimExpiredLease .., .ok (.claim op) => op
  | .claimById .., .ok (.write (.applied op)) => some op
  | .renewLease .., .ok (.write (.applied op)) => some op
  | _, _ => none

/-- The operation, the worker and the revision an outcome of a delivery names. -/
def Call.outcomeOf : Call → Option (String × String × Int)
  | .acknowledge id worker expectedRevision => some (id, worker, expectedRevision)
  | .scheduleRetry id worker expectedRevision _ _ => some (id, worker, expectedRevision)
  | .fail id worker expectedRevision _ => some (id, worker, expectedRevision)
  | _ => none

/-! ## Revisions advance -/

def Advances : Option OutboxOperation → Option OutboxOperation → Prop
  | none, some _ => True
  | some a, some b => a.revision < b.revision
  | _, none => False

theorem Advances.irrefl (a : Option OutboxOperation) : ¬ Advances a a := by
  cases a with
  | none => exact id
  | some a => exact Int.lt_irrefl _

theorem Advances.trans (a b c : Option OutboxOperation) (hab : Advances a b) (hbc : Advances b c) :
    Advances a c := by
  cases a <;> cases b <;> cases c <;> simp only [Advances] at hab hbc ⊢
  omega

theorem step_advances {w w' : State} {l : Label} (hs : system.Step w l w') (id : String) :
    w'.db.operations.get? id = w.db.operations.get? id ∨
      Advances (w.db.operations.get? id) (w'.db.operations.get? id) := by
  cases hop : w.db.operations.get? id with
  | none =>
    cases w'.db.operations.get? id with
    | none => exact .inl rfl
    | some row => exact .inr trivial
  | some op =>
    rcases step_row hs hop with hkept | ⟨row, ts, hrow, hchange⟩
    · exact .inl hkept
    · rw [hrow]
      have := hchange.revision
      right
      show op.revision < row.revision
      omega

/-- Between two readings of one revision nothing wrote the row. -/
theorem run_unwritten {a b c : State} {xs ys : List Label} {id : String} {op op' : OutboxOperation}
    (hab : Run system a xs b) (hbc : Run system b ys c) (ha : a.db.operations.get? id = some op)
    (hc : c.db.operations.get? id = some op') (hrev : op'.revision = op.revision) :
    b.db.operations.get? id = some op ∧ op' = op := by
  have hstep := fun (x : State) l y (hs : system.Step x l y) => step_advances hs id
  have hends : op' = op := by
    have hadvance := (hab.append hbc).advance (fun x => x.db.operations.get? id) Advances.trans hstep
    rw [ha, hc] at hadvance
    rcases hadvance with e | h
    · exact Option.some.inj e
    · have h : op.revision < op'.revision := h
      omega
  refine ⟨?_, hends⟩
  rw [← ha]
  exact hab.unchanged (fun x => x.db.operations.get? id) Advances.irrefl Advances.trans hstep hbc
    (by rw [ha, hc, hends])

/-! ## Grants and outcomes -/

theorem Change.grant {host : Host} {db : OutboxDb} {op op' lease : OutboxOperation} {ts : Timestamp}
    {call : Call} {answer : Answer} (h : Change host db op ts call answer op')
    (hgrant : grant call answer = some lease) : lease = op' ∧ op'.state = .leased := by
  cases h with
  | claimedNext => exact ⟨(Option.some.inj hgrant).symm, rfl⟩
  | claimedById => exact ⟨(Option.some.inj hgrant).symm, rfl⟩
  | renewed hflight => exact ⟨(Option.some.inj hgrant).symm, hflight.leased⟩
  | reclaimed hexpired =>
    have hleased := leased_of_overdue (expiredLease_some hexpired).2.1
    exact ⟨(Option.some.inj hgrant).symm, hleased⟩
  | _ => cases hgrant

theorem Outcome.grant {host : Host} {db db' : OutboxDb} {call : Call} {answer : Answer}
    {lease : OutboxOperation} (h : Outcome host db call answer db')
    (hgrant : grant call answer = some lease) :
    lease.state = .leased ∧ db'.operations.get? lease.operationId = some lease ∧
      ∃ op ts, ts.time = host.now ∧ db.operations.get? op.operationId = some op ∧
        Change host db op ts call answer lease := by
  cases h with
  | rejected => cases call <;> cases hgrant
  | conflict => cases call <;> cases hgrant
  | idle => cases call <;> cases hgrant
  | replayed hcall => rw [hcall] at hgrant; cases hgrant
  | acknowledgedAgain hcall => rw [hcall] at hgrant; cases hgrant
  | @changed op op' ts answer ops hts hop hchange hops =>
    obtain ⟨rfl, hleased⟩ := hchange.grant hgrant
    have hget := hops.get? (hchange.intent.operationId ▸ hop) lease.operationId
    exact ⟨hleased, hget.trans (if_pos rfl), op, ts, hts, hop, hchange⟩
  | enqueued hcall => rw [hcall] at hgrant; cases hgrant

theorem Change.outcomeOf {host : Host} {db : OutboxDb} {op op' : OutboxOperation} {ts : Timestamp}
    {call : Call} {answer : Answer} {id worker : String} {rev : Int}
    (h : Change host db op ts call answer op') (hcall : call.outcomeOf = some (id, worker, rev)) :
    op.operationId = id ∧ op.revision = rev ∧ InFlight op worker host.now := by
  cases h with
  | acknowledged hflight => cases hcall; exact ⟨rfl, rfl, hflight⟩
  | retried hflight => cases hcall; exact ⟨rfl, rfl, hflight⟩
  | failed hflight => cases hcall; exact ⟨rfl, rfl, hflight⟩
  | _ => cases hcall

/-- An outcome of a delivery is refused and changes nothing, or names the revision
of a row that is in flight or was replicated before. -/
theorem Outcome.outcomeOf {host : Host} {db db' : OutboxDb} {call : Call} {answer : Answer}
    {id worker : String} {rev : Int} (h : Outcome host db call answer db')
    (hcall : call.outcomeOf = some (id, worker, rev)) :
    (db' = db ∧ ∀ op', answer ≠ .ok (.write (.applied op'))) ∨
    ∃ op, db.operations.get? id = some op ∧ op.revision = rev ∧
      (InFlight op worker host.now ∨ op.state = .replicated) := by
  cases h with
  | rejected => exact .inl ⟨rfl, fun _ happlied => by cases happlied⟩
  | conflict => exact .inl ⟨rfl, fun _ happlied => by cases happlied⟩
  | idle => exact .inl ⟨rfl, fun _ happlied => by cases happlied⟩
  | replayed => exact .inl ⟨rfl, fun _ happlied => by cases happlied⟩
  | acknowledgedAgain hack hop hstate =>
    rw [hack] at hcall
    cases hcall
    exact .inr ⟨_, hop, rfl, .inr hstate⟩
  | changed _ hop hchange =>
    obtain ⟨rfl, hrev, hflight⟩ := hchange.outcomeOf hcall
    exact .inr ⟨_, hop, hrev, .inl hflight⟩
  | enqueued henqueue => rw [henqueue] at hcall; cases hcall

theorem Change.recorded {host : Host} {db : OutboxDb} {op op' : OutboxOperation} {ts : Timestamp}
    {call : Call} {answer : Answer} (h : Change host db op ts call answer op')
    (hnew : op'.state ≠ op.state)
    (hstate : op'.state = .replicated ∨ op'.state = .retryable ∨ op'.state = .failed) :
    ∃ worker, call.outcomeOf = some (op.operationId, worker, op.revision) ∧
      InFlight op worker host.now := by
  cases h with
  | renewed => exact absurd rfl hnew
  | reclaimed => exact absurd rfl hnew
  | acknowledged hflight => exact ⟨_, rfl, hflight⟩
  | retried hflight => exact ⟨_, rfl, hflight⟩
  | failed hflight => exact ⟨_, rfl, hflight⟩
  | _ => rcases hstate with h | h | h <;> cases h

theorem step_recorded {w w' : State} {l : Label} {row row' : OutboxOperation}
    (hs : system.Step w l w') (hrow : row ∈ w.db.operations.rows)
    (hrow' : row' ∈ w'.db.operations.rows) (hid : row'.operationId = row.operationId)
    (hnew : row'.state ≠ row.state)
    (hstate : row'.state = .replicated ∨ row'.state = .retryable ∨ row'.state = .failed) :
    ∃ worker, l.call.call.outcomeOf = some (row.operationId, worker, row.revision) ∧
      InFlight row worker l.call.host.now := by
  have hwritten : row' ∉ w.db.operations.rows := fun h =>
    hnew (congrArg (·.state) (Table.eq_of_key_eq h hrow hid))
  cases step_effect hs with
  | none hdb => exact absurd (hdb ▸ hrow') hwritten
  | @changed op op' ts hts hchange hwrote =>
    obtain rfl : row' = op' := (hwrote.mem.1 hrow').resolve_right fun h => hwritten h.1
    obtain rfl : row = op := hwrote.eq_old hrow hid.symm
    exact hchange.recorded hnew hstate
  | @enqueued input op ts sequence entitySequence hcall hkey hop hlast hwrote =>
    obtain rfl : row' = op := (hwrote.mem.1 hrow').resolve_right fun h => hwritten h.1
    rw [hop] at hstate
    rcases hstate with h | h | h <;> cases h

/-- **Lease fencing**: after a step handed out `op`, an outcome that names its
revision is applied only if the row was `op` ever since, the worker owns the
lease and the lease lasts; once the row was written, it is refused and changes
nothing. And whenever a row becomes replicated, retryable or failed, that is an
outcome naming the revision the row had, by the owner of a lease that lasts. -/
theorem outcome_fenced {w w₁ w₂ w₃ : State} {l₀ l : Label} {ls : List Label} {op : OutboxOperation}
    (hs₀ : system.Step w l₀ w₁) (hgrant : grant l₀.call.call l₀.answer = some op) (hrun : Run system w₁ ls w₂)
    (hs : system.Step w₂ l w₃) :
    (∀ worker op', l.call.call.outcomeOf = some (op.operationId, worker, op.revision) →
      l.answer = .ok (.write (.applied op')) →
      (∀ pre post x, ls = pre ++ post → Run system w₁ pre x → Run system x post w₂ →
        x.db.operations.get? op.operationId = some op) ∧
      InFlight op worker l.call.host.now) ∧
    (∀ worker pre post x, l.call.call.outcomeOf = some (op.operationId, worker, op.revision) →
      ls = pre ++ post → Run system w₁ pre x → Run system x post w₂ →
      x.db.operations.get? op.operationId ≠ some op →
      w₃.db = w₂.db ∧ ∀ op', l.answer ≠ .ok (.write (.applied op'))) ∧
    (∀ row row', row ∈ w₂.db.operations.rows → row' ∈ w₃.db.operations.rows →
      row'.operationId = row.operationId → row'.state ≠ row.state →
      row'.state = .replicated ∨ row'.state = .retryable ∨ row'.state = .failed →
      ∃ worker, l.call.call.outcomeOf = some (row.operationId, worker, row.revision) ∧
        InFlight row worker l.call.host.now) := by
  obtain ⟨hleased, hop, _⟩ := (step_outcome hs₀).grant hgrant
  refine ⟨?_, ?_, fun row row' hrow hrow' => step_recorded hs hrow hrow'⟩
  · intro worker op' hcall happlied
    rcases (step_outcome hs).outcomeOf hcall with ⟨_, hrefused⟩ | ⟨op₂, hop₂, hrev, hstate⟩
    · exact absurd happlied (hrefused op')
    · have hsame : op₂ = op := (run_unwritten hrun (.nil w₂) hop hop₂ hrev).2
      refine ⟨fun pre post x _ hpre hpost => (run_unwritten hpre hpost hop hop₂ hrev).1, ?_⟩
      rcases hstate with hflight | hreplicated
      · exact hsame ▸ hflight
      · rw [hsame, hleased] at hreplicated
        cases hreplicated
  · intro worker pre post x hcall _ hpre hpost hwritten
    rcases (step_outcome hs).outcomeOf hcall with hrefused | ⟨op₂, hop₂, hrev, _⟩
    · exact hrefused
    · exact absurd (run_unwritten hpre hpost hop hop₂ hrev).1 hwritten

/-- After two milliseconds a process of the same name takes the lease over. -/
def sampleReclaim : Request := ⟨sampleHost 2000000 "", .reclaimExpiredLease (some "hub") "w" 1000000⟩

/-- The outcome of the first process comes too late. -/
def lateAcknowledge : Request := ⟨sampleHost 2000001 "", .acknowledge "outbox_1" "w" 2⟩

theorem outcome_fenced_sample :
    (store.exec lateAcknowledge (after (sampleLease ++ [sampleReclaim])).db).2 =
      (after (sampleLease ++ [sampleReclaim])).db := by
  have hgrant : (grant sampleClaim.call (answerTo sampleQueue sampleClaim)).map
    (fun op => (op.operationId, op.revision)) = some ("outbox_1", 2) := by decide
  obtain ⟨op, hop, hids⟩ := Option.map_eq_some_iff.1 hgrant
  have hid : op.operationId = "outbox_1" := congrArg Prod.fst hids
  have hrev : op.revision = 2 := congrArg Prod.snd hids
  have hreclaim := step_after sampleLease sampleReclaim (by decide)
  have hwritten : (after (sampleLease ++ [sampleReclaim])).db.operations.get? op.operationId ≠ some op := by
    intro h
    have hnow : ((after (sampleLease ++ [sampleReclaim])).db.operations.get? "outbox_1").map
      (·.revision) = some 3 := by decide
    rw [← hid, h, Option.map_some, hrev] at hnow
    cases hnow
  have hfenced := outcome_fenced (step_after sampleQueue sampleClaim (by decide)) hop
    (.single hreclaim) (step_after (sampleLease ++ [sampleReclaim]) lateAcknowledge (by decide))
  have hcall : lateAcknowledge.call.outcomeOf = some (op.operationId, "w", op.revision) := by
    rw [hid, hrev]
    rfl
  exact (hfenced.2.1 "w" [_] [] _ hcall rfl (.single hreclaim) (.nil _) hwritten).1

end AgentPalace.Outbox
