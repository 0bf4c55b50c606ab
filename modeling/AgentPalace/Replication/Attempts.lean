import AgentPalace.Outbox.Order
import AgentPalace.Replication.Dispatcher

/-!
# Delivery attempts

A dispatcher that delivers an operation holds the row it was handed. Handed out
again, the row has a new revision, so no two dispatchers hold the same attempt
(`Held`), and at most one of them holds the row as it is stored: that one can
record its result, once and while its lease lasts, and no other can.
-/

namespace AgentPalace.Replication

open Outbox Machine Tx

/-! ## Down to the outbox -/

theorem step_outbox {w w' : Palace} {e : Event} (hs : machine.Step w e w') :
    w'.outbox = w.outbox ∨ ∃ l, Outbox.system.Step w.outbox l w'.outbox := by
  cases e with
  | dispatcher p label => exact .inr ⟨label, hs.1⟩
  | crash p => exact .inl hs.1
  | other label => exact .inr ⟨label, hs.1⟩

theorem run_outbox {w w' : Palace} {es : List Event} (h : Run machine w es w') :
    ∃ ls, Run Outbox.system w.outbox ls w'.outbox := by
  induction h with
  | nil w => exact ⟨[], .nil _⟩
  | cons hs _ ih =>
    obtain ⟨ls, hls⟩ := ih
    rcases step_outbox hs with heq | ⟨l, hl⟩
    · exact ⟨ls, heq ▸ hls⟩
    · exact ⟨l :: ls, .cons hl hls⟩

/-! ## What a dispatcher holds -/

theorem delivering_afterReclaim {remoteName : String} {answer : Answer} {op : OutboxOperation}
    (h : afterReclaim remoteName answer = .delivering op) : answer = .ok (.claim (some op)) := by
  unfold afterReclaim at h
  split at h <;> cases h
  rfl

theorem delivering_afterClaim {answer : Answer} {op : OutboxOperation}
    (h : afterClaim answer = .delivering op) : answer = .ok (.claim (some op)) := by
  unfold afterClaim at h
  split at h <;> cases h
  rfl

theorem Turn.grant {host : Host} {phase phase' : Phase} {call : Call} {answer : Answer}
    {op : OutboxOperation} (h : Turn host phase call answer phase')
    (hop : phase' = .delivering op) : grant call answer = some op := by
  cases h with
  | reclaim => rw [delivering_afterReclaim hop]; rfl
  | claim => rw [delivering_afterClaim hop]; rfl
  | report => cases hop

theorem step_delivering {w w' : Palace} {e : Event} (hs : machine.Step w e w') {p : Nat}
    {op : OutboxOperation} (hop : w'.phase p = .delivering op) :
    w.phase p = .delivering op ∨ ∃ l, e = .dispatcher p l ∧
      Outbox.system.Step w.outbox l w'.outbox ∧ grant l.call.call l.answer = some op := by
  cases e with
  | dispatcher q label =>
    obtain ⟨hstep, phase, hturn, hphase⟩ := hs
    rw [hphase] at hop
    by_cases hp : p = q
    · subst hp
      rw [Function.update_self] at hop
      exact .inr ⟨label, rfl, hstep, hturn.grant hop⟩
    · rw [Function.update_of_ne hp] at hop
      exact .inl hop
  | crash q =>
    rw [hs.2] at hop
    by_cases hp : p = q
    · subst hp
      rw [Function.update_self] at hop
      cases hop
    · rw [Function.update_of_ne hp] at hop
      exact .inl hop
  | other label => exact .inl (hs.2 ▸ hop)

/-- The attempts under way: the row was leased, what is stored is that row or a later
revision of it, and no revision of an operation is held twice. -/
structure Held (w : Palace) : Prop where
  leased : ∀ p op, w.phase p = .delivering op → op.state = .leased
  stored : ∀ p op, w.phase p = .delivering op →
    ∃ row, w.outbox.db.operations.get? op.operationId = some row ∧
      (row = op ∨ op.revision < row.revision)
  apart : ∀ p q a b, w.phase p = .delivering a → w.phase q = .delivering b →
    a.operationId = b.operationId → a.revision = b.revision → p = q

/-- A stored row stays, or gives way to a later revision. -/
theorem stored_step {w w' : Palace} {e : Event} (hs : machine.Step w e w') {op row : OutboxOperation}
    (hrow : w.outbox.db.operations.get? op.operationId = some row)
    (hrev : row = op ∨ op.revision < row.revision) :
    ∃ row', w'.outbox.db.operations.get? op.operationId = some row' ∧
      (row' = op ∨ op.revision < row'.revision) := by
  rcases step_outbox hs with heq | ⟨l, hl⟩
  · exact ⟨row, heq ▸ hrow, hrev⟩
  · obtain ⟨row', hrow', rfl | hlater⟩ := step_rewritten hl hrow
    · exact ⟨row', hrow', hrev⟩
    · have hlt := hlater.revision
      refine ⟨row', hrow', .inr ?_⟩
      rcases hrev with rfl | hrev <;> omega

theorem Held.before {w w' : Palace} (h : Held w) {l : Outbox.Label}
    (hs : Outbox.system.Step w.outbox l w'.outbox) {p : Nat} {a b : OutboxOperation}
    (ha : w.phase p = .delivering a) (hb : grant l.call.call l.answer = some b)
    (hid : a.operationId = b.operationId) : a.revision < b.revision := by
  obtain ⟨_, _, op, ts, _, hop, hchange⟩ := (step_outcome hs).grant hb
  obtain ⟨row, hrow, hrev⟩ := h.stored p a ha
  obtain rfl : op = row := by
    rw [hid, hchange.intent.operationId, hop] at hrow
    exact Option.some.inj hrow
  have hnext := hchange.revision
  rcases hrev with rfl | hrev <;> omega

theorem step_held {w w' : Palace} {e : Event} (h : Held w) (hs : machine.Step w e w') : Held w' := by
  constructor
  · intro p op hop
    rcases step_delivering hs hop with hop | ⟨l, _, hl, hgrant⟩
    · exact h.leased p op hop
    · exact ((step_outcome hl).grant hgrant).1
  · intro p op hop
    rcases step_delivering hs hop with hop | ⟨l, _, hl, hgrant⟩
    · obtain ⟨row, hrow, hrev⟩ := h.stored p op hop
      exact stored_step hs hrow hrev
    · exact ⟨op, ((step_outcome hl).grant hgrant).2.1, .inl rfl⟩
  · intro p q a b ha hb hid hrev
    rcases step_delivering hs ha with ha | ⟨l, rfl, hl, hla⟩ <;>
      rcases step_delivering hs hb with hb | ⟨k, hk, hkl, hkb⟩
    · exact h.apart p q a b ha hb hid hrev
    · have := h.before hkl ha hkb hid
      omega
    · have := h.before hl hb hla hid.symm
      omega
    · cases hk
      rfl

theorem reachable_held {w : Palace} (h : machine.Reachable w) : Held w := by
  refine h.invariant (fun w hw => ?_) fun _ _ _ _ hheld hs => step_held hheld hs
  have hidle {p : Nat} {op : OutboxOperation} : w.phase p ≠ .delivering op := by
    rw [hw.2 p]
    nofun
  exact ⟨fun _ _ hp => absurd hp hidle, fun _ _ hp => absurd hp hidle,
    fun _ _ _ _ hp => absurd hp hidle⟩

/-! ## Superseded attempts record nothing -/

theorem Turn.outcomeOf {host : Host} {phase : Phase} {call : Call} {answer : Answer}
    {op : OutboxOperation} (h : Turn host (.delivering op) call answer phase) :
    call.outcomeOf = some (op.operationId, workerId, op.revision) := by
  cases h with
  | report hcall => exact outcomeOf_outcomeCall hcall

/-- **Superseded attempts**: the result of an attempt whose row was written since is
refused, and nothing changes. -/
theorem late_result {w w' : Palace} (h : machine.Reachable w) {p : Nat} {l : Outbox.Label}
    {op : OutboxOperation} (hs : machine.Step w (.dispatcher p l) w')
    (hp : w.phase p = .delivering op)
    (hlate : w.outbox.db.operations.get? op.operationId ≠ some op) :
    w'.outbox.db = w.outbox.db ∧ ∀ row, l.answer ≠ .ok (.write (.applied row)) := by
  obtain ⟨hstep, phase, hturn, _⟩ := hs
  rw [hp] at hturn
  rcases (step_outcome hstep).outcomeOf hturn.outcomeOf with hrefused | ⟨row, hrow, hrev, _⟩
  · exact hrefused
  · obtain ⟨row', hrow', hlater⟩ := (reachable_held h).stored p op hp
    obtain rfl : row = row' := Option.some.inj (hrow.symm.trans hrow')
    rcases hlater with rfl | hlater
    · exact absurd hrow hlate
    · omega

/-! ## The current attempt records its result once -/

theorem outcome_accepted {host : Host} {db db' : OutboxDb} {call : Call} {answer : Answer}
    {op row : OutboxOperation} {worker : String} (h : Outcome host db call answer db')
    (happlied : answer = .ok (.write (.applied row)))
    (hcall : call.outcomeOf = some (op.operationId, worker, op.revision))
    (hop : db.operations.get? op.operationId = some op) (hleased : op.state = .leased) :
    InFlight op worker host.now ∧ db'.operations.get? op.operationId = some row ∧
      row.revision = op.revision + 1 := by
  cases h with
  | rejected | conflict | idle | replayed => cases happlied
  | acknowledgedAgain hack hagain hstate =>
    rw [hack] at hcall
    have hid := (Prod.mk.inj (Option.some.inj hcall)).1
    rw [← hid, hagain, Option.some.injEq] at hop
    rw [hop, hleased] at hstate
    cases hstate
  | @changed old op' ts answer ops hts hold hchange hops =>
    obtain ⟨hid, _, hflight⟩ := hchange.outcomeOf hcall
    obtain rfl : op = old := Option.some.inj (hop.symm.trans (hid ▸ hold))
    obtain rfl : op' = row := by cases hchange <;> cases happlied <;> rfl
    have hsame := hchange.intent.operationId
    have hget := hops.get? (hsame ▸ hold) op.operationId
    exact ⟨hflight, hget.trans (if_pos hsame.symm), hchange.revision⟩
  | enqueued henqueue => rw [henqueue] at hcall; cases hcall

/-- **Recorded once**: a result is accepted from the attempt whose row is stored, while its lease
lasts; and no run stores that row again, so no result for the attempt is accepted twice. -/
theorem recorded_once {w w' : Palace} (h : machine.Reachable w) {p : Nat} {l : Outbox.Label}
    {op row : OutboxOperation} (hs : machine.Step w (.dispatcher p l) w')
    (hp : w.phase p = .delivering op) (happlied : l.answer = .ok (.write (.applied row))) :
    w.outbox.db.operations.get? op.operationId = some op ∧ InFlight op workerId l.call.host.now ∧
      ∀ es w'', Run machine w' es w'' → w''.outbox.db.operations.get? op.operationId ≠ some op := by
  have hcurrent : w.outbox.db.operations.get? op.operationId = some op := by
    by_contra hlate
    exact (late_result h hs hp hlate).2 row happlied
  obtain ⟨hstep, phase, hturn, _⟩ := hs
  rw [hp] at hturn
  obtain ⟨hflight, hafter, hrev⟩ := outcome_accepted (step_outcome hstep) happlied hturn.outcomeOf
    hcurrent ((reachable_held h).leased p op hp)
  refine ⟨hcurrent, hflight, fun es w'' hrun hagain => ?_⟩
  obtain ⟨ls, hls⟩ := run_outbox hrun
  have hkept := (run_unwritten (.single hstep) hls hcurrent hagain rfl).1
  rw [hafter, Option.some.injEq] at hkept
  rw [hkept] at hrev
  omega

/-! ## Deliveries of a group -/

theorem reachable_outbox {w : Palace} (h : machine.Reachable w) :
    Outbox.system.Reachable w.outbox := by
  obtain ⟨w₀, es, hinit, hrun⟩ := h
  obtain ⟨ls, hls⟩ := run_outbox hrun
  exact ⟨w₀.outbox, ls, hinit.1, hls⟩

/-- The dispatcher delivers the operation as it is stored. -/
def Palace.Delivers (w : Palace) (p : Nat) (op : OutboxOperation) : Prop :=
  w.phase p = .delivering op ∧ w.outbox.db.operations.get? op.operationId = some op

/-- **Deliveries**: at most one dispatcher delivers a stored operation of a group, and what stands
before it there is over; and no dispatcher is handed an operation that was replicated. -/
theorem delivers_in_order {w : Palace} (h : machine.Reachable w) :
    (∀ p q a b, w.Delivers p a → w.Delivers q b → a.SameGroup b → q = p ∧ b = a) ∧
    (∀ p a, w.Delivers p a → ∀ r ∈ w.outbox.db.operations.rows, r.SameGroup a →
      r.sequence < a.sequence → r.state.terminal = true) ∧
    ∀ a ∈ w.outbox.db.operations.rows, a.state = .replicated → ∀ es x e y p b,
      Run machine w es x → machine.Step x e y → y.phase p = .delivering b →
      x.phase p ≠ .delivering b → b.operationId ≠ a.operationId := by
  have hheld := reachable_held h
  have horder := inOrder_of_fifo (reachable_fifo (reachable_outbox h))
  refine ⟨fun p q a b ha hb hgroup => ?_, fun p a ha r hr => ?_, ?_⟩
  · obtain rfl : a = b := horder.one_leased a (mem_rows.2 ha.2) b (mem_rows.2 hb.2) hgroup
      (hheld.leased p a ha.1) (hheld.leased q b hb.1)
    exact ⟨hheld.apart q p a a hb.1 ha.1 rfl rfl, rfl⟩
  · exact horder.none_before a (mem_rows.2 ha.2) r hr (hheld.leased p a ha.1)
  · intro a ha hstate es x e y p b hrun hs hb hnew hid
    obtain ⟨l, _, hl, hgrant⟩ := (step_delivering hs hb).resolve_left hnew
    obtain ⟨ls, hls⟩ := run_outbox (hrun.append (.single hs))
    have hfinal := replicated_final hls ha hstate
    obtain ⟨hleased, hget, _⟩ := (step_outcome hl).grant hgrant
    rw [hid, mem_rows.1 hfinal] at hget
    rw [← Option.some.inj hget, hstate] at hleased
    cases hleased

/-! ## A sample palace -/

theorem run_idle {s s' : Outbox.State} {ls : List Outbox.Label} (h : Run Outbox.system s ls s') :
    Run machine ⟨s, fun _ => .idle⟩ (ls.map .other) ⟨s', fun _ => .idle⟩ := by
  induction h with
  | nil => exact .nil _
  | cons hs _ ih =>
    exact .cons (show machine.Step ⟨_, _⟩ (.other _) ⟨_, _⟩ from ⟨hs, rfl⟩) ih

def sampleLook : Request := ⟨sampleHost 0 "", reclaimCall "hub"⟩

def sampleTake : Request := ⟨sampleHost 0 "", claimCall "hub"⟩

def sampleLooked : List Request := sampleQueue ++ [sampleLook]

/-- A dispatcher finds no lease to take over, and claims the first of two changes. -/
def sampleTaken : List Request := sampleLooked ++ [sampleTake]

def looking : Nat → Phase := Function.update (fun _ => .idle) 0 (.looking "hub")

theorem sample_delivers : ∃ op phase, op.operationId = "outbox_1" ∧ op.revision = 2 ∧
    machine.Reachable ⟨after sampleTaken, phase⟩ ∧
    Palace.Delivers ⟨after sampleTaken, phase⟩ 0 op := by
  obtain ⟨s, ls, hinit, hrun⟩ := reachable_after sampleQueue (by decide)
  have hidle : machine.Reachable ⟨after sampleQueue, fun _ => .idle⟩ :=
    ⟨⟨s, fun _ => .idle⟩, _, ⟨hinit, fun _ => rfl⟩, run_idle hrun⟩
  have hlook : machine.Step ⟨after sampleQueue, fun _ => .idle⟩
      (.dispatcher 0 (labelOf sampleQueue sampleLook)) ⟨after sampleLooked, looking⟩ := by
    refine ⟨step_after sampleQueue sampleLook (by decide), .looking "hub", ?_, rfl⟩
    have hnone : answerTo sampleQueue sampleLook = .ok (.claim none) := by decide
    show Turn _ .idle _ (answerTo sampleQueue sampleLook) _
    rw [hnone]
    exact .reclaim "hub" _
  have hsome : ((after sampleTaken).db.operations.get? "outbox_1").map (·.revision) = some 2 := by
    decide
  obtain ⟨op, hop, hrev⟩ := Option.map_eq_some_iff.1 hsome
  have htake : machine.Step ⟨after sampleLooked, looking⟩
      (.dispatcher 0 (labelOf sampleLooked sampleTake))
      ⟨after sampleTaken, Function.update looking 0 (.delivering op)⟩ := by
    refine ⟨step_after sampleLooked sampleTake (by decide), .delivering op, ?_, rfl⟩
    have hanswer : answerTo sampleLooked sampleTake =
        .ok (.claim ((after sampleTaken).db.operations.get? "outbox_1")) := by decide
    show Turn _ (.looking "hub") _ (answerTo sampleLooked sampleTake) _
    rw [hanswer, hop]
    exact .claim "hub" _
  have hid : op.operationId = "outbox_1" := Table.get?_key hop
  exact ⟨op, _, hid, hrev, (hidle.step hlook).step htake,
    Function.update_self 0 (Phase.delivering op) looking, hid ▸ hop⟩

theorem delivers_in_order_sample : ∃ op phase, op.operationId = "outbox_1" ∧
    ∀ q b, Palace.Delivers ⟨after sampleTaken, phase⟩ q b → op.SameGroup b → q = 0 ∧ b = op := by
  obtain ⟨op, phase, hid, _, hreach, hdelivers⟩ := sample_delivers
  exact ⟨op, phase, hid, fun q b => (delivers_in_order hreach).1 0 q op b hdelivers⟩

def sampleReport : Request := ⟨sampleHost 0 "", .acknowledge "outbox_1" workerId 2⟩

/-- The first change is acknowledged: the row that was delivered is no longer stored. -/
theorem recorded_once_sample : ∃ op, op.operationId = "outbox_1" ∧
    (after (sampleTaken ++ [sampleReport])).db.operations.get? op.operationId ≠ some op := by
  obtain ⟨op, phase, hid, hrev, hreach, hdelivers⟩ := sample_delivers
  have hcall : outcomeCall id ⟨0, 0⟩ op (.ok ()) = some sampleReport.call := by
    show some (Call.acknowledge op.operationId workerId op.revision) = _
    rw [hid, hrev]
    rfl
  obtain ⟨row, hrow⟩ : ∃ row, answerTo sampleTaken sampleReport = .ok (.write (.applied row)) :=
    ⟨((after (sampleTaken ++ [sampleReport])).db.operations.get? "outbox_1").get (by decide),
      by decide⟩
  have hphase : phase 0 = .delivering op := hdelivers.1
  have hstep : machine.Step ⟨after sampleTaken, phase⟩ (.dispatcher 0 (labelOf sampleTaken sampleReport))
      ⟨after (sampleTaken ++ [sampleReport]), Function.update phase 0 .idle⟩ := by
    refine ⟨step_after sampleTaken sampleReport (by decide), .idle, ?_, rfl⟩
    show Turn _ (phase 0) _ _ _
    rw [hphase]
    exact .report hcall _
  exact ⟨op, hid, (recorded_once hreach hstep hphase hrow).2.2 [] _ (.nil _)⟩

end AgentPalace.Replication
