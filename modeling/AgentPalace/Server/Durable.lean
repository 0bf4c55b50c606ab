import AgentPalace.Server.ReconcilePass

/-!
# An acknowledged add is durable

Requests, retries and reconciliations run step by step on one palace, in any
order; a crash ends all of them and leaves what they wrote. A drawer is owed from
the answer of its add until another operation targets it.

A row is safe from reconciliation while a committed run lists it. An add that
commits its run makes its drawer safe. A recovery answers because the row is
there, whatever has become of the run that wrote it: `add_durable` says when an
owed drawer stays, and `recovered_drawer_lost` shows one that does not.
-/

namespace AgentPalace.Server

open Ingest (IngestDb IngestRun Wf Created Marked)

structure Thread where
  req : Prepared
  phase : Phase
  /-- Whether another operation has targeted the drawer since the request found or wrote it. -/
  hit : Bool

structure AddWorld where
  palace : Palace
  threads : Nat → Option Thread
  passes : Nat → Option PassPhase
  /-- The drawers of the adds that were answered with success, without those targeted since. -/
  owed : List DrawerId

inductive AddEvent where
  /-- A request arrives; it may take the place of one whose client has gone. -/
  | request (n : Nat) (identity : AuthIdentity) (body : AddDrawerRequest) (now : OffsetDateTime)
  | advance (n : Nat) (env : Surroundings)
  | crash
  | reconcile (p : Nat) (now : OffsetDateTime)
  | advancePass (p : Nat) (env : Surroundings)
  /-- A step of another operation, and the drawers that operation deletes, replaces or prunes. -/
  | other (ids : List DrawerId) (palace : Palace)

namespace Thread

/-- The mark after a step: it starts with the read or write of the row. -/
def hitAfter (t : Thread) : Bool :=
  match t.phase with
  | .getDrawer _ | .addRow _ => false
  | _ => t.hit

/-- The drawer that the step of a request makes owed. -/
def earns (t : Thread) (p' : Phase) : List DrawerId :=
  match t.phase.answers, p'.answers with
  | none, some id => if t.hit then [] else [id]
  | _, _ => []

def target (ids : List DrawerId) (t : Thread) : Thread :=
  { t with hit := t.hit || t.phase.written.any (· ∈ ids) }

end Thread

def AddWorld.exec (profile : Profile) (w : AddWorld) : AddEvent → AddWorld
  | .request n identity body now =>
    { w with
      threads := Function.update w.threads n
        ((prepare profile identity body now).toOption.map fun req => ⟨req, .beginReceipt, false⟩) }
  | .advance n env =>
    match w.threads n with
    | none => w
    | some t =>
      let r := t.phase.next profile t.req env w.palace
      { w with
        palace := r.2
        threads := Function.update w.threads n (some ⟨t.req, r.1, t.hitAfter⟩)
        owed := t.earns r.1 ++ w.owed }
  | .crash => { w with threads := fun _ => none, passes := fun _ => none }
  | .reconcile p now => { w with passes := Function.update w.passes p (some (startReconcile now)) }
  | .advancePass p env =>
    match w.passes p with
    | none => w
    | some pass =>
      let r := pass.next env w.palace
      { w with palace := r.2, passes := Function.update w.passes p (some r.1) }
  | .other ids palace =>
    { w with
      palace, threads := fun n => (w.threads n).map (Thread.target ids)
      owed := w.owed.filter (· ∉ ids) }

/-- The run of an add that is not committed: it is no committed run, and it lists the drawer. -/
structure Held (s : Palace) (add : Ingesting) : Prop where
  runId_le : add.runId ≤ s.ingest.lastRunId
  run : ∀ r ∈ s.ingest.runs.rows, r.id = add.runId →
    r.status ≠ .committed ∧ Ingest.Entry s.ingest r.id add.row.id

/-- What a step of another operation leaves: the rows and the committed manifests of the drawers
that the operation does not target, and the runs that requests are at. -/
structure Leaves (ids : List DrawerId) (w : AddWorld) (s' : Palace) : Prop where
  wf : Wf s'.ingest
  rows : ∀ id ∈ w.palace.ids, id ∉ ids → id ∈ s'.ids
  committed : ∀ r ∈ w.palace.ingest.runs.rows, r.status = .committed → ∀ id ∉ ids,
    Ingest.Entry w.palace.ingest r.id id → r ∈ s'.ingest.runs.rows ∧ Ingest.Entry s'.ingest r.id id
  held : ∀ n t add, w.threads n = some t → t.phase.holds = some add → Held s' add

def AddEvent.Allowed (w : AddWorld) : AddEvent → Prop
  | other ids palace => Leaves ids w palace
  | _ => True

/-- The server, its clients and its reconciliations. -/
def adds (profile : Profile) : Machine AddWorld AddEvent where
  Init w := Wf w.palace.ingest ∧ (∀ n, w.threads n = none) ∧ (∀ p, w.passes p = none) ∧ w.owed = []
  Step w e w' := e.Allowed w ∧ w' = w.exec profile e

def Durable (M : Machine AddWorld AddEvent) : Prop :=
  ∀ w, M.Reachable w → ∀ id ∈ w.owed, id ∈ w.palace.ids

/-! ## The condition -/

/-- A committed run lists the drawer and no reconciliation is about to undo that. -/
structure Secure (w : AddWorld) (id : DrawerId) : Prop where
  committed : ∃ r ∈ w.palace.ingest.runs.rows, r.status = .committed ∧
    Ingest.Entry w.palace.ingest r.id id ∧ ∀ p pass, w.passes p = some pass → r.id ∉ pass.toFail
  spared : ∀ p pass, w.passes p = some pass → id ∉ pass.doomed

/-- A recovery finds its row under a committed run only; an add commits its run while its row is
stored and no reconciliation has read the run as stale or the drawer as uncommitted. -/
def CarefulPhase (w : AddWorld) (hit : Bool) : Phase → Prop
  | .getDrawer target => target ∈ w.palace.ids → Secure w target
  | .markRunCommitted add => (hit = false → add.row.id ∈ w.palace.ids) ∧
      ∀ p pass, w.passes p = some pass → add.runId ∉ pass.toFail ∧ add.row.id ∉ pass.doomed
  | _ => True

def Careful (w : AddWorld) : AddEvent → Prop
  | .advance n _ => ∀ t, w.threads n = some t → CarefulPhase w t.hit t.phase
  | _ => True

/-! ## The invariant -/

structure Kept (w : AddWorld) (id : DrawerId) : Prop where
  stored : id ∈ w.palace.ids
  secure : Secure w id

structure AddInv (w : AddWorld) : Prop where
  wf : Wf w.palace.ingest
  owed : ∀ id ∈ w.owed, Kept w id
  held : ∀ n t add, w.threads n = some t → t.phase.holds = some add → Held w.palace add
  apart : ∀ n m t u a b, w.threads n = some t → w.threads m = some u → t.phase.holds = some a →
    u.phase.holds = some b → a.runId = b.runId → n = m
  settled : ∀ n t id, w.threads n = some t → t.hit = false → t.phase.settled = some id → Kept w id

/-- Committed runs and rows that stay keep a drawer. -/
theorem Kept.of_stays {w w' : AddWorld} {id : DrawerId} (h : Kept w id)
    (hids : id ∈ w'.palace.ids)
    (hruns : ∀ r ∈ w.palace.ingest.runs.rows, r.status = .committed →
      Ingest.Entry w.palace.ingest r.id id → (∀ p pass, w.passes p = some pass → r.id ∉ pass.toFail) →
      ∃ r' ∈ w'.palace.ingest.runs.rows, r'.id = r.id ∧ r'.status = .committed ∧
        Ingest.Entry w'.palace.ingest r.id id ∧ ∀ p pass, w'.passes p = some pass → r.id ∉ pass.toFail)
    (hspared : ∀ p pass, w'.passes p = some pass → id ∉ pass.doomed) : Kept w' id := by
  obtain ⟨r, hr, hstatus, hentry, hnot⟩ := h.secure.committed
  obtain ⟨r', hr', hid, hstatus', hentry', hnot'⟩ := hruns r hr hstatus hentry hnot
  exact ⟨hids, ⟨r', hr', hstatus', hid ▸ hentry', hid ▸ hnot'⟩, hspared⟩

theorem Kept.congr {w w' : AddWorld} {id : DrawerId} (h : Kept w id)
    (hpalace : w'.palace = w.palace) (hpasses : w'.passes = w.passes) : Kept w' id := by
  refine h.of_stays (hpalace ▸ h.stored) (fun r hr hstatus hentry hnot => ?_) fun p pass hp =>
    h.secure.spared p pass (hpasses ▸ hp)
  exact ⟨r, hpalace ▸ hr, rfl, hstatus, hpalace ▸ hentry,
    fun p pass hp => hnot p pass (hpasses ▸ hp)⟩

/-! ## A step of a request -/

section
variable {w : AddWorld} {p p' : Phase} {s' : Palace} {id : DrawerId}

theorem moved_wf (h : p.Moved w.palace p' s') (hwf : Wf w.palace.ingest) : Wf s'.ingest := by
  cases h with
  | quiet hingest => exact hingest ▸ hwf
  | found => exact hwf
  | created h => exact h.wf hwf
  | wrote => exact hwf
  | committed _ _ h => exact h.wf hwf
  | failed h => exact h.wf hwf

theorem moved_ids (h : p.Moved w.palace p' s') (hid : id ∈ w.palace.ids) : id ∈ s'.ids := by
  unfold Palace.ids at *
  cases h with
  | quiet _ hdrawers => exact hdrawers ▸ hid
  | found => exact hid
  | created => exact hid
  | wrote => exact List.map_append ▸ List.mem_append_left _ hid
  | committed => exact hid
  | failed => exact hid

theorem moved_committed (h : p.Moved w.palace p' s')
    (hheld : ∀ add, p.holds = some add → Held w.palace add) {r : IngestRun}
    (hr : r ∈ w.palace.ingest.runs.rows) (hstatus : r.status = .committed)
    (hentry : Ingest.Entry w.palace.ingest r.id id) :
    ∃ r' ∈ s'.ingest.runs.rows, r'.id = r.id ∧ r'.status = .committed ∧
      Ingest.Entry s'.ingest r.id id := by
  cases h with
  | quiet hingest => exact hingest ▸ ⟨r, hr, rfl, hstatus, hentry⟩
  | found => exact ⟨r, hr, rfl, hstatus, hentry⟩
  | created h => exact ⟨r, (h.runs r).2 (.inl hr), rfl, hstatus, h.entry.2 (.inl hentry)⟩
  | wrote => exact ⟨r, hr, rfl, hstatus, hentry⟩
  | committed _ _ h =>
    refine ⟨_, (h.runs _).2 ⟨r, hr, rfl⟩, Ingest.marked_id, ?_, h.entry.2 hentry⟩
    rw [Ingest.marked_status]
    split
    · rfl
    · exact hstatus
  | failed h =>
    have hother := fun hid => ((hheld _ rfl).run r hr hid).1 hstatus
    exact ⟨r, (h.committed_run hother).2 hr, rfl, hstatus, h.entry.2 hentry⟩

theorem Held.marked {s : Palace} {db : IngestDb} {add : Ingesting} {runId : Int}
    {outcome : Ingest.IngestRunStatus} {now : OffsetDateTime} {reason : Option String}
    (h : Held s add) (hmark : Marked s.ingest runId outcome now reason db)
    (hother : outcome = .committed → runId ≠ add.runId) : Held { s with ingest := db } add where
  runId_le := hmark.lastRunId ▸ h.runId_le
  run r hr hid := by
    obtain ⟨r₀, hr₀, rfl⟩ := (hmark.runs r).1 hr
    rw [Ingest.marked_id] at hid ⊢
    rw [Ingest.marked_status, hmark.entry]
    obtain ⟨hstatus, hentry⟩ := h.run r₀ hr₀ hid
    refine ⟨?_, hentry⟩
    split
    · rename_i heq
      exact fun hcommitted => hother hcommitted (heq.symm.trans hid)
    · exact hstatus

theorem moved_held_other {add : Ingesting} (h : p.Moved w.palace p' s') (hheld : Held w.palace add)
    (hother : ∀ a, p.holds = some a → a.runId ≠ add.runId) : Held s' add := by
  cases h with
  | quiet hingest => exact ⟨hingest ▸ hheld.runId_le, hingest ▸ hheld.run⟩
  | found => exact hheld
  | created h =>
    have hle := hheld.runId_le
    refine ⟨?_, fun r hr hid => ?_⟩
    · rw [h.lastRunId]
      simp only [Ingest.newRun]
      omega
    · rcases (h.runs r).1 hr with hr | rfl
      · exact (hheld.run r hr hid).imp_right fun hentry => h.entry.2 (.inl hentry)
      · simp only [Ingest.newRun] at hid
        omega
  | wrote => exact ⟨hheld.runId_le, hheld.run⟩
  | committed _ _ h => exact hheld.marked h fun _ => hother _ rfl
  | failed h => exact hheld.marked h fun hfailed => by cases hfailed

theorem moved_held_self {add : Ingesting} (hwf : Wf w.palace.ingest) (h : p.Moved w.palace p' s')
    (hheld : ∀ a, p.holds = some a → Held w.palace a) (hadd : p'.holds = some add) :
    Held s' add ∧ (p.holds = some add ∨ add.runId = w.palace.ingest.lastRunId + 1) := by
  cases h with
  | quiet hingest _ hholds =>
    rcases hholds with hnone | hsame
    · rw [hnone] at hadd; cases hadd
    · have hp := hsame ▸ hadd
      have ha := hheld add hp
      exact ⟨⟨hingest ▸ ha.runId_le, hingest ▸ ha.run⟩, .inl hp⟩
  | found => cases hadd
  | created h =>
    cases hadd
    refine ⟨⟨h.lastRunId ▸ le_rfl, fun r hr hid => ?_⟩, .inr rfl⟩
    rcases (h.runs r).1 hr with hr' | rfl
    · have hle := hwf.id_le r hr'
      simp only at hid
      omega
    · refine ⟨fun hstatus => ?_, h.entry.2 (.inr ⟨rfl, _, List.mem_singleton_self _, rfl⟩)⟩
      cases hstatus
  | wrote =>
    cases hadd
    have ha := hheld _ rfl
    exact ⟨⟨ha.runId_le, ha.run⟩, .inl rfl⟩
  | committed => cases hadd
  | failed => cases hadd

end

section
variable {profile : Profile} {w : AddWorld} {n : Nat} {t : Thread} {env : Surroundings}

def AddWorld.advance (w : AddWorld) (n : Nat) (t : Thread) (p' : Phase) (s' : Palace) : AddWorld :=
  { w with
    palace := s', threads := Function.update w.threads n (some ⟨t.req, p', t.hitAfter⟩)
    owed := t.earns p' ++ w.owed }

variable {p' : Phase} {s' : Palace} {id : DrawerId}

theorem Kept.advance (hinv : AddInv w) (ht : w.threads n = some t)
    (h : t.phase.Moved w.palace p' s') (hkept : Kept w id) : Kept (w.advance n t p' s') id := by
  refine hkept.of_stays (moved_ids h hkept.stored) (fun r hr hstatus hentry hnot => ?_)
    hkept.secure.spared
  obtain ⟨r', hr', hid, hstatus', hentry'⟩ :=
    moved_committed h (fun add => hinv.held n t add ht) hr hstatus hentry
  exact ⟨r', hr', hid, hstatus', hentry', hnot⟩

/-- What a careful step of a request has found or committed is kept. -/
theorem advance_settled (hinv : AddInv w) (ht : w.threads n = some t)
    (hcareful : CarefulPhase w t.hit t.phase) (h : t.phase.Moved w.palace p' s')
    (hhit : t.hitAfter = false) (hid : p'.settled = some id) : Kept (w.advance n t p' s') id := by
  obtain ⟨req, p, hit⟩ := t
  dsimp only at h hcareful
  cases h with
  | quiet _ _ _ hsettled =>
    rcases hsettled with hnone | hsame
    · rw [hnone] at hid; cases hid
    · have hp : p.settled = some id := hsame ▸ hid
      have hhit' : hit = false := by
        cases p with
        | getDrawer => cases hp
        | addRow => cases hp
        | _ => exact hhit
      exact (hinv.settled n _ id ht hhit' hp).advance hinv ht (.quiet ‹_› ‹_› ‹_› (.inr hsame) ‹_›)
  | found hrow =>
    cases hid
    exact Kept.advance hinv ht (.found hrow) ⟨hrow, hcareful hrow⟩
  | created => cases hid
  | wrote => cases hid
  | @committed add run db now hrun hrunId h =>
    cases hid
    obtain ⟨hstored, hpasses⟩ := hcareful
    have hentry := (hinv.held n _ add ht rfl).run run hrun hrunId
    refine ⟨hstored hhit, ⟨_, (h.runs _).2 ⟨run, hrun, rfl⟩, ?_, ?_, fun p pass hp => ?_⟩,
      fun p pass hp => (hpasses p pass hp).2⟩
    · rw [Ingest.marked_status, if_pos hrunId]
    · rw [Ingest.marked_id]
      exact h.entry.2 hentry.2
    · rw [Ingest.marked_id, hrunId]
      exact (hpasses p pass hp).1
  | failed => cases hid

theorem advance_threads {m : Nat} {u : Thread}
    (hu : (w.advance n t p' s').threads m = some u) :
    m = n ∧ u = ⟨t.req, p', t.hitAfter⟩ ∨ m ≠ n ∧ w.threads m = some u := by
  by_cases hm : m = n
  · subst hm
    refine .inl ⟨rfl, ?_⟩
    simp only [AddWorld.advance, Function.update_self] at hu
    exact (Option.some.inj hu).symm
  · refine .inr ⟨hm, ?_⟩
    simp only [AddWorld.advance, Function.update_of_ne hm] at hu
    exact hu

theorem mem_earns (h : id ∈ t.earns p') :
    t.hit = false ∧ t.phase.answers = none ∧ p'.answers = some id := by
  unfold Thread.earns at h
  split at h
  · rename_i hold hnew
    split at h
    · cases h
    · rename_i hhit
      rw [List.mem_singleton] at h
      subst h
      exact ⟨Bool.not_eq_true _ ▸ hhit, hold, hnew⟩
  · cases h

theorem moved_answers (h : t.phase.Moved w.palace p' s') (hold : t.phase.answers = none)
    (hnew : p'.answers = some id) : t.phase.settled = some id := by
  obtain ⟨req, p, hit⟩ := t
  dsimp only at h hold ⊢
  cases h with
  | quiet _ _ _ _ hanswers =>
    rcases hanswers with hnone | hsame | hsettled
    · rw [hnone] at hnew; cases hnew
    · rw [hsame, hold] at hnew; cases hnew
    · exact hsettled ▸ hnew
  | found => cases hnew
  | created => cases hnew
  | wrote => cases hnew
  | committed => cases hnew
  | failed => cases hnew

theorem AddInv.advance (hinv : AddInv w) (ht : w.threads n = some t)
    (hcareful : CarefulPhase w t.hit t.phase) (h : t.phase.Moved w.palace p' s') :
    AddInv (w.advance n t p' s') := by
  have hself : ∀ add, p'.holds = some add → Held s' add ∧
      (t.phase.holds = some add ∨ add.runId = w.palace.ingest.lastRunId + 1) :=
    fun _ => moved_held_self hinv.wf h fun a => hinv.held n t a ht
  refine ⟨moved_wf h hinv.wf, fun id hid => ?_, fun m u add hu hadd => ?_,
    fun m k u v a b hu hv ha hb hrun => ?_, fun m u id hu hhit hid => ?_⟩
  · rcases List.mem_append.1 hid with hid | hid
    · obtain ⟨hhit, hold, hnew⟩ := mem_earns hid
      have hsettled := moved_answers h hold hnew
      exact (hinv.settled n t id ht hhit hsettled).advance hinv ht h
    · exact (hinv.owed id hid).advance hinv ht h
  · rcases advance_threads hu with ⟨rfl, rfl⟩ | ⟨hm, hu⟩
    · exact (hself add hadd).1
    · refine moved_held_other h (hinv.held m u add hu hadd) fun a ha hrun => hm ?_
      exact (hinv.apart n m t u a add ht hu ha hadd hrun).symm
  · -- A run that is new is no other request's.
    have hnew : ∀ {m u a}, m ≠ n → w.threads m = some u → u.phase.holds = some a →
        a.runId ≠ w.palace.ingest.lastRunId + 1 := by
      intro m u a _ hu ha
      have hle := (hinv.held m u a hu ha).runId_le
      omega
    rcases advance_threads hu with ⟨rfl, rfl⟩ | ⟨hm, hu'⟩ <;>
      rcases advance_threads hv with ⟨rfl, rfl⟩ | ⟨hk, hv'⟩
    · rfl
    · rcases (hself a ha).2 with hp | hlast
      · exact hinv.apart _ _ _ _ a b ht hv' hp hb hrun
      · exact absurd (hrun.symm.trans hlast) (hnew hk hv' hb)
    · rcases (hself b hb).2 with hp | hlast
      · exact hinv.apart _ _ _ _ a b hu' ht ha hp hrun
      · exact absurd (hrun.trans hlast) (hnew hm hu' ha)
    · exact hinv.apart _ _ _ _ a b hu' hv' ha hb hrun
  · rcases advance_threads hu with ⟨rfl, rfl⟩ | ⟨_, hu⟩
    · exact advance_settled hinv ht hcareful h hhit hid
    · exact (hinv.settled m u id hu hhit hid).advance hinv ht h

end

/-! ## A step of a reconciliation -/

section
variable {w : AddWorld} {k : Nat} {pass pass' : PassPhase} {s' : Palace} {id : DrawerId}

/-- The palace after the step of a reconciliation. -/
def AddWorld.advancePass (w : AddWorld) (k : Nat) (pass' : PassPhase) (s' : Palace) : AddWorld :=
  { w with palace := s', passes := Function.update w.passes k (some pass') }

theorem advancePass_passes {p : Nat} {q : PassPhase}
    (hq : (w.advancePass k pass' s').passes p = some q) :
    q = pass' ∨ w.passes p = some q := by
  simp only [AddWorld.advancePass, Function.update_apply] at hq
  split at hq
  · exact .inl (Option.some.inj hq).symm
  · exact .inr hq

/-- **A reconciliation spares what is kept.** -/
theorem Kept.advancePass (hpass : w.passes k = some pass) (h : PassMoved w.palace pass pass' s')
    (hkept : Kept w id) : Kept (w.advancePass k pass' s') id := by
  obtain ⟨r, hr, hstatus, hentry, hnot⟩ := hkept.secure.committed
  have hspared : id ∉ pass'.doomed := by
    intro hid
    rcases h.doomed id hid with hdoomed | hcommitted
    · exact hkept.secure.spared k pass hpass hdoomed
    · exact hcommitted ⟨r, hr, hstatus, hentry⟩
  refine hkept.of_stays (h.ids id hkept.stored (hkept.secure.spared k pass hpass))
    (fun r hr hstatus hentry hnot => ?_) fun p q hq => ?_
  · have hfail : r.id ∉ pass'.toFail := by
      intro hmem
      rcases h.toFail r.id hmem with hold | ⟨run, hrun, hid, hpending⟩
      · exact hnot k pass hpass hold
      · rw [Ingest.run_unique hrun hr hid, hstatus] at hpending
        cases hpending
    have hnot' : ∀ p q, (w.advancePass k pass' s').passes p = some q → r.id ∉ q.toFail := by
      intro p q hq
      rcases advancePass_passes hq with rfl | hq
      · exact hfail
      · exact hnot p q hq
    rcases h.ingest with ⟨_, hruns, hmanifests⟩ | ⟨r', hr', at_, reason, hmark⟩
    · refine ⟨r, ?_, rfl, hstatus, ?_, hnot'⟩
      · exact hruns ▸ hr
      · obtain ⟨m, hm, hentry⟩ := hentry
        exact ⟨m, hmanifests ▸ hm, hentry⟩
    · have hne : r.id ≠ r' := fun heq => hnot k pass hpass (heq ▸ hr')
      exact ⟨r, (hmark.committed_run hne).2 hr, rfl, hstatus, hmark.entry.2 hentry, hnot'⟩
  · rcases advancePass_passes hq with rfl | hq
    · exact hspared
    · exact hkept.secure.spared p q hq

theorem AddInv.advancePass (hinv : AddInv w) (hpass : w.passes k = some pass)
    (h : PassMoved w.palace pass pass' s') : AddInv (w.advancePass k pass' s') := by
  refine ⟨?_, fun id hid => (hinv.owed id hid).advancePass hpass h, fun m u add hu hadd => ?_,
    hinv.apart, fun m u id hu hhit hid => (hinv.settled m u id hu hhit hid).advancePass hpass h⟩
  · rcases h.ingest with ⟨hlast, hruns, hmanifests⟩ | ⟨_, _, _, _, hmark⟩
    · refine ⟨fun r hr => ?_, fun m hm => ?_⟩
      · exact hlast ▸ hinv.wf.id_le r (hruns ▸ hr)
      · obtain ⟨r, hr, hrest⟩ := hinv.wf.entry m (hmanifests ▸ hm)
        exact ⟨r, hruns ▸ hr, hrest⟩
    · exact hmark.wf hinv.wf
  · have hheld := hinv.held m u add hu hadd
    rcases h.ingest with ⟨hlast, hruns, hmanifests⟩ | ⟨_, _, _, _, hmark⟩
    · refine ⟨hlast ▸ hheld.runId_le, fun r hr hid => ?_⟩
      obtain ⟨hstatus, m', hm', hentry⟩ := hheld.run r (hruns ▸ hr) hid
      exact ⟨hstatus, m', hmanifests ▸ hm', hentry⟩
    · have := hheld.marked hmark fun hfailed => by cases hfailed
      exact ⟨this.runId_le, this.run⟩

end

/-! ## Other steps -/

section
variable {w : AddWorld}

theorem AddInv.request (hinv : AddInv w) (n : Nat) (o : Option Thread)
    (ho : ∀ t, o = some t → t.phase = .beginReceipt) :
    AddInv { w with threads := Function.update w.threads n o } := by
  have hthreads : ∀ {m t}, Function.update w.threads n o m = some t →
      t.phase = .beginReceipt ∨ w.threads m = some t := by
    intro m t ht
    rw [Function.update_apply] at ht
    split at ht
    · exact .inl (ho t ht)
    · exact .inr ht
  refine ⟨hinv.wf, fun id hid => (hinv.owed id hid).congr rfl rfl, fun m t add ht hadd => ?_,
    fun m k t u a b ht hu ha hb => ?_, fun m t id ht hhit hid => ?_⟩
  · rcases hthreads ht with hphase | ht
    · rw [hphase] at hadd; cases hadd
    · exact hinv.held m t add ht hadd
  · rcases hthreads ht with hphase | ht
    · rw [hphase] at ha; cases ha
    · rcases hthreads hu with hphase | hu
      · rw [hphase] at hb; cases hb
      · exact hinv.apart m k t u a b ht hu ha hb
  · rcases hthreads ht with hphase | ht
    · rw [hphase] at hid; cases hid
    · exact (hinv.settled m t id ht hhit hid).congr rfl rfl

theorem AddInv.crash (hinv : AddInv w) :
    AddInv { w with threads := fun _ => none, passes := fun _ => none } := by
  refine ⟨hinv.wf, fun id hid => ?_, fun n t add ht => ?_, fun n m t u a b ht => ?_,
    fun n t id ht => ?_⟩
  · refine (hinv.owed id hid).of_stays (hinv.owed id hid).stored
      (fun r hr hstatus hentry _ => ⟨r, hr, rfl, hstatus, hentry, fun p pass hp => ?_⟩)
      fun p pass hp => ?_
    · cases hp
    · cases hp
  · cases ht
  · cases ht
  · cases ht

theorem AddInv.reconcile (hinv : AddInv w) (k : Nat) (now : OffsetDateTime) :
    AddInv { w with passes := Function.update w.passes k (some (startReconcile now)) } := by
  have hpasses : ∀ {p pass}, Function.update w.passes k (some (startReconcile now)) p = some pass →
      pass = startReconcile now ∨ w.passes p = some pass := by
    intro p pass hp
    rw [Function.update_apply] at hp
    split at hp
    · exact .inl (Option.some.inj hp).symm
    · exact .inr hp
  have hkept : ∀ {id}, Kept w id →
      Kept { w with passes := Function.update w.passes k (some (startReconcile now)) } id := by
    intro id h
    refine h.of_stays h.stored
      (fun r hr hstatus hentry hnot => ⟨r, hr, rfl, hstatus, hentry, fun p pass hp => ?_⟩)
      fun p pass hp => ?_
    · rcases hpasses hp with rfl | hp
      · exact List.not_mem_nil
      · exact hnot p pass hp
    · rcases hpasses hp with rfl | hp
      · exact List.not_mem_nil
      · exact h.secure.spared p pass hp
  exact ⟨hinv.wf, fun id hid => hkept (hinv.owed id hid), hinv.held, hinv.apart,
    fun n t id ht hhit hid => hkept (hinv.settled n t id ht hhit hid)⟩

/-- The palace after a step of another operation. -/
def AddWorld.leave (w : AddWorld) (ids : List DrawerId) (s' : Palace) : AddWorld :=
  { w with
    palace := s', threads := fun n => (w.threads n).map (Thread.target ids)
    owed := w.owed.filter (· ∉ ids) }

theorem Kept.leave {ids : List DrawerId} {s' : Palace} {id : DrawerId} (h : Leaves ids w s')
    (hkept : Kept w id) (hid : id ∉ ids) : Kept (w.leave ids s') id := by
  refine hkept.of_stays (h.rows id hkept.stored hid) (fun r hr hstatus hentry hnot => ?_)
    hkept.secure.spared
  obtain ⟨hr', hentry'⟩ := h.committed r hr hstatus id hid hentry
  exact ⟨r, hr', rfl, hstatus, hentry', hnot⟩

/-- A settled drawer is one the request has found or written. -/
theorem Phase.written_of_settled {p : Phase} {id : DrawerId} (h : p.settled = some id) :
    p.written = some id := by
  cases p with
  | ensureIndices => cases h
  | markRunCommitted => cases h
  | _ => exact h

theorem AddInv.leave {ids : List DrawerId} {s' : Palace} (hinv : AddInv w) (h : Leaves ids w s') :
    AddInv (w.leave ids s') := by
  have hthreads : ∀ {n u}, (w.leave ids s').threads n = some u →
      ∃ t, w.threads n = some t ∧ t.target ids = u := by
    intro n u hu
    exact Option.map_eq_some_iff.1 hu
  refine ⟨h.wf, fun id hid => ?_, fun n u add hu hadd => ?_, fun n m t u a b ht hu ha hb hrun => ?_,
    fun n u id hu hhit hid => ?_⟩
  · obtain ⟨howed, hnot⟩ := List.mem_filter.1 hid
    exact (hinv.owed id howed).leave h (of_decide_eq_true hnot)
  · obtain ⟨t, ht, rfl⟩ := hthreads hu
    exact h.held n t add ht hadd
  · obtain ⟨t, ht', rfl⟩ := hthreads ht
    obtain ⟨u, hu', rfl⟩ := hthreads hu
    exact hinv.apart n m t u a b ht' hu' ha hb hrun
  · obtain ⟨t, ht, rfl⟩ := hthreads hu
    have hphase : t.phase.settled = some id := hid
    have hmarks : (t.hit || t.phase.written.any (· ∈ ids)) = false := hhit
    rw [Bool.or_eq_false_iff, Phase.written_of_settled hphase] at hmarks
    have hnot : id ∉ ids := by simpa using hmarks.2
    exact (hinv.settled n t id ht hmarks.1 hphase).leave h hnot

end

/-! ## Runs -/

theorem addInv_init {profile : Profile} {w : AddWorld} (h : (adds profile).Init w) : AddInv w := by
  obtain ⟨hwf, hthreads, _, howed⟩ := h
  refine ⟨hwf, fun id hid => ?_, fun n t add ht => ?_, fun n m t u a b ht => ?_,
    fun n t id ht => ?_⟩
  · rw [howed] at hid; cases hid
  · rw [hthreads] at ht; cases ht
  · rw [hthreads] at ht; cases ht
  · rw [hthreads] at ht; cases ht

/-- **Step lemma**: a careful step keeps the invariant. -/
theorem addInv_step {profile : Profile} {w w' : AddWorld} {e : AddEvent} (hinv : AddInv w)
    (h : (adds profile).Step w e w') (hcareful : Careful w e) : AddInv w' := by
  obtain ⟨hallowed, rfl⟩ := h
  cases e with
  | request n identity body now =>
    refine hinv.request n _ fun t ht => ?_
    obtain ⟨req, _, rfl⟩ := Option.map_eq_some_iff.1 ht
    rfl
  | advance n env =>
    unfold AddWorld.exec
    cases ht : w.threads n with
    | none => simpa only [ht] using hinv
    | some t =>
      simp only [ht]
      exact hinv.advance ht (hcareful t ht) (Phase.next_moved profile t.req env w.palace t.phase)
  | crash => exact hinv.crash
  | reconcile k now => exact hinv.reconcile k now
  | advancePass k env =>
    unfold AddWorld.exec
    cases hpass : w.passes k with
    | none => simpa only [hpass] using hinv
    | some pass =>
      simp only [hpass]
      exact hinv.advancePass hpass (PassPhase.next_moved hinv.wf env pass)
  | other ids palace => exact hinv.leave hallowed

/-- **An acknowledged add is durable** in every run whose steps are careful: a recovery finds its
row under a committed run, and no reconciliation is halfway through a run that is committed. -/
theorem add_durable (profile : Profile) : Durable ((adds profile).restrict Careful) := by
  intro w hreach id hid
  have hinv : AddInv w := by
    refine hreach.invariant (fun a hinit => ?_) fun a e b _ hinv hstep => ?_
    · exact @addInv_init profile a hinit
    · exact addInv_step hinv hstep.1 hstep.2
  exact (hinv.owed id hid).stored

/-! ## An add and a reconciliation -/

def AddWorld.play (profile : Profile) (w : AddWorld) (events : List AddEvent) : AddWorld :=
  events.foldl (fun w e => w.exec profile e) w

def AddEvent.own : AddEvent → Bool
  | other .. => false
  | _ => true

theorem run_play {profile : Profile} {P : AddWorld → AddEvent → Prop} {w : AddWorld}
    {events : List AddEvent} (hown : ∀ e ∈ events, e.own = true) (hP : ∀ e ∈ events, ∀ w, P w e) :
    ((adds profile).restrict P).Run w events (w.play profile events) := by
  induction events generalizing w with
  | nil => exact .nil w
  | cons e events ih =>
    rw [List.forall_mem_cons] at hown hP
    refine .cons ⟨⟨?_, rfl⟩, hP.1 w⟩ (ih hown.2 hP.2)
    cases e with
    | other => cases hown.1
    | _ => trivial

/-- A step of a request that finds no row to recover, and commits only what is stored. -/
def AddWorld.adding (profile : Profile) (w : AddWorld) (e : AddEvent) : Option AddWorld :=
  match e with
  | .request .. => some (w.exec profile e)
  | .advance n _ =>
    if (w.threads n).all fun t =>
        match t.phase with
        | .getDrawer target => decide (target ∉ w.palace.ids)
        | .markRunCommitted add => decide (add.row.id ∈ w.palace.ids)
        | _ => true
    then some (w.exec profile e) else none
  | _ => none

theorem run_adding {profile : Profile} {w w' : AddWorld} {events : List AddEvent}
    (hpasses : ∀ p, w.passes p = none)
    (h : events.foldlM (AddWorld.adding profile) w = some w') :
    ((adds profile).restrict Careful).Run w events w' := by
  induction events generalizing w with
  | nil =>
    cases h
    exact .nil _
  | cons e events ih =>
    obtain ⟨u, hu, hrest⟩ := Option.bind_eq_some_iff.1 h
    cases e with
    | request =>
      obtain rfl := Option.some.inj hu
      exact .cons ⟨⟨trivial, rfl⟩, trivial⟩ (ih hpasses hrest)
    | advance n env =>
      obtain ⟨hcheck, hu⟩ := Option.ite_none_right_eq_some.1 hu
      obtain rfl := Option.some.inj hu
      refine .cons ⟨⟨trivial, rfl⟩, fun t ht => ?_⟩ (ih (fun p => ?_) hrest)
      · rw [ht, Option.all_some] at hcheck
        unfold CarefulPhase
        split
        · rename_i hphase
          simp only [hphase, decide_eq_true_eq] at hcheck
          exact fun hin => absurd hin hcheck
        · rename_i hphase
          simp only [hphase, decide_eq_true_eq] at hcheck
          refine ⟨fun _ => hcheck, fun p pass hpass => ?_⟩
          rw [hpasses p] at hpass
          cases hpass
        · trivial
      · simp only [AddWorld.exec]
        split
        · exact hpasses p
        · exact hpasses p
    | _ => cases hu

def sampleProfile : Profile := ⟨fun text => text, 0⟩

def addTime (seconds : Int) : OffsetDateTime := ⟨(1775088000 + seconds) * 1000000000, 0⟩

def sampleAdd : AddDrawerRequest :=
  { wing := "wing_a", room := "notes", content := "a note", drawerId := some "d-1"
    operationId := some "op-1" }

def addKey : OwnerScopedKey := ⟨none, "op-1", by decide +kernel, by decide +kernel⟩

def addEnvelope : ProvenanceEnvelope :=
  { owner := .unknown, actor := none, recordedAt := ⟨addTime 0, rfl, by decide +kernel⟩
    origin := .localOrigin "local" (by decide +kernel), operationId := some addKey
    sourceAuthor := none, sourceRefs := [] }

def addEnv (seconds : Int) : Surroundings :=
  { now := addTime seconds, provenance := .ok addEnvelope }

def idleWorld : AddWorld := ⟨Palace.empty, fun _ => none, fun _ => none, []⟩

theorem init_idleWorld : (adds sampleProfile).Init idleWorld :=
  ⟨⟨fun r hr => (by cases hr), fun m hm => (by cases hm)⟩, fun _ => rfl, fun _ => rfl, rfl⟩

/-- The drawer of an add is there after a reconciliation two hours later. -/
theorem add_durable_sample : ∃ w, ((adds sampleProfile).restrict Careful).Reachable w ∧
    w.owed ≠ [] ∧ ∀ id ∈ w.owed, id ∈ w.palace.ids := by
  have hplay : (((.request 0 { name := "alice" } sampleAdd (addTime 0) ::
      List.replicate 10 (.advance 0 (addEnv 0))).foldlM (AddWorld.adding sampleProfile)
        idleWorld).any fun w => !(w.play sampleProfile (.reconcile 0 (addTime 7200) ::
          List.replicate 8 (.advancePass 0 (addEnv 7200)))).owed.isEmpty) = true := by
    decide +kernel
  obtain ⟨w, hw, howed⟩ := (Option.any_eq_true _ _).1 hplay
  have hreach : ((adds sampleProfile).restrict Careful).Reachable
      (w.play sampleProfile (.reconcile 0 (addTime 7200) ::
        List.replicate 8 (.advancePass 0 (addEnv 7200)))) :=
    ⟨idleWorld, _, init_idleWorld, (run_adding (fun _ => rfl) hw).append
      (run_play (by decide) (by simp [Careful]))⟩
  exact ⟨_, hreach, by simpa using howed, add_durable sampleProfile _ hreach⟩

/-! ## A recovered drawer that is lost -/

/-- The row is written and the server crashes before the run is committed; the client's retry
recovers and is answered; two hours later the pending run is reconciled. -/
def recoveredThenPruned : List AddEvent :=
  .request 0 { name := "alice" } sampleAdd (addTime 0) :: List.replicate 5 (.advance 0 (addEnv 0)) ++
    .crash :: .request 0 { name := "alice" } sampleAdd (addTime 60) ::
      List.replicate 5 (.advance 0 (addEnv 60)) ++
    .reconcile 0 (addTime 7200) :: List.replicate 8 (.advancePass 0 (addEnv 7200))

theorem recovered_drawer_lost : ¬ Durable (adds sampleProfile) := by
  intro hdurable
  have hown : ∀ e ∈ recoveredThenPruned, e.own = true :=
    List.all_eq_true.1 (by decide +kernel)
  have hrun := @run_play sampleProfile (fun _ _ => True) idleWorld recoveredThenPruned hown
    fun _ _ _ => trivial
  have hlost : ∃ id ∈ (idleWorld.play sampleProfile recoveredThenPruned).owed,
      id ∉ (idleWorld.play sampleProfile recoveredThenPruned).palace.ids := by decide +kernel
  obtain ⟨id, howed, hgone⟩ := hlost
  exact hgone (hdurable _ ⟨idleWorld, _, init_idleWorld, hrun.of_restrict⟩ id howed)

end AgentPalace.Server
