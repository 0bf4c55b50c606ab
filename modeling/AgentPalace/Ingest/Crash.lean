import AgentPalace.Ingest.Reconcile

/-!
# Sources after a crash

A process replaces and removes sources one call at a time and may stop after
any statement; it is then reopened, which reconciles, and may stop in that too.
The stored drawers of a key are those of its last committed run (`Exact`) as
long as no crash falls where reconciliation cannot tell what was intended
(`SafeCrash`), and after every other crash they are not.
-/

namespace AgentPalace.Ingest

inductive SourceCall where
  | replaceSourceDrawers (ingestKind sourceKey sourceFile contentHash : String)
      (drawers : List DrawerRecord) (now finishedAt : OffsetDateTime)
  | removeSourceKey (sourceKey : String)

namespace SourceCall

def sourceKey : SourceCall → String
  | replaceSourceDrawers _ sourceKey _ _ _ _ _ => sourceKey
  | removeSourceKey sourceKey => sourceKey

def ids : SourceCall → List DrawerId
  | replaceSourceDrawers _ _ _ _ drawers _ _ => drawers.map (·.id)
  | removeSourceKey _ => []

def program (engine : StorageEngine) : SourceCall → PProg Unit
  | replaceSourceDrawers ingestKind sourceKey sourceFile contentHash drawers now finishedAt =>
    engine.replaceSourceDrawers ingestKind sourceKey sourceFile contentHash drawers now finishedAt
  | removeSourceKey sourceKey => Ingest.removeSourceKey sourceKey

end SourceCall

/-- What is stored under the ids of a key is what the key's last committed run lists. -/
def Exact (owner : DrawerId → String) (s : Palace) : Prop :=
  ∀ id, id ∈ s.ids ↔ id ∈ s.db.committedDrawerIdsForSourceKey (owner id)

def AllStale (now : OffsetDateTime) (s : Palace) : Prop :=
  ∀ r ∈ s.db.runs.rows, r.status = .pending →
    encodeTime r.updatedAt < encodeTime { now with nanos := now.nanos - staleAfter }

/-- The palace is opened after a crash, at the first attempt or a later one. -/
inductive Reopened : Palace → Palace → Prop where
  | reopen {s : Palace} {now : OffsetDateTime} {failedAt : Int → OffsetDateTime}
      (hstale : AllStale now s) (hok : ((reconcile now failedAt).run Statement.exec s).1 = .ok ()) :
      Reopened s ((reconcile now failedAt).run Statement.exec s).2
  | again {s s' s'' : Palace} {now : OffsetDateTime} {failedAt : Int → OffsetDateTime}
      {done : List Statement}
      (hcrash : Prog.Crashed Statement.exec (reconcile now failedAt) s done s')
      (hreopen : Reopened s' s'') : Reopened s s''

inductive SourceEvent where
  | call (call : SourceCall)
  /-- The process stopped after the statements `done` of the call, and was reopened. -/
  | crash (call : SourceCall) (done : List Statement)

inductive SourceStep (engine : StorageEngine) (owner : DrawerId → String) :
    Palace → SourceEvent → Palace → Prop where
  | call {s : Palace} {call : SourceCall} (howned : ∀ id ∈ call.ids, owner id = call.sourceKey) :
      SourceStep engine owner s (.call call) ((call.program engine).run Statement.exec s).2
  | crash {s s' s'' : Palace} {call : SourceCall} {done : List Statement}
      (howned : ∀ id ∈ call.ids, owner id = call.sourceKey)
      (hcrash : Prog.Crashed Statement.exec (call.program engine) s done s')
      (hreopen : Reopened s' s'') : SourceStep engine owner s (.crash call done) s''

/-- Calls on sources, to their end or to a crash, from a palace in order. A drawer id belongs to one
key. -/
def sources (engine : StorageEngine) (owner : DrawerId → String) : Machine Palace SourceEvent where
  Init s := Wf s.db ∧ Owned owner s.db ∧ Exact owner s
  Step := SourceStep engine owner

def stage (done : List Statement) : Stage := done.foldl Stage.next .begun

/-- Reconciliation can complete or undo what a call has done to the stage: no live drawer is deleted,
no new drawer is one that only an older committed run lists, no old drawer is left behind. -/
def SafeAt (s : Palace) (sourceKey : String) (ids : List DrawerId) : Stage → Prop
  | .begun | .cleaned => True
  | .deleting => False
  | .written => ∀ id ∈ ids, id ∈ s.db.committedDrawerIds →
      id ∈ s.db.committedDrawerIdsForSourceKey sourceKey
  | .committed => ∀ id ∈ s.db.committedDrawerIdsForSourceKey sourceKey, id ∈ ids

instance (s : Palace) (sourceKey : String) (ids : List DrawerId) :
    (st : Stage) → Decidable (SafeAt s sourceKey ids st)
  | .begun | .cleaned => isTrue trivial
  | .deleting => isFalse id
  | .written => inferInstanceAs (Decidable (∀ id ∈ ids, id ∈ s.db.committedDrawerIds →
      id ∈ s.db.committedDrawerIdsForSourceKey sourceKey))
  | .committed => inferInstanceAs (Decidable
      (∀ id ∈ s.db.committedDrawerIdsForSourceKey sourceKey, id ∈ ids))

def SafeCrash (s : Palace) (call : SourceCall) (done : List Statement) : Prop :=
  SafeAt s call.sourceKey call.ids (stage done)

def SafeEvent (s : Palace) : SourceEvent → Prop
  | .call _ => True
  | .crash call done => SafeCrash s call done

/-! ## Palaces in order, and palaces that can be put in order -/

structure Settled (owner : DrawerId → String) (s : Palace) : Prop where
  wf : Wf s.db
  owned : Owned owner s.db
  exact : ∀ id, id ∈ s.ids ↔ Live s.db (owner id) id

/-- What is stored beyond the live drawers is listed by a pending run only. -/
structure Recoverable (owner : DrawerId → String) (s : Palace) : Prop where
  wf : Wf s.db
  owned : Owned owner s.db
  live : ∀ key id, Live s.db key id → id ∈ s.ids
  extra : ∀ id ∈ s.ids, Live s.db (owner id) id ∨ Listed s.db id ∧ ¬ Committed s.db id

/-- A live drawer is missing, or one that a committed run lists is stored and not live. -/
def Lost (owner : DrawerId → String) (s : Palace) : Prop :=
  ∃ id, (Live s.db (owner id) id ∧ id ∉ s.ids) ∨
    (id ∈ s.ids ∧ Committed s.db id ∧ ¬ Live s.db (owner id) id)

section
variable {owner : DrawerId → String} {s₀ s : Palace}

theorem exact_iff (hdb : Wf s.db) : Exact owner s ↔ ∀ id, id ∈ s.ids ↔ Live s.db (owner id) id := by
  unfold Exact
  simp only [mem_committedDrawerIdsForSourceKey hdb]

theorem Settled.live (h : Settled owner s) {key : String} {id : DrawerId}
    (hlive : Live s.db key id) : id ∈ s.ids := by
  rw [h.exact, h.owned.live hlive]
  exact hlive

theorem Settled.recoverable (h : Settled owner s) : Recoverable owner s :=
  ⟨h.wf, h.owned, fun _ _ => h.live, fun id hid => .inl ((h.exact id).1 hid)⟩

theorem Lost.not_exact (hdb : Wf s.db) (h : Lost owner s) : ¬ Exact owner s := by
  rw [exact_iff hdb]
  intro hexact
  rcases h with ⟨id, ⟨hlive, hid⟩ | ⟨hid, _, hlive⟩⟩
  · exact hid ((hexact id).2 hlive)
  · exact hlive ((hexact id).1 hid)

theorem Reconciled.recoverable (h : Reconciled s₀ s) (h₀ : Recoverable owner s₀) :
    Recoverable owner s := by
  refine ⟨h.wf, h.owned owner h₀.owned, fun key id hlive => ?_, fun id hid => ?_⟩
  · have hlive := (h.manifest key).live.1 hlive
    exact h.kept (h₀.live key id hlive) hlive.committed
  · rcases h₀.extra id (h.stored hid) with hlive | ⟨hlisted, hcommitted⟩
    · exact .inl ((h.manifest _).live.2 hlive)
    · exact .inr ⟨h.listed id hid hcommitted hlisted, fun hc => hcommitted ((h.committed id).1 hc)⟩

theorem Reconciled.lost (h : Reconciled s₀ s) (h₀ : Lost owner s₀) : Lost owner s := by
  obtain ⟨id, ⟨hlive, hid⟩ | ⟨hid, hcommitted, hlive⟩⟩ := h₀
  · exact ⟨id, .inl ⟨(h.manifest _).live.2 hlive, fun hin => hid (h.stored hin)⟩⟩
  · exact ⟨id, .inr ⟨h.kept hid hcommitted, (h.committed id).2 hcommitted,
      fun hl => hlive ((h.manifest _).live.1 hl)⟩⟩

/-- No run is pending: what can be put in order is in order. -/
theorem Recoverable.settled (h : Recoverable owner s)
    (hpending : ∀ r ∈ s.db.runs.rows, r.status ≠ .pending) : Settled owner s := by
  refine ⟨h.wf, h.owned, fun id => ⟨fun hid => ?_, h.live _ id⟩⟩
  rcases h.extra id hid with hlive | ⟨⟨r, hr, hstatus, _⟩, _⟩
  · exact hlive
  · exact absurd hstatus (hpending r hr)

theorem reconciled_crashed {now : OffsetDateTime} {failedAt : Int → OffsetDateTime}
    {done : List Statement} (hdb : Wf s₀.db)
    (h : Prog.Crashed Statement.exec (reconcile now failedAt) s₀ done s) : Reconciled s₀ s :=
  Prog.wpc_crashed (reconcile_wpc hdb now failedAt .begun) h

theorem Reopened.outcome (h : Reopened s₀ s) (hdb : Wf s₀.db) :
    Wf s.db ∧ (Recoverable owner s₀ → Settled owner s) ∧ (Lost owner s₀ → Lost owner s) := by
  induction h with
  | @reopen s now failedAt hstale hok =>
    obtain ⟨_, hreconciled, hpending⟩ := Prog.wpc_run (reconcile_wpc hdb now failedAt .begun)
    refine ⟨hreconciled.wf, fun h₀ => (hreconciled.recoverable h₀).settled fun r hr hstatus => ?_,
      hreconciled.lost⟩
    exact hpending hok r hr hstatus (hstale r (hreconciled.pending r hr hstatus) hstatus)
  | again hcrash _ ih =>
    have hreconciled := reconciled_crashed hdb hcrash
    obtain ⟨hwf, hsettled, hlost⟩ := ih hreconciled.wf
    exact ⟨hwf, fun h₀ => hsettled (hreconciled.recoverable h₀),
      fun h₀ => hlost (hreconciled.lost h₀)⟩

/-! ## Where a call can be stopped -/

variable {request : IngestCommitRequest} {st : Stage}

theorem mem_replaced {db : IngestDb} {id : DrawerId} :
    id ∈ ({ s₀ with db, drawers := request.spared s₀ ++ request.drawers } : Palace).ids ↔
      id ∈ s₀.ids ∧ id ∉ request.ids ∨ id ∈ request.ids := by
  simp only [Palace.ids, List.map_append, List.mem_append, IngestCommitRequest.spared,
    IngestCommitRequest.ids, List.mem_map, List.mem_filter, decide_eq_true_eq]
  refine or_congr_left ⟨?_, ?_⟩
  · rintro ⟨d, ⟨hd, hnot⟩, rfl⟩
    exact ⟨⟨d, hd, rfl⟩, hnot⟩
  · rintro ⟨⟨d, hd, rfl⟩, hnot⟩
    exact ⟨d, ⟨hd, hnot⟩, rfl⟩

theorem mem_filter_ids {db : IngestDb} {drawers : List DrawerRecord} {gone : List DrawerId}
    {id : DrawerId} :
    id ∈ ({ s₀ with db, drawers := drawers.filter fun d => d.id ∉ gone } : Palace).ids ↔
      id ∈ ({ s₀ with db, drawers } : Palace).ids ∧ id ∉ gone :=
  Statement.ids_deleteDrawers (s := { s₀ with db, drawers })

section
variable (h₀ : Settled owner s₀) (howned : ∀ id ∈ request.ids, owner id = request.sourceKey)
include h₀ howned

theorem Replacing.settled (h : Replacing s₀ request .cleaned s) : Settled owner s := by
  cases h with
  | @cleaned db stale hsuperseded hstale =>
    refine ⟨hsuperseded.wf, hsuperseded.owned owner h₀.owned howned, fun id => ?_⟩
    rw [mem_filter_ids, mem_replaced, hstale]
    by_cases hkey : owner id = request.sourceKey
    · rw [hkey, hsuperseded.live]
      constructor
      · rintro ⟨⟨hid, hnot⟩ | hid, hstale⟩
        · exact absurd ⟨hkey ▸ (h₀.exact id).1 hid, hnot⟩ hstale
        · exact hid
      · exact fun hid => ⟨.inr hid, fun hstale => hstale.2 hid⟩
    · rw [(hsuperseded.other _ hkey).live, ← h₀.exact]
      constructor
      · rintro ⟨⟨hid, _⟩ | hid, _⟩
        · exact hid
        · exact absurd (howned id hid) hkey
      · exact fun hid => ⟨.inl ⟨hid, fun hin => hkey (howned id hin)⟩,
          fun hstale => hkey (h₀.owned.live hstale.1)⟩

theorem Attempted.recoverable {db : IngestDb} (h : Attempted s₀.db request db) :
    Recoverable owner { s₀ with db } := by
  refine ⟨h.wf, h.owned owner h₀.owned howned, fun key id hlive => ?_, fun id hid => ?_⟩
  · exact h₀.live ((h.manifest key).live.1 hlive)
  · exact .inl ((h.manifest _).live.2 ((h₀.exact id).1 hid))

theorem Attempted.written {db : IngestDb} (h : Attempted s₀.db request db)
    (hlisted : ∀ id ∈ request.ids, Listed db id)
    (hsafe : ∀ id ∈ request.ids, Committed s₀.db id → Live s₀.db request.sourceKey id) :
    Recoverable owner { s₀ with db, drawers := request.spared s₀ ++ request.drawers } := by
  refine ⟨h.wf, h.owned owner h₀.owned howned, fun key id hlive => ?_, fun id hid => ?_⟩
  · rw [mem_replaced]
    have hid := h₀.live ((h.manifest key).live.1 hlive)
    by_cases hin : id ∈ request.ids
    · exact .inr hin
    · exact .inl ⟨hid, hin⟩
  · rcases mem_replaced.1 hid with ⟨hid, _⟩ | hin
    · exact .inl ((h.manifest _).live.2 ((h₀.exact id).1 hid))
    · by_cases hcommitted : Committed s₀.db id
      · rw [howned id hin]
        exact .inl ((h.manifest _).live.2 (hsafe id hin hcommitted))
      · exact .inr ⟨hlisted id hin, fun hc => hcommitted ((h.committed id).1 hc)⟩

theorem Superseded.recoverable {db : IngestDb} (h : Superseded s₀.db request db)
    (hsafe : ∀ id, Live s₀.db request.sourceKey id → id ∈ request.ids) :
    Recoverable owner { s₀ with db, drawers := request.spared s₀ ++ request.drawers } := by
  refine ⟨h.wf, h.owned owner h₀.owned howned, fun key id hlive => ?_, fun id hid => ?_⟩
  · rw [mem_replaced]
    by_cases hin : id ∈ request.ids
    · exact .inr hin
    · by_cases hkey : key = request.sourceKey
      · subst hkey
        exact .inr (h.live.1 hlive)
      · exact .inl ⟨h₀.live ((h.other key hkey).live.1 hlive), hin⟩
  · rcases mem_replaced.1 hid with ⟨hid, hnot⟩ | hin
    · have hlive := (h₀.exact id).1 hid
      by_cases hkey : owner id = request.sourceKey
      · exact absurd (hsafe id (hkey ▸ hlive)) hnot
      · exact .inl ((h.other _ hkey).live.2 hlive)
    · rw [howned id hin]
      exact .inl (h.live.2 hin)

theorem Replacing.crashed (h : Replacing s₀ request st s) :
    (SafeAt s₀ request.sourceKey request.ids st → Recoverable owner s) ∧
      (¬ SafeAt s₀ request.sourceKey request.ids st → Lost owner s) := by
  cases h with
  | begun h => exact ⟨fun _ => h.recoverable h₀ howned, fun hunsafe => absurd trivial hunsafe⟩
  | @deleting db h hsome =>
    refine ⟨False.elim, fun _ => ?_⟩
    obtain ⟨id, hin, hid⟩ := hsome
    refine ⟨id, .inl ⟨(h.manifest _).live.2 ((h₀.exact id).1 hid), fun hstored => ?_⟩⟩
    exact (mem_filter_ids.1 hstored).2 hin
  | written h hlisted =>
    simp only [SafeAt, mem_committedDrawerIds h₀.wf, mem_committedDrawerIdsForSourceKey h₀.wf]
    refine ⟨h.written h₀ howned hlisted, fun hunsafe => ?_⟩
    simp only [not_forall] at hunsafe
    obtain ⟨id, hin, hcommitted, hlive⟩ := hunsafe
    refine ⟨id, .inr ⟨mem_replaced.2 (.inr hin), (h.committed id).2 hcommitted, fun hl => hlive ?_⟩⟩
    rw [howned id hin] at hl
    exact (h.manifest _).live.1 hl
  | committed h =>
    simp only [SafeAt, mem_committedDrawerIdsForSourceKey h₀.wf]
    refine ⟨h.recoverable h₀ howned, fun hunsafe => ?_⟩
    simp only [not_forall] at hunsafe
    obtain ⟨id, hlive, hnot⟩ := hunsafe
    refine ⟨id, .inr ⟨mem_replaced.2 (.inl ⟨h₀.live hlive, hnot⟩),
      (h.committed id).2 (.inl hlive.committed), fun hl => hnot ?_⟩⟩
    rw [h₀.owned.live hlive] at hl
    exact h.live.1 hl
  | cleaned h hstale =>
    exact ⟨fun _ => ((Replacing.cleaned h hstale).settled h₀ howned).recoverable,
      fun hunsafe => absurd trivial hunsafe⟩

end

section
variable {sourceKey : String} (h₀ : Settled owner s₀)
include h₀

theorem Removing.settled (h : Removing s₀ sourceKey .cleaned s) : Settled owner s := by
  cases h with
  | @cleaned ids hids =>
    refine ⟨h₀.wf.forget, h₀.owned.forget, fun id => ?_⟩
    rw [mem_filter_ids, hids]
    by_cases hkey : owner id = sourceKey
    · rw [hkey]
      refine iff_of_false ?_ not_live_forget
      rintro ⟨hid, hnot⟩
      exact hnot (hkey ▸ (h₀.exact id).1 hid)
    · rw [(forget_sameManifest hkey).live, ← h₀.exact]
      exact and_iff_left fun hlive => hkey (h₀.owned.live hlive)

theorem Removing.crashed (h : Removing s₀ sourceKey st s) :
    (SafeAt s₀ sourceKey [] st → Recoverable owner s) ∧
      (¬ SafeAt s₀ sourceKey [] st → Lost owner s) := by
  cases h with
  | begun => exact ⟨fun _ => h₀.recoverable, fun hunsafe => absurd trivial hunsafe⟩
  | @deleting ids hids hsome =>
    refine ⟨False.elim, fun _ => ?_⟩
    obtain ⟨id, hid⟩ := List.exists_mem_of_ne_nil ids hsome
    have hlive := (hids id).1 hid
    refine ⟨id, .inl ⟨?_, fun hstored => (mem_filter_ids.1 hstored).2 hid⟩⟩
    rw [h₀.owned.live hlive]
    exact hlive
  | cleaned hids =>
    exact ⟨fun _ => ((Removing.cleaned hids).settled h₀).recoverable,
      fun hunsafe => absurd trivial hunsafe⟩

end

theorem Replacing.wf (h : Replacing s₀ request st s) : Wf s.db := by
  cases h with
  | begun h | deleting h | written h | committed h | cleaned h => exact h.wf

theorem Removing.wf {sourceKey : String} (hdb : Wf s₀.db) (h : Removing s₀ sourceKey st s) :
    Wf s.db := by
  cases h with
  | begun | deleting => exact hdb
  | cleaned => exact hdb.forget

variable {engine : StorageEngine} {call : SourceCall}

theorem Settled.ran (h₀ : Settled owner s₀) (howned : ∀ id ∈ call.ids, owner id = call.sourceKey) :
    Settled owner ((call.program engine).run Statement.exec s₀).2 := by
  cases call with
  | replaceSourceDrawers ingestKind sourceKey sourceFile contentHash drawers now finishedAt =>
    obtain ⟨_, hend⟩ := Prog.wpc_run (@replaceSourceDrawers_wpc engine s₀ now h₀.wf ingestKind
      sourceKey sourceFile contentHash drawers finishedAt)
    show Settled owner ((engine.replaceSourceDrawers ingestKind sourceKey sourceFile contentHash
      drawers now finishedAt).run Statement.exec s₀).2
    generalize (engine.replaceSourceDrawers ingestKind sourceKey sourceFile contentHash drawers now
      finishedAt).run Statement.exec s₀ = out at hend
    obtain ⟨r, s⟩ := out
    cases r with
    | ok _ => exact Replacing.settled h₀ (by exact howned) hend
    | error e =>
      cases hend.1 with
      | @begun db h =>
        refine ⟨h.wf, h.owned owner h₀.owned howned, fun id => ?_⟩
        exact (h₀.exact id).trans (h.manifest _).live.symm
  | removeSourceKey sourceKey =>
    obtain ⟨_, _, hend⟩ := Prog.wpc_run (removeSourceKey_wpc h₀.wf sourceKey)
    exact hend.settled h₀

theorem Settled.stopped (h₀ : Settled owner s₀) (howned : ∀ id ∈ call.ids, owner id = call.sourceKey)
    {done : List Statement}
    (hcrash : Prog.Crashed Statement.exec (call.program engine) s₀ done s) :
    Wf s.db ∧ (SafeCrash s₀ call done → Recoverable owner s) ∧
      (¬ SafeCrash s₀ call done → Lost owner s) := by
  cases call with
  | replaceSourceDrawers ingestKind sourceKey sourceFile contentHash drawers now finishedAt =>
    have h := Prog.wpc_crashed (@replaceSourceDrawers_wpc engine s₀ now h₀.wf ingestKind
      sourceKey sourceFile contentHash drawers finishedAt) hcrash
    exact ⟨h.wf, h.crashed h₀ (by exact howned)⟩
  | removeSourceKey sourceKey =>
    have h := Prog.wpc_crashed (removeSourceKey_wpc h₀.wf sourceKey) hcrash
    exact ⟨h.wf h₀.wf, h.crashed h₀⟩

end

/-- **Sources are exact unless a crash is unsafe**: in every run of replacements and removals, each
run to its end or stopped after any statement and reopened, whose crashes are all safe, what is
stored under the ids of a key is what its last committed run lists; and whether that still holds
after one more crash and the reopening is whether that crash is safe. -/
theorem sources_exact {engine : StorageEngine} {owner : DrawerId → String} {s : Palace}
    (h : ((sources engine owner).restrict SafeEvent).Reachable s) :
    Exact owner s ∧ ∀ call done s', (sources engine owner).Step s (.crash call done) s' →
      (Exact owner s' ↔ SafeCrash s call done) := by
  have hsettled : Settled owner s := by
    refine Machine.Reachable.invariant (fun s hs => ?_) (fun s l s' _ hs hstep => ?_) h
    · exact ⟨hs.1, hs.2.1, (exact_iff hs.1).1 hs.2.2⟩
    · obtain ⟨hstep, hsafe⟩ := hstep
      cases hstep with
      | call howned => exact hs.ran howned
      | crash howned hcrash hreopen =>
        obtain ⟨hdb, hrecoverable, _⟩ := hs.stopped howned hcrash
        exact (hreopen.outcome hdb).2.1 (hrecoverable hsafe)
  refine ⟨(exact_iff hsettled.wf).2 hsettled.exact, fun call done s' hstep => ?_⟩
  cases hstep with
  | crash howned hcrash hreopen =>
    obtain ⟨hdb, hrecoverable, hlost⟩ := hsettled.stopped howned hcrash
    obtain ⟨hdb', hput, hkept⟩ := @Reopened.outcome owner _ _ hreopen hdb
    constructor
    · intro hexact
      by_contra hunsafe
      exact (hkept (hlost hunsafe)).not_exact hdb' hexact
    · intro hsafe
      have hs' := hput (hrecoverable hsafe)
      exact (exact_iff hs'.wf).2 hs'.exact

/-! ### Runs with a crash -/

def crashTime (seconds : Int) : OffsetDateTime := ⟨(1775088000 + seconds) * 1000000000, 0⟩

def chunkOf (id : DrawerId) : DrawerRecord := ⟨id, "text", "a1", [0, 0]⟩

theorem chunkA_valid : validateId "drawer" "code/general/3f9c1d07a2be-0000" = .ok () := by
  decide +kernel

def chunkA : DrawerId := ⟨"code/general/3f9c1d07a2be-0000", chunkA_valid⟩

def chunkB : DrawerId := ⟨"code/general/3f9c1d07a2be-0001", by decide +kernel⟩

def chunkC : DrawerId := ⟨"code/general/3f9c1d07a2be-0002", by decide +kernel⟩

def mineOf (ids : List DrawerId) (seconds : Int) : SourceCall :=
  .replaceSourceDrawers "projects" "repo:main.rs" "main.rs" "h" (ids.map chunkOf)
    (crashTime seconds) (crashTime (seconds + 1))

def emptyPalace : Palace := ⟨IngestDb.empty, Outbox.OutboxDb.empty, []⟩

def minedOnce : Palace := (((mineOf [chunkA, chunkB] 0).program ⟨2⟩).run Statement.exec emptyPalace).2

/-- The second mine, stopped after some statements. -/
def stoppedAt (n : Nat) : List Statement × Palace :=
  ((mineOf [chunkA, chunkC] 60).program ⟨2⟩).upTo Statement.exec n minedOnce

/-- The palace is opened again two hours later. -/
def reopenedAt (n : Nat) : Palace :=
  ((reconcile (crashTime 7200) fun _ => crashTime 7200).run Statement.exec (stoppedAt n).2).2

def sameOwner (_ : DrawerId) : String := "repo:main.rs"

theorem sources_init : (sources ⟨2⟩ sameOwner).Init emptyPalace := by
  have hruns : ∀ r, r ∉ emptyPalace.db.runs.rows := fun _ => List.not_mem_nil
  have hmanifests : ∀ m, m ∉ emptyPalace.db.manifests.rows := fun _ => List.not_mem_nil
  have hnone : emptyPalace.db.committedDrawerIdsForSourceKey "repo:main.rs" = [] := by
    decide +kernel
  refine ⟨⟨fun r hr => absurd hr (hruns r), fun m hm => absurd hm (hmanifests m)⟩,
    fun r hr => absurd hr (hruns r), fun id => ?_⟩
  rw [show sameOwner id = "repo:main.rs" from rfl, hnone]
  exact iff_of_false List.not_mem_nil List.not_mem_nil

theorem minedOnce_step : (sources ⟨2⟩ sameOwner).Step emptyPalace (.call (mineOf [chunkA, chunkB] 0))
    minedOnce := .call fun _ _ => rfl

theorem crash_step {n : Nat} (hstale : AllStale (crashTime 7200) (stoppedAt n).2)
    (hok : ((reconcile (crashTime 7200) fun _ => crashTime 7200).run Statement.exec
      (stoppedAt n).2).1 = .ok ()) :
    (sources ⟨2⟩ sameOwner).Step minedOnce (.crash (mineOf [chunkA, chunkC] 60) (stoppedAt n).1)
      (reopenedAt n) :=
  .crash (fun _ _ => rfl) (Prog.crashed_upTo _ n _ _) (.reopen hstale hok)

/-- The second mine is stopped after it has committed and before it deletes what it replaced: the
old drawer stays. -/
theorem stale_drawer_stays :
    (∃ events, (sources ⟨2⟩ sameOwner).Run emptyPalace events (reopenedAt 7)) ∧
      (sources ⟨2⟩ sameOwner).Init emptyPalace ∧
      chunkB ∈ (reopenedAt 7).ids ∧
      (reopenedAt 7).db.committedDrawerIdsForSourceKey "repo:main.rs" = [chunkA, chunkC] ∧
      ¬ Exact sameOwner (reopenedAt 7) := by
  have hstored : chunkB ∈ (reopenedAt 7).ids := by decide +kernel
  have hlive : (reopenedAt 7).db.committedDrawerIdsForSourceKey "repo:main.rs" =
      [chunkA, chunkC] := by decide +kernel
  refine ⟨⟨_, .cons minedOnce_step (.single (crash_step (n := 7) ?_ ?_))⟩, sources_init, hstored,
    hlive, fun hexact => ?_⟩
  · unfold AllStale
    decide +kernel
  · decide +kernel
  · have := (hexact chunkB).1 hstored
    rw [show sameOwner chunkB = "repo:main.rs" from rfl, hlive] at this
    exact absurd this (by decide +kernel)

/-- The second mine is stopped before it commits: its new drawer is deleted. -/
theorem sources_exact_sample : chunkC ∈ (stoppedAt 6).2.ids ∧ chunkC ∉ (reopenedAt 6).ids ∧
    Exact sameOwner (reopenedAt 6) := by
  refine ⟨by decide +kernel, by decide +kernel, (sources_exact ⟨emptyPalace, _, sources_init,
    .cons ⟨minedOnce_step, trivial⟩ (.single ⟨crash_step (n := 6) ?_ ?_, ?_⟩)⟩).1⟩
  · unfold AllStale
    decide +kernel
  · decide +kernel
  · show SafeAt minedOnce "repo:main.rs" (mineOf [chunkA, chunkC] 60).ids (stage (stoppedAt 6).1)
    decide +kernel

end AgentPalace.Ingest
