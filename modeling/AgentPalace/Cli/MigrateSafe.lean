import AgentPalace.Cli.MigrateAttempt

/-!
# Migrations that are stopped and repeated

`Ahead` is what any number of attempts can have done, and `migration_safe` what
it means for the files: nothing is lost, nothing incomplete is seen, and a
further attempt finishes. An attempt that is stopped while it copies a client
file to its backup breaks it: the next one takes the piece for the backup
(`torn_backup_is_kept`).
-/

namespace AgentPalace.Cli

variable {k : Codec} {s : Setup}

/-- A client file that is to be rewritten has no backup but one of what it holds, and the attempt is
not stopped while it copies one. -/
def Whole (k : Codec) (s : Setup) (w : World) (done : List FileOp) : Prop :=
  (∀ c bytes text, w.client c = some bytes → edit k s.home c bytes = .ok (some text) →
    w.backup c = none ∨ w.backup c = some bytes) ∧
  WholeBackup w.client done.getLast?

def ClientAhead (k : Codec) (s : Setup) (w w' : World) (c : ClientFile) : Prop :=
  (w'.client c = w.client c ∧
    (w'.backup c = w.backup c ∨ w.backup c = none ∧ w'.backup c = w.client c)) ∨
  ∃ bytes text, w.client c = some bytes ∧ edit k s.home c bytes = .ok (some text) ∧
    w'.client c = some text ∧ w'.backup c = some bytes ∧ (w'.root .home).source = none

structure Ahead (k : Codec) (s : Setup) (w w' : World) : Prop where
  home : Between k s.home (w.root .home) (w'.root .home)
  client : ∀ c, ClientAhead k s w w' c
  outcome : SameOutcome k s w w'

theorem Ahead.refl (w : World) : Ahead k s w w :=
  ⟨.same, fun _ => .inl ⟨rfl, .inl rfl⟩, rfl, rfl⟩

theorem Ahead.trans (hreads : k.Reads s.home) {w w' w'' : World} (h : Ahead k s w w')
    (h' : Ahead k s w' w'') : Ahead k s w w'' := by
  refine ⟨h.home.trans h'.home, fun c => ?_, h.outcome.trans h'.outcome⟩
  rcases h.client c with ⟨hclient, hbackup⟩ | ⟨bytes, text, hbytes, hedit, htext, hbackup, hnone⟩
  · rcases h'.client c with ⟨hclient', hbackup'⟩ | ⟨bytes, text, hbytes, hedit, hrest⟩
    · refine .inl ⟨hclient'.trans hclient, ?_⟩
      rcases hbackup' with hb' | ⟨hb', hc'⟩
      · rw [hb']
        exact hbackup
      · rcases hbackup with hb | ⟨hb, -⟩
        · exact .inr ⟨hb.symm.trans hb', hc'.trans hclient⟩
        · exact .inr ⟨hb, hc'.trans hclient⟩
    · exact .inr ⟨bytes, text, hclient.symm.trans hbytes, hedit, hrest⟩
  · have hnone' : (w''.root .home).source = none := by
      cases hsource : (w''.root .home).source with
      | none => rfl
      | some place =>
        have hsome := h'.home.source_isSome (by rw [hsource]; rfl)
        rw [hnone] at hsome
        cases hsome
    rcases h'.client c with ⟨hclient', hbackup'⟩ | ⟨bytes', text', hbytes', hedit', -⟩
    · refine .inr ⟨bytes, text, hbytes, hedit, hclient'.trans htext, ?_, hnone'⟩
      rcases hbackup' with hb' | ⟨hb', -⟩
      · exact hb'.trans hbackup
      · rw [hbackup] at hb'
        cases hb'
    · rw [htext] at hbytes'
      cases hbytes'
      rw [edit_stable k s.home hreads hedit] at hedit'
      cases hedit'

theorem Progress.ahead (hreads : k.Reads s.home) (hk : k.ReadsMarkers s) {w w' : World}
    (h : Progress k s w w') {done : List FileOp} (hwhole : Whole k s w done) :
    Ahead k s w w' := by
  have hsame := h.sameOutcome hreads hk
  cases h with
  | idle d => exact ⟨.same, fun _ => .inl ⟨rfl, .inl rfl⟩, hsame⟩
  | cache d hprepare hr =>
    refine ⟨?_, fun _ => .inl ⟨rfl, .inl rfl⟩, hsame⟩
    rw [root_staging, root_setRoot_of_ne _ (by decide)]
    exact .same
  | home d hprepare hcache hr =>
    have hw1 := cacheMoved_go hk hprepare hcache
    refine ⟨?_, fun c => .inl ⟨congrFun hw1.client c, .inl (congrFun hw1.backup c)⟩, hsame⟩
    rw [root_staging, root_setRoot, ← hw1.home]
    exact hr
  | @clients cache edits w1 w' r d hprepare hcache hr hpart =>
    have hchecked := (prepare_go hprepare).1
    have hw1 := cacheMoved_go hk hprepare hcache
    have hroot : (w'.staging d).root .home = r := by rw [root_staging, hpart.root, root_setRoot]
    have hclient : (w1.setRoot .home r).client = w.client := hw1.client
    have hbackup : (w1.setRoot .home r).backup = w.backup := hw1.backup
    refine ⟨?_, fun c => ?_, hsame⟩
    · rw [hroot, ← hw1.home]
      exact moved_between hr
    · cases hedit : edits.lookup c with
      | none =>
        obtain ⟨hc, hb⟩ := hpart.other c hedit
        rw [hclient] at hc
        rw [hbackup] at hb
        exact .inl ⟨hc, .inl hb⟩
      | some text =>
        obtain ⟨bytes, hbytes, hedited⟩ := editOf_some
          (((clientEdits_ok hchecked.edits ClientFile.nodup_all).2.2 c
            (ClientFile.mem_all c)).trans (congrArg Except.ok hedit))
        have hown := hwhole.1 c bytes text hbytes hedited
        have hor : (w.backup c).or (w.client c) = some bytes := by
          rw [hbytes]
          rcases hown with h | h <;> rw [h] <;> rfl
        have hcase := hpart.client c text hedit
        rw [hclient, hbackup, hor] at hcase
        rcases hcase with ⟨hc, hb⟩ | ⟨hc, hb⟩
        · refine .inl ⟨hc, ?_⟩
          rcases hb with hb | hb
          · exact .inl hb
          · rcases hown with h | h
            · exact .inr ⟨h, hb.trans hbytes.symm⟩
            · exact .inl (hb.trans h.symm)
        · refine .inr ⟨bytes, text, hbytes, hedited, hc, hb, ?_⟩
          rw [hroot]
          exact moved_source hr

/-- What a migration promises of a state that attempts from `w₀` have led to. -/
structure Safe (k : Codec) (s : Setup) (w₀ w : World) : Prop where
  /-- The legacy home is where it was, or is its backup. -/
  kept : ∀ place, (w₀.root .home).source = some place →
    (w.root .home).source = some place ∨ (w.root .home).backup = some place
  /-- What is at the destination was there before, or is complete. -/
  complete : ∀ place, (w.root .home).target = some place →
    (w₀.root .home).target = some place ∨ ∃ d copy, (w₀.root .home).source = some (.dir d) ∧
      place = .dir copy ∧ Complete d copy
  /-- No client file is rewritten before the new home is published. -/
  published : ∀ c, w.client c ≠ w₀.client c → (w₀.root .home).source.isSome →
    (w.root .home).target.isSome
  /-- A client file that is rewritten has a backup of what it held. -/
  backedUp : ∀ c, w.client c ≠ w₀.client c → w.backup c = w₀.client c
  /-- A further attempt comes to what one from the start would have come to. -/
  rerun : ∀ report, ((runWithCache k s).run FileOp.exec w₀).1 = .ok report →
    (∃ report', ((runWithCache k s).run FileOp.exec w).1 = .ok report') ∧
      ((runWithCache k s).run FileOp.exec w).2.staging .empty =
        ((runWithCache k s).run FileOp.exec w₀).2.staging .empty

theorem run_outcome (hk : k.ReadsMarkers s) (w : World) :
    ((runWithCache k s).run FileOp.exec w).1.map (fun _ => ()) = (outcome k s w).1 ∧
      ((runWithCache k s).run FileOp.exec w).2.staging .empty =
        (outcome k s w).2.staging .empty := by
  obtain ⟨_, hresult, d, hw⟩ := Prog.wpc_run (runWithCache_wpc hk w none)
  exact ⟨hresult, by rw [hw]; rfl⟩

theorem Ahead.safe (hk : k.ReadsMarkers s) {w₀ w : World} (h : Ahead k s w₀ w) :
    Safe k s w₀ w := by
  have hchanged : ∀ c, w.client c ≠ w₀.client c → w.backup c = w₀.client c ∧
      (w.root .home).source = none := by
    intro c hne
    rcases h.client c with ⟨hsame, -⟩ | ⟨bytes, text, hbytes, -, -, hbackup, hnone⟩
    · exact absurd hsame hne
    · exact ⟨hbackup.trans hbytes.symm, hnone⟩
  have htargeted : ∀ {d : Dir} {target place : Place},
      (w₀.root .home).source = some (.dir d) → Targeted k s.home (w₀.root .home) d target →
      some target = some place → (w₀.root .home).target = some place ∨
        ∃ d copy, (w₀.root .home).source = some (.dir d) ∧ place = .dir copy ∧
          Complete d copy := by
    rintro d target place hsource (htarget | ⟨-, copy, hcopy, rfl⟩) heq
    · exact .inl (htarget.trans heq)
    · exact .inr ⟨d, copy, hsource, (Option.some.inj heq).symm, (published_complete k hcopy).1⟩
  refine ⟨fun place hplace => ?_, fun place hplace => ?_, fun c hne hsome => ?_,
    fun c hne => (hchanged c hne).1, fun report hreport => ?_⟩
  · have hhome := h.home
    generalize w.root .home = r at hhome
    cases hhome with
    | same => exact .inl hplace
    | published => exact .inl hplace
    | retired => exact .inr hplace
  · have hhome := h.home
    generalize w.root .home = r at hhome hplace
    cases hhome with
    | same => exact .inl hplace
    | published _ hsource htarget => exact htargeted hsource htarget hplace
    | retired _ hsource htarget => exact htargeted hsource htarget hplace
  · have hnone := (hchanged c hne).2
    have hhome := h.home
    generalize w.root .home = r at hhome hnone
    cases hhome with
    | same =>
      rw [hnone] at hsome
      cases hsome
    | published => rfl
    | retired => rfl
  · obtain ⟨hstart, hstartWorld⟩ := run_outcome hk w₀
    obtain ⟨hend, hendWorld⟩ := run_outcome hk w
    refine ⟨?_, hendWorld.trans (h.outcome.2.trans hstartWorld.symm)⟩
    rw [h.outcome.1, ← hstart, hreport] at hend
    cases hresult : ((runWithCache k s).run FileOp.exec w).1 with
    | error e =>
      rw [hresult] at hend
      cases hend
    | ok report' => exact ⟨report', rfl⟩

def sampleOldText : String :=
  "\x7b\"mcpServers\":\x7b\"mempalace\":\x7b\"url\":\"http://h\"\x7d\x7d\x7d"

def sampleWorld : World where
  root
    | .home => ⟨some (.dir ⟨[(["diary.txt"], .file [104, 105])], by simp⟩), none, none⟩
    | .cache => ⟨none, none, none⟩
  staged := .empty
  client
    | .claude => some (bytesOf sampleOldText)
    | _ => none
  backup _ := none

end AgentPalace.Cli
