import AgentPalace.Cli.MigrateOutcome

/-!
# One attempt

`Progress` is where an attempt can stop, unless that is in the copy of a client
file to its backup (`runWithCache_wpc`). From wherever it is, a further attempt
comes to the same outcome (`Progress.sameOutcome`).
-/

namespace AgentPalace.Cli

variable {k : Codec} {s : Setup} {p : Paths}

inductive Progress (k : Codec) (s : Setup) (w : World) : World → Prop where
  | idle (d : Dir) : Progress k s w (w.staging d)
  | cache {p : Paths} {edits : List (ClientFile × Bytes)} {r : Root} (d : Dir)
      (hprepare : prepare k s w = .ok (.go (some p) edits)) (hr : Between k p (w.root .cache) r) :
      Progress k s w ((w.setRoot .cache r).staging d)
  | home {cache : Option Paths} {edits : List (ClientFile × Bytes)} {w1 : World} {r : Root} (d : Dir)
      (hprepare : prepare k s w = .ok (.go cache edits)) (hcache : movedCache k cache w = .ok w1)
      (hr : Between k s.home (w1.root .home) r) : Progress k s w ((w1.setRoot .home r).staging d)
  | clients {cache : Option Paths} {edits : List (ClientFile × Bytes)} {w1 w' : World} {r : Root}
      (d : Dir) (hprepare : prepare k s w = .ok (.go cache edits))
      (hcache : movedCache k cache w = .ok w1) (hr : moved k s.home (w1.root .home) = .ok r)
      (hpart : PartlyEdited edits (w1.setRoot .home r) w') : Progress k s w (w'.staging d)

/-- The markers that the migration writes are read back. -/
def Codec.ReadsMarkers (k : Codec) (s : Setup) : Prop :=
  k.ReadsMarker s.home ∧ ∀ p, s.cache = some p → k.ReadsMarker p

/-! ## The cache -/

structure CacheMoved (k : Codec) (cache : Option Paths) (w w1 : World) : Prop where
  home : w1.root .home = w.root .home
  client : w1.client = w.client
  backup : w1.backup = w.backup
  source : (w1.root .cache).source.isSome → (w.root .cache).source.isSome
  valid : validateCache k cache (w1.root .cache) = .ok ()
  again : ∀ r, movedCache k cache (w1.setRoot .home r) = .ok (w1.setRoot .home r)

theorem movedCache_moved {cache : Option Paths} {w w1 : World}
    (hk : ∀ p, cache = some p → k.ReadsMarker p) (h : movedCache k cache w = .ok w1) :
    CacheMoved k cache w w1 := by
  cases cache with
  | none =>
    cases h
    exact ⟨rfl, rfl, rfl, id, rfl, fun _ => rfl⟩
  | some p =>
    unfold movedCache at h
    dsimp only at h
    cases hmoved : moved k p (w.root .cache) with
    | error e =>
      rw [hmoved] at h
      cases h
    | ok r =>
      rw [hmoved] at h
      cases h
      have hbetween := moved_between hmoved
      have hvalid := hbetween.valid (hk p rfl) (moved_valid hmoved)
      have hsource := moved_source hmoved
      refine ⟨root_setRoot_of_ne _ (by decide) _, rfl, rfl, fun h => ?_, ?_, fun r' => ?_⟩
      · rw [root_setRoot, hsource] at h
        cases h
      · rw [root_setRoot]
        exact hvalid
      · unfold movedCache
        dsimp only
        rw [root_setRoot_of_ne _ (by decide), root_setRoot, moved_of_source hvalid hsource]
        have hcache : ((w.setRoot .cache r).setRoot .home r').root .cache = r := by
          rw [root_setRoot_of_ne _ (by decide), root_setRoot]
        have hself := setRoot_self ((w.setRoot .cache r).setRoot .home r') .cache
        rw [hcache] at hself
        exact congrArg Except.ok hself

/-! ## Every stop comes to the same -/

theorem cacheFor_of_source {r : Root} (h : r.source = none) : s.cacheFor r = none := by
  unfold Setup.cacheFor
  rw [h]
  rfl

theorem cacheFor_some {r : Root} {p : Paths} (h : s.cacheFor r = some p) : s.cache = some p := by
  unfold Setup.cacheFor at h
  split at h
  · cases h
  · exact h

/-- A root on its way has its source, or has been retired. -/
theorem Between.source_cases {r r' : Root} (h : Between k p r r') :
    r'.source = r.source ∨
      r'.source = none ∧ ∃ target, Cli.moved k p r = .ok ⟨none, r.source, some target⟩ ∧
        r' = ⟨none, r.source, some target⟩ := by
  cases h with
  | same => exact .inl rfl
  | published => exact .inl rfl
  | @retired d target hvalid hsource htarget =>
    exact .inr ⟨rfl, target, Targeted.moved htarget hvalid hsource, rfl⟩

theorem Between.source_isSome {r r' : Root} (h : Between k p r r') (hsome : r'.source.isSome) :
    r.source.isSome := by
  rcases h.source_cases with h | ⟨h, -⟩
  · rwa [← h]
  · rw [h] at hsome
    cases hsome

theorem Between.of_error {r r' : Root} (h : Between k p r r') {e : Error}
    (herror : Cli.moved k p r = .error e) : r' = r := by
  cases h with
  | same => rfl
  | @published d target hvalid hsource htarget =>
    rw [Targeted.moved htarget hvalid hsource] at herror
    cases herror
  | @retired d target hvalid hsource htarget =>
    rw [Targeted.moved htarget hvalid hsource] at herror
    cases herror

theorem finished_home {cache : Option Paths} {edits : List (ClientFile × Bytes)} {w w1 : World}
    {r : Root} (hcache : movedCache k cache w = .ok w1)
    (hr : moved k s.home (w1.root .home) = .ok r) :
    finished k s cache edits w = (.ok (), edited edits (w1.setRoot .home r)) := by
  unfold finished
  rw [hcache]
  dsimp only
  rw [hr]

theorem outcome_go {w : World} {cache : Option Paths} {edits : List (ClientFile × Bytes)}
    (h : prepare k s w = .ok (.go cache edits)) :
    outcome k s w = finished k s cache edits w := by
  unfold outcome
  rw [h]

theorem cacheMoved_go (hk : k.ReadsMarkers s) {w w1 : World} {cache : Option Paths}
    {edits : List (ClientFile × Bytes)} (hprepare : prepare k s w = .ok (.go cache edits))
    (h : movedCache k cache w = .ok w1) : CacheMoved k cache w w1 :=
  movedCache_moved (fun p hp => hk.2 p (cacheFor_some ((prepare_go hprepare).2 ▸ hp))) h

theorem sameOutcome_cache (hk : k.ReadsMarkers s) {w : World} {p : Paths}
    {edits : List (ClientFile × Bytes)} {r : Root}
    (hprepare : prepare k s w = .ok (.go (some p) edits)) (hr : Between k p (w.root .cache) r) :
    SameOutcome k s w (w.setRoot .cache r) := by
  obtain ⟨hchecked, hcache⟩ := prepare_go hprepare
  have hmarker := hk.2 p (cacheFor_some hcache.symm)
  have hhome : (w.setRoot .cache r).root .home = w.root .home := root_setRoot_of_ne _ (by decide) _
  have hvalid : validateData k p (w.root .cache) = .ok () := by
    have := hchecked.cache
    rw [← hcache] at this
    exact this
  have hchecked' : Checked k s (w.setRoot .cache r) edits := by
    refine ⟨?_, hchecked.edits, ?_, ?_, ?_, hchecked.wet⟩
    · rw [hhome]
      exact hchecked.roots
    · rw [hhome]
      exact hchecked.home
    · rw [hhome]
      refine checkHf_ok hchecked.hf (fun h => by rwa [hhome] at h) fun q hq => ⟨hq, fun h => ?_⟩
      rw [root_setRoot] at h
      exact hr.source_isSome h
    · rw [hhome, ← hcache, root_setRoot]
      exact hr.valid hmarker hvalid
  have hfinal := hchecked'.outcome
  rw [hhome, ← hcache] at hfinal
  have hstart := outcome_go hprepare
  unfold SameOutcome
  rw [hfinal, hstart]
  unfold finished movedCache
  dsimp only
  rw [root_setRoot, hr.moved hmarker]
  cases hmoved : moved k p (w.root .cache) with
  | error e =>
    rw [hr.of_error hmoved, setRoot_self]
    exact ⟨rfl, rfl⟩
  | ok r' =>
    simp only [bind, Except.bind, setRoot_setRoot]
    exact ⟨rfl, rfl⟩

theorem sameOutcome_home (hk : k.ReadsMarkers s) {w w1 : World} {cache : Option Paths}
    {edits : List (ClientFile × Bytes)} {r : Root}
    (hprepare : prepare k s w = .ok (.go cache edits)) (hmoved : movedCache k cache w = .ok w1)
    (hr : Between k s.home (w1.root .home) r) : SameOutcome k s w (w1.setRoot .home r) := by
  obtain ⟨hchecked, hcache⟩ := prepare_go hprepare
  have hw1 := cacheMoved_go hk hprepare hmoved
  have hvalid : validateData k s.home r = .ok () :=
    hr.valid hk.1 (by rw [hw1.home]; exact hchecked.home)
  have hcacheRoot : (w1.setRoot .home r).root .cache = w1.root .cache :=
    root_setRoot_of_ne _ (by decide) _
  have hsource : ((w1.setRoot .home r).root .home).source.isSome →
      (w.root .home).source.isSome := fun h => by
    rw [root_setRoot] at h
    rw [← hw1.home]
    exact hr.source_isSome h
  have hedits : clientEdits k s.home (w1.setRoot .home r).client ClientFile.all = .ok edits := by
    have hclient : (w1.setRoot .home r).client = w.client := hw1.client
    rw [hclient]
    exact hchecked.edits
  have hroots : checkRoots s ((w1.setRoot .home r).root .home) = .ok () := by
    rw [root_setRoot]
    exact checkRoots_ok hchecked.roots hvalid
  have hhome : validateData k s.home ((w1.setRoot .home r).root .home) = .ok () := by
    rw [root_setRoot]
    exact hvalid
  have hstart := outcome_go hprepare
  rcases hr.source_cases with heq | ⟨hnone, target, htarget, hrEq⟩
  · have hfor : s.cacheFor ((w1.setRoot .home r).root .home) = cache := by
      rw [hcache, root_setRoot]
      unfold Setup.cacheFor
      rw [heq, hw1.home]
    have hchecked' : Checked k s (w1.setRoot .home r) edits := by
      refine ⟨hroots, hedits, hhome, ?_, ?_, hchecked.wet⟩
      · rw [hfor, hcache]
        refine checkHf_ok hchecked.hf hsource fun q hq => ⟨hq, fun h => ?_⟩
        rw [hcacheRoot] at h
        exact hw1.source h
      · rw [hfor, hcacheRoot]
        exact hw1.valid
    have hfinal := hchecked'.outcome
    rw [hfor] at hfinal
    unfold SameOutcome
    rw [hfinal, hstart]
    unfold finished
    rw [hw1.again r, hmoved]
    dsimp only
    rw [root_setRoot, hr.moved hk.1]
    cases hhomeMoved : moved k s.home (w1.root .home) with
    | error e =>
      rw [hr.of_error hhomeMoved, setRoot_self]
      exact ⟨rfl, rfl⟩
    | ok r' =>
      dsimp only
      rw [setRoot_setRoot]
      exact ⟨rfl, rfl⟩
  · have hfor : s.cacheFor ((w1.setRoot .home r).root .home) = none := by
      rw [root_setRoot]
      exact cacheFor_of_source hnone
    have hchecked' : Checked k s (w1.setRoot .home r) edits := by
      refine ⟨hroots, hedits, hhome, ?_, ?_, hchecked.wet⟩
      · rw [hfor]
        exact checkHf_ok hchecked.hf hsource fun q hq => by cases hq
      · rw [hfor]
        rfl
    have hfinal := hchecked'.outcome
    rw [hfor] at hfinal
    rw [← hrEq] at htarget
    have hagain : moved k s.home ((w1.setRoot .home r).root .home) = .ok r := by
      rw [root_setRoot]
      exact moved_of_source hvalid hnone
    unfold SameOutcome
    rw [hfinal, hstart, @finished_home k s none edits _ (w1.setRoot .home r) r rfl hagain,
      finished_home hmoved htarget, setRoot_setRoot]
    exact ⟨rfl, rfl⟩

theorem editOf_some {client : ClientFile → Option Bytes} {c : ClientFile} {text : Bytes}
    (h : editOf k p client c = .ok (some text)) :
    ∃ bytes, client c = some bytes ∧ edit k p c bytes = .ok (some text) := by
  unfold editOf at h
  cases hclient : client c with
  | none =>
    rw [hclient] at h
    cases h
  | some bytes =>
    rw [hclient] at h
    exact ⟨bytes, rfl, h⟩

theorem sameOutcome_clients (hreads : k.Reads s.home) (hk : k.ReadsMarkers s) {w w1 w' : World}
    {cache : Option Paths} {edits : List (ClientFile × Bytes)} {r : Root}
    (hprepare : prepare k s w = .ok (.go cache edits)) (hmoved : movedCache k cache w = .ok w1)
    (hr : moved k s.home (w1.root .home) = .ok r)
    (hpart : PartlyEdited edits (w1.setRoot .home r) w') : SameOutcome k s w w' := by
  have hchecked := (prepare_go hprepare).1
  have hw1 := cacheMoved_go hk hprepare hmoved
  have hbetween := moved_between hr
  have hnone := moved_source hr
  have hvalid : validateData k s.home r = .ok () :=
    hbetween.valid hk.1 (by rw [hw1.home]; exact hchecked.home)
  have hroot : w'.root .home = r := by rw [hpart.root, root_setRoot]
  have hclient : (w1.setRoot .home r).client = w.client := hw1.client
  have hlookup := fun c => (clientEdits_ok hchecked.edits ClientFile.nodup_all).2.2 c
    (ClientFile.mem_all c)
  -- What is still to be edited.
  have hof : ∀ c, (w'.client c = w.client c ∧
      editOf k s.home w'.client c = .ok (edits.lookup c)) ∨
      ∃ text, edits.lookup c = some text ∧ w'.client c = some text ∧
        w'.backup c = (w1.backup c).or (w.client c) ∧ editOf k s.home w'.client c = .ok none := by
    intro c
    have hsame : w'.client c = w.client c → editOf k s.home w'.client c = .ok (edits.lookup c) := by
      intro h
      rw [← hlookup c]
      unfold editOf
      rw [h]
    cases hedit : edits.lookup c with
    | none =>
      have h := (hpart.other c hedit).1
      rw [hclient] at h
      rw [← hedit]
      exact .inl ⟨h, hsame h⟩
    | some text =>
      rcases hpart.client c text hedit with ⟨h, -⟩ | ⟨h, hbackup⟩
      · rw [hclient] at h
        rw [← hedit]
        exact .inl ⟨h, hsame h⟩
      · rw [hclient] at hbackup
        obtain ⟨bytes, -, hbytes⟩ := editOf_some ((hlookup c).trans (congrArg Except.ok hedit))
        refine .inr ⟨text, rfl, h, hbackup, ?_⟩
        unfold editOf
        rw [h]
        exact edit_stable k s.home hreads hbytes
  obtain ⟨rest, hrest⟩ := @clientEdits_exists k s.home w'.client ClientFile.all fun c _ => by
      rcases hof c with ⟨-, h⟩ | ⟨text, -, -, -, h⟩
      · exact ⟨_, h⟩
      · exact ⟨_, h⟩
  have hrestLookup := fun c => (clientEdits_ok hrest ClientFile.nodup_all).2.2 c
    (ClientFile.mem_all c)
  have hfor : s.cacheFor (w'.root .home) = none := by
    rw [hroot]
    exact cacheFor_of_source hnone
  have hchecked' : Checked k s w' rest := by
    refine ⟨?_, hrest, by rw [hroot]; exact hvalid, ?_, ?_, hchecked.wet⟩
    · rw [hroot]
      exact checkRoots_ok hchecked.roots hvalid
    · rw [hfor]
      refine checkHf_ok hchecked.hf (fun h => ?_) fun q hq => by cases hq
      rw [hroot, hnone] at h
      cases h
    · rw [hfor]
      rfl
  have hfinal := hchecked'.outcome
  have hagain : moved k s.home (w'.root .home) = .ok r := by
    rw [hroot]
    exact moved_of_source hvalid hnone
  have hself : w'.setRoot .home r = w' := by rw [← hroot, setRoot_self]
  rw [hfor, @finished_home k s none rest _ w' r rfl hagain, hself] at hfinal
  unfold SameOutcome
  rw [hfinal, outcome_go hprepare, finished_home hmoved hr]
  refine ⟨rfl, ?_⟩
  have hpoint : ∀ c, (edited rest w').client c = (edited edits (w1.setRoot .home r)).client c ∧
      (edited rest w').backup c = (edited edits (w1.setRoot .home r)).backup c := by
    intro c
    unfold edited
    dsimp only
    rw [hclient]
    rcases hof c with ⟨hsame, h⟩ | ⟨text, hedit, hnew, hbackup, h⟩
    · have hrestEq : rest.lookup c = edits.lookup c :=
        Except.ok.inj ((hrestLookup c).symm.trans h)
      rw [hrestEq, hsame]
      refine ⟨rfl, ?_⟩
      cases hedit : edits.lookup c with
      | none => exact (hpart.other c hedit).2
      | some text =>
        have hbackup : w'.backup c = (w1.setRoot .home r).backup c ∨
            w'.backup c = ((w1.setRoot .home r).backup c).or (w.client c) := by
          rcases hpart.client c text hedit with ⟨-, hb⟩ | ⟨-, hb⟩
          · rwa [hclient] at hb
          · rw [hclient] at hb
            exact .inr hb
        rcases hbackup with hb | hb
        · rw [hb]
        · rw [hb]
          cases (w1.setRoot .home r).backup c <;> cases w.client c <;> rfl
    · have hrestEq : rest.lookup c = none := Except.ok.inj ((hrestLookup c).symm.trans h)
      rw [hrestEq, hedit, hnew, hbackup]
      exact ⟨rfl, rfl⟩
  have hw' : (edited rest w').root = (edited edits (w1.setRoot .home r)).root := hpart.root
  unfold World.staging
  rw [hw', funext fun c => (hpoint c).1, funext fun c => (hpoint c).2]

theorem Progress.sameOutcome (hreads : k.Reads s.home) (hk : k.ReadsMarkers s) {w w' : World}
    (h : Progress k s w w') : SameOutcome k s w w' := by
  cases h with
  | idle d => exact sameOutcome_staging w d
  | cache d hprepare hr =>
    exact (sameOutcome_cache hk hprepare hr).trans (sameOutcome_staging _ d)
  | home d hprepare hcache hr =>
    exact (sameOutcome_home hk hprepare hcache hr).trans (sameOutcome_staging _ d)
  | clients d hprepare hcache hr hpart =>
    exact (sameOutcome_clients hreads hk hprepare hcache hr hpart).trans (sameOutcome_staging _ d)

/-! ## One attempt -/

/-- No copy of a client file to its backup was cut short, if the clients were these. -/
def WholeBackup (client : ClientFile → Option Bytes) (g : Option FileOp) : Prop :=
  ∀ c bytes, g = some (.backup c bytes) → client c = some bytes

def World.withBackup (w : World) (c : ClientFile) (bytes : Bytes) : World :=
  { w with backup := Function.update w.backup c (some bytes) }

/-- The bytes of a backup, one after the other; the last `m` of them are there at the end. -/
theorem backup_wpc {C : Option FileOp → World → Prop}
    {Q : Except Error Unit → Option FileOp → World → Prop} {w : World} {c : ClientFile}
    {bytes : Bytes} (ns : List Nat) (m : Nat)
    (hC : ∀ n, C (some (.backup c (bytes.take n))) (w.withBackup c (bytes.take n)))
    (hQ : Q (.ok ()) (some (.backup c (bytes.take m))) (w.withBackup c (bytes.take m)))
    {w1 : World} {g : Option FileOp} (h : C g w1)
    (hexec : ∀ b, (FileOp.backup c b).exec w1 = w.withBackup c b) :
    ((ns ++ [m]).forM fun n => op (.backup c (bytes.take n))).wpc FileOp.exec lastOp C Q g w1 := by
  induction ns generalizing w1 g with
  | nil =>
    refine Prog.wpc_bind (Prog.wpc_statement h ?_ ?_)
    · rw [hexec]
      exact hC m
    · rw [hexec]
      exact Prog.wpc_pure (hC m) hQ
  | cons n ns ih =>
    refine Prog.wpc_bind (Prog.wpc_statement h ?_ ?_)
    · rw [hexec]
      exact hC n
    · rw [hexec]
      refine ih (hC n) fun b => ?_
      show { w.withBackup c (bytes.take n) with
        backup := Function.update (w.withBackup c (bytes.take n)).backup c (some b) } = _
      unfold World.withBackup
      rw [Function.update_idem]

/-- The clients when all but `rest` of the edits are done. -/
def editing (edits rest : List (ClientFile × Bytes)) (w : World) : World :=
  { w with
    client := fun c => if c ∈ rest.map (·.1) then w.client c else (edited edits w).client c
    backup := fun c => if c ∈ rest.map (·.1) then w.backup c else (edited edits w).backup c }

theorem partlyEdited_editing (edits rest : List (ClientFile × Bytes)) (w : World) :
    PartlyEdited edits w (editing edits rest w) := by
  refine ⟨rfl, fun c hc => ?_, fun c text hc => ?_⟩ <;> unfold editing edited <;> dsimp only <;>
    rw [hc] <;> by_cases hmem : c ∈ rest.map (·.1)
  · rw [if_pos hmem, if_pos hmem]
    exact ⟨rfl, rfl⟩
  · rw [if_neg hmem, if_neg hmem]
    exact ⟨rfl, rfl⟩
  · rw [if_pos hmem, if_pos hmem]
    exact .inl ⟨rfl, .inl rfl⟩
  · rw [if_neg hmem, if_neg hmem]
    exact .inr ⟨rfl, rfl⟩

theorem editing_self (edits : List (ClientFile × Bytes)) (w : World) : editing edits edits w = w := by
  have hclient : (editing edits edits w).client = w.client := funext fun c => by
    unfold editing edited
    dsimp only
    split
    · rfl
    · rename_i hc
      rw [lookup_of_not_mem hc]
      rfl
  have hbackup : (editing edits edits w).backup = w.backup := funext fun c => by
    unfold editing edited
    dsimp only
    split
    · rfl
    · rename_i hc
      rw [lookup_of_not_mem hc]
      rfl
  show World.mk w.root w.staged (editing edits edits w).client (editing edits edits w).backup = w
  rw [hclient, hbackup]

theorem editing_nil (edits : List (ClientFile × Bytes)) (w : World) :
    editing edits [] w = edited edits w := by
  unfold editing
  simp only [List.map_nil, List.not_mem_nil, if_false]
  rfl

theorem editing_cons {edits rest : List (ClientFile × Bytes)} {w : World} {c : ClientFile}
    {bytes text : Bytes} (hedit : edits.lookup c = some text) (hclient : w.client c = some bytes)
    (hnew : c ∉ rest.map (·.1)) :
    { editing edits ((c, text) :: rest) w with
      client := Function.update (editing edits ((c, text) :: rest) w).client c (some text)
      backup := Function.update (editing edits ((c, text) :: rest) w).backup c
        ((w.backup c).or (some bytes)) } = editing edits rest w := by
  have hkeys : ∀ c', c' ≠ c → (c' ∈ ((c, text) :: rest).map (·.1) ↔ c' ∈ rest.map (·.1)) :=
    fun c' h => by rw [List.map_cons, List.mem_cons, or_iff_right h]
  unfold editing edited
  dsimp only
  congr 1
  · funext c'
    by_cases h : c' = c
    · subst h
      rw [Function.update_self, if_neg hnew, hedit]
      rfl
    · rw [Function.update_of_ne h]
      by_cases hmem : c' ∈ rest.map (·.1)
      · rw [if_pos ((hkeys c' h).2 hmem), if_pos hmem]
      · rw [if_neg (mt (hkeys c' h).1 hmem), if_neg hmem]
  · funext c'
    by_cases h : c' = c
    · subst h
      rw [Function.update_self, if_neg hnew, hedit, hclient]
      rfl
    · rw [Function.update_of_ne h]
      by_cases hmem : c' ∈ rest.map (·.1)
      · rw [if_pos ((hkeys c' h).2 hmem), if_pos hmem]
      · rw [if_neg (mt (hkeys c' h).1 hmem), if_neg hmem]

theorem backupAndWrite_wpc {edits rest : List (ClientFile × Bytes)} {w : World} {c : ClientFile}
    {bytes text : Bytes} (hedit : edits.lookup c = some text) (hclient : w.client c = some bytes)
    (hnew : c ∉ rest.map (·.1)) {client : ClientFile → Option Bytes} (hsame : client = w.client)
    {g : Option FileOp} :
    (backupAndWrite (c, text)).wpc FileOp.exec lastOp
      (fun g w' => WholeBackup client g → PartlyEdited edits w w')
      (fun a g w' => a = .ok () ∧ NotBackup g ∧ w' = editing edits rest w) g
      (editing edits ((c, text) :: rest) w) := by
  generalize hw1 : editing edits ((c, text) :: rest) w = w1
  have hpart : PartlyEdited edits w w1 := by
    rw [← hw1]
    exact partlyEdited_editing edits _ w
  have hmem : c ∈ ((c, text) :: rest).map (·.1) := List.mem_map_of_mem List.mem_cons_self
  have hclient1 : w1.client c = some bytes := by
    rw [← hw1, ← hclient]
    exact if_pos hmem
  have hbackup1 : w1.backup c = w.backup c := by
    rw [← hw1]
    exact if_pos hmem
  -- The backup is whole, or there was one.
  have hkept : ∀ w2 : World, w2 = { w1 with
      backup := Function.update w1.backup c ((w.backup c).or (some bytes)) } →
      PartlyEdited edits w w2 ∧ (FileOp.persist c text).exec w2 = editing edits rest w := by
    rintro w2 rfl
    refine ⟨⟨hpart.root, fun c' hc' => ?_, fun c' text' hc' => ?_⟩, ?_⟩
    · have hne : c' ≠ c := fun heq => by
        rw [heq, hedit] at hc'
        cases hc'
      dsimp only
      rw [Function.update_of_ne hne]
      exact hpart.other c' hc'
    · by_cases hne : c' = c
      · subst hne
        dsimp only
        rw [Function.update_self, hclient1, hclient]
        exact .inl ⟨rfl, .inr rfl⟩
      · dsimp only
        rw [Function.update_of_ne hne]
        exact hpart.client c' text' hc'
    · have hdone := editing_cons hedit hclient hnew
      rw [hw1] at hdone
      exact hdone
  have hpersist : ∀ (w2 : World) (g' : Option FileOp), w2 = { w1 with
      backup := Function.update w1.backup c ((w.backup c).or (some bytes)) } →
      (op (.persist c text)).wpc FileOp.exec lastOp
        (fun g w' => WholeBackup client g → PartlyEdited edits w w')
        (fun a g w' => a = .ok () ∧ NotBackup g ∧ w' = editing edits rest w) g' w2 := by
    intro w2 g' hw2
    obtain ⟨hpart2, hexec⟩ := hkept w2 hw2
    refine Prog.wpc_statement (fun _ => hpart2) (fun _ => ?_) ⟨rfl, ?_, hexec⟩
    · rw [hexec]
      exact partlyEdited_editing edits rest w
    · intro c' bytes' h
      cases h
  unfold backupAndWrite
  refine Prog.wpc_step (b := bytes) (by rw [hclient1]; rfl) (fun _ => hpart) ?_
  refine Prog.wpc_step (b := w.backup c) (congrArg Except.ok hbackup1) (fun _ => hpart) ?_
  cases hbackup : w.backup c with
  | some kept =>
    refine Prog.wpc_bind (Prog.wpc_pure (fun _ => hpart) ?_)
    refine hpersist _ _ ?_
    rw [hbackup]
    show w1 = { w1 with backup := Function.update w1.backup c (some kept) }
    rw [← hbackup, ← hbackup1, Function.update_eq_self]
  | none =>
    have hwhole : w1.withBackup c bytes = { w1 with
        backup := Function.update w1.backup c ((w.backup c).or (some bytes)) } := by
      rw [hbackup]
      rfl
    refine Prog.wpc_bind ?_
    unfold written
    rw [List.range_succ]
    refine backup_wpc (w := w1) _ _ (fun n h => ?_) ?_ (fun _ => hpart) fun b => rfl
    · have htake : bytes.take n = bytes := by
        have := h c _ rfl
        rw [hsame, hclient] at this
        exact (Option.some.inj this).symm
      rw [htake, hwhole]
      exact (hkept _ rfl).1
    · rw [List.take_length, hwhole]
      exact hpersist _ _ rfl

theorem edits_wpc {edits : List (ClientFile × Bytes)} {w : World}
    {client : ClientFile → Option Bytes} (hsame : client = w.client)
    (hkeys : (edits.map (·.1)).Nodup)
    (hthere : ∀ c text, edits.lookup c = some text → ∃ bytes, w.client c = some bytes)
    {g : Option FileOp} (hg : NotBackup g) :
    (edits.forM backupAndWrite).wpc FileOp.exec lastOp
      (fun g w' => WholeBackup client g → PartlyEdited edits w w')
      (fun a g w' => a = .ok () ∧ NotBackup g ∧ w' = edited edits w) g w := by
  refine Prog.wpc_forM (I := fun rest g w' => (∃ pre, edits = pre ++ rest) ∧ NotBackup g ∧
    w' = editing edits rest w) ?_ ?_ ⟨⟨[], rfl⟩, hg, (editing_self edits w).symm⟩
  · rintro ⟨c, text⟩ rest g' w' ⟨⟨pre, hpre⟩, hg', rfl⟩
    have hkeys' := hkeys
    rw [hpre, List.map_append, List.map_cons, List.nodup_append, List.nodup_cons] at hkeys'
    have hfirst : c ∉ pre.map (·.1) := fun h => hkeys'.2.2 c h c List.mem_cons_self rfl
    have hedit : edits.lookup c = some text := by
      rw [hpre, List.lookup_append, lookup_of_not_mem hfirst]
      simp
    obtain ⟨bytes, hbytes⟩ := hthere c text hedit
    refine Prog.wpc_mono (backupAndWrite_wpc hedit hbytes hkeys'.2.1.1 hsame)
      (fun _ _ => id) ?_
    rintro a g'' w'' ⟨rfl, hg'', rfl⟩
    exact ⟨⟨pre ++ [(c, text)], by rw [List.append_assoc]; exact hpre⟩, hg'', rfl⟩
  · rintro g' w' ⟨-, hg', rfl⟩
    refine ⟨fun _ => partlyEdited_editing edits [] w, rfl, hg', editing_nil edits w⟩

/-- **One attempt**: it comes to its outcome, and where it is stopped it has made progress. -/
theorem runWithCache_wpc (hk : k.ReadsMarkers s) (w : World) (g : Option FileOp) :
    (runWithCache k s).wpc FileOp.exec lastOp
      (fun g w' => WholeBackup w.client g → Progress k s w w')
      (fun a _ w' => a.map (fun _ => ()) = (outcome k s w).1 ∧
        ∃ d, w' = (outcome k s w).2.staging d) g w := by
  have hidle : Progress k s w w := .idle w.staged
  unfold runWithCache
  cases hprepare : prepare k s w with
  | error e =>
    refine Prog.wpc_bind (Prog.wpc_statement (fun _ => hidle) (fun _ => hidle) ?_)
    unfold outcome
    rw [hprepare]
    exact ⟨rfl, w.staged, rfl⟩
  | ok prepared =>
    refine Prog.wpc_step (b := prepared) hprepare (fun _ => hidle) ?_
    have hread : NotBackup (lastOp g .read) := fun c bytes h => (by cases h)
    cases prepared with
    | done report =>
      refine Prog.wpc_pure (fun _ => hidle) ?_
      unfold outcome
      rw [hprepare]
      exact ⟨rfl, w.staged, rfl⟩
    | go cache edits =>
      have hchecked := (prepare_go hprepare).1
      rw [outcome_go hprepare]
      -- The cache, then the home, then the clients.
      have hcache : (migrateCache k cache).wpc FileOp.exec lastOp
          (fun _ w' => Progress k s w w')
          (fun a g w' => NotBackup g ∧ match movedCache k cache w with
            | .ok w1 => a = .ok () ∧ ∃ d, w' = w1.staging d
            | .error e => a = .error e ∧ ∃ d, w' = w.staging d) (lastOp g .read) w := by
        cases cache with
        | none => exact Prog.wpc_pure hidle ⟨hread, rfl, w.staged, rfl⟩
        | some p =>
          refine Prog.wpc_mono (migrateData_wpc .cache w hread) ?_ ?_
          · rintro g' w' ⟨-, r, d, hr, rfl⟩
            exact .cache d hprepare hr
          · rintro a g' w' ⟨hg', hresult⟩
            refine ⟨hg', ?_⟩
            unfold movedCache
            dsimp only
            cases hmoved : moved k p (w.root .cache) with
            | error e =>
              rw [hmoved] at hresult
              exact hresult
            | ok r =>
              rw [hmoved] at hresult
              exact hresult
      refine Prog.wpc_bind (Prog.wpc_mono hcache (fun _ _ h _ => h) ?_)
      rintro a g' w' ⟨hg', hresult⟩
      cases hmoved : movedCache k cache w with
      | error e =>
        rw [hmoved] at hresult
        obtain ⟨rfl, d, rfl⟩ := hresult
        unfold finished
        rw [hmoved]
        exact ⟨rfl, d, rfl⟩
      | ok w1 =>
        rw [hmoved] at hresult
        obtain ⟨rfl, d, rfl⟩ := hresult
        have hw1 := cacheMoved_go hk hprepare hmoved
        refine Prog.wpc_bind (Prog.wpc_mono (migrateData_wpc .home (w1.staging d) hg') ?_ ?_)
        · rintro g'' w'' ⟨-, r, d', hr, rfl⟩ -
          show Progress k s w ((w1.setRoot .home r).staging d')
          exact .home d' hprepare hmoved hr
        · rintro a g'' w'' ⟨hg'', hresult⟩
          rw [root_staging] at hresult
          cases hhome : moved k s.home (w1.root .home) with
          | error e =>
            rw [hhome] at hresult
            obtain ⟨rfl, d', rfl⟩ := hresult
            unfold finished
            rw [hmoved]
            dsimp only
            rw [hhome]
            exact ⟨rfl, d', rfl⟩
          | ok r =>
            rw [hhome] at hresult
            obtain ⟨rfl, d', rfl⟩ := hresult
            rw [finished_home hmoved hhome]
            have hedits := clientEdits_ok hchecked.edits ClientFile.nodup_all
            have hthere : ∀ c text, edits.lookup c = some text → ∃ bytes, w.client c = some bytes :=
              fun c text h => by
                obtain ⟨bytes, hbytes, -⟩ := editOf_some
                  ((hedits.2.2 c (ClientFile.mem_all c)).trans (congrArg Except.ok h))
                exact ⟨bytes, hbytes⟩
            have hclient : w.client = (w1.setRoot .home r).client := hw1.client.symm
            have hloop := @edits_wpc edits ((w1.setRoot .home r).staging d') w.client hclient
              hedits.2.1 (fun c text h => by
                obtain ⟨bytes, hbytes⟩ := hthere c text h
                exact ⟨bytes, (congrFun hclient c).symm.trans hbytes⟩) g'' hg''
            refine Prog.wpc_bind (Prog.wpc_mono hloop (fun g3 w3 hpart hwhole => ?_) ?_)
            · have hp := hpart hwhole
              exact .clients w3.staged hprepare hmoved hhome ⟨hp.root, hp.other, hp.client⟩
            · rintro a g3 w3 ⟨rfl, hg3, rfl⟩
              refine Prog.wpc_pure (fun _ => ?_) ⟨rfl, d', rfl⟩
              have hp := partlyEdited_editing edits [] (w1.setRoot .home r)
              rw [editing_nil] at hp
              exact .clients d' hprepare hmoved hhome hp

end AgentPalace.Cli
