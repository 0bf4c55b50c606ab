import AgentPalace.Cli.MigrateMoves

/-!
# The outcome of a migration

`outcome` is what an attempt that is not stopped comes to: the roots are moved,
and every client file holds its edit (`edited`) and has a backup. `Checked` are
the checks that an attempt passes before its first change.
-/

namespace AgentPalace.Cli

variable {k : Codec} {s : Setup} {p : Paths}

/-! ## Edits -/

def editOf (k : Codec) (p : Paths) (client : ClientFile → Option Bytes) (c : ClientFile) :
    Except Error (Option Bytes) :=
  match client c with
  | none => .ok none
  | some bytes => edit k p c bytes

theorem clientEdits_ok {client : ClientFile → Option Bytes} {cs : List ClientFile}
    {edits : List (ClientFile × Bytes)} (h : clientEdits k p client cs = .ok edits)
    (hcs : cs.Nodup) : (∀ c ∈ edits.map (·.1), c ∈ cs) ∧ (edits.map (·.1)).Nodup ∧
      ∀ c ∈ cs, editOf k p client c = .ok (edits.lookup c) := by
  induction cs generalizing edits with
  | nil =>
    cases h
    exact ⟨fun _ hc => hc, List.nodup_nil, fun _ hc => (by cases hc)⟩
  | cons c cs ih =>
    rw [List.nodup_cons] at hcs
    -- The file is left alone, or its edit comes first.
    have hskip : clientEdits k p client cs = .ok edits → editOf k p client c = .ok none →
        (∀ c' ∈ edits.map (·.1), c' ∈ c :: cs) ∧ (edits.map (·.1)).Nodup ∧
          ∀ c' ∈ c :: cs, editOf k p client c' = .ok (edits.lookup c') := by
      intro hrest hnone
      obtain ⟨hkeys, hnodup, hlookup⟩ := ih hrest hcs.2
      refine ⟨fun c' hc' => List.mem_cons_of_mem c (hkeys c' hc'), hnodup, fun c' hc' => ?_⟩
      rcases List.mem_cons.1 hc' with rfl | hc'
      · rw [hnone, lookup_of_not_mem fun hmem => hcs.1 (hkeys c' hmem)]
      · exact hlookup c' hc'
    unfold clientEdits at h
    cases hclient : client c with
    | none =>
      rw [hclient] at h
      exact hskip h (by unfold editOf; rw [hclient])
    | some bytes =>
      rw [hclient] at h
      have hof : editOf k p client c = edit k p c bytes := by unfold editOf; rw [hclient]
      cases hedit : edit k p c bytes with
      | error e =>
        simp only [hedit, bind, Except.bind] at h
        cases h
      | ok found =>
        cases found with
        | none =>
          simp only [hedit, bind, Except.bind] at h
          exact hskip h (hof.trans hedit)
        | some text =>
          simp only [hedit, bind, Except.bind] at h
          cases hrest : clientEdits k p client cs with
          | error e =>
            rw [hrest] at h
            cases h
          | ok rest =>
            rw [hrest] at h
            cases h
            obtain ⟨hkeys, hnodup, hlookup⟩ := ih hrest hcs.2
            refine ⟨fun c' hc' => ?_, ?_, fun c' hc' => ?_⟩
            · rcases List.mem_cons.1 hc' with rfl | hc'
              · exact List.mem_cons_self
              · exact List.mem_cons_of_mem c (hkeys c' hc')
            · rw [List.map_cons, List.nodup_cons]
              exact ⟨fun hmem => hcs.1 (hkeys _ hmem), hnodup⟩
            · rcases List.mem_cons.1 hc' with rfl | hmem
              · rw [hof, hedit]
                simp
              · have hne : c' ≠ c := fun heq => hcs.1 (heq ▸ hmem)
                rw [hlookup c' hmem, List.lookup_cons, beq_eq_false_iff_ne.2 hne]

theorem clientEdits_exists {client : ClientFile → Option Bytes} {cs : List ClientFile}
    (h : ∀ c ∈ cs, ∃ found, editOf k p client c = .ok found) :
    ∃ edits, clientEdits k p client cs = .ok edits := by
  induction cs with
  | nil => exact ⟨[], rfl⟩
  | cons c cs ih =>
    obtain ⟨rest, hrest⟩ := ih fun c' hc' => h c' (List.mem_cons_of_mem c hc')
    obtain ⟨found, hfound⟩ := h c List.mem_cons_self
    unfold clientEdits
    unfold editOf at hfound
    cases hclient : client c with
    | none => exact ⟨rest, hrest⟩
    | some bytes =>
      rw [hclient] at hfound
      dsimp only at hfound ⊢
      rw [hfound]
      cases found with
      | none => exact ⟨rest, hrest⟩
      | some text =>
        refine ⟨(c, text) :: rest, ?_⟩
        simp only [bind, Except.bind, hrest]
        rfl

def edited (edits : List (ClientFile × Bytes)) (w : World) : World :=
  { w with
    client := fun c => (edits.lookup c).or (w.client c)
    backup := fun c =>
      if (edits.lookup c).isSome then (w.backup c).or (w.client c) else w.backup c }

theorem edited_nil (w : World) : edited [] w = w := rfl

structure PartlyEdited (edits : List (ClientFile × Bytes)) (w w' : World) : Prop where
  root : w'.root = w.root
  other : ∀ c, edits.lookup c = none → w'.client c = w.client c ∧ w'.backup c = w.backup c
  client : ∀ c text, edits.lookup c = some text →
    (w'.client c = w.client c ∧
      (w'.backup c = w.backup c ∨ w'.backup c = (w.backup c).or (w.client c))) ∨
    (w'.client c = some text ∧ w'.backup c = (w.backup c).or (w.client c))

/-! ## The outcome of an attempt -/

def movedCache (k : Codec) (cache : Option Paths) (w : World) : Except Error World :=
  match cache with
  | some p => do return w.setRoot .cache (← moved k p (w.root .cache))
  | none => .ok w

def finished (k : Codec) (s : Setup) (cache : Option Paths) (edits : List (ClientFile × Bytes))
    (w : World) : Except Error Unit × World :=
  match movedCache k cache w with
  | .error e => (.error e, w)
  | .ok w1 =>
    match moved k s.home (w1.root .home) with
    | .error e => (.error e, w1)
    | .ok r => (.ok (), edited edits (w1.setRoot .home r))

def outcome (k : Codec) (s : Setup) (w : World) : Except Error Unit × World :=
  match prepare k s w with
  | .error e => (.error e, w)
  | .ok (.done _) => (.ok (), w)
  | .ok (.go cache edits) => finished k s cache edits w

/-- The two come to the same, whatever is in the staging directory. -/
def SameOutcome (k : Codec) (s : Setup) (w w' : World) : Prop :=
  (outcome k s w').1 = (outcome k s w).1 ∧
    (outcome k s w').2.staging .empty = (outcome k s w).2.staging .empty

theorem sameOutcome_staging (w : World) (d : Dir) : SameOutcome k s w (w.staging d) := by
  have hprepare : prepare k s (w.staging d) = prepare k s w := rfl
  unfold SameOutcome outcome
  rw [hprepare]
  cases prepare k s w with
  | error e => exact ⟨rfl, rfl⟩
  | ok prepared =>
    cases prepared with
    | done report => exact ⟨rfl, rfl⟩
    | go cache edits =>
      have hcache : movedCache k cache (w.staging d) =
          (movedCache k cache w).map fun w1 => w1.staging d := by
        cases cache with
        | none => rfl
        | some p =>
          unfold movedCache
          dsimp only
          rw [root_staging]
          cases moved k p (w.root .cache) <;> rfl
      dsimp only
      unfold finished
      rw [hcache]
      cases movedCache k cache w with
      | error e => exact ⟨rfl, rfl⟩
      | ok w1 =>
        dsimp only [Except.map]
        rw [root_staging]
        cases moved k s.home (w1.root .home) <;> exact ⟨rfl, rfl⟩

theorem SameOutcome.trans {w w' w'' : World} (h : SameOutcome k s w w')
    (h' : SameOutcome k s w' w'') : SameOutcome k s w w'' :=
  ⟨h'.1.trans h.1, h'.2.trans h.2⟩

/-! ## What is checked -/

structure Checked (k : Codec) (s : Setup) (w : World) (edits : List (ClientFile × Bytes)) :
    Prop where
  roots : checkRoots s (w.root .home) = .ok ()
  edits : clientEdits k s.home w.client ClientFile.all = .ok edits
  home : validateData k s.home (w.root .home) = .ok ()
  hf : checkHf s w (s.cacheFor (w.root .home)) = .ok ()
  cache : validateCache k (s.cacheFor (w.root .home)) (w.root .cache) = .ok ()
  wet : s.dryRun = false

theorem prepare_go {w : World} {cache : Option Paths} {edits : List (ClientFile × Bytes)}
    (h : prepare k s w = .ok (.go cache edits)) :
    Checked k s w edits ∧ cache = s.cacheFor (w.root .home) := by
  unfold prepare at h
  obtain ⟨_, hroots, h⟩ := bind_ok h
  obtain ⟨found, hedits, h⟩ := bind_ok h
  obtain ⟨_, hhome, h⟩ := bind_ok h
  obtain ⟨_, hhf, h⟩ := bind_ok h
  obtain ⟨_, hcache, h⟩ := bind_ok h
  split at h
  · cases h
  · rename_i hwet
    split at h
    · cases h
    · cases h
      exact ⟨⟨hroots, hedits, hhome, hhf, hcache, by simpa using hwet⟩, rfl⟩

/-- After the checks an attempt comes to the end of its moves, also when nothing is left to do. -/
theorem Checked.outcome {w : World} {edits : List (ClientFile × Bytes)}
    (h : Checked k s w edits) :
    outcome k s w = finished k s (s.cacheFor (w.root .home)) edits w := by
  have hprepare : prepare k s w =
      if (w.root .home).source.isNone && edits.isEmpty then .ok (.done .nothing)
      else .ok (.go (s.cacheFor (w.root .home)) edits) := by
    unfold prepare
    simp only [h.roots, h.edits, h.home, h.hf, h.cache, h.wet, bind, Except.bind,
      Bool.false_eq_true, if_false]
    split <;> rfl
  unfold AgentPalace.Cli.outcome
  rw [hprepare]
  split
  · rename_i heq
    split at heq <;> cases heq
  · rename_i heq
    split at heq
    · rename_i hnone
      rw [Bool.and_eq_true, Option.isNone_iff_eq_none, List.isEmpty_iff] at hnone
      obtain ⟨hsource, rfl⟩ := hnone
      have hcache : s.cacheFor (w.root .home) = none := by
        unfold Setup.cacheFor
        rw [hsource]
        rfl
      unfold finished movedCache
      rw [hcache]
      dsimp only
      rw [moved_of_source h.home hsource]
      dsimp only
      rw [setRoot_self, edited_nil]
    · cases heq
  · rename_i heq
    split at heq
    · cases heq
    · cases heq
      rfl

theorem checkRoots_ok {r r' : Root} (h : checkRoots s r = .ok ())
    (hvalid : validateData k s.home r' = .ok ()) : checkRoots s r' = .ok () := by
  unfold validateData at hvalid
  obtain ⟨_, hsource, hvalid⟩ := bind_ok hvalid
  obtain ⟨_, htarget, -⟩ := bind_ok hvalid
  unfold checkRoots at h ⊢
  obtain ⟨_, -, h⟩ := bind_ok h
  obtain ⟨_, -, h⟩ := bind_ok h
  rw [hsource, htarget]
  exact h

theorem checkHfHome_ok {hfHome : String} {r r' : Root} (h : checkHfHome hfHome p r = .ok ())
    (hsource : r'.source.isSome → r.source.isSome) : checkHfHome hfHome p r' = .ok () := by
  unfold checkHfHome at h ⊢
  split
  · rename_i hsome
    rw [if_pos (hsource hsome)] at h
    exact h
  · rfl

theorem checkHf_ok {w w' : World} {cache cache' : Option Paths} (h : checkHf s w cache = .ok ())
    (hhome : (w'.root .home).source.isSome → (w.root .home).source.isSome)
    (hcache : ∀ p, cache' = some p → cache = some p ∧
      ((w'.root .cache).source.isSome → (w.root .cache).source.isSome)) :
    checkHf s w' cache' = .ok () := by
  unfold checkHf at h ⊢
  cases hhf : s.hfHome with
  | none => rfl
  | some hfHome =>
    rw [hhf] at h
    dsimp only at h ⊢
    obtain ⟨_, hfirst, h⟩ := bind_ok h
    rw [checkHfHome_ok hfirst hhome]
    cases cache' with
    | none => rfl
    | some p =>
      obtain ⟨rfl, hsource⟩ := hcache p rfl
      exact checkHfHome_ok h hsource

end AgentPalace.Cli
