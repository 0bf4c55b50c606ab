import AgentPalace.Cli.Migrate

/-!
# Where a move can stop

`published` is the complete copy of a tree, `moved` the root after its move.
Until a move is complete the root is one of the three of `Between`: as it was,
with the complete copy at the target, or moved. A move that goes on from any of
them ends in the same root (`Between.moved`).
-/

namespace AgentPalace.Cli

variable (k : Codec)

/-! ## The complete copy -/

/-- What a copy makes of an entry; `none` for what it leaves out. -/
def copied (p : Paths) (x : FilePath × Entry) (d : Dir) : Except Error Dir :=
  if x.1.head? = some "bin" then .ok d
  else match x.2 with
    | .dir => .ok (d.set x.1 .dir)
    | .file bytes => .ok (d.set x.1 (.file bytes))
    | .link (.error e) _ => .error e
    | .link (.ok (some bytes)) true => .ok (d.set x.1 (.file bytes))
    | .link (.ok _) _ => .error <| s!"Refusing migration symlink {p.below x.1}: " ++
        s!"target must be a regular file inside {p.boundary}"
    | .other => .error s!"Unsupported file in migration: {p.below x.1}"

def copiedAll (p : Paths) : List (FilePath × Entry) → Dir → Except Error Dir
  | [], d => .ok d
  | x :: xs, d => do copiedAll p xs (← copied p x d)

def rewritten (path : FilePath) (f : Dir → Except Error (Option Bytes)) (d : Dir) :
    Except Error Dir := do
  match ← f d with
  | some bytes => return d.set path (.file bytes)
  | none => return d

def published (p : Paths) (d : Dir) : Except Error Dir := do
  let copy ← copiedAll p d.entries .empty
  let copy ← rewritten configFile (newConfig k p) copy
  let copy ← rewritten identityFile (newIdentity k) copy
  return copy.set markerFile (.file (bytesOf (k.toPretty (marker p))))

/-! ## Staging -/

def lastOp (_ : Option FileOp) (o : FileOp) : Option FileOp := some o

/-- The program changes the staging directory only, to what `f` says. -/
def Stages (prog : MProg Unit) (f : Dir → Except Error Dir) : Prop :=
  ∀ (w : World) (g : Option FileOp), (∀ c bytes, g ≠ some (.backup c bytes)) →
    prog.wpc FileOp.exec lastOp
      (fun g w' => (∀ c bytes, g ≠ some (.backup c bytes)) ∧ ∃ d, w' = w.staging d)
      (fun r g w' => (∀ c bytes, g ≠ some (.backup c bytes)) ∧ match f w.staged with
        | .ok d => r = .ok () ∧ w' = w.staging d
        | .error e => r = .error e ∧ ∃ d, w' = w.staging d) g w

theorem stages_bind {a : MProg Unit} {b : MProg Unit} {f h : Dir → Except Error Dir}
    (ha : Stages a f) (hb : Stages b h) : Stages (a >>= fun _ => b) fun d => f d >>= h := by
  intro w g hg
  refine Prog.wpc_bind (Prog.wpc_mono (ha w g hg) (fun _ _ => id) fun r g' w' hr => ?_)
  obtain ⟨hg', hr⟩ := hr
  cases hf : f w.staged with
  | error e =>
    rw [hf] at hr
    obtain ⟨rfl, d, rfl⟩ := hr
    simp only [hf, bind, Except.bind]
    exact ⟨hg', trivial, d, rfl⟩
  | ok d =>
    rw [hf] at hr
    obtain ⟨rfl, rfl⟩ := hr
    refine Prog.wpc_mono (hb _ g' hg') (fun _ _ => id) fun r g'' w'' hr => ?_
    simp only [hf, bind, Except.bind]
    exact hr

theorem stages_op {o : FileOp} {f : Dir → Dir} (hbackup : ∀ c bytes, o ≠ .backup c bytes)
    (h : ∀ w : World, o.exec w = w.staging (f w.staged)) : Stages (op o) fun d => .ok (f d) := by
  intro w g hg
  have ho : ∀ c bytes, lastOp g o ≠ some (.backup c bytes) := fun c bytes heq =>
    hbackup c bytes (Option.some.inj heq)
  exact Prog.wpc_statement ⟨hg, w.staged, rfl⟩ ⟨ho, _, h w⟩ ⟨ho, rfl, h w⟩

theorem stages_pure : Stages (pure ()) .ok := fun w _ hg =>
  Prog.wpc_pure ⟨hg, w.staged, rfl⟩ ⟨hg, rfl, rfl⟩

theorem stages_throw (e : Error) : Stages (throw e) fun _ => .error e := fun w _ hg =>
  Prog.wpc_throw ⟨hg, w.staged, rfl⟩ ⟨hg, rfl, w.staged, rfl⟩

theorem setEntries_setEntries (path : FilePath) (e e' : Entry) (xs : List (FilePath × Entry)) :
    Dir.setEntries path e (Dir.setEntries path e' xs) = Dir.setEntries path e xs := by
  induction xs with
  | nil => simp [Dir.setEntries]
  | cons x xs ih =>
    by_cases h : x.1 = path
    · simp [Dir.setEntries, h]
    · simp [Dir.setEntries, h, ih]

theorem set_set (d : Dir) (path : FilePath) (e e' : Entry) :
    (d.set path e').set path e = d.set path e := by
  unfold Dir.set
  congr 1
  exact setEntries_setEntries path e e' d.entries

theorem stages_written (path : FilePath) (bytes : Bytes) :
    Stages (writeStaged path bytes) fun d => .ok (d.set path (.file bytes)) := by
  have hop : ∀ n, Stages (op (.stage path (.file (bytes.take n))))
      fun d => .ok (d.set path (.file (bytes.take n))) := fun n =>
    stages_op (fun _ _ h => by cases h) fun _ => rfl
  have hall : ∀ n, Stages ((List.range (n + 1)).forM fun n =>
      op (.stage path (.file (bytes.take n)))) fun d => .ok (d.set path (.file (bytes.take n))) := by
    intro n
    have hrun : ∀ (ns : List Nat) (m : Nat), Stages ((ns ++ [m]).forM fun n =>
        op (.stage path (.file (bytes.take n)))) fun d => .ok (d.set path (.file (bytes.take m))) := by
      intro ns m
      induction ns with
      | nil => exact stages_bind (hop m) stages_pure
      | cons n ns ih =>
        have hboth := stages_bind (hop n) ih
        intro w g hg
        have := hboth w g hg
        simp only [bind, Except.bind, set_set] at this
        exact this
    rw [List.range_succ]
    exact hrun _ n
  have hlast := hall bytes.length
  rw [List.take_length] at hlast
  exact hlast

theorem stages_copyEntry (p : Paths) (x : FilePath × Entry) :
    Stages (copyEntry p x) (copied p x) := by
  obtain ⟨path, e⟩ := x
  unfold copyEntry
  by_cases hbin : path.head? = some "bin"
  · rw [if_pos hbin]
    intro w g hg
    have := stages_pure w g hg
    simp only [copied, hbin, if_true]
    exact this
  · rw [if_neg hbin]
    have hcopied : copied p (path, e) = fun d => match e with
        | .dir => .ok (d.set path .dir)
        | .file bytes => .ok (d.set path (.file bytes))
        | .link (.error e) _ => .error e
        | .link (.ok (some bytes)) true => .ok (d.set path (.file bytes))
        | .link (.ok _) _ => .error <| s!"Refusing migration symlink {p.below path}: " ++
            s!"target must be a regular file inside {p.boundary}"
        | .other => .error s!"Unsupported file in migration: {p.below path}" := by
      funext d
      exact if_neg hbin
    rw [hcopied]
    cases e with
    | dir => exact stages_op (fun _ _ h => by cases h) fun _ => rfl
    | file bytes => exact stages_written path bytes
    | link target inside =>
      cases target with
      | error e => exact stages_throw _
      | ok found =>
        cases found with
        | none => exact stages_throw _
        | some bytes =>
          cases inside with
          | true => exact stages_written path bytes
          | false => exact stages_throw _
    | other => exact stages_throw _

theorem stages_copyTree (p : Paths) (d : Dir) : Stages (copyTree p d) (copiedAll p d.entries) := by
  unfold copyTree
  induction d.entries with
  | nil => exact stages_pure
  | cons x xs ih => exact stages_bind (stages_copyEntry p x) ih

theorem stages_rewriteStaged (path : FilePath) (f : Dir → Except Error (Option Bytes)) :
    Stages (rewriteStaged path f) (rewritten path f) := by
  intro w g hg
  have hread : ∀ c bytes, lastOp g .read ≠ some (.backup c bytes) := fun _ _ h => by cases h
  unfold rewriteStaged rewritten
  cases hf : f w.staged with
  | error e =>
    refine Prog.wpc_bind (Prog.wpc_statement ⟨hg, w.staged, rfl⟩ ⟨hread, w.staged, rfl⟩ ?_)
    rw [hf]
    exact ⟨hread, rfl, w.staged, rfl⟩
  | ok found =>
    refine Prog.wpc_step (b := found) hf ⟨hg, w.staged, rfl⟩ ?_
    cases found with
    | none => exact stages_pure w _ hread
    | some bytes => exact stages_written path bytes w _ hread

theorem stages_stageTree (p : Paths) (d : Dir) :
    Stages (stageTree k p d) fun _ => published k p d := by
  have hempty : Stages (op .stagingDir) fun _ => .ok Dir.empty :=
    stages_op (fun _ _ h => by cases h) fun _ => rfl
  have hall := stages_bind hempty (stages_bind (stages_copyTree p d)
    (stages_bind (stages_rewriteStaged configFile (newConfig k p))
      (stages_bind (stages_rewriteStaged identityFile (newIdentity k))
        (stages_written markerFile (bytesOf (k.toPretty (marker p)))))))
  exact hall

/-! ## The complete copy has every file -/

/-- A file of the tree is at the target as it was; the configuration and the identity are there. -/
structure Complete (source target : Dir) : Prop where
  same : ∀ path bytes, source.get? path = some (.file bytes) → path.head? ≠ some "bin" →
    path ∉ [configFile, identityFile, markerFile] → target.get? path = some (.file bytes)
  rewritten : ∀ path ∈ [configFile, identityFile], ∀ bytes,
    source.get? path = some (.file bytes) → ∃ bytes', target.get? path = some (.file bytes')

theorem copied_get? {p : Paths} {x : FilePath × Entry} {d d' : Dir} {path : FilePath}
    (h : copied p x d = .ok d') (hne : path ≠ x.1) : d'.get? path = d.get? path := by
  have hset : ∀ e, (d.set x.1 e).get? path = d.get? path := fun e => by rw [Dir.get?_set, if_neg hne]
  unfold copied at h
  split at h
  · cases h
    rfl
  · split at h <;> cases h <;> exact hset _

theorem copiedAll_get? {p : Paths} {xs : List (FilePath × Entry)} {d d' : Dir}
    (h : copiedAll p xs d = .ok d') (hdistinct : (xs.map (·.1)).Nodup) {path : FilePath} :
    (path ∉ xs.map (·.1) → d'.get? path = d.get? path) ∧
      ∀ bytes, (path, .file bytes) ∈ xs → path.head? ≠ some "bin" →
        d'.get? path = some (.file bytes) := by
  induction xs generalizing d with
  | nil =>
    cases h
    exact ⟨fun _ => rfl, fun _ hmem => by cases hmem⟩
  | cons x xs ih =>
    rw [List.map_cons, List.nodup_cons] at hdistinct
    unfold copiedAll at h
    obtain ⟨d1, hx, h⟩ := bind_ok h
    obtain ⟨hother, hfile⟩ := ih h hdistinct.2
    constructor
    · intro hmem
      rw [List.map_cons, List.mem_cons, not_or] at hmem
      rw [hother hmem.2, copied_get? hx hmem.1]
    · intro bytes hmem hbin
      rcases List.mem_cons.1 hmem with rfl | hmem
      · rw [hother hdistinct.1]
        simp only [copied, hbin, if_false] at hx
        cases hx
        rw [Dir.get?_set, if_pos rfl]
      · exact hfile bytes hmem hbin

theorem rewritten_get? {path q : FilePath} {f : Dir → Except Error (Option Bytes)} {d d' : Dir}
    (h : rewritten path f d = .ok d') : (q ≠ path → d'.get? q = d.get? q) ∧
      ∀ bytes, d.get? q = some (.file bytes) → ∃ bytes', d'.get? q = some (.file bytes') := by
  unfold rewritten at h
  obtain ⟨found, -, h⟩ := bind_ok h
  cases found with
  | none =>
    cases h
    exact ⟨fun _ => rfl, fun bytes hbytes => ⟨bytes, hbytes⟩⟩
  | some new =>
    cases h
    refine ⟨fun hne => by rw [Dir.get?_set, if_neg hne], fun bytes hbytes => ?_⟩
    rw [Dir.get?_set]
    split
    · exact ⟨new, rfl⟩
    · exact ⟨bytes, hbytes⟩

theorem published_complete {p : Paths} {d d' : Dir} (h : published k p d = .ok d') :
    Complete d d' ∧
      d'.get? markerFile = some (.file (bytesOf (k.toPretty (marker p)))) := by
  unfold published at h
  obtain ⟨d1, hcopy, h⟩ := bind_ok h
  obtain ⟨d2, hconfig, h⟩ := bind_ok h
  obtain ⟨d3, hidentity, h⟩ := bind_ok h
  cases h
  have hfile : ∀ path bytes, d.get? path = some (.file bytes) → path.head? ≠ some "bin" →
      d1.get? path = some (.file bytes) := by
    intro path bytes hget hbin
    obtain ⟨before, after, hentries, -⟩ := List.lookup_eq_some_iff.1 hget
    refine (copiedAll_get? hcopy d.distinct).2 bytes ?_ hbin
    rw [hentries]
    simp
  refine ⟨⟨fun path bytes hget hbin hpath => ?_, fun path hpath bytes hget => ?_⟩, ?_⟩
  · simp only [List.mem_cons, List.not_mem_nil, or_false, not_or] at hpath
    rw [Dir.get?_set, if_neg hpath.2.2, (rewritten_get? hidentity).1 hpath.2.1,
      (rewritten_get? hconfig).1 hpath.1]
    exact hfile path bytes hget hbin
  · have hbin : path.head? ≠ some "bin" ∧ path ≠ markerFile := by
      simp only [List.mem_cons, List.not_mem_nil, or_false] at hpath
      rcases hpath with rfl | rfl <;> decide
    obtain ⟨bytes2, h2⟩ := (rewritten_get? hconfig).2 bytes (hfile path bytes hget hbin.1)
    obtain ⟨bytes3, h3⟩ := (rewritten_get? hidentity).2 bytes2 h2
    exact ⟨bytes3, by rw [Dir.get?_set, if_neg hbin.2, h3]⟩
  · rw [Dir.get?_set, if_pos rfl]

/-! ## A root on its way -/

def moved (p : Paths) (r : Root) : Except Error Root := do
  validateData k p r
  match r.source with
  | some (.dir d) =>
    match r.target with
    | none => return ⟨none, r.source, some (.dir (← published k p d))⟩
    | some target => return ⟨none, r.source, some target⟩
  | _ => return r

/-- Where a move can stop: as it was, with the copy at the target, or moved. -/
inductive Between (p : Paths) (r : Root) : Root → Prop where
  | same : Between p r r
  | published {d : Dir} {target : Place} (hvalid : validateData k p r = .ok ())
      (hsource : r.source = some (.dir d))
      (htarget : r.target = some target ∨
        r.target = none ∧ ∃ copy, published k p d = .ok copy ∧ target = .dir copy) :
      Between p r { r with target := some target }
  | retired {d : Dir} {target : Place} (hvalid : validateData k p r = .ok ())
      (hsource : r.source = some (.dir d))
      (htarget : r.target = some target ∨
        r.target = none ∧ ∃ copy, published k p d = .ok copy ∧ target = .dir copy) :
      Between p r ⟨none, r.source, some target⟩

def Codec.ReadsMarker (k : Codec) (p : Paths) : Prop :=
  k.fromSlice (bytesOf (k.toPretty (marker p))) = .ok (marker p)

variable {k} {p : Paths} {r r' : Root}

theorem matchingMarker_published (hk : k.ReadsMarker p) {d copy : Dir}
    (h : published k p d = .ok copy) : matchingMarker k p (.dir copy) = true := by
  have hmarker := (published_complete k h).2
  unfold matchingMarker Dir.read?
  dsimp only
  rw [hmarker]
  dsimp only
  rw [show k.fromSlice (bytesOf (k.toPretty (marker p))) = _ from hk]
  exact decide_eq_true rfl

theorem validateData_dir {d : Dir} (hsource : r.source = some (.dir d)) :
    validateData k p r = .ok () ↔ checkPath p.source (some (.dir d)) = .ok () ∧
      checkPath p.target r.target = .ok () ∧ validateDir k p d r = .ok () := by
  unfold validateData
  rw [hsource]
  cases hs : checkPath p.source (some (.dir d)) <;> cases ht : checkPath p.target r.target <;>
    simp [bind, Except.bind]

theorem checkPath_ok {path : String} {place : Option Place} (h : checkPath path place = .ok ())
    {place' : Option Place} (hplace : place' ≠ some .link) : checkPath path place' = .ok () := by
  unfold checkPath at h ⊢
  split at h
  · cases h
  · rename_i hparent
    rw [if_neg hparent]
    split
    · exact absurd rfl hplace
    · rfl

def Targeted (k : Codec) (p : Paths) (r : Root) (d : Dir) (target : Place) : Prop :=
  r.target = some target ∨
    r.target = none ∧ ∃ copy, published k p d = .ok copy ∧ target = .dir copy

theorem Targeted.checkPath {d : Dir} {target : Place} (h : Targeted k p r d target)
    (hpath : checkPath p.target r.target = .ok ()) :
    checkPath p.target (some target) = .ok () := by
  rcases h with h | ⟨-, copy, -, rfl⟩
  · rw [← h]
    exact hpath
  · exact checkPath_ok hpath fun h => by cases h

theorem Targeted.moved {d : Dir} {target : Place} (h : Targeted k p r d target)
    (hvalid : validateData k p r = .ok ()) (hsource : r.source = some (.dir d)) :
    moved k p r = .ok ⟨none, r.source, some target⟩ := by
  unfold AgentPalace.Cli.moved
  rw [hvalid]
  rcases h with h | ⟨h, copy, hcopy, rfl⟩
  · simp [hsource, h, bind, Except.bind, pure, Except.pure]
  · simp [hsource, h, hcopy, bind, Except.bind, pure, Except.pure]

theorem Between.valid (hk : k.ReadsMarker p) (h : Between k p r r')
    (hvalid : validateData k p r = .ok ()) : validateData k p r' = .ok () := by
  cases h with
  | same => exact hvalid
  | @published d target _ hsource htarget =>
    obtain ⟨hs, ht, hdir⟩ := (validateData_dir hsource).1 hvalid
    refine (validateData_dir (r := { r with target := some target }) hsource).2
      ⟨hs, Targeted.checkPath htarget ht, ?_⟩
    rcases htarget with h | ⟨h, copy, hcopy, rfl⟩
    · have hr : { r with target := some target } = r := by rw [← h]
      rw [hr]
      exact hdir
    · unfold validateDir at hdir ⊢
      simp only [h, Option.any_none, Bool.false_eq_true, if_false] at hdir
      simp only [Option.any_some, matchingMarker_published hk hcopy, Bool.not_true,
        Bool.false_eq_true, if_false]
      exact hdir
  | @retired d target _ hsource htarget =>
    obtain ⟨hs, ht, -⟩ := (validateData_dir hsource).1 hvalid
    unfold validateData
    dsimp only
    have hnone : checkPath p.source none = .ok () := checkPath_ok hs fun h => by cases h
    rw [hnone, Targeted.checkPath htarget ht]
    rfl

theorem moved_valid {r' : Root} (h : moved k p r = .ok r') : validateData k p r = .ok () := by
  unfold moved at h
  obtain ⟨_, hvalid, -⟩ := bind_ok h
  exact hvalid

/-- What is moved has been retired, or was not there. -/
theorem moved_cases (h : moved k p r = .ok r') :
    (r.source = none ∧ r' = r) ∨ ∃ d target, r.source = some (.dir d) ∧
      Targeted k p r d target ∧ r' = ⟨none, r.source, some target⟩ := by
  have hvalid := moved_valid h
  cases hsource : r.source with
  | none =>
    unfold moved at h
    rw [hvalid, hsource] at h
    cases h
    exact .inl ⟨rfl, rfl⟩
  | some place =>
    have hdir : ∃ d, place = .dir d := by
      unfold validateData at hvalid
      rw [hsource] at hvalid
      cases place with
      | dir d => exact ⟨d, rfl⟩
      | _ =>
        cases hs : checkPath p.source (some _) <;> cases ht : checkPath p.target r.target <;>
          (rw [hs, ht] at hvalid; cases hvalid)
    obtain ⟨d, rfl⟩ := hdir
    refine .inr ⟨d, ?_⟩
    cases htarget : r.target with
    | some target =>
      have hmoved := Targeted.moved (.inl htarget) hvalid hsource
      rw [h] at hmoved
      cases hmoved
      exact ⟨target, rfl, .inl htarget, by rw [hsource]⟩
    | none =>
      unfold moved at h
      obtain ⟨_, -, h⟩ := bind_ok h
      rw [hsource, htarget] at h
      obtain ⟨copy, hcopy, h⟩ := bind_ok h
      cases h
      exact ⟨.dir copy, rfl, .inr ⟨htarget, copy, hcopy, rfl⟩, rfl⟩

theorem moved_source (h : moved k p r = .ok r') : r'.source = none := by
  rcases moved_cases h with ⟨hsource, rfl⟩ | ⟨d, target, -, -, rfl⟩
  · exact hsource
  · rfl

theorem moved_between (h : moved k p r = .ok r') : Between k p r r' := by
  rcases moved_cases h with ⟨-, rfl⟩ | ⟨d, target, hsource, htarget, rfl⟩
  · exact .same
  · exact .retired (moved_valid h) hsource htarget

theorem moved_of_source (hvalid : validateData k p r = .ok ()) (hsource : r.source = none) :
    moved k p r = .ok r := by
  unfold moved
  rw [hvalid, hsource]
  rfl

/-- **A move goes on**: from wherever it was stopped it ends in the same root. -/
theorem Between.moved (hk : k.ReadsMarker p) (h : Between k p r r') :
    moved k p r' = moved k p r := by
  have hvalid' := h.valid hk
  cases h with
  | same => rfl
  | @published d target hvalid hsource htarget =>
    rw [Targeted.moved htarget hvalid hsource]
    exact Targeted.moved (d := d) (r := { r with target := some target }) (.inl rfl)
      (hvalid' hvalid) hsource
  | @retired d target hvalid hsource htarget =>
    rw [Targeted.moved htarget hvalid hsource]
    exact moved_of_source (hvalid' hvalid) rfl

theorem Between.trans {r'' : Root} (h : Between k p r r') (h' : Between k p r' r'') :
    Between k p r r'' := by
  cases h with
  | same => exact h'
  | @published d target hvalid hsource htarget =>
    have hsame : ∀ {d' : Dir} {target' : Place},
        Targeted k p { r with target := some target } d' target' → target' = target := by
      rintro d' target' (h | ⟨h, -⟩)
      · exact (Option.some.inj h).symm
      · cases h
    cases h' with
    | same => exact .published hvalid hsource htarget
    | published _ _ htarget' =>
      rw [hsame htarget']
      exact .published hvalid hsource htarget
    | retired _ _ htarget' =>
      rw [hsame htarget']
      exact .retired hvalid hsource htarget
  | @retired d target hvalid hsource htarget =>
    cases h' with
    | same => exact .retired hvalid hsource htarget
    | published _ hsource' _ => cases hsource'
    | retired _ hsource' _ => cases hsource'

/-! ## The program of a move -/

def NotBackup (g : Option FileOp) : Prop := ∀ c bytes, g ≠ some (.backup c bytes)

@[simp] theorem setRoot_self (w : World) (t : Tree) : w.setRoot t (w.root t) = w := by
  unfold World.setRoot
  rw [Function.update_eq_self]

@[simp] theorem setRoot_setRoot (w : World) (t : Tree) (r r' : Root) :
    (w.setRoot t r).setRoot t r' = w.setRoot t r' := by
  unfold World.setRoot
  rw [Function.update_idem]

@[simp] theorem root_setRoot (w : World) (t : Tree) (r : Root) : (w.setRoot t r).root t = r :=
  Function.update_self _ _ _

theorem root_setRoot_of_ne (w : World) {t u : Tree} (h : u ≠ t) (r : Root) :
    (w.setRoot t r).root u = w.root u := Function.update_of_ne h _ _

@[simp] theorem root_staging (w : World) (d : Dir) : (w.staging d).root = w.root := rfl

theorem migrateData_wpc (t : Tree) (w : World) {g : Option FileOp} (hg : NotBackup g) :
    (migrateData k t p).wpc FileOp.exec lastOp
      (fun g w' => NotBackup g ∧ ∃ r d, Between k p (w.root t) r ∧ w' = (w.setRoot t r).staging d)
      (fun a g w' => NotBackup g ∧ match moved k p (w.root t) with
        | .ok r => a = .ok () ∧ ∃ d, w' = (w.setRoot t r).staging d
        | .error e => a = .error e ∧ ∃ d, w' = w.staging d) g w := by
  have hnot : ∀ {g o}, (∀ c bytes, o ≠ FileOp.backup c bytes) → NotBackup (lastOp g o) :=
    fun ho c bytes heq => ho c bytes (Option.some.inj heq)
  have hread : NotBackup (lastOp g .read) := hnot fun _ _ h => by cases h
  have hsame : ∃ r d, Between k p (w.root t) r ∧ w = (w.setRoot t r).staging d :=
    ⟨w.root t, w.staged, .same, by rw [setRoot_self]; rfl⟩
  unfold migrateData
  cases hvalid : validateData k p (w.root t) with
  | error e =>
    refine Prog.wpc_bind (Prog.wpc_statement ⟨hg, hsame⟩ ⟨hread, hsame⟩ ?_)
    have hmoved : moved k p (w.root t) = .error e := by
      unfold moved
      rw [hvalid]
      rfl
    rw [hvalid, hmoved]
    exact ⟨hread, rfl, w.staged, rfl⟩
  | ok =>
    refine Prog.wpc_step (b := w.root t) (by rw [hvalid]; rfl) ⟨hg, hsame⟩ ?_
    cases hsource : (w.root t).source with
    | none =>
      rw [moved_of_source hvalid hsource]
      refine Prog.wpc_pure ⟨hread, hsame⟩ ⟨hread, rfl, w.staged, ?_⟩
      rw [setRoot_self]
      rfl
    | some place =>
      cases place with
      | dir d =>
        -- The source is retired once the target is there.
        have hretire : ∀ (w' : World) (g' : Option FileOp) (target : Place), NotBackup g' →
            Targeted k p (w.root t) d target →
            (∃ e, w' = (w.setRoot t { w.root t with target := some target }).staging e) →
            (op (.retire t)).wpc FileOp.exec lastOp
              (fun g w' => NotBackup g ∧
                ∃ r d, Between k p (w.root t) r ∧ w' = (w.setRoot t r).staging d)
              (fun a g w' => NotBackup g ∧ match moved k p (w.root t) with
                | .ok r => a = .ok () ∧ ∃ d, w' = (w.setRoot t r).staging d
                | .error e => a = .error e ∧ ∃ d, w' = w.staging d) g' w' := by
          rintro w' g' target hg' htarget ⟨e, rfl⟩
          have hr : NotBackup (lastOp g' (.retire t)) := hnot fun _ _ h => by cases h
          have hexec : (FileOp.retire t).exec
              ((w.setRoot t { w.root t with target := some target }).staging e) =
              (w.setRoot t ⟨none, (w.root t).source, some target⟩).staging e := by
            generalize hw1 : w.setRoot t { w.root t with target := some target } = w1
            have hroot : w1.root t = { w.root t with target := some target } := by
              rw [← hw1, root_setRoot]
            show (w1.setRoot t { w1.root t with source := none, backup := (w1.root t).source }).staging
              e = _
            rw [hroot, ← hw1, setRoot_setRoot]
          refine Prog.wpc_statement ⟨hg', _, e, .published hvalid hsource htarget, rfl⟩
            ⟨hr, _, e, .retired hvalid hsource htarget, hexec⟩ ?_
          rw [htarget.moved hvalid hsource, hexec]
          exact ⟨hr, rfl, e, rfl⟩
        dsimp only
        cases htarget : (w.root t).target with
        | some target =>
          refine Prog.wpc_bind (Prog.wpc_pure ⟨hread, hsame⟩ ?_)
          refine hretire w _ target hread (.inl htarget) ⟨w.staged, ?_⟩
          have hr : { w.root t with target := some target } = w.root t := by rw [← htarget]
          rw [hr, setRoot_self]
          rfl
        | none =>
          refine Prog.wpc_bind ?_
          refine Prog.wpc_mono (stages_stageTree k p d w _ hread) ?_ ?_
          · rintro g' w' ⟨hg', e, rfl⟩
            exact ⟨hg', w.root t, e, .same, by rw [setRoot_self]⟩
          · rintro a g' w' ⟨hg', hresult⟩
            cases hcopy : published k p d with
            | error e =>
              rw [hcopy] at hresult
              obtain ⟨rfl, e', rfl⟩ := hresult
              have hmoved : moved k p (w.root t) = .error e := by
                unfold moved
                rw [hvalid]
                simp only [hsource, htarget, hcopy, bind, Except.bind]
              rw [hmoved]
              exact ⟨hg', rfl, e', rfl⟩
            | ok copy =>
              rw [hcopy] at hresult
              obtain ⟨rfl, rfl⟩ := hresult
              have hp : NotBackup (lastOp g' (.publish t)) := hnot fun _ _ h => by cases h
              have htargeted : Targeted k p (w.root t) d (.dir copy) :=
                .inr ⟨htarget, copy, hcopy, rfl⟩
              refine Prog.wpc_bind (Prog.wpc_statement
                ⟨hg', w.root t, copy, .same, by rw [setRoot_self]⟩
                ⟨hp, _, .empty, .published hvalid hsource htargeted, rfl⟩ ?_)
              exact hretire _ _ _ hp htargeted ⟨.empty, rfl⟩
      | _ =>
        unfold validateData at hvalid
        rw [hsource] at hvalid
        cases hs : checkPath p.source (some _) <;>
          cases ht : checkPath p.target (w.root t).target <;>
          (rw [hs, ht] at hvalid; cases hvalid)

end AgentPalace.Cli
