import AgentPalace.Hub.PolicyRuns

/-!
# The bootstrap happens once

`open` writes the policy, then the marker, then the bindings, each as a step of
its own while it holds the lock: it may crash before each. Anybody who can write
to the directory may delete the policy or the bindings, or put back any file;
the marker stays. `bootstraps` counts the events `bootstrap_admin_created`.

Between the first two writes the policy alone says that the bootstrap is done. A
crash there, and a deletion of the policy after it, leave nothing that does.
-/

namespace AgentPalace.Hub

/-- How far the `open` that holds the lock has come. -/
inductive OpenStage where
  | marker (now : UInt64)
  | bindings (now : UInt64)
  deriving DecidableEq

structure StoreState where
  files : Files
  opening : Option OpenStage
  bootstraps : Nat

inductive StoreStep where
  | openPolicy (bootstrap : Option BootstrapAdmin) (now : UInt64)
  | openMarker
  | openBindings
  | crash
  | replace (expectedRevision : Nat) (actor : String) (users : OrdMap String AccessEntry)
      (now : UInt64)
  | deletePolicy
  | deleteBindings
  | restorePolicy (file : Stored PolicyFile)
  | restoreBindings (file : Stored BindingsFile)

namespace StoreState

variable (env : PolicyEnv)

def unlocked (s : StoreState) (t : StoreState) : Option StoreState :=
  match s.opening with
  | none => some t
  | some _ => none

def step (s : StoreState) : StoreStep → Option StoreState
  | .openPolicy bootstrap now =>
    s.unlocked (match s.files.openPolicy env bootstrap now with
      | .error _ => s
      | .ok (true, files) => ⟨files, some (.marker now), s.bootstraps + 1⟩
      | .ok (false, files) => ⟨files, some (.bindings now), s.bootstraps⟩)
  | .openMarker =>
    match s.opening with
    | some (.marker now) => some ⟨s.files.writeMarker, some (.bindings now), s.bootstraps⟩
    | _ => none
  | .openBindings =>
    match s.opening with
    | some (.bindings now) =>
      match s.files.openBindings env now with
      | .error _ => some { s with opening := none }
      | .ok files => some ⟨files, none, s.bootstraps⟩
    | _ => none
  | .crash => some { s with opening := none }
  | .replace expectedRevision actor users now =>
    s.unlocked { s with files := (s.files.replace env expectedRevision actor users now).2 }
  | .deletePolicy => some { s with files := { s.files with policy := none } }
  | .deleteBindings => some { s with files := { s.files with bindings := none } }
  | .restorePolicy file => some { s with files := { s.files with policy := some file } }
  | .restoreBindings file => some { s with files := { s.files with bindings := some file } }

def marking (s : StoreState) : Bool :=
  match s.opening with
  | some (.marker _) => true
  | _ => false

/-- Once there was a bootstrap, the policy is deleted only if the marker is there or is about to be
written; and while it is about to be written, `open` crashes only if the policy is there. -/
def Careful (s : StoreState) : StoreStep → Prop
  | .deletePolicy => s.bootstraps = 0 ∨ s.files.bootstrapMarker = true ∨ s.marking = true
  | .crash => s.marking = true → s.files.bootstrapMarker = true ∨ s.files.policy.isSome = true
  | _ => True

end StoreState

def storeMachine (env : PolicyEnv) : Machine StoreState StoreStep where
  Init s := s = ⟨⟨none, false, none⟩, none, 0⟩
  Step s l t := s.step env l = some t

structure StoreState.Recorded (s : StoreState) : Prop where
  once : s.bootstraps ≤ 1
  trace : s.bootstraps = 1 →
    s.files.bootstrapMarker = true ∨ s.marking = true ∨ s.files.policy.isSome = true

section
variable {env : PolicyEnv} {s t : StoreState}

/-- `replace` does not remove the policy, nor the marker. -/
theorem replace_keeps {files : Files} {expected : Nat} {actor : String}
    {users : OrdMap String AccessEntry} {now : UInt64} :
    (files.replace env expected actor users now).2.bootstrapMarker = files.bootstrapMarker ∧
      (files.policy.isSome = true →
        (files.replace env expected actor users now).2.policy.isSome = true) := by
  have heffect : Effect env files (.replace expected actor users now)
      (files.replace env expected actor users now).2 := effect_replace expected actor users now
  generalize (files.replace env expected actor users now).2 = t at heffect
  cases heffect with
  | same => exact ⟨rfl, id⟩
  | replaced _ _ _ _ _ hwrite =>
    obtain ⟨rfl, -⟩ := Files.writePolicy_ok hwrite
    exact ⟨rfl, fun _ => rfl⟩

theorem openBindings_keeps {files files' : Files} {now : UInt64}
    (h : files.openBindings env now = .ok files') :
    files'.bootstrapMarker = files.bootstrapMarker ∧ files'.policy = files.policy := by
  unfold Files.openBindings at h
  split at h
  · cases h
    exact ⟨rfl, rfl⟩
  · obtain ⟨rfl, -⟩ := Files.writeBindings_ok h
    exact ⟨rfl, rfl⟩
  · cases h

theorem unlocked_some {u : StoreState} (h : s.unlocked u = some t) : s.opening = none ∧ u = t := by
  unfold StoreState.unlocked at h
  split at h
  · rename_i hnone
    cases h
    exact ⟨hnone, rfl⟩
  · cases h

theorem not_marking (h : s.opening = none) : s.marking = false := by
  simp [StoreState.marking, h]

/-- **One step keeps the bootstrap recorded.** -/
theorem StoreState.Recorded.step {l : StoreStep} (h : s.Recorded) (hcareful : s.Careful l)
    (hstep : s.step env l = some t) : t.Recorded := by
  cases l with
  | openPolicy bootstrap now =>
    obtain ⟨hfree, rfl⟩ := unlocked_some hstep
    split
    · exact h
    · rename_i files hopen
      obtain ⟨hcreated, -⟩ | ⟨-, hpolicy, hmarker, -⟩ := openPolicy_ok hopen
      · cases hcreated
      · have hzero : s.bootstraps = 0 := by
          by_contra hne
          have hone : s.bootstraps = 1 := by have := h.once; omega
          have := h.trace hone
          simp [hmarker, not_marking hfree, hpolicy] at this
        exact ⟨by simp [hzero], fun _ => .inr (.inl rfl)⟩
    · rename_i files hopen
      obtain ⟨-, rfl⟩ | ⟨hcreated, -⟩ := openPolicy_ok hopen
      · refine ⟨h.once, fun hone => ?_⟩
        rcases h.trace hone with hm | hm | hp
        · exact .inl hm
        · rw [not_marking hfree] at hm
          cases hm
        · exact .inr (.inr hp)
      · cases hcreated
  | openMarker =>
    simp only [StoreState.step] at hstep
    split at hstep
    · cases hstep
      exact ⟨h.once, fun _ => .inl rfl⟩
    · cases hstep
  | openBindings =>
    simp only [StoreState.step] at hstep
    split at hstep
    · rename_i now hopening
      have htrace : s.bootstraps = 1 →
          s.files.bootstrapMarker = true ∨ s.files.policy.isSome = true := by
        intro hone
        rcases h.trace hone with hm | hm | hp
        · exact .inl hm
        · simp [StoreState.marking, hopening] at hm
        · exact .inr hp
      split at hstep
      · cases hstep
        exact ⟨h.once, fun hone => (htrace hone).imp_right .inr⟩
      · rename_i files hopen
        cases hstep
        obtain ⟨hmarker, hpolicy⟩ := openBindings_keeps hopen
        refine ⟨h.once, fun hone => ?_⟩
        rw [hmarker, hpolicy]
        exact (htrace hone).imp_right .inr
    · cases hstep
  | crash =>
    cases hstep
    refine ⟨h.once, fun hone => ?_⟩
    rcases h.trace hone with hm | hm | hp
    · exact .inl hm
    · exact (hcareful hm).imp_right .inr
    · exact .inr (.inr hp)
  | replace expected actor users now =>
    obtain ⟨hfree, rfl⟩ := unlocked_some hstep
    obtain ⟨hmarker, hpolicy⟩ := @replace_keeps env s.files expected actor users now
    refine ⟨h.once, fun hone => ?_⟩
    rcases h.trace hone with hm | hm | hp
    · exact .inl (hmarker.trans hm)
    · exact .inr (.inl hm)
    · exact .inr (.inr (hpolicy hp))
  | deletePolicy =>
    cases hstep
    refine ⟨h.once, fun hone => ?_⟩
    rcases hcareful with hzero | hm | hm
    · exact absurd (hzero.symm.trans hone) Nat.zero_ne_one
    · exact .inl hm
    · exact .inr (.inl hm)
  | deleteBindings =>
    cases hstep
    exact ⟨h.once, h.trace⟩
  | restorePolicy file =>
    cases hstep
    exact ⟨h.once, fun _ => .inr (.inr rfl)⟩
  | restoreBindings file =>
    cases hstep
    exact ⟨h.once, h.trace⟩

/-- **At most one bootstrap**, in every run in which nobody deletes the policy while it alone says
that there was one. -/
theorem bootstrap_once (h : ((storeMachine env).restrict StoreState.Careful).Reachable s) :
    s.bootstraps ≤ 1 := by
  have hrecorded : s.Recorded := by
    refine h.invariant ?_ fun a l b _ ha hstep => ha.step hstep.2 hstep.1
    rintro a rfl
    exact ⟨Nat.zero_le 1, fun hone => absurd hone Nat.zero_ne_one⟩
  exact hrecorded.once

end

/-! ### A bootstrap that is interrupted -/

def emptyStore : StoreState := ⟨noFiles, none, 0⟩

def bootstrapRoot : StoreStep := .openPolicy (some ⟨"root@gmail.com", false⟩) 0

def playSteps (ls : List StoreStep) : Option StoreState :=
  ls.foldlM (fun s l => s.step demoEnv l) emptyStore

instance (s : StoreState) : (l : StoreStep) → Decidable (s.Careful l)
  | .deletePolicy => inferInstanceAs (Decidable (_ ∨ _ ∨ _))
  | .crash => inferInstanceAs (Decidable (_ → _ ∨ _))
  | .openPolicy .. | .openMarker | .openBindings | .replace .. | .deleteBindings
  | .restorePolicy _ | .restoreBindings _ => .isTrue trivial

/-- The first `open` crashes before the bindings, the second one ends; then the policy is deleted
and the third one refused. -/
def interruptedOpen : List StoreStep :=
  [bootstrapRoot, .openMarker, .crash, bootstrapRoot, .openBindings, .deletePolicy, bootstrapRoot]

def playCarefully (ls : List StoreStep) : Option StoreState :=
  ls.foldlM (fun s l => if s.Careful l then s.step demoEnv l else none) emptyStore

theorem bootstrap_once_open :
    ((playCarefully interruptedOpen).any fun s => decide (s.bootstraps = 1)) = true ∧
      ∀ s, playCarefully interruptedOpen = some s → s.bootstraps ≤ 1 := by
  refine ⟨by decide +kernel, fun s hs => ?_⟩
  refine @bootstrap_once demoEnv s ⟨emptyStore, _, rfl, .of_foldlM (fun a l b h => ?_) hs⟩
  rw [Option.ite_none_right_eq_some] at h
  exact ⟨h.2, h.1⟩

/-- The policy is written, `open` crashes, the policy is deleted, and the next `open` writes the
administrator again. -/
theorem bootstrap_twice :
    ∃ s, (storeMachine demoEnv).Reachable s ∧ s.bootstraps = 2 := by
  have htwo : ((playSteps [bootstrapRoot, .crash, .deletePolicy, bootstrapRoot]).any fun s =>
      decide (s.bootstraps = 2)) = true := by
    decide +kernel
  obtain ⟨s, hs, hcount⟩ := (Option.any_eq_true _ _).1 htwo
  exact ⟨s, ⟨emptyStore, _, rfl, .of_foldlM (fun _ _ _ h => h) hs⟩, of_decide_eq_true hcount⟩

end AgentPalace.Hub
