import Mathlib.Order.Basic

/-!
# Labelled transition systems and timed stores

`Machine` is a set of initial states and a labelled step relation; `Run` is a
finite sequence of steps with its labels. What one step does is lifted to runs
by six rules: an invariant of the reachable states (`Reachable.invariant`), a
reflexive and transitive relation between the ends of a run (`Run.rel`) or the
contents of a row (`Run.row`), a property of traces and the states they lead to
(`Run.traced`), a property that every step of the run with an allowed label keeps
(`Run.stable`), and the first step that breaks a property (`Run.until`).
`Run.unchanged` is the fencing rule: an observation that only ever advances along
a strict order did not move between two equal readings.

A `TimedStore` is a database that serves calls one at a time, each at its own
clock reading; `TimedStore.machine` lets any calls happen in any order as long
as the clock does not go back.
-/

namespace AgentPalace

structure Machine (σ ι : Type) where
  Init : σ → Prop
  Step : σ → ι → σ → Prop

namespace Machine

variable {σ ι : Type} {M : Machine σ ι}

inductive Run (M : Machine σ ι) : σ → List ι → σ → Prop where
  | nil (a : σ) : Run M a [] a
  | cons {a b c : σ} {l : ι} {ls : List ι} : M.Step a l b → Run M b ls c → Run M a (l :: ls) c

def Reachable (M : Machine σ ι) (a : σ) : Prop := ∃ a₀ ls, M.Init a₀ ∧ Run M a₀ ls a

theorem Run.single {a b : σ} {l : ι} (h : M.Step a l b) : Run M a [l] b := .cons h (.nil b)

theorem Run.append {a b c : σ} {xs ys : List ι} (h1 : Run M a xs b) (h2 : Run M b ys c) :
    Run M a (xs ++ ys) c := by
  induction h1 with
  | nil => exact h2
  | cons hs _ ih => exact .cons hs (ih h2)

theorem Run.split {a c : σ} {xs ys : List ι} (h : Run M a (xs ++ ys) c) :
    ∃ b, Run M a xs b ∧ Run M b ys c := by
  induction xs generalizing a with
  | nil => exact ⟨a, .nil a, h⟩
  | cons x xs ih =>
    cases h with
    | cons hs hr =>
      obtain ⟨b, h1, h2⟩ := ih hr
      exact ⟨b, .cons hs h1, h2⟩

theorem Reachable.run {a b : σ} {ls : List ι} (h : M.Reachable a) (hr : Run M a ls b) :
    M.Reachable b := by
  obtain ⟨a₀, ks, h0, hk⟩ := h
  exact ⟨a₀, ks ++ ls, h0, hk.append hr⟩

/-- Checked steps, one after the other, are a run. -/
theorem Run.of_foldlM {f : σ → ι → Option σ} (hstep : ∀ a l b, f a l = some b → M.Step a l b)
    {a b : σ} {ls : List ι} (h : ls.foldlM f a = some b) : Run M a ls b := by
  induction ls generalizing a with
  | nil =>
    cases h
    exact .nil _
  | cons l ls ih =>
    obtain ⟨c, hc, hrest⟩ := Option.bind_eq_some_iff.1 h
    exact .cons (hstep _ _ _ hc) (ih hrest)

theorem Reachable.step {a b : σ} {l : ι} (h : M.Reachable a) (hs : M.Step a l b) :
    M.Reachable b := h.run (.single hs)

/-- **Stability**: a property kept by every step whose label is among the
run's holds at its end. -/
theorem Run.stable {P : σ → Prop} {a b : σ} {ls : List ι} (h : Run M a ls b)
    (hstep : ∀ x l y, M.Reachable x → l ∈ ls → P x → M.Step x l y → P y)
    (hr : M.Reachable a) (ha : P a) : P b := by
  induction h with
  | nil => exact ha
  | cons hs _ ih =>
    refine ih (fun x l y hx hl => hstep x l y hx (List.mem_cons_of_mem _ hl)) (hr.step hs) ?_
    exact hstep _ _ _ hr List.mem_cons_self ha hs

/-- **Until**: a property that holds at the start of a run holds at its end, or
some step of the run is the first to break it. -/
theorem Run.until {P : σ → Prop} {a c : σ} {ls : List ι} (h : Run M a ls c) (ha : P a) :
    P c ∨ ∃ pre l post x y, ls = pre ++ l :: post ∧ Run M a pre x ∧ P x ∧ M.Step x l y ∧ ¬ P y ∧
      Run M y post c := by
  induction h with
  | nil => exact .inl ha
  | @cons a b c l ls hs hrun ih =>
    by_cases hb : P b
    · rcases ih hb with hc | ⟨pre, l', post, x, y, rfl, hpre, hx, hstep, hy, hpost⟩
      · exact .inl hc
      · exact .inr ⟨l :: pre, l', post, x, y, rfl, .cons hs hpre, hx, hstep, hy, hpost⟩
    · exact .inr ⟨[], l, ls, a, b, rfl, .nil a, ha, hs, hb, hrun⟩

/-- **Invariants**: what holds initially and is kept by every step from a
reachable state holds of every reachable state. -/
theorem Reachable.invariant {I : σ → Prop} (h0 : ∀ a, M.Init a → I a)
    (hstep : ∀ a l b, M.Reachable a → I a → M.Step a l b → I b) {a : σ} (h : M.Reachable a) :
    I a := by
  obtain ⟨a₀, ls, hi, hr⟩ := h
  exact hr.stable (fun x l y hx _ => hstep x l y hx) ⟨a₀, [], hi, .nil _⟩ (h0 a₀ hi)

/-- **Traces**: what holds of the empty trace and is kept by every step that extends
one holds of every run. -/
theorem Run.traced {I : List ι → σ → Prop} {a b : σ} {ls : List ι} (h : Run M a ls b)
    (h0 : I [] a)
    (hstep : ∀ ks x l y, Run M a ks x → I ks x → M.Step x l y → I (ks ++ [l]) y) : I ls b := by
  have hsuffix : ∀ {x b : σ} {ls ks : List ι}, Run M x ls b → Run M a ks x → I ks x →
      I (ks ++ ls) b := by
    intro x b ls ks hr
    induction hr generalizing ks with
    | nil => intro _ hi; rw [List.append_nil]; exact hi
    | @cons x y c l ls hs _ ih =>
      intro hks hi
      rw [List.append_cons]
      exact ih (hks.append (.single hs)) (hstep ks x l y hks hi hs)
  exact hsuffix h (.nil a) h0

theorem Run.rel {R : σ → σ → Prop} (hrefl : ∀ a, R a a) (htrans : ∀ a b c, R a b → R b c → R a c)
    (hstep : ∀ a l b, M.Step a l b → R a b) {a b : σ} {ls : List ι} (h : Run M a ls b) :
    R a b := by
  induction h with
  | nil a => exact hrefl a
  | cons hs _ ih => exact htrans _ _ _ (hstep _ _ _ hs) ih

/-- **Rows**: a row that every step keeps, or replaces in line with a transitive relation, is
kept or so replaced by a run. -/
theorem Run.row {α : Type} (get : σ → Option α) {R : α → α → Prop}
    (htrans : ∀ x y z, R x y → R y z → R x z)
    (hstep : ∀ s l t x, M.Step s l t → get s = some x → ∃ y, get t = some y ∧ (y = x ∨ R x y))
    {s t : σ} {ls : List ι} (h : Run M s ls t) {x : α} (hx : get s = some x) :
    ∃ y, get t = some y ∧ (y = x ∨ R x y) := by
  induction h generalizing x with
  | nil => exact ⟨x, hx, .inl rfl⟩
  | cons hs _ ih =>
    obtain ⟨y, hy, hxy⟩ := hstep _ _ _ _ hs hx
    obtain ⟨z, hz, hyz⟩ := ih hy
    refine ⟨z, hz, ?_⟩
    rcases hxy with rfl | hxy
    · exact hyz
    · rcases hyz with rfl | hyz
      · exact .inr hxy
      · exact .inr (htrans _ _ _ hxy hyz)

theorem Run.advance {α : Type} (obs : σ → α) {R : α → α → Prop}
    (htrans : ∀ x y z, R x y → R y z → R x z)
    (hstep : ∀ a l b, M.Step a l b → obs b = obs a ∨ R (obs a) (obs b)) {a b : σ} {ls : List ι}
    (h : Run M a ls b) : obs b = obs a ∨ R (obs a) (obs b) := by
  obtain ⟨y, hy, hrel⟩ := h.row (fun s => some (obs s)) htrans
    (fun s l t x hs hx => ⟨obs t, rfl, Option.some.inj hx ▸ hstep s l t hs⟩) rfl
  exact Option.some.inj hy ▸ hrel

/-- **Fencing**: if every step keeps an observation or moves it forward along a
strict order, two equal readings enclose no change. -/
theorem Run.unchanged {α : Type} (obs : σ → α) {R : α → α → Prop} (hirr : ∀ x, ¬ R x x)
    (htrans : ∀ x y z, R x y → R y z → R x z)
    (hstep : ∀ a l b, M.Step a l b → obs b = obs a ∨ R (obs a) (obs b)) {a b c : σ}
    {xs ys : List ι} (h1 : Run M a xs b) (h2 : Run M b ys c) (heq : obs c = obs a) :
    obs b = obs a := by
  rcases h1.advance obs htrans hstep with e | r
  · exact e
  · rcases h2.advance obs htrans hstep with e' | r'
    · exact absurd (heq ▸ e' ▸ r) (hirr _)
    · exact absurd (htrans _ _ _ r (heq ▸ r')) (hirr _)

/-- The machine whose steps all meet `P`. -/
def restrict (M : Machine σ ι) (P : σ → ι → Prop) : Machine σ ι where
  Init := M.Init
  Step a l b := M.Step a l b ∧ P a l

theorem Run.of_restrict {P : σ → ι → Prop} {a b : σ} {ls : List ι} (h : (M.restrict P).Run a ls b) :
    M.Run a ls b := by
  induction h with
  | nil => exact .nil _
  | cons hs _ ih => exact .cons hs.1 ih

theorem Reachable.of_restrict {P : σ → ι → Prop} {a : σ} (h : (M.restrict P).Reachable a) :
    M.Reachable a := by
  obtain ⟨a₀, ls, hinit, hrun⟩ := h
  exact ⟨a₀, ls, hinit, hrun.of_restrict⟩

end Machine

/-- A database that serves calls, each at a clock reading. -/
structure TimedStore (δ κ ω τ : Type) where
  init : δ
  now : κ → τ
  exec : κ → δ → ω × δ

structure World (δ τ : Type) where
  db : δ
  clock : τ

structure Served (κ ω : Type) where
  call : κ
  answer : ω

namespace TimedStore

variable {δ κ ω τ : Type} [Preorder τ] {S : TimedStore δ κ ω τ}

/-- Calls from anywhere, in any order, on a clock that does not go back. -/
def machine (S : TimedStore δ κ ω τ) : Machine (World δ τ) (Served κ ω) where
  Init w := w.db = S.init
  Step w l w' := w.clock ≤ S.now l.call ∧ S.exec l.call w.db = (l.answer, w'.db) ∧
    w'.clock = S.now l.call

theorem clock_le {w w' : World δ τ} {ls : List (Served κ ω)} (h : S.machine.Run w ls w') :
    w.clock ≤ w'.clock :=
  h.rel (R := fun a b => a.clock ≤ b.clock) (fun _ => le_rfl) (fun _ _ _ => le_trans)
    fun _ _ _ hs => hs.2.2 ▸ hs.1

theorem step_exec (S : TimedStore δ κ ω τ) {w : World δ τ} {c : κ} (h : w.clock ≤ S.now c) :
    S.machine.Step w ⟨c, (S.exec c w.db).1⟩ ⟨(S.exec c w.db).2, S.now c⟩ :=
  ⟨h, rfl, rfl⟩

/-- Serve the calls of a schedule one after the other. -/
def play (S : TimedStore δ κ ω τ) (w : World δ τ) : List κ → List (Served κ ω) × World δ τ
  | [] => ([], w)
  | c :: cs =>
    let r := S.exec c w.db
    let rest := S.play ⟨r.2, S.now c⟩ cs
    (⟨c, r.1⟩ :: rest.1, rest.2)

def Ordered (S : TimedStore δ κ ω τ) (t : τ) : List κ → Prop
  | [] => True
  | c :: cs => t ≤ S.now c ∧ S.Ordered (S.now c) cs

instance decidableOrdered [DecidableLE τ] (S : TimedStore δ κ ω τ) :
    (t : τ) → (cs : List κ) → Decidable (S.Ordered t cs)
  | _, [] => isTrue trivial
  | _, c :: cs => @instDecidableAnd _ _ _ (decidableOrdered S (S.now c) cs)

theorem run_play (S : TimedStore δ κ ω τ) {w : World δ τ} {cs : List κ}
    (h : S.Ordered w.clock cs) : S.machine.Run w (S.play w cs).1 (S.play w cs).2 := by
  induction cs generalizing w with
  | nil => exact .nil w
  | cons c cs ih => exact .cons (S.step_exec h.1) (ih h.2)

theorem reachable_play (S : TimedStore δ κ ω τ) {t : τ} {cs : List κ} (h : S.Ordered t cs) :
    S.machine.Reachable (S.play ⟨S.init, t⟩ cs).2 :=
  ⟨⟨S.init, t⟩, _, rfl, S.run_play h⟩

end TimedStore

end AgentPalace
