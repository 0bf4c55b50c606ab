import AgentPalace.Lib.Machine

/-!
# Programs of atomic statements

`Prog σ ℓ ε α` runs statements of `ℓ` one at a time on a shared state `σ` and
ends in a result or an error; what comes after a statement depends on the state
it found. `exec` says what a statement does to the state.

A program is run alone to its end (`run`) or stopped after some of its statements
(`Crashed`). `wpc` is the weakest precondition of a condition at every point where
it can be stopped and of a postcondition; `safe` is that of a guarantee of every
statement, when others may change the state between its statements by steps of `E`.
-/

namespace AgentPalace

inductive Prog (σ ℓ ε α : Type) where
  | ret (r : Except ε α)
  | act (stmt : ℓ) (next : σ → Prog σ ℓ ε α)

namespace Prog

variable {σ ℓ ε ε' α β : Type}

protected def bind (f : α → Prog σ ℓ ε β) : Prog σ ℓ ε α → Prog σ ℓ ε β
  | ret (.ok a) => f a
  | ret (.error e) => ret (.error e)
  | act stmt next => act stmt fun s => (next s).bind f

instance : Monad (Prog σ ℓ ε) where
  pure a := ret (.ok a)
  bind p f := p.bind f

/-- The result of a program, also when it is an error. -/
def attempt : Prog σ ℓ ε α → Prog σ ℓ ε' (Except ε α)
  | ret r => ret (.ok r)
  | act stmt next => act stmt fun s => attempt (next s)

instance : MonadExceptOf ε (Prog σ ℓ ε) where
  throw e := ret (.error e)
  tryCatch p h := do
    match ← attempt p with
    | .ok a => pure a
    | .error e => h e

private theorem id_map_prog (p : Prog σ ℓ ε α) : id <$> p = p := by
  induction p with
  | ret r => cases r <;> rfl
  | act stmt next ih => exact congrArg (act stmt) (funext ih)

private theorem bind_assoc_prog {γ : Type} (p : Prog σ ℓ ε α) (f : α → Prog σ ℓ ε β)
    (g : β → Prog σ ℓ ε γ) : p >>= f >>= g = p >>= fun a => f a >>= g := by
  induction p with
  | ret r => cases r <;> rfl
  | act stmt next ih => exact congrArg (act stmt) (funext ih)

instance : LawfulMonad (Prog σ ℓ ε) :=
  LawfulMonad.mk' _ id_map_prog (fun _ _ => rfl) bind_assoc_prog

/-- One statement, whose answer depends on the state it found. -/
def statement (stmt : ℓ) (answer : σ → Except ε α) : Prog σ ℓ ε α :=
  act stmt fun s => ret (answer s)

variable (exec : ℓ → σ → σ)

/-- The result of the program alone, and the state it leaves. -/
def run : Prog σ ℓ ε α → σ → Except ε α × σ
  | ret r, s => (r, s)
  | act stmt next, s => (next s).run (exec stmt s)

/-- The program was stopped after the statements `done`. -/
inductive Crashed : Prog σ ℓ ε α → σ → (done : List ℓ) → σ → Prop where
  | stop (p : Prog σ ℓ ε α) (s : σ) : Crashed p s [] s
  | act {stmt : ℓ} {next : σ → Prog σ ℓ ε α} {s s' : σ} {done : List ℓ}
      (h : Crashed (next s) (exec stmt s) done s') : Crashed (act stmt next) s (stmt :: done) s'

/-- The first `n` statements of the program, and the state they lead to. -/
def upTo : Nat → Prog σ ℓ ε α → σ → List ℓ × σ
  | 0, _, s => ([], s)
  | _, ret _, s => ([], s)
  | n + 1, act stmt next, s => (stmt :: ((next s).upTo n (exec stmt s)).1,
      ((next s).upTo n (exec stmt s)).2)

theorem crashed_upTo (n : Nat) (p : Prog σ ℓ ε α) (s : σ) :
    Crashed exec p s (p.upTo exec n s).1 (p.upTo exec n s).2 := by
  induction n generalizing p s with
  | zero => cases p <;> exact .stop _ s
  | succ n ih =>
    cases p with
    | ret r => exact .stop _ s
    | act stmt next => exact .act (ih (next s) (exec stmt s))

/-! ## Running alone -/

section
variable {exec}

/-- A program that ended well went through both of its halves. -/
theorem run_bind_ok {p : Prog σ ℓ ε β} {f : β → Prog σ ℓ ε α} {s s'' : σ} {a : α} :
    (p >>= f).run exec s = (.ok a, s'') ↔
      ∃ b s', p.run exec s = (.ok b, s') ∧ (f b).run exec s' = (.ok a, s'') := by
  induction p generalizing s with
  | ret r =>
    cases r with
    | ok b =>
      refine ⟨fun h => ⟨b, s, rfl, h⟩, ?_⟩
      rintro ⟨b', s', hp, hf⟩
      cases hp
      exact hf
    | error e =>
      refine ⟨fun h => (by cases congrArg Prod.fst h), ?_⟩
      rintro ⟨b', s', hp, -⟩
      cases congrArg Prod.fst hp
  | act stmt next ih => exact ih s

theorem run_attempt (p : Prog σ ℓ ε α) (s : σ) :
    (attempt p : Prog σ ℓ ε' (Except ε α)).run exec s =
      (.ok (p.run exec s).1, (p.run exec s).2) := by
  induction p generalizing s with
  | ret r => rfl
  | act stmt next ih => exact ih s _

theorem run_foldlM_ok {f : β → α → Prog σ ℓ ε β} {I : List α → β → σ → Prop}
    (hf : ∀ x xs b b' s s', I (x :: xs) b s → (f b x).run exec s = (.ok b', s') → I xs b' s')
    {xs : List α} {b b' : β} {s s' : σ} (hI : I xs b s)
    (h : (xs.foldlM f b).run exec s = (.ok b', s')) : I [] b' s' := by
  induction xs generalizing b s with
  | nil =>
    cases h
    exact hI
  | cons x xs ih =>
    rw [List.foldlM_cons] at h
    obtain ⟨b₁, s₁, hx, hxs⟩ := run_bind_ok.1 h
    exact ih (hf x xs b b₁ s s₁ hI hx) hxs

end

/-! ## Crash conditions -/

section
variable {γ : Type} (note : γ → ℓ → γ)

/-- `C` holds wherever the program can be stopped, and `Q` at its end. Both may look at a record of
the statements run so far, kept by `note`. -/
def wpc (C : γ → σ → Prop) (Q : Except ε α → γ → σ → Prop) :
    Prog σ ℓ ε α → γ → σ → Prop
  | ret r, g, s => C g s ∧ Q r g s
  | act stmt next, g, s => C g s ∧ (next s).wpc C Q (note g stmt) (exec stmt s)

variable {exec note} {C : γ → σ → Prop} {Q : Except ε α → γ → σ → Prop} {g : γ} {s : σ}

theorem wpc_bind {p : Prog σ ℓ ε β} {f : β → Prog σ ℓ ε α}
    (h : p.wpc exec note C (fun r g s => match r with
      | .ok b => (f b).wpc exec note C Q g s
      | .error e => Q (.error e) g s) g s) : (p >>= f).wpc exec note C Q g s := by
  induction p generalizing g s with
  | ret r =>
    cases r with
    | ok b => exact h.2
    | error e => exact h
  | act stmt next ih => exact ⟨h.1, ih s h.2⟩

theorem wpc_pure {a : α} (hC : C g s) (hQ : Q (.ok a) g s) :
    (pure a : Prog σ ℓ ε α).wpc exec note C Q g s := ⟨hC, hQ⟩

theorem wpc_throw {e : ε} (hC : C g s) (hQ : Q (.error e) g s) :
    (throw e : Prog σ ℓ ε α).wpc exec note C Q g s := ⟨hC, hQ⟩

theorem wpc_statement {stmt : ℓ} {answer : σ → Except ε α} (hC : C g s)
    (hC' : C (note g stmt) (exec stmt s)) (hQ : Q (answer s) (note g stmt) (exec stmt s)) :
    (statement stmt answer).wpc exec note C Q g s := ⟨hC, hC', hQ⟩

/-- One statement that answers, and what follows it. -/
theorem wpc_step {stmt : ℓ} {answer : σ → Except ε β} {f : β → Prog σ ℓ ε α} {b : β}
    (hanswer : answer s = .ok b) (hC : C g s)
    (h : (f b).wpc exec note C Q (note g stmt) (exec stmt s)) :
    (statement stmt answer >>= f).wpc exec note C Q g s := by
  refine ⟨hC, ?_⟩
  show ((ret (answer s)).bind f).wpc exec note C Q (note g stmt) (exec stmt s)
  rw [hanswer]
  exact h

theorem wpc_attempt {p : Prog σ ℓ ε α} {Q : Except ε' (Except ε α) → γ → σ → Prop}
    (h : p.wpc exec note C (fun r => Q (.ok r)) g s) : (attempt p).wpc exec note C Q g s := by
  induction p generalizing g s with
  | ret r => exact h
  | act stmt next ih => exact ⟨h.1, ih s h.2⟩

theorem wpc_mono {p : Prog σ ℓ ε α} {C' : γ → σ → Prop}
    {Q' : Except ε α → γ → σ → Prop} (h : p.wpc exec note C Q g s)
    (hC : ∀ g s, C g s → C' g s) (hQ : ∀ r g s, Q r g s → Q' r g s) :
    p.wpc exec note C' Q' g s := by
  induction p generalizing g s with
  | ret r => exact ⟨hC _ _ h.1, hQ _ _ _ h.2⟩
  | act stmt next ih => exact ⟨hC _ _ h.1, ih s h.2⟩

theorem wpc_now {p : Prog σ ℓ ε α} (h : p.wpc exec note C Q g s) : C g s := by
  cases p with
  | ret r => exact h.1
  | act stmt next => exact h.1

theorem wpc_forM {xs : List β} {f : β → Prog σ ℓ ε Unit} {I : List β → γ → σ → Prop}
    {Q : Except ε Unit → γ → σ → Prop}
    (hf : ∀ x xs g s, I (x :: xs) g s → (f x).wpc exec note C (fun r g s => match r with
      | .ok () => I xs g s
      | .error e => Q (.error e) g s) g s)
    (hend : ∀ g s, I [] g s → C g s ∧ Q (.ok ()) g s) (h : I xs g s) :
    (xs.forM f).wpc exec note C Q g s := by
  induction xs generalizing g s with
  | nil => exact hend g s h
  | cons x xs ih =>
    refine wpc_bind (wpc_mono (hf x xs g s h) (fun _ _ => id) fun r g s hr => ?_)
    cases r with
    | ok _ => exact ih hr
    | error e => exact hr

theorem wpc_crashed {p : Prog σ ℓ ε α} {done : List ℓ} {s' : σ}
    (h : p.wpc exec note C Q g s) (hcrash : Crashed exec p s done s') :
    C (done.foldl note g) s' := by
  induction hcrash generalizing g with
  | stop p s => exact wpc_now h
  | act _ ih => exact ih h.2

theorem wpc_run {p : Prog σ ℓ ε α} (h : p.wpc exec note C Q g s) :
    ∃ g, Q (p.run exec s).1 g (p.run exec s).2 := by
  induction p generalizing g s with
  | ret r => exact ⟨g, h.2⟩
  | act stmt next ih => exact ih s h.2

end

variable {exec} {s : σ}

/-! ## Interference -/

variable (exec) in
/-- Every statement that the program runs meets `A` where it runs, when others change the state by
`E` between its statements. -/
def safe (E : σ → σ → Prop) (A : ℓ → σ → Prop) : Prog σ ℓ ε α → σ → Prop
  | ret _, _ => True
  | act stmt next, s => ∀ s', E s s' → A stmt s' ∧ (next s').safe E A (exec stmt s')

theorem safe_before {E : σ → σ → Prop} {A : ℓ → σ → Prop} {p : Prog σ ℓ ε α} {s' : σ}
    (htrans : ∀ a b c, E a b → E b c → E a c) (h : p.safe exec E A s) (hs' : E s s') :
    p.safe exec E A s' := by
  cases p with
  | ret r => exact trivial
  | act stmt next => exact fun s'' h' => h s'' (htrans _ _ _ hs' h')

def ended : Prog σ ℓ ε α → Bool
  | ret _ => true
  | act _ _ => false

/-- Every statement the program can run is of the kind `P`. -/
def Only (P : ℓ → Prop) : Prog σ ℓ ε α → Prop
  | ret _ => True
  | act stmt next => P stmt ∧ ∀ s, (next s).Only P

section
variable {P : ℓ → Prop}

theorem only_bind {p : Prog σ ℓ ε β} {f : β → Prog σ ℓ ε α} (hp : p.Only P)
    (hf : ∀ b, (f b).Only P) : (p >>= f).Only P := by
  induction p with
  | ret r =>
    cases r with
    | ok b => exact hf b
    | error e => exact trivial
  | act stmt next ih => exact ⟨hp.1, fun s => ih s (hp.2 s)⟩

/-- A program of statements that change nothing changes nothing. -/
theorem only_run {p : Prog σ ℓ ε α} (h : p.Only P) (hsame : ∀ stmt s, P stmt → exec stmt s = s)
    (s : σ) : (p.run exec s).2 = s := by
  induction p generalizing s with
  | ret r => rfl
  | act stmt next ih =>
    rw [run, ih s (h.2 s), hsame stmt s h.1]

theorem only_foldlM {xs : List α} {f : β → α → Prog σ ℓ ε β} (h : ∀ b x, (f b x).Only P) (b : β) :
    (xs.foldlM f b).Only P := by
  induction xs generalizing b with
  | nil => exact trivial
  | cons x xs ih =>
    rw [List.foldlM_cons]
    exact only_bind (h b x) ih

end

end Prog

end AgentPalace
