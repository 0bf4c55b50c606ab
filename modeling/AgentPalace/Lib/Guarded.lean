import AgentPalace.Lib.Machine

/-!
# Programs under a lock

A `Co` is a program of atomic operations, each with its own type of answers.
Processes run any number of programs at once; each process has one lock and a
state that the lock protects (`Pool`). Who holds the lock of a process may change
its state, the others may only read it.

`Co.ok` types a program against the lock: it holds the invariant when it lets
the lock go, and before each operation under the lock the state allows it. Where
every program is typed, every operation of every run is allowed
(`Guarded.allowed`).
-/

namespace AgentPalace

inductive Co (Op : Type) (Ans : Op → Type) (α : Type) where
  | ret (a : α)
  | act (op : Op) (next : Ans op → Co Op Ans α)

/-- What an operation is to the lock. A `free` one does not change what is protected. -/
inductive LockRole where
  | acquire | release | free | locked
  deriving DecidableEq

namespace Co

variable {Op : Type} {Ans : Op → Type} {α β S : Type}

protected def bind (f : α → Co Op Ans β) : Co Op Ans α → Co Op Ans β
  | ret a => f a
  | act op next => act op fun a => (next a).bind f

instance : Monad (Co Op Ans) where
  pure := ret
  bind p f := p.bind f

def perform (op : Op) : Co Op Ans (Ans op) := act op ret

/-! ## Typing -/

/-- What a process guards: the part its operations have, their effect on the protected state, when
they are allowed, and what holds while nobody has the lock. -/
structure Guard (Op : Type) (Ans : Op → Type) (S : Type) where
  role : Op → LockRole
  effect : S → (op : Op) → Ans op → S → Prop
  allowed : S → Op → Prop
  inv : S → Prop

variable (G : Guard Op Ans S) {Q Q' : Option S → α → Prop}

/-- The program is right from a point where it holds the lock, and the state is the one given, or
does not hold it. `Q` is what is known at its end. -/
def ok (Q : Option S → α → Prop) : Co Op Ans α → Option S → Prop
  | ret a, held => Q held a
  | act op next, none =>
    match G.role op with
    | .free => ∀ a, (next a).ok Q none
    | .acquire => ∀ a s s', G.inv s → G.effect s op a s' → (next a).ok Q (some s')
    | _ => False
  | act op next, some s =>
    match G.role op with
    | .acquire => False
    | .release => G.allowed s op ∧ ∀ a s', G.effect s op a s' → G.inv s' ∧ (next a).ok Q none
    | _ => G.allowed s op ∧ ∀ a s', G.effect s op a s' → (next a).ok Q (some s')

variable {G}

/-- An operation may do what it may, whatever follows it. -/
theorem ok_act {op : Op} {next : Ans op → Co Op Ans α} {next' : Ans op → Co Op Ans β}
    {R : Option S → β → Prop} {held : Option S} (h : (act op next).ok G Q held)
    (hnext : ∀ a held, (next a).ok G Q held → (next' a).ok G R held) :
    (act op next').ok G R held := by
  cases held with
  | none =>
    unfold ok at h ⊢
    split at h
    · exact fun a => hnext a _ (h a)
    · exact fun a s s' hs heffect => hnext a _ (h a s s' hs heffect)
    · exact h.elim
  | some s =>
    unfold ok at h ⊢
    split at h
    · exact h.elim
    · exact ⟨h.1, fun a s' hs' => ⟨(h.2 a s' hs').1, hnext a _ (h.2 a s' hs').2⟩⟩
    · exact ⟨h.1, fun a s' hs' => hnext a _ (h.2 a s' hs')⟩

theorem ok_bind {f : α → Co Op Ans β} {R : Option S → β → Prop} {p : Co Op Ans α}
    {held : Option S} (h : p.ok G (fun held a => (f a).ok G R held) held) :
    (p >>= f).ok G R held := by
  induction p generalizing held with
  | ret a => exact h
  | act op next ih => exact ok_act h fun a _ => ih a

theorem ok_mono {p : Co Op Ans α} {held : Option S} (h : p.ok G Q held)
    (hQ : ∀ held a, Q held a → Q' held a) : p.ok G Q' held := by
  induction p generalizing held with
  | ret a => exact hQ _ _ h
  | act op next ih => exact ok_act h fun a _ => ih a

/-! ### Rules for one operation and what follows it -/

variable {R : Option S → β → Prop} {op : Op} {f : Ans op → Co Op Ans β} {s : S}

theorem ok_free (hrole : G.role op = .free) (h : ∀ a, (f a).ok G R none) :
    (perform op >>= f).ok G R none := by
  show (act op f).ok G R none
  unfold ok
  rw [hrole]
  exact h

theorem ok_acquire (hrole : G.role op = .acquire)
    (h : ∀ a s s', G.inv s → G.effect s op a s' → (f a).ok G R (some s')) :
    (perform op >>= f).ok G R none := by
  show (act op f).ok G R none
  unfold ok
  rw [hrole]
  exact h

theorem ok_release (hrole : G.role op = .release) (hallowed : G.allowed s op)
    (h : ∀ a s', G.effect s op a s' → G.inv s' ∧ (f a).ok G R none) :
    (perform op >>= f).ok G R (some s) := by
  show (act op f).ok G R (some s)
  unfold ok
  rw [hrole]
  exact ⟨hallowed, h⟩

theorem ok_held (hrole : G.role op = .free ∨ G.role op = .locked) (hallowed : G.allowed s op)
    (h : ∀ a s', G.effect s op a s' → (f a).ok G R (some s')) :
    (perform op >>= f).ok G R (some s) := by
  show (act op f).ok G R (some s)
  unfold ok
  rcases hrole with hrole | hrole <;> (rw [hrole]; exact ⟨hallowed, h⟩)

end Co

/-! ## Pools of processes -/

/-- A program that runs for a call of a process. -/
structure Task (Op : Type) (Ans : Op → Type) (P C : Type) where
  proc : P
  call : C
  prog : Co Op Ans Unit

/-- Processes with their protected states and locks, what they share, and the running programs. -/
structure Pool (Op : Type) (Ans : Op → Type) (P C S H : Type) where
  state : P → S
  shared : H
  holder : P → Option Nat
  task : Nat → Option (Task Op Ans P C)

inductive PoolEvent (Op : Type) (Ans : Op → Type) (P C : Type) where
  | start (i : Nat) (p : P) (c : C)
  | act (i : Nat) (p : P) (c : C) (op : Op) (a : Ans op)
  | finish (i : Nat)

/-- What the processes run, and what an answered operation does. An answer is one that the state
admits. -/
structure Service (Op : Type) (Ans : Op → Type) (P C S H : Type) where
  role : Op → LockRole
  program : P → C → Co Op Ans Unit
  admits : P → S → H → (op : Op) → Ans op → Prop
  exec : P → C → S → H → (op : Op) → Ans op → S × H
  init : S → Prop
  initShared : H → Prop

namespace Service

variable {Op : Type} {Ans : Op → Type} {P C S H : Type} [DecidableEq P]
  (V : Service Op Ans P C S H)

/-- The holder of a lock after an operation of a task. -/
def holderAfter (i : Nat) (op : Op) (holder : Option Nat) : Option Nat :=
  match V.role op with
  | .acquire => some i
  | .release => none
  | _ => holder

inductive Step : Pool Op Ans P C S H → PoolEvent Op Ans P C → Pool Op Ans P C S H → Prop where
  | start {w : Pool Op Ans P C S H} {i : Nat} {p : P} {c : C} (h : w.task i = none) :
      Step w (.start i p c)
        { w with task := Function.update w.task i (some ⟨p, c, V.program p c⟩) }
  | act {w : Pool Op Ans P C S H} {i : Nat} {p : P} {c : C} {op : Op}
      {next : Ans op → Co Op Ans Unit} {a : Ans op} (h : w.task i = some ⟨p, c, .act op next⟩)
      (hlock : V.role op = .acquire → w.holder p = none)
      (ha : V.admits p (w.state p) w.shared op a) :
      Step w (.act i p c op a)
        { state := Function.update w.state p (V.exec p c (w.state p) w.shared op a).1
          shared := (V.exec p c (w.state p) w.shared op a).2
          holder := Function.update w.holder p (V.holderAfter i op (w.holder p))
          task := Function.update w.task i (some ⟨p, c, next a⟩) }
  | finish {w : Pool Op Ans P C S H} {i : Nat} {p : P} {c : C}
      (h : w.task i = some ⟨p, c, .ret ()⟩) :
      Step w (.finish i) { w with task := Function.update w.task i none }

/-- Any calls of any processes, one operation after the other. -/
def machine : Machine (Pool Op Ans P C S H) (PoolEvent Op Ans P C) where
  Init w := (∀ p, V.init (w.state p)) ∧ V.initShared w.shared ∧ (∀ p, w.holder p = none) ∧
    ∀ i, w.task i = none
  Step := V.Step

/-! ### Every operation is allowed -/

variable (permits : C → S → Op → Prop) (inv : S → Prop)

def guard (p : P) (c : C) : Co.Guard Op Ans S where
  role := V.role
  effect s op a s' := ∃ h, V.admits p s h op a ∧ s' = (V.exec p c s h op a).1
  allowed := permits c
  inv := inv

/-- The programs are typed, and a free operation does not change what is protected. -/
structure Typed : Prop where
  init : ∀ s, V.init s → inv s
  program : ∀ p c, (V.program p c).ok (V.guard permits inv p c) (fun held _ => held = none) none
  frame : ∀ p c s h op a, V.role op = .free → (V.exec p c s h op a).1 = s

/-- What a task knows of the protected state of its process. -/
def heldBy (i : Nat) (holder : Option Nat) (s : S) : Option S :=
  if holder = some i then some s else none

theorem heldBy_self {i : Nat} {s : S} : heldBy i (some i) s = some s := if_pos rfl

theorem heldBy_of_ne {i : Nat} {holder : Option Nat} {s : S} (h : holder ≠ some i) :
    heldBy i holder s = none := if_neg h

structure Guarded (w : Pool Op Ans P C S H) : Prop where
  free : ∀ p, w.holder p = none → inv (w.state p)
  held : ∀ p i, w.holder p = some i → ∃ c prog, w.task i = some ⟨p, c, prog⟩
  task : ∀ i p c prog, w.task i = some ⟨p, c, prog⟩ →
    prog.ok (V.guard permits inv p c) (fun held _ => held = none) (heldBy i (w.holder p) (w.state p))

variable {V permits inv} {w w' : Pool Op Ans P C S H}

/-- **Every operation under a lock is allowed**, and only the holder of a lock performs one. -/
theorem Guarded.allowed (h : Guarded V permits inv w) {i : Nat} {p : P} {c : C} {op : Op}
    {a : Ans op} (hstep : V.Step w (.act i p c op a) w')
    (hrole : V.role op = .locked ∨ V.role op = .release) :
    w.holder p = some i ∧ permits c (w.state p) op := by
  cases hstep with
  | act htask hlock ha =>
    have hok := h.task i p c _ htask
    have hrole' : (V.guard permits inv p c).role op = V.role op := rfl
    by_cases hholder : w.holder p = some i
    · rw [hholder, heldBy_self] at hok
      refine ⟨hholder, ?_⟩
      unfold Co.ok at hok
      rw [hrole'] at hok
      rcases hrole with hrole | hrole <;> (rw [hrole] at hok; exact hok.1)
    · rw [heldBy_of_ne hholder] at hok
      unfold Co.ok at hok
      rw [hrole'] at hok
      rcases hrole with hrole | hrole <;> (rw [hrole] at hok; exact hok.elim)

omit [DecidableEq P] in
theorem Guarded.next (hV : Typed V permits inv) (h : Guarded V permits inv w) {i : Nat}
    {p : P} {c : C} {op : Op} {a : Ans op} {next : Ans op → Co Op Ans Unit}
    (htask : w.task i = some ⟨p, c, .act op next⟩)
    (hlock : V.role op = .acquire → w.holder p = none)
    (ha : V.admits p (w.state p) w.shared op a) :
    (V.holderAfter i op (w.holder p) = none →
        inv (V.exec p c (w.state p) w.shared op a).1) ∧
      (next a).ok (V.guard permits inv p c) (fun held _ => held = none)
        (heldBy i (V.holderAfter i op (w.holder p)) (V.exec p c (w.state p) w.shared op a).1) ∧
      ∀ j, j ≠ i → (V.holderAfter i op (w.holder p) = some j ↔ w.holder p = some j) ∧
        (w.holder p = some j → (V.exec p c (w.state p) w.shared op a).1 = w.state p) := by
  have hok := h.task i p c _ htask
  have hrole' : (V.guard permits inv p c).role op = V.role op := rfl
  have heffect : (V.guard permits inv p c).effect (w.state p) op a
      (V.exec p c (w.state p) w.shared op a).1 := ⟨w.shared, ha, rfl⟩
  by_cases hholder : w.holder p = some i
  · rw [hholder, heldBy_self] at hok
    unfold Co.ok at hok
    rw [hrole'] at hok
    have hother : ∀ j, j ≠ i → w.holder p ≠ some j := fun j hj e =>
      hj (Option.some.inj (e.symm.trans hholder))
    cases hrole : V.role op with
    | acquire => rw [hrole] at hok; exact hok.elim
    | release =>
      rw [hrole] at hok
      simp only [holderAfter, hrole]
      exact ⟨fun _ => (hok.2 a _ heffect).1, by simpa [heldBy] using (hok.2 a _ heffect).2,
        fun j hj => ⟨by simp [hother j hj], fun e => absurd e (hother j hj)⟩⟩
    | free | locked =>
      rw [hrole] at hok
      simp only [holderAfter, hrole, hholder]
      exact ⟨fun hnone => (by cases hnone), by simpa [heldBy] using hok.2 a _ heffect,
        fun j hj => ⟨trivial, fun e => absurd (hholder.trans e) (hother j hj)⟩⟩
  · rw [heldBy_of_ne hholder] at hok
    unfold Co.ok at hok
    rw [hrole'] at hok
    cases hrole : V.role op with
    | acquire =>
      rw [hrole] at hok
      have hfree := hlock hrole
      simp only [holderAfter, hrole, hfree]
      exact ⟨fun hnone => (by cases hnone),
        by simpa [heldBy] using hok a _ _ (h.free p hfree) heffect,
        fun j hj => ⟨by simp [Ne.symm hj], fun e => (by cases e)⟩⟩
    | release => rw [hrole] at hok; exact hok.elim
    | free =>
      rw [hrole] at hok
      have hframe := hV.frame p c (w.state p) w.shared op a hrole
      simp only [holderAfter, hrole, hframe]
      exact ⟨h.free p, by simpa [heldBy, hholder] using hok a, fun j _ => ⟨trivial, fun _ => trivial⟩⟩
    | locked => rw [hrole] at hok; exact hok.elim

theorem Guarded.step (hV : Typed V permits inv) (h : Guarded V permits inv w)
    {e : PoolEvent Op Ans P C} (hstep : V.Step w e w') :
    Guarded V permits inv w' := by
  cases hstep with
  | @start i p c hidle =>
    have hholder : ∀ q, w.holder q ≠ some i := fun q hq => by
      obtain ⟨_, _, htask⟩ := h.held q i hq
      rw [hidle] at htask
      cases htask
    refine ⟨h.free, fun q j hj => ?_, fun j q d prog hj => ?_⟩
    · have hne : j ≠ i := fun e => hholder q (e ▸ hj)
      dsimp only
      rw [Function.update_of_ne hne]
      exact h.held q j hj
    · dsimp only at hj ⊢
      by_cases hji : j = i
      · subst hji
        rw [Function.update_self, Option.some.injEq] at hj
        cases hj
        rw [heldBy_of_ne (hholder p)]
        exact hV.program p c
      · rw [Function.update_of_ne hji] at hj
        exact h.task j q d prog hj
  | @act i p c op next a htask hlock ha =>
    obtain ⟨hinv, hok, hother⟩ := h.next hV htask hlock ha
    refine ⟨fun q hq => ?_, fun q j hj => ?_, fun j q d prog hj => ?_⟩
    · dsimp only at hq ⊢
      by_cases hqp : q = p
      · subst hqp
        rw [Function.update_self] at hq ⊢
        exact hinv hq
      · rw [Function.update_of_ne hqp] at hq ⊢
        exact h.free q hq
    · dsimp only at hj ⊢
      by_cases hji : j = i
      · subst hji
        by_cases hqp : q = p
        · subst hqp
          exact ⟨c, next a, Function.update_self _ _ _⟩
        · rw [Function.update_of_ne hqp] at hj
          obtain ⟨_, _, hj⟩ := h.held q j hj
          rw [htask] at hj
          cases hj
          exact absurd rfl hqp
      · rw [Function.update_of_ne hji]
        by_cases hqp : q = p
        · subst hqp
          rw [Function.update_self] at hj
          exact h.held q j (((hother j hji).1).1 hj)
        · rw [Function.update_of_ne hqp] at hj
          exact h.held q j hj
    · dsimp only at hj ⊢
      by_cases hji : j = i
      · subst hji
        rw [Function.update_self, Option.some.injEq] at hj
        cases hj
        rw [Function.update_self, Function.update_self]
        exact hok
      · rw [Function.update_of_ne hji] at hj
        have hprog := h.task j q d prog hj
        by_cases hqp : q = p
        · subst hqp
          rw [Function.update_self, Function.update_self]
          by_cases hholder : w.holder q = some j
          · rw [((hother j hji).1).2 hholder, (hother j hji).2 hholder]
            rwa [hholder] at hprog
          · rw [heldBy_of_ne hholder] at hprog
            rwa [heldBy_of_ne fun hnew => hholder (((hother j hji).1).1 hnew)]
        · rw [Function.update_of_ne hqp, Function.update_of_ne hqp]
          exact hprog
  | @finish i p c htask =>
    have hholder : ∀ q, w.holder q ≠ some i := fun q hq => by
      obtain ⟨_, _, hrun⟩ := h.held q i hq
      rw [htask] at hrun
      cases hrun
      have hok := h.task i p c _ htask
      rw [hq, heldBy_self] at hok
      cases hok
    refine ⟨h.free, fun q j hj => ?_, fun j q d prog hj => ?_⟩
    · have hne : j ≠ i := fun e => hholder q (e ▸ hj)
      dsimp only
      rw [Function.update_of_ne hne]
      exact h.held q j hj
    · dsimp only at hj
      by_cases hji : j = i
      · subst hji
        rw [Function.update_self] at hj
        cases hj
      · rw [Function.update_of_ne hji] at hj
        exact h.task j q d prog hj

theorem guarded_reachable (hV : Typed V permits inv)
    (h : V.machine.Reachable w) : Guarded V permits inv w := by
  refine h.invariant (I := Guarded V permits inv) (fun a hinit => ?_) fun a e b _ ha hstep => ?_
  · obtain ⟨hstate, _, hholder, htask⟩ := hinit
    refine ⟨fun p _ => hV.init _ (hstate p), fun p i hi => ?_, fun i p c prog hi => ?_⟩
    · rw [hholder p] at hi
      cases hi
    · rw [htask i] at hi
      cases hi
  · exact ha.step hV hstep

/-! ### Runs that can be computed -/

variable (V)

structure Oracle where
  answer : P → S → H → (op : Op) → Ans op
  admitted : ∀ p s h op, V.admits p s h op (answer p s h op)

/-- A call, the next operation of a task with the answer of an oracle, or the end of a task. -/
inductive Move where
  | start (i : Nat) (p : P) (c : C)
  | act (i : Nat) (oracle : V.Oracle)
  | finish (i : Nat)

/-- The step that a move makes, if it can be made. -/
def move (w : Pool Op Ans P C S H) : V.Move → Option (PoolEvent Op Ans P C × Pool Op Ans P C S H)
  | .start i p c =>
    match w.task i with
    | none =>
      some (.start i p c,
        { w with task := Function.update w.task i (some ⟨p, c, V.program p c⟩) })
    | some _ => none
  | .act i oracle =>
    match w.task i with
    | some ⟨p, c, .act op next⟩ =>
      if V.role op = .acquire ∧ w.holder p ≠ none then none
      else
        let a := oracle.answer p (w.state p) w.shared op
        some (.act i p c op a,
          { state := Function.update w.state p (V.exec p c (w.state p) w.shared op a).1
            shared := (V.exec p c (w.state p) w.shared op a).2
            holder := Function.update w.holder p (V.holderAfter i op (w.holder p))
            task := Function.update w.task i (some ⟨p, c, next a⟩) })
    | _ => none
  | .finish i =>
    match w.task i with
    | some ⟨_, _, .ret ()⟩ => some (.finish i, { w with task := Function.update w.task i none })
    | _ => none

def play (w : Pool Op Ans P C S H) :
    List V.Move → Option (List (PoolEvent Op Ans P C) × Pool Op Ans P C S H)
  | [] => some ([], w)
  | m :: ms =>
    match V.move w m with
    | none => none
    | some (e, w') => (play w' ms).map fun r => (e :: r.1, r.2)

variable {V}

theorem move_step {m : V.Move} {e : PoolEvent Op Ans P C} (h : V.move w m = some (e, w')) :
    V.Step w e w' := by
  cases m with
  | start i p c =>
    dsimp only [move] at h
    split at h
    · rename_i hidle
      cases h
      exact .start hidle
    · cases h
  | act i oracle =>
    dsimp only [move] at h
    split at h
    · rename_i htask
      split at h
      · cases h
      · rename_i hlock
        cases h
        refine .act htask (fun hrole => ?_) (oracle.admitted _ _ _ _)
        by_contra hholder
        exact hlock ⟨hrole, hholder⟩
    · cases h
  | finish i =>
    dsimp only [move] at h
    split at h
    · rename_i htask
      cases h
      exact .finish htask
    · cases h

theorem play_run {ms : List V.Move} {es : List (PoolEvent Op Ans P C)}
    (h : V.play w ms = some (es, w')) : V.machine.Run w es w' := by
  induction ms generalizing w es with
  | nil =>
    cases h
    exact .nil _
  | cons m ms ih =>
    unfold play at h
    split at h
    · cases h
    · rename_i hmove
      obtain ⟨⟨rest, _⟩, hrest, hcons⟩ := Option.map_eq_some_iff.1 h
      cases hcons
      exact .cons (move_step hmove) (ih hrest)

/-- The moves can be made, every step meets the condition, and `Q` holds at the end. -/
@[reducible] def Plays (V : Service Op Ans P C S H)
    (cond : Pool Op Ans P C S H → PoolEvent Op Ans P C → Prop) (Q : Pool Op Ans P C S H → Prop) :
    List V.Move → Pool Op Ans P C S H → Prop
  | [], w => Q w
  | m :: ms, w => ∃ e w', V.move w m = some (e, w') ∧ cond w e ∧ Plays V cond Q ms w'

theorem Plays.reachable {cond : Pool Op Ans P C S H → PoolEvent Op Ans P C → Prop}
    {Q : Pool Op Ans P C S H → Prop} {ms : List V.Move} (h : V.Plays cond Q ms w)
    (hreach : (V.machine.restrict cond).Reachable w) :
    ∃ w', (V.machine.restrict cond).Reachable w' ∧ Q w' := by
  induction ms generalizing w with
  | nil => exact ⟨w, hreach, h⟩
  | cons m ms ih =>
    obtain ⟨e, w', hmove, hcond, hrest⟩ := h
    exact ih hrest (hreach.step ⟨move_step hmove, hcond⟩)

end Service

end AgentPalace
