/-!
# Transactions

A transaction body runs against a `Session`: the committed database and the
working copy its statements read and write. `commit` publishes the working
copy; leaving the body, by a result or by an error, drops whatever was not
committed (`Tx.run`).

`Tx.wp m Q s` says that `m` from session `s` ends in a result and a session
that satisfy `Q`. The rules peel a body statement by statement. A postcondition
that tolerates the errors raised before the commit (`Rejects E Q db`) discharges
the error branches of reads and writes, so a proof follows the success path.

An operation outside a transaction commits each of its statements. Such a body
is `Autocommit`, and runs step by step: `run_ok` and `run_error` peel its binds.
-/

namespace AgentPalace

universe u

structure Session (δ : Type u) where
  committed : δ
  working : δ

/-- A transaction body over databases `δ`, errors `ε` and results `α`. -/
def Tx (δ ε α : Type) : Type := Session δ → Except ε α × Session δ

namespace Tx

variable {δ ε α β γ : Type}

instance : Monad (Tx δ ε) where
  pure a := fun s => (.ok a, s)
  bind m f := fun s =>
    match m s with
    | (.ok a, s') => f a s'
    | (.error e, s') => (.error e, s')

instance : MonadExceptOf ε (Tx δ ε) where
  throw e := fun s => (.error e, s)
  tryCatch m h := fun s =>
    match m s with
    | (.ok a, s') => (.ok a, s')
    | (.error e, s') => h e s'

/-- A `SELECT`. -/
def query (f : δ → α) : Tx δ ε α := fun s => (.ok (f s.working), s)

/-- A statement that writes the working copy, or fails and leaves it. -/
def exec (f : δ → Except ε δ) : Tx δ ε Unit := fun s =>
  match f s.working with
  | .ok d => (.ok (), { s with working := d })
  | .error e => (.error e, s)

/-- A computation that does not touch the database. -/
def lift (e : Except ε α) : Tx δ ε α := fun s => (e, s)

/-- `COMMIT`. -/
def commit : Tx δ ε Unit := fun s => (.ok (), { s with committed := s.working })

/-- Run a body in a fresh transaction; what it did not commit is rolled back. -/
def run (m : Tx δ ε α) (db : δ) : Except ε α × δ :=
  ((m ⟨db, db⟩).1, (m ⟨db, db⟩).2.committed)

/-- `m` from `s` ends in a result and a session satisfying `Q`. -/
def wp (m : Tx δ ε α) (Q : Except ε α → Session δ → Prop) (s : Session δ) : Prop :=
  Q (m s).1 (m s).2

/-- `Q` holds of every error in `E` while `db` is still what is committed. -/
def Rejects (E : ε → Prop) (Q : Except ε α → Session δ → Prop) (db : δ) : Prop :=
  ∀ e s, E e → s.committed = db → Q (.error e) s

variable {Q : Except ε α → Session δ → Prop} {E : ε → Prop} {db w : δ}

/-- The outcome of a run is a postcondition on what is committed at its end. -/
theorem run_of_wp {m : Tx δ ε α} {P : Except ε α → δ → Prop}
    (h : wp m (fun r s => P r s.committed) ⟨db, db⟩) : P (m.run db).1 (m.run db).2 := h

theorem wp_pure {a : α} {s : Session δ} (h : Q (.ok a) s) : wp (pure a) Q s := h

theorem wp_bind {m : Tx δ ε β} {f : β → Tx δ ε α} {s : Session δ}
    (h : wp m (fun r s' => match r with
      | .ok b => wp (f b) Q s'
      | .error e => Q (.error e) s') s) : wp (m >>= f) Q s := by
  unfold wp at *
  simp only [bind]
  rcases hm : m s with ⟨r, s'⟩
  rw [hm] at h
  cases r with
  | ok b => exact h
  | error e => exact h

theorem wp_assoc {m : Tx δ ε β} {g : β → Tx δ ε γ} {f : γ → Tx δ ε α} {s : Session δ}
    (h : wp (m >>= fun b => g b >>= f) Q s) : wp ((m >>= g) >>= f) Q s := by
  unfold wp at *
  simp only [bind] at *
  rcases hm : m s with ⟨r, s'⟩
  rw [hm] at h
  cases r with
  | ok b => exact h
  | error e => exact h

theorem wp_map {g : β → α} {m : Tx δ ε β} {s : Session δ}
    (h : wp m (fun r s' => Q (r.map g) s') s) : wp (g <$> m) Q s := by
  unfold wp at *
  simp only [Functor.map]
  rcases hm : m s with ⟨r, s'⟩
  rw [hm] at h
  cases r with
  | ok b => exact h
  | error e => exact h

theorem run_lift {e : Except ε β} {b : β} (he : e = .ok b) (f : β → Tx δ ε α) (db : δ) :
    (lift e >>= f).run db = (f b).run db := by
  subst he
  rfl

theorem run_lift_error {e : Except ε β} {x : ε} (he : e = .error x) (f : β → Tx δ ε α) (db : δ) :
    (lift e >>= f).run db = (.error x, db) := by
  subst he
  rfl

theorem run_query (g : δ → β) (f : β → Tx δ ε α) (db : δ) :
    (query g >>= f).run db = (f (g db)).run db := rfl

theorem run_exec_commit {g : δ → Except ε δ} {d : δ} (hg : g db = .ok d)
    (f : Unit → Tx δ ε α) {a : α} (hf : ∀ s, f () s = (.ok a, s)) :
    (exec g >>= fun _ => commit >>= f).run db = (.ok a, d) := by
  simp only [run, bind, exec, hg, commit, hf]

theorem run_exec_error {g : δ → Except ε δ} {x : ε} (hg : g db = .error x) (f : Unit → Tx δ ε α) :
    (exec g >>= f).run db = (.error x, db) := by
  simp only [run, bind, exec, hg]

theorem run_map (g : β → α) (m : Tx δ ε β) (db : δ) :
    (g <$> m).run db = ((m.run db).1.map g, (m.run db).2) := by
  simp only [run, Functor.map]
  rcases m ⟨db, db⟩ with ⟨r, s⟩
  cases r <;> rfl

theorem wp_throw {e : ε} {f : β → Tx δ ε α} {s : Session δ} (h : Q (.error e) s) :
    wp (throw e >>= f) Q s := h

theorem wp_ite {c : Prop} [Decidable c] {m n : Tx δ ε α} {s : Session δ}
    (ht : c → wp m Q s) (hf : ¬ c → wp n Q s) : wp (if c then m else n) Q s := by
  split
  · exact ht ‹_›
  · exact hf ‹_›

theorem wp_guard_of {c : Prop} [Decidable c] {e : ε} {n : Unit → Tx δ ε α} (hQ : Rejects E Q db)
    (hf : ¬ c → wp (n ()) Q ⟨db, w⟩) (he : E e) :
    wp (if c then throw e >>= n else n ()) Q ⟨db, w⟩ :=
  wp_ite (fun _ => hQ e _ he rfl) hf

theorem wp_lift_of {e : Except ε β} {f : β → Tx δ ε α} (hQ : Rejects E Q db)
    (h : ∀ b, e = .ok b → wp (f b) Q ⟨db, w⟩) (he : ∀ x, e = .error x → E x) :
    wp (lift e >>= f) Q ⟨db, w⟩ := by
  refine wp_bind ?_
  cases e with
  | ok b => exact h b rfl
  | error x => exact hQ x _ (he x rfl) rfl

/-! Where any error may be raised before the commit. -/

theorem wp_guard {c : Prop} [Decidable c] {e : ε} {n : Unit → Tx δ ε α}
    (hQ : Rejects (fun _ => True) Q db) (hf : ¬ c → wp (n ()) Q ⟨db, w⟩) :
    wp (if c then throw e >>= n else n ()) Q ⟨db, w⟩ :=
  wp_guard_of hQ hf trivial

theorem wp_lift {e : Except ε β} {f : β → Tx δ ε α} (hQ : Rejects (fun _ => True) Q db)
    (h : ∀ b, e = .ok b → wp (f b) Q ⟨db, w⟩) : wp (lift e >>= f) Q ⟨db, w⟩ :=
  wp_lift_of hQ h fun _ _ => trivial

theorem wp_lift_ok {b : β} {f : β → Tx δ ε α} {s : Session δ} (h : wp (f b) Q s) :
    wp (lift (.ok b) >>= f) Q s := h

theorem wp_lift_eq {e : Except ε β} {b : β} {f : β → Tx δ ε α} {s : Session δ} (he : e = .ok b)
    (h : wp (f b) Q s) : wp (lift e >>= f) Q s :=
  he ▸ h

theorem wp_query {g : δ → β} {f : β → Tx δ ε α} (h : wp (f (g w)) Q ⟨db, w⟩) :
    wp (query g >>= f) Q ⟨db, w⟩ := h

theorem wp_exec {g : δ → Except ε δ} {f : Unit → Tx δ ε α} (hQ : Rejects E Q db)
    (h : ∀ w', g w = .ok w' → wp (f ()) Q ⟨db, w'⟩) (he : ∀ x, g w = .error x → E x) :
    wp (exec g >>= f) Q ⟨db, w⟩ := by
  refine wp_bind ?_
  unfold wp exec
  simp only
  cases hg : g w with
  | ok w' => exact h w' hg
  | error x => exact hQ x _ (he x hg) rfl

theorem wp_write {g : δ → δ} {f : Unit → Tx δ ε α} (h : wp (f ()) Q ⟨db, g w⟩) :
    wp ((exec fun d => .ok (g d)) >>= f) Q ⟨db, w⟩ := h

theorem wp_commit {f : Unit → Tx δ ε α} (h : wp (f ()) Q ⟨w, w⟩) :
    wp (commit >>= f) Q ⟨db, w⟩ := h

/-- A body that only reads: it leaves the session as it found it. -/
def ReadOnly (m : Tx δ ε β) (P : δ → β → Prop) : Prop :=
  ∀ s, (m s).2 = s ∧ ∀ b, (m s).1 = .ok b → P s.working b

theorem readOnly_pure {a : β} {P : δ → β → Prop} (h : ∀ d, P d a) :
    ReadOnly (pure a : Tx δ ε β) P :=
  fun s => ⟨rfl, fun b hb => by cases hb; exact h s.working⟩

theorem ReadOnly.bind {m : Tx δ ε β} {f : β → Tx δ ε γ} {P : δ → β → Prop} {R : δ → γ → Prop}
    (hm : ReadOnly m P) (hf : ∀ b, ReadOnly (f b) fun d c => P d b → R d c) :
    ReadOnly (m >>= f) R := by
  intro s
  simp only [Bind.bind]
  rcases hr : m s with ⟨r, s'⟩
  obtain ⟨hs, hb⟩ := hm s
  rw [hr] at hs hb
  obtain rfl : s' = s := hs
  cases r with
  | ok b => exact ⟨(hf b s').1, fun c hc => (hf b s').2 c hc (hb b rfl)⟩
  | error e => exact ⟨rfl, nofun⟩

theorem readOnly_optionForM {o : Option β} {f : β → Tx δ ε Unit} {P : β → δ → Prop}
    (h : ∀ b, ReadOnly (f b) fun d _ => P b d) :
    ReadOnly (o.forM f) fun d _ => ∀ b, o = some b → P b d := by
  cases o with
  | none => exact readOnly_pure fun _ => nofun
  | some b => exact fun s => ⟨(h b s).1, fun u hu _ hb => by cases hb; exact (h b s).2 u hu⟩

theorem readOnly_listForM {l : List β} {f : β → Tx δ ε Unit} {P : β → δ → Prop}
    (h : ∀ b, ReadOnly (f b) fun d _ => P b d) :
    ReadOnly (l.forM f) fun d _ => ∀ b ∈ l, P b d := by
  induction l with
  | nil => exact readOnly_pure fun _ => nofun
  | cons b l ih =>
    refine ReadOnly.bind (h b) fun _ s => ⟨(ih s).1, fun u hu hb c hc => ?_⟩
    rcases List.mem_cons.1 hc with rfl | hc
    · exact hb
    · exact (ih s).2 u hu c hc

theorem wp_read {m : Tx δ ε β} {P : δ → β → Prop} {f : β → Tx δ ε α} (hm : ReadOnly m P)
    (hQ : Rejects (fun _ => True) Q db) (h : ∀ b, P w b → wp (f b) Q ⟨db, w⟩) :
    wp (m >>= f) Q ⟨db, w⟩ := by
  refine wp_bind ?_
  obtain ⟨hs, hb⟩ := hm ⟨db, w⟩
  unfold wp
  rw [hs]
  cases hr : (m ⟨db, w⟩).1 with
  | ok b => exact h b (hb b hr)
  | error x => exact hQ x _ trivial rfl

/-! ## Autocommit -/

/-- From a session with nothing uncommitted the body ends in one. -/
def Autocommit (m : Tx δ ε α) : Prop :=
  ∀ db, m ⟨db, db⟩ = ((m.run db).1, ⟨(m.run db).2, (m.run db).2⟩)

namespace Autocommit

variable {m : Tx δ ε β} {f : β → Tx δ ε α} {d : δ}

theorem run_ok {b : β} (hm : Autocommit m) (h : m.run db = (.ok b, d)) :
    (m >>= f).run db = (f b).run d := by
  have hsession := hm db
  rw [h] at hsession
  simp only [run, bind, hsession]

theorem run_error {e : ε} (hm : Autocommit m) (h : m.run db = (.error e, d)) :
    (m >>= f).run db = (.error e, d) := by
  have hsession := hm db
  rw [h] at hsession
  simp only [run, bind, hsession]

theorem pure (a : α) : Autocommit (pure a : Tx δ ε α) := fun _ => rfl

theorem throw (e : ε) : Autocommit (throw e : Tx δ ε α) := fun _ => rfl

theorem lift (e : Except ε α) : Autocommit (lift e : Tx δ ε α) := fun _ => rfl

theorem query (g : δ → α) : Autocommit (query g : Tx δ ε α) := fun _ => rfl

theorem bind (hm : Autocommit m) (hf : ∀ b, Autocommit (f b)) : Autocommit (m >>= f) := by
  intro db
  rcases hr : m.run db with ⟨r, d⟩
  have hsession := hm db
  rw [hr] at hsession
  cases r with
  | ok b =>
    rw [hm.run_ok hr, ← hf b d]
    simp only [Bind.bind, hsession]
  | error e =>
    rw [hm.run_error hr]
    simp only [Bind.bind, hsession]

end Autocommit

end Tx

end AgentPalace
