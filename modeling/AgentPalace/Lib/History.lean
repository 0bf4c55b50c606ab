
/-!
# Versioned histories

A log interleaves entries that advance a versioned object with entries that do
not. `Versioning` says how to read an entry: the state it leaves, the state it
claims to have found, and the revision it writes (`none` for an entry that is
not about a revision). `History` is a log that was written one revision at a
time, `replay` folds the states it leaves; a history numbers its revisions from
zero without a gap, and every state it names is the one its past replays to.
`Trail` is the plain form: moves whose ends meet.
-/

namespace AgentPalace

structure Versioning (α σ : Type) where
  source : α → Option σ
  target : α → Option σ
  revision : α → Option Int

namespace Versioning

variable {α σ : Type} (V : Versioning α σ)

def versioned (l : List α) : List α := l.filter fun e => (V.revision e).isSome

/-- The state a log leads to: the last one it left. -/
def replay (l : List α) : Option σ := l.foldl (fun s e => (V.target e).or s) none

/-- A log that brought an object to state `s` and revision `n`. -/
inductive History : List α → σ → Int → Prop where
  | created {e : α} {s : σ} (hr : V.revision e = some 0) (hs : V.source e = none)
      (ht : V.target e = some s) : History [e] s 0
  | skipped {l : List α} {s : σ} {n : Int} {e : α} (h : History l s n)
      (hr : V.revision e = none) : History (l ++ [e]) s n
  | advanced {l : List α} {s : σ} {n : Int} {e : α} (h : History l s n)
      (hr : V.revision e = some (n + 1)) (hs : ∀ t, V.source e = some t → t = s) :
      History (l ++ [e]) ((V.target e).getD s) (n + 1)

variable {V} {l : List α} {s : σ} {n : Int}

theorem versioned_append_some {e : α} {m : Int} (hr : V.revision e = some m) (l : List α) :
    V.versioned (l ++ [e]) = V.versioned l ++ [e] := by
  simp [versioned, List.filter_append, hr]

theorem versioned_append_none {e : α} (hr : V.revision e = none) (l : List α) :
    V.versioned (l ++ [e]) = V.versioned l := by
  simp [versioned, List.filter_append, hr]

theorem replay_append (l : List α) (e : α) :
    V.replay (l ++ [e]) = (V.target e).or (V.replay l) := by
  simp [replay, List.foldl_append]

/-- A history has one versioned entry more than its revision. -/
theorem History.length (h : V.History l s n) : ((V.versioned l).length : Int) = n + 1 := by
  induction h with
  | created hr => simp [versioned, hr]
  | skipped _ hr ih => rw [versioned_append_none hr]; simpa using ih
  | advanced _ hr _ ih =>
    rw [versioned_append_some hr, List.length_append]
    simp only [List.length_singleton]
    omega

/-- **No gap, no repeat**: the revisions of a history are `0, 1, ..., n`. -/
theorem History.revisions (h : V.History l s n) :
    (V.versioned l).map V.revision =
      (List.range (V.versioned l).length).map fun k : Nat => some (k : Int) := by
  induction h with
  | created hr => simp [versioned, hr]
  | skipped _ hr ih => rw [versioned_append_none hr]; exact ih
  | advanced h hr _ ih =>
    have hlen := h.length
    rw [versioned_append_some hr, List.length_append, List.map_append, ih,
      List.length_singleton, List.range_succ, List.map_append]
    simp [hr, hlen]

/-- **Replay** of a history gives the state it led to. -/
theorem History.replay (h : V.History l s n) : V.replay (V.versioned l) = some s := by
  induction h with
  | created hr _ ht => simp [versioned, Versioning.replay, hr, ht]
  | skipped _ hr ih => rw [versioned_append_none hr]; exact ih
  | @advanced l s n e _ hr _ ih =>
    rw [versioned_append_some hr, replay_append, ih]
    cases V.target e <;> rfl

/-- **Continuity**: the state an entry claims to have found is the one the
entries before it lead to. -/
theorem History.source (h : V.History l s n) {a b : List α} {e : α}
    (hl : V.versioned l = a ++ e :: b) {t : σ} (ht : V.source e = some t) :
    V.replay a = some t := by
  induction h generalizing b with
  | @created e' _ hr hs =>
    have hv : V.versioned [e'] = [e'] := by simp [versioned, hr]
    rw [hv] at hl
    obtain ⟨rfl, hl⟩ | ⟨a', rfl, hl⟩ := List.cons_eq_append_iff.1 hl
    · cases hl
      rw [hs] at ht
      cases ht
    · simp at hl
  | skipped _ hr ih =>
    rw [versioned_append_none hr] at hl
    exact ih hl
  | @advanced l s n e' h hr hs ih =>
    rw [versioned_append_some hr] at hl
    rcases List.eq_nil_or_concat b with rfl | ⟨b', x, rfl⟩
    · obtain ⟨rfl, he⟩ := List.append_inj' hl rfl
      cases he
      rw [hs t ht, h.replay]
    · rw [List.concat_eq_append] at hl
      have hl' : V.versioned l ++ [e'] = (a ++ e :: b') ++ [x] := by rw [hl]; simp
      exact ih (List.append_inj' hl' rfl).1

end Versioning

/-! ## Trails -/

/-- A list of moves, each from where the last one led, from `s` to `t`. -/
def Trail {α σ : Type} (source target : α → σ) (s : σ) : List α → σ → Prop
  | [], t => s = t
  | e :: l, t => source e = s ∧ Trail source target (target e) l t

theorem Trail.append {α σ : Type} {source target : α → σ} {s t : σ} {l : List α} {e : α}
    (h : Trail source target s l t) (he : source e = t) :
    Trail source target s (l ++ [e]) (target e) := by
  induction l generalizing s with
  | nil => exact ⟨he.trans (h : s = t).symm, rfl⟩
  | cons a l ih => exact ⟨h.1, ih h.2⟩

end AgentPalace
