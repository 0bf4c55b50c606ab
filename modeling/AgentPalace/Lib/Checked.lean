import Mathlib.Data.List.Forall2

/-!
# Checked computations

Rules that take apart a body in `Except` which did not fail: `bind_ok` peels
its first step, `check_ok` one check that refuses its input. A pass over a list
succeeds when it does on each element (`list_mapM_iff`).
-/

namespace AgentPalace

universe u v

variable {ε : Type u} {α β : Type v}

theorem bind_ok {x : Except ε α} {f : α → Except ε β} {b : β} (h : x >>= f = .ok b) :
    ∃ a, x = .ok a ∧ f a = .ok b := by
  cases x with
  | error e => cases h
  | ok a => exact ⟨a, rfl, h⟩

theorem map_ok {x : Except ε α} {f : α → β} {b : β} (h : f <$> x = .ok b) :
    ∃ a, x = .ok a ∧ f a = b := by
  cases x with
  | error e => cases h
  | ok a =>
    cases h
    exact ⟨a, rfl, rfl⟩

theorem check_ok {p : Prop} [Decidable p] {e : ε} {f : PUnit → Except ε β} {b : β}
    (h : (if p then .error e >>= f else f ⟨⟩) = .ok b) : ¬p ∧ f ⟨⟩ = .ok b := by
  split at h
  · cases h
  · rename_i hp
    exact ⟨hp, h⟩

theorem mapM_ok {f : α → Except ε β} {x : Option α} {y : Option β} (h : x.mapM f = .ok y) :
    (x = none ∧ y = none) ∨ ∃ a b, x = some a ∧ y = some b ∧ f a = .ok b := by
  cases x with
  | none =>
    cases h
    exact .inl ⟨rfl, rfl⟩
  | some a =>
    obtain ⟨b, hb, hy⟩ := bind_ok (f := fun b => pure (some b)) h
    cases hy
    exact .inr ⟨a, b, rfl, rfl, hb⟩

/-! ## Lists -/

theorem list_mapM_iff {f : α → Except ε β} {xs : List α} {ys : List β} :
    xs.mapM f = .ok ys ↔ List.Forall₂ (fun x y => f x = .ok y) xs ys := by
  induction xs generalizing ys with
  | nil =>
    constructor
    · intro h
      cases h
      exact .nil
    · intro h
      cases h
      rfl
  | cons x xs ih =>
    rw [List.mapM_cons]
    constructor
    · intro h
      obtain ⟨y, hy, h⟩ := bind_ok h
      obtain ⟨ys', hys, h⟩ := bind_ok h
      cases h
      exact .cons hy (ih.1 hys)
    · intro h
      cases h with
      | cons hy hys =>
        rw [hy, ih.2 hys]
        rfl

theorem list_mapM_ok {f : α → Except ε β} {g : α → β} {xs : List α}
    (h : ∀ x ∈ xs, f x = .ok (g x)) : xs.mapM f = .ok (xs.map g) :=
  list_mapM_iff.2 (List.forall₂_map_right_iff.2 (List.forall₂_same.2 h))

theorem list_mapM_total {f : α → Except ε β} {xs : List α} (h : ∀ x ∈ xs, ∃ y, f x = .ok y) :
    ∃ ys, xs.mapM f = .ok ys := by
  induction xs with
  | nil => exact ⟨[], rfl⟩
  | cons x xs ih =>
    obtain ⟨y, hy⟩ := h x List.mem_cons_self
    obtain ⟨ys, hys⟩ := ih fun z hz => h z (List.mem_cons_of_mem x hz)
    exact ⟨y :: ys, list_mapM_iff.2 (.cons hy (list_mapM_iff.1 hys))⟩

theorem list_mapM_mem {f : α → Except ε β} {xs : List α} {ys : List β} (h : xs.mapM f = .ok ys) :
    ∀ x ∈ xs, ∃ y, f x = .ok y := by
  have hsteps := list_mapM_iff.1 h
  clear h
  induction hsteps with
  | nil => nofun
  | @cons x y _ _ hy _ ih => exact List.forall_mem_cons.2 ⟨⟨y, hy⟩, ih⟩

end AgentPalace
