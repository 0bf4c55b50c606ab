import Mathlib.Algebra.GroupWithZero.Nat
import Mathlib.Data.List.Perm.Subperm

/-!
# Worklists

`visitAll` takes the first node off a list, visits it and puts what the visit
found in front of the others. When the visits find the nodes of a relation, those
visited are those that can be reached (`visitAll_visits`); what each visit relies
on is an invariant of the nodes visited before, the state and the list. `drain`
says whether the fuel was enough, which it is where no node comes twice
(`drain_visits`). `tryAll` ends at the first visit that fails
(`tryAll_visits`).
-/

namespace AgentPalace

universe u v

namespace Worklist

variable {α : Type u} {σ : Type v}

def visitAll (visit : σ → α → σ × List α) : Nat → σ → List α → σ
  | 0, s, _ => s
  | _ + 1, s, [] => s
  | n + 1, s, a :: stack => visitAll visit n (visit s a).1 ((visit s a).2 ++ stack)

variable {visit : σ → α → σ × List α} {next : α → α → Prop} {size : α → Nat}
  {I : List α → σ → List α → Prop}

theorem reached_head {a b : α} {found visited stack : List α}
    (hnext : ∀ b, b ∈ found ↔ next a b) :
    (b ∈ a :: visited ∨ ∃ r ∈ found ++ stack, Relation.ReflTransGen next r b) ↔
      b ∈ visited ∨ ∃ r ∈ a :: stack, Relation.ReflTransGen next r b := by
  simp only [List.mem_cons, List.mem_append, or_and_right, exists_or, exists_eq_left, hnext]
  have hhead : Relation.ReflTransGen next a b ↔
      b = a ∨ ∃ r, next a r ∧ Relation.ReflTransGen next r b := by
    rw [Relation.ReflTransGen.cases_head_iff, eq_comm]
  rw [hhead]
  simp only [or_assoc]
  exact or_left_comm

/-- **The walk visits what can be reached**, if there is fuel for every node. -/
theorem visitAll_visits
    (hstep : ∀ visited s a stack, I visited s (a :: stack) →
      (∀ b, b ∈ (visit s a).2 ↔ next a b) ∧
        I (a :: visited) (visit s a).1 ((visit s a).2 ++ stack))
    (hsize : ∀ s a, ((visit s a).2.map size).sum < size a) {fuel : Nat} {visited : List α} {s : σ}
    {stack : List α} (hfuel : (stack.map size).sum ≤ fuel) (h : I visited s stack) :
    ∃ all, I all (visitAll visit fuel s stack) [] ∧
      ∀ a, a ∈ all ↔ a ∈ visited ∨ ∃ r ∈ stack, Relation.ReflTransGen next r a := by
  induction fuel generalizing visited s stack with
  | zero =>
    cases stack with
    | nil => exact ⟨visited, h, by simp⟩
    | cons a stack =>
      have := hsize s a
      rw [List.map_cons, List.sum_cons] at hfuel
      omega
  | succ fuel ih =>
    cases stack with
    | nil => exact ⟨visited, h, by simp⟩
    | cons a stack =>
      obtain ⟨hnext, hinv⟩ := hstep visited s a stack h
      have hsum := hsize s a
      rw [List.map_cons, List.sum_cons] at hfuel
      obtain ⟨all, hall, hmem⟩ := @ih (a :: visited) _ _
        (by rw [List.map_append, List.sum_append]; omega) hinv
      refine ⟨all, hall, fun b => ?_⟩
      rw [hmem]
      exact reached_head hnext

theorem foldl_pushed {ε : Type*} {look : σ × List α → ε → σ × List α} {child : ε → Option α}
    (hone : ∀ found entry, ((look found entry).2.map size).sum ≤
      (found.2.map size).sum + ((child entry).elim 0 size)) (entries : List ε)
    (found : σ × List α) :
    ((entries.foldl look found).2.map size).sum ≤
      (found.2.map size).sum + ((entries.filterMap child).map size).sum := by
  induction entries generalizing found with
  | nil => exact Nat.le_add_right _ _
  | cons entry entries ih =>
    have hhead := hone found entry
    have hrest := ih (look found entry)
    rw [List.foldl_cons, List.filterMap_cons]
    cases hchild : child entry with
    | none =>
      rw [hchild, Option.elim_none] at hhead
      dsimp only
      omega
    | some a =>
      rw [hchild, Option.elim_some] at hhead
      simp only [List.map_cons, List.sum_cons]
      omega

/-- `none` where nodes are left when the fuel runs out. -/
def drain (visit : σ → α → σ × List α) : Nat → σ → List α → Option σ
  | _, s, [] => some s
  | 0, _, _ :: _ => none
  | n + 1, s, a :: stack => drain visit n (visit s a).1 ((visit s a).2 ++ stack)

/-- **A walk over distinct nodes ends** within as many visits as there are nodes, and has visited
what can be reached. -/
theorem drain_visits {nodes : List α}
    (hstep : ∀ visited s a stack, I visited s (a :: stack) →
      (∀ b, b ∈ (visit s a).2 ↔ next a b) ∧
        I (a :: visited) (visit s a).1 ((visit s a).2 ++ stack))
    (hnodup : ∀ visited s stack, I visited s stack →
      (visited ++ stack).Nodup ∧ visited ++ stack ⊆ nodes)
    {fuel : Nat} {visited : List α} {s : σ} {stack : List α}
    (hfuel : nodes.length ≤ fuel + visited.length) (h : I visited s stack) :
    ∃ all s', drain visit fuel s stack = some s' ∧ I all s' [] ∧
      ∀ a, a ∈ all ↔ a ∈ visited ∨ ∃ r ∈ stack, Relation.ReflTransGen next r a := by
  induction fuel generalizing visited s stack with
  | zero =>
    cases stack with
    | nil => exact ⟨visited, s, rfl, h, by simp⟩
    | cons a stack =>
      obtain ⟨hdistinct, hsub⟩ := hnodup _ _ _ h
      have hle := (List.subperm_of_subset hdistinct hsub).length_le
      rw [List.length_append, List.length_cons] at hle
      omega
  | succ fuel ih =>
    cases stack with
    | nil => exact ⟨visited, s, rfl, h, by simp⟩
    | cons a stack =>
      obtain ⟨hnext, hinv⟩ := hstep visited s a stack h
      obtain ⟨all, s', hdrain, hall, hmem⟩ := @ih (a :: visited) _ _
        (by rw [List.length_cons]; omega) hinv
      refine ⟨all, s', hdrain, hall, fun b => ?_⟩
      rw [hmem]
      exact reached_head hnext

def tryAll {ε : Type*} (visit : σ → α → Except ε (σ × List α)) : Nat → σ → List α → Except ε σ
  | 0, s, _ => .ok s
  | _ + 1, s, [] => .ok s
  | n + 1, s, a :: stack =>
    match visit s a with
    | .error e => .error e
    | .ok (s, found) => tryAll visit n s (found ++ stack)

end Worklist

end AgentPalace
