import Mathlib.Data.List.Nodup
import Mathlib.Data.Nat.Find

/-!
# Breadth-first search

The distance of a node from the start is the length of a shortest walk (`IsDist`).
`Bfs` is the invariant of a search that marks nodes when it discovers them and
takes them from a queue: what is found has its distance, the queue holds nodes of
two successive distances in order, everything up to the smaller one is found, and
the neighbours of what has left the queue are. `Bfs.pop`, `Bfs.skip` and
`Bfs.expand` are its steps; a search whose queue is empty has found the nodes up
to the bound and no others (`Bfs.complete`).
-/

namespace AgentPalace

universe u

variable {α : Type u}

inductive Walk (R : α → α → Prop) (start : α) : Nat → α → Prop
  | nil : Walk R start 0 start
  | snoc {n : Nat} {u v : α} (walk : Walk R start n u) (step : R u v) : Walk R start (n + 1) v

def IsDist (R : α → α → Prop) (start : α) (n : Nat) (v : α) : Prop :=
  Walk R start n v ∧ ∀ m, Walk R start m v → n ≤ m

section
variable {R : α → α → Prop} {start v : α} {n m : Nat}

theorem isDist_zero (R : α → α → Prop) (start : α) : IsDist R start 0 start :=
  ⟨.nil, fun m _ => Nat.zero_le m⟩

theorem IsDist.unique (h : IsDist R start n v) (h' : IsDist R start m v) : n = m :=
  le_antisymm (h.2 m h'.1) (h'.2 n h.1)

/-- The last step of a shortest walk is from a node one step nearer. -/
theorem IsDist.pred (h : IsDist R start (n + 1) v) : ∃ u, IsDist R start n u ∧ R u v := by
  obtain ⟨hwalk, hleast⟩ := h
  cases hwalk with
  | snoc walk step =>
    refine ⟨_, ⟨walk, fun m hm => ?_⟩, step⟩
    have hle := hleast (m + 1) (.snoc hm step)
    omega

theorem exists_isDist (h : Walk R start n v) : ∃ m, m ≤ n ∧ IsDist R start m v := by
  classical
  have hexists : ∃ m, Walk R start m v := ⟨n, h⟩
  exact ⟨Nat.find hexists, Nat.find_min' hexists h, Nat.find_spec hexists,
    fun m hm => Nat.find_min' hexists hm⟩

end

/-- The nodes of a list of nodes with their distances. -/
def nodesOf (found : List (α × Nat)) : List α := found.map (·.1)

/-- The invariant of a search up to a bound, whose queue starts at distance `k`. -/
structure Bfs (R : α → α → Prop) (start : α) (bound : Nat) (found queue : List (α × Nat))
    (k : Nat) : Prop where
  dist : ∀ e ∈ found, IsDist R start e.2 e.1 ∧ e.2 ≤ bound
  once : (nodesOf found).Nodup
  queued : ∀ e ∈ queue, e ∈ found ∧ k ≤ e.2 ∧ e.2 ≤ k + 1
  ordered : queue.Pairwise fun a b => a.2 ≤ b.2
  near : ∀ v n, IsDist R start n v → n ≤ k → n ≤ bound → v ∈ nodesOf found
  closed : ∀ e ∈ found, e.2 < bound → e ∉ queue → ∀ v, R e.1 v → v ∈ nodesOf found

namespace Bfs

variable {R : α → α → Prop} {start : α} {bound k : Nat} {found queue : List (α × Nat)}
  {e : α × Nat}

theorem init (R : α → α → Prop) (start : α) (bound : Nat) :
    Bfs R start bound [(start, 0)] [(start, 0)] 0 where
  dist e he := by
    rw [List.mem_singleton.1 he]
    exact ⟨isDist_zero R start, Nat.zero_le _⟩
  once := List.nodup_singleton _
  queued e he := by
    rw [List.mem_singleton.1 he]
    exact ⟨List.mem_singleton_self _, le_refl _, Nat.zero_le _⟩
  ordered := List.pairwise_singleton _ _
  near v n hv hn _ := by
    obtain rfl : n = 0 := Nat.le_zero.1 hn
    cases hv.1
    exact List.mem_singleton_self _
  closed e he _ hqueue := absurd he hqueue

/-- A found node that has left the queue has no neighbour left to find. -/
theorem mem_of_dist (h : Bfs R start bound found queue k) {n : Nat} {u v : α}
    (hu : IsDist R start n u) (hfound : u ∈ nodesOf found) (hn : n < bound)
    (hqueue : ∀ e ∈ queue, e.2 ≠ n) (hstep : R u v) : v ∈ nodesOf found := by
  obtain ⟨e, he, rfl⟩ := List.mem_map.1 hfound
  have hdist : e.2 = n := (h.dist e he).1.unique hu
  exact h.closed e he (hdist ▸ hn) (fun hmem => hqueue e hmem hdist) v hstep

theorem pop (h : Bfs R start bound found (e :: queue) k) :
    Bfs R start bound found (e :: queue) e.2 := by
  obtain ⟨hfound, hk, hk'⟩ := h.queued e List.mem_cons_self
  have hordered := List.pairwise_cons.1 h.ordered
  rcases Nat.eq_or_lt_of_le hk with heq | hlt
  · exact heq ▸ h
  · have hnext : e.2 = k + 1 := by omega
    have hlast : ∀ e' ∈ e :: queue, e'.2 = k + 1 := by
      intro e' he'
      have hle := (h.queued e' he').2.2
      rcases List.mem_cons.1 he' with rfl | hmem
      · exact hnext
      · have := hordered.1 e' hmem
        omega
    refine { h with queued := fun e' he' => ?_, near := fun v n hv hn hbound => ?_ }
    · have := hlast e' he'
      exact ⟨(h.queued e' he').1, by omega, by omega⟩
    · rcases Nat.lt_or_ge k n with hkn | hkn
      · -- a node of the next distance has a neighbour that has left the queue
        obtain rfl : n = k + 1 := by omega
        obtain ⟨u, hu, hstep⟩ := hv.pred
        refine h.mem_of_dist hu (h.near u k hu (le_refl k) (by omega)) (by omega) ?_ hstep
        intro e' he'
        have := hlast e' he'
        omega
      · exact h.near v n hv hkn hbound

theorem skip (h : Bfs R start bound found (e :: queue) e.2) (hbound : bound ≤ e.2) :
    Bfs R start bound found queue e.2 where
  dist := h.dist
  once := h.once
  queued e' he' := h.queued e' (List.mem_cons_of_mem e he')
  ordered := (List.pairwise_cons.1 h.ordered).2
  near := h.near
  closed e' he' hlt hqueue v hstep := by
    refine h.closed e' he' hlt (fun hmem => ?_) v hstep
    rcases List.mem_cons.1 hmem with rfl | hmem
    · omega
    · exact hqueue hmem

theorem expand (h : Bfs R start bound found (e :: queue) e.2) (hbound : e.2 < bound)
    {fresh : List α} (hnodup : fresh.Nodup)
    (hfresh : ∀ v, v ∈ fresh ↔ R e.1 v ∧ v ∉ nodesOf found) :
    Bfs R start bound (found ++ fresh.map (·, e.2 + 1)) (queue ++ fresh.map (·, e.2 + 1)) e.2 := by
  obtain ⟨hefound, _⟩ := h.queued e List.mem_cons_self
  have hedist := (h.dist e hefound).1
  have hnodes : nodesOf (found ++ fresh.map (·, e.2 + 1)) = nodesOf found ++ fresh := by
    simp [nodesOf, Function.comp_def]
  constructor
  · intro e' he'
    rcases List.mem_append.1 he' with he' | he'
    · exact h.dist e' he'
    · obtain ⟨v, hv, rfl⟩ := List.mem_map.1 he'
      obtain ⟨hstep, hnew⟩ := (hfresh v).1 hv
      refine ⟨⟨.snoc hedist.1 hstep, fun m hm => ?_⟩, hbound⟩
      -- a shorter walk would have been found
      by_contra hlt
      obtain ⟨m', hm', hdist⟩ := exists_isDist hm
      exact hnew (h.near v m' hdist (by omega) (by omega))
  · rw [hnodes]
    refine List.nodup_append'.2 ⟨h.once, hnodup, fun v hv hv' => ?_⟩
    exact ((hfresh v).1 hv').2 hv
  · intro e' he'
    rcases List.mem_append.1 he' with he' | he'
    · obtain ⟨hfound, hle, hle'⟩ := h.queued e' (List.mem_cons_of_mem e he')
      exact ⟨List.mem_append_left _ hfound, hle, hle'⟩
    · refine ⟨List.mem_append_right _ he', ?_⟩
      obtain ⟨v, _, rfl⟩ := List.mem_map.1 he'
      exact ⟨Nat.le_succ _, le_refl _⟩
  · refine List.pairwise_append.2 ⟨(List.pairwise_cons.1 h.ordered).2, ?_, fun a ha b hb => ?_⟩
    · rw [List.pairwise_map]
      exact List.pairwise_of_forall fun _ _ => le_refl _
    · obtain ⟨v, _, rfl⟩ := List.mem_map.1 hb
      exact (h.queued a (List.mem_cons_of_mem e ha)).2.2
  · intro v n hv hn hle
    rw [hnodes]
    exact List.mem_append_left _ (h.near v n hv hn hle)
  · intro e' he' hlt hqueue v hstep
    rw [hnodes]
    rcases List.mem_append.1 he' with he' | he'
    · by_cases heq : e' = e
      · subst heq
        by_cases hmem : v ∈ nodesOf found
        · exact List.mem_append_left _ hmem
        · exact List.mem_append_right _ ((hfresh v).2 ⟨hstep, hmem⟩)
      · refine List.mem_append_left _ (h.closed e' he' hlt (fun hmem => ?_) v hstep)
        rcases List.mem_cons.1 hmem with hmem | hmem
        · exact heq hmem
        · exact hqueue (List.mem_append_left _ hmem)
    · exact absurd (List.mem_append_right _ he') hqueue

theorem complete (h : Bfs R start bound found [] k) (v : α) (n : Nat) :
    (v, n) ∈ found ↔ IsDist R start n v ∧ n ≤ bound := by
  have hnode : ∀ n v, IsDist R start n v → n ≤ bound → v ∈ nodesOf found := by
    intro n
    induction n with
    | zero => exact fun v hdist hle => h.near v 0 hdist (Nat.zero_le _) hle
    | succ n ih =>
      intro v hdist hle
      obtain ⟨u, hu, hstep⟩ := hdist.pred
      exact h.mem_of_dist hu (ih u hu (by omega)) (by omega) (by simp) hstep
  refine ⟨fun hmem => h.dist _ hmem, fun ⟨hdist, hle⟩ => ?_⟩
  obtain ⟨e, he, rfl⟩ := List.mem_map.1 (hnode n v hdist hle)
  rw [hdist.unique (h.dist e he).1]
  exact he

end Bfs

end AgentPalace
