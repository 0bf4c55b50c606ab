import Mathlib.Data.List.Sort
import Mathlib.Data.List.Dedup

/-!
# The nearest rows, through a window

`IsWindow` is the answer to a search for the `k` nearest of some rows: rows as
near as its farthest one are in it too, and it is short only if it holds all
rows. Only some of the rows are shown. The window shows the `n` nearest of them
if it shows `n` at all, or holds every row (`IsWindow.take_sort`); a window of
`n + m` rows does if fewer than `m` rows that are not shown are as near as the
`n`-th shown one (`IsWindow.enough`). Sorting and cutting gives a window
(`IsWindow.ofNearest`).
-/

namespace AgentPalace

variable {ρ δ : Type} [LinearOrder δ]

structure IsWindow (dist : ρ → δ) (rows : List ρ) (k : Nat) (w : List ρ) : Prop where
  nodup : w.Nodup
  sub : ∀ r ∈ w, r ∈ rows
  closed : ∀ r ∈ w, ∀ r' ∈ rows, dist r' ≤ dist r → r' ∈ w
  full : w.length < k → ∀ r ∈ rows, r ∈ w

/-- A ranking of rows that puts the nearer ones first. -/
structure Ranks (dist : ρ → δ) (rows : List ρ) (le : ρ → ρ → Prop) : Prop where
  total : ∀ a b, le a b ∨ le b a
  trans : ∀ a b c, le a b → le b c → le a c
  antisymm : ∀ a ∈ rows, ∀ b ∈ rows, le a b → le b a → a = b
  near : ∀ a b, dist a < dist b → le a b

/-- The rows that are not shown and are as near as the `n`-th of the ranked ones;
all of them if there is no such row. -/
def closeHidden (dist : ρ → δ) (rows : List ρ) (shown : ρ → Bool) (ranked : List ρ) (n : Nat) :
    List ρ :=
  match ranked[n - 1]? with
  | some last => rows.filter fun r => !shown r && decide (dist r ≤ dist last)
  | none => rows.filter fun r => !shown r

/-- The nearest rows, those as far as the last of them included. -/
def nearest (dist : ρ → δ) (rows : List ρ) (k : Nat) : List ρ :=
  let sorted := rows.insertionSort fun a b => dist a ≤ dist b
  match sorted[k - 1]? with
  | some cutoff => sorted.filter fun r => dist r ≤ dist cutoff
  | none => sorted

namespace IsWindow

variable [DecidableEq ρ] {dist : ρ → δ} {rows w : List ρ} {k n m : Nat} {le : ρ → ρ → Prop}
  [DecidableRel le] {shown : ρ → Bool}

/-- The ranked rows are those of the window, then the others. -/
theorem sort_eq (h : IsWindow dist rows k w) (hnodup : rows.Nodup) (hle : Ranks dist rows le) :
    (rows.filter shown).insertionSort le = (w.filter shown).insertionSort le ++
      (rows.filter fun r => shown r && !w.elem r).insertionSort le := by
  have htotal : Std.Total le := ⟨hle.total⟩
  have htrans : IsTrans ρ le := ⟨hle.trans⟩
  have hparts : (rows.filter shown).Perm
      (w.filter shown ++ rows.filter fun r => shown r && !w.elem r) := by
    refine (List.perm_ext_iff_of_nodup (hnodup.filter _) ?_).2 fun r => ?_
    · refine (h.nodup.filter _).append (hnodup.filter _) fun r hr hr' => ?_
      simp only [List.mem_filter, Bool.and_eq_true, Bool.not_eq_true', List.elem_eq_mem,
        decide_eq_false_iff_not] at hr hr'
      exact hr'.2.2 hr.1
    · simp only [List.mem_append, List.mem_filter, Bool.and_eq_true, Bool.not_eq_true',
        List.elem_eq_mem, decide_eq_false_iff_not]
      constructor
      · rintro ⟨hr, hshown⟩
        by_cases hw : r ∈ w
        · exact .inl ⟨hw, hshown⟩
        · exact .inr ⟨hr, hshown, hw⟩
      · rintro (⟨hw, hshown⟩ | ⟨hr, hshown, _⟩)
        · exact ⟨h.sub r hw, hshown⟩
        · exact ⟨hr, hshown⟩
  have hperm : ((rows.filter shown).insertionSort le).Perm ((w.filter shown).insertionSort le ++
      (rows.filter fun r => shown r && !w.elem r).insertionSort le) :=
    (List.perm_insertionSort _ _).trans (hparts.trans
      ((List.perm_insertionSort _ _).symm.append (List.perm_insertionSort _ _).symm))
  refine hperm.eq_of_pairwise (fun a b ha hb => hle.antisymm a ?_ b ?_)
    (List.pairwise_insertionSort _ _) ?_
  · exact (List.mem_filter.1 ((List.mem_insertionSort _).1 ha)).1
  · exact (List.mem_filter.1 ((List.mem_insertionSort _).1 (hperm.symm.mem_iff.1 hb))).1
  · refine List.pairwise_append.2 ⟨List.pairwise_insertionSort _ _,
      List.pairwise_insertionSort _ _, fun a ha b hb => ?_⟩
    rw [List.mem_insertionSort] at ha hb
    simp only [List.mem_filter, Bool.and_eq_true, Bool.not_eq_true', List.elem_eq_mem,
      decide_eq_false_iff_not] at ha hb
    refine hle.near a b (lt_of_not_ge fun hba => hb.2.2 ?_)
    exact h.closed a ha.1 b hb.1 hba

theorem take_sort (h : IsWindow dist rows k w) (hnodup : rows.Nodup) (hle : Ranks dist rows le)
    (hn : n ≤ (w.filter shown).length ∨ ∀ r ∈ rows, r ∈ w) :
    ((w.filter shown).insertionSort le).take n = ((rows.filter shown).insertionSort le).take n := by
  rw [h.sort_eq hnodup hle]
  rcases hn with hn | hall
  · rw [List.take_append_of_le_length]
    rwa [List.length_insertionSort]
  · have hrest : (rows.filter fun r => shown r && !w.elem r) = [] := by
      refine List.filter_eq_nil_iff.2 fun r hr => ?_
      simp [hall r hr]
    rw [hrest]
    simp

theorem enough (h : IsWindow dist rows k w) (hnodup : rows.Nodup) (hle : Ranks dist rows le)
    (hn : 0 < n) (hsize : n + m ≤ w.length)
    (hhidden : (closeHidden dist rows shown ((rows.filter shown).insertionSort le) n).length < m) :
    n ≤ (w.filter shown).length := by
  by_contra hshort
  have hcount : w.length = (w.filter shown).length + (w.filter fun r => !shown r).length :=
    List.length_eq_length_filter_add shown
  have hclose : ∀ r ∈ w, shown r = false →
      r ∈ closeHidden dist rows shown ((rows.filter shown).insertionSort le) n := by
    intro r hr hshown
    unfold closeHidden
    cases hlast : ((rows.filter shown).insertionSort le)[n - 1]? with
    | none => simpa [hshown] using h.sub r hr
    | some last =>
      -- The `n`-th shown row is behind those of the window, so it is not in it.
      rw [h.sort_eq hnodup hle, List.getElem?_append_right
        (by rw [List.length_insertionSort]; omega)] at hlast
      have hmem := List.mem_of_getElem? hlast
      rw [List.mem_insertionSort] at hmem
      simp only [List.mem_filter, Bool.and_eq_true, Bool.not_eq_true', List.elem_eq_mem,
        decide_eq_false_iff_not] at hmem
      have hfar : ¬ dist last ≤ dist r := fun hle => hmem.2.2 (h.closed r hr last hmem.1 hle)
      simp only [List.mem_filter, hshown, Bool.not_false, Bool.true_and, decide_eq_true_eq]
      exact ⟨h.sub r hr, (lt_of_not_ge hfar).le⟩
  have hsub : (w.filter fun r => !shown r).length ≤
      (closeHidden dist rows shown ((rows.filter shown).insertionSort le) n).length := by
    refine List.Subperm.length_le (List.subperm_of_subset (h.nodup.filter _) fun r hr => ?_)
    obtain ⟨hr, hshown⟩ := List.mem_filter.1 hr
    exact hclose r hr (by simpa using hshown)
  omega

omit [DecidableEq ρ] in
theorem ofNearest (dist : ρ → δ) {rows : List ρ} (hnodup : rows.Nodup) (hk : 0 < k) :
    IsWindow dist rows k (nearest dist rows k) := by
  have hsorted := List.pairwise_insertionSort (fun a b => dist a ≤ dist b) rows
  have hperm := List.perm_insertionSort (fun a b => dist a ≤ dist b) rows
  unfold nearest
  simp only
  generalize rows.insertionSort (fun a b => dist a ≤ dist b) = sorted at hsorted hperm
  cases hcut : sorted[k - 1]? with
  | none =>
    exact ⟨hperm.nodup_iff.2 hnodup, fun r hr => hperm.mem_iff.1 hr,
      fun r _ r' hr' _ => hperm.mem_iff.2 hr', fun _ r hr => hperm.mem_iff.2 hr⟩
  | some cutoff =>
    refine ⟨(hperm.nodup_iff.2 hnodup).filter _,
      fun r hr => hperm.mem_iff.1 (List.mem_filter.1 hr).1, ?_, fun hshort => ?_⟩
    · intro r hr r' hr' hle
      have hr := (List.mem_filter.1 hr).2
      rw [decide_eq_true_eq] at hr
      exact List.mem_filter.2 ⟨hperm.mem_iff.2 hr', decide_eq_true (hle.trans hr)⟩
    · -- The first `k` rows are as near as the cutoff, so the window is not short.
      simp only at hshort
      obtain ⟨hlt, hget⟩ := List.getElem?_eq_some_iff.1 hcut
      have hfirst : (sorted.take k).filter (fun r => dist r ≤ dist cutoff) = sorted.take k := by
        refine List.filter_eq_self.2 fun r hr => decide_eq_true ?_
        obtain ⟨i, hi, rfl⟩ := List.mem_iff_getElem.1 hr
        rw [List.length_take] at hi
        rw [List.getElem_take, ← hget]
        rcases Nat.lt_or_ge i (k - 1) with hlt' | hge
        · exact List.pairwise_iff_getElem.1 hsorted i (k - 1) (by omega) hlt hlt'
        · obtain rfl : i = k - 1 := by omega
          exact le_refl _
      have hlen := ((List.take_sublist k sorted).filter fun r => dist r ≤ dist cutoff).length_le
      rw [hfirst, List.length_take] at hlen
      omega

end IsWindow

end AgentPalace
