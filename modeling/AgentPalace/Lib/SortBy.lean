import Mathlib.Data.List.Sort

/-!
# Sorting by a comparator

`sort_by` is stable, and sorts by what the comparator says of two elements. Where
no two elements of a list compare equal the sorted list is determined by its
elements (`insertionSort_perm`), a part of it sorts to a part
(`filter_insertionSort`), and a buffer of the first `n` of what was seen is the
start of the sorted list (`foldl_insertBounded`).
-/

namespace AgentPalace

universe u

variable {α : Type u}

def CmpLE (cmp : α → α → Ordering) (a b : α) : Prop := (cmp a b).isLE = true

instance (cmp : α → α → Ordering) : DecidableRel (CmpLE cmp) :=
  fun _ _ => inferInstanceAs (Decidable (_ = true))

section
variable {cmp : α → α → Ordering} [Std.TransCmp cmp]

instance : Std.Total (CmpLE cmp) where
  total a b := by
    have hswap : cmp b a = (cmp a b).swap := Std.OrientedCmp.eq_swap
    unfold CmpLE
    rw [hswap]
    cases cmp a b <;> decide

instance : IsTrans α (CmpLE cmp) where
  trans _ _ _ := Std.TransCmp.isLE_trans

theorem CmpLE.eq {a b : α} (h : CmpLE cmp a b) (h' : CmpLE cmp b a) : cmp a b = .eq :=
  Std.OrientedCmp.isLE_antisymm h h'

end

section
variable {le : α → α → Prop} [DecidableRel le] [Std.Total le] [IsTrans α le] {l l' : List α}

def Untied (le : α → α → Prop) (l : List α) : Prop :=
  ∀ a ∈ l, ∀ b ∈ l, le a b → le b a → a = b

/-- What is sorted and has the same elements is the sorted list. -/
theorem eq_insertionSort (h : l'.Perm l) (hl : Untied le l) (hsorted : l'.Pairwise le) :
    l' = l.insertionSort le := by
  have hperm := h.trans (List.perm_insertionSort le l).symm
  refine hperm.eq_of_pairwise (fun a b ha hb => hl a (h.mem_iff.1 ha) b ?_) hsorted
    (List.pairwise_insertionSort le l)
  exact (List.mem_insertionSort le).1 hb

theorem insertionSort_perm (h : l.Perm l') (hl : Untied le l) :
    l.insertionSort le = l'.insertionSort le := by
  refine (eq_insertionSort ((List.perm_insertionSort le l').trans h.symm) hl ?_).symm
  exact List.pairwise_insertionSort le l'

theorem filter_insertionSort (hl : Untied le l) (p : α → Bool) :
    (l.insertionSort le).filter p = (l.filter p).insertionSort le := by
  refine eq_insertionSort ((List.perm_insertionSort le l).filter p) ?_ ?_
  · exact fun a ha b hb => hl a (List.mem_filter.1 ha).1 b (List.mem_filter.1 hb).1
  · exact (List.pairwise_insertionSort le l).filter p

/-! ## The first `n` -/

/-- Put an element behind all that may be before it. -/
def insertAfter (le : α → α → Prop) [DecidableRel le] (a : α) (l : List α) : List α :=
  (l.takeWhile fun b => le b a) ++ a :: l.dropWhile fun b => le b a

/-- The same, in a buffer of `n`. -/
def insertBounded (le : α → α → Prop) [DecidableRel le] (n : Nat) (top : List α) (a : α) : List α :=
  (insertAfter le a top).take n

omit [Std.Total le] [IsTrans α le] in
theorem insertAfter_perm (a : α) (l : List α) : (insertAfter le a l).Perm (a :: l) := by
  unfold insertAfter
  refine List.perm_middle.trans (List.Perm.cons a ?_)
  rw [List.takeWhile_append_dropWhile]

omit [Std.Total le] [IsTrans α le] in
theorem insertAfter_congr {le' : α → α → Prop} [DecidableRel le'] {a : α}
    (h : ∀ b ∈ l, (le b a ↔ le' b a)) : insertAfter le a l = insertAfter le' a l := by
  induction l with
  | nil => rfl
  | cons b l ih =>
    have hb := h b List.mem_cons_self
    have hrest := ih fun c hc => h c (List.mem_cons_of_mem b hc)
    unfold insertAfter at hrest ⊢
    by_cases hba : le b a
    · rw [List.takeWhile_cons_of_pos (by simpa using hba),
        List.dropWhile_cons_of_pos (by simpa using hba),
        List.takeWhile_cons_of_pos (by simpa using hb.1 hba),
        List.dropWhile_cons_of_pos (by simpa using hb.1 hba), List.cons_append, List.cons_append,
        hrest]
    · rw [List.takeWhile_cons_of_neg (by simpa using hba),
        List.dropWhile_cons_of_neg (by simpa using hba),
        List.takeWhile_cons_of_neg (by simpa using fun h => hba (hb.2 h)),
        List.dropWhile_cons_of_neg (by simpa using fun h => hba (hb.2 h))]

theorem pairwise_insertAfter {a : α} (h : l.Pairwise le) : (insertAfter le a l).Pairwise le := by
  induction l with
  | nil => simp [insertAfter]
  | cons b l ih =>
    obtain ⟨hb, hl⟩ := List.pairwise_cons.1 h
    unfold insertAfter at ih ⊢
    by_cases hba : le b a
    · rw [List.takeWhile_cons_of_pos (by simpa using hba),
        List.dropWhile_cons_of_pos (by simpa using hba), List.cons_append]
      refine List.pairwise_cons.2 ⟨fun c hc => ?_, ih hl⟩
      rcases List.mem_cons.1 ((insertAfter_perm a l).mem_iff.1 hc) with rfl | hc
      · exact hba
      · exact hb c hc
    · rw [List.takeWhile_cons_of_neg (by simpa using hba),
        List.dropWhile_cons_of_neg (by simpa using hba), List.nil_append]
      have hab : le a b := (Std.Total.total b a).resolve_left hba
      refine List.pairwise_cons.2 ⟨fun c hc => ?_, h⟩
      rcases List.mem_cons.1 hc with rfl | hc
      · exact hab
      · exact Trans.trans hab (hb c hc)

omit [Std.Total le] [IsTrans α le] in
theorem insertBounded_take (n : Nat) (a : α) (l : List α) :
    insertBounded le n (l.take n) a = (insertAfter le a l).take n := by
  unfold insertBounded
  induction l generalizing n with
  | nil => rw [List.take_nil]
  | cons b l ih =>
    cases n with
    | zero => rfl
    | succ n =>
      have hih := ih n
      unfold insertAfter at hih ⊢
      rw [List.take_succ_cons]
      by_cases hba : le b a
      · rw [List.takeWhile_cons_of_pos (by simpa using hba),
          List.dropWhile_cons_of_pos (by simpa using hba),
          List.takeWhile_cons_of_pos (by simpa using hba),
          List.dropWhile_cons_of_pos (by simpa using hba), List.cons_append, List.cons_append,
          List.take_succ_cons, List.take_succ_cons, hih]
      · have hhead : (b :: l.take n).take n = (b :: l).take n := by
          rw [← List.take_succ_cons, List.take_take, Nat.min_eq_left (Nat.le_succ n)]
        rw [List.takeWhile_cons_of_neg (by simpa using hba),
          List.dropWhile_cons_of_neg (by simpa using hba),
          List.takeWhile_cons_of_neg (by simpa using hba),
          List.dropWhile_cons_of_neg (by simpa using hba), List.nil_append, List.nil_append,
          List.take_succ_cons, List.take_succ_cons, hhead]

/-- The buffer of what was seen is the start of it, sorted. -/
theorem foldl_insertBounded (n : Nat) {seen : List α} (hl : Untied le (seen ++ l)) :
    l.foldl (insertBounded le n) ((seen.insertionSort le).take n) =
      ((seen ++ l).insertionSort le).take n := by
  induction l generalizing seen with
  | nil => rw [List.append_nil, List.foldl_nil]
  | cons a l ih =>
    have happend : seen ++ a :: l = (seen ++ [a]) ++ l := by simp
    rw [List.foldl_cons, insertBounded_take, happend, ← ih (happend ▸ hl)]
    have hperm : (insertAfter le a (seen.insertionSort le)).Perm (seen ++ [a]) := by
      refine (insertAfter_perm a _).trans ?_
      refine ((List.perm_insertionSort le seen).cons a).trans ?_
      exact (List.perm_append_singleton a seen).symm
    rw [eq_insertionSort hperm ?_ (pairwise_insertAfter (List.pairwise_insertionSort le seen))]
    have hsub : ∀ x ∈ seen ++ [a], x ∈ seen ++ a :: l := by
      intro x hx
      rw [happend]
      exact List.mem_append_left l hx
    exact fun x hx y hy => hl x (hsub x hx) y (hsub y hy)

end

end AgentPalace
