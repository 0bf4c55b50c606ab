
/-!
# Reading a list page by page

`Cursored` is a list that can be read from any cursor on: `rest c` are the rows
after `c`, and after the cursor of a row come the rows behind it. `IsPage` says
that some rows are one page of the rest: all of it, without a cursor to go on
from, or a non-empty part of it, with the cursor of its last row. `collect`
fetches page after page; pages that are pages add up to the rest, in order and
each row once, and the rest is exhausted after as many calls as it has rows and
one more.
-/

namespace AgentPalace

structure Cursored (ρ κ : Type) where
  rest : κ → List ρ
  pos : ρ → κ
  rest_pos : ∀ {c pre r post}, rest c = pre ++ r :: post → rest (pos r) = post

theorem filter_behind {ρ : Type} {rows : List ρ} {lt : ρ → ρ → Prop} [DecidableRel lt]
    (hirr : ∀ a, ¬ lt a a) (htrans : ∀ a b c, lt a b → lt b c → lt a c) (sorted : rows.Pairwise lt)
    {p : ρ → Bool} (hup : ∀ a b, p a = true → lt a b → p b = true) {pre post : List ρ} {r : ρ}
    (h : rows.filter p = pre ++ r :: post) : rows.filter (fun x => lt r x) = post := by
  have hs := sorted.filter p
  rw [h, List.pairwise_append] at hs
  obtain ⟨_, hpost, hpre⟩ := hs
  rw [List.pairwise_cons] at hpost
  have hr : p r = true := by
    have hmem : r ∈ rows.filter p := by rw [h]; simp
    exact (List.mem_filter.1 hmem).2
  have hfilter : rows.filter (fun x => lt r x) = (rows.filter p).filter fun x => lt r x := by
    rw [List.filter_filter]
    refine List.filter_congr fun x _ => ?_
    by_cases hx : lt r x
    · simp [hx, hup r x hr hx]
    · simp [hx]
  rw [hfilter, h, List.filter_append, List.filter_cons]
  have hnone : (pre.filter fun x => lt r x) = [] := by
    refine List.filter_eq_nil_iff.2 fun x hx => ?_
    have hxr : lt x r := hpre x hx r (by simp)
    simp only [decide_eq_true_eq]
    exact fun hrx => hirr x (htrans x r x hxr hrx)
  have hall : (post.filter fun x => lt r x) = post :=
    List.filter_eq_self.2 fun x hx => by simpa using hpost.1 x hx
  rw [hnone, hall]
  simp [hirr r]

/-- Rows in increasing order of a sequence, read from the start or after one of
them. -/
def Cursored.ofSorted {ρ : Type} (rows : List ρ) (seq : ρ → Int)
    (sorted : rows.Pairwise fun a b => seq a < seq b) : Cursored ρ (Option Int) where
  rest c := rows.filter fun r => c.getD 0 < seq r
  pos r := some (seq r)
  rest_pos := by
    intro c pre r post h
    refine @filter_behind ρ rows (fun a b => seq a < seq b) _ (fun a => Int.lt_irrefl _)
      (fun a b d => Int.lt_trans) sorted _ ?_ _ _ _ h
    intro a b ha hab
    simp only [decide_eq_true_eq] at ha ⊢
    exact Int.lt_trans ha hab

/-- A page of the rows `rest`, and the cursor it leaves. -/
inductive IsPage {ρ κ : Type} (pos : ρ → κ) (rest : List ρ) : List ρ → Option κ → Prop where
  | final : IsPage pos rest rest none
  | more {page : List ρ} {r : ρ} {behind : List ρ} (h : rest = page ++ r :: behind) :
      IsPage pos rest (page ++ [r]) (some (pos r))

variable {ρ κ π ε β : Type}

/-- Fetch pages from a cursor on, feeding the cursor of each page to the next
call, for at most as many calls as there is fuel. -/
def collect (fetch : κ → Except ε (π × Option κ)) : Nat → κ → Option (Except ε (List π))
  | 0, _ => none
  | fuel + 1, c =>
    match fetch c with
    | .error e => some (.error e)
    | .ok (page, none) => some (.ok [page])
    | .ok (page, some next) => (collect fetch fuel next).map fun r => r.map (page :: ·)

section
variable (S : Cursored ρ κ) {fetch : κ → Except ε (π × Option κ)} {items : π → List β}
  {item : ρ → β}

/-- **Paging is exact**: if every fetch gives a page, collecting ends, with the
error of some fetch or with pages that together list the rest. -/
theorem collect_exact
    (hfetch : ∀ c page next, fetch c = .ok (page, next) →
      ∃ rows, items page = rows.map item ∧ IsPage S.pos (S.rest c) rows next)
    {fuel : Nat} {c : κ} (hfuel : (S.rest c).length < fuel) :
    (∃ pages, collect fetch fuel c = some (.ok pages) ∧
      pages.flatMap items = (S.rest c).map item) ∨
    ∃ c' e, fetch c' = .error e ∧ collect fetch fuel c = some (.error e) := by
  induction fuel generalizing c with
  | zero => omega
  | succ fuel ih =>
    cases hf : fetch c with
    | error e => exact .inr ⟨c, e, hf, by simp [collect, hf]⟩
    | ok out =>
      obtain ⟨page, next⟩ := out
      obtain ⟨rows, hitems, hpage⟩ := hfetch c page next hf
      cases hpage with
      | final => exact .inl ⟨[page], by simp [collect, hf], by simp [hitems]⟩
      | @more front r behind h =>
        have hrest := S.rest_pos h
        have hshorter : (S.rest (S.pos r)).length < fuel := by
          rw [hrest]
          rw [h, List.length_append, List.length_cons] at hfuel
          omega
        rcases ih hshorter with ⟨pages, hpages, hcat⟩ | ⟨c', e, he, hpages⟩
        · refine .inl ⟨page :: pages, by simp [collect, hf, hpages, Except.map], ?_⟩
          rw [List.flatMap_cons, hcat, hrest, hitems, h]
          simp
        · exact .inr ⟨c', e, he, by simp [collect, hf, hpages, Except.map]⟩

end

end AgentPalace
