import Mathlib.Data.List.Infix

/-!
# Replacing a word in a text

`replaced keep old new` goes through a text once and puts `new` for every
occurrence of `old`, except where the character before the occurrence is kept
by `keep`. A text is `Settled` when every occurrence is kept; then nothing
changes. `Apart` says that two words cannot overlap: it carries over what is
settled from the text before a replacement to the text after it.
-/

namespace AgentPalace

variable {keep keep' : Option Char → Bool} {old new word block : List Char} {before : Option Char}

/-- `before` is the character before the text; the fuel is more than the text has characters. -/
def replacedFrom (keep : Option Char → Bool) (old new : List Char) :
    Nat → Option Char → List Char → List Char
  | 0, _, text => text
  | _ + 1, _, [] => []
  | fuel + 1, before, c :: cs =>
    if old <+: c :: cs then
      (if keep before then old else new) ++
        replacedFrom keep old new fuel old.getLast? ((c :: cs).drop old.length)
    else c :: replacedFrom keep old new fuel (some c) cs

def replaced (keep : Option Char → Bool) (old new text : List Char) : List Char :=
  replacedFrom keep old new (text.length + 1) none text

/-- The character before what follows `u`. -/
def lastOf (before : Option Char) (u : List Char) : Option Char := u.getLast?.or before

def Settled (keep : Option Char → Bool) (old : List Char) (before : Option Char)
    (text : List Char) : Prop :=
  ∀ u v, text = u ++ old ++ v → keep (lastOf before u) = true

/-- No end of `a` agrees with the start of `b`, as far as both go. -/
def Apart (a b : List Char) : Prop := ∀ x ∈ a.tails, x ≠ [] → ¬ x <+: b ∧ ¬ b <+: x

instance (a b : List Char) : Decidable (Apart a b) :=
  inferInstanceAs (Decidable (∀ x ∈ a.tails, x ≠ [] → ¬ x <+: b ∧ ¬ b <+: x))

/-- Where two words are apart, no occurrence of one starts in an end of the other. -/
theorem Apart.elim {a b x v rest : List Char} (h : Apart a b) (hx : x ≠ []) (hsuffix : x <:+ a)
    (hword : b ++ v = x ++ rest) : False := by
  obtain ⟨hxb, hbx⟩ := h x ((List.mem_tails _ _).2 hsuffix) hx
  rcases List.prefix_or_prefix_of_prefix ⟨v, hword⟩ (List.prefix_append x rest) with h | h
  · exact hbx h
  · exact hxb h

theorem lastOf_append {u v : List Char} (h : v ≠ []) : lastOf before (u ++ v) = v.getLast? := by
  obtain ⟨c, hc⟩ := Option.ne_none_iff_exists'.1 (mt List.getLast?_eq_none_iff.1 h)
  unfold lastOf
  rw [List.getLast?_append, hc]
  rfl

theorem lastOf_cons (c : Char) (u : List Char) : lastOf before (c :: u) = lastOf (some c) u := by
  unfold lastOf
  rw [List.getLast?_cons]
  cases u.getLast? <;> rfl

theorem lastOf_block {u : List Char} (h : block ≠ []) :
    lastOf before (block ++ u) = lastOf block.getLast? u := by
  cases u with
  | nil =>
    rw [List.append_nil]
    exact lastOf_append (u := []) h
  | cons c u =>
    rw [lastOf_append (List.cons_ne_nil c u)]
    unfold lastOf
    obtain ⟨d, hd⟩ := Option.ne_none_iff_exists'.1
      (mt List.getLast?_eq_none_iff.1 (List.cons_ne_nil c u))
    rw [hd]
    rfl

theorem occurrence_cases {rest u v : List Char} (h : block ++ rest = u ++ v) :
    (∃ x, x ≠ [] ∧ x <:+ block ∧ block = u ++ x ∧ v = x ++ rest) ∨
      ∃ u', u = block ++ u' ∧ rest = u' ++ v := by
  rcases List.append_eq_append_iff.1 h with ⟨w, rfl, rfl⟩ | ⟨w, hblock, rfl⟩
  · exact .inr ⟨w, rfl, rfl⟩
  · cases w with
    | nil => exact .inr ⟨[], by simpa using hblock.symm, rfl⟩
    | cons c w => exact .inl ⟨c :: w, List.cons_ne_nil c w, ⟨u, hblock.symm⟩, hblock, rfl⟩

/-! ## A settled text -/

theorem Settled.tail {c : Char} {cs : List Char} (h : Settled keep old before (c :: cs)) :
    Settled keep old (some c) cs := by
  rintro u v rfl
  rw [← lastOf_cons]
  exact h (c :: u) v (by simp)

theorem Settled.after {rest : List Char} (hblock : block ≠ [])
    (h : Settled keep old before (block ++ rest)) : Settled keep old block.getLast? rest := by
  rintro u v rfl
  rw [← lastOf_block hblock]
  exact h (block ++ u) v (by simp)

theorem Settled.replacedFrom {fuel : Nat} {text : List Char} (hold : old ≠ [])
    (h : Settled keep old before text) : replacedFrom keep old new fuel before text = text := by
  induction fuel generalizing before text with
  | zero => rfl
  | succ fuel ih =>
    cases text with
    | nil => rfl
    | cons c cs =>
      unfold AgentPalace.replacedFrom
      split
      · rename_i hmatch
        obtain ⟨rest, hrest⟩ := hmatch
        have hkeep : keep before = true := h [] rest hrest.symm
        rw [if_pos hkeep, ← hrest, List.drop_left]
        rw [← hrest] at h
        rw [ih (h.after hold)]
      · rw [ih h.tail]

theorem Settled.replaced {text : List Char} (hold : old ≠ []) (h : Settled keep old none text) :
    replaced keep old new text = text := h.replacedFrom hold

/-! ## What a replacement settles, and what it leaves settled -/

theorem prefix_replacedFrom {fuel : Nat} {text w : List Char} (happart : Apart word new)
    (hw : w <:+ word) (h : w <+: replacedFrom keep old new fuel before text) : w <+: text := by
  induction fuel generalizing before text w with
  | zero => exact h
  | succ fuel ih =>
    cases text with
    | nil => exact h
    | cons c cs =>
      unfold replacedFrom at h
      split at h
      · rename_i hmatch
        obtain ⟨rest, hrest⟩ := hmatch
        rw [← hrest, List.drop_left] at h
        rw [← hrest]
        split at h
        · rcases List.prefix_or_prefix_of_prefix h (List.prefix_append old _) with hshort | ⟨x, rfl⟩
          · exact hshort.trans (List.prefix_append old rest)
          · rw [List.prefix_append_right_inj] at h ⊢
            exact ih ((List.suffix_append old x).trans hw) h
        · by_cases hnil : w = []
          · rw [hnil]
            exact List.nil_prefix
          · obtain ⟨hwn, hnw⟩ := happart w ((List.mem_tails _ _).2 hw) hnil
            rcases List.prefix_or_prefix_of_prefix h (List.prefix_append new _) with h | h
            · exact absurd h hwn
            · exact absurd h hnw
      · cases w with
        | nil => exact List.nil_prefix
        | cons d w =>
          obtain ⟨rfl, hrest⟩ := List.cons_prefix_cons.1 h
          exact List.cons_prefix_cons.2 ⟨rfl, ih ((List.suffix_cons d w).trans hw) hrest⟩

theorem occurrence_replacedFrom {fuel : Nat} {rest x v : List Char} {b : Option Char}
    (happart : Apart word new) (h : x ++ replacedFrom keep old new fuel b rest = word ++ v) :
    word <+: x ++ rest := by
  rcases List.append_eq_append_iff.1 h with ⟨w, rfl, hw⟩ | ⟨w, rfl, -⟩
  · rw [List.prefix_append_right_inj]
    exact prefix_replacedFrom happart (List.suffix_append x w) ⟨v, hw.symm⟩
  · rw [List.append_assoc]
    exact List.prefix_append word _

theorem Settled.kept {fuel : Nat} {text : List Char} (hold : old ≠ []) (hnew : new ≠ [])
    (hlast : new.getLast? = old.getLast?) (happart : Apart word new) (hblock : Apart new word)
    (h : Settled keep' word before text) :
    Settled keep' word before (AgentPalace.replacedFrom keep old new fuel before text) := by
  induction fuel generalizing before text with
  | zero => exact h
  | succ fuel ih =>
    cases text with
    | nil => exact h
    | cons c cs =>
      have hkeeps : ∀ (block rest : List Char) (b : Option Char), block ≠ [] →
          Settled keep' word before (block ++ rest) → block.getLast? = b →
          Settled keep' word before
            (block ++ AgentPalace.replacedFrom keep old new fuel b rest) := by
        rintro block rest b hne hsettled rfl u v huv
        rw [List.append_assoc] at huv
        rcases occurrence_cases huv with ⟨x, -, -, rfl, hx⟩ | ⟨u', rfl, hrest⟩
        · obtain ⟨v', hv'⟩ := occurrence_replacedFrom happart hx.symm
          exact hsettled u v' (by rw [List.append_assoc, List.append_assoc, hv'])
        · rw [lastOf_block hne]
          exact ih (hsettled.after hne) u' v (by rw [hrest, List.append_assoc])
      unfold AgentPalace.replacedFrom
      split
      · rename_i hmatch
        obtain ⟨rest, hrest⟩ := hmatch
        rw [← hrest, List.drop_left]
        rw [← hrest] at h
        split
        · exact hkeeps old rest _ hold h rfl
        · rintro u v huv
          rw [List.append_assoc] at huv
          rcases occurrence_cases huv with ⟨x, hx, hsuffix, -, hword⟩ | ⟨u', rfl, hword⟩
          · exact (hblock.elim hx hsuffix hword).elim
          · rw [lastOf_block hnew, hlast]
            exact ih (h.after hold) u' v (by rw [hword, List.append_assoc])
      · exact hkeeps [c] cs (some c) (List.cons_ne_nil c []) h rfl

theorem settled_replacedFrom {fuel : Nat} {text : List Char} (hold : old ≠ []) (hnew : new ≠ [])
    (hlast : new.getLast? = old.getLast?) (happart : Apart old new) (hblock : Apart new old)
    (hborder : Apart old.tail old) (hfuel : text.length < fuel) :
    Settled keep old before (replacedFrom keep old new fuel before text) := by
  induction fuel generalizing before text with
  | zero => omega
  | succ fuel ih =>
    cases text with
    | nil =>
      rintro u v huv
      simp only [replacedFrom, List.nil_eq, List.append_eq_nil_iff] at huv
      exact absurd huv.1.2 hold
    | cons c cs =>
      rintro u v huv
      unfold replacedFrom at huv
      split at huv
      · rename_i hmatch
        obtain ⟨rest, hrest⟩ := hmatch
        have hshort : rest.length < fuel := by
          have hlen := congrArg List.length hrest
          have hpos := List.length_pos_of_ne_nil hold
          simp only [List.length_append, List.length_cons] at hlen hfuel
          omega
        rw [← hrest, List.drop_left, List.append_assoc] at huv
        split at huv
        · rename_i hkeep
          rcases occurrence_cases huv with ⟨x, hx, hsuffix, hu, hword⟩ | ⟨u', rfl, hword⟩
          · cases u with
            | nil => exact hkeep
            | cons d u =>
              have hxtail : x <:+ old.tail := by
                rw [hu]
                exact List.suffix_append u x
              exact (hborder.elim hx hxtail hword).elim
          · rw [lastOf_block hold]
            exact ih hshort u' v (by rw [hword, List.append_assoc])
        · rcases occurrence_cases huv with ⟨x, hx, hsuffix, -, hword⟩ | ⟨u', rfl, hword⟩
          · exact (hblock.elim hx hsuffix hword).elim
          · rw [lastOf_block hnew, hlast]
            exact ih hshort u' v (by rw [hword, List.append_assoc])
      · rename_i hmatch
        rw [List.append_assoc] at huv
        have huv' : [c] ++ replacedFrom keep old new fuel (some c) cs = u ++ (old ++ v) := huv
        rcases occurrence_cases huv' with ⟨x, hx, hsuffix, hu, hword⟩ | ⟨u', rfl, hword⟩
        · have hxc : u = [] ∧ x = [c] := by
            cases u with
            | nil => exact ⟨rfl, by simpa using hu.symm⟩
            | cons d u =>
              simp only [List.cons_append, List.cons.injEq, List.nil_eq,
                List.append_eq_nil_iff] at hu
              exact absurd hu.2.2 hx
          obtain ⟨rfl, rfl⟩ := hxc
          exact absurd (occurrence_replacedFrom happart hword.symm) hmatch
        · rw [lastOf_block (List.cons_ne_nil c [])]
          have hshort : cs.length < fuel := by
            simp only [List.length_cons] at hfuel
            omega
          exact ih hshort u' v (hword.trans (List.append_assoc u' old v).symm)

end AgentPalace
