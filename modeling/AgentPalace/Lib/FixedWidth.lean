import Mathlib.Data.List.DropRight
import Mathlib.Algebra.Group.Nat.Defs

/-!
# Text order of decimal fields

`digits width n` writes `n` with a fixed number of digits. Texts of one length
compare first by their first field and then by what follows it, and fixed-width
fields compare as the numbers do (`digits_lt`), so a row of such fields is
compared like a tuple.

Digits after a point are different: `stripped width f` leaves trailing zeros
out. Of two fractions the smaller one has the smaller text, unless it is the
greater one cut to fewer digits: then the comparison falls to what follows the
shorter text (`stripped_lt`).
-/

namespace AgentPalace.FixedWidth

theorem append_lt_iff {xs ys ps qs : List Char} (h : xs.length = ys.length) :
    xs ++ ps < ys ++ qs ↔ xs < ys ∨ xs = ys ∧ ps < qs := by
  induction xs generalizing ys with
  | nil =>
    obtain rfl := List.eq_nil_of_length_eq_zero h.symm
    simp
  | cons x xs ih =>
    cases ys with
    | nil => cases h
    | cons y ys =>
      rw [List.cons_append, List.cons_append, List.cons_lt_cons_iff, List.cons_lt_cons_iff,
        ih (Nat.succ.inj h)]
      constructor
      · rintro (hxy | ⟨rfl, hlt | ⟨rfl, hpq⟩⟩)
        · exact .inl (.inl hxy)
        · exact .inl (.inr ⟨rfl, hlt⟩)
        · exact .inr ⟨rfl, hpq⟩
      · rintro ((hxy | ⟨rfl, hlt⟩) | ⟨heq, hpq⟩)
        · exact .inl hxy
        · exact .inr ⟨rfl, .inl hlt⟩
        · cases heq
          exact .inr ⟨rfl, .inr ⟨rfl, hpq⟩⟩

/-! ## Digits -/

theorem toNat_digitChar {n : Nat} (hn : n < 10) : n.digitChar.toNat = 48 + n := by
  have hall : ∀ m < 10, m.digitChar.toNat = 48 + m := by decide
  exact hall n hn

theorem digitChar_lt {m n : Nat} (hm : m < 10) (hn : n < 10) :
    m.digitChar < n.digitChar ↔ m < n := by
  have hval : m.digitChar < n.digitChar ↔ m.digitChar.toNat < n.digitChar.toNat := Iff.rfl
  rw [hval, toNat_digitChar hm, toNat_digitChar hn]
  omega

theorem digitChar_inj {m n : Nat} (hm : m < 10) (hn : n < 10) :
    m.digitChar = n.digitChar ↔ m = n := by
  rw [← Char.toNat_inj, toNat_digitChar hm, toNat_digitChar hn]
  omega

theorem digitChar_eq_zero {n : Nat} (hn : n < 10) : n.digitChar = '0' ↔ n = 0 :=
  digitChar_inj hn (n := 0) (by omega)

/-- The last `width` decimal digits of a number. -/
def digits : Nat → Nat → List Char
  | 0, _ => []
  | width + 1, n => (n / 10 ^ width % 10).digitChar :: digits width n

@[simp] theorem length_digits (width n : Nat) : (digits width n).length = width := by
  induction width with
  | zero => rfl
  | succ width ih => rw [digits, List.length_cons, ih]

theorem isDigit_of_mem_digits {width n : Nat} {c : Char} (h : c ∈ digits width n) :
    c.isDigit = true := by
  have hall : ∀ m < 10, m.digitChar.isDigit = true := by decide
  induction width with
  | zero => cases h
  | succ width ih =>
    rcases List.mem_cons.1 h with rfl | h
    · exact hall _ (Nat.mod_lt _ (by omega))
    · exact ih h

theorem digits_mod (width n : Nat) : digits width (n % 10 ^ width) = digits width n := by
  have hall : ∀ k ≤ width, digits k (n % 10 ^ width) = digits k n := by
    intro k
    induction k with
    | zero => intro _; rfl
    | succ k ih =>
      intro hk
      have hpow : 10 ^ width = 10 ^ k * (10 * 10 ^ (width - (k + 1))) := by
        rw [← Nat.mul_assoc, ← Nat.pow_succ, ← Nat.pow_add]
        congr 1
        omega
      have hdigit : n % 10 ^ width / 10 ^ k % 10 = n / 10 ^ k % 10 := by
        rw [hpow, Nat.mod_mul_right_div_self, Nat.mod_mul_right_mod]
      rw [digits, digits, hdigit, ih (by omega)]
  exact hall width le_rfl

theorem digits_concat (width n : Nat) :
    digits (width + 1) n = digits width (n / 10) ++ [(n % 10).digitChar] := by
  induction width with
  | zero => simp [digits]
  | succ width ih =>
    have hdigit : n / 10 ^ (width + 1) = n / 10 / 10 ^ width := by
      rw [Nat.div_div_eq_div_mul, Nat.pow_succ, Nat.mul_comm]
    rw [digits, ih, hdigit, digits, List.cons_append]

theorem digits_lt {width m n : Nat} (hm : m < 10 ^ width) (hn : n < 10 ^ width) :
    digits width m < digits width n ↔ m < n := by
  induction width generalizing m n with
  | zero =>
    rw [Nat.pow_zero] at hm hn
    simp only [digits, List.not_lt_nil, false_iff]
    omega
  | succ width ih =>
    have hpos : 0 < 10 ^ width := Nat.pow_pos (by omega)
    rw [Nat.pow_succ] at hm hn
    have hm' : m / 10 ^ width < 10 := Nat.div_lt_of_lt_mul hm
    have hn' : n / 10 ^ width < 10 := Nat.div_lt_of_lt_mul hn
    rw [digits, digits, List.cons_lt_cons_iff, Nat.mod_eq_of_lt hm', Nat.mod_eq_of_lt hn',
      digitChar_lt hm' hn', digitChar_inj hm' hn', ← digits_mod width m, ← digits_mod width n,
      ih (Nat.mod_lt _ hpos) (Nat.mod_lt _ hpos)]
    have hdm := Nat.div_add_mod m (10 ^ width)
    have hdn := Nat.div_add_mod n (10 ^ width)
    have hmm := Nat.mod_lt m hpos
    have hmn := Nat.mod_lt n hpos
    constructor
    · rintro (hlt | ⟨heq, hlt⟩)
      · have hle := Nat.mul_le_mul_left (10 ^ width) (Nat.succ_le_of_lt hlt)
        rw [Nat.mul_succ] at hle
        omega
      · rw [heq] at hdm
        omega
    · intro hlt
      rcases Nat.lt_or_ge (m / 10 ^ width) (n / 10 ^ width) with h | h
      · exact .inl h
      · have hle : m / 10 ^ width ≤ n / 10 ^ width := Nat.div_le_div_right hlt.le
        have heq : m / 10 ^ width = n / 10 ^ width := by omega
        rw [heq] at hdm
        exact .inr ⟨heq, by omega⟩

theorem digits_inj {width m n : Nat} (hm : m < 10 ^ width) (hn : n < 10 ^ width) :
    digits width m = digits width n ↔ m = n := by
  constructor
  · intro heq
    have hirr : ¬ digits width n < digits width n := List.lt_irrefl _
    rcases Nat.lt_trichotomy m n with hlt | hmn | hlt
    · exact absurd (heq ▸ (digits_lt hm hn).2 hlt) hirr
    · exact hmn
    · exact absurd (heq ▸ (digits_lt hn hm).2 hlt) hirr
  · rintro rfl
    rfl

theorem field_lt {width m n : Nat} {ps qs : List Char} (hm : m < 10 ^ width)
    (hn : n < 10 ^ width) :
    digits width m ++ ps < digits width n ++ qs ↔ m < n ∨ m = n ∧ ps < qs := by
  rw [append_lt_iff (by simp), digits_lt hm hn, digits_inj hm hn]

theorem cons_lt_same {c : Char} {ps qs : List Char} : c :: ps < c :: qs ↔ ps < qs := by
  rw [List.cons_lt_cons_iff]
  constructor
  · rintro (h | ⟨_, h⟩)
    · exact absurd h (Char.lt_irrefl c)
    · exact h
  · exact fun h => .inr ⟨rfl, h⟩

theorem replicate_toDigits {width n : Nat} (h : n < 10 ^ (width + 1)) :
    List.replicate (width + 1 - (Nat.toDigits 10 n).length) '0' ++ Nat.toDigits 10 n =
      digits (width + 1) n := by
  induction width generalizing n with
  | zero =>
    rw [Nat.toDigits_of_lt_base (by omega)]
    simp only [digits, Nat.pow_zero, Nat.div_one]
    rw [Nat.mod_eq_of_lt (by omega)]
    rfl
  | succ width ih =>
    rcases Nat.lt_or_ge n 10 with hlt | hge
    · have hzero : ∀ k, digits k 0 = List.replicate k '0' := by
        intro k
        induction k with
        | zero => rfl
        | succ k ihk => rw [digits, ihk, Nat.zero_div]; rfl
      rw [digits_concat, Nat.div_eq_of_lt hlt, hzero, Nat.toDigits_of_lt_base hlt,
        Nat.mod_eq_of_lt hlt]
      rfl
    · have hdiv : n / 10 < 10 ^ (width + 1) := by
        rw [Nat.pow_succ] at h
        omega
      rw [Nat.toDigits_of_base_le (by omega) hge, digits_concat, ← ih hdiv, List.length_append,
        List.length_singleton, ← List.append_assoc]
      congr 2
      congr 1
      omega

/-! ## Digits without trailing zeros -/

/-- The digits of a fraction, without trailing zeros. -/
def stripped : Nat → Nat → List Char
  | 0, _ => []
  | width + 1, f =>
    if f % 10 ^ (width + 1) = 0 then []
    else (f / 10 ^ width % 10).digitChar :: stripped width f

theorem stripped_eq_nil {width f : Nat} : stripped width f = [] ↔ f % 10 ^ width = 0 := by
  cases width with
  | zero => simp [stripped, Nat.mod_one]
  | succ width =>
    rw [stripped]
    split
    · rename_i h; simp [h]
    · rename_i h; simp [h]

theorem rdropWhile_cons {p : Char → Bool} {x : Char} {xs : List Char} :
    (x :: xs).rdropWhile p = if xs.rdropWhile p = [] ∧ p x = true then []
      else x :: xs.rdropWhile p := by
  induction xs using List.reverseRecOn with
  | nil =>
    rw [List.rdropWhile_singleton, List.rdropWhile_nil]
    by_cases hx : p x = true <;> simp [hx]
  | append_singleton ys y ih =>
    rw [← List.cons_append]
    by_cases hy : p y = true
    · rw [List.rdropWhile_concat_pos _ _ _ hy, List.rdropWhile_concat_pos _ _ _ hy, ih]
    · rw [List.rdropWhile_concat_neg _ _ _ hy, List.rdropWhile_concat_neg _ _ _ hy]
      simp

/-- A remainder is zero when its first digit and the rest of it are. -/
theorem mod_pow_succ_eq_zero {width f : Nat} :
    f % 10 ^ (width + 1) = 0 ↔ f % 10 ^ width = 0 ∧ f / 10 ^ width % 10 = 0 := by
  have hsplit : f % 10 ^ (width + 1) = f % 10 ^ width + 10 ^ width * (f / 10 ^ width % 10) := by
    rw [Nat.pow_succ, Nat.mod_mul]
  have hpos : 0 < 10 ^ width := Nat.pow_pos (by omega)
  rw [hsplit, Nat.add_eq_zero_iff, Nat.mul_eq_zero]
  constructor
  · rintro ⟨hrest, hpow | hdigit⟩
    · omega
    · exact ⟨hrest, hdigit⟩
  · exact fun h => ⟨h.1, .inr h.2⟩

theorem rdropWhile_digits (width f : Nat) :
    (digits width f).rdropWhile (· = '0') = stripped width f := by
  induction width with
  | zero => simp [digits, stripped]
  | succ width ih =>
    have hdigit : f / 10 ^ width % 10 < 10 := Nat.mod_lt _ (by omega)
    rw [digits, rdropWhile_cons, ih, stripped]
    simp only [stripped_eq_nil, decide_eq_true_eq, digitChar_eq_zero hdigit,
      mod_pow_succ_eq_zero]

theorem stripped_mod (width f : Nat) : stripped width (f % 10 ^ width) = stripped width f := by
  rw [← rdropWhile_digits, digits_mod, rdropWhile_digits]

/-! ## Order of fractions -/

/-- `f` is `g` cut to fewer digits. -/
def Cut (width f g : Nat) : Prop := ∃ k ≤ width, f = g - g % 10 ^ k

instance (width f g : Nat) : Decidable (Cut width f g) :=
  decidable_of_iff (∃ k < width + 1, f = g - g % 10 ^ k) (by simp only [Cut, Nat.lt_succ_iff])

theorem sub_mod_pow_div {k width g : Nat} (hk : k ≤ width) :
    (g - g % 10 ^ k) / 10 ^ width = g / 10 ^ width := by
  obtain ⟨j, rfl⟩ := Nat.exists_eq_add_of_le hk
  have hpos : 0 < 10 ^ k := Nat.pow_pos (by omega)
  have hcut : g - g % 10 ^ k = 10 ^ k * (g / 10 ^ k) := by
    have := Nat.div_add_mod g (10 ^ k)
    omega
  rw [Nat.pow_add, ← Nat.div_div_eq_div_mul, ← Nat.div_div_eq_div_mul, hcut,
    Nat.mul_div_cancel_left _ hpos]

theorem cut_succ {width f g : Nat} (hf : 0 < f) (hg : g < 10 ^ (width + 1)) :
    Cut (width + 1) f g ↔
      f / 10 ^ width = g / 10 ^ width ∧ Cut width (f % 10 ^ width) (g % 10 ^ width) := by
  have hdf := Nat.div_add_mod f (10 ^ width)
  have hdg := Nat.div_add_mod g (10 ^ width)
  have hmod : ∀ k ≤ width, g % 10 ^ width % 10 ^ k = g % 10 ^ k := fun k hk =>
    Nat.mod_mod_of_dvd g (Nat.pow_dvd_pow 10 hk)
  constructor
  · rintro ⟨k, hk, hcut⟩
    rcases Nat.lt_or_ge width k with hlt | hle
    · obtain rfl : k = width + 1 := by omega
      rw [Nat.mod_eq_of_lt hg] at hcut
      omega
    · have hdiv : f / 10 ^ width = g / 10 ^ width := by rw [hcut, sub_mod_pow_div hle]
      refine ⟨hdiv, k, hle, ?_⟩
      rw [hmod k hle]
      rw [hdiv] at hdf
      have hmodle := Nat.mod_le (g % 10 ^ width) (10 ^ k)
      rw [hmod k hle] at hmodle
      omega
  · rintro ⟨hdiv, k, hk, hcut⟩
    refine ⟨k, by omega, ?_⟩
    rw [hmod k hk] at hcut
    rw [hdiv] at hdf
    have hmodle := Nat.mod_le (g % 10 ^ width) (10 ^ k)
    rw [hmod k hk] at hmodle
    omega

section

variable {width f g : Nat} (hf : f < 10 ^ width) (hg : g < 10 ^ width) (hfg : f < g)
include hf hg hfg

theorem stripped_cut (hcut : Cut width f g) :
    ∃ n < 10, ∃ rest, stripped width g = stripped width f ++ n.digitChar :: rest := by
  induction width generalizing f g with
  | zero => rw [Nat.pow_zero] at hg; omega
  | succ width ih =>
    have hpos : 0 < 10 ^ width := Nat.pow_pos (by omega)
    have hdigit : g / 10 ^ width % 10 < 10 := Nat.mod_lt _ (by omega)
    have hgpos : g % 10 ^ (width + 1) ≠ 0 := by rw [Nat.mod_eq_of_lt hg]; omega
    rcases Nat.eq_zero_or_pos f with rfl | hfpos
    · refine ⟨_, hdigit, stripped width g, ?_⟩
      rw [stripped, if_neg hgpos, stripped_eq_nil.2 (Nat.zero_mod _), List.nil_append]
    · obtain ⟨hdiv, hrest⟩ := (cut_succ hfpos hg).1 hcut
      have hdf := Nat.div_add_mod f (10 ^ width)
      have hdg := Nat.div_add_mod g (10 ^ width)
      rw [hdiv] at hdf
      obtain ⟨n, hn, rest, heq⟩ := ih (Nat.mod_lt f hpos) (Nat.mod_lt g hpos) (by omega) hrest
      rw [stripped_mod, stripped_mod] at heq
      refine ⟨n, hn, rest, ?_⟩
      rw [stripped, stripped, if_neg hgpos, if_neg (by rw [Nat.mod_eq_of_lt hf]; omega), hdiv, heq,
        List.cons_append]

/-- **Fractions**: the smaller of two fractions has the smaller text whatever follows, unless it
is the greater one cut to fewer digits. -/
theorem stripped_lt (hcut : ¬ Cut width f g) (ps qs : List Char) :
    stripped width f ++ ps < stripped width g ++ qs := by
  induction width generalizing f g with
  | zero => rw [Nat.pow_zero] at hg; omega
  | succ width ih =>
    have hpos : 0 < 10 ^ width := Nat.pow_pos (by omega)
    have hfpos : 0 < f := by
      rcases Nat.eq_zero_or_pos f with rfl | hfpos
      · exact absurd ⟨width + 1, le_rfl, by rw [Nat.mod_eq_of_lt hg, Nat.sub_self]⟩ hcut
      · exact hfpos
    have hf' : f / 10 ^ width < 10 := Nat.div_lt_of_lt_mul (by rwa [Nat.pow_succ] at hf)
    have hg' : g / 10 ^ width < 10 := Nat.div_lt_of_lt_mul (by rwa [Nat.pow_succ] at hg)
    have hle : f / 10 ^ width ≤ g / 10 ^ width := Nat.div_le_div_right hfg.le
    rw [stripped, stripped, if_neg (by rw [Nat.mod_eq_of_lt hf]; omega),
      if_neg (by rw [Nat.mod_eq_of_lt hg]; omega), Nat.mod_eq_of_lt hf', Nat.mod_eq_of_lt hg',
      List.cons_append, List.cons_append, List.cons_lt_cons_iff, digitChar_lt hf' hg',
      digitChar_inj hf' hg']
    rcases Nat.lt_or_ge (f / 10 ^ width) (g / 10 ^ width) with hlt | hge
    · exact .inl hlt
    · have hdiv : f / 10 ^ width = g / 10 ^ width := by omega
      have hdf := Nat.div_add_mod f (10 ^ width)
      have hdg := Nat.div_add_mod g (10 ^ width)
      rw [hdiv] at hdf
      have hrest := ih (Nat.mod_lt f hpos) (Nat.mod_lt g hpos) (by omega)
        fun h => hcut ((cut_succ hfpos hg).2 ⟨hdiv, h⟩)
      rw [stripped_mod, stripped_mod] at hrest
      exact .inr ⟨hdiv, hrest⟩

end

end AgentPalace.FixedWidth
