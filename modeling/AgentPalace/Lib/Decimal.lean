import AgentPalace.Lib.Json
import AgentPalace.Lib.Table
import Mathlib.Algebra.Group.Nat.Defs

/-!
# Decimal integers of 64 bits

`parseI64` reads what `i64` prints: an optional sign and decimal digits, within
64 bits. A number below the bound is read back from its text, whose quoted form
takes at most 21 bytes.
-/

namespace AgentPalace

/-- The value of a non-empty run of decimal digits. -/
def parseDigits (cs : List Char) : Option Nat :=
  if cs.isEmpty || !cs.all Char.isDigit then none else some (Nat.ofDigitChars 10 cs 0)

/-- `str::parse::<i64>`. -/
def parseI64 (s : String) : Option Int :=
  let value : Option Int :=
    match s.toList with
    | '-' :: cs => (parseDigits cs).map fun n => -(n : Int)
    | '+' :: cs => (parseDigits cs).map fun n => (n : Int)
    | cs => (parseDigits cs).map fun n => (n : Int)
  value.filter fun n => -maxRowid - 1 ≤ n ∧ n ≤ maxRowid

theorem toList_toString (n : Nat) : (toString (n : Int)).toList = Nat.toDigits 10 n :=
  Nat.toList_repr

theorem isDigit_of_mem_toString {n : Nat} {c : Char} (h : c ∈ (toString (n : Int)).toList) :
    c.isDigit = true := by
  rw [toList_toString] at h
  exact Nat.isDigit_of_mem_toDigits (by omega) (by omega) h

theorem parseDigits_toDigits (n : Nat) : parseDigits (Nat.toDigits 10 n) = some n := by
  have hne : Nat.toDigits 10 n ≠ [] := Nat.toDigits_ne_nil
  have hall : (Nat.toDigits 10 n).all Char.isDigit = true :=
    List.all_eq_true.2 fun c hc => Nat.isDigit_of_mem_toDigits (by omega) (by omega) hc
  simp [parseDigits, hne, hall, Nat.ofDigitChars_ten_toDigits]

theorem parseI64_toString {n : Nat} (h : (n : Int) ≤ maxRowid) :
    parseI64 (toString (n : Int)) = some (n : Int) := by
  have hsign : ∀ c ∈ Nat.toDigits 10 n, c ≠ '-' ∧ c ≠ '+' := by
    intro c hc
    have := Nat.isDigit_of_mem_toDigits (by omega) (by omega) hc
    constructor <;> (rintro rfl; revert this; decide)
  have hlow : -maxRowid - 1 ≤ (n : Int) := by
    have : 0 ≤ maxRowid := by decide
    omega
  simp only [parseI64, toList_toString]
  split
  · rename_i heq
    exact absurd rfl (hsign '-' (by simp [heq])).1
  · rename_i heq
    exact absurd rfl (hsign '+' (by simp [heq])).2
  · rw [parseDigits_toDigits]
    exact Option.filter_some_pos (decide_eq_true ⟨hlow, h⟩)

/-- `str::parse::<u64>`. -/
def parseU64 (s : String) : Option Nat :=
  let value := match s.toList with
    | '+' :: cs => parseDigits cs
    | cs => parseDigits cs
  value.filter fun n => n < 2 ^ 64

theorem parseU64_toString {n : Nat} (h : n < 2 ^ 64) : parseU64 (toString (n : Int)) = some n := by
  have hsign : ∀ c ∈ Nat.toDigits 10 n, c ≠ '+' := by
    intro c hc
    have := Nat.isDigit_of_mem_toDigits (by omega) (by omega) hc
    rintro rfl
    revert this
    decide
  simp only [parseU64, toList_toString]
  split
  · rename_i heq
    exact absurd rfl (hsign '+' (by simp [heq]))
  · rw [parseDigits_toDigits]
    exact Option.filter_some_pos (decide_eq_true h)

theorem escapeChar_digit {c : Char} (h : c.isDigit = true) :
    Json.escapeChar c = String.singleton c := by
  have hc : 48 ≤ c.toNat := by
    simp only [Char.isDigit, Bool.and_eq_true, decide_eq_true_eq] at h
    exact h.1
  have hq : c ≠ '"' := by rintro rfl; revert h; decide
  have hb : c ≠ '\\' := by rintro rfl; revert h; decide
  simp only [Json.escapeChar, if_neg hq, if_neg hb]
  rw [if_neg, if_neg, if_neg, if_neg, if_neg, if_neg] <;> omega

theorem utf8Size_digit {c : Char} (h : c.isDigit = true) : c.utf8Size = 1 := by
  have hc : c.val.toNat ≤ 57 := by
    simp only [Char.isDigit, Bool.and_eq_true, decide_eq_true_eq] at h
    exact h.2
  refine Char.utf8Size_eq_one_iff.2 ?_
  show c.val.toNat ≤ 127
  omega

theorem size_escaped_digits {cs : List Char} (h : ∀ c ∈ cs, c.isDigit = true) :
    (String.join (cs.map Json.escapeChar)).utf8ByteSize = cs.length := by
  induction cs with
  | nil => rfl
  | cons c cs ih =>
    have hc : c.isDigit = true := h c (by simp)
    rw [List.map_cons, String.join_cons, String.utf8ByteSize_append, escapeChar_digit hc,
      String.utf8ByteSize_singleton, utf8Size_digit hc, ih fun c hc => h c (by simp [hc]),
      List.length_cons]
    omega

theorem quotedSize_toString {n : Nat} (h : (n : Int) ≤ maxRowid) :
    (Json.str (toString (n : Int))).encodedSize ≤ 21 := by
  have hlen : (Nat.repr n).length ≤ 19 := by
    rw [Nat.length_repr_le_iff (by omega)]
    simp only [maxRowid] at h
    omega
  have hsize := size_escaped_digits fun c hc => isDigit_of_mem_toString (n := n) hc
  have hchars : (toString (n : Int)).toList.length = (Nat.repr n).length := rfl
  simp only [Json.encodedSize, Json.encode, Json.quote, String.utf8ByteSize_append, hsize, hchars]
  have hquote : "\"".utf8ByteSize = 1 := rfl
  omega

end AgentPalace
