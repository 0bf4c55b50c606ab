import AgentPalace.Lib.Json
import AgentPalace.Lib.TextSlice
import Mathlib.Algebra.Order.BigOperators.Group.List

/-!
# Sizes of JSON text

The text of an object is as long as its fields, the commas between them and two
braces (`encodedSize_obj`). A quoted text takes at most six bytes for each of its
own (`quote_size`).
-/

namespace AgentPalace.Json

theorem intercalate_size (sep : String) (xs : List String) :
    (sep.intercalate xs).utf8ByteSize =
      (xs.map String.utf8ByteSize).sum + (xs.length - 1) * sep.utf8ByteSize := by
  induction xs with
  | nil => simp
  | cons x xs ih =>
    cases xs with
    | nil => simp
    | cons y ys =>
      rw [String.intercalate_cons_cons, String.utf8ByteSize_append, String.utf8ByteSize_append, ih]
      simp only [List.map_cons, List.sum_cons, List.length_cons, Nat.add_sub_cancel]
      rw [Nat.succ_mul]
      omega

/-- The bytes of a field. -/
def fieldSize (field : String × Json) : Nat :=
  (quote field.1).utf8ByteSize + 1 + field.2.encodedSize

theorem encodedSize_obj (fields : List (String × Json)) :
    (obj fields).encodedSize = (fields.map fieldSize).sum + (fields.length - 1) + 2 := by
  have hfields : ∀ fields, (encodeFields fields).map String.utf8ByteSize = fields.map fieldSize := by
    intro fields
    induction fields with
    | nil => rfl
    | cons field fields ih =>
      obtain ⟨name, x⟩ := field
      rw [encodeFields, List.map_cons, List.map_cons, ih, String.utf8ByteSize_append,
        String.utf8ByteSize_append]
      rfl
  have hlength : ∀ fields, (encodeFields fields).length = fields.length := by
    intro fields
    induction fields with
    | nil => rfl
    | cons field fields ih => rw [encodeFields, List.length_cons, List.length_cons, ih]
  have hopen : ("\x7b" : String).utf8ByteSize = 1 := rfl
  have hclose : ("\x7d" : String).utf8ByteSize = 1 := rfl
  have hcomma : (",").utf8ByteSize = 1 := rfl
  unfold encodedSize encode
  rw [String.utf8ByteSize_append, String.utf8ByteSize_append, intercalate_size, hfields, hlength,
    hcomma, Nat.mul_one]
  omega

theorem escapeChar_size (c : Char) : (escapeChar c).utf8ByteSize ≤ 6 * c.utf8Size := by
  have hpos := c.utf8Size_pos
  have hshort : ∀ s : String, s.utf8ByteSize = 2 → s.utf8ByteSize ≤ 6 * c.utf8Size := by
    intro s hs
    omega
  unfold escapeChar
  split_ifs with hquote hslash hback htab hline hfeed hreturn hcontrol
  · exact hshort _ rfl
  · exact hshort _ rfl
  · exact hshort _ rfl
  · exact hshort _ rfl
  · exact hshort _ rfl
  · exact hshort _ rfl
  · exact hshort _ rfl
  · have hdigit : ∀ n, n < 16 → (Nat.digitChar n).utf8Size = 1 := by decide
    have hcode : ("\\u00").utf8ByteSize = 4 := rfl
    have hdigits : (String.ofList
        [Nat.digitChar (c.toNat / 16), Nat.digitChar (c.toNat % 16)]).utf8ByteSize = 2 := by
      rw [utf8ByteSize_ofList, utf8Bytes_cons, utf8Bytes_cons, hdigit _ (by omega),
        hdigit _ (by omega)]
      rfl
    rw [String.utf8ByteSize_append]
    omega
  · rw [String.utf8ByteSize_singleton]
    omega

theorem quote_size (s : String) : (quote s).utf8ByteSize ≤ 6 * s.utf8ByteSize + 2 := by
  have hjoin : ∀ cs : List Char,
      (String.join (cs.map escapeChar)).utf8ByteSize ≤ 6 * utf8Bytes cs := by
    intro cs
    induction cs with
    | nil => exact Nat.zero_le _
    | cons c cs ih =>
      have := escapeChar_size c
      rw [List.map_cons, String.join_cons, String.utf8ByteSize_append, utf8Bytes_cons]
      omega
  have hchars : s.utf8ByteSize = utf8Bytes s.toList := by
    rw [← utf8ByteSize_ofList, String.ofList_toList]
  have hquote : ("\"").utf8ByteSize = 1 := rfl
  have := hjoin s.toList
  unfold quote
  rw [String.utf8ByteSize_append, String.utf8ByteSize_append]
  omega

theorem encodedSize_obj_le {fields fields' : List (String × Json)} {slack : Nat}
    (h : List.Forall₂ (fun f f' => fieldSize f ≤ fieldSize f' + slack) fields fields') :
    (obj fields).encodedSize ≤ (obj fields').encodedSize + fields'.length * slack := by
  have hsum : (fields.map fieldSize).sum ≤ (fields'.map fieldSize).sum + fields'.length * slack := by
    induction h with
    | nil => exact Nat.zero_le _
    | cons hfield _ ih =>
      simp only [List.map_cons, List.sum_cons, List.length_cons, Nat.succ_mul]
      omega
  rw [encodedSize_obj, encodedSize_obj, h.length_eq]
  omega

end AgentPalace.Json
