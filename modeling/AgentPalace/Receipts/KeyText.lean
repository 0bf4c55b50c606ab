import AgentPalace.ChangeLog.Presence
import AgentPalace.Lib.TextSlice
import AgentPalace.Receipts.Exact

/-!
# Operation keys as text

A key is printed as its scope, a colon and its raw key, and stored in a receipt
as its scope and its raw key. Both are read back: the text splits at its first
colon, which no scope contains, and no owner id is one of the words that stand
for a missing owner.
-/

namespace AgentPalace

def OwnerId.new (s : String) : Except ProvenanceError OwnerId :=
  match h : validateOwnerId s with
  | .error e => .error e
  | .ok () => .ok ⟨s, h⟩

theorem OwnerId.new_str (o : OwnerId) : OwnerId.new o.str = .ok o := by
  unfold OwnerId.new
  split
  · rename_i e he
    rw [o.valid] at he
    cases he
  · rfl

namespace OwnerScopedKey

def fromStr (s : String) : Except ProvenanceError OwnerScopedKey :=
  let trimmed := trim s
  if trimmed = "" then .error (.emptyField "raw_key")
  else
    match splitOnceAt ':' trimmed.toList with
    | some (front, rest) =>
      let front := String.ofList front
      let lower := toAsciiLowercase front
      if lower = "legacy" ∨ lower = "unknown" then new none (String.ofList rest)
      else
        match OwnerId.new front with
        | .error e => .error e
        | .ok owner => new (some owner) (String.ofList rest)
    | none => new none trimmed

/-! ## The parts of a key -/

theorem new_rawKey (k : OwnerScopedKey) : new k.ownerId k.rawKey = .ok k := by
  obtain ⟨owner, raw, htrim, hvalid⟩ := k
  unfold new
  split
  · rename_i e he
    rw [htrim, hvalid] at he
    cases he
  · simp only [htrim]

theorem rawKey_ne_empty (k : OwnerScopedKey) : k.rawKey ≠ "" := by
  intro h
  have hvalid := k.valid
  rw [h] at hvalid
  revert hvalid
  decide

theorem trim_rawKey (k : OwnerScopedKey) :
    (k.rawKey.toList.dropWhile isWhitespace).rdropWhile isWhitespace = k.rawKey.toList := by
  have h := congrArg String.toList k.trimmed
  rwa [trim, String.toList_ofList] at h

theorem rdropWhile_rawKey (k : OwnerScopedKey) :
    k.rawKey.toList.rdropWhile isWhitespace = k.rawKey.toList := by
  have h := k.trim_rawKey
  have hfront : k.rawKey.toList.dropWhile isWhitespace = k.rawKey.toList := by
    refine (List.dropWhile_suffix isWhitespace).eq_of_length_le ?_
    have hle :=
      (List.rdropWhile_prefix isWhitespace (k.rawKey.toList.dropWhile isWhitespace)).length_le
    rwa [h] at hle
  rwa [hfront] at h

end OwnerScopedKey

def isOwnerChar (c : Char) : Bool := isAsciiAlphanumeric c || c == '_' || c == '-' || c == '.'

theorem isWhitespace_ownerChar {c : Char} (h : isOwnerChar c = true) : isWhitespace c = false := by
  have hascii : c.toNat < 128 := by
    simp only [isOwnerChar, Bool.or_eq_true, beq_iff_eq] at h
    obtain ((h | rfl) | rfl) | rfl := h
    · exact lt_of_isAsciiAlphanumeric h
    all_goals decide
  have hall : ∀ n < 128, isOwnerChar (Char.ofNat n) = true →
      isWhitespace (Char.ofNat n) = false := by decide
  have hchar := hall c.toNat hascii
  rw [Char.ofNat_toNat] at hchar
  exact hchar h

theorem OwnerId.chars (o : OwnerId) : o.str ≠ "" ∧ ∀ c ∈ o.str.toList, isOwnerChar c = true := by
  have h := o.valid
  unfold validateOwnerId at h
  split at h
  · cases h
  · rename_i hne
    split at h
    · cases h
    · split at h
      · cases h
      · exact ⟨hne, validateChars_ok.1 h⟩

namespace OwnerScopedKey

theorem scope_head (k : OwnerScopedKey) :
    ∃ c cs, k.scope.toList = c :: cs ∧ isWhitespace c = false := by
  unfold scope
  cases k.ownerId with
  | none => exact ⟨'l', _, rfl, by decide⟩
  | some owner =>
    obtain ⟨hne, hchars⟩ := owner.chars
    show ∃ c cs, owner.str.toList = c :: cs ∧ _
    cases htext : owner.str.toList with
    | nil => exact absurd (String.toList_injective htext) hne
    | cons c cs =>
      have hc := hchars c (by rw [htext]; exact List.mem_cons_self)
      exact ⟨c, cs, rfl, isWhitespace_ownerChar hc⟩

theorem trim_compositeKey (k : OwnerScopedKey) : trim k.compositeKey = k.compositeKey := by
  obtain ⟨c, cs, hscope, hc⟩ := k.scope_head
  have htext := ChangeLog.toList_compositeKey k
  have hfront : k.compositeKey.toList.dropWhile isWhitespace = k.compositeKey.toList := by
    rw [htext, hscope, List.cons_append, List.dropWhile_cons_of_neg (by simp [hc])]
  have hback : k.compositeKey.toList.rdropWhile isWhitespace = k.compositeKey.toList := by
    rw [List.rdropWhile_eq_self_iff]
    intro hne
    have hraw : k.rawKey.toList ≠ [] := fun h => k.rawKey_ne_empty (String.toList_injective h)
    have hlast : k.compositeKey.toList.getLast hne = k.rawKey.toList.getLast hraw := by
      simp only [htext]
      rw [List.getLast_append_of_ne_nil _ (List.cons_ne_nil _ _), List.getLast_cons hraw]
    rw [hlast]
    exact List.rdropWhile_eq_self_iff.1 k.rdropWhile_rawKey hraw
  have hkeep : (trim k.compositeKey).toList = k.compositeKey.toList := by
    rw [trim, String.toList_ofList]
    show (k.compositeKey.toList.dropWhile isWhitespace).rdropWhile isWhitespace = _
    rw [hfront, hback]
  exact String.toList_injective hkeep

theorem fromStr_compositeKey (k : OwnerScopedKey) : fromStr k.compositeKey = .ok k := by
  have hsplit : splitOnceAt ':' k.compositeKey.toList = some (k.scope.toList, k.rawKey.toList) := by
    rw [ChangeLog.toList_compositeKey, splitOnceAt_append k.colon_not_mem_scope]
  have hne : k.compositeKey ≠ "" := by
    intro h
    rw [h] at hsplit
    cases hsplit
  unfold fromStr
  simp only [k.trim_compositeKey, if_neg hne, hsplit, String.ofList_toList]
  cases howner : k.ownerId with
  | none =>
    have hscope : k.scope = "legacy" := by rw [scope, howner]; rfl
    rw [hscope, if_pos (.inl (by decide)), ← howner, k.new_rawKey]
  | some owner =>
    have hscope : k.scope = owner.str := by rw [scope, howner]; rfl
    have hreserved := owner.notReserved.1
    rw [hscope, if_neg, owner.new_str]
    · show new (some owner) k.rawKey = .ok k
      rw [← howner, k.new_rawKey]
    · rintro (h | h)
      · exact hreserved (by rw [h]; decide)
      · exact hreserved (by rw [h]; decide)

end OwnerScopedKey

namespace Receipts

/-- The key that `receipt_row` reads from the columns `owner_scope` and `operation_id`. -/
def keyOfColumns (columns : String × String) : Except ProvenanceError OwnerScopedKey :=
  if columns.1 = "legacy" then OwnerScopedKey.new none columns.2
  else
    match OwnerId.new columns.1 with
    | .error e => .error e
    | .ok owner => OwnerScopedKey.new (some owner) columns.2

theorem keyOfColumns_columns (k : OwnerScopedKey) : keyOfColumns (columns k) = .ok k := by
  unfold keyOfColumns columns
  cases howner : k.ownerId with
  | none =>
    have hscope : k.scope = "legacy" := by rw [OwnerScopedKey.scope, howner]; rfl
    rw [if_pos hscope, ← howner, k.new_rawKey]
  | some owner =>
    have hscope : k.scope = owner.str := by rw [OwnerScopedKey.scope, howner]; rfl
    simp only [hscope, if_neg owner.ne_legacy, owner.new_str]
    rw [← howner, k.new_rawKey]

/-- A key is read back from its text and from the columns of its receipt; so keys share
neither a text nor a receipt. -/
theorem key_text_lossless :
    (∀ k, OwnerScopedKey.fromStr k.compositeKey = .ok k) ∧
    Function.Injective OwnerScopedKey.compositeKey ∧
    (∀ k, keyOfColumns (columns k) = .ok k) ∧
    ∀ (db : ReceiptDb) k k' row, db.receipts.get? (columns k) = some row →
      db.receipts.get? (columns k') = some row → k = k' := by
  refine ⟨fun k => k.fromStr_compositeKey, ?_, keyOfColumns_columns, ?_⟩
  · intro k k' h
    have hparse := k.fromStr_compositeKey
    rw [h, k'.fromStr_compositeKey] at hparse
    exact (Except.ok.inj hparse).symm
  · intro db k k' row hrow hrow'
    exact (stored_own row hrow).symm.trans (stored_own row hrow')

end Receipts

end AgentPalace
