import AgentPalace.Lib.Url

/-!
# Texts in the place of a path segment

Two ways to put a text into the path of a URL: inside a relative reference that
is joined to a base (`joinRelative`), and as one segment that is appended
(`pushPathSegment`). `percentDecode` reads a segment back.
-/

namespace AgentPalace.Url

def isSchemeChar (c : Char) : Bool := c.isAlphanum || "+-.".toList.elem c

/-- A text that is an absolute URL, or has the form of one. -/
def startsWithScheme : List Char → Bool
  | c :: rest => c.isAlpha && (rest.dropWhile isSchemeChar).head? == some ':'
  | [] => false

/-- Resolve a reference to a path below a base with a special scheme; its last segment is
replaced. Other references are left to a parameter. -/
def joinRelative (parseOther : Url → List Char → Option Url) (base : Url) (input : List Char) :
    Option Url :=
  match cleaned input with
  | c :: rest =>
    if "/\\?#".toList.elem c || startsWithScheme (c :: rest) then parseOther base (c :: rest)
    else some (pathState base (c :: rest) [] base.path.dropLast)
  | [] => parseOther base []

def segmentSet (c : Char) : Bool := pathSet c || "/%\\".toList.elem c

def isSkipped (c : Char) : Bool := c == '\t' || c == '\n' || c == '\r'

/-- Append one segment, with slashes and percent signs encoded. Dot segments are not appended. -/
def pushPathSegment (u : Url) (segment : List Char) : Url :=
  if segment = ['.'] ∨ segment = ['.', '.'] then u
  else { u with
    path := pushSegment false (percentEncode segmentSet (segment.filter fun c => !isSkipped c)) u.path }

def hexValue (c : Char) : Option Nat :=
  let n := c.toNat
  if 48 ≤ n ∧ n ≤ 57 then some (n - 48)
  else if 65 ≤ n ∧ n ≤ 70 then some (n - 55)
  else if 97 ≤ n ∧ n ≤ 102 then some (n - 87)
  else none

/-- The byte of an escape. -/
def escapedByte (c a b : Char) : Option UInt8 :=
  match hexValue a, hexValue b with
  | some m, some n => if c = '%' then some (UInt8.ofNat (16 * m + n)) else none
  | _, _ => none

def percentDecode : List Char → List UInt8
  | [] => []
  | [c] => String.utf8EncodeChar c
  | [c, d] => String.utf8EncodeChar c ++ String.utf8EncodeChar d
  | c :: a :: b :: rest =>
    match escapedByte c a b with
    | some byte => byte :: percentDecode rest
    | none => String.utf8EncodeChar c ++ percentDecode (a :: b :: rest)

/-- The bytes of a text. -/
def utf8 (cs : List Char) : List UInt8 := cs.flatMap String.utf8EncodeChar

/-! ## Decoding -/

theorem utf8_inj {cs ds : List Char} (h : utf8 cs = utf8 ds) : cs = ds := by
  have hencode : cs.utf8Encode = ds.utf8Encode := congrArg List.toByteArray h
  have hstring : String.ofList cs = String.ofList ds := by
    rw [← String.toByteArray_inj, String.toByteArray_ofList, String.toByteArray_ofList, hencode]
  simpa using congrArg String.toList hstring

def escapeAt : List Char → Option UInt8
  | c :: a :: b :: _ => escapedByte c a b
  | _ => none

theorem percentDecode_cons {c : Char} {rest : List Char} (h : escapeAt (c :: rest) = none) :
    percentDecode (c :: rest) = String.utf8EncodeChar c ++ percentDecode rest := by
  match rest with
  | [] => simp [percentDecode]
  | [_] => simp [percentDecode]
  | a :: b :: rest =>
    have h : escapedByte c a b = none := h
    rw [percentDecode, h]

theorem percentDecode_escape {c a b : Char} {byte : UInt8} {rest : List Char}
    (h : escapedByte c a b = some byte) :
    percentDecode (c :: a :: b :: rest) = byte :: percentDecode rest := by
  rw [percentDecode, h]

theorem escapedByte_eq_some {c a b : Char} {byte : UInt8} (h : escapedByte c a b = some byte) :
    c = '%' ∧ ∃ m n, hexValue a = some m ∧ hexValue b = some n := by
  unfold escapedByte at h
  split at h
  · rename_i m n hm hn
    split at h
    · exact ⟨‹_›, m, n, hm, hn⟩
    · cases h
  · cases h

theorem escapeAt_of_ne {c : Char} {rest : List Char} (h : c ≠ '%') : escapeAt (c :: rest) = none := by
  match rest with
  | [] => rfl
  | [_] => rfl
  | a :: b :: rest =>
    by_contra hsome
    obtain ⟨byte, hbyte⟩ := Option.ne_none_iff_exists'.1 hsome
    exact h (escapedByte_eq_some hbyte).1

def hasEscape : List Char → Bool
  | [] => false
  | c :: rest => (escapeAt (c :: rest)).isSome || hasEscape rest

theorem length_utf8EncodeChar_pos (c : Char) : 0 < (String.utf8EncodeChar c).length :=
  List.length_pos_iff.2 String.utf8EncodeChar_ne_nil

theorem percentDecode_length (cs : List Char) : (percentDecode cs).length ≤ (utf8 cs).length := by
  induction cs using percentDecode.induct with
  | case1 => exact Nat.le_refl 0
  | case2 c => simp [percentDecode, utf8]
  | case3 c d => simp [percentDecode, utf8]
  | case4 c a b rest byte h ih =>
    have hc := length_utf8EncodeChar_pos c
    rw [percentDecode_escape h]
    simp only [utf8, List.flatMap_cons, List.length_append, List.length_cons] at ih ⊢
    omega
  | case5 c a b rest h ih =>
    have hnone : escapeAt (c :: a :: b :: rest) = none := h
    rw [percentDecode_cons hnone]
    simp only [utf8, List.flatMap_cons, List.length_append] at ih ⊢
    omega

theorem percentDecode_self {cs : List Char} (h : hasEscape cs = false) : percentDecode cs = utf8 cs := by
  induction cs with
  | nil => rfl
  | cons c rest ih =>
    rw [hasEscape, Bool.or_eq_false_iff, Option.isSome_eq_false_iff, Option.isNone_iff_eq_none] at h
    rw [percentDecode_cons h.1, ih h.2]
    rfl

/-- Only a text without escapes is decoded to its own bytes. -/
theorem percentDecode_eq_utf8 {cs : List Char} :
    percentDecode cs = utf8 cs ↔ hasEscape cs = false := by
  refine ⟨fun h => ?_, percentDecode_self⟩
  induction cs with
  | nil => rfl
  | cons c rest ih =>
    cases hat : escapeAt (c :: rest) with
    | none =>
      rw [percentDecode_cons hat, utf8, List.flatMap_cons] at h
      rw [hasEscape, hat]
      exact ih (List.append_cancel_left h)
    | some byte =>
      match rest with
      | [] => cases hat
      | [_] => cases hat
      | a :: b :: rest =>
        have hlength := congrArg List.length h
        have hle := percentDecode_length rest
        have ha := length_utf8EncodeChar_pos a
        have hb := length_utf8EncodeChar_pos b
        have hc := length_utf8EncodeChar_pos c
        rw [percentDecode_escape hat] at hlength
        simp only [utf8, List.flatMap_cons, List.length_append, List.length_cons] at hle hlength
        omega

/-! ### Decoding what was encoded -/

theorem hexValue_hexDigit {n : Nat} (hn : n < 16) : hexValue (hexDigit n) = some n := by
  have h : ∀ n < 16, hexValue (hexDigit n) = some n := by decide
  exact h n hn

theorem percentDecode_encodeByte (b : UInt8) (rest : List Char) :
    percentDecode (percentEncodeByte b ++ rest) = b :: percentDecode rest := by
  have hb : b.toNat < 256 := b.toNat_lt
  refine percentDecode_escape ?_
  have hval : 16 * (b.toNat / 16) + b.toNat % 16 = b.toNat := by omega
  simp [escapedByte, hexValue_hexDigit (show b.toNat / 16 < 16 by omega),
    hexValue_hexDigit (show b.toNat % 16 < 16 by omega), hval]

theorem percentDecode_encodeBytes (bytes : List UInt8) (rest : List Char) :
    percentDecode (bytes.flatMap percentEncodeByte ++ rest) = bytes ++ percentDecode rest := by
  induction bytes with
  | nil => rfl
  | cons b bytes ih =>
    rw [List.flatMap_cons, List.append_assoc, percentDecode_encodeByte, ih, List.cons_append]

theorem percentDecode_encode {set : Char → Bool} (hpercent : set '%' = true) (cs : List Char) :
    percentDecode (percentEncode set cs) = utf8 cs := by
  induction cs with
  | nil => rfl
  | cons c cs ih =>
    rw [percentEncode_cons, utf8, List.flatMap_cons]
    unfold percentEncodeChar
    split
    · rw [percentDecode_encodeBytes, ih]
      rfl
    · rename_i hset
      have hne : c ≠ '%' := fun h => hset (h ▸ hpercent)
      rw [List.singleton_append, percentDecode_cons (escapeAt_of_ne hne), ih]
      rfl

theorem hexValue_percent : hexValue '%' = none := by decide

theorem hex_head {set : Char → Bool} {cs : List Char} {d : Char} {rest : List Char} {n : Nat}
    (h : percentEncode set cs = d :: rest) (hd : hexValue d = some n) :
    ∃ cs', cs = d :: cs' ∧ rest = percentEncode set cs' := by
  cases cs with
  | nil => cases h
  | cons c cs =>
    rw [percentEncode_cons] at h
    unfold percentEncodeChar at h
    split at h
    · obtain ⟨b, bytes, hbytes⟩ := List.exists_cons_of_ne_nil (@String.utf8EncodeChar_ne_nil c)
      rw [hbytes, List.flatMap_cons] at h
      have hhead : '%' = d := (List.cons.inj h).1
      rw [← hhead, hexValue_percent] at hd
      cases hd
    · obtain ⟨rfl, rfl⟩ := List.cons.inj h
      exact ⟨cs, rfl, rfl⟩

theorem percentDecode_encode_cons {set : Char → Bool} {c : Char} {cs : List Char}
    (h : escapeAt (c :: cs) = none) : percentDecode (percentEncode set (c :: cs)) =
      String.utf8EncodeChar c ++ percentDecode (percentEncode set cs) := by
  rw [percentEncode_cons]
  unfold percentEncodeChar
  split
  · exact percentDecode_encodeBytes _ _
  · rw [List.singleton_append]
    refine percentDecode_cons ?_
    by_contra hsome
    obtain ⟨byte, hbyte⟩ := Option.ne_none_iff_exists'.1 hsome
    generalize htail : percentEncode set cs = encoded at hbyte
    match encoded, hbyte with
    | a :: b :: rest, hbyte =>
      have hbyte : escapedByte c a b = some byte := hbyte
      obtain ⟨_, m, n, hm, hn⟩ := escapedByte_eq_some hbyte
      obtain ⟨cs', rfl, hrest⟩ := hex_head htail hm
      obtain ⟨cs'', rfl, _⟩ := hex_head hrest.symm hn
      have hnone : escapedByte c a b = none := h
      rw [hnone] at hbyte
      cases hbyte

theorem percentDecode_encode_self {set : Char → Bool} (hpercent : set '%' = false)
    (hhex : ∀ c n, hexValue c = some n → set c = false) (cs : List Char) :
    percentDecode (percentEncode set cs) = percentDecode cs := by
  induction cs using percentDecode.induct with
  | case1 => rfl
  | case2 c =>
    rw [percentDecode_encode_cons rfl, percentDecode_cons rfl]
    rfl
  | case3 c d =>
    rw [percentDecode_encode_cons rfl, percentDecode_encode_cons rfl, percentDecode_cons rfl,
      percentDecode_cons rfl]
    rfl
  | case4 c a b rest byte h ih =>
    obtain ⟨rfl, m, n, hm, hn⟩ := escapedByte_eq_some h
    have hplain : ∀ d, set d = false → percentEncodeChar set d = [d] := fun d hd => by
      simp [percentEncodeChar, hd]
    rw [percentEncode_cons, percentEncode_cons, percentEncode_cons, hplain _ hpercent,
      hplain _ (hhex _ _ hm), hplain _ (hhex _ _ hn)]
    exact (percentDecode_escape h).trans ((congrArg _ ih).trans (percentDecode_escape h).symm)
  | case5 c a b rest h ih =>
    have hnone : escapeAt (c :: a :: b :: rest) = none := h
    rw [percentDecode_encode_cons hnone, percentDecode_cons hnone, ih]

theorem pathSet_hex (c : Char) (n : Nat) (h : hexValue c = some n) : pathSet c = false := by
  have hsmall : ∀ k < 103, (hexValue (Char.ofNat k)).isSome → pathSet (Char.ofNat k) = false := by
    decide
  have hle : c.toNat < 103 := by
    unfold hexValue at h
    dsimp only at h
    split at h
    · omega
    · split at h
      · omega
      · split at h
        · omega
        · cases h
  have hc := hsmall c.toNat hle
  rw [Char.ofNat_toNat] at hc
  exact hc (by rw [h]; rfl)

/-! ## Joining -/

def isInside (c : Char) : Bool := !(c == '/' || c == '\\' || c == '?' || c == '#')

theorem pathState_inside (base : Url) {cs : List Char} (h : ∀ c ∈ cs, isInside c = true)
    (rest segment : List Char) (path : List (List Char)) :
    pathState base (cs ++ rest) segment path =
      pathState base rest (segment ++ percentEncode pathSet cs) path := by
  induction cs generalizing segment with
  | nil => simp [percentEncode]
  | cons c cs ih =>
    rw [List.forall_mem_cons] at h
    have hc := h.1
    simp only [isInside, Bool.not_eq_true', Bool.or_eq_false_iff, beq_eq_false_iff_ne] at hc
    obtain ⟨⟨⟨hslash, hback⟩, hquery⟩, hhash⟩ := hc
    rw [List.cons_append, pathState, if_neg (by simp [hslash, hback]), if_neg hquery,
      if_neg hhash, ih h.2, percentEncode_cons, List.append_assoc]

theorem pathState_slash (base : Url) (rest segment : List Char) (path : List (List Char)) :
    pathState base ('/' :: rest) segment path =
      pathState base rest [] (pushSegment true segment path) := by
  rw [pathState, if_pos (.inl rfl)]

/-- There is a query or a fragment just where a mark for one is. -/
theorem pathState_bare (base : Url) (cs segment : List Char) (path : List (List Char)) :
    (pathState base cs segment path).query = none ∧ (pathState base cs segment path).fragment = none ↔
      ∀ c ∈ cs, c ≠ '?' ∧ c ≠ '#' := by
  induction cs generalizing segment path with
  | nil => simp [pathState]
  | cons c rest ih =>
    rw [List.forall_mem_cons, pathState]
    split
    · rename_i hc
      rw [ih]
      rcases hc with rfl | rfl <;> simp
    · split
      · rename_i hc
        simp [hc]
      · split
        · rename_i hc
          simp [hc]
        · rename_i hquery hhash
          rw [ih]
          simp [hquery, hhash]

/-! ### Where segments come from -/

/-- An empty segment, or one that is a part of a text, with no separator in it. -/
def PieceOf (text segment : List Char) : Prop :=
  segment = [] ∨ ∃ piece, segment = percentEncode pathSet piece ∧ piece <:+: text ∧
    (∀ c ∈ piece, isInside c = true) ∧ isDots segment = false

/-- A path that was cut somewhere within its first `n` segments and goes on with pieces of a text. -/
def Cut (n : Nat) (text : List Char) (path : List (List Char)) : Prop :=
  ∃ old new, path = old ++ new ∧ old.length ≤ n ∧ ∀ s ∈ new, PieceOf text s

theorem Cut.concat {n : Nat} {text segment : List Char} {path : List (List Char)}
    (h : Cut n text path) (hsegment : PieceOf text segment) : Cut n text (path ++ [segment]) := by
  obtain ⟨old, new, rfl, hold, hnew⟩ := h
  refine ⟨old, new ++ [segment], List.append_assoc _ _ _, hold, fun s hs => ?_⟩
  rcases List.mem_append.1 hs with hs | hs
  · exact hnew s hs
  · exact List.mem_singleton.1 hs ▸ hsegment

theorem Cut.dropLast {n : Nat} {text : List Char} {path : List (List Char)} (h : Cut n text path) :
    Cut n text path.dropLast := by
  obtain ⟨old, new, rfl, hold, hnew⟩ := h
  by_cases hempty : new = []
  · refine ⟨old.dropLast, [], by simp [hempty], ?_, by simp⟩
    rw [List.length_dropLast]
    omega
  · exact ⟨old, new.dropLast, List.dropLast_append_of_ne_nil hempty, hold,
      fun s hs => hnew s (List.mem_of_mem_dropLast hs)⟩

theorem Cut.pushSegment {n : Nat} {text segment : List Char} {path : List (List Char)}
    (h : Cut n text path) (hsegment : isDots segment = false → PieceOf text segment)
    (slash : Bool) : Cut n text (pushSegment slash segment path) := by
  unfold Url.pushSegment
  by_cases hdouble : isDoubleDot segment = true
  · rw [if_pos hdouble]
    split
    · exact h.dropLast
    · exact h.dropLast.concat (.inl rfl)
  · rw [if_neg hdouble]
    by_cases hsingle : isSingleDot segment = true
    · rw [if_pos hsingle]
      split
      · exact h
      · exact h.concat (.inl rfl)
    · rw [if_neg hsingle]
      exact h.concat (hsegment (by simp [isDots, hdouble, hsingle]))

theorem pathState_cut (base : Url) {n : Nat} {text pre raw cs : List Char}
    {path : List (List Char)} (htext : text = pre ++ raw ++ cs)
    (hraw : ∀ c ∈ raw, isInside c = true) (h : Cut n text path) :
    Cut n text (pathState base cs (percentEncode pathSet raw) path).path := by
  have hpiece : ∀ cs, text = pre ++ raw ++ cs →
      isDots (percentEncode pathSet raw) = false → PieceOf text (percentEncode pathSet raw) :=
    fun cs htext hdots => .inr ⟨raw, rfl, ⟨pre, cs, htext.symm⟩, hraw, hdots⟩
  induction cs generalizing pre raw path with
  | nil => exact h.pushSegment (hpiece _ htext) false
  | cons c rest ih =>
    have hpush := fun slash => h.pushSegment (hpiece _ htext) slash
    unfold pathState
    by_cases hslash : c = '/' ∨ c = '\\'
    · rw [if_pos hslash]
      have htext' : text = pre ++ raw ++ [c] ++ [] ++ rest := by simp [htext]
      refine @ih (pre ++ raw ++ [c]) [] _ htext' (by simp) (hpush true) fun cs htext hdots => ?_
      exact .inl rfl
    · rw [if_neg hslash]
      by_cases hquery : c = '?'
      · rw [if_pos hquery]
        exact hpush false
      · rw [if_neg hquery]
        by_cases hhash : c = '#'
        · rw [if_pos hhash]
          exact hpush false
        · rw [if_neg hhash]
          have hencode : percentEncode pathSet raw ++ percentEncodeChar pathSet c =
              percentEncode pathSet (raw ++ [c]) := by
            rw [percentEncode_append]
            simp [percentEncode]
          have htext' : text = pre ++ (raw ++ [c]) ++ rest := by simp [htext]
          have hraw' : ∀ d ∈ raw ++ [c], isInside d = true := by
            intro d hd
            rcases List.mem_append.1 hd with hd | hd
            · exact hraw d hd
            · rw [List.mem_singleton.1 hd]
              simp only [not_or] at hslash
              simp [isInside, hslash, hquery, hhash]
          rw [hencode]
          exact ih htext' hraw' h fun cs htext hdots =>
            .inr ⟨raw ++ [c], rfl, ⟨pre, cs, htext.symm⟩, hraw', hdots⟩

/-- A segment behind the first `n` ones is a piece of the text. -/
theorem Cut.piece {text segment : List Char} {fixed rest : List (List Char)}
    (h : Cut fixed.length text (fixed ++ segment :: rest)) : PieceOf text segment := by
  obtain ⟨old, new, heq, hold, hnew⟩ := h
  rcases List.append_eq_append_iff.1 heq with ⟨mid, hmid, htail⟩ | ⟨mid, hmid, htail⟩
  · have hlength := congrArg List.length hmid
    rw [List.length_append] at hlength
    have hnil : mid = [] := List.length_eq_zero_iff.1 (by omega)
    rw [hnil] at htail
    exact hnew segment (by rw [← List.nil_append new, ← htail]; exact List.mem_cons_self)
  · exact hnew segment (by rw [htail]; simp)

/-! ### Texts that stay in their segment -/

structure Word (w : List Char) : Prop where
  inside : ∀ c ∈ w, isInside c = true
  plain : ∀ c ∈ w, pathSet c = false
  visible : ∀ c ∈ w, ' ' < c
  dots : isDots w = false
  percent : '%' ∉ w
  nonempty : w ≠ []

def isWord (w : List Char) : Bool :=
  w != [] && !isDots w && w.all fun c => isInside c && !pathSet c && !isStripped c && c != '%'

theorem word_of_isWord {w : List Char} (h : isWord w = true) : Word w := by
  simp only [isWord, Bool.and_eq_true, List.all_eq_true, Bool.not_eq_true', bne_iff_ne] at h
  obtain ⟨⟨hne, hdots⟩, hchars⟩ := h
  refine ⟨fun c hc => (hchars c hc).1.1.1, fun c hc => (hchars c hc).1.1.2, fun c hc => ?_, hdots,
    fun hc => (hchars _ hc).2 rfl, hne⟩
  simpa [isStripped] using (hchars c hc).1.2

/-- What follows a text in a reference: nothing, or one more segment. -/
def tailText (tail : Option (List Char)) : List Char := tail.elim [] ('/' :: ·)

/-- What is left of a text at the end of a reference. -/
def cleanedEnd (cs : List Char) : List Char :=
  ((cs.reverse.dropWhile isStripped).reverse).filter fun c => !isSkipped c

def bodyOf (tail : Option (List Char)) (cs : List Char) : List Char :=
  if tail = none then cleanedEnd cs else cs.filter fun c => !isSkipped c

/-- Whether a text stays in its segment when a reference that contains it is joined; at the end of
the reference spaces and control characters are cut off. -/
def staysInside (tail : Option (List Char)) (cs : List Char) : Bool :=
  cs.all (fun c => isInside c && !isSkipped c) && !isDots cs && !hasEscape cs &&
    (tail.isSome || cs.getLast?.all fun c => !isStripped c)

theorem dropWhile_visible {p : List Char} (hp : ∀ c ∈ p, ' ' < c) (hne : p ≠ []) (cs : List Char) :
    (p ++ cs).dropWhile isStripped = p ++ cs := by
  obtain ⟨c, p, rfl⟩ := List.exists_cons_of_ne_nil hne
  have hc : isStripped c = false := by simpa [isStripped] using hp c List.mem_cons_self
  rw [List.cons_append, List.dropWhile_cons_of_neg (by simp [hc])]

theorem filter_visible {p : List Char} (hp : ∀ c ∈ p, ' ' < c) :
    p.filter (fun c => !isSkipped c) = p := by
  refine List.filter_eq_self.2 fun c hc => ?_
  have hne : ∀ d : Char, d ≤ ' ' → c ≠ d := fun d hd he => absurd (he ▸ hp c hc) (by simpa using hd)
  simp [isSkipped, hne '\t' (by decide), hne '\n' (by decide), hne '\r' (by decide)]

theorem cleaned_append {p : List Char} (hp : ∀ c ∈ p, ' ' < c) (hne : p ≠ []) (cs : List Char) :
    cleaned (p ++ cs) = p ++ cleanedEnd cs := by
  have hlast : p.reverse.dropWhile isStripped = p.reverse := by
    have h := dropWhile_visible (p := p.reverse) (by simpa using hp) (by simpa using hne) []
    rwa [List.append_nil] at h
  have hrest : (p ++ cs).reverse.dropWhile isStripped = cs.reverse.dropWhile isStripped ++ p.reverse := by
    rw [List.reverse_append, List.dropWhile_append]
    split
    · rename_i hempty
      rw [hlast, List.isEmpty_iff.1 hempty, List.nil_append]
    · rfl
  unfold cleaned cleanedEnd
  rw [dropWhile_visible hp hne, hrest, List.reverse_append, List.reverse_reverse, List.filter_append]
  congr 1
  exact filter_visible hp

theorem cleanedEnd_sublist (cs : List Char) : (cleanedEnd cs).Sublist cs := by
  refine List.filter_sublist.trans ?_
  have h := (List.dropWhile_sublist isStripped (l := cs.reverse)).reverse
  rwa [List.reverse_reverse] at h

theorem utf8_length_le {cs ds : List Char} (h : cs.Sublist ds) :
    (utf8 cs).length ≤ (utf8 ds).length := by
  induction h with
  | slnil => exact Nat.le_refl _
  | cons c _ ih =>
    simp only [utf8, List.flatMap_cons, List.length_append] at ih ⊢
    omega
  | cons_cons c _ ih =>
    simp only [utf8, List.flatMap_cons, List.length_append] at ih ⊢
    omega

/-- A part of a text that is as long as the text is the text. -/
theorem eq_of_utf8_length {cs ds : List Char} (h : cs.Sublist ds)
    (hlength : (utf8 ds).length ≤ (utf8 cs).length) : cs = ds := by
  induction h with
  | slnil => rfl
  | cons c h _ =>
    have hc := length_utf8EncodeChar_pos c
    have := utf8_length_le h
    simp only [utf8, List.flatMap_cons, List.length_append] at hlength this
    omega
  | cons_cons c h ih =>
    simp only [utf8, List.flatMap_cons, List.length_append] at hlength ih
    rw [ih (by omega)]

theorem pathSet_toLower {c : Char} (h : pathSet c = true) : c.toLower = c := by
  by_contra hlower
  have hsmall : ∀ k < 91, 64 < k → pathSet (Char.ofNat k) = true → k = 94 := by decide
  unfold Char.toLower at hlower
  split at hlower
  · rename_i hupper
    have hlow : 65 ≤ c.toNat := UInt32.le_iff_toNat_le.1 hupper.1
    have hhigh : c.toNat ≤ 90 := UInt32.le_iff_toNat_le.1 hupper.2
    have := hsmall c.toNat (by omega) (by omega) (by rw [Char.ofNat_toNat]; exact h)
    omega
  · exact hlower rfl

theorem encode_dots {cs : List Char} (h : isDots cs = true) : percentEncode pathSet cs = cs := by
  have hall : (cs.map Char.toLower).all (fun d => !pathSet d) = true := by
    simp only [isDots, isSingleDot, isDoubleDot, List.any_cons, List.any_nil, Bool.or_false,
      Bool.or_eq_true, beq_iff_eq] at h
    rcases h with (h | h) | h | h | h | h <;> (rw [h]; rfl)
  have hchars : ∀ d ∈ cs.map Char.toLower, pathSet d = false := fun d hd => by
    simpa using List.all_eq_true.1 hall d hd
  refine percentEncode_self fun c hc => ?_
  by_contra hset
  rw [Bool.not_eq_false] at hset
  have := hchars c.toLower (List.mem_map_of_mem hc)
  rw [pathSet_toLower hset, hset] at this
  cases this

/-! ### Staying -/

section
variable {tail : Option (List Char)} {cs : List Char}

theorem staysInside_iff : staysInside tail cs = true ↔
    (∀ c ∈ cs, isInside c = true) ∧ (∀ c ∈ cs, isSkipped c = false) ∧ isDots cs = false ∧
      hasEscape cs = false ∧ (tail = none → ∀ c, cs.getLast? = some c → isStripped c = false) := by
  have hlast : (tail.isSome || cs.getLast?.all fun c => !isStripped c) = true ↔
      (tail = none → ∀ c, cs.getLast? = some c → isStripped c = false) := by
    cases tail <;> cases cs.getLast? <;> simp
  unfold staysInside
  rw [Bool.and_eq_true, hlast]
  simp only [Bool.and_eq_true, List.all_eq_true, Bool.not_eq_true', forall_and, and_assoc]

theorem cleanedEnd_tail (htail : ∀ w ∈ tail, Word w) :
    cleanedEnd (cs ++ tailText tail) = bodyOf tail cs ++ tailText tail := by
  cases tail with
  | none => simp [tailText, bodyOf]
  | some w =>
    have hw := htail w rfl
    have hvisible : ∀ c ∈ '/' :: w, ' ' < c := by
      intro c hc
      rcases List.mem_cons.1 hc with rfl | hc
      · decide
      · exact hw.visible c hc
    have hend := dropWhile_visible (p := ('/' :: w).reverse)
      (fun c hc => hvisible c (List.mem_reverse.1 hc)) (by simp) cs.reverse
    rw [← List.reverse_append] at hend
    unfold cleanedEnd bodyOf
    rw [if_neg (by simp)]
    show ((cs ++ '/' :: w).reverse.dropWhile isStripped).reverse.filter _ = _ ++ '/' :: w
    rw [hend, List.reverse_reverse, List.filter_append, filter_visible hvisible]

theorem bodyOf_sublist : (bodyOf tail cs).Sublist cs := by
  unfold bodyOf
  split
  · exact cleanedEnd_sublist cs
  · exact List.filter_sublist

theorem of_bodyOf_self (h : bodyOf tail cs = cs) : (∀ c ∈ cs, isSkipped c = false) ∧
    (tail = none → ∀ c, cs.getLast? = some c → isStripped c = false) := by
  have hfiltered : ∀ ds : List Char, ds.Sublist cs → (ds.filter fun c => !isSkipped c) = cs →
      ds = cs ∧ ∀ c ∈ cs, isSkipped c = false := by
    intro ds hsub hfilter
    have hle := (hfilter ▸ List.filter_sublist : cs.Sublist ds).length_le
    have heq := hsub.eq_of_length_le hle
    subst heq
    exact ⟨rfl, fun c hc => by simpa using List.filter_eq_self.1 hfilter c hc⟩
  unfold bodyOf at h
  split at h
  · rename_i hnone
    have hsub := (List.dropWhile_sublist isStripped (l := cs.reverse)).reverse
    rw [List.reverse_reverse] at hsub
    obtain ⟨hkept, hskip⟩ := hfiltered _ hsub h
    refine ⟨hskip, fun _ c hc => ?_⟩
    have hrev : cs.reverse.dropWhile isStripped = cs.reverse := by
      rw [← List.reverse_eq_iff, hkept]
    have hhead : cs.reverse.head? = some c := by rw [List.head?_reverse, hc]
    obtain ⟨rest, hrest⟩ : ∃ rest, cs.reverse = c :: rest := by
      cases hcs : cs.reverse with
      | nil => rw [hcs] at hhead; cases hhead
      | cons d rest => rw [hcs] at hhead; cases hhead; exact ⟨rest, rfl⟩
    by_contra hstripped
    rw [Bool.not_eq_false] at hstripped
    rw [hrest, List.dropWhile_cons_of_pos hstripped] at hrev
    have := (List.dropWhile_sublist isStripped (l := rest)).length_le
    rw [hrev, List.length_cons] at this
    omega
  · rename_i hsome
    exact ⟨(hfiltered cs (List.Sublist.refl _) h).2, fun hnone => absurd hnone hsome⟩

theorem hasEscape_of_not_mem (h : '%' ∉ cs) : hasEscape cs = false := by
  induction cs with
  | nil => rfl
  | cons c cs ih =>
    rw [List.mem_cons, not_or] at h
    rw [hasEscape, escapeAt_of_ne (Ne.symm h.1), ih h.2]
    rfl

theorem infix_tail {piece body : List Char} (h : piece <:+: body ++ tailText tail)
    (hslash : '/' ∉ piece) : piece <:+: body ∨ ∃ w ∈ tail, piece <:+: w := by
  cases tail with
  | none => exact .inl (by simpa [tailText] using h)
  | some w =>
    have h : piece <:+: body ++ '/' :: w := h
    rcases List.infix_append_iff_ne_nil.1 h with hbody | hrest | ⟨left, right, _, hne, hpiece, _, hpre⟩
    · exact .inl hbody
    · rcases List.infix_cons_iff.1 hrest with hpre | hw
      · cases piece with
        | nil => exact .inl List.nil_infix
        | cons c piece =>
          obtain ⟨rfl, _⟩ := List.cons_prefix_cons.1 hpre
          exact absurd List.mem_cons_self hslash
      · exact .inr ⟨w, rfl, hw⟩
    · cases right with
      | nil => exact absurd rfl hne
      | cons c right =>
        obtain ⟨rfl, _⟩ := List.cons_prefix_cons.1 hpre
        exact absurd (by simp [hpiece]) hslash

theorem staysInside_of_piece {segment : List Char} (htail : ∀ w ∈ tail, Word w)
    (hpiece : PieceOf (bodyOf tail cs ++ tailText tail) segment)
    (hdecode : percentDecode segment = utf8 cs) : staysInside tail cs = true := by
  rcases hpiece with rfl | ⟨piece, rfl, hinfix, hinside, hdots⟩
  · have hdecode : utf8 [] = utf8 cs := hdecode
    obtain rfl := utf8_inj hdecode
    cases tail <;> rfl
  · rw [percentDecode_encode_self (by decide) pathSet_hex] at hdecode
    have hdots : isDots piece = false := by
      by_contra h
      rw [Bool.not_eq_false] at h
      rw [encode_dots h, h] at hdots
      cases hdots
    have hslash : '/' ∉ piece := fun h => by simpa [isInside] using hinside _ h
    rcases infix_tail hinfix hslash with hbody | ⟨w, hw, hpart⟩
    · have hpiece : piece = cs := by
        refine eq_of_utf8_length (hbody.sublist.trans bodyOf_sublist) ?_
        rw [← hdecode]
        exact percentDecode_length piece
      subst hpiece
      have hself := of_bodyOf_self (bodyOf_sublist.eq_of_length_le hbody.length_le)
      exact staysInside_iff.2 ⟨hinside, hself.1, hdots, percentDecode_eq_utf8.1 hdecode, hself.2⟩
    · have hword := htail w hw
      have hescape : hasEscape piece = false :=
        hasEscape_of_not_mem fun h => hword.percent (hpart.subset h)
      rw [percentDecode_eq_utf8.2 hescape] at hdecode
      obtain rfl := utf8_inj hdecode
      have hvisible : ∀ c ∈ piece, ' ' < c := fun c hc => hword.visible c (hpart.subset hc)
      refine staysInside_iff.2 ⟨hinside, ?_, hdots, hescape, fun hnone => ?_⟩
      · simpa using List.filter_eq_self.1 (filter_visible hvisible)
      · rw [hnone] at hw
        cases hw

theorem bodyOf_self (h : staysInside tail cs = true) : bodyOf tail cs = cs := by
  obtain ⟨_, hskip, _, _, hlast⟩ := staysInside_iff.1 h
  have hfilter : (cs.filter fun c => !isSkipped c) = cs :=
    List.filter_eq_self.2 fun c hc => by simp [hskip c hc]
  unfold bodyOf
  split
  · rename_i hnone
    have hkeep : cs.reverse.dropWhile isStripped = cs.reverse := by
      cases hcs : cs.reverse with
      | nil => rfl
      | cons c rest =>
        have hhead : cs.getLast? = some c := by rw [← List.head?_reverse, hcs]; rfl
        rw [List.dropWhile_cons_of_neg (by simp [hlast hnone c hhead])]
    unfold cleanedEnd
    rw [hkeep, List.reverse_reverse, hfilter]
  · exact hfilter

/-- A URL has a text in one segment of its path, between others, and nothing behind the path. -/
def KeepsSegment (u : Url) (before : List (List Char)) (cs : List Char)
    (after : List (List Char)) : Prop :=
  u.query = none ∧ u.fragment = none ∧
    ∃ segment, u.path = before ++ segment :: after ∧ percentDecode segment = utf8 cs

theorem pathState_stays (base : Url) (before : List (List Char)) (htail : ∀ w ∈ tail, Word w)
    (h : staysInside tail cs = true) :
    (pathState base (cs ++ tailText tail) [] before).path =
      before ++ percentEncode pathSet cs :: tail.toList := by
  obtain ⟨hinside, _, hdots, _, _⟩ := staysInside_iff.1 h
  have hplain := isDots_percentEncode hdots
  rw [pathState_inside base hinside, List.nil_append]
  cases tail with
  | none => exact pushSegment_plain hplain _ _
  | some w =>
    have hw := htail w rfl
    have hself : percentEncode pathSet w = w := percentEncode_self hw.plain
    show (pathState base ('/' :: w) _ _).path = _
    rw [pathState_slash, pushSegment_plain hplain, ← List.append_nil w,
      pathState_inside base hw.inside, hself, List.nil_append]
    show pushSegment false w _ = _
    rw [pushSegment_plain hw.dots, List.append_assoc]
    simp

/-- **A text keeps its segment** just if it stays inside. -/
theorem pathState_keeps (base : Url) (before : List (List Char)) (htail : ∀ w ∈ tail, Word w) :
    KeepsSegment (pathState base (cleanedEnd (cs ++ tailText tail)) [] before) before cs tail.toList ↔
      staysInside tail cs = true := by
  rw [cleanedEnd_tail htail]
  constructor
  · rintro ⟨_, _, segment, hpath, hdecode⟩
    generalize htext : bodyOf tail cs ++ tailText tail = text at hpath ⊢
    have hstart : Cut before.length text before :=
      ⟨before, [], (List.append_nil _).symm, Nat.le_refl _, by simp⟩
    have hsplit : text = [] ++ [] ++ text := rfl
    have hcut : Cut before.length text (pathState base text [] before).path :=
      pathState_cut base hsplit (by simp) hstart
    rw [hpath] at hcut
    exact staysInside_of_piece htail (htext ▸ hcut.piece) hdecode
  · intro h
    rw [bodyOf_self h]
    have hbare := (pathState_bare base (cs ++ tailText tail) [] before).2 ?_
    · refine ⟨hbare.1, hbare.2, _, pathState_stays base before htail h, ?_⟩
      rw [percentDecode_encode_self (by decide) pathSet_hex]
      exact percentDecode_self (staysInside_iff.1 h).2.2.2.1
    · have hinside : ∀ c, isInside c = true → c ≠ '?' ∧ c ≠ '#' := by
        intro c hc
        simp only [isInside, Bool.not_eq_true', Bool.or_eq_false_iff, beq_eq_false_iff_ne] at hc
        exact ⟨hc.1.2, hc.2⟩
      intro c hc
      rcases List.mem_append.1 hc with hc | hc
      · exact hinside c ((staysInside_iff.1 h).1 c hc)
      · cases tail with
        | none => cases hc
        | some w =>
          rcases List.mem_cons.1 hc with rfl | hc
          · decide
          · exact hinside c ((htail w rfl).inside c hc)

end

/-! ### Joining behind fixed segments -/

theorem pathState_words (base : Url) {words : List (List Char)} (h : ∀ w ∈ words, Word w)
    (cs : List Char) (path : List (List Char)) :
    pathState base (words.flatMap (· ++ ['/']) ++ cs) [] path = pathState base cs [] (path ++ words) := by
  induction words generalizing path with
  | nil => simp
  | cons w words ih =>
    rw [List.forall_mem_cons] at h
    have hw := h.1
    rw [List.flatMap_cons, List.append_assoc, List.append_assoc, pathState_inside base hw.inside,
      List.nil_append, percentEncode_self hw.plain, List.singleton_append, pathState_slash,
      pushSegment_plain hw.dots, ih h.2, List.append_assoc, List.singleton_append]

/-- **Joining a reference** that starts with fixed segments. -/
theorem joinRelative_words (parseOther : Url → List Char → Option Url) (base : Url)
    {words : List (List Char)} (hwords : ∀ w ∈ words, Word w) (hne : words ≠ []) (cs : List Char)
    (hscheme : startsWithScheme (words.flatMap (· ++ ['/']) ++ cleanedEnd cs) = false) :
    joinRelative parseOther base (words.flatMap (· ++ ['/']) ++ cs) =
      some (pathState base (cleanedEnd cs) [] (base.path.dropLast ++ words)) := by
  obtain ⟨w, words, rfl⟩ := List.exists_cons_of_ne_nil hne
  have hw := hwords w List.mem_cons_self
  obtain ⟨c, w, rfl⟩ := List.exists_cons_of_ne_nil hw.nonempty
  have hvisible : ∀ d ∈ ((c :: w) :: words).flatMap (· ++ ['/']), ' ' < d := by
    intro d hd
    obtain ⟨v, hv, hd⟩ := List.mem_flatMap.1 hd
    rcases List.mem_append.1 hd with hd | hd
    · exact (hwords v hv).visible d hd
    · rw [List.mem_singleton.1 hd]
      decide
  have hhead : "/\\?#".toList.elem c = false := by
    have hc := hw.inside c List.mem_cons_self
    simp only [isInside, Bool.not_eq_true', Bool.or_eq_false_iff, beq_eq_false_iff_ne] at hc
    simp [hc]
  unfold joinRelative
  rw [cleaned_append hvisible (by simp)]
  have hpath := pathState_words base hwords (cleanedEnd cs) base.path.dropLast
  simp only [List.flatMap_cons, List.cons_append] at hpath hscheme ⊢
  rw [hhead, hscheme, hpath]
  rfl

/-! ## Appending a segment -/

theorem toLower_eq {c d : Char} (hd : d.toNat < 97) (h : c.toLower = d) : c = d := by
  unfold Char.toLower at h
  split at h
  · rename_i hupper
    have hlow : 65 ≤ c.toNat := UInt32.le_iff_toNat_le.1 hupper.1
    have hhigh : c.toNat ≤ 90 := UInt32.le_iff_toNat_le.1 hupper.2
    have hval := congrArg Char.toNat h
    have hsum : (c.val + 32).toNat = c.toNat + 32 := by
      rw [UInt32.toNat_add]
      show (c.toNat + 32) % 2 ^ 32 = c.toNat + 32
      omega
    have hval : (c.val + 32).toNat = d.toNat := hval
    omega
  · exact h

theorem percentEncodeChar_length (set : Char → Bool) (c : Char) :
    (percentEncodeChar set c).length = if set c then 3 * (String.utf8EncodeChar c).length else 1 := by
  have hbytes : ∀ bytes : List UInt8, (bytes.flatMap percentEncodeByte).length = 3 * bytes.length := by
    intro bytes
    induction bytes with
    | nil => rfl
    | cons b bytes ih =>
      rw [List.flatMap_cons, List.length_append, ih, List.length_cons]
      show 3 + 3 * bytes.length = 3 * (bytes.length + 1)
      omega
  unfold percentEncodeChar
  split
  · exact hbytes _
  · rfl

theorem plain_of_encode_self {set : Char → Bool} {cs : List Char} (h : percentEncode set cs = cs) :
    ∀ c ∈ cs, set c = false := by
  have hle : ∀ ds : List Char, ds.length ≤ (percentEncode set ds).length := by
    intro ds
    induction ds with
    | nil => exact Nat.le_refl _
    | cons d ds ih =>
      have hd := length_utf8EncodeChar_pos d
      rw [percentEncode_cons, List.length_append, List.length_cons, percentEncodeChar_length]
      split <;> omega
  induction cs with
  | nil => simp
  | cons c cs ih =>
    rw [percentEncode_cons] at h
    by_cases hset : set c = true
    · have hlength := congrArg List.length h
      have hc := length_utf8EncodeChar_pos c
      have := hle cs
      rw [List.length_append, percentEncodeChar_length, if_pos hset, List.length_cons] at hlength
      omega
    · rw [percentEncodeChar, if_neg hset] at h
      rw [List.forall_mem_cons]
      exact ⟨by simpa using hset, ih (List.cons.inj h).2⟩

theorem isDots_encode_segment {cs : List Char} (hdot : cs ≠ ['.'] ∧ cs ≠ ['.', '.']) :
    isDots (percentEncode segmentSet cs) = false := by
  by_contra h
  rw [Bool.not_eq_false] at h
  have hself := percentEncode_eq_self (by decide) (isDots_escapes h)
  have hplain := plain_of_encode_self hself
  rw [hself] at h
  have hescaped : ¬ "%2e".toList <:+: cs.map Char.toLower := by
    intro hpart
    obtain ⟨c, hc, hlower⟩ := List.mem_map.1 (hpart.subset (show '%' ∈ "%2e".toList by decide))
    rw [toLower_eq (by decide) hlower] at hc
    exact absurd (hplain _ hc) (by decide)
  rw [isDots_plain List.infix_rfl hdot hescaped] at h
  cases h

theorem pushSegment_dots {segment : List Char} (h : isDots segment = true)
    (path : List (List Char)) : ∃ rest, pushSegment false segment path = rest ++ [[]] := by
  unfold pushSegment
  by_cases hdouble : isDoubleDot segment = true
  · exact ⟨path.dropLast, by rw [if_pos hdouble]; rfl⟩
  · rw [isDots, Bool.or_eq_true, or_iff_left hdouble] at h
    exact ⟨path, by rw [if_neg hdouble, if_pos h]; rfl⟩

/-- **A text that is appended keeps its segment** just if it is no dot segment and the parser skips
nothing of it. -/
theorem pushPathSegment_keeps {u : Url} (hquery : u.query = none) (hfragment : u.fragment = none)
    {cs : List Char} : KeepsSegment (pushPathSegment u cs) u.path cs [] ↔
      (∀ c ∈ cs, isSkipped c = false) ∧ cs ≠ ['.'] ∧ cs ≠ ['.', '.'] := by
  unfold pushPathSegment
  by_cases hdot : cs = ['.'] ∨ cs = ['.', '.']
  · rw [if_pos hdot]
    constructor
    · rintro ⟨_, _, segment, hpath, _⟩
      have := congrArg List.length hpath
      rw [List.length_append, List.length_singleton] at this
      omega
    · rintro ⟨_, hsingle, hdouble⟩
      exact absurd hdot (by simp [hsingle, hdouble])
  · rw [if_neg hdot]
    rw [not_or] at hdot
    constructor
    · rintro ⟨_, _, segment, hpath, hdecode⟩
      refine ⟨?_, hdot⟩
      by_cases hdots : isDots (percentEncode segmentSet (cs.filter fun c => !isSkipped c)) = true
      · obtain ⟨path, hpushed⟩ := pushSegment_dots hdots u.path
        have hpath : pushSegment false _ u.path = _ := hpath
        have hlast := congrArg List.getLast? (hpushed.symm.trans hpath)
        rw [List.getLast?_concat, List.getLast?_concat, Option.some.injEq] at hlast
        subst hlast
        have hdecode : utf8 [] = utf8 cs := hdecode
        obtain rfl := utf8_inj hdecode
        cases hdots
      · rw [Bool.not_eq_true] at hdots
        have hpath : pushSegment false _ u.path = _ := hpath
        rw [pushSegment_plain hdots] at hpath
        obtain ⟨rfl, _⟩ := List.cons.inj (List.append_cancel_left hpath)
        rw [percentDecode_encode (by decide)] at hdecode
        simpa using List.filter_eq_self.1 (utf8_inj hdecode)
    · rintro ⟨hskip, _, _⟩
      have hfilter : (cs.filter fun c => !isSkipped c) = cs :=
        List.filter_eq_self.2 fun c hc => by simp [hskip c hc]
      rw [hfilter]
      refine ⟨hquery, hfragment, _, pushSegment_plain (isDots_encode_segment hdot) _ _, ?_⟩
      exact percentDecode_encode (by decide) cs

end AgentPalace.Url
