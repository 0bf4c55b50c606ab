import Mathlib.Algebra.GroupWithZero.Nat
import Mathlib.Data.List.DropRight

/-!
# Byte offsets into a text

A text is a list of characters, a position in it the number of UTF-8 bytes
before it. `slice? cs a b` is `cs[a..b]`, `none` where the positions are not
character boundaries; `align` moves a position down to the boundary before it;
`rfind` looks for the last occurrence of a text. `fromUtf8` reads a text from
its bytes, and `fromUtf8_slice` says which bytes of a file a slice of its text
stands at. `prefixWithin` cuts a text to a number of bytes without cutting a
character, `splitOnceAt` and `rsplitOnceAt` split it at one.
-/

namespace AgentPalace

/-! ## Prefixes of whole characters -/

/-- The bytes of some characters as UTF-8. -/
def utf8Bytes (cs : List Char) : Nat := (cs.map Char.utf8Size).sum

/-- The characters that fit into a number of bytes. -/
def fitting (bytes : Nat) : List Char → List Char
  | [] => []
  | c :: cs => if c.utf8Size ≤ bytes then c :: fitting (bytes - c.utf8Size) cs else []

theorem utf8Bytes_cons (c : Char) (cs : List Char) :
    utf8Bytes (c :: cs) = c.utf8Size + utf8Bytes cs := rfl

theorem utf8Bytes_fitting (bytes : Nat) (cs : List Char) : utf8Bytes (fitting bytes cs) ≤ bytes := by
  induction cs generalizing bytes with
  | nil => simp [fitting, utf8Bytes]
  | cons c cs ih =>
    unfold fitting
    split
    · have := ih (bytes - c.utf8Size)
      rw [utf8Bytes_cons]
      omega
    · simp [utf8Bytes]

theorem utf8ByteSize_ofList (cs : List Char) : (String.ofList cs).utf8ByteSize = utf8Bytes cs := by
  induction cs with
  | nil => rfl
  | cons c cs ih =>
    have hcons : String.ofList (c :: cs) = String.singleton c ++ String.ofList cs := by
      rw [← String.toList_inj]
      simp
    rw [hcons, String.utf8ByteSize_append, String.utf8ByteSize_singleton, ih, utf8Bytes_cons]

/-- The longest prefix of whole characters within a number of bytes. -/
def prefixWithin (bytes : Nat) (s : String) : String := String.ofList (fitting bytes s.toList)

theorem prefixWithin_size (bytes : Nat) (s : String) : (prefixWithin bytes s).utf8ByteSize ≤ bytes := by
  unfold prefixWithin
  rw [utf8ByteSize_ofList]
  exact utf8Bytes_fitting bytes s.toList

/-! ## Splitting at a character -/

section

/-- `split_once(c)`. -/
def splitOnceAt (c : Char) (s : List Char) : Option (List Char × List Char) :=
  match s.dropWhile (· ≠ c) with
  | [] => none
  | _ :: tail => some (s.takeWhile (· ≠ c), tail)

/-- `rsplit_once(c)`. -/
def rsplitOnceAt (c : Char) (s : List Char) : Option (List Char × List Char) :=
  (splitOnceAt c s.reverse).map fun (tail, head) => (head.reverse, tail.reverse)

variable {c : Char}

theorem splitOnceAt_append {part : List Char} (h : c ∉ part) (rest : List Char) :
    splitOnceAt c (part ++ c :: rest) = some (part, rest) := by
  have hall : ∀ d ∈ part, decide (d ≠ c) = true :=
    fun d hd => decide_eq_true fun heq => h (heq ▸ hd)
  unfold splitOnceAt
  rw [List.dropWhile_append_of_pos hall, List.takeWhile_append_of_pos hall]
  simp

theorem splitOnceAt_none {s : List Char} (h : c ∉ s) : splitOnceAt c s = none := by
  have hall : ∀ d ∈ s, decide (d ≠ c) = true :=
    fun d hd => decide_eq_true fun heq => h (heq ▸ hd)
  unfold splitOnceAt
  rw [List.dropWhile_eq_nil_iff.2 hall]

theorem splitOnceAt_iff {s a b : List Char} :
    splitOnceAt c s = some (a, b) ↔ s = a ++ c :: b ∧ c ∉ a := by
  constructor
  · intro h
    unfold splitOnceAt at h
    split at h
    · cases h
    · rename_i d tail hdrop
      cases h
      have hd : d = c := by
        have hlen : 0 < (s.dropWhile (· ≠ c)).length := by rw [hdrop]; simp
        have := List.dropWhile_get_zero_not (· ≠ c) s hlen
        simp only [hdrop, List.get_eq_getElem, List.getElem_cons_zero] at this
        simpa using this
      subst hd
      refine ⟨?_, fun hmem => ?_⟩
      · rw [← hdrop, List.takeWhile_append_dropWhile]
      · simpa using List.mem_takeWhile_imp hmem
  · rintro ⟨rfl, ha⟩
    exact splitOnceAt_append ha b

theorem rsplitOnceAt_iff {s a b : List Char} :
    rsplitOnceAt c s = some (a, b) ↔ s = a ++ c :: b ∧ c ∉ b := by
  unfold rsplitOnceAt
  simp only [Option.map_eq_some_iff, Prod.exists, Prod.mk.injEq, splitOnceAt_iff]
  constructor
  · rintro ⟨tail, head, ⟨hs, hc⟩, rfl, rfl⟩
    refine ⟨?_, by simpa using hc⟩
    rw [← List.reverse_reverse s, hs]
    simp
  · rintro ⟨rfl, hc⟩
    exact ⟨b.reverse, a.reverse, ⟨by simp, by simpa using hc⟩, by simp, by simp⟩

end

/-! ## Bytes and offsets -/

def encodeUtf8 (cs : List Char) : List UInt8 := cs.flatMap String.utf8EncodeChar

@[simp] theorem utf8Bytes_nil : utf8Bytes [] = 0 := rfl

@[simp] theorem utf8Bytes_append (l r : List Char) :
    utf8Bytes (l ++ r) = utf8Bytes l + utf8Bytes r := by
  simp [utf8Bytes]

theorem encodeUtf8_append (l r : List Char) :
    encodeUtf8 (l ++ r) = encodeUtf8 l ++ encodeUtf8 r := List.flatMap_append

@[simp] theorem length_encodeUtf8 (cs : List Char) : (encodeUtf8 cs).length = utf8Bytes cs := by
  simp [encodeUtf8, utf8Bytes, List.length_flatMap]

/-- `std::str::from_utf8`. -/
def fromUtf8 (bytes : List UInt8) : Option (List Char) :=
  (ByteArray.mk bytes.toArray).utf8Decode?.map Array.toList

theorem toList_toByteArray (bytes : List UInt8) : bytes.toByteArray = ⟨bytes.toArray⟩ := by
  apply ByteArray.ext
  simp

theorem fromUtf8_eq {bytes : List UInt8} {cs : List Char} (h : fromUtf8 bytes = some cs) :
    bytes = encodeUtf8 cs := by
  obtain ⟨chars, hchars, rfl⟩ := Option.map_eq_some_iff.1 h
  have hbytes : chars.toList.utf8Encode = ⟨bytes.toArray⟩ := by
    have := @ByteArray.utf8Encode_get_utf8Decode? ⟨bytes.toArray⟩ (by simp [hchars])
    simpa [hchars] using this
  have hencode : chars.toList.utf8Encode = ⟨(encodeUtf8 chars.toList).toArray⟩ :=
    toList_toByteArray _
  rw [hencode] at hbytes
  simpa using (congrArg (fun b : ByteArray => b.data.toList) hbytes).symm

theorem fromUtf8_encodeUtf8 (cs : List Char) : fromUtf8 (encodeUtf8 cs) = some cs := by
  have hencode : cs.utf8Encode = ⟨(encodeUtf8 cs).toArray⟩ := toList_toByteArray _
  unfold fromUtf8
  rw [← hencode, List.utf8Decode?_utf8Encode]
  rfl

theorem encodeUtf8_injective : Function.Injective encodeUtf8 := by
  intro cs ds h
  have := congrArg fromUtf8 h
  rwa [fromUtf8_encodeUtf8, fromUtf8_encodeUtf8, Option.some.injEq] at this

def splitBytes : Nat → List Char → Option (List Char × List Char)
  | 0, cs => some ([], cs)
  | _ + 1, [] => none
  | n + 1, c :: cs =>
    if c.utf8Size ≤ n + 1 then
      (splitBytes (n + 1 - c.utf8Size) cs).map fun (before, behind) => (c :: before, behind)
    else none

theorem splitBytes_iff {n : Nat} {cs l r : List Char} :
    splitBytes n cs = some (l, r) ↔ cs = l ++ r ∧ utf8Bytes l = n := by
  induction cs generalizing n l with
  | nil =>
    cases n with
    | zero =>
      simp only [splitBytes, Option.some.injEq, Prod.mk.injEq]
      refine ⟨fun ⟨hl, hr⟩ => by simp [← hl, ← hr], fun ⟨h, _⟩ => ?_⟩
      have := List.append_eq_nil_iff.1 h.symm
      exact ⟨this.1.symm, this.2.symm⟩
    | succ n =>
      simp only [splitBytes, reduceCtorEq, false_iff, not_and]
      intro h
      rw [(List.append_eq_nil_iff.1 h.symm).1]
      simp
  | cons c cs ih =>
    have hpos := c.utf8Size_pos
    cases n with
    | zero =>
      simp only [splitBytes, Option.some.injEq, Prod.mk.injEq]
      refine ⟨fun ⟨hl, hr⟩ => by simp [← hl, ← hr], fun ⟨h, hl⟩ => ?_⟩
      cases l with
      | nil => exact ⟨rfl, by simpa using h⟩
      | cons d l =>
        have := d.utf8Size_pos
        rw [utf8Bytes_cons] at hl
        omega
    | succ n =>
      unfold splitBytes
      refine ⟨fun h => ?_, fun ⟨h, hl⟩ => ?_⟩
      · split at h
        · obtain ⟨⟨before, behind⟩, hsplit, heq⟩ := Option.map_eq_some_iff.1 h
          cases heq
          obtain ⟨hcs, hbytes⟩ := ih.1 hsplit
          refine ⟨by rw [hcs, List.cons_append], ?_⟩
          rw [utf8Bytes_cons]
          omega
        · cases h
      · cases l with
        | nil => simp at hl
        | cons d l =>
          obtain ⟨rfl, hcs⟩ := List.cons.inj h
          rw [utf8Bytes_cons] at hl
          rw [if_pos (by omega), ih.2 ⟨hcs, (by omega : utf8Bytes l = n + 1 - c.utf8Size)⟩]
          rfl

def isCharBoundary (cs : List Char) (n : Nat) : Bool := (splitBytes n cs).isSome

theorem isCharBoundary_iff {cs : List Char} {n : Nat} :
    isCharBoundary cs n = true ↔ ∃ l r, cs = l ++ r ∧ utf8Bytes l = n := by
  unfold isCharBoundary
  rw [Option.isSome_iff_exists]
  exact ⟨fun ⟨⟨l, r⟩, h⟩ => ⟨l, r, splitBytes_iff.1 h⟩, fun ⟨l, r, h⟩ => ⟨(l, r), splitBytes_iff.2 h⟩⟩

/-- `cs[a..b]`. -/
def slice? (cs : List Char) (a b : Nat) : Option (List Char) :=
  if a ≤ b then (splitBytes a cs).bind fun (_, behind) => (splitBytes (b - a) behind).map (·.1)
  else none

theorem slice?_iff {cs m : List Char} {a b : Nat} :
    slice? cs a b = some m ↔
      ∃ l r, cs = l ++ m ++ r ∧ utf8Bytes l = a ∧ utf8Bytes l + utf8Bytes m = b := by
  unfold slice?
  refine ⟨fun h => ?_, fun ⟨l, r, hcs, ha, hb⟩ => ?_⟩
  · split at h
    · obtain ⟨⟨l, behind⟩, hl, h⟩ := Option.bind_eq_some_iff.1 h
      obtain ⟨⟨m', r⟩, hm, rfl⟩ := Option.map_eq_some_iff.1 h
      obtain ⟨hcs, ha⟩ := splitBytes_iff.1 hl
      obtain ⟨hbehind, hb⟩ := splitBytes_iff.1 hm
      refine ⟨l, r, by rw [hcs, hbehind, List.append_assoc], ha, ?_⟩
      simp only at hb ⊢
      omega
    · cases h
  · have hl : splitBytes a cs = some (l, m ++ r) :=
      splitBytes_iff.2 ⟨by rw [hcs, List.append_assoc], ha⟩
    have hm : splitBytes (b - a) (m ++ r) = some (m, r) := splitBytes_iff.2 ⟨rfl, by omega⟩
    rw [if_pos (by omega), hl, Option.bind_some]
    simp only [hm, Option.map_some]

theorem slice?_boundaries {cs : List Char} {a b : Nat} (ha : isCharBoundary cs a = true)
    (hb : isCharBoundary cs b = true) (h : a ≤ b) : ∃ m, slice? cs a b = some m := by
  obtain ⟨l, r, hcs, hl⟩ := isCharBoundary_iff.1 ha
  obtain ⟨l', r', hcs', hl'⟩ := isCharBoundary_iff.1 hb
  -- of two prefixes of a text, the one with fewer bytes is a prefix of the other
  rcases List.append_eq_append_iff.1 (hcs.symm.trans hcs') with ⟨m, hm, hr⟩ | ⟨m, hm, hr⟩
  · refine ⟨m, slice?_iff.2 ⟨l, r', by rw [hcs', hm], hl, ?_⟩⟩
    rw [hm, utf8Bytes_append] at hl'
    exact hl'
  · have : utf8Bytes m = 0 := by
      rw [hm, utf8Bytes_append] at hl
      omega
    refine ⟨[], slice?_iff.2 ⟨l, r, by simp [hcs], hl, ?_⟩⟩
    have hbytes := congrArg utf8Bytes hm
    rw [utf8Bytes_append] at hbytes
    simp only [utf8Bytes_nil]
    omega

def alignDown (cs : List Char) : Nat → Nat
  | 0 => 0
  | n + 1 => if isCharBoundary cs (n + 1) then n + 1 else alignDown cs n

def align (cs : List Char) (index : Nat) : Nat := alignDown cs (min index (utf8Bytes cs))

theorem isCharBoundary_zero (cs : List Char) : isCharBoundary cs 0 = true :=
  isCharBoundary_iff.2 ⟨[], cs, rfl, rfl⟩

theorem isCharBoundary_alignDown (cs : List Char) (n : Nat) :
    isCharBoundary cs (alignDown cs n) = true := by
  induction n with
  | zero => exact isCharBoundary_zero cs
  | succ n ih =>
    unfold alignDown
    split
    · assumption
    · exact ih

theorem alignDown_le (cs : List Char) (n : Nat) : alignDown cs n ≤ n := by
  induction n with
  | zero => exact Nat.le_refl 0
  | succ n ih =>
    unfold alignDown
    split <;> omega

theorem le_alignDown {cs : List Char} {b n : Nat} (hb : isCharBoundary cs b = true) (h : b ≤ n) :
    b ≤ alignDown cs n := by
  induction n with
  | zero => omega
  | succ n ih =>
    unfold alignDown
    split
    · exact h
    · rename_i hn
      have : b ≠ n + 1 := fun heq => hn (heq ▸ hb)
      exact ih (by omega)

/-- Characters have at most four bytes, so a boundary is never far. -/
theorem boundary_near {cs : List Char} {n : Nat} (h : n ≤ utf8Bytes cs) :
    ∃ b, isCharBoundary cs b = true ∧ b ≤ n ∧ n ≤ b + 3 := by
  induction cs generalizing n with
  | nil => exact ⟨0, isCharBoundary_zero [], by omega, by simp at h; omega⟩
  | cons c cs ih =>
    have hpos := c.utf8Size_pos
    have hfour := c.utf8Size_le_four
    rw [utf8Bytes_cons] at h
    by_cases hn : n < c.utf8Size
    · exact ⟨0, isCharBoundary_zero _, by omega, by omega⟩
    · obtain ⟨b, hb, hle, hnear⟩ := ih (show n - c.utf8Size ≤ utf8Bytes cs by omega)
      obtain ⟨l, r, hcs, hl⟩ := isCharBoundary_iff.1 hb
      refine ⟨b + c.utf8Size, isCharBoundary_iff.2 ⟨c :: l, r, by simp [hcs], ?_⟩, by omega, by omega⟩
      rw [utf8Bytes_cons]
      omega

theorem isCharBoundary_align (cs : List Char) (index : Nat) :
    isCharBoundary cs (align cs index) = true := isCharBoundary_alignDown cs _

theorem align_le (cs : List Char) (index : Nat) : align cs index ≤ min index (utf8Bytes cs) :=
  alignDown_le cs _

theorem le_align (cs : List Char) (index : Nat) :
    min index (utf8Bytes cs) ≤ align cs index + 3 := by
  obtain ⟨b, hb, hle, hnear⟩ := boundary_near (Nat.min_le_right index (utf8Bytes cs))
  have := le_alignDown hb hle
  unfold align
  omega

theorem align_boundary {cs : List Char} {n : Nat} (h : isCharBoundary cs n = true) :
    align cs n = n := by
  obtain ⟨l, r, hcs, hl⟩ := isCharBoundary_iff.1 h
  have hle : n ≤ utf8Bytes cs := by
    rw [hcs, utf8Bytes_append]
    omega
  have hlow := le_alignDown h (show n ≤ min n (utf8Bytes cs) by omega)
  have hhigh := align_le cs n
  unfold align at hhigh ⊢
  omega

theorem isCharBoundary_end (cs : List Char) : isCharBoundary cs (utf8Bytes cs) = true :=
  isCharBoundary_iff.2 ⟨cs, [], by simp, rfl⟩

/-- The position of the last occurrence of a text. -/
def rfind (needle : List Char) : List Char → Option Nat
  | [] => if needle = [] then some 0 else none
  | c :: cs =>
    match rfind needle cs with
    | some i => some (c.utf8Size + i)
    | none => if needle.isPrefixOf (c :: cs) then some 0 else none

theorem rfind_boundary {needle cs : List Char} {i : Nat} (h : rfind needle cs = some i) :
    ∃ l r, cs = l ++ needle ++ r ∧ utf8Bytes l = i := by
  induction cs generalizing i with
  | nil =>
    unfold rfind at h
    split at h
    · cases h
      exact ⟨[], [], by simp [*], rfl⟩
    · cases h
  | cons c cs ih =>
    unfold rfind at h
    split at h
    · rename_i j hj
      cases h
      obtain ⟨l, r, hcs, hl⟩ := ih hj
      exact ⟨c :: l, r, by simp [hcs], by rw [utf8Bytes_cons, hl]⟩
    · split at h
      · rename_i hstart
        cases h
        obtain ⟨r, hr⟩ := List.isPrefixOf_iff_prefix.1 hstart
        exact ⟨[], r, by simpa using hr.symm, rfl⟩
      · cases h

/-- The bytes a slice of a text stands at. -/
theorem encodeUtf8_slice {cs l m r : List Char} (h : cs = l ++ m ++ r) (rest : List UInt8) :
    ((encodeUtf8 cs ++ rest).drop (utf8Bytes l)).take (utf8Bytes m) = encodeUtf8 m := by
  rw [h, encodeUtf8_append, encodeUtf8_append, List.append_assoc, List.append_assoc,
    ← length_encodeUtf8 l, List.drop_left, ← length_encodeUtf8 m, List.take_left]

end AgentPalace
