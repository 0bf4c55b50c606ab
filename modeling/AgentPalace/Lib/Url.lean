import Mathlib.Data.List.Infix

/-!
# Joining a path to an origin

How a URL parser that follows the WHATWG standard resolves a reference that
starts with one slash, against a base with a special scheme: the host is the
base's, the path is read segment by segment, dot segments are resolved, and some
characters are percent-encoded. References of other forms are left to a
parameter.

Without dot segments, backslashes and fragments the segments are those of the
text, each percent-encoded (`join_segments`).
-/

namespace AgentPalace

structure Url where
  scheme : String
  host : String
  port : Option Nat
  path : List (List Char)
  query : Option (List Char)
  fragment : Option (List Char)
  deriving DecidableEq

namespace Url

/-! ## Percent-encoding -/

def hexDigit (n : Nat) : Char := if n < 10 then Char.ofNat (48 + n) else Char.ofNat (55 + n)

def percentEncodeByte (b : UInt8) : List Char :=
  ['%', hexDigit (b.toNat / 16), hexDigit (b.toNat % 16)]

def percentEncodeChar (set : Char → Bool) (c : Char) : List Char :=
  if set c then (String.utf8EncodeChar c).flatMap percentEncodeByte else [c]

def percentEncode (set : Char → Bool) (cs : List Char) : List Char :=
  cs.flatMap (percentEncodeChar set)

def controlSet (c : Char) : Bool := decide (c.toNat ≤ 0x1f ∨ 0x7e < c.toNat)

def fragmentSet (c : Char) : Bool := controlSet c || " \"<>`".toList.elem c

def querySet (c : Char) : Bool := controlSet c || " \"#<>".toList.elem c

def specialQuerySet (c : Char) : Bool := querySet c || c == '\''

def pathSet (c : Char) : Bool := querySet c || "?^`\x7b\x7d".toList.elem c

/-! ## The path -/

def isSingleDot (segment : List Char) : Bool :=
  [".", "%2e"].any fun dot => segment.map Char.toLower == dot.toList

def isDoubleDot (segment : List Char) : Bool :=
  ["..", ".%2e", "%2e.", "%2e%2e"].any fun dots => segment.map Char.toLower == dots.toList

/-- End a segment, at a slash or at the end of the path. -/
def pushSegment (slash : Bool) (segment : List Char) (path : List (List Char)) :
    List (List Char) :=
  if isDoubleDot segment then if slash then path.dropLast else path.dropLast ++ [[]]
  else if isSingleDot segment then if slash then path else path ++ [[]]
  else path ++ [segment]

/-- The query and the fragment of what is behind a path. -/
def queryState (cs : List Char) : List Char × Option (List Char) :=
  (percentEncode specialQuerySet (cs.takeWhile (· ≠ '#')),
    match cs.dropWhile (· ≠ '#') with
    | _ :: fragment => some (percentEncode fragmentSet fragment)
    | [] => none)

/-- Read a path behind its first slash, into the open segment and the path so far. -/
def pathState (base : Url) : List Char → List Char → List (List Char) → Url
  | [], segment, path =>
    { base with path := pushSegment false segment path, query := none, fragment := none }
  | c :: rest, segment, path =>
    if c = '/' ∨ c = '\\' then pathState base rest [] (pushSegment true segment path)
    else if c = '?' then
      { base with
        path := pushSegment false segment path
        query := some (queryState rest).1
        fragment := (queryState rest).2 }
    else if c = '#' then
      { base with
        path := pushSegment false segment path
        query := none
        fragment := some (percentEncode fragmentSet rest) }
    else pathState base rest (segment ++ percentEncodeChar pathSet c) path

def isStripped (c : Char) : Bool := decide (c ≤ ' ')

/-- The text without surrounding control characters and spaces, and without tabs and newlines. -/
def cleaned (input : List Char) : List Char :=
  ((input.dropWhile isStripped).reverse.dropWhile isStripped).reverse.filter
    fun c => !(c == '\t' || c == '\n' || c == '\r')

/-- Resolve a reference against a base with a special scheme. -/
def join (parseOther : Url → List Char → Option Url) (base : Url) (input : List Char) :
    Option Url :=
  match cleaned input with
  | '/' :: rest =>
    if rest.head? = some '/' ∨ rest.head? = some '\\' then parseOther base ('/' :: rest)
    else some (pathState base rest [] [])
  | other => parseOther base other

def pathText (u : Url) : List Char := ['/'].intercalate ([] :: u.path)

/-! ## What is kept -/

theorem pathState_origin (base : Url) (cs segment : List Char) (path : List (List Char)) :
    (pathState base cs segment path).scheme = base.scheme ∧
      (pathState base cs segment path).host = base.host ∧
      (pathState base cs segment path).port = base.port := by
  induction cs generalizing segment path with
  | nil => exact ⟨rfl, rfl, rfl⟩
  | cons c rest ih =>
    unfold pathState
    split
    · exact ih _ _
    · split
      · exact ⟨rfl, rfl, rfl⟩
      · split
        · exact ⟨rfl, rfl, rfl⟩
        · exact ih _ _

theorem percentEncode_cons (set : Char → Bool) (c : Char) (cs : List Char) :
    percentEncode set (c :: cs) = percentEncodeChar set c ++ percentEncode set cs := rfl

theorem percentEncode_append (set : Char → Bool) (cs ds : List Char) :
    percentEncode set (cs ++ ds) = percentEncode set cs ++ percentEncode set ds :=
  List.flatMap_append

theorem percentEncode_self {set : Char → Bool} {cs : List Char} (h : ∀ c ∈ cs, set c = false) :
    percentEncode set cs = cs := by
  induction cs with
  | nil => rfl
  | cons c cs ih =>
    rw [percentEncode_cons, ih fun d hd => h d (by simp [hd]), percentEncodeChar, h c (by simp)]
    rfl

/-! ## Dot segments -/

/-- Only the dot has its byte first. -/
theorem utf8_dot {c : Char} {bytes : List UInt8}
    (h : String.utf8EncodeChar c = 0x2e :: bytes) : c = '.' := by
  have htoNat : c.toNat = c.val.toNat := rfl
  unfold String.utf8EncodeChar at h
  simp only at h
  split at h
  · have hv := congrArg UInt8.toNat (List.cons.inj h).1
    have hdot : '.'.val.toNat = 46 := by decide
    simp at hv
    refine Char.ext (UInt32.toNat_inj.1 ?_)
    omega
  · split at h
    · have hv := congrArg UInt8.toNat (List.cons.inj h).1
      simp at hv
      omega
    · split at h
      · have hv := congrArg UInt8.toNat (List.cons.inj h).1
        simp at hv
        omega
      · have hv := congrArg UInt8.toNat (List.cons.inj h).1
        simp at hv
        omega

theorem hexDigit_two {n : Nat} (hn : n < 16) (h : (hexDigit n).toLower = '2') : n = 2 := by
  revert h
  revert n
  decide

theorem hexDigit_e {n : Nat} (hn : n < 16) (h : (hexDigit n).toLower = 'e') : n = 14 := by
  revert h
  revert n
  decide

def EscapesDots (cs : List Char) : Prop :=
  ∀ i < cs.length, cs[i]? = some '%' → cs[i + 1]? = some '2' ∧ cs[i + 2]? = some 'e'

instance (cs : List Char) : Decidable (EscapesDots cs) :=
  inferInstanceAs (Decidable (∀ i < cs.length, _ → _))

/-- No character is percent-encoded where only dots could be, and dots are not. -/
theorem percentEncode_eq_self {set : Char → Bool} (hdot : set '.' = false) {cs : List Char}
    (h : EscapesDots ((percentEncode set cs).map Char.toLower)) : percentEncode set cs = cs := by
  refine percentEncode_self fun c hc => ?_
  by_contra hset
  rw [Bool.not_eq_false] at hset
  obtain ⟨pre, post, rfl⟩ := List.append_of_mem hc
  obtain ⟨b, bytes, hbytes⟩ := List.exists_cons_of_ne_nil (@String.utf8EncodeChar_ne_nil c)
  have htext : (percentEncode set (pre ++ c :: post)).map Char.toLower =
      (percentEncode set pre).map Char.toLower ++ '%' :: (hexDigit (b.toNat / 16)).toLower ::
        (hexDigit (b.toNat % 16)).toLower ::
        ((bytes.flatMap percentEncodeByte ++ percentEncode set post).map Char.toLower) := by
    simp only [percentEncode_append, percentEncode_cons, percentEncodeChar, hset, if_true, hbytes,
      List.flatMap_cons, percentEncodeByte, List.map_append, List.cons_append, List.nil_append,
      List.map_cons]
    rfl
  rw [htext] at h
  have hat := h ((percentEncode set pre).map Char.toLower).length (by simp) (by simp)
  rw [List.getElem?_append_right (by omega), List.getElem?_append_right (by omega)] at hat
  simp only [Nat.add_sub_cancel_left, List.getElem?_cons_succ, List.getElem?_cons_zero,
    Option.some.injEq] at hat
  have hb : b.toNat < 256 := b.toNat_lt
  have hhigh := hexDigit_two (by omega) hat.1
  have hlow := hexDigit_e (by omega) hat.2
  have hbdot : b = 0x2e := UInt8.toNat_inj.1 (by
    have : (0x2e : UInt8).toNat = 46 := rfl
    omega)
  rw [hbdot] at hbytes
  rw [utf8_dot hbytes, hdot] at hset
  cases hset

def isDots (segment : List Char) : Bool := isSingleDot segment || isDoubleDot segment

theorem isDots_escapes {cs : List Char} (h : isDots cs = true) :
    EscapesDots (cs.map Char.toLower) := by
  simp only [isDots, isSingleDot, isDoubleDot, List.any_cons, List.any_nil, Bool.or_false,
    Bool.or_eq_true, beq_iff_eq] at h
  rcases h with (h | h) | h | h | h | h <;> (rw [h]; decide)

theorem isDots_percentEncode {cs : List Char} (h : isDots cs = false) :
    isDots (percentEncode pathSet cs) = false := by
  by_contra hdots
  rw [Bool.not_eq_false] at hdots
  have hself := percentEncode_eq_self (by decide) (isDots_escapes hdots)
  rw [hself, h] at hdots
  cases hdots

theorem pushSegment_plain {segment : List Char} (h : isDots segment = false) (slash : Bool)
    (path : List (List Char)) : pushSegment slash segment path = path ++ [segment] := by
  rw [isDots, Bool.or_eq_false_iff] at h
  simp [pushSegment, h.1, h.2]

/-! ## The segments -/

def pathOf (cs : List Char) : List Char := cs.takeWhile (· ≠ '?')

theorem pathState_path (base : Url) {cs raw : List Char} (path : List (List Char))
    (hplain : ∀ c ∈ pathOf cs, c ≠ '\\' ∧ c ≠ '#')
    (hdots : ∀ s ∈ ((pathOf cs).splitOn '/').modifyHead (raw ++ ·), isDots s = false) :
    (pathState base cs (percentEncode pathSet raw) path).path =
      path ++ (((pathOf cs).splitOn '/').modifyHead (raw ++ ·)).map (percentEncode pathSet) := by
  induction cs generalizing raw path with
  | nil =>
    have hraw : isDots raw = false := hdots raw (by simp [pathOf])
    simp [pathState, pathOf, pushSegment_plain (isDots_percentEncode hraw)]
  | cons c rest ih =>
    by_cases hslash : c = '/'
    · subst hslash
      have hpath : pathOf ('/' :: rest) = '/' :: pathOf rest := rfl
      rw [hpath] at hplain hdots ⊢
      simp only [List.splitOn_cons_eq_if_modifyHead, beq_self_eq_true, if_true, List.modifyHead_cons,
        List.append_nil, List.mem_cons, forall_eq_or_imp] at hplain hdots ⊢
      have hraw := pushSegment_plain (isDots_percentEncode hdots.1) true path
      have hnil : percentEncode pathSet [] = [] := rfl
      have hid : ((pathOf rest).splitOn '/').modifyHead ([] ++ ·) = (pathOf rest).splitOn '/' := by
        cases (pathOf rest).splitOn '/' <;> rfl
      have := @ih [] (path ++ [percentEncode pathSet raw]) hplain.2 (by
        rw [hid]
        exact hdots.2)
      rw [hid, hnil] at this
      rw [pathState, if_pos (.inl rfl), hraw, this]
      simp
    · by_cases hquery : c = '?'
      · subst hquery
        have hpath : pathOf ('?' :: rest) = [] := rfl
        rw [hpath] at hdots ⊢
        have hraw : isDots raw = false := hdots raw (by simp)
        rw [pathState, if_neg (by decide), if_pos rfl]
        simp [pushSegment_plain (isDots_percentEncode hraw)]
      · have hpath : pathOf (c :: rest) = c :: pathOf rest := by simp [pathOf, hquery]
        have hsplit : ((c :: pathOf rest).splitOn '/').modifyHead (raw ++ ·) =
            ((pathOf rest).splitOn '/').modifyHead (raw ++ [c] ++ ·) := by
          rw [List.splitOn_cons_eq_if_modifyHead, if_neg (by simpa using hslash),
            List.modifyHead_modifyHead]
          congr 1
          funext cs
          simp
        rw [hpath] at hplain hdots ⊢
        rw [hsplit] at hdots ⊢
        have hc := hplain c (by simp)
        have hencode : percentEncode pathSet (raw ++ [c]) =
            percentEncode pathSet raw ++ percentEncodeChar pathSet c := by
          rw [percentEncode_append]
          simp [percentEncode]
        rw [pathState, if_neg (by tauto), if_neg hquery, if_neg hc.2, ← hencode]
        exact ih path (fun d hd => hplain d (by simp [hd])) hdots

theorem percentEncode_slash {cs : List Char} (h : '/' ∉ cs) : '/' ∉ percentEncode pathSet cs := by
  intro hmem
  obtain ⟨c, hc, hin⟩ := List.mem_flatMap.1 hmem
  unfold percentEncodeChar at hin
  split at hin
  · obtain ⟨b, _, hb⟩ := List.mem_flatMap.1 hin
    have hdigit : ∀ n < 16, hexDigit n ≠ '/' := by decide
    have hlt : b.toNat < 256 := b.toNat_lt
    simp only [percentEncodeByte, List.mem_cons, List.not_mem_nil, or_false] at hb
    rcases hb with hb | hb | hb
    · cases hb
    · exact hdigit _ (by omega) hb.symm
    · exact hdigit _ (by omega) hb.symm
  · rw [List.mem_singleton] at hin
    exact h (hin ▸ hc)

theorem not_mem_splitOn {α : Type} [BEq α] [LawfulBEq α] {sep : α} {cs : List α} :
    ∀ s ∈ cs.splitOn sep, sep ∉ s := by
  induction cs with
  | nil => simp
  | cons c cs ih =>
    rw [List.splitOn_cons_eq_if_modifyHead]
    split
    · rw [List.forall_mem_cons]
      exact ⟨by simp, ih⟩
    · rename_i hc
      cases hsplit : cs.splitOn sep with
      | nil => simp
      | cons s rest =>
        rw [hsplit, List.forall_mem_cons] at ih
        rw [List.modifyHead_cons, List.forall_mem_cons]
        refine ⟨fun hmem => ?_, ih.2⟩
        rcases List.mem_cons.1 hmem with hmem | hmem
        · exact hc (by simpa using hmem.symm)
        · exact ih.1 hmem

theorem infix_of_mem_splitOn {s cs : List Char} (h : s ∈ cs.splitOn '/') : s <:+: cs := by
  have hjoin : ['/'].intercalate (cs.splitOn '/') = cs := List.intercalate_splitOn '/'
  rw [← hjoin]
  clear hjoin
  generalize cs.splitOn '/' = parts at h
  induction parts with
  | nil => simp at h
  | cons t parts ih =>
    cases parts with
    | nil =>
      rw [List.mem_singleton] at h
      rw [h, List.intercalate_singleton]
    | cons u parts =>
      rw [List.intercalate_cons_cons]
      rcases List.mem_cons.1 h with rfl | h
      · exact ⟨[], ['/'] ++ ['/'].intercalate (u :: parts), by simp⟩
      · exact (ih h).trans (List.suffix_append _ _).isInfix

/-- A segment that is not a dot segment as it stands, in a text without escaped dots. -/
theorem isDots_plain {s cs : List Char} (hs : s <:+: cs) (hdot : s ≠ ['.'] ∧ s ≠ ['.', '.'])
    (hescaped : ¬ "%2e".toList <:+: cs.map Char.toLower) : isDots s = false := by
  have hlower : ∀ c : Char, c.toLower = '.' → c = '.' := by
    intro c hc
    unfold Char.toLower at hc
    split at hc
    · rename_i hupper
      have hval := congrArg Char.val hc
      simp only [ge_iff_le, Char.reduceVal] at hval hupper
      have hle := UInt32.le_iff_toNat_le.1 hupper.1
      have hge := UInt32.le_iff_toNat_le.1 hupper.2
      have hnat := congrArg UInt32.toNat hval
      simp at hle hge hnat
      omega
    · exact hc
  have hinfix : ¬ "%2e".toList <:+: s.map Char.toLower := fun h => hescaped (h.trans (hs.map _))
  by_contra hdots
  rw [Bool.not_eq_false] at hdots
  simp only [isDots, isSingleDot, isDoubleDot, List.any_cons, List.any_nil, Bool.or_false,
    Bool.or_eq_true, beq_iff_eq] at hdots
  rcases hdots with (h | h) | h | h | h | h
  · obtain ⟨c, rfl, hc⟩ := List.map_eq_singleton_iff.1 h
    exact hdot.1 (by rw [hlower c hc])
  · rw [h] at hinfix
    exact hinfix (by decide)
  · obtain ⟨c, t, rfl, hc, ht⟩ := List.map_eq_cons_iff.1 h
    obtain ⟨d, rfl, hd⟩ := List.map_eq_singleton_iff.1 ht
    exact hdot.2 (by rw [hlower c hc, hlower d hd])
  · rw [h] at hinfix
    exact hinfix (by decide)
  · rw [h] at hinfix
    exact hinfix (by decide)
  · rw [h] at hinfix
    exact hinfix (by decide)

theorem cleaned_self {cs : List Char} (h : ∀ c ∈ cs, ' ' < c) : cleaned cs = cs := by
  have hkeep : ∀ ds : List Char, (∀ c ∈ ds, ' ' < c) → ds.dropWhile isStripped = ds := by
    intro ds hds
    cases ds with
    | nil => rfl
    | cons c ds =>
      have hc : isStripped c = false := by
        simpa [isStripped] using hds c (by simp)
      rw [List.dropWhile_cons_of_neg (by simp [hc])]
  unfold cleaned
  rw [hkeep cs h, hkeep cs.reverse (by simpa using h), List.reverse_reverse, List.filter_eq_self]
  intro c hc
  have hlt := h c hc
  have hne : ∀ d : Char, d ≤ ' ' → c ≠ d := fun d hd he => absurd (he ▸ hlt) (by simpa using hd)
  simp [hne '\t' (by decide), hne '\n' (by decide), hne '\r' (by decide)]

/-- **Joining keeps the segments**: a reference that is a path from the root, and
maybe a query, names the base's host, and the path it requests has the segments
of the text, percent-encoded. -/
theorem join_segments (parseOther : Url → List Char → Option Url) (base : Url) {rest : List Char}
    (htarget : ∀ c ∈ '/' :: rest, ' ' < c) (hsingle : rest.head? ≠ some '/')
    (hplain : ∀ c ∈ rest, c ≠ '\\' ∧ c ≠ '#')
    (hdots : ∀ s ∈ (pathOf rest).splitOn '/', isDots s = false) :
    ∃ u, join parseOther base ('/' :: rest) = some u ∧ u.scheme = base.scheme ∧
      u.host = base.host ∧ u.port = base.port ∧
      u.path = ((pathOf rest).splitOn '/').map (percentEncode pathSet) ∧
      u.pathText.splitOn '/' = [] :: u.path := by
  have hback : rest.head? ≠ some '\\' := fun h => (hplain _ (List.mem_of_mem_head? h)).1 rfl
  refine ⟨pathState base rest [] [], ?_, (pathState_origin _ _ _ _).1, (pathState_origin _ _ _ _).2.1,
    (pathState_origin _ _ _ _).2.2, ?_⟩
  · unfold join
    rw [cleaned_self htarget]
    simp [hsingle, hback]
  · have hid : ((pathOf rest).splitOn '/').modifyHead ([] ++ ·) = (pathOf rest).splitOn '/' := by
      cases (pathOf rest).splitOn '/' <;> rfl
    have hpath := @pathState_path base rest [] []
      (fun c hc => hplain c ((List.takeWhile_prefix _).subset hc)) (by
        rw [hid]
        exact hdots)
    rw [hid] at hpath
    have hpath : (pathState base rest [] []).path =
        ((pathOf rest).splitOn '/').map (percentEncode pathSet) := hpath
    refine ⟨hpath, List.splitOn_intercalate _ (fun s hs => ?_) (by simp)⟩
    rcases List.mem_cons.1 hs with rfl | hs
    · simp
    · rw [hpath] at hs
      obtain ⟨t, ht, rfl⟩ := List.mem_map.1 hs
      exact percentEncode_slash (not_mem_splitOn t ht)

end Url

end AgentPalace
